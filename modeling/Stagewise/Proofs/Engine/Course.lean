import Mathlib.Logic.Relation
import Stagewise.Proofs.Dag.Moves
import Stagewise.Proofs.Engine.Frame
/-!
# Engine operations are steps of courses

What an engine operation stores for a dag is what a step of its course stores: from a stored record
that is the one of a course, the operation either leaves the stored dags as they are, or stores the
record of the next course. A stage that the drive loop sends out is the one that the course sends
out, and the reports that it folds in answer that stage.
-/

namespace Stagewise

open Relation (ReflTransGen TransGen)

theorem Course.sends {s : Course} {b : Barrier} (sending : s.loop = .barrier b) :
    ∃ s', ReflTransGen Step s s' ∧ s'.record = s.record ∧
      s'.loop = .barrier { b with sent := b.sent ++ b.rest, rest := [] } := by
  obtain ⟨action, stage, sent, rest⟩ := b
  induction rest generalizing s sent with
  | nil => exact ⟨s, .refl, rfl, by rw [sending, List.append_nil]⟩
  | cons p rest ih =>
    obtain ⟨s', hsteps, hrecord, hloop⟩ := ih (s := { s with
      loop := .barrier ⟨action, stage, sent ++ [p], rest⟩, history := .sent p.1 p.2 :: s.history })
        _ rfl
    refine ⟨s', .head (.send sending rfl) hsteps, hrecord, ?_⟩
    rw [hloop, List.append_assoc, List.singleton_append]

namespace Engine

variable {σ : Type} {env : Surroundings σ} {e : Engine σ} {s : Course}

/-- The stored record of the dag is the one of the course. -/
def Holds (e : Engine σ) (s : Course) : Prop := e.store.load? s.record.id = .ok (some s.record)

/-- What the engine has stored in the end is the record of the course. -/
def Stored (s s' : Course) (e e' : Engine σ) : Prop :=
  e'.store.dags = (e.store.save s'.record).dags ∨
    s'.record = s.record ∧ e'.store.dags = e.store.dags

/-- How a drive loop goes on after a step, when its course has come to stand like this. -/
inductive GoesOn : StepResult → Standing → Prop where
  | ready : GoesOn .goesOn .ready
  | waits {b : Barrier} {calls : List Call} (out : b.rest = [])
      (called : List.Forall₂ Carries b.sent calls) :
      GoesOn (.waits b.action b.stage calls) (.barrier b)

theorem Holds.perform_load (h : e.Holds s) :
    perform env (load s.record.id) e = (.ok s.record, e) := Engine.perform_load h

theorem save_of_compareAndSwap {store store' : Store} {d : Dag} {expected : Nat}
    (h : store.compareAndSwap d expected = .ok (store', true)) : store' = store.save d := by
  obtain ⟨found, -, h⟩ := bind_eq_ok h
  cases found with
  | none => cases h
  | some stored =>
    by_cases hversion : stored.version = expected
    · simp only [if_pos hversion] at h
      exact (congrArg Prod.fst (Except.ok.inj h)).symm
    · simp only [if_neg hversion] at h
      cases h

/-- A record is written with its version raised, or nothing is and there is a fault. -/
theorem commit_cases (env : Surroundings σ) (d : Dag) (e : Engine σ) :
    (∃ x e', perform env (commit d) e = (.error x, e') ∧ e'.store.dags = e.store.dags) ∨
      ∃ later e', perform env (commit d) e = (.ok (d.raised later), e') ∧
        e'.store.dags = (e.store.save (d.raised later)).dags := by
  simp only [commit, perform_bind, perform_now, perform_modify, perform_get]
  cases hswap : e.outages.swap (e.swaps + 1) with
  | loses => exact .inl ⟨_, _, rfl, rfl⟩
  | fails f => exact .inl ⟨_, _, rfl, rfl⟩
  | works =>
    simp only
    cases hswapped : e.store.compareAndSwap (d.raised e.clock.now) d.version with
    | error f => exact .inl ⟨_, _, rfl, rfl⟩
    | ok swapped =>
      obtain ⟨store, won⟩ := swapped
      simp only [stored, perform_bind, perform_pure]
      cases won with
      | false => exact .inl ⟨_, _, rfl, rfl⟩
      | true =>
        rw [save_of_compareAndSwap hswapped]
        exact .inr ⟨_, _, rfl, rfl⟩

/-- Once its move is made, the drive loop stands where the course does. -/
theorem afterMove_goesOn (env : Surroundings σ) (e : Engine σ) (events : List EventType)
    {batch : Option Batch} (standing : s.loop = Course.standingAfter s.record batch) :
    ∃ result e' s', perform env (afterMove s.record.id s.record events batch) e = (.ok result, e') ∧
      ReflTransGen Course.Step s s' ∧ s'.record = s.record ∧ e'.store.dags = e.store.dags ∧
        GoesOn result s'.loop := by
  obtain ⟨u, e₁, hrecord, hdags, -⟩ := quiet_recordAll s.record.id events env e
  cases batch with
  | none =>
    refine ⟨.goesOn, e₁, s, ?_, .refl, rfl, hdags, standing ▸ .ready⟩
    rw [afterMove, perform_bind, hrecord]
    rfl
  | some batch =>
    obtain ⟨calls, e₂, hcalls, hdags', hcalled⟩ :=
      quiet_sendOut s.record.id batch s.record.direction env e₁
    obtain ⟨s', hsteps, hkept, hloop⟩ := Course.sends standing
    refine ⟨.waits s.record.direction s.record.stage calls, e₂, s', ?_, hsteps, hkept,
      hdags'.trans hdags, ?_⟩
    · simp only [afterMove, perform_bind, hrecord, hcalls, perform_pure]
    · rw [hloop]
      exact GoesOn.waits (b := ⟨s.record.direction, s.record.stage, _, []⟩) rfl hcalled

/-- A step of the drive loop is a step of the course, with the requests sent that belong to it, or
it stores nothing and the loop does not go on. -/
theorem takeStep_course (held : e.Holds s) (ready : s.loop = .ready) :
    ∃ answer e', perform env (takeStep s.record.id) e = (answer, e') ∧
      ((answer = .ok .stops ∨ ∃ x, answer = .error x) ∧ e'.store.dags = e.store.dags ∨
        ∃ result s', answer = .ok result ∧ TransGen Course.Step s s' ∧ Stored s s' e e' ∧
          GoesOn result s'.loop) := by
  simp only [takeStep_eq, perform_bind, held.perform_load]
  by_cases hrunning : s.record.isRunning = true
  · rw [if_neg (by simp [hrunning])]
    simp only [perform_bind, perform_now]
    cases hstep : s.record.step e.clock.now with
    | error x => exact ⟨.error x, _, rfl, .inl ⟨.inr ⟨x, rfl⟩, rfl⟩⟩
    | ok move =>
      have hproceed (later : Timestamp) : s.Step (s.proceed move later) :=
        .proceed e.clock.now later ready hrunning hstep
      simp only [checked, perform_pure]
      cases hwrite : move.write with
      | none =>
        -- A rollback sends a stage out behind the record that is stored already.
        have hafter : s.proceed move e.clock.now
            = { s with loop := Course.standingAfter s.record move.batch } := by
          simp only [Course.proceed, hwrite]
        have hstanding : (s.proceed move e.clock.now).loop
            = Course.standingAfter (s.proceed move e.clock.now).record move.batch := by
          rw [hafter]
        obtain ⟨result, e', s', hsent, hsteps, hrecord, hdags, hgoes⟩ :=
          afterMove_goesOn env { e with clock := e.clock.tick } move.events hstanding
        rw [hafter] at hsent hrecord
        refine ⟨.ok result, e', hsent,
          .inr ⟨result, s', rfl, .head' (hproceed _) hsteps, ?_, hgoes⟩⟩
        exact .inr ⟨hrecord, hdags⟩
      | some record =>
        rcases commit_cases env record { e with clock := e.clock.tick } with
          ⟨x, e₁, hcommit, hdags⟩ | ⟨later, e₁, hcommit, hdags⟩
        · refine ⟨.error x, e₁, ?_, .inl ⟨.inr ⟨x, rfl⟩, hdags⟩⟩
          rw [perform_bind, hcommit]
        · have hafter : s.proceed move later
              = s.write .step record later
                (Course.standingAfter (record.raised later) move.batch) := by
            simp only [Course.proceed, hwrite]
          have hstanding : (s.proceed move later).loop
              = Course.standingAfter (s.proceed move later).record move.batch := by
            rw [hafter, Course.write_record]
            rfl
          obtain ⟨result, e', s', hsent, hsteps, hrecord, hdags', hgoes⟩ :=
            afterMove_goesOn env e₁ move.events hstanding
          have hid : (record.raised later).id = s.record.id := (Dag.step_id hstep hwrite :)
          rw [hafter] at hsent hrecord
          rw [Course.write_record] at hsent hrecord
          refine ⟨.ok result, e', ?_,
            .inr ⟨result, s', rfl, .head' (hproceed _) hsteps, .inl ?_, hgoes⟩⟩
          · rw [perform_bind, hcommit, ← hid]
            exact hsent
          · rw [hdags', hdags, hrecord]
  · rw [if_pos (by simp [hrunning])]
    exact ⟨_, e, rfl, .inl ⟨.inl rfl, rfl⟩⟩

theorem answered_of_ended {b : Barrier} {calls : List Call} (out : b.rest = [])
    (called : List.Forall₂ Carries b.sent calls) (ended : ∀ c ∈ calls, c.ended = true) :
    b.Answered (calls.filterMap Call.report?) := by
  refine ⟨out, ?_⟩
  generalize b.sent = requests at called
  induction called with
  | nil => rfl
  | @cons p c _ calls hcarries _ ih =>
    have hended : c.ended = true := ended c List.mem_cons_self
    obtain ⟨ending, hending⟩ := Option.isSome_iff_exists.mp (hcarries.reports hended)
    have hreport : c.report? = some ⟨c.task, c.agent, ending.result⟩ := by
      simp only [Call.report?, hended, hending]
    rw [List.filterMap_cons_some hreport, List.map_cons, List.map_cons,
      ih fun c' hc' => ended c' (List.mem_cons_of_mem c hc'), hcarries.task, hcarries.agent]

/-- Calls that are waited for stay those of the stage, and those that have all ended answer it. -/
theorem attend_course {b : Barrier} {calls : List Call} (out : b.rest = [])
    (called : List.Forall₂ Carries b.sent calls) (e : Engine σ) :
    ∃ calls' e', perform env (attend calls) e = (.ok calls', e') ∧ e'.store.dags = e.store.dags ∧
      GoesOn (.waits b.action b.stage calls') (.barrier b) ∧
      (calls'.all (·.ended) = true → b.Answered (calls'.filterMap Call.report?)) := by
  obtain ⟨calls', e', hattended, hdags, hkept⟩ := quiet_attend calls env e
  have hcalled : List.Forall₂ Carries b.sent calls' :=
    kept_after (fun _ _ _ hc => hc.seenLater) called hkept
  exact ⟨calls', e', hattended, hdags, .waits out hcalled,
    fun hended => answered_of_ended out hcalled (List.all_eq_true.mp hended)⟩

/-- Reports that answer a stage are folded in by a step of the course, or they are dropped. -/
theorem foldReports_course (held : e.Holds s) {b : Barrier} (waiting : s.loop = .barrier b)
    {reports : List Report} (answered : b.Answered reports) :
    ∃ answer e' s',
      perform env (foldReports s.record.id b.action b.stage reports) e = (answer, e') ∧
        s.Step s' ∧ Stored s s' e e' ∧ s'.loop = .ready := by
  have hreread : s.Step { s with loop := .ready } := .reread waiting answered.1
  simp only [foldReports, perform_bind, held.perform_load]
  by_cases hgoes : (s.record.isRunning && s.record.stage == b.stage) = true
  · obtain ⟨hrunning, hstage⟩ := (Bool.and_eq_true _ _).mp hgoes
    rw [if_pos hgoes]
    simp only [perform_bind, perform_now]
    have hfold (later : Timestamp) :=
      Course.Step.fold e.clock.now later waiting answered hrunning (beq_iff_eq.mp hstage)
    rcases commit_cases env (s.record.settle reports b.action e.clock.now).dag
      { e with clock := e.clock.tick } with
      ⟨x, e₁, hcommit, hdags⟩ | ⟨later, e₁, hcommit, hdags⟩
    · refine ⟨.error x, e₁, _, ?_, hreread, .inr ⟨rfl, hdags⟩, rfl⟩
      rw [hcommit]
    · obtain ⟨u, e', hlogged, hdags', -⟩ :=
        (quiet_logAll (s.record.settle reports b.action e.clock.now).lines).bind
          (fun _ _ => quiet_recordAll s.record.id
            (s.record.settle reports b.action e.clock.now).events) env e₁
      refine ⟨.ok u, e', _, ?_, hfold later, .inl (hdags'.trans hdags), rfl⟩
      rw [hcommit, ← perform_bind]
      exact hlogged
  · rw [if_neg hgoes]
    exact ⟨.ok (), e, _, rfl, hreread, .inr ⟨rfl, rfl⟩, rfl⟩

/-- An operator command that is answered is a step of the course; one that is refused stores
nothing. -/
theorem command_course (held : e.Holds s) (operator : Operator) :
    ∃ answer e', perform env (command s.record.id operator) e = (answer, e') ∧
      ((∃ x, answer = .error x) ∧ e'.store.dags = e.store.dags ∨
        ∃ s', answer = .ok s'.record ∧ s.Step s' ∧ Stored s s' e e' ∧
          s'.history = .wrote (.operator operator) s'.record :: s.history) := by
  simp only [command_eq, perform_bind, held.perform_load, perform_now]
  cases haccepted : s.record.command operator e.clock.now with
  | error x => exact ⟨.error x, _, rfl, .inl ⟨⟨x, rfl⟩, rfl⟩⟩
  | ok accepted =>
    obtain ⟨record, lines⟩ := accepted
    simp only [checked, perform_pure]
    rcases commit_cases env record { e with clock := e.clock.tick } with
      ⟨x, e₁, hcommit, hdags⟩ | ⟨later, e₁, hcommit, hdags⟩
    · refine ⟨.error x, e₁, ?_, .inl ⟨⟨x, rfl⟩, hdags⟩⟩
      rw [hcommit]
    · obtain ⟨d, e', hanswered, hdags', rfl⟩ :=
        quiet_afterCommand s.record.id operator lines (record.raised later) env e₁
      refine ⟨.ok (record.raised later), e', ?_,
        .inr ⟨_, rfl, .command e.clock.now later haccepted, .inl ?_, rfl⟩⟩
      · rw [hcommit]
        exact hanswered
      · exact hdags'.trans hdags

/-- A dag that is submitted is stored as the record with which a course begins; one that is refused
is not stored. -/
theorem submit_course (e : Engine σ) (spec : DagSpec)
    (fresh : (env.freshIds (e.created + 1)).DistinctFor spec) :
    ∃ answer e', perform env (submit spec) e = (answer, e') ∧
      ((∃ x, answer = .error x) ∧ e'.store.dags = e.store.dags ∨
        ∃ d, answer = .ok d ∧ (Course.start d).Lived ∧ e'.store.dags = (e.store.save d).dags) := by
  simp only [submit, perform_bind, perform_get, perform_read, perform_now]
  cases hbuilt : spec.build e.registry (env.freshIds (e.created + 1)) e.clock.now with
  | error x => exact ⟨.error (.error x), _, rfl, .inl ⟨⟨_, rfl⟩, rfl⟩⟩
  | ok d =>
    simp only
    cases hsave : e.outages.save with
    | some f => exact ⟨.error (.error (.storage f)), _, rfl, .inl ⟨⟨_, rfl⟩, rfl⟩⟩
    | none =>
      have hquiet : Quiet (do
          record d.id (.dagSubmitted d.name d.maxStage)
          spawn d.id
          return d : EngineM σ Dag) (· = d) :=
        (quiet_record d.id _).bind fun _ _ => (quiet_spawn d.id).bind fun _ _ => .pure rfl
      obtain ⟨d', e', hanswered, hdags, rfl⟩ :=
        hquiet env
          { e with clock := e.clock.tick, created := e.created + 1, store := e.store.save d }
      exact ⟨.ok d', e', hanswered, .inr ⟨d', rfl, .submitted fresh hbuilt, hdags⟩⟩

/-- What recovery stores for an interrupted task is a step of the course. -/
theorem saveTaskStatus_course (held : e.Holds s) {t : Task} {left : List Task}
    (recovering : s.loop = .recovering (t :: left)) (registry : Registry)
    (entries : List LogEntry) (now : Timestamp) {store : Store}
    (saved : e.store.saveTaskStatus s.record.id t.id (registry.recovered t).1 entries now
      = .ok store) :
    ∃ s', s.Step s' ∧ store.dags = (e.store.save s'.record).dags ∧ s'.loop = .recovering left := by
  refine ⟨_, .recover registry now recovering, ?_, rfl⟩
  have hload : e.store.load? s.record.id = .ok (some s.record) := held
  obtain ⟨found, hfound, hrest⟩ := bind_eq_ok saved
  rw [hload, Except.ok.injEq] at hfound
  subst hfound
  by_cases hmissing : (s.record.task? t.id).isNone = true
  · simp only [if_pos hmissing] at hrest
    cases hrest
  · simp only [if_neg hmissing] at hrest
    rw [← Except.ok.inj hrest, appendLogs_dags]
    rfl

end Engine

end Stagewise
