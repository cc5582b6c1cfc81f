import Stagewise.Proofs.Arena.Alone
import Stagewise.Proofs.Engine.Command
import Stagewise.Proofs.Engine.Course
/-!
# Engine operations are acts in an arena

An engine does one thing after another, each of them in one go. What it does for one dag is what a
process of the dag does when no other comes in: it starts and stops drive loops as the register of
the arena has it, and reads and writes the record in the same order.
-/

namespace Stagewise

namespace Engine

variable {σ α : Type} {env : Surroundings σ} {e : Engine σ} {c : Common} {dag : DagId}

/-- The engine has the loops of a dag on its register as the arena has it. -/
structure Enrols (e : Engine σ) (dag : DagId) (c : Common) : Prop where
  entry : e.active.lookup dag = c.entry
  next : e.generations = c.next

theorem Enrols.of_standing {e' : Engine σ} (h : e.Enrols dag c)
    (same : e'.standing = e.standing) : e'.Enrols dag c := by
  simp only [standing, Prod.mk.injEq] at same
  obtain ⟨-, hactive, hnext, -⟩ := same
  exact ⟨hactive ▸ h.entry, hnext ▸ h.next⟩

theorem lookup_filter_dag (active : List (DagId × Nat)) (dag : DagId) :
    (active.filter (·.1 != dag)).lookup dag = none := by
  induction active with
  | nil => rfl
  | cons entry rest ih =>
    by_cases hdag : entry.1 = dag
    · rw [List.filter_cons_of_neg (by simp [hdag]), ih]
    · rw [List.filter_cons_of_pos (by simp [hdag]), List.lookup_cons, ih]
      have hother : (dag == entry.1) = false := beq_eq_false_iff_ne.mpr (Ne.symm hdag)
      rw [hother]

theorem lookup_filter_entry {active : List (DagId × Nat)} (once : (active.map Prod.fst).Nodup)
    (dag : DagId) (g : Nat) :
    (active.filter (· != (dag, g))).lookup dag
      = if active.lookup dag = some g then none else active.lookup dag := by
  induction active with
  | nil => rfl
  | cons entry rest ih =>
    obtain ⟨k, h⟩ := entry
    rw [List.map_cons, List.nodup_cons] at once
    by_cases hdag : dag = k
    · subst hdag
      have hnone : rest.lookup dag = none := by
        rw [List.lookup_eq_none_iff]
        intro entry hentry
        have hne : dag ≠ entry.1 := fun he =>
          once.1 (he ▸ List.mem_map.mpr ⟨entry, hentry, rfl⟩)
        simpa using hne
      have hlookup : List.lookup dag ((dag, h) :: rest) = some h := by simp
      by_cases hg : h = g
      · subst hg
        have hrest := ih once.2
        rw [hnone] at hrest
        rw [List.filter_cons_of_neg (by simp), hrest, hlookup]
        simp
      · rw [List.filter_cons_of_pos (by simp [hg]), hlookup, if_neg (by simpa using hg)]
        simp
    · have hother : (dag == k) = false := beq_eq_false_iff_ne.mpr hdag
      have hkept : ((k, h) != (dag, g)) = true := by
        simp only [bne_iff_ne, ne_eq, Prod.mk.injEq, not_and]
        exact fun hk => absurd hk.symm hdag
      have hfilter : ((k, h) :: rest).filter (· != (dag, g))
          = (k, h) :: rest.filter (· != (dag, g)) := List.filter_cons_of_pos hkept
      rw [hfilter, List.lookup_cons, List.lookup_cons, hother]
      exact ih once.2

theorem spawn_enrols (env : Surroundings σ) (h : e.Enrols dag c) :
    ∃ e', perform env (spawn dag) e = (.ok (), e') ∧ e'.Enrols dag c.spawn ∧
      e'.store = e.store := by
  refine ⟨_, perform_modify _, ?_⟩
  cases hentry : c.entry with
  | some g =>
    have hspawn : c.spawn = c := by rw [Common.spawn, hentry]
    rw [if_pos (by simp [isActive, h.entry, hentry]), hspawn]
    exact ⟨h, rfl⟩
  | none =>
    have hspawn : c.spawn = { c with
        entry := some c.next, next := c.next + 1, started := c.next :: c.started } := by
      rw [Common.spawn, hentry]
    rw [if_neg (by simp [isActive, h.entry, hentry]), hspawn]
    refine ⟨⟨?_, congrArg (· + 1) h.next⟩, rfl⟩
    simp [List.lookup_append, h.entry, hentry, h.next]

theorem deregister_enrols (env : Surroundings σ) (once : (e.active.map Prod.fst).Nodup)
    (h : e.Enrols dag c) (g : Nat) :
    ∃ e', perform env (deregister dag g) e = (.ok (), e') ∧ e'.Enrols dag (c.deregister g) ∧
      e'.store = e.store := by
  refine ⟨_, perform_modify _, ⟨?_, h.next⟩, rfl⟩
  simp only [lookup_filter_entry once, h.entry, Common.deregister]

theorem stop_enrols (env : Surroundings σ) (h : e.Enrols dag c) :
    ∃ e', perform env (stop dag) e = (.ok (), e') ∧
      e'.Enrols dag { c with entry := none } ∧ e'.store = e.store := by
  refine ⟨_, perform_modify _, ?_⟩
  cases hentry : e.active.lookup dag with
  | some g => exact ⟨⟨lookup_filter_dag _ _, h.next⟩, rfl⟩
  | none => exact ⟨⟨hentry, h.next⟩, rfl⟩

theorem shutdown_enrols (env : Surroundings σ) (h : e.Enrols dag c) :
    ∃ e', perform env (shutdown : EngineM σ Unit) e = (.ok (), e') ∧ e'.Enrols dag c.shutdown ∧
      e'.store = e.store :=
  ⟨_, perform_modify _, ⟨rfl, h.next⟩, rfl⟩

/-! ## Operations as acts -/

/-- What an operation does that leaves the dags and the register as they are. -/
theorem Enrols.aside {m : EngineM σ α} {test : α → Prop} (h : e.Enrols dag c) (quiet : Quiet m test)
    (keeps : Keeps standing m) (env : Surroundings σ) :
    ∃ a e', perform env m e = (.ok a, e') ∧ e'.Enrols dag c ∧ e'.store.dags = e.store.dags ∧
      test a := by
  obtain ⟨a, e', hperformed, hdags, htest⟩ := quiet env e
  have hstanding := keeps env e
  rw [hperformed] at hstanding
  exact ⟨a, e', hperformed, h.of_standing hstanding, hdags, htest⟩

/-- What the engine has stored in the end is the record that the arena has come to. -/
def Wrote (e e' : Engine σ) (c c' : Common) : Prop :=
  e'.store.dags = (e.store.save c'.record).dags ∨
    c'.record = c.record ∧ e'.store.dags = e.store.dags

theorem revoke_acts (c : Common) (n : Nat) :
    ∃ c', Acts (.caller n) c (.committed .cancel) c' .idle ∧ c'.record = c.record ∧
      c'.entry = none ∧ c'.next = c.next := by
  have hrevoke : Act (.caller n) c (.committed .cancel) { c with entry := none }
    (.revoking c.entry) := .revoke
  cases hentry : c.entry with
  | some g =>
    rw [hentry] at hrevoke
    exact ⟨_, .head hrevoke (.single .cancel), rfl, rfl, rfl⟩
  | none =>
    rw [hentry] at hrevoke
    exact ⟨_, .head hrevoke (.single .release), rfl, rfl, rfl⟩

theorem afterCommand_acts (env : Surroundings σ) (h : e.Enrols dag c) (n : Nat)
    (operator : Operator) (lines : LogLines) (d : Dag) :
    ∃ e' c', perform env (afterCommand dag operator lines d) e = (.ok d, e') ∧
      Acts (.caller n) c (.committed operator) c' .idle ∧ e'.Enrols dag c' ∧
        c'.record = c.record ∧ e'.store.dags = e.store.dags := by
  obtain ⟨_, e₁, hlogged, h₁, hdags₁, -⟩ := h.aside (quiet_logAll lines) (keeps_logAll lines) env
  obtain ⟨_, e₂, hrecorded, h₂, hdags₂, -⟩ :=
    h₁.aside (quiet_record dag (.operatorCommand operator)) (keeps_record _ _) env
  have hdags : e₂.store.dags = e.store.dags := hdags₂.trans hdags₁
  simp only [afterCommand, perform_bind, hlogged, hrecorded]
  by_cases hcancel : operator = .cancel
  · subst hcancel
    obtain ⟨e₃, hstopped, h₃, hstore⟩ := stop_enrols env h₂
    obtain ⟨_, e', hnoted, h', hdags', -⟩ :=
      h₃.aside (quiet_record dag .dagCancelled) (keeps_record _ _) env
    obtain ⟨c', hacts, hrecord, hentry, hnext⟩ := revoke_acts c n
    refine ⟨e', c', ?_, hacts, ⟨?_, ?_⟩, hrecord, by rw [hdags', hstore, hdags]⟩
    · simp only [if_true, perform_bind, hstopped, hnoted, perform_pure]
    · rw [h'.entry, hentry]
    · rw [h'.next, hnext]
  · obtain ⟨e', hspawned, h', hstore⟩ := spawn_enrols env h₂
    have hrecord : c.spawn.record = c.record := by
      rw [Common.spawn]
      split <;> rfl
    refine ⟨e', c.spawn, ?_, .single (.start hcancel), h', hrecord, by rw [hstore, hdags]⟩
    simp only [if_neg hcancel, perform_bind, hspawned, perform_pure]

/-- A command for a dag that is stored is what a caller does in the arena. -/
theorem command_acts (env : Surroundings σ)
    (held : e.store.load? c.record.id = .ok (some c.record)) (h : e.Enrols c.record.id c)
    (works : e.outages.swap (e.swaps + 1) = .works) (shaped : c.record.Shaped) (n : Nat)
    (operator : Operator) :
    ∃ answer e' c', perform env (command c.record.id operator) e = (answer, e') ∧
      Acts (.caller n) c .idle c' .idle ∧ e'.Enrols c.record.id c' ∧ Wrote e e' c c' := by
  have hentered : Acts (.caller n) c .idle c (.commanded operator) :=
    .head (.call operator) (.single .attend)
  simp only [command_eq, perform_bind, perform_load held, perform_now]
  cases haccepted : c.record.command operator e.clock.now with
  | error x =>
    exact ⟨.error x, _, c, rfl, hentered.trans (.single (.refuse _ haccepted)),
      ⟨h.entry, h.next⟩, .inr ⟨rfl, rfl⟩⟩
  | ok accepted =>
    obtain ⟨record, lines⟩ := accepted
    obtain ⟨-, hrecord⟩ := (Dag.command_cases haccepted).admitted shaped.distinct
    have hid : record.id = c.record.id := by rw [hrecord, obeying_id]
    have hversion : record.version = c.record.version := by rw [hrecord, obeying_version]
    have hcommit := commit_works env (e := { e with clock := e.clock.tick }) held hid hversion works
    generalize hlater : e.clock.tick.now = later at hcommit
    have hwritten : Enrols (written { e with clock := e.clock.tick } (record.raised later))
        c.record.id (c.write (.caller n) record later) := ⟨h.entry, h.next⟩
    obtain ⟨e', c', hafter, hacts, h', hrecord, hdags⟩ :=
      afterCommand_acts env hwritten n operator lines (record.raised later)
    refine ⟨.ok (record.raised later), e', c', ?_, ?_, h', .inl ?_⟩
    · simp only [checked, perform_pure]
      rw [hcommit]
      exact hafter
    · exact hentered.trans (.head (.prepare _ haccepted) (.head (.commit later rfl) hacts))
    · rw [hdags, hrecord]
      rfl

/-! ## A drive loop -/

/-- Where a drive loop has come to with what a step of it came to. A stage is sent out, and nobody
has answered yet. -/
inductive Leads : Except Fault StepResult → Post → Prop where
  | goesOn : Leads (.ok .goesOn) .checking
  | waits {b : Barrier} {calls : List Call} (out : b.rest = [])
      (called : List.Forall₂ Carries b.sent calls) :
      Leads (.ok (.waits b.action b.stage calls)) (.waiting b (b.sent.map fun _ => none))
  | stops : Leads (.ok .stops) .leaving
  | breaksOff (x : Fault) : Leads (.error x) .gone

theorem afterMove_acts (env : Surroundings σ) (record : Dag) (h : e.Enrols record.id c) (g : Nat)
    (events : List EventType) (batch : Option Batch) :
    ∃ result e' post, perform env (afterMove record.id record events batch) e = (.ok result, e') ∧
      Acts (.loop g) c (.after record batch) c post ∧ Leads (.ok result) post ∧
        e'.Enrols record.id c ∧ e'.store.dags = e.store.dags := by
  obtain ⟨_, e₁, hrecord, h₁, hdags, -⟩ :=
    h.aside (quiet_recordAll record.id events) (keeps_recordAll _ _) env
  cases batch with
  | none =>
    refine ⟨.goesOn, e₁, .checking, ?_, .refl, .goesOn, h₁, hdags⟩
    rw [afterMove, perform_bind, hrecord]
    rfl
  | some batch =>
    obtain ⟨calls, e', hcalls, h', hdags', hcalled⟩ :=
      h₁.aside (quiet_sendOut record.id batch record.direction) (keeps_sendOut _ _ _) env
    have hsent := send_acts c g record.direction record.stage []
      (batch.requests record.id record.direction)
    rw [List.nil_append] at hsent
    refine ⟨.waits record.direction record.stage calls, e', _, ?_, hsent,
      .waits (b := ⟨record.direction, record.stage, _, []⟩) rfl hcalled, h', hdags'.trans hdags⟩
    simp only [afterMove, perform_bind, hrecord, hcalls, perform_pure]

/-- A step of a drive loop that is not told to stop. -/
theorem takeStep_acts (env : Surroundings σ)
    (held : e.store.load? c.record.id = .ok (some c.record)) (h : e.Enrols c.record.id c)
    (works : e.outages.swap (e.swaps + 1) = .works) {g : Nat} (live : g ∉ c.cancelled) :
    ∃ answer e' c' post, perform env (takeStep c.record.id) e = (answer, e') ∧
      Acts (.loop g) c .checking c' post ∧ Leads answer post ∧ e'.Enrols c.record.id c' ∧
        Wrote e e' c c' := by
  have hentered : Acts (.loop g) c .checking c .stepping := .head (.goOn live) (.single .enter)
  simp only [takeStep_eq, perform_bind, perform_load held]
  by_cases hrunning : c.record.isRunning = true
  · rw [if_neg (by simp [hrunning])]
    simp only [perform_bind, perform_now]
    cases hstep : c.record.step e.clock.now with
    | error x =>
      exact ⟨.error x, _, c, .gone, rfl, hentered.trans (.single (.breakOff _ hrunning hstep)),
        .breaksOff x, ⟨h.entry, h.next⟩, .inr ⟨rfl, rfl⟩⟩
    | ok move =>
      have hchosen := hentered.trans (.single (.choose _ hrunning hstep))
      have hticked : Enrols { e with clock := e.clock.tick } c.record.id c := ⟨h.entry, h.next⟩
      simp only [checked, perform_pure]
      cases hwrite : move.write with
      | none =>
        obtain ⟨result, e', post, hsent, hacts, hleads, h', hdags⟩ :=
          afterMove_acts env c.record hticked g move.events move.batch
        exact ⟨.ok result, e', c, post, hsent, hchosen.trans (.head (.pass hwrite) hacts), hleads,
          h', .inr ⟨rfl, hdags⟩⟩
      | some record =>
        have hid : record.id = c.record.id := Dag.step_id hstep hwrite
        have hversion : record.version = c.record.version := (Dag.step_same hstep hwrite).2
        have hcommit := commit_works env (e := { e with clock := e.clock.tick }) held hid hversion
          works
        generalize hlater : e.clock.tick.now = later at hcommit
        have hwritten : Enrols (written { e with clock := e.clock.tick } (record.raised later))
            (record.raised later).id (c.write (.loop g) record later) :=
          ⟨hid ▸ h.entry, h.next⟩
        obtain ⟨result, e', post, hsent, hacts, hleads, h', hdags⟩ :=
          afterMove_acts env (record.raised later) hwritten g move.events move.batch
        have hraised : (record.raised later).id = c.record.id := hid
        refine ⟨.ok result, e', _, post, ?_, hchosen.trans (.head (.write later hwrite rfl) hacts),
          hleads, hraised ▸ h', .inl hdags⟩
        rw [perform_bind, hcommit, ← hraised]
        exact hsent
  · rw [if_pos (by simp [hrunning])]
    exact ⟨_, e, c, .leaving, rfl, hentered.trans (.single (.rest hrunning)), .stops, h,
      .inr ⟨rfl, rfl⟩⟩

theorem reports_of_answered {b : Barrier} {reports : List Report} (answered : b.Answered reports) :
    b.reports (reports.map fun r => some r.result) = reports := by
  obtain ⟨-, hall⟩ := answered
  simp only [Barrier.reports, List.filterMap_map]
  generalize b.sent = requests at hall
  induction reports generalizing requests with
  | nil => simp
  | cons r rest ih =>
    cases requests with
    | nil => cases hall
    | cons p requests =>
      obtain ⟨a, q⟩ := p
      simp only [List.map_cons, List.cons.injEq, Prod.mk.injEq] at hall
      obtain ⟨⟨htask, hagent⟩, hrest⟩ := hall
      have hr : (⟨q.task.id, a, r.result⟩ : Report) = r := by rw [← htask, ← hagent]
      simp only [List.filterMap_cons, Function.comp, id_eq, List.zipWith_cons_cons, hr]
      exact congrArg _ (ih _ hrest)

/-- A drive loop whose calls have all ended has the answers of its stage. -/
theorem ended_acts (c : Common) (g : Nat) {b : Barrier} {calls : List Call} (out : b.rest = [])
    (called : List.Forall₂ Carries b.sent calls) (ended : ∀ call ∈ calls, call.ended = true) :
    Acts (.loop g) c (.waiting b (b.sent.map fun _ => none)) c
      (.returning b (calls.filterMap Call.report?)) := by
  have hanswered := answered_of_ended out called ended
  generalize calls.filterMap Call.report? = reports at hanswered
  have hlength : b.sent.length = reports.length := by
    simpa using (congrArg List.length hanswered.2).symm
  have hmay : List.Forall₂ MayBecome (b.sent.map fun _ => none) (reports.map (·.result)) := by
    rw [List.forall₂_map_left_iff, List.forall₂_map_right_iff]
    exact List.forall₂_iff_zip.mpr ⟨hlength, fun _ => .inl rfl⟩
  have hcollected := collect_acts c g b out hmay
  rw [List.map_map] at hcollected
  exact reports_of_answered hanswered ▸ hcollected

theorem settle_same {d : Dag} (h : d.Distinct) (reports : List Report) (action : Action)
    (now : Timestamp) :
    (d.settle reports action now).dag.id = d.id ∧
      (d.settle reports action now).dag.version = d.version := by
  cases action with
  | execute =>
    rw [Dag.settle_execute h]
    exact ⟨rfl, rfl⟩
  | rollback =>
    rw [Dag.settle_rollback h]
    split <;> exact ⟨rfl, rfl⟩

/-- The reports of a stage are folded in, or dropped. -/
theorem foldReports_acts (env : Surroundings σ)
    (held : e.store.load? c.record.id = .ok (some c.record)) (h : e.Enrols c.record.id c)
    (works : e.outages.swap (e.swaps + 1) = .works) (shaped : c.record.Shaped) (g : Nat)
    (b : Barrier) (reports : List Report) :
    ∃ e' c', perform env (foldReports c.record.id b.action b.stage reports) e = (.ok (), e') ∧
      Acts (.loop g) c (.returning b reports) c' .checking ∧ e'.Enrols c.record.id c' ∧
        Wrote e e' c c' := by
  have hreentered : Acts (.loop g) c (.returning b reports) c (.reading b reports) :=
    .single .reenter
  simp only [foldReports, perform_bind, perform_load held]
  by_cases hgoes : (c.record.isRunning && c.record.stage == b.stage) = true
  · obtain ⟨hrunning, hstage⟩ := (Bool.and_eq_true _ _).mp hgoes
    have hfold := hreentered.trans
      (.single (.fold e.clock.now hrunning (beq_iff_eq.mp hstage)))
    obtain ⟨hid, hversion⟩ := settle_same shaped.distinct reports b.action e.clock.now
    have hcommit := commit_works env (e := { e with clock := e.clock.tick }) held hid hversion works
    generalize hlater : e.clock.tick.now = later at hcommit
    have hwritten : Enrols (written { e with clock := e.clock.tick }
        ((c.record.settle reports b.action e.clock.now).dag.raised later)) c.record.id
        (c.write (.loop g) (c.record.settle reports b.action e.clock.now).dag later) :=
      ⟨h.entry, h.next⟩
    have hlines : Keeps standing
        (logAll (c.record.settle reports b.action e.clock.now).lines : EngineM σ Unit) :=
      keeps_logAll _
    obtain ⟨_, e₁, hlogged, h₁, hdags₁, -⟩ := hwritten.aside (quiet_logAll _) hlines env
    have hevents : Keeps standing (recordAll c.record.id
        (c.record.settle reports b.action e.clock.now).events : EngineM σ Unit) :=
      keeps_recordAll _ _
    obtain ⟨_, e', hrecorded, h', hdags', -⟩ := h₁.aside (quiet_recordAll _ _) hevents env
    refine ⟨e', _, ?_, hfold.trans (.single (.settle later rfl)), h', .inl (hdags'.trans hdags₁)⟩
    rw [if_pos hgoes]
    simp only [perform_bind, perform_now]
    rw [hcommit]
    simp only [hlogged, hrecorded]
  · rw [if_neg hgoes]
    have hchanged : ¬ (c.record.isRunning ∧ c.record.stage = b.stage) := by
      simpa [Bool.and_eq_true, beq_iff_eq] using hgoes
    exact ⟨e, c, rfl, hreentered.trans (.single (.drop hchanged)), h, .inr ⟨rfl, rfl⟩⟩

/-- A drive loop that finds its dag ended takes itself off the register. -/
theorem leave_acts (env : Surroundings σ) (once : (e.active.map Prod.fst).Nodup)
    (h : e.Enrols dag c) {g : Nat} (stops : g ∈ c.cancelled ∨ ¬ c.record.isRunning) :
    ∃ e', perform env (deregister dag g) e = (.ok (), e') ∧
      Acts (.loop g) c .leaving (c.deregister g) .gone ∧ e'.Enrols dag (c.deregister g) ∧
        e'.store = e.store := by
  obtain ⟨e', hderegistered, h', hstore⟩ := deregister_enrols env once h g
  refine ⟨e', hderegistered, ?_, h', hstore⟩
  by_cases hcancelled : g ∈ c.cancelled
  · exact .head .leave (.head (.confirm hcancelled) (.single .depart))
  · exact .head .leave (.head (.consider hcancelled)
      (.head (.quit (stops.resolve_left hcancelled)) (.single .depart)))

/-! ## Recovery -/

/-- Recovery reads every record that is stored before it does anything. A single one that cannot be
read keeps it from all the others. -/
theorem recover_unreadable (env : Surroundings σ) {entry : String × String}
    (kept : entry ∈ e.store.dags.rows) {failure : Failure}
    (unreadable : Store.decodeDag entry.2 = .error failure) :
    ∃ x, perform env recover e = (.error x, e) := by
  simp only [recover, list, perform_bind, perform_get]
  cases hlist : e.outages.list with
  | some failure' => exact ⟨_, rfl⟩
  | none =>
    obtain ⟨failure', hfails⟩ : ∃ failure',
        e.store.dags.rows.mapM (fun row => Store.decodeDag row.2) = .error failure' :=
      mapM_error_of_mem (a := entry) kept unreadable
    have hread : e.store.list = .error failure' := by
      rw [Store.list, hfails]
      rfl
    simp only [hread, stored]
    exact ⟨_, rfl⟩

end Engine

end Stagewise
