import Mathlib.Logic.Relation
import Stagewise.Proofs.Engine.Frame
import Stagewise.Proofs.Store.Rows
/-!
# Waiting for a call

A call is looked at again and again until it has ended. Whenever it is looked at, what it has logged
since goes behind the log of its task: its own lines as they come, or the lines that are sent back
with the outcome. However often that happens, and whatever others do meanwhile, every line is
written once.
-/

namespace Stagewise

open Relation (TransGen)

/-! ## The log of a task -/

/-- The rows of a task hold these entries. -/
def Store.Logs (s : Store) (task : TaskId) (entries : List LogEntry) : Prop :=
  rowsOf task s.logs = numbered task 0 (entries.map Document.text)

theorem Store.Logs.append {s : Store} {task : TaskId} {entries : List LogEntry}
    (h : s.Logs task entries) (more : List LogEntry) :
    (s.appendLogs task more).Logs task (entries ++ more) := by
  rw [appendLogs]
  split
  · next hempty => rwa [List.isEmpty_iff.1 hempty, List.append_nil]
  · rw [Logs, List.map_append]
    exact rowsOf_pushLines h _

/-! ## What a call has still to log -/

namespace Call

variable {c : Call}

/-- The messages that a call has still to log. -/
def owed (c : Call) : List String :=
  c.lines.map (·.text) ++ if c.ended then [] else c.sentBack.map (·.message)

/-- The lines of a call come in the order of time, and not after its end. -/
structure Punctual (c : Call) : Prop where
  sorted : c.lines.Pairwise fun l l' => l.due ≤ l'.due
  before : ∀ ending, c.ending = some ending → ∀ l ∈ c.lines, l.due ≤ ending.due
  spent : c.ended = true → c.lines = []

theorem filter_append_filter_of_sorted {lines : List PlannedLine}
    (h : lines.Pairwise fun l l' => l.due ≤ l'.due) (ms : Nat) :
    lines.filter (·.due ≤ ms) ++ lines.filter (fun l => !(l.due ≤ ms)) = lines := by
  induction lines with
  | nil => rfl
  | cons l rest ih =>
    obtain ⟨hl, hrest⟩ := List.pairwise_cons.1 h
    by_cases hdue : l.due ≤ ms
    · rw [List.filter_cons_of_pos (by simpa using hdue),
        List.filter_cons_of_neg (by simpa using hdue), List.cons_append, ih hrest]
    · have hlate : ∀ l' ∈ l :: rest, ¬ l'.due ≤ ms :=
        List.forall_mem_cons.2 ⟨hdue, fun l' hl' h => hdue (Nat.le_trans (hl l' hl') h)⟩
      rw [List.filter_eq_nil_iff.2 (by simpa using hlate),
        List.filter_eq_self.2 (by simpa using hlate), List.nil_append]

theorem Punctual.due_of_endsBy (h : c.Punctual) {ms : Nat} (hends : c.endsBy ms = true) :
    c.lines.filter (fun l => !(l.due ≤ ms)) = [] := by
  rw [endsBy] at hends
  split at hends
  · next ending hending =>
    refine List.filter_eq_nil_iff.2 fun l hl => ?_
    simpa using Nat.le_trans (h.before ending hending l hl) (of_decide_eq_true hends)
  · cases hends

theorem Punctual.afterMoment (h : c.Punctual) (ms : Nat) : (c.afterMoment ms).Punctual where
  sorted := h.sorted.filter _
  before ending hending l hl := h.before ending hending l (List.mem_of_mem_filter hl)
  spent hended := by
    rcases Bool.or_eq_true_iff.1 hended with hbefore | hends
    · rw [Call.afterMoment, h.spent hbefore, List.filter_nil]
    · exact h.due_of_endsBy hends

/-- What a call logs at a moment is the first of what it has still to log. -/
theorem Punctual.owed_eq (h : c.Punctual) (ms : Nat) :
    c.owed = c.dueLines ms ++ (c.brought ms).map (·.message) ++ (c.afterMoment ms).owed := by
  have hafter : (c.afterMoment ms).owed =
      (c.lines.filter (fun l => !(l.due ≤ ms))).map (·.text) ++
        if c.ended || c.endsBy ms then [] else c.sentBack.map (·.message) := rfl
  have hsplit : c.dueLines ms ++ (c.lines.filter (fun l => !(l.due ≤ ms))).map (·.text) =
      c.lines.map (·.text) := by
    rw [dueLines, ← List.map_append, filter_append_filter_of_sorted h.sorted]
  rw [hafter, owed, brought, ← hsplit]
  cases hended : c.ended with
  | true => simp
  | false =>
    cases hends : c.endsBy ms with
    | true => simp [h.due_of_endsBy hends]
    | false => simp

end Call

namespace Engine

variable {σ : Type} {env : Surroundings σ} {e e' : Engine σ} {task : TaskId}

/-! ## One look -/

/-- Time stands still, and behind the log of the task stand new lines with these messages. -/
structure Grown (task : TaskId) (messages : List String) (e e' : Engine σ) : Prop where
  time : e'.clock.ms = e.clock.ms
  appends : e'.outages.append = e.outages.append
  log : ∀ old, e.store.Logs task old → ∃ entries, e'.store.Logs task (old ++ entries) ∧
    entries.map (·.message) = messages

theorem Grown.refl (task : TaskId) (e : Engine σ) : Grown task [] e e :=
  ⟨rfl, rfl, fun old h => ⟨[], by rwa [List.append_nil], rfl⟩⟩

theorem Grown.trans {messages messages' : List String} {e₁ e₂ e₃ : Engine σ}
    (h : Grown task messages e₁ e₂) (h' : Grown task messages' e₂ e₃) :
    Grown task (messages ++ messages') e₁ e₃ where
  time := h'.time.trans h.time
  appends := h'.appends.trans h.appends
  log old hold := by
    obtain ⟨entries, hentries, hmessages⟩ := h.log old hold
    obtain ⟨entries', hentries', hmessages'⟩ := h'.log _ hentries
    refine ⟨entries ++ entries', ?_, by rw [List.map_append, hmessages, hmessages']⟩
    rwa [← List.append_assoc]

theorem grown_keep (env : Surroundings σ) (task : TaskId) (works : e.outages.append = none)
    (entries : List LogEntry) :
    ∃ e', perform env (keep task entries) e = (.ok (.ok ()), e') ∧
      Grown task (entries.map (·.message)) e e' := by
  refine ⟨{ e with store := e.store.appendLogs task entries }, ?_, rfl, rfl,
    fun _ h => ⟨entries, h.append entries, rfl⟩⟩
  rw [keep, perform_modifyGet, works]

theorem grown_log (env : Surroundings σ) (task : TaskId) (works : e.outages.append = none)
    (line : String) :
    ∃ e', perform env (log task line) e = (.ok (), e') ∧ Grown task [line] e e' := by
  obtain ⟨e', hkept, hgrown⟩ := grown_keep env task (e := { e with clock := e.clock.tick }) works
    [⟨e.clock.now, line⟩]
  refine ⟨e', ?_, hgrown.time, hgrown.appends, hgrown.log⟩
  rw [log, perform_bind, perform_now]
  simp only [perform_bind, hkept, perform_pure]

theorem grown_log_forM (env : Surroundings σ) (task : TaskId) (works : e.outages.append = none)
    (lines : List String) :
    ∃ e', perform env (lines.forM (log task)) e = (.ok (), e') ∧ Grown task lines e e' := by
  induction lines generalizing e with
  | nil => exact ⟨e, rfl, .refl task e⟩
  | cons line rest ih =>
    obtain ⟨e₁, hfirst, hgrown⟩ := grown_log env task works line
    obtain ⟨e', hrest, hgrown'⟩ := ih (hgrown.appends.trans works)
    refine ⟨e', ?_, hgrown.trans hgrown'⟩
    rw [List.forM_eq_forM, List.forM_cons, perform_bind, hfirst]
    exact hrest

theorem perform_attend (env : Surroundings σ) (works : e.outages.append = none) (c : Call) :
    ∃ e', perform env (attend [c]) e = (.ok [c.afterMoment e.clock.ms], e') ∧
      Grown c.task (c.dueLines e.clock.ms ++ (c.brought e.clock.ms).map (·.message)) e e' := by
  obtain ⟨e₁, hlogged, hgrown⟩ := grown_log_forM env c.task works (c.dueLines e.clock.ms)
  obtain ⟨e₂, hkept, hgrown'⟩ := grown_keep env c.task (hgrown.appends.trans works)
    (c.brought e.clock.ms)
  refine ⟨e₂, ?_, hgrown.trans hgrown'⟩
  simp only [attend, List.mapM_cons, List.mapM_nil, perform_bind, perform_get, hlogged, hkept,
    perform_pure]

/-! ## Any number of looks -/

/-- What may happen while a call is waited for: time goes on, and others leave the log of its task
alone. -/
structure Passes (task : TaskId) (e e' : Engine σ) : Prop where
  time : e.clock.ms ≤ e'.clock.ms
  appends : e'.outages.append = e.outages.append
  log : ∀ entries, e.store.Logs task entries → e'.store.Logs task entries

/-- After a while, a call is looked at. -/
def Looks (env : Surroundings σ) (x x' : Call × Engine σ) : Prop :=
  ∃ e, Passes x.1.task x.2 e ∧ perform env (attend [x.1]) e = (.ok [x'.1], x'.2)

/-- A call is looked at some times, at least once. -/
def Waits (env : Surroundings σ) : Call × Engine σ → Call × Engine σ → Prop :=
  TransGen (Looks env)

/-- What has come of a call so far: it is what it was, and the log of its task has got the first of
the lines that it owed. -/
structure Underway (c : Call) (e : Engine σ) (x : Call × Engine σ) : Prop where
  punctual : x.1.Punctual
  task : x.1.task = c.task
  agent : x.1.agent = c.agent
  ending : x.1.ending = c.ending
  appends : x.2.outages.append = none
  log : ∃ messages, c.owed = messages ++ x.1.owed ∧
    ∀ old, e.store.Logs c.task old → ∃ entries, x.2.store.Logs c.task (old ++ entries) ∧
      entries.map (·.message) = messages

theorem Underway.start {c : Call} (h : c.Punctual) (works : e.outages.append = none) :
    Underway c e (c, e) :=
  ⟨h, rfl, rfl, rfl, works, [], rfl, fun old hold => ⟨[], by rwa [List.append_nil], rfl⟩⟩

theorem Underway.looks {c : Call} {x x' : Call × Engine σ} (h : Underway c e x)
    (hlooks : Looks env x x') : Underway c e x' := by
  obtain ⟨e₁, hpasses, hattend⟩ := hlooks
  obtain ⟨e₂, hattend', hgrown⟩ :=
    perform_attend env (hpasses.appends.trans h.appends) x.1
  obtain ⟨hcalls, rfl⟩ := Prod.mk.inj (hattend.symm.trans hattend')
  have hcall : x'.1 = x.1.afterMoment e₁.clock.ms := List.singleton_inj.1 (Except.ok.inj hcalls)
  refine ⟨hcall ▸ h.punctual.afterMoment _, ?_, ?_, ?_, ?_, ?_⟩
  · rw [hcall, ← h.task]
    rfl
  · rw [hcall, ← h.agent]
    rfl
  · rw [hcall, ← h.ending]
    rfl
  · rw [hgrown.appends, hpasses.appends, h.appends]
  · obtain ⟨messages, howed, hlog⟩ := h.log
    refine ⟨messages ++ (x.1.dueLines e₁.clock.ms ++
      (x.1.brought e₁.clock.ms).map (·.message)), ?_, fun old hold => ?_⟩
    · rw [howed, h.punctual.owed_eq e₁.clock.ms, hcall, List.append_assoc messages]
    · obtain ⟨entries, hentries, hmessages⟩ := hlog old hold
      obtain ⟨entries', hentries', hmessages'⟩ :=
        hgrown.log _ (hpasses.log _ (h.task ▸ hentries))
      refine ⟨entries ++ entries', ?_, by rw [List.map_append, hmessages, hmessages']⟩
      rw [← List.append_assoc, ← h.task]
      exact hentries'

theorem Underway.waits {c : Call} {x x' : Call × Engine σ} (h : Underway c e x)
    (hwaits : Waits env x x') : Underway c e x' := by
  induction hwaits with
  | single hlooks => exact h.looks hlooks
  | tail _ hlooks ih => exact ih.looks hlooks

/-! ## A dispatch from end to end -/

/-- A dispatch comes to an outcome: the call that it starts can be waited for until it has ended,
and whenever it has, the outcome is what is reported, and its lines stand behind the log of the
task, each of them once. -/
def Delivers (env : Surroundings σ) (e : Engine σ) (agent : Agent) (request : DispatchRequest)
    (outcome : Outcome) : Prop :=
  ∃ c e₁, perform env (call agent request) e = (.ok c, e₁) ∧
    (∃ x, Waits env (c, e₁) x ∧ x.1.ended = true) ∧
    ∀ x, Waits env (c, e₁) x → x.1.ended = true →
      x.1.report? = some ⟨request.task.id, agent, .ok outcome⟩ ∧
      ∀ old, e.store.Logs request.task.id old → ∃ entries,
        x.2.store.Logs request.task.id (old ++ entries) ∧
          entries.map (·.message) = outcome.logs.map (·.message)

/-- A call that owes the lines of its outcome delivers it. -/
theorem delivers_of_call {agent : Agent} {request : DispatchRequest} {outcome : Outcome} {c : Call}
    {since due : Nat} {e₁ : Engine σ} (hcall : perform env (call agent request) e = (.ok c, e₁))
    (hstore : e₁.store = e.store) (works : e₁.outages.append = none)
    (punctual : c.Punctual) (carries : Carries (agent, request) c)
    (hending : c.ending = some ⟨since, due, .ok outcome⟩)
    (howed : c.owed = outcome.logs.map (·.message)) :
    Delivers env e agent request outcome := by
  have hstart : Underway c e₁ (c, e₁) := .start punctual works
  refine ⟨c, e₁, hcall, ?_, fun x hwaits hended => ?_⟩
  · let e₂ : Engine σ := { e₁ with clock := e₁.clock.moveTo due }
    have hpasses : Passes c.task e₁ e₂ := ⟨Nat.le_max_left _ _, rfl, fun _ h => h⟩
    obtain ⟨e₃, hattend, -⟩ := perform_attend env (e := e₂) works c
    refine ⟨(c.afterMoment e₂.clock.ms, e₃), .single ⟨e₂, hpasses, hattend⟩, ?_⟩
    have hdue : due ≤ e₂.clock.ms := Nat.le_max_right _ _
    simp [Call.afterMoment, Call.endsBy, hending, hdue]
  · have hunderway := hstart.waits hwaits
    obtain ⟨messages, hmessages, hlog⟩ := hunderway.log
    have hreport : x.1.report? = some ⟨request.task.id, agent, .ok outcome⟩ := by
      simp only [Call.report?, hended, hunderway.ending, hending, hunderway.task, hunderway.agent,
        carries.task, carries.agent]
    have hnothing : x.1.owed = [] := by
      rw [Call.owed, hunderway.punctual.spent hended, hended]
      rfl
    rw [hnothing, List.append_nil, howed] at hmessages
    refine ⟨hreport, fun old hold => ?_⟩
    have htask : c.task = request.task.id := carries.task
    obtain ⟨entries, hentries, hsame⟩ := hlog old (by rwa [hstore, htask])
    exact ⟨entries, htask ▸ hentries, hsame.trans hmessages.symm⟩

end Engine

end Stagewise
