import Stagewise.Proofs.Dag.Building
import Stagewise.Proofs.Dag.Commands
/-!
# The account that a journal gives of a dag

The events of a dag, taken one after another, tell its stage, its status and its last operator
command. Each step, each folded stage and each command records just the events that account for what
it makes of the dag; the events of single tasks account for nothing here.
-/

namespace Stagewise

/-- The stage, the status and the operator of a dag. -/
structure Account where
  stage : Nat
  status : DagStatus
  operator : Operator
  deriving DecidableEq, Repr

namespace Account

/-- The account of a dag that has just been submitted. -/
def opening : Account := ⟨1, .running, .run⟩

/-- The account after an event, unless the event contradicts it. -/
def enter (a : Account) : EventType → Option Account
  | .stageAdvanced source target =>
    if source = a.stage ∧ target = source + 1 then some { a with stage := target } else none
  | .dagFailed stage _ => if stage = a.stage then some { a with status := .failed } else none
  | .dagSucceeded => some { a with status := .succeeded }
  | .operatorCommand operator =>
    some { a with operator, status := if operator = .cancel then .cancelled else .running }
  | .stageRolledBack stage _ =>
    if stage = a.stage then
      some (if stage = 1 then { a with status := .failed } else { a with stage := stage - 1 })
    else none
  | _ => some a

/-- The account after some events, unless one of them contradicts what it is by then. -/
def enterAll (a : Account) (events : List EventType) : Option Account := events.foldlM enter a

variable {a a' : Account} {events : List EventType}

@[simp] theorem enterAll_nil (a : Account) : a.enterAll [] = some a := rfl

theorem enterAll_cons (a : Account) (e : EventType) (events : List EventType) :
    a.enterAll (e :: events) = (a.enter e).bind (enterAll · events) := rfl

theorem enterAll_append (h : a.enterAll events = some a') (rest : List EventType) :
    a.enterAll (events ++ rest) = a'.enterAll rest := by
  rw [enterAll, List.foldlM_append]
  rw [enterAll] at h
  simp [h, enterAll]

/-- Events that account for nothing. -/
def Silent (e : EventType) : Prop := ∀ a : Account, a.enter e = some a

theorem enterAll_of_silent (h : ∀ e ∈ events, Silent e) (a : Account) :
    a.enterAll events = some a := by
  induction events with
  | nil => rfl
  | cons e events ih =>
    rw [enterAll_cons, h e List.mem_cons_self a]
    exact ih fun e he => h e (List.mem_cons_of_mem _ he)

end Account

open Account

theorem Folding.silent_event (f : Folding) (action : Action) : Silent (f.event action) := by
  intro a
  simp only [event]
  cases f.error with
  | some error => rfl
  | none => cases action <;> rfl

namespace Dag

variable {d record : Dag} {now : Timestamp}

def account (d : Dag) : Account := ⟨d.stage, d.status, d.operator⟩

@[simp] theorem account_raised (d : Dag) (now : Timestamp) : (d.raised now).account = d.account :=
  rfl

@[simp] theorem account_modifyTask (d : Dag) (id : TaskId) (f : Task → Task) :
    (d.modifyTask id f).account = d.account := rfl

theorem account_modifyTasks (d : Dag) (ids : List TaskId) (f : Task → Task) :
    (d.modifyTasks ids f).account = d.account := by
  induction ids generalizing d with
  | nil => rfl
  | cons id ids ih =>
    have hrest := ih (d.modifyTask id f)
    rwa [account_modifyTask] at hrest

theorem account_of_build {registry : Registry} {ids : FreshIds} {spec : DagSpec}
    (built : spec.build registry ids now = .ok d) : d.account = .opening := by
  obtain ⟨-, hstage, -, hstatus, hoperator, -⟩ := DagSpec.build_eq_ok built
  simp [account, opening, hstage, hstatus, hoperator]

/-! ## Steps -/

theorem Forward.account {n : Node} {move : Move} (h : d.Forward n now move) :
    d.account.enterAll move.events = some (move.write.getD d).account := by
  cases h with
  | advance done more => simp [enterAll_cons, enter, Dag.account]
  | finish | launch => rfl
  | park | stuck => simp [enterAll_cons, enter, Dag.account, modifyCurrent]

theorem Unwind.account {n : Node} {move : Move} (h : d.Unwind n move) (pos : 0 < d.stage) :
    d.account.enterAll move.events = some (move.write.getD d).account := by
  cases h with
  | compensate => rfl
  | stepBack idle more =>
    have hlater : d.stage ≠ 1 := by omega
    simp [enterAll_cons, enter, Dag.account, hlater]
  | finish idle last =>
    have hfirst : d.stage = 1 := by omega
    simp [enterAll_cons, enter, Dag.account, hfirst]

/-- The events of a move account for what it writes. -/
theorem Shaped.account_step (h : d.Shaped) {move : Move} (hstep : d.step now = .ok move) :
    d.account.enterAll move.events = some (move.write.getD d).account := by
  obtain ⟨n, hn⟩ := h.currentNode
  rw [Dag.step] at hstep
  cases hdirection : d.direction with
  | execute =>
    rw [hdirection] at hstep
    exact (forward_cases hn hstep).account
  | rollback =>
    rw [hdirection] at hstep
    exact (unwind_cases hn hstep).account h.stage_pos

/-! ## Reports -/

theorem account_applyReports (d : Dag) (reports : List Report) (action : Action) (now : Timestamp) :
    (d.applyReports reports action now).dag.account = d.account ∧
      ∀ e ∈ (d.applyReports reports action now).events, Silent e := by
  suffices hall : ∀ (ids : List TaskId) (f : Folded), (∀ e ∈ f.events, Silent e) →
      (ids.foldl (Folded.addTask action now reports) f).dag.account = f.dag.account ∧
        ∀ e ∈ (ids.foldl (Folded.addTask action now reports) f).events, Silent e from
    hall _ ⟨d, [], [], none⟩ nofun
  intro ids
  induction ids with
  | nil => exact fun f hf => ⟨rfl, hf⟩
  | cons id ids ih =>
    intro f hf
    have hone : (f.addTask action now reports id).dag.account = f.dag.account ∧
        ∀ e ∈ (f.addTask action now reports id).events, Silent e := by
      rw [Folded.addTask]
      split
      · exact ⟨rfl, hf⟩
      · refine ⟨account_modifyTask .., fun e he => ?_⟩
        rcases List.mem_append.mp he with he | he
        · exact hf e he
        · rw [List.mem_singleton.mp he]
          exact Folding.silent_event _ _
    obtain ⟨hdag, hevents⟩ := ih _ hone.2
    exact ⟨hdag.trans hone.1, hevents⟩

/-- The events of a folded stage account for what becomes of the dag. -/
theorem account_settle (d : Dag) (reports : List Report) (action : Action) (now : Timestamp) :
    d.account.enterAll (d.settle reports action now).events
      = some (d.settle reports action now).dag.account := by
  obtain ⟨hdag, hsilent⟩ := account_applyReports d reports action now
  have hentered := enterAll_of_silent hsilent d.account
  unfold settle
  dsimp only
  split
  · have hstage := congrArg Account.stage hdag
    have hoperator := congrArg Account.operator hdag
    simp only [account] at hstage hoperator
    rw [enterAll_append hentered]
    simp [enterAll_cons, enter, account, hstage, hoperator]
  · rw [hentered, hdag]

/-! ## Commands -/

/-- The event of a command accounts for what it makes of the dag. -/
theorem Commanded.account {operator : Operator} {lines : LogLines}
    (h : d.Commanded now operator record lines) :
    d.account.enterAll [.operatorCommand operator] = some record.account := by
  have hstage (ids : List TaskId) (f : Task → Task) : (d.modifyTasks ids f).stage = d.stage :=
    congrArg Account.stage (account_modifyTasks d ids f)
  cases h with
  | retry | pass => simp [enterAll_cons, enter, Dag.account, hstage]
  | rollback | cancel => simp [enterAll_cons, enter, Dag.account, mapTasks]

end Dag

end Stagewise
