import Stagewise.Proofs.Course.Play
import Stagewise.Proofs.Dag.Acceptance
import Stagewise.Proofs.Engine.Frame
import Stagewise.Proofs.Table
/-!
# The answers to operator commands

What an engine comes to when it is given a command for a stored dag. A command that is admitted is
written once and answered by the record that it asks for; any other leaves the store, the journal
and the drive loops as they are.
-/

namespace Stagewise.Engine

variable {σ α β γ : Type} {env : Surroundings σ} {e : Engine σ} {d : Dag}

/-! ## Writing a record -/

/-- The engine holds what it held before, and the same drive loops are at work. -/
structure Untouched (e e' : Engine σ) : Prop where
  store : e'.store = e.store
  journal : e'.journal = e.journal
  active : e'.active = e.active
  loops : e'.loops = e.loops

/-- The engine after a record was written. -/
def written (e : Engine σ) (d : Dag) : Engine σ :=
  { e with clock := e.clock.tick, swaps := e.swaps + 1, store := e.store.save d }

/-- A record made from the stored one is written, if the store does its work. -/
theorem commit_works (env : Surroundings σ) {record : Dag}
    (stored : e.store.load? d.id = .ok (some d))
    (id : record.id = d.id) (version : record.version = d.version)
    (works : e.outages.swap (e.swaps + 1) = .works) :
    perform env (commit record) e
      = (.ok (record.raised e.clock.now), e.written (record.raised e.clock.now)) := by
  have hload : e.store.load? (record.raised e.clock.now).id = .ok (some d) := id ▸ stored
  have hswapped : e.store.compareAndSwap (record.raised e.clock.now) record.version
      = .ok (e.store.save (record.raised e.clock.now), true) := by
    rw [Store.compareAndSwap, hload, version]
    exact congrArg _ (if_pos rfl)
  simp only [commit, perform_bind, perform_now, perform_modify, perform_get, works, hswapped,
    Engine.stored, perform_pure]
  rfl

/-- A write that the store fails at or refuses is answered by an error. -/
theorem commit_fails (env : Surroundings σ) (record : Dag)
    (fails : e.outages.swap (e.swaps + 1) ≠ .works) :
    ∃ err e', perform env (commit record) e = (.error (.error err), e') ∧ e.Untouched e' := by
  simp only [commit, perform_bind, perform_now, perform_modify, perform_get]
  cases hswap : e.outages.swap (e.swaps + 1) with
  | works => exact absurd hswap fails
  | loses => exact ⟨_, _, rfl, rfl, rfl, rfl, rfl⟩
  | fails f => exact ⟨_, _, rfl, rfl, rfl, rfl, rfl⟩

/-! ## Commands -/

theorem keeps_swaps_spawn (dag : DagId) : Keeps Engine.swaps (spawn dag : EngineM σ Unit) :=
  .modify fun e => by split <;> rfl

theorem keeps_swaps_stop (dag : DagId) : Keeps Engine.swaps (stop dag : EngineM σ Unit) :=
  .modify fun e => by split <;> rfl

theorem keeps_swaps_afterCommand (dag : DagId) (operator : Operator) (lines : LogLines) (d : Dag) :
    Keeps Engine.swaps (afterCommand dag operator lines d : EngineM σ Dag) := by
  refine ((keeps_logAll lines).comp Prod.fst).bind fun _ =>
    ((keeps_record dag _).comp Prod.fst).bind fun _ => ?_
  by_cases hcancel : operator = .cancel
  · simp only [if_pos hcancel]
    exact (keeps_swaps_stop dag).bind fun _ =>
      ((keeps_record dag .dagCancelled).comp Prod.fst).bind fun _ => .pure d
  · simp only [if_neg hcancel]
    exact (keeps_swaps_spawn dag).bind fun _ => .pure d

theorem obeying_id (d : Dag) (operator : Operator) (now : Timestamp) :
    (d.obeying operator now).id = d.id := by
  cases operator <;> rfl

theorem obeying_version (d : Dag) (operator : Operator) (now : Timestamp) :
    (d.obeying operator now).version = d.version := by
  cases operator <;> rfl

theorem obeying_operator {operator : Operator} (h : d.Admits operator) (now : Timestamp) :
    (d.obeying operator now).operator = operator := by
  cases operator with
  | run => exact h.elim
  | retry => rfl
  | pass => rfl
  | rollback => rfl
  | cancel => rfl

/-- An admitted command that can be written is answered by the record that it asks for. -/
theorem command_accepted (env : Surroundings σ) (stored : e.store.load? d.id = .ok (some d))
    (staged : d.Staged) (distinct : d.Distinct) {operator : Operator} (admitted : d.Admits operator)
    (works : e.outages.swap (e.swaps + 1) = .works) :
    ∃ now later e', perform env (command d.id operator) e
        = (.ok ((d.obeying operator now).raised later), e') ∧
      e'.store.dags = (e.store.save ((d.obeying operator now).raised later)).dags ∧
      e'.swaps = e.swaps + 1 := by
  obtain ⟨lines, hmade⟩ := Dag.command_of_admits staged distinct e.clock.now admitted
  have hcommit := commit_works env (e := { e with clock := e.clock.tick }) stored
    (obeying_id d operator e.clock.now) (obeying_version d operator e.clock.now) works
  generalize hlater : e.clock.tick.now = later at hcommit
  obtain ⟨_, e', hafter, hdags, rfl⟩ :=
    quiet_afterCommand d.id operator lines ((d.obeying operator e.clock.now).raised later) env
      (written { e with clock := e.clock.tick } ((d.obeying operator e.clock.now).raised later))
  have hswaps := keeps_swaps_afterCommand d.id operator lines
    ((d.obeying operator e.clock.now).raised later) env
    (written { e with clock := e.clock.tick } ((d.obeying operator e.clock.now).raised later))
  rw [hafter] at hswaps
  refine ⟨e.clock.now, later, e', ?_, hdags, hswaps⟩
  simp only [command_eq, perform_bind, perform_load stored, perform_now, hmade, checked,
    perform_pure]
  rw [hcommit]
  exact hafter

/-- A command that is not admitted, or cannot be written, is answered by an error and leaves
everything as it is. -/
theorem command_refused (env : Surroundings σ) (stored : e.store.load? d.id = .ok (some d))
    (staged : d.Staged) (distinct : d.Distinct) {operator : Operator}
    (h : ¬ (d.Admits operator ∧ e.outages.swap (e.swaps + 1) = .works)) :
    ∃ err e', perform env (command d.id operator) e = (.error (.error err), e') ∧
      e.Untouched e' := by
  by_cases hadmits : d.Admits operator
  · obtain ⟨lines, hmade⟩ := Dag.command_of_admits staged distinct e.clock.now hadmits
    have hfails : e.outages.swap (e.swaps + 1) ≠ .works := fun hworks => h ⟨hadmits, hworks⟩
    obtain ⟨err, e', hcommit, hsame⟩ := commit_fails (e := { e with clock := e.clock.tick }) env
      (d.obeying operator e.clock.now) hfails
    refine ⟨err, e', ?_, hsame.store, hsame.journal, hsame.active, hsame.loops⟩
    simp only [command_eq, perform_bind, perform_load stored, perform_now, hmade, checked,
      perform_pure]
    rw [hcommit]
  · obtain ⟨err, hmade⟩ := Dag.command_of_not_admits staged distinct e.clock.now hadmits
    refine ⟨err, { e with clock := e.clock.tick }, ?_, rfl, rfl, rfl, rfl⟩
    simp only [command_eq, perform_bind, perform_load stored, perform_now, hmade, checked]
    rfl

/-- A command is complete and atomic: it is accepted just when its condition holds and it can be
written, and then writes the record that it asks for, once. Otherwise nothing changes. -/
theorem command_atomic (env : Surroundings σ) (stored : e.store.load? d.id = .ok (some d))
    (staged : d.Staged) (distinct : d.Distinct) (operator : Operator) :
    ∃ answer e', perform env (command d.id operator) e = (answer, e') ∧
      ((∃ d', answer = .ok d') ↔
        d.Admits operator ∧ e.outages.swap (e.swaps + 1) = .works) ∧
      (∀ d', answer = .ok d' →
        (∃ now later, d' = (d.obeying operator now).raised later) ∧
          d'.version = d.version + 1 ∧ d'.operator = operator ∧
          e'.store.dags = (e.store.save d').dags ∧ e'.swaps = e.swaps + 1) ∧
      ∀ x, answer = .error x → (∃ err, x = .error err) ∧ e.Untouched e' := by
  by_cases h : d.Admits operator ∧ e.outages.swap (e.swaps + 1) = .works
  · obtain ⟨now, later, e', hperformed, hdags, hswaps⟩ :=
      command_accepted env stored staged distinct h.1 h.2
    refine ⟨_, e', hperformed, iff_of_true ⟨_, rfl⟩ h, ?accepted, nofun⟩
    case accepted =>
      intro d' hanswer
      obtain rfl := Except.ok.inj hanswer
      have hversion : (d.obeying operator now).version + 1 = d.version + 1 := by
        rw [obeying_version]
      exact ⟨⟨now, later, rfl⟩, hversion, obeying_operator h.1 now, hdags, hswaps⟩
  · obtain ⟨err, e', hperformed, hsame⟩ :=
      command_refused env stored staged distinct h
    refine ⟨_, e', hperformed, iff_of_false (by simp) h, nofun, ?refused⟩
    case refused =>
      intro x hanswer
      obtain rfl := Except.error.inj hanswer
      exact ⟨⟨err, rfl⟩, hsame⟩

end Stagewise.Engine

namespace Stagewise.Sample

/-! ## A command that is accepted -/

/-- What the text of a dag is read back as. -/
def retold (d : Dag) : Option Dag := do
  let tokens ← Json.tokensFrom? .between (toJson d).written
  let j ← Json.ofTokens? tokens
  (Document.ofJson j : Decoded Dag).toOption

theorem load_saved {d read : Dag} (h : retold d = some read) :
    (Store.empty.save d).load? d.id = .ok (some read) := by
  have hkept : (Store.empty.save d).text? d.id = some (Document.text d) :=
    Table.get?_insert_self ..
  have hread : (Document.readText? (Document.text d) : Option Dag) = some read := by
    rw [← h, Document.readText?, Document.text, Json.compact, Json.read?, String.toList_ofList]
    exact Option.bind_assoc _ _ _
  simp only [Store.load?, hkept, Store.decodeDag, hread]
  rfl

/-- A dag of one task, which has failed. -/
def stalled : Dag :=
  { dag with
    nodes := [⟨"only", [], [⟨ids.task 0 0, "a", "steady", .new worker, .all, .failed, .empty,
      none, none⟩]⟩]
    maxStage := 1
    status := .failed }

/-- The dag as it is read back. -/
def shelved : Dag := (retold stalled).getD default

/-- An engine that holds nothing else. -/
def engine : Engine Unit :=
  { Engine.new registry dawn () with store := Store.empty.save stalled }

def surroundings : Surroundings Unit := ⟨fun _ _ _ _ => (.inProcess, ()), fun _ => ids⟩

instance (d : Dag) : Decidable d.Distinct := inferInstanceAs (Decidable (List.Nodup _))

/-- What can be told of a dag by computing: its identifier, its place, and that it takes a retry. -/
def stands (d : Dag) : Bool :=
  d.id == stalled.id && 1 ≤ d.stage && d.stage ≤ d.maxStage && d.maxStage == d.nodes.length &&
    decide d.Distinct && (d.command .retry dawn).isOk

theorem retold_stalled : ∃ d, retold stalled = some d ∧ stands d = true := by
  have hstands : (retold stalled).any stands = true := by decide +kernel
  cases hread : retold stalled with
  | none => simp [hread] at hstands
  | some d => exact ⟨d, rfl, by simpa [hread] using hstands⟩

end Stagewise.Sample

namespace Stagewise.Engine

theorem command_atomic_retry :
    Sample.engine.store.load? Sample.shelved.id = .ok (some Sample.shelved) ∧
      Sample.shelved.Staged ∧ Sample.shelved.Distinct ∧
      ∃ d' e', perform Sample.surroundings (command Sample.shelved.id .retry) Sample.engine
          = (.ok d', e') ∧ d'.version = Sample.shelved.version + 1 ∧ e'.swaps = 1 := by
  obtain ⟨d, hread, hstands⟩ := Sample.retold_stalled
  have hshelved : Sample.shelved = d := by rw [Sample.shelved, hread, Option.getD_some]
  simp only [Sample.stands, Bool.and_eq_true, beq_iff_eq, decide_eq_true_eq] at hstands
  obtain ⟨⟨⟨⟨⟨hid, hpos⟩, hle⟩, hwhole⟩, hdistinct⟩, hretry⟩ := hstands
  have hstored : Sample.engine.store.load? Sample.shelved.id = .ok (some Sample.shelved) := by
    rw [hshelved, hid]
    exact Sample.load_saved hread
  have hstaged : Sample.shelved.Staged := hshelved ▸ ⟨hpos, hle, hwhole⟩
  have hapart : Sample.shelved.Distinct := hshelved ▸ hdistinct
  have hadmits : Sample.shelved.Admits .retry := by
    rw [hshelved]
    cases hcommand : d.command .retry Sample.dawn with
    | ok made => exact ((Dag.command_cases hcommand).admitted hdistinct).1
    | error x => simp [hcommand, Except.isOk, Except.toBool] at hretry
  obtain ⟨answer, e', hperformed, hiff, haccepted, -⟩ :=
    command_atomic Sample.surroundings hstored hstaged hapart .retry
  obtain ⟨d', rfl⟩ := hiff.mpr ⟨hadmits, rfl⟩
  obtain ⟨-, hversion, -, -, hswaps⟩ := haccepted d' rfl
  exact ⟨hstored, hstaged, hapart, d', e', hperformed, hversion, hswaps⟩

end Stagewise.Engine
