import Mathlib.Logic.Relation
import Stagewise.Proofs.Course.Basic
/-!
# Playing courses

The steps of courses as a function: what can happen next is data, and playing it on a course gives
the course after it, unless it cannot happen now. So courses can be computed, and a course that is
played from a submission is one that a dag can have had.
-/

namespace Stagewise

/-- What every step keeps, a play keeps. -/
theorem holds_of_foldlM {σ τ : Type} {after : σ → τ → Option σ} {P : σ → Prop}
    (keeps : ∀ s t s', P s → after s t = some s' → P s') {s s' : σ} {ts : List τ} (start : P s)
    (hplay : ts.foldlM after s = some s') : P s' := by
  induction ts generalizing s with
  | nil =>
    obtain rfl := Option.some.inj hplay
    exact start
  | cons t ts ih =>
    rw [List.foldlM_cons] at hplay
    obtain ⟨s₁, hafter, hrest⟩ := Option.bind_eq_some_iff.mp hplay
    exact ih (keeps s t s₁ start hafter) hrest

/-- What can happen to a dag next, together with whatever is decided outside of it. -/
inductive Happening where
  | proceed (now later : Timestamp)
  | send
  | fold (reports : List Report) (now later : Timestamp)
  | reread
  | command (operator : Operator) (now later : Timestamp)
  | halt
  | find
  | recover (registry : Registry) (now : Timestamp)
  | resume

instance (b : Barrier) (reports : List Report) : Decidable (b.Answered reports) :=
  decidable_of_iff
    (b.rest.isEmpty ∧ reports.map (fun r => (r.task, r.agent)) = b.sent.map fun (a, q) =>
      (q.task.id, a))
    (by rw [Barrier.Answered, List.isEmpty_iff])

namespace Course

/-- The course after a happening, if that can happen now. -/
def after? (s : Course) : Happening → Option Course
  | .proceed now later =>
    match s.loop, s.record.isRunning, s.record.step now with
    | .ready, true, .ok move => some (s.proceed move later)
    | _, _, _ => none
  | .send =>
    match s.loop with
    | .barrier ⟨action, stage, sent, (agent, request) :: rest⟩ =>
      some { s with
        loop := .barrier ⟨action, stage, sent ++ [(agent, request)], rest⟩
        history := .sent agent request :: s.history }
    | _ => none
  | .fold reports now later =>
    match s.loop with
    | .barrier b =>
      if b.Answered reports ∧ s.record.isRunning ∧ s.record.stage = b.stage then
        some (s.write (.barrier b.action reports) (s.record.settle reports b.action now).dag
          later .ready)
      else none
    | _ => none
  | .reread =>
    match s.loop with
    | .barrier ⟨_, _, _, []⟩ => some { s with loop := .ready }
    | _ => none
  | .command operator now later =>
    match s.record.command operator now with
    | .ok (record, _) =>
      some (s.write (.operator operator) record later
        (if operator = .cancel then s.loop else s.loop.wake))
    | .error _ => none
  | .halt => some { s with loop := .idle }
  | .find =>
    match s.loop, s.record.isRunning with
    | .idle, true => some { s with loop := .recovering s.record.interrupted }
    | _, _ => none
  | .recover registry now =>
    match s.loop with
    | .recovering (t :: left) =>
      some (s.write (.recovery t.id)
        (s.record.modifyTask t.id (Store.withStatus (registry.recovered t).1 now)) now
        (.recovering left))
    | _ => none
  | .resume =>
    match s.loop with
    | .recovering [] => some { s with loop := .ready }
    | _ => none

/-- Plays one happening after another. -/
def play? (s : Course) (es : List Happening) : Option Course := es.foldlM after? s

variable {s s' : Course}

/-- What is played is a step. -/
theorem step_of_after {e : Happening} (h : s.after? e = some s') : Step s s' := by
  cases e with
  | proceed now later =>
    simp only [after?] at h
    split at h
    · next ready running step =>
      obtain rfl := Option.some.inj h
      exact .proceed now later ready running step
    · cases h
  | send =>
    simp only [after?] at h
    split at h
    · next sending =>
      obtain rfl := Option.some.inj h
      exact .send sending rfl
    · cases h
  | fold reports now later =>
    simp only [after?] at h
    split at h
    · next waiting =>
      split at h
      · next hfold =>
        obtain rfl := Option.some.inj h
        exact .fold now later waiting hfold.1 hfold.2.1 hfold.2.2
      · cases h
    · cases h
  | reread =>
    simp only [after?] at h
    split at h
    · next waiting =>
      obtain rfl := Option.some.inj h
      exact .reread waiting rfl
    · cases h
  | command operator now later =>
    simp only [after?] at h
    split at h
    · next accepted =>
      obtain rfl := Option.some.inj h
      exact .command now later accepted
    · cases h
  | halt =>
    obtain rfl := Option.some.inj h
    exact .halt
  | find =>
    simp only [after?] at h
    split at h
    · next idle running =>
      obtain rfl := Option.some.inj h
      exact .find idle running
    · cases h
  | recover registry now =>
    simp only [after?] at h
    split at h
    · next recovering =>
      obtain rfl := Option.some.inj h
      exact .recover registry now recovering
    · cases h
  | resume =>
    simp only [after?] at h
    split at h
    · next recovering =>
      obtain rfl := Option.some.inj h
      exact .resume recovering
    · cases h

/-- Every step can be played. -/
theorem Step.exists_after (h : Step s s') : ∃ e, s.after? e = some s' := by
  cases h with
  | proceed now later ready running step =>
    exact ⟨.proceed now later, by simp [after?, ready, running, step]⟩
  | @send b agent request rest sending next =>
    obtain ⟨action, stage, sent, left⟩ := b
    obtain rfl : left = _ := next
    exact ⟨.send, by simp [after?, sending]⟩
  | @fold b reports now later waiting answered running stage =>
    exact ⟨.fold reports now later, by simp [after?, waiting, answered, running, stage]⟩
  | @reread b waiting out =>
    obtain ⟨action, stage, sent, left⟩ := b
    obtain rfl : left = _ := out
    exact ⟨.reread, by simp [after?, waiting]⟩
  | @command operator record lines now later accepted =>
    exact ⟨.command operator now later, by simp [after?, accepted]⟩
  | halt => exact ⟨.halt, rfl⟩
  | find idle running => exact ⟨.find, by simp [after?, idle, running]⟩
  | recover registry now recovering => exact ⟨.recover registry now, by simp [after?, recovering]⟩
  | resume recovering => exact ⟨.resume, by simp [after?, recovering]⟩

theorem step_iff_after : Step s s' ↔ ∃ e, s.after? e = some s' :=
  ⟨Step.exists_after, fun ⟨_, h⟩ => step_of_after h⟩

theorem Lived.run (h : s.Lived) (run : Relation.ReflTransGen Step s s') : s'.Lived := by
  induction run with
  | refl => exact h
  | tail _ step ih => exact .next ih step

theorem run_of_play {es : List Happening} (hplay : s.play? es = some s') :
    Relation.ReflTransGen Step s s' :=
  holds_of_foldlM (P := Relation.ReflTransGen Step s)
    (fun _ _ _ hrun hafter => hrun.tail (step_of_after hafter)) .refl hplay

/-- What is played on from a course of a dag is a course of it. -/
theorem Lived.play (h : s.Lived) {es : List Happening} (hplay : s.play? es = some s') :
    s'.Lived := h.run (run_of_play hplay)

/-- Courses are just what can be played from a submission. -/
theorem lived_iff_play :
    s.Lived ↔ ∃ (registry : Registry) (ids : FreshIds) (spec : DagSpec) (now : Timestamp)
    (d : Dag) (es : List Happening), ids.DistinctFor spec ∧ spec.build registry ids now = .ok d ∧
      (start d).play? es = some s := by
  constructor
  · intro h
    induction h with
    | @submitted registry ids spec now d fresh built =>
      exact ⟨registry, ids, spec, now, d, [], fresh, built, rfl⟩
    | next _ step ih =>
      obtain ⟨registry, ids, spec, now, d, es, fresh, built, hplay⟩ := ih
      obtain ⟨e, hafter⟩ := step.exists_after
      refine ⟨registry, ids, spec, now, d, es ++ [e], fresh, built, ?_⟩
      rw [play?, List.foldlM_append, ← play?, hplay]
      simp [hafter]
  · rintro ⟨registry, ids, spec, now, d, es, fresh, built, hplay⟩
    exact (Lived.submitted fresh built).play hplay

end Course

/-! ## A dag to play with -/

namespace Sample

/-- The point in time at which everything happens. -/
def dawn : Timestamp := ⟨0, 0⟩

/-- The agent that does all the work. -/
def worker : Agent := ⟨"worker", 7000⟩

/-- An operation that does nothing. -/
def operation (name : String) (capabilities : Capabilities) : Operation :=
  ⟨name, capabilities, fun _ => .done, none⟩

/-- Two operations that allow everything, but the second cannot go on after a restart. -/
def registry : Registry :=
  .ofSorted [operation "brittle" { Capabilities.all with canContinue := false },
    operation "steady" .all] (by decide)

/-- A stage of two tasks and another of one. -/
def spec : DagSpec :=
  ⟨"sample", .standard,
    [⟨"first", [], [.new "a" "steady" worker, .new "b" "brittle" worker]⟩,
     ⟨"second", [], [.new "c" "steady" worker]⟩]⟩

/-- Identifiers that count the tasks. -/
def ids : FreshIds := ⟨⟨⟨0⟩⟩, fun i j => ⟨⟨BitVec.ofNat 128 (2 * i + j)⟩⟩⟩

/-- The dag that is submitted. -/
def dag : Dag :=
  match spec.build registry ids dawn with
  | .ok d => d
  | .error _ => default

theorem length_le {i : Nat} {n : NodeSpec} (h : spec.nodes[i]? = some n) :
    i < 2 ∧ n.tasks.length ≤ 2 := by
  obtain ⟨hi, rfl⟩ := List.getElem?_eq_some_iff.mp h
  have hlt : i < 2 := hi
  match i, hlt with
  | 0, _ => simp [spec]
  | 1, _ => simp [spec]

theorem fresh : ids.DistinctFor spec := by
  intro i n i' n' hn hn' j hj j' hj' hsame
  obtain ⟨hi, hlen⟩ := length_le hn
  obtain ⟨hi', hlen'⟩ := length_le hn'
  have hbits : (2 * i + j) % 2 ^ 128 = (2 * i' + j') % 2 ^ 128 := congrArg (·.uuid.bits.toNat) hsame
  omega

/-- The course that is played from the submission on, or the submission alone if it cannot be
played. -/
def course (es : List Happening) : Course := ((Course.start dag).play? es).getD (Course.start dag)

theorem lived (es : List Happening) : (course es).Lived := by
  have built : spec.build registry ids dawn = .ok dag := rfl
  have hstart : (Course.start dag).Lived := .submitted fresh built
  rw [course]
  cases hplay : (Course.start dag).play? es with
  | none => exact hstart
  | some s => exact hstart.play hplay

/-- The worker reports a status of a task. -/
def report (id : TaskId) (status : TaskStatus) : Report :=
  ⟨id, worker, .ok ⟨id, worker, status, none, TaskContext.new worker, []⟩⟩

/-- Both stages are worked off. -/
def worked : List Happening :=
  [.proceed dawn dawn, .send, .send,
   .fold [report (ids.task 0 0) .succeeded, report (ids.task 0 1) .succeeded] dawn dawn,
   .proceed dawn dawn, .proceed dawn dawn, .send,
   .fold [report (ids.task 1 0) .succeeded] dawn dawn, .proceed dawn dawn]

/-- The process stops while the first stage is out. After it is recovered, the dag fails, because
one of the tasks cannot go on, and is rolled back. -/
def undone : List Happening :=
  [.proceed dawn dawn, .send, .send, .halt, .find, .recover registry dawn,
   .recover registry dawn, .resume, .proceed dawn dawn, .command .rollback dawn dawn,
   .proceed dawn dawn, .send,
   .fold [report (ids.task 0 1) .rolledBack] dawn dawn, .proceed dawn dawn]

end Sample

end Stagewise
