import Stagewise.Proofs.Arena.Alone
import Stagewise.Proofs.Arena.Wakeup
/-!
# A stage that is out when the system is shut down

A drive loop that waits for its stage when the system is shut down may stop at once. Then its tasks
stay as they are stored, and recovery takes them up again. But the runs it waits for are told to
stop together with it, and each of them reports that at once, as a failure. The loop may as well
take these reports and fold them in. Then the interrupted tasks are stored as failed, and recovery
passes them over.
-/

namespace Stagewise

open Relation (ReflTransGen)

/-! ## The answers to a stage -/

/-- The stage when all of its requests are sent. -/
def Barrier.whole (b : Barrier) : Barrier := { b with sent := b.sent ++ b.rest, rest := [] }

theorem Barrier.whole_of_out {b : Barrier} (out : b.rest = []) : b.whole = b := by
  obtain ⟨action, stage, sent, rest⟩ := b
  subst out
  rw [whole, List.append_nil]

/-- Replies to every request answer the stage. -/
theorem Barrier.answered_reports {b : Barrier} (out : b.rest = [])
    {replies : List (Option (EngineResult Outcome))} (matched : replies.length = b.sent.length)
    (all : ∀ r ∈ replies, r.isSome) : b.Answered (b.reports replies) := by
  refine ⟨out, ?_⟩
  rw [reports]
  generalize b.sent = requests at matched
  induction replies generalizing requests with
  | nil =>
    rw [List.eq_nil_of_length_eq_zero matched.symm]
    rfl
  | cons reply replies ih =>
    cases requests with
    | nil => cases matched
    | cons p requests =>
      obtain ⟨result, rfl⟩ := Option.isSome_iff_exists.mp (all reply List.mem_cons_self)
      have hrest := ih (fun r hr => all r (List.mem_cons_of_mem _ hr)) requests
        (Nat.succ.inj matched)
      have hfirst : (some result :: replies).filterMap id = result :: replies.filterMap id := rfl
      rw [hfirst, List.zipWith_cons_cons, List.map_cons, List.map_cons, hrest]

/-- A loop that waits has a reply, or none yet, to each request that it has sent. -/
def Post.Matched : Post → Prop
  | .waiting b replies => replies.length = b.sent.length
  | _ => True

theorem Post.matched_after (record : Dag) (batch : Option Batch) :
    (Post.after record batch).Matched := by
  cases batch with
  | none => trivial
  | some batch => rfl

theorem Act.matched {p : Process} {c c' : Common} {post post' : Post} (act : Act p c post c' post')
    (h : post.Matched) : post'.Matched := by
  cases act with
  | write | pass => exact Post.matched_after _ _
  | send next => simpa [Post.Matched] using h
  | reply result due => simpa [Post.Matched] using h
  | _ => trivial

namespace Arena

variable {s s' : Arena} {p : Process} {g : Nat} {b : Barrier} {d : Dag}

theorem Reached.matched (h : s.Reached) (p : Process) : (s.posts p).Matched := by
  have hunmoved : ∀ p, (unmoved p).Matched := fun p => by cases p <;> trivial
  induction h with
  | @submission _ _ _ _ d fresh built =>
    by_cases hp : p = .caller 0
    · subst hp
      trivial
    · have hother : (Arena.submission d).posts p = unmoved p := Function.update_of_ne hp ..
      rw [hother]
      exact hunmoved p
  | next _ step ih =>
    cases step with
    | halt => exact hunmoved p
    | goes goes =>
      cases goes with
      | @act q common post present act free =>
        by_cases hq : p = q
        · subst hq
          rw [moved_posts_self]
          exact act.matched ih
        · rw [moved_posts_of_ne hq]
          exact ih
      | elsewhere => exact ih
      | shutdown => exact ih

/-! ## What becomes of the stage -/

/-- A loop at one of these posts writes nothing any more, once it is told to stop. -/
def Ends : Post → Prop
  | .checking | .leaving | .deciding | .departing | .gone => True
  | _ => False

/-- The record has become the one in which answers to the stage are folded in. -/
def FoldedIn (b : Barrier) (d d' : Dag) : Prop :=
  ∃ reports now later, b.whole.Answered reports ∧
    d' = (d.settle reports b.action now).dag.raised later

/-- Where a loop stands that was told to stop while it had the stage out, and what is stored
then. -/
inductive WindsUp (b : Barrier) (d : Dag) : Dag → Post → Prop where
  | out {b' : Barrier} {replies : List (Option (EngineResult Outcome))}
      (same : b'.whole = b.whole) (matched : replies.length = b'.sent.length) :
      WindsUp b d d (.waiting b' replies)
  | returning {reports : List Report} (answered : b.whole.Answered reports) :
      WindsUp b d d (.returning b.whole reports)
  | reading {reports : List Report} (answered : b.whole.Answered reports) :
      WindsUp b d d (.reading b.whole reports)
  | folding {reports : List Report} (now : Timestamp) (answered : b.whole.Answered reports) :
      WindsUp b d d (.folded d (d.settle reports b.action now).dag)
  | ended {record : Dag} {post : Post} (ends : Ends post)
      (left : record = d ∨ FoldedIn b d record) :
      WindsUp b d record post

/-- What the loop does next when it is told to stop. -/
theorem WindsUp.act {c c' : Common} {post post' : Post} (h : WindsUp b d c.record post)
    (told : g ∈ c.cancelled) (act : Act (.loop g) c post c' post') :
    WindsUp b d c'.record post' := by
  generalize hrecord : c.record = record at h
  cases h with
  | @out b' replies same matched =>
    cases act with
    | send next =>
      refine hrecord ▸ .out ?_ (by simpa using matched)
      rw [← same, Barrier.whole, Barrier.whole, next]
      simp
    | reply result due => exact hrecord ▸ .out same (by simpa using matched)
    | collect out all =>
      have hwhole : b' = b.whole := (Barrier.whole_of_out out).symm.trans same
      have hanswered := Barrier.answered_reports out matched all
      subst hwhole
      exact hrecord ▸ .returning hanswered
    | interrupt cancelled => exact .ended trivial (.inl hrecord)
  | returning answered =>
    cases act with
    | reenter => exact hrecord ▸ .reading answered
  | reading answered =>
    cases act with
    | drop changed => exact .ended trivial (.inl hrecord)
    | fold now running stage =>
      subst hrecord
      exact .folding now answered
  | @folding reports now answered =>
    cases act with
    | settle later same => exact .ended trivial (.inr ⟨reports, now, later, answered, rfl⟩)
    | missFold other => exact .ended trivial (.inl hrecord)
  | ended ends left =>
    subst hrecord
    cases act with
    | goOn live => exact absurd told live
    | consider live => exact absurd told live
    | giveUp | leave | confirm | depart => exact .ended trivial left
    | _ => exact ends.elim

/-- While nobody else writes, a loop that is told to stop folds the stage in or writes nothing. -/
theorem windsUp_of_run (run : ReflTransGen (WritesOnly (.loop g)) s s')
    (told : g ∈ s.common.cancelled) (h : WindsUp b d s.common.record (s.posts (.loop g))) :
    WindsUp b d s'.common.record (s'.posts (.loop g)) := by
  suffices hboth : g ∈ s'.common.cancelled ∧ WindsUp b d s'.common.record (s'.posts (.loop g)) from
    hboth.2
  induction run with
  | refl => exact ⟨told, h⟩
  | @tail s₁ s₂ _ step ih =>
    obtain ⟨htold, hwinds⟩ := ih
    obtain ⟨hgoes, hwrote⟩ := step
    cases hgoes with
    | @act p common post present act free =>
      refine ⟨act.cancelled_mono htold, ?_⟩
      by_cases hp : Process.loop g = p
      · subst hp
        rw [moved_posts_self]
        exact hwinds.act htold act
      · rw [moved_posts_of_ne hp]
        have hsame : common.record = s₁.common.record := by
          rcases hwrote with ⟨hrecord, -⟩ | hother
          · exact hrecord
          · rcases act.wrote with ⟨hrecord, -⟩ | hmine
            · exact hrecord
            · rw [moved_common, hmine, List.cons.injEq, Prod.mk.injEq] at hother
              exact absurd hother.1.1.symm hp
        rw [moved_common, hsame]
        exact hwinds
    | elsewhere => exact ⟨htold, hwinds⟩
    | shutdown => exact ⟨List.mem_append_right _ htold, hwinds⟩

theorem WindsUp.left {record : Dag} {post : Post} (h : WindsUp b d record post) :
    record = d ∨ FoldedIn b d record := by
  cases h with
  | ended ends left => exact left
  | _ => exact .inl rfl

/-- The loop may take a result from each agent that has not answered yet, whatever it is, and fold
the stage in. Nothing that was done to its token keeps it from that. -/
theorem may_fold (reached : s.Reached) {replies : List (Option (EngineResult Outcome))}
    (waiting : s.posts (.loop g) = .waiting b replies) (out : b.rest = []) (free : s.lock = none)
    (running : s.common.record.isRunning) (stage : s.common.record.stage = b.stage)
    {results : List (EngineResult Outcome)} (may : List.Forall₂ MayBecome replies results)
    (now later : Timestamp) :
    ∃ s', ReflTransGen (WritesOnly (.loop g)) s s' ∧ s'.common.record
      = (s.common.record.settle (b.reports (results.map some)) b.action now).dag.raised later := by
  have hpresent : s.Present (.loop g) := by
    by_contra hunstarted
    have hchecking := reached.tended.manned.unstarted g hunstarted
    rw [waiting] at hchecking
    cases hchecking
  have hlock : s.lock = if (s.posts (.loop g)).inside then some (.loop g) else none := by
    rw [waiting, free]
    rfl
  let reports := b.reports (results.map some)
  have hacts : Acts (.loop g) s.common (s.posts (.loop g))
      (s.common.write (.loop g) (s.common.record.settle reports b.action now).dag later)
      .checking := by
    rw [waiting]
    exact (collect_acts s.common g b out may).trans
      (.head .reenter (.head (.fold now running stage) (.single (.settle later rfl))))
  obtain ⟨s', hrun, hcommon, -⟩ := run_of_acts hpresent hlock hacts
  exact ⟨s', hrun, by rw [hcommon]; rfl⟩

end Arena

/-! ## What recovery finds -/

/-- An interrupted task runs again just when its type is known and it may go on. -/
theorem Registry.recovered_eq_pending_iff (registry : Registry) (t : Task) :
    (registry.recovered t).1 = .pending ↔
      registry.contains t.typeName ∧ t.capabilities.canContinue := by
  rw [recovered, find, contains]
  cases hget : registry.get? t.typeName with
  | none => simp
  | some operation => cases hcontinue : t.capabilities.canContinue <;> simp

namespace Dag

variable {d : Dag} {reports : List Report} {action : Action} {now : Timestamp} {t : Task}

/-- No task that is reported is interrupted any more. -/
theorem ne_of_interrupted (ht : t ∈ (d.reported reports action now).interrupted) {r : Report}
    (hr : r ∈ reports) : r.task ≠ t.id := by
  intro hid
  obtain ⟨hmem, hrunning⟩ := List.mem_filter.mp ht
  rw [beq_iff_eq] at hrunning
  obtain ⟨u, -, hu⟩ := mem_reported_iff.mp hmem
  split at hu
  · next hreported =>
    rw [← hu, Task.folded_status] at hrunning
    split at hrunning
    · cases hrunning
    · cases action <;> cases hrunning
  · next hunreported =>
    subst hu
    exact hunreported ⟨r, hr, hid⟩

end Dag

namespace Arena

variable {s s' : Arena} {g : Nat} {b : Barrier}

/-- A stage that is going forward when the system is shut down comes to one of two ends. Its loop
writes nothing, and whatever was running is left to recovery, which puts it back if its type is
known and it may go on. Or the loop folds the stage in as a whole; then every task with a report of
failure is stored as failed, and recovery finds no task of the stage interrupted. -/
theorem stage_after_shutdown (reached : s.Reached) (registered : s.common.entry = some g)
    {replies : List (Option (EngineResult Outcome))}
    (waiting : s.posts (.loop g) = .waiting b replies) (forward : b.action = .execute)
    (run : ReflTransGen (WritesOnly (.loop g)) { s with common := s.common.shutdown } s') :
    (s'.common.record = s.common.record ∧
        ∀ registry : Registry, ∀ t ∈ s.common.record.interrupted,
          t ∈ s'.common.record.interrupted ∧ ((registry.recovered t).1 = .pending ↔
            registry.contains t.typeName ∧ t.capabilities.canContinue)) ∨
      ∃ reports now later, b.whole.Answered reports ∧
        s'.common.record = (s.common.record.reported reports .execute now).raised later ∧
        (∀ t ∈ s.common.record.tasks, (∃ r ∈ reports, r.task = t.id ∧ r.fails) →
          ∃ t' ∈ s'.common.record.tasks, t'.id = t.id ∧ t'.status = .failed) ∧
        ∀ t ∈ s'.common.record.interrupted, ∀ p ∈ b.sent ++ b.rest, p.2.task.id ≠ t.id := by
  have hmatched := reached.matched (.loop g)
  rw [waiting] at hmatched
  have hout : WindsUp b s.common.record s.common.record (s.posts (.loop g)) :=
    waiting ▸ .out rfl hmatched
  have htold : g ∈ s.common.shutdown.cancelled := by simp [Common.shutdown, registered]
  rcases (windsUp_of_run run htold hout).left with hkept | ⟨reports, now, later, hanswered, hfolded⟩
  · refine .inl ⟨hkept, fun registry t ht => ⟨hkept ▸ ht, registry.recovered_eq_pending_iff t⟩⟩
  · have hdistinct := reached.orderly.shaped.distinct
    rw [forward, Dag.settle_execute hdistinct] at hfolded
    refine .inr ⟨reports, now, later, hanswered, hfolded, fun t ht hfails => ?failed,
      fun t ht p hp => ?settled⟩
    case failed =>
      rw [hfolded]
      exact Dag.failed_of_fails ht hfails
    case settled =>
      rw [hfolded] at ht
      have hrequested : ∃ q ∈ b.whole.sent ++ b.whole.rest, q.2.task.id = p.2.task.id :=
        ⟨p, by simpa [Barrier.whole] using hp, rfl⟩
      obtain ⟨r, hr, hid⟩ := hanswered.reported_iff.mpr hrequested
      exact hid ▸ Dag.ne_of_interrupted ht hr

end Arena

namespace Sample

/-- The arena whose first stage is out when the system is shut down. -/
def stopped : Arena := { arena launched with common := (arena launched).common.shutdown }

/-- The stage that is out. -/
def stage : Barrier :=
  match (arena launched).posts (.loop 0) with
  | .waiting b _ => b
  | _ => ⟨.execute, 0, [], []⟩

/-- What the worker reports when its runs are told to stop. -/
def interruptions : List (EngineResult Outcome) :=
  [answer (ids.task 0 0) .failed, answer (ids.task 0 1) .failed]

end Sample

namespace Arena

/-- Both tasks of the stage report that they failed, and recovery finds neither: not even the one
whose type is known and which may go on. -/
theorem stage_after_shutdown_folded :
    (Sample.arena Sample.launched).common.entry = some 0 ∧
      (Sample.arena Sample.launched).posts (.loop 0) = .waiting Sample.stage [none, none] ∧
      Sample.stage.action = .execute ∧
      (∃ t ∈ (Sample.arena Sample.launched).common.record.interrupted,
        t.id = Sample.ids.task 0 0 ∧ Sample.registry.contains t.typeName ∧
          t.capabilities.canContinue) ∧
      ∃ s', ReflTransGen (WritesOnly (.loop 0)) Sample.stopped s' ∧
        (∃ t ∈ s'.common.record.tasks, t.id = Sample.ids.task 0 0 ∧ t.status = .failed) ∧
        ∀ t ∈ s'.common.record.interrupted, ∀ p ∈ Sample.stage.sent ++ Sample.stage.rest,
          p.2.task.id ≠ t.id := by
  have hentry : (Sample.arena Sample.launched).common.entry = some 0 := rfl
  have hwaiting : (Sample.arena Sample.launched).posts (.loop 0)
    = .waiting Sample.stage [none, none] := rfl
  have hstopped : Sample.stopped.Reached :=
    .next (Sample.reached Sample.launched) (.goes .shutdown)
  have hout : Sample.stopped.posts (.loop 0) = .waiting Sample.stage [none, none] := hwaiting
  have hmay : List.Forall₂ MayBecome [none, none] Sample.interruptions :=
    .cons (.inl rfl) (.cons (.inl rfl) .nil)
  obtain ⟨s', hrun, hrecord⟩ :=
    may_fold hstopped hout rfl rfl rfl rfl hmay Sample.dawn Sample.dawn
  refine ⟨hentry, hwaiting, rfl, ⟨_, List.mem_cons_self, rfl, rfl, rfl⟩, s', hrun, ?failed,
    ?settled⟩
  case failed =>
    rw [hrecord]
    exact ⟨_, List.mem_cons_self, rfl, rfl⟩
  case settled =>
    rcases stage_after_shutdown (Sample.reached _) hentry hwaiting rfl hrun with
      ⟨hkept, -⟩ | ⟨_, _, _, -, -, -, hsettled⟩
    · have hversion := congrArg Dag.version (hrecord.symm.trans hkept)
      exact absurd hversion (by decide)
    · exact hsettled

end Arena

end Stagewise
