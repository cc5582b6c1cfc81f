import Stagewise.Proofs.Arena.Alone
import Stagewise.Proofs.Arena.Play
/-!
# Final records and recovery

A drive loop whose answers come late finds that the dag no longer runs and drops them, and no
command is accepted any more once the dag is cancelled or has succeeded. Recovery alone does not look
again: it goes by the records that it read before it took the lock. So the record of a dag that has
ended is written over by those who found the dag running before and are not yet done with it, and by
nobody else.
-/

namespace Stagewise

open Relation (ReflTransGen)

/-- Nothing more is to happen to the dag. -/
def Dag.Final (d : Dag) : Prop := d.status = .cancelled ∨ d.status = .succeeded

/-- What recovery makes of the record for an interrupted task. -/
def Dag.restored (d : Dag) (registry : Registry) (t : Task) (now : Timestamp) : Dag :=
  (d.modifyTask t.id (Store.withStatus (registry.recovered t).1 now)).raised now

/-- A recovery has found the dag running and is not yet done with it. -/
def Post.recovers : Post → Bool
  | .found _ | .restoring _ => true
  | _ => false

/-- The tasks that a recovery has still to see to. -/
def Post.left : Post → List Task
  | .found left | .restoring left => left
  | _ => []

namespace Dag.Final

variable {d record : Dag}

theorem not_running (h : d.Final) : d.isRunning = false := by
  rcases h with hs | hs <;> simp [isRunning, hs]

theorem refuses (h : d.Final) {operator : Operator} {now : Timestamp} {lines : LogLines} :
    d.command operator now ≠ .ok (record, lines) := by
  intro haccepted
  cases command_cases haccepted with
  | retry failed | pass failed | rollback failed => rcases h with hs | hs <;> simp [hs] at failed
  | cancel unfinished => rcases h with hs | hs <;> simp [hs] at unfinished

end Dag.Final

theorem Dag.restored_ne (d : Dag) (registry : Registry) (t : Task) (now : Timestamp) :
    d.restored registry t now ≠ d := by
  intro hsame
  have hversion : d.version + 1 = d.version := congrArg Dag.version hsame
  omega

variable {c c' : Common} {p : Process} {post post' : Post}

/-- Only a recovery that is not yet done writes over a final record. -/
theorem Act.unwritten (act : Act p c post c' post') (fits : post.Fits c p) (final : c.record.Final)
    (done : post.recovers = false) : c'.record = c.record ∧ c'.written = c.written := by
  have hended := final.not_running
  cases act with
  | write later write same =>
    have hrunning := fits.2.1
    rw [hended] at hrunning
    cases hrunning
  | settle later same =>
    have hrunning := fits.2.1
    rw [hended] at hrunning
    cases hrunning
  | commit later same =>
    obtain ⟨-, now, lines, haccepted⟩ := fits
    exact absurd haccepted final.refuses
  | recover => cases done
  | start | serve =>
    simp only [Common.spawn]
    split <;> exact ⟨rfl, rfl⟩
  | _ => exact ⟨rfl, rfl⟩

/-- A recovery writes for the tasks that it has still to see to, and whatever the status of the dag
has become, it leaves that alone. -/
theorem Act.written_of_recovers (act : Act p c post c' post') (recovers : post.recovers = true) :
    c'.record = c.record ∧ c'.written = c.written ∨
      ∃ n t registry now, p = .caller n ∧ t ∈ post.left ∧
        c'.record = c.record.restored registry t now ∧
          c'.written = (p, c'.record) :: c.written := by
  cases act with
  | restore | restored => exact .inl ⟨rfl, rfl⟩
  | recover registry now =>
    exact .inr ⟨_, _, registry, now, rfl, List.mem_cons_self, rfl, rfl⟩
  | _ => cases recovers

theorem Act.status_of_recovers (act : Act p c post c' post') (recovers : post.recovers = true) :
    c'.record.status = c.record.status := by
  rcases act.written_of_recovers recovers with ⟨hkept, -⟩ | ⟨_, _, _, _, -, -, hrestored, -⟩
  · rw [hkept]
  · rw [hrestored]
    rfl

theorem Post.after_recovers (record : Dag) (batch : Option Batch) :
    (Post.after record batch).recovers = false := by
  cases batch with
  | none => rfl
  | some batch => rfl

theorem Post.left_of_not_recovers (h : post.recovers = false) : post.left = [] := by
  cases post with
  | found | restoring => cases h
  | _ => rfl

/-- Nobody finds more to recover in a dag that does not run. -/
theorem Act.left_suffix (act : Act p c post c' post') (ended : c.record.isRunning = false) :
    post'.left <:+ post.left := by
  cases act with
  | find running =>
    rw [ended] at running
    cases running
  | restore => exact List.suffix_refl _
  | recover => exact List.suffix_cons ..
  | write | pass =>
    rw [Post.left_of_not_recovers (Post.after_recovers ..)]
    exact List.nil_suffix
  | _ => exact List.nil_suffix

theorem Act.not_recovers {g : Nat} (act : Act (.loop g) c post c' post') :
    post.recovers = false := by
  cases act <;> rfl

namespace Arena

variable {s s' s₁ : Arena}

theorem unmoved_recovers (p : Process) : (unmoved p).recovers = false := by
  cases p <;> rfl

/-- Whatever else is going on, a final record is written over by a recovery that has found the dag
running before, for a task that it has left, and by nothing else. -/
theorem Orderly.unwritten (h : s.Orderly) (final : s.common.record.Final) (step : Step s s') :
    s'.common.record = s.common.record ∧ s'.common.written = s.common.written ∨
      ∃ n t registry now, t ∈ (s.posts (.caller n)).left ∧
        s'.common.record = s.common.record.restored registry t now ∧
          s'.common.written = (.caller n, s'.common.record) :: s.common.written := by
  cases step with
  | goes goes =>
    cases goes with
    | @act p common post present act free =>
      cases hrecovers : (s.posts p).recovers with
      | false => exact .inl (act.unwritten (h.fits p) final hrecovers)
      | true =>
        rcases act.written_of_recovers hrecovers with
          hkept | ⟨n, t, registry, now, rfl, hleft, hrecord, hwritten⟩
        · exact .inl hkept
        · exact .inr ⟨n, t, registry, now, hleft, hrecord, hwritten⟩
    | elsewhere => exact .inl ⟨rfl, rfl⟩
    | shutdown => exact .inl ⟨rfl, rfl⟩
  | halt => exact .inl ⟨rfl, rfl⟩

theorem left_suffix_of_step (ended : s.common.record.isRunning = false) (step : Step s s')
    (n : Nat) : (s'.posts (.caller n)).left <:+ (s.posts (.caller n)).left := by
  cases step with
  | goes goes =>
    cases goes with
    | @act p common post present act free =>
      by_cases hp : Process.caller n = p
      · subst hp
        rw [moved_posts_self]
        exact act.left_suffix ended
      · simp only [moved_posts_of_ne hp, List.suffix_refl]
    | elsewhere | shutdown => exact List.suffix_refl _
  | halt => exact List.nil_suffix

/-- What may be written over the record, and what it becomes: one after another, callers who had the
dag to recover write for tasks that they had left. -/
inductive Overwritten (s : Arena) : List (Process × Dag) → Dag → Prop where
  | kept : Overwritten s s.common.written s.common.record
  | restored {written : List (Process × Dag)} {d : Dag} {n : Nat} {t : Task} (registry : Registry)
      (now : Timestamp) (before : Overwritten s written d) (left : t ∈ (s.posts (.caller n)).left) :
      Overwritten s ((.caller n, d.restored registry t now) :: written) (d.restored registry t now)

theorem Overwritten.status {written : List (Process × Dag)} {d : Dag}
    (h : s.Overwritten written d) : d.status = s.common.record.status := by
  induction h with
  | kept => rfl
  | restored registry now before left ih => exact ih

theorem Overwritten.eq_of_nothing_left {written : List (Process × Dag)} {d : Dag}
    (h : s.Overwritten written d) (nothing : ∀ n, (s.posts (.caller n)).left = []) :
    d = s.common.record := by
  cases h with
  | kept => rfl
  | restored registry now before left =>
    rw [nothing] at left
    cases left

/-- Whatever happens after the dag has ended, its record is only ever written over by recoveries
that had it to recover then. -/
theorem Orderly.overwritten_of_run (h : s.Orderly) (final : s.common.record.Final)
    (run : ReflTransGen Step s s') :
    s'.Orderly ∧ s.Overwritten s'.common.written s'.common.record ∧
      ∀ n, (s'.posts (.caller n)).left <:+ (s.posts (.caller n)).left := by
  induction run with
  | refl => exact ⟨h, .kept, fun n => List.suffix_refl _⟩
  | @tail s₁ s₂ _ step ih =>
    obtain ⟨horderly, hover, hleft⟩ := ih
    have hfinal : s₁.common.record.Final := by
      rw [Dag.Final, hover.status]
      exact final
    refine ⟨horderly.step step, ?_, fun n =>
      (left_suffix_of_step hfinal.not_running step n).trans (hleft n)⟩
    rcases horderly.unwritten hfinal step with
      ⟨hrecord, hwritten⟩ | ⟨n, t, registry, now, ht, hrecord, hwritten⟩
    · rw [hrecord, hwritten]
      exact hover
    · rw [hwritten, hrecord]
      exact .restored registry now hover ((hleft n).mem ht)

/-- A recovery that finds the lock free goes on to write for the first of its tasks, whatever has
become of the dag. -/
theorem may_restore {n : Nat} {t : Task} {left : List Task}
    (found : s.posts (.caller n) = .found (t :: left)) (free : s.lock = none) (registry : Registry)
    (now : Timestamp) :
    ∃ s', ReflTransGen Step s s' ∧
      s'.common.record = s.common.record.restored registry t now := by
  have hlock : s.lock = if (s.posts (.caller n)).inside then some (.caller n) else none := by
    rw [found, free]
    rfl
  have hacts : Acts (.caller n) s.common (s.posts (.caller n))
      (s.common.write (.caller n)
        (s.common.record.modifyTask t.id (Store.withStatus (registry.recovered t).1 now)) now)
      (.restoring left) := by
    rw [found]
    exact .head .restore (.single (.recover registry now))
  obtain ⟨s', hrun, hcommon, -⟩ := run_of_acts (p := .caller n) trivial hlock hacts
  refine ⟨s', hrun.lift id fun _ _ writes => .goes writes.1, ?_⟩
  rw [hcommon]
  rfl

/-- Once a dag is cancelled or has succeeded, its status stays as it is, answers to a stage that was
out are never folded in, whenever they come, and whatever is written over the record is written by
recoveries that had found the dag running before. While the lock is free, the record stays as it is
for good just when no recovery has found a task that it has still to see to. -/
theorem overwritten_by_recovery (reached : s.Reached)
    (final : s.common.record.status = .cancelled ∨ s.common.record.status = .succeeded) :
    (∀ s', ReflTransGen Step s s' →
      s'.common.record.status = s.common.record.status ∧
        s.Overwritten s'.common.written s'.common.record ∧
        ∀ g read record, s'.posts (.loop g) ≠ .folded read record) ∧
      (s.lock = none →
        ((∀ s', ReflTransGen Step s s' → s'.common.record = s.common.record) ↔
          ∀ n t left, s.posts (.caller n) ≠ .found (t :: left))) := by
  have horderly := reached.orderly
  refine ⟨fun s' run => ?_, fun free => ⟨fun kept n t left hfound => ?_, fun nobody s' run => ?_⟩⟩
  · obtain ⟨hafter, hover, -⟩ := horderly.overwritten_of_run final run
    refine ⟨hover.status, hover, fun g read record hfolded => ?_⟩
    -- A loop folds answers in only where it has read, under the lock, that the dag runs.
    have hfits := hafter.fits (.loop g)
    rw [hfolded] at hfits
    have hrunning := hfits.2.1
    rw [Dag.isRunning_iff, hover.status] at hrunning
    rcases final with hs | hs <;> simp [hs] at hrunning
  · obtain ⟨s', run, hrestored⟩ := may_restore hfound free .empty s.common.record.updatedAt
    exact Dag.restored_ne _ _ _ _ (hrestored.symm.trans (kept s' run))
  · refine (horderly.overwritten_of_run final run).2.1.eq_of_nothing_left fun n => ?_
    cases hpost : s.posts (.caller n) with
    | found left =>
      cases left with
      | nil => rfl
      | cons t left => exact absurd hpost (nobody n t left)
    | restoring left =>
      have hlock := (horderly.exclusive (.caller n)).mp (by rw [hpost]; rfl)
      rw [free] at hlock
      cases hlock
    | _ => rfl

end Arena

namespace Sample

/-- The process stops while the first stage is out. Someone begins to recover the dag, and before
that goes on an operator cancels it. -/
def overtaken : List Arena.Turn :=
  launched ++ [.halt, go (.caller 1), .act (.caller 2) (.call .cancel), go (.caller 2),
    go (.caller 2), go (.caller 2), go (.caller 2), go (.caller 2)]

/-- The recovery goes on with the first of the two tasks. -/
def resumed : List Arena.Turn := overtaken ++ [go (.caller 1), go (.caller 1)]

end Sample

namespace Arena

/-- The dag is cancelled in its second record, and no loop of it is registered or at work. The
recovery writes a third one all the same, in which a task that was cancelled waits to be run. -/
theorem overwritten_by_recovery_overtaken :
    (Sample.arena Sample.overtaken).Reached ∧
      (Sample.arena Sample.overtaken).common.record.status = .cancelled ∧
      (Sample.arena Sample.overtaken).common.record.version = 2 ∧
      (Sample.arena Sample.overtaken).common.record.tasks.map (·.status)
        = [.failed, .failed, .skipped] ∧
      (Sample.arena Sample.overtaken).common.entry = none ∧
      (Sample.arena Sample.overtaken).common.started = [] ∧
      ReflTransGen Step (Sample.arena Sample.overtaken) (Sample.arena Sample.resumed) ∧
      (Sample.arena Sample.resumed).common.record.status = .cancelled ∧
      (Sample.arena Sample.resumed).common.record.version = 3 ∧
      (Sample.arena Sample.resumed).common.record.tasks.map (·.status)
        = [.pending, .failed, .skipped] ∧
      ¬ ∀ s', ReflTransGen Step (Sample.arena Sample.overtaken) s' →
        s'.common.record = (Sample.arena Sample.overtaken).common.record := by
  have hplay : (Sample.arena Sample.overtaken).play?
      [Sample.go (.caller 1), Sample.go (.caller 1)]
    = some (Sample.arena Sample.resumed) := rfl
  have hstatus : (Sample.arena Sample.overtaken).common.record.status = .cancelled := rfl
  have hreached := Sample.reached Sample.overtaken
  obtain ⟨hafter, hkept⟩ := overwritten_by_recovery hreached (.inl hstatus)
  have hrun := run_of_play hplay
  refine ⟨hreached, hstatus, rfl, rfl, rfl, rfl, hrun, (hafter _ hrun).1.trans hstatus, rfl, rfl,
    fun kept => ?_⟩
  exact (hkept rfl).mp kept 1 _ _ rfl

end Arena

end Stagewise
