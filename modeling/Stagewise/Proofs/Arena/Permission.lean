import Stagewise.Proofs.Arena.Tracing
import Stagewise.Proofs.Dag.Acceptance
/-!
# Cancelling while a stage is out

A cancellation asks the tasks that run whether they may be cancelled. A step forward marks its tasks
as running before it sends any of them, so they are the ones that are asked. A step of a rollback
sends its tasks as they are: none of them runs by its status, nobody is asked, and the dag may be
cancelled whatever the tasks permit.
-/

namespace Stagewise

open Relation (ReflTransGen)

/-- The stage that a loop has out. -/
def Post.barrier? : Post → Option Barrier
  | .waiting b _ | .returning b _ | .reading b _ => some b
  | _ => none

theorem Post.holding_of_barrier {post : Post} {b : Barrier} (out : post.barrier? = some b) :
    post.holding = true := by
  cases post with
  | waiting | returning | reading => rfl
  | _ => cases out

theorem Post.Holds.barrier_eq {post : Post} {b b' : Barrier} (h : post.Holds b')
    (out : post.barrier? = some b) : b' = b := by
  cases h with
  | folded => cases out
  | _ => exact Option.some.inj out

theorem Arena.Ends.barrier_eq_none {post : Post} (h : Arena.Ends post) : post.barrier? = none := by
  cases post with
  | waiting | returning | reading => exact h.elim
  | _ => rfl

namespace Dag.SentOut

variable {d : Dag} {b : Barrier}

theorem taskAt_of_mem (h : d.SentOut b) {p : Agent × DispatchRequest} (hp : p ∈ b.sent ++ b.rest) :
    (∃ i, i + 1 = d.stage ∧ d.TaskAt i p.2.task) ∧ b.action.due p.2.task.status = true := by
  obtain ⟨n, hn, hrequests⟩ := h.batch
  rw [hrequests] at hp
  obtain ⟨targets, hbatch, -⟩ := Batch.mem_requests_iff.mp hp
  obtain ⟨hmem, hdue, -⟩ := mem_batchOf_iff.mp hbatch
  exact ⟨(mem_currentNode_iff hn).mp hmem, hdue⟩

theorem sent_of_running (h : d.SentOut b) (sound : d.Sound) (forward : b.action = .execute)
    {t : Task} (ht : t ∈ d.tasks) (running : t.status = .running) :
    ∃ p ∈ b.sent ++ b.rest, p.2.task = t := by
  have hdistinct := sound.shaped.distinct
  have hoperator := direction_eq_execute_iff.mp (h.direction.trans forward)
  have hadvancing := sound.advancing_of_ne_rollback hoperator (by simp [h.running])
  obtain ⟨i, hi⟩ := mem_tasks_iff.mp ht
  have hdue : b.action.due t.status = true := by simp [forward, Action.due, running]
  have hhere := hadvancing.here_of_running hi running
  obtain ⟨p, hp, hid⟩ := (h.mem_ids_iff hdistinct hi).mpr ⟨hhere, hdue⟩
  obtain ⟨⟨j, -, hj⟩, -⟩ := h.taskAt_of_mem hp
  exact ⟨p, hp, (hdistinct.unique hj hi hid).2⟩

theorem accepts_cancel_iff (h : d.SentOut b) (sound : d.Sound) (now : Timestamp) :
    (∃ made, d.command .cancel now = .ok made) ↔
      b.action = .rollback ∨ ∀ p ∈ b.sent ++ b.rest, p.2.task.capabilities.canCancel = true := by
  constructor
  · rintro ⟨⟨record, lines⟩, haccepted⟩
    cases command_cases haccepted with
    | cancel unfinished permitted =>
      cases haction : b.action with
      | rollback => exact .inl rfl
      | execute =>
        refine .inr fun p hp => ?_
        obtain ⟨⟨i, -, hi⟩, hdue⟩ := h.taskAt_of_mem hp
        rw [haction] at hdue
        exact permitted _ hi.mem_tasks (beq_iff_eq.mp hdue)
  · intro hmay
    have hpermitted : ∀ t ∈ d.tasks, t.status = .running → t.capabilities.canCancel = true := by
      intro t ht hrunning
      cases haction : b.action with
      | rollback =>
        have hoperator := direction_eq_rollback_iff.mp (h.direction.trans haction)
        obtain ⟨i, hi⟩ := mem_tasks_iff.mp ht
        exact absurd hrunning ((sound.unwinding_of_rollback hoperator).not_running hi)
      | execute =>
        obtain ⟨p, hp, rfl⟩ := h.sent_of_running sound haction ht hrunning
        exact hmay.resolve_left (by simp [haction]) p hp
    exact ⟨_, (Commanded.cancel (.inl h.running) hpermitted).command_eq_ok⟩

end Dag.SentOut

namespace Arena

variable {s s' : Arena} {g : Nat} {b : Barrier}

theorem Ruled.sentOut (h : s.Ruled) {t : Course} (traces : s.Traces t)
    (live : s.common.record.status ≠ .cancelled) (out : (s.posts (.loop g)).barrier? = some b) :
    s.common.record.SentOut b := by
  have hstarted : g ∈ s.common.started := by
    by_contra hunstarted
    rw [h.tended.manned.unstarted g hunstarted] at out
    cases out
  have hwork : s.AtWork g := by
    refine ⟨hstarted, fun hgone => ?_⟩
    rw [hgone] at out
    cases out
  rcases h.standing live (traces.stands live) hwork with ⟨-, hfree⟩ | ⟨b', hloop, hstage⟩
  · simp [Post.holding_of_barrier out] at hfree
  · have hsame : b' = b := by
      rcases hstage with holds | ⟨-, hending⟩
      · exact holds.barrier_eq out
      · simp [(hending g hwork).1.barrier_eq_none] at out
    have hlive : t.record.status ≠ .cancelled := traces.record ▸ live
    exact hsame ▸ traces.record ▸ traces.lived.held.sentOut hloop hlive

/-- While a loop has a stage out, forward or backward, it is the tasks of the record that are out,
and they are due. A cancellation is accepted then just when the stage goes backward, or every task
that is sent out may be cancelled. -/
theorem accepts_cancel_iff_permitted {registry : Registry} {ids : FreshIds} {spec : DagSpec}
    {now : Timestamp} {d : Dag} (fresh : ids.DistinctFor spec)
    (built : spec.build registry ids now = .ok d) (run : ReflTransGen Abides (submission d) s)
    (live : s.common.record.status ≠ .cancelled) (out : (s.posts (.loop g)).barrier? = some b)
    (later : Timestamp) :
    (∀ p ∈ b.sent ++ b.rest,
        p.2.task ∈ s.common.record.tasks ∧ b.action.due p.2.task.status = true) ∧
      ((∃ made, s.common.record.command .cancel later = .ok made) ↔
        b.action = .rollback ∨
          ∀ p ∈ b.sent ++ b.rest, p.2.task.capabilities.canCancel = true) := by
  obtain ⟨hruled, t, htraces⟩ := traces_of_run fresh built run
  have hout := hruled.sentOut htraces live out
  have hsound : s.common.record.Sound := htraces.record ▸ htraces.lived.held.sound
  refine ⟨fun p hp => ?_, hout.accepts_cancel_iff hsound later⟩
  obtain ⟨⟨i, -, hi⟩, hdue⟩ := hout.taskAt_of_mem hp
  exact ⟨hi.mem_tasks, hdue⟩

/-! ## A rollback that is cancelled -/

/-- Nobody has begun to recover the dag with this turn. -/
def Turn.isAside (s : Arena) : Turn → Bool
  | .act p _ => !(s.posts p).recovers
  | _ => true

theorem recovers_after (aside : ∀ p, (s.posts p).recovers = false) {turn : Turn}
    (after : s.after? turn = some s') (isAside : turn.isAside s' = true) (q : Process) :
    (s'.posts q).recovers = false := by
  cases turn with
  | act p cue =>
    simp only [after?] at after
    split at after
    · split at after
      · obtain rfl := Option.some.inj after
        by_cases hq : q = p
        · subst hq
          simpa [Turn.isAside] using isAside
        · rw [moved_posts_of_ne hq]
          exact aside q
      · cases after
    · cases after
  | elsewhere | shutdown =>
    obtain rfl := Option.some.inj after
    exact aside q
  | halt =>
    obtain rfl := Option.some.inj after
    exact unmoved_recovers q

/-- Plays turns, as long as nobody begins to recover the dag and the system serves. -/
def playOpen? (s : Arena) (turns : List Turn) : Option Arena :=
  turns.foldlM (fun s turn => (s.after? turn).filter fun s' =>
    Turn.isAside s' turn && !s'.common.shut) s

/-- What is played while nobody recovers the dag and the system serves is regular. -/
theorem abides_of_playOpen (aside : ∀ p, (s.posts p).recovers = false) {turns : List Turn}
    (hplay : s.playOpen? turns = some s') : ReflTransGen Abides s s' := by
  suffices hboth : ReflTransGen Abides s s' ∧ ∀ p, (s'.posts p).recovers = false from hboth.1
  refine holds_of_foldlM
    (P := fun s' => ReflTransGen Abides s s' ∧ ∀ p, (s'.posts p).recovers = false) ?_
    ⟨.refl, aside⟩ hplay
  rintro s₁ turn s₂ ⟨run, aside⟩ hturn
  obtain ⟨hafter, hopen⟩ := Option.filter_eq_some_iff.mp hturn
  rw [Bool.and_eq_true, Bool.not_eq_true'] at hopen
  have haside := recovers_after aside hafter hopen.1
  exact ⟨.tail run ⟨step_of_after hafter, regular_of_open haside hopen.2⟩, haside⟩

end Arena

namespace Sample

/-- One task, which may be rolled back and may not be cancelled. -/
def firmRegistry : Registry :=
  .ofSorted [operation "firm" { Capabilities.all with canCancel := false }]
    (List.pairwise_singleton ..)

def firmSpec : DagSpec := ⟨"firm", .standard, [⟨"only", [], [.new "a" "firm" worker]⟩]⟩

def firmDag : Dag :=
  match firmSpec.build firmRegistry ids dawn with
  | .ok d => d
  | .error _ => default

theorem firm_fresh : ids.DistinctFor firmSpec := ids.distinctFor_single rfl rfl

/-- The task fails, an operator rolls the dag back, and the loop sends the task out once more. -/
def unwinding : List Arena.Turn :=
  [go (.caller 0), go (.caller 0), go (.loop 0), go (.loop 0), go (.loop 0), go (.loop 0),
   .act (.loop 0) .send, .act (.loop 0) (.reply 0 (answer (ids.task 0 0) .failed)), go (.loop 0),
   go (.loop 0), go (.loop 0), go (.loop 0), go (.loop 0), go (.loop 0), go (.loop 0), go (.loop 0),
   .act (.caller 1) (.call .rollback), go (.caller 1), go (.caller 1), go (.caller 1),
   go (.caller 1), go (.loop 0), go (.loop 0), go (.loop 0), go (.loop 0), .act (.loop 0) .send]

def firm : Arena :=
  ((Arena.submission firmDag).playOpen? unwinding).getD (Arena.submission firmDag)

def firmStage : Barrier := ((firm.posts (.loop 0)).barrier?).getD ⟨.execute, 0, [], []⟩

end Sample

namespace Arena

/-- The task is sent out to be rolled back and may not be cancelled. The dag may. -/
theorem accepts_cancel_iff_permitted_unwinding :
    ReflTransGen Abides (submission Sample.firmDag) Sample.firm ∧
      Sample.firm.common.record.status = .running ∧
      Sample.firm.posts (.loop 0) = .waiting Sample.firmStage [none] ∧
      (∃ p, Sample.firmStage.sent = [p] ∧ p.2.action = .rollback ∧
        p.2.task ∈ Sample.firm.common.record.tasks ∧ p.2.task.status = .failed ∧
        p.2.task.capabilities.canCancel = false) ∧
      ∃ made, Sample.firm.common.record.command .cancel Sample.dawn = .ok made := by
  have built : Sample.firmSpec.build Sample.firmRegistry Sample.ids Sample.dawn
    = .ok Sample.firmDag := rfl
  have hplay : (submission Sample.firmDag).playOpen? Sample.unwinding = some Sample.firm := rfl
  have hrun := abides_of_playOpen (submission_recovers Sample.firmDag) hplay
  have hstatus : Sample.firm.common.record.status = .running := rfl
  have hwaiting : Sample.firm.posts (.loop 0) = .waiting Sample.firmStage [none] := rfl
  obtain ⟨hdue, haccepts⟩ := accepts_cancel_iff_permitted Sample.firm_fresh built hrun
    (by simp [hstatus]) (g := 0) (b := Sample.firmStage) (by rw [hwaiting]; rfl) Sample.dawn
  refine ⟨hrun, hstatus, hwaiting, ⟨_, rfl, rfl, (hdue _ List.mem_cons_self).1, rfl, rfl⟩, ?_⟩
  exact haccepts.mpr (.inl rfl)

end Arena

end Stagewise
