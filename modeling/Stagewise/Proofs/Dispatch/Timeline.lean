import Stagewise.Proofs.Dispatch.Runner
/-!
# What a run does over time

What a run does comes in the order of time, and nothing of it after its end. What a dispatch comes
to depends on no more of a registry than on what the operation of its task does on this call.
-/

namespace Stagewise

/-- What is done comes in the order of time, from a moment on, and not after the end. -/
structure Timeline.Ordered (start : Nat) (t : Timeline) : Prop where
  sorted : t.moments.Pairwise fun m n => m.at' ≤ n.at'
  after : ∀ m ∈ t.moments, start ≤ m.at'
  before : ∀ ending, t.ending = some ending →
    start ≤ ending.at' ∧ ∀ m ∈ t.moments, m.at' ≤ ending.at'

namespace Timeline.Ordered

variable {t : Timeline} {start : Nat} {m : Moment} {ending : Ending}

theorem bare {ending? : Option Ending}
    (h : ∀ ending, ending? = some ending → start ≤ ending.at') :
    Timeline.Ordered start ⟨[], ending?⟩ :=
  ⟨.nil, nofun, fun ending hending => ⟨h ending hending, nofun⟩⟩

theorem cons (h : t.Ordered start) (hm : m.at' = start) : (t.cons m).Ordered start where
  sorted := List.pairwise_cons.2 ⟨fun n hn => hm ▸ h.after n hn, h.sorted⟩
  after := List.forall_mem_cons.2 ⟨Nat.le_of_eq hm.symm, h.after⟩
  before ending hending := by
    obtain ⟨hstart, hbefore⟩ := h.before ending hending
    exact ⟨hstart, List.forall_mem_cons.2 ⟨hm ▸ hstart, hbefore⟩⟩

theorem mono {later : Nat} (h : t.Ordered later) (hle : start ≤ later) : t.Ordered start where
  sorted := h.sorted
  after n hn := Nat.le_trans hle (h.after n hn)
  before ending hending := by
    obtain ⟨hlater, hbefore⟩ := h.before ending hending
    exact ⟨Nat.le_trans hle hlater, hbefore⟩

/-- Something may still be done at the very end. -/
theorem concat (h : t.Ordered start) (hending : t.ending = some ending)
    (hm : m.at' = ending.at') :
    Timeline.Ordered start { t with moments := t.moments ++ [m] } := by
  obtain ⟨hstart, hbefore⟩ := h.before ending hending
  refine ⟨List.pairwise_append.2 ⟨h.sorted, List.pairwise_singleton _ _, fun n hn => ?_⟩,
    List.forall_mem_append.2 ⟨h.after, ?_⟩, fun x hx => ?_⟩
  · exact List.forall_mem_singleton.2 (hm ▸ hbefore n hn)
  · exact List.forall_mem_singleton.2 (hm ▸ hstart)
  · obtain rfl : ending = x := Option.some.inj (hending.symm.trans hx)
    exact ⟨hstart, List.forall_mem_append.2
      ⟨hbefore, List.forall_mem_singleton.2 (Nat.le_of_eq hm)⟩⟩

end Timeline.Ordered

/-- When a wait has ended. -/
def Waited.ms : Waited → Nat
  | .passed now | .told now => now.ms
  | .brokenOff ms => ms

theorem Instant.ms_le_of_isBefore {i j : Instant} (h : i.isBefore j = true) : i.ms ≤ j.ms := by
  simp only [isBefore, Bool.or_eq_true, decide_eq_true_eq, Bool.and_eq_true, beq_iff_eq] at h
  omega

theorem Instant.ms_le_after (i : Instant) (ms : Nat) : i.ms ≤ (i.after ms).ms := by
  rw [after]
  split
  · exact Nat.le_refl _
  · exact Nat.le_add_right ..

/-- A wait ends no earlier than it began. -/
theorem Stop.le_of_wait {stop : Stop} {listens : Bool} {now : Instant} {ms : Option Nat}
    {waited : Waited} (h : stop.wait? listens now (ms.map now.after) = some waited) :
    now.ms ≤ waited.ms := by
  have hpassed (h : (ms.map now.after).map .passed = some waited) : now.ms ≤ waited.ms := by
    obtain ⟨later, hlater, rfl⟩ := Option.map_eq_some_iff.mp h
    obtain ⟨n, -, rfl⟩ := Option.map_eq_some_iff.mp hlater
    exact now.ms_le_after n
  have htold (listens : Bool) :
      now.ms ≤ (if listens then Waited.told now.next else .brokenOff now.ms).ms := by
    cases listens <;> exact Nat.le_refl now.ms
  cases stop with
  | never => exact hpassed h
  | beforehand =>
    obtain rfl := Option.some.inj h
    exact htold listens
  | midway at' first =>
    rw [wait?] at h
    split at h
    · obtain rfl := Option.some.inj h
      exact htold listens
    · next huntold =>
      have hlate : now.ms ≤ at'.ms := Instant.ms_le_of_isBefore (by simpa [told] using huntold)
      split at h
      · exact hpassed h
      · obtain rfl := Option.some.inj h
        split <;> exact hlate

/-- A program is played forwards in time. -/
theorem Program.ordered_play (stop : Stop) (p : Program) (since : Nat) (now : Instant) (r : Run) :
    (p.play stop since now r).Ordered now.ms := by
  induction p generalizing since now r with
  | done => exact .bare fun _ hending => Option.some.inj hending ▸ Nat.le_refl now.ms
  | fail failure => exact .bare fun _ hending => Option.some.inj hending ▸ Nat.le_refl now.ms
  | log line next ih => exact (ih since now.next _).cons rfl
  | change f next ih => exact (ih since now.next _).cons rfl
  | look next ih => exact ih r since now.next r
  | ask next ih => exact ih (stop.told now) since now.next r
  | wait ms listens next told ihNext ihTold =>
    rw [play]
    split
    · next hwaited => exact (ihNext _ _ _).mono (Stop.le_of_wait hwaited)
    · next hwaited => exact (ihTold _ _ _).mono (Stop.le_of_wait hwaited)
    · next hwaited => exact .bare fun _ hending => Option.some.inj hending ▸ Stop.le_of_wait hwaited
    · exact .bare nofun

namespace Runner

variable {registry registry' : Registry} {agent : Agent} {request : DispatchRequest}

theorem ordered_worked (operation : Operation) (agent : Agent) (request : DispatchRequest)
    (call : Nat) (stop : Stop) : (worked operation agent request call stop).Ordered 0 := by
  rw [worked]
  split
  · exact .bare fun _ _ => Nat.zero_le _
  · exact Program.ordered_play stop _ 0 .start _

theorem ordered_timeline (registry : Registry) (agent : Agent) (request : DispatchRequest)
    (call : Nat) (stop : Stop) : (timeline registry agent request call stop).1.Ordered 0 := by
  cases hrespond : respond registry agent request with
  | immediate line error =>
    simp only [timeline, hrespond]
    have hbare : Timeline.Ordered 0 ⟨[], some ⟨0, 0, .ok ()⟩⟩ := .bare fun _ _ => Nat.zero_le _
    exact hbare.cons (m := ⟨0, 0, .line line⟩) rfl
  | runs operation =>
    have hworked := ordered_worked operation agent request call stop
    simp only [timeline, hrespond]
    split
    · next hending => exact hworked.concat hending rfl
    · exact hworked

/-- What the operation of a task does on a call, if its type is known. -/
def behaviour (registry : Registry) (request : DispatchRequest) (call : Nat) : Option Program :=
  (registry.get? request.task.typeName).map (·.program request.action call)

/-- Where the operations do the same, a dispatch to the same agent comes to the same. -/
theorem timeline_congr {call call' : Nat}
    (h : behaviour registry request call = behaviour registry' request call') (agent : Agent)
    (stop : Stop) :
    timeline registry agent request call stop = timeline registry' agent request call' stop := by
  rw [behaviour, behaviour] at h
  cases hget : registry.get? request.task.typeName with
  | none =>
    rw [hget, Option.map_none, eq_comm, Option.map_eq_none_iff] at h
    simp only [timeline, respond, Registry.find, hget, h]
  | some operation =>
    rw [hget, Option.map_some, eq_comm, Option.map_eq_some_iff] at h
    obtain ⟨operation', hget', hprogram⟩ := h
    by_cases hown : agent = request.task.agent
    · simp only [timeline, worked, respond, Registry.find, hget, hget', if_pos hown, hprogram]
    · simp only [timeline, respond, Registry.find, hget, hget', if_neg hown]

/-- A dispatch that calls no behaviour of the operation does not depend on how often one was
called. -/
theorem timeline_of_not_calls (h : calls registry agent request = false) (call call' : Nat)
    (stop : Stop) :
    timeline registry agent request call stop = timeline registry agent request call' stop := by
  cases hrespond : respond registry agent request with
  | immediate line error => simp only [timeline, hrespond]
  | runs operation =>
    simp only [calls, hrespond] at h
    have hprogram : operation.program request.action call
        = operation.program request.action call' := by
      cases haction : request.action with
      | execute =>
        rw [haction] at h
        cases h
      | rollback =>
        rw [haction, Operation.behaves, Option.isSome_eq_false_iff, Option.isNone_iff_eq_none] at h
        simp only [Operation.program, h]
    simp only [timeline, worked, hrespond, hprogram]

end Runner

end Stagewise
