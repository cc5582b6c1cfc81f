import Mathlib.Tactic.ByContra
import Stagewise.Dispatch.Runner
/-!
# What agents make of dispatches

An agent answers a task that is sent to it with the outcome of a run under its own identity. Two
quite different runs report success: one in which the operation ended well, and one in which the
agent found that the work is another agent's. Which of them it was depends on the identity alone.
-/

namespace Stagewise

theorem Action.success_ne_failed (action : Action) : action.success ≠ .failed := by
  cases action <;> decide

namespace Runner

variable {registry : Registry} {agent : Agent} {request : DispatchRequest} {operation : Operation}
  {call took : Nat} {stop : Stop} {stamp : Nat → Timestamp} {outcome : Outcome}

theorem run_of_ending {ending : Ending}
    (h : (timeline registry agent request call stop).1.ending = some ending)
    (stamp : Nat → Timestamp) :
    run registry agent request call stop stamp
      = some (Runner.outcome agent request (timeline registry agent request call stop).1
          (timeline registry agent request call stop).2 stamp, ending.at') := by
  simp only [run, h, Option.map_some]

/-- The operation of the task was run by the agent, and ended well. -/
def EndedWell (registry : Registry) (agent : Agent) (request : DispatchRequest) (call : Nat)
    (stop : Stop) : Prop :=
  ∃ operation ending, respond registry agent request = .runs operation ∧
    stop.forestalls = false ∧
    ((operation.program request.action call).play stop 0 .start (start agent request)).ending
      = some ending ∧ ending.result = .ok ()

/-- A run that reports no error is one whose operation was begun and ended well. -/
theorem ending_of_timeline (runs : respond registry agent request = .runs operation) {t : Timeline}
    (h : timeline registry agent request call stop = (t, none)) {ending : Ending}
    (ended : t.ending = some ending) :
    stop.forestalls = false ∧
      ((operation.program request.action call).play stop 0 .start (start agent request)).ending
        = some ending ∧ ending.result = .ok () := by
  simp only [timeline, runs] at h
  split at h
  · cases h
  · next hsound =>
    obtain ⟨rfl, -⟩ := Prod.mk.inj h
    have hresult : ending.result = .ok () := by
      obtain ⟨since, ms, failure | u⟩ := ending
      · exact absurd ended (hsound since ms failure)
      · rfl
    rw [worked] at ended
    split at ended
    · obtain rfl := Option.some.inj ended
      cases hresult
    · next hbegun => exact ⟨Bool.eq_false_iff.mpr hbegun, ended, hresult⟩

/-- Where the work is the agent's own, an outcome that is no failure comes of an operation that
ended well. -/
theorem endedWell_of_run (h : run registry agent request call stop stamp = some (outcome, took))
    (sound : outcome.status ≠ .failed) (own : agent = request.task.agent) :
    EndedWell registry agent request call stop := by
  rw [run] at h
  rcases htimeline : timeline registry agent request call stop with ⟨t, error⟩
  rw [htimeline] at h
  obtain ⟨ending, hending, hmade⟩ := Option.map_eq_some_iff.mp h
  obtain ⟨rfl, -⟩ := Prod.mk.inj hmade
  have herror : error = none := by
    cases error with
    | none => rfl
    | some message => exact absurd rfl sound
  subst herror
  cases hfind : registry.find request.task.typeName with
  | error e =>
    have hrefused : respond registry agent request = .immediate e.message (some e.message) := by
      rw [respond, hfind]
    simp only [timeline, hrefused] at htimeline
    cases htimeline
  | ok operation =>
    have hruns : respond registry agent request = .runs operation := by
      rw [respond, hfind]
      exact if_pos own
    exact ⟨operation, ending, hruns, ending_of_timeline hruns htimeline hending⟩

end Runner

/-! ## Peers -/

/-- An agent as others find it at an address: the identity that it takes, and the types of operation
that it knows. -/
structure Peer where
  identity : Agent
  registry : Registry

namespace Peer

variable {peer : Peer} {request : DispatchRequest} {outcome : Outcome}

/-- The outcome is that of a run of the peer. -/
def Answers (peer : Peer) (request : DispatchRequest) (outcome : Outcome) : Prop :=
  ∃ call stop stamp took,
    Runner.run peer.registry peer.identity request call stop stamp = some (outcome, took)

/-- The outcome is that of a run in which the peer performed the operation, and it ended well. -/
def Executed (peer : Peer) (request : DispatchRequest) (outcome : Outcome) : Prop :=
  ∃ call stop stamp took,
    Runner.run peer.registry peer.identity request call stop stamp = some (outcome, took) ∧
      Runner.EndedWell peer.registry peer.identity request call stop

/-- A peer performs the operations of its own tasks only. -/
theorem Executed.own (h : peer.Executed request outcome) :
    peer.identity = request.task.agent := by
  obtain ⟨call, stop, stamp, took, -, operation, ending, hruns, -⟩ := h
  by_contra hother
  rw [Runner.respond] at hruns
  split at hruns
  · cases hruns
  · rw [if_neg hother] at hruns
    cases hruns

/-- A peer that reports no failure has executed the task just when the work is its own. -/
theorem Answers.executed_iff (h : peer.Answers request outcome)
    (sound : outcome.status ≠ .failed) :
    peer.Executed request outcome ↔ peer.identity = request.task.agent := by
  refine ⟨Executed.own, fun hown => ?_⟩
  obtain ⟨call, stop, stamp, took, hrun⟩ := h
  exact ⟨call, stop, stamp, took, hrun, Runner.endedWell_of_run hrun sound hown⟩

end Peer

end Stagewise
