import Mathlib.Logic.Relation
import Stagewise.Dispatch.Session
/-!
# The work of an operation

Work moves on in small steps until it ends by itself, also after it has heard that it is told to
stop, or is broken off where it waits, or it hangs for good. What is performed in a session is what
these steps come to; what a sink makes of the lines that are logged meanwhile is of no account.
-/

namespace Stagewise

open Relation (ReflTransGen)

/-- Work in progress: what is left to do, the instant, and the run as it has been left. -/
structure Work where
  program : Program
  now : Instant
  run : Run

namespace Work

/-- One step of work. -/
inductive Moves (stop : Stop) : Work → Work → Prop
  | log {line : String} {next : Program} {now : Instant} {r : Run} :
    Moves stop ⟨.log line next, now, r⟩ ⟨next, now.next, { r with lines := r.lines ++ [line] }⟩
  | change {f : TaskContext → TaskContext} {next : Program} {now : Instant} {r : Run} :
    Moves stop ⟨.change f next, now, r⟩ ⟨next, now.next, { r with context := f r.context }⟩
  | look {next : Run → Program} {now : Instant} {r : Run} :
    Moves stop ⟨.look next, now, r⟩ ⟨next r, now.next, r⟩
  | ask {next : Bool → Program} {now : Instant} {r : Run} :
    Moves stop ⟨.ask next, now, r⟩ ⟨next (stop.told now), now.next, r⟩
  | passed {ms : Option Nat} {listens : Bool} {next told : Program} {now later : Instant} {r : Run}
    (waited : stop.wait? listens now (ms.map now.after) = some (.passed later)) :
    Moves stop ⟨.wait ms listens next told, now, r⟩ ⟨next, later, r⟩
  | told {ms : Option Nat} {listens : Bool} {next told : Program} {now later : Instant} {r : Run}
    (waited : stop.wait? listens now (ms.map now.after) = some (.told later)) :
    Moves stop ⟨.wait ms listens next told, now, r⟩ ⟨told, later, r⟩

/-- The work is over, with a result and at a moment: it has ended by itself, or it is broken off. -/
inductive Ends (stop : Stop) : Work → Except Failure Unit → Nat → Prop
  | done {now : Instant} {r : Run} : Ends stop ⟨.done, now, r⟩ (.ok ()) now.ms
  | fail {failure : Failure} {now : Instant} {r : Run} :
    Ends stop ⟨.fail failure, now, r⟩ (.error failure) now.ms
  | brokenOff {ms : Option Nat} {listens : Bool} {next told : Program} {now : Instant}
    {moment : Nat} {r : Run}
    (waited : stop.wait? listens now (ms.map now.after) = some (.brokenOff moment)) :
    Ends stop ⟨.wait ms listens next told, now, r⟩ (.error (.of "task cancelled")) moment

/-- The work waits for good, and nobody stops it. -/
inductive Hangs (stop : Stop) : Work → Prop
  | wait {ms : Option Nat} {listens : Bool} {next told : Program} {now : Instant} {r : Run}
    (waited : stop.wait? listens now (ms.map now.after) = none) :
    Hangs stop ⟨.wait ms listens next told, now, r⟩

/-- Where the work of an operation begins. -/
def first (operation : Operation) (agent : Agent) (request : DispatchRequest) (call : Nat) : Work :=
  ⟨operation.program request.action call, .start, Runner.start agent request⟩

end Work

variable {σ : Type} {stop : Stop} {stamp : Nat → Timestamp}

@[simp] theorem Session.view_log (s : Session σ) (entry : LogEntry) :
    (s.log entry).view = { s.view with lines := s.view.lines ++ [entry.message] } := by
  simp [view, log, Logger.log]

/-! ## Small steps -/

/-- What is performed after a step is performed before it, in a session of the same view. -/
theorem Work.Moves.perform {x y : Work} (h : x.Moves stop y) (stamp : Nat → Timestamp)
    {s : Session σ} (hs : s.view = x.run) :
    ∃ s' : Session σ, s'.view = y.run ∧
      x.program.perform stop stamp x.now s = y.program.perform stop stamp y.now s' := by
  cases h with
  | @log line next now r =>
    refine ⟨s.log ⟨stamp now.ms, line⟩, ?_, rfl⟩
    rw [Session.view_log, hs]
  | @change f next now r =>
    refine ⟨s.change f, ?_, rfl⟩
    subst hs
    rfl
  | look =>
    subst hs
    exact ⟨s, rfl, rfl⟩
  | ask => exact ⟨s, hs, rfl⟩
  | passed waited | told waited =>
    refine ⟨s, hs, ?_⟩
    simp only [Program.perform, waited]

theorem Work.perform_of_reaches {x y : Work} (h : ReflTransGen (Moves stop) x y)
    (stamp : Nat → Timestamp) {s : Session σ} (hs : s.view = x.run) :
    ∃ s' : Session σ, s'.view = y.run ∧
      x.program.perform stop stamp x.now s = y.program.perform stop stamp y.now s' := by
  -- Only the view of the session is fixed by the steps; its log and its sink are carried along.
  induction h with
  | refl => exact ⟨s, hs, rfl⟩
  | tail _ step ih =>
    obtain ⟨s', hs', hsame⟩ := ih
    obtain ⟨s'', hs'', hstep⟩ := step.perform stamp hs'
    exact ⟨s'', hs'', hsame.trans hstep⟩

theorem Work.Ends.perform {x : Work} {result : Except Failure Unit} {moment : Nat}
    (h : x.Ends stop result moment) (stamp : Nat → Timestamp) (s : Session σ) :
    x.program.perform stop stamp x.now s = some ⟨s, result, moment⟩ := by
  cases h with
  | done => rfl
  | fail => rfl
  | brokenOff waited =>
    simp only [Program.perform, waited]
    rfl

theorem Work.Hangs.perform {x : Work} (h : x.Hangs stop) (stamp : Nat → Timestamp) (s : Session σ) :
    x.program.perform stop stamp x.now s = none := by
  cases h with
  | wait waited => simp only [Program.perform, waited]

/-- All work comes to an end or hangs. -/
theorem Work.ends_or_hangs (stop : Stop) (x : Work) : ∃ y, ReflTransGen (Moves stop) x y ∧
    ((∃ result moment, y.Ends stop result moment) ∨ y.Hangs stop) := by
  obtain ⟨p, now, r⟩ := x
  induction p generalizing now r with
  | done => exact ⟨_, .refl, .inl ⟨_, _, .done⟩⟩
  | fail failure => exact ⟨_, .refl, .inl ⟨_, _, .fail⟩⟩
  | log line next ih =>
    obtain ⟨y, hreach, hy⟩ := ih now.next { r with lines := r.lines ++ [line] }
    exact ⟨y, .head .log hreach, hy⟩
  | change f next ih =>
    obtain ⟨y, hreach, hy⟩ := ih now.next { r with context := f r.context }
    exact ⟨y, .head .change hreach, hy⟩
  | look next ih =>
    obtain ⟨y, hreach, hy⟩ := ih r now.next r
    exact ⟨y, .head .look hreach, hy⟩
  | ask next ih =>
    obtain ⟨y, hreach, hy⟩ := ih (stop.told now) now.next r
    exact ⟨y, .head .ask hreach, hy⟩
  | wait ms listens next told ihNext ihTold =>
    cases hwaited : stop.wait? listens now (ms.map now.after) with
    | none => exact ⟨_, .refl, .inr (.wait hwaited)⟩
    | some waited =>
      cases waited with
      | passed later =>
        obtain ⟨y, hreach, hy⟩ := ihNext later r
        exact ⟨y, .head (.passed hwaited) hreach, hy⟩
      | told later =>
        obtain ⟨y, hreach, hy⟩ := ihTold later r
        exact ⟨y, .head (.told hwaited) hreach, hy⟩
      | brokenOff moment => exact ⟨_, .refl, .inl ⟨_, _, .brokenOff hwaited⟩⟩

/-! ## Sessions and sinks -/

/-- What becomes of a sink that is offered lines one after another. -/
def Sink.receive {σ : Type} (sink : Sink σ) (id : TaskId) (entries : List LogEntry) (state : σ) :
    σ :=
  entries.foldl (fun state entry => (sink.append id entry state).2) state

/-- What holds of a session and stays when a line is logged or the context is changed holds when the
work is over. -/
theorem Program.perform_invariant {I : Session σ → Prop}
    (log : ∀ s entry, I s → I (s.log entry)) (change : ∀ s f, I s → I (s.change f)) {p : Program}
    {now : Instant} {s : Session σ} {e : Performance σ} (h : I s)
    (ended : p.perform stop stamp now s = some e) : I e.session := by
  induction p generalizing now s with
  | done =>
    obtain rfl := Option.some.inj ended
    exact h
  | fail failure =>
    obtain rfl := Option.some.inj ended
    exact h
  | log line next ih => exact ih (log s _ h) ended
  | change f next ih => exact ih (change s f h) ended
  | look next ih => exact ih s.view h ended
  | ask next ih => exact ih (stop.told now) h ended
  | wait ms listens next told ihNext ihTold =>
    rw [perform] at ended
    split at ended
    · exact ihNext h ended
    · exact ihTold h ended
    · obtain rfl := Option.some.inj ended
      exact h
    · cases ended

/-- The session is about the task and of the agent, and its sink has received the lines that are
kept. -/
structure Session.Belongs (agent : Agent) (id : TaskId) (sink : Option (Sink σ)) (state : σ)
    (s : Session σ) : Prop where
  here : s.localAgent = agent
  task : s.taskId = id
  logged : s.logger.taskId = id
  heard : s.logger.sink = sink
  received : s.logger.state = (sink.map (·.receive id s.logger.entries state)).getD state

namespace Session

variable {agent : Agent} {id : TaskId} {sink : Option (Sink σ)} {state : σ} {s : Session σ}

theorem Belongs.log (h : s.Belongs agent id sink state) (entry : LogEntry) :
    (s.log entry).Belongs agent id sink state := by
  refine ⟨h.here, h.task, h.logged, h.heard, ?_⟩
  have hreceived := h.received
  cases sink with
  | none => simpa [Session.log, Logger.log, h.heard] using hreceived
  | some k =>
    have hstate : (s.log entry).logger.state = (k.append id entry s.logger.state).2 := by
      simp only [Session.log, Logger.log, h.heard, h.logged]
    have hentries : (s.log entry).logger.entries = s.logger.entries ++ [entry] := rfl
    rw [hstate, hentries, hreceived]
    simp [Sink.receive]

/-- The session without a sink. -/
def unheard (s : Session σ) : Session Unit :=
  { s with logger := ⟨s.logger.taskId, s.logger.entries, none, ()⟩ }

end Session

def Performance.unheard (p : Performance σ) : Performance Unit :=
  ⟨p.session.unheard, p.result, p.at'⟩

/-- The work goes the same way without a sink. -/
theorem Program.perform_unheard (p : Program) (now : Instant) (s : Session σ) :
    p.perform stop stamp now s.unheard = (p.perform stop stamp now s).map (·.unheard) := by
  induction p generalizing now s with
  | done => rfl
  | fail failure => rfl
  | log line next ih => exact ih now.next (s.log ⟨stamp now.ms, line⟩)
  | change f next ih => exact ih now.next (s.change f)
  | look next ih => exact ih s.view now.next s
  | ask next ih => exact ih (stop.told now) now.next s
  | wait ms listens next told ihNext ihTold =>
    simp only [perform]
    cases stop.wait? listens now (ms.map now.after) with
    | none => rfl
    | some waited =>
      cases waited with
      | passed later => exact ihNext later s
      | told later => exact ihTold later s
      | brokenOff moment => rfl

end Stagewise
