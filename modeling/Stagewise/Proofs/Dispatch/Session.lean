import Stagewise.Operation.Builtin
import Stagewise.Proofs.Dispatch.Timeline
import Stagewise.Proofs.Dispatch.Work
/-!
# What comes of a session

However the work of an operation comes to its end, the outcome tells how, and what the work has left
behind by then. Where the work is not begun, what it would do is of no account.
-/

namespace Stagewise

open Relation (ReflTransGen)

/-- What an outcome tells of a run that has come to a result. -/
structure Outcome.Tells (o : Outcome) (r : Run) (result : Except Failure Unit) : Prop where
  context : o.context = r.context
  well : result = .ok () → o.error = none ∧ o.logs.map (·.message) = r.lines
  badly : ∀ failure, result = .error failure →
    o.error = some ("task execution failed: " ++ String.intercalate ": " failure.chain) ∧
      o.logs.map (·.message) = r.lines ++ [String.intercalate ": " failure.chain]

variable {σ : Type} {stop : Stop} {stamp : Nat → Timestamp}

/-- What holds of every answer to a dispatch. -/
structure Attempt.Answers (a : Attempt σ) (agent : Agent) (request : DispatchRequest)
    (sink : Option (Sink σ)) (state : σ) : Prop where
  task : a.outcome.taskId = request.task.id
  here : a.outcome.agent = agent
  status : a.outcome.status = request.action.success ∨ a.outcome.status = .failed
  failed_iff : a.outcome.status = .failed ↔ a.outcome.error.isSome
  received : ∀ k, sink = some k → a.state = k.receive request.task.id a.outcome.logs state

/-- The operation was not invoked, and the context is the one that was sent. -/
structure Attempt.Untouched (a : Attempt σ) (request : DispatchRequest) : Prop where
  invoked : a.invoked = false
  context : a.outcome.context = request.task.context

/-! ## Sessions and timelines -/

/-- The session after something was done in it. -/
def Session.after (stamp : Nat → Timestamp) (s : Session σ) (m : Moment) : Session σ :=
  match m.deed with
  | .line text => s.log ⟨stamp m.at', text⟩
  | .context after => s.change fun _ => after

/-- The session at the end of a timeline, if it has one. -/
def Timeline.lived (t : Timeline) (stamp : Nat → Timestamp) (s : Session σ) :
    Option (Performance σ) :=
  t.ending.map fun e => ⟨t.moments.foldl (·.after stamp) s, e.result, e.at'⟩

/-- What is performed in a session is the timeline of the program, lived through there. -/
theorem Program.perform_eq_lived (stop : Stop) (p : Program) (since : Nat) (now : Instant)
    (s : Session σ) :
    p.perform stop stamp now s = (p.play stop since now s.view).lived stamp s := by
  induction p generalizing since now s with
  | done => rfl
  | fail failure => rfl
  | log line next ih =>
    rw [play, ← s.view_log ⟨stamp now.ms, line⟩]
    exact ih since now.next _
  | change f next ih => exact ih since now.next (s.change f)
  | look next ih => exact ih s.view since now.next s
  | ask next ih => exact ih (stop.told now) since now.next s
  | wait ms listens next told ihNext ihTold =>
    rw [play, perform]
    cases stop.wait? listens now (ms.map now.after) with
    | none => rfl
    | some waited =>
      cases waited with
      | passed later => exact ihNext now.ms later s
      | told later => exact ihTold now.ms later s
      | brokenOff moment => rfl

/-- What a session has become after the moments of a timeline, in the words of the timeline. -/
theorem Session.foldl_after (stamp : Nat → Timestamp) (t : Timeline) (s : Session σ) :
    (t.moments.foldl (·.after stamp) s).taskId = s.taskId ∧
      (t.moments.foldl (·.after stamp) s).localAgent = s.localAgent ∧
      (t.moments.foldl (·.after stamp) s).context = t.contextAfter s.context ∧
      (t.moments.foldl (·.after stamp) s).logger.entries
        = s.logger.entries ++ t.lines.map fun (ms, line) => ⟨stamp ms, line⟩ := by
  obtain ⟨moments, ending⟩ := t
  induction moments generalizing s with
  | nil => exact ⟨rfl, rfl, rfl, (List.append_nil _).symm⟩
  | cons m rest ih =>
    obtain ⟨htask, hagent, hcontext, hentries⟩ := ih (s.after stamp m)
    rw [List.foldl_cons, htask, hagent, hcontext, hentries]
    cases hdeed : m.deed with
    | line text =>
      simp [after, Timeline.contextAfter, Timeline.lines, hdeed, Session.log, Logger.log]
    | context =>
      simp [after, Timeline.contextAfter, Timeline.lines, hdeed, change]

theorem Session.outcome_foldl_after (stamp : Nat → Timestamp) (agent : Agent)
    (request : DispatchRequest) (sink : Option (Sink σ)) (state : σ) (t : Timeline)
    (error : Option String) :
    (t.moments.foldl (·.after stamp) (start agent request sink state)).outcome request.action error
      = Runner.outcome agent request t error stamp := by
  obtain ⟨htask, hagent, hcontext, hentries⟩ :=
    foldl_after stamp t (start agent request sink state)
  simp only [outcome, Runner.outcome, htask, hagent, hcontext, hentries]
  rfl

namespace Runner

variable {registry : Registry} {agent : Agent} {request : DispatchRequest} {operation : Operation}
  {call : Nat} {sink : Option (Sink σ)} {state : σ} {a : Attempt σ}

theorem work_eq_lived (operation : Operation) (agent : Agent) (request : DispatchRequest)
    (call : Nat) (stop : Stop) (stamp : Nat → Timestamp) (sink : Option (Sink σ)) (state : σ) :
    work operation request.action call stop stamp (Session.start agent request sink state)
      = (worked operation agent request call stop).lived stamp
          (Session.start agent request sink state) := by
  rw [work, worked]
  split
  · rfl
  · exact Program.perform_eq_lived stop _ 0 .start _

/-- An attempt comes to the same as a run, whatever becomes of its lines meanwhile. -/
theorem attempt_eq_run (registry : Registry) (agent : Agent) (request : DispatchRequest)
    (call : Nat) (stop : Stop) (stamp : Nat → Timestamp) (sink : Option (Sink σ)) (state : σ) :
    (attempt registry agent request call stop stamp sink state).map
        (fun a => (a.outcome, a.took))
      = run registry agent request call stop stamp := by
  cases hrespond : respond registry agent request with
  | immediate line error =>
    simp only [attempt, run, timeline, hrespond]
    rfl
  | runs operation =>
    have houtcome := Session.outcome_foldl_after stamp agent request sink state
    simp only [attempt, run, timeline, hrespond, work_eq_lived]
    rcases hworked : worked operation agent request call stop with
      ⟨moments, _ | ⟨since, at', failure | _⟩⟩
    · rfl
    · simp only [Timeline.lived, Option.map_some, Performance.conclude, ← houtcome,
        List.foldl_append]
      rfl
    · simp only [Timeline.lived, Option.map_some, Performance.conclude, ← houtcome]

/-- What the operation does is of no account to the answer, as long as its type is known. -/
def Ignores (registry : Registry) (agent : Agent) (request : DispatchRequest) (call : Nat)
    (stop : Stop) (stamp : Nat → Timestamp) (sink : Option (Sink σ)) (state : σ) : Prop :=
  ∀ registry' call', (registry'.get? request.task.typeName).isSome →
    attempt registry' agent request call' stop stamp sink state
      = attempt registry agent request call stop stamp sink state

/-- What holds of the session of a dispatch from its start on holds when it is answered. -/
theorem attempt_invariant {I : Session σ → Prop} (log : ∀ s entry, I s → I (s.log entry))
    (change : ∀ s f, I s → I (s.change f))
    (hstart : I (Session.start agent request sink state))
    (h : attempt registry agent request call stop stamp sink state = some a) :
    ∃ s error, I s ∧ a.outcome = s.outcome request.action error ∧ a.state = s.logger.state := by
  cases hrespond : respond registry agent request with
  | immediate line error =>
    simp only [attempt, hrespond] at h
    obtain rfl := Option.some.inj h
    exact ⟨_, error, log _ _ hstart, rfl, rfl⟩
  | runs operation =>
    simp only [attempt, hrespond] at h
    obtain ⟨p, hwork, rfl⟩ := Option.map_eq_some_iff.mp h
    have hp : I p.session := by
      rw [work] at hwork
      split at hwork
      · obtain rfl := Option.some.inj hwork
        exact hstart
      · exact Program.perform_invariant log change hstart hwork
    have hconclude : I (p.conclude stamp).1 := by
      rw [Performance.conclude]
      split
      · exact hp
      · exact log _ _ hp
    exact ⟨_, _, hconclude, rfl, rfl⟩

theorem answers_of_attempt
    (h : attempt registry agent request call stop stamp sink state = some a) :
    a.Answers agent request sink state := by
  have hstart : (Session.start agent request sink state).Belongs agent request.task.id sink state :=
    ⟨rfl, rfl, rfl, rfl, by cases sink <;> rfl⟩
  obtain ⟨s, error, hs, houtcome, hstate⟩ := attempt_invariant (fun _ entry hs => hs.log entry)
    (fun _ _ hs => ⟨hs.here, hs.task, hs.logged, hs.heard, hs.received⟩) hstart h
  constructor
  case task => rw [houtcome]; exact hs.task
  case here => rw [houtcome]; exact hs.here
  case status =>
    rw [houtcome, Session.outcome]
    cases error <;> simp
  case failed_iff =>
    rw [houtcome, Session.outcome]
    cases error <;> simp [request.action.success_ne_failed]
  case received =>
    rintro k rfl
    rw [hstate, houtcome, hs.received]
    rfl

/-- The outcome is the same without a sink. -/
theorem attempt_unheard (registry : Registry) (agent : Agent) (request : DispatchRequest)
    (call : Nat) (stop : Stop) (stamp : Nat → Timestamp) (sink : Option (Sink σ)) (state : σ) :
    (attempt registry agent request call stop stamp sink state).map (·.outcome)
      = (attempt registry agent request call stop stamp none ()).map (·.outcome) := by
  cases hrespond : respond registry agent request with
  | immediate line error =>
    simp only [attempt, hrespond]
    rfl
  | runs operation =>
    have hwork : work operation request.action call stop stamp (Session.start agent request none ())
        = (work operation request.action call stop stamp
            (Session.start agent request sink state)).map (·.unheard) := by
      rw [work, work]
      split
      · rfl
      · exact Program.perform_unheard _ .start (Session.start agent request sink state)
    have hconclude (p : Performance σ) :
        (p.unheard.conclude stamp).1.outcome request.action (p.unheard.conclude stamp).2
          = (p.conclude stamp).1.outcome request.action (p.conclude stamp).2 := by
      obtain ⟨s, failure | _, moment⟩ := p <;> rfl
    simp only [attempt, hrespond, hwork, Option.map_map]
    refine congrArg (Option.map · _) (funext fun p => (hconclude p).symm)

theorem tells_conclude (p : Performance σ) (action : Action) (stamp : Nat → Timestamp) :
    ((p.conclude stamp).1.outcome action (p.conclude stamp).2).Tells p.session.view p.result := by
  obtain ⟨s, failure | _, moment⟩ := p
  · refine ⟨rfl, fun hwell => ?_, fun failure' hbadly => ?_⟩
    · cases hwell
    · obtain rfl := Except.error.inj hbadly
      refine ⟨rfl, ?_⟩
      simp [Performance.conclude, Session.outcome, Session.log, Logger.log, Session.view,
        Failure.inline]
  · refine ⟨rfl, fun _ => ⟨rfl, rfl⟩, fun failure hbadly => ?_⟩
    cases hbadly

/-- A dispatch that is answered at once has its only line logged and nothing else done. -/
theorem attempt_immediate {line : String} {error : Option String}
    (h : respond registry agent request = .immediate line error) (call : Nat) (stop : Stop)
    (stamp : Nat → Timestamp) (sink : Option (Sink σ)) (state : σ) :
    ∃ a, attempt registry agent request call stop stamp sink state = some a ∧
      a.Untouched request ∧ a.outcome.logs = [⟨stamp 0, line⟩] ∧ a.outcome.error = error := by
  simp only [attempt, h]
  exact ⟨_, rfl, ⟨rfl, rfl⟩, rfl, rfl⟩

theorem attempt_forestalled (runs : respond registry agent request = .runs operation)
    (early : stop.forestalls = true) (call : Nat) (stamp : Nat → Timestamp)
    (sink : Option (Sink σ)) (state : σ) :
    ∃ a, attempt registry agent request call stop stamp sink state = some a ∧
      a.Untouched request ∧
        a.outcome.Tells (start agent request) (.error (.of "task cancelled")) := by
  have hwork :
      work operation request.action call stop stamp (Session.start agent request sink state)
        = some ⟨Session.start agent request sink state, .error (.of "task cancelled"), 0⟩ := by
    rw [work, if_pos early]
    rfl
  have htells := tells_conclude ⟨Session.start agent request sink state,
    .error (.of "task cancelled"), 0⟩ request.action stamp
  simp only [attempt, runs, hwork, Option.map_some, early, Bool.not_true]
  exact ⟨_, rfl, ⟨rfl, rfl⟩, htells⟩

section Begun

variable (runs : respond registry agent request = .runs operation)
  (begun : stop.forestalls = false) {x : Work}
  (reaches : ReflTransGen (Work.Moves stop) (.first operation agent request call) x)
include runs begun reaches

/-- What the work comes to is told, with what it has left behind. -/
theorem attempt_of_ends {result : Except Failure Unit} {moment : Nat}
    (ends : x.Ends stop result moment) (stamp : Nat → Timestamp) (sink : Option (Sink σ))
    (state : σ) :
    ∃ a, attempt registry agent request call stop stamp sink state = some a ∧
      a.invoked = true ∧ a.took = moment ∧ a.outcome.Tells x.run result := by
  obtain ⟨s, hview, hperform⟩ := Work.perform_of_reaches reaches stamp
    (s := Session.start agent request sink state) rfl
  have hwork :
      work operation request.action call stop stamp (Session.start agent request sink state)
        = some ⟨s, result, moment⟩ := by
    rw [work, begun, if_neg Bool.false_ne_true]
    exact hperform.trans (ends.perform stamp s)
  have htells := tells_conclude ⟨s, result, moment⟩ request.action stamp
  simp only [attempt, runs, hwork, Option.map_some, begun, Bool.not_false]
  exact ⟨_, rfl, rfl, rfl, hview ▸ htells⟩

theorem attempt_of_hangs (hangs : x.Hangs stop) (stamp : Nat → Timestamp)
    (sink : Option (Sink σ)) (state : σ) :
    attempt registry agent request call stop stamp sink state = none := by
  obtain ⟨s, -, hperform⟩ := Work.perform_of_reaches reaches stamp
    (s := Session.start agent request sink state) rfl
  have hwork :
      work operation request.action call stop stamp (Session.start agent request sink state)
        = none := by
    rw [work, begun, if_neg Bool.false_ne_true]
    exact hperform.trans (hangs.perform stamp s)
  simp only [attempt, runs, hwork, Option.map_none]

end Begun

theorem attempt_eq_none_iff (runs : respond registry agent request = .runs operation)
    (begun : stop.forestalls = false) (call : Nat) (stamp : Nat → Timestamp)
    (sink : Option (Sink σ)) (state : σ) :
    attempt registry agent request call stop stamp sink state = none ↔
      ∃ x, ReflTransGen (Work.Moves stop) (.first operation agent request call) x ∧
        x.Hangs stop := by
  refine ⟨fun hnone => ?_, fun ⟨x, hreach, hangs⟩ =>
    attempt_of_hangs runs begun hreach hangs stamp sink state⟩
  obtain ⟨x, hreach, ⟨result, moment, hends⟩ | hangs⟩ :=
    Work.ends_or_hangs stop (.first operation agent request call)
  · obtain ⟨a, ha, -⟩ := attempt_of_ends runs begun hreach hends stamp sink state
    rw [hnone] at ha
    cases ha
  · exact ⟨x, hreach, hangs⟩

/-- A dispatch that is answered without the operation is answered alike whatever the operation
does. -/
theorem ignores_of_untouched (known : (registry.get? request.task.typeName).isSome)
    (spared : agent = request.task.agent → stop.forestalls = true) (call : Nat)
    (stamp : Nat → Timestamp) (sink : Option (Sink σ)) (state : σ) :
    Ignores registry agent request call stop stamp sink state := by
  intro registry' call' known'
  obtain ⟨operation, hget⟩ := Option.isSome_iff_exists.mp known
  obtain ⟨operation', hget'⟩ := Option.isSome_iff_exists.mp known'
  by_cases hown : agent = request.task.agent
  · have hwork (o : Operation) (n : Nat) (s : Session σ) :
        work o request.action n stop stamp s = some ⟨s, .error .cancelled, 0⟩ := by
      rw [work, if_pos (spared hown)]
    simp only [attempt, respond, Registry.find, hget, hget', if_pos hown, hwork]
  · simp only [attempt, respond, Registry.find, hget, hget', if_neg hown]

theorem respond_own (known : registry.get? request.task.typeName = some operation)
    (own : agent = request.task.agent) : respond registry agent request = .runs operation := by
  simp only [respond, Registry.find, known, if_pos own]

theorem attempt_unknown (unknown : registry.get? request.task.typeName = none) (call : Nat)
    (stop : Stop) (stamp : Nat → Timestamp) (sink : Option (Sink σ)) (state : σ) :
    ∃ a, attempt registry agent request call stop stamp sink state = some a ∧
      a.Untouched request ∧
        ∃ entry, a.outcome.logs = [entry] ∧ a.outcome.error = some entry.message := by
  have hrespond : respond registry agent request
      = .immediate (EngineError.unknownType request.task.typeName).message
        (some (EngineError.unknownType request.task.typeName).message) := by
    simp only [respond, Registry.find, unknown]
  obtain ⟨a, ha, untouched, hlogs, herror⟩ := attempt_immediate hrespond call stop stamp sink state
  exact ⟨a, ha, untouched, _, hlogs, herror⟩

theorem attempt_elsewhere (known : registry.get? request.task.typeName = some operation)
    (other : agent ≠ request.task.agent) (call : Nat) (stop : Stop) (stamp : Nat → Timestamp)
    (sink : Option (Sink σ)) (state : σ) :
    Ignores registry agent request call stop stamp sink state ∧
      ∃ a, attempt registry agent request call stop stamp sink state = some a ∧
        a.Untouched request ∧ a.outcome.status = request.action.success ∧
          ∃ entry, a.outcome.logs = [entry] := by
  have hknown : (registry.get? request.task.typeName).isSome := by rw [known]; rfl
  obtain ⟨line, hrespond⟩ : ∃ line, respond registry agent request = .immediate line none := by
    simp only [respond, Registry.find, known, if_neg other]
    exact ⟨_, rfl⟩
  obtain ⟨a, ha, untouched, hlogs, herror⟩ := attempt_immediate hrespond call stop stamp sink state
  refine ⟨ignores_of_untouched hknown (fun own => absurd own other) call stamp sink state,
    a, ha, untouched, ?_, _, hlogs⟩
  -- Without an error the task has not failed.
  have hanswers := answers_of_attempt ha
  refine hanswers.status.resolve_right fun hfailed => ?_
  have hsome := hanswers.failed_iff.mp hfailed
  rw [herror] at hsome
  cases hsome

/-- How a dispatch is answered. Every answer is about its task and from the agent, with an error
just when the task has failed, and is the same with any sink, which receives its lines one after
another. A type that is not known is the error and the only line. Another agent than the one that
does the work has a single line to say, and is done. Told to stop before the work begins, the agent
has not begun it. The work that is begun goes on until it ends by itself, be it because it has
heard that it is told to stop, or is broken off; then the outcome tells how it has ended, with the
lines and the context as the work has left them, and there is no answer just when the work hangs and
nobody stops it. -/
theorem answers_of_dispatch (registry : Registry) (agent : Agent) (request : DispatchRequest)
    (call : Nat) (stop : Stop) (stamp : Nat → Timestamp) (sink : Option (Sink σ)) (state : σ) :
    let answer := attempt registry agent request call stop stamp sink state
    (∀ a, answer = some a → a.Answers agent request sink state) ∧
      answer.map (·.outcome)
        = (attempt registry agent request call stop stamp none ()).map (·.outcome) ∧
      (registry.get? request.task.typeName = none →
        ∃ a, answer = some a ∧ a.Untouched request ∧
          ∃ entry, a.outcome.logs = [entry] ∧ a.outcome.error = some entry.message) ∧
      ∀ operation, registry.get? request.task.typeName = some operation →
        (agent ≠ request.task.agent →
          Ignores registry agent request call stop stamp sink state ∧
            ∃ a, answer = some a ∧ a.Untouched request ∧
              a.outcome.status = request.action.success ∧ ∃ entry, a.outcome.logs = [entry]) ∧
        (agent = request.task.agent → stop.forestalls →
          Ignores registry agent request call stop stamp sink state ∧
            ∃ a, answer = some a ∧ a.Untouched request ∧
              a.outcome.Tells (start agent request) (.error (.of "task cancelled"))) ∧
        (agent = request.task.agent → ¬ stop.forestalls →
          (∀ x result moment,
            ReflTransGen (Work.Moves stop) (.first operation agent request call) x →
            x.Ends stop result moment →
              ∃ a, answer = some a ∧ a.invoked ∧ a.took = moment ∧
                a.outcome.Tells x.run result) ∧
          (answer = none ↔
            ∃ x, ReflTransGen (Work.Moves stop) (.first operation agent request call) x ∧
              x.Hangs stop)) := by
  intro answer
  refine ⟨fun a => answers_of_attempt, attempt_unheard ..,
    fun unknown => attempt_unknown unknown .., fun operation hget =>
      ⟨fun other => ?_, fun own early => ?_, fun own begun => ?_⟩⟩
  · exact attempt_elsewhere hget other ..
  · have known : (registry.get? request.task.typeName).isSome := by rw [hget]; rfl
    exact ⟨ignores_of_untouched known (fun _ => early) call stamp sink state,
      attempt_forestalled (respond_own hget own) early ..⟩
  · have runs := respond_own hget own
    have begun := Bool.eq_false_iff.mpr begun
    exact ⟨fun x result moment reaches ends => attempt_of_ends runs begun reaches ends ..,
      attempt_eq_none_iff runs begun ..⟩

end Runner

/-- A sink that keeps every line. -/
def Sink.keeping : Sink (List LogEntry) := ⟨fun _ entry kept => (.ok (), kept ++ [entry])⟩

theorem Sink.receive_keeping (id : TaskId) (entries kept : List LogEntry) :
    keeping.receive id entries kept = kept ++ entries := by
  induction entries generalizing kept with
  | nil => exact (List.append_nil kept).symm
  | cons entry rest ih => exact (ih (kept ++ [entry])).trans (List.append_assoc ..)

namespace Sample

/-- An operation that has done half of its work when it waits. -/
def halting : Operation :=
  ⟨"halting", .all, fun _ => .log "begun" (.setResult "half" (.bool true)
    (.pause 10 (.setResult "whole" (.bool true) .done))), none⟩

def haltingRegistry : Registry := .ofSorted [halting, Builtin.wait] (by decide)

def haltingAgent : Agent := ⟨"halting", 7000⟩

/-- A task that is to wait for an hour. -/
def waitingRequest : DispatchRequest :=
  ⟨⟨⟨0⟩⟩, ⟨⟨⟨1⟩⟩, "a", "wait", (TaskContext.new haltingAgent).withParam "seconds" (.int 3600), .all,
    .running, .empty, none, none⟩, .execute⟩

def haltingRequest : DispatchRequest :=
  ⟨⟨⟨0⟩⟩, ⟨⟨⟨1⟩⟩, "a", "halting", .new haltingAgent, .all, .running, .empty, none, none⟩, .execute⟩

end Sample

namespace Runner

open Sample

/-- Where the operation could go on at the very moment of the stop, what comes first decides. -/
theorem answers_of_dispatch_halting :
    (∃ a, attempt haltingRegistry haltingAgent haltingRequest 0
          (.midway ⟨10, some 0⟩ true) (fun ms => ⟨ms, 0⟩) (some .keeping) [] = some a ∧
        a.outcome.error = some "task execution failed: task cancelled" ∧
          a.outcome.context.results.rows = [("half", .bool true)] ∧ a.state = a.outcome.logs) ∧
      ∃ a, attempt haltingRegistry haltingAgent haltingRequest 0
          (.midway ⟨10, some 0⟩ false) (fun ms => ⟨ms, 0⟩) (some .keeping) [] = some a ∧
        a.outcome.error = none ∧
          a.outcome.context.results.rows = [("half", .bool true), ("whole", .bool true)] := by
  let r : Run := { start haltingAgent haltingRequest with
    lines := ["begun"], context := (TaskContext.new haltingAgent).setResult "half" (.bool true) }
  have hreach (stop : Stop) : ReflTransGen (Work.Moves stop)
      (.first halting haltingAgent haltingRequest 0)
      ⟨.pause 10 (.setResult "whole" (.bool true) .done), ⟨0, some 2⟩, r⟩ :=
    .head .log (.head .change .refl)
  have hanswers (stop : Stop) := answers_of_dispatch haltingRegistry haltingAgent haltingRequest 0
    stop (fun ms => ⟨ms, 0⟩) (some .keeping) []
  constructor
  · obtain ⟨hlawful, -, -, hknown⟩ := hanswers (.midway ⟨10, some 0⟩ true)
    obtain ⟨-, -, hbegun⟩ := hknown halting rfl
    obtain ⟨a, ha, -, -, htells⟩ := (hbegun rfl (by decide)).1 _ _ _ (hreach _) (.brokenOff rfl)
    refine ⟨a, ha, (htells.badly _ rfl).1.trans (by decide), ?_, ?_⟩
    · rw [htells.context]
      rfl
    · rw [(hlawful a ha).received _ rfl, Sink.receive_keeping, List.nil_append]
  · obtain ⟨-, -, -, hknown⟩ := hanswers (.midway ⟨10, some 0⟩ false)
    obtain ⟨-, -, hbegun⟩ := hknown halting rfl
    obtain ⟨a, ha, -, -, htells⟩ := (hbegun rfl (by decide)).1 _ _ _
      (((hreach _).tail (.passed rfl)).tail .change) .done
    refine ⟨a, ha, (htells.well rfl).1, ?_⟩
    rw [htells.context]
    rfl

/-- Work that listens while it waits may hear of the stop before it is broken off, and fails in its
own words then. Whether it does is a matter of what comes first. -/
theorem interrupted_wait :
    (∃ a, attempt haltingRegistry haltingAgent waitingRequest 0
          (.midway ⟨10, none⟩ false) (fun ms => ⟨ms, 0⟩) (some .keeping) [] = some a ∧
        a.took = 10 ∧ a.outcome.logs.map (·.message) = ["waiting 3600s", "wait interrupted"] ∧
          a.outcome.error = some "task execution failed: wait interrupted") ∧
      ∃ a, attempt haltingRegistry haltingAgent waitingRequest 0
          (.midway ⟨10, none⟩ true) (fun ms => ⟨ms, 0⟩) (some .keeping) [] = some a ∧
        a.took = 10 ∧ a.outcome.logs.map (·.message) = ["waiting 3600s", "task cancelled"] ∧
          a.outcome.error = some "task execution failed: task cancelled" :=
  ⟨⟨_, rfl, rfl, rfl, rfl⟩, _, rfl, rfl, rfl, rfl⟩

end Runner

end Stagewise
