import Stagewise.Proofs.Dispatch.Timeline
import Stagewise.Proofs.Engine.Awaiting
/-!
# Dispatches within the process

What an engine makes of a task that it is to run itself: the run that its registry and its counts of
calls determine, line by line as time goes on.
-/

namespace Stagewise.Engine

variable {σ : Type} {env : Surroundings σ} {e : Engine σ} {agent : Agent}
  {request : DispatchRequest}

/-- How often an operation was called in a direction. -/
def callsOf (e : Engine σ) (typeName : String) : Action → Nat
  | .execute => ((e.invocations.get? typeName).getD (0, 0)).1
  | .rollback => ((e.invocations.get? typeName).getD (0, 0)).2

/-- What the operation of a task does when it is called next, if its type is known. -/
def behaviour (e : Engine σ) (request : DispatchRequest) : Option Program :=
  Runner.behaviour e.registry request (e.callsOf request.task.typeName request.action)

/-- What a dispatch to an agent comes to now, and the error of one that fails. -/
def courseOf (e : Engine σ) (agent : Agent) (request : DispatchRequest) :
    Timeline × Option String :=
  Runner.timeline e.registry agent request (e.callsOf request.task.typeName request.action) .never

/-- The outcome of a dispatch to an agent, its lines stamped by the clock of the engine. -/
def outcomeOf (e : Engine σ) (agent : Agent) (request : DispatchRequest) : Outcome :=
  Runner.outcome agent request (e.courseOf agent request).1 (e.courseOf agent request).2
    e.clock.after

theorem messages_outcomeOf (e : Engine σ) (agent : Agent) (request : DispatchRequest) :
    (e.outcomeOf agent request).logs.map (·.message)
      = (e.courseOf agent request).1.lines.map (·.2) := by
  rw [outcomeOf, Runner.outcome, List.map_map]
  rfl

theorem perform_countCall (env : Surroundings σ) (e : Engine σ) (typeName : String)
    (action : Action) :
    ∃ e', perform env (countCall typeName action) e = (.ok (e.callsOf typeName action), e') ∧
      e'.store = e.store ∧ e'.outages = e.outages := by
  cases action <;> exact ⟨_, rfl, rfl, rfl⟩

/-! ## The call -/

/-- The call that stands for a run in this process: its lines and its end are those of the run, from
the present moment on. -/
def planned (e : Engine σ) (agent : Agent) (request : DispatchRequest) : Call :=
  { task := request.task.id, agent
    lines := (e.courseOf agent request).1.moments.filterMap fun m => match m.deed with
      | .line s => some ⟨e.clock.ms + m.since, e.clock.ms + m.at', s⟩
      | .context _ => none
    ending := (e.courseOf agent request).1.ending.map fun x =>
      ⟨e.clock.ms + x.since, e.clock.ms + x.at', .ok (e.outcomeOf agent request)⟩
    keepsLogs := false, ended := false }

theorem perform_callHere (env : Surroundings σ) (e : Engine σ) (agent : Agent)
    (request : DispatchRequest) :
    ∃ e', perform env (callHere agent request) e = (.ok (e.planned agent request), e') ∧
      e'.store = e.store ∧ e'.outages = e.outages := by
  change ∃ e', perform env (if Runner.calls e.registry agent request then _ else _) e = _ ∧ _
  cases hcalls : Runner.calls e.registry agent request with
  | true =>
    obtain ⟨e', hcounted, hstore, houtages⟩ :=
      perform_countCall env e request.task.typeName request.action
    refine ⟨e', ?_, hstore, houtages⟩
    simp only [if_true, perform_bind, hcounted]
    rfl
  | false =>
    refine ⟨e, ?_, rfl, rfl⟩
    have hsame := Runner.timeline_of_not_calls hcalls 0
      (e.callsOf request.task.typeName request.action) .never
    simp only [Bool.false_eq_true, if_false, perform_bind, perform_pure, hsame]
    rfl

theorem map_text_planned (e : Engine σ) (agent : Agent) (request : DispatchRequest) :
    (e.planned agent request).lines.map (·.text)
      = (e.outcomeOf agent request).logs.map (·.message) := by
  rw [messages_outcomeOf, planned, Timeline.lines, List.map_filterMap, List.map_filterMap]
  refine List.filterMap_congr fun m _ => ?_
  cases m.deed <;> rfl

theorem owed_planned (e : Engine σ) (agent : Agent) (request : DispatchRequest) :
    (e.planned agent request).owed = (e.outcomeOf agent request).logs.map (·.message) := by
  have hnone : (e.planned agent request).sentBack = [] := rfl
  rw [Call.owed, map_text_planned, hnone, List.map_nil, ite_self, List.append_nil]

theorem punctual_planned (e : Engine σ) (agent : Agent) (request : DispatchRequest) :
    (e.planned agent request).Punctual := by
  have hordered : (e.courseOf agent request).1.Ordered 0 := Runner.ordered_timeline ..
  have hline {m : Moment} {l : PlannedLine} (h : (match m.deed with
      | .line s => some (⟨e.clock.ms + m.since, e.clock.ms + m.at', s⟩ : PlannedLine)
      | .context _ => none) = some l) : l.due = e.clock.ms + m.at' := by
    cases hdeed : m.deed with
    | line s =>
      rw [hdeed] at h
      rw [← Option.some.inj h]
    | context after =>
      rw [hdeed] at h
      cases h
  refine ⟨List.pairwise_filterMap.2 (hordered.sorted.imp fun {m n} hle l hl l' hl' => ?_),
    fun ending hending l hl => ?_, nofun⟩
  · rw [hline hl, hline hl']
    exact Nat.add_le_add_left hle _
  · obtain ⟨x, hx, rfl⟩ := Option.map_eq_some_iff.1 hending
    obtain ⟨m, hm, hl⟩ := List.mem_filterMap.1 hl
    rw [hline hl]
    exact Nat.add_le_add_left ((hordered.before x hx).2 m hm) _

/-! ## Dispatches and what is reached -/

/-- What is run in this process delivers the outcome of its run, if that ends. -/
theorem delivers_here (hreach : (env.reach e.outside e.clock agent request).1 = .inProcess)
    (works : e.outages.append = none) {x : Ending}
    (hends : (e.courseOf agent request).1.ending = some x) :
    Delivers env e agent request (e.outcomeOf agent request) := by
  let e₁ : Engine σ := { e with outside := (env.reach e.outside e.clock agent request).2 }
  obtain ⟨e₂, hcall, hstore, houtages⟩ := perform_callHere env e₁ agent request
  have hplanned : e₁.planned agent request = e.planned agent request := rfl
  have hending : (e.planned agent request).ending = some
      ⟨e.clock.ms + x.since, e.clock.ms + x.at', .ok (e.outcomeOf agent request)⟩ := by
    rw [planned, hends]
    rfl
  have hcalled : perform env (call agent request) e = (.ok (e.planned agent request), e₂) := by
    rw [perform_call, hreach, ← hplanned]
    exact hcall
  exact delivers_of_call hcalled hstore (by rw [houtages]; exact works)
    (punctual_planned e agent request) ⟨rfl, rfl, nofun⟩ hending (owed_planned e agent request)

/-- The call that stands for a request whose result comes after a time. -/
def posted (e : Engine σ) (agent : Agent) (request : DispatchRequest) (ms : Nat)
    (result : EngineResult Outcome) : Call :=
  { task := request.task.id, agent, lines := []
    ending := some ⟨e.clock.ms, e.clock.ms + ms, result⟩, keepsLogs := true, ended := false }

theorem punctual_posted (e : Engine σ) (agent : Agent) (request : DispatchRequest) (ms : Nat)
    (result : EngineResult Outcome) : (e.posted agent request ms result).Punctual :=
  ⟨.nil, fun _ _ => nofun, nofun⟩

theorem perform_call_of_settles {ms : Nat} {result : EngineResult Outcome}
    (hreach : (env.reach e.outside e.clock agent request).1 = .settles (some ms) result true) :
    perform env (call agent request) e = (.ok (e.posted agent request ms result),
      { e with outside := (env.reach e.outside e.clock agent request).2 }) := by
  rw [perform_call, hreach]
  rfl

/-- An outcome that is sent in time is delivered, with its lines. -/
theorem delivers_of_settles {outcome : Outcome} {ms : Nat}
    (hreach : (env.reach e.outside e.clock agent request).1 = .settles (some ms) (.ok outcome) true)
    (works : e.outages.append = none) : Delivers env e agent request outcome :=
  delivers_of_call (perform_call_of_settles hreach) rfl works (punctual_posted ..)
    ⟨rfl, rfl, nofun⟩ rfl rfl

/-- An error that comes back is no outcome. -/
theorem not_delivers_of_settles {outcome : Outcome} {error : EngineError} {ms : Nat}
    (hreach : (env.reach e.outside e.clock agent request).1 =
      .settles (some ms) (.error error) true)
    (works : e.outages.append = none) : ¬ Delivers env e agent request outcome := by
  rintro ⟨c, e₁, hcall, ⟨x, hwaits, hended⟩, hall⟩
  obtain ⟨hc, he⟩ := Prod.mk.inj ((perform_call_of_settles hreach).symm.trans hcall)
  obtain rfl := Except.ok.inj hc
  have hworks : e₁.outages.append = none := he ▸ works
  have hstart := Underway.start (punctual_posted e agent request ms (.error error)) hworks
  have hreport := (hall x hwaits hended).1
  simp only [Call.report?, hended, (hstart.waits hwaits).ending, posted] at hreport
  have hresult : Except.error error = Except.ok outcome :=
    congrArg Report.result (Option.some.inj hreport)
  cases hresult

end Stagewise.Engine
