import Mathlib.Logic.Relation
import Stagewise.Proofs.Course.Execution
import Stagewise.Proofs.Engine.Frame
import Stagewise.Server.Basic
/-!
# What an engine is told about its dispatches

Every outcome that a drive loop folds in was made by an agent that answers at the address to which
the request went: by the engine itself, which runs what stays in its process under the name that is
addressed, or by another agent, which runs what it is sent under a name of its own.
-/

namespace Stagewise

open Relation (ReflTransGen)

variable {σ α β : Type} {mayAnswer : Agent → Peer → Prop}

/-- What is delivered was made by an agent that may answer at the address. What stays in the process
is run under the name that is addressed. -/
structure Surroundings.Within (env : Surroundings σ) (mayAnswer : Agent → Peer → Prop) : Prop where
  here : ∀ outside clock a q, (env.reach outside clock a q).1 = .inProcess →
    ∀ registry, mayAnswer a ⟨a, registry⟩
  away : ∀ outside clock a q after outcome keepsLogs,
    (env.reach outside clock a q).1 = .settles after (.ok outcome) keepsLogs →
      ∃ peer, mayAnswer a peer ∧ peer.Answers q outcome

namespace Engine

variable {env : Surroundings σ} {e : Engine σ}

/-- The call is one for the request, and ends with what an agent at its address made of it. -/
structure Bears (mayAnswer : Agent → Peer → Prop) (p : Agent × DispatchRequest) (c : Call) : Prop
    extends Carries p c where
  answers : ∀ ending outcome, c.ending = some ending → ending.result = .ok outcome →
    ∃ peer, mayAnswer p.1 peer ∧ peer.Answers p.2 outcome

theorem Bears.seenLater {p : Agent × DispatchRequest} {c c' : Call} (h : Bears mayAnswer p c)
    (seen : SeenLater c c') : Bears mayAnswer p c' := by
  refine ⟨h.toCarries.seenLater seen, ?_⟩
  cases seen with
  | since ms => exact h.answers
  | unkept ms f =>
    -- The error of the store is no outcome.
    intro ending outcome hending hresult
    obtain ⟨x, -, rfl⟩ := Option.map_eq_some_iff.mp hending
    cases hresult

theorem Bears.reported {p : Agent × DispatchRequest} {c : Call} (h : Bears mayAnswer p c)
    (ended : c.ended = true) : ∃ r, c.report? = some r ∧ Reported mayAnswer p r := by
  obtain ⟨ending, hending⟩ := Option.isSome_iff_exists.mp (h.reports ended)
  exact ⟨⟨c.task, c.agent, ending.result⟩, by simp only [Call.report?, ended, hending], h.task,
    h.agent, fun outcome hresult => h.answers ending outcome hending hresult⟩

/-- The operation comes to an answer for which the test holds. -/
def Yields (env : Surroundings σ) (m : EngineM σ α) (test : α → Prop) : Prop :=
  ∀ e, ∃ a e', perform env m e = (.ok a, e') ∧ test a

theorem Quiet.yields {m : EngineM σ α} {test : α → Prop} (h : Quiet m test)
    (env : Surroundings σ) : Yields env m test := by
  intro e
  obtain ⟨a, e', hperformed, -, htest⟩ := h env e
  exact ⟨a, e', hperformed, htest⟩

theorem Yields.bind {m : EngineM σ α} {f : α → EngineM σ β} {mid : α → Prop} {test : β → Prop}
    (hm : Yields env m mid) (hf : ∀ a, mid a → Yields env (f a) test) :
    Yields env (m >>= f) test := by
  intro e
  obtain ⟨a, e₁, hfirst, hmid⟩ := hm e
  obtain ⟨b, e₂, hrest, htest⟩ := hf a hmid e₁
  refine ⟨b, e₂, ?_, htest⟩
  rw [perform_bind, hfirst]
  exact hrest

theorem Yields.mapM {f : α → EngineM σ β} {test : α → β → Prop}
    (hf : ∀ a, Yields env (f a) (test a)) (l : List α) :
    Yields env (l.mapM f) (List.Forall₂ test l) := by
  induction l with
  | nil => exact fun e => ⟨[], e, rfl, .nil⟩
  | cons a rest ih =>
    rw [List.mapM_cons]
    exact (hf a).bind fun b hb => ih.bind fun bs hbs => fun e => ⟨b :: bs, e, rfl, .cons hb hbs⟩

/-- What is called in this process is run under the name of the agent that is called. -/
theorem callHere_bears (env : Surroundings σ) {a : Agent} (q : DispatchRequest)
    (here : ∀ registry, mayAnswer a ⟨a, registry⟩) :
    Yields env (callHere a q) (Bears mayAnswer (a, q)) := by
  intro e
  change ∃ c e', perform env (if Runner.calls e.registry a q then _ else _) e = _ ∧ _
  have hanswers (nth : Nat) {x : Ending}
      (hending : (Runner.timeline e.registry a q nth .never).1.ending = some x) :
      ∃ peer, mayAnswer a peer ∧ peer.Answers q
        (Runner.outcome a q (Runner.timeline e.registry a q nth .never).1
          (Runner.timeline e.registry a q nth .never).2 e.clock.after) :=
    ⟨⟨a, e.registry⟩, here _, nth, .never, _, _, Runner.run_of_ending hending _⟩
  split
  · refine (quiet_countCall q.task.typeName q.action).yields env |>.bind (fun nth _ e' => ?_) e
    refine ⟨_, e', rfl, ⟨rfl, rfl, nofun⟩, fun ending outcome hending hresult => ?_⟩
    obtain ⟨x, hx, rfl⟩ := Option.map_eq_some_iff.mp hending
    exact Except.ok.inj hresult ▸ hanswers nth hx
  · refine ⟨_, e, rfl, ⟨rfl, rfl, nofun⟩, fun ending outcome hending hresult => ?_⟩
    obtain ⟨x, hx, rfl⟩ := Option.map_eq_some_iff.mp hending
    exact Except.ok.inj hresult ▸ hanswers 0 hx

theorem call_bears (within : env.Within mayAnswer) (a : Agent) (q : DispatchRequest) :
    Yields env (call a q) (Bears mayAnswer (a, q)) := by
  intro e
  rw [perform_call]
  cases hreach : (env.reach e.outside e.clock a q).1 with
  | inProcess => exact callHere_bears env q (within.here _ _ _ _ hreach) _
  | settles after result keepsLogs =>
    refine ⟨_, _, rfl, ⟨rfl, rfl, nofun⟩, fun ending outcome hending hresult => ?_⟩
    obtain ⟨ms, -, rfl⟩ := Option.map_eq_some_iff.mp hending
    subst hresult
    exact within.away _ _ _ _ _ _ _ hreach

theorem sendOut_bears (within : env.Within mayAnswer) (dag : DagId) (batch : Batch)
    (action : Action) :
    Yields env (sendOut dag batch action)
      (List.Forall₂ (Bears mayAnswer) (batch.requests dag action)) := by
  refine Yields.bind ((Quiet.forM ?journaled _).yields env) fun _ _ => Yields.mapM ?called _
  case journaled => exact fun _ => quiet_record _ _
  case called =>
    rintro ⟨a, q⟩
    exact call_bears within a q

/-- The second calls are what the first have come to by being waited for, however often. -/
def Awaited (σ : Type) : List Call → List Call → Prop :=
  ReflTransGen fun calls calls' => ∃ (env : Surroundings σ) (e e' : Engine σ),
    perform env (attend calls) e = (.ok calls', e')

theorem Awaited.bears {calls calls' : List Call} (h : Awaited σ calls calls')
    {requests : List (Agent × DispatchRequest)}
    (borne : List.Forall₂ (Bears mayAnswer) requests calls) :
    List.Forall₂ (Bears mayAnswer) requests calls' := by
  induction h with
  | refl => exact borne
  | @tail calls₁ calls₂ _ waited ih =>
    obtain ⟨env, e, e', hattended⟩ := waited
    obtain ⟨made, e₂, hmade, -, hafter⟩ := quiet_attend calls₁ env e
    rw [hattended] at hmade
    obtain rfl := Except.ok.inj (Prod.mk.inj hmade).1
    exact kept_after (fun _ _ _ hc => hc.seenLater) ih hafter

theorem reported_of_ended {calls : List Call} {requests : List (Agent × DispatchRequest)}
    (borne : List.Forall₂ (Bears mayAnswer) requests calls)
    (ended : ∀ c ∈ calls, c.ended = true) :
    List.Forall₂ (Reported mayAnswer) requests (calls.filterMap Call.report?) := by
  induction borne with
  | nil => exact .nil
  | @cons p c requests calls hbears _ ih =>
    obtain ⟨r, hr, hreported⟩ := hbears.reported (ended c List.mem_cons_self)
    rw [List.filterMap_cons_some hr]
    exact .cons hreported (ih fun c' hc' => ended c' (List.mem_cons_of_mem c hc'))

/-- The reports of a stage, when all of its calls have ended, were made by agents that may answer at
the addresses to which its requests went. -/
theorem reports_of_sendOut (within : env.Within mayAnswer) {dag : DagId} {batch : Batch}
    {action : Action} {calls calls' : List Call} {e' : Engine σ}
    (sent : perform env (sendOut dag batch action) e = (.ok calls, e'))
    (awaited : Awaited σ calls calls') (ended : ∀ c ∈ calls', c.ended = true) :
    List.Forall₂ (Reported mayAnswer) (batch.requests dag action)
      (calls'.filterMap Call.report?) := by
  obtain ⟨made, e₁, hmade, hborne⟩ := sendOut_bears within dag batch action e
  rw [sent] at hmade
  obtain rfl := Except.ok.inj (Prod.mk.inj hmade).1
  exact reported_of_ended (awaited.bears hborne) ended

end Engine

namespace Server

/-- Whatever is read as the outcome of a dispatch was made by an agent at the address. -/
def Web.Faithful (web : Web σ) (peers : Client) (mayAnswer : Agent → Peer → Prop) : Prop :=
  ∀ outside clock a q url r outcome,
    ((peers.forAgent a).bind fun c => c.requestFor (ApiCall.dispatch q)) = .ok (url, r) →
    (Client.received url
      (withinTimeout peers.timeoutMs (web.exchange outside clock url r).1).2).bind
        (Client.answerIn (ApiCall.dispatch q)) = .ok outcome →
    ∃ peer, mayAnswer a peer ∧ peer.Answers q outcome

/-- An agent on the web runs what is addressed to itself, and gets everything else from others. -/
theorem reach_within {self : Agent} {peers : Client} {web : Web σ} (freshIds : Nat → FreshIds)
    (own : ∀ registry, mayAnswer self ⟨self, registry⟩) (faithful : web.Faithful peers mayAnswer) :
    Surroundings.Within ⟨reach self peers web, freshIds⟩ mayAnswer := by
  constructor
  case here =>
    intro outside clock a q hreach registry
    simp only [reach] at hreach
    split at hreach
    · next hself => exact hself ▸ own registry
    · split at hreach <;> cases hreach
  case away =>
    intro outside clock a q after outcome keepsLogs hreach
    simp only [reach] at hreach
    split at hreach
    · cases hreach
    · split at hreach
      · cases hreach
      · next url r hrequest =>
        obtain ⟨-, hresult, -⟩ := Delivery.settles.inj hreach
        refine faithful outside clock a q url r outcome hrequest ?_
        cases hreceived : (Client.received url
            (withinTimeout peers.timeoutMs (web.exchange outside clock url r).1).2).bind
            (Client.answerIn (ApiCall.dispatch q)) with
        | error e =>
          rw [hreceived] at hresult
          cases hresult
        | ok made =>
          rw [hreceived] at hresult
          exact congrArg _ (Except.ok.inj hresult)

/-- The answer to a task whose operation was called so often before. -/
def answerTo (seat : Seat σ) (s : Server σ) (q : DispatchRequest) (nth : Nat) : ServerM σ Answer :=
  match Runner.run s.engine.registry seat.self q nth (if s.isStopping then .beforehand else .never)
    s.engine.clock.after with
  | some (outcome, took) => do
    let _ ← perform (Engine.advance took)
    return .ok outcome
  | none => return .bare 504

/-- An agent that takes part in a task of another one answers with a run under its own name. -/
theorem takePart_answers (seat : Seat σ) (s : Server σ) (q : DispatchRequest) :
    (∃ outcome, (takePart q seat s).1 = .ok outcome ∧
        (⟨seat.self, s.engine.registry⟩ : Peer).Answers q outcome) ∨
      (takePart q seat s).1 = .bare 504 := by
  have htaken : ∃ nth s', (takePart q seat s).1 = (answerTo seat s q nth seat s').1 := by
    change ∃ nth s', ((if Runner.calls s.engine.registry seat.self q then _ else _ :
      ServerM σ Answer) seat s).1 = _
    split
    · exact ⟨_, _, rfl⟩
    · exact ⟨0, s, rfl⟩
  obtain ⟨nth, s', htaken⟩ := htaken
  rw [htaken, answerTo]
  cases hrun : Runner.run s.engine.registry seat.self q nth
      (if s.isStopping then .beforehand else .never) s.engine.clock.after with
  | none => exact .inr rfl
  | some made => exact .inl ⟨made.1, rfl, nth, _, _, made.2, hrun⟩

end Server

end Stagewise
