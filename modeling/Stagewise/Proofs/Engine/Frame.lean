import Stagewise.Engine.Drive
import Stagewise.Proofs.Course.Basic
/-!
# What engine operations leave alone

Engine operations as functions from an engine to their answer and the engine after them. Reading the
clock, journaling, logging, sending requests out and starting or stopping loops always come to an
answer, and leave the stored dags as they are. So does whatever follows on the write of a command or
of a move.
-/

namespace Stagewise.Engine

variable {σ α β γ : Type} {env : Surroundings σ} {e : Engine σ}

/-- What an operation comes to, and the engine after it. -/
def perform (env : Surroundings σ) (m : EngineM σ α) (e : Engine σ) : Except Fault α × Engine σ :=
  m env e

@[simp] theorem perform_pure (a : α) : perform env (pure a : EngineM σ α) e = (.ok a, e) := rfl

@[simp] theorem perform_get : perform env (get : EngineM σ (Engine σ)) e = (.ok e, e) := rfl

@[simp] theorem perform_read : perform env (read : EngineM σ (Surroundings σ)) e = (.ok env, e) :=
  rfl

@[simp] theorem perform_modify (f : Engine σ → Engine σ) :
    perform env (modify f : EngineM σ Unit) e = (.ok (), f e) := rfl

@[simp] theorem perform_modifyGet (f : Engine σ → α × Engine σ) :
    perform env (modifyGet f : EngineM σ α) e = (.ok (f e).1, (f e).2) := rfl

@[simp] theorem perform_now :
    perform env (now : EngineM σ Timestamp) e
      = (.ok e.clock.now, { e with clock := e.clock.tick }) := rfl

theorem perform_bind (m : EngineM σ α) (f : α → EngineM σ β) :
    perform env (m >>= f) e = match perform env m e with
      | (.ok a, e') => perform env (f a) e'
      | (.error x, e') => (.error x, e') := by
  simp only [perform, bind, ReaderT.bind, ExceptT.bind, ExceptT.mk, StateT.bind, ExceptT.bindCont]
  rcases m env e with ⟨answer, e'⟩
  cases answer with
  | error x => rfl
  | ok a => rfl

theorem perform_load {d : Dag} (held : e.store.load? d.id = .ok (some d)) :
    perform env (load d.id) e = (.ok d, e) := by
  simp only [load, perform_bind, perform_get, held, stored, perform_pure]

/-! ## What follows on a write -/

/-- What a command does once it is written. -/
def afterCommand (dag : DagId) (operator : Operator) (lines : LogLines) (d : Dag) :
    EngineM σ Dag := do
  logAll lines
  record dag (.operatorCommand operator)
  if operator = .cancel then
    stop dag
    record dag .dagCancelled
  else
    spawn dag
  return d

theorem command_eq (dag : DagId) (operator : Operator) :
    command dag operator = (do
      let d ← load dag
      let (d, lines) ← checked (d.command operator (← now))
      let d ← commit d
      afterCommand dag operator lines d : EngineM σ Dag) := rfl

/-- What a drive loop does once its move is made: it sends the stage out, if there is one. -/
def afterMove (dag : DagId) (d : Dag) (events : List EventType) (batch : Option Batch) :
    EngineM σ StepResult := do
  recordAll dag events
  match batch with
  | none => return .goesOn
  | some batch => return .waits d.direction d.stage (← sendOut dag batch d.direction)

theorem takeStep_eq (dag : DagId) :
    takeStep dag = (do
      let d ← load dag
      if !d.isRunning then return .stops
      let move ← checked (d.step (← now))
      let d ← match move.write with
        | some d => commit d
        | none => pure d
      afterMove dag d move.events move.batch : EngineM σ StepResult) := rfl

/-! ## Operations that leave the stored dags alone -/

/-- The operation comes to an answer for which the test holds, and leaves the stored dags as they
are. -/
def Quiet (m : EngineM σ α) (test : α → Prop) : Prop :=
  ∀ (env : Surroundings σ) (e : Engine σ), ∃ a e',
    perform env m e = (.ok a, e') ∧ e'.store.dags = e.store.dags ∧ test a

theorem Quiet.pure {test : α → Prop} {a : α} (h : test a) :
    Quiet (Pure.pure a : EngineM σ α) test :=
  fun _ e => ⟨a, e, rfl, rfl, h⟩

theorem Quiet.modifyGet {f : Engine σ → α × Engine σ} (h : ∀ e, (f e).2.store.dags = e.store.dags) :
    Quiet (modifyGet f : EngineM σ α) fun _ => True :=
  fun _ e => ⟨(f e).1, (f e).2, rfl, h e, trivial⟩

theorem Quiet.modify {f : Engine σ → Engine σ} (h : ∀ e, (f e).store.dags = e.store.dags) :
    Quiet (modify f : EngineM σ Unit) fun _ => True :=
  fun _ e => ⟨(), f e, rfl, h e, trivial⟩

theorem Quiet.bind {m : EngineM σ α} {f : α → EngineM σ β} {mid : α → Prop} {test : β → Prop}
    (hm : Quiet m mid) (hf : ∀ a, mid a → Quiet (f a) test) : Quiet (m >>= f) test := by
  intro env e
  obtain ⟨a, e₁, hfirst, hdags, hmid⟩ := hm env e
  obtain ⟨b, e₂, hrest, hdags', htest⟩ := hf a hmid env e₁
  refine ⟨b, e₂, ?_, hdags'.trans hdags, htest⟩
  rw [perform_bind, hfirst]
  exact hrest

theorem Quiet.get_bind {f : Engine σ → EngineM σ α} {test : α → Prop} (h : ∀ e, Quiet (f e) test) :
    Quiet (get >>= f) test := fun env e => h e env e

theorem Quiet.read_bind {f : Surroundings σ → EngineM σ α} {test : α → Prop}
    (h : ∀ env, Quiet (f env) test) :
    Quiet (read >>= f) test := fun env e => h env env e

theorem Quiet.forM {f : α → EngineM σ Unit} (hf : ∀ a, Quiet (f a) fun _ => True) (l : List α) :
    Quiet (l.forM f) fun _ => True := by
  induction l with
  | nil => exact .pure trivial
  | cons a rest ih => exact (hf a).bind fun _ _ => ih

theorem Quiet.mapM {f : α → EngineM σ β} {test : α → β → Prop} (hf : ∀ a, Quiet (f a) (test a))
    (l : List α) :
    Quiet (l.mapM f) (List.Forall₂ test l) := by
  induction l with
  | nil => exact .pure .nil
  | cons a rest ih =>
    rw [List.mapM_cons]
    exact (hf a).bind fun b hb => ih.bind fun bs hbs => .pure (.cons hb hbs)

theorem quiet_now : Quiet (now : EngineM σ Timestamp) fun _ => True := .modifyGet fun _ => rfl

theorem quiet_record (dag : DagId) (type : EventType) :
    Quiet (record dag type : EngineM σ Unit) fun _ => True :=
  quiet_now.bind fun _ _ => .modify fun e => by split <;> rfl

theorem quiet_recordAll (dag : DagId) (types : List EventType) :
    Quiet (recordAll dag types : EngineM σ Unit) fun _ => True :=
  .forM (quiet_record dag) types

theorem appendLogs_dags (s : Store) (id : TaskId) (entries : List LogEntry) :
    (s.appendLogs id entries).dags = s.dags := by
  rw [Store.appendLogs]
  split <;> rfl

theorem quiet_keep (task : TaskId) (entries : List LogEntry) :
    Quiet (keep task entries : EngineM σ (Stored Unit)) fun _ => True := by
  refine .modifyGet fun e => ?_
  split
  · rfl
  · exact appendLogs_dags _ _ _

theorem quiet_log (task : TaskId) (line : String) :
    Quiet (log task line : EngineM σ Unit) fun _ => True :=
  quiet_now.bind fun _ _ => (quiet_keep _ _).bind fun _ _ => .pure trivial

theorem quiet_logAll (lines : LogLines) : Quiet (logAll lines : EngineM σ Unit) fun _ => True :=
  .forM (fun _ => quiet_log _ _) lines

theorem quiet_spawn (dag : DagId) : Quiet (spawn dag : EngineM σ Unit) fun _ => True :=
  .modify fun e => by split <;> rfl

theorem quiet_stop (dag : DagId) : Quiet (stop dag : EngineM σ Unit) fun _ => True :=
  .modify fun e => by split <;> rfl

theorem quiet_countCall (typeName : String) (action : Action) :
    Quiet (countCall typeName action : EngineM σ Nat) fun _ => True :=
  .modifyGet fun e => by cases action <;> rfl

/-- The call is one for the request to the agent. Once it has ended it has something to report. -/
structure Carries (p : Agent × DispatchRequest) (c : Call) : Prop where
  task : c.task = p.2.task.id
  agent : c.agent = p.1
  reports : c.ended = true → c.ending.isSome

theorem quiet_callHere (agent : Agent) (request : DispatchRequest) :
    Quiet (callHere agent request : EngineM σ Call) (Carries (agent, request)) := by
  refine .get_bind fun e => ?_
  simp only
  split
  · exact (quiet_countCall _ _).bind fun _ _ => .pure ⟨rfl, rfl, nofun⟩
  · exact .pure ⟨rfl, rfl, nofun⟩

/-- A call is what its delivery makes of it. -/
theorem perform_call (env : Surroundings σ) (e : Engine σ) (agent : Agent)
    (request : DispatchRequest) :
    perform env (call agent request) e
      = perform env (match (env.reach e.outside e.clock agent request).1 with
        | .inProcess => callHere agent request
        | .settles after result keepsLogs =>
          return { task := request.task.id, agent, lines := [],
                   ending := after.map fun ms => ⟨e.clock.ms, e.clock.ms + ms, result⟩,
                   keepsLogs, ended := false })
        { e with outside := (env.reach e.outside e.clock agent request).2 } := rfl

theorem quiet_call (agent : Agent) (request : DispatchRequest) :
    Quiet (call agent request : EngineM σ Call) (Carries (agent, request)) := by
  refine .get_bind fun e => .read_bind fun env => ?_
  refine Quiet.bind (Quiet.modify ?keeps) fun _ _ => ?delivered
  case keeps => exact fun _ => rfl
  case delivered =>
    cases (env.reach e.outside e.clock agent request).1 with
    | inProcess => exact quiet_callHere agent request
    | settles after result keepsLogs => exact .pure ⟨rfl, rfl, nofun⟩

theorem quiet_sendOut (dag : DagId) (batch : Batch) (action : Action) :
    Quiet (sendOut dag batch action : EngineM σ (List Call))
      (List.Forall₂ Carries (batch.requests dag action)) := by
  refine Quiet.bind (Quiet.forM ?journaled _) fun _ _ => Quiet.mapM ?called _
  case journaled => exact fun _ => quiet_record _ _
  case called =>
    rintro ⟨a, q⟩
    exact quiet_call a q

theorem Carries.afterMoment {p : Agent × DispatchRequest} {c : Call} (h : Carries p c) (ms : Nat) :
    Carries p (c.afterMoment ms) := by
  refine ⟨h.task, h.agent, fun hended => ?_⟩
  cases hending : c.ending with
  | some e => simp [Call.afterMoment, hending]
  | none =>
    simp only [Call.afterMoment, Call.endsBy, hending, Bool.or_false] at hended
    have hreports := h.reports hended
    simp [hending] at hreports

theorem Carries.unkept {p : Agent × DispatchRequest} {c : Call} (h : Carries p c) (f : Failure) :
    Carries p (c.unkept f) :=
  ⟨h.task, h.agent, fun hended => by simpa [Call.unkept] using h.reports hended⟩

/-- What a call may be after it was waited for: as it is at some moment, unless the store did not
take the lines that came back. -/
inductive SeenLater (c : Call) : Call → Prop
  | since (ms : Nat) : SeenLater c (c.afterMoment ms)
  | unkept (ms : Nat) (f : Failure) : SeenLater c ((c.afterMoment ms).unkept f)

theorem Carries.seenLater {p : Agent × DispatchRequest} {c c' : Call} (h : Carries p c)
    (seen : SeenLater c c') : Carries p c' := by
  cases seen with
  | since ms => exact h.afterMoment ms
  | unkept ms f => exact (h.afterMoment ms).unkept f

theorem quiet_attend (calls : List Call) :
    Quiet (attend calls : EngineM σ (List Call)) (List.Forall₂ SeenLater calls) := by
  refine Quiet.mapM (fun c => ?_) calls
  refine .get_bind fun e => Quiet.bind (Quiet.forM (quiet_log _) _) fun _ _ => ?_
  refine (quiet_keep _ _).bind fun kept _ => ?_
  cases kept with
  | ok _ => exact .pure (.since _)
  | error f => exact .pure (.unkept _ f)

/-- What holds of calls whenever they are waited for holds after waiting. -/
theorem kept_after {R : Agent × DispatchRequest → Call → Prop}
    (keep : ∀ p c c', R p c → SeenLater c c' → R p c')
    {requests : List (Agent × DispatchRequest)} {calls calls' : List Call}
    (h : List.Forall₂ R requests calls)
    (after : List.Forall₂ SeenLater calls calls') : List.Forall₂ R requests calls' := by
  induction h generalizing calls' with
  | nil =>
    cases after
    exact .nil
  | cons hcall _ ih =>
    cases after with
    | cons hafter after => exact .cons (keep _ _ _ hcall hafter) (ih after)

theorem quiet_afterCommand (dag : DagId) (operator : Operator) (lines : LogLines) (d : Dag) :
    Quiet (afterCommand dag operator lines d : EngineM σ Dag) (· = d) := by
  refine (quiet_logAll lines).bind fun _ _ => (quiet_record dag _).bind fun _ _ => ?_
  by_cases hcancel : operator = .cancel
  · simp only [if_pos hcancel]
    exact (quiet_stop dag).bind fun _ _ =>
      (quiet_record dag .dagCancelled).bind fun _ _ => .pure rfl
  · simp only [if_neg hcancel]
    exact (quiet_spawn dag).bind fun _ _ => .pure rfl

/-! ## What operations keep -/

/-- The operation leaves a part of the engine as it is, whatever it comes to. -/
def Keeps (part : Engine σ → γ) (m : EngineM σ α) : Prop :=
  ∀ (env : Surroundings σ) (e : Engine σ), part (perform env m e).2 = part e

theorem Keeps.comp {part : Engine σ → γ} {m : EngineM σ α} (h : Keeps part m) (f : γ → β) :
    Keeps (fun e => f (part e)) m := fun env e => congrArg f (h env e)

theorem Keeps.pure {part : Engine σ → γ} (a : α) : Keeps part (Pure.pure a : EngineM σ α) :=
  fun _ _ => rfl

theorem Keeps.modify {part : Engine σ → γ} {f : Engine σ → Engine σ}
    (h : ∀ e, part (f e) = part e) : Keeps part (modify f : EngineM σ Unit) := fun _ e => h e

theorem Keeps.bind {part : Engine σ → γ} {m : EngineM σ α} {f : α → EngineM σ β}
    (hm : Keeps part m) (hf : ∀ a, Keeps part (f a)) : Keeps part (m >>= f) := by
  intro env e
  have hfirst := hm env e
  rw [perform_bind]
  rcases hmade : perform env m e with ⟨answer, e'⟩
  rw [hmade] at hfirst
  cases answer with
  | error x => exact hfirst
  | ok a => exact (hf a env e').trans hfirst

theorem Keeps.forM {part : Engine σ → γ} {f : α → EngineM σ Unit}
    (hf : ∀ a, Keeps part (f a)) (l : List α) : Keeps part (l.forM f) := by
  induction l with
  | nil => exact .pure ()
  | cons a rest ih => exact (hf a).bind fun _ => ih

theorem Keeps.get_bind {part : Engine σ → γ} {f : Engine σ → EngineM σ α}
    (h : ∀ e, Keeps part (f e)) : Keeps part (get >>= f) := fun env e => h e env e

theorem Keeps.read_bind {part : Engine σ → γ} {f : Surroundings σ → EngineM σ α}
    (h : ∀ env, Keeps part (f env)) : Keeps part (read >>= f) := fun env e => h env env e

theorem Keeps.mapM {part : Engine σ → γ} {f : α → EngineM σ β} (hf : ∀ a, Keeps part (f a))
    (l : List α) : Keeps part (l.mapM f) := by
  induction l with
  | nil => exact .pure []
  | cons a rest ih =>
    rw [List.mapM_cons]
    exact (hf a).bind fun b => ih.bind fun bs => .pure (b :: bs)

/-- The writes that were tried, and the drive loops. -/
def standing (e : Engine σ) : Nat × List (DagId × Nat) × Nat × List Loop :=
  (e.swaps, e.active, e.generations, e.loops)

theorem keeps_now : Keeps standing (now : EngineM σ Timestamp) := fun _ _ => rfl

theorem keeps_record (dag : DagId) (type : EventType) :
    Keeps standing (record dag type : EngineM σ Unit) :=
  keeps_now.bind fun _ => .modify fun e => by split <;> rfl

theorem keeps_recordAll (dag : DagId) (types : List EventType) :
    Keeps standing (recordAll dag types : EngineM σ Unit) :=
  .forM (keeps_record dag) types

theorem keeps_keep (task : TaskId) (entries : List LogEntry) :
    Keeps standing (keep task entries : EngineM σ (Stored Unit)) := by
  intro env e
  rw [keep, perform_modifyGet]
  split <;> rfl

theorem keeps_logAll (lines : LogLines) : Keeps standing (logAll lines : EngineM σ Unit) :=
  .forM (fun _ => keeps_now.bind fun _ => (keeps_keep _ _).bind fun _ => .pure ()) lines

theorem keeps_countCall (typeName : String) (action : Action) :
    Keeps standing (countCall typeName action : EngineM σ Nat) := by
  intro env e
  cases action <;> rfl

theorem keeps_callHere (agent : Agent) (request : DispatchRequest) :
    Keeps standing (callHere agent request : EngineM σ Call) := by
  refine .get_bind fun e => ?_
  simp only
  split
  · exact (keeps_countCall _ _).bind fun _ => .pure _
  · exact .pure _

theorem keeps_call (agent : Agent) (request : DispatchRequest) :
    Keeps standing (call agent request : EngineM σ Call) := by
  refine .get_bind fun e => .read_bind fun env => ?_
  refine Keeps.bind (Keeps.modify fun _ => rfl) fun _ => ?_
  cases (env.reach e.outside e.clock agent request).1 with
  | inProcess => exact keeps_callHere agent request
  | settles after result keepsLogs => exact .pure _

theorem keeps_sendOut (dag : DagId) (batch : Batch) (action : Action) :
    Keeps standing (sendOut dag batch action : EngineM σ (List Call)) :=
  Keeps.bind (.forM (fun _ => keeps_record _ _) _) fun _ => .mapM (fun _ => keeps_call _ _) _

end Stagewise.Engine
