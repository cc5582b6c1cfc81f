import Stagewise.Proofs.Client.Requests
import Stagewise.Proofs.Server.Exchange
/-!
# Errors that reach a client

An agent answers an error of its engine with a status and a text, and a client makes an error of its
own of the two. The message arrives as it is, whatever characters it holds, and the messages of the
causes behind it in one line. The client tries again exactly when it was the agent that failed.
-/

namespace Stagewise

namespace Refusal

theorem faithful (r : Refusal) : Document.Faithful r := by
  obtain ⟨error, details⟩ := r
  -- without details the member is left out, so the object has another shape
  cases details with
  | none => exact ⟨rfl, rfl⟩
  | some details => exact ⟨rfl, rfl⟩

theorem depth_eq (r : Refusal) : (toJson r).depth = 1 := by
  obtain ⟨error, details⟩ := r
  cases details with
  | none => rfl
  | some details => rfl

theorem survives (r : Refusal) : Document.Survives r := by
  apply r.faithful.survives
  rw [r.depth_eq]
  decide

end Refusal

/-- Messages in one line, if there is anything to say. -/
def oneLine (messages : List String) : Option String :=
  let text := String.intercalate ": " messages
  if text = "" then none else some text

theorem Refusal.of_eq (f : Failure) : Refusal.of f = ⟨f.outer, oneLine f.causes⟩ := by
  simp only [Refusal.of, oneLine, String.isEmpty_iff]

/-- A client reads the refusal of an agent as it was meant. -/
theorem ClientError.ofResponse_refuse (status : Nat) (f : Failure) :
    ClientError.ofResponse (Answer.refuse status f).sent =
      if status = 404 then .notFound f.outer else .api status f.outer (oneLine f.causes) := by
  have hread : Document.readText? (Document.text (Refusal.of f)) = some (Refusal.of f) :=
    (Refusal.of f).survives
  have hbody : (Answer.refuse status f).sent = ⟨status, Document.text (Refusal.of f)⟩ := rfl
  rw [hbody, ClientError.ofResponse]
  simp only [hread, Option.getD_some]
  rw [Refusal.of_eq]

namespace EngineError

/-- The agent knows no such dag or task. -/
def isMissing : EngineError → Bool
  | .dagNotFound _ | .taskNotFound _ => true
  | _ => false

/-- The agent itself failed: a task, the way to another agent, or its store. -/
def isFailure : EngineError → Bool
  | .taskFailed _ | .dispatch .. | .storage _ => true
  | _ => false

theorem status_cases (e : EngineError) :
    (e.isMissing = true ∧ e.isFailure = false ∧ e.status = 404) ∨
      (e.isMissing = false ∧ e.isFailure = true ∧ e.status = 500 ∧ e.isPermanent = false) ∨
      e.isMissing = false ∧ e.isFailure = false ∧ (e.status = 400 ∨ e.status = 409) := by
  cases e <;> simp [isMissing, isFailure, status, isPermanent]

theorem status_eq_iff (e : EngineError) : e.status = 404 ↔ e.isMissing = true := by
  rcases e.status_cases with ⟨hmissing, -, hstatus⟩ | ⟨hmissing, -, hstatus, -⟩ |
    ⟨hmissing, -, hstatus | hstatus⟩ <;> simp [hmissing, hstatus]

/-- What a client makes of the answer to an error. -/
def seen (e : EngineError) : ClientError := ClientError.ofResponse (Answer.ofError e).sent

theorem seen_eq (e : EngineError) :
    e.seen = if e.isMissing then .notFound e.message
      else .api e.status e.message (oneLine e.chain.tail) := by
  rw [seen, Answer.ofError, ClientError.ofResponse_refuse]
  simp only [status_eq_iff, failure]

theorem isRetryable_seen (e : EngineError) : e.seen.isRetryable = e.isFailure := by
  rw [seen_eq]
  rcases e.status_cases with ⟨hmissing, hfailure, -⟩ | ⟨hmissing, hfailure, hstatus, -⟩ |
    ⟨hmissing, hfailure, hstatus | hstatus⟩ <;>
    simp [ClientError.isRetryable, *]

theorem isFailure_of_isPermanent {e : EngineError} (h : e.isPermanent = true) :
    e.isFailure = false := by
  rcases e.status_cases with ⟨-, hfailure, -⟩ | ⟨-, -, -, hpermanent⟩ | ⟨-, hfailure, -⟩
  · exact hfailure
  · rw [hpermanent] at h
    cases h
  · exact hfailure

/-- The answer to an error is not a success, wherever the request went. -/
theorem received_sent (e : EngineError) (url : Http.Url) :
    Client.received url (.arrived (Answer.ofError e).sent) = .error e.seen := by
  have hstatus : Http.isSuccess e.status = false := by cases e <;> rfl
  have hsent : (Answer.ofError e).sent.status = e.status := rfl
  rw [Client.received, hsent, hstatus, if_neg Bool.false_ne_true, seen]

end EngineError

namespace Client

variable {α : Type} {answers : Nat → Reply} {sent : List Sent} {url : Http.Url} {r : Http.Request}

theorem attempts_of_settles (repetitions : Nat) (hsettles : settles url (answers 0) = true) :
    attempts url repetitions answers = 1 := by
  cases repetitions with
  | zero => exact attempts_zero
  | succ repetitions => rw [attempts_succ, if_pos hsettles]

/-- A request that is answered with a failure that will not mend has gone out once. -/
theorem run_perform_lasting (c : Client) (call : ApiCall α) {e : ClientError}
    (hrequest : c.requestFor call = .ok (url, r)) (hlasting : e.isRetryable = false)
    (hreceived : received url (answers sent.length) = .error e) :
    (c.perform (.answering answers) call).run sent = (.error e, sent ++ [(url, r)]) := by
  have hsettles : settles url (answers (sent.length + 0)) = true := by
    rw [Nat.add_zero, settles, hreceived]
    simp only [hlasting, Bool.not_false]
  have honce : c.requestsOf call url (fun i => answers (sent.length + i)) = 1 := by
    rw [requestsOf]
    split
    · exact attempts_of_settles _ hsettles
    · rfl
  rw [run_perform_answering, hrequest]
  simp only [honce, Nat.sub_self, Nat.add_zero, hreceived, List.replicate_one]
  rfl

end Client

theorem Handle.run_fetchRepeatedly_lasting {σ : Type} {w : Wire (StateM σ)} {h : Handle}
    {s s' : σ} {e : ClientError} (hlasting : e.isRetryable = false)
    (honce : (h.fetchOnce w).run s = (.error e, s')) (left : Nat) :
    (h.fetchRepeatedly w left).run s = (.error e, s') := by
  cases left with
  | zero => exact honce
  | succ left =>
    simp only [fetchRepeatedly, run_bind, honce, hlasting, Bool.false_eq_true, if_false, run_pure]

/-- Of an error of the engine a client sees the message and the messages of its causes as they are,
and that something is missing exactly when a dag or a task is. It tries again exactly when the agent
itself failed, so after an error of logic or version neither a read nor a fetch goes out again. -/
theorem EngineError.reaches_client (e : EngineError) :
    e.seen = (if e.isMissing then .notFound e.message
      else .api e.status e.message (oneLine e.chain.tail)) ∧
    (e.seen.isRetryable = true ↔
      (∃ text, e = .taskFailed text) ∨ (∃ agent text, e = .dispatch agent text) ∨
        ∃ failure, e = .storage failure) ∧
    (e.isPermanent = true →
      (∀ (policy : RetryPolicy) (attempt : Nat), policy.permits attempt e.seen = false) ∧
      (∀ {α : Type} (c : Client) (call : ApiCall α) (url : Http.Url) (r : Http.Request)
        (answers : Nat → Reply) (sent : List Sent), c.requestFor call = .ok (url, r) →
        answers sent.length = .arrived (Answer.ofError e).sent →
        (c.perform (.answering answers) call).run sent = (.error e.seen, sent ++ [(url, r)])) ∧
      ∀ {σ : Type} (w : Wire (StateM σ)) (h : Handle) (left : Nat) (s s' : σ),
        (h.fetchOnce w).run s = (.error e.seen, s') →
        (h.fetchRepeatedly w left).run s = (.error e.seen, s')) := by
  refine ⟨e.seen_eq, ?_, fun hpermanent => ?_⟩
  · rw [isRetryable_seen]
    cases e <;> simp [isFailure]
  · have hlasting : e.seen.isRetryable = false :=
      e.isRetryable_seen.trans (isFailure_of_isPermanent hpermanent)
    refine ⟨fun policy attempt => ?_, fun c call url r answers sent hrequest hanswer => ?_,
      fun w h left s s' honce => Handle.run_fetchRepeatedly_lasting hlasting honce left⟩
    · rw [RetryPolicy.permits, hlasting, Bool.and_false]
    · apply Client.run_perform_lasting c call hrequest hlasting
      rw [hanswer, e.received_sent]

end Stagewise
