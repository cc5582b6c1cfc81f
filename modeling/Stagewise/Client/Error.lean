import Stagewise.Api.Refusal
import Stagewise.Http.Message
/-!
# Errors of a client

What can go wrong between a client and an agent, with the wording of each, and which of it may mend
by itself.
-/

namespace Stagewise

/-- Why an exchange with an agent came to nothing. -/
inductive ExchangeFailure where
  | unsent (url : String)
  | undecodable
  deriving DecidableEq, Repr

def ExchangeFailure.message : ExchangeFailure → String
  | .unsent url => s!"error sending request for url ({url})"
  | .undecodable => "error decoding response body"

/-- What a client fails at. -/
inductive ClientError where
  | http (failure : ExchangeFailure)
  | api (status : Nat) (message : String) (details : Option String)
  | config (message : String)
  | json (message : String)
  | timeout
  | notFound (message : String)
  | invalidInput (message : String)
  | invalidUrl (message : String)
  | dagFailed (dag node : String) (task : Option String)
  | waitTimeout (message : String)
  deriving DecidableEq, Repr

namespace ClientError

/-- The wording of an error. -/
def message : ClientError → String
  | .http failure => s!"HTTP error: {failure.message}"
  | .api status text _ => s!"API error (status {toString status}): {text}"
  | .config text => s!"Configuration error: {text}"
  | .json text => s!"JSON error: {text}"
  | .timeout => "Request timed out"
  | .notFound text => s!"Resource not found: {text}"
  | .invalidInput text => s!"Invalid input: {text}"
  | .invalidUrl text => s!"Invalid URL: {text}"
  | .dagFailed dag node _ => s!"Sorry, task '{dag}' failed at stage '{node}'"
  | .waitTimeout text => s!"Timed out waiting: {text}"

def failure (e : ClientError) : Failure :=
  match e with
  | .http f => ⟨e.message, [f.message]⟩
  | .json text | .invalidUrl text => ⟨e.message, [text]⟩
  | _ => .of e.message

/-- Failures of transport, and answers that say that the agent is busy or unwell, may mend by
themselves. -/
def isRetryable : ClientError → Bool
  | .http _ | .timeout => true
  | .api status _ _ => 500 ≤ status || status == 429
  | _ => false

/-- The error that an answer without success stands for. A body that is no refusal is the message
itself. -/
def ofResponse (r : Http.Response) : ClientError :=
  let refusal : Refusal := (Document.readText? r.body).getD ⟨r.body, none⟩
  if r.status = 404 then .notFound refusal.error else .api r.status refusal.error refusal.details

end ClientError

/-- How often a client reads again after a failure that may mend, and how long it waits before
that. -/
structure RetryPolicy where
  maxRetries : Nat
  backoffMs : Nat
  deriving DecidableEq, Repr, Inhabited

namespace RetryPolicy

/-- Two more reads, half a second apart. -/
def standard : RetryPolicy := ⟨2, 500⟩

def never : RetryPolicy := { standard with maxRetries := 0 }

/-- Whether a read that failed after so many retries goes out again. -/
def permits (p : RetryPolicy) (attempt : Nat) (e : ClientError) : Bool :=
  attempt < p.maxRetries && e.isRetryable

end RetryPolicy

end Stagewise
