import Stagewise.Api.Call
import Stagewise.Client.Error
import Stagewise.Http.Credentials
/-!
# Clients

A client knows an agent by its address and shows its token with every request. What lies between the
two, a wire, carries one request at a time and may lose it. A failed read goes out again as long as
the failure may mend and the policy allows it; a call that changes something goes out exactly once.
-/

namespace Stagewise

/-- What becomes of a request on a wire. -/
inductive Reply where
  | arrived (response : Http.Response)
  | unreachable
  | late
  deriving DecidableEq, Repr, Inhabited

/-- Carries a request to an address and waits for the reply, at most so many milliseconds; and lets
time pass. -/
structure Wire (m : Type → Type) where
  exchange : Http.Url → Http.Request → (timeoutMs : Nat) → m Reply
  pause : (ms : Nat) → m Unit

/-- A client of one agent. -/
structure Client where
  base : Http.Url
  token : Option String
  timeoutMs : Nat
  retries : RetryPolicy
  deriving DecidableEq, Repr

namespace Client

/-- How long a client waits for a reply unless it is told otherwise. -/
def standardTimeoutMs : Nat := 30000

def authorization (token : String) : String := "Bearer " ++ token

def check (c : Client) : Except ClientError Client :=
  match c.token with
  | some token =>
    if Http.isHeaderValue (authorization token) then .ok c
    else .error (.config "Invalid token format")
  | none => .ok c

def address (r : Except Http.UrlError Http.Url) : Except ClientError Http.Url :=
  r.mapError fun e => .invalidUrl e.message

def build (base token : Option String) (timeoutMs : Nat) (retries : RetryPolicy) :
    Except ClientError Client := do
  match base with
  | none => throw (.config "base_url is required")
  | some base =>
    let base ← address (Http.Url.parse base)
    check ⟨base, token, timeoutMs, retries⟩

/-- A client with the standard settings. -/
def fresh (base : Http.Url) : Client := ⟨base, none, standardTimeoutMs, .standard⟩

def forAgent (c : Client) (a : Agent) : Except ClientError Client := do
  let base ← address (Http.Url.parse a.baseUrl)
  check { c with base }

def withoutRetries (c : Client) : Client := { c with retries := .never }

/-- The request of a call and the address that it goes to. Credentials in the address go before the
token. -/
def requestFor {α : Type} (c : Client) (call : ApiCall α) :
    Except ClientError (Http.Url × Http.Request) := do
  let url ← address (c.base.at' call.path)
  let shown := (url.authorization? <|> c.token.map authorization).toList.map fun value =>
    ("authorization", value)
  let typed := if call.isRead then [] else [("content-type", "application/json")]
  return ({ url with query := call.query },
    { method := if call.isRead then "GET" else "POST", path := url.pathText, query := call.query,
      headers := shown ++ typed, body := (call.body.map Json.compact).getD "" })

/-- What a reply to a request at an address comes to. -/
def received (url : Http.Url) : Reply → Except ClientError Http.Response
  | .arrived r => if Http.isSuccess r.status then .ok r else .error (.ofResponse r)
  | .unreachable => .error (.http (.unsent url.shown))
  | .late => .error .timeout

def answerIn {α : Type} (call : ApiCall α) (r : Http.Response) : Except ClientError α :=
  match (Json.read? r.body).map call.decode with
  | some (.ok a) => .ok a
  | _ => .error (.http .undecodable)

variable {m : Type → Type} [Monad m]

def send (w : Wire m) (c : Client) (url : Http.Url) (r : Http.Request) :
    m (Except ClientError Http.Response) := do
  return received url (← w.exchange url r c.timeoutMs)

/-- Sends a request and, after failures that may mend, at most `left` times again. -/
def sendRepeatedly (w : Wire m) (c : Client) (url : Http.Url) (r : Http.Request) :
    (left : Nat) → m (Except ClientError Http.Response)
  | 0 => send w c url r
  | left + 1 => do
    match ← send w c url r with
    | .ok response => return .ok response
    | .error e =>
      if e.isRetryable then
        w.pause c.retries.backoffMs
        sendRepeatedly w c url r left
      else return .error e

/-- Makes a call. A body that cannot be read is no reason to send a request again. -/
def perform {α : Type} (w : Wire m) (c : Client) (call : ApiCall α) : m (Except ClientError α) := do
  match c.requestFor call with
  | .error e => return .error e
  | .ok (url, r) =>
    let response ←
      if call.isRead then sendRepeatedly w c url r c.retries.maxRetries else send w c url r
    return response.bind (answerIn call)

end Client

end Stagewise
