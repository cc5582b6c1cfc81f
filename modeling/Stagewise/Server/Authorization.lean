import Stagewise.Http.Message
/-!
# Authorization

Agents and clients share one token. A request carries it in its first authorization header behind
the word `Bearer` and a blank. An agent without a token lets every request through.
-/

namespace Stagewise.Server

def withoutHead? (head : String) (s : String) : Option String :=
  let cs := s.toList
  if head.toList.isPrefixOf cs then some (String.ofList (cs.drop head.length)) else none

/-- The token that a request carries. A header that holds anything but plain characters carries
none. -/
def bearer? (headers : Http.Headers) : Option String := do
  let value ← headers.first? "Authorization"
  if Http.isPlainValue value then withoutHead? "Bearer " value else none

def isAuthorized (token : Option String) (headers : Http.Headers) : Bool :=
  match token with
  | some token => bearer? headers == some token
  | none => true

end Stagewise.Server
