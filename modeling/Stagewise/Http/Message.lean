/-!
# Requests and responses on the web

The parts of requests and responses that agents and clients look at. The names of headers are
compared without regard to case; the value of a header is a text that stands for its bytes.
-/

namespace Stagewise.Http

/-- Header fields in the order in which they are given. -/
abbrev Headers := List (String × String)

/-- A request as it arrives. -/
structure Request where
  method : String
  path : String
  query : Option String
  headers : Headers
  body : String
  deriving DecidableEq, Repr, Inhabited

/-- A response as it arrives. -/
structure Response where
  status : Nat
  body : String
  deriving DecidableEq, Repr, Inhabited

def lowered (s : String) : String := String.ofList (s.toList.map Char.toLower)

def Headers.first? (headers : Headers) (name : String) : Option String :=
  (headers.find? fun h => lowered h.1 == lowered name).map (·.2)

def Request.target (r : Request) : String :=
  match r.query with
  | some q => r.path ++ "?" ++ q
  | none => r.path

/-- Characters that the value of a header may hold: everything but controls, of which the tab is
allowed. -/
def isValueChar (c : Char) : Bool := c == '\t' || (32 ≤ c.toNat && c.toNat != 127)

/-- Whether a text can be sent as the value of a header. -/
def isHeaderValue (s : String) : Bool := s.toList.all isValueChar

/-- Characters that stand for themselves in the value of a header: visible ones of the first 128,
blank and tab. -/
def isPlainChar (c : Char) : Bool := c == '\t' || (32 ≤ c.toNat && c.toNat < 127)

/-- Whether the value of a header can be read as a text. -/
def isPlainValue (s : String) : Bool := s.toList.all isPlainChar

def isNameChar (c : Char) : Bool :=
  c.isAlphanum || "!#$%&'*+-.^_`|~".toList.contains c

/-- Whether a text can be the name of a header. -/
def isHeaderName (s : String) : Bool := !s.isEmpty && s.toList.all isNameChar

def isSuccess (status : Nat) : Bool := 200 ≤ status && status < 300

end Stagewise.Http
