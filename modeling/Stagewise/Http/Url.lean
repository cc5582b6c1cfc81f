import Stagewise.Http.Host
/-!
# Addresses on the web

An address is read into its parts and written from them, so that two spellings of one address have
one written form: small letters in scheme and host, no port where it goes without saying, no `.` and
`..` in the path.
-/

namespace Stagewise.Http

/-- The path of an address: segments behind slashes, or a text that the scheme itself has to make
sense of. -/
inductive UrlPath where
  | segments (names : List String)
  | opaqueText (text : String)
  deriving DecidableEq, Repr

/-- An address on the web. An empty password is none. -/
structure Url where
  scheme : String
  username : String
  password : String
  host : Option Host
  port : Option Nat
  path : UrlPath
  query : Option String
  fragment : Option String
  deriving DecidableEq, Repr

namespace Url

/-- Schemes of addresses whose hosts the web knows, with the ports that go without saying. -/
def specialSchemes : List (String × Option Nat) :=
  [("http", some 80), ("https", some 443), ("ws", some 80), ("wss", some 443), ("ftp", some 21),
   ("file", none)]

def isSpecial (scheme : String) : Bool := (specialSchemes.lookup scheme).isSome

def fragmentSet : List Char := [' ', '"', '<', '>', '`']

def querySet (special : Bool) : List Char :=
  [' ', '"', '#', '<', '>'] ++ if special then ['\''] else []

def pathSet : List Char := fragmentSet ++ ['#', '?', '\x7b', '\x7d']

/-- What has to be encoded in a name or password. -/
def userinfoSet : List Char := pathSet ++ ['/', ':', ';', '=', '@', '[', '\\', ']', '^', '|']

def pathText (u : Url) : String :=
  match u.path with
  | .opaqueText s => s
  | .segments names =>
    let body := String.join (names.map ("/" ++ ·))
    if u.host.isNone && u.scheme != "file" && names.head? == some "" && 1 < names.length then
      "/." ++ body
    else body

/-- Name and password as they stand in front of the host. -/
def userinfoText (u : Url) : String :=
  if u.username.isEmpty && u.password.isEmpty then ""
  else u.username ++ (if u.password.isEmpty then "" else ":" ++ u.password) ++ "@"

/-- The written form of an address. -/
def text (u : Url) : String :=
  let authority := match u.host with
    | some host => "//" ++ u.userinfoText ++ host.text ++ (match u.port with
      | some port => ":" ++ toString port
      | none => "")
    | none => if u.scheme == "file" then "//" else ""
  u.scheme ++ ":" ++ authority ++ u.pathText
    ++ (match u.query with | some q => "?" ++ q | none => "") ++
    (match u.fragment with | some f => "#" ++ f | none => "")

/-- Whether a segment stands for the place that it is in. -/
def isHere (segment : String) : Bool := [".", "%2e", "%2E"].contains segment

def isAbove (segment : String) : Bool :=
  let s := segment.toList.map Char.toLower
  ["..", ".%2e", "%2e.", "%2e%2e"].any fun t => s == t.toList

/-- The segments that segments come to, which may stand for the place that they are in or for the
one above. A last one of that kind leaves a slash behind. -/
def walked : (taken : List String) → List String → List String
  | taken, [] => taken.reverse
  | taken, s :: rest =>
    let taken :=
      if isAbove s then taken.drop 1
      else if isHere s then taken
      else percentEncoded pathSet s :: taken
    if rest.isEmpty && (isAbove s || isHere s) then ("" :: taken).reverse else walked taken rest

/-- Characters up to the first one of a kind, and those from it on. -/
def cutAt (stop : Char → Bool) (cs : List Char) : List Char × List Char :=
  (cs.takeWhile fun c => !stop c, cs.dropWhile fun c => !stop c)

/-- Characters between the given ones. -/
def splitAt (isMark : Char → Bool) : List Char → List (List Char)
  | [] => [[]]
  | c :: rest =>
    if isMark c then [] :: splitAt isMark rest
    else match splitAt isMark rest with
      | first :: others => (c :: first) :: others
      | [] => [[c]]

def isSlash (special : Bool) (c : Char) : Bool := c == '/' || (special && c == '\\')

/-- The path that characters stand for, with or without a slash in front. -/
def pathOf (special : Bool) (cs : List Char) : List String :=
  if cs.isEmpty && !special then []
  else
    let cs := match cs with
      | c :: rest => if isSlash special c then rest else c :: rest
      | [] => []
    walked [] ((splitAt (isSlash special) cs).map String.ofList)

/-- Query and fragment behind a path. -/
def withTail (u : Url) (cs : List Char) : Url :=
  let (front, back) := cutAt (· == '#') cs
  let query := match front with
    | '?' :: q => some (percentEncoded (querySet (isSpecial u.scheme)) (String.ofList q))
    | _ => none
  let fragment := match back with
    | '#' :: f => some (percentEncoded fragmentSet (String.ofList f))
    | _ => none
  { u with query, fragment }

def userinfoOf (cs : List Char) : String × String :=
  let name := cs.takeWhile (· != ':')
  let encoded (cs : List Char) : String := percentEncoded userinfoSet (String.ofList cs)
  (encoded name, encoded ((cs.drop name.length).drop 1))

/-- The characters before the last `@` and those behind it. -/
def splitUserinfo (cs : List Char) : Option (List Char) × List Char :=
  let host := (cs.reverse.takeWhile (· != '@')).reverse
  if host.length = cs.length then (none, cs)
  else (some (cs.take (cs.length - host.length - 1)), host)

/-- The characters of a host and those of the port behind it; colons inside brackets belong to the
host. -/
def splitPort : (inside : Bool) → List Char → List Char × Option (List Char)
  | _, [] => ([], none)
  | inside, c :: rest =>
    if c = ':' ∧ !inside then ([], some rest)
    else
      let (host, port) :=
        splitPort (if c = '[' then true else if c = ']' then false else inside) rest
      (c :: host, port)

/-- The port that digits stand for, if it does not go without saying. -/
def portOf (scheme : String) (cs : List Char) : Except UrlError (Option Nat) :=
  if cs.isEmpty then .ok none
  else
    match Text.natOfDigits? cs with
    | some n =>
      if 65535 < n then .error .invalidPort
      else .ok (if specialSchemes.lookup scheme == some (some n) then none else some n)
    | none => .error .invalidPort

/-- The part of an address behind two slashes. -/
def ofAuthority (scheme : String) (cs : List Char) : Except UrlError Url := do
  let special := isSpecial scheme
  let (authority, rest) := cutAt (fun c => isSlash special c || c == '?' || c == '#') cs
  let (userinfo, hostPort) := splitUserinfo authority
  if hostPort.isEmpty && userinfo.isSome then throw .emptyHost
  let (hostChars, portChars) := splitPort false hostPort
  if hostChars.isEmpty && (special || portChars.isSome) then throw .emptyHost
  let hostText := String.ofList hostChars
  let host ← if special then Host.parse hostText else Host.parseVerbatim hostText
  let port ← portOf scheme (portChars.getD [])
  let (username, password) := userinfoOf (userinfo.getD [])
  let (path, tail) := cutAt (fun c => c == '?' || c == '#') rest
  let u : Url :=
    ⟨scheme, username, password, some host, port, .segments (pathOf special path), none, none⟩
  return u.withTail tail

/-- The part of an address behind `file:`. -/
def ofFile (cs : List Char) : Except UrlError Url := do
  let (hostChars, rest) := match cs with
    | a :: b :: rest =>
      if isSlash true a && isSlash true b then
        cutAt (fun c => isSlash true c || c == '?' || c == '#') rest
      else ([], cs)
    | _ => ([], cs)
  let host ←
    if hostChars.isEmpty then pure none
    else (Host.parse (String.ofList hostChars)).map some
  let host := if host == some (.domain "localhost") then none else host
  let (path, tail) := cutAt (fun c => c == '?' || c == '#') rest
  let u : Url := ⟨"file", "", "", host, none, .segments (pathOf true path), none, none⟩
  return u.withTail tail

/-- The part of an address behind a scheme whose hosts the web does not know. -/
def ofOther (scheme : String) (cs : List Char) : Except UrlError Url :=
  match cs with
  | '/' :: '/' :: rest => ofAuthority scheme rest
  | cs =>
    let (path, tail) := cutAt (fun c => c == '?' || c == '#') cs
    let path : UrlPath := match path with
      | '/' :: _ => .segments (pathOf false path)
      | _ => .opaqueText (percentEncoded [] (String.ofList path))
    let u : Url := ⟨scheme, "", "", none, none, path, none, none⟩
    .ok (u.withTail tail)

/-- The scheme in front of a colon. -/
def splitScheme? (cs : List Char) : Option (String × List Char) :=
  let scheme := cs.takeWhile (· != ':')
  match scheme, cs.drop scheme.length with
  | c :: _, ':' :: rest =>
    if c.isAlpha && scheme.all (fun c => c.isAlphanum || c == '+' || c == '-' || c == '.') then
      some (String.ofList (scheme.map Char.toLower), rest)
    else none
  | _, _ => none

/-- The characters of an address: without blanks and controls around it, and without tabs and ends
of lines. -/
def trimmed (s : String) : List Char :=
  let isOuter (c : Char) : Bool := c.toNat ≤ 32
  let cs := ((s.toList.dropWhile isOuter).reverse.dropWhile isOuter).reverse
  cs.filter fun c => !(c == '\t' || c == '\n' || c == '\r')

/-- Reads an address. -/
def parse (s : String) : Except UrlError Url :=
  match splitScheme? (trimmed s) with
  | none => .error .relative
  | some (scheme, rest) =>
    if scheme == "file" then ofFile rest
    else if isSpecial scheme then ofAuthority scheme (rest.dropWhile (isSlash true))
    else ofOther scheme rest

/-- The address of a path, with a slash in front, at the same place on the web. -/
def at' (u : Url) (path : String) : Except UrlError Url :=
  match u.path with
  | .opaqueText _ => .error .opaquePath
  | .segments _ =>
    .ok { u with
      path := .segments (pathOf (isSpecial u.scheme) path.toList), query := none, fragment := none }

/-- The address without name and password, as it is shown. -/
def shown (u : Url) : String := { u with username := "", password := "" }.text

end Url

end Stagewise.Http
