import Stagewise.Json.Basic
/-!
# Writing document values

The compact text of a value: no blanks, members in their order, and in texts only the quote, the
backslash and the control characters escaped.
-/

namespace Stagewise.Json

/-- A character as it stands between quotes. -/
def escaped (c : Char) : List Char :=
  if c = '"' then ['\\', '"']
  else if c = '\\' then ['\\', '\\']
  else if c = '\x08' then ['\\', 'b']
  else if c = '\x0c' then ['\\', 'f']
  else if c = '\n' then ['\\', 'n']
  else if c = '\r' then ['\\', 'r']
  else if c = '\t' then ['\\', 't']
  else if c.toNat < 0x20 then '\\' :: 'u' :: Text.hexDigits 4 c.toNat
  else [c]

def quoted (s : String) : List Char :=
  '"' :: (s.toList.flatMap escaped ++ ['"'])

mutual

/-- The characters of the compact text of a value. A part that cannot be used is written as null. -/
def written : Json → List Char
  | .null => ['n', 'u', 'l', 'l']
  | .bool true => ['t', 'r', 'u', 'e']
  | .bool false => ['f', 'a', 'l', 's', 'e']
  | .int n => (Text.ofInt n).toList
  | .real x => x.compact.toList
  | .text s => quoted s
  | .list items => '[' :: writtenList items
  | .object members => '\x7b' :: writtenMembers members
  | .unreadable => ['n', 'u', 'l', 'l']

def writtenList : List Json → List Char
  | [] => [']']
  | [j] => written j ++ [']']
  | j :: k :: rest => written j ++ ',' :: writtenList (k :: rest)

def writtenMembers : List (String × Json) → List Char
  | [] => ['\x7d']
  | [(k, v)] => quoted k ++ ':' :: (written v ++ ['\x7d'])
  | (k, v) :: m :: rest => quoted k ++ ':' :: (written v ++ ',' :: writtenMembers (m :: rest))

end

def compact (j : Json) : String := String.ofList j.written

end Stagewise.Json
