import Stagewise.Http.Url
/-!
# Credentials in an address

Name and password of an address are not sent as a part of it but in a header, as bytes written in 64
characters.
-/

namespace Stagewise.Http

def sextetChars : List Char :=
  "ABCDEFGHIJKLMNOPQRSTUVWXYZabcdefghijklmnopqrstuvwxyz0123456789+/".toList

def sextetChar (n : Nat) : Char := sextetChars[n % 64]?.getD '='

/-- Bytes written three by three as four characters, filled up with equals signs. -/
def base64 : List UInt8 → List Char
  | a :: b :: c :: rest =>
    let n := (a.toNat * 256 + b.toNat) * 256 + c.toNat
    sextetChar (n / 262144) :: sextetChar (n / 4096) :: sextetChar (n / 64) ::
      sextetChar n :: base64 rest
  | [a, b] =>
    let n := (a.toNat * 256 + b.toNat) * 4
    [sextetChar (n / 4096), sextetChar (n / 64), sextetChar n, '=']
  | [a] =>
    let n := a.toNat * 16
    [sextetChar (n / 64), sextetChar n, '=', '=']
  | [] => []

namespace Url

/-- Name and password of an address, if it has any. -/
def credentials? (u : Url) : Option (String × String) :=
  if u.host.isNone || (u.username.isEmpty && u.password.isEmpty) then none
  else
    match textOfBytes? (percentDecoded u.username.toList) with
    | some name => some (name, (textOfBytes? (percentDecoded u.password.toList)).getD "")
    | none => none

/-- The value of the header that shows name and password. -/
def authorization? (u : Url) : Option String :=
  u.credentials?.map fun (name, password) =>
    "Basic " ++ String.ofList (base64 (bytesOf (name ++ ":" ++ password)))

end Url

end Stagewise.Http
