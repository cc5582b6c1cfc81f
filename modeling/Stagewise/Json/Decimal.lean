import Stagewise.Text.Digits
/-!
# Binary fractions in decimal

A fraction is kept as the shortest decimal that reads back as the same double-precision number.
`Decimal.ofScaled?` rounds a decimal to the nearest such number, and gives the shortest decimal of
the result; everything is exact arithmetic on natural numbers.
-/

namespace Stagewise

/-- The number `±digits · 10 ^ exponent`. -/
structure Decimal where
  negative : Bool
  digits : Nat
  exponent : Int
  deriving DecidableEq, Repr, Inhabited

namespace Decimal

/-- `n / d` to the nearest integer, a half going to the even neighbour. -/
def roundDiv (n d : Nat) : Nat :=
  let q := n / d
  let r := n % d
  if 2 * r < d then q
  else if d < 2 * r then q + 1
  else if q % 2 = 0 then q else q + 1

/-- A double-precision magnitude `significand · 2 ^ power`. -/
structure Double where
  significand : Nat
  power : Int
  deriving DecidableEq, Repr

/-- `m · b ^ e` as a fraction of natural numbers. -/
def scale (b m : Nat) (e : Int) : Nat × Nat :=
  if e < 0 then (m, Nat.pow b e.natAbs) else (m * Nat.pow b e.natAbs, 1)

/-- The double nearest to `n / d`, or nothing if it is too large. -/
def Double.nearest? (n d : Nat) : Option Double :=
  let guess : Int := (n.log2 : Int) - (d.log2 : Int) - 53
  let fits (power : Int) : Bool :=
    let (p, q) := scale 2 1 power
    n * q < d * p * Nat.pow 2 53
  let power := if fits guess then guess else if fits (guess + 1) then guess + 1 else guess + 2
  let power := if power < -1074 then -1074 else power
  let (p, q) := scale 2 1 power
  let significand := roundDiv (n * q) (d * p)
  let x : Double :=
    if significand = Nat.pow 2 53 then ⟨Nat.pow 2 52, power + 1⟩ else ⟨significand, power⟩
  if x.power > 971 then none else some x

/-- Takes the zeros off the end of a number, counting them in the exponent. -/
def stripZeros : (fuel digits : Nat) → (exponent : Int) → Nat × Int
  | 0, ds, e => (ds, e)
  | fuel + 1, ds, e => if ds ≠ 0 ∧ ds % 10 = 0 then stripZeros fuel (ds / 10) (e + 1) else (ds, e)

/-- The digits and exponent of the shortest decimal that rounds to a double; of two such, the nearer
one. -/
def Double.shortest (x : Double) : Nat × Int :=
  if x.significand = 0 then (0, 0)
  else
    let (p, q) := scale 2 1 (x.power - 2)
    let v := 4 * x.significand * p
    let below := if x.significand = Nat.pow 2 52 ∧ x.power > -1074 then 1 else 2
    let lo := (4 * x.significand - below) * p
    let hi := (4 * x.significand + 2) * p
    let closed := x.significand % 2 = 0
    let magnitude : Int := ((Nat.toDigits 10 (v / q)).length : Int)
    let magnitude :=
      if v / q = 0 then
        (List.range 330).foldl
          (fun (m : Int) (i : Nat) => if v * Nat.pow 10 i < q then -(i : Int) else m) 0
      else magnitude
    let hit (c : Nat) (e : Int) : Bool :=
      let (a, b) := scale 10 c e
      let (l, c', h) := (lo * b, a * q, hi * b)
      if closed then l ≤ c' && c' ≤ h else l < c' && c' < h
    let withDigits (n : Nat) : Option (Nat × Int) :=
      let e : Int := magnitude - n
      let (a, b) := scale 10 1 e
      let c := (v * b) / (q * a)
      match hit c e, hit (c + 1) e with
      | true, true => if 2 * (v * b) ≤ (2 * c + 1) * (q * a) then some (c, e) else some (c + 1, e)
      | true, false => some (c, e)
      | false, true => some (c + 1, e)
      | false, false => none
    match (List.range 17).findSome? (fun i => withDigits (i + 1)) with
    | some (ds, e) => stripZeros 20 ds e
    | none => (0, 0)

/-- The decimal kept for `±digits · 10 ^ exponent`, or nothing if its magnitude is beyond the
doubles. -/
def ofScaled? (negative : Bool) (digits : Nat) (exponent : Int) : Option Decimal :=
  let size : Int := (Nat.toDigits 10 digits).length + exponent
  if digits = 0 ∨ size < -340 then some ⟨negative, 0, 0⟩
  else if size > 320 then none
  else
    let (n, d) := scale 10 digits exponent
    (Double.nearest? n d).map fun x =>
      let (ds, e) := x.shortest
      ⟨negative, ds, e⟩

/-- Written with every digit in its place and at least one behind the point. -/
def positional (x : Decimal) : String :=
  let ds := Nat.toDigits 10 x.digits
  let body : List Char :=
    if 0 ≤ x.exponent then ds ++ List.replicate x.exponent.natAbs '0' ++ ['.', '0']
    else
      let places := x.exponent.natAbs
      let ds := List.replicate (places + 1 - ds.length) '0' ++ ds
      ds.take (ds.length - places) ++ '.' :: ds.drop (ds.length - places)
  String.ofList (if x.negative then '-' :: body else body)

/-- Written with every digit in its place when the point falls at most sixteen places behind the
first digit and less than five before it, and otherwise with an exponent. -/
def compact (x : Decimal) : String :=
  let ds := Nat.toDigits 10 x.digits
  let point : Int := ds.length + x.exponent
  if x.digits = 0 ∨ (-5 < point ∧ point ≤ 16) then x.positional
  else
    let body := match ds with
      | [] => []
      | d :: [] => [d]
      | d :: rest => d :: '.' :: rest
    let e := Text.ofInt (point - 1)
    (if x.negative then "-" else "") ++ String.ofList body ++ "e" ++ e

end Decimal

end Stagewise
