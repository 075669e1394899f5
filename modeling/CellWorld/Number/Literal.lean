import CellWorld.Number.Binary

/-!
# Number literals

* `Literal` — a number as it was written, `± mantissa · 10 ^ exponent`
* `Literal.parse?` — the strict form that a document admits
* `Literal.toFloat` — the nearest double, an infinity beyond the largest
* `Literal.toInt?` — the whole number, if it was written as one; `-0` was not
* `float?` — the free form that a person may type, with names for the infinities and NaN
* `natural? bits`, `integer? bits` — whole numbers of a range, with an optional sign

A literal keeps no digits: `1.50` and `15e-1` are apart in `mantissa` and `exponent` and equal in
value, and `whole` alone tells `1` from `1.0`.
-/

namespace CellWorld.Number

/-- The number `± mantissa · 10 ^ exponent`. -/
structure Literal where
  negative : Bool
  mantissa : Nat
  exponent : Int
  /-- Written with digits alone: neither a point nor an exponent. -/
  whole : Bool
deriving DecidableEq

/-- The value of a run of decimal digits, by Horner's rule. -/
def digitsValue (cs : List Char) : Nat :=
  cs.foldl (fun n c => 10 * n + (c.toNat - '0'.toNat)) 0

def digitRun (cs : List Char) : List Char × List Char :=
  (cs.takeWhile Char.isDigit, cs.dropWhile Char.isDigit)

namespace Literal

/-- What follows the digits: nothing, or a marked exponent with at least one digit. The outer option
fails, the inner one is empty when there is no exponent. -/
def exponent? : List Char → Option (Option Int)
  | [] => some none
  | c :: cs =>
    if c = 'e' ∨ c = 'E' then
      let (negative, cs) := match cs with
        | '-' :: rest => (true, rest)
        | '+' :: rest => (false, rest)
        | _ => (false, cs)
      let (ds, rest) := digitRun cs
      if ds.isEmpty || !rest.isEmpty then none
      else some (some (if negative then -(digitsValue ds : Int) else digitsValue ds))
    else none

def ofParts (negative : Bool) (before after : List Char) (pointed : Bool) (exponent : Option Int) :
    Literal :=
  { negative
    mantissa := digitsValue (before ++ after)
    exponent := exponent.getD 0 - after.length
    whole := !pointed && exponent.isNone }

/-- Strict form: a minus sign at most, no needless leading zero, digits on both sides of a point. -/
def parse? (cs : List Char) : Option Literal :=
  let (negative, cs) := match cs with
    | '-' :: rest => (true, rest)
    | _ => (false, cs)
  let (before, rest) := digitRun cs
  if before.isEmpty || (before.head? == some '0' && 1 < before.length) then none
  else match rest with
    | '.' :: rest =>
      let (after, rest) := digitRun rest
      if after.isEmpty then none else (exponent? rest).map (ofParts negative before after true)
    | _ => (exponent? rest).map (ofParts negative before [] false)

/-- The nearest double. A literal whose leading digit is beyond `10 ^ 310` or below `10 ^ -330` is
not worked out. -/
def toFloat (l : Literal) : Float :=
  let size := l.exponent + (Nat.toDigits 10 l.mantissa).length
  let x : Float :=
    if l.mantissa = 0 ∨ size < -330 then 0.0
    else if 310 < size then 1.0 / 0.0
    else nearest (l.mantissa * Nat.pow 10 l.exponent.toNat) (Nat.pow 10 (-l.exponent).toNat)
  if l.negative then -x else x

/-- The whole number that was written. A negative zero is no whole number, and neither is anything
with a point or an exponent. -/
def toInt? (l : Literal) : Option Int :=
  if l.whole && !(l.negative && l.mantissa == 0) then
    some (if l.negative then -(l.mantissa : Int) else l.mantissa)
  else none

end Literal

def signRun : List Char → Bool × List Char
  | '-' :: rest => (true, rest)
  | '+' :: rest => (false, rest)
  | cs => (false, cs)

/-- A double in free form: digits on at least one side of the point, or the name of an infinity or
of the undefined value in any case. -/
def float? (cs : List Char) : Option Float :=
  let (negative, cs) := signRun cs
  let name := String.ofList (cs.map Char.toLower)
  if name = "inf" ∨ name = "infinity" then some (if negative then -1.0 / 0.0 else 1.0 / 0.0)
  else if name = "nan" then some (0.0 / 0.0)
  else
    let (before, rest) := digitRun cs
    let (pointed, after, rest) := match rest with
      | '.' :: rest => (true, digitRun rest)
      | _ => (false, [], rest)
    if before.isEmpty && after.isEmpty then none
    else (Literal.exponent? rest).map fun e =>
      (Literal.ofParts negative before after pointed e).toFloat

/-- A whole number below `2 ^ bits`, with an optional plus sign. -/
def natural? (bits : Nat) (cs : List Char) : Option Nat :=
  let cs := match cs with
    | '+' :: rest => rest
    | _ => cs
  let (ds, rest) := digitRun cs
  if ds.isEmpty || !rest.isEmpty then none
  else
    let n := digitsValue ds
    if n < Nat.pow 2 bits then some n else none

/-- A whole number of `[-2 ^ (bits - 1), 2 ^ (bits - 1))`, with an optional sign. -/
def integer? (bits : Nat) (cs : List Char) : Option Int :=
  let (negative, cs) := signRun cs
  let (ds, rest) := digitRun cs
  if ds.isEmpty || !rest.isEmpty then none
  else
    let n : Int := if negative then -(digitsValue ds : Int) else digitsValue ds
    if -(Nat.pow 2 (bits - 1) : Int) ≤ n ∧ n < Nat.pow 2 (bits - 1) then some n else none

end CellWorld.Number
