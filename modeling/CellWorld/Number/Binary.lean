/-!
# Binary fractions

A finite double is a whole number times a power of two. Reading it off the bits gives every later
computation (the index of a cell, the digits of a number's text) exact integers to work on.

* `Binary` — the value `± magnitude · 2 ^ exponent`
* `Binary.ofFloat? x` — the value of a double, none for NaN and the infinities
* `Binary.floor b` — the greatest integer that is not above `b`
* `roundDiv num den tie` — `num / den` rounded to the nearest whole number, ties as `tie` says
* `nearest num den` — the double nearest to `num / den`, the even one of two, an infinity beyond the
  largest

That arithmetic on doubles rounds the same way is not here: `Proofs.Rounding` and `Proofs.Doubles`
relate the operations of `Float` to exact values.
-/

namespace CellWorld.Number

/-- The value `± magnitude * 2 ^ exponent`. -/
structure Binary where
  negative : Bool
  magnitude : Nat
  exponent : Int
deriving DecidableEq

namespace Binary

/-- Reads the sign, the biased exponent and the fraction off `x.toBits`; the exponent `2047` is that
of NaN and the infinities. -/
def ofFloat? (x : Float) : Option Binary :=
  let bits := x.toBits.toNat
  let biased : Nat := bits / 0x10000000000000 % 0x800
  let fraction : Nat := bits % 0x10000000000000
  let negative := bits / 0x8000000000000000 == 1
  if biased = 2047 then none
  else if biased = 0 then some ⟨negative, fraction, -1074⟩
  else some ⟨negative, 0x10000000000000 + fraction, (biased : Int) - 1075⟩

def signed (b : Binary) : Int :=
  if b.negative then -(b.magnitude : Int) else b.magnitude

/-- The greatest integer that is not above the value; a negative exponent shifts bits out, which
rounds down. -/
def floor (b : Binary) : Int :=
  if 0 ≤ b.exponent then b.signed * Nat.pow 2 b.exponent.toNat
  else b.signed >>> (-b.exponent).toNat

/-- The gap to the next smaller magnitude is half the gap to the next larger one: so at a power of
two, except at the smallest normal double. -/
def narrowBelow (b : Binary) : Bool :=
  b.magnitude == 0x10000000000000 && decide (-1074 < b.exponent)

end Binary

/-! ### Rounding -/

/-- Which of two equally near candidates is taken. -/
inductive Tie where
  | toEven
  | up
deriving DecidableEq

/-- The quotient `num / den` rounded to the nearest whole number. -/
def roundDiv (num den : Nat) (tie : Tie) : Nat :=
  let q := num / den
  match compare (2 * (num % den)) den, tie with
  | .lt, _ => q
  | .gt, _ => q + 1
  | .eq, .up => q + 1
  | .eq, .toEven => if q % 2 == 0 then q else q + 1

/-- The exponent `e` of the leading bit: `2 ^ e ≤ num / den < 2 ^ (e + 1)`. -/
def leadingBit (num den : Nat) : Int :=
  let e : Int := num.log2 - den.log2
  if num * Nat.pow 2 (-e).toNat < den * Nat.pow 2 e.toNat then e - 1 else e

/-- The double nearest to `num / den`. The bits of a double count up in steps of the last place, so
a magnitude that rounding has carried into the next power of two needs no care. -/
def nearest (num den : Nat) : Float :=
  if num = 0 then 0.0
  else
    let q := max (leadingBit num den - 52) (-1074)
    let magnitude := roundDiv (num * Nat.pow 2 (-q).toNat) (den * Nat.pow 2 q.toNat) .toEven
    let bits := (q + 1074).toNat * 0x10000000000000 + magnitude
    Float.ofBits (UInt64.ofNat (min bits 0x7FF0000000000000))

end CellWorld.Number
