import CellWorld.Number.Binary

/-!
# Scalars

The simulation is written over `[Scalar α]`, so that the definitions that run on `Float` can also be
read over exact numbers.

* `Scalar` — ordered arithmetic, `floorIndex` and `floorNat` for the grid and the clock, and
  `pick word low high` for a place in `[low, high)`
* `Angular` — `Scalar` with `sqrt`, `sin`, `cos`, `atan2` and `turn`, for headings
* `instance : Scalar Float` — `floorIndex` and `floorNat` are computed from the bits of the double
  by way of `Number.Binary`, so they round nothing

The classes hold operations and no laws: a result that needs a law says so in its hypotheses, or is
about `Float` or `ℚ`. Of `Float.sqrt`, `Float.sin`, `Float.cos` and `Float.atan2` nothing is known
here.
-/

namespace CellWorld

/-- Ordered arithmetic with the two roundings that the grid and the clock use. No laws come with
it. -/
class Scalar (α : Type) extends
    Add α, Sub α, Mul α, Div α, Neg α, LT α, LE α, BEq α, OfScientific α where
  decideLt (a b : α) : Decidable (a < b)
  decideLe (a b : α) : Decidable (a ≤ b)
  abs : α → α
  /-- A whole number as a scalar. -/
  ofInt : Int → α
  /-- The greatest index that is not above the scalar, kept on the grid. -/
  floorIndex : α → Int32
  /-- The greatest whole number that is not above the scalar, zero below one. -/
  floorNat : α → Nat
  isFinite : α → Bool
  /-- The point of `[low, high)` that a word of random bits selects. -/
  pick (word : UInt64) (low high : α) : α

class Angular (α : Type) extends Scalar α where
  sqrt : α → α
  sin : α → α
  cos : α → α
  /-- The angle of the direction `(x, y)`, the ordinate first. -/
  atan2 (y x : α) : α
  /-- One full turn. -/
  turn : α

namespace Scalar

variable {α : Type} [Scalar α]

instance (a b : α) : Decidable (a < b) := decideLt a b

instance (a b : α) : Decidable (a ≤ b) := decideLe a b

end Scalar

namespace Number

/-- The whole number `n` kept in `[-2 ^ 31, 2 ^ 31)`. -/
def clampIndex (n : Int) : Int32 :=
  if n < -0x80000000 then Int32.minValue
  else if 0x80000000 ≤ n then Int32.maxValue
  else Int32.ofInt n

/-- The floor of `x` by `clampIndex`. An infinity has the last index of its side, NaN has index
zero. -/
def floorIndex (x : Float) : Int32 :=
  match Binary.ofFloat? x with
  | some b => clampIndex b.floor
  | none => if x < 0 then Int32.minValue else if 0 < x then Int32.maxValue else 0

/-- The floor of `x`, zero where that is negative or `x` is not finite. -/
def floorNat (x : Float) : Nat :=
  match Binary.ofFloat? x with
  | some b => b.floor.toNat
  | none => 0

def abs (x : Float) : Float := Float.ofBits (x.toBits &&& 0x7FFFFFFFFFFFFFFF)

def ofInt (n : Int) : Float :=
  if n < 0 then -(OfScientific.ofScientific n.natAbs false 0 : Float)
  else OfScientific.ofScientific n.natAbs false 0

/-- The upper 52 bits of `word` as a fraction in `[0, 1)`: they become the significand of a double
in `[1, 2)`, and one is taken off. -/
def fraction (word : UInt64) : Float :=
  Float.ofBits ((word >>> 12) ||| 0x3FF0000000000000) - 1.0

end Number

instance : Scalar Float where
  decideLt a b := inferInstanceAs (Decidable (a < b))
  decideLe a b := inferInstanceAs (Decidable (a ≤ b))
  abs := Number.abs
  ofInt := Number.ofInt
  floorIndex := Number.floorIndex
  floorNat := Number.floorNat
  isFinite x := (Number.Binary.ofFloat? x).isSome
  pick word low high := Number.fraction word * (high - low) + low

instance : Angular Float where
  sqrt := Float.sqrt
  sin := Float.sin
  cos := Float.cos
  atan2 := Float.atan2
  turn := 6.283185307179586

end CellWorld
