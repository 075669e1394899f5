import Mathlib.Algebra.Order.Archimedean.Real.Basic
import Mathlib.Data.Rat.Floor
import Mathlib.Data.Rat.Sqrt
import Mathlib.Tactic.Linarith
import CellWorld.Cell.Basic
import CellWorld.Clock
import CellWorld.Random

/-!
# Exact scalars

Where a point lies, how far two points are apart and which cell a point is in are statements about
numbers. They are made about scalars with an embedding `value : α → ℝ` that calculate without
rounding.

* `Exact` — `value` commutes with `+`, `-`, `*`, `/`, `abs`, `ofInt` and literals, and reflects `<`
  and `≤`; `floorIndex a = clampIndex ⌊value a⌋`
* `Span.value_seconds` — `value s.seconds = s.nanos / 10 ^ 9`
* `Bounds.SpansX m`, `Bounds.SpansZ m` — a point over the columns or rows of a square, widened by
  `m` at both ends
* `Bounds.Encloses` — a point inside a square or on its border
* `OnGrid size p` — the quotients `⌊x / size⌋` and `⌊z / size⌋` are indices of 32 bits
* `OnGrid.spansX`, `OnGrid.spansZ` — such a point lies over the column and the row of
  `Cell.containing p size`
* the instance on `ℚ`, on which whole runs can be evaluated

Doubles are no instance: what is proved here holds of them up to rounding, which these modules do
not estimate. Statements that are made about `Float` itself start from `Proofs.Doubles`.
-/

namespace CellWorld

/-- Scalars that stand for real numbers, with an exact arithmetic. -/
class Exact (α : Type) [Scalar α] where
  value : α → ℝ
  value_add (a b : α) : value (a + b) = value a + value b
  value_sub (a b : α) : value (a - b) = value a - value b
  value_mul (a b : α) : value (a * b) = value a * value b
  value_div (a b : α) : value (a / b) = value a / value b
  value_neg (a : α) : value (-a) = -value a
  value_abs (a : α) : value (Scalar.abs a) = |value a|
  value_ofInt (n : Int) : value (Scalar.ofInt n : α) = n
  value_ofScientific (m : Nat) (s : Bool) (e : Nat) :
    value (OfScientific.ofScientific m s e : α) = OfScientific.ofScientific m s e
  lt_iff (a b : α) : a < b ↔ value a < value b
  le_iff (a b : α) : a ≤ b ↔ value a ≤ value b
  floorIndex_eq (a : α) : Scalar.floorIndex a = Number.clampIndex ⌊value a⌋
  /-- What is drawn from a range lies in it. -/
  pick_mem (word : UInt64) (low high : α) : value low < value high →
    value low ≤ value (Scalar.pick word low high) ∧ value (Scalar.pick word low high) < value high

attribute [simp] Exact.value_add Exact.value_sub Exact.value_mul Exact.value_div Exact.value_neg
  Exact.value_abs Exact.value_ofInt Exact.value_ofScientific

open Exact (value)

section Numbers

variable {α : Type} [Scalar α] [Exact α]

theorem Exact.value_zero : value (0.0 : α) = 0 := by
  rw [Exact.value_ofScientific]
  norm_num

theorem Exact.value_one : value (1.0 : α) = 1 := by
  rw [Exact.value_ofScientific]
  norm_num

/-- The number of seconds is the number of nanoseconds by `10 ^ 9`. -/
theorem Span.value_seconds (s : Span) : value (s.seconds : α) = s.nanos / 10 ^ 9 := by
  have parts : (s.nanos : ℝ) =
      1000000000 * (s.nanos / 1000000000 : Nat) + (s.nanos % 1000000000 : Nat) := by
    exact_mod_cast (Nat.div_add_mod s.nanos 1000000000).symm
  unfold seconds
  rw [Exact.value_add, Exact.value_div, Exact.value_ofInt, Exact.value_ofInt,
    Exact.value_ofScientific, Int.cast_natCast, Int.cast_natCast, parts]
  norm_num
  ring

end Numbers

/-! ### Columns and rows -/

section Grid

variable {α : Type} [Scalar α] [Exact α]

namespace Bounds

variable (c : Cell) (size : α)

@[simp] theorem value_minX : value (ofCell c size).minX = c.cx.toInt * value size := by
  simp [ofCell]

@[simp] theorem value_maxX : value (ofCell c size).maxX = (c.cx.toInt + 1) * value size := by
  simp only [ofCell, Exact.value_mul, Exact.value_add, Exact.value_ofInt, Exact.value_ofScientific]
  norm_num

@[simp] theorem value_minZ : value (ofCell c size).minZ = c.cz.toInt * value size := by
  simp [ofCell]

@[simp] theorem value_maxZ : value (ofCell c size).maxZ = (c.cz.toInt + 1) * value size := by
  simp only [ofCell, Exact.value_mul, Exact.value_add, Exact.value_ofInt, Exact.value_ofScientific]
  norm_num

end Bounds

/-- Over the columns of `b`, widened by `m`: `minX - m ≤ x < maxX + m`. -/
def Bounds.SpansX (b : Bounds α) (m : ℝ) (p : Point α) : Prop :=
  value b.minX - m ≤ value p.x ∧ value p.x < value b.maxX + m

/-- Over the rows of `b`, widened by `m`: `minZ - m ≤ z < maxZ + m`. -/
def Bounds.SpansZ (b : Bounds α) (m : ℝ) (p : Point α) : Prop :=
  value b.minZ - m ≤ value p.z ∧ value p.z < value b.maxZ + m

/-- Inside `b` with both edges included, on both axes. -/
structure Bounds.Encloses (b : Bounds α) (p : Point α) : Prop where
  x : value b.minX ≤ value p.x ∧ value p.x ≤ value b.maxX
  z : value b.minZ ≤ value p.z ∧ value p.z ≤ value b.maxZ

theorem Bounds.SpansX.mono {b : Bounds α} {m n : ℝ} {p : Point α} (h : b.SpansX m p) (hmn : m ≤ n) :
    b.SpansX n p :=
  ⟨(sub_le_sub_left hmn _).trans h.1, h.2.trans_le (add_le_add_right hmn _)⟩

theorem Bounds.SpansZ.mono {b : Bounds α} {m n : ℝ} {p : Point α} (h : b.SpansZ m p) (hmn : m ≤ n) :
    b.SpansZ n p :=
  ⟨(sub_le_sub_left hmn _).trans h.1, h.2.trans_le (add_le_add_right hmn _)⟩

/-- The upper edge is excluded from `SpansX`, so a point on it needs `0 < m`. -/
theorem Bounds.Encloses.spans {b : Bounds α} {m : ℝ} {p : Point α} (inside : b.Encloses p)
    (hm : 0 < m) : b.SpansX m p ∧ b.SpansZ m p := by
  obtain ⟨⟨lowX, highX⟩, ⟨lowZ, highZ⟩⟩ := inside
  exact ⟨⟨by linarith, by linarith⟩, ⟨by linarith, by linarith⟩⟩

/-- Column and row of the point have an index, so `Cell.containing` does not saturate. -/
structure OnGrid (size : α) (p : Point α) : Prop where
  column : -0x80000000 ≤ ⌊value p.x / value size⌋ ∧ ⌊value p.x / value size⌋ < 0x80000000
  row : -0x80000000 ≤ ⌊value p.z / value size⌋ ∧ ⌊value p.z / value size⌋ < 0x80000000

/-- Saturation as `max` and `min`. -/
theorem toInt_clampIndex_eq (n : Int) :
    (Number.clampIndex n).toInt = max (-0x80000000) (min n 0x7FFFFFFF) := by
  unfold Number.clampIndex
  split
  · next low =>
    rw [Int32.toInt_minValue]
    omega
  · split
    · next high =>
      rw [Int32.toInt_maxValue]
      omega
    · rw [Int32.toInt_ofInt_of_le (by omega) (by omega)]
      omega

/-- On the grid nothing saturates. -/
theorem toInt_clampIndex {n : Int} (low : -0x80000000 ≤ n) (high : n < 0x80000000) :
    (Number.clampIndex n).toInt = n := by
  rw [toInt_clampIndex_eq]
  omega

/-- The slice of width `s` that `x` falls into. -/
theorem floor_div_eq_iff {x s : ℝ} (hs : 0 < s) (n : Int) :
    ⌊x / s⌋ = n ↔ n * s ≤ x ∧ x < (n + 1) * s := by
  rw [Int.floor_eq_iff, le_div_iff₀ hs, div_lt_iff₀ hs]

namespace OnGrid

variable {size : α} {p : Point α}

theorem toInt_cx (g : OnGrid size p) :
    (Cell.containing p size).cx.toInt = ⌊value p.x / value size⌋ := by
  show (Scalar.floorIndex (p.x / size)).toInt = _
  rw [Exact.floorIndex_eq, Exact.value_div]
  exact toInt_clampIndex g.column.1 g.column.2

theorem toInt_cz (g : OnGrid size p) :
    (Cell.containing p size).cz.toInt = ⌊value p.z / value size⌋ := by
  show (Scalar.floorIndex (p.z / size)).toInt = _
  rw [Exact.floorIndex_eq, Exact.value_div]
  exact toInt_clampIndex g.row.1 g.row.2

/-- A point is over the columns of its cell. -/
theorem spansX (g : OnGrid size p) (hs : 0 < value size) :
    (Bounds.ofCell (Cell.containing p size) size).SpansX 0 p := by
  have slice := (floor_div_eq_iff hs _).mp g.toInt_cx.symm
  rw [Bounds.SpansX, Bounds.value_minX, Bounds.value_maxX, sub_zero, add_zero]
  exact slice

/-- A point is over the rows of its cell. -/
theorem spansZ (g : OnGrid size p) (hs : 0 < value size) :
    (Bounds.ofCell (Cell.containing p size) size).SpansZ 0 p := by
  have slice := (floor_div_eq_iff hs _).mp g.toInt_cz.symm
  rw [Bounds.SpansZ, Bounds.value_minZ, Bounds.value_maxZ, sub_zero, add_zero]
  exact slice

/-- The columns of different cells do not overlap. -/
theorem cx_of_spansX (g : OnGrid size p) (hs : 0 < value size) {c : Cell}
    (h : (Bounds.ofCell c size).SpansX 0 p) : (Cell.containing p size).cx = c.cx := by
  rw [Bounds.SpansX, Bounds.value_minX, Bounds.value_maxX, sub_zero, add_zero] at h
  rw [← Int32.toInt_inj, g.toInt_cx]
  exact (floor_div_eq_iff hs _).mpr h

end OnGrid

end Grid

/-! ### Rational numbers -/

section Rational

/-- The upper 52 bits of a word, as a fraction of `2 ^ 52`. -/
def fraction (word : UInt64) : ℚ := (word >>> 12).toNat / 0x10000000000000

theorem fraction_mem (word : UInt64) : 0 ≤ fraction word ∧ fraction word < 1 := by
  refine ⟨div_nonneg (Nat.cast_nonneg _) (by norm_num), ?_⟩
  rw [fraction, div_lt_one (by norm_num)]
  have bits : (word >>> 12).toNat < 0x10000000000000 := by
    rw [UInt64.toNat_shiftRight, Nat.shiftRight_eq_div_pow]
    have := word.toNat_lt
    exact Nat.div_lt_of_lt_mul this
  exact_mod_cast bits

/-- Rational numbers as scalars. -/
instance : Scalar ℚ where
  decideLt a b := inferInstanceAs (Decidable (a < b))
  decideLe a b := inferInstanceAs (Decidable (a ≤ b))
  abs a := |a|
  ofInt n := n
  floorIndex a := Number.clampIndex ⌊a⌋
  floorNat a := ⌊a⌋.toNat
  isFinite _ := true
  pick word low high := fraction word * (high - low) + low

/-- Square roots are those of squares. All angles are taken for zero, so that runs without bots can
be evaluated. -/
instance : Angular ℚ where
  sqrt := Rat.sqrt
  sin _ := 0
  cos _ := 1
  atan2 _ _ := 0
  turn := 6.283185307179586

instance : Exact ℚ where
  value a := a
  value_add a b := Rat.cast_add a b
  value_sub a b := Rat.cast_sub a b
  value_mul a b := Rat.cast_mul a b
  value_div a b := Rat.cast_div a b
  value_neg a := Rat.cast_neg a
  value_abs a := Rat.cast_abs a
  value_ofInt n := Rat.cast_intCast n
  value_ofScientific m s e := Rat.cast_ofScientific m s e
  lt_iff a b := Rat.cast_lt.symm
  le_iff a b := Rat.cast_le.symm
  floorIndex_eq a := congrArg Number.clampIndex (Rat.floor_cast a).symm
  pick_mem word low high h := by
    obtain ⟨from_zero, below_one⟩ := fraction_mem word
    have width : (0 : ℚ) < high - low := sub_pos.mpr (Rat.cast_lt.mp h)
    constructor
    · rw [Rat.cast_le]
      exact le_add_of_nonneg_left (mul_nonneg from_zero width.le)
    · rw [Rat.cast_lt]
      exact lt_sub_iff_add_lt.mp (mul_lt_of_lt_one_left width below_one)

@[simp] theorem value_rat (a : ℚ) : value a = a := rfl

/-- For rational points `OnGrid` is a condition on rational quotients, which can be computed. -/
theorem onGrid_rat {size : ℚ} {p : Point ℚ}
    (column : -0x80000000 ≤ ⌊p.x / size⌋ ∧ ⌊p.x / size⌋ < 0x80000000)
    (row : -0x80000000 ≤ ⌊p.z / size⌋ ∧ ⌊p.z / size⌋ < 0x80000000) : OnGrid size p where
  column := by rwa [value_rat, value_rat, ← Rat.cast_div, Rat.floor_cast]
  row := by rwa [value_rat, value_rat, ← Rat.cast_div, Rat.floor_cast]

end Rational

end CellWorld
