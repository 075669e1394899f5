import CellWorld.Bots.Density
import CellWorld.Proofs.Nearest

/-!
# The edges of a cell

The near edge of the cells with index `n` is `ofInt n * size`, and the far edge
`(ofInt n + 1.0) * size`, in doubles. The product is rounded, so two edges may have moved closer
together, and an edge may be beyond the largest double.

* `RoundsTo.near_multiple` — for `|n| ≤ 2 ^ 31` the multiple `n * q` is rounded by less than `q / 4`
* `RoundsTo.apart`, `RoundsTo.width_le` — neighbouring edges do not meet, and are not farther apart
  than the farther one is from zero
* `room_between` — between finite edges, `nearEdge < farEdge` and the difference is finite
* `edges_finite`, `farEdge_infinite`, `widest` — all edges of the grid are finite for a size below
  `2 ^ 993`, and for no size from there on

Indices are those of the grid, `-2 ^ 31 ≤ n < 2 ^ 31`; for larger ones `near_multiple` fails.
-/

namespace CellWorld

namespace Number

variable {r : ℚ}

/-! ### Neighbouring multiples -/

/-- An index has 32 bits and a mantissa 53, so the step at `n * q` is small against `q`. -/
theorem RoundsTo.near_multiple {q : ℚ} (pos : 0 < q) {k : Int}
    (multiple : q = k * 2 ^ (-1074 : Int)) {n : Int} (small : |n| ≤ 2 ^ 31)
    (h : RoundsTo (n * q) r) : |n * q - r| < q / 4 := by
  have whole : (n : ℚ) * q = (n * k : Int) * 2 ^ (-1074 : Int) := by
    rw [multiple, Int.cast_mul, mul_assoc]
  have close := h.close whole
  have size : |(n : ℚ) * q| ≤ 2 ^ 31 * q := by
    rw [abs_mul, abs_of_pos pos]
    exact mul_le_mul_of_nonneg_right (by exact_mod_cast small) pos.le
  linarith

/-- The two errors are below `q / 4` each, so `r < r'`. -/
theorem RoundsTo.apart {q r r' : ℚ} (pos : 0 < q) {k : Int} (multiple : q = k * 2 ^ (-1074 : Int))
    {n : Int} (low : -2 ^ 31 ≤ n) (high : n < 2 ^ 31) (h : RoundsTo (n * q) r)
    (h' : RoundsTo ((n + 1 : Int) * q) r') : r < r' := by
  have near := h.near_multiple pos multiple (abs_le.mpr (by omega))
  have near' := h'.near_multiple pos multiple (abs_le.mpr (by omega))
  push_cast at near'
  have above := (abs_lt.mp near).1
  have below := (abs_lt.mp near').2
  linarith

/-- Both `n * q` and `(n + 1) * q` are on one side of zero. -/
theorem RoundsTo.width_le {q r r' top : ℚ} (pos : 0 < q) {n : Int} (h : RoundsTo (n * q) r)
    (h' : RoundsTo ((n + 1 : Int) * q) r') (less : r < r') (le : |r| ≤ top) (le' : |r'| ≤ top) :
    |r' - r| ≤ top := by
  -- the size itself may be the largest double, so a bound by the size would not do
  rw [abs_of_pos (sub_pos.mpr less)]
  rcases Int.lt_or_le n 0 with negative | whole
  · have near : r' ≤ 0 :=
      h'.nonpos (mul_nonpos_of_nonpos_of_nonneg (by exact_mod_cast negative) pos.le)
    have := neg_le_abs r
    linarith
  · have near : 0 ≤ r := h.nonneg (mul_nonneg (by exact_mod_cast whole) pos.le)
    have := le_abs_self r'
    linarith

/-! ### The edges of one row -/

/-- The lower edge of the cells with index `n` on one axis. -/
def nearEdge (size : Float) (n : Int) : Float := Number.ofInt n * size

/-- The upper edge, computed as in `Bounds.ofCell`. -/
def farEdge (size : Float) (n : Int) : Float := (Number.ofInt n + 1.0) * size

section Row

variable {size : Float} {q : ℚ} (hq : value? size = some q) {n : Int} (low : -2 ^ 31 ≤ n)
  (high : n < 2 ^ 31)

include hq low high

/-- The near edge is the rounded `n * q`. -/
theorem comesTo_nearEdge : ComesTo (nearEdge size n) (n * q) :=
  comesTo_mul (value?_ofInt (abs_lt.mpr (by omega))) hq

/-- The far edge is the rounded `(n + 1) * q`: the sum before the product is exact. -/
theorem comesTo_farEdge : ComesTo (farEdge size n) ((n + 1 : Int) * q) :=
  comesTo_mul (value?_ofInt_succ (abs_lt.mpr (by omega))) hq

/-- For a size of at most `(2 ^ 53 - 1) * 2 ^ 940`, the last double below `2 ^ 993`, both edges are
finite. -/
theorem edges_finite (le : |q| ≤ (2 ^ 53 - 1) * 2 ^ (940 : Int)) :
    (Binary.ofFloat? (nearEdge size n)).isSome = true ∧
      (Binary.ofFloat? (farEdge size n)).isSome = true := by
  have top : (2 : ℚ) ^ 31 * ((2 ^ 53 - 1) * 2 ^ (940 : Int)) = largest := by
    have split : (2 : ℚ) ^ (971 : Int) = 2 ^ (31 : Int) * 2 ^ (940 : Int) := two_zpow_add 31 940
    have indices : (2 : ℚ) ^ (31 : Int) = 2 ^ 31 := zpow_natCast 2 31
    rw [largest, split, indices, mul_left_comm]
  have within {k : Int} (small : |k| ≤ 2 ^ 31) : |(k : ℚ) * q| ≤ largest := by
    rw [abs_mul, ← top]
    exact mul_le_mul (by exact_mod_cast small) le (abs_nonneg q) (by norm_num)
  exact ⟨(comesTo_nearEdge hq low high).finite (within (abs_le.mpr (by omega))),
    (comesTo_farEdge hq low high).finite (within (abs_le.mpr (by omega)))⟩

/-- Finite edges are in order, and their difference is finite. -/
theorem room_between (pos : 0 < q) (near : (Binary.ofFloat? (nearEdge size n)).isSome = true)
    (far : (Binary.ofFloat? (farEdge size n)).isSome = true) :
    nearEdge size n < farEdge size n ∧
      (Binary.ofFloat? (farEdge size n - nearEdge size n)).isSome = true := by
  obtain ⟨b, normal, -, rfl⟩ := exists_of_value? hq
  obtain ⟨k, multiple⟩ := normal.multiple
  obtain ⟨p, hp⟩ := (isSome_iff_value _).mp near
  obtain ⟨p', hp'⟩ := (isSome_iff_value _).mp far
  have rounds := (comesTo_nearEdge hq low high).roundsTo hp
  have rounds' := (comesTo_farEdge hq low high).roundsTo hp'
  have less : p < p' := rounds.apart pos multiple low high rounds'
  have width := rounds.width_le pos rounds' less (abs_value_le hp) (abs_value_le hp')
  exact ⟨(lt_iff_value hp hp').mpr less, (comesTo_sub hp' hp).finite width⟩

end Row

/-- For a size of `2 ^ 993` or more the far edge of the last index is not finite. -/
theorem farEdge_infinite {size : Float} {q : ℚ} (hq : value? size = some q)
    (large : 2 ^ (993 : Int) ≤ q) :
    ¬(Binary.ofFloat? (farEdge size (2 ^ 31 - 1))).isSome = true := by
  refine (comesTo_farEdge hq (by norm_num) (by norm_num)).infinite ?_
  have split : (2 : ℚ) ^ 1024 = 2 ^ 31 * 2 ^ 993 := pow_add 2 31 993
  have whole : ((2 ^ 31 - 1 + 1 : Int) : ℚ) = 2 ^ 31 := by norm_num
  have large' : (2 : ℚ) ^ 993 ≤ |q| := by
    rw [← zpow_natCast]
    exact large.trans (le_abs_self q)
  rw [whole, abs_mul, abs_of_pos (by norm_num), split]
  exact mul_le_mul_of_nonneg_left large' (by norm_num)

/-- The bound `2 ^ 993` as a double. -/
def widest : Float := 8.371160993642713e298

theorem value?_widest : value? widest = some (2 ^ (993 : Int)) := by
  have read : Binary.ofFloat? widest = some ⟨false, 2 ^ 52, 941⟩ := by decide +kernel
  have split : (2 : ℚ) ^ (993 : Int) = 2 ^ (52 : Int) * 2 ^ (941 : Int) := two_zpow_add 52 941
  rw [value?, read, Option.map_some, Binary.value_of_positive rfl, Binary.size, split, zpow_ofNat]
  exact congrArg (fun m : ℚ => some (m * 2 ^ (941 : Int))) (by norm_num)

end Number

end CellWorld
