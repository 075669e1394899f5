import CellWorld.Number.Decimal
import CellWorld.Proofs.Bits

/-!
# Rounding to a double

The double nearest to a quotient is the one whose neighbourhood the quotient lies in: up to the
midpoints to the next doubles, and up to half as far below a power of two, where doubles stand twice
as close.

* `Rounds m u`, `roundDiv_eq` — `|m - u| ≤ 1 / 2` with ties to even; then `roundDiv num den = m` for
  `u = num / den`
* `leadingBit_mem`, `leadingBit_eq` — `2 ^ leadingBit ≤ num / den < 2 ^ (leadingBit + 1)`
* `Binary.Attracts b v` — `v` lies between the midpoints around `b`, and on a midpoint only if the
  magnitude of `b` is even
* `Binary.Attracts.range` — then `2 ^ (-1075) ≤ v < 2 ^ 1024`
* `nearest_eq` — if `b.Attracts (num / den)`, then `nearest num den` is the double of `b`

The function `nearest` is the reader's own rounding, from the value of a literal; that of the
arithmetic is in `Proofs.Packing`.
-/

namespace CellWorld.Number

/-! ### Powers -/

/-- The positive and negative parts of an exponent, as numerator and denominator. -/
theorem zpow_mul_toNat {a : ℚ} (ha : a ≠ 0) (n : Int) : a ^ n * a ^ (-n).toNat = a ^ n.toNat := by
  rcases Int.le_total 0 n with pos | neg
  · have shut : (-n).toNat = 0 := by omega
    rw [shut, pow_zero, mul_one, ← zpow_natCast, Int.toNat_of_nonneg pos]
  · have shut : n.toNat = 0 := by omega
    rw [shut, pow_zero, ← zpow_natCast, Int.toNat_of_nonneg (by omega), ← zpow_add₀ ha,
      Int.add_right_neg, zpow_zero]

/-! ### A quotient rounded to the nearest whole number -/

/-- The number `m` is at most a half away from `u`, and less than a half if it is odd. -/
structure Rounds (m : Nat) (u : ℚ) : Prop where
  low : 2 * m - 1 ≤ 2 * u
  high : 2 * u ≤ 2 * m + 1
  odd : m % 2 = 1 → 2 * m - 1 < 2 * u ∧ 2 * u < 2 * m + 1

/-- If `u = q + f` with `0 ≤ f < 1`, then `m` is `q` or `q + 1`. -/
theorem Rounds.near {m q : Nat} {f : ℚ} (rounds : Rounds m (q + f)) (nonneg : 0 ≤ f)
    (lessOne : f < 1) : m = q ∨ m = q + 1 := by
  have upper : (m : ℚ) < q + 2 := by linarith [rounds.low]
  have lower : (q : ℚ) < m + 1 := by linarith [rounds.high]
  have upper' : m < q + 2 := by exact_mod_cast upper
  have lower' : q < m + 1 := by exact_mod_cast lower
  omega

/-- At a half, `m` is even. -/
theorem Rounds.even {m q : Nat} (rounds : Rounds m (q + 1 / 2)) : m % 2 = 0 := by
  by_contra h
  obtain ⟨above, below⟩ := rounds.odd (by omega)
  rcases rounds.near (by norm_num) (by norm_num) with rfl | rfl
  · linarith
  · push_cast at above
    linarith

theorem cast_div_eq {num den : Nat} (hden : 0 < den) :
    (num / den : ℚ) = ((num / den : Nat) : ℚ) + ((num % den : Nat) : ℚ) / den := by
  have hden' : (den : ℚ) ≠ 0 := by exact_mod_cast Nat.ne_of_gt hden
  have parts : (num : ℚ) = den * ((num / den : Nat) : ℚ) + ((num % den : Nat) : ℚ) := by
    exact_mod_cast (Nat.div_add_mod num den).symm
  rw [div_eq_iff hden', add_mul, div_mul_cancel₀ _ hden', parts]
  ring

/-- If `m` is at most a half away, ties to even, it is what `roundDiv` returns. -/
theorem roundDiv_eq {num den m : Nat} (hden : 0 < den) (rounds : Rounds m (num / den)) :
    roundDiv num den .toEven = m := by
  have hden' : (0 : ℚ) < den := by exact_mod_cast hden
  have rest := Nat.mod_lt num hden
  rw [cast_div_eq hden] at rounds
  unfold roundDiv
  dsimp only
  generalize num / den = q at rounds ⊢
  generalize num % den = r at rest rounds ⊢
  have nonneg : (0 : ℚ) ≤ r / den := div_nonneg (Nat.cast_nonneg r) hden'.le
  have lessOne : (r / den : ℚ) < 1 := by
    rw [div_lt_one hden']
    exact_mod_cast rest
  have near := rounds.near nonneg lessOne
  cases order : compare (2 * r) den with
  | lt =>
    have less : (r / den : ℚ) < 1 / 2 := by
      rw [div_lt_div_iff₀ hden' two_pos]
      exact_mod_cast (by linarith [Nat.compare_eq_lt.mp order] : r * 2 < 1 * den)
    rcases near with rfl | rfl
    · rfl
    · exfalso
      have low := rounds.low
      push_cast at low
      linarith
  | gt =>
    have more : 1 / 2 < (r / den : ℚ) := by
      rw [div_lt_div_iff₀ two_pos hden']
      exact_mod_cast (by linarith [Nat.compare_eq_gt.mp order] : 1 * den < r * 2)
    rcases near with rfl | rfl
    · exfalso
      linarith [rounds.high]
    · rfl
  | eq =>
    have middle : (r / den : ℚ) = 1 / 2 := by
      rw [div_eq_div_iff hden'.ne' two_ne_zero]
      exact_mod_cast (by linarith [Nat.compare_eq_eq.mp order] : r * 2 = 1 * den)
    have even : m % 2 = 0 := by
      rw [middle] at rounds
      exact rounds.even
    rcases near with rfl | rfl
    · simp [even]
    · have uneven : q % 2 = 1 := by omega
      simp [uneven]

/-- As `roundDiv_eq`, in units of `2 ^ q`. -/
theorem roundDiv_scaled {num den m : Nat} (hden : 0 < den) {q : Int}
    (rounds : Rounds m (num / den / 2 ^ q)) :
    roundDiv (num * Nat.pow 2 (-q).toNat) (den * Nat.pow 2 q.toNat) .toEven = m := by
  have hden' : (0 : ℚ) < den := by exact_mod_cast hden
  have units : ((num * 2 ^ (-q).toNat : Nat) : ℚ) / ((den * 2 ^ q.toNat : Nat) : ℚ) =
      num / den / 2 ^ q := by
    push_cast
    rw [← zpow_mul_toNat two_ne_zero q]
    field_simp
  exact roundDiv_eq (Nat.mul_pos hden (Nat.two_pow_pos _)) (units ▸ rounds)

/-! ### The leading bit -/

theorem zpow_log2 {n : Nat} (hn : 0 < n) :
    (2 : ℚ) ^ (n.log2 : Int) ≤ n ∧ (n : ℚ) < 2 ^ ((n.log2 : Int) + 1) := by
  constructor
  · rw [zpow_natCast]
    exact_mod_cast Nat.log2_self_le (Nat.ne_of_gt hn)
  · have next : (2 : ℚ) ^ ((n.log2 : Int) + 1) = ((2 ^ (n.log2 + 1) : Nat) : ℚ) := by
      push_cast
      exact_mod_cast zpow_natCast (2 : ℚ) (n.log2 + 1)
    rw [next]
    exact_mod_cast Nat.lt_log2_self

/-- Comparison of `num / den` with `2 ^ e`, without fractions. -/
theorem lt_zpow_mul_iff (num den : Nat) (e : Int) :
    num * Nat.pow 2 (-e).toNat < den * Nat.pow 2 e.toNat ↔ (num : ℚ) < 2 ^ e * den := by
  have cast : num * Nat.pow 2 (-e).toNat < den * Nat.pow 2 e.toNat ↔
      (num : ℚ) * 2 ^ (-e).toNat < den * 2 ^ e.toNat := by exact_mod_cast Iff.rfl
  have pos : (0 : ℚ) < 2 ^ (-e).toNat := by positivity
  rw [cast, ← zpow_mul_toNat two_ne_zero e, ← mul_assoc, mul_lt_mul_iff_left₀ pos, mul_comm]

/-- The quotient is between two neighbouring powers of two. -/
theorem leadingBit_mem {num den : Nat} (hnum : 0 < num) (hden : 0 < den) :
    (2 : ℚ) ^ leadingBit num den ≤ (num / den : ℚ) ∧
      (num / den : ℚ) < 2 ^ (leadingBit num den + 1) := by
  obtain ⟨numLow, numHigh⟩ := zpow_log2 hnum
  obtain ⟨denLow, denHigh⟩ := zpow_log2 hden
  have hden' : (0 : ℚ) < den := by exact_mod_cast hden
  unfold leadingBit
  dsimp only
  generalize he : (num.log2 : Int) - den.log2 = e
  have hnum' : (num.log2 : Int) = e + den.log2 := by omega
  have up : (num : ℚ) < 2 ^ (e + 1) * den := by
    calc (num : ℚ) < 2 ^ ((num.log2 : Int) + 1) := numHigh
      _ = 2 ^ (e + 1) * 2 ^ (den.log2 : Int) := by
        rw [← zpow_add₀ two_ne_zero, hnum']
        ring_nf
      _ ≤ 2 ^ (e + 1) * den := by gcongr
  have down : 2 ^ (e - 1) * (den : ℚ) < num := by
    calc 2 ^ (e - 1) * (den : ℚ) < 2 ^ (e - 1) * 2 ^ ((den.log2 : Int) + 1) := by gcongr
      _ = 2 ^ (num.log2 : Int) := by
        rw [← zpow_add₀ two_ne_zero, hnum']
        ring_nf
      _ ≤ num := numLow
  have test := lt_zpow_mul_iff num den e
  rw [le_div_iff₀ hden', div_lt_iff₀ hden']
  split
  · next less => exact ⟨le_of_lt down, by simpa using test.mp less⟩
  · next more => exact ⟨not_lt.mp (mt test.mpr more), up⟩

/-- Only one exponent fits. -/
theorem leadingBit_eq {num den : Nat} (hnum : 0 < num) (hden : 0 < den) {e : Int}
    (low : (2 : ℚ) ^ e ≤ (num / den : ℚ)) (high : (num / den : ℚ) < 2 ^ (e + 1)) :
    leadingBit num den = e := by
  obtain ⟨low', high'⟩ := leadingBit_mem hnum hden
  have below := (zpow_lt_zpow_iff_right₀ one_lt_two).mp (lt_of_le_of_lt low high')
  have above := (zpow_lt_zpow_iff_right₀ one_lt_two).mp (lt_of_le_of_lt low' high)
  omega

/-! ### What rounds to a double -/

namespace Binary

/-- The distance of the midpoint below, in quarters of a unit: one below a power of two, else
two. -/
def quartersBelow (b : Binary) : Nat := if b.narrowBelow then 1 else 2

/-- A nonnegative number that rounds to the magnitude of `b`. -/
structure Attracts (b : Binary) (v : ℚ) : Prop where
  low : 4 * b.magnitude - b.quartersBelow ≤ 4 * (v / 2 ^ b.exponent)
  high : 4 * (v / 2 ^ b.exponent) ≤ 4 * b.magnitude + 2
  odd : b.magnitude % 2 = 1 →
    4 * b.magnitude - b.quartersBelow < 4 * (v / 2 ^ b.exponent) ∧
      4 * (v / 2 ^ b.exponent) < 4 * b.magnitude + 2

variable {b : Binary} {v : ℚ}

theorem quartersBelow_le : (b.quartersBelow : ℚ) ≤ 2 := by
  unfold quartersBelow
  split <;> norm_num

/-- In particular it rounds in units of the last place of `b`. -/
theorem Attracts.rounds (h : b.Attracts v) : Rounds b.magnitude (v / 2 ^ b.exponent) := by
  have gap := b.quartersBelow_le
  refine ⟨?_, ?_, fun odd => ?_⟩
  · linarith [h.low]
  · linarith [h.high]
  · obtain ⟨low, high⟩ := h.odd odd
    constructor <;> linarith

/-- What rounds to `b` is below `2 ^ 53` in units of its last place. -/
theorem Attracts.lt (h : b.Attracts v) (normal : b.Normal) :
    v / 2 ^ b.exponent < 2 ^ (53 : Int) := by
  have below : (b.magnitude : ℚ) ≤ 2 ^ (53 : Int) - 1 := by
    have := normal.below
    have : b.magnitude + 1 ≤ 2 ^ 53 := this
    have : ((b.magnitude + 1 : Nat) : ℚ) ≤ ((2 ^ 53 : Nat) : ℚ) := by exact_mod_cast this
    push_cast at this
    norm_num at this ⊢
    linarith
  linarith [h.high]

/-- What rounds to a positive `b` is at least half of the least double, and below `2 ^ 1024`. -/
theorem Attracts.range (h : b.Attracts v) (normal : b.Normal) (pos : 0 < b.magnitude) :
    (2 : ℚ) ^ (-1075 : Int) ≤ v ∧ v < 2 ^ (1024 : Int) := by
  have unit : (0 : ℚ) < 2 ^ b.exponent := by positivity
  have one : (1 : ℚ) ≤ b.magnitude := by exact_mod_cast pos
  have gap := b.quartersBelow_le
  constructor
  · have half : 1 / 2 ≤ v / 2 ^ b.exponent := by linarith [h.low]
    rw [le_div_iff₀ unit] at half
    calc (2 : ℚ) ^ (-1075 : Int) = 1 / 2 * 2 ^ (-1074 : Int) := by
          rw [show (-1075 : Int) = -1074 - 1 from rfl, zpow_sub_one₀ two_ne_zero]
          ring
      _ ≤ 1 / 2 * 2 ^ b.exponent := by
        gcongr
        · norm_num
        · exact normal.low
      _ ≤ v := half
  · have below := h.lt normal
    rw [div_lt_iff₀ unit, ← zpow_add₀ two_ne_zero] at below
    refine lt_of_lt_of_le below ?_
    gcongr
    · norm_num
    · have := normal.high
      omega

/-- If moreover it is below `2 ^ 52` in these units, `b` is a power of two and it lies within a
quarter below. -/
theorem Attracts.narrow (h : b.Attracts v) (normal : b.Normal) (exponent : -1074 < b.exponent)
    (less : v / 2 ^ b.exponent < 2 ^ (52 : Int)) :
    b.magnitude = 2 ^ 52 ∧ 4 * 2 ^ (52 : Int) - 1 ≤ 4 * (v / 2 ^ b.exponent) := by
  have gap := b.quartersBelow_le
  have leading := normal.leading exponent
  have small : (b.magnitude : ℚ) < 2 ^ (52 : Int) + 1 := by linarith [h.low]
  have exact : b.magnitude = 2 ^ 52 := by
    have : (b.magnitude : ℚ) < ((2 ^ 52 + 1 : Nat) : ℚ) := by
      push_cast
      norm_num at small ⊢
      exact small
    have : b.magnitude < 2 ^ 52 + 1 := by exact_mod_cast this
    omega
  refine ⟨exact, ?_⟩
  have low := h.low
  have narrow : b.quartersBelow = 1 := by
    simp [quartersBelow, narrowBelow, exact, exponent]
  rw [narrow, exact] at low
  push_cast at low
  norm_num at low ⊢
  linarith

/-- What rounds to a positive `b` is positive. -/
theorem Attracts.pos (h : b.Attracts v) (pos : 0 < b.magnitude) : 0 < v := by
  have one : (1 : ℚ) ≤ b.magnitude := by exact_mod_cast pos
  have gap := b.quartersBelow_le
  have unit : (0 : ℚ) < 2 ^ b.exponent := by positivity
  have scaled : 0 < v / 2 ^ b.exponent := by linarith [h.low]
  rwa [lt_div_iff₀ unit, zero_mul] at scaled

variable {num den : Nat}

/-- The units of `nearest` are those of `b`, unless the quotient is below a power of two. -/
theorem Attracts.units_eq (hnum : 0 < num) (hden : 0 < den) (normal : b.Normal)
    (h : b.Attracts (num / den))
    (wide : -1074 < b.exponent → (2 : ℚ) ^ (52 : Int) ≤ num / den / 2 ^ b.exponent) :
    max (leadingBit num den - 52) (-1074) = b.exponent := by
  have unit : (0 : ℚ) < 2 ^ b.exponent := by positivity
  obtain ⟨bitLow, bitHigh⟩ := leadingBit_mem hnum hden
  have high := h.lt normal
  rw [div_lt_iff₀ unit, ← zpow_add₀ two_ne_zero] at high
  have upper := (zpow_lt_zpow_iff_right₀ one_lt_two).mp (lt_of_le_of_lt bitLow high)
  have low := normal.low
  by_cases subnormal : b.exponent = -1074
  · omega
  · have large := wide (by omega)
    rw [le_div_iff₀ unit, ← zpow_add₀ two_ne_zero] at large
    have lower := (zpow_lt_zpow_iff_right₀ one_lt_two).mp (lt_of_le_of_lt large bitHigh)
    omega

/-- Below a power of two the units are half as large, and rounding to `2 ^ 53` of them carries. -/
theorem Attracts.units_narrow (hnum : 0 < num) (hden : 0 < den) (normal : b.Normal)
    (h : b.Attracts (num / den)) (exponent : -1074 < b.exponent)
    (less : (num / den : ℚ) / 2 ^ b.exponent < 2 ^ (52 : Int)) :
    b.magnitude = 2 ^ 52 ∧ max (leadingBit num den - 52) (-1074) = b.exponent - 1 ∧
      Rounds (2 ^ 53) (num / den / 2 ^ (b.exponent - 1)) := by
  have unit : (0 : ℚ) < 2 ^ b.exponent := by positivity
  obtain ⟨exact, close⟩ := h.narrow normal exponent less
  have low : (2 : ℚ) ^ (51 : Int) ≤ (num / den : ℚ) / 2 ^ b.exponent := by
    norm_num at close ⊢
    linarith
  have halves : (num / den : ℚ) / 2 ^ (b.exponent - 1) = 2 * (num / den / 2 ^ b.exponent) := by
    rw [zpow_sub_one₀ two_ne_zero]
    field_simp
  have small := less
  rw [le_div_iff₀ unit, ← zpow_add₀ two_ne_zero] at low
  rw [div_lt_iff₀ unit, ← zpow_add₀ two_ne_zero,
    show 52 + b.exponent = 51 + b.exponent + 1 by omega] at small
  have bit : leadingBit num den = 51 + b.exponent := leadingBit_eq hnum hden low small
  refine ⟨exact, by omega, ?_, ?_, fun odd => absurd odd (by norm_num)⟩
  · rw [halves]
    push_cast
    norm_num at close ⊢
    linarith
  · rw [halves]
    push_cast
    norm_num at less ⊢
    linarith

end Binary

/-- A quotient that rounds to `b` is read as the double of `b`. The two cases are `units_eq` and
`units_narrow`. -/
theorem nearest_eq {b : Binary} {num den : Nat} (hden : 0 < den) (normal : b.Normal)
    (pos : 0 < b.magnitude) (h : b.Attracts (num / den)) :
    nearest num den = Float.ofBits (UInt64.ofNat b.bits) := by
  have hnum : 0 < num := by
    rw [Nat.pos_iff_ne_zero]
    rintro rfl
    have positive := h.pos pos
    rw [Nat.cast_zero, zero_div] at positive
    exact absurd positive (lt_irrefl 0)
  -- it is enough to know the units that the quotient is rounded in, and the rounded magnitude
  suffices found : ∃ m, Rounds m (num / den / 2 ^ max (leadingBit num den - 52) (-1074)) ∧
      (max (leadingBit num den - 52) (-1074) + 1074).toNat * 2 ^ 52 + m = b.bits by
    obtain ⟨m, rounds, bits⟩ := found
    unfold nearest
    dsimp only
    rw [if_neg (Nat.ne_of_gt hnum), roundDiv_scaled hden rounds]
    refine congrArg (fun n => Float.ofBits (UInt64.ofNat n)) ?_
    have below := normal.bits_lt
    omega
  by_cases narrow : -1074 < b.exponent ∧ (num / den : ℚ) / 2 ^ b.exponent < 2 ^ (52 : Int)
  · obtain ⟨exponent, less⟩ := narrow
    obtain ⟨exact, units, rounds⟩ := h.units_narrow hnum hden normal exponent less
    refine ⟨2 ^ 53, by rwa [units], ?_⟩
    rw [units, Binary.bits, exact]
    omega
  · have units := h.units_eq hnum hden normal fun exponent =>
      not_lt.mp fun less => narrow ⟨exponent, less⟩
    rw [units]
    exact ⟨b.magnitude, h.rounds, rfl⟩

end CellWorld.Number
