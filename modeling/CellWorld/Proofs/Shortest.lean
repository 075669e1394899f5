import CellWorld.Proofs.Rounding

/-!
# The digits of a double

However the digits of a double are found, they lie close enough to it to round back.

* `Decimal.value`, `Decimal.value_strip` — `digits * 10 ^ exponent`; trailing zeros do not matter
* `Decimal.attracts_of_between`, `Decimal.attracts_onGrid?`, `Decimal.attracts_search` — digits that
  were found on a grid `10 ^ e`
* `Decimal.attracts_exact` — all digits, where the search finds none
* `Decimal.attracts_shortest` — `b.Attracts (shortest b tie).value` for every positive `b`

That no shorter digits round back is not proved: reading back does not need it.
-/

namespace CellWorld.Number

namespace Decimal

def value (d : Decimal) : ℚ := d.digits * 10 ^ d.exponent

theorem value_strip (fuel : Nat) (d : Decimal) : (strip fuel d).value = d.value := by
  induction fuel generalizing d with
  | zero => rfl
  | succ fuel ih =>
    unfold strip
    split
    · next h =>
      rw [ih]
      have tenth : (d.digits : ℚ) = ((d.digits / 10 : Nat) : ℚ) * 10 := by
        exact_mod_cast (Nat.div_mul_cancel (Nat.dvd_of_mod_eq_zero h.2)).symm
      rw [value, value, tenth, zpow_add_one₀ (by norm_num)]
      ring
    · rfl

/-- The result of `roundDiv` is the floor or the next number, with either rule for ties. -/
theorem roundDiv_eq_or (num den : Nat) (tie : Tie) :
    roundDiv num den tie = num / den ∨ roundDiv num den tie = num / den + 1 := by
  unfold roundDiv
  dsimp only
  split
  · exact Or.inl rfl
  · exact Or.inr rfl
  · exact Or.inr rfl
  · split
    · exact Or.inl rfl
    · exact Or.inr rfl

variable {b : Binary}

/-- With all its digits a binary fraction is its own value. -/
theorem attracts_exact (b : Binary) : b.Attracts (exact b).value := by
  have units : (exact b).value / 2 ^ b.exponent = b.magnitude := by
    rw [div_eq_iff (by positivity)]
    unfold exact value
    split
    · next whole =>
      rw [Nat.cast_mul, zpow_zero, mul_one, Nat.pow_eq, Nat.cast_pow, ← zpow_natCast,
        Int.toNat_of_nonneg whole]
      rfl
    · next broken =>
      have fives := zpow_mul_toNat (a := 5) (by norm_num) b.exponent
      rw [show b.exponent.toNat = 0 by omega, pow_zero] at fives
      rw [Nat.cast_mul, Nat.pow_eq, Nat.cast_pow, show (10 : ℚ) = 5 * 2 by norm_num, mul_zpow]
      push_cast
      linear_combination (b.magnitude : ℚ) * 2 ^ b.exponent * fives
  have pos : (0 : ℚ) < b.quartersBelow := by
    unfold Binary.quartersBelow
    split <;> norm_num
  refine ⟨?_, ?_, fun _ => ⟨?_, ?_⟩⟩ <;> rw [units] <;> linarith

/-- A step of the grid `10 ^ e`, in units of `2 ^ x`. -/
theorem step_eq_unit_mul (x e : Int) :
    ((Nat.pow 2 (-x).toNat * Nat.pow 10 e.toNat : Nat) : ℚ) =
      ((Nat.pow 2 x.toNat * Nat.pow 10 (-e).toNat : Nat) : ℚ) * (10 ^ e / 2 ^ x) := by
  have twos := zpow_mul_toNat (a := 2) two_ne_zero x
  have tens := zpow_mul_toNat (a := 10) (by norm_num) e
  simp only [Nat.pow_eq]
  push_cast
  rw [mul_div_assoc', eq_div_iff (by positivity)]
  linear_combination (10 : ℚ) ^ e.toNat * twos - 2 ^ x.toNat * tens

/-- A decimal between the midpoints to the neighbours of `b` rounds to `b`; on a midpoint it does if
the magnitude is even. The comparisons are those of whole numbers that the search makes. -/
theorem attracts_of_between {e : Int} {unit den c : Nat} (pos : 0 < b.magnitude)
    (unitPos : (0 : ℚ) < unit) (step : (den : ℚ) = unit * (10 ^ e / 2 ^ b.exponent))
    (low : (4 * b.magnitude - b.quartersBelow) * unit < 4 * c * den ∨
      b.magnitude % 2 = 0 ∧ (4 * b.magnitude - b.quartersBelow) * unit = 4 * c * den)
    (high : 4 * c * den < (4 * b.magnitude + 2) * unit ∨
      b.magnitude % 2 = 0 ∧ 4 * c * den = (4 * b.magnitude + 2) * unit) :
    b.Attracts (value ⟨c, e⟩) := by
  have quarters : b.quartersBelow ≤ 4 * b.magnitude := by
    unfold Binary.quartersBelow
    split <;> omega
  have place : 4 * (value ⟨c, e⟩ / 2 ^ b.exponent) * unit = ((4 * c * den : Nat) : ℚ) := by
    rw [value, Nat.cast_mul, step]
    push_cast
    ring
  have below : ((4 * b.magnitude - b.quartersBelow : ℚ)) * unit =
      (((4 * b.magnitude - b.quartersBelow) * unit : Nat) : ℚ) := by
    rw [Nat.cast_mul, Nat.cast_sub quarters]
    push_cast
    ring
  have above : ((4 * b.magnitude + 2 : ℚ)) * unit =
      (((4 * b.magnitude + 2) * unit : Nat) : ℚ) := by
    push_cast
    ring
  refine ⟨?_, ?_, fun odd => ⟨?_, ?_⟩⟩
  · rw [← mul_le_mul_iff_left₀ unitPos, place, below, Nat.cast_le]
    omega
  · rw [← mul_le_mul_iff_left₀ unitPos, place, above, Nat.cast_le]
    omega
  · rw [← mul_lt_mul_iff_left₀ unitPos, place, below, Nat.cast_lt]
    omega
  · rw [← mul_lt_mul_iff_left₀ unitPos, place, above, Nat.cast_lt]
    omega

/-- A decimal that `onGrid?` accepts rounds to the double. -/
theorem attracts_onGrid? {tie : Tie} {e : Int} {d : Decimal} (pos : 0 < b.magnitude)
    (h : onGrid? b tie e = some d) : b.Attracts d.value := by
  have step := step_eq_unit_mul b.exponent e
  have unitPos : (0 : ℚ) < ((Nat.pow 2 b.exponent.toNat * Nat.pow 10 (-e).toNat : Nat) : ℚ) := by
    exact_mod_cast Nat.mul_pos (Nat.two_pow_pos _) (Nat.pow_pos (by decide))
  unfold onGrid? at h
  dsimp only at h
  generalize Nat.pow 2 b.exponent.toNat * Nat.pow 10 (-e).toNat = unit at h step unitPos
  generalize Nat.pow 2 (-b.exponent).toNat * Nat.pow 10 e.toNat = den at h step
  have reads {c : Nat}
      (h : ((decide ((4 * b.magnitude - b.quartersBelow) * unit < 4 * c * den) ||
          b.magnitude % 2 == 0 && (4 * b.magnitude - b.quartersBelow) * unit == 4 * c * den) &&
        (decide (4 * c * den < (4 * b.magnitude + 2) * unit) ||
          b.magnitude % 2 == 0 && 4 * c * den == (4 * b.magnitude + 2) * unit)) = true) :
      b.Attracts (value ⟨c, e⟩) := by
    simp only [Bool.and_eq_true, Bool.or_eq_true, decide_eq_true_eq, beq_iff_eq] at h
    exact attracts_of_between pos unitPos step h.1 h.2
  split at h
  · next lower upper =>
    obtain rfl := Option.some.inj h
    rcases roundDiv_eq_or (b.magnitude * unit) den tie with same | next
    · rw [same]
      exact reads lower
    · rw [next]
      exact reads upper
  · next lower upper =>
    obtain rfl := Option.some.inj h
    exact reads lower
  · next lower upper =>
    obtain rfl := Option.some.inj h
    exact reads upper
  · exact absurd h.symm (Option.some_ne_none d)

/-- Induction on the fuel: the search returns what some grid accepts. -/
theorem attracts_search {tie : Tie} {fuel : Nat} {e : Int} {d : Decimal} (pos : 0 < b.magnitude)
    (h : search b tie fuel e = some d) : b.Attracts d.value := by
  induction fuel generalizing e with
  | zero => exact absurd h.symm (Option.some_ne_none d)
  | succ fuel ih =>
    unfold search at h
    cases hit : onGrid? b tie e with
    | some found =>
      rw [hit] at h
      obtain rfl := Option.some.inj h
      exact attracts_onGrid? pos hit
    | none =>
      rw [hit] at h
      exact ih h

/-- The digits that are written round to the double, whether they were found or are all there
are. -/
theorem attracts_shortest (tie : Tie) (pos : 0 < b.magnitude) :
    b.Attracts (shortest b tie).value := by
  unfold shortest
  rw [if_neg (Nat.ne_of_gt pos)]
  dsimp only
  rw [value_strip]
  cases found : search b tie 21 (ceiling b) with
  | some d => exact attracts_search pos found
  | none => exact attracts_exact b

theorem digits_shortest_ne_zero (tie : Tie) (pos : 0 < b.magnitude) :
    (shortest b tie).digits ≠ 0 := by
  intro none
  have positive := (attracts_shortest tie pos).pos pos
  rw [value, none, Nat.cast_zero, zero_mul] at positive
  exact absurd positive (lt_irrefl 0)

end Decimal

end CellWorld.Number
