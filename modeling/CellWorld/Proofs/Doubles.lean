import CellWorld.Proofs.Packing

/-!
# What doubles come to

A finite double has a rational value. A product, sum, difference or quotient of doubles is the
rounded one of their values, or not finite where that is `2 ^ 1024` or more. Everything is proved of
`Float` itself, through `Float.toModel` and the unpacked operations behind it.

* `value? x : Option ℚ` — the value of a double, none if it is not finite
* `Rounding v r step` — `r` is a multiple of `2 ^ step` with `2 * |v - r| ≤ 2 ^ step`, where
  `2 ^ (step + 52) ≤ |v| < 2 ^ (step + 53)` or `step = -1074`; `RoundsTo v r` for some `step`
* `ComesTo x v` — `v` rounds to some `r`, and `value? x` is `some r` if `|r| < 2 ^ 1024`, else
  `none`
* `comesTo_quotient`, `comesTo_rounded` — `roundWithAccuracy` comes to what it rounds
* `comesTo_mul`, `comesTo_add`, `comesTo_sub`, `comesTo_div` — e.g. `ComesTo (x * y) (p * q)` for
  finite values `p` and `q`
* `div_infinite` — a quotient that is not finite is an infinity, positive iff `0 < p / q`
* `finite_of_sub`, `finite_of_mul` — if `x - y` is finite, so are `x` and `y`; if `x * y` is, so is
  `y`
* `lt_iff_value`, `le_iff_value` — `x < y ↔ p < q`

`RoundsTo` bounds the error and does not decide ties: `r` need not be even where `v` is halfway. The
sign of a zero is not part of `value?`.
-/

open Float.Model Float.Model.UnpackedFloat

namespace CellWorld.Number

/-! ### Powers of two -/

theorem two_zpow_le {a b : Int} (h : a ≤ b) : (2 : ℚ) ^ a ≤ 2 ^ b :=
  zpow_le_zpow_right₀ (by norm_num) h

theorem two_zpow_add (a b : Int) : (2 : ℚ) ^ (a + b) = 2 ^ a * 2 ^ b := zpow_add₀ (by norm_num) a b

/-- A number of `k` bits times `2 ^ e` is below `2 ^ (e + k)`. -/
theorem mul_zpow_lt {m k : Nat} (h : m < 2 ^ k) (e : Int) : (m : ℚ) * 2 ^ e < 2 ^ (e + k) := by
  have below : (m : ℚ) < 2 ^ (k : Int) := by exact_mod_cast h
  rw [add_comm, two_zpow_add]
  exact mul_lt_mul_of_pos_right below (zpow_pos (by norm_num) e)

theorem le_mul_zpow {m k : Nat} (h : 2 ^ k ≤ m) (e : Int) : (2 : ℚ) ^ (e + k) ≤ m * 2 ^ e := by
  have leads : (2 : ℚ) ^ (k : Int) ≤ m := by exact_mod_cast h
  rw [add_comm, two_zpow_add]
  exact mul_le_mul_of_nonneg_right leads (zpow_pos (by norm_num) e).le

/-! ### Values -/

/-- The value of a binary fraction, with its sign. -/
def Binary.value (b : Binary) : ℚ := b.signed * 2 ^ b.exponent

/-- The absolute value of a binary fraction. -/
def Binary.size (b : Binary) : ℚ := b.magnitude * 2 ^ b.exponent

/-- The value of a double, none if it is not finite. -/
def value? (x : Float) : Option ℚ := (Binary.ofFloat? x).map Binary.value

theorem exists_signOf (s : Sign) : ∃ negative, s = signOf negative := by
  cases s with
  | negative => exact ⟨true, rfl⟩
  | positive => exact ⟨false, rfl⟩

theorem Binary.signed_eq (b : Binary) : b.signed = (signOf b.negative).apply b.magnitude := by
  unfold signed signOf
  cases b.negative <;> rfl

theorem abs_apply (s : Sign) (n : Nat) : |((s.apply n : Int) : ℚ)| = n := by
  cases s with
  | negative => simp [Sign.apply]
  | positive => simp [Sign.apply]

theorem abs_apply_mul (s : Sign) (n : Nat) (t : Int) :
    |((s.apply n : Int) : ℚ) * 2 ^ t| = n * 2 ^ t := by
  rw [abs_mul, abs_apply, abs_of_pos (zpow_pos (by norm_num) t)]

namespace Binary

variable {b : Binary}

theorem abs_value (b : Binary) : |b.value| = b.size := by
  rw [value, signed_eq, abs_apply_mul, size]

theorem size_pos (h : 0 < b.magnitude) : 0 < b.size :=
  mul_pos (by exact_mod_cast h) (zpow_pos (by norm_num) _)

theorem value_of_negative (h : b.negative = true) : b.value = -b.size := by
  simp [value, signed, size, h]

theorem value_of_positive (h : b.negative = false) : b.value = b.size := by
  simp [value, signed, size, h]

theorem value_of_zero (h : b.magnitude = 0) : b.value = 0 := by
  simp [value, signed, h]

end Binary

theorem value?_packed_zero (s : Sign) : value? (packed (.zero s)) = some 0 := by
  obtain ⟨negative, rfl⟩ := exists_signOf s
  have normal : Binary.Normal ⟨negative, 0, -1074⟩ :=
    ⟨Int.le_refl _, by show (-1074 : Int) ≤ 971; decide, Nat.two_pow_pos 53,
      fun above => absurd above (Int.lt_irrefl _)⟩
  have read := ofFloat?_packed normal
  rw [Binary.unpacked_zero rfl] at read
  rw [value?, read, Option.map_some, Binary.value_of_zero rfl]

theorem mul_zpow_fits {m : Nat} {t : Int} (below : m < 2 ^ 53) (small : t ≤ 971) :
    (m : ℚ) * 2 ^ t < 2 ^ 1024 :=
  calc (m : ℚ) * 2 ^ t < 2 ^ (t + 53) := mul_zpow_lt below t
    _ ≤ 2 ^ (1024 : Int) := two_zpow_le (by omega)
    _ = 2 ^ 1024 := zpow_natCast 2 1024

/-- The value of a packed finite number with a mantissa in the range of doubles: itself below
`2 ^ 1024`, none above. -/
theorem value?_packed {s : Sign} {m : Nat} {t : Int} (pos : 0 < m) (least : -1074 ≤ t)
    (below : m < 2 ^ 53) (leading : -1074 < t → 2 ^ 52 ≤ m) :
    value? (packed (.finite s m t pos)) =
      if |((s.apply m : Int) : ℚ) * 2 ^ t| < 2 ^ 1024 then
        some (((s.apply m : Int) : ℚ) * 2 ^ t)
      else none := by
  rw [abs_apply_mul]
  rcases Int.lt_or_le 971 t with large | small
  rotate_left
  · obtain ⟨negative, rfl⟩ := exists_signOf s
    have normal : Binary.Normal ⟨negative, m, t⟩ := ⟨least, small, below, leading⟩
    have read := ofFloat?_packed normal
    rw [Binary.unpacked_pos pos] at read
    rw [if_pos (mul_zpow_fits below small), value?, read, Option.map_some, Binary.value,
      Binary.signed_eq]
  · have most : ¬(m : ℚ) * 2 ^ t < 2 ^ 1024 := by
      rw [not_lt]
      calc (2 : ℚ) ^ 1024 = 2 ^ (1024 : Int) := (zpow_natCast 2 1024).symm
        _ ≤ 2 ^ (t + 52) := two_zpow_le (by omega)
        _ ≤ m * 2 ^ t := le_mul_zpow (leading (by omega)) t
    rw [if_neg most, packed_large pos large, value?, ofFloat?_packed_infinity, Option.map_none]

/-- A packed number without a value is the infinity of its sign. -/
theorem packed_of_value?_none {s : Sign} {m : Nat} {t : Int} (pos : 0 < m) (least : -1074 ≤ t)
    (below : m < 2 ^ 53) (leading : -1074 < t → 2 ^ 52 ≤ m)
    (none : value? (packed (.finite s m t pos)) = none) :
    packed (.finite s m t pos) = packed (.infinity s) := by
  rcases Int.lt_or_le 971 t with large | small
  · exact packed_large pos large
  · rw [value?_packed pos least below leading, abs_apply_mul,
      if_pos (mul_zpow_fits below small)] at none
    exact absurd none (Option.some_ne_none _)

/-! ### Rounding -/

/-- The number `v` is rounded to `r`, a multiple of `2 ^ step`, where the step is that of doubles of
the size of `v`. -/
structure Rounding (v r : ℚ) (step : Int) : Prop where
  finest : -1074 ≤ step
  reach : |v| < 2 ^ (step + 53)
  leading : -1074 < step → 2 ^ (step + 52) ≤ |v|
  whole : ∃ n : Int, r = n * 2 ^ step
  near : 2 * |v - r| ≤ 2 ^ step

/-- Rounding with the step that belongs to `v`. -/
def RoundsTo (v r : ℚ) : Prop := ∃ step, Rounding v r step

/-- The double `x` is what `v` is rounded to, or not finite if that is too large. -/
def ComesTo (x : Float) (v : ℚ) : Prop :=
  ∃ r, RoundsTo v r ∧ value? x = if |r| < 2 ^ 1024 then some r else none

/-- The quotient lies between the two powers of two that its whole part lies between. -/
theorem quotient_bounds (num : Nat) {den : Nat} (pos : 0 < den) (e : Int) :
    (num : ℚ) / den * 2 ^ e < 2 ^ (e + ((num / den).log2 + 1 : Nat)) ∧
      (num / den ≠ 0 → 2 ^ (e + (num / den).log2) ≤ (num : ℚ) / den * 2 ^ e) := by
  have pos' : (0 : ℚ) < den := by exact_mod_cast pos
  have unit : (0 : ℚ) < 2 ^ e := zpow_pos (by norm_num) e
  constructor
  · have above : (num : ℚ) / den < (num / den + 1 : Nat) := by
      rw [div_lt_iff₀ pos']
      exact_mod_cast (Nat.div_lt_iff_lt_mul pos).mp (Nat.lt_succ_self _)
    have bits : ((num / den + 1 : Nat) : ℚ) ≤ 2 ^ (((num / den).log2 + 1 : Nat) : Int) := by
      exact_mod_cast (Nat.lt_log2_self : num / den < _)
    rw [add_comm, two_zpow_add]
    exact mul_lt_mul_of_pos_right (above.trans_le bits) unit
  · intro some
    have below : ((num / den : Nat) : ℚ) ≤ num / den := Nat.cast_div_le
    exact (le_mul_zpow (Nat.log2_self_le some) e).trans (mul_le_mul_of_nonneg_right below unit.le)

section Quotient

variable (s : Sign) {num den : Nat} {e : Int}

/-- Multiplied by the denominator, the distance of a quotient from a number of steps is one of whole
numbers. The sign cancels. -/
theorem abs_quotient_sub (pos : 0 < den) (fine : e ≤ stepOf (num / den) e) (n : Nat) :
    |((s.apply num : Int) : ℚ) / den * 2 ^ e - (s.apply n : Int) * 2 ^ stepOf (num / den) e| =
      |(num : ℚ) - n * (den * 2 ^ dropped (num / den) e)| * (2 ^ e / den) := by
  have pos' : (0 : ℚ) < den := by exact_mod_cast pos
  have unit : (0 : ℚ) < 2 ^ e := zpow_pos (by norm_num) e
  have steps : (2 : ℚ) ^ stepOf (num / den) e = 2 ^ dropped (num / den) e * 2 ^ e := by
    rw [← add_dropped fine, add_comm, two_zpow_add, zpow_natCast]
  rw [← abs_of_pos (div_pos unit pos'), ← abs_mul, steps]
  cases s with
  | positive =>
    congr 1
    simp only [Sign.apply]
    push_cast
    field_simp
  | negative =>
    rw [← abs_neg]
    congr 1
    simp only [Sign.apply]
    push_cast
    field_simp
    ring

/-- The bits that `roundedBits` keeps of a quotient are the nearest ones, and `stepOf` is the step
of its size. -/
theorem rounding_quotient (pos : 0 < den) (fine : e ≤ stepOf (num / den) e) :
    Rounding (((s.apply num : Int) : ℚ) / den * 2 ^ e)
      ((s.apply (roundedBits num den e) : Int) * 2 ^ stepOf (num / den) e)
      (stepOf (num / den) e) := by
  have pos' : (0 : ℚ) < den := by exact_mod_cast pos
  have unit : (0 : ℚ) < 2 ^ e := zpow_pos (by norm_num) e
  have size : |((s.apply num : Int) : ℚ) / den * 2 ^ e| = num / den * 2 ^ e := by
    rw [abs_mul, abs_div, abs_apply, abs_of_pos pos', abs_of_pos unit]
  obtain ⟨reach, leading⟩ := quotient_bounds num pos e
  refine ⟨le_max_right _ _, ?_, ?_, ⟨_, rfl⟩, ?_⟩
  · rw [size]
    exact reach.trans_le (two_zpow_le (by unfold stepOf; omega))
  · intro above
    rw [size]
    have some : num / den ≠ 0 := by
      intro none
      unfold stepOf at above fine
      rw [none, Nat.log2_zero] at above fine
      omega
    exact (two_zpow_le (by unfold stepOf at *; omega)).trans (leading some)
  · have near := roundDiv_near num (Nat.mul_pos pos (Nat.two_pow_pos (dropped (num / den) e)))
    rw [← roundedBits, Nat.cast_mul, Nat.cast_pow, Nat.cast_ofNat] at near
    calc _ = 2 * |(num : ℚ) - roundedBits num den e * (den * 2 ^ dropped (num / den) e)| *
          (2 ^ e / den) := by rw [abs_quotient_sub s pos fine, mul_assoc]
      _ ≤ den * 2 ^ dropped (num / den) e * (2 ^ e / den) :=
        mul_le_mul_of_nonneg_right near (div_pos unit pos').le
      _ = 2 ^ stepOf (num / den) e := by
        rw [← add_dropped fine, add_comm e, two_zpow_add, zpow_natCast]
        field_simp

/-- The value of a rounded quotient is that of its kept bits, if it is below `2 ^ 1024`. -/
theorem value?_quotient (pos : 0 < den) (fine : e ≤ stepOf (num / den) e) :
    value? (packed (roundWithAccuracy .binary64 s (num / den) e
      (accuracyOfFraction (num % den) den))) =
      if |((s.apply (roundedBits num den e) : Int) : ℚ) * 2 ^ stepOf (num / den) e| < 2 ^ 1024 then
        some (((s.apply (roundedBits num den e) : Int) : ℚ) * 2 ^ stepOf (num / den) e)
      else none := by
  have least : -1074 ≤ stepOf (num / den) e := le_max_right _ _
  rw [roundWithAccuracy_eq s pos fine]
  split
  · next zero =>
    rw [zero, value?_packed_zero]
    cases s <;> simp [Sign.apply]
  · split
    · next some fits => exact value?_packed _ least fits (le_roundedBits fine)
    · next some carry =>
      have carried : roundedBits num den e = 2 ^ 53 := by
        have := roundedBits_le num den e
        omega
      have same : ((s.apply (roundedBits num den e) : Int) : ℚ) * 2 ^ stepOf (num / den) e =
          ((s.apply (2 ^ 52 : Nat) : Int) : ℚ) * 2 ^ (stepOf (num / den) e + 1) := by
        rw [carried, two_zpow_add]
        cases s <;> simp only [Sign.apply] <;> push_cast <;> ring
      rw [same]
      exact value?_packed _ (by omega) (by decide) (fun _ => Nat.le_refl _)

/-- A rounded quotient comes to the quotient. -/
theorem comesTo_quotient (pos : 0 < den) (fine : e ≤ stepOf (num / den) e) :
    ComesTo (packed (roundWithAccuracy .binary64 s (num / den) e
      (accuracyOfFraction (num % den) den))) ((s.apply num : Int) / den * 2 ^ e) :=
  ⟨_, ⟨_, rounding_quotient s pos fine⟩, value?_quotient s pos fine⟩

/-- A rounded quotient without a value is the infinity of its sign. -/
theorem packed_quotient_infinite (pos : 0 < den) (fine : e ≤ stepOf (num / den) e)
    (none : value? (packed (roundWithAccuracy .binary64 s (num / den) e
      (accuracyOfFraction (num % den) den))) = none) :
    packed (roundWithAccuracy .binary64 s (num / den) e (accuracyOfFraction (num % den) den)) =
      packed (.infinity s) := by
  have least : -1074 ≤ stepOf (num / den) e := le_max_right _ _
  rw [roundWithAccuracy_eq s pos fine] at none ⊢
  split
  · next zero =>
    rw [dif_pos zero, value?_packed_zero] at none
    exact absurd none (Option.some_ne_none _)
  · next some =>
    rw [dif_neg some] at none
    split
    · next fits =>
      rw [if_pos fits] at none
      exact packed_of_value?_none _ least fits (le_roundedBits fine) none
    · next carry =>
      rw [if_neg carry] at none
      exact packed_of_value?_none _ (by omega) (by decide) (fun _ => Nat.le_refl _) none

end Quotient

/-- The case of denominator one. -/
theorem comesTo_rounded (s : Sign) {m : Nat} {e : Int} (fine : e ≤ stepOf m e) :
    ComesTo (packed (roundWithAccuracy .binary64 s m e .exact)) ((s.apply m : Int) * 2 ^ e) := by
  have whole : e ≤ stepOf (m / 1) e := (Nat.div_one m).symm ▸ fine
  have rounded := comesTo_quotient s Nat.one_pos whole
  rwa [accuracyOfFraction_one, Nat.div_one, Nat.cast_one, div_one] at rounded

theorem RoundsTo.zero : RoundsTo 0 0 :=
  ⟨-1074, Int.le_refl _, by simp, fun above => absurd above (Int.lt_irrefl _), ⟨0, by simp⟩,
    by simp⟩

theorem ComesTo.of_zero {x : Float} (h : value? x = some 0) : ComesTo x 0 :=
  ⟨0, RoundsTo.zero, by rw [h, abs_zero, if_pos (by norm_num)]⟩

/-- A double's own value is a multiple of its step, so nothing is lost. -/
theorem Binary.Normal.rounds_self {b : Binary} (normal : b.Normal) : RoundsTo b.value b.value := by
  obtain ⟨low, high, below, leading⟩ := normal
  refine ⟨b.exponent, low, ?_, ?_, ⟨b.signed, rfl⟩, ?_⟩
  · rw [b.abs_value]
    exact mul_zpow_lt below b.exponent
  · intro above
    rw [b.abs_value]
    exact le_mul_zpow (leading above) b.exponent
  · rw [sub_self, abs_zero, mul_zero]
    exact (zpow_pos (by norm_num) _).le

/-- A double with exponent at most `t` is at most `(2 ^ 53 - 1) * 2 ^ t`. -/
theorem Binary.Normal.abs_le_of_exponent {b : Binary} (normal : b.Normal) {t : Int}
    (h : b.exponent ≤ t) : |b.value| ≤ (2 ^ 53 - 1) * 2 ^ t := by
  have mantissa : (b.magnitude : ℚ) ≤ 2 ^ 53 - 1 := by
    have : (b.magnitude : ℚ) + 1 ≤ 2 ^ 53 := by exact_mod_cast normal.below
    linarith
  rw [b.abs_value]
  exact mul_le_mul mantissa (two_zpow_le h) (zpow_pos (by norm_num) _).le (by norm_num)

/-- The largest finite double, `(2 ^ 53 - 1) * 2 ^ 971`. -/
def largest : ℚ := (2 ^ 53 - 1) * 2 ^ (971 : Int)

/-- One step above `largest` is `2 ^ 1024`. -/
theorem largest_add : largest + 2 ^ (971 : Int) = 2 ^ 1024 := by
  have whole : (2 : ℚ) ^ 1024 = 2 ^ 53 * 2 ^ 971 := pow_add 2 53 971
  have last : (2 : ℚ) ^ (971 : Int) = 2 ^ 971 := zpow_natCast 2 971
  rw [largest, whole, last, sub_mul, one_mul, sub_add_cancel]

theorem largest_lt : largest < 2 ^ 1024 := by
  rw [← largest_add]
  exact lt_add_of_pos_right _ (zpow_pos (by norm_num) _)

/-- No finite double is beyond `largest`. -/
theorem Binary.Normal.abs_le {b : Binary} (normal : b.Normal) : |b.value| ≤ largest :=
  normal.abs_le_of_exponent normal.high

/-- A finite double is made of a normal binary fraction with its value. -/
theorem exists_of_value? {x : Float} {p : ℚ} (h : value? x = some p) :
    ∃ b : Binary, b.Normal ∧ x.toModel.unpack = b.unpacked ∧ b.value = p := by
  obtain ⟨b, read, value⟩ := Option.map_eq_some_iff.mp h
  exact ⟨b, (normal_of_ofFloat? read).1, unpack_of_ofFloat? read, value⟩

theorem value?_packed_unpacked {b : Binary} (normal : b.Normal) :
    value? (packed b.unpacked) = some b.value := by
  rw [value?, ofFloat?_packed normal, Option.map_some]

theorem Binary.Normal.comesTo {b : Binary} (normal : b.Normal) :
    ComesTo (packed b.unpacked) b.value :=
  ⟨b.value, normal.rounds_self, by
    rw [value?_packed_unpacked normal, if_pos (normal.abs_le.trans_lt largest_lt)]⟩

/-! ### Products -/

theorem apply_mul (s t : Sign) (m n : Nat) :
    (s * t).apply ((m * n : Nat) : Int) = s.apply m * t.apply n := by
  cases s <;> cases t
  · show ((m * n : Nat) : Int) = -m * -n
    push_cast
    ring
  · show -((m * n : Nat) : Int) = -m * n
    push_cast
    ring
  · show -((m * n : Nat) : Int) = m * -n
    push_cast
    ring
  · exact Nat.cast_mul m n

theorem le_stepOf {m : Nat} {e : Int} (h : 2 ^ 52 ≤ m ∨ e ≤ -1074) : e ≤ stepOf m e := by
  unfold stepOf
  rcases h with large | least
  · have := (Nat.le_log2 (by omega)).mpr large
    omega
  · omega

/-- Multiplication rounds the exact product. -/
theorem comesTo_mul {x y : Float} {p q : ℚ} (hx : value? x = some p) (hy : value? y = some q) :
    ComesTo (x * y) (p * q) := by
  obtain ⟨a, na, ua, rfl⟩ := exists_of_value? hx
  obtain ⟨b, nb, ub, rfl⟩ := exists_of_value? hy
  have product : x * y = packed (UnpackedFloat.mul .binary64 a.unpacked b.unpacked) := by
    rw [← ua, ← ub]
    rfl
  rw [product]
  rcases Nat.eq_zero_or_pos a.magnitude with za | pa
  · rw [Binary.value_of_zero za, zero_mul, Binary.unpacked_zero za]
    refine ComesTo.of_zero ?_
    rcases Nat.eq_zero_or_pos b.magnitude with zb | pb
    · rw [Binary.unpacked_zero zb]
      exact value?_packed_zero _
    · rw [Binary.unpacked_pos pb]
      exact value?_packed_zero _
  · rcases Nat.eq_zero_or_pos b.magnitude with zb | pb
    · rw [Binary.value_of_zero zb, mul_zero, Binary.unpacked_pos pa, Binary.unpacked_zero zb]
      exact ComesTo.of_zero (value?_packed_zero _)
    · have fine : a.exponent + b.exponent ≤
          stepOf (a.magnitude * b.magnitude) (a.exponent + b.exponent) := by
        refine le_stepOf ?_
        rcases Int.lt_or_le (-1074) a.exponent with above | least
        · exact Or.inl (Nat.le_trans (na.leading above) (Nat.le_mul_of_pos_right _ pb))
        · rcases Int.lt_or_le (-1074) b.exponent with above | least'
          · exact Or.inl (Nat.le_trans (nb.leading above) (Nat.le_mul_of_pos_left _ pa))
          · exact Or.inr (by omega)
      have rounded := comesTo_rounded (signOf a.negative * signOf b.negative) fine
      have values : (((signOf a.negative * signOf b.negative).apply
          (a.magnitude * b.magnitude : Nat) : Int) : ℚ) * 2 ^ (a.exponent + b.exponent) =
            a.value * b.value := by
        rw [apply_mul, two_zpow_add, Binary.value, Binary.value, Binary.signed_eq, Binary.signed_eq]
        push_cast
        ring
      rw [values] at rounded
      rw [Binary.unpacked_pos pa, Binary.unpacked_pos pb]
      exact rounded

/-! ### Sums -/

/-- Giving a mantissa more bits keeps its value. -/
theorem decreaseExponent_value (m : Nat) {e t : Int} (h : t ≤ e) :
    ((decreaseExponent m e t).1 : ℚ) * 2 ^ t = m * 2 ^ e := by
  have shift : e = (e - t).toNat + t := by omega
  show ((m <<< (e - t).toNat : Nat) : ℚ) * 2 ^ t = _
  rw [Nat.shiftLeft_eq]
  conv_rhs => rw [shift, two_zpow_add, zpow_natCast]
  push_cast
  ring

theorem apply_decreaseExponent (s : Sign) (m : Nat) {e t : Int} (h : t ≤ e) :
    ((s.apply (decreaseExponent m e t).1 : Int) : ℚ) * 2 ^ t = (s.apply m : Int) * 2 ^ e := by
  have same := decreaseExponent_value m h
  cases s <;> simp only [Sign.apply] <;> push_cast <;> linarith

/-- Shifting a mantissa and its exponent against each other keeps the step. -/
theorem stepOf_shift {m : Nat} (pos : 0 < m) (e : Int) (k : Nat) :
    stepOf (m <<< k) (e - k) = stepOf m e := by
  have ne := Nat.ne_of_gt pos
  have bits : (m <<< k).log2 = m.log2 + k := by
    have low := Nat.mul_le_mul_right (2 ^ k) (Nat.log2_self_le ne)
    have high := Nat.mul_lt_mul_of_pos_right (Nat.lt_log2_self (n := m)) (Nat.two_pow_pos k)
    rw [Nat.shiftLeft_eq]
    refine log2_eq_of_mem ?_ ?_
    · rwa [Nat.pow_add]
    · rwa [Nat.add_right_comm, Nat.pow_add]
  unfold stepOf
  rw [bits]
  push_cast
  congr 1
  ring

theorem comesTo_round (s : Sign) {m : Nat} (pos : 0 < m) (e : Int) :
    ComesTo (packed (UnpackedFloat.round .binary64 s m e)) ((s.apply m : Int) * 2 ^ e) := by
  unfold UnpackedFloat.round
  rw [targetExponent_eq]
  dsimp only [decreaseExponent]
  generalize hk : (e - stepOf m e).toNat = k
  have pos' : 0 < m <<< k := by
    rw [Nat.shiftLeft_eq]
    exact Nat.mul_pos pos (Nat.two_pow_pos k)
  have step := stepOf_shift pos e k
  have rounded := comesTo_rounded s (m := m <<< k) (e := e - k) (by omega)
  have same : ((s.apply (m <<< k : Nat) : Int) : ℚ) * 2 ^ (e - k) = (s.apply m : Int) * 2 ^ e := by
    have shift : e = k + (e - k) := by omega
    conv_rhs => rw [shift, two_zpow_add, zpow_natCast]
    rw [Nat.shiftLeft_eq]
    cases s <;> simp only [Sign.apply] <;> push_cast <;> ring
  rw [same] at rounded
  exact rounded

theorem comesTo_normalize (n : Int) (e : Int) (zeroSign : Sign) :
    ComesTo (packed (UnpackedFloat.normalize .binary64 n e zeroSign)) (n * 2 ^ e) := by
  unfold UnpackedFloat.normalize
  cases order : compare n 0 with
  | lt =>
    have neg := Int.compare_eq_lt.mp order
    have rounded := comesTo_round .negative (m := (-n).toNat) (by omega) e
    have same : Sign.negative.apply ((-n).toNat : Int) = n := by
      show -((-n).toNat : Int) = n
      omega
    rw [same] at rounded
    exact rounded
  | eq =>
    have zero := Int.compare_eq_eq.mp order
    rw [zero, Int.cast_zero, zero_mul]
    exact ComesTo.of_zero (value?_packed_zero _)
  | gt =>
    have pos := Int.compare_eq_gt.mp order
    have rounded := comesTo_round .positive (m := n.toNat) (by omega) e
    have same : Sign.positive.apply (n.toNat : Int) = n := by
      show (n.toNat : Int) = n
      omega
    rw [same] at rounded
    exact rounded

/-- Addition of normal fractions rounds the exact sum, the case of a zero sum included. -/
theorem comesTo_packed_add {a b : Binary} (na : a.Normal) (nb : b.Normal) :
    ComesTo (packed (UnpackedFloat.add .binary64 a.unpacked b.unpacked)) (a.value + b.value) := by
  rcases Nat.eq_zero_or_pos a.magnitude with za | pa
  · rw [Binary.value_of_zero za, zero_add, Binary.unpacked_zero za]
    rcases Nat.eq_zero_or_pos b.magnitude with zb | pb
    · rw [Binary.value_of_zero zb, Binary.unpacked_zero zb]
      simp only [UnpackedFloat.add]
      split <;> exact ComesTo.of_zero (value?_packed_zero _)
    · have alone := nb.comesTo
      rw [Binary.unpacked_pos pb] at alone ⊢
      exact alone
  · rcases Nat.eq_zero_or_pos b.magnitude with zb | pb
    · have alone := na.comesTo
      rw [Binary.value_of_zero zb, add_zero, Binary.unpacked_zero zb]
      rw [Binary.unpacked_pos pa] at alone ⊢
      exact alone
    · -- both mantissas are taken to the smaller exponent, where their sum is exact
      have least : min a.exponent b.exponent ≤ a.exponent := min_le_left _ _
      have least' : min a.exponent b.exponent ≤ b.exponent := min_le_right _ _
      have sum := comesTo_normalize
        ((signOf a.negative).apply (decreaseExponent a.magnitude a.exponent
            (min a.exponent b.exponent)).1 +
          (signOf b.negative).apply (decreaseExponent b.magnitude b.exponent
            (min a.exponent b.exponent)).1)
        (min a.exponent b.exponent) .positive
      rw [Int.cast_add, add_mul, apply_decreaseExponent _ _ least,
        apply_decreaseExponent _ _ least', ← Binary.signed_eq, ← Binary.signed_eq] at sum
      rw [Binary.unpacked_pos pa, Binary.unpacked_pos pb]
      exact sum

/-- Addition rounds the exact sum. -/
theorem comesTo_add {x y : Float} {p q : ℚ} (hx : value? x = some p) (hy : value? y = some q) :
    ComesTo (x + y) (p + q) := by
  obtain ⟨a, na, ua, rfl⟩ := exists_of_value? hx
  obtain ⟨b, nb, ub, rfl⟩ := exists_of_value? hy
  have sum : x + y = packed (UnpackedFloat.add .binary64 a.unpacked b.unpacked) := by
    rw [← ua, ← ub]
    rfl
  rw [sum]
  exact comesTo_packed_add na nb

/-! ### Differences -/

def Binary.neg (b : Binary) : Binary := { b with negative := !b.negative }

theorem Binary.value_neg (b : Binary) : b.neg.value = -b.value := by
  unfold value signed neg
  cases b.negative <;> simp

theorem Binary.unpacked_neg (b : Binary) : b.neg.unpacked = b.unpacked.neg := by
  have sign : signOf b.neg.negative = -signOf b.negative := by
    unfold neg signOf
    cases b.negative <;> rfl
  rcases Nat.eq_zero_or_pos b.magnitude with zero | pos
  · rw [unpacked_zero zero, unpacked_zero (show b.neg.magnitude = 0 from zero), sign]
    rfl
  · rw [unpacked_pos pos, unpacked_pos (show 0 < b.neg.magnitude from pos), sign]
    rfl

theorem Binary.Normal.neg {b : Binary} (normal : b.Normal) : b.neg.Normal :=
  ⟨normal.low, normal.high, normal.below, normal.leading⟩

theorem value?_neg {x : Float} {p : ℚ} (hx : value? x = some p) : value? (-x) = some (-p) := by
  obtain ⟨b, normal, unpacks, rfl⟩ := exists_of_value? hx
  have other : -x = packed b.neg.unpacked := by
    rw [Binary.unpacked_neg, ← unpacks]
    rfl
  rw [other, value?_packed_unpacked normal.neg, Binary.value_neg]

/-- Subtraction adds the opposite, also where neither is finite. -/
theorem unpacked_sub (u v : UnpackedFloat) :
    UnpackedFloat.sub .binary64 u v = UnpackedFloat.add .binary64 u v.neg := by
  cases u with
  | finite s m e pos =>
    cases v with
    | finite s' m' e' pos' =>
      have sign (n : Int) : (-s').apply n = -s'.apply n := by
        cases s' with
        | negative => exact (Int.neg_neg n).symm
        | positive => rfl
      simp only [UnpackedFloat.sub, UnpackedFloat.add, UnpackedFloat.neg, sign, Int.sub_eq_add_neg]
    | _ => rfl
  | _ => cases v <;> rfl

/-- Subtraction rounds the exact difference. -/
theorem comesTo_sub {x y : Float} {p q : ℚ} (hx : value? x = some p) (hy : value? y = some q) :
    ComesTo (x - y) (p - q) := by
  obtain ⟨a, na, ua, rfl⟩ := exists_of_value? hx
  obtain ⟨b, nb, ub, rfl⟩ := exists_of_value? hy
  have difference : x - y = packed (UnpackedFloat.add .binary64 a.unpacked b.neg.unpacked) := by
    rw [Binary.unpacked_neg, ← unpacked_sub, ← ua, ← ub]
    rfl
  rw [difference, sub_eq_add_neg, ← Binary.value_neg]
  exact comesTo_packed_add na nb.neg

/-- An infinity, or no number at all. -/
def Endless (u : UnpackedFloat) : Prop := (∃ s, u = .infinity s) ∨ u = .notANumber

theorem endless_infinity (s : Sign) : Endless (.infinity s) := Or.inl ⟨s, rfl⟩

theorem endless_notANumber : Endless .notANumber := Or.inr rfl

theorem Endless.ofFloat?_packed {u : UnpackedFloat} (h : Endless u) :
    Binary.ofFloat? (packed u) = none := by
  rcases h with ⟨s, rfl⟩ | rfl
  · exact ofFloat?_packed_infinity s
  · exact ofFloat?_packed_notANumber

theorem Endless.sub_left {u : UnpackedFloat} (h : Endless u) (v : UnpackedFloat) :
    Endless (UnpackedFloat.sub .binary64 u v) := by
  rcases h with ⟨s, rfl⟩ | rfl
  · cases v with
    | notANumber => exact endless_notANumber
    | infinity t =>
      simp only [UnpackedFloat.sub]
      split
      · exact endless_infinity s
      · exact endless_notANumber
    | zero t => exact endless_infinity s
    | finite t m e pos => exact endless_infinity s
  · exact endless_notANumber

theorem Endless.sub_right {v : UnpackedFloat} (h : Endless v) (u : UnpackedFloat) :
    Endless (UnpackedFloat.sub .binary64 u v) := by
  cases u with
  | notANumber => exact endless_notANumber
  | infinity s => exact (endless_infinity s).sub_left v
  | zero s =>
    rcases h with ⟨t, rfl⟩ | rfl
    · exact endless_infinity (-t)
    · exact endless_notANumber
  | finite s m e pos =>
    rcases h with ⟨t, rfl⟩ | rfl
    · exact endless_infinity (-t)
    · exact endless_notANumber

/-- An operand that is not finite makes a difference that is not finite. -/
theorem finite_of_sub {x y : Float} (h : (Binary.ofFloat? (x - y)).isSome = true) :
    (Binary.ofFloat? x).isSome = true ∧ (Binary.ofFloat? y).isSome = true := by
  rw [Option.isSome_iff_ne_none] at h
  constructor
  · rw [Option.isSome_iff_ne_none]
    exact fun none => h (Endless.sub_left (unpack_of_ofFloat?_none none) _).ofFloat?_packed
  · rw [Option.isSome_iff_ne_none]
    exact fun none => h (Endless.sub_right (unpack_of_ofFloat?_none none) _).ofFloat?_packed

theorem Endless.mul_right {v : UnpackedFloat} (h : Endless v) (u : UnpackedFloat) :
    Endless (UnpackedFloat.mul .binary64 u v) := by
  rcases h with ⟨t, rfl⟩ | rfl
  · cases u with
    | notANumber => exact endless_notANumber
    | infinity s => exact endless_infinity _
    | zero s => exact endless_notANumber
    | finite s m e pos => exact endless_infinity _
  · cases u <;> exact endless_notANumber

/-- A factor that is not finite makes a product that is not finite, even if the other one is
zero. -/
theorem finite_of_mul {x y : Float} (h : (Binary.ofFloat? (x * y)).isSome = true) :
    (Binary.ofFloat? y).isSome = true := by
  rw [Option.isSome_iff_ne_none] at h ⊢
  exact fun none => h (Endless.mul_right (unpack_of_ofFloat?_none none) _).ofFloat?_packed

/-! ### Quotients -/

theorem apply_div (s t : Sign) (m n : Nat) :
    (((s / t).apply m : Int) : ℚ) / n = (s.apply m : Int) / (t.apply n : Int) := by
  cases s <;> cases t
  · show ((m : Int) : ℚ) / n = (-m : Int) / (-n : Int)
    push_cast
    rw [neg_div_neg_eq]
  · show ((-m : Int) : ℚ) / n = (-m : Int) / (n : Int)
    push_cast
    rfl
  · show ((-m : Int) : ℚ) / n = (m : Int) / (-n : Int)
    push_cast
    rw [neg_div, div_neg]
  · rfl

/-- The dividend is shifted so far that its quotient has at least 53 bits, or reaches the finest
step. -/
theorem le_stepOf_quotient {m n : Nat} (hm : 0 < m) (hn : 0 < n) {e t : Int} (least : t ≤ e)
    (bits : t ≤ -1074 ∨ t + n.log2 + 53 ≤ e + m.log2) :
    t ≤ stepOf ((m <<< (e - t).toNat) / n) t := by
  refine le_stepOf ?_
  rcases bits with small | large
  · exact Or.inr small
  · have long : n.log2 + 53 ≤ m.log2 + (e - t).toNat := by omega
    refine Or.inl ((Nat.le_div_iff_mul_le hn).mpr ?_)
    calc 2 ^ 52 * n ≤ 2 ^ 52 * 2 ^ (n.log2 + 1) := Nat.mul_le_mul_left _ Nat.lt_log2_self.le
      _ = 2 ^ (n.log2 + 53) := by rw [← Nat.pow_add, Nat.add_comm 52, Nat.add_assoc]
      _ ≤ 2 ^ (m.log2 + (e - t).toNat) := Nat.pow_le_pow_right Nat.two_pos long
      _ ≤ m <<< (e - t).toNat := by
        rw [Nat.shiftLeft_eq, Nat.pow_add]
        exact Nat.mul_le_mul_right _ (Nat.log2_self_le (Nat.ne_of_gt hm))

/-- Division of normal fractions rounds a quotient of whole numbers whose value is
`a.value / b.value`. -/
theorem exists_quotient {a b : Binary} (pa : 0 < a.magnitude) (pb : 0 < b.magnitude) :
    ∃ (num : Nat) (e : Int), e ≤ stepOf (num / b.magnitude) e ∧
      (((signOf a.negative / signOf b.negative).apply num : Int) : ℚ) / b.magnitude * 2 ^ e =
        a.value / b.value ∧
      UnpackedFloat.div .binary64 a.unpacked b.unpacked =
        roundWithAccuracy .binary64 (signOf a.negative / signOf b.negative) (num / b.magnitude) e
          (accuracyOfFraction (num % b.magnitude) b.magnitude) := by
  rw [Binary.unpacked_pos pa, Binary.unpacked_pos pb]
  simp only [UnpackedFloat.div, divCore]
  generalize ht : min (a.exponent - b.exponent) _ = t
  have target : t = min (a.exponent - b.exponent)
      (max (a.magnitude.log2 + a.exponent - (b.magnitude.log2 + b.exponent) - 53) (-1074)) := by
    rw [← ht]
    congr 2
    rw [Format.targetExponent, show Format.binary64.mantissaBits = 53 from rfl,
      show Format.binary64.minExponent = -1074 from rfl]
    unfold totalExponent
    congr 1
    push_cast
    ring
  refine ⟨a.magnitude <<< (a.exponent - b.exponent - t).toNat, t,
    le_stepOf_quotient pa pb (by omega) (by omega), ?_, rfl⟩
  have scaled := apply_decreaseExponent (signOf a.negative) a.magnitude
    (show t ≤ a.exponent - b.exponent by omega)
  rw [decreaseExponent] at scaled
  rw [apply_div, div_mul_eq_mul_div, scaled, Binary.value, Binary.value, Binary.signed_eq,
    Binary.signed_eq, zpow_sub₀ (by norm_num), ← mul_div_assoc, div_div, mul_comm (2 ^ _)]

theorem div_eq_packed {x y : Float} {a b : Binary} (ua : x.toModel.unpack = a.unpacked)
    (ub : y.toModel.unpack = b.unpacked) :
    x / y = packed (UnpackedFloat.div .binary64 a.unpacked b.unpacked) := by
  rw [← ua, ← ub]
  rfl

theorem Binary.magnitude_pos {b : Binary} (some : b.value ≠ 0) : 0 < b.magnitude :=
  Nat.pos_of_ne_zero fun zero => some (value_of_zero zero)

section Division

variable {x y : Float} {p q : ℚ}

/-- Division by a double that is not zero rounds the exact quotient. -/
theorem comesTo_div (hx : value? x = some p) (hy : value? y = some q) (some : q ≠ 0) :
    ComesTo (x / y) (p / q) := by
  obtain ⟨a, na, ua, rfl⟩ := exists_of_value? hx
  obtain ⟨b, nb, ub, rfl⟩ := exists_of_value? hy
  have pb := Binary.magnitude_pos some
  rw [div_eq_packed ua ub]
  rcases Nat.eq_zero_or_pos a.magnitude with za | pa
  · rw [Binary.value_of_zero za, zero_div, Binary.unpacked_zero za, Binary.unpacked_pos pb]
    exact ComesTo.of_zero (value?_packed_zero _)
  · obtain ⟨num, e, fine, value, quotient⟩ := exists_quotient pa pb
    rw [quotient, ← value]
    exact comesTo_quotient _ pb fine

/-- A quotient beyond the range is an infinity, and its sign is that of `p / q`. -/
theorem div_infinite (hx : value? x = some p) (hy : value? y = some q) (some : q ≠ 0)
    (none : value? (x / y) = none) :
    ∃ s, x / y = packed (.infinity s) ∧ (s = .positive ↔ 0 < p / q) := by
  obtain ⟨a, na, ua, rfl⟩ := exists_of_value? hx
  obtain ⟨b, nb, ub, rfl⟩ := exists_of_value? hy
  have pb := Binary.magnitude_pos some
  rcases Nat.eq_zero_or_pos a.magnitude with za | pa
  · rw [div_eq_packed ua ub, Binary.unpacked_zero za, Binary.unpacked_pos pb] at none
    exact absurd ((value?_packed_zero _).symm.trans none) (Option.some_ne_none 0)
  · obtain ⟨num, e, fine, value, quotient⟩ := exists_quotient pa pb
    rw [div_eq_packed ua ub, quotient] at none ⊢
    refine ⟨_, packed_quotient_infinite _ pb fine none, ?_⟩
    have size : (0 : ℚ) ≤ num / b.magnitude * 2 ^ e :=
      mul_nonneg (by positivity) (zpow_pos (by norm_num) e).le
    have nonzero : a.value / b.value ≠ 0 :=
      div_ne_zero (abs_pos.mp (a.abs_value ▸ Binary.size_pos pa)) some
    rw [← value] at nonzero ⊢
    generalize signOf a.negative / signOf b.negative = s at nonzero ⊢
    cases s with
    | negative =>
      have negated : ((Sign.negative.apply num : Int) : ℚ) / b.magnitude * 2 ^ e =
          -(num / b.magnitude * 2 ^ e) := by
        simp only [Sign.apply]
        push_cast
        ring
      rw [negated]
      exact ⟨Sign.noConfusion, fun pos => absurd size (by linarith)⟩
    | positive => exact ⟨fun _ => lt_of_le_of_ne size nonzero.symm, fun _ => rfl⟩

end Division

/-! ### Order -/

/-- A fraction below `2 ^ (t + 53)` has an exponent of at most `t`, because its mantissa has a
leading bit. -/
theorem Binary.Normal.exponent_le_of_lt {b : Binary} (normal : b.Normal) {t : Int}
    (least : -1074 ≤ t) (below : b.size < 2 ^ (t + 53)) : b.exponent ≤ t := by
  by_contra higher
  refine absurd below (not_lt.mpr ?_)
  calc (2 : ℚ) ^ (t + 53) ≤ 2 ^ (b.exponent + 52) := two_zpow_le (by omega)
    _ ≤ b.size := le_mul_zpow (normal.leading (by omega)) b.exponent

/-- Exponents are monotone in size. -/
theorem Binary.Normal.exponent_le {a b : Binary} (na : a.Normal) (nb : b.Normal)
    (le : a.size ≤ b.size) : a.exponent ≤ b.exponent :=
  na.exponent_le_of_lt nb.low (le.trans_lt (mul_zpow_lt nb.below b.exponent))

/-- The order by exponent, then by mantissa, as the comparison of doubles goes. -/
def magnitudeOrder (a b : Binary) : Ordering :=
  (compare a.exponent b.exponent).then (compare a.magnitude b.magnitude)

theorem magnitudeOrder_of_lt {a b : Binary} (na : a.Normal) (nb : b.Normal)
    (less : a.size < b.size) : magnitudeOrder a b = .lt := by
  unfold magnitudeOrder
  rcases (na.exponent_le nb less.le).lt_or_eq with lower | same
  · rw [Int.compare_eq_lt.mpr lower]
    rfl
  · rw [Binary.size, same] at less
    have mantissas : a.magnitude < b.magnitude := by
      exact_mod_cast lt_of_mul_lt_mul_right less (zpow_pos (by norm_num) _).le
    rw [Int.compare_eq_eq.mpr same, Nat.compare_eq_lt.mpr mantissas]
    rfl

/-- Fractions of equal size agree in exponent and magnitude. -/
theorem Binary.Normal.parts_eq {a b : Binary} (na : a.Normal) (nb : b.Normal)
    (equal : a.size = b.size) : a.exponent = b.exponent ∧ a.magnitude = b.magnitude := by
  have same : a.exponent = b.exponent :=
    le_antisymm (na.exponent_le nb equal.le) (nb.exponent_le na equal.ge)
  rw [Binary.size, Binary.size, same] at equal
  exact ⟨same, by exact_mod_cast mul_right_cancel₀ (zpow_pos (by norm_num) _).ne' equal⟩

theorem magnitudeOrder_of_eq {a b : Binary} (na : a.Normal) (nb : b.Normal)
    (equal : a.size = b.size) : magnitudeOrder a b = .eq := by
  obtain ⟨same, mantissas⟩ := na.parts_eq nb equal
  rw [magnitudeOrder, Int.compare_eq_eq.mpr same, Nat.compare_eq_eq.mpr mantissas]
  rfl

theorem magnitudeOrder_swap (a b : Binary) : (magnitudeOrder a b).swap = magnitudeOrder b a := by
  rw [magnitudeOrder, magnitudeOrder, Ordering.swap_then, Int.compare_swap, Nat.compare_swap]

/-- For normal fractions `magnitudeOrder` is the order of sizes. -/
theorem magnitudeOrder_eq {a b : Binary} (na : a.Normal) (nb : b.Normal) :
    magnitudeOrder a b = compare a.size b.size := by
  rcases lt_trichotomy a.size b.size with less | same | more
  · rw [magnitudeOrder_of_lt na nb less, compare_lt_iff_lt.mpr less]
  · rw [magnitudeOrder_of_eq na nb same, compare_eq_iff_eq.mpr same]
  · rw [← magnitudeOrder_swap, magnitudeOrder_of_lt nb na more, compare_gt_iff_gt.mpr more]
    rfl

theorem compare_neg (p q : ℚ) : compare (-p) (-q) = compare q p := by
  rcases lt_trichotomy q p with less | rfl | more
  · rw [compare_lt_iff_lt.mpr less, compare_lt_iff_lt.mpr (neg_lt_neg less)]
  · rw [compare_eq_iff_eq.mpr rfl, compare_eq_iff_eq.mpr rfl]
  · rw [compare_gt_iff_gt.mpr more, compare_gt_iff_gt.mpr (neg_lt_neg more)]

/-- For normal fractions `compare` is the order of values. -/
theorem Binary.compare_unpacked {a b : Binary} (na : a.Normal) (nb : b.Normal) :
    a.unpacked.compare b.unpacked = some (compare a.value b.value) := by
  rcases Nat.eq_zero_or_pos a.magnitude with za | pa <;>
    rcases Nat.eq_zero_or_pos b.magnitude with zb | pb
  · rw [unpacked_zero za, unpacked_zero zb, value_of_zero za, value_of_zero zb,
      compare_eq_iff_eq.mpr rfl]
    rfl
  · have right := size_pos pb
    rw [unpacked_zero za, unpacked_pos pb, value_of_zero za]
    cases sb : b.negative with
    | false =>
      rw [value_of_positive sb, compare_lt_iff_lt.mpr right]
      rfl
    | true =>
      rw [value_of_negative sb, compare_gt_iff_gt.mpr (neg_lt_zero.mpr right)]
      rfl
  · have left := size_pos pa
    rw [unpacked_pos pa, unpacked_zero zb, value_of_zero zb]
    cases sa : a.negative with
    | false =>
      rw [value_of_positive sa, compare_gt_iff_gt.mpr left]
      rfl
    | true =>
      rw [value_of_negative sa, compare_lt_iff_lt.mpr (neg_lt_zero.mpr left)]
      rfl
  · have left := size_pos pa
    have right := size_pos pb
    rw [unpacked_pos pa, unpacked_pos pb]
    cases sa : a.negative <;> cases sb : b.negative
    · rw [value_of_positive sa, value_of_positive sb]
      exact congrArg some (magnitudeOrder_eq na nb)
    · rw [value_of_positive sa, value_of_negative sb,
        compare_gt_iff_gt.mpr ((neg_lt_zero.mpr right).trans left)]
      rfl
    · rw [value_of_negative sa, value_of_positive sb,
        compare_lt_iff_lt.mpr ((neg_lt_zero.mpr left).trans right)]
      rfl
    · rw [value_of_negative sa, value_of_negative sb, compare_neg]
      exact congrArg some ((magnitudeOrder_swap a b).trans (magnitudeOrder_eq nb na))

/-- For finite doubles `x < y` iff their values satisfy it. -/
theorem lt_iff_value {x y : Float} {p q : ℚ} (hx : value? x = some p) (hy : value? y = some q) :
    x < y ↔ p < q := by
  obtain ⟨a, na, ua, rfl⟩ := exists_of_value? hx
  obtain ⟨b, nb, ub, rfl⟩ := exists_of_value? hy
  have order := Binary.compare_unpacked na nb
  rw [← ua, ← ub] at order
  show decide (x.toModel.unpack.lt y.toModel.unpack = true) = true ↔ _
  rw [UnpackedFloat.lt, order, decide_eq_true_iff, beq_iff_eq, Option.some.injEq, compare_lt_iff_lt]

theorem le_iff_value {x y : Float} {p q : ℚ} (hx : value? x = some p) (hy : value? y = some q) :
    x ≤ y ↔ p ≤ q := by
  obtain ⟨a, na, ua, rfl⟩ := exists_of_value? hx
  obtain ⟨b, nb, ub, rfl⟩ := exists_of_value? hy
  have order := Binary.compare_unpacked na nb
  rw [← ua, ← ub] at order
  show decide (x.toModel.unpack.le y.toModel.unpack = true) = true ↔ _
  rw [UnpackedFloat.le, order, decide_eq_true_iff, Option.any_some, Ordering.isLE_iff_ne_gt]
  exact (not_congr compare_gt_iff_gt).trans not_lt

end CellWorld.Number
