import CellWorld.Proofs.Rounding

/-!
# Doubles as their arithmetic sees them

An operation on doubles takes its operands apart into sign, mantissa and exponent, computes with
whole numbers, and rounds the result to a mantissa that fits before it puts the parts together
again.

* `Binary.unpacked`, `unpack_of_ofFloat?` — a finite double unpacks to the parts of its fraction
* `packed`, `ofFloat?_packed` — `Binary.ofFloat? (packed b.unpacked) = some b` for `b.Normal`
* `packed_large` — exponent `972` or more is packed as an infinity
* `stepOf m e` — `max (m.log2 + e - 52) (-1074)`, the exponent of the last bit that is kept of
  `m * 2 ^ e`
* `roundDiv_near` — `2 * |num - roundDiv num den * den| ≤ den`
* `roundWithAccuracy_eq` — the rounding of an operation keeps `roundedBits num den e` of a quotient

What the kept bits have to do with the value of the result is in `Proofs.Doubles`.
-/

open Float.Model Float.Model.UnpackedFloat

namespace CellWorld.Number

/-! ### The parts of a double -/

def word (x : Float) : Word := x.toBits.toBitVec

def signOf (negative : Bool) : Sign := if negative then .negative else .positive

/-- A binary fraction as `UnpackedFloat`: zero has no exponent. -/
def Binary.unpacked (b : Binary) : UnpackedFloat :=
  if h : b.magnitude = 0 then .zero (signOf b.negative)
  else .finite (signOf b.negative) b.magnitude b.exponent (Nat.pos_of_ne_zero h)

theorem Binary.unpacked_zero {b : Binary} (h : b.magnitude = 0) :
    b.unpacked = .zero (signOf b.negative) := dif_pos h

theorem Binary.unpacked_pos {b : Binary} (h : 0 < b.magnitude) :
    b.unpacked = .finite (signOf b.negative) b.magnitude b.exponent h := dif_neg (Nat.ne_of_gt h)

theorem ofBitVec_unpackSign (w : Word) :
    Sign.ofBitVec (unpackSign w) = signOf (w.toNat / 2 ^ 63 == 1) := by
  have field := toNat_unpackSign w
  have small : w.toNat < 2 ^ 64 := w.isLt
  unfold Sign.ofBitVec signOf
  by_cases zero : unpackSign w = 0#1
  · have positive : ¬(w.toNat / 2 ^ 63 == 1) = true := by
      rw [zero, show (0#1).toNat = 0 from rfl] at field
      rw [beq_iff_eq]
      omega
    rw [if_pos zero, if_neg positive]
  · have negative : (w.toNat / 2 ^ 63 == 1) = true := by
      have one : (unpackSign w).toNat ≠ 0 := fun h => zero (BitVec.eq_of_toNat_eq h)
      rw [beq_iff_eq]
      omega
    rw [if_neg zero, if_pos negative]

/-- A finite double unpacks to its fraction. -/
theorem unpack_of_ofFloat? {x : Float} {b : Binary} (h : Binary.ofFloat? x = some b) :
    x.toModel.unpack = b.unpacked := by
  have exponent : (unpackExponent (word x)).toNat =
    x.toBits.toNat / 2 ^ 52 % 2 ^ 11 := toNat_unpackExponent _
  have mantissa : (unpackMantissa (word x)).toNat = x.toBits.toNat % 2 ^ 52 :=
    toNat_unpackMantissa _
  have sign : Sign.ofBitVec (unpackSign (word x)) =
    signOf (x.toBits.toNat / 2 ^ 63 == 1) := ofBitVec_unpackSign _
  show UnpackedFloat.unpack .binary64 (word x) = _
  unfold UnpackedFloat.unpack
  dsimp only
  rw [sign]
  unfold Binary.ofFloat? at h
  dsimp only at h
  split at h
  · exact absurd h.symm (Option.some_ne_none b)
  · next finite =>
    have proper : ¬unpackExponent (word x) = -1#11 := by
      intro ones
      rw [ones] at exponent
      exact finite exponent.symm
    rw [if_neg proper]
    split at h
    · next small =>
      obtain rfl := Option.some.inj h
      have zero : unpackExponent (word x) = 0#11 :=
        BitVec.eq_of_toNat_eq (exponent.trans small)
      rw [if_pos zero, zero]
      have empty : unpackMantissa (word x) = 0#52 ↔ x.toBits.toNat % 2 ^ 52 = 0 := by
        rw [← mantissa]
        exact BitVec.toNat_inj.symm
      split
      · next nothing =>
        rw [Binary.unpacked_zero]
        · rfl
        · exact empty.mp nothing
      · next something =>
        rw [Binary.unpacked_pos]
        simp only [mantissa]
        rfl
    · next normal =>
      obtain rfl := Option.some.inj h
      have nonzero : ¬unpackExponent (word x) = 0#11 := by
        intro zero
        rw [zero] at exponent
        exact normal exponent.symm
      have leading : (1#1 ++ unpackMantissa (word x)).toNat =
          2 ^ 52 + x.toBits.toNat % 2 ^ 52 := by
        rw [BitVec.toNat_append, ← Nat.shiftLeft_add_eq_or_of_lt (BitVec.isLt _), mantissa]
        rfl
      rw [if_neg nonzero]
      rw [Binary.unpacked_pos (Nat.add_pos_left (by decide) _)]
      simp only [leading, exponent]
      rfl

/-- A double without a fraction is an infinity or a NaN. -/
theorem unpack_of_ofFloat?_none {x : Float} (h : Binary.ofFloat? x = none) :
    (∃ s, x.toModel.unpack = .infinity s) ∨ x.toModel.unpack = .notANumber := by
  have exponent : (unpackExponent (word x)).toNat =
    x.toBits.toNat / 2 ^ 52 % 2 ^ 11 := toNat_unpackExponent _
  unfold Binary.ofFloat? at h
  dsimp only at h
  split at h
  · next infinite =>
    have ones : unpackExponent (word x) = -1#11 :=
      BitVec.eq_of_toNat_eq (exponent.trans infinite)
    show (∃ s, UnpackedFloat.unpack .binary64 (word x) = _) ∨
      UnpackedFloat.unpack .binary64 (word x) = _
    unfold UnpackedFloat.unpack
    dsimp only
    rw [if_pos ones]
    split
    · exact Or.inl ⟨_, rfl⟩
    · exact Or.inr rfl
  · split at h <;> exact absurd h (Option.some_ne_none _)

/-- The double that an unpacked result is packed into. -/
def packed (u : UnpackedFloat) : Float := .ofModel (Float.Model.pack u)

theorem toBits_packed (u : UnpackedFloat) :
    (packed u).toBits.toNat = (UnpackedFloat.pack .binary64 u).toNat := rfl

/-- A double is determined by its bits, and a normal fraction by its own. -/
theorem ofFloat?_of_bits {x : Float} {b : Binary} (normal : b.Normal)
    (bits : x.toBits.toNat = (if b.negative then 2 ^ 63 else 0) + b.bits) :
    Binary.ofFloat? x = some b := by
  obtain ⟨low, high, below, leading⟩ := normal
  obtain ⟨negative, magnitude, exponent⟩ := b
  dsimp only [Binary.bits] at *
  have sign : (x.toBits.toNat / 0x8000000000000000 == 1) = negative := by
    cases negative with
    | false =>
      simp only [Bool.false_eq_true, if_false, beq_eq_false_iff_ne] at bits ⊢
      omega
    | true =>
      simp only [if_true, beq_iff_eq] at bits ⊢
      omega
  unfold Binary.ofFloat?
  dsimp only
  rw [sign]
  have rest : x.toBits.toNat % 2 ^ 63 = (exponent + 1074).toNat * 2 ^ 52 + magnitude := by
    cases negative <;> simp only [if_true, Bool.false_eq_true, if_false] at bits <;> omega
  rw [if_neg (by omega)]
  split
  · next small =>
    congr 2 <;> omega
  · next large =>
    congr 2 <;> omega

theorem toNat_signOf (negative : Bool) :
    (signOf negative).toBitVec.toNat * 2 ^ 63 = if negative then 2 ^ 63 else 0 := by
  cases negative <;> rfl

theorem log2_eq_of_mem {m k : Nat} (low : 2 ^ k ≤ m) (high : m < 2 ^ (k + 1)) : m.log2 = k :=
  (Nat.log2_eq_iff (Nat.ne_of_gt (Nat.lt_of_lt_of_le (Nat.two_pow_pos k) low))).mpr ⟨low, high⟩

theorem bits_packed {b : Binary} (normal : b.Normal) :
    (packed b.unpacked).toBits.toNat = (if b.negative then 2 ^ 63 else 0) + b.bits := by
  rw [toBits_packed]
  rcases Nat.eq_zero_or_pos b.magnitude with zero | pos
  · rw [Binary.unpacked_zero zero, normal.bits_eq_zero zero]
    show (packComponents .binary64 _ 0 0).toNat = _
    rw [toNat_components, toNat_signOf]
    rfl
  · obtain ⟨low, high, below, leading⟩ := normal
    rw [Binary.unpacked_pos pos]
    simp only [UnpackedFloat.pack]
    have biased : b.exponent + (Format.binary64.exponentBias : Int) + (52 : Nat) =
        b.exponent + 1075 := by
      rw [show Format.binary64.exponentBias = 1023 from rfl]
      omega
    rw [biased, if_neg (by norm_num; omega)]
    split
    · next leads =>
      have large : 2 ^ 52 ≤ b.magnitude := by
        rw [← show b.magnitude.log2 = 52 from Nat.succ.inj leads]
        exact Nat.log2_self_le (Nat.ne_of_gt pos)
      rw [toNat_components, toNat_signOf, BitVec.toNat_ofNat, BitVec.toNat_ofNat, Binary.bits]
      omega
    · next trails =>
      have small : b.magnitude < 2 ^ 52 := by
        by_contra large
        exact trails (congrArg Nat.succ (log2_eq_of_mem (Nat.not_lt.mp large) below))
      have least : b.exponent = -1074 := by
        by_contra more
        exact absurd (leading (by omega)) (Nat.not_le.mpr small)
      rw [toNat_components, toNat_signOf, BitVec.toNat_ofNat, BitVec.toNat_ofNat, Binary.bits,
        least]
      omega

/-- A normal fraction survives being packed. -/
theorem ofFloat?_packed {b : Binary} (normal : b.Normal) :
    Binary.ofFloat? (packed b.unpacked) = some b :=
  ofFloat?_of_bits normal (bits_packed normal)

theorem ofFloat?_of_ones {x : Float} (ones : unpackExponent (word x) = -1#11) :
    Binary.ofFloat? x = none := by
  have infinite : x.toBits.toNat / 2 ^ 52 % 2 ^ 11 = 2047 := by
    show (word x).toNat / 2 ^ 52 % 2 ^ 11 = 2047
    rw [← toNat_unpackExponent, ones]
    rfl
  unfold Binary.ofFloat?
  exact if_pos infinite

theorem ofFloat?_packed_infinity (s : Sign) : Binary.ofFloat? (packed (.infinity s)) = none :=
  ofFloat?_of_ones unpackExponent_packComponents

theorem ofFloat?_packed_notANumber : Binary.ofFloat? (packed .notANumber) = none :=
  ofFloat?_of_ones unpackExponent_packComponents

/-- From exponent `972` on, the result is an infinity, whatever the mantissa. -/
theorem packed_large {s : Sign} {m : Nat} {e : Int} (pos : 0 < m) (large : 972 ≤ e) :
    packed (.finite s m e pos) = packed (.infinity s) := by
  have biased : 2 ^ 11 ≤
      (e + (Format.binary64.exponentBias : Int) + (52 : Nat)).toNat + 1 := by
    rw [show Format.binary64.exponentBias = 1023 from rfl]
    norm_num
    omega
  have same : UnpackedFloat.pack .binary64 (.finite s m e pos) =
      UnpackedFloat.pack .binary64 (.infinity s) := if_pos biased
  unfold packed Float.Model.pack
  simp only [same]

/-! ### Shifting -/

/-- The remainder is not zero iff twice of it reaches the divisor or leaves a remainder. -/
theorem sticky_eq {r d : Nat} (rest : r < d) :
    (decide (d ≤ 2 * r) || decide (2 * r % d ≠ 0)) = decide (r ≠ 0) := by
  by_cases half : d ≤ 2 * r
  · simp only [half, decide_true, Bool.true_or]
    exact (decide_eq_true (by omega)).symm
  · rw [Nat.mod_eq_of_lt (Nat.not_le.mp half)]
    simp only [half, decide_false, Bool.false_or, decide_eq_decide]
    omega

/-- The round and sticky bits of a quotient, in terms of its remainder. -/
theorem extended_quotient (q : Nat) {r d : Nat} (rest : r < d) :
    ExtendedMantissa.ofMantissaAndAccuracy q (accuracyOfFraction r d) =
      ⟨q, decide (d ≤ 2 * r), decide (2 * r % d ≠ 0)⟩ := by
  unfold accuracyOfFraction
  split
  · next zero =>
    rw [zero, Nat.mul_zero, Nat.zero_mod, decide_eq_false (by omega), decide_eq_false (by simp)]
    rfl
  · next left =>
    cases order : compare (2 * r) d with
    | lt =>
      have less := Nat.compare_eq_lt.mp order
      rw [Nat.mod_eq_of_lt less, decide_eq_false (by omega), decide_eq_true (by omega)]
      rfl
    | eq =>
      have same := Nat.compare_eq_eq.mp order
      rw [same, Nat.mod_self, decide_eq_true (Nat.le_refl d), decide_eq_false (by simp)]
      rfl
    | gt =>
      have more := Nat.compare_eq_gt.mp order
      have excess : 2 * r % d = 2 * r - d := by
        rw [Nat.mod_eq_sub_mod more.le, Nat.mod_eq_of_lt (by omega)]
      rw [excess, decide_eq_true more.le, decide_eq_true (by omega)]
      rfl

/-- Dropping `k` bits of a quotient is dividing by `2 ^ k` more; the round and sticky bits
follow. -/
theorem shift_quotient (num : Nat) {den : Nat} (pos : 0 < den) (k : Nat) :
    ExtendedMantissa.ofMantissaAndAccuracy (num / den) (accuracyOfFraction (num % den) den) >>> k =
      ⟨num / (den * 2 ^ k), decide (den * 2 ^ k ≤ 2 * (num % (den * 2 ^ k))),
        decide (2 * (num % (den * 2 ^ k)) % (den * 2 ^ k) ≠ 0)⟩ := by
  induction k with
  | zero =>
    rw [Nat.pow_zero, Nat.mul_one]
    exact extended_quotient (num / den) (Nat.mod_lt num pos)
  | succ k ih =>
    have pos' : 0 < den * 2 ^ k := Nat.mul_pos pos (Nat.two_pow_pos k)
    have twice : den * 2 ^ (k + 1) = 2 * (den * 2 ^ k) := by rw [Nat.pow_succ]; ring
    show ((ExtendedMantissa.ofMantissaAndAccuracy (num / den)
      (accuracyOfFraction (num % den) den) >>> k).shiftRightOne) = _
    rw [ih, twice]
    generalize den * 2 ^ k = d at pos' ⊢
    have rest := Nat.mod_lt num pos'
    have split : num % (2 * d) = num % d + d * (num / d % 2) := by rw [Nat.mul_comm, Nat.mod_mul]
    have half : num / d / 2 = num / (2 * d) := by rw [Nat.div_div_eq_div_mul, Nat.mul_comm]
    rw [ExtendedMantissa.shiftRightOne, ExtendedMantissa.mk.injEq, sticky_eq rest, split,
      Nat.mul_mod_mul_left, Nat.add_mul_mod_self_left, Nat.mod_eq_of_lt rest, half]
    refine ⟨rfl, ?_, ?_⟩
    · rcases Nat.mod_two_eq_zero_or_one (num / d) with even | odd
      · rw [even]
        exact (decide_eq_false (by omega)).symm
      · rw [odd]
        exact (decide_eq_true (by omega)).symm
    · rw [decide_eq_decide]
      omega

theorem accuracyOfFraction_one (m : Nat) : accuracyOfFraction (m % 1) 1 = .exact := by
  rw [Nat.mod_one]
  rfl

/-- The case of denominator one. -/
theorem shift_eq (m k : Nat) :
    ExtendedMantissa.ofMantissaAndAccuracy m .exact >>> k =
      ⟨m / 2 ^ k, decide (2 ^ k ≤ 2 * (m % 2 ^ k)), decide (2 * (m % 2 ^ k) % 2 ^ k ≠ 0)⟩ := by
  have left := shift_quotient m Nat.one_pos k
  rwa [accuracyOfFraction_one, Nat.div_one, Nat.one_mul] at left

/-- Rounding to even after dropping `k` bits is `roundDiv` by `den * 2 ^ k`. -/
theorem roundedMantissa_shift (num : Nat) {den : Nat} (pos : 0 < den) (k : Nat) :
    (ExtendedMantissa.ofMantissaAndAccuracy (num / den) (accuracyOfFraction (num % den) den) >>>
      k).roundedMantissa = roundDiv num (den * 2 ^ k) .toEven := by
  rw [shift_quotient num pos, ExtendedMantissa.roundedMantissa]
  have rest := Nat.mod_lt num (Nat.mul_pos pos (Nat.two_pow_pos k))
  unfold roundDiv
  dsimp only
  generalize den * 2 ^ k = d at rest ⊢
  generalize num / d = q
  generalize num % d = r at rest ⊢
  cases order : compare (2 * r) d with
  | lt =>
    have less := Nat.compare_eq_lt.mp order
    rw [decide_eq_false (Nat.not_le.mpr less)]
    cases decide (2 * r % d ≠ 0) <;> rfl
  | eq =>
    have same := Nat.compare_eq_eq.mp order
    rw [same, decide_eq_true (Nat.le_refl d), Nat.mod_self]
    show q + q % 2 = if (q % 2 == 0) = true then q else q + 1
    rcases Nat.mod_two_eq_zero_or_one q with even | odd
    · rw [even]
      rfl
    · rw [odd]
      rfl
  | gt =>
    have more := Nat.compare_eq_gt.mp order
    have left : 2 * r % d ≠ 0 := by
      rw [Nat.mod_eq_sub_mod more.le, Nat.mod_eq_of_lt (by omega)]
      omega
    rw [decide_eq_true more.le, decide_eq_true left]
    rfl

/-- The result of `roundDiv` is the floor or the next number, and never the farther one. -/
theorem roundDiv_cases (num den : Nat) :
    (roundDiv num den .toEven = num / den ∧ 2 * (num % den) ≤ den) ∨
      (roundDiv num den .toEven = num / den + 1 ∧ den ≤ 2 * (num % den)) := by
  unfold roundDiv
  dsimp only
  cases order : compare (2 * (num % den)) den with
  | lt => exact Or.inl ⟨rfl, (Nat.compare_eq_lt.mp order).le⟩
  | gt => exact Or.inr ⟨rfl, (Nat.compare_eq_gt.mp order).le⟩
  | eq =>
    have same := Nat.compare_eq_eq.mp order
    dsimp only
    split
    · exact Or.inl ⟨rfl, same.le⟩
    · exact Or.inr ⟨rfl, same.ge⟩

/-- The error of `roundDiv` is half of the divisor at most. -/
theorem roundDiv_near (num : Nat) {den : Nat} (hden : 0 < den) :
    2 * |(num : ℚ) - roundDiv num den .toEven * den| ≤ den := by
  have rest : ((num % den : Nat) : ℚ) < den := by exact_mod_cast Nat.mod_lt num hden
  have nonneg : (0 : ℚ) ≤ ((num % den : Nat) : ℚ) := Nat.cast_nonneg _
  have parts : (num : ℚ) = den * ((num / den : Nat) : ℚ) + ((num % den : Nat) : ℚ) := by
    exact_mod_cast (Nat.div_add_mod num den).symm
  rcases roundDiv_cases num den with ⟨down, half⟩ | ⟨up, half⟩
  · have half' : 2 * ((num % den : Nat) : ℚ) ≤ den := by exact_mod_cast half
    have left : (num : ℚ) - roundDiv num den .toEven * den = ((num % den : Nat) : ℚ) := by
      rw [down, parts]
      ring
    rw [left, abs_of_nonneg nonneg]
    exact half'
  · have half' : (den : ℚ) ≤ 2 * ((num % den : Nat) : ℚ) := by exact_mod_cast half
    have left : (num : ℚ) - roundDiv num den .toEven * den = -(den - ((num % den : Nat) : ℚ)) := by
      rw [up, parts]
      push_cast
      ring
    rw [left, abs_neg, abs_of_nonneg (by linarith)]
    linarith

/-! ### Rounding -/

/-- The exponent of the last bit kept of `m * 2 ^ e`. -/
def stepOf (m : Nat) (e : Int) : Int := max (m.log2 + e - 52) (-1074)

theorem targetExponent_eq (m : Nat) (e : Int) :
    Format.binary64.targetExponent (totalExponent m e) = stepOf m e := by
  rw [Format.targetExponent, totalExponent, stepOf,
    show Format.binary64.mantissaBits = 53 from rfl,
    show Format.binary64.minExponent = -1074 from rfl]
  congr 1
  push_cast
  ring

/-- A mantissa below `2 ^ 53` is not shifted. -/
theorem shift_small {m : Nat} {t : Int} (least : -1074 ≤ t) (below : m < 2 ^ 53) :
    shiftToTargetExponent .binary64 m t .exact = (⟨m, false, false⟩, t) := by
  have bits : m.log2 ≤ 52 := by
    rcases Nat.eq_zero_or_pos m with rfl | pos
    · exact Nat.zero_le _
    · exact Nat.le_of_lt_succ ((Nat.log2_lt (Nat.ne_of_gt pos)).mpr below)
  have none : (stepOf m t - t).toNat = 0 := by
    unfold stepOf
    omega
  simp only [shiftToTargetExponent, shiftToExponent, targetExponent_eq, none]
  rw [shift_eq]
  simp [Nat.mod_one]

/-- A mantissa that was rounded up to `2 ^ 53` is shifted by one. -/
theorem shift_carry {t : Int} (least : -1074 ≤ t) :
    shiftToTargetExponent .binary64 (2 ^ 53) t .exact = (⟨2 ^ 52, false, false⟩, t + 1) := by
  have one : (stepOf (2 ^ 53) t - t).toNat = 1 := by
    unfold stepOf
    rw [Nat.log2_two_pow]
    omega
  simp only [shiftToTargetExponent, shiftToExponent, targetExponent_eq, one]
  rw [shift_eq]
  rfl

section Rounded

variable {m : Nat} {e : Int}

def dropped (m : Nat) (e : Int) : Nat := (stepOf m e - e).toNat

theorem add_dropped (fine : e ≤ stepOf m e) : e + dropped m e = stepOf m e := by
  unfold dropped
  omega

theorem div_dropped_lt (m : Nat) (e : Int) : m / 2 ^ dropped m e < 2 ^ 53 := by
  have enough : m.log2 + 1 ≤ 53 + dropped m e := by
    unfold dropped stepOf
    omega
  rw [Nat.div_lt_iff_lt_mul (Nat.two_pow_pos _), ← Nat.pow_add]
  exact Nat.lt_of_lt_of_le Nat.lt_log2_self (Nat.pow_le_pow_right (by decide) enough)

/-- Above the finest step, 53 bits are kept. -/
theorem le_div_dropped (fine : e ≤ stepOf m e) (above : -1074 < stepOf m e) :
    2 ^ 52 ≤ m / 2 ^ dropped m e := by
  have bits : m.log2 = 52 + dropped m e := by
    unfold dropped stepOf at *
    omega
  have pos : m ≠ 0 := by
    rintro rfl
    exact absurd bits (by rw [Nat.log2_zero]; omega)
  rw [Nat.le_div_iff_mul_le (Nat.two_pow_pos _), ← Nat.pow_add, ← bits]
  exact Nat.log2_self_le pos

variable {num den : Nat}

/-- The mantissa of the quotient after rounding to even. -/
def roundedBits (num den : Nat) (e : Int) : Nat :=
  roundDiv num (den * 2 ^ dropped (num / den) e) .toEven

theorem roundedBits_le (num den : Nat) (e : Int) : roundedBits num den e ≤ 2 ^ 53 := by
  have below := div_dropped_lt (num / den) e
  rw [Nat.div_div_eq_div_mul] at below
  rcases roundDiv_cases num (den * 2 ^ dropped (num / den) e) with ⟨down, -⟩ | ⟨up, -⟩
  · rw [roundedBits, down]
    omega
  · rw [roundedBits, up]
    omega

theorem le_roundedBits (fine : e ≤ stepOf (num / den) e) (above : -1074 < stepOf (num / den) e) :
    2 ^ 52 ≤ roundedBits num den e := by
  have leads := le_div_dropped fine above
  rw [Nat.div_div_eq_div_mul] at leads
  rcases roundDiv_cases num (den * 2 ^ dropped (num / den) e) with ⟨down, -⟩ | ⟨up, -⟩
  · rw [roundedBits, down]
    exact leads
  · rw [roundedBits, up]
    omega

/-- The three results of a rounding: zero, a mantissa below `2 ^ 53`, and the carry to the next
exponent. -/
theorem roundWithAccuracy_eq (s : Sign) (pos : 0 < den) (fine : e ≤ stepOf (num / den) e) :
    roundWithAccuracy .binary64 s (num / den) e (accuracyOfFraction (num % den) den) =
      if zero : roundedBits num den e = 0 then .zero s
      else if roundedBits num den e < 2 ^ 53 then
        .finite s (roundedBits num den e) (stepOf (num / den) e) (Nat.pos_of_ne_zero zero)
      else .finite s (2 ^ 52) (stepOf (num / den) e + 1) (by decide) := by
  have first : shiftToTargetExponent .binary64 (num / den) e (accuracyOfFraction (num % den) den) =
      (ExtendedMantissa.ofMantissaAndAccuracy (num / den) (accuracyOfFraction (num % den) den) >>>
        dropped (num / den) e, stepOf (num / den) e) := by
    rw [← add_dropped fine]
    simp only [shiftToTargetExponent, shiftToExponent, targetExponent_eq]
    rfl
  have least : -1074 ≤ stepOf (num / den) e := le_max_right _ _
  unfold roundWithAccuracy
  rw [first]
  dsimp only
  rw [roundedMantissa_shift num pos, ← roundedBits]
  by_cases fits : roundedBits num den e < 2 ^ 53
  · rw [shift_small least fits]
    simp only [fits, if_true]
  · have carried : roundedBits num den e = 2 ^ 53 := by
      have := roundedBits_le num den e
      omega
    rw [carried, shift_carry least]
    rfl

end Rounded

end CellWorld.Number
