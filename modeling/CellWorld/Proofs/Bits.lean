import Mathlib
import CellWorld.Number.Literal

/-!
# The bits of a double

A double is a word of 64 bits: a sign, eleven bits of an exponent, fifty-two of a fraction. A finite
one survives `unpack` and `pack`, also with the other sign.

* `toNat_components`, `toNat_unpackExponent`, `toNat_unpackMantissa`, `toNat_unpackSign` — a word is
  `sign * 2 ^ 63 + exponent * 2 ^ 52 + mantissa`
* `opposite`, `unpack_opposite` — the word with the other sign unpacks to `neg`
* `pack_unpack_of_finite` — `pack (unpack b) = b` if the exponent field is not `2047`
* `toBits_ofBits`, `toNat_toBits_neg` — the same for `Float.ofBits` and negation
* `Binary.bits`, `Binary.Normal` — the bits of a binary fraction without its sign, and the ranges of
  `exponent` and `magnitude`
* `normal_of_ofFloat?`, `eq_signed_ofBits` — a finite double is `± Float.ofBits b.bits` for its
  fraction `b`

NaNs and infinities are excluded throughout: `Float.toBits` does not determine a NaN.
-/

open Float.Model Float.Model.UnpackedFloat

namespace CellWorld.Number

/-! ### Fields -/

/-- The 64 bits of a double. -/
abbrev Word : Type := BitVec Format.binary64.numBits

/-- The three fields of a packed word, as digits of its value. -/
theorem toNat_components (s : Sign) (e : BitVec 11) (m : BitVec 52) :
    (packComponents Format.binary64 s e m).toNat =
      s.toBitVec.toNat * 2 ^ 63 + e.toNat * 2 ^ 52 + m.toNat := by
  unfold packComponents
  rw [BitVec.toNat_append, BitVec.toNat_append]
  rw [← Nat.shiftLeft_add_eq_or_of_lt m.isLt, ← Nat.shiftLeft_add_eq_or_of_lt e.isLt]
  simp only [Nat.shiftLeft_eq]
  ring

theorem toNat_unpackExponent (b : Word) :
    (unpackExponent b).toNat = b.toNat / 2 ^ 52 % 2 ^ 11 := by
  rw [unpackExponent_def, BitVec.extractLsb'_toNat, Nat.shiftRight_eq_div_pow]

theorem toNat_unpackMantissa (b : Word) : (unpackMantissa b).toNat = b.toNat % 2 ^ 52 := by
  rw [unpackMantissa_def, BitVec.extractLsb'_toNat, Nat.shiftRight_zero]

theorem toNat_unpackSign (b : Word) : (unpackSign b).toNat = b.toNat / 2 ^ 63 % 2 := by
  rw [unpackSign_def, BitVec.extractLsb'_toNat, Nat.shiftRight_eq_div_pow]
  rfl

/-! ### The other sign -/

/-- The word `b` with its sign bit flipped. -/
def opposite (b : Word) : Word :=
  packComponents Format.binary64 (-Sign.ofBitVec (unpackSign b)) (unpackExponent b)
    (unpackMantissa b)

theorem toNat_opposite {b : Word} (positive : b.toNat < 2 ^ 63) :
    (opposite b).toNat = 2 ^ 63 + b.toNat := by
  have sign : unpackSign b = 0#1 := by
    apply BitVec.eq_of_toNat_eq
    rw [toNat_unpackSign, Nat.div_eq_of_lt positive]
    rfl
  rw [opposite, sign, toNat_components, toNat_unpackExponent, toNat_unpackMantissa]
  show 1 * 2 ^ 63 + b.toNat / 2 ^ 52 % 2 ^ 11 * 2 ^ 52 + b.toNat % 2 ^ 52 = _
  omega

theorem unpack_opposite (b : Word) :
    UnpackedFloat.unpack .binary64 (opposite b) = (UnpackedFloat.unpack .binary64 b).neg := by
  have sign : Sign.ofBitVec (unpackSign (opposite b)) = -Sign.ofBitVec (unpackSign b) := by
    rw [opposite, unpackSign_packComponents, Sign.ofBitVec_toBitVec]
  have exponent : unpackExponent (opposite b) = unpackExponent b := unpackExponent_packComponents ..
  have mantissa : unpackMantissa (opposite b) = unpackMantissa b := unpackMantissa_packComponents ..
  unfold UnpackedFloat.unpack
  simp only [sign, exponent, mantissa]
  split_ifs <;> rfl

/-! ### Doubles -/

/-- A word with a finite exponent field is packed as it was unpacked. -/
theorem pack_unpack_of_finite {b : Word} (finite : b.toNat / 2 ^ 52 % 2 ^ 11 ≠ 2047) :
    UnpackedFloat.pack .binary64 (UnpackedFloat.unpack .binary64 b) = b := by
  have number : ¬ isNaNBits b = true := by
    simp only [isNaNBits, decide_eq_true_eq, not_and]
    intro infinite
    rw [← toNat_unpackExponent, infinite] at finite
    exact absurd rfl finite
  rw [pack_unpack b, if_neg number]

/-- For a finite word, `toBits` inverts `ofBits`. -/
theorem toBits_ofBits {n : UInt64} (finite : n.toNat / 2 ^ 52 % 2 ^ 11 ≠ 2047) :
    (Float.ofBits n).toBits = n := by
  show UInt64.ofBitVec (UnpackedFloat.pack Format.binary64
    (UnpackedFloat.unpack Format.binary64 n.toBitVec)) = n
  rw [pack_unpack_of_finite finite]

/-- Negation of a finite positive double sets bit 63 and no other. -/
theorem toNat_toBits_neg {x : Float} (finite : x.toBits.toNat / 2 ^ 52 % 2 ^ 11 ≠ 2047)
    (positive : x.toBits.toNat < 2 ^ 63) : (-x).toBits.toNat = 2 ^ 63 + x.toBits.toNat := by
  have flipped := toNat_opposite (b := x.toBits.toBitVec) positive
  have finite' : (opposite x.toBits.toBitVec).toNat / 2 ^ 52 % 2 ^ 11 ≠ 2047 := by
    rw [flipped]
    show (2 ^ 63 + x.toBits.toNat) / 2 ^ 52 % 2 ^ 11 ≠ 2047
    omega
  show (UnpackedFloat.pack Format.binary64
    (UnpackedFloat.unpack Format.binary64 x.toBits.toBitVec).neg).toNat = _
  rw [← unpack_opposite, pack_unpack_of_finite finite', flipped]
  rfl

/-! ### Binary fractions -/

namespace Binary

/-- The word of `magnitude * 2 ^ exponent`. The implicit leading bit is part of `magnitude`, so it
adds one to the exponent field. -/
def bits (b : Binary) : Nat := (b.exponent + 1074).toNat * 2 ^ 52 + b.magnitude

/-- The range of what `Binary.ofFloat?` returns: `-1074 ≤ exponent ≤ 971`, `magnitude < 2 ^ 53`, and
a leading bit above the least exponent. -/
structure Normal (b : Binary) : Prop where
  low : -1074 ≤ b.exponent
  high : b.exponent ≤ 971
  below : b.magnitude < 2 ^ 53
  leading : -1074 < b.exponent → 2 ^ 52 ≤ b.magnitude

/-- All finite words without sign are below that of infinity. -/
theorem Normal.bits_lt {b : Binary} (normal : b.Normal) : b.bits < 0x7FF0000000000000 := by
  obtain ⟨low, high, below, leading⟩ := normal
  unfold bits
  omega

theorem Normal.bits_eq_zero {b : Binary} (normal : b.Normal) (zero : b.magnitude = 0) :
    b.bits = 0 := by
  obtain ⟨low, -, -, leading⟩ := normal
  unfold bits
  omega

end Binary

/-- The fraction of a finite double is normal, and its bits are those of the double. -/
theorem normal_of_ofFloat? {x : Float} {b : Binary} (h : Binary.ofFloat? x = some b) :
    b.Normal ∧ x.toBits.toNat = (if b.negative then 2 ^ 63 else 0) + b.bits := by
  have bound := x.toBits.toNat_lt
  unfold Binary.ofFloat? at h
  dsimp only at h
  split at h
  · exact absurd h.symm (Option.some_ne_none b)
  · next finite =>
    split at h
    · next small =>
      obtain rfl := Option.some.inj h
      refine ⟨⟨Int.le_refl _, ?_, ?_, fun above => absurd above (Int.lt_irrefl _)⟩, ?_⟩
      · dsimp only
        omega
      · dsimp only
        omega
      · simp only [Binary.bits, beq_iff_eq]
        split <;> omega
    · next normal =>
      obtain rfl := Option.some.inj h
      refine ⟨⟨?_, ?_, ?_, fun _ => ?_⟩, ?_⟩
      all_goals dsimp only
      · omega
      · omega
      · omega
      · omega
      · simp only [Binary.bits, beq_iff_eq]
        split <;> omega

/-- A finite double is the double of its fraction's bits, with its sign. -/
theorem eq_signed_ofBits {x : Float} {b : Binary} (h : Binary.ofFloat? x = some b) :
    let y := Float.ofBits (UInt64.ofNat b.bits)
    x = if b.negative then -y else y := by
  intro y
  obtain ⟨normal, bits⟩ := normal_of_ofFloat? h
  have bound := normal.bits_lt
  have word : (UInt64.ofNat b.bits).toNat = b.bits :=
    UInt64.toNat_ofNat_of_lt' (Nat.lt_trans bound (by decide))
  have same : y.toBits = UInt64.ofNat b.bits := toBits_ofBits (by rw [word]; omega)
  apply Float.toBits_inj.mp
  apply UInt64.toNat_inj.mp
  rw [bits]
  split
  · rw [toNat_toBits_neg (by rw [same, word]; omega) (by rw [same, word]; omega), same, word]
  · rw [same, word, Nat.zero_add]

end CellWorld.Number
