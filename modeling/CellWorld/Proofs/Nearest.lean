import CellWorld.Proofs.Doubles
import CellWorld.Scalar

/-!
# How far a number is rounded

A number that a double can have is rounded to itself, and rounding is monotone around it: what is
not below it is not rounded below it.

* `Representable d` — `d = k * 2 ^ u` with `|k| < 2 ^ 53` and `-1074 ≤ u`, the size of the exponent
  aside
* `Rounding.not_past`, `RoundsTo.le_of_le`, `RoundsTo.ge_of_ge` — for `d` representable,
  `d ≤ v → d ≤ r` and `v ≤ d → r ≤ d`
* `RoundsTo.exact`, `RoundsTo.exact_whole` — `r = v` if `v` is representable
* `RoundsTo.nonneg`, `RoundsTo.bounded`, `RoundsTo.beyond` — the sign of `r`;
  `|v| ≤ largest → |r| < 2 ^ 1024`
* `RoundsTo.close` — `2 ^ 53 * |v - r| ≤ |v|` for multiples of the least positive double
* `value?_ofInt`, `value?_ofInt_succ`, `comesTo_natural` — whole numbers below `2 ^ 53` are doubles
* `RoundsTo.ceil_between` — `⌊v⌋ ≤ ⌈r⌉ ≤ ⌈v⌉`
* `floorNat_of_value` — `floorNat x = ⌊v⌋.toNat` for a double of value `v`
* `ComesTo.finite`, `ComesTo.infinite` — finite up to `largest`, not finite from `2 ^ 1024` on
* `le_iff_infinite` — a double that is not finite is above a finite one iff it is the positive
  infinity

Between `largest` and `2 ^ 1024` a number may come to either; nothing is said there.
-/

open Float.Model Float.Model.UnpackedFloat

namespace CellWorld.Number

/-! ### Numbers that a double can have -/

/-- A whole number of at most 53 bits times a power of two that is not too fine. -/
def Representable (d : ℚ) : Prop := ∃ k u : Int, -1074 ≤ u ∧ |k| < 2 ^ 53 ∧ d = k * 2 ^ u

namespace Representable

theorem neg {d : ℚ} (h : Representable d) : Representable (-d) := by
  obtain ⟨k, u, least, short, rfl⟩ := h
  exact ⟨-k, u, least, by rwa [abs_neg], by push_cast; ring⟩

theorem whole {k : Int} (small : |k| < 2 ^ 53) : Representable k :=
  ⟨k, 0, by norm_num, small, by rw [zpow_zero, mul_one]⟩

/-- Powers of two are representable from `2 ^ (-1074)` on. -/
theorem power (u : Int) (least : -1074 ≤ u) : Representable (2 ^ u) :=
  ⟨1, u, least, by norm_num, by rw [Int.cast_one, one_mul]⟩

theorem natPower (n : Nat) : Representable (2 ^ n) :=
  zpow_natCast (2 : ℚ) n ▸ power n (by omega)

theorem largest : Representable Number.largest :=
  ⟨2 ^ 53 - 1, 971, by norm_num, by norm_num, by rw [Number.largest]; norm_num⟩

end Representable

/-- The value of a double is representable. -/
theorem Binary.Normal.representable {b : Binary} (normal : b.Normal) : Representable b.value := by
  refine ⟨b.signed, b.exponent, normal.low, ?_, rfl⟩
  have size : |(b.signed : ℚ)| = b.magnitude := by rw [Binary.signed_eq, abs_apply]
  have below : (b.magnitude : ℚ) < 2 ^ 53 := by exact_mod_cast normal.below
  exact_mod_cast size.trans_lt below

theorem representable_of_value? {x : Float} {v : ℚ} (hx : value? x = some v) :
    Representable v := by
  obtain ⟨b, normal, -, rfl⟩ := exists_of_value? hx
  exact normal.representable

/-! ### Where rounding does not lead -/

theorem Rounding.neg {v r : ℚ} {step : Int} (h : Rounding v r step) : Rounding (-v) (-r) step := by
  obtain ⟨finest, reach, leading, ⟨n, rfl⟩, near⟩ := h
  refine ⟨finest, by rwa [abs_neg], by rwa [abs_neg], ⟨-n, by push_cast; ring⟩, ?_⟩
  rw [← abs_neg]
  convert near using 3
  ring

/-- A multiple of the step below `v` is not above the nearest one. -/
theorem Rounding.not_past {v r : ℚ} {step : Int} (h : Rounding v r step) {m : Int}
    (le : m * 2 ^ step ≤ v) : m * 2 ^ step ≤ r := by
  have near := h.near
  obtain ⟨n, rfl⟩ := h.whole
  have pos : (0 : ℚ) < 2 ^ step := zpow_pos (by norm_num) step
  by_contra below
  have fewer : n < m := by
    by_contra more
    exact below (mul_le_mul_of_nonneg_right (by exact_mod_cast not_lt.mp more) pos.le)
  have gap : ((n : ℚ) + 1) * 2 ^ step ≤ m * 2 ^ step :=
    mul_le_mul_of_nonneg_right (by exact_mod_cast fewer) pos.le
  have far := le_abs_self (v - n * 2 ^ step)
  linarith

variable {v r : ℚ}

theorem RoundsTo.neg (h : RoundsTo v r) : RoundsTo (-v) (-r) := by
  obtain ⟨step, rounding⟩ := h
  exact ⟨step, rounding.neg⟩

/-- A representable bound from below survives rounding. -/
theorem RoundsTo.le_of_le (h : RoundsTo v r) {d : ℚ} (rep : Representable d) (le : d ≤ v) :
    d ≤ r := by
  obtain ⟨step, rounding⟩ := h
  obtain ⟨k, u, least, short, rfl⟩ := rep
  rcases Int.lt_or_le u step with finer | coarser
  · -- the steps of the rounding are longer, so all of them that a double has do not lead as far
    have leads := rounding.leading (by omega)
    have size : |(k : ℚ) * 2 ^ u| < 2 ^ (step + 52) := by
      rw [abs_mul, abs_of_pos (zpow_pos (by norm_num : (0 : ℚ) < 2) u)]
      calc |(k : ℚ)| * 2 ^ u < 2 ^ (53 : Int) * 2 ^ u :=
            mul_lt_mul_of_pos_right (by exact_mod_cast short) (zpow_pos (by norm_num) u)
        _ = 2 ^ (53 + u) := (two_zpow_add 53 u).symm
        _ ≤ 2 ^ (step + 52) := two_zpow_le (by omega)
    have pos : 0 ≤ v := by
      by_contra negative
      have : |v| ≤ |(k : ℚ) * 2 ^ u| := by
        rw [abs_of_neg (not_le.mp negative), abs_of_neg (le.trans_lt (not_le.mp negative))]
        exact neg_le_neg le
      linarith
    rw [abs_of_nonneg pos, add_comm, two_zpow_add] at leads
    have reached := rounding.not_past (m := 2 ^ 52) (by exact_mod_cast leads)
    rw [add_comm, two_zpow_add] at size
    have : (k : ℚ) * 2 ^ u ≤ 2 ^ (52 : Int) * 2 ^ step := (le_abs_self _).trans size.le
    exact this.trans (by exact_mod_cast reached)
  · have steps : (k : ℚ) * 2 ^ u = ((k * 2 ^ (u - step).toNat : Int) : ℚ) * 2 ^ step := by
      have shift : u = (u - step).toNat + step := by omega
      conv_lhs => rw [shift, two_zpow_add, zpow_natCast, ← mul_assoc]
      push_cast
      rfl
    rw [steps] at le ⊢
    exact rounding.not_past le

/-- A representable bound from above survives rounding. -/
theorem RoundsTo.ge_of_ge (h : RoundsTo v r) {d : ℚ} (rep : Representable d) (ge : v ≤ d) :
    r ≤ d :=
  neg_le_neg_iff.mp (h.neg.le_of_le rep.neg (neg_le_neg ge))

/-- Both bounds at once: a representable number is not rounded. -/
theorem RoundsTo.exact (h : RoundsTo v r) (rep : Representable v) : r = v :=
  le_antisymm (h.ge_of_ge rep le_rfl) (h.le_of_le rep le_rfl)

/-- A whole number below `2 ^ 53` is not rounded. -/
theorem RoundsTo.exact_whole {k : Int} (h : RoundsTo k r) (small : |k| < 2 ^ 53) : r = k :=
  h.exact (.whole small)

theorem RoundsTo.nonneg (h : RoundsTo v r) (nonneg : 0 ≤ v) : 0 ≤ r :=
  h.le_of_le (Int.cast_zero (R := ℚ) ▸ .whole (by norm_num)) nonneg

theorem RoundsTo.nonpos (h : RoundsTo v r) (nonpos : v ≤ 0) : r ≤ 0 :=
  neg_nonneg.mp (h.neg.nonneg (neg_nonneg.mpr nonpos))

/-- Up to `largest` nothing is rounded to `2 ^ 1024`. -/
theorem RoundsTo.bounded (h : RoundsTo v r) (le : |v| ≤ largest) : |r| < 2 ^ 1024 := by
  obtain ⟨low, high⟩ := abs_le.mp le
  have least := h.le_of_le Representable.largest.neg low
  have most := h.ge_of_ge Representable.largest high
  exact (abs_le.mpr ⟨least, most⟩).trans_lt largest_lt

/-- The bound `2 ^ 1024` is representable, so what is beyond it stays there. -/
theorem RoundsTo.beyond (h : RoundsTo v r) (ge : 2 ^ 1024 ≤ |v|) : ¬|r| < 2 ^ 1024 := by
  rw [not_lt]
  rcases le_abs.mp ge with high | low
  · exact (h.le_of_le (.natPower 1024) high).trans (le_abs_self r)
  · exact (h.neg.le_of_le (.natPower 1024) low).trans (neg_le_abs r)

/-- The value of a double is a multiple of `2 ^ (-1074)`. -/
theorem Binary.Normal.multiple {b : Binary} (normal : b.Normal) :
    ∃ k : Int, b.value = k * 2 ^ (-1074 : Int) := by
  refine ⟨b.signed * 2 ^ (b.exponent + 1074).toNat, ?_⟩
  have shift : b.exponent = (b.exponent + 1074).toNat + (-1074) := by
    have := normal.low
    omega
  rw [value]
  conv_lhs => rw [shift, two_zpow_add, zpow_natCast, ← mul_assoc]
  norm_cast

/-- The relative error of rounding is at most `2 ^ (-53)`, where the finest step is no obstacle. -/
theorem RoundsTo.close (h : RoundsTo v r) {k : Int} (multiple : v = k * 2 ^ (-1074 : Int)) :
    2 ^ 53 * |v - r| ≤ |v| := by
  obtain ⟨step, rounding⟩ := h
  rcases rounding.finest.lt_or_eq with above | least
  · -- a mantissa of full length makes the last place a small part of the number
    calc (2 : ℚ) ^ 53 * |v - r| = 2 ^ 52 * (2 * |v - r|) := by ring
      _ ≤ 2 ^ 52 * 2 ^ step := mul_le_mul_of_nonneg_left rounding.near (by norm_num)
      _ = 2 ^ (step + 52) := by rw [two_zpow_add, mul_comm]; norm_cast
      _ ≤ |v| := rounding.leading above
  · have short : |k| < 2 ^ 53 := by
      have reach := rounding.reach
      rw [multiple, ← least, add_comm, two_zpow_add, abs_mul,
        abs_of_pos (zpow_pos (by norm_num : (0 : ℚ) < 2) _)] at reach
      exact_mod_cast lt_of_mul_lt_mul_right reach (zpow_pos (by norm_num) _).le
    rw [RoundsTo.exact ⟨step, rounding⟩ ⟨k, -1074, le_rfl, short, multiple⟩, sub_self, abs_zero,
      mul_zero]
    exact abs_nonneg v

/-! ### Whole numbers -/

/-- A double that a whole number below `2 ^ 53` comes to has this value. -/
theorem ComesTo.value_of_whole {x : Float} {k : Int} (h : ComesTo x k) (small : |k| < 2 ^ 53) :
    value? x = some (k : ℚ) := by
  obtain ⟨r, rounds, value⟩ := h
  have fits : |(k : ℚ)| < 2 ^ 1024 := by
    have small' : |(k : ℚ)| < 2 ^ 53 := by exact_mod_cast small
    exact small'.trans (pow_lt_pow_right₀ (by norm_num) (by norm_num))
  rw [value, rounds.exact_whole small, if_pos fits]

theorem value?_toFloat {n : UInt64} (small : n.toNat < 2 ^ 53) :
    value? n.toFloat = some ((n.toNat : Int) : ℚ) := by
  have small' : |(n.toNat : Int)| < 2 ^ 53 := by
    rw [abs_of_nonneg (Int.natCast_nonneg _)]
    exact_mod_cast small
  have rounded := comesTo_normalize n.toNat 0 .positive
  rw [zpow_zero, mul_one] at rounded
  exact rounded.value_of_whole small'

theorem value?_one : value? (1.0 : Float) = some 1 := by
  have read : Binary.ofFloat? 1.0 = some ⟨false, 2 ^ 52, -52⟩ := by decide +kernel
  rw [value?, read, Option.map_some, Binary.value_of_positive rfl]
  norm_num [Binary.size]

theorem value?_natural {n : Nat} (small : n < 2 ^ 53) :
    value? (OfScientific.ofScientific n false 0 : Float) = some ((n : Int) : ℚ) := by
  have small' : |(n : Int)| < 2 ^ 53 := by
    rw [abs_of_nonneg (Int.natCast_nonneg _)]
    exact_mod_cast small
  have short : n.toUInt64.toNat = n := UInt64.toNat_ofNat_of_lt' (small.trans (by decide))
  have written : (OfScientific.ofScientific n false 0 : Float) =
      n.toUInt64.toFloat * Float.ofBits 0x3FF0000000000000 := dif_pos ⟨small, by decide⟩
  have unit : value? (Float.ofBits 0x3FF0000000000000) = some 1 := value?_one
  have product := comesTo_mul (value?_toFloat (short.symm ▸ small)) unit
  rw [short, mul_one, ← written] at product
  exact product.value_of_whole small'

theorem value?_zero : value? (0.0 : Float) = some 0 := by
  have read : Binary.ofFloat? 0.0 = some ⟨false, 0, -1074⟩ := by decide +kernel
  rw [value?, read, Option.map_some, Binary.value_of_zero rfl]

theorem ComesTo.of_value {x : Float} (hx : value? x = some v) : ComesTo x v := by
  obtain ⟨b, normal, -, rfl⟩ := exists_of_value? hx
  exact ⟨b.value, normal.rounds_self, by rw [hx, if_pos (normal.abs_le.trans_lt largest_lt)]⟩

/-- A literal without fraction comes to its number, however large. -/
theorem comesTo_natural (n : Nat) : ComesTo (OfScientific.ofScientific n false 0) n := by
  rcases Nat.lt_or_ge n (2 ^ 53) with small | large
  · have value := value?_natural small
    rw [Int.cast_natCast] at value
    exact .of_value value
  · have written : (OfScientific.ofScientific n false 0 : Float) =
        packed (UnpackedFloat.ofScientific .binary64 n 0) := dif_neg fun short => by omega
    have some : n ≠ 0 := by omega
    have least : ¬ (0 : Int) < -((2 ^ Format.binary64.exponentBits : Int) + n.log2) := by
      have : (0 : Int) ≤ 2 ^ Format.binary64.exponentBits := by positivity
      omega
    have long : 2 ^ 52 ≤ n <<< 53 * 10 ^ 0 := by
      rw [Nat.shiftLeft_eq]
      omega
    have rounded := comesTo_rounded .positive (m := n <<< 53 * 10 ^ 0) (e := -53 + 0)
      (le_stepOf (Or.inl long))
    have value : ((Sign.positive.apply (n <<< 53 * 10 ^ 0 : Nat) : Int) : ℚ) *
        2 ^ (-53 + 0 : Int) = n := by
      show (((n <<< 53 * 10 ^ 0 : Nat) : Int) : ℚ) * 2 ^ (-53 + 0 : Int) = n
      rw [Nat.shiftLeft_eq]
      push_cast
      norm_num
      ring
    rw [value] at rounded
    rw [written, UnpackedFloat.ofScientific, dif_neg some, if_neg (by norm_num), if_neg least,
      if_pos le_rfl]
    exact rounded

/-- An integer below `2 ^ 53` becomes the double of that value. -/
theorem value?_ofInt {k : Int} (small : |k| < 2 ^ 53) : value? (Number.ofInt k) = some (k : ℚ) := by
  have size : k.natAbs < 2 ^ 53 := by
    rw [Int.abs_eq_natAbs] at small
    exact_mod_cast small
  unfold Number.ofInt
  split
  · next neg =>
    rw [value?_neg (value?_natural size), ← Int.cast_neg, show -(k.natAbs : Int) = k by omega]
  · next nonneg => rw [value?_natural size, show (k.natAbs : Int) = k by omega]

/-- Adding one to it is exact. -/
theorem value?_ofInt_succ {k : Int} (small : |k| < 2 ^ 52) :
    value? (Number.ofInt k + 1.0) = some ((k + 1 : Int) : ℚ) := by
  have next : |k + 1| < 2 ^ 53 := by
    rw [abs_lt] at *
    omega
  have sum := comesTo_add (value?_ofInt (small.trans (by norm_num))) value?_one
  rw [← Int.cast_one, ← Int.cast_add] at sum
  exact sum.value_of_whole next

/-- The floor of a binary fraction is that of its value. -/
theorem Binary.floor_eq (b : Binary) : b.floor = ⌊b.value⌋ := by
  unfold floor value
  split
  · next whole =>
    obtain ⟨n, hn⟩ := Int.eq_ofNat_of_zero_le whole
    rw [hn, Int.toNat_natCast, zpow_natCast]
    have same : (b.signed : ℚ) * 2 ^ n = (b.signed * (2 ^ n : Nat) : Int) := by push_cast; rfl
    rw [same, Int.floor_intCast]
    rfl
  · next fraction =>
    obtain ⟨n, hn⟩ := Int.eq_ofNat_of_zero_le (show 0 ≤ -b.exponent by omega)
    rw [show b.exponent = -(n : Int) by omega, neg_neg, Int.toNat_natCast, zpow_neg, zpow_natCast,
      ← div_eq_mul_inv, Int.shiftRight_eq_div_pow]
    exact_mod_cast (Rat.floor_intCast_div_natCast b.signed (2 ^ n)).symm

/-- The floor of a double is that of its value. -/
theorem floorNat_of_value {x : Float} (hx : value? x = some v) : floorNat x = ⌊v⌋.toNat := by
  obtain ⟨b, read, rfl⟩ := Option.map_eq_some_iff.mp hx
  rw [floorNat, read]
  exact congrArg Int.toNat b.floor_eq

/-- Whole numbers are representable here, so `r` stays between the ones around `v`. -/
theorem RoundsTo.ceil_between (h : RoundsTo v r) (small : |v| ≤ 2 ^ 53 - 1) :
    ⌊v⌋ ≤ ⌈r⌉ ∧ ⌈r⌉ ≤ ⌈v⌉ := by
  obtain ⟨low, high⟩ := abs_le.mp small
  have low' : -(2 ^ 53 - 1) ≤ ⌊v⌋ := Int.le_floor.mpr (by push_cast; linarith)
  have high' : ⌈v⌉ ≤ 2 ^ 53 - 1 := Int.ceil_le.mpr (by push_cast; linarith)
  have between := Int.floor_le_ceil v
  have below := h.le_of_le (.whole (abs_lt.mpr (by omega))) (Int.floor_le v)
  have above := h.ge_of_ge (.whole (abs_lt.mpr (by omega))) (Int.le_ceil v)
  refine ⟨?_, Int.ceil_le.mpr above⟩
  exact_mod_cast below.trans (Int.le_ceil r)

/-! ### Finite doubles -/

/-- A double is finite iff it has a value. -/
theorem isSome_iff_value (x : Float) :
    (Binary.ofFloat? x).isSome = true ↔ ∃ p, value? x = some p := by
  rw [value?, Option.isSome_iff_exists]
  simp only [Option.map_eq_some_iff]
  constructor
  · rintro ⟨b, h⟩
    exact ⟨_, b, h, rfl⟩
  · rintro ⟨_, b, h, -⟩
    exact ⟨b, h⟩

theorem abs_value_le {x : Float} {p : ℚ} (h : value? x = some p) : |p| ≤ largest := by
  obtain ⟨b, normal, -, rfl⟩ := exists_of_value? h
  exact normal.abs_le

/-- There is no double between `(2 ^ 53 - 1) * 2 ^ t` and `2 ^ (t + 53)`. -/
theorem Binary.Normal.le_of_lt {b : Binary} (normal : b.Normal) {t : Int} (least : -1074 ≤ t)
    (below : |b.value| < 2 ^ (t + 53)) : |b.value| ≤ (2 ^ 53 - 1) * 2 ^ t := by
  rw [b.abs_value] at below
  exact normal.abs_le_of_exponent (normal.exponent_le_of_lt least below)

section Finite

variable {x : Float}

/-- The value of a finite result is what the number rounds to. -/
theorem ComesTo.roundsTo (h : ComesTo x v) {p : ℚ} (hp : value? x = some p) : RoundsTo v p := by
  obtain ⟨r, rounds, value⟩ := h
  rw [hp] at value
  split at value
  · exact (Option.some.inj value) ▸ rounds
  · exact absurd value (Option.some_ne_none p)

/-- Up to `largest` the result is finite. -/
theorem ComesTo.finite (h : ComesTo x v) (le : |v| ≤ largest) :
    (Binary.ofFloat? x).isSome = true := by
  obtain ⟨r, rounds, value⟩ := h
  rw [if_pos (rounds.bounded le)] at value
  exact (isSome_iff_value x).mpr ⟨r, value⟩

/-- A number from 0 to `2 ^ 100` comes to a finite double that is not negative. -/
theorem ComesTo.exists_value (h : ComesTo x v) (nonneg : 0 ≤ v) (le : v ≤ 2 ^ 100) :
    ∃ r, value? x = some r ∧ RoundsTo v r ∧ 0 ≤ r := by
  have moderate : (2 : ℚ) ^ 100 ≤ largest := by
    have high : (2 : ℚ) ^ 100 ≤ 2 ^ (971 : Int) := by
      rw [← zpow_natCast]
      exact two_zpow_le (by norm_num)
    exact high.trans (le_mul_of_one_le_left (zpow_pos (by norm_num) _).le (by norm_num))
  obtain ⟨r, hr⟩ := (isSome_iff_value x).mp
    (h.finite (abs_le.mpr ⟨by linarith, le.trans moderate⟩))
  have rounds := h.roundsTo hr
  exact ⟨r, hr, rounds, rounds.nonneg nonneg⟩

/-- From `2 ^ 1024` on the result is not finite. -/
theorem ComesTo.infinite (h : ComesTo x v) (ge : 2 ^ 1024 ≤ |v|) :
    ¬(Binary.ofFloat? x).isSome = true := by
  obtain ⟨r, rounds, value⟩ := h
  rw [if_neg (rounds.beyond ge)] at value
  rw [isSome_iff_value, value]
  rintro ⟨p, none⟩
  exact Option.some_ne_none p none.symm

end Finite

/-! ### Infinite doubles -/

/-- Against a finite double, a NaN and the negative infinity are not above. -/
theorem le_iff_infinite {x y : Float} {q : ℚ} (hx : value? x = none) (hy : value? y = some q) :
    y ≤ x ↔ x.toModel.unpack = .infinity .positive := by
  obtain ⟨b, -, ub, -⟩ := exists_of_value? hy
  show decide (y.toModel.unpack.le x.toModel.unpack = true) = true ↔ _
  rw [ub, decide_eq_true_iff, UnpackedFloat.le, Binary.unpacked]
  rcases unpack_of_ofFloat?_none (Option.map_eq_none_iff.mp hx) with ⟨s, infinite⟩ | none
  · rw [infinite]
    split <;> cases s <;> simp [UnpackedFloat.compare]
  · rw [none]
    split <;> simp [UnpackedFloat.compare]

theorem value?_of_infinite {x : Float} (h : x.toModel.unpack = .infinity .positive) :
    value? x = none := by
  cases hx : value? x with
  | none => rfl
  | some v =>
    obtain ⟨b, -, ub, -⟩ := exists_of_value? hx
    rw [h, Binary.unpacked] at ub
    split at ub <;> cases ub

theorem unpack_infinity (s : Sign) : (packed (.infinity s)).toModel.unpack = .infinity s := by
  cases s <;> rfl

end CellWorld.Number
