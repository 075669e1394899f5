import CellWorld.Clock
import CellWorld.Proofs.Nearest

/-!
# Seconds as doubles

The seconds of a span of `n` nanoseconds are computed as
`ofInt (n / 10 ^ 9) + ofInt (n % 10 ^ 9) / 10 ^ 9`. The whole ones are rounded where they are too
many, the rest is a rounded quotient, and the sum is rounded.

* `Span.Fits` — the whole seconds have 64 bits, as those of every duration
* `comesTo_ofInt` — a whole number of any size comes to its double
* `exists_fraction` — for `n < 10 ^ 9`, `0 ≤ f < 1` for the value `f` of the quotient
* `Span.Reads dt s f d` — the values of whole, rest and sum; `Span.exists_reads` — all are finite
* `Span.Reads.short` — up to a second, `d` is `n / 10 ^ 9` rounded once

For longer spans the two roundings are not combined into one bound.
-/

namespace CellWorld

/-- The whole seconds have 64 bits. -/
def Span.Fits (dt : Span) : Prop := dt.nanos < 2 ^ 64 * 10 ^ 9

instance (dt : Span) : Decidable dt.Fits := inferInstanceAs (Decidable (_ < _))

namespace Number

/-- A whole number of any size, as a double. -/
theorem comesTo_ofInt (n : Nat) : ComesTo (ofInt n) n := by
  have written : ofInt n = OfScientific.ofScientific n false 0 := if_neg (by omega)
  rw [written]
  exact comesTo_natural n

theorem value?_billion : value? 1000000000.0 = some (10 ^ 9) := by
  have read : Binary.ofFloat? 1000000000.0 = some ⟨false, 8388608000000000, -23⟩ := by
    decide +kernel
  rw [value?, read, Option.map_some, Binary.value_of_positive rfl]
  norm_num [Binary.size]

/-- Nanoseconds that make no whole second are a fraction below one, also after rounding. -/
theorem exists_fraction {n : Nat} (few : n < 10 ^ 9) :
    ∃ f, value? (ofInt n / 1000000000.0) = some f ∧ RoundsTo (n / 10 ^ 9) f ∧ 0 ≤ f ∧ f < 1 := by
  have whole := value?_ofInt (k := n) (by rw [abs_of_nonneg] <;> omega)
  have quotient := comesTo_div whole value?_billion (by norm_num)
  rw [Int.cast_natCast] at quotient
  have few' : (n : ℚ) ≤ 10 ^ 9 - 1 := by
    have : (n : ℚ) + 1 ≤ 10 ^ 9 := by exact_mod_cast few
    linarith
  -- the greatest double below one
  have last : Representable ((2 ^ 53 - 1) * 2 ^ (-53 : Int)) :=
    ⟨2 ^ 53 - 1, -53, by norm_num, by norm_num, by norm_num⟩
  have below : (n : ℚ) / 10 ^ 9 ≤ (2 ^ 53 - 1) * 2 ^ (-53 : Int) := by
    rw [div_le_iff₀ (by norm_num)]
    refine few'.trans ?_
    norm_num
  obtain ⟨f, hf, rounds, nonneg⟩ :=
    quotient.exists_value (by positivity) (below.trans (by norm_num))
  refine ⟨f, hf, rounds, nonneg, (rounds.ge_of_ge last below).trans_lt ?_⟩
  norm_num

end Number

namespace Span

open Number

/-- The three values that the seconds of a span are put together from. -/
structure Reads (dt : Span) (s f d : ℚ) : Prop where
  whole : value? (Number.ofInt (dt.nanos / 1000000000 : Nat)) = some s
  rest : value? (Number.ofInt (dt.nanos % 1000000000 : Nat) / 1000000000.0) = some f
  value : value? (dt.seconds : Float) = some d

namespace Reads

variable {dt : Span} {s f d : ℚ}

theorem rounded (r : dt.Reads s f d) : RoundsTo (dt.nanos / 1000000000 : Nat) s :=
  (comesTo_ofInt _).roundsTo r.whole

theorem fraction (r : dt.Reads s f d) :
    RoundsTo ((dt.nanos % 1000000000 : Nat) / 10 ^ 9) f ∧ 0 ≤ f ∧ f < 1 := by
  obtain ⟨f', hf, rounds, nonneg, below⟩ :=
    exists_fraction (Nat.mod_lt dt.nanos (by norm_num : 0 < 1000000000))
  obtain rfl : f' = f := Option.some.inj (hf.symm.trans r.rest)
  exact ⟨rounds, nonneg, below⟩

/-- The sum is rounded once more. -/
theorem sum (r : dt.Reads s f d) : RoundsTo (s + f) d :=
  (comesTo_add r.whole r.rest).roundsTo r.value

theorem nonneg (r : dt.Reads s f d) : 0 ≤ d :=
  r.sum.nonneg (add_nonneg (r.rounded.nonneg (Nat.cast_nonneg _)) r.fraction.2.1)

/-- Up to a second the whole part is zero, or the rest is, so only one rounding is left. -/
theorem short (r : dt.Reads s f d) (short : dt.nanos ≤ 1000000000) :
    RoundsTo (dt.nanos / 10 ^ 9) d := by
  have whole := r.rounded
  have sum := r.sum
  obtain ⟨rest, nonneg, -⟩ := r.fraction
  rcases short.eq_or_lt with second | fraction
  · rw [second, Nat.div_self (by norm_num)] at whole
    rw [second, Nat.mod_self, Nat.cast_zero, zero_div] at rest
    have one : s = 1 := by exact_mod_cast whole.exact_whole (k := 1) (by norm_num)
    have none : f = 0 := le_antisymm (rest.nonpos le_rfl) nonneg
    rw [one, none, add_zero] at sum
    rw [second]
    norm_num at sum ⊢
    exact sum
  · rw [Nat.div_eq_of_lt fraction, Nat.cast_zero] at whole
    rw [Nat.mod_eq_of_lt fraction] at rest
    have none : s = 0 := le_antisymm (whole.nonpos le_rfl) (whole.nonneg le_rfl)
    rw [none, zero_add] at sum
    rwa [sum.exact (representable_of_value? r.rest)]

end Reads

/-- The seconds of a span that fits are finite. -/
theorem exists_reads {dt : Span} (fits : dt.Fits) : ∃ s f d, dt.Reads s f d ∧ d ≤ 2 ^ 65 := by
  have few : dt.nanos / 1000000000 ≤ 2 ^ 64 := by
    unfold Fits at fits
    omega
  have few' : ((dt.nanos / 1000000000 : Nat) : ℚ) ≤ 2 ^ 64 := by exact_mod_cast few
  obtain ⟨s, hs, whole, positive⟩ := (comesTo_ofInt (dt.nanos / 1000000000)).exists_value
    (Nat.cast_nonneg _) (few'.trans (by norm_num))
  obtain ⟨f, hf, -, nonneg, below⟩ := exists_fraction (Nat.mod_lt dt.nanos (by norm_num))
  have high : s + f ≤ 2 ^ 65 := by
    have high := whole.ge_of_ge (.natPower 64) few'
    linarith
  obtain ⟨d, hd, sum, -⟩ := (comesTo_add hs hf).exists_value (by linarith) (by linarith)
  exact ⟨s, f, d, ⟨hs, hf, hd⟩, sum.ge_of_ge (.natPower 65) high⟩

/-- The period of a rate is a second at most. -/
theorem ofRate_le (hz : UInt32) : (ofRate hz).nanos ≤ 1000000000 := Nat.div_le_self _ _

theorem ofRate_fits (hz : UInt32) : (ofRate hz).Fits := (ofRate_le hz).trans_lt (by norm_num)

end Span

end CellWorld
