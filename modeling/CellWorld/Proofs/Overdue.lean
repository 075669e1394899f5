import CellWorld.Proofs.Repayment
import CellWorld.Proofs.Room
import CellWorld.Proofs.Seconds

/-!
# Debts that cannot be paid

The loop of a step takes `1.0` off the debt in every turn. In doubles that is exact up to `2 ^ 53`.
The next double, `2 ^ 53 + 2`, is rounded down to `2 ^ 53`; from `2 ^ 53 + 4` on
`debt - 1.0 = debt`, and the loop runs for ever.

* `Number.unpayable` — `2 ^ 53 + 4`, the least debt that cannot be paid
* `Number.value?_sub_one`, `Number.value?_sub_one_tie`, `Number.unpayable_sub_one` — `x - 1.0` for
  `x ≤ 2 ^ 53`, for `x = 2 ^ 53 + 2`, and for `unpayable ≤ x`
* `World.payDebt_of_payable`, `World.Repays.noRoom_of_unpayable` — below `unpayable` the loop ends;
  from there on nothing but a bot without room ends it
* `World.exists_repays_iff` — with room in every cell, the loop ends iff `¬ unpayable ≤ densityDebt`
* `Span.unpayable_iff` — `debt + dt.seconds` is unpayable iff `dt` is at least `9007199254740995`
  seconds, if the debt was a fraction
* `Host.owesFraction_run` — the steps of a run leave a fraction of a second
* `step_returns_iff` — when the loop of a next step ends, after any run with accepted settings
* `long_step_never_returns` — a first step of `9007199254740995` seconds

Termination is that of the relation `World.Repays`. The executable loop has `⌊debt⌋` turns of fuel
and reports `endless` when they do not suffice; the two agree by `Engine.repays_of_step`.
-/

open Float.Model Float.Model.UnpackedFloat

namespace CellWorld

namespace Number

/-! ### A second less -/

/-- From `2 ^ 53` on doubles are even. -/
theorem Representable.even {d : ℚ} (h : Representable d) (large : 2 ^ 53 ≤ d) :
    ∃ m : Int, d = 2 * m := by
  obtain ⟨k, u, least, short, rfl⟩ := h
  have pos : (0 : ℚ) < 2 ^ u := zpow_pos (by norm_num) u
  have coarse : 1 ≤ u := by
    by_contra fine
    have unit : (2 : ℚ) ^ u ≤ 1 := (two_zpow_le (by omega)).trans_eq (zpow_zero 2)
    have short' : (k : ℚ) < 2 ^ 53 := by exact_mod_cast (le_abs_self k).trans_lt short
    have : (k : ℚ) * 2 ^ u < 2 ^ 53 * 2 ^ u := mul_lt_mul_of_pos_right short' pos
    linarith
  obtain ⟨n, rfl⟩ : ∃ n : Nat, u = n + 1 := ⟨(u - 1).toNat, by omega⟩
  refine ⟨k * 2 ^ n, ?_⟩
  rw [two_zpow_add, zpow_natCast]
  push_cast
  ring

/-- Two doubles with one positive value unpack alike; zeros would differ in sign. -/
theorem unpack_eq_of_value {x y : Float} {v : ℚ} (hx : value? x = some v) (hy : value? y = some v)
    (pos : 0 < v) : x.toModel.unpack = y.toModel.unpack := by
  obtain ⟨a, na, ua, rfl⟩ := exists_of_value? hx
  obtain ⟨b, nb, ub, same⟩ := exists_of_value? hy
  have positive {c : Binary} (h : 0 < c.value) : c.negative = false := by
    by_contra negative
    rw [Binary.value_of_negative (Bool.eq_true_of_not_eq_false negative), ← c.abs_value] at h
    linarith [abs_nonneg c.value]
  have sa := positive pos
  have sb := positive (same ▸ pos)
  rw [Binary.value_of_positive sa, Binary.value_of_positive sb] at same
  obtain ⟨exponent, magnitude⟩ := na.parts_eq nb same.symm
  have parts : a = b := by
    obtain ⟨_, _, _⟩ := a
    obtain ⟨_, _, _⟩ := b
    simp_all
  rw [ua, ub, parts]

theorem sub_congr {x y z : Float} (same : x.toModel.unpack = y.toModel.unpack) : x - z = y - z := by
  show packed (UnpackedFloat.sub .binary64 x.toModel.unpack z.toModel.unpack) =
    packed (UnpackedFloat.sub .binary64 y.toModel.unpack z.toModel.unpack)
  rw [same]

/-- The double `2 ^ 53 + 4`. One less is the middle of two doubles, and rounds back to it. -/
def unpayable : Float := 9007199254740996.0

theorem value?_unpayable : value? unpayable = some (2 ^ 53 + 4) := by
  have read : Binary.ofFloat? unpayable = some ⟨false, 2 ^ 52 + 2, 1⟩ := by decide +kernel
  rw [value?, read, Option.map_some, Binary.value_of_positive rfl]
  norm_num [Binary.size]

/-- Up to `2 ^ 53`, one less of a representable number is representable. -/
theorem Representable.sub_one {d : ℚ} (h : Representable d) (due : 1 ≤ d) (small : d ≤ 2 ^ 53) :
    Representable (d - 1) := by
  obtain ⟨k, u, least, short, rfl⟩ := h
  rcases Int.lt_or_le 0 u with coarse | fine
  · obtain ⟨n, rfl⟩ := Int.eq_ofNat_of_zero_le coarse.le
    have whole : (k : ℚ) * 2 ^ (n : Int) = (k * 2 ^ n : Int) := by
      rw [zpow_natCast]
      push_cast
      rfl
    rw [whole] at due small ⊢
    have due' : 1 ≤ k * 2 ^ n := by exact_mod_cast due
    have small' : k * 2 ^ n ≤ 2 ^ 53 := by exact_mod_cast small
    rw [← Int.cast_one, ← Int.cast_sub]
    exact .whole (abs_lt.mpr (by omega))
  · obtain ⟨n, hn⟩ := Int.eq_ofNat_of_zero_le (show 0 ≤ -u by omega)
    have pos : (0 : ℚ) < 2 ^ u := zpow_pos (by norm_num) u
    have one : ((2 ^ n : Int) : ℚ) * 2 ^ u = 1 := by
      push_cast
      rw [← zpow_natCast, ← hn, ← two_zpow_add, neg_add_cancel, zpow_zero]
    have less : (k : ℚ) * 2 ^ u - 1 = (k - 2 ^ n : Int) * 2 ^ u := by
      rw [Int.cast_sub, sub_mul, one]
    refine ⟨k - 2 ^ n, u, least, ?_, less⟩
    have steps : 2 ^ n ≤ k := by
      rw [← one] at due
      exact_mod_cast le_of_mul_le_mul_right due pos
    have some : (0 : Int) < 2 ^ n := by positivity
    rw [abs_lt] at *
    omega

/-- A debt with a second due stays finite when that is taken off. -/
theorem exists_sub_one {x : Float} {v : ℚ} (hx : value? x = some v) (due : 1 ≤ v) :
    ∃ r, value? (x - 1.0) = some r ∧ RoundsTo (v - 1) r := by
  have most := (abs_le.mp (abs_value_le hx)).2
  have difference := comesTo_sub hx value?_one
  obtain ⟨r, hr⟩ := (isSome_iff_value _).mp
    (difference.finite (abs_le.mpr ⟨by linarith, by linarith⟩))
  exact ⟨r, hr, difference.roundsTo hr⟩

/-- Up to `2 ^ 53` subtracting `1.0` is exact. -/
theorem value?_sub_one {x : Float} {v : ℚ} (hx : value? x = some v) (due : 1 ≤ v)
    (small : v ≤ 2 ^ 53) : value? (x - 1.0) = some (v - 1) := by
  obtain ⟨r, hr, rounds⟩ := exists_sub_one hx due
  rw [hr, rounds.exact ((representable_of_value? hx).sub_one due small)]

/-- The tie at `2 ^ 53 + 1` goes to `2 ^ 53`, the even one. -/
theorem value?_sub_one_tie {x : Float} (hx : value? x = some (2 ^ 53 + 2)) :
    value? (x - 1.0) = some (2 ^ 53) := by
  have read : Binary.ofFloat? 9007199254740994.0 = some ⟨false, 2 ^ 52 + 1, 1⟩ := by decide +kernel
  have read' : Binary.ofFloat? (9007199254740994.0 - 1.0) = some ⟨false, 2 ^ 52, 1⟩ := by
    decide +kernel
  have written : value? 9007199254740994.0 = some (2 ^ 53 + 2) := by
    rw [value?, read, Option.map_some, Binary.value_of_positive rfl]
    norm_num [Binary.size]
  rw [sub_congr (unpack_eq_of_value hx written (by norm_num)), value?, read', Option.map_some,
    Binary.value_of_positive rfl]
  norm_num [Binary.size]

/-- The positive infinity is a fixed point. -/
theorem infinite_sub_one {x : Float} (h : x.toModel.unpack = .infinity .positive) :
    (x - 1.0).toModel.unpack = .infinity .positive := by
  rw [sub_congr (h.trans (unpack_infinity .positive).symm)]
  rfl

/-! ### The border -/

theorem representable_unpayable : Representable (2 ^ 53 + 4) :=
  representable_of_value? value?_unpayable

/-- From `unpayable` on, a turn does not lead below it. -/
theorem unpayable_sub_one {x : Float} (long : unpayable ≤ x) : unpayable ≤ x - 1.0 := by
  cases hx : value? x with
  | none =>
    have infinite := infinite_sub_one ((le_iff_infinite hx value?_unpayable).mp long)
    exact (le_iff_infinite (value?_of_infinite infinite) value?_unpayable).mpr infinite
  | some v =>
    have above := (le_iff_value value?_unpayable hx).mp long
    rcases above.eq_or_lt with rfl | more
    · rw [sub_congr (unpack_eq_of_value hx value?_unpayable (by norm_num))]
      decide +kernel
    · -- the next double is even, so a second less is still not below
      obtain ⟨m, rfl⟩ := (representable_of_value? hx).even (by linarith)
      have more' : 2 ^ 53 + 5 ≤ 2 * m := by
        have : (2 ^ 53 + 4 : Int) < 2 * m := by exact_mod_cast more
        omega
      have more'' : (2 : ℚ) ^ 53 + 4 ≤ 2 * m - 1 := by
        have : (2 : ℚ) ^ 53 + 5 ≤ 2 * m := by exact_mod_cast more'
        linarith
      obtain ⟨r, hr, rounds⟩ := exists_sub_one hx (by linarith)
      rw [le_iff_value value?_unpayable hr]
      exact rounds.le_of_le representable_unpayable more''

/-- At `unpayable` and above, the condition of the loop holds. -/
theorem one_le_of_unpayable {x : Float} (long : unpayable ≤ x) : (1.0 : Float) ≤ x := by
  cases hx : value? x with
  | none =>
    exact (le_iff_infinite hx value?_one).mpr ((le_iff_infinite hx value?_unpayable).mp long)
  | some v =>
    have above := (le_iff_value value?_unpayable hx).mp long
    exact (le_iff_value value?_one hx).mpr (by linarith)

/-- There is no double between `2 ^ 53 + 2` and `2 ^ 53 + 4`. -/
theorem Representable.le_of_payable {d : ℚ} (h : Representable d) (short : d < 2 ^ 53 + 4) :
    d ≤ 2 ^ 53 + 2 := by
  rcases lt_or_ge d (2 ^ 53) with small | large
  · linarith
  · obtain ⟨m, rfl⟩ := h.even large
    have short' : 2 * m < 2 ^ 53 + 4 := by exact_mod_cast short
    exact_mod_cast (show 2 * m ≤ 2 ^ 53 + 2 by omega)

/-- Below the middle of the two, rounding does not reach `2 ^ 53 + 4`. -/
theorem RoundsTo.payable {v r : ℚ} (h : RoundsTo v r) (short : v < 2 ^ 53 + 3) :
    r < 2 ^ 53 + 4 := by
  rcases le_or_gt v (2 ^ 53) with small | large
  · linarith [h.ge_of_ge (.natPower 53) small]
  · obtain ⟨step, rounding⟩ := h
    have unit : (2 : ℚ) ^ step ≤ 2 := by
      rcases le_or_gt step 1 with fine | coarse
      · exact (two_zpow_le fine).trans_eq (zpow_one 2)
      · have leads := rounding.leading (by omega)
        rw [abs_of_pos (by linarith)] at leads
        have : (2 : ℚ) ^ (54 : Int) ≤ 2 ^ (step + 52) := two_zpow_le (by omega)
        norm_num at this
        linarith
    have near := rounding.near.trans unit
    have past := neg_abs_le (v - r)
    linarith

end Number

open Number

namespace World

/-- A debt of at most `2 ^ 53` is below one after at most `k` turns, where `v < k + 1`. -/
theorem exists_low {x : Float} {v : ℚ} (hx : value? x = some v) (small : v ≤ 2 ^ 53) {k : Nat}
    (below : v < k + 1) : ∃ n ≤ k, ¬ (1.0 : Float) ≤ debtAfter x n := by
  induction k generalizing x v with
  | zero =>
    refine ⟨0, le_rfl, ?_⟩
    rw [debtAfter, le_iff_value value?_one hx, not_le]
    simpa using below
  | succ k ih =>
    rcases lt_or_ge v 1 with low | due
    · refine ⟨0, Nat.zero_le _, ?_⟩
      rwa [debtAfter, le_iff_value value?_one hx, not_le]
    · have below' : v - 1 < k + 1 := by
        rw [Nat.cast_succ] at below
        linarith
      obtain ⟨n, hn, low⟩ := ih (value?_sub_one hx due small) (by linarith) below'
      exact ⟨n + 1, Nat.succ_le_succ hn, low⟩

/-- Below `unpayable` the debt is below one after at most `⌊x⌋` turns. -/
theorem exists_low_of_payable {x : Float} (short : ¬ unpayable ≤ x) :
    ∃ n ≤ floorNat x, ¬ (1.0 : Float) ≤ debtAfter x n := by
  cases hx : value? x with
  | none =>
    refine ⟨0, Nat.zero_le _, fun due => short ?_⟩
    exact (le_iff_infinite hx value?_unpayable).mpr ((le_iff_infinite hx value?_one).mp due)
  | some v =>
    rw [floorNat_of_value hx]
    rw [le_iff_value value?_unpayable hx, not_le] at short
    rcases le_or_gt v (2 ^ 53) with small | large
    · rw [Int.floor_toNat]
      exact exists_low hx small (Nat.lt_floor_add_one v)
    · -- there is one double between, and a second less of it is a power of two
      obtain ⟨m, rfl⟩ := (representable_of_value? hx).even large.le
      obtain rfl : m = 2 ^ 52 + 1 := by
        have low : (2 ^ 53 : Int) < 2 * m := by exact_mod_cast large
        have high : 2 * m < (2 ^ 53 + 4 : Int) := by exact_mod_cast short
        omega
      have between : (2 : ℚ) * (2 ^ 52 + 1 : Int) = 2 ^ 53 + 2 := by norm_num
      rw [between] at hx ⊢
      obtain ⟨n, hn, low⟩ :=
        exists_low (value?_sub_one_tie hx) le_rfl (k := 2 ^ 53) (by norm_num)
      have whole : ⌊(2 : ℚ) ^ 53 + 2⌋ = (2 ^ 53 + 2 : Nat) := by
        rw [Int.floor_eq_iff]
        norm_num
      refine ⟨n + 1, ?_, low⟩
      rw [whole, Int.toNat_natCast]
      omega

/-! ### The loop -/

variable {rules : BotRules Float} {w w' : World Float} {n : Nat} {ended : StepEnd}

/-- Below `unpayable` the fuel `⌊debt⌋` suffices. -/
theorem payDebt_of_payable (short : ¬ unpayable ≤ w.densityDebt) (passes : Nat) :
    (w.payDebt rules (floorNat w.densityDebt) passes).ended ≠ .endless := by
  obtain ⟨n, enough, low⟩ := exists_low_of_payable short
  exact payDebt_of_low enough low passes

/-- The condition stays true in every turn, so only a stuck pass ends the loop. -/
theorem Repays.noRoom_of_unpayable (r : Repays rules w n w' ended)
    (long : unpayable ≤ w.densityDebt) : ended = .noRoom := by
  induction r with
  | paid low => exact absurd (one_le_of_unpayable long) low
  | stuck due stuck => rfl
  | again due free rest ih =>
    refine ih ?_
    rw [densityDebt_payOnce]
    exact unpayable_sub_one long

theorem Repays.blocked (r : Repays rules w n w' .noRoom) : w'.Blocked rules.cellSize := by
  have paid := r.payDebt_eq le_rfl 0
  have blocked : (w.payDebt rules n 0).world.Blocked rules.cellSize :=
    payDebt_noRoom n 0 w (by rw [paid])
  rwa [paid] at blocked

/-- With room in every cell no pass is stuck, so the debt decides. -/
theorem exists_repays_iff (roomy : ∀ c, (Bounds.ofCell c rules.cellSize).Roomy) :
    (∃ n w' ended, Repays rules w n w' ended) ↔ ¬ unpayable ≤ w.densityDebt := by
  constructor
  · rintro ⟨n, w', ended, r⟩ long
    obtain rfl := r.noRoom_of_unpayable long
    obtain ⟨cell, -, -, none⟩ := r.blocked
    exact none (roomy cell)
  · intro short
    have paid : w.payDebt rules (floorNat w.densityDebt) 0 = ⟨_, _, _⟩ := rfl
    obtain ⟨n, -, r⟩ := repays_of_payDebt paid (payDebt_of_payable short 0)
    exact ⟨n, _, _, r⟩

/-- A loop takes at most `⌊debt⌋` turns, below `unpayable`. -/
theorem Repays.le_floorNat (r : Repays rules w n w' ended) (short : ¬ unpayable ≤ w.densityDebt) :
    n ≤ floorNat w.densityDebt := by
  obtain ⟨k, enough, low⟩ := exists_low_of_payable short
  exact (not_lt.mp fun more => low (r.due more)).trans enough

/-- The debt has a value from zero up to, and not including, one. -/
def OwesFraction (w : World Float) : Prop :=
  ∃ a, value? w.densityDebt = some a ∧ 0 ≤ a ∧ a < 1

/-- A loop that ends as `done` leaves a fraction of a second. -/
theorem Repays.owesFraction (r : Repays rules w n w' .done) {v : ℚ}
    (hv : value? w.densityDebt = some v) (nonneg : 0 ≤ v) : w'.OwesFraction := by
  generalize he : StepEnd.done = ended at r
  induction r generalizing v with
  | paid low => exact ⟨v, hv, nonneg, not_le.mp (mt (le_iff_value value?_one hv).mpr low)⟩
  | stuck due stuck => cases he
  | again due free rest ih =>
    have due := (le_iff_value value?_one hv).mp due
    obtain ⟨left, hleft, rounds⟩ := exists_sub_one hv due
    refine ih ?_ (rounds.nonneg (by linarith)) he
    rwa [densityDebt_payOnce]

end World

/-! ### Durations -/

namespace Span

variable {dt : Span} {s f d : ℚ}

/-- The whole seconds of the span decide, as the fraction is rounded away at this size. -/
theorem Reads.unpayable_iff (r : dt.Reads s f d) :
    2 ^ 53 + 4 ≤ d ↔ 9007199254740995 * 10 ^ 9 ≤ dt.nanos := by
  have whole := r.rounded
  obtain ⟨-, nonneg, below⟩ := r.fraction
  constructor
  · contrapose!
    intro short
    have few : ((dt.nanos / 1000000000 : Nat) : ℚ) ≤ 2 ^ 53 + 2 := by
      exact_mod_cast show dt.nanos / 1000000000 ≤ 2 ^ 53 + 2 by omega
    have first := (representable_of_value? r.whole).le_of_payable (whole.payable (by linarith))
    exact r.sum.payable (by linarith)
  · intro long
    refine r.sum.le_of_le representable_unpayable ?_
    suffices 2 ^ 53 + 4 ≤ s by linarith
    rcases (show 9007199254740995 ≤ dt.nanos / 1000000000 by omega).eq_or_lt with tie | more
    · -- halfway between two doubles the even mantissa is the greater one
      have first := r.whole
      rw [← tie] at first
      have read : Binary.ofFloat? (Number.ofInt (9007199254740995 : Nat)) =
          some ⟨false, 2 ^ 52 + 2, 1⟩ := by decide +kernel
      rw [value?, read, Option.map_some, Binary.value_of_positive rfl, Option.some_inj] at first
      rw [← first]
      norm_num [Binary.size]
    · refine whole.le_of_le representable_unpayable ?_
      exact_mod_cast show 2 ^ 53 + 4 ≤ dt.nanos / 1000000000 by omega

/-- A fraction that is owed from before does not decide either. -/
theorem unpayable_iff {w : World Float} (owes : w.OwesFraction) (fits : dt.Fits) :
    unpayable ≤ w.densityDebt + dt.seconds ↔ 9007199254740995 * 10 ^ 9 ≤ dt.nanos := by
  obtain ⟨a, ha, nonneg, below⟩ := owes
  obtain ⟨s, f, d, r, most⟩ := exists_reads fits
  have some := r.nonneg
  obtain ⟨debt, hdebt, rounds, -⟩ :=
    (comesTo_add ha r.value).exists_value (by linarith) (by linarith)
  rw [le_iff_value value?_unpayable hdebt, ← r.unpayable_iff]
  constructor
  · contrapose!
    intro short
    have fewer := (representable_of_value? r.value).le_of_payable short
    exact rounds.payable (by linarith)
  · exact fun long => rounds.le_of_le representable_unpayable (by linarith)

end Span

/-! ### Runs -/

namespace Host

variable {σ : Type}

theorem owesFraction_create (settings : Settings Float) (chance : Random) (source : σ) :
    (Host.create settings chance source).world.OwesFraction :=
  ⟨0, value?_zero, le_rfl, one_pos⟩

/-- The invariant of runs whose steps end as `done`. -/
theorem owesFraction_timed :
    Timed (fun (h : Host σ Float) _ _ => h.world.OwesFraction) Span.Fits (· = .done) where
  done := rfl
  blind owes same := by rwa [World.OwesFraction, same]
  step now dt fits owes ended := by
    refine ⟨ended, ?_⟩
    obtain ⟨a, ha, nonneg, below⟩ := owes
    obtain ⟨s, f, d, r, most⟩ := Span.exists_reads fits
    have some := r.nonneg
    obtain ⟨debt, hdebt, -, owed⟩ :=
      (comesTo_add ha r.value).exists_value (by linarith) (by linarith)
    have repays := Engine.repays_of_step (ended.trans_ne StepEnd.noConfusion)
    rw [ended] at repays
    refine repays.owesFraction ?_ owed
    rw [Engine.densityDebt_overdue]
    exact hdebt

theorem owesFraction_run {settings : Settings Float} {chance : Random} {source : σ}
    {os : List (Operation σ Float)} (lengths : ∀ now dt, .step now dt ∈ os → dt.Fits)
    (ends : ∀ ended ∈ (Host.create settings chance source).ends os, ended = .done) :
    ((Host.create settings chance source).run os).world.OwesFraction :=
  @Timed.run _ _ _ _ _ _ _ 0 0 owesFraction_timed os (Span.ofRate_fits _) lengths
    (owesFraction_create settings chance source) ends

end Host

/-- After any run with accepted settings, let `debt = densityDebt + dt.seconds` be that of a next
step. If `¬ unpayable ≤ debt`, the loop ends after `s.passes ≤ ⌊debt⌋` turns. If `unpayable ≤ debt`,
it ends only in `noRoom`. For `cellSize < widest` it ends iff `¬ unpayable ≤ debt`. If all steps of
the run were done and all spans fit, `unpayable ≤ debt` iff `dt` is at least `9007199254740995`
seconds. -/
theorem step_returns_iff {σ : Type} {settings : Settings Float} (accepted : settings.check = .ok ())
    (chance : Random) (source : σ) (os : List (Operation σ Float)) (now : Time) (dt : Span) :
    let start := Host.create settings chance source
    let h := start.run os
    let owing := h.engine.overdue h.issuer now dt h.source
    let s := h.engine.step h.issuer now dt h.source
    let debt : Float := h.world.densityDebt + dt.seconds
    (¬ unpayable ≤ debt → World.Repays h.engine.botRules owing s.passes s.engine.world s.ended ∧
        s.passes ≤ floorNat debt) ∧
      (unpayable ≤ debt → ∀ n w ended, World.Repays h.engine.botRules owing n w ended →
        ended = .noRoom) ∧
      (settings.cellSize < widest →
        ((∃ n w ended, World.Repays h.engine.botRules owing n w ended) ↔ ¬ unpayable ≤ debt)) ∧
      ((∀ ended ∈ start.ends os, ended = .done) → (∀ now dt, .step now dt ∈ os → dt.Fits) →
        dt.Fits → (unpayable ≤ debt ↔ 9007199254740995 * 10 ^ 9 ≤ dt.nanos)) := by
  intro start h owing s debt
  have owed : owing.densityDebt = debt :=
    Engine.densityDebt_overdue _ _ _ _ _
  have same : h.engine.settings = settings := Host.settings_run _ os
  refine ⟨?_, ?_, ?_, ?_⟩
  · intro short
    rw [← owed] at short ⊢
    have repays : World.Repays h.engine.botRules owing s.passes s.engine.world s.ended :=
      Engine.repays_of_step (World.payDebt_of_payable short 0)
    exact ⟨repays, repays.le_floorNat short⟩
  · intro long n w ended repays
    exact repays.noRoom_of_unpayable (owed ▸ long)
  · intro small
    obtain ⟨q, hq, pos⟩ := settings.exists_size accepted
    rw [← owed]
    refine World.exists_repays_iff fun c => ?_
    show (Bounds.ofCell c h.engine.settings.cellSize).Roomy
    rw [same]
    exact (Bounds.roomy_iff_finite hq pos c).mpr ((finite_iff_lt_widest hq pos).mpr small c)
  · intro ends lengths fits
    exact Span.unpayable_iff (Host.owesFraction_run lengths ends) fits

/-- A step of one second after one and a half: the loop ends after at most one turn. -/
theorem second_step_returns :
    let standard : Settings Float := .standard
    let os := [.upsert "p1" "one" ⟨9, 0, 5⟩ .zero, .step ⟨0⟩ (.ofMillis 1500)]
    let start : Host Unit Float := Host.create standard (.ofSeed 1) ()
    let h := start.run os
    standard.check = .ok () ∧ (∀ ended ∈ start.ends os, ended = .done) ∧
      standard.cellSize < widest ∧
      ∃ n ≤ 1, ∃ w ended, World.Repays h.engine.botRules
        (h.engine.overdue h.issuer ⟨0⟩ (.ofSeconds 1) h.source) n w ended := by
  intro standard os start h
  have accepted : standard.check = .ok () := standard.check_eq_ok_iff.mpr (by decide +kernel)
  have ends : ∀ ended ∈ start.ends os, ended = .done := by decide +kernel
  have small : standard.cellSize < widest := by decide +kernel
  have lengths (now : Time) (dt : Span) (listed : .step now dt ∈ os) : dt.Fits := by
    obtain ⟨-, rfl⟩ : now = ⟨0⟩ ∧ dt = .ofMillis 1500 := by simpa [os] using listed
    decide +kernel
  obtain ⟨returns, -, room, long⟩ := step_returns_iff accepted (.ofSeed 1) () os ⟨0⟩ (.ofSeconds 1)
  have short := mt (long ends lengths (by decide)).mp (by decide)
  obtain ⟨n, w, ended, again⟩ := (room small).mpr short
  obtain ⟨repays, few⟩ := returns short
  have second : floorNat (h.world.densityDebt + Span.seconds (.ofSeconds 1)) = 1 := by
    decide +kernel
  exact ⟨accepted, ends, small, n, (again.unique repays).1.trans_le (few.trans second.le), w, ended,
    again⟩

/-- With accepted settings and a fresh world, a step of `9007199254740995` seconds has no end. -/
theorem long_step_never_returns :
    let standard : Settings Float := .standard
    let h : Host Unit Float := Host.create standard (.ofSeed 1) ()
    let dt := Span.ofSeconds 9007199254740995
    standard.check = .ok () ∧ dt.Fits ∧
      ¬ ∃ n w ended,
        World.Repays h.engine.botRules (h.engine.overdue h.issuer ⟨0⟩ dt h.source) n w ended := by
  intro standard h dt
  have accepted : standard.check = .ok () := standard.check_eq_ok_iff.mpr (by decide +kernel)
  obtain ⟨q, hq, pos⟩ := standard.exists_size accepted
  have small : standard.cellSize < widest := by decide +kernel
  have fits : dt.Fits := by decide
  refine ⟨accepted, fits, ?_⟩
  have roomy (c : Cell) : (Bounds.ofCell c h.engine.botRules.cellSize).Roomy :=
    (Bounds.roomy_iff_finite hq pos c).mpr ((finite_iff_lt_widest hq pos).mpr small c)
  have long : unpayable ≤ (h.engine.overdue h.issuer ⟨0⟩ dt h.source).densityDebt := by
    rw [Engine.densityDebt_overdue]
    decide +kernel
  exact fun returns => (World.exists_repays_iff roomy).mp returns long

end CellWorld
