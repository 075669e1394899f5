import CellWorld.Proofs.Exact
import CellWorld.Proofs.Repayment

/-!
# The cadence of the density passes

Steps run a density pass for every second of simulated time. With an exact arithmetic it makes no
difference how the time is split into steps: after `T` seconds, `⌊T⌋` passes were run and the debt
is `Int.fract T`.

* `Counting` — scalars with `floorNat a = ⌊value a⌋.toNat`
* `World.Repays.exactly` — the loop takes `⌊densityDebt⌋` turns and leaves the fraction
* `Host.OnTime h nanos passes` — `passes = ⌊nanos / 10 ^ 9⌋` and `densityDebt` is the fraction
* `Host.OnTime.step` — a step that is not stopped keeps the time
* `passes_follow_time` — `OnTime` for every run none of whose steps ends in `noRoom`, and the loop
  of one step more ends

In doubles the debt is rounded and the loop need not end: see `Proofs.Overdue`. Passes that
`maintainDensity` runs out of turn are not counted.
-/

namespace CellWorld

open Exact (value)

variable {σ α : Type}

/-- An exact arithmetic in which `floorNat` is the floor. -/
class Counting (α : Type) [Scalar α] [Exact α] : Prop where
  floorNat_eq (a : α) : Scalar.floorNat a = ⌊value a⌋.toNat

instance : Counting ℚ where
  floorNat_eq a := congrArg Int.toNat (Rat.floor_cast a).symm

/-! ### The loop -/

namespace World

variable [Angular α] [Exact α]

/-- After `n` turns the debt is `n` less. -/
theorem value_debtAfter (debt : α) (n : Nat) : value (debtAfter debt n) = value debt - n := by
  induction n generalizing debt with
  | zero => rw [debtAfter, Nat.cast_zero, sub_zero]
  | succ n ih =>
    rw [debtAfter, ih, Exact.value_sub, Exact.value_one, Nat.cast_succ]
    ring

/-- After `⌊debt⌋` turns less than a second is left, so the loop ends. -/
theorem debtAfter_floor (debt : α) : ¬ (1.0 : α) ≤ debtAfter debt ⌊value debt⌋.toNat := by
  rw [Exact.le_iff, value_debtAfter, Exact.value_one, not_le, sub_lt_iff_lt_add', Int.floor_toNat]
  exact Nat.lt_floor_add_one (value debt)

variable {rules : BotRules α} {w w' : World α} {n : Nat}

/-- If the loop ends as `done`, it took `⌊densityDebt⌋` turns and left `Int.fract densityDebt`. -/
theorem Repays.exactly (r : Repays rules w n w' .done) (owed : 0 ≤ value w.densityDebt) :
    (n : ℤ) = ⌊value w.densityDebt⌋ ∧ value w'.densityDebt = Int.fract (value w.densityDebt) := by
  have left : value w'.densityDebt = value w.densityDebt - n := by
    rw [r.densityDebt, value_debtAfter]
  have low : value w'.densityDebt < 1 := by
    have low := r.low
    rwa [Exact.le_iff, Exact.value_one, not_le] at low
  have nonneg : 0 ≤ value w'.densityDebt := by
    cases n with
    | zero => rwa [left, Nat.cast_zero, sub_zero]
    | succ n =>
      have due := r.due n.lt_succ_self
      rw [Exact.le_iff, value_debtAfter, Exact.value_one] at due
      rw [left, Nat.cast_succ]
      linarith
  have floor : ⌊value w.densityDebt⌋ = n := by
    rw [Int.floor_eq_iff, Int.cast_natCast]
    constructor <;> linarith
  exact ⟨floor.symm, by rw [Int.fract, floor, left, Int.cast_natCast]⟩

end World

/-- With exact arithmetic the loop ends in every step: `ended` is never `endless`. -/
theorem Engine.step_ne_endless [Angular α] [Exact α] [Counting α] (e : Engine α)
    (issuer : Option (Issuer σ α)) (now : Time) (dt : Span) (source : σ) :
    (e.step issuer now dt source).ended ≠ .endless := by
  refine World.payDebt_of_low (w := e.overdue issuer now dt source)
    (n := ⌊value (e.overdue issuer now dt source).densityDebt⌋.toNat) ?_ ?_ 0
  · exact (Counting.floorNat_eq _).ge
  · exact World.debtAfter_floor _

/-! ### Runs -/

namespace Host

variable [Angular α] [Exact α]

/-- The clock of a run: `nanos` have gone by, `passes` were run, and `densityDebt` is the rest in
seconds. -/
structure OnTime (h : Host σ α) (nanos passes : Nat) : Prop where
  passes : (passes : ℤ) = ⌊(nanos : ℝ) / 10 ^ 9⌋
  debt : value h.world.densityDebt = Int.fract ((nanos : ℝ) / 10 ^ 9)

namespace OnTime

theorem create (settings : Settings α) (chance : Random) (source : σ) :
    (Host.create settings chance source).OnTime 0 0 where
  passes := by norm_num
  debt := by
    rw [Nat.cast_zero, zero_div, Int.fract_zero]
    exact Exact.value_zero

variable [Counting α] {h : Host σ α} {nanos passes : Nat}

/-- A step that does not end in `noRoom` ends in `done`, and adds its nanoseconds and its passes. -/
theorem step (t : h.OnTime nanos passes) (now : Time) (dt : Span)
    (free : (h.engine.step h.issuer now dt h.source).ended ≠ .noRoom) :
    (h.engine.step h.issuer now dt h.source).ended = .done ∧
      (h.perform (.step now dt)).OnTime (nanos + dt.nanos)
        (passes + (h.engine.step h.issuer now dt h.source).passes) := by
  have whole := h.engine.step_ne_endless h.issuer now dt h.source
  have repays := Engine.repays_of_step whole
  have done : (h.engine.step h.issuer now dt h.source).ended = .done := by
    cases ended : (h.engine.step h.issuer now dt h.source).ended with
    | done => rfl
    | noRoom => exact absurd ended free
    | endless => exact absurd ended whole
  rw [done] at repays
  have owed : value (h.engine.overdue h.issuer now dt h.source).densityDebt =
      Int.fract ((nanos : ℝ) / 10 ^ 9) + dt.nanos / 10 ^ 9 := by
    rw [Engine.densityDebt_overdue, Exact.value_add, Span.value_seconds]
    exact congrArg (· + _) t.debt
  have split : ((nanos + dt.nanos : Nat) : ℝ) / 10 ^ 9 =
      ⌊(nanos : ℝ) / 10 ^ 9⌋ + (Int.fract ((nanos : ℝ) / 10 ^ 9) + dt.nanos / 10 ^ 9) := by
    rw [← add_assoc, Int.floor_add_fract, Nat.cast_add, add_div]
  obtain ⟨count, left⟩ := repays.exactly (by rw [owed]; positivity)
  refine ⟨done, ?_, ?_⟩
  · rw [split, Int.floor_intCast_add, ← owed, ← count, ← t.passes, Nat.cast_add]
  · rw [split, Int.fract_intCast_add, ← owed]
    exact left

theorem timed : Timed (@OnTime σ α _ _) (fun _ => True) (· ≠ .noRoom) where
  done := StepEnd.noConfusion
  blind t same := ⟨t.passes, same ▸ t.debt⟩
  step now dt _ t free := t.step now dt free

end OnTime

end Host

/-- Let no step of the run end in `noRoom`. Then `passed = ⌊elapsed / 10 ^ 9⌋`,
`densityDebt = Int.fract (elapsed / 10 ^ 9)`, and for a next step of any length the loop ends after
`s.passes` turns (`World.Repays`). Two such runs with equal `elapsed` have equal `passed`, whatever
else happens in them. -/
theorem passes_follow_time [Angular α] [Exact α] [Counting α] (settings : Settings α)
    (chance : Random) (source : σ) (os : List (Operation σ α))
    (free : .noRoom ∉ (Host.create settings chance source).ends os) :
    let start := Host.create settings chance source
    let h := start.run os
    let seconds : ℝ := start.elapsed os / 10 ^ 9
    (start.passed os : ℤ) = ⌊seconds⌋ ∧
      value h.world.densityDebt = Int.fract seconds ∧
      (0 ≤ value h.world.densityDebt ∧ value h.world.densityDebt < 1) ∧
      (∀ now dt,
        let s := h.engine.step h.issuer now dt h.source
        World.Repays h.engine.botRules (h.engine.overdue h.issuer now dt h.source) s.passes
          s.engine.world s.ended) ∧
      ∀ (settings' : Settings α) (chance' : Random) (source' : σ) (os' : List (Operation σ α)),
        let start' := Host.create settings' chance' source'
        .noRoom ∉ start'.ends os' → start'.elapsed os' = start.elapsed os →
          start'.passed os' = start.passed os := by
  intro start h seconds
  have onTime (settings : Settings α) (chance : Random) (source : σ) (os : List (Operation σ α))
      (free : .noRoom ∉ (Host.create settings chance source).ends os) :
      ((Host.create settings chance source).run os).OnTime
        ((Host.create settings chance source).elapsed os)
        ((Host.create settings chance source).passed os) := by
    have t := Host.OnTime.timed.run os trivial (fun _ _ _ => trivial)
      (Host.OnTime.create settings chance source) fun _ listed same => free (same ▸ listed)
    rwa [Nat.zero_add, Nat.zero_add] at t
  have t := onTime settings chance source os free
  refine ⟨t.passes, t.debt, ?_, ?_, ?_⟩
  · rw [t.debt]
    exact ⟨Int.fract_nonneg _, Int.fract_lt_one _⟩
  · exact fun now dt => Engine.repays_of_step (h.engine.step_ne_endless h.issuer now dt h.source)
  · intro settings' chance' source' os' start' free' same
    have t' := (onTime settings' chance' source' os' free').passes
    rw [same, ← t.passes] at t'
    exact Int.ofNat_inj.mp t'

/-- Two seconds and a half, in seven steps with a density pass out of turn and in one step: two
passes either way, and a debt of `1 / 2`. -/
theorem two_passes_either_way :
    let start : Host Unit ℚ := Host.create .standard (.ofSeed 1) ()
    let os := [.upsert "p1" "one" ⟨9, 0, 5⟩ .zero, .step ⟨0⟩ (.ofMillis 750), .maintainDensity,
      .ticks (List.replicate 5 ⟨1⟩), .step ⟨2⟩ (.ofMillis 1500)]
    let once := [.upsert "p1" "one" ⟨9, 0, 5⟩ .zero, .step ⟨0⟩ (.ofMillis 2500)]
    .noRoom ∉ start.ends os ∧ .noRoom ∉ start.ends once ∧ start.elapsed os = 2500000000 ∧
      start.passed os = 2 ∧ value (start.run os).world.densityDebt = 1 / 2 ∧
      start.passed once = start.passed os := by
  intro start os once
  have free : .noRoom ∉ start.ends os := by decide +kernel
  have free' : .noRoom ∉ start.ends once := by decide +kernel
  have long : start.elapsed os = 2500000000 := by decide +kernel
  have long' : start.elapsed once = start.elapsed os := by decide +kernel
  obtain ⟨passes, debt, -, -, same⟩ := passes_follow_time .standard (.ofSeed 1) () os free
  have whole : ⌊((2500000000 : Nat) : ℝ) / 10 ^ 9⌋ = 2 := by
    rw [Int.floor_eq_iff]
    norm_num
  rw [show Host.elapsed _ os = 2500000000 from long] at passes debt
  rw [whole] at passes
  rw [Int.fract, whole] at debt
  refine ⟨free, free', long, Int.ofNat_inj.mp passes, debt.trans ?_, same _ _ _ once free' long'⟩
  norm_num

end CellWorld
