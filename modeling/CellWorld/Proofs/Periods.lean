import CellWorld.CommandLine.Program
import CellWorld.Proofs.Crossings
import CellWorld.Proofs.Repayment
import CellWorld.Proofs.Seconds

/-!
# Rates and periods

The period of a rate is `1 s / hz`, cut to whole nanoseconds. `check` accepts every rate but zero,
and from a billion and one on nothing is left of the period.

* `Span.ofRate_pos_iff` — `0 < (ofRate hz).nanos ↔ hz ≤ 10 ^ 9`
* `Span.second_lt` — `hz` periods miss less than `hz` nanoseconds of a second
* `Span.exists_period` — the period in seconds as a double, positive iff the period is
* `Engine.Stepped.tick_through`, `Host.tick_stepped` — if the steps of one call are done, `tick`
  grows by their number
* `CommandLine.ceilCount_of_value`, `CommandLine.ceilCount_div`, `CommandLine.ceilCount_div_zero` —
  the quotient rounded up, saturating at `2 ^ 64 - 1`
* `CommandLine.Walk.tick_steps`, `CommandLine.scenario_tick` — a scenario that ends with code `0`
  has taken `ceilCount (seconds / period)` steps
* `periods_of_accepted` — all this for accepted settings, after any run
* `twenty_steps_a_second`, `two_billion_steps_stand_still` — settings that behave, and accepted
  settings that get nowhere

A scenario with a period of zero is not run here: its count is `2 ^ 64 - 1`. Nor is real time: a
period says how long a step lasts in the simulation.
-/

namespace CellWorld

open Number Float.Model Float.Model.UnpackedFloat

/-! ### Periods -/

namespace Span

/-- The period is positive iff the rate is at most `10 ^ 9`. -/
theorem ofRate_pos_iff (hz : UInt32) : 0 < (ofRate hz).nanos ↔ hz.toNat ≤ 1000000000 := by
  rw [ofRate, Nat.div_pos_iff]
  omega

/-- Cutting loses less than a nanosecond for each period. -/
theorem second_lt {hz : UInt32} (some : hz.toNat ≠ 0) :
    hz.toNat * (ofRate hz).nanos ≤ 1000000000 ∧
      1000000000 < hz.toNat * (ofRate hz).nanos + hz.toNat := by
  have least : max hz.toNat 1 = hz.toNat := Nat.max_eq_left (Nat.one_le_iff_ne_zero.mpr some)
  unfold ofRate
  rw [least]
  have split := Nat.div_add_mod 1000000000 hz.toNat
  have rest := Nat.mod_lt 1000000000 (Nat.pos_of_ne_zero some)
  constructor <;> dsimp only <;> omega

/-- The value of the period in seconds: the rounded `nanos / 10 ^ 9`, positive iff `nanos` is. -/
theorem exists_period (hz : UInt32) :
    ∃ p, value? ((ofRate hz).seconds : Float) = some p ∧ RoundsTo ((ofRate hz).nanos / 10 ^ 9) p ∧
      (0 < p ↔ 0 < (ofRate hz).nanos) := by
  obtain ⟨s, f, p, r, -⟩ := exists_reads (ofRate_fits hz)
  have rounds := r.short (ofRate_le hz)
  refine ⟨p, r.value, rounds, ?_⟩
  constructor
  · contrapose!
    intro none
    rw [Nat.le_zero.mp none, Nat.cast_zero, zero_div] at rounds
    exact rounds.nonpos le_rfl
  · intro some
    have nanosecond : (2 : ℚ) ^ (-30 : Int) ≤ (ofRate hz).nanos / 10 ^ 9 := by
      have some' : (1 : ℚ) ≤ (ofRate hz).nanos := by exact_mod_cast some
      calc (2 : ℚ) ^ (-30 : Int) ≤ 1 / 10 ^ 9 := by norm_num
        _ ≤ (ofRate hz).nanos / 10 ^ 9 := by gcongr
    exact (zpow_pos (by norm_num) _).trans_le
      (rounds.le_of_le (.power (-30) (by norm_num)) nanosecond)

end Span

/-! ### Steps that are counted -/

section Counted

variable {σ α : Type} [Angular α]

/-- A step counts itself, however it ends. -/
theorem Engine.tick_step (e : Engine α) (issuer : Option (Issuer σ α)) (now : Time) (dt : Span)
    (source : σ) : (e.step issuer now dt source).engine.world.tick = e.world.tick + 1 :=
  (Host.step_crossings ⟨e, issuer, source⟩ now dt).2.2

/-- If all steps of a call are done, `tick` has grown by their number. -/
theorem Engine.Stepped.tick_through (issuer : Option (Issuer σ α)) (dt : Span) (clock : List Time)
    {s : Engine.Stepped σ α} (done : (s.through issuer dt clock).ended = .done) :
    (s.through issuer dt clock).engine.world.tick = s.engine.world.tick + clock.length := by
  induction clock generalizing s with
  | nil => rfl
  | cons now clock ih =>
    by_cases ended : s.ended = .done
    · have once : (s.again issuer now dt).engine.world.tick = s.engine.world.tick + 1 := by
        rw [again, if_pos ended]
        exact s.engine.tick_step issuer now dt s.source
      rw [List.length_cons, Nat.add_comm clock.length, ← Nat.add_assoc, ← once]
      exact ih done
    · -- a step that is not done is the last one
      rw [through_of_ended _ _ _ ended] at done
      exact absurd done ended

theorem Host.tick_stepped (h : Host σ α) (clock : List Time)
    (done : (h.stepped (.ticks clock)).ended = .done) :
    (h.perform (.ticks clock)).world.tick = h.world.tick + clock.length :=
  Engine.Stepped.tick_through _ _ _ done

end Counted

/-! ### Counting up to a time -/

namespace CommandLine

/-- The ceiling of a finite value, from zero up to `2 ^ 64 - 1`. -/
theorem ceilCount_of_value {x : Float} {v : ℚ} (hx : value? x = some v) :
    ceilCount x = min ⌈v⌉.toNat (2 ^ 64 - 1) := by
  obtain ⟨b, read, value⟩ := Option.map_eq_some_iff.mp (value?_neg hx)
  rw [ceilCount, read]
  dsimp only
  rw [b.floor_eq, value, Int.floor_neg, neg_neg]
  rfl

/-- The positive infinity counts as the greatest number. -/
theorem ceilCount_positive : ceilCount (packed (.infinity .positive)) = 2 ^ 64 - 1 := by
  decide +kernel

theorem ceilCount_negative : ceilCount (packed (.infinity .negative)) = 0 := by decide +kernel

variable {x y : Float} {p q : ℚ}

/-- The count of a quotient is the ceiling of its rounded value, or the greatest number where it is
infinite. -/
theorem ceilCount_div (hx : value? x = some p) (hy : value? y = some q) (some : q ≠ 0) :
    ∃ r, RoundsTo (p / q) r ∧ ceilCount (x / y) = min ⌈r⌉.toNat (2 ^ 64 - 1) := by
  obtain ⟨r, rounds, value⟩ := comesTo_div hx hy some
  refine ⟨r, rounds, ?_⟩
  split at value
  · exact ceilCount_of_value value
  · next large =>
    obtain ⟨s, infinite, sign⟩ := div_infinite hx hy some value
    rw [infinite]
    cases s with
    | positive =>
      have pos := rounds.nonneg (sign.mp rfl).le
      rw [abs_of_nonneg pos, not_lt] at large
      have many : ((2 ^ 64 - 1 : Nat) : ℚ) ≤ ⌈r⌉ :=
        calc ((2 ^ 64 - 1 : Nat) : ℚ) ≤ 2 ^ 64 := by norm_num
          _ ≤ 2 ^ 1024 := pow_le_pow_right₀ (by norm_num) (by norm_num)
          _ ≤ ⌈r⌉ := large.trans (Int.le_ceil r)
      have many' : ((2 ^ 64 - 1 : Nat) : Int) ≤ ⌈r⌉ := by exact_mod_cast many
      rw [ceilCount_positive]
      omega
    | negative =>
      have nonpos := rounds.nonpos (not_lt.mp fun pos => Sign.noConfusion (sign.mpr pos))
      have none : ⌈r⌉ ≤ 0 := Int.ceil_le.mpr (nonpos.trans_eq Int.cast_zero.symm)
      rw [ceilCount_negative]
      omega

/-- With a period of zero the quotient is an infinity or a NaN. -/
theorem ceilCount_div_zero (hx : value? x = some p) (hy : y.toModel.unpack = .zero .positive) :
    ceilCount (x / y) = if 0 < p then 2 ^ 64 - 1 else 0 := by
  obtain ⟨a, na, ua, rfl⟩ := exists_of_value? hx
  have quotient : x / y = packed (UnpackedFloat.div .binary64 a.unpacked (.zero .positive)) := by
    rw [← ua, ← hy]
    rfl
  rw [quotient]
  rcases Nat.eq_zero_or_pos a.magnitude with za | pa
  · rw [Binary.value_of_zero za, Binary.unpacked_zero za, if_neg (lt_irrefl 0)]
    show ceilCount (packed .notANumber) = 0
    decide +kernel
  · rw [Binary.unpacked_pos pa]
    have size := Binary.size_pos pa
    cases sign : a.negative with
    | false =>
      rw [Binary.value_of_positive sign, if_pos size]
      exact ceilCount_positive
    | true =>
      rw [Binary.value_of_negative sign, if_neg (by linarith)]
      exact ceilCount_negative

namespace Walk

theorem tick_step (now : Time) (dt : Span) (w : Walk) :
    (w.step now dt).engine.world.tick = w.engine.world.tick + 1 := by
  have ticked := w.engine.tick_step none now dt ()
  unfold step
  dsimp only
  split <;> exact ticked

/-- If a walk of `n` steps is done, `tick` has grown by `n`. -/
theorem tick_steps (now : Time) (dt : Span) (n : Nat) (w : Walk)
    (done : (steps now dt n w).ended = .done) :
    (steps now dt n w).engine.world.tick = w.engine.world.tick + n := by
  induction n generalizing w with
  | zero => rfl
  | succ n ih =>
    unfold steps at done ⊢
    split at done
    · next further =>
      rw [if_pos further, ih _ done, tick_step, Nat.add_assoc, Nat.add_comm 1]
    · next early => exact absurd done early

end Walk

/-- The closing line of a scenario that succeeds is about `ceilCount (seconds / period)` steps. -/
theorem scenario_tick {settings : Settings Float} (accepted : settings.check = .ok ())
    (seconds speed : Float) (now : Time) (chance : Random)
    (done : (scenario seconds speed settings now chance).code = 0) :
    ∃ e : Engine Float, e.world.tick = ceilCount (seconds / settings.tickPeriod.seconds) ∧
      (scenario seconds speed settings now chance).output.getLast? = some (closing e) := by
  have checked : Engine.checked? settings chance = .ok (.create settings chance) := by
    rw [Engine.checked?, accepted]
    rfl
  unfold scenario at done ⊢
  rw [checked] at done ⊢
  dsimp only at done ⊢
  split at done
  · next ended =>
    refine ⟨_, (Walk.tick_steps _ _ _ _ ended).trans ?_, List.getLast?_reverse⟩
    have nobody : (Engine.create settings chance).world.tick = 0 := rfl
    have joined :=
      World.frame_upsert World.tick (fun _ _ _ => rfl) (Engine.create settings chance).world
    dsimp only [Engine.upsert]
    rw [joined, nobody, Nat.zero_add]
  · exact absurd done (show ¬ 101 = 0 by decide)

end CommandLine

open CommandLine in
/-- For accepted settings, after any run. `tickPeriod` and `snapshotPeriod` are positive iff their
rates are at most `10 ^ 9`. `tickHz` steps of the period last at most a second, miss less than
`tickHz` nanoseconds of it, and count `tickHz` ticks if they are done. The count of a scenario of
`x` seconds is the ceiling of the rounded `x / p`, between `⌊x / p⌋` and `⌈x / p⌉` where these are
below `2 ^ 53`; with a period of zero it is `2 ^ 64 - 1` for `0 < x` and `0` else. A scenario that
succeeds has taken as many steps. -/
theorem periods_of_accepted {σ : Type} {settings : Settings Float}
    (accepted : settings.check = .ok ()) (chance : Random) (source : σ)
    (os : List (Operation σ Float)) :
    let h := (Host.create settings chance source).run os
    let period := settings.tickPeriod
    (0 < period.nanos ↔ settings.tickHz.toNat ≤ 1000000000) ∧
      (0 < settings.snapshotPeriod.nanos ↔ settings.snapshotHz.toNat ≤ 1000000000) ∧
      (∀ clock : List Time, clock.length = settings.tickHz.toNat →
        h.lasts (.ticks clock) ≤ 1000000000 ∧
          1000000000 < h.lasts (.ticks clock) + settings.tickHz.toNat ∧
          ((h.stepped (.ticks clock)).ended = .done →
            (h.perform (.ticks clock)).world.tick = h.world.tick + settings.tickHz.toNat)) ∧
      ∃ p, value? (period.seconds : Float) = some p ∧ RoundsTo (period.nanos / 10 ^ 9) p ∧
        (0 < p ↔ 0 < period.nanos) ∧
        ∀ (seconds : Float) (x : ℚ), value? seconds = some x →
          let count := ceilCount (seconds / period.seconds)
          (0 < period.nanos → ∃ r, RoundsTo (x / p) r ∧ count = min ⌈r⌉.toNat (2 ^ 64 - 1) ∧
            (|x / p| ≤ 2 ^ 53 - 1 → ⌊x / p⌋ ≤ ⌈r⌉ ∧ ⌈r⌉ ≤ ⌈x / p⌉)) ∧
          (period.nanos = 0 → count = if 0 < x then 2 ^ 64 - 1 else 0) ∧
          ∀ speed now chance', (scenario seconds speed settings now chance').code = 0 →
            ∃ e : Engine Float, e.world.tick = count ∧
              (scenario seconds speed settings now chance').output.getLast? = some (closing e) := by
  intro h period
  have some : settings.tickHz.toNat ≠ 0 := by
    obtain ⟨-, -, least, -⟩ := settings.check_eq_ok_iff.mp accepted
    rw [UInt32.lt_iff_toNat_lt] at least
    exact fun none => least (none ▸ Nat.one_pos)
  refine ⟨Span.ofRate_pos_iff _, Span.ofRate_pos_iff _, ?_, ?_⟩
  · intro clock length
    have lasts : h.lasts (.ticks clock) =
        settings.tickHz.toNat * (Span.ofRate settings.tickHz).nanos := by
      show clock.length * h.engine.settings.tickPeriod.nanos = _
      rw [length, Host.settings_run]
      rfl
    rw [lasts]
    obtain ⟨most, least⟩ := Span.second_lt some
    exact ⟨most, least, fun done => length ▸ h.tick_stepped clock done⟩
  · obtain ⟨p, hp, rounds, pos⟩ := Span.exists_period settings.tickHz
    refine ⟨p, hp, rounds, pos, ?_⟩
    intro seconds x hx count
    refine ⟨?_, ?_, scenario_tick accepted seconds⟩
    · intro positive
      obtain ⟨r, quotient, counted⟩ := ceilCount_div hx hp (pos.mpr positive).ne'
      exact ⟨r, quotient, counted, quotient.ceil_between⟩
    · intro zero
      refine ceilCount_div_zero hx ?_
      rw [show period = ⟨0⟩ from congrArg Span.mk zero]
      rfl

open CommandLine in
/-- At 20 Hz, twenty steps last a second, and a scenario of `0.3` s takes six. -/
theorem twenty_steps_a_second :
    let standard : Settings Float := .standard
    let h : Host Unit Float := (Host.create standard (.ofSeed 1) ()).run []
    let clock : List Time := List.replicate 20 ⟨0⟩
    standard.check = .ok () ∧ 0 < standard.tickPeriod.nanos ∧
      h.lasts (.ticks clock) ≤ 1000000000 ∧ (h.perform (.ticks clock)).world.tick = 20 ∧
      ∃ e : Engine Float, e.world.tick = 6 ∧
        (scenario 0.3 1 standard ⟨0⟩ (.ofSeed 1)).output.getLast? = some (closing e) := by
  intro standard h clock
  have accepted : standard.check = .ok () := standard.check_eq_ok_iff.mpr (by decide +kernel)
  obtain ⟨pos, -, ticks, p, -, -, -, walks⟩ := periods_of_accepted accepted (.ofSeed 1) () []
  obtain ⟨most, -, counted⟩ := ticks clock rfl
  refine ⟨accepted, pos.mpr (by decide), most, counted ?_, ?_⟩
  · decide +kernel
  · obtain ⟨x, hx⟩ := (isSome_iff_value 0.3).mp (by decide +kernel)
    obtain ⟨-, -, report⟩ := walks 0.3 x hx
    have count : ceilCount (0.3 / standard.tickPeriod.seconds) = 6 := by decide +kernel
    obtain ⟨e, ticked, line⟩ := report 1 ⟨0⟩ (.ofSeed 1) (by decide +kernel)
    exact ⟨e, ticked.trans count, line⟩

open CommandLine in
/-- At `2 * 10 ^ 9` Hz the period is `0` ns, and a scenario of one second is to take `2 ^ 64 - 1`
steps. -/
theorem two_billion_steps_stand_still :
    let fast : Settings Float := { Settings.standard with tickHz := 2000000000 }
    fast.check = .ok () ∧ fast.tickPeriod = ⟨0⟩ ∧
      ceilCount ((1.0 : Float) / fast.tickPeriod.seconds) = 2 ^ 64 - 1 := by
  intro fast
  refine ⟨fast.check_eq_ok_iff.mpr (by decide +kernel), by decide, by decide +kernel⟩

end CellWorld
