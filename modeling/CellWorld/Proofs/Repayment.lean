import CellWorld.Proofs.Change
import CellWorld.Proofs.Pass

/-!
# Paying for time

A step adds its time to `densityDebt` and runs a density pass for every second that is due. The loop
has no bound; `World.payDebt` runs it with fuel and answers `endless` when that was too low.
`World.Repays` is the loop as a relation, without fuel.

* `World.payOnce` — one turn: `densityDebt - 1.0`, then `maintainDensity`
* `World.Repays rules w n w' ended` — the loop goes from `w` to `w'` in `n` turns;
  `World.Repays.unique` — to one thing only
* `World.debtAfter`, `World.Repays.due` — the debts it goes through, which do not depend on bots
* `World.Repays.payDebt_eq`, `World.repays_of_payDebt` — with enough fuel `payDebt` is the loop, and
  if it is not `endless` it was enough
* `World.payDebt_of_low` — if `debtAfter debt n < 1` for some `n` within the fuel, `payDebt` is not
  `endless`
* `Engine.overdue`, `Engine.repays_of_step` — the world that a step leaves to the loop; a step that
  is not `endless` runs it
* `Host.ends`, `Host.elapsed`, `Host.passed` — ends, nanoseconds and passes of the steps of a run
* `Host.Timed`, `Host.Timed.run` — an invariant of debt, time and passes that a step keeps, a run
  keeps

Whether the debts ever come below one depends on the scalars: `Proofs.Cadence` answers it for exact
ones, `Proofs.Overdue` for doubles.
-/

namespace CellWorld

variable {σ α : Type} [Angular α]

namespace World

def payOnce (rules : BotRules α) (w : World α) : DensityPass α :=
  { w with densityDebt := w.densityDebt - 1.0 }.maintainDensity rules

/-- The loop as a relation: `paid` when less than a second is due, `stuck` when a pass finds no
room, `again` otherwise. There is no derivation for a loop that does not end. -/
inductive Repays (rules : BotRules α) : World α → Nat → World α → StepEnd → Prop
  | paid {w : World α} (low : ¬ (1.0 : α) ≤ w.densityDebt) : Repays rules w 0 w .done
  | stuck {w : World α} (due : (1.0 : α) ≤ w.densityDebt)
    (stuck : (w.payOnce rules).stuck = true) : Repays rules w 1 (w.payOnce rules).world .noRoom
  | again {w w' : World α} {n : Nat} {ended : StepEnd} (due : (1.0 : α) ≤ w.densityDebt)
    (free : (w.payOnce rules).stuck = false)
    (rest : Repays rules (w.payOnce rules).world n w' ended) : Repays rules w (n + 1) w' ended

/-- The debt after `n` turns. -/
def debtAfter (debt : α) : Nat → α
  | 0 => debt
  | n + 1 => debtAfter (debt - 1.0) n

/-- A density pass does not touch the debt. -/
theorem densityDebt_payOnce (rules : BotRules α) (w : World α) :
    (w.payOnce rules).world.densityDebt = w.densityDebt - 1.0 :=
  (botKept_frame densityDebt (fun _ _ _ _ _ => rfl) rules _).maintainDensity _ rfl

variable {rules : BotRules α}

theorem payDebt_low {w : World α} (low : ¬ (1.0 : α) ≤ w.densityDebt) (fuel passes : Nat) :
    w.payDebt rules fuel passes = ⟨w, passes, .done⟩ := by
  cases fuel <;> rw [payDebt, if_neg low]

theorem payDebt_due {w : World α} (due : (1.0 : α) ≤ w.densityDebt) (fuel passes : Nat) :
    w.payDebt rules (fuel + 1) passes =
      if (w.payOnce rules).stuck then ⟨(w.payOnce rules).world, passes + 1, .noRoom⟩
      else (w.payOnce rules).world.payDebt rules fuel (passes + 1) := by
  rw [payDebt, if_pos due]
  rfl

namespace Repays

variable {w w' : World α} {n : Nat} {ended : StepEnd}

/-- The debt at the end is `debtAfter` of the number of turns. -/
theorem densityDebt (r : Repays rules w n w' ended) :
    w'.densityDebt = debtAfter w.densityDebt n := by
  induction r with
  | paid low => rfl
  | stuck due stuck => exact densityDebt_payOnce rules _
  | again due free rest ih => rw [ih, densityDebt_payOnce, debtAfter]

/-- At every turn of the loop a second was due. -/
theorem due (r : Repays rules w n w' ended) {k : Nat} (hk : k < n) :
    (1.0 : α) ≤ debtAfter w.densityDebt k := by
  induction r generalizing k with
  | paid low => exact absurd hk (Nat.not_lt_zero k)
  | stuck due stuck =>
    obtain rfl : k = 0 := by omega
    exact due
  | again due free rest ih =>
    cases k with
    | zero => exact due
    | succ k =>
      rw [debtAfter, ← densityDebt_payOnce rules]
      exact ih (Nat.lt_of_succ_lt_succ hk)

/-- A loop that ends as `done` leaves less than a second. -/
theorem low (r : Repays rules w n w' .done) : ¬ (1.0 : α) ≤ w'.densityDebt := by
  generalize he : StepEnd.done = ended at r
  induction r with
  | paid low => exact low
  | stuck due stuck => cases he
  | again due free rest ih => exact ih he

/-- With fuel for as many turns as the loop takes, `payDebt` ends as the loop does. -/
theorem payDebt_eq (r : Repays rules w n w' ended) {fuel : Nat} (enough : n ≤ fuel) (passes : Nat) :
    w.payDebt rules fuel passes = ⟨w', passes + n, ended⟩ := by
  induction r generalizing fuel passes with
  | paid low => exact payDebt_low low fuel passes
  | stuck due stuck =>
    obtain ⟨fuel, rfl⟩ := Nat.exists_eq_add_of_le' enough
    rw [payDebt_due due, if_pos stuck]
  | again due free rest ih =>
    obtain ⟨fuel, rfl⟩ := Nat.exists_eq_add_of_le' (Nat.le_of_add_left_le enough)
    rw [payDebt_due due, free, if_neg Bool.false_ne_true, ih (Nat.le_of_succ_le_succ enough),
      Nat.add_right_comm, Nat.add_assoc]

/-- The loop is deterministic. -/
theorem unique {w₁ w₂ : World α} {n₁ n₂ : Nat} {ended₁ ended₂ : StepEnd}
    (first : Repays rules w n₁ w₁ ended₁) (second : Repays rules w n₂ w₂ ended₂) :
    n₁ = n₂ ∧ w₁ = w₂ ∧ ended₁ = ended₂ := by
  have same := (first.payDebt_eq (Nat.le_max_left n₁ n₂) 0).symm.trans
    (second.payDebt_eq (Nat.le_max_right n₁ n₂) 0)
  rw [CaughtUp.mk.injEq, Nat.zero_add, Nat.zero_add] at same
  exact ⟨same.2.1, same.1, same.2.2⟩

end Repays

/-- If `payDebt` does not answer `endless`, the loop does the same. -/
theorem repays_of_payDebt {fuel passes passes' : Nat} {w w' : World α} {ended : StepEnd}
    (paid : w.payDebt rules fuel passes = ⟨w', passes', ended⟩) (whole : ended ≠ .endless) :
    ∃ n, passes' = passes + n ∧ Repays rules w n w' ended := by
  induction fuel generalizing passes w with
  | zero =>
    have low : ¬ (1.0 : α) ≤ w.densityDebt := by
      intro due
      rw [payDebt, if_pos due, CaughtUp.mk.injEq] at paid
      exact whole paid.2.2.symm
    rw [payDebt_low low, CaughtUp.mk.injEq] at paid
    obtain ⟨rfl, rfl, rfl⟩ := paid
    exact ⟨0, rfl, .paid low⟩
  | succ fuel ih =>
    by_cases due : (1.0 : α) ≤ w.densityDebt
    · rw [payDebt_due due] at paid
      split at paid
      · next stuck =>
        rw [CaughtUp.mk.injEq] at paid
        obtain ⟨rfl, rfl, rfl⟩ := paid
        exact ⟨1, rfl, .stuck due stuck⟩
      · next free =>
        obtain ⟨n, rfl, rest⟩ := ih paid
        exact ⟨n + 1, by omega, .again due (Bool.eq_false_iff.mpr free) rest⟩
    · rw [payDebt_low due, CaughtUp.mk.injEq] at paid
      obtain ⟨rfl, rfl, rfl⟩ := paid
      exact ⟨0, rfl, .paid due⟩

/-- The fuel is enough if the debts come below one within it, whatever the bots do. -/
theorem payDebt_of_low {w : World α} {n fuel : Nat} (enough : n ≤ fuel)
    (low : ¬ (1.0 : α) ≤ debtAfter w.densityDebt n) (passes : Nat) :
    (w.payDebt rules fuel passes).ended ≠ .endless := by
  induction n generalizing w fuel passes with
  | zero =>
    rw [payDebt_low low]
    exact StepEnd.noConfusion
  | succ n ih =>
    by_cases due : (1.0 : α) ≤ w.densityDebt
    · obtain ⟨fuel, rfl⟩ := Nat.exists_eq_add_of_le' (Nat.le_of_add_left_le enough)
      rw [payDebt_due due]
      split
      · exact StepEnd.noConfusion
      · refine ih (Nat.le_of_succ_le_succ enough) ?_ (passes + 1)
        rwa [densityDebt_payOnce]
    · rw [payDebt_low due]
      exact StepEnd.noConfusion

end World

namespace Engine

/-- The world of a step before its loop: everybody has moved, and `dt` is added to the debt. -/
def overdue (e : Engine α) (issuer : Option (Issuer σ α)) (now : Time) (dt : Span) (source : σ) :
    World α :=
  let moved := { e.world with tick := e.world.tick + 1 }.integrate (dt.seconds : α)
  let pass := moved.evaluate (e.handoverRules now) issuer source
  let w := pass.world.wander e.settings.cellSize dt.seconds
  { w with densityDebt := w.densityDebt + dt.seconds }

theorem densityDebt_overdue (e : Engine α) (issuer : Option (Issuer σ α)) (now : Time) (dt : Span)
    (source : σ) :
    (e.overdue issuer now dt source).densityDebt = e.world.densityDebt + dt.seconds := by
  have moved := World.wander_frame World.densityDebt
    ({ e.world with tick := e.world.tick + 1 }.integrate (dt.seconds : α) |>.evaluate
      (e.handoverRules now) issuer source).world e.settings.cellSize dt.seconds fun _ _ _ => rfl
  have looked := World.evaluate_frame World.densityDebt (fun _ _ _ _ => rfl) (e.handoverRules now)
    issuer ({ e.world with tick := e.world.tick + 1 }.integrate (dt.seconds : α)) source
  exact congrArg (· + dt.seconds) (moved.trans looked)

variable {e : Engine α} {issuer : Option (Issuer σ α)} {now : Time} {dt : Span} {source : σ}

/-- A step is `payDebt` of the overdue world with `⌊densityDebt⌋` turns of fuel. -/
theorem step_paid :
    (e.overdue issuer now dt source).payDebt e.botRules
        (Scalar.floorNat (e.overdue issuer now dt source).densityDebt) 0 =
      let s := e.step issuer now dt source
      ⟨s.engine.world, s.passes, s.ended⟩ := rfl

/-- A step that is not `endless` is the loop on the overdue world. -/
theorem repays_of_step (ended : (e.step issuer now dt source).ended ≠ .endless) :
    World.Repays e.botRules (e.overdue issuer now dt source) (e.step issuer now dt source).passes
      (e.step issuer now dt source).engine.world (e.step issuer now dt source).ended := by
  obtain ⟨n, passes, r⟩ := World.repays_of_payDebt step_paid ended
  rw [passes, Nat.zero_add]
  exact r

end Engine

/-! ### Runs -/

namespace Host

/-- The steps that an operation takes: `step` one, `ticks` one for each time, all others none. -/
def stepped (h : Host σ α) : Operation σ α → Engine.Stepped σ α
  | .step now dt => h.engine.step h.issuer now dt h.source
  | .ticks clock =>
    Engine.Stepped.through h.issuer h.engine.settings.tickPeriod clock
      ⟨h.engine, h.source, 0, 0, .done⟩
  | _ => ⟨h.engine, h.source, 0, 0, .done⟩

def lasts (h : Host σ α) : Operation σ α → Nat
  | .step _ dt => dt.nanos
  | .ticks clock => clock.length * h.engine.settings.tickPeriod.nanos
  | _ => 0

/-- The end of each operation of a run; `done` where it takes no step. -/
def ends (h : Host σ α) : List (Operation σ α) → List StepEnd
  | [] => []
  | o :: os => (h.stepped o).ended :: (h.perform o).ends os

def elapsed (h : Host σ α) : List (Operation σ α) → Nat
  | [] => 0
  | o :: os => h.lasts o + (h.perform o).elapsed os

def passed (h : Host σ α) : List (Operation σ α) → Nat
  | [] => 0
  | o :: os => (h.stepped o).passes + (h.perform o).passed os

/-- An invariant `P h nanos passes` that is about the debt alone and is kept by steps whose span
`fits` and whose end is `well`; such steps are all done. -/
structure Timed (P : Host σ α → Nat → Nat → Prop) (fits : Span → Prop) (well : StepEnd → Prop) :
    Prop where
  done : well .done
  /-- It is about the debt alone. -/
  blind : ∀ {h h' : Host σ α} {nanos passes : Nat}, P h nanos passes →
    h'.world.densityDebt = h.world.densityDebt → P h' nanos passes
  step : ∀ {h : Host σ α} {nanos passes : Nat} (now : Time) (dt : Span), fits dt →
    P h nanos passes → well (h.engine.step h.issuer now dt h.source).ended →
      (h.engine.step h.issuer now dt h.source).ended = .done ∧
        P (h.perform (.step now dt)) (nanos + dt.nanos)
          (passes + (h.engine.step h.issuer now dt h.source).passes)

namespace Timed

variable {P : Host σ α → Nat → Nat → Prop} {fits : Span → Prop} {well : StepEnd → Prop}
  {h : Host σ α} {nanos passes : Nat}

/-- Induction on the times of one call. -/
theorem through (t : Timed P fits well) {period : Span} (length : fits period) (clock : List Time)
    {s : Engine.Stepped σ α} (done : s.ended = .done) (hP : P (h.took s) nanos (passes + s.passes))
    (ends : well (s.through h.issuer period clock).ended) :
    (s.through h.issuer period clock).ended = .done ∧
      P (h.took (s.through h.issuer period clock)) (nanos + clock.length * period.nanos)
        (passes + (s.through h.issuer period clock).passes) := by
  induction clock generalizing s nanos with
  | nil =>
    rw [List.length_nil, Nat.zero_mul, Nat.add_zero]
    exact ⟨done, hP⟩
  | cons now clock ih =>
    have again : s.again h.issuer now period =
        { s.engine.step h.issuer now period s.source with
          committed := s.committed + (s.engine.step h.issuer now period s.source).committed
          passes := s.passes + (s.engine.step h.issuer now period s.source).passes } :=
      if_pos done
    have first : well (s.engine.step h.issuer now period s.source).ended := by
      by_cases first : (s.engine.step h.issuer now period s.source).ended = .done
      · exact first ▸ t.done
      · -- a step that is not done is the last one
        have last : (s.again h.issuer now period).ended ≠ .done := by rwa [again]
        have same : s.through h.issuer period (now :: clock) = s.again h.issuer now period :=
          Engine.Stepped.through_of_ended _ _ clock last
        rwa [same, again] at ends
    obtain ⟨ended, next⟩ := t.step now period length hP first
    rw [List.length_cons, Nat.succ_mul, Nat.add_comm (_ * _), ← Nat.add_assoc]
    refine ih (s := s.again h.issuer now period) ?_ ?_ ends
    · rw [again]
      exact ended
    · rw [again]
      rw [Nat.add_assoc] at next
      exact next

/-- An operation keeps `P`, with what it lasts and its passes added. -/
theorem perform (t : Timed P fits well) (o : Operation σ α)
    (period : fits h.engine.settings.tickPeriod) (length : ∀ now dt, o = .step now dt → fits dt)
    (hP : P h nanos passes) (ends : well (h.stepped o).ended) :
    (h.stepped o).ended = .done ∧
      P (h.perform o) (nanos + h.lasts o) (passes + (h.stepped o).passes) := by
  cases o with
  | step now dt => exact t.step now dt (length now dt rfl) hP ends
  | ticks clock => exact t.through period clock rfl hP ends
  | maintainDensity =>
    exact ⟨rfl, t.blind hP ((World.botKept_frame World.densityDebt (fun _ _ _ _ _ => rfl)
      h.engine.botRules _).maintainDensity _ rfl)⟩
  | _ => exact ⟨rfl, t.blind hP (h.frame_perform World.densityDebt (fun _ _ _ _ => rfl) _ rfl)⟩

/-- Induction on the operations. -/
theorem run (t : Timed P fits well) (os : List (Operation σ α))
    (period : fits h.engine.settings.tickPeriod) (lengths : ∀ now dt, .step now dt ∈ os → fits dt)
    (hP : P h nanos passes) (ends : ∀ ended ∈ h.ends os, well ended) :
    P (h.run os) (nanos + h.elapsed os) (passes + h.passed os) := by
  induction os generalizing h nanos passes with
  | nil => exact hP
  | cons o os ih =>
    obtain ⟨first, rest⟩ := List.forall_mem_cons.mp ends
    have length (now : Time) (dt : Span) (same : o = .step now dt) : fits dt :=
      lengths now dt (same ▸ List.mem_cons_self)
    rw [elapsed, passed, ← Nat.add_assoc, ← Nat.add_assoc]
    refine ih ?_ ?_ (t.perform o period length hP first).2 rest
    · rwa [h.settings_perform]
    · exact fun now dt listed => lengths now dt (List.mem_cons_of_mem o listed)

end Timed

end Host

end CellWorld
