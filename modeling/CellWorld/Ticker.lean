import CellWorld.Clock

/-!
# Work that repeats

* `Ticker` — a named piece of work that runs once a period until it is cancelled or ends by itself
* `Ticker.named?` — a ticker that has not run yet, none when it cannot be given its name
* `Ticker.fire t outcome` — one period
* `Ticker.fireUntil work fuel` — periods until the work ends, at most `fuel` of them
* `Ticker.cancel t inTime` — asks it to end, and says whether it has

A ticker has a period and no clock: when its periods begin, and how long a run takes, is left to
whoever runs it. `inTime` stands for what a wait with a deadline finds out.
-/

namespace CellWorld

inductive RunEnd where
  | again
  /-- The work has nothing left to do. -/
  | enough
  /-- The work has broken down. -/
  | broken
deriving DecidableEq

/-- Work that runs once a period. It can be asked to end, and it can have ended. -/
structure Ticker where
  name : String
  period : Span
  /-- How often the work was run. -/
  runs : Nat := 0
  /-- Asked to end. -/
  stopping : Bool := false
  /-- Ended; nothing runs any more. -/
  finished : Bool := false
deriving DecidableEq

namespace Ticker

/-- A ticker that has not run yet. Names end at the first null character where they are kept, so a
name that holds one can be given to no ticker. -/
def named? (name : String) (period : Span) : Option Ticker :=
  if '\x00' ∈ name.toList then none else some { name, period }

theorem named?_eq_none_iff (name : String) (period : Span) :
    named? name period = none ↔ '\x00' ∈ name.toList := by
  simp [named?]

theorem eq_of_named? (name : String) (period : Span) (t : Ticker)
    (h : named? name period = some t) : t = { name, period } := by
  unfold named? at h
  split at h
  · simp at h
  · exact (Option.some.inj h).symm

/-- One period. A ticker that was asked to end does so instead of running. -/
def fire (t : Ticker) (outcome : RunEnd) : Ticker :=
  if t.finished then t
  else if t.stopping then { t with finished := true }
  else { t with runs := t.runs + 1, finished := outcome != .again }

/-- Periods until the work has ended, at most `fuel` of them; the outcome of a run depends on its
number, counted from one. -/
def fireUntil (work : Nat → RunEnd) : Nat → Ticker → Ticker
  | 0, t => t
  | fuel + 1, t => if t.finished then t else fireUntil work fuel (t.fire (work (t.runs + 1)))

/-- Asks the ticker to end and waits; `inTime` is whether it ends before the waiting does. -/
def cancel (t : Ticker) (inTime : Bool) : Bool × Ticker :=
  let finished := t.finished || inTime
  (finished, { t with stopping := true, finished })

theorem fire_finished (t : Ticker) (outcome : RunEnd) (h : t.finished = true) :
    t.fire outcome = t := by
  simp [fire, h]

theorem runs_cancel (t : Ticker) (inTime : Bool) : (t.cancel inTime).2.runs = t.runs := rfl

theorem cancel_cancel (t : Ticker) (a b : Bool) :
    ((t.cancel a).2.cancel b).1 = (t.finished || a || b) := rfl

end Ticker

end CellWorld
