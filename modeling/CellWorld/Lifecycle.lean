import CellWorld.Ticker

/-!
# Starting and stopping

A node's loop is started at most once and never again after a stop. Starts and stops may overlap, so
each is a sequence of single accesses to what they share.

* `Lifecycle` — the flags `running` and `stopped`, the loops that were spawned, and the one that a
  stop finds
* `Call` — where a start or a stop stands; `Call.step` — its next access
* `Call.left` — at most this many accesses are left, and `Call.left_step` — each takes one away
* `Call.stopped_step` — nothing takes the stopped flag back
* `Lifecycle.start`, `Lifecycle.stop` — a call that nothing overlaps

Every access is atomic and sees all earlier ones. What any number of overlapping calls can lead to
is in `Proofs.Races`.
-/

namespace CellWorld

/-- What starts and stops share. -/
structure Lifecycle where
  running : Bool := false
  stopped : Bool := false
  /-- Every loop that was spawned, in order. -/
  loops : List Ticker := []
  /-- The loop that a stop finds, by its place in the list. -/
  published : Option Nat := none
deriving DecidableEq

/-- Where a start or a stop stands, by its next access. -/
inductive Call where
  /-- A start reads whether the node was stopped. -/
  | begin
  /-- A start sets the running flag and looks at what it was. -/
  | claim
  | spawn
  /-- A start makes its loop the one that a stop finds, unless there is one already. -/
  | publish (loop : Nat)
  /-- A start reads once more whether the node was stopped. -/
  | recheck (loop : Nat)
  /-- A start asks the loop to end, because a stop may have missed it. -/
  | retract (loop : Nat)
  /-- A start that could not spawn its loop clears the running flag. -/
  | giveUp
  /-- A stop sets the stopped flag and looks at what it was. -/
  | halt
  /-- A stop looks for the loop. -/
  | find (first : Bool)
  /-- The first stop asks the loop to end. -/
  | ask (loop : Nat)
  /-- The first stop waits for the loop to end. -/
  | await (loop : Nat)
  /-- A later stop looks whether the loop has ended. -/
  | look (loop : Nat)
  /-- The call is over; a stop says whether no loop runs any more. -/
  | returned (answer : Option Bool)
deriving DecidableEq

/-- What a call cannot decide: whether a loop can be spawned, and whether one that was asked to end
does so in time. -/
structure Surroundings where
  spawns : Bool := true
  inTime : Bool := true

namespace Lifecycle

def isRunning (l : Lifecycle) : Bool := l.running && !l.stopped

def onLoop (l : Lifecycle) (loop : Nat) (f : Ticker → Ticker) : Lifecycle :=
  { l with loops := l.loops.modify loop f }

def askLoop (l : Lifecycle) (loop : Nat) : Lifecycle :=
  l.onLoop loop fun t => { t with stopping := true }

/-- Whether a loop has ended; one that was never spawned counts as ended. -/
def ended (l : Lifecycle) (loop : Nat) : Bool := (l.loops[loop]?).all Ticker.finished

end Lifecycle

namespace Call

/-- The next access of a call; a loop that is spawned starts as `fresh`. -/
def step (around : Surroundings) (fresh : Ticker) (l : Lifecycle) : Call → Call × Lifecycle
  | begin => (if l.stopped then returned none else claim, l)
  | claim => (if l.running then returned none else spawn, { l with running := true })
  | spawn =>
    if around.spawns then (publish l.loops.length, { l with loops := l.loops ++ [fresh] })
    else (giveUp, l)
  | publish loop =>
    match l.published with
    | none => (recheck loop, { l with published := some loop })
    | some found => (recheck found, l.askLoop loop)
  | recheck loop => (if l.stopped then retract loop else returned none, l)
  | retract loop => (returned none, l.askLoop loop)
  | giveUp => (returned none, { l with running := false })
  | halt => (find (!l.stopped), { l with stopped := true })
  | find first =>
    match l.published with
    | none => (returned (some true), l)
    | some loop => (if first then ask loop else look loop, l)
  | ask loop => (await loop, l.askLoop loop)
  | await loop =>
    let l := l.onLoop loop fun t => (t.cancel around.inTime).2
    (returned (some (l.ended loop)), l)
  | look loop => (returned (some (l.ended loop)), l)
  | returned answer => (returned answer, l)

def left : Call → Nat
  | begin => 6
  | claim => 5
  | spawn => 4
  | publish _ => 3
  | recheck _ => 2
  | retract _ => 1
  | giveUp => 1
  | halt => 4
  | find _ => 3
  | ask _ => 2
  | await _ => 1
  | look _ => 1
  | returned _ => 0

theorem left_step (around : Surroundings) (fresh : Ticker) (l : Lifecycle) (c : Call) :
    (step around fresh l c).1.left ≤ c.left - 1 := by
  cases c <;> simp only [step] <;> (try split) <;> (try split) <;> simp [left]

def answer : Call → Option Bool
  | returned answer => answer
  | _ => none

/-- A call that nothing overlaps, `n` accesses long. -/
def run (around : Surroundings) (fresh : Ticker) : Nat → Call × Lifecycle → Call × Lifecycle
  | 0, s => s
  | n + 1, (c, l) => run around fresh n (step around fresh l c)

theorem left_run (around : Surroundings) (fresh : Ticker) (n : Nat) (c : Call) (l : Lifecycle) :
    (run around fresh n (c, l)).1.left ≤ c.left - n := by
  induction n generalizing c l with
  | zero => simp [run]
  | succ n ih =>
    have h := left_step around fresh l c
    refine Nat.le_trans (ih (step around fresh l c).1 (step around fresh l c).2) ?_
    omega

/-- Nothing takes the stopped flag back. -/
theorem stopped_step (around : Surroundings) (fresh : Ticker) (l : Lifecycle) (c : Call)
    (h : l.stopped = true) : (step around fresh l c).2.stopped = true := by
  cases c <;> simp only [step] <;> (try split) <;> exact h

theorem stopped_run (around : Surroundings) (fresh : Ticker) (n : Nat) (c : Call) (l : Lifecycle)
    (h : l.stopped = true) : (run around fresh n (c, l)).2.stopped = true := by
  induction n generalizing c l with
  | zero => exact h
  | succ n ih => exact ih _ _ (stopped_step around fresh l c h)

end Call

namespace Lifecycle

/-- A stop spawns no loop; this one stands in. -/
def idle : Ticker := { name := "", period := ⟨0⟩ }

/-- Starts the loop, unless it was started or stopped before. -/
def start (l : Lifecycle) (around : Surroundings) (fresh : Ticker) : Lifecycle :=
  (Call.run around fresh Call.begin.left (.begin, l)).2

/-- Stops the loop, and says whether no loop runs any more. -/
def stop (l : Lifecycle) (around : Surroundings) : Bool × Lifecycle :=
  let (c, l) := Call.run around idle Call.halt.left (.halt, l)
  (c.answer.getD true, l)

theorem stopped_stop (l : Lifecycle) (around : Surroundings) : (l.stop around).2.stopped = true :=
  Call.stopped_run around idle 3 (.find (!l.stopped)) { l with stopped := true } rfl

theorem not_isRunning_stop (l : Lifecycle) (around : Surroundings) :
    (l.stop around).2.isRunning = false := by
  simp [isRunning, stopped_stop]

end Lifecycle

end CellWorld
