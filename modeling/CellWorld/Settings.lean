import CellWorld.Clock
import CellWorld.Number.Decimal
import CellWorld.Text.Blank
import CellWorld.Text.Quoted

/-!
# Settings of a node

* `Settings` — the settings, fixed once the node runs
* `Settings.check` — the first setting that is out of range, in the order of the checks;
  `Settings.check_eq_ok_iff` — there is none exactly when all six conditions hold
* `SettingsError.message` — what is said about it
* `Settings.tickPeriod`, `Settings.snapshotPeriod` — the periods of the two rates
* `Settings.keepsBots` — `0 < targetDensity` and `0 ≤ maxBots`

A node can be made without the check, so what is proved of a run holds of all settings unless it
says otherwise. The check bounds no rate from above and no cell from above or below; what follows
from that is in `Proofs.Periods` and `Proofs.Room`.
-/

namespace CellWorld

/-- How a client follows its player to another node. A tunnel is accepted and treated as a
reconnect. -/
inductive FollowMode where
  | reconnect
  | tunnel
deriving DecidableEq

inductive SettingsError (α : Type) where
  | cellSize (got : α)
  | aoiRadius (got : α)
  | tickRate (got : UInt32)
  | snapshotRate (got : UInt32)
  | hysteresis (got : α)
  | emptyNodeId
  | unknownMode (got : String)

namespace FollowMode

def names : List (String × FollowMode) := [("reconnect", .reconnect), ("tunnel", .tunnel)]

def text : FollowMode → String
  | .reconnect => "reconnect"
  | .tunnel => "tunnel"

def ofText {α : Type} (s : String) : Except (SettingsError α) FollowMode :=
  match names.lookup s with
  | some m => .ok m
  | none => .error (.unknownMode s)

theorem lookup_text (m : FollowMode) : names.lookup m.text = some m := by
  cases m <;> decide

end FollowMode

/-- Numbers in messages have the fewest digits, always positionally, and no point when whole. -/
def messageStyle : Number.Style where
  plainFrom := none
  plainBelow := none
  pointZero := false
  undefined := "NaN"
  infinite := "inf"
  tie := .up

def messageNumber (x : Float) : String := String.ofList (messageStyle.text x)

def SettingsError.message : SettingsError Float → String
  | .cellSize x => "cell size must be > 0, got " ++ messageNumber x
  | .aoiRadius x => "AOI radius must be >= 0, got " ++ messageNumber x
  | .tickRate n => "tick rate must be >= 1 Hz, got " ++ String.ofList (Nat.toDigits 10 n.toNat)
  | .snapshotRate n =>
    "snapshot rate must be >= 1 Hz, got " ++ String.ofList (Nat.toDigits 10 n.toNat)
  | .hysteresis x => "handover hysteresis must be >= 0, got " ++ messageNumber x
  | .emptyNodeId => "node id must not be empty"
  | .unknownMode s =>
    "unknown handover mode " ++ Text.quoted s ++ " (expected \"reconnect\" or \"tunnel\")"

structure Settings (α : Type) where
  /-- Edge length of a cell in metres. -/
  cellSize : α
  /-- Radius of interest handed to clients, in metres. -/
  aoiRadius : α
  tickHz : UInt32
  snapshotHz : UInt32
  /-- How far past a border a player has to be before it changes cells, in metres. -/
  hysteresis : α
  /-- Wanted players and bots in an occupied cell; zero means no bots. -/
  targetDensity : UInt32
  /-- Most bots in the world; a negative number means no bots. -/
  maxBots : Int64
  nodeId : String
  mode : FollowMode
  /-- Where the random numbers start, left to chance if absent. -/
  seed : Option UInt64
  /-- Whether every snapshot is logged. -/
  debugSnapshot : Bool

namespace Settings

variable {α : Type} [Scalar α]

/-- The settings of a node that says nothing about them. -/
def standard : Settings α where
  cellSize := 256.0
  aoiRadius := 128.0
  tickHz := 20
  snapshotHz := 10
  hysteresis := 2.0
  targetDensity := 3
  maxBots := 100
  nodeId := "local"
  mode := .reconnect
  seed := none
  debugSnapshot := false

/-- Refuses the first setting that is out of range. -/
def check (s : Settings α) : Except (SettingsError α) Unit :=
  if ¬ ((0.0 : α) < s.cellSize ∧ Scalar.isFinite s.cellSize) then .error (.cellSize s.cellSize)
  else if ¬ ((0.0 : α) ≤ s.aoiRadius ∧ Scalar.isFinite s.aoiRadius) then
    .error (.aoiRadius s.aoiRadius)
  else if s.tickHz < 1 then .error (.tickRate s.tickHz)
  else if s.snapshotHz < 1 then .error (.snapshotRate s.snapshotHz)
  else if ¬ ((0.0 : α) ≤ s.hysteresis ∧ Scalar.isFinite s.hysteresis) then
    .error (.hysteresis s.hysteresis)
  else if Text.isBlankText s.nodeId then .error .emptyNodeId
  else .ok ()

/-- Settings are accepted exactly when every one of them is in its range. -/
theorem check_eq_ok_iff (s : Settings α) :
    s.check = .ok () ↔
      ((0.0 : α) < s.cellSize ∧ Scalar.isFinite s.cellSize) ∧
      ((0.0 : α) ≤ s.aoiRadius ∧ Scalar.isFinite s.aoiRadius) ∧
      ¬ s.tickHz < 1 ∧ ¬ s.snapshotHz < 1 ∧
      ((0.0 : α) ≤ s.hysteresis ∧ Scalar.isFinite s.hysteresis) ∧
      ¬ Text.isBlankText s.nodeId := by
  unfold check
  repeat' split
  all_goals simp_all

def tickPeriod (s : Settings α) : Span := Span.ofRate s.tickHz

def snapshotPeriod (s : Settings α) : Span := Span.ofRate s.snapshotHz

/-- Bots are kept when they are wanted and allowed. -/
def keepsBots (s : Settings α) : Bool := decide (0 < s.targetDensity) && decide (0 ≤ s.maxBots)

end Settings

end CellWorld
