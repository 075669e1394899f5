import CellWorld.Cell.Basic
import CellWorld.Clock
import CellWorld.Json.Basic

/-!
# Who is in the world

* `Entity` — what players and bots have in common
* `Loadout` — what a player carries and can do
* `TransferRecord` — a player's move to another node: `inProgress`, then `completed` or `failed`
* `Player`, `Bot` — the two kinds of entity, each with the cell that owns it

Whether `ownedCell` is the cell the entity is counted in is a matter of the world, not of the
record. The time at which a player last changed cells is not kept: `handedOver` says whether it ever
did, and no operation asks for more.
-/

namespace CellWorld

inductive EntityKind where
  | player
  | bot
deriving DecidableEq

namespace EntityKind

def names : List (String × EntityKind) := [("player", .player), ("bot", .bot)]

def text : EntityKind → String
  | .player => "player"
  | .bot => "bot"

end EntityKind

/-- What players and bots have in common. -/
structure Entity (α : Type) where
  id : String
  kind : EntityKind
  pos : Point α
  vel : Point α
  /-- The direction faced, an angle around the vertical axis. -/
  yaw : α
  name : String

/-- What a player carries and can do. Sections other than the skills keep the form they came in. -/
structure Loadout where
  inventory : Option Json := none
  equipment : Option Json := none
  /-- Skills by name, in the order of names. -/
  skills : List (String × Int64) := []
  cooldowns : Option Json := none
  encumbrance : Option Json := none

inductive TransferStatus where
  | inProgress
  | completed
  | failed
deriving DecidableEq

namespace TransferStatus

def names : List (String × TransferStatus) :=
  [("in_progress", .inProgress), ("completed", .completed), ("failed", .failed)]

def text : TransferStatus → String
  | .inProgress => "in_progress"
  | .completed => "completed"
  | .failed => "failed"

theorem lookup_text (s : TransferStatus) : names.lookup s.text = some s := by
  cases s <;> decide

end TransferStatus

/-- A player's move to another node, from the step that starts it on. -/
structure TransferRecord where
  target : String
  fromCell : Cell
  toCell : Cell
  status : TransferStatus
  startedAt : Time
  /-- The token that the other node has to be shown; none if none could be made. -/
  token : Option String
  /-- Why the move failed. -/
  error : Option String
deriving DecidableEq

namespace TransferRecord

def inFlight (r : TransferRecord) : Bool := r.status == .inProgress

end TransferRecord

/-- An entity that somebody plays. -/
structure Player (α : Type) extends Entity α where
  /-- The cell that owns the player; it follows the position with a lag. -/
  ownedCell : Cell
  /-- The cell owned before the last change. -/
  prevCell : Option Cell := none
  /-- Whether the player ever changed cells on its own. -/
  handedOver : Bool := false
  transfer : Option TransferRecord := none
  connection : Option String := none
  /-- The highest input number that was acknowledged. -/
  lastSeq : UInt64 := 0
  loadout : Loadout := {}

/-- An entity that fills a cell. -/
structure Bot (α : Type) extends Entity α where
  /-- The cell that the bot was placed in and never leaves. -/
  ownedCell : Cell
  /-- The direction of travel, of unit length. -/
  heading : Point α
  /-- Seconds until the next change of direction. -/
  retargetIn : α

end CellWorld
