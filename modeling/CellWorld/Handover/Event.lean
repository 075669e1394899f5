import CellWorld.Entity

/-!
# What is recorded of a change of cells

* `Route` — where the new cell is, seen from this node
* `HandoverEvent` — the change of a player from `source` to `target` at a tick

An event is made by the pass and never changed; a move to another node goes on in the player's
`TransferRecord`, and no event tells how it ends.
-/

namespace CellWorld

/-- Where the new cell is, seen from this node. -/
inductive Route where
  /-- This node owns it. -/
  | onNode
  /-- Another node owns it, and this one has no way to send the player there. -/
  | fallback (owner : String)
  /-- Another node owns it, and the player's move there has come this far. -/
  | crossNode (target : String) (status : TransferStatus)
deriving DecidableEq

structure HandoverEvent where
  player : String
  source : Cell
  target : Cell
  tick : Nat
  route : Route
deriving DecidableEq

end CellWorld
