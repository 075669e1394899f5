import CellWorld.Handover.Border
import CellWorld.Territory
import CellWorld.Transfer.Basic
import CellWorld.World

/-!
# Changing cells

Once a step every player is looked at, in the order of ids. A player that is far enough past the
border of its cell changes to the cell under it, and if another node owns that cell, the move to
that node is started.

* `HandoverRules` — what a pass reads and never changes; `now` is the time of the step
* `TransferRecord.expire r now` — `r` failed, if it waits and `r.startedAt + 30 s < now`
* `TransferRecord.answered r reply` — `r` completed or failed, as the other node has answered
* `Player.due?` — the cell that a player is due to change to
* `Player.depart` — the route of the change, and the record of the move to another node
* `Player.evaluate`, `World.evaluate` — one player, and all of them

Tokens come from an `Issuer`, which is a parameter: it may fail, it keeps a state of its own, and it
dates a token by a clock of its own. A pass reads one territory; a cell that is given away while the
pass runs is seen by the next one.
-/

namespace CellWorld

structure HandoverRules (α : Type) where
  cellSize : α
  hysteresis : α
  territory : Territory
  now : Time

namespace TransferRecord

/-- Whether `r` waits for an answer and is older than a token can be. -/
def stale (r : TransferRecord) (now : Time) : Bool :=
  r.inFlight && (now.since? r.startedAt).any fun age => decide (Grant.lifetime.nanos < age.nanos)

/-- The record `r`, failed if it is stale. -/
def expire (r : TransferRecord) (now : Time) : TransferRecord :=
  if r.stale now then { r with status := .failed, error := some "expired" } else r

def answered (r : TransferRecord) (reply : Reply) : TransferRecord :=
  if reply.success then { r with status := .completed }
  else { r with status := .failed, error := some reply.error }

theorem not_stale_expire (r : TransferRecord) (now : Time) : (r.expire now).stale now = false := by
  unfold expire
  split
  · simp [stale, inFlight]
  · simp_all

end TransferRecord

namespace Player

variable {α σ : Type}

/-- The player after its stale move has failed. -/
def settle (p : Player α) (now : Time) : Player α :=
  { p with transfer := p.transfer.map fun r => r.expire now }

def inFlight (p : Player α) : Bool := p.transfer.any TransferRecord.inFlight

/-- The cell under the player, none while it owns the player or the player is not far enough past
the border. -/
def due? [Scalar α] (rules : HandoverRules α) (p : Player α) : Option Cell :=
  let target := Cell.containing p.pos rules.cellSize
  if target = p.ownedCell then none
  else if leftBeyond p.pos p.ownedCell target rules.cellSize
      (marginToward target p.prevCell rules.hysteresis) then some target
  else none

/-- The record of a move to another node, as it stands after a token was asked for. -/
def begun (p : Player α) (owner : String) (target : Cell) (now : Time) :
    Except Fault String → TransferRecord
  | .ok token =>
    { target := owner, fromCell := p.ownedCell, toCell := target, status := .inProgress
      startedAt := now, token := some token, error := none }
  | .error fault =>
    { target := owner, fromCell := p.ownedCell, toCell := target, status := .failed
      startedAt := now, token := none, error := some fault.message }

/-- The route of a change of cells to `target`, and the record of the player's move to another node
after it. While a move is in flight no other one is started. -/
def depart (rules : HandoverRules α) (issuer : Option (Issuer σ α)) (p : Player α) (target : Cell)
    (source : σ) : Route × Option TransferRecord × σ :=
  let owner := rules.territory.owner target
  if owner = rules.territory.localId then (.onNode, p.transfer, source)
  else match issuer, p.transfer.filter TransferRecord.inFlight with
    | none, _ => (.fallback owner, p.transfer, source)
    | some _, some r => (.crossNode owner r.status, p.transfer, source)
    | some issue, none =>
      let (token, source) := issue p.payload owner target source
      let r := p.begun owner target rules.now token
      (.crossNode owner r.status, some r, source)

/-- What became of a player that was looked at: the player, and the cell that it left with the route
of the change if it changed cells. -/
structure Evaluated (α : Type) where
  player : Player α
  left : Option (Cell × Route)

variable [Scalar α]

/-- Looks at one player. A stale move fails whether or not the player changes cells, and before it
is asked whether one is in flight. -/
def evaluate (rules : HandoverRules α) (issuer : Option (Issuer σ α)) (p : Player α) (source : σ) :
    Evaluated α × σ :=
  let p := p.settle rules.now
  match p.due? rules with
  | none => (⟨p, none⟩, source)
  | some target =>
    let (route, transfer, source) := p.depart rules issuer target source
    let q := { p with
      ownedCell := target, prevCell := some p.ownedCell, handedOver := true, transfer }
    (⟨q, some (p.ownedCell, route)⟩, source)

end Player

namespace World

variable {α σ : Type}

structure HandoverPass (σ α : Type) where
  world : World α
  /-- What the minting of tokens has made of its source. -/
  source : σ
  /-- How many players have changed cells. -/
  committed : Nat

/-- The world with what became of a player. -/
def settlePlayer (w : World α) (id : String) (e : Player.Evaluated α) : World α :=
  match e.left with
  | none => { w with players := w.players.insert id e.player }
  | some (source, route) =>
    (w.commit id source e.player).record
      { player := id, source, target := e.player.ownedCell, tick := w.tick, route }

variable [Scalar α]

def visitPlayer (rules : HandoverRules α) (issuer : Option (Issuer σ α)) (pass : HandoverPass σ α)
    (id : String) : HandoverPass σ α :=
  match pass.world.players[id]? with
  | none => pass
  | some p =>
    let (e, source) := p.evaluate rules issuer pass.source
    { world := pass.world.settlePlayer id e
      source
      committed := if e.left.isSome then pass.committed + 1 else pass.committed }

/-- Looks at every player, in the order of ids. -/
def evaluate (rules : HandoverRules α) (issuer : Option (Issuer σ α)) (w : World α) (source : σ) :
    HandoverPass σ α :=
  w.players.keys.foldl (visitPlayer rules issuer) ⟨w, source, 0⟩

end World

end CellWorld
