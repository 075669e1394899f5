import Std.Data.TreeMap
import CellWorld.Cell.Occupancy
import CellWorld.Entity
import CellWorld.Handover.Event
import CellWorld.Random

/-!
# The world of a node

Players and bots are kept by id; which cell they are in is kept beside them in `cells`, by id alone.
Every operation changes both.

* `World.commit w id source p` — a changed player, and `id` moved from `source` to `p.ownedCell`
* `World.upsert`, `World.place?`, `World.remove?` — how players come, jump and go
* `World.integrate w dt` — every player at `pos + vel · dt`, in the cell it was in
* `World.record`, `World.drain` — the last `eventCapacity` changes of cells
* `World.population`, `World.entity?`, `World.entities` — the readers

Nothing here keeps a player from having the id of a bot: the two maps are apart, and `cells` has one
entry for both. That the index agrees with the records as long as this does not happen is in
`Proofs.Membership`.
-/

namespace CellWorld

/-- Everything that a step changes. -/
structure World (α : Type) where
  players : Std.TreeMap String (Player α) := {}
  bots : Std.TreeMap String (Bot α) := {}
  cells : Occupancy := {}
  random : Random
  /-- One more with every step, so below `2 ^ 64` in every run of fewer than `2 ^ 64` steps. -/
  tick : Nat := 0
  /-- How many bots were ever named, below `2 ^ 64` in every run that names fewer bots. -/
  botsNamed : Nat := 0
  /-- Simulated seconds that no density pass has accounted for. -/
  densityDebt : α
  /-- The changes of cells that nobody took yet, the last one first. -/
  events : List HandoverEvent := []

namespace World

variable {α : Type}

/-! ### Players -/

/-- Puts the changed player `p` in the place of the one with its id, and moves it from `source`, the
cell that owned it, to the one that owns it now. -/
def commit (w : World α) (id : String) (source : Cell) (p : Player α) : World α :=
  { w with
    players := w.players.insert id p
    cells := w.cells.move id source p.ownedCell }

/-- Applies to a player a change that leaves its cell alone, none if there is no such player. -/
def amend? (w : World α) (id : String) (f : Player α → Player α) : Option (World α) :=
  w.players[id]?.map fun p => { w with players := w.players.insert id (f p) }

/-- The world without the player of `id`, none if there is no such player. -/
def remove? (w : World α) (id : String) : Option (World α) :=
  w.players[id]?.map fun p =>
    { w with players := w.players.erase id, cells := (w.cells.remove p.ownedCell id).1 }

section Placing

variable [Scalar α]

def empty (random : Random) : World α := { random, densityDebt := 0.0 }

/-- A player that has just come in: it faces east, is tied to no connection and has no history. -/
def newPlayer (id name : String) (pos vel : Point α) (cell : Cell) : Player α :=
  { id, kind := .player, pos, vel, yaw := 0.0, name, ownedCell := cell }

/-- A player that comes in, or jumps to another place with another name and velocity. The cell at
that place owns it at once, and `prevCell` stays as it was. -/
def upsert (w : World α) (id name : String) (pos vel : Point α) (size : α) : Player α × World α :=
  let cell := Cell.containing pos size
  match w.players[id]? with
  | some old =>
    let p := { old with name, pos, vel, ownedCell := cell }
    (p, w.commit id old.ownedCell p)
  | none =>
    let p := newPlayer id name pos vel cell
    (p, { w with players := w.players.insert id p, cells := w.cells.insert cell id })

/-- A player that jumps to another place, none if there is no such player. -/
def place? (w : World α) (id : String) (pos : Point α) (size : α) : Option (World α) :=
  w.players[id]?.map fun old =>
    w.commit id old.ownedCell { old with pos, ownedCell := Cell.containing pos size }

/-- Every player where its velocity has taken it. No player changes cells by this. -/
def integrate (w : World α) (dt : α) : World α :=
  { w with players := w.players.map fun _ p => { p with pos := p.pos.advance p.vel dt } }

end Placing

/-! ### Events -/

/-- How many events are kept for whoever takes them. -/
def eventCapacity : Nat := 1024

/-- One event more; the oldest makes room. -/
def record (w : World α) (e : HandoverEvent) : World α :=
  { w with events := (e :: w.events).take eventCapacity }

/-- Takes all events, the oldest first. -/
def drain (w : World α) : List HandoverEvent × World α :=
  (w.events.reverse, { w with events := [] })

/-! ### Readers -/

/-- The entity of an id; a player hides a bot of the same id. -/
def entity? (w : World α) (id : String) : Option (Entity α) :=
  match w.players[id]? with
  | some p => some p.toEntity
  | none => w.bots[id]?.map Bot.toEntity

structure Population where
  players : Nat := 0
  bots : Nat := 0
deriving DecidableEq

def Population.total (p : Population) : Nat := p.players + p.bots

/-- How many players and how many bots are in `c`. An id of both kinds counts as a player. -/
def population (w : World α) (c : Cell) : Population :=
  (w.cells.bucket c).foldl (fun count id =>
    if w.players.contains id then { count with players := count.players + 1 }
    else if w.bots.contains id then { count with bots := count.bots + 1 }
    else count) {}

/-- Everybody, players first, each kind in the order of ids. -/
def entities (w : World α) : List (Entity α) :=
  w.players.values.map Player.toEntity ++ w.bots.values.map Bot.toEntity

end World

end CellWorld
