import CellWorld.Bots.Wander
import CellWorld.Handover.Pass
import CellWorld.Lifecycle
import CellWorld.Metrics
import CellWorld.Restore
import CellWorld.Settings

/-!
# The simulation of a node

* `Engine` — the world with the settings it runs under, the territory, the counters and the loop
* `Engine.create`, `Engine.checked?` — a new one, without and with a check of its settings
* `Engine.step e issuer now dt source` — players move, players change cells, bots move, and the
  density passes that are due are run, in this order
* `World.catchUp` — one pass for every whole second of `densityDebt + dt`; `StepEnd` says whether it
  came to an end
* `Engine.interest pos radius exclude` — the entities `x` of the block of cells around `pos` with
  `x.pos.dist2 pos ≤ radius² + 1e-9`
* `Engine.receive`, `Engine.resolve`, `Engine.restore` — what other nodes and earlier sessions bring
* `Engine.beat` — what the loop does once a period

Every operation is a function of the whole simulation, as if nobody else used it meanwhile; only
starts and stops overlap, in `Lifecycle`. A step that ends early keeps what it has done.
-/

namespace CellWorld

structure Summary where
  tick : Nat
  players : Nat
  bots : Nat
  cells : Nat
deriving DecidableEq

/-- A simulation: the world, the settings it runs under, and what is known and counted beside it. -/
structure Engine (α : Type) where
  settings : Settings α
  world : World α
  territory : Territory
  metrics : Metrics := {}
  lastSummary : Option Summary := none
  lifecycle : Lifecycle := {}

/-! ### Catching up with the density passes -/

inductive StepEnd where
  | done
  /-- A bot has found no room, and what was left of the step did not happen. -/
  | noRoom
  /-- The time to account for is so long that a pass no longer shortens it. -/
  | endless
deriving DecidableEq

/-- The world after the density passes that were due. -/
structure CaughtUp (α : Type) where
  world : World α
  passes : Nat
  ended : StepEnd

namespace World

variable {α : Type} [Angular α]

/-- Runs a density pass for every second of the debt, at most `fuel` of them. -/
def payDebt (rules : BotRules α) : (fuel : Nat) → (passes : Nat) → World α → CaughtUp α
  | 0, passes, w => ⟨w, passes, if (1.0 : α) ≤ w.densityDebt then .endless else .done⟩
  | fuel + 1, passes, w =>
    if (1.0 : α) ≤ w.densityDebt then
      let pass := { w with densityDebt := w.densityDebt - 1.0 }.maintainDensity rules
      if pass.stuck then ⟨pass.world, passes + 1, .noRoom⟩
      else payDebt rules fuel (passes + 1) pass.world
    else ⟨w, passes, .done⟩

/-- Adds `dt` to the debt and pays it. Every pass shortens a debt by a second, unless it is too long
to be shortened, so its whole seconds are passes enough. -/
def catchUp (rules : BotRules α) (w : World α) (dt : α) : CaughtUp α :=
  let debt := w.densityDebt + dt
  payDebt rules (Scalar.floorNat debt) 0 { w with densityDebt := debt }

end World

namespace Engine

section Setup

variable {α : Type} [Scalar α]

/-- A node without anybody in it. Its random numbers start at the seed of the settings, or at
`chance`. -/
def create (settings : Settings α) (chance : Random) : Engine α where
  settings
  world := .empty ((settings.seed.map Random.ofSeed).getD chance)
  territory := { localId := settings.nodeId }

def checked? (settings : Settings α) (chance : Random) : Except (SettingsError α) (Engine α) :=
  settings.check.map fun _ => create settings chance

end Setup

variable {α σ : Type}

/-! ### Steps -/

section Stepping

variable [Angular α]

def botRules (e : Engine α) : BotRules α where
  cellSize := e.settings.cellSize
  target := e.settings.targetDensity.toNat
  cap := e.settings.maxBots.toInt

def handoverRules (e : Engine α) (now : Time) : HandoverRules α where
  cellSize := e.settings.cellSize
  hysteresis := e.settings.hysteresis
  territory := e.territory
  now

/-- What a step has made of the simulation, and what it has done. -/
structure Stepped (σ α : Type) where
  engine : Engine α
  /-- What the minting of tokens has made of its source. -/
  source : σ
  /-- How many players have changed cells. -/
  committed : Nat
  /-- How many density passes were run. -/
  passes : Nat
  ended : StepEnd

/-- One step of time: players move and change cells, bots move, and bots are added and taken away
once a second. Tokens are minted by `issuer`, which need not date them at `now`. -/
def step (e : Engine α) (issuer : Option (Issuer σ α)) (now : Time) (dt : Span) (source : σ) :
    Stepped σ α :=
  let seconds : α := dt.seconds
  let w := { e.world with tick := e.world.tick + 1 }.integrate seconds
  let pass := w.evaluate (e.handoverRules now) issuer source
  let caught := (pass.world.wander e.settings.cellSize seconds).catchUp e.botRules seconds
  { engine := { e with
      world := caught.world, metrics := e.metrics.addHandovers pass.committed }
    source := pass.source
    committed := pass.committed
    passes := caught.passes
    ended := caught.ended }

/-- One step more, unless the last one ended early. -/
def Stepped.again (issuer : Option (Issuer σ α)) (now : Time) (dt : Span) (s : Stepped σ α) :
    Stepped σ α :=
  if s.ended = .done then
    let t := s.engine.step issuer now dt s.source
    { t with committed := s.committed + t.committed, passes := s.passes + t.passes }
  else s

def Stepped.more (issuer : Option (Issuer σ α)) (now : Time) (dt : Span) :
    Nat → Stepped σ α → Stepped σ α
  | 0, s => s
  | n + 1, s => more issuer now dt n (s.again issuer now dt)

/-- Up to `n` steps of length `dt`, until one ends early. -/
def steps (e : Engine α) (issuer : Option (Issuer σ α)) (now : Time) (dt : Span) (n : Nat)
    (source : σ) : Stepped σ α :=
  Stepped.more issuer now dt n ⟨e, source, 0, 0, .done⟩

/-- One density pass out of turn. -/
def maintainDensity (e : Engine α) : World.DensityPass α × Engine α :=
  let pass := e.world.maintainDensity e.botRules
  (pass, { e with world := pass.world })

end Stepping

/-! ### Counts -/

def summary (e : Engine α) : Summary where
  tick := e.world.tick
  players := e.world.players.size
  bots := e.world.bots.size
  cells := e.world.cells.size

/-- Counts the world and keeps the counts. -/
def snapshot (e : Engine α) : Summary × Engine α :=
  (e.summary, { e with lastSummary := some e.summary })

/-! ### The loop -/

section Loop

variable [Angular α]

/-- What the loop does once a period: a step, and a snapshot when one is due. The result has the
time of the next snapshot. -/
def beat (e : Engine α) (issuer : Option (Issuer σ α)) (now : Time) (instant due : Time)
    (source : σ) : Stepped σ α × Time :=
  let s := e.step issuer now e.settings.tickPeriod source
  if s.ended = .done ∧ due ≤ instant then
    let next := due.after e.settings.snapshotPeriod
    let next := if next ≤ instant then instant.after e.settings.snapshotPeriod else next
    ({ s with engine := s.engine.snapshot.2 }, next)
  else (s, due)

end Loop

/-- Starts the loop, unless it was started or stopped before. -/
def start (e : Engine α) (around : Surroundings) : Engine α :=
  { e with lifecycle :=
      e.lifecycle.start around { name := "loop", period := e.settings.tickPeriod } }

/-- Stops the loop for good, and says whether it is known to have ended. -/
def stop (e : Engine α) (around : Surroundings) : Bool × Engine α :=
  let (ended, lifecycle) := e.lifecycle.stop around
  (ended, { e with lifecycle })

def isRunning (e : Engine α) : Bool := e.lifecycle.isRunning

/-! ### Players -/

/-- Applies a change of the world that may find nobody to apply to. -/
def attempt (e : Engine α) (w : Option (World α)) : Bool × Engine α :=
  match w with
  | some world => (true, { e with world })
  | none => (false, e)

section Players

variable [Scalar α]

/-- A player that comes in, or jumps to another place with another name and velocity. -/
def upsert (e : Engine α) (id name : String) (pos vel : Point α) : Player α × Engine α :=
  let (p, world) := e.world.upsert id name pos vel e.settings.cellSize
  (p, { e with world })

/-- A player that comes in and stands still. -/
def spawn (e : Engine α) (id name : String) (pos : Point α) : Player α × Engine α :=
  e.upsert id name pos .zero

def remove (e : Engine α) (id : String) : Bool × Engine α := e.attempt (e.world.remove? id)

def setVelocity (e : Engine α) (id : String) (vel : Point α) : Bool × Engine α :=
  e.attempt (e.world.amend? id fun p => { p with vel })

/-- Ties a player to a connection or to none, and says whether there is one. -/
def setConnection (e : Engine α) (id : String) (connection : Option String) : Bool × Engine α :=
  e.attempt (e.world.amend? id fun p => { p with connection })

/-- Acknowledges an input, unless a later one or the same was acknowledged before. -/
def acknowledge (e : Engine α) (id : String) (seq : UInt64) : Bool × Engine α :=
  match e.world.players[id]? with
  | some p =>
    if p.lastSeq < seq then e.attempt (e.world.amend? id fun p => { p with lastSeq := seq })
    else (false, e)
  | none => (false, e)

/-- Takes in a player from another node. Its previous cell is the one that owned it there, so that
going straight back is harder; the last input is that of the payload, whatever was acknowledged
here. -/
def receive (e : Engine α) (d : Payload α) : Player α × Engine α :=
  let (p, world) := e.world.upsert d.id d.name d.pos d.vel e.settings.cellSize
  let p := { p with
    yaw := d.yaw
    lastSeq := d.lastSeq
    prevCell := if d.ownedCell = p.ownedCell then none else some d.ownedCell
    transfer := none }
  (p, { e with world := { world with players := world.players.insert d.id p } })

/-- Applies a saved player to a live one. Nothing changes unless the whole of it is valid. -/
def restore (e : Engine α) (id : String) (saved : SavedPlayer α) (templates : List String) :
    Except RestoreError (Engine α) :=
  (e.world.restore id saved templates e.settings.cellSize).map fun world => { e with world }

end Players

/-- Records the answer of the other node, and says whether there was a move that waited for it. The
answer names no token, so it settles whichever move waits. -/
def resolve (e : Engine α) (id : String) (reply : Reply) : Bool × Engine α :=
  match e.world.players[id]? with
  | some p =>
    if p.inFlight then
      e.attempt (e.world.amend? id fun p =>
        { p with transfer := p.transfer.map fun r => r.answered reply })
    else (false, e)
  | none => (false, e)

def drain (e : Engine α) : List HandoverEvent × Engine α :=
  let (events, world) := e.world.drain
  (events, { e with world })

/-! ### Interest -/

section Interest

variable [Scalar α]

/-- The entities within `radius` of `pos`, except one, looked for in the block of cells around
`pos`: cell by cell, and by id within a cell. -/
def near (e : Engine α) (pos : Point α) (radius : α) (exclude : String) : List (Entity α) :=
  let reach := radius * radius + 1e-9
  ((e.world.cells.around (Cell.containing pos e.settings.cellSize)).filter (· != exclude)
    |>.filterMap e.world.entity?).filter fun x => decide (x.pos.dist2 pos ≤ reach)

/-- The entities near `pos`, counted. A radius that is not positive finds nobody and is not
counted. -/
def interest (e : Engine α) (pos : Point α) (radius : α) (exclude : String) :
    List (Entity α) × Engine α :=
  if (0.0 : α) < radius then
    let found := e.near pos radius exclude
    (found, { e with metrics := e.metrics.addQuery found.length })
  else ([], e)

end Interest

/-! ### Other nodes -/

def register (e : Engine α) (info : NodeInfo) : Engine α :=
  { e with territory := e.territory.register info }

def unregister (e : Engine α) (id : String) : Option Nat × Engine α :=
  let (territory, released) := e.territory.unregister id
  (released, { e with territory })

def assign (e : Engine α) (c : Cell) (id : String) : Engine α :=
  { e with territory := e.territory.assign c id }

end Engine

end CellWorld
