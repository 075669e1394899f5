import CellWorld.World

/-!
# How many bots there are

Cells with somebody in them are kept at a density: a pass adds bots where it is too low and takes
bots away where it is too high, a few at a time.

* `DensityBand.ofTarget t` — act below `⌊0.8 t⌋` and above `⌈1.2 t⌉`, by at most `⌈t / 10⌉` bots a
  pass
* `World.spawnBot` — a bot at a random place of a cell, under the next name `bot-n`; `noRoom` where
  the cell has no range to draw a place from
* `World.despawnBot?` — one bot of a cell less
* `World.maintainDensity` — a pass over all cells; a bot that finds no room ends it where it stands

A new bot takes the next name whether or not a player has it. The band is computed with whole
numbers; `Proofs.Density` has its fractions and what passes lead to.
-/

namespace CellWorld

structure DensityBand where
  /-- Bots are added below this. -/
  low : Nat
  /-- Bots are taken away above this. -/
  high : Nat
  /-- At most this many in one pass. -/
  ramp : Nat
deriving DecidableEq

namespace DensityBand

/-- The quotient `⌈n / 10⌉`. -/
def tenthUp (n : Nat) : Nat := (n + 9) / 10

/-- The band from four fifths to six fifths of `target`, and a tenth of it at a time. -/
def ofTarget (target : Nat) : DensityBand where
  low := 8 * target / 10
  high := max (tenthUp (12 * target)) (8 * target / 10)
  ramp := max (tenthUp (max target 1)) 1

theorem low_le_high (target : Nat) : (ofTarget target).low ≤ (ofTarget target).high :=
  Nat.le_max_right _ _

theorem ramp_pos (target : Nat) : 0 < (ofTarget target).ramp :=
  Nat.lt_of_lt_of_le Nat.one_pos (Nat.le_max_right _ _)

end DensityBand

structure DensityReport where
  spawned : Nat := 0
  despawned : Nat := 0
deriving DecidableEq

/-- How bots are kept. -/
structure BotRules (α : Type) where
  cellSize : α
  /-- Wanted players and bots in an occupied cell; zero means no bots. -/
  target : Nat
  /-- Most bots in the world; a negative number means no bots. -/
  cap : Int

namespace Bot

variable {α : Type} [Angular α]

def speed : α := 1.5

/-- Seconds between changes of direction, at least and at most. -/
def retargetMin : α := 3.0

def retargetMax : α := 7.0

/-- The bot facing and moving along `heading`. -/
def facing (b : Bot α) (heading : Point α) : Bot α :=
  { b with heading, vel := heading.scale speed, yaw := heading.angle }

/-- The id of the bot that was named `n`-th. -/
def idOf (n : Nat) : String := "bot-" ++ toString n

/-- A random direction, and the time until it changes: two words. -/
def drawCourse (random : Random) : Point α × α × Random :=
  let (angle, random) := random.draw (0.0 : α) Angular.turn
  let (retargetIn, random) := random.draw (retargetMin : α) retargetMax
  (.ofAngle angle, retargetIn, random)

def new (id : String) (cell : Cell) (pos heading : Point α) (retargetIn : α) : Bot α :=
  { id, kind := .bot, pos, vel := heading.scale speed, yaw := heading.angle, name := id
    ownedCell := cell, heading, retargetIn }

end Bot

namespace World

variable {α : Type}

/-! ### One bot -/

/-- What became of a bot that was wanted. -/
inductive Spawned (α : Type) where
  | placed (id : String) (w : World α)
  /-- There are as many bots as there may be. -/
  | full
  /-- The cell has no room to draw a place from; the name is used up. -/
  | noRoom (w : World α)

/-- Takes the first bot of `cell` away, none if the cell holds no bot. -/
def despawnBot? (w : World α) (cell : Cell) : Option (World α) :=
  ((w.cells.bucket cell).toList.find? w.bots.contains).map fun id =>
    { w with cells := (w.cells.remove cell id).1, bots := w.bots.erase id }

section Placing

variable [Angular α]

/-- A random place of `square`, on the ground. When there is nothing to draw from, what was drawn
before stays drawn. -/
def drawPlace (random : Random) (square : Bounds α) : Option (Point α) × Random :=
  match random.draw? square.minX square.maxX with
  | none => (none, random)
  | some (x, random) =>
    match random.draw? square.minZ square.maxZ with
    | none => (none, random)
    | some (z, random) => (some (.planar x z), random)

/-- Adds a bot at a random place of `cell`, unless there are enough. The name is used up before a
place is drawn. -/
def spawnBot (w : World α) (cell : Cell) (rules : BotRules α) : Spawned α :=
  if 0 ≤ rules.cap ∧ rules.cap ≤ w.bots.size then .full
  else
    let named := w.botsNamed + 1
    match drawPlace w.random (Bounds.ofCell cell rules.cellSize) with
    | (none, random) => .noRoom { w with botsNamed := named, random }
    | (some pos, random) =>
      let id := Bot.idOf named
      let (heading, retargetIn, random) := Bot.drawCourse random
      .placed id { w with
        botsNamed := named
        random
        cells := w.cells.insert cell id
        bots := w.bots.insert id (Bot.new id cell pos heading retargetIn) }

end Placing

/-! ### All cells -/

/-- A pass under way. Once a bot has found no room nothing more happens. -/
structure DensityPass (α : Type) where
  world : World α
  report : DensityReport := {}
  stuck : Bool := false

namespace DensityPass

def takeAway (cell : Cell) : Nat → DensityPass α → DensityPass α
  | 0, pass => pass
  | n + 1, pass =>
    match pass.world.despawnBot? cell with
    | none => pass
    | some w =>
      takeAway cell n { pass with
        world := w, report := { pass.report with despawned := pass.report.despawned + 1 } }

variable [Angular α]

/-- Adds up to `n` bots to `cell`. -/
def add (rules : BotRules α) (cell : Cell) : Nat → DensityPass α → DensityPass α
  | 0, pass => pass
  | n + 1, pass =>
    match pass.world.spawnBot cell rules with
    | .full => pass
    | .noRoom w => { pass with world := w, stuck := true }
    | .placed _ w =>
      add rules cell n { pass with
        world := w, report := { pass.report with spawned := pass.report.spawned + 1 } }

/-- Brings `cell` closer to the band. A cell without anybody in it is left alone. -/
def visit (rules : BotRules α) (pass : DensityPass α) (cell : Cell) : DensityPass α :=
  if pass.stuck then pass
  else
    let band := DensityBand.ofTarget rules.target
    let population := pass.world.population cell
    if population.total = 0 then pass
    else if population.total < band.low then
      let headroom := (rules.cap - pass.world.bots.size).toNat
      pass.add rules cell (min (min (band.low - population.total) band.ramp) headroom)
    else if band.high < population.total then
      pass.takeAway cell
        (min (min (population.total - band.high) band.ramp) population.bots)
    else pass

end DensityPass

def maintainDensity [Angular α] (w : World α) (rules : BotRules α) : DensityPass α :=
  if rules.target = 0 ∨ rules.cap < 0 then { world := w }
  else w.cells.cells.foldl (DensityPass.visit rules) { world := w }

end World

end CellWorld
