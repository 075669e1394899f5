import CellWorld.Bots.Density

/-!
# How bots move

Every bot keeps its direction for a while, then picks another, and turns away from bots that are too
close. All of them look at where the others were at the start of the step. A bot that would leave
its cell is put on the border and turned back.

* `Bot.retarget` — picks another direction when `retargetIn` has run out
* `Bot.push b crowd` — the sum of the unit vectors away from the bots closer than `separation`, at
  unit length
* `Bot.blend b crowd` — `0.7 · heading + 0.3 · push` at unit length, `heading` where that has no
  direction
* `Bot.walk b size dt` — a bot's new position, inside its cell
* `World.wander` — `World.steerAll`, then `Bot.walk` for every bot

That the order of the bots does not matter is proved in `Proofs.Steering`, speed and bounds over
exact numbers in `Proofs.Kinematics`. The far border counts as inside here, while `Bounds.contains`
leaves it out.
-/

namespace CellWorld

/-- Where a bot was at the start of a step. -/
structure Sighting (α : Type) where
  id : String
  pos : Point α

namespace Bot

variable {α : Type} [Angular α]

def separation : α := 2.0

def headingWeight : α := 0.7

def pushWeight : α := 0.3

/-- Counts the time until the next change of direction down, and changes it when none is left. -/
def retarget (b : Bot α) (random : Random) (dt : α) : Bot α × Random :=
  let left := b.retargetIn - dt
  if left ≤ 0.0 then
    let (heading, retargetIn, random) := drawCourse random
    ({ b with heading, retargetIn }, random)
  else ({ b with retargetIn := left }, random)

/-- The direction away from `other`, none if it is the bot itself or far enough away. -/
def pushFrom (b : Bot α) (other : Sighting α) : Option (Point α) :=
  if other.id = b.id ∨ separation * separation ≤ b.pos.dist2 other.pos then none
  else some (Point.planar (b.pos.x - other.pos.x) (b.pos.z - other.pos.z)).normalized

/-- The direction away from all bots that are too close, zero where there is none. -/
def push (b : Bot α) (crowd : List (Sighting α)) : Point α :=
  ((crowd.filterMap b.pushFrom).foldl (· + ·) Point.zero).normalized

/-- The direction of a bot among others: mostly its own, and away from those that are too close. -/
def blend (b : Bot α) (crowd : List (Sighting α)) : Point α :=
  let push := b.push crowd
  if push.isZero then b.heading
  else
    let blended := (b.heading.scale headingWeight + push.scale pushWeight).normalized
    if blended.isZero then b.heading else blended

def steer (b : Bot α) (random : Random) (crowd : List (Sighting α)) (dt : α) : Bot α × Random :=
  let (b, random) := b.retarget random dt
  (b.facing (b.blend crowd), random)

/-- A coordinate kept between two borders, with the direction turned back at a border that was
passed. -/
def reflect (low high x dir : α) : α × α :=
  if x < low then (low, Scalar.abs dir)
  else if high < x then (high, -Scalar.abs dir)
  else (x, dir)

def confine (b : Bot α) (square : Bounds α) : Bot α :=
  let (x, dx) := reflect square.minX square.maxX b.pos.x b.heading.x
  let (z, dz) := reflect square.minZ square.maxZ b.pos.z b.heading.z
  { b with pos := { b.pos with x, z } }.facing { b.heading with x := dx, z := dz }

/-- A bot's new position, inside its cell. -/
def walk (b : Bot α) (size dt : α) : Bot α :=
  { b with pos := b.pos.advance b.vel dt }.confine (Bounds.ofCell b.ownedCell size)

end Bot

namespace World

variable {α : Type}

/-- Where the bots of each cell are, in the order of ids. -/
def sightings (w : World α) : Std.TreeMap Cell (List (Sighting α)) :=
  w.bots.foldr (fun id b seen =>
    seen.insert b.ownedCell (⟨id, b.pos⟩ :: seen.getD b.ownedCell [])) {}

variable [Angular α]

/-- Turns every bot, in the order of ids. The words of random bits are drawn in that order, too. -/
def steerAll (w : World α) (dt : α) : World α :=
  let seen := w.sightings
  w.bots.foldl (fun w id b =>
    let (b, random) := b.steer w.random (seen.getD b.ownedCell []) dt
    { w with bots := w.bots.insert id b, random }) w

def wander (w : World α) (size dt : α) : World α :=
  let w := w.steerAll dt
  { w with bots := w.bots.map fun _ b => b.walk size dt }

end World

end CellWorld
