import CellWorld.Scalar

/-!
# Points

The world is partitioned on its X and Z axes; the height `y` is carried along, and no query reads
it.

* `Point.planar x z` — the point `⟨x, 0, z⟩`
* `Point.advance p vel dt` — `p + vel.scale dt`
* `Point.dist2 a b` — `(a.x - b.x)² + (a.z - b.z)²`, without a root, so that a comparison with a
  squared radius stays exact
* `Point.normalized p` — `p` at unit length, or `zero` where `p` has no direction

The sums are formed in the order they are written in, which matters for doubles.
-/

namespace CellWorld

/-- A position, a velocity or a direction. -/
structure Point (α : Type) where
  x : α
  y : α
  z : α
deriving DecidableEq

namespace Point

variable {α : Type}

section Arithmetic

variable [Scalar α]

def planar (x z : α) : Point α := ⟨x, 0.0, z⟩

def zero : Point α := ⟨0.0, 0.0, 0.0⟩

instance : Add (Point α) := ⟨fun a b => ⟨a.x + b.x, a.y + b.y, a.z + b.z⟩⟩

def scale (p : Point α) (k : α) : Point α := ⟨p.x * k, p.y * k, p.z * k⟩

/-- Where `p` is after `dt` seconds at velocity `vel`. -/
def advance (p vel : Point α) (dt : α) : Point α := p + vel.scale dt

/-- Squared distance on the plane. -/
def dist2 (a b : Point α) : α :=
  let dx := a.x - b.x
  let dz := a.z - b.z
  dx * dx + dz * dz

def isZero (p : Point α) : Bool := p.x == 0.0 && p.y == 0.0 && p.z == 0.0

end Arithmetic

section Direction

variable [Angular α]

/-- The point at unit length, or `zero` when its length has no positive finite reciprocal. -/
def normalized (p : Point α) : Point α :=
  let r : α := 1.0 / Angular.sqrt (p.x * p.x + p.y * p.y + p.z * p.z)
  if Scalar.isFinite r && decide ((0.0 : α) < r) then p.scale r else zero

/-- The unit direction at `angle`, counted from the X axis towards the Z axis. -/
def ofAngle (angle : α) : Point α := ⟨Angular.cos angle, 0.0, Angular.sin angle⟩

def angle (p : Point α) : α := Angular.atan2 p.z p.x

end Direction

end Point

end CellWorld
