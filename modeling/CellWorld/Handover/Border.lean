import CellWorld.Cell.Basic

/-!
# Borders between cells

A player changes cells only when it is well past the border, so that walking along a border does not
make it change back and forth.

* `Border.between? source target` — the side that gates a move; columns are looked at first, so a
  diagonal move is gated on X alone
* `Border.passed border square margin p` — `square.maxX + margin ≤ p.x` for `east`, and so on
* `leftBeyond p source target size margin` — `p` is past the gating side of `source` by `margin`
* `marginToward target prev h` — `2 · h` toward the cell that was just left, else `h`

How far behind a player's cell may lag for it is in `Proofs.Lag`, how far apart two changes are in
`Proofs.Return`.
-/

namespace CellWorld

inductive Border where
  | east
  | west
  | north
  | south
deriving DecidableEq

namespace Border

/-- The side that gates the move from `source` to `target`, none if they are the same cell. -/
def between? (source target : Cell) : Option Border :=
  if source.cx < target.cx then some .east
  else if target.cx < source.cx then some .west
  else if source.cz < target.cz then some .north
  else if target.cz < source.cz then some .south
  else none

theorem between?_self (c : Cell) : between? c c = none := by simp [between?]

variable {α : Type} [Scalar α]

/-- Whether `p` is past this side of `square` by at least `margin`. -/
def passed (border : Border) (square : Bounds α) (margin : α) (p : Point α) : Bool :=
  match border with
  | east => decide (square.maxX + margin ≤ p.x)
  | west => decide (p.x ≤ square.minX - margin)
  | north => decide (square.maxZ + margin ≤ p.z)
  | south => decide (p.z ≤ square.minZ - margin)

end Border

variable {α : Type} [Scalar α]

/-- Whether `p` has left `source` for `target` by at least `margin`. -/
def leftBeyond (p : Point α) (source target : Cell) (size margin : α) : Bool :=
  match Border.between? source target with
  | some border => border.passed (Bounds.ofCell source size) margin p
  | none => false

/-- How far past the border a player has to be before it moves to `target`. -/
def marginToward (target : Cell) (prev : Option Cell) (margin : α) : α :=
  if prev = some target then 2.0 * margin else margin

theorem leftBeyond_self (p : Point α) (c : Cell) (size margin : α) :
    leftBeyond p c c size margin = false := by
  simp [leftBeyond, Border.between?_self]

end CellWorld
