import Std.Data.TreeMap
import CellWorld.Number.Decimal
import CellWorld.Point

/-!
# Cells

The plane is cut into squares of one edge length `size`. A cell is named by its column `cx` and its
row `cz`, both of 32 bits.

* `Cell.containing p size` — `⟨⌊p.x / size⌋, ⌊p.z / size⌋⟩`, each kept in the range of an index
* `Cell.block c` — the cell and its neighbours, row by row; `Cell.mem_block_iff` — `k ∈ c.block`
  exactly when `|k.cx - c.cx| ≤ 1` and `|k.cz - c.cz| ≤ 1`
* `Cell.ColumnsBefore` — the order of cells, by column first; `Cell.compare_eq_lt_iff`
* `Bounds.ofCell c size` — the half-open square
  `[cx · size, (cx + 1) · size) × [cz · size, (cz + 1) · size)`

Whether `containing` and `Bounds.contains` agree is a matter of the scalar: over `ℚ` they do, and
`Proofs.Tiling` has the proof; over doubles a quotient can round across an edge.
-/

namespace CellWorld

/-- A cell of the grid. -/
structure Cell where
  cx : Int32
  cz : Int32
deriving DecidableEq

namespace Cell

theorem ext_toInt {a b : Cell} (cx : a.cx.toInt = b.cx.toInt) (cz : a.cz.toInt = b.cz.toInt) :
    a = b := by
  rw [Int32.toInt_inj] at cx cz
  cases a; cases b
  simp_all

/-! ### Order -/

instance : Ord Cell := ⟨compareLex (compareOn cx) (compareOn cz)⟩

instance : Std.TransOrd Cell :=
  inferInstanceAs (Std.TransCmp (compareLex (compareOn cx) (compareOn cz)))

theorem compare_eq_then (a b : Cell) :
    compare a b = (compare a.cx b.cx).then (compare a.cz b.cz) := rfl

instance : Std.LawfulEqOrd Cell where
  compare_self {a} := by rw [compare_eq_then]; simp
  eq_of_compare {a b} h := by
    rw [compare_eq_then, Ordering.then_eq_eq] at h
    cases a; cases b
    simp_all

/-- The order of cells: by columns, and by rows within a column. -/
def ColumnsBefore (a b : Cell) : Prop := a.cx < b.cx ∨ a.cx = b.cx ∧ a.cz < b.cz

/-- Cells compare the way `ColumnsBefore` says. -/
theorem compare_eq_lt_iff {a b : Cell} : compare a b = .lt ↔ a.ColumnsBefore b := by
  rw [compare_eq_then, Ordering.then_eq_lt, Std.compare_eq_lt, Std.compare_eq_lt,
    Std.LawfulEqCmp.compare_eq_iff_eq, ColumnsBefore]

/-! ### Text -/

/-- The text `(cx,cz)`. -/
def text (c : Cell) : String :=
  String.ofList (['('] ++ Number.integer c.cx.toInt ++ [','] ++ Number.integer c.cz.toInt ++ [')'])

/-! ### Position on the grid -/

variable {α : Type} [Scalar α]

/-- The cell of `p`: floor division, so that a negative coordinate lands in a negative cell, and an
index off the grid becomes the last one. -/
def containing (p : Point α) (size : α) : Cell :=
  ⟨Scalar.floorIndex (p.x / size), Scalar.floorIndex (p.z / size)⟩

/-- The index `i + d`, none past the edge of the grid. -/
def shift? (i : Int32) (d : Int) : Option Int32 :=
  let n := i.toInt + d
  if -0x80000000 ≤ n ∧ n < 0x80000000 then some (Int32.ofInt n) else none

/-- The cell `dx` columns and `dz` rows away, none off the grid. -/
def offset? (c : Cell) (dx dz : Int) : Option Cell :=
  (shift? c.cx dx).bind fun cx => (shift? c.cz dz).map fun cz => ⟨cx, cz⟩

/-- The three by three block around `c`, row by row; what lies off the grid is left out. -/
def block (c : Cell) : List Cell :=
  [-1, 0, 1].flatMap fun dz => [-1, 0, 1].filterMap fun dx => c.offset? dx dz

theorem shift?_eq_some_iff {i j : Int32} {d : Int} : shift? i d = some j ↔ j.toInt = i.toInt + d := by
  have low := j.le_toInt
  have high := j.toInt_lt
  unfold shift?
  dsimp only
  split
  · next h =>
    rw [Option.some.injEq, ← Int32.toInt_inj, Int32.toInt_ofInt_of_le h.1 h.2]
    exact eq_comm
  · next h =>
    simp only [reduceCtorEq, false_iff]
    omega

theorem offset?_eq_some_iff {c k : Cell} {dx dz : Int} :
    c.offset? dx dz = some k ↔ k.cx.toInt = c.cx.toInt + dx ∧ k.cz.toInt = c.cz.toInt + dz := by
  simp only [offset?, Option.bind_eq_some_iff, Option.map_eq_some_iff, shift?_eq_some_iff]
  constructor
  · rintro ⟨cx, hx, cz, hz, rfl⟩
    exact ⟨hx, hz⟩
  · rintro ⟨hx, hz⟩
    exact ⟨k.cx, hx, k.cz, hz, rfl⟩

/-- A cell is in the block of `c` exactly when it is at most one column and one row away from
`c`. -/
theorem mem_block_iff {c k : Cell} :
    k ∈ c.block ↔
      (c.cx.toInt - 1 ≤ k.cx.toInt ∧ k.cx.toInt ≤ c.cx.toInt + 1) ∧
      (c.cz.toInt - 1 ≤ k.cz.toInt ∧ k.cz.toInt ≤ c.cz.toInt + 1) := by
  simp only [block, List.mem_flatMap, List.mem_filterMap, offset?_eq_some_iff, List.mem_cons,
    List.not_mem_nil, or_false]
  constructor
  · rintro ⟨dz, hdz, dx, hdx, hx, hz⟩
    omega
  · rintro ⟨hx, hz⟩
    exact ⟨k.cz.toInt - c.cz.toInt, by omega, k.cx.toInt - c.cx.toInt, by omega, by omega, by omega⟩

end Cell

/-! ### Bounds -/

/-- A square with its near edges `minX` and `minZ` and without its far edges `maxX` and `maxZ`. -/
structure Bounds (α : Type) where
  minX : α
  maxX : α
  minZ : α
  maxZ : α

namespace Bounds

variable {α : Type} [Scalar α]

def ofCell (c : Cell) (size : α) : Bounds α where
  minX := Scalar.ofInt c.cx.toInt * size
  maxX := (Scalar.ofInt c.cx.toInt + 1.0) * size
  minZ := Scalar.ofInt c.cz.toInt * size
  maxZ := (Scalar.ofInt c.cz.toInt + 1.0) * size

/-- The near edges belong to the square, the far ones do not. -/
def contains (b : Bounds α) (p : Point α) : Bool :=
  decide (b.minX ≤ p.x) && decide (p.x < b.maxX) && decide (b.minZ ≤ p.z) && decide (p.z < b.maxZ)

end Bounds

def Cell.holds {α : Type} [Scalar α] (c : Cell) (size : α) (p : Point α) : Bool :=
  (Bounds.ofCell c size).contains p

end CellWorld
