import CellWorld.Proofs.Exact

/-!
# Cells tile the plane

The cell of a point comes from two quotients `x / size` and `z / size`, and whether a cell holds a
point from the edges of its square. Both look at the floors of the quotients, so on the grid each
point is held by `Cell.containing p size` and by no other cell. Off the grid, where a floor is no
index of 32 bits, no cell holds the point, and the index is the last one on its side.

* `Cell.IsNear`, `Cell.mem_block_iff_isNear` — `k ∈ c.block` iff columns and rows differ by at most
  one
* `Cell.RowsBefore`, `Cell.pairwise_block`, `Cell.nodup_block` — a block is sorted row by row,
  without repetition
* `Closest i n`, `closest_clampIndex` — `clampIndex n` is the index closest to `n`
* `Cell.holds_iff_floor` — `c.holds size p ↔ ⌊p.x / size⌋ = c.cx ∧ ⌊p.z / size⌋ = c.cz`
* `Cell.holds_iff_containing` — `c.holds size p ↔ OnGrid size p ∧ c = Cell.containing p size`
* `cells_tile_plane` — these, that indices are monotone in their coordinates, and that blocks are
  symmetric
* `corner_held_once` — a corner of four squares, and a point off the grid

The scalars are `Exact`. For doubles the quotient and the edges are rounded separately, and a point
next to an edge may be held by no cell or by another one than its own; nothing is proved of them
here.
-/

namespace CellWorld

open Exact (value)

/-! ### The cells of a block -/

namespace Cell

/-- The columns differ by at most one, and so do the rows. -/
def IsNear (c k : Cell) : Prop :=
  (c.cx.toInt - k.cx.toInt).natAbs ≤ 1 ∧ (c.cz.toInt - k.cz.toInt).natAbs ≤ 1

theorem isNear_comm {c k : Cell} : c.IsNear k ↔ k.IsNear c := by
  unfold IsNear
  omega

/-- The block of `c` are the cells near it, those beyond the grid left out. -/
theorem mem_block_iff_isNear {c k : Cell} : k ∈ c.block ↔ c.IsNear k := by
  rw [mem_block_iff, IsNear]
  omega

/-- Row by row, and by column within a row. -/
def RowsBefore (a b : Cell) : Prop := a.cz < b.cz ∨ a.cz = b.cz ∧ a.cx < b.cx

theorem not_rowsBefore_self (c : Cell) : ¬ c.RowsBefore c := by
  rintro (row | ⟨-, column⟩)
  · exact Int32.lt_irrefl row
  · exact Int32.lt_irrefl column

theorem RowsBefore.ne {a b : Cell} (h : a.RowsBefore b) : a ≠ b := by
  rintro rfl
  exact a.not_rowsBefore_self h

/-- The block is sorted by `RowsBefore`. -/
theorem pairwise_block (c : Cell) : c.block.Pairwise RowsBefore := by
  have rising : [-1, 0, 1].Pairwise fun a b : Int => a < b := by decide
  rw [block, List.pairwise_flatMap]
  constructor
  · intro dz _
    refine rising.filterMap _ fun dx dx' order a ha b hb => Or.inr ?_
    obtain ⟨column, row⟩ := offset?_eq_some_iff.mp ha
    obtain ⟨column', row'⟩ := offset?_eq_some_iff.mp hb
    rw [← Int32.toInt_inj, Int32.lt_iff_toInt_lt]
    omega
  · refine rising.imp fun {dz dz'} order a ha b hb => Or.inl ?_
    obtain ⟨dx, -, ha⟩ := List.mem_filterMap.mp ha
    obtain ⟨dx', -, hb⟩ := List.mem_filterMap.mp hb
    rw [Int32.lt_iff_toInt_lt, (offset?_eq_some_iff.mp ha).2, (offset?_eq_some_iff.mp hb).2]
    omega

theorem nodup_block (c : Cell) : c.block.Nodup := c.pairwise_block.imp RowsBefore.ne

end Cell

/-! ### Indices kept on the grid -/

/-- Every other index is farther from `n` than `i` is. -/
def Closest (i : Int32) (n : Int) : Prop :=
  ∀ j : Int32, j ≠ i → (i.toInt - n).natAbs < (j.toInt - n).natAbs

/-- Saturation picks the closest index. -/
theorem closest_clampIndex (n : Int) : Closest (Number.clampIndex n) n := by
  intro j other
  have apart : j.toInt ≠ (Number.clampIndex n).toInt := fun same => other (Int32.toInt_inj.mp same)
  have low := j.le_toInt
  have high := j.toInt_lt
  rw [toInt_clampIndex_eq] at apart ⊢
  omega

/-- Saturation is monotone. -/
theorem clampIndex_mono {m n : Int} (h : m ≤ n) : Number.clampIndex m ≤ Number.clampIndex n := by
  rw [Int32.le_iff_toInt_le, toInt_clampIndex_eq, toInt_clampIndex_eq]
  omega

/-! ### The cell of a point -/

section Containing

variable {α : Type} [Scalar α] [Exact α] {size : α}

/-- The index of a coordinate is the saturated floor of its quotient. -/
theorem floorIndex_div (x size : α) :
    Scalar.floorIndex (x / size) = Number.clampIndex ⌊value x / value size⌋ := by
  rw [Exact.floorIndex_eq, Exact.value_div]

/-- So it is the index closest to that floor. -/
theorem closest_floorIndex_div (x size : α) :
    Closest (Scalar.floorIndex (x / size)) ⌊value x / value size⌋ := by
  rw [floorIndex_div]
  exact closest_clampIndex _

theorem floorIndex_div_mono (positive : 0 < value size) {x y : α} (h : x ≤ y) :
    Scalar.floorIndex (x / size) ≤ Scalar.floorIndex (y / size) := by
  have order : value x / value size ≤ value y / value size :=
    div_le_div_of_nonneg_right ((Exact.le_iff x y).mp h) positive.le
  rw [floorIndex_div, floorIndex_div]
  exact clampIndex_mono (Int.floor_le_floor order)

namespace Cell

variable {c : Cell} {p : Point α}

/-- A cell holds the points whose quotients have its indices as their floors. -/
theorem holds_iff_floor (positive : 0 < value size) :
    c.holds size p = true ↔
      ⌊value p.x / value size⌋ = c.cx.toInt ∧ ⌊value p.z / value size⌋ = c.cz.toInt := by
  rw [floor_div_eq_iff positive, floor_div_eq_iff positive]
  simp only [holds, Bounds.contains, Bool.and_eq_true, decide_eq_true_eq, Exact.le_iff,
    Exact.lt_iff, Bounds.value_minX, Bounds.value_maxX, Bounds.value_minZ, Bounds.value_maxZ,
    and_assoc]

/-- A cell holds exactly the points on the grid that are mapped to it. -/
theorem holds_iff_containing (positive : 0 < value size) :
    c.holds size p = true ↔ OnGrid size p ∧ c = containing p size := by
  rw [holds_iff_floor positive]
  constructor
  · rintro ⟨column, row⟩
    -- the floors are the indices of a cell, so nothing had to be kept on the grid
    have grid : OnGrid size p :=
      ⟨column ▸ ⟨c.cx.le_toInt, c.cx.toInt_lt⟩, row ▸ ⟨c.cz.le_toInt, c.cz.toInt_lt⟩⟩
    exact ⟨grid, ext_toInt (column.symm.trans grid.toInt_cx.symm)
      (row.symm.trans grid.toInt_cz.symm)⟩
  · rintro ⟨grid, rfl⟩
    exact ⟨grid.toInt_cx.symm, grid.toInt_cz.symm⟩

end Cell

end Containing

/-! ### Holders, indices and blocks -/

section Whole

variable {α : Type} [Scalar α] [Exact α]

/-- For `0 < value size`. A cell `k` holds `p` iff `OnGrid size p` and `k = Cell.containing p size`.
Column and row of `Cell.containing p size` are the indices closest to `⌊p.x / size⌋` and
`⌊p.z / size⌋`, on the grid or not, and each is monotone in its coordinate. The block of `c` has no
repetition, is sorted by `RowsBefore`, consists of the cells near `c`, and has `k` iff the block of
`k` has `c`. -/
theorem cells_tile_plane {size : α} (positive : 0 < value size) :
    (∀ (p : Point α) (k : Cell),
      k.holds size p = true ↔ OnGrid size p ∧ k = Cell.containing p size) ∧
    (∀ p : Point α,
      Closest (Cell.containing p size).cx ⌊value p.x / value size⌋ ∧
        Closest (Cell.containing p size).cz ⌊value p.z / value size⌋) ∧
    (∀ p q : Point α,
      (p.x ≤ q.x → (Cell.containing p size).cx ≤ (Cell.containing q size).cx) ∧
        (p.z ≤ q.z → (Cell.containing p size).cz ≤ (Cell.containing q size).cz)) ∧
    ∀ c : Cell, c.block.Nodup ∧ c.block.Pairwise Cell.RowsBefore ∧
      (∀ k, k ∈ c.block ↔ c.IsNear k) ∧ ∀ k, k ∈ c.block ↔ c ∈ k.block := by
  refine ⟨fun p k => Cell.holds_iff_containing positive, ?_, ?_, ?_⟩
  · exact fun p => ⟨closest_floorIndex_div p.x size, closest_floorIndex_div p.z size⟩
  · exact fun p q => ⟨floorIndex_div_mono positive, floorIndex_div_mono positive⟩
  · intro c
    refine ⟨c.nodup_block, c.pairwise_block, fun k => Cell.mem_block_iff_isNear, fun k => ?_⟩
    rw [Cell.mem_block_iff_isNear, Cell.mem_block_iff_isNear, Cell.isNear_comm]

/-- Of the four squares that meet in `(-10, 20)`, that of `(-1, 2)` holds it. The point
`(21474836480, -21474836481)` lies past the last column and the first row: it is mapped to the cell
in that corner of the grid, which does not hold it and has four cells in its block. -/
theorem corner_held_once :
    let corner : Point ℚ := ⟨-10, 0, 20⟩
    let outside : Point ℚ := ⟨21474836480, 0, -21474836481⟩
    let last : Cell := ⟨Int32.maxValue, Int32.minValue⟩
    0 < value (10 : ℚ) ∧ (∀ k : Cell, k.holds 10 corner = true ↔ k = ⟨-1, 2⟩) ∧
      Cell.containing outside 10 = last ∧ (∀ k : Cell, k.holds 10 outside = false) ∧
      last.block = [⟨Int32.maxValue - 1, Int32.minValue⟩, last,
        ⟨Int32.maxValue - 1, Int32.minValue + 1⟩, ⟨Int32.maxValue, Int32.minValue + 1⟩] := by
  intro corner outside last
  have positive : 0 < value (10 : ℚ) := by norm_num
  obtain ⟨tiles, -⟩ := cells_tile_plane positive
  refine ⟨positive, fun k => ?_, by decide +kernel, fun k => ?_, by decide +kernel⟩
  · have grid : OnGrid 10 corner := onGrid_rat (by decide +kernel) (by decide +kernel)
    have cell : Cell.containing corner 10 = ⟨-1, 2⟩ := by decide +kernel
    rw [tiles, and_iff_right grid, cell]
  · rw [Bool.eq_false_iff]
    intro held
    obtain ⟨grid, -⟩ := (tiles outside k).mp held
    have column : ⌊value outside.x / value (10 : ℚ)⌋ = 0x80000000 := by norm_num [outside]
    exact absurd grid.column.2 (by rw [column]; decide)

end Whole

end CellWorld
