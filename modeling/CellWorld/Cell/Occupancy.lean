import Std.Data.TreeSet
import CellWorld.Cell.Basic

/-!
# Occupancy

Which entities are in which cell. A cell comes into being when it is first used and stays when it is
emptied.

* `Occupancy` — from cells to the ids in them, both in order
* `insert`, `remove`, `move`, `touch` — the operations that change it
* `cells`, `around`, `size`, `placements` — the readers
* `Holds o c id` — the relation `id ∈ o.bucket c` that an occupancy stands for, with one law for
  each operation: `holds_insert`, `holds_touch`, `holds_remove`, `holds_move`

The laws leave it open whether an id is in several cells; that it is in one is kept by the world,
and `Proofs.Placements` has the counts.
-/

namespace CellWorld

/-- The ids in each cell that was ever used. -/
structure Occupancy where
  buckets : Std.TreeMap Cell (Std.TreeSet String) := {}

namespace Occupancy

/-- The ids in `c`, none for a cell that was never used. -/
def bucket? (o : Occupancy) (c : Cell) : Option (Std.TreeSet String) := o.buckets[c]?

/-- The ids in `c`, empty for a cell that was never used. -/
def bucket (o : Occupancy) (c : Cell) : Std.TreeSet String := (o.bucket? c).getD {}

/-- The relation between cells and ids that an occupancy stands for. -/
def Holds (o : Occupancy) (c : Cell) (id : String) : Prop := id ∈ o.bucket c

/-! ### Changes -/

/-- The cell `c` brought into being, with whoever is in it. -/
def touch (o : Occupancy) (c : Cell) : Occupancy := ⟨o.buckets.insert c (o.bucket c)⟩

def insert (o : Occupancy) (c : Cell) (id : String) : Occupancy :=
  ⟨o.buckets.insert c ((o.bucket c).insert id)⟩

/-- Takes `id` out of `c`, and says whether it was there. A cell that was never used is not brought
into being by this. -/
def remove (o : Occupancy) (c : Cell) (id : String) : Occupancy × Bool :=
  match o.bucket? c with
  | none => (o, false)
  | some ids => (⟨o.buckets.insert c (ids.erase id)⟩, ids.contains id)

/-- Moves `id` from `source` to `target`; nothing happens when they are the same. -/
def move (o : Occupancy) (id : String) (source target : Cell) : Occupancy :=
  if source = target then o else (o.remove source id).1.insert target id

/-! ### Readers -/

def cells (o : Occupancy) : List Cell := o.buckets.keys

/-- The ids in the block around `c`, cell by cell, and in order within a cell. -/
def around (o : Occupancy) (c : Cell) : List String :=
  c.block.flatMap fun n => (o.bucket n).toList

def size (o : Occupancy) : Nat := o.buckets.size

/-- The number of pairs `(c, id)` with `id` in `c`. -/
def placements (o : Occupancy) : Nat :=
  (o.buckets.values.map fun ids => ids.size).foldl (· + ·) 0

theorem mem_around_iff {o : Occupancy} {c : Cell} {id : String} :
    id ∈ o.around c ↔ ∃ k ∈ c.block, o.Holds k id := by
  simp only [around, List.mem_flatMap, Std.TreeSet.mem_toList, Holds]

/-! ### What each change does to the relation -/

theorem not_holds_empty (c : Cell) (id : String) : ¬ Holds {} c id := by
  simp [Holds, bucket, bucket?]

theorem bucket_insert (o : Occupancy) (c k : Cell) (id : String) :
    (o.insert c id).bucket k = if c = k then (o.bucket k).insert id else o.bucket k := by
  simp only [bucket, bucket?, insert, Std.TreeMap.getElem?_insert, Std.LawfulEqCmp.compare_eq_iff_eq]
  split <;> simp_all

theorem holds_insert (o : Occupancy) (c k : Cell) (id x : String) :
    (o.insert c id).Holds k x ↔ (c = k ∧ id = x) ∨ o.Holds k x := by
  unfold Holds
  rw [bucket_insert]
  split <;> simp_all

theorem holds_touch (o : Occupancy) (c k : Cell) (x : String) :
    (o.touch c).Holds k x ↔ o.Holds k x := by
  simp only [Holds, bucket, bucket?, touch, Std.TreeMap.getElem?_insert,
    Std.LawfulEqCmp.compare_eq_iff_eq]
  split <;> simp_all

theorem holds_remove (o : Occupancy) (c k : Cell) (id x : String) :
    (o.remove c id).1.Holds k x ↔ o.Holds k x ∧ ¬ (c = k ∧ id = x) := by
  unfold remove
  split
  · next h =>
    constructor
    · intro hk
      refine ⟨hk, ?_⟩
      rintro ⟨rfl, rfl⟩
      simp [Holds, bucket, h] at hk
    · exact And.left
  · next ids h =>
    simp only [Holds, bucket, bucket?, Std.TreeMap.getElem?_insert,
      Std.LawfulEqCmp.compare_eq_iff_eq] at h ⊢
    split
    · next hk => subst hk; simp [h, and_comm]
    · next hk => simp [hk]

theorem holds_move (o : Occupancy) (id x : String) (source target k : Cell) :
    (o.move id source target).Holds k x ↔
      if source = target then o.Holds k x
      else (target = k ∧ id = x) ∨ (o.Holds k x ∧ ¬ (source = k ∧ id = x)) := by
  unfold move
  split
  · rfl
  · rw [holds_insert, holds_remove]

end Occupancy

end CellWorld
