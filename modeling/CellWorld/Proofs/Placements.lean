import Mathlib.Data.Finset.Card
import Mathlib.Data.Finset.Erase
import Mathlib.Data.Finset.Insert
import Mathlib.Data.Finset.Prod
import CellWorld.Proofs.Lookup
import CellWorld.Proofs.Queries

/-!
# Who is where

An occupancy keeps a set of ids for each cell that was ever used. It stands for a set of pairs, each
of a cell and an id that is in it: changes of the one are changes of the other, and all readers
answer from the same pairs.

* `Occupancy.Change`, `Occupancy.run` — what is asked of an occupancy, one by one and in a row
* `Occupancy.Change.pairs`, `Occupancy.placed` — what a change and a row of them make of a
  `Finset (Cell × String)`
* `Occupancy.StandsFor o placed` — `o.Holds c id ↔ (c, id) ∈ placed`; `StandsFor.after`,
  `StandsFor.run` — every change keeps it
* `Occupancy.Change.uses?`, `Occupancy.mem_cells_run` — the cells that come into being
* `Occupancy.listing`, `Occupancy.nodup_listing` — the pairs of some cells, each of them once
* `occupancy_is_relation` — the readers `Holds`, `remove`, `placements`, `cells`, `bucket?` and
  `around` after any changes

Nothing is assumed of the changes: an id may be put into several cells, and taken out of a cell it
is not in.
-/

namespace CellWorld

namespace Occupancy

/-! ### Changes -/

inductive Change where
  | insert (cell : Cell) (id : String)
  | remove (cell : Cell) (id : String)
  | move (id : String) (source target : Cell)
  | touch (cell : Cell)

def after (o : Occupancy) : Change → Occupancy
  | .insert cell id => o.insert cell id
  | .remove cell id => (o.remove cell id).1
  | .move id source target => o.move id source target
  | .touch cell => o.touch cell

def run (o : Occupancy) (changes : List Change) : Occupancy := changes.foldl after o

namespace Change

/-- What a change makes of the pairs of a cell and an id that is in it. A move within a cell changes
nothing, also where the id is not in the cell. -/
def pairs (placed : Finset (Cell × String)) : Change → Finset (Cell × String)
  | insert cell id => Insert.insert (cell, id) placed
  | remove cell id => placed.erase (cell, id)
  | move id source target =>
    if source = target then placed
    else Insert.insert (target, id) (placed.erase (source, id))
  | touch _ => placed

/-- The cell that a change brings into being if it was never used. -/
def uses? : Change → Option Cell
  | insert cell _ => some cell
  | remove _ _ => none
  | move _ source target => if source = target then none else some target
  | touch cell => some cell

end Change

/-- The pairs after some changes, when there were none at first. -/
def placed (changes : List Change) : Finset (Cell × String) := changes.foldl Change.pairs ∅

/-! ### Pairs -/

/-- Whether an occupancy stands for a set of pairs. -/
def StandsFor (o : Occupancy) (placed : Finset (Cell × String)) : Prop :=
  ∀ c id, o.Holds c id ↔ (c, id) ∈ placed

namespace StandsFor

variable {o : Occupancy} {placed : Finset (Cell × String)}

theorem empty : StandsFor {} ∅ :=
  fun c id => iff_of_false (not_holds_empty c id) (Finset.notMem_empty _)

/-- A change of an occupancy is the change of its pairs. -/
theorem after (h : o.StandsFor placed) (change : Change) :
    (o.after change).StandsFor (change.pairs placed) := by
  intro c id
  cases change with
  | insert cell key =>
    show (o.insert cell key).Holds c id ↔ (c, id) ∈ Insert.insert (cell, key) placed
    rw [holds_insert, h, Finset.mem_insert, Prod.mk.injEq, eq_comm, @eq_comm _ key]
  | remove cell key =>
    show (o.remove cell key).1.Holds c id ↔ (c, id) ∈ placed.erase (cell, key)
    rw [holds_remove, h, Finset.mem_erase, Ne, Prod.mk.injEq, and_comm, eq_comm, @eq_comm _ key]
  | move key source target =>
    show (o.move key source target).Holds c id ↔ (c, id) ∈ if source = target then placed
      else Insert.insert (target, key) (placed.erase (source, key))
    rw [holds_move]
    split
    · exact h c id
    · rw [h, Finset.mem_insert, Finset.mem_erase, Ne, Prod.mk.injEq, Prod.mk.injEq,
        and_comm (b := ¬_), eq_comm, @eq_comm _ key, @eq_comm _ source]
  | touch cell => exact (holds_touch o cell c id).trans (h c id)

theorem run (h : o.StandsFor placed) (changes : List Change) :
    (o.run changes).StandsFor (changes.foldl Change.pairs placed) := by
  induction changes generalizing o placed with
  | nil => exact h
  | cons change changes ih => exact ih (h.after change)

end StandsFor

/-- Taking an id out of a cell answers whether it was there. -/
theorem remove_snd (o : Occupancy) (c : Cell) (id : String) :
    (o.remove c id).2 = true ↔ o.Holds c id := by
  unfold remove Holds bucket
  cases o.bucket? c with
  | none => simp
  | some ids => exact Std.TreeSet.contains_iff_mem

/-! ### Cells -/

theorem mem_cells_iff (o : Occupancy) (c : Cell) : c ∈ o.cells ↔ ∃ ids, o.bucket? c = some ids := by
  rw [cells, Std.TreeMap.mem_keys, Std.TreeMap.mem_iff_isSome_getElem?, Option.isSome_iff_exists]
  rfl

/-- A bucket that is put into its place brings its cell into being. -/
theorem mem_cells_replaced (o : Occupancy) (c k : Cell) (ids : Std.TreeSet String) :
    k ∈ cells ⟨o.buckets.insert c ids⟩ ↔ c = k ∨ k ∈ o.cells := by
  rw [cells, Std.TreeMap.mem_keys, Std.TreeMap.mem_insert, Std.LawfulEqCmp.compare_eq_iff_eq, cells,
    Std.TreeMap.mem_keys]

theorem mem_cells_insert (o : Occupancy) (c k : Cell) (id : String) :
    k ∈ (o.insert c id).cells ↔ c = k ∨ k ∈ o.cells := o.mem_cells_replaced c k _

theorem mem_cells_remove (o : Occupancy) (c k : Cell) (id : String) :
    k ∈ (o.remove c id).1.cells ↔ k ∈ o.cells := by
  unfold remove
  split
  · rfl
  · next ids used =>
    rw [mem_cells_replaced, or_iff_right_of_imp]
    rintro rfl
    exact (o.mem_cells_iff c).mpr ⟨ids, used⟩

theorem mem_cells_after (o : Occupancy) (change : Change) (k : Cell) :
    k ∈ (o.after change).cells ↔ change.uses? = some k ∨ k ∈ o.cells := by
  cases change with
  | insert cell id =>
    rw [Change.uses?, Option.some.injEq]
    exact o.mem_cells_insert cell k id
  | remove cell id => exact (o.mem_cells_remove cell k id).trans (or_iff_right nofun).symm
  | move id source target =>
    show k ∈ (o.move id source target).cells ↔
      (if source = target then none else some target) = some k ∨ k ∈ o.cells
    unfold move
    split
    · exact (or_iff_right nofun).symm
    · rw [mem_cells_insert, mem_cells_remove, Option.some.injEq]
  | touch cell =>
    rw [Change.uses?, Option.some.injEq]
    exact o.mem_cells_replaced cell k _

/-- No cell ever goes, and only the cells that are used come into being. -/
theorem mem_cells_run (o : Occupancy) (changes : List Change) (k : Cell) :
    k ∈ (o.run changes).cells ↔ (∃ change ∈ changes, change.uses? = some k) ∨ k ∈ o.cells := by
  induction changes generalizing o with
  | nil => exact (or_iff_right (by simp)).symm
  | cons change changes ih =>
    show k ∈ ((o.after change).run changes).cells ↔ _
    rw [ih, mem_cells_after, List.exists_mem_cons_iff, ← or_assoc, or_comm (a := ∃ _, _)]

theorem pairwise_cells (o : Occupancy) : o.cells.Pairwise Cell.ColumnsBefore :=
  Std.TreeMap.ordered_keys.imp Cell.compare_eq_lt_iff.mp

theorem nodup_cells (o : Occupancy) : o.cells.Nodup := Std.TreeMap.nodup_keys

theorem length_cells (o : Occupancy) : o.cells.length = o.size := Std.TreeMap.length_keys

/-! ### Readers -/

def listing (o : Occupancy) (ks : List Cell) : List (Cell × String) :=
  ks.flatMap fun k => (o.bucket k).toList.map (Prod.mk k)

theorem mem_listing {o : Occupancy} {ks : List Cell} {p : Cell × String} :
    p ∈ o.listing ks ↔ p.1 ∈ ks ∧ o.Holds p.1 p.2 := by
  obtain ⟨c, id⟩ := p
  rw [listing, List.mem_flatMap]
  constructor
  · rintro ⟨k, hk, hp⟩
    obtain ⟨x, hx, same⟩ := List.mem_map.mp hp
    obtain ⟨rfl, rfl⟩ := Prod.mk.inj same
    exact ⟨hk, Std.TreeSet.mem_toList.mp hx⟩
  · rintro ⟨hk, holds⟩
    exact ⟨c, hk, List.mem_map_of_mem (Std.TreeSet.mem_toList.mpr holds)⟩

/-- Among cells that are listed once, every pair is listed once. -/
theorem nodup_listing (o : Occupancy) {ks : List Cell} (once : ks.Nodup) :
    (o.listing ks).Nodup := by
  rw [listing, List.nodup_flatMap]
  constructor
  · intro k _
    have ids : (o.bucket k).toList.Nodup := Std.TreeSet.ordered_toList.imp fun before =>
      (compare_lt_iff_lt.mp before).ne
    exact ids.map fun _ _ same => (Prod.mk.inj same).2
  · refine once.imp fun {j k} apart p hj hk => apart ?_
    obtain ⟨_, -, rfl⟩ := List.mem_map.mp hj
    obtain ⟨_, -, same⟩ := List.mem_map.mp hk
    exact (Prod.mk.inj same).1.symm

/-- The readers list the ids of the pairs of a block. -/
theorem map_snd_listing (o : Occupancy) (c : Cell) :
    (o.listing c.block).map Prod.snd = o.around c := by
  simp [listing, around, List.map_flatMap]

theorem length_listing (o : Occupancy) (ks : List Cell) :
    (o.listing ks).length = (ks.map fun k => (o.bucket k).size).sum := by
  simp [listing, List.length_flatMap]

theorem values_eq_map_snd {K V : Type} [Ord K] (m : Std.TreeMap K V) :
    m.values = m.toList.map Prod.snd := by
  have fold : m.values = m.foldr (fun _ v l => v :: l) [] := rfl
  rw [fold, Std.TreeMap.foldr_eq_foldr_toList, List.map_eq_foldr]

/-- The placements are counted cell by cell. -/
theorem length_listing_cells (o : Occupancy) : (o.listing o.cells).length = o.placements := by
  have sizes : o.cells.map (fun k => (o.bucket k).size) =
      o.buckets.values.map fun ids => ids.size := by
    rw [cells, ← Std.TreeMap.map_fst_toList_eq_keys, values_eq_map_snd, List.map_map, List.map_map]
    refine List.map_congr_left fun p hp => ?_
    have kept : o.bucket? p.1 = some p.2 := Std.TreeMap.mem_toList_iff_getElem?_eq_some.mp hp
    show (o.bucket p.1).size = p.2.size
    rw [bucket, kept, Option.getD_some]
  rw [length_listing, sizes, placements, List.sum_eq_foldl]

namespace StandsFor

variable {o : Occupancy} {placed : Finset (Cell × String)}

/-- The placements are the pairs. -/
theorem placements_eq (h : o.StandsFor placed) : o.placements = placed.card := by
  have all : (o.listing o.cells).toFinset = placed := by
    ext ⟨c, id⟩
    rw [List.mem_toFinset, mem_listing, h, and_iff_right_of_imp]
    intro there
    rw [mem_cells_iff, ← Option.isSome_iff_exists]
    have holds := (h c id).mpr there
    unfold Holds bucket at holds
    cases used : o.bucket? c with
    | none => simp [used] at holds
    | some ids => rfl
  rw [← all, List.toFinset_card_of_nodup (o.nodup_listing o.nodup_cells), length_listing_cells]

/-- A bucket holds the ids of its cell, in order. -/
theorem bucket?_eq_some (h : o.StandsFor placed) {c : Cell} {ids : Std.TreeSet String}
    (used : o.bucket? c = some ids) :
    (∀ id, id ∈ ids ↔ (c, id) ∈ placed) ∧ ids.toList.Pairwise (· < ·) ∧
      ids.size = (placed.filter fun p => p.1 = c).card := by
  have own : o.bucket c = ids := by rw [bucket, used, Option.getD_some]
  have mem (id : String) : id ∈ ids ↔ (c, id) ∈ placed := by
    rw [← h, Holds, own]
  refine ⟨mem, Std.TreeSet.ordered_toList.imp compare_lt_iff_lt.mp, ?_⟩
  have pairs : (o.listing [c]).toFinset = placed.filter fun p => p.1 = c := by
    ext ⟨k, id⟩
    rw [List.mem_toFinset, mem_listing, h, List.mem_singleton, Finset.mem_filter, and_comm]
  rw [← pairs, List.toFinset_card_of_nodup (o.nodup_listing (List.nodup_singleton c)),
    length_listing, List.map_singleton, List.sum_singleton, own]

end StandsFor

end Occupancy

/-! ### An occupancy as a relation -/

/-- After any `changes`, with `placed` the pairs that they make: `o.Holds c id ↔ (c, id) ∈ placed`,
taking `id` out of `c` answers whether the two were a pair, and `o.placements = placed.card`. The
cells are those that were ever used, each of them once and in order; none of them goes, also when it
is emptied, and what `bucket?` keeps of a cell is the ids of its pairs. `o.around center` lists the
ids of the pairs of the block around `center`, each pair once. -/
theorem occupancy_is_relation (changes : List Occupancy.Change) :
    let o := Occupancy.run {} changes
    let placed := Occupancy.placed changes
    (∀ c id, o.Holds c id ↔ (c, id) ∈ placed) ∧
    (∀ c id, (o.remove c id).2 = true ↔ (c, id) ∈ placed) ∧
    o.placements = placed.card ∧
    (∀ c, c ∈ o.cells ↔ ∃ change ∈ changes, change.uses? = some c) ∧
    (∀ c ∈ o.cells, ∀ more, c ∈ (o.run more).cells) ∧
    o.cells.Pairwise Cell.ColumnsBefore ∧ o.cells.length = o.size ∧
    (∀ c, c ∈ o.cells ↔ ∃ ids, o.bucket? c = some ids) ∧
    (∀ c ids, o.bucket? c = some ids →
      (∀ id, id ∈ ids ↔ (c, id) ∈ placed) ∧ ids.toList.Pairwise (· < ·) ∧
        ids.size = (placed.filter fun p => p.1 = c).card) ∧
    ∀ center : Cell, ∃ pairs : List (Cell × String), pairs.Nodup ∧
      (∀ p, p ∈ pairs ↔ center.IsNear p.1 ∧ p ∈ placed) ∧ o.around center = pairs.map Prod.snd := by
  intro o placed
  have stands : o.StandsFor placed := Occupancy.StandsFor.empty.run changes
  refine ⟨stands, fun c id => (o.remove_snd c id).trans (stands c id), stands.placements_eq, ?_, ?_,
    o.pairwise_cells, o.length_cells, o.mem_cells_iff, fun c ids => stands.bucket?_eq_some, ?_⟩
  · intro c
    exact (Occupancy.mem_cells_run {} changes c).trans
      (or_iff_left fun none => absurd none List.not_mem_nil)
  · exact fun c used more => (o.mem_cells_run more c).mpr (Or.inr used)
  · intro center
    refine ⟨o.listing center.block, o.nodup_listing center.nodup_block, fun p => ?_,
      (o.map_snd_listing _).symm⟩
    rw [Occupancy.mem_listing, Cell.mem_block_iff_isNear, stands]

end CellWorld
