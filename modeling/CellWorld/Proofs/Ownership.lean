import Mathlib.Data.Finset.Card
import Mathlib.Data.Finset.Erase
import Mathlib.Data.Finset.Insert
import CellWorld.Proofs.Lookup
import CellWorld.Territory

/-!
# Every cell has an owner

A territory keeps two maps, `known` nodes and `given` cells, and neither has to mention what the
other one does. With `localId` they stand for a total function `owner : Cell → String`.

* `Territory.Change`, `Territory.run` — `register`, `unregister` and `assign`, one by one and in a
  row
* `Ownership`, `Ownership.after` — a finite set of nodes and a total map of owners, with what a
  change makes of them
* `Territory.Sparse` — `given` has no cell of the local node; `Sparse.given_iff`:
  `given[c]? = some id ↔ owner c = id ∧ id ≠ localId`
* `Territory.owner_unregister`, `Territory.released`, `Territory.mem_released` — the cells that a
  forgotten node gives back
* `Territory.StandsFor` — the territory has the `known` nodes and the `owner` map of an ownership;
  every change keeps it
* `territory_is_total` — the same for any list of changes, with assignments, `isLocal` and the
  answer of `unregister`

A cell may be assigned to a node that is not known; `owner` makes no difference between the two.
Whether that node exists is not a matter of the territory.
-/

namespace CellWorld

/-! ### Changes -/

inductive Territory.Change where
  | register (info : NodeInfo)
  | unregister (id : String)
  | assign (cell : Cell) (id : String)

namespace Territory

def after (t : Territory) : Change → Territory
  | .register info => t.register info
  | .unregister id => (t.unregister id).1
  | .assign cell id => t.assign cell id

def run (t : Territory) (changes : List Change) : Territory := changes.foldl after t

end Territory

/-- The abstract state: who is known, and who owns each cell of the plane. -/
structure Ownership where
  known : Finset String
  owner : Cell → String

namespace Ownership

def initial (localId : String) : Ownership := ⟨∅, fun _ => localId⟩

/-- The effect of a change: `register` adds a node, `assign` updates one cell, and `unregister` of a
known node gives its cells to the local node. -/
def after (localId : String) (o : Ownership) : Territory.Change → Ownership
  | .register info => { o with known := insert info.id o.known }
  | .unregister id =>
    if id ∈ o.known then
      { known := o.known.erase id
        owner := fun c => if o.owner c = id then localId else o.owner c }
    else o
  | .assign cell id => { o with owner := Function.update o.owner cell id }

def run (localId : String) (o : Ownership) (changes : List Territory.Change) : Ownership :=
  changes.foldl (after localId) o

end Ownership

namespace Territory

/-! ### Cells that were given away -/

/-- No local cell is kept in `given`. -/
def Sparse (t : Territory) : Prop := ∀ c : Cell, t.given[c]? ≠ some t.localId

/-- The entry of a cell is its owner, unless that is the local node. -/
theorem Sparse.given_iff {t : Territory} (h : t.Sparse) (c : Cell) (id : String) :
    t.given[c]? = some id ↔ t.owner c = id ∧ id ≠ t.localId := by
  unfold owner
  cases kept : t.given[c]? with
  | none => simp +contextual [eq_comm]
  | some node =>
    have away : node ≠ t.localId := fun back => h c (kept.trans (congrArg some back))
    simp only [Option.some.injEq, Option.getD_some, iff_self_and]
    rintro rfl
    exact away

theorem isLocal_iff (t : Territory) (c : Cell) : t.isLocal c = true ↔ t.owner c = t.localId := by
  unfold isLocal owner
  cases t.given[c]? <;> simp

theorem localId_assign (t : Territory) (c : Cell) (id : String) :
    (t.assign c id).localId = t.localId := by
  unfold assign
  split <;> rfl

/-! ### Nodes that are forgotten -/

theorem localId_unregister (t : Territory) (id : String) :
    (t.unregister id).1.localId = t.localId := by
  unfold unregister
  split <;> rfl

theorem mem_known_unregister (t : Territory) (id node : String) :
    node ∈ (t.unregister id).1.known ↔ node ∈ t.known ∧ node ≠ id := by
  unfold unregister
  split
  · show node ∈ t.known.erase id ↔ _
    rw [Std.TreeMap.mem_erase, Ne, Std.LawfulEqCmp.compare_eq_iff_eq, and_comm, eq_comm]
  · next unknown =>
    refine (and_iff_left_of_imp fun there => ?_).symm
    rintro rfl
    exact unknown (Std.TreeMap.mem_iff_contains.mp there)

/-- Forgetting an unknown node changes nothing and answers `none`. -/
theorem unregister_of_not_mem {t : Territory} {id : String} (unknown : id ∉ t.known) :
    t.unregister id = (t, none) :=
  if_neg fun there => unknown (Std.TreeMap.mem_iff_contains.mpr there)

theorem given_unregister {t : Territory} {id : String} (known : id ∈ t.known) (c : Cell) :
    (t.unregister id).1.given[c]? = t.given[c]?.filter (· != id) := by
  rw [unregister, if_pos (Std.TreeMap.mem_iff_contains.mp known)]
  exact Std.TreeMap.getElem?_filter'

/-- The owner of `c` becomes the local node if it was `id`, and stays otherwise. -/
theorem owner_unregister {t : Territory} {id : String} (known : id ∈ t.known) (c : Cell) :
    (t.unregister id).1.owner c = if t.owner c = id then t.localId else t.owner c := by
  rw [owner, given_unregister known, localId_unregister, owner]
  cases t.given[c]? with
  | none => simp
  | some node => by_cases own : node = id <;> simp [Option.filter_some, own]

/-- The cells kept for `id`, as a finite set. -/
def released (t : Territory) (id : String) : Finset Cell :=
  ((t.given.toList.filter fun p => p.2 == id).map Prod.fst).toFinset

theorem mem_released {t : Territory} {id : String} {c : Cell} :
    c ∈ t.released id ↔ t.given[c]? = some id := by
  simp [released]

theorem card_released (t : Territory) (id : String) :
    (t.released id).card = (t.given.toList.filter fun p => p.2 == id).length := by
  have distinct : ((t.given.toList.filter fun p => p.2 == id).map Prod.fst).Nodup :=
    (List.filter_sublist.map Prod.fst).nodup (by simpa using Std.TreeMap.nodup_keys)
  rw [released, List.toFinset_card_of_nodup distinct, List.length_map]

/-- The answer is the number of cells kept for `id`. -/
theorem unregister_snd {t : Territory} {id : String} (known : id ∈ t.known) :
    (t.unregister id).2 = some (t.released id).card := by
  rw [unregister, if_pos (Std.TreeMap.mem_iff_contains.mp known), card_released]
  have parts := List.length_eq_length_filter_add (l := t.given.toList) fun p => p.2 == id
  refine congrArg some ?_
  rw [← Std.TreeMap.length_toList, ← Std.TreeMap.length_toList, Std.TreeMap.toList_filter]
  simp only [bne] at parts ⊢
  omega

/-- In a sparse territory these are the cells whose owner changes. -/
theorem Sparse.mem_released_iff {t : Territory} (h : t.Sparse) {id : String} (known : id ∈ t.known)
    (c : Cell) : c ∈ t.released id ↔ (t.unregister id).1.owner c ≠ t.owner c := by
  rw [mem_released, h.given_iff, owner_unregister known]
  by_cases own : t.owner c = id
  · rw [if_pos own, own]
    simp [eq_comm]
  · simp [own]

/-! ### What a territory stands for -/

/-- The refinement relation between a territory and an ownership. -/
structure StandsFor (t : Territory) (localId : String) (o : Ownership) : Prop where
  here : t.localId = localId
  sparse : t.Sparse
  known : ∀ id, id ∈ t.known ↔ id ∈ o.known
  owner : ∀ c, t.owner c = o.owner c

namespace StandsFor

variable {t : Territory} {localId : String} {o : Ownership}

theorem initial (localId : String) : StandsFor { localId } localId (.initial localId) where
  here := rfl
  sparse c := by simp
  known id := by simp [Ownership.initial]
  owner c := by simp [Territory.owner, Ownership.initial]

theorem register (h : t.StandsFor localId o) (info : NodeInfo) :
    (t.register info).StandsFor localId (o.after localId (.register info)) where
  here := h.here
  sparse c := h.sparse c
  known id := by
    show id ∈ t.known.insert info.id info ↔ id ∈ insert info.id o.known
    rw [Std.TreeMap.mem_insert, Std.LawfulEqCmp.compare_eq_iff_eq, h.known, Finset.mem_insert,
      eq_comm]
  owner := h.owner

theorem assign (h : t.StandsFor localId o) (cell : Cell) (id : String) :
    (t.assign cell id).StandsFor localId (o.after localId (.assign cell id)) where
  here := (t.localId_assign cell id).trans h.here
  sparse c := by
    rw [localId_assign]
    unfold Territory.assign
    split
    · rw [lookup_erase]
      split
      · exact nofun
      · exact h.sparse c
    · next away =>
      rw [lookup_insert]
      split
      · exact fun back => away (Option.some.inj back)
      · exact h.sparse c
  known := by
    unfold Territory.assign
    split <;> exact h.known
  owner c := by
    show _ = Function.update o.owner cell id c
    rw [owner_assign, h.owner, Function.update_apply]
    simp only [eq_comm]

theorem unregister (h : t.StandsFor localId o) (id : String) :
    (t.unregister id).1.StandsFor localId (o.after localId (.unregister id)) := by
  simp only [Ownership.after]
  by_cases known : id ∈ t.known
  · rw [if_pos ((h.known id).mp known)]
    refine ⟨(t.localId_unregister id).trans h.here, fun c kept => ?_, fun node => ?_, fun c => ?_⟩
    · rw [given_unregister known, localId_unregister] at kept
      exact h.sparse c (Option.filter_eq_some_iff.mp kept).1
    · rw [mem_known_unregister, h.known, Finset.mem_erase, and_comm]
    · rw [owner_unregister known, h.owner, h.here]
  · rw [if_neg fun there => known ((h.known id).mpr there), unregister_of_not_mem known]
    exact h

/-- Every change keeps the relation. The cases are the constructors of `Change`. -/
theorem after (h : t.StandsFor localId o) (change : Change) :
    (t.after change).StandsFor localId (o.after localId change) := by
  cases change with
  | register info => exact h.register info
  | unregister id => exact h.unregister id
  | assign cell id => exact h.assign cell id

/-- Induction on the changes. -/
theorem run (h : t.StandsFor localId o) (changes : List Change) :
    (t.run changes).StandsFor localId (o.run localId changes) := by
  induction changes generalizing t o with
  | nil => exact h
  | cons change changes ih => exact ih (h.after change)

end StandsFor

end Territory

/-! ### Any list of changes -/

/-- Let `t` be the territory and `o` the ownership after any changes. `t.owner = o.owner`
everywhere; `given` has no local cell; `isLocal c` iff `owner c = localId`; `assignments` are
exactly the pairs `(c, owner c)` with another owner, sorted by `ColumnsBefore`; `unregister id`
answers iff `id` is known, with the number of cells whose owner it changes, and without an answer it
changes nothing. -/
theorem territory_is_total (localId : String) (changes : List Territory.Change) :
    let t := Territory.run { localId } changes
    let o := Ownership.run localId (.initial localId) changes
    (∀ c, t.owner c = o.owner c) ∧ (∀ c : Cell, t.given[c]? ≠ some localId) ∧
    (∀ c, t.isLocal c = true ↔ t.owner c = localId) ∧
    (∀ c id, (c, id) ∈ t.assignments ↔ t.owner c = id ∧ id ≠ localId) ∧
    t.assignments.Pairwise (fun a b => a.1.ColumnsBefore b.1) ∧
    ∀ id, ((t.unregister id).2.isSome ↔ id ∈ o.known) ∧
      (∀ n, (t.unregister id).2 = some n → ∃ cells : Finset Cell, cells.card = n ∧
        ∀ c, c ∈ cells ↔ (t.unregister id).1.owner c ≠ t.owner c) ∧
      ((t.unregister id).2 = none → (t.unregister id).1 = t) := by
  intro t o
  have stands : t.StandsFor localId o := (Territory.StandsFor.initial localId).run changes
  refine ⟨stands.owner, ?_, ?_, ?_, ?_, fun id => ?_⟩
  · rw [← stands.here]
    exact stands.sparse
  · rw [← stands.here]
    exact t.isLocal_iff
  · intro c id
    rw [← stands.here, ← stands.sparse.given_iff]
    exact Std.TreeMap.mem_toList_iff_getElem?_eq_some
  · exact Std.TreeMap.ordered_keys_toList.imp Cell.compare_eq_lt_iff.mp
  · rw [← stands.known]
    by_cases known : id ∈ t.known
    · rw [Territory.unregister_snd known]
      refine ⟨iff_of_true rfl known, ?_, nofun⟩
      rintro n ⟨⟩
      exact ⟨t.released id, rfl, stands.sparse.mem_released_iff known⟩
    · rw [Territory.unregister_of_not_mem known]
      exact ⟨iff_of_false nofun known, nofun, fun _ => rfl⟩

/-- Cells of a known node, of an unknown one and of the local node, which was registered as well. -/
def fourCells : List Territory.Change :=
  [.assign ⟨2, -1⟩ "b", .assign ⟨1, 7⟩ "c", .register ⟨"b", "hostB", 80⟩,
    .register ⟨"a", "hostA", 80⟩, .assign ⟨1, 0⟩ "b", .assign ⟨-3, 4⟩ "b", .assign ⟨-3, 4⟩ "a",
    .unregister "c", .unregister "a"]

/-- Forgetting `b` gives two cells back; `c` was never registered, so it is not forgotten and keeps
its cell. -/
theorem two_cells_given_back :
    let t := Territory.run { localId := "a" } fourCells
    t.assignments = [(⟨1, 0⟩, "b"), (⟨1, 7⟩, "c"), (⟨2, -1⟩, "b")] ∧
      t.isLocal ⟨-3, 4⟩ = true ∧ (t.unregister "c").2 = none ∧ (t.unregister "c").1 = t ∧
      (t.unregister "b").2 = some 2 ∧
      ∃ cells : Finset Cell, cells.card = 2 ∧
        ∀ c, c ∈ cells ↔ (t.unregister "b").1.owner c ≠ t.owner c := by
  intro t
  obtain ⟨-, -, locals, -, -, forgotten⟩ := territory_is_total "a" fourCells
  have own : t.owner ⟨-3, 4⟩ = "a" := by decide +kernel
  have unknown : (t.unregister "c").2 = none := by decide +kernel
  have counted : (t.unregister "b").2 = some 2 := by decide +kernel
  exact ⟨by decide +kernel, (locals _).mpr own, unknown, (forgotten "c").2.2 unknown, counted,
    (forgotten "b").2.1 2 counted⟩

end CellWorld
