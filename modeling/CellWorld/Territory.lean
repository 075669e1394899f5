import Std.Data.TreeMap
import CellWorld.Cell.Basic

/-!
# Territory

Which node owns which cell. A cell that nobody was given belongs to the local node.

* `Territory` — the nodes that are `known` and the cells that were `given` away
* `register`, `unregister`, `assign` — the operations that change it
* `owner t c` — `t.given[c]?.getD t.localId`; `owner_register`, `owner_assign` — what two of the
  changes do to it
* `isLocal`, `info?`, `nodes`, `assignments` — the other readers

A cell can be given to a node that is not known. The map of owners that a whole sequence of changes
makes is in `Proofs.Ownership`.
-/

namespace CellWorld

/-- A node that can be reached over HTTP. -/
structure NodeInfo where
  id : String
  address : String
  port : UInt16
deriving DecidableEq

/-- Where a node takes requests to let a player in. -/
def NodeInfo.handoverPath : String := "/handover"

/-- The address of `handoverPath` at the node. -/
def NodeInfo.handoverUrl (n : NodeInfo) : String :=
  "http://" ++ n.address ++ ":" ++ String.ofList (Nat.toDigits 10 n.port.toNat) ++ handoverPath

/-- The nodes that are known, and who owns which cell. -/
structure Territory where
  localId : String
  /-- The nodes that are known, by id. -/
  known : Std.TreeMap String NodeInfo := {}
  /-- The cells that were given to another node. -/
  given : Std.TreeMap Cell String := {}

namespace Territory

/-! ### Changes -/

/-- Makes a node known, or replaces what is known of it. -/
def register (t : Territory) (info : NodeInfo) : Territory :=
  { t with known := t.known.insert info.id info }

/-- Forgets a node, takes its cells back and counts them; none for a node that is not known. -/
def unregister (t : Territory) (id : String) : Territory × Option Nat :=
  if t.known.contains id then
    let given := t.given.filter fun _ node => node != id
    ({ t with known := t.known.erase id, given }, some (t.given.size - given.size))
  else (t, none)

/-- Gives `c` to a node; giving it to the local node takes it back. -/
def assign (t : Territory) (c : Cell) (id : String) : Territory :=
  if id = t.localId then { t with given := t.given.erase c }
  else { t with given := t.given.insert c id }

/-! ### Readers -/

def owner (t : Territory) (c : Cell) : String := t.given[c]?.getD t.localId

def isLocal (t : Territory) (c : Cell) : Bool := t.given[c]?.all fun node => node == t.localId

def info? (t : Territory) (id : String) : Option NodeInfo := t.known[id]?

def nodes (t : Territory) : List NodeInfo := t.known.values

/-- The cells that were given away, in order, each with its node. -/
def assignments (t : Territory) : List (Cell × String) := t.given.toList

/-! ### What each change does to the owner -/

theorem owner_register (t : Territory) (info : NodeInfo) (c : Cell) :
    (t.register info).owner c = t.owner c := rfl

/-- Giving `c` away changes the owner of no other cell. -/
theorem owner_assign (t : Territory) (c k : Cell) (id : String) :
    (t.assign c id).owner k = if c = k then id else t.owner k := by
  unfold assign owner
  split
  · next h =>
    subst h
    simp only [Std.TreeMap.getElem?_erase, Std.LawfulEqCmp.compare_eq_iff_eq]
    split <;> rfl
  · simp only [Std.TreeMap.getElem?_insert, Std.LawfulEqCmp.compare_eq_iff_eq]
    split <;> rfl

end Territory

end CellWorld
