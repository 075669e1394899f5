import CellWorld.Json.Basic
import CellWorld.Json.Tree
import CellWorld.Point

/-!
# Decoding documents

A record is written as an object, whose unknown keys are skipped and whose known keys may occur
once, or as an array of its fields in order.

* `Tree.text?`, `Tree.uint64?`, … — the plain types; a whole number is one written without a point
  and an exponent, and inside the range of its type
* `Slot` — a field as a document gives it: `given`, `noKey` or `noItem`
* `Slot.required`, `Slot.defaulted`, `Slot.optional` — what becomes of a field that is absent
* `Tree.slots? names` — the slots of a record, none if a known key occurs twice or an array is too
  long
* `Tree.oneOf?` — a name from a fixed list
* `Tree.toJson? levels` — a free-form value that nests at most `levels` deep, with its keys in order

Readers answer with an option: why a document is refused is not kept.
-/

namespace CellWorld

namespace Tree

/-! ### Plain types -/

def bool? : Tree → Option Bool
  | .bool b => some b
  | _ => none

def text? : Tree → Option String
  | .str s => s
  | _ => none

/-- A whole number of `[low, high)`. -/
def intIn? (low high : Int) : Tree → Option Int
  | .num l => l.toInt?.filter fun n => decide (low ≤ n) && decide (n < high)
  | _ => none

def uint16? (t : Tree) : Option UInt16 := (t.intIn? 0 0x10000).map fun n => UInt16.ofNat n.toNat

def uint32? (t : Tree) : Option UInt32 := (t.intIn? 0 0x100000000).map fun n => UInt32.ofNat n.toNat

def uint64? (t : Tree) : Option UInt64 := (t.intIn? 0 0x10000000000000000).map fun n => UInt64.ofNat n.toNat

def int32? (t : Tree) : Option Int32 := (t.intIn? (-0x80000000) 0x80000000).map Int32.ofInt

def int64? (t : Tree) : Option Int64 := (t.intIn? (-0x8000000000000000) 0x8000000000000000).map Int64.ofInt

/-- A finite double; whole numbers count as doubles too. -/
def float? : Tree → Option Float
  | .num l => some l.toFloat |>.filter Scalar.isFinite
  | _ => none

def point? : Tree → Option (Point Float)
  | .arr [x, y, z] => x.float?.bind fun x => y.float?.bind fun y => z.float?.map fun z => ⟨x, y, z⟩
  | _ => none

/-- Null, or what `f` reads. -/
def nullable? {β : Type} (f : Tree → Option β) : Tree → Option (Option β)
  | .null => some none
  | t => (f t).map some

/-- A name from a list, alone or as the only key of an object with the value null. -/
def oneOf? {β : Type} (names : List (String × β)) : Tree → Option β
  | .str s => s.bind fun s => names.lookup s
  | .obj [(key, .null)] => key.bind fun s => names.lookup s
  | _ => none

end Tree

/-! ### Records -/

/-- A field of a record as a document gives it. -/
inductive Slot (δ : Type) where
  | given (d : δ)
  /-- The object has no such key. -/
  | noKey
  /-- The array is too short. -/
  | noItem

namespace Slot

variable {δ β : Type}

def required (f : δ → Option β) : Slot δ → Option β
  | .given d => f d
  | _ => none

def defaulted (f : δ → Option β) (fallback : β) : Slot δ → Option β
  | .given d => f d
  | _ => some fallback

/-- A field that an object may leave out, but an array may not. -/
def optional (f : δ → Option (Option β)) : Slot δ → Option (Option β)
  | .given d => f d
  | .noKey => some none
  | .noItem => none

/-- The field of `key`, none if the key occurs twice. -/
def ofFields? [BEq β] (fields : List (β × δ)) (key : β) : Option (Slot δ) :=
  match fields.filter fun f => f.1 == key with
  | [] => some .noKey
  | [(_, d)] => some (.given d)
  | _ => none

/-- The first `count` fields of an array, none if it has more. -/
def ofItems? : (count : Nat) → List δ → Option (List (Slot δ))
  | 0, [] => some []
  | 0, _ :: _ => none
  | n + 1, [] => some (.noItem :: List.replicate n .noItem)
  | n + 1, d :: rest => (ofItems? n rest).map (.given d :: ·)

end Slot

namespace Tree

/-- The fields of a record with these names. A key that is no valid text is refused. -/
def slots? (names : List String) : Tree → Option (List (Slot Tree))
  | .obj fields =>
    if fields.all fun f => f.1.isSome then names.mapM fun n => Slot.ofFields? fields (some n) else none
  | .arr items => Slot.ofItems? names.length items
  | _ => none

end Tree

/-! ### Free-form values -/

namespace Json

/-- The fields with one more, in the order of keys; a field of the same key gives way. -/
def putField (key : String) (value : Json) : List (String × Json) → List (String × Json)
  | [] => [(key, value)]
  | (k, v) :: rest =>
    if key < k then (key, value) :: (k, v) :: rest
    else if key = k then (key, value) :: rest
    else (k, v) :: putField key value rest

/-- A number: whole where it fits in 64 bits, else the nearest double, none beyond the largest. -/
def ofLiteral? (l : Number.Literal) : Option Json :=
  match l.toInt?.filter fun n => decide (-0x8000000000000000 ≤ n) && decide (n < 0x10000000000000000) with
  | some n => some (.int n)
  | none => if Scalar.isFinite l.toFloat then some (.float l.toFloat) else none

end Json

namespace Tree

mutual

/-- A free-form value that nests at most `levels` deep. -/
def toJson? : (levels : Nat) → Tree → Option Json
  | _, .null => some .null
  | _, .bool b => some (.bool b)
  | _, .num l => Json.ofLiteral? l
  | _, .str s => s.map .str
  | 0, .arr _ => none
  | 0, .obj _ => none
  | n + 1, .arr items => (itemsToJson? n items).map .arr
  | n + 1, .obj fields => (fieldsToJson? n [] fields).map .obj

def itemsToJson? : (levels : Nat) → List Tree → Option (List Json)
  | _, [] => some []
  | n, t :: rest => (toJson? n t).bind fun j => (itemsToJson? n rest).map (j :: ·)

/-- The fields of a free-form object after those in `done`; the last of equal keys counts. -/
def fieldsToJson? : (levels : Nat) → (done : List (String × Json)) →
    List (Option String × Tree) → Option (List (String × Json))
  | _, done, [] => some done
  | n, done, (key, t) :: rest =>
    key.bind fun k => (toJson? n t).bind fun j => fieldsToJson? n (Json.putField k j done) rest

end

/-- How deep a whole document may nest where its content is kept. -/
def depthLimit : Nat := 127

end Tree

end CellWorld
