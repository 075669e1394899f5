import Mathlib.Data.List.Forall2
import CellWorld.Restore

/-!
# The sections of a saved player

A saved player has sections of free form. Their shapes are relations here, without reference to how
they are read; the readers decide exactly these relations.

* `Json.Field name j o` — the only field of the record `j`, an object or an array, is given as `o`
* `Json.IsItem`, `Json.IsInventory`, `Json.IsSkills` — an item made from a template, a list of such
  items, and levels of 64 bits by name
* `Section.Fits part j` — `j` has the shape of the section `part`
* `Json.only?_eq_some_iff` — the reader of records with one field
* `Json.templates?_eq_some_iff`, `Json.skills?_eq_some_iff`, `Json.isObject_iff` — the readers of
  sections

A key that stands twice in a record has no shape; other keys do not matter. Sections that are only
asked to be objects may hold anything.
-/

namespace CellWorld

/-! ### What sections look like -/

namespace Json

/-- What the only field of a record is given as, none if it is left out. A record is an object,
whose other keys do not matter, or an array of at most one value. -/
inductive Field (name : String) : Json → Option Json → Prop where
  | named (fields : List (String × Json)) (j : Json)
    (here : (fields.filter fun f => f.1 == name) = [(name, j)]) : Field name (.obj fields) (some j)
  | unnamed (fields : List (String × Json)) (nowhere : ∀ f ∈ fields, f.1 ≠ name) :
    Field name (.obj fields) none
  | item (j : Json) : Field name (.arr [j]) (some j)
  | noItem : Field name (.arr []) none

/-- An item of an inventory: the field `template_id` of its field `instance` is the template. -/
def IsItem (template : String) (item : Json) : Prop :=
  ∃ inner, Field "instance" item (some inner) ∧ Field "template_id" inner (some (.str template))

/-- An inventory with items made from `ids`, in order. -/
inductive IsInventory (j : Json) : List String → Prop where
  | items (items : List Json) (ids : List String) (given : Field "items" j (some (.arr items)))
    (each : List.Forall₂ (fun item id => IsItem id item) items ids) : IsInventory j ids
  | noItems (absent : Field "items" j none) : IsInventory j []

/-- Skills by name, each at a level of 64 bits. -/
def IsSkills (j : Json) (skills : List (String × Int64)) : Prop :=
  ∃ fields, j = .obj fields ∧
    List.Forall₂ (fun f s => f.1 = s.1 ∧ f.2 = .int s.2.toInt) fields skills

end Json

def Section.Fits : Section → Json → Prop
  | .inventory, j => ∃ ids, j.IsInventory ids
  | .skills, j => ∃ skills, j.IsSkills skills
  | .equipment, j | .cooldown, j | .encumbrance, j => ∃ fields, j = .obj fields

/-! ### What the readers make of them -/

theorem mapM_eq_some_iff {β γ : Type} (f : β → Option γ) (xs : List β) (ys : List γ) :
    xs.mapM f = some ys ↔ List.Forall₂ (fun x y => f x = some y) xs ys := by
  induction xs generalizing ys with
  | nil =>
    rw [List.mapM_nil, List.forall₂_nil_left_iff]
    exact Option.some_inj.trans eq_comm
  | cons x xs ih =>
    rw [List.mapM_cons, List.forall₂_cons_left_iff]
    constructor
    · intro read
      obtain ⟨y, hy, rest⟩ := Option.bind_eq_some_iff.mp read
      obtain ⟨zs, hzs, same⟩ := Option.bind_eq_some_iff.mp rest
      exact ⟨y, zs, hy, (ih zs).mp hzs, (Option.some.inj same).symm⟩
    · rintro ⟨y, zs, hy, hzs, rfl⟩
      rw [hy, (ih zs).mpr hzs]
      rfl

namespace Json

variable {name : String} {j : Json}

/-- A field that is found under a name is there and has this name. -/
theorem mem_of_filter {fields rest : List (String × Json)} {f : String × Json}
    (found : (fields.filter fun f => f.1 == name) = f :: rest) : f ∈ fields ∧ f.1 = name := by
  have kept : f ∈ fields.filter fun f => f.1 == name := found ▸ List.mem_cons_self
  exact ⟨(List.mem_filter.mp kept).1, beq_iff_eq.mp (List.mem_filter.mp kept).2⟩

/-- The three answers of `slots? [name]`, with the relation that each stands for. -/
theorem slots?_singleton (name : String) (j : Json) :
    (∃ d, j.slots? [name] = some [.given d] ∧ Field name j (some d)) ∨
      ((j.slots? [name] = some [.noKey] ∨ j.slots? [name] = some [.noItem]) ∧ Field name j none) ∨
      (j.slots? [name] = none ∧ ∀ o, ¬ Field name j o) := by
  cases j with
  | obj fields =>
    have slots : (Json.obj fields).slots? [name] =
        (Slot.ofFields? fields name).map fun slot => [slot] := by
      rw [Json.slots?, List.mapM_cons, List.mapM_nil]
      cases Slot.ofFields? fields name <;> rfl
    rw [slots, Slot.ofFields?]
    match found : fields.filter fun f => f.1 == name with
    | [] =>
      rw [found]
      refine Or.inr (Or.inl ⟨Or.inl rfl, .unnamed fields fun f hf same => ?_⟩)
      exact List.filter_eq_nil_iff.mp found f hf (beq_iff_eq.mpr same)
    | [(key, d)] =>
      obtain rfl : key = name := (mem_of_filter found).2
      rw [found]
      exact Or.inl ⟨d, rfl, .named fields d found⟩
    | first :: second :: rest =>
      refine Or.inr (Or.inr ⟨by rw [found]; rfl, ?_⟩)
      rintro o (⟨_, d, here⟩ | ⟨_, nowhere⟩)
      · rw [here] at found
        exact List.cons_ne_nil _ _ (List.cons.inj found).2.symm
      · exact nowhere first (mem_of_filter found).1 (mem_of_filter found).2
  | arr items =>
    match items with
    | [] => exact Or.inr (Or.inl ⟨Or.inr rfl, .noItem⟩)
    | [d] => exact Or.inl ⟨d, rfl, .item d⟩
    | _ :: _ :: _ => exact Or.inr (Or.inr ⟨rfl, nofun⟩)
  | _ => exact Or.inr (Or.inr ⟨rfl, nofun⟩)

/-- A record gives its field as one thing at most. -/
theorem Field.unique {o o' : Option Json} (h : Field name j o) (h' : Field name j o') : o = o' := by
  cases h with
  | named fields d here =>
    cases h' with
    | named _ d' here' =>
      obtain ⟨same, -⟩ := List.cons.inj (here.symm.trans here')
      rw [(Prod.mk.inj same).2]
    | unnamed _ nowhere => exact absurd rfl (nowhere _ (mem_of_filter here).1)
  | unnamed fields nowhere =>
    cases h' with
    | named _ d' here' => exact absurd rfl (nowhere _ (mem_of_filter here').1)
    | unnamed _ _ => rfl
  | item d =>
    cases h'
    rfl
  | noItem =>
    cases h'
    rfl

/-- The reader `only?` finds `b` iff the field is given as some `d` with `f d = some b`. -/
theorem only?_eq_some_iff {β : Type} (name : String) (f : Json → Option β) (j : Json) (b : β) :
    j.only? name f = some b ↔ ∃ d, Field name j (some d) ∧ f d = some b := by
  rcases j.slots?_singleton name with ⟨d, slots, field⟩ | ⟨slots, field⟩ | ⟨slots, nothing⟩
  · rw [only?, slots]
    refine ⟨fun read => ⟨d, field, read⟩, ?_⟩
    rintro ⟨d', field', read⟩
    obtain rfl := Option.some.inj (field.unique field')
    exact read
  · refine iff_of_false (fun read => ?_) ?_
    · rcases slots with slots | slots <;> simp [only?, slots, Slot.required] at read
    · rintro ⟨d, field', -⟩
      exact Option.some_ne_none d (field'.unique field)
  · refine iff_of_false (fun read => ?_) fun ⟨d, field, _⟩ => nothing _ field
    simp [only?, slots] at read

theorem text?_eq_some_iff (j : Json) (s : String) : j.text? = some s ↔ j = .str s := by
  cases j <;> simp [text?]

theorem int64?_eq_some_iff (j : Json) (n : Int64) : j.int64? = some n ↔ j = .int n.toInt := by
  cases j with
  | int m =>
    rw [int64?, Json.int.injEq]
    constructor
    · intro read
      split at read
      · next range =>
        rw [← Option.some.inj read, Int64.toInt_ofInt_of_le range.1 range.2]
      · exact absurd read.symm (Option.some_ne_none n)
    · rintro rfl
      rw [if_pos ⟨n.le_toInt, n.toInt_lt⟩, Int64.ofInt_toInt]
  | _ => exact iff_of_false nofun nofun

theorem template?_eq_some_iff (j : Json) (template : String) :
    j.template? = some template ↔ IsItem template j := by
  simp only [template?, IsItem, only?_eq_some_iff, text?_eq_some_iff, exists_eq_right]

/-- The templates that are read are those of the relation. -/
theorem templates?_eq_some_iff (j : Json) (ids : List String) :
    j.templates? = some ids ↔ j.IsInventory ids := by
  rcases j.slots?_singleton "items" with ⟨d, slots, field⟩ | ⟨slots, field⟩ | ⟨slots, nothing⟩
  · simp only [templates?, slots, Slot.defaulted]
    constructor
    · intro read
      cases d with
      | arr items =>
        have each := (mapM_eq_some_iff template? items ids).mp read
        exact .items items ids field (each.imp fun i t => (template?_eq_some_iff i t).mp)
      | _ => exact absurd read.symm (Option.some_ne_none ids)
    · intro inventory
      cases inventory with
      | items items _ given each =>
        obtain rfl := Option.some.inj (field.unique given)
        exact (mapM_eq_some_iff template? items ids).mpr
          (each.imp fun i t => (template?_eq_some_iff i t).mpr)
      | noItems absent => exact absurd (field.unique absent) (Option.some_ne_none d)
  · have read : j.templates? = some [] := by
      rcases slots with slots | slots <;> rw [templates?, slots] <;> rfl
    rw [read]
    constructor
    · intro same
      obtain rfl := Option.some.inj same
      exact .noItems field
    · intro inventory
      cases inventory with
      | items items _ given each => exact absurd (given.unique field) (Option.some_ne_none _)
      | noItems absent => rfl
  · refine iff_of_false (fun read => ?_) fun inventory => ?_
    · simp [templates?, slots] at read
    · cases inventory with
      | items items _ given each => exact nothing _ given
      | noItems absent => exact nothing _ absent

/-- The skills that are read are those of the relation. -/
theorem skills?_eq_some_iff (j : Json) (skills : List (String × Int64)) :
    j.skills? = some skills ↔ j.IsSkills skills := by
  cases j with
  | obj fields =>
    have level (f : String × Json) (s : String × Int64) :
        (f.2.int64?.map fun n => (f.1, n)) = some s ↔ f.1 = s.1 ∧ f.2 = .int s.2.toInt := by
      rw [Option.map_eq_some_iff]
      constructor
      · rintro ⟨n, read, rfl⟩
        exact ⟨rfl, (int64?_eq_some_iff _ n).mp read⟩
      · rintro ⟨name, read⟩
        exact ⟨s.2, (int64?_eq_some_iff _ _).mpr read, Prod.ext name rfl⟩
    rw [skills?, mapM_eq_some_iff]
    constructor
    · exact fun each => ⟨fields, rfl, each.imp fun f s => (level f s).mp⟩
    · rintro ⟨_, same, each⟩
      obtain rfl := Json.obj.inj same
      exact each.imp fun f s => (level f s).mpr
  | _ => exact iff_of_false nofun nofun

theorem isObject_iff (j : Json) : j.isObject = true ↔ ∃ fields, j = .obj fields := by
  cases j <;> simp [isObject]

end Json

end CellWorld
