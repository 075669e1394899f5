import CellWorld.Json.Decode
import CellWorld.Text.Quoted
import CellWorld.World

/-!
# Restoring a player

A saved player is checked in full before anything of it is applied.

* `SavedPlayer` — what was saved
* `RestoreError` — why it is refused; `RestoreError.message?` — what is said of a refusal
* `SavedPlayer.loadout?` — the loadout of a saved player, or the first check that fails: inventory,
  skills, equipment, cooldowns, encumbrance
* `World.restore` — applies a saved player to a live one, or says why not; whether there is such a
  player is asked last

Of a saved player the place and the sections are applied; `logins`, `updated` and `version` are read
and not used. The words about the inside of a section are left open.
-/

namespace CellWorld

/-- What was saved of a player. Its sections are free-form. -/
structure SavedPlayer (α : Type) where
  pos : Point α
  logins : UInt32
  updated : UInt64
  version : Int64
  inventory : Option Json
  equipment : Option Json
  skills : Option Json
  cooldowns : Option Json
  encumbrance : Option Json

def SavedPlayer.blank {α : Type} [Scalar α] : SavedPlayer α where
  pos := .zero
  logins := 0
  updated := 0
  version := 0
  inventory := none
  equipment := none
  skills := none
  cooldowns := none
  encumbrance := none

inductive Section where
  | inventory
  | skills
  | equipment
  | cooldown
  | encumbrance
deriving DecidableEq

def Section.text : Section → String
  | .inventory => "inventory"
  | .skills => "skills"
  | .equipment => "equipment"
  | .cooldown => "cooldown"
  | .encumbrance => "encumbrance"

inductive RestoreError where
  | unknownPlayer (id : String)
  /-- A section has another shape than it should. -/
  | malformed (part : Section)
  | unknownTemplate (id : String)
deriving DecidableEq

/-- What is said of a refusal. What is wrong with the inside of a section is left open. -/
def RestoreError.message? : RestoreError → Option String
  | .unknownPlayer id => some ("player " ++ id ++ " not found")
  | .unknownTemplate id =>
    some ("inventory references unknown item template " ++ Text.quoted id)
  | .malformed .inventory => none
  | .malformed .skills => none
  | .malformed part => some ("malformed " ++ part.text ++ " data: expected a JSON object")

/-! ### Sections -/

namespace Json

/-- The fields of a record with these names. -/
def slots? (names : List String) : Json → Option (List (Slot Json))
  | .obj fields => names.mapM fun n => Slot.ofFields? fields n
  | .arr items => Slot.ofItems? names.length items
  | _ => none

def isObject : Json → Bool
  | .obj _ => true
  | _ => false

/-- The single required field of a record, read by `f`. -/
def only? {β : Type} (name : String) (f : Json → Option β) (j : Json) : Option β :=
  match j.slots? [name] with
  | some [slot] => slot.required f
  | _ => none

def text? : Json → Option String
  | .str s => some s
  | _ => none

def int64? : Json → Option Int64
  | .int n =>
    if -0x8000000000000000 ≤ n ∧ n < 0x8000000000000000 then some (Int64.ofInt n) else none
  | _ => none

def items? {β : Type} (f : Json → Option β) : Json → Option (List β)
  | .arr items => items.mapM f
  | _ => none

def template? (item : Json) : Option String := item.only? "instance" (only? "template_id" text?)

/-- The templates that an inventory refers to, in the order of its items; no items are no
templates. -/
def templates? (inventory : Json) : Option (List String) :=
  match inventory.slots? ["items"] with
  | some [slot] => slot.defaulted (items? template?) []
  | _ => none

def skills? : Json → Option (List (String × Int64))
  | .obj fields => fields.mapM fun (name, level) => level.int64?.map fun n => (name, n)
  | _ => none

end Json

namespace SavedPlayer

variable {α : Type}

/-- Refuses an inventory of another shape, or with an item that nobody knows. -/
def checkInventory (templates : List String) : Option Json → Except RestoreError Unit
  | none => .ok ()
  | some inventory =>
    match inventory.templates? with
    | none => .error (.malformed .inventory)
    | some ids =>
      match ids.find? fun id => !templates.contains id with
      | some id => .error (.unknownTemplate id)
      | none => .ok ()

/-- The skills by name; none saved are no skills. -/
def readSkills : Option Json → Except RestoreError (List (String × Int64))
  | none => .ok []
  | some skills =>
    match skills.skills? with
    | none => .error (.malformed .skills)
    | some skills => .ok skills

/-- Refuses a section that is there and is no object. -/
def checkObject (part : Section) (value : Option Json) : Except RestoreError Unit :=
  if value.all Json.isObject then .ok () else .error (.malformed part)

/-- The loadout of a saved player, or the first check that fails. -/
def loadout? (s : SavedPlayer α) (templates : List String) : Except RestoreError Loadout := do
  checkInventory templates s.inventory
  let skills ← readSkills s.skills
  checkObject .equipment s.equipment
  checkObject .cooldown s.cooldowns
  checkObject .encumbrance s.encumbrance
  return {
    inventory := s.inventory
    equipment := s.equipment
    skills
    cooldowns := s.cooldowns
    encumbrance := s.encumbrance }

end SavedPlayer

namespace World

variable {α : Type} [Scalar α]

/-- Applies a saved player to a live one: its place and its loadout. -/
def restore (w : World α) (id : String) (saved : SavedPlayer α) (templates : List String)
    (size : α) : Except RestoreError (World α) := do
  let loadout ← saved.loadout? templates
  match (w.place? id saved.pos size).bind fun w => w.amend? id fun p => { p with loadout } with
  | some w => return w
  | none => throw (.unknownPlayer id)

end World

end CellWorld
