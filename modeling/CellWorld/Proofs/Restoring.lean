import CellWorld.Proofs.Housing
import CellWorld.Proofs.Lag
import CellWorld.Proofs.Sections

/-!
# Restoring a player, all of it or nothing

A restore checks a saved player first and changes the live one then. The checks are a list,
`RestoreCheck.order`, each with what it asks for and what it says when it is not passed. What a
success makes of the world is one structure, `World.Restored`, with the frame as a field.

* `World.Restored`, `World.exists_restored` — the player of `id` at `saved.pos` with its loadout,
  its id moved in the index, and everything else equal
* `RestoreCheck`, `Restoring.Passes`, `Restoring.Reports` — the seven checks, and the error of each
* `Restoring.Answers order answer` — an error iff some check of `order` fails, and then that of the
  first one
* `Restoring.answers_restore` — `World.restore` answers `RestoreCheck.order`, assembled with
  `Answers.bind`
* `restore_atomic_and_exact` — acceptance, errors and frame in every state of a host
* `p1_restored_from_arrays`, `restore_takes_bot_out_of_its_cell` — a restore from records that are
  arrays, and a player with the id of a bot

In the index only `id` is moved, so if a bot has the id too, the bot's membership moves as well: the
last part of `restore_atomic_and_exact` is about runs in which `id` was not used to name a bot, and
`restore_takes_bot_out_of_its_cell` is one in which it was.
-/

namespace CellWorld

variable {σ α : Type}

/-! ### A world with one player restored in it -/

/-- If a bind is `.ok`, so is its first part. -/
theorem exists_of_bind_eq_ok {ε β γ : Type} {first : Except ε β} {next : β → Except ε γ} {c : γ}
    (h : (first >>= next) = .ok c) : ∃ b, first = .ok b ∧ next b = .ok c := by
  cases first with
  | error e => cases h
  | ok b => exact ⟨b, rfl, h⟩

namespace SavedPlayer

def loadoutWith (s : SavedPlayer α) (skills : List (String × Int64)) : Loadout where
  inventory := s.inventory
  equipment := s.equipment
  skills
  cooldowns := s.cooldowns
  encumbrance := s.encumbrance

/-- The skills that were saved; no section stands for no skills. -/
def HasSkills (s : SavedPlayer α) (skills : List (String × Int64)) : Prop :=
  match s.skills with
  | none => skills = []
  | some j => j.IsSkills skills

theorem hasSkills_of_readSkills {s : SavedPlayer α} {skills : List (String × Int64)}
    (h : readSkills s.skills = .ok skills) : s.HasSkills skills := by
  unfold readSkills at h
  unfold HasSkills
  cases here : s.skills with
  | none =>
    rw [here] at h
    exact (Except.ok.inj h).symm
  | some j =>
    simp only [here] at h
    cases read : j.skills? with
    | none => simp [read] at h
    | some found =>
      simp only [read] at h
      obtain rfl := Except.ok.inj h
      exact (Json.skills?_eq_some_iff j found).mp read

/-- On success the loadout consists of the saved sections and the skills read from them. -/
theorem loadout?_eq_ok {s : SavedPlayer α} {templates : List String} {loadout : Loadout}
    (h : s.loadout? templates = .ok loadout) :
    ∃ skills, s.HasSkills skills ∧ loadout = s.loadoutWith skills := by
  obtain ⟨_, -, h⟩ := exists_of_bind_eq_ok h
  obtain ⟨skills, read, h⟩ := exists_of_bind_eq_ok h
  obtain ⟨_, -, h⟩ := exists_of_bind_eq_ok h
  obtain ⟨_, -, h⟩ := exists_of_bind_eq_ok h
  obtain ⟨_, -, h⟩ := exists_of_bind_eq_ok h
  exact ⟨skills, hasSkills_of_readSkills read, (Except.ok.inj h).symm⟩

end SavedPlayer

namespace World

variable [Scalar α]

/-- The player after a restore: position, owned cell and loadout are new, all else is kept. -/
def restoredPlayer (p : Player α) (saved : SavedPlayer α) (size : α) (loadout : Loadout) :
    Player α :=
  { p with pos := saved.pos, ownedCell := Cell.containing saved.pos size, loadout }

/-- The restore as a bind of its checks and of the change, which moves the player first and gives it
the loadout then. -/
theorem restore_eq (w : World α) (id : String) (saved : SavedPlayer α) (templates : List String)
    (size : α) :
    w.restore id saved templates size = (saved.loadout? templates >>= fun loadout =>
      match w.players[id]? with
      | none => .error (.unknownPlayer id)
      | some p =>
        let placed := w.commit id p.ownedCell (restoredPlayer p saved size p.loadout)
        .ok { placed with
          players := placed.players.insert id (restoredPlayer p saved size loadout) }) := by
  refine bind_congr fun loadout => ?_
  cases hp : w.players[id]? with
  | none => simp only [place?, hp]; rfl
  | some p =>
    simp only [place?, amend?, commit, hp, Option.map_some, Option.bind_some,
      Std.TreeMap.getElem?_insert_self]
    rfl

/-- What a restore makes of a world. `rest` is the frame: with the old `players` and `cells` put
back, it is `w` again. -/
structure Restored (w : World α) (id : String) (saved : SavedPlayer α) (size : α) (p : Player α)
    (skills : List (String × Int64)) (w' : World α) : Prop where
  players : ∀ x, w'.players[x]? =
    if id = x then some (restoredPlayer p saved size (saved.loadoutWith skills)) else w.players[x]?
  cells : w'.cells = w.cells.move id p.ownedCell (Cell.containing saved.pos size)
  rest : { w' with players := w.players, cells := w.cells } = w

namespace Restored

variable {w w' : World α} {id : String} {saved : SavedPlayer α} {size : α} {p : Player α}
  {skills : List (String × Int64)}

/-- The index holds other ids where it did. -/
theorem holds_of_ne (h : w.Restored id saved size p skills w') {x : String} (other : x ≠ id)
    (k : Cell) : w'.cells.Holds k x ↔ w.cells.Holds k x := by
  rw [h.cells, Occupancy.holds_move]
  simp [Ne.symm other]

/-- If the player was `Housed`, the index holds it in the cell of `saved.pos` and nowhere else. -/
theorem holds_iff (h : w.Restored id saved size p skills w') (hp : w.players[id]? = some p)
    (housed : w.Housed id) (k : Cell) :
    w'.cells.Holds k id ↔ k = Cell.containing saved.pos size := by
  have here : w.cells.Holds k id ↔ p.ownedCell = k := by
    rw [housed.holds_iff, playerHome?, hp, Option.map_some, Option.some_inj]
  rw [h.cells, Occupancy.holds_move, here]
  split
  · next same => rw [same, eq_comm]
  · simp only [and_true, and_not_self, or_false]
    exact eq_comm

end Restored

/-- A restore that succeeds has found its player, and satisfies `Restored`. -/
theorem exists_restored {w w' : World α} {id : String} {saved : SavedPlayer α}
    {templates : List String} {size : α} (h : w.restore id saved templates size = .ok w') :
    ∃ p skills, w.players[id]? = some p ∧ saved.HasSkills skills ∧
      w.Restored id saved size p skills w' := by
  rw [restore_eq] at h
  obtain ⟨loadout, checked, h⟩ := exists_of_bind_eq_ok h
  obtain ⟨skills, own, rfl⟩ := SavedPlayer.loadout?_eq_ok checked
  cases hp : w.players[id]? with
  | none => simp [hp] at h
  | some p =>
    simp only [hp] at h
    obtain rfl := Except.ok.inj h
    refine ⟨p, skills, rfl, own, fun x => ?_, rfl, rfl⟩
    simp only [commit, lookup_insert]
    split <;> rfl

end World

/-! ### Checks -/

/-- The checks of a restore: shapes of sections, templates of items, and the presence of the
player. -/
inductive RestoreCheck where
  | shape (part : Section)
  | templates
  | player

namespace RestoreCheck

/-- The checks in the order of the code. -/
def order : List RestoreCheck :=
  [.shape .inventory, .templates, .shape .skills, .shape .equipment, .shape .cooldown,
    .shape .encumbrance, .player]

end RestoreCheck

def SavedPlayer.part (s : SavedPlayer α) : Section → Option Json
  | .inventory => s.inventory
  | .skills => s.skills
  | .equipment => s.equipment
  | .cooldown => s.cooldowns
  | .encumbrance => s.encumbrance

structure Restoring (α : Type) where
  world : World α
  id : String
  saved : SavedPlayer α
  templates : List String

namespace Restoring

variable (q : Restoring α)

/-- Whether a check is passed. An absent section passes. -/
def Passes : RestoreCheck → Prop
  | .shape part => ∀ j, q.saved.part part = some j → part.Fits j
  | .templates => ∀ j ids, q.saved.inventory = some j → j.IsInventory ids → ∀ t ∈ ids, t ∈ q.templates
  | .player => q.id ∈ q.world.players

/-- The error of a check that is not passed; of unknown templates, the first. -/
def Reports : RestoreCheck → RestoreError → Prop
  | .shape part, e => e = .malformed part
  | .templates, e => ∃ j known t rest, q.saved.inventory = some j ∧
    j.IsInventory (known ++ t :: rest) ∧ (∀ u ∈ known, u ∈ q.templates) ∧ t ∉ q.templates ∧
      e = .unknownTemplate t
  | .player, e => e = .unknownPlayer q.id

/-- An answer of checks made one after the other: `.ok` after all are passed, and an error from the
first that is not. -/
structure Answers {β : Type} (order : List RestoreCheck) (answer : Except RestoreError β) :
    Prop where
  passed : ∀ b, answer = .ok b → ∀ c ∈ order, q.Passes c
  failed : ∀ e, answer = .error e → ∃ before c after, order = before ++ c :: after ∧
    (∀ c' ∈ before, q.Passes c') ∧ ¬ q.Passes c ∧ q.Reports c e

namespace Answers

variable {q} {β γ : Type}

/-- Checks in sequence: the orders are appended. -/
theorem bind {order order' : List RestoreCheck} {first : Except RestoreError β}
    {next : β → Except RestoreError γ} (h : q.Answers order first)
    (h' : ∀ b, q.Answers order' (next b)) : q.Answers (order ++ order') (first >>= next) := by
  cases first with
  | error e =>
    refine ⟨fun b answer => ?_, fun e' answer => ?_⟩
    · cases answer
    · obtain ⟨before, c, after, split, earlier, here⟩ := h.failed e rfl
      obtain rfl : e = e' := Except.error.inj answer
      exact ⟨before, c, after ++ order', by rw [split]; simp, earlier, here⟩
  | ok b =>
    have all := h.passed b rfl
    refine ⟨fun g answer c hc => ?_, fun e answer => ?_⟩
    · rcases List.mem_append.mp hc with early | late
      · exact all c early
      · exact (h' b).passed g answer c late
    · obtain ⟨before, c, after, split, earlier, here⟩ := (h' b).failed e answer
      refine ⟨order ++ before, c, after, by rw [split, List.append_assoc], fun c' hc' => ?_, here⟩
      rcases List.mem_append.mp hc' with early | late
      · exact all c' early
      · exact earlier c' late

theorem ok (b : β) : q.Answers [] (.ok b) := ⟨fun _ _ => nofun, nofun⟩

/-- An answer after a single check that passes. -/
theorem of_passes {c : RestoreCheck} (passes : q.Passes c) (b : β) : q.Answers [c] (.ok b) :=
  ⟨fun _ _ => List.forall_mem_singleton.mpr passes, nofun⟩

/-- An error from a single check that fails. -/
theorem of_fails {c : RestoreCheck} {e : RestoreError} (fails : ¬ q.Passes c)
    (report : q.Reports c e) : q.Answers [c] (.error e : Except RestoreError β) := by
  refine ⟨nofun, fun e' answer => ?_⟩
  obtain rfl := Except.error.inj answer
  exact ⟨[], c, [], rfl, nofun, fails, report⟩

/-- The answer is `.ok` iff every check passes. -/
theorem isOk_iff {order : List RestoreCheck} {answer : Except RestoreError β}
    (h : q.Answers order answer) : answer.isOk = true ↔ ∀ c ∈ order, q.Passes c := by
  cases answer with
  | ok b => exact iff_of_true rfl (h.passed b rfl)
  | error e =>
    obtain ⟨before, c, after, split, -, fails, -⟩ := h.failed e rfl
    exact iff_of_false Bool.false_ne_true fun all =>
      fails (all c (split ▸ List.mem_append_right _ List.mem_cons_self))

end Answers

/-- The shape of an inventory is passed iff its templates can be read. -/
theorem passes_shape_inventory {j : Json} (here : q.saved.inventory = some j) :
    q.Passes (.shape .inventory) ↔ ∃ ids, j.templates? = some ids := by
  simp only [Json.templates?_eq_some_iff]
  constructor
  · exact fun passes => passes j here
  · intro fits j' here'
    exact Option.some.inj (here.symm.trans here') ▸ fits

/-- The templates are passed iff all that were read are known. -/
theorem passes_templates {j : Json} {ids : List String} (here : q.saved.inventory = some j)
    (given : j.templates? = some ids) : q.Passes .templates ↔ ∀ t ∈ ids, t ∈ q.templates := by
  constructor
  · exact fun passes => passes j ids here ((Json.templates?_eq_some_iff j ids).mp given)
  · intro known j' ids' here' inventory
    obtain rfl := Option.some.inj (here.symm.trans here')
    have same := ((Json.templates?_eq_some_iff j ids').mpr inventory).symm.trans given
    exact Option.some.inj same ▸ known

/-- The search for an unknown template finds none, or the first with known ones before it. -/
theorem find?_unknown (templates ids : List String) :
    (ids.find? fun id => !templates.contains id) = none ∧ (∀ t ∈ ids, t ∈ templates) ∨
      ∃ known t rest, (ids.find? fun id => !templates.contains id) = some t ∧
        ids = known ++ t :: rest ∧ (∀ u ∈ known, u ∈ templates) ∧ t ∉ templates := by
  cases found : ids.find? fun id => !templates.contains id with
  | none => exact Or.inl ⟨rfl, fun t ht => by simpa using List.find?_eq_none.mp found t ht⟩
  | some t =>
    obtain ⟨unknown, known, rest, split, earlier⟩ := List.find?_eq_some_iff_append.mp found
    refine Or.inr ⟨known, t, rest, rfl, split, fun u hu => ?_, by simpa using unknown⟩
    simpa using earlier u hu

/-- An inventory is checked for its shape, then for its templates. -/
theorem answers_inventory :
    q.Answers [.shape .inventory, .templates]
      (SavedPlayer.checkInventory q.templates q.saved.inventory) := by
  unfold SavedPlayer.checkInventory
  cases here : q.saved.inventory with
  | none =>
    refine ⟨fun _ _ c hc => ?_, nofun⟩
    have absent (j : Json) : q.saved.inventory ≠ some j := here ▸ nofun
    rcases List.mem_pair.mp hc with rfl | rfl
    · exact fun j given => absurd given (absent j)
    · exact fun j _ given => absurd given (absent j)
  | some j =>
    dsimp only
    cases given : j.templates? with
    | none =>
      refine ⟨nofun, fun e answer => ?_⟩
      obtain rfl := Except.error.inj answer
      refine ⟨[], .shape .inventory, [.templates], rfl, nofun, fun passes => ?_, rfl⟩
      obtain ⟨ids, read⟩ := (q.passes_shape_inventory here).mp passes
      exact Option.some_ne_none ids (read.symm.trans given)
    | some ids =>
      have shape := (q.passes_shape_inventory here).mpr ⟨ids, given⟩
      dsimp only
      rcases find?_unknown q.templates ids with
        ⟨found, all⟩ | ⟨known, t, rest, found, split, earlier, unknown⟩
      · rw [found]
        refine ⟨fun _ _ c hc => ?_, nofun⟩
        rcases List.mem_pair.mp hc with rfl | rfl
        · exact shape
        · exact (q.passes_templates here given).mpr all
      · rw [found]
        refine ⟨nofun, fun e answer => ?_⟩
        obtain rfl := Except.error.inj answer
        refine ⟨[.shape .inventory], .templates, [], rfl, List.forall_mem_singleton.mpr shape, ?_, ?_⟩
        · rw [q.passes_templates here given, split]
          exact fun all => unknown (all t (by simp))
        · have inventory := (Json.templates?_eq_some_iff j ids).mp given
          exact ⟨j, known, t, rest, here, split ▸ inventory, earlier, unknown, rfl⟩

theorem answers_skills : q.Answers [.shape .skills] (SavedPlayer.readSkills q.saved.skills) := by
  unfold SavedPlayer.readSkills
  cases here : q.saved.skills with
  | none =>
    have passes : q.Passes (.shape .skills) := fun j given => absurd (here.symm.trans given) nofun
    exact .of_passes passes []
  | some j =>
    dsimp only
    cases read : j.skills? with
    | none =>
      refine .of_fails (fun passes => ?_) rfl
      obtain ⟨skills, fits⟩ := passes j here
      rw [(Json.skills?_eq_some_iff j skills).mpr fits] at read
      exact Option.some_ne_none skills read
    | some skills =>
      have passes : q.Passes (.shape .skills) := by
        intro j' here'
        obtain rfl := Option.some.inj (here.symm.trans here')
        exact ⟨skills, (Json.skills?_eq_some_iff j skills).mp read⟩
      exact .of_passes passes skills

theorem answers_object (part : Section) (free : ∀ j, part.Fits j ↔ ∃ fields, j = .obj fields) :
    q.Answers [.shape part] (SavedPlayer.checkObject part (q.saved.part part)) := by
  unfold SavedPlayer.checkObject
  split
  · next all =>
    have passes : q.Passes (.shape part) := by
      intro j here
      rw [here, Option.all_some] at all
      exact (free j).mpr (j.isObject_iff.mp all)
    exact .of_passes passes ()
  · next other =>
    refine .of_fails (fun passes => other ?_) rfl
    cases here : q.saved.part part with
    | none => rfl
    | some j => exact j.isObject_iff.mpr ((free j).mp (passes j here))

/-- The loadout answers all checks but that of the player. -/
theorem answers_loadout :
    q.Answers [.shape .inventory, .templates, .shape .skills, .shape .equipment, .shape .cooldown,
      .shape .encumbrance] (q.saved.loadout? q.templates) :=
  q.answers_inventory.bind fun _ => q.answers_skills.bind fun _ =>
    (q.answers_object .equipment fun _ => Iff.rfl).bind fun _ =>
      (q.answers_object .cooldown fun _ => Iff.rfl).bind fun _ =>
        (q.answers_object .encumbrance fun _ => Iff.rfl).bind fun _ => .ok _

variable [Scalar α]

/-- The restore answers all checks, the player last. -/
theorem answers_restore (size : α) :
    q.Answers RestoreCheck.order (q.world.restore q.id q.saved q.templates size) := by
  rw [World.restore_eq]
  refine q.answers_loadout.bind fun loadout => ?_
  have there : q.Passes .player ↔ (q.world.players[q.id]?).isSome = true :=
    Std.TreeMap.mem_iff_isSome_getElem?
  cases hp : q.world.players[q.id]? with
  | none => exact .of_fails (fun passes => by simp [hp] at there; exact there passes) rfl
  | some p => exact .of_passes (there.mpr (hp ▸ rfl)) _

end Restoring

/-- The engine and the host follow the world: unchanged on error, with the new world on success. -/
theorem Host.restore_cases [Angular α] (h : Host σ α) (id : String) (saved : SavedPlayer α)
    (templates : List String) :
    (∃ error, h.world.restore id saved templates h.engine.settings.cellSize = .error error ∧
      h.engine.restore id saved templates = .error error ∧
      h.perform (.restore id saved templates) = h) ∨
    ∃ world, h.world.restore id saved templates h.engine.settings.cellSize = .ok world ∧
      h.engine.restore id saved templates = .ok { h.engine with world } ∧
      h.perform (.restore id saved templates) = { h with engine := { h.engine with world } } := by
  simp only [Host.perform, Engine.restore, Host.world]
  cases h.engine.world.restore id saved templates h.engine.settings.cellSize with
  | error error => exact Or.inl ⟨error, rfl, rfl, rfl⟩
  | ok world => exact Or.inr ⟨world, rfl, rfl, rfl⟩

/-! ### Acceptance, errors and frame -/

section Whole

variable [Angular α]

/-- In every state `h`. The restore succeeds iff all checks of `RestoreCheck.order` pass. An error
leaves `h` as it is and is what the first failing check reports. On success only the world changes,
and by `Restored`: position, owned cell and loadout of one player, and its id in the index; so every
other id is held where it was. If `h` comes of a run in which `id` is not `Named`, no bot has the id
and the index holds it in the cell of `saved.pos` alone. -/
theorem restore_atomic_and_exact (h : Host σ α) (id : String) (saved : SavedPlayer α)
    (templates : List String) :
    let size := h.engine.settings.cellSize
    let q : Restoring α := ⟨h.world, id, saved, templates⟩
    let answer := h.engine.restore id saved templates
    let after := h.perform (.restore id saved templates)
    (answer.isOk = true ↔ ∀ c ∈ RestoreCheck.order, q.Passes c) ∧
    (∀ error, answer = .error error → after = h ∧
      ∃ before c rest, RestoreCheck.order = before ++ c :: rest ∧
        (∀ c' ∈ before, q.Passes c') ∧ ¬ q.Passes c ∧ q.Reports c error) ∧
    ∀ engine, answer = .ok engine → after = { h with engine } ∧
      { engine with world := h.world } = h.engine ∧
      ∃ p skills, h.world.players[id]? = some p ∧ saved.HasSkills skills ∧
        h.world.Restored id saved size p skills engine.world ∧
        (∀ k x, x ≠ id → (engine.world.cells.Holds k x ↔ h.world.cells.Holds k x)) ∧
        ∀ settings chance source os, h = (Host.create settings chance source).run os →
          ¬ h.world.Named id → h.world.bots[id]? = none ∧
            ∀ k, engine.world.cells.Holds k id ↔ k = Cell.containing saved.pos size := by
  intro size q answer after
  have answers : q.Answers RestoreCheck.order (h.world.restore id saved templates size) :=
    q.answers_restore size
  rcases h.restore_cases id saved templates with
    ⟨error, made, answered, same⟩ | ⟨world, made, answered, changed⟩
  · rw [made] at answers
    simp only [answer, after, answered, same]
    refine ⟨answers.isOk_iff, fun error' failed => ⟨trivial, answers.failed error' ?_⟩, nofun⟩
    exact congrArg Except.error (Except.error.inj failed)
  · obtain ⟨p, skills, hp, own, restored⟩ := World.exists_restored made
    rw [made] at answers
    simp only [answer, after, answered, changed]
    refine ⟨answers.isOk_iff, nofun, fun engine succeeded => ?_⟩
    obtain rfl := Except.ok.inj succeeded
    refine ⟨rfl, rfl, p, skills, hp, own, restored, fun k x other => restored.holds_of_ne other k, ?_⟩
    rintro settings chance source os rfl unnamed
    have housed := Host.housed_run settings chance source os id unnamed
    exact ⟨Option.map_eq_none_iff.mp housed.noBot, restored.holds_iff hp housed⟩

/-- A saved player whose records are arrays: the items are made from known templates, the skills are
those saved, and the other player stays. -/
theorem p1_restored_from_arrays :
    let joined := (Host.create tenMetres (.ofSeed 1) () : Host Unit ℚ).run
      [.upsert "p1" "one" ⟨5, 0, 5⟩ ⟨0, 0, 0⟩, .upsert "p2" "two" ⟨6, 0, 5⟩ ⟨0, 0, 0⟩]
    let sword : Json := .arr [.arr [.str "sword"]]
    let potion : Json := .obj [("instance", .obj [("template_id", .str "potion")])]
    let saved : SavedPlayer ℚ := { (SavedPlayer.blank : SavedPlayer ℚ) with
      pos := ⟨25, 0, 5⟩
      inventory := some (.arr [.arr [sword, potion]])
      skills := some (.obj [("mining", .int 12)]) }
    let after := joined.perform (.restore "p1" saved ["potion", "sword"])
    (∃ q, after.world.players["p1"]? = some q ∧ q.ownedCell = ⟨2, 0⟩ ∧
      q.loadout.skills = [("mining", 12)]) ∧
      after.world.players["p2"]? = joined.world.players["p2"]? ∧
      (∀ k, after.world.cells.Holds k "p1" ↔ k = ⟨2, 0⟩) ∧
      ∀ k, after.world.cells.Holds k "p2" ↔ joined.world.cells.Holds k "p2" := by
  intro joined sword potion saved after
  obtain ⟨-, -, success⟩ := restore_atomic_and_exact joined "p1" saved ["potion", "sword"]
  have granted : (joined.engine.restore "p1" saved ["potion", "sword"]).isOk = true := by
    decide +kernel
  cases answer : joined.engine.restore "p1" saved ["potion", "sword"] with
  | error error =>
    rw [answer] at granted
    exact absurd granted Bool.false_ne_true
  | ok engine =>
    obtain ⟨changed, -, p, skills, -, own, restored, others, index⟩ := success engine answer
    have here : Cell.containing saved.pos joined.engine.settings.cellSize = ⟨2, 0⟩ := by
      decide +kernel
    have mining : skills = [("mining", 12)] := by
      obtain ⟨_, same, each⟩ := own
      obtain rfl := Json.obj.inj same
      obtain ⟨⟨name, n⟩, rest, ⟨rfl, level⟩, none, rfl⟩ := List.forall₂_cons_left_iff.mp each
      obtain rfl := List.forall₂_nil_left_iff.mp none
      have twelve : (12 : Int64).toInt = n.toInt := Json.int.inj level
      rw [Int64.toInt_inj.mp twelve]
    have unnamed : ¬ joined.world.Named "p1" := by
      rintro ⟨n, -, -, name⟩
      exact unreserved_of_head (by decide) n name
    rw [show after.world = engine.world from congrArg Host.world changed]
    refine ⟨⟨_, (restored.players "p1").trans (if_pos rfl), here, mining⟩, ?_, fun k => ?_,
      fun k => others k "p2" (by decide)⟩
    · exact (restored.players "p2").trans (if_neg (by decide))
    · rw [← here]
      exact (index tenMetres (.ofSeed 1) () _ rfl unnamed).2 k

/-- The player `bot-1` is restored in `(2, 0)`; the bot of that name is owned by `(0, 0)` and no
longer held there. -/
theorem restore_takes_bot_out_of_its_cell :
    let joined := (Host.create { tenMetres with targetDensity := 3 } (.ofSeed 1) () :
      Host Unit ℚ).run [.upsert "bot-1" "one" ⟨5, 0, 5⟩ ⟨0, 0, 0⟩, .maintainDensity]
    let saved : SavedPlayer ℚ := { (SavedPlayer.blank : SavedPlayer ℚ) with pos := ⟨25, 0, 5⟩ }
    let after := joined.perform (.restore "bot-1" saved [])
    joined.world.botHome? "bot-1" = some ⟨0, 0⟩ ∧ joined.world.cells.Holds ⟨0, 0⟩ "bot-1" ∧
      after.world.botHome? "bot-1" = some ⟨0, 0⟩ ∧ ¬ after.world.cells.Holds ⟨0, 0⟩ "bot-1" := by
  intro joined saved after
  have held : (joined.world.cells.bucket ⟨0, 0⟩).contains "bot-1" = true := by decide +kernel
  have gone : (after.world.cells.bucket ⟨0, 0⟩).contains "bot-1" = false := by decide +kernel
  refine ⟨by decide +kernel, Std.TreeSet.mem_iff_contains.mpr held, by decide +kernel, fun holds => ?_⟩
  rw [Std.TreeSet.mem_iff_contains.mp holds] at gone
  exact Bool.false_ne_true gone.symm

end Whole

end CellWorld
