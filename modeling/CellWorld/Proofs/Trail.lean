import CellWorld.Proofs.Chronicle
import CellWorld.Proofs.Lag

/-!
# The cell that a player has just left

A player keeps a cell in mind besides the one that owns it, `prevCell`, and the margin toward that
cell is doubled. An observer who sees which cell owns the player, and which cell it had when it came
from another node, can tell which cell owned it just before. The two agree as long as the player
walks; a player that is put into another cell by `upsert` or `restore` keeps `prevCell`.

* `Trail`, `Trail.next`, `Host.trail` — the observer: `former`, the cell that owned the player just
  before; `walked`, the same when it last came in or walked; and `jumped`, whether it was put
  elsewhere since
* `Trail.Tells t cells` — `prevCell = t.walked`, `t.former ≠ some ownedCell`, and `former = walked`
  unless `jumped`
* `Host.tells_step`, `Host.tells_place`, `Host.tells_perform`, `Host.tells_trail` — every operation
  and every run keeps it
* `Host.home_step` — the owned cell after a step, by `leftBeyond` with
  `marginToward target p.prevCell`
* `doubled_toward_cell_just_left` — `prevCell` and the next step of every player after any run
* `jump_back_forgets_cell_just_left` — a player that was put back into the cell it has walked from

Without the premise `t.jumped = false` the margin is doubled toward `walked` and not toward
`former`; `jump_back_forgets_cell_just_left` is a player for which this makes a difference.
-/

namespace CellWorld

variable {σ α : Type}

/-! ### The observer -/

/-- Where a player was, as an observer tells it who sees the cells that own it. -/
structure Trail where
  /-- The cell that owned the player just before the one that owns it now, here or, if it has come
  from another node since, there. -/
  former : Option Cell := none
  /-- The same, when the player last came in or walked from one cell to another. -/
  walked : Option Cell := none
  /-- Whether the player was put into another cell after that. -/
  jumped : Bool := false
deriving DecidableEq

namespace Trail

/-- The trail of a player that has come in, or has walked into a cell. -/
def entered (former : Option Cell) : Trail := { former, walked := former }

end Trail

namespace Operation

/-- The cell that the player of `id` had at the node it comes from, for `receive`. -/
def origin? (id : String) : Operation σ α → Option Cell
  | receive d => if d.id = id then some d.ownedCell else none
  | _ => none

/-- Whether players walk in the operation. All others put them somewhere, or leave them. -/
def walks : Operation σ α → Bool
  | step _ _ => true
  | _ => false

end Operation

/-- The trail of `id` after an operation, from the cells that own it before and after. Coming from
another node starts it anew; walking renews it; any other change of cells sets `former` and `jumped`
alone. -/
def Trail.next (o : Operation σ α) (id : String) (t : Trail) (before : Option Cell) :
    Option Cell → Trail
  | none => {}
  | some cell =>
    match o.origin? id, before with
    | some origin, _ => .entered (if origin = cell then none else some origin)
    | none, none => .entered none
    | none, some old =>
      if old = cell then t
      else if o.walks then .entered (some old)
      else { t with former := some old, jumped := true }

/-- The trail of `id` along single operations. -/
def Host.trail [Angular α] (h : Host σ α) (id : String) : List (Operation σ α) → Trail → Trail
  | [], t => t
  | o :: os, t =>
    (h.perform o).trail id os
      (t.next o id (h.world.playerHome? id) ((h.perform o).world.playerHome? id))

/-! ### The observer and the player -/

/-- What the observer knows of the owned cell and `prevCell` of a player. -/
inductive Trail.Tells : Trail → Option (Cell × Option Cell) → Prop where
  | nobody : Tells {} none
  | owned (t : Trail) (cell : Cell) (other : t.former ≠ some cell)
    (agree : t.jumped = false → t.former = t.walked) : Tells t (some (cell, t.walked))

namespace Trail.Tells

variable {o : Operation σ α} {id : String} {t : Trail} {cells : Option (Cell × Option Cell)}

theorem of_some {cell : Cell} {prev : Option Cell} (h : t.Tells (some (cell, prev))) :
    prev = t.walked ∧ t.former ≠ some cell ∧ (t.jumped = false → t.former = t.walked) := by
  cases h with
  | owned t cell other agree => exact ⟨rfl, other, agree⟩

/-- A player that has come in or walked: the three agree. -/
theorem entered {former : Option Cell} {cell : Cell} (other : former ≠ some cell) :
    (Trail.entered former).Tells (some (cell, former)) :=
  .owned (.entered former) cell other fun _ => rfl

/-- An operation that leaves both cells leaves the trail. -/
theorem next_same (h : t.Tells cells) (here : o.origin? id = none) :
    (t.next o id (cells.map Prod.fst) (cells.map Prod.fst)).Tells cells := by
  cases h with
  | nobody => exact .nobody
  | owned t cell other agree =>
    simp only [Option.map_some, next, here, if_true]
    exact .owned t cell other agree

/-- A player that is put into a cell keeps `prevCell`, and the trail keeps `walked`. -/
theorem next_placed (h : t.Tells cells) (here : o.origin? id = none) (puts : o.walks = false)
    (cell : Cell) :
    (t.next o id (cells.map Prod.fst) (some cell)).Tells (some (cell, cells.bind Prod.snd)) := by
  cases h with
  | nobody =>
    simp only [Option.map_none, next, here]
    exact .entered nofun
  | owned t old other agree =>
    simp only [Option.map_some, Option.bind_some, next, here, puts]
    split
    · next same =>
      subst same
      exact .owned t old other agree
    · next moves => exact .owned _ cell (fun stays => moves (Option.some.inj stays)) nofun

/-- A player that is received has `prevCell` from its payload, and so has the trail. -/
theorem next_received {origin cell : Cell} (there : o.origin? id = some origin)
    (before : Option Cell) :
    (t.next o id before (some cell)).Tells
      (some (cell, if origin = cell then none else some origin)) := by
  simp only [next, there]
  refine .entered ?_
  split
  · exact nofun
  · next moves => exact fun stays => moves (Option.some.inj stays)

end Trail.Tells

/-- An arrival by `upsert` keeps `prevCell`. -/
theorem Player.cells_arrived [Scalar α] (before : Option (Player α)) (id name : String)
    (pos vel : Point α) (cell : Cell) :
    (Player.arrived before id name pos vel cell).cells =
      (cell, (before.map Player.cells).bind Prod.snd) := by
  cases before <;> rfl

/-- An arrival by `receive` sets `prevCell` to the cell that it had, if that is another one. -/
theorem Player.cells_received [Scalar α] (before : Option (Player α)) (d : Payload α) (cell : Cell) :
    (Player.received before d cell).cells =
      (cell, if d.ownedCell = cell then none else some d.ownedCell) :=
  Prod.ext (Player.ownedCell_arrived before d.id d.name d.pos d.vel cell) rfl

namespace Host

variable [Angular α]

/-- Owned cell and `prevCell` of `id`. -/
def cells? (h : Host σ α) (id : String) : Option (Cell × Option Cell) :=
  h.world.players[id]?.map Player.cells

omit [Angular α] in
theorem map_fst_cells? (h : Host σ α) (id : String) :
    (h.cells? id).map Prod.fst = h.world.playerHome? id := Option.map_map ..

variable (h : Host σ α) {id : String} {t : Trail}

/-- In a step a player walks, or stays in its cell. -/
theorem tells_step (now : Time) (dt : Span) (ht : t.Tells (h.cells? id)) :
    let o : Operation σ α := .step now dt
    (t.next o id (h.world.playerHome? id) ((h.perform o).world.playerHome? id)).Tells
      ((h.perform o).cells? id) := by
  intro o
  obtain ⟨source, after⟩ := h.players_step now dt id
  rw [← map_fst_cells?, ← map_fst_cells?]
  unfold cells? at ht ⊢
  rw [after]
  cases hp : h.world.players[id]? with
  | none => exact .nobody
  | some p =>
    rw [hp] at ht
    let rules := h.engine.handoverRules now
    let moved := p.integrated dt.seconds
    show (t.next o id (some p.ownedCell)
      (some (moved.evaluate rules h.issuer source).1.player.ownedCell)).Tells
        (some (moved.evaluate rules h.issuer source).1.player.cells)
    cases due : moved.due? rules with
    | none =>
      rw [Player.evaluate_stays h.issuer moved source due]
      exact ht.next_same (o := o) rfl
    | some target =>
      have cells := Player.cells_evaluate_of_due h.issuer source due
      have leaves : p.ownedCell ≠ target := (Player.ne_ownedCell_of_due due).symm
      rw [cells, show (moved.evaluate rules h.issuer source).1.player.ownedCell = target from
        congrArg Prod.fst cells]
      simp only [Trail.next, o, Operation.origin?, Operation.walks, if_neg leaves, if_true]
      exact .entered fun same => leaves (Option.some.inj same)

/-- An operation that places `id` puts it somewhere, receives it or removes it. -/
theorem tells_place (o : Operation σ α) (places : o.places? = some id) (ht : t.Tells (h.cells? id)) :
    (t.next o id (h.world.playerHome? id) ((h.perform o).world.playerHome? id)).Tells
      ((h.perform o).cells? id) := by
  have single (clock : List Time) : o ≠ .ticks clock := by
    rintro rfl
    exact Option.some_ne_none id places.symm
  obtain ⟨source, after⟩ := h.players_perform o single id
  rw [← map_fst_cells?, ← map_fst_cells?]
  unfold cells? at ht ⊢
  rw [after]
  have arrived (o : Operation σ α) (here : o.origin? id = none) (puts : o.walks = false)
      (name : String) (pos vel : Point α) (cell : Cell) :
      let cells := (some (Player.arrived h.world.players[id]? id name pos vel cell)).map Player.cells
      (t.next o id ((h.world.players[id]?.map Player.cells).map Prod.fst)
        (cells.map Prod.fst)).Tells cells := by
    simp only [Option.map_some, Player.cells_arrived]
    exact ht.next_placed here puts cell
  cases o with
  | upsert key name pos vel =>
    obtain rfl : key = id := Option.some.inj places
    simp only [Operation.onPlayer, if_true]
    exact arrived _ rfl rfl name pos vel _
  | spawn key name pos =>
    obtain rfl : key = id := Option.some.inj places
    simp only [Operation.onPlayer, if_true]
    exact arrived _ rfl rfl name pos .zero _
  | remove key =>
    obtain rfl : key = id := Option.some.inj places
    simp only [Operation.onPlayer, if_true]
    exact .nobody
  | receive d =>
    obtain rfl : d.id = id := Option.some.inj places
    simp only [Operation.onPlayer, if_true, Option.map_some, Player.cells_received]
    have there : (Operation.receive d : Operation σ α).origin? d.id = some d.ownedCell := if_pos rfl
    exact .next_received there _
  | restore key saved templates =>
    obtain rfl : key = id := Option.some.inj places
    simp only [Operation.onPlayer, if_true]
    cases hp : h.world.players[key]? with
    | none => exact .nobody
    | some p =>
      rw [hp] at ht
      cases saved.loadout? templates with
      | error error => exact ht.next_same rfl
      | ok loadout => exact ht.next_placed rfl rfl _
  | _ => exact absurd places (Option.some_ne_none id).symm

/-- Every single operation keeps `Tells`. Those that neither step nor place `id` leave its cells. -/
theorem tells_perform (o : Operation σ α) (single : ∀ clock, o ≠ .ticks clock)
    (ht : t.Tells (h.cells? id)) :
    (t.next o id (h.world.playerHome? id) ((h.perform o).world.playerHome? id)).Tells
      ((h.perform o).cells? id) := by
  by_cases step : ∃ now dt, o = .step now dt
  · obtain ⟨now, dt, rfl⟩ := step
    exact h.tells_step now dt ht
  · push Not at step
    by_cases places : o.places? = some id
    · exact h.tells_place o places ht
    · have same : (h.perform o).cells? id = h.cells? id :=
        view_perform Player.cells (fun _ _ _ _ _ => rfl) h o step single places
      have here : o.origin? id = none := by
        cases o with
        | receive d => exact if_neg fun own => places (congrArg some own)
        | _ => rfl
      rw [← map_fst_cells?, ← map_fst_cells?, same]
      exact ht.next_same here

/-- Induction on the operations. -/
theorem tells_trail (os : List (Operation σ α)) (single : ∀ o ∈ os, ∀ clock, o ≠ .ticks clock)
    (ht : t.Tells (h.cells? id)) : (h.trail id os t).Tells ((h.run os).cells? id) := by
  induction os generalizing h t with
  | nil => exact ht
  | cons o os ih =>
    refine ih (h.perform o) (fun o' ho' => single o' (List.mem_cons_of_mem o ho')) ?_
    exact h.tells_perform o (single o List.mem_cons_self) ht

/-- The home of `id` after a step: the target if `leftBeyond` holds with the margin toward it, else
the cell before. -/
theorem home_step (now : Time) (dt : Span) {p : Player α} (hp : h.world.players[id]? = some p) :
    let pos := p.pos.advance p.vel dt.seconds
    let target := Cell.containing pos h.engine.settings.cellSize
    (h.perform (.step now dt)).world.playerHome? id =
      some (if leftBeyond pos p.ownedCell target h.engine.settings.cellSize
        (marginToward target p.prevCell h.engine.settings.hysteresis) then target
        else p.ownedCell) := by
  intro pos target
  obtain ⟨source, after⟩ := h.players_step now dt id
  let rules := h.engine.handoverRules now
  rw [World.playerHome?, after, hp]
  refine congrArg some (((p.integrated dt.seconds).kept_evaluate rules h.issuer source).2.trans ?_)
  rw [Player.due?_eq_if]
  exact apply_ite (fun cell => Option.getD cell p.ownedCell) _ _ _

end Host

/-! ### Every player of a run -/

section Whole

variable [Angular α]

/-- After any run, with `t` the trail of `id` and `p` its player: `p.prevCell = t.walked` and
`t.former ≠ some p.ownedCell`; if `t.jumped = false`, also `p.prevCell = t.former`. A next step
takes the player to `target`, the cell of its new position, iff `leftBeyond` holds with margin
`2 * H` for `t.walked = some target` and `H` otherwise; if `t.jumped = false`, this is the same with
`t.former`. -/
theorem doubled_toward_cell_just_left (settings : Settings α) (chance : Random) (source : σ)
    (os : List (Operation σ α)) (id : String) :
    let start := Host.create settings chance source
    let h := start.run os
    let t := start.trail id (start.singly os) {}
    ∀ p, h.world.players[id]? = some p →
      p.prevCell = t.walked ∧ t.former ≠ some p.ownedCell ∧
      (t.jumped = false → p.prevCell = t.former) ∧
      ∀ now dt,
        let pos := p.pos.advance p.vel dt.seconds
        let target := Cell.containing pos settings.cellSize
        let gate (margin : α) := some
          (if leftBeyond pos p.ownedCell target settings.cellSize margin then target
            else p.ownedCell)
        (h.perform (.step now dt)).world.playerHome? id =
          gate (if t.walked = some target then 2.0 * settings.hysteresis
            else settings.hysteresis) ∧
        (t.jumped = false → (h.perform (.step now dt)).world.playerHome? id =
          gate (if t.former = some target then 2.0 * settings.hysteresis
            else settings.hysteresis)) := by
  intro start h t p hp
  have single (o : Operation σ α) (ho : o ∈ start.singly os) : ∀ clock, o ≠ .ticks clock :=
    (Host.of_mem_singly ho).1
  have nobody : start.cells? id = none := by simp [Host.cells?, start]
  have told : t.Tells (h.cells? id) := by
    have tells := start.tells_trail (start.singly os) single (nobody ▸ Trail.Tells.nobody)
    rwa [start.run_singly os] at tells
  have here : h.cells? id = some (p.ownedCell, p.prevCell) := by rw [Host.cells?, hp]; rfl
  rw [here] at told
  obtain ⟨walked, other, agree⟩ := told.of_some
  have size : h.engine.settings = settings := Host.settings_run start os
  refine ⟨walked, other, fun walks => walked.trans (agree walks).symm, fun now dt => ?_⟩
  have gated := h.home_step now dt hp
  rw [size, walked] at gated
  exact ⟨gated, fun walks => by rw [agree walks]; exact gated⟩

/-- Put back and walked again: `prevCell` is the cell left last, and three metres past the border do
not lead back to it, with `H = 2`. -/
theorem walked_again_after_jump :
    let start : Host Unit ℚ := Host.create tenMetres (.ofSeed 1) ()
    let os : List (Operation Unit ℚ) := [.upsert "p1" "one" ⟨9, 0, 5⟩ ⟨3, 0, 0⟩,
      .step ⟨0⟩ (.ofSeconds 1), .upsert "p1" "one" ⟨5, 0, 5⟩ ⟨8, 0, 0⟩, .step ⟨1⟩ (.ofSeconds 1),
      .setVelocity "p1" ⟨-6, 0, 0⟩]
    ∃ p, (start.run os).world.players["p1"]? = some p ∧ p.prevCell = some ⟨0, 0⟩ ∧
      ((start.run os).perform (.step ⟨2⟩ (.ofSeconds 1))).world.playerHome? "p1" =
        some ⟨1, 0⟩ := by
  intro start os
  have seen : start.trail "p1" (start.singly os) {} = .entered (some ⟨0, 0⟩) := by decide +kernel
  have there : (start.run os).world.players["p1"]?.map (fun p => (p.pos, p.vel, p.ownedCell)) =
      some (⟨13, 0, 5⟩, ⟨-6, 0, 0⟩, ⟨1, 0⟩) := by decide +kernel
  obtain ⟨p, hp, its⟩ := Option.map_eq_some_iff.mp there
  obtain ⟨pos, vel, cell⟩ : p.pos = _ ∧ p.vel = _ ∧ p.ownedCell = _ := by simpa using its
  obtain ⟨-, -, former, gated⟩ := doubled_toward_cell_just_left tenMetres (.ofSeed 1) () os "p1" p hp
  have gate := (gated ⟨2⟩ (.ofSeconds 1)).2 (by rw [seen]; rfl)
  refine ⟨p, hp, (former (by rw [seen]; rfl)).trans (by rw [seen]; rfl), gate.trans ?_⟩
  rw [seen, pos, vel, cell]
  decide +kernel

/-- Put back into `(0, 0)`, the player has `prevCell = some (0, 0)`, its own cell. Two and a half
metres past the border take it into `(1, 0)` again, which it has just left, with `H = 2`. -/
theorem jump_back_forgets_cell_just_left :
    let away := (Host.create tenMetres (.ofSeed 1) () : Host Unit ℚ).run
      [.upsert "p1" "one" ⟨9, 0, 5⟩ ⟨3, 0, 0⟩, .step ⟨0⟩ (.ofSeconds 1)]
    let back := away.perform (.upsert "p1" "one" ⟨5, 0, 5⟩ ⟨15 / 2, 0, 0⟩)
    let again := back.perform (.step ⟨1⟩ (.ofSeconds 1))
    away.cells? "p1" = some (⟨1, 0⟩, some ⟨0, 0⟩) ∧
      back.cells? "p1" = some (⟨0, 0⟩, some ⟨0, 0⟩) ∧
      again.cells? "p1" = some (⟨1, 0⟩, some ⟨0, 0⟩) := by
  decide +kernel

end Whole

end CellWorld
