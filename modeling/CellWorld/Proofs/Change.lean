import CellWorld.Proofs.Run

/-!
# What an operation does to the world

Operations are about players, or they are passes over everybody. The ones about players change the
world in a few ways.

* `Operation.isPass` — the passes: `step`, `ticks` and `maintainDensity`
* `World.Change size joins w w'` — the ways in which the other ones change `w` to `w'`
* `Host.change_perform` — they do nothing else
* `World.frame_amend`, `World.frame_remove`, `World.frame_upsert`, `World.frame_place` — what each
  of the ways leaves alone
* `Host.frame_request`, `Host.frame_perform` — what requests and all such operations leave alone

A `World.Change` says less than the operation does: of an amended player, only that it stays in its
cell.
-/

namespace CellWorld

variable {σ α : Type}

/-- Whether an operation moves bots, or adds some and takes some away. -/
def Operation.isPass : Operation σ α → Bool
  | step _ _ | ticks _ | maintainDensity => true
  | _ => false

/-- The ways in which an operation that is about players changes the world. Only the id that `joins`
may come in. -/
inductive World.Change [Scalar α] (size : α) (joins : Option String) (w : World α) : World α → Prop
  | same : Change size joins w w
  | taken (events : List HandoverEvent) : Change size joins w { w with events }
  /-- A player changes where it is. -/
  | amended (id : String) (f : Player α → Player α) (cell : ∀ p, (f p).ownedCell = p.ownedCell) :
    Change size joins w ((w.amend? id f).getD w)
  | removed (id : String) : Change size joins w ((w.remove? id).getD w)
  | arrived (id name : String) (pos vel : Point α) (joined : joins = some id) :
    Change size joins w (w.upsert id name pos vel size).2
  /-- A player comes in, and more is known of it. -/
  | received (id name : String) (pos vel : Point α) (p : Player α) (joined : joins = some id)
    (cell : p.ownedCell = (w.upsert id name pos vel size).1.ownedCell) :
    Change size joins w { (w.upsert id name pos vel size).2 with
      players := (w.upsert id name pos vel size).2.players.insert id p }
  /-- A player jumps, and then changes where it is. -/
  | placed (id : String) (pos : Point α) (f : Player α → Player α)
    (cell : ∀ p, (f p).ownedCell = p.ownedCell) :
    Change size joins w
      ((((w.place? id pos size).getD w).amend? id f).getD ((w.place? id pos size).getD w))

namespace Host

variable [Angular α]

/-- A valid saved player puts the live one in its place and gives it its loadout. -/
theorem world_restore (h : Host σ α) (key : String) (saved : SavedPlayer α)
    (templates : List String) :
    (h.perform (.restore key saved templates)).world =
      match saved.loadout? templates with
      | .ok loadout =>
        let placed := (h.world.place? key saved.pos h.engine.settings.cellSize).getD h.world
        (placed.amend? key fun p => { p with loadout }).getD placed
      | .error _ => h.world := by
  cases hl : saved.loadout? templates with
  | error e =>
    simp only [perform, Engine.restore, World.restore, hl]
    rfl
  | ok loadout =>
    simp only [perform, Engine.restore, World.restore, hl]
    cases hp : h.engine.world.players[key]? with
    | none =>
      simp only [World.place?, World.amend?, world, hp, Option.map_none, Option.getD_none]
      rfl
    | some p =>
      simp only [World.place?, World.amend?, World.commit, world, hp, Option.map_some,
        Option.getD_some, Option.bind_some, Std.TreeMap.getElem?_insert_self]
      rfl

/-- An operation that is no pass changes the world in no other way. -/
theorem change_perform (h : Host σ α) (o : Operation σ α) (quiet : o.isPass = false) :
    h.world.Change h.engine.settings.cellSize o.joins? (h.perform o).world := by
  have amended (joins : Option String) (id : String) (f : Player α → Player α)
      (cell : ∀ p, (f p).ownedCell = p.ownedCell) :
      h.world.Change h.engine.settings.cellSize joins
        (h.engine.attempt (h.engine.world.amend? id f)).2.world := by
    rw [Engine.world_attempt]
    exact .amended id f cell
  have amendedIf (joins : Option String) (id : String) (c : Player α → Prop) [DecidablePred c]
      (f : Player α → Player α) (cell : ∀ p, (f p).ownedCell = p.ownedCell) :
      h.world.Change h.engine.settings.cellSize joins (h.engine.amendIf id c f).2.world := by
    rcases h.engine.amendIf_cases id c f with same | changed
    · rw [same]
      exact .same
    · rw [changed]
      exact amended joins id f cell
  cases o with
  | upsert id name pos vel => exact .arrived id name pos vel rfl
  | spawn id name pos => exact .arrived id name pos .zero rfl
  | remove id =>
    show World.Change _ _ _ (h.engine.attempt _).2.world
    rw [Engine.world_attempt]
    exact .removed id
  | setVelocity id vel => exact amended _ id _ fun _ => rfl
  | setConnection id connection => exact amended _ id _ fun _ => rfl
  | acknowledge id seq => exact amendedIf _ id _ _ fun _ => rfl
  | resolve id reply => exact amendedIf _ id _ _ fun _ => rfl
  | step now dt => exact absurd quiet (by simp [Operation.isPass])
  | ticks clock => exact absurd quiet (by simp [Operation.isPass])
  | maintainDensity => exact absurd quiet (by simp [Operation.isPass])
  | receive d => exact .received d.id d.name d.pos d.vel _ rfl rfl
  | restore id saved templates =>
    rw [world_restore]
    split
    · exact .placed id saved.pos _ fun _ => rfl
    · exact .same
  | interest pos radius exclude =>
    show World.Change _ _ _ (h.engine.interest pos radius exclude).2.world
    unfold Engine.interest
    split <;> exact .same
  | drain => exact .taken []
  | snapshot => exact .same
  | register info => exact .same
  | unregister id => exact .same
  | assign cell id => exact .same
  | install issuer => exact .same
  | outside source => exact .same

end Host

/-! ### What stays as it is -/

namespace World

section Frame

variable {β : Type} (f : World α → β)
  (blind : ∀ (w : World α) players cells, f { w with players, cells } = f w) (w : World α)

include blind

theorem frame_amend (id : String) (g : Player α → Player α) :
    f ((w.amend? id g).getD w) = f w := by
  unfold amend?
  cases w.players[id]? with
  | none => rfl
  | some p => exact blind w _ w.cells

theorem frame_remove (id : String) : f ((w.remove? id).getD w) = f w := by
  unfold remove?
  cases w.players[id]? with
  | none => rfl
  | some p => exact blind w _ _

variable [Scalar α]

theorem frame_upsert (id name : String) (pos vel : Point α) (size : α) :
    f (w.upsert id name pos vel size).2 = f w := by
  unfold upsert
  cases w.players[id]? with
  | none => exact blind w _ _
  | some old => exact blind w _ _

theorem frame_place (id : String) (pos : Point α) (size : α) :
    f ((w.place? id pos size).getD w) = f w := by
  unfold place?
  cases w.players[id]? with
  | none => rfl
  | some old => exact blind w _ _

end Frame

end World

/-- A request other than `drain` changes players and the index alone. -/
theorem Host.frame_request [Angular α] {β : Type} (f : World α → β)
    (blind : ∀ (w : World α) players cells, f { w with players, cells } = f w) (h : Host σ α)
    (o : Operation σ α) (quiet : o.isPass = false) (drain : o ≠ .drain) :
    f (h.perform o).world = f h.world := by
  have attempt (w : Option (World α)) (same : f (w.getD h.world) = f h.world) :
      f (h.engine.attempt w).2.world = f h.world := by
    rw [Engine.world_attempt]
    exact same
  have amendIf (id : String) (c : Player α → Prop) [DecidablePred c] (g : Player α → Player α) :
      f (h.engine.amendIf id c g).2.world = f h.world := by
    rcases h.engine.amendIf_cases id c g with same | changed
    · rw [same]
      rfl
    · rw [changed]
      exact attempt _ (World.frame_amend f blind h.world id g)
  cases o with
  | step now dt => exact absurd quiet Bool.noConfusion
  | ticks clock => exact absurd quiet Bool.noConfusion
  | maintainDensity => exact absurd quiet Bool.noConfusion
  | drain => exact absurd rfl drain
  | upsert id name pos vel => exact World.frame_upsert f blind h.world id name pos vel _
  | spawn id name pos => exact World.frame_upsert f blind h.world id name pos .zero _
  | remove id => exact attempt _ (World.frame_remove f blind h.world id)
  | setVelocity id vel => exact attempt _ (World.frame_amend f blind h.world id _)
  | setConnection id connection => exact attempt _ (World.frame_amend f blind h.world id _)
  | acknowledge id seq => exact amendIf id _ _
  | resolve id reply => exact amendIf id _ _
  | receive d =>
    exact (blind _ _ _).trans (World.frame_upsert f blind h.world d.id d.name d.pos d.vel _)
  | restore id saved templates =>
    rw [world_restore]
    split
    · exact (World.frame_amend f blind _ id _).trans (World.frame_place f blind h.world id _ _)
    · rfl
  | interest pos radius exclude =>
    show f (h.engine.interest pos radius exclude).2.world = f h.world
    unfold Engine.interest
    split <;> rfl
  | _ => rfl

section Frame

variable {β : Type} (f : World α → β)
  (blind : ∀ (w : World α) players cells events, f { w with players, cells, events } = f w)

include blind

/-- Players, the index and the events are all that such an operation changes. -/
theorem World.Change.frame [Scalar α] {size : α} {joins : Option String} {w w' : World α}
    (change : w.Change size joins w') : f w' = f w := by
  have quiet (w : World α) players cells : f { w with players, cells } = f w :=
    blind w players cells w.events
  cases change with
  | same => rfl
  | taken events => exact blind w w.players w.cells events
  | amended id g cell => exact frame_amend f quiet w id g
  | removed id => exact frame_remove f quiet w id
  | arrived id name pos vel joined => exact frame_upsert f quiet w id name pos vel size
  | received id name pos vel p joined cell =>
    exact (quiet _ _ _).trans (frame_upsert f quiet w id name pos vel size)
  | placed id pos g cell =>
    exact (frame_amend f quiet _ id g).trans (frame_place f quiet w id pos size)

theorem Host.frame_perform [Angular α] (h : Host σ α) (o : Operation σ α)
    (quiet : o.isPass = false) : f (h.perform o).world = f h.world :=
  (h.change_perform o quiet).frame f blind

end Frame

end CellWorld
