import CellWorld.Proofs.Bots
import CellWorld.Proofs.Lag
import CellWorld.Proofs.Membership

/-!
# Whom a query finds

A query looks into the block of nine cells around its point, and everybody is indexed in the cell
that owns it. So it finds whoever is close enough and owned by a cell of the block. A player that
lags outside its owned cell can be close to the point and owned by a cell that is not in the block.

* `Engine.mem_interest_iff` — in any state, `x` is found iff some `id ≠ exclude` of the block has
  `entity? id = some x` with `dist2 ≤ radius * radius + 1e-9`
* `World.HoldsNear` — a cell of the block holds `id`
* `Host.player_found_iff`, `Host.bot_found_iff` — of a close player or bot, whether it is found is a
  matter of the index
* `mem_block_of_spans` — a point within `r` that is over the columns and rows of `c`, widened by
  `cellSize - r`, has `c` in the block
* `interest_complete_iff` — the exact condition, for all players and bots after any run
* `lagging_player_missed` — a player at 9.5 m that a query of radius 10 does not find

Completeness within the radius holds for a player only under the condition on its owned cell:
`lagging_player_missed` is a player for which it fails. Distances are exact here; the tolerance
`1e-9` only adds to what is found.
-/

namespace CellWorld

open Exact (value)

variable {σ α : Type}

/-! ### What a query finds -/

section Query

variable [Scalar α]

/-- A cell of the block around `pos` holds `id`. -/
def World.HoldsNear (w : World α) (size : α) (pos : Point α) (id : String) : Prop :=
  ∃ k ∈ (Cell.containing pos size).block, w.cells.Holds k id

theorem Engine.mem_interest_iff (e : Engine α) (pos : Point α) {radius : α}
    (positive : (0.0 : α) < radius) (exclude : String) (x : Entity α) :
    x ∈ (e.interest pos radius exclude).1 ↔
      ∃ id, id ≠ exclude ∧ e.world.HoldsNear e.settings.cellSize pos id ∧
        e.world.entity? id = some x ∧ x.pos.dist2 pos ≤ radius * radius + 1e-9 := by
  rw [interest, if_pos positive]
  simp only [near, List.mem_filter, List.mem_filterMap, Occupancy.mem_around_iff, bne_iff_ne,
    decide_eq_true_eq, World.HoldsNear]
  constructor
  · rintro ⟨⟨id, ⟨held, other⟩, found⟩, close⟩
    exact ⟨id, other, held, found, close⟩
  · rintro ⟨id, other, held, found, close⟩
    exact ⟨⟨id, ⟨held, other⟩, found⟩, close⟩

end Query

/-! ### Players and bots that are close enough -/

namespace Host

section Found

variable [Angular α] {settings : Settings α} {chance : Random} {source : σ}
  {os : List (Operation σ α)}

/-- Entities are kept under their own ids. -/
theorem id_of_entity {id : String} {x : Entity α}
    (hx : ((create settings chance source).run os).world.entity? id = some x) : x.id = id := by
  unfold World.entity? at hx
  split at hx
  · next p hp =>
    rw [← Option.some.inj hx]
    exact (isOf_player hp).1
  · obtain ⟨b, hb, rfl⟩ := Option.map_eq_some_iff.mp hx
    exact (isOf_bot hb).1

variable [Exact α] {pos : Point α} {radius : α} {exclude : String}

/-- An entity that is close is found iff its id stands for it, and is held by a cell of the
block. -/
theorem entity_found_iff (positive : 0 < value radius) {x : Entity α} (other : x.id ≠ exclude)
    (close : value (x.pos.dist2 pos) ≤ value radius ^ 2) :
    let h := (create settings chance source).run os
    x ∈ (h.engine.interest pos radius exclude).1 ↔
      h.world.entity? x.id = some x ∧ h.world.HoldsNear settings.cellSize pos x.id := by
  intro h
  have size : h.engine.settings.cellSize = settings.cellSize :=
    congrArg Settings.cellSize (settings_run (create settings chance source) os)
  have start : (0.0 : α) < radius := by
    rw [Exact.lt_iff, Exact.value_ofScientific]
    norm_num [positive]
  have reach : x.pos.dist2 pos ≤ radius * radius + 1e-9 := by
    rw [Exact.le_iff, Exact.value_add, Exact.value_mul, Exact.value_ofScientific, ← sq]
    have slack : (0 : ℝ) ≤ 1e-9 := by norm_num
    linarith
  rw [Engine.mem_interest_iff h.engine pos start exclude x, size]
  constructor
  · rintro ⟨id, -, held, found, -⟩
    rw [id_of_entity found]
    exact ⟨found, held⟩
  · rintro ⟨found, held⟩
    exact ⟨x.id, other, held, found, reach⟩

/-- A close player is found iff a cell of the block holds its id. -/
theorem player_found_iff (positive : 0 < value radius) {id : String} {p : Player α}
    (hp : ((create settings chance source).run os).world.players[id]? = some p)
    (other : id ≠ exclude) (close : value (p.pos.dist2 pos) ≤ value radius ^ 2) :
    let h := (create settings chance source).run os
    p.toEntity ∈ (h.engine.interest pos radius exclude).1 ↔
      h.world.HoldsNear settings.cellSize pos id := by
  intro h
  have own : p.id = id := (isOf_player hp).1
  have found : h.world.entity? p.id = some p.toEntity := by
    rw [World.entity?, own, hp]
  refine (entity_found_iff positive (x := p.toEntity) (own ▸ other) close).trans ?_
  rw [own] at found ⊢
  exact and_iff_right found

/-- A close bot is found iff moreover no player has its id. -/
theorem bot_found_iff (positive : 0 < value radius) {id : String} {b : Bot α}
    (hb : ((create settings chance source).run os).world.bots[id]? = some b)
    (other : id ≠ exclude) (close : value (b.pos.dist2 pos) ≤ value radius ^ 2) :
    let h := (create settings chance source).run os
    b.toEntity ∈ (h.engine.interest pos radius exclude).1 ↔
      id ∉ h.world.players ∧ h.world.HoldsNear settings.cellSize pos id := by
  intro h
  obtain ⟨own, bot⟩ := isOf_bot hb
  refine (entity_found_iff positive (x := b.toEntity) (own ▸ other) close).trans ?_
  rw [own]
  refine and_congr_left fun _ => ?_
  show h.world.entity? id = some b.toEntity ↔ id ∉ h.world.players
  rw [World.entity?, Std.TreeMap.mem_iff_isSome_getElem?]
  cases hp : h.world.players[id]? with
  | none =>
    rw [show h.world.bots[id]? = some b from hb]
    simp
  | some p =>
    -- a player with the id of the bot hides it
    refine iff_of_false ?_ (by simp)
    intro same
    have kind := (isOf_player hp).2
    rw [Option.some.inj same, bot] at kind
    exact absurd kind (by decide)

end Found

end Host

/-! ### Where a query always looks -/

/-- If `|x - q| ≤ r` and `x` is in the slice `c` widened by `s - r`, then `c` is next to the slice
of `q`, or equal to it. -/
theorem near_index {c n : Int} {x q s r : ℝ} (hs : 0 < s) (close : |x - q| ≤ r)
    (inside : n * s ≤ q ∧ q < (n + 1) * s)
    (near : c * s - (s - r) ≤ x ∧ x < (c + 1) * s + (s - r)) : n - 1 ≤ c ∧ c ≤ n + 1 := by
  obtain ⟨left, right⟩ := abs_le.mp close
  have above : ((c - 1 : Int) : ℝ) * s < ((n + 1 : Int) : ℝ) * s := by
    push_cast
    linarith
  have below : (n : ℝ) * s < ((c + 2 : Int) : ℝ) * s := by
    push_cast
    linarith
  have h₁ : c - 1 < n + 1 := by exact_mod_cast lt_of_mul_lt_mul_right above hs.le
  have h₂ : n < c + 2 := by exact_mod_cast lt_of_mul_lt_mul_right below hs.le
  omega

section Spans

variable [Scalar α] [Exact α] {size : α} {pos p : Point α} {c : Cell} {r : ℝ}

/-- The two axes of `near_index`, for the owned cell of an entity. -/
theorem mem_block_of_spans (hs : 0 < value size) (hr : 0 ≤ r) (g : OnGrid size pos)
    (close : value (p.dist2 pos) ≤ r ^ 2)
    (hx : (Bounds.ofCell c size).SpansX (value size - r) p)
    (hz : (Bounds.ofCell c size).SpansZ (value size - r) p) :
    c ∈ (Cell.containing pos size).block := by
  have apart : (value p.x - value pos.x) ^ 2 + (value p.z - value pos.z) ^ 2 ≤ r ^ 2 := by
    simpa only [Point.dist2, Exact.value_add, Exact.value_mul, Exact.value_sub, ← sq] using close
  have apartX : |value p.x - value pos.x| ≤ r :=
    abs_le_of_sq_le_sq (by linarith [sq_nonneg (value p.z - value pos.z)]) hr
  have apartZ : |value p.z - value pos.z| ≤ r :=
    abs_le_of_sq_le_sq (by linarith [sq_nonneg (value p.x - value pos.x)]) hr
  have column := g.spansX hs
  have row := g.spansZ hs
  rw [Bounds.SpansX, Bounds.value_minX, Bounds.value_maxX] at hx column
  rw [Bounds.SpansZ, Bounds.value_minZ, Bounds.value_maxZ] at hz row
  rw [sub_zero, add_zero] at column row
  rw [Cell.mem_block_iff]
  exact ⟨near_index hs apartX column hx, near_index hs apartZ row hz⟩

end Spans

/-! ### Completeness after a run -/

section Whole

variable [Angular α] [Exact α]

/-- After any run with checked settings, for every player other than `exclude` within `radius` of
`pos`: it is found iff a cell of the block holds its id, and with `NamesApart os` iff
`ownedCell ∈ block`; this is so if it is over the columns and rows of its owned cell, widened by
`cellSize - radius`. For every such bot: it is found iff no player has its id and a cell of the
block holds it, and with `NamesApart os` iff `ownedCell ∈ block`; this is so whenever
`radius < cellSize`. -/
theorem interest_complete_iff {settings : Settings α} (ok : settings.check = .ok ())
    (chance : Random) (source : σ) (os : List (Operation σ α)) (pos : Point α) {radius : α}
    (positive : 0 < value radius) (exclude : String) :
    let h := (Host.create settings chance source).run os
    let found := (h.engine.interest pos radius exclude).1
    let block := (Cell.containing pos settings.cellSize).block
    let left := value settings.cellSize - value radius
    (∀ id p, h.world.players[id]? = some p → id ≠ exclude →
      value (p.pos.dist2 pos) ≤ value radius ^ 2 →
        (p.toEntity ∈ found ↔ ∃ k ∈ block, h.world.cells.Holds k id) ∧
        (NamesApart os → (p.toEntity ∈ found ↔ p.ownedCell ∈ block)) ∧
        (OnGrid settings.cellSize pos →
          (Bounds.ofCell p.ownedCell settings.cellSize).SpansX left p.pos →
          (Bounds.ofCell p.ownedCell settings.cellSize).SpansZ left p.pos → p.ownedCell ∈ block)) ∧
    ∀ id b, h.world.bots[id]? = some b → id ≠ exclude →
      value (b.pos.dist2 pos) ≤ value radius ^ 2 →
        (b.toEntity ∈ found ↔ id ∉ h.world.players ∧ ∃ k ∈ block, h.world.cells.Holds k id) ∧
        (NamesApart os → (b.toEntity ∈ found ↔ b.ownedCell ∈ block)) ∧
        (OnGrid settings.cellSize pos → 0 < left → b.ownedCell ∈ block) := by
  intro h found block left
  have hs : 0 < value settings.cellSize := (Settings.sizes_of_check ok).1
  have indexed (apart : NamesApart os) : h.world.Indexed :=
    Host.indexed_run (Host.indexed_create settings chance source) os apart
  constructor
  · intro id p hp other close
    have looked := Host.player_found_iff positive hp other close
    refine ⟨looked, ?_, fun g hx hz => mem_block_of_spans hs positive.le g close hx hz⟩
    intro apart
    refine looked.trans ?_
    show (∃ k ∈ block, h.world.cells.Holds k id) ↔ p.ownedCell ∈ block
    simp only [(indexed apart).holds_player_iff hp, exists_eq_right']
  · intro id b hb other close
    have looked := Host.bot_found_iff positive hb other close
    refine ⟨looked, ?_, ?_⟩
    · intro apart
      have noPlayer : id ∉ h.world.players := (indexed apart).not_player_of_bot hb
      refine looked.trans ?_
      rw [and_iff_right noPlayer]
      show (∃ k ∈ block, h.world.cells.Holds k id) ↔ b.ownedCell ∈ block
      simp only [(indexed apart).holds_bot_iff hb, exists_eq_right']
    · intro g room
      obtain ⟨hx, hz⟩ := (Host.confined_bot hb).spans room
      exact mem_block_of_spans hs positive.le g close hx hz

/-- At `x = 11` the player is still owned by `(0, 0)`. A query at `20.5` looks into columns 1 to 3
and misses it, at a distance of 9.5 within a radius of 10. -/
theorem lagging_player_missed :
    let h := (Host.create tenMetres (.ofSeed 1) () : Host Unit ℚ).run
      [.upsert "p1" "one" ⟨9.5, 0, 5⟩ ⟨1.5, 0, 0⟩, .step ⟨0⟩ (.ofSeconds 1)]
    ∃ p, h.world.players["p1"]? = some p ∧ value (p.pos.dist2 ⟨20.5, 0, 5⟩) ≤ value (10 : ℚ) ^ 2 ∧
      p.toEntity ∉ (h.engine.interest ⟨20.5, 0, 5⟩ 10 "").1 := by
  intro h
  have found : h.world.players["p1"]?.map (fun p => (p.pos, p.ownedCell)) =
      some (⟨11, 0, 5⟩, ⟨0, 0⟩) := by decide +kernel
  obtain ⟨p, hp, here⟩ := Option.map_eq_some_iff.mp found
  obtain ⟨pos, cell⟩ := Prod.mk.inj here
  have close : value (p.pos.dist2 ⟨20.5, 0, 5⟩) ≤ value (10 : ℚ) ^ 2 := by
    rw [pos]
    norm_num [Point.dist2]
  obtain ⟨-, owned, -⟩ := (interest_complete_iff check_tenMetres (.ofSeed 1) () _ ⟨20.5, 0, 5⟩
    (by norm_num) "").1 "p1" p hp (by decide) close
  refine ⟨p, hp, close, ?_⟩
  rw [owned, cell]
  · decide +kernel
  · rw [namesApart_iff]
    intro id hid
    rw [List.mem_singleton.mp hid]
    exact unreserved_of_head (by decide)

end Whole

end CellWorld
