import CellWorld.Proofs.Edges
import CellWorld.Proofs.Pass
import CellWorld.Proofs.Run

/-!
# Room for bots

A bot is placed by drawing from the two sides of its cell. Where a side has nothing to draw from,
the pass that wanted the bot is stuck, and so is the step around it. `check` asks for a cell size
that is positive and finite. That is not enough: an edge is the size times an index of the grid, and
may be beyond the largest double.

* `Bounds.Roomy`, `Bounds.Finite`, `Bounds.roomy_iff_finite`, `Bounds.roomy_of_apart` — a cell has
  room iff its four edges are finite
* `finite_iff_lt_widest` — all cells have finite edges iff `size < widest`, which is `2 ^ 993`
* `World.spawnBot_noRoom_iff` — a bot finds no room iff it is under the cap and the cell is not
  `Roomy`
* `World.Blocked`, `World.maintainDensity_stuck`, `Engine.step_noRoom` — a stuck pass or step leaves
  somebody in a cell that is not `Roomy`
* `room_of_accepted`, `never_stuck_below_widest` — these after any run with accepted settings
* `huge_cells_stuck` — accepted settings, a finite player, and a step that is stuck after it has
  begun

The converse of `maintainDensity_stuck` does not hold: somebody may stand in a cell without room
that wants no bot.
-/

namespace CellWorld

/-! ### Room -/

namespace Bounds

variable {α : Type} [Scalar α]

/-- Both sides have something to draw from. -/
def Roomy (b : Bounds α) : Prop :=
  Random.Drawable b.minX b.maxX ∧ Random.Drawable b.minZ b.maxZ

instance (b : Bounds α) : Decidable b.Roomy := inferInstanceAs (Decidable (_ ∧ _))

/-- All four edges are finite. -/
def Finite (b : Bounds α) : Prop :=
  (Scalar.isFinite b.minX = true ∧ Scalar.isFinite b.maxX = true) ∧
    Scalar.isFinite b.minZ = true ∧ Scalar.isFinite b.maxZ = true

end Bounds

open Number in
/-- On one axis, there is something to draw from iff both edges are finite; `room_between` has the
rest. -/
theorem drawable_iff {size : Float} {q : ℚ} (hq : value? size = some q) (pos : 0 < q) (i : Int32) :
    Random.Drawable (nearEdge size i.toInt) (farEdge size i.toInt) ↔
      (Scalar.isFinite (nearEdge size i.toInt) = true ∧
        Scalar.isFinite (farEdge size i.toInt) = true) := by
  constructor
  · rintro ⟨-, width⟩
    obtain ⟨far, near⟩ := finite_of_sub width
    exact ⟨near, far⟩
  · rintro ⟨near, far⟩
    exact room_between hq i.le_toInt i.toInt_lt pos near far

/-- For a positive size, room and finite edges are the same. -/
theorem Bounds.roomy_iff_finite {size : Float} {q : ℚ} (hq : Number.value? size = some q)
    (pos : 0 < q) (c : Cell) : (Bounds.ofCell c size).Roomy ↔ (Bounds.ofCell c size).Finite :=
  and_congr (drawable_iff hq pos c.cx) (drawable_iff hq pos c.cz)

open Number in
/-- Where the edges are finite and apart, there is room. -/
theorem Bounds.roomy_of_apart {size : Float} {c : Cell} (finite : (ofCell c size).Finite)
    (apart : (ofCell c size).minX < (ofCell c size).maxX) : (ofCell c size).Roomy := by
  obtain ⟨q, hq⟩ := (isSome_iff_value size).mp (finite_of_mul finite.1.1)
  refine (roomy_iff_finite hq ?_ c).mpr finite
  obtain ⟨p, hp⟩ := (isSome_iff_value _).mp finite.1.1
  obtain ⟨p', hp'⟩ := (isSome_iff_value _).mp finite.1.2
  have less : p < p' := (lt_iff_value hp hp').mp apart
  have near := (comesTo_nearEdge hq c.cx.le_toInt c.cx.toInt_lt).roundsTo hp
  have far := (comesTo_farEdge hq c.cx.le_toInt c.cx.toInt_lt).roundsTo hp'
  rcases lt_trichotomy q 0 with negative | rfl | pos
  · -- with a negative size the far edge is below the near one
    obtain ⟨b, normal, -, rfl⟩ := exists_of_value? hq
    obtain ⟨k, multiple⟩ := normal.neg.multiple
    rw [Binary.value_neg] at multiple
    have near' := near.neg
    have far' := far.neg
    rw [← mul_neg] at near' far'
    have := near'.apart (neg_pos.mpr negative) multiple c.cx.le_toInt c.cx.toInt_lt far'
    linarith
  · rw [mul_zero] at near far
    have := near.nonneg le_rfl
    have := far.nonpos le_rfl
    linarith
  · exact pos

open Number in
/-- The last cell of the grid has the farthest edges, so it decides. -/
theorem finite_iff_lt_widest {size : Float} {q : ℚ} (hq : value? size = some q) (pos : 0 < q) :
    (∀ c : Cell, (Bounds.ofCell c size).Finite) ↔ size < widest := by
  rw [lt_iff_value hq value?_widest]
  constructor
  · intro finite
    by_contra large
    exact farEdge_infinite hq (not_lt.mp large) (finite ⟨Int32.maxValue, 0⟩).1.2
  · intro small c
    obtain ⟨b, normal, -, rfl⟩ := exists_of_value? hq
    have least : |b.value| ≤ (2 ^ 53 - 1) * 2 ^ (940 : Int) :=
      normal.le_of_lt (by norm_num) (by rwa [abs_of_pos pos])
    exact ⟨edges_finite hq c.cx.le_toInt c.cx.toInt_lt least,
      edges_finite hq c.cz.le_toInt c.cz.toInt_lt least⟩

/-- A checked cell size has a positive value. -/
theorem Settings.exists_size {settings : Settings Float} (accepted : settings.check = .ok ()) :
    ∃ q, Number.value? settings.cellSize = some q ∧ 0 < q := by
  obtain ⟨⟨pos, finite⟩, -⟩ := settings.check_eq_ok_iff.mp accepted
  obtain ⟨q, hq⟩ := (Number.isSome_iff_value _).mp finite
  exact ⟨q, hq, (Number.lt_iff_value Number.value?_zero hq).mp pos⟩

/-! ### A bot that finds no room -/

namespace World

variable {α : Type}

theorem exists_holds_of_population {w : World α} {cell : Cell}
    (somebody : (w.population cell).total ≠ 0) : ∃ id, w.cells.Holds cell id := by
  by_contra nobody
  have empty : (w.cells.bucket cell).toList = [] :=
    List.eq_nil_iff_forall_not_mem.mpr fun id mem => nobody ⟨id, Std.TreeSet.mem_toList.mp mem⟩
  refine somebody ?_
  unfold population
  rw [Std.TreeSet.foldl_eq_foldl_toList, empty]
  rfl

theorem DensityPass.takeAway_stuck (cell : Cell) (n : Nat) (pass : DensityPass α) :
    (pass.takeAway cell n).stuck = pass.stuck := by
  induction n generalizing pass with
  | zero => rfl
  | succ n ih =>
    unfold takeAway
    split
    · rfl
    · exact ih _

section Blocked

variable [Angular α]

/-- A place is drawn iff both sides can be drawn from. -/
theorem drawPlace_eq_none_iff (random : Random) (square : Bounds α) :
    (drawPlace random square).1 = none ↔ ¬ square.Roomy := by
  unfold drawPlace Bounds.Roomy Random.draw?
  by_cases x : Random.Drawable square.minX square.maxX
  · by_cases z : Random.Drawable square.minZ square.maxZ
    · simp [x, z]
    · simp [x, z]
  · simp [x]

/-- A bot finds no room iff it may come and the cell has none. -/
theorem spawnBot_noRoom_iff (w : World α) (cell : Cell) (rules : BotRules α) :
    (∃ w', w.spawnBot cell rules = .noRoom w') ↔
      ¬ (0 ≤ rules.cap ∧ rules.cap ≤ w.bots.size) ∧
        ¬ (Bounds.ofCell cell rules.cellSize).Roomy := by
  rw [← drawPlace_eq_none_iff w.random]
  unfold spawnBot
  by_cases full : 0 ≤ rules.cap ∧ rules.cap ≤ w.bots.size
  · simp [full]
  · rw [if_neg full]
    rcases drawn : drawPlace w.random (Bounds.ofCell cell rules.cellSize) with ⟨place, random⟩
    cases place with
    | none => simp [full]
    | some pos => simp

/-- Somebody is in a cell without room. -/
def Blocked (w : World α) (size : α) : Prop :=
  ∃ cell id, w.cells.Holds cell id ∧ ¬ (Bounds.ofCell cell size).Roomy

variable {rules : BotRules α}

namespace DensityPass

/-- Adding bots is stuck only in a cell without room; whoever was in it blocks. -/
theorem add_stuck {cell : Cell} {id : String} (n : Nat) (pass : DensityPass α)
    (free : pass.stuck = false) (holds : pass.world.cells.Holds cell id)
    (stuck : (pass.add rules cell n).stuck = true) :
    (pass.add rules cell n).world.Blocked rules.cellSize := by
  induction n generalizing pass with
  | zero => exact absurd stuck (free ▸ Bool.false_ne_true)
  | succ n ih =>
    unfold add at stuck ⊢
    split at stuck
    · exact absurd stuck (free ▸ Bool.false_ne_true)
    · next w none =>
      obtain ⟨random, -, rfl⟩ := spawnBot_noRoom none
      exact ⟨cell, id, holds, ((spawnBot_noRoom_iff _ _ _).mp ⟨_, none⟩).2⟩
    · next born w placed =>
      refine ih _ free ?_ stuck
      obtain ⟨_, _, _, _, _, -, -, -, -, rfl⟩ := spawnBot_placed placed
      exact (Occupancy.holds_insert _ _ _ _ _).mpr (Or.inr holds)

theorem visit_stuck (pass : DensityPass α) (cell : Cell)
    (blocked : pass.stuck = true → pass.world.Blocked rules.cellSize)
    (stuck : (pass.visit rules cell).stuck = true) :
    (pass.visit rules cell).world.Blocked rules.cellSize := by
  unfold visit at stuck ⊢
  by_cases before : pass.stuck = true
  · -- a pass that has stopped leaves the world as it was when it stopped
    rw [if_pos before] at stuck ⊢
    exact blocked before
  · have free : pass.stuck = false := Bool.eq_false_iff.mpr before
    rw [if_neg before] at stuck ⊢
    dsimp only at stuck ⊢
    split at stuck
    · exact absurd stuck before
    · next somebody =>
      obtain ⟨id, holds⟩ := exists_holds_of_population somebody
      rw [if_neg somebody]
      split at stuck
      · next low =>
        rw [if_pos low]
        exact add_stuck _ pass free holds stuck
      · split at stuck
        · rw [takeAway_stuck] at stuck
          exact absurd stuck before
        · exact absurd stuck before

end DensityPass

/-- A pass is stuck only with somebody in a cell without room. -/
theorem maintainDensity_stuck (w : World α) (stuck : (w.maintainDensity rules).stuck = true) :
    (w.maintainDensity rules).world.Blocked rules.cellSize := by
  unfold maintainDensity at stuck ⊢
  split at stuck
  · exact absurd stuck Bool.false_ne_true
  · next wanted =>
    rw [if_neg wanted]
    suffices fold : ∀ (cells : List Cell) (pass : DensityPass α),
        (pass.stuck = true → pass.world.Blocked rules.cellSize) →
        (cells.foldl (DensityPass.visit rules) pass).stuck = true →
        (cells.foldl (DensityPass.visit rules) pass).world.Blocked rules.cellSize from
      fold _ _ (fun early => absurd early Bool.false_ne_true) stuck
    intro cells
    induction cells with
    | nil => exact fun pass blocked => blocked
    | cons cell cells ih =>
      exact fun pass blocked => ih _ (DensityPass.visit_stuck pass cell blocked)

theorem payDebt_noRoom (fuel passes : Nat) (w : World α)
    (ended : (w.payDebt rules fuel passes).ended = .noRoom) :
    (w.payDebt rules fuel passes).world.Blocked rules.cellSize := by
  induction fuel generalizing passes w with
  | zero =>
    unfold payDebt at ended
    dsimp only at ended
    split at ended <;> cases ended
  | succ fuel ih =>
    unfold payDebt at ended ⊢
    split at ended
    · next due =>
      rw [if_pos due]
      dsimp only at ended ⊢
      split at ended
      · next stuck =>
        rw [if_pos stuck]
        exact maintainDensity_stuck _ stuck
      · next free =>
        rw [if_neg free]
        exact ih _ _ ended
    · cases ended

end Blocked

end World

/-- A step ends in `noRoom` only with somebody in a cell without room. -/
theorem Engine.step_noRoom {σ α : Type} [Angular α] (e : Engine α) (issuer : Option (Issuer σ α))
    (now : Time) (dt : Span) (source : σ) (ended : (e.step issuer now dt source).ended = .noRoom) :
    (e.step issuer now dt source).engine.world.Blocked e.settings.cellSize :=
  World.payDebt_noRoom _ _ _ ended

/-! ### After any run -/

section Run

variable {σ : Type}

/-- With accepted settings, after any run: a cell is `Roomy` iff its edges are `Finite`; all cells
are iff `cellSize < widest`; and a next pass that is stuck, or a next step that ends in `noRoom`,
leaves somebody in a cell with an edge that is not finite. -/
theorem room_of_accepted {settings : Settings Float} (accepted : settings.check = .ok ())
    (chance : Random) (source : σ) (os : List (Operation σ Float)) :
    let h := (Host.create settings chance source).run os
    let square (c : Cell) := Bounds.ofCell c settings.cellSize
    (∀ c, (square c).Roomy ↔ (square c).Finite) ∧
      ((∀ c, (square c).Finite) ↔ settings.cellSize < Number.widest) ∧
      (h.engine.maintainDensity.1.stuck = true →
        ∃ c id, h.engine.maintainDensity.2.world.cells.Holds c id ∧ ¬ (square c).Finite) ∧
      ∀ now dt, (h.engine.step h.issuer now dt h.source).ended = .noRoom →
        ∃ c id, (h.engine.step h.issuer now dt h.source).engine.world.cells.Holds c id ∧
          ¬ (square c).Finite := by
  intro h square
  obtain ⟨q, hq, pos⟩ := Settings.exists_size accepted
  have roomy (c : Cell) : (square c).Roomy ↔ (square c).Finite := Bounds.roomy_iff_finite hq pos c
  have same : h.engine.settings = settings := Host.settings_run _ os
  have blocked {w : World Float} (b : w.Blocked h.engine.settings.cellSize) :
      ∃ c id, w.cells.Holds c id ∧ ¬ (square c).Finite := by
    obtain ⟨c, id, holds, none⟩ := b
    rw [same] at none
    exact ⟨c, id, holds, fun finite => none ((roomy c).mpr finite)⟩
  refine ⟨roomy, finite_iff_lt_widest hq pos, ?_, ?_⟩
  · exact fun stuck => blocked (World.maintainDensity_stuck _ stuck)
  · exact fun now dt ended => blocked (h.engine.step_noRoom h.issuer now dt h.source ended)

/-- With accepted settings and `cellSize < widest`, after any run: every cell is `Roomy`, the next
pass is not stuck, and no next step ends in `noRoom`. -/
theorem never_stuck_below_widest {settings : Settings Float} (accepted : settings.check = .ok ())
    (small : settings.cellSize < Number.widest) (chance : Random) (source : σ)
    (os : List (Operation σ Float)) :
    let h := (Host.create settings chance source).run os
    (∀ c, (Bounds.ofCell c settings.cellSize).Roomy) ∧
      h.engine.maintainDensity.1.stuck = false ∧
      ∀ now dt, (h.engine.step h.issuer now dt h.source).ended ≠ .noRoom := by
  intro h
  obtain ⟨roomy, finite, stuck, ended⟩ := room_of_accepted accepted chance source os
  have all := finite.mpr small
  refine ⟨fun c => (roomy c).mpr (all c), ?_, ?_⟩
  · rw [← Bool.not_eq_true]
    intro early
    obtain ⟨c, -, -, none⟩ := stuck early
    exact none (all c)
  · intro now dt early
    obtain ⟨c, -, -, none⟩ := ended now dt early
    exact none (all c)

/-- The standard settings satisfy the premises. -/
theorem standard_never_stuck :
    let standard : Settings Float := .standard
    let h := (Host.create standard (.ofSeed 1) () : Host Unit Float).run
      [.upsert "p1" "one" ⟨9, 0, 5⟩ .zero, .step ⟨0⟩ (.ofSeconds 1)]
    standard.check = .ok () ∧ standard.cellSize < Number.widest ∧
      h.engine.maintainDensity.1.stuck = false := by
  intro standard h
  have accepted : standard.check = .ok () := standard.check_eq_ok_iff.mpr (by decide +kernel)
  have small : standard.cellSize < Number.widest := by decide +kernel
  exact ⟨accepted, small, (never_stuck_below_widest accepted small (.ofSeed 1) () _).2.1⟩

/-- Cells of `10 ^ 308` metres. -/
def hugeCells : Settings Float := { Settings.standard with cellSize := 1e308, seed := some 1 }

/-- A player that stands in the second column of the grid of such cells. -/
def farOut : Host Unit Float :=
  (Host.create hugeCells (.ofSeed 1) ()).run [.upsert "p1" "one" ⟨1.5e308, 0, 5⟩ .zero]

/-- The settings are accepted and the player is at a finite place, but the far edge of its cell is
infinite. The next pass is stuck, and so is the next step, which has counted itself and used up the
name of the bot. -/
theorem huge_cells_stuck :
    hugeCells.check = .ok () ∧ Scalar.isFinite (1.5e308 : Float) = true ∧
      (Bounds.ofCell ⟨1, 0⟩ hugeCells.cellSize).maxX = 1.0 / 0.0 ∧
      farOut.engine.maintainDensity.1.stuck = true ∧
      (farOut.engine.step farOut.issuer ⟨0⟩ (.ofSeconds 1) farOut.source).ended = .noRoom ∧
      (farOut.perform (.step ⟨0⟩ (.ofSeconds 1))).world.tick = 1 ∧
      (farOut.perform (.step ⟨0⟩ (.ofSeconds 1))).world.botsNamed = 1 := by
  refine ⟨hugeCells.check_eq_ok_iff.mpr (by decide +kernel), ?_⟩
  decide +kernel

end Run

end CellWorld
