import CellWorld.Proofs.Chronicle

/-!
# Going back

A player that changes cells and then changes back has moved by at least `2 * H` on the axis that
gates both changes, and by `3 * H` when the cells are adjacent there: it left with a margin of at
least `H`, it is in the new cell, and the margin toward `prevCell` is `2 * H`.

* `Axis`, `Axis.between` — the axis that gates the move between two cells: `x` if the columns
  differ, else `z`
* `Past i j s m x` — `x` has left the slice `i` of width `s` toward `j` by `m`; `apart_of_past` —
  going there and back
* `Axis.past_of_left`, `Axis.inside_of_containing` — `leftBeyond` on the gating axis, and the
  position in the new cell, saturated indices included
* `Host.Commit`, `Host.commit_of_entry` — the player before and after an event of a step
* `Host.cells_tell` — operations that tell nothing of `id` keep its `ownedCell` and `prevCell`
* `Host.Commit.apart`, `return_apart` — the distance between the two events of a player
* `tight_return` — a player that goes back by exactly `3 * H`

A player that was placed in between is excluded: `upsert` keeps `prevCell`, and what then happens is
the subject of `Proofs.Trail`.
-/

namespace CellWorld

open Exact (value)

variable {σ α : Type}

/-! ### Slices of a line -/

/-- The number `x` has left the slice `[i * s, (i + 1) * s)` toward the slice `j` by `m`. -/
structure Past (i j : Int) (s m x : ℝ) : Prop where
  up : i < j → (i + 1) * s + m ≤ x
  down : j < i → x ≤ i * s - m

theorem Past.mono {i j : Int} {s m n x : ℝ} (h : Past i j s n x) (less : m ≤ n) :
    Past i j s m x where
  up order := (add_le_add_right less _).trans (h.up order)
  down order := (h.down order).trans (sub_le_sub_left less _)

/-- Reflection of the line turns up into down. -/
theorem Past.neg {i j : Int} {s m x : ℝ} (h : Past i j s m x) :
    Past (-i - 1) (-j - 1) s m (-x) where
  up order := by
    have down := h.down (by omega)
    push_cast
    linarith
  down order := by
    have up := h.up (by omega)
    push_cast
    linarith

/-- Up to `j` and back: `x` is past the upper end of `i` by `m` and not below `j`; `y` is past the
lower end of `j` by `2 * m`. -/
theorem apart_of_up {i j : Int} {s m x y : ℝ} (order : i < j) (hm : 0 ≤ m) (gone : Past i j s m x)
    (back : Past j i s (2 * m) y) (inside : 0 < s → j * s ≤ x) :
    2 * m ≤ x - y ∧ (j = i + 1 → 3 * m ≤ x - y) := by
  have far := gone.up order
  have near := back.down order
  constructor
  · rcases lt_or_ge 0 s with hs | hs
    · have reached := inside hs
      linarith
    · have behind : (j : ℝ) * s ≤ (i + 1) * s :=
        mul_le_mul_of_nonpos_right (by exact_mod_cast order) hs
      linarith
  · rintro rfl
    push_cast at near
    linarith

/-- Both directions, by reflection. -/
theorem apart_of_past {i j : Int} {s m x y : ℝ} (other : i ≠ j) (hm : 0 ≤ m)
    (gone : Past i j s m x) (back : Past j i s (2 * m) y)
    (inside : 0 < s → (i < j → j * s ≤ x) ∧ (j < i → x ≤ (j + 1) * s)) :
    2 * m ≤ |x - y| ∧ ((i - j).natAbs = 1 → 3 * m ≤ |x - y|) := by
  rcases lt_or_gt_of_ne other with order | order
  · obtain ⟨twice, thrice⟩ := apart_of_up order hm gone back fun hs => (inside hs).1 order
    exact ⟨twice.trans (le_abs_self _), fun next => (thrice (by omega)).trans (le_abs_self _)⟩
  · have reached (hs : 0 < s) : ((-j - 1 : Int) : ℝ) * s ≤ -x := by
      have below := (inside hs).2 order
      push_cast
      linarith
    obtain ⟨twice, thrice⟩ := apart_of_up (by omega) hm gone.neg back.neg reached
    have turned : -x - -y = -(x - y) := by ring
    rw [turned] at twice thrice
    exact ⟨twice.trans (neg_le_abs _), fun next => (thrice (by omega)).trans (neg_le_abs _)⟩

/-! ### The axis that gates a move -/

/-- The axes on which the plane is cut into cells. -/
inductive Axis where
  | x
  | z
deriving DecidableEq

namespace Axis

/-- The columns gate a move, if they differ. -/
def between (a b : Cell) : Axis := if a.cx = b.cx then z else x

def index : Axis → Cell → Int
  | x, c => c.cx.toInt
  | z, c => c.cz.toInt

def coord : Axis → Point α → α
  | x, p => p.x
  | z, p => p.z

theorem between_comm (a b : Cell) : between a b = between b a := by
  unfold between
  simp only [eq_comm]

/-- The gating axis is one on which the cells differ. -/
theorem index_ne {a b : Cell} (other : a ≠ b) :
    (between a b).index a ≠ (between a b).index b := by
  intro same
  unfold between at same
  split at same
  · next column => exact other (Cell.ext_toInt (congrArg Int32.toInt column) same)
  · next column => exact column (Int32.toInt_inj.mp same)

variable [Scalar α] [Exact α] {p : Point α} {a b : Cell} {size margin : α}

/-- On the gating axis `leftBeyond` is `Past`. -/
theorem past_of_left (left : leftBeyond p a b size margin = true) :
    Past ((between a b).index a) ((between a b).index b) (value size) (value margin)
      (value ((between a b).coord p)) := by
  unfold leftBeyond Border.between? at left
  by_cases column : a.cx = b.cx
  · have gate : between a b = z := if_pos column
    rw [gate]
    rw [column, if_neg Int32.lt_irrefl, if_neg Int32.lt_irrefl] at left
    refine ⟨fun north => ?_, fun south => ?_⟩
    · rw [if_pos (Int32.lt_iff_toInt_lt.mpr north)] at left
      simpa [Border.passed, Exact.le_iff, index, coord] using left
    · have order := Int32.lt_iff_toInt_lt.mpr south
      rw [if_neg (Int32.lt_asymm order), if_pos order] at left
      simpa [Border.passed, Exact.le_iff, index, coord] using left
  · have gate : between a b = x := if_neg column
    rw [gate]
    refine ⟨fun east => ?_, fun west => ?_⟩
    · rw [if_pos (Int32.lt_iff_toInt_lt.mpr east)] at left
      simpa [Border.passed, Exact.le_iff, index, coord] using left
    · have order := Int32.lt_iff_toInt_lt.mpr west
      rw [if_neg (Int32.lt_asymm order), if_pos order] at left
      simpa [Border.passed, Exact.le_iff, index, coord] using left

theorem index_containing (axis : Axis) (p : Point α) (size : α) :
    axis.index (Cell.containing p size) =
      (Number.clampIndex ⌊value (axis.coord p) / value size⌋).toInt := by
  rw [← Exact.value_div, ← Exact.floorIndex_eq]
  cases axis <;> rfl

/-- A point is not short of its cell, as seen from `a`. An index may have been kept on the grid, but
not the one on the side of `a`. -/
theorem inside_of_containing (axis : Axis) (p : Point α) (a : Cell) (hs : 0 < value size) :
    let b := Cell.containing p size
    (axis.index a < axis.index b → axis.index b * value size ≤ value (axis.coord p)) ∧
      (axis.index b < axis.index a → value (axis.coord p) ≤ (axis.index b + 1) * value size) := by
  intro b
  let n : Int := ⌊value (axis.coord p) / value size⌋
  have kept : axis.index b = max (-0x80000000) (min n 0x7FFFFFFF) :=
    (axis.index_containing p size).trans (toInt_clampIndex_eq n)
  have edges : -0x80000000 ≤ axis.index a ∧ axis.index a < 0x80000000 := by
    cases axis
    · exact ⟨a.cx.le_toInt, a.cx.toInt_lt⟩
    · exact ⟨a.cz.le_toInt, a.cz.toInt_lt⟩
  obtain ⟨low, high⟩ := (floor_div_eq_iff hs n).mp rfl
  refine ⟨fun order => ?_, fun order => ?_⟩
  · have below : axis.index b ≤ n := by omega
    have scaled : (axis.index b : ℝ) * value size ≤ n * value size :=
      mul_le_mul_of_nonneg_right (by exact_mod_cast below) hs.le
    exact scaled.trans low
  · have above : n ≤ axis.index b := by omega
    have scaled : ((n : ℝ) + 1) * value size ≤ (axis.index b + 1) * value size :=
      mul_le_mul_of_nonneg_right (by exact_mod_cast Int.add_le_add_right above 1) hs.le
    exact high.le.trans scaled

end Axis

/-! ### Changes of cells -/

namespace Host

variable [Angular α]

/-- A change of cells in a step, with the player before and after it. -/
structure Commit (h : Host σ α) (now : Time) (dt : Span) (e : HandoverEvent) (p q : Player α) :
    Prop where
  before : h.world.players[e.player]? = some p
  after : (h.perform (.step now dt)).world.players[e.player]? = some q
  source : p.ownedCell = e.source
  cells : q.cells = (e.target, some e.source)
  changed : e.source ≠ e.target
  inside : e.target = Cell.containing q.pos h.engine.settings.cellSize
  left : leftBeyond q.pos e.source e.target h.engine.settings.cellSize
    (marginToward e.target p.prevCell h.engine.settings.hysteresis) = true

/-- Every event of a step is a `Commit`. -/
theorem commit_of_entry {h : Host σ α} {now : Time} {dt : Span} {e : HandoverEvent}
    (told : .committed e ∈ h.entries (.step now dt)) : ∃ p q, h.Commit now dt e p q := by
  obtain ⟨e, made, ⟨⟩⟩ := List.mem_map.mp told
  obtain ⟨id, -, crossing⟩ := List.mem_filterMap.mp made
  obtain ⟨rfl, -, changed, home, home'⟩ := World.of_crossing crossing
  obtain ⟨p, hp, source⟩ := Option.map_eq_some_iff.mp home
  obtain ⟨q, hq, target⟩ := Option.map_eq_some_iff.mp home'
  obtain ⟨minted, after⟩ := h.players_step now dt e.player
  let looked := (p.integrated dt.seconds).evaluate (h.engine.handoverRules now) h.issuer minted
  obtain rfl : looked.1.player = q := by
    rw [hq, hp] at after
    exact (Option.some.inj after).symm
  obtain ⟨kept, owned⟩ := Player.kept_evaluate (h.engine.handoverRules now) h.issuer
    (p.integrated dt.seconds) minted
  have place : looked.1.player.pos = (p.integrated dt.seconds).pos := congrArg Entity.pos kept
  have stop := owned.symm.trans target
  cases due : (p.integrated dt.seconds).due? (h.engine.handoverRules now) with
  | none =>
    rw [due] at stop
    exact absurd (source.symm.trans stop) changed
  | some cell =>
    rw [due] at stop
    obtain rfl : cell = e.target := stop
    refine ⟨p, looked.1.player, hp, hq, source, ?_, changed, ?_, ?_⟩
    · rw [← source]
      exact Player.cells_evaluate_of_due h.issuer minted due
    · rw [place]
      exact Player.containing_of_due due
    · rw [place, ← source]
      exact Player.left_of_due due

/-- A step without an event of `id` keeps both of its cells. -/
theorem cells_step (h : Host σ α) (now : Time) (dt : Span) {id : String}
    (silent : ∀ x ∈ h.entries (.step now dt), x.isAbout id = false) :
    (h.perform (.step now dt)).world.players[id]?.map Player.cells =
      h.world.players[id]?.map Player.cells := by
  have stays : h.world.crossing? (h.perform (.step now dt)).world h.routeOf id = none := by
    have none := h.world.filter_crossings (h.perform (.step now dt)).world h.routeOf id
    rw [List.filter_eq_nil_iff.mpr] at none
    · exact Option.toList_eq_nil_iff.mp none.symm
    · intro e made
      exact Bool.eq_false_iff.mp (silent (.committed e) (List.mem_map_of_mem made))
  have home := World.home_of_no_crossing (h.mem_players_step now dt id) stays
  obtain ⟨minted, after⟩ := h.players_step now dt id
  unfold World.playerHome? at home
  rw [after] at home ⊢
  cases hp : h.world.players[id]? with
  | none => rfl
  | some p =>
    rw [hp] at home
    exact congrArg some (Player.cells_evaluate_of_stays (Option.some.inj home))

/-- Induction on the operations: none of them changes the cells of `id`, as none tells of it. -/
theorem cells_tell {id : String} (os : List (Operation σ α)) (h : Host σ α)
    (single : ∀ o ∈ os, ∀ clock, o ≠ .ticks clock)
    (silent : ∀ x ∈ h.tell os, x.isAbout id = false) :
    (h.run os).world.players[id]?.map Player.cells = h.world.players[id]?.map Player.cells := by
  induction os generalizing h with
  | nil => rfl
  | cons o os ih =>
    have ticks := single o List.mem_cons_self
    have quiet (x : Entry) (hx : x ∈ h.entries o) : x.isAbout id = false :=
      silent x (List.mem_append_left _ hx)
    have later := ih (h.perform o) (fun o' ho' => single o' (List.mem_cons_of_mem o ho'))
      fun x hx => silent x (List.mem_append_right _ hx)
    refine later.trans ?_
    by_cases step : ∃ now dt, o = .step now dt
    · obtain ⟨now, dt, rfl⟩ := step
      exact h.cells_step now dt quiet
    · push Not at step
      refine view_perform Player.cells (fun _ _ _ _ _ => rfl) h o step ticks fun places => ?_
      have drain : o ≠ .drain := by
        rintro rfl
        exact Option.some_ne_none id places.symm
      have told : .placed id ∈ h.entries o := by
        rw [h.entries_request o step drain, places]
        exact List.mem_singleton_self _
      exact Bool.false_ne_true ((quiet _ told).symm.trans (beq_self_eq_true id))

end Host

/-! ### There and back -/

section Whole

variable [Angular α] [Exact α]

/-- Two commits of a player, the second back to where the first came from, with the cells unchanged
in between: on the gating axis, `2 * H ≤ distance`, and `3 * H` if the indices differ by one. -/
theorem Host.Commit.apart {h h' : Host σ α} {now now' : Time} {dt dt' : Span}
    {e e' : HandoverEvent} {p₀ p q₀ q : Player α} (first : h.Commit now dt e p₀ p)
    (second : h'.Commit now' dt' e' q₀ q) (cells : q₀.cells = p.cells)
    (settings : h'.engine.settings = h.engine.settings)
    (margin : 0 ≤ value h.engine.settings.hysteresis) (target : e'.target = e.source) :
    e'.source = e.target ∧
      let axis := Axis.between e.source e.target
      let distance := |value (axis.coord p.pos) - value (axis.coord q.pos)|
      2 * value h.engine.settings.hysteresis ≤ distance ∧
        ((axis.index e.source - axis.index e.target).natAbs = 1 →
          3 * value h.engine.settings.hysteresis ≤ distance) := by
  obtain ⟨owned, prev⟩ := Prod.mk.inj (cells.trans first.cells)
  have source : e'.source = e.target := second.source.symm.trans owned
  refine ⟨source, ?_⟩
  have gone := (Axis.past_of_left first.left).mono
    (le_value_marginToward e.target p₀.prevCell margin)
  have returned := Axis.past_of_left second.left
  rw [prev, source, target, value_marginToward_self, Axis.between_comm, settings] at returned
  refine apart_of_past (Axis.index_ne first.changed) margin gone returned fun hs => ?_
  rw [first.inside]
  exact Axis.inside_of_containing _ p.pos e.source hs

/-- Let `0 ≤ H`, and take any two steps of a run, those within `ticks` included. If a player has an
event `e` in the first and `e'` in the second, back to `e.source`, with no entry about it in
between, then `e'.source = e.target`, and its positions after the two steps are at least `2 * H`
apart on `Axis.between e.source e.target`, and `3 * H` if the cells are adjacent on it. -/
theorem return_apart (settings : Settings α) (chance : Random) (source : σ)
    (os : List (Operation σ α)) (margin : 0 ≤ value settings.hysteresis)
    (before between after : List (Operation σ α)) (now now' : Time) (dt dt' : Span)
    (split : (Host.create settings chance source).singly os =
      before ++ .step now dt :: (between ++ .step now' dt' :: after)) :
    let h := (Host.create settings chance source).run before
    let away := h.perform (.step now dt)
    let h' := away.run between
    let back := h'.perform (.step now' dt')
    ∀ e e', .committed e ∈ h.entries (.step now dt) →
      .committed e' ∈ h'.entries (.step now' dt') → e'.player = e.player →
      (∀ x ∈ away.tell between, x.isAbout e.player = false) → e'.target = e.source →
      ∃ p q, away.world.players[e.player]? = some p ∧ back.world.players[e.player]? = some q ∧
        e'.source = e.target ∧
        let axis := Axis.between e.source e.target
        let distance := |value (axis.coord p.pos) - value (axis.coord q.pos)|
        2 * value settings.hysteresis ≤ distance ∧
          ((axis.index e.source - axis.index e.target).natAbs = 1 →
            3 * value settings.hysteresis ≤ distance) := by
  intro h away h' back e e' told told' same silent target
  have single (o : Operation σ α) (ho : o ∈ between) : ∀ clock, o ≠ .ticks clock := by
    have listed : o ∈ (Host.create settings chance source).singly os := by
      rw [split]
      exact List.mem_append_right _ (List.mem_cons_of_mem _ (List.mem_append_left _ ho))
    exact (Host.of_mem_singly listed).1
  obtain ⟨p₀, p, first⟩ := Host.commit_of_entry told
  obtain ⟨q₀, q, second⟩ := Host.commit_of_entry told'
  have there : h'.world.players[e.player]? = some q₀ := same ▸ second.before
  have arrived : back.world.players[e.player]? = some q := same ▸ second.after
  -- the player is still owned by the cell that it came to, and remembers the one that it left
  have cells : q₀.cells = p.cells := by
    have stays : h'.world.players[e.player]?.map Player.cells = _ :=
      Host.cells_tell between away single silent
    rw [there, first.after] at stays
    exact Option.some.inj stays
  have start : h.engine.settings = settings := Host.settings_run _ before
  have kept : h'.engine.settings = h.engine.settings :=
    (Host.settings_run away between).trans (Host.settings_perform h _)
  obtain ⟨follows, apart⟩ := first.apart second cells kept (start ▸ margin) target
  rw [start] at apart
  exact ⟨p, q, first.after, arrived, follows, apart⟩

end Whole

/-- A player goes to the next cell, and back by six metres. -/
def thereAndBack : List (Operation Unit ℚ) :=
  [.upsert "p1" "one" ⟨9, 0, 5⟩ ⟨3, 0, 0⟩, .step ⟨0⟩ (.ofSeconds 1),
    .setVelocity "p1" ⟨-6, 0, 0⟩, .step ⟨1⟩ (.ofSeconds 1)]

/-- With `H = 2` the bound of `3 * H` is attained. -/
theorem tight_return :
    let away := (Host.create tenMetres (.ofSeed 1) ()).run (thereAndBack.take 2)
    let back := (Host.create tenMetres (.ofSeed 1) ()).run thereAndBack
    ∃ p q, away.world.players["p1"]? = some p ∧ back.world.players["p1"]? = some q ∧
      p.ownedCell = ⟨1, 0⟩ ∧ q.ownedCell = ⟨0, 0⟩ ∧
      3 * value tenMetres.hysteresis ≤ |value p.pos.x - value q.pos.x| ∧
      |value p.pos.x - value q.pos.x| = 6 := by
  intro away back
  let start : Host Unit ℚ := Host.create tenMetres (.ofSeed 1) ()
  let e : HandoverEvent := ⟨"p1", ⟨0, 0⟩, ⟨1, 0⟩, 1, .onNode⟩
  let e' : HandoverEvent := ⟨"p1", ⟨1, 0⟩, ⟨0, 0⟩, 2, .onNode⟩
  have told : (start.run (thereAndBack.take 1)).entries (.step ⟨0⟩ (.ofSeconds 1)) =
      [.committed e] := by decide +kernel
  have told' : (start.run (thereAndBack.take 3)).entries (.step ⟨1⟩ (.ofSeconds 1)) =
      [.committed e'] := by decide +kernel
  have silent : ∀ x ∈ away.tell [.setVelocity "p1" ⟨-6, 0, 0⟩], x.isAbout e.player = false := by
    have nothing : away.tell [.setVelocity "p1" ⟨-6, 0, 0⟩] = [] := rfl
    intro x hx
    rw [nothing] at hx
    exact absurd hx List.not_mem_nil
  have margin : (0 : ℝ) ≤ value tenMetres.hysteresis := by norm_num [tenMetres]
  obtain ⟨p, q, hp, hq, -, -, thrice⟩ := return_apart tenMetres (.ofSeed 1) () thereAndBack margin
    (thereAndBack.take 1) [.setVelocity "p1" ⟨-6, 0, 0⟩] [] ⟨0⟩ ⟨1⟩ (.ofSeconds 1) (.ofSeconds 1)
    rfl e e' (told ▸ List.mem_singleton_self _) (told' ▸ List.mem_singleton_self _) rfl silent rfl
  have there : away.world.players["p1"]?.map (fun p => (p.pos.x, p.ownedCell)) =
      some (12, ⟨1, 0⟩) := by decide +kernel
  have here : back.world.players["p1"]?.map (fun p => (p.pos.x, p.ownedCell)) =
      some (6, ⟨0, 0⟩) := by decide +kernel
  rw [show away.world.players["p1"]? = some p from hp] at there
  rw [show back.world.players["p1"]? = some q from hq] at here
  obtain ⟨px, pc⟩ := Prod.mk.inj (Option.some.inj there)
  obtain ⟨qx, qc⟩ := Prod.mk.inj (Option.some.inj here)
  refine ⟨p, q, hp, hq, pc, qc, thrice (by decide), ?_⟩
  rw [px, qx]
  norm_num

end CellWorld
