import CellWorld.Proofs.Evaluation
import CellWorld.Proofs.Exact

/-!
# How far a player can be from the cell that owns it

A player changes cells only when it is past a border by the margin, which is `H` or, toward the cell
it has just left, `2 * H`. A diagonal move is gated by the border of the column alone.

* `spansX_of_not_left`, `spansZ_of_not_left` — a point for which `leftBeyond` fails is over the
  columns, and within its column over the rows, widened by the margin
* `Player.spansX_evaluate`, `Player.spansZ_evaluate` — the same of an evaluated player, with `2 * H`
* `lag_bounded` — after a step, `SpansX (2 * H) p.pos` holds of every player, and
  `SpansX 0 p.pos → SpansZ (2 * H) p.pos`
* `straight_lag` — a player one metre past its column, as it may be
* `diagonal_lag` — a player ninety metres past its row, while it is past its column by less than `H`

No bound on the second axis holds without the premise `SpansX 0 p.pos`; `diagonal_lag` is the
counterexample. The results are about positions on the grid (`OnGrid`), where cell indices do not
saturate, and say nothing of a player between two steps: operations may put it anywhere.
-/

namespace CellWorld

open Exact (value)

variable {σ α : Type}

/-! ### A point that has not left a cell -/

/-- If `x` is in slice `j` and not past slice `i` by `m` at either end, then
`i * s - m ≤ x < (i + 1) * s + m`. The three cases are `j = i`, `i < j` and `j < i`. -/
theorem near_slice {i j : Int} {x s m : ℝ} (hs : 0 < s) (hm : 0 ≤ m)
    (inside : j * s ≤ x ∧ x < (j + 1) * s) (above : i < j → x < (i + 1) * s + m)
    (below : j < i → i * s - m < x) : i * s - m ≤ x ∧ x < (i + 1) * s + m := by
  rcases lt_trichotomy i j with up | same | down
  · have ahead : (i : ℝ) * s ≤ j * s := mul_le_mul_of_nonneg_right (by exact_mod_cast up.le) hs.le
    exact ⟨by linarith, above up⟩
  · subst same
    exact ⟨by linarith, by linarith⟩
  · have behind : ((j : ℝ) + 1) * s ≤ (i + 1) * s :=
      mul_le_mul_of_nonneg_right (by exact_mod_cast Int.add_le_add_right down.le 1) hs.le
    exact ⟨(below down).le, by linarith⟩

section Border

variable [Scalar α] [Exact α] {size margin : α} {p : Point α} {c : Cell} {m : ℝ}

/-- The test `leftBeyond` decides on the column whenever the columns differ, so its failure bounds
`x` by the margin. -/
theorem spansX_of_not_left (g : OnGrid size p) (hs : 0 < value size) (hm : 0 ≤ m)
    (small : value margin ≤ m)
    (stays : leftBeyond p c (Cell.containing p size) size margin = false) :
    (Bounds.ofCell c size).SpansX m p := by
  have inside := g.spansX hs
  rw [Bounds.SpansX, Bounds.value_minX, Bounds.value_maxX, sub_zero, add_zero] at inside
  rw [Bounds.SpansX, Bounds.value_minX, Bounds.value_maxX]
  unfold leftBeyond Border.between? at stays
  refine near_slice hs hm inside ?_ ?_
  · intro east
    rw [if_pos (Int32.lt_iff_toInt_lt.mpr east)] at stays
    simp only [Border.passed, decide_eq_false_iff_not, Exact.le_iff, Exact.value_add,
      Bounds.value_maxX, not_le] at stays
    linarith
  · intro west
    have order := Int32.lt_iff_toInt_lt.mpr west
    rw [if_neg (Int32.lt_asymm order), if_pos order] at stays
    simp only [Border.passed, decide_eq_false_iff_not, Exact.le_iff, Exact.value_sub,
      Bounds.value_minX, not_le] at stays
    linarith

/-- Within the column `leftBeyond` decides on the row, so its failure bounds `z`. -/
theorem spansZ_of_not_left (g : OnGrid size p) (hs : 0 < value size) (hm : 0 ≤ m)
    (small : value margin ≤ m) (column : (Cell.containing p size).cx = c.cx)
    (stays : leftBeyond p c (Cell.containing p size) size margin = false) :
    (Bounds.ofCell c size).SpansZ m p := by
  have inside := g.spansZ hs
  rw [Bounds.SpansZ, Bounds.value_minZ, Bounds.value_maxZ, sub_zero, add_zero] at inside
  rw [Bounds.SpansZ, Bounds.value_minZ, Bounds.value_maxZ]
  unfold leftBeyond Border.between? at stays
  rw [column, if_neg Int32.lt_irrefl, if_neg Int32.lt_irrefl] at stays
  refine near_slice hs hm inside ?_ ?_
  · intro north
    rw [if_pos (Int32.lt_iff_toInt_lt.mpr north)] at stays
    simp only [Border.passed, decide_eq_false_iff_not, Exact.le_iff, Exact.value_add,
      Bounds.value_maxZ, not_le] at stays
    linarith
  · intro south
    have order := Int32.lt_iff_toInt_lt.mpr south
    rw [if_neg (Int32.lt_asymm order), if_pos order] at stays
    simp only [Border.passed, decide_eq_false_iff_not, Exact.le_iff, Exact.value_sub,
      Bounds.value_minZ, not_le] at stays
    linarith

/-- The margin is `H` or `2 * H`. -/
theorem value_marginToward_le (target : Cell) (prev : Option Cell) {margin : α}
    (hm : 0 ≤ value margin) : value (marginToward target prev margin) ≤ 2 * value margin := by
  unfold marginToward
  split
  · rw [Exact.value_mul, Exact.value_ofScientific]
    norm_num
  · linarith

theorem le_value_marginToward (target : Cell) (prev : Option Cell) (hm : 0 ≤ value margin) :
    value margin ≤ value (marginToward target prev margin) := by
  unfold marginToward
  split
  · rw [Exact.value_mul, Exact.value_ofScientific]
    norm_num
    linarith
  · exact le_refl _

/-- The case of equality in `value_marginToward_le`. -/
theorem value_marginToward_self (target : Cell) :
    value (marginToward target (some target) margin) = 2 * value margin := by
  rw [marginToward, if_pos rfl, Exact.value_mul, Exact.value_ofScientific]
  norm_num

end Border

/-! ### A player that was looked at -/

namespace Player

section Due

variable [Scalar α] {rules : HandoverRules α}

/-- A value `due? = none` says either that the cells agree or that `leftBeyond` is false; in both
cases it is false. -/
theorem not_left_of_due {p : Player α} (h : p.due? rules = none) :
    leftBeyond p.pos p.ownedCell (Cell.containing p.pos rules.cellSize) rules.cellSize
      (marginToward (Cell.containing p.pos rules.cellSize) p.prevCell rules.hysteresis) =
        false := by
  unfold due? at h
  dsimp only at h
  split at h
  · next same => rw [same, leftBeyond_self]
  · split at h
    · exact absurd h (Option.some_ne_none _)
    · next stays => exact Bool.eq_false_iff.mpr stays

variable [Exact α] (issuer : Option (Issuer σ α)) (p : Player α) (source : σ)

theorem spansX_evaluate (g : OnGrid rules.cellSize p.pos) (hs : 0 < value rules.cellSize)
    (hm : 0 ≤ value rules.hysteresis) :
    (Bounds.ofCell (p.evaluate rules issuer source).1.player.ownedCell rules.cellSize).SpansX
      (2 * value rules.hysteresis) p.pos := by
  have wide : (0 : ℝ) ≤ 2 * value rules.hysteresis := by linarith
  rw [(kept_evaluate rules issuer p source).2]
  cases h : p.due? rules with
  | none =>
    exact spansX_of_not_left g hs wide (value_marginToward_le _ _ hm) (not_left_of_due h)
  | some target =>
    rw [Option.getD_some, containing_of_due h]
    exact (g.spansX hs).mono wide

theorem spansZ_evaluate (g : OnGrid rules.cellSize p.pos) (hs : 0 < value rules.cellSize)
    (hm : 0 ≤ value rules.hysteresis)
    (column : (Bounds.ofCell (p.evaluate rules issuer source).1.player.ownedCell
      rules.cellSize).SpansX 0 p.pos) :
    (Bounds.ofCell (p.evaluate rules issuer source).1.player.ownedCell rules.cellSize).SpansZ
      (2 * value rules.hysteresis) p.pos := by
  have wide : (0 : ℝ) ≤ 2 * value rules.hysteresis := by linarith
  have same := g.cx_of_spansX hs column
  rw [(kept_evaluate rules issuer p source).2] at same ⊢
  cases h : p.due? rules with
  | none =>
    rw [h] at same
    exact spansZ_of_not_left g hs wide (value_marginToward_le _ _ hm) same (not_left_of_due h)
  | some target =>
    rw [Option.getD_some, containing_of_due h]
    exact (g.spansZ hs).mono wide

end Due

end Player

/-! ### Every player after a step -/

section Step

variable [Angular α] [Exact α]

/-- The function `check` accepts only `0 < cellSize` and `0 ≤ hysteresis`. -/
theorem Settings.sizes_of_check {s : Settings α} (ok : s.check = .ok ()) :
    0 < value s.cellSize ∧ 0 ≤ value s.hysteresis := by
  have zero : value (0.0 : α) = 0 := by
    rw [Exact.value_ofScientific]
    norm_num
  obtain ⟨⟨size, -⟩, -, -, -, ⟨hysteresis, -⟩, -⟩ := s.check_eq_ok_iff.mp ok
  rw [Exact.lt_iff, zero] at size
  rw [Exact.le_iff, zero] at hysteresis
  exact ⟨size, hysteresis⟩

/-- After a step, from any host state with checked settings, every player on the grid is within
`2 * H` of the columns of its owned cell, and if it is over these columns, within `2 * H` of its
rows. -/
theorem lag_bounded (h : Host σ α) (ok : h.engine.settings.check = .ok ()) (now : Time) (dt : Span)
    {id : String} {p : Player α} (hp : (h.perform (.step now dt)).world.players[id]? = some p)
    (g : OnGrid h.engine.settings.cellSize p.pos) :
    let square := Bounds.ofCell p.ownedCell h.engine.settings.cellSize
    square.SpansX (2 * value h.engine.settings.hysteresis) p.pos ∧
      (square.SpansX 0 p.pos → square.SpansZ (2 * value h.engine.settings.hysteresis) p.pos) := by
  obtain ⟨source, after⟩ := Host.players_step h now dt id
  obtain ⟨old, -, rfl⟩ := Option.map_eq_some_iff.mp (after.symm.trans hp)
  obtain ⟨hs, hm⟩ := Settings.sizes_of_check ok
  have moved := (Player.kept_evaluate (h.engine.handoverRules now) h.issuer
    (old.integrated dt.seconds) source).1
  have place := congrArg Entity.pos moved
  dsimp only at place g ⊢
  rw [place] at g ⊢
  exact ⟨Player.spansX_evaluate h.issuer _ source g hs hm,
    Player.spansZ_evaluate h.issuer _ source g hs hm⟩

end Step

/-! ### Two moves -/

/-- Settings with `cellSize = 10`, `hysteresis = 2`, no bots. -/
def tenMetres : Settings ℚ :=
  { Settings.standard with cellSize := 10, hysteresis := 2, targetDensity := 0 }

theorem check_tenMetres : tenMetres.check = .ok () :=
  tenMetres.check_eq_ok_iff.mpr (by decide +kernel)

/-- At `x = 11` the player is past `10` by one metre, less than `H = 2`: it stays owned by `(0, 0)`
and satisfies the bound. -/
theorem straight_lag :
    let h := ((Host.create tenMetres (.ofSeed 1) () : Host Unit ℚ).run
      [.upsert "p1" "one" ⟨9, 0, 5⟩ ⟨2, 0, 0⟩]).perform (.step ⟨0⟩ (.ofSeconds 1))
    ∃ p, h.world.players["p1"]? = some p ∧ p.pos = ⟨11, 0, 5⟩ ∧ p.ownedCell = ⟨0, 0⟩ ∧
      (Bounds.ofCell p.ownedCell tenMetres.cellSize).SpansX (2 * value tenMetres.hysteresis)
        p.pos := by
  intro h
  have found : h.world.players["p1"]?.map (fun p => (p.pos, p.ownedCell)) =
      some (⟨11, 0, 5⟩, ⟨0, 0⟩) := by decide +kernel
  obtain ⟨p, hp, here⟩ := Option.map_eq_some_iff.mp found
  obtain ⟨pos, cell⟩ := Prod.mk.inj here
  have g : OnGrid tenMetres.cellSize p.pos := by
    rw [pos]
    exact onGrid_rat (by decide +kernel) (by decide +kernel)
  exact ⟨p, hp, pos, cell, (lag_bounded _ check_tenMetres ⟨0⟩ (.ofSeconds 1) hp g).1⟩

/-- At `(11, 100)` the column gates: `11 < 10 + H`, so the player stays owned by `(0, 0)`, ninety
metres past `z = 10`. -/
theorem diagonal_lag :
    let h := ((Host.create tenMetres (.ofSeed 1) () : Host Unit ℚ).run
      [.upsert "p1" "one" ⟨5, 0, 5⟩ ⟨6, 0, 95⟩]).perform (.step ⟨0⟩ (.ofSeconds 1))
    tenMetres.check = .ok () ∧ ∃ p, h.world.players["p1"]? = some p ∧
      OnGrid tenMetres.cellSize p.pos ∧
      ¬ (Bounds.ofCell p.ownedCell tenMetres.cellSize).SpansZ (2 * value tenMetres.hysteresis)
        p.pos := by
  intro h
  have found : h.world.players["p1"]?.map (fun p => (p.pos, p.ownedCell)) =
      some (⟨11, 0, 100⟩, ⟨0, 0⟩) := by decide +kernel
  obtain ⟨p, hp, here⟩ := Option.map_eq_some_iff.mp found
  obtain ⟨pos, cell⟩ := Prod.mk.inj here
  refine ⟨check_tenMetres, p, hp, ?_, ?_⟩
  · rw [pos]
    exact onGrid_rat (by decide +kernel) (by decide +kernel)
  · rw [pos, cell, Bounds.SpansZ, Bounds.value_minZ, Bounds.value_maxZ]
    norm_num [tenMetres, Int32.toInt_zero]

end CellWorld
