import CellWorld.Proofs.Chronicle

/-!
# A straight walk

A player that nobody touches walks east at a steady speed. While `H + stride ≤ cellSize` no border
is skipped, and the owned column after `n` steps is `max ⌊x₀ / cellSize⌋ ⌊(xₙ - H) / cellSize⌋`.

* `Walk`, `Walk.Fits` — start, speed and span of the steps; `0 < cellSize`, `0 ≤ H`, `0 ≤ speed`,
  `H + stride ≤ cellSize`, and a start on the grid
* `Walk.column`, `Walk.Fits.column_of_near`, `Walk.Fits.column_of_far` — the owned column, which
  stays while the player is short of the border plus `H`, and is the next one from there on
* `Walk.Reached n p` — the player after `n` steps; `Walk.Reached.evaluate` — and after one more
* `Operation.subject?`, `Host.players_other` — an operation that is not about `id` leaves its player
* `Walk.reached_run` — a whole walk, with its events (`Eastward`)
* `straight_walk` — position, owned cell and number of handovers after any run that leaves the
  player alone
* `four_steps_east` — a walk with `H + stride = cellSize`

The walk goes east: the other directions are not treated. The end of the walk has to be on the grid,
since columns saturate beyond it.
-/

namespace CellWorld

open Exact (value)

variable {σ α : Type}

/-! ### The column of a walk -/

/-- A walk to the east, in steps of one span. -/
structure Walk (α : Type) where
  start : Point α
  speed : α
  dt : Span

namespace Walk

variable [Scalar α] [Exact α] (w : Walk α) (settings : Settings α)

noncomputable def stride : ℝ := value w.speed * (w.dt.nanos / 10 ^ 9)

/-- The position after `n` steps. -/
noncomputable def reach (n : Nat) : ℝ := value w.start.x + n * w.stride

/-- The owned column after `n` steps: one hysteresis behind the player, or that of the start. -/
noncomputable def column (n : Nat) : Int :=
  max ⌊value w.start.x / value settings.cellSize⌋
    ⌊(w.reach n - value settings.hysteresis) / value settings.cellSize⌋

/-- The premises of a walk. `short` keeps a step from skipping a column. -/
structure Fits : Prop where
  size : 0 < value settings.cellSize
  margin : 0 ≤ value settings.hysteresis
  forward : 0 ≤ value w.speed
  short : value settings.hysteresis + w.stride ≤ value settings.cellSize
  grid : OnGrid settings.cellSize w.start

variable {w settings}

theorem reach_zero : w.reach 0 = value w.start.x := by simp [reach]

theorem reach_succ (n : Nat) : w.reach (n + 1) = w.reach n + w.stride := by
  unfold reach
  push_cast
  ring

namespace Fits

variable (fits : w.Fits settings)

include fits

theorem stride_nonneg : 0 ≤ w.stride := mul_nonneg fits.forward (by positivity)

theorem reach_mono {m n : Nat} (order : m ≤ n) : w.reach m ≤ w.reach n := by
  have counted : (m : ℝ) ≤ n := by exact_mod_cast order
  have farther := mul_le_mul_of_nonneg_right counted fits.stride_nonneg
  unfold reach
  linarith

/-- The column is monotone in the position. -/
theorem floor_le {x y : ℝ} (order : x ≤ y) :
    ⌊x / value settings.cellSize⌋ ≤ ⌊y / value settings.cellSize⌋ :=
  Int.floor_le_floor (div_le_div_of_nonneg_right order fits.size.le)

theorem column_zero : w.column settings 0 = ⌊value w.start.x / value settings.cellSize⌋ := by
  rw [column, reach_zero]
  exact max_eq_left (fits.floor_le (by linarith [fits.margin]))

/-- The owned column is not ahead of the player. -/
theorem column_le_floor (n : Nat) :
    w.column settings n ≤ ⌊w.reach n / value settings.cellSize⌋ := by
  refine max_le (fits.floor_le ?_) (fits.floor_le (by linarith [fits.margin]))
  rw [← reach_zero]
  exact fits.reach_mono n.zero_le

theorem column_le_succ (n : Nat) : w.column settings n ≤ w.column settings (n + 1) := by
  refine max_le_max (le_refl _) (fits.floor_le ?_)
  linarith [fits.reach_mono n.le_succ]

/-- Short of the border plus `H`, the owned column stays. -/
theorem column_of_near {n : Nat}
    (near : w.reach (n + 1) <
      (w.column settings n + 1) * value settings.cellSize + value settings.hysteresis) :
    w.column settings (n + 1) = w.column settings n := by
  refine le_antisymm (max_le (le_max_left _ _) ?_) (fits.column_le_succ n)
  refine Int.lt_add_one_iff.mp (Int.floor_lt.mpr ?_)
  rw [div_lt_iff₀ fits.size]
  push_cast
  linarith

/-- From the border plus `H` on, the owned column is the next, and the player is in it. -/
theorem column_of_far {n : Nat}
    (far : (w.column settings n + 1) * value settings.cellSize + value settings.hysteresis ≤
      w.reach (n + 1)) :
    w.column settings (n + 1) = w.column settings n + 1 ∧
      ⌊w.reach (n + 1) / value settings.cellSize⌋ = w.column settings n + 1 := by
  have behind : ⌊(w.reach n - value settings.hysteresis) / value settings.cellSize⌋ ≤
      w.column settings n := le_max_right _ _
  have before : w.reach n - value settings.hysteresis <
      (w.column settings n + 1) * value settings.cellSize := by
    rw [← div_lt_iff₀ fits.size]
    exact_mod_cast Int.floor_lt.mp (Int.lt_add_one_iff.mpr behind)
  have short := fits.short
  have inside : ⌊w.reach (n + 1) / value settings.cellSize⌋ = w.column settings n + 1 := by
    refine (floor_div_eq_iff fits.size _).mpr ⟨?_, ?_⟩
    · push_cast
      linarith [fits.margin]
    · rw [reach_succ]
      push_cast
      linarith
  refine ⟨le_antisymm (inside ▸ fits.column_le_floor (n + 1)) ?_, inside⟩
  refine le_trans ?_ (le_max_right _ _)
  rw [Int.le_floor, le_div_iff₀ fits.size]
  push_cast
  linarith

end Fits

/-! ### One step -/

variable (w settings) in
/-- The player after `n` steps of its walk. -/
structure Reached (n : Nat) (p : Player α) : Prop where
  speed : value p.vel.x = value w.speed
  straight : value p.vel.z = 0
  x : value p.pos.x = w.reach n
  z : value p.pos.z = value w.start.z
  column : p.ownedCell.cx.toInt = w.column settings n
  row : p.ownedCell.cz.toInt = ⌊value w.start.z / value settings.cellSize⌋
  /-- The margin is never doubled: the cell before is behind. -/
  behind : ∀ k, p.prevCell = some k → k.cx < p.ownedCell.cx

section Step

variable {rules : HandoverRules α} {p : Player α} {n : Nat}

namespace Reached

theorem x_integrated (r : w.Reached settings n p) :
    value (p.integrated w.dt.seconds).pos.x = w.reach (n + 1) := by
  show value (p.pos.x + p.vel.x * w.dt.seconds) = _
  rw [Exact.value_add, Exact.value_mul, r.x, r.speed, Span.value_seconds, reach_succ]
  rfl

theorem z_integrated (r : w.Reached settings n p) :
    value (p.integrated w.dt.seconds).pos.z = value w.start.z := by
  show value (p.pos.z + p.vel.z * w.dt.seconds) = _
  rw [Exact.value_add, Exact.value_mul, r.z, r.straight]
  ring

/-- Toward a cell in the east, `leftBeyond` is being past the border by `H`: `prevCell` is in the
west, so the margin is not doubled. -/
theorem left_east_iff (r : w.Reached settings n p) {target : Cell}
    (east : p.ownedCell.cx < target.cx) (point : Point α) :
    leftBeyond point p.ownedCell target settings.cellSize
        (marginToward target p.prevCell settings.hysteresis) = true ↔
      (w.column settings n + 1) * value settings.cellSize + value settings.hysteresis ≤
        value point.x := by
  have new : p.prevCell ≠ some target := by
    intro old
    exact Int32.lt_asymm east (r.behind target old)
  rw [leftBeyond, Border.between?, if_pos east, marginToward, if_neg new]
  show decide _ = true ↔ _
  rw [decide_eq_true_eq, Exact.le_iff, Exact.value_add, Bounds.value_maxX, r.column]

variable (fits : w.Fits settings)
  (inside : ⌊w.reach (n + 1) / value settings.cellSize⌋ < 0x80000000)

include fits inside

/-- The cell of the new position is in the same row, and not behind. -/
theorem target (r : w.Reached settings n p) :
    let target := Cell.containing (p.integrated w.dt.seconds).pos settings.cellSize
    target.cx.toInt = ⌊w.reach (n + 1) / value settings.cellSize⌋ ∧
      target.cz = p.ownedCell.cz ∧ p.ownedCell.cx.toInt ≤ target.cx.toInt := by
  intro target
  have start : ⌊value w.start.x / value settings.cellSize⌋ ≤
      ⌊w.reach (n + 1) / value settings.cellSize⌋ :=
    (le_max_left _ _).trans (fits.column_le_floor (n + 1))
  have g : OnGrid settings.cellSize (p.integrated w.dt.seconds).pos := by
    constructor
    · rw [r.x_integrated]
      exact ⟨fits.grid.column.1.trans start, inside⟩
    · rw [r.z_integrated]
      exact fits.grid.row
  have column : target.cx.toInt = ⌊w.reach (n + 1) / value settings.cellSize⌋ := by
    rw [← r.x_integrated]
    exact g.toInt_cx
  have row : target.cz.toInt = p.ownedCell.cz.toInt := by
    rw [r.row, ← r.z_integrated]
    exact g.toInt_cz
  refine ⟨column, Int32.toInt_inj.mp row, ?_⟩
  rw [column, r.column]
  exact (fits.column_le_succ n).trans (fits.column_le_floor (n + 1))

variable (size : rules.cellSize = settings.cellSize)
  (margin : rules.hysteresis = settings.hysteresis)

include size margin

/-- Past the border plus `H` the player is due, and the target is the next cell. -/
theorem due_of_far (r : w.Reached settings n p)
    (far : (w.column settings n + 1) * value settings.cellSize + value settings.hysteresis ≤
      w.reach (n + 1)) :
    ∃ target, (p.integrated w.dt.seconds).due? rules = some target ∧
      target.cx.toInt = p.ownedCell.cx.toInt + 1 ∧ target.cz = p.ownedCell.cz := by
  obtain ⟨column, level, -⟩ := r.target fits inside
  let target := Cell.containing (p.integrated w.dt.seconds).pos settings.cellSize
  have next : target.cx.toInt = p.ownedCell.cx.toInt + 1 := by
    rw [r.column]
    exact column.trans (fits.column_of_far far).2
  have east : p.ownedCell.cx < target.cx := by
    rw [Int32.lt_iff_toInt_lt]
    omega
  have left := (r.left_east_iff east (p.integrated w.dt.seconds).pos).mpr (r.x_integrated ▸ far)
  refine ⟨target, ?_, next, level⟩
  rw [Player.due?_eq_if, size, margin]
  exact if_pos left

/-- Short of it the player is not due. -/
theorem due_of_near (r : w.Reached settings n p)
    (near : w.reach (n + 1) <
      (w.column settings n + 1) * value settings.cellSize + value settings.hysteresis) :
    (p.integrated w.dt.seconds).due? rules = none := by
  obtain ⟨-, level, ahead⟩ := r.target fits inside
  let target := Cell.containing (p.integrated w.dt.seconds).pos settings.cellSize
  rcases ahead.eq_or_lt with same | east
  · have home : p.ownedCell = target := Cell.ext_toInt same (congrArg Int32.toInt level.symm)
    refine Player.due?_eq_none_of_containing ?_
    rw [size]
    exact home
  · rw [Player.due?_eq_if, size, margin]
    refine if_neg fun left => ?_
    have far := (r.left_east_iff (Int32.lt_iff_toInt_lt.mpr east) _).mp left
    rw [r.x_integrated] at far
    exact absurd near (not_lt_of_ge far)

variable (rules) in
/-- An evaluation takes `Reached n` to `Reached (n + 1)`, and the owned cell stays or is the
next. -/
theorem evaluate (r : w.Reached settings n p) (issuer : Option (Issuer σ α)) (source : σ) :
    let q := ((p.integrated w.dt.seconds).evaluate rules issuer source).1.player
    w.Reached settings (n + 1) q ∧
      (q.ownedCell = p.ownedCell ∨
        q.ownedCell.cx.toInt = p.ownedCell.cx.toInt + 1 ∧ q.ownedCell.cz = p.ownedCell.cz) := by
  intro q
  obtain ⟨kept, owned⟩ := Player.kept_evaluate rules issuer (p.integrated w.dt.seconds) source
  have vel : q.vel = p.vel := (congrArg Entity.vel kept).trans rfl
  have pos : q.pos = (p.integrated w.dt.seconds).pos := congrArg Entity.pos kept
  have x : value q.pos.x = w.reach (n + 1) := by
    rw [pos]
    exact r.x_integrated
  have z : value q.pos.z = value w.start.z := by
    rw [pos]
    exact r.z_integrated
  rcases lt_or_ge (w.reach (n + 1)) ((w.column settings n + 1) * value settings.cellSize +
    value settings.hysteresis) with near | far
  · have due := r.due_of_near fits inside size margin near
    rw [due] at owned
    obtain ⟨home, prev⟩ := Prod.mk.inj (Player.cells_evaluate_of_stays owned)
    refine ⟨⟨vel ▸ r.speed, vel ▸ r.straight, x, z, ?_, ?_, ?_⟩, Or.inl home⟩
    · rw [home, fits.column_of_near near]
      exact r.column
    · rw [home]
      exact r.row
    · rw [home, prev]
      exact r.behind
  · obtain ⟨target, due, next, level⟩ := r.due_of_far fits inside size margin far
    obtain ⟨home, prev⟩ := Prod.mk.inj (Player.cells_evaluate_of_due issuer source due)
    rw [← home] at next level
    refine ⟨⟨vel ▸ r.speed, vel ▸ r.straight, x, z, ?_, ?_, ?_⟩, Or.inr ⟨next, level⟩⟩
    · rw [next, r.column, (fits.column_of_far far).1]
    · rw [level]
      exact r.row
    · intro k hk
      rw [prev] at hk
      rw [← Option.some.inj hk, Int32.lt_iff_toInt_lt, next]
      exact Int.lt_succ _

end Reached

end Step

end Walk

/-! ### What touches a player -/

namespace Operation

/-- The player that an operation is about. Steps are about all of them. -/
def subject? : Operation σ α → Option String
  | setVelocity id _ => some id
  | setConnection id _ => some id
  | acknowledge id _ => some id
  | resolve id _ => some id
  | o => o.places?

def isStep : Operation σ α → Bool
  | step _ _ => true
  | _ => false

end Operation

/-- The events of `id` in a chronicle. -/
def Entry.eventsOf (id : String) (told : List Entry) : List HandoverEvent :=
  (events told).filter fun e => e.player == id

theorem Entry.eventsOf_append (id : String) (told more : List Entry) :
    eventsOf id (told ++ more) = eventsOf id told ++ eventsOf id more := by
  unfold eventsOf
  rw [events_append, List.filter_append]

namespace Host

variable [Angular α]

/-- An operation that is not about `id`, and no step, leaves its player as it is. -/
theorem players_other (h : Host σ α) (o : Operation σ α) (step : ∀ now dt, o ≠ .step now dt)
    (ticks : ∀ clock, o ≠ .ticks clock) {id : String} (other : o.subject? ≠ some id) :
    (h.perform o).world.players[id]? = h.world.players[id]? := by
  obtain ⟨source, after⟩ := h.players_perform o ticks id
  have elsewhere {key : String} (touched : o.subject? = some key) : key ≠ id := by
    rintro rfl
    exact other touched
  rw [after]
  cases o with
  | step now dt => exact absurd rfl (step now dt)
  | upsert key name pos vel => exact if_neg (elsewhere rfl)
  | spawn key name pos => exact if_neg (elsewhere rfl)
  | remove key => exact if_neg (elsewhere rfl)
  | setVelocity key vel => exact if_neg (elsewhere rfl)
  | setConnection key connection => exact if_neg (elsewhere rfl)
  | acknowledge key seq => exact if_neg (elsewhere rfl)
  | receive d => exact if_neg (elsewhere rfl)
  | resolve key reply => exact if_neg (elsewhere rfl)
  | restore key saved templates => exact if_neg (elsewhere rfl)
  | _ => rfl

/-- Operations other than steps tell no events. -/
theorem events_request (h : Host σ α) (o : Operation σ α) (step : ∀ now dt, o ≠ .step now dt) :
    Entry.events (h.entries o) = [] := by
  by_cases drain : o = .drain
  · rw [drain]
    rfl
  · rw [h.entries_request o step drain]
    cases o.places? <;> rfl

theorem eventsOf_step (h : Host σ α) (now : Time) (dt : Span) (id : String) :
    Entry.eventsOf id (h.entries (.step now dt)) =
      (h.world.crossing? (h.perform (.step now dt)).world h.routeOf id).toList := by
  unfold Entry.eventsOf
  rw [entries, Entry.events_committed, World.filter_crossings]

end Host

/-! ### A whole walk -/

/-- Events that lead from `start` to `stop`, each to the next cell in the east. -/
structure Eastward (start stop : Cell) (made : List HandoverEvent) : Prop where
  count : (made.length : Int) = stop.cx.toInt - start.cx.toInt
  next : ∀ e ∈ made, e.target.cx.toInt = e.source.cx.toInt + 1 ∧ e.target.cz = e.source.cz

namespace Eastward

variable {a b c : Cell} {made more : List HandoverEvent}

theorem nil (a : Cell) : Eastward a a [] where
  count := (Int.sub_self _).symm
  next _ he := absurd he List.not_mem_nil

theorem append (first : Eastward a b made) (second : Eastward b c more) :
    Eastward a c (made ++ more) where
  count := by
    have begun := first.count
    have done := second.count
    rw [List.length_append]
    push_cast
    omega
  next e he := (List.mem_append.mp he).elim (first.next e) (second.next e)

end Eastward

namespace Walk

variable [Angular α] [Exact α] {w : Walk α} {settings : Settings α} {n : Nat} {id : String}
  {p : Player α}

/-- A step takes `Reached n` to `Reached (n + 1)` and tells the events between the two owned
cells. -/
theorem reached_step (fits : w.Fits settings) (h : Host σ α) (kept : h.engine.settings = settings)
    (now : Time) (hp : h.world.players[id]? = some p) (r : w.Reached settings n p)
    (inside : ⌊w.reach (n + 1) / value settings.cellSize⌋ < 0x80000000) :
    ∃ q, (h.perform (.step now w.dt)).world.players[id]? = some q ∧
      w.Reached settings (n + 1) q ∧
      Eastward p.ownedCell q.ownedCell (Entry.eventsOf id (h.entries (.step now w.dt))) := by
  obtain ⟨minted, after⟩ := h.players_step now w.dt id
  rw [hp] at after
  obtain ⟨reached, way⟩ := r.evaluate (h.engine.handoverRules now) fits inside
    (congrArg Settings.cellSize kept) (congrArg Settings.hysteresis kept) h.issuer minted
  let q := ((p.integrated w.dt.seconds).evaluate (h.engine.handoverRules now) h.issuer
    minted).1.player
  have arrived : (h.perform (.step now w.dt)).world.players[id]? = some q := after
  refine ⟨q, arrived, reached, ?_⟩
  rw [h.eventsOf_step, World.crossing?, hp, arrived]
  dsimp only
  rcases way with home | ⟨next, level⟩
  · rw [if_pos home.symm, show q.ownedCell = p.ownedCell from home]
    exact .nil p.ownedCell
  · have moved : p.ownedCell ≠ q.ownedCell := by
      intro same
      rw [show q.ownedCell = p.ownedCell from same.symm] at next
      omega
    rw [if_neg moved]
    refine ⟨?_, fun e he => ?_⟩
    · rw [show q.ownedCell.cx.toInt = _ from next]
      simp
    · rw [List.mem_singleton.mp he]
      exact ⟨next, level⟩

/-- Induction on the operations: a step walks, any other leaves the player. -/
theorem reached_run (fits : w.Fits settings) (os : List (Operation σ α)) (h : Host σ α)
    (kept : h.engine.settings = settings) (single : ∀ o ∈ os, ∀ clock, o ≠ .ticks clock)
    (alone : ∀ o ∈ os, o.subject? ≠ some id) (even : ∀ now dt, .step now dt ∈ os → dt = w.dt)
    (hp : h.world.players[id]? = some p) (r : w.Reached settings n p)
    (inside : ⌊w.reach (n + os.countP Operation.isStep) / value settings.cellSize⌋ < 0x80000000) :
    ∃ q, (h.run os).world.players[id]? = some q ∧
      w.Reached settings (n + os.countP Operation.isStep) q ∧
      Eastward p.ownedCell q.ownedCell (Entry.eventsOf id (h.tell os)) := by
  induction os generalizing h n p with
  | nil => exact ⟨p, hp, r, .nil p.ownedCell⟩
  | cons o os ih =>
    have kept' : (h.perform o).engine.settings = settings := (h.settings_perform o).trans kept
    have later {p' : Player α} {m : Nat} (hp' : (h.perform o).world.players[id]? = some p')
        (r' : w.Reached settings m p')
        (total : m + os.countP Operation.isStep = n + (o :: os).countP Operation.isStep) :=
      ih (h.perform o) kept' (fun o' ho' => single o' (List.mem_cons_of_mem o ho'))
        (fun o' ho' => alone o' (List.mem_cons_of_mem o ho'))
        (fun now dt hs => even now dt (List.mem_cons_of_mem o hs)) hp' r' (total ▸ inside)
    rw [Host.tell, Entry.eventsOf_append]
    by_cases step : ∃ now dt, o = .step now dt
    · obtain ⟨now, dt, rfl⟩ := step
      obtain rfl : dt = w.dt := even now dt List.mem_cons_self
      have total : n + 1 + os.countP Operation.isStep =
          n + (.step now w.dt :: os).countP Operation.isStep := by
        rw [List.countP_cons_of_pos rfl]
        omega
      have near : ⌊w.reach (n + 1) / value settings.cellSize⌋ < 0x80000000 := by
        refine (fits.floor_le (fits.reach_mono ?_)).trans_lt inside
        omega
      obtain ⟨p', hp', r', first⟩ := reached_step fits h kept now hp r near
      obtain ⟨q, hq, reached, rest⟩ := later hp' r' total
      exact ⟨q, hq, total ▸ reached, first.append rest⟩
    · push Not at step
      have total : n + os.countP Operation.isStep = n + (o :: os).countP Operation.isStep := by
        have idle : o.isStep ≠ true := by
          cases o with
          | step now dt => exact absurd rfl (step now dt)
          | _ => exact Bool.false_ne_true
        rw [List.countP_cons_of_neg idle]
      have quiet : Entry.eventsOf id (h.entries o) = [] := by
        rw [Entry.eventsOf, h.events_request o step]
        rfl
      have hp' : (h.perform o).world.players[id]? = some p := by
        rw [h.players_other o step (single o List.mem_cons_self) (alone o List.mem_cons_self)]
        exact hp
      obtain ⟨q, hq, reached, rest⟩ := later hp' r total
      rw [quiet]
      exact ⟨q, hq, total ▸ reached, rest⟩

/-- A player that has just come in is at the start of its walk. -/
theorem reached_zero (fits : w.Fits settings) (name : String) :
    w.Reached settings 0 (World.newPlayer id name w.start ⟨w.speed, 0.0, 0.0⟩
      (Cell.containing w.start settings.cellSize)) where
  speed := rfl
  straight := by
    show value (0.0 : α) = 0
    rw [Exact.value_ofScientific]
    norm_num
  x := reach_zero.symm
  z := rfl
  column := fits.grid.toInt_cx.trans fits.column_zero.symm
  row := fits.grid.toInt_cz
  behind _ hk := absurd hk.symm (Option.some_ne_none _)

end Walk

/-- A player comes in at `w.start` with speed `w.speed` to the east. For any run in which no
operation is about it and all steps last `w.dt`, with `n` of them, calls taken apart, and the end on
the grid: its position is `x₀ + n * speed * dt`; its owned column is
`max ⌊x₀ / cellSize⌋ ⌊(x - H) / cellSize⌋` and its row that of the start; and it has as many events
as columns in between, each to the next cell in the east. -/
theorem straight_walk [Angular α] [Exact α] (h : Host σ α) (w : Walk α)
    (fits : w.Fits h.engine.settings) (id name : String) (fresh : h.world.players[id]? = none)
    (os : List (Operation σ α)) :
    let start := h.perform (.upsert id name w.start ⟨w.speed, 0.0, 0.0⟩)
    let n := (start.singly os).countP Operation.isStep
    let size := value h.engine.settings.cellSize
    let east := value w.start.x + n * (value w.speed * (w.dt.nanos / 10 ^ 9))
    (∀ o ∈ start.singly os, o.subject? ≠ some id) →
      (∀ now dt, .step now dt ∈ start.singly os → dt = w.dt) →
      ⌊east / size⌋ < 0x80000000 →
      ∃ p, (start.run os).world.players[id]? = some p ∧
        value p.pos.x = east ∧ value p.pos.z = value w.start.z ∧
        p.ownedCell.cx.toInt = max ⌊value w.start.x / size⌋
          ⌊(value p.pos.x - value h.engine.settings.hysteresis) / size⌋ ∧
        p.ownedCell.cz.toInt = ⌊value w.start.z / size⌋ ∧
        let made := (Entry.events (start.chronicle os)).filter fun e => e.player == id
        (made.length : Int) = p.ownedCell.cx.toInt - ⌊value w.start.x / size⌋ ∧
          ∀ e ∈ made, e.target.cx.toInt = e.source.cx.toInt + 1 ∧ e.target.cz = e.source.cz := by
  intro start n size east alone even inside
  have kept : start.engine.settings = h.engine.settings := h.settings_perform _
  have arrived : start.world.players[id]? = some (World.newPlayer id name w.start
      ⟨w.speed, 0.0, 0.0⟩ (Cell.containing w.start h.engine.settings.cellSize)) := by
    show (h.engine.world.upsert id name w.start _ h.engine.settings.cellSize).2.players[id]? = _
    rw [World.players_upsert, if_pos rfl, show h.engine.world.players[id]? = none from fresh]
    rfl
  have counted : 0 + (start.singly os).countP Operation.isStep = n := Nat.zero_add n
  obtain ⟨p, hp, reached, way⟩ := Walk.reached_run fits (start.singly os) start kept
    (fun o ho => (Host.of_mem_singly ho).1) alone even arrived (Walk.reached_zero fits name)
    (counted.symm ▸ inside)
  rw [counted] at reached
  rw [Host.run_singly] at hp
  refine ⟨p, hp, reached.x, reached.z, ?_, reached.row, ?_, way.next⟩
  · rw [reached.x]
    exact reached.column
  · rw [← fits.grid.toInt_cx]
    exact way.count

def eightPerSecond : Walk ℚ := ⟨⟨5, 0, 5⟩, 8, .ofSeconds 1⟩

/-- With `cellSize = 10` and `H = 2` a stride of eight is as long as can be. -/
theorem fits_eightPerSecond : eightPerSecond.Fits tenMetres where
  size := by norm_num [tenMetres]
  margin := by norm_num [tenMetres]
  forward := by norm_num [eightPerSecond]
  short := by norm_num [Walk.stride, eightPerSecond, tenMetres, Span.ofSeconds]
  grid := onGrid_rat (by decide +kernel) (by decide +kernel)

/-- After four steps the player is at 37 metres, is owned by column 3, and has changed cells three
times. -/
theorem four_steps_east :
    let start := (Host.create tenMetres (.ofSeed 1) () : Host Unit ℚ).perform
      (.upsert "p1" "one" ⟨5, 0, 5⟩ ⟨8, 0.0, 0.0⟩)
    let os := [.step ⟨0⟩ (.ofSeconds 1), .step ⟨1⟩ (.ofSeconds 1), .spawn "p2" "two" ⟨5, 0, 5⟩,
      .step ⟨2⟩ (.ofSeconds 1), .step ⟨3⟩ (.ofSeconds 1)]
    ∃ p, (start.run os).world.players["p1"]? = some p ∧ value p.pos.x = 37 ∧
      p.ownedCell.cx.toInt = 3 ∧
      ((Entry.events (start.chronicle os)).filter fun e => e.player == "p1").length = 3 := by
  intro start os
  have single : start.singly os = os := rfl
  have alone : ∀ o ∈ start.singly os, o.subject? ≠ some "p1" := by
    rw [single]
    simp [os, Operation.subject?, Operation.places?]
  have even : ∀ now dt, .step now dt ∈ start.singly os → dt = .ofSeconds 1 := by
    rw [single]
    intro now dt listed
    simp only [os, List.mem_cons, Operation.step.injEq, reduceCtorEq, List.not_mem_nil, or_false,
      false_or] at listed
    rcases listed with ⟨-, length⟩ | ⟨-, length⟩ | ⟨-, length⟩ | ⟨-, length⟩ <;> exact length
  have far : value eightPerSecond.start.x + ((start.singly os).countP Operation.isStep : ℝ) *
      (value eightPerSecond.speed * (eightPerSecond.dt.nanos / 10 ^ 9)) = 37 := by
    have steps : (start.singly os).countP Operation.isStep = 4 := rfl
    rw [steps]
    norm_num [eightPerSecond, Span.ofSeconds]
  have inside : ⌊(37 : ℝ) / value tenMetres.cellSize⌋ < 0x80000000 := by
    rw [Int.floor_lt]
    norm_num [tenMetres]
  obtain ⟨p, hp, x, -, column, -, count, -⟩ := straight_walk (Host.create tenMetres (.ofSeed 1) ())
    eightPerSecond fits_eightPerSecond "p1" "one" rfl os alone even (far ▸ inside)
  have first : ⌊value eightPerSecond.start.x / value tenMetres.cellSize⌋ = 0 := by
    rw [Int.floor_eq_iff]
    norm_num [eightPerSecond, tenMetres]
  have last : ⌊((37 : ℝ) - value tenMetres.hysteresis) / value tenMetres.cellSize⌋ = 3 := by
    rw [Int.floor_eq_iff]
    norm_num [tenMetres]
  have owned : p.ownedCell.cx.toInt = 3 := by
    rw [x.trans far] at column
    rw [column]
    exact (congrArg₂ max first last).trans (by decide)
  refine ⟨p, hp, x.trans far, owned, ?_⟩
  rw [owned] at count
  exact Int.ofNat_inj.mp (count.trans (congrArg (3 - ·) first))

end CellWorld
