import Mathlib.Analysis.SpecialFunctions.Complex.Arg
import Mathlib.Analysis.SpecialFunctions.Trigonometric.Basic
import CellWorld.Proofs.Density

/-!
# How bots move

A bot's heading is drawn, mixed with a push away from others and turned back at the borders of its
cell. Over scalars with an exact geometry it has unit length throughout, and `vel` and `yaw` agree
with it.

* `Euclidean` — `sqrt` is `√`, `cos ^ 2 + sin ^ 2 = 1`, and `==` is equality of values
* `Point.Level`, `Point.Unit` — `y = 0`, and moreover `x ^ 2 + z ^ 2 = 1`
* `Point.normalized_cases` — a level direction normalizes to `zero` or to a unit direction
* `Bot.unit_blend`, `Bot.unit_confine` — pushing and turning back keep unit length
* `Bot.Coherent`, `Host.coherent_bot` — `vel = heading.scale speed`, `yaw = heading.angle`, and time
  is left
* `bots_move_coherently` — these for every bot of every run, with its cell of birth and its place
* the instances on `ℝ`, with `exists_bot_over_reals` and `first_bot_walks`

The instances need exact roots and angles. In doubles the length of a heading is one up to rounding,
which is not estimated here.
-/

namespace CellWorld

open Exact (value)

variable {σ α : Type}

/-- Scalars with an exact geometry. `beq_iff` makes `isZero` decide whether a vector is zero. -/
class Euclidean (α : Type) [Angular α] [Exact α] : Prop where
  value_sqrt (a : α) : value (Angular.sqrt a) = √(value a)
  cos_sq_add_sin_sq (a : α) : value (Angular.cos a) ^ 2 + value (Angular.sin a) ^ 2 = 1
  beq_iff (a b : α) : (a == b) = true ↔ value a = value b

/-! ### Directions -/

namespace Point

section Level

variable [Scalar α] [Exact α]

/-- On the plane `y = 0`. -/
def Level (p : Point α) : Prop := value p.y = 0

structure Unit (p : Point α) : Prop where
  level : p.Level
  length : value p.x ^ 2 + value p.z ^ 2 = 1

theorem level_zero : (zero : Point α).Level := by
  show value (0.0 : α) = 0
  exact Exact.value_zero

theorem level_planar (x z : α) : (planar x z).Level := by
  show value (0.0 : α) = 0
  exact Exact.value_zero

theorem Level.add {p q : Point α} (hp : p.Level) (hq : q.Level) : (p + q).Level := by
  unfold Level at *
  show value (p.y + q.y) = 0
  rw [Exact.value_add, hp, hq, add_zero]

theorem Level.scale {p : Point α} (hp : p.Level) (k : α) : (p.scale k).Level := by
  unfold Level at *
  show value (p.y * k) = 0
  rw [Exact.value_mul, hp, zero_mul]

theorem Level.foldl_add {ps : List (Point α)} (hps : ∀ p ∈ ps, p.Level) {p : Point α}
    (hp : p.Level) : (ps.foldl (· + ·) p).Level := by
  induction ps generalizing p with
  | nil => exact hp
  | cons q ps ih =>
    rw [List.foldl_cons]
    exact ih (fun r hr => hps r (List.mem_cons_of_mem q hr)) (hp.add (hps q List.mem_cons_self))

end Level

variable [Angular α] [Exact α] [Euclidean α]

theorem isZero_zero : (zero : Point α).isZero = true := by
  have same : ((0.0 : α) == 0.0) = true := (Euclidean.beq_iff _ _).mpr rfl
  simp [isZero, zero, same]

theorem unit_ofAngle (angle : α) : (ofAngle angle).Unit where
  level := Exact.value_zero
  length := Euclidean.cos_sq_add_sin_sq angle

/-- A level vector normalizes to a unit vector, or to `zero` where `1 / length` is not finite and
positive. -/
theorem normalized_cases {p : Point α} (hp : p.Level) :
    p.normalized = zero ∨ p.normalized.Unit := by
  unfold normalized
  dsimp only
  split
  · next h =>
    refine Or.inr ⟨hp.scale _, ?_⟩
    have positive := (Exact.lt_iff _ _).mp (of_decide_eq_true (Bool.and_eq_true_iff.mp h).2)
    unfold Level at hp
    simp only [scale, Exact.value_div, Euclidean.value_sqrt, Exact.value_add, Exact.value_mul,
      Exact.value_zero, Exact.value_one, hp, mul_zero, add_zero] at positive ⊢
    have root := one_div_pos.mp positive
    have square := Real.sq_sqrt (Real.sqrt_pos.mp root).le
    rw [mul_pow, mul_pow, div_pow, square, ← add_mul, one_pow]
    have sum := Real.sqrt_pos.mp root
    rw [sq, sq, mul_one_div, div_self sum.ne']
  · exact Or.inl rfl

theorem Level.normalized {p : Point α} (hp : p.Level) : p.normalized.Level := by
  rcases normalized_cases hp with none | unit
  · rw [none]
    exact level_zero
  · exact unit.level

end Point

/-! ### What happens to the direction of a bot -/

namespace Bot

variable [Angular α] [Exact α]

/-- A single push is level: the difference of two places has its `y` dropped. -/
theorem level_pushFrom (b : Bot α) [Euclidean α] (other : Sighting α) {p : Point α}
    (h : b.pushFrom other = some p) : p.Level := by
  unfold pushFrom at h
  split at h
  · exact absurd h.symm (Option.some_ne_none p)
  · rw [← Option.some.inj h]
    exact (Point.level_planar _ _).normalized

theorem level_push [Euclidean α] (b : Bot α) (crowd : List (Sighting α)) : (b.push crowd).Level := by
  refine (Point.Level.foldl_add (fun p hp => ?_) Point.level_zero).normalized
  obtain ⟨other, -, h⟩ := List.mem_filterMap.mp hp
  exact b.level_pushFrom other h

/-- The blend of a unit heading with a push is of unit length; where the two cancel, the heading is
kept. -/
theorem unit_blend [Euclidean α] (b : Bot α) (crowd : List (Sighting α)) (h : b.heading.Unit) :
    (b.blend crowd).Unit := by
  unfold blend
  dsimp only
  split
  · exact h
  · have level := (h.level.scale headingWeight).add ((b.level_push crowd).scale pushWeight)
    rcases Point.normalized_cases level with none | unit
    · rw [none, Point.isZero_zero, if_pos rfl]
      exact h
    · split
      · exact h
      · exact unit

/-- A reflection at most changes the sign of a component. -/
theorem sq_reflect (low high x dir : α) : value (reflect low high x dir).2 ^ 2 = value dir ^ 2 := by
  unfold reflect
  split
  · rw [Exact.value_abs, sq_abs]
  · split
    · rw [Exact.value_neg, Exact.value_abs, neg_sq, sq_abs]
    · rfl

theorem unit_confine {b : Bot α} (h : b.heading.Unit) (square : Bounds α) :
    (b.confine square).heading.Unit where
  level := h.level
  length := by
    show value (reflect _ _ _ b.heading.x).2 ^ 2 + value (reflect _ _ _ b.heading.z).2 ^ 2 = 1
    rw [sq_reflect, sq_reflect]
    exact h.length

/-- The motion of a bot agrees with its heading, and the heading is good for some time yet. -/
structure Coherent (b : Bot α) : Prop where
  heading : b.heading.Unit
  vel : b.vel = b.heading.scale speed
  yaw : b.yaw = b.heading.angle
  ahead : 0 < value b.retargetIn

/-- A drawn course is of unit length, and good for at least 3 and less than 7 seconds. -/
theorem drawCourse_mem [Euclidean α] (random : Random) :
    let course : Point α × α × Random := drawCourse random
    course.1.Unit ∧ 3 ≤ value course.2.1 ∧ value course.2.1 < 7 := by
  have least : value (retargetMin : α) = 3 := by
    rw [retargetMin, Exact.value_ofScientific]
    norm_num
  have most : value (retargetMax : α) = 7 := by
    rw [retargetMax, Exact.value_ofScientific]
    norm_num
  rw [← least, ← most]
  exact ⟨Point.unit_ofAngle _, Exact.pick_mem _ _ _ (by rw [least, most]; norm_num)⟩

theorem coherent_new [Euclidean α] (id : String) (cell : Cell) (pos : Point α)
    {random random' : Random} {heading : Point α} {retargetIn : α}
    (h : drawCourse random = (heading, retargetIn, random')) :
    (new id cell pos heading retargetIn).Coherent := by
  obtain ⟨unit, least, -⟩ := drawCourse_mem (α := α) random
  rw [h] at unit least
  exact ⟨unit, rfl, rfl, lt_of_lt_of_le three_pos least⟩

/-- After counting down, a bot has time left, or a new course. -/
theorem retarget_ahead [Euclidean α] {b : Bot α} (h : b.heading.Unit) (random : Random) (dt : α) :
    (b.retarget random dt).1.heading.Unit ∧ 0 < value (b.retarget random dt).1.retargetIn := by
  unfold retarget
  dsimp only
  split
  · obtain ⟨unit, least, -⟩ := drawCourse_mem (α := α) random
    exact ⟨unit, lt_of_lt_of_le three_pos least⟩
  · next left =>
    rw [Exact.le_iff, Exact.value_zero, not_le] at left
    exact ⟨h, left⟩

theorem coherent_walk [Euclidean α] {b : Bot α} (h : b.heading.Unit) (random : Random)
    (crowd : List (Sighting α)) (size dt : α) :
    ((b.steer random crowd dt).1.walk size dt).Coherent := by
  obtain ⟨unit, ahead⟩ := retarget_ahead h random dt
  refine ⟨unit_confine ?_ _, rfl, rfl, ahead⟩
  exact unit_blend _ crowd unit

end Bot

/-- After any run, every bot is `Coherent`, by `Host.forall_bots_run`. -/
theorem Host.coherent_bot [Angular α] [Exact α] [Euclidean α] {settings : Settings α}
    {chance : Random} {source : σ} {os : List (Operation σ α)} {id : String} {b : Bot α}
    (hb : ((create settings chance source).run os).world.bots[id]? = some b) : b.Coherent := by
  refine forall_bots_run (Q := fun _ b => b.Coherent) os _ ⟨?_, ?_⟩ ?_ id b hb
  · exact fun _ course => Bot.coherent_new _ _ _ course
  · exact fun random crowd dt coherent => Bot.coherent_walk coherent.heading random crowd _ dt
  · exact fun id b hb => absurd hb (by simp)

/-! ### Every bot of a run -/

/-- For the bot under `id` after any run: `(id, c)` is in `born` iff `c = ownedCell`; its position
is enclosed by the square of that cell; `vel = heading.scale 1.5` and
`yaw = atan2 heading.z heading.x`; the heading is level and of length one, so the speed is `1.5`;
and `0 < retargetIn`. -/
theorem bots_move_coherently [Angular α] [Exact α] [Euclidean α] (settings : Settings α)
    (chance : Random) (source : σ) (os : List (Operation σ α)) {id : String} {b : Bot α}
    (hb : ((Host.create settings chance source).run os).world.bots[id]? = some b) :
    (∀ c, (id, c) ∈ (Host.create settings chance source).born os ↔ c = b.ownedCell) ∧
      (Bounds.ofCell b.ownedCell settings.cellSize).Encloses b.pos ∧
      b.vel = b.heading.scale 1.5 ∧ b.yaw = Angular.atan2 b.heading.z b.heading.x ∧
      value b.heading.y = 0 ∧
      value b.heading.x ^ 2 + value b.heading.y ^ 2 + value b.heading.z ^ 2 = 1 ∧
      √(value b.vel.x ^ 2 + value b.vel.y ^ 2 + value b.vel.z ^ 2) = 1.5 ∧
      0 < value b.retargetIn := by
  have coherent := Host.coherent_bot hb
  have bore := (Host.create settings chance source).bore_run os
  have born : (id, b.ownedCell) ∈ (Host.create settings chance source).born os := by
    refine (bore.origin id b.ownedCell (by rw [World.botHome?, hb]; rfl)).resolve_left ?_
    simp [World.botHome?]
  have length : value b.heading.x ^ 2 + value b.heading.y ^ 2 + value b.heading.z ^ 2 = 1 := by
    have level : value b.heading.y = 0 := coherent.heading.level
    rw [level, zero_pow two_ne_zero, add_zero]
    exact coherent.heading.length
  refine ⟨fun c => ⟨fun there => ?_, ?_⟩, Host.confined_bot hb, coherent.vel, coherent.yaw,
    coherent.heading.level, length, ?_, coherent.ahead⟩
  · exact congrArg Prod.snd (List.inj_on_of_nodup_map bore.nodup there born rfl)
  · rintro rfl
    exact born
  · rw [coherent.vel]
    have speed : value (Bot.speed : α) = 1.5 := Exact.value_ofScientific _ _ _
    simp only [Point.scale, Exact.value_mul, mul_pow, ← add_mul, length, one_mul, speed]
    exact Real.sqrt_sq (by norm_num)

section Reals

/-- Real numbers as scalars. -/
noncomputable local instance : Scalar ℝ where
  decideLt a b := inferInstanceAs (Decidable (a < b))
  decideLe a b := inferInstanceAs (Decidable (a ≤ b))
  abs a := |a|
  ofInt n := n
  floorIndex a := Number.clampIndex ⌊a⌋
  floorNat a := ⌊a⌋.toNat
  isFinite _ := true
  pick word low high := fraction word * (high - low) + low

noncomputable local instance : Angular ℝ where
  sqrt := Real.sqrt
  sin := Real.sin
  cos := Real.cos
  atan2 y x := Complex.arg ⟨x, y⟩
  turn := 2 * Real.pi

noncomputable local instance : Exact ℝ where
  value a := a
  value_add _ _ := rfl
  value_sub _ _ := rfl
  value_mul _ _ := rfl
  value_div _ _ := rfl
  value_neg _ := rfl
  value_abs _ := rfl
  value_ofInt _ := rfl
  value_ofScientific _ _ _ := rfl
  lt_iff _ _ := Iff.rfl
  le_iff _ _ := Iff.rfl
  floorIndex_eq _ := rfl
  pick_mem word low high h := by
    obtain ⟨from_zero, below_one⟩ := fraction_mem word
    have width : 0 < high - low := sub_pos.mpr h
    have from_zero' : (0 : ℝ) ≤ fraction word := by exact_mod_cast from_zero
    have below_one' : (fraction word : ℝ) < 1 := by exact_mod_cast below_one
    exact ⟨le_add_of_nonneg_left (mul_nonneg from_zero' width.le),
      lt_sub_iff_add_lt.mp (mul_lt_of_lt_one_left width below_one')⟩

local instance : Euclidean ℝ where
  value_sqrt _ := rfl
  cos_sq_add_sin_sq := Real.cos_sq_add_sin_sq
  beq_iff _ _ := beq_iff_eq

/-- Over the reals, a density pass after the first player has come in adds a bot. -/
theorem exists_bot_over_reals :
    let settings : Settings ℝ := .standard
    let h := (Host.create settings (.ofSeed 1) () : Host Unit ℝ).run
      [.upsert "p1" "one" .zero .zero, .maintainDensity]
    ∃ (id : String) (b : Bot ℝ), h.world.bots[id]? = some b := by
  intro settings h
  let c : Cell := Cell.containing Point.zero settings.cellSize
  let came := (Host.create settings (.ofSeed 1) () : Host Unit ℝ).run
    [.upsert "p1" "one" .zero .zero]
  have alone : came.world.population c = ⟨1, 0⟩ := by
    have bucket : came.world.cells.bucket c = .ofList ["p1"] :=
      (Occupancy.bucket_insert {} c c "p1").trans (if_pos rfl)
    rw [World.population, bucket]
    rfl
  let rules : BotRules ℝ := came.engine.botRules
  let pass : World.DensityPass ℝ := { world := came.world }
  have apart (id : String) (mem : id ∈ came.world.players) : Unreserved id := by
    have keys : came.world.players.keys = ["p1"] := rfl
    rw [← Std.TreeMap.mem_keys, keys, List.mem_singleton] at mem
    exact mem ▸ unreserved_of_head (by decide)
  have tidy : came.world.Tidy := Host.tidy_run settings (.ofSeed 1) () _ apart
  have roomy : (Bounds.ofCell c rules.cellSize).Roomy := by
    have wide : value rules.cellSize = 256 := by
      show (256.0 : ℝ) = 256
      norm_num
    refine ⟨⟨?_, rfl⟩, ⟨?_, rfl⟩⟩ <;> rw [Exact.lt_iff]
    · rw [Bounds.value_minX, Bounds.value_maxX, wide]
      linarith
    · rw [Bounds.value_minZ, Bounds.value_maxZ, wide]
      linarith
  have moved := World.DensityPass.moved_visit rules pass c tidy rfl fun _ => roomy
  have one : h.world.bots.size = 1 := by
    have target : rules.target = 3 := rfl
    have cap : rules.cap = 100 := rfl
    have none : came.world.bots.size = 0 := rfl
    have size : h.world.bots.size + _ = came.world.bots.size + _ := moved.size
    rw [alone, target, cap, none] at size
    exact size
  have some : h.world.bots.keys ≠ [] := by
    rw [← List.length_pos_iff, Std.TreeMap.length_keys, one]
    exact Nat.one_pos
  obtain ⟨id, mem⟩ := List.exists_mem_of_ne_nil _ some
  exact ⟨id, Option.isSome_iff_exists.mp
    (Std.TreeMap.mem_iff_isSome_getElem?.mp (Std.TreeMap.mem_keys.mp mem))⟩

/-- That bot satisfies `bots_move_coherently`: it walks at `1.5` within its cell. -/
theorem first_bot_walks :
    let settings : Settings ℝ := .standard
    let h := (Host.create settings (.ofSeed 1) () : Host Unit ℝ).run
      [.upsert "p1" "one" .zero .zero, .maintainDensity]
    ∃ (id : String) (b : Bot ℝ), h.world.bots[id]? = some b ∧
      (Bounds.ofCell b.ownedCell settings.cellSize).Encloses b.pos ∧
      b.vel = b.heading.scale 1.5 ∧ √(b.vel.x ^ 2 + b.vel.y ^ 2 + b.vel.z ^ 2) = 1.5 := by
  intro settings h
  obtain ⟨id, b, hb⟩ := exists_bot_over_reals
  obtain ⟨-, inside, vel, -, -, -, speed, -⟩ :=
    bots_move_coherently settings (.ofSeed 1) () _ hb
  exact ⟨id, b, hb, inside, vel, speed⟩

end Reals

end CellWorld
