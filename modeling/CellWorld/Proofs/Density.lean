import Mathlib.Algebra.BigOperators.Group.List.Basic
import Mathlib.Data.Rat.Floor
import CellWorld.Proofs.Room
import CellWorld.Proofs.Traces

/-!
# How the density comes about

A density pass brings every occupied cell closer to the band and never past the end that it comes
from. As `maxBots` caps the bots of all cells together, a bot that goes in one cell may let another
one come in a cell that was visited before. So passes are not over after one, but each move of a bot
shortens `World.way`, the sum of the distances of all cells from the band.

* `DensityBand.added`, `DensityBand.taken`, `DensityBand.way` — the bots that a visit adds and
  takes, and the distance of `n` from the band
* `DensityBand.Approaches n n'` — `n'` is between `n` and the band, and `|n' - n| ≤ ramp`
* `DensityBand.ofTarget_fractions` — `low = ⌊0.8 * target⌋`, `high = max low ⌈1.2 * target⌉`,
  `ramp = max 1 ⌈target / 10⌉`, over the rationals
* `World.OneMore` — a bot that comes or goes is counted in its cell and nowhere else
* `DensityPass.Moved`, `DensityPass.moved_visit` — a visit adds `added` and takes `taken`
* `World.Ready`, `World.Balanced` — a world in which a wanted bot finds room, and a cell in which a
  pass has nothing to do
* `DensityPass.Passed`, `World.passed` — what a pass does to every cell, and to `way`
* `World.Settled`, `World.exists_settled` — after finitely many passes nothing changes
* `density_converges` — all this for doubles, after any run

The world stands still between the passes of `density_converges`: players that move or leave in
between are not covered, and no bound on the number of passes is stated.
-/

namespace CellWorld

variable {σ α : Type}

/-! ### The band -/

namespace DensityBand

variable (band : DensityBand)

/-- Zero in an empty cell, else the least of the shortfall, the ramp and what the cap leaves. -/
def added (n headroom : Nat) : Nat :=
  if n = 0 then 0 else min (min (band.low - n) band.ramp) headroom

/-- The least of the excess over `high`, the ramp and the bots that are there. -/
def taken (n bots : Nat) : Nat := min (min (n - band.high) band.ramp) bots

/-- The distance of `n` from the band; zero for an empty cell, which no pass fills. -/
def way (n : Nat) : Nat := if n = 0 then 0 else (band.low - n) + (n - band.high)

/-- A cell with `n` in it may have `n'` after a pass: monotone toward the band, by `ramp` at most,
and unchanged when empty or inside. -/
structure Approaches (n n' : Nat) : Prop where
  nobody : n = 0 → n' = 0
  few : n ≠ 0 → n < band.low → n ≤ n' ∧ n' ≤ band.low
  within : band.low ≤ n → n ≤ band.high → n' = n
  many : band.high < n → band.high ≤ n' ∧ n' ≤ n
  slowly : n' ≤ n + band.ramp ∧ n ≤ n' + band.ramp

theorem Approaches.refl (n : Nat) : band.Approaches n n := by
  constructor <;> omega

theorem tenthUp_eq (n : Nat) : tenthUp n = ⌈(n : ℚ) / 10⌉₊ := by
  refine le_antisymm ?_ (Nat.ceil_le.mpr ?_)
  · have most : (n : ℚ) ≤ ⌈(n : ℚ) / 10⌉₊ * 10 := (div_le_iff₀ (by norm_num)).mp (Nat.le_ceil _)
    have whole : n ≤ ⌈(n : ℚ) / 10⌉₊ * 10 := by exact_mod_cast most
    unfold tenthUp
    omega
  · rw [div_le_iff₀ (by norm_num)]
    have whole : n ≤ tenthUp n * 10 := by
      unfold tenthUp
      omega
    exact_mod_cast whole

/-- The band of the code, which computes in integers, as fractions of the target. -/
theorem ofTarget_fractions {target : Nat} (wanted : target ≠ 0) :
    (ofTarget target).low = ⌊(0.8 * target : ℚ)⌋₊ ∧
      (ofTarget target).high = max (ofTarget target).low ⌈(1.2 * target : ℚ)⌉₊ ∧
      (ofTarget target).ramp = max 1 ⌈(target : ℚ) / 10⌉₊ := by
  refine ⟨?_, ?_, ?_⟩
  · have fraction : (0.8 * target : ℚ) = (8 * target : Nat) / (10 : Nat) := by
      push_cast
      ring
    rw [fraction, Nat.floor_div_eq_div]
    rfl
  · have fraction : (1.2 * target : ℚ) = (12 * target : Nat) / 10 := by
      push_cast
      ring
    rw [fraction, ← tenthUp_eq, Nat.max_comm]
    rfl
  · rw [← tenthUp_eq, ofTarget, Nat.max_eq_left (Nat.one_le_iff_ne_zero.mpr wanted)]
    exact Nat.max_comm _ _

theorem high_pos {target : Nat} (wanted : target ≠ 0) : 0 < (ofTarget target).high := by
  refine Nat.lt_of_lt_of_le ?_ (Nat.le_max_left _ _)
  unfold tenthUp
  omega

section Approach

variable {band} {n n' headroom bots : Nat} (order : band.low ≤ band.high) (pos : 0 < band.high)
  (moved : n' + band.taken n bots = n + band.added n headroom)

include order pos moved

theorem approaches : band.Approaches n n' := by
  unfold added taken at moved
  constructor <;> split at moved <;> omega

/-- A visit neither fills an empty cell nor empties one: `low ≤ high` and `0 < high`. -/
theorem eq_zero_iff_of_moved : n' = 0 ↔ n = 0 := by
  obtain ⟨nobody, few, within, many, -⟩ := approaches order pos moved
  omega

/-- The way is shortened by exactly `added + taken`. At most one of the two is not zero. -/
theorem way_moved : band.way n' + (band.added n headroom + band.taken n bots) = band.way n := by
  have same := eq_zero_iff_of_moved order pos moved
  unfold way
  unfold added taken at *
  by_cases nobody : n = 0
  · rw [if_pos (same.mpr nobody), if_pos nobody, if_pos nobody]
    omega
  · rw [if_neg nobody] at moved
    rw [if_neg (mt same.mp nobody), if_neg nobody, if_neg nobody]
    omega

end Approach

end DensityBand

/-! ### Who is counted in a cell -/

namespace World

theorem nodup_toList (s : Std.TreeSet String) : s.toList.Nodup :=
  (Std.TreeSet.distinct_toList (t := s)).imp Std.ReflCmp.ne_of_cmp_ne_eq

/-- The two counts of a cell, from its bucket. -/
theorem population_eq (w : World α) (c : Cell) :
    w.population c =
      ⟨(w.cells.bucket c).toList.countP fun id => w.players.contains id,
        (w.cells.bucket c).toList.countP fun id => !w.players.contains id && w.bots.contains id⟩ := by
  unfold population
  rw [Std.TreeSet.foldl_eq_foldl_toList]
  suffices fold : ∀ (ids : List String) (n : Population), ids.foldl (fun count id =>
      if w.players.contains id then { count with players := count.players + 1 }
      else if w.bots.contains id then { count with bots := count.bots + 1 }
      else count) n = ⟨n.players + ids.countP fun id => w.players.contains id,
        n.bots + ids.countP fun id => !w.players.contains id && w.bots.contains id⟩ by
    rw [fold]
    simp
  intro ids
  induction ids with
  | nil => intro n; rfl
  | cons id ids ih =>
    intro n
    rw [List.foldl_cons, ih, List.countP_cons, List.countP_cons]
    cases w.players.contains id <;> cases w.bots.contains id <;>
      simp <;> omega

/-- One bot more: `id` is a bot of `w'` in `cell`, was nobody in `w`, and everything that
`population` reads is else the same. -/
structure OneMore (w w' : World α) (cell : Cell) (id : String) : Prop where
  players : w'.players = w.players
  noPlayer : id ∉ w.players
  bot : id ∈ w'.bots
  noBot : id ∉ w.bots
  others : ∀ x, x ≠ id → (x ∈ w'.bots ↔ x ∈ w.bots)
  nowhere : ∀ k, ¬ w.cells.Holds k id
  holds_iff : ∀ k x, w'.cells.Holds k x ↔ (cell = k ∧ x = id) ∨ w.cells.Holds k x

namespace OneMore

variable {w w' : World α} {cell : Cell} {id : String}

/-- The population of `cell` has one bot more, and all others are the same. -/
theorem population (h : OneMore w w' cell id) (k : Cell) : w'.population k =
    if cell = k then { w.population k with bots := (w.population k).bots + 1 }
    else w.population k := by
  have counted (x : String) (held : x ∈ (w.cells.bucket k).toList) :
      w'.bots.contains x = w.bots.contains x := by
    rw [Bool.eq_iff_iff, Std.TreeMap.contains_iff_mem, Std.TreeMap.contains_iff_mem]
    refine h.others x ?_
    rintro rfl
    exact h.nowhere k (Std.TreeSet.mem_toList.mp held)
  have same : (w.cells.bucket k).toList.countP
      (fun x => !w'.players.contains x && w'.bots.contains x) =
      (w.cells.bucket k).toList.countP fun x => !w.players.contains x && w.bots.contains x :=
    List.countP_congr fun x held => by rw [h.players, counted x held]
  have perm (ids : List String) (once : ids.Nodup)
      (mem : ∀ x, w'.cells.Holds k x ↔ x ∈ ids) : (w'.cells.bucket k).toList.Perm ids :=
    (List.perm_ext_iff_of_nodup (nodup_toList _) once).mpr fun x =>
      Std.TreeSet.mem_toList.trans (mem x)
  by_cases here : cell = k
  · subst here
    have new : id ∉ (w.cells.bucket cell).toList :=
      fun held => h.nowhere cell (Std.TreeSet.mem_toList.mp held)
    have more := perm (id :: (w.cells.bucket cell).toList)
      (List.nodup_cons.mpr ⟨new, nodup_toList _⟩) fun x => by
        rw [h.holds_iff, List.mem_cons, Std.TreeSet.mem_toList]
        exact or_congr_left (and_iff_right rfl)
    have player : w.players.contains id = false :=
      Bool.eq_false_iff.mpr (mt Std.TreeMap.contains_iff_mem.mp h.noPlayer)
    rw [if_pos rfl, population_eq w', more.countP_eq, more.countP_eq, population_eq w,
      List.countP_cons, List.countP_cons, same, h.players, player,
      Std.TreeMap.contains_iff_mem.mpr h.bot]
    rfl
  · have still := perm _ (nodup_toList (w.cells.bucket k)) fun x => by
      rw [h.holds_iff, Std.TreeSet.mem_toList]
      exact or_iff_right fun there => here there.1
    rw [if_neg here, population_eq w', still.countP_eq, still.countP_eq, population_eq w, same,
      h.players]

theorem size_bots (h : OneMore w w' cell id) : w'.bots.size = w.bots.size + 1 := by
  have perm : w'.bots.keys.Perm (id :: w.bots.keys) := by
    refine (List.perm_ext_iff_of_nodup Std.TreeMap.nodup_keys (List.nodup_cons.mpr
      ⟨fun there => h.noBot (Std.TreeMap.mem_keys.mp there), Std.TreeMap.nodup_keys⟩)).mpr fun x => ?_
    rw [Std.TreeMap.mem_keys, List.mem_cons, Std.TreeMap.mem_keys]
    by_cases own : x = id
    · subst own
      exact iff_of_true h.bot (Or.inl rfl)
    · rw [h.others x own]
      exact (or_iff_right own).symm
  rw [← Std.TreeMap.length_keys, perm.length_eq, List.length_cons, Std.TreeMap.length_keys]

end OneMore

section Effect

variable {w w' : World α} {cell : Cell}

theorem oneMore_placed [Angular α] {rules : BotRules α} (h : w.Tidy) {id : String}
    (hs : w.spawnBot cell rules = .placed id w') : OneMore w w' cell id := by
  obtain ⟨pos, heading, retargetIn, random, random', rfl, -, -, -, rfl⟩ := spawnBot_placed hs
  obtain ⟨noPlayer, noBot, nowhere⟩ := h.fresh
  refine ⟨rfl, noPlayer, Std.TreeMap.mem_insert_self, noBot, fun x other => ?_, nowhere,
    fun k x => ?_⟩
  · rw [Std.TreeMap.mem_insert, Std.LawfulEqCmp.compare_eq_iff_eq]
    exact or_iff_right (Ne.symm other)
  · refine (Occupancy.holds_insert w.cells cell k _ x).trans ?_
    rw [eq_comm (a := x)]

theorem oneMore_gone (h : w.Tidy) (hs : w.despawnBot? cell = some w') :
    ∃ id, OneMore w' w cell id := by
  obtain ⟨id, held, bot, rfl⟩ := despawnBot?_some hs
  obtain ⟨c, home⟩ := Option.ne_none_iff_exists'.mp (botHome?_ne_none.mpr bot)
  have here : cell = c := h.home home held
  have holds (k : Cell) (x : String) := Occupancy.holds_remove w.cells cell k id x
  refine ⟨id, rfl, h.not_player (botHome?_ne_none.mpr bot), bot, by simp, fun x other => ?_,
    fun k there => ?_, fun k x => ?_⟩
  · rw [Std.TreeMap.mem_erase]
    simp [Ne.symm other]
  · obtain ⟨held', away⟩ := (holds k id).mp there
    exact away ⟨here.trans (h.home home held').symm, rfl⟩
  · rw [holds]
    by_cases own : cell = k ∧ x = id
    · obtain ⟨rfl, rfl⟩ := own
      exact iff_of_true held (Or.inl ⟨rfl, rfl⟩)
    · rw [or_iff_right own, and_iff_left]
      exact fun same => own ⟨same.1, same.2.symm⟩

end Effect

/-! ### A visit to a cell -/

namespace DensityPass

def moves (pass : DensityPass α) : Nat := pass.report.spawned + pass.report.despawned

/-- Between two states of a pass, `a` bots came into `cell` and `t` left it, and the report says
so. -/
structure Moved (cell : Cell) (a t : Nat) (pass pass' : DensityPass α) : Prop where
  others : ∀ k, cell ≠ k → pass'.world.population k = pass.world.population k
  players : (pass'.world.population cell).players = (pass.world.population cell).players
  bots : (pass'.world.population cell).bots + t = (pass.world.population cell).bots + a
  size : pass'.world.bots.size + t = pass.world.bots.size + a
  spawned : pass'.report.spawned = pass.report.spawned + a
  despawned : pass'.report.despawned = pass.report.despawned + t
  stuck : pass'.stuck = pass.stuck
  still : a = 0 → t = 0 → pass' = pass

variable {cell : Cell} {a t b u : Nat} {pass pass' pass'' : DensityPass α}

theorem Moved.refl (cell : Cell) (pass : DensityPass α) : Moved cell 0 0 pass pass :=
  ⟨fun _ _ => rfl, rfl, rfl, rfl, rfl, rfl, rfl, fun _ _ => rfl⟩

theorem Moved.trans (first : Moved cell a t pass pass') (second : Moved cell b u pass' pass'') :
    Moved cell (a + b) (t + u) pass pass'' where
  others k away := (second.others k away).trans (first.others k away)
  players := second.players.trans first.players
  bots := by
    have := first.bots
    have := second.bots
    omega
  size := by
    have := first.size
    have := second.size
    omega
  spawned := by rw [second.spawned, first.spawned, Nat.add_assoc]
  despawned := by rw [second.despawned, first.despawned, Nat.add_assoc]
  stuck := second.stuck.trans first.stuck
  still ha ht := by
    rw [second.still (by omega) (by omega), first.still (by omega) (by omega)]

/-- Moves change the total by what came and went. -/
theorem Moved.total (h : Moved cell a t pass pass') :
    (pass'.world.population cell).total + t = (pass.world.population cell).total + a := by
  have players := h.players
  have bots := h.bots
  unfold Population.total
  omega

theorem Moved.moves (h : Moved cell a t pass pass') : pass'.moves = pass.moves + (a + t) := by
  unfold DensityPass.moves
  rw [h.spawned, h.despawned]
  exact Nat.add_add_add_comm _ _ _ _

theorem moved_gone (h : pass.world.Tidy) {w : World α} (hs : pass.world.despawnBot? cell = some w) :
    Moved cell 0 1 pass { pass with
      world := w, report := { pass.report with despawned := pass.report.despawned + 1 } } := by
  obtain ⟨id, more⟩ := oneMore_gone h hs
  have own := more.population cell
  rw [if_pos rfl] at own
  refine ⟨fun k away => ?_, ?_, ?_, ?_, rfl, rfl, rfl, nofun⟩
  · rw [more.population k, if_neg away]
  · rw [own]
  · rw [own]
  · exact more.size_bots.symm

/-- If a bot is counted in `cell`, `despawnBot?` finds one. -/
theorem exists_despawnBot {w : World α} (somebot : (w.population cell).bots ≠ 0) :
    ∃ w', w.despawnBot? cell = some w' := by
  rw [population_eq] at somebot
  obtain ⟨id, held, bot⟩ := List.countP_pos_iff.mp (Nat.pos_of_ne_zero somebot)
  unfold despawnBot?
  cases found : (w.cells.bucket cell).toList.find? w.bots.contains with
  | none =>
    have none := List.find?_eq_none.mp found id held
    simp at bot none
    exact absurd bot.2 none
  | some id' => exact ⟨_, rfl⟩

variable [Angular α] {rules : BotRules α}

/-- Induction on `n`: each of `n` bots that are counted goes. -/
theorem moved_takeAway (rules : BotRules α) (n : Nat) (pass : DensityPass α) (h : pass.world.Tidy)
    (enough : n ≤ (pass.world.population cell).bots) :
    Moved cell 0 n pass (pass.takeAway cell n) := by
  induction n generalizing pass with
  | zero => exact .refl cell pass
  | succ n ih =>
    obtain ⟨w, gone⟩ := exists_despawnBot (Nat.ne_of_gt (Nat.lt_of_lt_of_le n.succ_pos enough))
    have one := moved_gone h gone
    have fewer : (w.population cell).bots + 1 = (pass.world.population cell).bots := one.bots
    have rest := ih { pass with
      world := w, report := { pass.report with despawned := pass.report.despawned + 1 } }
      ((botKept_tidy rules).gone h gone) (show n ≤ (w.population cell).bots by omega)
    rw [takeAway, gone, Nat.add_comm n 1]
    exact one.trans rest

theorem moved_placed (h : pass.world.Tidy) {id : String} {w : World α}
    (hs : pass.world.spawnBot cell rules = .placed id w) : Moved cell 1 0 pass { pass with
      world := w, report := { pass.report with spawned := pass.report.spawned + 1 } } := by
  have more := oneMore_placed h hs
  have own := more.population cell
  rw [if_pos rfl] at own
  refine ⟨fun k away => ?_, ?_, ?_, ?_, rfl, rfl, rfl, nofun⟩
  · exact (more.population k).trans (if_neg away)
  · show (w.population cell).players = _
    rw [own]
  · show (w.population cell).bots + 0 = _
    rw [own]
  · exact more.size_bots

/-- With a roomy square and fewer bots than the cap, `spawnBot` places one. -/
theorem exists_spawnBot {w : World α} (room : (Bounds.ofCell cell rules.cellSize).Roomy)
    (more : (w.bots.size : Int) < rules.cap) : ∃ id w', w.spawnBot cell rules = .placed id w' := by
  cases spawned : w.spawnBot cell rules with
  | placed id w' => exact ⟨id, w', rfl⟩
  | full =>
    unfold spawnBot at spawned
    rw [if_neg fun full => not_lt_of_ge full.2 more] at spawned
    split at spawned <;> simp at spawned
  | noRoom w' => exact absurd room ((spawnBot_noRoom_iff w cell rules).mp ⟨w', spawned⟩).2

/-- Induction on `n`: each of `n` bots finds room. -/
theorem moved_add (n : Nat) (pass : DensityPass α) (h : pass.world.Tidy)
    (room : (Bounds.ofCell cell rules.cellSize).Roomy)
    (allowed : n = 0 ∨ (pass.world.bots.size + n : Int) ≤ rules.cap) :
    Moved cell n 0 pass (pass.add rules cell n) := by
  induction n generalizing pass with
  | zero => exact .refl cell pass
  | succ n ih =>
    have allowed' := allowed.resolve_left n.succ_ne_zero
    push_cast at allowed'
    obtain ⟨id, w, placed⟩ := exists_spawnBot (w := pass.world) room (by omega)
    have one := moved_placed h placed
    have size : w.bots.size = pass.world.bots.size + 1 := one.size
    have rest := ih { pass with
      world := w, report := { pass.report with spawned := pass.report.spawned + 1 } }
      ((botKept_tidy rules).placed h placed)
      (Or.inr (show (w.bots.size + n : Int) ≤ rules.cap by omega))
    rw [add, placed, Nat.add_comm n 1]
    exact one.trans rest

/-- A visit that is not stuck adds `added` bots and takes `taken`. One of them is always zero. -/
theorem moved_visit (rules : BotRules α) (pass : DensityPass α) (cell : Cell) (h : pass.world.Tidy)
    (going : pass.stuck = false)
    (room : (pass.world.population cell).total ≠ 0 → (Bounds.ofCell cell rules.cellSize).Roomy) :
    let band := DensityBand.ofTarget rules.target
    let population := pass.world.population cell
    Moved cell (band.added population.total (rules.cap - pass.world.bots.size).toNat)
      (band.taken population.total population.bots) pass (pass.visit rules cell) := by
  intro band population
  have order : band.low ≤ band.high := DensityBand.low_le_high rules.target
  unfold visit
  rw [if_neg (by rw [going]; exact Bool.false_ne_true)]
  dsimp only
  by_cases nobody : population.total = 0
  · have none : band.added population.total (rules.cap - pass.world.bots.size).toNat = 0 :=
      if_pos nobody
    have none' : band.taken population.total population.bots = 0 := by
      rw [DensityBand.taken, nobody, Nat.zero_sub, Nat.zero_min, Nat.zero_min]
    rw [if_pos nobody, none, none']
    exact .refl cell pass
  · rw [if_neg nobody, DensityBand.added, if_neg nobody]
    by_cases few : population.total < band.low
    · have below : population.total - band.high = 0 := by omega
      rw [if_pos few, DensityBand.taken, below, Nat.zero_min, Nat.zero_min]
      refine moved_add _ pass h (room nobody) ?_
      omega
    · have above : band.low - population.total = 0 := by omega
      rw [if_neg few, above, Nat.zero_min, Nat.zero_min]
      by_cases many : band.high < population.total
      · rw [if_pos many]
        exact moved_takeAway rules _ pass h (Nat.min_le_right _ _)
      · have within : population.total - band.high = 0 := by omega
        rw [if_neg many, DensityBand.taken, within, Nat.zero_min, Nat.zero_min]
        exact .refl cell pass

end DensityPass

/-! ### A pass -/

section Passes

variable [Angular α] {rules : BotRules α}

/-- The invariant of passes: the index is right, the cap holds, and every occupied cell has a square
in which a place can be drawn. -/
structure Ready (rules : BotRules α) (w : World α) : Prop where
  tidy : w.Tidy
  capped : w.Capped rules
  room : ∀ c, (w.population c).total ≠ 0 → (Bounds.ofCell c rules.cellSize).Roomy

/-- The way of a list of cells is the sum of their ways. -/
def way (rules : BotRules α) (w : World α) (cells : List Cell) : Nat :=
  (cells.map fun c => (DensityBand.ofTarget rules.target).way (w.population c).total).sum

/-- A pass has nothing to do in `c`: nobody is there, the total is in the band, the cap is reached
below it, or no bot is left above it. -/
def Balanced (rules : BotRules α) (w : World α) (c : Cell) : Prop :=
  let band := DensityBand.ofTarget rules.target
  let population := w.population c
  population.total = 0 ∨ (band.low ≤ population.total ∧ population.total ≤ band.high) ∨
    (population.total < band.low ∧ (w.bots.size : Int) = rules.cap) ∨
    (band.high < population.total ∧ population.bots = 0)

omit [Angular α] in
/-- If `added` and `taken` are both zero, the cell is balanced. -/
theorem balanced_of_still {w : World α} (capped : w.Capped rules) (allowed : 0 ≤ rules.cap)
    {c : Cell}
    (add : (DensityBand.ofTarget rules.target).added (w.population c).total
      (rules.cap - w.bots.size).toNat = 0)
    (take : (DensityBand.ofTarget rules.target).taken (w.population c).total
      (w.population c).bots = 0) : w.Balanced rules c := by
  have ramp := DensityBand.ramp_pos rules.target
  have most := capped allowed
  unfold DensityBand.added at add
  unfold DensityBand.taken at take
  unfold Balanced
  split at add <;> omega

namespace DensityPass

/-- What visits to `cells` do: each approaches the band, other cells are unchanged, and
`way + moves` is constant over any list that covers the occupied cells. -/
structure Passed (rules : BotRules α) (cells : List Cell) (pass pass' : DensityPass α) : Prop where
  ready : pass'.world.Ready rules
  going : pass'.stuck = false
  others : ∀ k, k ∉ cells → pass'.world.population k = pass.world.population k
  visited : ∀ k, k ∈ cells → (DensityBand.ofTarget rules.target).Approaches
    (pass.world.population k).total (pass'.world.population k).total
  more : pass.moves ≤ pass'.moves
  shorter : ∀ all : List Cell, all.Nodup → (∀ k, (pass.world.population k).total ≠ 0 → k ∈ all) →
    pass'.world.way rules all + pass'.moves = pass.world.way rules all + pass.moves
  still : pass'.moves = pass.moves → pass' = pass ∧ ∀ k, k ∈ cells → pass.world.Balanced rules k

variable {cells cells' : List Cell} {pass pass' pass'' : DensityPass α}

namespace Passed

theorem refl (ready : pass.world.Ready rules) (going : pass.stuck = false) :
    Passed rules [] pass pass where
  ready := ready
  going := going
  others _ _ := rfl
  visited _ none := absurd none List.not_mem_nil
  more := Nat.le_refl _
  shorter _ _ _ := rfl
  still _ := ⟨rfl, fun _ none => absurd none List.not_mem_nil⟩

/-- A visit occupies no cell that was empty. -/
theorem occupied (h : Passed rules cells pass pass') {k : Cell}
    (somebody : (pass'.world.population k).total ≠ 0) : (pass.world.population k).total ≠ 0 := by
  by_cases mem : k ∈ cells
  · exact mt (h.visited k mem).nobody somebody
  · rwa [← h.others k mem]

theorem append (first : Passed rules cells pass pass') (second : Passed rules cells' pass' pass'')
    (apart : cells.Disjoint cells') : Passed rules (cells ++ cells') pass pass'' where
  ready := second.ready
  going := second.going
  others k away := by
    obtain ⟨here, there⟩ := not_or.mp (mt List.mem_append.mpr away)
    exact (second.others k there).trans (first.others k here)
  visited k mem := by
    rcases List.mem_append.mp mem with here | there
    · rw [second.others k fun there => apart here there]
      exact first.visited k here
    · rw [← first.others k fun here => apart here there]
      exact second.visited k there
  more := first.more.trans second.more
  shorter all once cover := by
    rw [second.shorter all once fun k somebody => cover k (first.occupied somebody)]
    exact first.shorter all once cover
  still same := by
    -- the count only goes up, so neither part makes up for the other
    have more := first.more
    have more' := second.more
    obtain ⟨rfl, balanced⟩ := first.still (by omega)
    obtain ⟨rfl, balanced'⟩ := second.still same
    exact ⟨rfl, fun k mem => (List.mem_append.mp mem).elim (balanced k) (balanced' k)⟩

end Passed

omit [Angular α] in
/-- The way of `cell` is one summand, and the visit shortens it by `a + t`. -/
theorem Moved.shorter {cell : Cell} {a t : Nat} (h : Moved cell a t pass pass')
    (closer : (DensityBand.ofTarget rules.target).way (pass'.world.population cell).total + (a + t) =
      (DensityBand.ofTarget rules.target).way (pass.world.population cell).total)
    {all : List Cell} (once : all.Nodup)
    (cover : (pass.world.population cell).total ≠ 0 → cell ∈ all) :
    pass'.world.way rules all + pass'.moves = pass.world.way rules all + pass.moves := by
  by_cases mem : cell ∈ all
  · have others : (all.erase cell).map (fun c =>
        (DensityBand.ofTarget rules.target).way (pass'.world.population c).total) =
        (all.erase cell).map fun c =>
          (DensityBand.ofTarget rules.target).way (pass.world.population c).total := by
      refine List.map_congr_left fun k hk => ?_
      rw [h.others k (once.mem_erase_iff.mp hk).1.symm]
    unfold way
    rw [← List.sum_map_erase _ mem, ← List.sum_map_erase _ mem, others, ← closer, h.moves]
    omega
  · -- nobody is in a cell that is left out, so nothing was done
    have nobody : (pass.world.population cell).total = 0 := not_not.mp (mt cover mem)
    have done : a + t = 0 := by
      rw [nobody] at closer
      exact (Nat.add_eq_zero_iff.mp closer).2
    rw [h.still (by omega) (by omega)]

/-- One visit. The cases are those of `moved_visit`. -/
theorem passed_visit (wanted : rules.target ≠ 0) (allowed : 0 ≤ rules.cap) (pass : DensityPass α)
    (cell : Cell) (ready : pass.world.Ready rules) (going : pass.stuck = false) :
    Passed rules [cell] pass (pass.visit rules cell) := by
  have moved := moved_visit rules pass cell ready.tidy going (ready.room cell)
  have order := DensityBand.low_le_high rules.target
  have pos := DensityBand.high_pos wanted
  have closer := DensityBand.approaches order pos moved.total
  have shorter := DensityBand.way_moved order pos moved.total
  have balanced := balanced_of_still (c := cell) ready.capped allowed
  dsimp only at moved
  generalize DensityBand.added _ _ _ = a at moved shorter balanced
  generalize DensityBand.taken _ _ _ = t at moved shorter balanced
  have count := moved.moves
  refine ⟨⟨(botKept_tidy rules).visit pass cell ready.tidy,
    (botKept_capped rules).visit pass cell ready.capped, fun k somebody => ready.room k ?_⟩,
    moved.stuck.trans going, fun k away => ?_, fun k mem => ?_, by omega,
    fun all once cover => moved.shorter shorter once (cover cell), fun same => ?_⟩
  · by_cases here : cell = k
    · subst here
      exact mt closer.nobody somebody
    · rwa [← moved.others k here]
  · exact moved.others k fun here => away (List.mem_singleton.mpr here.symm)
  · rw [List.mem_singleton.mp mem]
    exact closer
  · refine ⟨moved.still (by omega) (by omega), fun k mem => ?_⟩
    rw [List.mem_singleton.mp mem]
    exact balanced (by omega) (by omega)

/-- Induction on the list, with `Passed.append` at each cell. -/
theorem passed_foldl (wanted : rules.target ≠ 0) (allowed : 0 ≤ rules.cap) (cells : List Cell)
    (once : cells.Nodup) (pass : DensityPass α) (ready : pass.world.Ready rules)
    (going : pass.stuck = false) :
    Passed rules cells pass (cells.foldl (visit rules) pass) := by
  induction cells generalizing pass with
  | nil => exact .refl ready going
  | cons cell cells ih =>
    obtain ⟨new, once'⟩ := List.nodup_cons.mp once
    have first := passed_visit wanted allowed pass cell ready going
    exact first.append (ih once' _ first.ready first.going)
      (List.singleton_disjoint.mpr new)

end DensityPass

/-- A pass is the fold over `w.cells.cells`, where every cell stands once. -/
theorem passed (wanted : rules.target ≠ 0) (allowed : 0 ≤ rules.cap) {w : World α}
    (ready : w.Ready rules) :
    DensityPass.Passed rules w.cells.cells { world := w } (w.maintainDensity rules) := by
  have on : ¬ (rules.target = 0 ∨ rules.cap < 0) := by omega
  unfold maintainDensity
  rw [if_neg on]
  exact DensityPass.passed_foldl wanted allowed _ Std.TreeMap.nodup_keys _ ready rfl

omit [Angular α] in
theorem mem_cells_of_population {w : World α} {c : Cell} (somebody : (w.population c).total ≠ 0) :
    c ∈ w.cells.cells := by
  obtain ⟨id, held⟩ := exists_holds_of_population somebody
  exact mem_cells_of_holds held

theorem approaches_maintainDensity (wanted : rules.target ≠ 0) (allowed : 0 ≤ rules.cap)
    {w : World α} (ready : w.Ready rules) (c : Cell) :
    (DensityBand.ofTarget rules.target).Approaches (w.population c).total
      ((w.maintainDensity rules).world.population c).total := by
  have pass := passed wanted allowed ready
  by_cases mem : c ∈ w.cells.cells
  · exact pass.visited c mem
  · have same : (w.maintainDensity rules).world.population c = w.population c := pass.others c mem
    rw [same]
    exact .refl _ _

/-- Readiness is kept by every pass, so by any number of them. -/
theorem ready_passes (wanted : rules.target ≠ 0) (allowed : 0 ≤ rules.cap) {w : World α}
    (ready : w.Ready rules) (n : Nat) :
    ((fun w : World α => (w.maintainDensity rules).world)^[n] w).Ready rules := by
  induction n generalizing w with
  | zero => exact ready
  | succ n ih => exact ih (passed wanted allowed ready).ready

/-- A pass changes nothing, is not stuck, and every cell is balanced. -/
structure Settled (rules : BotRules α) (w : World α) : Prop where
  report : (w.maintainDensity rules).report = {}
  going : (w.maintainDensity rules).stuck = false
  balanced : ∀ c, w.Balanced rules c

/-- If no bot came or went, the pass returns the same world, and every cell is balanced. -/
theorem settled_of_still (wanted : rules.target ≠ 0) (allowed : 0 ≤ rules.cap) {w : World α}
    (ready : w.Ready rules) (still : (w.maintainDensity rules).moves = 0) :
    (w.maintainDensity rules).world = w ∧ w.Settled rules := by
  have pass := passed wanted allowed ready
  obtain ⟨same, balanced⟩ := pass.still still
  rw [same]
  refine ⟨rfl, by rw [same], by rw [same], fun c => ?_⟩
  by_cases mem : c ∈ w.cells.cells
  · exact balanced c mem
  · exact Or.inl (not_not.mp (mt mem_cells_of_population mem))

/-- Strong induction on `way`: a pass with moves shortens it, and one without settles. -/
theorem exists_settled (wanted : rules.target ≠ 0) (allowed : 0 ≤ rules.cap) {w : World α}
    (ready : w.Ready rules) : ∃ n, ∀ m, n ≤ m →
      ((fun w : World α => (w.maintainDensity rules).world)^[m] w).Settled rules := by
  -- nobody comes to where nobody is, so the cells that are counted stay the same
  suffices among : ∀ (all : List Cell), all.Nodup → ∀ (d : Nat) (w : World α), w.Ready rules →
      (∀ c, (w.population c).total ≠ 0 → c ∈ all) → w.way rules all = d → ∃ n, ∀ m, n ≤ m →
        ((fun w : World α => (w.maintainDensity rules).world)^[m] w).Settled rules from
    among w.cells.cells Std.TreeMap.nodup_keys _ w ready (fun _ => mem_cells_of_population) rfl
  intro all once d
  induction d using Nat.strong_induction_on with
  | _ d ih =>
    intro w ready cover here
    by_cases still : (w.maintainDensity rules).moves = 0
    · obtain ⟨same, settled⟩ := settled_of_still wanted allowed ready still
      refine ⟨0, fun m _ => ?_⟩
      rw [Function.iterate_fixed same]
      exact settled
    · have pass := passed wanted allowed ready
      have shorter : (w.maintainDensity rules).world.way rules all +
          (w.maintainDensity rules).moves = w.way rules all := pass.shorter all once cover
      obtain ⟨n, settled⟩ := ih _ (by omega) (w.maintainDensity rules).world pass.ready
        (fun c somebody => cover c (pass.occupied somebody)) rfl
      refine ⟨n + 1, fun m later => ?_⟩
      cases m with
      | zero => exact absurd later (Nat.not_succ_le_zero n)
      | succ m =>
        rw [Function.iterate_succ_apply]
        exact settled m (Nat.le_of_succ_le_succ later)

end Passes

end World

/-- A run of `maintainDensity` alone iterates the pass on the world. -/
theorem Host.world_passes [Angular α] (h : Host σ α) (n : Nat) :
    (h.run (List.replicate n .maintainDensity)).world =
      (fun w : World α => (w.maintainDensity h.engine.botRules).world)^[n] h.world := by
  induction n generalizing h with
  | zero => rfl
  | succ n ih =>
    rw [List.replicate_succ, run_cons, ih, Function.iterate_succ_apply, botRules_perform]
    rfl

/-! ### Convergence in doubles -/

/-- After any run over doubles with a wanted target and `0 ≤ maxBots`, if no player has the name of
a bot and the squares of occupied cells have finite edges that are apart. The band is
`⌊0.8 * target⌋` to `⌈1.2 * target⌉` with ramp `⌈target / 10⌉` at least one; a pass makes every cell
approach it; no pass of the sequence is stuck; and from some `n` on every pass reports `0` and `0`,
with each occupied cell in the band, or below it with `maxBots` bots in the world, or above it with
no bot. -/
theorem density_converges (settings : Settings Float) (chance : Random) (source : σ)
    (os : List (Operation σ Float)) (wanted : settings.targetDensity ≠ 0)
    (allowed : 0 ≤ settings.maxBots.toInt) :
    let h := (Host.create settings chance source).run os
    let square (c : Cell) := Bounds.ofCell c settings.cellSize
    let target := settings.targetDensity.toNat
    let band := DensityBand.ofTarget target
    let after (n : Nat) := h.run (List.replicate n .maintainDensity)
    (∀ id ∈ h.world.players, Unreserved id) →
    (∀ c, (h.world.population c).total ≠ 0 → (square c).Finite ∧
      (square c).minX < (square c).maxX ∧ (square c).minZ < (square c).maxZ) →
    (band.low = ⌊(0.8 * target : ℚ)⌋₊ ∧ band.high = max band.low ⌈(1.2 * target : ℚ)⌉₊ ∧
      band.ramp = max 1 ⌈(target : ℚ) / 10⌉₊) ∧
    (∀ c, band.Approaches (h.world.population c).total ((after 1).world.population c).total) ∧
    (∀ n, (after n).engine.maintainDensity.1.stuck = false) ∧
    ∃ n, ∀ m, n ≤ m →
      (after m).engine.maintainDensity.1.report = { spawned := 0, despawned := 0 } ∧
      ∀ c, let population := (after m).world.population c
        population.total = 0 ∨ (band.low ≤ population.total ∧ population.total ≤ band.high) ∨
          (population.total < band.low ∧ ((after m).world.bots.size : Int) = settings.maxBots.toInt) ∨
          (band.high < population.total ∧ population.bots = 0) := by
  intro h square target band after apart edges
  have same : h.engine.settings = settings := Host.settings_run _ os
  have rules : h.engine.botRules = ⟨settings.cellSize, target, settings.maxBots.toInt⟩ := by
    rw [Engine.botRules, same]
  have wanted' : target ≠ 0 := fun none => wanted (UInt32.toNat_inj.mp none)
  have ready : h.world.Ready ⟨settings.cellSize, target, settings.maxBots.toInt⟩ :=
    ⟨Host.tidy_run settings chance source os apart,
      Host.capped_run (h := Host.create settings chance source) (fun allowed => allowed) os,
      fun c somebody => Bounds.roomy_of_apart (edges c somebody).1 (edges c somebody).2.1⟩
  have later (n : Nat) : (after n).engine.botRules =
      ⟨settings.cellSize, target, settings.maxBots.toInt⟩ := by
    rw [Engine.botRules, Host.settings_run, same]
  have passes := h.world_passes
  rw [rules] at passes
  refine ⟨DensityBand.ofTarget_fractions wanted', fun c => ?_, fun n => ?_, ?_⟩
  · show band.Approaches _ ((h.run (List.replicate 1 .maintainDensity)).world.population c).total
    rw [passes]
    exact World.approaches_maintainDensity wanted' allowed ready c
  · show ((after n).world.maintainDensity (after n).engine.botRules).stuck = false
    rw [later, passes]
    exact (World.passed wanted' allowed (World.ready_passes wanted' allowed ready n)).going
  · obtain ⟨n, settled⟩ := World.exists_settled wanted' allowed ready
    refine ⟨n, fun m late => ?_⟩
    obtain ⟨report, -, balanced⟩ := settled m late
    rw [← passes] at report balanced
    refine ⟨?_, balanced⟩
    show ((after m).world.maintainDensity (after m).engine.botRules).report = _
    rw [later]
    exact report

/-- With a cap of three, two cells that want seven bots each come to rest. -/
theorem three_bots_for_two_cells :
    let settings : Settings Float := { Settings.standard with targetDensity := 10, maxBots := 3 }
    let h := (Host.create settings (.ofSeed 1) () : Host Unit Float).run
      [.upsert "p1" "one" ⟨5, 0, 5⟩ .zero, .upsert "p2" "two" ⟨300, 0, 5⟩ .zero]
    h.world.players.keys = ["p1", "p2"] ∧ h.world.cells.cells = [⟨0, 0⟩, ⟨1, 0⟩] ∧
      ∃ n, ∀ m, n ≤ m →
        (h.run (List.replicate m .maintainDensity)).engine.maintainDensity.1.report =
          { spawned := 0, despawned := 0 } := by
  intro settings h
  have players : h.world.players.keys = ["p1", "p2"] := by decide +kernel
  have cells : h.world.cells.cells = [⟨0, 0⟩, ⟨1, 0⟩] := by decide +kernel
  have apart (id : String) (mem : id ∈ h.world.players) : Unreserved id := by
    rw [← Std.TreeMap.mem_keys, players, List.mem_pair] at mem
    rcases mem with rfl | rfl <;> exact unreserved_of_head (by decide)
  have edges : ∀ c ∈ h.world.cells.cells, (Bounds.ofCell c settings.cellSize).Finite ∧
      (Bounds.ofCell c settings.cellSize).minX < (Bounds.ofCell c settings.cellSize).maxX ∧
      (Bounds.ofCell c settings.cellSize).minZ < (Bounds.ofCell c settings.cellSize).maxZ := by
    rw [cells]
    unfold Bounds.Finite
    decide +kernel
  obtain ⟨-, -, -, n, settled⟩ := density_converges settings (.ofSeed 1) () _ (by decide) (by decide)
    apart fun c somebody => edges c (World.mem_cells_of_population somebody)
  exact ⟨players, cells, n, fun m late => (settled m late).1⟩

end CellWorld
