import Mathlib.Data.String.Basic
import CellWorld.Proofs.Interest
import CellWorld.Proofs.Tiling

/-!
# What a query returns

A query walks through the block of nine cells around its point, cell by cell, and everybody is
indexed in the one cell that owns it. So the order of a result is that of cells and ids, and nobody
is in it twice.

* `World.home? w id` — the owned cell of the player or the bot of `id`
* `World.Precedes w a b` — the home of `a` is before that of `b` row by row, or the same with
  `a < b`
* `World.Indexed.mem_interest_iff` — membership in a result: owned by a near cell, not `exclude`,
  and `dist2 ≤ radius * radius + 1e-9`
* `World.Indexed.pairwise_interest` — the ids of a result are ordered by `Precedes`
* `Host.queries`, `Host.Counts`, `Host.counts_run` — the queries of a run with radius and result,
  and what the counters make of them
* `queries_exact` — membership, order and counters after any run
* `corner_in_order` — a result across two rows

The distance is that of the scalars, with their rounding: `dist2` and `radius * radius + 1e-9` are
what the code computes. Whether everybody who is near is indexed near is the subject of
`Proofs.Interest`.
-/

namespace CellWorld

variable {σ α : Type}

/-! ### One query -/

namespace World

/-- The cell that owns the player of `id`, or else the bot. -/
def home? (w : World α) (id : String) : Option Cell := (w.playerHome? id).or (w.botHome? id)

/-- The order of a result: by cell, row by row, and by id within a cell. -/
def Precedes (w : World α) (a b : String) : Prop :=
  ∃ j k, w.home? a = some j ∧ w.home? b = some k ∧ (j.RowsBefore k ∨ j = k ∧ a < b)

theorem Precedes.ne {w : World α} {a b : String} (h : w.Precedes a b) : a ≠ b := by
  rintro rfl
  obtain ⟨j, k, hj, hk, before | ⟨-, before⟩⟩ := h
  · exact before.ne (Option.some.inj (hj.symm.trans hk))
  · exact lt_irrefl a before

namespace Indexed

variable {w : World α}

theorem holds_iff_home (h : Indexed w) (k : Cell) (id : String) :
    w.cells.Holds k id ↔ w.home? id = some k := by
  rw [h.holds_iff, home?]
  cases hp : w.playerHome? id with
  | none => simp
  | some j =>
    rw [h.botHome?_eq_none (h.unreserved id (hp ▸ Option.some_ne_none j))]
    simp

/-- The buckets around `c` are disjoint and sorted, and `around` lists them row by row. -/
theorem pairwise_around (h : Indexed w) (c : Cell) : (w.cells.around c).Pairwise w.Precedes := by
  have home {k : Cell} {id : String} (hid : id ∈ (w.cells.bucket k).toList) :
      w.home? id = some k := (h.holds_iff_home k id).mp (Std.TreeSet.mem_toList.mp hid)
  rw [Occupancy.around, List.pairwise_flatMap]
  constructor
  · intro k _
    refine Std.TreeSet.ordered_toList.imp_of_mem fun {a b} ha hb order => ?_
    exact ⟨k, k, home ha, home hb, Or.inr ⟨rfl, compare_lt_iff_lt.mp order⟩⟩
  · refine c.pairwise_block.imp fun {j k} before a ha b hb => ?_
    exact ⟨j, k, home ha, home hb, Or.inl before⟩

end Indexed

end World

section Query

variable [Scalar α] {e : Engine α}

/-- With a radius that is not positive the result is empty and the engine unchanged; NaN
included. -/
theorem Engine.interest_of_not_positive (e : Engine α) (pos : Point α) {radius : α}
    (none : ¬ (0.0 : α) < radius) (exclude : String) :
    e.interest pos radius exclude = ([], e) := if_neg none

namespace World.Indexed

/-- If everybody is kept under its own id, `x` is found iff it is a player or a bot that a near cell
owns, is not `exclude`, and is close enough. -/
theorem mem_interest_iff (h : e.world.Indexed)
    (named : ∀ id x, e.world.entity? id = some x → x.id = id) (pos : Point α) {radius : α}
    (positive : (0.0 : α) < radius) (exclude : String) (x : Entity α) :
    x ∈ (e.interest pos radius exclude).1 ↔
      ((∃ p, e.world.players[x.id]? = some p ∧ p.toEntity = x ∧
          (Cell.containing pos e.settings.cellSize).IsNear p.ownedCell) ∨
        ∃ b, e.world.bots[x.id]? = some b ∧ b.toEntity = x ∧
          (Cell.containing pos e.settings.cellSize).IsNear b.ownedCell) ∧
      x.id ≠ exclude ∧ x.pos.dist2 pos ≤ radius * radius + 1e-9 := by
  have near (id : String) : e.world.HoldsNear e.settings.cellSize pos id ↔
      ∃ k, (Cell.containing pos e.settings.cellSize).IsNear k ∧ e.world.cells.Holds k id := by
    simp only [HoldsNear, Cell.mem_block_iff_isNear]
  rw [Engine.mem_interest_iff e pos positive exclude x]
  constructor
  · rintro ⟨id, other, held, found, close⟩
    obtain ⟨k, beside, holds⟩ := (near id).mp held
    obtain rfl := named id x found
    refine ⟨?_, other, close⟩
    unfold entity? at found
    split at found
    · next p hp =>
      exact Or.inl ⟨p, hp, Option.some.inj found, (h.holds_player_iff hp).mp holds ▸ beside⟩
    · obtain ⟨b, hb, same⟩ := Option.map_eq_some_iff.mp found
      exact Or.inr ⟨b, hb, same, (h.holds_bot_iff hb).mp holds ▸ beside⟩
  · rintro ⟨who, other, close⟩
    rcases who with ⟨p, hp, same, beside⟩ | ⟨b, hb, same, beside⟩
    · refine ⟨x.id, other, (near _).mpr ⟨p.ownedCell, beside, ?_⟩, ?_, close⟩
      · exact (h.holds_player_iff hp).mpr rfl
      · rw [entity?, hp, ← same]
    · refine ⟨x.id, other, (near _).mpr ⟨b.ownedCell, beside, ?_⟩, ?_, close⟩
      · exact (h.holds_bot_iff hb).mpr rfl
      · rw [entity?, Std.TreeMap.getElem?_eq_none (h.not_player_of_bot hb), hb, ← same]
        rfl

/-- A result is a sublist of `around`, so it is in order. -/
theorem pairwise_interest (h : e.world.Indexed)
    (named : ∀ id x, e.world.entity? id = some x → x.id = id) (pos : Point α) (radius : α)
    (exclude : String) :
    ((e.interest pos radius exclude).1.map Entity.id).Pairwise e.world.Precedes := by
  unfold Engine.interest
  split
  · rw [List.pairwise_map, Engine.near]
    refine List.Pairwise.filter _ (List.Pairwise.filterMap _ ?_ ((h.pairwise_around _).filter _))
    intro a b before x hx y hy
    rw [named a x hx, named b y hy]
    exact before
  · exact .nil

end World.Indexed

end Query

/-! ### The queries of a run -/

namespace Host

variable [Angular α]

/-- The radius and the result of an operation that is a query. -/
def query? (h : Host σ α) : Operation σ α → Option (α × List (Entity α))
  | .interest pos radius exclude => some (radius, (h.engine.interest pos radius exclude).1)
  | _ => none

def queries (h : Host σ α) : List (Operation σ α) → List (α × List (Entity α))
  | [] => []
  | o :: os => (h.query? o).toList ++ (h.perform o).queries os

/-- The queries that the counters are to count: those with a positive radius. -/
def counted (asked : List (α × List (Entity α))) : List (α × List (Entity α)) :=
  asked.filter fun q => decide ((0.0 : α) < q.1)

theorem counted_append (asked more : List (α × List (Entity α))) :
    counted (asked ++ more) = counted asked ++ counted more := List.filter_append ..

/-- The counters of `h'` are those of `h` with the queries of `asked` added. -/
structure Counts (h h' : Host σ α) (asked : List (α × List (Entity α))) : Prop where
  queries : h'.engine.metrics.queries = h.engine.metrics.queries + (counted asked).length
  entities : h'.engine.metrics.entities =
    h.engine.metrics.entities + ((counted asked).map fun q => q.2.length).sum

namespace Counts

variable {h h' h'' : Host σ α} {asked more : List (α × List (Entity α))}

theorem of_same
    (same : h'.engine.metrics.queries = h.engine.metrics.queries ∧
      h'.engine.metrics.entities = h.engine.metrics.entities) : Counts h h' [] :=
  ⟨same.1, same.2⟩

theorem append (first : Counts h h' asked) (second : Counts h' h'' more) :
    Counts h h'' (asked ++ more) where
  queries := by
    rw [second.queries, first.queries, counted_append, List.length_append, Nat.add_assoc]
  entities := by
    rw [second.entities, first.entities, counted_append, List.map_append, List.sum_append,
      Nat.add_assoc]

end Counts

/-- One query adds one to `queries` and the length of its result to `entities`, if its radius is
positive. -/
theorem counts_interest (h : Host σ α) (pos : Point α) (radius : α) (exclude : String) :
    Counts h (h.perform (.interest pos radius exclude))
      [(radius, (h.engine.interest pos radius exclude).1)] := by
  by_cases positive : (0.0 : α) < radius
  · have one : counted [(radius, (h.engine.interest pos radius exclude).1)] =
        [(radius, (h.engine.interest pos radius exclude).1)] :=
      List.filter_cons_of_pos (decide_eq_true positive)
    constructor
    · rw [one, perform, Engine.interest, if_pos positive]
      rfl
    · rw [one, perform, Engine.interest, if_pos positive]
      rfl
  · have none : counted [(radius, (h.engine.interest pos radius exclude).1)] = [] :=
      List.filter_cons_of_neg (by simpa using positive)
    constructor
    · rw [none, perform, Engine.interest, if_neg positive]
      rfl
    · rw [none, perform, Engine.interest, if_neg positive]
      rfl

/-- Operations other than queries leave both counters. -/
theorem counts_perform (h : Host σ α) (o : Operation σ α) :
    Counts h (h.perform o) (h.query? o).toList := by
  have attempt (w : Option (World α)) : (h.engine.attempt w).2.metrics = h.engine.metrics := by
    cases w <;> rfl
  have unchanged {h' : Host σ α} (same : h'.engine.metrics = h.engine.metrics) :
      Counts h h' [] := .of_same ⟨congrArg Metrics.queries same, congrArg Metrics.entities same⟩
  have amendIf (id : String) (c : Player α → Prop) [DecidablePred c] (g : Player α → Player α) :
      (h.engine.amendIf id c g).2.metrics = h.engine.metrics := by
    rcases h.engine.amendIf_cases id c g with same | changed
    · rw [same]
    · rw [changed, attempt]
  cases o with
  | interest pos radius exclude => exact h.counts_interest pos radius exclude
  | step now dt => exact .of_same ⟨rfl, rfl⟩
  | ticks clock =>
    exact ticks_induction (P := fun h' => Counts h h' []) h clock (unchanged rfl)
      fun h' now dt same => same.append (.of_same ⟨rfl, rfl⟩)
  | remove id => exact unchanged (attempt _)
  | setVelocity id vel => exact unchanged (attempt _)
  | setConnection id connection => exact unchanged (attempt _)
  | acknowledge id seq => exact unchanged (amendIf id _ _)
  | resolve id reply => exact unchanged (amendIf id _ _)
  | restore id saved templates =>
    simp only [perform, Engine.restore]
    cases h.engine.world.restore id saved templates h.engine.settings.cellSize <;>
      exact unchanged rfl
  | _ => exact unchanged rfl

/-- Induction on the operations. -/
theorem counts_run (h : Host σ α) (os : List (Operation σ α)) :
    Counts h (h.run os) (h.queries os) := by
  induction os generalizing h with
  | nil => exact .of_same ⟨rfl, rfl⟩
  | cons o os ih => exact (h.counts_perform o).append (ih (h.perform o))

end Host

/-! ### Results and counters after a run -/

section Whole

variable [Angular α]

/-- After any run from a fresh host. With `NamesApart os` and `0 < radius`, the result has exactly
the players and bots whose `ownedCell` is near that of the point, other than `exclude`, with
`dist2 ≤ radius * radius + 1e-9`; its ids are distinct and ordered by `Precedes`. With
`¬ 0 < radius`, the result is empty and the engine the same. The counters are the number of queries
with a positive radius and the sum of the lengths of their results; these two hold without
`NamesApart`. -/
theorem queries_exact (settings : Settings α) (chance : Random) (source : σ)
    (os : List (Operation σ α)) :
    let start := Host.create settings chance source
    let h := start.run os
    let asked := (start.queries os).filter fun q => decide ((0.0 : α) < q.1)
    (NamesApart os → ∀ (pos : Point α) (radius : α) (exclude : String), (0.0 : α) < radius →
      let found := (h.engine.interest pos radius exclude).1
      let center := Cell.containing pos settings.cellSize
      (∀ x, x ∈ found ↔
        ((∃ p, h.world.players[x.id]? = some p ∧ p.toEntity = x ∧ center.IsNear p.ownedCell) ∨
          ∃ b, h.world.bots[x.id]? = some b ∧ b.toEntity = x ∧ center.IsNear b.ownedCell) ∧
        x.id ≠ exclude ∧ x.pos.dist2 pos ≤ radius * radius + 1e-9) ∧
      (found.map Entity.id).Nodup ∧
      (found.map Entity.id).Pairwise h.world.Precedes) ∧
    (∀ (pos : Point α) (radius : α) (exclude : String), ¬ (0.0 : α) < radius →
      h.engine.interest pos radius exclude = ([], h.engine)) ∧
    h.engine.metrics.queries = asked.length ∧
    h.engine.metrics.entities = (asked.map fun q => q.2.length).sum := by
  intro start h asked
  refine ⟨?_, ?_, ?_, ?_⟩
  · intro apart pos radius exclude positive found center
    have indexed : h.world.Indexed :=
      Host.indexed_run (Host.indexed_create settings chance source) os apart
    have named (id : String) (x : Entity α) (hx : h.world.entity? id = some x) : x.id = id :=
      Host.id_of_entity hx
    have order := indexed.pairwise_interest (e := h.engine) named pos radius exclude
    have size : h.engine.settings.cellSize = settings.cellSize :=
      congrArg Settings.cellSize (Host.settings_run start os)
    refine ⟨fun x => ?_, order.imp World.Precedes.ne, order⟩
    have found_iff := indexed.mem_interest_iff (e := h.engine) named pos positive exclude x
    rw [size] at found_iff
    exact found_iff
  · exact fun pos _ exclude none => h.engine.interest_of_not_positive pos none exclude
  · exact (Host.counts_run start os).queries.trans (Nat.zero_add _)
  · exact (Host.counts_run start os).entities.trans (Nat.zero_add _)

end Whole

/-- Five players around the corner of four cells, a query there and one of radius zero. -/
def aroundCorner : List (Operation Unit ℚ) :=
  [.spawn "p1" "one" ⟨9, 0, 12⟩, .spawn "p2" "two" ⟨12, 0, 8⟩, .spawn "p3" "three" ⟨8, 0, 9⟩,
    .spawn "p4" "four" ⟨8, 0, 8⟩, .spawn "p5" "five" ⟨11, 0, 11⟩,
    .interest ⟨10, 0, 10⟩ 10 "p5", .interest ⟨10, 0, 10⟩ 0 "p5"]

/-- The result is sorted by row, column and id, without `exclude`; the query of radius zero is not
counted. -/
theorem corner_in_order :
    let h := (Host.create tenMetres (.ofSeed 1) ()).run aroundCorner
    let found := (h.engine.interest ⟨10, 0, 10⟩ 10 "p2").1.map Entity.id
    found = ["p3", "p4", "p1", "p5"] ∧ found.Nodup ∧ found.Pairwise h.world.Precedes ∧
      h.engine.metrics.queries = 1 ∧ h.engine.metrics.entities = 4 := by
  intro h found
  obtain ⟨all, -, queries, entities⟩ := queries_exact tenMetres (.ofSeed 1) () aroundCorner
  have apart : NamesApart aroundCorner := by
    rw [namesApart_iff]
    have joining : aroundCorner.filterMap Operation.joins? = ["p1", "p2", "p3", "p4", "p5"] := rfl
    rw [joining]
    intro id hid
    simp only [List.mem_cons, List.not_mem_nil, or_false] at hid
    rcases hid with rfl | rfl | rfl | rfl | rfl <;> exact unreserved_of_head (by decide)
  obtain ⟨-, once, order⟩ := all apart ⟨10, 0, 10⟩ 10 "p2" (by norm_num)
  refine ⟨by decide +kernel, once, order, queries.trans ?_, entities.trans ?_⟩
  · decide +kernel
  · decide +kernel

end CellWorld
