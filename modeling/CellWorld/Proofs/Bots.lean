import CellWorld.Proofs.Exact
import CellWorld.Proofs.Players

/-!
# What is known of every bot

Bots come in density passes and move in steps; nothing else touches them. So an invariant of bots
has two cases, a bot that is drawn and a bot that walks, and `BotLaw` is these two.

* `BotLaw size Q` — `Q id b` holds of a bot that comes into a square of side `size`, and survives
  `steer` and `walk`
* `Host.forall_bots_run` — a `BotLaw` holds of every bot after any run
* `Host.isOf_bot` — `b.id = id` and `b.kind = .bot`
* `Host.confined_bot` — `(Bounds.ofCell b.ownedCell cellSize).Encloses b.pos`: closed bounds on both
  axes

The upper border is included, since `confine` clamps to it: a bot at `maxX` is in the square of its
cell and, by `Cell.containing`, in the next column.
-/

namespace CellWorld

open Exact (value)

variable {σ α : Type}

namespace Host

variable [Angular α]

/-! ### What a run keeps of every bot -/

/-- The two cases of an invariant of bots: what a bot has that was drawn at `pos` with a course, and
what a bot keeps that is steered and walks, for any crowd and any random words. -/
structure BotLaw (size : α) (Q : String → Bot α → Prop) : Prop where
  born : ∀ {n cell random pos random' heading retargetIn random''},
    World.drawPlace random (Bounds.ofCell cell size) = (some pos, random') →
    Bot.drawCourse random' = (heading, retargetIn, random'') →
    Q (Bot.idOf n) (.new (Bot.idOf n) cell pos heading retargetIn)
  moved : ∀ {id b} random crowd (dt : α), Q id b → Q id ((b.steer random crowd dt).1.walk size dt)

theorem botKept_law {size : α} {Q : String → Bot α → Prop} (law : BotLaw size Q)
    (rules : BotRules α) (same : rules.cellSize = size) :
    World.BotKept rules fun w => ∀ id b, w.bots[id]? = some b → Q id b where
  placed hQ hs := by
    obtain ⟨pos, heading, retargetIn, random, random', rfl, -, drawn, course, rfl⟩ :=
      World.spawnBot_placed hs
    intro id b hb
    rw [lookup_insert] at hb
    split at hb
    · next hk =>
      rw [← Option.some.inj hb, ← hk]
      exact law.born (same ▸ drawn) course
    · exact hQ id b hb
  noRoom hQ hs := by
    obtain ⟨random, -, rfl⟩ := World.spawnBot_noRoom hs
    exact hQ
  gone hQ hs := by
    obtain ⟨key, -, -, rfl⟩ := World.despawnBot?_some hs
    intro id b hb
    rw [lookup_erase] at hb
    split at hb
    · exact absurd hb.symm (Option.some_ne_none b)
    · exact hQ id b hb

theorem bots_law_step {h : Host σ α} {Q : String → Bot α → Prop}
    (law : BotLaw h.engine.settings.cellSize Q) (now : Time) (dt : Span)
    (hQ : ∀ id b, h.world.bots[id]? = some b → Q id b) :
    ∀ id b, (h.perform (.step now dt)).world.bots[id]? = some b → Q id b := by
  let moved := { h.engine.world with tick := h.engine.world.tick + 1 }.integrate (dt.seconds : α)
  let pass := moved.evaluate (h.engine.handoverRules now) h.issuer h.source
  have looked : pass.world.bots = h.world.bots :=
    World.bots_evaluate (h.engine.handoverRules now) h.issuer moved h.source
  refine (botKept_law law h.engine.botRules rfl).catchUp (fun _ _ hw => hw)
    (pass.world.wander h.engine.settings.cellSize dt.seconds) dt.seconds ?_
  intro id b hb
  obtain ⟨random, crowd, walked⟩ :=
    World.bots_wander pass.world h.engine.settings.cellSize dt.seconds id
  rw [walked, looked] at hb
  obtain ⟨old, hold, rfl⟩ := Option.map_eq_some_iff.mp hb
  exact law.moved random crowd dt.seconds (hQ id old hold)

/-- Every bot of a run has `Q`. Steps of `ticks`, and passes that end early, included. -/
theorem forall_bots_run {Q : String → Bot α → Prop} (os : List (Operation σ α)) (h : Host σ α)
    (law : BotLaw h.engine.settings.cellSize Q)
    (start : ∀ id b, h.world.bots[id]? = some b → Q id b) :
    ∀ id b, (h.run os).world.bots[id]? = some b → Q id b := by
  refine (run_induction (P := fun h' => h'.engine.settings = h.engine.settings ∧
    ∀ id b, h'.world.bots[id]? = some b → Q id b) os h ⟨rfl, start⟩ ?_).2
  rintro h' ⟨same, hQ⟩ o -
  refine ⟨(settings_perform h' o).trans same, ?_⟩
  have law' : BotLaw h'.engine.settings.cellSize Q := by
    rw [same]
    exact law
  have quiet (ho : o.isPass = false) :
      ∀ id b, (h'.perform o).world.bots[id]? = some b → Q id b := by
    have bots := frame_perform World.bots (fun _ _ _ _ => rfl) h' o ho
    rw [bots]
    exact hQ
  cases o with
  | step now dt => exact bots_law_step law' now dt hQ
  | ticks clock =>
    refine (ticks_induction (P := fun h'' => h''.engine.settings = h'.engine.settings ∧
      ∀ id b, h''.world.bots[id]? = some b → Q id b) h' clock ⟨rfl, hQ⟩ ?_).2
    rintro h'' now dt ⟨same', hQ'⟩
    refine ⟨same', bots_law_step ?_ now dt hQ'⟩
    rw [same']
    exact law'
  | maintainDensity =>
    exact (botKept_law law' h'.engine.botRules rfl).maintainDensity h'.engine.world hQ
  | _ => exact quiet rfl

/-! ### Names and kinds -/

/-- After any run from a fresh host, the bot under `id` has this id and the kind of a bot. -/
theorem isOf_bot {settings : Settings α} {chance : Random} {source : σ} {os : List (Operation σ α)}
    {id : String} {b : Bot α}
    (hb : ((create settings chance source).run os).world.bots[id]? = some b) :
    b.id = id ∧ b.kind = .bot := by
  refine forall_bots_run (Q := fun id b => b.id = id ∧ b.kind = .bot) os _ ⟨?_, ?_⟩ ?_ id b hb
  · exact fun _ _ => ⟨rfl, rfl⟩
  · intro id b random crowd dt own
    obtain ⟨sameId, sameKind, -⟩ :=
      Bot.kept_walk b random crowd (create settings chance source).engine.settings.cellSize dt
    exact ⟨sameId.trans own.1, sameKind.trans own.2⟩
  · exact fun id b hb => absurd hb (by simp)

end Host

/-! ### Places -/

section Places

variable [Angular α] [Exact α]

/-- A draw lies in the half-open interval: `low ≤ x < high`. -/
theorem Random.draw?_mem {random random' : Random} {low high x : α}
    (h : random.draw? low high = some (x, random')) :
    value low ≤ value x ∧ value x < value high := by
  unfold draw? at h
  split at h
  · next drawable =>
    obtain ⟨drawn, -⟩ := Prod.mk.inj (Option.some.inj h)
    rw [← drawn]
    exact Exact.pick_mem _ low high ((Exact.lt_iff low high).mp drawable.1)
  · exact absurd h.symm (Option.some_ne_none _)

/-- The drawn place is enclosed by the square on both axes. -/
theorem World.drawPlace_mem {random random' : Random} {square : Bounds α} {pos : Point α}
    (h : drawPlace random square = (some pos, random')) : square.Encloses pos := by
  unfold drawPlace at h
  split at h
  · exact absurd (Prod.mk.inj h).1.symm (Option.some_ne_none _)
  · next x random₁ hx =>
    split at h
    · exact absurd (Prod.mk.inj h).1.symm (Option.some_ne_none _)
    · next z random₂ hz =>
      obtain ⟨lowX, highX⟩ := Random.draw?_mem hx
      obtain ⟨lowZ, highZ⟩ := Random.draw?_mem hz
      rw [← Option.some.inj (Prod.mk.inj h).1]
      exact ⟨⟨lowX, highX.le⟩, ⟨lowZ, highZ.le⟩⟩

/-- A reflected coordinate satisfies `low ≤ x ≤ high`, with the ends included. -/
theorem Bot.reflect_mem {low high : α} (order : value low ≤ value high) (x dir : α) :
    value low ≤ value (reflect low high x dir).1 ∧
      value (reflect low high x dir).1 ≤ value high := by
  unfold reflect
  split
  · exact ⟨le_rfl, order⟩
  · next above =>
    rw [Exact.lt_iff, not_lt] at above
    split
    · exact ⟨order, le_rfl⟩
    · next below =>
      rw [Exact.lt_iff, not_lt] at below
      exact ⟨above, below⟩

/-- A confined bot is enclosed by the square, if the square encloses anything at all. -/
theorem Bot.confine_mem (b : Bot α) {square : Bounds α} {p : Point α} (room : square.Encloses p) :
    square.Encloses (b.confine square).pos where
  x := reflect_mem (room.x.1.trans room.x.2) b.pos.x b.heading.x
  z := reflect_mem (room.z.1.trans room.z.2) b.pos.z b.heading.z

/-- Every bot of a run is enclosed by the square of its owned cell. -/
theorem Host.confined_bot {settings : Settings α} {chance : Random} {source : σ}
    {os : List (Operation σ α)} {id : String} {b : Bot α}
    (hb : ((create settings chance source).run os).world.bots[id]? = some b) :
    (Bounds.ofCell b.ownedCell settings.cellSize).Encloses b.pos := by
  refine forall_bots_run
    (Q := fun _ b => (Bounds.ofCell b.ownedCell settings.cellSize).Encloses b.pos) os _
    ⟨?_, ?_⟩ ?_ id b hb
  · exact fun drawn _ => World.drawPlace_mem drawn
  · intro _ b random crowd dt inside
    rw [(Bot.kept_walk b random crowd _ dt).2.2]
    show Bounds.Encloses _ (Bot.confine _ (Bounds.ofCell (b.retarget random dt).1.ownedCell _)).pos
    rw [(Bot.kept_retarget b random dt).2]
    exact Bot.confine_mem _ inside
  · exact fun id b hb => absurd hb (by simp)

end Places

end CellWorld
