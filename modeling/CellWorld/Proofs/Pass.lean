import CellWorld.Engine
import CellWorld.Proofs.Lookup

/-!
# What the passes of a step do

A step looks at every player (`World.evaluate`), steers and moves every bot (`World.wander`), and
adds and takes away bots (`World.catchUp`). Each is a fold over ids or cells. For each there is one
lemma about an entity, one about what it leaves alone, and one that carries an invariant through the
fold.

* `Bot.kept_walk` — steering and walking keep `id`, `kind` and `ownedCell` of a bot
* `World.players_evaluate` — after `evaluate`, the player of `id` is
  `(p.evaluate rules issuer source').1.player` for some state `source'` of the issuer
* `World.pass_induction`, `World.evaluate_induction` — what `settlePlayer` keeps, `evaluate` keeps
* `World.bots_wander` — after `wander`, a bot is `(b.steer random crowd dt).1.walk size dt`
* `World.spawnBot_placed`, `World.spawnBot_noRoom`, `World.despawnBot?_some` — the world after a bot
  that comes, one that finds no room, and one that goes
* `World.BotKept rules P` — `P` survives these three; then it survives `maintainDensity` and
  `catchUp`
* `World.evaluate_frame`, `World.wander_frame`, `World.botKept_frame` — a function of the world that
  does not read the fields a pass writes has the same value after it

The values of `source'`, `random` and `crowd` are not given here: they depend on the ids that come
first in the fold. `Proofs.Unrolled` follows the random words through `steerAll`.
-/

namespace CellWorld

/-! ### A bot that moves -/

namespace Bot

variable {α : Type} [Angular α]

/-- Only `heading` and the timer change: `retarget` leaves the `Entity` and `ownedCell`. -/
theorem kept_retarget (b : Bot α) (random : Random) (dt : α) :
    (b.retarget random dt).1.toEntity = b.toEntity ∧
      (b.retarget random dt).1.ownedCell = b.ownedCell := by
  unfold retarget
  dsimp only
  split <;> exact ⟨rfl, rfl⟩

/-- Steering and walking keep `id`, `kind` and `ownedCell`, whatever the crowd and the random
words. -/
theorem kept_walk (b : Bot α) (random : Random) (crowd : List (Sighting α)) (size dt : α) :
    ((b.steer random crowd dt).1.walk size dt).id = b.id ∧
      ((b.steer random crowd dt).1.walk size dt).kind = b.kind ∧
      ((b.steer random crowd dt).1.walk size dt).ownedCell = b.ownedCell := by
  obtain ⟨entity, cell⟩ := kept_retarget b random dt
  have id := congrArg Entity.id entity
  have kind := congrArg Entity.kind entity
  exact ⟨id, kind, cell⟩

end Bot

namespace World

variable {σ α : Type}

/-! ### The pass over the players -/

theorem settlePlayer_players (w : World α) (id : String) (e : Player.Evaluated α) :
    (w.settlePlayer id e).players = w.players.insert id e.player := by
  unfold settlePlayer
  split <;> rfl

/-- The player of every other id is as before. -/
theorem players_settlePlayer (w : World α) (id k : String) (e : Player.Evaluated α) :
    (w.settlePlayer id e).players[k]? = if id = k then some e.player else w.players[k]? := by
  rw [settlePlayer_players, lookup_insert]

/-- A function `f` that is blind to `players`, `cells` and `events` has the same value after
`settlePlayer`. -/
theorem settlePlayer_frame {β : Type} (f : World α → β)
    (blind : ∀ (w : World α) players cells events, f { w with players, cells, events } = f w)
    (w : World α) (id : String) (e : Player.Evaluated α) : f (w.settlePlayer id e) = f w := by
  unfold settlePlayer
  split
  · exact blind w _ w.cells w.events
  · exact blind w _ _ _

section Evaluate

variable [Scalar α]

/-- Invariant of `evaluate`, with the state of the issuer: if `P w source` survives `settlePlayer`
of the evaluation of any player that is there, it holds after the pass. -/
theorem pass_induction {P : World α → σ → Prop} (rules : HandoverRules α)
    (issuer : Option (Issuer σ α)) (w : World α) (source : σ) (start : P w source)
    (kept : ∀ w id p source, w.players[id]? = some p → P w source →
      P (w.settlePlayer id (p.evaluate rules issuer source).1)
        (p.evaluate rules issuer source).2) :
    P (w.evaluate rules issuer source).world (w.evaluate rules issuer source).source := by
  unfold evaluate
  suffices fold : ∀ (ids : List String) (pass : HandoverPass σ α), P pass.world pass.source →
      P (ids.foldl (visitPlayer rules issuer) pass).world
        (ids.foldl (visitPlayer rules issuer) pass).source from fold _ _ start
  intro ids
  induction ids with
  | nil => exact fun pass h => h
  | cons id ids ih =>
    intro pass h
    refine ih (visitPlayer rules issuer pass id) ?_
    unfold visitPlayer
    split
    · exact h
    · next p hp => exact kept pass.world id p pass.source hp h

/-- As `pass_induction`, for a `P` that does not speak of the issuer. -/
theorem evaluate_induction {P : World α → Prop} (rules : HandoverRules α)
    (issuer : Option (Issuer σ α)) (w : World α) (source : σ) (start : P w)
    (kept : ∀ w id p source, w.players[id]? = some p → P w →
      P (w.settlePlayer id (p.evaluate rules issuer source).1)) :
    P (w.evaluate rules issuer source).world :=
  pass_induction (P := fun w _ => P w) rules issuer w source start kept

/-- One step of the fold: the player of `id` is evaluated with the source left by the ones
before. -/
theorem players_visitPlayer (rules : HandoverRules α) (issuer : Option (Issuer σ α))
    (pass : HandoverPass σ α) (id k : String) :
    (visitPlayer rules issuer pass id).world.players[k]? =
      if id = k then
        pass.world.players[k]?.map fun p => (p.evaluate rules issuer pass.source).1.player
      else pass.world.players[k]? := by
  unfold visitPlayer
  split
  · next h => rw [change_absent h]
  · next p h =>
    show (pass.world.settlePlayer id (p.evaluate rules issuer pass.source).1).players[k]? = _
    rw [players_settlePlayer, change_present h]

/-- The player of `id` after the pass is its own evaluation, for some state `source'` of the issuer;
nobody comes or goes. -/
theorem players_evaluate (rules : HandoverRules α) (issuer : Option (Issuer σ α)) (w : World α)
    (source : σ) (id : String) :
    ∃ source', (w.evaluate rules issuer source).world.players[id]? =
      w.players[id]?.map fun p => (p.evaluate rules issuer source').1.player := by
  obtain ⟨inside, outside⟩ := foldl_at_key
    (fun (pass : HandoverPass σ α) k => pass.world.players[k]?) (fun k => k)
    (visitPlayer rules issuer)
    (fun _ before after => ∃ source',
      after = before.map fun p => (p.evaluate rules issuer source').1.player)
    (fun pass k => ⟨pass.source, by rw [players_visitPlayer]; simp⟩)
    (fun pass e k hk => by
      rw [players_visitPlayer]
      exact if_neg (Ne.symm hk))
    w.players.keys (by simpa using Std.TreeMap.nodup_keys) ⟨w, source, 0⟩
  by_cases h : id ∈ w.players
  · exact inside id (Std.TreeMap.mem_keys.mpr h)
  · refine ⟨source, ?_⟩
    have kept : (w.evaluate rules issuer source).world.players[id]? = w.players[id]? := by
      refine outside id ?_
      rw [List.map_id']
      exact fun hk => h (Std.TreeMap.mem_keys.mp hk)
    rw [kept, Std.TreeMap.getElem?_eq_none h]
    rfl

/-- A function `f` that is blind to `players`, `cells` and `events` has the same value after
`evaluate`. -/
theorem evaluate_frame {β : Type} (f : World α → β)
    (blind : ∀ (w : World α) players cells events, f { w with players, cells, events } = f w)
    (rules : HandoverRules α) (issuer : Option (Issuer σ α)) (w : World α) (source : σ) :
    f (w.evaluate rules issuer source).world = f w :=
  evaluate_induction (P := fun w' => f w' = f w) rules issuer w source rfl
    fun w' id _ _ _ same => (settlePlayer_frame f blind w' id _).trans same

theorem bots_evaluate (rules : HandoverRules α) (issuer : Option (Issuer σ α)) (w : World α)
    (source : σ) : (w.evaluate rules issuer source).world.bots = w.bots :=
  evaluate_frame World.bots (fun _ _ _ _ => rfl) rules issuer w source

end Evaluate

/-! ### The pass over the bots that move -/

section Wander

variable [Angular α]

/-- The bot of `id` after `steerAll` is its own `steer`, for some state of the random words; its
crowd is that of its owned cell in `w.sightings`. -/
theorem bots_steerAll (w : World α) (dt : α) (id : String) :
    ∃ random, (w.steerAll dt).bots[id]? =
      w.bots[id]?.map fun b => (b.steer random (w.sightings.getD b.ownedCell []) dt).1 := by
  let visit := fun (w' : World α) (e : String × Bot α) =>
    { w' with
      bots := w'.bots.insert e.1 (e.2.steer w'.random (w.sightings.getD e.2.ownedCell []) dt).1
      random := (e.2.steer w'.random (w.sightings.getD e.2.ownedCell []) dt).2 }
  have steered : w.steerAll dt = w.bots.toList.foldl visit w := Std.TreeMap.foldl_eq_foldl_toList
  have distinct : (w.bots.toList.map Prod.fst).Nodup := by
    rw [Std.TreeMap.map_fst_toList_eq_keys]
    exact Std.TreeMap.nodup_keys
  obtain ⟨inside, outside⟩ := foldl_at_key (fun (w' : World α) k => w'.bots[k]?) Prod.fst visit
    (fun e _ after => ∃ random,
      after = some (e.2.steer random (w.sightings.getD e.2.ownedCell []) dt).1)
    (fun w' e => ⟨w'.random, by simp [visit]⟩)
    (fun w' e k hk => by
      show (w'.bots.insert e.1 _)[k]? = w'.bots[k]?
      rw [lookup_insert]
      exact if_neg (Ne.symm hk))
    w.bots.toList distinct w
  rw [steered]
  cases hb : w.bots[id]? with
  | some b =>
    obtain ⟨random, h⟩ := inside (id, b) (Std.TreeMap.mem_toList_iff_getElem?_eq_some.mpr hb)
    exact ⟨random, h⟩
  | none =>
    refine ⟨w.random, ?_⟩
    rw [outside id, hb]
    · rfl
    · rw [Std.TreeMap.map_fst_toList_eq_keys, Std.TreeMap.mem_keys,
        Std.TreeMap.mem_iff_isSome_getElem?, hb]
      exact Bool.false_ne_true

/-- The bot of `id` after `wander` is `steer` followed by `walk`. -/
theorem bots_wander (w : World α) (size dt : α) (id : String) :
    ∃ random crowd, (w.wander size dt).bots[id]? =
      w.bots[id]?.map fun b => (b.steer random crowd dt).1.walk size dt := by
  obtain ⟨random, h⟩ := bots_steerAll w dt id
  refine ⟨random, (w.bots[id]?.map fun b => w.sightings.getD b.ownedCell []).getD [], ?_⟩
  simp only [wander, Std.TreeMap.getElem?_map, h]
  cases w.bots[id]? <;> simp only [Option.map_none, Option.map_some, Option.getD_some]

/-- A function `f` that is blind to `bots` and `random` has the same value after `steerAll`. -/
theorem steerAll_frame {β : Type} (f : World α → β) (w : World α) (dt : α)
    (blind : ∀ (w : World α) bots random, f { w with bots, random } = f w) :
    f (w.steerAll dt) = f w := by
  have fold : ∀ (l : List (String × Bot α)) (w' : World α), f (l.foldl (fun w' e =>
      { w' with
        bots := w'.bots.insert e.1 (e.2.steer w'.random (w.sightings.getD e.2.ownedCell []) dt).1
        random := (e.2.steer w'.random (w.sightings.getD e.2.ownedCell []) dt).2 }) w') = f w' := by
    intro l
    induction l with
    | nil => exact fun w' => rfl
    | cons e l ih => exact fun w' => (ih _).trans (blind w' _ _)
  unfold steerAll
  rw [Std.TreeMap.foldl_eq_foldl_toList]
  exact fold w.bots.toList w

theorem wander_frame {β : Type} (f : World α → β) (w : World α) (size dt : α)
    (blind : ∀ (w : World α) bots random, f { w with bots, random } = f w) :
    f (w.wander size dt) = f w :=
  (blind (w.steerAll dt) _ _).trans (steerAll_frame f w dt blind)

end Wander

/-! ### The pass that adds and takes away bots -/

/-- The bot that goes was a member of `cell` and in `bots`; it leaves both, and nothing else
changes. -/
theorem despawnBot?_some {w w' : World α} {cell : Cell} (h : w.despawnBot? cell = some w') :
    ∃ id, w.cells.Holds cell id ∧ id ∈ w.bots ∧
      w' = { w with cells := (w.cells.remove cell id).1, bots := w.bots.erase id } := by
  unfold despawnBot? at h
  obtain ⟨id, found, rfl⟩ := Option.map_eq_some_iff.mp h
  refine ⟨id, ?_, ?_, rfl⟩
  · exact Std.TreeSet.mem_toList.mp (List.mem_of_find?_eq_some found)
  · exact Std.TreeMap.mem_iff_contains.mpr (List.find?_some found)

section Density

variable [Angular α]

/-- The bot that comes is named `bot-(botsNamed + 1)`, the cap was not reached, and `pos`, `heading`
and `retargetIn` come from `drawPlace` and `drawCourse`. It is indexed in `cell`. -/
theorem spawnBot_placed {w w' : World α} {cell : Cell} {rules : BotRules α} {id : String}
    (h : w.spawnBot cell rules = .placed id w') :
    ∃ pos heading retargetIn random random',
      id = Bot.idOf (w.botsNamed + 1) ∧
      ¬ (0 ≤ rules.cap ∧ rules.cap ≤ w.bots.size) ∧
      drawPlace w.random (Bounds.ofCell cell rules.cellSize) = (some pos, random) ∧
      Bot.drawCourse random = (heading, retargetIn, random') ∧
      w' = { w with
        botsNamed := w.botsNamed + 1
        random := random'
        cells := w.cells.insert cell id
        bots := w.bots.insert id (Bot.new id cell pos heading retargetIn) } := by
  unfold spawnBot at h
  split at h
  · exact absurd h (by simp)
  · next room =>
    split at h
    · exact absurd h (by simp)
    · next pos random drawn =>
      simp only [Spawned.placed.injEq] at h
      obtain ⟨rfl, rfl⟩ := h
      exact ⟨pos, _, _, random, _, rfl, room, drawn, rfl, rfl⟩

/-- A bot that finds no room has used up its name: `botsNamed` grows, and no bot is added. -/
theorem spawnBot_noRoom {w w' : World α} {cell : Cell} {rules : BotRules α}
    (h : w.spawnBot cell rules = .noRoom w') :
    ∃ random, drawPlace w.random (Bounds.ofCell cell rules.cellSize) = (none, random) ∧
      w' = { w with botsNamed := w.botsNamed + 1, random } := by
  unfold spawnBot at h
  split at h
  · exact absurd h (by simp)
  · split at h
    · next random drawn =>
      simp only [Spawned.noRoom.injEq] at h
      exact ⟨random, drawn, h.symm⟩
    · exact absurd h (by simp)

/-- A predicate `P` that survives the three changes a density pass is made of: a bot that was
placed, one that found no room, one that went. -/
structure BotKept (rules : BotRules α) (P : World α → Prop) : Prop where
  placed : ∀ {w cell id w'}, P w → w.spawnBot cell rules = .placed id w' → P w'
  noRoom : ∀ {w cell w'}, P w → w.spawnBot cell rules = .noRoom w' → P w'
  gone : ∀ {w cell w'}, P w → w.despawnBot? cell = some w' → P w'

namespace BotKept

variable {rules : BotRules α} {P : World α → Prop}

theorem takeAway (k : BotKept rules P) (cell : Cell) (n : Nat) (pass : DensityPass α)
    (h : P pass.world) : P (pass.takeAway cell n).world := by
  induction n generalizing pass with
  | zero => exact h
  | succ n ih =>
    unfold DensityPass.takeAway
    split
    · exact h
    · next w hw => exact ih _ (k.gone h hw)

theorem add (k : BotKept rules P) (cell : Cell) (n : Nat) (pass : DensityPass α)
    (h : P pass.world) : P (pass.add rules cell n).world := by
  induction n generalizing pass with
  | zero => exact h
  | succ n ih =>
    unfold DensityPass.add
    split
    · exact h
    · next w hw => exact k.noRoom h hw
    · next id w hw => exact ih _ (k.placed h hw)

theorem visit (k : BotKept rules P) (pass : DensityPass α) (cell : Cell) (h : P pass.world) :
    P (pass.visit rules cell).world := by
  unfold DensityPass.visit
  split
  · exact h
  · dsimp only
    split
    · exact h
    · split
      · exact k.add cell _ pass h
      · split
        · exact k.takeAway cell _ pass h
        · exact h

/-- The predicate `P` survives `maintainDensity`, also where the pass ends at a bot that finds no
room. -/
theorem maintainDensity (k : BotKept rules P) (w : World α) (h : P w) :
    P (w.maintainDensity rules).world := by
  unfold World.maintainDensity
  split
  · exact h
  · suffices fold : ∀ (cells : List Cell) (pass : DensityPass α), P pass.world →
        P (cells.foldl (DensityPass.visit rules) pass).world from fold _ _ h
    intro cells
    induction cells with
    | nil => exact fun pass hp => hp
    | cons cell cells ih => exact fun pass hp => ih _ (k.visit pass cell hp)

/-- The predicate `P` survives `catchUp`, if it is blind to `densityDebt`. -/
theorem catchUp (k : BotKept rules P) (blind : ∀ w densityDebt, P w → P { w with densityDebt })
    (w : World α) (dt : α) (h : P w) : P (w.catchUp rules dt).world := by
  suffices pay : ∀ (fuel passes : Nat) (w : World α), P w →
      P (w.payDebt rules fuel passes).world from pay _ _ _ (blind _ _ h)
  intro fuel
  induction fuel with
  | zero => exact fun _ w h => h
  | succ fuel ih =>
    intro passes w h
    have paid := k.maintainDensity _ (blind w (w.densityDebt - 1.0) h)
    unfold payDebt
    split
    · dsimp only
      split
      · exact paid
      · exact ih _ _ paid
    · exact h

end BotKept

/-- A function `f` that is blind to `bots`, `cells`, `random` and `botsNamed` keeps its value
`x`. -/
theorem botKept_frame {β : Type} (f : World α → β)
    (blind : ∀ (w : World α) bots cells random botsNamed,
      f { w with bots, cells, random, botsNamed } = f w) (rules : BotRules α) (x : β) :
    BotKept rules fun w => f w = x where
  placed h hs := by
    obtain ⟨_, _, _, _, _, -, -, -, -, rfl⟩ := spawnBot_placed hs
    exact (blind _ _ _ _ _).trans h
  noRoom h hs := by
    obtain ⟨_, -, rfl⟩ := spawnBot_noRoom hs
    exact (blind _ _ _ _ _).trans h
  gone h hs := by
    obtain ⟨_, -, -, rfl⟩ := despawnBot?_some hs
    exact (blind _ _ _ _ _).trans h

end Density

end World

end CellWorld
