import CellWorld.Proofs.Births

/-!
# Where the ids of bots are found

A player may have the name of a bot, and then the index tells of that id where the player is as well
as where the bot is. What a player has done to the index goes with it: once no player has such a
name, every bot is found in its own cell and nowhere else.

* `World.Follows w w' id` — `w'.cells` holds `id` where the player of `id` is, and else where
  `w.cells` held it without that player
* `World.Traced` — `cells.Holds k id` for a bot owned by `c` implies `k = c` or that the player of
  `id` is in `k`; an id that is not `Named` is `Housed`
* `World.Tidy` — `Traced`, with no player of a bot's name; `World.Tidy.home` — then a bot is held by
  its owned cell alone
* `Host.traced_run`, `Host.tidy_run` — `Traced` after any run, and `Tidy` after any run that ends
  without a player of a bot's name

Being `Traced` is one direction: a bot need not be held by its owned cell, if a player of its name
has left. `Proofs.Naming` has such a run.
-/

namespace CellWorld

variable {σ α : Type}

namespace World

/-! ### The index follows the players -/

/-- What `w'` holds of `id` is the home of its player, or was held before and not as the home of the
player. -/
def Follows (w w' : World α) (id : String) : Prop :=
  ∀ k, w'.cells.Holds k id →
    w'.playerHome? id = some k ∨ (w.cells.Holds k id ∧ w.playerHome? id ≠ some k)

namespace Follows

variable {w w' w'' : World α} {x : String}

theorem of_same (home : w'.playerHome? x = w.playerHome? x)
    (cells : ∀ k, w'.cells.Holds k x → w.cells.Holds k x) : Follows w w' x := by
  intro k held
  rw [home]
  by_cases here : w.playerHome? x = some k
  · exact Or.inl here
  · exact Or.inr ⟨cells k held, here⟩

theorem refl (w : World α) (x : String) : Follows w w x := of_same rfl fun _ held => held

theorem trans (first : Follows w w' x) (second : Follows w' w'' x) : Follows w w'' x := by
  intro k held
  rcases second k held with here | ⟨held', away⟩
  · exact Or.inl here
  · exact Or.inr ((first k held').resolve_left away)

/-- A change of cells moves the id with the player. -/
theorem commit {id : String} {source : Cell} (hp : w.playerHome? id = some source) (p : Player α) :
    Follows w (w.commit id source p) x := by
  have home : (w.commit id source p).playerHome? x =
      if id = x then some p.ownedCell else w.playerHome? x := playerHome?_insert w id x p _
  intro k held
  have moved := (Occupancy.holds_move w.cells id x source p.ownedCell k).mp held
  rw [home]
  by_cases own : id = x
  · subst own
    rw [if_pos rfl, hp]
    by_cases still : source = p.ownedCell
    · rw [if_pos still] at moved
      by_cases here : source = k
      · exact Or.inl (congrArg some (still.symm.trans here))
      · exact Or.inr ⟨moved, fun same => here (Option.some.inj same)⟩
    · rw [if_neg still] at moved
      rcases moved with ⟨here, -⟩ | ⟨held', left⟩
      · exact Or.inl (congrArg some here)
      · exact Or.inr ⟨held', fun same => left ⟨Option.some.inj same, rfl⟩⟩
  · rw [if_neg own]
    by_cases here : w.playerHome? x = some k
    · exact Or.inl here
    · refine Or.inr ⟨?_, here⟩
      split at moved
      · exact moved
      · exact (moved.resolve_left fun there => own there.2).1

/-- A player that comes in adds its owned cell. -/
theorem join {id : String} (hp : w.playerHome? id = none) (p : Player α) :
    Follows w { w with
      players := w.players.insert id p
      cells := w.cells.insert p.ownedCell id } x := by
  intro k held
  have placed := (Occupancy.holds_insert w.cells p.ownedCell k id x).mp held
  rw [playerHome?_insert]
  by_cases own : id = x
  · subst own
    rw [if_pos rfl, hp]
    rcases placed with ⟨here, -⟩ | held'
    · exact Or.inl (congrArg some here)
    · exact Or.inr ⟨held', nofun⟩
  · rw [if_neg own]
    by_cases here : w.playerHome? x = some k
    · exact Or.inl here
    · exact Or.inr ⟨placed.resolve_left fun there => own there.2, here⟩

theorem upsert [Scalar α] (w : World α) (id name : String) (pos vel : Point α) (size : α) :
    Follows w (w.upsert id name pos vel size).2 x := by
  unfold World.upsert
  cases hp : w.players[id]? with
  | none => exact join (by rw [playerHome?, hp]; rfl) _
  | some old => exact commit (by rw [playerHome?, hp]; rfl) _

theorem place [Scalar α] (w : World α) (id : String) (pos : Point α) (size : α) :
    Follows w ((w.place? id pos size).getD w) x := by
  unfold World.place?
  cases hp : w.players[id]? with
  | none => exact refl w x
  | some old => exact commit (by rw [playerHome?, hp]; rfl) _

/-- A player that is replaced in its cell changes nothing in the index. -/
theorem replace {id : String} {p : Player α} (hp : w.playerHome? id = some p.ownedCell) :
    Follows w { w with players := w.players.insert id p } x := by
  refine of_same ?_ fun _ held => held
  show { w with players := w.players.insert id p, cells := w.cells }.playerHome? x = _
  rw [playerHome?_insert]
  by_cases own : id = x
  · rw [if_pos own, ← own, hp]
  · rw [if_neg own]

theorem amend (w : World α) (id : String) {f : Player α → Player α}
    (same : ∀ p, (f p).ownedCell = p.ownedCell) : Follows w ((w.amend? id f).getD w) x := by
  cases hp : w.players[id]? with
  | none =>
    rw [World.amend?, hp]
    exact refl w x
  | some p =>
    rw [World.amend?, hp]
    exact replace (by rw [playerHome?, hp, same]; rfl)

theorem remove (w : World α) (id : String) : Follows w ((w.remove? id).getD w) x := by
  have home : ((w.remove? id).getD w).playerHome? x =
      if id = x then none else w.playerHome? x := by
    rw [playerHome?, players_remove]
    split <;> rfl
  cases hp : w.players[id]? with
  | none =>
    rw [World.remove?, hp]
    exact refl w x
  | some p =>
    have left : (w.remove? id).getD w =
        { w with players := w.players.erase id, cells := (w.cells.remove p.ownedCell id).1 } := by
      rw [World.remove?, hp]
      rfl
    rw [left] at home ⊢
    intro k held
    obtain ⟨held', away⟩ := (Occupancy.holds_remove w.cells p.ownedCell k id x).mp held
    rw [home]
    by_cases own : id = x
    · subst own
      refine Or.inr ⟨held', fun here => away ⟨?_, rfl⟩⟩
      rw [playerHome?, hp] at here
      exact Option.some.inj here
    · rw [if_neg own]
      exact refl w x k held'

/-- Every `World.Change` satisfies `Follows` for every id. -/
theorem change [Scalar α] {size : α} {joins : Option String} (hc : w.Change size joins w') :
    Follows w w' x := by
  cases hc with
  | same => exact refl w x
  | taken events => exact of_same rfl fun _ held => held
  | amended id f cell => exact amend w id cell
  | removed id => exact remove w id
  | arrived id name pos vel joined => exact upsert w id name pos vel size
  | received id name pos vel p joined cell =>
    refine (upsert w id name pos vel size).trans (replace ?_)
    rw [playerHome?, players_upsert, if_pos rfl, cell, upsert_fst]
    rfl
  | placed id pos f cell => exact (place w id pos size).trans (amend _ id cell)

theorem integrate [Scalar α] (w : World α) (dt : α) : Follows w (w.integrate dt) x := by
  refine of_same ?_ fun _ held => held
  rw [playerHome?, players_integrate, Option.map_map]
  rfl

theorem evaluate [Scalar α] (w : World α) (rules : HandoverRules α) (issuer : Option (Issuer σ α))
    (source : σ) : Follows w (w.evaluate rules issuer source).world x := by
  refine evaluate_induction (P := fun w' => Follows w w' x) rules issuer w source (refl w x) ?_
  intro w' id p source hp before
  have here : w'.playerHome? id = some p.ownedCell := by rw [playerHome?, hp]; rfl
  refine before.trans ?_
  cases hd : p.due? rules with
  | none =>
    rw [Player.evaluate_stays issuer p source hd]
    exact replace here
  | some target =>
    obtain ⟨route, transfer, source', -, he⟩ := Player.evaluate_leaves issuer p source hd
    rw [he]
    exact (commit here _).trans (of_same rfl fun _ held => held)

end Follows

/-! ### The ids of bots -/

/-- Where the index may hold the id of a bot, and where it holds an id that was never a bot's. -/
structure Traced (w : World α) : Prop where
  bot : ∀ id c, w.botHome? id = some c → ∀ k, w.cells.Holds k id →
    w.playerHome? id = some k ∨ k = c
  housed : ∀ id, ¬ w.Named id → w.Housed id

/-- Where the index follows the players and the bots stay, `Traced` is kept. -/
theorem Traced.follow {w w' : World α} (h : w.Traced) (follows : ∀ id, Follows w w' id)
    (bots : ∀ id, w'.botHome? id = w.botHome? id) (housed : ∀ id, ¬ w'.Named id → w'.Housed id) :
    w'.Traced where
  bot id c home k held := by
    rw [bots] at home
    rcases follows id k held with here | ⟨held', away⟩
    · exact Or.inl here
    · exact Or.inr ((h.bot id c home k held').resolve_left away)
  housed := housed

variable [Angular α]

theorem botKept_traced (rules : BotRules α) : BotKept rules (Traced : World α → Prop) where
  placed {w cell own w'} h hs := by
    have housed := fun id => (botKept_housed rules id).placed (h.housed id) hs
    obtain ⟨pos, heading, retargetIn, random, random', name, -, -, -, rfl⟩ := spawnBot_placed hs
    refine ⟨fun id c home k held => ?_, housed⟩
    rw [botHome?, lookup_insert] at home
    have placed := (Occupancy.holds_insert w.cells cell k own id).mp held
    by_cases same : own = id
    · subst same
      rw [if_pos rfl] at home
      obtain rfl := Option.some.inj home
      rcases placed with ⟨here, -⟩ | held'
      · exact Or.inr here.symm
      · -- the name is new, so the index tells of no more than the player
        have unnamed : ¬ w.Named own := by
          rintro ⟨n, -, last, same⟩
          have next : w.botsNamed + 1 = n := Bot.idOf_injective (name.symm.trans same)
          omega
        exact Or.inl (((h.housed own unnamed).holds_iff k).mp held')
    · rw [if_neg same] at home
      exact h.bot id c home k (placed.resolve_left fun there => same there.2)
  noRoom {w cell w'} h hs := by
    have housed := fun id => (botKept_housed rules id).noRoom (h.housed id) hs
    obtain ⟨random, -, rfl⟩ := spawnBot_noRoom hs
    exact ⟨h.bot, housed⟩
  gone {w cell w'} h hs := by
    have housed := fun id => (botKept_housed rules id).gone (h.housed id) hs
    obtain ⟨own, -, -, rfl⟩ := despawnBot?_some hs
    refine ⟨fun id c home k held => ?_, housed⟩
    rw [botHome?, lookup_erase] at home
    split at home
    · exact absurd home.symm (Option.some_ne_none c)
    · exact h.bot id c home k ((Occupancy.holds_remove w.cells cell k own id).mp held).1

/-! ### Worlds in which names tell players from bots -/

/-- A world in which no player has the name of a bot, and every bot has one that was given. -/
structure Tidy (w : World α) : Prop extends Traced w where
  apart : ∀ id, id ∈ w.players → Unreserved id
  named : ∀ id, w.botHome? id ≠ none → w.Named id

namespace Tidy

variable {w : World α}

omit [Angular α] in
theorem not_player (h : w.Tidy) {id : String} (bot : w.botHome? id ≠ none) : id ∉ w.players := by
  obtain ⟨n, -, -, name⟩ := h.named id bot
  exact fun player => h.apart id player n name

omit [Angular α] in
/-- A cell that holds the id of a bot is the one that owns it. -/
theorem home (h : w.Tidy) {id : String} {c k : Cell} (bot : w.botHome? id = some c)
    (held : w.cells.Holds k id) : k = c := by
  rcases h.bot id c bot k held with player | own
  · have there : id ∈ w.players := playerHome?_ne_none.mp (player ▸ Option.some_ne_none k)
    exact absurd there (h.not_player (bot ▸ Option.some_ne_none c))
  · exact own

omit [Angular α] in
/-- The next name of a bot is no player's, no bot's, and in no cell. -/
theorem fresh (h : w.Tidy) :
    let next := Bot.idOf (w.botsNamed + 1)
    next ∉ w.players ∧ next ∉ w.bots ∧ ∀ k, ¬ w.cells.Holds k next := by
  intro next
  have unnamed : ¬ w.Named next := by
    rintro ⟨n, -, last, same⟩
    have own : w.botsNamed + 1 = n := Bot.idOf_injective same
    omega
  have player : next ∉ w.players := fun there => h.apart next there _ rfl
  refine ⟨player, fun there => ?_, fun k held => ?_⟩
  · exact unnamed (h.named next (botHome?_ne_none.mpr there))
  · have here := ((h.housed next unnamed).holds_iff k).mp held
    exact player (playerHome?_ne_none.mp (here ▸ Option.some_ne_none k))

end Tidy

theorem botKept_tidy (rules : BotRules α) : BotKept rules (Tidy : World α → Prop) where
  placed {w cell own w'} h hs := by
    refine ⟨(botKept_traced rules).placed h.toTraced hs, ?_, ?_⟩ <;>
      obtain ⟨pos, heading, retargetIn, random, random', name, -, -, -, rfl⟩ := spawnBot_placed hs
    · exact h.apart
    · intro id bot
      rw [botHome?, lookup_insert] at bot
      by_cases same : own = id
      · exact ⟨w.botsNamed + 1, Nat.le_add_left 1 _, Nat.le_refl _, same ▸ name⟩
      · rw [if_neg same] at bot
        exact (h.named id bot).mono (Nat.le_succ _)
  noRoom {w cell w'} h hs := by
    refine ⟨(botKept_traced rules).noRoom h.toTraced hs, ?_, ?_⟩ <;>
      obtain ⟨random, -, rfl⟩ := spawnBot_noRoom hs
    · exact h.apart
    · exact fun id bot => (h.named id bot).mono (Nat.le_succ _)
  gone {w cell w'} h hs := by
    refine ⟨(botKept_traced rules).gone h.toTraced hs, ?_, ?_⟩ <;>
      obtain ⟨own, -, -, rfl⟩ := despawnBot?_some hs
    · exact h.apart
    · intro id bot
      rw [botHome?, lookup_erase] at bot
      split at bot
      · exact absurd rfl bot
      · exact h.named id bot

end World

/-! ### Runs -/

namespace Host

variable [Angular α]

theorem traced_step {h : Host σ α} (ht : h.world.Traced) (now : Time) (dt : Span) :
    (h.perform (.step now dt)).world.Traced := by
  let ticked : World α := { h.engine.world with tick := h.engine.world.tick + 1 }
  let moved := ticked.integrate (dt.seconds : α)
  let pass := moved.evaluate (h.engine.handoverRules now) h.issuer h.source
  let wandered := pass.world.wander h.engine.settings.cellSize (dt.seconds : α)
  have frame {β : Type} (f : World α → β)
      (blind : ∀ w bots random, f { w with bots, random } = f w) : f wandered = f pass.world :=
    World.wander_frame f _ _ _ blind
  have count : wandered.botsNamed = h.world.botsNamed :=
    (frame World.botsNamed fun _ _ _ => rfl).trans
      (World.evaluate_frame World.botsNamed (fun _ _ _ _ => rfl) _ _ _ _)
  have calm : wandered.Traced := by
    refine ht.follow (fun id => ?_) (fun id => ?_) fun id unnamed => ?_
    · have ticks : h.world.Follows ticked id := .of_same rfl fun _ held => held
      have walks : pass.world.Follows wandered id := by
        refine .of_same ?_ fun k held => ?_
        · rw [World.playerHome?, frame World.players fun _ _ _ => rfl, World.playerHome?]
        · rwa [frame World.cells fun _ _ _ => rfl] at held
      exact ((ticks.trans (.integrate ticked _)).trans (.evaluate moved _ _ _)).trans walks
    · obtain ⟨random, crowd, walked⟩ :=
        World.bots_wander pass.world h.engine.settings.cellSize (dt.seconds : α) id
      have looked : pass.world.bots = h.world.bots := World.bots_evaluate _ _ moved _
      rw [World.botHome?, walked, looked, Option.map_map]
      exact congrArg (Option.map · _) (funext fun b => (Bot.kept_walk b random crowd _ _).2.2)
    · have before := ht.housed id fun named => unnamed (named.mono (Nat.le_of_eq count.symm))
      have here : ticked.Housed id := before.congr rfl rfl fun _ => Iff.rfl
      exact ((here.integrate _).evaluate _ h.issuer h.source).wander _ _
  exact (World.botKept_traced h.engine.botRules).catchUp
    (fun _ _ hw => ⟨hw.bot, fun id unnamed => (hw.housed id unnamed).congr rfl rfl fun _ => Iff.rfl⟩)
    wandered _ calm

/-- Induction on the operations, whatever the players of the run are called. -/
theorem traced_run (settings : Settings α) (chance : Random) (source : σ)
    (os : List (Operation σ α)) : ((create settings chance source).run os).world.Traced := by
  refine run_induction (P := fun h => h.world.Traced) os _ ?_ ?_
  · refine ⟨fun id c home => ?_, fun id _ => ⟨fun k => iff_of_false (Occupancy.not_holds_empty k id) ?_,
      ?_⟩⟩
    · exact absurd home (by simp [World.botHome?])
    all_goals simp [World.playerHome?, World.botHome?]
  · intro h ht o _
    have quiet (plain : o.isPass = false) : (h.perform o).world.Traced := by
      have bots := h.frame_perform World.bots (fun _ _ _ _ => rfl) o plain
      refine ht.follow (fun id => .change (h.change_perform o plain)) (fun id => ?_) fun id =>
        housed_quiet (ht.housed id) o plain
      rw [World.botHome?, bots, World.botHome?]
    cases o with
    | step now dt => exact traced_step ht now dt
    | ticks clock =>
      exact ticks_induction (P := fun h => h.world.Traced) h clock ht
        fun _ now dt ht => traced_step ht now dt
    | maintainDensity =>
      exact (World.botKept_traced h.engine.botRules).maintainDensity h.engine.world ht
    | _ => exact quiet rfl

/-- Only the players at the end of the run need other names than bots; those that were removed
before do not matter. -/
theorem tidy_run (settings : Settings α) (chance : Random) (source : σ)
    (os : List (Operation σ α))
    (apart : ∀ id ∈ ((create settings chance source).run os).world.players, Unreserved id) :
    ((create settings chance source).run os).world.Tidy where
  toTraced := traced_run settings chance source os
  apart := apart
  named id bot := by
    have bore := (create settings chance source).bore_run os
    obtain ⟨c, home⟩ := Option.ne_none_iff_exists'.mp bot
    rcases bore.origin id c home with there | born
    · exact absurd there (by simp [World.botHome?])
    · obtain ⟨n, first, last, name⟩ := bore.exists_name born
      exact ⟨n, Nat.succ_le_of_lt (Nat.lt_of_le_of_lt (Nat.zero_le _) first), last, name⟩

end Host

end CellWorld
