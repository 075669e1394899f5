import CellWorld.Proofs.Membership

/-!
# The one cell of one player

Bots are named by a count, and nothing keeps a player from having such a name. The index is right
about a player all the same, as long as its own id was not used to name a bot; what other players
are called makes no difference.

* `World.Named w id` — `id = Bot.idOf n` for some `n` in `1 … w.botsNamed`
* `World.Housed w id` — `cells.Holds k id ↔ playerHome? id = some k`, and no bot has `id`
* `Host.housed_run` — after any run, `¬ Named id → Housed id`

If the id was used to name a bot, nothing is said: the bot and the player then share one id in the
index. `Proofs.Membership` treats all ids at once, under the stronger condition that no player takes
the name of a bot.
-/

namespace CellWorld

variable {σ α : Type}

namespace World

/-- The id was used to name a bot, also one that found no room. -/
def Named (w : World α) (id : String) : Prop := ∃ n, 1 ≤ n ∧ n ≤ w.botsNamed ∧ id = Bot.idOf n

theorem Named.mono {w w' : World α} {id : String} (named : w.botsNamed ≤ w'.botsNamed)
    (h : w.Named id) : w'.Named id := by
  obtain ⟨n, first, last, name⟩ := h
  exact ⟨n, first, Nat.le_trans last named, name⟩

/-- The index holds `id` in the player's owned cell and nowhere else, and no bot has that id. -/
structure Housed (w : World α) (id : String) : Prop where
  holds_iff : ∀ k, w.cells.Holds k id ↔ w.playerHome? id = some k
  noBot : w.botHome? id = none

namespace Housed

variable {w w' : World α} {x : String}

/-- The property `Housed x` depends on what is known of `x` alone. -/
theorem congr (h : w.Housed x) (players : w'.playerHome? x = w.playerHome? x)
    (bots : w'.botHome? x = w.botHome? x) (cells : ∀ k, w'.cells.Holds k x ↔ w.cells.Holds k x) :
    w'.Housed x :=
  ⟨fun k => by rw [cells, players]; exact h.holds_iff k, bots.trans h.noBot⟩

/-! ### Players that come, jump and go -/

theorem commit (h : w.Housed x) {id : String} {source : Cell}
    (hp : w.playerHome? id = some source) (p : Player α) : (w.commit id source p).Housed x := by
  have home : (w.commit id source p).playerHome? x =
      if id = x then some p.ownedCell else w.playerHome? x := playerHome?_insert w id x p _
  refine ⟨fun k => (Occupancy.holds_move w.cells id x source p.ownedCell k).trans ?_, h.noBot⟩
  rw [home, h.holds_iff]
  by_cases own : id = x
  · subst own
    rw [hp, if_pos rfl]
    split <;> simp_all
  · simp [own]

theorem join (h : w.Housed x) {id : String} (hp : w.playerHome? id = none) (p : Player α) :
    Housed { w with
      players := w.players.insert id p
      cells := w.cells.insert p.ownedCell id } x := by
  refine ⟨fun k => (Occupancy.holds_insert w.cells p.ownedCell k id x).trans ?_, h.noBot⟩
  rw [playerHome?_insert, h.holds_iff]
  by_cases own : id = x
  · subst own
    rw [hp, if_pos rfl]
    simp
  · simp [own]

/-- An upsert moves `id` in the index with the player, and leaves `x ≠ id` alone. -/
theorem upsert [Scalar α] (h : w.Housed x) (id name : String) (pos vel : Point α) (size : α) :
    (w.upsert id name pos vel size).2.Housed x := by
  unfold World.upsert
  cases hp : w.players[id]? with
  | none => exact h.join (by rw [playerHome?, hp]; rfl) _
  | some old => exact h.commit (by rw [playerHome?, hp]; rfl) _

theorem place [Scalar α] (h : w.Housed x) (id : String) (pos : Point α) (size : α) :
    ((w.place? id pos size).getD w).Housed x := by
  unfold World.place?
  cases hp : w.players[id]? with
  | none => exact h
  | some old => exact h.commit (by rw [playerHome?, hp]; rfl) _

/-- A player that is there is replaced by one in the same cell. -/
theorem replace (h : w.Housed x) {id : String} {p : Player α}
    (hp : w.playerHome? id = some p.ownedCell) :
    Housed { w with players := w.players.insert id p } x := by
  refine h.congr ?_ rfl fun _ => Iff.rfl
  show { w with players := w.players.insert id p, cells := w.cells }.playerHome? x = _
  rw [playerHome?_insert]
  by_cases own : id = x
  · rw [if_pos own, ← own, hp]
  · rw [if_neg own]

theorem amend (h : w.Housed x) (id : String) {f : Player α → Player α}
    (same : ∀ p, (f p).ownedCell = p.ownedCell) : ((w.amend? id f).getD w).Housed x := by
  cases hp : w.players[id]? with
  | none => rw [World.amend?, hp]; exact h
  | some p =>
    rw [World.amend?, hp]
    exact h.replace (by rw [playerHome?, hp, same]; rfl)

theorem remove (h : w.Housed x) (id : String) : ((w.remove? id).getD w).Housed x := by
  have home : ((w.remove? id).getD w).playerHome? x =
      if id = x then none else w.playerHome? x := by
    rw [playerHome?, players_remove]
    split <;> rfl
  cases hp : w.players[id]? with
  | none => rw [World.remove?, hp]; exact h
  | some p =>
    have left : (w.remove? id).getD w =
        { w with players := w.players.erase id, cells := (w.cells.remove p.ownedCell id).1 } := by
      rw [World.remove?, hp]
      rfl
    rw [left] at home ⊢
    refine ⟨fun k => (Occupancy.holds_remove w.cells p.ownedCell k id x).trans ?_, h.noBot⟩
    rw [home, h.holds_iff]
    by_cases own : id = x
    · subst own
      rw [playerHome?, hp, if_pos rfl]
      simp
    · simp [own]

/-- Every `World.Change` keeps it. The cases are its constructors. -/
theorem change [Scalar α] (h : w.Housed x) {size : α} {joins : Option String}
    (hc : w.Change size joins w') : w'.Housed x := by
  cases hc with
  | same => exact h
  | taken events => exact h.congr rfl rfl fun _ => Iff.rfl
  | amended id f cell => exact h.amend id cell
  | removed id => exact h.remove id
  | arrived id name pos vel joined => exact h.upsert id name pos vel size
  | received id name pos vel p joined cell =>
    refine (h.upsert id name pos vel size).replace ?_
    rw [playerHome?, players_upsert, if_pos rfl, cell, upsert_fst]
    rfl
  | placed id pos f cell => exact (h.place id pos size).amend id cell

/-! ### Steps of time -/

theorem integrate [Scalar α] (h : w.Housed x) (dt : α) : (w.integrate dt).Housed x := by
  refine h.congr ?_ rfl fun _ => Iff.rfl
  rw [playerHome?, players_integrate, Option.map_map]
  rfl

/-- The pass keeps it, one `commit` for each change of cells. -/
theorem evaluate [Scalar α] (h : w.Housed x) (rules : HandoverRules α)
    (issuer : Option (Issuer σ α)) (source : σ) :
    (w.evaluate rules issuer source).world.Housed x := by
  refine evaluate_induction (P := fun w => w.Housed x) rules issuer w source h ?_
  intro w id p source hp hw
  have here : w.playerHome? id = some p.ownedCell := by rw [playerHome?, hp]; rfl
  cases hd : p.due? rules with
  | none =>
    rw [Player.evaluate_stays issuer p source hd]
    exact hw.replace here
  | some target =>
    obtain ⟨route, transfer, source', -, he⟩ := Player.evaluate_leaves issuer p source hd
    rw [he]
    exact (hw.commit here _).congr rfl rfl fun _ => Iff.rfl

theorem wander [Angular α] (h : w.Housed x) (size dt : α) : (w.wander size dt).Housed x := by
  have frame {β : Type} (f : World α → β)
      (blind : ∀ w bots random, f { w with bots, random } = f w) :
      f (w.wander size dt) = f w := wander_frame f w size dt blind
  obtain ⟨random, crowd, hb⟩ := bots_wander w size dt x
  refine h.congr ?_ ?_ fun k => ?_
  · rw [playerHome?, frame World.players fun _ _ _ => rfl, playerHome?]
  · rw [botHome?, hb, Option.map_map, botHome?]
    refine congrArg (Option.map · _) (funext fun b => ?_)
    exact (Bot.kept_walk b random crowd size dt).2.2
  · rw [frame World.cells fun _ _ _ => rfl]

end Housed

/-! ### Bots that come and go -/

/-- A bot that comes makes its own id `Named`, so for an id that is not, the index is untouched. -/
theorem botKept_housed [Angular α] (rules : BotRules α) (id : String) :
    BotKept rules fun w => ¬ w.Named id → w.Housed id where
  placed {w cell own w'} h hs unnamed := by
    obtain ⟨pos, heading, retargetIn, random, random', name, -, -, -, rfl⟩ := spawnBot_placed hs
    have other : own ≠ id := by
      rintro rfl
      exact unnamed ⟨w.botsNamed + 1, Nat.le_add_left 1 _, Nat.le_refl _, name⟩
    have before := h fun named => unnamed (named.mono (Nat.le_succ _))
    refine before.congr rfl ?_ fun k => ?_
    · show (w.bots.insert own _)[id]?.map Bot.ownedCell = _
      rw [lookup_insert, if_neg other, botHome?]
    · refine (Occupancy.holds_insert w.cells cell k own id).trans ?_
      simp [other]
  noRoom h hs unnamed := by
    obtain ⟨random, -, rfl⟩ := spawnBot_noRoom hs
    exact (h fun named => unnamed (named.mono (Nat.le_succ _))).congr rfl rfl fun _ => Iff.rfl
  gone {w cell w'} h hs unnamed := by
    obtain ⟨own, -, isBot, rfl⟩ := despawnBot?_some hs
    have before := h unnamed
    have other : own ≠ id := by
      rintro rfl
      exact botHome?_ne_none.mpr isBot before.noBot
    refine before.congr rfl ?_ fun k => ?_
    · show (w.bots.erase own)[id]?.map Bot.ownedCell = _
      rw [lookup_erase, if_neg other, botHome?]
    · refine (Occupancy.holds_remove w.cells cell k own id).trans ?_
      simp [other]

end World

/-! ### Operations and runs -/

namespace Host

variable [Angular α]

theorem housed_step {h : Host σ α} {id : String} (hh : ¬ h.world.Named id → h.world.Housed id)
    (now : Time) (dt : Span) :
    ¬ (h.perform (.step now dt)).world.Named id → (h.perform (.step now dt)).world.Housed id := by
  let ticked : World α := { h.engine.world with tick := h.engine.world.tick + 1 }
  let pass := (ticked.integrate (dt.seconds : α)).evaluate (h.engine.handoverRules now) h.issuer
    h.source
  -- nobody is given a name before the density passes
  have count : (pass.world.wander h.engine.settings.cellSize dt.seconds).botsNamed =
      h.world.botsNamed :=
    (World.wander_frame World.botsNamed _ _ _ fun _ _ _ => rfl).trans
      (World.evaluate_frame World.botsNamed (fun _ _ _ _ => rfl) _ _ _ _)
  refine (World.botKept_housed h.engine.botRules id).catchUp
    (fun _ _ hw unnamed => (hw unnamed).congr rfl rfl fun _ => Iff.rfl) _ _ fun unnamed => ?_
  have before : h.world.Housed id := hh fun named => unnamed (named.mono (Nat.le_of_eq count.symm))
  have here : ticked.Housed id := before.congr rfl rfl fun _ => Iff.rfl
  exact ((here.integrate _).evaluate _ h.issuer h.source).wander _ _

/-- Operations other than passes name no bot. -/
theorem housed_quiet {h : Host σ α} {id : String} (hh : ¬ h.world.Named id → h.world.Housed id)
    (o : Operation σ α) (quiet : o.isPass = false) :
    ¬ (h.perform o).world.Named id → (h.perform o).world.Housed id := by
  intro unnamed
  have count := h.frame_perform World.botsNamed (fun _ _ _ _ => rfl) o quiet
  exact (hh fun named => unnamed (named.mono (Nat.le_of_eq count.symm))).change
    (h.change_perform o quiet)

/-- Induction on the operations, from a fresh host. -/
theorem housed_run (settings : Settings α) (chance : Random) (source : σ)
    (os : List (Operation σ α)) (id : String) :
    ¬ ((create settings chance source).run os).world.Named id →
      ((create settings chance source).run os).world.Housed id := by
  refine run_induction (P := fun h => ¬ h.world.Named id → h.world.Housed id) os _ ?_ ?_
  · refine fun _ => ⟨fun k => iff_of_false (Occupancy.not_holds_empty k id) ?_, ?_⟩ <;>
      simp [World.playerHome?, World.botHome?]
  · intro h hh o _
    cases o with
    | step now dt => exact housed_step hh now dt
    | ticks clock =>
      exact ticks_induction (P := fun h => ¬ h.world.Named id → h.world.Housed id) h clock hh
        fun _ now dt hh => housed_step hh now dt
    | maintainDensity =>
      exact (World.botKept_housed h.engine.botRules id).maintainDensity h.engine.world hh
    | _ => exact housed_quiet hh _ rfl

end Host

end CellWorld
