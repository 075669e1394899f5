import CellWorld.Proofs.Endpoint
import CellWorld.Proofs.Housing
import CellWorld.Proofs.Lag

/-!
# Names that a node gives

A node names its bots `Bot.idOf n` and the players that come without an id `Node.devId n`, each by a
count of its own. No two names that it gives are the same. Players that come with an id may have any
name, and nothing compares it with the names that the node gives.

* `World.Stirs`, `World.Stirred` — the small changes that steps and density passes are made of, and
  any number of them
* `World.NamedBy known` — players have ids that are `known`, bots ids that are `Named`
* `Node.Act`, `Node.run` — operations on the simulation, requests to the node, and changes of its
  gateway
* `Node.Act.given?` — the id that a caller brings along in an act
* `Node.serves_route` — a request acts on the world as one operation, which brings in the given id
  or the next `devId`
* `given_ids_alone_collide` — a name that the node gives is new, unless it is among the given ids
* `given_id_is_not_unique` — a player that has brought along the name of the first bot

So an id that two entities share was brought along by a caller, and `given_id_is_not_unique` shows
what becomes of the index then.
-/

namespace CellWorld

variable {σ α : Type}

/-! ### Names by count -/

theorem Node.unreserved_devId (n : Nat) : Unreserved (Node.devId n) := by
  refine unreserved_of_head ?_
  rw [Node.devId, String.toList_append]
  exact nofun

theorem Node.devId_injective : Function.Injective Node.devId := by
  intro m n h
  exact Nat.repr_injective ((String.append_right_inj "dev-").mp h)

namespace World

theorem Named.not_unreserved {w : World α} {id : String} (h : w.Named id) : ¬ Unreserved id := by
  obtain ⟨n, -, -, name⟩ := h
  exact fun free => free n name

/-- Bots are numbered from one, so the next name is not `Named` yet. -/
theorem not_named_next (w : World α) : ¬ w.Named (Bot.idOf (w.botsNamed + 1)) := by
  rintro ⟨n, -, last, name⟩
  have next : w.botsNamed + 1 = n := Bot.idOf_injective name
  omega

/-! ### Small changes -/

section Stirs

variable [Angular α]

/-- Small changes. `moved` covers everything that keeps the sets of ids; the others are one bot that
comes, finds no room, or goes. -/
inductive Stirs (rules : BotRules α) : World α → World α → Prop where
  | moved {w w' : World α} (players : ∀ id, id ∈ w'.players ↔ id ∈ w.players)
    (bots : ∀ id, id ∈ w'.bots ↔ id ∈ w.bots) (named : w'.botsNamed = w.botsNamed) :
    Stirs rules w w'
  | placed {w w' : World α} {cell : Cell} {id : String}
    (spawned : w.spawnBot cell rules = .placed id w') : Stirs rules w w'
  | noRoom {w w' : World α} {cell : Cell} (spawned : w.spawnBot cell rules = .noRoom w') :
    Stirs rules w w'
  | gone {w w' : World α} {cell : Cell} (despawned : w.despawnBot? cell = some w') :
    Stirs rules w w'

def Stirred (rules : BotRules α) : World α → World α → Prop := Relation.ReflTransGen (Stirs rules)

theorem botKept_stirred (rules : BotRules α) (w : World α) : BotKept rules (Stirred rules w) where
  placed h hs := h.tail (.placed hs)
  noRoom h hs := h.tail (.noRoom hs)
  gone h hs := h.tail (.gone hs)

end Stirs

end World

namespace Host

variable [Angular α]

/-- A step is `moved`, followed by the changes of its density passes. -/
theorem stirred_step (h : Host σ α) (now : Time) (dt : Span) :
    h.world.Stirred h.engine.botRules (h.perform (.step now dt)).world := by
  let moved := { h.engine.world with tick := h.engine.world.tick + 1 }.integrate (dt.seconds : α)
  let pass := moved.evaluate (h.engine.handoverRules now) h.issuer h.source
  let walked := pass.world.wander h.engine.settings.cellSize dt.seconds
  have players (id : String) : id ∈ walked.players ↔ id ∈ h.world.players := by
    obtain ⟨source, looked⟩ :=
      World.players_evaluate (h.engine.handoverRules now) h.issuer moved h.source id
    have same : walked.players = pass.world.players :=
      World.wander_frame World.players _ _ _ fun _ _ _ => rfl
    rw [same, Std.TreeMap.mem_iff_isSome_getElem?, looked, Option.isSome_map,
      World.players_integrate, Option.isSome_map, Std.TreeMap.mem_iff_isSome_getElem?]
    rfl
  have bots (id : String) : id ∈ walked.bots ↔ id ∈ h.world.bots := by
    obtain ⟨random, crowd, walks⟩ := World.bots_wander pass.world h.engine.settings.cellSize
      (dt.seconds : α) id
    rw [Std.TreeMap.mem_iff_isSome_getElem?, walks, Option.isSome_map, World.bots_evaluate,
      Std.TreeMap.mem_iff_isSome_getElem?]
    rfl
  have named : walked.botsNamed = h.world.botsNamed :=
    (World.wander_frame World.botsNamed _ _ _ fun _ _ _ => rfl).trans
      (World.evaluate_frame World.botsNamed (fun _ _ _ _ => rfl) _ _ _ _)
  exact (World.botKept_stirred h.engine.botRules h.world).catchUp
    (fun w _ hw => hw.tail (.moved (fun _ => Iff.rfl) (fun _ => Iff.rfl) rfl)) walked _
    (.single (.moved players bots named))

/-- A density pass is made of small changes, by `BotKept`. -/
theorem stirred_maintainDensity (h : Host σ α) :
    h.world.Stirred h.engine.botRules (h.perform .maintainDensity).world :=
  (World.botKept_stirred h.engine.botRules h.world).maintainDensity h.world .refl

end Host

/-! ### Where ids come from -/

namespace World

/-- Where the ids of a world come from. -/
structure NamedBy (known : String → Prop) (w : World α) : Prop where
  players : ∀ id ∈ w.players, known id
  bots : ∀ id ∈ w.bots, w.Named id

namespace NamedBy

variable {known known' : String → Prop} {w w' : World α}

theorem mono (h : w.NamedBy known) (more : ∀ id, known id → known' id) : w.NamedBy known' :=
  ⟨fun id hp => more id (h.players id hp), h.bots⟩

section Stirs

variable [Angular α] {rules : BotRules α}

theorem stirs (h : w.NamedBy known) (change : Stirs rules w w') : w'.NamedBy known := by
  cases change with
  | moved players bots named =>
    refine ⟨fun id hp => h.players id ((players id).mp hp), fun id hb => ?_⟩
    exact (h.bots id ((bots id).mp hb)).mono (Nat.le_of_eq named.symm)
  | placed spawned =>
    obtain ⟨pos, heading, retargetIn, random, random', name, -, -, -, rfl⟩ :=
      spawnBot_placed spawned
    refine ⟨h.players, fun id hb => ?_⟩
    rcases Std.TreeMap.mem_insert.mp hb with same | old
    · rw [← Std.LawfulEqCmp.compare_eq_iff_eq.mp same, name]
      exact ⟨w.botsNamed + 1, Nat.le_add_left 1 _, Nat.le_refl _, rfl⟩
    · exact (h.bots id old).mono (Nat.le_succ _)
  | noRoom spawned =>
    obtain ⟨random, -, rfl⟩ := spawnBot_noRoom spawned
    exact ⟨h.players, fun id hb => (h.bots id hb).mono (Nat.le_succ _)⟩
  | gone despawned =>
    obtain ⟨own, -, -, rfl⟩ := despawnBot?_some despawned
    exact ⟨h.players, fun id hb => h.bots id (Std.TreeMap.mem_of_mem_erase hb)⟩

theorem stirred (h : w.NamedBy known) (changes : Stirred rules w w') : w'.NamedBy known := by
  induction changes with
  | refl => exact h
  | tail _ change ih => exact ih.stirs change

/-- A placed bot has the next name: no bot has it, and a player only if the name was `known`. -/
theorem fresh_of_placed (h : w.NamedBy known) {cell : Cell} {id : String}
    (spawned : w.spawnBot cell rules = .placed id w') :
    id ∉ w.bots ∧ ¬ Unreserved id ∧ (id ∈ w.players → known id) := by
  obtain ⟨pos, heading, retargetIn, random, random', rfl, -⟩ := spawnBot_placed spawned
  exact ⟨fun hb => w.not_named_next (h.bots _ hb), fun free => free _ rfl, h.players _⟩

end Stirs

end NamedBy

end World

namespace Host

variable [Angular α] {known : String → Prop}

/-- Operations keep `NamedBy known`, if the id that they bring in is `known`. -/
theorem namedBy_perform {h : Host σ α} (hn : h.world.NamedBy known) (o : Operation σ α)
    (joins : ∀ id, o.joins? = some id → known id) : (h.perform o).world.NamedBy known := by
  have players (id : String) (hp : id ∈ (h.perform o).world.players) : known id := by
    rcases (h.mem_players_perform o id).mp hp with joined | ⟨old, -⟩
    · exact joins id joined
    · exact hn.players id old
  have quiet (plain : o.isPass = false) :
      ∀ id ∈ (h.perform o).world.bots, (h.perform o).world.Named id := by
    have bots := h.frame_perform World.bots (fun _ _ _ _ => rfl) o plain
    have named := h.frame_perform World.botsNamed (fun _ _ _ _ => rfl) o plain
    intro id hb
    rw [bots] at hb
    exact (hn.bots id hb).mono (Nat.le_of_eq named.symm)
  refine ⟨players, ?_⟩
  cases o with
  | step now dt => exact (hn.stirred (h.stirred_step now dt)).bots
  | ticks clock =>
    have all : (h.perform (.ticks clock)).world.NamedBy known :=
      ticks_induction (P := fun h => h.world.NamedBy known) h clock hn
        fun h now dt hn => hn.stirred (h.stirred_step now dt)
    exact all.bots
  | maintainDensity => exact (hn.stirred h.stirred_maintainDensity).bots
  | _ => exact quiet rfl

end Host

/-! ### What can happen to a node -/

namespace Node

/-- An act on the node. `operate` may come with any issuer and source, `relink` may change the
gateway in any way. -/
inductive Act (σ : Type) where
  /-- Somebody uses the simulation, or time passes in it, with whoever mints tokens. -/
  | operate (issuer : Option (Issuer σ Float)) (source : σ) (o : Operation σ Float)
  /-- Somebody asks for something. -/
  | request (method target : String) (body : List UInt8) (now : Time)
  /-- Whatever becomes of the gateway and of who mints tokens. -/
  | relink (gateway : Gateway Float) (link : Link Float)

/-- The id that a caller brings along in a request: the parameter `id` of `/dev/spawn`, or that of
the payload at `/handover`. -/
def requested? (method target : String) (body : List UInt8) : Option String :=
  match Endpoint.paths.lookup (Target.path target) with
  | some .spawn => (Params.mk (Target.params target)).nonempty? "id"
  | some .handover => (presented? method body).map fun r => r.payload.id
  | _ => none

def Act.given? : Act σ → Option String
  | operate _ _ o => o.joins?
  | request method target body _ => requested? method target body
  | relink _ _ => none

def act (n : Node Float) : Act σ → Node Float
  | .operate issuer source o =>
    { n with engine := (({ engine := n.engine, issuer, source } : Host σ Float).perform o).engine }
  | .request method target body now => (n.route method target body now).2
  | .relink gateway link => { n with gateway, link }

def run (n : Node Float) (acts : List (Act σ)) : Node Float := acts.foldl act n

/-! ### What a request does -/

/-- A request acts on the world as the operation `o` does, and what `o` brings in was given or is
the next `devId`. -/
structure Serves (given : Option String) (n n' : Node Float) (o : Operation Unit Float) : Prop where
  world : n'.engine.world =
    (({ engine := n.engine, source := () } : Host Unit Float).perform o).world
  spawned : n.spawned ≤ n'.spawned
  joins : ∀ id, o.joins? = some id →
    given = some id ∨ (n'.spawned = n.spawned + 1 ∧ id = devId (n.spawned + 1))

namespace Serves

variable {given : Option String} {n n' : Node Float}

/-- A request that leaves the world alone serves as `snapshot`. -/
theorem silent (world : n'.engine.world = n.engine.world) (spawned : n'.spawned = n.spawned) :
    Serves given n n' .snapshot :=
  ⟨world, Nat.le_of_eq spawned.symm, nofun⟩

end Serves

theorem serves_spawn (n : Node Float) (p : Params) :
    ∃ o, Serves (p.nonempty? "id") n (n.answerSpawn p).2 o := by
  unfold answerSpawn
  cases given : p.nonempty? "id" with
  | some id => exact ⟨.spawn id _ _, rfl, Nat.le_refl _, fun _ joined => Or.inl joined⟩
  | none =>
    refine ⟨.spawn (devId (n.spawned + 1)) _ _, rfl, Nat.le_succ _, fun id joined => ?_⟩
    exact Or.inr ⟨rfl, (Option.some.inj joined).symm⟩

theorem serves_velocity (n : Node Float) (p : Params) :
    ∃ o, Serves none n (n.answerVelocity p).2 o := by
  let id := (p.get? "id").getD ""
  let vel : Point Float := .planar (p.coordinate "vx") (p.coordinate "vz")
  unfold answerVelocity
  split
  · next engine set =>
    have world : engine.world = (n.engine.setVelocity id vel).2.world :=
      congrArg (fun out => out.2.world) set.symm
    exact ⟨.setVelocity id vel, world, Nat.le_refl _, nofun⟩
  · exact ⟨_, .silent rfl rfl⟩

/-- The registry is not part of the world. -/
theorem world_register (n : Node Float) (p : Params) :
    (n.answerRegister p).2.engine.world = n.engine.world ∧
      (n.answerRegister p).2.spawned = n.spawned := by
  unfold answerRegister
  split
  · split <;> exact ⟨rfl, rfl⟩
  · exact ⟨rfl, rfl⟩

theorem world_unregister (n : Node Float) (p : Params) :
    (n.answerUnregister p).2.engine.world = n.engine.world ∧
      (n.answerUnregister p).2.spawned = n.spawned := by
  unfold answerUnregister
  split
  · next id _ =>
    split
    · next engine known =>
      have world : engine.world = (n.engine.unregister id).2.world :=
        congrArg (fun out => out.2.world) known.symm
      exact ⟨world, rfl⟩
    · exact ⟨rfl, rfl⟩
  · exact ⟨rfl, rfl⟩

theorem world_assign (n : Node Float) (p : Params) :
    (n.answerAssign p).2.engine.world = n.engine.world ∧
      (n.answerAssign p).2.spawned = n.spawned := by
  unfold answerAssign
  split
  · split <;> exact ⟨rfl, rfl⟩
  · exact ⟨rfl, rfl⟩

theorem serves_transfer (n : Node Float) (method : String) (body : List UInt8) (now : Time) :
    ∃ o, Serves ((presented? method body).map fun r => r.payload.id) n
      (n.handleTransfer method body now).2 o := by
  rcases n.handleTransfer_ends method body now with ⟨r, read, -, admits⟩ | ⟨-, refuses⟩
  · obtain ⟨tokens, done⟩ := admits.done
    rw [done, read]
    exact ⟨.receive r.payload, rfl, Nat.le_refl _, fun _ joined => Or.inl joined⟩
  · obtain ⟨tokens, kept⟩ := refuses.kept
    rw [kept]
    exact ⟨_, .silent rfl rfl⟩

/-- Every request serves some operation. The cases are the endpoints. -/
theorem serves_route (n : Node Float) (method target : String) (body : List UInt8) (now : Time) :
    ∃ o, Serves (requested? method target body) n (n.route method target body now).2 o := by
  unfold route requested?
  generalize Params.mk (Target.params target) = p
  cases Endpoint.paths.lookup (Target.path target) with
  | none => exact ⟨_, .silent rfl rfl⟩
  | some endpoint =>
    cases endpoint with
    | handover => exact n.serves_transfer method body now
    | spawn => exact n.serves_spawn p
    | velocity => exact n.serves_velocity p
    | registerNode => exact ⟨_, .silent (n.world_register _).1 (n.world_register _).2⟩
    | unregisterNode => exact ⟨_, .silent (n.world_unregister _).1 (n.world_unregister _).2⟩
    | assignCell => exact ⟨_, .silent (n.world_assign _).1 (n.world_assign _).2⟩
    | _ => exact ⟨_, .silent rfl rfl⟩

/-! ### Where the ids of a node come from -/

/-- An id is known if it was given, or if it is a `devId` up to the count. -/
def Knows (n : Node Float) (given : List String) (id : String) : Prop :=
  id ∈ given ∨ ∃ k, k ≤ n.spawned ∧ id = devId k

theorem named_act {n : Node Float} {given : List String}
    (h : n.engine.world.NamedBy (n.Knows given)) (a : Act σ) :
    (n.act a).engine.world.NamedBy ((n.act a).Knows (given ++ a.given?.toList)) := by
  have more {n' : Node Float} (spawned : n.spawned ≤ n'.spawned) (id : String)
      (known : n.Knows given id) : n'.Knows (given ++ a.given?.toList) id := by
    rcases known with old | ⟨k, last, name⟩
    · exact Or.inl (List.mem_append_left _ old)
    · exact Or.inr ⟨k, last.trans spawned, name⟩
  have brought {n' : Node Float} {id : String} (given' : a.given? = some id) :
      n'.Knows (given ++ a.given?.toList) id := by
    refine Or.inl (List.mem_append_right _ ?_)
    rw [given']
    exact List.mem_singleton_self id
  cases a with
  | operate issuer source o =>
    exact Host.namedBy_perform (h := { engine := n.engine, issuer, source })
      (h.mono (more (Nat.le_refl n.spawned))) o fun id joined => brought joined
  | request method target body now =>
    obtain ⟨o, serves⟩ := n.serves_route method target body now
    show ((n.route method target body now).2.engine.world).NamedBy _
    rw [serves.world]
    refine Host.namedBy_perform (h := { engine := n.engine, source := () })
      (h.mono (more serves.spawned)) o fun id joined => ?_
    rcases serves.joins id joined with given' | ⟨spawned, name⟩
    · exact brought given'
    · exact Or.inr ⟨n.spawned + 1, Nat.le_of_eq spawned.symm, name⟩
  | relink gateway link => exact h.mono (more (Nat.le_refl n.spawned))

theorem named_run (n : Node Float) (given : List String)
    (h : n.engine.world.NamedBy (n.Knows given)) (acts : List (Act σ)) :
    (n.run acts).engine.world.NamedBy
      ((n.run acts).Knows (given ++ acts.filterMap Act.given?)) := by
  induction acts generalizing n given with
  | nil =>
    rw [List.filterMap_nil, List.append_nil]
    exact h
  | cons a acts ih =>
    have later := ih (n.act a) (given ++ a.given?.toList) (named_act h a)
    have all : given ++ (a :: acts).filterMap Act.given? =
        (given ++ a.given?.toList) ++ acts.filterMap Act.given? := by
      rw [List.append_assoc, List.filterMap_cons]
      cases a.given? <;> rfl
    rw [all]
    exact later

end Node

/-! ### Names given and names brought along -/

/-- After any acts from a fresh node, and in any world `w'` that small changes lead to: a bot that
is placed has an id that no bot has, and a player only if the id was given; the next `devId` is no
bot's, and a player's only if it was given; an id of a player and a bot was given and is `Named`.
For an id that is not both, removing the player leaves every bot in the index as it is, and a bot
that goes leaves every such player. -/
theorem given_ids_alone_collide (settings : Settings Float) (chance : Random)
    (gateway : Gateway Float) (link : Link Float) (acts : List (Node.Act σ)) :
    let n := ({ engine := .create settings chance, gateway, link } : Node Float).run acts
    let w := n.engine.world
    let rules := n.engine.botRules
    let given := acts.filterMap Node.Act.given?
    (∀ w', w.Stirred rules w' → ∀ cell id w'', w'.spawnBot cell rules = .placed id w'' →
      id ∉ w'.bots ∧ (id ∈ w'.players → id ∈ given)) ∧
    (Node.devId (n.spawned + 1) ∉ w.bots ∧
      (Node.devId (n.spawned + 1) ∈ w.players → Node.devId (n.spawned + 1) ∈ given)) ∧
    (∀ id, id ∈ w.players → id ∈ w.bots → id ∈ given ∧ w.Named id) ∧
    (∀ id, ¬ (id ∈ given ∧ w.Named id) → ∀ b ∈ w.bots, ∀ k,
      (n.engine.remove id).2.world.cells.Holds k b ↔ w.cells.Holds k b) ∧
    ∀ w', w.Stirred rules w' → ∀ cell w'', w'.despawnBot? cell = some w'' →
      ∀ p ∈ w'.players, ¬ (p ∈ given ∧ w'.Named p) → ∀ k,
        w''.cells.Holds k p ↔ w'.cells.Holds k p := by
  intro n w rules given
  have names : w.NamedBy (n.Knows given) := by
    refine Node.named_run _ [] ⟨fun id hp => ?_, fun id hb => ?_⟩ acts
    · exact absurd hp (by simp [Engine.create, World.empty])
    · exact absurd hb (by simp [Engine.create, World.empty])
  have shared {w' : World Float} (names : w'.NamedBy (n.Knows given)) {id : String}
      (hp : id ∈ w'.players) (named : ¬ Unreserved id) : id ∈ given := by
    rcases names.players id hp with brought | ⟨k, -, name⟩
    · exact brought
    · exact absurd (name ▸ Node.unreserved_devId k) named
  refine ⟨?_, ⟨?_, ?_⟩, ?_, ?_, ?_⟩
  · intro w' changes cell id w'' spawned
    have later := names.stirred changes
    obtain ⟨noBot, reserved, -⟩ := later.fresh_of_placed spawned
    exact ⟨noBot, fun hp => shared later hp reserved⟩
  · exact fun hb => (names.bots _ hb).not_unreserved (Node.unreserved_devId _)
  · intro hp
    rcases names.players _ hp with brought | ⟨k, last, name⟩
    · exact brought
    · have next : n.spawned + 1 = k := Node.devId_injective name
      omega
  · intro id hp hb
    exact ⟨shared names hp (names.bots id hb).not_unreserved, names.bots id hb⟩
  · intro id apart b hb k
    show (n.engine.attempt (w.remove? id)).2.world.cells.Holds k b ↔ _
    rw [Engine.world_attempt]
    cases hp : w.players[id]? with
    | none =>
      rw [World.remove?, hp]
      rfl
    | some p =>
      rw [World.remove?, hp]
      refine (Occupancy.holds_remove w.cells p.ownedCell k id b).trans (and_iff_left ?_)
      rintro ⟨-, rfl⟩
      have there : id ∈ w.players := Std.TreeMap.mem_iff_isSome_getElem?.mpr (by rw [hp]; rfl)
      have named := names.bots id hb
      exact apart ⟨shared names there named.not_unreserved, named⟩
  · intro w' changes cell w'' despawned p hp apart k
    have later := names.stirred changes
    obtain ⟨id, -, isBot, rfl⟩ := World.despawnBot?_some despawned
    refine (Occupancy.holds_remove w'.cells cell k id p).trans (and_iff_left ?_)
    rintro ⟨-, rfl⟩
    have named := later.bots id isBot
    exact apart ⟨shared later hp named.not_unreserved, named⟩

/-- A player brought along `bot-1`, and the first bot comes into its cell. The index holds the id
once and counts a player; when the player is removed, the bot is in no cell. A player that brought
along `dev-1` is the one that the node moves when a player without an id comes. -/
theorem given_id_is_not_unique :
    (let joined := (Host.create { tenMetres with targetDensity := 3 } (.ofSeed 1) () :
        Host Unit ℚ).run [.upsert "bot-1" "one" ⟨5, 0, 5⟩ ⟨0, 0, 0⟩, .maintainDensity]
      let left := joined.perform (.remove "bot-1")
      "bot-1" ∈ joined.world.players ∧ "bot-1" ∈ joined.world.bots ∧
        joined.world.population ⟨0, 0⟩ = ⟨1, 0⟩ ∧
        "bot-1" ∈ left.world.bots ∧ ∀ k, ¬ left.world.cells.Holds k "bot-1") ∧
    let n := ({ engine := .create .standard (.ofSeed 1),
                gateway := { nodeId := "local", port := 80, tokens := .ofBytes 0 [] } } :
      Node Float).act (σ := Unit) (.request "GET" "/dev/spawn?id=dev-1" [] ⟨0⟩)
    Node.devId (n.spawned + 1) ∈ n.engine.world.players := by
  refine ⟨?_, ?_⟩
  · intro joined left
    have nowhere : ∀ k ∈ left.world.cells.cells,
        (left.world.cells.bucket k).contains "bot-1" = false := by decide +kernel
    have player : joined.world.players.contains "bot-1" = true := by decide +kernel
    have bot : joined.world.bots.contains "bot-1" = true := by decide +kernel
    have counted : joined.world.population ⟨0, 0⟩ = ⟨1, 0⟩ := by decide +kernel
    have stays : left.world.bots.contains "bot-1" = true := by decide +kernel
    refine ⟨Std.TreeMap.mem_iff_contains.mpr player, Std.TreeMap.mem_iff_contains.mpr bot, counted,
      Std.TreeMap.mem_iff_contains.mpr stays, fun k held => ?_⟩
    have found := Std.TreeSet.mem_iff_contains.mp held
    rw [nowhere k (World.mem_cells_of_holds held)] at found
    exact Bool.false_ne_true found
  · intro n
    have there : n.engine.world.players.contains (Node.devId (n.spawned + 1)) = true := by
      decide +kernel
    exact Std.TreeMap.mem_iff_contains.mpr there

end CellWorld
