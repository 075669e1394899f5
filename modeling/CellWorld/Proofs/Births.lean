import CellWorld.Proofs.Bots
import CellWorld.Proofs.Housing
import CellWorld.Proofs.Lag
import CellWorld.Proofs.Unrolled

/-!
# The bots of a run

Bots come in density passes, one after the other, and each is named `Bot.idOf n` by the count `n` of
all that were named before. They go in the same passes, so the world after a pass does not tell
which came. The births of a run do: they are a list of pairs `(id, cell)`, computed along the
passes.

* `World.bornInto`, `DensityPass.bornAt`, `World.bornInPass`, `World.bornCatchingUp`, `Host.births`,
  `Host.born` — the births of a cell, a visit, a pass, a catching up, an operation, a run
* `World.Bore w born w'` — `botsNamed` does not go down; the ids of `born` are `idOf n` with `n`
  rising in `(w.botsNamed, w'.botsNamed]`; a bot of `w'` was in `w`, in the same cell, or is in
  `born`
* `World.Capped rules w` — `0 ≤ cap → bots.size ≤ cap`
* `Host.bore_run`, `Host.capped_run` — both hold of every run
* `bots_capped_and_unique` — cap, distinct ids and constant owned cells, over a run and all its
  extensions

The functions that compute births repeat the control flow of the passes and are compared with them
by the `bore_…` lemmas. Ids that callers give to players are not compared with the names of bots
here: see `Proofs.Naming`.
-/

namespace CellWorld

variable {σ α : Type}

/-! ### Births -/

section Births

variable [Angular α]

namespace World

def bornInto (rules : BotRules α) (cell : Cell) : Nat → World α → List (String × Cell)
  | 0, _ => []
  | n + 1, w =>
    match w.spawnBot cell rules with
    | .placed id w' => (id, cell) :: bornInto rules cell n w'
    | _ => []

/-- The births of `DensityPass.visit`: at most `min (low - total) ramp` and what the cap leaves. -/
def DensityPass.bornAt (rules : BotRules α) (pass : DensityPass α) (cell : Cell) :
    List (String × Cell) :=
  if pass.stuck then []
  else
    let band := DensityBand.ofTarget rules.target
    let population := pass.world.population cell
    if population.total = 0 then []
    else if population.total < band.low then
      let headroom := (rules.cap - pass.world.bots.size).toNat
      bornInto rules cell (min (min (band.low - population.total) band.ramp) headroom) pass.world
    else []

/-- The births of visiting `cells` in order. -/
def DensityPass.bornOver (rules : BotRules α) : List Cell → DensityPass α → List (String × Cell)
  | [], _ => []
  | cell :: cells, pass => pass.bornAt rules cell ++ bornOver rules cells (pass.visit rules cell)

/-- The births of `maintainDensity`. -/
def bornInPass (rules : BotRules α) (w : World α) : List (String × Cell) :=
  if rules.target = 0 ∨ rules.cap < 0 then []
  else DensityPass.bornOver rules w.cells.cells { world := w }

/-- The births of the repayment loop, one pass per second of debt, ended by a stuck pass. -/
def bornPaying (rules : BotRules α) : Nat → World α → List (String × Cell)
  | 0, _ => []
  | fuel + 1, w =>
    if (1.0 : α) ≤ w.densityDebt then
      let w := { w with densityDebt := w.densityDebt - 1.0 }
      let pass := w.maintainDensity rules
      w.bornInPass rules ++ if pass.stuck then [] else bornPaying rules fuel pass.world
    else []

/-- The births of `catchUp`. -/
def bornCatchingUp (rules : BotRules α) (w : World α) (dt : α) : List (String × Cell) :=
  let debt := w.densityDebt + dt
  bornPaying rules (Scalar.floorNat debt) { w with densityDebt := debt }

end World

namespace Host

/-- The world of a step before `catchUp`. -/
def wandered (h : Host σ α) (now : Time) (dt : Span) : World α :=
  let moved := { h.engine.world with tick := h.engine.world.tick + 1 }.integrate (dt.seconds : α)
  let pass := moved.evaluate (h.engine.handoverRules now) h.issuer h.source
  pass.world.wander h.engine.settings.cellSize dt.seconds

/-- The births of a single operation; those of `ticks` are left to `Host.unrolled`. -/
def births (h : Host σ α) : Operation σ α → List (String × Cell)
  | .step now dt => (h.wandered now dt).bornCatchingUp h.engine.botRules dt.seconds
  | .maintainDensity => h.engine.world.bornInPass h.engine.botRules
  | _ => []

def bornSingly (h : Host σ α) : List (Operation σ α) → List (String × Cell)
  | [] => []
  | o :: os => h.births o ++ (h.perform o).bornSingly os

/-- The births of a run, in order, with `ticks` unrolled. -/
def born (h : Host σ α) (os : List (Operation σ α)) : List (String × Cell) :=
  h.bornSingly (h.singly os)

theorem bornSingly_append (h : Host σ α) (os os' : List (Operation σ α)) :
    h.bornSingly (os ++ os') = h.bornSingly os ++ (h.run os).bornSingly os' := by
  induction os generalizing h with
  | nil => rfl
  | cons o os ih => rw [List.cons_append, bornSingly, bornSingly, ih, List.append_assoc, run_cons]

theorem born_append (h : Host σ α) (os os' : List (Operation σ α)) :
    h.born (os ++ os') = h.born os ++ (h.run os).born os' := by
  rw [born, singly_append, bornSingly_append, run_singly, born, born]

end Host

end Births

/-! ### Births compared with worlds -/

namespace World

/-- What births have to do with the worlds before and after them. The first two fields give distinct
names, the third says that no bot comes or changes its cell in any other way. -/
structure Bore (w : World α) (born : List (String × Cell)) (w' : World α) : Prop where
  count : w.botsNamed ≤ w'.botsNamed
  names : ∃ ns : List Nat, born.map Prod.fst = ns.map Bot.idOf ∧ ns.Pairwise (· < ·) ∧
    ∀ n ∈ ns, w.botsNamed < n ∧ n ≤ w'.botsNamed
  origin : ∀ id cell, w'.botHome? id = some cell →
    w.botHome? id = some cell ∨ (id, cell) ∈ born

namespace Bore

variable {w w' w'' : World α} {born more : List (String × Cell)}

/-- A change under which every bot stays in its cell or goes has no births. -/
theorem quiet (count : w.botsNamed ≤ w'.botsNamed)
    (bots : ∀ id cell, w'.botHome? id = some cell → w.botHome? id = some cell) :
    w.Bore [] w' :=
  ⟨count, ⟨[], rfl, List.Pairwise.nil, nofun⟩, fun id cell home => Or.inl (bots id cell home)⟩

theorem refl (w : World α) : w.Bore [] w := quiet (Nat.le_refl _) fun _ _ home => home

theorem append (first : w.Bore born w') (second : w'.Bore more w'') :
    w.Bore (born ++ more) w'' := by
  obtain ⟨ns, names, rising, between⟩ := first.names
  obtain ⟨ms, names', rising', between'⟩ := second.names
  refine ⟨first.count.trans second.count, ⟨ns ++ ms, ?_, ?_, ?_⟩, ?_⟩
  · rw [List.map_append, List.map_append, names, names']
  · refine List.pairwise_append.mpr ⟨rising, rising', fun n hn m hm => ?_⟩
    exact Nat.lt_of_le_of_lt (between n hn).2 (between' m hm).1
  · intro n hn
    rcases List.mem_append.mp hn with early | late
    · exact ⟨(between n early).1, (between n early).2.trans second.count⟩
    · exact ⟨Nat.lt_of_le_of_lt first.count (between' n late).1, (between' n late).2⟩
  · intro id cell home
    rcases second.origin id cell home with there | new
    · exact (first.origin id cell there).imp_right (List.mem_append_left more)
    · exact Or.inr (List.mem_append_right born new)

theorem of_same (same : w.Bore born w') (count : w'.botsNamed = w''.botsNamed)
    (bots : w'.bots = w''.bots) : w.Bore born w'' := by
  have still : w'.Bore [] w'' := by
    refine quiet (Nat.le_of_eq count) fun id cell home => ?_
    rwa [botHome?, bots]
  exact List.append_nil born ▸ same.append still

/-- The names are `idOf` of strictly rising numbers, and `idOf` is injective. -/
theorem nodup (h : w.Bore born w') : (born.map Prod.fst).Nodup := by
  obtain ⟨ns, names, rising, -⟩ := h.names
  rw [names]
  exact List.Nodup.map Bot.idOf_injective (rising.imp Nat.ne_of_lt)

/-- The number of a born bot is in `(w.botsNamed, w'.botsNamed]`. -/
theorem exists_name (h : w.Bore born w') {id : String} {cell : Cell} (mem : (id, cell) ∈ born) :
    ∃ n, w.botsNamed < n ∧ n ≤ w'.botsNamed ∧ id = Bot.idOf n := by
  obtain ⟨ns, names, -, between⟩ := h.names
  have listed : id ∈ ns.map Bot.idOf := names ▸ List.mem_map_of_mem mem
  obtain ⟨n, hn, rfl⟩ := List.mem_map.mp listed
  exact ⟨n, (between n hn).1, (between n hn).2, rfl⟩

/-- An id that is `Named` in `w` is not born after `w`. -/
theorem not_named (h : w.Bore born w') {id : String} {cell : Cell} (mem : (id, cell) ∈ born) :
    ¬ w.Named id := by
  obtain ⟨n, later, -, rfl⟩ := h.exists_name mem
  rintro ⟨m, -, before, same⟩
  have : n = m := Bot.idOf_injective same
  omega

end Bore

/-! ### One bot -/

variable {w w' : World α} {cell : Cell}

theorem bore_gone (h : w.despawnBot? cell = some w') : w.Bore [] w' := by
  obtain ⟨own, -, -, rfl⟩ := despawnBot?_some h
  refine .quiet (Nat.le_refl _) fun id home there => ?_
  rw [botHome?, lookup_erase] at there
  split at there
  · exact absurd there.symm (Option.some_ne_none home)
  · exact there

theorem bore_takeAway (cell : Cell) (n : Nat) (pass : DensityPass α) :
    pass.world.Bore [] (pass.takeAway cell n).world := by
  induction n generalizing pass with
  | zero => exact .refl _
  | succ n ih =>
    unfold DensityPass.takeAway
    split
    · exact .refl _
    · next w gone => exact (bore_gone gone).append (ih { pass with world := w, report := _ })

variable [Angular α] {rules : BotRules α}

theorem bore_placed {id : String} (h : w.spawnBot cell rules = .placed id w') :
    w.Bore [(id, cell)] w' := by
  obtain ⟨pos, heading, retargetIn, random, random', name, -, -, -, rfl⟩ := spawnBot_placed h
  refine ⟨Nat.le_succ _, ⟨[w.botsNamed + 1], ?_, List.pairwise_singleton _ _, ?_⟩, ?_⟩
  · rw [name]
    rfl
  · intro n hn
    rw [List.mem_singleton.mp hn]
    exact ⟨Nat.lt_succ_self _, Nat.le_refl _⟩
  · intro key home there
    rw [botHome?, lookup_insert] at there
    split at there
    · next own =>
      rw [← own, ← Option.some.inj there]
      exact Or.inr (List.mem_singleton_self _)
    · exact Or.inl there

theorem bore_noRoom (h : w.spawnBot cell rules = .noRoom w') : w.Bore [] w' := by
  obtain ⟨random, -, rfl⟩ := spawnBot_noRoom h
  exact .quiet (Nat.le_succ _) fun _ _ home => home

/-! ### Density passes -/

/-- Induction on `n`, the number of bots still to come. -/
theorem bore_add (cell : Cell) (n : Nat) (pass : DensityPass α) :
    pass.world.Bore (bornInto rules cell n pass.world) (pass.add rules cell n).world := by
  induction n generalizing pass with
  | zero => exact .refl _
  | succ n ih =>
    unfold DensityPass.add bornInto
    cases spawned : pass.world.spawnBot cell rules with
    | full => exact .refl _
    | noRoom w => exact bore_noRoom spawned
    | placed id w =>
      exact (bore_placed spawned).append (ih { pass with world := w, report := _ })

/-- The cases of a visit: the pass is stuck, the cell is empty, below the band, above it, or
inside. -/
theorem bore_visit (pass : DensityPass α) (cell : Cell) :
    pass.world.Bore (pass.bornAt rules cell) (pass.visit rules cell).world := by
  unfold DensityPass.visit DensityPass.bornAt
  dsimp only
  split
  · exact .refl _
  · split
    · exact .refl _
    · split
      · exact bore_add cell _ pass
      · split
        · exact bore_takeAway cell _ pass
        · exact .refl _

/-- Also of a pass that ends where a bot finds no room. -/
theorem bore_maintainDensity (rules : BotRules α) (w : World α) :
    w.Bore (w.bornInPass rules) (w.maintainDensity rules).world := by
  unfold bornInPass maintainDensity
  split
  · exact .refl w
  · suffices visits : ∀ (cells : List Cell) (pass : DensityPass α),
        pass.world.Bore (DensityPass.bornOver rules cells pass)
          (cells.foldl (DensityPass.visit rules) pass).world from visits _ { world := w }
    intro cells
    induction cells with
    | nil => exact fun pass => .refl pass.world
    | cons cell cells ih => exact fun pass => (bore_visit pass cell).append (ih _)

/-- Induction on the fuel of the repayment loop. -/
theorem bore_catchUp (w : World α) (dt : α) :
    w.Bore (w.bornCatchingUp rules dt) (w.catchUp rules dt).world := by
  have owed (w : World α) (densityDebt : α) : w.Bore [] { w with densityDebt } :=
    .of_same (.refl w) rfl rfl
  suffices pay : ∀ (fuel passes : Nat) (w : World α),
      w.Bore (w.bornPaying rules fuel) (w.payDebt rules fuel passes).world from
    (owed w (w.densityDebt + dt)).append (pay _ 0 _)
  intro fuel
  induction fuel with
  | zero => exact fun _ w => .refl w
  | succ fuel ih =>
    intro passes w
    have paid := (owed w (w.densityDebt - 1.0)).append (bore_maintainDensity rules _)
    rw [List.nil_append] at paid
    unfold payDebt bornPaying
    split
    · dsimp only
      split
      · rw [List.append_nil]
        exact paid
      · exact paid.append (ih _ _)
    · exact .refl w

end World

/-! ### How many bots there are -/

namespace World

variable [Angular α] {rules : BotRules α}

/-- The cap holds: if it is not negative, there are at most `cap` bots. A negative cap allows none,
and `bornInPass_of_off` covers it. -/
def Capped (rules : BotRules α) (w : World α) : Prop :=
  0 ≤ rules.cap → (w.bots.size : Int) ≤ rules.cap

/-- The guard `cap ≤ bots.size` stands before every single `spawnBot`. -/
theorem botKept_capped (rules : BotRules α) : BotKept rules (Capped rules) where
  placed {w cell id w'} _ hs allowed := by
    obtain ⟨pos, heading, retargetIn, random, random', -, room, -, -, rfl⟩ := spawnBot_placed hs
    have grown := Std.TreeMap.size_insert_le (t := w.bots) (k := id)
      (v := Bot.new id cell pos heading retargetIn)
    have below : (w.bots.size : Int) < rules.cap := not_le.mp fun full => room ⟨allowed, full⟩
    show ((w.bots.insert id _).size : Int) ≤ rules.cap
    omega
  noRoom hw hs := by
    obtain ⟨random, -, rfl⟩ := spawnBot_noRoom hs
    exact hw
  gone {w cell w'} hw hs allowed := by
    obtain ⟨id, -, -, rfl⟩ := despawnBot?_some hs
    have shrunk := Std.TreeMap.size_erase_le (t := w.bots) (k := id)
    exact (Int.ofNat_le.mpr shrunk).trans (hw allowed)

/-- Steering and walking keep the number of bots. -/
theorem size_bots_wander (w : World α) (size dt : α) :
    (w.wander size dt).bots.size = w.bots.size := by
  have distinct (w : World α) : w.bots.keys.Nodup := Std.TreeMap.nodup_keys
  have keys : (w.wander size dt).bots.keys.Perm w.bots.keys := by
    refine (List.perm_ext_iff_of_nodup (distinct _) (distinct w)).mpr fun id => ?_
    obtain ⟨random, crowd, walked⟩ := w.bots_wander size dt id
    rw [Std.TreeMap.mem_keys, Std.TreeMap.mem_keys, Std.TreeMap.mem_iff_isSome_getElem?, walked,
      Option.isSome_map, Std.TreeMap.mem_iff_isSome_getElem?]
  rw [← Std.TreeMap.length_keys, ← Std.TreeMap.length_keys]
  exact keys.length_eq

/-- With `target = 0` or a negative cap a pass has no births. -/
theorem bornInPass_of_off (off : rules.target = 0 ∨ rules.cap < 0) (w : World α) :
    w.bornInPass rules = [] := if_pos off

theorem bornCatchingUp_of_off (off : rules.target = 0 ∨ rules.cap < 0) (w : World α) (dt : α) :
    w.bornCatchingUp rules dt = [] := by
  suffices paying : ∀ (fuel : Nat) (w : World α), w.bornPaying rules fuel = [] from paying _ _
  intro fuel
  induction fuel with
  | zero => exact fun _ => rfl
  | succ fuel ih =>
    intro w
    unfold bornPaying
    dsimp only
    rw [bornInPass_of_off off, ih, ite_self, List.append_nil, ite_self]

end World

/-! ### Operations and runs -/

namespace Host

variable [Angular α]

/-- Integrating, evaluating and wandering have no births. -/
theorem bore_wandered (h : Host σ α) (now : Time) (dt : Span) :
    h.world.Bore [] (h.wandered now dt) := by
  let moved := { h.engine.world with tick := h.engine.world.tick + 1 }.integrate (dt.seconds : α)
  let pass := moved.evaluate (h.engine.handoverRules now) h.issuer h.source
  have count : (h.wandered now dt).botsNamed = h.world.botsNamed :=
    (World.wander_frame World.botsNamed _ _ _ fun _ _ _ => rfl).trans
      (World.evaluate_frame World.botsNamed (fun _ _ _ _ => rfl) _ _ _ _)
  refine .quiet (Nat.le_of_eq count.symm) fun id cell home => ?_
  obtain ⟨random, crowd, walked⟩ :=
    World.bots_wander pass.world h.engine.settings.cellSize (dt.seconds : α) id
  have looked : pass.world.bots = h.world.bots :=
    World.bots_evaluate (h.engine.handoverRules now) h.issuer moved h.source
  rw [World.botHome?, wandered, walked, looked, Option.map_map] at home
  rw [World.botHome?, ← home]
  exact congrArg (Option.map · _) (funext fun b => (Bot.kept_walk b random crowd _ _).2.2.symm)

theorem bore_perform (h : Host σ α) (o : Operation σ α) (single : ∀ clock, o ≠ .ticks clock) :
    h.world.Bore (h.births o) (h.perform o).world := by
  have quiet (plain : o.isPass = false) : h.world.Bore [] (h.perform o).world :=
    .of_same (.refl h.world)
      (h.frame_perform World.botsNamed (fun _ _ _ _ => rfl) o plain).symm
      (h.frame_perform World.bots (fun _ _ _ _ => rfl) o plain).symm
  cases o with
  | step now dt => exact (h.bore_wandered now dt).append (World.bore_catchUp _ _)
  | ticks clock => exact absurd rfl (single clock)
  | maintainDensity => exact World.bore_maintainDensity h.engine.botRules h.engine.world
  | _ => exact quiet rfl

/-- Every run satisfies `Bore`, panicking steps and passes included. -/
theorem bore_run (h : Host σ α) (os : List (Operation σ α)) :
    h.world.Bore (h.born os) (h.run os).world := by
  suffices singly : ∀ (os : List (Operation σ α)) (h : Host σ α),
      (∀ o ∈ os, ∀ clock, o ≠ .ticks clock) →
        h.world.Bore (h.bornSingly os) (h.run os).world by
    have all := singly (h.singly os) h fun o ho => (of_mem_singly ho).1
    rwa [run_singly] at all
  intro os
  induction os with
  | nil => exact fun h _ => .refl h.world
  | cons o os ih =>
    intro h single
    exact (h.bore_perform o (single o List.mem_cons_self)).append
      (ih (h.perform o) fun o' ho' => single o' (List.mem_cons_of_mem o ho'))

theorem capped_perform {h : Host σ α} (hc : h.world.Capped h.engine.botRules)
    (o : Operation σ α) : (h.perform o).world.Capped h.engine.botRules := by
  have step {h' : Host σ α} (now : Time) (dt : Span)
      (hc : h'.world.Capped h'.engine.botRules) :
      (h'.perform (.step now dt)).world.Capped h'.engine.botRules := by
    refine (World.botKept_capped _).catchUp (fun _ _ hw => hw) _ _ fun allowed => ?_
    rw [World.size_bots_wander, World.bots_evaluate]
    exact hc allowed
  cases o with
  | step now dt => exact step now dt hc
  | ticks clock =>
    refine (ticks_induction (P := fun h' => h'.engine.botRules = h.engine.botRules ∧
      h'.world.Capped h.engine.botRules) h clock ⟨rfl, hc⟩ ?_).2
    rintro h' now dt ⟨same, hc'⟩
    exact ⟨same, same ▸ step now dt (same ▸ hc')⟩
  | maintainDensity => exact (World.botKept_capped _).maintainDensity h.engine.world hc
  | _ =>
    intro allowed
    rw [h.frame_perform World.bots (fun _ _ _ _ => rfl) _ rfl]
    exact hc allowed

theorem botRules_perform (h : Host σ α) (o : Operation σ α) :
    (h.perform o).engine.botRules = h.engine.botRules := by
  unfold Engine.botRules
  rw [settings_perform]

/-- Every run keeps `Capped`, panicking steps and passes included. -/
theorem capped_run {h : Host σ α} (hc : h.world.Capped h.engine.botRules)
    (os : List (Operation σ α)) : (h.run os).world.Capped h.engine.botRules :=
  (run_induction (P := fun h' => h'.engine.botRules = h.engine.botRules ∧
    h'.world.Capped h.engine.botRules) os h ⟨rfl, hc⟩ fun h' hc' o _ =>
      ⟨(botRules_perform h' o).trans hc'.1, hc'.1 ▸ capped_perform (hc'.1 ▸ hc'.2) o⟩).2

/-- With `target = 0` or a negative cap a run has no births. -/
theorem born_of_off (h : Host σ α)
    (off : h.engine.botRules.target = 0 ∨ h.engine.botRules.cap < 0) (os : List (Operation σ α)) :
    h.born os = [] := by
  suffices singly : ∀ (os : List (Operation σ α)) (h : Host σ α),
      (h.engine.botRules.target = 0 ∨ h.engine.botRules.cap < 0) → h.bornSingly os = [] from
    singly _ h off
  intro os
  induction os with
  | nil => exact fun _ _ => rfl
  | cons o os ih =>
    intro h off
    rw [bornSingly, ih _ (botRules_perform h o ▸ off), List.append_nil]
    cases o with
    | step now dt => exact World.bornCatchingUp_of_off off _ _
    | maintainDensity => exact World.bornInPass_of_off off _
    | _ => rfl

end Host

/-! ### Cap, names and cells -/

section Whole

variable [Angular α]

/-- After any run from a fresh host. `bots.size ≤ maxBots` if `0 ≤ maxBots`; no births and no bots
if `maxBots < 0` or `targetDensity = 0`; the ids of `born` are distinct and `Named`; the bot under
`id` has this id, and `(id, ownedCell)` is in `born`. After any extension `os'` the births are a
prefix of the new ones, so a bot that lives on has the same `ownedCell`, and the name of a bot that
is gone does not come back. -/
theorem bots_capped_and_unique (settings : Settings α) (chance : Random) (source : σ)
    (os : List (Operation σ α)) :
    let start := Host.create settings chance source
    let w := (start.run os).world
    (0 ≤ settings.maxBots.toInt → (w.bots.size : Int) ≤ settings.maxBots.toInt) ∧
    (settings.maxBots.toInt < 0 ∨ settings.targetDensity = 0 →
      start.born os = [] ∧ ∀ id, id ∉ w.bots) ∧
    ((start.born os).map Prod.fst).Nodup ∧
    (∀ id cell, (id, cell) ∈ start.born os → w.Named id) ∧
    (∀ id b, w.bots[id]? = some b →
      b.id = id ∧ w.Named id ∧ (id, b.ownedCell) ∈ start.born os) ∧
    ∀ os' : List (Operation σ α), let w' := (start.run (os ++ os')).world
      w.botsNamed ≤ w'.botsNamed ∧ start.born os <+: start.born (os ++ os') ∧
      (∀ (id : String) (b b' : Bot α), w.bots[id]? = some b → w'.bots[id]? = some b' →
        b'.ownedCell = b.ownedCell) ∧
      ∀ id, w.Named id → id ∉ w.bots → id ∉ w'.bots := by
  intro start w
  have empty (id : String) : start.world.botHome? id = none := by
    simp [start, World.botHome?, Host.world, Host.create, Engine.create, World.empty]
  have bore (os : List (Operation σ α)) : start.world.Bore (start.born os) (start.run os).world :=
    start.bore_run os
  have origin (os : List (Operation σ α)) (id : String) (b : Bot α)
      (hb : (start.run os).world.bots[id]? = some b) : (id, b.ownedCell) ∈ start.born os := by
    refine ((bore os).origin id b.ownedCell ?_).resolve_left ?_
    · rw [World.botHome?, hb]
      rfl
    · rw [empty]
      exact (Option.some_ne_none _).symm
  have named (id : String) (cell : Cell) (mem : (id, cell) ∈ start.born os) : w.Named id := by
    obtain ⟨n, first, last, name⟩ := (bore os).exists_name mem
    exact ⟨n, Nat.lt_of_le_of_lt (Nat.zero_le _) first, last, name⟩
  refine ⟨?_, ?_, (bore os).nodup, named, ?_, ?_⟩
  · refine Host.capped_run (h := start) (fun allowed => ?_) os
    exact allowed
  · intro off
    have none : start.born os = [] := by
      refine start.born_of_off ?_ os
      rcases off with forbidden | unwanted
      · exact Or.inr forbidden
      · exact Or.inl (congrArg UInt32.toNat unwanted)
    refine ⟨none, fun id hb => ?_⟩
    obtain ⟨b, there⟩ := Option.isSome_iff_exists.mp (Std.TreeMap.mem_iff_isSome_getElem?.mp hb)
    exact List.not_mem_nil (none ▸ origin os id b there)
  · intro id b hb
    have mem := origin os id b hb
    exact ⟨(Host.isOf_bot hb).1, named id b.ownedCell mem, mem⟩
  · intro os' w'
    have later : w.Bore ((start.run os).born os') w' := by
      show w.Bore _ (start.run (os ++ os')).world
      rw [Host.run_append]
      exact (start.run os).bore_run os'
    have all : start.born (os ++ os') = start.born os ++ (start.run os).born os' :=
      start.born_append os os'
    refine ⟨later.count, ⟨_, all.symm⟩, ?_, ?_⟩
    · intro id b b' hb hb'
      have before := all ▸ List.mem_append_left _ (origin os id b hb)
      have after := origin (os ++ os') id b' hb'
      have same : (id, b'.ownedCell) = (id, b.ownedCell) :=
        List.inj_on_of_nodup_map (bore (os ++ os')).nodup after before rfl
      exact congrArg Prod.snd same
    · intro id named gone hb
      obtain ⟨b, there⟩ := Option.isSome_iff_exists.mp (Std.TreeMap.mem_iff_isSome_getElem?.mp hb)
      rcases later.origin id b.ownedCell (by rw [World.botHome?, there]; rfl) with old | new
      · exact gone (World.botHome?_ne_none.mp (by rw [old]; exact Option.some_ne_none _))
      · exact later.not_named new named

/-- Players come, so a bot goes; they leave, and the bot that comes then is `bot-2`: `bot-1` is not
used again. -/
theorem second_bot_renamed :
    let start : Host Unit ℚ :=
      .create { tenMetres with targetDensity := 3, maxBots := 1 } (.ofSeed 1) ()
    let crowd := ["p2", "p3", "p4", "p5"]
    let crowded := [.upsert "p1" "one" ⟨5, 0, 5⟩ .zero, .maintainDensity] ++
      crowd.map (fun id => .upsert id id ⟨5, 0, 5⟩ .zero) ++ [.maintainDensity]
    let empty := crowd.map .remove ++ [.maintainDensity]
    start.born (crowded ++ empty) = [("bot-1", ⟨0, 0⟩), ("bot-2", ⟨0, 0⟩)] ∧
      ((start.run (crowded ++ empty)).world.bots.size : Int) ≤ 1 ∧
      ∀ os, "bot-1" ∉ (start.run (crowded ++ os)).world.bots := by
  intro start crowd crowded empty
  have born : start.born (crowded ++ empty) = [("bot-1", ⟨0, 0⟩), ("bot-2", ⟨0, 0⟩)] := by
    decide +kernel
  have first : start.born crowded = [("bot-1", ⟨0, 0⟩)] := by decide +kernel
  have gone : (start.run crowded).world.bots.contains "bot-1" = false := by decide +kernel
  have few := (bots_capped_and_unique { tenMetres with targetDensity := 3, maxBots := 1 }
    (.ofSeed 1) () (crowded ++ empty)).1
  obtain ⟨-, -, -, named, -, later⟩ := bots_capped_and_unique
    { tenMetres with targetDensity := 3, maxBots := 1 } (.ofSeed 1) () crowded
  refine ⟨born, few (by decide), fun os => ?_⟩
  refine (later os).2.2.2 "bot-1" (named "bot-1" ⟨0, 0⟩ ?_) fun there => ?_
  · show _ ∈ start.born crowded
    rw [first]
    exact List.mem_singleton_self _
  · have found := Std.TreeMap.mem_iff_contains.mp there
    exact Bool.false_ne_true (gone.symm.trans found)

end Whole

end CellWorld
