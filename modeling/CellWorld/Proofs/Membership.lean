import Mathlib.Algebra.GroupWithZero.Nat
import Std.Data.String.ToNat
import CellWorld.Proofs.Players

/-!
# Everybody is in the one cell that owns it

The cells index players and bots by id; a player and a bot both say themselves which cell owns them.
Both are changed by every join, jump, change of cells, departure, and by the density passes, and the
old cell of an id is always read off its record.

* `Unreserved id` — `id` is no `Bot.idOf n`; `NamesApart os` — a run in which only such ids join
* `World.playerHome?`, `World.botHome?` — the cell that the player or the bot of an id says it is in
* `World.Indexed` — `Holds k id` exactly when `k` is one of these homes, and names tell players from
  bots
* `Host.indexed_perform`, `Host.indexed_run` — every operation keeps it, and so does a run
* `World.Indexed.sum_population` — the populations of all cells add up to all players and bots
* `index_matches_records` — all of this for a run, and who is in the world after one operation more

Without `NamesApart` none of it holds: a player with the id of a bot shares one entry of the index
with it. What is left then is in `Proofs.Naming`.
-/

namespace CellWorld

variable {σ α : Type}

/-! ### Names -/

theorem Bot.idOf_injective : Function.Injective Bot.idOf := by
  intro m n h
  exact Nat.repr_injective ((String.append_right_inj "bot-").mp h)

/-- An id that no bot is ever given. -/
def Unreserved (id : String) : Prop := ∀ n, id ≠ Bot.idOf n

/-- Whether no player of a run takes a name that bots are given. -/
def NamesApart (os : List (Operation σ α)) : Prop :=
  ∀ o ∈ os, ∀ id, o.joins? = some id → Unreserved id

/-- It is enough to look at the names of those that join. -/
theorem namesApart_iff {os : List (Operation σ α)} :
    NamesApart os ↔ ∀ id ∈ os.filterMap Operation.joins?, Unreserved id := by
  simp only [NamesApart, List.mem_filterMap]
  constructor
  · rintro apart id ⟨o, ho, joins⟩
    exact apart o ho id joins
  · intro apart o ho id joins
    exact apart id ⟨o, ho, joins⟩

theorem unreserved_of_head {id : String} (h : id.toList.head? ≠ some 'b') : Unreserved id := by
  rintro n rfl
  rw [Bot.idOf, String.toList_append] at h
  exact h rfl

namespace World

def playerHome? (w : World α) (id : String) : Option Cell := w.players[id]?.map Player.ownedCell

def botHome? (w : World α) (id : String) : Option Cell := w.bots[id]?.map Bot.ownedCell

theorem playerHome?_ne_none {w : World α} {id : String} :
    w.playerHome? id ≠ none ↔ id ∈ w.players := by
  rw [Std.TreeMap.mem_iff_isSome_getElem?, playerHome?]
  cases w.players[id]? <;> simp

theorem botHome?_ne_none {w : World α} {id : String} : w.botHome? id ≠ none ↔ id ∈ w.bots := by
  rw [Std.TreeMap.mem_iff_isSome_getElem?, botHome?]
  cases w.bots[id]? <;> simp

theorem playerHome?_insert (w : World α) (id k : String) (p : Player α) (cells : Occupancy) :
    { w with players := w.players.insert id p, cells }.playerHome? k =
      if id = k then some p.ownedCell else w.playerHome? k := by
  rw [playerHome?, lookup_insert]
  split <;> rfl

/-! ### The index and the records -/

/-- The index and the records say the same. Names tell players from bots, and the names that bots
will be given are new. -/
structure Indexed (w : World α) : Prop where
  holds_iff : ∀ k id, w.cells.Holds k id ↔ w.playerHome? id = some k ∨ w.botHome? id = some k
  named : ∀ id, w.botHome? id ≠ none → ∃ n, n ≤ w.botsNamed ∧ id = Bot.idOf n
  unreserved : ∀ id, w.playerHome? id ≠ none → Unreserved id

namespace Indexed

variable {w w' : World α}

/-- Only the homes, the index and the count of names matter. -/
theorem congr (h : Indexed w) (players : ∀ id, w'.playerHome? id = w.playerHome? id)
    (bots : ∀ id, w'.botHome? id = w.botHome? id) (cells : w'.cells = w.cells)
    (named : w.botsNamed ≤ w'.botsNamed) : Indexed w' where
  holds_iff k id := by rw [cells, players, bots]; exact h.holds_iff k id
  named id hb := by
    obtain ⟨n, hn, rfl⟩ := h.named id (bots id ▸ hb)
    exact ⟨n, Nat.le_trans hn named, rfl⟩
  unreserved id hp := h.unreserved id (players id ▸ hp)

/-- No bot has the id of a player. -/
theorem botHome?_eq_none (h : Indexed w) {id : String} (free : Unreserved id) :
    w.botHome? id = none := by
  by_contra hb
  obtain ⟨n, -, rfl⟩ := h.named id hb
  exact free n rfl

/-- No player has the id of a bot. -/
theorem playerHome?_eq_none (h : Indexed w) {id : String} (hb : w.botHome? id ≠ none) :
    w.playerHome? id = none := by
  by_contra hp
  exact hb (h.botHome?_eq_none (h.unreserved id hp))

/-- Whatever changes the home of one id alone, and leaves the index right about that id, keeps it.
All changes below come down to this. -/
theorem rehome (h : Indexed w) (id : String)
    (others : ∀ x, id ≠ x → w'.playerHome? x = w.playerHome? x ∧ w'.botHome? x = w.botHome? x ∧
      ∀ k, w'.cells.Holds k x ↔ w.cells.Holds k x)
    (own : ∀ k, w'.cells.Holds k id ↔ w'.playerHome? id = some k ∨ w'.botHome? id = some k)
    (names : w.botsNamed ≤ w'.botsNamed)
    (bot : w'.botHome? id ≠ none → ∃ n, n ≤ w'.botsNamed ∧ id = Bot.idOf n)
    (player : w'.playerHome? id ≠ none → Unreserved id) : Indexed w' where
  holds_iff k x := by
    by_cases hx : id = x
    · exact hx ▸ own k
    · obtain ⟨players, bots, cells⟩ := others x hx
      rw [players, bots, cells]
      exact h.holds_iff k x
  named x hb := by
    by_cases hx : id = x
    · subst hx
      exact bot hb
    · rw [(others x hx).2.1] at hb
      obtain ⟨n, hn, hid⟩ := h.named x hb
      exact ⟨n, Nat.le_trans hn names, hid⟩
  unreserved x hp := by
    by_cases hx : id = x
    · subst hx
      exact player hp
    · rw [(others x hx).1] at hp
      exact h.unreserved x hp

/-! ### Players that come, jump and go -/

/-- A player that is there changes and moves from the cell that owned it to the one that owns it. -/
theorem commit (h : Indexed w) {id : String} {source : Cell} (hp : w.playerHome? id = some source)
    (p : Player α) : Indexed (w.commit id source p) := by
  have free : Unreserved id := h.unreserved id (by rw [hp]; exact Option.some_ne_none _)
  have noBot : w.botHome? id = none := h.botHome?_eq_none free
  have home (x : String) : (w.commit id source p).playerHome? x =
      if id = x then some p.ownedCell else w.playerHome? x := playerHome?_insert w id x p _
  have moved (k : Cell) (x : String) := Occupancy.holds_move w.cells id x source p.ownedCell k
  refine h.rehome id ?_ ?_ (Nat.le_refl _) (h.named id) fun _ => free
  · intro x hx
    refine ⟨by rw [home, if_neg hx], rfl, fun k => (moved k x).trans ?_⟩
    simp [hx]
  · intro k
    refine (moved k id).trans ?_
    rw [home, if_pos rfl, h.holds_iff, hp]
    show _ ↔ _ ∨ w.botHome? id = some k
    rw [noBot]
    split <;> simp_all

/-- A player comes in under an id that nobody has. -/
theorem join (h : Indexed w) {id : String} (hp : w.playerHome? id = none) (free : Unreserved id)
    (p : Player α) :
    Indexed { w with
      players := w.players.insert id p
      cells := w.cells.insert p.ownedCell id } := by
  have noBot : w.botHome? id = none := h.botHome?_eq_none free
  have placed (k : Cell) (x : String) := Occupancy.holds_insert w.cells p.ownedCell k id x
  refine h.rehome id ?_ ?_ (Nat.le_refl _) (h.named id) fun _ => free
  · intro x hx
    refine ⟨by rw [playerHome?_insert, if_neg hx], rfl, fun k => (placed k x).trans ?_⟩
    simp [hx]
  · intro k
    refine (placed k id).trans ?_
    rw [playerHome?_insert, if_pos rfl, h.holds_iff, hp]
    show _ ↔ _ ∨ w.botHome? id = some k
    rw [noBot]
    simp

theorem upsert [Scalar α] (h : Indexed w) {id : String} (free : Unreserved id) (name : String)
    (pos vel : Point α) (size : α) : Indexed (w.upsert id name pos vel size).2 := by
  unfold World.upsert
  cases hp : w.players[id]? with
  | none => exact h.join (by rw [playerHome?, hp]; rfl) free _
  | some old => exact h.commit (by rw [playerHome?, hp]; rfl) _

theorem place [Scalar α] (h : Indexed w) (id : String) (pos : Point α) (size : α) :
    Indexed ((w.place? id pos size).getD w) := by
  unfold World.place?
  cases hp : w.players[id]? with
  | none => exact h
  | some old => exact h.commit (by rw [playerHome?, hp]; rfl) _

/-- A player that is there changes and stays in its cell. -/
theorem replace (h : Indexed w) {id : String} {p : Player α}
    (hp : w.playerHome? id = some p.ownedCell) :
    Indexed { w with players := w.players.insert id p } := by
  refine h.congr ?_ (fun _ => rfl) rfl (Nat.le_refl _)
  intro k
  show { w with players := w.players.insert id p, cells := w.cells }.playerHome? k = _
  rw [playerHome?_insert]
  by_cases hk : id = k
  · rw [if_pos hk, ← hk, hp]
  · rw [if_neg hk]

theorem amend (h : Indexed w) (id : String) {f : Player α → Player α}
    (same : ∀ p, (f p).ownedCell = p.ownedCell) : Indexed ((w.amend? id f).getD w) := by
  cases hp : w.players[id]? with
  | none => rw [World.amend?, hp]; exact h
  | some p =>
    rw [World.amend?, hp]
    exact h.replace (by rw [playerHome?, hp, same]; rfl)

theorem remove (h : Indexed w) (id : String) : Indexed ((w.remove? id).getD w) := by
  cases hp : w.players[id]? with
  | none => rw [World.remove?, hp]; exact h
  | some p =>
    have here : w.playerHome? id = some p.ownedCell := by rw [playerHome?, hp]; rfl
    have free : Unreserved id := h.unreserved id (by rw [here]; exact Option.some_ne_none _)
    have noBot : w.botHome? id = none := h.botHome?_eq_none free
    have home (x : String) : ((w.remove? id).getD w).playerHome? x =
        if id = x then none else w.playerHome? x := by
      rw [playerHome?, players_remove]
      split <;> rfl
    have left : (w.remove? id).getD w =
        { w with players := w.players.erase id, cells := (w.cells.remove p.ownedCell id).1 } := by
      rw [World.remove?, hp]
      rfl
    have taken (k : Cell) (x : String) := Occupancy.holds_remove w.cells p.ownedCell k id x
    rw [left] at home ⊢
    refine h.rehome id ?_ ?_ (Nat.le_refl _) (h.named id) fun _ => free
    · intro x hx
      refine ⟨by rw [home, if_neg hx], rfl, fun k => (taken k x).trans ?_⟩
      simp [hx]
    · intro k
      refine (taken k id).trans ?_
      rw [home, if_pos rfl, h.holds_iff, here]
      show _ ↔ _ ∨ w.botHome? id = some k
      rw [noBot]
      simp

/-- A player comes in, and more is known of it. -/
theorem receive [Scalar α] (h : Indexed w) {id : String} (free : Unreserved id) (name : String)
    (pos vel : Point α) {size : α} {p : Player α}
    (cell : p.ownedCell = (w.upsert id name pos vel size).1.ownedCell) :
    Indexed { (w.upsert id name pos vel size).2 with
      players := (w.upsert id name pos vel size).2.players.insert id p } := by
  refine (h.upsert free name pos vel size).replace ?_
  rw [playerHome?, players_upsert, if_pos rfl, cell, upsert_fst]
  rfl

/-- Whatever an operation about players does to the world keeps it. -/
theorem change [Scalar α] (h : Indexed w) {size : α} {joins : Option String}
    (hc : w.Change size joins w') (free : ∀ id, joins = some id → Unreserved id) : Indexed w' := by
  cases hc with
  | same => exact h
  | taken events => exact h.congr (fun _ => rfl) (fun _ => rfl) rfl (Nat.le_refl _)
  | amended id f cell => exact h.amend id cell
  | removed id => exact h.remove id
  | arrived id name pos vel joined => exact h.upsert (free id joined) name pos vel size
  | received id name pos vel p joined cell => exact h.receive (free id joined) name pos vel cell
  | placed id pos f cell => exact (h.place id pos size).amend id cell

/-! ### Steps of time -/

theorem integrate [Scalar α] (h : Indexed w) (dt : α) : Indexed (w.integrate dt) := by
  refine h.congr ?_ (fun _ => rfl) rfl (Nat.le_refl _)
  intro k
  rw [playerHome?, players_integrate, Option.map_map]
  rfl

/-- A player that was looked at is in the index where its record says, however its change of cells
is routed. -/
theorem settlePlayer [Scalar α] (h : Indexed w) (rules : HandoverRules α)
    (issuer : Option (Issuer σ α)) {id : String} {p : Player α} (hp : w.players[id]? = some p)
    (source : σ) : Indexed (w.settlePlayer id (p.evaluate rules issuer source).1) := by
  have here : w.playerHome? id = some p.ownedCell := by rw [playerHome?, hp]; rfl
  cases hd : p.due? rules with
  | none =>
    rw [Player.evaluate_stays issuer p source hd]
    exact h.replace here
  | some target =>
    obtain ⟨route, transfer, source', -, he⟩ := Player.evaluate_leaves issuer p source hd
    rw [he]
    exact (h.commit here _).congr (fun _ => rfl) (fun _ => rfl) rfl (Nat.le_refl _)

theorem evaluate [Scalar α] (h : Indexed w) (rules : HandoverRules α)
    (issuer : Option (Issuer σ α)) (source : σ) :
    Indexed (w.evaluate rules issuer source).world :=
  evaluate_induction rules issuer w source h
    fun _ _ _ source hp hw => hw.settlePlayer rules issuer hp source

theorem wander [Angular α] (h : Indexed w) (size dt : α) : Indexed (w.wander size dt) := by
  have frame {β : Type} (f : World α → β)
      (blind : ∀ w bots random, f { w with bots, random } = f w) :
      f (w.wander size dt) = f w := wander_frame f w size dt blind
  have players : (w.wander size dt).players = w.players := frame World.players fun _ _ _ => rfl
  refine h.congr ?_ ?_ (frame World.cells fun _ _ _ => rfl)
    (Nat.le_of_eq (frame World.botsNamed fun _ _ _ => rfl).symm)
  · intro k
    rw [playerHome?, players, playerHome?]
  · intro k
    obtain ⟨random, crowd, hb⟩ := bots_wander w size dt k
    rw [botHome?, hb, Option.map_map]
    refine congrArg (Option.map · _) (funext fun b => ?_)
    show ((b.steer random crowd dt).1.walk size dt).ownedCell = b.ownedCell
    exact (Bot.kept_walk b random crowd size dt).2.2

/-! ### Bots that come and go -/

/-- A bot comes, under a name that nobody has had. -/
theorem placed [Angular α] (h : Indexed w) {cell : Cell} {rules : BotRules α} {id : String}
    (hs : w.spawnBot cell rules = .placed id w') : Indexed w' := by
  obtain ⟨pos, heading, retargetIn, random, random', name, -, -, -, rfl⟩ := spawnBot_placed hs
  have noPlayer : w.playerHome? id = none := by
    by_contra hp
    exact h.unreserved id hp _ name
  have noBot : w.botHome? id = none := by
    by_contra hb
    obtain ⟨n, hn, hid⟩ := h.named id hb
    have next : w.botsNamed + 1 = n := Bot.idOf_injective (name.symm.trans hid)
    omega
  have home (x : String) : (w.bots.insert id (Bot.new id cell pos heading retargetIn))[x]?.map
      Bot.ownedCell = if id = x then some cell else w.botHome? x := by
    rw [lookup_insert, botHome?]
    split <;> rfl
  have placed (k : Cell) (x : String) := Occupancy.holds_insert w.cells cell k id x
  refine h.rehome id ?_ ?_ (Nat.le_succ _) (fun _ => ⟨_, Nat.le_refl _, name⟩) (h.unreserved id)
  · intro x hx
    refine ⟨rfl, (home x).trans (if_neg hx), fun k => (placed k x).trans ?_⟩
    simp [hx]
  · intro k
    refine (placed k id).trans ?_
    show _ ↔ w.playerHome? id = some k ∨ Option.map Bot.ownedCell _ = some k
    rw [home, if_pos rfl, h.holds_iff, noPlayer, noBot]
    simp

/-- A bot of a cell goes. -/
theorem gone (h : Indexed w) {cell : Cell} (hs : w.despawnBot? cell = some w') : Indexed w' := by
  obtain ⟨id, held, isBot, rfl⟩ := despawnBot?_some hs
  have noPlayer : w.playerHome? id = none := h.playerHome?_eq_none (botHome?_ne_none.mpr isBot)
  have here : w.botHome? id = some cell := by
    have owned := (h.holds_iff cell id).mp held
    rw [noPlayer] at owned
    exact owned.resolve_left (Option.some_ne_none _ ·.symm)
  have home (x : String) : (w.bots.erase id)[x]?.map Bot.ownedCell =
      if id = x then none else w.botHome? x := by
    rw [lookup_erase, botHome?]
    split <;> rfl
  have taken (k : Cell) (x : String) := Occupancy.holds_remove w.cells cell k id x
  refine h.rehome id ?_ ?_ (Nat.le_refl _) ?_ (h.unreserved id)
  · intro x hx
    refine ⟨rfl, (home x).trans (if_neg hx), fun k => (taken k x).trans ?_⟩
    simp [hx]
  · intro k
    refine (taken k id).trans ?_
    show _ ↔ w.playerHome? id = some k ∨ Option.map Bot.ownedCell _ = some k
    rw [home, if_pos rfl, h.holds_iff, noPlayer, here]
    simp
  · exact fun hb => absurd ((home id).trans (if_pos rfl)) hb

end Indexed

theorem botKept_indexed [Angular α] (rules : BotRules α) :
    BotKept rules (Indexed : World α → Prop) where
  placed h hs := h.placed hs
  noRoom h hs := by
    obtain ⟨random, -, rfl⟩ := spawnBot_noRoom hs
    exact h.congr (fun _ => rfl) (fun _ => rfl) rfl (Nat.le_succ _)
  gone h hs := h.gone hs


/-! ### Populations -/

/-- The ids in all cells, cell by cell. -/
def members (w : World α) : List String := w.cells.cells.flatMap fun k => (w.cells.bucket k).toList

theorem mem_cells_of_holds {w : World α} {k : Cell} {id : String} (h : w.cells.Holds k id) :
    k ∈ w.cells.cells := by
  rw [Occupancy.cells, Std.TreeMap.mem_keys, Std.TreeMap.mem_iff_isSome_getElem?]
  unfold Occupancy.Holds Occupancy.bucket Occupancy.bucket? at h
  cases hk : w.cells.buckets[k]? with
  | none => simp [hk] at h
  | some ids => rfl

theorem mem_members (w : World α) (id : String) :
    id ∈ w.members ↔ ∃ k, w.cells.Holds k id := by
  rw [members, List.mem_flatMap]
  constructor
  · rintro ⟨k, -, h⟩
    exact ⟨k, Std.TreeSet.mem_toList.mp h⟩
  · rintro ⟨k, h⟩
    exact ⟨k, mem_cells_of_holds h, Std.TreeSet.mem_toList.mpr h⟩

/-- In a cell without strangers everybody is counted. -/
theorem total_population {w : World α} {k : Cell}
    (known : ∀ id, w.cells.Holds k id → id ∈ w.players ∨ id ∈ w.bots) :
    (w.population k).total = (w.cells.bucket k).toList.length := by
  let count := fun (n : Population) id =>
    if w.players.contains id then { n with players := n.players + 1 }
    else if w.bots.contains id then { n with bots := n.bots + 1 }
    else n
  have fold : ∀ (ids : List String) (n : Population), (∀ id ∈ ids, id ∈ w.players ∨ id ∈ w.bots) →
      (ids.foldl count n).total = n.total + ids.length := by
    intro ids
    induction ids with
    | nil => exact fun n _ => rfl
    | cons id ids ih =>
      intro n hk
      have one : (count n id).total = n.total + 1 := by
        rcases hk id List.mem_cons_self with hp | hb
        · simp only [count, Std.TreeMap.contains_iff_mem.mpr hp, if_true, Population.total]
          omega
        · simp only [count, Std.TreeMap.contains_iff_mem.mpr hb, if_true]
          split <;> simp only [Population.total] <;> omega
      rw [List.foldl_cons, ih _ fun x hx => hk x (List.mem_cons_of_mem _ hx), one,
        List.length_cons]
      omega
  have all := fold (w.cells.bucket k).toList {} fun id hid =>
    known id (Std.TreeSet.mem_toList.mp hid)
  rw [← Std.TreeSet.foldl_eq_foldl_toList] at all
  rw [population, all]
  exact Nat.zero_add _

namespace Indexed

variable {w : World α}

/-- Nobody is in two cells. -/
theorem holds_unique (h : Indexed w) {j k : Cell} {id : String} (hj : w.cells.Holds j id)
    (hk : w.cells.Holds k id) : j = k := by
  rw [h.holds_iff] at hj hk
  by_cases hb : w.botHome? id = none
  · rw [hb] at hj hk
    have pj := hj.resolve_right nofun
    have pk := hk.resolve_right nofun
    exact Option.some.inj (pj.symm.trans pk)
  · rw [h.playerHome?_eq_none hb] at hj hk
    have bj := hj.resolve_left nofun
    have bk := hk.resolve_left nofun
    exact Option.some.inj (bj.symm.trans bk)

/-- A player is held by its `ownedCell` and by no other cell. -/
theorem holds_player_iff (h : Indexed w) {id : String} {p : Player α} (hp : w.players[id]? = some p)
    {k : Cell} : w.cells.Holds k id ↔ p.ownedCell = k := by
  have here : w.playerHome? id = some p.ownedCell := by rw [playerHome?, hp]; rfl
  have free : Unreserved id := h.unreserved id (by rw [here]; exact Option.some_ne_none _)
  rw [h.holds_iff, here, h.botHome?_eq_none free]
  simp

theorem not_player_of_bot (h : Indexed w) {id : String} {b : Bot α} (hb : w.bots[id]? = some b) :
    id ∉ w.players := by
  have noPlayer : w.playerHome? id = none :=
    h.playerHome?_eq_none (by rw [botHome?, hb]; exact Option.some_ne_none _)
  exact fun hp => playerHome?_ne_none.mpr hp noPlayer

/-- So is a bot. -/
theorem holds_bot_iff (h : Indexed w) {id : String} {b : Bot α} (hb : w.bots[id]? = some b)
    {k : Cell} : w.cells.Holds k id ↔ b.ownedCell = k := by
  have here : w.botHome? id = some b.ownedCell := by rw [botHome?, hb]; rfl
  rw [h.holds_iff, here, h.playerHome?_eq_none (by rw [here]; exact Option.some_ne_none _)]
  simp

/-- Whoever is in a cell is a player or a bot, and the other way round. -/
theorem exists_holds (h : Indexed w) (id : String) :
    (∃ k, w.cells.Holds k id) ↔ id ∈ w.players ∨ id ∈ w.bots := by
  rw [← playerHome?_ne_none, ← botHome?_ne_none]
  simp only [h.holds_iff, Option.ne_none_iff_exists', exists_or]

/-- Everybody is in the cells once. -/
theorem members_perm (h : Indexed w) : w.members.Perm (w.players.keys ++ w.bots.keys) := by
  have once : w.members.Nodup := by
    rw [members, List.nodup_flatMap]
    refine ⟨fun k _ => ?_, ?_⟩
    · exact (Std.TreeSet.distinct_toList (t := w.cells.bucket k)).imp Std.ReflCmp.ne_of_cmp_ne_eq
    · refine List.Pairwise.imp ?_ (Std.TreeMap.nodup_keys (t := w.cells.buckets))
      intro j k hjk id hj hk
      exact hjk (h.holds_unique (Std.TreeSet.mem_toList.mp hj) (Std.TreeSet.mem_toList.mp hk))
  have apart : (w.players.keys ++ w.bots.keys).Nodup := by
    refine List.nodup_append.mpr ⟨Std.TreeMap.nodup_keys, Std.TreeMap.nodup_keys, ?_⟩
    rintro id hp _ hb rfl
    rw [Std.TreeMap.mem_keys] at hp hb
    exact playerHome?_ne_none.mpr hp (h.playerHome?_eq_none (botHome?_ne_none.mpr hb))
  refine (List.perm_ext_iff_of_nodup once apart).mpr fun id => ?_
  rw [mem_members, h.exists_holds, List.mem_append, Std.TreeMap.mem_keys, Std.TreeMap.mem_keys]

/-- The populations of all cells add up to `w.players.size + w.bots.size`. -/
theorem sum_population (h : Indexed w) :
    (w.cells.cells.map fun k => (w.population k).total).sum = w.players.size + w.bots.size := by
  have counted : (w.cells.cells.map fun k => (w.population k).total) =
      w.cells.cells.map fun k => (w.cells.bucket k).toList.length := by
    refine List.map_congr_left fun k _ => ?_
    exact total_population fun id hid => (h.exists_holds id).mp ⟨k, hid⟩
  rw [counted, ← List.length_flatMap]
  show w.members.length = _
  rw [h.members_perm.length_eq, List.length_append, Std.TreeMap.length_keys,
    Std.TreeMap.length_keys]

end Indexed

end World

/-! ### Operations and runs -/

namespace Host

variable [Angular α]

theorem indexed_create (settings : Settings α) (chance : Random) (source : σ) :
    (create settings chance source).world.Indexed where
  holds_iff k id := by
    constructor
    · exact fun h => absurd h (Occupancy.not_holds_empty k id)
    · rintro (h | h) <;> exact absurd h (by simp [World.playerHome?, World.botHome?])
  named id h := absurd h (by simp [World.botHome?])
  unreserved id h := absurd h (by simp [World.playerHome?])

theorem indexed_step {h : Host σ α} (hi : h.world.Indexed) (now : Time) (dt : Span) :
    (h.perform (.step now dt)).world.Indexed := by
  have ticked : World.Indexed { h.engine.world with tick := h.engine.world.tick + 1 } :=
    hi.congr (fun _ => rfl) (fun _ => rfl) rfl (Nat.le_refl _)
  have looked := (ticked.integrate (dt.seconds : α)).evaluate (h.engine.handoverRules now) h.issuer
    h.source
  have wandered := looked.wander h.engine.settings.cellSize dt.seconds
  exact (World.botKept_indexed h.engine.botRules).catchUp
    (fun _ _ hw => hw.congr (fun _ => rfl) (fun _ => rfl) rfl (Nat.le_refl _)) _ _ wandered

/-- Whatever is done, the index and the records keep saying the same, as long as no player takes the
name of a bot. -/
theorem indexed_perform {h : Host σ α} (hi : h.world.Indexed) (o : Operation σ α)
    (free : ∀ id, o.joins? = some id → Unreserved id) : (h.perform o).world.Indexed := by
  cases o with
  | step now dt => exact indexed_step hi now dt
  | ticks clock =>
    exact ticks_induction (P := fun h => h.world.Indexed) h clock hi
      fun _ now dt hi => indexed_step hi now dt
  | maintainDensity =>
    exact (World.botKept_indexed h.engine.botRules).maintainDensity h.engine.world hi
  | _ => exact hi.change (h.change_perform _ rfl) free

theorem indexed_run {h : Host σ α} (hi : h.world.Indexed) (os : List (Operation σ α))
    (apart : NamesApart os) : (h.run os).world.Indexed :=
  run_induction (P := fun h => h.world.Indexed) os h hi
    fun _ hi o ho => indexed_perform hi o (apart o ho)

end Host

/-! ### The index after a run -/

section Whole

variable [Angular α]

/-- After any run `os` with `NamesApart os`, also one with steps and passes that end early:
`w.cells.Holds k id` exactly when `id` is a player or a bot with `ownedCell = k`. So everybody is in
one cell, no cell has a stranger in it, and `(w.population k).total` adds up over all cells to the
number of players and bots. After one operation `o` more, `id` is a player exactly when
`o.joins? = some id`, or it was one and `o.leaves? ≠ some id`. -/
theorem index_matches_records (settings : Settings α) (chance : Random) (source : σ)
    (os : List (Operation σ α)) (apart : NamesApart os) :
    let h := (Host.create settings chance source).run os
    let w := h.world
    (∀ k id, w.cells.Holds k id ↔
      (∃ p, w.players[id]? = some p ∧ p.ownedCell = k) ∨
        ∃ b, w.bots[id]? = some b ∧ b.ownedCell = k) ∧
    (∀ id, id ∈ w.players ∨ id ∈ w.bots → ∃! k, w.cells.Holds k id) ∧
    (∀ k id, w.cells.Holds k id → id ∈ w.players ∨ id ∈ w.bots) ∧
    (w.cells.cells.map fun k => (w.population k).total).sum = w.players.size + w.bots.size ∧
    ∀ o id, id ∈ (h.perform o).world.players ↔
      o.joins? = some id ∨ (id ∈ w.players ∧ o.leaves? ≠ some id) := by
  intro h w
  have hi : w.Indexed :=
    Host.indexed_run (Host.indexed_create settings chance source) os apart
  refine ⟨?_, ?_, ?_, hi.sum_population, Host.mem_players_perform h⟩
  · intro k id
    rw [hi.holds_iff, World.playerHome?, World.botHome?, Option.map_eq_some_iff,
      Option.map_eq_some_iff]
  · intro id member
    obtain ⟨k, hk⟩ := (hi.exists_holds id).mpr member
    exact ⟨k, hk, fun j hj => hi.holds_unique hj hk⟩
  · exact fun k id hk => (hi.exists_holds id).mp ⟨k, hk⟩

/-- The player `"p1"` came in, was looked at and got bots for company, and is in one cell. -/
theorem p1_in_one_cell :
    ∃! k, ((Host.create Settings.standard (.ofSeed 1) () : Host Unit Float).run
      [.upsert "p1" "one" .zero ⟨300.0, 0.0, 40.0⟩, .maintainDensity, .step ⟨0⟩ ⟨1000000000⟩,
        .remove "p2"]).world.cells.Holds k "p1" := by
  refine (index_matches_records Settings.standard (.ofSeed 1) () _ ?_).2.1 "p1" (Or.inl ?_)
  · rw [namesApart_iff]
    intro id hid
    rw [List.mem_singleton.mp hid]
    exact unreserved_of_head (by decide)
  · simp [Host.run, Host.mem_players_perform, Operation.joins?, Operation.leaves?]

end Whole

end CellWorld
