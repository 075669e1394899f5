import Mathlib.Data.List.Nodup
import Mathlib.Data.String.Basic
import Mathlib.Logic.Function.Iterate
import CellWorld.Proofs.Exact
import CellWorld.Proofs.Pass

/-!
# All bots move at once

The pass `World.wander` changes the bots one by one, in two loops: all turn, then all walk. Here it
is compared with a function of each bot by itself, and with the same loops in other orders.

* `Random.after`, `Random.words` — the generator after `n` words, and its next two
* `Bot.due`, `Bot.course`, `Bot.turned`, `Bot.moved` — where a bot goes, from its record, its crowd
  and two words
* `World.crowd`, `World.sightings_getD` — the bots of a cell with their old positions, in the order
  of ids
* `World.drawsOf`, `World.bots_steerAll_eq` — the words of a bot: those after the words of all due
  bots with smaller ids
* `World.wanderIn`, `World.bots_wanderIn` — the loops in any order, with any words for each bot
* `bots_move_at_once` — `(w.wander size dt).bots[id]?` is `moved` of the old bot, with its own words
  and the old crowd of its cell
* `threeBots_in_another_order` — another order, with the same result

Which bot draws which words does depend on the order of ids; that is `drawsOf`. No law of the
scalars is used.
-/

namespace CellWorld

variable {α : Type}

/-! ### Words -/

namespace Random

/-- The generator after `n` words. -/
def after (r : Random) (n : Nat) : Random := (fun r => r.next.2)^[n] r

def words (r : Random) : UInt64 × UInt64 := (r.next.1, r.next.2.next.1)

theorem after_add (r : Random) (m n : Nat) : r.after (m + n) = (r.after m).after n := by
  unfold after
  rw [Nat.add_comm, Function.iterate_add_apply]

end Random

/-! ### One bot -/

namespace Bot

variable [Angular α]

/-- Whether the time of the heading runs out within `dt`. -/
def due (b : Bot α) (dt : α) : Bool := decide (b.retargetIn - dt ≤ 0.0)

/-- The heading and the time that two words select. -/
def course (words : UInt64 × UInt64) : Point α × α :=
  (.ofAngle (Scalar.pick words.1 0.0 Angular.turn), Scalar.pick words.2 retargetMin retargetMax)

/-- The bot with its time counted down, or with a new course when it is due. -/
def counted (b : Bot α) (words : UInt64 × UInt64) (dt : α) : Bot α :=
  if b.due dt then { b with heading := (course words).1, retargetIn := (course words).2 }
  else { b with retargetIn := b.retargetIn - dt }

/-- The bot with its new heading, blended with the push of its crowd. -/
def turned (b : Bot α) (words : UInt64 × UInt64) (crowd : List (Sighting α)) (dt : α) : Bot α :=
  (b.counted words dt).facing ((b.counted words dt).blend crowd)

def moved (b : Bot α) (words : UInt64 × UInt64) (crowd : List (Sighting α)) (size dt : α) : Bot α :=
  (b.turned words crowd dt).walk size dt

variable (b : Bot α) (dt : α)

/-- A due bot draws two words, any other none. -/
theorem steer_eq (random : Random) (crowd : List (Sighting α)) :
    b.steer random crowd dt =
      (b.turned random.words crowd dt, random.after (if b.due dt then 2 else 0)) := by
  unfold steer turned counted retarget due
  dsimp only
  by_cases late : b.retargetIn - dt ≤ 0.0
  · simp only [late, if_true, decide_true]
    rfl
  · simp only [late, if_false, decide_false, Bool.false_eq_true]
    rfl

/-- Two words matter only to a bot that is due. -/
theorem moved_congr {words words' : UInt64 × UInt64} (h : b.due dt = true → words = words')
    (crowd : List (Sighting α)) (size : α) :
    b.moved words crowd size dt = b.moved words' crowd size dt := by
  cases late : b.due dt with
  | true => rw [h late]
  | false =>
    have same : b.counted words dt = b.counted words' dt := by simp [counted, late]
    unfold moved turned
    rw [same]

end Bot

namespace World

/-! ### The bots of a cell -/

/-- The bots owned by `c`, in the order of ids, each with its position. -/
def crowd (w : World α) (c : Cell) : List (Sighting α) :=
  (w.bots.toList.filter fun e => e.2.ownedCell = c).map fun e => ⟨e.1, e.2.pos⟩

/-- The sightings that the code collects before the loop are the crowds. -/
theorem sightings_getD (w : World α) (c : Cell) : w.sightings.getD c [] = w.crowd c := by
  unfold sightings crowd
  rw [Std.TreeMap.foldr_eq_foldr_toList]
  induction w.bots.toList with
  | nil => rfl
  | cons e l ih =>
    rw [List.foldr_cons, Std.TreeMap.getD_insert, List.filter_cons]
    by_cases here : e.2.ownedCell = c
    · subst here
      simp [ih]
    · simp [here, ih]

/-- The crowd of `c` are the bots that `c` owns, where they stand. -/
theorem mem_crowd (w : World α) (c : Cell) (s : Sighting α) :
    s ∈ w.crowd c ↔ ∃ b, w.bots[s.id]? = some b ∧ b.ownedCell = c ∧ b.pos = s.pos := by
  unfold crowd
  simp only [List.mem_map, List.mem_filter, decide_eq_true_eq, Prod.exists,
    Std.TreeMap.mem_toList_iff_getElem?_eq_some]
  constructor
  · rintro ⟨id, b, ⟨there, here⟩, rfl⟩
    exact ⟨b, there, here, rfl⟩
  · rintro ⟨b, there, here, pos⟩
    exact ⟨s.id, b, ⟨there, here⟩, by rw [pos]⟩

theorem pairwise_crowd (w : World α) (c : Cell) :
    (w.crowd c).Pairwise fun s s' => s.id < s'.id := by
  unfold crowd
  rw [List.pairwise_map]
  have ordered : w.bots.toList.Pairwise fun e e' => compare e.1 e'.1 = .lt :=
    Std.TreeMap.ordered_keys_toList
  exact (ordered.imp fun {e e'} order => compare_lt_iff_lt.mp order).filter _

/-! ### The bots take their turns -/

variable [Angular α]

/-- Two words for each bot that is due. -/
def wordsOf (dt : α) (bots : List (String × Bot α)) : Nat := 2 * bots.countP fun e => e.2.due dt

/-- The words of `id`: those that come after the words of all due bots with smaller ids. -/
def drawsOf (w : World α) (dt : α) (id : String) : UInt64 × UInt64 :=
  (w.random.after (wordsOf dt (w.bots.toList.filter fun e => e.1 < id))).words

/-- The turn of one bot, as the loop takes it. -/
def steerOne (seen : Cell → List (Sighting α)) (dt : α) (w : World α) (e : String × Bot α) : World α :=
  let (b, random) := e.2.steer w.random (seen e.2.ownedCell) dt
  { w with bots := w.bots.insert e.1 b, random }

/-- The loop of `steerAll` over the bots in the order of ids. -/
theorem steerAll_eq_foldl (w : World α) (dt : α) :
    w.steerAll dt = w.bots.toList.foldl (steerOne w.crowd dt) w := by
  unfold steerAll
  rw [Std.TreeMap.foldl_eq_foldl_toList]
  simp only [sightings_getD]
  rfl

section Loop

variable (seen : Cell → List (Sighting α)) (dt : α)

theorem foldl_steerOne_of_not_mem (bots : List (String × Bot α)) (w : World α) {id : String}
    (other : id ∉ bots.map Prod.fst) :
    (bots.foldl (steerOne seen dt) w).bots[id]? = w.bots[id]? := by
  induction bots generalizing w with
  | nil => rfl
  | cons e bots ih =>
    rw [List.map_cons, List.mem_cons, not_or] at other
    rw [List.foldl_cons, ih _ other.2]
    show (w.bots.insert e.1 _)[id]? = _
    rw [lookup_insert, if_neg (Ne.symm other.1)]

theorem random_foldl_steerOne (bots : List (String × Bot α)) (w : World α) :
    (bots.foldl (steerOne seen dt) w).random = w.random.after (wordsOf dt bots) := by
  induction bots generalizing w with
  | nil => rfl
  | cons e bots ih =>
    have drawn : (steerOne seen dt w e).random = w.random.after (if e.2.due dt then 2 else 0) := by
      simp only [steerOne, Bot.steer_eq]
    rw [List.foldl_cons, ih, drawn, ← Random.after_add, wordsOf, wordsOf, List.countP_cons]
    congr 1
    split <;> omega

/-- A bot draws its words after those of the bots before it; later turns leave it alone. -/
theorem bots_foldl_steerOne (first later : List (String × Bot α)) (id : String) (b : Bot α)
    (w : World α) (once : id ∉ later.map Prod.fst) :
    ((first ++ (id, b) :: later).foldl (steerOne seen dt) w).bots[id]? =
      some (b.turned (w.random.after (wordsOf dt first)).words (seen b.ownedCell) dt) := by
  rw [List.foldl_append, List.foldl_cons, foldl_steerOne_of_not_mem seen dt later _ once]
  simp only [steerOne, Bot.steer_eq, random_foldl_steerOne, Std.TreeMap.getElem?_insert_self]

end Loop

/-- Each bot of `steerAll` is `turned`, with its own words and the old crowd of its cell. -/
theorem bots_steerAll_eq (w : World α) (dt : α) (id : String) :
    (w.steerAll dt).bots[id]? =
      w.bots[id]?.map fun b => b.turned (w.drawsOf dt id) (w.crowd b.ownedCell) dt := by
  rw [steerAll_eq_foldl]
  cases hb : w.bots[id]? with
  | none =>
    rw [foldl_steerOne_of_not_mem, hb]
    · rfl
    · rw [Std.TreeMap.map_fst_toList_eq_keys, Std.TreeMap.mem_keys,
        Std.TreeMap.mem_iff_isSome_getElem?, hb]
      exact Bool.false_ne_true
  | some b =>
    have there : (id, b) ∈ w.bots.toList := Std.TreeMap.mem_toList_iff_getElem?_eq_some.mpr hb
    obtain ⟨first, later, split⟩ := List.append_of_mem there
    have ordered : w.bots.toList.Pairwise fun e e' => e.1 < e'.1 :=
      Std.TreeMap.ordered_keys_toList.imp fun order => compare_lt_iff_lt.mp order
    rw [split, List.pairwise_append, List.pairwise_cons] at ordered
    obtain ⟨-, ⟨above, -⟩, below⟩ := ordered
    have before : w.bots.toList.filter (fun e => e.1 < id) = first := by
      rw [split, List.filter_append, List.filter_eq_self.mpr, List.filter_eq_nil_iff.mpr,
        List.append_nil]
      · intro e he
        rcases List.mem_cons.mp he with rfl | later
        · simp
        · rw [decide_eq_true_eq]
          exact not_lt_of_gt (above e later)
      · intro e he
        simpa using below e he (id, b) List.mem_cons_self
    have once : id ∉ later.map Prod.fst := by
      rintro again
      obtain ⟨e, he, rfl⟩ := List.mem_map.mp again
      exact lt_irrefl _ (above e he)
    rw [drawsOf, before, split, bots_foldl_steerOne w.crowd dt first later id b w once]
    rfl

/-! ### The loops in any order -/

/-- Replaces the bot of `id` by its image under `f id`. -/
def amendBot (f : String → Bot α → Bot α) (w : World α) (id : String) : World α :=
  match w.bots[id]? with
  | some b => { w with bots := w.bots.insert id (f id b) }
  | none => w

/-- The two loops in some orders, with given words for each bot. Turning looks at the old crowds. -/
def wanderIn (w : World α) (turns walks : List String) (draws : String → UInt64 × UInt64)
    (size dt : α) : World α :=
  let turned := turns.foldl
    (amendBot fun id b => b.turned (draws id) (w.crowd b.ownedCell) dt) w
  walks.foldl (amendBot fun _ b => b.walk size dt) turned

section Orders

omit [Angular α]

variable (f : String → Bot α → Bot α) (w : World α)

theorem bots_amendBot (id k : String) :
    (w.amendBot f id).bots[k]? = if id = k then w.bots[k]?.map (f k) else w.bots[k]? := by
  by_cases own : id = k
  · subst own
    rw [if_pos rfl, amendBot]
    cases hb : w.bots[id]? with
    | none => exact hb
    | some b => exact Std.TreeMap.getElem?_insert_self
  · rw [if_neg own, amendBot]
    split
    · exact (lookup_insert w.bots id k _).trans (if_neg own)
    · rfl

/-- A loop over all ids, each once, maps every bot, whatever the order. -/
theorem bots_foldl_amendBot (ids : List String) (perm : ids.Perm w.bots.keys) (id : String) :
    (ids.foldl (amendBot f) w).bots[id]? = w.bots[id]?.map (f id) := by
  obtain ⟨inside, outside⟩ := foldl_at_key (fun (w : World α) k => w.bots[k]?) (fun k => k)
    (amendBot f) (fun k before after => after = before.map (f k))
    (fun w k => by rw [bots_amendBot, if_pos rfl])
    (fun w e k other => by rw [bots_amendBot, if_neg (Ne.symm other)])
    ids (by rw [List.map_id']; exact perm.nodup_iff.mpr Std.TreeMap.nodup_keys) w
  by_cases there : id ∈ ids
  · exact inside id there
  · rw [outside id (by rwa [List.map_id'])]
    have none : w.bots[id]? = none :=
      Std.TreeMap.getElem?_eq_none fun h => there (perm.mem_iff.mpr (Std.TreeMap.mem_keys.mpr h))
    rw [none]
    rfl

/-- Such a loop writes `bots` alone. -/
theorem foldl_amendBot_frame {β : Type} (g : World α → β)
    (blind : ∀ (w : World α) bots, g { w with bots } = g w) (ids : List String) :
    g (ids.foldl (amendBot f) w) = g w := by
  induction ids generalizing w with
  | nil => rfl
  | cons id ids ih =>
    rw [List.foldl_cons, ih, amendBot]
    split
    · exact blind w _
    · rfl

end Orders

variable (w : World α) (size dt : α)

/-- The bot after `wander` is `moved` of the bot before. -/
theorem bots_wander_eq (id : String) :
    (w.wander size dt).bots[id]? =
      w.bots[id]?.map fun b => b.moved (w.drawsOf dt id) (w.crowd b.ownedCell) size dt := by
  simp only [wander, Std.TreeMap.getElem?_map, bots_steerAll_eq, Option.map_map]
  rfl

/-- Only `bots` and `random` change, and `random` by the words of all due bots. -/
theorem wander_eq :
    w.wander size dt = { w with
      bots := (w.wander size dt).bots, random := w.random.after (wordsOf dt w.bots.toList) } := by
  have random : (w.wander size dt).random = w.random.after (wordsOf dt w.bots.toList) := by
    show (w.steerAll dt).random = _
    rw [steerAll_eq_foldl, random_foldl_steerOne]
  have rest : { w.wander size dt with bots := {}, random := w.random } =
      { w with bots := {}, random := w.random } :=
    wander_frame (fun w' => { w' with bots := {}, random := w.random }) w size dt fun _ _ _ => rfl
  rw [← random]
  exact congrArg (fun w' : World α => { w' with
    bots := (w.wander size dt).bots, random := (w.wander size dt).random }) rest

variable {turns walks : List String} (draws : String → UInt64 × UInt64)

/-- In any order, each bot is `moved` of the bot before. -/
theorem bots_wanderIn (turning : turns.Perm w.bots.keys) (walking : walks.Perm w.bots.keys)
    (id : String) :
    (w.wanderIn turns walks draws size dt).bots[id]? =
      w.bots[id]?.map fun b => b.moved (draws id) (w.crowd b.ownedCell) size dt := by
  let turned := turns.foldl (amendBot fun id b => b.turned (draws id) (w.crowd b.ownedCell) dt) w
  have turn (id : String) : turned.bots[id]? =
      w.bots[id]?.map fun b => b.turned (draws id) (w.crowd b.ownedCell) dt :=
    bots_foldl_amendBot _ w turns turning id
  have same : w.bots.keys.Perm turned.bots.keys := by
    refine (List.perm_ext_iff_of_nodup Std.TreeMap.nodup_keys Std.TreeMap.nodup_keys).mpr ?_
    intro k
    simp only [Std.TreeMap.mem_keys, Std.TreeMap.mem_iff_isSome_getElem?, turn,
      Option.isSome_map]
  show (walks.foldl _ turned).bots[id]? = _
  rw [bots_foldl_amendBot _ turned walks (walking.trans same), turn, Option.map_map]
  rfl

theorem wanderIn_eq : w.wanderIn turns walks draws size dt =
    { w with bots := (w.wanderIn turns walks draws size dt).bots } := by
  let others : World α → World α := fun w' => { w' with bots := {} }
  have blind (w' : World α) bots : others { w' with bots } = others w' := rfl
  have turned := foldl_amendBot_frame
    (fun id b => b.turned (draws id) (w.crowd b.ownedCell) dt) w others blind turns
  have rest : others (w.wanderIn turns walks draws size dt) = others w :=
    (foldl_amendBot_frame (fun _ b => b.walk size dt) _ others blind walks).trans turned
  exact congrArg (fun w' : World α => { w' with
    bots := (w.wanderIn turns walks draws size dt).bots }) rest

end World

/-! ### Any two orders -/

section Whole

variable [Angular α]

/-- For every world, size and time. The crowd of a cell are its bots with their positions, sorted by
id. Two words matter only to a due bot. Each bot after `wander` is `moved` of the bot before, with
`drawsOf` and the old crowd; only `bots` and `random` change. With the loops in any orders `turns`
and `walks` of all ids, each bot is `moved` with `draws id`, nothing but `bots` changes, and the
bots are those of `wander` if due bots have the same words. -/
theorem bots_move_at_once (w : World α) (size dt : α) :
    (∀ c, (w.crowd c).Pairwise (fun s s' => s.id < s'.id) ∧
      ∀ s, s ∈ w.crowd c ↔ ∃ b, w.bots[s.id]? = some b ∧ b.ownedCell = c ∧ b.pos = s.pos) ∧
    (∀ (b : Bot α) words words' crowd, (b.due dt = true → words = words') →
      b.moved words crowd size dt = b.moved words' crowd size dt) ∧
    (∀ id : String, (w.wander size dt).bots[id]? =
      w.bots[id]?.map fun b => b.moved (w.drawsOf dt id) (w.crowd b.ownedCell) size dt) ∧
    w.wander size dt = { w with
      bots := (w.wander size dt).bots
      random := w.random.after (World.wordsOf dt w.bots.toList) } ∧
    ∀ turns walks draws, turns.Perm w.bots.keys → walks.Perm w.bots.keys →
      let w' := w.wanderIn turns walks draws size dt
      (∀ id : String, w'.bots[id]? =
        w.bots[id]?.map fun b => b.moved (draws id) (w.crowd b.ownedCell) size dt) ∧
      w' = { w with bots := w'.bots } ∧
      ((∀ (id : String) b, w.bots[id]? = some b → b.due dt = true → draws id = w.drawsOf dt id) →
        ∀ id : String, w'.bots[id]? = (w.wander size dt).bots[id]?) := by
  refine ⟨fun c => ⟨w.pairwise_crowd c, w.mem_crowd c⟩, ?_, w.bots_wander_eq size dt,
    w.wander_eq size dt, ?_⟩
  · intro b words words' crowd same
    exact b.moved_congr dt same crowd size
  · intro turns walks draws turning walking
    have each := w.bots_wanderIn size dt draws turning walking
    refine ⟨each, w.wanderIn_eq size dt draws, fun same id => ?_⟩
    rw [each, w.bots_wander_eq size dt]
    refine Option.map_congr fun b hb => ?_
    exact b.moved_congr dt (same id b hb) _ size

/-- Two bots close together in one cell, and one on its own in another. -/
def threeBots : World ℚ where
  random := .ofSeed 1
  densityDebt := 0
  bots := .ofList
    ([Bot.new "bot-1" ⟨0, 0⟩ ⟨5, 0, 5⟩ ⟨0, 0, 1⟩ 4, Bot.new "bot-2" ⟨0, 0⟩ ⟨6, 0, 5⟩ ⟨0, 0, 1⟩ 1,
      Bot.new "bot-3" ⟨1, 0⟩ ⟨15, 0, 5⟩ ⟨0, 0, 1⟩ 4].map fun b : Bot ℚ => (b.id, b))

/-- The second bot turns first and walks last, and the result is that of `wander`. -/
theorem threeBots_in_another_order :
    let w' := threeBots.wanderIn ["bot-2", "bot-3", "bot-1"] ["bot-3", "bot-1", "bot-2"]
      (fun _ => threeBots.random.words) 10 1
    (∀ id : String, w'.bots[id]? = (threeBots.wander 10 1).bots[id]?) ∧
      w'.bots["bot-2"]?.map (fun b => b.pos) = some ⟨7.5, 0, 5⟩ := by
  intro w'
  obtain ⟨-, -, -, -, orders⟩ := bots_move_at_once threeBots 10 1
  obtain ⟨-, -, same⟩ := orders ["bot-2", "bot-3", "bot-1"] ["bot-3", "bot-1", "bot-2"]
    (fun _ => threeBots.random.words) (by decide +kernel) (by decide +kernel)
  have own : ∀ e ∈ threeBots.bots.toList, e.2.due 1 = true →
      threeBots.random.words = threeBots.drawsOf 1 e.1 := by decide +kernel
  refine ⟨same fun id b hb late => ?_, by decide +kernel⟩
  exact own (id, b) (Std.TreeMap.mem_toList_iff_getElem?_eq_some.mpr hb) late

end Whole

end CellWorld
