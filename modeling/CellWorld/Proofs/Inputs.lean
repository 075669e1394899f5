import CellWorld.Proofs.Lag
import CellWorld.Proofs.Players

/-!
# Acknowledged inputs

The inputs of a player are numbered, and `acknowledge` accepts them in rising order. A player that
comes from another node brings the number that was acknowledged there, and `receive` takes it over
as it is, also for a player that is here already.

* `InputNews` — `accepted seq` and `carried seq`, kept in a list with the newest first
* `InputNews.last`, `InputNews.sinceArrival` — the newest number, and the news down to the last
  `carried`
* `InputNews.Rising`, `InputNews.Steady` — every accepted number is above the one before it; no
  carried number is below
* `Host.lastSeq?`, `Host.lastSeq?_perform` — `p.lastSeq` of `id`, and its value after an operation
  as a function of the value before
* `Host.lastSeq?_falls_iff` — it falls iff the operation is `receive d` of `id` with `d.lastSeq`
  below it
* `Host.news`, `Host.Informed` — the news of a run, and that they tell `lastSeq`
* `acknowledged_since_arrival` — the exact condition of acceptance after any run
* `fourth_input_after_fifth` — input 4 accepted after input 5, because of an arrival in between

That an accepted number is above all numbers ever accepted is true under `Steady` alone;
`fourth_input_after_fifth` shows why.
-/

namespace CellWorld

variable {σ α : Type}

/-! ### News -/

/-- What a node learns of the inputs of a player. -/
inductive InputNews where
  /-- The player has come from another node, which has acknowledged this input. -/
  | carried (seq : UInt64)
  | accepted (seq : UInt64)
deriving DecidableEq

namespace InputNews

def seq : InputNews → UInt64
  | carried seq | accepted seq => seq

/-- The newest number; a player starts at zero. -/
def last (news : List InputNews) : UInt64 := (news.head?.map seq).getD 0

/-- The news down to the last arrival, which is included. -/
def sinceArrival : List InputNews → List InputNews
  | [] => []
  | carried seq :: _ => [carried seq]
  | accepted seq :: news => accepted seq :: sinceArrival news

/-- Every accepted number is above the number before it. -/
def Rising : List InputNews → Prop
  | [] => True
  | carried _ :: news => Rising news
  | accepted seq :: news => last news < seq ∧ Rising news

/-- No arrival carries a number below the one before it. -/
def Steady : List InputNews → Prop
  | [] => True
  | carried seq :: news => last news ≤ seq ∧ Steady news
  | accepted _ :: news => Steady news

/-- Since the last arrival numbers only rise, so the newest is the greatest. -/
theorem Rising.le_last {news : List InputNews} (rising : Rising news) :
    ∀ w ∈ sinceArrival news, w.seq ≤ last news := by
  induction news with
  | nil => exact fun w hw => absurd hw List.not_mem_nil
  | cons newest news ih =>
    intro w hw
    cases newest with
    | carried n =>
      obtain rfl := List.mem_singleton.mp hw
      exact UInt64.le_refl n
    | accepted n =>
      obtain ⟨higher, rising⟩ := rising
      rcases List.mem_cons.mp hw with rfl | older
      · exact UInt64.le_refl n
      · exact UInt64.le_trans (ih rising w older) (UInt64.le_of_lt higher)

/-- With `Steady` the newest number is the greatest of all. -/
theorem Rising.le_last_of_steady {news : List InputNews} (rising : Rising news)
    (steady : Steady news) : ∀ w ∈ news, w.seq ≤ last news := by
  induction news with
  | nil => exact fun w hw => absurd hw List.not_mem_nil
  | cons newest news ih =>
    intro w hw
    cases newest with
    | carried n =>
      rcases List.mem_cons.mp hw with rfl | older
      · exact UInt64.le_refl n
      · exact UInt64.le_trans (ih rising steady.2 w older) steady.1
    | accepted n =>
      rcases List.mem_cons.mp hw with rfl | older
      · exact UInt64.le_refl n
      · exact UInt64.le_trans (ih rising.2 steady w older) (UInt64.le_of_lt rising.1)

end InputNews

/-! ### The number of a player -/

/-- The number of `id` after an operation, from the number before. -/
def Operation.lastSeqAfter (id : String) (before : Option UInt64) : Operation σ α → Option UInt64
  | upsert key _ _ _ | spawn key _ _ => if key = id then some (before.getD 0) else before
  | remove key => if key = id then none else before
  | acknowledge key seq =>
    if key = id then before.map fun n => if n < seq then seq else n else before
  | receive d => if d.id = id then some d.lastSeq else before
  | _ => before

/-- The number does not fall, unless the operation is `receive` of `id`, which sets it. -/
theorem Operation.of_lastSeqAfter {o : Operation σ α} {id : String} {m n : UInt64}
    (after : o.lastSeqAfter id (some m) = some n) :
    m ≤ n ∨ ∃ d, o = .receive d ∧ d.id = id ∧ d.lastSeq = n := by
  have same (after : some m = some n) : m ≤ n := Option.some.inj after ▸ UInt64.le_refl m
  cases o with
  | upsert key name pos vel => exact Or.inl (same (by simpa [lastSeqAfter] using after))
  | spawn key name pos => exact Or.inl (same (by simpa [lastSeqAfter] using after))
  | remove key =>
    simp only [lastSeqAfter] at after
    split at after
    · exact absurd after.symm (Option.some_ne_none n)
    · exact Or.inl (same after)
  | acknowledge key seq =>
    simp only [lastSeqAfter, Option.map_some] at after
    split at after
    · obtain rfl := Option.some.inj after
      split
      · next higher => exact Or.inl (UInt64.le_of_lt higher)
      · exact Or.inl (UInt64.le_refl m)
    · exact Or.inl (same after)
  | receive d =>
    simp only [lastSeqAfter] at after
    split at after
    · next here => exact Or.inr ⟨d, rfl, here, Option.some.inj after⟩
    · exact Or.inl (same after)
  | _ => exact Or.inl (same after)

section Evaluate

variable [Scalar α]

theorem Player.lastSeq_evaluate (rules : HandoverRules α) (issuer : Option (Issuer σ α))
    (p : Player α) (source : σ) :
    (p.evaluate rules issuer source).1.player.lastSeq = p.lastSeq := by
  cases p.looked rules issuer source with
  | stays still after => rw [after]; rfl
  | moves target route due unasked after => rw [after]; rfl
  | departs target issue due installed away idle after => rw [after]; rfl

end Evaluate

namespace Host

/-- The highest acknowledged number of `id`, none if the player is not there. -/
def lastSeq? (h : Host σ α) (id : String) : Option UInt64 :=
  h.world.players[id]?.map Player.lastSeq

variable [Angular α]

theorem lastSeq_onPlayer (h : Host σ α) (o : Operation σ α) (source : σ) (id : String)
    (before : Option (Player α)) :
    (o.onPlayer h source id before).map Player.lastSeq =
      o.lastSeqAfter id (before.map Player.lastSeq) := by
  have arrived (key name : String) (pos vel : Point α) (cell : Cell) :
      (if key = id then some (Player.arrived before key name pos vel cell) else before).map
          Player.lastSeq =
        if key = id then some ((before.map Player.lastSeq).getD 0)
        else before.map Player.lastSeq := by
    split
    · cases before <;> rfl
    · rfl
  have amended (key : String) (f : Player α → Player α) (g : UInt64 → UInt64)
      (change : ∀ p, (f p).lastSeq = g p.lastSeq) :
      (if key = id then before.map f else before).map Player.lastSeq =
        if key = id then (before.map Player.lastSeq).map g else before.map Player.lastSeq := by
    split
    · cases before with
      | none => rfl
      | some p => exact congrArg some (change p)
    · rfl
  have kept (key : String) (f : Player α → Player α) (same : ∀ p, (f p).lastSeq = p.lastSeq) :
      (if key = id then before.map f else before).map Player.lastSeq =
        before.map Player.lastSeq := by
    rw [amended key f (fun n => n) same, Option.map_id', ite_self]
  cases o with
  | upsert key name pos vel => exact arrived key name pos vel _
  | spawn key name pos => exact arrived key name pos .zero _
  | remove key =>
    simp only [Operation.onPlayer, Operation.lastSeqAfter]
    split <;> rfl
  | setVelocity key vel => exact kept key (fun p => { p with vel }) fun _ => rfl
  | setConnection key connection => exact kept key (fun p => { p with connection }) fun _ => rfl
  | acknowledge key seq =>
    exact amended key _ (fun n => if n < seq then seq else n) fun p => by split <;> rfl
  | step now dt =>
    cases before with
    | none => rfl
    | some p => exact congrArg some (Player.lastSeq_evaluate _ h.issuer (p.integrated _) source)
  | receive d =>
    simp only [Operation.onPlayer, Operation.lastSeqAfter]
    split <;> rfl
  | resolve key reply => exact kept key _ fun p => by split <;> rfl
  | restore key saved templates => exact kept key _ fun p => by split <;> rfl
  | _ => rfl

/-- The number after an operation depends on the number before it alone. -/
theorem lastSeq?_perform (h : Host σ α) (o : Operation σ α) (id : String) :
    (h.perform o).lastSeq? id = o.lastSeqAfter id (h.lastSeq? id) := by
  have single (h : Host σ α) (o : Operation σ α) (ho : ∀ clock, o ≠ .ticks clock) :
      (h.perform o).lastSeq? id = o.lastSeqAfter id (h.lastSeq? id) := by
    obtain ⟨source, after⟩ := players_perform h o ho id
    rw [lastSeq?, lastSeq?, after, lastSeq_onPlayer]
  cases o with
  | ticks clock =>
    exact ticks_induction (P := fun h' => h'.lastSeq? id = h.lastSeq? id) h clock rfl
      fun h' now dt same => (single h' (.step now dt) nofun).trans same
  | _ => exact single h _ nofun

omit [Angular α] in
/-- An input is accepted iff the player is there with a lower number. -/
theorem accepts_iff (h : Host σ α) (id : String) (seq : UInt64) :
    (h.engine.acknowledge id seq).1 = true ↔ ∃ n, h.lastSeq? id = some n ∧ n < seq := by
  unfold Engine.acknowledge lastSeq? world
  cases hp : h.engine.world.players[id]? with
  | none => simp
  | some p =>
    by_cases higher : p.lastSeq < seq
    · simp [higher, Engine.attempt, World.amend?, hp]
    · simp [higher]

/-- The number falls exactly when `id` is received with a lower one. -/
theorem lastSeq?_falls_iff (h : Host σ α) (o : Operation σ α) {id : String} {m n : UInt64}
    (before : h.lastSeq? id = some m) (after : (h.perform o).lastSeq? id = some n) :
    n < m ↔ ∃ d, o = .receive d ∧ d.id = id ∧ d.lastSeq < m := by
  rw [lastSeq?_perform, before] at after
  constructor
  · intro falls
    rcases Operation.of_lastSeqAfter after with higher | ⟨d, arrives, here, rfl⟩
    · exact absurd falls (UInt64.not_lt.mpr higher)
    · exact ⟨d, arrives, here, falls⟩
  · rintro ⟨d, rfl, here, falls⟩
    rw [Operation.lastSeqAfter, if_pos here] at after
    exact Option.some.inj after ▸ falls

/-- Over a run without `remove id`, and with no arrival of `id` below the number at that time, the
player stays and its number does not fall. -/
theorem le_lastSeq?_run (h : Host σ α) (os : List (Operation σ α)) {id : String} {m : UInt64}
    (before : h.lastSeq? id = some m) (stays : .remove id ∉ os)
    (steady : ∀ (os₁ os₂ : List (Operation σ α)) (d : Payload α) (n : UInt64),
      os = os₁ ++ .receive d :: os₂ → d.id = id → (h.run os₁).lastSeq? id = some n →
        n ≤ d.lastSeq) :
    ∃ n, (h.run os).lastSeq? id = some n ∧ m ≤ n := by
  induction os generalizing h m with
  | nil => exact ⟨m, before, UInt64.le_refl m⟩
  | cons o os ih =>
    have there : (o.lastSeqAfter id (some m)).isSome := by
      cases o with
      | remove key =>
        have other : key ≠ id := by
          rintro rfl
          exact stays List.mem_cons_self
        rw [Operation.lastSeqAfter, if_neg other]
        rfl
      | upsert key name pos vel => simp only [Operation.lastSeqAfter]; split <;> rfl
      | spawn key name pos => simp only [Operation.lastSeqAfter]; split <;> rfl
      | acknowledge key seq => simp only [Operation.lastSeqAfter]; split <;> rfl
      | receive d => simp only [Operation.lastSeqAfter]; split <;> rfl
      | _ => rfl
    obtain ⟨k, after⟩ := Option.isSome_iff_exists.mp there
    have higher : m ≤ k := by
      rcases Operation.of_lastSeqAfter after with higher | ⟨d, rfl, here, rfl⟩
      · exact higher
      · exact steady [] os d m rfl here before
    rw [← before, ← lastSeq?_perform] at after
    obtain ⟨n, later, le⟩ := ih (h.perform o) after (fun gone => stays (.tail o gone))
      fun os₁ os₂ d n split => steady (o :: os₁) os₂ d n (congrArg (o :: ·) split)
    exact ⟨n, later, UInt64.le_trans higher le⟩

/-! ### The news of a run -/

/-- The news after an operation: `receive` carries, an accepted `acknowledge` is noted, `remove`
forgets. -/
def newsAfter (h : Host σ α) (id : String) (news : List InputNews) :
    Operation σ α → List InputNews
  | .remove key => if key = id then [] else news
  | .receive d => if d.id = id then .carried d.lastSeq :: news else news
  | .acknowledge key seq =>
    if key = id ∧ (h.engine.acknowledge id seq).1 = true then .accepted seq :: news else news
  | _ => news

/-- The news of a run, in front of what was known before it. -/
def news (h : Host σ α) (id : String) (known : List InputNews) :
    List (Operation σ α) → List InputNews
  | [] => known
  | o :: os => (h.perform o).news id (h.newsAfter id known o) os

/-- The news tell the number: it is `last news`, and there are none without a player. -/
structure Informed (h : Host σ α) (id : String) (news : List InputNews) : Prop where
  last : ∀ n, h.lastSeq? id = some n → n = InputNews.last news
  absent : h.lastSeq? id = none → news = []
  rising : InputNews.Rising news

theorem Informed.perform {h : Host σ α} {id : String} {news : List InputNews}
    (informed : h.Informed id news) (o : Operation σ α) :
    (h.perform o).Informed id (h.newsAfter id news o) := by
  -- an operation about which nothing is told keeps the number
  have quiet (o : Operation σ α) (same : o.lastSeqAfter id (h.lastSeq? id) = h.lastSeq? id) :
      (h.perform o).Informed id news := by
    refine ⟨?_, ?_, informed.rising⟩ <;> rw [lastSeq?_perform, same]
    · exact informed.last
    · exact informed.absent
  -- a player that comes in for the first time has the number of no news
  have joins (o : Operation σ α)
      (after : o.lastSeqAfter id (h.lastSeq? id) = some ((h.lastSeq? id).getD 0)) :
      (h.perform o).Informed id news := by
    refine ⟨?_, ?_, informed.rising⟩ <;> rw [lastSeq?_perform, after]
    · rintro n hn
      obtain rfl := Option.some.inj hn
      cases hm : h.lastSeq? id with
      | none => rw [informed.absent hm]; rfl
      | some m => exact informed.last m hm
    · exact fun gone => absurd gone (Option.some_ne_none _)
  cases o with
  | upsert key name pos vel =>
    by_cases here : key = id
    · exact joins _ (if_pos here)
    · exact quiet _ (if_neg here)
  | spawn key name pos =>
    by_cases here : key = id
    · exact joins _ (if_pos here)
    · exact quiet _ (if_neg here)
  | remove key =>
    by_cases here : key = id
    · simp only [newsAfter, if_pos here]
      refine ⟨?_, fun _ => rfl, trivial⟩
      rw [lastSeq?_perform, Operation.lastSeqAfter, if_pos here]
      exact fun n hn => absurd hn.symm (Option.some_ne_none n)
    · simp only [newsAfter, if_neg here]
      exact quiet _ (if_neg here)
  | receive d =>
    by_cases here : d.id = id
    · simp only [newsAfter, if_pos here]
      refine ⟨?_, ?_, informed.rising⟩ <;>
        rw [lastSeq?_perform, Operation.lastSeqAfter, if_pos here]
      · exact fun n hn => (Option.some.inj hn).symm
      · exact fun gone => absurd gone (Option.some_ne_none _)
    · simp only [newsAfter, if_neg here]
      exact quiet _ (if_neg here)
  | acknowledge key seq =>
    by_cases heard : key = id ∧ (h.engine.acknowledge id seq).1 = true
    · obtain ⟨n, before, higher⟩ := (h.accepts_iff id seq).mp heard.2
      have after : (h.perform (.acknowledge key seq)).lastSeq? id = some seq := by
        rw [lastSeq?_perform, Operation.lastSeqAfter, if_pos heard.1, before, Option.map_some,
          if_pos higher]
      simp only [newsAfter, if_pos heard]
      refine ⟨?_, ?_, informed.last n before ▸ higher, informed.rising⟩ <;> rw [after]
      · exact fun n hn => (Option.some.inj hn).symm
      · exact fun gone => absurd gone (Option.some_ne_none _)
    · simp only [newsAfter, if_neg heard]
      refine quiet _ ?_
      by_cases here : key = id
      · rw [Operation.lastSeqAfter, if_pos here]
        cases before : h.lastSeq? id with
        | none => rfl
        | some n =>
          have stale : ¬ n < seq := fun higher =>
            heard ⟨here, (h.accepts_iff id seq).mpr ⟨n, before, higher⟩⟩
          rw [Option.map_some, if_neg stale]
      · exact if_neg here
  | _ => exact quiet _ rfl

theorem Informed.run {h : Host σ α} {id : String} {known : List InputNews}
    (informed : h.Informed id known) (os : List (Operation σ α)) :
    (h.run os).Informed id (h.news id known os) := by
  induction os generalizing h known with
  | nil => exact informed
  | cons o os ih => exact ih (informed.perform o)

end Host

/-! ### Acceptance after a run -/

section Whole

variable [Angular α]

/-- After any run from a fresh host, with `news` the news of `id`. `p.lastSeq = last news`;
`acknowledge id seq` accepts iff the player is there and `last news < seq`; an accepted number is
above all of `sinceArrival news`, and above all of `news` if these are `Steady`. A next operation
lowers the number iff it receives `id` with a lower one; a further run without `remove id` and
without such an arrival keeps the player and does not lower it. -/
theorem acknowledged_since_arrival (settings : Settings α) (chance : Random) (source : σ)
    (os : List (Operation σ α)) (id : String) :
    let start : Host σ α := .create settings chance source
    let h := start.run os
    let news := start.news id [] os
    (∀ p, h.world.players[id]? = some p → p.lastSeq = InputNews.last news) ∧
    (∀ seq, (h.engine.acknowledge id seq).1 = true ↔
      id ∈ h.world.players ∧ InputNews.last news < seq) ∧
    (∀ seq, (h.engine.acknowledge id seq).1 = true →
      (∀ w ∈ InputNews.sinceArrival news, w.seq < seq) ∧
        (InputNews.Steady news → ∀ w ∈ news, w.seq < seq)) ∧
    (∀ (o : Operation σ α) (p q : Player α), h.world.players[id]? = some p →
      (h.perform o).world.players[id]? = some q →
        (q.lastSeq < p.lastSeq ↔ ∃ d, o = .receive d ∧ d.id = id ∧ d.lastSeq < p.lastSeq)) ∧
    ∀ (os' : List (Operation σ α)) (p : Player α), h.world.players[id]? = some p →
      .remove id ∉ os' →
      (∀ (os₁ os₂ : List (Operation σ α)) (d : Payload α) (r : Player α),
        os' = os₁ ++ .receive d :: os₂ → d.id = id →
        (h.run os₁).world.players[id]? = some r → r.lastSeq ≤ d.lastSeq) →
      ∃ q, (h.run os').world.players[id]? = some q ∧ p.lastSeq ≤ q.lastSeq := by
  intro start h news
  have nobody : start.world.players[id]? = none := by
    simp [start, Host.world, Host.create, Engine.create, World.empty]
  have informed : h.Informed id news := by
    refine Host.Informed.run ⟨?_, fun _ => rfl, trivial⟩ os
    rw [Host.lastSeq?, nobody]
    exact fun n hn => absurd hn.symm (Option.some_ne_none n)
  have number {h : Host σ α} {p : Player α} (hp : h.world.players[id]? = some p) :
      h.lastSeq? id = some p.lastSeq := congrArg (Option.map Player.lastSeq) hp
  have accepts (seq : UInt64) : (h.engine.acknowledge id seq).1 = true ↔
      id ∈ h.world.players ∧ InputNews.last news < seq := by
    rw [h.accepts_iff id seq, Std.TreeMap.mem_iff_isSome_getElem?]
    constructor
    · rintro ⟨n, hn, higher⟩
      obtain ⟨p, hp, -⟩ := Option.map_eq_some_iff.mp hn
      exact ⟨Option.isSome_iff_exists.mpr ⟨p, hp⟩, informed.last n hn ▸ higher⟩
    · rintro ⟨here, higher⟩
      obtain ⟨p, hp⟩ := Option.isSome_iff_exists.mp here
      exact ⟨p.lastSeq, number hp, informed.last _ (number hp) ▸ higher⟩
  refine ⟨fun p hp => informed.last _ (number hp), accepts, ?_, ?_, ?_⟩
  · intro seq accepted
    have higher := ((accepts seq).mp accepted).2
    exact ⟨fun w hw => UInt64.lt_of_le_of_lt (informed.rising.le_last w hw) higher,
      fun steady w hw =>
        UInt64.lt_of_le_of_lt (informed.rising.le_last_of_steady steady w hw) higher⟩
  · intro o p q hp hq
    exact h.lastSeq?_falls_iff o (number hp) (number hq)
  · intro os' p hp stays steady
    obtain ⟨n, hn, le⟩ := h.le_lastSeq?_run os' (number hp) stays fun os₁ os₂ d n split here hn => by
      obtain ⟨r, hr, rfl⟩ := Option.map_eq_some_iff.mp hn
      exact steady os₁ os₂ d r split here hr
    obtain ⟨q, hq, rfl⟩ := Option.map_eq_some_iff.mp hn
    exact ⟨q, hq, le⟩

/-- A player that comes from another node, which has acknowledged its third input. -/
def thirdInput : Payload ℚ where
  id := "p1"
  name := "one"
  pos := ⟨5, 0, 5⟩
  vel := .zero
  yaw := 0
  ownedCell := ⟨0, 0⟩
  lastSeq := 3

/-- The fifth input is acknowledged here; then the player arrives with `lastSeq = 3`, and the fourth
is accepted. -/
theorem fourth_input_after_fifth :
    let h := (Host.create tenMetres (.ofSeed 1) () : Host Unit ℚ).run
      [.upsert "p1" "one" ⟨5, 0, 5⟩ .zero]
    let fifth := h.perform (.acknowledge "p1" 5)
    let back := fifth.perform (.receive thirdInput)
    (h.engine.acknowledge "p1" 5).1 = true ∧
      fifth.world.players["p1"]?.map Player.lastSeq = some 5 ∧
      back.world.players["p1"]?.map Player.lastSeq = some 3 ∧
      (back.engine.acknowledge "p1" 4).1 = true := by
  decide +kernel

/-- After that, exactly the numbers above 4 are accepted, 5 among them. -/
theorem fifth_input_again :
    let h := (Host.create tenMetres (.ofSeed 1) () : Host Unit ℚ).run
      [.upsert "p1" "one" ⟨5, 0, 5⟩ .zero, .acknowledge "p1" 5, .receive thirdInput,
        .acknowledge "p1" 4]
    (∀ seq, (h.engine.acknowledge "p1" seq).1 = true ↔ 4 < seq) ∧
      ∃ p, h.world.players["p1"]? = some p ∧ p.lastSeq = 4 ∧
        (¬ ∃ q, (h.perform (.acknowledge "p1" 5)).world.players["p1"]? = some q ∧
          q.lastSeq < p.lastSeq) ∧
        ∃ q, (h.run [.acknowledge "p1" 2, .receive { thirdInput with lastSeq := 9 }]).world.players[
          "p1"]? = some q ∧ p.lastSeq ≤ q.lastSeq := by
  intro h
  have here : h.world.players["p1"]?.map Player.lastSeq = some 4 := by decide +kernel
  obtain ⟨p, hp, number⟩ := Option.map_eq_some_iff.mp here
  obtain ⟨-, accepts, -, falls, stays⟩ := acknowledged_since_arrival tenMetres (.ofSeed 1) ()
    [.upsert "p1" "one" ⟨5, 0, 5⟩ .zero, .acknowledge "p1" 5, .receive thirdInput,
      .acknowledge "p1" 4] "p1"
  have there : "p1" ∈ h.world.players := by
    rw [Std.TreeMap.mem_iff_isSome_getElem?, hp]
    rfl
  refine ⟨fun seq => ?_, p, hp, number, ?_, stays _ p hp (by simp) ?_⟩
  · exact (accepts seq).trans ⟨fun accepted => accepted.2, fun higher => ⟨there, higher⟩⟩
  · rintro ⟨q, hq, lower⟩
    obtain ⟨d, same, -⟩ := (falls _ p q hp hq).mp lower
    exact absurd same nofun
  · intro os₁ os₂ d r split own hr
    have known : (h.perform (.acknowledge "p1" 2)).world.players["p1"]?.map Player.lastSeq =
        some 4 := by decide +kernel
    rcases os₁ with _ | ⟨o, _ | ⟨o', os₁⟩⟩
    · exact absurd (List.head_eq_of_cons_eq split) nofun
    · obtain ⟨rfl, rest⟩ := List.cons.inj split
      obtain ⟨brought, -⟩ := List.cons.inj rest
      cases brought
      have number : r.lastSeq = 4 :=
        Option.some.inj ((congrArg (Option.map Player.lastSeq) hr).symm.trans known)
      rw [number]
      decide
    · simp at split

end Whole

end CellWorld
