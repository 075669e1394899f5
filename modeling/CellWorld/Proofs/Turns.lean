import Mathlib.Data.List.Induction
import CellWorld.Proofs.Answers
import CellWorld.Proofs.Chronicle

/-!
# Which move an event tells of

A step looks at one player after the other. The event of a change to a cell of another node is put
together from the owner of that cell and from the transfer record, which may have begun with this
change or with an earlier one.

* `Turn`, `Turn.In` — one visit of a pass in a run of single operations: the operations before, the
  step, the ids visited before, and `id`
* `Turn.before`, `Turn.after`, `Turn.Commits e` — the pass before and after the visit, and that it
  has committed and recorded `e`
* `Player.Fresh`, `Player.transfer_evaluate`, `Player.crossNode_evaluate` — a record begun by this
  evaluation; the record afterwards is fresh or the old one, expired where stale
* `Host.mem_tell_iff` — the events of a run are those committed at its turns
* `Turn.Mints`, `Host.exists_turn_of_token` — every token of a record was minted at a turn, for the
  node and cell that the record names
* `events_tell_of_moves` — the record that an event with route `crossNode node status` tells of
* `event_and_record_disagree` — an event that names `c` while the record names `b`

Node and cell of the event are those of the crossing; where an earlier move is in flight, its record
names its own. The status agrees in any case.
-/

namespace CellWorld

variable {σ α : Type}

/-! ### A player that is looked at -/

namespace Player

variable [Scalar α] (rules : HandoverRules α) (issuer : Option (Issuer σ α)) (p : Player α)
  (source : σ)

/-- The record `r` begins with this evaluation: no transfer is in flight, and the issuer is asked
for the owner of `target`. -/
def Fresh (target : Cell) (r : TransferRecord) : Prop :=
  (∀ old, p.transfer = some old → (old.expire rules.now).status ≠ .inProgress) ∧
    ∃ issue, issuer = some issue ∧
      r = p.begun (rules.territory.owner target) target rules.now
        (issue p.payload (rules.territory.owner target) target source).1

omit [Scalar α] in
variable {rules issuer} in
/-- With an issuer and no transfer in flight, `begun` is fresh. -/
theorem fresh_begun {issue : Issuer σ α} (installed : issuer = some issue) (target : Cell)
    (idle : ∀ r, (p.settle rules.now).transfer = some r → r.inFlight = false) :
    p.Fresh rules issuer source target (p.begun (rules.territory.owner target) target rules.now
      (issue p.payload (rules.territory.owner target) target source).1) := by
  refine ⟨fun old record waiting => ?_, issue, installed, rfl⟩
  have settled : (p.settle rules.now).transfer = some (old.expire rules.now) := by
    rw [settle, record, Option.map_some]
  have still := idle _ settled
  rw [(old.expire rules.now).inFlight_iff.mpr waiting] at still
  exact Bool.false_ne_true still.symm

omit [Scalar α] in
/-- The fields that a record begins with. -/
theorem begun_tells (owner : String) (target : Cell) (now : Time) (outcome : Except Fault String)
    {r : TransferRecord} (begun : r = p.begun owner target now outcome) :
    r.target = owner ∧ r.fromCell = p.ownedCell ∧ r.toCell = target ∧ r.startedAt = now := by
  subst begun
  cases outcome <;> exact ⟨rfl, rfl, rfl, rfl⟩

/-- The record after an evaluation is the old one, expired where it is stale, or fresh. -/
theorem transfer_evaluate :
    (p.evaluate rules issuer source).1.player.transfer =
        p.transfer.map (fun r => r.expire rules.now) ∨
      ∃ target r, p.Fresh rules issuer source target r ∧
        rules.territory.owner target ≠ rules.territory.localId ∧
        (p.evaluate rules issuer source).1.player.transfer = some r := by
  cases p.looked rules issuer source with
  | stays still after =>
    rw [after]
    exact Or.inl rfl
  | moves target route due unasked after =>
    rw [after]
    exact Or.inl rfl
  | departs target issue due installed away idle after =>
    rw [after]
    exact Or.inr ⟨target, _, p.fresh_begun source installed target idle, away, rfl⟩

variable {rules issuer p source} {cell : Cell} {node : String} {status : TransferStatus}

/-- If the route is `crossNode node status`, the node owns the new cell, and the record afterwards
has that status: it is the old one, in progress and not stale, or fresh. -/
theorem crossNode_evaluate
    (left : (p.evaluate rules issuer source).1.left = some (cell, .crossNode node status)) :
    let q := (p.evaluate rules issuer source).1.player
    cell = p.ownedCell ∧ node = rules.territory.owner q.ownedCell ∧
      node ≠ rules.territory.localId ∧ ∃ r, q.transfer = some r ∧ r.status = status ∧
        ((p.transfer = some r ∧ r.status = .inProgress ∧ r.stale rules.now = false) ∨
          p.Fresh rules issuer source q.ownedCell r) := by
  cases p.looked rules issuer source with
  | stays still after =>
    rw [after] at left
    exact absurd left.symm (Option.some_ne_none _)
  | moves target route due unasked after =>
    rw [after] at left ⊢
    obtain ⟨rfl, rfl⟩ := Prod.mk.inj (Option.some.inj left)
    cases unasked with
    | waits away r record waiting =>
      refine ⟨rfl, rfl, away, r, record, rfl, Or.inl ?_⟩
      obtain ⟨old, before, rfl⟩ := Option.map_eq_some_iff.mp record
      -- a move that has failed for waiting too long would not wait any more
      have fresh : old.stale rules.now = false := by
        by_contra stale
        rw [old.expire_of_stale rules.now (eq_true_of_ne_false stale)] at waiting
        exact Bool.false_ne_true waiting
      rw [old.expire_of_not_stale rules.now fresh] at waiting ⊢
      exact ⟨before, old.inFlight_iff.mp waiting, fresh⟩
  | departs target issue due installed away idle after =>
    rw [after] at left ⊢
    obtain ⟨rfl, route⟩ := Prod.mk.inj (Option.some.inj left)
    obtain ⟨rfl, rfl⟩ := Route.crossNode.inj route
    exact ⟨rfl, rfl, away, _, rfl, rfl, Or.inr (p.fresh_begun source installed target idle)⟩

end Player

/-! ### Turns -/

theorem World.record_inj {w : World α} {e e' : HandoverEvent}
    (h : (w.record e).events = (w.record e').events) : e = e' := by
  have newest := congrArg List.head? h
  simpa [record, eventCapacity] using newest

/-- One visit of a pass in a run. -/
structure Turn (σ α : Type) where
  earlier : List (Operation σ α)
  now : Time
  dt : Span
  ids : List String
  id : String

namespace Turn

/-- The operations up to and including the step of the turn. -/
def upTo (t : Turn σ α) : List (Operation σ α) := t.earlier ++ [.step t.now t.dt]

variable [Angular α] (start : Host σ α) (t : Turn σ α)

def host : Host σ α := start.run t.earlier

def rules : HandoverRules α := (t.host start).engine.handoverRules t.now

/-- The pass after the visits to `t.ids`, which the turn finds. -/
def before : World.HandoverPass σ α :=
  t.ids.foldl (World.visitPlayer (t.rules start) (t.host start).issuer)
    ⟨{ (t.host start).world with tick := (t.host start).world.tick + 1 }.integrate t.dt.seconds,
      (t.host start).source, 0⟩

/-- The pass after the visit to `t.id`. -/
def after : World.HandoverPass σ α :=
  World.visitPlayer (t.rules start) (t.host start).issuer (t.before start) t.id

/-- The turn belongs to the run: its operations are a prefix of `os`, and its ids of the ids in the
world. -/
def In (os : List (Operation σ α)) : Prop :=
  t.upTo <+: os ∧ t.ids ++ [t.id] <+: (t.host start).world.players.keys

/-- The visit commits a change of cells and records `e`. -/
def Commits (e : HandoverEvent) : Prop :=
  (t.after start).committed = (t.before start).committed + 1 ∧
    (t.after start).world.events = ((t.before start).world.record e).events

variable {start t} {os : List (Operation σ α)}

theorem In.mono (ht : t.In start os) (os' : List (Operation σ α)) : t.In start (os ++ os') :=
  ⟨ht.1.trans (List.prefix_append os os'), ht.2⟩

/-- In its step, the turn is the only visit to `t.id`. -/
theorem In.alone (ht : t.In start os) :
    ∃ rest, (t.host start).world.players.keys = t.ids ++ t.id :: rest ∧ t.id ∉ t.ids ∧
      t.id ∉ rest := by
  obtain ⟨rest, keys⟩ := ht.2
  rw [List.append_assoc, List.singleton_append] at keys
  have once : (t.ids ++ t.id :: rest).Nodup := keys ▸ Std.TreeMap.nodup_keys
  have apart := List.nodup_append.mp once
  refine ⟨rest, keys.symm, fun listed => ?_, (List.nodup_cons.mp apart.2.1).1⟩
  exact apart.2.2 t.id listed t.id List.mem_cons_self rfl

/-- The turn finds the player where `integrate` has moved it. -/
theorem In.player_before (ht : t.In start os) :
    (t.before start).world.players[t.id]? =
      (t.host start).world.players[t.id]?.map fun p => p.integrated t.dt.seconds := by
  obtain ⟨rest, -, new, -⟩ := ht.alone
  rw [before, World.players_foldl_visitPlayer _ _ _ _ new, World.players_integrate]

/-- The turn finds the record from before the step. -/
theorem In.record_before (ht : t.In start os) {p : Player α}
    (found : (t.before start).world.players[t.id]? = some p) :
    (t.host start).record? t.id = p.transfer := by
  rw [ht.player_before] at found
  obtain ⟨p₀, hp₀, rfl⟩ := Option.map_eq_some_iff.mp found
  rw [Host.record?, hp₀]
  rfl

theorem player_after (start : Host σ α) (t : Turn σ α) :
    (t.after start).world.players[t.id]? = (t.before start).world.players[t.id]?.map fun p =>
      (p.evaluate (t.rules start) (t.host start).issuer (t.before start).source).1.player := by
  rw [after, World.players_visitPlayer, if_pos rfl]

/-- What the turn makes of its player is what the step makes of it. -/
theorem In.player_perform (ht : t.In start os) :
    ((t.host start).perform (.step t.now t.dt)).world.players[t.id]? =
      (t.after start).world.players[t.id]? := by
  obtain ⟨rest, keys, -, onlyOnce⟩ := ht.alone
  obtain ⟨players, -⟩ := (t.host start).step_pass t.now t.dt
  have all : (({ (t.host start).engine.world with
      tick := (t.host start).engine.world.tick + 1 }.integrate t.dt.seconds).players).keys =
      t.ids ++ t.id :: rest := Std.TreeMap.keys_map.trans keys
  rw [players, World.evaluate, all, List.foldl_append, List.foldl_cons]
  exact World.players_foldl_visitPlayer _ _ _ _ onlyOnce

theorem In.perform_crossing (ht : t.In start os) :
    (t.host start).world.crossing? ((t.host start).perform (.step t.now t.dt)).world
        (t.host start).routeOf t.id =
      (t.before start).world.crossing? (t.after start).world (t.host start).routeOf t.id := by
  refine World.crossing_congr ?_ ht.player_perform ?_
  · rw [World.playerHome?, World.playerHome?, ht.player_before, Option.map_map]
    rfl
  · obtain ⟨-, -, tick⟩ := (t.host start).step_crossings t.now t.dt
    rw [tick, after, World.tick_visitPlayer, before, World.tick_foldl_visitPlayer]
    rfl

/-- A turn commits `e` iff the crossing of `t.id` between the two passes is `e`. -/
theorem commits_iff (e : HandoverEvent) :
    t.Commits start e ↔ (t.before start).world.crossing? (t.after start).world
      (t.host start).routeOf t.id = some e := by
  have found := t.player_after start
  have tick : (t.after start).world.tick = (t.before start).world.tick :=
    World.tick_visitPlayer _ _ _ _
  unfold Commits World.crossing?
  rw [found, tick]
  cases hp : (t.before start).world.players[t.id]? with
  | none =>
    have same : t.after start = t.before start := by simp only [after, World.visitPlayer, hp]
    rw [same]
    exact iff_of_false (fun counted => Nat.succ_ne_self _ counted.1.symm)
      (Option.some_ne_none e).symm
  | some p =>
    let looked := (p.evaluate (t.rules start) (t.host start).issuer (t.before start).source).1
    have left : looked.left = if p.ownedCell = looked.player.ownedCell then none
        else some (p.ownedCell, (t.host start).routeOf looked.player) :=
      p.left_evaluate (t.rules start) (t.host start).issuer (t.before start).source
    have visited : t.after start = ⟨(t.before start).world.settlePlayer t.id looked,
        (t.after start).source, if looked.left.isSome then (t.before start).committed + 1
          else (t.before start).committed⟩ := by
      simp only [after, World.visitPlayer, hp, looked]
    rw [visited, Option.map_some]
    show _ ↔ (if p.ownedCell = looked.player.ownedCell then none else _) = _
    by_cases stays : p.ownedCell = looked.player.ownedCell
    · rw [left, if_pos stays, if_pos stays]
      exact iff_of_false (fun counted => Nat.succ_ne_self _ counted.1.symm)
        (Option.some_ne_none e).symm
    · rw [World.settlePlayer, left, if_neg stays, if_neg stays]
      refine ⟨fun counted => ?_, fun same => ?_⟩
      · exact congrArg some (World.record_inj counted.2)
      · obtain rfl := Option.some.inj same
        exact ⟨rfl, rfl⟩

/-- A committed event has the fields of the evaluation. -/
theorem Commits.looked {e : HandoverEvent} (h : t.Commits start e) :
    ∃ p, (t.before start).world.players[t.id]? = some p ∧
      let looked := (p.evaluate (t.rules start) (t.host start).issuer (t.before start).source).1
      (t.after start).world.players[t.id]? = some looked.player ∧ e.player = t.id ∧
        e.target = looked.player.ownedCell ∧ looked.left = some (e.source, e.route) := by
  have crossing := (commits_iff e).mp h
  have found := t.player_after start
  unfold World.crossing? at crossing
  rw [found] at crossing ⊢
  cases hp : (t.before start).world.players[t.id]? with
  | none =>
    rw [hp] at crossing
    exact absurd crossing (Option.some_ne_none e).symm
  | some p =>
    refine ⟨p, rfl, rfl, ?_⟩
    rw [hp, Option.map_some] at crossing
    have left := p.left_evaluate (t.rules start) (t.host start).issuer (t.before start).source
    obtain ⟨moved, same⟩ := Option.ite_none_left_eq_some.mp crossing
    obtain rfl := Option.some.inj same
    exact ⟨rfl, rfl, left.trans (if_neg moved)⟩

end Turn

/-! ### Events and tokens of a run -/

namespace Host

variable [Angular α] (start : Host σ α)

/-- Every player in the world has a turn in the next step. -/
theorem exists_turn (os : List (Operation σ α)) (now : Time) (dt : Span) {id : String}
    (there : id ∈ (start.run os).world.players.keys) :
    ∃ t : Turn σ α, t.In start (os ++ [.step now dt]) ∧ t.earlier = os ∧ t.now = now ∧ t.dt = dt ∧
      t.id = id := by
  obtain ⟨ids, rest, keys⟩ := List.append_of_mem there
  refine ⟨⟨os, now, dt, ids, id⟩, ⟨List.prefix_rfl, ?_⟩, rfl, rfl, rfl, rfl⟩
  show ids ++ [id] <+: (start.run os).world.players.keys
  exact ⟨rest, by rw [keys, List.append_assoc, List.singleton_append]⟩

/-- The events told by single operations are those committed at turns. -/
theorem mem_tell_iff (os : List (Operation σ α)) (e : HandoverEvent) :
    .committed e ∈ start.tell os ↔ ∃ t : Turn σ α, t.In start os ∧ t.Commits start e := by
  constructor
  · intro told
    induction os using List.reverseRecOn with
    | nil => exact absurd told List.not_mem_nil
    | append_singleton os o ih =>
      rw [tell_append, List.mem_append] at told
      rcases told with old | new
      · obtain ⟨t, ht, commits⟩ := ih old
        exact ⟨t, ht.mono [o], commits⟩
      · rw [tell, tell, List.append_nil] at new
        cases o with
        | step now dt =>
          obtain ⟨e', crossed, same⟩ := List.mem_map.mp new
          obtain rfl := Entry.committed.inj same
          obtain ⟨id, there, crossing⟩ := List.mem_filterMap.mp crossed
          obtain ⟨t, ht, rfl, rfl, rfl, rfl⟩ := start.exists_turn os now dt there
          exact ⟨t, ht, (Turn.commits_iff e').mpr (ht.perform_crossing.symm.trans crossing)⟩
        | _ => simp [entries] at new
  · rintro ⟨t, ht, commits⟩
    obtain ⟨rest, keys, -⟩ := ht.alone
    obtain ⟨later, rfl⟩ := ht.1
    rw [Turn.upTo, tell_append, tell_append, List.mem_append, List.mem_append]
    refine Or.inl (Or.inr (List.mem_append_left _ (List.mem_map_of_mem ?_)))
    refine List.mem_filterMap.mpr ⟨t.id, ?_, ?_⟩
    · exact keys ▸ List.mem_append_right _ List.mem_cons_self
    · exact ht.perform_crossing.trans ((Turn.commits_iff e).mp commits)

end Host

namespace Turn

variable [Angular α] {start : Host σ α} {t : Turn σ α}

variable (start t) in
/-- The token of `r` was minted at the turn, for `r.target` and `r.toCell`, when that node owned
that cell. -/
def Mints (r : TransferRecord) : Prop :=
  r.target = (t.host start).engine.territory.owner r.toCell ∧ r.startedAt = t.now ∧
    ∃ issue p token, (t.host start).issuer = some issue ∧
      (t.before start).world.players[t.id]? = some p ∧
      (issue p.payload r.target r.toCell (t.before start).source).1 = .ok token ∧
      r.token = some token

/-- Status and error are not part of `Mints`. -/
theorem Mints.sameMove {r r' : TransferRecord} (h : t.Mints start r) (same : r.SameMove r') :
    t.Mints start r' := by
  rw [same]
  exact h

/-- A fresh record with a token has it from this turn. -/
theorem mints_of_fresh {p : Player α} {target : Cell} {r : TransferRecord}
    (found : (t.before start).world.players[t.id]? = some p)
    (fresh : p.Fresh (t.rules start) (t.host start).issuer (t.before start).source target r)
    (minted : r.token ≠ none) : t.Mints start r := by
  obtain ⟨-, issue, installed, rfl⟩ := fresh
  generalize asked : (issue p.payload ((t.rules start).territory.owner target) target
    (t.before start).source).1 = outcome at minted ⊢
  cases outcome with
  | error fault => exact absurd rfl minted
  | ok token => exact ⟨rfl, rfl, issue, p, token, installed, found, asked, rfl⟩

end Turn

/-- Induction on the operations: a record is fresh at some turn, or about the same move as the one
before. -/
theorem Host.exists_turn_of_token [Angular α] {start : Host σ α} {id : String}
    (new : start.record? id = none) (os : List (Operation σ α))
    (singles : ∀ o ∈ os, ∀ clock, o ≠ .ticks clock) {r : TransferRecord}
    (hr : (start.run os).record? id = some r) (token : r.token ≠ none) :
    ∃ t : Turn σ α, t.In start os ∧ t.id = id ∧ t.Mints start r := by
  induction os using List.reverseRecOn generalizing r with
  | nil => exact absurd (hr.symm.trans new) (Option.some_ne_none r)
  | append_singleton os o ih =>
    -- a record of a move that has not started now
    have kept {r₀ : TransferRecord} (before : (start.run os).record? id = some r₀)
        (same : r₀.SameMove r) : ∃ t : Turn σ α, t.In start (os ++ [o]) ∧ t.id = id ∧
          t.Mints start r := by
      have token₀ : r₀.token ≠ none := by
        rw [same] at token
        exact token
      obtain ⟨t, ht, here, mints⟩ :=
        ih (fun o' ho' => singles o' (List.mem_append_left _ ho')) before token₀
      exact ⟨t, ht.mono [o], here, mints.sameMove same⟩
    rw [run_append] at hr
    have single := singles o (List.mem_append_right _ List.mem_cons_self)
    cases o with
    | step now dt =>
      obtain ⟨q, hq, record⟩ := Option.bind_eq_some_iff.mp hr
      have there : id ∈ (start.run os).world.players.keys := by
        rw [Std.TreeMap.mem_keys, ← (start.run os).mem_players_step now dt id,
          Std.TreeMap.mem_iff_isSome_getElem?]
        exact Option.isSome_iff_exists.mpr ⟨q, hq⟩
      obtain ⟨t, ht, rfl, rfl, rfl, rfl⟩ := start.exists_turn os now dt there
      have after := ht.player_perform.symm.trans hq
      rw [t.player_after start] at after
      obtain ⟨p, found, rfl⟩ := Option.map_eq_some_iff.mp after
      rcases p.transfer_evaluate (t.rules start) (t.host start).issuer (t.before start).source with
        old | ⟨target, r', fresh, -, begun⟩
      · rw [old] at record
        obtain ⟨r₀, before, rfl⟩ := Option.map_eq_some_iff.mp record
        exact kept ((ht.record_before found).trans before) (r₀.sameMove_expire t.now)
      · obtain rfl := Option.some.inj (begun.symm.trans record)
        exact ⟨t, ht, rfl, Turn.mints_of_fresh found fresh token⟩
    | ticks clock => exact absurd rfl (single clock)
    | _ =>
      obtain ⟨r₀, before, same⟩ := (start.run os).sameMove_of_not_begins single rfl hr
      exact kept before same

/-! ### Events and records of a run -/

section Whole

variable [Angular α]

/-- An event is in the chronicle of a run iff some turn commits it. If its route is
`crossNode node status`, then `node` owns `e.target` and is not local, and the player has a record
`r` with that status after the turn and after the step. Either `r` was there before the step, in
progress and not older than 30 s, whatever it names; or none was in progress, and `r` is `begun` for
`node` and `e.target` with the outcome of the issuer for these. If `status = .inProgress`, the token
of `r` was minted at a turn up to this one, for the node and cell that `r` names. -/
theorem events_tell_of_moves (settings : Settings α) (chance : Random) (source : σ)
    (os : List (Operation σ α)) :
    let start := Host.create settings chance source
    (∀ e, .committed e ∈ start.chronicle os ↔
      ∃ t : Turn σ α, t.In start (start.singly os) ∧ t.Commits start e) ∧
    ∀ (t : Turn σ α) e node status, t.In start (start.singly os) → t.Commits start e →
      e.route = .crossNode node status →
      let h := t.host start
      e.player = t.id ∧ node = h.engine.territory.owner e.target ∧
      node ≠ h.engine.territory.localId ∧
      ∃ p q r, (t.before start).world.players[t.id]? = some p ∧
        (t.after start).world.players[t.id]? = some q ∧ q.ownedCell = e.target ∧
        q.transfer = some r ∧ (h.perform (.step t.now t.dt)).record? t.id = some r ∧
        r.status = status ∧
        ((h.record? t.id = some r ∧ r.status = .inProgress ∧
            t.now ≤ r.startedAt.after (.ofSeconds 30)) ∨
          ((∀ old, h.record? t.id = some old → (old.expire t.now).status ≠ .inProgress) ∧
            r.target = node ∧ r.fromCell = e.source ∧ r.toCell = e.target ∧
            r.startedAt = t.now ∧ ∃ issue, h.issuer = some issue ∧
              r = p.begun node e.target t.now
                (issue p.payload node e.target (t.before start).source).1)) ∧
        (status = .inProgress → ∃ t' : Turn σ α, t'.In start t.upTo ∧ t'.id = t.id ∧
          t'.Mints start r) := by
  intro start
  refine ⟨fun e => start.mem_tell_iff _ e, fun t e node status ht commits route => ?_⟩
  obtain ⟨p, found, after, player, target, left⟩ := commits.looked
  rw [route] at left
  obtain ⟨origin, owned, away, r, record, rfl, cause⟩ := Player.crossNode_evaluate left
  rw [← target] at owned cause
  have before := ht.record_before found
  have later : ((t.host start).perform (.step t.now t.dt)).record? t.id = some r := by
    rw [Host.record?, ht.player_perform, after]
    exact record
  refine ⟨player, owned, away, p, _, r, found, after, target.symm, record, later, rfl, ?_, ?_⟩
  · rcases cause with ⟨had, waiting, fresh⟩ | fresh
    · refine Or.inl ⟨before.trans had, waiting, ?_⟩
      by_contra late
      have stale := (r.stale_iff t.now).mpr ⟨waiting, Int.not_le.mp late⟩
      exact Bool.false_ne_true (fresh.symm.trans stale)
    · obtain ⟨idle, issue, installed, begun⟩ := fresh
      rw [before]
      rw [origin, owned]
      obtain ⟨named, left, entered, clock⟩ := p.begun_tells _ e.target t.now _ begun
      exact Or.inr ⟨idle, named, left, entered, clock, issue, installed, begun⟩
  · intro waiting
    have run : start.run t.upTo = (t.host start).perform (.step t.now t.dt) :=
      start.run_append t.earlier _
    rw [← run] at later
    refine Host.exists_turn_of_token ?_ t.upTo ?_ later ?_
    · simp [start, Host.record?]
    · intro o ho
      exact (Host.of_mem_singly (ht.1.subset ho)).1
    · intro lost
      have coherent : (start.run t.upTo).Coherent := Host.coherent_run settings chance source t.upTo
      have failed := (coherent t.id r later).token lost
      exact absurd (failed.symm.trans waiting) (by decide)

/-- A node between cells of two other nodes, before any operation. -/
def between : Host Nat ℚ := Host.create tenMetres (.ofSeed 1) 0

/-- A player comes into the cell of `b`, and thirty seconds later into that of `c`. -/
def onward : Turn Nat ℚ where
  earlier := [.assign ⟨1, 0⟩ "b", .assign ⟨2, 0⟩ "c",
    .install fun _ _ _ n => (.ok (if n = 0 then "first" else "second"), n + 1),
    .upsert "p1" "one" ⟨9, 0, 5⟩ ⟨3, 0, 0⟩, .step ⟨0⟩ (.ofSeconds 1)]
  now := ⟨30000000000⟩
  dt := .ofSeconds 4
  ids := []
  id := "p1"

def enteredSecond : HandoverEvent := ⟨"p1", ⟨1, 0⟩, ⟨2, 0⟩, 2, .crossNode "c" .inProgress⟩

theorem onward_in : onward.In between (between.singly onward.upTo) :=
  ⟨List.prefix_rfl, by decide +kernel⟩

theorem onward_commits : onward.Commits between enteredSecond :=
  (Turn.commits_iff enteredSecond).mpr (by decide +kernel)

/-- The first move still waits at thirty seconds: the event names `c`, and the record `b` with token
`"first"`, the only one minted. -/
theorem event_and_record_disagree :
    onward.In between (between.singly onward.upTo) ∧ onward.Commits between enteredSecond ∧
      ∃ r, (onward.after between).world.players["p1"]?.bind Player.transfer = some r ∧
        enteredSecond.route = .crossNode "c" .inProgress ∧ r.target = "b" ∧ r.toCell = ⟨1, 0⟩ ∧
        enteredSecond.target = ⟨2, 0⟩ ∧ r.token = some "first" ∧ (onward.after between).source = 1 := by
  refine ⟨onward_in, onward_commits, ⟨"b", ⟨0, 0⟩, ⟨1, 0⟩, .inProgress, ⟨0⟩, some "first", none⟩, ?_⟩
  decide +kernel

/-- The conclusion of `events_tell_of_moves` for this turn: the token of the record was minted at an
earlier one. -/
theorem onward_token_was_minted :
    ∃ r, ((onward.host between).perform (.step onward.now onward.dt)).record? "p1" = some r ∧
      r.status = .inProgress ∧
      ∃ t : Turn Nat ℚ, t.In between onward.upTo ∧ t.id = "p1" ∧ t.Mints between r := by
  obtain ⟨-, told⟩ := events_tell_of_moves tenMetres (.ofSeed 1) 0 onward.upTo
  obtain ⟨-, -, -, p, q, r, -, -, -, -, record, waiting, -, minted⟩ :=
    told onward enteredSecond "c" .inProgress onward_in onward_commits rfl
  exact ⟨r, record, waiting, minted rfl⟩

end Whole

end CellWorld
