import CellWorld.Proofs.Change
import CellWorld.Proofs.Pass

/-!
# What an operation makes of one player

Players do not see each other: the player of `id` after an operation is a function of that player
before it, and of the state `source` in which the issuer of tokens is found.

* `Player.arrived`, `Player.received`, `Player.integrated` — the players that `upsert`, `receive`
  and `step` make
* `Player.evaluate_stays`, `Player.evaluate_leaves` — `evaluate` where `due?` is `none`, and where
  it is `some target`
* `Host.step_frame`, `Host.step_pass`, `Host.step_induction` — a step acts on players and tokens as
  `evaluate` after `integrate`
* `Operation.onPlayer h source id` — the function of the player of `id`
* `Host.players_perform` —
  `(h.perform o).world.players[id]? = o.onPlayer h source id h.world.players[id]?`
* `Host.mem_players_perform` — `id` is there after `o` iff `o` brings it in, or it was there and `o`
  does not take it out
* `Host.forall_players_run` — what `onPlayer` keeps of every player, a run keeps
* `Host.isOf_player` — after any run the player under `id` has `p.id = id` and `p.kind = .player`

`ticks` makes several steps in one call and is no case of `onPlayer`; `Host.ticks_induction` reduces
it to `step`.
-/

namespace CellWorld

variable {σ α : Type}

/-! ### One player -/

namespace Player

section Changes

variable [Scalar α]

/-- The player after `upsert`: an old one keeps all but `name`, `pos`, `vel` and `ownedCell`. -/
def arrived (before : Option (Player α)) (id name : String) (pos vel : Point α) (cell : Cell) :
    Player α :=
  match before with
  | some old => { old with name, pos, vel, ownedCell := cell }
  | none => World.newPlayer id name pos vel cell

/-- The player after `receive`: as `arrived`, with `yaw` and `lastSeq` of the payload, no transfer,
and as `prevCell` the cell that owned it elsewhere if that is another one. -/
def received (before : Option (Player α)) (d : Payload α) (cell : Cell) : Player α :=
  { arrived before d.id d.name d.pos d.vel cell with
    yaw := d.yaw
    lastSeq := d.lastSeq
    prevCell := if d.ownedCell = cell then none else some d.ownedCell
    transfer := none }

def integrated (p : Player α) (dt : α) : Player α := { p with pos := p.pos.advance p.vel dt }

/-- Whether the record under `id` has this id and the kind of a player. -/
def IsOf (p : Player α) (id : String) : Prop := p.id = id ∧ p.kind = .player

theorem ownedCell_arrived (before : Option (Player α)) (id name : String) (pos vel : Point α)
    (cell : Cell) : (arrived before id name pos vel cell).ownedCell = cell := by
  cases before <;> rfl

end Changes

section Evaluate

variable [Scalar α] {rules : HandoverRules α} (issuer : Option (Issuer σ α)) (p : Player α)
  (source : σ)

/-- If `due?` is `none`, `evaluate` only settles: it fails a stale transfer and touches no cell. -/
theorem evaluate_stays (h : p.due? rules = none) :
    p.evaluate rules issuer source = (⟨p.settle rules.now, none⟩, source) := by
  have hs : (p.settle rules.now).due? rules = none := h
  unfold evaluate
  simp only [hs]

/-- If `due?` is `some target`, the player is owned by `target`, with the cell it leaves as
`prevCell`, and the transfer is that of `depart`. -/
theorem evaluate_leaves {target : Cell} (h : p.due? rules = some target) :
    ∃ route transfer source',
      (p.settle rules.now).depart rules issuer target source = (route, transfer, source') ∧
      p.evaluate rules issuer source =
        (⟨{ p.settle rules.now with
            ownedCell := target, prevCell := some p.ownedCell, handedOver := true, transfer },
          some (p.ownedCell, route)⟩, source') := by
  have hs : (p.settle rules.now).due? rules = some target := h
  refine ⟨_, _, _, rfl, ?_⟩
  unfold evaluate
  simp only [hs]
  rfl

variable (rules)

/-- Evaluation changes `ownedCell` to `target` where the player is due, and leaves the `Entity`. -/
theorem kept_evaluate :
    (p.evaluate rules issuer source).1.player.toEntity = p.toEntity ∧
      (p.evaluate rules issuer source).1.player.ownedCell = (p.due? rules).getD p.ownedCell := by
  cases h : p.due? rules with
  | none => rw [evaluate_stays issuer p source h]; exact ⟨rfl, rfl⟩
  | some target =>
    obtain ⟨route, transfer, source', -, he⟩ := evaluate_leaves issuer p source h
    rw [he]
    exact ⟨rfl, rfl⟩

end Evaluate

end Player

/-! ### The player of an id in a world -/

namespace World

theorem players_commit (w : World α) (id k : String) (source : Cell) (p : Player α) :
    (w.commit id source p).players[k]? = if id = k then some p else w.players[k]? := by
  exact lookup_insert w.players id k p

theorem players_amend (w : World α) (id k : String) (f : Player α → Player α) :
    ((w.amend? id f).getD w).players[k]? =
      if id = k then w.players[k]?.map f else w.players[k]? := by
  cases h : w.players[id]? with
  | none =>
    rw [amend?, h, change_absent h]
    rfl
  | some p =>
    rw [amend?, h, change_present h]
    exact lookup_insert w.players id k (f p)

theorem players_remove (w : World α) (id k : String) :
    ((w.remove? id).getD w).players[k]? = if id = k then none else w.players[k]? := by
  cases h : w.players[id]? with
  | none =>
    rw [remove?, h]
    by_cases hk : id = k
    · rw [if_pos hk, ← hk]
      exact h
    · rw [if_neg hk]
      rfl
  | some p =>
    rw [remove?, h]
    exact lookup_erase w.players id k

section Placing

variable [Scalar α]

theorem upsert_fst (w : World α) (id name : String) (pos vel : Point α) (size : α) :
    (w.upsert id name pos vel size).1 =
      Player.arrived w.players[id]? id name pos vel (Cell.containing pos size) := by
  cases h : w.players[id]? <;> simp only [upsert, h, Player.arrived]

theorem players_upsert (w : World α) (id name k : String) (pos vel : Point α) (size : α) :
    (w.upsert id name pos vel size).2.players[k]? =
      if id = k then
        some (Player.arrived w.players[k]? id name pos vel (Cell.containing pos size))
      else w.players[k]? := by
  cases h : w.players[id]? with
  | none =>
    simp only [upsert, h, lookup_insert]
    split
    · next hk => rw [← hk, h]; rfl
    · rfl
  | some old =>
    simp only [upsert, h, players_commit]
    split
    · next hk => rw [← hk, h]; rfl
    · rfl

theorem players_place (w : World α) (id k : String) (pos : Point α) (size : α) :
    ((w.place? id pos size).getD w).players[k]? =
      if id = k then
        w.players[k]?.map fun p => { p with pos, ownedCell := Cell.containing pos size }
      else w.players[k]? := by
  cases h : w.players[id]? with
  | none =>
    rw [place?, h, change_absent h]
    rfl
  | some old =>
    rw [place?, h, change_present h]
    exact players_commit w id k old.ownedCell _

theorem players_integrate (w : World α) (dt : α) (k : String) :
    (w.integrate dt).players[k]? = w.players[k]?.map fun p => p.integrated dt := by
  simp only [integrate, Std.TreeMap.getElem?_map, Player.integrated]

end Placing

end World

/-! ### The player of an id in a host -/

theorem Engine.players_amendIf (e : Engine α) (key id : String) (c : Player α → Prop)
    [DecidablePred c] (f : Player α → Player α) :
    (e.amendIf key c f).2.world.players[id]? =
      if key = id then e.world.players[id]?.map fun p => if c p then f p else p
      else e.world.players[id]? := by
  unfold amendIf
  split
  · next p hp =>
    rw [change_present hp]
    split
    · rw [world_attempt, World.players_amend, change_present hp]
    · by_cases hk : key = id
      · rw [if_pos hk, ← hk]
        exact hp
      · rw [if_neg hk]
  · next hp => rw [change_absent hp]

namespace Operation

variable [Angular α]

/-- The player of `id` after an operation, from the player before. Operations that name another id,
and those that are not about players, are the identity. The steps of `ticks` are left to
`Host.ticks_induction`. -/
def onPlayer (h : Host σ α) (source : σ) (id : String) (before : Option (Player α)) :
    Operation σ α → Option (Player α)
  | upsert key name pos vel =>
    if key = id then
      some (.arrived before key name pos vel (.containing pos h.engine.settings.cellSize))
    else before
  | spawn key name pos =>
    if key = id then
      some (.arrived before key name pos .zero (.containing pos h.engine.settings.cellSize))
    else before
  | remove key => if key = id then none else before
  | setVelocity key vel => if key = id then before.map fun p => { p with vel } else before
  | setConnection key connection =>
    if key = id then before.map fun p => { p with connection } else before
  | acknowledge key seq =>
    if key = id then before.map fun p => if p.lastSeq < seq then { p with lastSeq := seq } else p
    else before
  | step now dt =>
    before.map fun p =>
      ((p.integrated dt.seconds).evaluate (h.engine.handoverRules now) h.issuer source).1.player
  | receive d =>
    if d.id = id then some (.received before d (.containing d.pos h.engine.settings.cellSize))
    else before
  | resolve key reply =>
    if key = id then before.map fun p =>
      if p.inFlight then { p with transfer := p.transfer.map fun r => r.answered reply } else p
    else before
  | restore key saved templates =>
    if key = id then before.map fun p =>
      match saved.loadout? templates with
      | .ok loadout =>
        { p with pos := saved.pos, loadout
                 ownedCell := .containing saved.pos h.engine.settings.cellSize }
      | .error _ => p
    else before
  | _ => before

end Operation

namespace Host

variable [Angular α]

/-- A function `f` that is blind to what `wander` and `catchUp` write has, after a step, its value
after `evaluate`. -/
theorem step_frame {β : Type} (f : World α → β)
    (blind : ∀ (w : World α) bots cells random botsNamed densityDebt,
      f { w with bots, cells, random, botsNamed, densityDebt } = f w)
    (h : Host σ α) (now : Time) (dt : Span) :
    let moved := { h.engine.world with tick := h.engine.world.tick + 1 }.integrate (dt.seconds : α)
    let pass := moved.evaluate (h.engine.handoverRules now) h.issuer h.source
    f (h.perform (.step now dt)).world = f pass.world := by
  intro moved pass
  have caught : f (h.perform (.step now dt)).world =
      f (pass.world.wander h.engine.settings.cellSize dt.seconds) :=
    (World.botKept_frame f (fun w _ _ _ _ => blind w _ _ _ _ w.densityDebt) h.engine.botRules
      _).catchUp (fun w densityDebt hw => (blind w w.bots w.cells w.random w.botsNamed _).trans hw)
      _ _ rfl
  exact caught.trans (World.wander_frame f _ _ _ fun w _ _ =>
    blind w _ w.cells _ w.botsNamed w.densityDebt)

/-- The fields `players` and `source` after a step are those after `integrate` and `evaluate`: bots
take no part. -/
theorem step_pass (h : Host σ α) (now : Time) (dt : Span) :
    let moved := { h.engine.world with tick := h.engine.world.tick + 1 }.integrate (dt.seconds : α)
    let pass := moved.evaluate (h.engine.handoverRules now) h.issuer h.source
    (h.perform (.step now dt)).world.players = pass.world.players ∧
      (h.perform (.step now dt)).source = pass.source :=
  ⟨step_frame World.players (fun _ _ _ _ _ _ => rfl) h now dt, rfl⟩

/-- Invariant of a step: if `P players source` holds once everybody has moved, and survives the
evaluation of one player, it holds after the step. -/
theorem step_induction {P : Std.TreeMap String (Player α) → σ → Prop} (h : Host σ α) (now : Time)
    (dt : Span)
    (start : P (h.world.players.map fun _ p => Player.integrated p dt.seconds) h.source)
    (kept : ∀ players id p source, players[id]? = some p → P players source →
      P (players.insert id (p.evaluate (h.engine.handoverRules now) h.issuer source).1.player)
        (p.evaluate (h.engine.handoverRules now) h.issuer source).2) :
    P (h.perform (.step now dt)).world.players (h.perform (.step now dt)).source := by
  obtain ⟨players, source⟩ := h.step_pass now dt
  rw [players, source]
  refine World.pass_induction (P := fun w source => P w.players source) _ _ _ _ start ?_
  intro w id p source hp hP
  rw [World.settlePlayer_players]
  exact kept w.players id p source hp hP

theorem players_step (h : Host σ α) (now : Time) (dt : Span) (id : String) :
    ∃ source, (h.perform (.step now dt)).world.players[id]? =
      (Operation.step now dt).onPlayer h source id h.world.players[id]? := by
  let moved := { h.engine.world with tick := h.engine.world.tick + 1 }.integrate (dt.seconds : α)
  obtain ⟨source, looked⟩ :=
    World.players_evaluate (h.engine.handoverRules now) h.issuer moved h.source id
  refine ⟨source, ?_⟩
  rw [(h.step_pass now dt).1, looked]
  show Option.map _ moved.players[id]? = Option.map _ h.engine.world.players[id]?
  rw [World.players_integrate, Option.map_map]
  rfl

theorem players_receive (h : Host σ α) (d : Payload α) (id : String) :
    (h.perform (.receive d)).world.players[id]? =
      (Operation.receive d).onPlayer h h.source id h.world.players[id]? := by
  show (h.engine.receive d).2.world.players[id]? =
    if d.id = id then
      some (.received h.engine.world.players[id]? d
        (.containing d.pos h.engine.settings.cellSize))
    else h.engine.world.players[id]?
  simp only [Engine.receive, lookup_insert, World.players_upsert, World.upsert_fst,
    Player.received, Player.ownedCell_arrived]
  split
  · next hk => rw [← hk]
  · rfl

theorem players_restore (h : Host σ α) (key id : String) (saved : SavedPlayer α)
    (templates : List String) :
    (h.perform (.restore key saved templates)).world.players[id]? =
      (Operation.restore key saved templates).onPlayer h h.source id h.world.players[id]? := by
  rw [world_restore]
  simp only [Operation.onPlayer]
  cases saved.loadout? templates with
  | error e =>
    simp only [Option.map_id']
    split <;> rfl
  | ok loadout =>
    simp only [World.players_amend, World.players_place]
    split
    · rw [Option.map_map]
      rfl
    · rfl

/-- The player of `id` after an operation depends on `h.world.players[id]?` alone, and on some state
`source` of the issuer. -/
theorem players_perform (h : Host σ α) (o : Operation σ α) (single : ∀ clock, o ≠ .ticks clock)
    (id : String) :
    ∃ source, (h.perform o).world.players[id]? = o.onPlayer h source id h.world.players[id]? := by
  cases o with
  | upsert key name pos vel => exact ⟨h.source, World.players_upsert _ key name id pos vel _⟩
  | spawn key name pos => exact ⟨h.source, World.players_upsert _ key name id pos .zero _⟩
  | remove key =>
    refine ⟨h.source, ?_⟩
    show (h.engine.attempt _).2.world.players[id]? = _
    rw [Engine.world_attempt, World.players_remove]
    rfl
  | setVelocity key vel =>
    refine ⟨h.source, ?_⟩
    show (h.engine.attempt _).2.world.players[id]? = _
    rw [Engine.world_attempt, World.players_amend]
    rfl
  | setConnection key connection =>
    refine ⟨h.source, ?_⟩
    show (h.engine.attempt _).2.world.players[id]? = _
    rw [Engine.world_attempt, World.players_amend]
    rfl
  | acknowledge key seq => exact ⟨h.source, h.engine.players_amendIf key id _ _⟩
  | step now dt => exact players_step h now dt id
  | ticks clock => exact absurd rfl (single clock)
  | receive d => exact ⟨h.source, players_receive h d id⟩
  | resolve key reply => exact ⟨h.source, h.engine.players_amendIf key id _ _⟩
  | restore key saved templates => exact ⟨h.source, players_restore h key id saved templates⟩
  | interest pos radius exclude =>
    refine ⟨h.source, ?_⟩
    show (h.engine.interest pos radius exclude).2.world.players[id]? = _
    unfold Engine.interest
    split <;> rfl
  | maintainDensity =>
    refine ⟨h.source, ?_⟩
    show (h.engine.world.maintainDensity h.engine.botRules).world.players[id]? = _
    rw [(World.botKept_frame World.players (fun _ _ _ _ _ => rfl) h.engine.botRules
      _).maintainDensity h.engine.world rfl]
    rfl
  | _ => exact ⟨h.source, rfl⟩

/-! ### Who is in the world -/

/-- The function `onPlayer` leaves a player behind iff `joins?` names it, or it was there and
`leaves?` does not. -/
theorem isSome_onPlayer (h : Host σ α) (source : σ) (id : String) (before : Option (Player α))
    (o : Operation σ α) :
    (o.onPlayer h source id before).isSome ↔
      o.joins? = some id ∨ (before.isSome ∧ o.leaves? ≠ some id) := by
  cases o <;> simp only [Operation.onPlayer, Operation.joins?, Operation.leaves?] <;>
    (try split) <;> simp_all

/-- The ids in the world after an operation: those that `joins?` names, and those before less the
ones that `leaves?` names. -/
theorem mem_players_perform (h : Host σ α) (o : Operation σ α) (id : String) :
    id ∈ (h.perform o).world.players ↔
      o.joins? = some id ∨ (id ∈ h.world.players ∧ o.leaves? ≠ some id) := by
  have single (h : Host σ α) (o : Operation σ α) (ho : ∀ clock, o ≠ .ticks clock) :
      id ∈ (h.perform o).world.players ↔
        o.joins? = some id ∨ (id ∈ h.world.players ∧ o.leaves? ≠ some id) := by
    obtain ⟨source, after⟩ := players_perform h o ho id
    rw [Std.TreeMap.mem_iff_isSome_getElem?, Std.TreeMap.mem_iff_isSome_getElem?, after,
      isSome_onPlayer]
  cases o with
  | ticks clock =>
    have stays : id ∈ (h.perform (.ticks clock)).world.players ↔ id ∈ h.world.players :=
      ticks_induction (P := fun h' => id ∈ h'.world.players ↔ id ∈ h.world.players) h clock Iff.rfl
        fun h' now dt hh => ((single h' (.step now dt) (by simp)).trans
          (by simp [Operation.joins?, Operation.leaves?])).trans hh
    simpa [Operation.joins?, Operation.leaves?] using stays
  | _ => exact single h _ (by simp)

/-- A step keeps the set of ids. -/
theorem mem_players_step (h : Host σ α) (now : Time) (dt : Span) (id : String) :
    id ∈ (h.perform (.step now dt)).world.players ↔ id ∈ h.world.players := by
  simpa [Operation.joins?, Operation.leaves?] using h.mem_players_perform (.step now dt) id

/-! ### What a run keeps of every player -/

/-- If `onPlayer` keeps `Q id`, every player of a run has it. Induction on the operations, with
`ticks` split into its steps. -/
theorem forall_players_run {Q : String → Player α → Prop} (os : List (Operation σ α)) (h : Host σ α)
    (start : ∀ id p, h.world.players[id]? = some p → Q id p)
    (kept : ∀ (h : Host σ α) (o : Operation σ α) source id before q,
      (∀ p, before = some p → Q id p) → o.onPlayer h source id before = some q → Q id q) :
    ∀ id p, (h.run os).world.players[id]? = some p → Q id p := by
  have single (h : Host σ α) (o : Operation σ α) (ho : ∀ clock, o ≠ .ticks clock)
      (hQ : ∀ id p, h.world.players[id]? = some p → Q id p) :
      ∀ id p, (h.perform o).world.players[id]? = some p → Q id p := by
    intro id q hq
    obtain ⟨source, after⟩ := players_perform h o ho id
    exact kept h o source id _ q (hQ id) (after.symm.trans hq)
  refine run_induction (P := fun h' => ∀ id p, h'.world.players[id]? = some p → Q id p) os h start
    ?_
  intro h' hQ o _
  cases o with
  | ticks clock => exact ticks_induction h' clock hQ fun h' now dt hQ => single h' _ (by simp) hQ
  | _ => exact single h' _ (by simp) hQ

theorem isOf_arrived {before : Option (Player α)} {id : String} (name : String) (pos vel : Point α)
    (cell : Cell) (own : ∀ p, before = some p → p.IsOf id) :
    (Player.arrived before id name pos vel cell).IsOf id := by
  cases before with
  | none => exact ⟨rfl, rfl⟩
  | some p => exact own p rfl

theorem isOf_onPlayer (h : Host σ α) (o : Operation σ α) (source : σ) (id : String)
    (before : Option (Player α)) (q : Player α) (own : ∀ p, before = some p → p.IsOf id)
    (hq : o.onPlayer h source id before = some q) : q.IsOf id := by
  -- a change of the player that is there leaves it its id and its kind
  have amended {f : Player α → Player α} (same : ∀ p, p.IsOf id → (f p).IsOf id)
      (hf : before.map f = some q) : q.IsOf id := by
    obtain ⟨p, hp, rfl⟩ := Option.map_eq_some_iff.mp hf
    exact same p (own p hp)
  have amendedAt {key : String} {f : Player α → Player α} (same : ∀ p, p.IsOf id → (f p).IsOf id)
      (hf : (if key = id then before.map f else before) = some q) : q.IsOf id := by
    split at hf
    · exact amended same hf
    · exact own q hf
  have arrivedAt {key name : String} {pos vel : Point α} {cell : Cell}
      (hf : (if key = id then some (Player.arrived before key name pos vel cell) else before) =
        some q) : q.IsOf id := by
    split at hf
    · next hk =>
      rw [← Option.some.inj hf, hk]
      exact isOf_arrived name pos vel cell (hk ▸ own)
    · exact own q hf
  cases o with
  | upsert key name pos vel => exact arrivedAt hq
  | spawn key name pos => exact arrivedAt hq
  | remove key =>
    simp only [Operation.onPlayer] at hq
    split at hq
    · exact absurd hq (by simp)
    · exact own q hq
  | setVelocity key vel => exact amendedAt (f := fun p => { p with vel }) (fun _ own => own) hq
  | setConnection key connection =>
    exact amendedAt (f := fun p => { p with connection }) (fun _ own => own) hq
  | acknowledge key seq => exact amendedAt (fun p own => by split <;> exact own) hq
  | step now dt =>
    refine amended (fun p own => ?_) hq
    have same := (Player.kept_evaluate (h.engine.handoverRules now) h.issuer
      (p.integrated dt.seconds) source).1
    exact ⟨(congrArg Entity.id same).trans own.1, (congrArg Entity.kind same).trans own.2⟩
  | receive d =>
    simp only [Operation.onPlayer] at hq
    split at hq
    · next hk =>
      rw [← Option.some.inj hq]
      exact hk ▸ isOf_arrived d.name d.pos d.vel _ (hk ▸ own)
    · exact own q hq
  | resolve key reply => exact amendedAt (fun p own => by split <;> exact own) hq
  | restore key saved templates => exact amendedAt (fun p own => by split <;> exact own) hq
  | _ => exact own q hq

/-- After any run from a fresh host, the player under `id` satisfies `IsOf id`. -/
theorem isOf_player {settings : Settings α} {chance : Random} {source : σ}
    {os : List (Operation σ α)} {id : String} {p : Player α}
    (hp : ((create settings chance source).run os).world.players[id]? = some p) : p.IsOf id := by
  refine forall_players_run (Q := fun id p => p.IsOf id) os _ ?_ isOf_onPlayer id p hp
  intro id p hp
  exact absurd hp (by simp)

end Host

end CellWorld
