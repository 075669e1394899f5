import CellWorld.Proofs.Events
import CellWorld.Proofs.Housing

/-!
# A player that leaves one node and arrives at another

The node that a player leaves takes its payload before it moves the player, and the other node works
the cells out again from the payload. Both come to the same player.

* `Issued.Landed rules d q` — `q` is the player that left with `d`, in a cell of another node, its
  transfer in progress under `d.token`
* `Departed`, `Host.departed_step` — the departures that a step enters into the books, each with a
  player that `Landed`
* `Issued.Landed.received` — `Player.received` of the payload of `d` agrees with `q` in `toEntity`,
  `ownedCell`, `prevCell` and `lastSeq`, and has no transfer
* `transfer_lands` — every departure of a step, and the admission of its payload by any node with
  the same `cellSize`
* `p1_arrives_again` — a player that the destination knows already
* `bot_name_in_two_cells` — a player that arrives under the name of a bot

Where the destination has used the id to name a bot, the player can end up in two cells of the
index: `transfer_lands` excludes `destination.world.Named q.id` for its last conjunct alone, and
`bot_name_in_two_cells` shows that it has to. How the payload travels is not covered here;
`Proofs.RoundTrip` is about its text.
-/

namespace CellWorld

variable {σ α : Type}

/-! ### A player that has left -/

/-- The departure `d` and the player `q` that its own node is left with: the fields of the payload,
the cells worked out from its position, and a fresh transfer to the owner of the new cell. -/
structure Issued.Landed [Scalar α] (rules : HandoverRules α) (d : Issued α) (q : Player α) :
    Prop where
  player : d.grant.player = d.grant.payload.id
  entity : q.toEntity =
    { id := d.grant.payload.id, kind := .player, pos := d.grant.payload.pos,
      vel := d.grant.payload.vel, yaw := d.grant.payload.yaw, name := d.grant.payload.name }
  lastSeq : q.lastSeq = d.grant.payload.lastSeq
  inside : q.ownedCell = Cell.containing d.grant.payload.pos rules.cellSize
  left : q.prevCell = some d.grant.payload.ownedCell
  border : d.grant.payload.ownedCell ≠ q.ownedCell
  destination : d.grant.destination = rules.territory.owner q.ownedCell
  away : rules.territory.owner q.ownedCell ≠ rules.territory.localId
  record : q.transfer = some
    { target := d.grant.destination, fromCell := d.grant.payload.ownedCell, toCell := q.ownedCell
      status := .inProgress, startedAt := rules.now, token := some d.token, error := none }

namespace Issued.Landed

variable [Scalar α] {rules : HandoverRules α} {d : Issued α} {q : Player α}

/-- The player is in its owned cell, so it is not due again. -/
theorem not_due (h : d.Landed rules q) : q.due? rules = none := by
  refine Player.due?_eq_none_of_containing (h.inside.trans ?_)
  exact congrArg (Cell.containing · rules.cellSize) (congrArg Entity.pos h.entity).symm

/-- The transfer started at `rules.now`, so it is not stale at `rules.now`. -/
theorem settle (h : d.Landed rules q) : q.settle rules.now = q := by
  have fresh (r : TransferRecord) (start : r.startedAt = rules.now) : r.expire rules.now = r := by
    refine r.expire_of_not_stale rules.now (Bool.eq_false_iff.mpr fun stale => ?_)
    have late := ((r.stale_iff rules.now).mp stale).2
    rw [start] at late
    exact absurd late (Int.not_lt.mpr (Int.le_add_of_nonneg_right (Int.natCast_nonneg _)))
  have same : q.transfer.map (fun r => r.expire rules.now) = q.transfer := by
    rw [h.record, Option.map_some, fresh _ rfl]
  unfold Player.settle
  rw [same]

/-- The player that the other node makes of the payload, over any player of that id that it may
have. -/
theorem received (h : d.Landed rules q) (before : Option (Player α))
    (own : ∀ p, before = some p → p.IsOf d.grant.payload.id) :
    let p := Player.received before d.grant.payload
      (Cell.containing d.grant.payload.pos rules.cellSize)
    p.toEntity = q.toEntity ∧ p.ownedCell = q.ownedCell ∧ p.prevCell = q.prevCell ∧
      p.lastSeq = q.lastSeq ∧ p.transfer = none := by
  intro p
  have cell : p.ownedCell = Cell.containing d.grant.payload.pos rules.cellSize :=
    Player.ownedCell_arrived before _ _ _ _ _
  refine ⟨?_, cell.trans h.inside.symm, ?_, h.lastSeq.symm, rfl⟩
  · rw [h.entity]
    cases before with
    | none => rfl
    | some old =>
      obtain ⟨id, kind⟩ := own old rfl
      show ({ id := old.id, kind := old.kind, pos := _, vel := _, yaw := _, name := _ } :
        Entity α) = _
      rw [id, kind]
      rfl
  · rw [h.left]
    exact if_neg fun same => h.border (same.trans h.inside.symm)

/-- The outcome `departs` of an evaluation is a `Landed` player. -/
theorem of_departs {p : Player α} {id : String} (own : p.IsOf id) {target : Cell}
    (due : p.due? rules = some target)
    (away : rules.territory.owner target ≠ rules.territory.localId) {g : Gateway α} {now : Time}
    (granted : d.grant = g.grantFor p.payload (rules.territory.owner target) target now) :
    d.Landed rules { p.moved target rules.now with
      transfer := some
        (p.begun (rules.territory.owner target) target rules.now (.ok d.token)) } where
  player := by rw [granted]; rfl
  entity := by
    rw [granted]
    show p.toEntity = { id := p.id, kind := .player, pos := _, vel := _, yaw := _, name := _ }
    rw [← own.2]
    rfl
  lastSeq := by rw [granted]; rfl
  inside := by rw [granted]; exact Player.containing_of_due due
  left := by rw [granted]; rfl
  border := by rw [granted]; exact (Player.ne_ownedCell_of_due due).symm
  destination := by rw [granted]; rfl
  away := away
  record := by rw [granted]; rfl

end Issued.Landed

/-! ### One step of time -/

/-- Invariant of the pass: `new` are the departures so far, each with its landed player; grants are
kept under their tokens if these are distinct; and a record in progress was there before the step or
has a token in `new`. -/
structure Departed [Scalar α] (rules : HandoverRules α) (h : Host (Books α) α)
    (new : List (Issued α)) (players : Std.TreeMap String (Player α)) (b : Books α) : Prop where
  entered : b.departures = new ++ h.source.departures
  isOf : ∀ id (p : Player α), players[id]? = some p → p.IsOf id
  landed : ∀ d ∈ new, ∃ q, players[d.grant.player]? = some q ∧ d.Landed rules q
  /-- What a player has left with is kept under its token. -/
  stored : (new.map Issued.token).Nodup → ∀ d ∈ new, b.gateway.grants[d.token]? = some d.grant
  /-- A move that waits has waited before, or its token is new. -/
  waiting : ∀ id (p : Player α), players[id]? = some p → ∀ r, p.transfer = some r →
    r.status = .inProgress →
      h.record? id = some r ∨ ∃ d ∈ new, d.grant.player = id ∧ r.token = some d.token

namespace Departed

variable [Scalar α] {rules : HandoverRules α} {h : Host (Books α) α} {new : List (Issued α)}
  {players : Std.TreeMap String (Player α)} {b : Books α}

/-- The invariant survives a player being put back, if it is landed for its own departures and its
record is accounted for. -/
theorem insert (hd : Departed rules h new players b) {id : String} {q : Player α} (isOf : q.IsOf id)
    (landed : ∀ d ∈ new, d.grant.player = id → d.Landed rules q)
    (waiting : ∀ r, q.transfer = some r → r.status = .inProgress →
      h.record? id = some r ∨ ∃ d ∈ new, d.grant.player = id ∧ r.token = some d.token) :
    Departed rules h new (players.insert id q) b where
  entered := hd.entered
  stored := hd.stored
  isOf := forall_lookup_insert hd.isOf isOf
  waiting := forall_lookup_insert hd.waiting waiting
  landed d new := by
    rw [lookup_insert]
    split
    · next same => exact ⟨q, rfl, landed d new same.symm⟩
    · exact hd.landed d new

/-- A demand that leaves `grants` leaves the invariant. -/
theorem serve (hd : Departed rules h new players b) {demand : Demand α}
    (grants : (b.serve demand).gateway.grants = b.gateway.grants) :
    Departed rules h new players (b.serve demand) :=
  { hd with
    stored := fun distinct d hn => by
      rw [grants]
      exact hd.stored distinct d hn }

/-- A departure with its landed player is added to `new`. -/
theorem mint (hd : Departed rules h new players b) {b' : Books α} {d : Issued α} {q : Player α}
    (entered : b'.departures = d :: b.departures)
    (grants : b'.gateway.grants = b.gateway.grants.insert d.token d.grant)
    (isOf : q.IsOf d.grant.player) (landed : d.Landed rules q)
    (others : ∀ e ∈ new, e.grant.player ≠ d.grant.player) :
    Departed rules h (d :: new) (players.insert d.grant.player q) b' where
  entered := by rw [entered, hd.entered, List.cons_append]
  isOf := forall_lookup_insert hd.isOf isOf
  landed e he := by
    rw [lookup_insert]
    rcases List.mem_cons.mp he with rfl | old
    · exact ⟨q, if_pos rfl, landed⟩
    · rw [if_neg (others e old).symm]
      exact hd.landed e old
  stored distinct e he := by
    rw [List.map_cons, List.nodup_cons] at distinct
    rw [grants, lookup_insert]
    rcases List.mem_cons.mp he with rfl | old
    · exact if_pos rfl
    · have other : d.token ≠ e.token := fun same =>
        distinct.1 (same ▸ List.mem_map_of_mem old)
      rw [if_neg other]
      exact hd.stored distinct.2 e old
  waiting := by
    refine forall_lookup_insert (fun k p hp r hr waits => ?_) fun r hr _ => ?_
    · rcases hd.waiting k p hp r hr waits with before | ⟨e, he, its⟩
      · exact Or.inl before
      · exact Or.inr ⟨e, List.mem_cons_of_mem d he, its⟩
    · rw [landed.record] at hr
      exact Or.inr ⟨d, List.mem_cons_self, rfl, Option.some.inj hr ▸ rfl⟩

/-- One evaluation adds no departure or one. The cases are those of `Player.looked`. -/
theorem evaluate (hd : Departed rules h new players b) {issuer : Option (Issuer (Books α) α)}
    {clock : Nat → Time} (installed : issuer = some (Books.issuer clock)) {id : String}
    {p : Player α} (hp : players[id]? = some p) :
    ∃ new, Departed rules h new (players.insert id (p.evaluate rules issuer b).1.player)
      (p.evaluate rules issuer b).2 := by
  have own : p.IsOf id := hd.isOf id p hp
  have settled (r : TransferRecord) (hr : (p.settle rules.now).transfer = some r)
      (waits : r.status = .inProgress) :
      h.record? id = some r ∨ ∃ d ∈ new, d.grant.player = id ∧ r.token = some d.token := by
    obtain ⟨old, before, rfl⟩ := Option.map_eq_some_iff.mp hr
    by_cases stale : old.stale rules.now = true
    · rw [old.expire_of_stale rules.now stale] at waits
      exact absurd waits nofun
    · rw [old.expire_of_not_stale rules.now (Bool.eq_false_iff.mpr stale)] at waits ⊢
      exact hd.waiting id p hp old before waits
  -- a player that has landed is not due to leave once more
  have stays (d : Issued α) (hn : d ∈ new) (its : d.grant.player = id) : d.Landed rules p := by
    obtain ⟨q, hq, landed⟩ := hd.landed d hn
    rw [its, hp] at hq
    exact Option.some.inj hq ▸ landed
  have gone (target : Cell) (due : p.due? rules = some target) (d : Issued α) (hn : d ∈ new) :
      d.grant.player ≠ id := by
    intro its
    rw [(stays d hn its).not_due] at due
    exact absurd due.symm (Option.some_ne_none target)
  cases p.looked rules issuer b with
  | stays still after =>
    rw [after]
    refine ⟨new, hd.insert own (fun d hn its => ?_) settled⟩
    rw [(stays d hn its).settle]
    exact stays d hn its
  | moves target route due unasked after =>
    rw [after]
    exact ⟨new, hd.insert own (fun d hn its => absurd its (gone target due d hn)) settled⟩
  | departs target issue due its away idle after =>
    rw [after]
    obtain rfl : issue = Books.issuer clock := Option.some.inj (its.symm.trans installed)
    unfold Books.issuer Books.depart
    -- what the clock reads is of no account
    generalize clock b.gateway.tokens.drawn = minting
    cases b.ledger.minting p.payload (rules.territory.owner target) target minting with
    | undrawn fault answer grants minted =>
      simp only [Books.gateway, answer]
      refine ⟨new, (hd.serve grants).insert own
        (fun d hn its => absurd its (gone target due d hn)) fun r hr waits => ?_⟩
      cases Option.some.inj hr
      cases waits
    | drawn d answer granted grants minted =>
      simp only [Books.gateway, answer]
      have player : d.grant.player = id := by
        rw [granted]
        exact own.1
      subst player
      exact ⟨d :: new, hd.mint rfl grants own (.of_departs own due away granted) (gone target due)⟩

end Departed

variable [Angular α]

/-- After a step of a node whose issuer is `Books.issuer clock`, the invariant holds with the
departures of this step as `new`. The clock of the issuer need not agree with `now`. -/
theorem Host.departed_step (h : Host (Books α) α) {clock : Nat → Time}
    (installed : h.issuer = some (Books.issuer clock))
    (isOf : ∀ id (p : Player α), h.world.players[id]? = some p → p.IsOf id) (now : Time)
    (dt : Span) :
    ∃ new, Departed (h.engine.handoverRules now) h new (h.perform (.step now dt)).world.players
      (h.perform (.step now dt)).source := by
  refine h.step_induction (P := fun players b =>
    ∃ new, Departed (h.engine.handoverRules now) h new players b) now dt ⟨[], ?_⟩ ?_
  · refine ⟨rfl, forall_lookup_map isOf, nofun, fun _ => nofun, forall_lookup_map ?_⟩
    exact fun id p hp r hr _ => Or.inl (Option.bind_eq_some_iff.mpr ⟨p, hp, hr⟩)
  · rintro players id p b hp ⟨new, hd⟩
    exact hd.evaluate installed hp

/-! ### From one node to the other -/

/-- Let `origin` be any run with `Books.issuer clock` installed, and `after` its next step. The
departures of the step are listed in `new`; their grants are kept under their tokens if these are
distinct; a record in progress was there before or has a token of `new`. Each `d` of `new` has a
player `q` in a cell of another node, with its record in progress; and for any run `destination`
with the same `cellSize`, the player that `receive d.grant.payload` admits agrees with `q` in
`toEntity`, `ownedCell`, `prevCell` and `lastSeq`, has no transfer, and is indexed in `q.ownedCell`
and nowhere else, unless `destination.world.Named q.id`. -/
theorem transfer_lands (settings settings' : Settings α) (chance chance' : Random)
    (books : Books α) (source : σ) (os : List (Operation (Books α) α)) (os' : List (Operation σ α))
    {clock : Nat → Time} (now : Time) (dt : Span)
    (installed : ((Host.create settings chance books).run os).issuer = some (Books.issuer clock))
    (sizes : settings'.cellSize = settings.cellSize) :
    let origin := (Host.create settings chance books).run os
    let after := origin.perform (.step now dt)
    let destination := (Host.create settings' chance' source).run os'
    ∃ new, after.source.departures = new ++ origin.source.departures ∧
      ((new.map Issued.token).Nodup →
        ∀ d ∈ new, after.source.gateway.grants[d.token]? = some d.grant) ∧
      (∀ id r, after.record? id = some r → r.status = .inProgress →
        origin.record? id = some r ∨ ∃ d ∈ new, d.grant.player = id ∧ r.token = some d.token) ∧
      ∀ d ∈ new, ∃ q, after.world.players[d.grant.player]? = some q ∧
        (∃ r, q.transfer = some r ∧ r.status = .inProgress ∧ r.token = some d.token) ∧
        after.engine.territory.owner q.ownedCell ≠ after.engine.territory.localId ∧
        let admitted := destination.engine.receive d.grant.payload
        admitted.2.world.players[q.id]? = some admitted.1 ∧
          admitted.1.toEntity = q.toEntity ∧ admitted.1.ownedCell = q.ownedCell ∧
          admitted.1.prevCell = q.prevCell ∧ admitted.1.lastSeq = q.lastSeq ∧
          admitted.1.transfer = none ∧
          (¬ destination.world.Named q.id →
            ∀ k, admitted.2.world.cells.Holds k q.id ↔ k = q.ownedCell) := by
  intro origin after destination
  obtain ⟨new, departed⟩ :=
    origin.departed_step installed (fun _ _ hp => Host.isOf_player hp) now dt
  refine ⟨new, departed.entered, departed.stored, ?_, fun d hd => ?_⟩
  · intro id r hr waits
    obtain ⟨p, hp, record⟩ := Option.bind_eq_some_iff.mp hr
    exact departed.waiting id p hp r record waits
  obtain ⟨q, hq, landed⟩ := departed.landed d hd
  have name : q.id = d.grant.payload.id := congrArg Entity.id landed.entity
  have size : destination.engine.settings.cellSize =
      (origin.engine.handoverRules now).cellSize := by
    show destination.engine.settings.cellSize = origin.engine.settings.cellSize
    rw [Host.settings_run, Host.settings_run]
    exact sizes
  refine ⟨q, hq, ⟨_, landed.record, rfl, rfl⟩, landed.away, ?_⟩
  intro admitted
  have kept : admitted.2.world.players[q.id]? = some admitted.1 := by
    rw [name]
    exact Std.TreeMap.getElem?_insert_self
  have made : some admitted.1 = some (Player.received destination.world.players[q.id]?
      d.grant.payload (Cell.containing d.grant.payload.pos
        (origin.engine.handoverRules now).cellSize)) := by
    rw [← kept, ← size, name]
    exact (destination.players_receive d.grant.payload _).trans (if_pos rfl)
  obtain ⟨entity, cell, prev, seq, free⟩ := landed.received destination.world.players[q.id]?
    fun p hp => name ▸ Host.isOf_player hp
  rw [← Option.some.inj made] at entity cell prev seq free
  refine ⟨kept, entity, cell, prev, seq, free, fun unnamed k => ?_⟩
  have quiet := Host.housed_quiet
    (Host.housed_run settings' chance' source os' q.id) (.receive d.grant.payload) rfl
  have count := destination.frame_perform World.botsNamed (fun _ _ _ _ => rfl)
    (.receive d.grant.payload) rfl
  have housed := quiet fun named => unnamed (named.mono (Nat.le_of_eq count))
  refine (housed.holds_iff k).trans ?_
  have home : (destination.perform (.receive d.grant.payload)).world.playerHome? q.id =
      some admitted.1.ownedCell := congrArg (Option.map Player.ownedCell) kept
  rw [home, cell, Option.some_inj]
  exact eq_comm

/-- The destination has the player `p1` already, in another cell; it arrives in the cell that it
left for. -/
theorem p1_arrives_again :
    let books : Books ℚ := { ledger := { gateway :=
      { nodeId := "local", port := 80, tokens := { outcome := fun n => .ok (toString n) } } } }
    let here : List (Operation (Books ℚ) ℚ) := [.assign ⟨1, 0⟩ "b",
      .install (Books.issuer fun _ => ⟨0⟩), .upsert "p1" "one" ⟨9, 0, 5⟩ ⟨3, 0, 0⟩]
    let there : List (Operation Unit ℚ) :=
      [.upsert "p1" "old" ⟨5, 0, 5⟩ ⟨0, 0, 0⟩, .maintainDensity]
    let origin := (Host.create tenMetres (.ofSeed 1) books).run here
    let after := origin.perform (.step ⟨0⟩ (.ofSeconds 1))
    let destination := (Host.create { tenMetres with targetDensity := 3 } (.ofSeed 1) ()).run there
    ∃ d q, after.source.departures = [d] ∧ after.world.players["p1"]? = some q ∧
      let admitted := destination.engine.receive d.grant.payload
      admitted.1.toEntity = q.toEntity ∧ admitted.1.prevCell = q.prevCell ∧
        ∀ k, admitted.2.world.cells.Holds k "p1" ↔ k = ⟨1, 0⟩ := by
  intro books here there origin after destination
  have nobody : origin.source.departures = [] := by decide +kernel
  have left : after.source.departures.map (fun d => d.grant.player) = ["p1"] := by decide +kernel
  have gone : (after.world.players["p1"]?).map (fun q => (q.id, q.ownedCell)) =
      some ("p1", ⟨1, 0⟩) := by decide +kernel
  obtain ⟨new, entered, -, -, lands⟩ := transfer_lands tenMetres
    { tenMetres with targetDensity := 3 } (.ofSeed 1) (.ofSeed 1) books () here there ⟨0⟩
    (.ofSeconds 1) rfl rfl
  change after.source.departures = new ++ origin.source.departures at entered
  rw [nobody, List.append_nil] at entered
  rw [entered] at left ⊢
  obtain ⟨d, rfl, player⟩ := List.map_eq_singleton_iff.mp left
  obtain ⟨q, hq, -, -, -, entity, -, prev, -, -, housed⟩ := lands d List.mem_cons_self
  rw [player] at hq
  change after.world.players["p1"]? = some q at hq
  rw [hq] at gone
  obtain ⟨id, cell⟩ := Prod.mk.inj (Option.some.inj gone)
  rw [id, cell] at housed
  have unnamed : ¬ destination.world.Named "p1" := by
    rintro ⟨n, -, -, name⟩
    exact unreserved_of_head (by decide) n name
  exact ⟨d, q, rfl, hq, entity, prev, housed unnamed⟩

/-- The destination has a bot `bot-1`; a player of that id arrives in `(1, 0)`, and the index has
the id in the cell of the bot as well. -/
theorem bot_name_in_two_cells :
    let books : Books ℚ := { ledger := { gateway :=
      { nodeId := "local", port := 80, tokens := { outcome := fun n => .ok (toString n) } } } }
    let origin := (Host.create tenMetres (.ofSeed 1) books).run [.assign ⟨1, 0⟩ "b",
      .install (Books.issuer fun _ => ⟨0⟩), .upsert "bot-1" "one" ⟨9, 0, 5⟩ ⟨3, 0, 0⟩]
    let after := origin.perform (.step ⟨0⟩ (.ofSeconds 1))
    let destination := (Host.create { tenMetres with targetDensity := 3 } (.ofSeed 1) () :
      Host Unit ℚ).run [.upsert "p1" "two" ⟨5, 0, 5⟩ ⟨0, 0, 0⟩, .maintainDensity]
    ∃ d q, after.source.departures = [d] ∧ after.world.players[d.grant.player]? = some q ∧
      q.ownedCell = ⟨1, 0⟩ ∧
      let admitted := destination.engine.receive d.grant.payload
      admitted.2.world.cells.Holds ⟨1, 0⟩ q.id ∧ admitted.2.world.cells.Holds ⟨0, 0⟩ q.id := by
  intro books origin after destination
  let d : Issued ℚ := ⟨"0", ⟨"bot-1", "local", "b", ⟨0, 0⟩, ⟨1, 0⟩,
    ⟨"bot-1", "one", ⟨12, 0, 5⟩, ⟨3, 0, 0⟩, 0, ⟨0, 0⟩, none, 0⟩, ⟨0⟩, ⟨30000000000⟩⟩⟩
  have left : after.source.departures = [d] := by decide +kernel
  have gone : (after.world.players["bot-1"]?).map (fun q => (q.id, q.ownedCell)) =
      some ("bot-1", ⟨1, 0⟩) := by decide +kernel
  obtain ⟨q, hq, its⟩ := Option.map_eq_some_iff.mp gone
  obtain ⟨id, cell⟩ := Prod.mk.inj its
  have held (k : Cell) (hk : k = ⟨1, 0⟩ ∨ k = ⟨0, 0⟩) :
      ((destination.engine.receive d.grant.payload).2.world.cells.bucket k).contains "bot-1" =
        true := by
    rcases hk with rfl | rfl <;> decide +kernel
  refine ⟨d, q, left, hq, cell, ?_⟩
  rw [id]
  exact ⟨Std.TreeSet.mem_iff_contains.mpr (held _ (Or.inl rfl)),
    Std.TreeSet.mem_iff_contains.mpr (held _ (Or.inr rfl))⟩

end CellWorld
