import CellWorld.Proofs.Events

/-!
# The record of a player and the grant of its token

A player that leaves with a token is told of twice: in `p.transfer`, which the simulation keeps, and
in `gateway.grants[token]?`, which the gateway keeps. The two are written by different operations
and change apart from each other. What links them is the list `departures` of the books, where every
token that the simulation was given stands with its grant.

* `Books.Sound.eq_of_token` — if no token was minted twice, two departures with one token are the
  same
* `Host.Event.settled` — no event changes `settings` or `localId`
* `Host.booked_reached` — `Host.Booked` holds in every state that `Host.Event` reaches from `opened`
* `Host.Booked.departure` — a record with a token has a departure that backs it
* `record_matches_grant` — in every reachable state, a stored grant under the token of a record has
  the `player`, `origin`, `destination`, `fromCell`, `toCell` and payload of that record; and no two
  records share a token

Nothing is said of a grant that is gone: redeeming and sweeping remove grants and leave the record
as it is. Distinct tokens are a premise; the token source is a parameter.
-/

namespace CellWorld

variable {α : Type}

/-! ### Departures -/

/-- With distinct tokens, `d.token = e.token` gives `d = e`. -/
theorem Books.Sound.eq_of_token {b : Books α} (h : b.Sound) (distinct : b.Distinct) {d e : Issued α}
    (hd : d ∈ b.departures) (he : e ∈ b.departures) (same : d.token = e.token) : d = e := by
  have tokens : (b.departures.map Issued.token).Nodup := by
    have fewer := (h.minted.map Mint.token).nodup distinct
    rwa [List.map_map] at fewer
  exact List.inj_on_of_nodup_map tokens hd he same

/-! ### Runs of a node -/

namespace Host

variable [Angular α]

/-- An event changes neither `engine.settings` nor `territory.localId`. -/
theorem Event.settled {h h' : Host (Books α) α} (e : Event h h') :
    h'.engine.settings = h.engine.settings ∧
      h'.engine.territory.localId = h.engine.territory.localId := by
  have perform (h : Host (Books α) α) (o : Operation (Books α) α) :=
    And.intro (h.settings_perform o) (h.localId_perform o)
  cases e with
  | operate o own => exact perform h o
  | install clock => exact perform h _
  | serve d => exact perform h _
  | join r now =>
    refine join_induction (P := fun h' => h'.engine.settings = h.engine.settings ∧
      h'.engine.territory.localId = h.engine.territory.localId) h r now ⟨rfl, rfl⟩ ?_
    exact fun g same => ⟨(perform g _).1.trans same.1, (perform g _).2.trans same.2⟩

/-- Induction on the events: `Booked` holds when the node is opened, and every event keeps it. -/
theorem booked_reached {settings : Settings α} {chance : Random} {publicHost : String}
    {port : UInt16} {tokens : TokenSource} {h : Host (Books α) α}
    (reached : Relation.ReflTransGen Event (opened settings chance publicHost port tokens) h) :
    h.Booked ∧ h.engine.settings = settings ∧ h.engine.territory.localId = settings.nodeId := by
  induction reached with
  | refl => exact ⟨booked_opened settings chance publicHost port tokens, rfl, rfl⟩
  | tail _ event ih =>
    obtain ⟨booked, same, node⟩ := ih
    obtain ⟨settled, name⟩ := event.settled
    exact ⟨booked.event event, settled.trans same, name.trans node⟩

/-- The departure behind a token that a record carries, with the fields it shares with the
record. -/
theorem Booked.departure {h : Host (Books α) α} (hb : h.Booked) {id : String} {p : Player α}
    {r : TransferRecord} {token : String} (hp : h.world.players[id]? = some p)
    (hr : p.transfer = some r) (its : r.token = some token) :
    ∃ d ∈ h.source.departures, d.token = token ∧ d.Backs h.engine.settings.cellSize id r := by
  obtain ⟨d, hd, backs⟩ := hb.fit.backed id p hp r hr (its ▸ rfl)
  exact ⟨d, hd, Option.some.inj (backs.token.symm.trans its), backs⟩

end Host

/-! ### Every reachable state -/

section Whole

variable [Angular α]

/-- In every state reached by operations of the engine and demands on the gateway, if no token was
minted twice: a grant kept under the token of the record `r` of the player `p` has `player = p.id`,
`origin = nodeId`, `destination = r.target` and the cells of `r`; its payload has
`ownedCell = r.fromCell` and lies in `r.toCell`. No two records have one token. -/
theorem record_matches_grant {settings : Settings α} {chance : Random} {publicHost : String}
    {port : UInt16} {tokens : TokenSource} {h : Host (Books α) α}
    (reached : Relation.ReflTransGen Host.Event
      (.opened settings chance publicHost port tokens) h)
    (distinct : h.source.Distinct) :
    (∀ (id : String) (p : Player α) (r : TransferRecord) (token : String) (grant : Grant α),
      h.world.players[id]? = some p → p.transfer = some r → r.token = some token →
      h.source.gateway.grants[token]? = some grant →
        grant.player = p.id ∧ grant.origin = settings.nodeId ∧ grant.destination = r.target ∧
        grant.fromCell = r.fromCell ∧ grant.toCell = r.toCell ∧
        grant.payload.ownedCell = r.fromCell ∧
        Cell.containing grant.payload.pos settings.cellSize = r.toCell) ∧
    ∀ id id' r r' token, h.record? id = some r → h.record? id' = some r' →
      r.token = some token → r'.token = some token → id = id' := by
  obtain ⟨booked, same, node⟩ := Host.booked_reached reached
  have sound : h.source.Sound := booked.fit.sound distinct
  constructor
  · intro id p r token grant hp hr its kept
    obtain ⟨d, hd, rfl, backs⟩ := booked.departure hp hr its
    obtain rfl : grant = d.grant := sound.stored d hd grant kept
    have own : p.id = id := (booked.fit.isOf id p hp).1
    have origin : d.grant.origin = settings.nodeId :=
      (sound.away d hd).1.trans (booked.node.trans node)
    have inside : Cell.containing d.grant.payload.pos settings.cellSize = r.toCell := by
      rw [← same]
      exact backs.inside
    exact ⟨backs.player.trans own.symm, origin, backs.target, backs.fromCell, backs.toCell,
      backs.left, inside⟩
  · intro id id' r r' token known known' its its'
    obtain ⟨p, hp, hr⟩ := Option.bind_eq_some_iff.mp known
    obtain ⟨p', hp', hr'⟩ := Option.bind_eq_some_iff.mp known'
    obtain ⟨d, hd, token, backs⟩ := booked.departure hp hr its
    obtain ⟨d', hd', token', backs'⟩ := booked.departure hp' hr' its'
    obtain rfl : d = d' := sound.eq_of_token distinct hd hd' (token.trans token'.symm)
    exact backs.player.symm.trans backs'.player

/-- Two players leave in one step; then one of them jumps to `(5, 0)`, is minted a second token by
hand, and a sweep runs. The grant under token `"0"` is still that of its first move. -/
theorem jumped_player_backed :
    let tokens : TokenSource := { outcome := fun n => .ok (toString n) }
    let start : Host (Books ℚ) ℚ := .opened tenMetres (.ofSeed 1) "localhost" 80 tokens
    let left := start.run [.assign ⟨1, 0⟩ "b", .install (Books.issuer fun _ => ⟨0⟩),
      .upsert "p1" "one" ⟨9, 0, 5⟩ ⟨3, 0, 0⟩, .upsert "p2" "two" ⟨9, 0, 6⟩ ⟨3, 0, 0⟩,
      .step ⟨0⟩ (.ofSeconds 1)]
    let again : Payload ℚ := ⟨"p1", "one", ⟨12, 0, 5⟩, ⟨3, 0, 0⟩, 0, ⟨1, 0⟩, none, 0⟩
    let asked := left.perform (.outside (left.source.serve (.initiate again "c" ⟨5, 5⟩ ⟨7⟩)))
    let jumped := asked.perform (.upsert "p1" "one" ⟨55, 0, 5⟩ ⟨0, 0, 0⟩)
    let h := jumped.perform (.outside (jumped.source.serve (.sweep ⟨9⟩)))
    (h.world.players["p1"]?.map fun p => p.ownedCell) = some ⟨5, 0⟩ ∧
      ∃ r grant, h.record? "p1" = some r ∧ r.token = some "0" ∧
        h.source.gateway.grants["0"]? = some grant ∧
        r.fromCell = ⟨0, 0⟩ ∧ grant.payload.ownedCell = ⟨0, 0⟩ ∧
        Cell.containing grant.payload.pos tenMetres.cellSize = r.toCell ∧
        ∀ id r', h.record? id = some r' → r'.token = some "0" → id = "p1" := by
  intro tokens start left again asked jumped h
  have reached : Relation.ReflTransGen Host.Event start h :=
    (((((((Relation.ReflTransGen.single (.operate _ (.assign ⟨1, 0⟩ "b") rfl)).tail
      (.install _ _)).tail (.operate _ (.upsert "p1" "one" ⟨9, 0, 5⟩ ⟨3, 0, 0⟩) rfl)).tail
      (.operate _ (.upsert "p2" "two" ⟨9, 0, 6⟩ ⟨3, 0, 0⟩) rfl)).tail
      (.operate _ (.step ⟨0⟩ (.ofSeconds 1)) rfl)).tail (.serve left _)).tail
      (.operate asked (.upsert "p1" "one" ⟨55, 0, 5⟩ ⟨0, 0, 0⟩) rfl)).tail (.serve jumped _)
  have distinct : h.source.Distinct := by
    have minted : h.source.ledger.minted.map Mint.token = ["2", "1", "0"] := by decide +kernel
    rw [Books.Distinct, minted]
    decide
  have known : (h.world.players["p1"]?.bind fun p => p.transfer).map
      (fun r => (r.token, r.fromCell)) = some (some "0", ⟨0, 0⟩) := by decide +kernel
  have stored : (h.source.gateway.grants["0"]?).isSome = true := by decide +kernel
  obtain ⟨r, hr, its⟩ := Option.map_eq_some_iff.mp known
  obtain ⟨token, cell⟩ := Prod.mk.inj its
  obtain ⟨p, hp, record⟩ := Option.bind_eq_some_iff.mp hr
  obtain ⟨grant, kept⟩ := Option.isSome_iff_exists.mp stored
  obtain ⟨matching, apart⟩ := record_matches_grant reached distinct
  obtain ⟨-, -, -, -, -, owned, inside⟩ := matching "p1" p r "0" grant hp record token kept
  refine ⟨by decide +kernel, r, grant, hr, token, kept, cell, owned.trans cell, inside, ?_⟩
  intro id r' known' token'
  exact apart id "p1" r' r "0" known' hr token' token

end Whole

end CellWorld
