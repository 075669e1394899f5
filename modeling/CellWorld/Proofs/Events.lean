import Mathlib.Logic.Relation
import CellWorld.Node.Basic
import CellWorld.Proofs.Books
import CellWorld.Proofs.Transfers

/-!
# What can happen at a node

A node is a simulation with a gateway. Its simulation steps and is used by others, its gateway is
asked for tokens and shown tokens, and a player whose token is good comes in. `Host (Books α) α` is
the node with books of its gateway in the place of the issuer's state, and `Host.Event` are its
transitions.

* `Issuer.Alike f` — two issuers whose outcomes agree when the state of the second is `f` of that of
  the first; `Engine.step_alike` — then steps agree
* `Host.Event`, `Host.opened` — `operate`, `install`, `serve`, `join`, from a node without players
* `Host.node`, `Host.node_step`, `Host.node_join` — forgetting the books gives the program's `Node`,
  with `(h.perform (.step now dt)).node = (h.node.step now clock dt).2` and
  `(h.join r now).node = (h.node.acceptTransfer r now).2`
* `Issued.Backs size id r d` — the grant of `d` has the player, target and cells of the record `r`
* `Books.Fit` — books are sound if tokens are distinct, and every record with a token has a
  departure that backs it
* `Host.Booked`, `Host.Booked.event` — `Fit`, with the name of the node and its issuer, after every
  event

`node_step` asks that the installed issuer is `Books.issuer clock` or none, with the `clock` that
the program's step is given; the `now` of the step is independent of it.
-/

namespace CellWorld

variable {σ τ α : Type}

/-! ### Minting tokens alike -/

/-- The issuer on `τ` does what the one on `σ` does, seen through `f`. -/
inductive Issuer.Alike (f : σ → τ) : Option (Issuer σ α) → Option (Issuer τ α) → Prop where
  | nobody : Alike f none none
  | both (issue : Issuer σ α) (issue' : Issuer τ α)
    (same : ∀ p target cell source, issue' p target cell (f source) =
      ((issue p target cell source).1, f (issue p target cell source).2)) :
    Alike f (some issue) (some issue')

section Alike

variable {f : σ → τ} {issuer : Option (Issuer σ α)} {issuer' : Option (Issuer τ α)}
  (alike : Issuer.Alike f issuer issuer')

include alike

theorem Player.depart_alike (rules : HandoverRules α) (p : Player α) (target : Cell) (source : σ) :
    p.depart rules issuer' target (f source) =
      ((p.depart rules issuer target source).1, (p.depart rules issuer target source).2.1,
        f (p.depart rules issuer target source).2.2) := by
  unfold depart
  dsimp only
  split
  · rfl
  · cases alike with
    | nobody => rfl
    | both issue issue' same =>
      cases p.transfer.filter TransferRecord.inFlight with
      | some r => rfl
      | none => simp only [same]

theorem Player.evaluate_alike [Scalar α] (rules : HandoverRules α) (p : Player α) (source : σ) :
    p.evaluate rules issuer' (f source) =
      ((p.evaluate rules issuer source).1, f (p.evaluate rules issuer source).2) := by
  unfold evaluate
  dsimp only
  split
  · rfl
  · rw [depart_alike alike]

/-- With issuers alike, the pass returns the same world and the image of the source. -/
theorem World.evaluate_alike [Scalar α] (rules : HandoverRules α) (w : World α) (source : σ) :
    w.evaluate rules issuer' (f source) =
      ⟨(w.evaluate rules issuer source).world, f (w.evaluate rules issuer source).source,
        (w.evaluate rules issuer source).committed⟩ := by
  unfold evaluate
  suffices fold : ∀ (ids : List String) (pass : HandoverPass σ α),
      ids.foldl (visitPlayer rules issuer') ⟨pass.world, f pass.source, pass.committed⟩ =
        ⟨(ids.foldl (visitPlayer rules issuer) pass).world,
          f (ids.foldl (visitPlayer rules issuer) pass).source,
          (ids.foldl (visitPlayer rules issuer) pass).committed⟩ from fold _ ⟨w, source, 0⟩
  intro ids
  induction ids with
  | nil => exact fun pass => rfl
  | cons id ids ih =>
    intro pass
    have once : visitPlayer rules issuer' ⟨pass.world, f pass.source, pass.committed⟩ id =
        ⟨(visitPlayer rules issuer pass id).world, f (visitPlayer rules issuer pass id).source,
          (visitPlayer rules issuer pass id).committed⟩ := by
      unfold visitPlayer
      dsimp only
      split
      · rfl
      · rw [Player.evaluate_alike alike]
    rw [List.foldl_cons, List.foldl_cons, once, ih]

/-- With issuers alike, a step returns the same engine and end, and the image of the source. -/
theorem Engine.step_alike [Angular α] (e : Engine α) (now : Time) (dt : Span) (source : σ) :
    (e.step issuer' now dt (f source)).engine = (e.step issuer now dt source).engine ∧
      (e.step issuer' now dt (f source)).source = f (e.step issuer now dt source).source ∧
      (e.step issuer' now dt (f source)).ended = (e.step issuer now dt source).ended := by
  unfold Engine.step
  dsimp only
  rw [World.evaluate_alike alike]
  exact ⟨rfl, rfl, rfl⟩

end Alike

/-! ### Events -/

namespace Operation

/-- Operations other than `install` and `outside`, which are about the issuer and have events of
their own. -/
def own : Operation σ α → Bool
  | install _ | outside _ => false
  | _ => true

end Operation

namespace Host

/-- A node without players, whose gateway has minted nothing and is not installed. -/
def opened [Scalar α] (settings : Settings α) (chance : Random) (publicHost : String)
    (port : UInt16) (tokens : TokenSource) : Host (Books α) α :=
  create settings chance
    { ledger := { gateway := { nodeId := settings.nodeId, publicHost, port, tokens } } }

variable [Angular α]

/-- The node after a request to admit a player: `accept` at the gateway, and `receive` if it was
admitted. -/
def join (h : Host (Books α) α) (r : Request α) (now : Time) : Host (Books α) α :=
  let answered := h.perform (.outside (h.source.serve (.accept r now)))
  if h.source.gateway.admits r now then answered.perform (.receive r.payload) else answered

/-- Admitted or not: `P` holds after the gateway has answered, and `receive` keeps it. -/
theorem join_induction {P : Host (Books α) α → Prop} (h : Host (Books α) α) (r : Request α)
    (now : Time) (answered : P (h.perform (.outside (h.source.serve (.accept r now)))))
    (received : ∀ g, P g → P (g.perform (.receive r.payload))) : P (h.join r now) := by
  unfold join
  dsimp only
  split
  · exact received _ answered
  · exact answered

/-- What can happen at a node. The clock of an installed gateway is part of the event. -/
inductive Event : Host (Books α) α → Host (Books α) α → Prop where
  /-- Somebody uses the simulation, or time passes in it. -/
  | operate (h : Host (Books α) α) (o : Operation (Books α) α) (own : o.own) : Event h (h.perform o)
  /-- The gateway is installed to mint the tokens of players that leave. -/
  | install (h : Host (Books α) α) (clock : Nat → Time) :
    Event h (h.perform (.install (Books.issuer clock)))
  /-- Somebody uses the gateway. -/
  | serve (h : Host (Books α) α) (d : Demand α) : Event h (h.perform (.outside (h.source.serve d)))
  /-- A player asks to be admitted. -/
  | join (h : Host (Books α) α) (r : Request α) (now : Time) : Event h (h.join r now)

/-! ### The node without its books -/

/-- The node that these books are kept of. It has a link to its own gateway iff an issuer is
installed. -/
def node (h : Host (Books α) α) : Node α where
  engine := h.engine
  gateway := h.source.gateway
  link := if h.issuer.isSome then .own else .none

end Host

/-- Under `Books.gateway` the issuer with books is the issuer of the gateway, for one and the same
clock. -/
theorem Books.issuer_alike (clock : Nat → Time) :
    Issuer.Alike Books.gateway (some (Books.issuer (α := α) clock))
      (some (Gateway.issuer clock)) := by
  refine .both _ _ fun p target cell b => ?_
  let now := clock b.gateway.tokens.drawn
  have served : (b.serve (.initiate p target cell now)).gateway =
      (b.gateway.initiate p target cell now).2 :=
    (b.ledger.enter_initiate p target cell now).1
  unfold Gateway.issuer Books.issuer Books.depart
  cases hi : b.gateway.initiate p target cell now with
  | mk answer gateway =>
    rw [hi] at served
    cases answer with
    | error fault => exact congrArg (Prod.mk _) served.symm
    | ok d => exact congrArg (Prod.mk _) served.symm

namespace Host

variable [Angular α]

/-- A step commutes with forgetting the books, for every `now` and every `clock` of the issuer. -/
theorem node_step (h : Host (Books α) α) (now : Time) (clock : Nat → Time) (dt : Span)
    (own : h.issuer = none ∨ h.issuer = some (Books.issuer clock)) :
    (h.perform (.step now dt)).node = (h.node.step now clock dt).2 := by
  rcases own with nobody | installed
  · -- with nobody installed the books are never opened
    have alike := h.engine.step_alike (f := fun _ : Unit => h.source) .nobody now dt ()
    have stepped : (h.node.step now clock dt).2 =
        { h.node with engine := (h.engine.step (σ := Unit) none now dt ()).engine } := by
      simp only [Node.step, Node.steps, node, nobody]
      rfl
    rw [stepped, ← alike.1]
    simp only [node, perform, took, nobody, alike.2.1]
  · have alike := h.engine.step_alike (Books.issuer_alike clock) now dt h.source
    let plain := h.engine.step (some (Gateway.issuer clock)) now dt h.source.gateway
    have stepped : (h.node.step now clock dt).2 =
        { h.node with engine := plain.engine, gateway := plain.source } := by
      simp only [Node.step, Node.steps, node, installed]
      rfl
    rw [stepped, alike.1, alike.2.1]
    simp only [node, perform, took, installed]

/-- A request to admit a player commutes with forgetting the books. -/
theorem node_join (h : Host (Books α) α) (r : Request α) (now : Time) :
    (h.join r now).node = (h.node.acceptTransfer r now).2 := by
  unfold join Node.acceptTransfer Gateway.admits
  simp only [node]
  split
  · next answer accepted =>
    simp only [accepted]
    split <;> rfl
  · next fault refused =>
    rw [refused]
    rfl

end Host

/-! ### Books and players -/

/-- The grant of `d` is that of the record `r` of `id`: token, player, target and cells agree, and
the payload was taken in the cell that the player left, at a place in the cell that it moved to. -/
structure Issued.Backs (size : α) [Scalar α] (id : String) (r : TransferRecord) (d : Issued α) :
    Prop where
  token : r.token = some d.token
  player : d.grant.player = id
  target : d.grant.destination = r.target
  fromCell : d.grant.fromCell = r.fromCell
  toCell : d.grant.toCell = r.toCell
  /-- What travels is what the node has known of the player, in the cell that it left. -/
  left : d.grant.payload.ownedCell = r.fromCell
  inside : Cell.containing d.grant.payload.pos size = r.toCell

/-- Status and error are not part of `Backs`. -/
theorem Issued.Backs.later {size : α} [Scalar α] {id : String} {r : TransferRecord} {d : Issued α}
    (h : d.Backs size id r) (status : TransferStatus) (error : Option String) :
    d.Backs size id { r with status, error } :=
  ⟨h.token, h.player, h.target, h.fromCell, h.toCell, h.left, h.inside⟩

namespace Books

section Fit

variable [Scalar α]

/-- A record with a token has a departure that backs it. -/
def Accounts (b : Books α) (size : α) (id : String) (r : TransferRecord) : Prop :=
  r.token.isSome → ∃ d ∈ b.departures, d.Backs size id r

/-- The books tell of the moves of all players. Soundness is asked only while tokens are
distinct. -/
structure Fit (b : Books α) (size : α) (players : Std.TreeMap String (Player α)) : Prop where
  sound : b.Distinct → b.Sound
  isOf : ∀ id (p : Player α), players[id]? = some p → p.IsOf id
  backed : ∀ id (p : Player α), players[id]? = some p → ∀ r, p.transfer = some r →
    b.Accounts size id r

variable {b b' : Books α} {size : α}

namespace Accounts

variable {id : String} {r : TransferRecord}

theorem later (h : b.Accounts size id r) (status : TransferStatus) (error : Option String) :
    b.Accounts size id { r with status, error } := by
  intro token
  obtain ⟨d, hd, backs⟩ := h token
  exact ⟨d, hd, backs.later status error⟩

theorem expire (h : b.Accounts size id r) (now : Time) : b.Accounts size id (r.expire now) := by
  unfold TransferRecord.expire
  split
  · exact h.later .failed (some "expired")
  · exact h

theorem keep (h : b.Accounts size id r) (more : b.departures ⊆ b'.departures) :
    b'.Accounts size id r := by
  intro token
  obtain ⟨d, hd, backs⟩ := h token
  exact ⟨d, more hd, backs⟩

end Accounts

/-- The record that `depart` begins carries the token of the new departure, or none. -/
theorem accounts_begun {rules : HandoverRules α} {p : Player α} {target : Cell}
    (due : p.due? rules = some target) (b : Books α) (owner : String) (now : Time) :
    (b.depart p.payload owner target now).2.Accounts rules.cellSize p.id
      (p.begun owner target rules.now (b.depart p.payload owner target now).1) := by
  unfold depart
  cases b.ledger.minting p.payload owner target now with
  | undrawn fault answer grants minted =>
    simp only [gateway, answer]
    exact fun token => absurd token Bool.false_ne_true
  | drawn d answer own grants minted =>
    simp only [gateway, answer]
    refine fun token => ⟨d, List.mem_cons_self, rfl, ?_, ?_, ?_, ?_, ?_, ?_⟩ <;> rw [own]
    · rfl
    · rfl
    · rfl
    · rfl
    · rfl
    · exact (Player.containing_of_due due).symm

namespace Fit

variable {players : Std.TreeMap String (Player α)}

theorem keep (h : b.Fit size players) (sound : b'.Distinct → b'.Sound)
    (more : b.departures ⊆ b'.departures) : b'.Fit size players :=
  ⟨sound, h.isOf, fun id p hp r hr => (h.backed id p hp r hr).keep more⟩

theorem serve (h : b.Fit size players) (d : Demand α) : (b.serve d).Fit size players :=
  h.keep (fun distinct => (h.sound distinct.before).serve d distinct) (List.Subset.refl _)

theorem depart (h : b.Fit size players) (p : Payload α) {target : String} (cell : Cell) (now : Time)
    (away : target ≠ b.gateway.nodeId) : (b.depart p target cell now).2.Fit size players := by
  refine h.keep (fun distinct => ?_) (b.departures_depart p target cell now)
  have before : b.Distinct := by
    rw [Distinct, ledger_depart] at distinct
    exact Distinct.before (d := .initiate p target cell now) distinct
  exact (h.sound before).depart p cell now away distinct

/-- Putting a player back keeps the books fit, if its record is accounted for. -/
theorem insert (h : b.Fit size players) {id : String} {q : Player α} (isOf : q.IsOf id)
    (backed : ∀ r, q.transfer = some r → b.Accounts size id r) :
    b.Fit size (players.insert id q) where
  sound := h.sound
  isOf := forall_lookup_insert h.isOf isOf
  backed := forall_lookup_insert h.backed backed

/-- One evaluation keeps the books fit and the name of the node. The cases are those of
`Player.looked`. -/
theorem evaluate {rules : HandoverRules α} {issuer : Option (Issuer (Books α) α)}
    (installed : issuer = none ∨ ∃ clock, issuer = some (Books.issuer clock))
    (node : b.gateway.nodeId = rules.territory.localId) (h : b.Fit rules.cellSize players)
    {id : String} {p : Player α} (hp : players[id]? = some p) :
    (p.evaluate rules issuer b).2.gateway.nodeId = rules.territory.localId ∧
      (p.evaluate rules issuer b).2.Fit rules.cellSize
        (players.insert id (p.evaluate rules issuer b).1.player) := by
  have isOf : p.IsOf id := h.isOf id p hp
  have settled (r : TransferRecord) (hr : (p.settle rules.now).transfer = some r) :
      b.Accounts rules.cellSize id r := by
    obtain ⟨old, before, rfl⟩ := Option.map_eq_some_iff.mp hr
    exact (h.backed id p hp old before).expire rules.now
  cases p.looked rules issuer b with
  | stays still after =>
    rw [after]
    exact ⟨node, h.insert isOf settled⟩
  | moves target route due unasked after =>
    rw [after]
    exact ⟨node, h.insert isOf settled⟩
  | departs target issue due its away idle after =>
    rw [after]
    rcases installed with nobody | ⟨clock, ours⟩
    · exact absurd (nobody.symm.trans its) (Option.some_ne_none issue).symm
    · obtain rfl : issue = Books.issuer clock := Option.some.inj (its.symm.trans ours)
      refine ⟨(b.nodeId_depart _ _ _ _).trans node, ?_⟩
      refine (h.depart _ _ _ (node.symm ▸ away)).insert isOf ?_
      intro r hr
      rw [← Option.some.inj hr, ← isOf.1]
      exact accounts_begun due b _ _

theorem integrate (h : b.Fit size players) (dt : α) :
    b.Fit size (players.map fun _ p => p.integrated dt) where
  sound := h.sound
  isOf := forall_lookup_map h.isOf
  backed := forall_lookup_map h.backed

end Fit

end Fit

end Books

/-! ### What every event keeps -/

namespace Host

variable [Angular α]

/-- The invariant of all events: node and engine have one name, the issuer is `Books.issuer clock`
or none, and the books fit. -/
structure Booked (h : Host (Books α) α) : Prop where
  node : h.source.gateway.nodeId = h.engine.territory.localId
  installed : h.issuer = none ∨ ∃ clock, h.issuer = some (Books.issuer clock)
  fit : h.source.Fit h.engine.settings.cellSize h.world.players

/-- Such an operation writes `engine` and nothing else of the host. -/
theorem perform_engine (h : Host σ α) (o : Operation σ α) (own : o.own)
    (step : ∀ now dt, o ≠ .step now dt) (ticks : ∀ clock, o ≠ .ticks clock) :
    ∃ engine, h.perform o = { h with engine } := by
  cases o with
  | step now dt => exact absurd rfl (step now dt)
  | ticks clock => exact absurd rfl (ticks clock)
  | restore id saved templates =>
    simp only [perform]
    split
    · exact ⟨_, rfl⟩
    · exact ⟨h.engine, rfl⟩
  | install issuer => exact absurd own Bool.false_ne_true
  | outside source => exact absurd own Bool.false_ne_true
  | _ => exact ⟨_, rfl⟩

namespace Booked

variable {h : Host (Books α) α}

/-- The pass over the players keeps the books fit, by `Host.step_induction`. -/
theorem step (hb : h.Booked) (now : Time) (dt : Span) : (h.perform (.step now dt)).Booked := by
  obtain ⟨node, fit⟩ := step_induction (P := fun players b =>
    b.gateway.nodeId = h.engine.territory.localId ∧ b.Fit h.engine.settings.cellSize players)
    h now dt ⟨hb.node, hb.fit.integrate _⟩
    fun players id p b hp kept => Books.Fit.evaluate hb.installed kept.1 kept.2 hp
  exact ⟨node, hb.installed, fit⟩

/-- The books are untouched, and no record gets another token. -/
theorem single (hb : h.Booked) (o : Operation (Books α) α) (own : o.own)
    (step : ∀ now dt, o ≠ .step now dt) (ticks : ∀ clock, o ≠ .ticks clock) :
    (h.perform o).Booked := by
  obtain ⟨engine, after⟩ := h.perform_engine o own step ticks
  have source : (h.perform o).source = h.source := by rw [after]
  have issuer : (h.perform o).issuer = h.issuer := by rw [after]
  refine ⟨?_, ?_, ?_⟩
  · rw [source, localId_perform]
    exact hb.node
  · rw [issuer]
    exact hb.installed
  · rw [source, settings_perform]
    refine ⟨hb.fit.sound, fun id q hq => ?_, fun id q hq r hr => ?_⟩
    · obtain ⟨source, looked⟩ := h.players_perform o ticks id
      exact isOf_onPlayer h o source id _ q (hb.fit.isOf id) (looked.symm.trans hq)
    · have change := h.change_perform_record o ticks id
      have before (old : TransferRecord) (record : h.record? id = some old) :
          h.source.Accounts h.engine.settings.cellSize id old := by
        obtain ⟨p, hp, its⟩ := Option.bind_eq_some_iff.mp record
        exact hb.fit.backed id p hp old its
      have record : (h.perform o).record? id = some r := by rw [record?, hq, Option.bind_some, hr]
      rw [record] at change
      generalize old : h.record? id = was at change
      cases change with
      | same => exact before r old
      | completed _ waiting cause => exact (before _ old).later .completed _
      | failed _ error waiting cause => exact (before _ old).later .failed (some error)
      | started _ _ now dt stepped clock coherent free => exact absurd stepped (step now dt)

theorem operate (hb : h.Booked) (o : Operation (Books α) α) (own : o.own) :
    (h.perform o).Booked := by
  cases o with
  | step now dt => exact hb.step now dt
  | ticks clock => exact ticks_induction h clock hb fun h now dt hb => hb.step now dt
  | _ => exact hb.single _ own nofun nofun

theorem serve (hb : h.Booked) (d : Demand α) :
    (h.perform (.outside (h.source.serve d))).Booked :=
  ⟨(Ledger.nodeId_enter h.source.ledger d).trans hb.node, hb.installed, hb.fit.serve d⟩

/-- The cases are the four constructors of `Host.Event`. -/
theorem event {h' : Host (Books α) α} (hb : h.Booked) (e : Event h h') : h'.Booked := by
  cases e with
  | operate o own => exact hb.operate o own
  | install clock => exact ⟨hb.node, Or.inr ⟨clock, rfl⟩, hb.fit⟩
  | serve d => exact hb.serve d
  | join r now =>
    exact join_induction h r now (hb.serve (.accept r now)) fun g kept => kept.operate _ rfl

end Booked

/-- The invariant holds when the node is opened. -/
theorem booked_opened (settings : Settings α) (chance : Random) (publicHost : String)
    (port : UInt16) (tokens : TokenSource) :
    (opened settings chance publicHost port tokens).Booked := by
  have nobody (id : String) (p : Player α) :
      (opened settings chance publicHost port tokens).world.players[id]? ≠ some p := by
    simp [world, opened, create, Engine.create, World.empty]
  exact ⟨rfl, Or.inl rfl, fun _ => Books.sound_opened _ rfl,
    fun id p hp => absurd hp (nobody id p), fun id p hp => absurd hp (nobody id p)⟩

end Host

end CellWorld
