import Mathlib.Data.List.Nodup
import CellWorld.Proofs.Redemption

/-!
# A gateway that keeps books

A gateway mints tokens for the players that its own simulation lets go, and for whoever else asks.
Books tell the two apart: `Books` is the ledger of a gateway together with `departures`, the grants
that the simulation was given.

* `Ledger.Minting`, `Ledger.kept_enter`, `Ledger.redeemed_enter` — what one demand changes in
  `grants`, `minted` and `redeemed`
* `Books.issuer clock` — the issuer of a simulation whose books are kept; the `n`-th draw of a token
  reads `clock n`
* `Books.Sound` — departures were minted in order, lead away from the node, and what is still stored
  under their tokens is what was handed out
* `Books.Sound.serve`, `Books.Sound.depart` — demands and departures keep it, as long as tokens are
  distinct
* `Books.Sound.not_admits`, `Books.Sound.not_redeemed` — a node never admits or redeems a token its
  own players left with

Books are beside the gateway: `ledger_depart` says that `depart` does to it what `initiate` does.
That the issuer of a node behaves as `Books.issuer` is `Books.issuer_alike` in `Proofs.Events`.
-/

namespace CellWorld

variable {α : Type}

/-! ### One demand -/

namespace Ledger

/-- The outcomes of `initiate` in a ledger: no token could be drawn and neither `grants` nor
`minted` changed, or the token of `d` was drawn and entered into both. -/
inductive Minting (l : Ledger α) (p : Payload α) (target : String) (cell : Cell) (now : Time) :
    Prop where
  | undrawn (fault : Fault) (answer : (l.gateway.initiate p target cell now).1 = .error fault)
    (grants : (l.enter (.initiate p target cell now)).gateway.grants = l.gateway.grants)
    (minted : (l.enter (.initiate p target cell now)).minted = l.minted)
  | drawn (d : Issued α) (answer : (l.gateway.initiate p target cell now).1 = .ok d)
    (own : d.grant = l.gateway.grantFor p target cell now)
    (grants : (l.enter (.initiate p target cell now)).gateway.grants =
      l.gateway.grants.insert d.token d.grant)
    (minted : (l.enter (.initiate p target cell now)).minted =
      ⟨d.token, p.id, target, now⟩ :: l.minted)

theorem minting (l : Ledger α) (p : Payload α) (target : String) (cell : Cell) (now : Time) :
    Minting l p target cell now := by
  cases drawn : l.gateway.tokens.draw with
  | mk token tokens =>
    cases token with
    | error fault =>
      refine .undrawn fault ?_ ?_ ?_ <;> simp only [enter, Gateway.initiate, drawn]
    | ok token =>
      refine .drawn ⟨token, l.gateway.grantFor p target cell now⟩ ?_ rfl ?_ ?_ <;>
        simp only [enter, Gateway.initiate, drawn]

/-- A stored grant was stored before, or the demand minted its token. -/
theorem kept_enter (l : Ledger α) (d : Demand α) {token : String} {grant : Grant α}
    (found : (l.enter d).gateway.grants[token]? = some grant) :
    l.gateway.grants[token]? = some grant ∨
      ∃ m, (l.enter d).minted = m :: l.minted ∧ m.token = token := by
  have erased {grants : Std.TreeMap String (Grant α)} {key : String} {c : Bool}
      (kept : grants = if c then l.gateway.grants.erase key else l.gateway.grants)
      (found : grants[token]? = some grant) : l.gateway.grants[token]? = some grant := by
    rw [kept] at found
    split at found
    · rw [lookup_erase] at found
      split at found
      · exact absurd found.symm (Option.some_ne_none grant)
      · exact found
    · exact found
  cases d with
  | initiate p target cell now =>
    cases l.minting p target cell now with
    | undrawn fault answer grants minted =>
      rw [grants] at found
      exact Or.inl found
    | drawn d answer own grants minted =>
      rw [grants, lookup_insert] at found
      split at found
      · next same => exact Or.inr ⟨_, minted, same⟩
      · exact Or.inl found
  | validate key now => exact Or.inl (erased (l.gateway.grants_check key now) found)
  | accept r now => exact Or.inl (erased (l.gateway.grants_accept r now) found)
  | sweep now => exact Or.inl ((l.gateway.lookup_sweep now token grant).mp found).1

/-- A run only adds to `minted`, at the front. -/
theorem minted_run (ds : List (Demand α)) (l : Ledger α) : l.minted <:+ (l.run ds).minted := by
  induction ds generalizing l with
  | nil => exact List.suffix_rfl
  | cons d ds ih => exact (minted_enter l d).trans (ih (l.enter d))

/-- A stored grant whose token was not minted in the run was stored before it. -/
theorem kept_run (ds : List (Demand α)) (l : Ledger α) {token : String} {grant : Grant α}
    (found : (l.run ds).gateway.grants[token]? = some grant)
    (fresh : ∀ m ∈ (l.run ds).minted, m.token ≠ token) :
    l.gateway.grants[token]? = some grant := by
  induction ds generalizing l with
  | nil => exact found
  | cons d ds ih =>
    rcases l.kept_enter d (ih (l.enter d) found fresh) with before | ⟨m, minted, same⟩
    · exact before
    · have own : m ∈ ((l.enter d).run ds).minted :=
        (minted_run ds (l.enter d)).subset (minted ▸ List.mem_cons_self)
      exact absurd same (fresh m own)

/-- An admitted token was minted here, for this node and this player. -/
theorem Sound.minted_of_admits {l : Ledger α} (h : l.Sound) {r : Request α} {now : Time}
    (granted : l.gateway.admits r now = true) :
    ∃ m ∈ l.minted, m.token = r.token ∧ m.target = l.gateway.nodeId ∧ m.player = r.payload.id := by
  obtain ⟨-, grant, found, -, here, player⟩ := (l.gateway.admits_iff r now).mp granted
  obtain ⟨-, m, hm, same, own⟩ := h.kept r.token grant found
  exact ⟨m, hm, same, own.target.symm.trans here, own.player.symm.trans player⟩

/-- A redeemed token is not admitted, at any time. -/
theorem Sound.not_admits_of_redeemed {l : Ledger α} (h : l.Sound) {r : Request α}
    (spent : r.token ∈ l.redeemed) (now : Time) : l.gateway.admits r now = false := by
  by_contra granted
  obtain ⟨-, grant, found, -⟩ :=
    (l.gateway.admits_iff r now).mp ((Bool.not_eq_false _).mp granted)
  exact (h.kept r.token grant found).1 spent

/-- A redeemed token was redeemed before, or this demand presented it and was granted. -/
theorem redeemed_enter (l : Ledger α) (d : Demand α) {token : String}
    (spent : token ∈ (l.enter d).redeemed) :
    token ∈ l.redeemed ∨ ∃ r now, r.token = token ∧ l.gateway.admits r now = true := by
  cases d with
  | initiate p target cell now =>
    simp only [enter] at spent
    split at spent <;> exact Or.inl spent
  | validate key now => exact Or.inl spent
  | accept r now =>
    simp only [enter] at spent
    split at spent
    · next granted =>
      rcases List.mem_cons.mp spent with rfl | old
      · exact Or.inr ⟨r, now, rfl, granted⟩
      · exact Or.inl old
    · exact Or.inl spent
  | sweep now => exact Or.inl spent

end Ledger

/-! ### Books -/

def Issued.mint (d : Issued α) : Mint where
  token := d.token
  player := d.grant.player
  target := d.grant.destination
  time := d.grant.issuedAt

/-- A ledger with the departures of the node's own simulation. -/
structure Books (α : Type) where
  ledger : Ledger α
  /-- What players left with, the last one first. -/
  departures : List (Issued α) := []

namespace Books

def gateway (b : Books α) : Gateway α := b.ledger.gateway

def serve (b : Books α) (d : Demand α) : Books α := { b with ledger := b.ledger.enter d }

/-- The token of a departure, or the fault, with the books after it. Only a token that was drawn is
a departure. -/
def depart (b : Books α) (p : Payload α) (target : String) (cell : Cell) (now : Time) :
    Except Fault String × Books α :=
  let served := b.serve (.initiate p target cell now)
  match (b.gateway.initiate p target cell now).1 with
  | .ok d => (.ok d.token, { served with departures := d :: b.departures })
  | .error fault => (.error fault, served)

/-- The issuer `Gateway.issuer clock` with books: the `n`-th draw dates its token at `clock n`. -/
def issuer (clock : Nat → Time) : Issuer (Books α) α := fun p target cell b =>
  b.depart p target cell (clock b.gateway.tokens.drawn)

/-- Whether all tokens minted so far differ. -/
def Distinct (b : Books α) : Prop := (b.ledger.minted.map Mint.token).Nodup

/-- The invariant of books. `minted` ties departures to the ledger, `away` and `stored` are about
their grants, `home` about what was redeemed. -/
structure Sound (b : Books α) : Prop where
  ledger : b.ledger.Sound
  /-- What players left with was minted. -/
  minted : (b.departures.map Issued.mint).Sublist b.ledger.minted
  away : ∀ d ∈ b.departures, d.grant.origin = b.gateway.nodeId ∧
    d.grant.destination ≠ b.gateway.nodeId
  /-- What is still kept under the token of a player that left is what it left with. -/
  stored : ∀ d ∈ b.departures, ∀ grant, b.gateway.grants[d.token]? = some grant → grant = d.grant
  /-- What was redeemed was minted for this node. -/
  home : ∀ token ∈ b.ledger.redeemed,
    ∃ m ∈ b.ledger.minted, m.token = token ∧ m.target = b.gateway.nodeId

/-- The books of a gateway without grants are sound. -/
theorem sound_opened (g : Gateway α) (empty : g.grants = {}) :
    Sound ({ ledger := { gateway := g } } : Books α) := by
  refine ⟨⟨?_, ?_, ?_, List.nodup_nil⟩, List.Sublist.refl [], ?_, ?_, ?_⟩
  · intro token grant found
    exact absurd found (by simp [empty])
  · exact fun token spent => absurd spent List.not_mem_nil
  · exact fun m hm => absurd hm List.not_mem_nil
  · exact fun d hd => absurd hd List.not_mem_nil
  · exact fun d hd => absurd hd List.not_mem_nil
  · exact fun token spent => absurd spent List.not_mem_nil

/-- On the ledger, `depart` is `initiate`. -/
theorem ledger_depart (b : Books α) (p : Payload α) (target : String) (cell : Cell) (now : Time) :
    (b.depart p target cell now).2.ledger = b.ledger.enter (.initiate p target cell now) := by
  unfold depart
  dsimp only
  split <;> rfl

theorem departures_depart (b : Books α) (p : Payload α) (target : String) (cell : Cell)
    (now : Time) : b.departures ⊆ (b.depart p target cell now).2.departures := by
  unfold depart
  dsimp only
  split
  · exact List.subset_cons_self _ _
  · exact List.Subset.refl _

theorem nodeId_depart (b : Books α) (p : Payload α) (target : String) (cell : Cell) (now : Time) :
    (b.depart p target cell now).2.gateway.nodeId = b.gateway.nodeId := by
  rw [gateway, ledger_depart, Ledger.nodeId_enter, gateway]

theorem Distinct.before {b : Books α} {d : Demand α} (h : (b.serve d).Distinct) : b.Distinct :=
  ((Ledger.minted_enter b.ledger d).sublist.map Mint.token).nodup h

namespace Sound

variable {b : Books α}

theorem mint_mem (h : b.Sound) {d : Issued α} (hd : d ∈ b.departures) :
    d.mint ∈ b.ledger.minted := h.minted.subset (List.mem_map_of_mem hd)

/-- A demand keeps soundness, if the tokens after it are distinct. -/
theorem serve (h : b.Sound) (d : Demand α) (distinct : (b.serve d).Distinct) :
    (b.serve d).Sound where
  ledger := h.ledger.enter d distinct
  minted := h.minted.trans (Ledger.minted_enter b.ledger d).sublist
  away e he := by
    have same : (b.serve d).gateway.nodeId = b.gateway.nodeId := Ledger.nodeId_enter b.ledger d
    rw [same]
    exact h.away e he
  stored e he grant found := by
    rcases b.ledger.kept_enter d found with old | ⟨m, minted, same⟩
    · exact h.stored e he grant old
    · -- a token minted now would be the second one of its kind
      rw [Distinct, Books.serve, minted, List.map_cons, List.nodup_cons, same] at distinct
      exact absurd (List.mem_map_of_mem (h.mint_mem he)) distinct.1
  home token spent := by
    have same : (b.serve d).gateway.nodeId = b.gateway.nodeId := Ledger.nodeId_enter b.ledger d
    rw [same]
    obtain ⟨m, hm, its, here⟩ : ∃ m ∈ b.ledger.minted, m.token = token ∧
        m.target = b.gateway.nodeId := by
      rcases b.ledger.redeemed_enter d spent with old | ⟨r, now, rfl, granted⟩
      · exact h.home token old
      · obtain ⟨m, hm, its, here, -⟩ := h.ledger.minted_of_admits granted
        exact ⟨m, hm, its, here⟩
    exact ⟨m, (Ledger.minted_enter b.ledger d).subset hm, its, here⟩

/-- A departure toward another node keeps soundness, if the tokens after it are distinct. -/
theorem depart (h : b.Sound) (p : Payload α) {target : String} (cell : Cell) (now : Time)
    (away : target ≠ b.gateway.nodeId) (distinct : (b.depart p target cell now).2.Distinct) :
    (b.depart p target cell now).2.Sound := by
  unfold Books.depart at distinct ⊢
  cases b.ledger.minting p target cell now with
  | undrawn fault answer grants minted =>
    simp only [gateway, answer] at distinct ⊢
    exact h.serve _ distinct
  | drawn d answer own grants minted =>
    simp only [gateway, answer] at distinct ⊢
    have served := h.serve (.initiate p target cell now) distinct
    have node : (b.serve (.initiate p target cell now)).gateway.nodeId = b.gateway.nodeId :=
      Ledger.nodeId_enter b.ledger _
    refine ⟨served.ledger, ?_, ?_, ?_, served.home⟩
    · show (d.mint :: b.departures.map Issued.mint).Sublist
        (b.ledger.enter (.initiate p target cell now)).minted
      rw [minted, Issued.mint, own]
      exact h.minted.cons_cons _
    · intro e he
      rcases List.mem_cons.mp he with rfl | old
      · rw [own]
        exact ⟨node.symm, fun back => away (back.trans node)⟩
      · exact served.away e old
    · intro e he grant found
      rcases List.mem_cons.mp he with rfl | old
      · have kept : (b.ledger.enter (.initiate p target cell now)).gateway.grants[e.token]? =
            some e.grant := by rw [grants, lookup_insert, if_pos rfl]
        exact Option.some.inj (found.symm.trans kept)
      · exact served.stored e old grant found

/-- The token of a departure was minted for another node, so its own node does not admit it. -/
theorem not_admits (h : b.Sound) (distinct : b.Distinct) {d : Issued α} (hd : d ∈ b.departures)
    {r : Request α} (shown : r.token = d.token) (now : Time) :
    b.gateway.admits r now = false := by
  by_contra granted
  obtain ⟨m, hm, same, here, -⟩ := h.ledger.minted_of_admits (Bool.not_eq_false _ ▸ granted)
  have only : m = d.mint :=
    List.inj_on_of_nodup_map distinct hm (h.mint_mem hd) (same.trans shown)
  exact (h.away d hd).2 ((congrArg Mint.target only).symm.trans here)

theorem not_redeemed (h : b.Sound) (distinct : b.Distinct) {d : Issued α}
    (hd : d ∈ b.departures) : d.token ∉ b.ledger.redeemed := by
  intro spent
  obtain ⟨m, hm, same, here⟩ := h.home d.token spent
  have only : m = d.mint := List.inj_on_of_nodup_map distinct hm (h.mint_mem hd) same
  exact (h.away d hd).2 ((congrArg Mint.target only).symm.trans here)

end Sound

end Books

end CellWorld
