import Mathlib.Logic.Function.Basic
import Mathlib.Logic.Relation
import CellWorld.Proofs.Events

/-!
# Nodes of one network

Nodes share nothing. A network is a family `net : ι → Host (Books α) α`, and a step is one event at
one node. A request may be delivered to any node, any number of times, and whether or not anybody
sent it.

* `Network.Step`, `Network.Reachable` — one `Host.Event` at one node, and any number of them from
  `opened` nodes
* `Network.Distinct` — no token is minted twice, by one node or by two
* `Network.Reachable.booked` — every node satisfies `Host.Booked`
* `redemption_across_nodes` — which tokens are redeemed where
* `left_with_unredeemable_token` — a departure whose token nobody redeems

Distinct tokens are a premise, as the token source is a parameter. That tokens of departures are
redeemed by nobody is a theorem about the code as it is: a gateway redeems only what it has minted
for itself.
-/

namespace CellWorld

variable {ι α : Type} [DecidableEq ι] [Angular α]

namespace Network

/-- One event at one node; all others stay as they are. -/
inductive Step (net : ι → Host (Books α) α) : (ι → Host (Books α) α) → Prop where
  | one (i : ι) (after : Host (Books α) α) (event : Host.Event (net i) after) :
    Step net (Function.update net i after)

/-- The states that nodes come to from being opened, each with settings of its own. -/
def Reachable (net : ι → Host (Books α) α) : Prop :=
  ∃ start, Relation.ReflTransGen Step start net ∧
    ∀ i, ∃ settings chance publicHost port tokens,
      start i = .opened settings chance publicHost port tokens

omit [DecidableEq ι] [Angular α] in
/-- No token was minted twice, by one node or by two. -/
structure Distinct (net : ι → Host (Books α) α) : Prop where
  each : ∀ i, (net i).source.Distinct
  apart : ∀ i j, ∀ m ∈ (net i).source.ledger.minted, ∀ m' ∈ (net j).source.ledger.minted,
    m.token = m'.token → i = j

namespace Reachable

variable {net : ι → Host (Books α) α}

/-- A property of opened nodes that every event keeps holds of every node of a reachable network. -/
theorem induction {P : Host (Books α) α → Prop} (reached : Reachable net)
    (opened : ∀ settings chance publicHost port tokens,
      P (.opened settings chance publicHost port tokens))
    (kept : ∀ h h', Host.Event h h' → P h → P h') : ∀ i, P (net i) := by
  obtain ⟨start, run, fresh⟩ := reached
  induction run with
  | refl =>
    intro i
    obtain ⟨settings, chance, publicHost, port, tokens, new⟩ := fresh i
    rw [new]
    exact opened settings chance publicHost port tokens
  | tail _ step ih =>
    intro i
    cases step with
    | one k after event =>
      by_cases same : i = k
      · subst same
        rw [Function.update_self]
        exact kept _ after event (ih i)
      · rw [Function.update_of_ne same]
        exact ih i

/-- The instance of `induction` for `Host.Booked`. -/
theorem booked (reached : Reachable net) : ∀ i, (net i).Booked :=
  reached.induction Host.booked_opened fun _ _ event h => h.event event

/-- A run of events at one node is a run of the network. -/
theorem events (reached : Reachable net) (i : ι) {after : Host (Books α) α}
    (run : Relation.ReflTransGen Host.Event (net i) after) :
    Reachable (Function.update net i after) := by
  obtain ⟨start, before, fresh⟩ := reached
  refine ⟨start, ?_, fresh⟩
  induction run with
  | refl => rwa [Function.update_eq_self]
  | @tail between after _ event ih =>
    have step : Step (Function.update net i between)
        (Function.update (Function.update net i between) i after) :=
      .one i after (by rwa [Function.update_self])
    rw [Function.update_idem] at step
    exact ih.tail step

end Reachable

end Network

/-- In every reachable network with distinct tokens. A node that admits `r` has minted `r.token`
itself, for its own id and for `r.payload.id`. A redeemed token stands once in `redeemed`, of one
node alone, which has minted it, and is admitted nowhere from then on. The token of a departure, and
so that of any record, is neither redeemed nor admitted by any node. -/
theorem redemption_across_nodes {net : ι → Host (Books α) α} (reached : Network.Reachable net)
    (distinct : Network.Distinct net) :
    (∀ i r now, (net i).source.gateway.admits r now = true →
      ∃ m ∈ (net i).source.ledger.minted, m.token = r.token ∧
        m.target = (net i).engine.territory.localId ∧ m.player = r.payload.id) ∧
    (∀ i, (net i).source.ledger.redeemed.Nodup ∧
      ∀ token ∈ (net i).source.ledger.redeemed,
        (∃ m ∈ (net i).source.ledger.minted, m.token = token ∧
          m.target = (net i).engine.territory.localId) ∧
        (∀ j, token ∈ (net j).source.ledger.redeemed → j = i) ∧
        ∀ j r now, r.token = token → (net j).source.gateway.admits r now = false) ∧
    (∀ i, ∀ d ∈ (net i).source.departures, ∀ j, d.token ∉ (net j).source.ledger.redeemed ∧
      ∀ r now, r.token = d.token → (net j).source.gateway.admits r now = false) ∧
    ∀ i id record token, (net i).record? id = some record → record.token = some token →
      ∀ j r now, r.token = token → (net j).source.gateway.admits r now = false := by
  have booked (i : ι) : (net i).Booked := reached.booked i
  have sound (i : ι) : (net i).source.Sound := (booked i).fit.sound (distinct.each i)
  have granted (i : ι) (r : Request α) (now : Time)
      (admitted : (net i).source.gateway.admits r now = true) :
      ∃ m ∈ (net i).source.ledger.minted, m.token = r.token ∧
        m.target = (net i).engine.territory.localId ∧ m.player = r.payload.id := by
    rw [← (booked i).node]
    exact (sound i).ledger.minted_of_admits admitted
  -- the books of one node tell of all of them, because no other node has minted its tokens
  have elsewhere (i j : ι) (m : Mint) (hm : m ∈ (net i).source.ledger.minted)
      (own : ∀ r now, r.token = m.token → (net i).source.gateway.admits r now = false)
      (r : Request α) (now : Time) (shown : r.token = m.token) :
      (net j).source.gateway.admits r now = false := by
    by_contra admitted
    rw [Bool.not_eq_false] at admitted
    obtain ⟨m', hm', same, -⟩ := granted j r now admitted
    obtain rfl : i = j := distinct.apart i j m hm m' hm' (shown.symm.trans same.symm)
    exact Bool.false_ne_true ((own r now shown).symm.trans admitted)
  have departed (i : ι) (d : Issued α) (hd : d ∈ (net i).source.departures) (j : ι) :
      d.token ∉ (net j).source.ledger.redeemed ∧
        ∀ r now, r.token = d.token → (net j).source.gateway.admits r now = false := by
    refine ⟨fun spent => ?_, ?_⟩
    · obtain ⟨m, hm, same, -⟩ := (sound j).home d.token spent
      obtain rfl : j = i := distinct.apart j i m hm d.mint ((sound i).mint_mem hd) same
      exact (sound j).not_redeemed (distinct.each j) hd spent
    · exact elsewhere i j d.mint ((sound i).mint_mem hd)
        fun r now shown => (sound i).not_admits (distinct.each i) hd shown now
  refine ⟨granted, fun i => ⟨(sound i).ledger.once, fun token spent => ?_⟩, departed, ?_⟩
  · obtain ⟨m, hm, rfl, here⟩ := (sound i).home token spent
    refine ⟨⟨m, hm, rfl, here.trans (booked i).node⟩, fun j twice => ?_, fun j => ?_⟩
    · obtain ⟨m', hm', same, -⟩ := (sound j).home m.token twice
      exact distinct.apart j i m' hm' m hm same
    · exact elsewhere i j m hm fun r now shown =>
        (sound i).ledger.not_admits_of_redeemed (shown ▸ spent) now
  · intro i id record token known its j r now shown
    obtain ⟨p, hp, transfer⟩ := Option.bind_eq_some_iff.mp known
    obtain ⟨d, hd, backs⟩ := (booked i).fit.backed id p hp record transfer (its ▸ rfl)
    obtain rfl : token = d.token := Option.some.inj (its.symm.trans backs.token)
    exact (departed i d hd j).2 r now shown

/-- Player `p1` left node `a` with token `"a0"`, and `b` has redeemed a token `"b0"` of its own:
both are refused by every node from now on. -/
theorem left_with_unredeemable_token :
    let start : Bool → Host (Books ℚ) ℚ := fun i =>
      .opened { tenMetres with nodeId := if i then "b" else "a" } (.ofSeed 1) "localhost" 80
        { outcome := fun n => .ok ((if i then "b" else "a") ++ toString n) }
    let p : Payload ℚ := ⟨"p2", "two", ⟨5, 0, 5⟩, ⟨0, 0, 0⟩, 0, ⟨0, 0⟩, none, 0⟩
    let a := (start false).run [.assign ⟨1, 0⟩ "b", .install (Books.issuer fun _ => ⟨0⟩),
      .upsert "p1" "one" ⟨9, 0, 5⟩ ⟨3, 0, 0⟩, .step ⟨0⟩ (.ofSeconds 1)]
    let b := ((start true).perform (.outside
      ((start true).source.serve (.initiate p "b" ⟨0, 0⟩ ⟨0⟩)))).join ⟨"b0", p⟩ ⟨0⟩
    let net := Function.update (Function.update start false a) true b
    (∃ r, (net false).record? "p1" = some r ∧ r.token = some "a0" ∧ r.status = .inProgress) ∧
      (net true).source.ledger.redeemed = ["b0"] ∧
      ∀ i r now, r.token = "a0" ∨ r.token = "b0" →
        (net i).source.gateway.admits r now = false := by
  intro start p a b net
  have reached : Network.Reachable net := by
    have fresh : Network.Reachable start := ⟨start, .refl, fun i => ⟨_, _, _, _, _, rfl⟩⟩
    have left : Relation.ReflTransGen Host.Event (start false) a :=
      (((Relation.ReflTransGen.single (.operate _ (.assign ⟨1, 0⟩ "b") rfl)).tail
        (.install _ _)).tail (.operate _ (.upsert "p1" "one" ⟨9, 0, 5⟩ ⟨3, 0, 0⟩) rfl)).tail
        (.operate _ (.step ⟨0⟩ (.ofSeconds 1)) rfl)
    have right : Relation.ReflTransGen Host.Event (start true) b :=
      (Relation.ReflTransGen.single (.serve _ _)).tail (.join _ _ _)
    exact (fresh.events false left).events true right
  have tokens : ∀ i, (net i).source.ledger.minted.map Mint.token = [if i then "b0" else "a0"] := by
    decide +kernel
  have names : ∀ i j : Bool, (if i then "b0" else "a0") = (if j then "b0" else "a0") → i = j := by
    decide
  have distinct : Network.Distinct net := by
    refine ⟨fun i => ?_, fun i j m hm m' hm' same => ?_⟩
    · rw [Books.Distinct, tokens]
      exact List.nodup_singleton _
    · have own := List.mem_map_of_mem (f := Mint.token) hm
      have own' := List.mem_map_of_mem (f := Mint.token) hm'
      rw [tokens, List.mem_singleton] at own own'
      exact names i j (own.symm.trans (same.trans own'))
  have known : ((net false).record? "p1").map (fun r => (r.token, r.status)) =
      some (some "a0", .inProgress) := by decide +kernel
  have spent : (net true).source.ledger.redeemed = ["b0"] := by decide +kernel
  obtain ⟨r, hr, its⟩ := Option.map_eq_some_iff.mp known
  obtain ⟨-, redeemed, -, records⟩ := redemption_across_nodes reached distinct
  refine ⟨⟨r, hr, congrArg Prod.fst its, congrArg Prod.snd its⟩, spent, fun i q now shown => ?_⟩
  rcases shown with left | back
  · exact records false "p1" r "a0" hr (congrArg Prod.fst its) i q now left
  · exact ((redeemed true).2 "b0" (spent ▸ List.mem_cons_self)).2.2 i q now back

end CellWorld
