import CellWorld.Proofs.Gateway

/-!
# Which tokens are redeemed

A gateway mints tokens, looks them up, redeems them and sweeps out those that have expired, in any
order. Lookups, sweeps and refusals forget grants; none of this is noticed by whoever redeems.

* `Demand`, `Ledger.run` — `initiate`, `validate`, `accept` and `sweep`, over a gateway with the
  lists `served`, `minted`, `redeemed` and `verdicts`
* `Ledger.Sound` — a kept grant was minted and not redeemed; a minted token without a grant was
  redeemed, or had expired at some demand; nothing was redeemed twice
* `Ledger.sound_run` — a run keeps it, as long as no token is minted twice
* `Ledger.verdicts_run` — runs that agree in `initiate` and `accept` have the same verdicts
* `redemption_exact` — the exact condition of admission, after any run of a new gateway
* `redeemed_at_deadline` — a token that is looked up and swept over, redeemed in its last instant

The exact condition is about a time that no demand was later than, and about gateways that can draw
a resume token. Distinct tokens are a premise: the source of tokens is a parameter.
-/

namespace CellWorld

variable {α : Type}

/-! ### Runs -/

inductive Demand (α : Type) where
  | initiate (p : Payload α) (target : String) (cell : Cell) (now : Time)
  | validate (token : String) (now : Time)
  | accept (r : Request α) (now : Time)
  | sweep (now : Time)

namespace Demand

def time : Demand α → Time
  | initiate _ _ _ now => now
  | validate _ now => now
  | accept _ now => now
  | sweep now => now

/-- Whether a demand mints or redeems: the others are `validate` and `sweep`. -/
def trades : Demand α → Bool
  | initiate _ _ _ _ | accept _ _ => true
  | validate _ _ | sweep _ => false

end Demand

/-- The entry of a minted token: for whom, for which node, and when. -/
structure Mint where
  token : String
  player : String
  target : String
  time : Time

namespace Mint

/-- The last instant at which the token can be redeemed. -/
def deadline (m : Mint) : Time := m.time.after Grant.lifetime

/-- The grant has the player, target and deadline of the entry. -/
structure Of (m : Mint) (grant : Grant α) : Prop where
  player : grant.player = m.player
  target : grant.destination = m.target
  deadline : grant.expiresAt = m.deadline

end Mint

/-- A gateway with its past, the last entries first. -/
structure Ledger (α : Type) where
  gateway : Gateway α
  served : List (Demand α) := []
  minted : List Mint := []
  /-- The tokens that were redeemed. -/
  redeemed : List String := []
  /-- Whether each request was granted. -/
  verdicts : List Bool := []

namespace Ledger

/-- The ledger after a demand. A failed `initiate` mints nothing, a refused `accept` redeems
nothing. -/
def enter (l : Ledger α) : Demand α → Ledger α
  | d@(.initiate p target cell now) =>
    match l.gateway.initiate p target cell now with
    | (.ok issued, gateway) =>
      { l with
        gateway
        served := d :: l.served
        minted := ⟨issued.token, p.id, target, now⟩ :: l.minted }
    | (.error _, gateway) => { l with gateway, served := d :: l.served }
  | d@(.validate token now) =>
    { l with gateway := (l.gateway.check token now).2, served := d :: l.served }
  | d@(.accept r now) =>
    { l with
      gateway := (l.gateway.accept r now).2
      served := d :: l.served
      redeemed := if l.gateway.admits r now then r.token :: l.redeemed else l.redeemed
      verdicts := l.gateway.admits r now :: l.verdicts }
  | d@(.sweep now) => { l with gateway := (l.gateway.sweep now).2, served := d :: l.served }

def run (l : Ledger α) (ds : List (Demand α)) : Ledger α := ds.foldl enter l

/-! ### What the grants say about the past -/

structure Sound (l : Ledger α) : Prop where
  /-- A grant that is kept was minted and not redeemed. -/
  kept : ∀ (token : String) (grant : Grant α), l.gateway.grants[token]? = some grant →
    token ∉ l.redeemed ∧ ∃ m ∈ l.minted, m.token = token ∧ m.Of grant
  spent : ∀ token ∈ l.redeemed, ∃ m ∈ l.minted, m.token = token
  /-- A grant that is not kept was redeemed, or had expired at some demand. -/
  gone : ∀ m ∈ l.minted, m.token ∉ l.redeemed →
    (∃ grant, l.gateway.grants[m.token]? = some grant ∧ m.Of grant) ∨
      ∃ d ∈ l.served, m.deadline < d.time
  once : l.redeemed.Nodup

namespace Sound

variable {l : Ledger α}

/-- Removing expired grants keeps soundness: `gone` notes the demand at which they had expired. -/
theorem forget (h : l.Sound) {l' : Ledger α} {d : Demand α} (served : l'.served = d :: l.served)
    (minted : l'.minted = l.minted) (redeemed : l'.redeemed = l.redeemed)
    (fewer : ∀ (token : String) (grant : Grant α), l'.gateway.grants[token]? = some grant →
      l.gateway.grants[token]? = some grant)
    (late : ∀ (token : String) (grant : Grant α), l.gateway.grants[token]? = some grant →
      l'.gateway.grants[token]? = some grant ∨ grant.Expired d.time) : l'.Sound where
  kept token grant hg := by
    rw [redeemed, minted]
    exact h.kept token grant (fewer token grant hg)
  spent token ht := by
    rw [redeemed] at ht
    rw [minted]
    exact h.spent token ht
  gone m hm unspent := by
    rw [minted] at hm
    rw [redeemed] at unspent
    rw [served]
    rcases h.gone m hm unspent with ⟨grant, hg, own⟩ | ⟨e, he, past⟩
    · rcases late m.token grant hg with still | expired
      · exact Or.inl ⟨grant, still, own⟩
      · refine Or.inr ⟨d, List.mem_cons_self, ?_⟩
        rw [← own.deadline]
        exact expired
    · exact Or.inr ⟨e, List.mem_cons_of_mem d he, past⟩
  once := by
    rw [redeemed]
    exact h.once

/-- A demand that leaves the grants keeps soundness. -/
theorem idle (h : l.Sound) {l' : Ledger α} {d : Demand α} (served : l'.served = d :: l.served)
    (minted : l'.minted = l.minted) (redeemed : l'.redeemed = l.redeemed)
    (grants : l'.gateway.grants = l.gateway.grants) : l'.Sound := by
  refine h.forget served minted redeemed ?_ ?_
  · intro key grant hg
    rwa [grants] at hg
  · intro key grant hg
    rw [grants]
    exact Or.inl hg

/-- Removing the grant of one token, where it has expired, keeps soundness. -/
theorem forgetOne (h : l.Sound) {l' : Ledger α} {d : Demand α} (token : String)
    (served : l'.served = d :: l.served) (minted : l'.minted = l.minted)
    (redeemed : l'.redeemed = l.redeemed)
    (grants : l'.gateway.grants =
      if l.gateway.holdsExpired d.time token then l.gateway.grants.erase token
      else l.gateway.grants) : l'.Sound := by
  by_cases expired : l.gateway.holdsExpired d.time token = true
  · rw [if_pos expired] at grants
    refine h.forget served minted redeemed ?_ ?_
    · intro key grant hg
      rw [grants, lookup_erase] at hg
      split at hg
      · exact absurd hg.symm (Option.some_ne_none grant)
      · exact hg
    · intro key grant hg
      rw [grants, lookup_erase]
      by_cases same : token = key
      · subst same
        rw [Gateway.holdsExpired, hg, Option.any_some, decide_eq_true_eq] at expired
        exact Or.inr expired
      · rw [if_neg same]
        exact Or.inl hg
  · rw [if_neg expired] at grants
    exact h.idle served minted redeemed grants

theorem validate (h : l.Sound) (token : String) (now : Time) :
    (l.enter (.validate token now)).Sound :=
  h.forgetOne token rfl rfl rfl (l.gateway.grants_check token now)

theorem sweep (h : l.Sound) (now : Time) : (l.enter (.sweep now)).Sound := by
  refine h.forget rfl rfl rfl ?_ ?_
  · intro token grant hg
    exact (Gateway.lookup_sweep l.gateway now token grant).mp hg |>.1
  · intro token grant hg
    by_cases expired : grant.Expired now
    · exact Or.inr expired
    · exact Or.inl ((Gateway.lookup_sweep l.gateway now token grant).mpr ⟨hg, expired⟩)

/-- A new grant under a fresh token keeps soundness. -/
theorem mint (h : l.Sound) {l' : Ledger α} {d : Demand α} {m : Mint} {grant : Grant α}
    (fresh : ∀ old ∈ l.minted, old.token ≠ m.token) (own : m.Of grant)
    (served : l'.served = d :: l.served) (minted : l'.minted = m :: l.minted)
    (redeemed : l'.redeemed = l.redeemed)
    (grants : l'.gateway.grants = l.gateway.grants.insert m.token grant) : l'.Sound where
  kept key other hg := by
    rw [grants, lookup_insert] at hg
    rw [redeemed, minted]
    by_cases same : m.token = key
    · rw [if_pos same] at hg
      refine ⟨?_, m, List.mem_cons_self, same, Option.some.inj hg ▸ own⟩
      intro spent
      obtain ⟨old, ho, hk⟩ := h.spent key spent
      exact fresh old ho (hk.trans same.symm)
    · rw [if_neg same] at hg
      obtain ⟨unspent, old, ho, hk, its⟩ := h.kept key other hg
      exact ⟨unspent, old, List.mem_cons_of_mem m ho, hk, its⟩
  spent key spent := by
    rw [redeemed] at spent
    rw [minted]
    obtain ⟨old, ho, hk⟩ := h.spent key spent
    exact ⟨old, List.mem_cons_of_mem m ho, hk⟩
  gone old ho unspent := by
    rw [minted] at ho
    rw [redeemed] at unspent
    rw [grants, served]
    rcases List.mem_cons.mp ho with rfl | ho
    · exact Or.inl ⟨grant, by rw [lookup_insert, if_pos rfl], own⟩
    · rw [lookup_insert, if_neg (fresh old ho).symm]
      rcases h.gone old ho unspent with still | ⟨e, he, past⟩
      · exact Or.inl still
      · exact Or.inr ⟨e, List.mem_cons_of_mem d he, past⟩
  once := by
    rw [redeemed]
    exact h.once

/-- Erasing a grant and noting its token as redeemed keeps soundness. It was not redeemed before, as
it was still kept. -/
theorem redeem (h : l.Sound) {l' : Ledger α} {d : Demand α} {token : String} {grant : Grant α}
    (found : l.gateway.grants[token]? = some grant) (served : l'.served = d :: l.served)
    (minted : l'.minted = l.minted) (redeemed : l'.redeemed = token :: l.redeemed)
    (grants : l'.gateway.grants = l.gateway.grants.erase token) : l'.Sound where
  kept key other hg := by
    rw [grants, lookup_erase] at hg
    rw [redeemed, minted]
    by_cases same : token = key
    · rw [if_pos same] at hg
      exact absurd hg.symm (Option.some_ne_none other)
    · rw [if_neg same] at hg
      obtain ⟨free, its⟩ := h.kept key other hg
      exact ⟨List.not_mem_cons_of_ne_of_not_mem (Ne.symm same) free, its⟩
  spent key spent := by
    rw [redeemed] at spent
    rw [minted]
    rcases List.mem_cons.mp spent with rfl | old
    · obtain ⟨-, m, hm, hk, -⟩ := h.kept key grant found
      exact ⟨m, hm, hk⟩
    · exact h.spent key old
  gone m hm free := by
    rw [minted] at hm
    rw [redeemed] at free
    rw [grants, served, lookup_erase, if_neg (Ne.symm (List.ne_of_not_mem_cons free))]
    rcases h.gone m hm (List.not_mem_of_not_mem_cons free) with still | ⟨e, he, past⟩
    · exact Or.inl still
    · exact Or.inr ⟨e, List.mem_cons_of_mem d he, past⟩
  once := by
    rw [redeemed]
    exact List.nodup_cons.mpr ⟨(h.kept token grant found).1, h.once⟩

theorem initiate (h : l.Sound) (p : Payload α) (target : String) (cell : Cell) (now : Time)
    (distinct : ((l.enter (.initiate p target cell now)).minted.map Mint.token).Nodup) :
    (l.enter (.initiate p target cell now)).Sound := by
  cases hd : l.gateway.tokens.draw with
  | mk drawn tokens =>
    cases drawn with
    | error fault =>
      have entered : l.enter (.initiate p target cell now) =
          { l with
            gateway := { l.gateway with tokens }
            served := .initiate p target cell now :: l.served } := by
        simp only [enter, Gateway.initiate, hd]
      rw [entered]
      exact h.idle rfl rfl rfl rfl
    | ok token =>
      have entered : l.enter (.initiate p target cell now) =
          { l with
            gateway := { l.gateway with
              tokens
              grants := l.gateway.grants.insert token (l.gateway.grantFor p target cell now) }
            served := .initiate p target cell now :: l.served
            minted := ⟨token, p.id, target, now⟩ :: l.minted } := by
        simp only [enter, Gateway.initiate, hd]
      rw [entered] at distinct ⊢
      refine h.mint (m := ⟨token, p.id, target, now⟩) ?_ ⟨rfl, rfl, rfl⟩ rfl rfl rfl rfl
      intro old ho same
      rw [List.map_cons, List.nodup_cons] at distinct
      have hit : old.token ∈ l.minted.map Mint.token := List.mem_map_of_mem ho
      rw [same] at hit
      exact distinct.1 hit

theorem accept (h : l.Sound) (r : Request α) (now : Time) : (l.enter (.accept r now)).Sound := by
  have unspent (verdict : l.gateway.admits r now = false) :
      (l.enter (.accept r now)).redeemed = l.redeemed := if_neg (by simp [verdict])
  cases l.gateway.outcome r now with
  | undrawn drawn verdict kept => exact h.idle rfl rfl (unspent verdict) kept
  | unknown drawn found verdict kept => exact h.idle rfl rfl (unspent verdict) kept
  | expired grant drawn found late verdict kept =>
    have expired : l.gateway.holdsExpired now r.token = true := by
      rw [Gateway.holdsExpired, found, Option.any_some]
      exact decide_eq_true late
    refine h.forgetOne r.token rfl rfl (unspent verdict) ?_
    exact kept.trans (if_pos expired).symm
  | misplaced grant drawn found early other verdict kept =>
    exact h.idle rfl rfl (unspent verdict) kept
  | granted grant drawn found early own verdict kept =>
    exact h.redeem found rfl rfl (if_pos verdict) kept

end Sound

/-- A demand only adds to `minted`, at the front. -/
theorem minted_enter (l : Ledger α) (d : Demand α) : l.minted <:+ (l.enter d).minted := by
  cases d with
  | initiate p target cell now =>
    simp only [enter]
    split
    · exact List.suffix_cons _ _
    · exact List.suffix_rfl
  | validate token now => exact List.suffix_rfl
  | accept r now => exact List.suffix_rfl
  | sweep now => exact List.suffix_rfl

theorem served_enter (l : Ledger α) (d : Demand α) : (l.enter d).served = d :: l.served := by
  cases d with
  | initiate p target cell now =>
    simp only [enter]
    split <;> rfl
  | validate token now => rfl
  | accept r now => rfl
  | sweep now => rfl

theorem enter_initiate (l : Ledger α) (p : Payload α) (target : String) (cell : Cell) (now : Time) :
    (l.enter (.initiate p target cell now)).gateway = (l.gateway.initiate p target cell now).2 ∧
      (l.enter (.initiate p target cell now)).verdicts = l.verdicts := by
  simp only [enter]
  split
  · next h => rw [h]; exact ⟨rfl, rfl⟩
  · next h => rw [h]; exact ⟨rfl, rfl⟩

theorem nodeId_enter (l : Ledger α) (d : Demand α) :
    (l.enter d).gateway.nodeId = l.gateway.nodeId := by
  cases d with
  | initiate p target cell now =>
    rw [(l.enter_initiate p target cell now).1, Gateway.initiate]
    split <;> rfl
  | validate token now => exact Gateway.nodeId_check l.gateway token now
  | accept r now => exact (Gateway.frame_accept l.gateway r now).2
  | sweep now => rfl

/-- Every demand keeps soundness, if the tokens after it are distinct. The cases are the
constructors of `Demand`. -/
theorem Sound.enter {l : Ledger α} (h : l.Sound) (d : Demand α)
    (distinct : ((l.enter d).minted.map Mint.token).Nodup) : (l.enter d).Sound := by
  cases d with
  | initiate p target cell now => exact h.initiate p target cell now distinct
  | validate token now => exact h.validate token now
  | accept r now => exact h.accept r now
  | sweep now => exact h.sweep now

/-- Induction on the demands; the tokens at each point are distinct, as they are at the end. -/
theorem sound_run (ds : List (Demand α)) (l : Ledger α)
    (h : (l.minted.map Mint.token).Nodup → l.Sound)
    (distinct : ((l.run ds).minted.map Mint.token).Nodup) : (l.run ds).Sound := by
  induction ds generalizing l with
  | nil => exact h distinct
  | cons d ds ih =>
    refine ih (l.enter d) ?_ distinct
    intro distinct'
    have before : (l.minted.map Mint.token).Nodup :=
      ((minted_enter l d).sublist.map Mint.token).nodup distinct'
    exact (h before).enter d distinct'

theorem served_run (ds : List (Demand α)) (l : Ledger α) :
    (l.run ds).served = ds.reverse ++ l.served := by
  induction ds generalizing l with
  | nil => rfl
  | cons d ds ih =>
    show ((l.enter d).run ds).served = _
    rw [ih, served_enter, List.reverse_cons, List.append_assoc]
    rfl

theorem nodeId_run (ds : List (Demand α)) (l : Ledger α) :
    (l.run ds).gateway.nodeId = l.gateway.nodeId := by
  induction ds generalizing l with
  | nil => rfl
  | cons d ds ih => exact (ih (l.enter d)).trans (nodeId_enter l d)

end Ledger

/-! ### What looking up and sweeping change -/

namespace Ledger

/-- From gateways that agree on live grants, the demands `ds` and `ds.filter trades` lead to the
same verdicts, if times do not decrease. -/
theorem verdicts_run (ds : List (Demand α)) (clock : Time) {l l' : Ledger α}
    (ordered : ds.Pairwise fun a b => a.time ≤ b.time) (ahead : ∀ d ∈ ds, clock ≤ d.time)
    (agree : Gateway.Agree clock l.gateway l'.gateway) (same : l.verdicts = l'.verdicts) :
    (l.run ds).verdicts = (l'.run (ds.filter Demand.trades)).verdicts := by
  induction ds generalizing clock l l' with
  | nil => exact same
  | cons d ds ih =>
    obtain ⟨first, rest⟩ := List.pairwise_cons.mp ordered
    have agree := agree.later (ahead d List.mem_cons_self)
    cases d with
    | initiate p target cell now =>
      obtain ⟨gateway, verdicts⟩ := l.enter_initiate p target cell now
      obtain ⟨gateway', verdicts'⟩ := l'.enter_initiate p target cell now
      refine ih _ rest first ?_ ?_
      · rw [gateway, gateway']
        exact agree.initiate p target cell
      · rw [verdicts, verdicts', same]
    | validate token now => exact ih _ rest first (agree.validate token) same
    | accept r now =>
      refine ih _ rest first (agree.accept r) ?_
      have verdict : l.gateway.admits r now = l'.gateway.admits r now := agree.admits r
      show l.gateway.admits r now :: l.verdicts = l'.gateway.admits r now :: l'.verdicts
      rw [verdict, same]
    | sweep now => exact ih _ rest first agree.sweep same

theorem verdicts_filter (l : Ledger α) (ds : List (Demand α))
    (ordered : ds.Pairwise fun a b => a.time ≤ b.time) :
    (l.run ds).verdicts = (l.run (ds.filter Demand.trades)).verdicts := by
  cases ds with
  | nil => rfl
  | cons d ds =>
    refine verdicts_run (d :: ds) d.time ordered ?_ ⟨rfl, rfl, fun _ => rfl⟩ rfl
    intro e he
    rcases List.mem_cons.mp he with rfl | later
    · exact Int.le_refl _
    · exact (List.pairwise_cons.mp ordered).1 e later

/-- In a sound ledger, at a time no earlier than its demands: `r` is admitted iff its token was
minted for this node and player, `t` is not after the deadline, and it was not redeemed. -/
theorem Sound.admits_iff {l : Ledger α} (h : l.Sound) (r : Request α) {t : Time}
    (past : ∀ d ∈ l.served, d.time ≤ t) (drawn : l.gateway.canDraw = true) :
    l.gateway.admits r t = true ↔
      (∃ m ∈ l.minted, m.token = r.token ∧ m.target = l.gateway.nodeId ∧
        m.player = r.payload.id ∧ t ≤ m.deadline) ∧ r.token ∉ l.redeemed := by
  rw [Gateway.admits_iff]
  constructor
  · rintro ⟨-, grant, found, early, here, player⟩
    obtain ⟨unspent, m, hm, hk, own⟩ := h.kept r.token grant found
    refine ⟨⟨m, hm, hk, own.target.symm.trans here, own.player.symm.trans player, ?_⟩, unspent⟩
    rw [← own.deadline]
    exact Int.not_lt.mp early
  · rintro ⟨⟨m, hm, hk, here, player, early⟩, unspent⟩
    rw [← hk] at unspent ⊢
    rcases h.gone m hm unspent with ⟨grant, found, own⟩ | ⟨d, hd, late⟩
    · refine ⟨drawn, grant, found, ?_, own.target.trans here, own.player.trans player⟩
      intro expired
      rw [Grant.Expired, own.deadline] at expired
      exact Int.not_lt.mpr early expired
    · have order : m.deadline < t := Int.lt_of_lt_of_le late (past d hd)
      exact absurd order (Int.not_lt.mpr early)

end Ledger

/-! ### Redemption over a run -/

/-- For a new gateway with any token source. After any demands none of which is later than `t`, if
tokens are distinct and one can be drawn: `r` is admitted iff some minted entry has its token, this
node, its player and `t ≤ time + lifetime`, and the token was not redeemed. Two ordered runs that
agree after `filter trades` have the same verdicts. With distinct tokens, `redeemed` has no
duplicates. A request that is not admitted leaves all grants, but for its own where a token could be
drawn and it has expired. -/
theorem redemption_exact (nodeId publicHost : String) (port : UInt16) (tokens : TokenSource) :
    let start : Ledger α := { gateway := { nodeId, publicHost, port, tokens } }
    (∀ ds r t, (∀ d ∈ ds, d.time ≤ t) → ((start.run ds).minted.map Mint.token).Nodup →
      (start.run ds).gateway.canDraw = true →
        ((start.run ds).gateway.admits r t = true ↔
          (∃ m ∈ (start.run ds).minted, m.token = r.token ∧ m.target = nodeId ∧
            m.player = r.payload.id ∧ t ≤ m.time.after Grant.lifetime) ∧
          r.token ∉ (start.run ds).redeemed)) ∧
    (∀ ds ds' : List (Demand α), (ds.Pairwise fun a b => a.time ≤ b.time) →
      (ds'.Pairwise fun a b => a.time ≤ b.time) →
      ds.filter Demand.trades = ds'.filter Demand.trades →
        (start.run ds).verdicts = (start.run ds').verdicts) ∧
    (∀ ds, ((start.run ds).minted.map Mint.token).Nodup → (start.run ds).redeemed.Nodup) ∧
    ∀ ds r t, (start.run ds).gateway.admits r t = false →
      ((start.run ds).gateway.accept r t).2.grants =
        if (start.run ds).gateway.canDraw && (start.run ds).gateway.holdsExpired t r.token then
          (start.run ds).gateway.grants.erase r.token
        else (start.run ds).gateway.grants := by
  intro start
  have sound (ds : List (Demand α)) : ((start.run ds).minted.map Mint.token).Nodup →
      (start.run ds).Sound := by
    refine Ledger.sound_run ds start fun _ => ⟨?_, ?_, ?_, List.nodup_nil⟩
    · exact fun token grant found => absurd found (by simp [start])
    · exact fun token spent => absurd spent List.not_mem_nil
    · exact fun m hm => absurd hm List.not_mem_nil
  refine ⟨?_, ?_, fun ds distinct => (sound ds distinct).once, ?_⟩
  · intro ds r t past distinct drawn
    have node : (start.run ds).gateway.nodeId = nodeId := Ledger.nodeId_run ds start
    have told := (sound ds distinct).admits_iff r (t := t) ?_ drawn
    · rw [node] at told
      exact told
    · intro d hd
      rw [Ledger.served_run, List.mem_append, List.mem_reverse] at hd
      exact hd.elim (past d) fun none => absurd none List.not_mem_nil
  · intro ds ds' ordered ordered' same
    rw [start.verdicts_filter ds ordered, start.verdicts_filter ds' ordered', same]
  · intro ds r t refused
    rw [Gateway.grants_accept, refused, Bool.false_or]

/-- A token that is looked up and swept over is redeemed at its last instant. -/
theorem redeemed_at_deadline :
    let start : Ledger Unit :=
      { gateway :=
          { nodeId := "n1", port := 80, tokens := { outcome := fun n => .ok (toString n) } } }
    let p : Payload Unit := ⟨"p1", "one", ⟨(), (), ()⟩, ⟨(), (), ()⟩, (), ⟨0, 0⟩, none, 0⟩
    (start.run [.initiate p "n1" ⟨1, 0⟩ ⟨5⟩, .validate "0" ⟨6⟩, .sweep ⟨7⟩]).gateway.admits ⟨"0", p⟩
      ⟨30000000005⟩ = true := by
  intro start p
  refine ((redemption_exact "n1" "localhost" 80 _).1 _ ⟨"0", p⟩ ⟨30000000005⟩ ?_ ?_ ?_).mpr ?_
  · intro d hd
    simp only [List.mem_cons, List.not_mem_nil, or_false] at hd
    rcases hd with rfl | rfl | rfl <;> decide
  · exact List.nodup_singleton "0"
  · rfl
  · exact ⟨⟨⟨"0", "p1", "n1", ⟨5⟩⟩, List.mem_cons_self, rfl, rfl, rfl, by decide⟩, List.not_mem_nil⟩

end CellWorld
