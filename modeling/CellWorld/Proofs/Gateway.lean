import CellWorld.Proofs.Lookup
import CellWorld.Transfer.Gateway

/-!
# What a gateway does with one request

* `Gateway.admits g r now` — whether `accept` replies with success
* `Gateway.outcome` — `accept` ends as `undrawn`, `unknown`, `expired`, `misplaced` or `granted`,
  each with the grants that are left
* `Gateway.admits_iff` — `admits` iff `canDraw` and the grant of `r.token` is kept, not `Expired`,
  for `nodeId` and for `r.payload.id`
* `Gateway.grants_accept` — the grants afterwards: `r.token` is erased if it was admitted, or if it
  is expired and a token could be drawn
* `Gateway.live? g now token` — the grant of `token`, unless it has expired; lookups and sweeps keep
  it
* `Gateway.Agree now` — the same `nodeId`, `tokens` and `live?`; no demand from `now` on tells such
  gateways apart

`Agree` is what makes sweeps invisible: they remove expired grants at times that no client sees.
Concurrent requests are not modelled, a gateway serves one after the other.
-/

namespace CellWorld

variable {α : Type}

/-! ### One request -/

namespace Gateway

/-- Whether the request is answered with success. A fault of the token source is none. -/
def admits (g : Gateway α) (r : Request α) (now : Time) : Bool :=
  match (g.accept r now).1 with
  | .ok reply => reply.success
  | .error _ => false

variable (g : Gateway α) (r : Request α) (now : Time)

/-- Whether the next draw of a token succeeds. -/
def canDraw : Bool := g.tokens.draw.1.isOk

/-- Whether a grant is kept under `token` and is expired at `now`. -/
def holdsExpired (token : String) : Bool :=
  g.grants[token]?.any fun grant => decide (grant.Expired now)

/-- The outcomes of `accept`, by what the lookup of `r.token` has found, with verdict and remaining
grants. -/
inductive Outcome : Prop where
  /-- There was no token to give. -/
  | undrawn (drawn : g.canDraw = false) (verdict : g.admits r now = false)
    (kept : (g.accept r now).2.grants = g.grants)
  | unknown (drawn : g.canDraw = true) (found : g.grants[r.token]? = none)
    (verdict : g.admits r now = false) (kept : (g.accept r now).2.grants = g.grants)
  | expired (grant : Grant α) (drawn : g.canDraw = true) (found : g.grants[r.token]? = some grant)
    (late : grant.Expired now) (verdict : g.admits r now = false)
    (kept : (g.accept r now).2.grants = g.grants.erase r.token)
  | misplaced (grant : Grant α) (drawn : g.canDraw = true) (found : g.grants[r.token]? = some grant)
    (early : ¬ grant.Expired now)
    (other : ¬ (grant.destination = g.nodeId ∧ grant.player = r.payload.id))
    (verdict : g.admits r now = false) (kept : (g.accept r now).2.grants = g.grants)
  | granted (grant : Grant α) (drawn : g.canDraw = true) (found : g.grants[r.token]? = some grant)
    (early : ¬ grant.Expired now)
    (own : grant.destination = g.nodeId ∧ grant.player = r.payload.id)
    (verdict : g.admits r now = true)
    (kept : (g.accept r now).2.grants = g.grants.erase r.token)

/-- There is no other outcome. -/
theorem outcome : Outcome g r now := by
  cases hd : g.tokens.draw with
  | mk token tokens =>
    cases token with
    | error fault =>
      have answer : g.accept r now = (.error fault, { g with tokens }) := by
        simp only [accept, hd]
      exact .undrawn (by rw [canDraw, hd]; rfl) (by rw [admits, answer]) (by rw [answer])
    | ok resume =>
      have drawn : g.canDraw = true := by rw [canDraw, hd]; rfl
      cases found : g.grants[r.token]? with
      | none =>
        have answer : g.accept r now = (.ok (refusal .notFound), { g with tokens }) := by
          simp only [accept, hd, check, found]
        exact .unknown drawn found (by rw [admits, answer]; rfl) (by rw [answer])
      | some grant =>
        by_cases late : grant.Expired now
        · have answer : g.accept r now =
              (.ok (refusal .expired), { g with tokens }.forget r.token) := by
            simp only [accept, hd, check, found, if_pos late]
          exact .expired grant drawn found late (by rw [admits, answer]; rfl) (by rw [answer]; rfl)
        · by_cases here : grant.destination = g.nodeId
          · by_cases player : grant.player = r.payload.id
            · have answer : g.accept r now =
                  (.ok (.accepted g.reconnectUrl resume), { g with tokens }.forget r.token) := by
                simp only [accept, hd, check, found, if_neg late, here, not_true_eq_false, ne_eq,
                  if_false, player, if_true, reconnectUrl]
              exact .granted grant drawn found late ⟨here, player⟩ (by rw [admits, answer]; rfl)
                (by rw [answer]; rfl)
            · have answer : g.accept r now =
                  (.ok (.refused "invalid handover token: issued for a different player"),
                    { g with tokens }) := by
                simp only [accept, hd, check, found, if_neg late, here, not_true_eq_false, ne_eq,
                  if_false, player]
              exact .misplaced grant drawn found late (fun own => player own.2)
                (by rw [admits, answer]; rfl) (by rw [answer])
          · have answer : g.accept r now =
                (.ok (refusal (.wrongNode grant.destination g.nodeId)), { g with tokens }) := by
              simp only [accept, hd, check, found, if_neg late, ne_eq, here, not_false_eq_true,
                if_true]
            exact .misplaced grant drawn found late (fun own => here own.1)
              (by rw [admits, answer]; rfl) (by rw [answer])

/-- The condition of admission. The draw is the resume token of the client. -/
theorem admits_iff :
    g.admits r now = true ↔
      g.canDraw = true ∧ ∃ grant, g.grants[r.token]? = some grant ∧ ¬ grant.Expired now ∧
        grant.destination = g.nodeId ∧ grant.player = r.payload.id := by
  cases g.outcome r now with
  | undrawn drawn verdict kept => simp [drawn, verdict]
  | unknown drawn found verdict kept => simp [found, verdict]
  | expired grant drawn found late verdict kept => simp [found, late, verdict]
  | misplaced grant drawn found early other verdict kept =>
    simpa [found, early, verdict, drawn] using other
  | granted grant drawn found early own verdict kept => simp [found, early, own, verdict, drawn]

/-- The grants after a request. Of all grants, that of `r.token` alone may go. -/
theorem grants_accept :
    (g.accept r now).2.grants =
      if g.admits r now || (g.canDraw && g.holdsExpired now r.token) then g.grants.erase r.token
      else g.grants := by
  cases g.outcome r now with
  | undrawn drawn verdict kept => simp [drawn, verdict, kept]
  | unknown drawn found verdict kept => simp [found, verdict, kept, holdsExpired]
  | expired grant drawn found late verdict kept =>
    simp [found, late, drawn, verdict, kept, holdsExpired]
  | misplaced grant drawn found early other verdict kept =>
    simp [found, early, verdict, kept, holdsExpired]
  | granted grant drawn found early own verdict kept => simp [verdict, kept]

theorem lookup_sweep (token : String) (grant : Grant α) :
    (g.sweep now).2.grants[token]? = some grant ↔
      g.grants[token]? = some grant ∧ ¬ grant.Expired now := by
  rw [sweep, Std.TreeMap.getElem?_filter', Option.filter_eq_some_iff]
  simp

theorem tokens_check (token : String) : (g.check token now).2.tokens = g.tokens := by
  unfold check forget
  split
  · rfl
  · split
    · rfl
    · split <;> rfl

/-- One draw per request, whatever its outcome, and the same `nodeId`. -/
theorem frame_accept :
    (g.accept r now).2.tokens = g.tokens.draw.2 ∧ (g.accept r now).2.nodeId = g.nodeId := by
  cases hd : g.tokens.draw with
  | mk token tokens =>
    cases token with
    | error fault =>
      simp only [accept, hd]
      exact ⟨trivial, trivial⟩
    | ok resume =>
      have sameTokens := tokens_check { g with tokens } now r.token
      have sameNode := nodeId_check { g with tokens } r.token now
      simp only [accept, hd]
      split
      · next looked =>
        rw [looked] at sameTokens sameNode
        exact ⟨sameTokens, sameNode⟩
      · next looked =>
        rw [looked] at sameTokens sameNode
        split <;> exact ⟨sameTokens, sameNode⟩

end Gateway

/-! ### Gateways that differ in expired grants alone -/

namespace Gateway

/-- The grant of `token`, unless it is expired at `now`. -/
def live? (g : Gateway α) (now : Time) (token : String) : Option (Grant α) :=
  g.grants[token]?.filter fun grant => !decide (grant.Expired now)

theorem live?_eq_some_iff {g : Gateway α} {now : Time} {token : String} {grant : Grant α} :
    g.live? now token = some grant ↔ g.grants[token]? = some grant ∧ ¬ grant.Expired now := by
  rw [live?, Option.filter_eq_some_iff]
  simp

theorem live?_of_erase {g g' : Gateway α} {token : String}
    (erased : g'.grants = g.grants.erase token) (key : String) (now : Time) :
    g'.live? now key = if token = key then none else g.live? now key := by
  rw [live?, erased, lookup_erase]
  split <;> rfl

theorem live?_of_expired {g : Gateway α} {token : String} {grant : Grant α} {now : Time}
    (found : g.grants[token]? = some grant) (late : grant.Expired now) :
    g.live? now token = none := by
  rw [live?, found, Option.filter_some, decide_eq_true late]
  rfl

/-- A lookup removes no live grant. -/
theorem live?_check (g : Gateway α) (token key : String) (now : Time) :
    (g.check token now).2.live? now key = g.live? now key := by
  have grants := g.grants_check token now
  by_cases expired : (g.grants[token]?.any fun grant => decide (grant.Expired now)) = true
  · rw [if_pos expired] at grants
    obtain ⟨grant, found, late⟩ := (Option.any_eq_true _ _).mp expired
    rw [live?_of_erase grants]
    by_cases same : token = key
    · rw [if_pos same, ← same, live?_of_expired found (of_decide_eq_true late)]
    · rw [if_neg same]
  · rw [if_neg expired] at grants
    rw [live?, grants, live?]

/-- A sweep removes no live grant. -/
theorem live?_sweep (g : Gateway α) (key : String) (now : Time) :
    (g.sweep now).2.live? now key = g.live? now key := by
  refine Option.ext fun grant => ?_
  rw [live?_eq_some_iff, live?_eq_some_iff, lookup_sweep]
  exact ⟨fun h => h.1, fun h => ⟨h, h.2⟩⟩

/-- A request removes a live grant only by admitting its token. -/
theorem live?_accept (g : Gateway α) (r : Request α) (key : String) (now : Time) :
    (g.accept r now).2.live? now key =
      if g.admits r now = true ∧ r.token = key then none else g.live? now key := by
  cases g.outcome r now with
  | undrawn drawn verdict kept => rw [live?, kept, verdict]; simp [live?]
  | unknown drawn found verdict kept => rw [live?, kept, verdict]; simp [live?]
  | expired grant drawn found late verdict kept =>
    rw [live?_of_erase kept, verdict]
    by_cases same : r.token = key
    · rw [if_pos same, if_neg (by simp), ← same, live?_of_expired found late]
    · rw [if_neg same, if_neg (by simp)]
  | misplaced grant drawn found early other verdict kept => rw [live?, kept, verdict]; simp [live?]
  | granted grant drawn found early own verdict kept =>
    rw [live?_of_erase kept, verdict]
    simp

/-- Admission depends on `live?` alone. -/
theorem admits_iff_live (g : Gateway α) (r : Request α) (now : Time) :
    g.admits r now = true ↔
      g.canDraw = true ∧ ∃ grant, g.live? now r.token = some grant ∧
        grant.destination = g.nodeId ∧ grant.player = r.payload.id := by
  simp only [admits_iff, live?_eq_some_iff, and_assoc]

/-- Two gateways of one node with one token source, whose grants differ in expired ones at most. -/
structure Agree (now : Time) (g g' : Gateway α) : Prop where
  nodeId : g.nodeId = g'.nodeId
  tokens : g.tokens = g'.tokens
  live : ∀ token, g.live? now token = g'.live? now token

namespace Agree

variable {now : Time} {g g' : Gateway α}

/-- What is expired at `now` is expired at `t ≥ now`. -/
theorem later (h : Agree now g g') {t : Time} (ht : now ≤ t) : Agree t g g' := by
  refine ⟨h.nodeId, h.tokens, fun token => Option.ext fun grant => ?_⟩
  have live := h.live token
  rw [Option.ext_iff] at live
  have same := live grant
  rw [live?_eq_some_iff, live?_eq_some_iff] at same ⊢
  have stays : grant.Expired now → grant.Expired t := fun late => Int.lt_of_lt_of_le late ht
  constructor
  · rintro ⟨found, early⟩
    exact ⟨(same.mp ⟨found, fun late => early (stays late)⟩).1, early⟩
  · rintro ⟨found, early⟩
    exact ⟨(same.mpr ⟨found, fun late => early (stays late)⟩).1, early⟩

theorem validate (h : Agree now g g') (token : String) : Agree now (g.check token now).2 g' :=
  ⟨(g.nodeId_check token now).trans h.nodeId, (g.tokens_check now token).trans h.tokens,
    fun key => (g.live?_check token key now).trans (h.live key)⟩

theorem sweep (h : Agree now g g') : Agree now (g.sweep now).2 g' :=
  ⟨h.nodeId, h.tokens, fun key => (g.live?_sweep key now).trans (h.live key)⟩

/-- Agreeing gateways give one verdict. -/
theorem admits (h : Agree now g g') (r : Request α) : g.admits r now = g'.admits r now := by
  rw [Bool.eq_iff_iff, admits_iff_live, admits_iff_live, canDraw, canDraw, h.tokens, h.nodeId,
    h.live]

/-- Agreement survives a request that both are shown. -/
theorem accept (h : Agree now g g') (r : Request α) :
    Agree now (g.accept r now).2 (g'.accept r now).2 := by
  obtain ⟨tokens, nodeId⟩ := g.frame_accept r now
  obtain ⟨tokens', nodeId'⟩ := g'.frame_accept r now
  refine ⟨?_, ?_, fun key => ?_⟩
  · rw [nodeId, nodeId', h.nodeId]
  · rw [tokens, tokens', h.tokens]
  · rw [live?_accept, live?_accept, h.admits, h.live]

/-- Agreement survives an `initiate` that both are asked for. -/
theorem initiate (h : Agree now g g') (p : Payload α) (target : String) (cell : Cell) :
    Agree now (g.initiate p target cell now).2 (g'.initiate p target cell now).2 := by
  unfold Gateway.initiate
  rw [← h.tokens]
  split
  · exact ⟨h.nodeId, rfl, h.live⟩
  · refine ⟨h.nodeId, rfl, fun key => ?_⟩
    have same : g.grantFor p target cell now = g'.grantFor p target cell now := by
      rw [grantFor, grantFor, h.nodeId]
    have live := h.live key
    unfold live? at live ⊢
    rw [lookup_insert, lookup_insert, same]
    split
    · rfl
    · exact live

end Agree

end Gateway

end CellWorld
