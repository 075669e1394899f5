import Mathlib.Logic.Basic
import CellWorld.Node.Route
import CellWorld.Proofs.Books

/-!
# The endpoint that admits players

A request to `/handover` changes two things, the grants of the gateway and the simulation. It
changes both or neither.

* `Node.presented? method body` — the request that a body holds, none where the method is not `POST`
  or the body does not parse
* `Node.Admits n r served` — a reply with `success`, the grant of `r.token` erased, and the engine
  after `receive r.payload`
* `Node.Refuses n presented now served` — another status or a reply without `success`, the engine as
  it was, and the grants `purged`
* `Node.handleTransfer_ends` — one of the two
* `handover_all_or_nothing` — exactly one of the two, when it is `Admits`, and that the same body is
  refused in every later state
* `admitted_once` — a token in its last instant

Either way the position of the token source may change, since `Gateway.accept` draws the resume
token first. The texts of refusals are those of the model's `handleTransfer` and are not described
here.
-/

namespace CellWorld

variable {α : Type}

/-! ### What an answer tells -/

/-- Replies with one document agree in `success`. -/
theorem Reply.success_of_json {r r' : Reply}
    (same : Answer.json r.toJson = Answer.json r'.toJson) : r.success = r'.success := by
  have told (r : Reply) :
      (Json.chars r.toJson)[11]? = some (if r.success then 't' else 'f') := by
    unfold Reply.toJson
    cases Reply.textField "error" r.error ++ Reply.textField "target_ws_url" r.reconnectUrl ++
      Reply.textField "resume_token" r.resumeToken <;> cases r.success <;> rfl
  have chars : Json.chars r.toJson = Json.chars r'.toJson :=
    String.ofList_injective (congrArg Answer.body same)
  have letter := told r
  rw [chars, told r'] at letter
  cases hr : r.success <;> cases hr' : r'.success <;> simp_all

/-- An answer in plain text is none in JSON: their content types differ. -/
theorem Answer.text_ne_json (status : Nat) (body : String) (j : Json) :
    Answer.text status body ≠ Answer.json j := by
  intro same
  have types : "text/plain; charset=utf-8" = "application/json" := congrArg Answer.contentType same
  exact absurd types (by decide)

/-! ### The gateway after a request -/

namespace Gateway

variable (g : Gateway α)

theorem frame_check (token : String) (now : Time) :
    ∃ grants, (g.check token now).2 = { g with grants } := by
  unfold check forget
  split
  · exact ⟨g.grants, rfl⟩
  · split
    · exact ⟨_, rfl⟩
    · split <;> exact ⟨g.grants, rfl⟩

/-- Only `tokens` and `grants` of a gateway change in `accept`. -/
theorem accept_changes (r : Request α) (now : Time) :
    ∃ tokens grants, (g.accept r now).2 = { g with tokens, grants } := by
  cases drawn : g.tokens.draw with
  | mk token tokens =>
    cases token with
    | error fault => exact ⟨tokens, g.grants, by simp only [accept, drawn]⟩
    | ok resume =>
      obtain ⟨grants, checked⟩ := frame_check { g with tokens } r.token now
      simp only [accept, drawn]
      split
      · next looked =>
        rw [looked] at checked
        exact ⟨tokens, grants, checked⟩
      · next looked =>
        rw [looked] at checked
        dsimp only at checked
        subst checked
        split
        · exact ⟨tokens, _, rfl⟩
        · exact ⟨tokens, grants, rfl⟩

/-- The grants after a refusal: the presented grant goes if it is expired and a token could be
drawn, all others stay. -/
def purged (g : Gateway α) (presented : Option (Request α)) (now : Time) :
    Std.TreeMap String (Grant α) :=
  match presented with
  | some r =>
    if g.canDraw && g.holdsExpired now r.token then g.grants.erase r.token else g.grants
  | none => g.grants

end Gateway

/-! ### The ways in which a request can end -/

namespace Node

/-- The request in a body. The method is compared without regard to case. -/
def presented? (method : String) (body : List UInt8) : Option (Request Float) :=
  if method.toList.map Char.toUpper ≠ "POST".toList then none
  else (Tree.parse? (Text.Utf8.decode body)).bind Request.ofTree?

/-- The request depends on the body alone, wherever there is one. -/
theorem presented?_unique {method method' : String} {body : List UInt8} {r r' : Request Float}
    (h : presented? method body = some r) (h' : presented? method' body = some r') : r' = r := by
  unfold presented? at h h'
  split at h
  · exact absurd h.symm (Option.some_ne_none r)
  · split at h'
    · exact absurd h'.symm (Option.some_ne_none r')
    · exact Option.some.inj (h'.symm.trans h)

/-- The request is granted: the reply says so, `receive` has let the player in, and its grant is
gone. -/
structure Admits (n : Node Float) (r : Request Float) (served : Answer × Node Float) : Prop where
  told : ∃ reply : Reply, reply.success = true ∧ served.1 = .json reply.toJson
  done : ∃ tokens, served.2 = { n with
    engine := (n.engine.receive r.payload).2
    gateway := { n.gateway with tokens, grants := n.gateway.grants.erase r.token } }

/-- The request is not granted: the engine is unchanged, and of the grants that of the presented
token alone may be gone. -/
structure Refuses (n : Node Float) (presented : Option (Request Float)) (now : Time)
    (served : Answer × Node Float) : Prop where
  told : (∃ status body, status ≠ 200 ∧ served.1 = .text status body) ∨
    ∃ reply : Reply, reply.success = false ∧ served.1 = .json reply.toJson
  kept : ∃ tokens, served.2 = { n with
    gateway := { n.gateway with tokens, grants := n.gateway.purged presented now } }

/-- The replies of the two exclude each other. -/
theorem Admits.not_refuses {n : Node Float} {r : Request Float} {served : Answer × Node Float}
    (h : n.Admits r served) (presented : Option (Request Float)) (now : Time) :
    ¬ n.Refuses presented now served := by
  intro refused
  obtain ⟨reply, success, document⟩ := h.told
  rcases refused.told with ⟨status, body, -, plain⟩ | ⟨reply', failure, document'⟩
  · exact Answer.text_ne_json status body _ (plain.symm.trans document)
  · have same := Reply.success_of_json (document.symm.trans document')
    rw [success, failure] at same
    exact Bool.false_ne_true same.symm

/-- A request that was read ends as `gateway.admits` says. -/
theorem admits_acceptTransfer (n : Node Float) (r : Request Float) (now : Time) :
    let served := match n.acceptTransfer r now with
      | (.ok reply, after) => (Answer.json reply.toJson, after)
      | (.error fault, after) => (Answer.text 500 fault.message, after)
    (n.gateway.admits r now = true ∧ n.Admits r served) ∨
      (n.gateway.admits r now = false ∧ n.Refuses (some r) now served) := by
  obtain ⟨tokens, grants, after⟩ := n.gateway.accept_changes r now
  have left := n.gateway.grants_accept r now
  rw [after] at left
  dsimp only at left
  unfold acceptTransfer
  cases answer : (n.gateway.accept r now).1 with
  | error fault =>
    have verdict : n.gateway.admits r now = false := by simp only [Gateway.admits, answer]
    rw [verdict, Bool.false_or] at left
    refine Or.inr ⟨verdict, Or.inl ⟨500, fault.message, by decide, ?_⟩, tokens, ?_⟩
    · simp only [answer]
    · simp only [answer, after, left, Gateway.purged]
  | ok reply =>
    have verdict : n.gateway.admits r now = reply.success := by simp only [Gateway.admits, answer]
    cases success : reply.success with
    | true =>
      rw [success] at verdict
      rw [verdict, Bool.true_or, if_pos rfl] at left
      refine Or.inl ⟨verdict, ⟨reply, success, ?_⟩, tokens, ?_⟩
      · simp only [answer, success, if_true]
      · simp only [answer, success, if_true, after, left]
    | false =>
      rw [success] at verdict
      rw [verdict, Bool.false_or] at left
      refine Or.inr ⟨verdict, Or.inr ⟨reply, success, ?_⟩, tokens, ?_⟩
      · simp only [answer, success, Bool.false_eq_true, if_false]
      · simp only [answer, success, Bool.false_eq_true, if_false, after, left, Gateway.purged]

/-- Every call of `handleTransfer` ends as `Admits` with an admitted request, or as `Refuses`. -/
theorem handleTransfer_ends (n : Node Float) (method : String) (body : List UInt8) (now : Time) :
    (∃ r, presented? method body = some r ∧ n.gateway.admits r now = true ∧
      n.Admits r (n.handleTransfer method body now)) ∨
    ((∀ r, presented? method body = some r → n.gateway.admits r now = false) ∧
      n.Refuses (presented? method body) now (n.handleTransfer method body now)) := by
  have unread (status : Nat) (text : String) (wrong : status ≠ 200) :
      n.Refuses none now (.text status text, n) :=
    ⟨Or.inl ⟨status, text, wrong, rfl⟩, n.gateway.tokens, rfl⟩
  unfold handleTransfer presented?
  split
  · exact Or.inr ⟨nofun, unread 405 _ (by decide)⟩
  · cases read : (Tree.parse? (Text.Utf8.decode body)).bind Request.ofTree? with
    | none => exact Or.inr ⟨nofun, unread 400 _ (by decide)⟩
    | some r =>
      rcases n.admits_acceptTransfer r now with ⟨verdict, ends⟩ | ⟨verdict, ends⟩
      · exact Or.inl ⟨r, rfl, verdict, ends⟩
      · refine Or.inr ⟨fun r' same => ?_, ends⟩
        rw [← Option.some.inj same]
        exact verdict

end Node

/-! ### All or nothing -/

/-- For every node, method, body and time, with a target whose path is `/handover`: `Admits` for the
presented request or `Refuses`, and not both. `Admits` holds iff `canDraw` and the grant of
`r.token` is kept, is not `Expired`, has the destination `nodeId` and the player `r.payload.id`.
After `Admits`, let any demands reach the gateway that do not mint `r.token` again: any node with
these grants refuses the same body, whatever its engine. -/
theorem handover_all_or_nothing (n : Node Float) (method target : String) (body : List UInt8)
    (now : Time) (path : Target.path target = "/handover") :
    let presented := Node.presented? method body
    let served := n.route method target body now
    Xor (∃ r, presented = some r ∧ n.Admits r served) (n.Refuses presented now served) ∧
    (∀ r, presented = some r → (n.Admits r served ↔
      n.gateway.canDraw = true ∧ ∃ grant, n.gateway.grants[r.token]? = some grant ∧
        ¬ grant.Expired now ∧ grant.destination = n.gateway.nodeId ∧
        grant.player = r.payload.id)) ∧
    ∀ r, presented = some r → n.Admits r served →
      ∀ (ds : List (Demand Float)) (later : Node Float) (method' target' : String) (t : Time),
        let past : Ledger Float := ({ gateway := served.2.gateway } : Ledger Float).run ds
        (∀ m ∈ past.minted, m.token ≠ r.token) → later.gateway.grants = past.gateway.grants →
        Target.path target' = "/handover" →
          later.Refuses (Node.presented? method' body) t (later.route method' target' body t) := by
  have routed (n : Node Float) (method target : String) (now : Time)
      (path : Target.path target = "/handover") :
      n.route method target body now = n.handleTransfer method body now := by
    unfold Node.route
    rw [path]
    rfl
  intro presented served
  have ends := n.handleTransfer_ends method body now
  rw [← routed n method target now path] at ends
  refine ⟨?_, ?_, ?_⟩
  · rcases ends with ⟨r, read, -, admits⟩ | ⟨-, refuses⟩
    · exact Or.inl ⟨⟨r, read, admits⟩, admits.not_refuses presented now⟩
    · exact Or.inr ⟨refuses, fun ⟨r, _, admits⟩ => admits.not_refuses presented now refuses⟩
  · intro r read
    rw [← Gateway.admits_iff]
    rcases ends with ⟨r', read', verdict, admits⟩ | ⟨verdict, refuses⟩
    · obtain rfl : r' = r := Option.some.inj (read'.symm.trans read)
      exact iff_of_true admits verdict
    · refine iff_of_false (fun admits => admits.not_refuses presented now refuses) ?_
      rw [verdict r read]
      exact Bool.false_ne_true
  · intro r read admits ds later method' target' t past fresh grants path'
    rw [routed later method' target' t path']
    rcases later.handleTransfer_ends method' body t with ⟨r', read', verdict, -⟩ | ⟨-, refuses⟩
    · -- a token that was used up is kept again only if it is minted again
      obtain rfl : r' = r := Node.presented?_unique read read'
      obtain ⟨-, grant, found, -⟩ := (later.gateway.admits_iff r' t).mp verdict
      rw [grants] at found
      have before := Ledger.kept_run ds _ found fresh
      obtain ⟨tokens, done⟩ := admits.done
      rw [done] at before
      dsimp only at before
      rw [lookup_erase, if_pos rfl] at before
      exact absurd before.symm (Option.some_ne_none grant)
    · exact refuses

/-- A player whose token is in its last instant is admitted, and the same body is refused from then
on. -/
theorem admitted_once :
    let body := Text.Utf8.encode "[\"t\",[\"p1\",\"one\",[0,0,0],[0,0,0],0,[0,0]]]"
    let p : Payload Float := ⟨"p1", "one", ⟨0, 0, 0⟩, ⟨0, 0, 0⟩, 0, ⟨0, 0⟩, none, 0⟩
    let n : Node Float :=
      { engine := .create .standard (.ofSeed 1)
        gateway :=
          { nodeId := "local", port := 80, tokens := { outcome := fun n => .ok (toString n) }
            grants := Std.TreeMap.insert {} "t"
              ⟨"p1", "a", "local", ⟨0, 0⟩, ⟨0, 0⟩, p, ⟨0⟩, ⟨30000000000⟩⟩ } }
    let first := n.route "POST" "/handover?x=1" body ⟨30000000000⟩
    (∃ r, Node.presented? "POST" body = some r ∧ n.Admits r first) ∧
      ∀ t, first.2.Refuses (Node.presented? "post" body) t
        (first.2.route "post" "/handover" body t) := by
  intro body p n first
  have path : Target.path "/handover?x=1" = "/handover" := by decide +kernel
  have path' : Target.path "/handover" = "/handover" := by decide +kernel
  have read : (Node.presented? "POST" body).map (fun r => (r.token, r.payload.id)) =
      some ("t", "p1") := by decide +kernel
  obtain ⟨r, presented, its⟩ := Option.map_eq_some_iff.mp read
  obtain ⟨token, player⟩ := Prod.mk.inj its
  obtain ⟨-, granted, again⟩ :=
    handover_all_or_nothing n "POST" "/handover?x=1" body ⟨30000000000⟩ path
  have admits : n.Admits r first := by
    refine (granted r presented).mpr ⟨rfl, ⟨"p1", "a", "local", ⟨0, 0⟩, ⟨0, 0⟩, p, ⟨0⟩,
      ⟨30000000000⟩⟩, ?_, by decide, rfl, player.symm⟩
    rw [token]
    exact Std.TreeMap.getElem?_insert_self
  refine ⟨⟨r, presented, admits⟩, fun t => ?_⟩
  exact again r presented admits [] first.2 "post" "/handover" t nofun rfl path'

end CellWorld
