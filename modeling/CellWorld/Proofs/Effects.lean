import CellWorld.Node.Route

/-!
# What answers leave alone

An answer whose status is not `200` may have drawn a token from the source before it failed, and has
changed nothing else.

* `Node.Harmless` — `status = 200`, or the node differs in `gateway.tokens` at most
* `Node.harmless_answer` — every endpoint, with every method, parameters and body
* `Endpoint.readers`, `Node.answer_of_reader` — the endpoints after which `n` is the same node,
  whatever they answer
* `errors_change_nothing` — both for `Node.route`, with the path of the target

The position of the token source is the one exception and is real: `Gateway.accept` draws a token
before it looks the request up. That answers with status `200` have the right effect is not the
subject here.
-/

namespace CellWorld

/-! ### The simulation and the gateway -/

namespace Engine

variable {α : Type} (e : Engine α)

theorem setVelocity_of_false {id : String} {vel : Point α}
    (h : (e.setVelocity id vel).1 = false) : (e.setVelocity id vel).2 = e := by
  unfold setVelocity attempt at h ⊢
  split at h
  · exact absurd h.symm Bool.false_ne_true
  · rfl

theorem unregister_of_none {id : String} (h : (e.unregister id).1 = none) :
    (e.unregister id).2 = e := by
  by_cases known : e.territory.known.contains id = true
  · simp [unregister, Territory.unregister, known] at h
  · simp [unregister, Territory.unregister, known]

end Engine

/-- If no token can be drawn, `accept` has looked nothing up: only the source has moved on. -/
theorem Gateway.accept_of_error {α : Type} (g : Gateway α) {r : Request α} {now : Time}
    {fault : Fault} (h : (g.accept r now).1 = .error fault) :
    (g.accept r now).2 = { g with tokens := g.tokens.draw.2 } := by
  cases drawn : g.tokens.draw with
  | mk token tokens =>
    simp only [accept, drawn] at h ⊢
    cases token with
    | error cause => rfl
    | ok resume =>
      dsimp only at h
      split at h
      · exact nomatch h
      · split at h <;> exact nomatch h

/-! ### Endpoints -/

namespace Node

variable (n : Node Float)

/-- The answer has status `200`, or at most `gateway.tokens` is another. -/
def Harmless (served : Answer × Node Float) : Prop :=
  served.1.status = 200 ∨ ∃ tokens, served.2 = { n with gateway := { n.gateway with tokens } }

theorem harmless_self (answer : Answer) : n.Harmless (answer, n) :=
  Or.inr ⟨n.gateway.tokens, rfl⟩

/-- The node after `/dev/vel` is `setVelocity` of its engine, whether or not the player was
found. -/
theorem answerVelocity_keeps (p : Params) :
    (n.answerVelocity p).2 = { n with
      engine := (n.engine.setVelocity ((p.get? "id").getD "")
        (.planar (p.coordinate "vx") (p.coordinate "vz"))).2 } := by
  unfold answerVelocity
  split
  · next moved => rw [moved]
  · next missed => rw [n.engine.setVelocity_of_false (by rw [missed])]

/-- The node after `/dev/node/unregister` is `unregister` of its engine. -/
theorem answerUnregister_keeps (p : Params) {id : String} (named : p.get? "id" = some id) :
    (n.answerUnregister p).2 = { n with engine := (n.engine.unregister id).2 } := by
  simp only [answerUnregister, named]
  split
  · next known => rw [known]
  · next unknown => rw [n.engine.unregister_of_none (by rw [unknown])]

/-- A transfer fails before `receive`, or is answered with `200`. -/
theorem harmless_handleTransfer (method : String) (body : List UInt8) (now : Time) :
    n.Harmless (n.handleTransfer method body now) := by
  unfold handleTransfer
  split
  · exact n.harmless_self _
  · split
    · exact n.harmless_self _
    · next r read =>
      cases answer : (n.gateway.accept r now).1 with
      | error fault =>
        have kept := n.gateway.accept_of_error answer
        simp only [acceptTransfer, answer, kept]
        exact Or.inr ⟨n.gateway.tokens.draw.2, rfl⟩
      | ok reply =>
        refine Or.inl ?_
        cases success : reply.success <;> simp [acceptTransfer, answer, success, Answer.json]

theorem harmless_answerVelocity (p : Params) : n.Harmless (n.answerVelocity p) := by
  by_cases missed : (n.engine.setVelocity ((p.get? "id").getD "")
      (.planar (p.coordinate "vx") (p.coordinate "vz"))).1 = false
  · refine Or.inr ⟨n.gateway.tokens, ?_⟩
    rw [answerVelocity_keeps, n.engine.setVelocity_of_false missed]
  · refine Or.inl ?_
    unfold answerVelocity
    split
    · rfl
    · next unmoved => exact absurd (congrArg Prod.fst unmoved) missed

theorem harmless_answerRegister (p : Params) : n.Harmless (n.answerRegister p) := by
  unfold answerRegister
  split
  · split
    · exact Or.inl rfl
    · exact n.harmless_self _
  · exact n.harmless_self _

theorem harmless_answerUnregister (p : Params) : n.Harmless (n.answerUnregister p) := by
  cases named : p.get? "id" with
  | none =>
    simp only [answerUnregister, named]
    exact n.harmless_self _
  | some id =>
    by_cases unknown : (n.engine.unregister id).1 = none
    · refine Or.inr ⟨n.gateway.tokens, ?_⟩
      rw [n.answerUnregister_keeps p named, n.engine.unregister_of_none unknown]
    · refine Or.inl ?_
      simp only [answerUnregister, named]
      split
      · rfl
      · next missed => exact absurd (congrArg Prod.fst missed) unknown

theorem harmless_answerAssign (p : Params) : n.Harmless (n.answerAssign p) := by
  unfold answerAssign
  split
  · split
    · exact Or.inl rfl
    · exact n.harmless_self _
  · exact n.harmless_self _

/-- Every endpoint is harmless. The cases are the constructors of `Endpoint`. -/
theorem harmless_answer (endpoint : Endpoint) (method : String) (p : Params) (body : List UInt8)
    (now : Time) : n.Harmless (n.answer endpoint method p body now) := by
  cases endpoint with
  | handover => exact n.harmless_handleTransfer method body now
  | velocity => exact n.harmless_answerVelocity p
  | registerNode => exact n.harmless_answerRegister p
  | unregisterNode => exact n.harmless_answerUnregister p
  | assignCell => exact n.harmless_answerAssign p
  | spawn => exact Or.inl rfl
  | health | settings | metrics | players | entities | territory => exact n.harmless_self _

end Node

def Endpoint.readers : List Endpoint := [health, settings, metrics, players, entities, territory]

theorem Node.answer_of_reader (n : Node Float) {endpoint : Endpoint}
    (reads : endpoint ∈ Endpoint.readers) (method : String) (p : Params) (body : List UInt8)
    (now : Time) : (n.answer endpoint method p body now).2 = n := by
  simp only [Endpoint.readers, List.mem_cons, List.not_mem_nil, or_false] at reads
  rcases reads with rfl | rfl | rfl | rfl | rfl | rfl <;> rfl

/-- The paths of `readers`. -/
def Endpoint.readerPaths : List String :=
  ["/healthz", "/config", "/metrics.json", "/dev/players", "/dev/entities", "/dev/node/info"]

theorem Endpoint.lookup_readerPath {path : String} (reads : path ∈ readerPaths) :
    ∃ endpoint ∈ readers, paths.lookup path = some endpoint := by
  have all : ∀ path ∈ readerPaths, (paths.lookup path).any (· ∈ readers) = true := by decide
  obtain ⟨endpoint, found, reader⟩ := (Option.any_eq_true ..).mp (all path reads)
  exact ⟨endpoint, of_decide_eq_true reader, found⟩

/-- For every node, method, target, body and time: if the status is not `200`, the node differs in
`gateway.tokens` at most; and a target with a path of `readerPaths` leaves the node equal. -/
theorem errors_change_nothing (n : Node Float) (method target : String) (body : List UInt8)
    (now : Time) :
    let served := n.route method target body now
    (served.1.status ≠ 200 →
      ∃ tokens, served.2 = { n with gateway := { n.gateway with tokens } }) ∧
    (Target.path target ∈ Endpoint.readerPaths → served.2 = n) := by
  intro served
  constructor
  · intro error
    have harmless : n.Harmless served := by
      show n.Harmless (n.route method target body now)
      unfold Node.route
      split
      · exact n.harmless_answer _ _ _ _ _
      · exact n.harmless_self _
    exact harmless.resolve_left error
  · intro reads
    obtain ⟨endpoint, reader, found⟩ := Endpoint.lookup_readerPath reads
    show (n.route method target body now).2 = n
    simp only [Node.route, found]
    exact n.answer_of_reader reader _ _ _ _

/-- A node whose token source fails keeps the grant of the player that asks to be admitted, and a
request for its settings leaves it as it is. -/
theorem broken_source_changes_nothing :
    let p : Payload Float := ⟨"p1", "one", ⟨0, 0, 0⟩, ⟨0, 0, 0⟩, 0, ⟨0, 0⟩, none, 0⟩
    let n : Node Float :=
      { engine := .create .standard (.ofSeed 1)
        gateway :=
          { nodeId := "local", port := 80, tokens := { outcome := fun _ => .error "closed" }
            grants := Std.TreeMap.insert {} "t"
              ⟨"p1", "a", "local", ⟨0, 0⟩, ⟨0, 0⟩, p, ⟨0⟩, ⟨30000000000⟩⟩ } }
    let body := Text.Utf8.encode "[\"t\",[\"p1\",\"one\",[0,0,0],[0,0,0],0,[0,0]]]"
    let failed := n.route "POST" "/handover" body ⟨0⟩
    failed.1.status = 500 ∧
      (∃ tokens, failed.2 = { n with gateway := { n.gateway with tokens } }) ∧
      (n.route "POST" "/config?cell_size=1" body ⟨0⟩).2 = n := by
  intro p n body failed
  have status : failed.1.status = 500 := by decide +kernel
  have reads : Target.path "/config?cell_size=1" ∈ Endpoint.readerPaths := by decide +kernel
  exact ⟨status, (errors_change_nothing n "POST" "/handover" body ⟨0⟩).1 (by rw [status]; decide),
    (errors_change_nothing n "POST" "/config?cell_size=1" body ⟨0⟩).2 reads⟩

end CellWorld
