import CellWorld.Node.Route
import CellWorld.Proofs.Bytes
import CellWorld.Proofs.Gateway
import CellWorld.Proofs.RoundTrip
import CellWorld.Transfer.Peer

/-!
# Asking a node over the wire

A node that asks another to take a player in gets the reply that the gateway of the other gives, and
leaves the other as if `accept` and `receive` had been called on the spot.

* `Node.deliver`, `Node.ask` — a document that is posted to a node, and the whole exchange over
  bytes and routes
* `Gateway.accept_tokens` — the reply but for `resumeToken`, and the grants, do not depend on the
  token source
* `Node.ask_eq` — the exchange equals `accept`, followed by `receive` if `reply.success`
* `ask_as_on_the_spot` — both, for every node that can draw a token and every payload with finite
  numbers
* `asked_twice` — a player that is awkward to write down, admitted and then refused

Delivery is assumed here: `deliver` answers. What a client makes of a node that does not is
`Reply.ofDelivery`. A payload with a number that is not finite has no text and is excluded by
`Payload.Finite`.
-/

namespace CellWorld

/-! ### Exchanges -/

namespace Node

/-- The answer to a posted document, as bytes, with the node after it. -/
def deliver (n : Node Float) (p : Post) (now : Time) : Delivery × Node Float :=
  let (answer, n) := n.route "POST" p.path (Text.Utf8.encode p.body) now
  (.answered answer.status (Text.Utf8.encode answer.body), n)

/-- Asks the node `n`, of which `known` is known, to take a player in. -/
def ask (n : Node Float) (known : NodeInfo) (r : Request Float) (now : Time) :
    Except ExchangeError Reply × Node Float :=
  let (delivery, n) := n.deliver (r.postTo known) now
  (Reply.ofDelivery known.handoverUrl delivery, n)

end Node

/-! ### Documents on their way -/

/-- Encoding, rendering and parsing a request with finite numbers gives it back. -/
theorem Request.parse?_postTo {r : Request Float} (finite : r.payload.Finite) (known : NodeInfo) :
    (Tree.parse? (Text.Utf8.decode (Text.Utf8.encode (r.postTo known).body))).bind ofTree? =
      some r := by
  rw [Tree.parse?_encode]
  exact readText?_render r.finite_toJson (ofTree?_tree finite)

/-- Encoding, rendering and parsing a reply gives it back, with success or without. -/
theorem Reply.ofDelivery_json (url : String) (reply : Reply) :
    ofDelivery url (.answered (Answer.json reply.toJson).status
      (Text.Utf8.encode (Answer.json reply.toJson).body)) = .ok reply := by
  have read : (Tree.parse? (Text.Utf8.decode (Text.Utf8.encode reply.toJson.render))).bind ofTree? =
      some reply := by
    rw [Tree.parse?_encode]
    exact readText?_render reply.finite_toJson reply.ofTree?_tree
  simp only [ofDelivery, Answer.json, read]
  exact if_pos (by decide)

/-! ### The gateway -/

namespace Gateway

variable {α : Type} (g : Gateway α) (tokens : TokenSource) (r : Request α) (now : Time)

/-- The lookup of a token does not read the token source. -/
theorem check_tokens (token : String) :
    { g with tokens }.check token now =
      ((g.check token now).1, { (g.check token now).2 with tokens }) := by
  unfold check forget
  dsimp only
  split
  · rfl
  · split
    · rfl
    · split <;> rfl

theorem draw_of_canDraw (draws : g.canDraw = true) :
    ∃ token left, g.tokens.draw = (.ok token, left) := by
  cases drawn : g.tokens.draw with
  | mk token left =>
    cases token with
    | error fault =>
      rw [canDraw, drawn] at draws
      exact absurd draws Bool.false_ne_true
    | ok token => exact ⟨token, left, rfl⟩

/-- Two sources that can both draw lead to replies that differ in `resumeToken` at most, and to the
same grants. -/
theorem accept_tokens (draws : g.canDraw = true) (draws' : { g with tokens }.canDraw = true) :
    ∃ reply reply', (g.accept r now).1 = .ok reply ∧
      ({ g with tokens }.accept r now).1 = .ok reply' ∧
      { reply' with resumeToken := reply.resumeToken } = reply ∧
      ({ g with tokens }.accept r now).2.grants = (g.accept r now).2.grants := by
  obtain ⟨token, left, drawn⟩ := g.draw_of_canDraw draws
  obtain ⟨token', left', drawn'⟩ := { g with tokens }.draw_of_canDraw draws'
  simp only [accept, drawn, drawn', check_tokens]
  cases (g.check r.token now).1 with
  | error rejection => exact ⟨_, _, rfl, rfl, rfl, rfl⟩
  | ok grant =>
    dsimp only
    split <;> exact ⟨_, _, rfl, rfl, rfl, rfl⟩

end Gateway

/-! ### The exchange step by step -/

namespace Node

variable (n : Node Float) (r : Request Float) (now : Time)

theorem acceptTransfer_of_ok {reply : Reply} (answer : (n.gateway.accept r now).1 = .ok reply) :
    n.acceptTransfer r now = (.ok reply, { n with
      engine := if reply.success then (n.engine.receive r.payload).2 else n.engine
      gateway := (n.gateway.accept r now).2 }) := by
  unfold acceptTransfer
  cases success : reply.success with
  | true => simp only [answer, success, if_true]
  | false => simp only [answer, success, Bool.false_eq_true, if_false]

/-- The posted request reaches `/handover` and is read as it was written. -/
theorem route_postTo {reply : Reply} (finite : r.payload.Finite) (known : NodeInfo)
    (answer : (n.gateway.accept r now).1 = .ok reply) :
    n.route "POST" (r.postTo known).path (Text.Utf8.encode (r.postTo known).body) now =
      (.json reply.toJson, { n with
        engine := if reply.success then (n.engine.receive r.payload).2 else n.engine
        gateway := (n.gateway.accept r now).2 }) := by
  have path : Endpoint.paths.lookup (Target.path (r.postTo known).path) = some .handover := by
    show Endpoint.paths.lookup (Target.path NodeInfo.handoverPath) = _
    decide +kernel
  have posted : "POST".toList.map Char.toUpper = "POST".toList := by decide
  simp only [route, path, Node.answer, handleTransfer, posted, ne_eq, not_true_eq_false, if_false,
    Request.parse?_postTo finite, acceptTransfer_of_ok n r now answer]

theorem ask_eq {reply : Reply} (finite : r.payload.Finite) (known : NodeInfo)
    (answer : (n.gateway.accept r now).1 = .ok reply) :
    n.ask known r now = (.ok reply, { n with
      engine := if reply.success then (n.engine.receive r.payload).2 else n.engine
      gateway := (n.gateway.accept r now).2 }) := by
  simp only [ask, deliver, route_postTo n r now finite known answer, Reply.ofDelivery_json]

end Node

/-- If the payload is finite and a token can be drawn, there is a `reply` of `accept` such that
`ask` returns `.ok reply`, leaves the gateway of `accept`, and has `receive` in the engine iff
`reply.success`. With another source that can draw, `accept` gives the same reply up to
`resumeToken`, and the same grants. -/
theorem ask_as_on_the_spot (n : Node Float) (known : NodeInfo) (r : Request Float) (now : Time)
    (finite : r.payload.Finite) (draws : n.gateway.canDraw = true) :
    ∃ reply, (n.gateway.accept r now).1 = .ok reply ∧
      n.ask known r now = (.ok reply, { n with
        engine := if reply.success then (n.engine.receive r.payload).2 else n.engine
        gateway := (n.gateway.accept r now).2 }) ∧
      ∀ tokens : TokenSource, { n.gateway with tokens }.canDraw = true →
        ∃ reply', ({ n.gateway with tokens }.accept r now).1 = .ok reply' ∧
          { reply' with resumeToken := reply.resumeToken } = reply ∧
          ({ n.gateway with tokens }.accept r now).2.grants =
            (n.gateway.accept r now).2.grants := by
  obtain ⟨reply, -, answer, -, -, -⟩ :=
    n.gateway.accept_tokens n.gateway.tokens r now draws draws
  refine ⟨reply, answer, n.ask_eq r now finite known answer, fun tokens draws' => ?_⟩
  obtain ⟨same, reply', first, second, alike, grants⟩ :=
    n.gateway.accept_tokens tokens r now draws draws'
  obtain rfl : same = reply := Except.ok.inj (first.symm.trans answer)
  exact ⟨reply', second, alike, grants⟩

/-- A player that is awkward to write down is taken in over the wire, and refused over the wire when
its token is shown again. -/
theorem asked_twice :
    let p := Payload.awkward
    let n : Node Float :=
      { engine := .create .standard (.ofSeed 1)
        gateway :=
          { nodeId := "local", port := 80, tokens := { outcome := fun n => .ok (toString n) }
            grants := Std.TreeMap.insert {} "t"
              ⟨p.id, "a", "local", ⟨0, 0⟩, ⟨0, 0⟩, p, ⟨0⟩, ⟨30000000000⟩⟩ } }
    let known : NodeInfo := ⟨"local", "localhost", 80⟩
    let first := n.ask known ⟨"t", p⟩ ⟨0⟩
    p.Finite ∧ first.1 = .ok (.accepted "ws://localhost:80/ws" "0") ∧
      first.2.engine = (n.engine.receive p).2 ∧
      (first.2.ask known ⟨"t", p⟩ ⟨0⟩).1 =
        .ok (.refused "invalid handover token: token not found") := by
  intro p n known first
  have finite : p.Finite := Payload.finite_awkward
  have granted : (n.gateway.accept ⟨"t", p⟩ ⟨0⟩).1.toOption =
      some (.accepted "ws://localhost:80/ws" "0") := by decide +kernel
  have refused : ((n.gateway.accept ⟨"t", p⟩ ⟨0⟩).2.accept ⟨"t", p⟩ ⟨0⟩).1.toOption =
      some (.refused "invalid handover token: token not found") := by decide +kernel
  have draws : (n.gateway.accept ⟨"t", p⟩ ⟨0⟩).2.canDraw = true := by decide +kernel
  obtain ⟨reply, answer, asked, -⟩ := ask_as_on_the_spot n known ⟨"t", p⟩ ⟨0⟩ finite rfl
  rw [answer] at granted
  obtain rfl : reply = _ := Option.some.inj granted
  have after : first.2 = _ := congrArg Prod.snd asked
  have gateway : first.2.gateway = (n.gateway.accept ⟨"t", p⟩ ⟨0⟩).2 := congrArg Node.gateway after
  obtain ⟨again, answer', asked', -⟩ :=
    ask_as_on_the_spot first.2 known ⟨"t", p⟩ ⟨0⟩ finite (gateway ▸ draws)
  rw [gateway] at answer'
  rw [answer'] at refused
  obtain rfl : again = _ := Option.some.inj refused
  exact ⟨finite, congrArg Prod.fst asked, congrArg Node.engine after, congrArg Prod.fst asked'⟩

end CellWorld
