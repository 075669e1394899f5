import CellWorld.Json.Tree
import CellWorld.Text.Utf8
import CellWorld.Wire.Transfer

/-!
# Asking another node

* `Post` — what is sent to the other node; `Request.postTo` — a request as a post
* `Delivery` — what comes back: nothing, or a status and a body
* `ExchangeError` — why there is no reply to read: nothing came, the status is not `200` to `299`,
  or the body holds no reply
* `Reply.ofDelivery` — the reply, or which of the three it was

A delivery that never comes is `unreachable`; how long it is waited for is decided outside.
-/

namespace CellWorld

/-- A document that is posted to a node. -/
structure Post where
  target : NodeInfo
  path : String
  contentType : String
  body : String
deriving DecidableEq

/-- What comes back from another node. -/
inductive Delivery where
  /-- Nobody has answered. -/
  | unreachable
  | answered (status : Nat) (body : List UInt8)

/-- Why there is no reply to read. -/
inductive ExchangeError where
  | transport (url : String)
  | status (url : String) (status : Nat)
  | decode (url : String)
deriving DecidableEq

/-- What is said of a failed exchange. The cause of the first and the last kind is left open. -/
def ExchangeError.message : ExchangeError → String
  | .transport url => "sending handover request to " ++ url
  | .status url code =>
    "handover request to " ++ url ++ " returned HTTP " ++ toString code
  | .decode url => "decoding handover response from " ++ url

def Request.postTo (r : Request Float) (target : NodeInfo) : Post where
  target
  path := NodeInfo.handoverPath
  contentType := "application/json"
  body := r.toJson.render

/-- The reply that a node has given, if it is one. -/
def Reply.ofDelivery (url : String) : Delivery → Except ExchangeError Reply
  | .unreachable => .error (.transport url)
  | .answered status body =>
    if 200 ≤ status ∧ status < 300 then
      match (Tree.parse? (Text.Utf8.decode body)).bind ofTree? with
      | some reply => .ok reply
      | none => .error (.decode url)
    else .error (.status url status)

end CellWorld
