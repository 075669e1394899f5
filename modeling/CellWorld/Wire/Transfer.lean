import CellWorld.Json.Decode
import CellWorld.Territory
import CellWorld.Transfer.Basic

/-!
# Documents of a move between nodes

For each record a value and a reader. A reader takes an object or an array of the fields in order;
`toJson` writes the object with its keys in that order.

* `Point`, `Cell` — three coordinates; column and row
* `EntityKind`, `TransferStatus` — names
* `Time` — whole milliseconds, so less than a document is told
* `Payload`, `Grant`, `Request`, `Reply`, `TransferRecord`, `NodeInfo` — the records

That a reader takes back what was written is in `Proofs.RoundTrip`, for finite coordinates and times
of whole milliseconds.
-/

namespace CellWorld

def Json.nat (n : Nat) : Json := .int n

/-! ### Positions -/

def Point.toJson (p : Point Float) : Json := .arr [.ofFloat p.x, .ofFloat p.y, .ofFloat p.z]

namespace Cell

def toJson (c : Cell) : Json := .obj [("cx", .int c.cx.toInt), ("cz", .int c.cz.toInt)]

def ofTree? (t : Tree) : Option Cell := do
  let [cx, cz] ← t.slots? ["cx", "cz"] | none
  return ⟨← cx.required Tree.int32?, ← cz.required Tree.int32?⟩

end Cell

/-! ### Names -/

def EntityKind.toJson (k : EntityKind) : Json := .str k.text

def EntityKind.ofTree? (t : Tree) : Option EntityKind := t.oneOf? names

def TransferStatus.toJson (s : TransferStatus) : Json := .str s.text

def TransferStatus.ofTree? (t : Tree) : Option TransferStatus := t.oneOf? names

/-! ### Times -/

def Time.toJson (t : Time) : Json := .nat t.millis.toNat

def Time.ofTree? (t : Tree) : Option Time := t.uint64?.map Time.ofMillis

/-! ### Records -/

namespace Payload

def toJson (p : Payload Float) : Json := .obj [
  ("id", .str p.id),
  ("name", .str p.name),
  ("pos", p.pos.toJson),
  ("vel", p.vel.toJson),
  ("yaw", .ofFloat p.yaw),
  ("owned_cell", p.ownedCell.toJson),
  ("prev_cell", .ofOption Cell.toJson p.prevCell),
  ("last_seq", .nat p.lastSeq.toNat)]

def ofTree? (t : Tree) : Option (Payload Float) := do
  let [id, name, pos, vel, yaw, ownedCell, prevCell, lastSeq] ← t.slots?
    ["id", "name", "pos", "vel", "yaw", "owned_cell", "prev_cell", "last_seq"] | none
  return {
    id := ← id.required Tree.text?
    name := ← name.required Tree.text?
    pos := ← pos.required Tree.point?
    vel := ← vel.required Tree.point?
    yaw := ← yaw.required Tree.float?
    ownedCell := ← ownedCell.required Cell.ofTree?
    prevCell := ← prevCell.defaulted (Tree.nullable? Cell.ofTree?) none
    lastSeq := ← lastSeq.defaulted Tree.uint64? 0 }

end Payload

namespace Grant

def toJson (g : Grant Float) : Json := .obj [
  ("player_id", .str g.player),
  ("from_node", .str g.origin),
  ("to_node", .str g.destination),
  ("from_cell", g.fromCell.toJson),
  ("to_cell", g.toCell.toJson),
  ("player_data", g.payload.toJson),
  ("issued_at", g.issuedAt.toJson),
  ("expires_at", g.expiresAt.toJson)]

def ofTree? (t : Tree) : Option (Grant Float) := do
  let [player, origin, destination, fromCell, toCell, payload, issuedAt, expiresAt] ← t.slots?
    ["player_id", "from_node", "to_node", "from_cell", "to_cell", "player_data", "issued_at",
      "expires_at"] | none
  return {
    player := ← player.required Tree.text?
    origin := ← origin.required Tree.text?
    destination := ← destination.required Tree.text?
    fromCell := ← fromCell.required Cell.ofTree?
    toCell := ← toCell.required Cell.ofTree?
    payload := ← payload.required Payload.ofTree?
    issuedAt := ← issuedAt.required Time.ofTree?
    expiresAt := ← expiresAt.required Time.ofTree? }

end Grant

namespace Request

def toJson (r : Request Float) : Json := .obj [
  ("token", .str r.token),
  ("player_data", r.payload.toJson)]

def ofTree? (t : Tree) : Option (Request Float) := do
  let [token, payload] ← t.slots? ["token", "player_data"] | none
  return {
    token := ← token.required Tree.text?
    payload := ← payload.required Payload.ofTree? }

end Request

namespace Reply

/-- A text field, left out when the text is empty. -/
def textField (key value : String) : List (String × Json) :=
  if value = "" then [] else [(key, .str value)]

def toJson (r : Reply) : Json := .obj (
  ("success", .bool r.success) :: (textField "error" r.error ++
    textField "target_ws_url" r.reconnectUrl ++ textField "resume_token" r.resumeToken))

def ofTree? (t : Tree) : Option Reply := do
  let [success, error, reconnectUrl, resumeToken] ← t.slots?
    ["success", "error", "target_ws_url", "resume_token"] | none
  return {
    success := ← success.required Tree.bool?
    error := ← error.defaulted Tree.text? ""
    reconnectUrl := ← reconnectUrl.defaulted Tree.text? ""
    resumeToken := ← resumeToken.defaulted Tree.text? "" }

end Reply

namespace TransferRecord

def toJson (r : TransferRecord) : Json := .obj [
  ("target_node", .str r.target),
  ("from_cell", r.fromCell.toJson),
  ("to_cell", r.toCell.toJson),
  ("status", r.status.toJson),
  ("initiated_at", r.startedAt.toJson),
  ("token", .ofOption .str r.token),
  ("error", .ofOption .str r.error)]

def ofTree? (t : Tree) : Option TransferRecord := do
  let [target, fromCell, toCell, status, startedAt, token, error] ← t.slots?
    ["target_node", "from_cell", "to_cell", "status", "initiated_at", "token", "error"] | none
  return {
    target := ← target.required Tree.text?
    fromCell := ← fromCell.required Cell.ofTree?
    toCell := ← toCell.required Cell.ofTree?
    status := ← status.required TransferStatus.ofTree?
    startedAt := ← startedAt.required Time.ofTree?
    token := ← token.optional (Tree.nullable? Tree.text?)
    error := ← error.optional (Tree.nullable? Tree.text?) }

end TransferRecord

namespace NodeInfo

def toJson (n : NodeInfo) : Json := .obj [
  ("id", .str n.id),
  ("address", .str n.address),
  ("port", .nat n.port.toNat)]

def ofTree? (t : Tree) : Option NodeInfo := do
  let [id, address, port] ← t.slots? ["id", "address", "port"] | none
  return {
    id := ← id.required Tree.text?
    address := ← address.required Tree.text?
    port := ← port.required Tree.uint16? }

end NodeInfo

end CellWorld
