import CellWorld.Node.Basic
import CellWorld.Node.Query
import CellWorld.Number.Literal
import CellWorld.Wire.Settings
import CellWorld.Wire.World

/-!
# What a node answers

* `Answer` — status, type and body of an answer
* `Endpoint` — what can be asked for; `Endpoint.paths` — each with its path
* `Node.handleTransfer` — a player that asks to be admitted: `405` for another method than `POST`,
  `400` for a body that holds no request, `500` when no token can be drawn, else `200` with a
  `Reply`
* `Node.answerSpawn`, …, `Node.answerAssign` — the endpoints that change something
* `Node.route n method target body now` — the answer to a request, `404` for a path that is not in
  `Endpoint.paths`

A refused player is answered with status `200`: the refusal is in the reply. Only `handover` looks
at the method and the body. What the reader of documents says of a bad body is `Node.objection`, a
parameter.
-/

namespace CellWorld

/-- What is sent back. -/
structure Answer where
  status : Nat
  contentType : String
  body : String
deriving DecidableEq

namespace Answer

def text (status : Nat) (body : String) : Answer :=
  { status, contentType := "text/plain; charset=utf-8", body }

def json (j : Json) : Answer :=
  { status := 200, contentType := "application/json", body := j.render }

/-- A parameter that has to be there is not. -/
def missing (names : String) : Answer := text 400 ("missing required parameters: " ++ names)

end Answer

/-- What can be asked for. -/
inductive Endpoint where
  | health
  | settings
  | metrics
  | handover
  | spawn
  | velocity
  | players
  | entities
  | registerNode
  | unregisterNode
  | assignCell
  | territory
deriving DecidableEq

namespace Endpoint

def paths : List (String × Endpoint) := [
  ("/healthz", health),
  ("/config", settings),
  ("/metrics.json", metrics),
  ("/handover", handover),
  ("/dev/spawn", spawn),
  ("/dev/vel", velocity),
  ("/dev/players", players),
  ("/dev/entities", entities),
  ("/dev/node/register", registerNode),
  ("/dev/node/unregister", unregisterNode),
  ("/dev/node/assign-cell", assignCell),
  ("/dev/node/info", territory)]

end Endpoint

structure Params where
  pairs : List (String × String)

namespace Params

def get? (p : Params) (name : String) : Option String := Target.param? p.pairs name

/-- A parameter that is not empty. -/
def nonempty? (p : Params) (name : String) : Option String := (p.get? name).filter (· != "")

/-- A coordinate, zero when it is absent or no number. -/
def coordinate (p : Params) (name : String) : Float :=
  ((p.get? name).bind fun s => Number.float? s.toList).getD 0.0

end Params

namespace Node

/-- The id of the player that was named `n`-th here. -/
def devId (n : Nat) : String := "dev-" ++ toString n

/-- A player that asks to be admitted. -/
def handleTransfer (n : Node Float) (method : String) (body : List UInt8) (now : Time) :
    Answer × Node Float :=
  if method.toList.map Char.toUpper ≠ "POST".toList then (.text 405 "method not allowed", n)
  else match (Tree.parse? (Text.Utf8.decode body)).bind Request.ofTree? with
    | none => (.text 400 ("invalid request body: " ++ n.objection body), n)
    | some request =>
      match n.acceptTransfer request now with
      | (.ok reply, n) => (.json reply.toJson, n)
      | (.error fault, n) => (.text 500 fault.message, n)

/-- A player that is put into the world, under the next id `dev-n` if it comes without one. Nobody
looks whether a player has that id. -/
def answerSpawn (n : Node Float) (p : Params) : Answer × Node Float :=
  let (id, n) := match p.nonempty? "id" with
    | some id => (id, n)
    | none => (devId (n.spawned + 1), { n with spawned := n.spawned + 1 })
  let name := (p.nonempty? "name").getD "Player"
  let (player, engine) :=
    n.engine.spawn id name (.planar (p.coordinate "x") (p.coordinate "z"))
  (.json player.toJson, { n with engine })

def answerVelocity (n : Node Float) (p : Params) : Answer × Node Float :=
  match n.engine.setVelocity ((p.get? "id").getD "")
      (.planar (p.coordinate "vx") (p.coordinate "vz")) with
  | (true, engine) => (.text 200 "ok", { n with engine })
  | (false, _) => (.text 404 "unknown id", n)

/-- Another node that is made known. -/
def answerRegister (n : Node Float) (p : Params) : Answer × Node Float :=
  match p.get? "id", p.get? "address", p.get? "port" with
  | some id, some address, some port =>
    match Number.natural? 16 port.toList with
    | some port =>
      (.json (.obj [("node_id", .str id), ("status", .str "registered")]),
        { n with engine := n.engine.register ⟨id, address, UInt16.ofNat port⟩ })
    | none => (.text 400 "invalid port", n)
  | _, _, _ => (.missing "id, address, port", n)

/-- Another node that is forgotten. -/
def answerUnregister (n : Node Float) (p : Params) : Answer × Node Float :=
  match p.get? "id" with
  | some id =>
    match n.engine.unregister id with
    | (some released, engine) =>
      (.json (.obj [("node_id", .str id), ("released_cells", .nat released),
        ("status", .str "unregistered")]), { n with engine })
    | (none, _) => (.text 404 "unknown node", n)
  | none => (.missing "id", n)

def answerAssign (n : Node Float) (p : Params) : Answer × Node Float :=
  match p.get? "node_id", p.get? "cx", p.get? "cz" with
  | some id, some cx, some cz =>
    match Number.integer? 32 cx.toList, Number.integer? 32 cz.toList with
    | some cx, some cz =>
      let cell : Cell := ⟨Int32.ofInt cx, Int32.ofInt cz⟩
      (.json (.obj [("cell", cell.toJson), ("node_id", .str id), ("status", .str "assigned")]),
        { n with engine := n.engine.assign cell id })
    | _, _ => (.text 400 "invalid cell coordinates", n)
  | _, _, _ => (.missing "node_id, cx, cz", n)

/-- What is known of other nodes, with the keys in order. -/
def territoryJson (t : Territory) : Json :=
  .obj [
    ("assignments", .arr (t.assignments.map fun (cell, id) =>
      .obj [("cell", cell.toJson), ("node_id", .str id)])),
    ("local_node_id", .str t.localId),
    ("nodes", .arr (t.nodes.map fun info =>
      .obj [("address", .str info.address), ("id", .str info.id),
        ("port", .nat info.port.toNat)]))]

def answer (n : Node Float) (endpoint : Endpoint) (method : String) (p : Params)
    (body : List UInt8) (now : Time) : Answer × Node Float :=
  match endpoint with
  | .health => (.text 200 "ok", n)
  | .settings => (.json n.engine.settings.publicJson, n)
  | .metrics => (.json n.engine.metrics.toJson, n)
  | .handover => n.handleTransfer method body now
  | .spawn => n.answerSpawn p
  | .velocity => n.answerVelocity p
  | .players => (.json (.arr (n.engine.world.players.values.map Player.toJson)), n)
  | .entities => (.json (.arr (n.engine.world.entities.map Entity.toJson)), n)
  | .registerNode => n.answerRegister p
  | .unregisterNode => n.answerUnregister p
  | .assignCell => n.answerAssign p
  | .territory => (.json (territoryJson n.engine.territory), n)

/-- The answer to a request, with what it has made of the node. -/
def route (n : Node Float) (method target : String) (body : List UInt8) (now : Time) :
    Answer × Node Float :=
  match Endpoint.paths.lookup (Target.path target) with
  | some endpoint => n.answer endpoint method ⟨Target.params target⟩ body now
  | none => (.text 404 "not found", n)

end Node

end CellWorld
