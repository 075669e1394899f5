import CellWorld.Engine
import CellWorld.Wire.Transfer

/-!
# Documents of the world

* `Entity.toJson`, `Player.toJson`, `Loadout.toJson` — who is in it
* `SavedPlayer.toJson`, `SavedPlayer.ofTree?` — what was saved of a player
* `HandoverEvent.toJson`, `Summary.toJson`, `Metrics.toJson`, `DensityReport.toJson` — what is told
  about it

A player is written without `handedOver`. Players, events and counts are written only; nothing reads
them back.
-/

namespace CellWorld

/-! ### Who is in it -/

/-- The fields that all entities have. -/
def Entity.fields (e : Entity Float) : List (String × Json) := [
  ("id", .str e.id),
  ("kind", e.kind.toJson),
  ("pos", e.pos.toJson),
  ("vel", e.vel.toJson),
  ("yaw", .ofFloat e.yaw),
  ("name", .str e.name)]

def Entity.toJson (e : Entity Float) : Json := .obj e.fields

def Json.orNull (j : Option Json) : Json := .ofOption id j

def Json.ofSkills (skills : List (String × Int64)) : Json :=
  .obj (skills.map fun (name, level) => (name, .int level.toInt))

def Loadout.toJson (l : Loadout) : Json := .obj [
  ("inventory", .orNull l.inventory),
  ("equipment", .orNull l.equipment),
  ("skills", .ofSkills l.skills),
  ("cooldowns", .orNull l.cooldowns),
  ("encumbrance", .orNull l.encumbrance)]

/-- The fields of a player, those of the entity first. Whether it ever changed cells is not told. -/
def Player.fields (p : Player Float) : List (String × Json) := p.toEntity.fields ++ [
  ("owned_cell", p.ownedCell.toJson),
  ("prev_cell", .ofOption Cell.toJson p.prevCell),
  ("cross_node", .ofOption TransferRecord.toJson p.transfer),
  ("conn_id", .ofOption .str p.connection),
  ("last_seq", .nat p.lastSeq.toNat),
  ("loadout", p.loadout.toJson)]

def Player.toJson (p : Player Float) : Json := .obj p.fields

/-! ### What was saved -/

namespace SavedPlayer

def toJson (s : SavedPlayer Float) : Json := .obj [
  ("pos", s.pos.toJson),
  ("logins", .nat s.logins.toNat),
  ("updated_unix_ms", .nat s.updated.toNat),
  ("version", .int s.version.toInt),
  ("inventory_data", .orNull s.inventory),
  ("equipment_data", .orNull s.equipment),
  ("skills_data", .orNull s.skills),
  ("cooldown_timers", .orNull s.cooldowns),
  ("encumbrance_config", .orNull s.encumbrance)]

/-- A section of a saved player; the document around it takes one level of nesting. -/
def part? (slot : Slot Tree) : Option (Option Json) :=
  slot.defaulted (Tree.nullable? (Tree.toJson? (Tree.depthLimit - 1))) none

def ofTree? (t : Tree) : Option (SavedPlayer Float) := do
  let std : SavedPlayer Float := blank
  let [pos, logins, updated, version, inventory, equipment, skills, cooldowns, encumbrance] ←
    t.slots? ["pos", "logins", "updated_unix_ms", "version", "inventory_data", "equipment_data",
      "skills_data", "cooldown_timers", "encumbrance_config"] | none
  return {
    pos := ← pos.defaulted Tree.point? std.pos
    logins := ← logins.defaulted Tree.uint32? std.logins
    updated := ← updated.defaulted Tree.uint64? std.updated
    version := ← version.defaulted Tree.int64? std.version
    inventory := ← part? inventory
    equipment := ← part? equipment
    skills := ← part? skills
    cooldowns := ← part? cooldowns
    encumbrance := ← part? encumbrance }

end SavedPlayer

/-! ### What is told about it -/

/-- How a change of cells was routed. -/
def Route.fields : Route → List (String × Json)
  | .onNode => [("route", .str "local")]
  | .fallback owner => [("route", .str "fallback"), ("owner", .str owner)]
  | .crossNode target status =>
    [("route", .str "cross_node"), ("target_node", .str target), ("status", status.toJson)]

def HandoverEvent.toJson (e : HandoverEvent) : Json := .obj ([
  ("player_id", .str e.player),
  ("from", e.source.toJson),
  ("to", e.target.toJson),
  ("tick", .nat e.tick)] ++ e.route.fields)

def Summary.toJson (s : Summary) : Json := .obj [
  ("tick", .nat s.tick),
  ("players", .nat s.players),
  ("bots", .nat s.bots),
  ("cells", .nat s.cells)]

def Metrics.toJson (m : Metrics) : Json := .obj [
  ("handovers", .nat m.handovers),
  ("aoi_queries", .nat m.queries),
  ("aoi_entities_total", .nat m.entities),
  ("aoi_avg_entities", .ofFloat m.average)]

def DensityReport.toJson (r : DensityReport) : Json := .obj [
  ("spawned", .nat r.spawned),
  ("despawned", .nat r.despawned)]

end CellWorld
