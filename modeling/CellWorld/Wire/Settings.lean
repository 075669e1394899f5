import CellWorld.Json.Decode
import CellWorld.Settings
import CellWorld.Wire.Transfer

/-!
# Documents of the settings

* `Settings.toJson`, `Settings.ofTree?` — all settings; one that is left out has its standard value
* `Settings.publicJson` — the five settings that anybody may see

Reading checks the types of the settings and not their ranges: `Settings.check` does.
-/

namespace CellWorld

def FollowMode.toJson (m : FollowMode) : Json := .str m.text

def FollowMode.ofTree? (t : Tree) : Option FollowMode := t.oneOf? names

namespace Settings

def toJson (s : Settings Float) : Json := .obj [
  ("cell_size", .ofFloat s.cellSize),
  ("aoi_radius", .ofFloat s.aoiRadius),
  ("tick_hz", .nat s.tickHz.toNat),
  ("snapshot_hz", .nat s.snapshotHz.toNat),
  ("handover_hysteresis", .ofFloat s.hysteresis),
  ("target_density_per_cell", .nat s.targetDensity.toNat),
  ("max_bots", .int s.maxBots.toInt),
  ("node_id", .str s.nodeId),
  ("handover_mode", s.mode.toJson),
  ("seed", .ofOption (fun n => .nat n.toNat) s.seed),
  ("debug_snapshot", .bool s.debugSnapshot)]

def ofTree? (t : Tree) : Option (Settings Float) := do
  let std : Settings Float := standard
  let [cellSize, aoiRadius, tickHz, snapshotHz, hysteresis, targetDensity, maxBots, nodeId, mode,
      seed, debugSnapshot] ← t.slots?
    ["cell_size", "aoi_radius", "tick_hz", "snapshot_hz", "handover_hysteresis",
      "target_density_per_cell", "max_bots", "node_id", "handover_mode", "seed",
      "debug_snapshot"] | none
  return {
    cellSize := ← cellSize.defaulted Tree.float? std.cellSize
    aoiRadius := ← aoiRadius.defaulted Tree.float? std.aoiRadius
    tickHz := ← tickHz.defaulted Tree.uint32? std.tickHz
    snapshotHz := ← snapshotHz.defaulted Tree.uint32? std.snapshotHz
    hysteresis := ← hysteresis.defaulted Tree.float? std.hysteresis
    targetDensity := ← targetDensity.defaulted Tree.uint32? std.targetDensity
    maxBots := ← maxBots.defaulted Tree.int64? std.maxBots
    nodeId := ← nodeId.defaulted Tree.text? std.nodeId
    mode := ← mode.defaulted FollowMode.ofTree? std.mode
    seed := ← seed.defaulted (Tree.nullable? Tree.uint64?) std.seed
    debugSnapshot := ← debugSnapshot.defaulted Tree.bool? std.debugSnapshot }

/-- The settings that anybody may see. -/
def publicJson (s : Settings Float) : Json := .obj [
  ("cell_size", .ofFloat s.cellSize),
  ("aoi_radius", .ofFloat s.aoiRadius),
  ("tick_hz", .nat s.tickHz.toNat),
  ("snapshot_hz", .nat s.snapshotHz.toNat),
  ("handover_hysteresis", .ofFloat s.hysteresis)]

end Settings

end CellWorld
