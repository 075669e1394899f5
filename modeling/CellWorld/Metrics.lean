import CellWorld.Scalar

/-!
# Counters

* `Metrics.addHandovers`, `Metrics.addQuery` — the two changes
* `Metrics.average m` — `m.entities / m.queries`, zero when there was no query

The counters are natural numbers. The 64-bit counters of a machine show the same for as long as they
stay below `2 ^ 64`, and each grows by at most the number of committed changes, or of entities
found, so no run reaches the place where they would start again at zero.
-/

namespace CellWorld

/-- What is counted since the start, each below `2 ^ 64` in every run with fewer events than
that. -/
structure Metrics where
  /-- Changes of cells. -/
  handovers : Nat := 0
  /-- Queries with a positive radius. -/
  queries : Nat := 0
  /-- Entities that those queries returned, all together. -/
  entities : Nat := 0
deriving DecidableEq

namespace Metrics

def addHandovers (m : Metrics) (n : Nat) : Metrics := { m with handovers := m.handovers + n }

/-- Counts a query and the `found` entities that it returned. -/
def addQuery (m : Metrics) (found : Nat) : Metrics :=
  { m with queries := m.queries + 1, entities := m.entities + found }

def average {α : Type} [Scalar α] (m : Metrics) : α :=
  if m.queries = 0 then 0.0 else Scalar.ofInt m.entities / Scalar.ofInt m.queries

end Metrics

end CellWorld
