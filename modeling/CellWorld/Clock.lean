import CellWorld.Scalar

/-!
# Time

* `Span` — a length of time, in whole nanoseconds
* `Span.ofRate hz` — the period `⌊10⁹ / max hz 1⌋` of a rate; it is zero for `10⁹ < hz`
* `Span.seconds` — a span as a scalar, whole seconds and fraction apart
* `Time` — an instant of the wall clock or of the steady one, in nanoseconds; both are read outside,
  and readings of the wall clock may go backward
* `Time.since?` — the span from an earlier instant, none when it lies ahead
* `Time.millis`, `Time.ofMillis` — the instant as a document writes it

Instants have no first and no last one here, while those of a machine end some 292 billion years
from now.
-/

namespace CellWorld

structure Span where
  nanos : Nat
deriving DecidableEq

namespace Span

def ofMillis (ms : Nat) : Span := ⟨ms * 1000000⟩

def ofSeconds (s : Nat) : Span := ⟨s * 1000000000⟩

/-- The period of `hz`, cut to whole nanoseconds; a rate of zero counts as one. -/
def ofRate (hz : UInt32) : Span := ⟨1000000000 / max hz.toNat 1⟩

/-- The seconds of `s`: the whole ones, and the rest as a fraction, each rounded on its own. -/
def seconds {α : Type} [Scalar α] (s : Span) : α :=
  Scalar.ofInt (s.nanos / 1000000000 : Nat) + Scalar.ofInt (s.nanos % 1000000000 : Nat) / 1000000000.0

end Span

/-- An instant, in nanoseconds since the start of 1970. -/
structure Time where
  nanos : Int
deriving DecidableEq

namespace Time

instance : LE Time := ⟨fun a b => a.nanos ≤ b.nanos⟩

instance : LT Time := ⟨fun a b => a.nanos < b.nanos⟩

instance (a b : Time) : Decidable (a ≤ b) := inferInstanceAs (Decidable (a.nanos ≤ b.nanos))

instance (a b : Time) : Decidable (a < b) := inferInstanceAs (Decidable (a.nanos < b.nanos))

def after (t : Time) (s : Span) : Time := ⟨t.nanos + s.nanos⟩

/-- The span from `start` to `t`, none when `start` lies ahead. -/
def since? (t start : Time) : Option Span :=
  if start ≤ t then some ⟨(t.nanos - start.nanos).toNat⟩ else none

/-- Whole milliseconds since the start of 1970, zero before it. -/
def millis (t : Time) : UInt64 := UInt64.ofNat (t.nanos.toNat / 1000000)

def ofMillis (ms : UInt64) : Time := ⟨ms.toNat * 1000000⟩

end Time

end CellWorld
