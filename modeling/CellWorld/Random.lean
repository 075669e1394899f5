import CellWorld.Scalar

/-!
# Random numbers

The generator is xoshiro256++, seeded by SplitMix64.

* `Random` — 256 bits of state
* `Random.ofSeed` — the state that a seed expands to, four words of `Random.expand`
* `Random.next` — the next word, and the state after it
* `Random.draw? r low high` — a scalar of `[low, high)`, none unless `low < high` and `high - low`
  is finite; then no word is used

One word makes one scalar: `Scalar.pick word low high` is taken as it comes, also where rounding
makes it equal to `high`. Nothing is said about how the words are distributed.
-/

namespace CellWorld

structure Random where
  s0 : UInt64
  s1 : UInt64
  s2 : UInt64
  s3 : UInt64
deriving DecidableEq

namespace Random

/-- One word of the SplitMix64 sequence, and the seed of the rest. -/
def expand (seed : UInt64) : UInt64 × UInt64 :=
  let seed := seed + 0x9E3779B97F4A7C15
  let z := (seed ^^^ (seed >>> 30)) * 0xBF58476D1CE4E5B9
  let z := (z ^^^ (z >>> 27)) * 0x94D049BB133111EB
  (z ^^^ (z >>> 31), seed)

/-- The state that `seed` expands to. -/
def ofSeed (seed : UInt64) : Random :=
  let (s0, seed) := expand seed
  let (s1, seed) := expand seed
  let (s2, seed) := expand seed
  let (s3, _) := expand seed
  ⟨s0, s1, s2, s3⟩

/-- The bits of `w` rotated to the left by `k` places, for `0 < k < 64`. -/
def rotateLeft (w k : UInt64) : UInt64 := (w <<< k) ||| (w >>> (64 - k))

def next (r : Random) : UInt64 × Random :=
  let word := rotateLeft (r.s0 + r.s3) 23 + r.s0
  let t := r.s1 <<< 17
  let s2 := r.s2 ^^^ r.s0
  let s3 := r.s3 ^^^ r.s1
  let s1 := r.s1 ^^^ s2
  let s0 := r.s0 ^^^ s3
  (word, ⟨s0, s1, s2 ^^^ t, rotateLeft s3 45⟩)

variable {α : Type} [Scalar α]

/-- A scalar of a range that is known to be `Drawable`. -/
def draw (r : Random) (low high : α) : α × Random :=
  let (word, r) := r.next
  (Scalar.pick word low high, r)

/-- Whether `[low, high)` has a scalar in it and a width that is a number. -/
def Drawable (low high : α) : Prop := low < high ∧ Scalar.isFinite (high - low) = true

instance (low high : α) : Decidable (Drawable low high) :=
  inferInstanceAs (Decidable (_ ∧ _))

/-- A scalar of `[low, high)`, none when the range is not `Drawable`; then no word is used. -/
def draw? (r : Random) (low high : α) : Option (α × Random) :=
  if Drawable low high then some (r.draw low high) else none

end Random

end CellWorld
