import CellWorld.Number.Binary

/-!
# Decimals

The text of a number has two halves: which digits, and how they are laid out.

* `Decimal` — the value `digits · 10 ^ exponent`
* `Decimal.shortest b tie` — the fewest digits that read back to `b`, the nearest of those
* `Style` — the layout decisions of one output format: where scientific notation begins, whether a
  whole number gets `.0`, and the names of what has no digits
* `Style.text s x` — a double in a style
* `fixed places undefined infinite x` — a double with a set number of places, ties to even
* `integer n` — a whole number

That `shortest` reads back is in `Proofs.Shortest` and `Proofs.Numerals`; that no shorter decimal
does is how it searches, from the coarsest grid to finer ones, and is not stated.
-/

namespace CellWorld.Number

def integer (n : Int) : List Char :=
  if n < 0 then '-' :: Nat.toDigits 10 n.natAbs else Nat.toDigits 10 n.natAbs

/-- The value `digits * 10 ^ exponent`. -/
structure Decimal where
  digits : Nat
  exponent : Int
deriving DecidableEq

namespace Decimal

/-- Moves trailing zeros of the digits into the exponent, at most `fuel` of them. -/
def strip : Nat → Decimal → Decimal
  | 0, d => d
  | fuel + 1, d =>
    if d.digits ≠ 0 ∧ d.digits % 10 = 0 then strip fuel ⟨d.digits / 10, d.exponent + 1⟩ else d

/-- The value of `b` without its sign, in full. -/
def exact (b : Binary) : Decimal :=
  if 0 ≤ b.exponent then ⟨b.magnitude * Nat.pow 2 b.exponent.toNat, 0⟩
  else ⟨b.magnitude * Nat.pow 5 (-b.exponent).toNat, b.exponent⟩

/-- The decimal on the grid of `10 ^ e` that reads back to `b`, the nearer one of two. A decimal
reads back when it lies between the midpoints to the neighbouring doubles; a midpoint itself reads
back exactly when the magnitude is even. -/
def onGrid? (b : Binary) (tie : Tie) (e : Int) : Option Decimal :=
  let unit := Nat.pow 2 b.exponent.toNat * Nat.pow 10 (-e).toNat
  let den := Nat.pow 2 (-b.exponent).toNat * Nat.pow 10 e.toNat
  let num := b.magnitude * unit
  let below := (4 * b.magnitude - if b.narrowBelow then 1 else 2) * unit
  let above := (4 * b.magnitude + 2) * unit
  let closed := b.magnitude % 2 == 0
  let readsBack (c : Nat) : Bool :=
    let x := 4 * c * den
    (decide (below < x) || (closed && below == x)) && (decide (x < above) || (closed && x == above))
  let c := num / den
  match readsBack c, readsBack (c + 1) with
  | true, true => some ⟨roundDiv num den tie, e⟩
  | true, false => some ⟨c, e⟩
  | false, true => some ⟨c + 1, e⟩
  | false, false => none

/-- The first hit of `onGrid?` on the grids of `10 ^ e`, `10 ^ (e - 1)`, and so on, `fuel` of
them. -/
def search (b : Binary) (tie : Tie) : Nat → Int → Option Decimal
  | 0, _ => none
  | fuel + 1, e => (onGrid? b tie e).orElse fun _ => search b tie fuel (e - 1)

/-- A power of ten that is not below the value: the search starts there. -/
def ceiling (b : Binary) : Int :=
  ((b.magnitude.log2 : Int) + b.exponent) * 30103 / 100000 + 2

/-- The fewest digits that read back to `b`, the nearest of those; the sign is left out. `21` grids
are enough for any double, and the exact value stands in otherwise. -/
def shortest (b : Binary) (tie : Tie) : Decimal :=
  if b.magnitude = 0 then ⟨0, 0⟩
  else
    let d := (search b tie 21 (ceiling b)).getD (exact b)
    strip d.digits.log2 d

def leading (d : Decimal) : Int :=
  d.exponent + (Nat.toDigits 10 d.digits).length - 1

end Decimal

/-- How a format lays out a number. -/
structure Style where
  /-- A leading digit at `10 ^ e` is written positionally when `e` is at least this. -/
  plainFrom : Option Int
  /-- And when `e` is below this. -/
  plainBelow : Option Int
  /-- A whole number gets a point and a zero. -/
  pointZero : Bool
  /-- The text of an undefined value. -/
  undefined : String
  /-- The text of an infinity, without its sign. -/
  infinite : String
  tie : Tie

namespace Style

def plain (s : Style) (e : Int) : Bool :=
  s.plainFrom.all (fun lo => decide (lo ≤ e)) && s.plainBelow.all (fun hi => decide (e < hi))

/-- Digits with the point where the exponent puts it. -/
def positional (s : Style) (d : Decimal) : List Char :=
  let ds := Nat.toDigits 10 d.digits
  if 0 ≤ d.exponent then
    ds ++ List.replicate d.exponent.toNat '0' ++ (if s.pointZero then ['.', '0'] else [])
  else
    let places := (-d.exponent).toNat
    if places < ds.length then
      ds.take (ds.length - places) ++ '.' :: ds.drop (ds.length - places)
    else
      '0' :: '.' :: (List.replicate (places - ds.length) '0' ++ ds)

/-- One digit before the point, and a signed exponent. -/
def scientific (d : Decimal) : List Char :=
  let e := d.leading
  let mantissa := match Nat.toDigits 10 d.digits with
    | [] => []
    | [c] => [c]
    | c :: rest => c :: '.' :: rest
  mantissa ++ 'e' :: (if e < 0 then '-' else '+') :: Nat.toDigits 10 e.natAbs

def layout (s : Style) (d : Decimal) : List Char :=
  if s.plain d.leading then s.positional d else scientific d

/-- The text of `x` in this style, its sign first. -/
def text (s : Style) (x : Float) : List Char :=
  match Binary.ofFloat? x with
  | some b =>
    let body := s.layout (Decimal.shortest b s.tie)
    if b.negative then '-' :: body else body
  | none =>
    if x.isNaN then s.undefined.toList
    else if x < 0 then '-' :: s.infinite.toList
    else s.infinite.toList

end Style

/-- The text of `x` with `places` places: its exact value rounded to the nearest, a half going to
the even neighbour. -/
def fixed (places : Nat) (undefined infinite : String) (x : Float) : List Char :=
  match Binary.ofFloat? x with
  | some b =>
    let num := b.magnitude * Nat.pow 2 b.exponent.toNat * Nat.pow 10 places
    let scaled := roundDiv num (Nat.pow 2 (-b.exponent).toNat) .toEven
    let ds := Nat.toDigits 10 scaled
    let ds := List.replicate (places + 1 - ds.length) '0' ++ ds
    let body := ds.take (ds.length - places) ++
      (if places = 0 then [] else '.' :: ds.drop (ds.length - places))
    if b.negative then '-' :: body else body
  | none =>
    if x.isNaN then undefined.toList
    else if x < 0 then '-' :: infinite.toList
    else infinite.toList

end CellWorld.Number
