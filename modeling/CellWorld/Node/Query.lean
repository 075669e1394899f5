import CellWorld.Text.Utf8

/-!
# The parts of a request target

* `Target.path` — what stands before the first question mark, as it is
* `Target.query` — what stands behind it, up to a number sign, without line breaks
* `Target.params` — the parameters of the query: `a=1&b=2` is `[("a", "1"), ("b", "2")]`, with a
  plus sign for a space and `%41` for `A`
* `Target.param?` — one of them, the last of equal names

The host part is not looked at, and a target is never refused.
-/

namespace CellWorld.Target

def path (target : String) : String := String.ofList (target.toList.takeWhile (· != '?'))

/-- A character that a target must not end with. -/
def isMargin (c : Char) : Bool := decide (c.toNat ≤ 0x20)

/-- A character that does not count inside a target. -/
def isBreak (c : Char) : Bool := c == '\t' || c == '\n' || c == '\r'

/-- The characters of the query: behind the first question mark, up to a number sign. -/
def query (target : String) : List Char :=
  let cs := (target.toList.reverse.dropWhile isMargin).reverse.filter fun c => !isBreak c
  ((cs.dropWhile (· != '?')).drop 1).takeWhile (· != '#')

/-- The pieces of a list between occurrences of a separator. -/
def splitOn (sep : UInt8) : List UInt8 → List (List UInt8)
  | [] => [[]]
  | b :: rest =>
    if b = sep then [] :: splitOn sep rest
    else match splitOn sep rest with
      | [] => [[b]]
      | piece :: pieces => (b :: piece) :: pieces

def hexValue? (b : UInt8) : Option UInt8 :=
  if 48 ≤ b ∧ b ≤ 57 then some (b - 48)
  else if 65 ≤ b ∧ b ≤ 70 then some (b - 55)
  else if 97 ≤ b ∧ b ≤ 102 then some (b - 87)
  else none

/-- The bytes of a form field: a plus sign is a space, a percent sign with two digits a byte. -/
def unescape : List UInt8 → List UInt8
  | [] => []
  | 37 :: high :: low :: rest =>
    match hexValue? high, hexValue? low with
    | some h, some l => (h * 16 + l) :: unescape rest
    | _, _ => 37 :: unescape (high :: low :: rest)
  | 43 :: rest => 32 :: unescape rest
  | b :: rest => b :: unescape rest

def field (bytes : List UInt8) : String := Text.Utf8.lossy (unescape bytes)

/-- A parameter: a name, and what stands behind the first equals sign. -/
def pair (bytes : List UInt8) : String × String :=
  (field (bytes.takeWhile (· != 61)), field ((bytes.dropWhile (· != 61)).drop 1))

def params (target : String) : List (String × String) :=
  ((splitOn 38 (Text.Utf8.encode (String.ofList (query target)))).filter fun b => !b.isEmpty).map pair

def param? (params : List (String × String)) (name : String) : Option String :=
  params.reverse.lookup name

end CellWorld.Target
