import CellWorld.Number.Decimal
import CellWorld.Scalar

/-!
# JSON values and their text

* `Json` — a value; whole numbers stay exact, all others are doubles
* `Json.ofFloat` — a double as a value, null when it is not finite
* `Json.render` — the text without white space
* `Json.pretty` — the text over several lines, indented by two spaces for each level

Fields are written in the order they have in the value. What is read back from `render` is in
`Proofs.Documents`; `pretty` is for people, and nothing is proved of it.
-/

namespace CellWorld

/-- A value. Whole numbers stay exact, all others are doubles. -/
inductive Json where
  | null
  | bool (b : Bool)
  | int (n : Int)
  | float (x : Float)
  | str (s : String)
  | arr (items : List Json)
  | obj (fields : List (String × Json))

namespace Json

/-- A double as a value; what is not finite has no number and is null. -/
def ofFloat (x : Float) : Json := if Scalar.isFinite x then .float x else .null

def ofOption {β : Type} (f : β → Json) : Option β → Json
  | none => .null
  | some b => f b

/-! ### Text -/

/-- Numbers in documents have the fewest digits, positionally from `10 ^ -5` to below `10 ^ 16`, and
always a point or an exponent. -/
def numberStyle : Number.Style where
  plainFrom := some (-5)
  plainBelow := some 16
  pointZero := true
  undefined := "null"
  infinite := "null"
  tie := .toEven

/-- The character `c` as it stands in a string: a quote, a backslash and the controls are
escaped. -/
def escape (c : Char) : List Char :=
  if c = '"' then ['\\', '"']
  else if c = '\\' then ['\\', '\\']
  else if c = '\n' then ['\\', 'n']
  else if c = '\r' then ['\\', 'r']
  else if c = '\t' then ['\\', 't']
  else if c = '\x08' then ['\\', 'b']
  else if c = '\x0c' then ['\\', 'f']
  else if c.toNat < 0x20 then
    ['\\', 'u', '0', '0'] ++ [Nat.digitChar (c.toNat / 16), Nat.digitChar (c.toNat % 16)]
  else [c]

def quote (s : String) : List Char := '"' :: (s.toList.flatMap escape ++ ['"'])

mutual

/-- The text of a value, without white space. -/
def chars : Json → List Char
  | .null => ['n', 'u', 'l', 'l']
  | .bool true => ['t', 'r', 'u', 'e']
  | .bool false => ['f', 'a', 'l', 's', 'e']
  | .int n => Number.integer n
  | .float x => numberStyle.text x
  | .str s => quote s
  | .arr items => '[' :: (itemChars items ++ [']'])
  | .obj fields => '\x7b' :: (fieldChars fields ++ ['\x7d'])

def itemChars : List Json → List Char
  | [] => []
  | [j] => chars j
  | j :: rest => chars j ++ ',' :: itemChars rest

def fieldChars : List (String × Json) → List Char
  | [] => []
  | [(k, j)] => quote k ++ ':' :: chars j
  | (k, j) :: rest => quote k ++ ':' :: (chars j ++ ',' :: fieldChars rest)

end

def render (j : Json) : String := String.ofList (chars j)

def newline (depth : Nat) : List Char := '\n' :: List.replicate (2 * depth) ' '

mutual

/-- The text of a value at a depth, one item or field a line. -/
def prettyChars (depth : Nat) : Json → List Char
  | .arr [] => ['[', ']']
  | .arr items => '[' :: (prettyItems (depth + 1) items ++ newline depth ++ [']'])
  | .obj [] => ['\x7b', '\x7d']
  | .obj fields => '\x7b' :: (prettyFields (depth + 1) fields ++ newline depth ++ ['\x7d'])
  | .null => chars .null
  | .bool b => chars (.bool b)
  | .int n => chars (.int n)
  | .float x => chars (.float x)
  | .str s => chars (.str s)

def prettyItems (depth : Nat) : List Json → List Char
  | [] => []
  | [j] => newline depth ++ prettyChars depth j
  | j :: rest => newline depth ++ prettyChars depth j ++ ',' :: prettyItems depth rest

/-- Fields on lines of their own, with a space after the colon. -/
def prettyFields (depth : Nat) : List (String × Json) → List Char
  | [] => []
  | [(k, j)] => newline depth ++ quote k ++ ':' :: ' ' :: prettyChars depth j
  | (k, j) :: rest =>
    newline depth ++ quote k ++ ':' :: ' ' :: (prettyChars depth j ++ ',' :: prettyFields depth rest)

end

def pretty (j : Json) : String := String.ofList (prettyChars 0 j)

end Json

end CellWorld
