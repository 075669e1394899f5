/-!
# Scanning arguments

Arguments are looked at from left to right. An option takes its values from the arguments behind it;
they are checked when the next option begins or the arguments end.

* `Choice` — an option as it is declared
* `Scan` — what has been scanned so far; `Scan.open?` is an option that may take more values
* `Scan.argument` — one argument: `--name`, `--name=value`, `-x`, `-xvalue`, `-x=value`, or a value
* `scan` — all arguments up to the first word that belongs to no option, or `--`

A scan ends with help, with misuse, or with what was found. The words that explain a misuse are left
out.
-/

namespace CellWorld.CommandLine

/-- Why there is no command. -/
inductive Stop where
  /-- Help was asked for. -/
  | help
  /-- The arguments make no sense. -/
  | misuse
deriving DecidableEq

/-- An option as it is declared. -/
structure Choice where
  name : String
  /-- The letter that stands for it too. -/
  letter : Option Char := none
  /-- How many values it takes; a flag takes none. -/
  arity : Nat := 1
  /-- A value may start with a minus sign if it looks like a number. -/
  negative : Bool := false
  /-- It may be given more than once. -/
  repeats : Bool := false
  /-- Whether a text is one of its values. -/
  accepts : String → Bool := fun _ => true

structure Use where
  choice : Choice
  values : List String

/-- What has been scanned so far: the options with their values, the last one first, and an option
that may take more of them. -/
structure Scan where
  uses : List Use := []
  open? : Option Use := none

namespace Scan

def has (s : Scan) (name : String) : Bool := s.uses.any fun u => u.choice.name == name

/-- Adds an option with all its values: as many as it takes, each of them accepted, and not for the
second time unless it repeats. -/
def close (s : Scan) (u : Use) : Except Stop Scan :=
  if u.values.length ≠ u.choice.arity ∨ ¬ u.values.all u.choice.accepts then .error .misuse
  else if s.has u.choice.name ∧ ¬ u.choice.repeats then .error .misuse
  else .ok { uses := u :: s.uses }

/-- Checks the option that may take more values. -/
def settle (s : Scan) : Except Stop Scan :=
  match s.open? with
  | some u => { s with open? := none }.close u
  | none => .ok s

/-- An option begins, perhaps with a value attached to it. -/
def start (s : Scan) (choice : Choice) (attached : Option String) : Except Stop Scan := do
  let s ← s.settle
  match attached with
  | some value => s.close ⟨choice, [value]⟩
  | none => if choice.arity = 0 then s.close ⟨choice, []⟩ else .ok { s with open? := some ⟨choice, []⟩ }

/-- Help ends the scan, once the option before it was checked. -/
def helped (s : Scan) : Except Stop Scan := s.settle.bind fun _ => .error .help

/-- An argument of the form `--name` or `--name=value`. -/
def long (choices : List Choice) (s : Scan) (text : List Char) : Except Stop Scan :=
  let name := String.ofList (text.takeWhile (· != '='))
  let attached := match text.dropWhile (· != '=') with
    | [] => none
    | _ :: value => some (String.ofList value)
  if name = "help" then if attached.isSome then .error .misuse else s.helped
  else match choices.find? fun c => c.name == name with
    | none => .error .misuse
    | some choice =>
      if choice.arity = 0 ∧ attached.isSome then .error .misuse else s.start choice attached

/-- Letters behind one minus sign. The first one that takes a value takes the rest. -/
def letters (choices : List Choice) : Scan → List Char → Except Stop Scan
  | s, [] => .ok s
  | s, c :: rest =>
    if c = 'h' then s.helped
    else match choices.find? fun d => d.letter == some c with
      | none => .error .misuse
      | some choice =>
        if choice.arity = 0 then (s.start choice none).bind fun s => letters choices s rest
        else
          let value := match rest with
            | '=' :: value => some (String.ofList value)
            | [] => none
            | value => some (String.ofList value)
          s.start choice value

def isExponentMark (c : Char) : Bool := c == 'e' || c == 'E'

/-- Whether the characters behind a minus sign look like a number: digits, with a point or a mark of
an exponent once each, neither in front and the mark not at the end. -/
def looksNumeric (cs : List Char) : Bool :=
  let body := cs.takeWhile fun c => !isExponentMark c
  let exponent := cs.dropWhile fun c => !isExponentMark c
  let whole := body.takeWhile (· != '.')
  let places := (body.dropWhile (· != '.')).drop 1
  !body.isEmpty && body.head? != some '.' && (whole ++ places).all Char.isDigit &&
    (match exponent with
      | [] => true
      | [_] => false
      | _ :: digits => digits.all Char.isDigit)

/-- The option that takes an argument as its value. -/
def taker? (s : Scan) : Option Use :=
  s.open?.filter fun u => decide (u.values.length < u.choice.arity)

def value (s : Scan) (u : Use) (text : String) : Scan :=
  { s with open? := some { u with values := u.values ++ [text] } }

/-- One argument; none if it is a word that belongs to no option. -/
def argument (choices : List Choice) (s : Scan) (text : String) : Option (Except Stop Scan) :=
  match text.toList with
  | '-' :: '-' :: c :: rest => some (s.long choices (c :: rest))
  | '-' :: c :: rest =>
    match s.taker? with
    | some u =>
      if u.choice.negative && looksNumeric (c :: rest) then some (.ok (s.value u text))
      else some (s.letters choices (c :: rest))
    | none => some (s.letters choices (c :: rest))
  | _ => s.taker?.map fun u => .ok (s.value u text)

end Scan

/-- What was scanned, with the first word that belongs to no option and the arguments behind it. -/
structure Scanned where
  uses : List Use
  word : Option (String × List String)

/-- Scans arguments. Two minus signs end them; no word may stand behind those. -/
def scan (choices : List Choice) : Scan → List String → Except Stop Scanned
  | s, [] => s.settle.map fun s => ⟨s.uses, none⟩
  | s, "--" :: rest =>
    if rest.isEmpty then s.settle.map fun s => ⟨s.uses, none⟩ else .error .misuse
  | s, text :: rest =>
    match s.argument choices text with
    | some next => next.bind fun s => scan choices s rest
    | none => s.settle.map fun s => ⟨s.uses, some (text, rest)⟩

end CellWorld.CommandLine
