import CellWorld.Number.Literal

/-!
# Reading a document

A document is read character by character. What has been read so far is a `Mode` and a stack of open
containers, so a document may nest as deeply as it likes.

* `Tree` — what a document says, with every number as it was written; a string that holds no valid
  text is kept as `.str none`, because a reader may skip it
* `Reader.step s c` — one character
* `Reader.result?` — the document when the characters end
* `Tree.parse?` — the fold of `Reader.step` over the characters, and `Tree.ofText?` over those of a
  text

A character is an option: none stands for bytes that form no character, which only a string may
contain. What is wrong with a refused document is not kept; `Node.objection` stands for what is said
about it.
-/

namespace CellWorld

/-- A document. A string is none when its characters are no valid text. -/
inductive Tree where
  | null
  | bool (b : Bool)
  | num (l : Number.Literal)
  | str (s : Option String)
  | arr (items : List Tree)
  | obj (fields : List (Option String × Tree))

namespace Reader

/-! ### Strings -/

/-- A string in progress: its characters in reverse, and the first half of a pair of code units that
is still waiting for the second. -/
structure Quote where
  done : List Char := []
  waiting : Option Nat := none
  valid : Bool := true

namespace Quote

/-- The string with `c` at its end; a half pair before it spoils the string. -/
def push (q : Quote) (c : Char) : Quote :=
  { q with done := c :: q.done, waiting := none, valid := q.valid && q.waiting.isNone }

def spoil (q : Quote) : Quote := { q with waiting := none, valid := false }

/-- The string with one code unit more. The units from `D800` to `DBFF` are first halves, those from
`DC00` to `DFFF` second halves. -/
def pushUnit (q : Quote) (unit : Nat) : Quote :=
  if 0xDC00 ≤ unit ∧ unit < 0xE000 then
    match q.waiting with
    | some high =>
      { q with
        done := Char.ofNat (0x10000 + (high - 0xD800) * 0x400 + (unit - 0xDC00)) :: q.done
        waiting := none }
    | none => q.spoil
  else if 0xD800 ≤ unit ∧ unit < 0xDC00 then
    { q with waiting := some unit, valid := q.valid && q.waiting.isNone }
  else q.push (Char.ofNat unit)

/-- The finished string, none if it is spoiled or a half pair is left. -/
def finish (q : Quote) : Option String :=
  if q.valid && q.waiting.isNone then some (String.ofList q.done.reverse) else none

end Quote

/-- Where a string in progress stands: between characters, after a backslash, or inside the four
digits of a code unit. -/
inductive Escape where
  | plain
  | backslash
  | hex (value digits : Nat)

def hexDigit? (c : Char) : Option Nat :=
  if '0' ≤ c ∧ c ≤ '9' then some (c.toNat - '0'.toNat)
  else if 'a' ≤ c ∧ c ≤ 'f' then some (c.toNat - 'a'.toNat + 10)
  else if 'A' ≤ c ∧ c ≤ 'F' then some (c.toNat - 'A'.toNat + 10)
  else none

/-- The character that a letter after a backslash stands for. -/
def escaped? (c : Char) : Option Char :=
  if c = '"' ∨ c = '\\' ∨ c = '/' then some c
  else if c = 'b' then some '\x08'
  else if c = 'f' then some '\x0c'
  else if c = 'n' then some '\n'
  else if c = 'r' then some '\r'
  else if c = 't' then some '\t'
  else none

/-! ### States -/

/-- An open container with what it holds so far, in reverse. -/
inductive Frame where
  | arr (done : List Tree)
  | obj (done : List (Option String × Tree))
  /-- An object that waits for the value of a key. -/
  | field (done : List (Option String × Tree)) (key : Option String)

/-- What may come next. -/
inductive Mode where
  /-- A value, or the end of the array when it has just begun. -/
  | value (closable : Bool)
  /-- A key, or the end of the object when it has just begun. -/
  | key (closable : Bool)
  | colon (key : Option String)
  /-- A comma or the end of the container. -/
  | next
  /-- More of a word or a number, held in reverse. -/
  | bare (done : List Char)
  /-- More of a string, which is a key or a value. -/
  | quoted (isKey : Bool) (q : Quote) (e : Escape)

inductive State where
  | reading (mode : Mode) (stack : List Frame)
  | done (t : Tree)
  | failed

/-- The state after the value `t` is complete in the innermost container. -/
def complete (t : Tree) : List Frame → State
  | [] => .done t
  | .arr done :: rest => .reading .next (.arr (t :: done) :: rest)
  | .field done key :: rest => .reading .next (.obj ((key, t) :: done) :: rest)
  | .obj _ :: _ => .failed

/-- A word or a number. -/
def bareTree? (cs : List Char) : Option Tree :=
  if cs = ['n', 'u', 'l', 'l'] then some .null
  else if cs = ['t', 'r', 'u', 'e'] then some (.bool true)
  else if cs = ['f', 'a', 'l', 's', 'e'] then some (.bool false)
  else (Number.Literal.parse? cs).map .num

def completeBare (done : List Char) (stack : List Frame) : State :=
  match bareTree? done.reverse with
  | some t => complete t stack
  | none => .failed

def completeQuote (isKey : Bool) (q : Quote) (stack : List Frame) : State :=
  if isKey then .reading (.colon q.finish) stack else complete (.str q.finish) stack

/-! ### Steps -/

def isSpace (c : Char) : Bool := c == ' ' || c == '\t' || c == '\n' || c == '\r'

def isBare (c : Char) : Bool := c.isAlphanum || c == '-' || c == '+' || c == '.'

/-- A character inside a string; none stands for bytes that are no character. -/
def stepQuote (isKey : Bool) (q : Quote) (stack : List Frame) :
    Escape → Option Char → State
  | .plain, none => .reading (.quoted isKey q.spoil .plain) stack
  | .plain, some c =>
    if c = '"' then completeQuote isKey q stack
    else if c = '\\' then .reading (.quoted isKey q .backslash) stack
    else if c.toNat < 0x20 then .failed
    else .reading (.quoted isKey (q.push c) .plain) stack
  | .backslash, some c =>
    if c = 'u' then .reading (.quoted isKey q (.hex 0 0)) stack
    else match escaped? c with
      | some c => .reading (.quoted isKey (q.push c) .plain) stack
      | none => .failed
  | .hex value digits, some c =>
    match hexDigit? c with
    | some d =>
      let value := value * 16 + d
      if 3 ≤ digits then .reading (.quoted isKey (q.pushUnit value) .plain) stack
      else .reading (.quoted isKey q (.hex value (digits + 1))) stack
    | none => .failed
  | _, none => .failed

/-- A character between the parts of a document. -/
def stepBetween (c : Char) : Mode → List Frame → State
  | .value closable, stack =>
    if isSpace c then .reading (.value closable) stack
    else if c = '[' then .reading (.value true) (.arr [] :: stack)
    else if c = '\x7b' then .reading (.key true) (.obj [] :: stack)
    else if c = '"' then .reading (.quoted false {} .plain) stack
    else if isBare c then .reading (.bare [c]) stack
    else match c, closable, stack with
      | ']', true, .arr _ :: rest => complete (.arr []) rest
      | _, _, _ => .failed
  | .key closable, stack =>
    if isSpace c then .reading (.key closable) stack
    else if c = '"' then .reading (.quoted true {} .plain) stack
    else match c, closable, stack with
      | '\x7d', true, .obj _ :: rest => complete (.obj []) rest
      | _, _, _ => .failed
  | .colon key, stack =>
    if isSpace c then .reading (.colon key) stack
    else match c, stack with
      | ':', .obj done :: rest => .reading (.value false) (.field done key :: rest)
      | _, _ => .failed
  | .next, stack =>
    if isSpace c then .reading .next stack
    else match c, stack with
      | ',', .arr _ :: _ => .reading (.value false) stack
      | ',', .obj _ :: _ => .reading (.key false) stack
      | ']', .arr done :: rest => complete (.arr done.reverse) rest
      | '\x7d', .obj done :: rest => complete (.obj done.reverse) rest
      | _, _ => .failed
  | _, _ => .failed

/-- A character that does not continue a word or a number. -/
def stepPlain (c : Option Char) : State → State
  | .reading (.quoted isKey q e) stack => stepQuote isKey q stack e c
  | .reading mode stack =>
    match c with
    | some c => stepBetween c mode stack
    | none => .failed
  | .done t =>
    match c with
    | some c => if isSpace c then .done t else .failed
    | none => .failed
  | .failed => .failed

/-- One character; none stands for bytes that are no character. -/
def step (s : State) (c : Option Char) : State :=
  match s with
  | .reading (.bare done) stack =>
    match c with
    | some ch =>
      if isBare ch then .reading (.bare (ch :: done)) stack
      else stepPlain c (completeBare done stack)
    | none => .failed
  | s => stepPlain c s

/-- What the reader holds when the document ends: a number may end with it. -/
def result? : State → Option Tree
  | .done t => some t
  | .reading (.bare done) [] => bareTree? done.reverse
  | _ => none

end Reader

namespace Tree

/-- The document that characters spell, none if they spell none. -/
def parse? (cs : List (Option Char)) : Option Tree :=
  Reader.result? (cs.foldl Reader.step (.reading (.value false) []))

def ofText? (s : String) : Option Tree := parse? (s.toList.map some)

end Tree

end CellWorld
