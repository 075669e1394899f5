/-!
# Bytes as characters

Bytes that form no character are kept apart from the ones that do: a reader of documents refuses
them, a reader of forms puts a replacement in their place.

* `decode` — the characters of a byte string, none for a run of bytes that starts a character and
  does not finish it, and for a byte that starts none
* `lossy` — `decode` with `U+FFFD` for none
* `encode` — the bytes of a text

`Proofs.Bytes` has `decode (encode s) = s.toList.map some`.
-/

namespace CellWorld.Text.Utf8

/-- A character that has begun: the bits so far, how many bytes are missing, and the range of the
next one. -/
structure Pending where
  value : Nat
  missing : Nat
  low : Nat
  high : Nat

/-- What a first byte begins: a whole character, a character to be continued, or nothing. -/
inductive Start where
  | whole (c : Char)
  | more (p : Pending)
  | bad

/-- The first byte of a character. The range of the second one excludes overlong forms, surrogates
and values past the last code point. -/
def start (b : Nat) : Start :=
  if b < 0x80 then .whole (Char.ofNat b)
  else if b < 0xC2 then .bad
  else if b < 0xE0 then .more ⟨b - 0xC0, 1, 0x80, 0xBF⟩
  else if b < 0xF0 then
    .more ⟨b - 0xE0, 2, if b = 0xE0 then 0xA0 else 0x80, if b = 0xED then 0x9F else 0xBF⟩
  else if b < 0xF5 then
    .more ⟨b - 0xF0, 3, if b = 0xF0 then 0x90 else 0x80, if b = 0xF4 then 0x8F else 0xBF⟩
  else .bad

/-- The characters of the remaining bytes, after a character that may have begun. -/
def run : Option Pending → List UInt8 → List (Option Char)
  | none, [] => []
  | some _, [] => [none]
  | pending, byte :: rest =>
    let b := byte.toNat
    let fresh (lost : List (Option Char)) : List (Option Char) :=
      match start b with
      | .whole c => lost ++ some c :: run none rest
      | .more p => lost ++ run (some p) rest
      | .bad => lost ++ none :: run none rest
    match pending with
    | none => fresh []
    | some p =>
      if p.low ≤ b ∧ b ≤ p.high then
        let value := p.value * 64 + (b - 0x80)
        if p.missing ≤ 1 then some (Char.ofNat value) :: run none rest
        else run (some ⟨value, p.missing - 1, 0x80, 0xBF⟩) rest
      else fresh [none]

def decode (bytes : List UInt8) : List (Option Char) := run none bytes

/-- The characters of a byte string, with a replacement where the bytes form no character. -/
def lossy (bytes : List UInt8) : String :=
  String.ofList ((decode bytes).map fun c => c.getD '\uFFFD')

def encode (s : String) : List UInt8 := s.toUTF8.data.toList

end CellWorld.Text.Utf8
