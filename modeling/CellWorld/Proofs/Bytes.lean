import CellWorld.Json.Tree
import CellWorld.Text.Utf8

/-!
# The bytes of a text

Decoding what was encoded gives back the characters, in the model's own decoder `Text.Utf8.run`,
which is a machine over bytes with a pending character.

* `Text.Utf8.start_one`, …, `Text.Utf8.start_four` — how a first byte begins a character of one to
  four bytes
* `Text.Utf8.run_char` — `run none (utf8EncodeChar c ++ rest) = some c :: run none rest`
* `Text.Utf8.decode_encode` — `decode (encode s) = s.toList.map some`
* `Tree.parse?_encode` — `parse? (decode (encode text)) = ofText? text`

The converse does not hold: `decode` yields `none` where bytes form no character, and these are not
covered here.
-/

namespace CellWorld

namespace Text.Utf8

/-! ### First bytes -/

theorem start_one {n : Nat} (h : n < 0x80) : start n = .whole (Char.ofNat n) := by
  rw [start, if_pos h]

/-- The first byte of two: the pending value has five bits. -/
theorem start_two {n : Nat} (low : 2 ≤ n) (high : n < 0x20) :
    start (n + 0xC0) = .more ⟨n, 1, 0x80, 0xBF⟩ := by
  rw [start, if_neg (by omega), if_neg (by omega), if_pos (by omega), Nat.add_sub_cancel]

/-- The first byte of three: the second byte is bounded so that no surrogate and no overlong form
comes out. -/
theorem start_three {n : Nat} (high : n < 0x10) :
    start (n + 0xE0) =
      .more ⟨n, 2, if n = 0 then 0xA0 else 0x80, if n = 13 then 0x9F else 0xBF⟩ := by
  rw [start, if_neg (by omega), if_neg (by omega), if_neg (by omega), if_pos (by omega),
    Nat.add_sub_cancel]
  simp only [Nat.add_eq_right, Nat.reduceEqDiff]

/-- The first byte of four: the second byte is bounded at `0x90` below and at `0x8F` above. -/
theorem start_four {n : Nat} (high : n < 5) :
    start (n + 0xF0) =
      .more ⟨n, 3, if n = 0 then 0x90 else 0x80, if n = 4 then 0x8F else 0xBF⟩ := by
  rw [start, if_neg (by omega), if_neg (by omega), if_neg (by omega), if_neg (by omega),
    if_pos (by omega), Nat.add_sub_cancel]
  simp only [Nat.add_eq_right, Nat.reduceEqDiff]

/-! ### Bytes one by one -/

theorem toNat_byte {n : Nat} (h : n < 0x100) : (UInt8.ofNat n).toNat = n := by
  rw [UInt8.toNat_ofNat', Nat.mod_eq_of_lt h]

variable (rest : List UInt8) {n : Nat}

theorem run_whole {c : Char} (byte : n < 0x100) (h : start n = .whole c) :
    run none (UInt8.ofNat n :: rest) = some c :: run none rest := by
  simp only [run, toNat_byte byte, h, List.nil_append]

theorem run_more {p : Pending} (byte : n < 0x100) (h : start n = .more p) :
    run none (UInt8.ofNat n :: rest) = run (some p) rest := by
  simp only [run, toNat_byte byte, h, List.nil_append]

variable {value missing low high : Nat} (bits : n < 0x40) (above : low ≤ n + 0x80)
  (below : n + 0x80 ≤ high)
include bits above below

/-- A continuation byte that is not the last multiplies by `64` and adds six bits. -/
theorem run_next :
    run (some ⟨value, missing + 2, low, high⟩) (UInt8.ofNat (n + 0x80) :: rest) =
      run (some ⟨value * 64 + n, missing + 1, 0x80, 0xBF⟩) rest := by
  have byte : (UInt8.ofNat (n + 0x80)).toNat = n + 0x80 := toNat_byte (by omega)
  have more : 1 < missing + 2 := Nat.lt_add_left missing (by decide)
  rw [run, byte, if_pos ⟨above, below⟩, if_neg (Nat.not_le.mpr more), Nat.add_sub_cancel]
  rfl

/-- The last continuation byte completes the character. -/
theorem run_last :
    run (some ⟨value, 1, low, high⟩) (UInt8.ofNat (n + 0x80) :: rest) =
      some (Char.ofNat (value * 64 + n)) :: run none rest := by
  have byte : (UInt8.ofNat (n + 0x80)).toNat = n + 0x80 := toNat_byte (by omega)
  rw [run, byte, if_pos ⟨above, below⟩, if_pos (Nat.le_refl 1), Nat.add_sub_cancel]

omit bits above below

/-! ### Characters -/

/-- The machine reads one encoded character and is ready for the next. The cases are the four
lengths of an encoding. -/
theorem run_char (c : Char) :
    run none (String.utf8EncodeChar c ++ rest) = some c :: run none rest := by
  have point : c.val.toNat < 0xD800 ∨ 0xDFFF < c.val.toNat ∧ c.val.toNat < 0x110000 := c.valid
  have whole : Char.ofNat c.val.toNat = c := Char.ofNat_toNat c
  fun_cases String.utf8EncodeChar c with
  | case1 v one => exact run_whole rest (by omega) (whole ▸ start_one (by omega))
  | case2 v one two =>
    have value : v / 64 % 32 * 64 + v % 64 = v := by omega
    simp only [List.cons_append, List.nil_append]
    rw [run_more _ (by omega) (start_two (by omega) (by omega)),
      run_last _ (by omega) (by omega) (by omega), value, whole]
  | case3 v one two three =>
    have value : (v / 4096 % 16 * 64 + v / 64 % 64) * 64 + v % 64 = v := by omega
    simp only [List.cons_append, List.nil_append]
    -- the second byte tells overlong forms and halves of pairs from the rest
    rw [run_more _ (by omega) (start_three (by omega)),
      run_next _ (by omega) (by split <;> omega) (by split <;> omega),
      run_last _ (by omega) (by omega) (by omega), value, whole]
  | case4 v one two three =>
    have value : ((v / 262144 % 8 * 64 + v / 4096 % 64) * 64 + v / 64 % 64) * 64 + v % 64 = v := by
      omega
    simp only [List.cons_append, List.nil_append]
    rw [run_more _ (by omega) (start_four (by omega)),
      run_next _ (by omega) (by split <;> omega) (by split <;> omega),
      run_next _ (by omega) (by omega) (by omega),
      run_last _ (by omega) (by omega) (by omega), value, whole]

/-! ### Texts -/

/-- The encoding of a text is that of its characters, one after the other. -/
theorem encode_eq (s : String) : encode s = s.toList.flatMap String.utf8EncodeChar := by
  have bytes : s.toByteArray = s.toList.utf8Encode := by
    rw [← String.toByteArray_ofList, String.ofList_toList]
  simp [encode, bytes, List.utf8Encode]

/-- Induction on the characters. -/
theorem decode_encode (s : String) : decode (encode s) = s.toList.map some := by
  have chars (cs : List Char) : run none (cs.flatMap String.utf8EncodeChar) = cs.map some := by
    induction cs with
    | nil => rfl
    | cons c cs ih => rw [List.flatMap_cons, run_char, ih, List.map_cons]
  rw [decode, encode_eq, chars]

end Text.Utf8

/-- A document read from its bytes is the document read from its text. -/
theorem Tree.parse?_encode (text : String) :
    parse? (Text.Utf8.decode (Text.Utf8.encode text)) = ofText? text := by
  rw [Text.Utf8.decode_encode, ofText?]

end CellWorld
