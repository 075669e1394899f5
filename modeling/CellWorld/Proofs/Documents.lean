import CellWorld.Json.Decode
import CellWorld.Proofs.Numerals

/-!
# Documents that read back

The reader `Reader.step` goes through a text once, character by character, with a stack of open
containers. On the text of a value `j` it comes to `complete j.tree stack`, or to a state that does
the same as soon as something else follows: a word or a number is complete only then.

* `Json.tree` — the `Tree` that a value says once it is written
* `Json.finite` — whether all doubles in it are finite
* `Reader.run` — `step` over a list of characters
* `Reader.Settles s t stack` — `s` acts like `complete t stack` on the next character and at the end
* `Reader.settles_bareTree?`, `Reader.bare_of_parse?`, `Reader.settles_number` — words and numbers
* `Reader.run_escape`, `Reader.run_quoted` — `Json.escape` of a character is read as the character,
  and a quoted string as the string
* `Reader.settles_chars`, `Reader.run_itemChars`, `Reader.run_fieldChars` — values, items and
  fields, by mutual recursion
* `Reader.ofText?_render` — `Tree.ofText? j.render = some j.tree` for every finite `j`

What the reader makes of texts that `render` does not produce is not covered here; neither is
`Json.null` in the place of a double that is not finite.
-/

namespace CellWorld

/-! ### What a value says -/

namespace Json

mutual

/-- The tree of a value: a number as its literal, and a double as the literal that
`numberStyle.text` writes. -/
def tree : Json → Tree
  | .null => .null
  | .bool b => .bool b
  | .int n => .num ⟨decide (n < 0), n.natAbs, 0, true⟩
  | .float x => (Reader.bareTree? (numberStyle.text x)).getD .null
  | .str s => .str (some s)
  | .arr items => .arr (itemTrees items)
  | .obj fields => .obj (fieldTrees fields)

def itemTrees : List Json → List Tree
  | [] => []
  | j :: rest => tree j :: itemTrees rest

def fieldTrees : List (String × Json) → List (Option String × Tree)
  | [] => []
  | (k, j) :: rest => (some k, tree j) :: fieldTrees rest

end

mutual

/-- Whether all doubles in a value are finite; others have no text as a number. -/
def finite : Json → Bool
  | .float x => Scalar.isFinite x
  | .arr items => itemsFinite items
  | .obj fields => fieldsFinite fields
  | _ => true

def itemsFinite : List Json → Bool
  | [] => true
  | j :: rest => finite j && itemsFinite rest

def fieldsFinite : List (String × Json) → Bool
  | [] => true
  | (_, j) :: rest => finite j && fieldsFinite rest

end

end Json

namespace Reader

/-! ### Runs of characters -/

/-- The state of the reader after the characters `cs`. -/
def run (s : State) (cs : List Char) : State := cs.foldl (fun s c => step s (some c)) s

theorem run_cons (s : State) (c : Char) (cs : List Char) :
    run s (c :: cs) = run (step s (some c)) cs := rfl

theorem run_append (s : State) (cs ds : List Char) : run s (cs ++ ds) = run (run s cs) ds :=
  List.foldl_append

theorem ofText?_eq (s : String) :
    Tree.ofText? s = result? (run (.reading (.value false) []) s.toList) := by
  unfold Tree.ofText? Tree.parse? run
  rw [List.foldl_map]

/-- A state that comes to the same as the complete value `t`, whatever character outside of words
comes next, and if the text ends. -/
structure Settles (s : State) (t : Tree) (stack : List Frame) : Prop where
  next : ∀ c, isBare c = false → step s (some c) = step (complete t stack) (some c)
  last : result? s = result? (complete t stack)

theorem settles_complete (t : Tree) (stack : List Frame) : Settles (complete t stack) t stack :=
  ⟨fun _ _ => rfl, rfl⟩

/-! ### Words and numbers -/

theorem step_complete (t : Tree) (stack : List Frame) (c : Option Char) :
    step (complete t stack) c = stepPlain c (complete t stack) := by
  cases stack with
  | nil => rfl
  | cons frame stack => cases frame <;> rfl

theorem result?_complete (t : Tree) (frame : Frame) (stack : List Frame) :
    result? (complete t (frame :: stack)) = none := by
  cases frame <;> rfl

theorem settles_bare {done : List Char} {t : Tree} (h : bareTree? done.reverse = some t)
    (stack : List Frame) : Settles (.reading (.bare done) stack) t stack where
  next c other := by
    rw [step_complete]
    show (if isBare c then _ else stepPlain (some c) (completeBare done stack)) = _
    rw [if_neg (Bool.eq_false_iff.mp other), completeBare, h]
  last := by
    cases stack with
    | nil => exact h
    | cons frame stack => exact (result?_complete t frame stack).symm

theorem step_value_bare {c : Char} (h : isBare c = true) (closable : Bool) (stack : List Frame) :
    step (.reading (.value closable) stack) (some c) = .reading (.bare [c]) stack := by
  have other {d : Char} (h' : isBare d = false) : c ≠ d := by
    rintro rfl
    rw [h] at h'
    exact Bool.noConfusion h'
  have space : isSpace c = false := by
    simp [isSpace, other (d := ' ') rfl, other (d := '\t') rfl, other (d := '\n') rfl,
      other (d := '\r') rfl]
  show stepBetween c (.value closable) stack = _
  simp [stepBetween, space, h, other (d := '[') rfl, other (d := '\x7b') rfl,
    other (d := '"') rfl]

theorem run_bare {cs : List Char} (bare : ∀ c ∈ cs, isBare c = true) (done : List Char)
    (stack : List Frame) :
    run (.reading (.bare done) stack) cs = .reading (.bare (cs.reverse ++ done)) stack := by
  induction cs generalizing done with
  | nil => rfl
  | cons c cs ih =>
    have first : step (.reading (.bare done) stack) (some c) = .reading (.bare (c :: done)) stack :=
      if_pos (bare c List.mem_cons_self)
    rw [run_cons, first, ih fun c hc => bare c (List.mem_cons_of_mem _ hc), List.reverse_cons,
      List.append_assoc]
    rfl

/-- A word that `bareTree?` knows is read as its tree. -/
theorem settles_bareTree? {cs : List Char} {t : Tree} (bare : ∀ c ∈ cs, isBare c = true)
    (nonempty : cs ≠ []) (h : bareTree? cs = some t) (closable : Bool) (stack : List Frame) :
    Settles (run (.reading (.value closable) stack) cs) t stack := by
  cases cs with
  | nil => exact absurd rfl nonempty
  | cons c cs =>
    rw [run_cons, step_value_bare (bare c List.mem_cons_self),
      run_bare fun c hc => bare c (List.mem_cons_of_mem _ hc)]
    exact settles_bare (by simpa using h) stack

/-! ### Numbers -/

open Number (Literal digitRun)

theorem isBare_of_isDigit {c : Char} (h : c.isDigit = true) : isBare c = true := by
  simp [isBare, Char.isAlphanum, h]

theorem bare_of_digitRun {cs : List Char} (bare : ∀ c ∈ (digitRun cs).2, isBare c = true) :
    ∀ c ∈ cs, isBare c = true := by
  intro c hc
  rw [← List.takeWhile_append_dropWhile (p := Char.isDigit) (l := cs)] at hc
  rcases List.mem_append.mp hc with digit | after
  · exact isBare_of_isDigit (List.all_eq_true.mp List.all_takeWhile c digit)
  · exact bare c after

theorem bare_cons {c : Char} {cs : List Char} (first : isBare c = true)
    (bare : ∀ c ∈ cs, isBare c = true) : ∀ c' ∈ c :: cs, isBare c' = true :=
  List.forall_mem_cons.mpr ⟨first, bare⟩

/-- An exponent that parses consists of digits to its end, so all its characters are bare. -/
theorem bare_of_all_digits {cs : List Char} {value e : Option Int}
    (h : (if ((digitRun cs).1.isEmpty || !(digitRun cs).2.isEmpty) = true then none
      else some value) = some e) : ∀ c ∈ cs, isBare c = true := by
  split at h
  · exact absurd h.symm (Option.some_ne_none e)
  · next valid =>
    have parts : (digitRun cs).1 ≠ [] ∧ (digitRun cs).2 = [] := by simpa using valid
    refine bare_of_digitRun ?_
    rw [parts.2]
    exact fun _ hc => absurd hc List.not_mem_nil

theorem bare_of_exponent? {cs : List Char} {e : Option Int} (h : Literal.exponent? cs = some e) :
    ∀ c ∈ cs, isBare c = true := by
  cases cs with
  | nil => exact fun _ hc => absurd hc List.not_mem_nil
  | cons c cs =>
    unfold Literal.exponent? at h
    dsimp only at h
    by_cases marked : c = 'e' ∨ c = 'E'
    · have mark : isBare c = true := by rcases marked with rfl | rfl <;> decide
      rw [if_pos marked] at h
      refine bare_cons mark ?_
      split at h
      · exact bare_cons (by decide) (bare_of_all_digits h)
      · exact bare_cons (by decide) (bare_of_all_digits h)
      · exact bare_of_all_digits h
    · rw [if_neg marked] at h
      exact absurd h.symm (Option.some_ne_none e)

theorem bare_of_unsigned? {negative : Bool} {cs : List Char} {l : Literal}
    (h : Literal.unsigned? negative cs = some l) : ∀ c ∈ cs, isBare c = true := by
  unfold Literal.unsigned? at h
  dsimp only at h
  split at h
  · exact absurd h.symm (Option.some_ne_none l)
  · refine bare_of_digitRun ?_
    split at h
    · next rest after =>
      rw [after]
      split at h
      · exact absurd h.symm (Option.some_ne_none l)
      · obtain ⟨e, read, -⟩ := Option.map_eq_some_iff.mp h
        exact bare_cons (by decide) (bare_of_digitRun (bare_of_exponent? read))
    · obtain ⟨e, read, -⟩ := Option.map_eq_some_iff.mp h
      exact bare_of_exponent? read

/-- All characters of a number that parses are bare: the reader takes them into one word. -/
theorem bare_of_parse? {cs : List Char} {l : Literal} (h : Literal.parse? cs = some l) :
    ∀ c ∈ cs, isBare c = true := by
  unfold Literal.parse? at h
  split at h
  next negative rest sign =>
  split at sign
  · obtain ⟨rfl, rfl⟩ := Prod.mk.inj sign
    exact bare_cons (by decide) (bare_of_unsigned? h)
  · obtain ⟨rfl, rfl⟩ := Prod.mk.inj sign
    exact bare_of_unsigned? h

theorem bareTree?_of_parse? {cs : List Char} {l : Literal} (h : Literal.parse? cs = some l) :
    bareTree? cs = some (.num l) := by
  have other {word : List Char} (none : Literal.parse? word = none) : cs ≠ word := by
    rintro rfl
    rw [none] at h
    exact absurd h.symm (Option.some_ne_none l)
  unfold bareTree?
  rw [if_neg (other rfl), if_neg (other rfl), if_neg (other rfl), h]
  rfl

/-- A number that parses as `l` is read as `.num l`. -/
theorem settles_number {cs : List Char} {l : Literal} (h : Literal.parse? cs = some l)
    (closable : Bool) (stack : List Frame) :
    Settles (run (.reading (.value closable) stack) cs) (.num l) stack := by
  have nonempty : cs ≠ [] := by
    rintro rfl
    exact absurd h.symm (Option.some_ne_none l)
  exact settles_bareTree? (bare_of_parse? h) nonempty (bareTree?_of_parse? h) closable stack

/-! ### Strings -/

theorem step_hex {c : Char} {d : Nat} (h : hexDigit? c = some d) (isKey : Bool) (q : Quote)
    (value digits : Nat) (stack : List Frame) :
    step (.reading (.quoted isKey q (.hex value digits)) stack) (some c) =
      if 3 ≤ digits then .reading (.quoted isKey (q.pushUnit (value * 16 + d)) .plain) stack
      else .reading (.quoted isKey q (.hex (value * 16 + d) (digits + 1))) stack := by
  show stepQuote isKey q stack (.hex value digits) (some c) = _
  rw [stepQuote, h]

/-- The four digits of a control character under `0x20` give its code point. -/
theorem run_control {c : Char} (control : c.toNat < 0x20) (isKey : Bool) (q : Quote)
    (stack : List Frame) :
    run (.reading (.quoted isKey q (.hex 0 0)) stack)
        ['0', '0', Nat.digitChar (c.toNat / 16), Nat.digitChar (c.toNat % 16)] =
      .reading (.quoted isKey (q.push c) .plain) stack := by
  have digit : ∀ n < 16, hexDigit? (Nat.digitChar n) = some n := by decide
  have value : c.toNat / 16 * 16 + c.toNat % 16 = c.toNat := by omega
  have unit : q.pushUnit c.toNat = q.push c := by
    rw [Quote.pushUnit, if_neg (by omega), if_neg (by omega), Char.ofNat_toNat]
  have leading : run (.reading (.quoted isKey q (.hex 0 0)) stack) ['0', '0'] =
      .reading (.quoted isKey q (.hex 0 2)) stack := rfl
  rw [show ∀ high low, ['0', '0', high, low] = ['0', '0'] ++ [high, low] from fun _ _ => rfl,
    run_append, leading, run_cons, step_hex (digit (c.toNat / 16) (by omega)), if_neg (by decide),
    run_cons, step_hex (digit (c.toNat % 16) (by omega)), if_pos (by decide), Nat.zero_mul,
    Nat.zero_add, value, unit]
  rfl

/-- The escape of one character is read as that character. The cases are those of `Json.escape`:
two-character escapes, `\u00XY`, and characters that stand for themselves. -/
theorem run_escape (isKey : Bool) (done : List Char) (stack : List Frame) (c : Char) :
    run (.reading (.quoted isKey ⟨done, none, true⟩ .plain) stack) (Json.escape c) =
      .reading (.quoted isKey ⟨c :: done, none, true⟩ .plain) stack := by
  unfold Json.escape
  split_ifs with quote backslash newline ret tab bell feed control
  -- the characters that have a letter after the backslash
  iterate 7
    · subst c
      rfl
  · exact run_control control isKey ⟨done, none, true⟩ stack
  · show stepQuote isKey ⟨done, none, true⟩ stack .plain (some c) = _
    rw [stepQuote, if_neg quote, if_neg backslash, if_neg control]
    rfl

/-- Induction on the characters. -/
theorem run_flatMap_escape (isKey : Bool) (done : List Char) (stack : List Frame)
    (cs : List Char) :
    run (.reading (.quoted isKey ⟨done, none, true⟩ .plain) stack) (cs.flatMap Json.escape) =
      .reading (.quoted isKey ⟨cs.reverse ++ done, none, true⟩ .plain) stack := by
  induction cs generalizing done with
  | nil => rfl
  | cons c cs ih =>
    rw [List.flatMap_cons, run_append, run_escape, ih, List.reverse_cons, List.append_assoc]
    rfl

/-- A string up to its closing quote, in the place of a value or of a key. -/
theorem run_quoted (isKey : Bool) (stack : List Frame) (s : String) :
    run (.reading (.quoted isKey {} .plain) stack) (s.toList.flatMap Json.escape ++ ['"']) =
      if isKey then .reading (.colon (some s)) stack else complete (.str (some s)) stack := by
  have finished : Quote.finish ⟨s.toList.reverse ++ [], none, true⟩ = some s := by
    simp [Quote.finish]
  rw [run_append, run_flatMap_escape]
  show completeQuote isKey ⟨s.toList.reverse ++ [], none, true⟩ stack = _
  rw [completeQuote, finished]

theorem run_quote (closable : Bool) (stack : List Frame) (s : String) :
    run (.reading (.value closable) stack) (Json.quote s) = complete (.str (some s)) stack :=
  run_quoted false stack s

theorem run_key (closable : Bool) (stack : List Frame) (k : String) :
    run (.reading (.key closable) stack) (Json.quote k) = .reading (.colon (some k)) stack :=
  run_quoted true stack k

/-! ### Containers -/

variable {s : State} {t : Tree} {stack : List Frame} {items : List Tree}
  {fields : List (Option String × Tree)} {key : Option String}

theorem Settles.close_arr (h : Settles s t (.arr items :: stack)) :
    step s (some ']') = complete (.arr (items.reverse ++ [t])) stack := by
  rw [h.next ']' (by decide), ← List.reverse_cons]
  rfl

theorem Settles.comma_arr (h : Settles s t (.arr items :: stack)) :
    step s (some ',') = .reading (.value false) (.arr (t :: items) :: stack) := by
  rw [h.next ',' (by decide)]
  rfl

theorem step_colon (key : Option String) (done : List (Option String × Tree))
    (stack : List Frame) :
    step (.reading (.colon key) (.obj done :: stack)) (some ':') =
      .reading (.value false) (.field done key :: stack) := rfl

theorem Settles.close_obj (h : Settles s t (.field fields key :: stack)) :
    step s (some '\x7d') = complete (.obj (fields.reverse ++ [(key, t)])) stack := by
  rw [h.next '\x7d' (by decide), ← List.reverse_cons]
  rfl

theorem Settles.comma_obj (h : Settles s t (.field fields key :: stack)) :
    step s (some ',') = .reading (.key false) (.obj ((key, t) :: fields) :: stack) := by
  rw [h.next ',' (by decide)]
  rfl

/-! ### Values -/

mutual

/-- The text of a value settles as its tree, under any stack. -/
theorem settles_chars : ∀ (j : Json), j.finite = true → ∀ (closable : Bool) (stack : List Frame),
    Settles (run (.reading (.value closable) stack) j.chars) j.tree stack
  | .null, _, closable, stack =>
    settles_bareTree? (List.all_eq_true.mp rfl) (List.cons_ne_nil _ _) rfl closable stack
  | .bool true, _, closable, stack =>
    settles_bareTree? (List.all_eq_true.mp rfl) (List.cons_ne_nil _ _) rfl closable stack
  | .bool false, _, closable, stack =>
    settles_bareTree? (List.all_eq_true.mp rfl) (List.cons_ne_nil _ _) rfl closable stack
  | .int n, _, closable, stack => settles_number (Number.parse?_integer n) closable stack
  | .float x, h, closable, stack => by
    obtain ⟨l, read, -⟩ := Number.parse?_text Json.numberStyle h
    rw [Json.tree, bareTree?_of_parse? read]
    exact settles_number read closable stack
  | .str s, _, closable, stack => by
    rw [Json.chars, run_quote]
    exact settles_complete _ stack
  | .arr [], _, _, stack => settles_complete (.arr []) stack
  | .arr (j :: rest), h, closable, stack => by
    show Settles (run (.reading (.value true) (.arr [] :: stack))
      (Json.itemChars (j :: rest) ++ [']'])) _ stack
    rw [run_itemChars (j :: rest) (List.cons_ne_nil j rest) h]
    exact settles_complete _ stack
  | .obj [], _, _, stack => settles_complete (.obj []) stack
  | .obj (field :: rest), h, closable, stack => by
    show Settles (run (.reading (.key true) (.obj [] :: stack))
      (Json.fieldChars (field :: rest) ++ ['\x7d'])) _ stack
    rw [run_fieldChars (field :: rest) (List.cons_ne_nil field rest) h]
    exact settles_complete _ stack

/-- The items up to the closing bracket complete the array. -/
theorem run_itemChars : ∀ (items : List Json), items ≠ [] → Json.itemsFinite items = true →
    ∀ (closable : Bool) (done : List Tree) (stack : List Frame),
    run (.reading (.value closable) (.arr done :: stack)) (Json.itemChars items ++ [']']) =
      complete (.arr (done.reverse ++ Json.itemTrees items)) stack
  | [], nonempty, _, _, _, _ => absurd rfl nonempty
  | [j], _, h, closable, done, stack => by
    rw [Json.itemsFinite, Bool.and_eq_true] at h
    rw [Json.itemChars, run_append, run_cons,
      (settles_chars j h.1 closable (.arr done :: stack)).close_arr]
    rfl
  | j :: j' :: rest, _, h, closable, done, stack => by
    rw [Json.itemsFinite, Bool.and_eq_true] at h
    rw [Json.itemChars, List.append_assoc, run_append, List.cons_append, run_cons,
      (settles_chars j h.1 closable (.arr done :: stack)).comma_arr,
      run_itemChars (j' :: rest) (List.cons_ne_nil j' rest) h.2, List.reverse_cons,
      List.append_assoc]
    · rfl
    · exact List.cons_ne_nil j' rest

/-- The fields up to the closing brace complete the object, with equal keys as often as they stand
there. -/
theorem run_fieldChars : ∀ (fields : List (String × Json)), fields ≠ [] →
    Json.fieldsFinite fields = true →
    ∀ (closable : Bool) (done : List (Option String × Tree)) (stack : List Frame),
    run (.reading (.key closable) (.obj done :: stack)) (Json.fieldChars fields ++ ['\x7d']) =
      complete (.obj (done.reverse ++ Json.fieldTrees fields)) stack
  | [], nonempty, _, _, _, _ => absurd rfl nonempty
  | [(k, j)], _, h, closable, done, stack => by
    rw [Json.fieldsFinite, Bool.and_eq_true] at h
    rw [Json.fieldChars, List.append_assoc, run_append, run_key, List.cons_append, run_cons,
      step_colon, run_append, run_cons,
      (settles_chars j h.1 false (.field done (some k) :: stack)).close_obj]
    rfl
  | (k, j) :: field :: rest, _, h, closable, done, stack => by
    rw [Json.fieldsFinite, Bool.and_eq_true] at h
    rw [Json.fieldChars, List.append_assoc, run_append, run_key, List.cons_append, run_cons,
      step_colon, List.append_assoc, run_append, List.cons_append, run_cons,
      (settles_chars j h.1 false (.field done (some k) :: stack)).comma_obj,
      run_fieldChars (field :: rest) (List.cons_ne_nil field rest) h.2, List.reverse_cons,
      List.append_assoc]
    · rfl
    · exact List.cons_ne_nil field rest

end

/-- The text of a finite value reads back as its tree. -/
theorem ofText?_render {j : Json} (h : j.finite = true) : Tree.ofText? j.render = some j.tree := by
  rw [ofText?_eq, Json.render, String.toList_ofList, (settles_chars j h false []).last]
  rfl

end Reader

end CellWorld
