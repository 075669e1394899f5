import CellWorld.Number.Literal
import CellWorld.Proofs.Shortest

/-!
# Numbers that read back

A number that is written in any `Style` is a literal of the same value, and a literal close enough
to a double is read as that double. Together they give `parse? (s.text x)` the value `x`.

* `digitsValue_toDigits`, `digitRun_append` — digits that are written and read
* `Literal.parse?_pointed`, `Literal.parse?_pointless` — the two forms `before.after` and `before`,
  each with an exponent or without
* `Literal.Spells text v` — with either sign, `text` parses to a literal of value `v`
* `Literal.spells_layout` — `Spells (s.layout d) d.value` for every decimal `d` whose zero has
  exponent zero
* `Literal.toFloat_eq` — if `b.Attracts l.value`, then `l.toFloat` is the double of `b`
* `parse?_text` — `∃ l, parse? (s.text x) = some l ∧ l.toFloat = x`, for `x` finite
* `parse?_integer` — whole numbers read back

That the decimal of `s.text x` is attracted by `x` is `Proofs.Shortest`. The styles decide only on
the layout, so one theorem covers all of them.
-/

namespace CellWorld.Number

/-! ### Digits -/

theorem digitsValue_toDigits (n : Nat) : digitsValue (Nat.toDigits 10 n) = n :=
  Nat.ofDigitChars_ten_toDigits

theorem digitsValue_append_zeros (cs : List Char) (n : Nat) :
    digitsValue (cs ++ List.replicate n '0') = digitsValue cs * 10 ^ n := by
  show Nat.ofDigitChars 10 _ 0 = Nat.ofDigitChars 10 cs 0 * 10 ^ n
  rw [Nat.ofDigitChars_append, Nat.ofDigitChars_replicate_zero, Nat.mul_comm]

theorem digitsValue_zeros_append (n : Nat) (cs : List Char) :
    digitsValue (List.replicate n '0' ++ cs) = digitsValue cs := by
  show Nat.ofDigitChars 10 _ 0 = Nat.ofDigitChars 10 cs 0
  rw [Nat.ofDigitChars_append, Nat.ofDigitChars_replicate_zero, Nat.mul_zero]

theorem isDigit_toDigits {n : Nat} {c : Char} (h : c ∈ Nat.toDigits 10 n) : c.isDigit = true :=
  Nat.isDigit_of_mem_toDigits (by decide) (by decide) h

/-- No zero leads the digits of a positive number. -/
theorem head?_toDigits {n : Nat} (hn : n ≠ 0) : (Nat.toDigits 10 n).head? ≠ some '0' := by
  induction n using Nat.strongRecOn with
  | ind n ih =>
    by_cases small : n < 10
    · have nonzero : ∀ k < 10, k ≠ 0 → Nat.digitChar k ≠ '0' := by decide
      rw [Nat.toDigits_of_lt_base small, List.head?_cons]
      exact fun zero => nonzero n small hn (Option.some.inj zero)
    · rw [Nat.toDigits_of_base_le (by decide) (Nat.not_lt.mp small),
        List.head?_append_of_ne_nil _ Nat.toDigits_ne_nil]
      exact ih (n / 10) (by omega) (by omega)

/-- A number of `k` digits is from `10 ^ (k - 1)` up to, and not including, `10 ^ k`. -/
theorem toDigits_bounds {n : Nat} (hn : 0 < n) :
    10 ^ ((Nat.toDigits 10 n).length - 1) ≤ n ∧ n < 10 ^ (Nat.toDigits 10 n).length := by
  have pos : 0 < (Nat.toDigits 10 n).length := Nat.length_toDigits_pos
  refine ⟨?_, (Nat.length_toDigits_le_iff (by decide) pos).mp (Nat.le_refl _)⟩
  by_cases one : (Nat.toDigits 10 n).length = 1
  · rw [one]
    exact hn
  · by_contra less
    have shorter := (Nat.length_toDigits_le_iff (b := 10) (by decide) (by omega)).mpr
      (Nat.not_le.mp less)
    omega

/-- A run of digits ends before `rest`. -/
def Stops (rest : List Char) : Prop := ∀ c, rest.head? = some c → c.isDigit = false

theorem stops_nil : Stops [] := fun _ h => absurd h.symm (Option.some_ne_none _)

theorem stops_cons {c : Char} {rest : List Char} (h : c.isDigit = false) : Stops (c :: rest) := by
  intro c' head
  rw [← Option.some.inj head]
  exact h

theorem digitRun_append {ds rest : List Char} (digits : ∀ c ∈ ds, c.isDigit = true)
    (stop : Stops rest) : digitRun (ds ++ rest) = (ds, rest) := by
  have none : rest.takeWhile Char.isDigit = [] ∧ rest.dropWhile Char.isDigit = rest := by
    cases rest with
    | nil => exact ⟨rfl, rfl⟩
    | cons c rest =>
      have := stop c rfl
      simp [this]
  rw [digitRun, List.takeWhile_append_of_pos digits, List.dropWhile_append_of_pos digits, none.1,
    none.2, List.append_nil]

/-! ### Literals -/

namespace Literal

/-- The number `mantissa * 10 ^ exponent`, without its sign. -/
def value (l : Literal) : ℚ := l.mantissa * 10 ^ l.exponent

/-- The characters `cs` behind a minus sign, or alone. -/
def signed (negative : Bool) (cs : List Char) : List Char := if negative then '-' :: cs else cs

/-- An exponent as `Style.scientific` writes it. -/
theorem exponent?_written (e : Int) :
    exponent? ('e' :: (if e < 0 then '-' else '+') :: Nat.toDigits 10 e.natAbs) =
      some (some e) := by
  have run : digitRun (Nat.toDigits 10 e.natAbs ++ []) = _ :=
    digitRun_append (fun c => isDigit_toDigits) stops_nil
  rw [List.append_nil] at run
  have nonempty : Nat.toDigits 10 e.natAbs ≠ [] := Nat.toDigits_ne_nil
  by_cases neg : e < 0
  · have value : -(e.natAbs : Int) = e := by omega
    rw [if_pos neg]
    simp only [exponent?, true_or, if_true, run]
    rw [if_neg (by simp [nonempty]), digitsValue_toDigits, value]
  · have value : (e.natAbs : Int) = e := by omega
    rw [if_neg neg]
    simp only [exponent?, true_or, if_true, run]
    rw [if_neg (by simp [nonempty]), digitsValue_toDigits, if_neg Bool.false_ne_true, value]

/-- The digits before the point: at least one, and no needless zero. -/
structure Begins (before : List Char) : Prop where
  nonempty : before ≠ []
  digits : ∀ c ∈ before, c.isDigit = true
  lead : before.head? = some '0' → before.length = 1

/-- The rest of `parse?` after the sign. -/
def unsigned? (negative : Bool) (cs : List Char) : Option Literal :=
  let (before, rest) := digitRun cs
  if before.isEmpty || (before.head? == some '0' && 1 < before.length) then none
  else match rest with
    | '.' :: rest =>
      let (after, rest) := digitRun rest
      if after.isEmpty then none else (exponent? rest).map (ofParts negative before after true)
    | _ => (exponent? rest).map (ofParts negative before [] false)

variable {negative : Bool} {before after tail : List Char} {e : Option Int}

/-- A text that begins with a digit parses to what `unsigned?` makes of it, with the sign in
front. -/
theorem parse?_signed (begins : Begins before) :
    parse? (signed negative (before ++ tail)) = unsigned? negative (before ++ tail) := by
  cases negative with
  | true => rfl
  | false =>
    unfold parse? signed
    rw [if_neg Bool.false_ne_true]
    split
    next negative cs sign =>
      split at sign
      · next rest same =>
        cases before with
        | nil => exact absurd rfl begins.nonempty
        | cons c before =>
          have digit := begins.digits c List.mem_cons_self
          rw [(List.cons.inj same).1] at digit
          exact absurd digit (by decide)
      · obtain ⟨rfl, rfl⟩ := Prod.mk.inj sign
        rfl

theorem Begins.not_refused (begins : Begins before) :
    ¬ (before.isEmpty || (before.head? == some '0' && decide (1 < before.length))) = true := by
  simp only [Bool.or_eq_true, List.isEmpty_iff, Bool.and_eq_true, beq_iff_eq, decide_eq_true_eq]
  rintro (empty | ⟨zero, long⟩)
  · exact begins.nonempty empty
  · have := begins.lead zero
    omega

/-- The form `before.after`, with digits on both sides of the point. -/
theorem parse?_pointed (tail : List Char) (begins : Begins before) (nonempty : after ≠ [])
    (digits : ∀ c ∈ after, c.isDigit = true) (stop : Stops tail)
    (exponent : exponent? tail = some e) :
    parse? (signed negative (before ++ '.' :: (after ++ tail))) =
      some (ofParts negative before after true e) := by
  rw [parse?_signed begins, unsigned?, digitRun_append begins.digits (stops_cons (by decide))]
  dsimp only
  rw [if_neg begins.not_refused]
  simp only [digitRun_append digits stop, exponent, List.isEmpty_iff, if_neg nonempty,
    Option.map_some]

/-- The form without a point. -/
theorem parse?_pointless (tail : List Char) (begins : Begins before) (stop : Stops tail)
    (pointless : tail.head? ≠ some '.') (exponent : exponent? tail = some e) :
    parse? (signed negative (before ++ tail)) = some (ofParts negative before [] false e) := by
  rw [parse?_signed begins, unsigned?, digitRun_append begins.digits stop]
  dsimp only
  rw [if_neg begins.not_refused]
  split
  · exact absurd rfl pointless
  · rw [exponent]
    rfl

/-- The text is a literal of value `v`, whichever sign is put in front. -/
def Spells (text : List Char) (v : ℚ) : Prop :=
  ∀ negative, ∃ l, parse? (signed negative text) = some l ∧ l.negative = negative ∧ l.value = v

theorem Spells.congr {text : List Char} {v w : ℚ} (h : Spells text v) (same : v = w) :
    Spells text w := same ▸ h

theorem spells_pointed (tail : List Char) (begins : Begins before) (nonempty : after ≠ [])
    (digits : ∀ c ∈ after, c.isDigit = true) (stop : Stops tail)
    (exponent : exponent? tail = some e) :
    Spells (before ++ '.' :: (after ++ tail))
      (digitsValue (before ++ after) * 10 ^ (e.getD 0 - after.length)) :=
  fun _ => ⟨_, parse?_pointed tail begins nonempty digits stop exponent, rfl, rfl⟩

theorem spells_pointless (tail : List Char) (begins : Begins before) (stop : Stops tail)
    (pointless : tail.head? ≠ some '.') (exponent : exponent? tail = some e) :
    Spells (before ++ tail) (digitsValue before * 10 ^ e.getD 0) := by
  intro negative
  refine ⟨_, parse?_pointless tail begins stop pointless exponent, rfl, ?_⟩
  rw [value, ofParts, List.append_nil, List.length_nil, Nat.cast_zero, Int.sub_zero]

/-! ### Layouts -/

theorem begins_single {c : Char} (digit : c.isDigit = true) : Begins [c] :=
  ⟨List.cons_ne_nil c [], by simpa using digit, fun _ => rfl⟩

/-- The digits of a whole number with its trailing zeros, where zero has none. -/
theorem begins_whole {d : Decimal} (zero : d.digits = 0 → d.exponent = 0) :
    Begins (Nat.toDigits 10 d.digits ++ List.replicate d.exponent.toNat '0') where
  nonempty := List.append_ne_nil_of_left_ne_nil Nat.toDigits_ne_nil _
  digits c hc := by
    rcases List.mem_append.mp hc with digit | padding
    · exact isDigit_toDigits digit
    · rw [List.eq_of_mem_replicate padding]
      rfl
  lead head := by
    by_cases none : d.digits = 0
    · rw [none, zero none]
      rfl
    · rw [List.head?_append_of_ne_nil _ Nat.toDigits_ne_nil] at head
      exact absurd head (head?_toDigits none)

/-- The first `k` digits, for `k` positive. -/
theorem begins_take {n k : Nat} (hn : n ≠ 0) (pos : 0 < k) :
    Begins ((Nat.toDigits 10 n).take k) where
  nonempty empty := by
    rcases List.take_eq_nil_iff.mp empty with zero | empty
    · omega
    · exact Nat.toDigits_ne_nil empty
  digits c hc := isDigit_toDigits (List.mem_of_mem_take hc)
  lead head := by
    rw [List.head?_take, if_neg (by omega)] at head
    exact absurd head (head?_toDigits hn)

/-- Exponent zero or positive: digits, zeros, and `.0` where the style asks for it. -/
theorem spells_whole (pointZero : Bool) {d : Decimal} (zero : d.digits = 0 → d.exponent = 0)
    (whole : 0 ≤ d.exponent) :
    Spells (Nat.toDigits 10 d.digits ++ List.replicate d.exponent.toNat '0' ++
      (if pointZero then ['.', '0'] else [])) d.value := by
  have begins := begins_whole zero
  have digits : digitsValue (Nat.toDigits 10 d.digits ++ List.replicate d.exponent.toNat '0') =
      d.digits * 10 ^ d.exponent.toNat := by
    rw [digitsValue_append_zeros, digitsValue_toDigits]
  have value : d.value = d.digits * 10 ^ d.exponent.toNat := by
    rw [Decimal.value, ← zpow_natCast, Int.toNat_of_nonneg whole]
  cases pointZero with
  | true =>
    have shifted := digitsValue_append_zeros
      (Nat.toDigits 10 d.digits ++ List.replicate d.exponent.toNat '0') 1
    have spells := spells_pointed [] begins (List.cons_ne_nil '0' []) (List.all_eq_true.mp rfl)
      stops_nil rfl
    refine spells.congr ?_
    show (digitsValue (_ ++ List.replicate 1 '0') : ℚ) * 10 ^ (-1 : Int) = _
    rw [shifted, digits, value, zpow_neg_one]
    push_cast
    field_simp
  | false =>
    refine (spells_pointless [] begins stops_nil (Option.some_ne_none _).symm rfl).congr ?_
    show (digitsValue _ : ℚ) * 10 ^ (0 : Int) = _
    rw [digits, value, zpow_zero, mul_one]
    push_cast
    rfl

/-- The point stands among the digits. -/
theorem spells_inside {d : Decimal} (nonzero : d.digits ≠ 0) (broken : d.exponent < 0)
    (inside : (-d.exponent).toNat < (Nat.toDigits 10 d.digits).length) :
    let ds := Nat.toDigits 10 d.digits
    Spells (ds.take (ds.length - (-d.exponent).toNat) ++
      '.' :: ds.drop (ds.length - (-d.exponent).toNat)) d.value := by
  intro ds
  have within : (-d.exponent).toNat < ds.length := inside
  have places : (ds.drop (ds.length - (-d.exponent).toNat)).length = (-d.exponent).toNat := by
    rw [List.length_drop]
    omega
  have begins : Begins (ds.take (ds.length - (-d.exponent).toNat)) :=
    begins_take nonzero (by omega)
  have nonempty : ds.drop (ds.length - (-d.exponent).toNat) ≠ [] :=
    List.ne_nil_of_length_pos (by omega)
  have spells := spells_pointed [] begins nonempty
    (fun c hc => isDigit_toDigits (List.mem_of_mem_drop hc)) stops_nil rfl
  rw [List.append_nil] at spells
  refine spells.congr ?_
  rw [List.take_append_drop, digitsValue_toDigits, places, Decimal.value]
  congr 2
  show (0 : Int) - _ = _
  omega

/-- The point stands before the digits, with `0.` and zeros in between. -/
theorem spells_below {d : Decimal} (broken : d.exponent < 0)
    (below : (Nat.toDigits 10 d.digits).length ≤ (-d.exponent).toNat) :
    let ds := Nat.toDigits 10 d.digits
    Spells ('0' :: '.' :: (List.replicate ((-d.exponent).toNat - ds.length) '0' ++ ds))
      d.value := by
  intro ds
  have outside : ds.length ≤ (-d.exponent).toNat := below
  have digits : ∀ c ∈ List.replicate ((-d.exponent).toNat - ds.length) '0' ++ ds,
      c.isDigit = true := by
    intro c hc
    rcases List.mem_append.mp hc with padding | digit
    · rw [List.eq_of_mem_replicate padding]
      rfl
    · exact isDigit_toDigits digit
  have value := digitsValue_zeros_append ((-d.exponent).toNat - ds.length + 1) ds
  have spells := spells_pointed [] (begins_single (c := '0') rfl)
    (List.append_ne_nil_of_right_ne_nil _ Nat.toDigits_ne_nil) digits stops_nil rfl
  rw [List.append_nil] at spells
  refine spells.congr ?_
  show (digitsValue (List.replicate (_ + 1) '0' ++ ds) : ℚ) *
    10 ^ (0 - (List.length (_ ++ ds) : Int)) = _
  rw [value, digitsValue_toDigits, List.length_append, List.length_replicate, Decimal.value]
  congr 2
  omega

/-- The three cases of a positional layout. -/
theorem spells_positional (s : Style) {d : Decimal} (zero : d.digits = 0 → d.exponent = 0) :
    Spells (s.positional d) d.value := by
  unfold Style.positional
  dsimp only
  split
  · next whole => exact spells_whole s.pointZero zero whole
  · next broken =>
    split
    · next inside =>
      exact spells_inside (fun none => broken (by rw [zero none])) (not_le.mp broken) inside
    · next below => exact spells_below (not_le.mp broken) (not_lt.mp below)

/-- One digit, the others behind the point, and an exponent. -/
theorem spells_scientific (d : Decimal) : Spells (Style.scientific d) d.value := by
  have digits : ∀ c ∈ Nat.toDigits 10 d.digits, c.isDigit = true := fun c => isDigit_toDigits
  have value := digitsValue_toDigits d.digits
  have stop : Stops ('e' :: (if d.leading < 0 then '-' else '+') ::
    Nat.toDigits 10 d.leading.natAbs) := stops_cons (by decide)
  unfold Style.scientific
  cases written : Nat.toDigits 10 d.digits with
  | nil => exact absurd written Nat.toDigits_ne_nil
  | cons c rest =>
    have place : d.leading = d.exponent + rest.length := by
      rw [Decimal.leading, written, List.length_cons]
      omega
    rw [written] at digits value
    have begins := begins_single (digits c List.mem_cons_self)
    cases rest with
    | nil =>
      refine (spells_pointless _ begins stop (by simp) (exponent?_written _)).congr ?_
      rw [value, Option.getD_some, place, Decimal.value]
      simp
    | cons c' rest =>
      refine (spells_pointed _ begins (List.cons_ne_nil c' rest)
        (fun c hc => digits c (List.mem_cons_of_mem _ hc)) stop (exponent?_written _)).congr ?_
      rw [List.singleton_append, value, Option.getD_some, place, Decimal.value, Int.add_sub_cancel]

/-- A style lays a decimal out positionally or with an exponent. -/
theorem spells_layout (s : Style) {d : Decimal} (zero : d.digits = 0 → d.exponent = 0) :
    Spells (s.layout d) d.value := by
  unfold Style.layout
  split
  · exact spells_positional s zero
  · exact spells_scientific d

/-! ### Doubles -/

variable {l : Literal} {b : Binary}

/-- The position of the leading digit bounds the value. -/
theorem value_bounds (pos : 0 < l.mantissa) :
    (10 : ℚ) ^ (l.exponent + (Nat.toDigits 10 l.mantissa).length - 1) ≤ l.value ∧
      l.value < 10 ^ (l.exponent + (Nat.toDigits 10 l.mantissa).length) := by
  obtain ⟨low, high⟩ := toDigits_bounds pos
  have one : 1 ≤ (Nat.toDigits 10 l.mantissa).length := Nat.length_toDigits_pos
  generalize (Nat.toDigits 10 l.mantissa).length = size at low high one ⊢
  have ten : (0 : ℚ) < 10 ^ l.exponent := by positivity
  rw [value, mul_comm]
  constructor
  · rw [show l.exponent + (size : Int) - 1 = l.exponent + ((size - 1 : Nat) : Int) by omega,
      zpow_add₀ (by norm_num), zpow_natCast]
    gcongr
    exact_mod_cast low
  · rw [zpow_add₀ (by norm_num), zpow_natCast]
    gcongr
    exact_mod_cast high

/-- Below `10 ^ (-331)` a literal is not worked out; it is less than half of the least double. -/
theorem tiny_lt : (10 : ℚ) ^ (-331 : Int) < 2 ^ (-1075 : Int) := by
  have whole : 2 ^ 1075 < 10 ^ 331 := by decide +kernel
  rw [zpow_neg, zpow_neg, inv_lt_inv₀ (by positivity) (by positivity), zpow_ofNat, zpow_ofNat]
  exact_mod_cast whole

/-- Above `10 ^ 310` a literal is not worked out; it is beyond every double. -/
theorem lt_huge : (2 : ℚ) ^ (1024 : Int) < 10 ^ (310 : Int) := by
  have whole : 2 ^ 1024 < 10 ^ 310 := by decide +kernel
  rw [zpow_ofNat, zpow_ofNat]
  exact_mod_cast whole

/-- In the range of doubles a literal is worked out: neither shortcut is taken. -/
theorem size_of_range (low : (2 : ℚ) ^ (-1075 : Int) ≤ l.value)
    (high : l.value < 2 ^ (1024 : Int)) :
    l.mantissa ≠ 0 ∧ ¬ l.exponent + (Nat.toDigits 10 l.mantissa).length < -330 ∧
      ¬ 310 < l.exponent + (Nat.toDigits 10 l.mantissa).length := by
  have nonzero : l.mantissa ≠ 0 := by
    intro zero
    have positive : (0 : ℚ) < 2 ^ (-1075 : Int) := by positivity
    rw [value, zero, Nat.cast_zero, zero_mul] at low
    exact absurd low (not_le.mpr positive)
  obtain ⟨below, above⟩ := value_bounds (Nat.pos_of_ne_zero nonzero)
  refine ⟨nonzero, fun tiny => ?_, fun huge => ?_⟩
  · have power := zpow_le_zpow_right₀ (by norm_num : (1 : ℚ) ≤ 10) (by omega :
      l.exponent + ((Nat.toDigits 10 l.mantissa).length : Int) ≤ -331)
    exact absurd (low.trans_lt (above.trans_le power)) (not_lt.mpr tiny_lt.le)
  · have power := zpow_le_zpow_right₀ (by norm_num : (1 : ℚ) ≤ 10) (by omega :
      310 ≤ l.exponent + ((Nat.toDigits 10 l.mantissa).length : Int) - 1)
    exact absurd (power.trans_lt (below.trans_lt high)) (not_lt.mpr lt_huge.le)

theorem div_eq_value (l : Literal) :
    ((l.mantissa * Nat.pow 10 l.exponent.toNat : Nat) : ℚ) /
      ((Nat.pow 10 (-l.exponent).toNat : Nat) : ℚ) = l.value := by
  simp only [Nat.pow_eq]
  push_cast
  rw [← zpow_mul_toNat (by norm_num) l.exponent, value]
  field_simp

/-- If the value of `l` rounds to the fraction `b`, then `l` is read as the double of `b`, with the
sign of `l`. -/
theorem toFloat_eq (normal : b.Normal) (pos : 0 < b.magnitude) (h : b.Attracts l.value) :
    let y := Float.ofBits (UInt64.ofNat b.bits)
    l.toFloat = if l.negative then -y else y := by
  intro y
  obtain ⟨low, high⟩ := h.range normal pos
  obtain ⟨nonzero, notTiny, notHuge⟩ := size_of_range low high
  have rounded : nearest (l.mantissa * Nat.pow 10 l.exponent.toNat)
      (Nat.pow 10 (-l.exponent).toNat) = y :=
    nearest_eq (Nat.pow_pos (by decide)) normal pos (l.div_eq_value.symm ▸ h)
  unfold toFloat
  dsimp only
  rw [if_neg (not_or.mpr ⟨nonzero, notTiny⟩), if_neg notHuge, rounded]

/-- A literal of value zero is a zero with its sign. -/
theorem toFloat_eq_zero (zero : l.value = 0) :
    l.toFloat = if l.negative then -(0.0 : Float) else 0.0 := by
  have mantissa : l.mantissa = 0 := by
    have power : (10 : ℚ) ^ l.exponent ≠ 0 := by positivity
    simpa [value, power] using zero
  unfold toFloat
  dsimp only
  rw [if_pos (Or.inl mantissa)]

end Literal

/-- The text of a finite double parses to a literal that is read as the same double, in every style;
negative zero included. -/
theorem parse?_text (s : Style) {x : Float} (finite : (Binary.ofFloat? x).isSome = true) :
    ∃ l, Literal.parse? (s.text x) = some l ∧ l.toFloat = x := by
  obtain ⟨b, hb⟩ := Option.isSome_iff_exists.mp finite
  obtain ⟨normal, -⟩ := normal_of_ofFloat? hb
  have same := eq_signed_ofBits hb
  have text : s.text x = Literal.signed b.negative (s.layout (Decimal.shortest b s.tie)) := by
    unfold Style.text
    rw [hb]
    rfl
  rw [text]
  by_cases zero : b.magnitude = 0
  · have none : Decimal.shortest b s.tie = ⟨0, 0⟩ := if_pos zero
    obtain ⟨l, read, sign, value⟩ :=
      Literal.spells_layout s (d := ⟨0, 0⟩) (fun _ => rfl) b.negative
    refine ⟨l, none ▸ read, ?_⟩
    rw [same, normal.bits_eq_zero zero, Literal.toFloat_eq_zero (by simp [value, Decimal.value]),
      sign]
    rfl
  · have pos : 0 < b.magnitude := Nat.pos_of_ne_zero zero
    obtain ⟨l, read, sign, value⟩ := Literal.spells_layout s
      (fun none => absurd none (Decimal.digits_shortest_ne_zero s.tie pos)) b.negative
    refine ⟨l, read, ?_⟩
    rw [Literal.toFloat_eq normal pos (value ▸ Decimal.attracts_shortest s.tie pos), sign]
    exact same.symm

/-! ### Whole numbers -/

/-- A whole number parses to a literal of exponent zero without a point. -/
theorem parse?_integer (n : Int) :
    Literal.parse? (integer n) = some ⟨decide (n < 0), n.natAbs, 0, true⟩ := by
  have begins := Literal.begins_whole (d := ⟨n.natAbs, 0⟩) (fun _ => rfl)
  have text : integer n = Literal.signed (decide (n < 0)) (Nat.toDigits 10 n.natAbs ++ []) := by
    unfold integer Literal.signed
    simp
  rw [show List.replicate (Int.toNat 0) '0' = [] from rfl, List.append_nil] at begins
  rw [text, Literal.parse?_pointless [] begins stops_nil (Option.some_ne_none _).symm rfl,
    Literal.ofParts, List.append_nil, digitsValue_toDigits]
  rfl

end CellWorld.Number
