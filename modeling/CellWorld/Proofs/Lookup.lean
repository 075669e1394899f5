import Mathlib.Data.List.Nodup
import Std.Data.TreeMap

/-!
# Maps, key by key

* `lookup_insert`, `lookup_erase` — `(m.insert key v)[k]?` and `(m.erase key)[k]?`, by whether
  `key = k`
* `change_absent`, `change_present` — a change under a key that may be there
* `forall_lookup_insert`, `forall_lookup_map` — what is true of everything that is kept
* `foldl_at_key` — a fold that touches one key at a time

The library has the same laws with a comparison in place of an equation. Here they are for orders in
which keys that compare as equal are equal, such as those of `String` and `Cell`.
-/

namespace CellWorld

section Lookup

variable {K V : Type} [Ord K] [DecidableEq K]

theorem lookup_insert [Std.TransOrd K] [Std.LawfulEqOrd K] (m : Std.TreeMap K V) (key k : K)
    (v : V) :
    (m.insert key v)[k]? = if key = k then some v else m[k]? := by
  simp only [Std.TreeMap.getElem?_insert, Std.LawfulEqCmp.compare_eq_iff_eq]

theorem lookup_erase [Std.TransOrd K] [Std.LawfulEqOrd K] (m : Std.TreeMap K V) (key k : K) :
    (m.erase key)[k]? = if key = k then none else m[k]? := by
  simp only [Std.TreeMap.getElem?_erase, Std.LawfulEqCmp.compare_eq_iff_eq]

variable {m : Std.TreeMap K V} {key : K}

/-- Nothing is kept under `key`, so a change there changes nothing. -/
theorem change_absent (h : m[key]? = none) (k : K) (f : V → V) :
    (if key = k then m[k]?.map f else m[k]?) = m[k]? := by
  by_cases hk : key = k
  · rw [if_pos hk, ← hk, h]
    rfl
  · rw [if_neg hk]

/-- Under `key` is `v`, so a change there is seen under `key` alone. -/
theorem change_present {v : V} (h : m[key]? = some v) (k : K) (f : V → V) :
    (if key = k then m[k]?.map f else m[k]?) = if key = k then some (f v) else m[k]? := by
  by_cases hk : key = k
  · rw [if_pos hk, if_pos hk, ← hk, h]
    rfl
  · rw [if_neg hk, if_neg hk]

/-- What is true of everything in `m` is true of everything in `m.insert key new` if it is true of
`new`. -/
theorem forall_lookup_insert [Std.TransOrd K] [Std.LawfulEqOrd K] {Q : K → V → Prop}
    (h : ∀ k v, m[k]? = some v → Q k v) {new : V} (own : Q key new) :
    ∀ k v, (m.insert key new)[k]? = some v → Q k v := by
  intro k v hv
  rw [lookup_insert] at hv
  split at hv
  · next same => exact same ▸ Option.some.inj hv ▸ own
  · exact h k v hv

omit [DecidableEq K] in
/-- What is true of every `f k v` is true of everything in `m.map f`. -/
theorem forall_lookup_map [Std.TransOrd K] [Std.LawfulEqOrd K] {Q : K → V → Prop} {f : K → V → V}
    (h : ∀ k v, m[k]? = some v → Q k (f k v)) :
    ∀ k v, (m.map f)[k]? = some v → Q k v := by
  intro k v hv
  rw [Std.TreeMap.getElem?_map] at hv
  obtain ⟨old, before, rfl⟩ := Option.map_eq_some_iff.mp hv
  exact h k old before

end Lookup

/-- Let `visit s e` change what `get s` keeps under `key e` alone, in a way that `R e` describes.
Then a fold over elements with distinct keys changes what is kept under each of these keys once, by
the element of that key, and leaves all other keys alone. -/
theorem foldl_at_key {S E K V : Type} (get : S → K → V) (key : E → K) (visit : S → E → S)
    (R : E → V → V → Prop) (hit : ∀ s e, R e (get s (key e)) (get (visit s e) (key e)))
    (miss : ∀ s e k, k ≠ key e → get (visit s e) k = get s k) (l : List E)
    (distinct : (l.map key).Nodup) (s : S) :
    (∀ e ∈ l, R e (get s (key e)) (get (l.foldl visit s) (key e))) ∧
      ∀ k, k ∉ l.map key → get (l.foldl visit s) k = get s k := by
  induction l generalizing s with
  | nil => exact ⟨fun e he => absurd he List.not_mem_nil, fun _ _ => rfl⟩
  | cons e l ih =>
    rw [List.map_cons, List.nodup_cons] at distinct
    obtain ⟨inside, outside⟩ := ih distinct.2 (visit s e)
    constructor
    · intro x hx
      rw [List.foldl_cons]
      rcases List.mem_cons.mp hx with rfl | hl
      · rw [outside (key x) distinct.1]
        exact hit s x
      · have hne : key x ≠ key e := by
          intro h
          exact distinct.1 (h ▸ List.mem_map_of_mem hl)
        rw [← miss s e (key x) hne]
        exact inside x hl
    · intro k hk
      rw [List.map_cons, List.mem_cons, not_or] at hk
      rw [List.foldl_cons, outside k hk.2, miss s e k hk.1]

end CellWorld
