import CellWorld.Proofs.Run

/-!
# Runs step by step

A call `ticks clock` asks for several steps; those that it takes are steps like any other.
`Host.singly` takes the calls of a run apart, so that what is said of a history can be said of
single operations.

* `Engine.Stepped.taken` — the readings of the clock at which a call takes its steps
* `Host.unrolled`, `Host.singly` — one operation and a run, with the steps of calls one by one
* `Host.run_singly` — `h.run (h.singly os) = h.run os`
* `Host.of_mem_singly` — an operation of `h.singly os` is no `ticks`, and is in `os` or a step

A call stops after the first step that is not done, so `taken` depends on the host and may be
shorter than `clock`.
-/

namespace CellWorld

variable {σ α : Type} [Angular α]

/-- The readings at which steps are taken, up to and including the first that ends early. -/
def Engine.Stepped.taken (issuer : Option (Issuer σ α)) (dt : Span) :
    List Time → Engine.Stepped σ α → List Time
  | [], _ => []
  | now :: clock, s =>
    if s.ended = .done then now :: taken issuer dt clock (s.again issuer now dt) else []

namespace Host

/-- The single operations of one operation. -/
def unrolled (h : Host σ α) : Operation σ α → List (Operation σ α)
  | .ticks clock =>
    (Engine.Stepped.taken h.issuer h.engine.settings.tickPeriod clock
      ⟨h.engine, h.source, 0, 0, .done⟩).map fun now => .step now h.engine.settings.tickPeriod
  | o => [o]

def singly (h : Host σ α) : List (Operation σ α) → List (Operation σ α)
  | [] => []
  | o :: os => h.unrolled o ++ (h.perform o).singly os

theorem run_append (h : Host σ α) (os os' : List (Operation σ α)) :
    h.run (os ++ os') = (h.run os).run os' := List.foldl_append

/-- The steps that a call takes, as a run. Induction on the clock. -/
theorem run_taken (h : Host σ α) (dt : Span) (clock : List Time) (s : Engine.Stepped σ α) :
    (h.took s).run ((s.taken h.issuer dt clock).map fun now => .step now dt) =
      h.took (s.through h.issuer dt clock) := by
  induction clock generalizing s with
  | nil => rfl
  | cons now clock ih =>
    unfold Engine.Stepped.taken
    by_cases ended : s.ended = .done
    · have once : (h.took s).perform (.step now dt) = h.took (s.again h.issuer now dt) := by
        rw [Engine.Stepped.again, if_pos ended]
        rfl
      rw [if_pos ended, List.map_cons, run_cons, once]
      exact ih _
    · rw [if_neg ended, Engine.Stepped.through_of_ended _ _ _ ended]
      rfl

theorem run_unrolled (h : Host σ α) (o : Operation σ α) : h.run (h.unrolled o) = h.perform o := by
  cases o with
  | ticks clock =>
    exact h.run_taken h.engine.settings.tickPeriod clock ⟨h.engine, h.source, 0, 0, .done⟩
  | _ => rfl

/-- A run comes to the same with its calls taken apart. -/
theorem run_singly (h : Host σ α) (os : List (Operation σ α)) :
    h.run (h.singly os) = h.run os := by
  induction os generalizing h with
  | nil => rfl
  | cons o os ih =>
    rw [singly, run_append, run_unrolled, ih]
    rfl

theorem singly_append (h : Host σ α) (os os' : List (Operation σ α)) :
    h.singly (os ++ os') = h.singly os ++ (h.run os).singly os' := by
  induction os generalizing h with
  | nil => rfl
  | cons o os ih => rw [List.cons_append, singly, singly, ih, List.append_assoc, run_cons]

/-- Only steps are new in `h.singly os`. -/
theorem of_mem_singly {h : Host σ α} {os : List (Operation σ α)} {o : Operation σ α}
    (ho : o ∈ h.singly os) :
    (∀ clock, o ≠ .ticks clock) ∧ (o ∈ os ∨ ∃ now dt, o = .step now dt) := by
  have single {h : Host σ α} {a : Operation σ α} (ha : o ∈ h.unrolled a) :
      (∀ clock, o ≠ .ticks clock) ∧ (o = a ∨ ∃ now dt, o = .step now dt) := by
    unfold unrolled at ha
    split at ha
    · obtain ⟨now, -, rfl⟩ := List.mem_map.mp ha
      exact ⟨nofun, Or.inr ⟨now, _, rfl⟩⟩
    · next other =>
      obtain rfl := List.mem_singleton.mp ha
      exact ⟨other, Or.inl rfl⟩
  induction os generalizing h with
  | nil => exact absurd ho List.not_mem_nil
  | cons a os ih =>
    rcases List.mem_append.mp ho with first | later
    · obtain ⟨plain, rfl | step⟩ := single first
      · exact ⟨plain, Or.inl List.mem_cons_self⟩
      · exact ⟨plain, Or.inr step⟩
    · obtain ⟨plain, old | step⟩ := ih later
      · exact ⟨plain, Or.inl (List.mem_cons_of_mem a old)⟩
      · exact ⟨plain, Or.inr step⟩

end Host

end CellWorld
