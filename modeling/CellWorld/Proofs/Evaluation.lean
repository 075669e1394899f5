import CellWorld.Proofs.Players

/-!
# Looking at a player

`Player.evaluate` is what a step does to one player. It has three outcomes, and `Looked` lists them
with everything that they change of the player, of the issuer's state and of the event.

* `Player.due?_eq_if` — `due?` is `some (Cell.containing p.pos cellSize)` iff `leftBeyond` holds
  with the margin `marginToward target p.prevCell hysteresis`
* `Player.containing_of_due`, `Player.left_of_due`, `Player.ne_ownedCell_of_due` — what follows from
  `due? = some target`
* `Player.cells_evaluate_of_due`, `Player.cells_evaluate_of_stays` — `(ownedCell, prevCell)`
  afterwards: `(target, some p.ownedCell)`, or as before
* `Player.Unasked` — the three routes for which no token is asked: `onNode`, `fallback`, and a
  `crossNode` whose transfer is in flight
* `Player.looked` — every evaluation is one of `stays`, `moves` and `departs`
* `TransferRecord.stale_iff`, `TransferRecord.expire_of_stale`, `TransferRecord.expire_of_not_stale`
  — a transfer that waits for too long

Nothing here is about a world: `Proofs.Pass` says that the pass evaluates each player once.
-/

namespace CellWorld

variable {σ α : Type}

/-! ### A move that waits -/

namespace TransferRecord

variable (r : TransferRecord) (now : Time)

theorem inFlight_iff : r.inFlight = true ↔ r.status = .inProgress := beq_iff_eq

/-- A transfer is stale iff it is in progress and `startedAt` plus `Grant.lifetime` is before
`now`. -/
theorem stale_iff :
    r.stale now = true ↔ r.status = .inProgress ∧ r.startedAt.after Grant.lifetime < now := by
  have late : r.startedAt.after Grant.lifetime < now ↔
      r.startedAt.nanos + (Grant.lifetime.nanos : Int) < now.nanos := Iff.rfl
  rw [stale, Bool.and_eq_true, inFlight_iff, Time.since?, late]
  by_cases started : r.startedAt ≤ now
  · have order : r.startedAt.nanos ≤ now.nanos := started
    rw [if_pos started, Option.any_some, decide_eq_true_eq]
    refine and_congr_right fun _ => ?_
    dsimp only
    omega
  · have order : ¬ r.startedAt.nanos ≤ now.nanos := started
    rw [if_neg started, Option.any_none]
    refine and_congr_right fun _ => ?_
    simp only [Bool.false_eq_true, false_iff]
    omega

theorem expire_of_stale (h : r.stale now = true) :
    r.expire now = { r with status := .failed, error := some "expired" } := if_pos h

theorem expire_of_not_stale (h : r.stale now = false) : r.expire now = r :=
  if_neg (by rw [h]; exact Bool.false_ne_true)

end TransferRecord

/-! ### One player -/

namespace Player

/-- The player after a change to `target`, with its transfer settled but no new one begun. -/
def moved (p : Player α) (target : Cell) (now : Time) : Player α :=
  { p.settle now with ownedCell := target, prevCell := some p.ownedCell, handedOver := true }

theorem startedAt_begun (p : Player α) (owner : String) (target : Cell) (now : Time)
    (outcome : Except Fault String) : (p.begun owner target now outcome).startedAt = now := by
  cases outcome <;> rfl

/-- The two fields that a change of cells writes. -/
def cells (p : Player α) : Cell × Option Cell := (p.ownedCell, p.prevCell)

/-- The routes of a change of cells for which no token is asked: this node owns the new cell, or
nobody mints tokens, or a move to another node waits for its answer. -/
inductive Unasked (rules : HandoverRules α) (issuer : Option (Issuer σ α)) (p : Player α)
    (target : Cell) : Route → Prop where
  | onNode (owned : rules.territory.owner target = rules.territory.localId) :
    Unasked rules issuer p target .onNode
  | fallback (away : rules.territory.owner target ≠ rules.territory.localId)
    (nobody : issuer = none) :
    Unasked rules issuer p target (.fallback (rules.territory.owner target))
  | waits (away : rules.territory.owner target ≠ rules.territory.localId) (r : TransferRecord)
    (record : (p.settle rules.now).transfer = some r) (waiting : r.inFlight = true) :
    Unasked rules issuer p target (.crossNode (rules.territory.owner target) r.status)

section Due

variable [Scalar α] {rules : HandoverRules α} {p : Player α} {target : Cell}

variable (rules p) in
/-- The unfolded condition of `due?`, with its target named. -/
theorem due?_eq_if :
    let target := Cell.containing p.pos rules.cellSize
    p.due? rules = if leftBeyond p.pos p.ownedCell target rules.cellSize
      (marginToward target p.prevCell rules.hysteresis) then some target else none := by
  intro target
  by_cases same : target = p.ownedCell
  · have stays : leftBeyond p.pos p.ownedCell target rules.cellSize
        (marginToward target p.prevCell rules.hysteresis) = false := by
      rw [same, leftBeyond_self]
    rw [stays]
    exact if_pos same
  · exact if_neg same

/-- The target is the cell of the position. -/
theorem containing_of_due (h : p.due? rules = some target) :
    target = Cell.containing p.pos rules.cellSize := by
  rw [due?_eq_if, Option.ite_none_right_eq_some] at h
  exact (Option.some.inj h.2).symm

/-- The player has left its cell toward the target by `marginToward`: one hysteresis, or two if the
target is `prevCell`. -/
theorem left_of_due (h : p.due? rules = some target) :
    leftBeyond p.pos p.ownedCell target rules.cellSize
      (marginToward target p.prevCell rules.hysteresis) = true := by
  rw [due?_eq_if, Option.ite_none_right_eq_some] at h
  obtain ⟨left, ⟨⟩⟩ := h
  exact left

/-- A player in its own cell is not due, whatever the margin. -/
theorem due?_eq_none_of_containing (h : p.ownedCell = Cell.containing p.pos rules.cellSize) :
    p.due? rules = none := if_pos h.symm

theorem ne_ownedCell_of_due (h : p.due? rules = some target) : target ≠ p.ownedCell := by
  rintro rfl
  rw [due?_eq_none_of_containing (containing_of_due h)] at h
  exact absurd h.symm (Option.some_ne_none _)

/-- The new cell, and the old one as `prevCell`. -/
theorem cells_evaluate_of_due (issuer : Option (Issuer σ α)) (source : σ)
    (h : p.due? rules = some target) :
    (p.evaluate rules issuer source).1.player.cells = (target, some p.ownedCell) := by
  obtain ⟨route, transfer, source', -, after⟩ := evaluate_leaves issuer p source h
  rw [after]
  rfl

/-- If `ownedCell` is the same afterwards, so is `prevCell`: a change of cells never ends where it
starts. -/
theorem cells_evaluate_of_stays {issuer : Option (Issuer σ α)} {source : σ}
    (h : (p.evaluate rules issuer source).1.player.ownedCell = p.ownedCell) :
    (p.evaluate rules issuer source).1.player.cells = p.cells := by
  cases due : p.due? rules with
  | none =>
    rw [evaluate_stays issuer p source due]
    rfl
  | some target =>
    rw [(kept_evaluate rules issuer p source).2, due] at h
    exact absurd h (ne_ownedCell_of_due due)

end Due

section Looked

variable [Scalar α] (rules : HandoverRules α) (issuer : Option (Issuer σ α)) (p : Player α)
  (source : σ)

/-- The outcomes of `evaluate`. `stays`: not due. `moves`: due, no token asked. `departs`: due
toward a cell of another node, with an issuer and no transfer in flight, so that `begun` starts one
with the issuer's outcome. -/
inductive Looked : Prop where
  | stays (still : p.due? rules = none)
    (after : p.evaluate rules issuer source = (⟨p.settle rules.now, none⟩, source))
  | moves (target : Cell) (route : Route) (due : p.due? rules = some target)
    (unasked : p.Unasked rules issuer target route)
    (after : p.evaluate rules issuer source =
      (⟨p.moved target rules.now, some (p.ownedCell, route)⟩, source))
  | departs (target : Cell) (issue : Issuer σ α) (due : p.due? rules = some target)
    (installed : issuer = some issue)
    (away : rules.territory.owner target ≠ rules.territory.localId)
    (idle : ∀ r, (p.settle rules.now).transfer = some r → r.inFlight = false)
    (after :
      let owner := rules.territory.owner target
      let asked := issue p.payload owner target source
      let r := p.begun owner target rules.now asked.1
      p.evaluate rules issuer source =
        (⟨{ p.moved target rules.now with transfer := some r },
          some (p.ownedCell, .crossNode owner r.status)⟩, asked.2))

/-- There is no other outcome. -/
theorem looked : Looked rules issuer p source := by
  cases due : p.due? rules with
  | none => exact .stays due (evaluate_stays issuer p source due)
  | some target =>
    obtain ⟨route, transfer, source', departed, after⟩ := evaluate_leaves issuer p source due
    unfold depart at departed
    dsimp only at departed
    by_cases owned : rules.territory.owner target = rules.territory.localId
    · rw [if_pos owned] at departed
      obtain ⟨rfl, rfl, rfl⟩ : _ ∧ _ ∧ _ := by simpa using departed
      exact .moves target .onNode due (.onNode owned) after
    · rw [if_neg owned] at departed
      cases hi : issuer with
      | none =>
        rw [hi] at departed after
        obtain ⟨rfl, rfl, rfl⟩ : _ ∧ _ ∧ _ := by simpa using departed
        exact .moves target _ due (.fallback owned rfl) after
      | some issue =>
        rw [hi] at departed after
        cases hr : (p.settle rules.now).transfer.filter TransferRecord.inFlight with
        | some r =>
          rw [hr] at departed
          obtain ⟨rfl, rfl, rfl⟩ : _ ∧ _ ∧ _ := by simpa using departed
          obtain ⟨record, waiting⟩ := Option.filter_eq_some_iff.mp hr
          exact .moves target _ due (.waits owned r record waiting) after
        | none =>
          rw [hr] at departed
          obtain ⟨rfl, rfl, rfl⟩ : _ ∧ _ ∧ _ := by simpa using departed
          refine .departs target issue due rfl owned ?_ after
          intro r record
          rw [record, Option.filter_some] at hr
          by_contra waiting
          simp [waiting] at hr

end Looked

end Player

end CellWorld
