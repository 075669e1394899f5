import CellWorld.Proofs.Evaluation
import CellWorld.Proofs.Exact

/-!
# One pass settles everything

A pass looks at every player once. A player that has changed cells is in its owned cell, and one
that has not was not due; a stale transfer has failed, and one that has just begun is not stale. So
a second pass directly after the first finds nothing to do.

* `Player.Settled` — `due? = none`, and no transfer is stale
* `Player.settled_evaluate`, `Player.evaluate_of_settled` — an evaluated player is settled, and
  evaluating a settled player returns it, with no token asked
* `World.Same` — worlds that agree but for the order in which their maps were built
* `World.visitPlayer_of_settled`, `World.evaluate_of_settled` — visiting settled players, one and
  all
* `second_pass_changes_nothing` — for every world and rules, with any issuers in the two passes
* `one_token_for_two_passes` — a player that leaves for another node

Nothing is assumed of the scalars. Both passes have the same `now`; with a later one a transfer may
have become stale.
-/

namespace CellWorld

variable {σ α : Type}

/-- A transfer that started at `now` is not stale at `now`. -/
theorem TransferRecord.not_stale_of_startedAt {r : TransferRecord} {now : Time}
    (start : r.startedAt = now) : r.stale now = false := by
  rw [← Bool.not_eq_true, stale_iff, start]
  rintro ⟨-, late⟩
  have order : now.nanos + (Grant.lifetime.nanos : Int) < now.nanos := late
  omega

/-! ### One player -/

namespace Player

variable [Scalar α]

/-- A pass has nothing to do for the player. -/
structure Settled (rules : HandoverRules α) (p : Player α) : Prop where
  still : p.due? rules = none
  timely : ∀ r, p.transfer = some r → r.stale rules.now = false

variable {rules : HandoverRules α}

/-- Every evaluated player is settled. In the outcomes `moves` and `departs` it is in its owned
cell. -/
theorem settled_evaluate (issuer : Option (Issuer σ α)) (p : Player α) (source : σ) :
    (p.evaluate rules issuer source).1.player.Settled rules := by
  have timely (r : TransferRecord) (hr : (p.settle rules.now).transfer = some r) :
      r.stale rules.now = false := by
    obtain ⟨old, -, rfl⟩ := Option.map_eq_some_iff.mp hr
    exact old.not_stale_expire rules.now
  cases p.looked rules issuer source with
  | stays still after =>
    rw [after]
    exact ⟨still, timely⟩
  | moves target route due unasked after =>
    have inside : target = Cell.containing p.pos rules.cellSize := containing_of_due due
    rw [after]
    exact ⟨due?_eq_none_of_containing inside, timely⟩
  | departs target issue due installed away idle after =>
    have inside : target = Cell.containing p.pos rules.cellSize := containing_of_due due
    rw [after]
    refine ⟨due?_eq_none_of_containing inside, fun r hr => ?_⟩
    rw [← Option.some.inj hr]
    exact TransferRecord.not_stale_of_startedAt (startedAt_begun _ _ _ _ _)

/-- A settled player is returned as it is, and the issuer is not asked. -/
theorem evaluate_of_settled (issuer : Option (Issuer σ α)) {p : Player α} (h : p.Settled rules)
    (source : σ) : p.evaluate rules issuer source = (⟨p, none⟩, source) := by
  have kept : p.settle rules.now = p := by
    unfold settle
    cases hr : p.transfer with
    | none => rw [Option.map_none, ← hr]
    | some r => rw [Option.map_some, r.expire_of_not_stale rules.now (h.timely r hr), ← hr]
  rw [evaluate_stays issuer p source h.still, kept]

end Player

/-! ### All players -/

namespace World

/-- The worlds agree, with players compared as maps. -/
structure Same (w w' : World α) : Prop where
  players : w'.players.Equiv w.players
  rest : w' = { w with players := w'.players }

namespace Same

variable {w w' w'' : World α}

theorem refl (w : World α) : Same w w := ⟨.rfl, rfl⟩

theorem cells (h : Same w w') : w'.cells = w.cells := by rw [h.rest]

theorem events (h : Same w w') : w'.events = w.events := by rw [h.rest]

theorem trans (h : Same w w') (h' : Same w' w'') : Same w w'' where
  players := h'.players.trans h.players
  rest := by rw [h'.rest, h.rest]

end Same

variable [Scalar α] {rules : HandoverRules α} (issuer : Option (Issuer σ α))

/-- Visiting a settled player puts it back, and changes neither source nor count. -/
theorem visitPlayer_of_settled (pass : HandoverPass σ α) (id : String)
    (settled : ∀ p, pass.world.players[id]? = some p → p.Settled rules) :
    let visited := visitPlayer rules issuer pass id
    Same pass.world visited.world ∧ visited.source = pass.source ∧
      visited.committed = pass.committed := by
  intro visited
  cases hp : pass.world.players[id]? with
  | none =>
    have same : visited = pass := by simp only [visited, visitPlayer, hp]
    rw [same]
    exact ⟨.refl _, rfl, rfl⟩
  | some p =>
    have after : visited =
        { pass with world := { pass.world with players := pass.world.players.insert id p } } := by
      simp only [visited, visitPlayer, hp, Player.evaluate_of_settled issuer (settled p hp)]
      rfl
    rw [after]
    refine ⟨⟨.of_forall_constGet?_eq fun k => ?_, rfl⟩, rfl, rfl⟩
    rw [lookup_insert]
    split
    · next own => rw [← own, hp]
    · rfl

/-- Induction on the ids: each visit keeps `Same`, so the rest is settled, too. -/
theorem evaluate_of_settled (w : World α) (source : σ)
    (settled : ∀ (id : String) (p : Player α), w.players[id]? = some p → p.Settled rules) :
    let pass := w.evaluate rules issuer source
    Same w pass.world ∧ pass.source = source ∧ pass.committed = 0 := by
  -- the players are the same at every point of the pass, so they stay settled
  suffices fold : ∀ (ids : List String) (pass : HandoverPass σ α), Same w pass.world →
      let done := ids.foldl (visitPlayer rules issuer) pass
      Same w done.world ∧ done.source = pass.source ∧ done.committed = pass.committed from
    fold w.players.keys ⟨w, source, 0⟩ (.refl w)
  intro ids
  induction ids with
  | nil => exact fun pass same => ⟨same, rfl, rfl⟩
  | cons id ids ih =>
    intro pass same
    obtain ⟨once, asked, counted⟩ := visitPlayer_of_settled issuer pass id fun p hp =>
      settled id p (same.players.getElem?_eq.symm.trans hp)
    obtain ⟨later, asked', counted'⟩ := ih (visitPlayer rules issuer pass id) (same.trans once)
    exact ⟨later, asked'.trans asked, counted'.trans counted⟩

end World

/-! ### The second pass -/

/-- For any world, rules and issuers: after the first pass every player is `Settled`, and the second
pass commits nothing, leaves its source where it was, and keeps players, index, events and all else
of the world. -/
theorem second_pass_changes_nothing [Scalar α] (rules : HandoverRules α)
    (issuer issuer' : Option (Issuer σ α)) (w : World α) (source source' : σ) :
    let first := w.evaluate rules issuer source
    let second := first.world.evaluate rules issuer' source'
    (∀ (id : String) (p : Player α), first.world.players[id]? = some p → p.Settled rules) ∧
      second.committed = 0 ∧
      second.source = source' ∧
      (∀ id : String, second.world.players[id]? = first.world.players[id]?) ∧
      second.world.cells = first.world.cells ∧
      second.world.events = first.world.events ∧
      first.world.Same second.world := by
  intro first second
  have settled (id : String) (p : Player α) (hp : first.world.players[id]? = some p) :
      p.Settled rules := by
    obtain ⟨source'', looked⟩ := World.players_evaluate rules issuer w source id
    obtain ⟨old, -, rfl⟩ := Option.map_eq_some_iff.mp (looked.symm.trans hp)
    exact old.settled_evaluate issuer source''
  obtain ⟨same, asked, counted⟩ := World.evaluate_of_settled issuer' first.world source' settled
  exact ⟨settled, counted, asked, fun id => same.players.getElem?_eq, same.cells, same.events, same⟩

/-- The player changes to a cell of `n2` in the first pass and is minted a token; the second pass
commits nothing and mints none. -/
theorem one_token_for_two_passes :
    let territory := ({ localId := "n1" } : Territory).assign ⟨1, 0⟩ "n2"
    let rules : HandoverRules ℚ := { cellSize := 10, hysteresis := 2, territory, now := ⟨0⟩ }
    let numbers : Issuer Nat ℚ := fun _ _ _ n => (.ok (toString n), n + 1)
    let here := ((World.empty (.ofSeed 1)).upsert "p1" "one" ⟨5, 0, 5⟩ ⟨8, 0, 0⟩ (10 : ℚ)).2
    let first := (here.integrate 1).evaluate rules (some numbers) 0
    let second := first.world.evaluate rules (some numbers) first.source
    (first.committed, first.source) = (1, 1) ∧ (second.committed, second.source) = (0, 1) := by
  intro territory rules numbers here first second
  have once : (first.committed, first.source) = (1, 1) := by decide +kernel
  obtain ⟨-, counted, asked, -⟩ := second_pass_changes_nothing rules (some numbers) (some numbers)
    (here.integrate 1) 0 first.source
  refine ⟨once, Prod.ext counted ?_⟩
  exact asked.trans (congrArg Prod.snd once)

end CellWorld
