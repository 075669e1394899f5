import CellWorld.Proofs.Evaluation
import CellWorld.Proofs.Lag

/-!
# The life of a move to another node

A player that leaves for another node gets a `TransferRecord`. It is written when a token is asked
for, by the answer of the other node, when nobody answers in time, and when the player goes or comes
back.

* `TransferRecord.Coherent` — `error` is given iff `status = .failed`; without a token the status is
  `.failed`; `fromCell ≠ toCell`; `target ≠ localId`
* `TransferRecord.Change localId o id before after` — the five ways in which `o` changes the record
  of `id`: `same`, `completed`, `failed`, `dropped`, `started`
* `Host.record? h id` — the record of the player of `id`
* `Player.coherent_begun`, `Player.change_evaluate`, `Player.not_late_evaluate` — an evaluated
  player
* `Host.change_perform_record`, `Host.coherent_run`, `Host.not_late_step` — single operations, runs,
  and the bound of thirty seconds
* `record_life_cycle` — all of it, after any run
* `unanswered_move` — a record in its last instant, and a nanosecond later

A record that waits is failed by the next step, and by nothing else that takes time: without steps
it may wait for longer. What the grant behind its token does is in `Proofs.Agreement` and
`Proofs.Deadlines`.
-/

namespace CellWorld

variable {σ α : Type}

namespace TransferRecord

/-- What is true of every record of a node. -/
structure Coherent (localId : String) (r : TransferRecord) : Prop where
  error_iff : r.error.isSome ↔ r.status = .failed
  token : r.token = none → r.status = .failed
  border : r.fromCell ≠ r.toCell
  away : r.target ≠ localId

/-- The ways in which an operation changes the record of the player of `id`, each with the
operations that cause it. -/
inductive Change (localId : String) (o : Operation σ α) (id : String) :
    Option TransferRecord → Option TransferRecord → Prop where
  | same (record : Option TransferRecord) : Change localId o id record record
  /-- A move that waits is granted. -/
  | completed (r : TransferRecord) (waiting : r.status = .inProgress)
    (cause : ∃ reply, o = .resolve id reply) :
    Change localId o id (some r) (some { r with status := .completed })
  /-- A move that waits is refused, or has waited for too long. -/
  | failed (r : TransferRecord) (error : String) (waiting : r.status = .inProgress)
    (cause : (∃ reply, o = .resolve id reply) ∨
      ∃ now dt, o = .step now dt ∧ r.startedAt.after Grant.lifetime < now) :
    Change localId o id (some r) (some { r with status := .failed, error := some error })
  | dropped (r : TransferRecord)
    (cause : o = .remove id ∨ ∃ d, o = .receive d ∧ d.id = id) : Change localId o id (some r) none
  /-- A step starts a new move, in the place of none, of one that is over, or of one that has waited
  for too long. -/
  | started (before : Option TransferRecord) (r : TransferRecord) (now : Time) (dt : Span)
    (step : o = .step now dt) (clock : r.startedAt = now) (coherent : r.Coherent localId)
    (free : ∀ old, before = some old →
      old.status ≠ .inProgress ∨ old.startedAt.after Grant.lifetime < now) :
    Change localId o id before (some r)

namespace Change

variable {localId id : String} {o : Operation σ α}

/-- A record that is over is left as it is, or a step has started another one. -/
theorem of_over {r r' : TransferRecord} (h : Change localId o id (some r) (some r'))
    (ended : r.status ≠ .inProgress) :
    r' = r ∨ ∃ now dt, o = .step now dt ∧ r'.startedAt = now := by
  cases h with
  | same => exact Or.inl rfl
  | completed _ waiting cause => exact absurd waiting ended
  | failed _ error waiting cause => exact absurd waiting ended
  | started _ _ now dt step clock coherent free => exact Or.inr ⟨now, dt, step, clock⟩

/-- Every change keeps records coherent. A record in progress has a token and no error so far. -/
theorem coherent {before after : Option TransferRecord} (h : Change localId o id before after)
    (hb : ∀ r, before = some r → r.Coherent localId) :
    ∀ r, after = some r → r.Coherent localId := by
  intro r hr
  cases h with
  | same => exact hb r hr
  | completed old waiting cause =>
    have coherent := hb old rfl
    have sound : old.status ≠ .failed := by rw [waiting]; exact nofun
    rw [← Option.some.inj hr]
    refine ⟨iff_of_false ?_ nofun, ?_, coherent.border, coherent.away⟩
    · exact fun error => sound (coherent.error_iff.mp error)
    · exact fun lost => absurd (coherent.token lost) sound
  | failed old error waiting cause =>
    have coherent := hb old rfl
    rw [← Option.some.inj hr]
    exact ⟨iff_of_true rfl rfl, fun _ => rfl, coherent.border, coherent.away⟩
  | dropped old cause => exact absurd hr.symm (Option.some_ne_none r)
  | started _ new now dt step clock coherent free => exact Option.some.inj hr ▸ coherent

end Change

end TransferRecord

/-! ### A player that is looked at -/

namespace Player

variable [Scalar α] {rules : HandoverRules α} (issuer : Option (Issuer σ α)) (p : Player α)
  (source : σ)

/-- A record begins as coherent: in progress with a token, or failed with the error of the
issuer. -/
theorem coherent_begun {target : Cell} (due : p.due? rules = some target)
    (away : rules.territory.owner target ≠ rules.territory.localId)
    (outcome : Except Fault String) :
    (p.begun (rules.territory.owner target) target rules.now outcome).Coherent
      rules.territory.localId := by
  have border := (ne_ownedCell_of_due due).symm
  cases outcome with
  | ok token => exact ⟨iff_of_false nofun nofun, nofun, border, away⟩
  | error fault => exact ⟨iff_of_true rfl rfl, fun _ => rfl, border, away⟩

variable (rules) in
/-- An evaluation is one of the changes: it fails a stale record, and starts one where none
waits. -/
theorem change_evaluate {o : Operation σ α} {now : Time} {dt : Span} (step : o = .step now dt)
    (clock : rules.now = now) (id : String) :
    TransferRecord.Change rules.territory.localId o id p.transfer
      (p.evaluate rules issuer source).1.player.transfer := by
  have settled : TransferRecord.Change rules.territory.localId o id p.transfer
      (p.transfer.map fun r => r.expire rules.now) := by
    cases p.transfer with
    | none => exact .same none
    | some r =>
      rw [Option.map_some]
      by_cases stale : r.stale rules.now = true
      · obtain ⟨waiting, late⟩ := (r.stale_iff rules.now).mp stale
        rw [r.expire_of_stale rules.now stale]
        exact .failed r _ waiting (Or.inr ⟨now, dt, step, clock ▸ late⟩)
      · rw [r.expire_of_not_stale rules.now (Bool.eq_false_iff.mpr stale)]
        exact .same (some r)
  cases p.looked rules issuer source with
  | stays still after =>
    rw [after]
    exact settled
  | moves target route due unasked after =>
    rw [after]
    exact settled
  | departs target issue due installed away idle after =>
    rw [after]
    refine .started p.transfer _ now dt step ?_ (p.coherent_begun due away _) ?_
    · rw [← clock]
      exact startedAt_begun p _ target rules.now _
    · intro old record
      by_cases stale : old.stale rules.now = true
      · exact Or.inr (clock ▸ ((old.stale_iff rules.now).mp stale).2)
      · have kept : (p.settle rules.now).transfer = some old := by
          rw [settle, record, Option.map_some,
            old.expire_of_not_stale rules.now (Bool.eq_false_iff.mpr stale)]
        refine Or.inl fun waiting => ?_
        have flying := old.inFlight_iff.mpr waiting
        rw [idle old kept] at flying
        exact Bool.false_ne_true flying

omit [Scalar α] in
/-- An answer completes or fails a record in progress, and does nothing to any other. -/
theorem change_answered {localId id : String} {o : Operation σ α} (reply : Reply)
    (asked : o = .resolve id reply) :
    TransferRecord.Change localId o id p.transfer
      (if p.inFlight then { p with transfer := p.transfer.map fun r => r.answered reply }
        else p).transfer := by
  cases hr : p.transfer with
  | none =>
    rw [if_neg (by simp [inFlight, hr]), hr]
    exact .same none
  | some r =>
    by_cases waiting : r.status = .inProgress
    · rw [if_pos (by simp [inFlight, hr, r.inFlight_iff.mpr waiting]), Option.map_some,
        TransferRecord.answered]
      split
      · exact .completed r waiting ⟨reply, asked⟩
      · exact .failed r reply.error waiting (Or.inl ⟨reply, asked⟩)
    · rw [if_neg (by simp [inFlight, hr, r.inFlight_iff, waiting]), hr]
      exact .same (some r)

/-- After an evaluation no record in progress is older than `Grant.lifetime`. -/
theorem not_late_evaluate {r : TransferRecord}
    (hr : (p.evaluate rules issuer source).1.player.transfer = some r)
    (waiting : r.status = .inProgress) : rules.now ≤ r.startedAt.after Grant.lifetime := by
  have settled (hr : (p.settle rules.now).transfer = some r) :
      rules.now ≤ r.startedAt.after Grant.lifetime := by
    obtain ⟨old, -, rfl⟩ := Option.map_eq_some_iff.mp hr
    have fresh := old.not_stale_expire rules.now
    by_contra late
    rw [((old.expire rules.now).stale_iff rules.now).mpr ⟨waiting, Int.not_le.mp late⟩] at fresh
    exact Bool.false_ne_true fresh.symm
  cases p.looked rules issuer source with
  | stays still after =>
    rw [after] at hr
    exact settled hr
  | moves target route due unasked after =>
    rw [after] at hr
    exact settled hr
  | departs target issue due installed away idle after =>
    rw [after] at hr
    rw [← Option.some.inj hr, startedAt_begun]
    exact Int.le_add_of_nonneg_right (Int.natCast_nonneg _)

end Player

/-! ### Operations and runs -/

namespace Host

/-- The record of the player of `id`. -/
def record? (h : Host σ α) (id : String) : Option TransferRecord :=
  h.world.players[id]?.bind Player.transfer

variable [Angular α]

/-- For every operation, `onPlayer` changes the record as `Change` says. -/
theorem change_onPlayer (h : Host σ α) (o : Operation σ α) (source : σ) (id : String)
    (before : Option (Player α)) :
    TransferRecord.Change h.engine.territory.localId o id (before.bind Player.transfer)
      ((o.onPlayer h source id before).bind Player.transfer) := by
  have kept (o : Operation σ α) {after : Option (Player α)}
      (same : after.bind Player.transfer = before.bind Player.transfer) :
      TransferRecord.Change h.engine.territory.localId o id (before.bind Player.transfer)
        (after.bind Player.transfer) := by
    rw [same]
    exact .same _
  have amended (o : Operation σ α) {key : String} {f : Player α → Player α}
      (same : ∀ p, (f p).transfer = p.transfer) :
      TransferRecord.Change h.engine.territory.localId o id (before.bind Player.transfer)
        ((if key = id then before.map f else before).bind Player.transfer) := by
    refine kept o ?_
    split
    · cases before with
      | none => rfl
      | some p => exact same p
    · rfl
  have arrived (o : Operation σ α) (key name : String) (pos vel : Point α) (cell : Cell) :
      TransferRecord.Change h.engine.territory.localId o id (before.bind Player.transfer)
        ((if key = id then some (Player.arrived before key name pos vel cell)
          else before).bind Player.transfer) := by
    refine kept o ?_
    split
    · cases before <;> rfl
    · rfl
  have dropped (o : Operation σ α) {after : Option (Player α)}
      (none : after.bind Player.transfer = none)
      (cause : o = .remove id ∨ ∃ d, o = .receive d ∧ d.id = id) :
      TransferRecord.Change h.engine.territory.localId o id (before.bind Player.transfer)
        (after.bind Player.transfer) := by
    rw [none]
    cases before.bind Player.transfer with
    | none => exact .same _
    | some r => exact .dropped r cause
  cases o with
  | upsert key name pos vel => exact arrived _ key name pos vel _
  | spawn key name pos => exact arrived _ key name pos .zero _
  | remove key =>
    simp only [Operation.onPlayer]
    split
    · next hk => exact dropped _ rfl (Or.inl (hk ▸ rfl))
    · exact .same _
  | setVelocity key vel => exact amended _ (f := fun p => { p with vel }) fun _ => rfl
  | setConnection key connection =>
    exact amended _ (f := fun p => { p with connection }) fun _ => rfl
  | acknowledge key seq => exact amended _ fun p => by split <;> rfl
  | step now dt =>
    cases before with
    | none => exact .same none
    | some p =>
      exact Player.change_evaluate (h.engine.handoverRules now) h.issuer
        (p.integrated dt.seconds) source rfl rfl id
  | receive d =>
    simp only [Operation.onPlayer]
    split
    · next hk => exact dropped _ rfl (Or.inr ⟨d, rfl, hk⟩)
    · exact .same _
  | resolve key reply =>
    simp only [Operation.onPlayer]
    split
    · next hk =>
      subst hk
      cases before with
      | none => exact .same none
      | some p => exact p.change_answered reply rfl
    · exact .same _
  | restore key saved templates => exact amended _ fun p => by split <;> rfl
  | _ => exact .same _

/-- A single operation changes the record of `id` as `Change` says. -/
theorem change_perform_record (h : Host σ α) (o : Operation σ α)
    (single : ∀ clock, o ≠ .ticks clock) (id : String) :
    TransferRecord.Change h.engine.territory.localId o id (h.record? id)
      ((h.perform o).record? id) := by
  obtain ⟨source, after⟩ := players_perform h o single id
  rw [record?, record?, after]
  exact h.change_onPlayer o source id _

def Coherent (h : Host σ α) : Prop :=
  ∀ id r, h.record? id = some r → r.Coherent h.engine.territory.localId

theorem Coherent.perform {h : Host σ α} (hc : h.Coherent) (o : Operation σ α) :
    (h.perform o).Coherent := by
  have single (h : Host σ α) (o : Operation σ α) (ho : ∀ clock, o ≠ .ticks clock)
      (hc : h.Coherent) : (h.perform o).Coherent := by
    intro id r hr
    rw [localId_perform]
    exact (h.change_perform_record o ho id).coherent (hc id) r hr
  cases o with
  | ticks clock => exact ticks_induction h clock hc fun h now dt => single h _ nofun
  | _ => exact single h _ nofun hc

/-- Induction on the operations; `ticks` are steps. -/
theorem coherent_run (settings : Settings α) (chance : Random) (source : σ)
    (os : List (Operation σ α)) : ((create settings chance source).run os).Coherent := by
  refine run_induction os _ ?_ fun h hc o _ => hc.perform o
  exact fun id r hr => absurd hr (by simp [record?])

/-- After a step no record in progress is older than `Grant.lifetime`. -/
theorem not_late_step (h : Host σ α) (now : Time) (dt : Span) {id : String} {r : TransferRecord}
    (hr : (h.perform (.step now dt)).record? id = some r) (waiting : r.status = .inProgress) :
    now ≤ r.startedAt.after Grant.lifetime := by
  obtain ⟨source, after⟩ := h.players_step now dt id
  rw [record?, after] at hr
  obtain ⟨q, hq, record⟩ := Option.bind_eq_some_iff.mp hr
  obtain ⟨p, -, rfl⟩ := Option.map_eq_some_iff.mp hq
  exact Player.not_late_evaluate h.issuer (p.integrated dt.seconds) source record waiting

end Host

/-! ### Records of a run -/

section Whole

variable [Angular α]

/-- After any run from a fresh host, with any clock and any issuer. Every record is coherent. A next
single operation changes the record of each `id` as `TransferRecord.Change` says, and `ticks` does
what its steps do. A record that is over stays as it is until a step starts another one or the
player goes. After a step at `now`, a record in progress has `now ≤ startedAt + 30 s`. -/
theorem record_life_cycle (settings : Settings α) (chance : Random) (source : σ)
    (os : List (Operation σ α)) :
    let h := (Host.create settings chance source).run os
    (∀ id r, h.record? id = some r →
      (r.error.isSome ↔ r.status = .failed) ∧ (r.token = none → r.status = .failed) ∧
        r.fromCell ≠ r.toCell ∧ r.target ≠ h.engine.territory.localId) ∧
    (∀ o, (∀ clock, o ≠ .ticks clock) → ∀ id,
      TransferRecord.Change h.engine.territory.localId o id (h.record? id)
        ((h.perform o).record? id)) ∧
    (∀ clock, ∃ n, h.perform (.ticks clock) =
      h.run ((clock.take n).map fun now => .step now h.engine.settings.tickPeriod)) ∧
    (∀ o, (∀ clock, o ≠ .ticks clock) → ∀ id r r', h.record? id = some r →
      r.status ≠ .inProgress → (h.perform o).record? id = some r' →
        r' = r ∨ ∃ now dt, o = .step now dt ∧ r'.startedAt = now) ∧
    ∀ now dt id r, (h.perform (.step now dt)).record? id = some r → r.status = .inProgress →
      now ≤ r.startedAt.after (.ofSeconds 30) := by
  intro h
  refine ⟨?_, h.change_perform_record, h.ticks_eq_run, ?_, ?_⟩
  · intro id r hr
    have coherent := Host.coherent_run settings chance source os id r hr
    exact ⟨coherent.error_iff, coherent.token, coherent.border, coherent.away⟩
  · intro o single id r r' before ended after
    have change := h.change_perform_record o single id
    rw [before, after] at change
    exact change.of_over ended
  · intro now dt id r hr waiting
    exact h.not_late_step now dt hr waiting

/-- A record that waits at exactly 30 s fails a nanosecond later, and no answer changes it then. -/
theorem unanswered_move :
    let h := (Host.create tenMetres (.ofSeed 1) () : Host Unit ℚ).run
      [.assign ⟨1, 0⟩ "b", .install fun _ _ _ source => (.ok "t", source),
        .upsert "p1" "one" ⟨9, 0, 5⟩ ⟨3, 0, 0⟩, .step ⟨0⟩ (.ofSeconds 1),
        .step ⟨30000000000⟩ (.ofSeconds 0)]
    let late := h.perform (.step ⟨30000000001⟩ (.ofSeconds 0))
    (∃ r, h.record? "p1" = some r ∧ r.status = .inProgress ∧ r.target ≠ "local") ∧
      ∃ r, late.record? "p1" = some r ∧ r.status = .failed ∧ ∀ reply,
        (late.perform (.resolve "p1" reply)).record? "p1" = some r := by
  intro h late
  have waits : (h.record? "p1").map (fun r => r.status) = some .inProgress := by decide +kernel
  have fails : (late.record? "p1").map (fun r => r.status) = some .failed := by decide +kernel
  have here : h.engine.territory.localId = "local" := by decide +kernel
  obtain ⟨r, hr, waiting⟩ := Option.map_eq_some_iff.mp waits
  obtain ⟨r', hr', failed⟩ := Option.map_eq_some_iff.mp fails
  have ended : r'.status ≠ .inProgress := by rw [failed]; exact nofun
  refine ⟨⟨r, hr, waiting, ?_⟩, r', hr', failed, ?_⟩
  · rw [← here]
    exact ((record_life_cycle tenMetres (.ofSeed 1) () _).1 "p1" r hr).2.2.2
  · intro reply
    obtain ⟨-, change, -⟩ := record_life_cycle tenMetres (.ofSeed 1) () ([.assign ⟨1, 0⟩ "b",
      .install fun _ _ _ source => (.ok "t", source), .upsert "p1" "one" ⟨9, 0, 5⟩ ⟨3, 0, 0⟩,
      .step ⟨0⟩ (.ofSeconds 1), .step ⟨30000000000⟩ (.ofSeconds 0),
      .step ⟨30000000001⟩ (.ofSeconds 0)] : List (Operation Unit ℚ))
    have answered := change (.resolve "p1" reply) nofun "p1"
    change TransferRecord.Change _ _ _ (late.record? "p1")
      ((late.perform (.resolve "p1" reply)).record? "p1") at answered
    rw [hr'] at answered
    generalize (late.perform (.resolve "p1" reply)).record? "p1" = after at answered
    cases answered with
    | same => rfl
    | completed _ waiting cause => exact absurd waiting ended
    | failed _ error waiting cause => exact absurd waiting ended
    | dropped _ cause => exact absurd cause (by simp)
    | started _ new now dt step clock coherent free => exact absurd step nofun

end Whole

end CellWorld
