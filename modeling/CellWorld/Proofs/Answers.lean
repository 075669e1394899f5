import CellWorld.Proofs.Transfers
import CellWorld.Proofs.Unrolled

/-!
# Which move an answer settles

`resolve id reply` names a player and no token. It is taken for the answer to the move of `id` that
is in flight when it comes, so it settles its own move as long as that one waits.

* `TransferRecord.SameMove` — two records that differ in `status` and `error` at most
* `Player.begins`, `Host.begins`, `Host.begun` — whether an evaluation, or an operation, starts a
  move to another node, and how many moves of `id` start in a run
* `Operation.Ends id r` — the operations after which `r` is no longer in flight: `resolve id`,
  `remove id`, `receive` of `id`, and a step later than `r.startedAt` by more than `Grant.lifetime`
* `Host.record?_step`, `Host.record?_resolve`, `Host.record?_perform_eq_some_iff` — the record of
  `id` after a step, after an answer, and after any operation
* `Host.waits_or_ended` — until an operation ends it, a record stays as it is and `begun id` is `0`
* `answers_settle_what_waits` — the same from the start of any run, with what an answer does then
* `late_answer_settles_next_move`, `answer_in_time_settles_first_move` — an answer that comes after
  its move has ended, and one that comes before

An answer that comes late does settle the next move of its player; `late_answer_settles_next_move`
is the run.
-/

namespace CellWorld

variable {σ α : Type}

namespace TransferRecord

/-- Whether two records are about one move: all fields but `status` and `error` agree. -/
def SameMove (r r' : TransferRecord) : Prop := r' = { r with status := r'.status, error := r'.error }

theorem sameMove_expire (r : TransferRecord) (now : Time) : r.SameMove (r.expire now) := by
  unfold expire
  split <;> rfl

theorem status_answered (r : TransferRecord) (reply : Reply) :
    (r.answered reply).status = if reply.success then .completed else .failed := by
  unfold answered
  split <;> rfl

end TransferRecord

/-! ### The start of a move -/

namespace Player

variable [Scalar α]

/-- Whether `evaluate` starts a move: due toward a cell of another node, with an issuer, and no
transfer in flight. -/
def begins (rules : HandoverRules α) (issuer : Option (Issuer σ α)) (p : Player α) : Bool :=
  match p.due? rules with
  | none => false
  | some target =>
    decide (rules.territory.owner target ≠ rules.territory.localId) && issuer.isSome &&
      !(p.settle rules.now).inFlight

variable (rules : HandoverRules α) (issuer : Option (Issuer σ α)) (p : Player α) (source : σ)

/-- If a move begins, the old record is not in flight once it was expired, and the new one is
`begun`. -/
theorem transfer_of_begins (h : p.begins rules issuer = true) :
    (∀ r, p.transfer = some r → (r.expire rules.now).inFlight = false) ∧
      ∃ owner target outcome, (p.evaluate rules issuer source).1.player.transfer =
        some (p.begun owner target rules.now outcome) := by
  unfold begins at h
  split at h
  · exact absurd h Bool.false_ne_true
  · next target due =>
    simp only [Bool.and_eq_true, decide_eq_true_eq, Bool.not_eq_true'] at h
    obtain ⟨⟨away, somebody⟩, idle⟩ := h
    refine ⟨fun r hr => ?_, ?_⟩
    · simpa [inFlight, settle, hr] using idle
    · cases p.looked rules issuer source with
      | stays still after => exact absurd (due.symm.trans still) (Option.some_ne_none target)
      | moves target' route due' unasked after =>
        obtain rfl := Option.some.inj (due'.symm.trans due)
        cases unasked with
        | onNode owned => exact absurd owned away
        | fallback _ nobody => simp [nobody] at somebody
        | waits _ r record waiting => simp [inFlight, record, waiting] at idle
      | departs target issue due installed away idle after => exact ⟨_, target, _, by rw [after]⟩

/-- If none begins, the transfer is the old one, expired where it is stale. -/
theorem transfer_of_not_begins (h : p.begins rules issuer = false) :
    (p.evaluate rules issuer source).1.player.transfer =
      p.transfer.map fun r => r.expire rules.now := by
  cases p.looked rules issuer source with
  | stays still after => rw [after]; rfl
  | moves target route due unasked after => rw [after]; rfl
  | departs target issue due installed away idle after =>
    have still : (p.settle rules.now).inFlight = false := by
      unfold inFlight
      cases hr : (p.settle rules.now).transfer with
      | none => rfl
      | some r => exact idle r hr
    simp [begins, due, away, installed, still] at h

end Player

/-! ### The end of a move -/

/-- The four ways in which a move of `id` stops waiting. -/
def Operation.Ends (id : String) (r : TransferRecord) : Operation σ α → Prop
  | resolve key _ => key = id
  | remove key => key = id
  | receive d => d.id = id
  | step now _ => r.startedAt.after Grant.lifetime < now
  | _ => False

namespace Host

variable [Angular α]

/-- Whether `o` starts a move of `id`. Only a step does. -/
def begins (h : Host σ α) (id : String) : Operation σ α → Bool
  | .step now dt => (h.world.players[id]?).any fun p =>
    (p.integrated dt.seconds).begins (h.engine.handoverRules now) h.issuer
  | _ => false

/-- The number of moves of `id` that a list of single operations starts. -/
def begun (h : Host σ α) (id : String) : List (Operation σ α) → Nat
  | [] => 0
  | o :: os => (if h.begins id o then 1 else 0) + (h.perform o).begun id os

/-- The record of `id` after a step: a new one with `startedAt = now` where a move begins, and
`expire now` of the old one otherwise. -/
theorem record?_step (h : Host σ α) (now : Time) (dt : Span) (id : String) :
    (h.begins id (.step now dt) = true →
      (∀ r, h.record? id = some r → (r.expire now).inFlight = false) ∧
        ∃ r, (h.perform (.step now dt)).record? id = some r ∧ r.startedAt = now) ∧
    (h.begins id (.step now dt) = false →
      (h.perform (.step now dt)).record? id = (h.record? id).map fun r => r.expire now) := by
  obtain ⟨source, after⟩ := h.players_step now dt id
  unfold record? begins
  rw [after]
  show _ ∧ (_ → (Option.map _ h.world.players[id]?).bind _ = _)
  cases h.world.players[id]? with
  | none => exact ⟨fun starts => absurd starts Bool.false_ne_true, fun _ => rfl⟩
  | some p =>
    let moved := p.integrated dt.seconds
    constructor
    · intro starts
      obtain ⟨idle, owner, target, outcome, record⟩ :=
        moved.transfer_of_begins (h.engine.handoverRules now) h.issuer source starts
      exact ⟨idle, _, record, moved.startedAt_begun owner target now outcome⟩
    · exact moved.transfer_of_not_begins (h.engine.handoverRules now) h.issuer source

/-- An answer changes the record of `key` if it is in flight, and no other. -/
theorem record?_resolve (h : Host σ α) (key : String) (reply : Reply) (id : String) :
    (h.perform (.resolve key reply)).record? id =
      if key = id then
        (h.record? id).map fun r => if r.inFlight then r.answered reply else r
      else h.record? id := by
  obtain ⟨source, after⟩ := h.players_perform (.resolve key reply) nofun id
  rw [record?, after, Operation.onPlayer, record?]
  split
  · cases h.world.players[id]? with
    | none => rfl
    | some p =>
      show (if p.inFlight then { p with transfer := p.transfer.map fun r => r.answered reply }
        else p).transfer = _
      rw [Option.bind_some]
      cases hr : p.transfer with
      | none => simp [Player.inFlight, hr]
      | some r => cases waiting : r.inFlight <;> simp [Player.inFlight, hr, waiting]
  · rfl

omit [Angular α] in
theorem resolves_iff (h : Host σ α) (id : String) (reply : Reply) :
    (h.engine.resolve id reply).1 = true ↔ ∃ r, h.record? id = some r ∧ r.inFlight = true := by
  unfold Engine.resolve record? world
  cases hp : h.engine.world.players[id]? with
  | none => simp
  | some p =>
    cases hr : p.transfer with
    | none => simp [Player.inFlight, hr]
    | some r =>
      cases waiting : r.inFlight <;>
        simp [Player.inFlight, hr, waiting, Engine.attempt, World.amend?, hp]

/-- Where no move begins, a record afterwards is about the same move as the one before. -/
theorem sameMove_of_not_begins (h : Host σ α) {o : Operation σ α}
    (single : ∀ clock, o ≠ .ticks clock) {id : String} (stays : h.begins id o = false)
    {r' : TransferRecord} (after : (h.perform o).record? id = some r') :
    ∃ r, h.record? id = some r ∧ r.SameMove r' := by
  have change := h.change_perform_record o single id
  rw [after] at change
  generalize before : h.record? id = record at change
  cases change with
  | same => exact ⟨r', rfl, rfl⟩
  | completed r waiting cause => exact ⟨r, rfl, rfl⟩
  | failed r error waiting cause => exact ⟨r, rfl, rfl⟩
  | started _ _ now dt step clock coherent free =>
    subst step
    rw [(h.record?_step now dt id).2 stays, before] at after
    obtain ⟨r, rfl, rfl⟩ := Option.map_eq_some_iff.mp after
    exact ⟨r, rfl, r.sameMove_expire now⟩

section Waiting

variable (h : Host σ α) {o : Operation σ α} {id : String} {r : TransferRecord}

/-- While `r` is in flight and `o` does not end it, `o` begins no move of `id`: the guard in
`depart` sees `r`. -/
theorem begins_eq_false (hr : h.record? id = some r) (waiting : r.status = .inProgress)
    (goes : ¬ o.Ends id r) : h.begins id o = false := by
  cases o with
  | step now dt =>
    by_contra starts
    have idle := ((h.record?_step now dt id).1 (eq_true_of_ne_false starts)).1 r hr
    have fresh : r.stale now = false := by
      by_contra stale
      exact goes ((r.stale_iff now).mp (eq_true_of_ne_false stale)).2
    rw [r.expire_of_not_stale now fresh, r.inFlight_iff.mpr waiting] at idle
    exact Bool.false_ne_true idle.symm
  | _ => rfl

/-- The record `r` is unchanged after `o` iff `o` does not end it. -/
theorem record?_perform_eq_some_iff (single : ∀ clock, o ≠ .ticks clock)
    (hr : h.record? id = some r) (waiting : r.status = .inProgress) :
    (h.perform o).record? id = some r ↔ ¬ o.Ends id r := by
  constructor
  · intro after ends
    -- what has become of the record cannot be the record itself
    have other (r' : TransferRecord) (after' : (h.perform o).record? id = some r')
        (ended : r'.status ≠ .inProgress) : False := by
      rw [Option.some.inj (after'.symm.trans after)] at ended
      exact ended waiting
    cases o with
    | resolve key reply =>
      have here : key = id := ends
      refine other (r.answered reply) ?_ ?_
      · rw [record?_resolve, if_pos here, hr, Option.map_some,
          if_pos (r.inFlight_iff.mpr waiting)]
      · rw [r.status_answered reply]
        split <;> exact TransferStatus.noConfusion
    | remove key =>
      have here : key = id := ends
      obtain ⟨source, gone⟩ := h.players_perform (.remove key) nofun id
      rw [record?, gone, Operation.onPlayer, if_pos here] at after
      exact absurd after.symm (Option.some_ne_none r)
    | receive d =>
      have here : d.id = id := ends
      rw [record?, h.players_receive d id, Operation.onPlayer, if_pos here] at after
      exact absurd after.symm (Option.some_ne_none r)
    | step now dt =>
      obtain ⟨started, kept⟩ := h.record?_step now dt id
      cases starts : h.begins id (.step now dt) with
      | true =>
        obtain ⟨-, r', after', clock⟩ := started starts
        obtain rfl := Option.some.inj (after'.symm.trans after)
        have late : r'.startedAt.nanos + Grant.lifetime.nanos < now.nanos := ends
        have same : r'.startedAt.nanos = now.nanos := congrArg Time.nanos clock
        omega
      | false =>
        refine other (r.expire now) ?_ ?_
        · rw [kept starts, hr, Option.map_some]
        · rw [r.expire_of_stale now ((r.stale_iff now).mpr ⟨waiting, ends⟩)]
          exact TransferStatus.noConfusion
    | _ => exact ends
  · intro goes
    have change := h.change_perform_record o single id
    rw [hr] at change
    generalize (h.perform o).record? id = after at change
    cases change with
    | same => rfl
    | completed _ _ cause =>
      obtain ⟨reply, rfl⟩ := cause
      exact absurd rfl goes
    | failed _ error _ cause =>
      rcases cause with ⟨reply, rfl⟩ | ⟨now, dt, rfl, late⟩
      · exact absurd rfl goes
      · exact absurd late goes
    | dropped _ cause =>
      rcases cause with rfl | ⟨d, rfl, here⟩
      · exact absurd rfl goes
      · exact absurd here goes
    | started _ new now dt step clock coherent free =>
      subst step
      rcases free r rfl with ended | late
      · exact absurd waiting ended
      · exact absurd late goes

end Waiting

/-- Induction on the operations with `record?_perform_eq_some_iff` and `begins_eq_false`. -/
theorem waits_or_ended (h : Host σ α) (os : List (Operation σ α))
    (singles : ∀ o ∈ os, ∀ clock, o ≠ .ticks clock) {id : String} {r : TransferRecord}
    (hr : h.record? id = some r) (waiting : r.status = .inProgress) :
    (∃ o ∈ os, o.Ends id r) ∨ ((h.run os).record? id = some r ∧ h.begun id os = 0) := by
  induction os generalizing h with
  | nil => exact Or.inr ⟨hr, rfl⟩
  | cons o os ih =>
    by_cases ends : o.Ends id r
    · exact Or.inl ⟨o, List.mem_cons_self, ends⟩
    · have waits := (h.record?_perform_eq_some_iff (singles o List.mem_cons_self) hr waiting).mpr ends
      rcases ih (h.perform o) (fun o' ho' => singles o' (.tail o ho')) waits with
        ⟨o', ho', ends'⟩ | ⟨later, none⟩
      · exact Or.inl ⟨o', .tail o ho', ends'⟩
      · refine Or.inr ⟨later, ?_⟩
        rw [begun, h.begins_eq_false hr waiting ends, none]
        rfl

end Host

/-! ### Every run -/

section Whole

variable [Angular α]

/-- After any run `h`. First: a single operation either begins a move of `id`, in place of none that
is in flight, with a record whose `startedAt` is the `now` of the step, or leaves a record about the
same move. Second: `resolve key` answers `true` iff the record of `key` is in progress, changes that
record by `answered`, and no other. Third: a record in progress stays as it is exactly under the
operations that do not end it (`Operation.Ends`), and after any further run either one of these
came, or no other move of `id` began and an answer now settles this very record. -/
theorem answers_settle_what_waits (settings : Settings α) (chance : Random) (source : σ)
    (os : List (Operation σ α)) :
    let h := (Host.create settings chance source).run os
    (∀ o, (∀ clock, o ≠ .ticks clock) → ∀ id,
      (h.begins id o = true → (∃ now dt, o = .step now dt ∧
        (∀ r, h.record? id = some r → (r.expire now).status ≠ .inProgress) ∧
        ∃ r, (h.perform o).record? id = some r ∧ r.startedAt = now)) ∧
      (h.begins id o = false → ∀ r', (h.perform o).record? id = some r' →
        ∃ r, h.record? id = some r ∧ r.SameMove r')) ∧
    (∀ key reply, ((h.engine.resolve key reply).1 = true ↔
        ∃ r, h.record? key = some r ∧ r.status = .inProgress) ∧
      ∀ id, (h.perform (.resolve key reply)).record? id =
        if key = id then
          (h.record? id).map fun r => if r.status = .inProgress then r.answered reply else r
        else h.record? id) ∧
    ∀ id r, h.record? id = some r → r.status = .inProgress →
      (∀ o, (∀ clock, o ≠ .ticks clock) →
        ((h.perform o).record? id = some r ↔ ¬ o.Ends id r)) ∧
      ∀ os' : List (Operation σ α), (∃ o ∈ h.singly os', o.Ends id r) ∨
        (h.begun id (h.singly os') = 0 ∧ (h.run os').record? id = some r ∧
          ∀ reply, ((h.run os').perform (.resolve id reply)).record? id =
            some (r.answered reply)) := by
  intro h
  have answer (h : Host σ α) (key : String) (reply : Reply) (id : String) :
      (h.perform (.resolve key reply)).record? id =
        if key = id then
          (h.record? id).map fun r => if r.status = .inProgress then r.answered reply else r
        else h.record? id := by
    simp only [h.record?_resolve key reply id, TransferRecord.inFlight_iff]
  refine ⟨fun o single id => ⟨fun starts => ?_, fun stays r' hr' => ?_⟩, ?_, ?_⟩
  · cases o with
    | step now dt =>
      obtain ⟨idle, started⟩ := (h.record?_step now dt id).1 starts
      refine ⟨now, dt, rfl, fun r hr waiting => ?_, started⟩
      exact Bool.false_ne_true ((idle r hr).symm.trans ((r.expire now).inFlight_iff.mpr waiting))
    | _ => exact absurd starts Bool.false_ne_true
  · exact h.sameMove_of_not_begins single stays hr'
  · intro key reply
    refine ⟨?_, answer h key reply⟩
    simp only [h.resolves_iff key reply, TransferRecord.inFlight_iff]
  · intro id r hr waiting
    refine ⟨fun o single => h.record?_perform_eq_some_iff single hr waiting, fun os' => ?_⟩
    have plain : ∀ o ∈ h.singly os', ∀ clock, o ≠ .ticks clock :=
      fun o ho => (Host.of_mem_singly ho).1
    rcases h.waits_or_ended (h.singly os') plain hr waiting with ended | ⟨waits, none⟩
    · exact Or.inl ended
    · rw [h.run_singly os'] at waits
      refine Or.inr ⟨none, waits, fun reply => ?_⟩
      rw [answer (h.run os'), if_pos rfl, waits, Option.map_some, if_pos waiting]

/-- A node that owns `(0, 0)` and mints `"first"` and `"second"`, with a player walking east through
`(1, 0)` of `"b"` into `(2, 0)` of `"c"`. -/
def eastbound : Host Nat ℚ :=
  (Host.create tenMetres (.ofSeed 1) 0).run
    [.assign ⟨1, 0⟩ "b", .assign ⟨2, 0⟩ "c",
      .install fun _ _ _ n => (.ok (if n = 0 then "first" else "second"), n + 1),
      .upsert "p1" "one" ⟨9, 0, 5⟩ ⟨3, 0, 0⟩]

/-- The first move expires after 31 s and the second one begins; an answer to the first then fails
the second with `"busy"`. -/
theorem late_answer_settles_next_move :
    let first := eastbound.perform (.step ⟨0⟩ (.ofSeconds 1))
    let second := first.perform (.step ⟨31000000000⟩ (.ofSeconds 4))
    let answered := second.perform (.resolve "p1" (.refused "busy"))
    first.record? "p1" = some
        ⟨"b", ⟨0, 0⟩, ⟨1, 0⟩, .inProgress, ⟨0⟩, some "first", none⟩ ∧
      second.record? "p1" = some
        ⟨"c", ⟨1, 0⟩, ⟨2, 0⟩, .inProgress, ⟨31000000000⟩, some "second", none⟩ ∧
      answered.record? "p1" = some
        ⟨"c", ⟨1, 0⟩, ⟨2, 0⟩, .failed, ⟨31000000000⟩, some "second", some "busy"⟩ := by
  decide +kernel

/-- At exactly 30 s the first move still waits, so crossing into `(2, 0)` begins no second one and
the answer settles the first. -/
theorem answer_in_time_settles_first_move :
    let first := eastbound.perform (.step ⟨0⟩ (.ofSeconds 1))
    let later := first.perform (.step ⟨30000000000⟩ (.ofSeconds 4))
    let r : TransferRecord := ⟨"b", ⟨0, 0⟩, ⟨1, 0⟩, .inProgress, ⟨0⟩, some "first", none⟩
    first.record? "p1" = some r ∧ later.record? "p1" = some r ∧
      (later.perform (.resolve "p1" (.refused "busy"))).record? "p1" =
        some { r with status := .failed, error := some "busy" } := by
  intro first later r
  have waits : first.record? "p1" = some r := by decide +kernel
  obtain ⟨-, -, move⟩ := answers_settle_what_waits tenMetres (.ofSeed 1) 0
    ([.assign ⟨1, 0⟩ "b", .assign ⟨2, 0⟩ "c",
      .install fun _ _ _ n => (.ok (if n = 0 then "first" else "second"), n + 1),
      .upsert "p1" "one" ⟨9, 0, 5⟩ ⟨3, 0, 0⟩, .step ⟨0⟩ (.ofSeconds 1)] : List (Operation Nat ℚ))
  obtain ⟨-, onward⟩ := move "p1" r waits rfl
  rcases onward [.step ⟨30000000000⟩ (.ofSeconds 4)] with ⟨o, ho, ends⟩ | ⟨-, there, answers⟩
  · obtain rfl := List.mem_singleton.mp ho
    have late : r.startedAt.after Grant.lifetime < ⟨30000000000⟩ := ends
    exact absurd late (by decide)
  · exact ⟨waits, there, answers (.refused "busy")⟩

end Whole

end CellWorld
