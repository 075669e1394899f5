import CellWorld.Proofs.Agreement
import CellWorld.Proofs.Answers
import CellWorld.Proofs.Arrival

/-!
# The two deadlines of a move

A move to another node has a record in the simulation and a token at the gateway, and each lasts for
thirty seconds. The record counts from `started`, the `now` of its step. The token counts from
`clock n`, the reading of the gateway's clock when the `n`-th token is drawn. The program reads the
clock again for each token, so `clock n` may be later than `started`.

* `TransferRecord.failed_expire_iff` — a record in progress fails at `now` iff
  `startedAt + 30 s < now`
* `Issued.DatedBy clock`, `Host.dated_step` — every token of a step has `issuedAt = clock n` and
  `expiresAt = clock n + 30 s` for some `n`
* `Host.Event.departures`, `Host.departures_reached` — no event removes a departure from the books
* `Deadlines.agree_iff` — every failed record has an expired token iff `minted ≤ started`
* `move_and_token_deadlines` — these for every step of every reachable node, and what the record and
  the token do later
* `token_outlives_move` — a run of the program's own `Node.step` and `Node.beat` where
  `clock 0 = started + 1` ns, the record fails, and its token is alive

`move_and_token_deadlines` is about the step that the program runs: its first conjunct is
`after.node = (h.node.step started clock dt).2`, by `Host.node_step`. How far apart the two readings
are is not bounded here, and nothing is assumed of `clock`; it need not even be monotone.
-/

namespace CellWorld

variable {α : Type}

/-! ### A move that is given up -/

/-- A record in progress fails at `now` iff `now` is more than `Grant.lifetime` after its start. -/
theorem TransferRecord.failed_expire_iff {r : TransferRecord} (waiting : r.status = .inProgress)
    (now : Time) : (r.expire now).status = .failed ↔ r.startedAt.after Grant.lifetime < now := by
  by_cases stale : r.stale now = true
  · rw [r.expire_of_stale now stale]
    exact iff_of_true rfl ((r.stale_iff now).mp stale).2
  · rw [r.expire_of_not_stale now (Bool.eq_false_iff.mpr stale), waiting]
    exact iff_of_false nofun fun late => stale ((r.stale_iff now).mpr ⟨waiting, late⟩)

/-! ### The tokens of a step -/

/-- Minted at some reading `clock n`, and lasting for `Grant.lifetime` from then. -/
def Issued.DatedBy (clock : Nat → Time) (d : Issued α) : Prop :=
  ∃ n, d.grant.issuedAt = clock n ∧ d.grant.expiresAt = (clock n).after Grant.lifetime

/-- The departures of `b'` are those of `b` behind new ones that `clock` has dated. -/
def Books.DatedOver (clock : Nat → Time) (b b' : Books α) : Prop :=
  ∃ new, b'.departures = new ++ b.departures ∧ ∀ d ∈ new, d.DatedBy clock

namespace Books

variable {clock : Nat → Time} {b b' b'' : Books α}

theorem DatedOver.refl : b.DatedOver clock b := ⟨[], rfl, nofun⟩

theorem DatedOver.trans (h : b.DatedOver clock b') (h' : b'.DatedOver clock b'') :
    b.DatedOver clock b'' := by
  obtain ⟨new, entered, dated⟩ := h
  obtain ⟨new', entered', dated'⟩ := h'
  refine ⟨new' ++ new, by rw [entered', entered, List.append_assoc], fun d hd => ?_⟩
  rcases List.mem_append.mp hd with late | early
  · exact dated' d late
  · exact dated d early

/-- One departure reads the clock once, for `issuedAt` and `expiresAt` alike. -/
theorem datedOver_depart (b : Books α) (p : Payload α) (target : String) (cell : Cell) (n : Nat) :
    b.DatedOver clock (b.depart p target cell (clock n)).2 := by
  unfold depart
  cases b.ledger.minting p target cell (clock n) with
  | undrawn fault answer grants minted =>
    simp only [gateway, answer]
    exact DatedOver.refl
  | drawn d answer own grants minted =>
    simp only [gateway, answer]
    refine ⟨[d], rfl, List.forall_mem_singleton.mpr ⟨n, ?_, ?_⟩⟩ <;> rw [own] <;> rfl

/-- An evaluation asks for a token at most once. -/
theorem datedOver_evaluate [Scalar α] {rules : HandoverRules α}
    {issuer : Option (Issuer (Books α) α)}
    (installed : issuer = none ∨ issuer = some (Books.issuer clock)) (p : Player α) (b : Books α) :
    b.DatedOver clock (p.evaluate rules issuer b).2 := by
  cases p.looked rules issuer b with
  | stays still after => rw [after]; exact DatedOver.refl
  | moves target route due unasked after => rw [after]; exact DatedOver.refl
  | departs target issue due its away idle after =>
    rw [after]
    rcases installed with nobody | ours
    · exact absurd (nobody.symm.trans its) (Option.some_ne_none issue).symm
    · obtain rfl : issue = Books.issuer clock := Option.some.inj (its.symm.trans ours)
      exact b.datedOver_depart _ _ _ _

end Books

namespace Host

variable [Angular α] {h h' : Host (Books α) α}

theorem dated_step {clock : Nat → Time}
    (installed : h.issuer = none ∨ h.issuer = some (Books.issuer clock)) (now : Time) (dt : Span) :
    h.source.DatedOver clock (h.perform (.step now dt)).source :=
  h.step_induction (P := fun _ b => h.source.DatedOver clock b) now dt Books.DatedOver.refl
    fun _ _ p b _ kept => kept.trans (Books.datedOver_evaluate installed p b)

/-! ### Books that are kept on -/

/-- Every event keeps the list of departures as a suffix. -/
theorem Event.departures (e : Event h h') (hb : h.Booked) :
    h.source.departures <:+ h'.source.departures := by
  have step (h : Host (Books α) α) (now : Time) (dt : Span) (hb : h.Booked) :
      h.source.departures <:+ (h.perform (.step now dt)).source.departures := by
    obtain ⟨clock, installed⟩ :
        ∃ clock, h.issuer = none ∨ h.issuer = some (Books.issuer clock) := by
      rcases hb.installed with nobody | ⟨clock, ours⟩
      · exact ⟨fun _ => now, Or.inl nobody⟩
      · exact ⟨clock, Or.inr ours⟩
    obtain ⟨new, entered, -⟩ := dated_step installed now dt
    exact ⟨new, entered.symm⟩
  have quiet (o : Operation (Books α) α) (own : o.own) (single : ∀ now dt, o ≠ .step now dt)
      (ticks : ∀ clock, o ≠ .ticks clock) :
      h.source.departures <:+ (h.perform o).source.departures := by
    obtain ⟨engine, after⟩ := h.perform_engine o own single ticks
    exact after ▸ List.suffix_rfl
  cases e with
  | operate o own =>
    cases o with
    | step now dt => exact step h now dt hb
    | ticks clock =>
      -- the books are kept on and stay those of the node, from one step of the call to the next
      refine (ticks_induction (P := fun h' => h'.Booked ∧
        h.source.departures <:+ h'.source.departures) h clock ⟨hb, List.suffix_rfl⟩ ?_).2
      exact fun h' now dt kept => ⟨kept.1.step now dt, kept.2.trans (step h' now dt kept.1)⟩
    | _ => exact quiet _ own nofun nofun
  | install clock => exact List.suffix_rfl
  | serve d => exact List.suffix_rfl
  | join r now =>
    exact join_induction (P := fun h' => h.source.departures <:+ h'.source.departures) h r now
      List.suffix_rfl fun _ kept => kept

/-- In every later state the node is `Booked` and the departures are still listed. -/
theorem departures_reached (hb : h.Booked) (later : Relation.ReflTransGen Event h h') :
    h'.Booked ∧ h.source.departures <:+ h'.source.departures := by
  induction later with
  | refl => exact ⟨hb, List.suffix_rfl⟩
  | tail _ event ih => exact ⟨ih.1.event event, ih.2.trans (event.departures ih.1)⟩

end Host

/-! ### Two deadlines -/

/-- The two deadlines of one move: the record fails after `started + 30 s`, the token expires after
`minted + 30 s`. -/
structure Deadlines (r : TransferRecord) (grant : Grant α) (started minted : Time) : Prop where
  failed_iff : ∀ now, (r.expire now).status = .failed ↔ started.after (.ofSeconds 30) < now
  expired_iff : ∀ now, grant.Expired now ↔ minted.after (.ofSeconds 30) < now

namespace Deadlines

variable {r : TransferRecord} {grant : Grant α} {started minted : Time}

/-- The failure of the record implies the expiry of the token at all times iff `minted ≤ started`.
For `started < minted`, `now = minted + 30 s` is between the two. -/
theorem agree_iff (h : Deadlines r grant started minted) :
    (∀ now, (r.expire now).status = .failed → grant.Expired now) ↔ minted ≤ started := by
  simp only [h.failed_iff, h.expired_iff]
  constructor
  · intro agree
    -- the last instant of the token would be one at which it has expired
    by_contra late
    have order : started.nanos < minted.nanos := Int.not_le.mp late
    have last : started.after (.ofSeconds 30) < minted.after (.ofSeconds 30) :=
      Int.add_lt_add_right order _
    exact absurd (agree _ last) (Int.lt_irrefl _)
  · intro order now failed
    exact Int.lt_of_le_of_lt (Int.add_le_add_right order _) failed

end Deadlines

/-! ### Every move of every reachable node -/

section Whole

variable [Angular α]

/-- Let `h` be reachable with `Books.issuer clock` installed, and `after` its step at `started`. The
step is that of the program: `after.node = (h.node.step started clock dt).2`. A record that begins
to wait has a departure in `new`. Each departure `d` of `new` has a record `r` in progress with
`startedAt = started` and `token = d.token`, and some `n` with `d.grant.issuedAt = clock n` and
`Deadlines r d.grant started (clock n)`, so that failure implies expiry iff `clock n ≤ started`. In
every later state with distinct tokens: a grant kept under `d.token` is `d.grant`; no request for
`d.token` is admitted at any time; and while `r` is kept, a step at `now` leaves it iff
`now ≤ started + 30 s`, and otherwise fails it or begins the next move. -/
theorem move_and_token_deadlines {settings : Settings α} {chance : Random} {publicHost : String}
    {port : UInt16} {tokens : TokenSource} {h : Host (Books α) α}
    (reached : Relation.ReflTransGen Host.Event
      (.opened settings chance publicHost port tokens) h)
    {clock : Nat → Time} (installed : h.issuer = some (Books.issuer clock)) (started : Time)
    (dt : Span) :
    let after := h.perform (.step started dt)
    after.node = (h.node.step started clock dt).2 ∧
    ∃ new, after.source.departures = new ++ h.source.departures ∧
      (∀ id r, after.record? id = some r → r.status = .inProgress →
        h.record? id = some r ∨ ∃ d ∈ new, d.grant.player = id ∧ r.token = some d.token) ∧
      ∀ d ∈ new, ∃ r n, after.record? d.grant.player = some r ∧ r.status = .inProgress ∧
        r.startedAt = started ∧ r.token = some d.token ∧ d.grant.issuedAt = clock n ∧
        Deadlines r d.grant started (clock n) ∧
        ((∀ now, (r.expire now).status = .failed → d.grant.Expired now) ↔ clock n ≤ started) ∧
        ∀ later, Relation.ReflTransGen Host.Event after later → later.source.Distinct →
          (∀ grant, later.source.gateway.grants[d.token]? = some grant → grant = d.grant) ∧
          (∀ request now, request.token = d.token →
            later.source.gateway.admits request now = false) ∧
          (later.record? d.grant.player = some r → ∀ now dt,
            ((later.perform (.step now dt)).record? d.grant.player = some r ↔
              now ≤ started.after (.ofSeconds 30)) ∧
            (started.after (.ofSeconds 30) < now →
              (later.perform (.step now dt)).record? d.grant.player = some (r.expire now) ∨
                ∃ next, (later.perform (.step now dt)).record? d.grant.player = some next ∧
                  next.startedAt = now)) := by
  intro after
  have booked : h.Booked := (Host.booked_reached reached).1
  obtain ⟨new, departed⟩ := h.departed_step installed booked.fit.isOf started dt
  obtain ⟨new', entered, dated⟩ := Host.dated_step (Or.inr installed) started dt
  obtain rfl : new = new' := List.append_cancel_right (departed.entered.symm.trans entered)
  refine ⟨h.node_step started clock dt (Or.inr installed), new, entered, ?_, fun d hd => ?_⟩
  · intro id r hr waits
    obtain ⟨p, hp, record⟩ := Option.bind_eq_some_iff.mp hr
    exact departed.waiting id p hp r record waits
  obtain ⟨q, hq, landed⟩ := departed.landed d hd
  obtain ⟨n, issued, expires⟩ := dated d hd
  obtain ⟨r, record, waits, start, token⟩ : ∃ r, q.transfer = some r ∧ r.status = .inProgress ∧
      r.startedAt = started ∧ r.token = some d.token := ⟨_, landed.record, rfl, rfl, rfl⟩
  have known : after.record? d.grant.player = some r :=
    Option.bind_eq_some_iff.mpr ⟨q, hq, record⟩
  have deadlines : Deadlines r d.grant started (clock n) := by
    refine ⟨fun now => ?_, fun now => ?_⟩
    · rw [TransferRecord.failed_expire_iff waits, start]
      rfl
    · rw [Grant.Expired, expires]
      rfl
  refine ⟨r, n, known, waits, start, token, issued, deadlines, deadlines.agree_iff, ?_⟩
  intro later onward distinct
  obtain ⟨kept, more⟩ := Host.departures_reached (booked.step started dt) onward
  have sound : later.source.Sound := kept.fit.sound distinct
  have left : d ∈ later.source.departures :=
    more.subset (entered ▸ List.mem_append_left _ hd)
  refine ⟨sound.stored d left, fun request now shown => ?_, fun still now dt' => ⟨?_, fun late => ?_⟩⟩
  · exact sound.not_admits distinct left shown now
  · have single (clock : List Time) : (.step now dt' : Operation (Books α) α) ≠ .ticks clock := by
      simp
    rw [later.record?_perform_eq_some_iff single still waits, Operation.Ends, start]
    exact Int.not_lt
  · obtain ⟨begun, same⟩ := later.record?_step now dt' d.grant.player
    cases starts : later.begins d.grant.player (.step now dt') with
    | true => exact Or.inr (begun starts).2
    | false => exact Or.inl (by rw [same starts, still, Option.map_some])

/-- With `clock n = started` the two deadlines are the same: the record is kept at exactly 30 s, and
if it has failed, its token has expired. -/
theorem token_and_move_expire_together :
    let tokens : TokenSource := { outcome := fun n => .ok (toString n) }
    let start : Host (Books ℚ) ℚ := .opened tenMetres (.ofSeed 1) "localhost" 80 tokens
    let ready := start.run [.assign ⟨1, 0⟩ "b", .install (Books.issuer fun _ => ⟨0⟩),
      .upsert "p1" "one" ⟨9, 0, 5⟩ ⟨3, 0, 0⟩]
    let after := ready.perform (.step ⟨0⟩ (.ofSeconds 1))
    ∃ d r, after.source.departures = [d] ∧ after.record? "p1" = some r ∧
      (∀ now, (r.expire now).status = .failed → d.grant.Expired now) ∧
      ((after.perform (.step ⟨30000000000⟩ (.ofSeconds 0))).record? "p1" = some r) := by
  intro tokens start ready after
  have reached : Relation.ReflTransGen Host.Event start ready :=
    ((Relation.ReflTransGen.single (.operate _ (.assign ⟨1, 0⟩ "b") rfl)).tail
      (.install _ _)).tail (.operate _ (.upsert "p1" "one" ⟨9, 0, 5⟩ ⟨3, 0, 0⟩) rfl)
  have nobody : ready.source.departures = [] := by decide +kernel
  have left : after.source.departures.map (fun d => d.grant.player) = ["p1"] := by decide +kernel
  have distinct : after.source.Distinct := by
    have minted : after.source.ledger.minted.map Mint.token = ["0"] := by decide +kernel
    rw [Books.Distinct, minted]
    decide
  have installed : ready.issuer = some (Books.issuer fun _ => ⟨0⟩) := rfl
  obtain ⟨-, new, entered, -, moves⟩ :=
    move_and_token_deadlines reached installed ⟨0⟩ (.ofSeconds 1)
  change after.source.departures = new ++ ready.source.departures at entered
  rw [nobody, List.append_nil] at entered
  rw [entered] at left ⊢
  obtain ⟨d, rfl, player⟩ := List.map_eq_singleton_iff.mp left
  obtain ⟨r, n, known, -, -, -, -, -, agree, onward⟩ := moves d List.mem_cons_self
  obtain ⟨-, -, steps⟩ := onward after .refl distinct
  have waits := (steps known ⟨30000000000⟩ (.ofSeconds 0)).1.mpr (Int.le_refl _)
  rw [player] at known waits
  exact ⟨d, r, rfl, known, agree.mpr (Int.le_refl _), waits⟩

/-- A node whose clock moves on by a nanosecond between the beginning of a step and the draw of a
token: at `30000000001` the record with the token `"0"` has failed as expired, and the gateway of
the node, which is shown `"0"` at the same time, finds the token alive and meant for `"b"`. -/
theorem token_outlives_move :
    let tokens : TokenSource := { outcome := fun n => .ok (toString n) }
    let owned : Engine ℚ := (Engine.create tenMetres (.ofSeed 1)).assign ⟨1, 0⟩ "b"
    let n : Node ℚ :=
      { engine := (owned.upsert "p1" "one" ⟨9, 0, 5⟩ ⟨3, 0, 0⟩).2
        gateway := { nodeId := tenMetres.nodeId, port := 80, tokens }
        link := .own }
    let left := (n.step ⟨0⟩ (fun _ => ⟨1⟩) (.ofSeconds 1)).2
    let now : Time := ⟨30000000001⟩
    let passed := (left.step now (fun _ => now) (.ofSeconds 0)).2
    let record? := fun n : Node ℚ => n.engine.world.players["p1"]?.bind Player.transfer
    record? left = some ⟨"b", ⟨0, 0⟩, ⟨1, 0⟩, .inProgress, ⟨0⟩, some "0", none⟩ ∧
      record? passed = some ⟨"b", ⟨0, 0⟩, ⟨1, 0⟩, .failed, ⟨0⟩, some "0", some "expired"⟩ ∧
      (passed.gateway.check "0" now).1 = .error (.wrongNode "b" tenMetres.nodeId) ∧
      ∃ grant, passed.gateway.grants["0"]? = some grant ∧ ¬ grant.Expired now := by
  intro tokens owned n left now passed record?
  have kept : (passed.gateway.grants["0"]?).map (fun grant => (grant.destination, grant.expiresAt)) =
      some ("b", ⟨30000000001⟩) := by decide +kernel
  obtain ⟨grant, found, its⟩ := Option.map_eq_some_iff.mp kept
  obtain ⟨destination, expires⟩ := Prod.mk.inj its
  have alive : ¬ grant.Expired now := by
    rw [Grant.Expired, expires]
    exact Int.lt_irrefl _
  have node : passed.gateway.nodeId = tenMetres.nodeId := by decide +kernel
  have away : grant.destination ≠ passed.gateway.nodeId := by
    rw [destination, node]
    decide
  refine ⟨by decide +kernel, by decide +kernel, ?_, grant, found, alive⟩
  simp only [Gateway.check, found, if_neg alive, if_pos away]
  rw [destination, node]

end Whole

end CellWorld
