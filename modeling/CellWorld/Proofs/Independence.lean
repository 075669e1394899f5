import CellWorld.Proofs.Evaluation
import CellWorld.Proofs.Events
import CellWorld.Proofs.Lag
import CellWorld.Proofs.Unrolled

/-!
# Players do not influence each other

What becomes of one player depends on the operations that name it, on steps, on who owns which cell
and on who mints tokens. Whatever else is done changes at most the text of the player's token.

* `Player.untokened` — the player with every token replaced by `""`
* `Issuer.Steady I id issue` — as long as the state of the issuer satisfies `I`, whether `id` gets a
  token does not depend on it
* `Operation.concerns id` — the operations that name `id`, and `step`, `ticks`, `register`,
  `unregister`, `assign`, `install`
* `Host.Fair I id` — the player is kept under its id, `I` holds of the source, and the issuer is
  steady
* `Host.Agrees id h h'` — cell size, hysteresis, territory, issuer and `untokened` player agree
* `Host.agrees_purged` — `h.run os` agrees with `h'.run (os.filter (concerns id))`
* `players_independent` — two runs from different hosts with equal filtered operations
* `Gateway.steady_issuer` — the issuer of a gateway is steady, with `I` that every draw succeeds

Faults of the token source do matter to a player and are excluded by `I`; so does the time of a
step, which is part of `step`.
-/

namespace CellWorld

variable {σ α : Type}

/-! ### The text of tokens -/

/-- A record whose token, if it has one, is replaced by `""`. -/
def TransferRecord.untokened (r : TransferRecord) : TransferRecord :=
  { r with token := r.token.map fun _ => "" }

def Player.untokened (p : Player α) : Player α :=
  { p with transfer := p.transfer.map TransferRecord.untokened }

namespace TransferRecord

variable (r : TransferRecord)

theorem untokened_untokened : r.untokened.untokened = r.untokened := by
  unfold untokened
  rw [Option.map_map]
  rfl

theorem untokened_expire (now : Time) : r.untokened.expire now = (r.expire now).untokened := by
  have stale : r.untokened.stale now = r.stale now := rfl
  unfold expire
  rw [stale]
  split <;> rfl

theorem untokened_answered (reply : Reply) :
    r.untokened.answered reply = (r.answered reply).untokened := by
  unfold answered
  split <;> rfl

end TransferRecord

namespace Player

variable (p : Player α)

theorem untokened_untokened : p.untokened.untokened = p.untokened := by
  unfold untokened
  rw [Option.map_map]
  exact congrArg (fun f => { p with transfer := p.transfer.map f })
    (funext TransferRecord.untokened_untokened)

theorem untokened_settle (now : Time) : p.untokened.settle now = (p.settle now).untokened := by
  unfold settle untokened
  rw [Option.map_map, Option.map_map]
  exact congrArg (fun f => { p with transfer := p.transfer.map f })
    (funext fun r => r.untokened_expire now)

theorem inFlight_untokened : p.untokened.inFlight = p.inFlight := by
  unfold inFlight untokened
  rw [Option.any_map]
  rfl

/-- The text of the token is not read by `answered`. -/
theorem untokened_answered (reply : Reply) :
    { p.untokened with transfer := p.untokened.transfer.map fun r => r.answered reply } =
      ({ p with transfer := p.transfer.map fun r => r.answered reply } : Player α).untokened := by
  unfold untokened
  rw [Option.map_map, Option.map_map]
  exact congrArg (fun f => { p with transfer := p.transfer.map f })
    (funext fun r => r.untokened_answered reply)

section Arrival

variable [Scalar α]

theorem untokened_arrived (before : Option (Player α)) (id name : String) (pos vel : Point α)
    (cell : Cell) :
    arrived (before.map untokened) id name pos vel cell =
      (arrived before id name pos vel cell).untokened := by
  cases before <;> rfl

theorem untokened_received (before : Option (Player α)) (d : Payload α) (cell : Cell) :
    received (before.map untokened) d cell = (received before d cell).untokened := by
  cases before <;> rfl

end Arrival

/-- Of the outcome of minting, the record of a new move keeps the text alone. -/
theorem untokened_begun (owner : String) (target : Cell) (now : Time)
    {outcome outcome' : Except Fault String}
    (same : outcome.map (fun _ => "") = outcome'.map fun _ => "") :
    (p.untokened.begun owner target now outcome').untokened =
      (p.begun owner target now outcome).untokened := by
  cases outcome with
  | ok token =>
    cases outcome' with
    | ok token' => rfl
    | error fault => exact absurd same nofun
  | error fault =>
    cases outcome' with
    | ok token' => exact absurd same nofun
    | error fault' =>
      have fault_eq : fault = fault' := Except.error.inj same
      rw [fault_eq]
      rfl

end Player

/-! ### Tokens for one player -/

/-- An issuer is steady for `id` under `I` if minting keeps `I`, and if under `I` the outcomes for
`id` agree up to the text of the token. -/
structure Issuer.Steady (I : σ → Prop) (id : String) (issue : Issuer σ α) : Prop where
  keeps : ∀ p target cell source, I source → I (issue p target cell source).2
  same : ∀ p target cell source source', p.id = id → I source → I source' →
    (issue p target cell source).1.map (fun _ => "") =
      (issue p target cell source').1.map fun _ => ""

section Looking

variable {I : σ → Prop} {id : String} {issuer : Option (Issuer σ α)}
  (steady : ∀ issue, issuer = some issue → issue.Steady I id)

include steady

/-- The transfer after `depart` is the same up to the text of the token, from any two sources within
`I`. -/
theorem Player.untokened_depart (rules : HandoverRules α) (p : Player α) (own : p.id = id)
    (target : Cell) {source source' : σ} (within : I source) (within' : I source') :
    (p.untokened.depart rules issuer target source').2.1.map TransferRecord.untokened =
      (p.depart rules issuer target source).2.1.map TransferRecord.untokened := by
  have blank : p.untokened.transfer.map TransferRecord.untokened =
      p.transfer.map TransferRecord.untokened := congrArg Player.transfer p.untokened_untokened
  unfold depart
  dsimp only
  by_cases owned : rules.territory.owner target = rules.territory.localId
  · rw [if_pos owned, if_pos owned]
    exact blank
  · rw [if_neg owned, if_neg owned]
    cases issuer with
    | none => exact blank
    | some issue =>
      have waiting : p.untokened.transfer.filter TransferRecord.inFlight =
          (p.transfer.filter TransferRecord.inFlight).map TransferRecord.untokened := by
        unfold untokened
        cases p.transfer with
        | none => rfl
        | some r =>
          rw [Option.map_some, Option.filter_some, Option.filter_some]
          show (if r.inFlight then _ else _) = _
          split <;> rfl
      rw [waiting]
      cases p.transfer.filter TransferRecord.inFlight with
      | some r => exact blank
      | none =>
        have same := (steady issue rfl).same p.payload (rules.territory.owner target) target source
          source' own within within'
        exact congrArg some (p.untokened_begun _ _ _ same)

variable [Scalar α]

/-- An evaluation keeps `I`. -/
theorem Player.within_evaluate (rules : HandoverRules α) (p : Player α) {source : σ}
    (within : I source) : I (p.evaluate rules issuer source).2 := by
  cases p.looked rules issuer source with
  | stays still after =>
    rw [after]
    exact within
  | moves target route due unasked after =>
    rw [after]
    exact within
  | departs target issue due installed away idle after =>
    rw [after]
    exact (steady issue installed).keeps _ _ _ _ within

/-- The player after `evaluate` is the same up to the text of the token, from any two sources within
`I`. -/
theorem Player.untokened_evaluate (rules : HandoverRules α) (p : Player α) (own : p.id = id)
    {source source' : σ} (within : I source) (within' : I source') :
    (p.untokened.evaluate rules issuer source').1.player.untokened =
      (p.evaluate rules issuer source).1.player.untokened := by
  cases due : p.due? rules with
  | none =>
    have due' : p.untokened.due? rules = none := due
    rw [evaluate_stays issuer _ source due, evaluate_stays issuer _ source' due', untokened_settle,
      untokened_untokened]
  | some target =>
    have due' : p.untokened.due? rules = some target := due
    obtain ⟨route, transfer, after, departed, looked⟩ := evaluate_leaves issuer p source due
    obtain ⟨route', transfer', after', departed', looked'⟩ :=
      evaluate_leaves issuer p.untokened source' due'
    have same := untokened_depart steady rules (p.settle rules.now) own target within within'
    rw [← untokened_settle, departed, departed'] at same
    rw [looked, looked', untokened_settle]
    exact congrArg (fun transfer => { p with
      ownedCell := target, prevCell := some p.ownedCell, handedOver := true, transfer }) same

/-- As `World.players_evaluate`, with a source that satisfies `I`. -/
theorem World.players_evaluate_within (rules : HandoverRules α) (w : World α) {source : σ}
    (within : I source) (k : String) :
    ∃ source', I source' ∧ (w.evaluate rules issuer source).world.players[k]? =
      w.players[k]?.map fun p => (p.evaluate rules issuer source').1.player := by
  -- the same pass with the minting confined to what is not ruled out
  let confined : Option (Issuer { source // I source } α) := issuer.attach.map fun issue p target
    cell source => ((issue.1 p target cell source.1).1, ⟨_, (steady issue.1 issue.2).keeps p target
      cell source.1 source.2⟩)
  have alike : Issuer.Alike Subtype.val confined issuer := by
    cases issuer with
    | none => exact .nobody
    | some issue => exact .both _ _ fun _ _ _ _ => rfl
  obtain ⟨source', looked⟩ := players_evaluate rules confined w ⟨source, within⟩ k
  refine ⟨source'.1, source'.2, ?_⟩
  have pass := evaluate_alike alike rules w ⟨source, within⟩
  rw [pass, looked]
  refine congrArg (Option.map · _) (funext fun p => ?_)
  rw [Player.evaluate_alike alike]

end Looking

/-! ### What matters to a player -/

namespace Operation

/-- The operations that matter to the player of `id`. Reads, drains, density passes and everything
about other players do not. -/
def concerns (id : String) : Operation σ α → Bool
  | upsert key _ _ _ => key == id
  | spawn key _ _ => key == id
  | remove key => key == id
  | setVelocity key _ => key == id
  | setConnection key _ => key == id
  | acknowledge key _ => key == id
  | receive payload => payload.id == id
  | resolve key _ => key == id
  | restore key _ _ => key == id
  | step _ _ | ticks _ => true
  | register _ | unregister _ | assign _ _ => true
  | install _ => true
  | maintainDensity | interest _ _ _ | snapshot | drain | outside _ => false

/-- What is asked of an operation: it installs a steady issuer, and leaves the source within `I`. -/
def Fair (I : σ → Prop) (id : String) : Operation σ α → Prop
  | install issue => issue.Steady I id
  | outside source => I source
  | _ => True

end Operation

namespace Host

/-- What is asked of a host. -/
structure Fair (I : σ → Prop) (id : String) (h : Host σ α) : Prop where
  own : ∀ p, h.world.players[id]? = some p → p.IsOf id
  within : I h.source
  steady : ∀ issue, h.issuer = some issue → issue.Steady I id

/-- What two hosts have in common as far as the player of `id` is concerned. -/
structure Agrees (id : String) (h h' : Host σ α) : Prop where
  cellSize : h.engine.settings.cellSize = h'.engine.settings.cellSize
  hysteresis : h.engine.settings.hysteresis = h'.engine.settings.hysteresis
  territory : h.engine.territory = h'.engine.territory
  issuer : h.issuer = h'.issuer
  player : h.world.players[id]?.map Player.untokened = h'.world.players[id]?.map Player.untokened

namespace Agrees

variable {id : String} {h h' h'' : Host σ α}

theorem refl (id : String) (h : Host σ α) : Agrees id h h := ⟨rfl, rfl, rfl, rfl, rfl⟩

theorem symm (a : Agrees id h h') : Agrees id h' h :=
  ⟨a.cellSize.symm, a.hysteresis.symm, a.territory.symm, a.issuer.symm, a.player.symm⟩

theorem trans (a : Agrees id h h') (b : Agrees id h' h'') : Agrees id h h'' :=
  ⟨a.cellSize.trans b.cellSize, a.hysteresis.trans b.hysteresis, a.territory.trans b.territory,
    a.issuer.trans b.issuer, a.player.trans b.player⟩

end Agrees

variable [Angular α] {I : σ → Prop} {id : String}

/-! ### What single operations do to what is asked -/

theorem issuer_perform (h : Host σ α) (o : Operation σ α) :
    (h.perform o).issuer = match o with
      | .install issue => some issue
      | _ => h.issuer := by
  cases o with
  | restore key saved templates =>
    simp only [perform]
    split <;> rfl
  | _ => rfl

theorem within_perform {h : Host σ α} (fair : Fair I id h) (o : Operation σ α)
    (ticks : ∀ clock, o ≠ .ticks clock) (ho : o.Fair I id) : I (h.perform o).source := by
  cases o with
  | step now dt =>
    exact step_induction (P := fun _ source => I source) h now dt fair.within
      fun _ _ p _ _ within => p.within_evaluate fair.steady _ within
  | ticks clock => exact absurd rfl (ticks clock)
  | outside source => exact ho
  | restore key saved templates =>
    simp only [perform]
    split <;> exact fair.within
  | _ => exact fair.within

/-- A fair operation keeps `Fair`. -/
theorem Fair.perform {h : Host σ α} (fair : Fair I id h) (o : Operation σ α)
    (ticks : ∀ clock, o ≠ .ticks clock) (ho : o.Fair I id) : Fair I id (h.perform o) where
  own p hp := by
    obtain ⟨source, after⟩ := h.players_perform o ticks id
    exact isOf_onPlayer h o source id _ p fair.own (after.symm.trans hp)
  within := within_perform fair o ticks ho
  steady issue installed := by
    rw [issuer_perform] at installed
    cases o with
    | install issue' => exact Option.some.inj installed ▸ ho
    | _ => exact fair.steady issue installed

/-! ### What single operations do to what two hosts have in common -/

/-- As `Host.players_perform`, with a source that satisfies `I`. -/
theorem players_perform_within {h : Host σ α} (fair : Fair I id h) (o : Operation σ α)
    (ticks : ∀ clock, o ≠ .ticks clock) :
    ∃ source, I source ∧
      (h.perform o).world.players[id]? = o.onPlayer h source id h.world.players[id]? := by
  cases o with
  | step now dt =>
    let moved := { h.engine.world with tick := h.engine.world.tick + 1 }.integrate (dt.seconds : α)
    obtain ⟨source, within, looked⟩ :=
      World.players_evaluate_within fair.steady (h.engine.handoverRules now) moved fair.within id
    refine ⟨source, within, ?_⟩
    rw [(h.step_pass now dt).1, looked, World.players_integrate, Option.map_map]
    rfl
  | ticks clock => exact absurd rfl (ticks clock)
  | _ =>
    -- all others leave the minting alone
    obtain ⟨source, after⟩ := h.players_perform _ ticks id
    exact ⟨h.source, fair.within, after⟩

theorem territory_perform (h : Host σ α) (o : Operation σ α) (quiet : o.isRegistry = false) :
    (h.perform o).engine.territory = h.engine.territory :=
  h.frame_quiet Engine.territory (fun _ _ _ _ => rfl) o quiet

/-- An operation that does not concern `id` leaves a host that agrees. -/
theorem agrees_other (h : Host σ α) (o : Operation σ α) (other : o.concerns id = false) :
    Agrees id (h.perform o) h := by
  have elsewhere {key : String} (hk : (key == id) = false) : key ≠ id := ne_of_beq_false hk
  have ticks (clock : List Time) : o ≠ .ticks clock := by
    rintro rfl
    exact Bool.noConfusion other
  obtain ⟨source, after⟩ := h.players_perform o ticks id
  have settings : (h.perform o).engine.settings = h.engine.settings := h.settings_perform o
  refine ⟨congrArg Settings.cellSize settings, congrArg Settings.hysteresis settings, ?_, ?_, ?_⟩
  · refine h.territory_perform o ?_
    cases o with
    | register info => exact other
    | unregister key => exact other
    | assign cell key => exact other
    | _ => rfl
  · rw [issuer_perform]
    cases o with
    | install issue => exact absurd other Bool.noConfusion
    | _ => rfl
  · refine (congrArg (Option.map Player.untokened) (after.trans ?_))
    cases o with
    | step now dt => exact absurd other Bool.noConfusion
    | ticks clock => exact absurd rfl (ticks clock)
    | upsert key name pos vel => exact if_neg (elsewhere other)
    | spawn key name pos => exact if_neg (elsewhere other)
    | remove key => exact if_neg (elsewhere other)
    | setVelocity key vel => exact if_neg (elsewhere other)
    | setConnection key connection => exact if_neg (elsewhere other)
    | acknowledge key seq => exact if_neg (elsewhere other)
    | receive payload => exact if_neg (elsewhere other)
    | resolve key reply => exact if_neg (elsewhere other)
    | restore key saved templates => exact if_neg (elsewhere other)
    | _ => rfl

/-- On agreeing hosts `onPlayer` agrees up to the text of the token. The cases are the
operations. -/
theorem untokened_onPlayer {h h' : Host σ α} (agrees : Agrees id h h')
    (steady : ∀ issue, h.issuer = some issue → issue.Steady I id) (o : Operation σ α)
    {source source' : σ} (within : I source) (within' : I source') (before : Option (Player α))
    (own : ∀ p, before = some p → p.IsOf id) :
    (o.onPlayer h' source' id (before.map Player.untokened)).map Player.untokened =
      (o.onPlayer h source id before).map Player.untokened := by
  have blank : (before.map Player.untokened).map Player.untokened =
      before.map Player.untokened := by
    rw [Option.map_map]
    exact congrArg (before.map ·) (funext Player.untokened_untokened)
  have amended (key : String) {f : Player α → Player α}
      (same : ∀ p, f p.untokened = (f p).untokened) :
      (if key = id then (before.map Player.untokened).map f else before.map Player.untokened).map
          Player.untokened =
        (if key = id then before.map f else before).map Player.untokened := by
    split
    · rw [Option.map_map, Option.map_map, Option.map_map]
      refine congrArg (before.map ·) (funext fun p => ?_)
      show (f p.untokened).untokened = (f p).untokened
      rw [same, Player.untokened_untokened]
    · exact blank
  have came (key : String) {p q : Player α} (same : p = q.untokened) :
      (if key = id then some p else before.map Player.untokened).map Player.untokened =
        (if key = id then some q else before).map Player.untokened := by
    split
    · rw [same]
      exact congrArg some q.untokened_untokened
    · exact blank
  have size := agrees.cellSize
  cases o with
  | upsert key name pos vel =>
    unfold Operation.onPlayer
    rw [size]
    exact came key (Player.untokened_arrived before key name pos vel _)
  | spawn key name pos =>
    unfold Operation.onPlayer
    rw [size]
    exact came key (Player.untokened_arrived before key name pos .zero _)
  | receive d =>
    unfold Operation.onPlayer
    rw [size]
    exact came d.id (Player.untokened_received before d _)
  | remove key =>
    show (if key = id then none else _).map _ = (if key = id then none else _).map _
    split
    · rfl
    · exact blank
  | setVelocity key vel => exact amended key (f := fun p => { p with vel }) fun _ => rfl
  | setConnection key connection =>
    exact amended key (f := fun p => { p with connection }) fun _ => rfl
  | acknowledge key seq =>
    refine amended key fun p => ?_
    show (if p.lastSeq < seq then _ else _) = _
    split <;> rfl
  | resolve key reply =>
    refine amended key fun p => ?_
    rw [p.inFlight_untokened]
    split
    · exact p.untokened_answered reply
    · rfl
  | restore key saved templates =>
    unfold Operation.onPlayer
    rw [size]
    refine amended key fun p => ?_
    cases saved.loadout? templates <;> rfl
  | step now dt =>
    have rules : h'.engine.handoverRules now = h.engine.handoverRules now := by
      unfold Engine.handoverRules
      rw [agrees.cellSize, agrees.hysteresis, agrees.territory]
    simp only [Operation.onPlayer, rules, ← agrees.issuer]
    cases hb : before with
    | none => rfl
    | some p =>
      exact congrArg some (Player.untokened_evaluate steady _ (p.integrated dt.seconds) (own p hb).1
        within within')
  | _ => exact blank

/-- An operation that is performed on both sides keeps `Agrees`. -/
theorem agrees_perform {h h' : Host σ α} (agrees : Agrees id h h') (fair : Fair I id h)
    (fair' : Fair I id h') (o : Operation σ α) (ticks : ∀ clock, o ≠ .ticks clock) :
    Agrees id (h.perform o) (h'.perform o) := by
  obtain ⟨source, within, after⟩ := players_perform_within fair o ticks
  obtain ⟨source', within', after'⟩ := players_perform_within fair' o ticks
  have settings : (h.perform o).engine.settings = h.engine.settings := h.settings_perform o
  have settings' : (h'.perform o).engine.settings = h'.engine.settings := h'.settings_perform o
  refine ⟨?_, ?_, ?_, ?_, ?_⟩
  · rw [settings, settings', agrees.cellSize]
  · rw [settings, settings', agrees.hysteresis]
  · cases o with
    | register info => exact congrArg (Territory.register · info) agrees.territory
    | unregister key => exact congrArg (fun t => (t.unregister key).1) agrees.territory
    | assign cell key => exact congrArg (Territory.assign · cell key) agrees.territory
    | _ =>
      exact (h.territory_perform _ rfl).trans
        (agrees.territory.trans (h'.territory_perform _ rfl).symm)
  · rw [issuer_perform, issuer_perform, agrees.issuer]
  · rw [after, after', ← untokened_onPlayer agrees fair.steady o within within' _ fair.own,
      agrees.player]
    exact untokened_onPlayer (.refl id h') fair'.steady o within' within' _ fair'.own

/-! ### Runs -/

/-- Induction on the operations: one that concerns `id` is performed on both sides, any other on the
left alone. -/
theorem agrees_purged {h h' : Host σ α} (agrees : Agrees id h h') (fair : Fair I id h)
    (fair' : Fair I id h') (os : List (Operation σ α))
    (single : ∀ o ∈ os, ∀ clock, o ≠ .ticks clock) (steady : ∀ o ∈ os, o.Fair I id) :
    Agrees id (h.run os) (h'.run (os.filter (Operation.concerns id))) := by
  induction os generalizing h h' with
  | nil => exact agrees
  | cons o os ih =>
    have ticks := single o List.mem_cons_self
    have ho := steady o List.mem_cons_self
    have rest (o' : Operation σ α) (ho' : o' ∈ os) := single o' (List.mem_cons_of_mem o ho')
    have later (o' : Operation σ α) (ho' : o' ∈ os) := steady o' (List.mem_cons_of_mem o ho')
    by_cases own : o.concerns id = true
    · rw [List.filter_cons_of_pos own, run_cons, run_cons]
      exact ih (agrees_perform agrees fair fair' o ticks) (fair.perform o ticks ho)
        (fair'.perform o ticks ho) rest later
    · rw [List.filter_cons_of_neg own, run_cons]
      exact ih ((h.agrees_other o (eq_false_of_ne_true own)).trans agrees)
        (fair.perform o ticks ho) fair' rest later

theorem fair_singly {h : Host σ α} {os : List (Operation σ α)} (steady : ∀ o ∈ os, o.Fair I id) :
    ∀ o ∈ h.singly os, o.Fair I id := by
  intro o ho
  rcases (of_mem_singly ho).2 with old | ⟨now, dt, rfl⟩
  · exact steady o old
  · exact trivial

/-- A fresh host is fair as soon as its source satisfies `I`. -/
theorem fair_create (settings : Settings α) (chance : Random) {source : σ} (within : I source) :
    Fair I id (create settings chance source) where
  own p hp := absurd hp (by simp)
  within := within
  steady issue installed := absurd installed nofun

end Host

/-- The draws of a gateway are numbered, so if every outcome is a token, every player gets one. The
clock does not matter. -/
theorem Gateway.steady_issuer (clock : Nat → Time) (id : String) :
    (Gateway.issuer (α := α) clock).Steady
      (fun g => ∀ n, ∃ token, g.tokens.outcome n = .ok token) id where
  keeps p target cell g drawn := by
    obtain ⟨token, ok⟩ := drawn g.tokens.drawn
    simpa [issuer, initiate, TokenSource.draw, ok, Except.mapError] using drawn
  same p target cell g g' own drawn drawn' := by
    obtain ⟨token, ok⟩ := drawn g.tokens.drawn
    obtain ⟨token', ok'⟩ := drawn' g'.tokens.drawn
    simp [issuer, initiate, TokenSource.draw, ok, ok', Except.mapError, Except.map]

/-- Two fresh hosts with equal `cellSize`, `hysteresis` and `nodeId`, and two runs whose single
operations agree after `filter (concerns id)`, all of them fair: the player of `id` is the same in
both up to the text of its token, or missing in both. Other settings, random words, sources and
operations may differ, steps and passes that end early included. -/
theorem players_independent [Angular α] (id : String) (settings settings' : Settings α)
    (chance chance' : Random) (I : σ → Prop) (source source' : σ)
    (size : settings.cellSize = settings'.cellSize)
    (hysteresis : settings.hysteresis = settings'.hysteresis)
    (node : settings.nodeId = settings'.nodeId) (within : I source) (within' : I source')
    (os os' : List (Operation σ α)) (steady : ∀ o ∈ os, o.Fair I id)
    (steady' : ∀ o ∈ os', o.Fair I id)
    (same :
      ((Host.create settings chance source).singly os).filter (Operation.concerns id) =
        ((Host.create settings' chance' source').singly os').filter (Operation.concerns id)) :
    ((Host.create settings chance source).run os).world.players[id]?.map Player.untokened =
      ((Host.create settings' chance' source').run os').world.players[id]?.map
        Player.untokened := by
  let h := Host.create settings chance source
  let h' := Host.create settings' chance' source'
  have fair : h.Fair I id := Host.fair_create settings chance within
  have fair' : h'.Fair I id := Host.fair_create settings' chance' within'
  have start : h.Agrees id h' :=
    ⟨size, hysteresis, congrArg (fun id => { localId := id : Territory }) node, rfl, rfl⟩
  have left := Host.agrees_purged start fair fair' (h.singly os)
    (fun o ho => (Host.of_mem_singly ho).1) (Host.fair_singly steady)
  have right := Host.agrees_purged (.refl id h') fair' fair' (h'.singly os')
    (fun o ho => (Host.of_mem_singly ho).1) (Host.fair_singly steady')
  rw [Host.run_singly, same] at left
  rw [Host.run_singly] at right
  exact (left.trans right.symm).player

/-! ### A player that leaves beside another one -/

/-- A gateway whose tokens are `"0"`, `"1"`, …. -/
def numbering : Gateway ℚ :=
  { nodeId := tenMetres.nodeId, port := 8080, tokens := ⟨fun n => .ok (toString n), 0⟩ }

def alone : List (Operation (Gateway ℚ) ℚ) :=
  [.assign ⟨2, 0⟩ "n2", .install (Gateway.issuer fun _ => ⟨0⟩),
    .upsert "p1" "one" ⟨5, 0, 5⟩ ⟨20, 0, 0⟩, .step ⟨0⟩ (.ofSeconds 1)]

/-- The same player leaves after another one, among bots, with queries and drains in between. -/
def accompanied : List (Operation (Gateway ℚ) ℚ) :=
  [.upsert "a1" "other" ⟨5, 0, 5⟩ ⟨20, 0, 0⟩, .assign ⟨2, 0⟩ "n2",
    .install (Gateway.issuer fun _ => ⟨0⟩), .maintainDensity,
    .upsert "p1" "one" ⟨5, 0, 5⟩ ⟨20, 0, 0⟩, .interest .zero 50 "a1", .step ⟨0⟩ (.ofSeconds 1),
    .remove "a1", .drain]

/-- The tokens are `"0"` and `"1"`, and the untokened players are equal. -/
theorem same_departure_in_company :
    let a := (Host.create tenMetres (.ofSeed 1) numbering).run alone
    let b := (Host.create { tenMetres with targetDensity := 3 } (.ofSeed 2) numbering).run
      accompanied
    let token := fun (h : Host (Gateway ℚ) ℚ) =>
      h.world.players["p1"]?.map fun p => p.transfer.map TransferRecord.token
    token a = some (some (some "0")) ∧ token b = some (some (some "1")) ∧
      a.world.players["p1"]?.map Player.untokened =
        b.world.players["p1"]?.map Player.untokened := by
  intro a b token
  have drawn : ∀ n, ∃ token, numbering.tokens.outcome n = .ok token := fun n => ⟨_, rfl⟩
  have steady := Gateway.steady_issuer (α := ℚ) (fun _ => ⟨0⟩) "p1"
  refine ⟨by decide +kernel, by decide +kernel, ?_⟩
  refine players_independent "p1" tenMetres { tenMetres with targetDensity := 3 } (.ofSeed 1)
    (.ofSeed 2) (fun g => ∀ n, ∃ token, g.tokens.outcome n = .ok token) numbering numbering rfl rfl
    rfl drawn drawn alone accompanied ?_ ?_ ?_
  · simp [alone, Operation.Fair, steady]
  · simp [accompanied, Operation.Fair, steady]
  · simp [alone, accompanied, Host.singly, Host.unrolled, List.filter_cons, Operation.concerns]

end CellWorld
