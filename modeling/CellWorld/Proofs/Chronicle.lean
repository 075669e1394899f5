import CellWorld.Proofs.Crossings
import CellWorld.Proofs.Lag
import CellWorld.Proofs.Unrolled

/-!
# The chronicle of changes of cells

What a run has told of changes of cells, from its first operation on: the log `World.events`
forgets, the counter `metrics.handovers` only counts, and `prevCell` tells of the last one alone.
The chronicle is the list of entries that ties them together.

* `Entry` — `committed e`, `placed id` and `drained`; `Host.entries h o` and `Host.chronicle h os`
  are the entries of an operation and of a run
* `Entry.events`, `Entry.unread` — all events, and those since the last `drained`
* `Entry.Path a told b` — the entries of one player lead from home `a` to home `b`
* `Host.Told h h' told` — log, counter, ticks and homes of `h'`, from those of `h` and `told`
* `Host.told_single`, `Host.told_chronicle` — every operation and every run satisfies `Told`
* `handover_accounting` — counter, order, drain and chaining over any run

The entries of a step are `World.crossings`, a comparison of two worlds; that the pass records
exactly these is `Host.step_crossings`. Whether a crossing was due is not a matter of this module.
-/

namespace CellWorld

variable {σ α : Type}

/-! ### Entries -/

/-- What a chronicle tells of: changes of cells, placements by request, and drains. -/
inductive Entry where
  /-- A step has changed the cell of a player. -/
  | committed (e : HandoverEvent)
  /-- A player was put into a cell, or taken out, by request. -/
  | placed (id : String)
  /-- Somebody has taken the events. -/
  | drained
deriving DecidableEq

namespace Entry

def event? : Entry → Option HandoverEvent
  | committed e => some e
  | _ => none

/-- The events of a chronicle, in order. -/
def events (told : List Entry) : List HandoverEvent := told.filterMap event?

/-- The unread events after one entry more: an event is appended, a drain empties. -/
def heard (waiting : List HandoverEvent) : Entry → List HandoverEvent
  | committed e => waiting ++ [e]
  | placed _ => waiting
  | drained => []

/-- The events since the last drain. -/
def unread (told : List Entry) : List HandoverEvent := told.foldl heard []

/-- Whether an entry is about the player of `id`. -/
def isAbout (id : String) : Entry → Bool
  | committed e => e.player == id
  | placed key => key == id
  | drained => false

theorem events_append (told more : List Entry) :
    events (told ++ more) = events told ++ events more := List.filterMap_append

theorem events_committed (made : List HandoverEvent) : events (made.map committed) = made := by
  unfold events
  rw [List.filterMap_map]
  exact List.filterMap_some

theorem heard_committed (waiting made : List HandoverEvent) :
    (made.map committed).foldl heard waiting = waiting ++ made := by
  induction made generalizing waiting with
  | nil => exact (List.append_nil waiting).symm
  | cons e made ih => rw [List.map_cons, List.foldl_cons, ih, heard, List.append_assoc]; rfl

theorem filter_committed (id : String) (made : List HandoverEvent) :
    (made.map committed).filter (isAbout id) =
      (made.filter fun e => e.player == id).map committed := List.filter_map

/-- The entries about one player lead from home to home: `committed e` from `e.source` to
`e.target`, `placed` from anywhere to anywhere. -/
inductive Path : Option Cell → List Entry → Option Cell → Prop
  | nil (home : Option Cell) : Path home [] home
  | committed (e : HandoverEvent) {told : List Entry} {home : Option Cell}
    (rest : Path (some e.target) told home) : Path (some e.source) (.committed e :: told) home
  | placed (id : String) {start next home : Option Cell} {told : List Entry}
    (rest : Path next told home) : Path start (.placed id :: told) home

namespace Path

variable {a b c : Option Cell} {told more : List Entry}

theorem append (first : Path a told b) (second : Path b more c) : Path a (told ++ more) c := by
  induction first with
  | nil home => exact second
  | committed e rest ih => exact .committed e (ih second)
  | placed id rest ih => exact .placed id (ih second)

theorem split (path : Path a (told ++ more) c) : ∃ b, Path a told b ∧ Path b more c := by
  induction told generalizing a with
  | nil => exact ⟨a, .nil a, path⟩
  | cons x told ih =>
    cases path with
    | committed e rest =>
      obtain ⟨b, first, second⟩ := ih rest
      exact ⟨b, .committed e first, second⟩
    | placed id rest =>
      obtain ⟨b, first, second⟩ := ih rest
      exact ⟨b, .placed id first, second⟩

/-- Two events of a player with nothing between them about it: the second starts where the first
ended. -/
theorem source_of_target {e e' : HandoverEvent} (path : Path a [.committed e, .committed e'] b) :
    e'.source = e.target := by
  cases path with
  | committed _ rest =>
    generalize from_eq : some e.target = start at rest
    cases rest with
    | committed _ rest => exact (Option.some.inj from_eq).symm

end Path

end Entry

/-! ### What operations tell -/

/-- The player whose cell an operation may set other than by handover. -/
def Operation.places? : Operation σ α → Option String
  | upsert id _ _ _ => some id
  | spawn id _ _ => some id
  | receive payload => some payload.id
  | remove id => some id
  | restore id _ _ => some id
  | _ => none

section Angular

variable [Angular α]

namespace Host

/-- A step tells its crossings, a drain itself, and any other operation the player that it
places. -/
def entries (h : Host σ α) : Operation σ α → List Entry
  | .step now dt => (h.world.crossings (h.perform (.step now dt)).world h.routeOf).map .committed
  | .drain => [.drained]
  | o => o.places?.toList.map .placed

def tell (h : Host σ α) : List (Operation σ α) → List Entry
  | [] => []
  | o :: os => h.entries o ++ (h.perform o).tell os

/-- The chronicle of a run, with `ticks` unrolled into steps. -/
def chronicle (h : Host σ α) (os : List (Operation σ α)) : List Entry := h.tell (h.singly os)

theorem tell_append (h : Host σ α) (os os' : List (Operation σ α)) :
    h.tell (os ++ os') = h.tell os ++ (h.run os).tell os' := by
  induction os generalizing h with
  | nil => rfl
  | cons o os ih => rw [List.cons_append, tell, tell, ih, List.append_assoc, run_cons]

/-- A chronicle grows at its end. -/
theorem chronicle_append (h : Host σ α) (os os' : List (Operation σ α)) :
    h.chronicle (os ++ os') = h.chronicle os ++ (h.run os).chronicle os' := by
  unfold chronicle
  rw [singly_append, tell_append, run_singly]

end Host

end Angular

/-! ### What becomes of a host -/

namespace Host

/-- What connects `h` and `h'` when `told` was told in between. `within` and `tick` put later events
behind earlier ones, `path` says where every player has its home. -/
structure Told (h h' : Host σ α) (told : List Entry) : Prop where
  log : ∀ waiting, h.world.events = World.newest waiting →
    h'.world.events = World.newest (told.foldl Entry.heard waiting)
  counted : h'.engine.metrics.handovers =
    h.engine.metrics.handovers + (Entry.events told).length
  tick : h.world.tick ≤ h'.world.tick
  within : ∀ e ∈ Entry.events told, h.world.tick < e.tick ∧ e.tick ≤ h'.world.tick
  ordered : (Entry.events told).Pairwise HandoverEvent.Before
  moved : ∀ e ∈ Entry.events told, e.source ≠ e.target
  path : ∀ id, Entry.Path (h.world.playerHome? id) (told.filter (Entry.isAbout id))
    (h'.world.playerHome? id)

namespace Told

variable {h h' h'' : Host σ α} {told more : List Entry}

theorem nil (h : Host σ α) : Told h h [] where
  log _ same := same
  counted := rfl
  tick := Nat.le_refl _
  within _ he := absurd he List.not_mem_nil
  ordered := .nil
  moved _ he := absurd he List.not_mem_nil
  path _ := .nil _

theorem append (first : Told h h' told) (second : Told h' h'' more) :
    Told h h'' (told ++ more) where
  log waiting same := by
    rw [List.foldl_append]
    exact second.log _ (first.log waiting same)
  counted := by
    rw [second.counted, first.counted, Entry.events_append, List.length_append, Nat.add_assoc]
  tick := first.tick.trans second.tick
  within e he := by
    rw [Entry.events_append, List.mem_append] at he
    rcases he with early | late
    · exact ⟨(first.within e early).1, (first.within e early).2.trans second.tick⟩
    · exact ⟨first.tick.trans_lt (second.within e late).1, (second.within e late).2⟩
  ordered := by
    rw [Entry.events_append, List.pairwise_append]
    refine ⟨first.ordered, second.ordered, fun e he e' he' => Or.inl ?_⟩
    exact (first.within e he).2.trans_lt (second.within e' he').1
  moved e he := by
    rw [Entry.events_append, List.mem_append] at he
    exact he.elim (first.moved e) (second.moved e)
  path id := by
    rw [List.filter_append]
    exact (first.path id).append (second.path id)

/-- Where no event is told, only the log and the paths are left to prove. -/
theorem of_no_event (none : Entry.events told = [])
    (counted : h'.engine.metrics.handovers = h.engine.metrics.handovers)
    (tick : h'.world.tick = h.world.tick)
    (log : ∀ waiting, h.world.events = World.newest waiting →
      h'.world.events = World.newest (told.foldl Entry.heard waiting))
    (path : ∀ id, Entry.Path (h.world.playerHome? id) (told.filter (Entry.isAbout id))
      (h'.world.playerHome? id)) : Told h h' told where
  log := log
  counted := by rw [none, counted, List.length_nil, Nat.add_zero]
  tick := Nat.le_of_eq tick.symm
  within e he := absurd (none ▸ he) List.not_mem_nil
  ordered := by
    rw [none]
    exact .nil
  moved e he := absurd (none ▸ he) List.not_mem_nil
  path := path

end Told

/-! ### Operations that are no steps -/

section Angular

variable [Angular α]

/-- Only steps count handovers. -/
theorem handovers_perform (h : Host σ α) (o : Operation σ α) (step : ∀ now dt, o ≠ .step now dt)
    (ticks : ∀ clock, o ≠ .ticks clock) :
    (h.perform o).engine.metrics.handovers = h.engine.metrics.handovers := by
  have attempt (w : Option (World α)) : (h.engine.attempt w).2.metrics = h.engine.metrics := by
    cases w <;> rfl
  have amendIf (id : String) (c : Player α → Prop) [DecidablePred c] (g : Player α → Player α) :
      (h.engine.amendIf id c g).2.metrics = h.engine.metrics := by
    rcases h.engine.amendIf_cases id c g with same | changed
    · rw [same]
    · rw [changed, attempt]
  cases o with
  | step now dt => exact absurd rfl (step now dt)
  | ticks clock => exact absurd rfl (ticks clock)
  | remove id => exact congrArg Metrics.handovers (attempt _)
  | setVelocity id vel => exact congrArg Metrics.handovers (attempt _)
  | setConnection id connection => exact congrArg Metrics.handovers (attempt _)
  | acknowledge id seq => exact congrArg Metrics.handovers (amendIf id _ _)
  | resolve id reply => exact congrArg Metrics.handovers (amendIf id _ _)
  | restore id saved templates =>
    simp only [perform, Engine.restore]
    cases h.engine.world.restore id saved templates h.engine.settings.cellSize <;> rfl
  | interest pos radius exclude =>
    simp only [perform, Engine.interest]
    split <;> rfl
  | _ => rfl

/-- Only steps advance `tick`, and only steps and `drain` write `events`. -/
theorem log_perform (h : Host σ α) (o : Operation σ α) (step : ∀ now dt, o ≠ .step now dt)
    (ticks : ∀ clock, o ≠ .ticks clock) (drain : o ≠ .drain) :
    (h.perform o).world.tick = h.world.tick ∧ (h.perform o).world.events = h.world.events := by
  let f : World α → Nat × List HandoverEvent := fun w => (w.tick, w.events)
  have same : f (h.perform o).world = f h.world := by
    cases o with
    | step now dt => exact absurd rfl (step now dt)
    | ticks clock => exact absurd rfl (ticks clock)
    | maintainDensity =>
      exact (World.botKept_frame f (fun _ _ _ _ _ => rfl) h.engine.botRules _).maintainDensity
        h.world rfl
    | _ => exact h.frame_request f (fun _ _ _ => rfl) _ rfl drain
  exact ⟨congrArg Prod.fst same, congrArg Prod.snd same⟩

/-- A function `f` of a player that is blind to `vel`, `connection`, `lastSeq` and `transfer` keeps
its value, unless the operation is a step or places the player. -/
theorem view_perform {β : Type} (f : Player α → β)
    (blind : ∀ (p : Player α) vel connection lastSeq transfer,
      f { p with vel, connection, lastSeq, transfer } = f p)
    (h : Host σ α) (o : Operation σ α) (step : ∀ now dt, o ≠ .step now dt)
    (ticks : ∀ clock, o ≠ .ticks clock) {id : String} (other : o.places? ≠ some id) :
    (h.perform o).world.players[id]?.map f = h.world.players[id]?.map f := by
  obtain ⟨source, after⟩ := h.players_perform o ticks id
  have amended (key : String) (g : Player α → Player α) (same : ∀ p, f (g p) = f p)
      (before : Option (Player α)) :
      (if key = id then before.map g else before).map f = before.map f := by
    split
    · rw [Option.map_map]
      exact congrArg (before.map ·) (funext same)
    · rfl
  have elsewhere {key : String} (placed : o.places? = some key) : key ≠ id := by
    rintro rfl
    exact other placed
  refine (congrArg (Option.map f) after).trans ?_
  cases o with
  | step now dt => exact absurd rfl (step now dt)
  | ticks clock => exact absurd rfl (ticks clock)
  | upsert key name pos vel => exact congrArg _ (if_neg (elsewhere rfl))
  | spawn key name pos => exact congrArg _ (if_neg (elsewhere rfl))
  | remove key => exact congrArg _ (if_neg (elsewhere rfl))
  | receive d => exact congrArg _ (if_neg (elsewhere rfl))
  | restore key saved templates => exact congrArg _ (if_neg (elsewhere rfl))
  | setVelocity key vel =>
    exact amended key (fun p => { p with vel })
      (fun p => blind p vel p.connection p.lastSeq p.transfer) _
  | setConnection key connection =>
    exact amended key (fun p => { p with connection })
      (fun p => blind p p.vel connection p.lastSeq p.transfer) _
  | acknowledge key seq =>
    refine amended key _ (fun p => ?_) _
    split
    · exact blind p p.vel p.connection seq p.transfer
    · rfl
  | resolve key reply =>
    refine amended key _ (fun p => ?_) _
    split
    · exact blind p p.vel p.connection p.lastSeq _
    · rfl
  | _ => rfl

/-- The home of `id` is kept, unless the operation is a step or places `id`. -/
theorem home_perform (h : Host σ α) (o : Operation σ α) (step : ∀ now dt, o ≠ .step now dt)
    (ticks : ∀ clock, o ≠ .ticks clock) {id : String} (other : o.places? ≠ some id) :
    (h.perform o).world.playerHome? id = h.world.playerHome? id :=
  view_perform Player.ownedCell (fun _ _ _ _ _ => rfl) h o step ticks other

/-! ### Single operations and runs -/

/-- The step of `Host.step_crossings`, as a chronicle. -/
theorem told_step (h : Host σ α) (now : Time) (dt : Span) :
    Told h (h.perform (.step now dt)) (h.entries (.step now dt)) := by
  obtain ⟨logged, counted, tick⟩ := h.step_crossings now dt
  let made := h.world.crossings (h.perform (.step now dt)).world h.routeOf
  have events : Entry.events (h.entries (.step now dt)) = made := Entry.events_committed made
  refine ⟨?_, ?_, ?_, ?_, ?_, ?_, ?_⟩
  · intro waiting same
    rw [entries, Entry.heard_committed]
    exact logged waiting same
  · rw [events]
    exact counted
  · rw [tick]
    exact Nat.le_succ _
  · intro e he
    rw [events] at he
    rw [World.tick_of_mem_crossings he, tick]
    exact ⟨Nat.lt_succ_self _, Nat.le_refl _⟩
  · rw [events]
    exact World.pairwise_crossings _ _ _
  · intro e he
    rw [events] at he
    obtain ⟨id, -, crossing⟩ := List.mem_filterMap.mp he
    exact (World.of_crossing crossing).2.2.1
  · intro id
    rw [entries, Entry.filter_committed, World.filter_crossings]
    cases crossing : h.world.crossing? (h.perform (.step now dt)).world h.routeOf id with
    | none =>
      rw [World.home_of_no_crossing (h.mem_players_step now dt id) crossing]
      exact .nil _
    | some e =>
      obtain ⟨-, -, -, before, after⟩ := World.of_crossing crossing
      rw [before, after]
      exact .committed e (.nil _)

theorem told_drain (h : Host σ α) : Told h (h.perform .drain) (h.entries .drain) :=
  .of_no_event rfl rfl rfl (fun _ _ => rfl) fun _ => .nil _

/-- Operations other than steps and drains tell their placements. -/
theorem entries_request (h : Host σ α) (o : Operation σ α) (step : ∀ now dt, o ≠ .step now dt)
    (drain : o ≠ .drain) : h.entries o = o.places?.toList.map .placed := by
  cases o with
  | step now dt => exact absurd rfl (step now dt)
  | drain => exact absurd rfl drain
  | _ => rfl

/-- A placement is a `Path` from any home to any other. -/
theorem told_request (h : Host σ α) (o : Operation σ α) (step : ∀ now dt, o ≠ .step now dt)
    (ticks : ∀ clock, o ≠ .ticks clock) (drain : o ≠ .drain) :
    Told h (h.perform o) (h.entries o) := by
  have counted := h.handovers_perform o step ticks
  obtain ⟨tick, log⟩ := h.log_perform o step ticks drain
  rw [h.entries_request o step drain]
  cases places : o.places? with
  | none =>
    refine .of_no_event rfl counted tick (fun waiting same => log.trans same) fun id => ?_
    have stays : o.places? ≠ some id := by
      rw [places]
      exact nofun
    rw [h.home_perform o step ticks stays]
    exact .nil _
  | some key =>
    refine .of_no_event rfl counted tick (fun waiting same => log.trans same) fun id => ?_
    show Entry.Path _ ([Entry.placed key].filter (Entry.isAbout id)) _
    by_cases own : key = id
    · rw [List.filter_cons_of_pos (by simp [Entry.isAbout, own])]
      exact .placed key (.nil _)
    · rw [List.filter_cons_of_neg (by simp [Entry.isAbout, own])]
      have stays : o.places? ≠ some id := by
        rw [places]
        exact fun same => own (Option.some.inj same)
      rw [h.home_perform o step ticks stays]
      exact .nil _

/-- Every single operation satisfies `Told` with its entries. -/
theorem told_single (h : Host σ α) (o : Operation σ α) (ticks : ∀ clock, o ≠ .ticks clock) :
    Told h (h.perform o) (h.entries o) := by
  cases o with
  | step now dt => exact told_step h now dt
  | drain => exact told_drain h
  | _ => exact told_request h _ nofun ticks nofun

theorem told_tell (h : Host σ α) (os : List (Operation σ α))
    (single : ∀ o ∈ os, ∀ clock, o ≠ .ticks clock) : Told h (h.run os) (h.tell os) := by
  induction os generalizing h with
  | nil => exact .nil h
  | cons o os ih =>
    rw [run_cons, tell]
    refine (h.told_single o (single o List.mem_cons_self)).append (ih (h.perform o) ?_)
    intro o' ho'
    exact single o' (List.mem_cons_of_mem o ho')

/-- Every run satisfies `Told` with its chronicle. Induction with `Told.append`. -/
theorem told_chronicle (h : Host σ α) (os : List (Operation σ α)) :
    Told h (h.run os) (h.chronicle os) := by
  rw [← run_singly, chronicle]
  exact h.told_tell (h.singly os) fun o ho => (of_mem_singly ho).1

end Angular

end Host

/-! ### Counter, log and order of a run -/

section Whole

variable [Angular α]

/-- After any run from a fresh host, with panicking steps as with others: `handovers` is the number
of events told; these are strictly ordered by `(tick, player)`; `drain` returns the last
`min eventCapacity n` of the `n` unread ones, oldest first, and leaves `[]`; every event has
`source ≠ target`; two consecutive events of a player without an entry about it in between satisfy
`e'.source = e.target`. A next step appends one event for each player whose home differs after it,
and no other. -/
theorem handover_accounting (settings : Settings α) (chance : Random) (source : σ)
    (os : List (Operation σ α)) :
    let h := (Host.create settings chance source).run os
    let told := (Host.create settings chance source).chronicle os
    let waiting := Entry.unread told
    h.engine.metrics.handovers = (Entry.events told).length ∧
    (Entry.events told).Pairwise HandoverEvent.Before ∧
    ((Entry.events told).map fun e => (e.tick, e.player)).Nodup ∧
    h.engine.drain.1 = waiting.drop (waiting.length - World.eventCapacity) ∧
    (h.perform .drain).world.events = [] ∧
    (∀ e ∈ Entry.events told, e.source ≠ e.target) ∧
    (∀ e between e', .committed e :: between ++ [.committed e'] <:+: told → e'.player = e.player →
      (∀ x ∈ between, x.isAbout e.player = false) → e'.source = e.target) ∧
    ∀ now dt, ∃ made : List HandoverEvent,
      (Host.create settings chance source).chronicle (os ++ [.step now dt]) =
        told ++ made.map .committed ∧
      ∀ id source target, (∃ e ∈ made, e.player = id ∧ e.source = source ∧ e.target = target) ↔
        source ≠ target ∧ h.world.playerHome? id = some source ∧
          (h.perform (.step now dt)).world.playerHome? id = some target := by
  intro h told waiting
  have all : Host.Told (Host.create settings chance source) h told := Host.told_chronicle _ os
  refine ⟨?_, all.ordered, ?_, ?_, rfl, all.moved, ?_, ?_⟩
  · rw [all.counted]
    exact Nat.zero_add _
  · refine List.pairwise_map.mpr (all.ordered.imp fun {e e'} before => ?_)
    exact before.ne
  · show h.world.events.reverse = _
    rw [all.log [] rfl]
    exact (List.reverse_eq_iff.mpr List.take_reverse)
  · rintro e between e' ⟨before, after, split⟩ same apart
    have way := all.path e.player
    have silent : between.filter (Entry.isAbout e.player) = [] := by
      rw [List.filter_eq_nil_iff]
      exact fun x hx => by simp [apart x hx]
    have pair : (Entry.committed e :: between ++ [Entry.committed e']).filter
        (Entry.isAbout e.player) = [.committed e, .committed e'] := by
      have first : (Entry.committed e).isAbout e.player = true := beq_self_eq_true e.player
      have second : (Entry.committed e').isAbout e.player = true := beq_iff_eq.mpr same
      rw [List.cons_append, List.filter_cons_of_pos first, List.filter_append, silent,
        List.nil_append, List.filter_cons_of_pos second, List.filter_nil]
    rw [← split, List.append_assoc, List.filter_append, List.filter_append, pair] at way
    obtain ⟨start, -, rest⟩ := way.split
    obtain ⟨stop, both, -⟩ := rest.split
    exact both.source_of_target
  · intro now dt
    refine ⟨h.world.crossings (h.perform (.step now dt)).world h.routeOf, ?_, ?_⟩
    · rw [Host.chronicle_append]
      exact congrArg (told ++ ·) (List.append_nil _)
    · exact World.exists_crossings_iff _ _ _

end Whole

/-- One player crosses two borders, with a drain between them. -/
def twoCrossings : List (Operation Unit ℚ) :=
  [.upsert "p1" "one" ⟨5, 0, 5⟩ ⟨20, 0, 0⟩, .ticks [⟨0⟩, ⟨1⟩], .step ⟨2⟩ (.ofSeconds 1), .drain,
    .step ⟨3⟩ (.ofSeconds 1)]

/-- The second crossing starts in the cell in which the first has ended. -/
theorem second_crossing_follows :
    ∃ e e', (Host.create tenMetres (.ofSeed 1) ()).chronicle twoCrossings =
      [.placed "p1", .committed e, .drained, .committed e'] ∧ e'.source = e.target := by
  let e : HandoverEvent := ⟨"p1", ⟨0, 0⟩, ⟨2, 0⟩, 3, .onNode⟩
  let e' : HandoverEvent := ⟨"p1", ⟨2, 0⟩, ⟨4, 0⟩, 4, .onNode⟩
  have told : (Host.create tenMetres (.ofSeed 1) ()).chronicle twoCrossings =
      [.placed "p1", .committed e, .drained, .committed e'] := by decide +kernel
  obtain ⟨-, -, -, -, -, -, follows, -⟩ :=
    handover_accounting tenMetres (.ofSeed 1) () twoCrossings
  refine ⟨e, e', told, follows e [.drained] e' ?_ rfl ?_⟩
  · rw [told]
    exact ⟨[.placed "p1"], [], rfl⟩
  · intro x hx
    rw [List.mem_singleton.mp hx]
    rfl

end CellWorld
