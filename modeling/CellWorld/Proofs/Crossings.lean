import Mathlib.Data.String.Basic
import CellWorld.Proofs.Evaluation
import CellWorld.Proofs.Membership

/-!
# What is recorded of a step

A step records and counts changes of cells while it looks at the players. Here this is compared with
what can be seen of the players before and after it, without following the pass.

* `World.crossing? before after route id` — the event of `id`, if `ownedCell` differs between the
  two worlds
* `World.crossings` — these events for all ids of `before`, in the order of ids
* `World.exists_crossings_iff` — an event `source → target` of `id` is listed iff the home of `id`
  was `source` and is `target ≠ source`
* `Territory.routeOf t mints p` — the route, read off the player afterwards
* `World.newest events` — what a log of capacity `World.eventCapacity` keeps
* `World.evaluate_crossings`, `Host.step_crossings` — the log after a step is
  `newest (events ++ made)` and the counter grows by `made.length`, where `made` is `crossings`

These are statements about one step. `Proofs.Chronicle` puts the steps of a run together, with
`drain` between them.
-/

namespace CellWorld

variable {σ α : Type}

/-! ### What can be seen of a step -/

/-- The route of a player that has just changed cells: `onNode` if the local node owns the new cell,
else `crossNode` with the status of the transfer if tokens are minted, else `fallback`. -/
def Territory.routeOf (t : Territory) (mints : Bool) (p : Player α) : Route :=
  let owner := t.owner p.ownedCell
  if owner = t.localId then .onNode
  else match mints, p.transfer with
    | true, some r => .crossNode owner r.status
    | _, _ => .fallback owner

/-- The strict order of events: by `tick`, then by `player`. -/
def HandoverEvent.Before (e e' : HandoverEvent) : Prop :=
  e.tick < e'.tick ∨ e.tick = e'.tick ∧ e.player < e'.player

theorem HandoverEvent.Before.ne {e e' : HandoverEvent} (h : e.Before e') :
    (e.tick, e.player) ≠ (e'.tick, e'.player) := by
  intro same
  obtain ⟨tick, player⟩ := Prod.mk.inj same
  rcases h with earlier | ⟨-, order⟩
  · exact Nat.ne_of_lt earlier tick
  · exact ne_of_lt order player

namespace World

/-- The event that a step from `before` to `after` has to record of `id`: none if `ownedCell` is the
same, or the player is missing in either. -/
def crossing? (before after : World α) (route : Player α → Route) (id : String) :
    Option HandoverEvent :=
  match before.players[id]?, after.players[id]? with
  | some p, some q =>
    if p.ownedCell = q.ownedCell then none
    else some { player := id, source := p.ownedCell, target := q.ownedCell, tick := after.tick,
                route := route q }
  | _, _ => none

/-- In the order of ids, which is that of the pass. -/
def crossings (before after : World α) (route : Player α → Route) : List HandoverEvent :=
  before.players.keys.filterMap (before.crossing? after route)

section Crossing

variable {before after : World α} {route : Player α → Route} {id : String} {e : HandoverEvent}

/-- Here `source` is the home before, `target` the home after, and they differ. -/
theorem of_crossing (h : before.crossing? after route id = some e) :
    e.player = id ∧ e.tick = after.tick ∧ e.source ≠ e.target ∧
      before.playerHome? id = some e.source ∧ after.playerHome? id = some e.target := by
  unfold crossing? at h
  split at h
  · next p q hp hq =>
    split at h
    · exact absurd h.symm (Option.some_ne_none e)
    · next moved =>
      rw [← Option.some.inj h]
      exact ⟨rfl, rfl, moved, by rw [playerHome?, hp]; rfl, by rw [playerHome?, hq]; rfl⟩
  · exact absurd h.symm (Option.some_ne_none e)

/-- Without an event, the home of `id` is unchanged, unless the player came or went in between. -/
theorem home_of_no_crossing (there : id ∈ after.players ↔ id ∈ before.players)
    (h : before.crossing? after route id = none) :
    after.playerHome? id = before.playerHome? id := by
  rw [← playerHome?_ne_none, ← playerHome?_ne_none, not_iff_not] at there
  unfold crossing? at h
  split at h
  · next p q hp hq =>
    split at h
    · next same => rw [playerHome?, playerHome?, hp, hq, Option.map_some, Option.map_some, same]
    · exact absurd h (Option.some_ne_none _)
  · next gone =>
    have nobody : before.playerHome? id = none := by
      by_contra home
      have home' : after.playerHome? id ≠ none := fun h' => home (there.mp h')
      obtain ⟨p, hp⟩ := Option.ne_none_iff_exists'.mp (mt Option.map_eq_none_iff.mpr home)
      obtain ⟨q, hq⟩ := Option.ne_none_iff_exists'.mp (mt Option.map_eq_none_iff.mpr home')
      exact gone p q hp hq
    rw [nobody, there.mpr nobody]

/-- An event of `crossing?` reads `ownedCell` before, the player after, and `tick` after; nothing
else matters. -/
theorem crossing_congr {before' after' : World α}
    (home : before'.playerHome? id = before.playerHome? id)
    (same : after'.players[id]? = after.players[id]?) (tick : after'.tick = after.tick) :
    before'.crossing? after' route id = before.crossing? after route id := by
  unfold playerHome? at home
  unfold crossing?
  rw [same, tick]
  cases hp : before.players[id]? with
  | none =>
    rw [hp] at home
    rw [Option.map_eq_none_iff.mp home]
  | some p =>
    rw [hp] at home
    obtain ⟨p', hp', cell⟩ := Option.map_eq_some_iff.mp home
    rw [hp']
    cases after.players[id]? with
    | none => rfl
    | some q => simp only [cell]

/-- At most one event per player and step. -/
theorem filter_crossings (before after : World α) (route : Player α → Route) (id : String) :
    (before.crossings after route).filter (fun e => e.player == id) =
      (before.crossing? after route id).toList := by
  have own (k : String) : (before.crossing? after route k).filter (fun e => e.player == id) =
      if k == id then before.crossing? after route k else none := by
    cases h : before.crossing? after route k with
    | none => simp
    | some e => rw [Option.filter_some, (of_crossing h).1]
  have once : before.players.keys.filter (· == id) = if id ∈ before.players then [id] else [] := by
    rw [List.filter_beq]
    split
    · next h =>
      rw [List.count_eq_one_of_mem Std.TreeMap.nodup_keys (Std.TreeMap.mem_keys.mpr h)]
      rfl
    · next h =>
      rw [List.count_eq_zero_of_not_mem fun hk => h (Std.TreeMap.mem_keys.mp hk)]
      rfl
  unfold crossings
  rw [List.filter_filterMap]
  simp only [own]
  rw [← List.filterMap_filter, once]
  split
  · cases h : before.crossing? after route id <;> simp [h]
  · next absent =>
    unfold crossing?
    rw [Std.TreeMap.getElem?_eq_none absent]
    rfl

/-- The events of a step are ordered by `Before`: same tick, increasing ids. -/
theorem pairwise_crossings (before after : World α) (route : Player α → Route) :
    (before.crossings after route).Pairwise HandoverEvent.Before := by
  have ordered : before.players.keys.Pairwise (· < ·) :=
    Std.TreeMap.ordered_keys.imp compare_lt_iff_lt.mp
  refine ordered.filterMap _ ?_
  intro k k' order e he e' he'
  obtain ⟨player, tick, -⟩ := of_crossing he
  obtain ⟨player', tick', -⟩ := of_crossing he'
  refine Or.inr ⟨tick.trans tick'.symm, ?_⟩
  rw [player, player']
  exact order

/-- The list `crossings` has an event of `id` from `source` to `target` iff these are the homes of
`id` before and after, and differ. -/
theorem exists_crossings_iff (before after : World α) (route : Player α → Route) (id : String)
    (source target : Cell) :
    (∃ e ∈ before.crossings after route, e.player = id ∧ e.source = source ∧ e.target = target) ↔
      source ≠ target ∧ before.playerHome? id = some source ∧
        after.playerHome? id = some target := by
  constructor
  · rintro ⟨e, he, rfl, rfl, rfl⟩
    obtain ⟨k, -, crossing⟩ := List.mem_filterMap.mp he
    obtain ⟨rfl, -, moved, start, stop⟩ := of_crossing crossing
    exact ⟨moved, start, stop⟩
  · rintro ⟨moved, start, stop⟩
    obtain ⟨p, hp, rfl⟩ := Option.map_eq_some_iff.mp start
    obtain ⟨q, hq, rfl⟩ := Option.map_eq_some_iff.mp stop
    have listed : id ∈ before.players.keys :=
      Std.TreeMap.mem_keys.mpr (playerHome?_ne_none.mp (start ▸ Option.some_ne_none _))
    refine ⟨⟨id, p.ownedCell, q.ownedCell, after.tick, route q⟩, ?_, rfl, rfl, rfl⟩
    refine List.mem_filterMap.mpr ⟨id, listed, ?_⟩
    unfold crossing?
    rw [hp, hq]
    exact if_neg moved

theorem tick_of_mem_crossings (h : e ∈ before.crossings after route) : e.tick = after.tick := by
  obtain ⟨id, -, he⟩ := List.mem_filterMap.mp h
  exact (of_crossing he).2.1

end Crossing

end World

/-! ### What is recorded -/

/-- The last `eventCapacity` of `events`, newest first, as the log stores them. -/
def World.newest (events : List HandoverEvent) : List HandoverEvent :=
  events.reverse.take World.eventCapacity

theorem World.newest_concat (events : List HandoverEvent) (e : HandoverEvent) :
    World.newest (events ++ [e]) = (e :: World.newest events).take World.eventCapacity := by
  unfold newest
  rw [List.reverse_append, List.reverse_singleton, List.singleton_append, eventCapacity]
  simp only [List.take_succ_cons, List.take_take]
  rfl

/-- The route that `depart` returns is the `routeOf` of any player with its transfer in the new
cell. -/
theorem Player.route_depart (rules : HandoverRules α) (issuer : Option (Issuer σ α))
    (p q : Player α) (target : Cell) (source : σ) (cell : q.ownedCell = target)
    (transfer : q.transfer = (p.depart rules issuer target source).2.1) :
    (p.depart rules issuer target source).1 =
      rules.territory.routeOf issuer.isSome q := by
  unfold Territory.routeOf
  rw [cell, transfer]
  unfold depart
  dsimp only
  by_cases owned : rules.territory.owner target = rules.territory.localId
  · rw [if_pos owned, if_pos owned]
  · rw [if_neg owned, if_neg owned]
    cases issuer with
    | none => rfl
    | some issue =>
      cases waiting : p.transfer.filter TransferRecord.inFlight with
      | none => rfl
      | some r =>
        have record : p.transfer = some r := (Option.filter_eq_some_iff.mp waiting).1
        simp only [record, Option.isSome_some]

section Scalar

variable [Scalar α]

/-- The `left` part of an evaluation is determined by `ownedCell` before and by the player after. -/
theorem Player.left_evaluate (rules : HandoverRules α) (issuer : Option (Issuer σ α)) (p : Player α)
    (source : σ) :
    let q := (p.evaluate rules issuer source).1.player
    (p.evaluate rules issuer source).1.left =
      if p.ownedCell = q.ownedCell then none
      else some (p.ownedCell, rules.territory.routeOf issuer.isSome q) := by
  cases due : p.due? rules with
  | none =>
    rw [evaluate_stays issuer p source due]
    exact (if_pos rfl).symm
  | some target =>
    obtain ⟨route, transfer, source', departed, after⟩ := evaluate_leaves issuer p source due
    have told := (p.settle rules.now).route_depart rules issuer
      { p.settle rules.now with
        ownedCell := target, prevCell := some p.ownedCell, handedOver := true, transfer }
      target source rfl (by rw [departed])
    rw [departed] at told
    rw [after]
    exact (congrArg (fun route => some (p.ownedCell, route)) told).trans
      (if_neg (ne_ownedCell_of_due due).symm).symm

namespace World

theorem tick_visitPlayer (rules : HandoverRules α) (issuer : Option (Issuer σ α))
    (pass : HandoverPass σ α) (id : String) :
    (visitPlayer rules issuer pass id).world.tick = pass.world.tick := by
  unfold visitPlayer
  split
  · rfl
  · exact settlePlayer_frame World.tick (fun _ _ _ _ => rfl) _ _ _

/-- One visit appends `made`, which is the event of `id` or nothing, to the log and adds its length
to the counter. -/
theorem visitPlayer_crossing (rules : HandoverRules α) (issuer : Option (Issuer σ α))
    (pass : HandoverPass σ α) (id : String) :
    let visited := visitPlayer rules issuer pass id
    let made :=
      (pass.world.crossing? visited.world (rules.territory.routeOf issuer.isSome) id).toList
    (∀ events, pass.world.events = newest events →
      visited.world.events = newest (events ++ made)) ∧
      visited.committed = pass.committed + made.length := by
  intro visited made
  have tick : visited.world.tick = pass.world.tick := tick_visitPlayer rules issuer pass id
  have after := players_visitPlayer rules issuer pass id id
  rw [if_pos rfl] at after
  cases hp : pass.world.players[id]? with
  | none =>
    have same : visited = pass := by simp only [visited, visitPlayer, hp]
    have nothing : made = [] := by simp only [made, crossing?, hp, Option.toList_none]
    rw [nothing, same]
    exact ⟨fun events log => by rwa [List.append_nil], rfl⟩
  | some p =>
    let e := (p.evaluate rules issuer pass.source).1
    have left : e.left = if p.ownedCell = e.player.ownedCell then none
        else some (p.ownedCell, rules.territory.routeOf issuer.isSome e.player) :=
      p.left_evaluate rules issuer pass.source
    have world : visited.world = pass.world.settlePlayer id e := by
      simp only [visited, visitPlayer, hp, e]
    have committed : visited.committed =
        if e.left.isSome then pass.committed + 1 else pass.committed := by
      simp only [visited, visitPlayer, hp, e]
    rw [hp] at after
    by_cases stays : p.ownedCell = e.player.ownedCell
    · rw [if_pos stays] at left
      have nothing : made = [] := by
        simp only [made, crossing?, hp, visited, after, Option.map_some]
        rw [if_pos stays]
        rfl
      rw [nothing, world, committed, settlePlayer, left]
      exact ⟨fun events log => by rwa [List.append_nil], rfl⟩
    · rw [if_neg stays] at left
      have one : made = [⟨id, p.ownedCell, e.player.ownedCell, pass.world.tick,
          rules.territory.routeOf issuer.isSome e.player⟩] := by
        simp only [made, crossing?, hp, visited, after, Option.map_some]
        rw [if_neg stays, ← tick]
        rfl
      rw [one, world, committed, settlePlayer, left]
      exact ⟨fun events log => by rw [newest_concat, ← log]; rfl, rfl⟩

theorem players_foldl_visitPlayer (rules : HandoverRules α) (issuer : Option (Issuer σ α))
    {id : String} (ids : List String) (pass : HandoverPass σ α) (other : id ∉ ids) :
    (ids.foldl (visitPlayer rules issuer) pass).world.players[id]? = pass.world.players[id]? := by
  induction ids generalizing pass with
  | nil => rfl
  | cons k ids ih =>
    rw [List.mem_cons, not_or] at other
    rw [List.foldl_cons, ih _ other.2, players_visitPlayer, if_neg (Ne.symm other.1)]

theorem tick_foldl_visitPlayer (rules : HandoverRules α) (issuer : Option (Issuer σ α))
    (ids : List String) (pass : HandoverPass σ α) :
    (ids.foldl (visitPlayer rules issuer) pass).world.tick = pass.world.tick := by
  induction ids generalizing pass with
  | nil => rfl
  | cons id ids ih => rw [List.foldl_cons, ih, tick_visitPlayer]

/-- Visiting distinct ids appends `filterMap crossing?` over them. Induction on `ids`; distinctness
keeps later visits from changing an earlier player. -/
theorem foldl_visitPlayer_crossings (rules : HandoverRules α) (issuer : Option (Issuer σ α))
    (ids : List String) (once : ids.Nodup) (pass : HandoverPass σ α) :
    let done := ids.foldl (visitPlayer rules issuer) pass
    let made := ids.filterMap
      (pass.world.crossing? done.world (rules.territory.routeOf issuer.isSome))
    (∀ events, pass.world.events = newest events → done.world.events = newest (events ++ made)) ∧
      done.committed = pass.committed + made.length := by
  induction ids generalizing pass with
  | nil => exact ⟨fun events log => by simpa using log, rfl⟩
  | cons id ids ih =>
    intro done made
    obtain ⟨fresh, once⟩ := List.nodup_cons.mp once
    let route : Player α → Route := rules.territory.routeOf issuer.isSome
    let visited := visitPlayer rules issuer pass id
    obtain ⟨logged, counted⟩ := visitPlayer_crossing rules issuer pass id
    obtain ⟨later, total⟩ := ih once visited
    -- what the later visits leave of the first one, and the first one of the later ones
    have first : pass.world.crossing? done.world route id =
        pass.world.crossing? visited.world route id :=
      crossing_congr rfl (players_foldl_visitPlayer rules issuer ids visited fresh)
        (tick_foldl_visitPlayer rules issuer ids visited)
    have others : ids.filterMap (pass.world.crossing? done.world route) =
        ids.filterMap (visited.world.crossing? done.world route) := by
      refine List.filterMap_congr fun k hk => ?_
      refine crossing_congr ?_ rfl rfl
      rw [playerHome?, playerHome?, players_visitPlayer, if_neg]
      rintro rfl
      exact fresh hk
    have made_eq : made = (pass.world.crossing? visited.world route id).toList ++
        ids.filterMap (visited.world.crossing? done.world route) := by
      rw [← others, ← first]
      show List.filterMap (pass.world.crossing? done.world route) (id :: ids) = _
      rw [List.filterMap_cons]
      cases pass.world.crossing? done.world route id <;> rfl
    rw [made_eq]
    constructor
    · intro events log
      rw [← List.append_assoc]
      exact later _ (logged events log)
    · rw [List.length_append, ← Nat.add_assoc, ← counted]
      exact total

/-- The pass appends exactly `crossings` to the log, and `committed` is their number. -/
theorem evaluate_crossings (rules : HandoverRules α) (issuer : Option (Issuer σ α)) (w : World α)
    (source : σ) :
    let pass := w.evaluate rules issuer source
    let made := w.crossings pass.world (rules.territory.routeOf issuer.isSome)
    (∀ events, w.events = newest events → pass.world.events = newest (events ++ made)) ∧
      pass.committed = made.length ∧ pass.world.tick = w.tick := by
  obtain ⟨logged, counted⟩ := foldl_visitPlayer_crossings rules issuer w.players.keys
    Std.TreeMap.nodup_keys ⟨w, source, 0⟩
  exact ⟨logged, counted.trans (Nat.zero_add _), tick_foldl_visitPlayer _ _ _ _⟩

end World

end Scalar

section Angular

variable [Angular α]

namespace Host

def routeOf (h : Host σ α) : Player α → Route := h.engine.territory.routeOf h.issuer.isSome

/-- A step appends exactly `crossings` to the log and adds their number to `metrics.handovers`, also
where its density pass gets stuck. -/
theorem step_crossings (h : Host σ α) (now : Time) (dt : Span) :
    let h' := h.perform (.step now dt)
    let made := h.world.crossings h'.world h.routeOf
    (∀ events, h.world.events = World.newest events →
      h'.world.events = World.newest (events ++ made)) ∧
      h'.engine.metrics.handovers = h.engine.metrics.handovers + made.length ∧
      h'.world.tick = h.world.tick + 1 := by
  intro h' made
  let moved := { h.engine.world with tick := h.engine.world.tick + 1 }.integrate (dt.seconds : α)
  let pass := moved.evaluate (h.engine.handoverRules now) h.issuer h.source
  obtain ⟨recorded, counted, ticked⟩ :=
    moved.evaluate_crossings (h.engine.handoverRules now) h.issuer h.source
  have tick : h'.world.tick = pass.world.tick :=
    step_frame World.tick (fun _ _ _ _ _ _ => rfl) h now dt
  have players : h'.world.players = pass.world.players := (h.step_pass now dt).1
  have same : made = moved.crossings pass.world h.routeOf := by
    have keys : moved.players.keys = h.world.players.keys := Std.TreeMap.keys_map
    unfold World.crossings
    rw [keys]
    refine List.filterMap_congr fun id _ => ?_
    refine World.crossing_congr ?_ (by rw [players]) tick
    rw [World.playerHome?, World.playerHome?, World.players_integrate, Option.map_map]
    rfl
  rw [same]
  refine ⟨?_, ?_, tick.trans ticked⟩
  · intro events log
    rw [step_frame World.events (fun _ _ _ _ _ _ => rfl) h now dt]
    exact recorded events log
  · exact congrArg (h.engine.metrics.handovers + ·) counted

end Host

end Angular

end CellWorld
