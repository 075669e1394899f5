import CellWorld.Engine

/-!
# Runs of a simulation

A simulation is used through its public operations, in any order and with any arguments. A run is a
list of them.

* `Host σ α` — an `Engine α` with an `Issuer σ α`, if one is installed, and the state of that issuer
* `Operation`, `Host.perform` — one operation and what it makes of a host
* `Host.run`, `Host.run_induction` — a run, and what every operation keeps a run keeps
* `Host.ticks_induction`, `Host.ticks_eq_run` — the operation `ticks clock` is a run of steps, one
  for each reading of the clock, up to the first that ends early
* `Host.frame_quiet`, `Host.frame_engine` — what most operations and what all of them leave alone;
  `Host.settings_run` — settings stay
* `Engine.amendIf` — what acknowledgements and answers have in common
* `Operation.joins?`, `Operation.leaves?` — the ids that an operation brings in and takes out

The readers that leave a simulation as it is are no operations. What a minting service does between
two operations, for whatever reason, is the operation `outside`. Starting and stopping the loop is
not part of a run; `Proofs.Races` is about it.
-/

namespace CellWorld

variable {σ α : Type}

/-! ### Steps that read the clock one by one -/

section Through

variable [Angular α]

/-- Takes a step of length `dt` for each reading of `clock`, until one ends early. -/
def Engine.Stepped.through (issuer : Option (Issuer σ α)) (dt : Span) (clock : List Time)
    (s : Engine.Stepped σ α) : Engine.Stepped σ α :=
  clock.foldl (fun s now => s.again issuer now dt) s

theorem Engine.Stepped.through_of_ended (issuer : Option (Issuer σ α)) (dt : Span)
    (clock : List Time) {s : Engine.Stepped σ α} (ended : s.ended ≠ .done) :
    s.through issuer dt clock = s := by
  induction clock with
  | nil => rfl
  | cons now clock ih =>
    show (s.again issuer now dt).through issuer dt clock = s
    rw [Engine.Stepped.again, if_neg ended]
    exact ih

theorem Engine.Stepped.more_eq_through (issuer : Option (Issuer σ α)) (now : Time) (dt : Span)
    (n : Nat) (s : Engine.Stepped σ α) :
    s.more issuer now dt n = s.through issuer dt (List.replicate n now) := by
  induction n generalizing s with
  | zero => rfl
  | succ n ih =>
    show (s.again issuer now dt).more issuer now dt n
      = (s.again issuer now dt).through issuer dt (List.replicate n now)
    exact ih _

end Through

/-! ### Changes that may find nobody -/

namespace Engine

theorem world_attempt (e : Engine α) (w : Option (World α)) :
    (e.attempt w).2.world = w.getD e.world := by
  cases w <;> rfl

/-- A change of a player on a condition on it. An acknowledgement and an answer of another node are
such changes. -/
def amendIf (e : Engine α) (id : String) (c : Player α → Prop) [DecidablePred c]
    (f : Player α → Player α) : Bool × Engine α :=
  match e.world.players[id]? with
  | some p => if c p then e.attempt (e.world.amend? id f) else (false, e)
  | none => (false, e)

theorem amendIf_cases (e : Engine α) (id : String) (c : Player α → Prop) [DecidablePred c]
    (f : Player α → Player α) :
    (e.amendIf id c f).2 = e ∨ (e.amendIf id c f).2 = (e.attempt (e.world.amend? id f)).2 := by
  unfold amendIf
  split
  · split
    · exact Or.inr rfl
    · exact Or.inl rfl
  · exact Or.inl rfl

end Engine

/-! ### Operations -/

/-- A simulation with whoever mints the tokens of players that leave. -/
structure Host (σ α : Type) where
  engine : Engine α
  /-- Nobody until somebody is installed. -/
  issuer : Option (Issuer σ α) := none
  /-- What the minting of tokens depends on. -/
  source : σ

/-- What can be asked of a host. -/
inductive Operation (σ α : Type) where
  | upsert (id name : String) (pos vel : Point α)
  | spawn (id name : String) (pos : Point α)
  | remove (id : String)
  | setVelocity (id : String) (vel : Point α)
  | setConnection (id : String) (connection : Option String)
  | acknowledge (id : String) (seq : UInt64)
  /-- One step of time at a reading of the clock. -/
  | step (now : Time) (dt : Span)
  /-- Steps of one tick each, up to the first that ends early. -/
  | ticks (clock : List Time)
  | maintainDensity
  | receive (payload : Payload α)
  | resolve (id : String) (reply : Reply)
  | restore (id : String) (saved : SavedPlayer α) (templates : List String)
  | interest (pos : Point α) (radius : α) (exclude : String)
  | snapshot
  | drain
  | register (info : NodeInfo)
  | unregister (id : String)
  | assign (cell : Cell) (id : String)
  | install (issuer : Issuer σ α)
  /-- Whatever else changes what the minting of tokens depends on. -/
  | outside (source : σ)

namespace Operation

/-- The id of a player that is in the world after the operation, whether or not it was before. -/
def joins? : Operation σ α → Option String
  | upsert id _ _ _ => some id
  | spawn id _ _ => some id
  | receive payload => some payload.id
  | _ => none

/-- The id of a player that is not in the world after the operation. -/
def leaves? : Operation σ α → Option String
  | remove id => some id
  | _ => none

/-- Whether an operation is about nodes and the cells that they own. -/
def isRegistry : Operation σ α → Bool
  | register _ | unregister _ | assign _ _ => true
  | _ => false

end Operation

namespace Host

def create [Scalar α] (settings : Settings α) (chance : Random) (source : σ) : Host σ α :=
  { engine := .create settings chance, source }

def world (h : Host σ α) : World α := h.engine.world

@[simp]
theorem players_create [Scalar α] (settings : Settings α) (chance : Random) (source : σ)
    (id : String) : (create settings chance source).world.players[id]? = none := by
  simp [world, create, Engine.create, World.empty]

@[simp]
theorem bots_create [Scalar α] (settings : Settings α) (chance : Random) (source : σ)
    (id : String) : (create settings chance source).world.bots[id]? = none := by
  simp [world, create, Engine.create, World.empty]

def took (h : Host σ α) (s : Engine.Stepped σ α) : Host σ α :=
  { h with engine := s.engine, source := s.source }

variable [Angular α]

/-- The host after an operation. A refused one leaves it as it was; a step or a density pass that
ends early leaves what it had done by then. -/
def perform (h : Host σ α) : Operation σ α → Host σ α
  | .upsert id name pos vel => { h with engine := (h.engine.upsert id name pos vel).2 }
  | .spawn id name pos => { h with engine := (h.engine.spawn id name pos).2 }
  | .remove id => { h with engine := (h.engine.remove id).2 }
  | .setVelocity id vel => { h with engine := (h.engine.setVelocity id vel).2 }
  | .setConnection id connection => { h with engine := (h.engine.setConnection id connection).2 }
  | .acknowledge id seq => { h with engine := (h.engine.acknowledge id seq).2 }
  | .step now dt => h.took (h.engine.step h.issuer now dt h.source)
  | .ticks clock =>
    h.took (Engine.Stepped.through h.issuer h.engine.settings.tickPeriod clock
      ⟨h.engine, h.source, 0, 0, .done⟩)
  | .maintainDensity => { h with engine := h.engine.maintainDensity.2 }
  | .receive payload => { h with engine := (h.engine.receive payload).2 }
  | .resolve id reply => { h with engine := (h.engine.resolve id reply).2 }
  | .restore id saved templates =>
    match h.engine.restore id saved templates with
    | .ok engine => { h with engine }
    | .error _ => h
  | .interest pos radius exclude => { h with engine := (h.engine.interest pos radius exclude).2 }
  | .snapshot => { h with engine := h.engine.snapshot.2 }
  | .drain => { h with engine := h.engine.drain.2 }
  | .register info => { h with engine := h.engine.register info }
  | .unregister id => { h with engine := (h.engine.unregister id).2 }
  | .assign cell id => { h with engine := h.engine.assign cell id }
  | .install issuer => { h with issuer := some issuer }
  | .outside source => { h with source }

def run (h : Host σ α) (operations : List (Operation σ α)) : Host σ α :=
  operations.foldl perform h

theorem run_cons (h : Host σ α) (o : Operation σ α) (os : List (Operation σ α)) :
    h.run (o :: os) = (h.perform o).run os := rfl

/-- What every operation of a run keeps, the run keeps. -/
theorem run_induction {P : Host σ α → Prop} (os : List (Operation σ α)) (h : Host σ α)
    (start : P h) (kept : ∀ h, P h → ∀ o ∈ os, P (h.perform o)) : P (h.run os) := by
  induction os generalizing h with
  | nil => exact start
  | cons o os ih =>
    rw [run_cons]
    refine ih (h.perform o) (kept h start o List.mem_cons_self) ?_
    intro h' hP o' ho'
    exact kept h' hP o' (List.mem_cons_of_mem _ ho')

/-! ### Several steps in one call -/

/-- What every `step` keeps, `ticks` keeps. -/
theorem ticks_induction {P : Host σ α → Prop} (h : Host σ α) (clock : List Time) (start : P h)
    (kept : ∀ h now dt, P h → P (h.perform (.step now dt))) : P (h.perform (.ticks clock)) := by
  suffices through : ∀ s : Engine.Stepped σ α, P (h.took s) →
      P (h.took (s.through h.issuer h.engine.settings.tickPeriod clock)) from through _ start
  induction clock with
  | nil => exact fun s hs => hs
  | cons now clock ih =>
    intro s hs
    refine ih (s.again h.issuer now h.engine.settings.tickPeriod) ?_
    unfold Engine.Stepped.again
    split
    · exact kept (h.took s) now _ hs
    · exact hs

/-- The steps of one call are steps, one after the other, up to the first that ends early. -/
theorem ticks_eq_run (h : Host σ α) (clock : List Time) :
    ∃ n, h.perform (.ticks clock) =
      h.run ((clock.take n).map fun now => .step now h.engine.settings.tickPeriod) := by
  suffices through : ∀ (period : Span) (s : Engine.Stepped σ α), ∃ n,
      h.took (s.through h.issuer period clock) =
        (h.took s).run ((clock.take n).map fun now => .step now period) from
    through _ ⟨h.engine, h.source, 0, 0, .done⟩
  intro period
  induction clock with
  | nil => exact fun s => ⟨0, rfl⟩
  | cons now clock ih =>
    intro s
    by_cases ended : s.ended = .done
    · obtain ⟨n, hn⟩ := ih (s.again h.issuer now period)
      refine ⟨n + 1, hn.trans ?_⟩
      have once : h.took (s.again h.issuer now period) =
          (h.took s).perform (.step now period) := by
        rw [Engine.Stepped.again, if_pos ended]
        rfl
      rw [once]
      rfl
    · -- a step that ended early is the last one
      refine ⟨0, ?_⟩
      show h.took (s.through h.issuer period (now :: clock)) = h.took s
      rw [Engine.Stepped.through_of_ended _ _ _ ended]

/-! ### What no operation changes -/

section Quiet

variable {β : Type} (f : Engine α → β)
  (blind : ∀ (e : Engine α) world metrics lastSummary,
    f { e with world, metrics, lastSummary } = f e)

include blind

/-- Let `f` not look at the world, the counters and the last counts. An operation that is not about
territory leaves `f` alone. -/
theorem frame_quiet (h : Host σ α) (o : Operation σ α) (quiet : o.isRegistry = false) :
    f (h.perform o).engine = f h.engine := by
  have world (w : World α) : f { h.engine with world := w } = f h.engine :=
    blind h.engine w h.engine.metrics h.engine.lastSummary
  have attempt (w : Option (World α)) : f (h.engine.attempt w).2 = f h.engine := by
    cases w with
    | none => rfl
    | some w => exact world w
  have amendIf (id : String) (c : Player α → Prop) [DecidablePred c] (g : Player α → Player α) :
      f (h.engine.amendIf id c g).2 = f h.engine := by
    rcases h.engine.amendIf_cases id c g with same | changed
    · rw [same]
    · rw [changed, attempt]
  cases o with
  | upsert id name pos vel => exact world _
  | spawn id name pos => exact world _
  | remove id => exact attempt _
  | setVelocity id vel => exact attempt _
  | setConnection id connection => exact attempt _
  | acknowledge id seq => exact amendIf id _ _
  | step now dt => exact blind h.engine _ _ h.engine.lastSummary
  | ticks clock =>
    exact ticks_induction (P := fun h' => f h'.engine = f h.engine) h clock rfl
      fun h' _ _ same => (blind h'.engine _ _ h'.engine.lastSummary).trans same
  | maintainDensity => exact world _
  | receive payload => exact world _
  | resolve id reply => exact amendIf id _ _
  | restore id saved templates =>
    simp only [perform, Engine.restore]
    cases h.engine.world.restore id saved templates h.engine.settings.cellSize with
    | error e => rfl
    | ok w => exact world w
  | interest pos radius exclude =>
    show f (h.engine.interest pos radius exclude).2 = f h.engine
    unfold Engine.interest
    split
    · exact blind h.engine h.engine.world _ h.engine.lastSummary
    · rfl
  | snapshot => exact blind h.engine h.engine.world h.engine.metrics _
  | drain => exact world _
  | register info => exact absurd quiet Bool.noConfusion
  | unregister id => exact absurd quiet Bool.noConfusion
  | assign cell id => exact absurd quiet Bool.noConfusion
  | install issuer => rfl
  | outside source => rfl

end Quiet

section Frame

variable {β : Type} (f : Engine α → β)
  (blind : ∀ (e : Engine α) world metrics lastSummary territory,
    territory.localId = e.territory.localId →
      f { e with world, metrics, lastSummary, territory } = f e)

include blind

/-- Let `f` not look at the territory either, but for the id of its node. Then every operation
leaves `f` alone. -/
theorem frame_engine (h : Host σ α) (o : Operation σ α) : f (h.perform o).engine = f h.engine := by
  have given (territory : Territory) (same : territory.localId = h.engine.territory.localId) :
      f { h.engine with territory } = f h.engine :=
    blind h.engine h.engine.world h.engine.metrics h.engine.lastSummary territory same
  cases o with
  | register info => exact given _ rfl
  | unregister id =>
    refine given (h.engine.territory.unregister id).1 ?_
    unfold Territory.unregister
    split <;> rfl
  | assign cell id =>
    refine given (h.engine.territory.assign cell id) ?_
    unfold Territory.assign
    split <;> rfl
  | _ => exact h.frame_quiet f (fun e _ _ _ => blind e _ _ _ e.territory rfl) _ rfl

end Frame

theorem settings_perform (h : Host σ α) (o : Operation σ α) :
    (h.perform o).engine.settings = h.engine.settings :=
  frame_engine Engine.settings (fun _ _ _ _ _ _ => rfl) h o

theorem localId_perform (h : Host σ α) (o : Operation σ α) :
    (h.perform o).engine.territory.localId = h.engine.territory.localId :=
  frame_engine (fun e => e.territory.localId) (fun _ _ _ _ _ same => same) h o

theorem settings_run (h : Host σ α) (os : List (Operation σ α)) :
    (h.run os).engine.settings = h.engine.settings :=
  run_induction (P := fun h' => h'.engine.settings = h.engine.settings) os h rfl
    fun h' hs o _ => (settings_perform h' o).trans hs

end Host

end CellWorld
