import Mathlib.Data.List.Basic
import CellWorld.Lifecycle

/-!
# Starts and stops at once

Any number of starts and stops may be under way at once, each at an access of its own. `Race.move`
lets any call make its next access to the shared flags, so a list of moves is an interleaving.

* `Race`, `Race.Move`, `Race.run` — calls over the shared `Lifecycle`; a move is a new start or
  stop, an access, or a period of a loop
* `Race.spawned` — how often a loop was spawned by a list of moves
* `Call.isClaiming`, `Call.isAsking` — a start with the running flag and no loop yet; a call that is
  going to ask the loop to end
* `Race.Sound` — `loops.length + countP isClaiming = running`, and, once stopped, every loop was
  asked to end or some call is asking
* `Race.Sound.run` — every race from the empty one is sound, by one lemma about an access and one
  about a move
* `one_loop_that_stops_reach` — at most one loop, which was asked to end when all calls are over and
  one was a stop
* `one_loop_that_stops_missed` — the interleaving in which a stop finds no loop and the start asks
  in its place

An access is atomic and the accesses of one call are in order; weaker memory is not modelled. That a
loop that was asked to end does end is a matter of `Ticker`, and a stop may return before.
-/

namespace CellWorld

/-! ### Races -/

structure Race where
  shared : Lifecycle := {}
  calls : List Call := []

namespace Race

inductive Move where
  /-- One more start. -/
  | start
  /-- One more stop. -/
  | stop
  /-- A call makes its next access. -/
  | access (call : Nat) (around : Surroundings)
  /-- A loop lives through a period. -/
  | fire (loop : Nat) (outcome : RunEnd)

variable (fresh : Ticker)

/-- The race after a move; a loop that is spawned starts as `fresh`. -/
def move (r : Race) : Move → Race
  | .start => { r with calls := r.calls ++ [.begin] }
  | .stop => { r with calls := r.calls ++ [.halt] }
  | .access i around =>
    match r.calls[i]? with
    | some c =>
      let s := c.step around fresh r.shared
      { shared := s.2, calls := r.calls.set i s.1 }
    | none => r
  | .fire loop outcome => { r with shared := r.shared.onLoop loop fun t => t.fire outcome }

def run (r : Race) (moves : List Move) : Race := moves.foldl (move fresh) r

/-- One if the move spawns a loop, zero otherwise. -/
def spawns (r : Race) : Move → Nat
  | .access i around => if r.calls[i]? = some .spawn ∧ around.spawns then 1 else 0
  | _ => 0

/-- The number of loops that a list of moves spawns. -/
def spawned (r : Race) : List Move → Nat
  | [] => 0
  | m :: moves => r.spawns m + (r.move fresh m).spawned moves

/-- The accesses of a single call are a race without others. -/
theorem run_alone (around : Surroundings) (n : Nat) (c : Call) (l : Lifecycle) :
    run fresh ⟨l, [c]⟩ (List.replicate n (.access 0 around)) =
      ⟨(Call.run around fresh n (c, l)).2, [(Call.run around fresh n (c, l)).1]⟩ := by
  induction n generalizing c l with
  | zero => rfl
  | succ n ih => exact ih _ _

/-- The three kinds of moves, with the calls before and after the one that makes its access; the
last case is an access of no call. -/
theorem move_cases (r : Race) (m : Move) :
    (∃ c, (c = .begin ∨ c = .halt) ∧ r.move fresh m = { r with calls := r.calls ++ [c] }) ∨
    (∃ around before c after, r.calls = before ++ c :: after ∧
      r.move fresh m = ⟨(c.step around fresh r.shared).2,
        before ++ (c.step around fresh r.shared).1 :: after⟩) ∨
    (∃ loop outcome,
      r.move fresh m = { r with shared := r.shared.onLoop loop fun t => t.fire outcome }) ∨
    r.move fresh m = r := by
  cases m with
  | start => exact Or.inl ⟨.begin, Or.inl rfl, rfl⟩
  | stop => exact Or.inl ⟨.halt, Or.inr rfl, rfl⟩
  | access i around =>
    simp only [move]
    split
    · next c there =>
      obtain ⟨inside, own⟩ := List.getElem?_eq_some_iff.mp there
      refine Or.inr (Or.inl ⟨around, r.calls.take i, c, r.calls.drop (i + 1), ?_, ?_⟩)
      · rw [← own, List.getElem_cons_drop, List.take_append_drop]
      · rw [List.set_eq_take_append_cons_drop, if_pos inside]
    · exact Or.inr (Or.inr (Or.inr rfl))
  | fire loop outcome => exact Or.inr (Or.inr (Or.inl ⟨loop, outcome, rfl⟩))

end Race

/-! ### Where calls stand -/

namespace Call

def isOver : Call → Bool
  | returned _ => true
  | _ => false

/-- The states that a stop goes through. -/
def isStop : Call → Bool
  | halt | find _ | ask _ | await _ | look _ | returned (some _) => true
  | _ => false

/-- A stop that has set the stopped flag, which is its first access. -/
def hasHalted (c : Call) : Bool := c.isStop && c != .halt

/-- A start that has set the running flag and has not spawned its loop yet. -/
def isClaiming : Call → Bool
  | spawn | giveUp => true
  | _ => false

/-- A call that is going to ask the loop to end, given that the node is stopped. A stop that looks
for the loop does only if it was published. -/
def isAsking (l : Lifecycle) : Call → Bool
  | publish _ | recheck _ | retract _ | ask _ => true
  | find true => l.published.isSome
  | _ => false

def loop? : Call → Option Nat
  | publish loop | recheck loop | retract loop | ask loop | await loop | look loop => some loop
  | _ => none

variable (around : Surroundings) (fresh : Ticker) (l : Lifecycle) (c : Call)

/-- The number of loops grows by one in `spawn`, and in no other access. -/
theorem length_loops_step :
    (step around fresh l c).2.loops.length =
      l.loops.length + if c = spawn ∧ around.spawns then 1 else 0 := by
  cases c <;> simp only [step] <;> (try split) <;>
    simp_all [Lifecycle.askLoop, Lifecycle.onLoop]

/-- No access turns a stop into a start, or back. -/
theorem isStop_step : (step around fresh l c).1.isStop = c.isStop := by
  cases c <;> simp only [step] <;> (try split) <;> (try split) <;> simp [isStop]

/-- After its first access, a stop has set `stopped`. -/
theorem stopped_of_hasHalted (h : (step around fresh l c).1.hasHalted = true)
    (before : c.hasHalted = true → l.stopped = true) :
    (step around fresh l c).2.stopped = true := by
  by_cases old : c.hasHalted = true
  · exact stopped_step around fresh l c (before old)
  · have kind := isStop_step around fresh l c
    cases c with
    | halt => rfl
    | _ => simp_all [hasHalted, isStop]

/-- Only the access `halt` sets `stopped`. -/
theorem eq_halt_of_stopped (before : ¬l.stopped = true)
    (after : (step around fresh l c).2.stopped = true) : c = halt := by
  cases c with
  | halt => rfl
  | _ =>
    refine absurd ?_ before
    simp only [step] at after
    first
    | exact after
    | split at after <;> exact after

/-- Only `claim` sets `running`, and only `giveUp` clears it. -/
theorem running_step :
    (step around fresh l c).2.running =
      match c with | claim => true | giveUp => false | _ => l.running := by
  cases c with
  | publish loop =>
    simp only [step]
    split <;> rfl
  | spawn =>
    simp only [step]
    split <;> rfl
  | find first =>
    simp only [step]
    split <;> rfl
  | _ => rfl

/-- The access `claim` claims if nobody runs; a `spawn` that fails goes on claiming. -/
theorem isClaiming_step :
    (step around fresh l c).1.isClaiming =
      match c with | claim => !l.running | spawn => !around.spawns | _ => false := by
  cases c <;> simp only [step] <;> (try split) <;> (try split) <;> simp_all [isClaiming]

/-- The sum of loops and claims is kept equal to the running flag, with the claims `rest` of the
other calls. -/
theorem claims_step (rest : Nat)
    (h : l.loops.length + c.isClaiming.toNat + rest = l.running.toNat) :
    (step around fresh l c).2.loops.length + (step around fresh l c).1.isClaiming.toNat + rest =
      (step around fresh l c).2.running.toNat := by
  rw [length_loops_step, running_step, isClaiming_step]
  have one := Bool.toNat_le l.running
  cases c with
  | claim => cases on : l.running <;> simp_all [isClaiming]
  | spawn =>
    cases works : around.spawns <;> simp_all [isClaiming]
  | giveUp =>
    simp only [isClaiming, Bool.toNat_true, Bool.toNat_false, reduceCtorEq, false_and,
      if_false] at h ⊢
    omega
  | _ => simpa [isClaiming] using h

/-- The published loop is the first that was published. -/
theorem published_step :
    (step around fresh l c).2.published =
      match c with | publish loop => l.published.or (some loop) | _ => l.published := by
  cases c <;> simp only [step] <;> (try split) <;>
    simp_all [Lifecycle.askLoop, Lifecycle.onLoop]

theorem published_cases {loop : Nat} (h : (step around fresh l c).2.published = some loop) :
    l.published = some loop ∨ c = publish loop := by
  rw [published_step] at h
  cases c with
  | publish own =>
    cases before : l.published with
    | none => exact Or.inr (congrArg publish (Option.some.inj (by simpa [before] using h)))
    | some found => exact Or.inl (by simpa [before] using h)
  | _ => exact Or.inl h

/-- The access that spawns the first loop goes on to publish it. -/
theorem publish_of_first (empty : l.loops = []) (spawned : (step around fresh l c).2.loops ≠ []) :
    ∃ loop, (step around fresh l c).1 = publish loop := by
  have size := length_loops_step around fresh l c
  by_cases new : c = spawn ∧ around.spawns = true
  · obtain ⟨rfl, works⟩ := new
    exact ⟨l.loops.length, by simp [step, works]⟩
  · rw [if_neg new, empty] at size
    exact absurd (List.length_eq_zero_iff.mp size) spawned

/-- A call gets its loop from its own spawn or from what was published. -/
theorem loop?_step {loop : Nat} (h : (step around fresh l c).1.loop? = some loop) :
    c.loop? = some loop ∨ l.published = some loop ∨
      (c = spawn ∧ around.spawns = true ∧ loop = l.loops.length) := by
  cases c <;> simp only [step] at h <;> (try split at h) <;> (try split at h) <;>
    simp_all [loop?]

end Call

/-! ### Loops that were asked to end -/

namespace Lifecycle

def Asked (l : Lifecycle) : Prop := ∀ t ∈ l.loops, t.stopping = true

theorem Asked.onLoop {l : Lifecycle} (h : l.Asked) (loop : Nat) {f : Ticker → Ticker}
    (kept : ∀ t, t.stopping = true → (f t).stopping = true) : (l.onLoop loop f).Asked := by
  intro t ht
  obtain ⟨i, inside, rfl⟩ := List.mem_iff_getElem.mp ht
  simp only [Lifecycle.onLoop, List.length_modify] at inside
  simp only [Lifecycle.onLoop, List.getElem_modify]
  have before := h _ (List.getElem_mem inside)
  split
  · exact kept _ before
  · exact before

/-- With at most one loop, asking it is asking all. -/
theorem asked_askLoop {l : Lifecycle} (single : l.loops.length ≤ 1) {loop : Nat}
    (there : loop < l.loops.length) : (l.askLoop loop).Asked := by
  obtain ⟨t, only⟩ := List.length_eq_one_iff.mp (by omega : l.loops.length = 1)
  have first : loop = 0 := by omega
  subst first
  simp [Asked, askLoop, Lifecycle.onLoop, only]

end Lifecycle

namespace Call

variable (around : Surroundings) (fresh : Ticker) {l : Lifecycle} {c : Call}

/-- If all loops were asked, they still are after an access, or the access has spawned one and goes
on to look at the stopped flag. -/
theorem asked_step (h : l.Asked) :
    (step around fresh l c).2.Asked ∨
      (step around fresh l c).1.isAsking (step around fresh l c).2 = true := by
  have asked (loop : Nat) : (l.askLoop loop).Asked := h.onLoop loop fun _ _ => rfl
  cases c with
  | spawn =>
    simp only [step]
    split
    · exact Or.inr rfl
    · exact Or.inl h
  | publish loop =>
    simp only [step]
    split
    · exact Or.inl h
    · exact Or.inl (asked loop)
  | retract loop => exact Or.inl (asked loop)
  | find first =>
    simp only [step]
    split <;> exact Or.inl h
  | ask loop => exact Or.inl (asked loop)
  | await loop => exact Or.inl (h.onLoop loop fun _ _ => rfl)
  | _ => exact Or.inl h

/-- A call that is going to ask has asked after its access, or is still going to. -/
theorem isAsking_step (stopped : l.stopped = true) (single : l.loops.length ≤ 1)
    (own : ∀ loop, c.loop? = some loop → loop < l.loops.length) (h : c.isAsking l = true) :
    (step around fresh l c).2.Asked ∨
      (step around fresh l c).1.isAsking (step around fresh l c).2 = true := by
  cases c with
  | publish loop =>
    simp only [step]
    split <;> exact Or.inr rfl
  | recheck loop =>
    simp only [step, if_pos stopped]
    exact Or.inr rfl
  | retract loop => exact Or.inl (Lifecycle.asked_askLoop single (own loop rfl))
  | find first =>
    cases first with
    | false => exact absurd h Bool.false_ne_true
    | true =>
      obtain ⟨loop, found⟩ := Option.isSome_iff_exists.mp h
      simp only [step, found]
      exact Or.inr rfl
  | ask loop => exact Or.inl (Lifecycle.asked_askLoop single (own loop rfl))
  | _ => exact absurd h Bool.false_ne_true

/-- A loop that is published meanwhile only helps a stop that looks for it. -/
theorem isAsking_mono {l' : Lifecycle} (published : l.published.isSome = true →
    l'.published.isSome = true) (h : c.isAsking l = true) : c.isAsking l' = true := by
  cases c with
  | find first =>
    cases first with
    | false => exact h
    | true => exact published h
  | _ => exact h

end Call

/-! ### What is true of every race -/

namespace Race

/-- The invariant of races. `claimed` gives at most one loop, `hidden` and `heard` that no loop
escapes a stop. -/
structure Sound (r : Race) : Prop where
  /-- The running flag stands for a loop, or for a start that is about to spawn one. -/
  claimed : r.shared.loops.length + r.calls.countP Call.isClaiming = r.shared.running.toNat
  halted : ∀ c ∈ r.calls, c.hasHalted = true → r.shared.stopped = true
  held : ∀ c ∈ r.calls, ∀ loop, c.loop? = some loop → loop < r.shared.loops.length
  known : ∀ loop, r.shared.published = some loop → loop < r.shared.loops.length
  /-- A loop that no stop can find yet is about to be published. -/
  hidden : r.shared.published = none → r.shared.loops ≠ [] → ∃ loop, .publish loop ∈ r.calls
  /-- Once the node is stopped, every loop was asked to end, or somebody is going to ask. -/
  heard : r.shared.stopped = true → r.shared.Asked ∨ ∃ c ∈ r.calls, c.isAsking r.shared = true

variable {r : Race} (fresh : Ticker)

theorem sound_empty : Sound {} where
  claimed := rfl
  halted := nofun
  held := nofun
  known := nofun
  hidden _ h := absurd rfl h
  heard h := absurd h Bool.false_ne_true

namespace Sound

/-- The running flag counts one at most, so there is at most one loop. -/
theorem single (h : r.Sound) : r.shared.loops.length ≤ 1 := by
  have claimed := h.claimed
  have one := Bool.toNat_le r.shared.running
  omega

/-- A new call has made no access. -/
theorem join (h : r.Sound) {c : Call} (new : c = .begin ∨ c = .halt) :
    Sound { r with calls := r.calls ++ [c] } := by
  have idle : c.isClaiming = false ∧ c.hasHalted = false ∧ c.loop? = none := by
    rcases new with rfl | rfl <;> exact ⟨rfl, by decide, rfl⟩
  obtain ⟨claiming, halted, loop⟩ := idle
  refine ⟨?_, ?_, ?_, h.known, ?_, ?_⟩
  · rw [List.countP_append, List.countP_singleton, claiming]
    exact h.claimed
  · intro d hd ended
    rcases List.mem_append.mp hd with old | last
    · exact h.halted d old ended
    · rw [List.mem_singleton.mp last, halted] at ended
      exact absurd ended Bool.false_ne_true
  · intro d hd k own
    rcases List.mem_append.mp hd with old | last
    · exact h.held d old k own
    · rw [List.mem_singleton.mp last, loop] at own
      exact absurd own.symm (Option.some_ne_none k)
  · intro unseen spawned
    obtain ⟨k, there⟩ := h.hidden unseen spawned
    exact ⟨k, List.mem_append_left _ there⟩
  · intro stopped
    refine (h.heard stopped).imp_right ?_
    rintro ⟨d, there, asking⟩
    exact ⟨d, List.mem_append_left _ there, asking⟩

/-- A loop that lives through a period keeps its latch. -/
theorem fire (h : r.Sound) (loop : Nat) (outcome : RunEnd) :
    Sound { r with shared := r.shared.onLoop loop fun t => t.fire outcome } := by
  have kept (t : Ticker) (asked : t.stopping = true) : (t.fire outcome).stopping = true := by
    unfold Ticker.fire
    rw [if_pos asked]
    split <;> exact asked
  have size : (r.shared.onLoop loop fun t => t.fire outcome).loops.length =
      r.shared.loops.length := List.length_modify ..
  refine ⟨?_, h.halted, ?_, ?_, ?_, ?_⟩
  · rw [size]
    exact h.claimed
  · rw [size]
    exact h.held
  · rw [size]
    exact h.known
  · intro unseen spawned
    refine h.hidden unseen fun empty => spawned ?_
    rw [← List.length_eq_zero_iff, size, empty, List.length_nil]
  · intro stopped
    exact (h.heard stopped).imp_left fun asked => asked.onLoop loop kept

/-- The invariant does not depend on the order of the calls. -/
theorem perm {l : Lifecycle} {calls calls' : List Call} (same : calls.Perm calls')
    (h : Sound ⟨l, calls⟩) : Sound ⟨l, calls'⟩ where
  claimed := same.countP_eq Call.isClaiming ▸ h.claimed
  halted c hc := h.halted c (same.mem_iff.mpr hc)
  held c hc := h.held c (same.mem_iff.mpr hc)
  known := h.known
  hidden unseen spawned := (h.hidden unseen spawned).imp fun _ there => same.mem_iff.mp there
  heard stopped := (h.heard stopped).imp_right fun ⟨c, there, asking⟩ =>
    ⟨c, same.mem_iff.mp there, asking⟩

/-- An access of the first call keeps the invariant. Each field is one of the step lemmas above. -/
theorem access (around : Surroundings) {l : Lifecycle} {c : Call} {others : List Call}
    (h : Sound ⟨l, c :: others⟩) :
    Sound ⟨(c.step around fresh l).2, (c.step around fresh l).1 :: others⟩ := by
  have size := Call.length_loops_step around fresh l c
  have found := Call.published_step around fresh l c
  have own := h.held c List.mem_cons_self
  have shown : l.published.isSome = true → (c.step around fresh l).2.published.isSome = true := by
    intro before
    rw [found]
    cases c <;> simp_all
  refine ⟨?claimed, ?halted, ?held, ?known, ?hidden, ?heard⟩
  case claimed =>
    have claimed := h.claimed
    have claims := Call.claims_step around fresh l c (others.countP Call.isClaiming)
    have counts (b : Bool) : b.toNat = if b then 1 else 0 := by cases b <;> rfl
    simp only [List.countP_cons, counts] at claimed claims ⊢
    omega
  case halted =>
    intro d hd ended
    rcases List.mem_cons.mp hd with rfl | old
    · exact Call.stopped_of_hasHalted around fresh l c ended (h.halted c List.mem_cons_self)
    · exact Call.stopped_step around fresh l c (h.halted d (List.mem_cons_of_mem c old) ended)
  case held =>
    intro d hd loop its
    rw [size]
    rcases List.mem_cons.mp hd with rfl | old
    · rcases Call.loop?_step around fresh l c its with before | published | ⟨rfl, spawned, rfl⟩
      · exact Nat.lt_add_right _ (own loop before)
      · exact Nat.lt_add_right _ (h.known loop published)
      · rw [if_pos ⟨rfl, spawned⟩]
        exact Nat.lt_succ_self _
    · exact Nat.lt_add_right _ (h.held d (List.mem_cons_of_mem c old) loop its)
  case known =>
    intro loop its
    rw [size]
    rcases Call.published_cases around fresh l c its with before | rfl
    · exact Nat.lt_add_right _ (h.known loop before)
    · exact Nat.lt_add_right _ (own loop rfl)
  case hidden =>
    intro unseen spawned
    have before : l.published = none := by
      rw [← Option.not_isSome_iff_eq_none]
      intro seen
      exact absurd unseen (Option.isSome_iff_ne_none.mp (shown seen))
    by_cases empty : l.loops = []
    · obtain ⟨loop, new⟩ := Call.publish_of_first around fresh l c empty spawned
      exact ⟨loop, new ▸ List.mem_cons_self⟩
    · obtain ⟨loop, there⟩ := h.hidden before empty
      rcases List.mem_cons.mp there with rfl | old
      · rw [found, before] at unseen
        exact absurd unseen (Option.some_ne_none loop)
      · exact ⟨loop, List.mem_cons_of_mem _ old⟩
  case heard =>
    intro after
    by_cases before : l.stopped = true
    · rcases h.heard before with asked | ⟨d, there, asking⟩
      · refine (Call.asked_step around fresh asked).imp_right ?_
        exact fun still => ⟨_, List.mem_cons_self, still⟩
      · rcases List.mem_cons.mp there with rfl | old
        · refine (Call.isAsking_step around fresh before h.single own asking).imp_right ?_
          exact fun still => ⟨_, List.mem_cons_self, still⟩
        · exact Or.inr ⟨d, List.mem_cons_of_mem _ old, Call.isAsking_mono shown asking⟩
    · obtain rfl := Call.eq_halt_of_stopped around fresh l c before after
      -- The first stop finds the loop, unless there is none or its start will look at the flag.
      cases seen : l.published with
      | some loop =>
        refine Or.inr ⟨_, List.mem_cons_self, ?_⟩
        simp [Call.step, Call.isAsking, before, seen]
      | none =>
        by_cases empty : l.loops = []
        · refine Or.inl fun t there => ?_
          exact absurd (empty ▸ there) List.not_mem_nil
        · obtain ⟨loop, there⟩ := h.hidden seen empty
          have old := List.mem_of_ne_of_mem Call.noConfusion there
          exact Or.inr ⟨.publish loop, List.mem_cons_of_mem _ old, rfl⟩

/-- A move is an access of some call, up to the order of the calls, or one of the simple cases. -/
theorem move (h : r.Sound) (m : Move) : (r.move fresh m).Sound := by
  rcases move_cases fresh r m with ⟨c, new, same⟩ | ⟨around, before, c, after, there, same⟩ |
    ⟨loop, outcome, same⟩ | same
  · exact same ▸ h.join new
  · have first : Sound ⟨r.shared, c :: (before ++ after)⟩ := by
      refine perm List.perm_middle ?_
      rw [← there]
      exact h
    exact same ▸ perm List.perm_middle.symm (first.access fresh around)
  · exact same ▸ h.fire loop outcome
  · rw [same]
    exact h

/-- Induction on the moves. -/
theorem run (h : r.Sound) (moves : List Move) : (r.run fresh moves).Sound := by
  induction moves generalizing r with
  | nil => exact h
  | cons m moves ih => exact ih (h.move fresh m)

/-- When all calls are over nobody is asking, so `heard` says that every loop was asked. -/
theorem asked_of_over (h : r.Sound) (ended : ∀ c ∈ r.calls, c.isOver = true)
    (halted : ∃ c ∈ r.calls, c.isStop = true) : r.shared.Asked := by
  obtain ⟨c, there, stop⟩ := halted
  have stopped : r.shared.stopped = true := by
    refine h.halted c there ?_
    have done := ended c there
    cases c <;> simp_all [Call.hasHalted, Call.isOver]
  refine (h.heard stopped).resolve_right ?_
  rintro ⟨d, inside, asking⟩
  have done := ended d inside
  cases d <;> simp_all [Call.isAsking, Call.isOver]

end Sound

/-! ### Whole races -/

theorem run_append (r : Race) (moves more : List Move) :
    r.run fresh (moves ++ more) = (r.run fresh moves).run fresh more := List.foldl_append

/-- The loops are those that moves have spawned. -/
theorem length_loops_move (m : Move) :
    (r.move fresh m).shared.loops.length = r.shared.loops.length + r.spawns m := by
  cases m with
  | access i around =>
    simp only [move, spawns]
    split
    · next c there =>
      simp only [Call.length_loops_step, there, Option.some_inj]
    · next missing => simp [missing]
  | fire loop outcome => exact List.length_modify ..
  | _ => rfl

theorem length_loops_run (moves : List Move) :
    (r.run fresh moves).shared.loops.length = r.shared.loops.length + r.spawned fresh moves := by
  induction moves generalizing r with
  | nil => rfl
  | cons m moves ih =>
    have next := length_loops_move (r := r) fresh m
    have rest : ((r.move fresh m).run fresh moves).shared.loops.length = _ := ih
    simp only [run, List.foldl_cons, spawned] at rest ⊢
    omega

/-- A stop that is among the calls stays there as a stop. -/
theorem exists_isStop_move (h : ∃ c ∈ r.calls, c.isStop = true) (m : Move) :
    ∃ c ∈ (r.move fresh m).calls, c.isStop = true := by
  obtain ⟨d, there, stop⟩ := h
  rcases move_cases fresh r m with ⟨c, _, same⟩ | ⟨around, before, c, after, split, same⟩ |
    ⟨loop, outcome, same⟩ | same
  · exact same ▸ ⟨d, List.mem_append_left _ there, stop⟩
  · rw [same]
    rw [split, List.mem_append, List.mem_cons] at there
    rcases there with front | rfl | back
    · exact ⟨d, List.mem_append_left _ front, stop⟩
    · refine ⟨_, List.mem_append_right _ List.mem_cons_self, ?_⟩
      rw [Call.isStop_step]
      exact stop
    · exact ⟨d, List.mem_append_right _ (List.mem_cons_of_mem _ back), stop⟩
  · exact same ▸ ⟨d, there, stop⟩
  · rw [same]
    exact ⟨d, there, stop⟩

theorem exists_isStop_run (h : ∃ c ∈ r.calls, c.isStop = true) (moves : List Move) :
    ∃ c ∈ (r.run fresh moves).calls, c.isStop = true := by
  induction moves generalizing r with
  | nil => exact h
  | cons m moves ih => exact ih (exists_isStop_move fresh h m)

theorem exists_isStop_of_mem {moves : List Move} (h : .stop ∈ moves) :
    ∃ c ∈ (r.run fresh moves).calls, c.isStop = true := by
  obtain ⟨before, after, rfl⟩ := List.append_of_mem h
  rw [run_append]
  refine exists_isStop_run fresh (r := (r.run fresh before).move fresh .stop) ?_ after
  exact ⟨.halt, List.mem_append_right _ List.mem_cons_self, rfl⟩

/-- The stopped flag is never cleared. -/
theorem stopped_move (h : r.shared.stopped = true) (m : Move) :
    (r.move fresh m).shared.stopped = true := by
  rcases move_cases fresh r m with ⟨c, _, same⟩ | ⟨around, before, c, after, split, same⟩ |
    ⟨loop, outcome, same⟩ | same
  · exact same ▸ h
  · exact same ▸ Call.stopped_step around fresh r.shared c h
  · exact same ▸ h
  · rw [same]
    exact h

theorem stopped_run (h : r.shared.stopped = true) (moves : List Move) :
    (r.run fresh moves).shared.stopped = true := by
  induction moves generalizing r with
  | nil => exact h
  | cons m moves ih => exact ih (stopped_move fresh h m)

/-- For every list of moves from the empty race: at most one loop is spawned; if a stop is among the
moves and all calls are over, none was spawned or the one there is has `stopping = true`; and after
the first access of any stop, `stopped` holds and `isRunning` does not. -/
theorem one_loop_that_stops_reach (moves : List Move) :
    let r := run fresh {} moves
    spawned fresh {} moves ≤ 1 ∧
    (.stop ∈ moves → (∀ c ∈ r.calls, c.isOver = true) →
      spawned fresh {} moves = 0 ∨ ∃ t, r.shared.loops = [t] ∧ t.stopping = true) ∧
    ∀ before i around after, moves = before ++ .access i around :: after →
      (run fresh {} before).calls[i]? = some .halt →
        r.shared.stopped = true ∧ r.shared.isRunning = false := by
  intro r
  have sound : r.Sound := sound_empty.run fresh moves
  have loops : r.shared.loops.length = spawned fresh {} moves := by
    have all := length_loops_run (r := {}) fresh moves
    rwa [List.length_nil, Nat.zero_add] at all
  have single := loops ▸ sound.single
  refine ⟨single, ?_, ?_⟩
  · intro stop ended
    have asked := sound.asked_of_over ended (exists_isStop_of_mem fresh stop)
    rcases Nat.le_one_iff_eq_zero_or_eq_one.mp single with never | one
    · exact Or.inl never
    · obtain ⟨t, only⟩ := List.length_eq_one_iff.mp (loops.trans one)
      exact Or.inr ⟨t, only, asked t (only ▸ List.mem_singleton_self t)⟩
  · rintro before i around after rfl halt
    have swap : ((run fresh {} before).move fresh (.access i around)).shared.stopped = true := by
      simp only [Race.move, halt]
      rfl
    have stopped : r.shared.stopped = true := by
      have later := stopped_run fresh swap after
      rwa [show r = _ from run_append fresh {} before _]
    exact ⟨stopped, by simp [Lifecycle.isRunning, stopped]⟩

/-- Two starts and a stop, up to where the first start has spawned a loop that is not published
yet. -/
def unpublished : List Move := [.start, .start, .stop,
  .access 0 {}, .access 1 {}, .access 0 {}, .access 1 {}, .access 0 {}]

/-- The stop finds no loop and returns; the start publishes its own and looks at the stopped flag
once more. -/
def late : List Move := [.access 2 {}, .access 0 {}, .access 0 {}, .access 0 {}]

/-- The start asks the loop to end that the stop has missed, and the stop has returned `true`. -/
theorem one_loop_that_stops_missed :
    let r := run Lifecycle.idle {} (unpublished ++ .access 2 {} :: late)
    r.calls = [.returned none, .returned none, .returned (some true)] ∧
    spawned Lifecycle.idle {} (unpublished ++ .access 2 {} :: late) = 1 ∧
    (∃ t, r.shared.loops = [t] ∧ t.stopping = true) ∧ r.shared.isRunning = false := by
  obtain ⟨-, ends, halted⟩ :=
    one_loop_that_stops_reach Lifecycle.idle (unpublished ++ .access 2 {} :: late)
  have spawned : spawned Lifecycle.idle {} (unpublished ++ .access 2 {} :: late) = 1 := by decide
  have loop := ends (by simp [unpublished]) (by decide)
  exact ⟨by decide, spawned, loop.resolve_left (spawned ▸ Nat.one_ne_zero),
    (halted unpublished 2 {} late rfl (by decide)).2⟩

end Race

end CellWorld
