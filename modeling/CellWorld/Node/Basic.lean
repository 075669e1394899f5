import CellWorld.Engine
import CellWorld.Transfer.Gateway

/-!
# A node

* `Link` — who mints the tokens of players that leave
* `Node` — a simulation with a gateway
* `Node.install` — chooses who mints those tokens
* `Node.acceptTransfer` — a player that comes from another node
* `Node.step n now clock dt`, `Node.steps` — steps of time with the tokens that they mint
* `Node.beat` — what the loop does once a period

A step reads the time once, as `now`, before it looks at any player; every move that it starts is
dated `now`. The gateway reads the time again for every token that it draws, as `clock n` for its
`n`-th draw. Nothing is assumed of the two: what follows when they differ is in `Proofs.Deadlines`.
`Node.steps` has one `now` for all its steps; steps at times of their own are single steps one after
another, as in `Host.run`.
-/

namespace CellWorld

/-- Who mints the tokens of players that leave a node. -/
inductive Link (α : Type) where
  /-- Nobody; such players stay. -/
  | none
  /-- The gateway of the node itself. -/
  | own
  /-- A gateway of its own. -/
  | apart (gateway : Gateway α)

/-- A simulation with the gateway that players come and go through. -/
structure Node (α : Type) where
  engine : Engine α
  gateway : Gateway α
  link : Link α := .none
  /-- How many players were given a name here: at most one a request, so below `2 ^ 64` for as long
  as fewer than `2 ^ 64` requests were answered. -/
  spawned : Nat := 0
  /-- What the reader of documents says of a body that holds no request. It ends the answer and
  decides nothing. -/
  objection : List UInt8 → String := fun _ => ""

namespace Node

variable {α : Type}

/-- Chooses who mints the tokens of players that leave. Who does can be replaced and not taken away,
so choosing nobody changes nothing. -/
def install (n : Node α) : Link α → Node α
  | .none => n
  | link => { n with link }

theorem link_install_eq_none_iff (n : Node α) (l : Link α) :
    (n.install l).link = .none ↔ n.link = .none ∧ l = .none := by
  cases l <;> simp [install]

theorem engine_install (n : Node α) (l : Link α) : (n.install l).engine = n.engine := by
  cases l <;> rfl

/-- Takes in the player of a request if its token is good. -/
def acceptTransfer [Scalar α] (n : Node α) (r : Request α) (now : Time) :
    Except Fault Reply × Node α :=
  let (reply, gateway) := n.gateway.accept r now
  let n := { n with gateway }
  match reply with
  | .ok answer =>
    if answer.success then (reply, { n with engine := (n.engine.receive r.payload).2 })
    else (reply, n)
  | .error _ => (reply, n)

variable [Angular α]

/-- Takes `count` steps of length `dt` that all read the time `now`. The gateway that mints reads a
clock of its own: it dates the token of its `n`-th draw `clock n`. -/
def steps (n : Node α) (now : Time) (clock : Nat → Time) (dt : Span) (count : Nat) :
    StepEnd × Node α :=
  match n.link with
  | .none =>
    let s := n.engine.steps (σ := Unit) .none now dt count ()
    (s.ended, { n with engine := s.engine })
  | .own =>
    let s := n.engine.steps (some (Gateway.issuer clock)) now dt count n.gateway
    (s.ended, { n with engine := s.engine, gateway := s.source })
  | .apart gateway =>
    let s := n.engine.steps (some (Gateway.issuer clock)) now dt count gateway
    (s.ended, { n with engine := s.engine, link := .apart s.source })

/-- A single step: `n.steps now clock dt 1`. -/
def step (n : Node α) (now : Time) (clock : Nat → Time) (dt : Span) : StepEnd × Node α :=
  n.steps now clock dt 1

/-- What the loop does once a period, at `instant` of the steady clock and with a snapshot due at
`due`; `now` and `clock` are as in `Node.steps`. -/
def beat (n : Node α) (now : Time) (clock : Nat → Time) (instant due : Time) :
    StepEnd × Time × Node α :=
  match n.link with
  | .none =>
    let (s, due) := n.engine.beat (σ := Unit) .none now instant due ()
    (s.ended, due, { n with engine := s.engine })
  | .own =>
    let (s, due) := n.engine.beat (some (Gateway.issuer clock)) now instant due n.gateway
    (s.ended, due, { n with engine := s.engine, gateway := s.source })
  | .apart gateway =>
    let (s, due) := n.engine.beat (some (Gateway.issuer clock)) now instant due gateway
    (s.ended, due, { n with engine := s.engine, link := .apart s.source })

end Node

end CellWorld
