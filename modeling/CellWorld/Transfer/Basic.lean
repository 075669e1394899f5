import CellWorld.Entity

/-!
# Moving a player to another node

The node that a player leaves mints a token and keeps a grant under it. The node that the player
joins is shown the token together with the player, and answers.

* `Payload` — what travels with a player; `Player.payload` — the payload of a player that leaves now
* `Grant` — what a token stands for, and until when: `Grant.Expired g now` is `g.expiresAt < now`
* `Request`, `Reply` — the two messages
* `Rejection`, `Fault` — why a token is refused, and why there is no answer at all
* `Issuer σ α` — whoever mints tokens for a node, with a state `σ` of its own

A loadout, a connection and the record of a move do not travel. How a token comes to the node that
is meant to redeem it is not modelled: a grant stays with the node that minted it.
-/

namespace CellWorld

structure Payload (α : Type) where
  id : String
  name : String
  pos : Point α
  vel : Point α
  yaw : α
  ownedCell : Cell
  prevCell : Option Cell := none
  lastSeq : UInt64 := 0
deriving DecidableEq

def Player.payload {α : Type} (p : Player α) : Payload α where
  id := p.id
  name := p.name
  pos := p.pos
  vel := p.vel
  yaw := p.yaw
  ownedCell := p.ownedCell
  prevCell := p.prevCell
  lastSeq := p.lastSeq

/-- What a token stands for: one player may join one node, once, until the grant expires. -/
structure Grant (α : Type) where
  player : String
  /-- The node that minted the token. -/
  origin : String
  /-- The node that may redeem it. -/
  destination : String
  fromCell : Cell
  toCell : Cell
  payload : Payload α
  issuedAt : Time
  expiresAt : Time
deriving DecidableEq

/-- How long a token can be redeemed. -/
def Grant.lifetime : Span := Span.ofSeconds 30

/-- Whether a grant is past its last instant. -/
def Grant.Expired {α : Type} (g : Grant α) (now : Time) : Prop := g.expiresAt < now

instance {α : Type} (g : Grant α) (now : Time) : Decidable (g.Expired now) :=
  inferInstanceAs (Decidable (_ < _))

/-- A token with the grant that is kept under it. -/
structure Issued (α : Type) where
  token : String
  grant : Grant α
deriving DecidableEq

/-! ### Messages -/

/-- A player that asks to be admitted. -/
structure Request (α : Type) where
  token : String
  payload : Payload α
deriving DecidableEq

/-- The answer of the other node. A refusal is an answer too. -/
structure Reply where
  success : Bool
  /-- Why the player is refused. -/
  error : String := ""
  /-- Where the player's client connects next. -/
  reconnectUrl : String := ""
  /-- What the client shows when it does. -/
  resumeToken : String := ""
deriving DecidableEq

namespace Reply

def accepted (reconnectUrl resumeToken : String) : Reply :=
  { success := true, reconnectUrl, resumeToken }

def refused (error : String) : Reply := { success := false, error }

end Reply

/-! ### Failures -/

inductive Rejection where
  | notFound
  | expired
  | wrongNode (expected actual : String)
deriving DecidableEq

def Rejection.message : Rejection → String
  | .notFound => "token not found"
  | .expired => "token expired"
  | .wrongNode expected actual =>
    "token issued for node " ++ expected ++ ", presented to " ++ actual

/-- Why a node cannot answer: it has no token to give. -/
structure Fault where
  cause : String
deriving DecidableEq

def Fault.message (f : Fault) : String := "generating random token: " ++ f.cause

/-! ### Minting -/

/-- Whoever mints tokens for a node, as a function of the player, the node and the cell it moves to;
`σ` is what the minting changes. -/
def Issuer (σ α : Type) : Type := Payload α → String → Cell → σ → Except Fault String × σ

end CellWorld
