import Std.Data.TreeMap
import CellWorld.Transfer.Basic

/-!
# The gateway of a node

A gateway mints tokens for players that leave and redeems the tokens of players that join. A token
can be redeemed once, by the node and the player it was minted for, for as long as its grant lasts.

* `TokenSource` — the outcome of each draw, and how many were made; a draw may fail
* `Gateway` — the grants that are kept, by token
* `Gateway.initiate g p target cell now` — mints a token that lasts until `now.after Grant.lifetime`
* `Gateway.check` — looks a token up, and forgets it if it has expired
* `Gateway.accept` — redeems a token
* `Gateway.sweep` — forgets everything that has expired
* `Gateway.issuer clock` — the gateway as an `Issuer`; the `n`-th draw is dated `clock n`
* `Gateway.nodeId_check`, `Gateway.grants_check` — what a lookup leaves alone

Two draws may give the same token; that they do not is a hypothesis where it matters.
-/

namespace CellWorld

/-- Where new tokens come from: the outcome of each draw, and how many were made. -/
structure TokenSource where
  outcome : Nat → Except String String
  drawn : Nat := 0

namespace TokenSource

def tokenBytes : Nat := 16

def hexByte (b : UInt8) : List Char :=
  [Nat.digitChar (b.toNat / 16), Nat.digitChar (b.toNat % 16)]

/-- Tokens made of random bytes, for the draws from the `first` one on; there are no others. -/
def ofBytes (first : Nat) (bytes : List UInt8) : TokenSource where
  outcome n :=
    let own := (bytes.drop ((n - first) * tokenBytes)).take tokenBytes
    if n < first ∨ own.length < tokenBytes then .error "out of random bytes"
    else .ok (String.ofList (own.flatMap hexByte))
  drawn := first

/-- The next token, or why there is none. -/
def draw (s : TokenSource) : Except Fault String × TokenSource :=
  ((s.outcome s.drawn).mapError Fault.mk, { s with drawn := s.drawn + 1 })

end TokenSource

/-- The grants of a node, and where it sends the clients of players that join. -/
structure Gateway (α : Type) where
  nodeId : String
  /-- The host that clients are sent to. -/
  publicHost : String := "localhost"
  port : UInt16
  tokens : TokenSource
  /-- The grants that can still be redeemed or have not been noticed to be expired. -/
  grants : Std.TreeMap String (Grant α) := {}

namespace Gateway

variable {α : Type}

/-- The gateway with other bytes to make tokens of. Draws are counted on. -/
def refill (g : Gateway α) (bytes : List UInt8) : Gateway α :=
  { g with tokens := .ofBytes g.tokens.drawn bytes }

def reconnectUrl (g : Gateway α) : String :=
  "ws://" ++ g.publicHost ++ ":" ++ toString g.port.toNat ++ "/ws"

def tokenCount (g : Gateway α) : Nat := g.grants.size

/-- The grant of a token that is minted at `now`. -/
def grantFor (g : Gateway α) (p : Payload α) (target : String) (cell : Cell) (now : Time) :
    Grant α where
  player := p.id
  origin := g.nodeId
  destination := target
  fromCell := p.ownedCell
  toCell := cell
  payload := p
  issuedAt := now
  expiresAt := now.after Grant.lifetime

/-- Mints a token for a player that moves to `cell`, a cell of the node `target`. -/
def initiate (g : Gateway α) (p : Payload α) (target : String) (cell : Cell) (now : Time) :
    Except Fault (Issued α) × Gateway α :=
  match g.tokens.draw with
  | (.error fault, tokens) => (.error fault, { g with tokens })
  | (.ok token, tokens) =>
    let grant := g.grantFor p target cell now
    (.ok ⟨token, grant⟩, { g with tokens, grants := g.grants.insert token grant })

def forget (g : Gateway α) (token : String) : Gateway α :=
  { g with grants := g.grants.erase token }

/-- Looks a token up on behalf of this node. An expired one is forgotten. -/
def check (g : Gateway α) (token : String) (now : Time) :
    Except Rejection (Grant α) × Gateway α :=
  match g.grants[token]? with
  | none => (.error .notFound, g)
  | some grant =>
    if grant.Expired now then (.error .expired, g.forget token)
    else if grant.destination ≠ g.nodeId then
      (.error (.wrongNode grant.destination g.nodeId), g)
    else (.ok grant, g)

/-- What a refused player is told. -/
def refusal : Rejection → Reply
  | .wrongNode _ _ => .refused "handover token not intended for this node"
  | r => .refused ("invalid handover token: " ++ r.message)

/-- Redeems a token. Only a success uses it up; the token that the client will show is drawn first,
so a failed draw leaves the grants alone. -/
def accept (g : Gateway α) (r : Request α) (now : Time) : Except Fault Reply × Gateway α :=
  match g.tokens.draw with
  | (.error fault, tokens) => (.error fault, { g with tokens })
  | (.ok resumeToken, tokens) =>
    match { g with tokens }.check r.token now with
    | (.error rejection, g) => (.ok (refusal rejection), g)
    | (.ok grant, g) =>
      if grant.player = r.payload.id then
        (.ok (.accepted g.reconnectUrl resumeToken), g.forget r.token)
      else (.ok (.refused "invalid handover token: issued for a different player"), g)

/-- Forgets every grant that has expired, and counts them. -/
def sweep (g : Gateway α) (now : Time) : Nat × Gateway α :=
  let grants := g.grants.filter fun _ grant => !decide (grant.Expired now)
  (g.grants.size - grants.size, { g with grants })

/-- The gateway as the one who mints tokens, with a clock of its own: the `n`-th draw of its token
source dates the token at `clock n`, whatever the time of the step that asks for it. -/
def issuer (clock : Nat → Time) : Issuer (Gateway α) α := fun p target cell g =>
  match g.initiate p target cell (clock g.tokens.drawn) with
  | (.ok issued, g) => (.ok issued.token, g)
  | (.error fault, g) => (.error fault, g)

/-! ### What the operations leave alone -/

theorem nodeId_check (g : Gateway α) (token : String) (now : Time) :
    (g.check token now).2.nodeId = g.nodeId := by
  unfold check forget
  split
  · rfl
  · split
    · rfl
    · split <;> rfl

theorem grants_check (g : Gateway α) (token : String) (now : Time) :
    (g.check token now).2.grants =
      if (g.grants[token]?.any fun grant => decide (grant.Expired now)) then g.grants.erase token
      else g.grants := by
  unfold check forget
  split
  · next h => simp [h]
  · next grant h =>
    simp only [h, Option.any_some, decide_eq_true_eq]
    split
    · rfl
    · split <;> rfl

end Gateway

end CellWorld
