import CellWorld.Transfer.Peer

/-!
# Messages on the wire

A node is asked over one connection that is closed after the answer.

* `Post.message` — the bytes that are sent: head, empty line, document
* `Delivery.ofMessage` — what the bytes that came back say; a body may come in pieces
* `cutLine?_shorter` — what `cutHead?` and `joinPieces` end by

That a node reads from `Post.message` what was posted is not proved: the server that reads it is
outside. `Proofs.Exchange` begins where the body has arrived.
-/

namespace CellWorld

def lineEnd : List UInt8 := [13, 10]

/-- The bytes that are sent: a head, an empty line and the document. -/
def Post.message (p : Post) : List UInt8 :=
  let body := Text.Utf8.encode p.body
  let lines := [
    "POST " ++ p.path ++ " HTTP/1.1",
    "Host: " ++ p.target.address ++ ":" ++ toString p.target.port.toNat,
    "Content-Type: " ++ p.contentType,
    "Content-Length: " ++ toString body.length,
    "Connection: close"]
  lines.flatMap (fun l => Text.Utf8.encode l ++ lineEnd) ++ lineEnd ++ body

namespace Delivery

/-- The bytes up to a line end, and those behind it; none if there is no line end. -/
def cutLine? : List UInt8 → Option (List UInt8 × List UInt8)
  | 13 :: 10 :: rest => some ([], rest)
  | b :: rest => (cutLine? rest).map fun (line, rest) => (b :: line, rest)
  | [] => none

theorem cutLine?_shorter {bytes line rest : List UInt8} (h : cutLine? bytes = some (line, rest)) :
    rest.length < bytes.length := by
  induction bytes generalizing line with
  | nil => exact absurd h (by simp [cutLine?])
  | cons b bs ih =>
    rw [cutLine?.eq_def] at h
    split at h
    · next tail heq =>
      obtain ⟨-, rfl⟩ := Prod.mk.inj (Option.some.inj h)
      rw [heq, List.length_cons, List.length_cons]
      omega
    · next tail _ heq =>
      obtain ⟨rfl, rfl⟩ := List.cons.inj heq
      obtain ⟨⟨l, r⟩, hl, heq⟩ := Option.map_eq_some_iff.mp h
      obtain ⟨-, rfl⟩ := Prod.mk.inj heq
      exact Nat.lt_succ_of_lt (ih hl)
    · exact absurd h (by simp)

/-- The lines up to an empty one, and the bytes behind it. -/
def cutHead? (bytes : List UInt8) : Option (List (List UInt8) × List UInt8) :=
  match h : cutLine? bytes with
  | none => none
  | some ([], rest) => some ([], rest)
  | some (line, rest) =>
    have := cutLine?_shorter h
    (cutHead? rest).map fun (lines, body) => (line :: lines, body)
termination_by bytes.length

/-- The value of a run of hexadecimal digits at the front. -/
def hexRun (cs : List Char) : Nat :=
  (cs.map fun c => Reader.hexDigit? c).takeWhile Option.isSome |>.foldl
    (fun n d => 16 * n + d.getD 0) 0

/-- The pieces of a body that came in pieces, put together. -/
def joinPieces (bytes : List UInt8) : List UInt8 :=
  match h : cutLine? bytes with
  | none => []
  | some (line, rest) =>
    let size := hexRun (Text.Utf8.lossy line).toList
    have := cutLine?_shorter h
    if size = 0 then []
    else rest.take size ++ joinPieces (rest.drop (size + 2))
termination_by bytes.length
decreasing_by simp only [List.length_drop]; omega

/-- Whether a head says that the body comes in pieces. -/
def inPieces (head : List (List UInt8)) : Bool :=
  head.any fun line =>
    (Text.Utf8.lossy line).toList.map Char.toLower == "transfer-encoding: chunked".toList

def status? (line : List UInt8) : Option Nat :=
  let cs := (Text.Utf8.lossy line).toList
  if "HTTP/1.".toList.isPrefixOf cs then
    Number.natural? 16 (((cs.dropWhile (· != ' ')).drop 1).takeWhile (· != ' '))
  else none

/-- What the bytes that came back say; bytes that are no answer count as none. -/
def ofMessage (bytes : List UInt8) : Delivery :=
  match cutHead? bytes with
  | some (first :: head, body) =>
    match status? first with
    | some status => .answered status (if inPieces head then joinPieces body else body)
    | none => .unreachable
  | _ => .unreachable

end Delivery

end CellWorld
