import Std.Http
import CellWorld.CommandLine.Program
import CellWorld.Node.Route
import CellWorld.Transfer.Message

/-!
# The program

The only part that touches the outside: clocks, randomness, sockets and output. What is done with
them is decided elsewhere.

* `Live` — a node that runs, shared between its loop and its server under one lock
* `Live.loop` — `Node.beat` once a period
* `Live.keep` — `Gateway.sweep` once a minute
* `serve` — runs a node until its time is up
* `ask` — asks another node, for five seconds at most
* `main` — performs what `CommandLine.task` says

Nothing is proved about this module. The loop reads the time of day twice, for the step and for the
tokens of the step, which is one of the clocks that `Node.beat` can be given.
-/

open Std.Async

namespace CellWorld.Program

def wallClock : IO Time := do
  return ⟨(← Std.Time.Timestamp.now).toNanosecondsSinceUnixEpoch.val⟩

def steadyClock : IO Time := do
  return ⟨(← IO.monoNanosNow : Nat)⟩

def randomBytes (count : Nat) : IO (List UInt8) := do
  return (← IO.getRandomBytes count.toUSize).toList

/-- A generator that starts where chance has it. -/
def chance : IO Random := do
  return .ofSeed ((← randomBytes 8).foldl (fun n b => n * 256 + b.toUInt64) 0)

def waitUntil (instant : Time) : IO Unit := do
  let now ← steadyClock
  IO.sleep (UInt32.ofNat ((instant.nanos - now.nanos).toNat / 1000000))

/-- A node that runs. -/
structure Live where
  node : Std.Mutex (Node Float)

namespace Live

/-- Does something to the node, with random bytes for as many tokens as that may take. -/
def perform {β : Type} (live : Live) (f : Node Float → β × Node Float) : IO β :=
  live.node.atomically do
    let n ← get
    let bytes ← randomBytes ((n.engine.world.players.size + 1) * TokenSource.tokenBytes)
    let (answer, n) := f { n with gateway := n.gateway.refill bytes }
    set n
    return answer

/-- The loop: once a period, until the node is stopped or breaks down. -/
partial def loop (live : Live) (period : Span) (next due : Time) : IO Unit := do
  waitUntil next
  let now ← wallClock
  let instant ← steadyClock
  let minting ← wallClock
  let after ← live.perform fun n =>
    if n.engine.isRunning then
      let (ended, due, n) := n.beat now (fun _ => minting) instant due
      (if ended = .done then some due else none, n)
    else (none, n)
  match after with
  | none => return
  | some due =>
    let next := next.after period
    let instant ← steadyClock
    live.loop period (if next < instant then instant.after period else next) due

/-- How often tokens that have expired are forgotten, in seconds. -/
def sweepInterval : Nat := 60

/-- Forgets expired tokens now and then, until the time is up. -/
partial def keep (live : Live) (sweep : Time) (stop : Option Time) : IO Unit := do
  let now ← steadyClock
  if stop.any fun t => decide (t ≤ now) then return
  let sweep ← if sweep ≤ now then do
      let wall ← wallClock
      live.perform fun n =>
        let (_, gateway) := n.gateway.sweep wall
        ((), { n with gateway })
      pure (now.after (.ofSeconds sweepInterval))
    else pure sweep
  IO.sleep 250
  live.keep sweep stop

end Live

/-- Anything that was written, as it came. -/
structure Bytes where
  data : ByteArray

instance : Std.Http.Body.FromByteArray Bytes where
  fromByteArray data := .ok ⟨data⟩

instance : Std.Http.Server.Handler Live where
  ResponseBody := Std.Http.Body.Full
  onRequest live request := do
    let body : Bytes ← request.body.readAll
    let now ← wallClock
    let method := toString request.line.method
    let target := toString request.line.uri
    let answer ← live.perform fun n => n.route method target body.data.toList now
    let status := (Std.Http.Status.ofCode none (UInt16.ofNat answer.status)).getD .ok
    Std.Http.Response.Builder.fromBytes
      ((Std.Http.Response.withStatus status).header! "Content-Type" answer.contentType)
      answer.body.toUTF8

/-- Runs a node until its time is up. -/
def serve (engine : Engine Float) (port : UInt16) (publicHost : String) (stop : Option Time) :
    IO UInt32 := do
  let period := engine.settings.tickPeriod
  let snapshotPeriod := engine.settings.snapshotPeriod
  let gateway : Gateway Float := {
    nodeId := engine.settings.nodeId, publicHost, port, tokens := .ofBytes 0 [] }
  let live : Live := ⟨← Std.Mutex.new {
    engine := engine.start {}, gateway, link := .own, objection := fun _ => "not a request" }⟩
  let began ← steadyClock
  let address : Std.Net.SocketAddress := .v4 ⟨.ofParts 0 0 0 0, port⟩
  match ← ((Std.Http.Server.serve address live).block).toBaseIO with
  | .error e =>
    IO.eprintln ("Error: binding port " ++ toString port.toNat ++ ": " ++ toString e)
    return 1
  | .ok server =>
    let loop ← IO.asTask (live.loop period (began.after period) (began.after snapshotPeriod))
      .dedicated
    live.keep (began.after (.ofSeconds Live.sweepInterval)) stop
    server.shutdown.block
    live.perform fun n =>
      let (_, engine) := n.engine.stop {}
      ((), { n with engine })
    discard (IO.wait loop)
    return 0

/-! ### Asking another node -/

/-- Everything that comes before the connection is closed. -/
partial def receive (client : TCP.Socket.Client) (so : ByteArray) : Async ByteArray := do
  match ← client.recv? 65536 with
  | some chunk => receive client (so ++ chunk)
  | none => return so

def exchange (post : Post) : Async ByteArray := do
  let found ← DNS.getAddrInfo post.target.address (toString post.target.port.toNat)
  match found[0]? with
  | none => throw (IO.userError "no such host")
  | some host =>
    let client ← TCP.Socket.Client.mk
    let address : Std.Net.SocketAddress := match host with
      | .v4 a => .v4 ⟨a, post.target.port⟩
      | .v6 a => .v6 ⟨a, post.target.port⟩
    client.connect address
    client.send ⟨post.message.toArray⟩
    receive client .empty

/-- How long an answer is waited for, in tenths of a second. -/
def patience : Nat := 50

/-- Waits for a task, a tenth of a second at a time. -/
def waitFor {β : Type} (task : Task β) : Nat → IO (Option β)
  | 0 => return none
  | n + 1 => do
    if ← IO.hasFinished task then return some task.get
    IO.sleep 100
    waitFor task n

def ask (post : Post) : IO Delivery := do
  let task ← IO.asTask (exchange post).block .dedicated
  match ← waitFor task patience with
  | some (.ok bytes) => return .ofMessage bytes.toList
  | _ => return .unreachable

def finish (outcome : CommandLine.Outcome) : IO UInt32 := do
  outcome.output.forM IO.println
  outcome.errors.forM IO.eprintln
  return UInt32.ofNat outcome.code

end CellWorld.Program

open CellWorld in
def main (arguments : List String) : IO UInt32 := do
  let now ← Program.wallClock
  let instant ← Program.steadyClock
  match CommandLine.task arguments now instant (← Program.chance) with
  | .ended outcome => Program.finish outcome
  | .ask post report => Program.finish (report (← Program.ask post))
  | .serve engine port publicHost stop => Program.serve engine port publicHost stop
