import CellWorld.CommandLine.Command
import CellWorld.Engine
import CellWorld.Transfer.Peer
import CellWorld.Wire.World

/-!
# What the commands do

* `Outcome` — exit code and output
* `Walk` — the player that walks east; `Walk.steps` — a number of steps, up to the first that ends
  early
* `scenario` — `⌈seconds / period⌉` steps of a walk, with a line for each change of cells
* `handover` — what the other node has answered
* `prepareRun` — what there is to do before a node runs
* `task` — all of it: `ended`, `ask` or `serve`

The code is `0` for help and success, `1` for a failure, `2` for misuse and `101` where the program
breaks down. How long a scenario took is not reported.
-/

namespace CellWorld.CommandLine

/-- What a command has left behind: an exit code, and what it has written, line by line. -/
structure Outcome where
  code : Nat
  output : List String := []
  errors : List String := []
deriving DecidableEq

def lines (text : String) : List String := text.splitOn "\n"

/-- A failure with its causes, whose lines are indented. -/
def failure (what : String) (causes : List String) : Outcome where
  code := 1
  errors := lines ("Error: " ++ what) ++ (match causes with
    | [] => []
    | causes => "" :: "Caused by:" :: (causes.flatMap lines).map fun l => "    " ++ l)

def badSettings (e : SettingsError Float) : Outcome := failure "invalid configuration" [e.message]

/-! ### Numbers in reports -/

def places (n : Nat) (x : Float) : String := String.ofList (Number.fixed n "NaN" "inf" x)

/-- A number with spaces in front of it, at least five characters in all. -/
def column (n : Nat) : String :=
  let ds := Nat.toDigits 10 n
  String.ofList (List.replicate (5 - ds.length) ' ' ++ ds)

/-- The whole number `⌈x⌉`, kept in 64 bits. -/
def ceilCount (x : Float) : Nat :=
  match Number.Binary.ofFloat? (-x) with
  | some b => min (-b.floor).toNat (0xFFFFFFFFFFFFFFFF)
  | none => if 0 < x then 0xFFFFFFFFFFFFFFFF else 0

/-! ### A walk -/

def walker : String := "p1"

/-- A walk under way. -/
structure Walk where
  engine : Engine Float
  /-- What was reported, the last line first. -/
  lines : List String
  ended : StepEnd := .done

namespace Walk

def line (e : Engine Float) (event : HandoverEvent) : String :=
  let x := match e.world.players[event.player]? with
    | some p => p.pos.x
    | none => 0.0
  "tick " ++ column event.tick ++ ": " ++ event.player ++ " " ++ event.source.text ++ " -> " ++
    event.target.text ++ " at x=" ++ places 2 x

/-- One step of a walk, with a line for each change of cells. -/
def step (now : Time) (dt : Span) (w : Walk) : Walk :=
  let s := w.engine.step (σ := Unit) none now dt ()
  if s.ended = .done then
    let (events, engine) := s.engine.drain
    { engine, lines := (events.map (line engine)).reverse ++ w.lines }
  else { w with engine := s.engine, ended := s.ended }

/-- Steps of a walk, up to the first that ends early. -/
def steps (now : Time) (dt : Span) : Nat → Walk → Walk
  | 0, w => w
  | n + 1, w => if w.ended = .done then steps now dt n (w.step now dt) else w

end Walk

def opening (settings : Settings Float) (speed : Float) (start : Point Float) : String :=
  "scenario: cell=" ++ messageNumber settings.cellSize ++ " hyst=" ++
    messageNumber settings.hysteresis ++ " speed=" ++ messageNumber speed ++ " m/s start=(" ++
    places 1 start.x ++ "," ++ places 1 start.z ++ ")"

def closing (e : Engine Float) : String :=
  let owned := match e.world.players[walker]? with
    | some p => p.ownedCell
    | none => ⟨0, 0⟩
  "done: ticks=" ++ toString e.summary.tick ++ " handovers=" ++ toString e.metrics.handovers ++
    " bots=" ++ toString e.summary.bots ++ " owned=" ++ owned.text

/-- Lets one player walk east for a while and reports when it changes cells. -/
def scenario (seconds speed : Float) (settings : Settings Float) (now : Time) (chance : Random) :
    Outcome :=
  match Engine.checked? settings chance with
  | .error e => badSettings e
  | .ok engine =>
    let start := Point.planar (settings.cellSize - 0.1) (settings.cellSize / 2.0)
    let engine := (engine.upsert walker "Walker" start (.planar speed 0.0)).2
    let dt := settings.tickPeriod
    let walk := Walk.steps now dt (ceilCount (seconds / dt.seconds)) {
      engine, lines := [opening settings speed start] }
    match walk.ended with
    | .done => { code := 0, output := (closing walk.engine :: walk.lines).reverse }
    | _ => { code := 101, output := walk.lines.reverse }

/-! ### A player for another node -/

/-- A player that stands still, as it travels. -/
def traveller (player : String) (x z cellSize : Float) : Payload Float :=
  let pos := Point.planar x z
  { id := player, name := player, pos, vel := .zero, yaw := 0.0
    ownedCell := Cell.containing pos cellSize }

/-- Reports what the other node has answered. -/
def handover (target : NodeInfo) (player : String) (answer : Delivery) : Outcome :=
  match Reply.ofDelivery target.handoverUrl answer with
  | .error e => failure ("handing " ++ player ++ " over to " ++ target.id) [e.message]
  | .ok reply =>
    let output := lines reply.toJson.pretty
    if reply.success then { code := 0, output }
    else { failure ("handover rejected: " ++ reply.error) [] with output }

/-! ### A node that runs -/

/-- What is left to do once the arguments are understood. -/
inductive Task where
  /-- Nothing; the command is done. -/
  | ended (outcome : Outcome)
  /-- Ask another node and report its answer. -/
  | ask (post : Post) (report : Delivery → Outcome)
  /-- Run a node, until an instant if there is one. -/
  | serve (engine : Engine Float) (port : UInt16) (publicHost : String) (stop : Option Time)

/-- The last second that a clock can show. -/
def lastSecond : Int := 0x7FFFFFFFFFFFFFFF

/-- Whether a clock can show the instant `seconds` after `instant`. -/
def reaches (instant : Time) (seconds : UInt64) : Bool :=
  decide (instant.nanos / 1000000000 + (seconds.toNat : Int) ≤ lastSecond)

/-- What there is to do before a node runs: its settings are checked, and so is the end of its time,
which has to be one that a clock can show. -/
def prepareRun (port : UInt16) (publicHost : String) (duration : Option UInt64)
    (settings : Settings Float) (instant : Time) (chance : Random) : Task :=
  match Engine.checked? settings chance with
  | .error e => .ended (badSettings e)
  | .ok engine =>
    if duration.all (reaches instant) then
      .serve engine port publicHost (duration.map fun d => instant.after (.ofSeconds d.toNat))
    else .ended { code := 101 }

/-- What the arguments ask for. There are two clocks, the time of day and one that never goes
backward, of which `instant` is a reading. -/
def task (arguments : List String) (now instant : Time) (chance : Random) : Task :=
  match Command.parse arguments with
  | .error .help => .ended { code := 0 }
  | .error .misuse => .ended { code := 2 }
  | .ok (.run port publicHost duration settings) =>
    prepareRun port publicHost duration settings instant chance
  | .ok (.scenario seconds speed settings) => .ended (scenario seconds speed settings now chance)
  | .ok (.handover _ target token player x z cellSize) =>
    .ask (Request.postTo ⟨token, traveller player x z cellSize⟩ target) (handover target player)

end CellWorld.CommandLine
