import CellWorld.CommandLine.Scan
import CellWorld.Number.Literal
import CellWorld.Settings
import CellWorld.Territory

/-!
# Commands

* `Command` — what a node is asked to do from a command line: `run`, `scenario` or `handover`
* `simulationChoices`, `runChoices`, … — the options of each, with their readers
* `Given` — the options that were given
* `Command.parse` — the command that arguments spell, or `Stop.help`, or `Stop.misuse`

Whether the settings are in range is not asked here; `Settings.check` is run by the command.
-/

namespace CellWorld.CommandLine

inductive Command where
  /-- Run until a number of seconds have passed, or until it is ended from outside. -/
  | run (port : UInt16) (publicHost : String) (duration : Option UInt64) (settings : Settings Float)
  /-- Let one player walk east for a while and tell when it changes cells. -/
  | scenario (seconds speed : Float) (settings : Settings Float)
  /-- Ask another node to let a player in. -/
  | handover (origin : String) (target : NodeInfo) (token player : String) (x z cellSize : Float)

/-! ### Values -/

def float? (s : String) : Option Float := Number.float? s.toList

/-- A whole number below `2 ^ bits`; a minus sign is allowed before a zero. -/
def small? (bits : Nat) (s : String) : Option Nat :=
  (Number.integer? 64 s.toList).bind fun n =>
    if 0 ≤ n ∧ n < Nat.pow 2 bits then some n.toNat else none

def large? (s : String) : Option UInt64 := (Number.natural? 64 s.toList).map UInt64.ofNat

def signed? (s : String) : Option Int64 := (Number.integer? 64 s.toList).map Int64.ofInt

def mode? (s : String) : Option FollowMode := FollowMode.names.lookup s

/-! ### Options -/

/-- An option whose value is read by `f`. -/
def reading {β : Type} (name : String) (f : String → Option β) : Choice :=
  { name, accepts := fun s => (f s).isSome }

def verbose : Choice := { name := "verbose", letter := some 'v', arity := 0 }

def simulationChoices : List Choice := [
  reading "cell" float?,
  reading "aoi" float?,
  reading "tick" (small? 32),
  reading "snap" (small? 32),
  reading "hyst" float?,
  reading "bot-density" (small? 32),
  { reading "max-bots" signed? with negative := true },
  reading "handover-mode" mode?,
  reading "seed" large?,
  { name := "debug-snapshot", arity := 0 }]

def runChoices : List Choice := verbose :: [
  reading "port" (small? 16),
  { name := "node-id" },
  { name := "public-host" },
  reading "duration" large?] ++ simulationChoices

def scenarioChoices : List Choice := verbose :: [
  { reading "seconds" float? with letter := some 's' },
  reading "speed" float?] ++ simulationChoices

/-- The options of a player for another node; `pos` takes two values. -/
def handoverChoices : List Choice := verbose :: [
  { name := "from-node" },
  { name := "to-node" },
  { name := "address" },
  reading "port" (small? 16),
  { name := "token" },
  { name := "player" },
  { reading "pos" float? with arity := 2, negative := true, repeats := true },
  reading "cell" float?]

/-! ### What was given -/

/-- The options that were given, the last one first. -/
structure Given where
  uses : List Use

namespace Given

/-- The values of an option, in the order in which they were given. -/
def values (g : Given) (name : String) : List String :=
  g.uses.reverse.flatMap fun u => if u.choice.name = name then u.values else []

def has (g : Given) (name : String) : Bool := g.uses.any fun u => u.choice.name == name

/-- The first value of an option, as `f` reads it. -/
def read? {β : Type} (g : Given) (name : String) (f : String → Option β) : Option β :=
  (g.values name).head?.bind f

def text? (g : Given) (name : String) : Option String := g.read? name some

def settings (g : Given) (nodeId : String) : Settings Float :=
  let std : Settings Float := .standard
  let rate (name : String) (n : UInt32) : UInt32 :=
    ((g.read? name (small? 32)).map UInt32.ofNat).getD n
  { cellSize := (g.read? "cell" float?).getD std.cellSize
    aoiRadius := (g.read? "aoi" float?).getD std.aoiRadius
    tickHz := rate "tick" std.tickHz
    snapshotHz := rate "snap" std.snapshotHz
    hysteresis := (g.read? "hyst" float?).getD std.hysteresis
    targetDensity := rate "bot-density" std.targetDensity
    maxBots := (g.read? "max-bots" signed?).getD std.maxBots
    nodeId
    mode := (g.read? "handover-mode" mode?).getD std.mode
    seed := g.read? "seed" large?
    debugSnapshot := g.has "debug-snapshot" }

def port? (g : Given) : Option UInt16 := (g.read? "port" (small? 16)).map UInt16.ofNat

end Given

/-! ### Parsing -/

/-- The options of a command, with no words between them. -/
def given (choices : List Choice) (arguments : List String) : Except Stop Given :=
  (scan choices {} arguments).bind fun s =>
    match s.word with
    | none => .ok ⟨s.uses⟩
    | some _ => .error .misuse

/-- The command to run a node; it is named after its port unless it is given a name. -/
def parseRun (arguments : List String) : Except Stop Command := do
  let g ← given runChoices arguments
  let port := g.port?.getD 8081
  let nodeId := (g.text? "node-id").getD ("local:" ++ toString port.toNat)
  return .run port ((g.text? "public-host").getD "localhost") (g.read? "duration" large?)
    (g.settings nodeId)

def parseScenario (arguments : List String) : Except Stop Command := do
  let g ← given scenarioChoices arguments
  return .scenario ((g.read? "seconds" float?).getD 10.0) ((g.read? "speed" float?).getD 5.0)
    (g.settings "local:scenario")

/-- The command to hand a player over; the node, its port and the token have to be given. -/
def parseHandover (arguments : List String) : Except Stop Command := do
  let g ← given handoverChoices arguments
  match g.text? "to-node", g.port?, g.text? "token" with
  | some id, some port, some token =>
    let place := (g.values "pos").filterMap float?
    return .handover ((g.text? "from-node").getD "local:cli")
      ⟨id, (g.text? "address").getD "127.0.0.1", port⟩ token ((g.text? "player").getD "p1")
      (place.getD 0 0.0) (place.getD 1 0.0)
      ((g.read? "cell" float?).getD Settings.standard.cellSize)
  | _, _, _ => .error .misuse

def commandNames : List String := ["run", "scenario", "handover", "help"]

/-- The command that arguments spell. -/
def Command.parse (arguments : List String) : Except Stop Command := do
  match (← scan [verbose] {} arguments).word with
  | some ("run", rest) => parseRun rest
  | some ("scenario", rest) => parseScenario rest
  | some ("handover", rest) => parseHandover rest
  | some ("help", rest) =>
    match rest with
    | [] => .error .help
    | [name] => .error (if commandNames.contains name then .help else .misuse)
    | _ => .error .misuse
  | _ => .error .misuse

end CellWorld.CommandLine
