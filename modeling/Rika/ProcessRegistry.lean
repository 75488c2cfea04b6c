import Rika.RuntimeFilesystem
import Rika.Utf8Stream

namespace Rika.ProcessRegistry

open RuntimeFilesystem WideText

structure ProcessId where
  incarnation : Int × Int
  number : Nat
deriving DecidableEq

def ProcessId.text (processId : ProcessId) : String :=
  toString processId.incarnation.1 ++ ":" ++ toString processId.incarnation.2 ++ ":" ++ toString processId.number

structure Output where
  processId : ProcessId
  stdout : Units
  stderr : Units
  running : Bool
  exitCode : Option Int
  elapsedMillis : Nat
  truncated : Bool
deriving DecidableEq

structure ProcessExit where
  exitCode : Int
  elapsedMillis : Nat
  truncated : Bool
deriving DecidableEq

structure PendingOutput where
  stdout : Units
  stderr : Units
  stdoutBytes : Nat
  stderrBytes : Nat
  retainedBytes : Nat
  truncated : Bool

structure ProcessNotFound where
  message : String

inductive Channel
  | stdout
  | stderr
deriving DecidableEq

def PendingOutput.text (pending : PendingOutput) : Channel → Units
  | .stdout => pending.stdout
  | .stderr => pending.stderr

def Output.text (output : Output) : Channel → Units
  | .stdout => output.stdout
  | .stderr => output.stderr

def pendingOutputLimit : Nat := 64 * 1024

def terminalOutputLimit : Nat := 128

def PendingOutput.empty : PendingOutput := ⟨[], [], 0, 0, 0, false⟩

def appendOutput (pending : PendingOutput) (channel : Channel) (text : Units) : PendingOutput :=
  let accepted := if pending.truncated then [] else boundedPrefix text (pendingOutputLimit - pending.retainedBytes)
  let retainedBytes := pending.retainedBytes + byteLength accepted
  let truncated := pending.truncated || decide (accepted ≠ text)
  match channel with
  | .stdout =>
    { pending with
      stdout := pending.stdout ++ accepted, stdoutBytes := pending.stdoutBytes + byteLength text, retainedBytes, truncated }
  | .stderr =>
    { pending with
      stderr := pending.stderr ++ accepted, stderrBytes := pending.stderrBytes + byteLength text, retainedBytes, truncated }

/-- The loop that reads a channel: its decoder and, once it has ended, whether it went through. -/
structure Drain where
  decoder : Utf8Stream.Decoder
  exit : Option Bool

inductive Poll
  | waiting (outputLimit : Int)
  | looked (outputLimit : Int) (exit : Option ProcessExit)

structure Entry where
  output : PendingOutput
  exit : Option (Except ProcessNotFound ProcessExit)
  startedAtNanos : Nat
  admission : Option Poll
  drains : Channel → Drain
  processExit : Option (Option Int)
  marked : Bool

def Entry.start (startedAtNanos : Nat) : Entry :=
  ⟨.empty, none, startedAtNanos, none, fun _ => ⟨.start, none⟩, none, false⟩

/-- What happens to a process, as far as it can be seen from outside. -/
inductive Happening
  | read (channel : Channel) (bytes : List UInt8)
  | ended (channel : Channel) (succeeded : Bool)
  | watched (exitCode : Option Int)
  | returned (output : Output)
  | notFound (error : ProcessNotFound)

abbrev Change := Entry × List Happening

section

variable (entry : Entry) (channel : Channel)

def Entry.append (text : Units) (drain : Drain) : Entry :=
  { entry with
    output := appendOutput entry.output channel text
    drains := Function.update entry.drains channel drain }

def Entry.drain (bytes : List UInt8) : Option Change :=
  match (entry.drains channel).exit with
  | some _ => none
  | none =>
    let decoded := (entry.drains channel).decoder.decode bytes
    some (entry.append channel (units decoded.1) ⟨decoded.2, none⟩, [.read channel bytes])

def Entry.drained (succeeded : Bool) : Option Change :=
  match (entry.drains channel).exit with
  | some _ => none
  | none =>
    let decoder := (entry.drains channel).decoder
    some (entry.append channel (units decoder.flush) ⟨decoder, some succeeded⟩, [.ended channel succeeded])

end

section

variable (entry : Entry)

def Entry.watched (exitCode : Option Int) : Option Change :=
  match entry.processExit with
  | some _ => none
  | none => some ({ entry with processExit := some exitCode }, [.watched exitCode])

def Entry.exits : Option (Bool × Bool × Option Int) :=
  match (entry.drains .stdout).exit, (entry.drains .stderr).exit, entry.processExit with
  | some stdoutExit, some stderrExit, some processExit => some (stdoutExit, stderrExit, processExit)
  | _, _, _ => none

def isFailure : Bool × Bool × Option Int → Bool
  | (stdoutExit, stderrExit, processExit) => !stdoutExit || !stderrExit || processExit = none || processExit = some (-1)

def Entry.mark : Option Change :=
  match entry.exits with
  | none => none
  | some exits =>
    if isFailure exits && !entry.marked then
      some ({ entry with output := { entry.output with truncated := true }, marked := true }, [])
    else none

def elapsedMillis (startedAtNanos nanos : Nat) : Nat := (nanos - startedAtNanos) / 1000000

def Entry.settle (nanos : Nat) : Option Change :=
  match entry.exits, entry.exit with
  | some exits, none =>
    if isFailure exits && !entry.marked then none
    else
      some ({ entry with
        exit := some (.ok ⟨exits.2.2.getD (-1), elapsedMillis entry.startedAtNanos nanos, entry.output.truncated⟩) }, [])
  | _, _ => none

def Entry.enter (outputLimit : Int) : Option Change :=
  match entry.admission with
  | some _ => none
  | none => some ({ entry with admission := some (.waiting outputLimit) }, [])

def Entry.look : Option Change :=
  match entry.admission with
  | some (.waiting outputLimit) =>
    match entry.exit with
    | none => some ({ entry with admission := some (.looked outputLimit none) }, [])
    | some (.ok exit) => some ({ entry with admission := some (.looked outputLimit (some exit)) }, [])
    | some (.error error) => some ({ entry with admission := none }, [.notFound error])
  | some (.looked _ _) | none => none

def Entry.leave : Option Change := some ({ entry with admission := none }, [])

def pollOutput (processId : ProcessId) (entry : Entry) (outputLimit : Int) (exit : Option ProcessExit) (nanos : Nat) : Output :=
  let output := entry.output
  let bounded := boundedText (output.stdout ++ output.stderr) outputLimit "page or narrow the command"
    (some (output.stdoutBytes + output.stderrBytes))
  { processId
    stdout := if bounded.truncated then bounded.text else output.stdout
    stderr := if bounded.truncated then [] else output.stderr
    running := exit.isNone
    exitCode := exit.map (·.exitCode)
    elapsedMillis := (exit.map (·.elapsedMillis)).getD (elapsedMillis entry.startedAtNanos nanos)
    truncated := output.truncated || bounded.truncated }

def Entry.taken : Entry := { entry with output := .empty, admission := none }

end

inductive EntryState
  | active
  | terminal (output : Output) (exit : ProcessExit)
deriving DecidableEq

abbrev States := List (ProcessId × EntryState)

def terminalCount (states : States) : Nat := states.countP fun state => state.2 ≠ .active

def forget : Nat → States → States
  | _, [] => []
  | count, (processId, .active) :: states => (processId, .active) :: forget count states
  | count, (_, .terminal _ _) :: states =>
    if count - 1 ≤ terminalOutputLimit then states else forget (count - 1) states

def retainTerminalOutput (states : States) (processId : ProcessId) (output : Output) (exit : ProcessExit) : States :=
  let next := (states.filter fun state => state.1 ≠ processId) ++ [(processId, .terminal output exit)]
  if terminalCount next ≤ terminalOutputLimit then next else forget (terminalCount next) next

structure Registry where
  incarnation : Int × Int
  entries : States
  processes : ProcessId → Option Entry
  closed : Bool
  nextId : Nat

def Registry.empty (incarnation : Int × Int) : Registry := ⟨incarnation, [], fun _ => none, false, 1⟩

structure Fact where
  processId : ProcessId
  happening : Happening

inductive Event
  | start (nanos : Nat)
  | chunk (processId : ProcessId) (channel : Channel) (bytes : List UInt8)
  | drained (processId : ProcessId) (channel : Channel) (succeeded : Bool)
  | watched (processId : ProcessId) (exitCode : Option Int)
  | mark (processId : ProcessId)
  | settle (processId : ProcessId) (nanos : Nat)
  | enter (processId : ProcessId) (outputLimit : Int)
  | look (processId : ProcessId)
  | take (processId : ProcessId) (nanos : Nat)
  | leave (processId : ProcessId)
  | close

section

variable (registry : Registry)

def Registry.set (processId : ProcessId) (entry : Entry) : Registry :=
  { registry with processes := Function.update registry.processes processId (some entry) }

def Registry.within (processId : ProcessId) (change : Entry → Option Change) : Registry × List Fact :=
  match (registry.processes processId).bind change with
  | none => (registry, [])
  | some (entry, happenings) => (registry.set processId entry, happenings.map (Fact.mk processId))

def Registry.start (nanos : Nat) : Registry :=
  if registry.closed then registry
  else
    let processId : ProcessId := ⟨registry.incarnation, registry.nextId⟩
    { registry.set processId (Entry.start nanos) with
      entries := registry.entries ++ [(processId, .active)], nextId := registry.nextId + 1 }

def Registry.take (processId : ProcessId) (nanos : Nat) : Registry × List Fact :=
  match registry.processes processId with
  | none => (registry, [])
  | some entry =>
    match entry.admission with
    | some (.looked outputLimit exit) =>
      let output := pollOutput processId entry outputLimit exit nanos
      let entries :=
        match exit with
        | none => registry.entries
        | some exit => retainTerminalOutput registry.entries processId output exit
      ({ registry.set processId entry.taken with entries }, [⟨processId, .returned output⟩])
    | some (.waiting _) | none => (registry, [])

end

def unavailable (processId : ProcessId) : ProcessNotFound := ⟨"Unavailable process id: " ++ processId.text⟩

def unknown (processId : ProcessId) : ProcessNotFound := ⟨"Unknown process id: " ++ processId.text⟩

section

variable (registry : Registry)

def Registry.enter (processId : ProcessId) (outputLimit : Int) : Registry × List Fact :=
  match registry.entries.lookup processId with
  | none => (registry, [⟨processId, .notFound (unknown processId)⟩])
  | some (.terminal output _) => (registry, [⟨processId, .returned output⟩])
  | some .active => registry.within processId fun entry => entry.enter outputLimit

def Registry.close : Registry :=
  { registry with
    closed := true
    entries := []
    processes := fun processId => (registry.processes processId).map fun entry =>
      if (processId, .active) ∈ registry.entries then
        { entry with exit := entry.exit.or (some (.error (unavailable processId))) }
      else entry }

def step : Event → Registry × List Fact
  | .start nanos => (registry.start nanos, [])
  | .chunk processId channel bytes => registry.within processId fun entry => entry.drain channel bytes
  | .drained processId channel succeeded => registry.within processId fun entry => entry.drained channel succeeded
  | .watched processId exitCode => registry.within processId fun entry => entry.watched exitCode
  | .mark processId => registry.within processId Entry.mark
  | .settle processId nanos => registry.within processId fun entry => entry.settle nanos
  | .enter processId outputLimit => registry.enter processId outputLimit
  | .look processId => registry.within processId Entry.look
  | .take processId nanos => registry.take processId nanos
  | .leave processId => registry.within processId Entry.leave
  | .close => (registry.close, [])

/-- The outcome of `observe`. -/
def Registry.observe (processId : ProcessId) : Option (Except ProcessNotFound ProcessExit) :=
  match registry.entries.lookup processId with
  | none => some (.error (unknown processId))
  | some (.terminal _ exit) => some (.ok exit)
  | some .active => (registry.processes processId).bind (·.exit)

end

def advance (history : Registry × List Fact) (event : Event) : Registry × List Fact :=
  ((step history.1 event).1, history.2 ++ (step history.1 event).2)

def run (incarnation : Int × Int) (events : List Event) : Registry × List Fact :=
  events.foldl advance (Registry.empty incarnation, [])

end Rika.ProcessRegistry
