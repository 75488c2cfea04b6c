import Rika.Usage

namespace Rika

inductive Status
  | accepted
  | queued
  | running
  | waiting
  | cancelling
  | completed
  | failed
  | cancelled
deriving DecidableEq

namespace Status

def isTerminalStatus : Status → Bool
  | completed | failed | cancelled => true
  | accepted | queued | running | waiting | cancelling => false

def isActiveStatus (status : Status) : Bool := !status.isTerminalStatus && status ≠ queued

end Status

inductive ThreadLineage
  | original
  | fork (sourceThreadId : String) (sourceTurnId : Option String)

structure Thread where
  id : String
  workspace : String
  title : String
  labels : List String
  pinned : Bool
  archived : Bool
  lineage : ThreadLineage
  createdAt : Finite
  updatedAt : Finite

inductive TurnAuthor
  | human
  | agent (sourceThreadId sourceRootTurnId : String) (threadCreationDepth : Int)
deriving DecidableEq

inductive TurnLineage
  | original
  | forkCopy (sourceThreadId sourceTurnId : String)
  | retried (sourceTurnId : String)
deriving DecidableEq

structure RecordedShellResult where
  text : String
  truncated : Bool
  exitCode : Option Int
deriving DecidableEq

inductive TerminalStatus
  | completed
  | failed
  | cancelled
deriving DecidableEq

def TerminalStatus.status : TerminalStatus → Status
  | completed => .completed
  | failed => .failed
  | cancelled => .cancelled

inductive ShellState
  | running
  | settled (status : TerminalStatus) (result : RecordedShellResult)
deriving DecidableEq

/-- What an agent execution keeps besides the shared fields: its status and
the compaction bounds of its main route. -/
inductive TurnKind
  | agentExecution (status : Status) (compaction : Usage.ContextCapacity)
  | recordedShell (command : String) (state : ShellState)
deriving DecidableEq

structure Turn where
  id : String
  threadId : String
  prompt : String
  author : TurnAuthor
  lineage : TurnLineage
  createdAt : Finite
  updatedAt : Finite
  kind : TurnKind
deriving DecidableEq

namespace Turn

def status (turn : Turn) : Status :=
  match turn.kind with
  | .agentExecution status _ => status
  | .recordedShell _ .running => .running
  | .recordedShell _ (.settled status _) => status.status

def compaction (turn : Turn) : Option Usage.ContextCapacity :=
  match turn.kind with
  | .agentExecution _ compaction => some compaction
  | .recordedShell _ _ => none

end Turn

end Rika
