import Mathlib.Algebra.BigOperators.Group.List.Basic
import Mathlib.Algebra.GroupWithZero.Nat

namespace Rika.WebSocketBridge

-- The data that is forwarded is opaque: only its size in bytes is looked at.
variable {α : Type} (webSocketDataSize : α → Nat)

/-- A call on one of the sockets. A call of `send` may throw. -/
inductive Call (α : Type)
  | upstreamSend (data : α) (threw : Bool)
  | downstreamSend (data : α) (threw : Bool)
  | upstreamClose (code : Nat) (reason : String)
  | downstreamClose (code : Nat) (reason : String)

structure Bridge (α : Type) where
  pending : List α
  pendingBytes : Nat
  opened : Bool
  closed : Bool

def Bridge.start : Bridge α := ⟨[], 0, false, false⟩

/-- What the sockets report, with which calls of `send` throw. Messages that are no WebSocket
data are `none`. -/
inductive Event (α : Type)
  | downstreamMessage (data : Option α) (throws : Bool)
  | downstreamClose
  | upstreamOpen (throws : Nat → Bool)
  | upstreamMessage (data : Option α) (throws : Bool)
  | upstreamError
  | upstreamClose (code : Option Nat) (reason : Option String)

def Event.isOpen : Event α → Bool
  | upstreamOpen _ => true
  | downstreamMessage _ _ | downstreamClose | upstreamMessage _ _ | upstreamError | upstreamClose _ _ => false

namespace Bridge

def closeBoth (bridge : Bridge α) (code : Nat) (reason : String) (closeUpstream closeDownstream : Bool) :
    Bridge α × List (Call α) :=
  if bridge.closed then (bridge, [])
  else
    ({ bridge with closed := true, pending := [], pendingBytes := 0 },
      (if closeUpstream then [.upstreamClose code reason] else []) ++
        if closeDownstream then [.downstreamClose code reason] else [])

def send (bridge : Bridge α) (data : Option α) (throws : Bool) : Bridge α × List (Call α) :=
  if bridge.closed then (bridge, [])
  else
    match data with
    | none => (bridge, [])
    | some data =>
      if !bridge.opened then
        if 128 ≤ bridge.pending.length || 4 * 1024 * 1024 < bridge.pendingBytes + webSocketDataSize data then
          bridge.closeBoth 1009 "Upstream WebSocket buffer exceeded" true true
        else
          ({ bridge with
              pending := bridge.pending ++ [data]
              pendingBytes := bridge.pendingBytes + webSocketDataSize data }, [])
      else if throws then
        let (bridge, calls) := bridge.closeBoth 1011 "Upstream WebSocket failed" true true
        (bridge, .upstreamSend data true :: calls)
      else (bridge, [.upstreamSend data false])

/-- The loop that sends what is pending; `throws` is asked at the number of what is left. A
close empties what is pending, which ends the loop. -/
def flush (throws : Nat → Bool) (bridge : Bridge α) : List α → Bridge α × List (Call α)
  | [] => ({ bridge with pending := [] }, [])
  | data :: pending =>
    let shifted := { bridge with
      pending := pending
      pendingBytes := bridge.pendingBytes - webSocketDataSize data }
    if throws pending.length then
      let (bridge, calls) := shifted.closeBoth 1011 "Upstream WebSocket failed" true true
      (bridge, .upstreamSend data true :: calls)
    else
      let (bridge, calls) := flush throws shifted pending
      (bridge, .upstreamSend data false :: calls)

section

variable (bridge : Bridge α)

def openUpstream (throws : Nat → Bool) : Bridge α × List (Call α) :=
  if bridge.closed then (bridge, [.upstreamClose 1000 "Downstream WebSocket closed"])
  else flush webSocketDataSize throws { bridge with opened := true } bridge.pending

def receive (data : Option α) (throws : Bool) : Bridge α × List (Call α) :=
  if bridge.closed then (bridge, [])
  else
    match data with
    | none => (bridge, [])
    | some data =>
      if throws then
        let (bridge, calls) := bridge.closeBoth 1011 "Downstream WebSocket failed" true true
        (bridge, .downstreamSend data true :: calls)
      else (bridge, [.downstreamSend data false])

def step : Event α → Bridge α × List (Call α)
  | .downstreamMessage data throws => bridge.send webSocketDataSize data throws
  | .downstreamClose => bridge.closeBoth 1000 "Downstream WebSocket closed" true false
  | .upstreamOpen throws => bridge.openUpstream webSocketDataSize throws
  | .upstreamMessage data throws => bridge.receive data throws
  | .upstreamError => bridge.closeBoth 1011 "Upstream WebSocket failed" true true
  | .upstreamClose code reason =>
    bridge.closeBoth (code.getD 1000) (reason.getD "Upstream WebSocket closed") false true

def accepts : Event α → List α
  | .downstreamMessage (some data) _ =>
    if bridge.closed then []
    else if !bridge.opened &&
        (128 ≤ bridge.pending.length || 4 * 1024 * 1024 < bridge.pendingBytes + webSocketDataSize data) then []
    else [data]
  | .downstreamMessage none _ | .downstreamClose | .upstreamOpen _ | .upstreamMessage _ _ | .upstreamError
  | .upstreamClose _ _ => []

end

end Bridge

structure Session (α : Type) where
  bridge : Bridge α
  accepted : List α
  calls : List (Call α)
  lateOpens : Nat

namespace Session

def start : Session α := ⟨.start, [], [], 0⟩

def step (session : Session α) (event : Event α) : Session α where
  bridge := (session.bridge.step webSocketDataSize event).1
  accepted := session.accepted ++ session.bridge.accepts webSocketDataSize event
  calls := session.calls ++ (session.bridge.step webSocketDataSize event).2
  lateOpens := session.lateOpens + if session.bridge.closed && event.isOpen then 1 else 0

def run (events : List (Event α)) : Session α := events.foldl (step webSocketDataSize) start

end Session

namespace Call

def attempted? : Call α → Option α
  | upstreamSend data _ => some data
  | downstreamSend _ _ | upstreamClose _ _ | downstreamClose _ _ => none

def delivered? : Call α → Option α
  | upstreamSend data threw => if threw then none else some data
  | downstreamSend _ _ | upstreamClose _ _ | downstreamClose _ _ => none

def closesUpstream : Call α → Bool
  | upstreamClose _ _ => true
  | upstreamSend _ _ | downstreamSend _ _ | downstreamClose _ _ => false

def closesDownstream : Call α → Bool
  | downstreamClose _ _ => true
  | upstreamSend _ _ | downstreamSend _ _ | upstreamClose _ _ => false

def closes (call : Call α) : Bool := call.closesUpstream || call.closesDownstream

end Call

def attempted (calls : List (Call α)) : List α := calls.filterMap Call.attempted?

def delivered (calls : List (Call α)) : List α := calls.filterMap Call.delivered?

/-- Once a socket is closed, there are only calls of `close`. -/
def SilentAfterClose (calls : List (Call α)) : Prop :=
  calls.Pairwise fun call later => call.closes = true → later.closes = true

end Rika.WebSocketBridge
