import Rika.LogRetention

namespace Rika

/-- A row of `rika_hosted_thread_socket_tickets`. -/
structure SocketTicket where
  id : String
  ticketDigest : String
  userId : String
  clientId : String
  deviceId : String
  audience : String
  expiresAt : Int
  issuedAt : Int
  consumedAt : Option Int
  revokedAt : Option Int

/-- The log of a thread, the tickets that admit connections to it, and the
clients of the open connections. -/
structure ThreadConnections (Json : Type) where
  log : ThreadLog Json
  tickets : Table SocketTicket.id
  connections : List String

namespace ThreadConnections

variable {Json Event Snapshot : Type}

def empty : ThreadConnections Json := ⟨ThreadLog.empty, Table.empty, []⟩

section

variable (db : ThreadConnections Json)

def issueTicket (ticket : SocketTicket) : Except HostedPersistenceError (ThreadConnections Json) :=
  if ticket.expiresAt ≤ ticket.issuedAt then
    .error (databaseError "a check of rika_hosted_thread_socket_tickets is violated")
  else if db.tickets.rows.any fun other => other.ticketDigest = ticket.ticketDigest then
    .error (databaseError "duplicate key value violates unique constraint")
  else
    match db.tickets.insert { ticket with consumedAt := none, revokedAt := none } with
    | none => .error (databaseError "duplicate key value violates unique constraint")
    | some tickets => .ok { db with tickets }

/-- Redeems a ticket for a connection. `authorized` tells of a ticket whether its
client and the client's device are neither revoked nor expired. -/
def redeemTicket (authorized : SocketTicket → Bool) (ticketDigest audience : String)
    (redeemedAt : Int) : Except HostedPersistenceError (SocketTicket × ThreadConnections Json) :=
  match db.tickets.rows.find? fun ticket => ticket.ticketDigest = ticketDigest && ticket.audience = audience &&
      ticket.consumedAt.isNone && ticket.revokedAt.isNone && ticket.expiresAt > redeemedAt && authorized ticket with
  | none => .error (failure .invalidAuthority "WebSocket ticket is invalid or expired")
  | some ticket =>
    if redeemedAt < ticket.issuedAt then
      .error (databaseError "a check of rika_hosted_thread_socket_tickets is violated")
    else
      let tickets := db.tickets.update (fun row => row.id = ticket.id) fun row => { row with consumedAt := some redeemedAt }
      .ok (ticket, { db with tickets, connections := ticket.clientId :: db.connections })

def revokeTicket (ticketId : String) (revokedAt : Int) :
    Except HostedPersistenceError (ThreadConnections Json) :=
  if db.tickets.rows.any fun row => row.id = ticketId && row.consumedAt.isNone && row.revokedAt.isNone &&
      revokedAt < row.issuedAt then
    .error (databaseError "a check of rika_hosted_thread_socket_tickets is violated")
  else
    .ok
      { db with
        tickets :=
          db.tickets.update (fun row => row.id = ticketId && row.consumedAt.isNone && row.revokedAt.isNone)
            fun row => { row with revokedAt := some revokedAt } }

def disconnect (clientId : String) : ThreadConnections Json :=
  { db with connections := db.connections.filter fun other => other ≠ clientId }

def removeClient (clientId : String) : ThreadConnections Json :=
  { log := { db.log with cursors := db.log.cursors.delete fun row => row.clientId = clientId }
    tickets := db.tickets.delete fun ticket => ticket.clientId = clientId
    connections := db.connections.filter fun other => other ≠ clientId }

end

inductive Call (Event Snapshot : Type)
  | log (transaction : ThreadLog.Transaction Event Snapshot)
  | issueTicket (ticket : SocketTicket)
  | redeemTicket (authorized : SocketTicket → Bool) (ticketDigest audience : String) (redeemedAt : Int)
  | revokeTicket (ticketId : String) (revokedAt : Int)
  | disconnect (clientId : String)
  | removeClient (clientId : String)

def commit (db : ThreadConnections Json) : Except HostedPersistenceError (ThreadConnections Json) → ThreadConnections Json
  | .ok db' => db'
  | .error _ => db

def step (contract : Contract Json Event Snapshot) (db : ThreadConnections Json) :
    Call Event Snapshot → ThreadConnections Json
  | .log transaction => { db with log := db.log.step contract transaction }
  | .issueTicket ticket => db.commit (db.issueTicket ticket)
  | .redeemTicket authorized ticketDigest audience redeemedAt =>
    db.commit ((db.redeemTicket authorized ticketDigest audience redeemedAt).map Prod.snd)
  | .revokeTicket ticketId revokedAt => db.commit (db.revokeTicket ticketId revokedAt)
  | .disconnect clientId => db.disconnect clientId
  | .removeClient clientId => db.removeClient clientId

def run (contract : Contract Json Event Snapshot) (calls : List (Call Event Snapshot)) (db : ThreadConnections Json) :
    ThreadConnections Json := calls.foldl (step contract) db

end ThreadConnections

end Rika
