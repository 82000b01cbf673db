import RemoteMemory.Client.Basic
import RemoteMemory.Server.Basic

/-!
# Sessions

A session joins a client and a server connection by two in-memory pipes that lose nothing. Each
request travels to the server at once, the server takes its turns until it starves, and the client
reads what came back. If that is less than a message, both sides wait for bytes that nobody will
send: the session has stalled.
-/

namespace RemoteMemory

/-- A server connection, and what it answered and its client has not read. -/
structure Session where
  connection : Server.Connection
  answers : Source

namespace Session

inductive Outcome where
  | finished (result : Except Error Client.Reply) (cached : Nat)
  | stalled

/-- A client that visits a server: its limits and the calls that it makes before it hangs up. -/
structure Visit where
  config : Client.Config
  calls : List Client.Call

structure Record where
  outcomes : List Outcome
  result : Except Error Unit
  served : Nat
  stats : Stats

def ofState (state : Server.State) (bound : UInt32) : Session where
  connection := { state := state, channel := ⟨.ofBytes ByteArray.empty .closed, {}⟩, bound := bound }
  answers := .ofBytes ByteArray.empty .closed

/-- Send a request and read the answer, if there ever is one. -/
def exchange (bound : UInt32) (request : Message) (session : Session) :
    Option (Except Error Message) × Session :=
  let (_, connection) := (session.connection.receive request.frame).pump
  let (written, connection) := connection.collect
  let answers := session.answers.feed written
  if answers.wouldWait bound then (none, ⟨connection, answers⟩)
  else
    let (reply, answers) := answers.readMessage bound
    (some reply, ⟨connection, answers⟩)

/-- Make calls in order; none is made after one that stalls. -/
def callAll (client : Client) (session : Session) : List Client.Call → List Outcome × Session
  | [] => ([], session)
  | call :: rest =>
    match (client.call call).run? (exchange client.config.payloadBound) session with
    | (none, session) => ([.stalled], session)
    | (some (result, client), session) =>
      let (outcomes, last) := callAll client session rest
      (.finished result client.cache.size :: outcomes, last)

/-- Serve a visit on the server's state, to the end of its connection. -/
def serve (state : Server.State) (bound : UInt32) (visit : Visit) : Record × Server.State :=
  let (outcomes, session) := callAll (.ofConfig visit.config) (ofState state bound) visit.calls
  let (result, connection) := session.connection.run
  ({ outcomes := outcomes
     result := result
     served := connection.served
     stats := connection.state.stats },
    connection.state)

def serveAll (state : Server.State) (bound : UInt32) : List Visit → List Record × Server.State
  | [] => ([], state)
  | visit :: rest =>
    let (record, state) := serve state bound visit
    let (records, state) := serveAll state bound rest
    (record :: records, state)

end Session

end RemoteMemory
