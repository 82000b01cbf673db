import RemoteMemory.LogEvent
import RemoteMemory.Server.Connection

/-!
# Servers

A server is a configuration and the state that all of its connections share. Connections are
served one after another, so blocks outlive the connection that allocated them; stopping the server
reclaims them all.
-/

namespace RemoteMemory

structure Server where
  config : Server.Config
  state : Server.State

namespace Server

def ofConfig (config : Config) : Server where
  config := config
  state := .ofConfig config

/-- Serve one connection to its end; the result is the number of requests answered. -/
def serve (server : Server) (channel : Channel) : Except Error Nat × Channel × Server :=
  let (result, connection) :=
    Connection.run { state := server.state, channel := channel, bound := server.config.payloadBound }
  (result.map fun _ => connection.served, connection.channel,
    { server with state := connection.state })

structure Farewell where
  stats : Stats
  log : List LogEvent
  deriving DecidableEq, Repr

/-- Stop a server: report on the arena, reclaim every mapped block and report the end. -/
def shutdown (server : Server) : Farewell :=
  let (released, state) := server.state.releaseAll
  { stats := state.stats
    log := [server.state.arena.report, .serverStopped released state.stats] }

end Server

end RemoteMemory
