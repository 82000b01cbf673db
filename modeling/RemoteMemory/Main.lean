import RemoteMemory.Notice
import RemoteMemory.Server.Arguments
import RemoteMemory.Server.Basic

/-!
# Command line

Serves one connection over the standard streams: requests come in on standard input, answers go
out on standard output, and the log and the final counters go to standard error.
-/

namespace RemoteMemory

/-- Serve until the input ends, answering whatever has come in after every read. -/
partial def Server.Connection.serveStreams (connection : Server.Connection)
    (input output : IO.FS.Stream) : IO Server.Connection := do
  let bytes ← input.read 65536
  if bytes.isEmpty then
    return connection
  else
    let (_, connection) := (connection.receive bytes).pump
    let (written, connection) := connection.collect
    output.write written
    output.flush
    connection.serveStreams input output

end RemoteMemory

open RemoteMemory in
/-- Serve one connection with the limits given as arguments, then stop the server. -/
def main (arguments : List String) : IO UInt32 := do
  match Server.Setting.ofArguments? arguments with
  | none =>
    IO.eprintln Server.usage
    return 2
  | some settings =>
    let server := Server.ofConfig (.ofSettings settings)
    let start : Server.Connection :=
      { state := server.state
        channel := ⟨.ofBytes ByteArray.empty .closed, {}⟩
        bound := server.config.payloadBound }
    let last ← start.serveStreams (← IO.getStdin) (← IO.getStdout)
    let farewell := Server.shutdown { server with state := last.state }
    for event in farewell.log do
      IO.eprintln event.text
    IO.eprintln (Notice.stats farewell.stats).line
    return 0
