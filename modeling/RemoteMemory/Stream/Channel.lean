import RemoteMemory.Stream.Framing

/-!
# Channels

A channel is a source to read from and a sink to write to. One exchange on it sends a request and
reads the answer; nothing is read when the request could not be sent.
-/

namespace RemoteMemory

structure Channel where
  source : Source
  sink : Sink := {}

def Channel.exchange (channel : Channel) (bound : UInt32) (request : Message) :
    Except Error Message × Channel :=
  match channel.sink.writeMessage request with
  | (.error error, sink) => (.error error, { channel with sink := sink })
  | (.ok (), sink) =>
    let (reply, source) := channel.source.readMessage bound
    (reply, ⟨source, sink⟩)

end RemoteMemory
