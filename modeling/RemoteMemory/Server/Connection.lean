import RemoteMemory.Server.State
import RemoteMemory.Stream.Channel

/-!
# Connections

A connection takes requests from a stream one at a time and writes the answer to each before it
takes the next. A header that is refused is dropped without an answer, and whatever stands behind
it is read as the next header. The connection ends well when the stream ends, also amid a message,
and with an error when the stream fails.
-/

namespace RemoteMemory

namespace Server

structure Connection where
  state : State
  channel : Channel
  bound : UInt32
  served : Nat := 0

/-- What becomes of a connection that tries to take one more request: it starves, as it was, where
the unread bytes do not hold a whole one, and it breaks where the answer cannot be written. -/
inductive Turn where
  | starved (connection : Connection)
  | next (connection : Connection)
  | broken (error : Error) (connection : Connection)

namespace Connection

def answer (connection : Connection) (request : Message) : Turn :=
  let ⟨state, ⟨source, sink⟩, bound, served⟩ := connection
  let (response, state) := state.dispatch request
  match sink.writeMessage response with
  | (.ok (), sink) => .next ⟨state, ⟨source, sink⟩, bound, served + 1⟩
  | (.error error, sink) => .broken error ⟨state, ⟨source, sink⟩, bound, served⟩

/-- Take the next header; drop it, or take its payload too and answer the request. -/
def turn (connection : Connection) : Turn :=
  let ⟨state, ⟨source, sink⟩, bound, served⟩ := connection
  match source.header? with
  | none => .starved ⟨state, ⟨source, sink⟩, bound, served⟩
  | some (header, afterHeader) =>
    match header.check bound with
    | .error _ => .next ⟨state, ⟨afterHeader, sink⟩, bound, served⟩
    | .ok () =>
      match afterHeader.take? header.payloadSize with
      | none => .starved ⟨state, ⟨source, sink⟩, bound, served⟩
      | some (payload, rest) => answer ⟨state, ⟨rest, sink⟩, bound, served⟩ ⟨header, payload⟩

theorem source_of_answer_next {connection next : Connection} {request : Message}
    (h : connection.answer request = .next next) :
    next.channel.source = connection.channel.source := by
  unfold answer at h
  dsimp only at h
  split at h
  · cases h
    rfl
  · cases h

/-- Every turn after which the connection goes on has used up a header at least. -/
theorem left_of_turn_next {connection next : Connection} (h : connection.turn = .next next) :
    next.channel.source.left + Header.size ≤ connection.channel.source.left := by
  obtain ⟨state, ⟨source, sink⟩, bound, served⟩ := connection
  unfold turn at h
  dsimp only at h ⊢
  split at h
  · cases h
  next header afterHeader hheader =>
    have hleft := Source.left_of_header? hheader
    split at h
    · cases h
      dsimp only
      omega
    · split at h
      · cases h
      next payload rest hpayload =>
        have hrest := Source.left_of_take? hpayload
        rw [source_of_answer_next h]
        dsimp only
        omega

/-- Take turns until the unread bytes hold no further request or an answer cannot be written. -/
def pump (connection : Connection) : Option Error × Connection :=
  match _h : connection.turn with
  | .starved connection => (none, connection)
  | .next connection => connection.pump
  | .broken error connection => (some error, connection)
termination_by connection.channel.source.left
decreasing_by
  have := left_of_turn_next _h
  simp only [Header.size] at this
  omega

def receive (connection : Connection) (bytes : ByteArray) : Connection :=
  let ⟨state, ⟨source, sink⟩, bound, served⟩ := connection
  ⟨state, ⟨source.feed bytes, sink⟩, bound, served⟩

def collect (connection : Connection) : ByteArray × Connection :=
  let ⟨state, ⟨source, sink⟩, bound, served⟩ := connection
  (sink.written, ⟨state, ⟨source, { sink with written := ByteArray.empty }⟩, bound, served⟩)

/-- The unread rest is too short for a request: end as the stream does. -/
def finish (connection : Connection) : Except Error Unit × Connection :=
  (match connection.channel.source.ending with
    | .closed => .ok ()
    | .fault => .error (.network .read),
    { connection with
      channel := { connection.channel with source := connection.channel.source.exhaust } })

def run (connection : Connection) : Except Error Unit × Connection :=
  match connection.pump with
  | (some error, connection) => (.error error, connection)
  | (none, connection) => connection.finish

end Connection

end Server

end RemoteMemory
