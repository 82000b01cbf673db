import RemoteMemory.Error

/-!
# Sinks

A sink keeps what is written to it. It may have room for only so many bytes, and a write that does
not fit keeps what does and fails; any flush may fail too, after the bytes are in.
-/

namespace RemoteMemory

/-- Where bytes are written to: how many more it takes, if not any number, and which flushes fail,
by how many were asked for before. -/
structure Sink where
  room : Option Nat := none
  flushFails : Nat → Bool := fun _ => false
  written : ByteArray := ByteArray.empty
  flushes : Nat := 0

namespace Sink

/-- Write all of `data`, or as much as there is room for. -/
def write (sink : Sink) (data : ByteArray) : Except Error Unit × Sink :=
  match sink.room with
  | none => (.ok (), { sink with written := sink.written ++ data })
  | some room =>
    if data.size ≤ room then
      (.ok (), { sink with written := sink.written ++ data, room := some (room - data.size) })
    else
      (.error (.network .write),
        { sink with written := sink.written ++ data.extract 0 room, room := some 0 })

def flush (sink : Sink) : Except Error Unit × Sink :=
  (if sink.flushFails sink.flushes then .error (.network .flush) else .ok (),
    { sink with flushes := sink.flushes + 1 })

/-- Write a line with its newline and flush. The first failure ends it. -/
def writeLine (sink : Sink) (line : String) : Except Error Unit × Sink :=
  match sink.write line.toUTF8 with
  | (.error error, sink) => (.error error, sink)
  | (.ok (), sink) =>
    match sink.write "\n".toUTF8 with
    | (.error error, sink) => (.error error, sink)
    | (.ok (), sink) => sink.flush

def writeLines (sink : Sink) : List String → List (Except Error Unit) × Sink
  | [] => ([], sink)
  | line :: rest =>
    let (result, sink) := sink.writeLine line
    let (results, sink) := sink.writeLines rest
    (result :: results, sink)

structure Open (sink : Sink) : Prop where
  room_eq : sink.room = none
  flushFails_eq : sink.flushFails = fun _ => false

end Sink

end RemoteMemory
