import RemoteMemory.Header.Check
import RemoteMemory.Message
import RemoteMemory.Stream.Sink
import RemoteMemory.Stream.Source

/-!
# Messages on a byte stream

Reading a message takes a header, checks it and takes the payload that it announces. No mark
separates messages, so the next one starts where the last one's payload ends. Writing a message
writes its frame and flushes.
-/

namespace RemoteMemory

namespace Source

def header? (source : Source) : Option (Header × Source) :=
  (source.take? Header.size).map fun (bytes, rest) => (.ofBytes bytes, rest)

/-- Read a header. The end of the stream, also amid a header, is no header. -/
def readHeader (source : Source) : Except Error (Option Header) × Source :=
  match source.header? with
  | some (header, rest) => (.ok (some header), rest)
  | none =>
    match source.ending with
    | .closed => (.ok none, source.exhaust)
    | .fault => (.error source.shortage, source.exhaust)

def readPayload (source : Source) (count : Nat) : Except Error ByteArray × Source :=
  match source.take? count with
  | some (payload, rest) => (.ok payload, rest)
  | none => (.error source.shortage, source.exhaust)

/-- Read the next message with a header that is within `bound`. A refused header is used up, its
payload is not. -/
def readMessage (source : Source) (bound : UInt32) : Except Error Message × Source :=
  match source.readHeader with
  | (.error error, rest) => (.error error, rest)
  | (.ok none, rest) => (.error .connectionClosed, rest)
  | (.ok (some header), rest) =>
    match header.check bound with
    | .error error => (.error error, rest)
    | .ok () =>
      match rest.readPayload header.payloadSize with
      | (.error error, rest) => (.error error, rest)
      | (.ok payload, rest) => (.ok ⟨header, payload⟩, rest)

def wouldWait (source : Source) (bound : UInt32) : Bool :=
  match source.header? with
  | none => true
  | some (header, rest) =>
    match header.check bound with
    | .error _ => false
    | .ok () => decide (rest.left < header.payloadSize)

theorem left_of_header? {source rest : Source} {header : Header}
    (h : source.header? = some (header, rest)) : source.left = Header.size + rest.left := by
  unfold header? at h
  cases ht : source.take? Header.size with
  | none => simp [ht] at h
  | some pair =>
    obtain ⟨bytes, after⟩ := pair
    simp only [ht, Option.map_some, Option.some.injEq, Prod.mk.injEq] at h
    obtain ⟨-, rfl⟩ := h
    exact left_of_take? ht

theorem header?_eq_none_iff {source : Source} :
    source.header? = none ↔ source.left < Header.size := by
  rw [header?, Option.map_eq_none_iff, take?_eq_none_iff]

theorem header?_of_unread {source : Source} {block back : ByteArray}
    (hblock : block.size = Header.size) (h : source.unread = block ++ back) :
    ∃ rest, source.header? = some (.ofBytes block, rest) ∧ rest.unread = back ∧
      source.SameStream rest := by
  obtain ⟨rest, htake, hrest, hsame⟩ := take?_of_unread h
  rw [hblock] at htake
  refine ⟨rest, ?_, hrest, hsame⟩
  rw [header?, htake, Option.map_some]

end Source

namespace Sink

def writeMessage (sink : Sink) (message : Message) : Except Error Unit × Sink :=
  match sink.write message.header.encode with
  | (.error error, sink) => (.error error, sink)
  | (.ok (), sink) =>
    if message.payload.isEmpty then sink.flush
    else
      match sink.write message.payload with
      | (.error error, sink) => (.error error, sink)
      | (.ok (), sink) => sink.flush

/-- A sink with room takes the frame of a message, whether or not the flush behind it fails. -/
theorem writeMessage_of_room_eq_none {sink : Sink} (h : sink.room = none) (message : Message) :
    sink.writeMessage message =
      (if sink.flushFails sink.flushes then .error (.network .flush) else .ok (),
        { sink with written := sink.written ++ message.frame, flushes := sink.flushes + 1 }) := by
  obtain ⟨room, flushFails, written, flushes⟩ := sink
  obtain rfl : room = none := h
  by_cases hempty : message.payload.isEmpty
  · have hpayload := Bytes.eq_empty_of_isEmpty hempty
    simp [writeMessage, write, flush, Message.frame, hpayload, ByteArray.isEmpty]
  · simp [writeMessage, write, flush, Message.frame, hempty, ByteArray.append_assoc]

theorem writeMessage_of_flushed {sink : Sink} (hroom : sink.room = none)
    (hflush : sink.flushFails sink.flushes = false) (message : Message) :
    sink.writeMessage message = (.ok (),
      { sink with written := sink.written ++ message.frame, flushes := sink.flushes + 1 }) := by
  rw [writeMessage_of_room_eq_none hroom, hflush]
  rfl

theorem writeMessage_of_unflushed {sink : Sink} (hroom : sink.room = none)
    (hflush : sink.flushFails sink.flushes = true) (message : Message) :
    sink.writeMessage message = (.error (.network .flush),
      { sink with written := sink.written ++ message.frame, flushes := sink.flushes + 1 }) := by
  rw [writeMessage_of_room_eq_none hroom, hflush]
  rfl

theorem writeMessage_of_open {sink : Sink} (h : sink.Open) (message : Message) :
    sink.writeMessage message = (.ok (),
      { sink with written := sink.written ++ message.frame, flushes := sink.flushes + 1 }) :=
  writeMessage_of_flushed h.room_eq (congrFun h.flushFails_eq _) message

theorem Open.writeMessage {sink : Sink} (h : sink.Open) (message : Message) :
    (sink.writeMessage message).2.Open := by
  rw [writeMessage_of_open h]
  exact ⟨h.room_eq, h.flushFails_eq⟩

end Sink

end RemoteMemory
