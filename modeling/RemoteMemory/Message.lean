import RemoteMemory.Error
import RemoteMemory.Header.Codec

/-!
# Messages

A message is a header and a payload, and its frame is what travels: the encoded header followed at
once by the payload. The two parts are independent, so a message can be built whose header does
not announce its payload; the constructors below build only messages that agree with themselves.
-/

namespace RemoteMemory

structure Message where
  header : Header
  payload : ByteArray := ByteArray.empty

namespace Message

def request (command : Command) (handle : UInt64) (byteCount : UInt32) : Message where
  header := .ofCommand command handle byteCount

/-- A message that carries `payload` and says so in its size field. -/
def withPayload (command : Command) (handle : UInt64) (payload : ByteArray) :
    Except Error Message :=
  if payload.size < UInt32.size then
    .ok ⟨.ofCommand command handle (UInt32.ofNat payload.size), payload⟩
  else .error (.invalidArgument (.payloadTooLong payload.size))

def pong : Message :=
  request .pong 0 0

def ok (handle : UInt64) : Message :=
  request .ok handle 0

def error (handle : UInt64) : Message :=
  request .error handle 0

@[simp] theorem command?_request (command : Command) (handle : UInt64) (byteCount : UInt32) :
    (request command handle byteCount).header.command? = some command :=
  Header.command?_ofCommand command handle byteCount

@[simp] theorem command?_pong : pong.header.command? = some .pong :=
  command?_request .pong 0 0

@[simp] theorem command?_ok (handle : UInt64) : (ok handle).header.command? = some .ok :=
  command?_request .ok handle 0

@[simp] theorem command?_error (handle : UInt64) : (error handle).header.command? = some .error :=
  command?_request .error handle 0

def wireSize (message : Message) : Nat :=
  Header.size + message.payload.size

def frame (message : Message) : ByteArray :=
  message.header.encode ++ message.payload

@[simp] theorem size_frame (message : Message) : message.frame.size = message.wireSize := by
  simp [frame, wireSize]

def Consistent (message : Message) : Prop :=
  message.payload.size = message.header.payloadSize

end Message

end RemoteMemory
