import RemoteMemory.Command
import RemoteMemory.Text.Hex

/-!
# Message headers

A header has seven fields. The command is kept as its byte, so a header with an unknown command
is still a value. Whether the header is acceptable, and how many payload bytes follow it, are
questions asked of the fields afterwards.
-/

namespace RemoteMemory

namespace Header

def sentinel : UInt32 := 0xE7E7E7E7

def currentVersion : UInt8 := 1

def size : Nat := 24

/-- The largest size field that is accepted unless a configuration says otherwise: 16 MiB. -/
def defaultBound : UInt32 := 16777216

end Header

/-- The fields in front of every message. The byte count is that of the payload, or the number of
bytes asked for. -/
structure Header where
  magic : UInt32 := Header.sentinel
  version : UInt8 := Header.currentVersion
  command : UInt8
  flags : UInt16 := 0
  handle : UInt64 := 0
  byteCount : UInt32 := 0
  reserved : UInt32 := 0
  deriving DecidableEq, Repr

namespace Header

def ofCommand (command : Command) (handle : UInt64) (byteCount : UInt32) : Header where
  command := command.code
  handle := handle
  byteCount := byteCount

def command? (header : Header) : Option Command :=
  Command.ofCode? header.command

/-- The number of payload bytes behind a header. A header with an unknown command is taken to
announce its payload in the size field. -/
def payloadSize (header : Header) : Nat :=
  match header.command? with
  | some command => if command.sizeIsPayload then header.byteCount.toNat else 0
  | none => header.byteCount.toNat

def isOk (header : Header) : Bool :=
  header.command == Command.ok.code

def isError (header : Header) : Bool :=
  header.command == Command.error.code

def commandText (header : Header) : String :=
  match header.command? with
  | some command => command.name
  | none => s!"UNKNOWN({Hex.padded 2 header.command.toNat})"

/-- A header on one line. The magic number appears only when it is wrong. -/
def text (header : Header) : String :=
  let fields := header.commandText ++ " handle=" ++ Hex.short header.handle.toNat
    ++ " size=" ++ toString header.byteCount.toNat
    ++ " flags=" ++ Hex.padded 4 header.flags.toNat
  if header.magic = sentinel then fields
  else fields ++ " magic=" ++ Hex.padded 8 header.magic.toNat ++ "(INVALID)"

@[simp] theorem command?_ofCommand (command : Command) (handle : UInt64) (byteCount : UInt32) :
    (ofCommand command handle byteCount).command? = some command :=
  Command.ofCode?_code command

end Header

end RemoteMemory
