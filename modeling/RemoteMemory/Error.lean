import RemoteMemory.Command
import RemoteMemory.Text.Hex

/-!
# Errors

Each way an operation can fail is a constructor, and `Error.message` holds all of the wording.
-/

namespace RemoteMemory

/-- What went wrong below the messages, on the byte stream itself. -/
inductive Fault where
  | read
  | write
  | flush
  | other (text : String)
  deriving DecidableEq, Repr

def Fault.text : Fault → String
  | read => "read fault"
  | write => "write fault"
  | flush => "flush fault"
  | other text => text

inductive ArgumentFault where
  | emptyAllocation
  | allocationAbove (byteCount bound : Nat)
  | payloadTooLong (byteCount : Nat)
  | readTooLong (byteCount : Nat)
  | other (text : String)
  deriving DecidableEq, Repr

def ArgumentFault.text : ArgumentFault → String
  | emptyAllocation => "allocation size must be greater than zero"
  | allocationAbove byteCount bound => s!"allocation of {byteCount} bytes exceeds maximum {bound}"
  | payloadTooLong byteCount => s!"payload of {byteCount} bytes"
  | readTooLong byteCount => s!"read of {byteCount} bytes"
  | other text => text

inductive ProtocolFault where
  | badMagic (magic : UInt32)
  | unsupportedVersion (version : UInt8)
  | oversized (byteCount bound : UInt32)
  | notPong (header : String)
  | missingHandle
  | other (text : String)
  deriving DecidableEq, Repr

def ProtocolFault.text : ProtocolFault → String
  | badMagic magic => "Bad magic " ++ Hex.padded 8 magic.toNat
  | unsupportedVersion version => s!"Unsupported version {version.toNat}"
  | oversized byteCount bound =>
    s!"Payload size {byteCount.toNat} exceeds maximum {bound.toNat}"
  | notPong header => "expected PONG, got " ++ header
  | missingHandle => "ALLOC answered OK without a handle"
  | other text => text

inductive Error where
  | invalidArgument (fault : ArgumentFault)
  | outOfMemory (requested : Nat)
  | corrupt
  | doubleFree
  | overflow (length size : Nat)
  | notFound (number : UInt64)
  | tableFull
  | network (fault : Fault)
  | protocol (fault : ProtocolFault)
  | connectionClosed
  | rejected (command : Command) (handle : UInt64)
  deriving DecidableEq, Repr

def Error.message : Error → String
  | invalidArgument fault => "Invalid argument: " ++ fault.text
  | outOfMemory requested => s!"Out of memory: could not reserve {requested} bytes"
  | corrupt => "Memory corruption detected"
  | doubleFree => "Double free detected"
  | overflow length size => s!"Buffer overflow: {length} bytes requested, block holds {size}"
  | notFound number => "Handle not found: " ++ Hex.short number.toNat
  | tableFull => "Handle table full"
  | network fault => "Network error: " ++ fault.text
  | protocol fault => "Protocol error: " ++ fault.text
  | connectionClosed => "Connection closed"
  | rejected command handle =>
    "Server rejected " ++ command.name ++ " for handle " ++ Hex.short handle.toNat

end RemoteMemory
