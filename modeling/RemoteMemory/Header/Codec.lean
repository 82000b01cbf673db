import RemoteMemory.Bytes.Basic
import RemoteMemory.Bytes.BigEndian
import RemoteMemory.Header.Basic

/-!
# The 24 bytes of a header

Fields stand in the order magic (4 bytes), version (1), command (1), flags (2), handle (8), size
(4), reserved (4), each big-endian. Every header has an encoding and every string of at least 24
bytes decodes; nothing is checked here.
-/

namespace RemoteMemory

namespace Header

def encodeList (header : Header) : List UInt8 :=
  BigEndian.encode 4 header.magic.toNat
    ++ header.version :: header.command :: BigEndian.encode 2 header.flags.toNat
    ++ BigEndian.encode 8 header.handle.toNat
    ++ BigEndian.encode 4 header.byteCount.toNat
    ++ BigEndian.encode 4 header.reserved.toNat

def encode (header : Header) : ByteArray :=
  header.encodeList.toByteArray

/-- Store a number in the integer field of `width` bytes that starts at `offset`. -/
def storeAt (buffer : ByteArray) (offset width value : Nat) : ByteArray :=
  Bytes.overwriteAt buffer offset (BigEndian.encode width value).toByteArray

def store (header : Header) (buffer : ByteArray) : ByteArray :=
  let buffer := storeAt buffer 0 4 header.magic.toNat
  let buffer := storeAt buffer 4 1 header.version.toNat
  let buffer := storeAt buffer 5 1 header.command.toNat
  let buffer := storeAt buffer 6 2 header.flags.toNat
  let buffer := storeAt buffer 8 8 header.handle.toNat
  let buffer := storeAt buffer 16 4 header.byteCount.toNat
  storeAt buffer 20 4 header.reserved.toNat

/-- Encode into the start of a buffer, which has to hold at least 24 bytes. -/
def encodeInto? (header : Header) (buffer : ByteArray) : Option ByteArray :=
  if size ≤ buffer.size then some (header.store buffer) else none

def fieldAt (bytes : ByteArray) (offset width : Nat) : Nat :=
  BigEndian.decode (bytes.extract offset (offset + width)).data.toList

def ofBytes (bytes : ByteArray) : Header where
  magic := UInt32.ofNat (fieldAt bytes 0 4)
  version := UInt8.ofNat (fieldAt bytes 4 1)
  command := UInt8.ofNat (fieldAt bytes 5 1)
  flags := UInt16.ofNat (fieldAt bytes 6 2)
  handle := UInt64.ofNat (fieldAt bytes 8 8)
  byteCount := UInt32.ofNat (fieldAt bytes 16 4)
  reserved := UInt32.ofNat (fieldAt bytes 20 4)

/-- Decode the first 24 bytes, if there are that many; later bytes are not looked at. -/
def decode? (bytes : ByteArray) : Option Header :=
  if size ≤ bytes.size then some (ofBytes bytes) else none

@[simp] theorem length_encodeList (header : Header) : header.encodeList.length = size := by
  simp [encodeList, size]

@[simp] theorem size_encode (header : Header) : header.encode.size = size := by
  simp [encode]

end Header

end RemoteMemory
