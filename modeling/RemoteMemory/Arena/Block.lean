import RemoteMemory.Bytes.Basic

/-!
# Blocks, slots and regions

A block lives in a numbered slot. A region names a slot together with the generation that the slot
had when the block was placed, so a reference kept after the slot was vacated can be told from one
to the block that came next.
-/

namespace RemoteMemory

/-- A reference to a block. Any value can be made up; only an arena says which are live. -/
structure Region where
  owner : Nat
  index : Nat
  generation : UInt32
  deriving DecidableEq, Repr

inductive Tag where
  | live
  | freed
  deriving DecidableEq, Repr

/-- A block has the size asked for, which reads and writes are checked against, and the size
reserved. -/
structure Block where
  requested : Nat
  capacity : Nat
  bytes : ByteArray

namespace Block

def zeroed (size : Nat) : Block :=
  ⟨size, size, Bytes.zeros size⟩

def contents (block : Block) : ByteArray :=
  block.bytes.extract 0 block.requested

def overwrite (block : Block) (data : ByteArray) : Block :=
  { block with bytes := Bytes.overwrite block.bytes data }

/-- Give a block another size within its capacity. Bytes that come into view are cleared, since an
earlier, larger size may have left something there. -/
def resizeWithin (block : Block) (newSize : Nat) : Block :=
  { block with
    requested := newSize
    bytes := if block.requested < newSize
      then Bytes.clearRange block.bytes block.requested newSize else block.bytes }

end Block

/-- A place for a block, with a generation that goes up by one whenever the place is reused. -/
structure Slot where
  generation : UInt32
  block? : Option Block

def Slot.tag (slot : Slot) : Tag :=
  if slot.block?.isSome then .live else .freed

end RemoteMemory
