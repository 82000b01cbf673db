import RemoteMemory.Arena.Block
import RemoteMemory.Arena.Stats
import RemoteMemory.Error

/-!
# Arenas

An arena owns every block that it hands out and answers for each region whether it is live, was
freed, or was never issued here. Vacated slots are reused last-freed-first under the next
generation; a new slot is added only when none is vacant. Every operation returns the arena along
with its result, also when it fails.
-/

namespace RemoteMemory

/-- The slots of an arena, with the vacated ones listed last freed first. The bytes outstanding are
those that live blocks reserve; clearing the counters does not touch them. -/
structure Arena where
  id : Nat
  limit : Option Nat := none
  slots : Array Slot := #[]
  vacant : List Nat := []
  stats : Stats := {}
  outstanding : Nat := 0

namespace Arena

/-- No reservation of this many bytes, a quarter of the 64-bit range, or more is ever granted. -/
def reservationLimit : Nat := 0x4000000000000000

def slotLimit : Nat := UInt32.size

def exceedsLimit (arena : Arena) (size : Nat) : Bool :=
  match arena.limit with
  | some limit => decide (limit < arena.outstanding + size)
  | none => false

/-- The tag of a region, nothing if it was never issued here. An older generation of an existing
slot was freed before the slot could be reused; a newer one has not come yet. -/
def tag? (arena : Arena) (region : Region) : Option Tag :=
  if region.owner ≠ arena.id then none
  else
    match arena.slots[region.index]? with
    | none => none
    | some slot =>
      if region.generation = slot.generation then some slot.tag
      else if region.generation < slot.generation then some .freed
      else none

def isValid (arena : Arena) (region : Region) : Bool :=
  arena.tag? region = some .live

def block? (arena : Arena) (region : Region) : Option Block :=
  if arena.isValid region then (arena.slots[region.index]?).bind Slot.block? else none

def liveBlocks (arena : Arena) : Nat :=
  arena.slots.size - arena.vacant.length

/-- The sizes of a live block: the one asked for and the one reserved. -/
def header? (arena : Arena) (region : Region) : Option (Nat × Nat) :=
  (arena.block? region).map fun block => (block.requested, block.capacity)

/-- The size asked for, 0 unless the region is live. -/
def sizeOf (arena : Arena) (region : Region) : Nat :=
  ((arena.block? region).map Block.requested).getD 0

def setBlock (arena : Arena) (index : Nat) (block? : Option Block) : Arena :=
  { arena with slots := arena.slots.modify index fun slot => { slot with block? := block? } }

def recordAllocation (arena : Arena) (size : Nat) : Arena :=
  { arena with
    stats := arena.stats.recordAllocation size
    outstanding := arena.outstanding + size }

/-- The generation that a block placed in a slot will have: one more than the slot has now, 0 in a
slot that does not exist yet. -/
def nextGeneration (arena : Arena) (index : Nat) : UInt32 :=
  match arena.slots[index]? with
  | some slot => slot.generation + 1
  | none => 0

/-- Place a block in a vacated slot, the head of the vacant list. -/
def reuse (arena : Arena) (index : Nat) (vacant : List Nat) (size : Nat) : Region × Arena :=
  let generation := arena.nextGeneration index
  (⟨arena.id, index, generation⟩,
    { arena with
      slots := arena.slots.modify index fun _ => ⟨generation, some (.zeroed size)⟩
      vacant := vacant }.recordAllocation size)

def extend (arena : Arena) (size : Nat) : Region × Arena :=
  (⟨arena.id, arena.slots.size, 0⟩,
    { arena with slots := arena.slots.push ⟨0, some (.zeroed size)⟩ }.recordAllocation size)

/-- Place a block, unless the system refuses the memory for it. -/
def allocate (arena : Arena) (refused : Bool) (size : Nat) : Except Error Region × Arena :=
  if size = 0 then (.error (.invalidArgument .emptyAllocation), arena)
  else if arena.exceedsLimit size then (.error (.outOfMemory size), arena)
  else if refused = true ∨ reservationLimit ≤ size then (.error (.outOfMemory size), arena)
  else
    match arena.vacant with
    | index :: vacant =>
      let (region, arena) := arena.reuse index vacant size
      (.ok region, arena)
    | [] =>
      if slotLimit ≤ arena.slots.size then (.error (.outOfMemory size), arena)
      else
        let (region, arena) := arena.extend size
        (.ok region, arena)

def vacate (arena : Arena) (index : Nat) (block : Block) : Arena :=
  { arena.setBlock index none with
    vacant := index :: arena.vacant
    stats := arena.stats.recordRelease block.capacity
    outstanding := arena.outstanding - block.capacity }

def release (arena : Arena) : Option Region → Except Error Unit × Arena
  | none => (.ok (), arena)
  | some region =>
    match arena.tag? region with
    | none => (.error .corrupt, arena)
    | some .freed => (.error .doubleFree, arena)
    | some .live =>
      match arena.block? region with
      | some block => (.ok (), arena.vacate region.index block)
      | none => (.ok (), arena)

def view (arena : Arena) (region : Region) : Except Error ByteArray :=
  match arena.block? region with
  | some block => .ok block.contents
  | none => .error .corrupt

/-- Overwrite the start of a block. Data longer than the size asked for is refused, even if it
would fit the capacity. -/
def write (arena : Arena) (region : Region) (data : ByteArray) : Except Error Unit × Arena :=
  match arena.block? region with
  | none => (.error .corrupt, arena)
  | some block =>
    if block.requested < data.size then (.error (.overflow data.size block.requested), arena)
    else (.ok (), arena.setBlock region.index (some (block.overwrite data)))

/-- Fill a buffer from the start of a block. A buffer longer than the block is refused and stays
as it was. -/
def readInto (arena : Arena) (region : Region) (buffer : ByteArray) :
    Except Error Unit × ByteArray :=
  match arena.block? region with
  | none => (.error .corrupt, buffer)
  | some block =>
    if block.requested < buffer.size then
      (.error (.overflow buffer.size block.requested), buffer)
    else (.ok (), block.bytes.extract 0 buffer.size)

/-- Move a block to a new one that is larger. Nothing has changed if the new block cannot be had. -/
def move (arena : Arena) (refused : Bool) (region : Region) (newSize : Nat) :
    Except Error (Option Region) × Arena :=
  match arena.allocate refused newSize with
  | (.error error, arena) => (.error error, arena)
  | (.ok moved, arena) =>
    match arena.view region with
    | .error error => (.error error, arena)
    | .ok contents =>
      match arena.write moved (contents.extract 0 newSize) with
      | (.error error, arena) => (.error error, arena)
      | (.ok (), arena) =>
        match arena.release region with
        | (.error error, arena) => (.error error, arena)
        | (.ok (), arena) => (.ok (some moved), arena)

/-- Change the size of a block. Resizing nothing allocates, a new size of 0 releases, a new size
within the capacity keeps the region, and any other size moves the block. -/
def resize (arena : Arena) (refused : Bool) (region? : Option Region) (newSize : Nat) :
    Except Error (Option Region) × Arena :=
  match region? with
  | none =>
    match arena.allocate refused newSize with
    | (.ok region, arena) => (.ok (some region), arena)
    | (.error error, arena) => (.error error, arena)
  | some region =>
    if newSize = 0 then
      match arena.release region with
      | (.ok (), arena) => (.ok none, arena)
      | (.error error, arena) => (.error error, arena)
    else
      match arena.block? region with
      | none => (.error .corrupt, arena)
      | some block =>
        if newSize ≤ block.capacity then
          (.ok (some region), arena.setBlock region.index (some (block.resizeWithin newSize)))
        else arena.move refused region newSize

/-- Clear the counters. Live blocks, and the bytes they count against the limit, stay. -/
def resetStats (arena : Arena) : Arena :=
  { arena with stats := {} }

end Arena

end RemoteMemory
