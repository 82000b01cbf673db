import RemoteMemory.Proofs.Arena.Ceiling

/-!
# Nothing out of bounds

The operations look slots up by number, cut ranges out of byte strings and take blocks out of slots
without asking whether there is such a slot, range or block. They rely on how the slots, the vacant
list and the blocks fit together. Here every operation is written once more with a guard at each of
these places; a guard that fails ends it with a fault. In a well-formed arena no guard fails, and
the guarded operation comes to what the plain one comes to. Generations play no part in this, so it
holds along every run, however often they wrap around.
-/

namespace RemoteMemory

namespace Arena

/-! ## Guards -/

inductive Fault where
  | noSlot (index : Nat)
  | noBlock (index : Nat)
  | noRange (start stop size : Nat)
  | deficit (total part : Nat)

abbrev Guarded (α : Type) :=
  Except Fault α

namespace Guarded

def slotAt (arena : Arena) (index : Nat) : Guarded Slot :=
  match arena.slots[index]? with
  | some slot => .ok slot
  | none => .error (.noSlot index)

def blockAt (arena : Arena) (index : Nat) : Guarded Block := do
  let slot ← slotAt arena index
  match slot.block? with
  | some block => .ok block
  | none => .error (.noBlock index)

def slice (bytes : ByteArray) (start stop : Nat) : Guarded ByteArray :=
  if start ≤ stop ∧ stop ≤ bytes.size then .ok (bytes.extract start stop)
  else .error (.noRange start stop bytes.size)

def clear (bytes : ByteArray) (start stop : Nat) : Guarded ByteArray :=
  if start ≤ stop ∧ stop ≤ bytes.size then .ok (Bytes.clearRange bytes start stop)
  else .error (.noRange start stop bytes.size)

def overwrite (bytes data : ByteArray) : Guarded ByteArray :=
  if data.size ≤ bytes.size then .ok (Bytes.overwrite bytes data)
  else .error (.noRange 0 data.size bytes.size)

def subtract (total part : Nat) : Guarded Nat :=
  if part ≤ total then .ok (total - part) else .error (.deficit total part)

/-! ## Guarded operations -/

def find (arena : Arena) (region : Region) : Guarded (Option Block) :=
  if arena.isValid region then do
    let block ← blockAt arena region.index
    .ok (some block)
  else .ok none

def liveBlocks (arena : Arena) : Guarded Nat :=
  subtract arena.slots.size arena.vacant.length

def reuse (arena : Arena) (index : Nat) (vacant : List Nat) (size : Nat) :
    Guarded (Region × Arena) := do
  let slot ← slotAt arena index
  let generation := slot.generation + 1
  .ok (⟨arena.id, index, generation⟩,
    { arena with
      slots := arena.slots.modify index fun _ => ⟨generation, some (.zeroed size)⟩
      vacant := vacant }.recordAllocation size)

def allocate (arena : Arena) (refused : Bool) (size : Nat) :
    Guarded (Except Error Region × Arena) :=
  if size = 0 then .ok (.error (.invalidArgument .emptyAllocation), arena)
  else if arena.exceedsLimit size then .ok (.error (.outOfMemory size), arena)
  else if refused = true ∨ reservationLimit ≤ size then .ok (.error (.outOfMemory size), arena)
  else
    match arena.vacant with
    | index :: vacant => do
      let (region, after) ← reuse arena index vacant size
      .ok (.ok region, after)
    | [] =>
      if slotLimit ≤ arena.slots.size then .ok (.error (.outOfMemory size), arena)
      else
        let (region, after) := arena.extend size
        .ok (.ok region, after)

def release (arena : Arena) : Option Region → Guarded (Except Error Unit × Arena)
  | none => .ok (.ok (), arena)
  | some region =>
    match arena.tag? region with
    | none => .ok (.error .corrupt, arena)
    | some .freed => .ok (.error .doubleFree, arena)
    | some .live => do
      let block ← blockAt arena region.index
      let outstanding ← subtract arena.outstanding block.capacity
      .ok (.ok (), { arena.setBlock region.index none with
        vacant := region.index :: arena.vacant
        stats := arena.stats.recordRelease block.capacity
        outstanding := outstanding })

def view (arena : Arena) (region : Region) : Guarded (Except Error ByteArray) := do
  match ← find arena region with
  | none => .ok (.error .corrupt)
  | some block =>
    let contents ← slice block.bytes 0 block.requested
    .ok (.ok contents)

def write (arena : Arena) (region : Region) (data : ByteArray) :
    Guarded (Except Error Unit × Arena) := do
  match ← find arena region with
  | none => .ok (.error .corrupt, arena)
  | some block =>
    if block.requested < data.size then .ok (.error (.overflow data.size block.requested), arena)
    else
      let bytes ← overwrite block.bytes data
      .ok (.ok (), arena.setBlock region.index (some { block with bytes := bytes }))

def readInto (arena : Arena) (region : Region) (buffer : ByteArray) :
    Guarded (Except Error Unit × ByteArray) := do
  match ← find arena region with
  | none => .ok (.error .corrupt, buffer)
  | some block =>
    if block.requested < buffer.size then
      .ok (.error (.overflow buffer.size block.requested), buffer)
    else
      let filled ← slice block.bytes 0 buffer.size
      .ok (.ok (), filled)

def move (arena : Arena) (refused : Bool) (region : Region) (block : Block) (newSize : Nat) :
    Guarded (Except Error (Option Region) × Arena) := do
  match ← allocate arena refused newSize with
  | (.error error, arena) => .ok (.error error, arena)
  | (.ok moved, arena) =>
    match ← view arena region with
    | .error error => .ok (.error error, arena)
    | .ok contents =>
      let kept ← slice contents 0 (min block.requested newSize)
      match ← write arena moved kept with
      | (.error error, arena) => .ok (.error error, arena)
      | (.ok (), arena) =>
        match ← release arena (some region) with
        | (.error error, arena) => .ok (.error error, arena)
        | (.ok (), arena) => .ok (.ok (some moved), arena)

def resize (arena : Arena) (refused : Bool) (region? : Option Region) (newSize : Nat) :
    Guarded (Except Error (Option Region) × Arena) :=
  match region? with
  | none => do
    let (result, after) ← allocate arena refused newSize
    .ok (result.map some, after)
  | some region =>
    if newSize = 0 then do
      let (result, after) ← release arena (some region)
      .ok (result.map fun _ => none, after)
    else do
      match ← find arena region with
      | none => .ok (.error .corrupt, arena)
      | some block =>
        if newSize ≤ block.capacity then
          let bytes ← if block.requested < newSize then clear block.bytes block.requested newSize
            else .ok block.bytes
          .ok (.ok (some region), arena.setBlock region.index
            (some { block with requested := newSize, bytes := bytes }))
        else move arena refused region block newSize

def attempt (arena : Arena) (refused : Bool) : Call → Guarded (Event × Arena)
  | .allocate size => do
    let (result, after) ← allocate arena refused size
    .ok (.allocate size result, after)
  | .release region? => do
    let (result, after) ← release arena region?
    .ok (.release region? result, after)
  | .resize region? newSize => do
    let (result, after) ← resize arena refused region? newSize
    .ok (.resize region? newSize result, after)
  | .write region data => do
    let (result, after) ← write arena region data
    .ok (.write region data result, after)
  | .read region buffer => do
    let (result, filled) ← readInto arena region buffer
    .ok (.read region buffer result filled, arena)
  | .view region => do
    let result ← view arena region
    .ok (.view region result, arena)
  | .resetStats => .ok (.resetStats, arena.resetStats)

/-! ## No guard fails -/

variable {arena : Arena} {region : Region} {block : Block}

@[simp] theorem ok_bind {α β : Type} (value : α) (next : α → Guarded β) :
    (Except.ok value >>= next : Guarded β) = next value := rfl

theorem slotAt_of_getElem? {index : Nat} {slot : Slot} (h : arena.slots[index]? = some slot) :
    slotAt arena index = .ok slot := by
  simp only [slotAt, h]

theorem slice_zero_of_le {bytes : ByteArray} {stop : Nat} (h : stop ≤ bytes.size) :
    slice bytes 0 stop = .ok (bytes.extract 0 stop) :=
  if_pos ⟨Nat.zero_le stop, h⟩

theorem clear_of_le {bytes : ByteArray} {start stop : Nat} (hs : start ≤ stop)
    (he : stop ≤ bytes.size) : clear bytes start stop = .ok (Bytes.clearRange bytes start stop) :=
  if_pos ⟨hs, he⟩

theorem overwrite_of_le {bytes data : ByteArray} (h : data.size ≤ bytes.size) :
    overwrite bytes data = .ok (Bytes.overwrite bytes data) :=
  if_pos h

theorem subtract_of_le {total part : Nat} (h : part ≤ total) :
    subtract total part = .ok (total - part) :=
  if_pos h

theorem blockAt_of_mem (h : (region, block) ∈ arena.blocks) :
    blockAt arena region.index = .ok block := by
  obtain ⟨-, slot, hslot, -, hblock⟩ := mem_blocks_iff.mp h
  simp only [blockAt, slotAt_of_getElem? hslot, ok_bind, hblock]

/-- A tag is read off the slot, so a region that is tagged live has a slot and a block. -/
theorem find_eq (arena : Arena) (region : Region) :
    find arena region = .ok (arena.block? region) := by
  cases hblock : arena.block? region with
  | none =>
      have hvalid : ¬ arena.isValid region = true := by
        simpa [isValid] using block?_eq_none_iff.mp hblock
      rw [find, if_neg hvalid]
  | some block =>
      have hmem := block?_eq_some_iff.mp hblock
      have hvalid : arena.isValid region = true := by
        simpa [isValid] using tag?_of_mem_blocks hmem
      rw [find, if_pos hvalid, blockAt_of_mem hmem, ok_bind]

theorem reuse_eq {index : Nat} {slot : Slot} (h : arena.slots[index]? = some slot)
    (vacant : List Nat) (size : Nat) :
    reuse arena index vacant size = .ok (arena.reuse index vacant size) := by
  simp only [reuse, slotAt_of_getElem? h, ok_bind, Arena.reuse, nextGeneration, h]

/-- The head of the vacant list is the number of a slot. -/
theorem allocate_eq (h : arena.WellFormed) (refused : Bool) (size : Nat) :
    allocate arena refused size = .ok (arena.allocate refused size) := by
  unfold allocate Arena.allocate
  split
  · rfl
  split
  · rfl
  split
  · rfl
  cases hvacant : arena.vacant with
  | cons index vacant =>
      have hindex : index ∈ arena.vacant := hvacant ▸ List.mem_cons_self
      obtain ⟨slot, hslot, -⟩ := (h.mem_vacant_iff index).mp hindex
      simp only [reuse_eq hslot, ok_bind]
  | nil =>
      dsimp only
      split <;> rfl

/-- The capacity of a live block is counted among the bytes held. -/
theorem release_eq (h : arena.WellFormed) (region? : Option Region) :
    release arena region? = .ok (arena.release region?) := by
  cases region? with
  | none => rfl
  | some region =>
      cases htag : arena.tag? region with
      | none => simp only [release, Arena.release, htag]
      | some tag =>
          cases tag with
          | freed => simp only [release, Arena.release, htag]
          | live =>
              obtain ⟨block, hmem⟩ := tag?_eq_live_iff.mp htag
              obtain ⟨after, -, -, released⟩ := h.release hmem
              have hheld : block.capacity ≤ arena.outstanding :=
                released.outstanding_eq ▸ Nat.le_add_left _ _
              simp only [release, Arena.release, htag, blockAt_of_mem hmem, ok_bind,
                subtract_of_le hheld, block?_of_mem_blocks hmem]
              rfl

theorem view_eq (h : arena.WellFormed) (region : Region) :
    view arena region = .ok (arena.view region) := by
  rw [view, find_eq, ok_bind]
  cases hblock : arena.block? region with
  | none => simp only [view_of_not_live hblock]
  | some block =>
      have hsized := h.wellSized _ (block?_eq_some_iff.mp hblock)
      have hrange := hsized.le_size_bytes (Nat.le_refl _)
      simp only [view_of_block? hblock, slice_zero_of_le hrange, ok_bind]
      rfl

theorem write_eq (h : arena.WellFormed) (region : Region) (data : ByteArray) :
    write arena region data = .ok (arena.write region data) := by
  rw [write, find_eq, ok_bind]
  cases hblock : arena.block? region with
  | none => simp only [write_of_not_live hblock]
  | some block =>
      have hsized := h.wellSized _ (block?_eq_some_iff.mp hblock)
      by_cases hlong : block.requested < data.size
      · simp only [write_of_lt hblock hlong, if_pos hlong]
      · have hfits := hsized.le_size_bytes (Nat.not_lt.mp hlong)
        simp only [Arena.write, hblock, if_neg hlong, overwrite_of_le hfits, ok_bind]
        rfl

theorem readInto_eq (h : arena.WellFormed) (region : Region) (buffer : ByteArray) :
    readInto arena region buffer = .ok (arena.readInto region buffer) := by
  rw [readInto, find_eq, ok_bind]
  cases hblock : arena.block? region with
  | none => simp only [readInto_of_not_live hblock]
  | some block =>
      have hsized := h.wellSized _ (block?_eq_some_iff.mp hblock)
      by_cases hlong : block.requested < buffer.size
      · simp only [readInto_of_lt hblock hlong, if_pos hlong]
      · have hrange := hsized.le_size_bytes (Nat.not_lt.mp hlong)
        simp only [Arena.readInto, hblock, if_neg hlong, slice_zero_of_le hrange, ok_bind]

/-- The old block is still there when the new one has been placed, and as long as it was. -/
theorem move_eq (h : arena.WellFormed) (refused : Bool) {newSize : Nat}
    (hblock : arena.block? region = some block) :
    move arena refused region block newSize = .ok (arena.move refused region newSize) := by
  rw [move, allocate_eq h, ok_bind, Arena.move]
  rcases h.allocate_cases refused newSize with ⟨-, error, hallocate⟩ |
    ⟨-, moved, placed, hallocate, hplaced, allocated⟩
  · simp only [hallocate]
  · have hmem := block?_eq_some_iff.mp hblock
    have hne : region ≠ moved := fun heq => allocated.not_mem block (heq ▸ hmem)
    have hkept : placed.block? region = some block := (allocated.block?_eq hne).trans hblock
    have hsize : block.contents.size = block.requested := Block.size_contents (h.wellSized _ hmem)
    have hrange : min block.requested newSize ≤ block.contents.size :=
      hsize ▸ Nat.min_le_left _ _
    have hcut : block.contents.extract 0 (min block.requested newSize) =
        block.contents.extract 0 newSize := by
      rw [Nat.min_comm, ← hsize, Bytes.extract_zero_min_size]
    simp only [hallocate, view_eq hplaced, view_of_block? hkept, ok_bind, slice_zero_of_le hrange,
      hcut, write_eq hplaced]
    have hwritten := hplaced.after_write moved (block.contents.extract 0 newSize)
    generalize placed.write moved (block.contents.extract 0 newSize) = outcome at hwritten ⊢
    obtain ⟨error | _, written⟩ := outcome
    · rfl
    · simp only [release_eq hwritten, ok_bind]
      generalize written.release (some region) = outcome
      obtain ⟨error | _, after⟩ := outcome <;> rfl

/-- A range that comes into view lies within the capacity. -/
theorem resize_eq (h : arena.WellFormed) (refused : Bool) (region? : Option Region)
    (newSize : Nat) :
    resize arena refused region? newSize = .ok (arena.resize refused region? newSize) := by
  have hresizing := resizing_resize arena refused region? newSize
  generalize arena.resize refused region? newSize = outcome at hresizing ⊢
  cases hresizing with
  | fresh => simp only [resize, allocate_eq h, ok_bind]
  | empty region => simp only [resize, if_true, release_eq h, ok_bind]
  | notLive hblock hpos =>
      simp only [resize, if_neg (Nat.pos_iff_ne_zero.mp hpos), find_eq, ok_bind, hblock]
  | @within region block _ hblock hpos hle =>
      have hsized := h.wellSized _ (block?_eq_some_iff.mp hblock)
      simp only [resize, if_neg (Nat.pos_iff_ne_zero.mp hpos), find_eq, ok_bind, hblock,
        if_pos hle, Block.resizeWithin]
      by_cases hgrow : block.requested < newSize
      · have hend : newSize ≤ block.bytes.size := hsized.size_bytes ▸ hle
        simp only [if_pos hgrow, clear_of_le (Nat.le_of_lt hgrow) hend, ok_bind]
      · simp only [if_neg hgrow]
  | beyond hblock hlt =>
      have hne : newSize ≠ 0 := Nat.ne_zero_of_lt hlt
      simp only [resize, if_neg hne, find_eq, ok_bind, hblock, if_neg (Nat.not_le.mpr hlt),
        move_eq h refused hblock]

/-- No guard of any call fails, whether or not the system refuses it memory. -/
theorem attempt_eq (h : arena.WellFormed) (refused : Bool) (call : Call) :
    attempt arena refused call = .ok (arena.attempt refused call) := by
  cases call with
  | allocate size => rw [attempt, allocate_eq h, ok_bind, Arena.attempt]
  | release region? => rw [attempt, release_eq h, ok_bind, Arena.attempt]
  | resize region? newSize => rw [attempt, resize_eq h, ok_bind, Arena.attempt]
  | write region data => rw [attempt, write_eq h, ok_bind, Arena.attempt]
  | read region buffer => rw [attempt, readInto_eq h, ok_bind, Arena.attempt]
  | view region => rw [attempt, view_eq h, ok_bind, Arena.attempt]
  | resetStats => rfl

/-- Guards fail in arenas that are not well formed: a vacant slot that does not exist, and a block
that shows more bytes than it has. -/
example : attempt { id := 0, vacant := [3] } false (.allocate 4) = .error (.noSlot 3) ∧
    attempt { id := 0, slots := #[⟨0, some ⟨4, 4, Bytes.zeros 2⟩⟩] } false (.view ⟨0, 0, 0⟩) =
      .error (.noRange 0 4 2) := ⟨rfl, rfl⟩

end Guarded

/-! ## In every state that an arena can come to -/

theorem length_blocks (arena : Arena) :
    arena.blocks.length = arena.slots.countP fun slot => slot.tag = .live := by
  have hlisted : ∀ place : Slot × Nat, (place.1.listed arena.id place.2).isSome =
      ((fun slot : Slot => decide (slot.tag = .live)) ∘ Prod.fst) place := by
    intro place
    cases hblock : place.1.block? <;> simp [Slot.listed, Slot.tag, hblock]
  rw [blocks, Slot.listing, List.length_filterMap_eq_countP, ← Array.countP_toList,
    List.countP_congr fun place _ => Bool.eq_iff_iff.mp (hlisted place), ← List.countP_map,
    List.zipIdx_map_fst]

/-- How the slots, the vacant list and the blocks of an arena fit together, and that every operation
may rely on it. -/
structure Intact (arena : Arena) : Prop where
  nodup_vacant : arena.vacant.Nodup
  lt_of_mem_vacant : ∀ index ∈ arena.vacant, index < arena.slots.size
  mem_vacant_iff : ∀ index, index ∈ arena.vacant ↔
    ∃ slot, arena.slots[index]? = some slot ∧ slot.tag = .freed
  wellSized : ∀ slot ∈ arena.slots, ∀ block, slot.block? = some block →
    1 ≤ block.requested ∧ block.requested ≤ block.capacity ∧ block.bytes.size = block.capacity
  length_vacant_le : arena.vacant.length ≤ arena.slots.size
  liveBlocks_eq : arena.liveBlocks = arena.slots.countP fun slot => slot.tag = .live
  guarded_liveBlocks : Guarded.liveBlocks arena = .ok arena.liveBlocks
  guarded_find : ∀ region, Guarded.find arena region = .ok (arena.block? region)
  guarded_attempt : ∀ refused call,
    Guarded.attempt arena refused call = .ok (arena.attempt refused call)

theorem WellFormed.intact {arena : Arena} (h : arena.WellFormed) : arena.Intact := by
  have hfreed : ∀ slot : Slot, slot.tag = .freed ↔ slot.block? = none := by
    intro slot
    cases hblock : slot.block? <;> simp [Slot.tag, hblock]
  have hvacant : arena.vacant.length ≤ arena.slots.size :=
    h.length_vacant_add ▸ Nat.le_add_right _ _
  constructor
  · exact h.nodup_vacant
  · intro index hindex
    obtain ⟨slot, hslot, -⟩ := (h.mem_vacant_iff index).mp hindex
    exact (Array.getElem?_eq_some_iff.mp hslot).1
  · intro index
    simp only [hfreed]
    exact h.mem_vacant_iff index
  · intro slot hslot block hblock
    obtain ⟨index, hindex⟩ := Array.mem_iff_getElem?.mp hslot
    have hmem : (⟨arena.id, index, slot.generation⟩, block) ∈ arena.blocks :=
      mem_blocks_iff.mpr ⟨rfl, slot, hindex, rfl, hblock⟩
    have hsized := h.wellSized _ hmem
    exact ⟨hsized.requested_pos, hsized.requested_le, hsized.size_bytes⟩
  · exact hvacant
  · rw [h.liveBlocks_eq, length_blocks]
  · exact Guarded.subtract_of_le hvacant
  · exact Guarded.find_eq arena
  · exact Guarded.attempt_eq h

/-- After any calls, to any of which the system may refuse memory, the vacant list has the number of
each slot that holds no block, once each and no other; every block has at least one byte, no more
than it reserves, and as many bytes as that; and the live blocks are the slots that hold one. So no
operation looks up a slot that does not exist, cuts a range out of a string that does not have it,
finds no block behind a tag that says there is one, or takes away more than there is. -/
theorem intact_of_attemptAll (id : Nat) (limit : Option Nat) (attempts : List (Bool × Call)) :
    (({ id := id, limit := limit } : Arena).attemptAll attempts).2.Intact :=
  ((within_empty id limit).attemptAll attempts).sound.wellFormed.intact

end Arena

end RemoteMemory
