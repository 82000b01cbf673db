import RemoteMemory.Proofs.Arena.Blocks
import Mathlib.Algebra.BigOperators.Group.List.Basic
import Mathlib.Algebra.GroupWithZero.Nat

/-!
# What the operations of an arena do to its live blocks

An arena is well formed when its vacant list names the empty slots, each once, its blocks are sized
as they say, and the bytes counted as held are the capacities of its live blocks. Each operation
keeps that, and its effect is one change to the list of live blocks: a successful allocation adds a
member under a new region, a release takes one away, a write replaces the bytes of one.
-/

namespace RemoteMemory

structure Block.WellSized (block : Block) : Prop where
  requested_pos : 0 < block.requested
  requested_le : block.requested ≤ block.capacity
  size_bytes : block.bytes.size = block.capacity

namespace Block

theorem wellSized_zeroed {size : Nat} (h : 0 < size) : (zeroed size).WellSized where
  requested_pos := h
  requested_le := Nat.le_refl _
  size_bytes := Bytes.size_zeros size

theorem WellSized.le_size_bytes {block : Block} (h : block.WellSized) {count : Nat}
    (hle : count ≤ block.requested) : count ≤ block.bytes.size :=
  Nat.le_trans hle (h.size_bytes ▸ h.requested_le)

theorem size_contents {block : Block} (h : block.WellSized) :
    block.contents.size = block.requested := by
  rw [contents, ByteArray.size_extract, h.size_bytes, Nat.sub_zero, Nat.min_eq_left h.requested_le]

theorem contents_eq_bytes {block : Block} (h : block.WellSized)
    (hwhole : block.requested = block.capacity) : block.contents = block.bytes := by
  rw [contents, hwhole, ← h.size_bytes, ByteArray.extract_zero_size]

theorem contents_zeroed (size : Nat) : (zeroed size).contents = Bytes.zeros size := by
  have hall : (zeroed size).requested = (zeroed size).bytes.size := (Bytes.size_zeros size).symm
  rw [contents, hall, ByteArray.extract_zero_size]
  rfl

theorem WellSized.overwrite {block : Block} (h : block.WellSized) {data : ByteArray}
    (hfits : data.size ≤ block.requested) : (block.overwrite data).WellSized where
  requested_pos := h.requested_pos
  requested_le := h.requested_le
  size_bytes := (Bytes.size_overwrite (h.le_size_bytes hfits)).trans h.size_bytes

end Block

namespace Arena

/-- The invariant of every arena that started empty. -/
structure WellFormed (arena : Arena) : Prop where
  nodup_vacant : arena.vacant.Nodup
  mem_vacant_iff : ∀ index, index ∈ arena.vacant ↔
    ∃ slot, arena.slots[index]? = some slot ∧ slot.block? = none
  length_vacant_add : arena.vacant.length + arena.blocks.length = arena.slots.size
  wellSized : ∀ pair ∈ arena.blocks, pair.2.WellSized
  outstanding_eq : arena.outstanding = (arena.blocks.map fun pair => pair.2.capacity).sum

theorem wellFormed_empty (id : Nat) (limit : Option Nat) :
    ({ id := id, limit := limit } : Arena).WellFormed where
  nodup_vacant := List.nodup_nil
  mem_vacant_iff := by simp
  length_vacant_add := rfl
  wellSized := by simp [blocks, Slot.listing]
  outstanding_eq := rfl

theorem WellFormed.liveBlocks_eq {arena : Arena} (h : arena.WellFormed) :
    arena.liveBlocks = arena.blocks.length := by
  have hlength := h.length_vacant_add
  unfold liveBlocks
  omega

theorem WellFormed.of_perm {arena : Arena} (h : arena.WellFormed) {pair : Region × Block}
    {others : List (Region × Block)} (hperm : arena.blocks.Perm (pair :: others)) :
    (∀ other ∈ others, other.2.WellSized) ∧
      arena.outstanding = pair.2.capacity + (others.map fun other => other.2.capacity).sum := by
  refine ⟨fun other hother => ?_, ?_⟩
  · exact h.wellSized other (hperm.mem_iff.mpr (List.mem_cons_of_mem _ hother))
  · rw [h.outstanding_eq, (hperm.map _).sum_eq]
    rfl

/-! ## Allocation -/

/-- What a successful allocation leaves behind: a zeroed block under a region that named nothing,
beside the blocks that were there. -/
structure Allocated (arena : Arena) (size : Nat) (region : Region) (after : Arena) : Prop where
  size_pos : 0 < size
  id_eq : after.id = arena.id
  limit_eq : after.limit = arena.limit
  stats_eq : after.stats = arena.stats.recordAllocation size
  outstanding_eq : after.outstanding = arena.outstanding + size
  perm : after.blocks.Perm ((region, .zeroed size) :: arena.blocks)

theorem Allocated.not_mem {arena after : Arena} {size : Nat} {region : Region}
    (h : Allocated arena size region after) (block : Block) : (region, block) ∉ arena.blocks := by
  intro hmem
  have hnodup := (h.perm.map Prod.fst).nodup_iff.mp after.nodup_regions
  exact (List.nodup_cons.mp hnodup).1 (List.mem_map.mpr ⟨_, hmem, rfl⟩)

theorem Allocated.wellSized {arena after : Arena} {size : Nat} {region : Region}
    (h : Allocated arena size region after) (hbefore : arena.WellFormed) :
    ∀ pair ∈ after.blocks, pair.2.WellSized := by
  intro pair hpair
  rcases List.mem_cons.mp (h.perm.mem_iff.mp hpair) with rfl | hold
  · exact Block.wellSized_zeroed h.size_pos
  · exact hbefore.wellSized pair hold

theorem Allocated.outstanding_eq_sum {arena after : Arena} {size : Nat} {region : Region}
    (h : Allocated arena size region after) (hbefore : arena.WellFormed) :
    after.outstanding = (after.blocks.map fun pair => pair.2.capacity).sum := by
  rw [h.outstanding_eq, (h.perm.map _).sum_eq, hbefore.outstanding_eq, List.map_cons,
    List.sum_cons, Nat.add_comm]
  rfl

theorem Allocated.block?_eq {arena after : Arena} {size : Nat} {region other : Region}
    (h : Allocated arena size region after) (hne : other ≠ region) :
    after.block? other = arena.block? other := by
  refine block?_congr fun block => ?_
  rw [h.perm.mem_iff, List.mem_cons]
  simp [hne]

theorem Allocated.block?_self {arena after : Arena} {size : Nat} {region : Region}
    (h : Allocated arena size region after) : after.block? region = some (.zeroed size) :=
  block?_of_mem_blocks (h.perm.mem_iff.mpr List.mem_cons_self)

theorem blocks_reuse_perm {arena : Arena} {index size : Nat} {slot : Slot}
    {vacant : List Nat} (hslot : arena.slots[index]? = some slot) (hempty : slot.block? = none) :
    (arena.reuse index vacant size).2.blocks.Perm
      (((arena.reuse index vacant size).1, .zeroed size) :: arena.blocks) := by
  obtain ⟨others, hbefore, hafter⟩ := exists_perm_blocks arena hslot
  have hnone : slot.listed arena.id index = none := by rw [Slot.listed, hempty]; rfl
  rw [hnone] at hbefore
  exact (hafter _).trans (hbefore.symm.cons _)

theorem blocks_extend_perm (arena : Arena) (size : Nat) :
    (arena.extend size).2.blocks.Perm (((arena.extend size).1, .zeroed size) :: arena.blocks) := by
  have hpush : (arena.extend size).2.blocks
      = arena.blocks ++ [((arena.extend size).1, .zeroed size)] := by
    change Slot.listing arena.id 0 (arena.slots.push ⟨0, some (.zeroed size)⟩).toList = _
    rw [Array.toList_push, Slot.listing_append, Slot.listing_cons, Nat.zero_add,
      Array.length_toList]
    rfl
  rw [hpush]
  exact List.perm_append_singleton _ _

theorem WellFormed.reuse {arena : Arena} (h : arena.WellFormed) {index size : Nat}
    {vacant : List Nat} (hvacant : arena.vacant = index :: vacant) (hsize : 0 < size) :
    (arena.reuse index vacant size).2.WellFormed ∧
      Allocated arena size (arena.reuse index vacant size).1
        (arena.reuse index vacant size).2 := by
  obtain ⟨slot, hslot, hempty⟩ := (h.mem_vacant_iff index).mp (hvacant ▸ List.mem_cons_self)
  have hnodup : (index :: vacant).Nodup := hvacant ▸ h.nodup_vacant
  have allocated : Allocated arena size (arena.reuse index vacant size).1
      (arena.reuse index vacant size).2 :=
    ⟨hsize, rfl, rfl, rfl, rfl, blocks_reuse_perm hslot hempty⟩
  refine ⟨⟨(List.nodup_cons.mp hnodup).2, fun other => ?_, ?_, allocated.wellSized h,
    allocated.outstanding_eq_sum h⟩, allocated⟩
  · change other ∈ vacant ↔ ∃ slot, (arena.slots.modify index _)[other]? = some slot ∧ _
    rw [Array.getElem?_modify]
    have hold := h.mem_vacant_iff other
    rw [hvacant, List.mem_cons] at hold
    by_cases heq : other = index
    · subst heq
      simp [(List.nodup_cons.mp hnodup).1, hslot]
    · rw [if_neg (Ne.symm heq), ← hold]
      simp [heq]
  · have hlength := h.length_vacant_add
    rw [hvacant, List.length_cons] at hlength
    change vacant.length + _ = (arena.slots.modify index _).size
    rw [allocated.perm.length_eq, List.length_cons, Array.size_modify]
    omega

theorem WellFormed.extend {arena : Arena} (h : arena.WellFormed) {size : Nat}
    (hsize : 0 < size) :
    (arena.extend size).2.WellFormed ∧
      Allocated arena size (arena.extend size).1 (arena.extend size).2 := by
  have allocated : Allocated arena size (arena.extend size).1 (arena.extend size).2 :=
    ⟨hsize, rfl, rfl, rfl, rfl, blocks_extend_perm arena size⟩
  refine ⟨⟨h.nodup_vacant, fun other => ?_, ?_, allocated.wellSized h,
    allocated.outstanding_eq_sum h⟩, allocated⟩
  · change other ∈ arena.vacant ↔ ∃ slot, (arena.slots.push _)[other]? = some slot ∧ _
    rw [h.mem_vacant_iff other, Array.getElem?_push]
    by_cases heq : other = arena.slots.size
    · subst heq
      simp
    · rw [if_neg heq]
  · have hlength := h.length_vacant_add
    change arena.vacant.length + _ = (arena.slots.push _).size
    rw [allocated.perm.length_eq, List.length_cons, Array.size_push]
    omega

def Grants (arena : Arena) (refused : Bool) (size : Nat) : Prop :=
  refused = false ∧ 0 < size ∧ arena.exceedsLimit size = false ∧ size < reservationLimit ∧
    (arena.vacant ≠ [] ∨ arena.slots.size < slotLimit)

theorem exceedsLimit_eq_false_iff {arena : Arena} {size : Nat} :
    arena.exceedsLimit size = false ↔ ∀ bound ∈ arena.limit, arena.outstanding + size ≤ bound := by
  rw [exceedsLimit]
  cases arena.limit with
  | none => simp
  | some bound => simp

/-- A slot is vacant, or its number not given yet, as long as fewer blocks are live than there are
slot numbers. -/
theorem WellFormed.exists_slot {arena : Arena} (h : arena.WellFormed)
    (hlive : arena.blocks.length < slotLimit) :
    arena.vacant ≠ [] ∨ arena.slots.size < slotLimit := by
  have hslots := h.length_vacant_add
  rw [← List.length_pos_iff_ne_nil]
  omega

theorem allocate_of_grants {arena : Arena} (h : arena.WellFormed) {refused : Bool} {size : Nat}
    (hgrants : arena.Grants refused size) :
    ∃ region after, arena.allocate refused size = (.ok region, after) ∧ after.WellFormed ∧
      Allocated arena size region after := by
  obtain ⟨rfl, hsize, hlimit, hreservation, hslot⟩ := hgrants
  have hreserved : ¬ (false = true ∨ reservationLimit ≤ size) := by
    simpa using hreservation
  unfold allocate
  rw [if_neg (Nat.pos_iff_ne_zero.mp hsize), if_neg (by simp [hlimit]), if_neg hreserved]
  cases hvacant : arena.vacant with
  | cons index vacant =>
      obtain ⟨hafter, allocated⟩ := h.reuse hvacant hsize
      exact ⟨_, _, rfl, hafter, allocated⟩
  | nil =>
      have hroom : arena.slots.size < slotLimit :=
        hslot.resolve_left (fun hne => hne hvacant)
      obtain ⟨hafter, allocated⟩ := h.extend hsize
      simp only [if_neg (Nat.not_le.mpr hroom)]
      exact ⟨_, _, rfl, hafter, allocated⟩

def refusal (size : Nat) : Error :=
  if size = 0 then .invalidArgument .emptyAllocation else .outOfMemory size

theorem allocate_of_not_grants {arena : Arena} {refused : Bool} {size : Nat}
    (h : ¬ arena.Grants refused size) :
    arena.allocate refused size = (.error (refusal size), arena) := by
  unfold allocate refusal
  split
  · rfl
  next hsize =>
    split
    · rfl
    next hlimit =>
      split
      · rfl
      next hreserved =>
        obtain ⟨hgiven, hreservation⟩ := not_or.mp hreserved
        have hslot : ¬ (arena.vacant ≠ [] ∨ arena.slots.size < slotLimit) := fun hslot =>
          h ⟨by simpa using hgiven, Nat.pos_of_ne_zero hsize, by simpa using hlimit,
            Nat.not_le.mp hreservation, hslot⟩
        obtain ⟨hvacant, hfull⟩ := not_or.mp hslot
        rw [not_not.mp hvacant]
        simp only [if_pos (Nat.not_lt.mp hfull)]

/-- An allocation either changes nothing or leaves a well-formed arena with one block more. -/
theorem WellFormed.allocate_cases {arena : Arena} (h : arena.WellFormed) (refused : Bool)
    (size : Nat) :
    (¬ arena.Grants refused size ∧ ∃ error, arena.allocate refused size = (.error error, arena)) ∨
      (arena.Grants refused size ∧ ∃ region after,
        arena.allocate refused size = (.ok region, after) ∧ after.WellFormed ∧
          Allocated arena size region after) := by
  by_cases hgrants : arena.Grants refused size
  · exact .inr ⟨hgrants, allocate_of_grants h hgrants⟩
  · exact .inl ⟨hgrants, _, allocate_of_not_grants hgrants⟩

theorem WellFormed.exists_allocate_iff {arena : Arena} (h : arena.WellFormed) {refused : Bool}
    {size : Nat} :
    (∃ region after, arena.allocate refused size = (.ok region, after)) ↔
      arena.Grants refused size := by
  rcases h.allocate_cases refused size with ⟨hrefused, error, hallocate⟩ |
    ⟨hgrants, region, after, hallocate, -⟩
  · simp [hallocate, hrefused]
  · simp [hallocate, hgrants]

theorem WellFormed.allocate {arena : Arena} (h : arena.WellFormed) (refused : Bool) (size : Nat) :
    (arena.allocate refused size).2.WellFormed := by
  rcases h.allocate_cases refused size with ⟨-, error, hallocate⟩ |
    ⟨-, region, after, hallocate, hafter, -⟩
  · rw [hallocate]
    exact h
  · rw [hallocate]
    exact hafter

/-! ## Release -/

structure Released (arena : Arena) (region : Region) (block : Block) (after : Arena) : Prop where
  id_eq : after.id = arena.id
  limit_eq : after.limit = arena.limit
  stats_eq : after.stats = arena.stats.recordRelease block.capacity
  outstanding_eq : arena.outstanding = after.outstanding + block.capacity
  perm : arena.blocks.Perm ((region, block) :: after.blocks)

theorem Released.not_mem {arena after : Arena} {region : Region} {block : Block}
    (h : Released arena region block after) (other : Block) : (region, other) ∉ after.blocks := by
  intro hmem
  have hnodup := (h.perm.map Prod.fst).nodup_iff.mp arena.nodup_regions
  exact (List.nodup_cons.mp hnodup).1 (List.mem_map.mpr ⟨_, hmem, rfl⟩)

theorem Released.block?_eq {arena after : Arena} {region other : Region} {block : Block}
    (h : Released arena region block after) (hne : other ≠ region) :
    after.block? other = arena.block? other := by
  refine block?_congr fun found => ?_
  rw [h.perm.mem_iff, List.mem_cons]
  simp [hne]

/-- A block that is placed and released leaves the others as they were. -/
theorem Allocated.perm_of_released {arena placed after : Arena} {size : Nat} {region : Region}
    (allocated : Allocated arena size region placed)
    (released : Released placed region (.zeroed size) after) :
    arena.blocks.Perm after.blocks :=
  (allocated.perm.symm.trans released.perm).cons_inv

theorem WellFormed.release {arena : Arena} (h : arena.WellFormed) {region : Region}
    {block : Block} (hmem : (region, block) ∈ arena.blocks) :
    ∃ after, arena.release region = (.ok (), after) ∧ after.WellFormed ∧
      Released arena region block after := by
  obtain ⟨slot, others, hslot, hblock, hbefore, hafter⟩ := exists_slot_of_mem hmem
  have hothers : (arena.vacate region.index block).blocks.Perm others := hafter none
  have hperm : arena.blocks.Perm ((region, block) :: (arena.vacate region.index block).blocks) :=
    hbefore.trans (hothers.symm.cons _)
  obtain ⟨hsized, hsum⟩ := h.of_perm hperm
  have hlive : ∀ {index : Nat}, index ∈ arena.vacant → index ≠ region.index := by
    rintro index hindex rfl
    obtain ⟨empty, hempty, hnone⟩ := (h.mem_vacant_iff _).mp hindex
    rw [hslot] at hempty
    cases hempty
    rw [hblock] at hnone
    cases hnone
  refine ⟨arena.vacate region.index block, ?_, ⟨?_, fun index => ?_, ?_, hsized, ?_⟩,
    ⟨rfl, rfl, rfl, ?_, hperm⟩⟩
  · simp only [Arena.release, tag?_of_mem_blocks hmem, block?_of_mem_blocks hmem]
  · exact List.nodup_cons.mpr ⟨fun hindex => hlive hindex rfl, h.nodup_vacant⟩
  · change index ∈ region.index :: arena.vacant ↔
      ∃ slot, (arena.slots.modify region.index _)[index]? = some slot ∧ _
    rw [List.mem_cons, Array.getElem?_modify]
    by_cases heq : index = region.index
    · subst heq
      simp [hslot]
    · rw [if_neg (Ne.symm heq), ← h.mem_vacant_iff index]
      simp [heq]
  · have hlength := h.length_vacant_add
    rw [hperm.length_eq, List.length_cons] at hlength
    change (region.index :: arena.vacant).length + _ = (arena.slots.modify region.index _).size
    rw [List.length_cons, Array.size_modify]
    omega
  · change arena.outstanding - block.capacity = _
    rw [hsum, Nat.add_sub_cancel_left]
  · change arena.outstanding = arena.outstanding - block.capacity + block.capacity
    rw [hsum, Nat.add_sub_cancel_left, Nat.add_comm]

theorem vacant_release_of_mem {arena : Arena} {region : Region} {block : Block}
    (hmem : (region, block) ∈ arena.blocks) :
    (arena.release region).2.vacant = region.index :: arena.vacant := by
  simp only [Arena.release, tag?_of_mem_blocks hmem, block?_of_mem_blocks hmem]
  rfl

/-! ## Writing and reading -/

structure Replaced (arena : Arena) (region : Region) (block changed : Block) (after : Arena) :
    Prop where
  id_eq : after.id = arena.id
  limit_eq : after.limit = arena.limit
  stats_eq : after.stats = arena.stats
  outstanding_eq : after.outstanding = arena.outstanding
  perm : ∃ others, arena.blocks.Perm ((region, block) :: others) ∧
    after.blocks.Perm ((region, changed) :: others)

theorem Replaced.block?_self {arena after : Arena} {region : Region} {block changed : Block}
    (h : Replaced arena region block changed after) : after.block? region = some changed := by
  obtain ⟨others, -, hafter⟩ := h.perm
  exact block?_of_mem_blocks (hafter.mem_iff.mpr List.mem_cons_self)

theorem Replaced.block?_eq {arena after : Arena} {region other : Region} {block changed : Block}
    (h : Replaced arena region block changed after) (hne : other ≠ region) :
    after.block? other = arena.block? other := by
  obtain ⟨others, hbefore, hafter⟩ := h.perm
  refine block?_congr fun found => ?_
  rw [hafter.mem_iff, hbefore.mem_iff, List.mem_cons, List.mem_cons]
  simp [hne]

theorem WellFormed.setBlock {arena : Arena} (h : arena.WellFormed) {region : Region}
    {block changed : Block} (hmem : (region, block) ∈ arena.blocks) (hsized : changed.WellSized)
    (hcapacity : changed.capacity = block.capacity) :
    (arena.setBlock region.index (some changed)).WellFormed ∧
      Replaced arena region block changed (arena.setBlock region.index (some changed)) := by
  obtain ⟨slot, others, hslot, hblock, hbefore, hafter⟩ := exists_slot_of_mem hmem
  have hperm : (arena.setBlock region.index (some changed)).blocks.Perm
      ((region, changed) :: others) := hafter (some changed)
  obtain ⟨hothers, hsum⟩ := h.of_perm hbefore
  refine ⟨⟨h.nodup_vacant, fun index => ?_, ?_, ?_, ?_⟩,
    ⟨rfl, rfl, rfl, rfl, others, hbefore, hperm⟩⟩
  · change index ∈ arena.vacant ↔
      ∃ slot, (arena.slots.modify region.index _)[index]? = some slot ∧ _
    rw [h.mem_vacant_iff index, Array.getElem?_modify]
    by_cases heq : index = region.index
    · subst heq
      simp [hslot, hblock]
    · rw [if_neg (Ne.symm heq)]
  · have hlength := h.length_vacant_add
    change arena.vacant.length + _ = (arena.slots.modify region.index _).size
    rw [hperm.length_eq, Array.size_modify, ← hlength, hbefore.length_eq]
    rfl
  · intro pair hpair
    rcases List.mem_cons.mp (hperm.mem_iff.mp hpair) with rfl | hold
    · exact hsized
    · exact hothers pair hold
  · change arena.outstanding = _
    rw [hsum, (hperm.map _).sum_eq, List.map_cons, List.sum_cons, hcapacity]

theorem WellFormed.write {arena : Arena} (h : arena.WellFormed) {region : Region} {block : Block}
    {data : ByteArray} (hmem : (region, block) ∈ arena.blocks)
    (hfits : data.size ≤ block.requested) :
    ∃ after, arena.write region data = (.ok (), after) ∧ after.WellFormed ∧
      Replaced arena region block (block.overwrite data) after := by
  have hsized := (h.wellSized _ hmem).overwrite hfits
  obtain ⟨hafter, replaced⟩ := h.setBlock hmem hsized rfl
  refine ⟨_, ?_, hafter, replaced⟩
  simp only [Arena.write, block?_of_mem_blocks hmem, if_neg (Nat.not_lt.mpr hfits)]

theorem readInto_of_mem {arena : Arena} {region : Region} {block : Block} {buffer : ByteArray}
    (hmem : (region, block) ∈ arena.blocks) (hfits : buffer.size ≤ block.requested) :
    arena.readInto region buffer = (.ok (), block.bytes.extract 0 buffer.size) := by
  simp only [readInto, block?_of_mem_blocks hmem, if_neg (Nat.not_lt.mpr hfits)]

end Arena

end RemoteMemory
