import RemoteMemory.Arena.Basic
import Mathlib.Data.List.Nodup

/-!
# The live blocks of an arena

An arena is seen as the list of its live blocks, each beside the region that names it. Looking up a
region is membership in this list, no region stands in it twice, and replacing what one slot holds
replaces at most one member. Generations matter here only through equality, so nothing below
depends on how often a slot was reused.
-/

namespace RemoteMemory

namespace Slot

def listed (owner index : Nat) (slot : Slot) : Option (Region × Block) :=
  slot.block?.map fun block => (⟨owner, index, slot.generation⟩, block)

def listing (owner start : Nat) (slots : List Slot) : List (Region × Block) :=
  (slots.zipIdx start).filterMap fun place => place.1.listed owner place.2

theorem listing_append (owner start : Nat) (slots more : List Slot) :
    listing owner start (slots ++ more)
      = listing owner start slots ++ listing owner (start + slots.length) more := by
  rw [listing, List.zipIdx_append, List.filterMap_append]
  rfl

theorem listing_cons (owner start : Nat) (slot : Slot) (slots : List Slot) :
    listing owner start (slot :: slots)
      = (slot.listed owner start).toList ++ listing owner (start + 1) slots := by
  rw [listing, List.zipIdx_cons, List.filterMap_cons]
  cases slot.listed owner start <;> rfl

theorem mem_listing_iff {owner start : Nat} {slots : List Slot} {pair : Region × Block} :
    pair ∈ listing owner start slots ↔
      ∃ (slot : Slot) (index : Nat), slots[index]? = some slot ∧
        slot.listed owner (start + index) = some pair := by
  rw [listing, List.mem_filterMap]
  constructor
  · rintro ⟨⟨slot, index⟩, hplace, hpair⟩
    obtain ⟨hle, hslot⟩ := List.mk_mem_zipIdx_iff_le_and_getElem?_sub.mp hplace
    refine ⟨slot, index - start, hslot, ?_⟩
    rwa [Nat.add_sub_cancel' hle]
  · rintro ⟨slot, index, hslot, hpair⟩
    refine ⟨(slot, start + index), List.mk_mem_zipIdx_iff_le_and_getElem?_sub.mpr ⟨?_, ?_⟩, hpair⟩
    · exact Nat.le_add_right _ _
    · rwa [Nat.add_sub_cancel_left]

theorem index_of_mem_listing {owner start : Nat} {slots : List Slot} {pair : Region × Block}
    (h : pair ∈ listing owner start slots) : start ≤ pair.1.index := by
  obtain ⟨slot, index, -, hlisted⟩ := mem_listing_iff.mp h
  obtain ⟨block, -, rfl⟩ := Option.map_eq_some_iff.mp hlisted
  exact Nat.le_add_right _ _

theorem nodup_regions_listing (owner start : Nat) (slots : List Slot) :
    ((listing owner start slots).map Prod.fst).Nodup := by
  induction slots generalizing start with
  | nil => exact List.nodup_nil
  | cons slot slots ih =>
      rw [listing_cons]
      cases hlisted : slot.listed owner start with
      | none => exact ih (start + 1)
      | some pair =>
          obtain ⟨block, -, rfl⟩ := Option.map_eq_some_iff.mp hlisted
          refine List.nodup_cons.mpr ⟨fun hmem => ?_, ih (start + 1)⟩
          -- Every later region has a larger index.
          obtain ⟨later, hlater, heq⟩ := List.mem_map.mp hmem
          have hindex := index_of_mem_listing hlater
          rw [heq] at hindex
          exact absurd hindex (Nat.not_succ_le_self _)

end Slot

namespace Arena

/-- The live blocks with the regions that name them, in slot order. -/
def blocks (arena : Arena) : List (Region × Block) :=
  Slot.listing arena.id 0 arena.slots.toList

theorem mem_blocks_iff {arena : Arena} {region : Region} {block : Block} :
    (region, block) ∈ arena.blocks ↔
      region.owner = arena.id ∧ ∃ slot, arena.slots[region.index]? = some slot ∧
        slot.generation = region.generation ∧ slot.block? = some block := by
  rw [blocks, Slot.mem_listing_iff]
  constructor
  · rintro ⟨slot, index, hslot, hlisted⟩
    obtain ⟨found, hfound, heq⟩ := Option.map_eq_some_iff.mp hlisted
    rw [Array.getElem?_toList] at hslot
    rw [Nat.zero_add] at heq
    cases heq
    exact ⟨rfl, slot, hslot, rfl, hfound⟩
  · rintro ⟨howner, slot, hslot, hgeneration, hblock⟩
    refine ⟨slot, region.index, by rwa [Array.getElem?_toList], ?_⟩
    rw [Slot.listed, hblock, Nat.zero_add, ← howner, hgeneration]
    rfl

theorem nodup_regions (arena : Arena) : (arena.blocks.map Prod.fst).Nodup :=
  Slot.nodup_regions_listing arena.id 0 arena.slots.toList

/-! ## Lookup -/

theorem tag?_eq_live_iff {arena : Arena} {region : Region} :
    arena.tag? region = some .live ↔ ∃ block, (region, block) ∈ arena.blocks := by
  unfold tag?
  by_cases howner : region.owner = arena.id
  · rw [if_neg (not_not.mpr howner)]
    cases hslot : arena.slots[region.index]? with
    | none => simp [mem_blocks_iff, hslot]
    | some slot =>
        by_cases hgeneration : region.generation = slot.generation
        · cases hblock : slot.block? with
          | none => simp [mem_blocks_iff, hslot, hgeneration, Slot.tag, hblock]
          | some block => simp [mem_blocks_iff, howner, hslot, hgeneration, Slot.tag, hblock]
        · by_cases hlt : region.generation < slot.generation
          · simp [mem_blocks_iff, hslot, hgeneration, Ne.symm hgeneration, hlt]
          · simp [mem_blocks_iff, hslot, hgeneration, Ne.symm hgeneration, hlt]
  · simp [mem_blocks_iff, howner]

theorem block?_eq_some_iff {arena : Arena} {region : Region} {block : Block} :
    arena.block? region = some block ↔ (region, block) ∈ arena.blocks := by
  unfold block? isValid
  by_cases hlive : ∃ found, (region, found) ∈ arena.blocks
  · have htag := tag?_eq_live_iff.mpr hlive
    obtain ⟨found, hfound⟩ := hlive
    obtain ⟨howner, slot, hslot, hgeneration, -⟩ := mem_blocks_iff.mp hfound
    simp [htag, mem_blocks_iff, howner, hslot, hgeneration]
  · have htag : arena.tag? region ≠ some .live := fun h => hlive (tag?_eq_live_iff.mp h)
    have hnot : (region, block) ∉ arena.blocks := fun h => hlive ⟨block, h⟩
    simp [htag, hnot]

theorem tag?_of_mem_blocks {arena : Arena} {region : Region} {block : Block}
    (h : (region, block) ∈ arena.blocks) : arena.tag? region = some .live :=
  tag?_eq_live_iff.mpr ⟨block, h⟩

theorem block?_of_mem_blocks {arena : Arena} {region : Region} {block : Block}
    (h : (region, block) ∈ arena.blocks) : arena.block? region = some block :=
  block?_eq_some_iff.mpr h

theorem block?_congr {arena other : Arena} {region : Region}
    (h : ∀ block, (region, block) ∈ arena.blocks ↔ (region, block) ∈ other.blocks) :
    arena.block? region = other.block? region := by
  refine Option.ext fun block => ?_
  rw [block?_eq_some_iff, block?_eq_some_iff]
  exact h block

/-! ## Replacing what one slot holds -/

/-- Whatever becomes of one slot, the members of the list that come from other slots stay. -/
theorem exists_perm_listing_modify (owner : Nat) {slots : List Slot} {index : Nat} {slot : Slot}
    (h : slots[index]? = some slot) :
    ∃ others, ∀ change : Slot → Slot,
      (Slot.listing owner 0 (slots.modify index change)).Perm
        (((change slot).listed owner index).toList ++ others) := by
  obtain ⟨hlt, hslot⟩ := List.getElem?_eq_some_iff.mp h
  refine ⟨Slot.listing owner 0 (slots.take index)
    ++ Slot.listing owner (index + 1) (slots.drop (index + 1)), fun change => ?_⟩
  have hlength : 0 + (slots.take index).length = index := by
    rw [List.length_take, Nat.zero_add, Nat.min_eq_left (Nat.le_of_lt hlt)]
  rw [List.modify_eq_take_cons_drop hlt, hslot, Slot.listing_append, Slot.listing_cons, hlength]
  exact List.perm_append_comm_assoc _ _ _

theorem exists_perm_blocks (arena : Arena) {index : Nat} {slot : Slot}
    (h : arena.slots[index]? = some slot) :
    ∃ others, arena.blocks.Perm ((slot.listed arena.id index).toList ++ others) ∧
      ∀ change : Slot → Slot,
        (Slot.listing arena.id 0 (arena.slots.modify index change).toList).Perm
          (((change slot).listed arena.id index).toList ++ others) := by
  rw [← Array.getElem?_toList] at h
  obtain ⟨others, hothers⟩ := exists_perm_listing_modify arena.id h
  refine ⟨others, ?_, fun change => ?_⟩
  · have hsame := hothers fun slot => slot
    have hself : arena.slots.toList.modify index (fun slot => slot) = arena.slots.toList :=
      List.modify_id index _
    rwa [hself] at hsame
  · rw [Array.toList_modify]
    exact hothers change

/-- A live block stands apart from the others, whatever its slot is made to hold next. -/
theorem exists_slot_of_mem {arena : Arena} {region : Region} {block : Block}
    (h : (region, block) ∈ arena.blocks) :
    ∃ slot others, arena.slots[region.index]? = some slot ∧ slot.block? = some block ∧
      arena.blocks.Perm ((region, block) :: others) ∧
      ∀ block? : Option Block, (arena.setBlock region.index block?).blocks.Perm
        ((block?.map fun changed => (region, changed)).toList ++ others) := by
  obtain ⟨howner, slot, hslot, hgeneration, hblock⟩ := mem_blocks_iff.mp h
  obtain ⟨others, hbefore, hafter⟩ := exists_perm_blocks arena hslot
  have hregion : (⟨arena.id, region.index, slot.generation⟩ : Region) = region := by
    rw [← howner, hgeneration]
  refine ⟨slot, others, hslot, hblock, ?_, fun block? => ?_⟩
  · rwa [Slot.listed, hblock, Option.map_some, hregion] at hbefore
  · have hperm := hafter fun slot => { slot with block? := block? }
    rwa [Slot.listed, hregion] at hperm

end Arena

end RemoteMemory
