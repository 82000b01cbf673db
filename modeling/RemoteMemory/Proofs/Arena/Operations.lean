import RemoteMemory.Proofs.Arena.WellFormed

/-!
# What each operation answers

The region of the next block is known before the block is placed. On a region that names no live
block every operation fails and changes nothing; on a live block the outcome depends on sizes
alone. Resizing is allocation, release, a change within the capacity or a move. A move takes three
steps, and once the first has succeeded the others do too.
-/

namespace RemoteMemory

namespace Block

theorem WellSized.resizeWithin {block : Block} (h : block.WellSized) {newSize : Nat}
    (hpos : 0 < newSize) (hle : newSize ≤ block.capacity) :
    (block.resizeWithin newSize).WellSized where
  requested_pos := hpos
  requested_le := hle
  size_bytes := by
    unfold Block.resizeWithin
    dsimp only
    split
    case isTrue hgrow =>
      have hfits : newSize ≤ block.bytes.size := h.size_bytes ▸ hle
      rw [Bytes.size_clearRange (Nat.le_of_lt hgrow) hfits, h.size_bytes]
    case isFalse => exact h.size_bytes

end Block

namespace Arena

variable {arena : Arena} {refused : Bool} {region : Region} {block : Block}

/-! ## The next region -/

def nextIndex (arena : Arena) : Nat :=
  arena.vacant.headD arena.slots.size

/-- The region that the next block will be named by. -/
def nextRegion (arena : Arena) : Region :=
  ⟨arena.id, arena.nextIndex, arena.nextGeneration arena.nextIndex⟩

@[simp] theorem index_nextRegion : arena.nextRegion.index = arena.nextIndex := rfl

/-- A block that was placed went into the next slot, vacated or new. -/
theorem allocate_ok_cases {size : Nat} {after : Arena}
    (h : arena.allocate refused size = (.ok region, after)) :
    (∃ vacant, arena.vacant = arena.nextIndex :: vacant ∧
        arena.reuse arena.nextIndex vacant size = (region, after)) ∨
      arena.nextIndex = arena.slots.size ∧ arena.extend size = (region, after) := by
  unfold allocate at h
  split at h
  · cases h
  split at h
  · cases h
  split at h
  · cases h
  cases hvacant : arena.vacant with
  | cons index vacant =>
      simp only [hvacant] at h
      cases h
      have hindex : arena.nextIndex = index := by simp [nextIndex, hvacant]
      exact .inl ⟨vacant, by rw [hindex], by rw [hindex]⟩
  | nil =>
      simp only [hvacant] at h
      split at h
      · cases h
      · cases h
        exact .inr ⟨by simp [nextIndex, hvacant], rfl⟩

theorem eq_nextRegion_of_allocate {size : Nat} {after : Arena}
    (h : arena.allocate refused size = (.ok region, after)) : region = arena.nextRegion := by
  rcases allocate_ok_cases h with ⟨vacant, -, hreuse⟩ | ⟨hindex, hextend⟩
  · cases hreuse
    rfl
  · cases hextend
    simp [nextRegion, hindex, nextGeneration]

/-- The next slot is empty or does not exist yet. -/
theorem WellFormed.block?_of_nextIndex (h : arena.WellFormed) {slot : Slot}
    (hslot : arena.slots[arena.nextIndex]? = some slot) : slot.block? = none := by
  unfold nextIndex at hslot
  cases hvacant : arena.vacant with
  | cons index vacant =>
      rw [hvacant, List.headD_cons] at hslot
      have hmem : index ∈ arena.vacant := by simp [hvacant]
      obtain ⟨empty, hempty, hnone⟩ := (h.mem_vacant_iff index).mp hmem
      rw [hslot] at hempty
      cases hempty
      exact hnone
  | nil =>
      rw [hvacant, List.headD_nil, Array.getElem?_eq_none (Nat.le_refl _)] at hslot
      cases hslot

theorem WellFormed.nextRegion_not_mem (h : arena.WellFormed) (block : Block) :
    (arena.nextRegion, block) ∉ arena.blocks := by
  intro hmem
  obtain ⟨-, slot, hslot, -, hblock⟩ := mem_blocks_iff.mp hmem
  rw [h.block?_of_nextIndex hslot] at hblock
  cases hblock

/-! ## Regions that name no live block -/

theorem block?_eq_none_iff : arena.block? region = none ↔ arena.tag? region ≠ some .live := by
  rw [Option.eq_none_iff_forall_ne_some, ne_eq, tag?_eq_live_iff, not_exists]
  simp only [ne_eq, block?_eq_some_iff]

def releaseRefusal (arena : Arena) (region : Region) : Error :=
  if arena.tag? region = some .freed then .doubleFree else .corrupt

theorem release_of_not_live (h : arena.tag? region ≠ some .live) :
    arena.release region = (.error (arena.releaseRefusal region), arena) := by
  cases htag : arena.tag? region with
  | none => simp [release, releaseRefusal, htag]
  | some tag =>
      cases tag with
      | live => exact absurd htag h
      | freed => simp [release, releaseRefusal, htag]

theorem view_of_not_live (h : arena.block? region = none) :
    arena.view region = .error .corrupt := by
  simp only [view, h]

theorem write_of_not_live (h : arena.block? region = none) (data : ByteArray) :
    arena.write region data = (.error .corrupt, arena) := by
  simp only [write, h]

theorem readInto_of_not_live (h : arena.block? region = none) (buffer : ByteArray) :
    arena.readInto region buffer = (.error .corrupt, buffer) := by
  simp only [readInto, h]

/-! ## Live blocks -/

theorem view_of_block? (h : arena.block? region = some block) :
    arena.view region = .ok block.contents := by
  simp only [view, h]

theorem write_of_lt {data : ByteArray} (h : arena.block? region = some block)
    (hlong : block.requested < data.size) :
    arena.write region data = (.error (.overflow data.size block.requested), arena) := by
  simp only [write, h, if_pos hlong]

theorem readInto_of_lt {buffer : ByteArray} (h : arena.block? region = some block)
    (hlong : block.requested < buffer.size) :
    arena.readInto region buffer = (.error (.overflow buffer.size block.requested), buffer) := by
  simp only [readInto, h, if_pos hlong]

/-- A release changes nothing, or takes one live block away. -/
theorem WellFormed.release_cases (h : arena.WellFormed) (region? : Option Region) :
    (∃ result, arena.release region? = (result, arena)) ∨
      ∃ region block after, arena.release region? = (.ok (), after) ∧ after.WellFormed ∧
        Released arena region block after := by
  cases region? with
  | none => exact .inl ⟨.ok (), rfl⟩
  | some region =>
      by_cases hlive : arena.tag? region = some .live
      · obtain ⟨block, hmem⟩ := tag?_eq_live_iff.mp hlive
        exact .inr ⟨region, block, h.release hmem⟩
      · exact .inl ⟨_, release_of_not_live hlive⟩

/-- A write changes nothing, or the bytes of one live block. -/
theorem WellFormed.write_cases (h : arena.WellFormed) (region : Region) (data : ByteArray) :
    (∃ result, arena.write region data = (result, arena)) ∨
      ∃ block after, arena.write region data = (.ok (), after) ∧ after.WellFormed ∧
        Replaced arena region block (block.overwrite data) after := by
  cases hblock : arena.block? region with
  | none => exact .inl ⟨_, write_of_not_live hblock data⟩
  | some block =>
      by_cases hfits : data.size ≤ block.requested
      · exact .inr ⟨block, h.write (block?_eq_some_iff.mp hblock) hfits⟩
      · exact .inl ⟨_, write_of_lt hblock (Nat.not_le.mp hfits)⟩

theorem WellFormed.after_write (h : arena.WellFormed) (region : Region) (data : ByteArray) :
    (arena.write region data).2.WellFormed := by
  rcases h.write_cases region data with ⟨result, hwrite⟩ | ⟨block, after, hwrite, hafter, -⟩
  · rw [hwrite]
    exact h
  · rw [hwrite]
    exact hafter

/-! ## Resizing -/

theorem resize_none (arena : Arena) (refused : Bool) (newSize : Nat) :
    arena.resize refused none newSize =
      ((arena.allocate refused newSize).1.map some, (arena.allocate refused newSize).2) := by
  unfold resize
  cases arena.allocate refused newSize with
  | mk result after => cases result <;> rfl

theorem resize_zero (arena : Arena) (refused : Bool) (region : Region) :
    arena.resize refused (some region) 0 =
      ((arena.release region).1.map fun _ => none, (arena.release region).2) := by
  dsimp only [resize]
  rw [if_pos rfl]
  cases arena.release region with
  | mk result after => cases result <;> rfl

theorem resize_of_not_live {newSize : Nat} (h : arena.block? region = none) (hpos : 0 < newSize) :
    arena.resize refused (some region) newSize = (.error .corrupt, arena) := by
  simp only [resize, if_neg (Nat.pos_iff_ne_zero.mp hpos), h]

theorem resize_of_le {newSize : Nat} (h : arena.block? region = some block) (hpos : 0 < newSize)
    (hle : newSize ≤ block.capacity) :
    arena.resize refused (some region) newSize =
      (.ok (some region), arena.setBlock region.index (some (block.resizeWithin newSize))) := by
  simp only [resize, if_neg (Nat.pos_iff_ne_zero.mp hpos), h, if_pos hle]

theorem resize_of_lt {newSize : Nat} (h : arena.block? region = some block)
    (hlt : block.capacity < newSize) :
    arena.resize refused (some region) newSize = arena.move refused region newSize := by
  have hpos : newSize ≠ 0 := Nat.ne_of_gt (Nat.lt_of_le_of_lt (Nat.zero_le _) hlt)
  simp only [resize, if_neg hpos, h, if_neg (Nat.not_le.mpr hlt)]

inductive Resizing (arena : Arena) (refused : Bool) :
    Option Region → Nat → Except Error (Option Region) × Arena → Prop where
  | fresh (newSize : Nat) : Resizing arena refused none newSize
      ((arena.allocate refused newSize).1.map some, (arena.allocate refused newSize).2)
  | empty (region : Region) : Resizing arena refused (some region) 0
      ((arena.release region).1.map fun _ => none, (arena.release region).2)
  | notLive {region : Region} {newSize : Nat} (hblock : arena.block? region = none)
      (hpos : 0 < newSize) : Resizing arena refused (some region) newSize (.error .corrupt, arena)
  | within {region : Region} {block : Block} {newSize : Nat}
      (hblock : arena.block? region = some block) (hpos : 0 < newSize)
      (hle : newSize ≤ block.capacity) : Resizing arena refused (some region) newSize
        (.ok (some region), arena.setBlock region.index (some (block.resizeWithin newSize)))
  | beyond {region : Region} {block : Block} {newSize : Nat}
      (hblock : arena.block? region = some block) (hlt : block.capacity < newSize) :
      Resizing arena refused (some region) newSize (arena.move refused region newSize)

theorem resizing_resize (arena : Arena) (refused : Bool) (region? : Option Region)
    (newSize : Nat) :
    Resizing arena refused region? newSize (arena.resize refused region? newSize) := by
  cases region? with
  | none =>
      rw [resize_none]
      exact .fresh newSize
  | some region =>
      rcases Nat.eq_zero_or_pos newSize with rfl | hpos
      · rw [resize_zero]
        exact .empty region
      · cases hblock : arena.block? region with
        | none =>
            rw [resize_of_not_live hblock hpos]
            exact .notLive hblock hpos
        | some block =>
            by_cases hle : newSize ≤ block.capacity
            · rw [resize_of_le hblock hpos hle]
              exact .within hblock hpos hle
            · have hlt := Nat.not_le.mp hle
              rw [resize_of_lt hblock hlt]
              exact .beyond hblock hlt

/-- What moving a block does, step by step: a larger block is placed, the old bytes are written to
its start, and the old block is released. -/
structure Moved (arena : Arena) (region : Region) (block : Block) (newSize : Nat) (moved : Region)
    (placed written after : Arena) : Prop where
  allocated : Allocated arena newSize moved placed
  replaced : Replaced placed moved (.zeroed newSize)
    ((Block.zeroed newSize).overwrite block.contents) written
  released : Released written region block after

/-- Moving a live block is refused without a trace, or it goes through. -/
theorem WellFormed.move_cases (h : arena.WellFormed) (refused : Bool) {newSize : Nat}
    (hmem : (region, block) ∈ arena.blocks) (hlt : block.capacity < newSize) :
    (¬ arena.Grants refused newSize ∧
        arena.move refused region newSize = (.error (refusal newSize), arena)) ∨
      (arena.Grants refused newSize ∧ ∃ moved placed written after,
        arena.allocate refused newSize = (.ok moved, placed) ∧
        placed.write moved block.contents = (.ok (), written) ∧
        written.release region = (.ok (), after) ∧
        arena.move refused region newSize = (.ok (some moved), after) ∧
        after.WellFormed ∧ Moved arena region block newSize moved placed written after) := by
  by_cases hgrants : arena.Grants refused newSize
  · right
    obtain ⟨moved, placed, hallocate, hplaced, allocated⟩ := allocate_of_grants h hgrants
    have hsized := h.wellSized _ hmem
    have hsize : block.contents.size ≤ newSize := by
      rw [Block.size_contents hsized]
      exact Nat.le_trans hsized.requested_le (Nat.le_of_lt hlt)
    have hne : region ≠ moved := fun heq => allocated.not_mem block (heq ▸ hmem)
    have hold : (region, block) ∈ placed.blocks :=
      allocated.perm.mem_iff.mpr (List.mem_cons_of_mem _ hmem)
    have hview : placed.view region = .ok block.contents :=
      view_of_block? (block?_of_mem_blocks hold)
    have hall : block.contents.extract 0 newSize = block.contents := Bytes.extract_zero_of_le hsize
    obtain ⟨written, hwrite, hwritten, replaced⟩ :=
      hplaced.write (allocated.perm.mem_iff.mpr List.mem_cons_self) hsize
    have hkept : (region, block) ∈ written.blocks :=
      block?_eq_some_iff.mp ((replaced.block?_eq hne).trans (block?_of_mem_blocks hold))
    obtain ⟨after, hrelease, hafter, released⟩ := hwritten.release hkept
    refine ⟨hgrants, moved, placed, written, after, hallocate, hwrite, hrelease, ?_, hafter,
      allocated, replaced, released⟩
    simp only [move, hallocate, hview, hall, hwrite, hrelease]
  · left
    refine ⟨hgrants, ?_⟩
    simp only [move, allocate_of_not_grants hgrants]

namespace Moved

variable {newSize : Nat} {moved other : Region} {placed written after : Arena}

theorem ne (h : Moved arena region block newSize moved placed written after)
    (hmem : (region, block) ∈ arena.blocks) : moved ≠ region := by
  rintro rfl
  exact h.allocated.not_mem block hmem

theorem block?_self (h : Moved arena region block newSize moved placed written after)
    (hmem : (region, block) ∈ arena.blocks) :
    after.block? moved = some ((Block.zeroed newSize).overwrite block.contents) :=
  (h.released.block?_eq (h.ne hmem)).trans h.replaced.block?_self

theorem block?_old (h : Moved arena region block newSize moved placed written after) :
    after.block? region = none := by
  rw [Option.eq_none_iff_forall_ne_some]
  intro found hfound
  exact h.released.not_mem found (block?_eq_some_iff.mp hfound)

theorem block?_eq (h : Moved arena region block newSize moved placed written after)
    (hregion : other ≠ region) (hmoved : other ≠ moved) :
    after.block? other = arena.block? other :=
  calc after.block? other
      = written.block? other := h.released.block?_eq hregion
    _ = placed.block? other := h.replaced.block?_eq hmoved
    _ = arena.block? other := h.allocated.block?_eq hmoved

end Moved

end Arena

end RemoteMemory
