import RemoteMemory.Proofs.Arena.Run

/-!
# A call that fails changes nothing

An operation that is refused hands the arena back as it was, with the same slots, generations,
bytes, vacant list, counters and held bytes, and a read that is refused hands back the buffer.
Resizing is made of operations that each change the arena, so for it this needs that only the first
of them can fail: once the larger block is placed, the old one is still live to be copied and
released, and the new one has room for its bytes.
-/

namespace RemoteMemory

namespace Arena

variable {arena after : Arena} {refused : Bool} {region moved : Region} {block : Block}
  {size newSize : Nat} {error : Error}

/-! ## Single steps -/

theorem WellFormed.allocate_eq_error_iff (h : arena.WellFormed) :
    arena.allocate refused size = (.error error, after) ↔
      ¬ arena.Grants refused size ∧ error = refusal size ∧ after = arena := by
  by_cases hgrants : arena.Grants refused size
  · obtain ⟨region, placed, hallocate, -⟩ := allocate_of_grants h hgrants
    simp [hallocate, hgrants]
  · simp [allocate_of_not_grants hgrants, hgrants, eq_comm]

theorem WellFormed.release_eq_error_iff (h : arena.WellFormed) :
    arena.release (some region) = (.error error, after) ↔
      arena.tag? region ≠ some .live ∧ error = arena.releaseRefusal region ∧ after = arena := by
  by_cases hlive : arena.tag? region = some .live
  · obtain ⟨block, hmem⟩ := tag?_eq_live_iff.mp hlive
    obtain ⟨released, hrelease, -⟩ := h.release hmem
    simp [hrelease, hlive]
  · simp [release_of_not_live hlive, hlive, eq_comm (a := error), eq_comm (a := after)]

theorem write_eq_of_error {data : ByteArray}
    (h : arena.write region data = (.error error, after)) : after = arena := by
  cases hblock : arena.block? region with
  | none =>
      rw [write_of_not_live hblock] at h
      cases h
      rfl
  | some block =>
      by_cases hlong : block.requested < data.size
      · rw [write_of_lt hblock hlong] at h
        cases h
        rfl
      · simp [write, hblock, hlong] at h

theorem readInto_eq_of_error {buffer filled : ByteArray}
    (h : arena.readInto region buffer = (.error error, filled)) : filled = buffer := by
  cases hblock : arena.block? region with
  | none =>
      rw [readInto_of_not_live hblock] at h
      cases h
      rfl
  | some block =>
      by_cases hlong : block.requested < buffer.size
      · rw [readInto_of_lt hblock hlong] at h
        cases h
        rfl
      · simp [readInto, hblock, hlong] at h

/-! ## Resizing -/

/-- Once the larger block is placed, the old one is seen, copied and released without fail. -/
theorem WellFormed.resize_of_allocate (h : arena.WellFormed) {placed : Arena}
    (hblock : arena.block? region = some block) (hlt : block.capacity < newSize)
    (hallocate : arena.allocate refused newSize = (.ok moved, placed)) :
    ∃ written after, placed.view region = .ok block.contents ∧
      placed.write moved (block.contents.extract 0 newSize) = (.ok (), written) ∧
      written.release (some region) = (.ok (), after) ∧
      arena.resize refused (some region) newSize = (.ok (some moved), after) := by
  have hmem := block?_eq_some_iff.mp hblock
  have hsized := h.wellSized _ hmem
  rcases h.move_cases refused hmem hlt with ⟨hrefused, -⟩ |
    ⟨-, named, placed', written, after, hplaced, hwrite, hrelease, hmove, -, move⟩
  · rw [allocate_of_not_grants hrefused] at hallocate
    cases hallocate
  · rw [hplaced] at hallocate
    cases hallocate
    have hkept : placed.block? region = some block :=
      (move.allocated.block?_eq (move.ne hmem).symm).trans hblock
    have hsize : block.contents.size ≤ newSize := by
      rw [Block.size_contents hsized]
      exact Nat.le_trans hsized.requested_le (Nat.le_of_lt hlt)
    refine ⟨written, after, view_of_block? hkept, ?_, hrelease, ?_⟩
    · rw [Bytes.extract_zero_of_le hsize]
      exact hwrite
    · rw [resize_of_lt hblock hlt]
      exact hmove

/-- Why a resize is refused: there is neither a block nor a size, the region is not live, or the
block that it takes cannot be allocated. -/
inductive ResizeRefused (arena : Arena) (refused : Bool) :
    Option Region → Nat → Error → Prop where
  | nothing : ResizeRefused arena refused none 0 (.invalidArgument .emptyAllocation)
  | notLive {region : Region} (newSize : Nat) (h : arena.tag? region ≠ some .live) :
      ResizeRefused arena refused (some region) newSize
        (if newSize = 0 then arena.releaseRefusal region else .corrupt)
  | notAllocated {region? : Option Region} {newSize : Nat} {error : Error} (hpos : 0 < newSize)
      (hmoves : ∀ region, region? = some region →
        ∃ block, arena.block? region = some block ∧ block.capacity < newSize)
      (h : arena.allocate refused newSize = (.error error, arena)) :
      ResizeRefused arena refused region? newSize error

theorem resize_of_refused {region? : Option Region}
    (h : ResizeRefused arena refused region? newSize error) :
    arena.resize refused region? newSize = (.error error, arena) := by
  cases h with
  | nothing => rfl
  | notLive newSize hlive =>
      rcases Nat.eq_zero_or_pos newSize with rfl | hpos
      · rw [resize_zero, release_of_not_live hlive]
        rfl
      · rw [if_neg (Nat.pos_iff_ne_zero.mp hpos)]
        exact resize_of_not_live (block?_eq_none_iff.mpr hlive) hpos
  | notAllocated hpos hmoves hallocate =>
      cases region? with
      | none =>
          rw [resize_none, hallocate]
          rfl
      | some region =>
          obtain ⟨block, hblock, hlt⟩ := hmoves region rfl
          rw [resize_of_lt hblock hlt, move, hallocate]

/-- A resize is refused for one of the reasons, or it goes through. -/
theorem WellFormed.resize_cases (h : arena.WellFormed) (refused : Bool) (region? : Option Region)
    (newSize : Nat) :
    (∃ error, ResizeRefused arena refused region? newSize error) ∨
      ∃ resized after, arena.resize refused region? newSize = (.ok resized, after) := by
  have hresizing := resizing_resize arena refused region? newSize
  generalize arena.resize refused region? newSize = result at hresizing ⊢
  cases hresizing with
  | fresh =>
      by_cases hgrants : arena.Grants refused newSize
      · obtain ⟨placed, after, hallocate, -⟩ := allocate_of_grants h hgrants
        rw [hallocate]
        exact .inr ⟨_, _, rfl⟩
      · rcases Nat.eq_zero_or_pos newSize with rfl | hpos
        · exact .inl ⟨_, .nothing⟩
        · exact .inl ⟨_, .notAllocated hpos (by simp) (allocate_of_not_grants hgrants)⟩
  | empty region =>
      by_cases hlive : arena.tag? region = some .live
      · obtain ⟨block, hmem⟩ := tag?_eq_live_iff.mp hlive
        obtain ⟨after, hrelease, -⟩ := h.release hmem
        rw [hrelease]
        exact .inr ⟨_, _, rfl⟩
      · exact .inl ⟨_, .notLive 0 hlive⟩
  | notLive hblock => exact .inl ⟨_, .notLive newSize (block?_eq_none_iff.mp hblock)⟩
  | within => exact .inr ⟨_, _, rfl⟩
  | @beyond region block _ hblock hlt =>
      by_cases hgrants : arena.Grants refused newSize
      · obtain ⟨moved, placed, hallocate, -⟩ := allocate_of_grants h hgrants
        obtain ⟨written, after, -, -, -, hmoved⟩ := h.resize_of_allocate hblock hlt hallocate
        rw [← resize_of_lt hblock hlt]
        exact .inr ⟨_, _, hmoved⟩
      · have hpos : 0 < newSize := Nat.zero_lt_of_lt hlt
        have hmoves : ∀ other, some region = some other →
            ∃ block, arena.block? other = some block ∧ block.capacity < newSize := by
          intro other heq
          cases heq
          exact ⟨block, hblock, hlt⟩
        exact .inl ⟨_, .notAllocated hpos hmoves (allocate_of_not_grants hgrants)⟩

theorem WellFormed.resize_eq_error_iff (h : arena.WellFormed) {region? : Option Region} :
    arena.resize refused region? newSize = (.error error, after) ↔
      ResizeRefused arena refused region? newSize error ∧ after = arena := by
  constructor
  · intro hresize
    rcases h.resize_cases refused region? newSize with ⟨reason, hrefused⟩ |
      ⟨resized, other, hresized⟩
    · rw [resize_of_refused hrefused] at hresize
      cases hresize
      exact ⟨hrefused, rfl⟩
    · rw [hresized] at hresize
      cases hresize
  · intro hrefused
    obtain ⟨hrefused, rfl⟩ := hrefused
    exact resize_of_refused hrefused

/-! ## In every state that an arena can come to -/

/-- Whatever fails leaves everything as it was. -/
structure Unharmed (arena : Arena) : Prop where
  allocate : ∀ {refused size error after},
    arena.allocate refused size = (.error error, after) → after = arena
  release : ∀ {region? error after}, arena.release region? = (.error error, after) → after = arena
  resize : ∀ {refused region? newSize error after},
    arena.resize refused region? newSize = (.error error, after) → after = arena
  write : ∀ {region data error after},
    arena.write region data = (.error error, after) → after = arena
  readInto : ∀ {region buffer error filled},
    arena.readInto region buffer = (.error error, filled) → filled = buffer

theorem WellFormed.unharmed (h : arena.WellFormed) : arena.Unharmed where
  allocate hallocate := (h.allocate_eq_error_iff.mp hallocate).2.2
  release {region? error after} hrelease := by
    cases region? with
    | none => cases hrelease
    | some region => exact (h.release_eq_error_iff.mp hrelease).2.2
  resize hresize := (h.resize_eq_error_iff.mp hresize).2
  write := write_eq_of_error
  readInto := readInto_eq_of_error

/-- After any calls, to any of which the system may refuse memory, an operation that fails changes
nothing at all. A resize fails only for want of a block and a size, of a live region, or of room for
the larger block; once this block is placed, the old one is seen, copied to it and released without
fail. -/
theorem unharmed_after_attemptAll (id : Nat) (limit : Option Nat) (attempts : List (Bool × Call)) :
    let arena := (({ id := id, limit := limit } : Arena).attemptAll attempts).2
    arena.Unharmed ∧
      (∀ refused region? newSize error, (arena.resize refused region? newSize).1 = .error error ↔
        ResizeRefused arena refused region? newSize error) ∧
      ∀ refused region block newSize moved placed, arena.block? region = some block →
        block.capacity < newSize → arena.allocate refused newSize = (.ok moved, placed) →
        ∃ written after, placed.view region = .ok block.contents ∧
          placed.write moved (block.contents.extract 0 newSize) = (.ok (), written) ∧
          written.release (some region) = (.ok (), after) ∧
          arena.resize refused (some region) newSize = (.ok (some moved), after) := by
  intro arena
  have h : arena.WellFormed := ((sound_empty id limit).attemptAll attempts).wellFormed
  refine ⟨h.unharmed, ?_, ?_⟩
  · intro refused region? newSize error
    constructor
    · intro hresize
      exact (h.resize_eq_error_iff.mp (Prod.ext hresize rfl)).1
    · intro hrefused
      rw [resize_of_refused hrefused]
  · intro refused region block newSize moved placed hblock hlt hallocate
    exact h.resize_of_allocate hblock hlt hallocate

end Arena

end RemoteMemory
