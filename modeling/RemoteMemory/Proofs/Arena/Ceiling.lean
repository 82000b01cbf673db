import RemoteMemory.Proofs.Arena.Counters

/-!
# The limit on reserved bytes

The limit is checked against a running total, never against the blocks themselves. The total is
the sum of the capacities of the live blocks at every moment, so the check is exact: a block is
denied when the bytes reserved and its own do not fit the limit, or when the system refuses the
memory, which it may do at any call. A move is denied as an allocation is, with the block that it
would release still counted.
-/

namespace RemoteMemory

namespace Arena

variable {arena after : Arena} {limit : Option Nat} {refused : Bool} {region : Region}
  {block : Block} {size newSize : Nat}

/-! ## Within the limit -/

/-- A sound arena whose live blocks fit the limit. -/
structure Within (limit : Option Nat) (arena : Arena) : Prop where
  sound : arena.Sound
  limit_eq : arena.limit = limit
  reserved_le : ∀ bound ∈ limit, arena.reserved ≤ bound

theorem within_empty (id : Nat) (limit : Option Nat) :
    ({ id := id, limit := limit } : Arena).Within limit where
  sound := sound_empty id limit
  limit_eq := rfl
  reserved_le _ _ := Nat.zero_le _

theorem WellFormed.outstanding_eq_reserved (h : arena.WellFormed) :
    arena.outstanding = arena.reserved :=
  h.outstanding_eq

theorem Within.of_le (h : arena.Within limit) (hsound : after.Sound)
    (hnameplate : after.nameplate = arena.nameplate) (hle : after.reserved ≤ arena.reserved) :
    after.Within limit where
  sound := hsound
  limit_eq := (congrArg Prod.snd hnameplate).trans h.limit_eq
  reserved_le bound hbound := Nat.le_trans hle (h.reserved_le bound hbound)

/-- A block is placed only when the total and its size together fit the limit. -/
theorem Within.allocate (h : arena.Within limit) (refused : Bool) (size : Nat) :
    (arena.allocate refused size).2.Within limit := by
  have hsound := h.sound.allocate refused size
  rcases h.sound.wellFormed.allocate_cases refused size with ⟨-, error, hallocate⟩ |
    ⟨hgrants, region, after, hallocate, -, allocated⟩
  · rw [hallocate]
    exact h
  · rw [hallocate] at hsound ⊢
    constructor
    · exact hsound
    · exact allocated.limit_eq.trans h.limit_eq
    · intro bound hbound
      have hfits := exceedsLimit_eq_false_iff.mp hgrants.2.2.1 bound (h.limit_eq ▸ hbound)
      rw [h.sound.wellFormed.outstanding_eq_reserved] at hfits
      rw [allocated.reserved_eq]
      exact hfits

theorem WellFormed.reserved_release_le (h : arena.WellFormed) (region? : Option Region) :
    (arena.release region?).2.reserved ≤ arena.reserved := by
  rcases h.release_cases region? with ⟨result, hrelease⟩ |
    ⟨region, block, after, hrelease, -, released⟩
  · simp [hrelease]
  · simp [hrelease, released.reserved_eq]

theorem WellFormed.reserved_write (h : arena.WellFormed) (region : Region) (data : ByteArray) :
    (arena.write region data).2.reserved = arena.reserved := by
  rcases h.write_cases region data with ⟨result, hwrite⟩ | ⟨block, after, hwrite, -, replaced⟩
  · rw [hwrite]
  · rw [hwrite]
    exact replaced.reserved_eq rfl

theorem WellFormed.reserved_resizeWithin (h : arena.WellFormed)
    (hmem : (region, block) ∈ arena.blocks) (hpos : 0 < newSize) (hle : newSize ≤ block.capacity) :
    (arena.setBlock region.index (some (block.resizeWithin newSize))).reserved = arena.reserved :=
  (h.resizeWithin hmem hpos hle).2.reserved_eq rfl

theorem stepwise_within (limit : Option Nat) : Stepwise (Within limit) where
  wellFormed h := h.sound.wellFormed
  allocate h := h.allocate
  release h region? :=
    h.of_le (h.sound.release region?) (nameplate_release region?)
      (h.sound.wellFormed.reserved_release_le region?)
  write h region data :=
    h.of_le (h.sound.write region data) (nameplate_write region data)
      (Nat.le_of_eq (h.sound.wellFormed.reserved_write region data))
  resizeWithin h _ _ _ hmem hpos hle :=
    h.of_le (stepwise_sound.resizeWithin h.sound hmem hpos hle) rfl
      (Nat.le_of_eq (h.sound.wellFormed.reserved_resizeWithin hmem hpos hle))
  resetStats h := h.of_le h.sound.resetStats rfl (Nat.le_refl _)

theorem Within.attempt (h : arena.Within limit) (refused : Bool) (call : Call) :
    (arena.attempt refused call).2.Within limit :=
  (stepwise_within limit).attempt h refused call

theorem Within.attemptAll (h : arena.Within limit) (attempts : List (Bool × Call)) :
    (arena.attemptAll attempts).2.Within limit :=
  (stepwise_within limit).attemptAll h attempts

theorem Within.overlap? (h : arena.Within limit) {call : Call} {between : Arena}
    (hoverlap : arena.overlap? refused call = some between) : between.Within limit := by
  obtain ⟨region, newSize, -, rfl⟩ := exists_allocate_of_overlap? hoverlap
  exact h.allocate refused newSize

/-! ## The running total -/

/-- The running total is what the live blocks reserve, it fits the limit, and releasing any live
block takes the capacity of the block off it, which it is large enough for. -/
structure Accounted (limit : Option Nat) (arena : Arena) : Prop where
  outstanding_eq : arena.outstanding = arena.reserved
  reserved_le : ∀ bound ∈ limit, arena.reserved ≤ bound
  release_exact : ∀ region block, arena.block? region = some block →
    ∃ after, arena.release (some region) = (.ok (), after) ∧
      block.capacity ≤ arena.outstanding ∧
      after.outstanding = arena.outstanding - block.capacity

theorem Within.accounted (h : arena.Within limit) : arena.Accounted limit where
  outstanding_eq := h.sound.wellFormed.outstanding_eq
  reserved_le := h.reserved_le
  release_exact region block hblock := by
    obtain ⟨after, hrelease, -, released⟩ :=
      h.sound.wellFormed.release (block?_eq_some_iff.mp hblock)
    have hheld := released.outstanding_eq
    exact ⟨after, hrelease, by omega, by omega⟩

/-! ## Admission -/

/-- Why a block of `size` bytes is not had: with the bytes reserved it does not fit the limit, or
the system denies it. -/
def Denies (arena : Arena) (limit : Option Nat) (refused : Bool) (size : Nat) : Prop :=
  (∃ bound ∈ limit, bound < arena.reserved + size) ∨ refused = true ∨ 2 ^ 62 ≤ size

/-- With a slot number left, nothing else stands in the way of a block. -/
theorem Within.denies_iff (h : arena.Within limit) (hpos : 1 ≤ size)
    (hlive : arena.liveBlocks < 2 ^ 32) :
    arena.Denies limit refused size ↔ ¬ arena.Grants refused size := by
  rw [h.sound.wellFormed.liveBlocks_eq] at hlive
  have hslot := h.sound.exists_slot_iff.mpr hlive
  have hgrants : arena.Grants refused size ↔
      refused = false ∧ (∀ bound ∈ limit, arena.reserved + size ≤ bound) ∧ size < 2 ^ 62 := by
    rw [Grants, exceedsLimit_eq_false_iff, h.limit_eq, h.sound.wellFormed.outstanding_eq_reserved]
    simp [reservationLimit, hslot, Nat.pos_iff_ne_zero.mpr (Nat.ne_of_gt hpos)]
  simp only [Denies, hgrants, not_and_or, not_forall, exists_prop, Nat.not_lt, Nat.not_le,
    Bool.not_eq_false]
  exact or_left_comm

theorem refusal_of_pos (hpos : 1 ≤ size) : refusal size = .outOfMemory size :=
  if_neg (Nat.ne_of_gt hpos)

/-- What an arena grants and what it denies, when the system refuses the next call its memory or
does not. -/
structure Admission (limit : Option Nat) (arena : Arena) (refused : Bool) : Prop where
  allocate_denied_iff : ∀ size, 1 ≤ size → arena.liveBlocks < 2 ^ 32 →
    ((arena.attempt refused (.allocate size)).1 = .allocate size (.error (.outOfMemory size)) ↔
      arena.Denies limit refused size)
  allocate_granted : ∀ size, 1 ≤ size → arena.liveBlocks < 2 ^ 32 →
    ¬ arena.Denies limit refused size →
    ∃ region after, arena.attempt refused (.allocate size) =
        (.allocate size (.ok region), after) ∧
      after.reserved = arena.reserved + size
  move_denied_iff : ∀ region block newSize, arena.block? region = some block →
    block.capacity < newSize → arena.liveBlocks < 2 ^ 32 →
    ((arena.attempt refused (.resize (some region) newSize)).1 =
        .resize (some region) newSize (.error (.outOfMemory newSize)) ↔
      arena.Denies limit refused newSize)
  move_granted : ∀ region block newSize, arena.block? region = some block →
    block.capacity < newSize → arena.liveBlocks < 2 ^ 32 →
    ¬ arena.Denies limit refused newSize →
    ∃ moved between after, moved ≠ region ∧
      arena.overlap? refused (.resize (some region) newSize) = some between ∧
      between.block? region = some block ∧ between.block? moved = some (.zeroed newSize) ∧
      between.reserved = arena.reserved + newSize ∧
      arena.attempt refused (.resize (some region) newSize) =
        (.resize (some region) newSize (.ok (some moved)), after) ∧
      after.reserved + block.capacity = between.reserved
  within_kept : ∀ region block newSize, arena.block? region = some block → 1 ≤ newSize →
    newSize ≤ block.capacity →
    ∃ after, arena.attempt refused (.resize (some region) newSize) =
        (.resize (some region) newSize (.ok (some region)), after) ∧
      after.reserved = arena.reserved

theorem Within.attempt_allocate_of_denies (h : arena.Within limit) (hpos : 1 ≤ size)
    (hlive : arena.liveBlocks < 2 ^ 32) (hdenies : arena.Denies limit refused size) :
    arena.attempt refused (.allocate size) =
      (.allocate size (.error (.outOfMemory size)), arena) := by
  have hrefused := allocate_of_not_grants ((h.denies_iff hpos hlive).mp hdenies)
  rw [refusal_of_pos hpos] at hrefused
  simp only [Arena.attempt, hrefused]

theorem Within.attempt_allocate_of_not_denies (h : arena.Within limit) (hpos : 1 ≤ size)
    (hlive : arena.liveBlocks < 2 ^ 32) (hdenies : ¬ arena.Denies limit refused size) :
    ∃ region after, arena.attempt refused (.allocate size) =
        (.allocate size (.ok region), after) ∧
      after.reserved = arena.reserved + size := by
  rw [h.denies_iff hpos hlive, not_not] at hdenies
  obtain ⟨region, after, hallocate, -, allocated⟩ := allocate_of_grants h.sound.wellFormed hdenies
  refine ⟨region, after, ?_, allocated.reserved_eq⟩
  simp only [Arena.attempt, hallocate]

theorem Within.attempt_resize_of_denies (h : arena.Within limit)
    (hblock : arena.block? region = some block) (hlt : block.capacity < newSize)
    (hlive : arena.liveBlocks < 2 ^ 32) (hdenies : arena.Denies limit refused newSize) :
    arena.attempt refused (.resize (some region) newSize) =
      (.resize (some region) newSize (.error (.outOfMemory newSize)), arena) := by
  have hpos : 1 ≤ newSize := Nat.zero_lt_of_lt hlt
  have hrefused := allocate_of_not_grants ((h.denies_iff hpos hlive).mp hdenies)
  rw [refusal_of_pos hpos] at hrefused
  simp only [Arena.attempt, resize_of_lt hblock hlt, move, hrefused]

/-- The old block is released last, so the limit has to have room for both. -/
theorem Within.attempt_resize_of_not_denies (h : arena.Within limit)
    (hblock : arena.block? region = some block) (hlt : block.capacity < newSize)
    (hlive : arena.liveBlocks < 2 ^ 32) (hdenies : ¬ arena.Denies limit refused newSize) :
    ∃ moved between after, moved ≠ region ∧
      arena.overlap? refused (.resize (some region) newSize) = some between ∧
      between.block? region = some block ∧ between.block? moved = some (.zeroed newSize) ∧
      between.reserved = arena.reserved + newSize ∧
      arena.attempt refused (.resize (some region) newSize) =
        (.resize (some region) newSize (.ok (some moved)), after) ∧
      after.reserved + block.capacity = between.reserved := by
  have hmem := block?_eq_some_iff.mp hblock
  rw [h.denies_iff (Nat.zero_lt_of_lt hlt) hlive, not_not] at hdenies
  rcases h.sound.wellFormed.move_cases refused hmem hlt with ⟨hrefused, -⟩ |
    ⟨-, moved, placed, written, after, hallocate, -, -, hmove, -, move⟩
  · exact absurd hdenies hrefused
  · have hne := move.ne hmem
    have hresize := (resize_of_lt hblock hlt).trans hmove
    refine ⟨moved, placed, after, hne, ?_, ?_, move.allocated.block?_self,
      move.allocated.reserved_eq, ?_, ?_⟩
    · rw [overlap?_of_ne (by rw [hresize]) hne, hallocate]
    · exact (move.allocated.block?_eq hne.symm).trans hblock
    · simp only [Arena.attempt, hresize]
    · rw [← move.released.reserved_eq, move.replaced.reserved_eq rfl]

/-- A resize within the capacity asks the system for nothing. -/
theorem Within.attempt_resize_of_le (h : arena.Within limit)
    (hblock : arena.block? region = some block) (hpos : 1 ≤ newSize)
    (hle : newSize ≤ block.capacity) :
    ∃ after, arena.attempt refused (.resize (some region) newSize) =
        (.resize (some region) newSize (.ok (some region)), after) ∧
      after.reserved = arena.reserved := by
  have hmem := block?_eq_some_iff.mp hblock
  refine ⟨_, ?_, h.sound.wellFormed.reserved_resizeWithin hmem hpos hle⟩
  rw [Arena.attempt, resize_of_le hblock hpos hle]

theorem Within.admission (h : arena.Within limit) (refused : Bool) :
    arena.Admission limit refused where
  allocate_denied_iff size hpos hlive := by
    by_cases hdenies : arena.Denies limit refused size
    · simp [h.attempt_allocate_of_denies hpos hlive hdenies, hdenies]
    · obtain ⟨region, after, hattempt, -⟩ :=
        h.attempt_allocate_of_not_denies hpos hlive hdenies
      simp [hattempt, hdenies]
  allocate_granted _ := h.attempt_allocate_of_not_denies
  move_denied_iff region block newSize hblock hlt hlive := by
    by_cases hdenies : arena.Denies limit refused newSize
    · simp [h.attempt_resize_of_denies hblock hlt hlive hdenies, hdenies]
    · obtain ⟨moved, between, after, -, -, -, -, -, hattempt, -⟩ :=
        h.attempt_resize_of_not_denies hblock hlt hlive hdenies
      simp [hattempt, hdenies]
  move_granted _ _ _ := h.attempt_resize_of_not_denies
  within_kept _ _ _ := h.attempt_resize_of_le

/-- After any calls, each of which the system may refuse the memory that it asks for, and with the
counters cleared at any time among them: the running total is what the live blocks reserve, which
fits the limit, and releasing a block takes its capacity off the total in full; and so it is amid a
move, when the old block and the new one are both live. As long as a slot number is left, a block of
at least one byte is denied for lack of memory exactly when the bytes reserved and its own exceed
the limit or the system refuses it, as it does from 2^62 bytes on; a move is denied exactly when the
new block is, with the old one still counted. A resize within the capacity is never denied and
reserves what was reserved before. -/
theorem limit_after_attemptAll (id : Nat) (limit : Option Nat) (attempts : List (Bool × Call)) :
    let last := (({ id := id, limit := limit } : Arena).attemptAll attempts).2
    last.Accounted limit ∧
      (∀ refused region newSize between,
        last.overlap? refused (.resize (some region) newSize) = some between →
          between.Accounted limit) ∧
      ∀ refused, last.Admission limit refused := by
  intro last
  have hwithin : last.Within limit := (within_empty id limit).attemptAll attempts
  constructor
  · exact hwithin.accounted
  constructor
  · intro refused region newSize between hoverlap
    exact (hwithin.overlap? hoverlap).accounted
  · exact hwithin.admission

/-- 60 of 100 bytes are reserved. A move to 61 bytes is denied, since amid it both blocks would be
live. -/
example : ((({ id := 0, limit := some 100 } : Arena).attemptAll
    [(false, .allocate 60), (false, .resetStats)]).2.attempt false
      (.resize (some ⟨0, 0, 0⟩) 61)).1 =
    .resize (some ⟨0, 0, 0⟩) 61 (.error (.outOfMemory 61)) := rfl

end Arena

end RemoteMemory
