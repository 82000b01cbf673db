import RemoteMemory.Proofs.Arena.Ceiling
import RemoteMemory.Proofs.Arena.Tags

/-!
# As many slots as blocks were ever live at once

A slot is added only when every slot holds a block, and none is taken away. So a step leaves as many
slots as there were, or as many as blocks are live after it, whichever is more, and along a run the
number of slots is the largest number of blocks live at once so far. Amid a move the old block and
the new one are both live, so this moment counts too. What is freed is used again before a slot is
added: neither the length of a run nor the number of blocks that it places makes an arena grow.
-/

namespace RemoteMemory

namespace Arena

variable {arena after : Arena} {limit : Option Nat} {refused : Bool} {region : Region}
  {size newSize : Nat}

/-! ## Every moment of a run -/

/-- The arenas of a run in their order: the first one, the one that each call leaves, and the one
amid each move. -/
def moments (arena : Arena) : List (Bool × Call) → List Arena
  | [] => [arena]
  | (refused, call) :: rest =>
    arena :: ((arena.overlap? refused call).toList ++ (arena.attempt refused call).2.moments rest)

/-- The largest number of blocks that are live at once in one of some arenas. -/
def peak? (passed : List Arena) : Option Nat :=
  (passed.map fun moment => moment.blocks.length).max?

/-! ## One step -/

/-- No slot was added, unless every slot holds a block now. -/
def Thrifty (arena after : Arena) : Prop :=
  after.slots.size = max arena.slots.size after.blocks.length

theorem WellFormed.length_blocks_le (h : arena.WellFormed) :
    arena.blocks.length ≤ arena.slots.size := by
  have hslots := h.length_vacant_add
  omega

theorem WellFormed.thrifty_of_size_eq (h : after.WellFormed)
    (hsize : after.slots.size = arena.slots.size) : Thrifty arena after := by
  have hle := h.length_blocks_le
  unfold Thrifty
  omega

theorem WellFormed.vacant_eq_nil (h : arena.WellFormed)
    (hindex : arena.nextIndex = arena.slots.size) : arena.vacant = [] := by
  cases hvacant : arena.vacant with
  | nil => rfl
  | cons index vacant =>
      have ⟨slot, hslot, _⟩ := (h.mem_vacant_iff index).mp (by simp [hvacant])
      have hlt := (Array.getElem?_eq_some_iff.mp hslot).1
      rw [nextIndex, hvacant, List.headD_cons] at hindex
      omega

/-- A vacated slot is used before one is added. -/
theorem WellFormed.thrifty_allocate (h : arena.WellFormed) (refused : Bool) (size : Nat) :
    Thrifty arena (arena.allocate refused size).2 := by
  rcases h.allocate_cases refused size with ⟨-, error, hallocate⟩ |
    ⟨-, region, after, hallocate, hafter, allocated⟩
  · rw [hallocate]
    exact h.thrifty_of_size_eq rfl
  · rw [hallocate]
    rcases allocate_ok_cases hallocate with ⟨vacant, -, hreuse⟩ | ⟨hindex, hextend⟩
    · cases hreuse
      exact hafter.thrifty_of_size_eq Array.size_modify
    · have hlength : after.blocks.length = arena.blocks.length + 1 := allocated.perm.length_eq
      have hslots := h.length_vacant_add
      have hsize : after.slots.size = arena.slots.size + 1 := by
        cases hextend
        exact Array.size_push _
      rw [h.vacant_eq_nil hindex, List.length_nil] at hslots
      unfold Thrifty
      dsimp only
      omega

/-- A resize adds a slot for the new block of a move and for nothing else. -/
theorem WellFormed.size_slots_resize (h : arena.WellFormed) (refused : Bool) (region : Region)
    (newSize : Nat) :
    (arena.resize refused (some region) newSize).2.slots.size =
      ((arena.overlap? refused (.resize (some region) newSize)).getD arena).slots.size := by
  have hresizing := resizing_resize arena refused (some region) newSize
  generalize hresize : arena.resize refused (some region) newSize = result at hresizing ⊢
  cases hresizing with
  | empty =>
      rw [overlap?_of_resize hresize fun moved hmoved => ?_]
      · exact size_slots_release (some region)
      · cases hrelease : (arena.release (some region)).1 <;> simp [hrelease, Except.map] at hmoved
  | notLive => rw [overlap?_of_resize hresize (by simp), Option.getD_none]
  | within =>
      rw [overlap?_of_resize hresize (by simp)]
      exact size_slots_setBlock _ _
  | beyond hblock hlt =>
      have hmem := block?_eq_some_iff.mp hblock
      have hmoving : (arena.move refused region newSize).2.slots.size =
          (arena.allocate refused newSize).2.slots.size :=
        view_move (fun arena => arena.slots.size) (fun _ => size_slots_write)
          (fun _ => size_slots_release) refused region newSize
      rcases h.move_cases refused hmem hlt with ⟨-, hmove⟩ |
        ⟨-, moved, placed, written, after, -, -, -, hmove, -, move⟩
      · rw [hmove] at hresize ⊢
        rw [overlap?_of_resize hresize (by simp), Option.getD_none]
      · rw [overlap?_of_ne (by rw [hresize, hmove]) (move.ne hmem)]
        exact hmoving

/-- What a call leaves, and what it passes through amid a move, is thrifty. -/
inductive Passes (arena : Arena) (overlap? : Option Arena) (after : Arena) : Prop where
  | straight (overlap?_eq : overlap? = none) (thrifty : Thrifty arena after)
  | through (between : Arena) (overlap?_eq : overlap? = some between)
      (first : Thrifty arena between) (second : Thrifty between after)

theorem Sound.passes_attempt (h : arena.Sound) (refused : Bool) (call : Call) :
    Passes arena (arena.overlap? refused call) (arena.attempt refused call).2 := by
  have hwell := h.wellFormed
  have hafter := (h.attempt refused call).wellFormed
  cases hoverlap : arena.overlap? refused call with
  | some between =>
      obtain ⟨region, newSize, rfl, rfl⟩ := exists_allocate_of_overlap? hoverlap
      apply Passes.through _ rfl (hwell.thrifty_allocate refused newSize)
      apply hafter.thrifty_of_size_eq
      have hsize := hwell.size_slots_resize refused region newSize
      rwa [hoverlap] at hsize
  | none =>
      apply Passes.straight rfl
      cases call with
      | allocate size => exact hwell.thrifty_allocate refused size
      | release region? => exact hafter.thrifty_of_size_eq (size_slots_release region?)
      | resize region? newSize =>
          cases region? with
          | none =>
              change Thrifty arena (arena.resize refused none newSize).2
              rw [resize_none]
              exact hwell.thrifty_allocate refused newSize
          | some region =>
              have hsize := hwell.size_slots_resize refused region newSize
              rw [hoverlap] at hsize
              exact hafter.thrifty_of_size_eq hsize
      | write region data => exact hafter.thrifty_of_size_eq (size_slots_write region data)
      | read region buffer => exact hafter.thrifty_of_size_eq rfl
      | view region => exact hafter.thrifty_of_size_eq rfl
      | resetStats => exact hafter.thrifty_of_size_eq rfl

/-! ## A run -/

theorem Thrifty.size_slots_le (h : Thrifty arena after) : arena.slots.size ≤ after.slots.size :=
  h ▸ Nat.le_max_left _ _

theorem Passes.size_slots_le {overlap? : Option Arena} (h : Passes arena overlap? after) :
    arena.slots.size ≤ after.slots.size := by
  cases h with
  | straight _ hthrifty => exact hthrifty.size_slots_le
  | through between _ hfirst hsecond =>
      exact Nat.le_trans hfirst.size_slots_le hsecond.size_slots_le

theorem Within.size_slots_le (h : arena.Within limit) (attempts : List (Bool × Call)) :
    arena.slots.size ≤ (arena.attemptAll attempts).2.slots.size := by
  induction attempts generalizing arena with
  | nil => exact Nat.le_refl _
  | cons entry rest ih =>
      have hfirst := (h.sound.passes_attempt entry.1 entry.2).size_slots_le
      exact Nat.le_trans hfirst (ih (h.attempt entry.1 entry.2))

theorem exists_moments_eq_cons (arena : Arena) (attempts : List (Bool × Call)) :
    ∃ later, arena.moments attempts = arena :: later := by
  cases attempts <;> exact ⟨_, rfl⟩

theorem exists_moments_eq_concat (arena : Arena) (attempts : List (Bool × Call)) :
    ∃ before, arena.moments attempts = before ++ [(arena.attemptAll attempts).2] := by
  induction attempts generalizing arena with
  | nil => exact ⟨[], rfl⟩
  | cons entry rest ih =>
      have ⟨before, hbefore⟩ := ih (arena.attempt entry.1 entry.2).2
      refine ⟨arena :: ((arena.overlap? entry.1 entry.2).toList ++ before), ?_⟩
      rw [moments, hbefore, List.cons_append, List.append_assoc]
      rfl

theorem Within.moments (h : arena.Within limit) (attempts : List (Bool × Call)) :
    ∀ moment ∈ arena.moments attempts, moment.Within limit := by
  induction attempts generalizing arena with
  | nil =>
      intro moment hmoment
      rw [List.mem_singleton.mp hmoment]
      exact h
  | cons entry rest ih =>
      intro moment hmoment
      simp only [Arena.moments, List.mem_cons, List.mem_append, Option.mem_toList] at hmoment
      rcases hmoment with rfl | hamid | hlater
      · exact h
      · exact h.overlap? hamid
      · exact ih (h.attempt entry.1 entry.2) moment hlater

/-- From each moment of a run to the next one, the arena is thrifty. -/
theorem Within.isChain_moments (h : arena.Within limit) (attempts : List (Bool × Call)) :
    List.IsChain Thrifty (arena.moments attempts) := by
  induction attempts generalizing arena with
  | nil => exact List.isChain_singleton arena
  | cons entry rest ih =>
      have hrest := ih (h.attempt entry.1 entry.2)
      have ⟨later, hlater⟩ := exists_moments_eq_cons (arena.attempt entry.1 entry.2).2 rest
      rw [Arena.moments, hlater]
      rw [hlater] at hrest
      cases h.sound.passes_attempt entry.1 entry.2 with
      | straight hnone hthrifty =>
          rw [hnone]
          exact hrest.cons_cons hthrifty
      | through between hamid hfirst hsecond =>
          rw [hamid]
          exact (hrest.cons_cons hsecond).cons_cons hfirst

theorem peak?_concat {passed : List Arena} {most : Nat} (h : peak? passed = some most)
    (moment : Arena) : peak? (passed ++ [moment]) = some (max most moment.blocks.length) := by
  rw [peak?, List.map_append]
  exact max?_concat h _

/-- An arena that has as many slots as blocks were live at once so far goes on to have them. -/
theorem peak?_of_isChain {passed rest before later : List Arena} {moment : Arena}
    (hchain : List.IsChain Thrifty (arena :: rest))
    (hpeak : peak? (passed ++ [arena]) = some arena.slots.size)
    (hsplit : arena :: rest = before ++ moment :: later) :
    peak? (passed ++ before ++ [moment]) = some moment.slots.size := by
  induction before generalizing arena passed rest with
  | nil =>
      cases hsplit
      rwa [List.append_nil]
  | cons first before ih =>
      obtain ⟨rfl, hrest⟩ := List.cons.inj hsplit
      cases rest with
      | nil => simp at hrest
      | cons next rest =>
          obtain ⟨hthrifty, hnext⟩ := List.isChain_cons_cons.mp hchain
          have hmore := peak?_concat hpeak next
          rw [← hthrifty] at hmore
          have hlater := ih hnext hmore hrest
          rwa [List.append_assoc passed, List.singleton_append] at hlater

/-! ## Regions and slot numbers -/

theorem lt_size_of_generations_pos {index : Nat} (h : 0 < arena.generations index) :
    index < arena.slots.size := by
  by_contra hout
  rw [generations, Array.getElem?_eq_none (Nat.not_lt.mp hout)] at h
  exact Nat.lt_irrefl 0 h

/-- A region that is handed out names a slot that exists. -/
theorem WellFormed.index_lt_of_attempt (h : arena.WellFormed) {call : Call}
    (hissued : (arena.attempt refused call).1.issued? = some region) :
    region.index < (arena.attempt refused call).2.slots.size := by
  cases h.numbered_attempt refused call with
  | kept hnone _ =>
      rw [hnone] at hissued
      cases hissued
  | placed hnext hgenerations =>
      rw [hnext] at hissued
      cases hissued
      apply lt_size_of_generations_pos
      rw [hgenerations, index_nextRegion, Function.update_self]
      exact Nat.succ_pos _

theorem Within.index_lt (h : arena.Within limit) (attempts : List (Bool × Call)) :
    ∀ region ∈ issued (arena.attemptAll attempts).1,
      region.index < (arena.attemptAll attempts).2.slots.size := by
  induction attempts generalizing arena with
  | nil =>
      intro region hregion
      cases hregion
  | cons entry rest ih =>
      intro region hregion
      have hnext := h.attempt entry.1 entry.2
      have hmem : (arena.attempt entry.1 entry.2).1.issued? = some region ∨
          region ∈ issued ((arena.attempt entry.1 entry.2).2.attemptAll rest).1 := by
        simpa [issued, Arena.attemptAll] using hregion
      rcases hmem with hissued | hlater
      · have hlt := h.sound.wellFormed.index_lt_of_attempt hissued
        exact Nat.lt_of_lt_of_le hlt (hnext.size_slots_le rest)
      · exact ih hnext region hlater

/-- With fewer blocks than there are slot numbers, only sizes, limits and the system stand in the
way of another one. -/
theorem Within.exists_allocate_iff (h : arena.Within limit)
    (hlive : arena.blocks.length < 2 ^ 32) :
    (∃ region after, arena.allocate refused size = (.ok region, after)) ↔
      0 < size ∧ ¬ arena.Denies limit refused size := by
  have hwell := h.sound.wellFormed
  rw [hwell.exists_allocate_iff]
  rcases Nat.eq_zero_or_pos size with rfl | hpos
  · simp [Grants]
  · rw [← hwell.liveBlocks_eq] at hlive
    simp [h.denies_iff hpos hlive, hpos]

/-! ## The moments and the history -/

/-- What the history of a run says of the blocks that are live at one of its moments: they are those
of the regions in use by the events so far, and amid a move that of the new region too. -/
inductive Told (start : Arena) (attempts : List (Bool × Call)) (moment : Arena) : Prop where
  | after (done later : List (Bool × Call)) (split : attempts = done ++ later)
      (moment_eq : moment = (start.attemptAll done).2)
      (live_iff : ∀ region, (∃ block, (region, block) ∈ moment.blocks) ↔
        InUse (start.attemptAll done).1 region)
  | amid (done later : List (Bool × Call)) (refused : Bool) (call : Call)
      (split : attempts = done ++ (refused, call) :: later)
      (overlap?_eq : (start.attemptAll done).2.overlap? refused call = some moment)
      (live_iff : ∀ region, (∃ block, (region, block) ∈ moment.blocks) ↔
        InUse (start.attemptAll done).1 region ∨
          ((start.attemptAll done).2.attempt refused call).1.issued? = some region)

/-- Each moment is one after some of the calls, or amid the move of the next call. -/
theorem exists_of_mem_moments {attempts : List (Bool × Call)} {moment : Arena}
    (h : moment ∈ arena.moments attempts) :
    (∃ done later, attempts = done ++ later ∧ moment = (arena.attemptAll done).2) ∨
      ∃ done later refused call, attempts = done ++ (refused, call) :: later ∧
        (arena.attemptAll done).2.overlap? refused call = some moment := by
  induction attempts generalizing arena with
  | nil => exact .inl ⟨[], [], rfl, List.mem_singleton.mp h⟩
  | cons entry rest ih =>
      obtain ⟨refused, call⟩ := entry
      simp only [Arena.moments, List.mem_cons, List.mem_append, Option.mem_toList] at h
      rcases h with rfl | hamid | hlater
      · exact .inl ⟨[], _, rfl, rfl⟩
      · exact .inr ⟨[], rest, refused, call, rfl, hamid⟩
      · rcases ih hlater with ⟨done, later, rfl, hmoment⟩ |
          ⟨done, later, other, next, rfl, hmoment⟩
        · exact .inl ⟨(refused, call) :: done, later, rfl, hmoment⟩
        · exact .inr ⟨(refused, call) :: done, later, other, next, rfl, hmoment⟩

/-- Amid a move the blocks are those from before and the new one. -/
theorem WellFormed.live_overlap?_iff (h : arena.WellFormed) {call : Call} {between : Arena}
    (hoverlap : arena.overlap? refused call = some between) :
    (∃ block, (region, block) ∈ between.blocks) ↔
      (∃ block, (region, block) ∈ arena.blocks) ∨
        (arena.attempt refused call).1.issued? = some region := by
  obtain ⟨old, newSize, rfl, -⟩ := exists_allocate_of_overlap? hoverlap
  rcases h.resize_some_cases refused old newSize with ⟨hnone, -⟩ |
    ⟨block, moved, placed, written, after, hmem, -, hplaced, hresize, move⟩
  · rw [hnone] at hoverlap
    cases hoverlap
  · rw [hplaced] at hoverlap
    cases hoverlap
    have hissued : (arena.attempt refused (.resize (some old) newSize)).1.issued? = some moved := by
      simp [attempt, hresize, Event.issued?, move.ne hmem]
    rw [hissued, Option.some_inj, or_comm]
    simp [move.allocated.perm.mem_iff, exists_or, eq_comm]

theorem Within.told (h : arena.Within limit) (hlive : LiveInUse arena [])
    (attempts : List (Bool × Call)) :
    ∀ moment ∈ arena.moments attempts, Told arena attempts moment := by
  intro moment hmoment
  rcases exists_of_mem_moments hmoment with ⟨done, later, hsplit, rfl⟩ |
    ⟨done, later, refused, call, hsplit, hamid⟩
  · exact .after done later hsplit rfl (hlive.attemptAll h.sound done)
  · apply Told.amid done later refused call hsplit hamid
    intro region
    have hdone := (hlive.attemptAll h.sound done) region
    rw [(h.attemptAll done).sound.wellFormed.live_overlap?_iff hamid, hdone, List.nil_append]

/-- In a run of any calls, to any of which the system may refuse memory, the number of slots is at
every moment the largest number of blocks live at once so far, moments amid a move included. The
blocks live at a moment are those of the regions handed out and not taken back by then, each once.
Every region handed out names a slot below the largest number of live blocks. While fewer than 2^32
blocks are live, a block is had unless its size is 0, it does not fit the limit, or the system
refuses it: there is a slot number for it. -/
theorem slots_of_attemptAll (id : Nat) (limit : Option Nat) (attempts : List (Bool × Call)) :
    let start : Arena := { id := id, limit := limit }
    let passed := start.moments attempts
    (∀ before moment later, passed = before ++ moment :: later →
        peak? (before ++ [moment]) = some moment.slots.size) ∧
      (∀ moment ∈ passed, moment.liveBlocks = moment.blocks.length ∧
        (moment.blocks.map Prod.fst).Nodup ∧ Told start attempts moment) ∧
      (∃ most, peak? passed = some most ∧
        ∀ region ∈ issued (start.attemptAll attempts).1, region.index < most) ∧
      ∀ moment ∈ passed, moment.blocks.length < 2 ^ 32 → ∀ refused size,
        (∃ region after, moment.allocate refused size = (.ok region, after)) ↔
          0 < size ∧ ¬ moment.Denies limit refused size := by
  intro start passed
  have hstart : start.Within limit := within_empty id limit
  have hpeak : ∀ before moment later, passed = before ++ moment :: later →
      peak? (before ++ [moment]) = some moment.slots.size := by
    intro before moment later hsplit
    obtain ⟨rest, hrest⟩ := exists_moments_eq_cons start attempts
    have hchain := hstart.isChain_moments attempts
    rw [hrest] at hchain
    have hfirst : peak? ([] ++ [start]) = some start.slots.size := rfl
    exact peak?_of_isChain hchain hfirst (hrest.symm.trans hsplit)
  refine ⟨hpeak, ?_, ?_, ?_⟩
  · intro moment hmoment
    have hwell := (hstart.moments attempts moment hmoment).sound.wellFormed
    exact ⟨hwell.liveBlocks_eq, moment.nodup_regions,
      hstart.told (liveInUse_empty id limit) attempts moment hmoment⟩
  · obtain ⟨before, hbefore⟩ := exists_moments_eq_concat start attempts
    refine ⟨_, ?_, hstart.index_lt attempts⟩
    have hlast := hpeak before _ [] hbefore
    rwa [← hbefore] at hlast
  · intro moment hmoment hlive refused size
    exact (hstart.moments attempts moment hmoment).exists_allocate_iff hlive

/-- A block is released and another one placed in its slot; only the move of this one needs a second
slot, and the first one is free for the block that follows. -/
example : ((({ id := 0 } : Arena).moments [(false, .allocate 4), (false, .release (some ⟨0, 0, 0⟩)),
      (false, .allocate 8), (true, .allocate 8), (false, .resize (some ⟨0, 0, 1⟩) 9),
      (false, .allocate 2)]).map
    fun moment => (moment.blocks.length, moment.slots.size)) =
    [(0, 0), (1, 1), (0, 1), (1, 1), (1, 1), (2, 2), (1, 2), (2, 2)] := rfl

end Arena

end RemoteMemory
