import RemoteMemory.Proofs.Arena.History

/-!
# The counters of an arena, cleared at any time

Clearing the counters leaves the blocks that are live, so afterwards blocks are released that were
never counted as allocated. What holds all the same are inequalities between the counters and the
bytes reserved, and that the peak is the largest number of bytes counted since. As long as the
counters are only ever cleared while no block is live, the books balance exactly. Each call moves
the counters by one step, or by two when it moves a block, and every law is shown for one step.
-/

namespace RemoteMemory

namespace Arena

variable {arena after : Arena} {refused : Bool} {region : Region} {block : Block}
  {usage : List Nat}

def reserved (arena : Arena) : Nat :=
  (arena.blocks.map fun pair => pair.2.capacity).sum

/-! ## What a call passes through -/

/-- The arena amid a move, in which the old block and the new one are both live. A call moves a
block if it gives another region for it. -/
def overlap? (arena : Arena) (refused : Bool) : Call → Option Arena
  | .resize (some region) newSize =>
    match (arena.resize refused (some region) newSize).1 with
    | .ok (some moved) =>
      if moved = region then none else some (arena.allocate refused newSize).2
    | _ => none
  | _ => none

/-- The arenas that a call passes through, the last one being the one that it leaves. -/
def passage (arena : Arena) (refused : Bool) (call : Call) : List Arena :=
  (arena.overlap? refused call).toList ++ [(arena.attempt refused call).2]

def usageAfter (arena : Arena) (usage : List Nat) (refused : Bool) : Call → List Nat
  | .resetStats => [0]
  | call => usage ++ (arena.passage refused call).map fun passed => passed.stats.current

/-- The numbers of current bytes that there have been since the start or the last reset. -/
def usageAll (arena : Arena) (usage : List Nat) : List (Bool × Call) → List Nat
  | [] => usage
  | (refused, call) :: rest =>
    (arena.attempt refused call).2.usageAll (arena.usageAfter usage refused call) rest

inductive Counted (arena after : Arena) : Prop where
  | kept (stats_eq : after.stats = arena.stats) (reserved_eq : after.reserved = arena.reserved)
      (length_eq : after.blocks.length = arena.blocks.length)
  | placed (size : Nat) (stats_eq : after.stats = arena.stats.recordAllocation size)
      (reserved_eq : after.reserved = arena.reserved + size)
      (length_eq : after.blocks.length = arena.blocks.length + 1)
  | vacated (size : Nat) (stats_eq : after.stats = arena.stats.recordRelease size)
      (reserved_eq : arena.reserved = after.reserved + size)
      (length_eq : arena.blocks.length = after.blocks.length + 1)

theorem Allocated.reserved_eq {size : Nat} (h : Allocated arena size region after) :
    after.reserved = arena.reserved + size := by
  rw [reserved, (h.perm.map _).sum_eq, Nat.add_comm]
  rfl

theorem Allocated.counted {size : Nat} (h : Allocated arena size region after) :
    Counted arena after :=
  .placed size h.stats_eq h.reserved_eq h.perm.length_eq

theorem Released.reserved_eq (h : Released arena region block after) :
    arena.reserved = after.reserved + block.capacity := by
  rw [reserved, (h.perm.map _).sum_eq, Nat.add_comm]
  rfl

theorem Replaced.reserved_eq {changed : Block} (h : Replaced arena region block changed after)
    (hcapacity : changed.capacity = block.capacity) : after.reserved = arena.reserved := by
  obtain ⟨others, hbefore, hafter⟩ := h.perm
  simp only [reserved, (hbefore.map _).sum_eq, (hafter.map _).sum_eq, List.map_cons, hcapacity]

theorem Replaced.length_eq {changed : Block} (h : Replaced arena region block changed after) :
    after.blocks.length = arena.blocks.length := by
  obtain ⟨others, hbefore, hafter⟩ := h.perm
  rw [hbefore.length_eq, hafter.length_eq]
  rfl

theorem counted_refl (arena : Arena) : Counted arena arena :=
  .kept rfl rfl rfl

theorem Released.counted (h : Released arena region block after) : Counted arena after :=
  .vacated block.capacity h.stats_eq h.reserved_eq h.perm.length_eq

theorem Replaced.counted {changed : Block} (h : Replaced arena region block changed after)
    (hcapacity : changed.capacity = block.capacity) : Counted arena after :=
  .kept h.stats_eq (h.reserved_eq hcapacity) h.length_eq

/-- The second step of a move: writing to the new block counts for nothing. -/
theorem Moved.counted {newSize : Nat} {moved : Region} {placed written : Arena}
    (h : Moved arena region block newSize moved placed written after) : Counted placed after := by
  apply Counted.vacated block.capacity
  · rw [h.released.stats_eq, h.replaced.stats_eq]
  · rw [← h.released.reserved_eq, h.replaced.reserved_eq rfl]
  · rw [← h.replaced.length_eq]
    exact h.released.perm.length_eq

theorem WellFormed.counted_allocate (h : arena.WellFormed) (refused : Bool) (size : Nat) :
    Counted arena (arena.allocate refused size).2 := by
  rcases h.allocate_cases refused size with ⟨-, error, hallocate⟩ |
    ⟨-, region, after, hallocate, -, allocated⟩
  · rw [hallocate]
    exact counted_refl arena
  · rw [hallocate]
    exact allocated.counted

theorem WellFormed.counted_release (h : arena.WellFormed) (region? : Option Region) :
    Counted arena (arena.release region?).2 := by
  rcases h.release_cases region? with ⟨result, hrelease⟩ |
    ⟨region, block, after, hrelease, -, released⟩
  · rw [hrelease]
    exact counted_refl arena
  · rw [hrelease]
    exact released.counted

theorem WellFormed.counted_write (h : arena.WellFormed) (region : Region) (data : ByteArray) :
    Counted arena (arena.write region data).2 := by
  rcases h.write_cases region data with ⟨result, hwrite⟩ | ⟨block, after, hwrite, -, replaced⟩
  · rw [hwrite]
    exact counted_refl arena
  · rw [hwrite]
    exact replaced.counted rfl

theorem overlap?_of_resize {newSize : Nat} {result : Except Error (Option Region)}
    (hresize : arena.resize refused (some region) newSize = (result, after))
    (hsame : ∀ moved, result = .ok (some moved) → moved = region) :
    arena.overlap? refused (.resize (some region) newSize) = none := by
  simp only [overlap?, hresize]
  cases result with
  | error error => rfl
  | ok moved? =>
      cases moved? with
      | none => rfl
      | some moved => simp [hsame moved rfl]

theorem overlap?_of_ne {newSize : Nat} {moved : Region}
    (hresize : (arena.resize refused (some region) newSize).1 = .ok (some moved))
    (hne : moved ≠ region) :
    arena.overlap? refused (.resize (some region) newSize) =
      some (arena.allocate refused newSize).2 := by
  simp [overlap?, hresize, hne]

/-- Amid a move the arena is as an allocation leaves it. -/
theorem exists_allocate_of_overlap? {call : Call} {between : Arena}
    (h : arena.overlap? refused call = some between) :
    ∃ region newSize, call = .resize (some region) newSize ∧
      between = (arena.allocate refused newSize).2 := by
  unfold overlap? at h
  split at h
  case h_1 region newSize =>
    refine ⟨region, newSize, rfl, ?_⟩
    split at h
    · split at h
      · cases h
      · exact (Option.some.inj h).symm
    · cases h
  case h_2 => cases h

/-- A resize leaves the block where it is, or is refused, and takes one step at most; or it moves
the block, and the arena after the first step of the move is the one that it passes through. -/
theorem WellFormed.resize_some_cases (h : arena.WellFormed) (refused : Bool) (region : Region)
    (newSize : Nat) :
    (arena.overlap? refused (.resize (some region) newSize) = none ∧
        Counted arena (arena.resize refused (some region) newSize).2) ∨
      ∃ block moved placed written after, (region, block) ∈ arena.blocks ∧ placed.WellFormed ∧
        arena.overlap? refused (.resize (some region) newSize) = some placed ∧
        arena.resize refused (some region) newSize = (.ok (some moved), after) ∧
        Moved arena region block newSize moved placed written after := by
  have hresizing := resizing_resize arena refused (some region) newSize
  generalize hresize : arena.resize refused (some region) newSize = result at hresizing ⊢
  cases hresizing with
  | empty =>
      left
      constructor
      · apply overlap?_of_resize hresize
        intro moved hmoved
        cases hrelease : (arena.release (some region)).1 <;> simp [hrelease, Except.map] at hmoved
      · exact h.counted_release (some region)
  | notLive => exact .inl ⟨overlap?_of_resize hresize (by simp), counted_refl arena⟩
  | within hblock hpos hle =>
      have ⟨_, replaced⟩ := h.resizeWithin (block?_eq_some_iff.mp hblock) hpos hle
      exact .inl ⟨overlap?_of_resize hresize (by simp), replaced.counted rfl⟩
  | @beyond _ block _ hblock hlt =>
      have hmem := block?_eq_some_iff.mp hblock
      rcases h.move_cases refused hmem hlt with ⟨-, hmove⟩ |
        ⟨-, moved, placed, written, after, hallocate, -, -, hmove, -, move⟩
      · rw [hmove] at hresize ⊢
        exact .inl ⟨overlap?_of_resize hresize (by simp), counted_refl arena⟩
      · right
        rw [hmove] at hresize ⊢
        have hplaced : placed.WellFormed := by simpa [hallocate] using h.allocate refused newSize
        have hoverlap : arena.overlap? refused (.resize (some region) newSize) = some placed := by
          rw [overlap?_of_ne (by rw [hresize]) (move.ne hmem), hallocate]
        exact ⟨block, moved, placed, written, after, hmem, hplaced, hoverlap, rfl, move⟩

/-- A call that takes one step, or two because it moves a block. -/
inductive Steps (arena : Arena) (refused : Bool) (call : Call) : Prop where
  | one (passage_eq : arena.passage refused call = [(arena.attempt refused call).2])
      (counted : Counted arena (arena.attempt refused call).2)
  | two (between : Arena)
      (passage_eq : arena.passage refused call = [between, (arena.attempt refused call).2])
      (wellFormed : between.WellFormed) (first : Counted arena between)
      (second : Counted between (arena.attempt refused call).2)

/-- Unless it clears the counters, a call takes them one step or two. -/
theorem WellFormed.steps (h : arena.WellFormed) (refused : Bool) {call : Call}
    (hcall : call ≠ .resetStats) : Steps arena refused call := by
  cases call with
  | allocate size => exact .one rfl (h.counted_allocate refused size)
  | release region? => exact .one rfl (h.counted_release region?)
  | resize region? newSize =>
      cases region? with
      | none =>
          apply Steps.one rfl
          simpa [attempt, resize_none] using h.counted_allocate refused newSize
      | some region =>
          rcases h.resize_some_cases refused region newSize with ⟨hoverlap, hcounted⟩ |
            ⟨block, moved, placed, written, after, -, hplaced, hoverlap, hresize, move⟩
          · exact .one (by rw [passage, hoverlap]; rfl) hcounted
          · apply Steps.two placed _ hplaced move.allocated.counted
            · simpa [attempt, hresize] using move.counted
            · rw [passage, hoverlap]
              rfl
  | write region data => exact .one rfl (h.counted_write region data)
  | read region buffer => exact .one rfl (counted_refl arena)
  | view region => exact .one rfl (counted_refl arena)
  | resetStats => exact absurd rfl hcall

theorem WellFormed.both_live (h : arena.WellFormed) {newSize : Nat} {between : Arena}
    (hoverlap : arena.overlap? refused (.resize (some region) newSize) = some between) :
    ∃ block moved, between.block? region = some block ∧ moved ≠ region ∧
      between.block? moved = some (.zeroed newSize) := by
  rcases h.resize_some_cases refused region newSize with ⟨hnone, -⟩ |
    ⟨block, moved, placed, written, after, hmem, -, hplaced, -, move⟩
  · rw [hnone] at hoverlap
    cases hoverlap
  · rw [hplaced] at hoverlap
    cases hoverlap
    have hold := move.allocated.block?_eq (move.ne hmem).symm
    rw [block?_of_mem_blocks hmem] at hold
    exact ⟨block, moved, hold, move.ne hmem, move.allocated.block?_self⟩

/-! ## Laws that hold whenever the counters are cleared -/

structure Lawful (arena : Arena) : Prop where
  current_le_peak : arena.stats.current ≤ arena.stats.peak
  peak_le_allocated : arena.stats.peak ≤ arena.stats.allocated
  current_le_reserved : arena.stats.current ≤ arena.reserved
  balance_le : (arena.stats.allocated : Int) - arena.stats.freed ≤ arena.stats.current

theorem lawful_of_stats_eq (h : arena.stats = {}) : arena.Lawful := by
  constructor <;> simp [h]

theorem Lawful.counted (h : arena.Lawful) (step : Counted arena after) : after.Lawful := by
  obtain ⟨hpeak, hallocated, hreserved, hbalance⟩ := h
  cases step with
  | kept hstats hkept hlength =>
      constructor
      all_goals
        rw [hstats]
        omega
  | placed size hstats hplaced hlength =>
      constructor
      all_goals
        simp only [hstats, Stats.recordAllocation]
        omega
  | vacated size hstats hvacated hlength =>
      constructor
      all_goals
        simp only [hstats, Stats.recordRelease]
        omega

/-- The peak is the largest of the numbers of current bytes that there have been. -/
structure Peaked (arena : Arena) (usage : List Nat) : Prop where
  max?_eq : usage.max? = some arena.stats.peak
  current_mem : arena.stats.current ∈ usage

theorem peaked_of_stats_eq (h : arena.stats = {}) : arena.Peaked [0] := by
  constructor <;> simp [h]

theorem max?_concat {peak : Nat} (h : usage.max? = some peak) (level : Nat) :
    (usage ++ [level]).max? = some (max peak level) := by
  rw [List.max?_eq_some_iff] at h ⊢
  obtain ⟨hmem, hle⟩ := h
  constructor
  · rcases Nat.le_total peak level with hlevel | hlevel
    · simp [Nat.max_eq_right hlevel]
    · simp [Nat.max_eq_left hlevel, hmem]
  · intro other hother
    rcases List.mem_append.mp hother with hother | hother
    · have := hle other hother
      omega
    · have := List.mem_singleton.mp hother
      omega

theorem Peaked.counted (h : arena.Peaked usage) (hlawful : arena.Lawful)
    (step : Counted arena after) : after.Peaked (usage ++ [after.stats.current]) := by
  have hpeak := hlawful.current_le_peak
  have hmax : after.stats.peak = max arena.stats.peak after.stats.current := by
    cases step with
    | kept hstats _ _ =>
        rw [hstats]
        omega
    | placed size hstats _ _ => simp only [hstats, Stats.recordAllocation]
    | vacated size hstats _ _ =>
        simp only [hstats, Stats.recordRelease]
        omega
  constructor
  · rw [hmax]
    exact max?_concat h.max?_eq _
  · simp

theorem usageAfter_of_ne {call : Call} (hcall : call ≠ .resetStats) :
    arena.usageAfter usage refused call =
      usage ++ (arena.passage refused call).map fun passed => passed.stats.current := by
  cases call with
  | resetStats => exact absurd rfl hcall
  | _ => rfl

structure Tallied (arena : Arena) (usage : List Nat) : Prop where
  sound : arena.Sound
  lawful : arena.Lawful
  peaked : arena.Peaked usage

theorem tallied_empty (id : Nat) (limit : Option Nat) :
    ({ id := id, limit := limit } : Arena).Tallied [0] where
  sound := sound_empty id limit
  lawful := lawful_of_stats_eq rfl
  peaked := peaked_of_stats_eq rfl

theorem Tallied.attempt (h : arena.Tallied usage) (refused : Bool) (call : Call) :
    (arena.attempt refused call).2.Tallied (arena.usageAfter usage refused call) := by
  have hsound := h.sound.attempt refused call
  by_cases hreset : call = .resetStats
  · subst hreset
    exact ⟨hsound, lawful_of_stats_eq rfl, peaked_of_stats_eq rfl⟩
  · rw [usageAfter_of_ne hreset]
    cases h.sound.wellFormed.steps refused hreset with
    | one hpassage hcounted =>
        rw [hpassage]
        exact ⟨hsound, h.lawful.counted hcounted, h.peaked.counted h.lawful hcounted⟩
    | two between hpassage _ hfirst hsecond =>
        have hlawful := h.lawful.counted hfirst
        have hpeaked := (h.peaked.counted h.lawful hfirst).counted hlawful hsecond
        rw [List.append_assoc] at hpeaked
        rw [hpassage]
        exact ⟨hsound, hlawful.counted hsecond, hpeaked⟩

theorem Tallied.attemptAll (h : arena.Tallied usage) (attempts : List (Bool × Call)) :
    (arena.attemptAll attempts).2.Tallied (arena.usageAll usage attempts) := by
  induction attempts generalizing arena usage with
  | nil => exact h
  | cons entry rest ih => exact ih (h.attempt entry.1 entry.2)

/-! ## The books balance while nothing is forgotten -/

/-- What was allocated and not yet released is what is live, in bytes and in blocks. -/
structure Balanced (arena : Arena) : Prop where
  current_eq : (arena.stats.current : Int) = arena.stats.allocated - arena.stats.freed
  current_eq_reserved : arena.stats.current = arena.reserved
  blocks_eq : (arena.stats.allocations : Int) - arena.stats.releases = arena.liveBlocks

theorem balanced_of_stats_eq (h : arena.WellFormed) (hstats : arena.stats = {})
    (hlive : arena.liveBlocks = 0) : arena.Balanced := by
  have hreserved : arena.reserved = 0 := by
    rw [h.liveBlocks_eq] at hlive
    simp [reserved, List.length_eq_zero_iff.mp hlive]
  constructor <;> simp [hstats, hreserved, hlive]

theorem Balanced.counted (h : arena.Balanced) (hbefore : arena.WellFormed)
    (hafter : after.WellFormed) (step : Counted arena after) : after.Balanced := by
  obtain ⟨hcurrent, hreserved, hblocks⟩ := h
  have hlive := hbefore.liveBlocks_eq
  have hliveAfter := hafter.liveBlocks_eq
  cases step with
  | kept hstats hkept hlength =>
      constructor
      all_goals
        rw [hstats]
        omega
  | placed size hstats hplaced hlength =>
      constructor
      all_goals
        simp only [hstats, Stats.recordAllocation]
        omega
  | vacated size hstats hvacated hlength =>
      constructor
      all_goals
        simp only [hstats, Stats.recordRelease]
        omega

theorem Balanced.attempt (h : arena.Balanced) (hsound : arena.Sound) (refused : Bool) {call : Call}
    (hidle : call = .resetStats → arena.liveBlocks = 0) :
    (arena.attempt refused call).2.Balanced := by
  have hafter := (hsound.attempt refused call).wellFormed
  by_cases hreset : call = .resetStats
  · subst hreset
    exact balanced_of_stats_eq hafter rfl (hidle rfl)
  · cases hsound.wellFormed.steps refused hreset with
    | one _ hcounted => exact h.counted hsound.wellFormed hafter hcounted
    | two between _ hbetween hfirst hsecond =>
        exact (h.counted hsound.wellFormed hbetween hfirst).counted hbetween hafter hsecond

/-- Whenever the counters are cleared in a run, no block is live. -/
def ClearedIdle (arena : Arena) (attempts : List (Bool × Call)) : Prop :=
  ∀ before refused later, attempts = before ++ (refused, .resetStats) :: later →
    (arena.attemptAll before).2.liveBlocks = 0

theorem Balanced.attemptAll (h : arena.Balanced) (hsound : arena.Sound)
    {attempts : List (Bool × Call)} (hidle : arena.ClearedIdle attempts) :
    (arena.attemptAll attempts).2.Balanced := by
  induction attempts generalizing arena with
  | nil => exact h
  | cons entry rest ih =>
      obtain ⟨refused, call⟩ := entry
      have hfirst : call = .resetStats → arena.liveBlocks = 0 := by
        rintro rfl
        exact hidle [] refused rest rfl
      apply ih (h.attempt hsound refused hfirst) (hsound.attempt refused call)
      intro before other later hrest
      exact hidle ((refused, call) :: before) other later (congrArg (List.cons _) hrest)

/-! ## The counters and the history -/

/-- The counters go up by the blocks that a call hands out and takes back. -/
structure Reckons (arena : Arena) (event : Event) (after : Arena) : Prop where
  allocations_eq :
    after.stats.allocations = arena.stats.allocations + event.issued?.toList.length
  releases_eq : after.stats.releases = arena.stats.releases + event.vacated?.toList.length

theorem reckons_of_stats_eq {event : Event} (hstats : after.stats = arena.stats)
    (hissued : event.issued? = none) (hvacated : event.vacated? = none) :
    Reckons arena event after := by
  constructor <;> simp [hstats, hissued, hvacated]

theorem WellFormed.reckons_allocate (h : arena.WellFormed) (refused : Bool) (size : Nat)
    {event : Event} (hissued : event.issued? = (arena.allocate refused size).1.toOption)
    (hvacated : event.vacated? = none) : Reckons arena event (arena.allocate refused size).2 := by
  rcases h.allocate_cases refused size with ⟨-, error, hallocate⟩ |
    ⟨-, region, after, hallocate, -, allocated⟩
  · rw [hallocate] at hissued ⊢
    exact reckons_of_stats_eq rfl hissued hvacated
  · rw [hallocate] at hissued ⊢
    constructor <;>
      simp [allocated.stats_eq, Stats.recordAllocation, hissued, hvacated, Except.toOption]

theorem WellFormed.reckons_release (h : arena.WellFormed) (region : Region) {event : Event}
    (hissued : event.issued? = none)
    (hvacated : event.vacated? = (arena.release (some region)).1.toOption.map fun _ => region) :
    Reckons arena event (arena.release (some region)).2 := by
  by_cases hlive : arena.tag? region = some .live
  · obtain ⟨block, hmem⟩ := tag?_eq_live_iff.mp hlive
    obtain ⟨after, hrelease, -, released⟩ := h.release hmem
    rw [hrelease] at hvacated ⊢
    constructor <;>
      simp [released.stats_eq, Stats.recordRelease, hissued, hvacated, Except.toOption]
  · rw [release_of_not_live hlive] at hvacated ⊢
    exact reckons_of_stats_eq rfl hissued hvacated

theorem WellFormed.reckons_resize (h : arena.WellFormed) (refused : Bool)
    (region? : Option Region) (newSize : Nat) :
    Reckons arena (.resize region? newSize (arena.resize refused region? newSize).1)
      (arena.resize refused region? newSize).2 := by
  have hresizing := resizing_resize arena refused region? newSize
  generalize arena.resize refused region? newSize = resized at hresizing ⊢
  cases hresizing with
  | fresh =>
      exact h.reckons_allocate refused newSize (issued?_resize_none newSize _)
        (vacated?_resize_none newSize _)
  | empty region =>
      exact h.reckons_release region (issued?_resize_zero 0 _) (vacated?_resize_zero 0 _)
  | notLive => exact reckons_of_stats_eq rfl rfl rfl
  | within => exact reckons_of_stats_eq rfl (by simp [Event.issued?]) (by simp [Event.vacated?])
  | @beyond _ block _ hblock hlt =>
      have hmem := block?_eq_some_iff.mp hblock
      rcases h.move_cases refused hmem hlt with ⟨-, hmove⟩ |
        ⟨-, moved, placed, written, after, -, -, -, hmove, -, move⟩
      · rw [hmove]
        exact reckons_of_stats_eq rfl rfl rfl
      · have hstats : after.stats =
            (arena.stats.recordAllocation newSize).recordRelease block.capacity := by
          rw [move.released.stats_eq, move.replaced.stats_eq, move.allocated.stats_eq]
        rw [hmove]
        constructor <;> simp [hstats, Stats.recordAllocation, Stats.recordRelease, Event.issued?,
          Event.vacated?, move.ne hmem]

theorem WellFormed.reckons_attempt (h : arena.WellFormed) (refused : Bool) {call : Call}
    (hcall : call ≠ .resetStats) :
    Reckons arena (arena.attempt refused call).1 (arena.attempt refused call).2 := by
  cases call with
  | allocate size => exact h.reckons_allocate refused size (issued?_allocate size _) rfl
  | release region? =>
      cases region? with
      | none => exact reckons_of_stats_eq rfl rfl rfl
      | some region => exact h.reckons_release region rfl (vacated?_release _)
  | resize region? newSize => exact h.reckons_resize refused region? newSize
  | write region data =>
      have hstats : (arena.write region data).2.stats = arena.stats := by
        rcases h.write_cases region data with ⟨result, hwrite⟩ | ⟨block, after, hwrite, -, replaced⟩
        · rw [hwrite]
        · rw [hwrite]
          exact replaced.stats_eq
      exact reckons_of_stats_eq hstats rfl rfl
  | read region buffer => exact reckons_of_stats_eq rfl rfl rfl
  | view region => exact reckons_of_stats_eq rfl rfl rfl
  | resetStats => exact absurd rfl hcall

/-- The counters count the blocks handed out and taken back since they were last cleared. -/
structure Counts (arena : Arena) (history : List Event) : Prop where
  allocations_eq : arena.stats.allocations = (issued (sinceReset history)).length
  releases_eq : arena.stats.releases = (vacated (sinceReset history)).length

variable {history : List Event}

theorem Counts.attempt (h : arena.Counts history) (hwell : arena.WellFormed) (refused : Bool)
    (call : Call) :
    (arena.attempt refused call).2.Counts (history ++ [(arena.attempt refused call).1]) := by
  by_cases hreset : call = .resetStats
  · subst hreset
    have hsince : sinceReset (history ++ [Event.resetStats]) = [] := sinceReset_concat history _
    constructor
    · change 0 = (issued (sinceReset (history ++ [Event.resetStats]))).length
      rw [hsince]
      rfl
    · change 0 = (vacated (sinceReset (history ++ [Event.resetStats]))).length
      rw [hsince]
      rfl
  · have hevent : (arena.attempt refused call).1.isReset = false := by
      cases call with
      | resetStats => exact absurd rfl hreset
      | _ => rfl
    have hreckons := hwell.reckons_attempt refused hreset
    have hsince := sinceReset_concat history (arena.attempt refused call).1
    rw [if_neg (by simp [hevent])] at hsince
    constructor
    · rw [hsince, issued_concat, List.length_append, ← h.allocations_eq]
      exact hreckons.allocations_eq
    · rw [hsince, vacated_concat, List.length_append, ← h.releases_eq]
      exact hreckons.releases_eq

theorem Counts.attemptAll (h : arena.Counts history) (hsound : arena.Sound)
    (attempts : List (Bool × Call)) :
    (arena.attemptAll attempts).2.Counts (history ++ (arena.attemptAll attempts).1) :=
  hsound.history_induction Counts (fun h hsound => h.attempt hsound.wellFormed) h attempts

/-- After any calls, to any of which the system may refuse memory, and with the counters cleared at
any time among them: the current bytes are at most the peak and the bytes reserved, the peak is at
most what was allocated, and the current bytes are at least what was allocated and not released. The
peak is the largest number of current bytes there has been since the start or the last reset, also
amid a move, when the old block and the new one are both live. A resize within the capacity moves no
counter, and a release moves them by the capacity of the block. If the counters were only cleared
while no block was live, the current bytes are what was allocated and not released and the bytes
reserved, and the blocks allocated and not released are those that are live. By the history, the
live blocks are those handed out and not taken back since, and the numbers of allocations and of
releases are those of the blocks handed out and taken back since the last reset. -/
theorem counters_after_attemptAll (id : Nat) (limit : Option Nat) (attempts : List (Bool × Call)) :
    let start : Arena := { id := id, limit := limit }
    let (log, last) := start.attemptAll attempts
    last.Lawful ∧ (start.usageAll [0] attempts).max? = some last.stats.peak ∧
      (start.ClearedIdle attempts → last.Balanced) ∧
      (∀ refused region newSize between,
        last.overlap? refused (.resize (some region) newSize) = some between →
        ∃ block moved, between.block? region = some block ∧ moved ≠ region ∧
          between.block? moved = some (.zeroed newSize)) ∧
      (∀ refused region block newSize, last.block? region = some block → 0 < newSize →
        newSize ≤ block.capacity →
        (last.resize refused (some region) newSize).2.stats = last.stats) ∧
      (∀ region block, last.block? region = some block →
        ∃ after, last.release (some region) = (.ok (), after) ∧
          after.stats = last.stats.recordRelease block.capacity) ∧
      last.LiveInUse log ∧ last.Counts log := by
  intro start
  have hstart : start.Sound := sound_empty id limit
  have hsound := hstart.attemptAll attempts
  have htallied := (tallied_empty id limit).attemptAll attempts
  have hbalanced : start.Balanced := balanced_of_stats_eq (wellFormed_empty id limit) rfl rfl
  have hcounts : start.Counts [] := ⟨rfl, rfl⟩
  refine ⟨htallied.lawful, htallied.peaked.max?_eq, ?_, ?_, ?_, ?_,
    (liveInUse_empty id limit).attemptAll hstart attempts, hcounts.attemptAll hstart attempts⟩
  · intro hidle
    exact hbalanced.attemptAll hstart hidle
  · intro refused region newSize between hoverlap
    exact hsound.wellFormed.both_live hoverlap
  · intro refused region block newSize hblock hpos hle
    rw [resize_of_le hblock hpos hle]
    rfl
  · intro region block hblock
    obtain ⟨after, hrelease, -, released⟩ :=
      hsound.wellFormed.release (block?_eq_some_iff.mp hblock)
    exact ⟨after, hrelease, released.stats_eq⟩

/-- The counters are cleared while 4 bytes are live, and then the block moves to one of 6 bytes. -/
example : ({ id := 0 } : Arena).usageAll [0] [(false, .allocate 4), (false, .resetStats),
    (true, .resize (some ⟨0, 0, 0⟩) 6), (false, .resize (some ⟨0, 0, 0⟩) 6)] = [0, 0, 6, 2] := rfl

end Arena

end RemoteMemory
