import RemoteMemory.Proofs.Server.Coupling

/-!
# What a request changes

A request that is answered with ERROR changes nothing that a client can come to see. Only the
counters tell of one refusal: a block that the arena granted, and for which the registry had no
handle, was allocated and released again. A request that is answered with OK moves the counters by
the size of its own block and in no other way.
-/

namespace RemoteMemory

theorem Stats.recordRelease_recordAllocation (stats : Stats) (bytes : Nat) :
    (stats.recordAllocation bytes).recordRelease bytes =
      { stats with
        allocated := stats.allocated + bytes
        freed := stats.freed + bytes
        peak := max stats.peak (stats.current + bytes)
        allocations := stats.allocations + 1
        releases := stats.releases + 1 } := by
  simp [recordRelease, recordAllocation]

namespace Server.State

variable {config : Config} {state after : State} {request response : Message}

/-! ## How a request can end -/

inductive Outcome (state : State) (request : Message) : Message → State → Prop where
  | pong (hcommand : request.header.command? = some .ping) : Outcome state request .pong state
  | refused (handle : UInt64)
      (hrefused : request.header.command? = some .alloc →
        ¬ state.arena.Grants false request.header.byteCount.toNat) :
      Outcome state request (.error handle) state
  | unstored {region : Region} {placed after : Arena}
      (hcommand : request.header.command? = some .alloc)
      (hgrants : state.arena.Grants false request.header.byteCount.toNat)
      (hfull : state.handles.isFull = true)
      (allocated : Arena.Allocated state.arena request.header.byteCount.toNat region placed)
      (released : Arena.Released placed region (.zeroed request.header.byteCount.toNat) after) :
      Outcome state request (.error 0) ⟨after, state.handles⟩
  | stored {region : Region} {after : Arena} (handle : UInt64)
      (hcommand : request.header.command? = some .alloc)
      (hgrants : state.arena.Grants false request.header.byteCount.toNat)
      (hfull : state.handles.isFull = false)
      (allocated : Arena.Allocated state.arena request.header.byteCount.toNat region after) :
      Outcome state request (.ok handle)
        ⟨after, state.handles.add ⟨region, request.header.byteCount.toNat⟩⟩
  | freed {mapping : Mapping} {block : Block} {after : Arena}
      (hcommand : request.header.command? = some .free)
      (hget : state.handles.get? request.header.handle = some mapping)
      (hcapacity : block.capacity = mapping.size)
      (released : Arena.Released state.arena mapping.region block after) :
      Outcome state request (.ok request.header.handle)
        ⟨after, state.handles.erase request.header.handle⟩
  | written {region : Region} {block changed : Block} {after : Arena}
      (hcommand : request.header.command? = some .write)
      (replaced : Arena.Replaced state.arena region block changed after) :
      Outcome state request (.ok request.header.handle) { state with arena := after }
  | read {response : Message} (hcommand : request.header.command? = some .read)
      (hok : response.header.command? = some .ok) : Outcome state request response state

theorem Coupled.outcome_alloc (h : Coupled config state)
    (hcommand : request.header.command? = some .alloc) :
    Outcome state request (state.alloc request.header.byteCount.toNat).1
      (state.alloc request.header.byteCount.toNat).2 := by
  rcases h.alloc_cases request.header.byteCount.toNat with ⟨hrefused, halloc⟩ |
    ⟨hgrants, hfull, region, placed, after, halloc, -, allocated, released⟩ |
    ⟨hgrants, hfull, region, after, halloc, -, allocated⟩
  · rw [halloc]
    exact .refused 0 fun _ => hrefused
  · rw [halloc]
    exact .unstored hcommand hgrants hfull allocated released
  · rw [halloc]
    exact .stored _ hcommand hgrants hfull allocated

theorem Coupled.outcome_free (h : Coupled config state)
    (hcommand : request.header.command? = some .free) :
    Outcome state request (state.free request.header.handle).1
      (state.free request.header.handle).2 := by
  cases hget : state.handles.get? request.header.handle with
  | none =>
      rw [free_of_get?_eq_none hget]
      exact .refused _ (by simp [hcommand])
  | some mapping =>
      obtain ⟨block, after, hfree, -, hcapacity, released⟩ := h.free_of_get? hget
      rw [hfree]
      exact .freed hcommand hget hcapacity released

theorem Coupled.outcome_write (h : Coupled config state)
    (hcommand : request.header.command? = some .write) :
    Outcome state request (state.write request.header.handle request.payload).1
      (state.write request.header.handle request.payload).2 := by
  have hrefused : request.header.command? = some .alloc →
      ¬ state.arena.Grants false request.header.byteCount.toNat := by
    simp [hcommand]
  cases hget : state.handles.get? request.header.handle with
  | none =>
      rw [write_of_get?_eq_none hget]
      exact .refused _ hrefused
  | some mapping =>
      by_cases hfits : request.payload.size ≤ mapping.size
      · obtain ⟨block, after, hwrite, -, -, replaced⟩ := h.write_of_le hget hfits
        rw [hwrite]
        exact .written hcommand replaced
      · rw [write_of_lt hget (Nat.not_le.mp hfits)]
        exact .refused _ hrefused

theorem Coupled.outcome_read (h : Coupled config state)
    (hcommand : request.header.command? = some .read) :
    Outcome state request
      (state.read request.header.handle request.header.byteCount.toNat) state := by
  cases hget : state.handles.get? request.header.handle with
  | none =>
      rw [read_of_get?_eq_none hget]
      exact .refused _ (by simp [hcommand])
  | some mapping =>
      obtain ⟨block, -, -, hread⟩ := h.read_of_get? hget request.header.byteCount.toNat
      rw [hread]
      exact .read hcommand (Header.command?_ofCommand _ _ _)

theorem Coupled.outcome (h : Coupled config state) (request : Message) :
    Outcome state request (state.dispatch request).1 (state.dispatch request).2 := by
  unfold State.dispatch
  split
  case h_1 hcommand => exact .pong hcommand
  case h_2 hcommand => exact h.outcome_alloc hcommand
  case h_3 hcommand => exact h.outcome_free hcommand
  case h_4 hcommand => exact h.outcome_write hcommand
  case h_5 hcommand => exact h.outcome_read hcommand
  case h_6 _ halloc _ _ _ =>
    exact .refused 0 fun hcommand => absurd hcommand halloc

/-! ## The peak stays within the limit -/

theorem Coupled.fits_of_grants (h : Coupled config state) {size : Nat}
    (hgrants : state.arena.Grants false size) :
    ∀ bound ∈ config.memoryLimit, state.stats.current + size ≤ bound := by
  intro bound hbound
  rw [← h.memoryLimit_eq] at hbound
  have hfits := Arena.exceedsLimit_eq_false_iff.mp hgrants.2.2.1 bound hbound
  rw [← h.current_eq] at hfits
  exact hfits

structure Capped (config : Config) (state : State) : Prop where
  coupled : Coupled config state
  peak_le : ∀ bound ∈ config.memoryLimit, state.stats.peak ≤ bound

theorem capped_ofConfig (config : Config) : Capped config (ofConfig config) where
  coupled := coupled_ofConfig config
  peak_le _ _ := Nat.zero_le _

theorem Capped.placed (h : Capped config state) {size : Nat}
    (hgrants : state.arena.Grants false size) :
    ∀ bound ∈ config.memoryLimit, max state.stats.peak (state.stats.current + size) ≤ bound := by
  intro bound hbound
  have hfits := h.coupled.fits_of_grants hgrants bound hbound
  exact Nat.max_le.mpr ⟨h.peak_le bound hbound, hfits⟩

theorem Capped.outcome (h : Capped config state) (outcome : Outcome state request response after) :
    ∀ bound ∈ config.memoryLimit, after.stats.peak ≤ bound := by
  cases outcome with
  | pong => exact h.peak_le
  | refused => exact h.peak_le
  | unstored hcommand hgrants hfull allocated released =>
      simpa [stats, released.stats_eq, allocated.stats_eq, Stats.recordRelease,
        Stats.recordAllocation] using h.placed hgrants
  | stored handle hcommand hgrants hfull allocated =>
      simpa [stats, allocated.stats_eq, Stats.recordAllocation] using h.placed hgrants
  | freed hcommand hget hcapacity released =>
      simpa [stats, released.stats_eq, Stats.recordRelease] using h.peak_le
  | written hcommand replaced => simpa [stats, replaced.stats_eq] using h.peak_le
  | read => exact h.peak_le

theorem peak_release (arena : Arena) (region? : Option Region) :
    (arena.release region?).2.stats.peak = arena.stats.peak := by
  unfold Arena.release
  repeat' split
  all_goals rfl

theorem peak_reclaimInOrder (state : State) (order : List (UInt64 × Mapping)) :
    (state.reclaimInOrder order).stats.peak = state.stats.peak := by
  induction order generalizing state with
  | nil => rfl
  | cons pair rest ih => exact (ih (state.reclaim pair.1 pair.2)).trans (peak_release _ _)

theorem Capped.step (h : Capped config state) {event : Event} {answer : Answer} {next : State}
    (step : Step state event answer next) : Capped config next := by
  constructor
  · exact h.coupled.step step
  · cases step with
    | request message => exact h.outcome (h.coupled.outcome message)
    | @reclaimAll order _ =>
        rw [peak_reclaimInOrder]
        exact h.peak_le

theorem Reachable.capped (h : Reachable config state) : Capped config state := by
  obtain ⟨events, answers, run⟩ := h
  exact run.invariant (fun holds step => holds.step step) (capped_ofConfig config)

/-! ## The effects of a request -/

/-- What a refused request leaves as it was: the handles with the number to come, every mapped
block with its bytes, the number of live blocks, and the bytes held. -/
structure Untouched (state after : State) : Prop where
  handles_eq : after.handles = state.handles
  block_eq : ∀ handle mapping, state.handles.get? handle = some mapping →
    ∃ block, state.arena.block? mapping.region = some block ∧
      after.arena.block? mapping.region = some block
  liveBlocks_eq : after.arena.liveBlocks = state.arena.liveBlocks
  current_eq : after.stats.current = state.stats.current

theorem Coupled.untouched_refl (h : Coupled config state) : Untouched state state where
  handles_eq := rfl
  block_eq handle mapping hget := by
    obtain ⟨block, hmem, -⟩ := h.exists_block hget
    have hblock := Arena.block?_of_mem_blocks hmem
    exact ⟨block, hblock, hblock⟩
  liveBlocks_eq := rfl
  current_eq := rfl

/-- The same live blocks and as many bytes counted. -/
theorem Coupled.untouched_of_perm (h : Coupled config state) {arena : Arena}
    (hafter : arena.WellFormed) (hperm : state.arena.blocks.Perm arena.blocks)
    (hcurrent : arena.stats.current = state.stats.current) :
    Untouched state ⟨arena, state.handles⟩ where
  handles_eq := rfl
  block_eq handle mapping hget := by
    obtain ⟨block, hmem, -⟩ := h.exists_block hget
    exact ⟨block, Arena.block?_of_mem_blocks hmem,
      Arena.block?_of_mem_blocks (hperm.mem_iff.mp hmem)⟩
  liveBlocks_eq := by
    rw [hafter.liveBlocks_eq, h.arena.liveBlocks_eq, hperm.length_eq]
  current_eq := hcurrent

/-- An ALLOC that the arena grants, at a time when the registry is full or out of numbers. -/
structure Unstored (config : Config) (state : State) (request : Message) : Prop where
  command_eq : request.header.command? = some .alloc
  granted : ∃ region after,
    state.arena.allocate false request.header.byteCount.toNat = (.ok region, after)
  refused : config.maxHandles ≤ state.handles.size ∨ state.handles.next.toNat = 2 ^ 64 - 1

theorem Coupled.unstored_iff (h : Coupled config state) :
    Unstored config state request ↔ request.header.command? = some .alloc ∧
      state.arena.Grants false request.header.byteCount.toNat ∧ state.handles.isFull = true := by
  rw [← h.arena.exists_allocate_iff, Registry.isFull_iff, Registry.eq_lastNumber_iff,
    h.maxHandles_eq]
  constructor
  · intro hunstored
    exact ⟨hunstored.command_eq, hunstored.granted, hunstored.refused⟩
  · intro hcases
    exact ⟨hcases.1, hcases.2.1, hcases.2.2⟩

/-- What a request does, by its answer. -/
structure Effects (config : Config) (state : State) (request response : Message) (after : State) :
    Prop where
  answered : response.header.command? = some .pong ∨ response.header.command? = some .ok ∨
    response.header.command? = some .error
  untouched_of_error : response.header.command? = some .error → Untouched state after
  stats_of_error : response.header.command? = some .error → ¬ Unstored config state request →
    after.stats = state.stats
  stats_of_unstored : Unstored config state request →
    response = .error 0 ∧ after.stats =
      { state.stats with
        allocated := state.stats.allocated + request.header.byteCount.toNat
        freed := state.stats.freed + request.header.byteCount.toNat
        peak := max state.stats.peak (state.stats.current + request.header.byteCount.toNat)
        allocations := state.stats.allocations + 1
        releases := state.stats.releases + 1 }
  peak_le : ∀ bound ∈ config.memoryLimit, after.stats.peak ≤ bound
  stats_of_alloc : response.header.command? = some .ok → request.header.command? = some .alloc →
    after.stats =
      { state.stats with
        allocated := state.stats.allocated + request.header.byteCount.toNat
        current := state.stats.current + request.header.byteCount.toNat
        peak := max state.stats.peak (state.stats.current + request.header.byteCount.toNat)
        allocations := state.stats.allocations + 1 }
  stats_of_free : response.header.command? = some .ok → request.header.command? = some .free →
    ∃ mapping block, state.handles.get? request.header.handle = some mapping ∧
      state.arena.block? mapping.region = some block ∧
      block.requested ≤ state.stats.current ∧ after.stats =
        { state.stats with
          freed := state.stats.freed + block.requested
          current := state.stats.current - block.requested
          releases := state.stats.releases + 1 }
  stats_of_access : response.header.command? = some .ok →
    request.header.command? = some .write ∨ request.header.command? = some .read →
    after.stats = state.stats
  stats_of_pong : response.header.command? = some .pong → after.stats = state.stats

namespace Outcome

theorem answered (outcome : Outcome state request response after) :
    response.header.command? = some .pong ∨ response.header.command? = some .ok ∨
      response.header.command? = some .error := by
  cases outcome with
  | read hcommand hok => exact .inr (.inl hok)
  | _ => simp

/-- A block that was placed and released again is not to be seen. -/
theorem untouched (outcome : Outcome state request response after) (h : Coupled config state)
    (hafter : Coupled config after) (herror : response.header.command? = some .error) :
    Untouched state after := by
  cases outcome with
  | refused => exact h.untouched_refl
  | unstored hcommand hgrants hfull allocated released =>
      apply h.untouched_of_perm hafter.arena (allocated.perm_of_released released)
      rw [released.stats_eq, allocated.stats_eq]
      exact Nat.add_sub_cancel _ _
  | read hcommand hok => simp [hok] at herror
  | _ => simp at herror

theorem stats_of_error (outcome : Outcome state request response after)
    (h : Coupled config state) (herror : response.header.command? = some .error)
    (hstored : ¬ Unstored config state request) : after.stats = state.stats := by
  cases outcome with
  | refused => rfl
  | unstored hcommand hgrants hfull allocated released =>
      exact absurd (h.unstored_iff.mpr ⟨hcommand, hgrants, hfull⟩) hstored
  | read hcommand hok => simp [hok] at herror
  | _ => simp at herror

theorem stats_of_unstored (outcome : Outcome state request response after)
    (h : Coupled config state) (hunstored : Unstored config state request) :
    response = .error 0 ∧ after.stats =
      (state.stats.recordAllocation request.header.byteCount.toNat).recordRelease
        request.header.byteCount.toNat := by
  obtain ⟨halloc, hgranted, hfull⟩ := h.unstored_iff.mp hunstored
  cases outcome with
  | unstored hcommand hgrants hfull allocated released =>
      constructor
      · rfl
      · rw [stats, released.stats_eq, allocated.stats_eq]
        rfl
  | refused handle hrefused => exact absurd hgranted (hrefused halloc)
  | stored handle hcommand hgrants hroom => simp [hfull] at hroom
  | pong hcommand => simp [halloc] at hcommand
  | freed hcommand => simp [halloc] at hcommand
  | written hcommand => simp [halloc] at hcommand
  | read hcommand => simp [halloc] at hcommand

theorem stats_of_alloc (outcome : Outcome state request response after)
    (hok : response.header.command? = some .ok) (halloc : request.header.command? = some .alloc) :
    after.stats = state.stats.recordAllocation request.header.byteCount.toNat := by
  cases outcome with
  | stored handle hcommand hgrants hfull allocated => exact allocated.stats_eq
  | pong => simp at hok
  | refused => simp at hok
  | unstored => simp at hok
  | freed hcommand => simp [halloc] at hcommand
  | written hcommand => simp [halloc] at hcommand
  | read hcommand => simp [halloc] at hcommand

/-- What a block reserves is what was asked for, and it is counted among the bytes held. -/
theorem stats_of_free (outcome : Outcome state request response after) (h : Coupled config state)
    (hok : response.header.command? = some .ok) (hfree : request.header.command? = some .free) :
    ∃ mapping block, state.handles.get? request.header.handle = some mapping ∧
      state.arena.block? mapping.region = some block ∧ block.requested ≤ state.stats.current ∧
      after.stats = state.stats.recordRelease block.requested := by
  cases outcome with
  | @freed mapping block after hcommand hget hcapacity released =>
      have hmem := released.perm.mem_iff.mpr List.mem_cons_self
      have hwhole : block.requested = block.capacity := (h.whole _ hmem).1
      refine ⟨mapping, block, hget, Arena.block?_of_mem_blocks hmem, ?_, ?_⟩
      · have hheld := released.outstanding_eq
        have hcurrent := h.current_eq
        change block.requested ≤ state.arena.stats.current
        omega
      · rw [hwhole]
        exact released.stats_eq
  | pong => simp at hok
  | refused => simp at hok
  | unstored => simp at hok
  | stored handle hcommand => simp [hfree] at hcommand
  | written hcommand => simp [hfree] at hcommand
  | read hcommand => simp [hfree] at hcommand

theorem stats_of_access (outcome : Outcome state request response after)
    (hok : response.header.command? = some .ok)
    (haccess : request.header.command? = some .write ∨ request.header.command? = some .read) :
    after.stats = state.stats := by
  cases outcome with
  | written hcommand replaced => exact replaced.stats_eq
  | read => rfl
  | pong => simp at hok
  | refused => simp at hok
  | unstored => simp at hok
  | stored handle hcommand => simp [hcommand] at haccess
  | freed hcommand => simp [hcommand] at haccess

theorem stats_of_pong (outcome : Outcome state request response after)
    (hpong : response.header.command? = some .pong) : after.stats = state.stats := by
  cases outcome with
  | pong => rfl
  | read hcommand hok => simp [hok] at hpong
  | _ => simp at hpong

end Outcome

/-- Every request to a server that its clients can have brought about, answered with ERROR, leaves
the handles, the mapped blocks with their bytes, the live blocks and the bytes held as they were,
and the counters too, unless the arena granted a block that no handle could be had for: such a block
is counted as allocated and released, and may raise the peak, though not beyond the memory limit. An
ALLOC answered with OK counts its size as allocated and a FREE counts the size of its block as
released; PONG, and OK to WRITE or READ, count nothing. -/
theorem effects_of_reachable (h : Reachable config state) (request : Message) :
    Effects config state request (state.dispatch request).1 (state.dispatch request).2 := by
  have hcapped := h.capped
  have hcoupled := hcapped.coupled
  have outcome := hcoupled.outcome request
  constructor
  · exact outcome.answered
  · exact outcome.untouched hcoupled (hcoupled.dispatch request)
  · exact outcome.stats_of_error hcoupled
  · intro hunstored
    obtain ⟨hresponse, hstats⟩ := outcome.stats_of_unstored hcoupled hunstored
    exact ⟨hresponse, hstats.trans (Stats.recordRelease_recordAllocation _ _)⟩
  · exact hcapped.outcome outcome
  · exact outcome.stats_of_alloc
  · exact outcome.stats_of_free hcoupled
  · exact outcome.stats_of_access
  · exact outcome.stats_of_pong

/-- One handle, which is taken. The second block would fit the memory limit, and raises the peak. -/
theorem effects_of_full_registry :
    let config : Config := { maxHandles := 1, memoryLimit := some 32 }
    let state := ((ofConfig config).perform [.request (.request .alloc 0 8)]).2
    let request := Message.request .alloc 0 16
    Reachable config state ∧ Unstored config state request ∧
      (state.dispatch request).2.stats = ⟨24, 16, 8, 24, 2, 1⟩ ∧
      Effects config state request (state.dispatch request).1 (state.dispatch request).2 := by
  refine ⟨reachable_perform _ _, ⟨by decide, ⟨_, _, rfl⟩, .inl (by decide)⟩, by decide, ?_⟩
  exact effects_of_reachable (reachable_perform _ _) _

end Server.State

end RemoteMemory
