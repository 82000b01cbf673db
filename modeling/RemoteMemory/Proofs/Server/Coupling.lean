import RemoteMemory.Proofs.Arena.WellFormed
import RemoteMemory.Proofs.Registry
import RemoteMemory.Proofs.Server.Run

/-!
# Handles and blocks go together

The registry of handles and the arena are changed one after the other, and what the second change
answers is not looked at. The invariant that makes this sound is one matching: the regions and
sizes that the handles stand for are those of the live blocks. Each request is described by its
cases under this invariant, and from them it follows that no operation behind a successful lookup
or allocation can fail.
-/

namespace RemoteMemory.Server.State

/-- The invariant of a server with some limits. -/
structure Coupled (config : Config) (state : State) : Prop where
  arena : state.arena.WellFormed
  handles : state.handles.WellNumbered
  maxHandles_eq : state.handles.limit = config.maxHandles
  memoryLimit_eq : state.arena.limit = config.memoryLimit
  matching : (state.handles.entries.map fun pair => (pair.2.region, pair.2.size)).Perm
    (state.arena.blocks.map fun pair => (pair.1, pair.2.capacity))
  whole : ∀ pair ∈ state.arena.blocks,
    pair.2.requested = pair.2.capacity ∧ pair.2.capacity < UInt32.size
  current_eq : state.arena.stats.current = state.arena.outstanding

variable {config : Config} {state : State}

theorem coupled_ofConfig (config : Config) : Coupled config (ofConfig config) where
  arena := Arena.wellFormed_empty 0 config.memoryLimit
  handles := Registry.wellNumbered_empty config.maxHandles
  maxHandles_eq := rfl
  memoryLimit_eq := rfl
  matching := List.Perm.refl _
  whole := by simp [ofConfig, Arena.blocks, Slot.listing]
  current_eq := rfl

theorem Coupled.length_blocks (h : Coupled config state) :
    state.arena.blocks.length = state.handles.size := by
  have hlength := h.matching.length_eq
  rw [List.length_map, List.length_map] at hlength
  exact hlength.symm

theorem Coupled.outstanding_eq (h : Coupled config state) :
    state.arena.outstanding = (state.handles.entries.map fun pair => pair.2.size).sum := by
  have hsum := (h.matching.map Prod.snd).sum_eq
  rw [List.map_map, List.map_map] at hsum
  exact h.arena.outstanding_eq.trans hsum.symm

/-- A handle stands for a live block of the size that was noted for it. -/
theorem Coupled.exists_block (h : Coupled config state) {handle : UInt64} {mapping : Mapping}
    (hget : state.handles.get? handle = some mapping) :
    ∃ block, (mapping.region, block) ∈ state.arena.blocks ∧ block.requested = mapping.size ∧
      block.capacity = mapping.size ∧ mapping.size < UInt32.size := by
  have hentry : (mapping.region, mapping.size) ∈
      state.handles.entries.map fun pair => (pair.2.region, pair.2.size) :=
    List.mem_map.mpr ⟨_, Registry.mem_of_get? hget, rfl⟩
  obtain ⟨pair, hpair, heq⟩ := List.mem_map.mp (h.matching.mem_iff.mp hentry)
  obtain ⟨hregion, hsize⟩ := Prod.mk.inj heq
  obtain ⟨hwhole, hsmall⟩ := h.whole pair hpair
  refine ⟨pair.2, ?_, hwhole.trans hsize, hsize, hsize ▸ hsmall⟩
  rw [← hregion]
  exact hpair

theorem Coupled.nodup_regions (h : Coupled config state) :
    (state.handles.entries.map fun pair => pair.2.region).Nodup := by
  have hperm := h.matching.map Prod.fst
  rw [List.map_map, List.map_map] at hperm
  exact hperm.nodup_iff.mpr state.arena.nodup_regions

/-! ## The cases of each request -/

/-- A refused allocation changes nothing, or its block was placed and taken back. -/
theorem Coupled.alloc_cases (h : Coupled config state) (size : Nat) :
    (¬ state.arena.Grants false size ∧ state.alloc size = (.error 0, state)) ∨
    (state.arena.Grants false size ∧ state.handles.isFull = true ∧ ∃ region placed after,
      state.alloc size = (.error 0, ⟨after, state.handles⟩) ∧ after.WellFormed ∧
        Arena.Allocated state.arena size region placed ∧
        Arena.Released placed region (.zeroed size) after) ∨
    (state.arena.Grants false size ∧ state.handles.isFull = false ∧ ∃ region after,
      state.alloc size = (.ok state.handles.next, ⟨after, state.handles.add ⟨region, size⟩⟩) ∧
        after.WellFormed ∧ Arena.Allocated state.arena size region after) := by
  rcases h.arena.allocate_cases false size with ⟨hrefused, error, hallocate⟩ |
    ⟨hgrants, region, placed, hallocate, hplaced, allocated⟩
  · refine .inl ⟨hrefused, ?_⟩
    simp only [alloc, hallocate]
  · cases hfull : state.handles.isFull with
    | true =>
        have hmem : (region, Block.zeroed size) ∈ placed.blocks :=
          allocated.perm.mem_iff.mpr List.mem_cons_self
        obtain ⟨after, hrelease, hafter, released⟩ := hplaced.release hmem
        refine .inr (.inl ⟨hgrants, rfl, region, placed, after, ?_, hafter, allocated, released⟩)
        simp only [alloc, hallocate, Registry.store_of_isFull hfull, hrelease]
    | false =>
        refine .inr (.inr ⟨hgrants, rfl, region, placed, ?_, hplaced, allocated⟩)
        simp only [alloc, hallocate, Registry.store_of_not_isFull hfull]

theorem free_of_get?_eq_none {handle : UInt64} (hget : state.handles.get? handle = none) :
    state.free handle = (.error handle, state) := by
  simp only [free, hget]

theorem Coupled.free_of_get? (h : Coupled config state) {handle : UInt64} {mapping : Mapping}
    (hget : state.handles.get? handle = some mapping) :
    ∃ block after, state.free handle = (.ok handle, ⟨after, state.handles.erase handle⟩) ∧
      after.WellFormed ∧ block.capacity = mapping.size ∧
      Arena.Released state.arena mapping.region block after := by
  obtain ⟨block, hmem, -, hcapacity, -⟩ := h.exists_block hget
  obtain ⟨after, hrelease, hafter, released⟩ := h.arena.release hmem
  refine ⟨block, after, ?_, hafter, hcapacity, released⟩
  simp only [free, hget, hrelease]

theorem write_of_get?_eq_none {handle : UInt64} (hget : state.handles.get? handle = none)
    (data : ByteArray) : state.write handle data = (.error handle, state) := by
  simp only [write, hget]

theorem write_of_lt {handle : UInt64} {mapping : Mapping} {data : ByteArray}
    (hget : state.handles.get? handle = some mapping) (hlong : mapping.size < data.size) :
    state.write handle data = (.error handle, state) := by
  simp only [write, hget, if_pos hlong]

theorem Coupled.write_of_le (h : Coupled config state) {handle : UInt64} {mapping : Mapping}
    {data : ByteArray} (hget : state.handles.get? handle = some mapping)
    (hfits : data.size ≤ mapping.size) :
    ∃ block after, state.write handle data = (.ok handle, { state with arena := after }) ∧
      after.WellFormed ∧ (mapping.region, block) ∈ state.arena.blocks ∧
      Arena.Replaced state.arena mapping.region block (block.overwrite data) after := by
  obtain ⟨block, hmem, hrequested, -, -⟩ := h.exists_block hget
  obtain ⟨after, hwrite, hafter, replaced⟩ := h.arena.write hmem (hrequested ▸ hfits)
  refine ⟨block, after, ?_, hafter, hmem, replaced⟩
  simp only [write, hget, if_neg (Nat.not_lt.mpr hfits), hwrite]

theorem read_of_get?_eq_none {handle : UInt64} (hget : state.handles.get? handle = none)
    (count : Nat) : state.read handle count = .error handle := by
  simp only [read, hget]

theorem Coupled.readInto_of_get? (h : Coupled config state) {handle : UInt64} {mapping : Mapping}
    (hget : state.handles.get? handle = some mapping) (count : Nat) :
    ∃ block, (mapping.region, block) ∈ state.arena.blocks ∧ block.requested = mapping.size ∧
      state.arena.readInto mapping.region (Bytes.zeros (min count mapping.size))
        = (.ok (), block.bytes.extract 0 (min count mapping.size)) ∧
      Message.withPayload .ok handle (block.bytes.extract 0 (min count mapping.size))
        = .ok ⟨.ofCommand .ok handle (UInt32.ofNat (min count mapping.size)),
            block.bytes.extract 0 (min count mapping.size)⟩ := by
  obtain ⟨block, hmem, hrequested, hcapacity, hsmall⟩ := h.exists_block hget
  have hle : min count mapping.size ≤ mapping.size := Nat.min_le_right _ _
  have hbytes : (block.bytes.extract 0 (min count mapping.size)).size = min count mapping.size := by
    rw [ByteArray.size_extract, (h.arena.wellSized _ hmem).size_bytes, hcapacity, Nat.sub_zero,
      Nat.min_eq_left hle]
  refine ⟨block, hmem, hrequested, ?_, ?_⟩
  · rw [Arena.readInto_of_mem hmem (by rwa [Bytes.size_zeros, hrequested]), Bytes.size_zeros]
  · rw [Message.withPayload, hbytes, if_pos (Nat.lt_of_le_of_lt hle hsmall)]

theorem Coupled.read_of_get? (h : Coupled config state) {handle : UInt64} {mapping : Mapping}
    (hget : state.handles.get? handle = some mapping) (count : Nat) :
    ∃ block, (mapping.region, block) ∈ state.arena.blocks ∧ block.requested = mapping.size ∧
      state.read handle count
        = ⟨.ofCommand .ok handle (UInt32.ofNat (min count mapping.size)),
            block.bytes.extract 0 (min count mapping.size)⟩ := by
  obtain ⟨block, hmem, hrequested, hread, hpayload⟩ := h.readInto_of_get? hget count
  refine ⟨block, hmem, hrequested, ?_⟩
  simp only [read, hget, hread, hpayload]

/-! ## Every event keeps the invariant -/

/-- Taking the same region out on both sides keeps the matching. -/
theorem Coupled.matching_erase (h : Coupled config state) {handle : UInt64} {mapping : Mapping}
    (hget : state.handles.get? handle = some mapping) {block : Block} {after : Arena}
    (hcapacity : block.capacity = mapping.size)
    (released : Arena.Released state.arena mapping.region block after) :
    ((state.handles.erase handle).entries.map fun pair => (pair.2.region, pair.2.size)).Perm
      (after.blocks.map fun pair => (pair.1, pair.2.capacity)) := by
  have hentries := (h.handles.perm_cons_erase hget).map fun pair => (pair.2.region, pair.2.size)
  have hblocks := released.perm.map fun pair => (pair.1, pair.2.capacity)
  have hboth := hentries.symm.trans (h.matching.trans hblocks)
  rw [List.map_cons, List.map_cons, hcapacity] at hboth
  exact hboth.cons_inv

theorem Coupled.alloc (h : Coupled config state) {size : Nat} (hsize : size < UInt32.size) :
    Coupled config (state.alloc size).2 := by
  rcases h.alloc_cases size with ⟨-, halloc⟩ |
    ⟨-, -, region, placed, after, halloc, hafter, allocated, released⟩ |
    ⟨-, hfull, region, after, halloc, hafter, allocated⟩
  · rw [halloc]
    exact h
  · have hperm := allocated.perm_of_released released
    rw [halloc]
    refine ⟨hafter, h.handles, h.maxHandles_eq, ?_, h.matching.trans (hperm.map _), ?_, ?_⟩
    · exact released.limit_eq.trans (allocated.limit_eq.trans h.memoryLimit_eq)
    · intro pair hpair
      exact h.whole pair (hperm.mem_iff.mpr hpair)
    · have hcurrent := h.current_eq
      have hplaced := allocated.outstanding_eq
      have hreleased := released.outstanding_eq
      simp only [released.stats_eq, allocated.stats_eq, Stats.recordRelease,
        Stats.recordAllocation, Block.zeroed] at hreleased ⊢
      omega
  · rw [halloc]
    refine ⟨hafter, h.handles.add hfull _, h.maxHandles_eq,
      allocated.limit_eq.trans h.memoryLimit_eq, ?_, ?_, ?_⟩
    · have hplaced := allocated.perm.map fun pair => (pair.1, pair.2.capacity)
      exact (h.matching.cons (region, size)).trans hplaced.symm
    · intro pair hpair
      rcases List.mem_cons.mp (allocated.perm.mem_iff.mp hpair) with rfl | hold
      · exact ⟨rfl, hsize⟩
      · exact h.whole pair hold
    · change after.stats.current = after.outstanding
      rw [allocated.stats_eq, allocated.outstanding_eq, ← h.current_eq]
      rfl

theorem Coupled.free (h : Coupled config state) (handle : UInt64) :
    Coupled config (state.free handle).2 := by
  cases hget : state.handles.get? handle with
  | none =>
      rw [free_of_get?_eq_none hget]
      exact h
  | some mapping =>
      obtain ⟨block, after, hfree, hafter, hcapacity, released⟩ := h.free_of_get? hget
      rw [hfree]
      refine ⟨hafter, h.handles.erase handle, h.maxHandles_eq,
        released.limit_eq.trans h.memoryLimit_eq, h.matching_erase hget hcapacity released, ?_, ?_⟩
      · intro pair hpair
        exact h.whole pair (released.perm.mem_iff.mpr (List.mem_cons_of_mem _ hpair))
      · have hcurrent := h.current_eq
        have hreleased := released.outstanding_eq
        simp only [released.stats_eq, Stats.recordRelease]
        omega

theorem Coupled.write (h : Coupled config state) (handle : UInt64) (data : ByteArray) :
    Coupled config (state.write handle data).2 := by
  cases hget : state.handles.get? handle with
  | none =>
      rw [write_of_get?_eq_none hget]
      exact h
  | some mapping =>
      by_cases hfits : data.size ≤ mapping.size
      · obtain ⟨block, after, hwrite, hafter, hmem, replaced⟩ := h.write_of_le hget hfits
        obtain ⟨others, hbefore, hchanged⟩ := replaced.perm
        rw [hwrite]
        refine ⟨hafter, h.handles, h.maxHandles_eq, replaced.limit_eq.trans h.memoryLimit_eq,
          ?_, ?_, ?_⟩
        · have hold := hbefore.map fun pair => (pair.1, pair.2.capacity)
          have hnew := hchanged.map fun pair => (pair.1, pair.2.capacity)
          exact h.matching.trans (hold.trans hnew.symm)
        · intro pair hpair
          rcases List.mem_cons.mp (hchanged.mem_iff.mp hpair) with rfl | hold
          · exact h.whole (mapping.region, block) hmem
          · exact h.whole pair (hbefore.mem_iff.mpr (List.mem_cons_of_mem _ hold))
        · change after.stats.current = after.outstanding
          rw [replaced.stats_eq, replaced.outstanding_eq]
          exact h.current_eq
      · rw [write_of_lt hget (Nat.not_le.mp hfits)]
        exact h

theorem Coupled.dispatch (h : Coupled config state) (request : Message) :
    Coupled config (state.dispatch request).2 := by
  unfold State.dispatch
  split
  · exact h
  · exact h.alloc request.header.byteCount.toNat_lt
  · exact h.free _
  · exact h.write _ _
  · exact h
  · exact h

/-- Reclaiming a mapped block is freeing its handle. -/
theorem reclaim_eq_free {handle : UInt64} {mapping : Mapping}
    (hget : state.handles.get? handle = some mapping) :
    state.reclaim handle mapping = (state.free handle).2 := by
  simp only [reclaim, State.free, hget]

theorem handles_reclaimInOrder (state : State) (order : List (UInt64 × Mapping)) :
    (state.reclaimInOrder order).handles
      = (order.map Prod.fst).foldl Registry.erase state.handles := by
  induction order generalizing state with
  | nil => rfl
  | cons pair rest ih => exact ih (state.reclaim pair.1 pair.2)

/-- Reclaiming the first of some mapped blocks leaves the others mapped. -/
theorem Coupled.reclaim_first (h : Coupled config state) {pair : UInt64 × Mapping}
    {rest : List (UInt64 × Mapping)} (hnodup : ((pair :: rest).map Prod.fst).Nodup)
    (hmem : ∀ other ∈ pair :: rest, other ∈ state.handles.entries) :
    state.reclaim pair.1 pair.2 = (state.free pair.1).2 ∧
      Coupled config (state.reclaim pair.1 pair.2) ∧ (rest.map Prod.fst).Nodup ∧
      ∀ other ∈ rest, other ∈ (state.reclaim pair.1 pair.2).handles.entries := by
  have hget : state.handles.get? pair.1 = some pair.2 :=
    h.handles.get?_eq_some_iff.mpr (hmem pair List.mem_cons_self)
  obtain ⟨hfresh, hrest⟩ := List.nodup_cons.mp hnodup
  have hfree := reclaim_eq_free hget
  refine ⟨hfree, hfree ▸ h.free pair.1, hrest, fun other hother => ?_⟩
  -- The handles still to come are other numbers, so they are still mapped.
  have hne : other.1 ≠ pair.1 := fun heq => hfresh (heq ▸ List.mem_map_of_mem hother)
  exact List.mem_filter.mpr ⟨hmem other (List.mem_cons_of_mem _ hother), by simpa using hne⟩

theorem Coupled.reclaimInOrder (h : Coupled config state) {order : List (UInt64 × Mapping)}
    (hnodup : (order.map Prod.fst).Nodup) (hmem : ∀ pair ∈ order, pair ∈ state.handles.entries) :
    Coupled config (state.reclaimInOrder order) := by
  induction order generalizing state with
  | nil => exact h
  | cons pair rest ih =>
      obtain ⟨-, hreclaim, hrest, hmapped⟩ := h.reclaim_first hnodup hmem
      exact ih hreclaim hrest hmapped

theorem Coupled.nodup_of_perm (h : Coupled config state) {order : List (UInt64 × Mapping)}
    (horder : order.Perm state.handles.entries) : (order.map Prod.fst).Nodup :=
  (horder.map Prod.fst).nodup_iff.mpr h.handles.nodup

theorem Coupled.step (h : Coupled config state) {event : Event} {answer : Answer} {next : State}
    (step : Step state event answer next) : Coupled config next := by
  cases step with
  | request message => exact h.dispatch message
  | reclaimAll horder =>
      exact h.reclaimInOrder (h.nodup_of_perm horder) fun pair hpair => horder.mem_iff.mp hpair

theorem Reachable.coupled (h : Reachable config state) : Coupled config state := by
  obtain ⟨events, answers, run⟩ := h
  exact run.invariant (fun holds step => holds.step step) (coupled_ofConfig config)

/-! ## What the invariant says -/

/-- Handles and live blocks correspond, and the books agree with them. -/
structure Correspondence (config : Config) (state : State) : Prop where
  region_injective : ∀ handle mapping other mapping',
    state.handles.get? handle = some mapping → state.handles.get? other = some mapping' →
      mapping.region = mapping'.region → handle = other
  live : ∀ handle mapping, state.handles.get? handle = some mapping →
    state.arena.tag? mapping.region = some .live ∧ ∃ block,
      state.arena.block? mapping.region = some block ∧ block.requested = mapping.size ∧
        block.capacity = mapping.size ∧ 1 ≤ mapping.size
  mapped : ∀ index slot, state.arena.slots[index]? = some slot → slot.tag = .live →
    ∃! handle, ∃ mapping, state.handles.get? handle = some mapping ∧
      mapping.region = ⟨state.arena.id, index, slot.generation⟩
  liveBlocks_eq : state.arena.liveBlocks = state.handles.size
  current_eq : state.stats.current = (state.handles.entries.map fun pair => pair.2.size).sum
  size_le : state.handles.size ≤ config.maxHandles
  bounds : ∀ handle mapping, state.handles.get? handle = some mapping →
    0 < handle ∧ handle < state.handles.next

/-- No arena operation that a request makes behind a successful lookup or allocation fails. -/
structure Unfailing (state : State) : Prop where
  release_mapped : ∀ handle mapping, state.handles.get? handle = some mapping →
    (state.arena.release mapping.region).1 = .ok ()
  release_allocated : ∀ refused size region after,
    state.arena.allocate refused size = (.ok region, after) → (after.release region).1 = .ok ()
  release_reclaimed : ∀ done handle mapping rest,
    (done ++ (handle, mapping) :: rest).Perm state.handles.entries →
      ((state.reclaimInOrder done).arena.release mapping.region).1 = .ok ()
  write_mapped : ∀ handle mapping data, state.handles.get? handle = some mapping →
    data.size ≤ mapping.size → (state.arena.write mapping.region data).1 = .ok ()
  read_mapped : ∀ handle mapping count, state.handles.get? handle = some mapping →
    ∃ data response,
      state.arena.readInto mapping.region (Bytes.zeros (min count mapping.size)) = (.ok (), data) ∧
        Message.withPayload .ok handle data = .ok response

theorem Coupled.region_injective (h : Coupled config state) {handle other : UInt64}
    {mapping mapping' : Mapping} (hget : state.handles.get? handle = some mapping)
    (hother : state.handles.get? other = some mapping') (heq : mapping.region = mapping'.region) :
    handle = other :=
  congrArg Prod.fst (List.inj_on_of_nodup_map h.nodup_regions (Registry.mem_of_get? hget)
    (Registry.mem_of_get? hother) heq)

theorem Coupled.exists_handle (h : Coupled config state) {region : Region} {block : Block}
    (hmem : (region, block) ∈ state.arena.blocks) :
    ∃ handle mapping, state.handles.get? handle = some mapping ∧ mapping.region = region := by
  have hblock : (region, block.capacity) ∈
      state.arena.blocks.map fun pair => (pair.1, pair.2.capacity) :=
    List.mem_map.mpr ⟨_, hmem, rfl⟩
  obtain ⟨pair, hpair, heq⟩ := List.mem_map.mp (h.matching.mem_iff.mpr hblock)
  exact ⟨pair.1, pair.2, h.handles.get?_eq_some_iff.mpr hpair, congrArg Prod.fst heq⟩

theorem Coupled.correspondence (h : Coupled config state) : Correspondence config state where
  region_injective := fun _ _ _ _ hget hother heq => h.region_injective hget hother heq
  live := by
    intro handle mapping hget
    obtain ⟨block, hmem, hrequested, hcapacity, -⟩ := h.exists_block hget
    have hpos := (h.arena.wellSized _ hmem).requested_pos
    exact ⟨Arena.tag?_of_mem_blocks hmem, block, Arena.block?_of_mem_blocks hmem, hrequested,
      hcapacity, hrequested ▸ hpos⟩
  mapped := by
    intro index slot hslot htag
    obtain ⟨block, hblock⟩ : ∃ block, slot.block? = some block := by
      rw [← Option.isSome_iff_exists]
      by_contra hnone
      simp [Slot.tag, hnone] at htag
    have hmem : (⟨state.arena.id, index, slot.generation⟩, block) ∈ state.arena.blocks :=
      Arena.mem_blocks_iff.mpr ⟨rfl, slot, hslot, rfl, hblock⟩
    obtain ⟨handle, mapping, hget, hregion⟩ := h.exists_handle hmem
    refine ⟨handle, ⟨mapping, hget, hregion⟩, ?_⟩
    rintro other ⟨mapping', hother, hregion'⟩
    exact h.region_injective hother hget (hregion'.trans hregion.symm)
  liveBlocks_eq := h.arena.liveBlocks_eq.trans h.length_blocks
  current_eq := h.current_eq.trans h.outstanding_eq
  size_le := h.maxHandles_eq ▸ h.handles.size_le
  bounds := fun _ _ hget => h.handles.bounds _ (Registry.mem_of_get? hget)

theorem Coupled.release_of_get? (h : Coupled config state) {handle : UInt64} {mapping : Mapping}
    (hget : state.handles.get? handle = some mapping) :
    (state.arena.release mapping.region).1 = .ok () := by
  obtain ⟨block, hmem, -⟩ := h.exists_block hget
  obtain ⟨after, hrelease, -⟩ := h.arena.release hmem
  rw [hrelease]

theorem Coupled.release_reclaimed (h : Coupled config state) {done rest : List (UInt64 × Mapping)}
    {handle : UInt64} {mapping : Mapping}
    (horder : (done ++ (handle, mapping) :: rest).Perm state.handles.entries) :
    ((state.reclaimInOrder done).arena.release mapping.region).1 = .ok () := by
  have hnodup := h.nodup_of_perm horder
  rw [List.map_append, List.map_cons, List.nodup_append] at hnodup
  obtain ⟨hdone, -, hdisjoint⟩ := hnodup
  have hmem : ∀ pair ∈ done ++ (handle, mapping) :: rest, pair ∈ state.handles.entries :=
    fun pair hpair => horder.mem_iff.mp hpair
  have hbefore : Coupled config (state.reclaimInOrder done) :=
    h.reclaimInOrder hdone fun pair hpair => hmem pair (List.mem_append_left _ hpair)
  have hentry : (handle, mapping) ∈ (state.reclaimInOrder done).handles.entries := by
    rw [handles_reclaimInOrder, Registry.entries_foldl_erase, List.mem_filter]
    refine ⟨hmem _ (List.mem_append_right _ List.mem_cons_self), ?_⟩
    have hfresh : handle ∉ done.map Prod.fst := fun hin =>
      hdisjoint handle hin handle List.mem_cons_self rfl
    simpa using hfresh
  exact hbefore.release_of_get? (hbefore.handles.get?_eq_some_iff.mpr hentry)

theorem Coupled.unfailing (h : Coupled config state) : Unfailing state where
  release_mapped := fun _ _ hget => h.release_of_get? hget
  release_allocated := by
    intro refused size region after hallocate
    rcases h.arena.allocate_cases refused size with ⟨-, error, hrefused⟩ |
      ⟨-, issued, placed, hplaced, hwell, allocated⟩
    · rw [hrefused] at hallocate
      cases hallocate
    · rw [hplaced] at hallocate
      cases hallocate
      obtain ⟨final, hrelease, -⟩ := hwell.release
        (allocated.perm.mem_iff.mpr List.mem_cons_self)
      rw [hrelease]
  release_reclaimed := fun _ _ _ _ horder => h.release_reclaimed horder
  write_mapped := by
    intro handle mapping data hget hfits
    obtain ⟨block, hmem, hrequested, -⟩ := h.exists_block hget
    obtain ⟨after, hwrite, -⟩ := h.arena.write hmem (hrequested ▸ hfits)
    rw [hwrite]
  read_mapped := by
    intro handle mapping count hget
    obtain ⟨block, -, -, hread, hpayload⟩ := h.readInto_of_get? hget count
    exact ⟨_, _, hread, hpayload⟩

/-- In every state that a server can come to, under any requests and reclaimed in any order, the
handles and the live blocks correspond and no arena operation fails unseen. -/
theorem correspondence_of_reachable (h : Reachable config state) :
    Correspondence config state ∧ Unfailing state :=
  ⟨h.coupled.correspondence, h.coupled.unfailing⟩

/-- Two blocks, of which the first is freed and its slot used again, and an allocation that a full
registry refuses after the block was made. -/
theorem correspondence_after_reuse :
    let requests := [Message.request .alloc 0 4, .request .alloc 0 3, .request .free 1 0,
      .request .alloc 0 2, .request .alloc 0 5]
    let state := ((ofConfig { maxHandles := 2 }).perform (requests.map .request)).2
    Reachable { maxHandles := 2 } state ∧ state.handles.entries.map Prod.fst = [3, 2] ∧
      state.arena.slots.size = 3 ∧ Correspondence { maxHandles := 2 } state ∧ Unfailing state := by
  refine ⟨reachable_perform _ _, by decide, by decide, ?_⟩
  exact correspondence_of_reachable (reachable_perform _ _)

end RemoteMemory.Server.State
