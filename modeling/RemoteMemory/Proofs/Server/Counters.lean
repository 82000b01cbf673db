import RemoteMemory.Proofs.Server.FlatMap

/-!
# The counters of a server follow its flat map

What is counted depends on the blocks that the flat map shows and on what was counted before, and
on nothing that lies beneath: not on slots, generations, or the order in which slots are vacated.
So the flat map with the counters beside it tells all that can be seen of a server, event by event.
-/

namespace RemoteMemory

namespace Stats

def recordReleases (stats : Stats) (count bytes : Nat) : Stats :=
  { stats with
    freed := stats.freed + bytes
    current := stats.current - bytes
    releases := stats.releases + count }

theorem recordReleases_zero (stats : Stats) : stats.recordReleases 0 0 = stats := rfl

theorem recordReleases_recordRelease (stats : Stats) (bytes count more : Nat) :
    (stats.recordRelease bytes).recordReleases count more =
      stats.recordReleases (count + 1) (bytes + more) := by
  simp only [recordReleases, recordRelease, Nat.sub_sub, Nat.add_assoc, Nat.add_comm 1 count]

end Stats

namespace Server

structure Ledger where
  flat : FlatMap
  stats : Stats

/-- What can be seen of an event: its answer, and after it the counters and the number of handles
in use. -/
structure Observation where
  answer : Answer
  stats : Stats
  handles : Nat

namespace Ledger

/-- A block for which no handle can be had is counted as allocated and released. -/
def statsOfAlloc (config : Config) (ledger : Ledger) (size : Nat) : Stats :=
  if ledger.flat.Grants config size then ledger.stats.recordAllocation size
  else if 1 ≤ size ∧ ∀ limit ∈ config.memoryLimit, ledger.flat.blocks.total + size ≤ limit then
    (ledger.stats.recordAllocation size).recordRelease size
  else ledger.stats

def statsOfFree (ledger : Ledger) (handle : UInt64) : Stats :=
  match ledger.flat.blocks.lookup handle with
  | some bytes => ledger.stats.recordRelease bytes.size
  | none => ledger.stats

def statsOfRequest (config : Config) (ledger : Ledger) (request : Message) : Stats :=
  match request.header.command? with
  | some .alloc => ledger.statsOfAlloc config request.header.byteCount.toNat
  | some .free => ledger.statsOfFree request.header.handle
  | _ => ledger.stats

def statsAfter (config : Config) (ledger : Ledger) : Event → Stats
  | .request message => ledger.statsOfRequest config message
  | .reclaimAll => ledger.stats.recordReleases ledger.flat.blocks.count ledger.flat.blocks.total

def observe (config : Config) (ledger : Ledger) (event : Event) : Observation × Ledger :=
  let (answer, flat) := ledger.flat.answer config event
  let stats := ledger.statsAfter config event
  (⟨answer, stats, flat.blocks.count⟩, ⟨flat, stats⟩)

def observeAll (config : Config) (ledger : Ledger) : List Event → List Observation
  | [] => []
  | event :: rest =>
    let (observation, ledger) := ledger.observe config event
    observation :: ledger.observeAll config rest

end Ledger

namespace State

variable {config : Config} {state : State} {flat : FlatMap}

/-! ## What each event counts -/

theorem Shows.stats_alloc (h : Shows config state flat) (hmax : config.maxHandles < 2 ^ 32)
    {size : Nat} (hsize : size < UInt32.size) :
    (state.alloc size).2.stats = Ledger.statsOfAlloc config ⟨flat, state.stats⟩ size := by
  have hgrants := h.grants_iff hmax hsize
  have hfits := h.arena_grants_iff hmax hsize
  rcases h.coupled.alloc_cases size with ⟨hrefused, halloc⟩ |
    ⟨hgranted, hfull, region, placed, after, halloc, -, allocated, released⟩ |
    ⟨hgranted, hfull, region, after, halloc, -, allocated⟩
  · rw [halloc, Ledger.statsOfAlloc, if_neg fun hboth => hrefused (hgrants.mp hboth).1,
      if_neg (mt hfits.mpr hrefused)]
  · have hfullGrants : ¬ flat.Grants config size := fun hboth => by
      simp [hfull] at hgrants
      exact hgrants hboth
    rw [halloc, Ledger.statsOfAlloc, if_neg hfullGrants, if_pos (hfits.mp hgranted)]
    change after.stats = _
    rw [released.stats_eq, allocated.stats_eq]
    rfl
  · rw [halloc, Ledger.statsOfAlloc, if_pos (hgrants.mpr ⟨hgranted, hfull⟩)]
    exact allocated.stats_eq

theorem Shows.stats_free (h : Shows config state flat) (handle : UInt64) :
    (state.free handle).2.stats = Ledger.statsOfFree ⟨flat, state.stats⟩ handle := by
  have hlookup := h.lookup_eq handle
  cases hget : state.handles.get? handle with
  | none =>
      rw [hget, Option.map_none] at hlookup
      rw [free_of_get?_eq_none hget, Ledger.statsOfFree, hlookup]
  | some mapping =>
      rw [hget, Option.map_some] at hlookup
      obtain ⟨block, after, hfree, -, hcapacity, released⟩ := h.coupled.free_of_get? hget
      rw [hfree, Ledger.statsOfFree, hlookup]
      dsimp only
      rw [h.coupled.size_bytesOf hget, ← hcapacity]
      exact released.stats_eq

theorem Coupled.stats_write (h : Coupled config state) (handle : UInt64) (data : ByteArray) :
    (state.write handle data).2.stats = state.stats := by
  cases hget : state.handles.get? handle with
  | none => rw [write_of_get?_eq_none hget]
  | some mapping =>
      by_cases hfits : data.size ≤ mapping.size
      · obtain ⟨block, after, hwrite, -, -, replaced⟩ := h.write_of_le hget hfits
        rw [hwrite]
        exact replaced.stats_eq
      · rw [write_of_lt hget (Nat.not_le.mp hfits)]

theorem Shows.stats_dispatch (h : Shows config state flat) (hmax : config.maxHandles < 2 ^ 32)
    (request : Message) :
    (state.dispatch request).2.stats =
      Ledger.statsOfRequest config ⟨flat, state.stats⟩ request := by
  unfold State.dispatch Ledger.statsOfRequest
  cases request.header.command? with
  | none => rfl
  | some command =>
      cases command with
      | alloc => exact h.stats_alloc hmax request.header.byteCount.toNat_lt
      | free => exact h.stats_free _
      | write => exact h.coupled.stats_write _ _
      | _ => rfl

/-- Reclaiming mapped blocks counts each of them as released, in whatever order. -/
theorem Coupled.stats_reclaimInOrder (h : Coupled config state)
    {order : List (UInt64 × Mapping)} (hnodup : (order.map Prod.fst).Nodup)
    (hmem : ∀ pair ∈ order, pair ∈ state.handles.entries) :
    (state.reclaimInOrder order).stats =
      state.stats.recordReleases order.length (order.map fun pair => pair.2.size).sum := by
  induction order generalizing state with
  | nil => exact (Stats.recordReleases_zero _).symm
  | cons pair rest ih =>
      obtain ⟨hfree, hreclaim, hrest, hmapped⟩ := h.reclaim_first hnodup hmem
      have hget : state.handles.get? pair.1 = some pair.2 :=
        h.handles.get?_eq_some_iff.mpr (hmem pair List.mem_cons_self)
      obtain ⟨block, after, heq, -, hcapacity, released⟩ := h.free_of_get? hget
      have hstats : (state.reclaim pair.1 pair.2).stats =
          state.stats.recordRelease pair.2.size := by
        rw [hfree, heq, ← hcapacity]
        exact released.stats_eq
      change ((state.reclaim pair.1 pair.2).reclaimInOrder rest).stats = _
      rw [ih hreclaim hrest hmapped, hstats, Stats.recordReleases_recordRelease]
      rfl

/-- All blocks reclaimed are all blocks shown. -/
theorem Shows.stats_reclaimInOrder (h : Shows config state flat)
    {order : List (UInt64 × Mapping)} (horder : order.Perm state.handles.entries) :
    (state.reclaimInOrder order).stats =
      state.stats.recordReleases flat.blocks.count flat.blocks.total := by
  have hsum : (order.map fun pair => pair.2.size).sum = flat.blocks.total := by
    rw [h.total_eq, h.coupled.outstanding_eq, (horder.map _).sum_eq]
  rw [h.coupled.stats_reclaimInOrder (h.coupled.nodup_of_perm horder)
    fun pair hpair => horder.mem_iff.mp hpair, hsum, (h.reclaimInOrder horder).1]

/-! ## What can be seen of a run -/

inductive Watched : State → List Event → List Observation → State → Prop where
  | nil (state : State) : Watched state [] [] state
  | cons {state middle last : State} {event : Event} {answer : Answer} {events : List Event}
      {observations : List Observation} (step : Step state event answer middle)
      (rest : Watched middle events observations last) :
      Watched state (event :: events)
        (⟨answer, middle.stats, middle.handles.size⟩ :: observations) last

theorem Shows.observe (h : Shows config state flat) (hmax : config.maxHandles < 2 ^ 32)
    {event : Event} {answer : Answer} {next : State} (step : Step state event answer next) :
    ∃ after, Ledger.observe config ⟨flat, state.stats⟩ event =
        (⟨answer, next.stats, next.handles.size⟩, ⟨after, next.stats⟩) ∧
      Shows config next after := by
  obtain ⟨hanswer, hnext⟩ := h.step hmax step
  have hstats : next.stats = Ledger.statsAfter config ⟨flat, state.stats⟩ event := by
    cases step with
    | request message => exact h.stats_dispatch hmax message
    | reclaimAll horder => exact h.stats_reclaimInOrder horder
  refine ⟨_, ?_, hnext⟩
  rw [Ledger.observe, hanswer]
  dsimp only
  rw [← hstats, hnext.follows.count_eq]

theorem Shows.watched (h : Shows config state flat) (hmax : config.maxHandles < 2 ^ 32)
    {events : List Event} {observations : List Observation} {last : State}
    (run : Watched state events observations last) :
    observations = Ledger.observeAll config ⟨flat, state.stats⟩ events := by
  induction run generalizing flat with
  | nil state => rfl
  | cons step rest ih =>
      obtain ⟨after, hobserve, hnext⟩ := h.observe hmax step
      rw [Ledger.observeAll, hobserve]
      dsimp only
      rw [← ih hnext]

theorem exists_watched (state : State) (events : List Event) :
    ∃ observations last, Watched state events observations last := by
  induction events generalizing state with
  | nil => exact ⟨[], state, .nil state⟩
  | cons event rest ih =>
      cases event with
      | request message =>
          obtain ⟨observations, last, hrest⟩ := ih (state.dispatch message).2
          exact ⟨_, last, .cons (.request state message) hrest⟩
      | reclaimAll =>
          obtain ⟨observations, last, hrest⟩ := ih state.releaseAll.2
          exact ⟨_, last, .cons (.reclaimAll (List.Perm.refl _)) hrest⟩

/-- What can be seen of a server is what the flat map and the counters say, and nothing else. -/
theorem Shows.watched_iff (h : Shows config state flat) (hmax : config.maxHandles < 2 ^ 32)
    (events : List Event) (observations : List Observation) :
    (∃ last, Watched state events observations last) ↔
      observations = Ledger.observeAll config ⟨flat, state.stats⟩ events := by
  constructor
  · rintro ⟨last, run⟩
    exact h.watched hmax run
  · rintro rfl
    obtain ⟨observations, last, run⟩ := exists_watched state events
    exact ⟨last, h.watched hmax run ▸ run⟩

/-! ## The books balance -/

/-- Bytes and blocks that were allocated have been released or are still held. -/
structure Balanced (state : State) : Prop where
  bytes_eq : state.stats.allocated = state.stats.freed + state.stats.current
  blocks_eq : state.stats.allocations = state.stats.releases + state.handles.size

theorem balanced_ofConfig (config : Config) : Balanced (ofConfig config) :=
  ⟨rfl, rfl⟩

theorem Balanced.alloc (h : Balanced state) (hcoupled : Coupled config state) (size : Nat) :
    Balanced (state.alloc size).2 := by
  obtain ⟨hbytes, hblocks⟩ := h
  rcases hcoupled.alloc_cases size with ⟨-, halloc⟩ |
    ⟨-, -, region, placed, after, halloc, -, allocated, released⟩ |
    ⟨-, -, region, after, halloc, -, allocated⟩
  · rw [halloc]
    exact ⟨hbytes, hblocks⟩
  · have hstats : after.stats = (state.stats.recordAllocation size).recordRelease size := by
      rw [released.stats_eq, allocated.stats_eq]
      rfl
    rw [halloc]
    constructor
    all_goals
      simp only [State.stats, hstats, Stats.recordAllocation, Stats.recordRelease]
        at hbytes hblocks ⊢
      omega
  · rw [halloc]
    constructor
    all_goals
      simp only [State.stats, allocated.stats_eq, Stats.recordAllocation, Registry.size_add]
        at hbytes hblocks ⊢
      omega

theorem Balanced.free (h : Balanced state) (hcoupled : Coupled config state) (handle : UInt64) :
    Balanced (state.free handle).2 := by
  obtain ⟨hbytes, hblocks⟩ := h
  cases hget : state.handles.get? handle with
  | none =>
      rw [free_of_get?_eq_none hget]
      exact ⟨hbytes, hblocks⟩
  | some mapping =>
      obtain ⟨block, after, hfree, -, -, released⟩ := hcoupled.free_of_get? hget
      have hcurrent := hcoupled.current_eq
      have hheld := released.outstanding_eq
      have hsize : state.handles.size = (state.handles.erase handle).size + 1 :=
        (hcoupled.handles.perm_cons_erase hget).length_eq
      rw [hfree]
      constructor
      all_goals
        simp only [State.stats, released.stats_eq, Stats.recordRelease] at hbytes hblocks ⊢
        omega

theorem Balanced.write (h : Balanced state) (hcoupled : Coupled config state) (handle : UInt64)
    (data : ByteArray) : Balanced (state.write handle data).2 := by
  have hstats := hcoupled.stats_write handle data
  have hhandles : (state.write handle data).2.handles = state.handles := by
    unfold State.write
    repeat' split
    all_goals rfl
  constructor
  · rw [hstats]
    exact h.bytes_eq
  · rw [hstats, hhandles]
    exact h.blocks_eq

theorem Balanced.dispatch (h : Balanced state) (hcoupled : Coupled config state)
    (request : Message) : Balanced (state.dispatch request).2 := by
  unfold State.dispatch
  split
  · exact h
  · exact h.alloc hcoupled _
  · exact h.free hcoupled _
  · exact h.write hcoupled _ _
  · exact h
  · exact h

theorem Balanced.reclaimInOrder (h : Balanced state) (hcoupled : Coupled config state)
    {order : List (UInt64 × Mapping)} (hnodup : (order.map Prod.fst).Nodup)
    (hmem : ∀ pair ∈ order, pair ∈ state.handles.entries) :
    Balanced (state.reclaimInOrder order) := by
  induction order generalizing state with
  | nil => exact h
  | cons pair rest ih =>
      obtain ⟨hfree, hreclaim, hrest, hmapped⟩ := hcoupled.reclaim_first hnodup hmem
      have hbalanced : Balanced (state.reclaim pair.1 pair.2) := by
        rw [hfree]
        exact h.free hcoupled pair.1
      exact ih hbalanced hreclaim hrest hmapped

theorem Balanced.step (h : Balanced state) (hcoupled : Coupled config state) {event : Event}
    {answer : Answer} {next : State} (step : Step state event answer next) : Balanced next := by
  cases step with
  | request message => exact h.dispatch hcoupled message
  | reclaimAll horder =>
      exact h.reclaimInOrder hcoupled (hcoupled.nodup_of_perm horder)
        fun pair hpair => horder.mem_iff.mp hpair

theorem Reachable.balanced (h : Reachable config state) : Balanced state := by
  obtain ⟨events, answers, run⟩ := h
  have hkeep : ∀ {state next : State} {event : Event} {answer : Answer},
      Coupled config state ∧ Balanced state → Step state event answer next →
        Coupled config next ∧ Balanced next :=
    fun holds step => ⟨holds.1.step step, holds.2.step holds.1 step⟩
  exact (run.invariant hkeep ⟨coupled_ofConfig config, balanced_ofConfig config⟩).2

end State

end Server

end RemoteMemory
