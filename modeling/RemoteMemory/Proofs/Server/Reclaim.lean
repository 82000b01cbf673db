import RemoteMemory.Proofs.Server.Counters
import RemoteMemory.Proofs.Server.Isolation
import RemoteMemory.Server.Basic

/-!
# Reclaiming every block, in any order

The handles of a server have no order, so neither has reclaiming. Every order leaves no handle, no
live block and balanced books, but another list of vacant slots: the next blocks go into other
slots under other generations. None of that is ever seen again, and no handle that was issued
before comes to stand for anything.
-/

namespace RemoteMemory

/-- A live block is known by its slot. -/
theorem Arena.region_eq_of_index_eq {arena : Arena} {region other : Region} {block block' : Block}
    (hmem : (region, block) ∈ arena.blocks) (hother : (other, block') ∈ arena.blocks)
    (hindex : region.index = other.index) : region = other := by
  obtain ⟨howner, slot, hslot, hgeneration, -⟩ := mem_blocks_iff.mp hmem
  obtain ⟨howner', slot', hslot', hgeneration', -⟩ := mem_blocks_iff.mp hother
  rw [hindex, hslot'] at hslot
  cases hslot
  obtain ⟨owner, index, generation⟩ := region
  obtain ⟨owner', index', generation'⟩ := other
  simp_all

namespace Server

namespace State

variable {config : Config} {state next last : State} {event : Event} {events : List Event}
  {answer : Answer} {answers : List Answer} {handle : UInt64}
  {order other : List (UInt64 × Mapping)}

/-! ## What is left -/

/-- No handle and no live block, and every byte and block counted as released. -/
structure Reclaimed (state after : State) : Prop where
  get?_eq_none : ∀ handle, after.handles.get? handle = none
  size_eq_zero : after.handles.size = 0
  liveBlocks_eq_zero : after.arena.liveBlocks = 0
  current_eq_zero : after.stats.current = 0
  freed_eq : after.stats.freed = after.stats.allocated
  releases_eq : after.stats.releases = after.stats.allocations
  peak_eq : after.stats.peak = state.stats.peak
  allocated_eq : after.stats.allocated = state.stats.allocated
  allocations_eq : after.stats.allocations = state.stats.allocations

theorem Reachable.reclaimed (h : Reachable config state)
    (horder : order.Perm state.handles.entries) :
    Reclaimed state (state.reclaimInOrder order) := by
  obtain ⟨flat, hshows⟩ := h.coupled.exists_shows
  obtain ⟨-, hafter⟩ := hshows.reclaimInOrder horder
  have hstats := hshows.stats_reclaimInOrder horder
  have hbalanced : Balanced (state.reclaimInOrder order) :=
    h.balanced.step h.coupled (.reclaimAll horder)
  have hsize : (state.reclaimInOrder order).handles.size = 0 := hafter.follows.count_eq.symm
  have hcurrent : (state.reclaimInOrder order).stats.current = 0 := by
    change (state.reclaimInOrder order).arena.stats.current = 0
    rw [hafter.coupled.current_eq, ← hafter.total_eq]
    rfl
  refine ⟨fun handle => ?_, hsize, ?_, hcurrent, ?_, ?_, ?_, ?_, ?_⟩
  · simpa using hafter.lookup_eq handle
  · exact hafter.coupled.correspondence.liveBlocks_eq.trans hsize
  · rw [hbalanced.bytes_eq, hcurrent, Nat.add_zero]
  · rw [hbalanced.blocks_eq, hsize, Nat.add_zero]
  all_goals rw [hstats, Stats.recordReleases]

/-! ## What differs -/

theorem Coupled.vacant_reclaimInOrder (h : Coupled config state)
    (hnodup : (order.map Prod.fst).Nodup) (hmem : ∀ pair ∈ order, pair ∈ state.handles.entries) :
    (state.reclaimInOrder order).arena.vacant =
      (order.map fun pair => pair.2.region.index).reverse ++ state.arena.vacant := by
  induction order generalizing state with
  | nil => rfl
  | cons pair rest ih =>
      obtain ⟨-, hreclaim, hrest, hmapped⟩ := h.reclaim_first hnodup hmem
      obtain ⟨block, hblock, -⟩ :=
        h.exists_block (h.handles.get?_eq_some_iff.mpr (hmem pair List.mem_cons_self))
      have hvacant : (state.reclaim pair.1 pair.2).arena.vacant =
          pair.2.region.index :: state.arena.vacant := Arena.vacant_release_of_mem hblock
      change ((state.reclaim pair.1 pair.2).reclaimInOrder rest).arena.vacant = _
      rw [ih hreclaim hrest hmapped, hvacant, List.map_cons, List.reverse_cons, List.append_assoc]
      rfl

theorem Coupled.eq_of_index_eq (h : Coupled config state) {pair pair' : UInt64 × Mapping}
    (hmem : pair ∈ state.handles.entries) (hmem' : pair' ∈ state.handles.entries)
    (hindex : pair.2.region.index = pair'.2.region.index) : pair = pair' := by
  obtain ⟨block, hblock, -⟩ := h.exists_block (h.handles.get?_eq_some_iff.mpr hmem)
  obtain ⟨block', hblock', -⟩ := h.exists_block (h.handles.get?_eq_some_iff.mpr hmem')
  exact List.inj_on_of_nodup_map h.nodup_regions hmem hmem'
    (Arena.region_eq_of_index_eq hblock hblock' hindex)

/-- The vacant slots tell in which order the blocks were reclaimed. -/
theorem Coupled.order_eq_of_vacant_eq (h : Coupled config state)
    (horder : order.Perm state.handles.entries) (hother : other.Perm state.handles.entries)
    (hvacant : (state.reclaimInOrder order).arena.vacant =
      (state.reclaimInOrder other).arena.vacant) : order = other := by
  rw [h.vacant_reclaimInOrder (h.nodup_of_perm horder) fun _ => horder.mem_iff.mp,
    h.vacant_reclaimInOrder (h.nodup_of_perm hother) fun _ => hother.mem_iff.mp,
    List.append_left_inj, List.reverse_inj] at hvacant
  have hlength : order.length = other.length := horder.length_eq.trans hother.length_eq.symm
  refine List.ext_getElem hlength fun index hleft hright => ?_
  have hindex := List.getElem_of_eq hvacant (by simpa using hleft)
  rw [List.getElem_map, List.getElem_map] at hindex
  exact h.eq_of_index_eq (horder.mem_iff.mp (List.getElem_mem hleft))
    (hother.mem_iff.mp (List.getElem_mem hright)) hindex

/-! ## Handles issued before -/

def grant? : Event × Answer → Option UInt64
  | (.request request, .response response) =>
    if request.header.command? = some .alloc ∧ response.header.command? = some .ok then
      some response.header.handle
    else none
  | _ => none

def granted (events : List Event) (answers : List Answer) : List UInt64 :=
  (events.zip answers).filterMap grant?

/-- The handle was issued, whether or not it still stands for something. -/
def Issued (config : Config) (state : State) (handle : UInt64) : Prop :=
  ∃ held, Holds config state handle held

theorem Holds.reclaimInOrder {held : Option ByteArray} (h : Holds config state handle held)
    (horder : order.Perm state.handles.entries) :
    Holds config (state.reclaimInOrder order) handle none := by
  obtain ⟨flat, hshows, hissued, -⟩ := h
  exact ⟨_, (hshows.reclaimInOrder horder).2, hissued, rfl⟩

/-- A handle that was issued stays so, and one that stands for nothing never comes to stand for
anything. -/
theorem Holds.step {held : Option ByteArray} (h : Holds config state handle held)
    (step : Step state event answer next) :
    ∃ after, Holds config next handle after ∧ (held = none → after = none) := by
  cases step with
  | request message =>
      cases haccess : Access.ofRequest? handle message with
      | none => exact ⟨held, h.dispatch_of_none haccess, id⟩
      | some access =>
          refine ⟨_, (h.dispatch_of_some haccess).2, ?_⟩
          rintro rfl
          rfl
  | reclaimAll horder => exact ⟨none, h.reclaimInOrder horder, fun _ => rfl⟩

theorem Issued.step (h : Issued config state handle) (step : Step state event answer next) :
    Issued config next handle := by
  obtain ⟨held, hholds⟩ := h
  obtain ⟨after, hafter, -⟩ := hholds.step step
  exact ⟨after, hafter⟩

theorem Holds.watched_of_none (h : Holds config state handle none) {observations : List Observation}
    (run : Watched state events observations last) : Holds config last handle none := by
  induction run with
  | nil state => exact h
  | cons step rest ih =>
      obtain ⟨after, hafter, hnone⟩ := h.step step
      exact ih (hnone rfl ▸ hafter)

theorem Holds.get?_eq_none (h : Holds config state handle none) :
    state.handles.get? handle = none := by
  obtain ⟨flat, hshows, -, hlookup⟩ := h
  rw [hshows.lookup_eq, Option.map_eq_none_iff] at hlookup
  exact hlookup

/-- An allocation is answered by an error, or by nothing but the granted handle. -/
theorem Coupled.alloc_eq_ok (h : Coupled config state) {size : Nat}
    (hok : (state.alloc size).1.header.command? = some .ok) :
    (state.alloc size).1 = .ok (state.alloc size).1.header.handle := by
  have herror : (Message.error 0).header.command? ≠ some .ok := by decide
  rcases h.alloc_cases size with ⟨-, halloc⟩ | ⟨-, -, region, placed, after, halloc, -⟩ |
    ⟨-, -, region, after, halloc, -⟩
  · rw [halloc] at hok
    exact absurd hok herror
  · rw [halloc] at hok
    exact absurd hok herror
  · rw [halloc]
    rfl

theorem Coupled.issued_of_grant? (h : Coupled config state) (step : Step state event answer next)
    (hgrant : grant? (event, answer) = some handle) : Issued config next handle := by
  cases step with
  | reclaimAll horder => cases hgrant
  | request request =>
      obtain ⟨⟨halloc, hok⟩, hhandle⟩ := Option.ite_none_right_eq_some.mp hgrant
      obtain rfl := Option.some.inj hhandle
      simp only [State.dispatch, halloc] at hok ⊢
      exact ⟨_, h.holds_of_alloc request.header.byteCount.toNat_lt (h.alloc_eq_ok hok)⟩

theorem Coupled.issued_of_granted (h : Coupled config state)
    (run : Run state events answers last) (hgranted : handle ∈ granted events answers) :
    Issued config last handle := by
  induction run with
  | nil state => cases hgranted
  | @cons state middle last event answer events answers step rest ih =>
      have hmiddle : Issued config middle handle → Issued config last handle := fun hissued =>
        rest.invariant (fun holds step => Issued.step holds step) hissued
      rcases List.mem_filterMap.mp hgranted with ⟨exchange, hexchange, hgrant⟩
      rcases List.mem_cons.mp hexchange with rfl | hlater
      · exact hmiddle (h.issued_of_grant? step hgrant)
      · exact ih (h.step step) (List.mem_filterMap.mpr ⟨exchange, hlater, hgrant⟩)

/-! ## Any order -/

/-- Reclaiming in any order leaves nothing mapped and balanced books, and a server that is stopped
says so. The orders are told apart by the vacant slots, but by nothing that can be seen of any later
events, and the handles granted before stand for nothing ever after. -/
theorem reclaimed_in_any_order (hmax : config.maxHandles < 2 ^ 32)
    (run : Run (ofConfig config) events answers state) :
    (∀ order, order.Perm state.handles.entries →
      order.length = state.handles.size ∧ Reclaimed state (state.reclaimInOrder order) ∧
      (Server.mk config state).shutdown =
        ⟨(state.reclaimInOrder order).stats,
          [state.arena.report, .serverStopped order.length (state.reclaimInOrder order).stats]⟩) ∧
    (∀ later, ∃ observed, ∀ order, order.Perm state.handles.entries → ∀ seen,
      (∃ last, Watched (state.reclaimInOrder order) later seen last) ↔ seen = observed) ∧
    (∀ order other, order.Perm state.handles.entries → other.Perm state.handles.entries →
      order ≠ other →
      (state.reclaimInOrder order).arena.vacant ≠ (state.reclaimInOrder other).arena.vacant) ∧
    ∀ order, order.Perm state.handles.entries → ∀ later seen last,
      Watched (state.reclaimInOrder order) later seen last →
      ∀ handle ∈ granted events answers, last.handles.get? handle = none := by
  have hreachable : Reachable config state := ⟨events, answers, run⟩
  have hcoupled := hreachable.coupled
  obtain ⟨flat, hshows⟩ := hcoupled.exists_shows
  refine ⟨fun order horder => ⟨horder.length_eq, hreachable.reclaimed horder, ?_⟩, fun later => ?_,
    fun order other horder hother hne hvacant => ?_, fun order horder later seen last watched => ?_⟩
  · have hstats : state.releaseAll.2.stats = (state.reclaimInOrder order).stats :=
      (hshows.stats_reclaimInOrder (List.Perm.refl _)).trans
        (hshows.stats_reclaimInOrder horder).symm
    unfold shutdown
    rw [← hstats, horder.length_eq]
    rfl
  · refine ⟨Ledger.observeAll config ⟨{ flat with blocks := ∅ },
      state.stats.recordReleases flat.blocks.count flat.blocks.total⟩ later,
      fun order horder seen => ?_⟩
    rw [(hshows.reclaimInOrder horder).2.watched_iff hmax, hshows.stats_reclaimInOrder horder]
  · exact hne (hcoupled.order_eq_of_vacant_eq horder hother hvacant)
  · intro handle hgranted
    obtain ⟨held, hholds⟩ := (coupled_ofConfig config).issued_of_granted run hgranted
    exact ((hholds.reclaimInOrder horder).watched_of_none watched).get?_eq_none

/-- Two blocks, reclaimed the newest or the oldest first: the slot of the last one reclaimed is used
again before the other. -/
theorem reclaimed_newest_or_oldest_first :
    let events := [Message.request .alloc 0 4, .request .alloc 0 3].map Event.request
    let state := ((ofConfig {}).perform events).2
    let newest := state.reclaimInOrder state.handles.entries
    let oldest := state.reclaimInOrder state.handles.entries.reverse
    ((1024 < 2 ^ 32) ∧ Run (ofConfig {}) events ((ofConfig {}).perform events).1 state) ∧
      (newest.arena.vacant = [0, 1] ∧ oldest.arena.vacant = [1, 0]) ∧
      granted events ((ofConfig {}).perform events).1 = [1, 2] ∧
      Reclaimed state newest ∧ Reclaimed state oldest ∧
      ∀ later, ∃ observed, ∀ seen,
        ((∃ last, Watched newest later seen last) ↔ seen = observed) ∧
        ((∃ last, Watched oldest later seen last) ↔ seen = observed) := by
  intro events state newest oldest
  have run := run_perform (ofConfig {}) events
  obtain ⟨hreclaimed, hobserved, -, -⟩ := reclaimed_in_any_order (by decide) run
  have hnewest := List.Perm.refl state.handles.entries
  have holdest := List.reverse_perm state.handles.entries
  refine ⟨⟨by decide, run⟩, ⟨rfl, rfl⟩, rfl, (hreclaimed _ hnewest).2.1,
    (hreclaimed _ holdest).2.1, fun later => ?_⟩
  obtain ⟨observed, hseen⟩ := hobserved later
  exact ⟨observed, fun seen => ⟨hseen _ hnewest seen, hseen _ holdest seen⟩⟩

end State

end Server

end RemoteMemory
