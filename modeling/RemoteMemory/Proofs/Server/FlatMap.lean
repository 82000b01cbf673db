import RemoteMemory.Proofs.ByteMap
import RemoteMemory.Proofs.Server.Coupling

/-!
# A server is a flat map of byte strings

The machine here has no arena, no slots, no regions and no generations: it keeps the next handle and
a map from handles to byte strings. The answers that a server can give to any sequence of events are
exactly those of this machine, so nothing that lies beneath a handle can be observed.
-/

namespace RemoteMemory.Server

structure FlatMap where
  next : UInt64 := 1
  blocks : ByteMap := ∅

namespace FlatMap

/-- When a block of `size` bytes is granted. -/
def Grants (config : Config) (flat : FlatMap) (size : Nat) : Prop :=
  1 ≤ size ∧ flat.blocks.count < config.maxHandles ∧
    (∀ limit ∈ config.memoryLimit, flat.blocks.total + size ≤ limit) ∧
    flat.next.toNat < 2 ^ 64 - 1

instance (config : Config) (flat : FlatMap) (size : Nat) : Decidable (flat.Grants config size) :=
  inferInstanceAs (Decidable (_ ∧ _ ∧ _ ∧ _))

def alloc (config : Config) (flat : FlatMap) (size : Nat) : Message × FlatMap :=
  if flat.Grants config size then
    (.ok flat.next, ⟨flat.next + 1, flat.blocks.insert flat.next ⟨Array.replicate size 0⟩⟩)
  else (.error 0, flat)

def free (flat : FlatMap) (handle : UInt64) : Message × FlatMap :=
  match flat.blocks.lookup handle with
  | some _ => (.ok handle, { flat with blocks := flat.blocks.erase handle })
  | none => (.error handle, flat)

def write (flat : FlatMap) (handle : UInt64) (data : ByteArray) : Message × FlatMap :=
  match flat.blocks.lookup handle with
  | some bytes =>
    if data.size ≤ bytes.size then
      (.ok handle,
        { flat with
          blocks := flat.blocks.insert handle (data ++ bytes.extract data.size bytes.size) })
    else (.error handle, flat)
  | none => (.error handle, flat)

def read (flat : FlatMap) (handle : UInt64) (count : Nat) : Message :=
  match flat.blocks.lookup handle with
  | some bytes =>
    { header := .ofCommand .ok handle (UInt32.ofNat (min count bytes.size))
      payload := bytes.extract 0 (min count bytes.size) }
  | none => .error handle

def respond (config : Config) (flat : FlatMap) (request : Message) : Message × FlatMap :=
  match request.header.command? with
  | some .ping => (.pong, flat)
  | some .alloc => flat.alloc config request.header.byteCount.toNat
  | some .free => flat.free request.header.handle
  | some .write => flat.write request.header.handle request.payload
  | some .read => (flat.read request.header.handle request.header.byteCount.toNat, flat)
  | _ => (.error 0, flat)

/-- Answer one event; reclaiming unbinds every handle and leaves the next one. -/
def answer (config : Config) (flat : FlatMap) : Event → Answer × FlatMap
  | .request message =>
    let (response, flat) := flat.respond config message
    (.response response, flat)
  | .reclaimAll => (.reclaimed flat.blocks.count, { flat with blocks := ∅ })

def answerAll (config : Config) (flat : FlatMap) : List Event → List Answer × FlatMap
  | [] => ([], flat)
  | event :: rest =>
    let (answer, flat) := flat.answer config event
    let (answers, last) := flat.answerAll config rest
    (answer :: answers, last)

end FlatMap

/-! ## The bytes of a state -/

namespace State

def bytesOf (arena : Arena) (mapping : Mapping) : ByteArray :=
  (arena.block? mapping.region).elim ByteArray.empty Block.contents

/-- A flat map shows a state: it binds the handles in use to the bytes behind them. -/
structure Shows (config : Config) (state : State) (flat : FlatMap) : Prop where
  coupled : Coupled config state
  next_eq : flat.next = state.handles.next
  follows : flat.blocks.Follows state.handles (bytesOf state.arena)

variable {config : Config} {state : State} {flat : FlatMap}

theorem shows_ofConfig (config : Config) : Shows config (ofConfig config) {} where
  coupled := coupled_ofConfig config
  next_eq := rfl
  follows := rfl

theorem Coupled.exists_shows (h : Coupled config state) : ∃ flat, Shows config state flat := by
  obtain ⟨map, hmap⟩ := NumberMap.exists_follows h.handles (bytesOf state.arena)
  exact ⟨⟨state.handles.next, map⟩, h, rfl, hmap⟩

theorem bytesOf_of_mem {arena : Arena} {mapping : Mapping} {block : Block}
    (hmem : (mapping.region, block) ∈ arena.blocks) : bytesOf arena mapping = block.contents := by
  rw [bytesOf, Arena.block?_of_mem_blocks hmem]
  rfl

theorem bytesOf_congr {arena after : Arena} {mapping : Mapping}
    (h : after.block? mapping.region = arena.block? mapping.region) :
    bytesOf after mapping = bytesOf arena mapping := by
  rw [bytesOf, bytesOf, h]

/-- Behind a handle stand the whole bytes of its block, as many as were noted. -/
theorem Coupled.bytesOf_eq (h : Coupled config state) {mapping : Mapping} {block : Block}
    (hmem : (mapping.region, block) ∈ state.arena.blocks) :
    bytesOf state.arena mapping = block.bytes :=
  (bytesOf_of_mem hmem).trans
    (Block.contents_eq_bytes (h.arena.wellSized _ hmem) (h.whole _ hmem).1)

theorem Coupled.size_bytesOf (h : Coupled config state) {handle : UInt64} {mapping : Mapping}
    (hget : state.handles.get? handle = some mapping) :
    (bytesOf state.arena mapping).size = mapping.size := by
  obtain ⟨block, hmem, hrequested, -⟩ := h.exists_block hget
  rw [bytesOf_of_mem hmem, Block.size_contents (h.arena.wellSized _ hmem), hrequested]

theorem Shows.lookup_eq (h : Shows config state flat) (handle : UInt64) :
    flat.blocks.lookup handle = (state.handles.get? handle).map (bytesOf state.arena) :=
  h.follows.lookup_eq h.coupled.handles handle

theorem Shows.total_eq (h : Shows config state flat) :
    flat.blocks.total = state.arena.outstanding := by
  rw [h.follows.total_eq, h.coupled.outstanding_eq]
  refine congrArg List.sum (List.map_congr_left fun pair hpair => ?_)
  exact h.coupled.size_bytesOf (h.coupled.handles.get?_eq_some_iff.mpr hpair)

theorem Shows.exceedsLimit_eq_false_iff (h : Shows config state flat) (size : Nat) :
    state.arena.exceedsLimit size = false ↔
      ∀ limit ∈ config.memoryLimit, flat.blocks.total + size ≤ limit := by
  rw [Arena.exceedsLimit_eq_false_iff, h.coupled.memoryLimit_eq, h.total_eq]

/-- An arena that holds fewer blocks than there are slot numbers always finds a slot. -/
theorem Coupled.exists_slot (h : Coupled config state) (hmax : config.maxHandles < 2 ^ 32) :
    state.arena.vacant ≠ [] ∨ state.arena.slots.size < Arena.slotLimit := by
  apply h.arena.exists_slot
  have hle := h.handles.size_le
  rw [h.length_blocks]
  rw [h.maxHandles_eq] at hle
  exact Nat.lt_of_le_of_lt hle hmax

/-- A request for a block of a size that fits the field is granted by the arena when the bytes
fit the memory limit. -/
theorem Shows.arena_grants_iff (h : Shows config state flat) (hmax : config.maxHandles < 2 ^ 32)
    {size : Nat} (hsize : size < UInt32.size) :
    state.arena.Grants false size ↔
      1 ≤ size ∧ ∀ limit ∈ config.memoryLimit, flat.blocks.total + size ≤ limit := by
  have hreservation : size < Arena.reservationLimit := Nat.lt_trans hsize (by decide)
  rw [Arena.Grants, h.exceedsLimit_eq_false_iff]
  exact ⟨fun hgrants => ⟨hgrants.2.1, hgrants.2.2.1⟩,
    fun hfits => ⟨rfl, hfits.1, hfits.2, hreservation, h.coupled.exists_slot hmax⟩⟩

/-- The two ceilings, the counter and the arena agree on what is granted. -/
theorem Shows.grants_iff (h : Shows config state flat) (hmax : config.maxHandles < 2 ^ 32)
    {size : Nat} (hsize : size < UInt32.size) :
    flat.Grants config size ↔ state.arena.Grants false size ∧ state.handles.isFull = false := by
  rw [FlatMap.Grants, h.arena_grants_iff hmax hsize, Registry.isFull_eq_false_iff,
    Registry.ne_lastNumber_iff, h.next_eq, h.follows.count_eq, h.coupled.maxHandles_eq]
  constructor
  · rintro ⟨hpos, hroom, hfits, hnext⟩
    exact ⟨⟨hpos, hfits⟩, hroom, hnext⟩
  · rintro ⟨⟨hpos, hfits⟩, hroom, hnext⟩
    exact ⟨hpos, hroom, hfits, hnext⟩

/-! ## Each request is answered alike -/

/-- An allocation is refused and shows nothing, or zeros stand behind the next handle. -/
theorem Shows.alloc_cases (h : Shows config state flat) {size : Nat} (hsize : size < UInt32.size) :
    (¬ (state.arena.Grants false size ∧ state.handles.isFull = false) ∧
      (state.alloc size).1 = .error 0 ∧ Shows config (state.alloc size).2 flat) ∨
    ((state.arena.Grants false size ∧ state.handles.isFull = false) ∧
      (state.alloc size).1 = .ok flat.next ∧ Shows config (state.alloc size).2
        ⟨flat.next + 1, flat.blocks.insert flat.next ⟨Array.replicate size 0⟩⟩) := by
  have hcoupled := h.coupled.alloc hsize
  have hold : ∀ {pair}, pair ∈ state.handles.entries →
      ∃ block, (pair.2.region, block) ∈ state.arena.blocks := by
    intro pair hpair
    obtain ⟨block, hmem, -⟩ :=
      h.coupled.exists_block (h.coupled.handles.get?_eq_some_iff.mpr hpair)
    exact ⟨block, hmem⟩
  rcases h.coupled.alloc_cases size with ⟨hrefused, halloc⟩ |
    ⟨-, hfull, region, placed, after, halloc, -, allocated, released⟩ |
    ⟨hgranted, hfull, region, after, halloc, -, allocated⟩
  · rw [halloc]
    exact .inl ⟨fun hboth => hrefused hboth.1, rfl, h⟩
  · rw [halloc] at hcoupled ⊢
    refine .inl ⟨by simp [hfull], rfl, hcoupled, h.next_eq, ?_⟩
    refine h.follows.congr fun pair hpair => bytesOf_congr ?_
    obtain ⟨block, hmem⟩ := hold hpair
    have hne : pair.2.region ≠ region := fun heq => allocated.not_mem block (heq ▸ hmem)
    exact (released.block?_eq hne).trans (allocated.block?_eq hne)
  · rw [halloc] at hcoupled ⊢
    rw [h.next_eq]
    refine .inr ⟨⟨hgranted, hfull⟩, rfl, hcoupled, rfl, ?_⟩
    have hview : flat.blocks.Follows state.handles (bytesOf after) := by
      refine h.follows.congr fun pair hpair => bytesOf_congr (allocated.block?_eq fun heq => ?_)
      obtain ⟨block, hmem⟩ := hold hpair
      exact allocated.not_mem block (heq ▸ hmem)
    have hzeros : bytesOf after ⟨region, size⟩ = ⟨Array.replicate size 0⟩ := by
      rw [← Bytes.zeros_eq_replicate, ← Block.contents_zeroed]
      exact bytesOf_of_mem (allocated.perm.mem_iff.mpr List.mem_cons_self)
    exact hzeros ▸ hview.add h.coupled.handles ⟨region, size⟩

theorem Shows.alloc (h : Shows config state flat) (hmax : config.maxHandles < 2 ^ 32)
    {size : Nat} (hsize : size < UInt32.size) :
    (state.alloc size).1 = (flat.alloc config size).1 ∧
      Shows config (state.alloc size).2 (flat.alloc config size).2 := by
  have hgrants := h.grants_iff hmax hsize
  rcases h.alloc_cases hsize with ⟨hrefused, hafter⟩ | ⟨hgranted, hafter⟩
  · rw [FlatMap.alloc, if_neg (mt hgrants.mp hrefused)]
    exact hafter
  · rw [FlatMap.alloc, if_pos (hgrants.mpr hgranted)]
    exact hafter

theorem Coupled.region_ne (h : Coupled config state) {handle : UInt64} {mapping : Mapping}
    (hget : state.handles.get? handle = some mapping) {pair : UInt64 × Mapping}
    (hpair : pair ∈ (state.handles.erase handle).entries) : pair.2.region ≠ mapping.region := by
  intro heq
  obtain ⟨hmem, hne⟩ := List.mem_filter.mp hpair
  have hother := h.handles.get?_eq_some_iff.mpr hmem
  simp [h.region_injective hother hget heq] at hne

theorem Shows.free (h : Shows config state flat) (handle : UInt64) :
    (state.free handle).1 = (flat.free handle).1 ∧
      Shows config (state.free handle).2 (flat.free handle).2 := by
  have hcoupled := h.coupled.free handle
  have hlookup := h.lookup_eq handle
  cases hget : state.handles.get? handle with
  | none =>
      rw [hget, Option.map_none] at hlookup
      rw [free_of_get?_eq_none hget, FlatMap.free, hlookup]
      exact ⟨rfl, h⟩
  | some mapping =>
      rw [hget, Option.map_some] at hlookup
      obtain ⟨block, after, hfree, -, -, released⟩ := h.coupled.free_of_get? hget
      rw [hfree] at hcoupled ⊢
      rw [FlatMap.free, hlookup]
      refine ⟨rfl, hcoupled, h.next_eq, ?_⟩
      refine (h.follows.erase h.coupled.handles hget).congr fun pair hpair => bytesOf_congr ?_
      exact released.block?_eq (h.coupled.region_ne hget hpair)

theorem Shows.write (h : Shows config state flat) (handle : UInt64) (data : ByteArray) :
    (state.write handle data).1 = (flat.write handle data).1 ∧
      Shows config (state.write handle data).2 (flat.write handle data).2 := by
  have hcoupled := h.coupled.write handle data
  have hlookup := h.lookup_eq handle
  cases hget : state.handles.get? handle with
  | none =>
      rw [hget, Option.map_none] at hlookup
      rw [write_of_get?_eq_none hget, FlatMap.write, hlookup]
      exact ⟨rfl, h⟩
  | some mapping =>
      rw [hget, Option.map_some] at hlookup
      have hsize := h.coupled.size_bytesOf hget
      by_cases hfits : data.size ≤ mapping.size
      · obtain ⟨block, after, hwrite, -, hmem, replaced⟩ := h.coupled.write_of_le hget hfits
        have hbytes := h.coupled.bytesOf_eq hmem
        rw [hwrite] at hcoupled ⊢
        simp only [FlatMap.write, hlookup, hsize, if_pos hfits]
        refine ⟨trivial, hcoupled, h.next_eq, ?_⟩
        have hchanged : (mapping.region, block.overwrite data) ∈ after.blocks :=
          Arena.block?_eq_some_iff.mp replaced.block?_self
        have hnew : bytesOf after mapping
            = data ++ (bytesOf state.arena mapping).extract data.size mapping.size := by
          rw [← hsize, hbytes]
          exact hcoupled.bytesOf_eq hchanged
        rw [← hnew]
        refine h.follows.insert_of_view h.coupled.handles hget fun pair hpair => bytesOf_congr ?_
        exact replaced.block?_eq (h.coupled.region_ne hget hpair)
      · rw [write_of_lt hget (Nat.not_le.mp hfits)]
        simp only [FlatMap.write, hlookup, hsize, if_neg hfits]
        exact ⟨trivial, h⟩

theorem Shows.read (h : Shows config state flat) (handle : UInt64) (count : Nat) :
    state.read handle count = flat.read handle count := by
  have hlookup := h.lookup_eq handle
  cases hget : state.handles.get? handle with
  | none =>
      rw [hget, Option.map_none] at hlookup
      rw [read_of_get?_eq_none hget, FlatMap.read, hlookup]
  | some mapping =>
      rw [hget, Option.map_some] at hlookup
      obtain ⟨block, hmem, -, hread⟩ := h.coupled.read_of_get? hget count
      have hbytes := h.coupled.bytesOf_eq hmem
      have hsize : block.bytes.size = mapping.size := hbytes ▸ h.coupled.size_bytesOf hget
      simp only [hread, FlatMap.read, hlookup, hbytes, hsize]

theorem Shows.dispatch (h : Shows config state flat) (hmax : config.maxHandles < 2 ^ 32)
    (request : Message) :
    (state.dispatch request).1 = (flat.respond config request).1 ∧
      Shows config (state.dispatch request).2 (flat.respond config request).2 := by
  unfold State.dispatch FlatMap.respond
  cases request.header.command? with
  | none => exact ⟨rfl, h⟩
  | some command =>
      cases command with
      | alloc => exact h.alloc hmax request.header.byteCount.toNat_lt
      | free => exact h.free _
      | write => exact h.write _ _
      | read => exact ⟨h.read _ _, h⟩
      | _ => exact ⟨rfl, h⟩

/-! ## Runs -/

theorem Shows.reclaimInOrder (h : Shows config state flat) {order : List (UInt64 × Mapping)}
    (horder : order.Perm state.handles.entries) :
    order.length = flat.blocks.count ∧
      Shows config (state.reclaimInOrder order) { flat with blocks := ∅ } := by
  have hmem : ∀ pair ∈ order, pair ∈ state.handles.entries :=
    fun pair hpair => horder.mem_iff.mp hpair
  have hentries : (state.reclaimInOrder order).handles.entries = [] := by
    rw [handles_reclaimInOrder, Registry.entries_foldl_erase, List.filter_eq_nil_iff]
    intro pair hpair
    have hlisted : pair.1 ∈ order.map Prod.fst :=
      List.mem_map_of_mem (horder.mem_iff.mpr hpair)
    simpa using hlisted
  refine ⟨horder.length_eq.trans h.follows.count_eq.symm,
    h.coupled.reclaimInOrder (h.coupled.nodup_of_perm horder) hmem, ?_, ?_⟩
  · rw [handles_reclaimInOrder, Registry.next_foldl_erase]
    exact h.next_eq
  · rw [NumberMap.Follows, hentries]
    rfl

theorem Shows.step (h : Shows config state flat) (hmax : config.maxHandles < 2 ^ 32)
    {event : Event} {answer : Answer} {next : State} (step : Step state event answer next) :
    answer = (flat.answer config event).1 ∧ Shows config next (flat.answer config event).2 := by
  cases step with
  | request message =>
      obtain ⟨hanswer, hshows⟩ := h.dispatch hmax message
      exact ⟨congrArg Answer.response hanswer, hshows⟩
  | reclaimAll horder =>
      obtain ⟨hcount, hshows⟩ := h.reclaimInOrder horder
      exact ⟨congrArg Answer.reclaimed hcount, hshows⟩

theorem Shows.run (h : Shows config state flat) (hmax : config.maxHandles < 2 ^ 32)
    {events : List Event} {answers : List Answer} {last : State}
    (run : Run state events answers last) :
    answers = (flat.answerAll config events).1 ∧
      Shows config last (flat.answerAll config events).2 := by
  induction run generalizing flat with
  | nil state => exact ⟨rfl, h⟩
  | cons step rest ih =>
      obtain ⟨hanswer, hnext⟩ := h.step hmax step
      obtain ⟨hanswers, hlast⟩ := ih hnext
      exact ⟨congrArg₂ List.cons hanswer hanswers, hlast⟩

/-- What a server can answer to events, from its start and with any order of reclaiming, is exactly
what the flat map answers. -/
theorem run_iff_answerAll (config : Config) (hmax : config.maxHandles < 2 ^ 32)
    (events : List Event) (answers : List Answer) :
    (∃ last, Run (ofConfig config) events answers last) ↔
      answers = (FlatMap.answerAll config {} events).1 := by
  constructor
  · rintro ⟨last, run⟩
    exact ((shows_ofConfig config).run hmax run).1
  · intro hanswers
    have run := run_perform (ofConfig config) events
    have hsame := ((shows_ofConfig config).run hmax run).1
    exact ⟨_, hanswers ▸ hsame ▸ run⟩

/-- A limit of four bytes: the second block is refused until the first is freed, and the handle of
the first stays unknown. -/
theorem run_iff_answerAll_at_limit :
    (1024 < 2 ^ 32) ∧ ∃ last,
      Run (ofConfig { memoryLimit := some 4 })
        ([.request .alloc 0 4, .request .alloc 0 3, .request .free 1 0, .request .alloc 0 3,
          .request .read 1 3].map .request)
        ([.ok 1, .error 0, .ok 1, .ok 2, .error 1].map .response) last := by
  refine ⟨by decide, ?_⟩
  rw [run_iff_answerAll { memoryLimit := some 4 } (by decide)]
  rfl

end State

end RemoteMemory.Server
