import RemoteMemory.Proofs.Arena.History

/-!
# Tags and histories

A tag is computed from what a slot holds at the moment, its generation and its block. It says what
the history of the arena says nonetheless: a region is live exactly when it is in use, freed exactly
when it was taken back, and has no tag exactly when it was never handed out here. This holds as long
as no generation starts over, that is, as long as no slot is reused 2 ^ 32 times.
-/

namespace RemoteMemory

namespace Arena

variable {arena after : Arena} {history : List Event} {refused : Bool} {region : Region}

/-! ## Generations -/

/-- How many generations a slot has had, as its number tells. -/
def generations (arena : Arena) (index : Nat) : Nat :=
  (arena.slots[index]?).elim 0 fun slot => slot.generation.toNat + 1

theorem toNat_nextGeneration (arena : Arena) (index : Nat) :
    (arena.nextGeneration index).toNat = arena.generations index % UInt32.size := by
  unfold nextGeneration generations
  cases arena.slots[index]? with
  | none => rfl
  | some slot => exact UInt32.toNat_add slot.generation 1

/-- The tags cover the generations that a slot has had. -/
theorem tag?_eq_none_iff :
    arena.tag? region = none ↔
      ¬ (region.owner = arena.id ∧ region.generation.toNat < arena.generations region.index) := by
  unfold tag? generations
  by_cases howner : region.owner = arena.id
  · cases arena.slots[region.index]? with
    | none => simp [howner]
    | some slot =>
        by_cases hgeneration : region.generation = slot.generation
        · simp [howner, hgeneration]
        · have hne : region.generation.toNat ≠ slot.generation.toNat := by
            rwa [ne_eq, UInt32.toNat_inj]
          by_cases hlt : region.generation < slot.generation
          · have hlt' := UInt32.lt_iff_toNat_lt.mp hlt
            simp [howner, hgeneration, hlt]
            omega
          · have hle := Nat.not_lt.mp (mt UInt32.lt_iff_toNat_lt.mpr hlt)
            simp [howner, hgeneration, hlt]
            omega
  · simp [howner]

/-- A slot keeps its generation whatever becomes of its block. -/
@[simp] theorem generations_setBlock (index : Nat) (block? : Option Block) :
    (arena.setBlock index block?).generations = arena.generations := by
  funext other
  unfold generations setBlock
  rw [Array.getElem?_modify]
  split
  · cases arena.slots[other]? <;> rfl
  · rfl

@[simp] theorem generations_write (region : Region) (data : ByteArray) :
    (arena.write region data).2.generations = arena.generations := by
  unfold write
  repeat' split
  all_goals simp

@[simp] theorem generations_release (region? : Option Region) :
    (arena.release region?).2.generations = arena.generations := by
  unfold release
  repeat' split
  any_goals rfl
  exact generations_setBlock _ none

/-- A new block gives its slot the generation of its region. -/
theorem WellFormed.generations_of_allocate (hwell : arena.WellFormed) {size : Nat}
    (h : arena.allocate refused size = (.ok region, after)) :
    after.generations = Function.update arena.generations arena.nextIndex
      (arena.nextRegion.generation.toNat + 1) := by
  funext index
  rw [Function.update_apply]
  rcases allocate_ok_cases h with ⟨vacant, hvacant, hreuse⟩ | ⟨hindex, hextend⟩
  · have hmem : arena.nextIndex ∈ arena.vacant := by simp [hvacant]
    obtain ⟨slot, hslot, -⟩ := (hwell.mem_vacant_iff _).mp hmem
    cases hreuse
    change ((arena.slots.modify arena.nextIndex _)[index]?).elim 0 _ = _
    rw [Array.getElem?_modify]
    by_cases heq : index = arena.nextIndex
    · rw [if_pos heq.symm, if_pos heq, heq, hslot]
      rfl
    · rw [if_neg (Ne.symm heq), if_neg heq]
      rfl
  · cases hextend
    change ((arena.slots.push _)[index]?).elim 0 _ = _
    rw [Array.getElem?_push, ← hindex]
    by_cases heq : index = arena.nextIndex
    · rw [if_pos heq, if_pos heq]
      simp [nextRegion, hindex, nextGeneration]
    · rw [if_neg heq, if_neg heq]
      rfl

/-- A call that hands out no region keeps all generations; one that does hands out the next region
and gives its slot that generation. -/
inductive Numbered (arena : Arena) (event : Event) (after : Arena) : Prop where
  | kept (issued? : event.issued? = none) (generations : after.generations = arena.generations)
  | placed (issued? : event.issued? = some arena.nextRegion)
      (generations : after.generations = Function.update arena.generations arena.nextIndex
        (arena.nextRegion.generation.toNat + 1))

theorem WellFormed.numbered_allocate (h : arena.WellFormed) (refused : Bool) (size : Nat)
    (event : Event) (hevent : event.issued? = (arena.allocate refused size).1.toOption) :
    Numbered arena event (arena.allocate refused size).2 := by
  rcases h.allocate_cases refused size with ⟨-, error, hallocate⟩ |
    ⟨-, region, after, hallocate, -⟩
  · rw [hallocate] at hevent ⊢
    exact .kept hevent rfl
  · have hgenerations := h.generations_of_allocate hallocate
    rw [hallocate, eq_nextRegion_of_allocate hallocate] at hevent
    rw [hallocate]
    exact .placed hevent hgenerations

theorem WellFormed.numbered_move (h : arena.WellFormed) (refused : Bool) {block : Block}
    {newSize : Nat} (hblock : arena.block? region = some block) (hlt : block.capacity < newSize) :
    Numbered arena (.resize (some region) newSize (arena.move refused region newSize).1)
      (arena.move refused region newSize).2 := by
  have hmem := block?_eq_some_iff.mp hblock
  have hgenerations : (arena.move refused region newSize).2.generations
      = (arena.allocate refused newSize).2.generations :=
    view_move generations (fun _ => generations_write) (fun _ => generations_release) refused region
      newSize
  rcases h.move_cases refused hmem hlt with ⟨-, hmove⟩ |
    ⟨-, moved, placed, written, after, hallocate, -, -, hmove, -, move⟩
  · rw [hmove]
    exact .kept rfl rfl
  · have hissued : (Event.resize (some region) newSize (.ok (some moved))).issued? = some moved := by
      simp [Event.issued?, move.ne hmem]
    rw [hmove, hallocate, h.generations_of_allocate hallocate] at hgenerations
    rw [hmove]
    rw [eq_nextRegion_of_allocate hallocate] at hissued ⊢
    exact .placed hissued hgenerations

theorem WellFormed.numbered_resize (h : arena.WellFormed) (refused : Bool)
    (region? : Option Region) (newSize : Nat) :
    Numbered arena (.resize region? newSize (arena.resize refused region? newSize).1)
      (arena.resize refused region? newSize).2 := by
  have hresizing := resizing_resize arena refused region? newSize
  generalize arena.resize refused region? newSize = resized at hresizing ⊢
  cases hresizing with
  | fresh => exact h.numbered_allocate refused newSize _ (issued?_resize_none newSize _)
  | empty region => exact .kept (issued?_resize_zero 0 _) (generations_release _)
  | notLive => exact .kept rfl rfl
  | within => exact .kept (by simp [Event.issued?]) (generations_setBlock _ _)
  | beyond hblock hlt => exact h.numbered_move refused hblock hlt

theorem WellFormed.numbered_attempt (h : arena.WellFormed) (refused : Bool) (call : Call) :
    Numbered arena (arena.attempt refused call).1 (arena.attempt refused call).2 := by
  cases call with
  | allocate size => exact h.numbered_allocate refused size _ (issued?_allocate size _)
  | release region? => exact .kept rfl (generations_release region?)
  | resize region? newSize => exact h.numbered_resize refused region? newSize
  | write region data => exact .kept rfl (generations_write region data)
  | read region buffer => exact .kept rfl rfl
  | view region => exact .kept rfl rfl
  | resetStats => exact .kept rfl rfl

/-! ## What an arena keeps of its history -/

/-- What ties an arena to its history: the live regions are those in use, the generations of a slot
count the blocks it was given, and these blocks had one generation each. -/
structure Chronicle (arena : Arena) (history : List Event) : Prop where
  liveInUse : LiveInUse arena history
  placements_eq : ∀ index, placements history index = arena.generations index
  mem_issued_iff : ∀ region, region ∈ issued history ↔
    region.owner = arena.id ∧ region.generation.toNat < arena.generations region.index
  nodup_issued : (issued history).Nodup

theorem chronicle_empty (id : Nat) (limit : Option Nat) :
    Chronicle { id := id, limit := limit } [] where
  liveInUse := liveInUse_empty id limit
  placements_eq index := rfl
  mem_issued_iff region := by simp [issued, generations]
  nodup_issued := List.nodup_nil

theorem placements_concat_of_none {event : Event} (h : event.issued? = none) (index : Nat) :
    placements (history ++ [event]) index = placements history index := by
  rw [placements, issued_concat, h, Option.toList_none, List.append_nil]
  rfl

theorem placements_concat_of_some {event : Event} (h : event.issued? = some region) (index : Nat) :
    placements (history ++ [event]) index =
      placements history index + if index = region.index then 1 else 0 := by
  rw [placements, issued_concat, h, Option.toList_some, List.countP_append, List.countP_singleton]
  simp [placements, eq_comm]

/-- A generation that never started over has not been used for a slot before. -/
theorem Chronicle.toNat_nextRegion (h : Chronicle arena history)
    (hfew : placements history arena.nextIndex < UInt32.size) :
    arena.nextRegion.generation.toNat = arena.generations arena.nextIndex := by
  rw [h.placements_eq] at hfew
  exact (toNat_nextGeneration arena arena.nextIndex).trans (Nat.mod_eq_of_lt hfew)

/-- One more block in a slot has the generation behind those that the slot has had. -/
theorem Chronicle.mem_issued_or_eq_iff (h : Chronicle arena history)
    (hfew : placements history arena.nextIndex < UInt32.size) :
    region ∈ issued history ∨ region = arena.nextRegion ↔
      region.owner = arena.id ∧ region.generation.toNat <
        Function.update arena.generations arena.nextIndex
          (arena.nextRegion.generation.toNat + 1) region.index := by
  have hnext := h.toNat_nextRegion hfew
  rw [h.mem_issued_iff, Function.update_apply]
  by_cases hindex : region.index = arena.nextIndex
  · have heq : region = arena.nextRegion ↔ region.owner = arena.id ∧
        region.generation.toNat = arena.nextRegion.generation.toNat := by
      rw [UInt32.toNat_inj]
      constructor
      · rintro rfl
        exact ⟨rfl, rfl⟩
      · rintro ⟨howner, hgeneration⟩
        cases region
        simp_all [nextRegion]
    rw [heq, if_pos hindex, hindex, ← hnext, ← and_or_left, Nat.lt_succ_iff_lt_or_eq]
  · have hne : region ≠ arena.nextRegion := fun heq => hindex (congrArg Region.index heq)
    rw [if_neg hindex]
    simp [hne]

theorem Chronicle.attempt (h : Chronicle arena history) (hsound : arena.Sound) (refused : Bool)
    (call : Call)
    (hfew : ∀ index, reuses (history ++ [(arena.attempt refused call).1]) index < UInt32.size) :
    Chronicle (arena.attempt refused call).2 (history ++ [(arena.attempt refused call).1]) := by
  have hid : (arena.attempt refused call).2.id = arena.id :=
    congrArg Prod.fst (nameplate_attempt refused call)
  have hheld := h.liveInUse.attempt hsound refused call
  rcases hsound.wellFormed.numbered_attempt refused call with ⟨hissued, hkept⟩ | ⟨hissued, hplaced⟩
  -- Nothing was handed out: history and slots say what they said before.
  · have hsame : issued (history ++ [(arena.attempt refused call).1]) = issued history := by
      rw [issued_concat, hissued, Option.toList_none, List.append_nil]
    refine ⟨hheld, fun index => ?_, fun region => ?_, ?_⟩
    · rw [placements_concat_of_none hissued, hkept, h.placements_eq]
    · rw [hsame, hid, hkept, h.mem_issued_iff]
    · rw [hsame]
      exact h.nodup_issued
  -- The bound on reuses leaves room for one more generation.
  · have hroom : placements history arena.nextIndex < UInt32.size := by
      have hreuses := hfew arena.nextIndex
      rwa [reuses, placements_concat_of_some hissued, index_nextRegion, if_pos rfl,
        Nat.add_sub_cancel] at hreuses
    have hnext := h.toNat_nextRegion hroom
    have hmore : issued (history ++ [(arena.attempt refused call).1])
        = issued history ++ [arena.nextRegion] := by
      rw [issued_concat, hissued, Option.toList_some]
    refine ⟨hheld, fun index => ?_, fun region => ?_, ?_⟩
    · rw [placements_concat_of_some hissued, hplaced, Function.update_apply, hnext,
        h.placements_eq, index_nextRegion]
      split
      next heq => rw [heq]
      · rfl
    · rw [hmore, hid, hplaced, List.mem_append, List.mem_singleton]
      exact h.mem_issued_or_eq_iff hroom
    · rw [hmore, ← List.concat_eq_append, List.nodup_concat]
      refine ⟨fun hmem => ?_, h.nodup_issued⟩
      have hlt := ((h.mem_issued_iff _).mp hmem).2
      rw [index_nextRegion] at hlt
      omega

/-- A history has reused a slot no more often than a longer one, so the chronicle goes back to where
no generation had started over. -/
theorem Chronicle.attemptAll (h : Chronicle arena history) (hsound : arena.Sound)
    (attempts : List (Bool × Call))
    (hfew : ∀ index, reuses (history ++ (arena.attemptAll attempts).1) index < UInt32.size) :
    Chronicle (arena.attemptAll attempts).2 (history ++ (arena.attemptAll attempts).1) := by
  apply hsound.history_induction
    (fun arena history => (∀ index, reuses history index < UInt32.size) → Chronicle arena history)
    ?_ (fun _ => h) attempts hfew
  intro arena history hkept hsound refused call hfew
  have hbefore : ∀ index, reuses history index < UInt32.size := fun index =>
    Nat.lt_of_le_of_lt (reuses_append_le history _ index) (hfew index)
  exact (hkept hbefore).attempt hsound refused call hfew

/-! ## Tags are exact -/

/-- No operation gets at anything through a region. -/
structure Barred (arena : Arena) (region : Region) : Prop where
  write_eq : ∀ data, arena.write region data = (.error .corrupt, arena)
  readInto_eq : ∀ buffer, arena.readInto region buffer = (.error .corrupt, buffer)
  view_eq : arena.view region = .error .corrupt
  sizeOf_eq : arena.sizeOf region = 0
  header?_eq : arena.header? region = none
  resize_eq : ∀ refused newSize, 0 < newSize →
    arena.resize refused (some region) newSize = (.error .corrupt, arena)

theorem barred_of_not_live (h : arena.block? region = none) : Barred arena region where
  write_eq := write_of_not_live h
  readInto_eq := readInto_of_not_live h
  view_eq := view_of_not_live h
  sizeOf_eq := by simp [sizeOf, h]
  header?_eq := by simp [header?, h]
  resize_eq refused newSize hpos := resize_of_not_live h hpos

structure Kept (arena : Arena) (region : Region) (error : Error) : Prop where
  release_eq : arena.release region = (.error error, arena)
  resize_zero_eq : ∀ refused, arena.resize refused (some region) 0 = (.error error, arena)

theorem kept_of_not_live (h : arena.tag? region ≠ some .live) :
    Kept arena region (arena.releaseRefusal region) where
  release_eq := release_of_not_live h
  resize_zero_eq refused := by
    rw [resize_zero, release_of_not_live h]
    rfl

/-- A resize gives the region back that it was given exactly when the capacity suffices. -/
theorem WellFormed.resized_eq_self_iff (h : arena.WellFormed) {block : Block} {newSize : Nat}
    {resized : Region} (hblock : arena.block? region = some block)
    (hresize : (arena.resize refused (some region) newSize).1 = .ok (some resized)) :
    resized = region ↔ newSize ≤ block.capacity := by
  have hmem := block?_eq_some_iff.mp hblock
  rcases Nat.eq_zero_or_pos newSize with rfl | hpos
  · rw [resize_zero] at hresize
    cases hrelease : (arena.release (some region)).1 <;> simp [hrelease, Except.map] at hresize
  by_cases hle : newSize ≤ block.capacity
  · rw [resize_of_le hblock hpos hle] at hresize
    cases hresize
    simp [hle]
  · have hlt := Nat.not_le.mp hle
    rw [resize_of_lt hblock hlt] at hresize
    rcases h.move_cases refused hmem hlt with ⟨-, hmove⟩ |
      ⟨-, moved, placed, written, after, -, -, -, hmove, -, move⟩
    · rw [hmove] at hresize
      cases hresize
    · rw [hmove] at hresize
      cases hresize
      simp [hle, move.ne hmem]

/-- What an arena says of any region is what its history says. -/
structure Exact (arena : Arena) (history : List Event) : Prop where
  live_iff : ∀ region, arena.tag? region = some .live ↔ InUse history region
  freed_iff : ∀ region, arena.tag? region = some .freed ↔ Retired history region
  none_iff : ∀ region, arena.tag? region = none ↔ region ∉ issued history
  nodup_issued : (issued history).Nodup
  resized_eq_self_iff : ∀ refused region requested capacity newSize resized,
    arena.header? region = some (requested, capacity) →
    (arena.resize refused (some region) newSize).1 = .ok (some resized) →
    (resized = region ↔ newSize ≤ capacity)
  barred : ∀ region, ¬ InUse history region → Barred arena region
  kept_of_retired : ∀ region, Retired history region → Kept arena region .doubleFree
  kept_of_not_issued : ∀ region, region ∉ issued history → Kept arena region .corrupt

theorem Chronicle.exact (h : Chronicle arena history) (hsound : arena.Sound) :
    Exact arena history := by
  have hlive : ∀ region, arena.tag? region = some .live ↔ InUse history region := by
    intro region
    rw [tag?_eq_live_iff, h.liveInUse]
  have hnone : ∀ region, arena.tag? region = none ↔ region ∉ issued history := by
    intro region
    rw [tag?_eq_none_iff, h.mem_issued_iff]
  have hfreed : ∀ region, arena.tag? region = some .freed ↔ Retired history region := by
    intro region
    rw [retired_iff h.nodup_issued, ← hlive, ← not_not (a := region ∈ issued history), ← hnone]
    cases arena.tag? region with
    | none => simp
    | some tag => cases tag <;> simp
  refine ⟨hlive, hfreed, hnone, h.nodup_issued, ?_, ?_, ?_, ?_⟩
  · intro refused region requested capacity newSize resized hheader hresize
    obtain ⟨block, hblock, hsizes⟩ := Option.map_eq_some_iff.mp hheader
    cases hsizes
    exact hsound.wellFormed.resized_eq_self_iff hblock hresize
  · intro region hnot
    apply barred_of_not_live
    rwa [block?_eq_none_iff, ne_eq, hlive]
  · intro region hretired
    have htag := (hfreed region).mpr hretired
    have hkept : Kept arena region _ := kept_of_not_live (by simp [htag])
    rwa [releaseRefusal, if_pos htag] at hkept
  · intro region hnot
    have htag := (hnone region).mpr hnot
    have hkept : Kept arena region _ := kept_of_not_live (by simp [htag])
    rwa [releaseRefusal, if_neg (by simp [htag])] at hkept

def emptyArenas {κ : Type*} (ids : κ → Nat) (limits : κ → Option Nat) (name : κ) : Arena :=
  { id := ids name, limit := limits name }

/-- Among arenas with different numbers, whatever is called on which of them and whichever memory
the system refuses, each is exact on every region, and knows none that another handed out. -/
theorem exact_of_few_reuses {κ : Type*} [DecidableEq κ] {ids : κ → Nat}
    (hids : Function.Injective ids) (limits : κ → Option Nat) (attempts : List (κ × Bool × Call))
    (hfew : ∀ name index,
      reuses (under name (attemptEach (emptyArenas ids limits) attempts).1) index < 2 ^ 32) :
    let (log, last) := attemptEach (emptyArenas ids limits) attempts
    ∀ name, Exact (last name) (under name log) ∧
      ∀ other, other ≠ name → ∀ region ∈ issued (under other log),
        (last name).tag? region = none := by
  have hchronicle : ∀ name, Chronicle ((attemptEach (emptyArenas ids limits) attempts).2 name)
      (under name (attemptEach (emptyArenas ids limits) attempts).1) ∧
      ((attemptEach (emptyArenas ids limits) attempts).2 name).Sound ∧
      ((attemptEach (emptyArenas ids limits) attempts).2 name).id = ids name := by
    intro name
    have hfew := hfew name
    obtain ⟨hlog, hlast⟩ :=
      Prod.ext_iff.mp (attemptEach_under (emptyArenas ids limits) attempts name)
    dsimp only at hlog hlast
    rw [hlog] at hfew ⊢
    rw [hlast]
    have hsound := sound_empty (ids name) (limits name)
    refine ⟨?_, hsound.attemptAll _, congrArg Prod.fst (nameplate_attemptAll _)⟩
    exact (chronicle_empty (ids name) (limits name)).attemptAll hsound _ hfew
  intro name
  obtain ⟨hname, hsound, hid⟩ := hchronicle name
  have hexact := hname.exact hsound
  refine ⟨hexact, fun other hne region hmem => ?_⟩
  obtain ⟨hother, -, hotherId⟩ := hchronicle other
  have howner := ((hother.mem_issued_iff region).mp hmem).1
  rw [hexact.none_iff, hname.mem_issued_iff, howner, hid, hotherId]
  exact fun h => hne (hids h.1)

theorem reuses_le_length (history : List Event) (index : Nat) :
    reuses history index ≤ (issued history).length :=
  Nat.le_trans (Nat.sub_le _ _) List.countP_le_length

/-- Two arenas, one of which puts a second block into a slot and is given a region of the other. The
system refuses the first move of the other one. -/
def exchangedCalls : List (Bool × Bool × Call) :=
  [(false, false, .allocate 4), (true, false, .allocate 2),
    (false, false, .release (some ⟨0, 0, 0⟩)), (false, false, .allocate 8),
    (false, false, .release (some ⟨0, 0, 0⟩)), (false, false, .release (some ⟨1, 0, 0⟩)),
    (true, false, .resize (some ⟨1, 0, 0⟩) 1), (true, true, .resize (some ⟨1, 0, 0⟩) 3),
    (true, false, .resize (some ⟨1, 0, 0⟩) 3)]

theorem exact_of_exchangedCalls :
    let (log, last) :=
      attemptEach (emptyArenas (fun name => name.toNat) fun _ => none) exchangedCalls
    (∀ name index, reuses (under name log) index < 2 ^ 32) ∧
      InUse (under false log) ⟨0, 0, 1⟩ ∧ Retired (under false log) ⟨0, 0, 0⟩ ∧
      Kept (last false) ⟨1, 0, 0⟩ .corrupt ∧
      InUse (under true log) ⟨1, 1, 0⟩ ∧ Retired (under true log) ⟨1, 0, 0⟩ := by
  have hids : Function.Injective fun name : Bool => name.toNat := by decide
  have hfew : ∀ name index, reuses (under name (attemptEach
      (emptyArenas (fun name => name.toNat) fun _ => none) exchangedCalls).1) index < 2 ^ 32 := by
    intro name index
    apply Nat.lt_of_le_of_lt (reuses_le_length _ index)
    cases name <;> decide +kernel
  have hexact := exact_of_few_reuses hids (fun _ => none) exchangedCalls hfew
  obtain ⟨hfirst, hforeign⟩ := hexact false
  obtain ⟨hsecond, -⟩ := hexact true
  refine ⟨hfew, (hfirst.live_iff _).mp (by decide +kernel),
    (hfirst.freed_iff _).mp (by decide +kernel), hfirst.kept_of_not_issued _ ?_,
    (hsecond.live_iff _).mp (by decide +kernel), (hsecond.freed_iff _).mp (by decide +kernel)⟩
  rw [← hfirst.none_iff]
  exact hforeign true (by decide) _ (by decide +kernel)

end Arena

end RemoteMemory
