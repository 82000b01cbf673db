import RemoteMemory.Proofs.Arena.Holdings
import RemoteMemory.Proofs.Since
import Mathlib.Data.List.DropRight

/-!
# What a history says of a region

The history of an arena is the list of its events, the oldest first. It tells which regions were
handed out, and which of these were given back later: by a release, by a resize to nothing, or by a
resize that moved the block. A resize in place does neither. The blocks that are live after a run
are those of the regions in use, also when generations have started over.
-/

namespace RemoteMemory

namespace Arena

def Event.issued? : Event → Option Region
  | .allocate _ (.ok region) => some region
  | .resize none _ (.ok (some region)) => some region
  | .resize (some region) _ (.ok (some moved)) => if moved = region then none else some moved
  | _ => none

def Event.vacated? : Event → Option Region
  | .release (some region) (.ok ()) => some region
  | .resize (some region) _ (.ok none) => some region
  | .resize (some region) _ (.ok (some moved)) => if moved = region then none else some region
  | _ => none

def issued (history : List Event) : List Region :=
  history.filterMap Event.issued?

def vacated (history : List Event) : List Region :=
  history.filterMap Event.vacated?

def Event.isReset : Event → Bool
  | .resetStats => true
  | _ => false

/-- The events since the counters were last cleared. -/
def sinceReset (history : List Event) : List Event :=
  history.rtakeWhile fun event => !event.isReset

/-- Handed out, and not taken back since. -/
def InUse (history : List Event) (region : Region) : Prop :=
  ∃ before event after, history = before ++ event :: after ∧ event.issued? = some region ∧
    ∀ later ∈ after, later.vacated? ≠ some region

/-- Handed out, and taken back since. -/
def Retired (history : List Event) (region : Region) : Prop :=
  ∃ before event after, history = before ++ event :: after ∧ event.issued? = some region ∧
    ∃ later ∈ after, later.vacated? = some region

def placements (history : List Event) (index : Nat) : Nat :=
  (issued history).countP fun region => region.index = index

/-- How often a slot was given another block after its first. -/
def reuses (history : List Event) (index : Nat) : Nat :=
  placements history index - 1

variable {history : List Event} {event : Event} {region : Region}

theorem mem_issued_iff :
    region ∈ issued history ↔
      ∃ before event after, history = before ++ event :: after ∧ event.issued? = some region := by
  rw [issued, List.mem_filterMap]
  constructor
  · rintro ⟨event, hmem, hissued⟩
    obtain ⟨before, after, rfl⟩ := List.append_of_mem hmem
    exact ⟨before, event, after, rfl, hissued⟩
  · rintro ⟨before, event, after, rfl, hissued⟩
    exact ⟨event, by simp, hissued⟩

theorem Retired.mem_issued (h : Retired history region) : region ∈ issued history := by
  obtain ⟨before, event, after, hsplit, hissued, -⟩ := h
  exact mem_issued_iff.mpr ⟨before, event, after, hsplit, hissued⟩

theorem inUse_or_retired (h : region ∈ issued history) :
    InUse history region ∨ Retired history region := by
  obtain ⟨before, event, after, hsplit, hissued⟩ := mem_issued_iff.mp h
  by_cases hback : ∃ later ∈ after, later.vacated? = some region
  · exact .inr ⟨before, event, after, hsplit, hissued, hback⟩
  · refine .inl ⟨before, event, after, hsplit, hissued, ?_⟩
    simpa using hback

/-! ## One more event -/

theorem issued_concat (history : List Event) (event : Event) :
    issued (history ++ [event]) = issued history ++ event.issued?.toList :=
  filterMap_concat Event.issued? history event

theorem vacated_concat (history : List Event) (event : Event) :
    vacated (history ++ [event]) = vacated history ++ event.vacated?.toList :=
  filterMap_concat Event.vacated? history event

theorem sinceReset_concat (history : List Event) (event : Event) :
    sinceReset (history ++ [event]) =
      if event.isReset then [] else sinceReset history ++ [event] := by
  by_cases hreset : event.isReset
  · rw [if_pos hreset]
    exact List.rtakeWhile_concat_neg _ _ _ (by simp [hreset])
  · rw [if_neg hreset]
    exact List.rtakeWhile_concat_pos _ _ _ (by simp [hreset])

theorem inUse_concat_iff :
    InUse (history ++ [event]) region ↔
      event.issued? = some region ∨ InUse history region ∧ event.vacated? ≠ some region :=
  since_concat_iff

theorem Retired.of_concat (h : Retired (history ++ [event]) region) :
    Retired history region ∨ region ∈ issued history ∧ event.vacated? = some region := by
  obtain ⟨before, point, after, hsplit, hissued, later, hlater, hback⟩ := h
  rcases concat_eq_split_iff.mp hsplit with ⟨-, -, rfl⟩ | ⟨rest, hrest, rfl⟩
  · cases hlater
  rcases List.mem_append.mp hlater with hold | hnew
  · exact .inl ⟨before, point, rest, hrest, hissued, later, hold, hback⟩
  · rw [List.mem_singleton.mp hnew] at hback
    exact .inr ⟨mem_issued_iff.mpr ⟨before, point, rest, hrest, hissued⟩, hback⟩

/-- A region that was never handed out twice is not in use after it was taken back. -/
theorem Retired.not_inUse (hretired : Retired history region) (hnodup : (issued history).Nodup) :
    ¬ InUse history region := by
  induction history using List.reverseRecOn with
  | nil =>
      obtain ⟨before, point, after, hsplit, -⟩ := hretired
      simp at hsplit
  | append_singleton history event ih =>
      rw [issued_concat] at hnodup
      obtain ⟨hbefore, -, hnew⟩ := List.nodup_append.mp hnodup
      -- The last event does not hand the region out again.
      have honce : region ∈ issued history → event.issued? ≠ some region := by
        intro hmem hissued
        exact hnew region hmem region (by simp [hissued]) rfl
      rw [inUse_concat_iff]
      rintro (hissued | ⟨huse, hkept⟩)
      · rcases hretired.of_concat with hold | ⟨hmem, -⟩
        · exact honce hold.mem_issued hissued
        · exact honce hmem hissued
      · rcases hretired.of_concat with hold | ⟨-, hback⟩
        · exact ih hold hbefore huse
        · exact hkept hback

theorem retired_iff (hnodup : (issued history).Nodup) :
    Retired history region ↔ region ∈ issued history ∧ ¬ InUse history region := by
  constructor
  · intro h
    exact ⟨h.mem_issued, h.not_inUse hnodup⟩
  · rintro ⟨hmem, hnot⟩
    exact (inUse_or_retired hmem).resolve_left hnot

theorem reuses_append_le (history more : List Event) (index : Nat) :
    reuses history index ≤ reuses (history ++ more) index := by
  unfold reuses placements issued
  rw [List.filterMap_append, List.countP_append]
  omega

/-! ## Resizing as allocation and as release -/

section Resize

variable (size newSize : Nat)

@[simp] theorem issued?_allocate (result : Except Error Region) :
    (Event.allocate size result).issued? = result.toOption := by
  cases result <;> rfl

@[simp] theorem issued?_resize_none (result : Except Error Region) :
    (Event.resize none newSize (result.map some)).issued? = result.toOption := by
  cases result <;> rfl

@[simp] theorem vacated?_resize_none (result : Except Error Region) :
    (Event.resize none newSize (result.map some)).vacated? = none := by
  cases result <;> rfl

@[simp] theorem vacated?_release (result : Except Error Unit) :
    (Event.release (some region) result).vacated? = result.toOption.map fun _ => region := by
  cases result <;> rfl

@[simp] theorem issued?_resize_zero (result : Except Error Unit) :
    (Event.resize (some region) newSize (result.map fun _ => none)).issued? = none := by
  cases result <;> rfl

@[simp] theorem vacated?_resize_zero (result : Except Error Unit) :
    (Event.resize (some region) newSize (result.map fun _ => none)).vacated? =
      result.toOption.map fun _ => region := by
  cases result <;> rfl

end Resize

/-! ## The regions in use are those that are held -/

section Machine

variable {limit : Option Nat} {choice : Holdings.Choice} {holdings : Holdings} {refused : Bool}
  {other : Region}

theorem mem_allocate_iff (size : Nat) :
    other ∈ (holdings.allocate limit choice refused size).2 ↔
      (holdings.allocate limit choice refused size).1.toOption = some other ∨
        other ∈ holdings := by
  unfold Holdings.allocate
  repeat' split
  all_goals simp [Except.toOption, Finmap.mem_insert, eq_comm]

theorem mem_release_iff :
    other ∈ (holdings.release choice (some region)).2 ↔
      other ∈ holdings ∧
        (holdings.release choice (some region)).1.toOption.map (fun _ => region) ≠ some other := by
  unfold Holdings.release
  dsimp only
  split
  all_goals simp [Except.toOption, Finmap.mem_erase, eq_comm, and_comm]

theorem mem_insert_of_mem {held : Holding} (h : region ∈ holdings) :
    other ∈ holdings.insert region held ↔ other ∈ holdings := by
  rw [Finmap.mem_insert, or_iff_right_iff_imp]
  rintro rfl
  exact h

theorem mem_write_iff (data : ByteArray) :
    other ∈ (holdings.write region data).2 ↔ other ∈ holdings := by
  unfold Holdings.write
  split
  · rfl
  next held hheld =>
    split
    · exact mem_insert_of_mem (Finmap.mem_of_lookup_eq_some hheld)
    · rfl

/-- Resizing in place neither adds nor removes a region; moving a block does both. -/
theorem mem_resizeTo_iff (allowed : choice.Allowed holdings) (newSize : Nat) :
    let (result, after) := holdings.resizeTo limit choice refused region newSize
    other ∈ after ↔
      (Event.resize (some region) newSize result).issued? = some other ∨
        other ∈ holdings ∧ (Event.resize (some region) newSize result).vacated? ≠ some other := by
  unfold Holdings.resizeTo
  cases hheld : holdings.lookup region with
  | none => simp [Event.issued?, Event.vacated?]
  | some held =>
      have hmem := Finmap.mem_of_lookup_eq_some hheld
      have hne : choice.fresh ≠ region := fun heq => allowed.fresh_notMem (heq ▸ hmem)
      dsimp only
      split_ifs
      · simp [Event.issued?, Event.vacated?, mem_insert_of_mem hmem]
      · simp [Event.issued?, Event.vacated?, Finmap.mem_insert, Finmap.mem_erase, hne,
          eq_comm, and_comm]
      · simp [Event.issued?, Event.vacated?]

/-- A call adds to the held regions the one that it hands out, and takes away the one that it takes
back. -/
theorem mem_attempt_iff (limit : Option Nat) (allowed : choice.Allowed holdings) (refused : Bool)
    (call : Call) (other : Region) :
    let (event, after) := holdings.attempt limit choice refused call
    other ∈ after ↔
      event.issued? = some other ∨ other ∈ holdings ∧ event.vacated? ≠ some other := by
  cases call with
  | allocate size => simpa [Holdings.attempt, Event.vacated?] using mem_allocate_iff size
  | release region? =>
      cases region? with
      | none => simp [Holdings.attempt, Holdings.release, Event.issued?, Event.vacated?]
      | some region => simpa [Holdings.attempt, Event.issued?] using mem_release_iff
  | resize region? newSize =>
      cases region? with
      | none => simpa [Holdings.attempt, Holdings.resize] using mem_allocate_iff newSize
      | some region =>
          cases newSize with
          | zero => simpa [Holdings.attempt, Holdings.resize] using mem_release_iff
          | succ size => exact mem_resizeTo_iff allowed (size + 1)
  | write region data =>
      simpa [Holdings.attempt, Event.issued?, Event.vacated?] using mem_write_iff data
  | read region buffer => simp [Holdings.attempt, Event.issued?, Event.vacated?]
  | view region => simp [Holdings.attempt, Event.issued?, Event.vacated?]
  | resetStats => simp [Holdings.attempt, Event.issued?, Event.vacated?]

end Machine

def LiveInUse (arena : Arena) (history : List Event) : Prop :=
  ∀ region, (∃ block, (region, block) ∈ arena.blocks) ↔ InUse history region

variable {arena : Arena}

theorem liveInUse_empty (id : Nat) (limit : Option Nat) :
    LiveInUse { id := id, limit := limit } [] := by
  intro region
  simp [InUse, blocks, Slot.listing]

theorem mem_holdings_iff_mem_blocks :
    region ∈ arena.holdings ↔ ∃ block, (region, block) ∈ arena.blocks := by
  simp only [mem_holdings_iff, block?_eq_some_iff]

theorem LiveInUse.attempt (h : LiveInUse arena history) (hsound : arena.Sound) (refused : Bool)
    (call : Call) :
    LiveInUse (arena.attempt refused call).2 (history ++ [(arena.attempt refused call).1]) := by
  intro region
  have hmachine :=
    mem_attempt_iff arena.limit (hsound.allowed_choice call.region?) refused call region
  rw [← hsound.holdings_attempt] at hmachine
  dsimp only at hmachine
  rw [inUse_concat_iff, ← h, ← mem_holdings_iff_mem_blocks, ← mem_holdings_iff_mem_blocks]
  exact hmachine

/-- What each call keeps of an arena and its history, a run keeps. -/
theorem Sound.history_induction (P : Arena → List Event → Prop)
    (hstep : ∀ {arena history}, P arena history → arena.Sound → ∀ refused call,
      P (arena.attempt refused call).2 (history ++ [(arena.attempt refused call).1]))
    (hsound : arena.Sound) (h : P arena history) (attempts : List (Bool × Call)) :
    P (arena.attemptAll attempts).2 (history ++ (arena.attemptAll attempts).1) := by
  induction attempts generalizing arena history with
  | nil =>
      change P arena (history ++ [])
      rwa [List.append_nil]
  | cons entry rest ih =>
      have hrest := ih (hsound.attempt entry.1 entry.2) (hstep h hsound entry.1 entry.2)
      rwa [List.append_assoc] at hrest

theorem LiveInUse.attemptAll (h : LiveInUse arena history) (hsound : arena.Sound)
    (attempts : List (Bool × Call)) :
    LiveInUse (arena.attemptAll attempts).2 (history ++ (arena.attemptAll attempts).1) :=
  hsound.history_induction LiveInUse LiveInUse.attempt h attempts

end Arena

end RemoteMemory
