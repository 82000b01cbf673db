import RemoteMemory.Proofs.Arena.Operations
import Mathlib.Logic.Function.Basic

/-!
# Runs of an arena

A run is any sequence of calls with any arguments: sizes, regions that are live, stale, foreign or
made up, and data of any length. The system may refuse any of them the memory that it asks for. Each
call leaves an event behind, the call together with what was answered. What the operations of a
single step keep, every call keeps; soundness is such a property, so all that is said of sound
arenas holds along every run from an empty one. Several arenas side by side do not touch each other.
-/

namespace RemoteMemory

namespace Arena

inductive Call where
  | allocate (size : Nat)
  | release (region? : Option Region)
  | resize (region? : Option Region) (newSize : Nat)
  | write (region : Region) (data : ByteArray)
  | read (region : Region) (buffer : ByteArray)
  | view (region : Region)
  | resetStats

def Call.region? : Call → Option Region
  | .release region? => region?
  | .resize region? _ => region?
  | .write region _ => some region
  | .read region _ => some region
  | .view region => some region
  | .allocate _ => none
  | .resetStats => none

inductive Event where
  | allocate (size : Nat) (result : Except Error Region)
  | release (region? : Option Region) (result : Except Error Unit)
  | resize (region? : Option Region) (newSize : Nat) (result : Except Error (Option Region))
  | write (region : Region) (data : ByteArray) (result : Except Error Unit)
  | read (region : Region) (buffer : ByteArray) (result : Except Error Unit) (filled : ByteArray)
  | view (region : Region) (result : Except Error ByteArray)
  | resetStats

/-- Make a call to which the system may refuse memory. -/
def attempt (arena : Arena) (refused : Bool) : Call → Event × Arena
  | .allocate size =>
    let (result, after) := arena.allocate refused size
    (.allocate size result, after)
  | .release region? =>
    let (result, after) := arena.release region?
    (.release region? result, after)
  | .resize region? newSize =>
    let (result, after) := arena.resize refused region? newSize
    (.resize region? newSize result, after)
  | .write region data =>
    let (result, after) := arena.write region data
    (.write region data result, after)
  | .read region buffer =>
    let (result, filled) := arena.readInto region buffer
    (.read region buffer result filled, arena)
  | .view region => (.view region (arena.view region), arena)
  | .resetStats => (.resetStats, arena.resetStats)

def attemptAll (arena : Arena) : List (Bool × Call) → List Event × Arena
  | [] => ([], arena)
  | (refused, call) :: rest =>
    let (event, arena) := arena.attempt refused call
    let (events, last) := arena.attemptAll rest
    (event :: events, last)

/-! ## Arenas side by side -/

section Each

variable {κ α : Type*} [DecidableEq κ]

def under (name : κ) (pairs : List (κ × α)) : List α :=
  pairs.filterMap fun pair => if pair.1 = name then some pair.2 else none

/-- Calls on arenas that have names, each on the arena it names. -/
def attemptEach (arenas : κ → Arena) : List (κ × Bool × Call) → List (κ × Event) × (κ → Arena)
  | [] => ([], arenas)
  | (name, refused, call) :: rest =>
    let (event, after) := (arenas name).attempt refused call
    let (events, last) := attemptEach (Function.update arenas name after) rest
    ((name, event) :: events, last)

/-- An arena among others goes through its own calls only. -/
theorem attemptEach_under (arenas : κ → Arena) (attempts : List (κ × Bool × Call)) (name : κ) :
    (under name (attemptEach arenas attempts).1, (attemptEach arenas attempts).2 name) =
      (arenas name).attemptAll (under name attempts) := by
  induction attempts generalizing arenas with
  | nil => rfl
  | cons entry rest ih =>
      obtain ⟨other, refused, call⟩ := entry
      have hrest := ih (Function.update arenas other ((arenas other).attempt refused call).2)
      by_cases heq : other = name
      · subst heq
        rw [Function.update_self] at hrest
        simp only [under, attemptEach, List.filterMap_cons, if_true, attemptAll]
        rw [← under, ← under, ← hrest]
      · rw [Function.update_of_ne (Ne.symm heq)] at hrest
        simp only [under, attemptEach, List.filterMap_cons, if_neg heq]
        exact hrest

end Each

/-! ## What no call changes -/

def nameplate (arena : Arena) : Nat × Option Nat :=
  (arena.id, arena.limit)

variable {arena : Arena}

@[simp] theorem nameplate_allocate (refused : Bool) (size : Nat) :
    (arena.allocate refused size).2.nameplate = arena.nameplate := by
  unfold allocate
  split
  · rfl
  split
  · rfl
  split
  · rfl
  split
  · rfl
  · split <;> rfl

@[simp] theorem nameplate_release (region? : Option Region) :
    (arena.release region?).2.nameplate = arena.nameplate := by
  unfold release
  repeat' split
  all_goals rfl

@[simp] theorem nameplate_write (region : Region) (data : ByteArray) :
    (arena.write region data).2.nameplate = arena.nameplate := by
  unfold write
  repeat' split
  all_goals rfl

/-- What writing and releasing leave alone is after a move as it is after its allocation. -/
theorem view_move {α : Type} (view : Arena → α)
    (hwrite : ∀ (arena : Arena) region data, view (arena.write region data).2 = view arena)
    (hrelease : ∀ (arena : Arena) region?, view (arena.release region?).2 = view arena)
    (refused : Bool) (region : Region) (newSize : Nat) :
    view (arena.move refused region newSize).2 = view (arena.allocate refused newSize).2 := by
  unfold move
  rcases hallocate : arena.allocate refused newSize with ⟨error | moved, placed⟩
  · rfl
  dsimp only
  cases placed.view region with
  | error error => rfl
  | ok contents =>
      have hwritten := hwrite placed moved (contents.extract 0 newSize)
      dsimp only
      generalize placed.write moved (contents.extract 0 newSize) = outcome at hwritten ⊢
      obtain ⟨error | _, written⟩ := outcome
      · exact hwritten
      · have hreleased := hrelease written (some region)
        dsimp only
        generalize written.release (some region) = outcome at hreleased ⊢
        obtain ⟨error | _, after⟩ := outcome
        · exact hreleased.trans hwritten
        · exact hreleased.trans hwritten

/-- A call leaves what writing, releasing and changing a block in place leave alone as it was, or
as an allocation leaves it. -/
theorem view_resize {α : Type} (view : Arena → α)
    (hset : ∀ (arena : Arena) index block?, view (arena.setBlock index block?) = view arena)
    (hwrite : ∀ (arena : Arena) region data, view (arena.write region data).2 = view arena)
    (hrelease : ∀ (arena : Arena) region?, view (arena.release region?).2 = view arena)
    (refused : Bool) (region? : Option Region) (newSize : Nat) :
    view (arena.resize refused region? newSize).2 = view arena ∨
      view (arena.resize refused region? newSize).2 = view (arena.allocate refused newSize).2 := by
  have hresizing := resizing_resize arena refused region? newSize
  generalize arena.resize refused region? newSize = resized at hresizing ⊢
  cases hresizing with
  | fresh => exact .inr rfl
  | empty region => exact .inl (hrelease arena (some region))
  | notLive => exact .inl rfl
  | within => exact .inl (hset arena _ _)
  | beyond => exact .inr (view_move view hwrite hrelease refused _ newSize)

theorem nameplate_attempt (refused : Bool) (call : Call) :
    (arena.attempt refused call).2.nameplate = arena.nameplate := by
  cases call with
  | allocate size => exact nameplate_allocate refused size
  | release region? => exact nameplate_release region?
  | resize region? newSize =>
      rcases view_resize nameplate (fun _ _ _ => rfl) (fun _ => nameplate_write)
        (fun _ => nameplate_release) refused region? newSize with h | h
      · exact h
      · exact h.trans (nameplate_allocate refused newSize)
  | write region data => exact nameplate_write region data
  | read region buffer => rfl
  | view region => rfl
  | resetStats => rfl

theorem nameplate_attemptAll (attempts : List (Bool × Call)) :
    (arena.attemptAll attempts).2.nameplate = arena.nameplate := by
  induction attempts generalizing arena with
  | nil => rfl
  | cons entry rest ih => exact ih.trans (nameplate_attempt entry.1 entry.2)

/-! ## Sound arenas -/

/-- Well formed, with as many slots as there are slot numbers at most. -/
structure Sound (arena : Arena) : Prop where
  wellFormed : arena.WellFormed
  slots_le : arena.slots.size ≤ slotLimit

theorem sound_empty (id : Nat) (limit : Option Nat) :
    ({ id := id, limit := limit } : Arena).Sound where
  wellFormed := wellFormed_empty id limit
  slots_le := Nat.zero_le _

/-- A sound arena has a slot for another block exactly when fewer are live than there are slot
numbers. -/
theorem Sound.exists_slot_iff (h : arena.Sound) :
    (arena.vacant ≠ [] ∨ arena.slots.size < slotLimit) ↔ arena.blocks.length < slotLimit := by
  refine ⟨fun hslot => ?_, h.wellFormed.exists_slot⟩
  have hslots := h.wellFormed.length_vacant_add
  have hle := h.slots_le
  rw [← List.length_pos_iff_ne_nil] at hslot
  omega

/-- An arena whose slots are as good as those of a sound one. -/
theorem Sound.of_size_eq {arena after : Arena} (h : arena.Sound) (hafter : after.WellFormed)
    (hsize : after.slots.size = arena.slots.size) : after.Sound where
  wellFormed := hafter
  slots_le := hsize ▸ h.slots_le

@[simp] theorem size_slots_setBlock (index : Nat) (block? : Option Block) :
    (arena.setBlock index block?).slots.size = arena.slots.size :=
  Array.size_modify

@[simp] theorem size_slots_write (region : Region) (data : ByteArray) :
    (arena.write region data).2.slots.size = arena.slots.size := by
  unfold write
  repeat' split
  all_goals simp

@[simp] theorem size_slots_release (region? : Option Region) :
    (arena.release region?).2.slots.size = arena.slots.size := by
  unfold release
  repeat' split
  all_goals simp [vacate]

theorem size_slots_allocate_le (h : arena.slots.size ≤ slotLimit) (refused : Bool) (size : Nat) :
    (arena.allocate refused size).2.slots.size ≤ slotLimit := by
  unfold allocate
  split
  · exact h
  split
  · exact h
  split
  · exact h
  split
  · change (arena.slots.modify _ _).size ≤ slotLimit
    rwa [Array.size_modify]
  · split
    · exact h
    next hroom =>
      change (arena.slots.push _).size ≤ slotLimit
      rw [Array.size_push]
      exact Nat.lt_of_not_le hroom

theorem Sound.allocate (h : arena.Sound) (refused : Bool) (size : Nat) :
    (arena.allocate refused size).2.Sound where
  wellFormed := h.wellFormed.allocate refused size
  slots_le := size_slots_allocate_le h.slots_le refused size

theorem Sound.release (h : arena.Sound) (region? : Option Region) :
    (arena.release region?).2.Sound := by
  refine h.of_size_eq ?_ (size_slots_release region?)
  rcases h.wellFormed.release_cases region? with ⟨result, hrelease⟩ |
    ⟨region, block, after, hrelease, hafter, -⟩
  · rw [hrelease]
    exact h.wellFormed
  · rw [hrelease]
    exact hafter

theorem Sound.write (h : arena.Sound) (region : Region) (data : ByteArray) :
    (arena.write region data).2.Sound :=
  h.of_size_eq (h.wellFormed.after_write region data) (size_slots_write region data)

theorem WellFormed.resizeWithin (h : arena.WellFormed) {region : Region} {block : Block}
    {newSize : Nat} (hmem : (region, block) ∈ arena.blocks) (hpos : 0 < newSize)
    (hle : newSize ≤ block.capacity) :
    (arena.setBlock region.index (some (block.resizeWithin newSize))).WellFormed ∧
      Replaced arena region block (block.resizeWithin newSize)
        (arena.setBlock region.index (some (block.resizeWithin newSize))) :=
  h.setBlock hmem ((h.wellSized _ hmem).resizeWithin hpos hle) rfl

theorem Sound.resetStats (h : arena.Sound) : arena.resetStats.Sound where
  wellFormed := ⟨h.wellFormed.nodup_vacant, h.wellFormed.mem_vacant_iff,
    h.wellFormed.length_vacant_add, h.wellFormed.wellSized, h.wellFormed.outstanding_eq⟩
  slots_le := h.slots_le

/-! ## What every call keeps -/

/-- A property of well-formed arenas that every operation of a single step keeps. -/
structure Stepwise (P : Arena → Prop) : Prop where
  wellFormed : ∀ {arena}, P arena → arena.WellFormed
  allocate : ∀ {arena}, P arena → ∀ refused size, P (arena.allocate refused size).2
  release : ∀ {arena}, P arena → ∀ region?, P (arena.release region?).2
  write : ∀ {arena}, P arena → ∀ region data, P (arena.write region data).2
  resizeWithin : ∀ {arena}, P arena → ∀ {region block newSize}, (region, block) ∈ arena.blocks →
    0 < newSize → newSize ≤ block.capacity →
    P (arena.setBlock region.index (some (block.resizeWithin newSize)))
  resetStats : ∀ {arena}, P arena → P arena.resetStats

namespace Stepwise

variable {P : Arena → Prop}

/-- A move is three such operations. -/
theorem move (hP : Stepwise P) (h : P arena) (refused : Bool) {region : Region} {block : Block}
    {newSize : Nat} (hmem : (region, block) ∈ arena.blocks) (hlt : block.capacity < newSize) :
    P (arena.move refused region newSize).2 := by
  rcases (hP.wellFormed h).move_cases refused hmem hlt with ⟨-, hmove⟩ |
    ⟨-, moved, placed, written, after, hallocate, hwrite, hrelease, hmove, -⟩
  · rw [hmove]
    exact h
  · have hplaced : P placed := by simpa [hallocate] using hP.allocate h refused newSize
    have hwritten : P written := by simpa [hwrite] using hP.write hplaced moved block.contents
    rw [hmove]
    simpa [hrelease] using hP.release hwritten (some region)

theorem resize (hP : Stepwise P) (h : P arena) (refused : Bool) (region? : Option Region)
    (newSize : Nat) : P (arena.resize refused region? newSize).2 := by
  have hresizing := resizing_resize arena refused region? newSize
  generalize arena.resize refused region? newSize = resized at hresizing ⊢
  cases hresizing with
  | fresh => exact hP.allocate h refused newSize
  | empty region => exact hP.release h (some region)
  | notLive => exact h
  | within hblock hpos hle => exact hP.resizeWithin h (block?_eq_some_iff.mp hblock) hpos hle
  | beyond hblock hlt => exact hP.move h refused (block?_eq_some_iff.mp hblock) hlt

theorem attempt (hP : Stepwise P) (h : P arena) (refused : Bool) (call : Call) :
    P (arena.attempt refused call).2 := by
  cases call with
  | allocate size => exact hP.allocate h refused size
  | release region? => exact hP.release h region?
  | resize region? newSize => exact hP.resize h refused region? newSize
  | write region data => exact hP.write h region data
  | read region buffer => exact h
  | view region => exact h
  | resetStats => exact hP.resetStats h

theorem attemptAll (hP : Stepwise P) (h : P arena) (attempts : List (Bool × Call)) :
    P (arena.attemptAll attempts).2 := by
  induction attempts generalizing arena with
  | nil => exact h
  | cons entry rest ih => exact ih (hP.attempt h entry.1 entry.2)

end Stepwise

theorem stepwise_sound : Stepwise Sound where
  wellFormed h := h.wellFormed
  allocate h := h.allocate
  release h := h.release
  write h := h.write
  resizeWithin h _ _ _ hmem hpos hle :=
    h.of_size_eq (h.wellFormed.resizeWithin hmem hpos hle).1 (size_slots_setBlock _ _)
  resetStats h := h.resetStats

theorem Sound.attempt (h : arena.Sound) (refused : Bool) (call : Call) :
    (arena.attempt refused call).2.Sound :=
  stepwise_sound.attempt h refused call

theorem Sound.attemptAll (h : arena.Sound) (attempts : List (Bool × Call)) :
    (arena.attemptAll attempts).2.Sound :=
  stepwise_sound.attemptAll h attempts

end Arena

end RemoteMemory
