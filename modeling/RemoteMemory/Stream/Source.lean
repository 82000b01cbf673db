import RemoteMemory.Bytes.Basic
import RemoteMemory.Error

/-!
# Sources

A source is a byte string with a position, and what happens when it runs out: the stream ends, or
it fails. Reading takes exactly the number of bytes asked for. Whether a read that comes up short
waits for more, ends the stream or fails is left to the reader, so a short read is `none` and takes
nothing.
-/

namespace RemoteMemory

/-- What a read meets once every byte has been taken. -/
inductive Ending where
  | closed
  | fault
  deriving DecidableEq, Repr

/-- Bytes to be read, of which the first `position` have been. -/
structure Source where
  bytes : ByteArray
  position : Nat := 0
  ending : Ending := .closed
  position_le : position ≤ bytes.size := by exact Nat.zero_le _

namespace Source

def ofBytes (bytes : ByteArray) (ending : Ending) : Source where
  bytes := bytes
  ending := ending

def left (source : Source) : Nat :=
  source.bytes.size - source.position

def unread (source : Source) : ByteArray :=
  source.bytes.extract source.position source.bytes.size

def take? (source : Source) (count : Nat) : Option (ByteArray × Source) :=
  if h : count ≤ source.left then
    some (source.bytes.extract source.position (source.position + count),
      { source with
        position := source.position + count
        position_le := by
          have := source.position_le
          simp only [left] at h
          omega })
  else none

def exhaust (source : Source) : Source :=
  { source with position := source.bytes.size, position_le := Nat.le_refl _ }

def feed (source : Source) (more : ByteArray) : Source where
  bytes := source.unread ++ more
  ending := source.ending

/-- What a read reports that runs out of bytes: the peer has left, or the stream failed. -/
def shortage (source : Source) : Error :=
  match source.ending with
  | .closed => .connectionClosed
  | .fault => .network .read

/-- Two places of one stream. -/
structure SameStream (source other : Source) : Prop where
  bytes_eq : source.bytes = other.bytes
  ending_eq : source.ending = other.ending

@[simp] theorem size_unread (source : Source) : source.unread.size = source.left := by
  simp [unread, left]

@[simp] theorem left_exhaust (source : Source) : source.exhaust.left = 0 :=
  Nat.sub_self _

theorem take?_eq_none_iff {source : Source} {count : Nat} :
    source.take? count = none ↔ source.left < count := by
  unfold take?
  split <;> simp <;> omega

theorem size_of_take? {source rest : Source} {count : Nat} {taken : ByteArray}
    (h : source.take? count = some (taken, rest)) : taken.size = count := by
  unfold take? at h
  split at h
  case isTrue hle =>
    cases h
    have := source.position_le
    have hle : count ≤ source.bytes.size - source.position := hle
    simp
    omega
  case isFalse => cases h

theorem left_of_take? {source rest : Source} {count : Nat} {taken : ByteArray}
    (h : source.take? count = some (taken, rest)) : source.left = count + rest.left := by
  unfold take? at h
  split at h
  case isTrue hle =>
    cases h
    have hle : count ≤ source.bytes.size - source.position := hle
    simp only [left]
    omega
  case isFalse => cases h

/-- What was taken and what is left make up what was unread. -/
theorem unread_of_take? {source rest : Source} {count : Nat} {taken : ByteArray}
    (h : source.take? count = some (taken, rest)) : source.unread = taken ++ rest.unread := by
  unfold take? at h
  split at h
  case isTrue hle =>
    cases h
    have := source.position_le
    have hle : count ≤ source.bytes.size - source.position := hle
    exact ByteArray.extract_eq_extract_append_extract _ (Nat.le_add_right _ _) (by omega)
  case isFalse => cases h

theorem SameStream.trans {source middle other : Source} (h : source.SameStream middle)
    (h' : middle.SameStream other) : source.SameStream other :=
  ⟨h.bytes_eq.trans h'.bytes_eq, h.ending_eq.trans h'.ending_eq⟩

theorem sameStream_of_take? {source rest : Source} {count : Nat} {taken : ByteArray}
    (h : source.take? count = some (taken, rest)) : source.SameStream rest := by
  unfold take? at h
  split at h
  case isTrue => cases h; exact ⟨rfl, rfl⟩
  case isFalse => cases h

/-- What stands in front of the unread bytes can be taken. -/
theorem take?_of_unread {source : Source} {front back : ByteArray}
    (h : source.unread = front ++ back) :
    ∃ rest, source.take? front.size = some (front, rest) ∧ rest.unread = back ∧
      source.SameStream rest := by
  cases htake : source.take? front.size with
  | none =>
      have hshort := take?_eq_none_iff.mp htake
      rw [← size_unread, h, ByteArray.size_append] at hshort
      omega
  | some pair =>
      obtain ⟨taken, rest⟩ := pair
      have hunread := (unread_of_take? htake).symm.trans h
      obtain ⟨rfl, hrest⟩ := Bytes.append_inj (size_of_take? htake) hunread
      exact ⟨rest, rfl, hrest, sameStream_of_take? htake⟩

@[simp] theorem unread_ofBytes (bytes : ByteArray) (ending : Ending) :
    (ofBytes bytes ending).unread = bytes :=
  ByteArray.extract_zero_size

@[simp] theorem unread_feed (source : Source) (more : ByteArray) :
    (source.feed more).unread = source.unread ++ more :=
  ByteArray.extract_zero_size

end Source

end RemoteMemory
