/-!
# Byte strings

Zero-filled byte strings and the ways a byte string changes: its start or a range in its middle is
overwritten, or a range is cleared. Sizes are compared before anything is sliced, so no offset
outside the string reaches a slice.
-/

namespace RemoteMemory

namespace Bytes

def appendZeros (start : ByteArray) : Nat → ByteArray
  | 0 => start
  | count + 1 => appendZeros (start.push 0) count

def zeros (size : Nat) : ByteArray :=
  appendZeros (ByteArray.emptyWithCapacity size) size

/-- Replace the first `data.size` bytes of `base`; all of `data` when `base` is shorter. -/
def overwrite (base data : ByteArray) : ByteArray :=
  data ++ base.extract data.size base.size

def overwriteAt (base : ByteArray) (offset : Nat) (data : ByteArray) : ByteArray :=
  base.extract 0 offset ++ data ++ base.extract (offset + data.size) base.size

def clearRange (base : ByteArray) (start stop : Nat) : ByteArray :=
  base.extract 0 start ++ zeros (stop - start) ++ base.extract stop base.size

theorem size_appendZeros (start : ByteArray) (count : Nat) :
    (appendZeros start count).size = start.size + count := by
  induction count generalizing start with
  | zero => rfl
  | succ count ih => simp [appendZeros, ih]; omega

@[simp] theorem size_zeros (size : Nat) : (zeros size).size = size := by
  rw [zeros, size_appendZeros]
  exact Nat.zero_add size

theorem data_appendZeros (start : ByteArray) (count : Nat) :
    (appendZeros start count).data = start.data ++ Array.replicate count 0 := by
  induction count generalizing start with
  | zero => simp [appendZeros]
  | succ count ih =>
    rw [appendZeros, ih, ByteArray.data_push, Array.replicate_succ', Array.push_eq_append,
      Array.append_assoc]

theorem zeros_eq_replicate (size : Nat) : zeros size = ⟨Array.replicate size 0⟩ := by
  apply ByteArray.ext
  rw [zeros, data_appendZeros]
  exact Array.empty_append

theorem size_overwrite {base data : ByteArray} (h : data.size ≤ base.size) :
    (overwrite base data).size = base.size := by
  simp [overwrite]
  omega

theorem size_clearRange {base : ByteArray} {start stop : Nat} (hs : start ≤ stop)
    (he : stop ≤ base.size) : (clearRange base start stop).size = base.size := by
  simp [clearRange]
  omega

theorem exists_append_of_le {bytes : ByteArray} {count : Nat} (h : count ≤ bytes.size) :
    ∃ front back, bytes = front ++ back ∧ front.size = count := by
  refine ⟨bytes.extract 0 count, bytes.extract count bytes.size, ?_, ?_⟩
  · rw [ByteArray.extract_append_extract, Nat.min_eq_left (Nat.zero_le _), Nat.max_eq_right h,
      ByteArray.extract_zero_size]
  · rw [ByteArray.size_extract, Nat.sub_zero, Nat.min_eq_left h]

theorem eq_empty_of_isEmpty {bytes : ByteArray} (h : bytes.isEmpty = true) :
    bytes = ByteArray.empty :=
  ByteArray.size_eq_zero_iff.mp (eq_of_beq h)

theorem append_inj {front front' back back' : ByteArray} (hsize : front.size = front'.size)
    (h : front ++ back = front' ++ back') : front = front' ∧ back = back' := by
  have hfront := ByteArray.append_inj_left h hsize
  subst hfront
  exact ⟨rfl, (ByteArray.append_right_inj front).mp h⟩

theorem extract_zero_of_le {bytes : ByteArray} {stop : Nat} (h : bytes.size ≤ stop) :
    bytes.extract 0 stop = bytes := by
  rw [← Nat.max_eq_left h]
  exact ByteArray.extract_zero_max_size

theorem extract_zero_min_size (bytes : ByteArray) (stop : Nat) :
    bytes.extract 0 (min stop bytes.size) = bytes.extract 0 stop := by
  rcases Nat.le_total stop bytes.size with h | h
  · rw [Nat.min_eq_left h]
  · rw [Nat.min_eq_right h, ByteArray.extract_zero_size, extract_zero_of_le h]

theorem extract_zero_append (front back : ByteArray) (stop : Nat) :
    (front ++ back).extract 0 stop = front.extract 0 stop ++ back.extract 0 (stop - front.size) := by
  rw [ByteArray.extract_append, Nat.zero_sub]

theorem extract_zeros (size start : Nat) :
    (zeros size).extract start size = zeros (size - start) := by
  apply ByteArray.ext
  simp [zeros_eq_replicate, Array.extract_replicate]

theorem extract_zero_overwrite {base data : ByteArray} {stop : Nat} (hdata : data.size ≤ stop)
    (hstop : stop ≤ base.size) :
    (overwrite base data).extract 0 stop = data ++ base.extract data.size stop := by
  have hstart : data.size + (0 - data.size) = data.size := by omega
  have hend : min (data.size + (stop - data.size)) base.size = stop := by omega
  rw [overwrite, ByteArray.extract_append, extract_zero_of_le hdata, ByteArray.extract_extract,
    hstart, hend]

theorem extract_zero_clearRange {base : ByteArray} {start stop : Nat} (hs : start ≤ stop)
    (he : stop ≤ base.size) :
    (clearRange base start stop).extract 0 stop = base.extract 0 start ++ zeros (stop - start) := by
  apply ByteArray.extract_append_eq_left
  rw [ByteArray.size_append, ByteArray.size_extract, size_zeros]
  omega

end Bytes

end RemoteMemory
