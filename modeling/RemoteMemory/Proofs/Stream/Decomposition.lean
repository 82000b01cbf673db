import Mathlib.Data.Nat.Init
import RemoteMemory.Bytes.Basic
import RemoteMemory.Header.Check
import RemoteMemory.Header.Codec
import RemoteMemory.Message

/-!
# Every byte string is a list of items and a tail

Read with a bound on size fields, bytes fall into items: a block of header size that is refused, or
one that is accepted with the payload that it announces. What is left is too short for an item. The
way in which a byte string falls apart is the only one, because the first block decides which kind
of item it starts and where the item ends.
-/

namespace RemoteMemory

def Bytes.join (parts : List ByteArray) : ByteArray :=
  parts.foldr (· ++ ·) ByteArray.empty

@[simp] theorem Bytes.join_nil : join [] = ByteArray.empty := rfl

theorem Bytes.join_cons (part : ByteArray) (parts : List ByteArray) :
    join (part :: parts) = part ++ join parts := rfl

theorem Bytes.join_append (parts others : List ByteArray) :
    join (parts ++ others) = join parts ++ join others := by
  induction parts with
  | nil => exact ByteArray.empty_append.symm
  | cons part parts ih => rw [List.cons_append, join_cons, join_cons, ih, ByteArray.append_assoc]

/-- What a reader makes of the next bytes. -/
inductive Item where
  | dropped (block : ByteArray)
  | request (block payload : ByteArray)

namespace Item

def bytes : Item → ByteArray
  | dropped block => block
  | request block payload => block ++ payload

def message? : Item → Option Message
  | dropped _ => none
  | request block payload => some ⟨.ofBytes block, payload⟩

/-- A refused block, or an accepted one with exactly the payload that it announces. -/
def Admissible (bound : UInt32) : Item → Prop
  | dropped block => block.size = Header.size ∧ (Header.ofBytes block).check bound ≠ .ok ()
  | request block payload => block.size = Header.size ∧
      (Header.ofBytes block).check bound = .ok () ∧
      payload.size = (Header.ofBytes block).payloadSize

end Item

/-- Too short for a header, or an accepted header with too short a payload. -/
def Incomplete (bound : UInt32) (tail : ByteArray) : Prop :=
  tail.size < Header.size ∨ ∃ block payload, tail = block ++ payload ∧ block.size = Header.size ∧
    (Header.ofBytes block).check bound = .ok () ∧
    payload.size < (Header.ofBytes block).payloadSize

structure Decomposition (bound : UInt32) (input : ByteArray) (items : List Item)
    (tail : ByteArray) : Prop where
  admissible : ∀ item ∈ items, item.Admissible bound
  incomplete : Incomplete bound tail
  input_eq : input = Bytes.join (items.map Item.bytes) ++ tail

namespace Decomposition

variable {bound : UInt32}

theorem cons {item : Item} {rest : ByteArray} {items : List Item} {tail : ByteArray}
    (hitem : item.Admissible bound) (h : Decomposition bound rest items tail) :
    Decomposition bound (item.bytes ++ rest) (item :: items) tail where
  admissible := List.forall_mem_cons.mpr ⟨hitem, h.admissible⟩
  incomplete := h.incomplete
  input_eq := by rw [h.input_eq, List.map_cons, Bytes.join_cons, ByteArray.append_assoc]

theorem nil {tail : ByteArray} (h : Incomplete bound tail) : Decomposition bound tail [] tail where
  admissible := List.forall_mem_nil _
  incomplete := h
  input_eq := ByteArray.empty_append.symm

theorem exists_of_input (bound : UInt32) (input : ByteArray) :
    ∃ items tail, Decomposition bound input items tail := by
  induction hn : input.size using Nat.strong_induction_on generalizing input with
  | _ n ih =>
      by_cases hshort : input.size < Header.size
      · exact ⟨[], input, nil (.inl hshort)⟩
      · -- The first block decides; the induction is on the bytes behind the item.
        have hpos : 0 < Header.size := by decide
        obtain ⟨block, rest, hinput, hblock⟩ := Bytes.exists_append_of_le (Nat.not_lt.mp hshort)
        subst hinput
        rw [ByteArray.size_append, hblock] at hn
        by_cases hcheck : (Header.ofBytes block).check bound = .ok ()
        · by_cases hpayload : rest.size < (Header.ofBytes block).payloadSize
          · exact ⟨[], _, nil (.inr ⟨block, rest, rfl, hblock, hcheck, hpayload⟩)⟩
          · obtain ⟨payload, behind, hrest, hsize⟩ :=
              Bytes.exists_append_of_le (Nat.not_lt.mp hpayload)
            subst hrest
            rw [ByteArray.size_append] at hn
            obtain ⟨items, tail, h⟩ := ih behind.size (by omega) behind rfl
            have hitem : (Item.request block payload).Admissible bound := ⟨hblock, hcheck, hsize⟩
            rw [← ByteArray.append_assoc]
            exact ⟨_, tail, h.cons hitem⟩
        · obtain ⟨items, tail, h⟩ := ih rest.size (by omega) rest rfl
          have hitem : (Item.dropped block).Admissible bound := ⟨hblock, hcheck⟩
          exact ⟨_, tail, h.cons hitem⟩

end Decomposition

/-! ## There is no other way -/

namespace Item

variable {bound : UInt32}

def block : Item → ByteArray
  | dropped block => block
  | request block _ => block

theorem Admissible.size_block {item : Item} (h : item.Admissible bound) :
    item.block.size = Header.size := by
  cases item with
  | dropped block => exact h.1
  | request block payload => exact h.1

/-- Nothing that starts with an admissible item is incomplete. -/
theorem Admissible.not_incomplete {item : Item} (h : item.Admissible bound) (rest : ByteArray) :
    ¬ Incomplete bound (item.bytes ++ rest) := by
  rintro (hshort | ⟨front, back, heq, hfront, hcheck, hpayload⟩)
  · have hsize := h.size_block
    cases item <;> simp only [bytes, block, ByteArray.size_append] at hshort hsize <;> omega
  · cases item with
    | dropped block =>
        obtain ⟨hblock, hrefused⟩ := h
        obtain ⟨rfl, -⟩ := Bytes.append_inj (hblock.trans hfront.symm) heq
        exact hrefused hcheck
    | request block payload =>
        obtain ⟨hblock, -, hsize⟩ := h
        rw [bytes, ByteArray.append_assoc] at heq
        obtain ⟨rfl, rfl⟩ := Bytes.append_inj (hblock.trans hfront.symm) heq
        rw [ByteArray.size_append] at hpayload
        omega

/-- Two inputs that start with admissible items are equal only if the items are. -/
theorem Admissible.eq_of_append_eq {item item' : Item} {rest rest' : ByteArray}
    (h : item.Admissible bound) (h' : item'.Admissible bound)
    (heq : item.bytes ++ rest = item'.bytes ++ rest') : item = item' ∧ rest = rest' := by
  have hblock := h.size_block.trans h'.size_block.symm
  cases item with
  | dropped block =>
      cases item' with
      | dropped block' =>
          obtain ⟨rfl, hrest⟩ := Bytes.append_inj hblock heq
          exact ⟨rfl, hrest⟩
      | request block' payload' =>
          rw [bytes, bytes, ByteArray.append_assoc] at heq
          obtain ⟨rfl, -⟩ := Bytes.append_inj hblock heq
          exact absurd h'.2.1 h.2
  | request block payload =>
      cases item' with
      | dropped block' =>
          rw [bytes, bytes, ByteArray.append_assoc] at heq
          obtain ⟨rfl, -⟩ := Bytes.append_inj hblock heq
          exact absurd h.2.1 h'.2
      | request block' payload' =>
          rw [bytes, bytes, ByteArray.append_assoc, ByteArray.append_assoc] at heq
          obtain ⟨rfl, hbehind⟩ := Bytes.append_inj hblock heq
          obtain ⟨rfl, hrest⟩ := Bytes.append_inj (h.2.2.trans h'.2.2.symm) hbehind
          exact ⟨rfl, hrest⟩

end Item

namespace Decomposition

variable {bound : UInt32} {input tail tail' : ByteArray}

theorem eq_bytes_append {item : Item} {items : List Item}
    (h : Decomposition bound input (item :: items) tail) :
    input = item.bytes ++ (Bytes.join (items.map Item.bytes) ++ tail) := by
  rw [h.input_eq, List.map_cons, Bytes.join_cons, ByteArray.append_assoc]

theorem tail_of_cons {item : Item} {items : List Item}
    (h : Decomposition bound input (item :: items) tail) :
    Decomposition bound (Bytes.join (items.map Item.bytes) ++ tail) items tail where
  admissible := fun other hmem => h.admissible other (List.mem_cons_of_mem _ hmem)
  incomplete := h.incomplete
  input_eq := rfl

theorem unique {items items' : List Item} (h : Decomposition bound input items tail)
    (h' : Decomposition bound input items' tail') : items = items' ∧ tail = tail' := by
  induction items generalizing input items' with
  | nil =>
      have hinput : input = tail := h.input_eq.trans ByteArray.empty_append
      cases items' with
      | nil => exact ⟨rfl, hinput.symm.trans (h'.input_eq.trans ByteArray.empty_append)⟩
      | cons item' rest' =>
          refine absurd h.incomplete ?_
          rw [← hinput, h'.eq_bytes_append]
          exact (h'.admissible item' List.mem_cons_self).not_incomplete _
  | cons item rest ih =>
      have hitem := h.admissible item List.mem_cons_self
      cases items' with
      | nil =>
          have hinput : input = tail' := h'.input_eq.trans ByteArray.empty_append
          refine absurd h'.incomplete ?_
          rw [← hinput, h.eq_bytes_append]
          exact hitem.not_incomplete _
      | cons item' rest' =>
          have hitem' := h'.admissible item' List.mem_cons_self
          obtain ⟨rfl, hbehind⟩ :=
            hitem.eq_of_append_eq hitem' (h.eq_bytes_append.symm.trans h'.eq_bytes_append)
          have hrest := h'.tail_of_cons
          rw [← hbehind] at hrest
          obtain ⟨rfl, rfl⟩ := ih h.tail_of_cons hrest
          exact ⟨rfl, rfl⟩

end Decomposition

end RemoteMemory
