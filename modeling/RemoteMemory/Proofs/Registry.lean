import RemoteMemory.Registry
import Mathlib.Data.List.Perm.Basic
import Mathlib.Data.UInt

/-!
# Registries hold each number once

The invariant of a registry is that its numbers are distinct, lie strictly between 0 and the next
one, and are no more than the limit. Under it an entry can be looked up exactly when it is listed,
and the list splits into the entry of a number and the list without that number.
-/

namespace RemoteMemory.Registry

variable {α : Type}

structure WellNumbered (registry : Registry α) : Prop where
  nodup : (registry.entries.map Prod.fst).Nodup
  next_pos : 0 < registry.next
  bounds : ∀ pair ∈ registry.entries, 0 < pair.1 ∧ pair.1 < registry.next
  size_le : registry.size ≤ registry.limit

theorem wellNumbered_empty (limit : Nat) :
    ({ limit := limit } : Registry α).WellNumbered where
  nodup := List.nodup_nil
  next_pos := UInt64.zero_lt_one
  bounds := by simp
  size_le := Nat.zero_le _

theorem isFull_iff {registry : Registry α} :
    registry.isFull = true ↔ registry.limit ≤ registry.size ∨ registry.next = lastNumber := by
  simp [isFull]

theorem isFull_eq_false_iff {registry : Registry α} :
    registry.isFull = false ↔ registry.size < registry.limit ∧ registry.next ≠ lastNumber := by
  simp [isFull]

theorem eq_lastNumber_iff {number : UInt64} : number = lastNumber ↔ number.toNat = 2 ^ 64 - 1 :=
  UInt64.toNat_inj.symm

theorem ne_lastNumber_iff {number : UInt64} : number ≠ lastNumber ↔ number.toNat < 2 ^ 64 - 1 := by
  have hlt := number.toNat_lt
  rw [ne_eq, eq_lastNumber_iff]
  omega

/-! ## Lookup and the list of entries -/

theorem mem_of_get? {registry : Registry α} {number : UInt64} {entry : α}
    (h : registry.get? number = some entry) : (number, entry) ∈ registry.entries := by
  unfold get? at h
  obtain ⟨pair, hfind, rfl⟩ := Option.map_eq_some_iff.mp h
  have hnumber : pair.1 = number := by simpa using List.find?_some hfind
  rw [← hnumber]
  exact List.mem_of_find?_eq_some hfind

/-- Taking a number out of a list of distinct numbers takes out exactly its entry. -/
theorem perm_cons_filter {entries : List (UInt64 × α)} {number : UInt64} {entry : α}
    (hn : (entries.map Prod.fst).Nodup) (hm : (number, entry) ∈ entries) :
    entries.Perm ((number, entry) :: entries.filter fun pair => pair.1 != number) := by
  induction entries with
  | nil => cases hm
  | cons pair rest ih =>
      rw [List.map_cons, List.nodup_cons] at hn
      by_cases hp : pair.1 = number
      · have hrest : ∀ other ∈ rest, other.1 ≠ number := by
          intro other hother heq
          exact hn.1 (hp ▸ heq ▸ List.mem_map_of_mem hother)
        have hpair : (number, entry) = pair := by
          rcases List.mem_cons.mp hm with heq | htail
          · exact heq
          · exact absurd rfl (hrest _ htail)
        have hkeep : rest.filter (fun other => other.1 != number) = rest :=
          List.filter_eq_self.mpr fun other hother => by simpa using hrest other hother
        subst hpair
        simp [hkeep]
      · have htail : (number, entry) ∈ rest := by
          rcases List.mem_cons.mp hm with heq | htail
          · exact absurd (congrArg Prod.fst heq).symm hp
          · exact htail
        have hkeep : (pair :: rest).filter (fun other => other.1 != number)
            = pair :: rest.filter (fun other => other.1 != number) := by
          simp [hp]
        rw [hkeep]
        exact ((ih hn.2 htail).cons pair).trans (List.Perm.swap _ _ _)

theorem WellNumbered.perm_cons_erase {registry : Registry α} (h : registry.WellNumbered)
    {number : UInt64} {entry : α} (hget : registry.get? number = some entry) :
    registry.entries.Perm ((number, entry) :: (registry.erase number).entries) :=
  perm_cons_filter h.nodup (mem_of_get? hget)

theorem WellNumbered.get?_eq_some_iff {registry : Registry α} (h : registry.WellNumbered)
    {number : UInt64} {entry : α} :
    registry.get? number = some entry ↔ (number, entry) ∈ registry.entries := by
  refine ⟨mem_of_get?, fun hm => ?_⟩
  have hsome : (registry.entries.find? fun pair => pair.1 == number).isSome := by
    rw [List.find?_isSome]
    exact ⟨_, hm, by simp⟩
  obtain ⟨pair, hpair⟩ := Option.isSome_iff_exists.mp hsome
  have hnumber : pair.1 = number := by simpa using List.find?_some hpair
  have hentry : pair = (number, entry) :=
    List.inj_on_of_nodup_map h.nodup (List.mem_of_find?_eq_some hpair) hm hnumber
  simp [get?, hpair, hentry]

theorem WellNumbered.get?_next {registry : Registry α} (h : registry.WellNumbered) :
    registry.get? registry.next = none := by
  rw [Option.eq_none_iff_forall_ne_some]
  intro entry hget
  exact absurd (h.bounds _ (mem_of_get? hget)).2 (UInt64.lt_irrefl _)

/-! ## Every operation keeps the invariant -/

theorem toNat_next_add_one {registry : Registry α} (h : registry.next ≠ lastNumber) :
    (registry.next + 1).toNat = registry.next.toNat + 1 := by
  have hlast := ne_lastNumber_iff.mp h
  rw [UInt64.toNat_add, UInt64.toNat_one]
  omega

theorem WellNumbered.add {registry : Registry α} (h : registry.WellNumbered)
    (hfull : registry.isFull = false) (entry : α) : (registry.add entry).WellNumbered := by
  obtain ⟨hsize, hlast⟩ := isFull_eq_false_iff.mp hfull
  have hnext : registry.next < registry.next + 1 := by
    rw [UInt64.lt_iff_toNat_lt, toNat_next_add_one hlast]
    exact Nat.lt_succ_self _
  refine ⟨?_, UInt64.lt_trans h.next_pos hnext, ?_, hsize⟩
  · change (registry.next :: registry.entries.map Prod.fst).Nodup
    refine List.nodup_cons.mpr ⟨fun hm => ?_, h.nodup⟩
    obtain ⟨pair, hpair, heq⟩ := List.mem_map.mp hm
    exact absurd (heq ▸ (h.bounds pair hpair).2) (UInt64.lt_irrefl _)
  · intro pair hpair
    rcases List.mem_cons.mp hpair with rfl | hold
    · exact ⟨h.next_pos, hnext⟩
    · exact ⟨(h.bounds pair hold).1, UInt64.lt_trans (h.bounds pair hold).2 hnext⟩

theorem WellNumbered.erase {registry : Registry α} (h : registry.WellNumbered)
    (number : UInt64) : (registry.erase number).WellNumbered where
  nodup := h.nodup.sublist (List.filter_sublist.map _)
  next_pos := h.next_pos
  bounds := fun pair hpair => h.bounds pair (List.mem_of_mem_filter hpair)
  size_le := Nat.le_trans (List.length_filter_le _ _) h.size_le

theorem map_fst_modify (registry : Registry α) (number : UInt64) (change : α → α) :
    (registry.modify number change).entries.map Prod.fst = registry.entries.map Prod.fst := by
  simp only [modify, List.map_map]
  refine List.map_congr_left fun pair _ => ?_
  by_cases hp : pair.1 = number <;> simp [hp]

theorem WellNumbered.modify {registry : Registry α} (h : registry.WellNumbered)
    (number : UInt64) (change : α → α) : (registry.modify number change).WellNumbered where
  nodup := (map_fst_modify registry number change) ▸ h.nodup
  next_pos := h.next_pos
  bounds := by
    intro pair hpair
    have hkey : pair.1 ∈ registry.entries.map Prod.fst := by
      rw [← map_fst_modify registry number change]
      exact List.mem_map_of_mem hpair
    obtain ⟨old, hold, heq⟩ := List.mem_map.mp hkey
    exact heq ▸ h.bounds old hold
  size_le := by
    change (registry.entries.map _).length ≤ registry.limit
    rw [List.length_map]
    exact h.size_le

/-- The entries of a changed registry are the changed entry and those of the other numbers. -/
theorem WellNumbered.perm_cons_modify {registry : Registry α} (h : registry.WellNumbered)
    {number : UInt64} {entry : α} (change : α → α) (hget : registry.get? number = some entry) :
    (registry.modify number change).entries.Perm
      ((number, change entry) :: (registry.erase number).entries) := by
  have hperm := (h.perm_cons_erase hget).map fun pair =>
    if pair.1 == number then (pair.1, change pair.2) else pair
  have hothers : (registry.erase number).entries.map (fun pair =>
      if pair.1 == number then (pair.1, change pair.2) else pair)
      = (registry.erase number).entries := by
    refine (List.map_congr_left fun pair hpair => ?_).trans (List.map_id _)
    have hne : pair.1 ≠ number := by simpa using List.of_mem_filter hpair
    simp [hne]
  rw [List.map_cons, hothers] at hperm
  simpa [Registry.modify] using hperm

/-- Forgetting every number in turn leaves nothing. -/
theorem entries_foldl_erase (registry : Registry α) (numbers : List UInt64) :
    (numbers.foldl erase registry).entries
      = registry.entries.filter fun pair => pair.1 ∉ numbers := by
  induction numbers generalizing registry with
  | nil => simp
  | cons number rest ih =>
      rw [List.foldl_cons, ih, erase, List.filter_filter]
      refine List.filter_congr fun pair _ => ?_
      by_cases hp : pair.1 = number <;> simp [hp]

theorem next_foldl_erase (registry : Registry α) (numbers : List UInt64) :
    (numbers.foldl erase registry).next = registry.next := by
  induction numbers generalizing registry with
  | nil => rfl
  | cons number rest ih => exact ih (registry.erase number)

/-! ## A registry whose entries are seen in part -/

/-- The same numbers, each with what can be seen of its entry. -/
def map {β : Type} (view : α → β) (registry : Registry α) : Registry β where
  limit := registry.limit
  next := registry.next
  entries := registry.entries.map fun pair => (pair.1, view pair.2)

section Map

variable {β : Type} (view : α → β)

@[simp] theorem size_map (registry : Registry α) : (registry.map view).size = registry.size :=
  List.length_map _

@[simp] theorem isFull_map (registry : Registry α) :
    (registry.map view).isFull = registry.isFull := by
  rw [isFull, isFull, size_map]
  rfl

@[simp] theorem get?_map (registry : Registry α) (number : UInt64) :
    (registry.map view).get? number = (registry.get? number).map view := by
  unfold get? map
  rw [List.find?_map, Option.map_map, Option.map_map]
  rfl

@[simp] theorem map_add (registry : Registry α) (entry : α) :
    (registry.add entry).map view = (registry.map view).add (view entry) := rfl

@[simp] theorem map_erase (registry : Registry α) (number : UInt64) :
    (registry.erase number).map view = (registry.map view).erase number := by
  simp [map, erase, List.filter_map, Function.comp_def]

/-- A change that cannot be seen. -/
theorem map_modify_of_view_eq {view : α → β} (registry : Registry α) (number : UInt64)
    {change : α → α} (h : ∀ entry, view (change entry) = view entry) :
    (registry.modify number change).map view = registry.map view := by
  have hentries : (registry.modify number change).entries.map (fun pair => (pair.1, view pair.2)) =
      registry.entries.map fun pair => (pair.1, view pair.2) := by
    rw [modify, List.map_map]
    refine List.map_congr_left fun pair _ => ?_
    by_cases hp : pair.1 = number <;> simp [hp, h]
  exact congrArg (Registry.mk registry.limit registry.next) hentries

end Map

end RemoteMemory.Registry
