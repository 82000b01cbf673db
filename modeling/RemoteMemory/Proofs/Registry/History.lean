import RemoteMemory.Proofs.Registry
import RemoteMemory.Proofs.Since

/-!
# What the history of a registry says

A run is any sequence of entries put in, numbers looked up and numbers taken out, with any numbers.
Each call leaves an event behind, the call together with what was answered. The history tells what a
registry holds: the entries that were given a number which was not taken out since. The numbers
given are 1, 2, 3, and so on without a gap, whatever is refused or taken out in between, and a
number that was taken out never comes back.
-/

namespace RemoteMemory.Registry

variable {α : Type}

inductive Call (α : Type) where
  | store (entry : α)
  | lookup (number : UInt64)
  | remove (number : UInt64)

inductive Event (α : Type) where
  | store (entry : α) (number? : Option UInt64)
  | lookup (number : UInt64) (found? : Option α)
  | remove (number : UInt64) (found : Bool)

def perform (registry : Registry α) : Call α → Event α × Registry α
  | .store entry =>
    let (number?, after) := registry.store entry
    (.store entry number?, after)
  | .lookup number => (.lookup number (registry.get? number), registry)
  | .remove number =>
    let (found, after) := registry.remove number
    (.remove number found, after)

def performAll (registry : Registry α) : List (Call α) → List (Event α) × Registry α
  | [] => ([], registry)
  | call :: rest =>
    let (event, registry) := registry.perform call
    let (events, last) := registry.performAll rest
    (event :: events, last)

def Event.issued? : Event α → Option (UInt64 × α)
  | .store entry (some number) => some (number, entry)
  | _ => none

def Event.erased? : Event α → Option UInt64
  | .remove number true => some number
  | _ => none

def issued (history : List (Event α)) : List (UInt64 × α) :=
  history.filterMap Event.issued?

def erased (history : List (Event α)) : List UInt64 :=
  history.filterMap Event.erased?

/-- Put in under a number, and not taken out since. -/
def Held (history : List (Event α)) (number : UInt64) (entry : α) : Prop :=
  Since (fun event => event.issued? = some (number, entry))
    (fun event => event.erased? = some number) history

variable {registry : Registry α} {history : List (Event α)} {event : Event α}

theorem issued_concat (history : List (Event α)) (event : Event α) :
    issued (history ++ [event]) = issued history ++ event.issued?.toList :=
  filterMap_concat Event.issued? history event

theorem erased_concat (history : List (Event α)) (event : Event α) :
    erased (history ++ [event]) = erased history ++ event.erased?.toList :=
  filterMap_concat Event.erased? history event

theorem held_concat_iff {number : UInt64} {entry : α} :
    Held (history ++ [event]) number entry ↔ event.issued? = some (number, entry) ∨
      Held history number entry ∧ event.erased? ≠ some number :=
  since_concat_iff

theorem erase_eq_self {number : UInt64} (h : registry.get? number = none) :
    registry.erase number = registry := by
  have hall : ∀ pair ∈ registry.entries, pair.1 ≠ number := by simpa [get?] using h
  have hkeep : registry.entries.filter (fun pair => pair.1 != number) = registry.entries :=
    List.filter_eq_self.mpr fun pair hpair => by simpa using hall pair hpair
  rw [erase, hkeep]

/-! ## What a registry keeps of its history -/

structure Chronicle (registry : Registry α) (history : List (Event α)) : Prop where
  wellNumbered : registry.WellNumbered
  next_eq : registry.next.toNat = (issued history).length + 1
  numbers_eq : (issued history).map (fun pair => pair.1.toNat) =
    List.range' 1 (issued history).length
  get?_iff : ∀ number entry, registry.get? number = some entry ↔ Held history number entry
  gone : ∀ number ∈ erased history, number < registry.next ∧ registry.get? number = none
  size_eq : registry.size + (erased history).length = (issued history).length

theorem chronicle_empty (limit : Nat) : Chronicle ({ limit := limit } : Registry α) [] where
  wellNumbered := wellNumbered_empty limit
  next_eq := rfl
  numbers_eq := rfl
  get?_iff number entry := by
    constructor
    · intro h
      cases h
    · intro h
      exact absurd h not_since_nil
  gone number hnumber := by cases hnumber
  size_eq := rfl

/-- A call that puts nothing in and takes nothing out. -/
theorem Chronicle.keep (h : Chronicle registry history) (hissued : event.issued? = none)
    (herased : event.erased? = none) : Chronicle registry (history ++ [event]) := by
  have hputs : issued (history ++ [event]) = issued history := by simp [issued_concat, hissued]
  have htakes : erased (history ++ [event]) = erased history := by simp [erased_concat, herased]
  constructor
  · exact h.wellNumbered
  · rw [hputs]
    exact h.next_eq
  · rw [hputs]
    exact h.numbers_eq
  · intro number entry
    simp [held_concat_iff, hissued, herased, h.get?_iff]
  · rw [htakes]
    exact h.gone
  · rw [hputs, htakes]
    exact h.size_eq

/-- The next number is given, which was never given before. -/
theorem Chronicle.add (h : Chronicle registry history) (hfull : registry.isFull = false)
    (entry : α) :
    Chronicle (registry.add entry) (history ++ [.store entry (some registry.next)]) := by
  have hputs : issued (history ++ [.store entry (some registry.next)]) =
      issued history ++ [(registry.next, entry)] := issued_concat _ _
  have htakes : erased (history ++ [.store entry (some registry.next)]) = erased history := by
    simp [erased_concat, Event.erased?]
  have hafter : (registry.next + 1).toNat = registry.next.toNat + 1 :=
    toNat_next_add_one (isFull_eq_false_iff.mp hfull).2
  have hnext := h.next_eq
  constructor
  · exact h.wellNumbered.add hfull entry
  · rw [hputs, List.length_append]
    exact hafter.trans (congrArg (· + 1) hnext)
  · have hnumber : registry.next.toNat = 1 + (issued history).length := by omega
    rw [hputs, List.map_append, h.numbers_eq, List.length_append, List.length_singleton,
      List.range'_1_concat, ← hnumber]
    rfl
  · intro number found
    rw [held_concat_iff, ← h.get?_iff]
    by_cases hsame : number = registry.next
    · subst hsame
      simp [Event.issued?, h.wellNumbered.get?_next]
    · simp [Event.issued?, Event.erased?, get?_add_of_ne _ _ hsame, Ne.symm hsame]
  · rw [htakes]
    intro number hnumber
    obtain ⟨hlt, hnone⟩ := h.gone number hnumber
    have hless : registry.next < registry.next + 1 := by
      rw [UInt64.lt_iff_toNat_lt, hafter]
      exact Nat.lt_succ_self _
    refine ⟨UInt64.lt_trans hlt hless, ?_⟩
    rwa [get?_add_of_ne _ _ (UInt64.ne_of_lt hlt)]
  · have hsize := h.size_eq
    rw [hputs, htakes, List.length_append, List.length_singleton, size_add]
    omega

theorem Chronicle.erase (h : Chronicle registry history) {number : UInt64} {entry : α}
    (hget : registry.get? number = some entry) :
    Chronicle (registry.erase number) (history ++ [.remove number true]) := by
  have hputs : issued (history ++ [.remove number true]) = issued history := by
    simp [issued_concat, Event.issued?]
  have htakes : erased (history ++ [.remove number true]) = erased history ++ [number] :=
    erased_concat _ _
  constructor
  · exact h.wellNumbered.erase number
  · rw [hputs]
    exact h.next_eq
  · rw [hputs]
    exact h.numbers_eq
  · intro other found
    rw [held_concat_iff, ← h.get?_iff]
    by_cases hsame : other = number
    · subst hsame
      simp [Event.issued?, Event.erased?]
    · simp [Event.issued?, Event.erased?, get?_erase_of_ne _ hsame, Ne.symm hsame]
  · rw [htakes]
    intro other hother
    by_cases hsame : other = number
    · subst hsame
      exact ⟨(h.wellNumbered.bounds _ (mem_of_get? hget)).2, get?_erase_self _ _⟩
    · rw [get?_erase_of_ne _ hsame]
      exact h.gone other (by simpa [hsame] using hother)
  · have hsize := h.size_eq
    have hlength : registry.size = (registry.erase number).size + 1 :=
      (h.wellNumbered.perm_cons_erase hget).length_eq
    rw [hputs, htakes, List.length_append, List.length_singleton]
    omega

theorem Chronicle.perform (h : Chronicle registry history) (call : Call α) :
    Chronicle (registry.perform call).2 (history ++ [(registry.perform call).1]) := by
  cases call with
  | store entry =>
      cases hfull : registry.isFull with
      | true =>
          rw [Registry.perform, store_of_isFull hfull]
          exact h.keep rfl rfl
      | false =>
          rw [Registry.perform, store_of_not_isFull hfull]
          exact h.add hfull entry
  | lookup number => exact h.keep rfl rfl
  | remove number =>
      cases hget : registry.get? number with
      | none =>
          rw [Registry.perform, Registry.remove, hget, erase_eq_self hget]
          exact h.keep rfl rfl
      | some entry =>
          rw [Registry.perform, Registry.remove, hget]
          exact h.erase hget

theorem Chronicle.performAll (h : Chronicle registry history) (calls : List (Call α)) :
    Chronicle (registry.performAll calls).2 (history ++ (registry.performAll calls).1) := by
  induction calls generalizing registry history with
  | nil => simpa [Registry.performAll] using h
  | cons call rest ih =>
      have hrest := ih (h.perform call)
      rwa [← List.append_cons] at hrest

theorem limit_perform (registry : Registry α) (call : Call α) :
    (registry.perform call).2.limit = registry.limit := by
  cases call with
  | store entry =>
      cases hfull : registry.isFull with
      | true => rw [perform, store_of_isFull hfull]
      | false =>
          rw [perform, store_of_not_isFull hfull]
          rfl
  | lookup number => rfl
  | remove number => rfl

theorem limit_performAll (registry : Registry α) (calls : List (Call α)) :
    (registry.performAll calls).2.limit = registry.limit := by
  induction calls generalizing registry with
  | nil => rfl
  | cons call rest ih => exact (ih _).trans (limit_perform registry call)

/-! ## Answers -/

/-- What a registry with a limit answers and lists, by its history. -/
structure Accurate (limit : Nat) (registry : Registry α) (history : List (Event α)) : Prop where
  numbers_eq : (issued history).map (fun pair => pair.1.toNat) =
    List.range' 1 (issued history).length
  next_eq : registry.next.toNat = (issued history).length + 1
  store_eq_none_iff : ∀ entry, (registry.store entry).1 = none ↔
    limit ≤ registry.size ∨ registry.next.toNat = 2 ^ 64 - 1
  eq_of_store_eq_none : ∀ entry, (registry.store entry).1 = none →
    (registry.store entry).2 = registry
  eq_next_of_store : ∀ entry number, (registry.store entry).1 = some number →
    number = registry.next
  get?_iff : ∀ number entry, registry.get? number = some entry ↔ Held history number entry
  get?_zero : registry.get? 0 = none
  get?_of_erased : ∀ number ∈ erased history, registry.get? number = none
  remove_iff : ∀ number, (registry.remove number).1 = true ↔ ∃ entry, Held history number entry
  get?_remove : ∀ number other, (registry.remove number).2.get? other =
    if other = number then none else registry.get? other
  size_eq : registry.size + (erased history).length = (issued history).length
  size_le : registry.size ≤ limit
  nodup_entries : (registry.entries.map Prod.fst).Nodup
  mem_entries_iff : ∀ number entry,
    (number, entry) ∈ registry.entries ↔ Held history number entry

theorem Chronicle.accurate (h : Chronicle registry history) :
    Accurate registry.limit registry history where
  numbers_eq := h.numbers_eq
  next_eq := h.next_eq
  store_eq_none_iff entry := by
    rw [← eq_lastNumber_iff, ← isFull_iff]
    cases hfull : registry.isFull with
    | true => simp [store_of_isFull hfull]
    | false => simp [store_of_not_isFull hfull]
  eq_of_store_eq_none entry hnone := by
    cases hfull : registry.isFull with
    | true => rw [store_of_isFull hfull]
    | false => simp [store_of_not_isFull hfull] at hnone
  eq_next_of_store entry number hsome := by
    cases hfull : registry.isFull with
    | true => simp [store_of_isFull hfull] at hsome
    | false => simpa [store_of_not_isFull hfull, eq_comm] using hsome
  get?_iff := h.get?_iff
  get?_zero := by
    rw [Option.eq_none_iff_forall_ne_some]
    intro entry hget
    exact UInt64.lt_irrefl 0 (h.wellNumbered.bounds _ (mem_of_get? hget)).1
  get?_of_erased number hnumber := (h.gone number hnumber).2
  remove_iff number := by
    simp only [← h.get?_iff]
    exact Option.isSome_iff_exists
  get?_remove number other := by
    split
    next heq => rw [heq, remove, get?_erase_self]
    next hne => exact get?_erase_of_ne registry hne
  size_eq := h.size_eq
  size_le := h.wellNumbered.size_le
  nodup_entries := h.wellNumbered.nodup
  mem_entries_iff number entry := by rw [← h.get?_iff, h.wellNumbered.get?_eq_some_iff]

/-- After any calls a registry answers by its history. Its successful stores gave the numbers 1, 2,
3, and so on. A store is refused exactly when the registry is at its limit or the next number is the
last one there is, and then nothing changes. A number is found exactly when it was given and not
taken out since, with the entry that it was given for; 0 is never found, nor is a number after it
was taken out. Taking out a number succeeds exactly when it would be found and touches no other. The
size is the number of entries put in less those taken out, at most the limit, and the list of
entries has each number that is found once. -/
theorem accurate_of_performAll (limit : Nat) (calls : List (Call α)) :
    let (history, last) := ({ limit := limit } : Registry α).performAll calls
    Accurate limit last history := by
  have hchronicle := (chronicle_empty limit).performAll calls
  have hlimit := limit_performAll ({ limit := limit } : Registry α) calls
  have haccurate := hchronicle.accurate
  rwa [hlimit] at haccurate

example : (({ limit := 1 } : Registry Char).performAll
      [.store 'a', .store 'b', .remove 1, .store 'c', .remove 1, .lookup 1, .lookup 2]).1 =
    [.store 'a' (some 1), .store 'b' none, .remove 1 true, .store 'c' (some 2), .remove 1 false,
      .lookup 1 none, .lookup 2 (some 'c')] := rfl

end RemoteMemory.Registry
