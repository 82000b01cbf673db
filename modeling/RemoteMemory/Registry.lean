/-!
# Registries

A registry numbers what is put into it 1, 2, 3, and so on, and never gives a number twice. It
refuses a new entry when it holds as many as its limit allows, or when the numbers run out; a
refusal changes nothing and skips no number.
-/

namespace RemoteMemory

/-- Numbered entries, the newest first. -/
structure Registry (α : Type) where
  limit : Nat
  next : UInt64 := 1
  entries : List (UInt64 × α) := []
  deriving DecidableEq

namespace Registry

variable {α : Type}

/-- The number that is never issued, because no number comes after it. -/
def lastNumber : UInt64 := 0xFFFFFFFFFFFFFFFF

def size (registry : Registry α) : Nat :=
  registry.entries.length

def isEmpty (registry : Registry α) : Bool :=
  registry.entries.isEmpty

def isFull (registry : Registry α) : Bool :=
  decide (registry.limit ≤ registry.size) || registry.next == lastNumber

def add (registry : Registry α) (entry : α) : Registry α :=
  { registry with
    next := registry.next + 1
    entries := (registry.next, entry) :: registry.entries }

def store (registry : Registry α) (entry : α) : Option UInt64 × Registry α :=
  if registry.isFull then (none, registry) else (some registry.next, registry.add entry)

def get? (registry : Registry α) (number : UInt64) : Option α :=
  (registry.entries.find? fun pair => pair.1 == number).map Prod.snd

def erase (registry : Registry α) (number : UInt64) : Registry α :=
  { registry with entries := registry.entries.filter fun pair => pair.1 != number }

/-- Take out the entry of a number; the result is whether there was one. -/
def remove (registry : Registry α) (number : UInt64) : Bool × Registry α :=
  ((registry.get? number).isSome, registry.erase number)

def modify (registry : Registry α) (number : UInt64) (change : α → α) : Registry α :=
  { registry with
    entries := registry.entries.map fun pair =>
      if pair.1 == number then (pair.1, change pair.2) else pair }

theorem store_of_isFull {registry : Registry α} (h : registry.isFull = true) (entry : α) :
    registry.store entry = (none, registry) := by
  simp [store, h]

theorem store_of_not_isFull {registry : Registry α} (h : registry.isFull = false) (entry : α) :
    registry.store entry = (some registry.next, registry.add entry) := by
  simp [store, h]

@[simp] theorem size_add (registry : Registry α) (entry : α) :
    (registry.add entry).size = registry.size + 1 := rfl

@[simp] theorem get?_add_self (registry : Registry α) (entry : α) :
    (registry.add entry).get? registry.next = some entry := by
  simp [get?, add]

theorem get?_add_of_ne (registry : Registry α) (entry : α) {number : UInt64}
    (h : number ≠ registry.next) : (registry.add entry).get? number = registry.get? number := by
  simp [get?, add, Ne.symm h]

@[simp] theorem get?_erase_self (registry : Registry α) (number : UInt64) :
    (registry.erase number).get? number = none := by
  simp [get?, erase, List.find?_eq_none]

theorem get?_erase_of_ne (registry : Registry α) {number other : UInt64} (h : other ≠ number) :
    (registry.erase number).get? other = registry.get? other := by
  unfold get? erase
  rw [List.find?_filter]
  congr 2
  funext pair
  by_cases hp : pair.1 = other
  · simp [hp, h]
  · simp [hp]

theorem get?_modify_self (registry : Registry α) (number : UInt64) (change : α → α) :
    (registry.modify number change).get? number = (registry.get? number).map change := by
  unfold get? modify
  induction registry.entries with
  | nil => rfl
  | cons pair rest ih =>
    by_cases hp : pair.1 = number
    · simp [hp]
    · simpa [hp] using ih

theorem get?_modify_of_ne (registry : Registry α) {number other : UInt64} (change : α → α)
    (h : other ≠ number) : (registry.modify number change).get? other = registry.get? other := by
  unfold get? modify
  induction registry.entries with
  | nil => rfl
  | cons pair rest ih =>
    by_cases hp : pair.1 = number
    · simpa [hp, Ne.symm h] using ih
    · by_cases ho : pair.1 = other
      · subst ho
        simp [hp]
      · simpa [hp, ho] using ih

end Registry

end RemoteMemory
