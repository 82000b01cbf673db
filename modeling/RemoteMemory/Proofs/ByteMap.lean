import RemoteMemory.Proofs.Registry
import Mathlib.Algebra.BigOperators.Group.Multiset.Basic
import Mathlib.Data.Finmap

/-!
# Finite maps from numbers to byte strings

The plainest memory there is: some numbers are bound, each to a byte string or another value. A map
follows a registry when it binds the numbers that the registry holds to what the entries are viewed
as; each change of a registry is then a change of the map.
-/

namespace RemoteMemory

/-- Values by number. -/
abbrev NumberMap (β : Type) :=
  Finmap fun _ : UInt64 => β

abbrev ByteMap := NumberMap ByteArray

def ByteMap.total (map : ByteMap) : Nat :=
  (map.entries.map fun entry => entry.2.size).sum

namespace NumberMap

variable {α β : Type} {map : NumberMap β} {registry : Registry α} {view : α → β}

def count (map : NumberMap β) : Nat :=
  map.entries.card

theorem entries_of_lookup {number : UInt64} {value : β} (h : map.lookup number = some value) :
    map.entries = ⟨number, value⟩ ::ₘ (map.erase number).entries := by
  have hinsert : (map.erase number).insert number value = map := by
    refine Finmap.ext_lookup fun other => ?_
    by_cases heq : other = number
    · subst heq
      rw [Finmap.lookup_insert, h]
    · rw [Finmap.lookup_insert_of_ne _ heq, Finmap.lookup_erase_ne heq]
  rw [← Finmap.entries_insert_of_notMem Finmap.notMem_erase_self, hinsert]

theorem erase_insert (map : NumberMap β) (number : UInt64) (value : β) :
    (map.insert number value).erase number = map.erase number := by
  refine Finmap.ext_lookup fun other => ?_
  by_cases heq : other = number
  · subst heq
    rw [Finmap.lookup_erase, Finmap.lookup_erase]
  · rw [Finmap.lookup_erase_ne heq, Finmap.lookup_erase_ne heq, Finmap.lookup_insert_of_ne _ heq]

theorem entries_insert (map : NumberMap β) (number : UInt64) (value : β) :
    (map.insert number value).entries = ⟨number, value⟩ ::ₘ (map.erase number).entries := by
  rw [entries_of_lookup (Finmap.lookup_insert map), erase_insert]

theorem entries_erase_of_notMem {number : UInt64} (h : number ∉ map) (value : β) :
    ((map.insert number value).erase number).entries = map.entries := by
  have hboth := entries_insert map number value
  rw [Finmap.entries_insert_of_notMem h] at hboth
  rw [erase_insert]
  exact ((Multiset.cons_inj_right _).mp hboth).symm

def binding (view : α → β) (pair : UInt64 × α) : (_ : UInt64) × β :=
  ⟨pair.1, view pair.2⟩

def bindings (view : α → β) (entries : List (UInt64 × α)) : Multiset ((_ : UInt64) × β) :=
  ↑(entries.map (binding view))

/-- The map binds what the registry holds, as it is viewed. -/
def Follows (map : NumberMap β) (registry : Registry α) (view : α → β) : Prop :=
  map.entries = bindings view registry.entries

theorem bindings_of_perm {entries others : List (UInt64 × α)} (h : entries.Perm others) :
    bindings view entries = bindings view others :=
  Multiset.coe_eq_coe.mpr (h.map _)

theorem bindings_congr {view' : α → β} {entries : List (UInt64 × α)}
    (h : ∀ pair ∈ entries, view' pair.2 = view pair.2) :
    bindings view' entries = bindings view entries := by
  have hmap : entries.map (binding view') = entries.map (binding view) :=
    List.map_congr_left fun pair hpair => by rw [binding, binding, h pair hpair]
  rw [bindings, bindings, hmap]

/-- The numbers of a registry being distinct, some map follows it. -/
theorem exists_follows (hr : registry.WellNumbered) (view : α → β) :
    ∃ map, Follows map registry view := by
  refine ⟨⟨bindings view registry.entries, ?_⟩, rfl⟩
  rw [bindings, Multiset.coe_nodupKeys, List.NodupKeys, List.keys, List.map_map]
  exact hr.nodup

theorem Follows.count_eq (h : Follows map registry view) : map.count = registry.size := by
  rw [count, h, bindings, Multiset.coe_card, List.length_map]
  rfl

theorem Follows.total_eq {map : ByteMap} {view : α → ByteArray} (h : Follows map registry view) :
    map.total = (registry.entries.map fun pair => (view pair.2).size).sum := by
  rw [ByteMap.total, h, bindings, Multiset.map_coe, Multiset.sum_coe, List.map_map]
  rfl

theorem Follows.lookup_eq (h : Follows map registry view) (hr : registry.WellNumbered)
    (number : UInt64) : map.lookup number = (registry.get? number).map view := by
  refine Option.ext fun value => ?_
  rw [Finmap.lookup_eq_some_iff, h, Option.map_eq_some_iff, bindings, Multiset.mem_coe,
    List.mem_map]
  constructor
  · rintro ⟨pair, hpair, heq⟩
    cases heq
    exact ⟨pair.2, hr.get?_eq_some_iff.mpr hpair, rfl⟩
  · rintro ⟨entry, hget, rfl⟩
    exact ⟨_, Registry.mem_of_get? hget, rfl⟩

theorem Follows.notMem_next (h : Follows map registry view) (hr : registry.WellNumbered) :
    registry.next ∉ map := by
  rw [← Finmap.lookup_eq_none, h.lookup_eq hr, hr.get?_next]
  rfl

theorem Follows.congr (h : Follows map registry view) {view' : α → β}
    (heq : ∀ pair ∈ registry.entries, view' pair.2 = view pair.2) :
    Follows map registry view' :=
  h.trans (bindings_congr heq).symm

theorem Follows.add (h : Follows map registry view) (hr : registry.WellNumbered) (entry : α) :
    Follows (map.insert registry.next (view entry)) (registry.add entry) view := by
  change (map.insert registry.next (view entry)).entries = _
  rw [Finmap.entries_insert_of_notMem (h.notMem_next hr), h]
  rfl

theorem Follows.bindings_erase (h : Follows map registry view) (hr : registry.WellNumbered)
    {number : UInt64} {entry : α} (hget : registry.get? number = some entry) :
    (map.erase number).entries = bindings view (registry.erase number).entries := by
  have hlookup : map.lookup number = some (view entry) := by rw [h.lookup_eq hr, hget]; rfl
  have hboth : (⟨number, view entry⟩ : (_ : UInt64) × β) ::ₘ (map.erase number).entries
      = ⟨number, view entry⟩ ::ₘ bindings view (registry.erase number).entries := by
    rw [← entries_of_lookup hlookup, h, bindings_of_perm (hr.perm_cons_erase hget)]
    rfl
  exact (Multiset.cons_inj_right _).mp hboth

theorem Follows.erase (h : Follows map registry view) (hr : registry.WellNumbered)
    {number : UInt64} {entry : α} (hget : registry.get? number = some entry) :
    Follows (map.erase number) (registry.erase number) view :=
  h.bindings_erase hr hget

/-- One entry is seen with other bytes; the others are seen as before. -/
theorem Follows.insert_of_view (h : Follows map registry view) (hr : registry.WellNumbered)
    {number : UInt64} {entry : α} (hget : registry.get? number = some entry)
    {view' : α → β}
    (hothers : ∀ pair ∈ (registry.erase number).entries, view' pair.2 = view pair.2) :
    Follows (map.insert number (view' entry)) registry view' := by
  change (map.insert number (view' entry)).entries = _
  rw [entries_insert, h.bindings_erase hr hget, ← bindings_congr hothers,
    bindings_of_perm (hr.perm_cons_erase hget)]
  rfl

/-- One entry is changed. -/
theorem Follows.modify (h : Follows map registry view) (hr : registry.WellNumbered)
    {number : UInt64} {entry : α} (hget : registry.get? number = some entry) (change : α → α) :
    Follows (map.insert number (view (change entry))) (registry.modify number change) view := by
  change (map.insert number (view (change entry))).entries = _
  rw [entries_insert, h.bindings_erase hr hget,
    bindings_of_perm (hr.perm_cons_modify change hget)]
  rfl

/-- A change that cannot be seen. -/
theorem Follows.modify_of_view_eq (h : Follows map registry view) (number : UInt64)
    {change : α → α} (hview : ∀ entry, view (change entry) = view entry) :
    Follows map (registry.modify number change) view := by
  have hbindings : (registry.modify number change).entries.map (binding view) =
      registry.entries.map (binding view) := by
    rw [Registry.modify, List.map_map]
    refine List.map_congr_left fun pair _ => ?_
    by_cases heq : pair.1 = number <;> simp [binding, heq, hview]
  rw [Follows, bindings, hbindings]
  exact h

end NumberMap

end RemoteMemory
