import RemoteMemory.Proofs.Client.Turns
import RemoteMemory.Proofs.Registry.History

/-!
# What the history of a cache says

A run is any sequence of calls of a cache, with any tokens, sizes and data. Shadows aside, a cache
is a registry of handles and sizes, and its history is one of that registry. What the shadows hold
is told by the history too: a shadow is as many zeros as its block has bytes, overlaid by the data of
every update of its token, in order. Since a token is never given again, no update of another block
is among them, and since data that is too long is refused, no update reaches past the end.
-/

namespace RemoteMemory

/-! ## Strings written over one another -/

namespace Bytes

/-- Zeros with one string after another written over their start. -/
def overlaid (size : Nat) (writes : List ByteArray) : ByteArray :=
  writes.foldl overwrite (zeros size)

/-- The byte at a place: that of the last string to reach it, and 0 if none does. -/
def lastByte (writes : List ByteArray) (index : Nat) : UInt8 :=
  (writes.reverse.findSome? fun data => data.data[index]?).getD 0

variable {size index : Nat} {writes : List ByteArray} {base data : ByteArray}

theorem overlaid_concat (size : Nat) (writes : List ByteArray) (data : ByteArray) :
    overlaid size (writes ++ [data]) = overwrite (overlaid size writes) data :=
  List.foldl_concat _ _ _ _

theorem size_overlaid (h : ∀ data ∈ writes, data.size ≤ size) :
    (overlaid size writes).size = size := by
  induction writes using List.reverseRecOn with
  | nil => exact size_zeros size
  | append_singleton writes data ih =>
      have hbefore : (overlaid size writes).size = size :=
        ih fun other hother => h other (List.mem_append_left _ hother)
      have hdata : data.size ≤ (overlaid size writes).size :=
        hbefore.symm ▸ h data (List.mem_append_right _ List.mem_cons_self)
      rw [overlaid_concat, size_overwrite hdata, hbefore]

theorem getElem?_overwrite (h : data.size ≤ base.size) (index : Nat) :
    (overwrite base data).data[index]? =
      if index < data.size then data.data[index]? else base.data[index]? := by
  rw [overwrite, ByteArray.data_append, Array.getElem?_append, ByteArray.size_data]
  split
  next hreached => rfl
  next hpast =>
    have hplace : data.size + (index - data.size) = index := by omega
    rw [ByteArray.data_extract, Array.getElem?_extract, hplace, ByteArray.size_data, Nat.min_self]
    split
    next hin => rfl
    next hout => exact (Array.getElem?_eq_none (by rw [ByteArray.size_data]; omega)).symm

theorem lastByte_concat (writes : List ByteArray) (data : ByteArray) (index : Nat) :
    lastByte (writes ++ [data]) index = data.data[index]?.getD (lastByte writes index) := by
  rw [lastByte, List.reverse_append, List.findSome?_append]
  cases hdata : data.data[index]? with
  | none => simp [hdata, lastByte]
  | some byte => simp [hdata]

theorem getElem?_overlaid (h : ∀ data ∈ writes, data.size ≤ size) (hindex : index < size) :
    (overlaid size writes).data[index]? = some (lastByte writes index) := by
  induction writes using List.reverseRecOn with
  | nil => simp [overlaid, lastByte, zeros_eq_replicate, hindex]
  | append_singleton writes data ih =>
      have hall : ∀ other ∈ writes, other.size ≤ size :=
        fun other hother => h other (List.mem_append_left _ hother)
      have hdata : data.size ≤ (overlaid size writes).size :=
        (size_overlaid hall).symm ▸ h data (List.mem_append_right _ List.mem_cons_self)
      rw [overlaid_concat, getElem?_overwrite hdata, lastByte_concat]
      split
      next hreached =>
        have ⟨byte, hbyte⟩ : ∃ byte, data.data[index]? = some byte :=
          ⟨_, Array.getElem?_eq_getElem hreached⟩
        rw [hbyte, Option.getD_some]
      next hpast =>
        have hnone : data.data[index]? = none := Array.getElem?_eq_none (Nat.not_lt.mp hpast)
        rw [hnone, Option.getD_none, ih hall]

end Bytes

namespace Client

structure Entry.Overwritten (before : Entry) (data : ByteArray) (after : Entry) : Prop where
  size_le : data.size ≤ before.shadow.size
  handle_eq : after.handle = before.handle
  size_eq : after.size = before.size
  size_shadow_eq : after.shadow.size = before.shadow.size
  getElem?_shadow : ∀ index, after.shadow.data[index]? =
    if index < data.size then data.data[index]? else before.shadow.data[index]?

theorem overwritten_overwrite {entry : Entry} {data : ByteArray}
    (hfits : data.size ≤ entry.shadow.size) : entry.Overwritten data (entry.overwrite data) where
  size_le := hfits
  handle_eq := rfl
  size_eq := rfl
  size_shadow_eq := Bytes.size_overwrite hfits
  getElem?_shadow := Bytes.getElem?_overwrite hfits

/-- An entry whose shadow is what some strings left of its zeros, none longer than the block. -/
structure Entry.Overlaid (entry : Entry) (writes : List ByteArray) : Prop where
  fits : ∀ data ∈ writes, data.size ≤ entry.size
  shadow_eq : entry.shadow = Bytes.overlaid entry.size writes

namespace Entry.Overlaid

variable {entry : Entry} {writes : List ByteArray} {data : ByteArray}

theorem zeros (handle : Handle) (size : Nat) :
    (⟨handle, size, Bytes.zeros size⟩ : Entry).Overlaid [] where
  fits data hdata := by cases hdata
  shadow_eq := rfl

theorem overwrite (h : entry.Overlaid writes) (hfits : data.size ≤ entry.size) :
    (entry.overwrite data).Overlaid (writes ++ [data]) where
  fits other hother := by
    rcases List.mem_append.mp hother with hold | hnew
    · exact h.fits other hold
    · rw [List.mem_singleton.mp hnew]
      exact hfits
  shadow_eq := by
    rw [Bytes.overlaid_concat]
    exact congrArg (Bytes.overwrite · data) h.shadow_eq

theorem size_shadow (h : entry.Overlaid writes) : entry.shadow.size = entry.size := by
  rw [h.shadow_eq]
  exact Bytes.size_overlaid h.fits

theorem getElem?_shadow (h : entry.Overlaid writes) {index : Nat} (hindex : index < entry.size) :
    entry.shadow.data[index]? = some (Bytes.lastByte writes index) := by
  rw [h.shadow_eq]
  exact Bytes.getElem?_overlaid h.fits hindex

end Entry.Overlaid

namespace Cache

/-! ## Calls and events -/

inductive Call where
  | record (handle : Handle) (size : Nat)
  | lookup (token : Token)
  | entry (token : Token)
  | update (token : Token) (data : ByteArray)
  | remove (token : Token)

inductive Event where
  | record (handle : Handle) (size : Nat) (token? : Option Token)
  | lookup (token : Token) (found? : Option (Handle × Nat))
  | entry (token : Token) (found? : Option Entry)
  | update (token : Token) (data : ByteArray) (updated : Bool)
  | remove (token : Token) (removed? : Option Entry)

def perform (cache : Cache) : Call → Event × Cache
  | .record handle size =>
    let (token?, after) := cache.record handle size
    (.record handle size token?, after)
  | .lookup token => (.lookup token ((cache.lookup? token).map Entry.grant), cache)
  | .entry token => (.entry token (cache.lookup? token), cache)
  | .update token data =>
    let (updated, after) := cache.updateShadow token data
    (.update token data updated, after)
  | .remove token =>
    let (removed?, after) := cache.remove token
    (.remove token removed?, after)

def performAll (cache : Cache) : List Call → List Event × Cache
  | [] => ([], cache)
  | call :: rest =>
    let (event, cache) := cache.perform call
    let (events, last) := performAll cache rest
    (event :: events, last)

def Event.issued? : Event → Option (Token × Handle × Nat)
  | .record handle size (some token) => some (token, handle, size)
  | _ => none

def Event.forgotten? : Event → Option Token
  | .remove token (some _) => some token
  | _ => none

/-- The data that a call put into the shadow of a token. -/
def Event.written? (token : Token) : Event → Option ByteArray
  | .update updated data true => if updated = token then some data else none
  | _ => none

/-- What an event says of the registry of handles and sizes. -/
def Event.filed? : Event → Option (Registry.Event (Handle × Nat))
  | .record handle size token? => some (.store (handle, size) (token?.map Token.number))
  | .remove token removed? => some (.remove token.number removed?.isSome)
  | _ => none

def issued (history : List Event) : List (Token × Handle × Nat) :=
  history.filterMap Event.issued?

def forgotten (history : List Event) : List Token :=
  history.filterMap Event.forgotten?

/-- Given as a token for a block, and not taken out since. -/
def Held (history : List Event) (token : Token) (handle : Handle) (size : Nat) : Prop :=
  Since (fun event => event.issued? = some (token, handle, size))
    (fun event => event.forgotten? = some token) history

def writes (history : List Event) (token : Token) : List ByteArray :=
  history.filterMap (Event.written? token)

def filed (history : List Event) : List (Registry.Event (Handle × Nat)) :=
  history.filterMap Event.filed?

variable {limit : Nat} {cache : Cache} {history : List Event} {event : Event} {token : Token}
  {handle : Handle} {size : Nat} {entry : Entry} {data : ByteArray}

theorem writes_concat (history : List Event) (event : Event) (token : Token) :
    writes (history ++ [event]) token = writes history token ++ (event.written? token).toList :=
  filterMap_concat (Event.written? token) history event

theorem filed_concat (history : List Event) (event : Event) :
    filed (history ++ [event]) = filed history ++ event.filed?.toList :=
  filterMap_concat Event.filed? history event

theorem bind_filed?_issued? (event : Event) :
    event.filed?.bind Registry.Event.issued? =
      event.issued?.map fun grant => (grant.1.number, grant.2) := by
  cases event with
  | record handle size token? => cases token? <;> rfl
  | remove token removed? => cases removed? <;> rfl
  | _ => rfl

theorem bind_filed?_erased? (event : Event) :
    event.filed?.bind Registry.Event.erased? = event.forgotten?.map Token.number := by
  cases event with
  | record handle size token? => cases token? <;> rfl
  | remove token removed? => cases removed? <;> rfl
  | _ => rfl

theorem issued_filed (history : List Event) :
    Registry.issued (filed history) =
      (issued history).map fun grant => (grant.1.number, grant.2) := by
  rw [Registry.issued, filed, List.filterMap_filterMap, issued, List.map_filterMap]
  exact List.filterMap_congr fun event _ => bind_filed?_issued? event

theorem erased_filed (history : List Event) :
    Registry.erased (filed history) = (forgotten history).map Token.number := by
  rw [Registry.erased, filed, List.filterMap_filterMap, forgotten, List.map_filterMap]
  exact List.filterMap_congr fun event _ => bind_filed?_erased? event

theorem held_iff :
    Held history token handle size ↔
      Registry.Held (filed history) token.number (handle, size) := by
  have hissued : ∀ event : Event,
      (∃ part, event.filed? = some part ∧ part.issued? = some (token.number, handle, size)) ↔
        event.issued? = some (token, handle, size) := by
    intro event
    rw [← Option.bind_eq_some_iff, bind_filed?_issued?, Option.map_eq_some_iff]
    constructor
    · rintro ⟨⟨⟨number⟩, grant⟩, hevent, heq⟩
      cases heq
      exact hevent
    · intro hevent
      exact ⟨_, hevent, rfl⟩
  have hforgotten : ∀ event : Event,
      (∃ part, event.filed? = some part ∧ part.erased? = some token.number) ↔
        event.forgotten? = some token := by
    intro event
    rw [← Option.bind_eq_some_iff, bind_filed?_erased?, Option.map_eq_some_iff]
    constructor
    · rintro ⟨⟨number⟩, hevent, heq⟩
      cases heq
      exact hevent
    · intro hevent
      exact ⟨_, hevent, rfl⟩
  rw [Registry.Held, filed, since_filterMap_iff]
  simp only [hissued, hforgotten]
  rfl

/-! ## What single operations do -/

theorem record_of_isFull (h : cache.isFull = true) (handle : Handle) (size : Nat) :
    cache.record handle size = (none, cache) := by
  simp [record, h]

theorem record_of_not_isFull (h : cache.isFull = false) (handle : Handle) (size : Nat) :
    cache.record handle size =
      (some ⟨cache.next⟩, cache.add ⟨handle, size, Bytes.zeros size⟩) := by
  simp [record, h]

/-- An update goes through, or it changes nothing. -/
theorem updateShadow_cases (cache : Cache) (token : Token) (data : ByteArray) :
    (∃ entry, cache.lookup? token = some entry ∧ data.size ≤ entry.size ∧
        cache.updateShadow token data =
          (true, cache.modify token.number (Entry.overwrite data))) ∨
      (∀ entry, cache.lookup? token = some entry → entry.size < data.size) ∧
        cache.updateShadow token data = (false, cache) := by
  unfold updateShadow
  cases hlookup : cache.lookup? token with
  | none => exact .inr ⟨by simp, rfl⟩
  | some entry =>
      by_cases hfits : data.size ≤ entry.size
      · exact .inl ⟨entry, rfl, hfits, if_pos hfits⟩
      · refine .inr ⟨fun other hother => ?_, if_neg hfits⟩
        cases hother
        exact Nat.not_le.mp hfits

/-! ## What a cache keeps of its history -/

structure Chronicle (limit : Nat) (cache : Cache) (history : List Event) : Prop where
  filed : Registry.Chronicle (cache.map Entry.grant) (filed history)
  limit_eq : cache.limit = limit
  overlaid : ∀ {token entry}, cache.lookup? token = some entry →
    entry.Overlaid (writes history token)
  unwritten : ∀ token : Token, cache.next ≤ token.number → writes history token = []

theorem chronicle_empty (limit : Nat) : Chronicle limit { limit := limit } [] where
  filed := Registry.chronicle_empty limit
  limit_eq := rfl
  overlaid hlookup := by cases hlookup
  unwritten _ _ := rfl

theorem get?_grant (hlookup : cache.lookup? token = some entry) :
    (cache.map Entry.grant).get? token.number = some entry.grant := by
  rw [Registry.get?_map]
  exact congrArg (Option.map Entry.grant) hlookup

theorem Chronicle.number_lt (h : Chronicle limit cache history)
    (hlookup : cache.lookup? token = some entry) : token.number < cache.next :=
  (h.filed.wellNumbered.bounds _ (Registry.mem_of_get? (get?_grant hlookup))).2

/-- A call that gives no token, takes none out and writes nothing. -/
theorem Chronicle.keep (h : Chronicle limit cache history) (hissued : event.issued? = none)
    (hforgotten : event.forgotten? = none) (hwritten : ∀ token, event.written? token = none) :
    Chronicle limit cache (history ++ [event]) := by
  have hwrites : ∀ token, writes (history ++ [event]) token = writes history token := by
    intro token
    rw [writes_concat, hwritten]
    exact List.append_nil _
  constructor
  · have hputs := bind_filed?_issued? event
    have htakes := bind_filed?_erased? event
    rw [hissued] at hputs
    rw [hforgotten] at htakes
    rw [filed_concat]
    cases hfiled : event.filed? with
    | none => simpa using h.filed
    | some part =>
        rw [hfiled] at hputs htakes
        exact h.filed.keep hputs htakes
  · exact h.limit_eq
  · intro token entry hlookup
    rw [hwrites]
    exact h.overlaid hlookup
  · intro token hnext
    rw [hwrites]
    exact h.unwritten token hnext

/-- The shadow of a new block is zero, and its token was never written to. -/
theorem Chronicle.add (h : Chronicle limit cache history) (hfull : cache.isFull = false)
    (handle : Handle) (size : Nat) :
    Chronicle limit (cache.add ⟨handle, size, Bytes.zeros size⟩)
      (history ++ [.record handle size (some ⟨cache.next⟩)]) := by
  have hwrites : ∀ token, writes (history ++ [.record handle size (some ⟨cache.next⟩)]) token =
      writes history token := fun token => (writes_concat _ _ _).trans (List.append_nil _)
  constructor
  · rw [Registry.map_add, filed_concat]
    exact h.filed.add ((Registry.isFull_map _ cache).trans hfull) (handle, size)
  · exact h.limit_eq
  · intro token entry hlookup
    rw [hwrites]
    by_cases hsame : token = ⟨cache.next⟩
    · subst hsame
      rw [lookup?_add_self] at hlookup
      cases hlookup
      rw [h.unwritten _ (UInt64.le_refl _)]
      exact .zeros handle size
    · rw [lookup?_add_of_ne _ hsame] at hlookup
      exact h.overlaid hlookup
  · intro token hnext
    rw [hwrites]
    apply h.unwritten
    have hafter : (cache.next + 1).toNat = cache.next.toNat + 1 :=
      Registry.toNat_next_add_one (Registry.isFull_eq_false_iff.mp hfull).2
    have hle : (cache.next + 1).toNat ≤ token.number.toNat := UInt64.le_iff_toNat_le.mp hnext
    rw [UInt64.le_iff_toNat_le]
    omega

/-- One more string lies over the shadow of this token, and over no other. -/
theorem Chronicle.update (h : Chronicle limit cache history)
    (hlookup : cache.lookup? token = some entry) (hfits : data.size ≤ entry.size) :
    Chronicle limit (cache.modify token.number (Entry.overwrite data))
      (history ++ [.update token data true]) := by
  have hself : writes (history ++ [.update token data true]) token =
      writes history token ++ [data] := by
    simp [writes_concat, Event.written?]
  have hothers : ∀ other, other ≠ token →
      writes (history ++ [.update token data true]) other = writes history other := by
    intro other hne
    simp [writes_concat, Event.written?, Ne.symm hne]
  constructor
  · have hgrant : ∀ entry, Entry.grant (Entry.overwrite data entry) = entry.grant := fun _ => rfl
    rw [Registry.map_modify_of_view_eq cache token.number hgrant, filed_concat]
    simpa [Event.filed?] using h.filed
  · exact h.limit_eq
  · intro other found hfound
    by_cases hsame : other = token
    · subst hsame
      rw [lookup?_modify_self, hlookup] at hfound
      cases hfound
      rw [hself]
      exact (h.overlaid hlookup).overwrite hfits
    · rw [lookup?_modify_of_ne _ hsame] at hfound
      rw [hothers other hsame]
      exact h.overlaid hfound
  · intro other hnext
    have hne : other ≠ token := by
      rintro rfl
      exact absurd (h.number_lt hlookup) (UInt64.not_lt.mpr hnext)
    rw [hothers other hne]
    exact h.unwritten other hnext

theorem Chronicle.erase (h : Chronicle limit cache history)
    (hlookup : cache.lookup? token = some entry) :
    Chronicle limit (cache.erase token.number) (history ++ [.remove token (some entry)]) := by
  have hwrites : ∀ other, writes (history ++ [.remove token (some entry)]) other =
      writes history other := fun other => (writes_concat _ _ _).trans (List.append_nil _)
  constructor
  · rw [Registry.map_erase, filed_concat]
    exact h.filed.erase (get?_grant hlookup)
  · exact h.limit_eq
  · intro other found hfound
    rw [hwrites]
    by_cases hsame : other = token
    · subst hsame
      rw [lookup?_erase_self] at hfound
      cases hfound
    · rw [lookup?_erase_of_ne hsame] at hfound
      exact h.overlaid hfound
  · intro other hnext
    rw [hwrites]
    exact h.unwritten other hnext

theorem Chronicle.perform (h : Chronicle limit cache history) (call : Call) :
    Chronicle limit (perform cache call).2 (history ++ [(perform cache call).1]) := by
  cases call with
  | record handle size =>
      cases hfull : cache.isFull with
      | true =>
          rw [Cache.perform, record_of_isFull hfull]
          exact h.keep rfl rfl fun _ => rfl
      | false =>
          rw [Cache.perform, record_of_not_isFull hfull]
          exact h.add hfull handle size
  | lookup token => exact h.keep rfl rfl fun _ => rfl
  | entry token => exact h.keep rfl rfl fun _ => rfl
  | update token data =>
      rcases updateShadow_cases cache token data with ⟨entry, hlookup, hfits, hupdate⟩ | ⟨-, hupdate⟩
      · rw [Cache.perform, hupdate]
        exact h.update hlookup hfits
      · rw [Cache.perform, hupdate]
        exact h.keep rfl rfl fun _ => rfl
  | remove token =>
      rw [Cache.perform, remove]
      cases hlookup : cache.lookup? token with
      | none =>
          have hnone : cache.get? token.number = none := hlookup
          rw [Registry.erase_eq_self hnone]
          exact h.keep rfl rfl fun _ => rfl
      | some entry => exact h.erase hlookup

theorem Chronicle.performAll (h : Chronicle limit cache history) (calls : List Call) :
    Chronicle limit (performAll cache calls).2 (history ++ (performAll cache calls).1) := by
  induction calls generalizing cache history with
  | nil => simpa [Cache.performAll] using h
  | cons call rest ih =>
      have hrest := ih (h.perform call)
      rwa [← List.append_cons] at hrest

/-! ## Answers -/

/-- What a cache with a limit answers, and what its shadows hold, by its history. -/
structure Accurate (limit : Nat) (cache : Cache) (history : List Event) : Prop where
  tokens_eq : (issued history).map (fun grant => grant.1.number.toNat) =
    List.range' 1 (issued history).length
  next_eq : cache.next.toNat = (issued history).length + 1
  eq_next_of_record : ∀ handle size token, (cache.record handle size).1 = some token →
    token = ⟨cache.next⟩
  size_eq : cache.size + (forgotten history).length = (issued history).length
  record_eq_none_iff : ∀ handle size, (cache.record handle size).1 = none ↔
    limit ≤ cache.size ∨ cache.next.toNat = 2 ^ 64 - 1
  eq_of_record_eq_none : ∀ handle size, (cache.record handle size).1 = none →
    (cache.record handle size).2 = cache
  lookup?_iff : ∀ token entry, cache.lookup? token = some entry ↔
    Held history token entry.handle entry.size ∧
      entry.shadow = Bytes.overlaid entry.size (writes history token)
  size_shadow : ∀ token entry, cache.lookup? token = some entry → entry.shadow.size = entry.size
  getElem?_shadow : ∀ token entry index, cache.lookup? token = some entry → index < entry.size →
    entry.shadow.data[index]? = some (Bytes.lastByte (writes history token) index)
  update_iff : ∀ token data, (cache.updateShadow token data).1 = true ↔
    ∃ entry, cache.lookup? token = some entry ∧ data.size ≤ entry.size
  overwritten_of_update : ∀ token data, (cache.updateShadow token data).1 = true →
    ∃ before after, cache.lookup? token = some before ∧
      (cache.updateShadow token data).2.lookup? token = some after ∧
      before.Overwritten data after
  lookup?_update_of_ne : ∀ token data other, other ≠ token →
    (cache.updateShadow token data).2.lookup? other = cache.lookup? other
  eq_of_update_eq_false : ∀ token data, (cache.updateShadow token data).1 = false →
    (cache.updateShadow token data).2 = cache
  remove_eq : ∀ token, (cache.remove token).1 = cache.lookup? token
  lookup?_remove : ∀ token other, (cache.remove token).2.lookup? other =
    if other = token then none else cache.lookup? other

/-- Under one number there is one entry; what it was given for and what was written to it make it
up. -/
theorem Chronicle.lookup?_iff (h : Chronicle limit cache history) :
    cache.lookup? token = some entry ↔ Held history token entry.handle entry.size ∧
      entry.shadow = Bytes.overlaid entry.size (writes history token) := by
  have hgrant : ∀ grant, (cache.lookup? token).map Entry.grant = some grant ↔
      Held history token grant.1 grant.2 := by
    intro grant
    rw [held_iff, ← h.filed.get?_iff, Registry.get?_map]
    rfl
  constructor
  · intro hlookup
    refine ⟨(hgrant entry.grant).mp ?_, (h.overlaid hlookup).shadow_eq⟩
    rw [hlookup]
    rfl
  · rintro ⟨hheld, hshadow⟩
    obtain ⟨found, hfound, heq⟩ := Option.map_eq_some_iff.mp ((hgrant entry.grant).mpr hheld)
    obtain ⟨hhandle, hsize⟩ := Prod.mk.inj heq
    have hsame : found.shadow = entry.shadow := by
      rw [(h.overlaid hfound).shadow_eq, hshadow, hsize]
    rw [hfound]
    obtain ⟨handle, size, shadow⟩ := found
    cases hhandle
    cases hsize
    cases hsame
    rfl

theorem Chronicle.accurate (h : Chronicle limit cache history) : Accurate limit cache history where
  tokens_eq := by
    have hnumbers := h.filed.numbers_eq
    rwa [issued_filed, List.map_map, List.length_map] at hnumbers
  next_eq := by
    have hnext := h.filed.next_eq
    rwa [issued_filed, List.length_map] at hnext
  size_eq := by
    have hsize := h.filed.size_eq
    rwa [issued_filed, List.length_map, erased_filed, List.length_map, Registry.size_map] at hsize
  eq_next_of_record handle size token hsome := by
    cases hfull : cache.isFull with
    | true => simp [record_of_isFull hfull] at hsome
    | false => simpa [record_of_not_isFull hfull, eq_comm] using hsome
  record_eq_none_iff handle size := by
    rw [← h.limit_eq, ← Registry.eq_lastNumber_iff, ← Registry.isFull_iff]
    cases hfull : cache.isFull with
    | true => simp [record_of_isFull hfull]
    | false => simp [record_of_not_isFull hfull]
  eq_of_record_eq_none handle size hnone := by
    cases hfull : cache.isFull with
    | true => rw [record_of_isFull hfull]
    | false => simp [record_of_not_isFull hfull] at hnone
  lookup?_iff _ _ := h.lookup?_iff
  size_shadow _ _ hlookup := (h.overlaid hlookup).size_shadow
  getElem?_shadow _ _ _ hlookup := (h.overlaid hlookup).getElem?_shadow
  update_iff token data := by
    rcases updateShadow_cases cache token data with ⟨entry, hlookup, hfits, hupdate⟩ |
      ⟨hlong, hupdate⟩
    · simp only [hupdate, true_iff]
      exact ⟨entry, hlookup, hfits⟩
    · simp only [hupdate, Bool.false_eq_true, false_iff]
      rintro ⟨entry, hlookup, hfits⟩
      exact Nat.not_le.mpr (hlong entry hlookup) hfits
  overwritten_of_update token data htrue := by
    rcases updateShadow_cases cache token data with ⟨entry, hlookup, hfits, hupdate⟩ | ⟨-, hupdate⟩
    · refine ⟨entry, entry.overwrite data, hlookup, ?_, ?_⟩
      · rw [hupdate]
        exact (lookup?_modify_self cache token _).trans (congrArg (Option.map _) hlookup)
      · exact overwritten_overwrite ((h.overlaid hlookup).size_shadow.symm ▸ hfits)
    · rw [hupdate] at htrue
      cases htrue
  lookup?_update_of_ne token data other hne := by
    rcases updateShadow_cases cache token data with ⟨entry, -, -, hupdate⟩ | ⟨-, hupdate⟩
    · rw [hupdate]
      exact lookup?_modify_of_ne _ hne
    · rw [hupdate]
  eq_of_update_eq_false token data hfalse := by
    rcases updateShadow_cases cache token data with ⟨entry, -, -, hupdate⟩ | ⟨-, hupdate⟩
    · rw [hupdate] at hfalse
      cases hfalse
    · rw [hupdate]
  remove_eq _ := rfl
  lookup?_remove token other := by
    split
    next heq =>
      rw [heq]
      exact lookup?_erase_self cache token
    next hne => exact lookup?_erase_of_ne hne

/-- After any calls, with any tokens, a cache answers by its history. The tokens it gave were 1, 2,
3, and so on; it refuses a block exactly when it is at its limit or the tokens run out, and then
nothing changes. A token is found exactly when it was given and not taken out since, with the handle
and the size it was given for, and its shadow is as many zeros overlaid by the data of every update
of this token that went through: each byte is that of the last data to reach it. An update goes
through exactly when the token is found and the data is no longer than the block; it then fits the
shadow too, and changes its start and nothing else. Taking out a token gives the entry that was
found before and touches no other. -/
theorem shadows_after_performAll (limit : Nat) (calls : List Call) :
    let (history, last) := performAll { limit := limit } calls
    Accurate limit last history :=
  ((chronicle_empty limit).performAll calls).accurate

/-- Two updates overlap, one is too long, and one comes after its token is gone. -/
example : ((performAll { limit := 1 } [.record ⟨7, by decide⟩ 4, .update ⟨1⟩ ⟨#[1, 2, 3]⟩,
      .update ⟨1⟩ ⟨#[9]⟩, .update ⟨1⟩ ⟨#[5, 5, 5, 5, 5]⟩, .record ⟨8, by decide⟩ 4, .remove ⟨1⟩,
      .update ⟨1⟩ ⟨#[6]⟩]).1) =
    [.record ⟨7, by decide⟩ 4 (some ⟨1⟩), .update ⟨1⟩ ⟨#[1, 2, 3]⟩ true,
      .update ⟨1⟩ ⟨#[9]⟩ true, .update ⟨1⟩ ⟨#[5, 5, 5, 5, 5]⟩ false, .record ⟨8, by decide⟩ 4 none,
      .remove ⟨1⟩ (some ⟨⟨7, by decide⟩, 4, ⟨#[9, 2, 3, 0]⟩⟩), .update ⟨1⟩ ⟨#[6]⟩ false] := rfl

end Cache

end Client

end RemoteMemory
