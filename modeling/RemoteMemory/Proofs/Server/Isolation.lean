import RemoteMemory.Proofs.Server.FlatMap

/-!
# What one handle answers is its own affair

Whoever was granted a handle gets from it what a private byte string would answer: zeros at first,
then what was written to it, and nothing once it was freed. Other requests, other handles, the
limits of the server, and what was stored before have no part in it. So two servers that granted
a handle for as many bytes give the same answers to the same accesses.
-/

namespace RemoteMemory.Server

structure Access where
  command : Command
  byteCount : UInt32
  payload : ByteArray

namespace Access

def concerns : Command → Bool
  | .free | .write | .read => true
  | _ => false

def ofRequest? (handle : UInt64) (request : Message) : Option Access :=
  if request.header.handle = handle then
    (request.header.command?.filter concerns).map fun command =>
      ⟨command, request.header.byteCount, request.payload⟩
  else none

/-- What a private byte string answers, and what becomes of it. -/
def answer (handle : UInt64) (held : Option ByteArray) (access : Access) :
    Message × Option ByteArray :=
  match held, access.command with
  | some _, .free => (.ok handle, none)
  | some bytes, .write =>
    if access.payload.size ≤ bytes.size then
      (.ok handle, some (access.payload ++ bytes.extract access.payload.size bytes.size))
    else (.error handle, some bytes)
  | some bytes, .read =>
    ({ header := .ofCommand .ok handle (UInt32.ofNat (min access.byteCount.toNat bytes.size))
       payload := bytes.extract 0 (min access.byteCount.toNat bytes.size) }, some bytes)
  | held, _ => (.error handle, held)

theorem ofRequest?_eq_some_iff {handle : UInt64} {request : Message} {access : Access} :
    ofRequest? handle request = some access ↔
      request.header.handle = handle ∧ ∃ command, request.header.command? = some command ∧
        concerns command = true ∧ access = ⟨command, request.header.byteCount, request.payload⟩ := by
  unfold ofRequest?
  split
  next heq =>
    simp only [heq, Option.map_eq_some_iff, Option.filter_eq_some_iff, true_and]
    constructor
    · rintro ⟨command, ⟨hcommand, hconcerns⟩, rfl⟩
      exact ⟨command, hcommand, hconcerns, rfl⟩
    · rintro ⟨command, hcommand, hconcerns, rfl⟩
      exact ⟨command, ⟨hcommand, hconcerns⟩, rfl⟩
  next hne => simp [hne]

def answerAll (handle : UInt64) (held : Option ByteArray) : List Access → List Message
  | [] => []
  | access :: rest =>
    let (response, held) := access.answer handle held
    response :: answerAll handle held rest

end Access

def accesses (handle : UInt64) (requests : List Message) : List Access :=
  requests.filterMap (Access.ofRequest? handle)

/-- The responses to those requests that access a handle. -/
def answersAbout (handle : UInt64) (requests responses : List Message) : List Message :=
  (requests.zip responses).filterMap fun exchange =>
    (Access.ofRequest? handle exchange.1).map fun _ => exchange.2

/-! ## What a handle stands for -/

namespace State

variable {config : Config} {state : State} {flat : FlatMap} {handle : UInt64}
  {held : Option ByteArray} {request : Message} {access : Access}

/-- A handle was issued, and these bytes stand behind it, or none since it was freed. -/
def Holds (config : Config) (state : State) (handle : UInt64) (held : Option ByteArray) : Prop :=
  ∃ flat, Shows config state flat ∧ handle < flat.next ∧ flat.blocks.lookup handle = held

theorem Shows.lt_next (h : Shows config state flat) {bytes : ByteArray}
    (hlookup : flat.blocks.lookup handle = some bytes) : handle < flat.next := by
  rw [h.lookup_eq, Option.map_eq_some_iff] at hlookup
  obtain ⟨mapping, hget, -⟩ := hlookup
  rw [h.next_eq]
  exact (h.coupled.handles.bounds _ (Registry.mem_of_get? hget)).2

theorem Coupled.holds_of_alloc (h : Coupled config state) {size : Nat} (hsize : size < UInt32.size)
    (hgranted : (state.alloc size).1 = .ok handle) :
    Holds config (state.alloc size).2 handle (some ⟨Array.replicate size 0⟩) := by
  obtain ⟨flat, hshows⟩ := h.exists_shows
  rcases hshows.alloc_cases hsize with ⟨-, hanswer, -⟩ | ⟨-, hanswer, hafter⟩
  · have hcode : Command.error.code = Command.ok.code :=
      congrArg (fun message => message.header.command) (hanswer.symm.trans hgranted)
    exact absurd hcode (by decide)
  · have hhandle : flat.next = handle :=
      congrArg (fun message => message.header.handle) (hanswer.symm.trans hgranted)
    subst hhandle
    have hlookup := Finmap.lookup_insert (a := flat.next) (b := ⟨Array.replicate size 0⟩) flat.blocks
    exact ⟨_, hafter, hafter.lt_next hlookup, hlookup⟩

/-- What a new handle stands for does not matter to those issued before. -/
theorem Holds.alloc (h : Holds config state handle held) {size : Nat}
    (hsize : size < UInt32.size) : Holds config (state.alloc size).2 handle held := by
  obtain ⟨flat, hshows, hissued, hlookup⟩ := h
  rcases hshows.alloc_cases hsize with ⟨-, -, hafter⟩ | ⟨-, -, hafter⟩
  · exact ⟨flat, hafter, hissued, hlookup⟩
  · have hnext := hafter.lt_next (Finmap.lookup_insert _)
    refine ⟨_, hafter, UInt64.lt_trans hissued hnext, ?_⟩
    rw [Finmap.lookup_insert_of_ne _ (UInt64.ne_of_lt hissued)]
    exact hlookup

theorem Holds.free_of_ne (h : Holds config state handle held) {other : UInt64}
    (hne : handle ≠ other) : Holds config (state.free other).2 handle held := by
  obtain ⟨flat, hshows, hissued, hlookup⟩ := h
  refine ⟨_, (hshows.free other).2, ?_, ?_⟩
  · unfold FlatMap.free
    split
    · exact hissued
    · exact hissued
  · unfold FlatMap.free
    split
    · exact (Finmap.lookup_erase_ne hne).trans hlookup
    · exact hlookup

theorem Holds.write_of_ne (h : Holds config state handle held) {other : UInt64}
    (hne : handle ≠ other) (data : ByteArray) :
    Holds config (state.write other data).2 handle held := by
  obtain ⟨flat, hshows, hissued, hlookup⟩ := h
  refine ⟨_, (hshows.write other data).2, ?_, ?_⟩
  · unfold FlatMap.write
    repeat' split
    all_goals exact hissued
  · unfold FlatMap.write
    repeat' split
    · exact (Finmap.lookup_insert_of_ne _ hne).trans hlookup
    · exact hlookup
    · exact hlookup

/-- A request that is no access to a handle leaves what stands behind it. -/
theorem Holds.dispatch_of_none (h : Holds config state handle held)
    (hother : Access.ofRequest? handle request = none) :
    Holds config (state.dispatch request).2 handle held := by
  have hne : ∀ command, request.header.command? = some command → Access.concerns command = true →
      handle ≠ request.header.handle := by
    rintro command hcommand hconcerns rfl
    simp [Access.ofRequest?, hcommand, Option.filter, hconcerns] at hother
  unfold State.dispatch
  split
  · exact h
  · exact h.alloc request.header.byteCount.toNat_lt
  next hfree => exact h.free_of_ne (hne _ hfree rfl)
  next hwrite => exact h.write_of_ne (hne _ hwrite rfl) _
  · exact h
  · exact h

theorem Holds.free (h : Holds config state handle held) (byteCount : UInt32)
    (payload : ByteArray) :
    let answer := Access.answer handle held ⟨.free, byteCount, payload⟩
    (state.free handle).1 = answer.1 ∧ Holds config (state.free handle).2 handle answer.2 := by
  obtain ⟨flat, hshows, hissued, rfl⟩ := h
  obtain ⟨hanswer, hafter⟩ := hshows.free handle
  rw [hanswer]
  unfold FlatMap.free at hafter ⊢
  cases hlookup : flat.blocks.lookup handle with
  | none =>
      rw [hlookup] at hafter
      exact ⟨rfl, _, hafter, hissued, hlookup⟩
  | some bytes =>
      rw [hlookup] at hafter
      exact ⟨rfl, _, hafter, hissued, Finmap.lookup_erase _ _⟩

theorem Holds.write (h : Holds config state handle held) (byteCount : UInt32)
    (payload : ByteArray) :
    let answer := Access.answer handle held ⟨.write, byteCount, payload⟩
    (state.write handle payload).1 = answer.1 ∧
      Holds config (state.write handle payload).2 handle answer.2 := by
  obtain ⟨flat, hshows, hissued, rfl⟩ := h
  obtain ⟨hanswer, hafter⟩ := hshows.write handle payload
  rw [hanswer]
  unfold FlatMap.write at hafter ⊢
  unfold Access.answer
  cases hlookup : flat.blocks.lookup handle with
  | none =>
      rw [hlookup] at hafter
      exact ⟨rfl, _, hafter, hissued, hlookup⟩
  | some bytes =>
      by_cases hfits : payload.size ≤ bytes.size
      · simp only [hlookup, if_pos hfits] at hafter ⊢
        exact ⟨trivial, _, hafter, hissued, Finmap.lookup_insert _⟩
      · simp only [hlookup, if_neg hfits] at hafter ⊢
        exact ⟨trivial, _, hafter, hissued, hlookup⟩

theorem Holds.read (h : Holds config state handle held) (byteCount : UInt32)
    (payload : ByteArray) :
    let answer := Access.answer handle held ⟨.read, byteCount, payload⟩
    state.read handle byteCount.toNat = answer.1 ∧ Holds config state handle answer.2 := by
  obtain ⟨flat, hshows, hissued, rfl⟩ := h
  rw [hshows.read, FlatMap.read]
  cases hlookup : flat.blocks.lookup handle with
  | none => exact ⟨rfl, flat, hshows, hissued, hlookup⟩
  | some bytes => exact ⟨rfl, flat, hshows, hissued, hlookup⟩

/-- An access is answered as the private byte string answers it. -/
theorem Holds.dispatch_of_some (h : Holds config state handle held)
    (haccess : Access.ofRequest? handle request = some access) :
    (state.dispatch request).1 = (access.answer handle held).1 ∧
      Holds config (state.dispatch request).2 handle (access.answer handle held).2 := by
  obtain ⟨rfl, command, hcommand, hconcerns, rfl⟩ := Access.ofRequest?_eq_some_iff.mp haccess
  unfold State.dispatch
  rw [hcommand]
  cases command with
  | free => exact h.free _ _
  | write => exact h.write _ _
  | read => exact h.read _ _
  | _ => cases hconcerns

theorem Holds.answersAbout_eq (h : Holds config state handle held) (requests : List Message) :
    answersAbout handle requests (state.dispatchAll requests).1
      = Access.answerAll handle held (accesses handle requests) := by
  induction requests generalizing state held with
  | nil => rfl
  | cons request rest ih =>
      change List.filterMap _ ((request, (state.dispatch request).1) ::
        rest.zip ((state.dispatch request).2.dispatchAll rest).1) = _
      cases haccess : Access.ofRequest? handle request with
      | none =>
          rw [List.filterMap_cons_none (by simp [haccess]), accesses,
            List.filterMap_cons_none haccess]
          exact ih (h.dispatch_of_none haccess)
      | some access =>
          obtain ⟨hanswer, hafter⟩ := h.dispatch_of_some haccess
          rw [List.filterMap_cons_some (b := (state.dispatch request).1) (by simp [haccess]),
            accesses, List.filterMap_cons_some haccess, hanswer]
          exact congrArg _ (ih hafter)

/-! ## Two servers -/

/-- A server that grants a handle for a number of bytes, and what it is asked afterwards. -/
structure Tenancy (handle : UInt64) (size : UInt32) where
  config : Config
  state : State
  reachable : Reachable config state
  grant : Message
  command?_eq : grant.header.command? = some .alloc
  byteCount_eq : grant.header.byteCount = size
  granted : (state.dispatch grant).1 = .ok handle
  later : List Message

namespace Tenancy

variable {size : UInt32}

def accesses (tenancy : Tenancy handle size) : List Access :=
  Server.accesses handle tenancy.later

def answers (tenancy : Tenancy handle size) : List Message :=
  answersAbout handle tenancy.later
    ((tenancy.state.dispatch tenancy.grant).2.dispatchAll tenancy.later).1

theorem holds (tenancy : Tenancy handle size) :
    Holds tenancy.config (tenancy.state.dispatch tenancy.grant).2 handle
      (some ⟨Array.replicate size.toNat 0⟩) := by
  obtain ⟨config, state, hreachable, grant, hcommand, rfl, hgranted, later⟩ := tenancy
  unfold State.dispatch at hgranted ⊢
  simp only [hcommand] at hgranted ⊢
  exact hreachable.coupled.holds_of_alloc grant.header.byteCount.toNat_lt hgranted

/-- The same accesses to a handle are answered the same by any two servers that granted it for the
same number of bytes, whatever else they are asked, before, between and after. -/
theorem answers_eq_of_accesses_eq {first second : Tenancy handle size}
    (h : first.accesses = second.accesses) : first.answers = second.answers :=
  calc first.answers
      = Access.answerAll handle (some ⟨Array.replicate size.toNat 0⟩) first.accesses :=
        first.holds.answersAbout_eq first.later
    _ = Access.answerAll handle (some ⟨Array.replicate size.toNat 0⟩) second.accesses := by
        rw [h]
    _ = second.answers := (second.holds.answersAbout_eq second.later).symm

def writeRequest (handle : UInt64) (low high : UInt8) : Message where
  header := .ofCommand .write handle 2
  payload := ⟨#[low, high]⟩

/-- The block takes the slot of one that was written to and freed. -/
def recycled : Tenancy 2 4 where
  config := {}
  state := ((ofConfig {}).perform
    ([.request .alloc 0 8, writeRequest 1 7 7, .request .free 1 0].map .request)).2
  reachable := reachable_perform _ _
  grant := .request .alloc 0 4
  command?_eq := by decide
  byteCount_eq := rfl
  granted := rfl
  later := [writeRequest 2 5 6, .request .alloc 0 3, .request .read 2 9, .request .free 2 0,
    .request .alloc 0 4, .request .read 2 1]

/-- The block has a slot of its own, on a server with little room and a neighbour that writes. -/
def crowded : Tenancy 2 4 where
  config := { maxHandles := 2, memoryLimit := some 7 }
  state := ((ofConfig { maxHandles := 2, memoryLimit := some 7 }).perform
    ([.request .alloc 0 3].map .request)).2
  reachable := reachable_perform _ _
  grant := .request .alloc 0 4
  command?_eq := by decide
  byteCount_eq := rfl
  granted := rfl
  later := [writeRequest 1 8 9, writeRequest 2 5 6, .request .alloc 0 1, .request .realloc 2 9,
    .request .read 2 9, .request .free 1 0, .request .free 2 0, .request .read 2 1]

theorem answers_recycled_eq_answers_crowded :
    recycled.accesses = crowded.accesses ∧ recycled.answers = crowded.answers ∧
      crowded.answers = [.ok 2, ⟨.ofCommand .ok 2 4, ⟨#[5, 6, 0, 0]⟩⟩, .ok 2, .error 2] := by
  have haccesses : recycled.accesses = crowded.accesses := rfl
  exact ⟨haccesses, answers_eq_of_accesses_eq haccesses, rfl⟩

end Tenancy

end State

end RemoteMemory.Server
