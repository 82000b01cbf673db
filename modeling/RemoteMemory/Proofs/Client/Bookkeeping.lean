import RemoteMemory.Proofs.Client.Turns

/-!
# The books of a client, against any server

Whatever the peer answers and however the stream fails, a cache holds no more entries than it may,
every entry has a size that was asked for and a shadow of that size, and tokens are issued 1, 2, 3,
and so on. Only an allocation that succeeds, a write that succeeds and a free of a known token
change anything, each at one token.
-/

namespace RemoteMemory.Client

/-- What can be told of a cache: the next token and what each token stands for. -/
@[ext] structure Book where
  next : UInt64
  entries : Token → Option Entry

def Cache.book (cache : Cache) : Book where
  next := cache.next
  entries := cache.lookup?

def Reply.token? : Except Error Reply → Option Token
  | .ok (.granted token) => some token
  | _ => none

def tokens (results : List (Except Error Reply × Nat)) : List Token :=
  results.filterMap fun result => Reply.token? result.1

namespace Book

def set (book : Book) (token : Token) (stored : Option Entry) : Book :=
  { book with entries := Function.update book.entries token stored }

/-- The books after a call, told by the call and its result; the handle is that of the block if one
was granted. -/
def after (book : Book) (handle : Handle) : Call → Except Error Reply → Book
  | .alloc size, .ok (.granted token) =>
    { book.set token (some ⟨handle, size, ⟨Array.replicate size 0⟩⟩) with next := book.next + 1 }
  | .write token data, .ok _ =>
    book.set token ((book.entries token).map fun entry =>
      { entry with shadow := data ++ entry.shadow.extract data.size entry.shadow.size })
  | .free token, _ => book.set token none
  | _, _ => book

@[simp] theorem entries_set_self (book : Book) (token : Token) (stored : Option Entry) :
    (book.set token stored).entries token = stored := by
  simp [set]

theorem entries_set_of_ne (book : Book) {token other : Token} (stored : Option Entry)
    (h : other ≠ token) : (book.set token stored).entries other = book.entries other := by
  simp [set, h]

end Book

namespace Cache

variable {cache : Cache}

theorem book_add (handle : Handle) (size : Nat) :
    Cache.book (cache.add ⟨handle, size, Bytes.zeros size⟩) =
      { cache.book.set ⟨cache.next⟩ (some ⟨handle, size, ⟨Array.replicate size 0⟩⟩) with
        next := cache.next + 1 } := by
  refine Book.ext rfl (funext fun token => ?_)
  by_cases heq : token = ⟨cache.next⟩
  · subst heq
    rw [Book.entries_set_self, ← Bytes.zeros_eq_replicate]
    exact lookup?_add_self cache _
  · rw [Book.entries_set_of_ne _ _ heq]
    exact lookup?_add_of_ne _ heq

theorem book_erase (token : Token) :
    Cache.book (cache.erase token.number) = cache.book.set token none := by
  refine Book.ext rfl (funext fun other => ?_)
  by_cases heq : other = token
  · subst heq
    rw [Book.entries_set_self]
    exact lookup?_erase_self cache other
  · rw [Book.entries_set_of_ne _ _ heq]
    exact lookup?_erase_of_ne heq

theorem book_modify (token : Token) (change : Entry → Entry) :
    Cache.book (cache.modify token.number change) =
      cache.book.set token ((cache.lookup? token).map change) := by
  refine Book.ext rfl (funext fun other => ?_)
  by_cases heq : other = token
  · subst heq
    rw [Book.entries_set_self]
    exact lookup?_modify_self cache other change
  · rw [Book.entries_set_of_ne _ _ heq]
    exact lookup?_modify_of_ne change heq

/-- Forgetting an unknown token changes nothing. -/
theorem book_set_none {token : Token} (hlookup : cache.lookup? token = none) :
    cache.book.set token none = cache.book :=
  congrArg (Book.mk _) (hlookup ▸ Function.update_eq_self token cache.lookup?)

end Cache

variable {config : Config} {client after : Client} {exchanges : List Exchange}
  {result : Except Error Reply}

/-! ## One call -/

theorem Turn.book_eq {call : Call} (turn : Turn client call exchanges result after) :
    ∃ handle, after.cache.book = client.cache.book.after handle call result := by
  have one : Handle := ⟨1, by decide⟩
  cases turn with
  | ping reply => exact ⟨one, by cases expectPong reply <;> rfl⟩
  | @granted size hsize reply handle hreply hfull => exact ⟨handle, Cache.book_add handle size⟩
  | @unknown _ token hneeds hlookup =>
      refine ⟨one, ?_⟩
      cases call with
      | free token => cases hneeds; exact (Cache.book_set_none hlookup).symm
      | write token data => rfl
      | read token count => rfl
      | _ => cases hneeds
  | freed hlookup reply => exact ⟨one, Cache.book_erase _⟩
  | written hlookup hfits hreply => exact ⟨one, Cache.book_modify _ _⟩
  | @read token entry hlookup count reply =>
      exact ⟨one, by cases expectOk .read entry.handle.number reply <;> rfl⟩
  | _ => exact ⟨one, rfl⟩

/-- A call grants the next token, or it grants nothing and that token stays the next. -/
theorem Turn.token_cases {call : Call} (turn : Turn client call exchanges result after) :
    ((∃ size, call = .alloc size) ∧ result = .ok (.granted ⟨client.cache.next⟩) ∧
        after.cache.next.toNat = client.cache.next.toNat + 1) ∨
      Reply.token? result = none ∧ after.cache.next = client.cache.next := by
  cases turn with
  | granted hsize hreply hfull =>
      refine .inl ⟨⟨_, rfl⟩, rfl, ?_⟩
      exact Registry.toNat_next_add_one (Registry.isFull_eq_false_iff.mp hfull).2
  | ping reply => exact .inr ⟨by cases expectPong reply <;> rfl, rfl⟩
  | @freed token entry hlookup reply =>
      exact .inr ⟨by cases expectOk .free entry.handle.number reply <;> rfl, rfl⟩
  | @read token entry hlookup count reply =>
      exact .inr ⟨by cases expectOk .read entry.handle.number reply <;> rfl, rfl⟩
  | _ => exact .inr ⟨rfl, rfl⟩

theorem Sound.exists_turn {attached : Attached} (h : Sound config attached.client) (call : Call) :
    ∃ exchanges, Turn attached.client call exchanges (attached.call call).1
      (attached.call call).2.client := by
  obtain ⟨exchanges, plays⟩ := Dialogue.exists_plays
    (fun request (channel : Channel) =>
      channel.exchange attached.client.config.payloadBound request)
    (attached.client.call call) attached.channel
  exact ⟨exchanges, h.turn plays⟩

theorem Sound.call {attached : Attached} (h : Sound config attached.client) (call : Call) :
    Sound config (attached.call call).2.client := by
  obtain ⟨exchanges, turn⟩ := h.exists_turn call
  exact turn.sound h

/-! ## All calls -/

theorem Sound.callAll {attached : Attached} (h : Sound config attached.client) (calls : List Call) :
    Sound config (attached.callAll calls).2.client := by
  induction calls generalizing attached with
  | nil => exact h
  | cons call rest ih => exact ih (h.call call)

theorem tokens_cons (result : Except Error Reply) (count : Nat)
    (results : List (Except Error Reply × Nat)) :
    tokens ((result, count) :: results) = (Reply.token? result).toList ++ tokens results := by
  cases htoken : Reply.token? result with
  | none => exact List.filterMap_cons_none htoken
  | some token => exact List.filterMap_cons_some htoken

theorem Attached.callAll_cons (attached : Attached) (call : Call) (rest : List Call) :
    attached.callAll (call :: rest) =
      (((attached.call call).1, (attached.call call).2.client.cache.size) ::
        ((attached.call call).2.callAll rest).1, ((attached.call call).2.callAll rest).2) := rfl

theorem Sound.tokens_callAll {attached : Attached} (h : Sound config attached.client)
    (calls : List Call) :
    (tokens (attached.callAll calls).1).map (fun token => token.number.toNat) =
      List.range' attached.client.cache.next.toNat (tokens (attached.callAll calls).1).length := by
  induction calls generalizing attached with
  | nil => rfl
  | cons call rest ih =>
      have hrest := ih (h.call call)
      obtain ⟨exchanges, turn⟩ := h.exists_turn call
      rw [Attached.callAll_cons, tokens_cons]
      rcases turn.token_cases with ⟨-, hresult, hnext⟩ | ⟨hresult, hnext⟩
      · rw [hnext] at hrest
        rw [hresult]
        exact congrArg (List.cons _) hrest
      · rw [hnext] at hrest
        rw [hresult]
        exact hrest

/-- After any calls, over any channel, the cache is within its limits and every entry is whole; the
tokens granted were 1, 2, 3, and so on; and the next call changes the books as its result says. -/
theorem books_after_callAll (config : Config) (channel : Channel) (calls : List Call) :
    let results := (Attached.callAll ⟨ofConfig config, channel⟩ calls).1
    let last := (Attached.callAll ⟨ofConfig config, channel⟩ calls).2
    last.client.cache.size ≤ config.maxEntries ∧
    (∀ token entry, last.client.cache.lookup? token = some entry →
      1 ≤ entry.size ∧ entry.size ≤ config.payloadBound.toNat ∧
        entry.shadow.size = entry.size) ∧
    (tokens results).map (fun token => token.number.toNat) =
      List.range' 1 (tokens results).length ∧
    ∀ call, ∃ handle,
      (last.call call).2.client.cache.book =
          last.client.cache.book.after handle call (last.call call).1 ∧
      ∀ token, Reply.token? (last.call call).1 = some token →
        (∃ size, call = .alloc size) ∧ token = ⟨last.client.cache.next⟩ ∧
          last.client.cache.lookup? token = none := by
  intro results last
  have hsound : Sound config last.client := (sound_ofConfig config).callAll calls
  refine ⟨hsound.limit_eq ▸ hsound.numbered.size_le, fun token entry => hsound.whole_of_lookup?,
    (sound_ofConfig config).tokens_callAll calls, fun call => ?_⟩
  obtain ⟨exchanges, turn⟩ := hsound.exists_turn call
  obtain ⟨handle, hbook⟩ := turn.book_eq
  refine ⟨handle, hbook, fun token htoken => ?_⟩
  rcases turn.token_cases with ⟨hcall, hresult, -⟩ | ⟨hresult, -⟩
  · rw [hresult] at htoken
    cases htoken
    exact ⟨hcall, rfl, hsound.numbered.get?_next⟩
  · rw [hresult] at htoken
    cases htoken

/-- The flush behind a FREE fails, and the block is forgotten all the same. -/
example : (Attached.callAll ⟨ofConfig {}, ⟨.ofBytes (Message.ok 7).frame .closed,
      { flushFails := fun number => decide (number = 1) }⟩⟩ [.alloc 4, .free ⟨1⟩]).1 =
    [(.ok (.granted ⟨1⟩), 1), (.error (.network .flush), 0)] := rfl

end RemoteMemory.Client
