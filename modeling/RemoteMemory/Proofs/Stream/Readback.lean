import RemoteMemory.Proofs.Stream.Delivery

/-!
# Reading messages until a read fails

A read takes a whole message, refuses a header, or runs out of bytes; only the first two leave
anything to read. A reader that takes one message after another stops at the first read that fails.
On the frames of readable messages, one behind the other, it gets these messages in order and then
meets the end of the stream, with no byte left over.
-/

namespace RemoteMemory

namespace Header

theorem Acceptable.mono {header : Header} {bound wider : UInt32} (h : header.Acceptable bound)
    (hle : bound ≤ wider) : header.Acceptable wider :=
  ⟨h.1, h.2.1, UInt32.le_trans h.2.2 hle⟩

end Header

theorem Message.Readable.mono {message : Message} {bound wider : UInt32}
    (h : message.Readable bound) (hle : bound ≤ wider) : message.Readable wider :=
  ⟨h.acceptable.mono hle, h.consistent⟩

namespace Source

variable {source rest : Source} {bound : UInt32} {message : Message}

theorem SameStream.shortage_eq (h : source.SameStream rest) : rest.shortage = source.shortage := by
  rw [shortage, shortage, h.ending_eq]

theorem SameStream.exhaust_eq (h : source.SameStream rest) : rest.exhaust = source.exhaust := by
  obtain ⟨bytes, position, ending, hposition⟩ := source
  obtain ⟨bytes', position', ending', hposition'⟩ := rest
  obtain ⟨rfl, rfl⟩ := h
  rfl

theorem shortage_cases (source : Source) :
    source.shortage = .connectionClosed ∨ source.shortage = .network .read := by
  unfold shortage
  cases source.ending with
  | closed => exact .inl rfl
  | fault => exact .inr rfl

theorem shortage_ne_protocol (source : Source) (fault : ProtocolFault) :
    source.shortage ≠ .protocol fault := by
  rcases source.shortage_cases with hclosed | hfault
  · simp [hclosed]
  · simp [hfault]

theorem sameStream_of_header? {header : Header} (h : source.header? = some (header, rest)) :
    source.SameStream rest := by
  obtain ⟨taken, htake, heq⟩ := Option.map_eq_some_iff.mp h
  cases heq
  exact sameStream_of_take? htake

/-- Reading a message comes to one of three ends: a whole message is taken, a header is taken and
refused, or the bytes do not last and all of them are used up. -/
theorem readMessage_cases (source : Source) (bound : UInt32) :
    (∃ header behind payload rest, source.header? = some (header, behind) ∧
        header.check bound = .ok () ∧
        behind.take? header.payloadSize = some (payload, rest) ∧
        source.readMessage bound = (.ok ⟨header, payload⟩, rest)) ∨
      (∃ header rest fault, source.header? = some (header, rest) ∧
        header.check bound = .error (.protocol fault) ∧
        source.readMessage bound = (.error (.protocol fault), rest)) ∨
      ((∀ header behind, source.header? = some (header, behind) →
          header.check bound = .ok () ∧ behind.take? header.payloadSize = none) ∧
        source.readMessage bound = (.error source.shortage, source.exhaust)) := by
  unfold readMessage readHeader readPayload
  cases hheader : source.header? with
  | none =>
      right; right
      cases hending : source.ending <;> simp [shortage, hending]
  | some pair =>
      obtain ⟨header, behind⟩ := pair
      have hsame := sameStream_of_header? hheader
      cases hcheck : header.check bound with
      | error error =>
          obtain ⟨fault, rfl⟩ := Header.check_eq_error hcheck
          right; left
          exact ⟨header, behind, fault, rfl, hcheck, by simp [hcheck]⟩
      | ok =>
          cases htake : behind.take? header.payloadSize with
          | none =>
              right; right
              simp [hcheck, htake, hsame.shortage_eq, hsame.exhaust_eq]
          | some taken =>
              left
              exact ⟨header, behind, taken.1, taken.2, rfl, hcheck, htake, by simp [hcheck, htake]⟩

/-- A message that was read is its header, accepted, and the payload that was taken after it. -/
theorem exists_of_readMessage_ok (h : source.readMessage bound = (.ok message, rest)) :
    ∃ behind, source.header? = some (message.header, behind) ∧
      message.header.check bound = .ok () ∧
      behind.take? message.header.payloadSize = some (message.payload, rest) := by
  rcases readMessage_cases source bound with
    ⟨header, behind, payload, last, hheader, hcheck, htake, hread⟩ | ⟨_, _, _, -, -, hread⟩ |
    ⟨-, hread⟩
  · rw [hread] at h
    cases h
    exact ⟨behind, hheader, hcheck, htake⟩
  · rw [hread] at h
    cases h
  · rw [hread] at h
    cases h

theorem readable_of_readMessage (h : source.readMessage bound = (.ok message, rest)) :
    message.Readable bound := by
  obtain ⟨behind, -, hcheck, htake⟩ := exists_of_readMessage_ok h
  exact ⟨Header.check_eq_ok_iff.mp hcheck, size_of_take? htake⟩

theorem left_of_readMessage_ok (h : source.readMessage bound = (.ok message, rest)) :
    rest.left + Header.size ≤ source.left := by
  obtain ⟨behind, hheader, -, htake⟩ := exists_of_readMessage_ok h
  have hleft := left_of_header? hheader
  have hpayload := left_of_take? htake
  omega

theorem left_of_readMessage_protocol {fault : ProtocolFault}
    (h : source.readMessage bound = (.error (.protocol fault), rest)) :
    rest.left + Header.size = source.left := by
  rcases readMessage_cases source bound with
    ⟨_, _, _, _, -, -, -, hread⟩ | ⟨header, last, _, hheader, -, hread⟩ | ⟨-, hread⟩
  · rw [hread] at h
    cases h
  · rw [hread] at h
    cases h
    rw [left_of_header? hheader, Nat.add_comm]
  · rw [hread, Prod.mk.injEq, Except.error.injEq] at h
    exact absurd h.1 (source.shortage_ne_protocol fault)

/-- The stream after so many messages, readable or not, were read from it. -/
def afterReads (bound : UInt32) : Nat → Source → Source
  | 0, source => source
  | count + 1, source => afterReads bound count (source.readMessage bound).2

/-- Read messages up to the first read that fails: the messages, the error, and where it was
met. -/
def readMessages (source : Source) (bound : UInt32) : List Message × Error × Source :=
  match _h : source.readMessage bound with
  | (.error error, rest) => ([], error, rest)
  | (.ok message, rest) =>
    let (messages, error, last) := rest.readMessages bound
    (message :: messages, error, last)
termination_by source.left
decreasing_by
  have := left_of_readMessage_ok _h
  simp only [Header.size] at this
  omega

theorem readMessages_of_error {error : Error}
    (h : source.readMessage bound = (.error error, rest)) :
    source.readMessages bound = ([], error, rest) := by
  rw [readMessages]
  split <;> simp_all

theorem readMessages_of_ok (h : source.readMessage bound = (.ok message, rest)) :
    source.readMessages bound =
      (message :: (rest.readMessages bound).1, (rest.readMessages bound).2) := by
  rw [readMessages]
  split <;> simp_all

/-- Too few bytes for a header are used up, and the end of the stream is met. -/
theorem readMessage_of_lt (h : source.left < Header.size) (bound : UInt32) :
    source.readMessage bound = (.error source.shortage, source.exhaust) := by
  unfold readMessage readHeader
  rw [header?_eq_none_iff.mpr h]
  cases hending : source.ending <;> simp [shortage, hending]

/-- As many reads as there are frames in front take these frames and nothing behind them. -/
theorem unread_afterReads_of_frames {messages : List Message} {back : ByteArray}
    (hmessages : ∀ message ∈ messages, message.Readable bound)
    (hunread : source.unread = Bytes.join (messages.map Message.frame) ++ back) :
    (source.afterReads bound messages.length).unread = back := by
  induction messages generalizing source with
  | nil => exact hunread.trans ByteArray.empty_append
  | cons message others ih =>
      have ⟨hmessage, hothers⟩ := List.forall_mem_cons.mp hmessages
      rw [List.map_cons, Bytes.join_cons, ByteArray.append_assoc] at hunread
      have ⟨_, rest, hread, hrest, _⟩ := readMessage_of_unread hmessage hunread
      rw [List.length_cons, afterReads, hread]
      exact ih hothers hrest

/-- The frames of readable messages are read back as these messages, to the end of the stream. -/
theorem readMessages_of_frames {messages : List Message}
    (hmessages : ∀ message ∈ messages, message.Readable bound)
    (hunread : source.unread = Bytes.join (messages.map Message.frame)) :
    source.readMessages bound = (messages, source.shortage, source.exhaust) := by
  induction messages generalizing source with
  | nil =>
      have hleft : source.left = 0 := by
        rw [← size_unread, hunread]
        rfl
      refine readMessages_of_error (readMessage_of_lt ?_ bound)
      rw [hleft]
      decide
  | cons message others ih =>
      obtain ⟨hmessage, hothers⟩ := List.forall_mem_cons.mp hmessages
      rw [List.map_cons, Bytes.join_cons] at hunread
      obtain ⟨-, rest, hread, hrest, hsame⟩ := readMessage_of_unread hmessage hunread
      rw [readMessages_of_ok hread, ih hothers hrest, hsame.shortage_eq, hsame.exhaust_eq]

end Source

end RemoteMemory
