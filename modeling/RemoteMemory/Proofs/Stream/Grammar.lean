import RemoteMemory.Proofs.Stream.Readback

/-!
# What a reader accepts, and how much of it

The bytes in front of a reader decide what it makes of them: a message, a refused header, or too
few bytes for either. A message takes up its frame, a refused header its 24 bytes, and a reader that
runs short uses up all there is. How the stream ends is told by the last of the three and by nothing
else, so a frame that reaches just to the end is read, whatever comes then.
-/

namespace RemoteMemory

structure StartsWithMessage (bound : UInt32) (input : ByteArray) : Prop where
  size_le : Header.size ≤ input.size
  check_eq : (Header.ofBytes input).check bound = .ok ()
  payloadSize_le : Header.size + (Header.ofBytes input).payloadSize ≤ input.size

structure StartsWithRefusal (bound : UInt32) (input : ByteArray) : Prop where
  size_le : Header.size ≤ input.size
  check_ne : (Header.ofBytes input).check bound ≠ .ok ()

theorem StartsWithMessage.not_refusal {bound : UInt32} {input : ByteArray}
    (h : StartsWithMessage bound input) : ¬ StartsWithRefusal bound input :=
  fun starts => starts.check_ne h.check_eq

namespace Source

variable {source rest : Source} {bound : UInt32} {header : Header}

theorem unread_of_header? (h : source.header? = some (header, rest)) :
    Header.size ≤ source.unread.size ∧ header = .ofBytes source.unread ∧
      source.unread = header.encode ++ rest.unread := by
  have ⟨⟨block, behind⟩, htake, heq⟩ := Option.map_eq_some_iff.mp h
  cases heq
  have hblock := size_of_take? htake
  have hunread := unread_of_take? htake
  have hencode : (Header.ofBytes block).encode = block := by
    rw [Header.encode_ofBytes (Nat.le_of_eq hblock.symm), ← hblock]
    exact ByteArray.extract_zero_size
  refine ⟨?_, ?_, ?_⟩
  · rw [hunread, ByteArray.size_append]
    omega
  · rw [hunread, Header.ofBytes_append hblock]
  · rw [hencode]
    exact hunread

theorem exists_header?_of_le (h : Header.size ≤ source.unread.size) :
    ∃ header rest, source.header? = some (header, rest) := by
  cases hheader : source.header? with
  | none =>
      rw [header?_eq_none_iff, ← size_unread] at hheader
      omega
  | some pair => exact ⟨pair.1, pair.2, rfl⟩

inductive Verdict (source : Source) (bound : UInt32) : Except Error Message → Source → Prop where
  | accepted {message : Message} {rest : Source}
      (starts : StartsWithMessage bound source.unread)
      (header_eq : message.header = .ofBytes source.unread)
      (consistent : message.Consistent)
      (unread_eq : source.unread = message.frame ++ rest.unread) :
      Verdict source bound (.ok message) rest
  | refused {fault : ProtocolFault} {rest : Source}
      (starts : StartsWithRefusal bound source.unread)
      (check_eq : (Header.ofBytes source.unread).check bound = .error (.protocol fault))
      (unread_eq : source.unread = (Header.ofBytes source.unread).encode ++ rest.unread) :
      Verdict source bound (.error (.protocol fault)) rest
  | short (hmessage : ¬ StartsWithMessage bound source.unread)
      (hrefusal : ¬ StartsWithRefusal bound source.unread) :
      Verdict source bound (.error source.shortage) source.exhaust

theorem verdict_readMessage (source : Source) (bound : UInt32) :
    Verdict source bound (source.readMessage bound).1 (source.readMessage bound).2 := by
  rcases readMessage_cases source bound with
    ⟨header, behind, payload, rest, hheader, hcheck, htake, hread⟩ |
    ⟨header, rest, fault, hheader, hcheck, hread⟩ | ⟨hshort, hread⟩
  · have ⟨hsize, hfirst, hunread⟩ := unread_of_header? hheader
    have hpayload := size_of_take? htake
    rw [unread_of_take? htake, ← ByteArray.append_assoc] at hunread
    rw [hread]
    apply Verdict.accepted
    · constructor
      · exact hsize
      · rw [← hfirst]
        exact hcheck
      · rw [← hfirst, hunread, ByteArray.size_append, ByteArray.size_append, Header.size_encode]
        omega
    · exact hfirst
    · exact hpayload
    · exact hunread
  · have ⟨hsize, hfirst, hunread⟩ := unread_of_header? hheader
    subst hfirst
    rw [hread]
    apply Verdict.refused
    · exact ⟨hsize, by simp [hcheck]⟩
    · exact hcheck
    · exact hunread
  · rw [hread]
    apply Verdict.short
    · intro starts
      have ⟨header, behind, hheader⟩ := exists_header?_of_le starts.size_le
      have ⟨_, hfirst, _⟩ := unread_of_header? hheader
      have ⟨_, htake⟩ := hshort header behind hheader
      have hleft := left_of_header? hheader
      have hwhole := starts.payloadSize_le
      rw [take?_eq_none_iff] at htake
      rw [← hfirst, size_unread] at hwhole
      omega
    · intro starts
      have ⟨header, behind, hheader⟩ := exists_header?_of_le starts.size_le
      have ⟨_, hfirst, _⟩ := unread_of_header? hheader
      have ⟨hcheck, _⟩ := hshort header behind hheader
      rw [hfirst] at hcheck
      exact starts.check_ne hcheck

/-! ## The bytes decide -/

@[simp] theorem unread_exhaust (source : Source) : source.exhaust.unread = ByteArray.empty := by
  rw [← ByteArray.size_eq_zero_iff, size_unread, left_exhaust]

namespace Verdict

variable {result : Except Error Message}

theorem ok_iff (h : Verdict source bound result rest) :
    (∃ message, result = .ok message) ↔ StartsWithMessage bound source.unread := by
  cases h with
  | accepted starts => simp [starts]
  | refused starts => simpa using fun starts' : StartsWithMessage _ _ => starts'.not_refusal starts
  | short hmessage => simp [hmessage]

theorem protocol_iff (h : Verdict source bound result rest) :
    (∃ fault, result = .error (.protocol fault)) ↔ StartsWithRefusal bound source.unread := by
  cases h with
  | accepted starts => simpa using starts.not_refusal
  | refused starts => simp [starts]
  | short hmessage hrefusal => simp [source.shortage_ne_protocol, hrefusal]

theorem shortage_iff (h : Verdict source bound result rest) :
    result = .error source.shortage ↔
      ¬ StartsWithMessage bound source.unread ∧ ¬ StartsWithRefusal bound source.unread := by
  cases h with
  | accepted starts => simp [starts]
  | @refused fault _ starts => simp [starts, (source.shortage_ne_protocol fault).symm]
  | short hmessage hrefusal => simp [hmessage, hrefusal]

theorem of_ok {message : Message} (h : Verdict source bound (.ok message) rest) :
    message.header = .ofBytes source.unread ∧
      message.payload.size = message.header.payloadSize ∧
      source.unread = message.frame ++ rest.unread := by
  cases h with
  | accepted starts header_eq consistent unread_eq => exact ⟨header_eq, consistent, unread_eq⟩

theorem of_protocol {fault : ProtocolFault}
    (h : Verdict source bound (.error (.protocol fault)) rest) :
    (Header.ofBytes source.unread).check bound = .error (.protocol fault) ∧
      source.unread = (Header.ofBytes source.unread).encode ++ rest.unread := by
  generalize hresult : (Except.error (.protocol fault) : Except Error Message) = result at h
  cases h with
  | accepted => cases hresult
  | refused starts check_eq unread_eq =>
      cases hresult
      exact ⟨check_eq, unread_eq⟩
  | short =>
      rw [Except.error.injEq] at hresult
      exact absurd hresult.symm (source.shortage_ne_protocol fault)

theorem of_shortage (h : Verdict source bound (.error source.shortage) rest) :
    rest = source.exhaust := by
  generalize hresult : (Except.error source.shortage : Except Error Message) = result at h
  cases h with
  | accepted => cases hresult
  | @refused fault =>
      rw [Except.error.injEq] at hresult
      exact absurd hresult (source.shortage_ne_protocol fault)
  | short => rfl

/-- Two messages that were read from the same bytes are the same. -/
theorem accepted_unique {other rest' : Source} {message message' : Message}
    (h : Verdict source bound (.ok message) rest) (h' : Verdict other bound (.ok message') rest')
    (hunread : source.unread = other.unread) :
    message = message' ∧ rest.unread = rest'.unread := by
  obtain ⟨hheader, hsize, hbytes⟩ := h.of_ok
  obtain ⟨hheader', hsize', hbytes'⟩ := h'.of_ok
  rw [hunread] at hheader hbytes
  have hsame : message.header = message'.header := hheader.trans hheader'.symm
  have hframe : message.frame.size = message'.frame.size := by
    simp only [Message.size_frame, Message.wireSize, hsize, hsize', hsame]
  obtain ⟨hframes, hrest⟩ := Bytes.append_inj hframe (hbytes.symm.trans hbytes')
  rw [Message.frame, Message.frame, hsame] at hframes
  have hpayload := (Bytes.append_inj rfl hframes).2
  constructor
  · cases message
    cases message'
    simp only [Message.mk.injEq]
    exact ⟨hsame, hpayload⟩
  · exact hrest

theorem refused_unique {other rest' : Source} {fault fault' : ProtocolFault}
    (h : Verdict source bound (.error (.protocol fault)) rest)
    (h' : Verdict other bound (.error (.protocol fault')) rest')
    (hunread : source.unread = other.unread) :
    fault = fault' ∧ rest.unread = rest'.unread := by
  have ⟨hcheck, hbytes⟩ := h.of_protocol
  have ⟨hcheck', hbytes'⟩ := h'.of_protocol
  rw [hunread] at hcheck hbytes
  constructor
  · simpa [hcheck] using hcheck'
  · exact (Bytes.append_inj rfl (hbytes.symm.trans hbytes')).2

/-- Sources with the same bytes in front differ in how they run short and in nothing else. -/
theorem congr {other rest' : Source} {result' : Except Error Message}
    (h : Verdict source bound result rest) (h' : Verdict other bound result' rest')
    (hunread : source.unread = other.unread) :
    (result = result' ∧ result ≠ .error source.shortage ∨
      result = .error source.shortage ∧ result' = .error other.shortage) ∧
    rest.unread = rest'.unread := by
  have hok := h'.ok_iff
  have hprotocol := h'.protocol_iff
  have hshortage := h'.shortage_iff
  rw [← hunread] at hok hprotocol hshortage
  by_cases hmessage : StartsWithMessage bound source.unread
  · obtain ⟨message, rfl⟩ := h.ok_iff.mpr hmessage
    obtain ⟨message', rfl⟩ := hok.mpr hmessage
    have ⟨hsame, hrest⟩ := h.accepted_unique h' hunread
    simp [hsame, hrest]
  by_cases hrefusal : StartsWithRefusal bound source.unread
  · obtain ⟨fault, rfl⟩ := h.protocol_iff.mpr hrefusal
    obtain ⟨fault', rfl⟩ := hprotocol.mpr hrefusal
    have ⟨hsame, hrest⟩ := h.refused_unique h' hunread
    simp [hsame, hrest, (source.shortage_ne_protocol _).symm]
  · obtain rfl := h.shortage_iff.mpr ⟨hmessage, hrefusal⟩
    obtain rfl := hshortage.mpr ⟨hmessage, hrefusal⟩
    simp [h.of_shortage, h'.of_shortage]

end Verdict

/-! ## Streams that end and streams that fail -/

/-- What a read gives when the stream fails in the place where it would have ended. -/
def faulted : Except Error Message → Except Error Message
  | .error .connectionClosed => .error (.network .read)
  | result => result

theorem faulted_of_ne {result : Except Error Message} (h : result ≠ .error .connectionClosed) :
    faulted result = result := by
  unfold faulted
  split
  · exact absurd rfl h
  · rfl

theorem readMessage_fault (bound : UInt32) (input : ByteArray) :
    ((ofBytes input .fault).readMessage bound).1 =
        faulted ((ofBytes input .closed).readMessage bound).1 ∧
      ((ofBytes input .fault).readMessage bound).2.unread =
        ((ofBytes input .closed).readMessage bound).2.unread := by
  have hunread : (ofBytes input .closed).unread = (ofBytes input .fault).unread := by simp
  have ⟨hresult, hrest⟩ := (verdict_readMessage (ofBytes input .closed) bound).congr
    (verdict_readMessage (ofBytes input .fault) bound) hunread
  refine ⟨?_, hrest.symm⟩
  rcases hresult with ⟨hsame, hne⟩ | ⟨hclosed, hfault⟩
  · rw [faulted_of_ne hne, hsame]
  · rw [hclosed, hfault]
    rfl

/-- A frame is read whole also where nothing comes behind it. -/
theorem readMessage_of_frame {message : Message} (h : message.Readable bound) (ending : Ending) :
    ((ofBytes message.frame ending).readMessage bound).1 = .ok message := by
  have hunread : (ofBytes message.frame ending).unread = message.frame ++ ByteArray.empty := by
    rw [unread_ofBytes, ByteArray.append_empty]
  have ⟨_, rest, hread, _⟩ := readMessage_of_unread h hunread
  rw [hread]

/-- What the reads of an input come to, `closed` where the stream ends behind it and `failed` where
it fails there. -/
structure Parsed (bound : UInt32) (input : ByteArray)
    (closed failed : Except Error Message × Source) : Prop where
  accepted_iff : (∃ message, closed.1 = .ok message) ↔ StartsWithMessage bound input
  accepted : ∀ message, closed.1 = .ok message →
    message.header = .ofBytes input ∧ message.payload.size = message.header.payloadSize ∧
      input = message.frame ++ closed.2.unread
  refused_iff : (∃ fault, closed.1 = .error (.protocol fault)) ↔ StartsWithRefusal bound input
  refused : ∀ fault, closed.1 = .error (.protocol fault) →
    (Header.ofBytes input).check bound = .error (.protocol fault) ∧
      input = input.extract 0 Header.size ++ closed.2.unread
  short_iff : closed.1 = .error .connectionClosed ↔
    ¬ StartsWithMessage bound input ∧ ¬ StartsWithRefusal bound input
  short : closed.1 = .error .connectionClosed → closed.2.left = 0
  failed_eq : failed.1 = faulted closed.1
  failed_unread : failed.2.unread = closed.2.unread
  frame : ∀ message : Message, message.Readable bound → input = message.frame →
    closed.1 = .ok message ∧ failed.1 = .ok message

/-- An input that ends is read as a message exactly when it starts with an accepted header and at
least the payload that this announces, and then the frame of the message is what was taken; a header
is refused exactly when the input starts with one that is not accepted, and then its 24 bytes were
taken; otherwise, and only then, the end of the stream is reported, and everything was taken. Where
the stream fails and does not end, a network error takes the place of this report, and all else is
the same. So a frame that reaches just to the end, with a payload or without one, is read. -/
theorem readMessage_of_input (bound : UInt32) (input : ByteArray) :
    Parsed bound input ((ofBytes input .closed).readMessage bound)
      ((ofBytes input .fault).readMessage bound) := by
  have hunread : (ofBytes input .closed).unread = input := unread_ofBytes input .closed
  have verdict := verdict_readMessage (ofBytes input .closed) bound
  have hmessage := verdict.ok_iff
  have hrefusal := verdict.protocol_iff
  have hshortage := verdict.shortage_iff
  rw [hunread] at hmessage hrefusal hshortage
  have ⟨hfailed, hrest⟩ := readMessage_fault bound input
  constructor
  · exact hmessage
  · intro message hok
    rw [hok] at verdict
    have haccepted := verdict.of_ok
    rwa [hunread] at haccepted
  · exact hrefusal
  · intro fault hfault
    rw [hfault] at verdict
    have ⟨hcheck, hbytes⟩ := verdict.of_protocol
    have hsize := (hrefusal.mp ⟨fault, hfault⟩).size_le
    rw [hunread] at hcheck hbytes
    rw [Header.encode_ofBytes hsize] at hbytes
    exact ⟨hcheck, hbytes⟩
  · exact hshortage
  · intro hclosed
    have hshort : ((ofBytes input .closed).readMessage bound).1 =
        .error (ofBytes input .closed).shortage := hclosed
    rw [hshort] at verdict
    rw [verdict.of_shortage]
    exact left_exhaust _
  · exact hfailed
  · exact hrest
  · rintro message hreadable rfl
    exact ⟨readMessage_of_frame hreadable .closed, readMessage_of_frame hreadable .fault⟩

/-- A header without a payload, and then a stream that fails. -/
example : ((ofBytes Message.pong.frame .fault).readMessage 0).1 = .ok .pong := rfl

end Source

end RemoteMemory
