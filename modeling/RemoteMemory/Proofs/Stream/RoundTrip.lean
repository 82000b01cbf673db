import RemoteMemory.Proofs.Stream.Limits
import RemoteMemory.Proofs.Stream.Readback

/-!
# Messages survive a stream

No mark separates the frames on a stream. Where a frame ends follows from its header alone, so a
reader that takes as many bytes as each header announces stays in step with the writer over any
number of messages, and no two lists of readable messages have the same bytes.
-/

namespace RemoteMemory

/-- The size field counts payload for every command byte but three, known or not. -/
theorem Header.payloadSize_eq (header : Header) :
    header.payloadSize =
      if header.command ∈ [Command.alloc.code, Command.read.code, Command.realloc.code] then 0
      else header.byteCount.toNat := by
  unfold payloadSize
  cases hcommand : header.command? with
  | none =>
      have hunknown : ∀ command : Command, header.command ≠ command.code := by
        intro command hcode
        rw [command?, hcode, Command.ofCode?_code] at hcommand
        cases hcommand
      simp [hunknown]
  | some command =>
      rw [← Command.ofCode?_eq_some_iff.mp hcommand]
      cases command <;> rfl

namespace Message

variable {message : Message} {bound : UInt32}

theorem readable_iff :
    message.Readable bound ↔ message.header.check bound = .ok () ∧ message.payload.size =
      if message.header.command ∈ [Command.alloc.code, Command.read.code, Command.realloc.code]
      then 0 else message.header.byteCount.toNat := by
  rw [← Header.payloadSize_eq, Header.check_eq_ok_iff]
  constructor
  · intro h
    exact ⟨h.acceptable, h.consistent⟩
  · intro h
    exact ⟨h.1, h.2⟩

end Message

/-- What a reader gets decides what was written. -/
theorem eq_of_join_frames_eq {bound : UInt32} {messages others : List Message}
    (hmessages : ∀ message ∈ messages, message.Readable bound)
    (hothers : ∀ message ∈ others, message.Readable bound)
    (heq : Bytes.join (others.map Message.frame) = Bytes.join (messages.map Message.frame)) :
    others = messages := by
  let source := Source.ofBytes (Bytes.join (messages.map Message.frame)) .closed
  have hunread : source.unread = Bytes.join (messages.map Message.frame) :=
    Source.unread_ofBytes _ _
  have hread := Source.readMessages_of_frames hmessages hunread
  have hread' := Source.readMessages_of_frames hothers (hunread.trans heq.symm)
  exact (Prod.mk.inj (hread'.symm.trans hread)).1

/-- A message is readable when its header is accepted and its payload is as long as the size field
says, or empty where the size field counts no payload. Readable messages that are written to one
stream leave their frames there, one behind the other. Reading the stream gives the same messages
in the same order, with no byte behind the last one, and then the end of the stream. So no other
readable messages have these bytes. -/
theorem frames_round_trip {bound : UInt32} {messages : List Message}
    (hmessages : ∀ message ∈ messages, message.Readable bound) :
    (∀ message : Message, message.Readable bound ↔
      message.header.check bound = .ok () ∧ message.payload.size =
        if message.header.command ∈ [Command.alloc.code, Command.read.code, Command.realloc.code]
        then 0 else message.header.byteCount.toNat) ∧
    ∃ sink, ({} : Sink).writeMessages messages = (messages.length, .ok (), sink) ∧
      sink.written = Bytes.join (messages.map Message.frame) ∧
      (Source.ofBytes sink.written .closed).readMessages bound =
        (messages, .connectionClosed, (Source.ofBytes sink.written .closed).exhaust) ∧
      ((Source.ofBytes sink.written .closed).afterReads bound messages.length).unread =
        ByteArray.empty ∧
      ∀ others, (∀ message ∈ others, message.Readable bound) →
        Bytes.join (others.map Message.frame) = sink.written → others = messages := by
  refine ⟨fun message => Message.readable_iff, ?_⟩
  have hopen : Sink.Open {} := ⟨rfl, rfl⟩
  have hwrite := Sink.writeMessages_of_open hopen messages
  have hwritten := ByteArray.empty_append (b := Bytes.join (messages.map Message.frame))
  refine ⟨_, hwrite, hwritten, ?_, ?_, ?_⟩
  · exact Source.readMessages_of_frames hmessages ((Source.unread_ofBytes _ _).trans hwritten)
  · apply Source.unread_afterReads_of_frames hmessages
    rw [ByteArray.append_empty]
    exact (Source.unread_ofBytes _ _).trans hwritten
  · intro others hothers heq
    exact eq_of_join_frames_eq hmessages hothers (heq.trans hwritten)

/-- Commands with and without a payload, one of them unknown, and fields that no request uses. -/
def assorted : List Message :=
  [⟨{ command := 0x10, flags := 0xBEEF, byteCount := 9, reserved := 7 }, ByteArray.empty⟩,
    ⟨{ command := 0x55, handle := 3, byteCount := 2 }, ⟨#[0xE7, 0xE7]⟩⟩,
    ⟨{ command := 0x20, handle := 1, byteCount := 1 }, ⟨#[5]⟩⟩,
    .request .ping 0 0]

theorem frames_round_trip_of_assorted :
    (∀ message ∈ assorted, message.Readable 9) ∧
    ∃ sink, ({} : Sink).writeMessages assorted = (4, .ok (), sink) ∧
      (Source.ofBytes sink.written .closed).readMessages 9 =
        (assorted, .connectionClosed, (Source.ofBytes sink.written .closed).exhaust) := by
  have hreadable : ∀ message ∈ assorted, message.Readable 9 := by
    intro message hmem
    simp only [assorted, List.mem_cons, List.not_mem_nil, or_false] at hmem
    rw [Message.readable_iff]
    rcases hmem with rfl | rfl | rfl | rfl
    all_goals exact ⟨rfl, rfl⟩
  have ⟨_, sink, hwrite, _, hread, _⟩ := frames_round_trip hreadable
  exact ⟨hreadable, sink, hwrite, hread⟩

end RemoteMemory
