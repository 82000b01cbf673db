import RemoteMemory.Proofs.Header.Codec
import RemoteMemory.Proofs.Stream.Decomposition
import RemoteMemory.Stream.Framing

/-!
# Readable messages arrive

A message is readable within a bound when its header is accepted there and announces its payload.
Its frame is then one item, and reading it gives the message back, whatever stands behind it.
-/

namespace RemoteMemory

namespace Message

/-- What a reader with this bound takes whole. -/
structure Readable (message : Message) (bound : UInt32) : Prop where
  acceptable : message.header.Acceptable bound
  consistent : message.Consistent

variable {message : Message} {bound : UInt32}

theorem Readable.check_eq (h : message.Readable bound) : message.header.check bound = .ok () :=
  Header.check_eq_ok_iff.mpr h.acceptable

def item (message : Message) : Item :=
  .request message.header.encode message.payload

theorem bytes_item (message : Message) : message.item.bytes = message.frame := rfl

theorem message?_item (message : Message) : message.item.message? = some message := by
  rw [item, Item.message?, Header.ofBytes_encode]

theorem Readable.admissible (h : message.Readable bound) : message.item.Admissible bound := by
  refine ⟨Header.size_encode _, ?_, ?_⟩
  · rw [Header.ofBytes_encode]
    exact h.check_eq
  · rw [Header.ofBytes_encode]
    exact h.consistent

theorem readable_ofCommand {command : Command} {handle : UInt64} {byteCount : UInt32}
    {payload : ByteArray} (hbound : byteCount ≤ bound)
    (hsize : payload.size = if command.sizeIsPayload then byteCount.toNat else 0) :
    Readable ⟨.ofCommand command handle byteCount, payload⟩ bound where
  acceptable := ⟨rfl, rfl, hbound⟩
  consistent := by
    rw [Consistent, Header.payloadSize, Header.command?_ofCommand]
    exact hsize

theorem toNat_ofNat_of_le {count : Nat} {bound : UInt32} (h : count ≤ bound.toNat) :
    (UInt32.ofNat count).toNat = count :=
  UInt32.toNat_ofNat_of_lt' (Nat.lt_of_le_of_lt h bound.toNat_lt)

theorem readable_plain (command : Command) (handle : UInt64) (bound : UInt32) :
    (request command handle 0).Readable bound := by
  refine readable_ofCommand UInt32.zero_le ?_
  by_cases hpayload : command.sizeIsPayload = true
  · rw [if_pos hpayload]
    rfl
  · rw [if_neg hpayload]
    rfl

theorem readable_of_count {command : Command} (hcommand : command.sizeIsPayload = false)
    {handle : UInt64} {count : Nat} (hbound : count ≤ bound.toNat) :
    (request command handle (UInt32.ofNat count)).Readable bound := by
  refine readable_ofCommand ?_ ?_
  · rw [UInt32.le_iff_toNat_le, toNat_ofNat_of_le hbound]
    exact hbound
  · rw [hcommand]
    rfl

theorem readable_of_size {command : Command} (hcommand : command.sizeIsPayload = true)
    {handle : UInt64} {payload : ByteArray} {count : Nat} (hsize : payload.size = count)
    (hbound : count ≤ bound.toNat) :
    Readable ⟨.ofCommand command handle (UInt32.ofNat count), payload⟩ bound := by
  refine readable_ofCommand ?_ ?_
  · rw [UInt32.le_iff_toNat_le, toNat_ofNat_of_le hbound]
    exact hbound
  · rw [if_pos hcommand, toNat_ofNat_of_le hbound]
    exact hsize

end Message

namespace Source

variable {source : Source} {message : Message} {bound : UInt32} {back : ByteArray}

theorem readMessage_of_unread (hmessage : message.Readable bound)
    (hunread : source.unread = message.frame ++ back) :
    source.wouldWait bound = false ∧
      ∃ rest, source.readMessage bound = (.ok message, rest) ∧ rest.unread = back ∧
        source.SameStream rest := by
  rw [Message.frame, ByteArray.append_assoc] at hunread
  obtain ⟨behind, hheader, hbehind, hsame⟩ :=
    header?_of_unread (Header.size_encode message.header) hunread
  obtain ⟨rest, htake, hrest, hsame'⟩ := take?_of_unread hbehind
  have hpayload : message.payload.size = message.header.payloadSize := hmessage.consistent
  have hleft : ¬ behind.left < message.header.payloadSize := by
    rw [← size_unread, hbehind, ByteArray.size_append]
    omega
  rw [Header.ofBytes_encode] at hheader
  rw [hpayload] at htake
  refine ⟨?_, rest, ?_, hrest, hsame.trans hsame'⟩
  · simp [wouldWait, hheader, hmessage.check_eq, hleft]
  · simp [readMessage, readHeader, readPayload, hheader, hmessage.check_eq, htake]

end Source

end RemoteMemory
