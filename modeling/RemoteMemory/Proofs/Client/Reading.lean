import RemoteMemory.Proofs.Client.Requests

/-!
# What a read hands over

A read asks for no more bytes than the block has, and hands over the payload of the reply as it
came. How long that is was announced by the header of the reply alone, and nothing holds it against
the number of bytes asked for. So a peer may send more of them, up to the payload bound of the
client.
-/

namespace RemoteMemory

theorem Channel.exchange_eq_ok_iff {channel : Channel} {bound : UInt32} {request reply : Message} :
    (channel.exchange bound request).1 = .ok reply ↔
      (channel.sink.writeMessage request).1 = .ok () ∧
        (channel.source.readMessage bound).1 = .ok reply := by
  rw [exchange]
  rcases channel.sink.writeMessage request with ⟨error | _, sink⟩
  · simp
  · simp

namespace Client

variable {config : Config} {attached : Attached} {token : Token} {entry : Entry} {count : Nat}

def readRequest (entry : Entry) (count : Nat) : Message :=
  .request .read entry.handle.number (UInt32.ofNat (min count entry.size))

theorem expectOk_eq_ok_iff {command : Command} {number : UInt64} {reply : Except Error Message}
    {response : Message} :
    expectOk command number reply = .ok response ↔
      reply = .ok response ∧ response.header.command? = some .ok := by
  cases reply with
  | error error => simp [expectOk]
  | ok received =>
      rw [expectOk, ← isOk_iff]
      split
      case isTrue hok =>
        simp only [Except.ok.injEq]
        constructor
        · rintro rfl
          exact ⟨rfl, hok⟩
        · exact And.left
      case isFalse hok =>
        simp only [reduceCtorEq, Except.ok.injEq, false_iff]
        rintro ⟨rfl, hok'⟩
        exact hok hok'

/-- A read of a known block is one exchange, and its result is the payload that comes back. -/
theorem Sound.call_read (h : Sound config attached.client)
    (hlookup : attached.client.cache.lookup? token = some entry) (count : Nat) :
    (attached.call (.read token count)).1 =
      (expectOk .read entry.handle.number
        (attached.channel.exchange config.payloadBound (readRequest entry count)).1).map
          fun response => .data response.payload := by
  have hsmall := h.lt_size_of_le hlookup (Nat.min_le_right count entry.size)
  simp only [Attached.call, Client.call, read, hlookup, if_pos hsmall, ask, Dialogue.run,
    h.config_eq, readRequest]
  cases (attached.channel.exchange config.payloadBound _).1 with
  | error error => rfl
  | ok response =>
      cases hok : response.header.isOk with
      | true => simp [expectOk, hok, succeed, Except.map, Dialogue.run]
      | false => simp [expectOk, hok, fail, Except.map, Dialogue.run]

theorem Sound.call_read_eq_ok_iff (h : Sound config attached.client)
    (hlookup : attached.client.cache.lookup? token = some entry) {data : ByteArray} :
    (attached.call (.read token count)).1 = .ok (.data data) ↔
      (attached.channel.sink.writeMessage (readRequest entry count)).1 = .ok () ∧
        ∃ reply, (attached.channel.source.readMessage config.payloadBound).1 = .ok reply ∧
          reply.header.command? = some .ok ∧ reply.payload = data := by
  rw [h.call_read hlookup]
  constructor
  · intro hread
    cases hexpect : expectOk .read entry.handle.number
      (attached.channel.exchange config.payloadBound (readRequest entry count)).1 with
    | error error => simp [hexpect, Except.map] at hread
    | ok reply =>
        simp only [hexpect, Except.map, Except.ok.injEq, Reply.data.injEq] at hread
        have ⟨hexchange, hok⟩ := expectOk_eq_ok_iff.mp hexpect
        have ⟨hwrite, hreply⟩ := Channel.exchange_eq_ok_iff.mp hexchange
        exact ⟨hwrite, reply, hreply, hok, hread⟩
  · rintro ⟨hwrite, reply, hreply, hok, rfl⟩
    have hexchange := Channel.exchange_eq_ok_iff.mpr ⟨hwrite, hreply⟩
    rw [expectOk_eq_ok_iff.mpr ⟨hexchange, hok⟩]
    rfl

theorem size_of_readMessage_ok {source rest : Source} {bound : UInt32} {reply : Message}
    (h : source.readMessage bound = (.ok reply, rest)) (hok : reply.header.command? = some .ok) :
    reply.payload.size = reply.header.byteCount.toNat ∧
      reply.header.byteCount.toNat ≤ bound.toNat := by
  have hreadable := Source.readable_of_readMessage h
  constructor
  · rw [hreadable.consistent, Header.payloadSize, hok]
    rfl
  · exact UInt32.le_iff_toNat_le.mp hreadable.acceptable.2.2

/-- Whatever was asked for, a peer can make a read hand over any bytes within the payload bound. -/
theorem Sound.exists_source_of_read (h : Sound config attached.client)
    (hlookup : attached.client.cache.lookup? token = some entry) (count : Nat) {data : ByteArray}
    (hdata : data.size ≤ config.payloadBound.toNat) :
    ∃ source, (Attached.call ⟨attached.client, ⟨source, {}⟩⟩ (.read token count)).1 =
      .ok (.data data) := by
  let reply : Message := ⟨.ofCommand .ok entry.handle.number (UInt32.ofNat data.size), data⟩
  let source := Source.ofBytes reply.frame .closed
  have hreadable : reply.Readable config.payloadBound := Message.readable_of_size rfl rfl hdata
  have hunread : source.unread = reply.frame ++ ByteArray.empty := by
    rw [ByteArray.append_empty]
    exact Source.unread_ofBytes _ _
  have ⟨_, rest, hread, _⟩ := Source.readMessage_of_unread hreadable hunread
  have hopen : Sink.Open {} := ⟨rfl, rfl⟩
  have hsound : Sound config (Attached.mk attached.client ⟨source, {}⟩).client := h
  refine ⟨source, (hsound.call_read_eq_ok_iff hlookup).mpr ⟨?_, reply, ?_, ?_, rfl⟩⟩
  · rw [Sink.writeMessage_of_open hopen]
  · rw [hread]
  · exact Header.command?_ofCommand _ _ _

/-- After any calls, over any channel, a read of a known block hands over bytes exactly when the
request for them was taken and an OK came back, and then they are the payload of this OK. There are
as many of them as its size field says, which the payload bound limits and the number of bytes asked
for does not: any bytes within the payload bound can come back. -/
theorem read_after_callAll (config : Config) (channel : Channel) (calls : List Call)
    (token : Token) (entry : Entry) (count : Nat)
    (hlookup : (Attached.callAll ⟨ofConfig config, channel⟩ calls).2.client.cache.lookup? token =
      some entry) :
    let last := (Attached.callAll ⟨ofConfig config, channel⟩ calls).2
    (∀ data, (last.call (.read token count)).1 = .ok (.data data) ↔
      (last.channel.sink.writeMessage (readRequest entry count)).1 = .ok () ∧
        ∃ reply, (last.channel.source.readMessage config.payloadBound).1 = .ok reply ∧
          reply.header.command? = some .ok ∧ reply.payload = data ∧
          data.size = reply.header.byteCount.toNat ∧
          data.size ≤ config.payloadBound.toNat) ∧
      ∀ data, data.size ≤ config.payloadBound.toNat →
        ∃ source, (Attached.call ⟨last.client, ⟨source, {}⟩⟩ (.read token count)).1 =
          .ok (.data data) := by
  intro last
  have hsound : Sound config last.client := (sound_ofConfig config).callAll calls
  constructor
  · intro data
    rw [hsound.call_read_eq_ok_iff hlookup]
    constructor
    · rintro ⟨hwrite, reply, hreply, hok, rfl⟩
      have ⟨hsize, hbound⟩ := size_of_readMessage_ok (Prod.ext hreply rfl) hok
      exact ⟨hwrite, reply, hreply, hok, rfl, hsize, hsize ▸ hbound⟩
    · rintro ⟨hwrite, reply, hreply, hok, hdata, -⟩
      exact ⟨hwrite, reply, hreply, hok, hdata⟩
  · intro data hdata
    exact hsound.exists_source_of_read hlookup count hdata

/-- A handle for an ALLOC, and then 8 bytes. -/
def longReplies : Source :=
  .ofBytes (Bytes.join [(Message.ok 1).frame,
    (⟨.ofCommand .ok 1 8, ⟨#[1, 2, 3, 4, 5, 6, 7, 8]⟩⟩ : Message).frame]) .closed

theorem read_after_callAll_of_longReplies :
    let last := (Attached.callAll ⟨ofConfig {}, ⟨longReplies, {}⟩⟩ [.alloc 4]).2
    last.client.cache.lookup? ⟨1⟩ = some ⟨⟨1, by decide⟩, 4, Bytes.zeros 4⟩ ∧
      ∀ data, data.size ≤ 16777216 →
        ∃ source, (Attached.call ⟨last.client, ⟨source, {}⟩⟩ (.read ⟨1⟩ 2)).1 =
          .ok (.data data) :=
  ⟨rfl, (read_after_callAll {} ⟨longReplies, {}⟩ [.alloc 4] ⟨1⟩ _ 2 rfl).2⟩

/-- A block of 4 bytes, of which 2 are asked for and 8 come back. -/
theorem read_more_than_asked :
    let last := (Attached.callAll ⟨ofConfig {}, ⟨longReplies, {}⟩⟩ [.alloc 4]).2
    ∃ entry data, last.client.cache.lookup? ⟨1⟩ = some entry ∧
      (last.call (.read ⟨1⟩ 2)).1 = .ok (.data data) ∧ ¬ data.size ≤ min 2 entry.size :=
  ⟨⟨⟨1, by decide⟩, 4, Bytes.zeros 4⟩, ⟨#[1, 2, 3, 4, 5, 6, 7, 8]⟩, rfl, rfl, by decide⟩

end Client

end RemoteMemory
