import RemoteMemory.Proofs.Server.Conversation
import RemoteMemory.Proofs.Server.FlatMap
import RemoteMemory.Proofs.Stream.Delivery
import RemoteMemory.Session

/-!
# One exchange between a client and its server

Between calls nothing is in flight: the server has taken every byte that was sent, and the client
has read every answer. A readable request then gets the answer of the flat map that the server
shows, and leaves nothing in flight again. A request without payload that is above the server's
bound gets no answer at all.
-/

namespace RemoteMemory

open Server (FlatMap State)

namespace Server.FlatMap

/-- Every response is within the bound that the request was within. -/
theorem readable_respond (config : Config) (flat : FlatMap) {request : Message} {bound : UInt32}
    (h : request.header.byteCount ≤ bound) : (flat.respond config request).1.Readable bound := by
  have hempty : ∀ command handle, (Message.request command handle 0).Readable bound := by
    intro command handle
    exact Message.readable_plain command handle bound
  unfold respond
  cases request.header.command? with
  | none => exact hempty _ _
  | some command =>
      cases command with
      | alloc =>
          dsimp only [alloc]
          split <;> exact hempty _ _
      | free =>
          dsimp only [free]
          split <;> exact hempty _ _
      | write =>
          dsimp only [write]
          repeat' split
          all_goals exact hempty _ _
      | read =>
          dsimp only [read]
          cases flat.blocks.lookup request.header.handle with
          | none => exact hempty _ _
          | some bytes =>
              have hcount : min request.header.byteCount.toNat bytes.size ≤ bound.toNat :=
                Nat.le_trans (Nat.min_le_left _ _) (UInt32.le_iff_toNat_le.mp h)
              have hsize : (bytes.extract 0 (min request.header.byteCount.toNat bytes.size)).size =
                  min request.header.byteCount.toNat bytes.size := by
                rw [ByteArray.size_extract]
                omega
              exact Message.readable_of_size rfl hsize hcount
      | _ => exact hempty _ _

end Server.FlatMap

namespace Session

/-- A session between calls, on a server that shows a flat map. -/
structure Serves (config : Server.Config) (session : Session) (flat : FlatMap) (served : Nat) :
    Prop where
  shows_flat : State.Shows config session.connection.state flat
  bound_eq : session.connection.bound = config.payloadBound
  served_eq : session.connection.served = served
  sink_open : session.connection.channel.sink.Open
  ending_eq : session.connection.channel.source.ending = .closed
  taken : session.connection.channel.source.unread = ByteArray.empty
  collected : session.connection.channel.sink.written = ByteArray.empty
  read : session.answers.unread = ByteArray.empty

variable {config : Server.Config} {session : Session} {flat : FlatMap} {served : Nat}

theorem serves_ofState {state : State} (h : State.Shows config state flat) :
    Serves config (ofState state config.payloadBound) flat 0 where
  shows_flat := h
  bound_eq := rfl
  served_eq := rfl
  sink_open := ⟨rfl, rfl⟩
  ending_eq := rfl
  taken := Source.unread_ofBytes _ _
  collected := rfl
  read := Source.unread_ofBytes _ _

theorem incomplete_empty (bound : UInt32) : Incomplete bound ByteArray.empty :=
  .inl (by decide)

/-- The server takes an item that was sent, and nothing but it. -/
theorem Serves.pump_receive (h : Serves config session flat served) {item : Item}
    (hitem : item.Admissible config.payloadBound) :
    ∃ rest : Source, rest.unread = ByteArray.empty ∧ rest.ending = .closed ∧
      (session.connection.receive item.bytes).pump =
        (none, (session.connection.receive item.bytes).answered item.message?.toList rest) := by
  have hopen : (session.connection.receive item.bytes).channel.sink.Open := h.sink_open
  have hunread : (session.connection.receive item.bytes).channel.source.unread =
      item.bytes ++ ByteArray.empty := by
    change (session.connection.channel.source.feed item.bytes).unread = _
    rw [Source.unread_feed, h.taken, ByteArray.empty_append, ByteArray.append_empty]
  have hdecomposition : Decomposition (session.connection.receive item.bytes).bound
      (session.connection.receive item.bytes).channel.source.unread [item] ByteArray.empty := by
    rw [hunread]
    change Decomposition session.connection.bound _ _ _
    rw [h.bound_eq]
    exact (Decomposition.nil (incomplete_empty _)).cons hitem
  obtain ⟨rest, hrest, hsame, hpump⟩ :=
    Server.Connection.pump_of_decomposition hopen hdecomposition
  refine ⟨rest, hrest, hsame.ending_eq.symm.trans h.ending_eq, hpump.trans ?_⟩
  cases item <;> rfl

section Exchange

variable {request : Message} {bound : UInt32} {error? : Option Error}
  {connection : Server.Connection} {written : ByteArray}

theorem collect_of_written (h : connection.channel.sink.written = written) :
    connection.collect = (written, connection.collect.2) := by
  rw [← h]
  rfl

theorem exchange_of_read {reply : Except Error Message} {last : Source}
    (hpump : (session.connection.receive request.frame).pump = (error?, connection))
    (hwritten : connection.channel.sink.written = written)
    (hwait : (session.answers.feed written).wouldWait bound = false)
    (hread : (session.answers.feed written).readMessage bound = (reply, last)) :
    exchange bound request session = (some reply, ⟨connection.collect.2, last⟩) := by
  rw [exchange, hpump]
  dsimp only
  rw [collect_of_written hwritten]
  dsimp only
  rw [hwait, hread]
  rfl

theorem exchange_of_wait
    (hpump : (session.connection.receive request.frame).pump = (error?, connection))
    (hwritten : connection.channel.sink.written = written)
    (hwait : (session.answers.feed written).wouldWait bound = true) :
    exchange bound request session =
      (none, ⟨connection.collect.2, session.answers.feed written⟩) := by
  rw [exchange, hpump]
  dsimp only
  rw [collect_of_written hwritten]
  dsimp only
  rw [hwait]
  rfl

end Exchange

/-- A readable request is answered as by the flat map, and the answer is read. -/
theorem Serves.exchange_of_readable (h : Serves config session flat served)
    (hmax : config.maxHandles < 2 ^ 32) {request : Message} {bound : UInt32}
    (hserver : request.Readable config.payloadBound) (hclient : request.Readable bound) :
    ∃ next, exchange bound request session =
        (some (.ok (flat.respond config request).1), next) ∧
      Serves config next (flat.respond config request).2 (served + 1) := by
  obtain ⟨rest, hrest, hending, hpump⟩ := h.pump_receive hserver.admissible
  obtain ⟨hresponse, hshows⟩ := h.shows_flat.dispatch hmax request
  have hreadable := flat.readable_respond config hclient.acceptable.2.2
  rw [Message.bytes_item, Message.message?_item] at hpump
  -- What the server writes is the frame of the one response.
  have hwritten : ((session.connection.receive request.frame).answered [request]
      rest).channel.sink.written = (flat.respond config request).1.frame := by
    change session.connection.channel.sink.written ++
      ((session.connection.state.dispatch request).1.frame ++ ByteArray.empty) = _
    rw [h.collected, hresponse, ByteArray.empty_append, ByteArray.append_empty]
  have hunread : (session.answers.feed (flat.respond config request).1.frame).unread =
      (flat.respond config request).1.frame ++ ByteArray.empty := by
    rw [Source.unread_feed, h.read, ByteArray.empty_append, ByteArray.append_empty]
  obtain ⟨hwait, last, hread, hlast, -⟩ := Source.readMessage_of_unread hreadable hunread
  refine ⟨⟨((session.connection.receive request.frame).answered [request] rest).collect.2, last⟩,
    exchange_of_read hpump hwritten hwait hread, ?_⟩
  exact {
    shows_flat := hshows
    bound_eq := h.bound_eq
    served_eq := congrArg (· + 1) h.served_eq
    sink_open := ⟨h.sink_open.room_eq, h.sink_open.flushFails_eq⟩
    ending_eq := hending
    taken := hrest
    collected := rfl
    read := hlast }

/-- A request without payload that is refused goes unanswered. -/
theorem Serves.exchange_of_refused (h : Serves config session flat served) {request : Message}
    {bound : UInt32} (hcheck : request.header.check config.payloadBound ≠ .ok ())
    (hpayload : request.payload = ByteArray.empty) :
    ∃ next, exchange bound request session = (none, next) ∧ Serves config next flat served := by
  have hdropped : (Item.dropped request.header.encode).Admissible config.payloadBound := by
    refine ⟨Header.size_encode _, ?_⟩
    rw [Header.ofBytes_encode]
    exact hcheck
  have hframe : (Item.dropped request.header.encode).bytes = request.frame := by
    rw [Message.frame, hpayload, ByteArray.append_empty]
    rfl
  obtain ⟨rest, hrest, hending, hpump⟩ := h.pump_receive hdropped
  rw [hframe] at hpump
  have hwritten : ((session.connection.receive request.frame).answered []
      rest).channel.sink.written = ByteArray.empty := by
    change session.connection.channel.sink.written ++ ByteArray.empty = _
    rw [h.collected, ByteArray.empty_append]
  have hunread : (session.answers.feed ByteArray.empty).unread = ByteArray.empty := by
    rw [Source.unread_feed, h.read, ByteArray.empty_append]
  have hwait : (session.answers.feed ByteArray.empty).wouldWait bound = true := by
    have hleft : (session.answers.feed ByteArray.empty).left < Header.size := by
      rw [← Source.size_unread, hunread]
      decide
    rw [Source.wouldWait, Source.header?_eq_none_iff.mpr hleft]
  refine ⟨⟨((session.connection.receive request.frame).answered [] rest).collect.2,
    session.answers.feed ByteArray.empty⟩, exchange_of_wait hpump hwritten hwait, ?_⟩
  exact {
    shows_flat := h.shows_flat
    bound_eq := h.bound_eq
    served_eq := h.served_eq
    sink_open := ⟨h.sink_open.room_eq, h.sink_open.flushFails_eq⟩
    ending_eq := hending
    taken := hrest
    collected := rfl
    read := hunread }

/-- When the client hangs up, the connection ends well and the server shows what it did. -/
theorem Serves.run (h : Serves config session flat served) :
    ∃ last, session.connection.run = (.ok (), last) ∧ last.served = served ∧
      State.Shows config last.state flat := by
  have hdecomposition : Decomposition session.connection.bound
      session.connection.channel.source.unread [] ByteArray.empty := by
    rw [h.taken]
    exact Decomposition.nil (incomplete_empty _)
  obtain ⟨rest, -, hsame, hpump⟩ :=
    Server.Connection.pump_of_decomposition h.sink_open hdecomposition
  have hending : rest.ending = .closed := hsame.ending_eq.symm.trans h.ending_eq
  rw [List.filterMap_nil, Server.Connection.answered_nil] at hpump
  refine ⟨(session.connection.moved rest).moved rest.exhaust, ?_, h.served_eq, h.shows_flat⟩
  rw [Server.Connection.run, hpump]
  exact Server.Connection.finish_of_closed hending

end Session

end RemoteMemory
