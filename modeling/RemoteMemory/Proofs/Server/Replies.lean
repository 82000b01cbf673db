import RemoteMemory.Proofs.Server.Faults
import RemoteMemory.Proofs.Stream.Readback
import Mathlib.Data.List.Forall2

/-!
# What a server writes can be read

Every response is PONG, OK or ERROR, and its size field counts its payload. Only an answer to READ
brings a payload, and no more of it than was asked for. A request that was taken asks for no more
than the bound of the connection, so a client with this bound or a wider one reads back every
response of every connection, and then finds the stream at its end.
-/

namespace RemoteMemory

theorem Message.eq_of_withPayload_ok {command : Command} {handle : UInt64} {payload : ByteArray}
    {message : Message} (h : withPayload command handle payload = .ok message) :
    message = ⟨.ofCommand command handle (UInt32.ofNat payload.size), payload⟩ := by
  unfold withPayload at h
  split at h
  · cases h
    rfl
  · cases h

/-- What is read into a buffer is no more than the buffer had room for. -/
theorem Arena.size_of_readInto_ok {arena : Arena} {region : Region} {buffer data : ByteArray}
    (h : arena.readInto region buffer = (.ok (), data)) : data.size ≤ buffer.size := by
  unfold readInto at h
  split at h
  · cases h
  · split at h
    · cases h
    · cases h
      rw [ByteArray.size_extract]
      omega

namespace Server

/-- What the response to a request is, when the size field of the request is within the bound. -/
structure Replies (bound : UInt32) (request response : Message) : Prop where
  command : response.header.command? = some .pong ∨ response.header.command? = some .ok ∨
    response.header.command? = some .error
  acceptable : response.header.Acceptable bound
  size_eq : response.header.byteCount.toNat = response.payload.size
  payload : response.payload ≠ ByteArray.empty →
    response.header.command? = some .ok ∧ request.header.command? = some .read

variable {bound : UInt32} {request response : Message}

theorem Replies.readable (h : Replies bound request response) : response.Readable bound where
  acceptable := h.acceptable
  consistent := by
    rw [Message.Consistent, Header.payloadSize, ← h.size_eq]
    rcases h.command with hcommand | hcommand | hcommand <;> rw [hcommand] <;> rfl

/-- All responses can be read within the bound of the requests and within a wider one. -/
theorem readable_of_replies {requests responses : List Message} {wider : UInt32}
    (h : List.Forall₂ (Replies bound) requests responses) (hwider : bound ≤ wider) :
    ∀ response ∈ responses, response.Readable wider := by
  induction h with
  | nil => exact List.forall_mem_nil _
  | cons hreply _ ih => exact List.forall_mem_cons.mpr ⟨hreply.readable.mono hwider, ih⟩

theorem replies_plain (bound : UInt32) (request : Message) {command : Command}
    (h : command = .pong ∨ command = .ok ∨ command = .error) (handle : UInt64) :
    Replies bound request (.request command handle 0) where
  command := by
    rw [Message.request, Header.command?_ofCommand]
    simpa only [Option.some.injEq] using h
  acceptable := (Message.readable_plain command handle bound).acceptable
  size_eq := rfl
  payload := fun h => absurd rfl h

theorem replies_ok (bound : UInt32) (request : Message) (handle : UInt64) :
    Replies bound request (.ok handle) :=
  replies_plain bound request (.inr (.inl rfl)) handle

theorem replies_error (bound : UInt32) (request : Message) (handle : UInt64) :
    Replies bound request (.error handle) :=
  replies_plain bound request (.inr (.inr rfl)) handle

namespace State

theorem replies_alloc (bound : UInt32) (request : Message) (state : State) (size : Nat) :
    Replies bound request (state.alloc size).1 := by
  unfold alloc
  split
  · exact replies_error bound request 0
  · split
    · exact replies_ok bound request _
    · exact replies_error bound request 0

theorem replies_free (bound : UInt32) (request : Message) (state : State) (handle : UInt64) :
    Replies bound request (state.free handle).1 := by
  unfold free
  split
  · exact replies_error bound request handle
  · exact replies_ok bound request handle

theorem replies_write (bound : UInt32) (request : Message) (state : State) (handle : UInt64)
    (data : ByteArray) : Replies bound request (state.write handle data).1 := by
  unfold write
  split
  · exact replies_error bound request handle
  · split
    · exact replies_error bound request handle
    · split
      · exact replies_ok bound request handle
      · exact replies_error bound request handle

/-- The payload is no longer than the request asked for, and a request is within the bound. -/
theorem replies_read (state : State) (hread : request.header.command? = some .read)
    (hbound : request.header.byteCount ≤ bound) (handle : UInt64) :
    Replies bound request (state.read handle request.header.byteCount.toNat) := by
  unfold read
  split
  · exact replies_error bound request handle
  next mapping _ =>
    split
    · exact replies_error bound request handle
    next data hdata =>
      split
      next response hresponse =>
        have hsize : data.size ≤ bound.toNat := by
          have hbuffer := Arena.size_of_readInto_ok hdata
          rw [Bytes.size_zeros] at hbuffer
          have hcount := UInt32.le_iff_toNat_le.mp hbound
          omega
        have hcommand : Command.ok.sizeIsPayload = true := rfl
        rw [Message.eq_of_withPayload_ok hresponse]
        exact {
          command := .inr (.inl (Header.command?_ofCommand _ _ _))
          acceptable := (Message.readable_of_size hcommand rfl hsize).acceptable
          size_eq := Message.toNat_ofNat_of_le hsize
          payload := fun _ => ⟨Header.command?_ofCommand _ _ _, hread⟩ }
      · exact replies_error bound request handle

theorem replies_dispatch (state : State) (h : request.header.byteCount ≤ bound) :
    Replies bound request (state.dispatch request).1 := by
  unfold dispatch
  split
  · exact replies_plain bound request (.inl rfl) 0
  · exact replies_alloc bound request state _
  · exact replies_free bound request state _
  · exact replies_write bound request state _ _
  next hread => exact replies_read state hread h _
  · exact replies_error bound request 0

theorem replies_dispatchAll (state : State) {requests : List Message}
    (h : ∀ request ∈ requests, request.header.byteCount ≤ bound) :
    List.Forall₂ (Replies bound) requests (state.dispatchAll requests).1 := by
  induction requests generalizing state with
  | nil => exact .nil
  | cons request rest ih =>
      obtain ⟨hrequest, hrest⟩ := List.forall_mem_cons.mp h
      rw [dispatchAll_cons]
      exact .cons (state.replies_dispatch hrequest) (ih _ hrest)

end State

/-! ## Connections -/

namespace Connection

variable {input tail : ByteArray} {items : List Item}

theorem byteCount_le_of_decomposition (h : Decomposition bound input items tail) :
    ∀ request ∈ items.filterMap Item.message?, request.header.byteCount ≤ bound := by
  intro request hrequest
  obtain ⟨item, hitem, hmessage⟩ := List.mem_filterMap.mp hrequest
  cases item with
  | dropped block => cases hmessage
  | request block payload =>
      cases hmessage
      obtain ⟨-, hcheck, -⟩ := h.admissible _ hitem
      exact (Header.check_eq_ok_iff.mp hcheck).2.2

/-- The state after connections that were served one after another, each on an input with its
ending, and that could write all of their answers. -/
def serveEach (state : State) (bound : UInt32) : List (ByteArray × Ending) → State
  | [] => state
  | (input, ending) :: rest =>
    serveEach (onStream state bound input ending {}).run.2.state bound rest

/-- Whatever connections a server has served before, and whatever comes in on the next one, what
it writes there are the frames of the responses to the requests among the input, as many as were
counted, and nothing else. A client with the bound of the connection or a wider one reads all of
them back and then finds the stream at its end. -/
theorem readMessages_of_written (config : Config) (bound : UInt32)
    (before : List (ByteArray × Ending)) (input : ByteArray) (ending : Ending) :
    let state := serveEach (.ofConfig config) bound before
    ∃ items tail last, Decomposition bound input items tail ∧
      (onStream state bound input ending {}).run = (endResult ending, last) ∧
      let requests := items.filterMap Item.message?
      let responses := (state.dispatchAll requests).1
      List.Forall₂ (Replies bound) requests responses ∧ responses.length = last.served ∧
        last.channel.sink.written = Bytes.join (responses.map Message.frame) ∧
        ∀ wider, bound ≤ wider →
          (Source.ofBytes last.channel.sink.written .closed).readMessages wider =
            (responses, .connectionClosed,
              (Source.ofBytes last.channel.sink.written .closed).exhaust) := by
  intro state
  obtain ⟨items, tail, h⟩ := Decomposition.exists_of_input bound input
  obtain ⟨last, hrun, hcomplete⟩ : ∃ last,
      (onStream state bound input ending {}).run = (endResult ending, last) ∧
        Complete state items last := complete_run h ending
  have hreplies := state.replies_dispatchAll (byteCount_le_of_decomposition h)
  refine ⟨items, tail, last, h, hrun, hreplies, ?_, hcomplete.written_eq, fun wider hwider => ?_⟩
  · rw [hcomplete.served_eq, length_frames]
  · exact Source.readMessages_of_frames (readable_of_replies hreplies hwider)
      ((Source.unread_ofBytes _ _).trans hcomplete.written_eq)

end Connection

end Server

end RemoteMemory
