import RemoteMemory.Proofs.Stream.Limits
import RemoteMemory.Server.Connection

/-!
# What a connection does with its input

A connection whose answers can be written takes its input item by item: a dropped block moves it to
the bytes behind, a request is answered, and the incomplete tail ends it. So the requests among the
items are dispatched in order, and nothing else in the input has any effect.
-/

namespace RemoteMemory.Server

theorem State.dispatchAll_cons (state : State) (request : Message) (rest : List Message) :
    state.dispatchAll (request :: rest) =
      ((state.dispatch request).1 :: ((state.dispatch request).2.dispatchAll rest).1,
        ((state.dispatch request).2.dispatchAll rest).2) := rfl

theorem State.length_dispatchAll (state : State) (requests : List Message) :
    (state.dispatchAll requests).1.length = requests.length := by
  induction requests generalizing state with
  | nil => rfl
  | cons request rest ih =>
      rw [dispatchAll_cons, List.length_cons, List.length_cons, ih]

namespace Connection

/-- The connection at another place of its input. -/
def moved (connection : Connection) (source : Source) : Connection :=
  { connection with channel := { connection.channel with source := source } }

/-- The connection after it executed some requests and got the answers to some of them out. -/
def executed (connection : Connection) (requests : List Message) (source : Source) (sink : Sink)
    (count : Nat) : Connection where
  state := (connection.state.dispatchAll requests).2
  channel := ⟨source, sink⟩
  bound := connection.bound
  served := connection.served + count

def answered (connection : Connection) (requests : List Message) (source : Source) : Connection :=
  let ⟨state, ⟨_, sink⟩, bound, served⟩ := connection
  let (responses, state) := state.dispatchAll requests
  let written := sink.written ++ Bytes.join (responses.map Message.frame)
  let flushes := sink.flushes + requests.length
  ⟨state, ⟨source, { sink with written := written, flushes := flushes }⟩, bound,
    served + requests.length⟩

/-- What an item does to the connection that took it: a request is answered. -/
def meet (connection : Connection) : Option Message → Turn
  | none => .next connection
  | some request => connection.answer request

theorem answered_nil (connection : Connection) (source : Source) :
    connection.answered [] source = connection.moved source := by
  simp [answered, moved, State.dispatchAll]

/-! ## One turn -/

theorem turn_of_header?_eq_none {connection : Connection}
    (h : connection.channel.source.header? = none) : connection.turn = .starved connection := by
  obtain ⟨state, ⟨source, sink⟩, bound, served⟩ := connection
  have h : source.header? = none := h
  rw [turn]
  simp only [h]

theorem turn_of_refused {connection : Connection} {header : Header} {rest : Source}
    (hheader : connection.channel.source.header? = some (header, rest))
    (hcheck : header.check connection.bound ≠ .ok ()) :
    connection.turn = .next (connection.moved rest) := by
  obtain ⟨state, ⟨source, sink⟩, bound, served⟩ := connection
  have hheader : source.header? = some (header, rest) := hheader
  have hcheck : header.check bound ≠ .ok () := hcheck
  rw [turn]
  simp only [hheader]
  cases hresult : header.check bound with
  | error error => rfl
  | ok result => exact absurd hresult hcheck

theorem turn_of_accepted {connection : Connection} {header : Header} {rest : Source}
    (hheader : connection.channel.source.header? = some (header, rest))
    (hcheck : header.check connection.bound = .ok ()) :
    connection.turn = match rest.take? header.payloadSize with
      | none => Turn.starved connection
      | some (payload, rest) => (connection.moved rest).answer ⟨header, payload⟩ := by
  obtain ⟨state, ⟨source, sink⟩, bound, served⟩ := connection
  have hheader : source.header? = some (header, rest) := hheader
  have hcheck : header.check bound = .ok () := hcheck
  rw [turn]
  simp only [hheader, hcheck]
  rfl

/-- An item in front of the unread bytes is taken whole. -/
theorem turn_of_admissible {connection : Connection} {item : Item} {back : ByteArray}
    (hitem : item.Admissible connection.bound)
    (hunread : connection.channel.source.unread = item.bytes ++ back) :
    ∃ rest : Source, rest.unread = back ∧ connection.channel.source.SameStream rest ∧
      connection.turn = (connection.moved rest).meet item.message? := by
  cases item with
  | dropped block =>
      obtain ⟨hblock, hrefused⟩ := hitem
      obtain ⟨rest, hheader, hrest, hsame⟩ := Source.header?_of_unread hblock hunread
      exact ⟨rest, hrest, hsame, turn_of_refused hheader hrefused⟩
  | request block payload =>
      obtain ⟨hblock, hcheck, hpayload⟩ := hitem
      rw [Item.bytes, ByteArray.append_assoc] at hunread
      obtain ⟨behind, hheader, hbehind, hsame⟩ := Source.header?_of_unread hblock hunread
      obtain ⟨rest, htake, hrest, hsame'⟩ := Source.take?_of_unread hbehind
      rw [hpayload] at htake
      refine ⟨rest, hrest, hsame.trans hsame', ?_⟩
      rw [turn_of_accepted hheader hcheck, htake]
      rfl

theorem turn_of_incomplete {connection : Connection}
    (h : Incomplete connection.bound connection.channel.source.unread) :
    connection.turn = .starved connection := by
  rcases h with hshort | ⟨block, payload, hunread, hblock, hcheck, hpayload⟩
  · rw [Source.size_unread] at hshort
    exact turn_of_header?_eq_none (Source.header?_eq_none_iff.mpr hshort)
  · obtain ⟨rest, hheader, hrest, -⟩ := Source.header?_of_unread hblock hunread
    have htake : rest.take? (Header.ofBytes block).payloadSize = none := by
      rw [Source.take?_eq_none_iff, ← Source.size_unread, hrest]
      exact hpayload
    rw [turn_of_accepted hheader hcheck, htake]

/-! ## All turns -/

theorem pump_of_starved {connection next : Connection} (h : connection.turn = .starved next) :
    connection.pump = (none, next) := by
  rw [pump]
  split <;> simp_all

theorem pump_of_next {connection next : Connection} (h : connection.turn = .next next) :
    connection.pump = next.pump := by
  rw [pump]
  split <;> simp_all

section Pump

variable {connection : Connection} {request : Message} {sink : Sink} {items : List Item}
  {tail : ByteArray} {count : Nat}

theorem executed_cons (requests : List Message) (source between : Source) (after : Sink)
    (count : Nat) :
    (connection.executed [request] between sink 1).executed requests source after count =
      connection.executed (request :: requests) source after (count + 1) := by
  unfold executed
  rw [Nat.add_assoc, Nat.add_comm 1 count]
  rfl

theorem pump_of_ok {behind : Source}
    (hturn : connection.turn = (connection.moved behind).meet (some request))
    (hwrite : connection.channel.sink.writeMessage (connection.state.dispatch request).1 =
      (.ok (), sink)) :
    connection.pump = (connection.executed [request] behind sink 1).pump := by
  apply pump_of_next
  rw [hturn]
  simp only [meet, moved, answer, hwrite]
  rfl

/-- When all answers go out, the turns go through all items. -/
theorem pump_of_written
    (h : Decomposition connection.bound connection.channel.source.unread items tail)
    (hwrite : connection.channel.sink.writeMessages
      (connection.state.dispatchAll (items.filterMap Item.message?)).1 = (count, .ok (), sink)) :
    ∃ rest : Source, rest.unread = tail ∧ connection.channel.source.SameStream rest ∧
      connection.pump =
        (none, connection.executed (items.filterMap Item.message?) rest sink count) := by
  induction items generalizing connection count with
  | nil =>
      have htail : connection.channel.source.unread = tail :=
        h.input_eq.trans ByteArray.empty_append
      have hincomplete := h.incomplete
      rw [← htail] at hincomplete
      cases hwrite
      exact ⟨connection.channel.source, htail, ⟨rfl, rfl⟩,
        pump_of_starved (turn_of_incomplete hincomplete)⟩
  | cons item items ih =>
      obtain ⟨behind, hbehind, hsame, hturn⟩ :=
        turn_of_admissible (h.admissible item List.mem_cons_self) h.eq_bytes_append
      have hitems := h.tail_of_cons
      rw [← hbehind] at hitems
      cases hmessage : item.message? with
      | none =>
          rw [hmessage] at hturn
          rw [List.filterMap_cons_none hmessage] at hwrite ⊢
          have hmoved : Decomposition (connection.moved behind).bound _ items tail := hitems
          obtain ⟨rest, htail, hsame', hpump⟩ := ih hmoved hwrite
          exact ⟨rest, htail, hsame.trans hsame', (pump_of_next hturn).trans hpump⟩
      | some request =>
          rw [hmessage] at hturn
          rw [List.filterMap_cons_some hmessage] at hwrite ⊢
          rw [State.dispatchAll_cons] at hwrite
          rcases Sink.writeMessages_cons_cases hwrite with ⟨error, -, -, hresult⟩ |
            ⟨middle, number, hfirst, hothers, rfl⟩
          · cases hresult
          · have hnext : Decomposition (connection.executed [request] behind middle 1).bound _
              items tail := hitems
            obtain ⟨rest, htail, hsame', hpump⟩ := ih hnext hothers
            refine ⟨rest, htail, hsame.trans hsame', ?_⟩
            rw [pump_of_ok hturn hfirst, hpump, executed_cons]

/-- The turns go through the items and stop at the tail. -/
theorem pump_of_decomposition (hopen : connection.channel.sink.Open)
    (h : Decomposition connection.bound connection.channel.source.unread items tail) :
    ∃ rest : Source, rest.unread = tail ∧ connection.channel.source.SameStream rest ∧
      connection.pump = (none, connection.answered (items.filterMap Item.message?) rest) := by
  obtain ⟨rest, htail, hsame, hpump⟩ := pump_of_written h (Sink.writeMessages_of_open hopen _)
  refine ⟨rest, htail, hsame, hpump.trans ?_⟩
  rw [State.length_dispatchAll]
  rfl

end Pump

/-! ## To the end of the stream -/

def onInput (state : State) (bound : UInt32) (input : ByteArray) : Connection where
  state := state
  channel := ⟨.ofBytes input .closed, {}⟩
  bound := bound

theorem finish_of_closed {connection : Connection}
    (h : connection.channel.source.ending = .closed) :
    connection.finish = (.ok (), connection.moved connection.channel.source.exhaust) := by
  rw [finish, h]
  rfl

/-- Any input falls apart into items and a tail in one way. A connection served on it ends well and
at the end of the input; it has dispatched the requests among the items in order, has written the
frames of the responses in that order and nothing else, and has counted the requests. -/
theorem run_onInput (state : State) (bound : UInt32) (input : ByteArray) :
    ∃ items tail, Decomposition bound input items tail ∧
      (∀ items' tail', Decomposition bound input items' tail' → items' = items ∧ tail' = tail) ∧
      ∃ last, (onInput state bound input).run = (.ok (), last) ∧
        last.channel.source.bytes = input ∧ last.channel.source.position = input.size ∧
        last.state = (state.dispatchAll (items.filterMap Item.message?)).2 ∧
        last.channel.sink.written =
          Bytes.join ((state.dispatchAll (items.filterMap Item.message?)).1.map Message.frame) ∧
        last.served = (items.filterMap Item.message?).length := by
  obtain ⟨items, tail, h⟩ := Decomposition.exists_of_input bound input
  refine ⟨items, tail, h, fun items' tail' h' => h'.unique h, ?_⟩
  have hopen : (onInput state bound input).channel.sink.Open := ⟨rfl, rfl⟩
  have hunread : (onInput state bound input).channel.source.unread = input :=
    Source.unread_ofBytes input .closed
  obtain ⟨rest, -, hsame, hpump⟩ := pump_of_decomposition hopen (hunread.symm ▸ h)
  have hbytes : rest.bytes = input := hsame.bytes_eq.symm
  have hending : rest.ending = .closed := hsame.ending_eq.symm
  refine ⟨((onInput state bound input).answered (items.filterMap Item.message?) rest).moved
    rest.exhaust, ?_, hbytes, ?_, rfl, ?_, ?_⟩
  · rw [run, hpump]
    exact finish_of_closed hending
  · exact congrArg ByteArray.size hbytes
  · exact ByteArray.empty_append
  · exact Nat.zero_add _

end Connection

end RemoteMemory.Server
