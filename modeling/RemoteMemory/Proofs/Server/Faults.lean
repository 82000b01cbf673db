import RemoteMemory.Proofs.Server.Conversation

/-!
# Faults of the stream

Where a stream fails, a connection stops between two requests. It has executed the requests whose
answers went out and the one whose answer did not, and nothing behind that request has been read.
How many answers go out depends on the sink and on the answers alone, so every failing run is a
prefix of the run on a stream that does not fail.
-/

namespace RemoteMemory.Server.Connection

/-- These bytes stand behind the request that comes after the first `count` ones. -/
def Behind (items : List Item) (tail : ByteArray) (count : Nat) (unread : ByteArray) : Prop :=
  ∃ done item later, items = done ++ item :: later ∧
    (done.filterMap Item.message?).length = count ∧ item.message?.isSome = true ∧
    unread = Bytes.join (later.map Item.bytes) ++ tail

theorem Behind.cons_of_none {items : List Item} {tail unread : ByteArray} {count : Nat}
    (h : Behind items tail count unread) {item : Item} (hnone : item.message? = none) :
    Behind (item :: items) tail count unread := by
  obtain ⟨done, point, later, rfl, hcount, hpoint, hunread⟩ := h
  refine ⟨item :: done, point, later, rfl, ?_, hpoint, hunread⟩
  rwa [List.filterMap_cons_none hnone]

theorem Behind.cons_of_some {items : List Item} {tail unread : ByteArray} {count : Nat}
    (h : Behind items tail count unread) {item : Item} {request : Message}
    (hsome : item.message? = some request) : Behind (item :: items) tail (count + 1) unread := by
  obtain ⟨done, point, later, rfl, rfl, hpoint, hunread⟩ := h
  refine ⟨item :: done, point, later, rfl, ?_, hpoint, hunread⟩
  rw [List.filterMap_cons_some hsome, List.length_cons]

variable {connection : Connection} {request : Message} {sink : Sink} {error : Error}

theorem pump_of_broken {next : Connection} (h : connection.turn = .broken error next) :
    connection.pump = (some error, next) := by
  rw [pump]
  split <;> simp_all

theorem pump_of_error {behind : Source}
    (hturn : connection.turn = (connection.moved behind).meet (some request))
    (hwrite : connection.channel.sink.writeMessage (connection.state.dispatch request).1 =
      (.error error, sink)) :
    connection.pump = (some error, connection.executed [request] behind sink 0) := by
  apply pump_of_broken
  rw [hturn]
  simp only [meet, moved, answer, hwrite]
  rfl

/-! ## As far as the answers go out -/

section Pump

variable {items : List Item} {tail : ByteArray} {count : Nat}

/-- When an answer does not go out, the turns end with its request. -/
theorem pump_of_unwritten
    (h : Decomposition connection.bound connection.channel.source.unread items tail)
    (hwrite : connection.channel.sink.writeMessages
      (connection.state.dispatchAll (items.filterMap Item.message?)).1 =
        (count, .error error, sink)) :
    ∃ rest : Source, Behind items tail count rest.unread ∧
      connection.pump = (some error, connection.executed
        ((items.filterMap Item.message?).take (count + 1)) rest sink count) := by
  induction items generalizing connection count with
  | nil => cases hwrite
  | cons item items ih =>
      obtain ⟨behind, hbehind, -, hturn⟩ :=
        turn_of_admissible (h.admissible item List.mem_cons_self) h.eq_bytes_append
      have hitems := h.tail_of_cons
      rw [← hbehind] at hitems
      cases hmessage : item.message? with
      | none =>
          rw [hmessage] at hturn
          rw [List.filterMap_cons_none hmessage] at hwrite ⊢
          have hmoved : Decomposition (connection.moved behind).bound _ items tail := hitems
          obtain ⟨rest, hrest, hpump⟩ := ih hmoved hwrite
          exact ⟨rest, hrest.cons_of_none hmessage, (pump_of_next hturn).trans hpump⟩
      | some request =>
          rw [hmessage] at hturn
          rw [List.filterMap_cons_some hmessage] at hwrite ⊢
          rw [State.dispatchAll_cons] at hwrite
          -- The first answer is the one that does not go out, or the sink fails behind it.
          rcases Sink.writeMessages_cons_cases hwrite with ⟨error, hfirst, rfl, hresult⟩ |
            ⟨middle, number, hfirst, hothers, rfl⟩
          · cases hresult
            have hpoint : item.message?.isSome = true := by rw [hmessage]; rfl
            exact ⟨behind, ⟨[], item, items, rfl, rfl, hpoint, hbehind⟩,
              pump_of_error hturn hfirst⟩
          · have hnext : Decomposition (connection.executed [request] behind middle 1).bound _
              items tail := hitems
            obtain ⟨rest, hrest, hpump⟩ := ih hnext hothers
            refine ⟨rest, hrest.cons_of_some hmessage, ?_⟩
            rw [pump_of_ok hturn hfirst, hpump, executed_cons]
            rfl

end Pump

/-! ## Runs on streams with one fault -/

/-- A connection that is served on `input`, on a stream with faults. -/
def onStream (state : State) (bound : UInt32) (input : ByteArray) (ending : Ending) (sink : Sink) :
    Connection where
  state := state
  channel := ⟨.ofBytes input ending, sink⟩
  bound := bound

/-- The frames that answer the requests among some items. -/
def frames (state : State) (items : List Item) : List ByteArray :=
  (state.dispatchAll (items.filterMap Item.message?)).1.map Message.frame

theorem length_frames (state : State) (items : List Item) :
    (frames state items).length =
      (state.dispatchAll (items.filterMap Item.message?)).1.length :=
  List.length_map _

def output (state : State) (items : List Item) : ByteArray :=
  Bytes.join (frames state items)

/-- All requests were executed and answered. -/
structure Complete (state : State) (items : List Item) (last : Connection) : Prop where
  written_eq : last.channel.sink.written = output state items
  served_eq : last.served = (frames state items).length
  state_eq : last.state = (state.dispatchAll (items.filterMap Item.message?)).2

/-- The first `count` requests were answered. One more was executed, and nothing behind it was
read. -/
structure CutAt (state : State) (items : List Item) (tail : ByteArray) (count : Nat)
    (last : Connection) : Prop where
  count_lt : count < (frames state items).length
  served_eq : last.served = count
  state_eq :
    last.state = (state.dispatchAll ((items.filterMap Item.message?).take (count + 1))).2
  behind : Behind items tail count last.channel.source.unread

variable {state : State} {bound : UInt32} {input : ByteArray} {items : List Item}
  {tail : ByteArray} {ending : Ending}

def endResult : Ending → Except Error Unit
  | .closed => .ok ()
  | .fault => .error (.network .read)

theorem run_of_none {next : Connection} (h : connection.pump = (none, next)) :
    connection.run =
      (endResult next.channel.source.ending, next.moved next.channel.source.exhaust) := by
  rw [run, h]
  dsimp only [finish]
  cases next.channel.source.ending <;> rfl

theorem run_of_some {next : Connection} (h : connection.pump = (some error, next)) :
    connection.run = (.error error, next) := by
  rw [run, h]

/-- If the sink takes all answers, the run ends as the input does. -/
theorem run_of_written (h : Decomposition bound input items tail) {after : Sink} {count : Nat}
    (hwrite : sink.writeMessages (state.dispatchAll (items.filterMap Item.message?)).1 =
      (count, .ok (), after))
    (hcount : count = (frames state items).length) (hwritten : after.written = output state items) :
    ∃ last, (onStream state bound input ending sink).run = (endResult ending, last) ∧
      Complete state items last := by
  have hdecomposition :
      Decomposition (onStream state bound input ending sink).bound _ items tail :=
    (Source.unread_ofBytes input ending).symm ▸ h
  obtain ⟨rest, -, hsame, hpump⟩ := pump_of_written hdecomposition hwrite
  have hending : rest.ending = ending := hsame.ending_eq.symm
  have hrun := run_of_none hpump
  change _ = (endResult rest.ending, _) at hrun
  rw [hending] at hrun
  exact ⟨_, hrun, hwritten, (Nat.zero_add count).trans hcount, rfl⟩

/-- If the sink fails amid the answers, the run fails with it. -/
theorem run_of_unwritten (h : Decomposition bound input items tail) {after : Sink} {count : Nat}
    (hwrite : sink.writeMessages (state.dispatchAll (items.filterMap Item.message?)).1 =
      (count, .error error, after)) (hcount : count < (frames state items).length) :
    ∃ last, (onStream state bound input ending sink).run = (.error error, last) ∧
      last.channel.sink = after ∧ CutAt state items tail count last := by
  have hdecomposition :
      Decomposition (onStream state bound input ending sink).bound _ items tail :=
    (Source.unread_ofBytes input ending).symm ▸ h
  obtain ⟨rest, hbehind, hpump⟩ := pump_of_unwritten hdecomposition hwrite
  exact ⟨_, run_of_some hpump, rfl, hcount, Nat.zero_add count, rfl, hbehind⟩

theorem complete_run (h : Decomposition bound input items tail) (ending : Ending) :
    ∃ last, (onStream state bound input ending {}).run = (endResult ending, last) ∧
      Complete state items last := by
  have hopen : Sink.Open {} := ⟨rfl, rfl⟩
  have hwrite := Sink.writeMessages_of_open hopen
    (state.dispatchAll (items.filterMap Item.message?)).1
  exact run_of_written h hwrite (length_frames state items).symm ByteArray.empty_append

structure FlushedTo (flushFails : Nat → Bool) (state : State) (items : List Item)
    (tail : ByteArray) (result : Except Error Unit) (last : Connection) : Prop where
  complete : (∀ number < (frames state items).length, flushFails number = false) →
    result = .ok () ∧ Complete state items last
  cut : ∀ count < (frames state items).length, (∀ number < count, flushFails number = false) →
    flushFails count = true → result = .error (.network .flush) ∧
      last.channel.sink.written = Bytes.join ((frames state items).take (count + 1)) ∧
      CutAt state items tail count last

theorem flushedTo_run (h : Decomposition bound input items tail) (flushFails : Nat → Bool) :
    ∃ result last,
      (onStream state bound input .closed { flushFails := flushFails }).run = (result, last) ∧
        FlushedTo flushFails state items tail result last := by
  have hlength := length_frames state items
  have hnumber : ∀ number, flushFails (0 + number) = flushFails number := fun number => by
    rw [Nat.zero_add]
  generalize houtcome :
    (onStream state bound input .closed { flushFails := flushFails }).run = outcome
  obtain ⟨result, last⟩ := outcome
  refine ⟨result, last, rfl, ?_, ?_⟩
  · intro hflushes
    rw [hlength] at hflushes
    have hwrite := @Sink.writeMessages_of_flushed { flushFails := flushFails } _ rfl
      fun number hlt => (hnumber number).trans (hflushes number hlt)
    obtain ⟨ran, hrun, hcomplete⟩ := run_of_written h hwrite hlength.symm ByteArray.empty_append
    cases hrun.symm.trans houtcome
    exact ⟨rfl, hcomplete⟩
  · intro count hcount hbefore hfails
    obtain ⟨after, hwrite, hwritten⟩ := @Sink.writeMessages_of_unflushed
      { flushFails := flushFails } _ count rfl (hlength ▸ hcount)
      (fun number hlt => (hnumber number).trans (hbefore number hlt))
      ((hnumber count).trans hfails)
    obtain ⟨ran, hrun, rfl, hcut⟩ := run_of_unwritten h hwrite hcount
    cases hrun.symm.trans houtcome
    exact ⟨rfl, hwritten.trans ByteArray.empty_append, hcut⟩

structure LimitedTo (limit : Nat) (state : State) (items : List Item) (tail : ByteArray)
    (result : Except Error Unit) (last : Connection) : Prop where
  written_eq : last.channel.sink.written =
    (output state items).extract 0 (min limit (output state items).size)
  complete : (output state items).size ≤ limit → result = .ok () ∧ Complete state items last
  cut : limit < (output state items).size → result = .error (.network .write) ∧
    ∃ count, Bytes.Fitting (frames state items) limit count ∧ CutAt state items tail count last

theorem limitedTo_run (h : Decomposition bound input items tail) (limit : Nat) :
    ∃ result last,
      (onStream state bound input .closed { room := some limit }).run = (result, last) ∧
        LimitedTo limit state items tail result last := by
  by_cases hroom : (output state items).size ≤ limit
  · obtain ⟨after, hwrite, hwritten⟩ := Sink.writeMessages_of_le ByteArray.empty 0 hroom
    rw [ByteArray.empty_append] at hwritten
    obtain ⟨last, hrun, hcomplete⟩ :=
      run_of_written h hwrite (length_frames state items).symm hwritten
    refine ⟨_, last, hrun, ?_, fun _ => ⟨rfl, hcomplete⟩, ?_⟩
    · rw [Nat.min_eq_right hroom, ByteArray.extract_zero_size]
      exact hcomplete.written_eq
    · intro hover
      exact absurd hroom (Nat.not_le.mpr hover)
  · have hover := Nat.not_le.mp hroom
    obtain ⟨count, after, hwrite, hcount, hfitting, hwritten⟩ :=
      Sink.writeMessages_of_lt ByteArray.empty 0 hover
    rw [ByteArray.empty_append] at hwritten
    rw [← length_frames] at hcount
    obtain ⟨last, hrun, rfl, hcut⟩ := run_of_unwritten h hwrite hcount
    refine ⟨_, last, hrun, ?_, fun hle => absurd hle hroom, fun _ => ⟨rfl, count, hfitting, hcut⟩⟩
    rw [Nat.min_eq_left (Nat.le_of_lt hover)]
    exact hwritten

/-- A connection on a stream with one fault goes as far as the run on the stream without it. With
limited room the bytes written are as many of the whole output as there is room for; the run fails
with the first frame that does not fit, after its request was executed and before any other was
read. With failing flushes this happens at the frame of the first flush that fails, the first frame
if every flush fails, once it is written. An input that ends in a fault changes the result only. -/
theorem run_with_fault (state : State) (bound : UInt32) (input : ByteArray) :
    ∃ items tail, Decomposition bound input items tail ∧
      (∃ last, (onInput state bound input).run = (.ok (), last) ∧ Complete state items last) ∧
      (∀ limit, ∃ result last,
        (onStream state bound input .closed { room := some limit }).run = (result, last) ∧
          LimitedTo limit state items tail result last) ∧
      (∀ flushFails, ∃ result last,
        (onStream state bound input .closed { flushFails := flushFails }).run = (result, last) ∧
          FlushedTo flushFails state items tail result last) ∧
      ∃ last, (onStream state bound input .fault {}).run = (.error (.network .read), last) ∧
        Complete state items last := by
  obtain ⟨items, tail, h⟩ := Decomposition.exists_of_input bound input
  exact ⟨items, tail, h, complete_run h .closed, limitedTo_run h, flushedTo_run h,
    complete_run h .fault⟩

end RemoteMemory.Server.Connection
