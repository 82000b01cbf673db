import RemoteMemory.Proofs.Server.Faults
import RemoteMemory.Proofs.Stream.Readback

/-!
# A connection and a message reader in lockstep

A connection drops refused headers and tells nobody of a payload that is cut short; a message reader
reports both. On any stream, well-formed or not, the two take the same bytes for the same messages:
a turn of the connection is a read of the reader, and the reader only has to go on after a refused
header. A record of the requests that a connection dispatches makes this a statement about its run.
-/

namespace RemoteMemory

namespace Source

variable {source rest : Source} {bound : UInt32}

/-- Read messages to the end of the stream or to its failure, and go on behind refused headers:
the messages, the error, and where it was met. -/
def readThrough (source : Source) (bound : UInt32) : List Message × Error × Source :=
  match _h : source.readMessage bound with
  | (.ok message, rest) =>
    let (messages, error, last) := rest.readThrough bound
    (message :: messages, error, last)
  | (.error (.protocol _), rest) => rest.readThrough bound
  | (.error error, rest) => ([], error, rest)
termination_by source.left
decreasing_by
  · have := left_of_readMessage_ok _h
    simp only [Header.size] at this
    omega
  · have := left_of_readMessage_protocol _h
    simp only [Header.size] at this
    omega

theorem readThrough_of_ok {message : Message}
    (h : source.readMessage bound = (.ok message, rest)) :
    source.readThrough bound =
      (message :: (rest.readThrough bound).1, (rest.readThrough bound).2) := by
  rw [readThrough]
  split <;> simp_all

theorem readThrough_of_protocol {fault : ProtocolFault}
    (h : source.readMessage bound = (.error (.protocol fault), rest)) :
    source.readThrough bound = rest.readThrough bound := by
  rw [readThrough]
  split <;> simp_all

theorem readThrough_of_shortage
    (h : source.readMessage bound = (.error source.shortage, source.exhaust)) :
    source.readThrough bound = ([], source.shortage, source.exhaust) := by
  rw [readThrough]
  rcases source.shortage_cases with hclosed | hfault
  · rw [hclosed] at h ⊢
    split <;> simp_all
  · rw [hfault] at h ⊢
    split <;> simp_all

end Source

namespace Server.Connection

/-! ## Runs with a record -/

/-- A turn, and the request that it dispatches. -/
def recordedTurn (connection : Connection) : Option Message × Turn :=
  match connection.channel.source.header? with
  | none => (none, .starved connection)
  | some (header, afterHeader) =>
    match header.check connection.bound with
    | .error _ => (none, .next (connection.moved afterHeader))
    | .ok () =>
      match afterHeader.take? header.payloadSize with
      | none => (none, .starved connection)
      | some (payload, rest) =>
        (some ⟨header, payload⟩, (connection.moved rest).answer ⟨header, payload⟩)

theorem snd_recordedTurn (connection : Connection) :
    connection.recordedTurn.2 = connection.turn := by
  unfold recordedTurn
  cases hheader : connection.channel.source.header? with
  | none => rw [turn_of_header?_eq_none hheader]
  | some pair =>
      cases hcheck : pair.1.check connection.bound with
      | error error =>
          rw [turn_of_refused hheader (by simp [hcheck])]
          simp only [hcheck]
      | ok =>
          rw [turn_of_accepted hheader hcheck]
          cases htake : pair.2.take? pair.1.payloadSize with
          | none => simp only [hcheck, htake]
          | some taken => simp only [hcheck, htake]

variable {connection next : Connection} {taken : Option Message}

theorem turn_of_recordedTurn {turn : Turn} (h : connection.recordedTurn = (taken, turn)) :
    connection.turn = turn := by
  rw [← snd_recordedTurn, h]

def recordedPump (connection : Connection) : List Message × Option Error × Connection :=
  match _h : connection.recordedTurn with
  | (taken, .starved connection) => (taken.toList, none, connection)
  | (taken, .next connection) =>
    let (requests, error, last) := connection.recordedPump
    (taken.toList ++ requests, error, last)
  | (taken, .broken error connection) => (taken.toList, some error, connection)
termination_by connection.channel.source.left
decreasing_by
  have := left_of_turn_next (turn_of_recordedTurn _h)
  simp only [Header.size] at this
  omega

def recordedRun (connection : Connection) : List Message × Except Error Unit × Connection :=
  match connection.recordedPump with
  | (requests, some error, connection) => (requests, .error error, connection)
  | (requests, none, connection) => (requests, connection.finish)

theorem recordedPump_of_starved (h : connection.recordedTurn = (taken, .starved next)) :
    connection.recordedPump = (taken.toList, none, next) := by
  rw [recordedPump]
  split <;> simp_all

theorem recordedPump_of_next (h : connection.recordedTurn = (taken, .next next)) :
    connection.recordedPump = (taken.toList ++ next.recordedPump.1, next.recordedPump.2) := by
  rw [recordedPump]
  split <;> simp_all

theorem recordedPump_of_broken {error : Error}
    (h : connection.recordedTurn = (taken, .broken error next)) :
    connection.recordedPump = (taken.toList, some error, next) := by
  rw [recordedPump]
  split <;> simp_all

theorem snd_recordedPump (connection : Connection) :
    connection.recordedPump.2 = connection.pump := by
  induction connection using recordedPump.induct with
  | case1 connection taken next hturn =>
      rw [recordedPump_of_starved hturn, pump_of_starved (turn_of_recordedTurn hturn)]
  | case2 connection taken next hturn _ _ _ _ ih =>
      rw [recordedPump_of_next hturn, pump_of_next (turn_of_recordedTurn hturn)]
      exact ih
  | case3 connection taken error next hturn =>
      rw [recordedPump_of_broken hturn, pump_of_broken (turn_of_recordedTurn hturn)]

theorem snd_recordedRun (connection : Connection) :
    connection.recordedRun.2 = connection.run := by
  have hpump := snd_recordedPump connection
  unfold recordedRun run
  rw [← hpump]
  cases connection.recordedPump with
  | mk requests outcome =>
      cases outcome with
      | mk error last => cases error <;> rfl

/-! ## One turn is one read -/

/-- A turn dispatches the message that the reader gets, drops the header that the reader refuses,
and starves where the reader meets the end of the stream. -/
theorem recordedTurn_cases (connection : Connection) :
    (∃ request rest, connection.channel.source.readMessage connection.bound = (.ok request, rest) ∧
        connection.channel.source.SameStream rest ∧
        connection.recordedTurn = (some request, (connection.moved rest).answer request)) ∨
      (∃ fault rest, connection.channel.source.readMessage connection.bound =
          (.error (.protocol fault), rest) ∧
        connection.channel.source.SameStream rest ∧
        connection.recordedTurn = (none, .next (connection.moved rest))) ∨
      (connection.channel.source.readMessage connection.bound =
          (.error connection.channel.source.shortage, connection.channel.source.exhaust) ∧
        connection.recordedTurn = (none, .starved connection)) := by
  unfold recordedTurn
  rcases connection.channel.source.readMessage_cases connection.bound with
    ⟨header, behind, payload, rest, hheader, hcheck, htake, hread⟩ |
    ⟨header, rest, fault, hheader, hcheck, hread⟩ | ⟨hshort, hread⟩
  · have hbehind := Source.sameStream_of_header? hheader
    have hrest := Source.sameStream_of_take? htake
    exact .inl ⟨_, rest, hread, hbehind.trans hrest, by simp only [hheader, hcheck, htake]⟩
  · have hrest := Source.sameStream_of_header? hheader
    exact .inr (.inl ⟨fault, rest, hread, hrest, by simp only [hheader, hcheck]⟩)
  · refine .inr (.inr ⟨hread, ?_⟩)
    cases hheader : connection.channel.source.header? with
    | none => rfl
    | some pair =>
        have ⟨hcheck, htake⟩ := hshort pair.1 pair.2 hheader
        simp only [hcheck, htake]

/-- Over a sink that takes everything, a request that was taken is answered. -/
theorem answer_of_open (hopen : connection.channel.sink.Open) (rest : Source)
    (request : Message) :
    ∃ after : Sink, after.Open ∧ (connection.moved rest).answer request =
      .next (connection.executed [request] rest after 1) := by
  have hwrite := Sink.writeMessage_of_open hopen (connection.state.dispatch request).1
  have hafter := hopen.writeMessage (connection.state.dispatch request).1
  rw [hwrite] at hafter
  refine ⟨_, hafter, ?_⟩
  simp only [moved, answer, hwrite, executed, State.dispatchAll]

/-- Turns that can all be answered dispatch what the reader gets. -/
theorem recordedPump_of_open (hopen : connection.channel.sink.Open) :
    ∃ requests last, connection.recordedPump = (requests, none, last) ∧
      connection.channel.source.SameStream last.channel.source ∧
      last.state = (connection.state.dispatchAll requests).2 ∧
      connection.channel.source.readThrough connection.bound =
        (requests, connection.channel.source.shortage, connection.channel.source.exhaust) := by
  -- The induction is on the unread bytes; the two readers use up the same ones at each step.
  induction hleft : connection.channel.source.left using Nat.strongRecOn
    generalizing connection with
  | ind left ih =>
      have hpos : 0 < Header.size := by decide
      rcases connection.recordedTurn_cases with
        ⟨request, rest, hread, hsame, hturn⟩ | ⟨fault, rest, hread, hsame, hturn⟩ | ⟨hread, hturn⟩
      · have hrest := Source.left_of_readMessage_ok hread
        have ⟨after, hafter, hanswer⟩ := answer_of_open hopen rest request
        have hexecuted : (connection.executed [request] rest after 1).channel.sink.Open := hafter
        rw [hanswer] at hturn
        have ⟨requests, last, hpump, hlast, hstate, hreads⟩ := ih rest.left (by omega) hexecuted rfl
        dsimp only [executed] at hreads
        refine ⟨request :: requests, last, ?_, hsame.trans hlast, hstate, ?_⟩
        · rw [recordedPump_of_next hturn, hpump]
          rfl
        · rw [Source.readThrough_of_ok hread, hreads, hsame.shortage_eq, hsame.exhaust_eq]
      · have hrest := Source.left_of_readMessage_protocol hread
        have hmoved : (connection.moved rest).channel.sink.Open := hopen
        have ⟨requests, last, hpump, hlast, hstate, hreads⟩ := ih rest.left (by omega) hmoved rfl
        dsimp only [moved] at hreads
        refine ⟨requests, last, ?_, hsame.trans hlast, hstate, ?_⟩
        · rw [recordedPump_of_next hturn, hpump]
          rfl
        · rw [Source.readThrough_of_protocol hread, hreads, hsame.shortage_eq, hsame.exhaust_eq]
      · refine ⟨[], connection, recordedPump_of_starved hturn, ⟨rfl, rfl⟩, rfl, ?_⟩
        exact Source.readThrough_of_shortage hread

/-- A connection whose answers are all accepted dispatches the messages that a reader of the same
bytes gets when it goes on behind refused headers. Both use up the same bytes, and the connection
ends well where the reader finds the stream closed, and with the error of the network where the
reader meets it. -/
theorem run_in_lockstep (state : State) (bound : UInt32) (input : ByteArray) (ending : Ending) :
    ∃ messages error rest result last,
      (Source.ofBytes input ending).readThrough bound = (messages, error, rest) ∧
      (onStream state bound input ending {}).recordedRun = (messages, result, last) ∧
      (onStream state bound input ending {}).run = (result, last) ∧
      last.state = (state.dispatchAll messages).2 ∧ last.channel.source = rest ∧
      (error = .connectionClosed ∧ result = .ok () ∨
        ∃ fault, error = .network fault ∧ result = .error (.network fault)) := by
  have hopen : (onStream state bound input ending {}).channel.sink.Open := ⟨rfl, rfl⟩
  have ⟨messages, next, hpump, hsame, hstate, hreads⟩ := recordedPump_of_open hopen
  have hending : next.channel.source.ending = ending := hsame.ending_eq.symm
  have hrun : (onStream state bound input ending {}).run =
      (endResult ending, next.moved next.channel.source.exhaust) := by
    have hnone : (onStream state bound input ending {}).pump = (none, next) := by
      rw [← snd_recordedPump, hpump]
    rw [run_of_none hnone, hending]
  have hrecorded : (onStream state bound input ending {}).recordedRun.1 = messages := by
    rw [recordedRun, hpump]
  refine ⟨messages, _, _, _, _, hreads, Prod.ext hrecorded ?_, hrun, hstate, hsame.exhaust_eq, ?_⟩
  · exact (snd_recordedRun _).trans hrun
  cases ending with
  | closed => exact .inl ⟨rfl, rfl⟩
  | fault => exact .inr ⟨.read, rfl, rfl⟩

end Server.Connection

end RemoteMemory
