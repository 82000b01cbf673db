import RemoteMemory.Proofs.Stream.Decomposition
import RemoteMemory.Stream.Framing

/-!
# Messages on a sink that fails

Messages are written in order up to the first failure. A sink with limited room takes the start of
their frames, as much as fits, and fails amid the first frame that does not fit whole, wherever in
that frame the room ends. A sink with room fails at its first failing flush, once the frame is in.
-/

namespace RemoteMemory

/-- As many of the parts as the count says fit into the room one behind the other, and no more. -/
def Bytes.Fitting (parts : List ByteArray) (room count : Nat) : Prop :=
  ∀ number ≤ parts.length, (Bytes.join (parts.take number)).size ≤ room ↔ number ≤ count

theorem Bytes.fitting_zero {part : ByteArray} {parts : List ByteArray} {room : Nat}
    (h : room < part.size) : Bytes.Fitting (part :: parts) room 0 := by
  intro number hnumber
  cases number with
  | zero => simp
  | succ number =>
      rw [List.take_succ_cons, Bytes.join_cons, ByteArray.size_append]
      omega

theorem Bytes.Fitting.cons {part : ByteArray} {parts : List ByteArray} {room count : Nat}
    (h : Bytes.Fitting parts (room - part.size) count) (hfits : part.size ≤ room) :
    Bytes.Fitting (part :: parts) room (count + 1) := by
  intro number hnumber
  cases number with
  | zero => simp
  | succ number =>
      have hrest := h number (Nat.le_of_succ_le_succ hnumber)
      rw [List.take_succ_cons, Bytes.join_cons, ByteArray.size_append]
      omega

namespace Sink

/-- Write messages in order up to the first failure, and tell how many got through. -/
def writeMessages (sink : Sink) : List Message → Nat × Except Error Unit × Sink
  | [] => (0, .ok (), sink)
  | message :: rest =>
    match sink.writeMessage message with
    | (.error error, sink) => (0, .error error, sink)
    | (.ok (), sink) =>
      let (count, result, sink) := sink.writeMessages rest
      (count + 1, result, sink)

theorem writeMessages_of_ok {sink after : Sink} {message : Message}
    (h : sink.writeMessage message = (.ok (), after)) (rest : List Message) :
    sink.writeMessages (message :: rest) =
      ((after.writeMessages rest).1 + 1, (after.writeMessages rest).2) := by
  rw [writeMessages, h]

theorem writeMessages_of_error {sink after : Sink} {message : Message} {error : Error}
    (h : sink.writeMessage message = (.error error, after)) (rest : List Message) :
    sink.writeMessages (message :: rest) = (0, .error error, after) := by
  rw [writeMessages, h]

/-- The first message fails, or the others follow it. -/
theorem writeMessages_cons_cases {sink after : Sink} {message : Message} {rest : List Message}
    {count : Nat} {result : Except Error Unit}
    (h : sink.writeMessages (message :: rest) = (count, result, after)) :
    (∃ error, sink.writeMessage message = (.error error, after) ∧ count = 0 ∧
        result = .error error) ∨
      ∃ middle number, sink.writeMessage message = (.ok (), middle) ∧
        middle.writeMessages rest = (number, result, after) ∧ count = number + 1 := by
  rcases hfirst : sink.writeMessage message with ⟨error | _, middle⟩
  · rw [writeMessages_of_error hfirst] at h
    cases h
    exact .inl ⟨error, rfl, rfl, rfl⟩
  · rw [writeMessages_of_ok hfirst] at h
    obtain ⟨rfl, hrest⟩ := Prod.mk.inj h
    exact .inr ⟨middle, _, rfl, Prod.ext rfl hrest, rfl⟩

/-! ## Failing flushes -/

variable {sink : Sink} {messages : List Message}

/-- As long as no flush fails, a sink with room takes all frames. -/
theorem writeMessages_of_flushed (hroom : sink.room = none)
    (hflushes : ∀ number < messages.length, sink.flushFails (sink.flushes + number) = false) :
    sink.writeMessages messages = (messages.length, .ok (),
      { sink with
        written := sink.written ++ Bytes.join (messages.map Message.frame)
        flushes := sink.flushes + messages.length }) := by
  induction messages generalizing sink with
  | nil =>
      rw [List.map_nil, Bytes.join_nil, ByteArray.append_empty]
      rfl
  | cons message rest ih =>
      have hfirst := writeMessage_of_flushed hroom (hflushes 0 (Nat.succ_pos _)) message
      have hbehind : ∀ number < rest.length,
          sink.flushFails (sink.flushes + 1 + number) = false := by
        intro number hnumber
        rw [Nat.add_assoc, Nat.add_comm 1]
        exact hflushes (number + 1) (Nat.succ_lt_succ hnumber)
      have hrest := @ih { sink with
        written := sink.written ++ message.frame
        flushes := sink.flushes + 1 } hroom hbehind
      rw [writeMessages_of_ok hfirst, hrest, List.map_cons, Bytes.join_cons,
        ByteArray.append_assoc, List.length_cons, Nat.add_comm rest.length 1, Nat.add_assoc]

theorem writeMessages_of_open (h : sink.Open) (messages : List Message) :
    sink.writeMessages messages = (messages.length, .ok (),
      { sink with
        written := sink.written ++ Bytes.join (messages.map Message.frame)
        flushes := sink.flushes + messages.length }) :=
  writeMessages_of_flushed h.room_eq fun _ _ => congrFun h.flushFails_eq _

/-- The frame whose flush is the first to fail is written too, and none behind it. -/
theorem writeMessages_of_unflushed {count : Nat} (hroom : sink.room = none)
    (hcount : count < messages.length)
    (hbefore : ∀ number < count, sink.flushFails (sink.flushes + number) = false)
    (hfails : sink.flushFails (sink.flushes + count) = true) :
    ∃ after, sink.writeMessages messages = (count, .error (.network .flush), after) ∧
      after.written =
        sink.written ++ Bytes.join ((messages.map Message.frame).take (count + 1)) := by
  induction messages generalizing sink count with
  | nil => cases hcount
  | cons message rest ih =>
      cases count with
      | zero =>
          have hfirst := writeMessage_of_unflushed hroom hfails message
          refine ⟨_, writeMessages_of_error hfirst rest, ?_⟩
          rw [List.map_cons, List.take_succ_cons, List.take_zero, Bytes.join_cons, Bytes.join_nil,
            ByteArray.append_empty]
      | succ count =>
          have hfirst := writeMessage_of_flushed hroom (hbefore 0 (Nat.succ_pos _)) message
          have hbehind : ∀ number < count,
              sink.flushFails (sink.flushes + 1 + number) = false := by
            intro number hnumber
            rw [Nat.add_assoc, Nat.add_comm 1]
            exact hbefore (number + 1) (Nat.succ_lt_succ hnumber)
          rw [Nat.add_comm count, ← Nat.add_assoc] at hfails
          obtain ⟨after, hrest, hwritten⟩ := @ih { sink with
            written := sink.written ++ message.frame
            flushes := sink.flushes + 1 } count hroom (Nat.lt_of_succ_lt_succ hcount) hbehind hfails
          refine ⟨after, ?_, ?_⟩
          · rw [writeMessages_of_ok hfirst, hrest]
          · rw [hwritten, List.map_cons, List.take_succ_cons, Bytes.join_cons,
              ByteArray.append_assoc]

/-! ## Limited room -/

variable {room : Nat} (written : ByteArray) (flushes : Nat)

theorem write_of_le {data : ByteArray} (flushFails : Nat → Bool) (h : data.size ≤ room) :
    (⟨some room, flushFails, written, flushes⟩ : Sink).write data =
      (.ok (), ⟨some (room - data.size), flushFails, written ++ data, flushes⟩) := by
  simp only [write, if_pos h]

theorem write_of_lt {data : ByteArray} (flushFails : Nat → Bool) (h : room < data.size) :
    (⟨some room, flushFails, written, flushes⟩ : Sink).write data =
      (.error (.network .write),
        ⟨some 0, flushFails, written ++ data.extract 0 room, flushes⟩) := by
  simp only [write, if_neg (Nat.not_le.mpr h)]

/-- Bytes in two parts are written as if they were one part. -/
theorem write_append (sink : Sink) (front back : ByteArray) :
    sink.write (front ++ back) =
      match sink.write front with
      | (.error error, sink) => (.error error, sink)
      | (.ok (), sink) => sink.write back := by
  obtain ⟨_ | room, flushFails, written, flushes⟩ := sink
  · simp [write, ByteArray.append_assoc]
  · have hsize : (front ++ back).size = front.size + back.size := ByteArray.size_append
    by_cases hfront : front.size ≤ room
    · by_cases hback : back.size ≤ room - front.size
      · rw [write_of_le _ _ _ (by omega), write_of_le _ _ _ hfront]
        simp [write_of_le _ _ _ hback, ByteArray.append_assoc, Nat.sub_sub]
      · rw [write_of_lt _ _ _ (by omega), write_of_le _ _ _ hfront, Bytes.extract_zero_append,
          Bytes.extract_zero_of_le hfront]
        simp [write_of_lt _ _ _ (Nat.not_le.mp hback), ByteArray.append_assoc]
    · have hover := Nat.not_le.mp hfront
      rw [write_of_lt _ _ _ (by omega), write_of_lt _ _ _ hover, Bytes.extract_zero_append,
        Nat.sub_eq_zero_of_le (Nat.le_of_lt hover)]
      simp

/-- Write bytes and flush, as it is done with the frame of a message and with a line. -/
def put (sink : Sink) (data : ByteArray) : Except Error Unit × Sink :=
  match sink.write data with
  | (.error error, sink) => (.error error, sink)
  | (.ok (), sink) => sink.flush

abbrev limited (room : Nat) (written : ByteArray) (flushes : Nat) : Sink :=
  ⟨some room, fun _ => false, written, flushes⟩

theorem put_of_le {data : ByteArray} (h : data.size ≤ room) :
    (limited room written flushes).put data =
      (.ok (), limited (room - data.size) (written ++ data) (flushes + 1)) := by
  rw [put, write_of_le written flushes _ h]
  rfl

theorem put_of_lt {data : ByteArray} (h : room < data.size) :
    (limited room written flushes).put data =
      (.error (.network .write), limited 0 (written ++ data.extract 0 room) flushes) := by
  rw [put, write_of_lt written flushes _ h]

theorem writeMessage_eq_put (sink : Sink) (message : Message) :
    sink.writeMessage message = sink.put message.frame := by
  rw [put, Message.frame, write_append, writeMessage]
  rcases sink.write message.header.encode with ⟨_ | _, middle⟩
  · rfl
  · dsimp only
    split
    next hempty =>
      obtain ⟨_ | room, flushFails, written, flushes⟩ := middle <;>
        simp [write, Bytes.eq_empty_of_isEmpty hempty]
    next => rfl

theorem writeMessage_of_le {message : Message} (h : message.frame.size ≤ room) :
    (limited room written flushes).writeMessage message =
      (.ok (),
        limited (room - message.frame.size) (written ++ message.frame) (flushes + 1)) := by
  rw [writeMessage_eq_put, put_of_le written flushes h]

theorem writeMessage_of_lt {message : Message} (h : room < message.frame.size) :
    (limited room written flushes).writeMessage message =
      (.error (.network .write),
        limited 0 (written ++ message.frame.extract 0 room) flushes) := by
  rw [writeMessage_eq_put, put_of_lt written flushes h]

/-- What fits is written whole. -/
theorem writeMessages_of_le {messages : List Message}
    (h : (Bytes.join (messages.map Message.frame)).size ≤ room) :
    ∃ after : Sink, (limited room written flushes).writeMessages messages =
      (messages.length, .ok (), after) ∧
      after.written = written ++ Bytes.join (messages.map Message.frame) := by
  induction messages generalizing room written flushes with
  | nil => exact ⟨_, rfl, ByteArray.append_empty.symm⟩
  | cons message rest ih =>
      rw [List.map_cons, Bytes.join_cons, ByteArray.size_append] at h
      have hfirst : message.frame.size ≤ room := by omega
      have hbehind : (Bytes.join (rest.map Message.frame)).size ≤ room - message.frame.size := by
        omega
      obtain ⟨after, hrest, hwritten⟩ := ih (written ++ message.frame) (flushes + 1) hbehind
      refine ⟨after, ?_, ?_⟩
      · rw [writeMessages_of_ok (writeMessage_of_le written flushes hfirst), hrest]
        rfl
      · rw [hwritten, List.map_cons, Bytes.join_cons, ByteArray.append_assoc]

/-- What does not fit is cut off at the end of the room, amid the first frame beyond those that
fit. -/
theorem writeMessages_of_lt {messages : List Message}
    (h : room < (Bytes.join (messages.map Message.frame)).size) :
    ∃ count after, (limited room written flushes).writeMessages messages =
      (count, .error (.network .write), after) ∧ count < messages.length ∧
      Bytes.Fitting (messages.map Message.frame) room count ∧
      after.written = written ++ (Bytes.join (messages.map Message.frame)).extract 0 room := by
  induction messages generalizing room written flushes with
  | nil => cases h
  | cons message rest ih =>
      rw [List.map_cons, Bytes.join_cons] at h ⊢
      rw [Bytes.extract_zero_append]
      by_cases hfirst : message.frame.size ≤ room
      · rw [ByteArray.size_append] at h
        have hbehind : room - message.frame.size < (Bytes.join (rest.map Message.frame)).size := by
          omega
        obtain ⟨count, after, hrest, hcount, hfitting, hwritten⟩ :=
          ih (written ++ message.frame) (flushes + 1) hbehind
        refine ⟨count + 1, after, ?_, Nat.succ_lt_succ hcount, hfitting.cons hfirst, ?_⟩
        · rw [writeMessages_of_ok (writeMessage_of_le written flushes hfirst), hrest]
        · rw [hwritten, Bytes.extract_zero_of_le hfirst, ByteArray.append_assoc]
      · have hover := Nat.not_le.mp hfirst
        refine ⟨0, _, writeMessages_of_error (writeMessage_of_lt written flushes hover) rest,
          Nat.succ_pos _, Bytes.fitting_zero hover, ?_⟩
        rw [Nat.sub_eq_zero_of_le (Nat.le_of_lt hover)]
        simp

end Sink

end RemoteMemory
