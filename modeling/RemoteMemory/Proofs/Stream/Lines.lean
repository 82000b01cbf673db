import RemoteMemory.Proofs.Stream.Limits

/-!
# Lines on a sink that runs full

A line stands on a stream with a newline behind it, so lines without a newline inside are the
pieces that newlines end. A sink with limited room takes the start of the stream. It reports success
for the lines that are in whole, and what else it holds is the start of the first line that is not,
without the newline.
-/

namespace RemoteMemory

namespace Lines

def newline : UInt8 := 10

def SingleLine (text : String) : Prop :=
  '\n' ∉ text.toList

instance (text : String) : Decidable (SingleLine text) :=
  inferInstanceAs (Decidable ('\n' ∉ text.toList))

def framed (line : String) : ByteArray :=
  line.toUTF8 ++ "\n".toUTF8

def stream (lines : List String) : ByteArray :=
  Bytes.join (lines.map framed)

/-- The pieces of a stream between its newlines. The last one is not ended by a newline. -/
def pieces (stream : ByteArray) : List ByteArray :=
  (stream.data.toList.splitOn newline).map List.toByteArray

/-- What was written with success, by the results of writing one value after the other. -/
def reported {α : Type} : List α → List (Except Error Unit) → List α
  | value :: values, .ok () :: results => value :: reported values results
  | _ :: values, .error _ :: results => reported values results
  | _, _ => []

@[simp] theorem stream_nil : stream [] = ByteArray.empty := rfl

theorem stream_cons (line : String) (lines : List String) :
    stream (line :: lines) = framed line ++ stream lines := rfl

/-! ## Newlines -/

/-- No byte of another character is a newline. -/
theorem newline_mem_utf8EncodeChar_iff (char : Char) :
    newline ∈ String.utf8EncodeChar char ↔ char = '\n' := by
  have hbyte (n : Nat) (h : n < 256) : newline = UInt8.ofNat n ↔ n = 10 := by
    rw [← UInt8.toNat_inj, UInt8.toNat_ofNat_of_lt' h]
    exact eq_comm
  have hchar : char = '\n' ↔ char.val.toNat = 10 := by
    rw [Char.ext_iff, ← UInt32.toNat_inj]
    rfl
  rw [hchar, String.utf8EncodeChar]
  split
  · rw [List.mem_singleton, hbyte _ (by omega)]
  · -- The other encodings have the high bit set in every byte.
    split <;> try split
    all_goals
      simp only [List.mem_cons, List.not_mem_nil, or_false]
      repeat rw [hbyte _ (by omega)]
      omega

theorem data_toList_toUTF8 (text : String) :
    text.toUTF8.data.toList = text.toList.flatMap String.utf8EncodeChar := by
  rw [String.toUTF8_eq_toByteArray, ← String.utf8Encode_toList, List.utf8Encode,
    List.toList_data_toByteArray]

/-- A text has a newline among its bytes exactly when it has one among its characters. -/
theorem newline_not_mem_toUTF8_iff {text : String} :
    newline ∉ text.toUTF8.data.toList ↔ SingleLine text := by
  rw [data_toList_toUTF8, List.mem_flatMap, SingleLine]
  simp only [newline_mem_utf8EncodeChar_iff, exists_eq_right]

theorem SingleLine.append {front back : String} (hfront : SingleLine front)
    (hback : SingleLine back) : SingleLine (front ++ back) := by
  rw [SingleLine, String.toList_append, List.mem_append]
  exact not_or.mpr ⟨hfront, hback⟩

theorem SingleLine.intercalate {separator : String} {texts : List String}
    (hseparator : SingleLine separator) (h : ∀ text ∈ texts, SingleLine text) :
    SingleLine (separator.intercalate texts) := by
  induction texts with
  | nil => exact List.not_mem_nil
  | cons text texts ih =>
      obtain ⟨htext, htexts⟩ := List.forall_mem_cons.mp h
      cases texts with
      | nil => rwa [String.intercalate_singleton]
      | cons next texts =>
          rw [String.intercalate_cons_cons]
          exact (htext.append hseparator).append (ih htexts)

/-! ## Pieces -/

theorem data_toList_framed (line : String) :
    (framed line).data.toList = line.toUTF8.data.toList ++ [newline] := by
  rw [framed, ByteArray.toList_data_append]
  rfl

theorem size_framed (line : String) : (framed line).size = line.toUTF8.size + 1 :=
  ByteArray.size_append

theorem pieces_framed_append {line : String} (h : SingleLine line) (rest : ByteArray) :
    pieces (framed line ++ rest) = line.toUTF8 :: pieces rest := by
  rw [pieces, ByteArray.toList_data_append, data_toList_framed, List.append_assoc,
    List.singleton_append,
    List.splitOn_append_cons_self_of_not_mem (newline_not_mem_toUTF8_iff.mpr h)]
  exact congrArg (· :: pieces rest) (ByteArray.ext (by simp))

theorem pieces_of_not_mem {tail : ByteArray} (h : newline ∉ tail.data.toList) :
    pieces tail = [tail] := by
  rw [pieces, List.splitOn_eq_singleton h]
  exact congrArg ([·]) (ByteArray.ext (by simp))

/-- Lines and a tail, none with a newline inside, are the pieces that they were put together
from. -/
theorem pieces_stream_append {lines : List String} {tail : ByteArray}
    (hlines : ∀ line ∈ lines, SingleLine line) (htail : newline ∉ tail.data.toList) :
    pieces (stream lines ++ tail) = lines.map String.toUTF8 ++ [tail] := by
  induction lines with
  | nil => rw [stream_nil, ByteArray.empty_append, pieces_of_not_mem htail]; rfl
  | cons line lines ih =>
      obtain ⟨hline, hlines⟩ := List.forall_mem_cons.mp hlines
      rw [stream_cons, ByteArray.append_assoc, pieces_framed_append hline, ih hlines]
      rfl

/-! ## Where the room ends -/

/-- A stream of lines that ends with the room for it: so many lines, each with its newline, and the
start of the next one without. -/
structure Cut (lines : List String) (room count : Nat) (tail : ByteArray) : Prop where
  count_le : count ≤ lines.length
  fitting : Bytes.Fitting (lines.map framed) room count
  extract_eq : (stream lines).extract 0 room = stream (lines.take count) ++ tail
  newline_not_mem : newline ∉ tail.data.toList

namespace Cut

variable {room count : Nat} {tail : ByteArray} {line : String} {lines : List String}

theorem nil (room : Nat) : Cut [] room 0 ByteArray.empty where
  count_le := Nat.le_refl _
  fitting := by
    intro number hnumber
    rw [List.map_nil, List.take_nil, Nat.le_zero.mp hnumber]
    exact iff_of_true (Nat.zero_le _) (Nat.le_refl _)
  extract_eq := by simp
  newline_not_mem := List.not_mem_nil

theorem cons (h : Cut lines (room - (framed line).size) count tail)
    (hfits : (framed line).size ≤ room) : Cut (line :: lines) room (count + 1) tail where
  count_le := Nat.succ_le_succ h.count_le
  fitting := h.fitting.cons hfits
  extract_eq := by
    rw [stream_cons, Bytes.extract_zero_append, Bytes.extract_zero_of_le hfits, h.extract_eq,
      List.take_succ_cons, stream_cons, ByteArray.append_assoc]
  newline_not_mem := h.newline_not_mem

/-- The newline is the last byte of a line, so it is the first to be missing. -/
theorem of_lt (lines : List String) (hline : SingleLine line)
    (hover : room < (framed line).size) :
    Cut (line :: lines) room 0 (line.toUTF8.extract 0 room) where
  count_le := Nat.zero_le _
  fitting := Bytes.fitting_zero hover
  extract_eq := by
    have hnewline : room - line.toUTF8.size = 0 := by
      rw [size_framed] at hover
      omega
    rw [stream_cons, Bytes.extract_zero_append, Nat.sub_eq_zero_of_le (Nat.le_of_lt hover), framed,
      Bytes.extract_zero_append, hnewline]
    simp
  newline_not_mem := by
    intro hmem
    rw [ByteArray.data_extract, Array.toList_extract] at hmem
    have hbytes := List.mem_of_mem_drop (List.mem_of_mem_take hmem)
    exact newline_not_mem_toUTF8_iff.mpr hline hbytes

/-- The lines before the cut are those that fit. -/
theorem size_le_iff (h : Cut lines room count tail) {number : Nat}
    (hnumber : number ≤ lines.length) :
    (stream (lines.take number)).size ≤ room ↔ number ≤ count := by
  rw [stream, List.map_take]
  exact h.fitting number (by rwa [List.length_map])

end Cut

/-! ## Results -/

def results (count failed : Nat) : List (Except Error Unit) :=
  List.replicate count (.ok ()) ++ List.replicate failed (.error (.network .write))

theorem length_results (count failed : Nat) : (results count failed).length = count + failed := by
  rw [results, List.length_append, List.length_replicate, List.length_replicate]

theorem getElem?_results_eq_ok_iff {count failed number : Nat} :
    (results count failed)[number]? = some (.ok ()) ↔ number < count := by
  rw [results, List.getElem?_append, List.length_replicate]
  split
  next h => simp [h]
  next h => simp [h, List.getElem?_replicate]

theorem reported_replicate_error {α : Type} (values : List α) (failed : Nat) (error : Error) :
    reported values (List.replicate failed (.error error)) = [] := by
  induction values generalizing failed with
  | nil => cases failed <;> rfl
  | cons value values ih =>
      cases failed with
      | zero => rfl
      | succ failed => exact ih failed

theorem reported_results {α : Type} (values : List α) (count failed : Nat) :
    reported values (results count failed) = values.take count := by
  induction count generalizing values with
  | zero => exact reported_replicate_error values failed _
  | succ count ih =>
      cases values with
      | nil => rfl
      | cons value values => exact congrArg (value :: ·) (ih values)

end Lines

namespace Sink

open Lines (SingleLine framed stream results Cut)

variable {room : Nat} (written : ByteArray) (flushes : Nat)

theorem writeLine_eq_put (sink : Sink) (line : String) :
    sink.writeLine line = sink.put (framed line) := by
  rw [put, framed, write_append, writeLine]
  rcases sink.write line.toUTF8 with ⟨_ | _, middle⟩ <;> rfl

theorem writeLines_cons {sink middle : Sink} {line : String} {result : Except Error Unit}
    (h : sink.writeLine line = (result, middle)) (lines : List String) :
    sink.writeLines (line :: lines) =
      (result :: (middle.writeLines lines).1, (middle.writeLines lines).2) := by
  rw [writeLines, h]

/-- A full sink takes no line any more, not even an empty one. -/
theorem writeLines_of_full (lines : List String) :
    (limited 0 written flushes).writeLines lines =
      (List.replicate lines.length (.error (.network .write)),
        limited 0 written flushes) := by
  induction lines with
  | nil => rfl
  | cons line lines ih =>
      have hover : 0 < (framed line).size := by
        rw [Lines.size_framed]
        omega
      have hfirst : (limited 0 written flushes).writeLine line =
          (.error (.network .write), limited 0 written flushes) := by
        rw [writeLine_eq_put, put_of_lt written flushes hover]
        simp
      rw [writeLines_cons hfirst, ih]
      rfl

/-- The lines up to the cut are written with success and those behind it are not. -/
theorem exists_cut_of_writeLines (room : Nat) {lines : List String}
    (hlines : ∀ line ∈ lines, SingleLine line) :
    ∃ count tail after, Cut lines room count tail ∧
      (limited room written flushes).writeLines lines =
        (results count (lines.length - count), after) ∧
      after.written = written ++ (stream lines).extract 0 room := by
  induction lines generalizing room written flushes with
  | nil =>
      refine ⟨0, _, _, .nil room, rfl, ?_⟩
      rw [Lines.stream_nil, Bytes.extract_zero_of_le (Nat.zero_le room), ByteArray.append_empty]
  | cons line lines ih =>
      obtain ⟨hline, hlines⟩ := List.forall_mem_cons.mp hlines
      rw [Lines.stream_cons, Bytes.extract_zero_append]
      by_cases hfits : (framed line).size ≤ room
      · have hfirst := put_of_le written flushes hfits
        rw [← writeLine_eq_put] at hfirst
        obtain ⟨count, tail, after, hcut, hrest, hwritten⟩ :=
          ih (written ++ framed line) (flushes + 1) _ hlines
        refine ⟨count + 1, tail, after, hcut.cons hfits, ?_, ?_⟩
        · rw [writeLines_cons hfirst, hrest, List.length_cons, Nat.add_sub_add_right]
          rfl
        · rw [hwritten, Bytes.extract_zero_of_le hfits, ByteArray.append_assoc]
      · have hover := Nat.not_le.mp hfits
        have hfirst := put_of_lt written flushes hover
        rw [← writeLine_eq_put] at hfirst
        refine ⟨0, _, limited 0 (written ++ (framed line).extract 0 room) flushes,
          .of_lt lines hline hover, ?_, ?_⟩
        · rw [writeLines_cons hfirst, writeLines_of_full]
          rfl
        · rw [Nat.sub_eq_zero_of_le (Nat.le_of_lt hover)]
          simp

/-- A line that is in up to its newline is not reported, and neither is an empty one after it. -/
example : ((limited 5 ByteArray.empty 0).writeLines ["ab", "cd", ""]).1 =
    results 1 2 := rfl

end Sink

end RemoteMemory
