import Mathlib.Logic.Function.Basic
import RemoteMemory.Notice
import RemoteMemory.Proofs.Stream.Lines

/-!
# Notices of counters are read back

An object of decimal numbers is read back by the names of its members: a number ends at the comma or
the brace behind it, as neither is a digit. So the line of a notice tells the counters apart, and as
it is a single line, a reader of what a sink took recovers the counters of the lines that were
written with success, wherever the room of the sink ended.
-/

namespace RemoteMemory

namespace Notice

open Lines (SingleLine)

/-! ## Reader -/

/-- Take a text off the front. -/
def literal? (text : String) (input : List Char) : Option (List Char) :=
  if text.toList.isPrefixOf input then some (input.drop text.toList.length) else none

def number? (input : List Char) : Option (Nat × List Char) :=
  match input.takeWhile Char.isDigit with
  | [] => none
  | digits => some (Nat.ofDigitChars 10 digits 0, input.dropWhile Char.isDigit)

/-- Read the numbers of the members with these names, and the brace behind them. -/
def members? : List String → List Char → Option (List Nat × List Char)
  | [], input => do
    let input ← literal? "\x7d" input
    some ([], input)
  | name :: names, input => do
    let input ← literal? (quoted name ++ ":") input
    let (value, input) ← number? input
    let input ← if names.isEmpty then some input else literal? "," input
    let (values, input) ← members? names input
    some (value :: values, input)

def numbers? (names : List String) (input : List Char) : Option (List Nat × List Char) := do
  let input ← literal? "\x7b" input
  members? names input

def counters? (line : String) : Option Stats := do
  let input ← literal? "\x7b\"jsonrpc\":\"2.0\",\"method\":\"$stats\",\"params\":" line.toList
  let (values, input) ← numbers?
    ["currentUsage", "numAllocs", "numFrees", "peakUsage", "totalAllocated", "totalFreed"] input
  match values, input with
  | [current, allocations, releases, peak, allocated, freed], ['\x7d'] =>
    some { allocated, freed, current, peak, allocations, releases }
  | _, _ => none

/-- Read the counters off the lines of a stream. A last line without a newline is left out. -/
def readCounters (stream : ByteArray) : List (Option Stats) :=
  (Lines.pieces stream).dropLast.map fun piece => (String.fromUTF8? piece).bind counters?

/-! ## Reading back -/

theorem literal?_append (text : String) (rest : List Char) :
    literal? text (text.toList ++ rest) = some rest := by
  rw [literal?, if_pos (List.isPrefixOf_iff_prefix.mpr (List.prefix_append _ _)),
    List.drop_left]

/-- A number ends where something else than a digit follows. -/
theorem number?_append (value : Nat) {next : Char} (hnext : next.isDigit = false)
    (rest : List Char) :
    number? ((toString value).toList ++ next :: rest) = some (value, next :: rest) := by
  have hdigits : ∀ char ∈ Nat.toDigits 10 value, char.isDigit = true :=
    fun _ hmem => Nat.isDigit_of_mem_toDigits (by decide) (by decide) hmem
  rw [Nat.toString_eq_ofList_toDigits, String.toList_ofList, number?,
    List.takeWhile_append_of_pos hdigits, List.dropWhile_append_of_pos hdigits,
    List.takeWhile_cons_of_neg (by simp [hnext]), List.dropWhile_cons_of_neg (by simp [hnext]),
    List.append_nil]
  split
  next hnil => exact absurd hnil Nat.toDigits_ne_nil
  next => rw [Nat.ofDigitChars_ten_toDigits]

def member (field : String × Nat) : String :=
  quoted field.1 ++ ":" ++ toString field.2

/-- One member is read, and the others behind it. -/
theorem members?_cons (field : String × Nat) (names : List String) {next : Char}
    (hnext : next.isDigit = false) (rest : List Char) :
    members? (field.1 :: names) ((member field).toList ++ next :: rest) = (do
      let input ← if names.isEmpty then some (next :: rest) else literal? "," (next :: rest)
      let (values, input) ← members? names input
      some (field.2 :: values, input)) := by
  rw [members?, member, String.toList_append, List.append_assoc, literal?_append,
    Option.bind_eq_bind, Option.bind_some, number?_append field.2 hnext]
  rfl

theorem members?_append (fields : List (String × Nat)) (rest : List Char) :
    members? (fields.map Prod.fst)
        ((",".intercalate (fields.map member)).toList ++ '\x7d' :: rest) =
      some (fields.map Prod.snd, rest) := by
  induction fields with
  | nil => rfl
  | cons field fields ih =>
      cases fields with
      | nil => exact members?_cons field [] (by decide) rest
      | cons next fields =>
          -- The comma behind a member is the character that ends its number.
          have htext : (",".intercalate ((field :: next :: fields).map member)).toList =
              (member field).toList ++
                ',' :: (",".intercalate ((next :: fields).map member)).toList := by
            simp [String.intercalate_cons_cons]
          have hcomma (behind : List Char) :
              literal? "," (',' :: behind) = some behind := literal?_append "," behind
          rw [htext, List.append_assoc, List.cons_append, List.map_cons,
            members?_cons field _ (by decide), List.map_cons, List.isEmpty_cons,
            if_neg Bool.false_ne_true, hcomma, ← List.map_cons, Option.bind_eq_bind,
            Option.bind_some]
          dsimp only
          rw [ih]
          rfl

theorem numbers?_object (fields : List (String × Nat)) (rest : List Char) :
    numbers? (fields.map Prod.fst)
        ((object (fields.map fun field => (field.1, toString field.2))).toList ++ rest) =
      some (fields.map Prod.snd, rest) := by
  have htext : (object (fields.map fun field => (field.1, toString field.2))).toList ++ rest =
      "\x7b".toList ++ ((",".intercalate (fields.map member)).toList ++ '\x7d' :: rest) := by
    rw [object, List.map_map]
    simp only [String.toList_append, List.append_assoc]
    rfl
  rw [htext, numbers?, literal?_append, Option.bind_eq_bind, Option.bind_some, members?_append]

def fields (counters : Stats) : List (String × Nat) :=
  [("currentUsage", counters.current), ("numAllocs", counters.allocations),
    ("numFrees", counters.releases), ("peakUsage", counters.peak),
    ("totalAllocated", counters.allocated), ("totalFreed", counters.freed)]

theorem parameters_stats (counters : Stats) :
    (stats counters).parameters =
      (fields counters).map fun field => (field.1, toString field.2) :=
  rfl

/-- The line of a notice of counters, up to the object with the counters, and that. -/
theorem toList_line_stats (counters : Stats) :
    (stats counters).line.toList =
      "\x7b\"jsonrpc\":\"2.0\",\"method\":\"$stats\",\"params\":".toList ++
        ((object (stats counters).parameters).toList ++ ['\x7d']) := by
  rw [line, object]
  generalize object (stats counters).parameters = params
  simp [String.intercalate_cons_cons, quoted, method, statsMethod]

theorem counters?_line (counters : Stats) :
    counters? (stats counters).line = some counters := by
  have hnumbers := numbers?_object (fields counters) ['\x7d']
  rw [← parameters_stats] at hnumbers
  rw [counters?, toList_line_stats, literal?_append, Option.bind_eq_bind, Option.bind_some]
  change Option.bind (numbers? ((fields counters).map Prod.fst) _) _ = _
  rw [hnumbers]
  rfl

theorem line_stats_injective : Function.Injective fun counters => (stats counters).line := by
  intro counters others h
  have hread := congrArg counters? h
  rw [counters?_line, counters?_line] at hread
  exact Option.some.inj hread

/-! ## Single lines -/

theorem singleLine_toString (value : Nat) : SingleLine (toString value) := by
  rw [SingleLine, Nat.toString_eq_ofList_toDigits, String.toList_ofList]
  intro hmem
  have hdigit := Nat.isDigit_of_mem_toDigits (by decide) (by decide) hmem
  exact absurd hdigit (by decide)

theorem singleLine_quoted {text : String} (h : SingleLine text) : SingleLine (quoted text) := by
  have hquote : SingleLine "\"" := by decide
  exact (hquote.append h).append hquote

theorem singleLine_object {members : List (String × String)}
    (h : ∀ member ∈ members, SingleLine member.1 ∧ SingleLine member.2) :
    SingleLine (object members) := by
  have hopen : SingleLine "\x7b" := by decide
  have hclose : SingleLine "\x7d" := by decide
  refine (hopen.append (.intercalate (by decide) ?_)).append hclose
  intro text hmem
  obtain ⟨member, hmember, rfl⟩ := List.mem_map.mp hmem
  obtain ⟨hname, hvalue⟩ := h member hmember
  have hcolon : SingleLine ":" := by decide
  exact ((singleLine_quoted hname).append hcolon).append hvalue

theorem singleLine_line_stats (counters : Stats) : SingleLine (stats counters).line := by
  have hparameters : SingleLine (object (stats counters).parameters) := by
    apply singleLine_object
    simp only [parameters, List.forall_mem_cons, singleLine_toString]
    decide
  apply singleLine_object
  simp only [List.forall_mem_cons, hparameters, method]
  decide

/-! ## Notices on a sink that runs full -/

theorem fromUTF8?_toUTF8 (text : String) : String.fromUTF8? text.toUTF8 = some text :=
  dif_pos text.isValidUTF8

/-- A reader recovers the counters of the lines before the last newline. -/
theorem readCounters_of_pieces {stream tail : ByteArray} {counters : List Stats}
    (h : Lines.pieces stream =
      (counters.map fun counters => (stats counters).line).map String.toUTF8 ++ [tail]) :
    readCounters stream = counters.map some := by
  rw [readCounters, h, List.dropLast_concat, List.map_map, List.map_map]
  refine List.map_congr_left fun counters _ => ?_
  simp only [Function.comp_apply, fromUTF8?_toUTF8, Option.bind_some, counters?_line]

/-- Notices of counters, written in order to a sink that takes `limit` bytes: the sink has the start
of the stream of their lines, a write succeeds exactly when the stream up to its newline fits, and
between newlines stand exactly the lines that were written with success. As lines are single and
differ when the counters do, reading them gives back the counters. -/
theorem recovered_of_writeLines (limit : Nat) (counters : List Stats) :
    let lines := counters.map fun counters => (stats counters).line
    let stream := Lines.stream lines
    let (results, after) := ({ room := some limit } : Sink).writeLines lines
    after.written = stream.extract 0 (min limit stream.size) ∧
      results.length = lines.length ∧
      (∀ number < lines.length, results[number]? = some (.ok ()) ↔
        (Lines.stream (lines.take (number + 1))).size ≤ limit) ∧
      (∃ tail, Lines.newline ∉ tail.data.toList ∧
        Lines.pieces after.written = (Lines.reported lines results).map String.toUTF8 ++ [tail]) ∧
      readCounters after.written = (Lines.reported counters results).map some ∧
      (∀ counters, SingleLine (stats counters).line) ∧
      Function.Injective fun counters => (stats counters).line := by
  intro lines stream
  have hlines : ∀ line ∈ lines, SingleLine line :=
    List.forall_mem_map.mpr fun counters _ => singleLine_line_stats counters
  obtain ⟨count, tail, after, hcut, hrun, hwritten⟩ :=
    Sink.exists_cut_of_writeLines ByteArray.empty 0 limit hlines
  rw [hrun]
  rw [ByteArray.empty_append] at hwritten
  have hpieces : Lines.pieces after.written = (lines.take count).map String.toUTF8 ++ [tail] := by
    rw [hwritten, hcut.extract_eq]
    exact Lines.pieces_stream_append
      (fun line hmem => hlines line (List.mem_of_mem_take hmem)) hcut.newline_not_mem
  refine ⟨?_, ?_, ?_, ⟨tail, hcut.newline_not_mem, ?_⟩, ?_, singleLine_line_stats,
    line_stats_injective⟩
  · rw [Bytes.extract_zero_min_size, hwritten]
  · rw [Lines.length_results, Nat.add_sub_cancel' hcut.count_le]
  · intro number hnumber
    rw [Lines.getElem?_results_eq_ok_iff, hcut.size_le_iff hnumber, Nat.succ_le_iff]
  · rw [Lines.reported_results, hpieces]
  · have hreported : lines.take count =
        (counters.take count).map fun counters => (stats counters).line := List.map_take.symm
    rw [hreported] at hpieces
    rw [Lines.reported_results, readCounters_of_pieces hpieces]

end Notice

end RemoteMemory
