import RemoteMemory.Header.Codec
import Mathlib.Algebra.GroupWithZero.Nat
import Mathlib.Logic.Function.Basic

/-!
# Headers and their 24 bytes

Every field of a header is found where it was written: a field that stands behind as many bytes as
its offset says, and fits into its width, is read back as the number that it is. So an encoded
header decodes to itself. Fields that are read one behind the other, each written again, give the
bytes that they were read from, so decoded bytes encode to themselves. Fields that are stored at
their offsets in a buffer come to stand one behind the other, so together they replace the start of
the buffer and leave the rest alone.
-/

namespace RemoteMemory

namespace BigEndian

theorem encode_one (byte : UInt8) : encode 1 byte.toNat = [byte] := by
  simp [encode, range]

end BigEndian

namespace Header

/-- The fields in their order, each with its width. -/
def fields (header : Header) : List (Nat × Nat) :=
  [(4, header.magic.toNat), (1, header.version.toNat), (1, header.command.toNat),
    (2, header.flags.toNat), (8, header.handle.toNat), (4, header.byteCount.toNat),
    (4, header.reserved.toNat)]

def encodeFields (fields : List (Nat × Nat)) : List UInt8 :=
  fields.flatMap fun field => BigEndian.encode field.1 field.2

theorem length_encodeFields (fields : List (Nat × Nat)) :
    (encodeFields fields).length = (fields.map Prod.fst).sum := by
  simp [encodeFields, List.length_flatMap]

theorem toList_encode (header : Header) :
    header.encode.data.toList = encodeFields header.fields := by
  have hversion := BigEndian.encode_one header.version
  have hcommand := BigEndian.encode_one header.command
  simp [encode, encodeList, encodeFields, fields, hversion, hcommand]

/-- A field that fits into its width is found behind the fields before it. -/
theorem fieldAt_encodeFields {bytes : ByteArray} (before : List (Nat × Nat)) {width value : Nat}
    {after : List (Nat × Nat)}
    (h : bytes.data.toList = encodeFields (before ++ (width, value) :: after))
    (hvalue : value < BigEndian.range width) :
    fieldAt bytes (before.map Prod.fst).sum width = value := by
  have hsplit : bytes.data.toList =
      encodeFields before ++ (BigEndian.encode width value ++ encodeFields after) := by
    rw [h, encodeFields, List.flatMap_append, List.flatMap_cons]
    rfl
  have hfield : (bytes.extract (before.map Prod.fst).sum
      ((before.map Prod.fst).sum + width)).data.toList = BigEndian.encode width value := by
    rw [ByteArray.data_extract, Array.toList_extract, hsplit, List.extract_eq_take_drop,
      List.drop_left' (length_encodeFields before), Nat.add_sub_cancel_left,
      List.take_left' (BigEndian.length_encode width value)]
  rw [fieldAt, hfield, BigEndian.decode_encode, Nat.mod_eq_of_lt hvalue]

@[simp] theorem ofBytes_encode (header : Header) : ofBytes header.encode = header := by
  have h := toList_encode header
  obtain ⟨magic, version, command, flags, handle, byteCount, reserved⟩ := header
  have hmagic := fieldAt_encodeFields [] h magic.toNat_lt
  have hversion := fieldAt_encodeFields [(4, _)] h version.toNat_lt
  have hcommand := fieldAt_encodeFields [(4, _), (1, _)] h command.toNat_lt
  have hflags := fieldAt_encodeFields [(4, _), (1, _), (1, _)] h flags.toNat_lt
  have hhandle := fieldAt_encodeFields [(4, _), (1, _), (1, _), (2, _)] h handle.toNat_lt
  have hbyteCount :=
    fieldAt_encodeFields [(4, _), (1, _), (1, _), (2, _), (8, _)] h byteCount.toNat_lt
  have hreserved :=
    fieldAt_encodeFields [(4, _), (1, _), (1, _), (2, _), (8, _), (4, _)] h reserved.toNat_lt
  simp only [List.map_cons, List.map_nil, List.sum_cons, List.sum_nil, Nat.reduceAdd] at *
  simp only [ofBytes, hmagic, hversion, hcommand, hflags, hhandle, hbyteCount, hreserved,
    UInt8.ofNat_toNat, UInt16.ofNat_toNat, UInt32.ofNat_toNat, UInt64.ofNat_toNat]

/-! ## Decoded bytes encode to themselves -/

/-- The fields of some widths that stand one behind the other from an offset on. -/
def fieldsAt (bytes : ByteArray) (offset : Nat) : List Nat → List (Nat × Nat)
  | [] => []
  | width :: widths => (width, fieldAt bytes offset width) :: fieldsAt bytes (offset + width) widths

theorem length_toList_extract {bytes : ByteArray} {offset width : Nat}
    (h : offset + width ≤ bytes.size) :
    (bytes.extract offset (offset + width)).data.toList.length = width := by
  rw [Array.length_toList, ← ByteArray.size, ByteArray.size_extract]
  omega

theorem fieldAt_lt {bytes : ByteArray} {offset width : Nat} (h : offset + width ≤ bytes.size) :
    fieldAt bytes offset width < BigEndian.range width := by
  have hlt := BigEndian.decode_lt (bytes.extract offset (offset + width)).data.toList
  rwa [length_toList_extract h] at hlt

/-- A field that is written again gives the bytes that it was read from. -/
theorem encode_fieldAt {bytes : ByteArray} {offset width : Nat} (h : offset + width ≤ bytes.size) :
    BigEndian.encode width (fieldAt bytes offset width) =
      (bytes.extract offset (offset + width)).data.toList := by
  have hencode := BigEndian.encode_decode (bytes.extract offset (offset + width)).data.toList
  rwa [length_toList_extract h] at hencode

theorem encodeFields_fieldsAt {bytes : ByteArray} {offset : Nat} {widths : List Nat}
    (h : offset + widths.sum ≤ bytes.size) :
    encodeFields (fieldsAt bytes offset widths) =
      (bytes.extract offset (offset + widths.sum)).data.toList := by
  induction widths generalizing offset with
  | nil => simp [fieldsAt, encodeFields]
  | cons width widths ih =>
      rw [List.sum_cons, ← Nat.add_assoc] at h ⊢
      have hfield : offset + width ≤ bytes.size := by omega
      have hsplit := ByteArray.extract_eq_extract_append_extract (a := bytes) (offset + width)
        (Nat.le_add_right offset width) (Nat.le_add_right (offset + width) widths.sum)
      rw [fieldsAt, encodeFields, List.flatMap_cons, encode_fieldAt hfield, ← encodeFields, ih h,
        hsplit, ByteArray.data_append, Array.toList_append]

/-- Every field fits the number that it is read into. -/
theorem fields_ofBytes {bytes : ByteArray} (h : size ≤ bytes.size) :
    (ofBytes bytes).fields = fieldsAt bytes 0 [4, 1, 1, 2, 8, 4, 4] := by
  have hfits : ∀ offset width, offset + width ≤ size →
      fieldAt bytes offset width < BigEndian.range width :=
    fun offset width hle => fieldAt_lt (Nat.le_trans hle h)
  have hmagic := hfits 0 4 (by decide)
  have hversion := hfits 4 1 (by decide)
  have hcommand := hfits 5 1 (by decide)
  have hflags := hfits 6 2 (by decide)
  have hhandle := hfits 8 8 (by decide)
  have hbyteCount := hfits 16 4 (by decide)
  have hreserved := hfits 20 4 (by decide)
  simp only [fields, ofBytes, fieldsAt, Nat.zero_add, Nat.reduceAdd]
  rw [UInt32.toNat_ofNat_of_lt' hmagic, UInt8.toNat_ofNat_of_lt' hversion,
    UInt8.toNat_ofNat_of_lt' hcommand, UInt16.toNat_ofNat_of_lt' hflags,
    UInt64.toNat_ofNat_of_lt' hhandle, UInt32.toNat_ofNat_of_lt' hbyteCount,
    UInt32.toNat_ofNat_of_lt' hreserved]

/-- The header that was read from some bytes is written as the first of them. -/
theorem encode_ofBytes {bytes : ByteArray} (h : size ≤ bytes.size) :
    (ofBytes bytes).encode = bytes.extract 0 size := by
  have hfields : (ofBytes bytes).encode.data.toList = (bytes.extract 0 size).data.toList := by
    rw [toList_encode, fields_ofBytes h]
    exact encodeFields_fieldsAt h
  exact ByteArray.ext (Array.toList_inj.mp hfields)

theorem ofBytes_append {front : ByteArray} (h : front.size = size) (back : ByteArray) :
    ofBytes (front ++ back) = ofBytes front := by
  have hle : size ≤ (front ++ back).size := by
    rw [ByteArray.size_append, h]
    exact Nat.le_add_right _ _
  calc ofBytes (front ++ back)
      = ofBytes (ofBytes (front ++ back)).encode := (ofBytes_encode _).symm
    _ = ofBytes ((front ++ back).extract 0 size) := by rw [encode_ofBytes hle]
    _ = ofBytes front := by rw [ByteArray.extract_append_eq_left h.symm]

/-! ## Fields stored in a buffer -/

def storeEach (buffer : ByteArray) (offset : Nat) : List (Nat × Nat) → ByteArray
  | [] => buffer
  | (width, value) :: rest => storeEach (storeAt buffer offset width value) (offset + width) rest

/-- A field stored behind the front of a buffer takes the place of the bytes there. -/
theorem storeAt_append (front back : ByteArray) (width value : Nat) :
    storeAt (front ++ back) front.size width value =
      front ++ (BigEndian.encode width value).toByteArray ++ back.extract width back.size := by
  have hfield : (BigEndian.encode width value).toByteArray.size = width := by simp
  have hend : (front ++ back).size = front.size + back.size := ByteArray.size_append
  rw [storeAt, Bytes.overwriteAt, hfield, hend, ByteArray.extract_append_eq_left rfl,
    ByteArray.extract_append_size_add]

/-- Fields stored one behind the other take the place of as many bytes as they are wide. -/
theorem storeEach_append (front back : ByteArray) (fields : List (Nat × Nat)) :
    storeEach (front ++ back) front.size fields =
      front ++ (encodeFields fields).toByteArray ++
        back.extract (fields.map Prod.fst).sum back.size := by
  induction fields generalizing front back with
  | nil => simp [storeEach, encodeFields]
  | cons field rest ih =>
      obtain ⟨width, value⟩ := field
      have hfront : front.size + width =
          (front ++ (BigEndian.encode width value).toByteArray).size := by simp
      have hbytes : encodeFields ((width, value) :: rest) =
          BigEndian.encode width value ++ encodeFields rest := List.flatMap_cons
      have hend : min (width + (back.extract width back.size).size) back.size = back.size := by
        rw [ByteArray.size_extract]
        omega
      rw [storeEach, storeAt_append, hfront, ih, hbytes, List.toByteArray_append, List.map_cons,
        List.sum_cons, ByteArray.extract_extract, hend]
      simp only [ByteArray.append_assoc]

theorem store_eq (header : Header) (buffer : ByteArray) :
    header.store buffer = header.encode ++ buffer.extract size buffer.size := by
  have hencode : (encodeFields header.fields).toByteArray = header.encode := by
    apply ByteArray.ext
    rw [List.data_toByteArray, ← toList_encode, Array.toArray_toList]
  calc header.store buffer
      = storeEach (ByteArray.empty ++ buffer) ByteArray.empty.size header.fields := by
        simp [store, storeEach, fields]
    _ = header.encode ++ buffer.extract (header.fields.map Prod.fst).sum buffer.size := by
        rw [storeEach_append, hencode, ByteArray.empty_append]

theorem encodeInto?_of_le (header : Header) {buffer : ByteArray} (h : size ≤ buffer.size) :
    header.encodeInto? buffer = some (header.encode ++ buffer.extract size buffer.size) := by
  rw [encodeInto?, if_pos h, store_eq]

theorem getElem?_append_extract {front buffer : ByteArray} {index : Nat}
    (h : front.size ≤ index) :
    (front ++ buffer.extract front.size buffer.size).data[index]? = buffer.data[index]? := by
  have hsize : buffer.data.size = buffer.size := rfl
  have hplace : front.size + (index - front.size) = index := Nat.add_sub_cancel' h
  rw [ByteArray.data_append, Array.getElem?_append_right h, ByteArray.data_extract,
    Array.getElem?_extract, hsize, Nat.min_self]
  change (if index - front.size < _ then buffer.data[front.size + (index - front.size)]? else none)
    = _
  rw [hplace]
  split
  · rfl
  next hout => exact (Array.getElem?_eq_none (by omega)).symm

/-! ## Headers and strings of 24 bytes -/

theorem decode?_eq_none_iff {bytes : ByteArray} : decode? bytes = none ↔ bytes.size < size := by
  simp [decode?]

theorem decode?_encode (header : Header) : decode? header.encode = some header := by
  rw [decode?, size_encode, if_pos (Nat.le_refl size), ofBytes_encode]

theorem encode_of_decode? {bytes : ByteArray} {header : Header}
    (h : decode? bytes = some header) : header.encode = bytes.extract 0 size := by
  unfold decode? at h
  split at h
  case isTrue hle =>
    cases h
    exact encode_ofBytes hle
  case isFalse => cases h

/-- The first 24 bytes decide what is decoded. -/
theorem decode?_of_le {bytes : ByteArray} (h : size ≤ bytes.size) :
    decode? bytes = some (ofBytes (bytes.extract 0 size)) := by
  obtain ⟨front, back, rfl, hfront⟩ := Bytes.exists_append_of_le h
  rw [decode?, if_pos h, ofBytes_append hfront, ByteArray.extract_append_eq_left hfront.symm]

def block (header : Header) : { bytes : ByteArray // bytes.size = size } :=
  ⟨header.encode, size_encode header⟩

theorem val_block (header : Header) : header.block.val = header.encode := rfl

theorem bijective_block : Function.Bijective block := by
  apply Function.bijective_iff_has_inverse.mpr
  refine ⟨fun bytes => ofBytes bytes.val, fun header => ?_, fun bytes => Subtype.ext ?_⟩
  · dsimp only
    rw [val_block, ofBytes_encode]
  · obtain ⟨bytes, hbytes⟩ := bytes
    calc (ofBytes bytes).block.val
        = (ofBytes bytes).encode := val_block _
      _ = bytes.extract 0 size := encode_ofBytes (Nat.le_of_eq hbytes.symm)
      _ = bytes := by rw [← hbytes, ByteArray.extract_zero_size]

/-- Encoding is one to one between headers and strings of 24 bytes. An encoded header decodes to
itself, whatever its fields are. A string is decoded unless it has fewer than 24 bytes; what was
decoded is encoded as its first 24 bytes, and the bytes behind them make no difference. Encoding
into a buffer of at least 24 bytes changes nothing but its first 24 bytes, which become the encoded
header. -/
theorem codec_bijective :
    Function.Bijective block ∧
      (∀ header : Header, decode? header.encode = some header) ∧
      (∀ bytes, decode? bytes = none ↔ bytes.size < 24) ∧
      (∀ bytes header, decode? bytes = some header → header.encode = bytes.extract 0 24) ∧
      (∀ bytes other : ByteArray, 24 ≤ bytes.size → 24 ≤ other.size →
        bytes.extract 0 24 = other.extract 0 24 → decode? bytes = decode? other) ∧
      ∀ (header : Header) (buffer : ByteArray), 24 ≤ buffer.size →
        ∃ written, header.encodeInto? buffer = some written ∧ written.size = buffer.size ∧
          written.extract 0 24 = header.encode ∧
          ∀ index, 24 ≤ index → written.data[index]? = buffer.data[index]? := by
  refine ⟨bijective_block, decode?_encode, fun _ => decode?_eq_none_iff,
    fun _ _ => encode_of_decode?, ?_, ?_⟩
  · intro bytes other hbytes hother hfront
    rw [decode?_of_le hbytes, decode?_of_le hother]
    exact congrArg (fun front => some (ofBytes front)) hfront
  · intro header buffer hbuffer
    refine ⟨_, header.encodeInto?_of_le hbuffer, ?_, ?_, ?_⟩
    · rw [ByteArray.size_append, size_encode, ByteArray.size_extract, Nat.min_self]
      exact Nat.add_sub_cancel' hbuffer
    · exact ByteArray.extract_append_eq_left (size_encode header).symm
    · intro index hindex
      rw [← size_encode header]
      exact getElem?_append_extract (by rwa [size_encode])

example :
    (⟨0x01020304, 5, 6, 0x0708, 0x090A0B0C0D0E0F10, 0x11121314, 0x15161718⟩ : Header).encodeList =
      [1, 2, 3, 4, 5, 6, 7, 8, 9, 10, 11, 12, 13, 14, 15, 16, 17, 18, 19, 20, 21, 22, 23, 24] := by
  decide

end Header

end RemoteMemory
