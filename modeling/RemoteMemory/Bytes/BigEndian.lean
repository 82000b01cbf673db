/-!
# Fixed-width big-endian integers

An integer field of `width` bytes, most significant byte first. Reading what was written gives the
value modulo the number of values that the field has, and writing what was read gives the bytes
back, so every string of the right length is the written form of exactly one value.
-/

namespace RemoteMemory

namespace BigEndian

def range : Nat → Nat
  | 0 => 1
  | width + 1 => 256 * range width

/-- The low `width` bytes of `value`, most significant first. -/
def encode : Nat → Nat → List UInt8
  | 0, _ => []
  | width + 1, value => UInt8.ofNat (value / range width) :: encode width value

def decode : List UInt8 → Nat
  | [] => 0
  | byte :: rest => byte.toNat * range rest.length + decode rest

theorem range_pos (width : Nat) : 0 < range width := by
  induction width with
  | zero => exact Nat.one_pos
  | succ width ih => exact Nat.mul_pos (by decide) ih

@[simp] theorem length_encode (width value : Nat) : (encode width value).length = width := by
  induction width with
  | zero => rfl
  | succ width ih => simp [encode, ih]

theorem decode_lt (bytes : List UInt8) : decode bytes < range bytes.length := by
  induction bytes with
  | nil => exact Nat.one_pos
  | cons byte rest ih =>
    have hbyte := byte.toNat_lt
    calc decode (byte :: rest)
        < byte.toNat * range rest.length + range rest.length := Nat.add_lt_add_left ih _
      _ = (byte.toNat + 1) * range rest.length := by rw [Nat.succ_mul]
      _ ≤ 256 * range rest.length := Nat.mul_le_mul_right _ hbyte

theorem decode_encode (width value : Nat) :
    decode (encode width value) = value % range width := by
  induction width with
  | zero => exact (Nat.mod_one value).symm
  | succ width ih =>
    have split : value % (range width * 256)
        = value % range width + range width * (value / range width % 256) := Nat.mod_mul
    rw [encode, decode, length_encode, ih, UInt8.toNat_ofNat', range, Nat.mul_comm 256, split,
      Nat.mul_comm (range width), Nat.add_comm]

theorem encode_add_mul (width high low : Nat) :
    encode width (high * range width + low) = encode width low := by
  induction width generalizing high with
  | zero => rfl
  | succ width ih =>
    have split : high * range (width + 1) + low = (high * 256) * range width + low := by
      rw [range, Nat.mul_assoc]
    have quotient : (high * 256 * range width + low) / range width
        = high * 256 + low / range width := by
      rw [Nat.add_comm, Nat.add_mul_div_right _ _ (range_pos width), Nat.add_comm]
    have same : UInt8.ofNat (high * 256 + low / range width)
        = UInt8.ofNat (low / range width) := by
      apply UInt8.toNat_inj.1
      rw [UInt8.toNat_ofNat', UInt8.toNat_ofNat']
      exact Nat.mul_add_mod' high 256 _
    rw [encode, encode, split, ih, quotient, same]

theorem encode_decode (bytes : List UInt8) : encode bytes.length (decode bytes) = bytes := by
  induction bytes with
  | nil => rfl
  | cons byte rest ih =>
    have high : (byte.toNat * range rest.length + decode rest) / range rest.length
        = byte.toNat := by
      rw [Nat.add_comm, Nat.add_mul_div_right _ _ (range_pos rest.length),
        Nat.div_eq_of_lt (decode_lt rest), Nat.zero_add]
    rw [List.length_cons, encode, decode, encode_add_mul, ih, high]
    simp

end BigEndian

end RemoteMemory
