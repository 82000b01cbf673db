/-!
# Hexadecimal text

Numbers written with the prefix mark 0x and lower-case digits, either as short as possible or
padded with zeros to a least number of digits.
-/

namespace RemoteMemory

namespace Hex

def digits (value : Nat) : String :=
  String.ofList (Nat.toDigits 16 value)

/-- `value` with the mark in front and no padding. -/
def short (value : Nat) : String :=
  "0x" ++ digits value

/-- `value` with the mark in front and at least `width` digits. -/
def padded (width value : Nat) : String :=
  "0x" ++ String.ofList (List.leftpad width '0' (Nat.toDigits 16 value))

end Hex

end RemoteMemory
