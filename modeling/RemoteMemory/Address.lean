import RemoteMemory.Text.Hex

/-!
# Socket addresses

The text of a socket address. An address of version 6 stands in brackets, its longest run of
two or more zero groups is left out, and one that maps an address of version 4 shows that address
in its own notation.
-/

namespace RemoteMemory

inductive Address where
  | v4 (a b c d : UInt8) (tcpPort : UInt16)
  | v6 (groups : Vector UInt16 8) (scope : UInt32) (tcpPort : UInt16)
  deriving DecidableEq

namespace Address

def octetsText (a b c d : UInt8) : String :=
  ".".intercalate [toString a.toNat, toString b.toNat, toString c.toNat, toString d.toNat]

def groupsText (groups : List UInt16) : String :=
  ":".intercalate (groups.map fun group => Hex.digits group.toNat)

def leadingZeros (groups : List UInt16) : Nat :=
  (groups.takeWhile (· == 0)).length

/-- The first longest run of zeros: where it starts and how long it is. A list without zeros has
a run of length 0. -/
def longestZeros : List UInt16 → Nat × Nat
  | [] => (0, 0)
  | group :: rest =>
    let here := leadingZeros (group :: rest)
    let (start, length) := longestZeros rest
    if length ≤ here then (0, here) else (start + 1, length)

def v6Text (groups : List UInt16) : String :=
  match groups with
  | [0, 0, 0, 0, 0, 0xFFFF, high, low] =>
    "::ffff:" ++ octetsText (high >>> 8).toUInt8 high.toUInt8 (low >>> 8).toUInt8 low.toUInt8
  | _ =>
    let (start, length) := longestZeros groups
    if 1 < length then
      groupsText (groups.take start) ++ "::" ++ groupsText (groups.drop (start + length))
    else groupsText groups

/-- The text of a socket address. A scope is shown when it is not 0. -/
def text : Address → String
  | v4 a b c d tcpPort => octetsText a b c d ++ ":" ++ toString tcpPort.toNat
  | v6 groups scope tcpPort =>
    let scopeText := if scope = 0 then "" else "%" ++ toString scope.toNat
    "[" ++ v6Text groups.toList ++ scopeText ++ "]:" ++ toString tcpPort.toNat

end Address

end RemoteMemory
