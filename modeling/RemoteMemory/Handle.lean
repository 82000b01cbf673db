import RemoteMemory.Text.Hex

/-!
# Handles and tokens

A handle is the server's number for a block and is never 0. A token is the number that a client
gives to its application in place of a handle.
-/

namespace RemoteMemory

/-- The server's number for a block. -/
structure Handle where
  number : UInt64
  number_ne_zero : number ≠ 0
  deriving DecidableEq

def Handle.ofNumber? (number : UInt64) : Option Handle :=
  if h : number = 0 then none else some ⟨number, h⟩

def Handle.text (handle : Handle) : String :=
  Hex.short handle.number.toNat

/-- A client's number for a block. -/
structure Token where
  number : UInt64
  deriving DecidableEq, Repr

def Token.text (token : Token) : String :=
  s!"token#{token.number.toNat}"

end RemoteMemory
