import RemoteMemory.Bytes.Basic
import RemoteMemory.Handle
import RemoteMemory.Registry

/-!
# Client caches

A client numbers the blocks that it was granted with tokens of its own. Each entry keeps the handle
the server knows, the size, and a shadow: a copy of what this client wrote, which starts as zeros
like the block itself.
-/

namespace RemoteMemory

namespace Client

structure Entry where
  handle : Handle
  size : Nat
  shadow : ByteArray

/-- The granted blocks of a client, by token. -/
abbrev Cache := Registry Entry

namespace Cache

/-- Record a granted block and return its token, unless the cache refuses. A shadow is made only
for a block that is recorded. -/
def record (cache : Cache) (handle : Handle) (size : Nat) : Option Token × Cache :=
  if cache.isFull then (none, cache)
  else (some ⟨cache.next⟩, cache.add ⟨handle, size, Bytes.zeros size⟩)

def lookup? (cache : Cache) (token : Token) : Option Entry :=
  cache.get? token.number

def updateShadow (cache : Cache) (token : Token) (data : ByteArray) : Bool × Cache :=
  match cache.lookup? token with
  | some entry =>
    if data.size ≤ entry.size then
      (true, cache.modify token.number fun entry =>
        { entry with shadow := Bytes.overwrite entry.shadow data })
    else (false, cache)
  | none => (false, cache)

def remove (cache : Cache) (token : Token) : Option Entry × Cache :=
  (cache.lookup? token, cache.erase token.number)

variable {cache : Cache} {token other : Token}

theorem number_ne_of_ne (h : other ≠ token) : other.number ≠ token.number :=
  fun hnumber => h (congrArg Token.mk hnumber)

theorem lookup?_add_self (cache : Cache) (entry : Entry) :
    lookup? (cache.add entry) ⟨cache.next⟩ = some entry :=
  cache.get?_add_self entry

theorem lookup?_add_of_ne (entry : Entry) (h : other ≠ ⟨cache.next⟩) :
    lookup? (cache.add entry) other = cache.lookup? other :=
  cache.get?_add_of_ne entry (number_ne_of_ne h)

theorem lookup?_erase_self (cache : Cache) (token : Token) :
    lookup? (cache.erase token.number) token = none :=
  cache.get?_erase_self token.number

theorem lookup?_erase_of_ne (h : other ≠ token) :
    lookup? (cache.erase token.number) other = cache.lookup? other :=
  cache.get?_erase_of_ne (number_ne_of_ne h)

theorem lookup?_modify_self (cache : Cache) (token : Token) (change : Entry → Entry) :
    lookup? (cache.modify token.number change) token = (cache.lookup? token).map change :=
  cache.get?_modify_self token.number change

theorem lookup?_modify_of_ne (change : Entry → Entry) (h : other ≠ token) :
    lookup? (cache.modify token.number change) other = cache.lookup? other :=
  cache.get?_modify_of_ne change (number_ne_of_ne h)

end Cache

end Client

end RemoteMemory
