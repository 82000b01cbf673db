import RemoteMemory.Proofs.ByteMap
import RemoteMemory.Session

/-!
# What clients get, without a server

The machine here sends no messages and keeps no tables: a token stands for a byte string of its own,
and blocks of clients that have left stay behind and count against the server's limits. Blocks are
numbered as they are granted, so that those left behind remain apart.
-/

namespace RemoteMemory.Session

open Client (Call Reply)

/-- The limits of both sides, and how many blocks can be granted in all, if not any number. -/
structure Rules where
  server : Server.Config
  client : Client.Config
  grants : Option Nat

abbrev Holding := (_ : UInt64) × ByteArray

def fresh (size : Nat) : ByteArray :=
  ⟨Array.replicate size 0⟩

/-- The blocks of the client that visits, by token, and those left behind. Whatever is sent is
answered or waited for, so a call that neither counts as served nor waits has sent nothing. -/
structure Ideal where
  own : NumberMap Holding := ∅
  nextToken : UInt64 := 1
  abandoned : Multiset Holding := 0
  nextNumber : UInt64 := 1
  served : Nat := 0

namespace Ideal

/-- The blocks alive, of all clients so far. -/
def live (ideal : Ideal) : Multiset Holding :=
  ideal.own.entries.map Sigma.snd + ideal.abandoned

/-- When neither the number of blocks nor the number of bytes is in the way of another block. -/
def Affords (rules : Rules) (ideal : Ideal) (size : Nat) : Prop :=
  ideal.live.card < rules.server.maxHandles ∧
    (∀ limit ∈ rules.server.memoryLimit,
      (ideal.live.map fun holding => holding.2.size).sum + size ≤ limit) ∧
    ∀ count ∈ rules.grants, ideal.nextNumber.toNat ≤ count

instance (rules : Rules) (ideal : Ideal) (size : Nat) : Decidable (ideal.Affords rules size) :=
  inferInstanceAs (Decidable (_ ∧ _ ∧ _))

def ping (ideal : Ideal) : Option (Except Error Reply) × Ideal :=
  (some (.ok .done), { ideal with served := ideal.served + 1 })

/-- A block is granted before the cache turns out to be full; giving it back takes a second
request. -/
def alloc (rules : Rules) (ideal : Ideal) (size : Nat) : Option (Except Error Reply) × Ideal :=
  if size = 0 then (some (.error (.invalidArgument .emptyAllocation)), ideal)
  else if rules.client.payloadBound.toNat < size then
    (some (.error (.invalidArgument (.allocationAbove size rules.client.payloadBound.toNat))),
      ideal)
  else if rules.server.payloadBound.toNat < size then (none, ideal)
  else if ¬ ideal.Affords rules size then
    (some (.error (.rejected .alloc 0)), { ideal with served := ideal.served + 1 })
  else if rules.client.maxEntries ≤ ideal.own.count then
    (some (.error .tableFull),
      { ideal with nextNumber := ideal.nextNumber + 1, served := ideal.served + 2 })
  else
    (some (.ok (.granted ⟨ideal.nextToken⟩)),
      { ideal with
        own := ideal.own.insert ideal.nextToken ⟨ideal.nextNumber, fresh size⟩
        nextToken := ideal.nextToken + 1
        nextNumber := ideal.nextNumber + 1
        served := ideal.served + 1 })

def free (ideal : Ideal) (token : Token) : Option (Except Error Reply) × Ideal :=
  match ideal.own.lookup token.number with
  | none => (some (.error (.notFound token.number)), ideal)
  | some _ =>
    (some (.ok .done),
      { ideal with own := ideal.own.erase token.number, served := ideal.served + 1 })

def write (ideal : Ideal) (token : Token) (data : ByteArray) :
    Option (Except Error Reply) × Ideal :=
  match ideal.own.lookup token.number with
  | none => (some (.error (.notFound token.number)), ideal)
  | some ⟨number, bytes⟩ =>
    if bytes.size < data.size then (some (.error (.overflow data.size bytes.size)), ideal)
    else
      (some (.ok .done),
        { ideal with
          own := ideal.own.insert token.number
            ⟨number, data ++ bytes.extract data.size bytes.size⟩
          served := ideal.served + 1 })

def read (ideal : Ideal) (token : Token) (count : Nat) : Option (Except Error Reply) × Ideal :=
  match ideal.own.lookup token.number with
  | none => (some (.error (.notFound token.number)), ideal)
  | some ⟨_, bytes⟩ =>
    (some (.ok (.data (bytes.extract 0 (min count bytes.size)))),
      { ideal with served := ideal.served + 1 })

/-- Make a call; without a result it waits for ever. -/
def call (rules : Rules) (ideal : Ideal) : Call → Option (Except Error Reply) × Ideal
  | .ping => ideal.ping
  | .alloc size => ideal.alloc rules size
  | .free token => ideal.free token
  | .write token data => ideal.write token data
  | .read token count => ideal.read token count
  | .size token =>
    (some (.ok (.size ((ideal.own.lookup token.number).map fun holding => holding.2.size))), ideal)
  | .shadow token =>
    (some (.ok (.shadow ((ideal.own.lookup token.number).map Sigma.snd))), ideal)

def callAll (rules : Rules) (ideal : Ideal) : List Call → List Outcome × Ideal
  | [] => ([], ideal)
  | call :: rest =>
    match ideal.call rules call with
    | (none, ideal) => ([.stalled], ideal)
    | (some result, ideal) =>
      let (outcomes, last) := ideal.callAll rules rest
      (.finished result ideal.own.count :: outcomes, last)

/-- The next client comes, and what the one before it holds is left behind. -/
def welcome (ideal : Ideal) : Ideal where
  abandoned := ideal.live
  nextNumber := ideal.nextNumber

def serveAll (config : Server.Config) (grants : Option Nat) (ideal : Ideal) :
    List Visit → List (List Outcome × Nat) × Ideal
  | [] => ([], ideal)
  | visit :: rest =>
    let (outcomes, ideal) := ideal.welcome.callAll ⟨config, visit.config, grants⟩ visit.calls
    let (records, last) := ideal.serveAll config grants rest
    ((outcomes, ideal.served) :: records, last)

/-! ## Changes of what is alive -/

theorem live_of_lookup {ideal : Ideal} {token : UInt64} {holding : Holding}
    (h : ideal.own.lookup token = some holding) :
    ideal.live = holding ::ₘ live { ideal with own := ideal.own.erase token } := by
  rw [live, NumberMap.entries_of_lookup h, Multiset.map_cons, Multiset.cons_add]
  rfl

theorem live_insert (ideal : Ideal) (token : UInt64) (holding : Holding) :
    live { ideal with own := ideal.own.insert token holding } =
      holding ::ₘ live { ideal with own := ideal.own.erase token } := by
  rw [live, NumberMap.entries_insert, Multiset.map_cons, Multiset.cons_add]
  rfl

theorem live_insert_of_notMem {ideal : Ideal} {token : UInt64} (h : token ∉ ideal.own)
    (holding : Holding) :
    live { ideal with own := ideal.own.insert token holding } = holding ::ₘ ideal.live := by
  rw [live, Finmap.entries_insert_of_notMem h, Multiset.map_cons, Multiset.cons_add]
  rfl

@[simp] theorem live_welcome (ideal : Ideal) : ideal.welcome.live = ideal.live :=
  Multiset.zero_add _

end Ideal

end RemoteMemory.Session
