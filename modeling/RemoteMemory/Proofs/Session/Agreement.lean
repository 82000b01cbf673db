import RemoteMemory.Proofs.Session.Exchange
import RemoteMemory.Proofs.Session.Ideal

/-!
# What agrees between calls

Between calls the cache, the pipes, the handles and the arena agree with the ideal machine: the
server shows the blocks alive, the cache follows the client's own, and every own block is small
enough for any request about it to be taken.
-/

namespace RemoteMemory.Session

open Client (Entry)
open Server (FlatMap)

def holding (entry : Entry) : Holding :=
  ⟨entry.handle.number, entry.shadow⟩

/-- The cache of a client follows the client's own blocks. -/
structure Tracks (rules : Rules) (client : Client) (ideal : Ideal) : Prop where
  config_eq : client.config = rules.client
  numbered : client.cache.WellNumbered
  limit_eq : client.cache.limit = rules.client.maxEntries
  next_eq : ideal.nextToken = client.cache.next
  token_le : ideal.nextToken.toNat ≤ ideal.nextNumber.toNat
  follows : ideal.own.Follows client.cache holding
  size_eq : ∀ pair ∈ client.cache.entries, pair.2.shadow.size = pair.2.size
  size_le : ∀ pair ∈ client.cache.entries,
    pair.2.size ≤ rules.client.payloadBound.toNat ∧ pair.2.size ≤ rules.server.payloadBound.toNat

/-- The server shows the blocks alive, and nothing is in flight. -/
structure Backs (config : Server.Config) (session : Session) (ideal : Ideal) (flat : FlatMap) :
    Prop where
  serves : Serves config session flat ideal.served
  number_eq : flat.next = ideal.nextNumber
  live_eq : flat.blocks.entries = ideal.live

/-- The numbers of blocks are limited as those of handles are, or so many calls cannot use them
up. -/
def Suffices (grants : Option Nat) (next : UInt64) (calls : Nat) : Prop :=
  grants = some (2 ^ 64 - 2) ∨ grants = none ∧ next.toNat + calls ≤ 2 ^ 64 - 1

variable {rules : Rules} {client : Client} {session : Session} {ideal : Ideal} {flat : FlatMap}

theorem Suffices.lt_iff {grants : Option Nat} {next : UInt64} {calls : Nat}
    (h : Suffices grants next (calls + 1)) :
    next.toNat < 2 ^ 64 - 1 ↔ ∀ count ∈ grants, next.toNat ≤ count := by
  rcases h with rfl | ⟨rfl, hcalls⟩
  · simp only [Option.mem_some_iff, forall_eq']
    omega
  · simp only [Option.not_mem_none, false_implies, implies_true, iff_true]
    omega

theorem Suffices.step {grants : Option Nat} {next next' : UInt64} {calls : Nat}
    (h : Suffices grants next (calls + 1)) (hnext : next'.toNat ≤ next.toNat + 1) :
    Suffices grants next' calls := by
  rcases h with hgrants | ⟨hgrants, hcalls⟩
  · exact .inl hgrants
  · exact .inr ⟨hgrants, by omega⟩

theorem Suffices.mono {grants : Option Nat} {next : UInt64} {calls fewer : Nat}
    (h : Suffices grants next calls) (hle : fewer ≤ calls) : Suffices grants next fewer := by
  rcases h with hgrants | ⟨hgrants, hcalls⟩
  · exact .inl hgrants
  · exact .inr ⟨hgrants, by omega⟩

theorem Tracks.lookup_eq (h : Tracks rules client ideal) (token : Token) :
    ideal.own.lookup token.number = (client.cache.lookup? token).map holding :=
  h.follows.lookup_eq h.numbered token.number

theorem Tracks.size_of_lookup (h : Tracks rules client ideal) {token : Token} {entry : Entry}
    (hlookup : client.cache.lookup? token = some entry) :
    entry.shadow.size = entry.size ∧ entry.size ≤ rules.client.payloadBound.toNat ∧
      entry.size ≤ rules.server.payloadBound.toNat :=
  ⟨h.size_eq _ (Registry.mem_of_get? hlookup), h.size_le _ (Registry.mem_of_get? hlookup)⟩

theorem Tracks.size_lookup (h : Tracks rules client ideal) (token : Token) :
    (client.cache.lookup? token).map Entry.size =
      (ideal.own.lookup token.number).map fun holding => holding.2.size := by
  rw [h.lookup_eq token]
  cases hlookup : client.cache.lookup? token with
  | none => rfl
  | some entry => exact congrArg some (h.size_of_lookup hlookup).1.symm

theorem Tracks.shadow_lookup (h : Tracks rules client ideal) (token : Token) :
    (client.cache.lookup? token).map Entry.shadow =
      (ideal.own.lookup token.number).map Sigma.snd := by
  rw [h.lookup_eq token, Option.map_map]
  rfl

/-- The cache refuses an entry exactly when it holds as many as it may: its numbers do not run out
before those of the server. -/
theorem Tracks.isFull_iff (h : Tracks rules client ideal)
    (hnumber : ideal.nextNumber.toNat < 2 ^ 64 - 1) :
    client.cache.isFull = true ↔ rules.client.maxEntries ≤ ideal.own.count := by
  have hlast : client.cache.next ≠ Registry.lastNumber := by
    rw [Registry.ne_lastNumber_iff, ← h.next_eq]
    exact Nat.lt_of_le_of_lt h.token_le hnumber
  rw [Registry.isFull_iff, h.follows.count_eq, h.limit_eq]
  exact or_iff_left hlast

/-- Answered requests and granted numbers may be counted without the cache. -/
theorem Tracks.count (h : Tracks rules client ideal) {number : UInt64}
    (hnumber : ideal.nextToken.toNat ≤ number.toNat) (served : Nat) :
    Tracks rules client { ideal with nextNumber := number, served := served } where
  config_eq := h.config_eq
  numbered := h.numbered
  limit_eq := h.limit_eq
  next_eq := h.next_eq
  token_le := hnumber
  follows := h.follows
  size_eq := h.size_eq
  size_le := h.size_le

theorem Backs.grants_iff (h : Backs rules.server session ideal flat) {calls size : Nat}
    (hgrants : Suffices rules.grants ideal.nextNumber (calls + 1)) (hsize : 1 ≤ size) :
    flat.Grants rules.server size ↔ ideal.Affords rules size := by
  have hcount : flat.blocks.count = ideal.live.card := congrArg Multiset.card h.live_eq
  have htotal : flat.blocks.total = (ideal.live.map fun holding => holding.2.size).sum := by
    rw [ByteMap.total, h.live_eq]
  rw [FlatMap.Grants, Ideal.Affords, hcount, htotal, h.number_eq, hgrants.lt_iff]
  exact and_iff_right hsize

theorem Backs.notMem_next (h : Backs rules.server session ideal flat) :
    flat.next ∉ flat.blocks := by
  have hshows := h.serves.shows_flat
  rw [hshows.next_eq]
  exact hshows.follows.notMem_next hshows.coupled.handles

/-- The server has the bytes of a block of one's own. -/
theorem Backs.lookup_eq (h : Backs rules.server session ideal flat) {token number : UInt64}
    {bytes : ByteArray} (hown : ideal.own.lookup token = some ⟨number, bytes⟩) :
    flat.blocks.lookup number = some bytes := by
  rw [Finmap.lookup_eq_some_iff, h.live_eq, Ideal.live_of_lookup hown]
  exact Multiset.mem_cons_self _ _

theorem Backs.erase_eq (h : Backs rules.server session ideal flat) {token number : UInt64}
    {bytes : ByteArray} (hown : ideal.own.lookup token = some ⟨number, bytes⟩) :
    (flat.blocks.erase number).entries =
      Ideal.live { ideal with own := ideal.own.erase token } := by
  have hentries := NumberMap.entries_of_lookup (h.lookup_eq hown)
  rw [h.live_eq, Ideal.live_of_lookup hown] at hentries
  exact ((Multiset.cons_inj_right _).mp hentries).symm

theorem Backs.insert_eq (h : Backs rules.server session ideal flat) {token number : UInt64}
    {bytes : ByteArray} (hown : ideal.own.lookup token = some ⟨number, bytes⟩)
    (changed : ByteArray) :
    (flat.blocks.insert number changed).entries =
      Ideal.live { ideal with own := ideal.own.insert token ⟨number, changed⟩ } := by
  rw [NumberMap.entries_insert, h.erase_eq hown, Ideal.live_insert]

end RemoteMemory.Session
