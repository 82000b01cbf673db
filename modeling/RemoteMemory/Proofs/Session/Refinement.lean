import RemoteMemory.Proofs.Client.Turns
import RemoteMemory.Proofs.Session.Agreement

/-!
# Every call comes to what the ideal machine says

A call is at most one exchange, and a second one to give back a block. Each exchange is an answer of
the flat map that the server shows, so a call comes to the same result on both sides and leaves them
in agreement, or waits on both.
-/

namespace RemoteMemory.Session

open Client (Reply Entry)
open Server (FlatMap)

/-- A call has come to the same on both sides. -/
inductive Matches (rules : Rules) : Option (Except Error Reply × Client) × Session →
    Option (Except Error Reply) × Ideal → Prop where
  | finished {client : Client} {session : Session} {ideal : Ideal} {flat : FlatMap}
      {result : Except Error Reply} (tracks : Tracks rules client ideal)
      (backs : Backs rules.server session ideal flat) :
      Matches rules (some (result, client), session) (some result, ideal)
  | stalled {session : Session} {ideal : Ideal} {flat : FlatMap}
      (backs : Backs rules.server session ideal flat) : Matches rules (none, session) (none, ideal)

variable {rules : Rules} {client : Client} {session : Session} {ideal : Ideal} {flat : FlatMap}

theorem run?_ask {request response : Message} {bound : UInt32} {next : Session}
    {resume : Message → Client.Progress}
    (h : exchange bound request session = (some (.ok response), next)) :
    (client.ask request resume).run? (exchange bound) session =
      (resume response).run? (exchange bound) next := by
  rw [Client.ask, Dialogue.run?, h]

theorem run?_ask_of_none {request : Message} {bound : UInt32} {next : Session}
    {resume : Message → Client.Progress} (h : exchange bound request session = (none, next)) :
    (client.ask request resume).run? (exchange bound) session = (none, next) := by
  rw [Client.ask, Dialogue.run?, h]

/-- A request without payload and size is taken within any bound. -/
theorem Backs.exchange_plain (h : Backs rules.server session ideal flat)
    (hmax : rules.server.maxHandles < 2 ^ 32) (bound : UInt32) (command : Command)
    (number : UInt64) :
    ∃ next, exchange bound (.request command number 0) session =
        (some (.ok (flat.respond rules.server (.request command number 0)).1), next) ∧
      Serves rules.server next (flat.respond rules.server (.request command number 0)).2
        (ideal.served + 1) :=
  h.serves.exchange_of_readable hmax (Message.readable_plain _ _ _) (Message.readable_plain _ _ _)

theorem matches_ping (tracks : Tracks rules client ideal)
    (backs : Backs rules.server session ideal flat) (hmax : rules.server.maxHandles < 2 ^ 32) :
    Matches rules (client.ping.run? (exchange rules.client.payloadBound) session) ideal.ping := by
  obtain ⟨next, hexchange, hserves⟩ :=
    backs.exchange_plain hmax rules.client.payloadBound .ping 0
  rw [Client.ping, run?_ask hexchange]
  exact .finished (tracks.count tracks.token_le _) ⟨hserves, backs.number_eq, backs.live_eq⟩

theorem matches_free (tracks : Tracks rules client ideal)
    (backs : Backs rules.server session ideal flat) (hmax : rules.server.maxHandles < 2 ^ 32)
    (token : Token) :
    Matches rules ((client.free token).run? (exchange rules.client.payloadBound) session)
      (ideal.free token) := by
  have hown := tracks.lookup_eq token
  cases hlookup : client.cache.lookup? token with
  | none =>
      rw [hlookup, Option.map_none] at hown
      rw [Client.free, Client.Cache.remove, hlookup, Ideal.free, hown]
      exact .finished tracks backs
  | some entry =>
      rw [hlookup, Option.map_some] at hown
      obtain ⟨next, hexchange, hserves⟩ :=
        backs.exchange_plain hmax rules.client.payloadBound .free entry.handle.number
      have hfree : flat.respond rules.server (.request .free entry.handle.number 0) =
          (.ok entry.handle.number,
            { flat with blocks := flat.blocks.erase entry.handle.number }) := by
        change flat.free entry.handle.number = _
        rw [FlatMap.free, backs.lookup_eq hown]
      rw [hfree] at hexchange hserves
      rw [Client.free, Client.Cache.remove, hlookup, Ideal.free, hown]
      dsimp only
      rw [run?_ask hexchange]
      refine .finished ?_ ⟨hserves, backs.number_eq, backs.erase_eq hown⟩
      have hkept : ∀ pair ∈ (client.cache.erase token.number).entries,
          pair ∈ client.cache.entries :=
        fun pair hpair => List.mem_of_mem_filter hpair
      exact {
        config_eq := tracks.config_eq
        numbered := tracks.numbered.erase _
        limit_eq := tracks.limit_eq
        next_eq := tracks.next_eq
        token_le := tracks.token_le
        follows := tracks.follows.erase tracks.numbered hlookup
        size_eq := fun pair hpair => tracks.size_eq pair (hkept pair hpair)
        size_le := fun pair hpair => tracks.size_le pair (hkept pair hpair) }

def overwritten (data : ByteArray) (entry : Entry) : Entry :=
  { entry with shadow := Bytes.overwrite entry.shadow data }

theorem cache_updateShadow {cache : Client.Cache} {token : Token} {entry : Entry} {data : ByteArray}
    (hlookup : cache.lookup? token = some entry) (hfits : data.size ≤ entry.size) :
    (cache.updateShadow token data).2 = cache.modify token.number (overwritten data) :=
  Client.Cache.updateShadow_of_le hlookup hfits

/-- A shadow that is overwritten keeps its size, so the cache goes on following. -/
theorem Tracks.updateShadow (h : Tracks rules client ideal) {token : Token} {entry : Entry}
    {data : ByteArray} (hlookup : client.cache.lookup? token = some entry)
    (hfits : data.size ≤ entry.size) (served : Nat) :
    Tracks rules { client with cache := (client.cache.updateShadow token data).2 }
      { ideal with
        own := ideal.own.insert token.number
          ⟨entry.handle.number, data ++ entry.shadow.extract data.size entry.shadow.size⟩
        served := served } := by
  obtain ⟨hshadow, hbounds⟩ := h.size_of_lookup hlookup
  have hoverwrite : (Bytes.overwrite entry.shadow data).size = entry.size := by
    rw [Bytes.size_overwrite (hshadow.symm ▸ hfits), hshadow]
  rw [cache_updateShadow hlookup hfits]
  -- An entry of the new cache is the changed one, or one of the others.
  have hperm := h.numbered.perm_cons_modify (overwritten data) hlookup
  exact {
    config_eq := h.config_eq
    numbered := h.numbered.modify token.number (overwritten data)
    limit_eq := h.limit_eq
    next_eq := h.next_eq
    token_le := h.token_le
    follows := h.follows.modify h.numbered hlookup (overwritten data)
    size_eq := by
      intro pair hpair
      rcases List.mem_cons.mp (hperm.mem_iff.mp hpair) with rfl | hother
      · exact hoverwrite
      · exact h.size_eq pair (List.mem_of_mem_filter hother)
    size_le := by
      intro pair hpair
      rcases List.mem_cons.mp (hperm.mem_iff.mp hpair) with rfl | hother
      · exact hbounds
      · exact h.size_le pair (List.mem_of_mem_filter hother) }

theorem matches_write (tracks : Tracks rules client ideal)
    (backs : Backs rules.server session ideal flat) (hmax : rules.server.maxHandles < 2 ^ 32)
    (token : Token) (data : ByteArray) :
    Matches rules ((client.write token data).run? (exchange rules.client.payloadBound) session)
      (ideal.write token data) := by
  have hown := tracks.lookup_eq token
  cases hlookup : client.cache.lookup? token with
  | none =>
      rw [hlookup, Option.map_none] at hown
      rw [Client.write, hlookup, Ideal.write, hown]
      exact .finished tracks backs
  | some entry =>
      rw [hlookup, Option.map_some] at hown
      obtain ⟨hshadow, hclient, hserver⟩ := tracks.size_of_lookup hlookup
      rw [Client.write, hlookup, Ideal.write, hown]
      dsimp only [holding]
      rw [hshadow]
      by_cases hlong : entry.size < data.size
      · rw [if_pos hlong, if_pos hlong]
        exact .finished tracks backs
      · have hfits : data.size ≤ entry.size := Nat.not_lt.mp hlong
        have hlt : data.size < UInt32.size :=
          Nat.lt_of_le_of_lt (Nat.le_trans hfits hclient) rules.client.payloadBound.toNat_lt
        have hpayload : Message.withPayload .write entry.handle.number data =
            .ok ⟨.ofCommand .write entry.handle.number (UInt32.ofNat data.size), data⟩ :=
          if_pos hlt
        have hrequest : ∀ bound : UInt32, entry.size ≤ bound.toNat → Message.Readable
            ⟨.ofCommand .write entry.handle.number (UInt32.ofNat data.size), data⟩ bound := by
          intro bound hbound
          exact Message.readable_of_size rfl rfl (Nat.le_trans hfits hbound)
        obtain ⟨next, hexchange, hserves⟩ := backs.serves.exchange_of_readable hmax
          (hrequest _ hserver) (hrequest _ hclient)
        have hwrite : flat.respond rules.server
            ⟨.ofCommand .write entry.handle.number (UInt32.ofNat data.size), data⟩ =
            (.ok entry.handle.number,
              { flat with
                blocks := flat.blocks.insert entry.handle.number
                  (data ++ entry.shadow.extract data.size entry.shadow.size) }) := by
          change flat.write entry.handle.number data = _
          rw [FlatMap.write, backs.lookup_eq hown]
          exact if_pos (hshadow.symm ▸ hfits)
        rw [hwrite] at hexchange hserves
        rw [if_neg hlong, if_neg hlong, hpayload]
        dsimp only
        rw [run?_ask hexchange, ← hshadow]
        exact .finished (tracks.updateShadow hlookup hfits _)
          ⟨hserves, backs.number_eq, backs.insert_eq hown _⟩

theorem matches_read (tracks : Tracks rules client ideal)
    (backs : Backs rules.server session ideal flat) (hmax : rules.server.maxHandles < 2 ^ 32)
    (token : Token) (count : Nat) :
    Matches rules ((client.read token count).run? (exchange rules.client.payloadBound) session)
      (ideal.read token count) := by
  have hown := tracks.lookup_eq token
  cases hlookup : client.cache.lookup? token with
  | none =>
      rw [hlookup, Option.map_none] at hown
      rw [Client.read, hlookup, Ideal.read, hown]
      exact .finished tracks backs
  | some entry =>
      rw [hlookup, Option.map_some] at hown
      obtain ⟨hshadow, hclient, hserver⟩ := tracks.size_of_lookup hlookup
      have hle : min count entry.size ≤ entry.size := Nat.min_le_right _ _
      have hlt : min count entry.size < UInt32.size :=
        Nat.lt_of_le_of_lt (Nat.le_trans hle hclient) rules.client.payloadBound.toNat_lt
      have hrequest : ∀ bound : UInt32, entry.size ≤ bound.toNat →
          (Message.request .read entry.handle.number (UInt32.ofNat (min count entry.size))).Readable
            bound := by
        intro bound hbound
        exact Message.readable_of_count rfl (Nat.le_trans hle hbound)
      obtain ⟨next, hexchange, hserves⟩ := backs.serves.exchange_of_readable hmax
        (hrequest _ hserver) (hrequest _ hclient)
      have hread : flat.respond rules.server
          (.request .read entry.handle.number (UInt32.ofNat (min count entry.size))) =
          (⟨.ofCommand .ok entry.handle.number (UInt32.ofNat (min count entry.size)),
            entry.shadow.extract 0 (min count entry.size)⟩, flat) := by
        change (flat.read entry.handle.number
          (UInt32.ofNat (min count entry.size)).toNat, flat) = _
        rw [FlatMap.read, backs.lookup_eq hown, UInt32.toNat_ofNat_of_lt' hlt]
        dsimp only
        rw [hshadow, Nat.min_eq_left hle]
      rw [hread] at hexchange hserves
      rw [Client.read, hlookup, Ideal.read, hown]
      dsimp only [holding]
      rw [if_pos hlt, run?_ask hexchange, hshadow]
      exact .finished (tracks.count tracks.token_le _) ⟨hserves, backs.number_eq, backs.live_eq⟩

/-! ## Allocation -/

theorem toNat_add_one {number : UInt64} (h : number.toNat < 2 ^ 64 - 1) :
    (number + 1).toNat = number.toNat + 1 := by
  rw [UInt64.toNat_add, UInt64.toNat_one]
  omega

section Keep

variable {handle : Handle} {size : Nat} {next : Session}

/-- A full cache gives the block back, and the server has what it had before. -/
theorem matches_keep_of_full (tracks : Tracks rules client ideal)
    (backs : Backs rules.server session ideal flat) (hmax : rules.server.maxHandles < 2 ^ 32)
    (hnumber : ideal.nextNumber.toNat < 2 ^ 64 - 1) (hhandle : handle.number = flat.next)
    (hnext : Serves rules.server next ⟨flat.next + 1, flat.blocks.insert flat.next (fresh size)⟩
      (ideal.served + 1))
    (hfull : client.cache.isFull = true) :
    Matches rules ((client.keep handle size).run? (exchange rules.client.payloadBound) next)
      (some (.error .tableFull),
        { ideal with nextNumber := ideal.nextNumber + 1, served := ideal.served + 2 }) := by
  obtain ⟨last, hexchange, hserves⟩ := hnext.exchange_of_readable hmax
    (Message.readable_plain .free handle.number _)
    (Message.readable_plain .free handle.number rules.client.payloadBound)
  have hfree : (FlatMap.mk (flat.next + 1) (flat.blocks.insert flat.next (fresh size))).respond
      rules.server (.request .free handle.number 0) = (.ok flat.next,
        ⟨flat.next + 1, (flat.blocks.insert flat.next (fresh size)).erase flat.next⟩) := by
    rw [hhandle]
    change FlatMap.free _ flat.next = _
    rw [FlatMap.free, Finmap.lookup_insert]
  rw [hfree] at hserves
  rw [Client.keep, Client.Cache.record, hfull, if_pos rfl]
  dsimp only
  rw [run?_ask hexchange]
  have hle : ideal.nextToken.toNat ≤ (ideal.nextNumber + 1).toNat := by
    rw [toNat_add_one hnumber]
    exact Nat.le_succ_of_le tracks.token_le
  refine .finished (tracks.count hle _) ⟨hserves, congrArg (· + 1) backs.number_eq, ?_⟩
  exact (NumberMap.entries_erase_of_notMem backs.notMem_next _).trans backs.live_eq

/-- A cache with room gives out the next token. -/
theorem matches_keep_of_not_full (tracks : Tracks rules client ideal)
    (backs : Backs rules.server session ideal flat)
    (hnumber : ideal.nextNumber.toNat < 2 ^ 64 - 1) (hhandle : handle.number = flat.next)
    (hnext : Serves rules.server next ⟨flat.next + 1, flat.blocks.insert flat.next (fresh size)⟩
      (ideal.served + 1))
    (hfull : client.cache.isFull = false)
    (hbounds : size ≤ rules.client.payloadBound.toNat ∧ size ≤ rules.server.payloadBound.toNat) :
    Matches rules ((client.keep handle size).run? (exchange rules.client.payloadBound) next)
      (some (.ok (.granted ⟨ideal.nextToken⟩)),
        { ideal with
          own := ideal.own.insert ideal.nextToken ⟨ideal.nextNumber, fresh size⟩
          nextToken := ideal.nextToken + 1
          nextNumber := ideal.nextNumber + 1
          served := ideal.served + 1 }) := by
  have htoken : ideal.nextToken ∉ ideal.own := by
    rw [tracks.next_eq]
    exact tracks.follows.notMem_next tracks.numbered
  have hview : holding ⟨handle, size, Bytes.zeros size⟩ = ⟨ideal.nextNumber, fresh size⟩ := by
    rw [holding, hhandle, backs.number_eq, Bytes.zeros_eq_replicate]
    rfl
  rw [Client.keep, Client.Cache.record, hfull, if_neg (by decide), ← tracks.next_eq]
  refine .finished ?_ ⟨hnext, congrArg (· + 1) backs.number_eq, ?_⟩
  · exact {
      config_eq := tracks.config_eq
      numbered := tracks.numbered.add hfull _
      limit_eq := tracks.limit_eq
      next_eq := congrArg (· + 1) tracks.next_eq
      token_le := by
        have hle := tracks.token_le
        change (ideal.nextToken + 1).toNat ≤ (ideal.nextNumber + 1).toNat
        rw [toNat_add_one hnumber, toNat_add_one (by omega)]
        exact Nat.succ_le_succ hle
      follows := by
        have hfollows := tracks.follows.add tracks.numbered ⟨handle, size, Bytes.zeros size⟩
        rw [hview, ← tracks.next_eq] at hfollows
        exact hfollows
      size_eq := by
        intro pair hpair
        rcases List.mem_cons.mp hpair with rfl | hold
        · exact Bytes.size_zeros size
        · exact tracks.size_eq pair hold
      size_le := by
        intro pair hpair
        rcases List.mem_cons.mp hpair with rfl | hold
        · exact hbounds
        · exact tracks.size_le pair hold }
  · change (flat.blocks.insert flat.next (fresh size)).entries =
      Ideal.live { ideal with
        own := ideal.own.insert ideal.nextToken ⟨ideal.nextNumber, fresh size⟩ }
    rw [Finmap.entries_insert_of_notMem backs.notMem_next, Ideal.live_insert_of_notMem htoken,
      backs.live_eq, backs.number_eq]

/-- A granted block is kept or given back, as the cache has room or not. -/
theorem matches_keep (tracks : Tracks rules client ideal)
    (backs : Backs rules.server session ideal flat) (hmax : rules.server.maxHandles < 2 ^ 32)
    (hnumber : ideal.nextNumber.toNat < 2 ^ 64 - 1) (hhandle : handle.number = flat.next)
    (hnext : Serves rules.server next ⟨flat.next + 1, flat.blocks.insert flat.next (fresh size)⟩
      (ideal.served + 1))
    (hbounds : size ≤ rules.client.payloadBound.toNat ∧ size ≤ rules.server.payloadBound.toNat) :
    Matches rules ((client.keep handle size).run? (exchange rules.client.payloadBound) next)
      (if rules.client.maxEntries ≤ ideal.own.count then
        (some (.error .tableFull),
          { ideal with nextNumber := ideal.nextNumber + 1, served := ideal.served + 2 })
      else
        (some (.ok (.granted ⟨ideal.nextToken⟩)),
          { ideal with
            own := ideal.own.insert ideal.nextToken ⟨ideal.nextNumber, fresh size⟩
            nextToken := ideal.nextToken + 1
            nextNumber := ideal.nextNumber + 1
            served := ideal.served + 1 })) := by
  have hroom := tracks.isFull_iff hnumber
  cases hfull : client.cache.isFull with
  | true =>
      rw [if_pos (hroom.mp hfull)]
      exact matches_keep_of_full tracks backs hmax hnumber hhandle hnext hfull
  | false =>
      rw [hfull, Bool.false_eq_true, false_iff] at hroom
      rw [if_neg hroom]
      exact matches_keep_of_not_full tracks backs hnumber hhandle hnext hfull hbounds

end Keep

/-- A request within both bounds is granted or refused as the ideal machine says. -/
theorem matches_alloc_of_le (tracks : Tracks rules client ideal)
    (backs : Backs rules.server session ideal flat) (hmax : rules.server.maxHandles < 2 ^ 32)
    {calls size : Nat} (hgrants : Suffices rules.grants ideal.nextNumber (calls + 1))
    (hpos : 1 ≤ size) (hclient : size ≤ rules.client.payloadBound.toNat)
    (hserver : size ≤ rules.server.payloadBound.toNat) :
    Matches rules ((client.alloc size).run? (exchange rules.client.payloadBound) session)
      (ideal.alloc rules size) := by
  have hzero : size ≠ 0 := Nat.one_le_iff_ne_zero.mp hpos
  have hrequest : ∀ bound : UInt32, size ≤ bound.toNat →
      (Message.request .alloc 0 (UInt32.ofNat size)).Readable bound := by
    intro bound hbound
    exact Message.readable_of_count rfl hbound
  obtain ⟨next, hexchange, hserves⟩ := backs.serves.exchange_of_readable hmax
    (hrequest _ hserver) (hrequest _ hclient)
  have hrespond : flat.respond rules.server (.request .alloc 0 (UInt32.ofNat size)) =
      flat.alloc rules.server size := by
    change flat.alloc rules.server (UInt32.ofNat size).toNat = _
    rw [Message.toNat_ofNat_of_le hclient]
  have hgranted := backs.grants_iff hgrants hpos
  rw [hrespond, FlatMap.alloc] at hexchange hserves
  rw [Client.alloc, tracks.config_eq, Ideal.alloc, if_neg hzero, if_neg hzero,
    if_neg (Nat.not_lt.mpr hclient), if_neg (Nat.not_lt.mpr hclient),
    if_neg (Nat.not_lt.mpr hserver), run?_ask hexchange]
  by_cases haffords : ideal.Affords rules size
  · rw [if_pos (hgranted.mpr haffords)] at hserves ⊢
    rw [if_neg (not_not_intro haffords)]
    have hnumber := hgrants.lt_iff.mpr haffords.2.2
    have hnonzero : flat.next ≠ 0 := by
      have hshows := backs.serves.shows_flat
      rw [hshows.next_eq]
      exact (UInt64.ne_of_lt hshows.coupled.handles.next_pos).symm
    have hok : (Message.ok flat.next).header.isOk = true := rfl
    have hhandle : Handle.ofNumber? (Message.ok flat.next).header.handle =
        some ⟨flat.next, hnonzero⟩ := dif_neg hnonzero
    rw [if_pos hok, hhandle]
    exact matches_keep tracks backs hmax hnumber rfl hserves ⟨hclient, hserver⟩
  · rw [if_neg (mt hgranted.mp haffords)] at hserves ⊢
    rw [if_pos haffords]
    exact .finished (tracks.count tracks.token_le _) ⟨hserves, backs.number_eq, backs.live_eq⟩

theorem matches_alloc (tracks : Tracks rules client ideal)
    (backs : Backs rules.server session ideal flat) (hmax : rules.server.maxHandles < 2 ^ 32)
    {calls : Nat} (hgrants : Suffices rules.grants ideal.nextNumber (calls + 1)) (size : Nat) :
    Matches rules ((client.alloc size).run? (exchange rules.client.payloadBound) session)
      (ideal.alloc rules size) := by
  by_cases hzero : size = 0
  · rw [Client.alloc, Ideal.alloc, if_pos hzero, if_pos hzero]
    exact .finished tracks backs
  by_cases hclient : size ≤ rules.client.payloadBound.toNat
  · by_cases hserver : size ≤ rules.server.payloadBound.toNat
    · exact matches_alloc_of_le tracks backs hmax hgrants (Nat.one_le_iff_ne_zero.mpr hzero)
        hclient hserver
    · -- The server drops the header, and there is nothing more to come.
      have hrefused : (Message.request .alloc 0 (UInt32.ofNat size)).header.check
          rules.server.payloadBound ≠ .ok () := by
        intro hcheck
        have hbound := UInt32.le_iff_toNat_le.mp (Header.check_eq_ok_iff.mp hcheck).2.2
        exact hserver (Message.toNat_ofNat_of_le hclient ▸ hbound)
      obtain ⟨next, hexchange, hserves⟩ := backs.serves.exchange_of_refused hrefused rfl
      rw [Client.alloc, tracks.config_eq, Ideal.alloc, if_neg hzero, if_neg hzero,
        if_neg (Nat.not_lt.mpr hclient), if_neg (Nat.not_lt.mpr hclient),
        if_pos (Nat.not_le.mp hserver), run?_ask_of_none hexchange]
      exact .stalled ⟨hserves, backs.number_eq, backs.live_eq⟩
  · have hlong : rules.client.payloadBound.toNat < size := Nat.not_le.mp hclient
    rw [Client.alloc, tracks.config_eq, Ideal.alloc, if_neg hzero, if_neg hzero, if_pos hlong,
      if_pos hlong]
    exact .finished tracks backs

end RemoteMemory.Session
