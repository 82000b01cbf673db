import RemoteMemory.Client.Basic
import RemoteMemory.Proofs.Registry

/-!
# What a call can come to

The peer of a client may answer anything. A play of a dialogue is one way that it can go: what was
asked, what came back each time, and the result. Every play of a call is one of a few turns, and a
turn says all there is to know about the requests, the result and the cache.
-/

namespace RemoteMemory

abbrev Exchange :=
  Message × Except Error Message

namespace Dialogue

variable {α σ : Type}

inductive Plays : Dialogue α → List Exchange → α → Prop where
  | done (result : α) : Plays (.done result) [] result
  | ask {request : Message} {resume : Except Error Message → Dialogue α}
      {reply : Except Error Message} {exchanges : List Exchange} {result : α}
      (rest : Plays (resume reply) exchanges result) :
      Plays (.ask request resume) ((request, reply) :: exchanges) result

theorem plays_done_iff {outcome result : α} {exchanges : List Exchange} :
    (done outcome).Plays exchanges result ↔ exchanges = [] ∧ result = outcome := by
  constructor
  · intro h
    cases h
    exact ⟨rfl, rfl⟩
  · rintro ⟨rfl, rfl⟩
    exact .done _

theorem exists_plays (exchange : Message → σ → Except Error Message × σ) (dialogue : Dialogue α)
    (state : σ) : ∃ exchanges, dialogue.Plays exchanges (dialogue.run exchange state).1 := by
  induction dialogue generalizing state with
  | done result => exact ⟨[], .done result⟩
  | ask request resume ih =>
      obtain ⟨exchanges, rest⟩ := ih (exchange request state).1 (exchange request state).2
      exact ⟨_, .ask rest⟩

end Dialogue

namespace Client

/-- What an entry was granted for, its shadow left out. -/
def Entry.grant (entry : Entry) : Handle × Nat :=
  (entry.handle, entry.size)

def Entry.overwrite (data : ByteArray) (entry : Entry) : Entry :=
  { entry with shadow := Bytes.overwrite entry.shadow data }

theorem Cache.updateShadow_of_le {cache : Cache} {token : Token} {entry : Entry} {data : ByteArray}
    (hlookup : cache.lookup? token = some entry) (hfits : data.size ≤ entry.size) :
    (cache.updateShadow token data).2 = cache.modify token.number (Entry.overwrite data) := by
  rw [updateShadow, hlookup]
  dsimp only
  rw [if_pos hfits]
  rfl

/-- What holds of a client between its calls, whatever it was told. -/
structure Sound (config : Config) (client : Client) : Prop where
  config_eq : client.config = config
  numbered : client.cache.WellNumbered
  limit_eq : client.cache.limit = config.maxEntries
  whole : ∀ pair ∈ client.cache.entries,
    1 ≤ pair.2.size ∧ pair.2.size ≤ config.payloadBound.toNat ∧ pair.2.shadow.size = pair.2.size

/-! ## Replies -/

def expectPong : Except Error Message → Except Error Unit
  | .ok response =>
    if response.header.command? = some .pong then .ok ()
    else .error (.protocol (.notPong response.header.text))
  | .error error => .error error

def expectHandle : Except Error Message → Except Error Handle
  | .ok response =>
    if response.header.isOk then
      match Handle.ofNumber? response.header.handle with
      | some handle => .ok handle
      | none => .error (.protocol .missingHandle)
    else .error (.rejected .alloc response.header.handle)
  | .error error => .error error

def expectOk (command : Command) (number : UInt64) : Except Error Message → Except Error Message
  | .ok response => if response.header.isOk then .ok response else .error (.rejected command number)
  | .error error => .error error

/-- What giving back a block is reported as; whether the server took it does not matter. -/
def givenBack : Except Error Message → Error
  | .ok _ => .tableFull
  | .error error => error

/-! ## Turns -/

def Config.Sendable (config : Config) (size : Nat) : Prop :=
  1 ≤ size ∧ size ≤ config.payloadBound.toNat

def Call.needs? : Call → Option Token
  | .free token | .write token _ | .read token _ => some token
  | _ => none

def Config.sizeError (config : Config) (size : Nat) : Error :=
  .invalidArgument <|
    if size = 0 then .emptyAllocation else .allocationAbove size config.payloadBound.toNat

def allocRequest (size : Nat) : Message :=
  .request .alloc 0 (UInt32.ofNat size)

def writeRequest (number : UInt64) (data : ByteArray) : Message :=
  ⟨.ofCommand .write number (UInt32.ofNat data.size), data⟩

/-- What a call of a client comes to: the exchanges it makes, its result, and the client after
it. -/
inductive Turn (client : Client) : Call → List Exchange → Except Error Reply → Client → Prop where
  | ping (reply : Except Error Message) :
      Turn client .ping [(.request .ping 0 0, reply)] ((expectPong reply).map fun _ => .done) client
  | refused {size : Nat} (hsize : ¬ client.config.Sendable size) :
      Turn client (.alloc size) [] (.error (client.config.sizeError size)) client
  | ungranted {size : Nat} (hsize : client.config.Sendable size) {reply : Except Error Message}
      {error : Error} (hreply : expectHandle reply = .error error) :
      Turn client (.alloc size) [(allocRequest size, reply)] (.error error) client
  | returned {size : Nat} (hsize : client.config.Sendable size) {reply : Except Error Message}
      {handle : Handle} (hreply : expectHandle reply = .ok handle)
      (hfull : client.cache.isFull = true) (release : Except Error Message) :
      Turn client (.alloc size)
        [(allocRequest size, reply), (.request .free handle.number 0, release)]
        (.error (givenBack release)) client
  | granted {size : Nat} (hsize : client.config.Sendable size) {reply : Except Error Message}
      {handle : Handle} (hreply : expectHandle reply = .ok handle)
      (hfull : client.cache.isFull = false) :
      Turn client (.alloc size) [(allocRequest size, reply)]
        (.ok (.granted ⟨client.cache.next⟩))
        { client with cache := client.cache.add ⟨handle, size, Bytes.zeros size⟩ }
  | unknown {call : Call} {token : Token} (hneeds : call.needs? = some token)
      (hlookup : client.cache.lookup? token = none) :
      Turn client call [] (.error (.notFound token.number)) client
  | freed {token : Token} {entry : Entry} (hlookup : client.cache.lookup? token = some entry)
      (reply : Except Error Message) :
      Turn client (.free token) [(.request .free entry.handle.number 0, reply)]
        ((expectOk .free entry.handle.number reply).map fun _ => .done)
        { client with cache := client.cache.erase token.number }
  | overlong {token : Token} {entry : Entry} {data : ByteArray}
      (hlookup : client.cache.lookup? token = some entry) (hlong : entry.size < data.size) :
      Turn client (.write token data) [] (.error (.overflow data.size entry.size)) client
  | unwritten {token : Token} {entry : Entry} {data : ByteArray}
      (hlookup : client.cache.lookup? token = some entry) (hfits : data.size ≤ entry.size)
      {reply : Except Error Message} {error : Error}
      (hreply : expectOk .write entry.handle.number reply = .error error) :
      Turn client (.write token data) [(writeRequest entry.handle.number data, reply)]
        (.error error) client
  | written {token : Token} {entry : Entry} {data : ByteArray}
      (hlookup : client.cache.lookup? token = some entry) (hfits : data.size ≤ entry.size)
      {reply : Except Error Message} {response : Message}
      (hreply : expectOk .write entry.handle.number reply = .ok response) :
      Turn client (.write token data) [(writeRequest entry.handle.number data, reply)] (.ok .done)
        { client with cache := client.cache.modify token.number (Entry.overwrite data) }
  | read {token : Token} {entry : Entry} (hlookup : client.cache.lookup? token = some entry)
      (count : Nat) (reply : Except Error Message) :
      Turn client (.read token count)
        [(.request .read entry.handle.number (UInt32.ofNat (min count entry.size)), reply)]
        ((expectOk .read entry.handle.number reply).map fun response => .data response.payload)
        client
  | size (token : Token) :
      Turn client (.size token) []
        (.ok (.size ((client.cache.lookup? token).map Entry.size))) client
  | shadow (token : Token) :
      Turn client (.shadow token) []
        (.ok (.shadow ((client.cache.lookup? token).map Entry.shadow))) client

variable {config : Config} {client : Client} {exchanges : List Exchange}
  {outcome : Except Error Reply × Client}

theorem Sound.whole_of_lookup? (h : Sound config client) {token : Token} {entry : Entry}
    (hlookup : client.cache.lookup? token = some entry) :
    1 ≤ entry.size ∧ entry.size ≤ config.payloadBound.toNat ∧ entry.shadow.size = entry.size :=
  h.whole _ (Registry.mem_of_get? hlookup)

/-- No number of bytes that a block has is too large for a size field. -/
theorem Sound.lt_size_of_le (h : Sound config client) {token : Token} {entry : Entry}
    (hlookup : client.cache.lookup? token = some entry) {count : Nat} (hle : count ≤ entry.size) :
    count < UInt32.size :=
  Nat.lt_of_le_of_lt (Nat.le_trans hle (h.whole_of_lookup? hlookup).2.1) config.payloadBound.toNat_lt

/-! ## Every play is a turn -/

theorem plays_ask {request : Message} {resume : Message → Progress}
    (h : (client.ask request resume).Plays exchanges outcome) :
    (∃ error, exchanges = [(request, .error error)] ∧ outcome = (.error error, client)) ∨
      ∃ response rest, exchanges = (request, .ok response) :: rest ∧
        (resume response).Plays rest outcome := by
  cases h with
  | @ask _ _ reply rest _ hrest =>
      cases reply with
      | error error =>
          obtain ⟨rfl, rfl⟩ := Dialogue.plays_done_iff.mp hrest
          exact .inl ⟨error, rfl, rfl⟩
      | ok response => exact .inr ⟨response, rest, rfl, hrest⟩

theorem turn_ping (h : client.ping.Plays exchanges outcome) :
    Turn client .ping exchanges outcome.1 outcome.2 := by
  rcases plays_ask h with ⟨error, rfl, rfl⟩ | ⟨response, rest, rfl, hrest⟩
  · exact .ping (.error error)
  · have turn := @Turn.ping client (.ok response)
    split at hrest
    case isTrue hpong =>
      obtain ⟨rfl, rfl⟩ := Dialogue.plays_done_iff.mp hrest
      rwa [expectPong, if_pos hpong] at turn
    case isFalse hpong =>
      obtain ⟨rfl, rfl⟩ := Dialogue.plays_done_iff.mp hrest
      rwa [expectPong, if_neg hpong] at turn

/-- Once a block was granted, the cache decides. -/
theorem turn_keep {size : Nat} (hsize : client.config.Sendable size) {reply : Except Error Message}
    {handle : Handle} (hreply : expectHandle reply = .ok handle)
    (h : (client.keep handle size).Plays exchanges outcome) :
    Turn client (.alloc size) ((allocRequest size, reply) :: exchanges) outcome.1 outcome.2 := by
  unfold keep Cache.record at h
  cases hfull : client.cache.isFull with
  | false =>
      simp only [hfull, Bool.false_eq_true, if_false] at h
      obtain ⟨rfl, rfl⟩ := Dialogue.plays_done_iff.mp h
      exact .granted hsize hreply hfull
  | true =>
      simp only [hfull, if_true] at h
      rcases plays_ask h with ⟨error, rfl, rfl⟩ | ⟨release, rest, rfl, hrest⟩
      · exact .returned hsize hreply hfull (.error error)
      · obtain ⟨rfl, rfl⟩ := Dialogue.plays_done_iff.mp hrest
        exact .returned hsize hreply hfull (.ok release)

theorem turn_alloc {size : Nat} (h : (client.alloc size).Plays exchanges outcome) :
    Turn client (.alloc size) exchanges outcome.1 outcome.2 := by
  unfold alloc at h
  split at h
  case isTrue hzero =>
    obtain ⟨rfl, rfl⟩ := Dialogue.plays_done_iff.mp h
    have turn := @Turn.refused client size fun hsize => absurd hsize.1 (by omega)
    rwa [Config.sizeError, if_pos hzero] at turn
  case isFalse hpos =>
    split at h
    case isTrue habove =>
      obtain ⟨rfl, rfl⟩ := Dialogue.plays_done_iff.mp h
      have turn := @Turn.refused client size
        fun hsize => absurd hsize.2 (Nat.not_le.mpr habove)
      rwa [Config.sizeError, if_neg hpos] at turn
    case isFalse hbound =>
      have hsize : client.config.Sendable size := ⟨by omega, Nat.not_lt.mp hbound⟩
      rcases plays_ask h with ⟨error, rfl, rfl⟩ | ⟨response, rest, rfl, hrest⟩
      · exact .ungranted hsize rfl
      · split at hrest
        case isTrue hok =>
          split at hrest
          next handle hhandle =>
            refine turn_keep hsize ?_ hrest
            rw [expectHandle, if_pos hok, hhandle]
          next hhandle =>
            obtain ⟨rfl, rfl⟩ := Dialogue.plays_done_iff.mp hrest
            refine .ungranted hsize ?_
            rw [expectHandle, if_pos hok, hhandle]
        case isFalse hok =>
          obtain ⟨rfl, rfl⟩ := Dialogue.plays_done_iff.mp hrest
          refine .ungranted hsize ?_
          rw [expectHandle, if_neg hok]

/-- Asking about a block, and what follows from an OK. -/
theorem plays_ask_ok {request : Message} {resume : Message → Progress} {command : Command}
    {number : UInt64}
    (h : (client.ask request fun response =>
      if response.header.isOk then resume response
      else client.fail (.rejected command number)).Plays exchanges outcome) :
    (∃ reply error, exchanges = [(request, reply)] ∧ expectOk command number reply = .error error ∧
        outcome = (.error error, client)) ∨
      ∃ reply response rest, exchanges = (request, reply) :: rest ∧
        expectOk command number reply = .ok response ∧ (resume response).Plays rest outcome := by
  rcases plays_ask h with ⟨error, rfl, rfl⟩ | ⟨response, rest, rfl, hrest⟩
  · exact .inl ⟨.error error, error, rfl, rfl, rfl⟩
  · split at hrest
    case isTrue hok =>
      refine .inr ⟨.ok response, response, rest, rfl, ?_, hrest⟩
      rw [expectOk, if_pos hok]
    case isFalse hok =>
      obtain ⟨rfl, rfl⟩ := Dialogue.plays_done_iff.mp hrest
      refine .inl ⟨.ok response, _, rfl, ?_, rfl⟩
      rw [expectOk, if_neg hok]

theorem turn_free {token : Token} (h : (client.free token).Plays exchanges outcome) :
    Turn client (.free token) exchanges outcome.1 outcome.2 := by
  unfold free Cache.remove at h
  cases hlookup : client.cache.lookup? token with
  | none =>
      simp only [hlookup] at h
      obtain ⟨rfl, rfl⟩ := Dialogue.plays_done_iff.mp h
      exact .unknown rfl hlookup
  | some entry =>
      simp only [hlookup] at h
      rcases plays_ask_ok h with ⟨reply, error, rfl, hreply, rfl⟩ |
        ⟨reply, response, rest, rfl, hreply, hrest⟩
      · have turn := Turn.freed hlookup reply
        rwa [hreply] at turn
      · obtain ⟨rfl, rfl⟩ := Dialogue.plays_done_iff.mp hrest
        have turn := Turn.freed hlookup reply
        rwa [hreply] at turn

theorem turn_write (hsound : Sound config client) {token : Token} {data : ByteArray}
    (h : (client.write token data).Plays exchanges outcome) :
    Turn client (.write token data) exchanges outcome.1 outcome.2 := by
  unfold write at h
  cases hlookup : client.cache.lookup? token with
  | none =>
      simp only [hlookup] at h
      obtain ⟨rfl, rfl⟩ := Dialogue.plays_done_iff.mp h
      exact .unknown rfl hlookup
  | some entry =>
      simp only [hlookup] at h
      split at h
      case isTrue hlong =>
        obtain ⟨rfl, rfl⟩ := Dialogue.plays_done_iff.mp h
        exact .overlong hlookup hlong
      case isFalse hfits =>
        have hle : data.size ≤ entry.size := Nat.not_lt.mp hfits
        have hsmall := hsound.lt_size_of_le hlookup hle
        rw [Message.withPayload, if_pos hsmall] at h
        rcases plays_ask_ok h with ⟨reply, error, rfl, hreply, rfl⟩ |
          ⟨reply, response, rest, rfl, hreply, hrest⟩
        · exact .unwritten hlookup hle hreply
        · obtain ⟨rfl, rfl⟩ := Dialogue.plays_done_iff.mp hrest
          rw [Cache.updateShadow_of_le hlookup hle]
          exact .written hlookup hle hreply

theorem turn_read (hsound : Sound config client) {token : Token} {count : Nat}
    (h : (client.read token count).Plays exchanges outcome) :
    Turn client (.read token count) exchanges outcome.1 outcome.2 := by
  unfold read at h
  cases hlookup : client.cache.lookup? token with
  | none =>
      simp only [hlookup] at h
      obtain ⟨rfl, rfl⟩ := Dialogue.plays_done_iff.mp h
      exact .unknown rfl hlookup
  | some entry =>
      have hsmall := hsound.lt_size_of_le hlookup (Nat.min_le_right count entry.size)
      simp only [hlookup, if_pos hsmall] at h
      rcases plays_ask_ok h with ⟨reply, error, rfl, hreply, rfl⟩ |
        ⟨reply, response, rest, rfl, hreply, hrest⟩
      · have turn := Turn.read hlookup count reply
        rwa [hreply] at turn
      · obtain ⟨rfl, rfl⟩ := Dialogue.plays_done_iff.mp hrest
        have turn := Turn.read hlookup count reply
        rwa [hreply] at turn

theorem Sound.turn (h : Sound config client) {call : Call}
    (plays : (client.call call).Plays exchanges outcome) :
    Turn client call exchanges outcome.1 outcome.2 := by
  cases call with
  | ping => exact turn_ping plays
  | alloc size => exact turn_alloc plays
  | free token => exact turn_free plays
  | write token data => exact turn_write h plays
  | read token count => exact turn_read h plays
  | size token =>
      obtain ⟨rfl, rfl⟩ := Dialogue.plays_done_iff.mp plays
      exact .size token
  | shadow token =>
      obtain ⟨rfl, rfl⟩ := Dialogue.plays_done_iff.mp plays
      exact .shadow token

/-! ## Every turn keeps a client sound -/

theorem sound_ofConfig (config : Config) : Sound config (ofConfig config) where
  config_eq := rfl
  numbered := Registry.wellNumbered_empty _
  limit_eq := rfl
  whole := by simp [ofConfig]

/-- A cache that numbers and limits its entries as before is sound if the entries are. -/
theorem Sound.replace (h : Sound config client) {cache : Cache} (hnumbered : cache.WellNumbered)
    (hlimit : cache.limit = client.cache.limit)
    (hwhole : ∀ pair ∈ cache.entries, pair ∈ client.cache.entries ∨
      1 ≤ pair.2.size ∧ pair.2.size ≤ config.payloadBound.toNat ∧
        pair.2.shadow.size = pair.2.size) : Sound config { client with cache := cache } where
  config_eq := h.config_eq
  numbered := hnumbered
  limit_eq := hlimit.trans h.limit_eq
  whole := fun pair hpair => (hwhole pair hpair).elim (h.whole pair) id

theorem Turn.sound {call : Call} {result : Except Error Reply} {after : Client}
    (turn : Turn client call exchanges result after) (h : Sound config client) :
    Sound config after := by
  cases turn with
  | granted hsize hreply hfull =>
      refine h.replace (h.numbered.add hfull _) rfl fun pair hpair => ?_
      rcases List.mem_cons.mp hpair with rfl | hold
      · exact .inr ⟨hsize.1, h.config_eq ▸ hsize.2, Bytes.size_zeros _⟩
      · exact .inl hold
  | freed hlookup =>
      exact h.replace (h.numbered.erase _) rfl fun pair hpair => .inl (List.mem_of_mem_filter hpair)
  | @written token entry data hlookup hfits =>
      refine h.replace (h.numbered.modify _ _) rfl fun pair hpair => ?_
      obtain ⟨hpos, hbound, hshadow⟩ := h.whole_of_lookup? hlookup
      have hperm := h.numbered.perm_cons_modify (Entry.overwrite data) hlookup
      rcases List.mem_cons.mp (hperm.mem_iff.mp hpair) with rfl | hother
      · refine .inr ⟨hpos, hbound, ?_⟩
        exact (Bytes.size_overwrite (hshadow.symm ▸ hfits)).trans hshadow
      · exact .inl (List.mem_of_mem_filter hother)
  | _ => exact h

end Client

end RemoteMemory
