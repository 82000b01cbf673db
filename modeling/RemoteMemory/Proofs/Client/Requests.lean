import RemoteMemory.Proofs.ByteMap
import RemoteMemory.Proofs.Client.Bookkeeping
import RemoteMemory.Proofs.Stream.Readback

/-!
# What a client sends

Which requests a client sends follows from the calls and from the first reply to each, by an account
of the blocks that it was granted. What it writes is the frames of these requests and nothing else.
No size in the account is above the bound of the client, so every request can be read, and no
request is ever too long to be made.
-/

namespace RemoteMemory

/-- An error of a message that no size field can count. -/
def Error.Unsizable : Error → Prop
  | .invalidArgument (.payloadTooLong _) | .invalidArgument (.readTooLong _) => True
  | _ => False

def Sizable {α : Type} (result : Except Error α) : Prop :=
  ∀ error, result = .error error → ¬ error.Unsizable

theorem sizable_ok {α : Type} (value : α) : Sizable (.ok value) :=
  fun _ h => nomatch h

theorem sizable_error_iff {α : Type} {error : Error} :
    Sizable (.error error : Except Error α) ↔ ¬ error.Unsizable :=
  ⟨fun h => h error rfl, fun h _ heq => Except.error.inj heq ▸ h⟩

theorem Sizable.error {α β : Type} {result : Except Error α} (h : Sizable result) {error : Error}
    (heq : result = .error error) : Sizable (.error error : Except Error β) :=
  sizable_error_iff.mpr (h error heq)

theorem Sizable.map {α β : Type} {result : Except Error α} (h : Sizable result) (f : α → β) :
    Sizable (result.map f) := by
  cases result with
  | ok value => exact sizable_ok _
  | error error => exact h.error rfl

namespace Source

variable {bound : UInt32}

/-- What a message that cannot be read is reported as. -/
theorem error_of_readMessage {source : Source} {error : Error}
    (h : (source.readMessage bound).1 = .error error) :
    error = .connectionClosed ∨ error = .network .read ∨ ∃ fault, error = .protocol fault := by
  rcases readMessage_cases source bound with
    ⟨_, _, _, _, -, -, -, hread⟩ | ⟨_, _, fault, -, -, hread⟩ | ⟨-, hread⟩
  · rw [hread] at h
    cases h
  · rw [hread] at h
    cases h
    exact .inr (.inr ⟨fault, rfl⟩)
  · rw [hread] at h
    cases h
    exact source.shortage_cases.imp_right .inl

theorem sizable_readMessage (source : Source) (bound : UInt32) :
    Sizable (source.readMessage bound).1 := by
  intro error h
  rcases error_of_readMessage h with rfl | rfl | ⟨fault, rfl⟩
  all_goals exact id

end Source

/-- Exchanges in which each request is answered by the next message that can be read. -/
inductive Answered (bound : UInt32) : Source → List Exchange → Prop where
  | nil (source : Source) : Answered bound source []
  | cons {source : Source} (request : Message) {exchanges : List Exchange}
      (rest : Answered bound (source.readMessage bound).2 exchanges) :
      Answered bound source ((request, (source.readMessage bound).1) :: exchanges)

theorem Answered.head_eq {bound : UInt32} {source : Source} {exchanges : List Exchange}
    (h : Answered bound source exchanges) :
    ∀ exchange ∈ exchanges.head?, exchange.2 = (source.readMessage bound).1 := by
  cases h with
  | nil => simp
  | cons request rest => simp

theorem Answered.sizable {bound : UInt32} {source : Source} {exchanges : List Exchange}
    (h : Answered bound source exchanges) : ∀ exchange ∈ exchanges, Sizable exchange.2 := by
  induction h with
  | nil source => simp
  | cons request rest ih => exact List.forall_mem_cons.mpr ⟨Source.sizable_readMessage _ _, ih⟩

def requestsOf (exchanges : List Exchange) : List Message :=
  exchanges.map Prod.fst

/-- Over a sink that takes everything, an exchange writes the frame of the request and reads the
next message. -/
theorem Channel.exchange_of_open {channel : Channel} (hopen : channel.sink.Open) (bound : UInt32)
    (request : Message) :
    ∃ sink : Sink,
      channel.exchange bound request =
        ((channel.source.readMessage bound).1, ⟨(channel.source.readMessage bound).2, sink⟩) ∧
      sink.Open ∧ sink.written = channel.sink.written ++ request.frame := by
  refine ⟨{ channel.sink with
      written := channel.sink.written ++ request.frame
      flushes := channel.sink.flushes + 1 },
    ?_, ⟨hopen.room_eq, hopen.flushFails_eq⟩, rfl⟩
  rw [exchange, Sink.writeMessage_of_open hopen]

/-- Over such a channel, a dialogue writes the frames of its requests and reads one reply for
each. -/
theorem Dialogue.exists_plays_of_open {α : Type} (dialogue : Dialogue α) {channel : Channel}
    (hopen : channel.sink.Open) (bound : UInt32) :
    ∃ exchanges result sink,
      dialogue.run (fun request channel => channel.exchange bound request) channel =
        (result, ⟨channel.source.afterReads bound exchanges.length, sink⟩) ∧
      dialogue.Plays exchanges result ∧ Answered bound channel.source exchanges ∧ sink.Open ∧
      sink.written =
        channel.sink.written ++ Bytes.join ((requestsOf exchanges).map Message.frame) := by
  induction dialogue generalizing channel with
  | done result =>
      exact ⟨[], result, channel.sink, rfl, .done result, .nil _, hopen,
        ByteArray.append_empty.symm⟩
  | ask request resume ih =>
      obtain ⟨sent, hexchange, hsent, hframe⟩ := Channel.exchange_of_open hopen bound request
      obtain ⟨exchanges, result, sink, hrun, hplays, hanswered, hsink, hwritten⟩ :=
        @ih (channel.source.readMessage bound).1 ⟨(channel.source.readMessage bound).2, sent⟩ hsent
      refine ⟨_, result, sink, ?_, .ask hplays, .cons request hanswered, hsink, ?_⟩
      · rw [Dialogue.run, hexchange]
        exact hrun
      · rw [hwritten, hframe, ByteArray.append_assoc, ← Bytes.join_cons]
        rfl

namespace Client

/-- The handle that a readable OK grants. -/
def granted? : Except Error Message → Option Handle
  | .ok response =>
    if response.header.command? = some .ok then Handle.ofNumber? response.header.handle else none
  | .error _ => none

/-- The next token of a client, and the handle and the size of each block that it was granted and
has not freed. -/
structure Account where
  next : UInt64 := 1
  grants : NumberMap (Handle × Nat) := ∅

namespace Account

def Admits (config : Config) (account : Account) : Prop :=
  account.grants.count < config.maxEntries ∧ account.next.toNat < 2 ^ 64 - 1

instance (config : Config) (account : Account) : Decidable (account.Admits config) :=
  inferInstanceAs (Decidable (_ ∧ _))

instance (config : Config) (size : Nat) : Decidable (config.Sendable size) :=
  inferInstanceAs (Decidable (_ ∧ _))

/-- The requests of an allocation whose first reply is known. A block that is granted and not
recorded is given back. -/
def alloc (config : Config) (account : Account) (reply : Except Error Message) (size : Nat) :
    List Message × Account :=
  if config.Sendable size then
    match granted? reply with
    | some handle =>
      if account.Admits config then
        ([allocRequest size],
          ⟨account.next + 1, account.grants.insert account.next (handle, size)⟩)
      else ([allocRequest size, .request .free handle.number 0], account)
    | none => ([allocRequest size], account)
  else ([], account)

def free (account : Account) (token : Token) : List Message × Account :=
  match account.grants.lookup token.number with
  | some (handle, _) =>
    ([.request .free handle.number 0],
      { account with grants := account.grants.erase token.number })
  | none => ([], account)

def write (account : Account) (token : Token) (data : ByteArray) : List Message :=
  match account.grants.lookup token.number with
  | some (handle, size) => if data.size ≤ size then [writeRequest handle.number data] else []
  | none => []

def read (account : Account) (token : Token) (count : Nat) : List Message :=
  match account.grants.lookup token.number with
  | some (handle, size) => [.request .read handle.number (UInt32.ofNat (min count size))]
  | none => []

def requests (config : Config) (account : Account) (reply : Except Error Message) :
    Call → List Message × Account
  | .ping => ([.request .ping 0 0], account)
  | .alloc size => account.alloc config reply size
  | .free token => account.free token
  | .write token data => (account.write token data, account)
  | .read token count => (account.read token count, account)
  | .size _ | .shadow _ => ([], account)

/-- The requests of calls in order, with the replies that come in. -/
def requestsAll (config : Config) (account : Account) (replies : Source) : List Call → List Message
  | [] => []
  | call :: rest =>
    let (requests, account) :=
      account.requests config (replies.readMessage config.payloadBound).1 call
    requests ++
      account.requestsAll config (replies.afterReads config.payloadBound requests.length) rest

end Account

structure Account.Agrees (account : Account) (cache : Cache) : Prop where
  next_eq : account.next = cache.next
  follows : account.grants.Follows cache Entry.grant

variable {config : Config} {client after : Client} {account : Account} {call : Call}
  {exchanges : List Exchange} {result : Except Error Reply}

theorem Account.Agrees.admits_iff (h : account.Agrees client.cache) (hsound : Sound config client) :
    account.Admits config ↔ client.cache.isFull = false := by
  rw [Account.Admits, Registry.isFull_eq_false_iff, Registry.ne_lastNumber_iff, h.next_eq,
    h.follows.count_eq, hsound.limit_eq]

theorem Account.Agrees.lookup_eq (h : account.Agrees client.cache) (hsound : Sound config client)
    (token : Token) :
    account.grants.lookup token.number = (client.cache.lookup? token).map Entry.grant :=
  h.follows.lookup_eq hsound.numbered token.number

theorem isOk_iff {header : Header} : header.isOk = true ↔ header.command? = some .ok := by
  rw [Header.isOk, Header.command?, Command.ofCode?_eq_some_iff, beq_iff_eq]
  exact eq_comm

theorem Account.Agrees.lookup_of_none (h : account.Agrees client.cache)
    (hsound : Sound config client) {token : Token} (hlookup : client.cache.lookup? token = none) :
    account.grants.lookup token.number = none := by
  rw [h.lookup_eq hsound, hlookup, Option.map_none]

theorem Account.Agrees.lookup_of_some (h : account.Agrees client.cache)
    (hsound : Sound config client) {token : Token} {entry : Entry}
    (hlookup : client.cache.lookup? token = some entry) :
    account.grants.lookup token.number = some (entry.handle, entry.size) := by
  rw [h.lookup_eq hsound, hlookup, Option.map_some, Entry.grant]

theorem granted?_eq_some_iff {reply : Except Error Message} {handle : Handle} :
    granted? reply = some handle ↔ expectHandle reply = .ok handle := by
  cases reply with
  | error error => simp [granted?, expectHandle]
  | ok response =>
      simp only [granted?, expectHandle, isOk_iff]
      split
      · cases Handle.ofNumber? response.header.handle <;> simp
      · simp

theorem granted?_of_error {reply : Except Error Message} {error : Error}
    (h : expectHandle reply = .error error) : granted? reply = none := by
  rw [Option.eq_none_iff_forall_ne_some]
  intro handle hgranted
  rw [granted?_eq_some_iff, h] at hgranted
  cases hgranted

theorem Turn.requests_eq (turn : Turn client call exchanges result after)
    (hsound : Sound config client) (h : account.Agrees client.cache)
    {reply : Except Error Message} (hreply : ∀ exchange ∈ exchanges.head?, exchange.2 = reply) :
    (account.requests config reply call).1 = requestsOf exchanges ∧
      (account.requests config reply call).2.Agrees after.cache := by
  obtain rfl := hsound.config_eq
  have hadmits := h.admits_iff hsound
  cases turn with
  | ping => exact ⟨rfl, h⟩
  | refused hsize =>
      rw [Account.requests, Account.alloc, if_neg hsize]
      exact ⟨rfl, h⟩
  | ungranted hsize hexpect =>
      obtain rfl := hreply _ rfl
      rw [Account.requests, Account.alloc, if_pos hsize, granted?_of_error hexpect]
      exact ⟨rfl, h⟩
  | returned hsize hexpect hfull =>
      obtain rfl := hreply _ rfl
      have hrefused : ¬ account.Admits client.config := by
        rw [hadmits, hfull]
        decide
      rw [Account.requests, Account.alloc, if_pos hsize, granted?_eq_some_iff.mpr hexpect]
      dsimp only
      rw [if_neg hrefused]
      exact ⟨rfl, h⟩
  | @granted size hsize _ handle hexpect hfull =>
      obtain rfl := hreply _ rfl
      rw [Account.requests, Account.alloc, if_pos hsize, granted?_eq_some_iff.mpr hexpect]
      dsimp only
      rw [if_pos (hadmits.mpr hfull), h.next_eq]
      exact ⟨rfl, rfl, h.follows.add hsound.numbered ⟨handle, size, Bytes.zeros size⟩⟩
  | @unknown _ token hneeds hlookup =>
      have hnone := h.lookup_of_none hsound hlookup
      cases call with
      | free token =>
          cases hneeds
          rw [Account.requests, Account.free, hnone]
          exact ⟨rfl, h⟩
      | write token data =>
          cases hneeds
          rw [Account.requests, Account.write, hnone]
          exact ⟨rfl, h⟩
      | read token count =>
          cases hneeds
          rw [Account.requests, Account.read, hnone]
          exact ⟨rfl, h⟩
      | _ => cases hneeds
  | freed hlookup =>
      rw [Account.requests, Account.free, h.lookup_of_some hsound hlookup]
      exact ⟨rfl, h.next_eq, h.follows.erase hsound.numbered hlookup⟩
  | overlong hlookup hlong =>
      rw [Account.requests, Account.write, h.lookup_of_some hsound hlookup]
      exact ⟨if_neg (Nat.not_le.mpr hlong), h⟩
  | unwritten hlookup hfits =>
      rw [Account.requests, Account.write, h.lookup_of_some hsound hlookup]
      exact ⟨if_pos hfits, h⟩
  | @written token _ data hlookup hfits =>
      rw [Account.requests, Account.write, h.lookup_of_some hsound hlookup]
      exact ⟨if_pos hfits, h.next_eq, h.follows.modify_of_view_eq token.number fun _ => rfl⟩
  | read hlookup =>
      rw [Account.requests, Account.read, h.lookup_of_some hsound hlookup]
      exact ⟨rfl, h⟩
  | size => exact ⟨rfl, h⟩
  | shadow => exact ⟨rfl, h⟩

/-! ## No request is too long -/

theorem sizable_expectPong {reply : Except Error Message} (h : Sizable reply) :
    Sizable (expectPong reply) := by
  cases reply with
  | error error => exact h.error rfl
  | ok response =>
      rw [expectPong]
      split
      · exact sizable_ok _
      · exact sizable_error_iff.mpr id

theorem sizable_expectHandle {reply : Except Error Message} (h : Sizable reply) :
    Sizable (expectHandle reply) := by
  cases reply with
  | error error => exact h.error rfl
  | ok response =>
      rw [expectHandle]
      split
      · cases Handle.ofNumber? response.header.handle with
        | some handle => exact sizable_ok _
        | none => exact sizable_error_iff.mpr id
      · exact sizable_error_iff.mpr id

theorem sizable_expectOk {reply : Except Error Message} (h : Sizable reply) (command : Command)
    (number : UInt64) : Sizable (expectOk command number reply) := by
  cases reply with
  | error error => exact h
  | ok response =>
      rw [expectOk]
      split
      · exact sizable_ok _
      · exact sizable_error_iff.mpr id

theorem not_unsizable_givenBack {reply : Except Error Message} (h : Sizable reply) :
    ¬ (givenBack reply).Unsizable := by
  cases reply with
  | error error => exact sizable_error_iff.mp h
  | ok response => exact id

/-- A turn reports no message that no size field can count, unless a reply does. -/
theorem Turn.sizable (turn : Turn client call exchanges result after)
    (h : ∀ exchange ∈ exchanges, Sizable exchange.2) : Sizable result := by
  cases turn with
  | ping reply => exact (sizable_expectPong (h _ List.mem_cons_self)).map _
  | @refused size hsize =>
      rw [sizable_error_iff, Config.sizeError]
      split
      · exact id
      · exact id
  | ungranted hsize hexpect => exact (sizable_expectHandle (h _ List.mem_cons_self)).error hexpect
  | returned hsize hexpect hfull release =>
      obtain ⟨-, hrelease⟩ := List.forall_mem_cons.mp h
      exact sizable_error_iff.mpr (not_unsizable_givenBack (hrelease _ List.mem_cons_self))
  | unknown => exact sizable_error_iff.mpr id
  | freed hlookup reply => exact (sizable_expectOk (h _ List.mem_cons_self) _ _).map _
  | overlong => exact sizable_error_iff.mpr id
  | unwritten hlookup hfits hexpect =>
      exact (sizable_expectOk (h _ List.mem_cons_self) _ _).error hexpect
  | read hlookup count reply => exact (sizable_expectOk (h _ List.mem_cons_self) _ _).map _
  | _ => exact sizable_ok _

/-- Every request of a turn is within the bound of the client, with the payload it announces. -/
theorem Turn.readable (turn : Turn client call exchanges result after)
    (hsound : Sound config client) :
    ∀ request ∈ requestsOf exchanges, request.Readable config.payloadBound := by
  obtain rfl := hsound.config_eq
  have halloc : ∀ {size}, client.config.Sendable size →
      (allocRequest size).Readable client.config.payloadBound :=
    fun hsize => Message.readable_of_count rfl hsize.2
  have hwrite : ∀ {token entry} {data : ByteArray}, client.cache.lookup? token = some entry →
      data.size ≤ entry.size →
      (writeRequest entry.handle.number data).Readable client.config.payloadBound :=
    fun hlookup hfits => Message.readable_of_size rfl rfl
      (Nat.le_trans hfits (hsound.whole_of_lookup? hlookup).2.1)
  cases turn with
  | ping => simpa [requestsOf] using Message.readable_plain _ _ _
  | ungranted hsize => simpa [requestsOf] using halloc hsize
  | granted hsize => simpa [requestsOf] using halloc hsize
  | returned hsize => simpa [requestsOf] using ⟨halloc hsize, Message.readable_plain _ _ _⟩
  | freed => simpa [requestsOf] using Message.readable_plain _ _ _
  | unwritten hlookup hfits => simpa [requestsOf] using hwrite hlookup hfits
  | written hlookup hfits => simpa [requestsOf] using hwrite hlookup hfits
  | read hlookup count =>
      have hcount := Nat.le_trans (Nat.min_le_right count _) (hsound.whole_of_lookup? hlookup).2.1
      simpa [requestsOf] using Message.readable_of_count rfl hcount
  | _ => simp [requestsOf]

/-! ## All calls -/

theorem Sound.call_of_open {attached : Attached} (hsound : Sound config attached.client)
    (hopen : attached.channel.sink.Open) (call : Call) :
    ∃ exchanges, Turn attached.client call exchanges (attached.call call).1
        (attached.call call).2.client ∧
      Answered config.payloadBound attached.channel.source exchanges ∧
      (attached.call call).2.channel.source =
        attached.channel.source.afterReads config.payloadBound exchanges.length ∧
      (attached.call call).2.channel.sink.Open ∧
      (attached.call call).2.channel.sink.written =
        attached.channel.sink.written ++ Bytes.join ((requestsOf exchanges).map Message.frame) := by
  obtain ⟨exchanges, result, sink, hrun, hplays, hanswered, hsink, hwritten⟩ :=
    (attached.client.call call).exists_plays_of_open hopen attached.client.config.payloadBound
  rw [Attached.call, hrun, ← hsound.config_eq]
  exact ⟨exchanges, hsound.turn hplays, hanswered, rfl, hsink, hwritten⟩

theorem Account.Agrees.callAll {attached : Attached} (h : account.Agrees attached.client.cache)
    (hsound : Sound config attached.client) (hopen : attached.channel.sink.Open)
    (calls : List Call) :
    let requests := account.requestsAll config attached.channel.source calls
    (attached.callAll calls).2.channel.sink.written =
        attached.channel.sink.written ++ Bytes.join (requests.map Message.frame) ∧
      (∀ request ∈ requests, request.Readable config.payloadBound) ∧
      ∀ result ∈ (attached.callAll calls).1, Sizable result.1 := by
  induction calls generalizing attached account with
  | nil =>
      refine ⟨ByteArray.append_empty.symm, ?_, ?_⟩
      · simp [Account.requestsAll]
      · simp [Attached.callAll]
  | cons call rest ih =>
      obtain ⟨exchanges, turn, hanswered, hsource, hsink, hwritten⟩ :=
        hsound.call_of_open hopen call
      obtain ⟨hrequests, hagrees⟩ := turn.requests_eq hsound h hanswered.head_eq
      obtain ⟨hrest, hreadable, hsizable⟩ := ih hagrees (turn.sound hsound) hsink
      have hall : account.requestsAll config attached.channel.source (call :: rest) =
          requestsOf exchanges ++ (account.requests config
            (attached.channel.source.readMessage config.payloadBound).1 call).2.requestsAll config
              (attached.call call).2.channel.source rest := by
        rw [Account.requestsAll]
        simp only [hrequests, hsource, requestsOf, List.length_map]
      rw [Attached.callAll_cons, hall]
      refine ⟨?_, List.forall_mem_append.mpr ⟨turn.readable hsound, hreadable⟩,
        List.forall_mem_cons.mpr ⟨turn.sizable hanswered.sizable, hsizable⟩⟩
      rw [List.map_append, Bytes.join_append, ← ByteArray.append_assoc, ← hwritten]
      exact hrest

/-- What a client writes is the frames of the requests that the account says, and a reader with the
bound of the client or a wider one gets back exactly these; no call ever fails because a size field
cannot count a message. -/
theorem requests_of_callAll (config : Config) (replies : Source) (calls : List Call) :
    let requests := Account.requestsAll config {} replies calls
    let outcome := Attached.callAll ⟨ofConfig config, ⟨replies, {}⟩⟩ calls
    let written := outcome.2.channel.sink.written
    written = Bytes.join (requests.map Message.frame) ∧
    (∀ request ∈ requests,
      request.header.byteCount ≤ config.payloadBound ∧
        request.payload.size = request.header.payloadSize) ∧
    (∀ wider, config.payloadBound ≤ wider →
      (Source.ofBytes written .closed).readMessages wider =
        (requests, .connectionClosed, (Source.ofBytes written .closed).exhaust)) ∧
    ∀ result ∈ outcome.1, Sizable result.1 := by
  intro requests outcome written
  let attached : Attached := ⟨ofConfig config, ⟨replies, {}⟩⟩
  have hagrees : ({} : Account).Agrees attached.client.cache := ⟨rfl, rfl⟩
  have hopen : attached.channel.sink.Open := ⟨rfl, rfl⟩
  obtain ⟨hwritten, hreadable, hsizable⟩ := hagrees.callAll (sound_ofConfig config) hopen calls
  have hjoin : written = Bytes.join (requests.map Message.frame) :=
    hwritten.trans ByteArray.empty_append
  refine ⟨hjoin, fun request hrequest => ?_, fun wider hwider => ?_, hsizable⟩
  · obtain ⟨hacceptable, hconsistent⟩ := hreadable request hrequest
    exact ⟨hacceptable.2.2, hconsistent⟩
  · refine Source.readMessages_of_frames
      (fun request hrequest => (hreadable request hrequest).mono hwider) ?_
    rw [Source.unread_ofBytes, hjoin]

/-- Room for one block: the second one is given back, and its token never was one. -/
example :
    Account.requestsAll { maxEntries := 1 } {}
      (.ofBytes (Bytes.join ([Message.ok 7, .ok 8, .error 8, .ok 7].map Message.frame)) .closed)
      [.alloc 4, .alloc 3, .read ⟨1⟩ 9, .free ⟨2⟩, .write ⟨1⟩ ⟨#[5, 6]⟩, .free ⟨1⟩, .read ⟨1⟩ 1] =
    [allocRequest 4, allocRequest 3, .request .free 8 0, .request .read 7 4,
      writeRequest 7 ⟨#[5, 6]⟩, .request .free 7 0] := rfl

end Client

end RemoteMemory
