import RemoteMemory.Client.Cache
import RemoteMemory.Client.Dialogue
import RemoteMemory.Stream.Channel

/-!
# Clients

A client turns each call into at most one request, and into a second one only to give back a block
that its cache has no room for. Arguments that the server would not answer are refused before
anything is sent. The cache follows the answers: an OK to ALLOC adds an entry, an OK to WRITE
updates a shadow, and FREE removes the entry whatever the answer is.
-/

namespace RemoteMemory

namespace Client

structure Config where
  maxEntries : Nat := 4096
  payloadBound : UInt32 := Header.defaultBound
  deriving DecidableEq, Repr, Inhabited

inductive Call where
  | ping
  | alloc (size : Nat)
  | free (token : Token)
  | write (token : Token) (data : ByteArray)
  | read (token : Token) (count : Nat)
  | size (token : Token)
  | shadow (token : Token)

inductive Reply where
  | done
  | granted (token : Token)
  | data (bytes : ByteArray)
  | size (size? : Option Nat)
  | shadow (shadow? : Option ByteArray)

end Client

structure Client where
  config : Client.Config
  cache : Client.Cache

namespace Client

def ofConfig (config : Config) : Client where
  config := config
  cache := { limit := config.maxEntries }

abbrev Progress := Dialogue (Except Error Reply × Client)

def succeed (client : Client) (reply : Reply) : Progress :=
  .done (.ok reply, client)

def fail (client : Client) (error : Error) : Progress :=
  .done (.error error, client)

/-- Send a request; a failed exchange ends the call. -/
def ask (client : Client) (request : Message) (resume : Message → Progress) : Progress :=
  .ask request fun
    | .ok response => resume response
    | .error error => client.fail error

def ping (client : Client) : Progress :=
  client.ask (.request .ping 0 0) fun response =>
    if response.header.command? = some .pong then client.succeed .done
    else client.fail (.protocol (.notPong response.header.text))

/-- Record a block that was granted. If the cache is full, give it back first. -/
def keep (client : Client) (handle : Handle) (size : Nat) : Progress :=
  match client.cache.record handle size with
  | (some token, cache) => succeed { client with cache := cache } (.granted token)
  | (none, cache) =>
    let client := { client with cache := cache }
    client.ask (.request .free handle.number 0) fun _ => client.fail .tableFull

def alloc (client : Client) (size : Nat) : Progress :=
  if size = 0 then client.fail (.invalidArgument .emptyAllocation)
  else if client.config.payloadBound.toNat < size then
    client.fail (.invalidArgument (.allocationAbove size client.config.payloadBound.toNat))
  else
    client.ask (.request .alloc 0 (UInt32.ofNat size)) fun response =>
      if response.header.isOk then
        match Handle.ofNumber? response.header.handle with
        | some handle => client.keep handle size
        | none => client.fail (.protocol .missingHandle)
      else client.fail (.rejected .alloc response.header.handle)

/-- Free a block. The token is gone whatever the server answers. -/
def free (client : Client) (token : Token) : Progress :=
  match client.cache.remove token with
  | (none, _) => client.fail (.notFound token.number)
  | (some entry, cache) =>
    let client := { client with cache := cache }
    client.ask (.request .free entry.handle.number 0) fun response =>
      if response.header.isOk then client.succeed .done
      else client.fail (.rejected .free entry.handle.number)

def write (client : Client) (token : Token) (data : ByteArray) : Progress :=
  match client.cache.lookup? token with
  | none => client.fail (.notFound token.number)
  | some entry =>
    if entry.size < data.size then client.fail (.overflow data.size entry.size)
    else
      match Message.withPayload .write entry.handle.number data with
      | .error error => client.fail error
      | .ok request =>
        client.ask request fun response =>
          if response.header.isOk then
            succeed { client with cache := (client.cache.updateShadow token data).2 } .done
          else client.fail (.rejected .write entry.handle.number)

/-- Read from the start of a block, at most as many bytes as it has. The bytes are those of the
answer, never those of the shadow. -/
def read (client : Client) (token : Token) (count : Nat) : Progress :=
  match client.cache.lookup? token with
  | none => client.fail (.notFound token.number)
  | some entry =>
    let count := min count entry.size
    if count < UInt32.size then
      client.ask (.request .read entry.handle.number (UInt32.ofNat count)) fun response =>
        if response.header.isOk then client.succeed (.data response.payload)
        else client.fail (.rejected .read entry.handle.number)
    else client.fail (.invalidArgument (.readTooLong count))

def call (client : Client) : Call → Progress
  | .ping => client.ping
  | .alloc size => client.alloc size
  | .free token => client.free token
  | .write token data => client.write token data
  | .read token count => client.read token count
  | .size token => client.succeed (.size ((client.cache.lookup? token).map Entry.size))
  | .shadow token => client.succeed (.shadow ((client.cache.lookup? token).map Entry.shadow))

structure Attached where
  client : Client
  channel : Channel

def Attached.call (attached : Attached) (call : Call) : Except Error Reply × Attached :=
  let ((result, client), channel) :=
    (attached.client.call call).run
      (fun request channel => channel.exchange attached.client.config.payloadBound request)
      attached.channel
  (result, ⟨client, channel⟩)

/-- Make calls in order, each whatever became of those before it. Every result comes with the
number of blocks cached after the call. -/
def Attached.callAll (attached : Attached) : List Call → List (Except Error Reply × Nat) × Attached
  | [] => ([], attached)
  | call :: rest =>
    let (result, attached) := attached.call call
    let (results, last) := attached.callAll rest
    ((result, attached.client.cache.size) :: results, last)

end Client

end RemoteMemory
