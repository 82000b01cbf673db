import RemoteMemory.Arena.Basic
import RemoteMemory.Message
import RemoteMemory.Registry
import RemoteMemory.Server.Config

/-!
# Server state

One arena and one registry of handles, shared by every connection. Each request gets exactly one
answer: PONG, OK or ERROR. An ERROR carries the handle of the request, or 0 where the request has
none that counts, and tells nothing about the cause.
-/

namespace RemoteMemory

namespace Server

/-- What a handle stands for. The size of the block is kept for checking bounds. -/
structure Mapping where
  region : Region
  size : Nat
  deriving DecidableEq, Repr

/-- The blocks of a server and the handles that clients know them by. -/
structure State where
  arena : Arena
  handles : Registry Mapping

namespace State

def ofConfig (config : Config) : State where
  arena := { id := 0, limit := config.memoryLimit }
  handles := { limit := config.maxHandles }

def stats (state : State) : Stats :=
  state.arena.stats

/-- Allocate a block and map a new handle to it. If no handle can be had, the block is released
again. -/
def alloc (state : State) (size : Nat) : Message × State :=
  match state.arena.allocate false size with
  | (.error _, arena) => (.error 0, { state with arena := arena })
  | (.ok region, arena) =>
    match state.handles.store ⟨region, size⟩ with
    | (some handle, handles) => (.ok handle, ⟨arena, handles⟩)
    | (none, handles) => (.error 0, ⟨(arena.release region).2, handles⟩)

def free (state : State) (handle : UInt64) : Message × State :=
  match state.handles.get? handle with
  | none => (.error handle, state)
  | some mapping =>
    (.ok handle, ⟨(state.arena.release mapping.region).2, state.handles.erase handle⟩)

/-- Overwrite the start of the block behind a handle with as many bytes as it holds, at most. -/
def write (state : State) (handle : UInt64) (data : ByteArray) : Message × State :=
  match state.handles.get? handle with
  | none => (.error handle, state)
  | some mapping =>
    if mapping.size < data.size then (.error handle, state)
    else
      match state.arena.write mapping.region data with
      | (.ok (), arena) => (.ok handle, { state with arena := arena })
      | (.error _, arena) => (.error handle, { state with arena := arena })

def read (state : State) (handle : UInt64) (count : Nat) : Message :=
  match state.handles.get? handle with
  | none => .error handle
  | some mapping =>
    match state.arena.readInto mapping.region (Bytes.zeros (min count mapping.size)) with
    | (.error _, _) => .error handle
    | (.ok (), data) =>
      match Message.withPayload .ok handle data with
      | .ok response => response
      | .error _ => .error handle

/-- Answer one request. Its header is not checked here. -/
def dispatch (state : State) (request : Message) : Message × State :=
  match request.header.command? with
  | some .ping => (.pong, state)
  | some .alloc => state.alloc request.header.byteCount.toNat
  | some .free => state.free request.header.handle
  | some .write => state.write request.header.handle request.payload
  | some .read => (state.read request.header.handle request.header.byteCount.toNat, state)
  | _ => (.error 0, state)

def dispatchAll (state : State) : List Message → List Message × State
  | [] => ([], state)
  | request :: rest =>
    let (response, state) := state.dispatch request
    let (responses, state) := state.dispatchAll rest
    (response :: responses, state)

def reclaim (state : State) (handle : UInt64) (mapping : Mapping) : State :=
  ⟨(state.arena.release mapping.region).2, state.handles.erase handle⟩

def reclaimInOrder (state : State) (order : List (UInt64 × Mapping)) : State :=
  order.foldl (fun state pair => state.reclaim pair.1 pair.2) state

def releaseAll (state : State) : Nat × State :=
  (state.handles.size, state.reclaimInOrder state.handles.entries)

end State

end Server

end RemoteMemory
