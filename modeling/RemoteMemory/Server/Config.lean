import RemoteMemory.Header.Basic

/-!
# Server configuration

The limits that a server runs with, and the settings that a builder applies one after another.
-/

namespace RemoteMemory

namespace Server

def defaultPort : UInt16 := 9999

structure Config where
  maxHandles : Nat := 1024
  payloadBound : UInt32 := Header.defaultBound
  memoryLimit : Option Nat := none
  deriving DecidableEq, Repr, Inhabited

inductive Setting where
  | maxHandles (limit : Nat)
  | payloadBound (bound : UInt32)
  | memoryLimit (limit : Option Nat)
  | config (config : Config)
  deriving DecidableEq, Repr

namespace Config

def apply (config : Config) : Setting → Config
  | .maxHandles limit => { config with maxHandles := limit }
  | .payloadBound bound => { config with payloadBound := bound }
  | .memoryLimit limit => { config with memoryLimit := limit }
  | .config replacement => replacement

/-- The defaults with settings applied in order; a later setting wins. -/
def ofSettings (settings : List Setting) : Config :=
  settings.foldl apply {}

end Config

end Server

end RemoteMemory
