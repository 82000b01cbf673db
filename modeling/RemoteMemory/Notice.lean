import RemoteMemory.Address
import RemoteMemory.Arena.Stats
import RemoteMemory.Server.Config

/-!
# Notices

What a server tells its surroundings: one line when it is ready and one with its counters at the
end. A line is a compact JSON object whose members stand in alphabetical order at every level.
-/

namespace RemoteMemory

inductive Notice where
  | ready (address : Address) (config : Server.Config)
  | stats (counters : Stats)
  deriving DecidableEq

namespace Notice

def readyMethod : String := "$ready"

def statsMethod : String := "$stats"

def method : Notice → String
  | ready .. => readyMethod
  | stats _ => statsMethod

/-- A text between quotes. Method names and addresses hold nothing that needs an escape. -/
def quoted (text : String) : String :=
  "\"" ++ text ++ "\""

/-- An object with its members in the order given; the values are JSON already. -/
def object (members : List (String × String)) : String :=
  "\x7b" ++ ",".intercalate (members.map fun member => quoted member.1 ++ ":" ++ member.2)
    ++ "\x7d"

def parameters : Notice → List (String × String)
  | ready address config =>
    [("address", quoted address.text),
      ("maxHandles", toString config.maxHandles),
      ("maxPayload", toString config.payloadBound.toNat),
      ("protocolVersion", toString Header.currentVersion.toNat)]
  | stats counters =>
    [("currentUsage", toString counters.current),
      ("numAllocs", toString counters.allocations),
      ("numFrees", toString counters.releases),
      ("peakUsage", toString counters.peak),
      ("totalAllocated", toString counters.allocated),
      ("totalFreed", toString counters.freed)]

def line (notice : Notice) : String :=
  object [("jsonrpc", quoted "2.0"), ("method", quoted notice.method),
    ("params", object notice.parameters)]

end Notice

end RemoteMemory
