import RemoteMemory.Server.Config

/-!
# Command line arguments

The limits of a server as they are given on a command line: pairs of a name and a number.
-/

namespace RemoteMemory

namespace Server

def Setting.ofArgument? (name : String) (value : Nat) : Option Setting :=
  match name with
  | "--max-handles" => some (.maxHandles value)
  | "--memory-limit" => some (.memoryLimit (some value))
  | "--max-payload" => if value < UInt32.size then some (.payloadBound (UInt32.ofNat value)) else none
  | _ => none

def Setting.ofArguments? : List String → Option (List Setting)
  | [] => some []
  | name :: value :: rest => do
    let setting ← Setting.ofArgument? name (← value.toNat?)
    let settings ← Setting.ofArguments? rest
    return setting :: settings
  | [_] => none

def usage : String :=
  "usage: [--max-handles N] [--memory-limit N] [--max-payload N]"

end Server

end RemoteMemory
