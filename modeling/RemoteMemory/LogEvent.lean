import RemoteMemory.Arena.Basic

/-!
# Log events

The two events that a server reports at the end of its life, with the line that each is written as.
-/

namespace RemoteMemory

inductive LogEvent where
  | arenaState (stats : Stats) (liveBlocks : Nat)
  | serverStopped (released : Nat) (stats : Stats)
  deriving DecidableEq, Repr

namespace LogEvent

def field (name : String) (value : Nat) : String :=
  " " ++ name ++ "=" ++ toString value

def text : LogEvent → String
  | arenaState stats liveBlocks =>
    "INFO allocator state"
      ++ field "total_allocated" stats.allocated
      ++ field "total_freed" stats.freed
      ++ field "current_usage" stats.current
      ++ field "peak_usage" stats.peak
      ++ field "num_allocs" stats.allocations
      ++ field "num_frees" stats.releases
      ++ field "live_blocks" liveBlocks
  | serverStopped released stats =>
    "INFO server stopped"
      ++ field "released" released
      ++ field "peak_usage" stats.peak
      ++ field "num_allocs" stats.allocations
      ++ field "num_frees" stats.releases

end LogEvent

def Arena.report (arena : Arena) : LogEvent :=
  .arenaState arena.stats arena.liveBlocks

end RemoteMemory
