/-!
# Counters of an arena

Bytes are counted by the capacity of blocks, so resizing a block in place moves no counter and
releasing a block takes back exactly what its allocation added.
-/

namespace RemoteMemory

/-- What an arena has done since its counters were last cleared. -/
structure Stats where
  allocated : Nat := 0
  freed : Nat := 0
  current : Nat := 0
  peak : Nat := 0
  allocations : Nat := 0
  releases : Nat := 0
  deriving DecidableEq, Repr, Inhabited

namespace Stats

def recordAllocation (stats : Stats) (bytes : Nat) : Stats :=
  { stats with
    allocated := stats.allocated + bytes
    current := stats.current + bytes
    peak := max stats.peak (stats.current + bytes)
    allocations := stats.allocations + 1 }

/-- Count a release. The current bytes stop at zero, because the counters may have been cleared
while the block was live. -/
def recordRelease (stats : Stats) (bytes : Nat) : Stats :=
  { stats with
    freed := stats.freed + bytes
    current := stats.current - bytes
    releases := stats.releases + 1 }

end Stats

end RemoteMemory
