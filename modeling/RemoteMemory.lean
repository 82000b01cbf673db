import RemoteMemory.Main
import RemoteMemory.Proofs.Arena.Counters
import RemoteMemory.Proofs.Arena.Failures
import RemoteMemory.Proofs.Arena.Guards
import RemoteMemory.Proofs.Arena.Tags
import RemoteMemory.Proofs.Client.History
import RemoteMemory.Proofs.Client.Requests
import RemoteMemory.Proofs.Notice
import RemoteMemory.Proofs.Registry.History
import RemoteMemory.Proofs.Server.Faults
import RemoteMemory.Proofs.Server.Isolation
import RemoteMemory.Proofs.Server.Lockstep
import RemoteMemory.Proofs.Session.Visits
import RemoteMemory.Proofs.Stream.RoundTrip
import RemoteMemory.Proofs.Server.Reclaim
import RemoteMemory.Proofs.Server.Replies
import RemoteMemory.Session
import RemoteMemory.Proofs.Arena.Slots
import RemoteMemory.Proofs.Server.Effects
import RemoteMemory.Proofs.Client.Reading
import RemoteMemory.Proofs.Stream.Grammar
