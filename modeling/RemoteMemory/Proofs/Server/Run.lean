import RemoteMemory.Server.State

/-!
# Runs of a server

A server meets requests, and now and then all its blocks are reclaimed. The handles of a server
have no order, so reclaiming goes through them in any order, and a run is a relation: it says which
answers may come from a sequence of events, and in which state they may leave the server.
-/

namespace RemoteMemory.Server

inductive Event where
  | request (message : Message)
  | reclaimAll

/-- What a server makes of an event: a response, or the number of blocks reclaimed. -/
inductive Answer where
  | response (message : Message)
  | reclaimed (count : Nat)

namespace State

inductive Step : State → Event → Answer → State → Prop where
  | request (state : State) (message : Message) :
      Step state (.request message) (.response (state.dispatch message).1)
        (state.dispatch message).2
  | reclaimAll {state : State} {order : List (UInt64 × Mapping)}
      (h : order.Perm state.handles.entries) :
      Step state .reclaimAll (.reclaimed order.length) (state.reclaimInOrder order)

inductive Run : State → List Event → List Answer → State → Prop where
  | nil (state : State) : Run state [] [] state
  | cons {state middle last : State} {event : Event} {answer : Answer} {events : List Event}
      {answers : List Answer} (step : Step state event answer middle)
      (rest : Run middle events answers last) : Run state (event :: events) (answer :: answers) last

/-- The states that a server with some limits can come to. -/
def Reachable (config : Config) (state : State) : Prop :=
  ∃ events answers, Run (.ofConfig config) events answers state

/-- What every step keeps holds at the end of a run. -/
theorem Run.invariant {Holds : State → Prop}
    (keep : ∀ {state next : State} {event : Event} {answer : Answer},
      Holds state → Step state event answer next → Holds next)
    {state last : State} {events : List Event} {answers : List Answer}
    (run : Run state events answers last) (start : Holds state) : Holds last := by
  induction run with
  | nil state => exact start
  | cons step rest ih => exact ih (keep start step)

/-- One of the runs: it reclaims the newest handle first. -/
def perform (state : State) : List Event → List Answer × State
  | [] => ([], state)
  | .request message :: rest =>
    let (response, state) := state.dispatch message
    let (answers, last) := state.perform rest
    (.response response :: answers, last)
  | .reclaimAll :: rest =>
    let (count, state) := state.releaseAll
    let (answers, last) := state.perform rest
    (.reclaimed count :: answers, last)

theorem run_perform (state : State) (events : List Event) :
    Run state events (state.perform events).1 (state.perform events).2 := by
  induction events generalizing state with
  | nil => exact .nil state
  | cons event rest ih =>
      cases event with
      | request message => exact .cons (.request state message) (ih _)
      | reclaimAll => exact .cons (.reclaimAll (List.Perm.refl _)) (ih _)

theorem reachable_perform (config : Config) (events : List Event) :
    Reachable config ((ofConfig config).perform events).2 :=
  ⟨events, _, run_perform _ events⟩

end State

end RemoteMemory.Server
