import RemoteMemory.Proofs.Session.Refinement

/-!
# Visits give what the ideal machine gives

One call after another, and one visit after another, a session and the ideal machine stay together.
So from the start of a server, whatever clients come and whatever they call, the outcomes are those
of the ideal machine, every connection ends well, and the blocks left on the server are those left
behind.
-/

namespace RemoteMemory.Session

open Client (Call)
open Server (FlatMap State)

variable {rules : Rules} {client : Client} {session : Session} {ideal : Ideal} {flat : FlatMap}

def holdings (state : State) : Multiset Holding :=
  NumberMap.bindings (State.bytesOf state.arena) state.handles.entries

theorem matches_call (tracks : Tracks rules client ideal)
    (backs : Backs rules.server session ideal flat) (hmax : rules.server.maxHandles < 2 ^ 32)
    {calls : Nat} (hgrants : Suffices rules.grants ideal.nextNumber (calls + 1)) (call : Call) :
    Matches rules ((client.call call).run? (exchange rules.client.payloadBound) session)
      (ideal.call rules call) := by
  cases call with
  | ping => exact matches_ping tracks backs hmax
  | alloc size => exact matches_alloc tracks backs hmax hgrants size
  | free token => exact matches_free tracks backs hmax token
  | write token data => exact matches_write tracks backs hmax token data
  | read token count => exact matches_read tracks backs hmax token count
  | size token =>
      rw [Client.call, Ideal.call, tracks.size_lookup token]
      exact .finished tracks backs
  | shadow token =>
      rw [Client.call, Ideal.call, tracks.shadow_lookup token]
      exact .finished tracks backs

theorem nextNumber_call_le (rules : Rules) (ideal : Ideal) (call : Call) :
    (ideal.call rules call).2.nextNumber.toNat ≤ ideal.nextNumber.toNat + 1 := by
  have hstep : (ideal.nextNumber + 1).toNat ≤ ideal.nextNumber.toNat + 1 := by
    rw [UInt64.toNat_add, UInt64.toNat_one]
    exact Nat.mod_le _ _
  cases call <;> dsimp only [Ideal.call, Ideal.ping, Ideal.alloc, Ideal.free, Ideal.write,
    Ideal.read] <;> repeat' split
  all_goals first | exact hstep | exact Nat.le_succ _

/-- The calls of a visit have the outcomes of the ideal machine and leave the two together. -/
theorem callAll_eq (tracks : Tracks rules client ideal)
    (backs : Backs rules.server session ideal flat) (hmax : rules.server.maxHandles < 2 ^ 32)
    {calls : List Call} {more : Nat}
    (hgrants : Suffices rules.grants ideal.nextNumber (calls.length + more)) :
    (callAll client session calls).1 = (ideal.callAll rules calls).1 ∧
      Suffices rules.grants (ideal.callAll rules calls).2.nextNumber more ∧
      ∃ last, Backs rules.server (callAll client session calls).2 (ideal.callAll rules calls).2
        last := by
  induction calls generalizing client session ideal flat with
  | nil =>
      rw [List.length_nil, Nat.zero_add] at hgrants
      exact ⟨rfl, hgrants, flat, backs⟩
  | cons call rest ih =>
      rw [List.length_cons, Nat.add_right_comm] at hgrants
      have hmatch := matches_call tracks backs hmax hgrants call
      have hnext := hgrants.step (nextNumber_call_le rules ideal call)
      rw [callAll, Ideal.callAll, tracks.config_eq]
      generalize (client.call call).run? (exchange rules.client.payloadBound) session = real
        at hmatch ⊢
      generalize ideal.call rules call = expected at hmatch hnext ⊢
      cases hmatch with
      | finished tracks' backs' =>
          obtain ⟨houtcomes, hmore, hlast⟩ := ih tracks' backs' hnext
          refine ⟨?_, hmore, hlast⟩
          dsimp only
          rw [houtcomes, tracks'.follows.count_eq]
      | stalled backs' => exact ⟨rfl, hnext.mono (Nat.le_add_left _ _), _, backs'⟩

/-! ## Visits -/

section Visits

variable {config : Server.Config} {grants : Option Nat} {state : State}

/-- Whoever comes finds an empty cache, and a server that shows the blocks left behind. -/
theorem agree_of_welcome (grants : Option Nat) (hshows : State.Shows config state flat)
    (hnumber : flat.next = ideal.nextNumber) (hlive : flat.blocks.entries = ideal.live)
    (limits : Client.Config) :
    Tracks ⟨config, limits, grants⟩ (.ofConfig limits) ideal.welcome ∧
      Backs config (ofState state config.payloadBound) ideal.welcome flat := by
  have hpos : 1 ≤ ideal.nextNumber.toNat := by
    rw [← hnumber, hshows.next_eq]
    exact UInt64.lt_iff_toNat_lt.mp hshows.coupled.handles.next_pos
  refine ⟨?_, serves_ofState hshows, hnumber, hlive.trans ideal.live_welcome.symm⟩
  exact {
    config_eq := rfl
    numbered := Registry.wellNumbered_empty _
    limit_eq := rfl
    next_eq := rfl
    token_le := hpos
    follows := rfl
    size_eq := fun pair hpair => absurd hpair List.not_mem_nil
    size_le := fun pair hpair => absurd hpair List.not_mem_nil }

structure Fulfils (config : Server.Config) (grants : Option Nat) (ideal : Ideal)
    (visits : List Visit) (real : List Record × State) : Prop where
  outcomes_eq : real.1.map (fun record => (record.outcomes, record.served)) =
    (ideal.serveAll config grants visits).1
  result_eq : ∀ record ∈ real.1, record.result = .ok ()
  holdings_eq : holdings real.2 = (ideal.serveAll config grants visits).2.live

theorem fulfils_serveAll (hmax : config.maxHandles < 2 ^ 32)
    (hshows : State.Shows config state flat) (hnumber : flat.next = ideal.nextNumber)
    (hlive : flat.blocks.entries = ideal.live) {visits : List Visit}
    (hgrants : Suffices grants ideal.nextNumber (visits.map fun visit => visit.calls.length).sum) :
    Fulfils config grants ideal visits (serveAll state config.payloadBound visits) := by
  induction visits generalizing state ideal flat with
  | nil =>
      exact ⟨rfl, fun record hrecord => absurd hrecord List.not_mem_nil,
        hshows.follows.symm.trans hlive⟩
  | cons visit rest ih =>
      rw [List.map_cons, List.sum_cons] at hgrants
      obtain ⟨tracks, backs⟩ := agree_of_welcome grants hshows hnumber hlive visit.config
      obtain ⟨houtcomes, hmore, last, hlast⟩ := callAll_eq tracks backs hmax hgrants
      obtain ⟨connection, hrun, hserved, hshows'⟩ := hlast.serves.run
      have hrest := ih hshows' hlast.number_eq hlast.live_eq hmore
      have hserve : serve state config.payloadBound visit =
          ({ outcomes := (callAll (.ofConfig visit.config) (ofState state config.payloadBound)
              visit.calls).1
             result := .ok ()
             served := connection.served
             stats := connection.state.stats }, connection.state) := by
        rw [serve]
        dsimp only
        rw [hrun]
      rw [serveAll, hserve]
      exact {
        outcomes_eq := congrArg₂ List.cons (Prod.ext houtcomes hserved) hrest.outcomes_eq
        result_eq := List.forall_mem_cons.mpr ⟨rfl, hrest.result_eq⟩
        holdings_eq := hrest.holdings_eq }

end Visits

/-- Whatever clients come to a new server and whatever they call, they get what the ideal machine
gives; it may run out of numbers for blocks after 2 ^ 64 - 2 of them, or not at all if there are no
more calls than that. -/
theorem serveAll_ofConfig (config : Server.Config) (hmax : config.maxHandles < 2 ^ 32)
    (visits : List Visit) :
    Fulfils config (some (2 ^ 64 - 2)) {} visits
        (serveAll (.ofConfig config) config.payloadBound visits) ∧
      ((visits.map fun visit => visit.calls.length).sum ≤ 2 ^ 64 - 2 →
        Fulfils config none {} visits
          (serveAll (.ofConfig config) config.payloadBound visits)) := by
  have hshows := State.shows_ofConfig config
  refine ⟨fulfils_serveAll hmax hshows rfl rfl (.inl rfl), fun hcalls => ?_⟩
  have hone : (1 : UInt64).toNat = 1 := rfl
  refine fulfils_serveAll hmax hshows rfl rfl (.inr ⟨rfl, ?_⟩)
  change (1 : UInt64).toNat + _ ≤ _
  omega

/-- The first client asks for more than the server takes and is left waiting. The second finds its
block in the way, fills its own cache, and does not get at the block of the first. -/
theorem serveAll_ofConfig_of_two_clients :
    1024 < 2 ^ 32 ∧
      (serveAll (.ofConfig { payloadBound := 6, memoryLimit := some 8 }) 6
        [⟨{}, [.alloc 4, .write ⟨1⟩ ⟨#[1, 2]⟩, .read ⟨1⟩ 3, .alloc 7, .ping]⟩,
          ⟨{ maxEntries := 1 }, [.alloc 5, .alloc 3, .alloc 1, .read ⟨2⟩ 1, .free ⟨1⟩]⟩]).1.map
        (fun record => (record.outcomes, record.served)) =
        [([.finished (.ok (.granted ⟨1⟩)) 1, .finished (.ok .done) 1,
            .finished (.ok (.data ⟨#[1, 2, 0]⟩)) 1, .stalled], 3),
          ([.finished (.error (.rejected .alloc 0)) 0, .finished (.ok (.granted ⟨1⟩)) 1,
            .finished (.error .tableFull) 1, .finished (.error (.notFound 2)) 1,
            .finished (.ok .done) 0], 5)] := by
  refine ⟨by decide, ?_⟩
  have hfulfils := (serveAll_ofConfig { payloadBound := 6, memoryLimit := some 8 } (by decide)
    [⟨{}, [.alloc 4, .write ⟨1⟩ ⟨#[1, 2]⟩, .read ⟨1⟩ 3, .alloc 7, .ping]⟩,
      ⟨{ maxEntries := 1 }, [.alloc 5, .alloc 3, .alloc 1, .read ⟨2⟩ 1, .free ⟨1⟩]⟩]).2 (by decide)
  exact hfulfils.outcomes_eq.trans rfl

end RemoteMemory.Session
