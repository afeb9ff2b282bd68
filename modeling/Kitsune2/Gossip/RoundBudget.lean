import Kitsune2.Dht.Spending
import Kitsune2.Gossip.Tasks

/-!
# RoundBudget — the op data a node offers in a round

A peer announces how much op data it takes in a round, and a node has a limit of its own.  For each
of its rounds a tally keeps what the peer has announced and the data of the op ids that the node has
offered: the new ops that go with an accept or with the answer to one, and the lists that come out of
comparing snapshots.  The tallies only watch; what the node does is `Running.step`.

New ops are asked of the op store within the limit that the peer has announced, and not within the
smaller of both, and what is left is kept as an `i32`.  So a round keeps to its budget as long as the
op store has no more new ops than the node's own limit allows and the numbers stay below `2 ^ 31`.
-/

namespace Kitsune2
namespace Gossip

open Api Lib Dht

variable {Url : Type} [DecidableEq Url]

/-! ## Tallies -/

/-- What the peer of a round has announced to take, and the data of the op ids offered to it. -/
structure Tally where
  announced : Nat
  offered : Nat
  deriving DecidableEq, Repr

/-- The most that may be offered in a round. -/
def Tally.limit (config : K2GossipConfig) (t : Tally) : Nat :=
  min config.maxRequestGossipOpBytes t.announced

def Tally.offer (t : Tally) (bytes : Nat) : Tally :=
  { t with offered := t.offered + bytes }

/-- The op ids that a message offers. -/
def GossipMessage.opIds : GossipMessage → List Bytes
  | .accept m => m.newOps
  | .noDiff m => (m.acceptResponse.map fun r => r.newOps).getD []
  | .discSectorsDiff m => (m.acceptResponse.map fun r => r.newOps).getD []
  | .ringSectorDetailsDiff m => (m.acceptResponse.map fun r => r.newOps).getD []
  | .discSectorDetailsDiffResponse m => m.missingIds
  | .ringSectorDetailsDiffResponse m => m.missingIds
  | .hashes m => m.missingIds
  | _ => []

/-- The data that the answer of a handler offers. -/
def offeredBytes (size : Bytes → Nat) : Except K2GossipError (Option GossipMessage) → Nat
  | .ok (some msg) => bytesOf size msg.opIds
  | _ => 0

/-- Is the message answered with ids of the initiated round? -/
def GossipMessage.toInitiator : GossipMessage → Bool
  | .discSectorDetailsDiff _ => true
  | .ringSectorDetailsDiffResponse _ => true
  | _ => false

/-- A node with a tally for each of its rounds. -/
structure Offering (Url : Type) where
  running : Running Url
  initiated : Tally
  accepted : Url → Tally

namespace Offering

section Steps

variable (size : Bytes → Nat) (loc : LocCb)

/-- The round takes an accept message. -/
def takesAccept (g : K2Gossip Url) (peer : Url) (accept : AcceptMessage) : Bool :=
  (checkSlot .accept g.initiatedRoundState fun state => state.validateAccept peer accept).isOk

/-- What a step of a task adds to the tallies. -/
def book (s : Offering Url) (host : Host) : Task Url → Offering Url
  | .received _ (.initiate _) => s
  | .received peer (.accept accept) =>
      if takesAccept s.running.g peer accept then
        { s with initiated :=
            { announced := accept.maxOpDataBytes
              offered := s.initiated.offered +
                offeredBytes size (respond loc host peer (.accept accept) s.running.g).1 } }
      else s
  | .received peer msg =>
      let bytes := offeredBytes size (respond loc host peer msg s.running.g).1
      if msg.toInitiator then { s with initiated := s.initiated.offer bytes }
      else { s with accepted := Function.update s.accepted peer ((s.accepted peer).offer bytes) }
  | .admitted peer initiate =>
      let after := acceptInitiate host peer initiate s.running.g
      -- a new round begins if there was none with the peer
      if (s.running.g.acceptedRoundStates.lookup peer).isNone &&
          (after.2.acceptedRoundStates.lookup peer).isSome then
        let tally : Tally :=
          { announced := initiate.maxOpDataBytes, offered := offeredBytes size after.1 }
        { s with accepted := Function.update s.accepted peer tally }
      else s
  | _ => s

/-- One event: the node takes its step, and the tallies follow. -/
def step (s : Offering Url) (e : Event Url) : Offering Url :=
  match e with
  | .receive _ _ => { s with running := s.running.step loc e }
  | .advance i host _ =>
      match s.running.tasks[i]? with
      | none => s
      | some t => { book size loc s host t with running := s.running.step loc e }
  | .initiate host sessionId tieBreaker target =>
      let after := (initiateGossip host sessionId tieBreaker target s.running.g).2
      -- the peer of a round that begins now has announced nothing yet
      { s with
        running := s.running.step loc e
        initiated :=
          if s.running.g.initiatedRoundState.isNone && after.initiatedRoundState.isSome then
            { announced := 0, offered := 0 }
          else s.initiated }
  | .timeout _ _ => { s with running := s.running.step loc e }

/-- A node that has not gossiped yet. -/
def start (config : K2GossipConfig) : Offering Url where
  running := Running.start config
  initiated := { announced := 0, offered := 0 }
  accepted := fun _ => { announced := 0, offered := 0 }

/-- The node and its tallies after a run. -/
def run (config : K2GossipConfig) (events : List (Event Url)) : Offering Url :=
  events.foldl (step size loc) (start config)

/-- The tallies do not interfere with the node. -/
theorem step_running (s : Offering Url) (e : Event Url) :
    (s.step size loc e).running = s.running.step loc e := by
  cases e with
  | receive peer msg => rfl
  | initiate host sessionId tieBreaker target => rfl
  | timeout host locked => rfl
  | advance i host recorded =>
      unfold step
      dsimp only
      split
      · rename_i hnone
        unfold Running.step
        dsimp only
        rw [hnone]
      · rfl

theorem run_running (config : K2GossipConfig) (events : List (Event Url)) :
    (run size loc config events).running = Running.run loc (Running.start config) events := by
  unfold run Running.run
  have hfold : ∀ (events : List (Event Url)) (s : Offering Url),
      (events.foldl (step size loc) s).running = events.foldl (Running.step loc) s.running := by
    intro events
    induction events with
    | nil => exact fun s => rfl
    | cons e events ih =>
        intro s
        rw [List.foldl_cons, List.foldl_cons, ih, step_running]
  exact hfold events (start config)

end Steps

end Offering

/-! ## Operations on the budget -/

/-- The operations of a computation, as far as it gets. -/
def computesOf {ε : Type} : Except ε (List Computed) → List Computed
  | .ok l => l
  | .error _ => []

section Operations

variable (loc : LocCb) (host : Host)

/-- `max_new_bytes - used_bytes` and `used_bytes += used` for each arc. -/
def newOpsComputes (newSince : Int) (maxNewBytes : Nat) : List DhtArc → Nat → List Computed
  | [], _ => []
  | arc :: arcs, usedBytes =>
      .u32 (maxNewBytes - usedBytes) ::
        match host.retrieveOpIdsBounded arc newSince (subU32 maxNewBytes usedBytes) with
        | .ok (_, used, _) =>
            .u32 (usedBytes + used) ::
              newOpsComputes newSince maxNewBytes arcs (wrapAddU32 usedBytes used)
        | .error _ => []

/-- `peer_max_op_data_bytes -= used_bytes as i32`. -/
def spendComputes (peerMaxOpDataBytes : Int) (usedBytes : Nat) : List Computed :=
  [.i32 usedBytes, .i32 (peerMaxOpDataBytes - toI32 usedBytes)]

/-- A snapshot is handled within what is left, and what it uses is subtracted. -/
def snapshotComputes (theirSnapshot : DhtSnapshot) (ourPreviousSnapshot : Option DhtSnapshot)
    (arcSet : ArcSet) (peerMaxOpDataBytes : Int) : List Computed :=
  host.dht.handleSnapshotComputes loc peerMaxOpDataBytes theirSnapshot ourPreviousSnapshot arcSet ++
    computesOf ((host.dht.handleSnapshot loc theirSnapshot ourPreviousSnapshot arcSet
      peerMaxOpDataBytes).map fun out => spendComputes peerMaxOpDataBytes out.2)

/-- The arcs that an acceptor has in common with the initiator. -/
def acceptorArcSet (initiate : InitiateMessage) : Except Fault ArcSet :=
  match initiate.arcSet with
  | some value => do
      let otherArcSet ← ArcSet.decode value
      let (_, ourArcSet) ← localAgentState host
      pure (ourArcSet.intersection otherArcSet)
  | none => .error (.k2 "no arc set in initiate message")

/-- The arcs that an initiator has in common with the acceptor. -/
def initiatorArcSet (ourArcSet : ArcSet) (accept : AcceptMessage) : Except Fault ArcSet :=
  match accept.arcSet with
  | some value => (ArcSet.decode value).map fun otherArcSet => otherArcSet.intersection ourArcSet
  | none => .error (.k2 "no arc set in accept message")

/-- A round that is accepted: the budget of the new state, the new ops, and what is left. -/
def acceptorComputes (config : K2GossipConfig) (initiate : InitiateMessage) (arcSet : ArcSet) :
    List Computed :=
  let limit := min config.maxRequestGossipOpBytes initiate.maxOpDataBytes
  .i32 limit :: (newOpsComputes host initiate.newSince initiate.maxOpDataBytes arcSet.asArcs 0 ++
    computesOf ((retrieveNewOpIds host arcSet initiate.newSince initiate.maxOpDataBytes).map
      fun out => spendComputes (toI32 limit) out.2.1))

/-- An accept message: the new ops, and what is left, which is a `u32` until it is kept. -/
def initiatorComputes (config : K2GossipConfig) (accept : AcceptMessage) (arcSet : ArcSet) :
    List Computed :=
  let limit := min config.maxRequestGossipOpBytes accept.maxOpDataBytes
  newOpsComputes host accept.newSince accept.maxOpDataBytes arcSet.asArcs 0 ++
    computesOf ((retrieveNewOpIds host arcSet accept.newSince accept.maxOpDataBytes).map fun out =>
      [.u32 (limit - out.2.1), .i32 (subU32 limit out.2.1)])

/-- The operations on budgets in a step of a task. -/
def Task.computes (g : K2Gossip Url) : Task Url → List Computed
  | .admitted _ initiate =>
      computesOf ((acceptorArcSet host initiate).map fun arcSet =>
        acceptorComputes host g.config initiate arcSet)
  | .received peer (.accept accept) => computesOf (do
      let (_, initiated) ←
        checkSlot .accept g.initiatedRoundState fun state => state.validateAccept peer accept
      let arcSet ← (initiatorArcSet initiated.ourArcSet accept).mapError .k2
      pure (initiatorComputes host g.config accept arcSet))
  | .received peer (.discSectorDetailsDiff m) => computesOf (do
      let (state, commonArcSet, snapshot) ←
        checkSlot .discSectorDetailsDiff g.initiatedRoundState fun state =>
          state.validateDiscSectorDetailsDiff peer m
      let theirSnapshot ← snapshot.toSnapshot.mapError .k2
      pure (snapshotComputes loc host theirSnapshot none commonArcSet state.peerMaxOpDataBytes))
  | .received peer (.discSectorDetailsDiffResponse m) => computesOf (do
      let (state, details, snapshot) ←
        checkSlot .discSectorDetailsDiffResponse (g.acceptedRoundStates.lookup peer) fun state =>
          state.validateDiscSectorDetailsDiffResponse peer m
      let theirSnapshot ← snapshot.toSnapshot.mapError .k2
      pure (snapshotComputes loc host theirSnapshot (some details.snapshot) details.commonArcSet
        state.peerMaxOpDataBytes))
  | .received peer (.ringSectorDetailsDiff m) => computesOf (do
      let (state, accepted, _, snapshot) ←
        checkSlot .ringSectorDetailsDiff (g.acceptedRoundStates.lookup peer) fun state =>
          state.validateRingSectorDetailsDiff peer m
      let theirSnapshot ← snapshot.toSnapshot.mapError .k2
      pure (snapshotComputes loc host theirSnapshot none accepted.commonArcSet
        state.peerMaxOpDataBytes))
  | .received peer (.ringSectorDetailsDiffResponse m) => computesOf (do
      let (state, details, snapshot) ←
        checkSlot .ringSectorDetailsDiffResponse g.initiatedRoundState fun state =>
          state.validateRingSectorDetailsDiffResponse peer m
      let theirSnapshot ← snapshot.toSnapshot.mapError .k2
      pure (snapshotComputes loc host theirSnapshot (some details.snapshot) details.commonArcSet
        state.peerMaxOpDataBytes))
  | _ => []

end Operations

/-- No operation on a budget leaves its type in the step of the event. -/
def Offering.Exact (loc : LocCb) (s : Offering Url) : Event Url → Prop
  | .advance i host _ =>
      ∀ t, s.running.tasks[i]? = some t → ∀ c ∈ t.computes loc host s.running.g, c.Fits
  | _ => True

/-! ## What the op store owes -/

/-- The op store answers with the ids and the data it says, within the limit. -/
structure Host.StoresBy (size : Bytes → Nat) (host : Host) : Prop where
  bounded : ∀ arc start limit opIds used bookmark,
    host.retrieveOpIdsBounded arc start limit = .ok (opIds, used, bookmark) →
      used = bytesOf size opIds ∧ used ≤ limit
  sized : host.dht.store.SizedBy size

def Event.StoresBy (size : Bytes → Nat) : Event Url → Prop
  | .advance _ host _ => host.StoresBy size
  | _ => True

/-- The data of the new ops that the store gives for the arcs, each of them asked within what the
arcs before it have left of the limit. -/
def newOpBytes (host : Host) (newSince : Int) : List DhtArc → Nat → Option Nat
  | [], _ => some 0
  | arc :: arcs, limit =>
      match host.retrieveOpIdsBounded arc newSince limit with
      | .ok (_, used, _) => (newOpBytes host newSince arcs (limit - used)).map fun rest => used + rest
      | .error _ => none

section NewOps

variable {size : Bytes → Nat} {host : Host} {newSince : Int} {limit : Nat}

/-- The loop over the arcs, from any point on. -/
theorem retrieveNewOpIds_loop (hhost : host.StoresBy size) (hlimit : limit < 2 ^ 32) :
    ∀ (arcs : List DhtArc) (opIds : List Bytes) (used : Nat) (bookmark : Int)
      (out : List Bytes × Nat × Int), used = bytesOf size opIds → used ≤ limit →
      arcs.foldlM (fun (sendNewOps, usedBytes, sendNewBookmark) arc => do
        let (newOps, used, newBookmark) ←
          host.retrieveOpIdsBounded arc newSince (subU32 limit usedBytes)
        pure (sendNewOps ++ newOps, wrapAddU32 usedBytes used, min newBookmark sendNewBookmark))
        (opIds, used, bookmark) = .ok out →
      out.2.1 = bytesOf size out.1 ∧ out.2.1 ≤ limit ∧
        ∃ more, newOpBytes host newSince arcs (limit - used) = some more ∧ out.2.1 = used + more := by
  intro arcs
  induction arcs with
  | nil =>
      intro opIds used bookmark out hexact hwithin h
      cases h
      exact ⟨hexact, hwithin, 0, rfl, rfl⟩
  | cons arc arcs ih =>
      intro opIds used bookmark out hexact hwithin h
      rw [List.foldlM_cons] at h
      rcases bind_eq_ok_iff.mp h with ⟨next, hnext, h⟩
      rcases bind_eq_ok_iff.mp hnext with ⟨⟨newOps, here, newBookmark⟩, hquery, hnext⟩
      cases hnext
      rw [subU32_of_le hlimit hwithin] at hquery
      rcases hhost.bounded _ _ _ _ _ _ hquery with ⟨hhere, hleft⟩
      -- both sums stay within the limit, so the addition does not wrap
      have hsum : wrapAddU32 used here = used + here := by
        unfold wrapAddU32
        exact Nat.mod_eq_of_lt (by omega)
      rw [hsum] at h
      have hexact' : used + here = bytesOf size (opIds ++ newOps) := by
        rw [bytesOf_append, hexact, hhere]
      rcases ih _ _ _ _ hexact' (by omega) h with ⟨hout, hle, more, hmore, htotal⟩
      refine ⟨hout, hle, here + more, ?_, by omega⟩
      have hrest : limit - used - here = limit - (used + here) := by omega
      simp only [newOpBytes, hquery, hrest, hmore, Option.map_some]

theorem retrieveNewOpIds_spec (hhost : host.StoresBy size) (hlimit : limit < 2 ^ 32)
    {arcSet : ArcSet} {opIds : List Bytes} {used : Nat} {bookmark : Int}
    (h : retrieveNewOpIds host arcSet newSince limit = .ok (opIds, used, bookmark)) :
    used = bytesOf size opIds ∧ used ≤ limit ∧
      newOpBytes host newSince arcSet.asArcs limit = some used := by
  rcases retrieveNewOpIds_loop hhost hlimit arcSet.asArcs [] 0 host.now _ rfl (Nat.zero_le _) h
    with ⟨hexact, hle, more, hmore, htotal⟩
  have hsame : used = more := htotal.trans (Nat.zero_add more)
  exact ⟨hexact, hle, hsame ▸ hmore⟩

/-- The store keeps to the limit over all arcs. -/
theorem newOpBytes_le (hhost : host.StoresBy size) :
    ∀ (arcs : List DhtArc) (limit used : Nat), newOpBytes host newSince arcs limit = some used →
      used ≤ limit := by
  intro arcs
  induction arcs with
  | nil =>
      intro limit used h
      cases h
      exact Nat.zero_le _
  | cons arc arcs ih =>
      intro limit used h
      unfold newOpBytes at h
      split at h
      · rename_i opIds here bookmark hquery
        have hhere := (hhost.bounded _ _ _ _ _ _ hquery).2
        rcases Option.map_eq_some_iff.mp h with ⟨more, hmore, rfl⟩
        have hrest := ih _ _ hmore
        omega
      · cases h

/-- Asking for new ops is exact, whatever the limit is. -/
theorem newOpsComputes_fit (hhost : host.StoresBy size) (hlimit : limit < 2 ^ 32) :
    ∀ (arcs : List DhtArc) (used : Nat), used ≤ limit →
      ∀ c ∈ newOpsComputes host newSince limit arcs used, c.Fits := by
  intro arcs
  induction arcs with
  | nil =>
      intro used _ c hc
      cases hc
  | cons arc arcs ih =>
      intro used hwithin c hc
      have hleft : (Computed.u32 (limit - used)).Fits := ⟨by omega, by omega⟩
      unfold newOpsComputes at hc
      rcases List.mem_cons.mp hc with rfl | hc
      · exact hleft
      rw [subU32_of_le hlimit hwithin] at hc
      split at hc
      · rename_i newOps here bookmark hquery
        have hle := (hhost.bounded _ _ _ _ _ _ hquery).2
        have hsum : wrapAddU32 used here = used + here := by
          unfold wrapAddU32
          exact Nat.mod_eq_of_lt (by omega)
        rcases List.mem_cons.mp hc with rfl | hc
        · exact ⟨by omega, by omega⟩
        · rw [hsum] at hc
          exact ih _ (by omega) c hc
      · cases hc

end NewOps

/-! ## When a step is affordable -/

/-- The new ops of the store do not go beyond the node's own limit, and the number that is left of
the budget is one of `i32`.

In a step that compares detailed snapshots, no slice is so large that its data would leave `i32`
together with the budget. -/
def Task.Affordable (loc : LocCb) (host : Host) (g : K2Gossip Url) : Task Url → Prop
  | .admitted _ initiate =>
      initiate.maxOpDataBytes < 2 ^ 32 ∧
        min g.config.maxRequestGossipOpBytes initiate.maxOpDataBytes < 2 ^ 31 ∧
        -- what the new ops took by the announced limit stays within our own
        ∀ arcSet used, acceptorArcSet host initiate = .ok arcSet →
          newOpBytes host initiate.newSince arcSet.asArcs initiate.maxOpDataBytes = some used →
          used ≤ g.config.maxRequestGossipOpBytes
  | .received _ (.accept accept) =>
      accept.maxOpDataBytes < 2 ^ 32 ∧
        ∀ state ourAgents ourArcSet tieBreaker arcSet used, g.initiatedRoundState = some state →
          state.stage = .initiated ourAgents ourArcSet tieBreaker →
          initiatorArcSet ourArcSet accept = .ok arcSet →
          newOpBytes host accept.newSince arcSet.asArcs accept.maxOpDataBytes = some used →
          used ≤ g.config.maxRequestGossipOpBytes ∧
            min g.config.maxRequestGossipOpBytes accept.maxOpDataBytes < 2 ^ 31 + used
  | .received _ (.discSectorDetailsDiff _) =>
      ∀ state, g.initiatedRoundState = some state →
        host.dht.SlicesFit loc state.peerMaxOpDataBytes
  | .received _ (.ringSectorDetailsDiffResponse _) =>
      ∀ state, g.initiatedRoundState = some state →
        host.dht.SlicesFit loc state.peerMaxOpDataBytes
  | .received peer (.discSectorDetailsDiffResponse _) =>
      ∀ state, g.acceptedRoundStates.lookup peer = some state →
        host.dht.SlicesFit loc state.peerMaxOpDataBytes
  | .received peer (.ringSectorDetailsDiff _) =>
      ∀ state, g.acceptedRoundStates.lookup peer = some state →
        host.dht.SlicesFit loc state.peerMaxOpDataBytes
  | _ => True

def Offering.Affordable (loc : LocCb) (s : Offering Url) : Event Url → Prop
  | .advance i host _ =>
      ∀ t, s.running.tasks[i]? = some t → t.Affordable loc host s.running.g
  | _ => True

end Gossip
end Kitsune2
