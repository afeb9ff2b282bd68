import Kitsune2.Dht.Dht
import Kitsune2.Gossip.Protocol
import Kitsune2.Lib.Retain

/-!
# State — what a gossip module keeps, and what it asks its host

A node has at most one round that it initiated, one accepted round for each peer, and a few values in
the peer meta store for each peer.  Everything else a handler needs (the clock, the peer and op
stores, the DHT, the transport) is asked of a `Host`, which answers as it likes in every call.

Unsigned and signed 32-bit arithmetic wraps, as in a release build.
-/

namespace Kitsune2
namespace Gossip

open Api Lib Dht

/-! ## Rounds -/

structure K2GossipConfig where
  maxGossipOpBytes : Nat
  maxRequestGossipOpBytes : Nat
  initiateIntervalMs : Nat
  initiateBurstFactor : Nat
  initiateBurstWindowCount : Nat
  roundTimeoutMs : Nat
  maxConcurrentAcceptedRounds : Nat
  deriving DecidableEq, Repr

inductive RoundStage
  | initiated (ourAgents : List Bytes) (ourArcSet : ArcSet) (tieBreaker : Nat)
  | accepted (ourAgents : List Bytes) (commonArcSet : ArcSet)
  | noDiff
  | discSectorsDiff (commonArcSet : ArcSet)
  | discSectorDetailsDiff (commonArcSet : ArcSet) (snapshot : DhtSnapshot)
  | ringSectorDetailsDiff (commonArcSet : ArcSet) (snapshot : DhtSnapshot)
  deriving DecidableEq

structure GossipRoundState (Url : Type) where
  sessionWithPeer : Url
  startedAt : Nat
  sessionId : Bytes
  /-- The op data the peer may still be offered ids for. -/
  peerMaxOpDataBytes : Int
  stage : RoundStage
  deriving DecidableEq

/-! ## Arithmetic -/

/-- `x as i32` of an integer. -/
def toI32 (x : Int) : Int :=
  Int.bmod x (2 ^ 32)

/-- `a - b` in `u32`. -/
def subU32 (a b : Nat) : Nat :=
  (a + (2 ^ 32 - b)) % 2 ^ 32

/-- `a + b` in `u32`. -/
def wrapAddU32 (a b : Nat) : Nat :=
  (a + b) % 2 ^ 32

theorem subU32_of_le {a b : Nat} (ha : a < 2 ^ 32) (hb : b ≤ a) : subU32 a b = a - b := by
  unfold subU32
  rw [show a + (2 ^ 32 - b) = (a - b) + 2 ^ 32 by omega, Nat.add_mod_right]
  exact Nat.mod_eq_of_lt (by omega)

theorem toI32_of_fits {x : Int} (hlow : -(2 ^ 31) ≤ x) (hhigh : x < 2 ^ 31) : toI32 x = x := by
  unfold toI32
  exact Int.bmod_eq_of_le (by omega) (by omega)

/-! ## Errors -/

inductive MessageKind
  | initiate
  | accept
  | noDiff
  | discSectorsDiff
  | discSectorDetailsDiff
  | discSectorDetailsDiffResponse
  | ringSectorDetailsDiff
  | ringSectorDetailsDiffResponse
  | hashes
  | agents
  | busy
  | terminate
  deriving DecidableEq, Repr

/-- What a peer is blamed for. -/
inductive PeerBehavior
  | initiateTooSoon
  | initiateDuringRound
  | noArcSet
  | unsolicited (kind : MessageKind)
  | wrongPeer (kind : MessageKind)
  | sessionIdMismatch (kind : MessageKind)
  | noSnapshot (kind : MessageKind)
  | noAcceptResponse (kind : MessageKind)
  | undeclaredAgents (kind : MessageKind)
  | sectorNotCommon (kind : MessageKind)
  | unexpectedStage (kind : MessageKind)
  deriving DecidableEq, Repr

inductive K2GossipError
  | peerBehavior (ctx : PeerBehavior)
  | k2 (fault : Fault)
  deriving DecidableEq, Repr

/-! ## The node -/

/-- The values of the peer meta store for one peer.  Each is stored with an expiry: ten minutes for the
last gossip timestamp, an hour for errors and refusals, a day for the others.  A store may drop a value
after that; here the values stay, and a reading that depends on the expiry says so itself. -/
structure PeerMeta where
  lastGossipTimestamp : Option Int
  newOpsBookmark : Option Int
  peerDhtOpCount : Option Nat
  peerBehaviorErrors : Option Nat
  localErrors : Option Nat
  peerBusy : Option Nat
  peerTerminated : Option Nat
  completedRounds : Option Nat
  peerTimeouts : Option Nat
  deriving DecidableEq, Repr

def PeerMeta.empty : PeerMeta :=
  { lastGossipTimestamp := none, newOpsBookmark := none, peerDhtOpCount := none
    peerBehaviorErrors := none, localErrors := none, peerBusy := none, peerTerminated := none
    completedRounds := none, peerTimeouts := none }

/-- `value.unwrap_or_default() + 1`.  The source counts in `u32`, which is enough for `2 ^ 32 - 1` of a kind
with one peer. -/
def increment (count : Option Nat) : Option Nat :=
  some (count.getD 0 + 1)

/-- The accepted rounds, by peer. -/
abbrev AcceptedRounds (Url : Type) := AList fun _ : Url => GossipRoundState Url

structure K2Gossip (Url : Type) where
  config : K2GossipConfig
  initiatedRoundState : Option (GossipRoundState Url)
  acceptedRoundStates : AcceptedRounds Url
  peerMeta : Url → PeerMeta
  /-- The accept burst tracker: when a peer's latest initiates were let through. -/
  burst : Url → List Int
  /-- The op ids handed to the fetch queue, with the peer to ask. -/
  requestedOps : List (Url × List Bytes)

/-! ## The host -/

/-- The calls of a handler that either succeed or fail. -/
inductive HostCall
  | setLastGossipTimestamp
  | newOpsBookmark
  | setNewOpsBookmark
  | setPeerDhtOpCount
  | incrPeerBusy
  | incrPeerTerminated
  | incrCompletedRounds
  | incrPeerTimeout
  | requestOps
  | updateStorageArcs
  | sendModule
  deriving DecidableEq, Repr

/-- The answers a handler gets while it runs. -/
structure Host where
  now : Int
  instant : Nat
  /-- The local agents with their target storage arcs. -/
  localAgents : Except Fault (List (Bytes × DhtArc))
  /-- The peer store's info of an agent, encoded. -/
  peerStoreGet : Bytes → Except Fault (Option Bytes)
  /-- Decode, verify and insert agent infos. -/
  peerStoreInsert : List Bytes → Except Fault Unit
  retrieveOpIdsBounded : DhtArc → Int → Nat → Except Fault (List Bytes × Nat × Int)
  dht : Dht.DhtState
  call : HostCall → Except Fault Unit

variable {Url : Type} [DecidableEq Url]

abbrev GossipM (Url : Type) := Eff K2GossipError (K2Gossip Url)

/-- The `?` on a `K2Result`. -/
def liftK2 {α : Type} (x : Except Fault α) : GossipM Url α :=
  Eff.lift (x.mapError .k2)

def blame {α : Type} (ctx : PeerBehavior) : GossipM Url α :=
  Eff.fail (.peerBehavior ctx)

/-! ## The peer meta store -/

namespace K2Gossip

/-- Write the values kept for one peer. -/
def setMeta (peer : Url) (f : PeerMeta → PeerMeta) (g : K2Gossip Url) : K2Gossip Url :=
  { g with peerMeta := Function.update g.peerMeta peer (f (g.peerMeta peer)) }

def setInitiated (state : Option (GossipRoundState Url)) (g : K2Gossip Url) : K2Gossip Url :=
  { g with initiatedRoundState := state }

def setAccepted (rounds : AcceptedRounds Url) (g : K2Gossip Url) : K2Gossip Url :=
  { g with acceptedRoundStates := rounds }

/-- Everything that is kept for one peer beside its rounds. -/
def valuesOf (g : K2Gossip Url) (peer : Url) : PeerMeta × List Int :=
  (g.peerMeta peer, g.burst peer)

end K2Gossip

section Calls

variable (host : Host)

/-- A call to the peer meta store that writes. -/
def putMeta (c : HostCall) (peer : Url) (f : PeerMeta → PeerMeta) : GossipM Url Unit := do
  liftK2 (host.call c)
  Eff.modify (K2Gossip.setMeta peer f)

def setLastGossipTimestamp (peer : Url) (timestamp : Int) : GossipM Url Unit :=
  putMeta host .setLastGossipTimestamp peer fun m => { m with lastGossipTimestamp := some timestamp }

def setPeerDhtOpCount (peer : Url) (count : Nat) : GossipM Url Unit :=
  putMeta host .setPeerDhtOpCount peer fun m => { m with peerDhtOpCount := some count }

/-- Keep the op count that a message reports, if it does. -/
def recordDhtOpCount (peer : Url) : Option Nat → GossipM Url Unit
  | some opCount => setPeerDhtOpCount host peer opCount
  | none => pure ()

def incrPeerBusy (peer : Url) : GossipM Url Unit :=
  putMeta host .incrPeerBusy peer fun m => { m with peerBusy := increment m.peerBusy }

def incrPeerTerminated (peer : Url) : GossipM Url Unit :=
  putMeta host .incrPeerTerminated peer fun m => { m with peerTerminated := increment m.peerTerminated }

def incrCompletedRounds (peer : Url) : GossipM Url Unit :=
  putMeta host .incrCompletedRounds peer fun m =>
    { m with completedRounds := increment m.completedRounds }

/-- The bookmark kept for a peer. -/
def newOpsBookmark (peer : Url) : GossipM Url (Option Int) := do
  liftK2 (host.call .newOpsBookmark)
  let g ← Eff.read
  pure (g.peerMeta peer).newOpsBookmark

/-! ## The accept burst tracker -/

def K2GossipConfig.maxBurst (config : K2GossipConfig) : Nat :=
  config.initiateBurstFactor * config.initiateBurstWindowCount % 2 ^ 32

/-- Initiates before this time no longer count. -/
def K2GossipConfig.burstThreshold (config : K2GossipConfig) (now : Int) : Int :=
  let window := wrapI64 (1000 * (config.initiateIntervalMs * config.initiateBurstWindowCount) : Nat)
  if now < window then unixTimestamp else wrapI64 (now - window)

/-- `check_accept`: whether the peer may initiate now, which is written down if it may. -/
def checkAccept (peer : Url) : GossipM Url Bool := do
  let g ← Eff.read
  let entry := (g.burst peer).filter fun t => decide (t > g.config.burstThreshold host.now)
  if entry.length ≥ g.config.maxBurst then do
    Eff.modify fun g => { g with burst := Function.update g.burst peer entry }
    pure false
  else do
    Eff.modify fun g => { g with burst := Function.update g.burst peer (entry ++ [host.now]) }
    pure true

/-! ## Calls that several handlers make -/

/-- `fetch.request_ops`. -/
def requestOps (opIds : List Bytes) (source : Url) : GossipM Url Unit := do
  liftK2 (host.call .requestOps)
  Eff.modify fun g => { g with requestedOps := g.requestedOps ++ [(source, opIds)] }

def updateNewOpsBookmark (fromPeer : Url) (updatedBookmark : Int) : GossipM Url Unit := do
  let previousBookmark ← newOpsBookmark host fromPeer
  if (previousBookmark.map fun previous => decide (previous ≤ updatedBookmark)).getD true then
    putMeta host .setNewOpsBookmark fromPeer fun m =>
      { m with newOpsBookmark := some updatedBookmark }
  else pure ()

/-- Without a bookmark, ops are requested from roughly where the DHT rings end. -/
def getRequestNewSince (targetPeerUrl : Url) : GossipM Url Int := do
  let bookmark ← newOpsBookmark host targetPeerUrl
  pure (bookmark.getD (host.now - 2 * unitTime))

/-- The agents of a list that the peer store does not have. -/
def filterKnownAgents (agents : List Bytes) : Except Fault (List Bytes) :=
  agents.foldlM (fun out agent => do
    let info ← host.peerStoreGet agent
    pure (if info.isNone then out ++ [agent] else out)) []

/-- The infos of the requested agents that the peer store can give. -/
def loadAgentInfos (requested : List Bytes) : List Bytes :=
  requested.filterMap fun agent =>
    match host.peerStoreGet agent with
    | .ok info => info
    | .error _ => none

def receiveAgentInfos (providedAgents : List Bytes) : Except Fault Unit :=
  if providedAgents.isEmpty then .ok () else host.peerStoreInsert providedAgents

def localAgentState : Except Fault (List Bytes × ArcSet) := do
  let localAgents ← host.localAgents
  let ourArcSet ← ArcSet.new (localAgents.map fun a => a.2)
  pure (localAgents.map fun a => a.1, ourArcSet)

/-- New op ids of each arc, within what the arcs before have left of the limit, and the earliest of
the bookmarks. -/
def retrieveNewOpIds (commonArcSet : ArcSet) (newSince : Int) (maxNewBytes : Nat) :
    Except Fault (List Bytes × Nat × Int) :=
  commonArcSet.asArcs.foldlM (fun (sendNewOps, usedBytes, sendNewBookmark) arc => do
    let (newOps, used, newBookmark) ←
      host.retrieveOpIdsBounded arc newSince (subU32 maxNewBytes usedBytes)
    pure (sendNewOps ++ newOps, wrapAddU32 usedBytes used, min newBookmark sendNewBookmark))
    ([], 0, host.now)

def handleAcceptResponse (fromPeer : Url) (acceptResponse : AcceptResponseMessage) :
    GossipM Url (Option (List Bytes)) := do
  liftK2 (receiveAgentInfos host acceptResponse.providedAgents)
  updateNewOpsBookmark host fromPeer acceptResponse.updatedNewSince
  requestOps host acceptResponse.newOps fromPeer
  if acceptResponse.missingAgents.isEmpty then pure none
  else pure (some (loadAgentInfos host acceptResponse.missingAgents))

/-- `K2Gossip::update_storage_arcs`: what it does to the local agents is their store's business. -/
def updateStorageArcs (nextAction : DhtSnapshotNextAction) : GossipM Url Unit :=
  if nextAction = .cannotCompare then pure () else liftK2 (host.call .updateStorageArcs)

end Calls

end Gossip
end Kitsune2
