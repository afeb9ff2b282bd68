import Kitsune2.Lib.Loops
import Kitsune2.Sharding.Recheck
import Kitsune2.Sharding.TableHistory

/-!
# Controller — one check of the sharding controller over all local agents

The controller decides each local agent's target arc.  A check reads the peer store, the intent
tables and the gossip metadata once, then ticks every local agent: an announced shrink or grow that
is due is re-checked first, an arc that is still being synced blocks every decision, the
small-network clamp comes next, and only then do the grow and shrink conditions accumulate.

Durations are counted in microseconds, and the three factors that multiply the measured lag are
given as functions of it.  Block levels are `u8` and their arithmetic is checked; timestamps are
unbounded, where the code would panic on leaving an `i64`.
-/

namespace Kitsune2
namespace Sharding

open Api Lib

/-! ## Configuration and state -/

/-- `K2ShardingConfig`.  `growPersistence lag` is `lag.mul_f64(grow_persistence)`, and the same for
`shrinkPersistence` and `intentWait`: a factor is given by the multiples it makes, so one for which
`mul_f64` panics (negative, not a number, or too large for a `Duration`) is none of these. -/
structure Config where
  targetRedundancy : Nat
  clampMinPeers : Nat
  checkInterval : Nat
  growPersistence : Nat → Nat
  shrinkPersistence : Nat → Nat
  intentWait : Nat → Nat
  intentMinWait : Nat
  lagFloor : Nat
  lagCeiling : Nat
  agentinfoEncoding : Bool
  patientLowest : Bool
  withdrawOnStandDown : Bool
  requireRecentContact : Bool
  announceAlongside : Bool
  coordinatedGrowth : Bool
  criticalRepair : Bool
  pinned : Bool

namespace Config

/-- Whether the patient-lowest re-check is in force. -/
def patient (cfg : Config) : Bool :=
  cfg.patientLowest && !cfg.agentinfoEncoding

/-- The wait between announcing and re-checking, for a given lag. -/
def waitFor (cfg : Config) (lag : Nat) : Nat :=
  max (cfg.intentWait lag) cfg.intentMinWait

end Config

/-- An announced, not yet executed, shrink or grow. -/
structure PendingShrink where
  executeAt : Int
  vacate : SectorRange
  expiresAt : Int
  wait : Nat
  deriving DecidableEq, Repr

/-- Per-local-agent controller state. -/
structure AgentControl where
  home : Nat
  declaredLevel : Nat
  targetLevel : Nat
  growAcc : Nat
  shrinkAcc : Nat
  pending : Option PendingShrink
  pendingGrow : Option PendingShrink
  deriving DecidableEq, Repr

/-- The two arcs of a local agent. -/
structure Arcs where
  cur : DhtArc
  tgt : DhtArc
  deriving DecidableEq, Repr

/-- Everything the tick of one agent may read back or change. -/
structure TickState (AgentId Url : Type) where
  arcs : Arcs
  ctl : AgentControl
  tables : Tables AgentId Url
  sent : List (IntentMessage AgentId)

/-- What one check knows when it ticks an agent. -/
structure TickView (AgentId Url : Type) where
  shrinkCov : Cov
  growCov : Cov
  liveIntents : LiveIntents AgentId Url
  liveGrows : LiveIntents AgentId Url
  visiblePeers : Nat
  lag : Nat
  now : Int
  elapsed : Nat

/-! ## Level arithmetic -/

/-- `level + 1` in `u8`. -/
def addLevel (level : Nat) : Except Fault Nat :=
  if level + 1 ≤ 255 then .ok (level + 1) else .error (.panicked "attempt to add with overflow")

/-- `level - 1` in `u8`. -/
def subLevel (level : Nat) : Except Fault Nat :=
  if 1 ≤ level then .ok (level - 1) else .error (.panicked "attempt to subtract with overflow")

/-- `sibling_half`, with its level arithmetic checked. -/
def siblingRange (home level : Nat) : Except Fault SectorRange := do
  let _ ← addLevel level
  .ok (siblingHalf home level)

/-- `vacate_half`, with its level arithmetic checked. -/
def vacateRange (home level : Nat) : Except Fault SectorRange := do
  let _ ← subLevel level
  .ok (vacateHalf home level)

variable {AgentId Url : Type} [LinearOrder AgentId] [DecidableEq Url]

/-! ## Announcing -/

def sendIntent (agent : AgentId) (start stop : Nat) (expiresAt : Int) (withdrawn grow : Bool)
    (st : TickState AgentId Url) : TickState AgentId Url :=
  { st with
    sent := st.sent ++
      [{ agentId := agent, vacateStart := start, vacateEnd := stop, expiresAt := expiresAt
         withdrawn := withdrawn, grow := grow }] }

/-- Record a shrink intent locally and broadcast it. -/
def publishIntent (agent : AgentId) (vacate : SectorRange) (expiresAt : Int)
    (st : TickState AgentId Url) : TickState AgentId Url :=
  match sectorsToArc vacate.1 vacate.2 with
  | .empty => st
  | .arc start stop =>
      sendIntent agent start stop expiresAt false false
        { st with tables := st.tables.step (.filed false agent vacate expiresAt) }

/-- Broadcast a withdrawal of this agent's intent with the given expiry. -/
def withdrawIntent (agent : AgentId) (vacate : SectorRange) (expiresAt : Int)
    (st : TickState AgentId Url) : TickState AgentId Url :=
  match sectorsToArc vacate.1 vacate.2 with
  | .empty => st
  | .arc start stop => sendIntent agent start stop expiresAt true false st

/-- Phase one of a shrink: announce the intent and start the clock. -/
def announceShrink (cfg : Config) (agent : AgentId) (lag : Nat) (now : Int)
    (st : TickState AgentId Url) : Except Fault (TickState AgentId Url) := do
  let wait := cfg.waitFor lag
  let times := intentTimes now wait
  let vacate ← vacateRange st.ctl.home st.ctl.declaredLevel
  match sectorsToArc vacate.1 vacate.2 with
  -- level 0 has no half to vacate
  | .empty => .ok st
  | .arc _ _ =>
      let pending : PendingShrink :=
        { executeAt := times.1, vacate := vacate, expiresAt := times.2, wait := wait }
      let st := { st with ctl := { st.ctl with pending := some pending } }
      -- encoded in the agent info instead of an intent message: the arcs shrink at once
      if cfg.agentinfoEncoding then do
        let level ← subLevel st.ctl.declaredLevel
        let arc := blockArc st.ctl.home level
        .ok { st with arcs := { cur := arc, tgt := arc } }
      else .ok (publishIntent agent vacate times.2 st)

/-! ## Growing -/

/-- Widen the target arc by one level. -/
def startGrow (agent : AgentId) (st : TickState AgentId Url) :
    Except Fault (TickState AgentId Url) := do
  let targetLevel ← addLevel st.ctl.declaredLevel
  .ok { st with
    ctl := { st.ctl with
      targetLevel := targetLevel, growAcc := 0, shrinkAcc := 0
      pending := none, pendingGrow := none }
    tables := (st.tables.step (.removed false agent)).step (.removed true agent)
    arcs := { st.arcs with tgt := blockArc st.ctl.home targetLevel } }

/-- The grow decision: at once, or announced and re-checked after a wait. -/
def grow (cfg : Config) (agent : AgentId) (cov : Cov) (liveIntents : LiveIntents AgentId Url)
    (lag : Nat) (now : Int) (st : TickState AgentId Url) :
    Except Fault (TickState AgentId Url) := do
  if cfg.coordinatedGrowth = false then startGrow agent st
  else
    let range ← siblingRange st.ctl.home st.ctl.declaredLevel
    -- a range down to one holder is repaired without waiting for a turn
    if cfg.criticalRepair && isCritical (growView cov liveIntents agent) range then
      startGrow agent st
    else
      let wait := cfg.waitFor lag
      let times := intentTimes now wait
      match sectorsToArc range.1 range.2 with
      | .empty => startGrow agent st
      | .arc start stop =>
          let pending : PendingShrink :=
            { executeAt := times.1, vacate := range, expiresAt := times.2, wait := wait }
          .ok (sendIntent agent start stop times.2 false true
            { st with
              ctl := { st.ctl with pendingGrow := some pending, growAcc := 0 }
              tables := st.tables.step (.filed true agent range times.2) })

/-- Re-check an announced grow. -/
def executeGrow (cfg : Config) (agent : AgentId) (cov : Cov)
    (liveIntents liveGrows : LiveIntents AgentId Url) (st : TickState AgentId Url) :
    Except Fault (TickState AgentId Url) :=
  match st.ctl.pendingGrow with
  | none => .ok st
  | some pending =>
      let range := pending.vacate
      let st := { st with
        ctl := { st.ctl with pendingGrow := none }
        tables := st.tables.step (.removed true agent) }
      -- the range is judged anew: rivals may have filled it during the wait
      if growRecheck cov liveIntents liveGrows agent range cfg.targetRedundancy then
        startGrow agent st
      else
        -- standing down withdraws the intent under its old expiry
        let st := { st with ctl := { st.ctl with growAcc := 0 } }
        match sectorsToArc range.1 range.2 with
        | .empty => .ok st
        | .arc start stop => .ok (sendIntent agent start stop pending.expiresAt true true st)

/-! ## Executing a shrink -/

/-- The lowest racer waits: keep the intent up, refresh it when its expiry comes near. -/
def waitForTurn (cfg : Config) (agent : AgentId) (now : Int) (pending : PendingShrink)
    (st : TickState AgentId Url) : TickState AgentId Url :=
  let executeAt := now + cfg.checkInterval
  match refreshedExpiry pending.expiresAt executeAt pending.wait with
  | none =>
      { st with ctl := { st.ctl with pending := some { pending with executeAt := executeAt } } }
  | some expiresAt =>
      let st := publishIntent agent pending.vacate expiresAt st
      { st with
        ctl := { st.ctl with
          pending := some { pending with executeAt := executeAt, expiresAt := expiresAt } } }

/-- Drop the vacated half. -/
def proceedShrink (cfg : Config) (agent : AgentId) (st : TickState AgentId Url) :
    Except Fault (TickState AgentId Url) := do
  let level ← subLevel st.ctl.declaredLevel
  let arc := blockArc st.ctl.home level
  .ok { st with
    ctl := { st.ctl with declaredLevel := level, targetLevel := level, growAcc := 0, shrinkAcc := 0 }
    tables := st.tables.step (.removed false agent)
    arcs := if cfg.agentinfoEncoding then st.arcs else { cur := arc, tgt := arc } }

/-- Keep the range after all. -/
def standDownShrink (cfg : Config) (agent : AgentId) (pending : PendingShrink)
    (st : TickState AgentId Url) : TickState AgentId Url :=
  let st := { st with
    ctl := { st.ctl with shrinkAcc := 0 }
    tables := st.tables.step (.removed false agent) }
  let st :=
    if cfg.withdrawOnStandDown && !cfg.agentinfoEncoding then
      withdrawIntent agent pending.vacate pending.expiresAt st
    else st
  if cfg.agentinfoEncoding then
    let arc := blockArc st.ctl.home st.ctl.declaredLevel
    { st with arcs := { cur := arc, tgt := arc } }
  else st

/-- What the re-check in force says about an announced shrink. -/
def recheckOutcome (cfg : Config) (cov : Cov) (liveIntents : LiveIntents AgentId Url)
    (agent : AgentId) (vacate : SectorRange) : Recheck :=
  if cfg.patient then patientRecheck cov liveIntents agent vacate cfg.targetRedundancy
  else if shrinkRecheck cov liveIntents agent vacate cfg.targetRedundancy then .proceed
  else .standDown

/-- Phase two of a shrink: re-check, then proceed, wait or stand down. -/
def executeIntent (cfg : Config) (agent : AgentId) (cov : Cov)
    (liveIntents : LiveIntents AgentId Url) (now : Int) (st : TickState AgentId Url) :
    Except Fault (TickState AgentId Url) :=
  match st.ctl.pending with
  | none => .ok st
  | some pending =>
      let st := { st with ctl := { st.ctl with pending := none } }
      match recheckOutcome cfg cov liveIntents agent pending.vacate with
      | .wait => .ok (waitForTurn cfg agent now pending st)
      | .proceed => proceedShrink cfg agent st
      | .standDown => .ok (standDownShrink cfg agent pending st)

/-! ## The decision rules for one agent -/

/-- Is the sibling half short, announced vacates counted as gone? -/
def growCondition (cfg : Config) (agent : AgentId) (view : TickView AgentId Url)
    (ctl : AgentControl) : Except Fault Bool := do
  if ctl.declaredLevel < maxLevel then
    let range ← siblingRange ctl.home ctl.declaredLevel
    .ok (decide (minOver (growView view.growCov view.liveIntents agent) range.1 range.2 <
      cfg.targetRedundancy))
  else .ok false

/-- Does the half we would drop stay strictly above the target without us? -/
def shrinkCondition (cfg : Config) (view : TickView AgentId Url) (ctl : AgentControl) :
    Except Fault Bool := do
  if ctl.declaredLevel > 0 then
    let range ← vacateRange ctl.home ctl.declaredLevel
    .ok (decide (minOver view.shrinkCov range.1 range.2 > cfg.targetRedundancy))
  else .ok false

/-- Patient lowest: hold off while a lower id is racing us for the same sectors. -/
def holdsOff (cfg : Config) (agent : AgentId) (view : TickView AgentId Url)
    (vacate : SectorRange) : Bool :=
  cfg.patient && (lowerRacer view.liveIntents agent vacate &&
    !(cfg.announceAlongside &&
      roomAlongside view.shrinkCov view.liveIntents agent vacate cfg.targetRedundancy))

/-- The grow and shrink conditions, accumulated against their persistence thresholds. -/
def decideLevel (cfg : Config) (agent : AgentId) (view : TickView AgentId Url)
    (st : TickState AgentId Url) : Except Fault (TickState AgentId Url) := do
  let growCond ← growCondition cfg agent view st.ctl
  let shrinkCond ← shrinkCondition cfg view st.ctl
  let growAcc := if growCond then st.ctl.growAcc + view.elapsed else 0
  let shrinkAcc := if shrinkCond then st.ctl.shrinkAcc + view.elapsed else 0
  let st := { st with ctl := { st.ctl with growAcc := growAcc, shrinkAcc := shrinkAcc } }
  if growCond && decide (growAcc ≥ cfg.growPersistence view.lag) then
    grow cfg agent view.growCov view.liveIntents view.lag view.now st
  else if shrinkCond && decide (shrinkAcc ≥ cfg.shrinkPersistence view.lag) then do
    let vacate ← vacateRange st.ctl.home st.ctl.declaredLevel
    if holdsOff cfg agent view vacate then .ok st
    else announceShrink cfg agent view.lag view.now st
  else .ok st

/-- Too few visible peers, or a machine that is to hold everything: keep the full arc. -/
def heldFull (cfg : Config) (view : TickView AgentId Url) : Bool :=
  cfg.pinned || decide (view.visiblePeers % 2 ^ 32 < cfg.clampMinPeers)

def tickAgent (cfg : Config) (agent : AgentId) (view : TickView AgentId Url)
    (st : TickState AgentId Url) : Except Fault (TickState AgentId Url) :=
  match st.ctl.pending with
  | some pending =>
      if view.now ≥ pending.executeAt then
        executeIntent cfg agent view.shrinkCov view.liveIntents view.now st
      else .ok st
  | none =>
      match st.ctl.pendingGrow with
      | some pending =>
          if view.now ≥ pending.executeAt then
            executeGrow cfg agent view.growCov view.liveIntents view.liveGrows st
          else .ok st
      | none =>
          -- the declared arc must have caught up with the model before any decision
          if st.arcs.cur ≠ blockArc st.ctl.home st.ctl.targetLevel then .ok st
          else
            let st := { st with ctl := { st.ctl with declaredLevel := st.ctl.targetLevel } }
            if heldFull cfg view then
              if st.ctl.declaredLevel < maxLevel then startGrow agent st else .ok st
            else decideLevel cfg agent view st

/-! ## The check -/

/-- The node: its local agents' arcs, the local agent store, and the controller's own state. -/
structure Node (AgentId Url : Type) where
  arcs : AgentId → Arcs
  localAgents : List AgentId
  nodup : localAgents.Nodup
  states : AList fun _ : AgentId => AgentControl
  tables : Tables AgentId Url
  lastGone : List AgentId
  contact : Url → Option (Nat × Option Int)

/-- What one check reads from the peer store, the peer metadata and the clock.  A read of the metadata
that fails is one that finds nothing. -/
structure Surroundings (AgentId Url : Type) where
  now : Int
  elapsed : Nat
  peers : List (AgentInfo AgentId Url)
  unresponsive : Url → Bool
  completedRounds : Url → Nat
  lastGossip : Url → Option Int

/-- A timestamp difference, zero when it would be negative. -/
def elapsedSince (now earlier : Int) : Nat :=
  (now - earlier).toNat

namespace Surroundings

/-- Own agents and the peers marked unresponsive. -/
def gone (env : Surroundings AgentId Url) (ownIds : List AgentId) : List AgentId :=
  env.peers.foldl
    (fun gone peer =>
      if peer.isTombstone || gone.contains peer.agent then gone
      else
        match peer.url with
        | none => gone
        | some url => if env.unresponsive url then gone ++ [peer.agent] else gone)
    ownIds

/-- The arcs and URLs that the peer store declares. -/
def declaredArcs (env : Surroundings AgentId Url) : Declared AgentId Url := fun agent =>
  (env.peers.reverse.find? fun peer => !peer.isTombstone && decide (peer.agent = agent)).map
    fun peer => (peer.storageArc, peer.url)

/-- The peers of this view that are neither tombstoned nor excluded, with their URLs. -/
def reachable (env : Surroundings AgentId Url) (exclude : List AgentId) :
    List (AgentId × Url) :=
  env.peers.filterMap fun peer =>
    if peer.isTombstone || exclude.contains peer.agent then none
    else peer.url.map fun url => (peer.agent, url)

/-- The 90th percentile of the staleness towards the reachable peers, clamped. -/
def lagEstimate (env : Surroundings AgentId Url) (cfg : Config) (exclude : List AgentId) :
    Except Fault Nat :=
  let staleness := (env.reachable exclude).filterMap fun p =>
    (env.lastGossip p.2).map (elapsedSince env.now)
  if staleness.isEmpty then .ok cfg.lagCeiling
  else
    let sorted := staleness.mergeSort
    let idx := min (sorted.length * 9 / 10) (sorted.length - 1)
    if cfg.lagFloor ≤ cfg.lagCeiling then
      .ok (max cfg.lagFloor (min (sorted.getD idx 0) cfg.lagCeiling))
    else .error (.panicked "assertion failed: min <= max")

/-- One pass of the loop in `silent_peers`. -/
def hearPeer (env : Surroundings AgentId Url) (lease : Nat)
    (acc : (Url → Option (Nat × Option Int)) × List AgentId) (p : AgentId × Url) :
    (Url → Option (Nat × Option Int)) × List AgentId :=
  let n := env.completedRounds p.2
  let entry := (acc.1 p.2).getD (n, none)
  let entry := if n > entry.1 then (n, some env.now) else entry
  let fresh :=
    match entry.2 with
    | none => false
    | some heard => decide (elapsedSince env.now heard < lease)
  (Function.update acc.1 p.2 (some entry), if fresh then acc.2 else acc.2 ++ [p.1])

/-- The peers not heard from within the current wait, and the updated contact record. -/
def silentPeers (env : Surroundings AgentId Url) (cfg : Config) (gone : List AgentId) (lag : Nat)
    (contact : Url → Option (Nat × Option Int)) :
    (Url → Option (Nat × Option Int)) × List AgentId :=
  (env.reachable gone).foldl (env.hearPeer (cfg.waitFor lag)) (contact, [])

end Surroundings

namespace Node

/-- Cancel one agent's pending shrink, if it has one. -/
def cancelPending (cfg : Config) (node : Node AgentId Url) (agent : AgentId) : Node AgentId Url :=
  match node.states.lookup agent with
  | none => node
  | some ctl =>
      if ctl.pending.isNone then node
      else
        let arc := blockArc ctl.home ctl.declaredLevel
        { node with
          states := node.states.insert agent { ctl with pending := none, shrinkAcc := 0 }
          tables := node.tables.step (.removed false agent)
          arcs :=
            if cfg.agentinfoEncoding && node.localAgents.contains agent then
              Function.update node.arcs agent { cur := arc, tgt := arc }
            else node.arcs }

/-- The storm brake: when a peer has newly become invisible, cancel every pending shrink. -/
def stormBrake (cfg : Config) (gone : List AgentId) (node : Node AgentId Url) :
    Node AgentId Url :=
  let newlyGone := gone.any fun a => !node.lastGone.contains a && !node.localAgents.contains a
  let node := { node with lastGone := gone }
  if newlyGone then node.states.keys.foldl (cancelPending cfg) node else node

/-- The coverage an agent sees: remote peers and this node's other agents. -/
def covAround (node : Node AgentId Url) (base : Cov) (agent : AgentId) : Cov :=
  node.localAgents.foldl
    (fun cov other => if other ≠ agent then addArc cov (node.arcs other).cur else cov) base

/-- The controller state of an agent; a new one starts at the full arc. -/
def control (loc : AgentId → Nat) (node : Node AgentId Url) (agent : AgentId) :
    Arcs × AgentControl :=
  match node.states.lookup agent with
  | some ctl => (node.arcs agent, ctl)
  | none =>
      ({ node.arcs agent with tgt := DhtArc.full },
        { home := homeSector (loc agent), declaredLevel := maxLevel, targetLevel := maxLevel
          growAcc := 0, shrinkAcc := 0, pending := none, pendingGrow := none })

/-- One pass of the loop over the local agents. -/
def tickOne (cfg : Config) (loc : AgentId → Nat) (view : TickView AgentId Url)
    (shrinkBase growBase : Cov) (acc : Node AgentId Url × List (IntentMessage AgentId))
    (agent : AgentId) : Except Fault (Node AgentId Url × List (IntentMessage AgentId)) := do
  let node := acc.1
  let view := { view with
    shrinkCov := node.covAround shrinkBase agent, growCov := node.covAround growBase agent }
  let c := node.control loc agent
  let st ← tickAgent cfg agent view
    { arcs := c.1, ctl := c.2, tables := node.tables, sent := acc.2 }
  .ok ({ node with
    arcs := Function.update node.arcs agent st.arcs
    states := node.states.insert agent st.ctl
    tables := st.tables }, st.sent)

/-- Forget agents that have left the space. -/
def forgetLeft (node : Node AgentId Url) : Node AgentId Url :=
  { node with
    states := (node.states.keys.filter fun a => !node.localAgents.contains a).foldl
      (fun states a => states.erase a) node.states }

/-- What the check has read of the tables and recorded about contact. -/
def reading (cfg : Config) (env : Surroundings AgentId Url) (lag : Nat) (node : Node AgentId Url) :
    Node AgentId Url :=
  { node with
    tables := node.tables.step (.checked env.now)
    contact :=
      if cfg.requireRecentContact then
        (env.silentPeers cfg (env.gone node.localAgents) lag node.contact).1
      else node.contact }

/-- Coverage for shrink decisions: only holders heard from within the current wait count. -/
def shrinkBase (cfg : Config) (env : Surroundings AgentId Url) (lag : Nat)
    (node : Node AgentId Url) : Cov :=
  let gone := env.gone node.localAgents
  if cfg.requireRecentContact then
    othersCoverage env.peers (gone ++ (env.silentPeers cfg gone lag node.contact).2)
  else othersCoverage env.peers gone

/-- The view all ticks of one check share; the coverage is filled in for each agent. -/
def viewOf (env : Surroundings AgentId Url) (lag : Nat) (node : Node AgentId Url) :
    TickView AgentId Url :=
  let ownIds := node.localAgents
  let gone := env.gone ownIds
  { shrinkCov := [], growCov := []
    liveIntents := retainDeclared (node.tables.shrinks.live env.now).1 env.declaredArcs ownIds
    liveGrows := retainGrowers (node.tables.grows.live env.now).1 env.declaredArcs ownIds
    visiblePeers := (env.peers.filter fun p =>
      !p.isTombstone && !gone.contains p.agent).length + ownIds.length
    lag := lag, now := env.now, elapsed := env.elapsed }

/-- One controller check over all local agents; also returns what it broadcasts. -/
def check (cfg : Config) (loc : AgentId → Nat) (env : Surroundings AgentId Url)
    (node : Node AgentId Url) :
    Except Fault (Node AgentId Url × List (IntentMessage AgentId)) :=
  if node.localAgents.isEmpty then .ok (node, [])
  else do
    let gone := env.gone node.localAgents
    let lag ← env.lagEstimate cfg gone
    let ready := (node.reading cfg env lag).stormBrake cfg gone
    let done ← node.localAgents.foldlM
      (tickOne cfg loc (node.viewOf env lag) (node.shrinkBase cfg env lag)
        (othersCoverage env.peers gone)) (ready, [])
    .ok (done.1.forgetLeft, done.2)

end Node

end Sharding
end Kitsune2
