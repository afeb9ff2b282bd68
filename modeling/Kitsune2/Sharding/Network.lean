import Kitsune2.Sharding.Sender

/-!
# Network — controllers that hear of each other late

Every node runs the controller for its own agents.  An agent's shrink messages, its grow messages and
its declarations are three streams: a node gets each of them in the order sent and after some time,
and none of them waits for another.  That a stream keeps its order is an assumption on the network,
since the code sends every message from a task of its own.  (For declarations the peer store sees to
it, which keeps the newest; a withdrawal names its intent and so cannot hit a later one, but an
announcement that is overtaken by its refresh would replace it.)  The bound on the delay, and on how
late a re-check runs, is a condition on the checks: what is older must have arrived by then.
-/

namespace Kitsune2
namespace Sharding

open Api Lib
open Gossip.StorageArc
open Dht (ArcSet)

/-- Nodes that run the patient rule, and their agents.  Neither they nor their URLs change. -/
structure Deployment (NodeId AgentId Url : Type) where
  agents : Finset AgentId
  host : AgentId → NodeId
  url : NodeId → Url
  loc : AgentId → Nat
  loc_le : ∀ a, loc a ≤ u32Max
  cfg : NodeId → Config
  patient : ∀ n, (cfg n).patient = true
  /-- How long a message or a declaration is on its way at most. -/
  bound : Nat
  /-- How late a re-check runs at most. -/
  late : Nat

/-- The nodes, what was sent and declared so far, and how much of it each node has got. -/
structure Network (NodeId AgentId Url : Type) where
  clock : Int
  node : NodeId → Node AgentId Url
  said : AgentId → Bool → List (Sent AgentId)
  declared : AgentId → List Declaration
  heard : NodeId → AgentId → Bool → Nat
  seen : NodeId → AgentId → Nat
  lastCheck : NodeId → Option Int

variable {NodeId AgentId Url : Type} [DecidableEq NodeId] [LinearOrder AgentId] [DecidableEq Url]

namespace Network

variable (dep : Deployment NodeId AgentId Url) (net : Network NodeId AgentId Url)

/-! ## What holds and what is seen -/

/-- The arc of an agent, on its own node. -/
def arcs (a : AgentId) : Arcs :=
  (net.node (dep.host a)).arcs a

/-- The agents that hold a sector. -/
def holders (x : Nat) : Finset AgentId :=
  dep.agents.filter fun a => coversSector (net.arcs dep a).cur x = true

/-- The last declaration of an agent that has reached a node. -/
def view (n : NodeId) (a : AgentId) : Option DhtArc :=
  match net.seen n a with
  | 0 => none
  | k + 1 => (net.declared a)[k]?.map Prod.snd

/-- What a check of a node may read at this time: the peer store shows agents of other nodes as they
were last seen, all that was sent and declared `bound` ago has arrived, the check task has slept since
the last check, and no re-check comes more than `late` after it was due. -/
structure CheckAt (n : NodeId) (env : Surroundings AgentId Url) : Prop where
  now : env.now = net.clock
  elapsed : env.elapsed = (dep.cfg n).checkInterval
  slept : ∀ c, net.lastCheck n = some c → c + (dep.cfg n).checkInterval ≤ net.clock
  nodup : (env.peers.map AgentInfo.agent).Nodup
  peers : ∀ peer ∈ env.peers, peer.isTombstone = false → peer.agent ∉ (net.node n).localAgents →
    net.view n peer.agent = some peer.storageArc ∧
      peer.url = some (dep.url (dep.host peer.agent))
  arrived : ∀ a, dep.host a ≠ n → ∀ grow i e, (net.said a grow)[i]? = some e →
    e.1 + dep.bound ≤ net.clock → i < net.heard n a grow
  shown : ∀ a, dep.host a ≠ n → ∀ i e, (net.declared a)[i]? = some e →
    e.1 + dep.bound ≤ net.clock → i < net.seen n a
  onTime : ∀ a ctl p, (net.node n).states.lookup a = some ctl → ctl.pending = some p →
    p.executeAt ≤ net.clock → net.clock ≤ p.executeAt + dep.late
  waits : ∀ lag, env.lagEstimate (dep.cfg n) (env.gone (net.node n).localAgents) = .ok lag →
    dep.bound + dep.late ≤ (dep.cfg n).waitFor lag ∧ dep.bound ≤ (dep.cfg n).shrinkPersistence lag

/-! ## Steps -/

/-- After a check: what it has sent and every arc that it has changed is on its way. -/
def afterCheck (n : NodeId) (node' : Node AgentId Url) (sent : List (IntentMessage AgentId)) :
    Network NodeId AgentId Url :=
  { net with
    node := Function.update net.node n node'
    said := fun a grow => net.said a grow ++
      saidNow net.clock grow (sent.filter fun msg => decide (msg.agentId = a))
    declared := fun a =>
      if dep.host a = n then
        redeclared net.clock ((net.node n).arcs a).cur (node'.arcs a).cur (net.declared a)
      else net.declared a
    lastCheck := Function.update net.lastCheck n (some net.clock) }

/-- The next message of one kind about an agent, in the order sent, reaches another node. -/
def afterMessage (n : NodeId) (a : AgentId) (grow : Bool) (msg : IntentMessage AgentId) :
    Network NodeId AgentId Url :=
  { net with
    node := Function.update net.node n
      { net.node n with
        tables := (net.node n).tables.step (.received net.clock (dep.url (dep.host a)) msg) }
    heard := fun n' a' grow' =>
      if n' = n ∧ a' = a ∧ grow' = grow then net.heard n a grow + 1 else net.heard n' a' grow' }

/-- The next declaration of an agent, in the order signed, reaches another node. -/
def afterDeclaration (n : NodeId) (a : AgentId) : Network NodeId AgentId Url :=
  { net with
    seen := fun n' a' => if n' = n ∧ a' = a then net.seen n a + 1 else net.seen n' a' }

/-- Gossip has updated the arc of an agent, which is declared with each call of its callback. -/
def afterGossip (a : AgentId) (new : LocalAgent) : Network NodeId AgentId Url :=
  { net with
    node := Function.update net.node (dep.host a)
      { net.node (dep.host a) with
        arcs := Function.update (net.node (dep.host a)).arcs a
          { cur := new.curStorageArc, tgt := new.tgtStorageArc } }
    declared := Function.update net.declared a
      (net.declared a ++ List.replicate new.callbacks (net.clock, new.curStorageArc)) }

inductive Step : Network NodeId AgentId Url → Network NodeId AgentId Url → Prop
  | passed (net : Network NodeId AgentId Url) {t : Int} (h : net.clock ≤ t) :
      Step net { net with clock := t }
  | checked (net : Network NodeId AgentId Url) (n : NodeId) (env : Surroundings AgentId Url)
      {node' : Node AgentId Url} {sent : List (IntentMessage AgentId)} (hat : net.CheckAt dep n env)
      (h : (net.node n).check (dep.cfg n) dep.loc env = .ok (node', sent)) :
      Step net (net.afterCheck dep n node' sent)
  | heard (net : Network NodeId AgentId Url) (n : NodeId) (a : AgentId) (grow : Bool)
      {e : Sent AgentId} (hother : dep.host a ≠ n)
      (h : (net.said a grow)[net.heard n a grow]? = some e) :
      Step net (net.afterMessage dep n a grow e.2)
  | seen (net : Network NodeId AgentId Url) (n : NodeId) (a : AgentId) (hother : dep.host a ≠ n)
      (h : net.seen n a < (net.declared a).length) : Step net (net.afterDeclaration n a)
  | grown (net : Network NodeId AgentId Url) (a : AgentId) (common : ArcSet)
      (theirs : Dht.DhtSnapshot) {mismatched : List Nat} {new : LocalAgent} (ha : a ∈ dep.agents)
      (hm : mismatchedSectors theirs = some mismatched)
      (h : updateAgent true (common.withoutSectorIndices mismatched).asArcs
        (localAgent (net.arcs dep a)) = .ok new) : Step net (net.afterGossip dep a new)

/-- Where a network starts: controllers before their first check, for agents whose target is a block of
their home sector and whose current arc lies straight inside it (it may be the empty one of an agent that
has just joined) and is declared. -/
structure Start : Prop where
  node : ∀ n, ∃ arcs localAgents nodup, net.node n = Node.initial arcs localAgents nodup ∧
    ∀ a, a ∈ localAgents ↔ a ∈ dep.agents ∧ dep.host a = n
  placed : ∀ a ∈ dep.agents, Placed (homeSector (dep.loc a)) (net.arcs dep a)
  said : ∀ a grow, net.said a grow = []
  declared : ∀ a ∈ dep.agents, ∃ s ≤ net.clock, net.declared a = [(s, (net.arcs dep a).cur)]
  others : ∀ a, a ∉ dep.agents → net.declared a = []
  heard : ∀ n a grow, net.heard n a grow = 0
  seen : ∀ n a, net.seen n a ≤ 1
  lastCheck : ∀ n, net.lastCheck n = none

inductive Reachable : Network NodeId AgentId Url → Prop
  | start {net : Network NodeId AgentId Url} (h : net.Start dep) : Reachable net
  | step {net net' : Network NodeId AgentId Url} (h : Reachable net) (hstep : Step dep net net') :
      Reachable net'

/-! ## A shrink that goes ahead -/

/-- In a check of node `n` the turn of `agent` comes when the node is `mid`; its pending shrink is due
and goes ahead, which leaves the node as `mid'`. -/
structure Proceeds (n : NodeId) (env : Surroundings AgentId Url) (agent : AgentId)
    (p : PendingShrink) (mid mid' : Node AgentId Url) : Prop where
  turn : ∃ lag before after sent sent',
    env.lagEstimate (dep.cfg n) (env.gone (net.node n).localAgents) = .ok lag ∧
    (net.node n).localAgents = before ++ agent :: after ∧
    before.foldlM (Node.tickOne (dep.cfg n) dep.loc ((net.node n).viewOf env lag)
        ((net.node n).shrinkBase (dep.cfg n) env lag)
        (othersCoverage env.peers (env.gone (net.node n).localAgents)))
      (((net.node n).reading (dep.cfg n) env lag).stormBrake (dep.cfg n)
        (env.gone (net.node n).localAgents), []) = .ok (mid, sent) ∧
    Node.tickOne (dep.cfg n) dep.loc ((net.node n).viewOf env lag)
        ((net.node n).shrinkBase (dep.cfg n) env lag)
        (othersCoverage env.peers (env.gone (net.node n).localAgents)) (mid, sent) agent =
      .ok (mid', sent') ∧
    recheckOutcome (dep.cfg n)
        (mid.covAround ((net.node n).shrinkBase (dep.cfg n) env lag) agent)
        ((net.node n).viewOf env lag).liveIntents agent p.vacate = .proceed
  pending : (mid.control dep.loc agent).2.pending = some p
  due : p.executeAt ≤ env.now

end Network

end Sharding
end Kitsune2
