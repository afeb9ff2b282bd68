import Kitsune2.Api.Time
import Kitsune2.Core.PeerStore
import Mathlib.Data.List.Dedup
import Mathlib.Data.List.MinMax

/-!
# Targets — whom gossip is initiated with next

The initiate task looks at the agents whose arcs overlap the arcs that the local agents aim for, and
of those that it can reach takes the one that it has gossiped with the longest time ago.  All other
agents are only looked at if there is none.
-/

namespace Kitsune2
namespace Gossip

open Api Lib Kitsune2.Core

variable {Agent SpaceId Url Sig : Type} [DecidableEq Agent] [DecidableEq SpaceId] [DecidableEq Url]
  [DecidableEq Sig]

/-! ## Candidates -/

/-- What the peer store answers, and the order in which a hash set of agents is gone through. -/
structure PeerAnswers (Agent SpaceId Url Sig : Type) where
  byOverlappingStorageArc : DhtArc → Except Fault (List (AgentInfoSigned Agent SpaceId Url Sig))
  all : Except Fault (List (AgentInfoSigned Agent SpaceId Url Sig))
  order : List (AgentInfoSigned Agent SpaceId Url Sig) → List (AgentInfoSigned Agent SpaceId Url Sig)

/-- A local agent and its target storage arc. -/
abbrev Aims (Agent : Type) := List (Agent × DhtArc)

def removeLocalAgents (agents : List (AgentInfoSigned Agent SpaceId Url Sig))
    (localAgents : Aims Agent) : List (AgentInfoSigned Agent SpaceId Url Sig) :=
  agents.filter fun a => decide (a.agent ∉ localAgents.map Prod.fst)

/-- All agents but the local ones. -/
def allAgents (peers : PeerAnswers Agent SpaceId Url Sig) (localAgents : Aims Agent) :
    Except Fault (List (AgentInfoSigned Agent SpaceId Url Sig)) := do
  let agents ← peers.all
  pure (peers.order (removeLocalAgents agents.dedup localAgents))

/-- The agents to try first, and whether these are the overlapping ones. -/
def agentsToTry (peers : PeerAnswers Agent SpaceId Url Sig) (localAgents : Aims Agent) :
    Except Fault (List (AgentInfoSigned Agent SpaceId Url Sig) × Bool) := do
  let localArcs := (localAgents.map Prod.snd).dedup
  let byLocalArc ← localArcs.mapM peers.byOverlappingStorageArc
  let agents := removeLocalAgents byLocalArc.flatten.dedup localAgents
  if agents.isEmpty then do
    let others ← allAgents peers localAgents
    pure (others, false)
  else pure (peers.order agents, true)

/-! ## The choice -/

/-- What the peer meta store answers about a URL. -/
structure MetaAnswers (Url : Type) where
  unresponsive : Url → Except Fault (Option Int)
  lastGossipTimestamp : Url → Except Fault (Option Int)

/-- `(current_time - timestamp).unwrap_or(ZERO)`: zero for a time stamp in the future. -/
def durationSinceLast (currentTime : Int) (timestamp : Option Int) : Nat :=
  (currentTime - timestamp.getD unixTimestamp).toNat

/-- The URL of an agent that is neither gone nor expired. -/
def targetUrl (currentTime : Int) (agent : AgentInfoSigned Agent SpaceId Url Sig) : Option Url :=
  if agent.isTombstone then none
  else if agent.expiresAt < currentTime then none
  else agent.url

/-- One agent of the loop: its URL with the time since we have gossiped with it, if it is a target. -/
def possibleTarget (store : MetaAnswers Url) (currentTime : Int)
    (agent : AgentInfoSigned Agent SpaceId Url Sig) : Except Fault (Option (Nat × Url)) :=
  match targetUrl currentTime agent with
  | none => .ok none
  | some url => do
      match ← store.unresponsive url with
      | some _ => .ok none
      | none => do
          let timestamp ← store.lastGossipTimestamp url
          .ok (some (durationSinceLast currentTime timestamp, url))

/-- The last of the largest, as for `max_by_key`. -/
def leastRecent (possibleTargets : List (Nat × Url)) : Option (Nat × Url) :=
  possibleTargets.reverse.argmax Prod.fst

def selectResponsiveAndLeastRecentlyGossiped (store : MetaAnswers Url) (currentTime : Int)
    (agents : List (AgentInfoSigned Agent SpaceId Url Sig)) : Except Fault (Option Url) := do
  let possibleTargets ← agents.mapM (possibleTarget store currentTime)
  pure ((leastRecent (possibleTargets.filterMap id)).map Prod.snd)

def selectNextTarget (peers : PeerAnswers Agent SpaceId Url Sig) (store : MetaAnswers Url)
    (currentTime : Int) (localAgents : Aims Agent) : Except Fault (Option Url) := do
  let (agents, usingOverlapping) ← agentsToTry peers localAgents
  let target ← selectResponsiveAndLeastRecentlyGossiped store currentTime agents
  if target.isNone && usingOverlapping then do
    let others ← allAgents peers localAgents
    selectResponsiveAndLeastRecentlyGossiped store currentTime others
  else pure target

/-! ## The agents of a peer store -/

/-- What a peer store answers, in the order of the hash set. -/
def PeerAnswers.ofStore (env : Surroundings Agent) (p : PeerStore Agent SpaceId Url Sig)
    (order : List (AgentInfoSigned Agent SpaceId Url Sig) →
      List (AgentInfoSigned Agent SpaceId Url Sig)) : PeerAnswers Agent SpaceId Url Sig where
  byOverlappingStorageArc := fun arc => .ok (p.getByOverlappingStorageArc env arc).2
  all := .ok (p.getAll env).2
  order := order

/-- There is a live agent with this URL. -/
def Offers (currentTime : Int) (url : Url) (agents : List (AgentInfoSigned Agent SpaceId Url Sig)) :
    Prop :=
  ∃ agent ∈ agents, targetUrl currentTime agent = some url

section OfStore

variable {env : Surroundings Agent} {p : PeerStore Agent SpaceId Url Sig}
  {order : List (AgentInfoSigned Agent SpaceId Url Sig) →
    List (AgentInfoSigned Agent SpaceId Url Sig)}
  {localAgents : Aims Agent} {currentTime : Int} {url : Url}
  {info : AgentInfoSigned Agent SpaceId Url Sig}
  {agents : List (AgentInfoSigned Agent SpaceId Url Sig)} {usingOverlapping : Bool}

omit [DecidableEq SpaceId] [DecidableEq Url] [DecidableEq Sig] in
theorem mem_removeLocalAgents :
    info ∈ removeLocalAgents agents localAgents ↔
      info ∈ agents ∧ info.agent ∉ localAgents.map Prod.fst := by
  unfold removeLocalAgents
  rw [List.mem_filter, decide_eq_true_iff]

omit [DecidableEq Agent] [DecidableEq SpaceId] [DecidableEq Url] [DecidableEq Sig] in
theorem mem_getByOverlappingStorageArc {arc : DhtArc} :
    info ∈ (p.getByOverlappingStorageArc env arc).2 ↔ info ∈ (p.getAll env).2 ∧
      info.isTombstone = false ∧ arc.overlaps info.storageArc = true := by
  unfold PeerStore.getByOverlappingStorageArc PeerStore.getAll
  rw [List.mem_filter, Bool.and_eq_true, Bool.not_eq_true']

omit [DecidableEq Agent] [DecidableEq SpaceId] [DecidableEq Url] [DecidableEq Sig] in
/-- The answers about all arcs that the local agents aim for. -/
theorem overlapping_ofStore (arcs : List DhtArc) :
    arcs.mapM (PeerAnswers.ofStore env p order).byOverlappingStorageArc =
      .ok (arcs.map fun arc => (p.getByOverlappingStorageArc env arc).2) :=
  List.mapM_pure

/-- The agents to try are stored, and none of them is local. -/
theorem stored_of_agentsToTry (horder : ∀ l, order l ⊆ l)
    (h : agentsToTry (.ofStore env p order) localAgents = .ok (agents, usingOverlapping)) :
    ∀ a ∈ agents, a ∈ (p.getAll env).2 ∧ a.agent ∉ localAgents.map Prod.fst := by
  intro a ha
  unfold agentsToTry at h
  dsimp only at h
  rw [overlapping_ofStore] at h
  dsimp only [bind, Except.bind] at h
  split at h
  · -- all agents
    cases h
    rcases mem_removeLocalAgents.mp (horder _ ha) with ⟨hmem, hremote⟩
    exact ⟨List.mem_dedup.mp hmem, hremote⟩
  · cases h
    rcases mem_removeLocalAgents.mp (horder _ ha) with ⟨hmem, hremote⟩
    rcases List.mem_flatten.mp (List.mem_dedup.mp hmem) with ⟨found, hfound, hin⟩
    rcases List.mem_map.mp hfound with ⟨arc, -, rfl⟩
    exact ⟨(mem_getByOverlappingStorageArc.mp hin).1, hremote⟩

/-- A remote agent whose arc overlaps what a local agent aims for is tried first. -/
theorem offers_of_overlapping (horder : ∀ l, l ⊆ order l) {aim : Agent × DhtArc}
    (haim : aim ∈ localAgents) (hstored : info ∈ (p.getAll env).2)
    (hremote : info.agent ∉ localAgents.map Prod.fst) (hlive : targetUrl currentTime info = some url)
    (hoverlaps : aim.2.overlaps info.storageArc = true) :
    ∃ agents, agentsToTry (.ofStore env p order) localAgents = .ok (agents, true) ∧
      Offers currentTime url agents := by
  -- a tombstone has no URL to offer
  have htombstone : info.isTombstone = false := by
    unfold targetUrl at hlive
    split at hlive
    · cases hlive
    · rename_i h
      exact Bool.eq_false_iff.mpr h
  have hmem : info ∈ removeLocalAgents
      (((localAgents.map Prod.snd).dedup.map fun arc =>
        (p.getByOverlappingStorageArc env arc).2).flatten.dedup) localAgents := by
    refine mem_removeLocalAgents.mpr ⟨List.mem_dedup.mpr (List.mem_flatten.mpr ?_), hremote⟩
    refine ⟨_, List.mem_map_of_mem (List.mem_dedup.mpr (List.mem_map_of_mem haim)), ?_⟩
    exact mem_getByOverlappingStorageArc.mpr ⟨hstored, htombstone, hoverlaps⟩
  refine ⟨_, ?_, info, horder _ hmem, hlive⟩
  unfold agentsToTry
  dsimp only
  rw [overlapping_ofStore]
  dsimp only [bind, Except.bind]
  -- the list is not empty, so all agents are not tried in its place
  rw [if_neg]
  · rfl
  · intro hempty
    rw [List.isEmpty_iff.mp hempty] at hmem
    cases hmem

end OfStore

end Gossip
end Kitsune2
