import Kitsune2.Gossip.Targets
import Kitsune2.Gossip.Tasks

/-!
# Initiating — the initiate task beside the other tasks of a node

The initiate task goes around: it lists the agents to try, looks at one after the other, decides, and
initiates with the peer that it has selected.  Between any two of these steps the node handles
messages and drops rounds.

A search that nothing comes in between selects as `selectNextTarget` does.
-/

namespace Kitsune2
namespace Gossip

open Api Lib Kitsune2.Core Dht

variable {Agent SpaceId Url Sig : Type} [DecidableEq Agent] [DecidableEq SpaceId] [DecidableEq Url]
  [DecidableEq Sig]

/-- How far a search of the initiate task has come. -/
inductive TargetSearch (Agent SpaceId Url Sig : Type)
  | waiting
  /-- The agents that are left to look at, and the possible targets so far. -/
  | looking (localAgents : Aims Agent) (currentTime : Int) (usingOverlapping : Bool)
      (left : List (AgentInfoSigned Agent SpaceId Url Sig)) (found : List (Nat × Url))
  | selected (url : Url)

/-- A running node with its initiate task, and how many peers have been given their turn. -/
structure Initiating (Agent SpaceId Url Sig : Type) where
  node : Running Url
  search : TargetSearch Agent SpaceId Url Sig
  turns : Nat

inductive InitiatingEvent (Agent SpaceId Url Sig : Type)
  /-- Anything else that the node does. -/
  | node (e : Event Url)
  | list (peers : PeerAnswers Agent SpaceId Url Sig) (localAgents : Aims Agent) (currentTime : Int)
  | look (unresponsive : Url → Except Fault (Option Int)) (lastGossip : Url → Except Fault Bool)
      (now : Int)
  | decide (peers : PeerAnswers Agent SpaceId Url Sig)
  | initiate (host : Host) (sessionId : Bytes) (tieBreaker : Nat)

/-- Ten minutes, after which the peer meta store may drop a last gossip timestamp. -/
def lastGossipExpiry : Int := 10 * 60 * 1000000

/-- The last gossip timestamp as it is read at `now`; `keeps` says what the store does with one that has
expired. -/
def K2Gossip.lastGossipAt (g : K2Gossip Url) (now : Int) (keeps : Bool) (url : Url) : Option Int :=
  (g.peerMeta url).lastGossipTimestamp.filter fun last => keeps || decide (now ≤ last + lastGossipExpiry)

/-- What the peer meta store of a node answers at `now`. -/
def K2Gossip.metaAnswers (g : K2Gossip Url) (unresponsive : Url → Except Fault (Option Int))
    (lastGossip : Url → Except Fault Bool) (now : Int) : MetaAnswers Url where
  unresponsive := unresponsive
  lastGossipTimestamp := fun url => (lastGossip url).map fun keeps => g.lastGossipAt now keeps url

/-- Nothing fails before `initiate_gossip` records that it has selected the peer. -/
def givesTurn (host : Host) (g : K2Gossip Url) : Bool :=
  g.initiatedRoundState.isNone && (localAgentState host).isOk &&
    (host.call .newOpsBookmark).isOk && (host.call .setLastGossipTimestamp).isOk

namespace Initiating

def step (loc : LocCb) (s : Initiating Agent SpaceId Url Sig) :
    InitiatingEvent Agent SpaceId Url Sig → Initiating Agent SpaceId Url Sig
  | .node e => { s with node := s.node.step loc e }
  | .list peers localAgents currentTime =>
      match s.search with
      | .waiting =>
          if s.node.g.initiatedRoundState.isSome then s
          else
            match agentsToTry peers localAgents with
            | .ok (agents, usingOverlapping) =>
                { s with search := .looking localAgents currentTime usingOverlapping agents [] }
            | .error _ => s
      | _ => s
  | .look unresponsive lastGossip now =>
      match s.search with
      | .looking localAgents currentTime usingOverlapping (agent :: left) found =>
          match possibleTarget (s.node.g.metaAnswers unresponsive lastGossip now) currentTime agent with
          | .ok target =>
              { s with
                search :=
                  .looking localAgents currentTime usingOverlapping left (found ++ target.toList) }
          | .error _ => { s with search := .waiting }
      | _ => s
  | .decide peers =>
      match s.search with
      | .looking localAgents currentTime usingOverlapping [] found =>
          match leastRecent found with
          | some target => { s with search := .selected target.2 }
          | none =>
              -- the agents with overlapping arcs are all of no use, so all others are tried
              if usingOverlapping then
                match allAgents peers localAgents with
                | .ok agents => { s with search := .looking localAgents currentTime false agents [] }
                | .error _ => { s with search := .waiting }
              else { s with search := .waiting }
      | _ => s
  | .initiate host sessionId tieBreaker =>
      match s.search with
      | .selected url =>
          { node := s.node.step loc (.initiate host sessionId tieBreaker url)
            search := .waiting
            turns := s.turns + (givesTurn host s.node.g).toNat }
      | _ => s

end Initiating

/-! ## A search alone -/

namespace Initiating

variable {loc : LocCb} {s : Initiating Agent SpaceId Url Sig}
  {peers : PeerAnswers Agent SpaceId Url Sig} {localAgents : Aims Agent} {currentTime : Int}
  {usingOverlapping : Bool} {agents others : List (AgentInfoSigned Agent SpaceId Url Sig)}
  {found : List (Nat × Url)} {unresponsive : Url → Except Fault (Option Int)}
  {lastGossip : Url → Except Fault Bool} {now : Int}

/-- What a search comes to, by what is selected. -/
def ofSelection : Except Fault (Option Url) → TargetSearch Agent SpaceId Url Sig
  | .ok (some url) => .selected url
  | _ => .waiting

theorem look_idle {n : Nat} (hwaiting : s.search = .waiting) :
    (List.replicate n (.look unresponsive lastGossip now)).foldl (step loc) s = s := by
  induction n with
  | zero => rfl
  | succ n ih =>
      have hstep : step loc s (.look unresponsive lastGossip now) = s := by
        unfold step
        rw [hwaiting]
      rw [List.replicate_succ, List.foldl_cons, hstep]
      exact ih

/-- Looking at all agents that are left finds the possible targets among them, or fails. -/
theorem look_all :
    ∀ (agents : List (AgentInfoSigned Agent SpaceId Url Sig)) (found : List (Nat × Url))
      (s : Initiating Agent SpaceId Url Sig),
      s.search = .looking localAgents currentTime usingOverlapping agents found →
      (List.replicate agents.length (.look unresponsive lastGossip now)).foldl (step loc) s =
        { s with
          search :=
            match agents.mapM (possibleTarget (s.node.g.metaAnswers unresponsive lastGossip now)
              currentTime) with
            | .ok targets =>
                .looking localAgents currentTime usingOverlapping [] (found ++ targets.filterMap id)
            | .error _ => .waiting } := by
  intro agents
  induction agents with
  | nil =>
      intro found s hsearch
      rcases s with ⟨node, search, turns⟩
      cases hsearch
      simp [pure, Except.pure]
  | cons agent agents ih =>
      intro found s hsearch
      rw [List.length_cons, List.replicate_succ, List.foldl_cons, List.mapM_cons]
      cases htarget : possibleTarget (s.node.g.metaAnswers unresponsive lastGossip now) currentTime
        agent with
      -- the first query that fails ends the pass
      | error fault =>
          have hstep : step loc s (.look unresponsive lastGossip now) =
            { s with search := .waiting } := by
            unfold step
            rw [hsearch]
            dsimp only
            rw [htarget]
          rw [hstep, look_idle rfl]
          rfl
      | ok target =>
          have hstep : step loc s (.look unresponsive lastGossip now) =
              { s with
                search :=
                  .looking localAgents currentTime usingOverlapping agents
                    (found ++ target.toList) } := by
            unfold step
            rw [hsearch]
            dsimp only
            rw [htarget]
          rw [hstep, ih _ _ rfl]
          cases agents.mapM (possibleTarget (s.node.g.metaAnswers unresponsive lastGossip now)
            currentTime) with
          | error fault => rfl
          | ok targets =>
              cases target with
              | none => simp [bind, Except.bind, pure, Except.pure]
              | some target => simp [bind, Except.bind, pure, Except.pure]

/-- The events of one pass over `n` agents, and of the decision after it. -/
def passEvents (peers : PeerAnswers Agent SpaceId Url Sig)
    (unresponsive : Url → Except Fault (Option Int)) (lastGossip : Url → Except Fault Bool) (now : Int)
    (n : Nat) :
    List (InitiatingEvent Agent SpaceId Url Sig) :=
  List.replicate n (.look unresponsive lastGossip now) ++ [.decide peers]

theorem pass_idle {n : Nat}
    (hidle : ∀ localAgents currentTime usingOverlapping left found,
      s.search ≠ .looking localAgents currentTime usingOverlapping left found) :
    (passEvents peers unresponsive lastGossip now n).foldl (step loc) s = s := by
  have hevent : ∀ e ∈ passEvents peers unresponsive lastGossip now n, step loc s e = s := by
    intro e he
    unfold passEvents at he
    rcases List.mem_append.mp he with hlook | hdecide
    · rw [List.eq_of_mem_replicate hlook]
      unfold step
      cases hsearch : s.search with
      | looking localAgents currentTime usingOverlapping left found =>
          exact absurd hsearch (hidle _ _ _ _ _)
      | _ => rfl
    · rw [List.mem_singleton.mp hdecide]
      unfold step
      cases hsearch : s.search with
      | looking localAgents currentTime usingOverlapping left found =>
          exact absurd hsearch (hidle _ _ _ _ _)
      | _ => rfl
  generalize passEvents peers unresponsive lastGossip now n = events at hevent
  induction events with
  | nil => rfl
  | cons e events ih =>
      rw [List.foldl_cons, hevent e List.mem_cons_self]
      exact ih fun e he => hevent e (List.mem_cons_of_mem _ he)

/-- One pass over the agents that are listed, and the decision after it. -/
theorem pass_selects
    (hsearch : s.search = .looking localAgents currentTime usingOverlapping agents []) :
    (passEvents peers unresponsive lastGossip now agents.length).foldl (step loc) s =
      { s with
        search :=
          match selectResponsiveAndLeastRecentlyGossiped
              (s.node.g.metaAnswers unresponsive lastGossip now) currentTime agents with
          | .ok (some url) => .selected url
          | .ok none =>
              if usingOverlapping then
                match allAgents peers localAgents with
                | .ok agents => .looking localAgents currentTime false agents []
                | .error _ => .waiting
              else .waiting
          | .error _ => .waiting } := by
  unfold passEvents
  rw [List.foldl_append, look_all agents [] s hsearch]
  unfold selectResponsiveAndLeastRecentlyGossiped
  cases agents.mapM (possibleTarget (s.node.g.metaAnswers unresponsive lastGossip now) currentTime) with
  | error fault => rfl
  | ok targets =>
      dsimp only
      rw [List.nil_append]
      rw [List.foldl_cons, List.foldl_nil]
      unfold step
      dsimp only [bind, Except.bind, pure, Except.pure]
      -- no target among the overlapping agents: try again with all of them
      cases leastRecent (targets.filterMap id) with
      | some target => rfl
      | none =>
          dsimp only [Option.map]
          split
          · cases allAgents peers localAgents with
            | ok others => rfl
            | error fault => rfl
          · rfl

/-- Alone, a search selects as the function does. -/
theorem alone_selects (hwaiting : s.search = .waiting) (hidle : s.node.g.initiatedRoundState = none)
    (hagents : agentsToTry peers localAgents = .ok (agents, usingOverlapping))
    (hothers : allAgents peers localAgents = .ok others) :
    ((.list peers localAgents currentTime ::
        (passEvents peers unresponsive lastGossip now agents.length ++
          passEvents peers unresponsive lastGossip now others.length)).foldl (step loc) s).search =
      ofSelection (selectNextTarget peers (s.node.g.metaAnswers unresponsive lastGossip now) currentTime
        localAgents) := by
  have hlist : step loc s (.list peers localAgents currentTime) =
      { s with search := .looking localAgents currentTime usingOverlapping agents [] } := by
    unfold step
    simp [hwaiting, hidle, hagents]
  have hfirst : (passEvents peers unresponsive lastGossip now agents.length).foldl (step loc)
      { s with search := .looking localAgents currentTime usingOverlapping agents [] } = _ :=
    pass_selects rfl
  unfold selectNextTarget
  rw [List.foldl_cons, hlist, List.foldl_append, hfirst, hagents]
  dsimp only [bind, Except.bind, pure, Except.pure]
  cases selectResponsiveAndLeastRecentlyGossiped (s.node.g.metaAnswers unresponsive lastGossip now)
      currentTime agents with
  | error fault =>
      rw [pass_idle fun _ _ _ _ _ h => by cases h]
      rfl
  | ok target =>
      cases target with
      | some url =>
          rw [pass_idle fun _ _ _ _ _ h => by cases h]
          rfl
      | none =>
          cases usingOverlapping with
          | false =>
              rw [pass_idle fun _ _ _ _ _ h => by cases h]
              rfl
          | true =>
              -- the second pass is over all agents
              simp only [if_true, hothers, Option.isNone_none, Bool.and_self]
              rw [pass_selects rfl]
              cases selectResponsiveAndLeastRecentlyGossiped
                  (s.node.g.metaAnswers unresponsive lastGossip now) currentTime others with
              | error fault => rfl
              | ok target =>
                  cases target with
                  | some url => rfl
                  | none => rfl

end Initiating

end Gossip
end Kitsune2
