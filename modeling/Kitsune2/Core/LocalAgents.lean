import Kitsune2.Core.PeerStore
import Kitsune2.Lib.Runs

/-!
# Local agents — how a space announces the agents it runs

An agent that joins gets a callback, and every call of it spawns a task that signs a new info: the task
reads the URL of the space, takes a time stamp, reads the arc of the agent, signs, and inserts.  An agent
that leaves gets a callback that does nothing and a tombstone.  A third task looks at every agent from
time to time and calls the callbacks of those whose infos are about to expire.  All of these interleave.
-/

namespace Kitsune2
namespace Core

open Api Lib

/-! ## Signing -/

/-- An agent info before it is signed. -/
structure AgentInfo (Agent SpaceId Url : Type) where
  agent : Agent
  space : SpaceId
  createdAt : Int
  expiresAt : Int
  isTombstone : Bool
  url : Option Url
  storageArc : DhtArc
  deriving DecidableEq, Repr

/-- The encoder of infos, and the signers of the local agents. -/
structure Signing (Agent SpaceId Url Sig : Type) where
  encode : AgentInfo Agent SpaceId Url → Except Fault String
  sign : AgentInfo Agent SpaceId Url → String → Except Fault Sig

variable {Agent SpaceId Url Sig : Type} [DecidableEq Agent]

/-- `AgentInfoSigned::sign`. -/
def signInfo (signing : Signing Agent SpaceId Url Sig) (info : AgentInfo Agent SpaceId Url) :
    Except Fault (AgentInfoSigned Agent SpaceId Url Sig) := do
  let encoded ← signing.encode info
  let signature ← signing.sign info encoded
  .ok { agent := info.agent, space := info.space, createdAt := info.createdAt
        expiresAt := info.expiresAt, isTombstone := info.isTombstone, url := info.url
        storageArc := info.storageArc, encoded := encoded, signature := signature }

/-- A signed info is what was signed. -/
structure Signs (info : AgentInfo Agent SpaceId Url) (signed : AgentInfoSigned Agent SpaceId Url Sig) :
    Prop where
  agent : signed.agent = info.agent
  createdAt : signed.createdAt = info.createdAt
  expiresAt : signed.expiresAt = info.expiresAt
  isTombstone : signed.isTombstone = info.isTombstone
  url : signed.url = info.url
  storageArc : signed.storageArc = info.storageArc

omit [DecidableEq Agent] in
theorem signInfo_signs {signing : Signing Agent SpaceId Url Sig} {info : AgentInfo Agent SpaceId Url}
    {signed : AgentInfoSigned Agent SpaceId Url Sig} (h : signInfo signing info = .ok signed) :
    Signs info signed := by
  unfold signInfo at h
  cases hencoded : signing.encode info with
  | error fault =>
      rw [hencoded] at h
      cases h
  | ok encoded =>
      cases hsignature : signing.sign info encoded with
      | error fault =>
          rw [hencoded] at h
          dsimp only [bind, Except.bind] at h
          rw [hsignature] at h
          cases h
      | ok signature =>
          rw [hencoded] at h
          dsimp only [bind, Except.bind] at h
          rw [hsignature] at h
          cases h
          exact ⟨rfl, rfl, rfl, rfl, rfl, rfl⟩

/-! ## The space -/

/-- What a space is set up with. -/
structure SpaceConfig (Agent SpaceId Url Sig : Type) where
  space : SpaceId
  signing : Signing Agent SpaceId Url Sig
  /-- How long before it expires an info is signed anew. -/
  reSignExpireTime : Nat
  /-- The agents whose keys are on this node. -/
  own : Agent → Prop

/-- Twenty minutes. -/
def infoLifetime : Nat := 20 * 60 * 1000000

/-- How far the task is that a callback has spawned. -/
inductive UpdateStage (Agent SpaceId Url Sig : Type)
  | spawned
  | located (url : Url)
  | stamped (url : Url) (createdAt : Int)
  | signed (info : AgentInfoSigned Agent SpaceId Url Sig)

/-- A spawned task; `since` is when it was asked for. -/
structure UpdateTask (Agent SpaceId Url Sig : Type) where
  agent : Agent
  since : Int
  stage : UpdateStage Agent SpaceId Url Sig

/-- How far a call of `local_agent_leave` is. -/
inductive LeaveStage (Agent SpaceId Url Sig : Type)
  | removed
  | silenced
  | signed (info : AgentInfoSigned Agent SpaceId Url Sig)

structure LeaveCall (Agent SpaceId Url Sig : Type) where
  agent : Agent
  stage : LeaveStage Agent SpaceId Url Sig

/-- A space with its local agents, and the calls and tasks that are under way. -/
structure LocalSpace (Agent SpaceId Url Sig : Type) where
  clock : Int
  currentUrl : Option Url
  localAgents : List Agent
  /-- The agent has the callback of `local_agent_join`, not none or the one that does nothing. -/
  callback : Agent → Bool
  cur : Agent → DhtArc
  store : PeerStore Agent SpaceId Url Sig
  /-- Calls of `local_agent_join` that have yet to register the callback. -/
  joining : List Agent
  leaves : List (LeaveCall Agent SpaceId Url Sig)
  /-- Callbacks that are about to be called, and since when. -/
  owed : List (Agent × Int)
  /-- Calls of `new_url` that have yet to list the local agents. -/
  unlisted : Nat
  updates : List (UpdateTask Agent SpaceId Url Sig)
  /-- The pass of `check_agent_infos` that is going on: its cutoff, and the agents it has yet to see. -/
  pass : Option (Int × List Agent)
  /-- Everything that was ever signed here. -/
  said : List (AgentInfoSigned Agent SpaceId Url Sig)
  /-- When the arc of an agent was last set. -/
  changedAt : Agent → Int
  /-- When the URL was last set. -/
  movedAt : Int
  /-- When an agent got its callback. -/
  joinedAt : Agent → Int
  /-- The start of the last pass that has seen an agent. -/
  checkedAt : Agent → Int

namespace LocalSpace

/-- A space before any agent has joined. -/
def new (pruneInterval nowInst : Nat) (clock : Int) : LocalSpace Agent SpaceId Url Sig where
  clock := clock
  currentUrl := none
  localAgents := []
  callback := fun _ => false
  cur := fun _ => .empty
  store := .new pruneInterval nowInst
  joining := []
  leaves := []
  owed := []
  unlisted := 0
  updates := []
  pass := none
  said := []
  changedAt := fun _ => clock
  movedAt := clock
  joinedAt := fun _ => clock
  checkedAt := fun _ => clock

variable (s : LocalSpace Agent SpaceId Url Sig)

/-- What a call of the peer store reads around it. -/
def env (isBlocked : Agent → Except Fault Bool) (nowInst : Nat) : Surroundings Agent :=
  { isBlocked, recordFault := none, nowInst, pruneTime := s.clock, now := s.clock }

/-- The info that an update of an agent signs. -/
def updateInfo (cfg : SpaceConfig Agent SpaceId Url Sig) (agent : Agent) (url : Url)
    (createdAt : Int) : AgentInfo Agent SpaceId Url :=
  { agent, space := cfg.space, createdAt, expiresAt := createdAt + infoLifetime
    isTombstone := false, url := some url, storageArc := s.cur agent }

/-- The tombstone of an agent that leaves. -/
def leaveInfo (cfg : SpaceConfig Agent SpaceId Url Sig) (agent : Agent) (createdAt : Int) :
    AgentInfo Agent SpaceId Url :=
  { agent, space := cfg.space, createdAt, expiresAt := createdAt + infoLifetime
    isTombstone := true, url := none, storageArc := .empty }

/-! ## Joining and leaving -/

/-- `local_agent_join` up to the local agent store. -/
def joinAdd (agent : Agent) : LocalSpace Agent SpaceId Url Sig :=
  { s with
    cur := Function.update s.cur agent .empty
    changedAt := Function.update s.changedAt agent s.clock
    localAgents := agent :: s.localAgents
    joining := agent :: s.joining }

/-- The rest of `local_agent_join`: the callback is registered, and about to be called. -/
def joinRegister (agent : Agent) : LocalSpace Agent SpaceId Url Sig :=
  { s with
    callback := Function.update s.callback agent true
    joining := s.joining.filter fun b => b ≠ agent
    owed := (agent, s.clock) :: s.owed
    joinedAt := Function.update s.joinedAt agent s.clock
    checkedAt := Function.update s.checkedAt agent s.clock }

/-- `local_agent_leave` up to the local agent store. -/
def leaveRemove (agent : Agent) : LocalSpace Agent SpaceId Url Sig :=
  { s with
    localAgents := s.localAgents.filter fun b => b ≠ agent
    leaves := { agent, stage := .removed } :: s.leaves }

/-! ## What a step leaves of a list of calls -/

/-- The agents are about to have their callbacks called. -/
def owing (agents : List Agent) : List (Agent × Int) :=
  agents.map fun agent => (agent, s.clock)

/-- The callback of an agent is called. -/
def invokeCb (agent : Agent) (since : Int) (owed : List (Agent × Int)) :
    LocalSpace Agent SpaceId Url Sig :=
  { s with
    owed := owed
    updates := if s.callback agent then { agent, since, stage := .spawned } :: s.updates
      else s.updates }

/-- An info is inserted into the peer store, by whoever has it. -/
def insert (env : Surroundings Agent) (infos : List (AgentInfoSigned Agent SpaceId Url Sig)) :
    LocalSpace Agent SpaceId Url Sig :=
  { s with store := (s.store.insert env infos).1 }

end LocalSpace

/-! ## Steps -/

open LocalSpace

/-- One step of a space.  Taken for granted are that an agent joins only while it is not a member and
no leave of it is under way, and leaves only once its join is done; that a time stamp is later than
everything before, so that no two infos have the same one; that what comes from the network of an
agent with its key on this node was signed by this space; and that the store takes what the node
inserts itself, as no local agent is blocked and recording does not fail (`env`).  Nothing else
removes an info from the store. -/
inductive SpaceStep (cfg : SpaceConfig Agent SpaceId Url Sig) :
    LocalSpace Agent SpaceId Url Sig → LocalSpace Agent SpaceId Url Sig → Prop
  | passed (s : LocalSpace Agent SpaceId Url Sig) {t : Int} (h : s.clock ≤ t) :
      SpaceStep cfg s { s with clock := t }
  | joinAdded (s : LocalSpace Agent SpaceId Url Sig) {agent : Agent} (hown : cfg.own agent)
      (hout : agent ∉ s.localAgents) (hleft : ∀ call ∈ s.leaves, call.agent ≠ agent) :
      SpaceStep cfg s (s.joinAdd agent)
  | joinRegistered (s : LocalSpace Agent SpaceId Url Sig) {agent : Agent} (h : agent ∈ s.joining) :
      SpaceStep cfg s (s.joinRegister agent)
  | leaveRemoved (s : LocalSpace Agent SpaceId Url Sig) {agent : Agent} (hin : agent ∈ s.localAgents)
      (hjoined : agent ∉ s.joining) : SpaceStep cfg s (s.leaveRemove agent)
  | leaveSilenced (s : LocalSpace Agent SpaceId Url Sig) {agent : Agent}
      {leaves : List (LeaveCall Agent SpaceId Url Sig)}
      (h : Replaced s.leaves { agent, stage := .removed } [{ agent, stage := .silenced }] leaves) :
      SpaceStep cfg s { s with
        callback := Function.update s.callback agent false, leaves := leaves }
  | leaveSigned (s : LocalSpace Agent SpaceId Url Sig) {agent : Agent} {now : Int}
      {info : AgentInfoSigned Agent SpaceId Url Sig}
      {leaves : List (LeaveCall Agent SpaceId Url Sig)} (hnow : s.clock < now)
      (hsigned : signInfo cfg.signing (leaveInfo cfg agent now) = .ok info)
      (h : Replaced s.leaves { agent, stage := .silenced } [{ agent, stage := .signed info }] leaves) :
      SpaceStep cfg s { s with clock := now, leaves := leaves, said := info :: s.said }
  | leaveFailed (s : LocalSpace Agent SpaceId Url Sig) {agent : Agent} {now : Int} {fault : Fault}
      {leaves : List (LeaveCall Agent SpaceId Url Sig)} (hnow : s.clock < now)
      (hfailed : signInfo cfg.signing (leaveInfo cfg agent now) = .error fault)
      (h : Replaced s.leaves { agent, stage := .silenced } [] leaves) :
      SpaceStep cfg s { s with clock := now, leaves := leaves }
  | leaveInserted (s : LocalSpace Agent SpaceId Url Sig) {agent : Agent}
      {info : AgentInfoSigned Agent SpaceId Url Sig}
      {leaves : List (LeaveCall Agent SpaceId Url Sig)} (isBlocked : Agent → Except Fault Bool)
      (nowInst : Nat) (hfree : isBlocked info.agent = .ok false)
      (h : Replaced s.leaves { agent, stage := .signed info } [] leaves) :
      SpaceStep cfg s { s.insert (s.env isBlocked nowInst) [info] with leaves := leaves }
  | arcSet (s : LocalSpace Agent SpaceId Url Sig) (agent : Agent) (arc : DhtArc) :
      SpaceStep cfg s { s with
        cur := Function.update s.cur agent arc
        changedAt := Function.update s.changedAt agent s.clock
        owed := (agent, s.clock) :: s.owed }
  | urlSet (s : LocalSpace Agent SpaceId Url Sig) (url : Url) :
      SpaceStep cfg s { s with
        currentUrl := some url, movedAt := s.clock, unlisted := s.unlisted + 1 }
  | urlListed (s : LocalSpace Agent SpaceId Url Sig) {n : Nat} (h : s.unlisted = n + 1) :
      SpaceStep cfg s { s with unlisted := n, owed := s.owing s.localAgents ++ s.owed }
  | invoked (s : LocalSpace Agent SpaceId Url Sig) {agent : Agent} {since : Int}
      {owed : List (Agent × Int)} (h : Replaced s.owed (agent, since) [] owed) :
      SpaceStep cfg s (s.invokeCb agent since owed)
  | located (s : LocalSpace Agent SpaceId Url Sig) {agent : Agent} {since : Int}
      {updates : List (UpdateTask Agent SpaceId Url Sig)}
      (h : Replaced s.updates { agent, since, stage := .spawned }
        (match s.currentUrl with
          | none => []
          | some url => [{ agent, since, stage := .located url }]) updates) :
      SpaceStep cfg s { s with updates := updates }
  | stamped (s : LocalSpace Agent SpaceId Url Sig) {agent : Agent} {since now : Int} {url : Url}
      {updates : List (UpdateTask Agent SpaceId Url Sig)} (hnow : s.clock < now)
      (h : Replaced s.updates { agent, since, stage := .located url }
        [{ agent, since, stage := .stamped url now }] updates) :
      SpaceStep cfg s { s with clock := now, updates := updates }
  | signed (s : LocalSpace Agent SpaceId Url Sig) {agent : Agent} {since createdAt : Int} {url : Url}
      {info : AgentInfoSigned Agent SpaceId Url Sig}
      {updates : List (UpdateTask Agent SpaceId Url Sig)}
      (hsigned : signInfo cfg.signing (s.updateInfo cfg agent url createdAt) = .ok info)
      (h : Replaced s.updates { agent, since, stage := .stamped url createdAt }
        [{ agent, since, stage := .signed info }] updates) :
      SpaceStep cfg s { s with updates := updates, said := info :: s.said }
  | failed (s : LocalSpace Agent SpaceId Url Sig) {agent : Agent} {since createdAt : Int} {url : Url}
      {fault : Fault} {updates : List (UpdateTask Agent SpaceId Url Sig)}
      (hfailed : signInfo cfg.signing (s.updateInfo cfg agent url createdAt) = .error fault)
      (h : Replaced s.updates { agent, since, stage := .stamped url createdAt } [] updates) :
      SpaceStep cfg s { s with updates := updates }
  | inserted (s : LocalSpace Agent SpaceId Url Sig) {agent : Agent} {since : Int}
      {info : AgentInfoSigned Agent SpaceId Url Sig}
      {updates : List (UpdateTask Agent SpaceId Url Sig)} (isBlocked : Agent → Except Fault Bool)
      (nowInst : Nat) (hfree : isBlocked info.agent = .ok false)
      (h : Replaced s.updates { agent, since, stage := .signed info } [] updates) :
      SpaceStep cfg s { s.insert (s.env isBlocked nowInst) [info] with updates := updates }
  | received (s : LocalSpace Agent SpaceId Url Sig)
      (infos : List (AgentInfoSigned Agent SpaceId Url Sig)) (env : Surroundings Agent)
      (hprune : env.pruneTime = s.clock) (hnow : env.now = s.clock)
      (hown : ∀ info ∈ infos, cfg.own info.agent → info ∈ s.said) :
      SpaceStep cfg s (s.insert env infos)
  | passBegun (s : LocalSpace Agent SpaceId Url Sig) (h : s.pass = none) :
      SpaceStep cfg s { s with pass := some (s.clock + cfg.reSignExpireTime, s.localAgents) }
  | passChecked (s : LocalSpace Agent SpaceId Url Sig) {cutoff : Int} {agent : Agent}
      {agents : List Agent} (isBlocked : Agent → Except Fault Bool) (nowInst : Nat)
      (h : s.pass = some (cutoff, agent :: agents)) :
      SpaceStep cfg s
        (let got := s.store.get (s.env isBlocked nowInst) agent
        { s with
          store := got.1
          pass := some (cutoff, agents)
          checkedAt := Function.update s.checkedAt agent (cutoff - cfg.reSignExpireTime)
          owed := if got.2.all fun info => decide (info.expiresAt ≤ cutoff) then
            (agent, s.clock) :: s.owed else s.owed })
  | passEnded (s : LocalSpace Agent SpaceId Url Sig) {cutoff : Int}
      (h : s.pass = some (cutoff, [])) : SpaceStep cfg s { s with pass := none }

end Core
end Kitsune2
