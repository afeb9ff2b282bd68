import Kitsune2.Gossip.HonestRound

/-!
# RoundClosure — a round between two honest nodes ends on both sides

Two nodes, the messages of one round in flight between them, and anything else that the nodes do in
between, as long as it leaves the round alone.  Every handler is given its own host, so the DHTs and
the op stores may be others at every message.
-/

namespace Kitsune2
namespace Gossip

open Api Lib Dht

variable {Url : Type} [DecidableEq Url]

/-! ## The condition -/

section Condition

variable (loc : LocCb) (host : Host) (peer : Url)

/-- The two places at which a DHT that shows nothing any more is a trap.  After a `DiscSectorsDiff` the
acceptor leaves without a word, or with agents, which the initiator refuses in its stage; after a
`RingSectorDetailsDiff` it says so, unless it has agents to send.  And an initiate has to be let
through. -/
def Permits (slot : Option (GossipRoundState Url)) (g : K2Gossip Url) (msg : GossipMessage) : Prop :=
  match msg with
  | .initiate _ => burstHasRoom host peer g = true
  | .discSectorsDiff _ =>
      ∀ state ∈ slot, ∀ c ∈ state.comparison msg, c.showsNothing host.dht = false
  | .ringSectorDetailsDiff m =>
      ∀ state ∈ slot, ∀ c ∈ state.comparison msg, c.showsNothing host.dht = true →
        ∀ response ∈ m.acceptResponse, loadAgentInfos host response.missingAgents = []
  | _ => True

instance (slot : Option (GossipRoundState Url)) (g : K2Gossip Url) (msg : GossipMessage) :
    Decidable (Permits host peer slot g msg) := by
  unfold Permits
  cases msg <;> infer_instance

/-- What a message of the round must meet where it is handled. -/
structure MeetsPeer (slot : Option (GossipRoundState Url)) (g : K2Gossip Url) (msg : GossipMessage) :
    Prop where
  answered : host.Answers
  dht : ∀ state ∈ slot, ∀ c ∈ state.comparison msg, c.answers loc host.dht = true
  permitted : Permits host peer slot g msg

end Condition

section Handlers

variable {loc : LocCb} {host : Host} {peer : Url} {session : Bytes} {g : K2Gossip Url}
  {ourStage theirStage : Option RoundStage} {msg : GossipMessage} {more others : List GossipMessage}

/-- The acceptor handles a message of a phase, and the round goes on. -/
theorem Phase.acceptor (h : Phase session theirStage ourStage (msg :: more) others)
    (hat : AtStage peer session (g.acceptedRoundStates.lookup peer) ourStage)
    (hnone : g.initiatedWith peer = none)
    (hmeets : MeetsPeer loc host peer (g.acceptedRoundStates.lookup peer) g msg) :
    (more = [] ∧ others = []) ∧
      Ends (respond loc host peer msg) g (AcceptorGoesOn peer session theirStage) := by
  have hhost := hmeets.answered
  -- of the phases with a message to the acceptor there is one for each kind
  cases h with
  | initiate hm harcs =>
      exact ⟨⟨rfl, rfl⟩, respondToInitiate_acceptor hhost.toHealthy hat hnone hm harcs
        hmeets.permitted rfl⟩
  | noDiff hm hresponse hmissing =>
      exact ⟨⟨rfl, rfl⟩, respondToNoDiff_acceptor hhost hat hnone hm hresponse hmissing⟩
  | discSectorsDiff hm hresponse hmissing hmessage hmade hnames =>
      refine ⟨⟨rfl, rfl⟩, respondToDiscSectorsDiff_acceptor hhost hat hnone hm hresponse hmissing
        hmessage hmade hnames ?_⟩
      intro state hslot c hc
      exact ⟨hmeets.dht state hslot c hc, hmeets.permitted state hslot c hc⟩
  | ringSectorDetailsDiff hm hresponse hmissing hmessage hmade hnames =>
      refine ⟨⟨rfl, rfl⟩, respondToRingSectorDetailsDiff_acceptor hhost hat hnone hm hresponse
        hmissing hmessage hmade hnames ?_⟩
      intro state hslot c hc
      exact ⟨hmeets.dht state hslot c hc,
        fun hshows => hmeets.permitted state hslot c hc hshows _ hresponse⟩
  | discSectorDetailsDiffResponse hm hmessage hmade hnames =>
      exact ⟨⟨rfl, rfl⟩, respondToDiscSectorDetailsDiffResponse_acceptor hhost.toHealthy hat hnone hm
        hmessage hmade hnames hmeets.dht⟩
  | endsAcceptor hends =>
      exact ⟨⟨rfl, rfl⟩, respond_ending_acceptor hhost.toHealthy hends hat hnone⟩

/-- The initiator handles a message of a phase, and the round goes on. -/
theorem Phase.initiator (h : Phase session ourStage theirStage others (msg :: more))
    (hat : AtStage peer session (g.initiatedWith peer) ourStage)
    (hmeets : MeetsPeer loc host peer (g.initiatedWith peer) g msg) :
    (others = [] ∧ more = []) ∧
      Ends (respond loc host peer msg) g (InitiatorGoesOn peer session theirStage) := by
  have hhost := hmeets.answered
  cases h with
  | busy => exact ⟨⟨rfl, rfl⟩, respondToBusy_initiator hhost.toHealthy hat⟩
  | accept hm hmissing harcs =>
      exact ⟨⟨rfl, rfl⟩, respondToAccept_initiator hhost hat hm hmissing harcs hmeets.dht⟩
  | discSectorDetailsDiff hm hmessage hmade hnames =>
      exact ⟨⟨rfl, rfl⟩, respondToDiscSectorDetailsDiff_initiator hat hm hmessage hmade hnames
        hmeets.dht⟩
  | ringSectorDetailsDiffResponse hm hmessage hmade hnames =>
      exact ⟨⟨rfl, rfl⟩, respondToRingSectorDetailsDiffResponse_initiator hhost.toHealthy hat hm
        hmessage hmade hnames hmeets.dht⟩
  | agents hm => exact ⟨⟨rfl, rfl⟩, respondToAgents_initiator hhost hat hm⟩
  | endsInitiator hends =>
      exact ⟨⟨rfl, rfl⟩, respond_ending_initiator hhost.toHealthy hends hat⟩

end Handlers

/-! ## The two nodes -/

/-- Two nodes and the messages of their round in flight to each; and what messages of the round have
been rejected for. -/
structure RoundOfTwo (Url : Type) where
  initiator : K2Gossip Url
  acceptor : K2Gossip Url
  toInitiator : List GossipMessage
  toAcceptor : List GossipMessage
  rejected : List PeerBehavior

inductive RoundEvent (Url : Type)
  /-- The next message in flight to the initiator is handled. -/
  | initiatorHandles (host : Host) (recorded : Bool)
  /-- The next message in flight to the acceptor is handled. -/
  | acceptorHandles (host : Host) (recorded : Bool)
  /-- The initiator does anything else. -/
  | initiatorMoves (g : K2Gossip Url)
  /-- The acceptor does anything else. -/
  | acceptorMoves (g : K2Gossip Url)

/-- The rounds with a peer are left as they are. -/
structure LeavesRounds (peer : Url) (g g' : K2Gossip Url) : Prop where
  initiated : g'.initiatedWith peer = g.initiatedWith peer
  accepted : g'.acceptedRoundStates.lookup peer = g.acceptedRoundStates.lookup peer

namespace RoundOfTwo

variable (loc : LocCb) (initiatorUrl acceptorUrl : Url)

def rejections : Except K2GossipError (Option GossipMessage) → List PeerBehavior
  | .error (.peerBehavior ctx) => [ctx]
  | _ => []

def step (s : RoundOfTwo Url) : RoundEvent Url → RoundOfTwo Url
  | .initiatorHandles host recorded =>
      match s.toInitiator with
      | [] => s
      | msg :: more =>
          let answer := (respond loc host acceptorUrl msg s.initiator).1
          { s with
            initiator := (handleGossipMessage loc host recorded acceptorUrl msg s.initiator).1
            toInitiator := more
            toAcceptor := s.toAcceptor ++ Crossing.sent host answer
            rejected := s.rejected ++ rejections answer }
  | .acceptorHandles host recorded =>
      match s.toAcceptor with
      | [] => s
      | msg :: more =>
          let answer := (respond loc host initiatorUrl msg s.acceptor).1
          { s with
            acceptor := (handleGossipMessage loc host recorded initiatorUrl msg s.acceptor).1
            toAcceptor := more
            toInitiator := s.toInitiator ++ Crossing.sent host answer
            rejected := s.rejected ++ rejections answer }
  | .initiatorMoves g => { s with initiator := g }
  | .acceptorMoves g => { s with acceptor := g }

/-- The initiate has been sent. -/
def start (initiator acceptor : K2Gossip Url) (m : InitiateMessage) : RoundOfTwo Url where
  initiator := initiator
  acceptor := acceptor
  toInitiator := []
  toAcceptor := [.initiate m]
  rejected := []

/-- Messages are handled where they meet the condition, and nothing else touches the round. -/
def Proper (s : RoundOfTwo Url) : RoundEvent Url → Prop
  | .initiatorHandles host _ => ∀ msg ∈ s.toInitiator.head?,
      MeetsPeer loc host acceptorUrl (s.initiator.initiatedWith acceptorUrl) s.initiator msg
  | .acceptorHandles host _ => ∀ msg ∈ s.toAcceptor.head?,
      MeetsPeer loc host initiatorUrl (s.acceptor.acceptedRoundStates.lookup initiatorUrl) s.acceptor
        msg
  | .initiatorMoves g => LeavesRounds acceptorUrl s.initiator g
  | .acceptorMoves g => LeavesRounds initiatorUrl s.acceptor g

/-! ## The invariant -/

/-- The round is in one of its phases, and no message was rejected. -/
structure Sound (session : Bytes) (s : RoundOfTwo Url) : Prop where
  phase : ∃ stageI stageA,
    AtStage acceptorUrl session (s.initiator.initiatedWith acceptorUrl) stageI ∧
    AtStage initiatorUrl session (s.acceptor.acceptedRoundStates.lookup initiatorUrl) stageA ∧
    Phase session stageI stageA s.toAcceptor s.toInitiator
  single : s.acceptor.initiatedWith initiatorUrl = none
  rejected : s.rejected = []

variable {loc initiatorUrl acceptorUrl} {session : Bytes} {s : RoundOfTwo Url}

theorem initiatedWith_of_sameRounds {peer : Url} {g g' : K2Gossip Url} (h : SameRounds g g') :
    g'.initiatedWith peer = g.initiatedWith peer := by
  unfold K2Gossip.initiatedWith
  rw [h.1]

theorem sent_ok {host : Host} (hhost : host.Healthy) (answer : Option GossipMessage) :
    Crossing.sent host (.ok answer) = answer.toList := by
  cases answer with
  | none => rfl
  | some msg =>
      unfold Crossing.sent
      dsimp only
      rw [hhost.call]
      rfl

theorem Sound.initiatorHandles (h : Sound initiatorUrl acceptorUrl session s) {host : Host}
    {recorded : Bool}
    (hproper : Proper loc initiatorUrl acceptorUrl s (.initiatorHandles host recorded)) :
    Sound initiatorUrl acceptorUrl session
      (step loc initiatorUrl acceptorUrl s (.initiatorHandles host recorded)) := by
  unfold step
  dsimp only
  cases hflight : s.toInitiator with
  | nil => exact h
  | cons msg more =>
      rcases h.phase with ⟨stageI, stageA, hatI, hatA, hphase⟩
      have hmeets := hproper msg (congrArg List.head? hflight)
      rw [hflight] at hphase
      rcases hphase.initiator hatI hmeets with ⟨⟨hothers, rfl⟩, hends⟩
      rcases hrun : respond loc host acceptorUrl msg s.initiator with ⟨r, g₁⟩
      rcases hends.of_run hrun with ⟨answer, stageI', rfl, hatI', hphase'⟩
      have hrounds := handleGossipMessage_rounds hrun recorded
      have hanswer : (respond loc host acceptorUrl msg s.initiator).1 = .ok answer := by rw [hrun]
      dsimp only
      rw [hothers, hanswer, sent_ok hmeets.answered.toHealthy]
      refine ⟨⟨stageI', stageA, ?_, hatA, hphase'⟩, h.single, ?_⟩
      · rw [initiatedWith_of_sameRounds hrounds]
        exact hatI'
      · rw [h.rejected]
        rfl

theorem Sound.acceptorHandles (h : Sound initiatorUrl acceptorUrl session s) {host : Host}
    {recorded : Bool}
    (hproper : Proper loc initiatorUrl acceptorUrl s (.acceptorHandles host recorded)) :
    Sound initiatorUrl acceptorUrl session
      (step loc initiatorUrl acceptorUrl s (.acceptorHandles host recorded)) := by
  unfold step
  dsimp only
  cases hflight : s.toAcceptor with
  | nil => exact h
  | cons msg more =>
      rcases h.phase with ⟨stageI, stageA, hatI, hatA, hphase⟩
      have hmeets := hproper msg (congrArg List.head? hflight)
      rw [hflight] at hphase
      rcases hphase.acceptor hatA h.single hmeets with ⟨⟨rfl, hothers⟩, hends⟩
      rcases hrun : respond loc host initiatorUrl msg s.acceptor with ⟨r, g₁⟩
      rcases hends.of_run hrun with ⟨hnone, answer, stageA', rfl, hatA', hphase'⟩
      -- the settled state has the rounds the handler left
      have hrounds := handleGossipMessage_rounds hrun recorded
      have hanswer : (respond loc host initiatorUrl msg s.acceptor).1 = .ok answer := by rw [hrun]
      dsimp only
      rw [hothers, hanswer, sent_ok hmeets.answered.toHealthy]
      refine ⟨⟨stageI, stageA', hatI, ?_, hphase'⟩, ?_, ?_⟩
      · rw [hrounds.2]
        exact hatA'
      · rw [initiatedWith_of_sameRounds hrounds]
        exact hnone
      · rw [h.rejected]
        rfl

theorem Sound.step (h : Sound initiatorUrl acceptorUrl session s) {e : RoundEvent Url}
    (hproper : Proper loc initiatorUrl acceptorUrl s e) :
    Sound initiatorUrl acceptorUrl session (step loc initiatorUrl acceptorUrl s e) := by
  cases e with
  | initiatorHandles host recorded => exact h.initiatorHandles hproper
  | acceptorHandles host recorded => exact h.acceptorHandles hproper
  | initiatorMoves g =>
      rcases h.phase with ⟨stageI, stageA, hatI, hatA, hphase⟩
      exact ⟨⟨stageI, stageA, hproper.initiated ▸ hatI, hatA, hphase⟩, h.single, h.rejected⟩
  | acceptorMoves g =>
      rcases h.phase with ⟨stageI, stageA, hatI, hatA, hphase⟩
      exact ⟨⟨stageI, stageA, hatI, hproper.accepted ▸ hatA, hphase⟩,
        hproper.initiated.trans h.single, h.rejected⟩

/-- With nothing in flight, neither node holds the round. -/
theorem Phase.ended_of_quiet {stageI stageA : Option RoundStage}
    (h : Phase session stageI stageA [] []) : stageI = none ∧ stageA = none := by
  cases h with
  | ended => exact ⟨rfl, rfl⟩

/-- In a run that meets the condition no message of the round is rejected, and once none is in flight
neither node holds the round. -/
theorem round_closes (loc : LocCb) {initiatorUrl acceptorUrl : Url} {host : Host} {session : Bytes}
    {tieBreaker : Nat} {initiator initiator' acceptor : K2Gossip Url} {m : InitiateMessage}
    (hinitiate : initiateGossip host session tieBreaker acceptorUrl initiator =
      (.ok (some m), initiator'))
    (hsingle : acceptor.initiatedWith initiatorUrl = none)
    (hslot : acceptor.acceptedRoundStates.lookup initiatorUrl = none)
    (events : List (RoundEvent Url))
    (hrun : Along (step loc initiatorUrl acceptorUrl) (Proper loc initiatorUrl acceptorUrl)
      (start initiator' acceptor m) events) :
    let s := events.foldl (step loc initiatorUrl acceptorUrl) (start initiator' acceptor m)
    s.rejected = [] ∧ (s.toAcceptor = [] → s.toInitiator = [] →
      s.initiator.initiatedWith acceptorUrl = none ∧
        s.acceptor.acceptedRoundStates.lookup initiatorUrl = none) := by
  rcases initiateGossip_opens hinitiate with
    ⟨⟨hsession, -⟩, -, ourArcSet, state, harcs, hstate, hpeer, hstateSession, hstage⟩
  have hstart : Sound initiatorUrl acceptorUrl session (start initiator' acceptor m) :=
    ⟨⟨some (.initiated m.participatingAgents ourArcSet m.tieBreaker), none,
      ⟨state, initiatedWith_eq_some_iff.mpr ⟨hstate, hpeer⟩, hpeer, hstateSession.trans hsession,
        hstage⟩,
      hslot, .initiate hsession harcs⟩, hsingle, rfl⟩
  intro s
  -- the run lemma: every step keeps the invariant
  have hend : Sound initiatorUrl acceptorUrl session s :=
    hrun.invariant hstart fun _ _ h hproper => h.step hproper
  refine ⟨hend.rejected, ?_⟩
  intro hquietA hquietI
  rcases hend.phase with ⟨stageI, stageA, hatI, hatA, hphase⟩
  rw [hquietA, hquietI] at hphase
  rcases Phase.ended_of_quiet hphase with ⟨rfl, rfl⟩
  exact ⟨hatI, hatA⟩

/-! ## A round about one sector -/

def roundTime : Int := 1000000000000

/-- The sector that both nodes store. -/
def firstSector : ArcSet where
  inner := {0}
  bounded := ArcSet.zero_bounded

/-- The DHT of a node without ops. -/
def behindDht : Dht.DhtState := DhtState.laidOutDht roundTime []

/-- The DHT of a node that has stored one old op. -/
def aheadDht : Dht.DhtState :=
  (DhtState.informOpsStored (fun _ => 0) [⟨[1], 5000000⟩]
    (DhtState.laidOutDht roundTime [⟨⟨[1], 5000000⟩, 3⟩])).2

/-- A host with one agent in the first sector; `known` is the info of any agent. -/
def sectorHost (known : Option Bytes) (dht : Dht.DhtState) : Host where
  now := roundTime
  instant := 0
  localAgents := .ok [([1], sectorArc 0)]
  peerStoreGet := fun _ => .ok known
  peerStoreInsert := fun _ => .ok ()
  retrieveOpIdsBounded := fun _ _ _ => .ok ([], 0, roundTime)
  dht := dht
  call := fun _ => .ok ()

theorem sectorHost_answers (known : Option Bytes) {dht : Dht.DhtState}
    (hdht : (minimalSnapshotMessage (sectorHost known dht) firstSector).isOk = true) :
    (sectorHost known dht).Answers := by
  have hagents : localAgentState (sectorHost known dht) = .ok ([[1]], firstSector) :=
    bind_eq_ok_iff.mpr ⟨_, rfl, bind_eq_ok_iff.mpr
      ⟨firstSector, by show ArcSet.new [sectorArc 0] = .ok firstSector; decide +kernel, rfl⟩⟩
  refine
    { call := fun _ => rfl
      agents := ⟨_, _, hagents⟩
      peerStore := fun _ => ⟨known, rfl⟩
      opStore := fun _ _ _ => ⟨_, rfl⟩
      snapshot := ?_
      insert := fun _ => rfl }
  intro agents arcSet other h
  rw [hagents] at h
  cases h
  by_cases hother : 0 ∈ other.inner
  · have hsame : firstSector.intersection other = firstSector :=
      ArcSet.ext (Finset.inter_eq_left.mpr (Finset.singleton_subset_iff.mpr hother))
    rw [hsame]
    cases hrun : minimalSnapshotMessage (sectorHost known dht) firstSector with
    | error fault =>
        rw [hrun] at hdht
        cases hdht
    | ok message => exact ⟨message, rfl⟩
  · -- no common sector to snapshot
    have hnone : firstSector.intersection other = ArcSet.empty :=
      ArcSet.ext (Finset.singleton_inter_of_notMem hother)
    rw [hnone]
    exact ⟨none, rfl⟩

theorem behind_answers (known : Option Bytes) : (sectorHost known behindDht).Answers :=
  sectorHost_answers known (by
    show (minimalSnapshotMessage (sectorHost none behindDht) firstSector).isOk = true
    decide +kernel)

theorem ahead_answers (known : Option Bytes) : (sectorHost known aheadDht).Answers :=
  sectorHost_answers known (by
    show (minimalSnapshotMessage (sectorHost none aheadDht) firstSector).isOk = true
    decide +kernel)

/-- The initiate of the node that is ahead. -/
def sectorInitiate : InitiateMessage where
  sessionId := [7]
  participatingAgents := [[1]]
  arcSet := some firstSector.encode
  tieBreaker := 0
  newSince := roundTime - 2 * unitTime
  maxOpDataBytes := (limitedConfig 10).maxGossipOpBytes
  dhtOpCount := some 1

def sectorStart : RoundOfTwo Nat :=
  start (initiateGossip (sectorHost none aheadDht) [7] 0 2 (Running.start (limitedConfig 10)).g).2
    (Running.start (limitedConfig 10)).g sectorInitiate

/-- The acceptor has the DHT `atAccept` when it accepts, and `later` from then on. -/
def sectorRun (known : Option Bytes) (atAccept later : Dht.DhtState) : List (RoundEvent Nat) :=
  [.acceptorHandles (sectorHost (some [9]) atAccept) true,
    .initiatorHandles (sectorHost known aheadDht) true,
    .acceptorHandles (sectorHost (some [9]) later) true,
    .initiatorHandles (sectorHost known aheadDht) true,
    .acceptorHandles (sectorHost (some [9]) later) true,
    .initiatorHandles (sectorHost known aheadDht) true]

def sectorEnd (known : Option Bytes) (atAccept later : Dht.DhtState) : RoundOfTwo Nat :=
  (sectorRun known atAccept later).foldl (step (fun _ => 0) 1 2) sectorStart

/-- What the condition on a message asks beside answers of the host. -/
def Fits (loc : LocCb) (initiatorUrl acceptorUrl : Nat) (s : RoundOfTwo Nat) : RoundEvent Nat → Prop
  | .initiatorHandles host _ => ∀ msg ∈ s.toInitiator.head?,
      (∀ state ∈ s.initiator.initiatedWith acceptorUrl, ∀ c ∈ state.comparison msg,
        c.answers loc host.dht = true) ∧
        Permits host acceptorUrl (s.initiator.initiatedWith acceptorUrl) s.initiator msg
  | .acceptorHandles host _ => ∀ msg ∈ s.toAcceptor.head?,
      (∀ state ∈ s.acceptor.acceptedRoundStates.lookup initiatorUrl, ∀ c ∈ state.comparison msg,
        c.answers loc host.dht = true) ∧
        Permits host initiatorUrl (s.acceptor.acceptedRoundStates.lookup initiatorUrl) s.acceptor msg
  | .initiatorMoves _ => True
  | .acceptorMoves _ => True

instance Fits.decidable (loc : LocCb) (initiatorUrl acceptorUrl : Nat) (s : RoundOfTwo Nat) :
    ∀ e : RoundEvent Nat, Decidable (Fits loc initiatorUrl acceptorUrl s e)
  | .initiatorHandles _ _ => inferInstanceAs (Decidable (∀ msg ∈ s.toInitiator.head?, _ ∧ _))
  | .acceptorHandles _ _ => inferInstanceAs (Decidable (∀ msg ∈ s.toAcceptor.head?, _ ∧ _))
  | .initiatorMoves _ => .isTrue trivial
  | .acceptorMoves _ => .isTrue trivial

theorem sectorRun_fits :
    Along (step (fun _ => 0) 1 2) (Fits (fun _ => 0) 1 2) sectorStart
      (sectorRun (some [9]) behindDht behindDht) := by
  decide +kernel

theorem sectorRun_proper :
    Along (step (fun _ => 0) 1 2) (Proper (fun _ => 0) 1 2) sectorStart
      (sectorRun (some [9]) behindDht behindDht) := by
  have hbehind := behind_answers (some [9])
  have hahead := ahead_answers (some [9])
  rcases sectorRun_fits with ⟨h₁, h₂, h₃, h₄, h₅, h₆, -⟩
  exact ⟨fun msg hmsg => ⟨hbehind, (h₁ msg hmsg).1, (h₁ msg hmsg).2⟩,
    fun msg hmsg => ⟨hahead, (h₂ msg hmsg).1, (h₂ msg hmsg).2⟩,
    fun msg hmsg => ⟨hbehind, (h₃ msg hmsg).1, (h₃ msg hmsg).2⟩,
    fun msg hmsg => ⟨hahead, (h₄ msg hmsg).1, (h₄ msg hmsg).2⟩,
    fun msg hmsg => ⟨hbehind, (h₅ msg hmsg).1, (h₅ msg hmsg).2⟩,
    fun msg hmsg => ⟨hahead, (h₆ msg hmsg).1, (h₆ msg hmsg).2⟩, trivial⟩

theorem sectorInitiate_sent :
    initiateGossip (sectorHost none aheadDht) [7] 0 2 (Running.start (limitedConfig 10)).g =
      (.ok (some sectorInitiate), sectorStart.initiator) := by
  refine Prod.ext ?_ rfl
  decide +kernel

/-- An acceptor that stays behind is told of the op's slice, and the round ends. -/
theorem round_closes_sector :
    (sectorEnd (some [9]) behindDht behindDht).rejected = [] ∧
      (sectorEnd (some [9]) behindDht behindDht).initiator.initiatedWith 2 = none ∧
      (sectorEnd (some [9]) behindDht behindDht).acceptor.acceptedRoundStates.lookup 1 = none := by
  have hclosed := round_closes (fun _ => 0) sectorInitiate_sent rfl rfl _ sectorRun_proper
  exact ⟨hclosed.1, hclosed.2 (by decide +kernel) (by decide +kernel)⟩

/-- An acceptor that has stored the op by the time of the `DiscSectorsDiff` finds nothing to compare.
It leaves without a word, and the initiator keeps its round with nothing in flight; or it sends the
agents that the initiator has asked for, which the initiator refuses. -/
theorem caught_up_acceptor_leaves_round :
    initiateGossip (sectorHost none aheadDht) [7] 0 2 (Running.start (limitedConfig 10)).g =
        (.ok (some sectorInitiate), sectorStart.initiator) ∧
      ((sectorHost (some [9]) behindDht).Answers ∧ (sectorHost (some [9]) aheadDht).Answers ∧
        (sectorHost none aheadDht).Answers) ∧
      ((sectorEnd (some [9]) behindDht aheadDht).toAcceptor = [] ∧
        (sectorEnd (some [9]) behindDht aheadDht).toInitiator = [] ∧
        (sectorEnd (some [9]) behindDht aheadDht).initiator.hasInitiated 2 [7] = true) ∧
      (sectorEnd none behindDht aheadDht).rejected = [.unexpectedStage .agents] := by
  refine ⟨sectorInitiate_sent, ⟨behind_answers _, ahead_answers _, ahead_answers _⟩, ?_, ?_⟩
  · decide +kernel
  · decide +kernel

end RoundOfTwo

end Gossip
end Kitsune2
