import Kitsune2.Dht.NamedSectors
import Kitsune2.Gossip.Crossing
import Kitsune2.Gossip.FailedAccept
import Kitsune2.Gossip.WireSnapshots

/-!
# HonestRound — one round between two nodes that run the protocol

At every moment of a round at most one of its messages is in flight, and the message fits the stages
in which both nodes hold the round: `Phase` lists the ways.  Every handler, given a host that answers
and the message of a phase, leads to a phase again.
-/

namespace Kitsune2
namespace Gossip

open Api Lib Dht
open Std (ExtTreeMap)

variable {Url : Type} [DecidableEq Url]

/-! ## Stages -/

/-- The round that a node has initiated with a peer. -/
def K2Gossip.initiatedWith (g : K2Gossip Url) (peer : Url) : Option (GossipRoundState Url) :=
  g.initiatedRoundState.filter fun state => state.sessionWithPeer = peer

/-- A slot holds the session in this stage, or it is empty. -/
def AtStage (peer : Url) (session : Bytes) (slot : Option (GossipRoundState Url)) :
    Option RoundStage → Prop
  | some stage => ∃ state, slot = some state ∧ state.sessionWithPeer = peer ∧
      state.sessionId = session ∧ state.stage = stage
  | none => slot = none

/-- The two messages that end a round in any stage. -/
def Ending (session : Bytes) : GossipMessage → Prop
  | .hashes m => m.sessionId = session
  | .terminate m => m.sessionId = session
  | _ => False

/-- The stages in which the initiator and the acceptor hold a session, and the messages in flight to
the acceptor and to the initiator. -/
inductive Phase (session : Bytes) :
    Option RoundStage → Option RoundStage → List GossipMessage → List GossipMessage → Prop
  | initiate {ourArcSet : ArcSet} {m : InitiateMessage} :
      m.sessionId = session → m.arcSet = some ourArcSet.encode →
      Phase session (some (.initiated m.participatingAgents ourArcSet m.tieBreaker)) none
        [.initiate m] []
  | busy {stage : RoundStage} :
      Phase session (some stage) none [] [.busy { sessionId := session }]
  | accept {ourAgents : List Bytes} {ourArcSet theirArcSet : ArcSet} {tieBreaker : Nat}
      {m : AcceptMessage} :
      m.sessionId = session → (∀ a ∈ m.missingAgents, a ∈ ourAgents) →
      m.arcSet = some theirArcSet.encode →
      Phase session (some (.initiated ourAgents ourArcSet tieBreaker))
        (some (.accepted m.participatingAgents (theirArcSet.intersection ourArcSet))) [] [.accept m]
  | noDiff {ourAgents : List Bytes} {commonArcSet : ArcSet} {response : AcceptResponseMessage}
      {m : NoDiffMessage} :
      m.sessionId = session → m.acceptResponse = some response →
      (∀ a ∈ response.missingAgents, a ∈ ourAgents) →
      Phase session (some .noDiff) (some (.accepted ourAgents commonArcSet)) [.noDiff m] []
  | discSectorsDiff {ourAgents : List Bytes} {commonArcSet : ArcSet}
      {response : AcceptResponseMessage} {snapshot : DhtSnapshot}
      {message : SnapshotDiscSectorsMessage} {m : DiscSectorsDiffMessage} :
      m.sessionId = session → m.acceptResponse = some response →
      (∀ a ∈ response.missingAgents, a ∈ ourAgents) → m.snapshot = some message →
      SnapshotDiscSectorsMessage.ofSnapshot snapshot = .ok message →
      NamesWithin commonArcSet snapshot →
      Phase session (some (.discSectorsDiff commonArcSet)) (some (.accepted ourAgents commonArcSet))
        [.discSectorsDiff m] []
  | ringSectorDetailsDiff {ourAgents : List Bytes} {commonArcSet : ArcSet}
      {response : AcceptResponseMessage} {snapshot : DhtSnapshot}
      {message : SnapshotRingSectorDetailsMessage} {m : RingSectorDetailsDiffMessage} :
      m.sessionId = session → m.acceptResponse = some response →
      (∀ a ∈ response.missingAgents, a ∈ ourAgents) → m.snapshot = some message →
      SnapshotRingSectorDetailsMessage.ofSnapshot snapshot = .ok message →
      NamesWithin commonArcSet snapshot →
      Phase session (some (.ringSectorDetailsDiff commonArcSet snapshot))
        (some (.accepted ourAgents commonArcSet)) [.ringSectorDetailsDiff m] []
  | discSectorDetailsDiff {commonArcSet : ArcSet} {snapshot : DhtSnapshot}
      {message : SnapshotDiscSectorDetailsMessage} {m : DiscSectorDetailsDiffMessage} :
      m.sessionId = session → m.snapshot = some message →
      SnapshotDiscSectorDetailsMessage.ofSnapshot snapshot = .ok message →
      NamesWithin commonArcSet snapshot →
      Phase session (some (.discSectorsDiff commonArcSet))
        (some (.discSectorDetailsDiff commonArcSet snapshot)) [] [.discSectorDetailsDiff m]
  | discSectorDetailsDiffResponse {commonArcSet : ArcSet} {snapshot theirs : DhtSnapshot}
      {message : SnapshotDiscSectorDetailsMessage} {m : DiscSectorDetailsDiffResponseMessage} :
      m.sessionId = session → m.snapshot = some message →
      SnapshotDiscSectorDetailsMessage.ofSnapshot snapshot = .ok message →
      NamesWithin commonArcSet snapshot →
      Phase session (some (.discSectorDetailsDiff commonArcSet snapshot))
        (some (.discSectorDetailsDiff commonArcSet theirs)) [.discSectorDetailsDiffResponse m] []
  | ringSectorDetailsDiffResponse {commonArcSet : ArcSet} {snapshot theirs : DhtSnapshot}
      {message : SnapshotRingSectorDetailsMessage} {m : RingSectorDetailsDiffResponseMessage} :
      m.sessionId = session → m.snapshot = some message →
      SnapshotRingSectorDetailsMessage.ofSnapshot snapshot = .ok message →
      NamesWithin commonArcSet snapshot →
      Phase session (some (.ringSectorDetailsDiff commonArcSet theirs))
        (some (.ringSectorDetailsDiff commonArcSet snapshot)) [] [.ringSectorDetailsDiffResponse m]
  | agents {m : AgentsMessage} :
      m.sessionId = session → Phase session (some .noDiff) none [] [.agents m]
  | endsAcceptor {stage : RoundStage} {msg : GossipMessage} :
      Ending session msg → Phase session none (some stage) [msg] []
  | endsInitiator {stage : RoundStage} {msg : GossipMessage} :
      Ending session msg → Phase session (some stage) none [] [msg]
  | ended : Phase session none none [] []

/-! ## What is compared -/

/-- What a handler gives its DHT to compare. -/
structure Comparison where
  theirSnapshot : DhtSnapshot
  ourPreviousSnapshot : Option DhtSnapshot
  arcSet : ArcSet
  maxOpDataBytes : Int

namespace Comparison

variable (loc : LocCb) (d : Dht.DhtState) (c : Comparison)

/-- The DHT can compare. -/
def answers : Bool :=
  (d.handleSnapshot loc c.theirSnapshot c.ourPreviousSnapshot c.arcSet c.maxOpDataBytes).isOk

/-- Our snapshot is theirs, or is of other times. -/
def showsNothing : Bool :=
  match d.matchingSnapshot c.theirSnapshot c.ourPreviousSnapshot c.arcSet with
  | .ok ours => decide (ours.compare c.theirSnapshot = .identical ∨
      ours.compare c.theirSnapshot = .cannotCompare)
  | .error _ => false

variable {loc d c}

theorem exists_answer (h : c.answers loc d = true) :
    ∃ nextAction used, d.handleSnapshot loc c.theirSnapshot c.ourPreviousSnapshot c.arcSet
      c.maxOpDataBytes = .ok (nextAction, used) := by
  unfold answers at h
  cases hrun : d.handleSnapshot loc c.theirSnapshot c.ourPreviousSnapshot c.arcSet c.maxOpDataBytes with
  | error fault =>
      rw [hrun] at h
      cases h
  | ok answer => exact ⟨answer.1, answer.2, rfl⟩

theorem showsNothing_of {ours : DhtSnapshot}
    (hours : d.matchingSnapshot c.theirSnapshot c.ourPreviousSnapshot c.arcSet = .ok ours)
    (hcompare : ours.compare c.theirSnapshot = .identical ∨
      ours.compare c.theirSnapshot = .cannotCompare) : c.showsNothing d = true := by
  unfold showsNothing
  rw [hours]
  exact decide_eq_true hcompare

end Comparison

namespace RoundStage

/-- The comparison for a message, in a stage of the round. -/
def comparison (maxOpDataBytes : Int) : RoundStage → GossipMessage → Option Comparison
  | .initiated _ ourArcSet _, .accept m => do
      let otherArcSet ← (ArcSet.decode (← m.arcSet)).toOption
      let snapshot ← m.snapshot
      pure
        { theirSnapshot := snapshot.toSnapshot, ourPreviousSnapshot := none
          arcSet := otherArcSet.intersection ourArcSet, maxOpDataBytes := 0 }
  | .accepted _ commonArcSet, .discSectorsDiff m => do
      let snapshot ← (← m.snapshot).toSnapshot.toOption
      pure
        { theirSnapshot := snapshot, ourPreviousSnapshot := none
          arcSet := commonArcSet, maxOpDataBytes := 0 }
  | .accepted _ commonArcSet, .ringSectorDetailsDiff m => do
      let snapshot ← (← m.snapshot).toSnapshot.toOption
      pure
        { theirSnapshot := snapshot, ourPreviousSnapshot := none
          arcSet := commonArcSet, maxOpDataBytes := maxOpDataBytes }
  | .discSectorsDiff commonArcSet, .discSectorDetailsDiff m => do
      let snapshot ← (← m.snapshot).toSnapshot.toOption
      pure
        { theirSnapshot := snapshot, ourPreviousSnapshot := none
          arcSet := commonArcSet, maxOpDataBytes := maxOpDataBytes }
  | .discSectorDetailsDiff commonArcSet ourSnapshot, .discSectorDetailsDiffResponse m => do
      let snapshot ← (← m.snapshot).toSnapshot.toOption
      pure
        { theirSnapshot := snapshot, ourPreviousSnapshot := some ourSnapshot
          arcSet := commonArcSet, maxOpDataBytes := maxOpDataBytes }
  | .ringSectorDetailsDiff commonArcSet ourSnapshot, .ringSectorDetailsDiffResponse m => do
      let snapshot ← (← m.snapshot).toSnapshot.toOption
      pure
        { theirSnapshot := snapshot, ourPreviousSnapshot := some ourSnapshot
          arcSet := commonArcSet, maxOpDataBytes := maxOpDataBytes }
  | _, _ => none

end RoundStage

/-- The comparison for a message, in a round. -/
def GossipRoundState.comparison (state : GossipRoundState Url) (msg : GossipMessage) :
    Option Comparison :=
  state.stage.comparison state.peerMaxOpDataBytes msg

/-! ## Snapshots in messages -/

section Messages

variable {kind : MessageKind} {commonArcSet : ArcSet} {snapshot : DhtSnapshot}

theorem validateSectors_of {sectors : List Nat} (h : ∀ i ∈ sectors, i ∈ commonArcSet.inner) :
    validateSectors kind sectors commonArcSet = .ok () := by
  unfold validateSectors
  refine if_neg ?_
  intro hany
  rcases List.any_eq_true.mp hany with ⟨i, hi, hnot⟩
  have hincluded : commonArcSet.includesSectorIndex i = true := decide_eq_true (h i hi)
  rw [hincluded] at hnot
  cases hnot

theorem validateMissingAgents_of {missingAgents ourAgents : List Bytes}
    (h : ∀ a ∈ missingAgents, a ∈ ourAgents) :
    validateMissingAgents kind missingAgents ourAgents = .ok () := by
  unfold validateMissingAgents
  refine if_neg ?_
  intro hany
  rcases List.any_eq_true.mp hany with ⟨a, ha, hnot⟩
  have hcontains : ourAgents.contains a = true := List.contains_iff_mem.mpr (h a ha)
  rw [hcontains] at hnot
  cases hnot

theorem validateSession_of {state : GossipRoundState Url} {peer : Url} {sessionId : Bytes}
    (hpeer : state.sessionWithPeer = peer) (hsession : state.sessionId = sessionId) :
    validateSession kind state peer sessionId = .ok () := by
  unfold validateSession
  rw [if_neg (not_not.mpr hpeer), if_neg (not_not.mpr hsession)]

/-- A message that was made of a snapshot is that snapshot again, and names its sectors only. -/
theorem discSectors_read (kind : MessageKind) {message : SnapshotDiscSectorsMessage}
    (h : SnapshotDiscSectorsMessage.ofSnapshot snapshot = .ok message)
    (hnames : NamesWithin commonArcSet snapshot) :
    (∃ hashes boundary, snapshot = .discSectors hashes boundary) ∧
      message.toSnapshot = .ok snapshot ∧
      validateSectors kind message.discSectors commonArcSet = .ok () := by
  have hback := throughMessage_ok .ascending snapshot
  cases snapshot with
  | discSectors hashes boundary =>
      unfold throughMessage at hback
      dsimp only at hback
      rw [tryFrom_ascending.1, h] at hback
      refine ⟨⟨hashes, boundary, rfl⟩, hback, validateSectors_of ?_⟩
      cases h
      exact fun i hi => hnames i (ExtTreeMap.mem_keys.mp hi)
  | _ => cases h

theorem discSectorDetails_read (kind : MessageKind) {message : SnapshotDiscSectorDetailsMessage}
    (h : SnapshotDiscSectorDetailsMessage.ofSnapshot snapshot = .ok message)
    (hnames : NamesWithin commonArcSet snapshot) :
    (∃ hashes boundary, snapshot = .discSectorDetails hashes boundary) ∧
      message.toSnapshot = .ok snapshot ∧
      validateSectors kind message.sectorIndices commonArcSet = .ok () := by
  have hback := throughMessage_ok .ascending snapshot
  cases snapshot with
  | discSectorDetails hashes boundary =>
      unfold throughMessage at hback
      dsimp only at hback
      rw [tryFrom_ascending.2.1, h] at hback
      refine ⟨⟨hashes, boundary, rfl⟩, hback, validateSectors_of ?_⟩
      cases h
      exact fun i hi => hnames i (ExtTreeMap.mem_keys.mp hi)
  | _ => cases h

theorem ringSectorDetails_read (kind : MessageKind) {message : SnapshotRingSectorDetailsMessage}
    (h : SnapshotRingSectorDetailsMessage.ofSnapshot snapshot = .ok message)
    (hnames : NamesWithin commonArcSet snapshot) :
    (∃ hashes boundary, snapshot = .ringSectorDetails hashes boundary) ∧
      message.toSnapshot = .ok snapshot ∧
      validateSectors kind (message.ringSectorHashes.flatMap fun sh => sh.indices) commonArcSet =
        .ok () := by
  have hback := throughMessage_ok .ascending snapshot
  cases snapshot with
  | ringSectorDetails hashes boundary =>
      unfold throughMessage at hback
      dsimp only at hback
      rw [tryFrom_ascending.2.2, h] at hback
      refine ⟨⟨hashes, boundary, rfl⟩, hback, validateSectors_of ?_⟩
      cases h
      intro i hi
      rcases List.mem_flatMap.mp hi with ⟨sh, hsh, hi⟩
      rcases List.mem_map.mp hsh with ⟨sectors, hsectors, rfl⟩
      -- the hashes of some ring
      rw [← map_snd_toList_eq_values] at hsectors
      rcases List.mem_map.mp hsectors with ⟨⟨ring, sectors'⟩, hentry, rfl⟩
      exact hnames ring sectors' (ExtTreeMap.mem_toList_iff_getElem?_eq_some.mp hentry) i
        (ExtTreeMap.mem_keys.mp hi)
  | _ => cases h

end Messages

/-! ## A host that answers -/

/-- The stores, the DHT and the transport answer every call, and agent infos are taken. -/
structure Host.Answers (host : Host) : Prop extends host.Healthy where
  insert : ∀ infos, host.peerStoreInsert infos = .ok ()

section Calls

variable {host : Host} {peer : Url} {g : K2Gossip Url}

omit [DecidableEq Url] in
theorem newOpsBookmark_ok (hhost : host.Healthy) :
    newOpsBookmark host peer g = (.ok (g.peerMeta peer).newOpsBookmark, g) := by
  have hcall : Returns (liftK2 (host.call .newOpsBookmark) : GossipM Url Unit) g () g :=
    liftK2_ok (hhost.call _)
  exact hcall.bind_run _

theorem updateNewOpsBookmark_ok (hhost : host.Healthy) (bookmark : Int) :
    ∃ g', updateNewOpsBookmark host peer bookmark g = (.ok (), g') := by
  have hread : Returns (newOpsBookmark host peer) g (g.peerMeta peer).newOpsBookmark g :=
    newOpsBookmark_ok hhost
  unfold updateNewOpsBookmark
  rw [hread.bind_run]
  split
  · exact ⟨_, putMeta_ok (hhost.call _)⟩
  · exact ⟨g, rfl⟩

omit [DecidableEq Url] in
theorem requestOps_ok (hhost : host.Healthy) (opIds : List Bytes) :
    ∃ g', requestOps host opIds peer g = (.ok (), g') := by
  have hcall : Returns (liftK2 (host.call .requestOps) : GossipM Url Unit) g () g :=
    liftK2_ok (hhost.call _)
  exact ⟨_, hcall.bind_run _⟩

omit [DecidableEq Url] in
theorem updateStorageArcs_ok (hhost : host.Healthy) (nextAction : DhtSnapshotNextAction) :
    ∃ g', updateStorageArcs host nextAction g = (.ok (), g') := by
  unfold updateStorageArcs
  split
  · exact ⟨g, rfl⟩
  · exact ⟨g, liftK2_ok (hhost.call _)⟩

theorem receiveAgentInfos_ok (hhost : host.Answers) (infos : List Bytes) :
    receiveAgentInfos host infos = .ok () := by
  unfold receiveAgentInfos
  split
  · rfl
  · exact hhost.insert infos

theorem handleAcceptResponse_ok (hhost : host.Answers) (response : AcceptResponseMessage) :
    ∃ infos g', handleAcceptResponse host peer response g = (.ok infos, g') := by
  have hreceive : Returns (liftK2 (receiveAgentInfos host response.providedAgents) : GossipM Url Unit)
      g () g := liftK2_ok (receiveAgentInfos_ok hhost _)
  have hupdate : ∃ g₁, Returns (updateNewOpsBookmark host peer response.updatedNewSince) g () g₁ :=
    updateNewOpsBookmark_ok hhost.toHealthy _
  rcases hupdate with ⟨g₁, hupdate⟩
  have hrequest : ∃ g₂, Returns (requestOps host response.newOps peer) g₁ () g₂ :=
    requestOps_ok hhost.toHealthy _
  rcases hrequest with ⟨g₂, hrequest⟩
  unfold handleAcceptResponse
  rw [hreceive.bind_run, hupdate.bind_run, hrequest.bind_run]
  split
  · exact ⟨none, g₂, rfl⟩
  · exact ⟨_, g₂, rfl⟩

end Calls

/-! ## The round of a node -/

section Slots

variable {host : Host} {peer : Url} {session : Bytes} {g g₁ : K2Gossip Url}
  {stage : RoundStage} {state : GossipRoundState Url} {accepted : AcceptedRounds Url}
  {initiated : Option (GossipRoundState Url)}

theorem initiatedWith_of_none (h : g.initiatedRoundState = none) : g.initiatedWith peer = none := by
  unfold K2Gossip.initiatedWith
  rw [h]
  rfl

theorem initiatedWith_eq_some_iff :
    g.initiatedWith peer = some state ↔
      g.initiatedRoundState = some state ∧ state.sessionWithPeer = peer := by
  unfold K2Gossip.initiatedWith
  rw [Option.filter_eq_some_iff, decide_eq_true_iff]

theorem Holding.initiated_atStage (h : Holding peer g (some state) accepted g₁)
    (hpeer : state.sessionWithPeer = peer) (hsession : state.sessionId = session) :
    AtStage peer session (g₁.initiatedWith peer) (some state.stage) :=
  ⟨state, initiatedWith_eq_some_iff.mpr ⟨h.initiated, hpeer⟩, hpeer, hsession, rfl⟩

theorem Holding.initiated_left (h : Holding peer g none accepted g₁) :
    AtStage peer session (g₁.initiatedWith peer) none :=
  initiatedWith_of_none h.initiated

theorem Holding.accepted_atStage (h : Holding peer g initiated (accepted.insert peer state) g₁)
    (hpeer : state.sessionWithPeer = peer) (hsession : state.sessionId = session) :
    AtStage peer session (g₁.acceptedRoundStates.lookup peer) (some state.stage) := by
  refine ⟨state, ?_, hpeer, hsession, rfl⟩
  rw [h.accepted]
  exact AList.lookup_insert _

theorem Holding.accepted_left (h : Holding peer g initiated (accepted.erase peer) g₁) :
    AtStage peer session (g₁.acceptedRoundStates.lookup peer) none := by
  show g₁.acceptedRoundStates.lookup peer = none
  rw [h.accepted]
  exact AList.lookup_erase _ _

/-- The initiator's handler returns its answer, and the round goes on. -/
def InitiatorGoesOn (peer : Url) (session : Bytes) (theirStage : Option RoundStage)
    (r : Except K2GossipError (Option GossipMessage)) (g' : K2Gossip Url) : Prop :=
  ∃ answer ourStage, r = .ok answer ∧ AtStage peer session (g'.initiatedWith peer) ourStage ∧
    Phase session ourStage theirStage answer.toList []

/-- The acceptor's handler returns its answer, and the round goes on; it still has not initiated with
the peer. -/
def AcceptorGoesOn (peer : Url) (session : Bytes) (theirStage : Option RoundStage)
    (r : Except K2GossipError (Option GossipMessage)) (g' : K2Gossip Url) : Prop :=
  g'.initiatedWith peer = none ∧ ∃ answer ourStage, r = .ok answer ∧
    AtStage peer session (g'.acceptedRoundStates.lookup peer) ourStage ∧
    Phase session theirStage ourStage [] answer.toList

theorem Holding.not_initiatedWith (h : Holding peer g g.initiatedRoundState accepted g₁)
    (hnone : g.initiatedWith peer = none) : g₁.initiatedWith peer = none := by
  unfold K2Gossip.initiatedWith at hnone ⊢
  rw [h.initiated]
  exact hnone

/-! ## Passing the check -/

variable {α β : Type} {kind : MessageKind} {Q : Except K2GossipError β → K2Gossip Url → Prop}
  {validate : GossipRoundState Url → Except K2GossipError α} {out : α}
  {f : GossipRoundState Url × α → GossipM Url β}

theorem ends_checkInitiated_bind (hslot : g.initiatedWith peer = some state)
    (hvalid : validate state = .ok out) (hnext : Ends (f (state, out)) g Q) :
    Ends (checkInitiated kind validate >>= f) g Q := by
  have hcheck : Returns (checkInitiated kind validate) g (state, out) g := by
    unfold Returns
    rw [checkInitiated_run, (initiatedWith_eq_some_iff.mp hslot).1]
    unfold checkSlot
    dsimp only
    rw [hvalid]
    rfl
  exact hcheck.ends_bind hnext

theorem ends_checkAccepted_bind (hslot : g.acceptedRoundStates.lookup peer = some state)
    (hvalid : validate state = .ok out) (hnext : Ends (f (state, out)) g Q) :
    Ends (checkAccepted kind peer validate >>= f) g Q := by
  have hcheck : Returns (checkAccepted kind peer validate) g (state, out) g := by
    unfold Returns
    rw [checkAccepted_run, hslot]
    unfold checkSlot
    dsimp only
    rw [hvalid]
    rfl
  exact hcheck.ends_bind hnext

end Slots

/-! ## The ends of a round -/

section Ends

variable {host : Host} {peer : Url} {session : Bytes} {g : K2Gossip Url} {stage : RoundStage}

theorem initiator_left {g' : K2Gossip Url} {accepted : AcceptedRounds Url}
    (h : Holding peer g none accepted g') :
    InitiatorGoesOn peer session none (.ok none) g' :=
  ⟨none, none, rfl, h.initiated_left, .ended⟩

theorem acceptor_left {g' : K2Gossip Url} {accepted : AcceptedRounds Url}
    (h : Holding peer g g.initiatedRoundState (accepted.erase peer) g')
    (hnone : g.initiatedWith peer = none) : AcceptorGoesOn peer session none (.ok none) g' :=
  ⟨h.not_initiatedWith hnone, none, none, rfl, h.accepted_left, .ended⟩

theorem hasInitiated_of_atStage (hat : AtStage peer session (g.initiatedWith peer) (some stage)) :
    g.hasInitiated peer session = true := by
  rcases hat with ⟨state, hslot, hpeer, hsession, -⟩
  unfold K2Gossip.hasInitiated
  rw [(initiatedWith_eq_some_iff.mp hslot).1]
  dsimp only
  rw [decide_eq_true hpeer, decide_eq_true hsession]
  rfl

theorem not_hasInitiated (hnone : g.initiatedWith peer = none) :
    g.hasInitiated peer session = false := by
  unfold K2Gossip.hasInitiated
  cases hslot : g.initiatedRoundState with
  | none => rfl
  | some state =>
      have hpeer : state.sessionWithPeer ≠ peer := by
        intro heq
        have hsome := initiatedWith_eq_some_iff.mpr ⟨hslot, heq⟩
        rw [hnone] at hsome
        cases hsome
      dsimp only
      rw [decide_eq_false hpeer]
      rfl

theorem hasAccepted_of_atStage
    (hat : AtStage peer session (g.acceptedRoundStates.lookup peer) (some stage)) :
    g.hasAccepted peer session = true := by
  rcases hat with ⟨state, hslot, -, hsession, -⟩
  unfold K2Gossip.hasAccepted
  rw [hslot]
  exact decide_eq_true hsession

theorem respondToHashes_initiator (hhost : host.Healthy) {m : HashesMessage}
    (hat : AtStage peer session (g.initiatedWith peer) (some stage)) (hm : m.sessionId = session) :
    Ends (respondToHashes host peer m) g (InitiatorGoesOn peer session none) := by
  unfold respondToHashes
  rw [ends_read_bind_iff, hm, if_pos (hasInitiated_of_atStage hat), ends_removeInitiated_bind_iff]
  have hnow : Holding peer g none g.acceptedRoundStates (g.setInitiated none) :=
    Holding.self.setInitiated none
  refine ends_call_bind_ok (isCall_requestOps _ _) ⟨(), requestOps_ok hhost _⟩ hnow ?_
  intro _ g₁ hnow
  exact initiator_left hnow

theorem respondToHashes_acceptor (hhost : host.Healthy) {m : HashesMessage}
    (hat : AtStage peer session (g.acceptedRoundStates.lookup peer) (some stage))
    (hnone : g.initiatedWith peer = none) (hm : m.sessionId = session) :
    Ends (respondToHashes host peer m) g (AcceptorGoesOn peer session none) := by
  have hnot : ¬ g.hasInitiated peer session = true := by
    rw [not_hasInitiated hnone]
    exact Bool.false_ne_true
  unfold respondToHashes
  rw [ends_read_bind_iff, hm, if_neg hnot, if_pos (hasAccepted_of_atStage hat),
    ends_removeAccepted_bind_iff]
  refine ends_call_bind_ok (isCall_requestOps _ _) ⟨(), requestOps_ok hhost _⟩
    Holding.self.eraseAccepted ?_
  intro _ g₁ hnow
  exact acceptor_left hnow hnone

theorem respondToTerminate_initiator (hhost : host.Healthy) {m : TerminateMessage}
    (hat : AtStage peer session (g.initiatedWith peer) (some stage)) (hm : m.sessionId = session) :
    Ends (respondToTerminate host peer m) g (InitiatorGoesOn peer session none) := by
  rcases hat with ⟨state, hslot, -, hsession, -⟩
  unfold K2Gossip.initiatedWith at hslot
  unfold respondToTerminate
  rw [ends_read_bind_iff, hslot]
  dsimp only
  rw [ends_removeInitiated_bind_iff, if_neg (not_not.mpr (hsession.trans hm.symm))]
  refine ends_call_bind_ok isCall_incrPeerTerminated ⟨(), _, putMeta_ok (hhost.call _)⟩
    (Holding.self.setInitiated none) ?_
  intro _ g₁ hnow
  exact initiator_left hnow

theorem respondToTerminate_acceptor (hhost : host.Healthy) {m : TerminateMessage}
    (hat : AtStage peer session (g.acceptedRoundStates.lookup peer) (some stage))
    (hnone : g.initiatedWith peer = none) (hm : m.sessionId = session) :
    Ends (respondToTerminate host peer m) g (AcceptorGoesOn peer session none) := by
  rcases hat with ⟨state, hslot, -, hsession, -⟩
  have hfilter : (g.initiatedRoundState.filter fun state => state.sessionWithPeer = peer) = none :=
    hnone
  unfold respondToTerminate
  rw [ends_read_bind_iff, hfilter]
  dsimp only
  rw [hslot]
  dsimp only
  rw [ends_removeAccepted_bind_iff, if_neg (not_not.mpr (hsession.trans hm.symm))]
  refine ends_call_bind_ok isCall_incrPeerTerminated ⟨(), _, putMeta_ok (hhost.call _)⟩
    Holding.self.eraseAccepted ?_
  intro _ g₁ hnow
  exact acceptor_left hnow hnone

/-- A message that ends the round ends it at the initiator, -/
theorem respond_ending_initiator {loc : LocCb} (hhost : host.Healthy) {msg : GossipMessage}
    (hends : Ending session msg) (hat : AtStage peer session (g.initiatedWith peer) (some stage)) :
    Ends (respond loc host peer msg) g (InitiatorGoesOn peer session none) := by
  cases msg with
  | hashes m => exact respondToHashes_initiator hhost hat hends
  | terminate m => exact respondToTerminate_initiator hhost hat hends
  | _ => cases hends

/-- and at the acceptor. -/
theorem respond_ending_acceptor {loc : LocCb} (hhost : host.Healthy) {msg : GossipMessage}
    (hends : Ending session msg)
    (hat : AtStage peer session (g.acceptedRoundStates.lookup peer) (some stage))
    (hnone : g.initiatedWith peer = none) :
    Ends (respond loc host peer msg) g (AcceptorGoesOn peer session none) := by
  cases msg with
  | hashes m => exact respondToHashes_acceptor hhost hat hnone hends
  | terminate m => exact respondToTerminate_acceptor hhost hat hnone hends
  | _ => cases hends

theorem respondToBusy_initiator (hhost : host.Healthy)
    (hat : AtStage peer session (g.initiatedWith peer) (some stage)) :
    Ends (respondToBusy host peer { sessionId := session }) g (InitiatorGoesOn peer session none) := by
  rcases hat with ⟨state, hslot, hpeer, hsession, -⟩
  refine ends_checkInitiated_bind hslot (validateSession_of hpeer hsession) ?_
  rw [ends_removeInitiated_bind_iff]
  refine ends_call_bind_ok isCall_incrPeerBusy ⟨(), _, putMeta_ok (hhost.call _)⟩
    (Holding.self.setInitiated none) ?_
  intro _ g₁ hnow
  refine ends_call_bind_ok (isCall_setLastGossipTimestamp _) ⟨(), _, putMeta_ok (hhost.call _)⟩ hnow ?_
  intro _ g₂ hnow
  exact initiator_left hnow

theorem respondToAgents_initiator (hhost : host.Answers) {m : AgentsMessage}
    (hat : AtStage peer session (g.initiatedWith peer) (some .noDiff)) (hm : m.sessionId = session) :
    Ends (respondToAgents host peer m) g (InitiatorGoesOn peer session none) := by
  rcases hat with ⟨state, hslot, hpeer, hsession, hstage⟩
  have hvalid : state.validateAgents peer m = .ok () := by
    unfold GossipRoundState.validateAgents
    rw [hstage]
    exact bind_eq_ok_iff.mpr ⟨(), validateSession_of hpeer (hsession.trans hm.symm), rfl⟩
  refine ends_checkInitiated_bind hslot hvalid ?_
  rw [ends_removeInitiated_bind_iff]
  refine ends_liftK2_bind_ok (receiveAgentInfos_ok hhost _) ?_
  exact initiator_left (Holding.self.setInitiated none)

end Ends

/-! ## The acceptor's handlers -/

section Acceptor

variable {loc : LocCb} {host : Host} {peer : Url} {session : Bytes} {g : K2Gossip Url}
  {commonArcSet : ArcSet} {ourAgents : List Bytes} {response : AcceptResponseMessage}
  {snapshot : DhtSnapshot}

/-- The acceptor has removed the round, and its answer ends it at the initiator. -/
theorem acceptor_ends {g' : K2Gossip Url} {accepted : AcceptedRounds Url} {stage : RoundStage}
    {msg : GossipMessage} (h : Holding peer g g.initiatedRoundState (accepted.erase peer) g')
    (hnone : g.initiatedWith peer = none) (hends : Ending session msg) :
    AcceptorGoesOn peer session (some stage) (.ok (some msg)) g' :=
  ⟨h.not_initiatedWith hnone, some msg, none, rfl, h.accepted_left, .endsInitiator hends⟩

/-- An initiate that the burst tracker lets through is accepted, or answered with a busy message. -/
theorem respondToInitiate_acceptor (hhost : host.Healthy) {m : InitiateMessage} {arcSet : ArcSet}
    {stage : RoundStage}
    (hat : AtStage peer session (g.acceptedRoundStates.lookup peer) none)
    (hnone : g.initiatedWith peer = none) (hm : m.sessionId = session)
    (harcs : m.arcSet = some arcSet.encode) (hroom : burstHasRoom host peer g = true)
    (hstage : stage = .initiated m.participatingAgents arcSet m.tieBreaker) :
    Ends (respond loc host peer (.initiate m)) g (AcceptorGoesOn peer session (some stage)) := by
  -- no round of ours with this peer stands against the Initiate
  have hadmits : admitsInitiate host peer m g = true := by
    unfold admitsInitiate
    cases hslot : g.initiatedRoundState with
    | none => exact hroom
    | some state =>
        have hpeer : state.sessionWithPeer ≠ peer := by
          intro heq
          have hsome := initiatedWith_eq_some_iff.mpr ⟨hslot, heq⟩
          rw [hnone] at hsome
          cases hsome
        dsimp only
        rw [if_neg hpeer]
        exact hroom
  rcases hrate : checkPeerInitiateRate host peer m g with ⟨r, g₁⟩
  have hok := checkPeerInitiateRate_ok_true_iff.mpr hadmits
  rw [hrate] at hok
  cases hok
  rcases (checkPeerInitiateRate_holding m).of_run hrate with ⟨hnow, hsame⟩
  have hinitiated : g₁.initiatedRoundState = g.initiatedRoundState := by
    refine hsame.resolve_right ?_
    rintro ⟨state, hslot, hpeer⟩
    have hsome := initiatedWith_eq_some_iff.mpr ⟨hslot, hpeer⟩
    rw [hnone] at hsome
    cases hsome
  rw [hinitiated] at hnow
  unfold Ends
  rw [respond_initiate_run hrate]
  rcases refuseIfBusy_cases host peer m g₁ with ⟨-, ⟨fault, hfault⟩, -⟩ | ⟨-, g₂, hbusy⟩
  · rw [hhost.call] at hfault
    cases hfault
  have hcall : IsCall peer (refuseIfBusy host peer m) := refuseIfBusy_isCall m
  have hnow := hnow.trans (hcall _ _ _ hbusy).1
  have hrefuse : Returns (refuseIfBusy host peer m) g₁ _ g₂ := hbusy
  refine hrefuse.ends_bind (Q := AcceptorGoesOn peer session (some stage)) ?_
  -- Busy refuses, else the round is accepted
  cases g₁.isBusy with
  | true =>
      refine ⟨hnow.not_initiatedWith hnone, _, none, rfl, ?_, hm ▸ .busy⟩
      show g₂.acceptedRoundStates.lookup peer = none
      rw [hnow.accepted]
      exact hat
  | false =>
      have haccept := acceptInitiate_accepts hhost hnow hat harcs (ArcSet.decode_encode arcSet)
      refine haccept.mono ?_
      rintro r g' ⟨accept, rfl, haccepts⟩
      rcases haccepts.round with ⟨ourArcSet, state, rounds, harcs', hpeer, hsession, hstate, hnow⟩
      have hat' := hnow.accepted_atStage hpeer (hsession.trans hm)
      rw [hstate] at hat'
      subst hstage
      exact ⟨hnow.not_initiatedWith hnone, _, _, rfl, hat',
        .accept (haccepts.accepts.session.trans hm) haccepts.accepts.missing harcs'⟩

theorem respondToNoDiff_acceptor (hhost : host.Answers) {m : NoDiffMessage}
    (hat : AtStage peer session (g.acceptedRoundStates.lookup peer)
      (some (.accepted ourAgents commonArcSet)))
    (hnone : g.initiatedWith peer = none) (hm : m.sessionId = session)
    (hresponse : m.acceptResponse = some response)
    (hmissing : ∀ a ∈ response.missingAgents, a ∈ ourAgents) :
    Ends (respondToNoDiff host peer m) g (AcceptorGoesOn peer session (some .noDiff)) := by
  rcases hat with ⟨state, hslot, hpeer, hsession, hstage⟩
  have hvalid : state.validateNoDiff peer m = .ok response := by
    unfold GossipRoundState.validateNoDiff
    rw [hstage, hresponse]
    exact bind_eq_ok_iff.mpr ⟨(), validateSession_of hpeer (hsession.trans hm.symm),
      bind_eq_ok_iff.mpr ⟨response, rfl,
        bind_eq_ok_iff.mpr ⟨(), validateMissingAgents_of hmissing, rfl⟩⟩⟩
  refine ends_checkAccepted_bind hslot hvalid ?_
  dsimp only
  rw [ends_removeAccepted_bind_iff]
  refine ends_call_bind_ok (isCall_handleAcceptResponse response) (handleAcceptResponse_ok hhost _)
    Holding.self.eraseAccepted ?_
  intro sendAgents g₁ hnow
  split
  · exact ⟨hnow.not_initiatedWith hnone, _, none, rfl, hnow.accepted_left, .agents hm⟩
  · exact acceptor_ends hnow hnone hm

theorem respondToDiscSectorsDiff_acceptor (hhost : host.Answers) {m : DiscSectorsDiffMessage}
    {message : SnapshotDiscSectorsMessage}
    (hat : AtStage peer session (g.acceptedRoundStates.lookup peer)
      (some (.accepted ourAgents commonArcSet)))
    (hnone : g.initiatedWith peer = none) (hm : m.sessionId = session)
    (hresponse : m.acceptResponse = some response)
    (hmissing : ∀ a ∈ response.missingAgents, a ∈ ourAgents) (hmessage : m.snapshot = some message)
    (hmade : SnapshotDiscSectorsMessage.ofSnapshot snapshot = .ok message)
    (hnames : NamesWithin commonArcSet snapshot)
    (hdht : ∀ state ∈ g.acceptedRoundStates.lookup peer, ∀ c ∈ state.comparison (.discSectorsDiff m),
      c.answers loc host.dht = true ∧ c.showsNothing host.dht = false) :
    Ends (respondToDiscSectorsDiff loc host peer m) g
      (AcceptorGoesOn peer session (some (.discSectorsDiff commonArcSet))) := by
  rcases hat with ⟨state, hslot, hpeer, hsession, hstage⟩
  rcases discSectors_read .discSectorsDiff hmade hnames
    with ⟨⟨hashes, boundary, rfl⟩, hread, hsectors⟩
  have hvalid : state.validateDiscSectorsDiff peer m =
      .ok ({ ourAgents, commonArcSet }, response, message) := by
    unfold GossipRoundState.validateDiscSectorsDiff
    rw [hstage, hresponse, hmessage]
    exact bind_eq_ok_iff.mpr ⟨(), validateSession_of hpeer (hsession.trans hm.symm),
      bind_eq_ok_iff.mpr ⟨message, rfl, bind_eq_ok_iff.mpr ⟨response, rfl,
        bind_eq_ok_iff.mpr ⟨(), validateMissingAgents_of hmissing,
          bind_eq_ok_iff.mpr ⟨(), hsectors, rfl⟩⟩⟩⟩⟩
  have hcomparison : state.comparison (.discSectorsDiff m) = some
      { theirSnapshot := .discSectors hashes boundary, ourPreviousSnapshot := none
        arcSet := commonArcSet, maxOpDataBytes := 0 } := by
    unfold GossipRoundState.comparison
    rw [hstage]
    simp [RoundStage.comparison, hmessage, hread, Except.toOption]
  rcases hdht state hslot _ hcomparison with ⟨hanswers, hshows⟩
  rcases Comparison.exists_answer hanswers with ⟨nextAction, used, hanswer⟩
  refine ends_checkAccepted_bind hslot hvalid ?_
  dsimp only
  refine ends_call_bind_ok (isCall_handleAcceptResponse response) (handleAcceptResponse_ok hhost _)
    Holding.self ?_
  intro sendAgents g₁ hnow
  refine ends_liftK2_bind_ok hread (ends_liftK2_bind_ok hanswer ?_)
  dsimp only
  rcases DhtState.handleSnapshot_answered hanswer with ⟨ours, hours, hfound⟩
  cases nextAction with
  | identical =>
      cases hfound with
      | identical hcompare =>
          rw [Comparison.showsNothing_of hours (Or.inl hcompare)] at hshows
          cases hshows
  | cannotCompare =>
      cases hfound with
      | cannotCompare hcompare =>
          rw [Comparison.showsNothing_of hours (Or.inr hcompare)] at hshows
          cases hshows
  | newSnapshot s =>
      -- the details of the sectors that differ
      rcases DhtState.handleSnapshot_discSectors hanswer with ⟨details, boundary', rfl, hnamed⟩
      dsimp only
      rw [ends_writeAccepted_bind_iff]
      have hnow := hnow.insertAccepted
        { state with
          stage := .discSectorDetailsDiff commonArcSet (.discSectorDetails details boundary') }
      exact ⟨hnow.not_initiatedWith hnone, _, _, rfl, hnow.accepted_atStage hpeer hsession,
        .discSectorDetailsDiff hm rfl rfl hnamed⟩
  | newSnapshotAndHashList s opIds =>
      dsimp only
      rw [ends_removeAccepted_bind_iff]
      exact acceptor_ends hnow.eraseAccepted hnone hm
  | hashList opIds =>
      dsimp only
      rw [ends_removeAccepted_bind_iff]
      exact acceptor_ends hnow.eraseAccepted hnone hm

theorem respondToDiscSectorDetailsDiffResponse_acceptor (hhost : host.Healthy)
    {m : DiscSectorDetailsDiffResponseMessage} {message : SnapshotDiscSectorDetailsMessage}
    {ours : DhtSnapshot} {stage : RoundStage}
    (hat : AtStage peer session (g.acceptedRoundStates.lookup peer)
      (some (.discSectorDetailsDiff commonArcSet ours)))
    (hnone : g.initiatedWith peer = none) (hm : m.sessionId = session)
    (hmessage : m.snapshot = some message)
    (hmade : SnapshotDiscSectorDetailsMessage.ofSnapshot snapshot = .ok message)
    (hnames : NamesWithin commonArcSet snapshot)
    (hdht : ∀ state ∈ g.acceptedRoundStates.lookup peer,
      ∀ c ∈ state.comparison (.discSectorDetailsDiffResponse m), c.answers loc host.dht = true) :
    Ends (respondToDiscSectorDetailsDiffResponse loc host peer m) g
      (AcceptorGoesOn peer session (some stage)) := by
  rcases hat with ⟨state, hslot, hpeer, hsession, hstage⟩
  rcases discSectorDetails_read .discSectorDetailsDiffResponse hmade hnames
    with ⟨-, hread, hsectors⟩
  have hvalid : state.validateDiscSectorDetailsDiffResponse peer m =
      .ok ({ commonArcSet, snapshot := ours }, message) := by
    unfold GossipRoundState.validateDiscSectorDetailsDiffResponse
    rw [hstage, hmessage]
    exact bind_eq_ok_iff.mpr ⟨(), validateSession_of hpeer (hsession.trans hm.symm),
      bind_eq_ok_iff.mpr ⟨message, rfl, bind_eq_ok_iff.mpr ⟨(), hsectors, rfl⟩⟩⟩
  have hcomparison : state.comparison (.discSectorDetailsDiffResponse m) = some
      { theirSnapshot := snapshot, ourPreviousSnapshot := some ours
        arcSet := commonArcSet, maxOpDataBytes := state.peerMaxOpDataBytes } := by
    unfold GossipRoundState.comparison
    rw [hstage]
    simp [RoundStage.comparison, hmessage, hread, Except.toOption]
  rcases Comparison.exists_answer (hdht state hslot _ hcomparison) with ⟨nextAction, used, hanswer⟩
  refine ends_checkAccepted_bind hslot hvalid ?_
  dsimp only
  have hself : Holding peer g g.initiatedRoundState g.acceptedRoundStates g := Holding.self
  refine ends_call_bind_ok (isCall_requestOps _ _) ⟨(), requestOps_ok hhost _⟩ hself ?_
  intro _ g₁ hnow
  refine ends_liftK2_bind_ok hread (ends_liftK2_bind_ok hanswer ?_)
  dsimp only
  rw [ends_writeAccepted_bind_iff, ends_removeAccepted_bind_iff]
  have hnow := (hnow.insertAccepted (state.spend used)).eraseAccepted
  -- whatever was found, the answer is the last message
  cases nextAction with
  | _ => exact acceptor_ends hnow hnone hm

theorem respondToRingSectorDetailsDiff_acceptor (hhost : host.Answers)
    {m : RingSectorDetailsDiffMessage} {message : SnapshotRingSectorDetailsMessage}
    (hat : AtStage peer session (g.acceptedRoundStates.lookup peer)
      (some (.accepted ourAgents commonArcSet)))
    (hnone : g.initiatedWith peer = none) (hm : m.sessionId = session)
    (hresponse : m.acceptResponse = some response)
    (hmissing : ∀ a ∈ response.missingAgents, a ∈ ourAgents) (hmessage : m.snapshot = some message)
    (hmade : SnapshotRingSectorDetailsMessage.ofSnapshot snapshot = .ok message)
    (hnames : NamesWithin commonArcSet snapshot)
    (hdht : ∀ state ∈ g.acceptedRoundStates.lookup peer,
      ∀ c ∈ state.comparison (.ringSectorDetailsDiff m), c.answers loc host.dht = true ∧
        (c.showsNothing host.dht = true → loadAgentInfos host response.missingAgents = [])) :
    Ends (respondToRingSectorDetailsDiff loc host peer m) g
      (AcceptorGoesOn peer session (some (.ringSectorDetailsDiff commonArcSet snapshot))) := by
  rcases hat with ⟨state, hslot, hpeer, hsession, hstage⟩
  rcases ringSectorDetails_read .ringSectorDetailsDiff hmade hnames
    with ⟨⟨hashes, boundary, rfl⟩, hread, hsectors⟩
  have hvalid : state.validateRingSectorDetailsDiff peer m =
      .ok ({ ourAgents, commonArcSet }, response, message) := by
    unfold GossipRoundState.validateRingSectorDetailsDiff
    rw [hstage, hresponse, hmessage]
    exact bind_eq_ok_iff.mpr ⟨(), validateSession_of hpeer (hsession.trans hm.symm),
      bind_eq_ok_iff.mpr ⟨message, rfl, bind_eq_ok_iff.mpr ⟨response, rfl,
        bind_eq_ok_iff.mpr ⟨(), validateMissingAgents_of hmissing,
          bind_eq_ok_iff.mpr ⟨(), hsectors, rfl⟩⟩⟩⟩⟩
  have hcomparison : state.comparison (.ringSectorDetailsDiff m) = some
      { theirSnapshot := .ringSectorDetails hashes boundary, ourPreviousSnapshot := none
        arcSet := commonArcSet, maxOpDataBytes := state.peerMaxOpDataBytes } := by
    unfold GossipRoundState.comparison
    rw [hstage]
    simp [RoundStage.comparison, hmessage, hread, Except.toOption]
  rcases hdht state hslot _ hcomparison with ⟨hanswers, hshows⟩
  rcases Comparison.exists_answer hanswers with ⟨nextAction, used, hanswer⟩
  refine ends_checkAccepted_bind hslot hvalid ?_
  dsimp only
  refine ends_call_bind_ok (isCall_handleAcceptResponse response) (handleAcceptResponse_ok hhost _)
    Holding.self ?_
  intro _ g₁ hnow
  refine ends_liftK2_bind_ok hread (ends_liftK2_bind_ok hanswer ?_)
  dsimp only
  rw [ends_writeAccepted_bind_iff]
  have hnow := hnow.insertAccepted (state.spend used)
  refine ends_call_bind_ok (isCall_updateStorageArcs nextAction)
    ⟨(), updateStorageArcs_ok hhost.toHealthy _⟩ hnow ?_
  intro _ g₂ hnow
  -- with nothing to compare no agents may be sent, which the initiator would refuse
  rcases DhtState.handleSnapshot_answered hanswer with ⟨ours, hours, hfound⟩
  cases nextAction with
  | identical =>
      cases hfound with
      | identical hcompare =>
          dsimp only
          rw [ends_removeAccepted_bind_iff,
            hshows (Comparison.showsNothing_of hours (Or.inl hcompare))]
          exact acceptor_ends hnow.eraseAccepted hnone hm
  | cannotCompare =>
      cases hfound with
      | cannotCompare hcompare =>
          dsimp only
          rw [ends_removeAccepted_bind_iff,
            hshows (Comparison.showsNothing_of hours (Or.inr hcompare))]
          exact acceptor_ends hnow.eraseAccepted hnone hm
  | newSnapshot s =>
      dsimp only
      rw [ends_removeAccepted_bind_iff]
      exact acceptor_ends hnow.eraseAccepted hnone hm
  | newSnapshotAndHashList s opIds =>
      rcases DhtState.handleSnapshot_ringSectorDetails hanswer with ⟨details, boundary', rfl, hnamed⟩
      dsimp only
      rw [ends_writeAccepted_bind_iff]
      have hnow := hnow.insertAccepted { state.spend used with
        stage := .ringSectorDetailsDiff commonArcSet (.ringSectorDetails details boundary') }
      exact ⟨hnow.not_initiatedWith hnone, _, _, rfl, hnow.accepted_atStage hpeer hsession,
        .ringSectorDetailsDiffResponse hm rfl rfl hnamed⟩
  | hashList opIds =>
      dsimp only
      rw [ends_removeAccepted_bind_iff]
      exact acceptor_ends hnow.eraseAccepted hnone hm

end Acceptor

/-! ## The initiator's handlers -/

section Initiator

variable {loc : LocCb} {host : Host} {peer : Url} {session : Bytes} {g : K2Gossip Url}
  {commonArcSet : ArcSet} {ourAgents : List Bytes} {response : AcceptResponseMessage}
  {snapshot : DhtSnapshot}

/-- The initiator has removed the round, and its answer ends it at the acceptor. -/
theorem initiator_ends {g' : K2Gossip Url} {accepted : AcceptedRounds Url} {stage : RoundStage}
    {msg : GossipMessage} (h : Holding peer g none accepted g') (hends : Ending session msg) :
    InitiatorGoesOn peer session (some stage) (.ok (some msg)) g' :=
  ⟨some msg, none, rfl, h.initiated_left, .endsAcceptor hends⟩

theorem respondToDiscSectorDetailsDiff_initiator {m : DiscSectorDetailsDiffMessage}
    {message : SnapshotDiscSectorDetailsMessage}
    (hat : AtStage peer session (g.initiatedWith peer) (some (.discSectorsDiff commonArcSet)))
    (hm : m.sessionId = session) (hmessage : m.snapshot = some message)
    (hmade : SnapshotDiscSectorDetailsMessage.ofSnapshot snapshot = .ok message)
    (hnames : NamesWithin commonArcSet snapshot)
    (hdht : ∀ state ∈ g.initiatedWith peer, ∀ c ∈ state.comparison (.discSectorDetailsDiff m),
      c.answers loc host.dht = true) :
    Ends (respondToDiscSectorDetailsDiff loc host peer m) g
      (InitiatorGoesOn peer session (some (.discSectorDetailsDiff commonArcSet snapshot))) := by
  rcases hat with ⟨state, hslot, hpeer, hsession, hstage⟩
  rcases discSectorDetails_read .discSectorDetailsDiff hmade hnames
    with ⟨⟨hashes, boundary, rfl⟩, hread, hsectors⟩
  -- the message passes its checks: the snapshot names only common sectors
  have hvalid : state.validateDiscSectorDetailsDiff peer m = .ok (commonArcSet, message) := by
    unfold GossipRoundState.validateDiscSectorDetailsDiff
    rw [hstage, hmessage]
    exact bind_eq_ok_iff.mpr ⟨(), validateSession_of hpeer (hsession.trans hm.symm),
      bind_eq_ok_iff.mpr ⟨message, rfl, bind_eq_ok_iff.mpr ⟨(), hsectors, rfl⟩⟩⟩
  have hcomparison : state.comparison (.discSectorDetailsDiff m) = some
      { theirSnapshot := .discSectorDetails hashes boundary, ourPreviousSnapshot := none
        arcSet := commonArcSet, maxOpDataBytes := state.peerMaxOpDataBytes } := by
    unfold GossipRoundState.comparison
    rw [hstage]
    simp [RoundStage.comparison, hmessage, hread, Except.toOption]
  rcases Comparison.exists_answer (hdht state hslot _ hcomparison) with ⟨nextAction, used, hanswer⟩
  refine ends_checkInitiated_bind hslot hvalid ?_
  dsimp only
  refine ends_liftK2_bind_ok hread (ends_liftK2_bind_ok hanswer ?_)
  dsimp only
  rw [ends_writeInitiated_bind_iff]
  have hself : Holding peer g g.initiatedRoundState g.acceptedRoundStates g := Holding.self
  have hnow := hself.setInitiated (some (state.spend used))
  cases nextAction with
  | newSnapshotAndHashList s opIds =>
      rcases DhtState.handleSnapshot_discSectorDetails hanswer with ⟨details, boundary', rfl, hnamed⟩
      dsimp only
      rw [ends_writeInitiated_bind_iff]
      have hnow := hnow.setInitiated (some { state.spend used with
        stage := .discSectorDetailsDiff commonArcSet (.discSectorDetails details boundary') })
      exact ⟨_, _, rfl, hnow.initiated_atStage hpeer hsession,
        .discSectorDetailsDiffResponse hm rfl rfl hnamed⟩
  | _ =>
      dsimp only
      rw [ends_removeInitiated_bind_iff]
      exact initiator_ends (hnow.setInitiated none) hm

theorem respondToRingSectorDetailsDiffResponse_initiator (hhost : host.Healthy)
    {m : RingSectorDetailsDiffResponseMessage} {message : SnapshotRingSectorDetailsMessage}
    {ours : DhtSnapshot} {stage : RoundStage}
    (hat : AtStage peer session (g.initiatedWith peer)
      (some (.ringSectorDetailsDiff commonArcSet ours)))
    (hm : m.sessionId = session) (hmessage : m.snapshot = some message)
    (hmade : SnapshotRingSectorDetailsMessage.ofSnapshot snapshot = .ok message)
    (hnames : NamesWithin commonArcSet snapshot)
    (hdht : ∀ state ∈ g.initiatedWith peer, ∀ c ∈ state.comparison (.ringSectorDetailsDiffResponse m),
      c.answers loc host.dht = true) :
    Ends (respondToRingSectorDetailsDiffResponse loc host peer m) g
      (InitiatorGoesOn peer session (some stage)) := by
  rcases hat with ⟨state, hslot, hpeer, hsession, hstage⟩
  rcases ringSectorDetails_read .ringSectorDetailsDiffResponse hmade hnames
    with ⟨-, hread, hsectors⟩
  have hvalid : state.validateRingSectorDetailsDiffResponse peer m =
      .ok ({ commonArcSet, snapshot := ours }, message) := by
    unfold GossipRoundState.validateRingSectorDetailsDiffResponse
    rw [hstage, hmessage]
    exact bind_eq_ok_iff.mpr ⟨(), validateSession_of hpeer (hsession.trans hm.symm),
      bind_eq_ok_iff.mpr ⟨message, rfl, bind_eq_ok_iff.mpr ⟨(), hsectors, rfl⟩⟩⟩
  have hcomparison : state.comparison (.ringSectorDetailsDiffResponse m) = some
      { theirSnapshot := snapshot, ourPreviousSnapshot := some ours
        arcSet := commonArcSet, maxOpDataBytes := state.peerMaxOpDataBytes } := by
    unfold GossipRoundState.comparison
    rw [hstage]
    simp [RoundStage.comparison, hmessage, hread, Except.toOption]
  rcases Comparison.exists_answer (hdht state hslot _ hcomparison) with ⟨nextAction, used, hanswer⟩
  refine ends_checkInitiated_bind hslot hvalid ?_
  dsimp only
  have hself : Holding peer g g.initiatedRoundState g.acceptedRoundStates g := Holding.self
  refine ends_call_bind_ok (isCall_requestOps _ _) ⟨(), requestOps_ok hhost _⟩ hself ?_
  intro _ g₁ hnow
  refine ends_liftK2_bind_ok hread (ends_liftK2_bind_ok hanswer ?_)
  dsimp only
  rw [ends_writeInitiated_bind_iff]
  refine ends_call_bind_ok (isCall_updateStorageArcs nextAction) ⟨(), updateStorageArcs_ok hhost _⟩
    (hnow.setInitiated (some (state.spend used))) ?_
  intro _ g₂ hnow
  rw [ends_removeInitiated_bind_iff]
  -- whatever was found, the answer is the last message
  cases nextAction with
  | _ => exact initiator_ends (hnow.setInitiated none) hm

/-- The answer to the snapshot of an accept. -/
theorem answerMinimalSnapshot_initiator (hhost : host.Healthy) {accept : AcceptMessage}
    {state : GossipRoundState Url} {accepted : AcceptedRounds Url} {g₁ : K2Gossip Url}
    {nextAction : DhtSnapshotNextAction} (hnow : Holding peer g (some state) accepted g₁)
    (hpeer : state.sessionWithPeer = peer) (hsession : state.sessionId = session)
    (hm : accept.sessionId = session) (hmissing : ∀ a ∈ response.missingAgents, a ∈ ourAgents)
    (hnames : ∀ s, nextAction = .newSnapshot s → NamesWithin commonArcSet s) :
    Ends (answerMinimalSnapshot host accept response commonArcSet state nextAction) g₁
      (InitiatorGoesOn peer session (some (.accepted ourAgents commonArcSet))) := by
  have hstay : ∀ stage, Holding peer g (some { state with stage }) accepted
      (g₁.setInitiated (some { state with stage })) := fun stage => hnow.setInitiated _
  -- one message for each action, and the stage the peer's answer to it is checked against
  cases nextAction with
  | identical =>
      unfold answerMinimalSnapshot
      dsimp only
      rw [ends_writeInitiated_bind_iff]
      refine ends_call_bind_ok (isCall_updateStorageArcs _) ⟨(), updateStorageArcs_ok hhost _⟩
        (hstay .noDiff) ?_
      intro _ g₂ hnow
      exact ⟨_, _, rfl, hnow.initiated_atStage hpeer hsession, .noDiff hm rfl hmissing⟩
  | cannotCompare =>
      exact ⟨_, _, rfl, (hstay .noDiff).initiated_atStage hpeer hsession, .noDiff hm rfl hmissing⟩
  | newSnapshot s =>
      have hnamed := hnames s rfl
      cases s with
      | discSectors hashes boundary =>
          exact ⟨_, _, rfl, (hstay (.discSectorsDiff commonArcSet)).initiated_atStage hpeer hsession,
            .discSectorsDiff hm rfl hmissing rfl rfl hnamed⟩
      | ringSectorDetails hashes boundary =>
          exact ⟨_, _, rfl, (hstay (.ringSectorDetailsDiff commonArcSet
            (.ringSectorDetails hashes boundary))).initiated_atStage hpeer hsession,
            .ringSectorDetailsDiff hm rfl hmissing rfl rfl hnamed⟩
      | _ => exact initiator_ends (hnow.setInitiated none) hm
  | _ => exact initiator_ends (hnow.setInitiated none) hm

theorem respondToAccept_initiator (hhost : host.Answers) {m : AcceptMessage}
    {ourArcSet theirArcSet : ArcSet} {tieBreaker : Nat}
    (hat : AtStage peer session (g.initiatedWith peer)
      (some (.initiated ourAgents ourArcSet tieBreaker)))
    (hm : m.sessionId = session) (hmissing : ∀ a ∈ m.missingAgents, a ∈ ourAgents)
    (harcs : m.arcSet = some theirArcSet.encode)
    (hdht : ∀ state ∈ g.initiatedWith peer, ∀ c ∈ state.comparison (.accept m),
      c.answers loc host.dht = true) :
    Ends (respondToAccept loc host peer m) g (InitiatorGoesOn peer session
      (some (.accepted m.participatingAgents (theirArcSet.intersection ourArcSet)))) := by
  rcases hat with ⟨state, hslot, hpeer, hsession, hstage⟩
  have hvalid : state.validateAccept peer m = .ok { ourAgents, ourArcSet, tieBreaker } := by
    unfold GossipRoundState.validateAccept
    rw [hstage]
    exact bind_eq_ok_iff.mpr ⟨(), validateSession_of hpeer (hsession.trans hm.symm),
      bind_eq_ok_iff.mpr ⟨(), validateMissingAgents_of hmissing, rfl⟩⟩
  have hcommon : (getCommonArcSet { ourAgents, ourArcSet, tieBreaker } m : GossipM Url ArcSet) =
      liftK2 (ArcSet.decode theirArcSet.encode) >>= fun otherArcSet =>
        pure (otherArcSet.intersection ourArcSet) := by
    unfold getCommonArcSet
    rw [harcs]
  rcases filterKnownAgents_ok hhost.toHealthy m.participatingAgents with ⟨missing, hfilter, hasked⟩
  rcases retrieveNewOpIds_ok hhost.toHealthy (theirArcSet.intersection ourArcSet) m.newSince
    m.maxOpDataBytes with ⟨⟨newOps, usedBytes, bookmark⟩, hnewOps⟩
  refine ends_checkInitiated_bind hslot hvalid ?_
  dsimp only
  have hget : Returns (getCommonArcSet { ourAgents, ourArcSet, tieBreaker } m) g
      (theirArcSet.intersection ourArcSet) g := by
    unfold Returns
    rw [hcommon, ArcSet.decode_encode]
    rfl
  refine hget.ends_bind (ends_liftK2_bind_ok hfilter ?_)
  have hself : Holding peer g g.initiatedRoundState g.acceptedRoundStates g := Holding.self
  refine ends_call_bind_ok (isCall_updateNewOpsBookmark _)
    ⟨(), updateNewOpsBookmark_ok hhost.toHealthy _⟩ hself ?_
  intro _ g₁ hnow
  refine ends_call_bind_ok (isCall_recordDhtOpCount _)
    ⟨(), recordDhtOpCount_ok hhost.toHealthy _ _⟩ hnow ?_
  intro _ g₂ hnow
  refine ends_call_bind_ok (isCall_requestOps _ _) ⟨(), requestOps_ok hhost.toHealthy _⟩ hnow ?_
  intro _ g₃ hnow
  refine ends_liftK2_bind_ok hnewOps ?_
  dsimp only
  rw [ends_read_bind_iff, ends_writeInitiated_bind_iff]
  have hnow := hnow.setInitiated (some { state with
    peerMaxOpDataBytes :=
      acceptedBudget g₃.config.maxRequestGossipOpBytes m.maxOpDataBytes usedBytes })
  cases hsnapshot : m.snapshot with
  | none =>
      -- there are no sectors in common
      have hnow := hnow.setInitiated (some { state with
        peerMaxOpDataBytes :=
          acceptedBudget g₃.config.maxRequestGossipOpBytes m.maxOpDataBytes usedBytes
        stage := .noDiff })
      exact ⟨_, _, rfl, hnow.initiated_atStage hpeer hsession, .noDiff hm rfl hasked⟩
  | some theirSnapshot =>
      have hcomparison : state.comparison (.accept m) = some
          { theirSnapshot := theirSnapshot.toSnapshot, ourPreviousSnapshot := none
            arcSet := theirArcSet.intersection ourArcSet, maxOpDataBytes := 0 } := by
        unfold GossipRoundState.comparison
        rw [hstage]
        simp [RoundStage.comparison, harcs, hsnapshot, ArcSet.decode_encode, Except.toOption]
      rcases Comparison.exists_answer (hdht state hslot _ hcomparison) with ⟨nextAction, used, hanswer⟩
      refine ends_liftK2_bind_ok hanswer ?_
      refine answerMinimalSnapshot_initiator hhost.toHealthy hnow hpeer hsession hm hasked ?_
      rintro s rfl
      exact DhtState.handleSnapshot_newSnapshot hanswer

end Initiator

end Gossip
end Kitsune2
