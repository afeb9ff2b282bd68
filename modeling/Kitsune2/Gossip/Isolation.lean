import Kitsune2.Gossip.Calls

/-!
# Isolation — what handling a message from a peer can change

Whatever a message says and whatever the node's state is, its handler works on the rounds with the
peer it came from and on the values kept for that peer.  The same analysis says when a handler ends
with a final answer: exactly when it removes a round of the message's session.
-/

namespace Kitsune2
namespace Gossip

open Api Lib Dht

variable {Url : Type} [DecidableEq Url] {peer : Url} {g g' : K2Gossip Url}
  {initiated : Option (GossipRoundState Url)} {accepted : AcceptedRounds Url}

/-! ## Frames -/

/-- The initiated round of the node is with the peer. -/
def K2Gossip.InitiatedWith (g : K2Gossip Url) (peer : Url) : Prop :=
  ∃ state, g.initiatedRoundState = some state ∧ state.sessionWithPeer = peer

/-- Nothing that concerns only other peers has changed. -/
structure Frame (peer : Url) (g g' : K2Gossip Url) : Prop where
  config : g'.config = g.config
  initiated : ¬ g.InitiatedWith peer → g'.initiatedRoundState = g.initiatedRoundState
  accepted : ∀ q, q ≠ peer → g'.acceptedRoundStates.lookup q = g.acceptedRoundStates.lookup q
  others : ∀ q, q ≠ peer → g'.valuesOf q = g.valuesOf q

theorem Frame.trans {g₁ g₂ : K2Gossip Url} (h : Frame peer g g₁) (h' : Frame peer g₁ g₂) :
    Frame peer g g₂ where
  config := h'.config.trans h.config
  initiated := by
    intro hwith
    have hsame := h.initiated hwith
    have hwith' : ¬ g₁.InitiatedWith peer := by
      rintro ⟨state, hstate, hpeer⟩
      exact hwith ⟨state, hsame ▸ hstate, hpeer⟩
    exact (h'.initiated hwith').trans hsame
  accepted := fun q hq => (h'.accepted q hq).trans (h.accepted q hq)
  others := fun q hq => (h'.others q hq).trans (h.others q hq)

theorem Frame.setMeta (f : PeerMeta → PeerMeta) : Frame peer g (g.setMeta peer f) where
  config := rfl
  initiated := fun _ => rfl
  accepted := fun _ _ => rfl
  others := fun q hq => congrArg (·, g.burst q) (peerMeta_setMeta_of_ne f hq)

/-! ## Rounds of a session -/

def GossipMessage.sessionId : GossipMessage → Bytes
  | .initiate m => m.sessionId
  | .accept m => m.sessionId
  | .noDiff m => m.sessionId
  | .discSectorsDiff m => m.sessionId
  | .discSectorDetailsDiff m => m.sessionId
  | .discSectorDetailsDiffResponse m => m.sessionId
  | .ringSectorDetailsDiff m => m.sessionId
  | .ringSectorDetailsDiffResponse m => m.sessionId
  | .hashes m => m.sessionId
  | .agents m => m.sessionId
  | .busy m => m.sessionId
  | .terminate m => m.sessionId

/-- An initiate begins a round, and a busy refuses one; every other message may finish one. -/
def GossipMessage.mayFinish : GossipMessage → Bool
  | .initiate _ => false
  | .busy _ => false
  | _ => true

/-- How many rounds a message may open. -/
def GossipMessage.opens : GossipMessage → Nat
  | .initiate _ => 1
  | _ => 0

/-- Is the answer an initiate? -/
def answersInitiate : Option GossipMessage → Bool
  | some (.initiate _) => true
  | _ => false

theorem answersInitiate_of_final {res : Option GossipMessage} (h : isFinalMessage res = true) :
    answersInitiate res = false := by
  cases res with
  | none => rfl
  | some msg =>
      cases msg with
      | initiate m => cases h
      | _ => rfl

/-- The number of rounds of a session with a peer, in either role. -/
def K2Gossip.roundsOf (g : K2Gossip Url) (peer : Url) (sessionId : Bytes) : Nat :=
  (if g.hasInitiated peer sessionId then 1 else 0) + (if g.hasAccepted peer sessionId then 1 else 0)

/-- What handling a message may do, and how it may end. -/
structure Outcome (peer : Url) (msg : GossipMessage) (g : K2Gossip Url)
    (r : Except K2GossipError (Option GossipMessage)) (g' : K2Gossip Url) : Prop where
  frame : Frame peer g g'
  completed : (g'.peerMeta peer).completedRounds = (g.peerMeta peer).completedRounds
  size : g'.acceptedRoundStates.entries.length ≤ g.acceptedRoundStates.entries.length + msg.opens
  slot : msg.opens = 0 → g.acceptedRoundStates.lookup peer = none →
    g'.acceptedRoundStates.lookup peer = none
  answer : ∀ res, r = .ok res → answersInitiate res = false
  final : ∀ res, r = .ok res → msg.mayFinish = true →
    (isFinalMessage res = true ↔ g'.roundsOf peer msg.sessionId < g.roundsOf peer msg.sessionId)

section Outcomes

variable {msg : GossipMessage} {state state' : GossipRoundState Url} {res : Option GossipMessage}
  {e : K2GossipError}

/-- The rounds changed only where they are with the peer, and at most an initiate was accepted. -/
structure OwnRounds (msg : GossipMessage) (peer : Url) (g : K2Gossip Url)
    (initiated : Option (GossipRoundState Url)) (accepted : AcceptedRounds Url) : Prop where
  initiated : initiated = g.initiatedRoundState ∨ g.InitiatedWith peer
  others : ∀ q, q ≠ peer → accepted.lookup q = g.acceptedRoundStates.lookup q
  size : accepted.entries.length ≤ g.acceptedRoundStates.entries.length + msg.opens
  slot : msg.opens = 0 → g.acceptedRoundStates.lookup peer = none → accepted.lookup peer = none

theorem OwnRounds.none_changed : OwnRounds msg peer g g.initiatedRoundState g.acceptedRoundStates :=
  ⟨Or.inl rfl, fun _ _ => rfl, Nat.le_add_right _ _, fun _ h => h⟩

theorem OwnRounds.of_initiated (hstate : g.initiatedRoundState = some state)
    (hpeer : state.sessionWithPeer = peer) : OwnRounds msg peer g initiated g.acceptedRoundStates :=
  ⟨Or.inr ⟨state, hstate, hpeer⟩, fun _ _ => rfl, Nat.le_add_right _ _, fun _ h => h⟩

/-- A round is left in a new state. -/
theorem OwnRounds.insert (h : OwnRounds msg peer g initiated accepted)
    (hslot : accepted.lookup peer = some state) :
    OwnRounds msg peer g initiated (accepted.insert peer state') where
  initiated := h.initiated
  others := fun q hq => (AList.lookup_insert_ne hq).trans (h.others q hq)
  size := by
    have hmem : peer ∈ accepted := AList.lookup_isSome.mp (by rw [hslot]; rfl)
    rw [length_insert_of_mem hmem]
    exact h.size
  slot := by
    intro hopens hnone
    rw [h.slot hopens hnone] at hslot
    cases hslot

theorem OwnRounds.erase (h : OwnRounds msg peer g initiated accepted) :
    OwnRounds msg peer g initiated (accepted.erase peer) where
  initiated := h.initiated
  others := fun q hq => (AList.lookup_erase_ne hq).trans (h.others q hq)
  size := le_trans (length_erase_le peer accepted) h.size
  slot := fun _ _ => AList.lookup_erase peer accepted

theorem Holding.frame (h : Holding peer g initiated accepted g')
    (hown : OwnRounds msg peer g initiated accepted) : Frame peer g g' where
  config := h.config
  initiated := fun hwith => h.initiated.trans (hown.initiated.resolve_right hwith)
  accepted := by
    intro q hq
    rw [h.accepted]
    exact hown.others q hq
  others := h.others

/-- A call is within the frame of its peer. -/
theorem Holding.frame_self
    (h : Holding peer g g.initiatedRoundState g.acceptedRoundStates g') : Frame peer g g' where
  config := h.config
  initiated := fun _ => h.initiated
  accepted := fun q _ => congrArg (fun rounds => rounds.lookup q) h.accepted
  others := h.others

theorem Holding.size (h : Holding peer g initiated accepted g')
    (hown : OwnRounds msg peer g initiated accepted) :
    g'.acceptedRoundStates.entries.length ≤
      g.acceptedRoundStates.entries.length + msg.opens := by
  rw [h.accepted]
  exact hown.size

theorem Holding.slot (h : Holding peer g initiated accepted g')
    (hown : OwnRounds msg peer g initiated accepted) (hopens : msg.opens = 0)
    (hnone : g.acceptedRoundStates.lookup peer = none) :
    g'.acceptedRoundStates.lookup peer = none := by
  rw [h.accepted]
  exact hown.slot hopens hnone

/-- A handler that stops with an error. -/
theorem outcome_error (h : Holding peer g initiated accepted g')
    (hown : OwnRounds msg peer g initiated accepted) : Outcome peer msg g (.error e) g' where
  frame := h.frame hown
  completed := h.completed
  size := h.size hown
  slot := h.slot hown
  answer := fun res hres => by cases hres
  final := fun res hres => by cases hres

/-- An answer to a message that finishes no round. -/
theorem outcome_unfinishable (h : Holding peer g initiated accepted g')
    (hown : OwnRounds msg peer g initiated accepted) (hmsg : msg.mayFinish = false)
    (hanswer : answersInitiate res = false) : Outcome peer msg g (.ok res) g' where
  frame := h.frame hown
  completed := h.completed
  size := h.size hown
  slot := h.slot hown
  answer := by
    intro res' hres
    cases hres
    exact hanswer
  final := by
    intro _ _ hmay
    rw [hmsg] at hmay
    cases hmay

theorem hasInitiated_of_some {sessionId : Bytes} (hstate : g.initiatedRoundState = some state)
    (hpeer : state.sessionWithPeer = peer) (hsession : state.sessionId = sessionId) :
    g.hasInitiated peer sessionId = true := by
  simp [K2Gossip.hasInitiated, hstate, hpeer, hsession]

theorem hasAccepted_of_some {sessionId : Bytes}
    (hstate : g.acceptedRoundStates.lookup peer = some state)
    (hsession : state.sessionId = sessionId) : g.hasAccepted peer sessionId = true := by
  simp [K2Gossip.hasAccepted, hstate, hsession]

/-- What is known of an answered message: the initiated round is the one of its session. -/
structure InRound (peer : Url) (msg : GossipMessage) (state : GossipRoundState Url) : Prop where
  peer : state.sessionWithPeer = peer
  session : state.sessionId = msg.sessionId

theorem outcome_initiated_removed (h : Holding peer g none g.acceptedRoundStates g')
    (hstate : g.initiatedRoundState = some state) (hround : InRound peer msg state)
    (hfinal : isFinalMessage res = true) : Outcome peer msg g (.ok res) g' := by
  have hown : ∀ i, OwnRounds msg peer g i g.acceptedRoundStates :=
    fun _ => OwnRounds.of_initiated hstate hround.peer
  refine ⟨h.frame (hown _), h.completed, h.size (hown _), h.slot (hown _), ?_, ?_⟩
  · intro res' hres
    cases hres
    exact answersInitiate_of_final hfinal
  intro res' hres _
  cases hres
  have hbefore := hasInitiated_of_some hstate hround.peer hround.session
  have hafter : g'.hasInitiated peer msg.sessionId = false := by
    unfold K2Gossip.hasInitiated
    rw [h.initiated]
  have hsame : g'.hasAccepted peer msg.sessionId = g.hasAccepted peer msg.sessionId := by
    unfold K2Gossip.hasAccepted
    rw [h.accepted]
  simp [hfinal, K2Gossip.roundsOf, hbefore, hafter, hsame]

theorem outcome_initiated_kept (h : Holding peer g (some state') g.acceptedRoundStates g')
    (hstate : g.initiatedRoundState = some state) (hround : InRound peer msg state)
    (hround' : InRound peer msg state') (hopen : isFinalMessage res = false)
    (hanswer : answersInitiate res = false) :
    Outcome peer msg g (.ok res) g' := by
  have hown : ∀ i, OwnRounds msg peer g i g.acceptedRoundStates :=
    fun _ => OwnRounds.of_initiated hstate hround.peer
  refine ⟨h.frame (hown _), h.completed, h.size (hown _), h.slot (hown _), ?_, ?_⟩
  · intro res' hres
    cases hres
    exact hanswer
  intro res' hres _
  cases hres
  have hbefore := hasInitiated_of_some hstate hround.peer hround.session
  have hafter := hasInitiated_of_some h.initiated hround'.peer hround'.session
  have hsame : g'.hasAccepted peer msg.sessionId = g.hasAccepted peer msg.sessionId := by
    unfold K2Gossip.hasAccepted
    rw [h.accepted]
  simp [hopen, K2Gossip.roundsOf, hbefore, hafter, hsame]

theorem outcome_accepted_removed
    (h : Holding peer g g.initiatedRoundState (accepted.erase peer) g')
    (hown : OwnRounds msg peer g g.initiatedRoundState accepted)
    (hstate : g.acceptedRoundStates.lookup peer = some state)
    (hsession : state.sessionId = msg.sessionId) (hfinal : isFinalMessage res = true) :
    Outcome peer msg g (.ok res) g' := by
  refine ⟨h.frame hown.erase, h.completed, h.size hown.erase, h.slot hown.erase, ?_, ?_⟩
  · intro res' hres
    cases hres
    exact answersInitiate_of_final hfinal
  intro res' hres _
  cases hres
  have hbefore := hasAccepted_of_some hstate hsession
  have hafter : g'.hasAccepted peer msg.sessionId = false := by
    unfold K2Gossip.hasAccepted
    rw [h.accepted, AList.lookup_erase]
  have hsame : g'.hasInitiated peer msg.sessionId = g.hasInitiated peer msg.sessionId := by
    unfold K2Gossip.hasInitiated
    rw [h.initiated]
  simp [hfinal, K2Gossip.roundsOf, hbefore, hafter, hsame]

theorem outcome_accepted_kept
    (h : Holding peer g g.initiatedRoundState (accepted.insert peer state') g')
    (hown : OwnRounds msg peer g g.initiatedRoundState (accepted.insert peer state'))
    (hstate : g.acceptedRoundStates.lookup peer = some state)
    (hsession : state.sessionId = msg.sessionId) (hsession' : state'.sessionId = msg.sessionId)
    (hopen : isFinalMessage res = false) (hanswer : answersInitiate res = false) :
    Outcome peer msg g (.ok res) g' := by
  refine ⟨h.frame hown, h.completed, h.size hown, h.slot hown, ?_, ?_⟩
  · intro res' hres
    cases hres
    exact hanswer
  intro res' hres _
  cases hres
  have hbefore := hasAccepted_of_some hstate hsession
  have hafter : g'.hasAccepted peer msg.sessionId = true := by
    refine hasAccepted_of_some ?_ hsession'
    rw [h.accepted, AList.lookup_insert]
  have hsame : g'.hasInitiated peer msg.sessionId = g.hasInitiated peer msg.sessionId := by
    unfold K2Gossip.hasInitiated
    rw [h.initiated]
  simp [hopen, K2Gossip.roundsOf, hbefore, hafter, hsame]

end Outcomes

/-! ## Validation -/

theorem validateSession_ok {kind : MessageKind} {state : GossipRoundState Url} {sessionId : Bytes}
    {u : Unit} (h : validateSession kind state peer sessionId = .ok u) :
    state.sessionWithPeer = peer ∧ state.sessionId = sessionId := by
  unfold validateSession at h
  split at h
  · cases h
  · rename_i hpeer
    split at h
    · cases h
    · rename_i hsession
      exact ⟨not_not.mp hpeer, not_not.mp hsession⟩

/-- Every validation starts with the session. -/
theorem session_of_bind {α : Type} {kind : MessageKind} {state : GossipRoundState Url}
    {sessionId : Bytes} {rest : Unit → Except K2GossipError α} {out : α}
    (h : (validateSession kind state peer sessionId >>= rest) = .ok out) :
    state.sessionWithPeer = peer ∧ state.sessionId = sessionId := by
  rcases bind_eq_ok_iff.mp h with ⟨u, hu, _⟩
  exact validateSession_ok hu

/-! ## The messages of an initiator -/

section Handlers

variable {loc : LocCb} {host : Host}

theorem outcome_refused {kind : MessageKind} {α : Type} {slot : Option (GossipRoundState Url)}
    {validate : GossipRoundState Url → Except K2GossipError α} {msg : GossipMessage} (e : K2GossipError)
    (_ : checkSlot kind slot validate = .error e) : Outcome peer msg g (.error e) g :=
  outcome_error Holding.self OwnRounds.none_changed

theorem respondToAgents_outcome (m : AgentsMessage) :
    Ends (respondToAgents host peer m) g (Outcome peer (.agents m) g) := by
  refine ends_check_bind (checkInitiated_run _) outcome_refused ?_
  intro state _ hstate hvalid
  have hround : InRound peer (.agents m) state :=
    ⟨(session_of_bind hvalid).1, (session_of_bind hvalid).2⟩
  rw [ends_removeInitiated_bind_iff]
  have hself : Holding peer g g.initiatedRoundState g.acceptedRoundStates g := Holding.self
  have hgone := hself.setInitiated none
  refine ends_liftK2_bind ?_ ?_
  · intro fault _
    exact outcome_error hgone (OwnRounds.of_initiated hstate hround.peer)
  · intro _ _
    exact outcome_initiated_removed hgone hstate hround rfl

theorem respondToBusy_outcome (m : BusyMessage) :
    Ends (respondToBusy host peer m) g (Outcome peer (.busy m) g) := by
  refine ends_check_bind (checkInitiated_run _) outcome_refused ?_
  intro state _ hstate hvalid
  have hown : OwnRounds (.busy m) peer g none g.acceptedRoundStates :=
    OwnRounds.of_initiated hstate (validateSession_ok hvalid).1
  rw [ends_removeInitiated_bind_iff]
  refine ends_call_bind isCall_incrPeerBusy (Holding.self.setInitiated none) ?_ ?_
  · intro fault g₂ hnow
    exact outcome_error hnow hown
  intro _ g₂ _ hnow
  refine ends_call_bind (isCall_setLastGossipTimestamp _) hnow ?_ ?_
  · intro fault g₃ hnow
    exact outcome_error hnow hown
  · intro _ g₃ _ hnow
    exact outcome_unfinishable hnow hown rfl rfl

theorem respondToDiscSectorDetailsDiff_outcome (m : DiscSectorDetailsDiffMessage) :
    Ends (respondToDiscSectorDetailsDiff loc host peer m) g
      (Outcome peer (.discSectorDetailsDiff m) g) := by
  refine ends_check_bind (checkInitiated_run _) outcome_refused ?_
  rintro state ⟨commonArcSet, snapshot⟩ hstate hvalid
  have hround : InRound peer (.discSectorDetailsDiff m) state :=
    ⟨(session_of_bind hvalid).1, (session_of_bind hvalid).2⟩
  have hown : ∀ i, OwnRounds (.discSectorDetailsDiff m) peer g i g.acceptedRoundStates :=
    fun _ => OwnRounds.of_initiated hstate hround.peer
  refine ends_liftK2_bind (fun _ _ => outcome_error Holding.self (hown _)) ?_
  intro theirSnapshot _
  refine ends_liftK2_bind (fun _ _ => outcome_error Holding.self (hown _)) ?_
  rintro ⟨nextAction, usedBytes⟩ _
  dsimp only
  rw [ends_writeInitiated_bind_iff]
  have hself : Holding peer g g.initiatedRoundState g.acceptedRoundStates g := Holding.self
  have hspent := hself.setInitiated (some (state.spend usedBytes))
  -- every other action ends the round
  have hdone : ∀ reason, Ends (do
      removeInitiated
      pure (terminate m.sessionId reason) : GossipM Url _)
        (g.setInitiated (some (state.spend usedBytes)))
      (Outcome peer (.discSectorDetailsDiff m) g) :=
    fun _ => outcome_initiated_removed (hspent.setInitiated none) hstate hround rfl
  cases nextAction with
  | identical => exact hdone _
  | cannotCompare => exact hdone _
  | newSnapshot s => exact hdone _
  | hashList ids => exact hdone _
  | newSnapshotAndHashList s ids =>
      dsimp only
      rw [ends_writeInitiated_bind_iff]
      refine ends_liftK2_bind (fun _ _ => outcome_error (hspent.setInitiated _) (hown _)) ?_
      intro message _
      exact outcome_initiated_kept (hspent.setInitiated _) hstate hround
        ⟨hround.peer, hround.session⟩ rfl rfl

theorem respondToRingSectorDetailsDiffResponse_outcome (m : RingSectorDetailsDiffResponseMessage) :
    Ends (respondToRingSectorDetailsDiffResponse loc host peer m) g
      (Outcome peer (.ringSectorDetailsDiffResponse m) g) := by
  refine ends_check_bind (checkInitiated_run _) outcome_refused ?_
  rintro state ⟨details, snapshot⟩ hstate hvalid
  have hround : InRound peer (.ringSectorDetailsDiffResponse m) state :=
    ⟨(session_of_bind hvalid).1, (session_of_bind hvalid).2⟩
  have hown : ∀ i, OwnRounds (.ringSectorDetailsDiffResponse m) peer g i g.acceptedRoundStates :=
    fun _ => OwnRounds.of_initiated hstate hround.peer
  dsimp only
  refine ends_call_bind (isCall_requestOps _ _) Holding.self
    (fun _ _ hnow => outcome_error hnow (hown _)) ?_
  intro _ g₂ _ hnow
  refine ends_liftK2_bind (fun _ _ => outcome_error hnow (hown _)) ?_
  intro theirSnapshot _
  refine ends_liftK2_bind (fun _ _ => outcome_error hnow (hown _)) ?_
  rintro ⟨nextAction, usedBytes⟩ _
  dsimp only
  rw [ends_writeInitiated_bind_iff]
  refine ends_call_bind (isCall_updateStorageArcs _) (hnow.setInitiated _)
    (fun _ _ hnow => outcome_error hnow (hown _)) ?_
  intro _ g₃ _ hspent
  rw [ends_removeInitiated_bind_iff]
  -- the round ends here whatever is answered
  have hgone := hspent.setInitiated none
  cases nextAction with
  | identical => exact outcome_initiated_removed hgone hstate hround rfl
  | cannotCompare => exact outcome_initiated_removed hgone hstate hround rfl
  | newSnapshot s => exact outcome_initiated_removed hgone hstate hround rfl
  | hashList ids => exact outcome_initiated_removed hgone hstate hround rfl
  | newSnapshotAndHashList s ids => exact outcome_initiated_removed hgone hstate hround rfl

/-- The answers to the snapshot of an accept message. -/
theorem answerMinimalSnapshot_outcome {m : AcceptMessage} {response : AcceptResponseMessage}
    {commonArcSet : ArcSet} {state state' : GossipRoundState Url} {g₁ : K2Gossip Url}
    (hstate : g.initiatedRoundState = some state) (hround : InRound peer (.accept m) state)
    (hround' : InRound peer (.accept m) state')
    (hnow : Holding peer g (some state') g.acceptedRoundStates g₁) (nextAction : DhtSnapshotNextAction) :
    Ends (answerMinimalSnapshot host m response commonArcSet state' nextAction) g₁
      (Outcome peer (.accept m) g) := by
  have hown : ∀ i, OwnRounds (.accept m) peer g i g.acceptedRoundStates :=
    fun _ => OwnRounds.of_initiated hstate hround.peer
  have hkept : ∀ stage, InRound peer (.accept m) { state' with stage } :=
    fun _ => ⟨hround'.peer, hround'.session⟩
  -- an unexpected action or snapshot ends the round
  have hdone : ∀ reason, Ends (do
      removeInitiated
      pure (terminate m.sessionId reason) : GossipM Url _) g₁ (Outcome peer (.accept m) g) :=
    fun _ => outcome_initiated_removed (hnow.setInitiated none) hstate hround rfl
  cases nextAction with
  | hashList ids => exact hdone _
  | newSnapshotAndHashList s ids => exact hdone _
  | cannotCompare =>
      exact outcome_initiated_kept (hnow.setInitiated _) hstate hround (hkept _) rfl rfl
  | identical =>
      unfold answerMinimalSnapshot
      rw [ends_writeInitiated_bind_iff]
      refine ends_call_bind (isCall_updateStorageArcs _) (hnow.setInitiated _)
        (fun _ _ hnow => outcome_error hnow (hown _)) ?_
      intro _ g₂ _ hkeep
      exact outcome_initiated_kept hkeep hstate hround (hkept _) rfl rfl
  | newSnapshot s =>
      cases s with
      | minimal _ _ _ => exact hdone _
      | discSectorDetails _ _ => exact hdone _
      | discSectors hashes boundary =>
          exact outcome_initiated_kept (hnow.setInitiated _) hstate hround (hkept _) rfl rfl
      | ringSectorDetails hashes boundary =>
          exact outcome_initiated_kept (hnow.setInitiated _) hstate hround (hkept _) rfl rfl

theorem respondToAccept_outcome (m : AcceptMessage) :
    Ends (respondToAccept loc host peer m) g (Outcome peer (.accept m) g) := by
  refine ends_check_bind (checkInitiated_run _) outcome_refused ?_
  intro state initiated hstate hvalid
  have hround : InRound peer (.accept m) state :=
    ⟨(session_of_bind hvalid).1, (session_of_bind hvalid).2⟩
  have hown : ∀ i, OwnRounds (.accept m) peer g i g.acceptedRoundStates :=
    fun _ => OwnRounds.of_initiated hstate hround.peer
  -- the common arc set is there or the message is refused; nothing is written yet
  have hcommon : ∀ r g₁, (getCommonArcSet initiated m : GossipM Url ArcSet) g = (r, g₁) →
      g₁ = g := by
    intro r g₁ h
    unfold getCommonArcSet at h
    cases harc : m.arcSet with
    | none =>
        rw [harc] at h
        cases h
        rfl
    | some value =>
        rw [harc] at h
        dsimp only at h
        cases hdec : ArcSet.decode value with
        | error fault =>
            rw [hdec] at h
            cases h
            rfl
        | ok set =>
            rw [hdec] at h
            cases h
            rfl
  dsimp only
  refine ends_bind ?_ ?_
  · intro e g₁ he
    rw [hcommon _ _ he]
    exact outcome_error Holding.self (hown _)
  intro commonArcSet g₁ hget
  rw [hcommon _ _ hget]
  refine ends_liftK2_bind (fun _ _ => outcome_error Holding.self (hown _)) ?_
  intro missingAgents _
  refine ends_call_bind (isCall_updateNewOpsBookmark _) Holding.self
    (fun _ _ hnow => outcome_error hnow (hown _)) ?_
  intro _ g₂ _ hnow
  refine ends_call_bind (isCall_recordDhtOpCount _) hnow
    (fun _ _ hnow => outcome_error hnow (hown _)) ?_
  intro _ g₃ _ hnow
  refine ends_call_bind (isCall_requestOps _ _) hnow
    (fun _ _ hnow => outcome_error hnow (hown _)) ?_
  intro _ g₄ _ hnow
  refine ends_liftK2_bind (fun _ _ => outcome_error hnow (hown _)) ?_
  rintro ⟨sendNewOps, usedBytes, sendNewBookmark⟩ _
  dsimp only
  rw [ends_read_bind_iff, ends_writeInitiated_bind_iff]
  have hround' : ∀ budget, InRound peer (.accept m) { state with peerMaxOpDataBytes := budget } :=
    fun _ => ⟨hround.peer, hround.session⟩
  split
  · refine ends_liftK2_bind (fun _ _ => outcome_error (hnow.setInitiated _) (hown _)) ?_
    rintro ⟨nextAction, _⟩ _
    exact answerMinimalSnapshot_outcome hstate hround (hround' _) (hnow.setInitiated _) nextAction
  · exact outcome_initiated_kept ((hnow.setInitiated _).setInitiated _) hstate hround
      ⟨hround.peer, hround.session⟩ rfl rfl

/-! ## The messages of an acceptor -/

theorem respondToNoDiff_outcome (m : NoDiffMessage) :
    Ends (respondToNoDiff host peer m) g (Outcome peer (.noDiff m) g) := by
  refine ends_check_bind (checkAccepted_run _) outcome_refused ?_
  intro state acceptResponse hstate hvalid
  have hsession := (session_of_bind hvalid).2
  rw [ends_removeAccepted_bind_iff]
  refine ends_call_bind (isCall_handleAcceptResponse _) Holding.self.eraseAccepted
    (fun _ _ hnow => outcome_error hnow OwnRounds.none_changed.erase) ?_
  intro sendAgents g₂ _ hgone
  split
  · exact outcome_accepted_removed hgone OwnRounds.none_changed hstate hsession rfl
  · exact outcome_accepted_removed hgone OwnRounds.none_changed hstate hsession rfl

theorem respondToDiscSectorsDiff_outcome (m : DiscSectorsDiffMessage) :
    Ends (respondToDiscSectorsDiff loc host peer m) g (Outcome peer (.discSectorsDiff m) g) := by
  refine ends_check_bind (checkAccepted_run _) outcome_refused ?_
  rintro state ⟨accepted, acceptResponse, snapshot⟩ hstate hvalid
  have hsession : state.sessionId = (GossipMessage.discSectorsDiff m).sessionId :=
    (session_of_bind hvalid).2
  dsimp only
  refine ends_call_bind (isCall_handleAcceptResponse _) Holding.self
    (fun _ _ hnow => outcome_error hnow OwnRounds.none_changed) ?_
  intro sendAgents g₂ _ hnow
  refine ends_liftK2_bind (fun _ _ => outcome_error hnow OwnRounds.none_changed) ?_
  intro theirSnapshot _
  refine ends_liftK2_bind (fun _ _ => outcome_error hnow OwnRounds.none_changed) ?_
  rintro ⟨nextAction, _⟩ _
  dsimp only
  -- the accepted slot of the sender is emptied, no other
  have hgone : ∀ {res}, isFinalMessage res = true →
      Outcome peer (.discSectorsDiff m) g (.ok res)
        (g₂.setAccepted (g₂.acceptedRoundStates.erase peer)) :=
    fun hfinal => outcome_accepted_removed hnow.eraseAccepted OwnRounds.none_changed hstate hsession
      hfinal
  cases nextAction with
  | identical =>
      cases sendAgents with
      | none => exact hgone rfl
      | some agents => exact hgone rfl
  | cannotCompare =>
      cases sendAgents with
      | none => exact hgone rfl
      | some agents => exact hgone rfl
  | hashList ids => exact hgone rfl
  | newSnapshotAndHashList s ids => exact hgone rfl
  | newSnapshot s =>
      rw [ends_writeAccepted_bind_iff]
      refine ends_liftK2_bind (fun _ _ =>
        outcome_error (hnow.insertAccepted _) (OwnRounds.none_changed.insert hstate)) ?_
      intro message _
      exact outcome_accepted_kept (hnow.insertAccepted _)
        (OwnRounds.none_changed.insert hstate) hstate hsession
        hsession rfl rfl

theorem respondToDiscSectorDetailsDiffResponse_outcome (m : DiscSectorDetailsDiffResponseMessage) :
    Ends (respondToDiscSectorDetailsDiffResponse loc host peer m) g
      (Outcome peer (.discSectorDetailsDiffResponse m) g) := by
  refine ends_check_bind (checkAccepted_run _) outcome_refused ?_
  rintro state ⟨details, snapshot⟩ hstate hvalid
  have hsession : state.sessionId = (GossipMessage.discSectorDetailsDiffResponse m).sessionId :=
    (session_of_bind hvalid).2
  dsimp only
  refine ends_call_bind (isCall_requestOps _ _) Holding.self
    (fun _ _ hnow => outcome_error hnow OwnRounds.none_changed) ?_
  intro _ g₂ _ hnow
  refine ends_liftK2_bind (fun _ _ => outcome_error hnow OwnRounds.none_changed) ?_
  intro theirSnapshot _
  refine ends_liftK2_bind (fun _ _ => outcome_error hnow OwnRounds.none_changed) ?_
  rintro ⟨nextAction, usedBytes⟩ _
  dsimp only
  rw [ends_writeAccepted_bind_iff, ends_removeAccepted_bind_iff]
  have hgone := (hnow.insertAccepted (state.spend usedBytes)).eraseAccepted
  cases nextAction with
  | identical =>
      exact outcome_accepted_removed hgone (OwnRounds.none_changed.insert hstate) hstate hsession rfl
  | cannotCompare =>
      exact outcome_accepted_removed hgone (OwnRounds.none_changed.insert hstate) hstate hsession rfl
  | newSnapshot s =>
      exact outcome_accepted_removed hgone (OwnRounds.none_changed.insert hstate) hstate hsession rfl
  | hashList ids =>
      exact outcome_accepted_removed hgone (OwnRounds.none_changed.insert hstate) hstate hsession rfl
  | newSnapshotAndHashList s ids =>
      exact outcome_accepted_removed hgone (OwnRounds.none_changed.insert hstate) hstate hsession rfl

theorem respondToRingSectorDetailsDiff_outcome (m : RingSectorDetailsDiffMessage) :
    Ends (respondToRingSectorDetailsDiff loc host peer m) g
      (Outcome peer (.ringSectorDetailsDiff m) g) := by
  refine ends_check_bind (checkAccepted_run _) outcome_refused ?_
  rintro state ⟨accepted, acceptResponse, snapshot⟩ hstate hvalid
  have hsession : state.sessionId = (GossipMessage.ringSectorDetailsDiff m).sessionId :=
    (session_of_bind hvalid).2
  dsimp only
  refine ends_call_bind (isCall_handleAcceptResponse _) Holding.self
    (fun _ _ hnow => outcome_error hnow OwnRounds.none_changed) ?_
  intro _ g₂ _ hnow
  refine ends_liftK2_bind (fun _ _ => outcome_error hnow OwnRounds.none_changed) ?_
  intro theirSnapshot _
  refine ends_liftK2_bind (fun _ _ => outcome_error hnow OwnRounds.none_changed) ?_
  rintro ⟨nextAction, usedBytes⟩ _
  dsimp only
  rw [ends_writeAccepted_bind_iff]
  refine ends_call_bind (isCall_updateStorageArcs _) (hnow.insertAccepted _)
    (fun _ _ hnow => outcome_error hnow (OwnRounds.none_changed.insert hstate)) ?_
  intro _ g₃ _ hspent
  -- the accepted slot of the sender is emptied, no other
  have hgone : ∀ {res}, isFinalMessage res = true →
      Outcome peer (.ringSectorDetailsDiff m) g (.ok res)
        (g₃.setAccepted (g₃.acceptedRoundStates.erase peer)) :=
    fun hfinal => outcome_accepted_removed hspent.eraseAccepted
      (OwnRounds.none_changed.insert hstate) hstate hsession
      hfinal
  cases nextAction with
  | identical =>
      dsimp only
      rw [ends_removeAccepted_bind_iff]
      split
      · exact hgone rfl
      · exact hgone rfl
  | cannotCompare =>
      dsimp only
      rw [ends_removeAccepted_bind_iff]
      split
      · exact hgone rfl
      · exact hgone rfl
  | newSnapshot s => exact hgone rfl
  | hashList ids => exact hgone rfl
  | newSnapshotAndHashList s ids =>
      dsimp only
      rw [ends_writeAccepted_bind_iff]
      have hwritten := hspent.insertAccepted
        { state.spend usedBytes with stage := .ringSectorDetailsDiff accepted.commonArcSet s }
      have hown : OwnRounds (.ringSectorDetailsDiff m) peer g g.initiatedRoundState
          ((g.acceptedRoundStates.insert peer (state.spend usedBytes)).insert peer
            { state.spend usedBytes with stage := .ringSectorDetailsDiff accepted.commonArcSet s }) :=
        (OwnRounds.none_changed.insert hstate).insert (AList.lookup_insert _)
      refine ends_liftK2_bind (fun _ _ => outcome_error hwritten hown) ?_
      intro message _
      exact outcome_accepted_kept hwritten hown hstate hsession hsession rfl rfl

/-! ## The messages of either -/

theorem respondToHashes_outcome (m : HashesMessage) :
    Ends (respondToHashes host peer m) g (Outcome peer (.hashes m) g) := by
  unfold respondToHashes
  rw [ends_read_bind_iff]
  split
  · rename_i hinit
    -- the initiated round is looked up first, the accepted ones after it
    have hround : ∃ state, g.initiatedRoundState = some state ∧ InRound peer (.hashes m) state := by
      unfold K2Gossip.hasInitiated at hinit
      split at hinit
      · rename_i state hstate
        rw [Bool.and_eq_true, decide_eq_true_eq, decide_eq_true_eq] at hinit
        exact ⟨state, hstate, hinit.1, hinit.2⟩
      · cases hinit
    rcases hround with ⟨state, hstate, hround⟩
    rw [ends_removeInitiated_bind_iff]
    refine ends_call_bind (isCall_requestOps _ _) (Holding.self.setInitiated none)
      (fun _ _ hnow => outcome_error hnow (OwnRounds.of_initiated hstate hround.peer)) ?_
    intro _ g₂ _ hgone
    exact outcome_initiated_removed hgone hstate hround rfl
  · split
    · rename_i hacc
      have hround : ∃ state, g.acceptedRoundStates.lookup peer = some state ∧
          state.sessionId = m.sessionId := by
        unfold K2Gossip.hasAccepted at hacc
        split at hacc
        · rename_i state hstate
          exact ⟨state, hstate, of_decide_eq_true hacc⟩
        · cases hacc
      rcases hround with ⟨state, hstate, hsession⟩
      rw [ends_removeAccepted_bind_iff]
      refine ends_call_bind (isCall_requestOps _ _) Holding.self.eraseAccepted
        (fun _ _ hnow => outcome_error hnow OwnRounds.none_changed.erase) ?_
      intro _ g₂ _ hgone
      exact outcome_accepted_removed hgone OwnRounds.none_changed hstate hsession rfl
    · exact outcome_error Holding.self OwnRounds.none_changed

theorem respondToTerminate_outcome (m : TerminateMessage) :
    Ends (respondToTerminate host peer m) g (Outcome peer (.terminate m) g) := by
  unfold respondToTerminate
  rw [ends_read_bind_iff]
  -- a terminate is about the initiated round with the peer, if there is one, and else the
  -- accepted
  split
  · rename_i state hfilter
    rcases Option.filter_eq_some_iff.mp hfilter with ⟨hstate, hpeer⟩
    have hpeer : state.sessionWithPeer = peer := of_decide_eq_true hpeer
    have hown : OwnRounds (.terminate m) peer g none g.acceptedRoundStates :=
      OwnRounds.of_initiated hstate hpeer
    rw [ends_removeInitiated_bind_iff]
    split
    · exact outcome_error (Holding.self.setInitiated none) hown
    · rename_i hsession
      refine ends_call_bind isCall_incrPeerTerminated (Holding.self.setInitiated none)
        (fun _ _ hnow => outcome_error hnow hown) ?_
      intro _ g₂ _ hgone
      exact outcome_initiated_removed hgone hstate ⟨hpeer, not_not.mp hsession⟩ rfl
  · split
    · rename_i state hstate
      rw [ends_removeAccepted_bind_iff]
      split
      · exact outcome_error Holding.self.eraseAccepted OwnRounds.none_changed.erase
      · rename_i hsession
        refine ends_call_bind isCall_incrPeerTerminated Holding.self.eraseAccepted
          (fun _ _ hnow => outcome_error hnow OwnRounds.none_changed.erase) ?_
        intro _ g₂ _ hgone
        exact outcome_accepted_removed hgone OwnRounds.none_changed hstate (not_not.mp hsession) rfl
    · exact outcome_error Holding.self OwnRounds.none_changed

/-! ## Initiate -/

/-- After the checks of an initiate its round is the only one that may be gone. -/
theorem checkPeerInitiateRate_holding (m : InitiateMessage) :
    Ends (checkPeerInitiateRate host peer m) g fun _ g₁ =>
      Holding peer g g₁.initiatedRoundState g.acceptedRoundStates g₁ ∧
        (g₁.initiatedRoundState = g.initiatedRoundState ∨ g.InitiatedWith peer) := by
  have hburst : Ends (checkBurst host peer) g fun _ g₁ =>
      Holding peer g g₁.initiatedRoundState g.acceptedRoundStates g₁ ∧
        (g₁.initiatedRoundState = g.initiatedRoundState ∨ g.InitiatedWith peer) := by
    have hsame : ∀ {g₁ : K2Gossip Url},
        Holding peer g g.initiatedRoundState g.acceptedRoundStates g₁ →
        Holding peer g g₁.initiatedRoundState g.acceptedRoundStates g₁ ∧
          (g₁.initiatedRoundState = g.initiatedRoundState ∨ g.InitiatedWith peer) := by
      intro g₁ h
      exact ⟨h.initiated ▸ h, Or.inl h.initiated⟩
    refine ends_call_bind isCall_checkAccept Holding.self (fun _ _ hnow => hsame hnow) ?_
    intro ok g₁ _ hnow
    cases ok with
    | false => exact hsame hnow
    | true => exact hsame hnow
  -- both have initiated: unless our tie breaker is the larger one, our own round is dropped
  unfold checkPeerInitiateRate
  rw [ends_read_bind_iff]
  split
  · rename_i state hstate
    split
    · rename_i hpeer
      split
      · split
        · exact ⟨Holding.self, Or.inl rfl⟩
        · exact ⟨Holding.self.setInitiated none, Or.inr ⟨state, hstate, hpeer⟩⟩
      · exact ⟨Holding.self, Or.inl rfl⟩
    · exact hburst
  · exact hburst

/-- An accepted round begins, if there is none with the peer. -/
theorem ends_createAcceptState_bind {β : Type} {m : InitiateMessage} {ourAgents : List Bytes}
    {commonArcSet : ArcSet} {f : GossipRoundState Url → GossipM Url β}
    {Q : Except K2GossipError β → K2Gossip Url → Prop}
    (hfault : ∀ fault, Q (.error (.k2 fault)) g)
    (hnext : ∀ state, g.acceptedRoundStates.lookup peer = none →
      state = acceptState host g.config peer m ourAgents commonArcSet →
      Ends (f state) (g.setAccepted (g.acceptedRoundStates.insert peer state)) Q) :
    Ends (createAcceptState host peer m ourAgents commonArcSet >>= f) g Q := by
  cases hslot : g.acceptedRoundStates.lookup peer with
  -- a second accepted round with the peer is refused
  | some state =>
      refine ends_bind ?_ ?_
      · intro e g₁ he
        rw [createAcceptState_some hslot] at he
        cases he
        exact hfault _
      · intro state g₁ hstate
        rw [createAcceptState_some hslot] at hstate
        cases hstate
  | none =>
      refine ends_bind ?_ ?_
      · intro e g₁ he
        rw [createAcceptState_none hslot] at he
        cases he
      · intro state g₁ hstate
        rw [createAcceptState_none hslot] at hstate
        cases hstate
        exact hnext _ hslot rfl

theorem refuseIfBusy_isCall (m : InitiateMessage) : IsCall peer (refuseIfBusy host peer m) := by
  refine isCall_bind (isCall_recordDhtOpCount _) fun _ => isCall_read_bind fun g => ?_
  split
  · exact isCall_pure _
  · exact isCall_pure _

theorem refuseIfBusy_answer {m : InitiateMessage} {busy : GossipMessage}
    (h : refuseIfBusy host peer m g = (.ok (some busy), g')) :
    busy = .busy { sessionId := m.sessionId } := by
  have h : Returns (refuseIfBusy host peer m) g (some busy) g' := h
  unfold refuseIfBusy at h
  rcases returns_bind_iff.mp h with ⟨_, g₁, _, h⟩
  rw [returns_read_bind_iff] at h
  split at h
  · exact (Option.some.inj (returns_pure_iff.mp h).1).symm
  · cases (returns_pure_iff.mp h).1

/-- The rest of an initiate that was let through, followed from where it began. -/
theorem acceptInitiate_outcome (m : InitiateMessage) {g₁ : K2Gossip Url}
    (hnow : Holding peer g initiated g.acceptedRoundStates g₁)
    (hinit : initiated = g.initiatedRoundState ∨ g.InitiatedWith peer) :
    Ends (acceptInitiate host peer m) g₁ (Outcome peer (.initiate m) g) := by
  have hsame : OwnRounds (.initiate m) peer g initiated g.acceptedRoundStates :=
    ⟨hinit, fun _ _ => rfl, Nat.le_add_right _ _, fun _ h => h⟩
  have hinserted : ∀ state, OwnRounds (.initiate m) peer g initiated
      (g.acceptedRoundStates.insert peer state) :=
    fun state => ⟨hinit, fun _ hq => AList.lookup_insert_ne hq, length_insert_le peer state _,
      fun h => by cases h⟩
  have hstopped : ∀ {e : K2GossipError} {g₂ : K2Gossip Url},
      Holding peer g initiated g.acceptedRoundStates g₂ →
      Outcome peer (.initiate m) g (.error e) g₂ := fun h => outcome_error h hsame
  refine ends_call_bind (isCall_setLastGossipTimestamp _) hnow (fun _ _ h => hstopped h) ?_
  intro _ g₂ _ hnow
  refine ends_liftK2_bind (fun _ _ => hstopped hnow) ?_
  intro otherArcSet _
  refine ends_liftK2_bind (fun _ _ => hstopped hnow) ?_
  rintro ⟨ourAgents, ourArcSet⟩ _
  refine ends_createAcceptState_bind (fun _ => hstopped hnow) ?_
  intro state _ _
  -- from here on the round is there, also when a later call fails
  have hnow := hnow.insertAccepted state
  refine ends_liftK2_bind (fun _ _ => outcome_error hnow (hinserted state)) ?_
  intro snapshot _
  refine ends_liftK2_bind (fun _ _ => outcome_error hnow (hinserted state)) ?_
  intro missingAgents _
  refine ends_call_bind (isCall_getRequestNewSince _) hnow
    (fun _ _ h => outcome_error h (hinserted state)) ?_
  intro newSince g₃ _ hnow
  refine ends_liftK2_bind (fun _ _ => outcome_error hnow (hinserted state)) ?_
  rintro ⟨newOps, usedBytes, newBookmark⟩ _
  dsimp only
  rw [ends_writeAccepted_bind_iff, ends_read_bind_iff]
  exact outcome_unfinishable (hnow.insertAccepted _)
    ((hinserted state).insert (AList.lookup_insert _)) rfl rfl

theorem respondToInitiate_outcome (m : InitiateMessage) :
    Ends (respondToInitiate host peer m) g (Outcome peer (.initiate m) g) := by
  have hsame : ∀ {initiated}, initiated = g.initiatedRoundState ∨ g.InitiatedWith peer →
      OwnRounds (.initiate m) peer g initiated g.acceptedRoundStates :=
    fun hinit => ⟨hinit, fun _ _ => rfl, Nat.le_add_right _ _, fun _ h => h⟩
  refine ends_bind ?_ ?_
  · intro e g₁ he
    rcases (checkPeerInitiateRate_holding m).of_run he with ⟨hnow, hinit⟩
    exact outcome_error hnow (hsame hinit)
  intro ok g₁ hrate
  rcases (checkPeerInitiateRate_holding m).of_run hrate with ⟨hnow, hinit⟩
  cases ok with
  | false => exact outcome_unfinishable hnow (hsame hinit) rfl rfl
  | true =>
      refine ends_call_bind (refuseIfBusy_isCall m) hnow
        (fun _ _ h => outcome_error h (hsame hinit)) ?_
      intro refused g₂ hrefuse hnow
      cases refused with
      | some busy =>
          rw [refuseIfBusy_answer hrefuse]
          exact outcome_unfinishable hnow (hsame hinit) rfl rfl
      | none => exact acceptInitiate_outcome m hnow hinit

/-! ## Any message -/

theorem respond_outcome (msg : GossipMessage) :
    Ends (respond loc host peer msg) g (Outcome peer msg g) := by
  cases msg with
  | initiate m => exact respondToInitiate_outcome m
  | accept m => exact respondToAccept_outcome m
  | noDiff m => exact respondToNoDiff_outcome m
  | discSectorsDiff m => exact respondToDiscSectorsDiff_outcome m
  | discSectorDetailsDiff m => exact respondToDiscSectorDetailsDiff_outcome m
  | discSectorDetailsDiffResponse m => exact respondToDiscSectorDetailsDiffResponse_outcome m
  | ringSectorDetailsDiff m => exact respondToRingSectorDetailsDiff_outcome m
  | ringSectorDetailsDiffResponse m => exact respondToRingSectorDetailsDiffResponse_outcome m
  | hashes m => exact respondToHashes_outcome m
  | agents m => exact respondToAgents_outcome m
  | busy m => exact respondToBusy_outcome m
  | terminate m => exact respondToTerminate_outcome m

theorem Frame.refl : Frame peer g g where
  config := rfl
  initiated := fun _ => rfl
  accepted := fun _ _ => rfl
  others := fun _ _ => rfl

/-- A write to the peer meta store stays within the values of its peer. -/
theorem putMeta_frame {c : HostCall} {f : PeerMeta → PeerMeta} :
    Ends (putMeta host c peer f) g fun _ g₁ => Frame peer g g₁ := by
  refine ends_liftK2_bind ?_ ?_
  · intro fault _
    exact Frame.refl
  · intro _ _
    exact Frame.setMeta f

omit [DecidableEq Url] in
theorem isCall_sendAnswer {res : Option GossipMessage} :
    IsCall peer (sendAnswer host res : GossipM Url Unit) := by
  unfold sendAnswer
  split
  · exact isCall_liftK2 _
  · exact isCall_pure _

theorem respondToMsg_frame (msg : GossipMessage) :
    Ends (respondToMsg loc host peer msg) g fun _ g' => Frame peer g g' := by
  refine ends_bind ?_ ?_
  · intro e g₁ he
    exact ((respond_outcome msg).of_run he).frame
  intro res g₁ hres
  have hframe := ((respond_outcome msg).of_run hres).frame
  -- sending the answer changes nothing, and the counter is the peer's
  refine ends_call_bind isCall_sendAnswer Holding.self
    (fun _ _ hnow => hframe.trans (hnow.frame_self)) ?_
  intro _ g₂ _ hnow
  have hframe := hframe.trans (hnow.frame_self)
  have hcount : Ends (countIfFinal host peer res) g₂ fun _ g₃ => Frame peer g₂ g₃ := by
    unfold countIfFinal
    split
    · exact putMeta_frame
    · exact Frame.refl
  refine ends_bind ?_ ?_
  · intro e g₃ he
    exact hframe.trans (hcount.of_run he)
  · intro _ g₃ hok
    exact hframe.trans (hcount.of_run hok)

theorem recordError_frame (recorded : Bool) (e : K2GossipError) :
    Frame peer g (g.recordError recorded peer e) := by
  unfold K2Gossip.recordError
  split
  · exact Frame.refl
  · cases e with
    | peerBehavior ctx => exact Frame.setMeta _
    | k2 fault => exact Frame.setMeta _

/-- The rounds are the same. -/
def SameRounds (g g' : K2Gossip Url) : Prop :=
  g'.initiatedRoundState = g.initiatedRoundState ∧ g'.acceptedRoundStates = g.acceptedRoundStates

theorem recordError_rounds (recorded : Bool) (e : K2GossipError) :
    SameRounds g (g.recordError recorded peer e) := by
  unfold K2Gossip.recordError
  split
  · exact ⟨rfl, rfl⟩
  · cases e with
    | peerBehavior ctx => exact ⟨rfl, rfl⟩
    | k2 fault => exact ⟨rfl, rfl⟩

/-- Handling a message leaves alone what concerns only other peers. -/
theorem handleGossipMessage_frame (loc : LocCb) (host : Host) (recorded : Bool) (peer : Url)
    (msg : GossipMessage) (g : K2Gossip Url) :
    Frame peer g (handleGossipMessage loc host recorded peer msg g).1 := by
  rcases hrun : respondToMsg loc host peer msg g with ⟨r, g'⟩
  have hframe : Frame peer g g' := (respondToMsg_frame msg).of_run hrun
  unfold handleGossipMessage
  rw [hrun]
  cases r with
  | ok res => exact hframe
  | error e => exact hframe.trans (recordError_frame recorded e)

/-- No message of a peer touches a round with another peer, or a value kept for another peer. -/
theorem handleGossipMessage_isolates (loc : LocCb) (host : Host) (recorded : Bool) (peer : Url)
    (msg : GossipMessage) (g : K2Gossip Url) :
    let g' := (handleGossipMessage loc host recorded peer msg g).1
    (∀ q, q ≠ peer → g'.acceptedRoundStates.lookup q = g.acceptedRoundStates.lookup q) ∧
      (¬ g.InitiatedWith peer → g'.initiatedRoundState = g.initiatedRoundState) ∧
      ∀ q, q ≠ peer → g'.peerMeta q = g.peerMeta q ∧ g'.burst q = g.burst q := by
  intro g'
  have hframe : Frame peer g g' := handleGossipMessage_frame loc host recorded peer msg g
  refine ⟨hframe.accepted, hframe.initiated, ?_⟩
  intro q hq
  exact Prod.mk.inj (hframe.others q hq)

end Handlers

end Gossip
end Kitsune2
