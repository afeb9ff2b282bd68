import Kitsune2.Gossip.AcceptLimit

/-!
# StartTimes — a round keeps the time at which it was started

Whatever its messages do to a round, it has the start time with which it was created, and it is only
created in an empty slot.
-/

namespace Kitsune2
namespace Gossip

open Api Lib Dht

variable {Url : Type} [DecidableEq Url] {loc : LocCb} {host : Host} {peer : Url}
  {g g' g₁ : K2Gossip Url} {started startedAccepted : Nat → Prop}

/-! ## Start times -/

/-- The start times of the initiated round and of the accepted round of a peer, if there are such. -/
structure Stamped (started startedAccepted : Nat → Prop) (peer : Url) (g : K2Gossip Url) : Prop where
  initiated : ∀ state ∈ g.initiatedRoundState, started state.startedAt
  accepted : ∀ state ∈ g.acceptedRoundStates.lookup peer, startedAccepted state.startedAt

section Calls

variable {α : Type}

theorem keeps_call {m : GossipM Url α} (hm : IsCall peer m) :
    Keeps (Stamped started startedAccepted peer) m fun _ => True := by
  intro g hg
  have hsame := (hm g _ _ rfl).1
  refine ⟨⟨?_, ?_⟩, fun _ _ => trivial⟩
  · rw [hsame.initiated]
    exact hg.initiated
  · rw [hsame.accepted]
    exact hg.accepted

theorem keeps_writeInitiated {state : GossipRoundState Url} (hstate : started state.startedAt) :
    Keeps (Stamped started startedAccepted peer) (writeInitiated state) fun _ => True := by
  refine keeps_modify (fun g hg => ⟨?_, hg.accepted⟩) trivial
  intro state' hstate'
  cases hstate'
  exact hstate

theorem keeps_writeAccepted {state : GossipRoundState Url} (hstate : startedAccepted state.startedAt) :
    Keeps (Stamped started startedAccepted peer) (writeAccepted peer state) fun _ => True := by
  refine keeps_modify (fun g hg => ⟨hg.initiated, ?_⟩) trivial
  intro state' hstate'
  have hlookup : (g.acceptedRoundStates.insert peer state).lookup peer = some state' := hstate'
  rw [AList.lookup_insert] at hlookup
  cases hlookup
  exact hstate

theorem keeps_removeInitiated :
    Keeps (Stamped started startedAccepted peer) (removeInitiated : GossipM Url Unit)
      fun _ => True := by
  refine keeps_modify (fun g hg => ⟨?_, hg.accepted⟩) trivial
  intro state hstate
  cases hstate

theorem keeps_removeAccepted :
    Keeps (Stamped started startedAccepted peer) (removeAccepted peer) fun _ => True := by
  refine keeps_modify (fun g hg => ⟨hg.initiated, ?_⟩) trivial
  intro state hstate
  have hlookup : (g.acceptedRoundStates.erase peer).lookup peer = some state := hstate
  rw [AList.lookup_erase] at hlookup
  cases hlookup

/-- A message of the initiated round is handled with that round's start time. -/
theorem keeps_checkInitiated {kind : MessageKind}
    {validate : GossipRoundState Url → Except K2GossipError α} :
    Keeps (Stamped started startedAccepted peer) (checkInitiated kind validate)
      fun out => started out.1.startedAt := by
  refine keeps_read_bind fun g hg => ?_
  cases hstate : g.initiatedRoundState with
  | none => exact keeps_fail _
  | some state =>
      exact (keeps_lift fun _ _ => trivial).bind fun _ _ => keeps_pure (hg.initiated state hstate)

theorem keeps_checkAccepted {kind : MessageKind}
    {validate : GossipRoundState Url → Except K2GossipError α} :
    Keeps (Stamped started startedAccepted peer) (checkAccepted kind peer validate)
      fun out => startedAccepted out.1.startedAt := by
  refine keeps_read_bind fun g hg => ?_
  cases hstate : g.acceptedRoundStates.lookup peer with
  | none => exact keeps_fail _
  | some state =>
      exact (keeps_lift fun _ _ => trivial).bind fun _ _ => keeps_pure (hg.accepted state hstate)

end Calls

/-! ## The handlers -/

section Handlers

theorem keeps_answerMinimalSnapshot {m : AcceptMessage} {response : AcceptResponseMessage}
    {commonArcSet : ArcSet} {state : GossipRoundState Url} (hstate : started state.startedAt)
    (nextAction : DhtSnapshotNextAction) :
    Keeps (Stamped started startedAccepted peer)
      (answerMinimalSnapshot host m response commonArcSet state nextAction) fun _ => True := by
  cases nextAction with
  | identical =>
      refine (keeps_writeInitiated (by exact hstate)).bind fun _ _ => ?_
      exact (keeps_call (isCall_updateStorageArcs _)).bind fun _ _ => keeps_pure trivial
  | cannotCompare => exact (keeps_writeInitiated (by exact hstate)).bind fun _ _ => keeps_pure trivial
  | newSnapshot s =>
      cases s with
      | discSectors hashes boundary =>
          refine (keeps_writeInitiated (by exact hstate)).bind fun _ _ => ?_
          exact (keeps_call (isCall_liftK2 _)).bind fun _ _ => keeps_pure trivial
      | ringSectorDetails hashes boundary =>
          refine (keeps_writeInitiated (by exact hstate)).bind fun _ _ => ?_
          exact (keeps_call (isCall_liftK2 _)).bind fun _ _ => keeps_pure trivial
      | _ => exact keeps_removeInitiated.bind fun _ _ => keeps_pure trivial
  | _ => exact keeps_removeInitiated.bind fun _ _ => keeps_pure trivial

theorem keeps_getCommonArcSet (initiated : InitiatedStage) (m : AcceptMessage) :
    Keeps (Stamped started startedAccepted peer) (getCommonArcSet initiated m : GossipM Url ArcSet)
      fun _ => True := by
  unfold getCommonArcSet
  cases m.arcSet with
  | none => exact keeps_fail _
  | some value => exact (keeps_call (isCall_liftK2 _)).bind fun _ _ => keeps_pure trivial

theorem keeps_respondToAccept (m : AcceptMessage) :
    Keeps (Stamped started startedAccepted peer) (respondToAccept loc host peer m)
      fun _ => True := by
  refine keeps_checkInitiated.bind fun out hstate => ?_
  refine (keeps_getCommonArcSet out.2 m).bind fun commonArcSet _ => ?_
  refine (keeps_call (isCall_liftK2 _)).bind fun _ _ => ?_
  refine (keeps_call (isCall_updateNewOpsBookmark _)).bind fun _ _ => ?_
  refine (keeps_call (isCall_recordDhtOpCount _)).bind fun _ _ => ?_
  refine (keeps_call (isCall_requestOps _ _)).bind fun _ _ => ?_
  refine (keeps_call (isCall_liftK2 _)).bind fun newOps _ => keeps_read_bind fun g _ => ?_
  refine (keeps_writeInitiated (by exact hstate)).bind fun _ _ => ?_
  cases m.snapshot with
  | none => exact (keeps_writeInitiated (by exact hstate)).bind fun _ _ => keeps_pure trivial
  | some theirSnapshot =>
      refine (keeps_call (isCall_liftK2 _)).bind fun answer _ => ?_
      exact keeps_answerMinimalSnapshot (by exact hstate) _

theorem keeps_respondToNoDiff (m : NoDiffMessage) :
    Keeps (Stamped started startedAccepted peer) (respondToNoDiff host peer m) fun _ => True := by
  refine keeps_checkAccepted.bind fun out _ => keeps_removeAccepted.bind fun _ _ => ?_
  refine (keeps_call (isCall_handleAcceptResponse _)).bind fun sendAgents _ => ?_
  split
  · exact keeps_pure trivial
  · exact keeps_pure trivial

theorem keeps_respondToDiscSectorsDiff (m : DiscSectorsDiffMessage) :
    Keeps (Stamped started startedAccepted peer) (respondToDiscSectorsDiff loc host peer m)
      fun _ => True := by
  refine keeps_checkAccepted.bind fun out hstate => ?_
  refine (keeps_call (isCall_handleAcceptResponse _)).bind fun sendAgents _ => ?_
  refine (keeps_call (isCall_liftK2 _)).bind fun _ _ => ?_
  refine (keeps_call (isCall_liftK2 _)).bind fun answer _ => ?_
  rcases answer with ⟨nextAction, used⟩
  cases nextAction with
  | newSnapshot s =>
      refine (keeps_writeAccepted (by exact hstate)).bind fun _ _ => ?_
      exact (keeps_call (isCall_liftK2 _)).bind fun _ _ => keeps_pure trivial
  | newSnapshotAndHashList s opIds => exact keeps_removeAccepted.bind fun _ _ => keeps_pure trivial
  | hashList opIds => exact keeps_removeAccepted.bind fun _ _ => keeps_pure trivial
  | _ =>
      refine keeps_removeAccepted.bind fun _ _ => ?_
      cases sendAgents with
      | none => exact keeps_pure trivial
      | some sendAgents => exact keeps_pure trivial

theorem keeps_respondToDiscSectorDetailsDiffResponse (m : DiscSectorDetailsDiffResponseMessage) :
    Keeps (Stamped started startedAccepted peer)
      (respondToDiscSectorDetailsDiffResponse loc host peer m) fun _ => True := by
  refine keeps_checkAccepted.bind fun out hstate => ?_
  refine (keeps_call (isCall_requestOps _ _)).bind fun _ _ => ?_
  refine (keeps_call (isCall_liftK2 _)).bind fun _ _ => ?_
  refine (keeps_call (isCall_liftK2 _)).bind fun answer _ => ?_
  refine (keeps_writeAccepted (by exact hstate)).bind fun _ _ => ?_
  refine keeps_removeAccepted.bind fun _ _ => ?_
  rcases answer with ⟨nextAction, used⟩
  cases nextAction with
  | _ => exact keeps_pure trivial

theorem keeps_respondToRingSectorDetailsDiff (m : RingSectorDetailsDiffMessage) :
    Keeps (Stamped started startedAccepted peer) (respondToRingSectorDetailsDiff loc host peer m)
      fun _ => True := by
  refine keeps_checkAccepted.bind fun out hstate => ?_
  refine (keeps_call (isCall_handleAcceptResponse _)).bind fun sendAgents _ => ?_
  refine (keeps_call (isCall_liftK2 _)).bind fun _ _ => ?_
  refine (keeps_call (isCall_liftK2 _)).bind fun answer _ => ?_
  refine (keeps_writeAccepted (by exact hstate)).bind fun _ _ => ?_
  refine (keeps_call (isCall_updateStorageArcs _)).bind fun _ _ => ?_
  rcases answer with ⟨nextAction, used⟩
  cases nextAction with
  | newSnapshotAndHashList s opIds =>
      refine (keeps_writeAccepted (by exact hstate)).bind fun _ _ => ?_
      exact (keeps_call (isCall_liftK2 _)).bind fun _ _ => keeps_pure trivial
  | newSnapshot s => exact keeps_removeAccepted.bind fun _ _ => keeps_pure trivial
  | hashList opIds => exact keeps_removeAccepted.bind fun _ _ => keeps_pure trivial
  | _ =>
      refine keeps_removeAccepted.bind fun _ _ => ?_
      cases loadAgentInfos host out.2.2.1.missingAgents with
      | nil => exact keeps_pure trivial
      | cons agent agents => exact keeps_pure trivial

theorem keeps_respondToDiscSectorDetailsDiff (m : DiscSectorDetailsDiffMessage) :
    Keeps (Stamped started startedAccepted peer) (respondToDiscSectorDetailsDiff loc host peer m)
      fun _ => True := by
  refine keeps_checkInitiated.bind fun out hstate => ?_
  refine (keeps_call (isCall_liftK2 _)).bind fun _ _ => ?_
  refine (keeps_call (isCall_liftK2 _)).bind fun answer _ => ?_
  refine (keeps_writeInitiated (by exact hstate)).bind fun _ _ => ?_
  rcases answer with ⟨nextAction, used⟩
  cases nextAction with
  | newSnapshotAndHashList s opIds =>
      refine (keeps_writeInitiated (by exact hstate)).bind fun _ _ => ?_
      exact (keeps_call (isCall_liftK2 _)).bind fun _ _ => keeps_pure trivial
  | _ => exact keeps_removeInitiated.bind fun _ _ => keeps_pure trivial

theorem keeps_respondToRingSectorDetailsDiffResponse (m : RingSectorDetailsDiffResponseMessage) :
    Keeps (Stamped started startedAccepted peer)
      (respondToRingSectorDetailsDiffResponse loc host peer m) fun _ => True := by
  refine keeps_checkInitiated.bind fun out hstate => ?_
  refine (keeps_call (isCall_requestOps _ _)).bind fun _ _ => ?_
  refine (keeps_call (isCall_liftK2 _)).bind fun _ _ => ?_
  refine (keeps_call (isCall_liftK2 _)).bind fun answer _ => ?_
  refine (keeps_writeInitiated (by exact hstate)).bind fun _ _ => ?_
  refine (keeps_call (isCall_updateStorageArcs _)).bind fun _ _ => ?_
  refine keeps_removeInitiated.bind fun _ _ => ?_
  rcases answer with ⟨nextAction, used⟩
  cases nextAction with
  | _ => exact keeps_pure trivial

theorem keeps_respondToHashes (m : HashesMessage) :
    Keeps (Stamped started startedAccepted peer) (respondToHashes host peer m) fun _ => True := by
  refine keeps_read_bind fun g _ => ?_
  split
  · refine keeps_removeInitiated.bind fun _ _ => ?_
    exact (keeps_call (isCall_requestOps _ _)).bind fun _ _ => keeps_pure trivial
  split
  · refine keeps_removeAccepted.bind fun _ _ => ?_
    exact (keeps_call (isCall_requestOps _ _)).bind fun _ _ => keeps_pure trivial
  · exact keeps_fail _

theorem keeps_respondToTerminate (m : TerminateMessage) :
    Keeps (Stamped started startedAccepted peer) (respondToTerminate host peer m) fun _ => True := by
  refine keeps_read_bind fun g _ => ?_
  split
  · refine keeps_removeInitiated.bind fun _ _ => ?_
    split
    · exact keeps_fail _
    · exact (keeps_call isCall_incrPeerTerminated).bind fun _ _ => keeps_pure trivial
  · cases g.acceptedRoundStates.lookup peer with
    | none => exact keeps_fail _
    | some state =>
        refine keeps_removeAccepted.bind fun _ _ => ?_
        split
        · exact keeps_fail _
        · exact (keeps_call isCall_incrPeerTerminated).bind fun _ _ => keeps_pure trivial

theorem keeps_checkPeerInitiateRate (m : InitiateMessage) :
    Keeps (Stamped started startedAccepted peer) (checkPeerInitiateRate host peer m)
      fun _ => True := by
  have hburst : Keeps (Stamped started startedAccepted peer) (checkBurst host peer) fun _ => True := by
    refine (keeps_call isCall_checkAccept).bind fun ok _ => ?_
    split
    · exact keeps_fail _
    · exact keeps_pure trivial
  refine keeps_read_bind fun g _ => ?_
  cases g.initiatedRoundState with
  | none => exact hburst
  | some initiated =>
      dsimp only
      split
      · split
        · split
          · exact keeps_pure trivial
          · exact keeps_removeInitiated.bind fun _ _ => keeps_pure trivial
        · exact keeps_fail _
      · exact hburst

/-- No message but an initiate can start a round, or start one anew. -/
theorem keeps_respond {msg : GossipMessage} (hopens : msg.opens = 0) :
    Keeps (Stamped started startedAccepted peer) (respond loc host peer msg) fun _ => True := by
  cases msg with
  | initiate m => cases hopens
  | accept m => exact keeps_respondToAccept m
  | noDiff m => exact keeps_respondToNoDiff m
  | discSectorsDiff m => exact keeps_respondToDiscSectorsDiff m
  | discSectorDetailsDiff m => exact keeps_respondToDiscSectorDetailsDiff m
  | discSectorDetailsDiffResponse m => exact keeps_respondToDiscSectorDetailsDiffResponse m
  | ringSectorDetailsDiff m => exact keeps_respondToRingSectorDetailsDiff m
  | ringSectorDetailsDiffResponse m => exact keeps_respondToRingSectorDetailsDiffResponse m
  | hashes m => exact keeps_respondToHashes m
  | agents m =>
      refine keeps_checkInitiated.bind fun _ _ => keeps_removeInitiated.bind fun _ _ => ?_
      exact (keeps_call (isCall_liftK2 _)).bind fun _ _ => keeps_pure trivial
  | busy m =>
      refine keeps_checkInitiated.bind fun _ _ => keeps_removeInitiated.bind fun _ _ => ?_
      refine (keeps_call isCall_incrPeerBusy).bind fun _ _ => ?_
      exact (keeps_call (isCall_setLastGossipTimestamp _)).bind fun _ _ => keeps_pure trivial
  | terminate m => exact keeps_respondToTerminate m

end Handlers

/-! ## Slots -/

/-- The slot of the initiated round, or that of the accepted round of a peer. -/
inductive Slot (Url : Type)
  | initiated
  | accepted (peer : Url)

/-- The round in a slot. -/
def K2Gossip.inSlot (g : K2Gossip Url) : Slot Url → Option (GossipRoundState Url)
  | .initiated => g.initiatedRoundState
  | .accepted peer => g.acceptedRoundStates.lookup peer

/-- A round that is in a slot at `now` was started when it was before, or now in an empty slot. -/
def Continues (now : Nat) (before after : Option (GossipRoundState Url)) : Prop :=
  ∀ state' ∈ after, (∃ state ∈ before, state'.startedAt = state.startedAt) ∨
    before = none ∧ state'.startedAt = now

/-- Every round was started when it was before, or now in an empty slot. -/
def RoundsContinue (now : Nat) (g g' : K2Gossip Url) : Prop :=
  ∀ slot, Continues now (g.inSlot slot) (g'.inSlot slot)

section Continues

variable {now : Nat} {slot : Slot Url}

omit [DecidableEq Url] in
theorem continues_of_eq {before after : Option (GossipRoundState Url)} (h : after = before) :
    Continues now before after := by
  intro state' hstate'
  rw [h] at hstate'
  exact Or.inl ⟨state', hstate', rfl⟩

theorem roundsContinue_of_same (h : SameRounds g g') : RoundsContinue now g g' := by
  intro slot
  cases slot with
  | initiated => exact continues_of_eq h.1
  | accepted peer => exact continues_of_eq (congrArg (fun rounds => rounds.lookup peer) h.2)

/-- A further change that starts nothing. -/
theorem RoundsContinue.then_same (h : RoundsContinue now g g₁) (hsame : SameRounds g₁ g') :
    RoundsContinue now g g' := by
  intro slot
  have hslot := h slot
  cases slot with
  | initiated =>
      unfold K2Gossip.inSlot at hslot ⊢
      rw [hsame.1]
      exact hslot
  | accepted peer =>
      unfold K2Gossip.inSlot at hslot ⊢
      rw [hsame.2]
      exact hslot

/-- What keeps the start times of the rounds with a peer, and leaves the other rounds. -/
theorem roundsContinue_of_keeps {α : Type} {m : GossipM Url α}
    (hkeeps : ∀ started startedAccepted, Keeps (Stamped started startedAccepted peer) m fun _ => True)
    (hothers : ∀ q, q ≠ peer →
      (m g).2.acceptedRoundStates.lookup q = g.acceptedRoundStates.lookup q) :
    RoundsContinue now g (m g).2 := by
  have hstamped : Stamped (fun t => ∃ state ∈ g.initiatedRoundState, t = state.startedAt)
      (fun t => ∃ state ∈ g.acceptedRoundStates.lookup peer, t = state.startedAt) peer g :=
    ⟨fun state hstate => ⟨state, hstate, rfl⟩, fun state hstate => ⟨state, hstate, rfl⟩⟩
  have hafter := (hkeeps _ _ g hstamped).1
  intro slot
  cases slot with
  | initiated => exact fun state' hstate' => Or.inl (hafter.initiated state' hstate')
  | accepted q =>
      by_cases hq : q = peer
      · subst hq
        exact fun state' hstate' => Or.inl (hafter.accepted state' hstate')
      · exact continues_of_eq (hothers q hq)

theorem respond_continues {msg : GossipMessage} (hopens : msg.opens = 0) :
    RoundsContinue now g (respond loc host peer msg g).2 := by
  have hframe := ((respond_outcome msg).of_run (rfl : respond loc host peer msg g = (_, _))).frame
  exact roundsContinue_of_keeps (fun _ _ => keeps_respond hopens) hframe.accepted

theorem checkPeerInitiateRate_continues (m : InitiateMessage) :
    RoundsContinue now g (checkPeerInitiateRate host peer m g).2 := by
  have haccepted : (checkPeerInitiateRate host peer m g).2.acceptedRoundStates =
      g.acceptedRoundStates := ((checkPeerInitiateRate_holding m).of_run rfl).1.accepted
  refine roundsContinue_of_keeps (fun _ _ => keeps_checkPeerInitiateRate m) fun q _ => ?_
  rw [haccepted]

theorem call_continues {α : Type} {m : GossipM Url α} (hm : IsCall peer m) :
    RoundsContinue now g (m g).2 :=
  have hsame := (hm g _ _ rfl).1
  roundsContinue_of_same ⟨hsame.initiated, hsame.accepted⟩

/-- An accepted round starts now, in an empty slot. -/
theorem acceptInitiate_continues (m : InitiateMessage) :
    RoundsContinue host.instant g (acceptInitiate host peer m g).2 := by
  have hframe := ((acceptInitiate_outcome m Holding.self (Or.inl rfl)).of_run
    (rfl : acceptInitiate host peer m g = (_, _))).frame
  have hstopped : ∀ {g₂ : K2Gossip Url},
      Holding peer g g.initiatedRoundState g.acceptedRoundStates g₂ → SameRounds g g₂ :=
    fun h => ⟨h.initiated, h.accepted⟩
  have hend : Ends (acceptInitiate host peer m) g fun _ g' => SameRounds g g' ∨
      g.acceptedRoundStates.lookup peer = none ∧ g'.initiatedRoundState = g.initiatedRoundState ∧
        ∃ state, state.startedAt = host.instant ∧
          g'.acceptedRoundStates.lookup peer = some state := by
    refine ends_call_bind (isCall_setLastGossipTimestamp _) Holding.self
      (fun _ _ h => Or.inl (hstopped h)) ?_
    intro _ g₂ _ hnow
    refine ends_liftK2_bind (fun _ _ => Or.inl (hstopped hnow)) ?_
    intro otherArcSet _
    refine ends_liftK2_bind (fun _ _ => Or.inl (hstopped hnow)) ?_
    rintro ⟨ourAgents, ourArcSet⟩ _
    refine ends_createAcceptState_bind (fun _ => Or.inl (hstopped hnow)) ?_
    intro state hnone hstate
    rw [hnow.accepted] at hnone
    have hstarted : state.startedAt = host.instant := congrArg GossipRoundState.startedAt hstate
    -- from here on the round is there, also when a later call fails
    have hnow := hnow.insertAccepted state
    have hthere : ∀ {g₃ : K2Gossip Url}, Holding peer g g.initiatedRoundState
        (g.acceptedRoundStates.insert peer state) g₃ →
        SameRounds g g₃ ∨ g.acceptedRoundStates.lookup peer = none ∧
          g₃.initiatedRoundState = g.initiatedRoundState ∧
          ∃ state, state.startedAt = host.instant ∧
            g₃.acceptedRoundStates.lookup peer = some state := by
      intro g₃ h
      refine Or.inr ⟨hnone, h.initiated, state, hstarted, ?_⟩
      rw [h.accepted, AList.lookup_insert]
    refine ends_liftK2_bind (fun _ _ => hthere hnow) ?_
    intro snapshot _
    refine ends_liftK2_bind (fun _ _ => hthere hnow) ?_
    intro missingAgents _
    refine ends_call_bind (isCall_getRequestNewSince _) hnow (fun _ _ h => hthere h) ?_
    intro newSince g₃ _ hnow
    refine ends_liftK2_bind (fun _ _ => hthere hnow) ?_
    rintro ⟨newOps, usedBytes, newBookmark⟩ _
    dsimp only
    rw [ends_writeAccepted_bind_iff, ends_read_bind_iff]
    refine Or.inr ⟨hnone, hnow.initiated, state.spend usedBytes, hstarted, ?_⟩
    exact AList.lookup_insert _
  have hend := hend.of_run (rfl : acceptInitiate host peer m g = (_, _))
  rcases hend with hsame | ⟨hnone, hinitiated, state, hstarted, hlookup⟩
  · exact roundsContinue_of_same hsame
  intro slot
  cases slot with
  | initiated => exact continues_of_eq hinitiated
  | accepted q =>
      by_cases hq : q = peer
      · subst hq
        intro state' hstate'
        cases hlookup.symm.trans hstate'
        exact Or.inr ⟨hnone, hstarted⟩
      · exact continues_of_eq (hframe.accepted q hq)

end Continues

/-! ## A step of a node -/

section Step

variable {now : Nat} {recorded : Bool}

theorem next_continues {α : Type} {part : GossipM Url α} {goesOn : α → K2Gossip Url → Task Url}
    (h : RoundsContinue now g (part g).2) :
    RoundsContinue now g (Task.next recorded peer g part goesOn).2 := by
  rcases hpart : part g with ⟨r, g'⟩
  rw [hpart] at h
  cases r with
  | ok a =>
      rw [Task.next_ok hpart]
      exact h
  | error e =>
      rw [Task.next_error hpart]
      exact h.then_same (recordError_rounds recorded e)

theorem advance_continues (t : Task Url) :
    RoundsContinue host.instant g (t.advance loc host recorded g).2 := by
  cases t with
  | received peer msg =>
      cases hopens : msg.opens with
      | zero =>
          rw [Task.advance_received hopens]
          exact next_continues (respond_continues hopens)
      | succ n =>
          cases msg with
          | initiate m => exact next_continues (checkPeerInitiateRate_continues m)
          | _ => cases hopens
  | rated peer m => exact next_continues (call_continues (refuseIfBusy_isCall m))
  | admitted peer m => exact next_continues (acceptInitiate_continues m)
  | answered peer res finished =>
      have hcall : IsCall peer (sendAnswer host res) := isCall_sendAnswer
      exact next_continues (call_continues hcall)
  | counting peer =>
      have hcall : IsCall peer (liftK2 (host.call .incrCompletedRounds)) := isCall_liftK2 _
      exact next_continues (call_continues hcall)
  | writing peer seen =>
      refine next_continues ?_
      cases hcall : host.call .incrCompletedRounds with
      | ok u =>
          rw [putMeta_ok hcall]
          exact roundsContinue_of_same ⟨rfl, rfl⟩
      | error fault =>
          rw [putMeta_error hcall]
          exact roundsContinue_of_same ⟨rfl, rfl⟩
  | done => exact roundsContinue_of_same ⟨rfl, rfl⟩

theorem initiateGossip_continues (sessionId : Bytes) (tieBreaker : Nat) (target : Url) :
    RoundsContinue host.instant g (initiateGossip host sessionId tieBreaker target g).2 := by
  have haccepted : (initiateGossip host sessionId tieBreaker target g).2.acceptedRoundStates =
      g.acceptedRoundStates := (initiateGossip_holding.of_run rfl).accepted
  have hend : Ends (initiateGossip host sessionId tieBreaker target) g fun _ g' =>
      Continues host.instant g.initiatedRoundState g'.initiatedRoundState := by
    unfold initiateGossip
    rw [ends_read_bind_iff]
    split
    · exact continues_of_eq rfl
    rename_i hidle
    -- a slot is filled only while it is empty, and with the time of now
    have hnone : g.initiatedRoundState = none := by
      rw [Option.isSome_iff_ne_none, not_not] at hidle
      exact hidle
    refine ends_liftK2_bind (fun _ _ => continues_of_eq rfl) ?_
    rintro ⟨ourAgents, ourArcSet⟩ _
    have hnow : Holding target g g.initiatedRoundState g.acceptedRoundStates g := Holding.self
    refine ends_call_bind (isCall_getRequestNewSince _) hnow
      (fun _ _ h => continues_of_eq h.initiated) ?_
    intro newSince g₁ _ hnow
    dsimp only
    split
    · exact continues_of_eq hnow.initiated
    refine ends_call_bind (isCall_setLastGossipTimestamp _) hnow
      (fun _ _ h => continues_of_eq h.initiated) ?_
    intro _ g₂ _ hnow
    refine ends_liftK2_bind (fun _ _ => continues_of_eq hnow.initiated) ?_
    intro _ _ state' hstate'
    cases hstate'
    exact Or.inr ⟨hnone, rfl⟩
  intro slot
  cases slot with
  | initiated => exact hend
  | accepted q => exact continues_of_eq (congrArg (fun rounds => rounds.lookup q) haccepted)

theorem incrPeerTimeout_same (host : Host) (q : Url) (g : K2Gossip Url) :
    SameRounds g (incrPeerTimeout host q g) ∧ (incrPeerTimeout host q g).config = g.config := by
  unfold incrPeerTimeout
  split
  · exact ⟨⟨rfl, rfl⟩, rfl⟩
  · exact ⟨⟨rfl, rfl⟩, rfl⟩

theorem foldl_incrPeerTimeout_same (urls : List Url) :
    ∀ g : K2Gossip Url,
      (urls.foldl (fun g url => incrPeerTimeout host url g) g).initiatedRoundState =
        g.initiatedRoundState := by
  induction urls with
  | nil =>
      intro g
      rfl
  | cons url urls ih =>
      intro g
      exact (ih _).trans (incrPeerTimeout_same host url _).1.1

/-- The rounds that a sweep leaves. -/
theorem removeTimedOutRounds_left (host : Host) (locked : Url → Bool) (g : K2Gossip Url) :
    (removeTimedOutRounds host locked g).initiatedRoundState =
        g.initiatedRoundState.filter (fun state => !timedOut host g.config state) ∧
      (removeTimedOutRounds host locked g).acceptedRoundStates =
        retain (fun url state => locked url || !timedOut host g.config state)
          g.acceptedRoundStates := by
  unfold removeTimedOutRounds
  cases hinit : g.initiatedRoundState with
  | none => exact ⟨(foldl_incrPeerTimeout_same _ g).trans hinit, rfl⟩
  | some state =>
      dsimp only
      rcases incrPeerTimeout_same host state.sessionWithPeer g with ⟨hsame, hconfig⟩
      split
      · rename_i htimedOut
        refine ⟨?_, ?_⟩
        · refine (foldl_incrPeerTimeout_same _ _).trans ?_
          simp [Option.filter, htimedOut, K2Gossip.setInitiated]
        · show retain (fun url st => locked url || !timedOut host
              (incrPeerTimeout host state.sessionWithPeer g).config st)
            (incrPeerTimeout host state.sessionWithPeer g).acceptedRoundStates = _
          rw [hsame.2, hconfig]
      · rename_i htimedOut
        refine ⟨?_, rfl⟩
        refine (foldl_incrPeerTimeout_same _ _).trans ?_
        simp [Option.filter, htimedOut, hinit]

theorem removeTimedOutRounds_continues (locked : Url → Bool) :
    RoundsContinue now g (removeTimedOutRounds host locked g) := by
  rcases removeTimedOutRounds_left host locked g with ⟨hinitiated, haccepted⟩
  intro slot state' hstate'
  refine Or.inl ⟨state', ?_, rfl⟩
  cases slot with
  | initiated =>
      have hleft : (removeTimedOutRounds host locked g).initiatedRoundState = some state' := hstate'
      rw [hinitiated] at hleft
      exact (Option.filter_eq_some_iff.mp hleft).1
  | accepted q =>
      have hleft : (removeTimedOutRounds host locked g).acceptedRoundStates.lookup q = some state' :=
        hstate'
      rw [haccepted] at hleft
      exact (lookup_retain_eq_some_iff.mp hleft).1

/-- The instant at which an event happens, if it reads the clock. -/
def Event.instant (clock : Nat) : Event Url → Nat
  | .receive _ _ => clock
  | .advance _ host _ => host.instant
  | .initiate host _ _ _ => host.instant
  | .timeout host _ => host.instant

theorem step_continues (s : Running Url) (e : Event Url) (clock : Nat) :
    RoundsContinue (e.instant clock) s.g (s.step loc e).g := by
  cases e with
  | receive peer msg => exact roundsContinue_of_same ⟨rfl, rfl⟩
  | advance i host recorded =>
      unfold Running.step
      dsimp only
      split
      · exact roundsContinue_of_same ⟨rfl, rfl⟩
      · exact advance_continues _
  | initiate host sessionId tieBreaker target => exact initiateGossip_continues _ _ _
  | timeout host locked => exact removeTimedOutRounds_continues locked

theorem step_config (s : Running Url) (e : Event Url) : (s.step loc e).g.config = s.g.config := by
  cases e with
  | receive peer msg => rfl
  | advance i host recorded =>
      unfold Running.step
      dsimp only
      split
      · rfl
      · exact (advance_size _).1
  | initiate host sessionId tieBreaker target => exact (initiateGossip_holding.of_run rfl).config
  | timeout host locked => exact (removeTimedOutRounds_within locked).config

end Step

end Gossip
end Kitsune2
