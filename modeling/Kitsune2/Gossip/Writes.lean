import Kitsune2.Gossip.Calls

/-!
# Writes — what a handler can do to its node

A handler changes its node by a few kinds of writes only, whatever it is given and however it ends:
on its rounds, on the values kept for the peer that it talks to, and on what is requested from that
peer.  What every such write keeps, a handler keeps.
-/

namespace Kitsune2
namespace Gossip

open Api Lib Dht

variable {Url : Type} [DecidableEq Url] {loc : LocCb} {host : Host} {peer : Url}
  {g g' : K2Gossip Url}

/-- A single write of a handler of a message from `peer`. -/
inductive Wrote (host : Host) (peer : Url) : K2Gossip Url → K2Gossip Url → Prop
  | initiated {g : K2Gossip Url} (state : Option (GossipRoundState Url)) :
      Wrote host peer g (g.setInitiated state)
  | accepted {g : K2Gossip Url} (rounds : AcceptedRounds Url) :
      Wrote host peer g (g.setAccepted rounds)
  | gossiped {g : K2Gossip Url} :
      Wrote host peer g
        (g.setMeta peer fun m => { m with lastGossipTimestamp := some host.now })
  | values {g : K2Gossip Url} {f : PeerMeta → PeerMeta}
      (hf : ∀ m, (f m).lastGossipTimestamp = m.lastGossipTimestamp) :
      Wrote host peer g (g.setMeta peer f)
  | burst {g : K2Gossip Url} (times : List Int) :
      Wrote host peer g { g with burst := Function.update g.burst peer times }
  | requested {g : K2Gossip Url} (opIds : List Bytes) :
      Wrote host peer g { g with requestedOps := g.requestedOps ++ [(peer, opIds)] }

/-! ## The calls -/

section Calls

variable {α : Type}

theorem makes_liftK2 (x : Except Fault α) : Makes (Wrote host peer) (liftK2 x : GossipM Url α) :=
  makes_lift _

theorem makes_putMeta {c : HostCall} {f : PeerMeta → PeerMeta}
    (hf : ∀ m, (f m).lastGossipTimestamp = m.lastGossipTimestamp) :
    Makes (Wrote host peer) (putMeta host c peer f) :=
  (makes_liftK2 _).bind fun _ => makes_modify fun _ => .values hf

theorem makes_setLastGossipTimestamp :
    Makes (Wrote host peer) (setLastGossipTimestamp host peer host.now) :=
  (makes_liftK2 _).bind fun _ => makes_modify fun _ => .gossiped

theorem makes_incrPeerBusy : Makes (Wrote host peer) (incrPeerBusy host peer) :=
  makes_putMeta fun _ => rfl

theorem makes_incrPeerTerminated : Makes (Wrote host peer) (incrPeerTerminated host peer) :=
  makes_putMeta fun _ => rfl

theorem makes_incrCompletedRounds : Makes (Wrote host peer) (incrCompletedRounds host peer) :=
  makes_putMeta fun _ => rfl

theorem makes_recordDhtOpCount (count : Option Nat) :
    Makes (Wrote host peer) (recordDhtOpCount host peer count) := by
  cases count with
  | none => exact makes_pure _
  | some n => exact makes_putMeta fun _ => rfl

theorem makes_newOpsBookmark : Makes (Wrote host peer) (newOpsBookmark host peer) :=
  (makes_liftK2 _).bind fun _ => makes_read_bind fun _ => makes_pure _

theorem makes_getRequestNewSince : Makes (Wrote host peer) (getRequestNewSince host peer) :=
  makes_newOpsBookmark.bind fun _ => makes_pure _

theorem makes_updateNewOpsBookmark (bookmark : Int) :
    Makes (Wrote host peer) (updateNewOpsBookmark host peer bookmark) := by
  refine makes_newOpsBookmark.bind fun previous => ?_
  split
  · exact makes_putMeta fun _ => rfl
  · exact makes_pure _

theorem makes_checkAccept : Makes (Wrote host peer) (checkAccept host peer) := by
  refine makes_read_bind fun g => ?_
  dsimp only
  split
  · exact (makes_modify fun _ => .burst _).bind fun _ => makes_pure _
  · exact (makes_modify fun _ => .burst _).bind fun _ => makes_pure _

theorem makes_requestOps (opIds : List Bytes) : Makes (Wrote host peer) (requestOps host opIds peer) :=
  (makes_liftK2 _).bind fun _ => makes_modify fun _ => .requested opIds

theorem makes_updateStorageArcs (nextAction : DhtSnapshotNextAction) :
    Makes (Wrote host peer) (updateStorageArcs host nextAction : GossipM Url Unit) := by
  unfold updateStorageArcs
  split
  · exact makes_pure _
  · exact makes_liftK2 _

theorem makes_handleAcceptResponse (response : AcceptResponseMessage) :
    Makes (Wrote host peer) (handleAcceptResponse host peer response) := by
  refine (makes_liftK2 _).bind fun _ => ?_
  refine (makes_updateNewOpsBookmark _).bind fun _ => ?_
  refine (makes_requestOps _).bind fun _ => ?_
  split
  · exact makes_pure _
  · exact makes_pure _

theorem makes_writeInitiated (state : GossipRoundState Url) :
    Makes (Wrote host peer) (writeInitiated state) :=
  makes_modify fun _ => .initiated _

theorem makes_removeInitiated : Makes (Wrote host peer) (removeInitiated : GossipM Url Unit) :=
  makes_modify fun _ => .initiated _

theorem makes_writeAccepted (state : GossipRoundState Url) :
    Makes (Wrote host peer) (writeAccepted peer state) :=
  makes_modify fun _ => .accepted _

theorem makes_removeAccepted : Makes (Wrote host peer) (removeAccepted peer) :=
  makes_modify fun _ => .accepted _

theorem makes_blame (ctx : PeerBehavior) : Makes (Wrote host peer) (blame ctx : GossipM Url α) :=
  makes_fail _

theorem makes_checkInitiated {kind : MessageKind}
    (validate : GossipRoundState Url → Except K2GossipError α) :
    Makes (Wrote host peer) (checkInitiated kind validate) := by
  refine makes_read_bind fun g => ?_
  cases g.initiatedRoundState with
  | none => exact makes_blame _
  | some state => exact (makes_lift _).bind fun _ => makes_pure _

theorem makes_checkAccepted {kind : MessageKind}
    (validate : GossipRoundState Url → Except K2GossipError α) :
    Makes (Wrote host peer) (checkAccepted kind peer validate) := by
  refine makes_read_bind fun g => ?_
  cases g.acceptedRoundStates.lookup peer with
  | none => exact makes_blame _
  | some state => exact (makes_lift _).bind fun _ => makes_pure _

end Calls

/-! ## The handlers -/

section Handlers

theorem makes_checkPeerInitiateRate (m : InitiateMessage) :
    Makes (Wrote host peer) (checkPeerInitiateRate host peer m) := by
  have hburst : Makes (Wrote host peer) (checkBurst host peer) := by
    refine makes_checkAccept.bind fun ok => ?_
    split
    · exact makes_blame _
    · exact makes_pure _
  refine makes_read_bind fun g => ?_
  cases g.initiatedRoundState with
  | none => exact hburst
  | some initiated =>
      dsimp only
      split
      · split
        · split
          · exact makes_pure _
          · exact makes_removeInitiated.bind fun _ => makes_pure _
        · exact makes_blame _
      · exact hburst

theorem makes_refuseIfBusy (m : InitiateMessage) :
    Makes (Wrote host peer) (refuseIfBusy host peer m) := by
  refine (makes_recordDhtOpCount _).bind fun _ => makes_read_bind fun g => ?_
  split
  · exact makes_pure _
  · exact makes_pure _

/-- An accepted initiate is recorded before anything else is written. -/
theorem acceptInitiate_steps (m : InitiateMessage) (g : K2Gossip Url) :
    (acceptInitiate host peer m g).2 = g ∨
      Relation.ReflTransGen (Wrote host peer)
        (g.setMeta peer fun m => { m with lastGossipTimestamp := some host.now })
        (acceptInitiate host peer m g).2 := by
  cases hcall : host.call .setLastGossipTimestamp with
  | error fault =>
      have hset : setLastGossipTimestamp host peer host.now g = (.error (.k2 fault), g) :=
        putMeta_error hcall
      refine Or.inl ?_
      unfold acceptInitiate
      rw [bind_run_error hset]
  | ok u =>
      have hset : Returns (setLastGossipTimestamp host peer host.now) g ()
          (g.setMeta peer fun m => { m with lastGossipTimestamp := some host.now }) := putMeta_ok hcall
      refine Or.inr ?_
      unfold acceptInitiate
      rw [hset.bind_run]
      refine Makes.bind (makes_liftK2 _) (fun _ => ?_) _
      refine (makes_liftK2 _).bind fun agents => Makes.bind ?_ fun state => ?_
      · refine makes_read_bind fun g => ?_
        cases g.acceptedRoundStates.lookup peer with
        | some state => exact makes_liftK2 _
        | none => exact (makes_writeAccepted _).bind fun _ => makes_pure _
      refine (makes_liftK2 _).bind fun _ => (makes_liftK2 _).bind fun _ => ?_
      -- what follows writes as single steps do
      refine makes_getRequestNewSince.bind fun _ => (makes_liftK2 _).bind fun newOps => ?_
      exact (makes_writeAccepted _).bind fun _ => makes_read_bind fun _ => makes_pure _

theorem makes_acceptInitiate (m : InitiateMessage) :
    Makes (Wrote host peer) (acceptInitiate host peer m) := by
  intro g
  rcases acceptInitiate_steps m g with hsame | hsteps
  · rw [hsame]
  · exact Relation.ReflTransGen.head .gossiped hsteps

theorem makes_respondToInitiate (m : InitiateMessage) :
    Makes (Wrote host peer) (respondToInitiate host peer m) := by
  refine (makes_checkPeerInitiateRate m).bind fun ok => ?_
  split
  · exact makes_pure _
  refine (makes_refuseIfBusy m).bind fun busy => ?_
  cases busy with
  | some busy => exact makes_pure _
  | none => exact makes_acceptInitiate m

theorem makes_answerMinimalSnapshot (m : AcceptMessage) (response : AcceptResponseMessage)
    (commonArcSet : ArcSet) (state : GossipRoundState Url) (nextAction : DhtSnapshotNextAction) :
    Makes (Wrote host peer) (answerMinimalSnapshot host m response commonArcSet state nextAction) := by
  cases nextAction with
  | identical =>
      exact (makes_writeInitiated _).bind fun _ => (makes_updateStorageArcs _).bind fun _ => makes_pure _
  | cannotCompare => exact (makes_writeInitiated _).bind fun _ => makes_pure _
  | newSnapshot s =>
      cases s with
      | discSectors hashes boundary =>
          exact (makes_writeInitiated _).bind fun _ => (makes_liftK2 _).bind fun _ => makes_pure _
      | ringSectorDetails hashes boundary =>
          exact (makes_writeInitiated _).bind fun _ => (makes_liftK2 _).bind fun _ => makes_pure _
      | _ => exact makes_removeInitiated.bind fun _ => makes_pure _
  | _ => exact makes_removeInitiated.bind fun _ => makes_pure _

theorem makes_respondToAccept (m : AcceptMessage) :
    Makes (Wrote host peer) (respondToAccept loc host peer m) := by
  refine (makes_checkInitiated _).bind fun out => Makes.bind ?_ fun commonArcSet => ?_
  · unfold getCommonArcSet
    cases m.arcSet with
    | none => exact makes_blame _
    | some value => exact (makes_liftK2 _).bind fun _ => makes_pure _
  refine (makes_liftK2 _).bind fun _ => (makes_updateNewOpsBookmark _).bind fun _ => ?_
  refine (makes_recordDhtOpCount _).bind fun _ => (makes_requestOps _).bind fun _ => ?_
  refine (makes_liftK2 _).bind fun newOps => makes_read_bind fun g => ?_
  refine (makes_writeInitiated _).bind fun _ => ?_
  cases m.snapshot with
  | none => exact (makes_writeInitiated _).bind fun _ => makes_pure _
  | some theirSnapshot =>
      exact (makes_liftK2 _).bind fun answer => makes_answerMinimalSnapshot _ _ _ _ _

theorem makes_respondToNoDiff (m : NoDiffMessage) :
    Makes (Wrote host peer) (respondToNoDiff host peer m) := by
  refine (makes_checkAccepted _).bind fun out => makes_removeAccepted.bind fun _ => ?_
  refine (makes_handleAcceptResponse _).bind fun sendAgents => ?_
  split
  · exact makes_pure _
  · exact makes_pure _

theorem makes_respondToDiscSectorsDiff (m : DiscSectorsDiffMessage) :
    Makes (Wrote host peer) (respondToDiscSectorsDiff loc host peer m) := by
  refine (makes_checkAccepted _).bind fun out => (makes_handleAcceptResponse _).bind fun sendAgents => ?_
  refine (makes_liftK2 _).bind fun _ => (makes_liftK2 _).bind fun answer => ?_
  rcases answer with ⟨nextAction, used⟩
  cases nextAction with
  | newSnapshot s =>
      exact (makes_writeAccepted _).bind fun _ => (makes_liftK2 _).bind fun _ => makes_pure _
  | newSnapshotAndHashList s opIds => exact makes_removeAccepted.bind fun _ => makes_pure _
  | hashList opIds => exact makes_removeAccepted.bind fun _ => makes_pure _
  | _ =>
      refine makes_removeAccepted.bind fun _ => ?_
      cases sendAgents with
      | none => exact makes_pure _
      | some sendAgents => exact makes_pure _

theorem makes_respondToDiscSectorDetailsDiff (m : DiscSectorDetailsDiffMessage) :
    Makes (Wrote host peer) (respondToDiscSectorDetailsDiff loc host peer m) := by
  refine (makes_checkInitiated _).bind fun out => (makes_liftK2 _).bind fun _ => ?_
  refine (makes_liftK2 _).bind fun answer => (makes_writeInitiated _).bind fun _ => ?_
  rcases answer with ⟨nextAction, used⟩
  cases nextAction with
  | newSnapshotAndHashList s opIds =>
      exact (makes_writeInitiated _).bind fun _ => (makes_liftK2 _).bind fun _ => makes_pure _
  | _ => exact makes_removeInitiated.bind fun _ => makes_pure _

theorem makes_respondToDiscSectorDetailsDiffResponse (m : DiscSectorDetailsDiffResponseMessage) :
    Makes (Wrote host peer) (respondToDiscSectorDetailsDiffResponse loc host peer m) := by
  refine (makes_checkAccepted _).bind fun out => (makes_requestOps _).bind fun _ => ?_
  refine (makes_liftK2 _).bind fun _ => (makes_liftK2 _).bind fun answer => ?_
  refine (makes_writeAccepted _).bind fun _ => makes_removeAccepted.bind fun _ => ?_
  rcases answer with ⟨nextAction, used⟩
  cases nextAction with
  | _ => exact makes_pure _

theorem makes_respondToRingSectorDetailsDiff (m : RingSectorDetailsDiffMessage) :
    Makes (Wrote host peer) (respondToRingSectorDetailsDiff loc host peer m) := by
  refine (makes_checkAccepted _).bind fun out => (makes_handleAcceptResponse _).bind fun _ => ?_
  refine (makes_liftK2 _).bind fun _ => (makes_liftK2 _).bind fun answer => ?_
  refine (makes_writeAccepted _).bind fun _ => (makes_updateStorageArcs _).bind fun _ => ?_
  rcases answer with ⟨nextAction, used⟩
  cases nextAction with
  | newSnapshotAndHashList s opIds =>
      exact (makes_writeAccepted _).bind fun _ => (makes_liftK2 _).bind fun _ => makes_pure _
  | newSnapshot s => exact makes_removeAccepted.bind fun _ => makes_pure _
  | hashList opIds => exact makes_removeAccepted.bind fun _ => makes_pure _
  | _ =>
      refine makes_removeAccepted.bind fun _ => ?_
      cases loadAgentInfos host out.2.2.1.missingAgents with
      | nil => exact makes_pure _
      | cons agent agents => exact makes_pure _

theorem makes_respondToRingSectorDetailsDiffResponse (m : RingSectorDetailsDiffResponseMessage) :
    Makes (Wrote host peer) (respondToRingSectorDetailsDiffResponse loc host peer m) := by
  refine (makes_checkInitiated _).bind fun out => (makes_requestOps _).bind fun _ => ?_
  refine (makes_liftK2 _).bind fun _ => (makes_liftK2 _).bind fun answer => ?_
  refine (makes_writeInitiated _).bind fun _ => (makes_updateStorageArcs _).bind fun _ => ?_
  refine makes_removeInitiated.bind fun _ => ?_
  rcases answer with ⟨nextAction, used⟩
  cases nextAction with
  | _ => exact makes_pure _

theorem makes_respondToHashes (m : HashesMessage) :
    Makes (Wrote host peer) (respondToHashes host peer m) := by
  refine makes_read_bind fun g => ?_
  split
  · exact makes_removeInitiated.bind fun _ => (makes_requestOps _).bind fun _ => makes_pure _
  split
  · exact makes_removeAccepted.bind fun _ => (makes_requestOps _).bind fun _ => makes_pure _
  · exact makes_blame _

theorem makes_respondToTerminate (m : TerminateMessage) :
    Makes (Wrote host peer) (respondToTerminate host peer m) := by
  refine makes_read_bind fun g => ?_
  split
  · refine makes_removeInitiated.bind fun _ => ?_
    split
    · exact makes_blame _
    · exact makes_incrPeerTerminated.bind fun _ => makes_pure _
  · cases g.acceptedRoundStates.lookup peer with
    | none => exact makes_blame _
    | some state =>
        refine makes_removeAccepted.bind fun _ => ?_
        split
        · exact makes_blame _
        · exact makes_incrPeerTerminated.bind fun _ => makes_pure _

/-- Every handler makes only such writes. -/
theorem makes_respond (msg : GossipMessage) :
    Makes (Wrote host peer) (respond loc host peer msg) := by
  cases msg with
  | initiate m => exact makes_respondToInitiate m
  | accept m => exact makes_respondToAccept m
  | noDiff m => exact makes_respondToNoDiff m
  | discSectorsDiff m => exact makes_respondToDiscSectorsDiff m
  | discSectorDetailsDiff m => exact makes_respondToDiscSectorDetailsDiff m
  | discSectorDetailsDiffResponse m => exact makes_respondToDiscSectorDetailsDiffResponse m
  | ringSectorDetailsDiff m => exact makes_respondToRingSectorDetailsDiff m
  | ringSectorDetailsDiffResponse m => exact makes_respondToRingSectorDetailsDiffResponse m
  | hashes m => exact makes_respondToHashes m
  | agents m =>
      refine (makes_checkInitiated _).bind fun _ => makes_removeInitiated.bind fun _ => ?_
      exact (makes_liftK2 _).bind fun _ => makes_pure _
  | busy m =>
      refine (makes_checkInitiated _).bind fun _ => makes_removeInitiated.bind fun _ => ?_
      refine makes_incrPeerBusy.bind fun _ => ?_
      exact makes_setLastGossipTimestamp.bind fun _ => makes_pure _
  | terminate m => exact makes_respondToTerminate m

theorem recordError_writes (recorded : Bool) (e : K2GossipError) :
    Relation.ReflTransGen (Wrote host peer) g (g.recordError recorded peer e) := by
  unfold K2Gossip.recordError
  split
  · exact .refl
  cases e with
  | peerBehavior ctx => exact .single (.values fun _ => rfl)
  | k2 fault => exact .single (.values fun _ => rfl)

theorem makes_sendAnswer (res : Option GossipMessage) :
    Makes (Wrote host peer) (sendAnswer host res : GossipM Url Unit) := by
  unfold sendAnswer
  split
  · exact makes_liftK2 _
  · exact makes_pure _

/-- Once its handler has returned or failed, a message only counts. -/
theorem handleGossipMessage_after {g₁ : K2Gossip Url} {msg : GossipMessage}
    {r : Except K2GossipError (Option GossipMessage)} (h : respond loc host peer msg g = (r, g₁))
    (recorded : Bool) :
    Relation.ReflTransGen (Wrote host peer) g₁
      (handleGossipMessage loc host recorded peer msg g).1 := by
  cases r with
  | error e =>
      have hrun : respondToMsg loc host peer msg g = (.error e, g₁) := bind_run_error h _
      unfold handleGossipMessage
      rw [hrun]
      exact recordError_writes recorded e
  | ok res =>
      -- the answer is sent, and the round is counted if it is completed
      have hcounts : Makes (Wrote host peer) (sendAnswer host res >>= fun _ =>
          countIfFinal host peer res >>= fun _ => pure res) := by
        refine (makes_sendAnswer res).bind fun _ => Makes.bind ?_ fun _ => makes_pure _
        unfold countIfFinal
        split
        · exact makes_incrCompletedRounds
        · exact makes_pure _
      have hrun : respondToMsg loc host peer msg g = (sendAnswer host res >>= fun _ =>
          countIfFinal host peer res >>= fun _ => pure res) g₁ := Returns.bind_run h _
      have hwrites := hcounts g₁
      unfold handleGossipMessage
      rw [hrun]
      generalize (sendAnswer host res >>= fun _ => countIfFinal host peer res >>= fun _ => pure res) g₁
        = out at hwrites
      rcases out with ⟨r, g₂⟩
      cases r with
      | ok sent => exact hwrites
      | error e => exact hwrites.trans (recordError_writes recorded e)

/-- All that handling a message does. -/
theorem handleGossipMessage_writes (recorded : Bool) (msg : GossipMessage) (g : K2Gossip Url) :
    Relation.ReflTransGen (Wrote host peer) g
      (handleGossipMessage loc host recorded peer msg g).1 := by
  rcases hrun : respond loc host peer msg g with ⟨r, g₁⟩
  exact ((makes_respond msg).of_run hrun).trans (handleGossipMessage_after hrun recorded)

/-- Initiating writes like the handler of a message from the target. -/
theorem makes_initiateGossip (sessionId : Bytes) (tieBreaker : Nat) :
    Makes (Wrote host peer) (initiateGossip host sessionId tieBreaker peer) := by
  refine makes_read_bind fun g => ?_
  split
  · exact makes_pure _
  refine (makes_liftK2 _).bind fun agents => makes_getRequestNewSince.bind fun newSince => ?_
  dsimp only
  split
  · exact makes_pure _
  refine makes_setLastGossipTimestamp.bind fun _ => (makes_liftK2 _).bind fun _ => ?_
  exact (makes_writeInitiated _).bind fun _ => makes_pure _

end Handlers

/-! ## Requests -/

/-- The op has been requested from the peer. -/
def K2Gossip.Requested (g : K2Gossip Url) (peer : Url) (opId : Bytes) : Prop :=
  ∃ opIds, (peer, opIds) ∈ g.requestedOps ∧ opId ∈ opIds

omit [DecidableEq Url] in
theorem K2Gossip.Requested.of_subset {opId : Bytes} (h : g.Requested peer opId)
    (hsub : g.requestedOps ⊆ g'.requestedOps) : g'.Requested peer opId := by
  rcases h with ⟨opIds, hmem, hid⟩
  exact ⟨opIds, hsub hmem, hid⟩

/-- No request is ever taken back. -/
theorem requestedOps_subset (h : Relation.ReflTransGen (Wrote host peer) g g') :
    g.requestedOps ⊆ g'.requestedOps := by
  induction h with
  | refl => exact List.Subset.refl _
  | tail _ hwrote ih =>
      refine List.Subset.trans ih ?_
      cases hwrote with
      | requested opIds => exact List.subset_append_left _ _
      | _ => exact List.Subset.refl _

end Gossip
end Kitsune2
