import Kitsune2.Dht.Turns
import Kitsune2.Gossip.Charges
import Kitsune2.Gossip.RoundClosure
import Kitsune2.Gossip.Writes

/-!
# Answers — what a handler that returns has done

A handler that compares snapshots and returns has asked its DHT, and its answer, the stage it leaves
and its requests follow from what the DHT has answered.
-/

namespace Kitsune2
namespace Gossip

open Api Lib Dht

variable {Url : Type} {loc : LocCb} {host : Host} {peer : Url}
  {g g' : K2Gossip Url} {answer : Option GossipMessage} {state : GossipRoundState Url}
  {arcSet : ArcSet} {theirs : DhtSnapshot}

/-! ## Parts of a handler -/

section Parts

variable {α β : Type} {kind : MessageKind} {validate : GossipRoundState Url → Except K2GossipError α}
  {out : GossipRoundState Url × α}

theorem returns_liftK2_bind_iff {x : Except Fault α} {f : α → GossipM Url β} {b : β} :
    Returns (liftK2 x >>= f) g b g' ↔ ∃ a, x = .ok a ∧ Returns (f a) g b g' := by
  cases x with
  | error fault =>
      constructor
      · intro h
        cases h
      · rintro ⟨a, ha, -⟩
        cases ha
  | ok a =>
      constructor
      · intro h
        exact ⟨a, rfl, h⟩
      · rintro ⟨_, ha, h⟩
        cases ha
        exact h

theorem returns_checkSlot {slot : Option (GossipRoundState Url)}
    (h : checkSlot kind slot validate = .ok out) :
    slot = some out.1 ∧ validate out.1 = .ok out.2 := by
  unfold checkSlot at h
  cases slot with
  | none => cases h
  | some state =>
      dsimp only at h
      cases hvalid : validate state with
      | error e =>
          rw [hvalid] at h
          cases h
      | ok checked =>
          rw [hvalid] at h
          cases h
          exact ⟨rfl, hvalid⟩

variable [DecidableEq Url]

/-- A message that has passed the check of the initiated round. -/
theorem returns_checkInitiated_bind {f : GossipRoundState Url × α → GossipM Url β} {b : β}
    (h : Returns (checkInitiated kind validate >>= f) g b g')
    (hslot : g.initiatedWith peer = some state) :
    ∃ checked, validate state = .ok checked ∧ Returns (f (state, checked)) g b g' := by
  rcases returns_bind_iff.mp h with ⟨⟨state', checked⟩, g₁, hcheck, hrest⟩
  have hrun : (checkSlot kind g.initiatedRoundState validate, g) = (.ok (state', checked), g₁) :=
    (checkInitiated_run validate).symm.trans hcheck
  rcases Prod.mk.inj hrun with ⟨hchecked, rfl⟩
  rcases returns_checkSlot hchecked with ⟨hstate, hvalid⟩
  rw [(initiatedWith_eq_some_iff.mp hslot).1] at hstate
  cases hstate
  exact ⟨checked, hvalid, hrest⟩

/-- A message that has passed the check of the accepted round. -/
theorem returns_checkAccepted_bind {f : GossipRoundState Url × α → GossipM Url β} {b : β}
    (h : Returns (checkAccepted kind peer validate >>= f) g b g')
    (hslot : g.acceptedRoundStates.lookup peer = some state) :
    ∃ checked, validate state = .ok checked ∧ Returns (f (state, checked)) g b g' := by
  rcases returns_bind_iff.mp h with ⟨⟨state', checked⟩, g₁, hcheck, hrest⟩
  have hrun : (checkSlot kind (g.acceptedRoundStates.lookup peer) validate, g) =
      (.ok (state', checked), g₁) := (checkAccepted_run validate).symm.trans hcheck
  rcases Prod.mk.inj hrun with ⟨hchecked, rfl⟩
  rcases returns_checkSlot hchecked with ⟨hstate, hvalid⟩
  rw [hslot] at hstate
  cases hstate
  exact ⟨checked, hvalid, hrest⟩

omit [DecidableEq Url] in
/-- A call in front of the rest of a handler that returns. -/
theorem returns_call_bind {m : GossipM Url α} {f : α → GossipM Url β} {b : β}
    (h : Returns (m >>= f) g b g') (hm : IsCall peer m) :
    ∃ a g₁, Holding peer g g.initiatedRoundState g.acceptedRoundStates g₁ ∧
      Returns (f a) g₁ b g' := by
  rcases returns_bind_iff.mp h with ⟨a, g₁, hcall, hrest⟩
  exact ⟨a, g₁, (hm _ _ _ hcall).1, hrest⟩

omit [DecidableEq Url] in
/-- A request in front of the rest of a handler that returns. -/
theorem returns_requestOps_bind {opIds : List Bytes} {f : Unit → GossipM Url β} {b : β}
    (h : Returns (requestOps host opIds peer >>= f) g b g') :
    ∃ g₁, Holding peer g g.initiatedRoundState g.acceptedRoundStates g₁ ∧
      (peer, opIds) ∈ g₁.requestedOps ∧ Returns (f ()) g₁ b g' := by
  rcases returns_bind_iff.mp h with ⟨_, g₁, hrequest, hrest⟩
  have hcall : IsCall peer (requestOps host opIds peer) := isCall_requestOps _ _
  have hhold := (hcall _ _ _ hrequest).1
  rcases returns_liftK2_bind_iff.mp hrequest with ⟨_, -, happend⟩
  cases happend
  exact ⟨_, hhold, List.mem_append_right _ (List.mem_singleton_self _), hrest⟩

end Parts

/-! ## What a valid message says -/

variable [DecidableEq Url]

section Validated

variable {ourAgents : List Bytes} {ours : DhtSnapshot}

theorem validateDiscSectorsDiff_says {m : DiscSectorsDiffMessage} {message : SnapshotDiscSectorsMessage}
    {checked : AcceptedStage × AcceptResponseMessage × SnapshotDiscSectorsMessage}
    (hvalid : state.validateDiscSectorsDiff peer m = .ok checked)
    (hstage : state.stage = .accepted ourAgents arcSet) (hmessage : m.snapshot = some message) :
    checked.1.commonArcSet = arcSet ∧ checked.2.2 = message := by
  unfold GossipRoundState.validateDiscSectorsDiff at hvalid
  rw [hstage, hmessage] at hvalid
  rcases bind_eq_ok_iff.mp hvalid with ⟨_, -, hvalid⟩
  rcases bind_eq_ok_iff.mp hvalid with ⟨_, hrequired, hvalid⟩
  cases hrequired
  rcases bind_eq_ok_iff.mp hvalid with ⟨response, -, hvalid⟩
  rcases bind_eq_ok_iff.mp hvalid with ⟨_, -, hvalid⟩
  rcases bind_eq_ok_iff.mp hvalid with ⟨_, -, hvalid⟩
  cases hvalid
  exact ⟨rfl, rfl⟩

theorem validateRingSectorDetailsDiff_says {m : RingSectorDetailsDiffMessage}
    {message : SnapshotRingSectorDetailsMessage}
    {checked : AcceptedStage × AcceptResponseMessage × SnapshotRingSectorDetailsMessage}
    (hvalid : state.validateRingSectorDetailsDiff peer m = .ok checked)
    (hstage : state.stage = .accepted ourAgents arcSet) (hmessage : m.snapshot = some message) :
    checked.1.commonArcSet = arcSet ∧ checked.2.2 = message := by
  unfold GossipRoundState.validateRingSectorDetailsDiff at hvalid
  rw [hstage, hmessage] at hvalid
  rcases bind_eq_ok_iff.mp hvalid with ⟨_, -, hvalid⟩
  rcases bind_eq_ok_iff.mp hvalid with ⟨_, hrequired, hvalid⟩
  cases hrequired
  rcases bind_eq_ok_iff.mp hvalid with ⟨response, -, hvalid⟩
  rcases bind_eq_ok_iff.mp hvalid with ⟨_, -, hvalid⟩
  rcases bind_eq_ok_iff.mp hvalid with ⟨_, -, hvalid⟩
  cases hvalid
  exact ⟨rfl, rfl⟩

theorem validateDiscSectorDetailsDiff_says {m : DiscSectorDetailsDiffMessage}
    {message : SnapshotDiscSectorDetailsMessage} {checked : ArcSet × SnapshotDiscSectorDetailsMessage}
    (hvalid : state.validateDiscSectorDetailsDiff peer m = .ok checked)
    (hstage : state.stage = .discSectorsDiff arcSet) (hmessage : m.snapshot = some message) :
    checked = (arcSet, message) := by
  unfold GossipRoundState.validateDiscSectorDetailsDiff at hvalid
  rw [hstage, hmessage] at hvalid
  rcases bind_eq_ok_iff.mp hvalid with ⟨_, -, hvalid⟩
  rcases bind_eq_ok_iff.mp hvalid with ⟨_, hrequired, hvalid⟩
  cases hrequired
  rcases bind_eq_ok_iff.mp hvalid with ⟨_, -, hvalid⟩
  cases hvalid
  rfl

theorem validateDiscSectorDetailsDiffResponse_says {m : DiscSectorDetailsDiffResponseMessage}
    {message : SnapshotDiscSectorDetailsMessage}
    {checked : DetailsStage × SnapshotDiscSectorDetailsMessage}
    (hvalid : state.validateDiscSectorDetailsDiffResponse peer m = .ok checked)
    (hstage : state.stage = .discSectorDetailsDiff arcSet ours) (hmessage : m.snapshot = some message) :
    checked = ({ commonArcSet := arcSet, snapshot := ours }, message) := by
  unfold GossipRoundState.validateDiscSectorDetailsDiffResponse at hvalid
  rw [hstage, hmessage] at hvalid
  rcases bind_eq_ok_iff.mp hvalid with ⟨_, -, hvalid⟩
  rcases bind_eq_ok_iff.mp hvalid with ⟨_, hrequired, hvalid⟩
  cases hrequired
  rcases bind_eq_ok_iff.mp hvalid with ⟨_, -, hvalid⟩
  cases hvalid
  rfl

theorem validateRingSectorDetailsDiffResponse_says {m : RingSectorDetailsDiffResponseMessage}
    {message : SnapshotRingSectorDetailsMessage}
    {checked : DetailsStage × SnapshotRingSectorDetailsMessage}
    (hvalid : state.validateRingSectorDetailsDiffResponse peer m = .ok checked)
    (hstage : state.stage = .ringSectorDetailsDiff arcSet ours) (hmessage : m.snapshot = some message) :
    checked = ({ commonArcSet := arcSet, snapshot := ours }, message) := by
  unfold GossipRoundState.validateRingSectorDetailsDiffResponse at hvalid
  rw [hstage, hmessage] at hvalid
  rcases bind_eq_ok_iff.mp hvalid with ⟨_, -, hvalid⟩
  rcases bind_eq_ok_iff.mp hvalid with ⟨_, hrequired, hvalid⟩
  cases hrequired
  rcases bind_eq_ok_iff.mp hvalid with ⟨_, -, hvalid⟩
  cases hvalid
  rfl

end Validated

/-! ## The acceptor -/

section Acceptor

variable {ourAgents : List Bytes} {ours s : DhtSnapshot} {opIds : List Bytes} {used : Nat}

/-- The accept of an initiate: the minimal snapshot of the common sectors, and what is left of the
budget after the new ops. -/
structure AcceptReturns (host : Host) (peer : Url) (m : InitiateMessage) (config : K2GossipConfig)
    (accept : AcceptMessage) (g' : K2Gossip Url) (ourAgents : List Bytes)
    (ourArcSet theirArcSet : ArcSet) (offered : List Bytes × Nat × Int) : Prop where
  agents : localAgentState host = .ok (ourAgents, ourArcSet)
  arcs : ∃ value, m.arcSet = some value ∧ ArcSet.decode value = .ok theirArcSet
  snapshot : minimalSnapshotMessage host (ourArcSet.intersection theirArcSet) = .ok accept.snapshot
  newOps : retrieveNewOpIds host (ourArcSet.intersection theirArcSet) m.newSince m.maxOpDataBytes =
    .ok offered
  slot : g'.acceptedRoundStates.lookup peer =
    some
      ((acceptState host config peer m ourAgents (ourArcSet.intersection theirArcSet)).spend offered.2.1)

theorem acceptInitiate_returns {m : InitiateMessage}
    (hret : Returns (acceptInitiate host peer m) g answer g') :
    ∃ accept ourAgents ourArcSet theirArcSet offered, answer = some (.accept accept) ∧
      AcceptReturns host peer m g.config accept g' ourAgents ourArcSet theirArcSet offered := by
  have hcall : IsCall peer (setLastGossipTimestamp host peer host.now) :=
    isCall_setLastGossipTimestamp _
  -- peel the parts of the handler off, in its order
  rcases returns_call_bind hret hcall with ⟨_, g₁, hnow, hret⟩
  rcases returns_liftK2_bind_iff.mp hret with ⟨theirArcSet, hdecode, hret⟩
  rcases returns_liftK2_bind_iff.mp hret with ⟨⟨ourAgents, ourArcSet⟩, hagents, hret⟩
  rcases returns_bind_iff.mp hret with ⟨state, g₂, hcreate, hret⟩
  rcases returns_liftK2_bind_iff.mp hret with ⟨snapshot, hsnapshot, hret⟩
  rcases returns_liftK2_bind_iff.mp hret with ⟨missingAgents, -, hret⟩
  rcases returns_bind_iff.mp hret with ⟨newSince, g₃, -, hret⟩
  rcases returns_liftK2_bind_iff.mp hret with ⟨offered, hoffered, hret⟩
  rcases returns_bind_iff.mp hret with ⟨_, g₄, hwrite, hret⟩
  cases hwrite
  cases hret
  have hstate : state = acceptState host g.config peer m ourAgents
      (ourArcSet.intersection theirArcSet) := by
    cases hslot : g₁.acceptedRoundStates.lookup peer with
    -- a round with this peer is refused, so the handler would not have returned
    | some held =>
        have hrun := (createAcceptState_some hslot).symm.trans hcreate
        cases hrun
    | none =>
        have hrun := (createAcceptState_none hslot).symm.trans hcreate
        rw [hnow.config] at hrun
        cases hrun
        rfl
  subst hstate
  have harcs : ∃ value, m.arcSet = some value ∧ ArcSet.decode value = .ok theirArcSet := by
    cases hvalue : m.arcSet with
    | none =>
        rw [hvalue] at hdecode
        cases hdecode
    | some value =>
        rw [hvalue] at hdecode
        exact ⟨value, rfl, hdecode⟩
  refine ⟨_, ourAgents, ourArcSet, theirArcSet, offered, rfl, ?_⟩
  exact
    { agents := hagents
      arcs := harcs
      snapshot := hsnapshot
      newOps := hoffered
      slot := AList.lookup_insert _ }

/-- An initiate crosses none of ours, and the burst tracker lets it through. -/
theorem admitsInitiate_of_single {m : InitiateMessage} (hnone : g.initiatedWith peer = none)
    (hroom : burstHasRoom host peer g = true) : admitsInitiate host peer m g = true := by
  unfold admitsInitiate
  cases hslot : g.initiatedRoundState with
  | none => exact hroom
  | some state =>
      have hpeer : state.sessionWithPeer ≠ peer := by
        intro heq
        have hsome := initiatedWith_eq_some_iff.mpr ⟨hslot, heq⟩
        rw [hnone] at hsome
        cases hsome
      dsimp only
      rw [if_neg hpeer]
      exact hroom

/-- An initiate that is let through is accepted, if there is room for a round. -/
theorem respondToInitiate_returns {m : InitiateMessage}
    (hret : Returns (respondToInitiate host peer m) g answer g')
    (hadmits : admitsInitiate host peer m g = true) (hfree : g.isBusy = false) :
    ∃ accept ourAgents ourArcSet theirArcSet offered, answer = some (.accept accept) ∧
      AcceptReturns host peer m g.config accept g' ourAgents ourArcSet theirArcSet offered := by
  rcases returns_bind_iff.mp hret with ⟨ok, g₁, hrate, hret⟩
  have hok := checkPeerInitiateRate_ok_true_iff.mpr hadmits
  have hchecked := ((checkPeerInitiateRate_holding m).of_run hrate).1
  have hfree₁ : g₁.isBusy = false := by
    unfold K2Gossip.isBusy at hfree ⊢
    rw [hchecked.config, hchecked.accepted]
    exact hfree
  rw [show checkPeerInitiateRate host peer m g = (.ok ok, g₁) from hrate] at hok
  cases hok
  rcases returns_bind_iff.mp hret with ⟨busy, g₂, hrefuse, hret⟩
  have hcall : IsCall peer (refuseIfBusy host peer m) := refuseIfBusy_isCall m
  have hconfig : g₂.config = g.config := (hcall _ _ _ hrefuse).1.config.trans hchecked.config
  rcases refuseIfBusy_cases host peer m g₁ with ⟨-, -, e, hrun⟩ | ⟨-, g₃, hrun⟩
  · cases hrun.symm.trans hrefuse
  · rw [hfree₁] at hrun
    cases hrun.symm.trans hrefuse
    rw [← hconfig]
    exact acceptInitiate_returns hret

/-- The answer to the sectors of a disc: the details of the sectors that differ. -/
theorem respondToDiscSectorsDiff_returns {m : DiscSectorsDiffMessage}
    {message : SnapshotDiscSectorsMessage}
    (hret : Returns (respondToDiscSectorsDiff loc host peer m) g answer g')
    (hslot : g.acceptedRoundStates.lookup peer = some state)
    (hstage : state.stage = .accepted ourAgents arcSet) (hmessage : m.snapshot = some message)
    (hread : message.toSnapshot = .ok theirs)
    (hturn : host.dht.handleSnapshot loc theirs none arcSet 0 = .ok (.newSnapshot s, used)) :
    (∃ m' message', answer = some (.discSectorDetailsDiff m') ∧ m'.snapshot = some message' ∧
        SnapshotDiscSectorDetailsMessage.ofSnapshot s = .ok message') ∧
      g'.acceptedRoundStates.lookup peer =
        some { state with stage := .discSectorDetailsDiff arcSet s } := by
  rcases returns_checkAccepted_bind hret hslot with ⟨⟨accepted, response, _⟩, hvalid, hret⟩
  rcases validateDiscSectorsDiff_says hvalid hstage hmessage with ⟨rfl, rfl⟩
  rcases returns_call_bind hret (isCall_handleAcceptResponse response)
    with ⟨sendAgents, g₁, -, hret⟩
  rcases returns_liftK2_bind_iff.mp hret with ⟨_, hread', hret⟩
  cases hread'.symm.trans hread
  rcases returns_liftK2_bind_iff.mp hret with ⟨_, hturn', hret⟩
  cases hturn'.symm.trans hturn
  rcases returns_bind_iff.mp hret with ⟨_, g₂, hwrite, hret⟩
  cases hwrite
  rcases returns_liftK2_bind_iff.mp hret with ⟨message', hmade, hret⟩
  cases hret
  exact ⟨⟨_, message', rfl, rfl, hmade⟩, AList.lookup_insert _⟩

/-- The answer to the details of our rings: our own details, and the ops that we list. -/
theorem respondToRingSectorDetailsDiff_returns {m : RingSectorDetailsDiffMessage}
    {message : SnapshotRingSectorDetailsMessage}
    (hret : Returns (respondToRingSectorDetailsDiff loc host peer m) g answer g')
    (hslot : g.acceptedRoundStates.lookup peer = some state)
    (hstage : state.stage = .accepted ourAgents arcSet) (hmessage : m.snapshot = some message)
    (hread : message.toSnapshot = .ok theirs)
    (hturn : host.dht.handleSnapshot loc theirs none arcSet state.peerMaxOpDataBytes =
      .ok (.newSnapshotAndHashList s opIds, used)) :
    ∃ m' message', answer = some (.ringSectorDetailsDiffResponse m') ∧ m'.missingIds = opIds ∧
      m'.snapshot = some message' ∧
      SnapshotRingSectorDetailsMessage.ofSnapshot s = .ok message' := by
  rcases returns_checkAccepted_bind hret hslot with ⟨⟨accepted, response, _⟩, hvalid, hret⟩
  rcases validateRingSectorDetailsDiff_says hvalid hstage hmessage with ⟨rfl, rfl⟩
  rcases returns_call_bind hret (isCall_handleAcceptResponse response) with ⟨_, g₁, -, hret⟩
  rcases returns_liftK2_bind_iff.mp hret with ⟨_, hread', hret⟩
  cases hread'.symm.trans hread
  rcases returns_liftK2_bind_iff.mp hret with ⟨_, hturn', hret⟩
  cases hturn'.symm.trans hturn
  rcases returns_bind_iff.mp hret with ⟨_, g₂, -, hret⟩
  rcases returns_bind_iff.mp hret with ⟨_, g₃, -, hret⟩
  rcases returns_bind_iff.mp hret with ⟨_, g₄, -, hret⟩
  rcases returns_liftK2_bind_iff.mp hret with ⟨message', hmade, hret⟩
  cases hret
  exact ⟨_, message', rfl, rfl, rfl, hmade⟩

/-- The ids that come with the initiator's details are requested, and ours are listed. -/
theorem respondToDiscSectorDetailsDiffResponse_returns {m : DiscSectorDetailsDiffResponseMessage}
    {message : SnapshotDiscSectorDetailsMessage} {action : DhtSnapshotNextAction}
    (hret : Returns (respondToDiscSectorDetailsDiffResponse loc host peer m) g answer g')
    (hslot : g.acceptedRoundStates.lookup peer = some state)
    (hstage : state.stage = .discSectorDetailsDiff arcSet ours) (hmessage : m.snapshot = some message)
    (hread : message.toSnapshot = .ok theirs)
    (hturn : host.dht.handleSnapshot loc theirs (some ours) arcSet state.peerMaxOpDataBytes =
      .ok (action, used)) :
    (peer, m.missingIds) ∈ g'.requestedOps ∧
      ∀ opIds, action = .hashList opIds → ∃ m', answer = some (.hashes m') ∧ m'.missingIds = opIds := by
  rcases returns_checkAccepted_bind hret hslot with ⟨checked, hvalid, hret⟩
  cases validateDiscSectorDetailsDiffResponse_says hvalid hstage hmessage
  rcases returns_requestOps_bind hret with ⟨g₁, -, hrequested, hret⟩
  rcases returns_liftK2_bind_iff.mp hret with ⟨_, hread', hret⟩
  cases hread'.symm.trans hread
  rcases returns_liftK2_bind_iff.mp hret with ⟨_, hturn', hret⟩
  cases hturn'.symm.trans hturn
  rcases returns_bind_iff.mp hret with ⟨_, g₂, hwrite, hret⟩
  cases hwrite
  rcases returns_bind_iff.mp hret with ⟨_, g₃, hremove, hret⟩
  cases hremove
  -- whatever it is answered, the missing ids have been requested by now
  cases action with
  | hashList opIds =>
      cases hret
      exact ⟨hrequested, fun _ hlist => by cases hlist; exact ⟨_, rfl, rfl⟩⟩
  | _ =>
      cases hret
      exact ⟨hrequested, fun _ hlist => by cases hlist⟩

end Acceptor

/-! ## The initiator -/

section Initiator

variable {ours s : DhtSnapshot} {opIds : List Bytes} {used : Nat}

/-- An accept leads to a comparison, with what is left of the budget after the new ops. -/
theorem respondToAccept_returns {m : AcceptMessage} {ourAgents : List Bytes}
    {ourArcSet theirArcSet : ArcSet} {tieBreaker : Nat} {message : SnapshotMinimalMessage}
    {action : DhtSnapshotNextAction}
    (hret : Returns (respondToAccept loc host peer m) g answer g')
    (hslot : g.initiatedWith peer = some state)
    (hstage : state.stage = .initiated ourAgents ourArcSet tieBreaker)
    (harcs : m.arcSet = some theirArcSet.encode)
    (hcommon : theirArcSet.intersection ourArcSet = arcSet) (hmessage : m.snapshot = some message)
    (hturn : host.dht.handleSnapshot loc message.toSnapshot none arcSet 0 = .ok (action, used)) :
    ∃ newOps response g₁,
      retrieveNewOpIds host arcSet m.newSince m.maxOpDataBytes = .ok newOps ∧
      Returns (answerMinimalSnapshot host m response arcSet
        { state with peerMaxOpDataBytes :=
            acceptedBudget g.config.maxRequestGossipOpBytes m.maxOpDataBytes newOps.2.1 } action)
        g₁ answer g' := by
  rcases returns_checkInitiated_bind hret hslot with ⟨initiated, hvalid, hret⟩
  have hours : initiated.ourArcSet = ourArcSet := by
    have hinitiated := (validateAccept_stage hvalid).symm.trans hstage
    cases hinitiated
    rfl
  rcases returns_bind_iff.mp hret with ⟨common, g₁, hget, hrest⟩
  rcases getCommonArcSet_run hget with ⟨hsame₁, harcSet⟩
  rw [hsame₁] at hrest
  -- both sides come to the same common arc set: the encoding is read back as it was
  have hsame : common = arcSet := by
    have hfound := harcSet common rfl
    unfold initiatorArcSet at hfound
    rw [harcs, hours] at hfound
    dsimp only at hfound
    rw [ArcSet.decode_encode, ← hcommon] at *
    cases hfound
    rfl
  subst hsame
  rcases returns_liftK2_bind_iff.mp hrest with ⟨missingAgents, -, hret⟩
  rcases returns_call_bind hret (isCall_updateNewOpsBookmark _) with ⟨_, g₂, hnow₂, hret⟩
  rcases returns_call_bind hret (isCall_recordDhtOpCount _) with ⟨_, g₃, hnow₃, hret⟩
  rcases returns_requestOps_bind hret with ⟨g₄, hnow₄, -, hret⟩
  rcases returns_liftK2_bind_iff.mp hret with ⟨newOps, hnewOps, hret⟩
  rcases returns_read_bind_iff.mp hret with hret
  rcases returns_bind_iff.mp hret with ⟨_, g₅, -, hret⟩
  have hconfig : g₄.config = g.config := hnow₄.config.trans (hnow₃.config.trans hnow₂.config)
  rw [hmessage] at hret
  rcases returns_liftK2_bind_iff.mp hret with ⟨_, hturn', hret⟩
  cases hturn'.symm.trans hturn
  rw [hconfig] at hret
  exact ⟨newOps, _, g₅, hnewOps, hret⟩

omit [DecidableEq Url] in
/-- Different discs are answered with the sectors of ours. -/
theorem answerMinimalSnapshot_discSectors {m : AcceptMessage} {response : AcceptResponseMessage}
    {hashes : Std.ExtTreeMap Nat Bytes} {boundary : Int}
    (hret : Returns (answerMinimalSnapshot host m response arcSet state
      (.newSnapshot (.discSectors hashes boundary))) g answer g') :
    (∃ m' message', answer = some (.discSectorsDiff m') ∧ m'.snapshot = some message' ∧
        SnapshotDiscSectorsMessage.ofSnapshot (.discSectors hashes boundary) = .ok message') ∧
      g'.initiatedRoundState = some { state with stage := .discSectorsDiff arcSet } := by
  rcases returns_bind_iff.mp hret with ⟨_, g₁, hwrite, hret⟩
  cases hwrite
  rcases returns_liftK2_bind_iff.mp hret with ⟨message', hmade, hret⟩
  cases hret
  exact ⟨⟨_, message', rfl, rfl, hmade⟩, rfl⟩

omit [DecidableEq Url] in
/-- Different rings are answered with the details of ours. -/
theorem answerMinimalSnapshot_ringSectorDetails {m : AcceptMessage}
    {response : AcceptResponseMessage} {hashes : NestedHashes} {boundary : Int}
    (hret : Returns (answerMinimalSnapshot host m response arcSet state
      (.newSnapshot (.ringSectorDetails hashes boundary))) g answer g') :
    (∃ m' message', answer = some (.ringSectorDetailsDiff m') ∧ m'.snapshot = some message' ∧
        SnapshotRingSectorDetailsMessage.ofSnapshot (.ringSectorDetails hashes boundary) =
          .ok message') ∧
      g'.initiatedRoundState = some
        { state with stage := .ringSectorDetailsDiff arcSet (.ringSectorDetails hashes boundary) } := by
  rcases returns_bind_iff.mp hret with ⟨_, g₁, hwrite, hret⟩
  cases hwrite
  rcases returns_liftK2_bind_iff.mp hret with ⟨message', hmade, hret⟩
  cases hret
  exact ⟨⟨_, message', rfl, rfl, hmade⟩, rfl⟩

/-- The answer to the details of the disc: our own details, and the ops that we list. -/
theorem respondToDiscSectorDetailsDiff_returns {m : DiscSectorDetailsDiffMessage}
    {message : SnapshotDiscSectorDetailsMessage}
    (hret : Returns (respondToDiscSectorDetailsDiff loc host peer m) g answer g')
    (hslot : g.initiatedWith peer = some state)
    (hstage : state.stage = .discSectorsDiff arcSet) (hmessage : m.snapshot = some message)
    (hread : message.toSnapshot = .ok theirs)
    (hturn : host.dht.handleSnapshot loc theirs none arcSet state.peerMaxOpDataBytes =
      .ok (.newSnapshotAndHashList s opIds, used)) :
    ∃ m' message', answer = some (.discSectorDetailsDiffResponse m') ∧ m'.missingIds = opIds ∧
      m'.snapshot = some message' ∧
      SnapshotDiscSectorDetailsMessage.ofSnapshot s = .ok message' := by
  rcases returns_checkInitiated_bind hret hslot with ⟨checked, hvalid, hret⟩
  cases validateDiscSectorDetailsDiff_says hvalid hstage hmessage
  rcases returns_liftK2_bind_iff.mp hret with ⟨_, hread', hret⟩
  cases hread'.symm.trans hread
  rcases returns_liftK2_bind_iff.mp hret with ⟨_, hturn', hret⟩
  cases hturn'.symm.trans hturn
  rcases returns_bind_iff.mp hret with ⟨_, g₁, -, hret⟩
  rcases returns_bind_iff.mp hret with ⟨_, g₂, -, hret⟩
  rcases returns_liftK2_bind_iff.mp hret with ⟨message', hmade, hret⟩
  cases hret
  exact ⟨_, message', rfl, rfl, rfl, hmade⟩

/-- The ids that come with the acceptor's details are requested, and ours are listed. -/
theorem respondToRingSectorDetailsDiffResponse_returns {m : RingSectorDetailsDiffResponseMessage}
    {message : SnapshotRingSectorDetailsMessage} {action : DhtSnapshotNextAction}
    (hret : Returns (respondToRingSectorDetailsDiffResponse loc host peer m) g answer g')
    (hslot : g.initiatedWith peer = some state)
    (hstage : state.stage = .ringSectorDetailsDiff arcSet ours) (hmessage : m.snapshot = some message)
    (hread : message.toSnapshot = .ok theirs)
    (hturn : host.dht.handleSnapshot loc theirs (some ours) arcSet state.peerMaxOpDataBytes =
      .ok (action, used)) :
    (peer, m.missingIds) ∈ g'.requestedOps ∧
      ∀ opIds, action = .hashList opIds → ∃ m', answer = some (.hashes m') ∧ m'.missingIds = opIds := by
  rcases returns_checkInitiated_bind hret hslot with ⟨checked, hvalid, hret⟩
  cases validateRingSectorDetailsDiffResponse_says hvalid hstage hmessage
  rcases returns_requestOps_bind hret with ⟨g₁, -, hrequested, hret⟩
  rcases returns_liftK2_bind_iff.mp hret with ⟨_, hread', hret⟩
  cases hread'.symm.trans hread
  rcases returns_liftK2_bind_iff.mp hret with ⟨_, hturn', hret⟩
  cases hturn'.symm.trans hturn
  rcases returns_bind_iff.mp hret with ⟨_, g₂, hwrite, hret⟩
  cases hwrite
  rcases returns_bind_iff.mp hret with ⟨_, g₃, hupdate, hret⟩
  -- the update of the storage arcs requests nothing and loses no request
  have hupdates : Makes (Wrote host peer) (updateStorageArcs host action : GossipM Url Unit) :=
    makes_updateStorageArcs action
  have hkept := requestedOps_subset (hupdates.of_run hupdate)
  rcases returns_bind_iff.mp hret with ⟨_, g₄, hremove, hret⟩
  cases hremove
  have hmem : (peer, m.missingIds) ∈ g₃.requestedOps := hkept hrequested
  cases action with
  | hashList opIds =>
      cases hret
      exact ⟨hmem, fun _ hlist => by cases hlist; exact ⟨_, rfl, rfl⟩⟩
  | _ =>
      cases hret
      exact ⟨hmem, fun _ hlist => by cases hlist⟩

end Initiator

/-! ## The last message -/

/-- The ids of a hash list are requested, whoever handles it. -/
theorem respondToHashes_returns {m : HashesMessage}
    (hret : Returns (respondToHashes host peer m) g answer g') :
    (peer, m.missingIds) ∈ g'.requestedOps := by
  rcases returns_read_bind_iff.mp hret with hret
  split at hret
  · rcases returns_bind_iff.mp hret with ⟨_, g₁, -, hret⟩
    rcases returns_requestOps_bind hret with ⟨g₂, -, hrequested, hret⟩
    cases hret
    exact hrequested
  split at hret
  · rcases returns_bind_iff.mp hret with ⟨_, g₁, -, hret⟩
    rcases returns_requestOps_bind hret with ⟨g₂, -, hrequested, hret⟩
    cases hret
    exact hrequested
  · cases hret

end Gossip
end Kitsune2
