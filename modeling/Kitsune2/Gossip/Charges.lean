import Kitsune2.Gossip.RoundBudget

/-!
# Charges — what handlers take from the budget of a round

The handlers that offer op ids take their data from what is left of the round's budget; every other
handler leaves the budget alone or ends the round.  So the offers of a round never go beyond what its
tally allows, and no operation on the budget leaves its type.
-/

namespace Kitsune2
namespace Gossip

open Api Lib Dht

variable {Url : Type} [DecidableEq Url] {size : Bytes → Nat} {loc : LocCb} {host : Host} {peer : Url}
  {g g' g₁ : K2Gossip Url} {config : K2GossipConfig} {n : Nat}

/-! ## Budgets that cover offers -/

/-- The round still waits for its accept message. -/
def RoundStage.isInitiated : RoundStage → Bool
  | .initiated _ _ _ => true
  | _ => false

/-- What is left of a budget is a positive number of `i32`. -/
structure GossipRoundState.Solvent (state : GossipRoundState Url) : Prop where
  nonneg : 0 ≤ state.peerMaxOpDataBytes
  small : state.peerMaxOpDataBytes < 2 ^ 31

/-- What has been offered and what is left stay within the limit; a round that waits for its accept
has offered nothing. -/
structure Covers (limit offered : Nat) (state : GossipRoundState Url) : Prop where
  waiting : state.stage.isInitiated = true → offered = 0
  solvent : state.stage.isInitiated = false → state.Solvent
  left : state.stage.isInitiated = false → state.peerMaxOpDataBytes + offered ≤ limit

/-- A tally is within its limit, and covered by the round in the slot. -/
structure Tally.Within (config : K2GossipConfig) (t : Tally)
    (slot : Option (GossipRoundState Url)) : Prop where
  offered : t.offered ≤ t.limit config
  slot : ∀ state, slot = some state → Covers (t.limit config) t.offered state

/-- A round ends, keeps its budget, or has `n` bytes taken from it. -/
inductive SlotCharged (n : Nat) :
    Option (GossipRoundState Url) → Option (GossipRoundState Url) → Prop
  | same {slot : Option (GossipRoundState Url)} (hn : n = 0) : SlotCharged n slot slot
  | removed {slot : Option (GossipRoundState Url)} (hn : n = 0) : SlotCharged n slot none
  | taken {state : GossipRoundState Url} {after : Option (GossipRoundState Url)}
      (hstage : state.stage.isInitiated = false) (hn : (n : Int) ≤ state.peerMaxOpDataBytes)
      (hafter : ∀ state', after = some state' → state'.stage.isInitiated = false ∧
        0 ≤ state'.peerMaxOpDataBytes ∧ state'.peerMaxOpDataBytes + n ≤ state.peerMaxOpDataBytes) :
      SlotCharged n (some state) after

omit [DecidableEq Url] in
theorem Tally.Within.none {t : Tally} (h : t.offered ≤ t.limit config) :
    t.Within config (none : Option (GossipRoundState Url)) :=
  ⟨h, fun _ hstate => by cases hstate⟩

omit [DecidableEq Url] in
theorem Tally.Within.charge {t : Tally} {before after : Option (GossipRoundState Url)}
    (h : t.Within config before) (hcharge : SlotCharged n before after) :
    (t.offer n).Within config after := by
  have hlimit : (t.offer n).limit config = t.limit config := rfl
  cases hcharge with
  | same hn =>
      subst hn
      exact h
  | removed hn =>
      subst hn
      exact Tally.Within.none h.offered
  | taken hstage hn hafter =>
      rename_i state
      -- the stage had still to be charged, so its bytes were left of the limit
      have hcovers := h.slot state rfl
      have hleft := hcovers.left hstage
      refine ⟨?_, ?_⟩
      · rw [hlimit]
        simp only [Tally.offer]
        omega
      · intro state' hstate'
        rcases hafter state' hstate' with ⟨hstage', hnonneg, hspent⟩
        have hsmall := (hcovers.solvent hstage).small
        refine ⟨?_, ?_, ?_⟩
        · intro hwaiting
          rw [hstage'] at hwaiting
          cases hwaiting
        · exact fun _ => ⟨hnonneg, by omega⟩
        · intro _
          rw [hlimit]
          simp only [Tally.offer]
          omega

/-! ## Charges of a handler -/

/-- A handler takes `n` bytes from the initiated round and `n'` from the accepted round of the peer,
and leaves the other rounds alone. -/
structure Charged (peer : Url) (n n' : Nat) (g g' : K2Gossip Url) : Prop where
  config : g'.config = g.config
  initiated : SlotCharged n g.initiatedRoundState g'.initiatedRoundState
  accepted : SlotCharged n' (g.acceptedRoundStates.lookup peer) (g'.acceptedRoundStates.lookup peer)
  others : ∀ q, q ≠ peer → g'.acceptedRoundStates.lookup q = g.acceptedRoundStates.lookup q

theorem Charged.of_sameRounds (h : SameRounds g g') (hconfig : g'.config = g.config) :
    Charged peer 0 0 g g' where
  config := hconfig
  initiated := by
    rw [h.1]
    exact .same rfl
  accepted := by
    rw [h.2]
    exact .same rfl
  others := fun q _ => congrArg (fun rounds => rounds.lookup q) h.2

section Holdings

variable {initiated : Option (GossipRoundState Url)} {accepted : AcceptedRounds Url}
  {state : GossipRoundState Url}

/-- A handler that has not touched a round. -/
theorem Holding.charged (h : Holding peer g g.initiatedRoundState g.acceptedRoundStates g') :
    Charged peer 0 0 g g' :=
  Charged.of_sameRounds ⟨h.initiated, h.accepted⟩ h.config

theorem Holding.charged_initiated (h : Holding peer g initiated g.acceptedRoundStates g')
    (hslot : SlotCharged n g.initiatedRoundState initiated) : Charged peer n 0 g g' where
  config := h.config
  initiated := by
    rw [h.initiated]
    exact hslot
  accepted := by
    rw [h.accepted]
    exact .same rfl
  others := fun q _ => congrArg (fun rounds => rounds.lookup q) h.accepted

theorem Holding.charged_accepted (h : Holding peer g g.initiatedRoundState accepted g')
    (hslot : SlotCharged n (g.acceptedRoundStates.lookup peer) (accepted.lookup peer))
    (hothers : ∀ q, q ≠ peer → accepted.lookup q = g.acceptedRoundStates.lookup q) :
    Charged peer 0 n g g' where
  config := h.config
  initiated := by
    rw [h.initiated]
    exact .same rfl
  accepted := by
    rw [h.accepted]
    exact hslot
  others := by
    intro q hq
    rw [h.accepted]
    exact hothers q hq

/-- The accepted round of the peer is removed at the end. -/
theorem Holding.charged_erase (h : Holding peer g g.initiatedRoundState (accepted.erase peer) g')
    (hslot : SlotCharged n (g.acceptedRoundStates.lookup peer) none)
    (hothers : ∀ q, q ≠ peer → accepted.lookup q = g.acceptedRoundStates.lookup q) :
    Charged peer 0 n g g' := by
  refine h.charged_accepted ?_ ?_
  · rw [AList.lookup_erase]
    exact hslot
  · exact fun q hq => (AList.lookup_erase_ne hq).trans (hothers q hq)

/-- The accepted round of the peer is left in a new state at the end. -/
theorem Holding.charged_insert
    (h : Holding peer g g.initiatedRoundState (accepted.insert peer state) g')
    (hslot : SlotCharged n (g.acceptedRoundStates.lookup peer) (some state))
    (hothers : ∀ q, q ≠ peer → accepted.lookup q = g.acceptedRoundStates.lookup q) :
    Charged peer 0 n g g' := by
  refine h.charged_accepted ?_ ?_
  · rw [AList.lookup_insert]
    exact hslot
  · exact fun q hq => (AList.lookup_insert_ne hq).trans (hothers q hq)

end Holdings

/-! ## Spending -/

omit [DecidableEq Url] in
theorem spend_left {state : GossipRoundState Url} {usedBytes : Nat} (hsolvent : state.Solvent)
    (hused : (usedBytes : Int) ≤ state.peerMaxOpDataBytes) :
    (state.spend usedBytes).peerMaxOpDataBytes = state.peerMaxOpDataBytes - usedBytes := by
  have hnonneg := hsolvent.nonneg
  have hsmall := hsolvent.small
  have hcast : toI32 usedBytes = usedBytes := toI32_of_fits (by omega) (by omega)
  unfold GossipRoundState.spend
  dsimp only
  rw [hcast]
  exact toI32_of_fits (by omega) (by omega)

theorem spendComputes_fit {budget : Int} {usedBytes : Nat} (hsmall : budget < 2 ^ 31)
    (hused : (usedBytes : Int) ≤ budget) : ∀ c ∈ spendComputes budget usedBytes, c.Fits := by
  have hcast : toI32 usedBytes = usedBytes := toI32_of_fits (by omega) (by omega)
  intro c hc
  simp only [spendComputes, hcast, List.mem_cons, List.not_mem_nil, or_false] at hc
  rcases hc with rfl | rfl
  · exact ⟨by omega, by omega⟩
  · exact ⟨by omega, by omega⟩

omit [DecidableEq Url] in
/-- A round that has spent something, whatever stage it is left in. -/
theorem slotCharged_spend {state after : GossipRoundState Url} {usedBytes : Nat}
    (hstage : state.stage.isInitiated = false) (hsolvent : state.Solvent)
    (hused : (usedBytes : Int) ≤ state.peerMaxOpDataBytes) (hn : n ≤ usedBytes)
    (hafter : after.stage.isInitiated = false)
    (hbudget : after.peerMaxOpDataBytes = (state.spend usedBytes).peerMaxOpDataBytes) :
    SlotCharged n (some state) (some after) := by
  refine .taken hstage (by omega) ?_
  intro state' hstate'
  cases hstate'
  rw [hbudget, spend_left hsolvent hused]
  exact ⟨hafter, by omega, by omega⟩

omit [DecidableEq Url] in
theorem slotCharged_none {state : GossipRoundState Url} (hstage : state.stage.isInitiated = false)
    (hn : (n : Int) ≤ state.peerMaxOpDataBytes) : SlotCharged n (some state) none :=
  .taken hstage hn fun _ hstate' => by cases hstate'

/-! ## Stages -/

section Validation

variable {state : GossipRoundState Url}

/-- The round lets the message, which goes on with it, through. -/
def GossipRoundState.Validates (state : GossipRoundState Url) (peer : Url) : GossipMessage → Prop
  | .discSectorsDiff m => ∃ out, state.validateDiscSectorsDiff peer m = .ok out
  | .discSectorDetailsDiff m => ∃ out, state.validateDiscSectorDetailsDiff peer m = .ok out
  | .discSectorDetailsDiffResponse m =>
      ∃ out, state.validateDiscSectorDetailsDiffResponse peer m = .ok out
  | .ringSectorDetailsDiff m => ∃ out, state.validateRingSectorDetailsDiff peer m = .ok out
  | .ringSectorDetailsDiffResponse m =>
      ∃ out, state.validateRingSectorDetailsDiffResponse peer m = .ok out
  | _ => False

/-- No such message is let through before the round is accepted. -/
theorem isInitiated_of_validates (msg : GossipMessage) (h : state.Validates peer msg) :
    state.stage.isInitiated = false := by
  cases hstage : state.stage with
  | initiated ourAgents ourArcSet tieBreaker =>
      exfalso
      cases msg with
      | discSectorsDiff m | discSectorDetailsDiff m | discSectorDetailsDiffResponse m
      | ringSectorDetailsDiff m | ringSectorDetailsDiffResponse m =>
          rcases h with ⟨out, h⟩
          rcases bind_eq_ok_iff.mp h with ⟨_, _, h⟩
          rcases bind_eq_ok_iff.mp h with ⟨_, _, h⟩
          rw [hstage] at h
          cases h
      | _ => exact h
  | _ => rfl

theorem validateAccept_stage {accept : AcceptMessage} {initiated : InitiatedStage}
    (h : state.validateAccept peer accept = .ok initiated) :
    state.stage = .initiated initiated.ourAgents initiated.ourArcSet initiated.tieBreaker := by
  rcases bind_eq_ok_iff.mp h with ⟨_, _, h⟩
  split at h
  · rename_i hstage
    rcases bind_eq_ok_iff.mp h with ⟨_, _, h⟩
    cases h
    exact hstage
  · cases h

end Validation

/-! ## Handlers that offer nothing -/

/-- The data of the answer is taken from the accepted round of the peer. -/
def ChargesAccepted (size : Bytes → Nat) (peer : Url) (g : K2Gossip Url)
    (r : Except K2GossipError (Option GossipMessage)) (g' : K2Gossip Url) : Prop :=
  Charged peer 0 (offeredBytes size r) g g'

/-- The data of the answer is taken from the initiated round. -/
def ChargesInitiated (size : Bytes → Nat) (peer : Url) (g : K2Gossip Url)
    (r : Except K2GossipError (Option GossipMessage)) (g' : K2Gossip Url) : Prop :=
  Charged peer (offeredBytes size r) 0 g g'

theorem Holding.initiated_removed (h : Holding peer g none g.acceptedRoundStates g') :
    Charged peer 0 0 g g' :=
  h.charged_initiated (.removed rfl)

theorem Holding.accepted_removed
    (h : Holding peer g g.initiatedRoundState (g.acceptedRoundStates.erase peer) g') :
    Charged peer 0 0 g g' :=
  h.charged_erase (.removed rfl) fun _ _ => rfl

theorem respondToAgents_charges (m : AgentsMessage) :
    Ends (respondToAgents host peer m) g (ChargesAccepted size peer g) := by
  refine ends_check_bind (checkInitiated_run _) (fun _ _ => Holding.self.charged) ?_
  intro state _ _ _
  rw [ends_removeInitiated_bind_iff]
  have hself : Holding peer g g.initiatedRoundState g.acceptedRoundStates g := Holding.self
  have hgone := hself.setInitiated none
  exact ends_liftK2_bind (fun _ _ => hgone.initiated_removed) fun _ _ => hgone.initiated_removed

theorem respondToBusy_charges (m : BusyMessage) :
    Ends (respondToBusy host peer m) g (ChargesAccepted size peer g) := by
  refine ends_check_bind (checkInitiated_run _) (fun _ _ => Holding.self.charged) ?_
  intro state _ _ _
  rw [ends_removeInitiated_bind_iff]
  refine ends_call_bind isCall_incrPeerBusy (Holding.self.setInitiated none)
    (fun _ _ hgone => hgone.initiated_removed) ?_
  intro _ g₂ _ hgone
  refine ends_call_bind (isCall_setLastGossipTimestamp _) hgone
    (fun _ _ hgone => hgone.initiated_removed) ?_
  intro _ g₃ _ hgone
  exact hgone.initiated_removed

theorem respondToHashes_charges (m : HashesMessage) :
    Ends (respondToHashes host peer m) g (ChargesAccepted size peer g) := by
  unfold respondToHashes
  rw [ends_read_bind_iff]
  split
  · rw [ends_removeInitiated_bind_iff]
    refine ends_call_bind (isCall_requestOps _ _) (Holding.self.setInitiated none)
      (fun _ _ hgone => hgone.initiated_removed) ?_
    intro _ g₂ _ hgone
    exact hgone.initiated_removed
  · split
    · rw [ends_removeAccepted_bind_iff]
      refine ends_call_bind (isCall_requestOps _ _) Holding.self.eraseAccepted
        (fun _ _ hgone => hgone.accepted_removed) ?_
      intro _ g₂ _ hgone
      exact hgone.accepted_removed
    · exact Holding.self.charged

theorem respondToTerminate_charges (m : TerminateMessage) :
    Ends (respondToTerminate host peer m) g (ChargesAccepted size peer g) := by
  unfold respondToTerminate
  rw [ends_read_bind_iff]
  split
  · rw [ends_removeInitiated_bind_iff]
    split
    · exact (Holding.self.setInitiated none).initiated_removed
    · refine ends_call_bind isCall_incrPeerTerminated (Holding.self.setInitiated none)
        (fun _ _ hgone => hgone.initiated_removed) ?_
      intro _ g₂ _ hgone
      exact hgone.initiated_removed
  · split
    · rw [ends_removeAccepted_bind_iff]
      split
      · exact Holding.self.eraseAccepted.accepted_removed
      · refine ends_call_bind isCall_incrPeerTerminated Holding.self.eraseAccepted
          (fun _ _ hgone => hgone.accepted_removed) ?_
        intro _ g₂ _ hgone
        exact hgone.accepted_removed
    · exact Holding.self.charged

theorem respondToNoDiff_charges (m : NoDiffMessage) :
    Ends (respondToNoDiff host peer m) g (ChargesAccepted size peer g) := by
  refine ends_check_bind (checkAccepted_run _) (fun _ _ => Holding.self.charged) ?_
  intro state acceptResponse _ _
  rw [ends_removeAccepted_bind_iff]
  refine ends_call_bind (isCall_handleAcceptResponse _) Holding.self.eraseAccepted
    (fun _ _ hgone => hgone.accepted_removed) ?_
  intro sendAgents g₂ _ hgone
  split
  · exact hgone.accepted_removed
  · exact hgone.accepted_removed

/-- A comparison of disc sectors lists no ops: the round keeps its budget or ends. -/
theorem respondToDiscSectorsDiff_charges (m : DiscSectorsDiffMessage)
    (hsolvent : ∀ state, g.acceptedRoundStates.lookup peer = some state →
      state.stage.isInitiated = false → state.Solvent) :
    Ends (respondToDiscSectorsDiff loc host peer m) g (ChargesAccepted size peer g) := by
  refine ends_check_bind (checkAccepted_run _) (fun _ _ => Holding.self.charged) ?_
  rintro state ⟨accepted, acceptResponse, snapshot⟩ hstate hvalid
  have hstage := isInitiated_of_validates (.discSectorsDiff m) ⟨_, hvalid⟩
  have hnonneg := (hsolvent state hstate hstage).nonneg
  dsimp only
  refine ends_call_bind (isCall_handleAcceptResponse _) Holding.self (fun _ _ hnow => hnow.charged) ?_
  intro sendAgents g₂ _ hnow
  refine ends_liftK2_bind (fun _ _ => hnow.charged) ?_
  intro theirSnapshot _
  refine ends_liftK2_bind (fun _ _ => hnow.charged) ?_
  rintro ⟨nextAction, _⟩ _
  dsimp only
  -- the round ends without an offer, or stays with its budget as it was
  have hgone := hnow.eraseAccepted.accepted_removed
  cases nextAction with
  | identical =>
      cases sendAgents with
      | none => exact hgone
      | some agents => exact hgone
  | cannotCompare =>
      cases sendAgents with
      | none => exact hgone
      | some agents => exact hgone
  | hashList ids => exact hgone
  | newSnapshotAndHashList s ids => exact hgone
  | newSnapshot s =>
      rw [ends_writeAccepted_bind_iff]
      have hkept : Charged peer 0 0 g (g₂.setAccepted (g₂.acceptedRoundStates.insert peer
          { state with stage := .discSectorDetailsDiff accepted.commonArcSet s })) := by
        refine (hnow.insertAccepted _).charged_insert ?_ fun _ _ => rfl
        rw [hstate]
        refine .taken hstage (by simpa using hnonneg) ?_
        intro state' hstate'
        cases hstate'
        exact ⟨rfl, hnonneg, by simp⟩
      exact ends_liftK2_bind (fun _ _ => hkept) fun _ _ => hkept

/-! ## Handlers that list ops -/

/-- The round can pay for a comparison of detailed snapshots. -/
structure CanPay (loc : LocCb) (host : Host) (state : GossipRoundState Url) : Prop where
  solvent : state.Solvent
  slices : host.dht.SlicesFit loc state.peerMaxOpDataBytes

section Details

variable {state : GossipRoundState Url} {theirSnapshot : DhtSnapshot}
  {ourPreviousSnapshot : Option DhtSnapshot} {arcSet : ArcSet} {nextAction : DhtSnapshotNextAction}
  {usedBytes : Nat}

omit [DecidableEq Url] in
theorem CanPay.priced (hhost : host.StoresBy size) (hpay : CanPay loc host state)
    (h : host.dht.handleSnapshot loc theirSnapshot ourPreviousSnapshot arcSet
      state.peerMaxOpDataBytes = .ok (nextAction, usedBytes)) :
    usedBytes = bytesOf size nextAction.opIds ∧ (usedBytes : Int) ≤ state.peerMaxOpDataBytes := by
  have hpriced := DhtState.handleSnapshot_priced hpay.solvent.nonneg hpay.solvent.small hhost.sized
    hpay.slices h
  exact ⟨hpriced.exact, hpriced.within⟩

omit [DecidableEq Url] in
/-- Handling a snapshot for a round that can pay is exact. -/
theorem CanPay.exact (hhost : host.StoresBy size) (hpay : CanPay loc host state) :
    ∀ c ∈ snapshotComputes loc host theirSnapshot ourPreviousSnapshot arcSet
      state.peerMaxOpDataBytes, c.Fits := by
  intro c hc
  rcases List.mem_append.mp hc with hc | hc
  · exact DhtState.handleSnapshotComputes_fit hpay.solvent.nonneg hpay.solvent.small hhost.sized
      hpay.slices c hc
  · cases hhandle : host.dht.handleSnapshot loc theirSnapshot ourPreviousSnapshot arcSet
        state.peerMaxOpDataBytes with
    | error fault =>
        rw [hhandle] at hc
        cases hc
    | ok out =>
        rw [hhandle] at hc
        exact spendComputes_fit hpay.solvent.small (hpay.priced hhost hhandle).2 c hc

variable (hhost : host.StoresBy size)

include hhost

theorem respondToDiscSectorDetailsDiff_charges (m : DiscSectorDetailsDiffMessage)
    (hpay : ∀ state, g.initiatedRoundState = some state → state.stage.isInitiated = false →
      CanPay loc host state) :
    Ends (respondToDiscSectorDetailsDiff loc host peer m) g (ChargesInitiated size peer g) := by
  refine ends_check_bind (checkInitiated_run _) (fun _ _ => Holding.self.charged) ?_
  rintro state ⟨commonArcSet, snapshot⟩ hstate hvalid
  have hstage := isInitiated_of_validates (.discSectorDetailsDiff m) ⟨_, hvalid⟩
  have hpays := hpay state hstate hstage
  refine ends_liftK2_bind (fun _ _ => Holding.self.charged) ?_
  intro theirSnapshot _
  refine ends_liftK2_bind (fun _ _ => Holding.self.charged) ?_
  rintro ⟨nextAction, usedBytes⟩ hhandle
  rcases hpays.priced hhost hhandle with ⟨hexact, hwithin⟩
  dsimp only
  rw [ends_writeInitiated_bind_iff]
  have hself : Holding peer g g.initiatedRoundState g.acceptedRoundStates g := Holding.self
  have hspent := hself.setInitiated (some (state.spend usedBytes))
  -- without an answer that lists ops, what was spent is not offered
  have hdone : ∀ reason, Ends (do
      removeInitiated
      pure (terminate m.sessionId reason) : GossipM Url _)
      (g.setInitiated (some (state.spend usedBytes))) (ChargesInitiated size peer g) :=
    fun _ => (hspent.setInitiated none).initiated_removed
  cases nextAction with
  | identical => exact hdone _
  | cannotCompare => exact hdone _
  | newSnapshot s => exact hdone _
  | hashList ids => exact hdone _
  | newSnapshotAndHashList s ids =>
      dsimp only
      rw [ends_writeInitiated_bind_iff]
      have hkept : ∀ n ≤ usedBytes, Charged peer n 0 g
          ((g.setInitiated (some (state.spend usedBytes))).setInitiated
            (some { state.spend usedBytes with
              stage := .discSectorDetailsDiff commonArcSet s })) := by
        intro n hn
        refine (hspent.setInitiated _).charged_initiated ?_
        rw [hstate]
        exact slotCharged_spend hstage hpays.solvent hwithin hn rfl rfl
      refine ends_liftK2_bind (fun _ _ => hkept 0 (Nat.zero_le _)) ?_
      intro message _
      exact hkept _ (le_of_eq hexact.symm)

theorem respondToRingSectorDetailsDiffResponse_charges (m : RingSectorDetailsDiffResponseMessage)
    (hpay : ∀ state, g.initiatedRoundState = some state → state.stage.isInitiated = false →
      CanPay loc host state) :
    Ends (respondToRingSectorDetailsDiffResponse loc host peer m) g
      (ChargesInitiated size peer g) := by
  refine ends_check_bind (checkInitiated_run _) (fun _ _ => Holding.self.charged) ?_
  rintro state ⟨details, snapshot⟩ hstate hvalid
  have hstage := isInitiated_of_validates (.ringSectorDetailsDiffResponse m) ⟨_, hvalid⟩
  have hpays := hpay state hstate hstage
  dsimp only
  refine ends_call_bind (isCall_requestOps _ _) Holding.self (fun _ _ hnow => hnow.charged) ?_
  intro _ g₂ _ hnow
  refine ends_liftK2_bind (fun _ _ => hnow.charged) ?_
  intro theirSnapshot _
  refine ends_liftK2_bind (fun _ _ => hnow.charged) ?_
  rintro ⟨nextAction, usedBytes⟩ hhandle
  -- what the comparison used is what the offered ops weigh, and within the budget
  rcases hpays.priced hhost hhandle with ⟨hexact, hwithin⟩
  dsimp only
  rw [ends_writeInitiated_bind_iff]
  refine ends_call_bind (isCall_updateStorageArcs _) (hnow.setInitiated _) ?_ ?_
  · intro _ g₃ hspent
    refine hspent.charged_initiated ?_
    rw [hstate]
    exact slotCharged_spend hstage hpays.solvent hwithin (Nat.zero_le _) hstage rfl
  intro _ g₃ _ hspent
  rw [ends_removeInitiated_bind_iff]
  have hgone : ∀ n ≤ usedBytes, Charged peer n 0 g (g₃.setInitiated none) := by
    intro n hn
    refine (hspent.setInitiated none).charged_initiated ?_
    rw [hstate]
    exact slotCharged_none hstage (by omega)
  cases nextAction with
  | identical => exact hgone 0 (Nat.zero_le _)
  | cannotCompare => exact hgone 0 (Nat.zero_le _)
  | newSnapshot s => exact hgone 0 (Nat.zero_le _)
  | newSnapshotAndHashList s ids => exact hgone 0 (Nat.zero_le _)
  | hashList ids => exact hgone _ (le_of_eq hexact.symm)

theorem respondToDiscSectorDetailsDiffResponse_charges (m : DiscSectorDetailsDiffResponseMessage)
    (hpay : ∀ state, g.acceptedRoundStates.lookup peer = some state →
      state.stage.isInitiated = false → CanPay loc host state) :
    Ends (respondToDiscSectorDetailsDiffResponse loc host peer m) g
      (ChargesAccepted size peer g) := by
  refine ends_check_bind (checkAccepted_run _) (fun _ _ => Holding.self.charged) ?_
  rintro state ⟨details, snapshot⟩ hstate hvalid
  have hstage := isInitiated_of_validates (.discSectorDetailsDiffResponse m) ⟨_, hvalid⟩
  have hpays := hpay state hstate hstage
  dsimp only
  refine ends_call_bind (isCall_requestOps _ _) Holding.self (fun _ _ hnow => hnow.charged) ?_
  intro _ g₂ _ hnow
  refine ends_liftK2_bind (fun _ _ => hnow.charged) ?_
  intro theirSnapshot _
  refine ends_liftK2_bind (fun _ _ => hnow.charged) ?_
  rintro ⟨nextAction, usedBytes⟩ hhandle
  rcases hpays.priced hhost hhandle with ⟨hexact, hwithin⟩
  dsimp only
  rw [ends_writeAccepted_bind_iff, ends_removeAccepted_bind_iff]
  have hspent := (hnow.insertAccepted (state.spend usedBytes)).eraseAccepted
  -- the slot is gone when the answer is out, and so is its claim to any bytes
  have hgone : ∀ n ≤ usedBytes, ∀ {g' : K2Gossip Url}, Holding peer g g.initiatedRoundState
      ((g.acceptedRoundStates.insert peer (state.spend usedBytes)).erase peer) g' →
      Charged peer 0 n g g' := by
    intro n hn g' hspent
    refine hspent.charged_erase ?_ fun _ hq => AList.lookup_insert_ne hq
    rw [hstate]
    exact slotCharged_none hstage (by omega)
  cases nextAction with
  | identical => exact hgone 0 (Nat.zero_le _) hspent
  | cannotCompare => exact hgone 0 (Nat.zero_le _) hspent
  | newSnapshot s => exact hgone 0 (Nat.zero_le _) hspent
  | newSnapshotAndHashList s ids => exact hgone 0 (Nat.zero_le _) hspent
  -- only a hash list offers ops, and it offers what was spent
  | hashList ids => exact hgone _ (le_of_eq hexact.symm) hspent

theorem respondToRingSectorDetailsDiff_charges (m : RingSectorDetailsDiffMessage)
    (hpay : ∀ state, g.acceptedRoundStates.lookup peer = some state →
      state.stage.isInitiated = false → CanPay loc host state) :
    Ends (respondToRingSectorDetailsDiff loc host peer m) g (ChargesAccepted size peer g) := by
  refine ends_check_bind (checkAccepted_run _) (fun _ _ => Holding.self.charged) ?_
  rintro state ⟨accepted, acceptResponse, snapshot⟩ hstate hvalid
  have hstage := isInitiated_of_validates (.ringSectorDetailsDiff m) ⟨_, hvalid⟩
  have hpays := hpay state hstate hstage
  dsimp only
  refine ends_call_bind (isCall_handleAcceptResponse _) Holding.self (fun _ _ hnow => hnow.charged) ?_
  intro _ g₂ _ hnow
  refine ends_liftK2_bind (fun _ _ => hnow.charged) ?_
  intro theirSnapshot _
  refine ends_liftK2_bind (fun _ _ => hnow.charged) ?_
  rintro ⟨nextAction, usedBytes⟩ hhandle
  -- what the comparison used is what the offered ops weigh, and within the budget
  rcases hpays.priced hhost hhandle with ⟨hexact, hwithin⟩
  dsimp only
  rw [ends_writeAccepted_bind_iff]
  refine ends_call_bind (isCall_updateStorageArcs _) (hnow.insertAccepted _) ?_ ?_
  · intro _ g₃ hspent
    refine hspent.charged_insert ?_ fun _ _ => rfl
    rw [hstate]
    exact slotCharged_spend hstage hpays.solvent hwithin (Nat.zero_le _) hstage rfl
  intro _ g₃ _ hspent
  have hgone : Charged peer 0 0 g (g₃.setAccepted (g₃.acceptedRoundStates.erase peer)) := by
    refine hspent.eraseAccepted.charged_erase ?_ fun _ hq => AList.lookup_insert_ne hq
    exact .removed rfl
  cases nextAction with
  | identical =>
      dsimp only
      rw [ends_removeAccepted_bind_iff]
      split
      · exact hgone
      · exact hgone
  | cannotCompare =>
      dsimp only
      rw [ends_removeAccepted_bind_iff]
      split
      · exact hgone
      · exact hgone
  | newSnapshot s => exact hgone
  | hashList ids => exact hgone
  -- the one answer that offers ops: the budget is charged before it is sent
  | newSnapshotAndHashList s ids =>
      dsimp only
      rw [ends_writeAccepted_bind_iff]
      have hkept : ∀ n ≤ usedBytes, Charged peer 0 n g (g₃.setAccepted
          (g₃.acceptedRoundStates.insert peer { state.spend usedBytes with
            stage := .ringSectorDetailsDiff accepted.commonArcSet s })) := by
        intro n hn
        refine (hspent.insertAccepted _).charged_insert ?_ fun _ hq => AList.lookup_insert_ne hq
        rw [hstate]
        exact slotCharged_spend hstage hpays.solvent hwithin hn rfl rfl
      refine ends_liftK2_bind (fun _ _ => hkept 0 (Nat.zero_le _)) ?_
      intro message _
      exact hkept _ (le_of_eq hexact.symm)

/-- Every handler but those of an initiate and an accept message. -/
theorem respond_charges {msg : GossipMessage} (hopens : msg.opens = 0)
    (haccept : ∀ accept, msg ≠ .accept accept)
    (hinitiated : ∀ state, g.initiatedRoundState = some state →
      state.stage.isInitiated = false → state.Solvent)
    (haccepted : ∀ state, g.acceptedRoundStates.lookup peer = some state →
      state.stage.isInitiated = false → state.Solvent)
    (hafford : (Task.received peer msg).Affordable loc host g) :
    Ends (respond loc host peer msg) g fun r g' =>
      Charged peer (if msg.toInitiator then offeredBytes size r else 0)
        (if msg.toInitiator then 0 else offeredBytes size r) g g' := by
  cases msg with
  | initiate m => cases hopens
  | accept m => exact absurd rfl (haccept m)
  | noDiff m => exact respondToNoDiff_charges m
  | discSectorsDiff m => exact respondToDiscSectorsDiff_charges m haccepted
  | discSectorDetailsDiff m =>
      exact respondToDiscSectorDetailsDiff_charges hhost m fun state hstate hstage =>
        ⟨hinitiated state hstate hstage, hafford state hstate⟩
  | discSectorDetailsDiffResponse m =>
      exact respondToDiscSectorDetailsDiffResponse_charges hhost m fun state hstate hstage =>
        ⟨haccepted state hstate hstage, hafford state hstate⟩
  | ringSectorDetailsDiff m =>
      exact respondToRingSectorDetailsDiff_charges hhost m fun state hstate hstage =>
        ⟨haccepted state hstate hstage, hafford state hstate⟩
  | ringSectorDetailsDiffResponse m =>
      exact respondToRingSectorDetailsDiffResponse_charges hhost m fun state hstate hstage =>
        ⟨hinitiated state hstate hstage, hafford state hstate⟩
  | hashes m => exact respondToHashes_charges m
  | agents m => exact respondToAgents_charges m
  | busy m => exact respondToBusy_charges m
  | terminate m => exact respondToTerminate_charges m

end Details

/-! ## Accept -/

omit [DecidableEq Url] in
theorem getCommonArcSet_run {initiated : InitiatedStage} {accept : AcceptMessage}
    {r : Except K2GossipError ArcSet}
    (h : (getCommonArcSet initiated accept : GossipM Url ArcSet) g = (r, g₁)) :
    g₁ = g ∧ ∀ arcSet, r = .ok arcSet → initiatorArcSet initiated.ourArcSet accept = .ok arcSet := by
  unfold getCommonArcSet at h
  unfold initiatorArcSet
  cases harc : accept.arcSet with
  | none =>
      rw [harc] at h
      cases h
      exact ⟨rfl, fun _ hok => by cases hok⟩
  | some value =>
      rw [harc] at h
      dsimp only at h ⊢
      cases hdec : ArcSet.decode value with
      | error fault =>
          rw [hdec] at h
          cases h
          exact ⟨rfl, fun _ hok => by cases hok⟩
      | ok set =>
          rw [hdec] at h
          cases h
          refine ⟨rfl, ?_⟩
          intro arcSet hok
          cases hok
          rfl

/-- What is left of an announcement is exact when the new ops fit the limit. -/
theorem acceptedBudget_eq {own announced used : Nat} (hannounced : announced < 2 ^ 32)
    (hused : used ≤ min own announced) (hsmall : min own announced < 2 ^ 31 + used) :
    acceptedBudget own announced used = (min own announced : Nat) - (used : Int) := by
  have hmin : min own announced < 2 ^ 32 := lt_of_le_of_lt (Nat.min_le_right _ _) hannounced
  unfold acceptedBudget
  rw [subU32_of_le hmin hused, toI32_of_fits (by omega) (by omega)]
  omega

/-- The new ops of an accept message fit both limits. -/
structure AcceptFits (config : K2GossipConfig) (accept : AcceptMessage) (used : Nat) : Prop where
  announced : accept.maxOpDataBytes < 2 ^ 32
  within : used ≤ min config.maxRequestGossipOpBytes accept.maxOpDataBytes
  small : min config.maxRequestGossipOpBytes accept.maxOpDataBytes < 2 ^ 31 + used

theorem acceptFits (hhost : host.StoresBy size) {accept : AcceptMessage}
    (hafford : (Task.received peer (.accept accept)).Affordable loc host g)
    {state : GossipRoundState Url} {initiated : InitiatedStage} {arcSet : ArcSet}
    (hstate : g.initiatedRoundState = some state)
    (hstage : state.stage =
      .initiated initiated.ourAgents initiated.ourArcSet initiated.tieBreaker)
    (harcs : initiatorArcSet initiated.ourArcSet accept = .ok arcSet)
    {opIds : List Bytes} {used : Nat} {bookmark : Int}
    (h : retrieveNewOpIds host arcSet accept.newSince accept.maxOpDataBytes =
      .ok (opIds, used, bookmark)) :
    used = bytesOf size opIds ∧ AcceptFits g.config accept used := by
  rcases hafford with ⟨hannounced, hafford⟩
  rcases retrieveNewOpIds_spec hhost hannounced h with ⟨hexact, hle, hbytes⟩
  rcases hafford _ _ _ _ _ _ hstate hstage harcs hbytes with ⟨hown, hsmall⟩
  exact ⟨hexact, hannounced, le_min hown hle, hsmall⟩

omit [DecidableEq Url] in
/-- A round whose budget comes from an accept message covers what is offered with it, or nothing. -/
theorem within_accepted {accept : AcceptMessage} {used : Nat} {state : GossipRoundState Url}
    (hfits : AcceptFits config accept used) (hn : n ≤ used)
    (hstage : state.stage.isInitiated = true → n = 0)
    (hbudget : state.peerMaxOpDataBytes =
      acceptedBudget config.maxRequestGossipOpBytes accept.maxOpDataBytes used) :
    ({ announced := accept.maxOpDataBytes, offered := n } : Tally).Within config (some state) := by
  have hused := hfits.within
  have hsmall := hfits.small
  rw [acceptedBudget_eq hfits.announced hused hsmall] at hbudget
  refine ⟨le_trans hn hused, ?_⟩
  intro state' hstate'
  cases hstate'
  refine ⟨hstage, ?_, ?_⟩
  · exact fun _ => ⟨by omega, by omega⟩
  · intro _
    simp only [Tally.limit]
    omega

omit [DecidableEq Url] in
/-- A round that waits for its accept covers the tally of an offer that was not made. -/
theorem within_waiting {announced : Nat} {state : GossipRoundState Url}
    (hstage : state.stage.isInitiated = true) :
    ({ announced := announced, offered := 0 } : Tally).Within config (some state) := by
  refine ⟨Nat.zero_le _, ?_⟩
  intro state' hstate'
  cases hstate'
  refine ⟨fun _ => rfl, ?_, ?_⟩
  · intro hnot
    rw [hstage] at hnot
    cases hnot
  · intro hnot
    rw [hstage] at hnot
    cases hnot

/-- What handling an accept message leaves: the tally of the announcement is covered. -/
structure Announced (size : Bytes → Nat) (accept : AcceptMessage) (g : K2Gossip Url)
    (r : Except K2GossipError (Option GossipMessage)) (g' : K2Gossip Url) : Prop where
  config : g'.config = g.config
  accepted : g'.acceptedRoundStates = g.acceptedRoundStates
  within : ({ announced := accept.maxOpDataBytes, offered := offeredBytes size r } : Tally).Within
    g.config g'.initiatedRoundState

section Accept

variable {accept : AcceptMessage} {state : GossipRoundState Url} {used : Nat}

omit [DecidableEq Url] in
/-- Nothing is offered, and the round still waits. -/
theorem announced_waiting {r : Except K2GossipError (Option GossipMessage)}
    (h : Holding peer g (some state) g.acceptedRoundStates g')
    (hstage : state.stage.isInitiated = true) (hnothing : offeredBytes size r = 0) :
    Announced size accept g r g' := by
  refine ⟨h.config, h.accepted, ?_⟩
  rw [h.initiated, hnothing]
  exact within_waiting hstage

omit [DecidableEq Url] in
theorem announced_offered {r : Except K2GossipError (Option GossipMessage)}
    (h : Holding peer g (some state) g.acceptedRoundStates g')
    (hfits : AcceptFits g.config accept used) (hn : offeredBytes size r ≤ used)
    (hstage : state.stage.isInitiated = true → offeredBytes size r = 0)
    (hbudget : state.peerMaxOpDataBytes =
      acceptedBudget g.config.maxRequestGossipOpBytes accept.maxOpDataBytes used) :
    Announced size accept g r g' := by
  refine ⟨h.config, h.accepted, ?_⟩
  rw [h.initiated]
  exact within_accepted hfits hn hstage hbudget

omit [DecidableEq Url] in
/-- The round is over, and nothing was offered. -/
theorem announced_removed {r : Except K2GossipError (Option GossipMessage)}
    (h : Holding peer g none g.acceptedRoundStates g') (hnothing : offeredBytes size r = 0) :
    Announced size accept g r g' := by
  refine ⟨h.config, h.accepted, ?_⟩
  rw [h.initiated, hnothing]
  exact Tally.Within.none (Nat.zero_le _)

omit [DecidableEq Url] in
theorem answerMinimalSnapshot_announced {response : AcceptResponseMessage} {commonArcSet : ArcSet}
    (hfits : AcceptFits g.config accept used) (hexact : used = bytesOf size response.newOps)
    (hbudget : state.peerMaxOpDataBytes =
      acceptedBudget g.config.maxRequestGossipOpBytes accept.maxOpDataBytes used)
    (hnow : Holding peer g (some state) g.acceptedRoundStates g₁)
    (nextAction : DhtSnapshotNextAction) :
    Ends (answerMinimalSnapshot host accept response commonArcSet state nextAction) g₁
      (Announced size accept g) := by
  have hdone : ∀ reason, Ends (do
      removeInitiated
      pure (terminate accept.sessionId reason) : GossipM Url _) g₁ (Announced size accept g) :=
    fun _ => announced_removed (hnow.setInitiated none) rfl
  -- in each of the next stages the round is open, and the answer carries the new ops or is lost
  have hoffered : ∀ stage : RoundStage, stage.isInitiated = false →
      ∀ (r : Except K2GossipError (Option GossipMessage)) (g' : K2Gossip Url),
      Holding peer g (some { state with stage }) g.acceptedRoundStates g' →
      offeredBytes size r ≤ used → Announced size accept g r g' := by
    intro stage hstage r g' hkeep hn
    refine announced_offered hkeep hfits hn ?_ hbudget
    intro hwaiting
    have hopen : ({ state with stage } : GossipRoundState Url).stage.isInitiated = false := hstage
    rw [hopen] at hwaiting
    cases hwaiting
  cases nextAction with
  | hashList ids => exact hdone _
  | newSnapshotAndHashList s ids => exact hdone _
  | cannotCompare =>
      exact hoffered .noDiff rfl _ _ (hnow.setInitiated _) (le_of_eq hexact.symm)
  | identical =>
      unfold answerMinimalSnapshot
      rw [ends_writeInitiated_bind_iff]
      refine ends_call_bind (isCall_updateStorageArcs _) (hnow.setInitiated _) ?_ ?_
      · exact fun _ _ hkeep => hoffered .noDiff rfl _ _ hkeep (Nat.zero_le _)
      · exact fun _ _ _ hkeep => hoffered .noDiff rfl _ _ hkeep (le_of_eq hexact.symm)
  | newSnapshot s =>
      cases s with
      | minimal _ _ _ => exact hdone _
      | discSectorDetails _ _ => exact hdone _
      | discSectors hashes boundary =>
          exact hoffered (.discSectorsDiff commonArcSet) rfl _ _ (hnow.setInitiated _)
            (le_of_eq hexact.symm)
      | ringSectorDetails hashes boundary =>
          exact hoffered (.ringSectorDetailsDiff commonArcSet _) rfl _ _ (hnow.setInitiated _)
            (le_of_eq hexact.symm)

theorem respondToAccept_announced (hhost : host.StoresBy size)
    (hafford : (Task.received peer (.accept accept)).Affordable loc host g)
    (htakes : Offering.takesAccept g peer accept = true) :
    Ends (respondToAccept loc host peer accept) g (Announced size accept g) := by
  refine ends_check_bind (checkInitiated_run _) ?_ ?_
  · intro e hrefused
    unfold Offering.takesAccept at htakes
    rw [hrefused] at htakes
    cases htakes
  intro state initiated hstate hvalid
  have hstage := validateAccept_stage hvalid
  have hwaits : state.stage.isInitiated = true := by
    rw [hstage]
    rfl
  -- until the new ops are there, nothing of the round has changed
  have hfails : ∀ {e : K2GossipError} {g' : K2Gossip Url},
      Holding peer g g.initiatedRoundState g.acceptedRoundStates g' →
      Announced size accept g (.error e) g' := by
    intro e g' hnow
    rw [hstate] at hnow
    exact announced_waiting hnow hwaits rfl
  dsimp only
  refine ends_bind ?_ ?_
  · intro e g₁ he
    rw [(getCommonArcSet_run he).1]
    exact hfails Holding.self
  intro commonArcSet g₁ hget
  have harcs := (getCommonArcSet_run hget).2 commonArcSet rfl
  rw [(getCommonArcSet_run hget).1]
  refine ends_liftK2_bind (fun _ _ => hfails Holding.self) ?_
  intro missingAgents _
  refine ends_call_bind (isCall_updateNewOpsBookmark _) Holding.self (fun _ _ hnow => hfails hnow) ?_
  intro _ g₂ _ hnow
  refine ends_call_bind (isCall_recordDhtOpCount _) hnow (fun _ _ hnow => hfails hnow) ?_
  intro _ g₃ _ hnow
  refine ends_call_bind (isCall_requestOps _ _) hnow (fun _ _ hnow => hfails hnow) ?_
  intro _ g₄ _ hnow
  refine ends_liftK2_bind (fun _ _ => hfails hnow) ?_
  rintro ⟨sendNewOps, usedBytes, sendNewBookmark⟩ hnewOps
  rcases acceptFits hhost hafford hstate hstage harcs hnewOps with ⟨hexact, hfits⟩
  dsimp only
  rw [ends_read_bind_iff, ends_writeInitiated_bind_iff, hnow.config]
  split
  · refine ends_liftK2_bind ?_ ?_
    · -- the budget is written, but the round still waits
      intro fault _
      exact announced_waiting (hnow.setInitiated _) hwaits rfl
    · rintro ⟨nextAction, _⟩ _
      refine answerMinimalSnapshot_announced hfits ?_ ?_ (hnow.setInitiated _) nextAction
      · exact hexact
      · dsimp only
  · refine announced_offered ((hnow.setInitiated _).setInitiated _) hfits ?_ ?_ ?_
    · exact le_of_eq hexact.symm
    · intro hwaiting
      cases hwaiting
    · dsimp only

end Accept

end Gossip
end Kitsune2
