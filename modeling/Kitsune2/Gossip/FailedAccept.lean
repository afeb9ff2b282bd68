import Kitsune2.Gossip.Crossing
import Kitsune2.Gossip.RoundBudget

/-!
# FailedAccept — an accept that fails after its round was created

Accepting an initiate creates the round first and then takes a snapshot, looks up agents, reads the
bookmark and retrieves op ids.  An error of one of these leaves through `?` with the round in place,
where it takes up a slot and turns the peer's next initiates away until it times out.  An initiation
of our own stores its round last and has no such errors.
-/

namespace Kitsune2
namespace Gossip

open Api Lib Dht

variable {Url : Type} [DecidableEq Url]

/-! ## The condition -/

section Condition

variable (host : Host) (peer : Url) (m : InitiateMessage)

/-- The burst tracker lets the peer initiate now. -/
def burstHasRoom (g : K2Gossip Url) : Bool :=
  decide (((g.burst peer).filter fun t =>
    decide (t > g.config.burstThreshold host.now)).length < g.config.maxBurst)

/-- The initiate is let through: it wins over our own with the peer, or the peer may initiate now. -/
def admitsInitiate (g : K2Gossip Url) : Bool :=
  match g.initiatedRoundState with
  | some initiated =>
      if initiated.sessionWithPeer = peer then
        match initiated.stage with
        | .initiated _ _ tieBreaker => decide (tieBreaker ≤ m.tieBreaker)
        | _ => false
      else burstHasRoom host peer g
  | none => burstHasRoom host peer g

/-- Accepting gets as far as creating the round, for these common arcs. -/
structure CreatesRound (commonArcSet : ArcSet) (g : K2Gossip Url) : Prop where
  stamped : host.call .setLastGossipTimestamp = .ok ()
  arcs : acceptorArcSet host m = .ok commonArcSet
  slot : g.acceptedRoundStates.lookup peer = none

/-- One of the calls that follow the creation of the round fails. -/
def LaterCallFails (commonArcSet : ArcSet) : Prop :=
  (∃ fault, minimalSnapshotMessage host commonArcSet = .error fault) ∨
  (∃ fault, filterKnownAgents host m.participatingAgents = .error fault) ∨
  (∃ fault, host.call .newOpsBookmark = .error fault) ∨
  ∃ fault, retrieveNewOpIds host commonArcSet m.newSince m.maxOpDataBytes = .error fault

/-- The initiate is let through and finds room, and it fails after its round was created. -/
structure LeavesRound (g : K2Gossip Url) : Prop where
  admitted : admitsInitiate host peer m g = true
  recorded : m.dhtOpCount.isSome → host.call .setPeerDhtOpCount = .ok ()
  room : g.isBusy = false
  fails : ∃ commonArcSet, CreatesRound host peer m commonArcSet g ∧
    LaterCallFails host m commonArcSet

end Condition

variable {host : Host} {peer : Url} {m : InitiateMessage} {g g₁ : K2Gossip Url}

/-- What a handler of an initiate returns has an error and other accepted rounds than before. -/
def FailsChanged (g : K2Gossip Url) (r : Except K2GossipError (Option GossipMessage))
    (g' : K2Gossip Url) : Prop :=
  (∃ e, r = .error e) ∧ g'.acceptedRoundStates ≠ g.acceptedRoundStates

/-! ## The part that creates the round -/

omit [DecidableEq Url] in
theorem not_failsChanged_of_same {r : Except K2GossipError (Option GossipMessage)}
    {g' : K2Gossip Url} (h : g'.acceptedRoundStates = g.acceptedRoundStates) :
    ¬ FailsChanged g r g' :=
  fun hchanged => hchanged.2 h

theorem failsChanged_of_inserted {e : K2GossipError} {g' : K2Gossip Url}
    {initiated : Option (GossipRoundState Url)} {state : GossipRoundState Url}
    (hslot : g.acceptedRoundStates.lookup peer = none)
    (hnow : Holding peer g initiated (g.acceptedRoundStates.insert peer state) g') :
    FailsChanged g (.error e) g' := by
  refine ⟨⟨e, rfl⟩, ?_⟩
  intro hsame
  have hlookup : g'.acceptedRoundStates.lookup peer = some state := by
    rw [hnow.accepted]
    exact AList.lookup_insert _
  rw [hsame, hslot] at hlookup
  cases hlookup

omit [DecidableEq Url] in
theorem getRequestNewSince_error {fault : Fault} (h : host.call .newOpsBookmark = .error fault) :
    getRequestNewSince host peer g = (.error (.k2 fault), g) := by
  have hcall : (liftK2 (host.call .newOpsBookmark) : GossipM Url Unit) g = (.error (.k2 fault), g) := by
    rw [h]
    rfl
  have hbookmark : newOpsBookmark host peer g = (.error (.k2 fault), g) := bind_run_error hcall _
  exact bind_run_error hbookmark _

omit [DecidableEq Url] in
theorem getRequestNewSince_run {u : Unit} (h : host.call .newOpsBookmark = .ok u) :
    getRequestNewSince host peer g =
      (.ok ((g.peerMeta peer).newOpsBookmark.getD (host.now - 2 * unitTime)), g) := by
  have hcall : Returns (liftK2 (host.call .newOpsBookmark) : GossipM Url Unit) g u g := liftK2_ok h
  have hbookmark : Returns (newOpsBookmark host peer) g (g.peerMeta peer).newOpsBookmark g :=
    hcall.bind_run _
  exact hbookmark.bind_run _

/-- The arcs in common, computed the way accepting does. -/
theorem acceptorArcSet_of_parts {otherArcSet ourArcSet : ArcSet} {ourAgents : List Bytes}
    (hother : (match m.arcSet with
      | some value => ArcSet.decode value
      | none => .error (.k2 "no arc set in initiate message")) = .ok otherArcSet)
    (hours : localAgentState host = .ok (ourAgents, ourArcSet)) :
    acceptorArcSet host m = .ok (ourArcSet.intersection otherArcSet) := by
  unfold acceptorArcSet
  cases hvalue : m.arcSet with
  | none =>
      rw [hvalue] at hother
      cases hother
  | some value =>
      rw [hvalue] at hother
      exact bind_eq_ok_iff.mpr ⟨otherArcSet, hother, bind_eq_ok_iff.mpr ⟨_, hours, rfl⟩⟩

theorem parts_of_acceptorArcSet {commonArcSet : ArcSet}
    (h : acceptorArcSet host m = .ok commonArcSet) :
    (∃ otherArcSet, (match m.arcSet with
      | some value => ArcSet.decode value
      | none => .error (.k2 "no arc set in initiate message")) = .ok otherArcSet) ∧
    ∃ ours, localAgentState host = .ok ours := by
  unfold acceptorArcSet at h
  cases hvalue : m.arcSet with
  | none =>
      rw [hvalue] at h
      cases h
  | some value =>
      rw [hvalue] at h
      rcases bind_eq_ok_iff.mp h with ⟨otherArcSet, hother, h⟩
      rcases bind_eq_ok_iff.mp h with ⟨ours, hours, -⟩
      exact ⟨⟨otherArcSet, hother⟩, ours, hours⟩

/-- Accepting fails with other rounds than before exactly if the round is created and a later call
fails. -/
theorem acceptInitiate_failsChanged_iff {initiated : Option (GossipRoundState Url)}
    (hnow : Holding peer g initiated g.acceptedRoundStates g₁) :
    Ends (acceptInitiate host peer m) g₁ fun r g' => FailsChanged g r g' ↔
      ∃ commonArcSet, CreatesRound host peer m commonArcSet g ∧
        LaterCallFails host m commonArcSet := by
  have hearly : ∀ {r : Except K2GossipError (Option GossipMessage)} {g' : K2Gossip Url},
      g'.acceptedRoundStates = g.acceptedRoundStates →
      (∀ commonArcSet, ¬ CreatesRound host peer m commonArcSet g) →
      (FailsChanged g r g' ↔ ∃ commonArcSet, CreatesRound host peer m commonArcSet g ∧
        LaterCallFails host m commonArcSet) :=
    fun hsame hnone => iff_of_false (not_failsChanged_of_same hsame)
      fun ⟨commonArcSet, hcreates, _⟩ => hnone commonArcSet hcreates
  refine ends_bind ?_ ?_
  · intro e g₂ he
    have hhold := hnow.trans (isCall_setLastGossipTimestamp _ _ _ _ he).1
    refine hearly hhold.accepted fun commonArcSet hcreates => ?_
    have hok : setLastGossipTimestamp host peer host.now g₁ = _ := putMeta_ok hcreates.stamped
    rw [hok] at he
    cases he
  intro _ g₂ hstamp
  have hnow := hnow.trans (isCall_setLastGossipTimestamp _ _ _ _ hstamp).1
  have hstamped : host.call .setLastGossipTimestamp = .ok () := by
    cases hcall : host.call .setLastGossipTimestamp with
    | ok u => rfl
    | error fault =>
        have hfail : setLastGossipTimestamp host peer host.now g₁ = _ := putMeta_error hcall
        rw [hfail] at hstamp
        cases hstamp
  refine ends_liftK2_bind (fun fault hfault => hearly hnow.accepted fun _ hcreates => ?_) ?_
  · rcases (parts_of_acceptorArcSet hcreates.arcs).1 with ⟨otherArcSet, hother⟩
    cases hother.symm.trans hfault
  intro otherArcSet hother
  refine ends_liftK2_bind (fun fault hfault => hearly hnow.accepted fun _ hcreates => ?_) ?_
  · rcases (parts_of_acceptorArcSet hcreates.arcs).2 with ⟨ours, hours⟩
    rw [hours] at hfault
    cases hfault
  rintro ⟨ourAgents, ourArcSet⟩ hours
  have harcs := acceptorArcSet_of_parts hother hours
  cases hslot : g.acceptedRoundStates.lookup peer with
  | some state =>
      have hsome : createAcceptState host peer m ourAgents (ourArcSet.intersection otherArcSet) g₂ = _ :=
        createAcceptState_some (hnow.accepted.symm ▸ hslot)
      refine ends_bind ?_ ?_
      · intro e g₃ he
        rw [hsome] at he
        cases he
        refine hearly hnow.accepted fun _ hcreates => ?_
        rw [hcreates.slot] at hslot
        cases hslot
      · intro state' g₃ hstate
        rw [hsome] at hstate
        cases hstate
  | none =>
      have hcreates : CreatesRound host peer m (ourArcSet.intersection otherArcSet) g :=
        ⟨hstamped, harcs, hslot⟩
      have hnone : createAcceptState host peer m ourAgents (ourArcSet.intersection otherArcSet) g₂ = _ :=
        createAcceptState_none (hnow.accepted.symm ▸ hslot)
      refine ends_bind ?_ ?_
      · intro e g₃ he
        rw [hnone] at he
        cases he
      intro state g₃ hstate
      rw [hnone] at hstate
      cases hstate
      -- From here on the round is there, also when a later call fails.
      have hnow := hnow.insertAccepted (acceptState host g₂.config peer m ourAgents
        (ourArcSet.intersection otherArcSet))
      generalize acceptState host g₂.config peer m ourAgents
        (ourArcSet.intersection otherArcSet) = state at hnow ⊢
      have hlate : ∀ {e : K2GossipError} {g' : K2Gossip Url},
          Holding peer g initiated (g.acceptedRoundStates.insert peer state) g' →
          LaterCallFails host m (ourArcSet.intersection otherArcSet) →
          (FailsChanged g (.error e) g' ↔ ∃ commonArcSet,
            CreatesRound host peer m commonArcSet g ∧ LaterCallFails host m commonArcSet) :=
        fun hhold hfails => iff_of_true (failsChanged_of_inserted hslot hhold)
          ⟨_, hcreates, hfails⟩
      refine ends_liftK2_bind (fun fault hfault => hlate hnow (.inl ⟨fault, hfault⟩)) ?_
      intro snapshot hsnapshot
      refine ends_liftK2_bind (fun fault hfault => hlate hnow (.inr (.inl ⟨fault, hfault⟩))) ?_
      intro missingAgents hmissing
      refine ends_bind ?_ ?_
      · intro e g₃ he
        have hhold := hnow.trans (isCall_getRequestNewSince _ _ _ _ he).1
        refine hlate hhold (.inr (.inr (.inl ?_)))
        cases hcall : host.call .newOpsBookmark with
        | error fault => exact ⟨fault, rfl⟩
        | ok u =>
            rw [getRequestNewSince_run hcall] at he
            cases he
      intro newSince g₃ hsince
      have hnow := hnow.trans (isCall_getRequestNewSince _ _ _ _ hsince).1
      refine ends_liftK2_bind
        (fun fault hfault => hlate hnow (.inr (.inr (.inr ⟨fault, hfault⟩)))) ?_
      rintro ⟨newOps, usedBytes, newBookmark⟩ hnewOps
      dsimp only
      rw [ends_writeAccepted_bind_iff, ends_read_bind_iff]
      -- Every call was answered.
      refine iff_of_false (fun hchanged => ?_) ?_
      · rcases hchanged.1 with ⟨e, he⟩
        cases he
      · rintro ⟨commonArcSet, hcreates', hfails⟩
        cases harcs.symm.trans hcreates'.arcs
        rcases hfails with ⟨fault, h⟩ | ⟨fault, h⟩ | ⟨fault, h⟩ | ⟨fault, h⟩
        · cases hsnapshot.symm.trans h
        · cases hmissing.symm.trans h
        · rw [getRequestNewSince_error h] at hsince
          cases hsince
        · cases hnewOps.symm.trans h

/-! ## The handler -/

theorem checkAccept_run (host : Host) (peer : Url) (g : K2Gossip Url) :
    ∃ g', checkAccept host peer g = (.ok (burstHasRoom host peer g), g') := by
  unfold checkAccept burstHasRoom
  rw [bind_run]
  dsimp only [Eff.read]
  split
  · rename_i hfull
    exact ⟨_, by rw [decide_eq_false (not_lt.mpr hfull)]; rfl⟩
  · rename_i hroom
    exact ⟨_, by rw [decide_eq_true (not_le.mp hroom)]; rfl⟩

theorem checkBurst_ok_true_iff :
    (checkBurst host peer g).1 = .ok true ↔ burstHasRoom host peer g = true := by
  have hbind : checkBurst host peer g = (checkAccept host peer >>= fun ok =>
      if !ok then blame .initiateTooSoon else pure true : GossipM Url Bool) g := rfl
  rcases checkAccept_run host peer g with ⟨g', hcheck⟩
  rw [hbind, bind_run, hcheck]
  cases burstHasRoom host peer g with
  | false => exact ⟨nofun, nofun⟩
  | true => exact ⟨fun _ => rfl, fun _ => rfl⟩

/-- The rate check lets an initiate through exactly as the state before says. -/
theorem checkPeerInitiateRate_ok_true_iff :
    (checkPeerInitiateRate host peer m g).1 = .ok true ↔ admitsInitiate host peer m g = true := by
  unfold checkPeerInitiateRate admitsInitiate
  rw [bind_run]
  dsimp only [Eff.read]
  cases g.initiatedRoundState with
  | none => exact checkBurst_ok_true_iff
  | some initiated =>
      dsimp only
      by_cases hpeer : initiated.sessionWithPeer = peer
      · rw [if_pos hpeer, if_pos hpeer]
        cases initiated.stage with
        | initiated ourAgents ourArcSet tieBreaker =>
            dsimp only
            by_cases htie : tieBreaker > m.tieBreaker
            · rw [if_pos htie, decide_eq_false (not_le.mpr htie)]
              exact ⟨nofun, nofun⟩
            · rw [if_neg htie, decide_eq_true (not_lt.mp htie)]
              exact ⟨fun _ => rfl, fun _ => rfl⟩
        | _ => exact ⟨nofun, nofun⟩
      · rw [if_neg hpeer, if_neg hpeer]
        exact checkBurst_ok_true_iff

theorem recordDhtOpCount_cases (host : Host) (peer : Url) (count : Option Nat) (g : K2Gossip Url) :
    (count.isSome ∧ ∃ fault, host.call .setPeerDhtOpCount = .error fault ∧
      recordDhtOpCount host peer count g = (.error (.k2 fault), g)) ∨
    (count.isSome → host.call .setPeerDhtOpCount = .ok ()) ∧
      ∃ g', recordDhtOpCount host peer count g = (.ok (), g') := by
  cases count with
  | none => exact Or.inr ⟨nofun, g, rfl⟩
  | some opCount =>
      cases hcall : host.call .setPeerDhtOpCount with
      | error fault => exact Or.inl ⟨rfl, fault, rfl, putMeta_error hcall⟩
      | ok u => exact Or.inr ⟨fun _ => rfl, _, putMeta_ok hcall⟩

/-- The op count is not kept, or whether we are busy decides. -/
theorem refuseIfBusy_cases (host : Host) (peer : Url) (m : InitiateMessage) (g : K2Gossip Url) :
    (m.dhtOpCount.isSome ∧ (∃ fault, host.call .setPeerDhtOpCount = .error fault) ∧
      ∃ e, refuseIfBusy host peer m g = (.error e, g)) ∨
    (m.dhtOpCount.isSome → host.call .setPeerDhtOpCount = .ok ()) ∧
      ∃ g', refuseIfBusy host peer m g =
        (.ok (if g.isBusy then some (.busy { sessionId := m.sessionId }) else none), g') := by
  have hbind : refuseIfBusy host peer m g = (recordDhtOpCount host peer m.dhtOpCount >>= fun _ => (do
      let g ← Eff.read
      if g.isBusy then pure (some (.busy { sessionId := m.sessionId })) else pure none :
      GossipM Url (Option GossipMessage))) g := rfl
  rcases recordDhtOpCount_cases host peer m.dhtOpCount g with
    ⟨hsome, fault, hcall, hrun⟩ | ⟨hcall, g', hrun⟩
  · exact Or.inl ⟨hsome, ⟨fault, hcall⟩, _, hbind.trans (bind_run_error hrun _)⟩
  · refine Or.inr ⟨hcall, g', ?_⟩
    have hhold := (isCall_recordDhtOpCount _ _ _ _ hrun).1
    have hsame : g'.isBusy = g.isBusy := by
      unfold K2Gossip.isBusy
      rw [hhold.config, hhold.accepted]
    rw [hbind, bind_run, hrun, ← hsame]
    dsimp only
    rw [bind_run]
    dsimp only [Eff.read]
    cases g'.isBusy with
    | false => rfl
    | true => rfl

/-- Responding to an initiate fails with other rounds than before exactly if a round is left. -/
theorem respondToInitiate_failsChanged_iff :
    Ends (respondToInitiate host peer m) g fun r g' =>
      FailsChanged g r g' ↔ LeavesRound host peer m g := by
  have hrate : Ends (checkPeerInitiateRate host peer m) g _ := checkPeerInitiateRate_holding m
  have hadmits : (checkPeerInitiateRate host peer m g).1 = .ok true ↔
      admitsInitiate host peer m g = true := checkPeerInitiateRate_ok_true_iff
  have hearly : ∀ {r : Except K2GossipError (Option GossipMessage)} {g' : K2Gossip Url},
      g'.acceptedRoundStates = g.acceptedRoundStates → ¬ LeavesRound host peer m g →
      (FailsChanged g r g' ↔ LeavesRound host peer m g) :=
    fun hsame hleaves => iff_of_false (not_failsChanged_of_same hsame) hleaves
  refine ends_bind ?_ ?_
  · intro e g₁ he
    refine hearly (hrate.of_run he).1.accepted fun hleaves => ?_
    rw [he] at hadmits
    cases hadmits.mpr hleaves.admitted
  intro ok g₁ hok
  have hnow := (hrate.of_run hok).1
  rw [hok] at hadmits
  cases ok with
  | false =>
      refine hearly hnow.accepted fun hleaves => ?_
      cases hadmits.mpr hleaves.admitted
  | true =>
      have hadmitted := hadmits.mp rfl
      have hroom : g₁.isBusy = g.isBusy := by
        unfold K2Gossip.isBusy
        rw [hnow.config, hnow.accepted]
      have hcall : IsCall peer (refuseIfBusy host peer m) := refuseIfBusy_isCall m
      rcases refuseIfBusy_cases host peer m g₁ with
        ⟨hsome, ⟨fault, hfault⟩, e, hrun⟩ | ⟨hrecorded, g₂, hrun⟩
      · -- The reported op count could not be kept.
        have hhold := hnow.trans (hcall _ _ _ hrun).1
        refine ends_bind (fun e' g₃ he => ?_) fun busy g₃ hok => ?_
        · rw [hrun] at he
          cases he
          refine hearly hhold.accepted fun hleaves => ?_
          cases hfault.symm.trans (hleaves.recorded hsome)
        · rw [hrun] at hok
          cases hok
      · have hhold := hnow.trans (hcall _ _ _ hrun).1
        refine ends_bind (fun e' g₃ he => ?_) fun busy g₃ hok => ?_
        · rw [hrun] at he
          cases he
        · rw [hrun, hroom] at hok
          cases hok
          cases hbusy : g.isBusy with
          | true =>
              refine hearly hhold.accepted fun hleaves => ?_
              cases hbusy.symm.trans hleaves.room
          | false =>
              have haccept : Ends (acceptInitiate host peer m) g₂ _ :=
                acceptInitiate_failsChanged_iff hhold
              refine haccept.mono fun r g' hiff => hiff.trans ?_
              constructor
              · intro hfails
                exact ⟨hadmitted, hrecorded, hbusy, hfails⟩
              · intro hleaves
                exact hleaves.fails

/-! ## Failed accepts -/

/-- An accept that fails leaves the accepted rounds as they were, unless the initiate got as far as
having its round created and one of the calls after that failed. -/
theorem failed_accept_unchanged_iff (host : Host) (peer : Url) (m : InitiateMessage)
    (g : K2Gossip Url) :
    (∀ e g', respondToInitiate host peer m g = (.error e, g') →
      g'.acceptedRoundStates = g.acceptedRoundStates) ↔ ¬ LeavesRound host peer m g := by
  rcases hrun : respondToInitiate host peer m g with ⟨r, g'⟩
  have hiff : FailsChanged g r g' ↔ LeavesRound host peer m g :=
    respondToInitiate_failsChanged_iff.of_run hrun
  rw [← hiff]
  constructor
  · rintro hsame ⟨⟨e, rfl⟩, hchanged⟩
    exact hchanged (hsame e g' rfl)
  · rintro hnot e g'' heq
    cases heq
    by_contra hchanged
    exact hnot ⟨⟨e, rfl⟩, hchanged⟩

/-- A quiet node whose peer meta store cannot give the bookmark. -/
def forgetfulHost : Host :=
  { quietHost (fun _ => 0) 1000000 with
    call := fun c => if c = .newOpsBookmark then .error (.k2 "bookmark") else .ok () }

def forgetfulAccept : Except K2GossipError (Option GossipMessage) × K2Gossip Nat :=
  respondToInitiate forgetfulHost 2
    (Crossing.firstInitiate forgetfulHost (limitedConfig 10) [1] 7)
    (Running.start (limitedConfig 10)).g

/-- Its accept of an initiate fails, and the round stays. -/
theorem forgetful_accept_leaves_round :
    ¬ ∀ e g', forgetfulAccept = (.error e, g') →
      g'.acceptedRoundStates = (Running.start (limitedConfig 10)).g.acceptedRoundStates := by
  intro hsame
  have hfails : forgetfulAccept.1.isOk = false := by decide +kernel
  have hround : (forgetfulAccept.2.acceptedRoundStates.lookup 2).isSome = true := by decide +kernel
  rcases hrun : forgetfulAccept with ⟨r, g'⟩
  rw [hrun] at hfails hround
  cases r with
  | ok res => cases hfails
  | error e =>
      rw [hsame e g' hrun] at hround
      cases hround

end Gossip
end Kitsune2
