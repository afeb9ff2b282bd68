import Kitsune2.Gossip.Charges

/-!
# OffersWithin — the offers of a round over whole runs

Every event of a node keeps the tallies within their limits, as long as its steps are affordable: a
round begins with an empty tally, its handlers take what they offer from the budget, and an accept
message sets the budget of an initiated round before anything is offered in it.
-/

namespace Kitsune2
namespace Gossip

open Api Lib Dht

variable {Url : Type} [DecidableEq Url] {size : Bytes → Nat} {loc : LocCb} {host : Host} {peer : Url}
  {g g' g₁ : K2Gossip Url} {config : K2GossipConfig}

/-! ## A round that is accepted -/

/-- What accepting an initiate leaves: the slot of the peer as it was, or a new round that covers the
tally of its announcement. -/
structure Opened (size : Bytes → Nat) (peer : Url) (initiate : InitiateMessage) (g : K2Gossip Url)
    (r : Except K2GossipError (Option GossipMessage)) (g' : K2Gossip Url) : Prop where
  config : g'.config = g.config
  initiated : g'.initiatedRoundState = g.initiatedRoundState
  others : ∀ q, q ≠ peer → g'.acceptedRoundStates.lookup q = g.acceptedRoundStates.lookup q
  slot : g'.acceptedRoundStates.lookup peer = g.acceptedRoundStates.lookup peer ∨
    g.acceptedRoundStates.lookup peer = none ∧
      ({ announced := initiate.maxOpDataBytes, offered := offeredBytes size r } : Tally).Within
        g.config (g'.acceptedRoundStates.lookup peer)

theorem opened_unchanged {initiate : InitiateMessage}
    {r : Except K2GossipError (Option GossipMessage)}
    (h : Holding peer g g.initiatedRoundState g.acceptedRoundStates g') :
    Opened size peer initiate g r g' := by
  refine ⟨h.config, h.initiated, ?_, Or.inl ?_⟩
  · exact fun q _ => congrArg (fun rounds => rounds.lookup q) h.accepted
  · rw [h.accepted]

theorem opened_new {initiate : InitiateMessage} {state : GossipRoundState Url}
    {accepted : AcceptedRounds Url} {r : Except K2GossipError (Option GossipMessage)}
    (h : Holding peer g g.initiatedRoundState (accepted.insert peer state) g')
    (hothers : ∀ q, q ≠ peer → accepted.lookup q = g.acceptedRoundStates.lookup q)
    (hslot : g.acceptedRoundStates.lookup peer = none)
    (hwithin : ({ announced := initiate.maxOpDataBytes, offered := offeredBytes size r } : Tally).Within
      g.config (some state)) :
    Opened size peer initiate g r g' := by
  refine ⟨h.config, h.initiated, ?_, Or.inr ⟨hslot, ?_⟩⟩
  · intro q hq
    rw [h.accepted, AList.lookup_insert_ne hq]
    exact hothers q hq
  · rw [h.accepted, AList.lookup_insert]
    exact hwithin

omit [DecidableEq Url] in
/-- The budget of a round that is accepted now is the limit of its tally. -/
theorem acceptState_left {initiate : InitiateMessage} {ourAgents : List Bytes} {arcSet : ArcSet}
    (hsmall : min config.maxRequestGossipOpBytes initiate.maxOpDataBytes < 2 ^ 31) :
    (acceptState host config peer initiate ourAgents arcSet).peerMaxOpDataBytes =
      (min config.maxRequestGossipOpBytes initiate.maxOpDataBytes : Nat) := by
  unfold acceptState
  dsimp only
  exact toI32_of_fits (by omega) (by omega)

omit [DecidableEq Url] in
theorem acceptState_solvent {initiate : InitiateMessage} {ourAgents : List Bytes} {arcSet : ArcSet}
    (hsmall : min config.maxRequestGossipOpBytes initiate.maxOpDataBytes < 2 ^ 31) :
    (acceptState host config peer initiate ourAgents arcSet).Solvent := by
  refine ⟨?_, ?_⟩
  · rw [acceptState_left hsmall]
    omega
  · rw [acceptState_left hsmall]
    omega

omit [DecidableEq Url] in
/-- A round that is accepted now covers what is spent on new ops. -/
theorem within_acceptState {initiate : InitiateMessage} {ourAgents : List Bytes} {arcSet : ArcSet}
    {used : Nat} (hsmall : min config.maxRequestGossipOpBytes initiate.maxOpDataBytes < 2 ^ 31)
    (hused : used ≤ min config.maxRequestGossipOpBytes initiate.maxOpDataBytes) :
    ({ announced := initiate.maxOpDataBytes, offered := used } : Tally).Within config
      (some ((acceptState host config peer initiate ourAgents arcSet).spend used)) := by
  have hsolvent : (acceptState host config peer initiate ourAgents arcSet).Solvent :=
    acceptState_solvent hsmall
  have hbudget : (acceptState host config peer initiate ourAgents arcSet).peerMaxOpDataBytes = _ :=
    acceptState_left hsmall
  have hleft := spend_left hsolvent (by omega : (used : Int) ≤ _)
  rw [hbudget] at hleft
  refine ⟨hused, ?_⟩
  intro state hstate
  cases hstate
  refine ⟨fun hwaiting => (by cases hwaiting), ?_, ?_⟩
  · exact fun _ => ⟨by omega, by omega⟩
  · intro _
    simp only [Tally.limit]
    omega

omit [DecidableEq Url] in
/-- As long as nothing has been offered, the new round covers its tally too. -/
theorem within_acceptState_new {initiate : InitiateMessage} {ourAgents : List Bytes}
    {arcSet : ArcSet}
    (hsmall : min config.maxRequestGossipOpBytes initiate.maxOpDataBytes < 2 ^ 31) :
    ({ announced := initiate.maxOpDataBytes, offered := 0 } : Tally).Within config
      (some (acceptState host config peer initiate ourAgents arcSet)) := by
  have hbudget : (acceptState host config peer initiate ourAgents arcSet).peerMaxOpDataBytes = _ :=
    acceptState_left hsmall
  refine ⟨Nat.zero_le _, ?_⟩
  intro state hstate
  cases hstate
  refine ⟨fun hwaiting => (by cases hwaiting), fun _ => acceptState_solvent hsmall, ?_⟩
  intro _
  simp only [Tally.limit]
  omega

theorem acceptInitiate_opened (hhost : host.StoresBy size) {initiate : InitiateMessage}
    (hafford : (Task.admitted peer initiate).Affordable loc host g) :
    Ends (acceptInitiate host peer initiate) g (Opened size peer initiate g) := by
  rcases hafford with ⟨hannounced, hsmall, hafford⟩
  refine ends_call_bind (isCall_setLastGossipTimestamp _) Holding.self
    (fun _ _ hnow => opened_unchanged hnow) ?_
  intro _ g₂ _ hnow
  refine ends_liftK2_bind (fun _ _ => opened_unchanged hnow) ?_
  intro otherArcSet hother
  refine ends_liftK2_bind (fun _ _ => opened_unchanged hnow) ?_
  rintro ⟨ourAgents, ourArcSet⟩ hours
  have harcs : acceptorArcSet host initiate = .ok (ourArcSet.intersection otherArcSet) := by
    unfold acceptorArcSet
    cases hvalue : initiate.arcSet with
    | none =>
        rw [hvalue] at hother
        cases hother
    | some value =>
        rw [hvalue] at hother
        exact bind_eq_ok_iff.mpr ⟨otherArcSet, hother, bind_eq_ok_iff.mpr ⟨_, hours, rfl⟩⟩
  refine ends_createAcceptState_bind (fun _ => opened_unchanged hnow) ?_
  intro state hslot hstate
  rw [hnow.accepted] at hslot
  rw [hnow.config] at hstate
  subst hstate
  -- from here on the round is there, also when a later call fails
  have hnow := hnow.insertAccepted
    (acceptState host g.config peer initiate ourAgents (ourArcSet.intersection otherArcSet))
  have hfails : ∀ {e : K2GossipError} {g' : K2Gossip Url}, Holding peer g g.initiatedRoundState
      (g.acceptedRoundStates.insert peer
        (acceptState host g.config peer initiate ourAgents (ourArcSet.intersection otherArcSet))) g' →
      Opened size peer initiate g (.error e) g' :=
    fun hnow => opened_new hnow (fun _ _ => rfl) hslot (within_acceptState_new hsmall)
  refine ends_liftK2_bind (fun _ _ => hfails hnow) ?_
  intro snapshot _
  refine ends_liftK2_bind (fun _ _ => hfails hnow) ?_
  intro missingAgents _
  refine ends_call_bind (isCall_getRequestNewSince _) hnow (fun _ _ hnow => hfails hnow) ?_
  intro newSince g₃ _ hnow
  refine ends_liftK2_bind (fun _ _ => hfails hnow) ?_
  rintro ⟨newOps, usedBytes, newBookmark⟩ hnewOps
  rcases retrieveNewOpIds_spec hhost hannounced hnewOps with ⟨hexact, hle, hbytes⟩
  have hused : usedBytes ≤ min g.config.maxRequestGossipOpBytes initiate.maxOpDataBytes :=
    le_min (hafford _ _ harcs hbytes) hle
  dsimp only
  rw [ends_writeAccepted_bind_iff, ends_read_bind_iff]
  have hoffer : ({ announced := initiate.maxOpDataBytes, offered := bytesOf size newOps } :
      Tally).Within g.config (some ((acceptState host g.config peer initiate ourAgents
        (ourArcSet.intersection otherArcSet)).spend usedBytes)) := by
    rw [← hexact]
    exact within_acceptState hsmall hused
  exact opened_new (hnow.insertAccepted _) (fun q hq => AList.lookup_insert_ne hq) hslot hoffer

/-! ## Steps that offer nothing -/

/-- Checking the rate of an initiate drops our own initiated round, or no round at all. -/
theorem checkPeerInitiateRate_charged (initiate : InitiateMessage) :
    Ends (checkPeerInitiateRate host peer initiate) g fun _ g' => Charged peer 0 0 g g' := by
  have hburst : Ends (checkBurst host peer) g fun _ g' => Charged peer 0 0 g g' := by
    refine ends_call_bind isCall_checkAccept Holding.self (fun _ _ hnow => hnow.charged) ?_
    intro ok g₁ _ hnow
    cases ok with
    | false => exact hnow.charged
    | true => exact hnow.charged
  unfold checkPeerInitiateRate
  rw [ends_read_bind_iff]
  split
  · split
    · split
      · split
        · exact Holding.self.charged
        · exact (Holding.self.setInitiated none).initiated_removed
      · exact Holding.self.charged
    · exact hburst
  · exact hburst

/-- A round that is initiated now waits for its accept. -/
theorem initiateGossip_waits {sessionId : Bytes} {tieBreaker : Nat} {target : Url} :
    Ends (initiateGossip host sessionId tieBreaker target) g fun _ g' =>
      g'.initiatedRoundState = g.initiatedRoundState ∨
        g.initiatedRoundState = none ∧
          ∃ state, g'.initiatedRoundState = some state ∧ state.stage.isInitiated = true := by
  unfold initiateGossip
  rw [ends_read_bind_iff]
  split
  · exact Or.inl rfl
  rename_i hnone
  refine ends_liftK2_bind (fun _ _ => Or.inl rfl) ?_
  rintro ⟨ourAgents, ourArcSet⟩ _
  have hself : Holding target g g.initiatedRoundState g.acceptedRoundStates g := Holding.self
  refine ends_call_bind (isCall_getRequestNewSince _) hself (fun _ _ h => Or.inl h.initiated) ?_
  intro newSince g₁ _ hnow
  dsimp only
  split
  · exact Or.inl hnow.initiated
  refine ends_call_bind (isCall_setLastGossipTimestamp _) hnow (fun _ _ h => Or.inl h.initiated) ?_
  intro _ g₂ _ hnow
  refine ends_liftK2_bind (fun _ _ => Or.inl hnow.initiated) ?_
  intro _ _
  exact Or.inr ⟨Option.not_isSome_iff_eq_none.mp hnone, _, rfl, rfl⟩

theorem incrPeerTimeout_rounds (peer : Url) : SameRounds g (incrPeerTimeout host peer g) := by
  unfold incrPeerTimeout
  split
  · exact ⟨rfl, rfl⟩
  · exact ⟨rfl, rfl⟩

/-- Rounds that time out are gone, and the others stay as they are. -/
theorem removeTimedOutRounds_rounds (locked : Url → Bool) :
    ((removeTimedOutRounds host locked g).initiatedRoundState = g.initiatedRoundState ∨
      (removeTimedOutRounds host locked g).initiatedRoundState = none) ∧
    ∀ q, (removeTimedOutRounds host locked g).acceptedRoundStates.lookup q =
        g.acceptedRoundStates.lookup q ∨
      (removeTimedOutRounds host locked g).acceptedRoundStates.lookup q = none := by
  have hfold : ∀ (urls : List Url) (g : K2Gossip Url),
      SameRounds g (urls.foldl (fun g url => incrPeerTimeout host url g) g) := by
    intro urls
    induction urls with
    | nil => exact fun g => ⟨rfl, rfl⟩
    | cons url urls ih =>
        intro g
        have hhere : SameRounds g (incrPeerTimeout host url g) := incrPeerTimeout_rounds url
        exact ⟨(ih _).1.trans hhere.1, (ih _).2.trans hhere.2⟩
  -- what is kept of the accepted rounds is the old lookup or nothing
  have hkept : ∀ (stays : Url → GossipRoundState Url → Bool) (rounds : AcceptedRounds Url) (q : Url),
      (retain stays rounds).lookup q = rounds.lookup q ∨ (retain stays rounds).lookup q = none := by
    intro stays rounds q
    rw [lookup_retain]
    cases rounds.lookup q with
    | none => exact Or.inl rfl
    | some state =>
        cases hstays : stays q state with
        | true => exact Or.inl (by simp [Option.filter, hstays])
        | false => exact Or.inr (by simp [Option.filter, hstays])
  unfold removeTimedOutRounds
  cases hinit : g.initiatedRoundState with
  | none => exact ⟨Or.inl ((hfold _ g).1.trans hinit), hkept _ _⟩
  | some state =>
      dsimp only
      split
      · have hcounted : SameRounds g (incrPeerTimeout host state.sessionWithPeer g) :=
          incrPeerTimeout_rounds _
        refine ⟨Or.inr (hfold _ _).1, ?_⟩
        intro q
        have hsame : ((incrPeerTimeout host state.sessionWithPeer g).setInitiated
            none).acceptedRoundStates = g.acceptedRoundStates := hcounted.2
        rw [← hsame]
        exact hkept _ _ q
      · exact ⟨Or.inl ((hfold _ g).1.trans hinit), hkept _ _⟩

/-! ## Balanced tallies -/

/-- Every tally is within its limit, and covered by its round. -/
structure Balanced (config : K2GossipConfig) (initiated : Tally) (accepted : Url → Tally)
    (g : K2Gossip Url) : Prop where
  own : g.config = config
  initiator : initiated.Within config g.initiatedRoundState
  acceptor : ∀ q, (accepted q).Within config (g.acceptedRoundStates.lookup q)

section Balanced

variable {initiated : Tally} {accepted : Url → Tally}

theorem Tally.offer_zero (t : Tally) : t.offer 0 = t := rfl

theorem Balanced.charge {n n' : Nat} (h : Balanced config initiated accepted g)
    (hcharged : Charged peer n n' g g') :
    Balanced config (initiated.offer n)
      (Function.update accepted peer ((accepted peer).offer n')) g' := by
  refine ⟨hcharged.config.trans h.own, h.initiator.charge hcharged.initiated, ?_⟩
  intro q
  by_cases hq : q = peer
  · subst hq
    rw [Function.update_self]
    exact (h.acceptor q).charge hcharged.accepted
  · rw [Function.update_of_ne hq, hcharged.others q hq]
    exact h.acceptor q

/-- A step that takes nothing leaves the tallies balanced. -/
theorem Balanced.free (h : Balanced config initiated accepted g) (hcharged : Charged peer 0 0 g g') :
    Balanced config initiated accepted g' := by
  have hkept := h.charge hcharged
  rw [Tally.offer_zero, Tally.offer_zero, Function.update_eq_self] at hkept
  exact hkept

theorem Balanced.same (h : Balanced config initiated accepted g) (hsame : SameRounds g g')
    (hconfig : g'.config = g.config) : Balanced config initiated accepted g' := by
  refine ⟨hconfig.trans h.own, ?_, ?_⟩
  · rw [hsame.1]
    exact h.initiator
  · intro q
    rw [hsame.2]
    exact h.acceptor q

theorem Balanced.solvent_initiated (h : Balanced config initiated accepted g) :
    ∀ state, g.initiatedRoundState = some state → state.stage.isInitiated = false →
      state.Solvent :=
  fun state hstate hstage => (h.initiator.slot state hstate).solvent hstage

theorem Balanced.solvent_accepted (h : Balanced config initiated accepted g) :
    ∀ state, g.acceptedRoundStates.lookup peer = some state → state.stage.isInitiated = false →
      state.Solvent :=
  fun state hstate hstage => ((h.acceptor peer).slot state hstate).solvent hstage

/-! ## Steps of tasks -/

section Tasks

variable {recorded : Bool}

theorem recordError_config (e : K2GossipError) :
    (g.recordError recorded peer e).config = g.config := by
  unfold K2Gossip.recordError
  split
  · rfl
  · cases e with
    | peerBehavior ctx => rfl
    | k2 fault => rfl

/-- After a part of a handler, recording its error changes no round. -/
theorem next_balanced {α : Type} {part : GossipM Url α} {goesOn : α → K2Gossip Url → Task Url}
    (h : Ends part g fun _ g' => Balanced config initiated accepted g') :
    Balanced config initiated accepted (Task.next recorded peer g part goesOn).2 := by
  rcases hpart : part g with ⟨r, g₁⟩
  have hbalanced := h.of_run hpart
  cases r with
  | ok a =>
      rw [Task.next_ok hpart]
      exact hbalanced
  | error e =>
      rw [Task.next_error hpart]
      exact hbalanced.same (recordError_rounds recorded e) (recordError_config e)

theorem call_balanced {α : Type} (peer : Url) {m : GossipM Url α}
    (h : Balanced config initiated accepted g) (hm : IsCall peer m) :
    Ends m g fun _ g' => Balanced config initiated accepted g' := by
  unfold Ends
  exact h.free (hm g _ _ rfl).1.charged

/-- Any message but an initiate and an accept. -/
theorem received_balanced {msg : GossipMessage} (hopens : msg.opens = 0)
    (haccept : ∀ accept, msg ≠ .accept accept) (h : Balanced config initiated accepted g)
    (hhost : host.StoresBy size) (hafford : (Task.received peer msg).Affordable loc host g) :
    Balanced config
      (if msg.toInitiator then
        initiated.offer (offeredBytes size (respond loc host peer msg g).1) else initiated)
      (if msg.toInitiator then accepted else Function.update accepted peer
        ((accepted peer).offer (offeredBytes size (respond loc host peer msg g).1)))
      ((Task.received peer msg).advance loc host recorded g).2 := by
  rw [Task.advance_received hopens]
  refine next_balanced ?_
  have hcharges := respond_charges hhost hopens haccept h.solvent_initiated
    h.solvent_accepted hafford
  rcases hrun : respond loc host peer msg g with ⟨r, g₁⟩
  have hcharged := hcharges.of_run hrun
  unfold Ends
  rw [hrun]
  dsimp only
  -- the message names the slot that is charged, and the other slot keeps its tally
  cases hrole : msg.toInitiator with
  | true =>
      rw [hrole] at hcharged
      have hkept := h.charge hcharged
      rw [if_pos rfl, if_pos rfl, Tally.offer_zero, Function.update_eq_self] at hkept
      exact hkept
  | false =>
      rw [hrole] at hcharged
      exact h.charge hcharged

/-- An accept message that the round takes sets the tally of its announcement. -/
theorem accept_balanced {accept : AcceptMessage} (h : Balanced config initiated accepted g)
    (hhost : host.StoresBy size)
    (hafford : (Task.received peer (.accept accept)).Affordable loc host g)
    (htakes : Offering.takesAccept g peer accept = true) :
    Balanced config
      { announced := accept.maxOpDataBytes
        offered := initiated.offered +
          offeredBytes size (respond loc host peer (.accept accept) g).1 }
      accepted ((Task.received peer (.accept accept)).advance loc host recorded g).2 := by
  -- the round waits for its accept, so nothing has been offered in it
  have hnothing : initiated.offered = 0 := by
    unfold Offering.takesAccept checkSlot at htakes
    split at htakes
    · rename_i state hstate
      dsimp only at htakes
      cases hvalid : state.validateAccept peer accept with
      | error e =>
          rw [hvalid] at htakes
          cases htakes
      | ok out =>
          refine (h.initiator.slot state hstate).waiting ?_
          rw [validateAccept_stage hvalid]
          rfl
    · cases htakes
  rw [hnothing, Nat.zero_add]
  refine next_balanced ?_
  have hends := respondToAccept_announced hhost hafford htakes
  rcases hrun : respond loc host peer (.accept accept) g with ⟨r, g₁⟩
  have hannounced := hends.of_run hrun
  unfold Ends
  rw [hrun]
  dsimp only
  refine ⟨hannounced.config.trans h.own, ?_, ?_⟩
  · rw [← h.own]
    exact hannounced.within
  · intro q
    rw [hannounced.accepted]
    exact h.acceptor q

/-- An accept message that no round takes is refused. -/
theorem refused_balanced {accept : AcceptMessage} (h : Balanced config initiated accepted g)
    (hrefused : Offering.takesAccept g peer accept = false) :
    Balanced config initiated accepted
      ((Task.received peer (.accept accept)).advance loc host recorded g).2 := by
  refine next_balanced ?_
  refine ends_check_bind (checkInitiated_run _) (fun _ _ => h) ?_
  intro state out hstate hvalid
  unfold Offering.takesAccept checkSlot at hrefused
  rw [hstate] at hrefused
  dsimp only at hrefused
  rw [hvalid] at hrefused
  cases hrefused

/-- The slot of the peer after an initiate was admitted. -/
theorem admitted_balanced {initiate : InitiateMessage} (h : Balanced config initiated accepted g)
    (hhost : host.StoresBy size)
    (hafford : (Task.admitted peer initiate).Affordable loc host g) :
    Balanced config initiated
      (if (g.acceptedRoundStates.lookup peer).isNone &&
          ((acceptInitiate host peer initiate g).2.acceptedRoundStates.lookup peer).isSome then
        Function.update accepted peer
          { announced := initiate.maxOpDataBytes
            offered := offeredBytes size (acceptInitiate host peer initiate g).1 }
      else accepted)
      ((Task.admitted peer initiate).advance loc host recorded g).2 := by
  refine next_balanced ?_
  have hends := acceptInitiate_opened hhost hafford
  rcases hrun : acceptInitiate host peer initiate g with ⟨r, g₁⟩
  have hopened := hends.of_run hrun
  unfold Ends
  rw [hrun]
  dsimp only
  refine ⟨hopened.config.trans h.own, ?_, ?_⟩
  · rw [hopened.initiated]
    exact h.initiator
  intro q
  by_cases hq : q = peer
  · subst hq
    rcases hopened.slot with hsame | ⟨hnone, hwithin⟩
    · -- the slot is as it was, so no round has begun
      rw [if_neg, hsame]
      · exact h.acceptor q
      · rw [hsame]
        cases g.acceptedRoundStates.lookup q with
        | none => exact fun h => absurd h Bool.false_ne_true
        | some state => exact fun h => absurd h Bool.false_ne_true
    · cases hslot : g₁.acceptedRoundStates.lookup q with
      | none =>
          rw [if_neg]
          · exact Tally.Within.none (h.acceptor q).offered
          · simp
      | some state =>
          rw [hnone, if_pos, Function.update_self, ← hslot, ← h.own]
          · exact hwithin
          · rfl
  · rw [hopened.others q hq]
    split
    · rw [Function.update_of_ne hq]
      exact h.acceptor q
    · exact h.acceptor q

/-- Every step of a task keeps the tallies balanced. -/
theorem book_balanced {s : Offering Url} {t : Task Url}
    (h : Balanced config s.initiated s.accepted s.running.g) (hhost : host.StoresBy size)
    (hafford : t.Affordable loc host s.running.g) :
    Balanced config (s.book size loc host t).initiated (s.book size loc host t).accepted
      (t.advance loc host recorded s.running.g).2 := by
  cases t with
  | received peer msg =>
      cases msg with
      | initiate m =>
          refine next_balanced ?_
          have hends : Ends (checkPeerInitiateRate host peer m) s.running.g fun _ g' =>
              Charged peer 0 0 s.running.g g' := checkPeerInitiateRate_charged m
          unfold Ends at hends ⊢
          exact h.free hends
      | accept m =>
          cases htakes : Offering.takesAccept s.running.g peer m with
          -- only a taken Accept opens a budget on this side
          | true =>
              simp only [Offering.book, htakes, if_true]
              exact accept_balanced h hhost hafford htakes
          | false =>
              simp only [Offering.book, htakes, Bool.false_eq_true, if_false]
              exact refused_balanced h htakes
      | noDiff m => exact received_balanced rfl (by nofun) h hhost hafford
      | discSectorsDiff m => exact received_balanced rfl (by nofun) h hhost hafford
      | discSectorDetailsDiff m => exact received_balanced rfl (by nofun) h hhost hafford
      | discSectorDetailsDiffResponse m => exact received_balanced rfl (by nofun) h hhost hafford
      | ringSectorDetailsDiff m => exact received_balanced rfl (by nofun) h hhost hafford
      | ringSectorDetailsDiffResponse m => exact received_balanced rfl (by nofun) h hhost hafford
      | hashes m => exact received_balanced rfl (by nofun) h hhost hafford
      | agents m => exact received_balanced rfl (by nofun) h hhost hafford
      | busy m => exact received_balanced rfl (by nofun) h hhost hafford
      | terminate m => exact received_balanced rfl (by nofun) h hhost hafford
  | rated peer m => exact next_balanced (call_balanced peer h (refuseIfBusy_isCall m))
  | admitted peer m =>
      have hbalanced : Balanced config _ _ ((Task.admitted peer m).advance loc host recorded _).2 :=
        admitted_balanced h hhost hafford
      simp only [Offering.book]
      split
      · rename_i hopens
        rw [if_pos hopens] at hbalanced
        exact hbalanced
      · rename_i hopens
        rw [if_neg hopens] at hbalanced
        exact hbalanced
  | answered peer res finished => exact next_balanced (call_balanced peer h isCall_sendAnswer)
  | counting peer => exact next_balanced (call_balanced peer h (isCall_liftK2 _))
  | writing peer seen =>
      refine next_balanced (ends_liftK2_bind (fun _ _ => h) fun _ _ => ?_)
      exact h.same ⟨rfl, rfl⟩ rfl
  | done => exact h

/-! ## Exact operations -/

/-- The operations of a computation fit, if they do where it gets to. -/
theorem computesOf_fit {ε : Type} {x : Except ε (List Computed)}
    (h : ∀ l, x = .ok l → ∀ c ∈ l, c.Fits) : ∀ c ∈ computesOf x, c.Fits := by
  cases x with
  | error e => exact fun c hc => by cases hc
  | ok l => exact h l rfl

omit [DecidableEq Url] in
theorem checkSlot_ok {α : Type} {kind : MessageKind} {slot : Option (GossipRoundState Url)}
    {validate : GossipRoundState Url → Except K2GossipError α} {state : GossipRoundState Url}
    {out : α} (h : checkSlot kind slot validate = .ok (state, out)) :
    slot = some state ∧ validate state = .ok out := by
  unfold checkSlot at h
  split at h
  · rename_i found
    cases hvalid : validate found with
    | error e =>
        rw [hvalid] at h
        cases h
    | ok out' =>
        rw [hvalid] at h
        cases h
        exact ⟨rfl, hvalid⟩
  · cases h

theorem acceptorComputes_fit {initiate : InitiateMessage} {arcSet : ArcSet}
    (hhost : host.StoresBy size)
    (hafford : (Task.admitted peer initiate).Affordable loc host g)
    (harcs : acceptorArcSet host initiate = .ok arcSet) :
    ∀ c ∈ acceptorComputes host g.config initiate arcSet, c.Fits := by
  rcases hafford with ⟨hannounced, hsmall, hafford⟩
  have hlimit : toI32 (min g.config.maxRequestGossipOpBytes initiate.maxOpDataBytes : Nat) =
      (min g.config.maxRequestGossipOpBytes initiate.maxOpDataBytes : Nat) :=
    toI32_of_fits (by omega) (by omega)
  intro c hc
  -- the cast of the limit, the sums over the new ops and what is left after them
  rcases List.mem_cons.mp hc with rfl | hc
  · exact ⟨by omega, by omega⟩
  rcases List.mem_append.mp hc with hc | hc
  · exact newOpsComputes_fit hhost hannounced _ _ (Nat.zero_le _) c hc
  · cases hnewOps : retrieveNewOpIds host arcSet initiate.newSince initiate.maxOpDataBytes with
    | error fault =>
        rw [hnewOps] at hc
        cases hc
    | ok out =>
        rcases out with ⟨opIds, used, bookmark⟩
        rw [hnewOps, hlimit] at hc
        rcases retrieveNewOpIds_spec hhost hannounced hnewOps with ⟨_, hle, hbytes⟩
        have hused : used ≤ min g.config.maxRequestGossipOpBytes initiate.maxOpDataBytes :=
          le_min (hafford _ _ harcs hbytes) hle
        have hc : c ∈ spendComputes
            (min g.config.maxRequestGossipOpBytes initiate.maxOpDataBytes : Nat) used := hc
        exact spendComputes_fit (by omega) (by omega) c hc

theorem initiatorComputes_fit {accept : AcceptMessage} {state : GossipRoundState Url}
    {initiated : InitiatedStage} {arcSet : ArcSet} (hhost : host.StoresBy size)
    (hafford : (Task.received peer (.accept accept)).Affordable loc host g)
    (hstate : g.initiatedRoundState = some state)
    (hvalid : state.validateAccept peer accept = .ok initiated)
    (harcs : initiatorArcSet initiated.ourArcSet accept = .ok arcSet) :
    ∀ c ∈ initiatorComputes host g.config accept arcSet, c.Fits := by
  intro c hc
  -- the sums over the new ops and what is left after them
  rcases List.mem_append.mp hc with hc | hc
  · exact newOpsComputes_fit hhost hafford.1 _ _ (Nat.zero_le _) c hc
  · cases hnewOps : retrieveNewOpIds host arcSet accept.newSince accept.maxOpDataBytes with
    | error fault =>
        rw [hnewOps] at hc
        cases hc
    | ok out =>
        rcases out with ⟨opIds, used, bookmark⟩
        rw [hnewOps] at hc
        have hfits := (acceptFits hhost hafford hstate (validateAccept_stage hvalid) harcs
          hnewOps).2
        have hannounced := hfits.announced
        have hwithin := hfits.within
        have hsmall := hfits.small
        have hmin : min g.config.maxRequestGossipOpBytes accept.maxOpDataBytes < 2 ^ 32 :=
          lt_of_le_of_lt (Nat.min_le_right _ _) hannounced
        simp only [Except.map, computesOf, subU32_of_le hmin hwithin, List.mem_cons,
          List.not_mem_nil, or_false] at hc
        rcases hc with rfl | rfl
        · exact ⟨by omega, by omega⟩
        · exact ⟨by omega, by omega⟩

/-- No operation on a budget leaves its type in an affordable step. -/
theorem computes_fit {t : Task Url} (h : Balanced config initiated accepted g)
    (hhost : host.StoresBy size) (hafford : t.Affordable loc host g) :
    ∀ c ∈ t.computes loc host g, c.Fits := by
  -- a detailed comparison is paid from a round that is open
  have hsnapshot : ∀ {ε : Type} {x : Except ε DhtSnapshot} {previous : Option DhtSnapshot}
      {arcSet : ArcSet} {state : GossipRoundState Url} {l : List Computed}, CanPay loc host state →
      (x >>= fun theirSnapshot => pure (snapshotComputes loc host theirSnapshot
        previous arcSet state.peerMaxOpDataBytes)) = .ok l → ∀ c ∈ l, c.Fits := by
    intro ε x previous arcSet state l hpay hl
    rcases bind_eq_ok_iff.mp hl with ⟨theirSnapshot, _, hl⟩
    cases hl
    exact hpay.exact hhost
  unfold Task.computes
  split
  · refine computesOf_fit fun l hl => ?_
    cases harcs : acceptorArcSet host _ with
    | error fault =>
        rw [harcs] at hl
        cases hl
    | ok arcSet =>
        rw [harcs] at hl
        cases hl
        exact acceptorComputes_fit hhost hafford harcs
  · refine computesOf_fit fun l hl => ?_
    rcases bind_eq_ok_iff.mp hl with ⟨⟨state, initiated⟩, hslot, hl⟩
    rcases checkSlot_ok hslot with ⟨hstate, hvalid⟩
    rcases bind_eq_ok_iff.mp hl with ⟨arcSet, harcs, hl⟩
    cases hl
    cases hcommon : initiatorArcSet initiated.ourArcSet _ with
    | error fault =>
        rw [hcommon] at harcs
        cases harcs
    | ok arcSet' =>
        rw [hcommon] at harcs
        cases harcs
        exact initiatorComputes_fit hhost hafford hstate hvalid hcommon
  · refine computesOf_fit fun l hl => ?_
    rcases bind_eq_ok_iff.mp hl with ⟨⟨state, commonArcSet, snapshot⟩, hslot, hl⟩
    rcases checkSlot_ok hslot with ⟨hstate, hvalid⟩
    have hpay : CanPay loc host state :=
      ⟨h.solvent_initiated state hstate (isInitiated_of_validates (.discSectorDetailsDiff _) ⟨_, hvalid⟩),
        hafford state hstate⟩
    exact hsnapshot hpay hl
  · refine computesOf_fit fun l hl => ?_
    rcases bind_eq_ok_iff.mp hl with ⟨⟨state, details, snapshot⟩, hslot, hl⟩
    rcases checkSlot_ok hslot with ⟨hstate, hvalid⟩
    have hpay : CanPay loc host state :=
      ⟨h.solvent_accepted state hstate (isInitiated_of_validates (.discSectorDetailsDiffResponse _) ⟨_, hvalid⟩),
        hafford state hstate⟩
    exact hsnapshot hpay hl
  · refine computesOf_fit fun l hl => ?_
    rcases bind_eq_ok_iff.mp hl with ⟨⟨state, details, response, snapshot⟩, hslot, hl⟩
    rcases checkSlot_ok hslot with ⟨hstate, hvalid⟩
    have hpay : CanPay loc host state :=
      ⟨h.solvent_accepted state hstate (isInitiated_of_validates (.ringSectorDetailsDiff _) ⟨_, hvalid⟩),
        hafford state hstate⟩
    exact hsnapshot hpay hl
  · refine computesOf_fit fun l hl => ?_
    rcases bind_eq_ok_iff.mp hl with ⟨⟨state, details, snapshot⟩, hslot, hl⟩
    rcases checkSlot_ok hslot with ⟨hstate, hvalid⟩
    have hpay : CanPay loc host state :=
      ⟨h.solvent_initiated state hstate (isInitiated_of_validates (.ringSectorDetailsDiffResponse _) ⟨_, hvalid⟩),
        hafford state hstate⟩
    exact hsnapshot hpay hl
  · exact fun c hc => by cases hc

end Tasks

end Balanced

/-! ## Whole runs -/

namespace Offering

/-- The tallies of a node are within their limits, and covered by its rounds. -/
def WithinBudget (config : K2GossipConfig) (s : Offering Url) : Prop :=
  Balanced config s.initiated s.accepted s.running.g

theorem start_withinBudget : (start config : Offering Url).WithinBudget config :=
  ⟨rfl, Tally.Within.none (Nat.zero_le _), fun _ => Tally.Within.none (Nat.zero_le _)⟩

/-- An initiated round begins with an empty tally. -/
theorem WithinBudget.initiate {s : Offering Url} (h : s.WithinBudget config) (host : Host)
    (sessionId : Bytes) (tieBreaker : Nat) (target : Url) :
    (s.step size loc (.initiate host sessionId tieBreaker target)).WithinBudget config := by
  rcases hrun : initiateGossip host sessionId tieBreaker target s.running.g with ⟨r, g'⟩
  have hhold := initiateGossip_holding.of_run hrun
  have hwaits := initiateGossip_waits.of_run hrun
  unfold WithinBudget
  simp only [step, Running.step, hrun]
  refine ⟨hhold.config.trans h.own, ?_, ?_⟩
  · rcases hwaits with hsame | ⟨hnone, state, hstate, hstage⟩
    · -- no round begins
      rw [if_neg, hsame]
      · exact h.initiator
      · rw [hsame]
        cases s.running.g.initiatedRoundState with
        | none => exact fun h => absurd h Bool.false_ne_true
        | some state => exact fun h => absurd h Bool.false_ne_true
    · rw [if_pos, hstate]
      · exact within_waiting hstage
      · rw [hnone, hstate]
        rfl
  · intro q
    rw [hhold.accepted]
    exact h.acceptor q

/-- Rounds that time out leave their tallies as they are. -/
theorem WithinBudget.timeout {s : Offering Url} (h : s.WithinBudget config) (host : Host)
    (locked : Url → Bool) : (s.step size loc (.timeout host locked)).WithinBudget config := by
  rcases (removeTimedOutRounds_rounds locked :
    _ ∧ ∀ q, (removeTimedOutRounds host locked s.running.g).acceptedRoundStates.lookup q = _ ∨ _)
    with ⟨hinitiated, haccepted⟩
  refine ⟨(removeTimedOutRounds_within locked).config.trans h.own, ?_, ?_⟩
  · rcases hinitiated with hsame | hnone
    · have hkept := h.initiator
      rw [← hsame] at hkept
      exact hkept
    · have hkept : s.initiated.Within config (none : Option (GossipRoundState Url)) :=
        Tally.Within.none h.initiator.offered
      rw [← hnone] at hkept
      exact hkept
  · intro q
    rcases haccepted q with hsame | hnone
    · have hkept := h.acceptor q
      rw [← hsame] at hkept
      exact hkept
    · have hkept : (s.accepted q).Within config (none : Option (GossipRoundState Url)) :=
        Tally.Within.none (h.acceptor q).offered
      rw [← hnone] at hkept
      exact hkept

/-- An affordable event keeps the tallies within their limits, and its operations fit. -/
theorem step_withinBudget {s : Offering Url} {e : Event Url} (h : s.WithinBudget config)
    (hstores : e.StoresBy size) (hafford : s.Affordable loc e) :
    (s.step size loc e).WithinBudget config ∧ s.Exact loc e := by
  cases e with
  | receive peer msg => exact ⟨h, trivial⟩
  | initiate host sessionId tieBreaker target =>
      exact ⟨h.initiate host sessionId tieBreaker target, trivial⟩
  | timeout host locked => exact ⟨h.timeout host locked, trivial⟩
  | advance i host recorded =>
      refine ⟨?_, fun t ht => computes_fit h hstores (hafford t ht)⟩
      cases ht : s.running.tasks[i]? with
      | none =>
          simp only [step, ht]
          exact h
      | some t =>
          simp only [step, ht, WithinBudget, Running.step]
          exact book_balanced h hstores (hafford t ht)

/-- In every run whose steps are affordable, no round is offered more op data than the smaller of the
node's own limit and what the peer has announced, and no operation on a budget leaves its type. -/
theorem offers_within_budget (size : Bytes → Nat) (loc : LocCb) (config : K2GossipConfig)
    (events : List (Event Url)) (hstores : ∀ e ∈ events, e.StoresBy size)
    (hafford : Along (step size loc) (Affordable loc) (start config) events) :
    let s := run size loc config events
    s.initiated.offered ≤ min config.maxRequestGossipOpBytes s.initiated.announced ∧
      (∀ peer, (s.accepted peer).offered ≤
        min config.maxRequestGossipOpBytes (s.accepted peer).announced) ∧
      Along (step size loc) (Exact loc) (start config) events := by
  intro s
  have hrun : WithinBudget config s ∧ Along (step size loc) (Exact loc) (start config) events :=
    hafford.strengthen start_withinBudget fun s e he h hcond =>
      step_withinBudget h (hstores e he) hcond
  exact ⟨hrun.1.initiator.offered, fun peer => (hrun.1.acceptor peer).offered, hrun.2⟩

/-! ## A store with one new op -/

/-- The node has sector 0, and its op store one new op of fifty bytes. -/
def newOpHost : Host :=
  { quietHost (fun _ => 0) 1000000 with
    localAgents := .ok [([3], sectorArc 0)]
    retrieveOpIdsBounded := fun _ _ limit =>
      if 50 ≤ limit then .ok ([[9]], 50, 1000000) else .ok ([], 0, 0) }

/-- An accept message for sector 0. -/
def newOpAccept (maxOpDataBytes : Nat) : AcceptMessage where
  sessionId := [1]
  participatingAgents := []
  arcSet := some (⟨{0}, ArcSet.zero_bounded⟩ : ArcSet).encode
  missingAgents := []
  newSince := 0
  maxOpDataBytes := maxOpDataBytes
  newOps := []
  updatedNewSince := 0
  dhtOpCount := none
  snapshot := none

/-- The node initiates with peer 7, which accepts and takes this much. -/
def acceptedOnce (maxOpDataBytes : Nat) : List (Event Nat) :=
  [.initiate newOpHost [1] 5 7, .receive 7 (.accept (newOpAccept maxOpDataBytes)),
    .advance 0 newOpHost true]

def ownLimit (limit : Nat) : K2GossipConfig :=
  { limitedConfig 10 with maxRequestGossipOpBytes := limit }

/-- The DHT of a quiet node has no ops. -/
theorem quietHost_sizedBy (size : Bytes → Nat) (loc : LocCb) (now : Int) (hnow : 0 ≤ now)
    (hfits : now ≤ i64Max) : (quietHost loc now).dht.store.SizedBy size := by
  have hstart : DhtState.StartStore 0 now OpStore.empty :=
    ⟨rfl, fun _ => rfl, nofun, List.nodup_nil⟩
  have hnone : (quietHost loc now).dht.store.opList = [] := by
    unfold quietHost
    dsimp only
    cases hbuild : DhtState.tryFromStore loc now OpStore.empty with
    | error fault => rfl
    | ok dht => exact (DhtState.accurate_of_rebuildable hnow hfits hstart.rebuildable hbuild).2.1
  intro op hop
  rw [hnone] at hop
  cases hop

theorem newOpHost_storesBy : newOpHost.StoresBy fun _ => 50 := by
  refine ⟨?_, ?_⟩
  · intro arc start limit opIds used bookmark h
    by_cases hlimit : 50 ≤ limit
    · rw [show newOpHost.retrieveOpIdsBounded arc start limit = .ok ([[9]], 50, 1000000) from
        if_pos hlimit] at h
      rcases Prod.mk.inj (Except.ok.inj h) with ⟨rfl, hrest⟩
      rcases Prod.mk.inj hrest with ⟨rfl, _⟩
      exact ⟨by decide, hlimit⟩
    · rw [show newOpHost.retrieveOpIdsBounded arc start limit = .ok ([], 0, 0) from
        if_neg hlimit] at h
      rcases Prod.mk.inj (Except.ok.inj h) with ⟨rfl, hrest⟩
      rcases Prod.mk.inj hrest with ⟨rfl, _⟩
      exact ⟨by decide, Nat.zero_le _⟩
  · unfold newOpHost
    dsimp only
    exact quietHost_sizedBy _ _ _ (by decide) (by decide)

theorem acceptedOnce_storesBy (maxOpDataBytes : Nat) :
    ∀ e ∈ acceptedOnce maxOpDataBytes, e.StoresBy fun _ => 50 := by
  intro e he
  simp only [acceptedOnce, List.mem_cons, List.not_mem_nil, or_false] at he
  rcases he with rfl | rfl | rfl
  · trivial
  · trivial
  · exact newOpHost_storesBy

/-- The peer takes less than the node's own limit, and is offered the new op. -/
theorem acceptedOnce_within_budget :
    (run (fun _ => 50) (fun _ => 0) (ownLimit 100) (acceptedOnce 60)).initiated = ⟨60, 50⟩ ∧
      (run (fun _ => 50) (fun _ => 0) (ownLimit 100) (acceptedOnce 60)).initiated.offered ≤
        min (ownLimit 100).maxRequestGossipOpBytes
          (run (fun _ => 50) (fun _ => 0) (ownLimit 100) (acceptedOnce 60)).initiated.announced := by
  refine ⟨by decide +kernel, ?_⟩
  refine (offers_within_budget (fun _ => 50) (fun _ => 0) (ownLimit 100) (acceptedOnce 60)
    (acceptedOnce_storesBy 60) ⟨trivial, trivial, ?_, trivial⟩).1
  intro t ht
  cases ht
  refine ⟨by decide, ?_⟩
  intro state ourAgents ourArcSet tieBreaker arcSet used _ _ _ hused
  have hle : used ≤ 60 := newOpBytes_le newOpHost_storesBy _ _ _ hused
  have hfits : used ≤ 100 ∧ min 100 60 < 2 ^ 31 + used := ⟨by omega, by omega⟩
  exact hfits

/-- The peer takes more than the node's own limit, and is offered more than that; what is left of the
budget is no number of `u32`. -/
theorem acceptedOnce_beyond_limit :
    (∀ e ∈ acceptedOnce 100, e.StoresBy fun _ => 50) ∧
      ¬ (run (fun _ => 50) (fun _ => 0) (ownLimit 10) (acceptedOnce 100)).initiated.offered ≤
        min (ownLimit 10).maxRequestGossipOpBytes
          (run (fun _ => 50) (fun _ => 0) (ownLimit 10) (acceptedOnce 100)).initiated.announced ∧
      ¬ ∀ c ∈ (Task.received 7 (.accept (newOpAccept 100))).computes (fun _ => 0) newOpHost
          (run (fun _ => 50) (fun _ => 0) (ownLimit 10) ((acceptedOnce 100).take 2)).running.g,
        c.Fits := by
  refine ⟨acceptedOnce_storesBy 100, ?_, ?_⟩
  · decide +kernel
  · decide +kernel

end Offering

end Gossip
end Kitsune2
