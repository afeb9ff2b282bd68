import Kitsune2.Gossip.Tasks

/-!
# Crossing — two nodes that initiate with each other at the same time

Each of two nodes has sent an initiate to the other before the other's arrived.  The node with the
larger tie-breaker drops the initiate it gets; the other one drops its own round and accepts.  This
holds in every order in which the messages are delivered, and whatever other peers send in between.
-/

namespace Kitsune2
namespace Gossip

open Api Lib Dht

variable {Url : Type} [DecidableEq Url] {loc : LocCb} {host : Host} {recorded : Bool} {peer : Url}
  {g g' g₁ : K2Gossip Url}

/-! ## A host whose stores answer -/

/-- The stores, the DHT and the transport answer every call. -/
structure Host.Healthy (host : Host) : Prop where
  call : ∀ c, host.call c = .ok ()
  agents : ∃ agents arcSet, localAgentState host = .ok (agents, arcSet)
  peerStore : ∀ agent, ∃ info, host.peerStoreGet agent = .ok info
  opStore : ∀ arc newSince limit, ∃ found, host.retrieveOpIdsBounded arc newSince limit = .ok found
  snapshot : ∀ agents arcSet other, localAgentState host = .ok (agents, arcSet) →
    ∃ message, minimalSnapshotMessage host (arcSet.intersection other) = .ok message

/-- Agents are asked for only if they were announced. -/
theorem filterKnownAgents_ok (hhost : host.Healthy) (agents : List Bytes) :
    ∃ missing, filterKnownAgents host agents = .ok missing ∧ ∀ a ∈ missing, a ∈ agents := by
  have hloop : ∃ missing, filterKnownAgents host agents = .ok missing ∧
      ∀ a ∈ missing, a ∈ ([] : List Bytes) ∨ a ∈ agents := by
    refine foldlM_ok (I := fun out => ∀ a ∈ out, a ∈ ([] : List Bytes) ∨ a ∈ agents) agents []
      (fun a ha => Or.inl ha) ?_
    intro out agent hagent hout
    rcases hhost.peerStore agent with ⟨info, hinfo⟩
    rw [hinfo]
    refine ⟨_, rfl, ?_⟩
    intro a ha
    split at ha
    · rcases List.mem_append.mp ha with ha | ha
      · exact hout a ha
      · exact Or.inr (List.mem_singleton.mp ha ▸ hagent)
    · exact hout a ha
  rcases hloop with ⟨missing, hok, hmem⟩
  exact ⟨missing, hok, fun a ha => (hmem a ha).resolve_left List.not_mem_nil⟩

theorem retrieveNewOpIds_ok (hhost : host.Healthy) (commonArcSet : ArcSet) (newSince : Int)
    (maxNewBytes : Nat) :
    ∃ found, retrieveNewOpIds host commonArcSet newSince maxNewBytes = .ok found := by
  have hloop : ∃ found, retrieveNewOpIds host commonArcSet newSince maxNewBytes = .ok found ∧ True := by
    refine foldlM_ok (I := fun _ => True) _ _ trivial ?_
    rintro ⟨sendNewOps, usedBytes, bookmark⟩ arc _ _
    rcases hhost.opStore arc newSince (subU32 maxNewBytes usedBytes) with ⟨⟨ops, used, mark⟩, hfound⟩
    dsimp only
    rw [hfound]
    exact ⟨_, rfl, trivial⟩
  rcases hloop with ⟨found, hok, _⟩
  exact ⟨found, hok⟩

section Healthy

variable {α β : Type} {Q : Except K2GossipError β → K2Gossip Url → Prop}
  {initiated : Option (GossipRoundState Url)} {accepted : AcceptedRounds Url}

omit [DecidableEq Url] in
/-- A call that succeeds, in front of the rest of a handler. -/
theorem ends_call_bind_ok {m : GossipM Url α} {f : α → GossipM Url β} (hm : IsCall peer m)
    (hok : ∃ a g₂, m g₁ = (.ok a, g₂)) (hnow : Holding peer g initiated accepted g₁)
    (hnext : ∀ a g₂, Holding peer g initiated accepted g₂ → Ends (f a) g₂ Q) :
    Ends (m >>= f) g₁ Q := by
  rcases hok with ⟨a, g₂, hok⟩
  have hhold := hnow.trans (hm g₁ _ g₂ hok).1
  refine ends_bind ?_ ?_
  · intro e g₃ he
    rw [hok] at he
    cases he
  · intro a' g₃ ha'
    rw [hok] at ha'
    cases ha'
    exact hnext a g₂ hhold

omit [DecidableEq Url] in
theorem ends_liftK2_bind_ok {x : Except Fault α} {a : α} {f : α → GossipM Url β} (hx : x = .ok a)
    (hnext : Ends (f a) g Q) : Ends (liftK2 x >>= f) g Q := by
  rw [hx]
  exact hnext

theorem recordDhtOpCount_ok (hhost : host.Healthy) (count : Option Nat) (g : K2Gossip Url) :
    ∃ g', recordDhtOpCount host peer count g = (.ok (), g') := by
  cases count with
  | none => exact ⟨g, rfl⟩
  | some n => exact ⟨_, putMeta_ok (hhost.call _)⟩

omit [DecidableEq Url] in
theorem getRequestNewSince_ok (hhost : host.Healthy) (peer : Url) (g : K2Gossip Url) :
    ∃ since, getRequestNewSince host peer g = (.ok since, g) := by
  have hbookmark : newOpsBookmark host peer g = (.ok (g.peerMeta peer).newOpsBookmark, g) := by
    have hbind : newOpsBookmark host peer g = (liftK2 (host.call .newOpsBookmark) >>= fun _ =>
        (do
          let g ← Eff.read
          pure (g.peerMeta peer).newOpsBookmark : GossipM Url (Option Int))) g := rfl
    rw [hbind, bind_run, liftK2_ok (hhost.call _)]
    rfl
  have hbind : getRequestNewSince host peer g = (newOpsBookmark host peer >>= fun bookmark =>
      (pure (bookmark.getD (host.now - 2 * unitTime)) : GossipM Url Int)) g := rfl
  rw [hbind, bind_run, hbookmark]
  exact ⟨_, rfl⟩

end Healthy

/-! ## The two handlers of the crossing -/

/-- A node that has sent an initiate to a peer and waits for the answer. -/
structure Awaits (target : Url) (m : InitiateMessage) (state : GossipRoundState Url)
    (g : K2Gossip Url) : Prop where
  initiated : g.initiatedRoundState = some state
  peer : state.sessionWithPeer = target
  session : state.sessionId = m.sessionId
  stage : ∃ arcSet, state.stage = .initiated m.participatingAgents arcSet m.tieBreaker
  slot : g.acceptedRoundStates.lookup target = none

/-- The rate check of an initiate that crosses ours. -/
theorem checkPeerInitiateRate_tie {m : InitiateMessage} {state : GossipRoundState Url}
    (h : Awaits peer m state g) (host : Host) (m' : InitiateMessage) :
    checkPeerInitiateRate host peer m' g =
      if m.tieBreaker > m'.tieBreaker then (.ok false, g) else (.ok true, g.setInitiated none) := by
  rcases h.stage with ⟨arcSet, hstage⟩
  unfold checkPeerInitiateRate
  rw [(returns_read_iff.mpr ⟨rfl, rfl⟩).bind_run, h.initiated]
  dsimp only
  rw [if_pos h.peer, hstage]
  dsimp only
  split
  · rfl
  · rfl

/-- The handler of an initiate, after its rate check. -/
theorem respond_initiate_run {m : InitiateMessage} {ok : Bool}
    (hrate : checkPeerInitiateRate host peer m g = (.ok ok, g₁)) :
    respond loc host peer (.initiate m) g =
      (if !ok then pure none else refuseIfBusy host peer m >>= fun busy =>
        match busy with
        | some busy => pure (some busy)
        | none => acceptInitiate host peer m : GossipM Url (Option GossipMessage)) g₁ := by
  have hbind : respond loc host peer (.initiate m) g =
      (checkPeerInitiateRate host peer m >>= fun ok =>
        if !ok then pure none else refuseIfBusy host peer m >>= fun busy =>
          match busy with
          | some busy => pure (some busy)
          | none => acceptInitiate host peer m) g := rfl
  rw [hbind, bind_run, hrate]

/-- The node with the larger tie-breaker drops the initiate. -/
theorem winner_drops {m m' : InitiateMessage} {state : GossipRoundState Url}
    (h : Awaits peer m state g) (htie : m'.tieBreaker < m.tieBreaker) :
    respond loc host peer (.initiate m') g = (.ok none, g) := by
  have hrate := checkPeerInitiateRate_tie h host m'
  rw [if_pos htie] at hrate
  rw [respond_initiate_run hrate]
  rfl

/-- What the loser's accept says. -/
structure AcceptsSession (m : InitiateMessage) (accept : AcceptMessage) : Prop where
  session : accept.sessionId = m.sessionId
  missing : ∀ a ∈ accept.missingAgents, a ∈ m.participatingAgents

/-- What is left by accepting: the accept, and the round that it belongs to. -/
structure Accepts (peer : Url) (m : InitiateMessage) (otherArcSet : ArcSet) (g : K2Gossip Url)
    (initiated : Option (GossipRoundState Url)) (g' : K2Gossip Url) (accept : AcceptMessage) :
    Prop where
  accepts : AcceptsSession m accept
  round : ∃ (ourArcSet : ArcSet) (state : GossipRoundState Url) (rounds : AcceptedRounds Url),
    accept.arcSet = some ourArcSet.encode ∧
    state.sessionWithPeer = peer ∧ state.sessionId = m.sessionId ∧
    state.stage = .accepted accept.participatingAgents (ourArcSet.intersection otherArcSet) ∧
    Holding peer g initiated (rounds.insert peer state) g'

/-- The rest of an accept, when the stores answer and there is no round with the peer yet. -/
theorem acceptInitiate_accepts (hhost : host.Healthy) {m : InitiateMessage} {value : List Nat}
    {otherArcSet : ArcSet} {initiated : Option (GossipRoundState Url)}
    (hnow : Holding peer g initiated g.acceptedRoundStates g₁)
    (hslot : g.acceptedRoundStates.lookup peer = none)
    (hvalue : m.arcSet = some value) (hdecode : ArcSet.decode value = .ok otherArcSet) :
    Ends (acceptInitiate host peer m) g₁ fun r g' =>
      ∃ accept, r = .ok (some (.accept accept)) ∧ Accepts peer m otherArcSet g initiated g' accept := by
  rcases hhost.agents with ⟨ourAgents, ourArcSet, hagents⟩
  refine ends_call_bind_ok (isCall_setLastGossipTimestamp _) ⟨(), _, putMeta_ok (hhost.call _)⟩ hnow ?_
  intro _ g₂ hnow
  rw [hvalue]
  refine ends_liftK2_bind_ok hdecode (ends_liftK2_bind_ok hagents ?_)
  dsimp only
  -- the round is new
  have hslot₂ : g₂.acceptedRoundStates.lookup peer = none := hnow.accepted ▸ hslot
  refine ends_bind ?_ ?_
  · intro e g₃ he
    rw [createAcceptState_none hslot₂] at he
    cases he
  intro state g₃ hstate
  rw [createAcceptState_none hslot₂] at hstate
  cases hstate
  have hnow := hnow.insertAccepted (acceptState host g₂.config peer m ourAgents
    (ourArcSet.intersection otherArcSet))
  rcases hhost.snapshot ourAgents ourArcSet otherArcSet hagents with ⟨snapshot, hsnapshot⟩
  rcases filterKnownAgents_ok hhost m.participatingAgents with ⟨missing, hmissing, hannounced⟩
  refine ends_liftK2_bind_ok hsnapshot (ends_liftK2_bind_ok hmissing ?_)
  rcases getRequestNewSince_ok hhost peer
    (g₂.setAccepted (g₂.acceptedRoundStates.insert peer
      (acceptState host g₂.config peer m ourAgents (ourArcSet.intersection otherArcSet))))
    with ⟨since, hsince⟩
  refine ends_call_bind_ok (isCall_getRequestNewSince _) ⟨since, _, hsince⟩ hnow ?_
  intro newSince g₄ hnow
  rcases retrieveNewOpIds_ok hhost (ourArcSet.intersection otherArcSet) m.newSince m.maxOpDataBytes
    with ⟨⟨newOps, usedBytes, newBookmark⟩, hfound⟩
  refine ends_liftK2_bind_ok hfound ?_
  dsimp only
  rw [ends_writeAccepted_bind_iff, ends_read_bind_iff]
  exact ⟨_, rfl, ⟨rfl, hannounced⟩, ourArcSet, _, _, rfl, rfl, rfl, rfl, hnow.insertAccepted _⟩

/-- The node with the smaller tie-breaker drops its own round and accepts. -/
theorem loser_accepts (hhost : host.Healthy) {m m' : InitiateMessage}
    {state : GossipRoundState Url} (h : Awaits peer m state g) (htie : m.tieBreaker < m'.tieBreaker)
    (hroom : g.isBusy = false)
    (harc : ∃ value arcSet, m'.arcSet = some value ∧ ArcSet.decode value = .ok arcSet) :
    ∃ accept g', respond loc host peer (.initiate m') g = (.ok (some (.accept accept)), g') ∧
      AcceptsSession m' accept ∧ g'.initiatedRoundState = none := by
  have hrate := checkPeerInitiateRate_tie h host m'
  -- the smaller tie breaker gives its own round up
  rw [if_neg (Nat.not_lt_of_gt htie)] at hrate
  rw [respond_initiate_run hrate]
  have hends : Ends (refuseIfBusy host peer m' >>= fun busy =>
      match busy with
      | some busy => pure (some busy)
      | none => acceptInitiate host peer m') (g.setInitiated none) fun r g' =>
      (∃ accept, r = .ok (some (.accept accept)) ∧ AcceptsSession m' accept) ∧
        g'.initiatedRoundState = none := by
    have hnow : Holding peer g none g.acceptedRoundStates (g.setInitiated none) :=
      Holding.self.setInitiated none
    have hok : ∃ g₂, recordDhtOpCount host peer m'.dhtOpCount (g.setInitiated none) = (.ok (), g₂) :=
      recordDhtOpCount_ok hhost m'.dhtOpCount _
    rcases hok with ⟨g₂, hrecord⟩
    have hhold := hnow.trans (isCall_recordDhtOpCount _ _ _ _ hrecord).1
    -- the busy check sees the accepted rounds of before
    have hroom₂ : g₂.isBusy = false := by
      unfold K2Gossip.isBusy at hroom ⊢
      rw [hhold.config, hhold.accepted]
      exact hroom
    have hrefuse : refuseIfBusy host peer m' (g.setInitiated none) = (.ok none, g₂) := by
      have hbind : refuseIfBusy host peer m' (g.setInitiated none) =
          (recordDhtOpCount host peer m'.dhtOpCount >>= fun _ => (do
            let g ← Eff.read
            if g.isBusy then pure (some (.busy { sessionId := m'.sessionId })) else pure none :
            GossipM Url (Option GossipMessage))) (g.setInitiated none) := rfl
      rw [hbind, bind_run, hrecord]
      dsimp only
      rw [bind_run]
      dsimp only [Eff.read]
      rw [hroom₂]
      rfl
    refine ends_bind ?_ ?_
    · intro e g₃ he
      rw [hrefuse] at he
      cases he
    · intro busy g₃ hbusy
      rw [hrefuse] at hbusy
      cases hbusy
      rcases harc with ⟨value, otherArcSet, hvalue, hdecode⟩
      have haccept := acceptInitiate_accepts hhost hhold h.slot hvalue hdecode
      refine haccept.mono ?_
      rintro r g' ⟨accept, hok, haccepts⟩
      rcases haccepts.round with ⟨_, _, _, _, _, _, _, hnow⟩
      exact ⟨⟨accept, hok, haccepts.accepts⟩, hnow.initiated⟩
  unfold Ends at hends
  rcases hends with ⟨⟨accept, hok, haccepts⟩, hnone⟩
  exact ⟨accept, _, Prod.ext hok rfl, haccepts, hnone⟩

/-- The accept passes at the node that has sent the initiate. -/
theorem validateAccept_ok {m : InitiateMessage} {state : GossipRoundState Url}
    {accept : AcceptMessage} (h : Awaits peer m state g) (haccept : AcceptsSession m accept) :
    ∃ stage, state.validateAccept peer accept = .ok stage := by
  rcases h.stage with ⟨arcSet, hstage⟩
  have hsession : validateSession .accept state peer accept.sessionId = .ok () := by
    unfold validateSession
    rw [if_neg (not_not.mpr h.peer), if_neg (not_not.mpr (h.session.trans haccept.session.symm))]
  have hmissing : validateMissingAgents .accept accept.missingAgents m.participatingAgents = .ok () := by
    unfold validateMissingAgents
    refine if_neg ?_
    intro hany
    rcases List.any_eq_true.mp hany with ⟨a, ha, hnot⟩
    have hcontains : m.participatingAgents.contains a = true :=
      List.contains_iff_mem.mpr (haccept.missing a ha)
    rw [hcontains] at hnot
    cases hnot
  refine ⟨{ ourAgents := m.participatingAgents, ourArcSet := arcSet, tieBreaker := m.tieBreaker }, ?_⟩
  unfold GossipRoundState.validateAccept
  rw [hsession, hstage]
  dsimp only
  exact bind_eq_ok_iff.mpr ⟨(), rfl, bind_eq_ok_iff.mpr ⟨(), hmissing, rfl⟩⟩

/-- The round of an initiate that was sent. -/
theorem initiateGossip_opens {sessionId : Bytes} {tieBreaker : Nat} {m : InitiateMessage}
    (h : initiateGossip host sessionId tieBreaker peer g = (.ok (some m), g')) :
    (m.sessionId = sessionId ∧ m.tieBreaker = tieBreaker) ∧ g'.acceptedRoundStates.lookup peer = none ∧
      ∃ (ourArcSet : ArcSet) (state : GossipRoundState Url), m.arcSet = some ourArcSet.encode ∧
        g'.initiatedRoundState = some state ∧ state.sessionWithPeer = peer ∧
        state.sessionId = m.sessionId ∧
        state.stage = .initiated m.participatingAgents ourArcSet m.tieBreaker := by
  have hret : Returns (initiateGossip host sessionId tieBreaker peer) g (some m) g' := h
  unfold initiateGossip at hret
  rw [returns_read_bind_iff] at hret
  split at hret
  · cases (returns_pure_iff.mp hret).1
  rcases returns_bind_iff.mp hret with ⟨⟨ourAgents, ourArcSet⟩, g₁, hagents, hrest⟩
  have hsame : g₁ = g := (liftK2_run hagents).2
  rcases returns_bind_iff.mp hrest with ⟨newSince, g₂, hsince, hmessage⟩
  have hcall : IsCall peer (getRequestNewSince host peer) := isCall_getRequestNewSince _
  have hnow := (hcall _ _ _ hsince).1
  dsimp only at hmessage
  split at hmessage
  · cases (returns_pure_iff.mp hmessage).1
  -- no round accepted from the peer by now
  rename_i hslot
  rcases returns_bind_iff.mp hmessage with ⟨_, g₃, htime, hsending⟩
  have hnow := hnow.trans (isCall_setLastGossipTimestamp _ _ _ _ htime).1
  rcases returns_bind_iff.mp hsending with ⟨_, g₄, hsend, hwriting⟩
  have hsame₄ : g₄ = g₃ := (liftK2_run hsend).2
  rcases returns_bind_iff.mp hwriting with ⟨_, g₅, hwrite, hlast⟩
  cases hwrite
  cases hlast
  have haccepted : g₄.acceptedRoundStates = g.acceptedRoundStates := by
    rw [hsame₄, hnow.accepted, hsame]
  have hfinal : (g₄.setInitiated (some
      { sessionWithPeer := peer, startedAt := host.instant, sessionId := sessionId
        peerMaxOpDataBytes := 0
        stage := .initiated ourAgents ourArcSet tieBreaker })).acceptedRoundStates.lookup peer =
      g.acceptedRoundStates.lookup peer := congrArg (fun rounds => rounds.lookup peer) haccepted
  exact ⟨⟨rfl, rfl⟩, hfinal.trans (Option.not_isSome_iff_eq_none.mp hslot),
    ourArcSet, _, rfl, rfl, rfl, rfl, rfl⟩

/-- What a node is like after it has initiated. -/
theorem initiateGossip_awaits {sessionId : Bytes} {tieBreaker : Nat} {m : InitiateMessage}
    (h : initiateGossip host sessionId tieBreaker peer g = (.ok (some m), g')) :
    m.tieBreaker = tieBreaker ∧ (∃ arcSet : ArcSet, m.arcSet = some arcSet.encode) ∧
      ∃ state, Awaits peer m state g' := by
  rcases initiateGossip_opens h with
    ⟨⟨-, htie⟩, hslot, ourArcSet, state, harcs, hstate, hpeer, hsession, hstage⟩
  exact ⟨htie, ⟨ourArcSet, harcs⟩, state, hstate, hpeer, hsession, ⟨ourArcSet, hstage⟩, hslot⟩

theorem countIfFinal_rounds {res : Option GossipMessage} :
    Ends (countIfFinal host peer res) g fun _ g' => SameRounds g g' := by
  unfold countIfFinal
  split
  · exact ends_liftK2_bind (fun _ _ => ⟨rfl, rfl⟩) fun _ _ => ⟨rfl, rfl⟩
  · exact ⟨rfl, rfl⟩

/-- Once its handler has returned, a message changes no round any more. -/
theorem handleGossipMessage_rounds {msg : GossipMessage}
    {r : Except K2GossipError (Option GossipMessage)} (h : respond loc host peer msg g = (r, g₁))
    (recorded : Bool) :
    SameRounds g₁ (handleGossipMessage loc host recorded peer msg g).1 := by
  have hends : Ends (respondToMsg loc host peer msg) g fun _ g' => SameRounds g₁ g' := by
    refine ends_bind ?_ ?_
    · intro e g₂ he
      rw [h] at he
      cases he
      exact ⟨rfl, rfl⟩
    intro res g₂ hres
    rw [h] at hres
    cases hres
    have hself : Holding peer g₁ g₁.initiatedRoundState g₁.acceptedRoundStates g₁ := Holding.self
    -- sending the answer and counting the round leave the slots alone
    refine ends_call_bind isCall_sendAnswer hself
      (fun _ _ hnow => ⟨hnow.initiated, hnow.accepted⟩) ?_
    intro _ g₃ _ hnow
    have hcount : Ends (countIfFinal host peer res) g₃ fun _ g' => SameRounds g₃ g' :=
      countIfFinal_rounds
    refine ends_bind ?_ ?_
    · intro e g₄ he
      have hsame := hcount.of_run he
      exact ⟨hsame.1.trans hnow.initiated, hsame.2.trans hnow.accepted⟩
    · intro _ g₄ hok
      have hsame := hcount.of_run hok
      exact ⟨hsame.1.trans hnow.initiated, hsame.2.trans hnow.accepted⟩
  rcases hrun : respondToMsg loc host peer msg g with ⟨r', g₂⟩
  have hsame := hends.of_run hrun
  unfold handleGossipMessage
  rw [hrun]
  cases r' with
  | ok res => exact hsame
  | error e =>
      have herror : SameRounds g₂ (g₂.recordError recorded peer e) := recordError_rounds recorded e
      exact ⟨herror.1.trans hsame.1, herror.2.trans hsame.2⟩

/-! ## The two nodes -/

inductive Side
  | winner
  | loser
  deriving DecidableEq, Repr

def Side.other : Side → Side
  | .winner => .loser
  | .loser => .winner

/-- A message that a node has handled: the node before, and what its handler returned. -/
structure Handled (Url : Type) where
  before : K2Gossip Url
  msg : GossipMessage
  answer : Except K2GossipError (Option GossipMessage)

/-- Two nodes, the messages in flight to each, and what each has handled of the other's. -/
structure Crossing (Url : Type) where
  node : Side → K2Gossip Url
  inFlight : Side → List GossipMessage
  handled : Side → List (Handled Url)

inductive CrossingEvent (Url : Type)
  /-- The next message in flight to a node is handled. -/
  | deliver (side : Side) (host : Host) (recorded : Bool)
  /-- A message of a third peer is handled. -/
  | elsewhere (side : Side) (host : Host) (recorded : Bool) (peer : Url) (msg : GossipMessage)

namespace Crossing

/-- The answer that a node sends. -/
def sent (host : Host) : Except K2GossipError (Option GossipMessage) → List GossipMessage
  | .ok (some msg) => if (host.call .sendModule).isOk then [msg] else []
  | _ => []

variable (loc : LocCb) (url : Side → Url)

def step (s : Crossing Url) : CrossingEvent Url → Crossing Url
  | .deliver side host recorded =>
      match s.inFlight side with
      | [] => s
      | msg :: rest =>
          let answer := (respond loc host (url side.other) msg (s.node side)).1
          { node := Function.update s.node side
              (handleGossipMessage loc host recorded (url side.other) msg (s.node side)).1
            inFlight := Function.update (Function.update s.inFlight side rest) side.other
              (s.inFlight side.other ++ sent host answer)
            handled := Function.update s.handled side
              (s.handled side ++ [{ before := s.node side, msg, answer }]) }
  -- messages of other peers may change the slots in between
  | .elsewhere side host recorded peer msg =>
      { s with
        node := Function.update s.node side
          (handleGossipMessage loc host recorded peer msg (s.node side)).1 }

/-- Both nodes have initiated, and neither initiate has arrived. -/
def start (winner loser : K2Gossip Url) (ofWinner ofLoser : InitiateMessage) : Crossing Url where
  node := fun side => match side with
    | .winner => winner
    | .loser => loser
  inFlight := fun side => match side with
    | .winner => [.initiate ofLoser]
    | .loser => [.initiate ofWinner]
  handled := fun _ => []

/-- An initiate is handled by a node whose stores answer and that is below its limit of accepted
rounds; a third peer is neither of the two. -/
def Proper (s : Crossing Url) : CrossingEvent Url → Prop
  | .deliver side host _ => ∀ m rest, s.inFlight side = .initiate m :: rest →
      host.Healthy ∧ (s.node side).isBusy = false
  | .elsewhere side _ _ peer _ => peer ≠ url side.other

/-! ## What holds on the way -/

variable {loc url} {ofWinner ofLoser : InitiateMessage} {stateW stateL : GossipRoundState Url}

theorem awaits_of_frame {target : Url} {m : InitiateMessage} {state : GossipRoundState Url}
    (h : Awaits target m state g) (hframe : Frame peer g g') (hpeer : peer ≠ target) :
    Awaits target m state g' := by
  have hwith : ¬ g.InitiatedWith peer := by
    rintro ⟨state', hstate, hwith⟩
    rw [h.initiated] at hstate
    cases hstate
    exact hpeer (hwith.symm.trans h.peer)
  exact
    { h with
      initiated := (hframe.initiated hwith).trans h.initiated
      slot := (hframe.accepted target hpeer.symm).trans h.slot }

theorem awaits_of_sameRounds {target : Url} {m : InitiateMessage} {state : GossipRoundState Url}
    (h : Awaits target m state g) (hsame : SameRounds g g') : Awaits target m state g' :=
  { h with
    initiated := hsame.1.trans h.initiated
    slot := (congrArg (fun rounds => rounds.lookup target) hsame.2).trans h.slot }

/-- No initiate is among the messages. -/
def NoInitiate (msgs : List GossipMessage) : Prop :=
  ∀ msg ∈ msgs, msg.opens = 0

/-- What is in flight to the winner behind the loser's initiate, given what the loser has handled. -/
def FromLoser (ofWinner : InitiateMessage) : List (Handled Url) → List GossipMessage → Prop
  | [], msgs => msgs = []
  | h :: _, msgs => ∃ accept more, h.answer = .ok (some (.accept accept)) ∧
      AcceptsSession ofWinner accept ∧ msgs = .accept accept :: more ∧ NoInitiate more

/-- The winner handles the loser's accept as an answer to the initiate it has sent. -/
def Passes (peer : Url) (byLoser : List (Handled Url)) (h : Handled Url) : Prop :=
  ∃ accept state stage, h.msg = .accept accept ∧
    byLoser.head?.map Handled.answer = some (.ok (some (.accept accept))) ∧
    h.before.initiatedRoundState = some state ∧ state.validateAccept peer accept = .ok stage

/-- The winner waits for the answer to its initiate, and drops the loser's. -/
def WinnerAt (peer : Url) (ofWinner ofLoser : InitiateMessage) (state : GossipRoundState Url)
    (node : K2Gossip Url) (inFlight : List GossipMessage) (byLoser : List (Handled Url)) :
    List (Handled Url) → Prop
  | [] => Awaits peer ofWinner state node ∧
      ∃ rest, inFlight = .initiate ofLoser :: rest ∧ FromLoser ofWinner byLoser rest
  | [h] => (h.msg = .initiate ofLoser ∧ h.answer = .ok none) ∧ Awaits peer ofWinner state node ∧
      FromLoser ofWinner byLoser inFlight
  | h :: h' :: _ => (h.msg = .initiate ofLoser ∧ h.answer = .ok none) ∧ Passes peer byLoser h' ∧
      NoInitiate inFlight

/-- The loser waits too, until the winner's initiate makes it drop its own round. -/
def LoserAt (peer : Url) (ofWinner ofLoser : InitiateMessage) (state : GossipRoundState Url)
    (node : K2Gossip Url) (inFlight : List GossipMessage) : List (Handled Url) → Prop
  | [] => Awaits peer ofLoser state node ∧ inFlight = [.initiate ofWinner]
  | h :: _ => (h.msg = .initiate ofWinner ∧ ∃ accept, h.answer = .ok (some (.accept accept))) ∧
      node.initiatedRoundState = none ∧ NoInitiate inFlight

structure Resolving (url : Side → Url) (ofWinner ofLoser : InitiateMessage)
    (stateW stateL : GossipRoundState Url) (s : Crossing Url) : Prop where
  slot : (s.node .winner).acceptedRoundStates.lookup (url .loser) = none
  winner : WinnerAt (url .loser) ofWinner ofLoser stateW (s.node .winner) (s.inFlight .winner)
    (s.handled .loser) (s.handled .winner)
  loser : LoserAt (url .winner) ofWinner ofLoser stateL (s.node .loser) (s.inFlight .loser)
    (s.handled .loser)

theorem noInitiate_append {msgs more : List GossipMessage} (h : NoInitiate msgs)
    (h' : NoInitiate more) : NoInitiate (msgs ++ more) := by
  intro msg hmsg
  rcases List.mem_append.mp hmsg with hmsg | hmsg
  · exact h msg hmsg
  · exact h' msg hmsg

/-- No handler answers with an initiate. -/
theorem noInitiate_sent {msg : GossipMessage} :
    NoInitiate (sent host (respond loc host peer msg g).1) := by
  have houtcome : Ends (respond loc host peer msg) g (Outcome peer msg g) := respond_outcome msg
  unfold Ends at houtcome
  intro answer hanswer
  cases hres : (respond loc host peer msg g).1 with
  | error e =>
      rw [hres] at hanswer
      cases hanswer
  | ok res =>
      rw [hres] at hanswer houtcome
      have hno := houtcome.answer res rfl
      cases res with
      | none => cases hanswer
      | some msg' =>
          have hmem : answer = msg' := by
            unfold sent at hanswer
            dsimp only at hanswer
            split at hanswer
            · exact List.mem_singleton.mp hanswer
            · cases hanswer
          rw [hmem]
          cases msg' with
          | initiate m => cases hno
          | _ => rfl

/-! ## Steps -/

section Steps

variable {s : Crossing Url}

/-- Whatever the loser sends after its accept comes after it. -/
theorem WinnerAt.more {peer : Url} {node : K2Gossip Url} {inFlight more : List GossipMessage}
    {h : Handled Url} {byLoser byLoser' byWinner : List (Handled Url)}
    (hat : WinnerAt peer ofWinner ofLoser stateW node inFlight (h :: byLoser) byWinner)
    (hmore : NoInitiate more) :
    WinnerAt peer ofWinner ofLoser stateW node (inFlight ++ more) (h :: byLoser') byWinner := by
  have hfrom : ∀ {msgs}, FromLoser ofWinner (h :: byLoser) msgs →
      FromLoser ofWinner (h :: byLoser') (msgs ++ more) := by
    rintro msgs ⟨accept, rest, hanswer, haccepts, rfl, hrest⟩
    exact ⟨accept, rest ++ more, hanswer, haccepts, rfl, noInitiate_append hrest hmore⟩
  match byWinner, hat with
  | [], ⟨hawaits, rest, hflight, hrest⟩ =>
      exact ⟨hawaits, rest ++ more, by rw [hflight]; rfl, hfrom hrest⟩
  | [_], ⟨hdropped, hawaits, hflight⟩ => exact ⟨hdropped, hawaits, hfrom hflight⟩
  | _ :: _ :: _, ⟨hdropped, hpasses, hflight⟩ =>
      exact ⟨hdropped, hpasses, noInitiate_append hflight hmore⟩

/-- The loser has accepted, if the winner has handled more than its initiate. -/
theorem WinnerAt.loser_ne_nil {peer : Url} {node : K2Gossip Url} {msg : GossipMessage}
    {rest : List GossipMessage} {h : Handled Url} {byLoser byWinner : List (Handled Url)}
    (hat : WinnerAt peer ofWinner ofLoser stateW node (msg :: rest) byLoser (h :: byWinner)) :
    ∃ h' more, byLoser = h' :: more := by
  cases byLoser with
  | cons h' more => exact ⟨h', more, rfl⟩
  | nil =>
      cases byWinner with
      | nil => cases hat.2.2
      | cons _ _ =>
          rcases hat.2.1 with ⟨_, _, _, _, hhead, _⟩
          cases hhead

theorem WinnerAt.of_node {peer : Url} {node node' : K2Gossip Url} {inFlight : List GossipMessage}
    {byLoser byWinner : List (Handled Url)}
    (hat : WinnerAt peer ofWinner ofLoser stateW node inFlight byLoser byWinner)
    (hkeep : Awaits peer ofWinner stateW node → Awaits peer ofWinner stateW node') :
    WinnerAt peer ofWinner ofLoser stateW node' inFlight byLoser byWinner := by
  match byWinner, hat with
  | [], ⟨hawaits, hflight⟩ => exact ⟨hkeep hawaits, hflight⟩
  | [_], ⟨hdropped, hawaits, hflight⟩ => exact ⟨hdropped, hkeep hawaits, hflight⟩
  | _ :: _ :: _, ⟨hdropped, hpasses, hflight⟩ => exact ⟨hdropped, hpasses, hflight⟩

/-- What a delivery does to the node that gets the message and to the other one. -/
structure Delivered (s s' : Crossing Url) (side other : Side) (node : K2Gossip Url)
    (rest more : List GossipMessage) (h : Handled Url) : Prop where
  node : s'.node side = node
  nodeOther : s'.node other = s.node other
  inFlight : s'.inFlight side = rest
  inFlightOther : s'.inFlight other = s.inFlight other ++ more
  handled : s'.handled side = s.handled side ++ [h]
  handledOther : s'.handled other = s.handled other

theorem step_deliver {side other : Side} {msg : GossipMessage} {rest : List GossipMessage}
    {answer : Except K2GossipError (Option GossipMessage)} (recorded : Bool)
    (hother : side.other = other)
    (hflight : s.inFlight side = msg :: rest)
    (hrespond : respond loc host (url other) msg (s.node side) = (answer, g₁)) :
    Delivered s (step loc url s (.deliver side host recorded)) side other
      (handleGossipMessage loc host recorded (url other) msg (s.node side)).1 rest
      (sent host answer) { before := s.node side, msg, answer } := by
  have hne : other ≠ side := by
    cases side with
    | winner => cases hother; decide
    | loser => cases hother; decide
  unfold step
  dsimp only
  rw [hflight, hother]
  dsimp only
  rw [hrespond]
  exact
    { node := Function.update_self _ _ _
      nodeOther := Function.update_of_ne hne _ _
      inFlight := (Function.update_of_ne hne.symm _ _).trans (Function.update_self _ _ _)
      inFlightOther := Function.update_self _ _ _
      handled := Function.update_self _ _ _
      handledOther := Function.update_of_ne hne _ _ }

theorem step_deliver_nil {side : Side} (hflight : s.inFlight side = []) :
    step loc url s (.deliver side host recorded) = s := by
  unfold step
  dsimp only
  rw [hflight]

/-- The next message of the loser is handled by the winner. -/
theorem Resolving.deliver_winner (h : Resolving url ofWinner ofLoser stateW stateL s)
    (htie : ofLoser.tieBreaker < ofWinner.tieBreaker) (host : Host) (recorded : Bool) :
    Resolving url ofWinner ofLoser stateW stateL (step loc url s (.deliver .winner host recorded)) := by
  cases hflight : s.inFlight .winner with
  | nil => rw [step_deliver_nil hflight]; exact h
  | cons msg rest =>
      rcases h with ⟨hslot, hat, hloser⟩
      rw [hflight] at hat
      rcases hrespond : respond loc host (url .loser) msg (s.node .winner) with ⟨answer, g₁⟩
      have hstep := step_deliver recorded (show Side.other .winner = .loser from rfl)
        hflight hrespond
      have hrounds := handleGossipMessage_rounds hrespond recorded
      have houtcome := (respond_outcome msg).of_run hrespond
      have hsent : NoInitiate (sent host answer) := by
        have hno : NoInitiate (sent host (respond loc host (url .loser) msg (s.node .winner)).1) :=
          noInitiate_sent
        rwa [hrespond] at hno
      generalize step loc url s (.deliver .winner host recorded) = s' at hstep ⊢
      cases hby : s.handled .winner with
      | nil =>
          -- the loser's initiate comes first, and is dropped
          rw [hby] at hat
          rcases hat with ⟨hawaits, rest', hhead, hfrom⟩
          cases hhead
          have hdrop : respond loc host (url .loser) (.initiate ofLoser) (s.node .winner) =
              (.ok none, s.node .winner) := winner_drops hawaits htie
          rw [hrespond] at hdrop
          cases hdrop
          have hawaits' := awaits_of_sameRounds hawaits hrounds
          refine ⟨?_, ?_, ?_⟩
          · rw [hstep.node]
            exact hawaits'.slot
          · rw [hstep.handled, hstep.node, hstep.inFlight, hby, hstep.handledOther]
            exact ⟨⟨rfl, rfl⟩, hawaits', hfrom⟩
          · rw [hstep.nodeOther, hstep.handledOther, hstep.inFlightOther]
            have hnothing : s.inFlight .loser ++ sent host (.ok none) = s.inFlight .loser :=
              List.append_nil _
            rw [hnothing]
            exact hloser
      | cons h₀ more =>
          rw [hby] at hat
          rcases WinnerAt.loser_ne_nil hat with ⟨hl, morel, hbyl⟩
          have hopens : msg.opens = 0 := by
            cases more with
            | nil =>
                rw [hbyl] at hat
                rcases hat.2.2 with ⟨accept, _, _, _, hmsgs, _⟩
                cases hmsgs
                rfl
            | cons _ _ => exact hat.2.2 msg List.mem_cons_self
          refine ⟨?_, ?_, ?_⟩
          · rw [hstep.node, hrounds.2]
            exact houtcome.slot hopens hslot
          · rw [hstep.handled, hstep.inFlight, hby, hstep.handledOther]
            cases more with
            | nil =>
                -- the accept comes second
                rcases hat with ⟨hdropped, hawaits, hfrom⟩
                rw [hbyl] at hfrom ⊢
                rcases hfrom with ⟨accept, more', hanswer, haccepts, hmsgs, hmore⟩
                cases hmsgs
                rcases validateAccept_ok hawaits haccepts with ⟨stage, hvalid⟩
                refine ⟨hdropped, ⟨accept, stateW, stage, rfl, ?_, hawaits.initiated, hvalid⟩, hmore⟩
                exact congrArg some hanswer
            | cons h₁ more' =>
                exact ⟨hat.1, hat.2.1, fun m hm => hat.2.2 m (List.mem_cons_of_mem _ hm)⟩
          · rw [hstep.nodeOther, hstep.handledOther, hstep.inFlightOther]
            rw [hbyl] at hloser ⊢
            exact ⟨hloser.1, hloser.2.1, noInitiate_append hloser.2.2 hsent⟩

/-- The next message of the winner is handled by the loser. -/
theorem Resolving.deliver_loser (h : Resolving url ofWinner ofLoser stateW stateL s)
    (htie : ofLoser.tieBreaker < ofWinner.tieBreaker)
    (harc : ∃ arcSet : ArcSet, ofWinner.arcSet = some arcSet.encode) {host : Host}
    (recorded : Bool)
    (hproper : ∀ m rest, s.inFlight .loser = .initiate m :: rest →
      host.Healthy ∧ (s.node .loser).isBusy = false) :
    Resolving url ofWinner ofLoser stateW stateL (step loc url s (.deliver .loser host recorded)) := by
  cases hflight : s.inFlight .loser with
  | nil => rw [step_deliver_nil hflight]; exact h
  | cons msg rest =>
      rcases h with ⟨hslot, hwinner, hat⟩
      rw [hflight] at hat
      rcases hrespond : respond loc host (url .winner) msg (s.node .loser) with ⟨answer, g₁⟩
      have hstep := step_deliver recorded (show Side.other .loser = .winner from rfl)
        hflight hrespond
      have hrounds := handleGossipMessage_rounds hrespond recorded
      have houtcome := (respond_outcome msg).of_run hrespond
      have hsent : NoInitiate (sent host answer) := by
        have hno : NoInitiate (sent host (respond loc host (url .winner) msg (s.node .loser)).1) :=
          noInitiate_sent
        rwa [hrespond] at hno
      generalize step loc url s (.deliver .loser host recorded) = s' at hstep ⊢
      cases hby : s.handled .loser with
      | nil =>
          -- the winner's initiate comes first, and is accepted
          rw [hby] at hat hwinner
          rcases hat with ⟨hawaits, hhead⟩
          cases hhead
          rcases hproper _ _ hflight with ⟨hhost, hroom⟩
          rcases harc with ⟨arcSet, harc⟩
          have hanswer : ∃ accept g', respond loc host (url .winner) (.initiate ofWinner)
              (s.node .loser) = (.ok (some (.accept accept)), g') ∧
                AcceptsSession ofWinner accept ∧ g'.initiatedRoundState = none :=
            loser_accepts hhost hawaits htie hroom
              ⟨_, arcSet, harc, ArcSet.decode_encode arcSet⟩
          rcases hanswer with ⟨accept, g₂, haccept, haccepts, hnone⟩
          rw [hrespond] at haccept
          cases haccept
          have hsend : sent host (.ok (some (.accept accept))) = [.accept accept] := by
            unfold sent
            rw [hhost.call]
            rfl
          refine ⟨?_, ?_, ?_⟩
          · rw [hstep.nodeOther]
            exact hslot
          · rw [hstep.nodeOther, hstep.handled, hstep.inFlightOther, hby, hstep.handledOther, hsend]
            cases hbyw : s.handled .winner with
            | nil =>
                rw [hbyw] at hwinner
                rcases hwinner with ⟨hawaitsW, rest', hflightW, hfrom⟩
                refine ⟨hawaitsW, rest' ++ [.accept accept], by rw [hflightW]; rfl, ?_⟩
                cases hfrom
                exact ⟨accept, [], rfl, haccepts, rfl, fun _ hm => (List.not_mem_nil hm).elim⟩
            | cons hw morew =>
                rw [hbyw] at hwinner
                cases morew with
                | nil =>
                    rcases hwinner with ⟨hdropped, hawaitsW, hfrom⟩
                    have hempty : s.inFlight .winner = [] := hfrom
                    rw [hempty]
                    exact ⟨hdropped, hawaitsW, accept, [], rfl, haccepts, rfl,
                      fun _ hm => (List.not_mem_nil hm).elim⟩
                | cons _ _ =>
                    rcases hwinner.2.1 with ⟨_, _, _, _, hhead, _⟩
                    cases hhead
          · rw [hstep.node, hstep.inFlight, hstep.handled, hby]
            refine ⟨⟨rfl, accept, rfl⟩, hrounds.1.trans hnone, ?_⟩
            exact fun _ hm => (List.not_mem_nil hm).elim
      | cons h₀ more =>
          rw [hby] at hat hwinner
          have hnone : g₁.initiatedRoundState = none := by
            refine (houtcome.frame.initiated ?_).trans hat.2.1
            rintro ⟨state, hstate, _⟩
            rw [hat.2.1] at hstate
            cases hstate
          refine ⟨?_, ?_, ?_⟩
          · rw [hstep.nodeOther]
            exact hslot
          · rw [hstep.nodeOther, hstep.handled, hstep.inFlightOther, hby, hstep.handledOther]
            exact hwinner.more hsent
          · rw [hstep.node, hstep.inFlight, hstep.handled, hby]
            exact ⟨hat.1, hrounds.1.trans hnone, fun m hm => hat.2.2 m (List.mem_cons_of_mem _ hm)⟩

theorem Resolving.elsewhere_winner (h : Resolving url ofWinner ofLoser stateW stateL s)
    {peer : Url} (hpeer : peer ≠ url .loser) (host : Host) (recorded : Bool) (msg : GossipMessage) :
    Resolving url ofWinner ofLoser stateW stateL
      (step loc url s (.elsewhere .winner host recorded peer msg)) := by
  have hframe := handleGossipMessage_frame loc host recorded peer msg (s.node .winner)
  exact ⟨(hframe.accepted _ hpeer.symm).trans h.slot,
    h.winner.of_node fun hawaits => awaits_of_frame hawaits hframe hpeer, h.loser⟩

theorem Resolving.elsewhere_loser (h : Resolving url ofWinner ofLoser stateW stateL s)
    {peer : Url} (hpeer : peer ≠ url .winner) (host : Host) (recorded : Bool) (msg : GossipMessage) :
    Resolving url ofWinner ofLoser stateW stateL
      (step loc url s (.elsewhere .loser host recorded peer msg)) := by
  have hframe := handleGossipMessage_frame loc host recorded peer msg (s.node .loser)
  refine ⟨h.slot, h.winner, ?_⟩
  have hat := h.loser
  show LoserAt _ _ _ _ _ _ (s.handled .loser)
  cases hby : s.handled .loser with
  | nil =>
      rw [hby] at hat
      exact ⟨awaits_of_frame hat.1 hframe hpeer, hat.2⟩
  | cons h₀ more =>
      rw [hby] at hat
      have hwith : ¬ (s.node .loser).InitiatedWith peer := by
        rintro ⟨state, hstate, _⟩
        rw [hat.2.1] at hstate
        cases hstate
      exact ⟨hat.1, (hframe.initiated hwith).trans hat.2.1, hat.2.2⟩

theorem Resolving.step (h : Resolving url ofWinner ofLoser stateW stateL s)
    (htie : ofLoser.tieBreaker < ofWinner.tieBreaker)
    (harc : ∃ arcSet : ArcSet, ofWinner.arcSet = some arcSet.encode) {e : CrossingEvent Url}
    (hproper : s.Proper url e) :
    Resolving url ofWinner ofLoser stateW stateL (step loc url s e) := by
  cases e with
  | deliver side host recorded =>
      cases side with
      | winner => exact h.deliver_winner htie host recorded
      | loser => exact h.deliver_loser htie harc recorded hproper
  | elsewhere side host recorded peer msg =>
      cases side with
      | winner => exact h.elsewhere_winner hproper host recorded msg
      | loser => exact h.elsewhere_loser hproper host recorded msg

end Steps

/-! ## Every order -/

/-- The initiate with the larger tie-breaker is accepted, the other one is dropped, the accept is
valid where it arrives, and the dropped session leaves no round. -/
theorem resolves (loc : LocCb) (url : Side → Url) {hostW hostL : Host} {sessionW sessionL : Bytes}
    {tieW tieL : Nat} {winner loser winner' loser' : K2Gossip Url}
    {ofWinner ofLoser : InitiateMessage} (htie : tieL < tieW)
    (hwinner : initiateGossip hostW sessionW tieW (url .loser) winner = (.ok (some ofWinner), winner'))
    (hloser : initiateGossip hostL sessionL tieL (url .winner) loser = (.ok (some ofLoser), loser'))
    (events : List (CrossingEvent Url))
    (hrun : Along (step loc url) (Proper url) (start winner' loser' ofWinner ofLoser) events) :
    let s := events.foldl (step loc url) (start winner' loser' ofWinner ofLoser)
    (∀ h, (s.handled .winner)[0]? = some h → h.msg = .initiate ofLoser ∧ h.answer = .ok none) ∧
      (∀ h, (s.handled .loser)[0]? = some h →
        h.msg = .initiate ofWinner ∧ ∃ accept, h.answer = .ok (some (.accept accept))) ∧
      (∀ h, (s.handled .winner)[1]? = some h → Passes (url .loser) (s.handled .loser) h) ∧
      (s.node .winner).acceptedRoundStates.lookup (url .loser) = none ∧
      (s.handled .loser ≠ [] → (s.node .loser).initiatedRoundState = none) := by
  rcases initiateGossip_awaits hwinner with ⟨htieW, harc, stateW, hawaitsW⟩
  rcases initiateGossip_awaits hloser with ⟨htieL, _, stateL, hawaitsL⟩
  have hlt : ofLoser.tieBreaker < ofWinner.tieBreaker := by
    rw [htieW, htieL]
    exact htie
  -- the invariant carries every part; what each side has handled says how far it is
  have hstart : Resolving url ofWinner ofLoser stateW stateL
      (start winner' loser' ofWinner ofLoser) :=
    ⟨hawaitsW.slot, ⟨hawaitsW, [], rfl, rfl⟩, ⟨hawaitsL, rfl⟩⟩
  intro s
  have hend : Resolving url ofWinner ofLoser stateW stateL s :=
    hrun.invariant hstart fun _ _ h hproper => h.step hlt harc hproper
  rcases hend with ⟨hslot, hatW, hatL⟩
  refine ⟨?_, ?_, ?_, hslot, ?_⟩
  · intro h hfirst
    match hby : s.handled .winner with
    | [] => rw [hby] at hfirst; cases hfirst
    | [h₀] => rw [hby] at hfirst hatW; cases hfirst; exact hatW.1
    | h₀ :: h₁ :: more => rw [hby] at hfirst hatW; cases hfirst; exact hatW.1
  · intro h hfirst
    cases hby : s.handled .loser with
    | nil => rw [hby] at hfirst; cases hfirst
    | cons h₀ more => rw [hby] at hfirst hatL; cases hfirst; exact hatL.1
  · intro h hsecond
    match hby : s.handled .winner with
    | [] => rw [hby] at hsecond; cases hsecond
    | [h₀] => rw [hby] at hsecond; cases hsecond
    | h₀ :: h₁ :: more => rw [hby] at hsecond hatW; cases hsecond; exact hatW.2.1
  · intro hhandled
    cases hby : s.handled .loser with
    | nil => exact absurd hby hhandled
    | cons h₀ more => rw [hby] at hatL; exact hatL.2.1

/-! ## Two quiet nodes -/

theorem quietHost_healthy (loc : LocCb) (now : Int) : (quietHost loc now).Healthy where
  call := fun _ => rfl
  agents := ⟨[], ArcSet.empty, rfl⟩
  peerStore := fun _ => ⟨none, rfl⟩
  opStore := fun _ _ _ => ⟨_, rfl⟩
  snapshot := by
    intro agents arcSet other hagents
    cases hagents
    -- there is no common sector to snapshot
    refine ⟨none, if_neg ?_⟩
    simp [ArcSet.coveredSectorCount, ArcSet.intersection, ArcSet.empty]

/-- The initiate of a node without agents that has not gossiped yet. -/
def firstInitiate (host : Host) (config : K2GossipConfig) (sessionId : Bytes) (tieBreaker : Nat) :
    InitiateMessage where
  sessionId := sessionId
  participatingAgents := []
  arcSet := some ArcSet.empty.encode
  tieBreaker := tieBreaker
  newSince := host.now - 2 * unitTime
  maxOpDataBytes := config.maxGossipOpBytes
  dhtOpCount := some host.dht.opCount

theorem initiateGossip_first {host : Host} (hagents : host.localAgents = .ok [])
    (hcall : host.call = fun _ => .ok ()) (config : K2GossipConfig) (sessionId : Bytes)
    (tieBreaker : Nat) (target : Url) :
    (initiateGossip host sessionId tieBreaker target (Running.start config).g).1 =
      .ok (some (firstInitiate host config sessionId tieBreaker)) := by
  cases host
  cases hagents
  cases hcall
  rfl

/-- A quiet node that has initiated with a peer. -/
def quietInitiator (sessionId : Bytes) (tieBreaker target : Nat) : K2Gossip Nat :=
  (initiateGossip (quietHost (fun _ => 0) 1000000) sessionId tieBreaker target
    (Running.start (limitedConfig 10)).g).2

def quietUrl : Side → Nat
  | .winner => 1
  | .loser => 2

/-- The winner handles the loser's initiate last of the two, and then the accept. -/
def quietOrder : List (CrossingEvent Nat) :=
  let host := quietHost (fun _ => 0) 1000000
  [.deliver .loser host true, .deliver .winner host true, .deliver .winner host true]

def quietStart : Crossing Nat :=
  let host := quietHost (fun _ => 0) 1000000
  start (quietInitiator [1] 7 2) (quietInitiator [2] 5 1)
    (firstInitiate host (limitedConfig 10) [1] 7) (firstInitiate host (limitedConfig 10) [2] 5)

theorem quietOrder_proper :
    Along (step (fun _ => 0) quietUrl) (Proper quietUrl) quietStart quietOrder := by
  refine ⟨?_, ?_, ?_, trivial⟩
  all_goals
    intro m rest _
    refine ⟨quietHost_healthy _ _, ?_⟩
    decide +kernel

theorem resolves_quiet :
    let s := quietOrder.foldl (step (fun _ => 0) quietUrl) quietStart
    (s.handled .winner).length = 2 ∧ (∀ h, (s.handled .winner)[1]? = some h →
      Passes 2 (s.handled .loser) h) ∧
      (s.node .winner).acceptedRoundStates.lookup 2 = none := by
  intro s
  have hfirst : ∀ (sessionId : Bytes) (tieBreaker target : Nat),
      initiateGossip (quietHost (fun _ => 0) 1000000) sessionId tieBreaker target
        (Running.start (limitedConfig 10)).g =
      (.ok (some (firstInitiate (quietHost (fun _ => 0) 1000000) (limitedConfig 10) sessionId
        tieBreaker)), quietInitiator sessionId tieBreaker target) :=
    fun sessionId tieBreaker target =>
      Prod.ext (initiateGossip_first rfl rfl _ sessionId tieBreaker target) rfl
  have hresolved := resolves (fun _ => 0) quietUrl (by decide) (hfirst [1] 7 2) (hfirst [2] 5 1)
    quietOrder quietOrder_proper
  exact ⟨by decide +kernel, hresolved.2.2.1, hresolved.2.2.2.1⟩

end Crossing

end Gossip
end Kitsune2
