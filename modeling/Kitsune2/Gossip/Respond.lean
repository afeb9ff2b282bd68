import Kitsune2.Gossip.State

/-!
# Respond — the handlers of the twelve gossip messages

Every handler first validates its message against the round it belongs to, then does its work and
leaves the round in its next stage or removes it, and returns the answer.  A handler that stops with
an error keeps what it has already done.
-/

namespace Kitsune2
namespace Gossip

open Api Lib Dht

variable {Url : Type} [DecidableEq Url]

/-! ## Validation -/

/-- The message is from the peer of the round and has its session id. -/
def validateSession (kind : MessageKind) (state : GossipRoundState Url) (fromPeer : Url)
    (sessionId : Bytes) : Except K2GossipError Unit :=
  if state.sessionWithPeer ≠ fromPeer then .error (.peerBehavior (.wrongPeer kind))
  else if state.sessionId ≠ sessionId then .error (.peerBehavior (.sessionIdMismatch kind))
  else .ok ()

/-- Only agents that we declared may be asked for. -/
def validateMissingAgents (kind : MessageKind) (missingAgents ourAgents : List Bytes) :
    Except K2GossipError Unit :=
  if missingAgents.any fun a => !ourAgents.contains a then
    .error (.peerBehavior (.undeclaredAgents kind))
  else .ok ()

/-- Only sectors of the common arc set may be named. -/
def validateSectors (kind : MessageKind) (sectors : List Nat) (commonArcSet : ArcSet) :
    Except K2GossipError Unit :=
  if sectors.any fun s => !commonArcSet.includesSectorIndex s then
    .error (.peerBehavior (.sectorNotCommon kind))
  else .ok ()

def requireSnapshot {α : Type} (kind : MessageKind) (snapshot : Option α) : Except K2GossipError α :=
  match snapshot with
  | some s => .ok s
  | none => .error (.peerBehavior (.noSnapshot kind))

def requireAcceptResponse (kind : MessageKind) (acceptResponse : Option AcceptResponseMessage) :
    Except K2GossipError AcceptResponseMessage :=
  match acceptResponse with
  | some r => .ok r
  | none => .error (.peerBehavior (.noAcceptResponse kind))

/-- What `RoundStageInitiated` holds. -/
structure InitiatedStage where
  ourAgents : List Bytes
  ourArcSet : ArcSet
  tieBreaker : Nat

/-- What `RoundStageAccepted` holds. -/
structure AcceptedStage where
  ourAgents : List Bytes
  commonArcSet : ArcSet

/-- What `RoundStageDiscSectorDetailsDiff` and `RoundStageRingSectorDetailsDiff` hold. -/
structure DetailsStage where
  commonArcSet : ArcSet
  snapshot : DhtSnapshot

namespace GossipRoundState

variable (state : GossipRoundState Url) (fromPeer : Url)

def validateAccept (accept : AcceptMessage) : Except K2GossipError InitiatedStage := do
  validateSession .accept state fromPeer accept.sessionId
  match state.stage with
  | .initiated ourAgents ourArcSet tieBreaker => do
      validateMissingAgents .accept accept.missingAgents ourAgents
      pure { ourAgents, ourArcSet, tieBreaker }
  | _ => .error (.peerBehavior (.unexpectedStage .accept))

def validateNoDiff (noDiff : NoDiffMessage) : Except K2GossipError AcceptResponseMessage := do
  validateSession .noDiff state fromPeer noDiff.sessionId
  match state.stage with
  | .accepted ourAgents _ => do
      let acceptResponse ← requireAcceptResponse .noDiff noDiff.acceptResponse
      validateMissingAgents .noDiff acceptResponse.missingAgents ourAgents
      pure acceptResponse
  | _ => .error (.peerBehavior (.unexpectedStage .noDiff))

def validateDiscSectorsDiff (diff : DiscSectorsDiffMessage) :
    Except K2GossipError (AcceptedStage × AcceptResponseMessage × SnapshotDiscSectorsMessage) := do
  validateSession .discSectorsDiff state fromPeer diff.sessionId
  let snapshot ← requireSnapshot .discSectorsDiff diff.snapshot
  match state.stage with
  | .accepted ourAgents commonArcSet => do
      let acceptResponse ← requireAcceptResponse .discSectorsDiff diff.acceptResponse
      validateMissingAgents .discSectorsDiff acceptResponse.missingAgents ourAgents
      validateSectors .discSectorsDiff snapshot.discSectors commonArcSet
      pure ({ ourAgents, commonArcSet }, acceptResponse, snapshot)
  | _ => .error (.peerBehavior (.unexpectedStage .discSectorsDiff))

def validateDiscSectorDetailsDiff (diff : DiscSectorDetailsDiffMessage) :
    Except K2GossipError (ArcSet × SnapshotDiscSectorDetailsMessage) := do
  validateSession .discSectorDetailsDiff state fromPeer diff.sessionId
  let snapshot ← requireSnapshot .discSectorDetailsDiff diff.snapshot
  match state.stage with
  | .discSectorsDiff commonArcSet => do
      validateSectors .discSectorDetailsDiff snapshot.sectorIndices commonArcSet
      pure (commonArcSet, snapshot)
  | _ => .error (.peerBehavior (.unexpectedStage .discSectorDetailsDiff))

def validateDiscSectorDetailsDiffResponse (response : DiscSectorDetailsDiffResponseMessage) :
    Except K2GossipError (DetailsStage × SnapshotDiscSectorDetailsMessage) := do
  validateSession .discSectorDetailsDiffResponse state fromPeer response.sessionId
  let snapshot ← requireSnapshot .discSectorDetailsDiffResponse response.snapshot
  match state.stage with
  | .discSectorDetailsDiff commonArcSet ourSnapshot => do
      validateSectors .discSectorDetailsDiffResponse snapshot.sectorIndices commonArcSet
      pure ({ commonArcSet, snapshot := ourSnapshot }, snapshot)
  | _ => .error (.peerBehavior (.unexpectedStage .discSectorDetailsDiffResponse))

def validateRingSectorDetailsDiff (diff : RingSectorDetailsDiffMessage) :
    Except K2GossipError (AcceptedStage × AcceptResponseMessage × SnapshotRingSectorDetailsMessage) := do
  validateSession .ringSectorDetailsDiff state fromPeer diff.sessionId
  let snapshot ← requireSnapshot .ringSectorDetailsDiff diff.snapshot
  match state.stage with
  | .accepted ourAgents commonArcSet => do
      let acceptResponse ← requireAcceptResponse .ringSectorDetailsDiff diff.acceptResponse
      validateMissingAgents .ringSectorDetailsDiff acceptResponse.missingAgents ourAgents
      validateSectors .ringSectorDetailsDiff
        (snapshot.ringSectorHashes.flatMap fun sh => sh.indices) commonArcSet
      pure ({ ourAgents, commonArcSet }, acceptResponse, snapshot)
  | _ => .error (.peerBehavior (.unexpectedStage .ringSectorDetailsDiff))

def validateRingSectorDetailsDiffResponse (response : RingSectorDetailsDiffResponseMessage) :
    Except K2GossipError (DetailsStage × SnapshotRingSectorDetailsMessage) := do
  validateSession .ringSectorDetailsDiffResponse state fromPeer response.sessionId
  let snapshot ← requireSnapshot .ringSectorDetailsDiffResponse response.snapshot
  match state.stage with
  | .ringSectorDetailsDiff commonArcSet ourSnapshot => do
      validateSectors .ringSectorDetailsDiffResponse
        (snapshot.ringSectorHashes.flatMap fun sh => sh.indices) commonArcSet
      pure ({ commonArcSet, snapshot := ourSnapshot }, snapshot)
  | _ => .error (.peerBehavior (.unexpectedStage .ringSectorDetailsDiffResponse))

def validateAgents (agents : AgentsMessage) : Except K2GossipError Unit := do
  validateSession .agents state fromPeer agents.sessionId
  match state.stage with
  | .noDiff => pure ()
  | _ => .error (.peerBehavior (.unexpectedStage .agents))

def validateBusy (busy : BusyMessage) : Except K2GossipError Unit :=
  validateSession .busy state fromPeer busy.sessionId

end GossipRoundState

/-! ## The rounds of a node -/

/-- Validate a message against the initiated round. -/
def checkInitiated {α : Type} (kind : MessageKind)
    (validate : GossipRoundState Url → Except K2GossipError α) :
    GossipM Url (GossipRoundState Url × α) := do
  let g ← Eff.read
  match g.initiatedRoundState with
  | some state => do
      let out ← Eff.lift (validate state)
      pure (state, out)
  | none => blame (.unsolicited kind)

/-- Validate a message against the accepted round of a peer. -/
def checkAccepted {α : Type} (kind : MessageKind) (fromPeer : Url)
    (validate : GossipRoundState Url → Except K2GossipError α) :
    GossipM Url (GossipRoundState Url × α) := do
  let g ← Eff.read
  match g.acceptedRoundStates.lookup fromPeer with
  | some state => do
      let out ← Eff.lift (validate state)
      pure (state, out)
  | none => blame (.unsolicited kind)

/-- Leave the initiated round in a new state. -/
def writeInitiated (state : GossipRoundState Url) : GossipM Url Unit :=
  Eff.modify (K2Gossip.setInitiated (some state))

/-- Leave the accepted round of a peer in a new state. -/
def writeAccepted (fromPeer : Url) (state : GossipRoundState Url) : GossipM Url Unit :=
  Eff.modify fun g => g.setAccepted (g.acceptedRoundStates.insert fromPeer state)

def removeInitiated : GossipM Url Unit :=
  Eff.modify (K2Gossip.setInitiated none)

def removeAccepted (fromPeer : Url) : GossipM Url Unit :=
  Eff.modify fun g => g.setAccepted (g.acceptedRoundStates.erase fromPeer)

def terminate (sessionId : Bytes) (reason : String) : Option GossipMessage :=
  some (.terminate { sessionId, reason })

/-- `peer_max_op_data_bytes -= used_bytes as i32`. -/
def GossipRoundState.spend (state : GossipRoundState Url) (usedBytes : Nat) : GossipRoundState Url :=
  { state with peerMaxOpDataBytes := toI32 (state.peerMaxOpDataBytes - toI32 usedBytes) }

section Handlers

variable (loc : LocCb) (host : Host)

/-! ## Initiate -/

/-- The burst tracker has the last word on an initiate that ties with none of ours. -/
def checkBurst (fromPeer : Url) : GossipM Url Bool := do
  if !(← checkAccept host fromPeer) then blame .initiateTooSoon else pure true

/-- `false` if the initiate is dropped, because we have initiated with the peer and win the tie. -/
def checkPeerInitiateRate (fromPeer : Url) (initiate : InitiateMessage) : GossipM Url Bool := do
  let g ← Eff.read
  match g.initiatedRoundState with
  | some initiated =>
      if initiated.sessionWithPeer = fromPeer then
        match initiated.stage with
        | .initiated _ _ tieBreaker =>
            if tieBreaker > initiate.tieBreaker then pure false
            else do
              -- we lose, and drop our own initiation
              removeInitiated
              pure true
        | _ => blame .initiateDuringRound
      else checkBurst host fromPeer
  | none => checkBurst host fromPeer

/-- The maximum number of rounds is already accepted. -/
def K2Gossip.isBusy (g : K2Gossip Url) : Bool :=
  decide (g.config.maxConcurrentAcceptedRounds ≠ 0) &&
    decide (g.acceptedRoundStates.entries.length ≥ g.config.maxConcurrentAcceptedRounds)

/-- The state of a round that is accepted now. -/
def acceptState (config : K2GossipConfig) (fromPeer : Url) (initiate : InitiateMessage)
    (ourAgents : List Bytes) (commonArcSet : ArcSet) : GossipRoundState Url :=
  { sessionWithPeer := fromPeer
    startedAt := host.instant
    sessionId := initiate.sessionId
    peerMaxOpDataBytes := toI32 (min config.maxRequestGossipOpBytes initiate.maxOpDataBytes : Nat)
    stage := .accepted ourAgents commonArcSet }

def createAcceptState (fromPeer : Url) (initiate : InitiateMessage) (ourAgents : List Bytes)
    (commonArcSet : ArcSet) : GossipM Url (GossipRoundState Url) := do
  let g ← Eff.read
  match g.acceptedRoundStates.lookup fromPeer with
  | some _ => liftK2 (.error (.k2 "peer already accepted"))
  | none => do
      let state := acceptState host g.config fromPeer initiate ourAgents commonArcSet
      writeAccepted fromPeer state
      pure state

/-- A minimal snapshot of the common sectors, if there are any. -/
def minimalSnapshotMessage (commonArcSet : ArcSet) : Except Fault (Option SnapshotMinimalMessage) :=
  if commonArcSet.coveredSectorCount > 0 then do
    let snapshot ← host.dht.snapshotMinimal commonArcSet
    let message ← SnapshotMinimalMessage.ofSnapshot snapshot
    pure (some message)
  else pure none

/-- The first part of accepting: a busy message, if the maximum number of rounds is already
accepted. -/
def refuseIfBusy (fromPeer : Url) (initiate : InitiateMessage) :
    GossipM Url (Option GossipMessage) := do
  -- the reported op count is kept even if we are busy
  recordDhtOpCount host fromPeer initiate.dhtOpCount
  let g ← Eff.read
  if g.isBusy then pure (some (.busy { sessionId := initiate.sessionId })) else pure none

/-- The second part of accepting: create the round and answer. -/
def acceptInitiate (fromPeer : Url) (initiate : InitiateMessage) :
    GossipM Url (Option GossipMessage) := do
  setLastGossipTimestamp host fromPeer host.now
  let otherArcSet ← liftK2 (match initiate.arcSet with
    | some value => ArcSet.decode value
    | none => .error (.k2 "no arc set in initiate message"))
  let (ourAgents, ourArcSet) ← liftK2 (localAgentState host)
  let commonArcSet := ourArcSet.intersection otherArcSet
  let state ← createAcceptState host fromPeer initiate ourAgents commonArcSet
  let snapshot ← liftK2 (minimalSnapshotMessage host commonArcSet)
  let missingAgents ← liftK2 (filterKnownAgents host initiate.participatingAgents)
  let newSince ← getRequestNewSince host fromPeer
  let (newOps, usedBytes, newBookmark) ←
    liftK2 (retrieveNewOpIds host commonArcSet initiate.newSince initiate.maxOpDataBytes)
  -- what is offered here is no longer there for the DHT diff
  writeAccepted fromPeer (state.spend usedBytes)
  let g ← Eff.read
  pure (some (.accept
    { sessionId := initiate.sessionId
      participatingAgents := ourAgents
      arcSet := some ourArcSet.encode
      missingAgents := missingAgents
      newSince := newSince
      maxOpDataBytes := g.config.maxGossipOpBytes
      newOps := newOps
      updatedNewSince := newBookmark
      dhtOpCount := some host.dht.opCount
      snapshot := snapshot }))

def respondToInitiate (fromPeer : Url) (initiate : InitiateMessage) :
    GossipM Url (Option GossipMessage) := do
  if !(← checkPeerInitiateRate host fromPeer initiate) then pure none
  else do
    match ← refuseIfBusy host fromPeer initiate with
    | some busy => pure (some busy)
    | none => acceptInitiate host fromPeer initiate

/-! ## Accept -/

def getCommonArcSet (initiated : InitiatedStage) (accept : AcceptMessage) : GossipM Url ArcSet :=
  match accept.arcSet with
  | some value => do
      let otherArcSet ← liftK2 (ArcSet.decode value)
      pure (otherArcSet.intersection initiated.ourArcSet)
  | none => blame .noArcSet

/-- The budget left of an accepted announcement after the new ops. -/
def acceptedBudget (maxRequestGossipOpBytes maxOpDataBytes usedBytes : Nat) : Int :=
  toI32 (subU32 (min maxRequestGossipOpBytes maxOpDataBytes) usedBytes)

/-- The answer to the snapshot of an accept message, and the stage it leaves. -/
def answerMinimalSnapshot (accept : AcceptMessage) (acceptResponse : AcceptResponseMessage)
    (commonArcSet : ArcSet) (state : GossipRoundState Url) (nextAction : DhtSnapshotNextAction) :
    GossipM Url (Option GossipMessage) :=
  match nextAction with
  | .identical => do
      writeInitiated { state with stage := .noDiff }
      updateStorageArcs host nextAction
      pure (some (.noDiff
        { sessionId := accept.sessionId, acceptResponse := some acceptResponse
          cannotCompare := false }))
  | .cannotCompare => do
      writeInitiated { state with stage := .noDiff }
      pure (some (.noDiff
        { sessionId := accept.sessionId, acceptResponse := some acceptResponse
          cannotCompare := true }))
  | .newSnapshot snapshot =>
      match snapshot with
      -- a disc mismatch
      | .discSectors _ _ => do
          writeInitiated { state with stage := .discSectorsDiff commonArcSet }
          let message ← liftK2 (SnapshotDiscSectorsMessage.ofSnapshot snapshot)
          pure (some (.discSectorsDiff
            { sessionId := accept.sessionId, acceptResponse := some acceptResponse
              snapshot := some message }))
      -- the disc agrees and some rings differ
      | .ringSectorDetails _ _ => do
          writeInitiated { state with stage := .ringSectorDetailsDiff commonArcSet snapshot }
          let message ← liftK2 (SnapshotRingSectorDetailsMessage.ofSnapshot snapshot)
          pure (some (.ringSectorDetailsDiff
            { sessionId := accept.sessionId, acceptResponse := some acceptResponse
              snapshot := some message }))
      | _ => do
          removeInitiated
          pure (terminate accept.sessionId "Unexpected snapshot type")
  | _ => do
      removeInitiated
      pure (terminate accept.sessionId "Unexpected next action")

def respondToAccept (fromPeer : Url) (accept : AcceptMessage) :
    GossipM Url (Option GossipMessage) := do
  let (state, initiated) ←
    checkInitiated .accept fun state => state.validateAccept fromPeer accept
  let commonArcSet ← getCommonArcSet initiated accept
  let missingAgents ← liftK2 (filterKnownAgents host accept.participatingAgents)
  let sendAgentInfos := loadAgentInfos host accept.missingAgents
  updateNewOpsBookmark host fromPeer accept.updatedNewSince
  recordDhtOpCount host fromPeer accept.dhtOpCount
  requestOps host accept.newOps fromPeer
  let (sendNewOps, usedBytes, sendNewBookmark) ←
    liftK2 (retrieveNewOpIds host commonArcSet accept.newSince accept.maxOpDataBytes)
  -- the state was created with a budget of 0, so it is set and charged at once
  let g ← Eff.read
  let state := { state with
    peerMaxOpDataBytes :=
      acceptedBudget g.config.maxRequestGossipOpBytes accept.maxOpDataBytes usedBytes }
  writeInitiated state
  let acceptResponse : AcceptResponseMessage :=
    { missingAgents, providedAgents := sendAgentInfos, newOps := sendNewOps
      updatedNewSince := sendNewBookmark }
  -- a minimal snapshot cannot be answered with op ids: budget 0
  match accept.snapshot with
  | some theirSnapshot => do
      let (nextAction, _) ←
        liftK2 (host.dht.handleSnapshot loc theirSnapshot.toSnapshot none commonArcSet 0)
      answerMinimalSnapshot host accept acceptResponse commonArcSet state nextAction
  | none => do
      writeInitiated { state with stage := .noDiff }
      pure (some (.noDiff
        { sessionId := accept.sessionId, acceptResponse := some acceptResponse
          cannotCompare := false }))

/-! ## The messages of an acceptor -/

def respondToNoDiff (fromPeer : Url) (noDiff : NoDiffMessage) :
    GossipM Url (Option GossipMessage) := do
  let (_, acceptResponse) ←
    checkAccepted .noDiff fromPeer fun state => state.validateNoDiff fromPeer noDiff
  removeAccepted fromPeer
  let sendAgents ← handleAcceptResponse host fromPeer acceptResponse
  match sendAgents with
  | some (agent :: agents) =>
      pure (some (.agents { sessionId := noDiff.sessionId, providedAgents := agent :: agents }))
  | _ => pure (terminate noDiff.sessionId "No agents requested")

def respondToDiscSectorsDiff (fromPeer : Url) (diff : DiscSectorsDiffMessage) :
    GossipM Url (Option GossipMessage) := do
  let (state, accepted, acceptResponse, snapshot) ←
    checkAccepted .discSectorsDiff fromPeer fun state => state.validateDiscSectorsDiff fromPeer diff
  let sendAgents ← handleAcceptResponse host fromPeer acceptResponse
  let theirSnapshot ← liftK2 snapshot.toSnapshot
  let (nextAction, _) ←
    liftK2 (host.dht.handleSnapshot loc theirSnapshot none accepted.commonArcSet 0)
  match nextAction with
  -- nothing to compare: the round ends here, with the agent infos that were asked for
  | .cannotCompare | .identical => do
      removeAccepted fromPeer
      match sendAgents with
      | some sendAgents =>
          pure (some (.agents { sessionId := diff.sessionId, providedAgents := sendAgents }))
      | none => pure none
  | .newSnapshot snapshot => do
      writeAccepted fromPeer
        { state with stage := .discSectorDetailsDiff accepted.commonArcSet snapshot }
      let message ← liftK2 (SnapshotDiscSectorDetailsMessage.ofSnapshot snapshot)
      pure (some (.discSectorDetailsDiff
        { sessionId := diff.sessionId, providedAgents := sendAgents.getD []
          snapshot := some message }))
  | _ => do
      removeAccepted fromPeer
      pure (terminate diff.sessionId "Unexpected next action")

def respondToDiscSectorDetailsDiffResponse (fromPeer : Url)
    (response : DiscSectorDetailsDiffResponseMessage) : GossipM Url (Option GossipMessage) := do
  let (state, details, snapshot) ←
    checkAccepted .discSectorDetailsDiffResponse fromPeer fun state =>
      state.validateDiscSectorDetailsDiffResponse fromPeer response
  -- the ids are requested before the snapshot is read, so a bad snapshot does not lose them
  requestOps host response.missingIds fromPeer
  let theirSnapshot ← liftK2 snapshot.toSnapshot
  let (nextAction, usedBytes) ← liftK2 (host.dht.handleSnapshot loc theirSnapshot
    (some details.snapshot) details.commonArcSet state.peerMaxOpDataBytes)
  -- the round is over on this side whatever the comparison says
  writeAccepted fromPeer (state.spend usedBytes)
  removeAccepted fromPeer
  match nextAction with
  | .cannotCompare | .identical => pure (terminate response.sessionId "Nothing to compare")
  | .hashList opIds =>
      pure (some (.hashes { sessionId := response.sessionId, missingIds := opIds }))
  | _ => pure (terminate response.sessionId "Unexpected next action")

def respondToRingSectorDetailsDiff (fromPeer : Url) (diff : RingSectorDetailsDiffMessage) :
    GossipM Url (Option GossipMessage) := do
  let (state, accepted, acceptResponse, snapshot) ←
    checkAccepted .ringSectorDetailsDiff fromPeer fun state =>
      state.validateRingSectorDetailsDiff fromPeer diff
  let _ ← handleAcceptResponse host fromPeer acceptResponse
  let theirSnapshot ← liftK2 snapshot.toSnapshot
  let (nextAction, usedBytes) ← liftK2 (host.dht.handleSnapshot loc theirSnapshot none
    accepted.commonArcSet state.peerMaxOpDataBytes)
  let state := state.spend usedBytes
  writeAccepted fromPeer state
  updateStorageArcs host nextAction
  match nextAction with
  | .cannotCompare | .identical => do
      removeAccepted fromPeer
      -- the infos are loaded a second time here, after the accept response was handled
      match loadAgentInfos host acceptResponse.missingAgents with
      | [] => pure (terminate diff.sessionId "Nothing to compare and no agents")
      | agent :: agents =>
          pure (some (.agents { sessionId := diff.sessionId, providedAgents := agent :: agents }))
  -- the round stays open for the hashes of the peer
  | .newSnapshotAndHashList snapshot opIds => do
      writeAccepted fromPeer
        { state with stage := .ringSectorDetailsDiff accepted.commonArcSet snapshot }
      let message ← liftK2 (SnapshotRingSectorDetailsMessage.ofSnapshot snapshot)
      pure (some (.ringSectorDetailsDiffResponse
        { sessionId := diff.sessionId, missingIds := opIds, snapshot := some message }))
  | _ => do
      removeAccepted fromPeer
      pure (terminate diff.sessionId "Unexpected next action")

/-! ## The messages of an initiator -/

def respondToDiscSectorDetailsDiff (fromPeer : Url) (diff : DiscSectorDetailsDiffMessage) :
    GossipM Url (Option GossipMessage) := do
  let (state, commonArcSet, snapshot) ←
    checkInitiated .discSectorDetailsDiff fun state =>
      state.validateDiscSectorDetailsDiff fromPeer diff
  let theirSnapshot ← liftK2 snapshot.toSnapshot
  let (nextAction, usedBytes) ← liftK2 (host.dht.handleSnapshot loc theirSnapshot none
    commonArcSet state.peerMaxOpDataBytes)
  let state := state.spend usedBytes
  writeInitiated state
  match nextAction with
  | .cannotCompare | .identical => do
      removeInitiated
      pure (terminate diff.sessionId "Nothing to compare")
  | .newSnapshotAndHashList snapshot ops => do
      writeInitiated { state with stage := .discSectorDetailsDiff commonArcSet snapshot }
      let message ← liftK2 (SnapshotDiscSectorDetailsMessage.ofSnapshot snapshot)
      pure (some (.discSectorDetailsDiffResponse
        { sessionId := diff.sessionId, missingIds := ops, snapshot := some message }))
  | _ => do
      removeInitiated
      pure (terminate diff.sessionId "Unexpected next action")

def respondToRingSectorDetailsDiffResponse (fromPeer : Url)
    (response : RingSectorDetailsDiffResponseMessage) : GossipM Url (Option GossipMessage) := do
  let (state, details, snapshot) ←
    checkInitiated .ringSectorDetailsDiffResponse fun state =>
      state.validateRingSectorDetailsDiffResponse fromPeer response
  requestOps host response.missingIds fromPeer
  let theirSnapshot ← liftK2 snapshot.toSnapshot
  let (nextAction, usedBytes) ← liftK2 (host.dht.handleSnapshot loc theirSnapshot
    (some details.snapshot) details.commonArcSet state.peerMaxOpDataBytes)
  writeInitiated (state.spend usedBytes)
  updateStorageArcs host nextAction
  removeInitiated
  match nextAction with
  | .cannotCompare | .identical => pure (terminate response.sessionId "Nothing to compare")
  | .hashList opIds =>
      pure (some (.hashes { sessionId := response.sessionId, missingIds := opIds }))
  | _ => pure (terminate response.sessionId "Unexpected next action")

def respondToAgents (fromPeer : Url) (agents : AgentsMessage) : GossipM Url (Option GossipMessage) := do
  let _ ← checkInitiated .agents fun state => state.validateAgents fromPeer agents
  removeInitiated
  liftK2 (receiveAgentInfos host agents.providedAgents)
  pure none

def respondToBusy (fromPeer : Url) (busy : BusyMessage) : GossipM Url (Option GossipMessage) := do
  let _ ← checkInitiated .busy fun state => state.validateBusy fromPeer busy
  removeInitiated
  incrPeerBusy host fromPeer
  setLastGossipTimestamp host fromPeer host.now
  pure none

/-! ## The messages of either -/

/-- Is a message handled as one of the initiated round? -/
def K2Gossip.hasInitiated (g : K2Gossip Url) (fromPeer : Url) (sessionId : Bytes) : Bool :=
  match g.initiatedRoundState with
  | some state => decide (state.sessionWithPeer = fromPeer) && decide (state.sessionId = sessionId)
  | none => false

/-- Is a message handled as one of the accepted round of its sender? -/
def K2Gossip.hasAccepted (g : K2Gossip Url) (fromPeer : Url) (sessionId : Bytes) : Bool :=
  match g.acceptedRoundStates.lookup fromPeer with
  | some state => decide (state.sessionId = sessionId)
  | none => false

def respondToHashes (fromPeer : Url) (hashes : HashesMessage) : GossipM Url (Option GossipMessage) := do
  let g ← Eff.read
  if g.hasInitiated fromPeer hashes.sessionId then do
    removeInitiated
    requestOps host hashes.missingIds fromPeer
    pure none
  else if g.hasAccepted fromPeer hashes.sessionId then do
    removeAccepted fromPeer
    requestOps host hashes.missingIds fromPeer
    pure none
  else blame (.unsolicited .hashes)

/-- A terminate with the wrong session id ends the round with the peer too, but is an error. -/
def respondToTerminate (fromPeer : Url) (message : TerminateMessage) :
    GossipM Url (Option GossipMessage) := do
  let g ← Eff.read
  match g.initiatedRoundState.filter fun state => state.sessionWithPeer = fromPeer with
  | some state => do
      removeInitiated
      -- the slot is emptied even for a wrong session id
      if state.sessionId ≠ message.sessionId then blame (.unsolicited .terminate)
      else do
        incrPeerTerminated host fromPeer
        pure none
  -- only a peer without the initiated slot is looked up among the accepted rounds
  | none =>
      match g.acceptedRoundStates.lookup fromPeer with
      | some state => do
          removeAccepted fromPeer
          if state.sessionId ≠ message.sessionId then blame (.unsolicited .terminate)
          else do
            incrPeerTerminated host fromPeer
            pure none
      | none => blame (.unsolicited .terminate)

/-! ## Any message -/

/-- The handler of a message. -/
def respond (fromPeer : Url) : GossipMessage → GossipM Url (Option GossipMessage)
  | .initiate m => respondToInitiate host fromPeer m
  | .accept m => respondToAccept loc host fromPeer m
  | .noDiff m => respondToNoDiff host fromPeer m
  | .discSectorsDiff m => respondToDiscSectorsDiff loc host fromPeer m
  | .discSectorDetailsDiff m => respondToDiscSectorDetailsDiff loc host fromPeer m
  | .discSectorDetailsDiffResponse m => respondToDiscSectorDetailsDiffResponse loc host fromPeer m
  | .ringSectorDetailsDiff m => respondToRingSectorDetailsDiff loc host fromPeer m
  | .ringSectorDetailsDiffResponse m => respondToRingSectorDetailsDiffResponse loc host fromPeer m
  | .hashes m => respondToHashes host fromPeer m
  | .agents m => respondToAgents host fromPeer m
  | .busy m => respondToBusy host fromPeer m
  | .terminate m => respondToTerminate host fromPeer m

/-- `send_gossip_message`, if there is an answer. -/
def sendAnswer (res : Option GossipMessage) : GossipM Url Unit :=
  if res.isSome then liftK2 (host.call .sendModule) else pure ()

/-- A round is counted as completed when the answer is a final one. -/
def countIfFinal (fromPeer : Url) (res : Option GossipMessage) : GossipM Url Unit :=
  if isFinalMessage res then incrCompletedRounds host fromPeer else pure ()

/-- `respond_to_msg`: the answer that was sent, if any. -/
def respondToMsg (fromPeer : Url) (msg : GossipMessage) : GossipM Url (Option GossipMessage) := do
  let res ← respond loc host fromPeer msg
  sendAnswer host res
  countIfFinal host fromPeer res
  pure res

/-- An error is counted against the peer or against us, if the peer meta store takes it. -/
def K2Gossip.recordError (recorded : Bool) (fromPeer : Url) (e : K2GossipError) (g : K2Gossip Url) :
    K2Gossip Url :=
  if !recorded then g
  else
    match e with
    | .peerBehavior _ =>
        g.setMeta fromPeer fun m => { m with peerBehaviorErrors := increment m.peerBehaviorErrors }
    | .k2 _ => g.setMeta fromPeer fun m => { m with localErrors := increment m.localErrors }

/-- The task of `handle_gossip_message`, when nothing comes in between. -/
def handleGossipMessage (recorded : Bool) (fromPeer : Url) (msg : GossipMessage) (g : K2Gossip Url) :
    K2Gossip Url × Option GossipMessage :=
  match respondToMsg loc host fromPeer msg g with
  | (.ok res, g') => (g', res)
  | (.error e, g') => (g'.recordError recorded fromPeer e, none)

/-! ## Initiating -/

/-- `initiate_gossip`: the initiate message that was sent, if any. -/
def initiateGossip (sessionId : Bytes) (tieBreaker : Nat) (targetPeerUrl : Url) :
    GossipM Url (Option InitiateMessage) := do
  let g ← Eff.read
  if g.initiatedRoundState.isSome then pure none
  else do
    let (ourAgents, ourArcSet) ← liftK2 (localAgentState host)
    let newSince ← getRequestNewSince host targetPeerUrl
    let roundState : GossipRoundState Url :=
      { sessionWithPeer := targetPeerUrl
        startedAt := host.instant
        sessionId := sessionId
        -- set when the Accept arrives
        peerMaxOpDataBytes := 0
        stage := .initiated ourAgents ourArcSet tieBreaker }
    let initiate : InitiateMessage :=
      { sessionId := sessionId
        participatingAgents := ourAgents
        arcSet := some ourArcSet.encode
        tieBreaker := tieBreaker
        newSince := newSince
        maxOpDataBytes := g.config.maxGossipOpBytes
        dhtOpCount := some host.dht.opCount }
    if (g.acceptedRoundStates.lookup targetPeerUrl).isSome then pure none
    else do
      -- marked before the send, so a failed send does not try the peer again at once
      setLastGossipTimestamp host targetPeerUrl host.now
      liftK2 (host.call .sendModule)
      writeInitiated roundState
      pure (some initiate)

/-! ## Timeouts -/

def incrPeerTimeout (peer : Url) (g : K2Gossip Url) : K2Gossip Url :=
  match host.call .incrPeerTimeout with
  | .ok _ => g.setMeta peer fun m => { m with peerTimeouts := increment m.peerTimeouts }
  | .error _ => g

/-- A round has been running for longer than the timeout. -/
def timedOut (config : K2GossipConfig) (state : GossipRoundState Url) : Bool :=
  decide (host.instant - state.startedAt > 1000 * config.roundTimeoutMs)

/-- `remove_timed_out_rounds`; accepted rounds whose state is `locked` by a handler are passed
over. -/
def removeTimedOutRounds (locked : Url → Bool) (g : K2Gossip Url) : K2Gossip Url :=
  let g := match g.initiatedRoundState with
    | some state =>
        if timedOut host g.config state then
          (incrPeerTimeout host state.sessionWithPeer g).setInitiated none
        else g
    | none => g
  let stays : Url → GossipRoundState Url → Bool :=
    fun url state => locked url || !timedOut host g.config state
  let remove := (g.acceptedRoundStates.entries.filter fun e => !stays e.1 e.2).map fun e => e.1
  (remove.foldl (fun g url => incrPeerTimeout host url g) g).setAccepted
    (retain stays g.acceptedRoundStates)

end Handlers

end Gossip
end Kitsune2
