import Kitsune2.Gossip.Answers

/-!
# RoundExchange — a round carries out the exchange of two DHTs

While the DHTs of two nodes stay as they are, the messages of their round are the turns of the
exchange between the DHTs, and each node requests the ids that the other one lists in it.  `Talk`
says for each message in flight which part of the exchange is left.
-/

namespace Kitsune2
namespace Gossip

open Api Lib Dht
open Std (ExtTreeMap)

variable {Url : Type} [DecidableEq Url]

/-! ## The setting -/

/-- What a round is about: the common sectors, and the DHT of each node with the budget that it is
left for its list. -/
structure Agenda where
  arcSet : ArcSet
  initiatorDht : Dht.DhtState
  acceptorDht : Dht.DhtState
  initiatorBudget : Int
  acceptorBudget : Int

namespace Agenda

variable (a : Agenda)

/-- The initiator in the exchange, which handles the first snapshot of it. -/
def initiator (kept : Option DhtSnapshot) : DhtState.Party where
  dht := a.initiatorDht
  budget := a.initiatorBudget
  kept := kept

/-- The acceptor in the exchange, which starts it. -/
def acceptor (kept : Option DhtSnapshot) : DhtState.Party where
  dht := a.acceptorDht
  budget := a.acceptorBudget
  kept := kept

end Agenda

/-- The host of the acceptor lets an initiate through, and leads to the agenda. -/
structure Accepting (a : Agenda) (host : Host) (peer : Url) (g : K2Gossip Url) (m : InitiateMessage) :
    Prop where
  room : burstHasRoom host peer g = true
  free : g.isBusy = false
  arcs : ∀ ourAgents ourArcSet value theirArcSet, localAgentState host = .ok (ourAgents, ourArcSet) →
    m.arcSet = some value → ArcSet.decode value = .ok theirArcSet →
    ourArcSet.intersection theirArcSet = a.arcSet
  budget : ∀ offered, retrieveNewOpIds host a.arcSet m.newSince m.maxOpDataBytes = .ok offered →
    ((acceptState host g.config peer m [] a.arcSet).spend offered.2.1).peerMaxOpDataBytes =
      a.acceptorBudget

/-- What is left of an announced budget is that of the agenda. -/
def Affording (a : Agenda) (host : Host) (g : K2Gossip Url) (m : AcceptMessage) : Prop :=
  ∀ offered, retrieveNewOpIds host a.arcSet m.newSince m.maxOpDataBytes = .ok offered →
    acceptedBudget g.config.maxRequestGossipOpBytes m.maxOpDataBytes offered.2.1 = a.initiatorBudget

/-- The two messages that open a round lead to the agenda. -/
def Leads (a : Agenda) (host : Host) (peer : Url) (g : K2Gossip Url) : GossipMessage → Prop
  | .initiate m => Accepting a host peer g m
  | .accept m => Affording a host g m
  | _ => True

/-! ## What a message reads -/

section Reads

variable {s : DhtSnapshot}

theorem discSectors_reads {message : SnapshotDiscSectorsMessage}
    (h : SnapshotDiscSectorsMessage.ofSnapshot s = .ok message) : message.toSnapshot = .ok s := by
  have hback := throughMessage_ok .ascending s
  cases s with
  | discSectors hashes boundary =>
      unfold throughMessage at hback
      dsimp only at hback
      rw [tryFrom_ascending.1, h] at hback
      exact hback
  | _ => cases h

theorem discSectorDetails_reads {message : SnapshotDiscSectorDetailsMessage}
    (h : SnapshotDiscSectorDetailsMessage.ofSnapshot s = .ok message) :
    ∃ hashes boundary, s = .discSectorDetails hashes boundary ∧ message.toSnapshot = .ok s := by
  have hback := throughMessage_ok .ascending s
  cases s with
  | discSectorDetails hashes boundary =>
      unfold throughMessage at hback
      dsimp only at hback
      rw [tryFrom_ascending.2.1, h] at hback
      exact ⟨hashes, boundary, rfl, hback⟩
  | _ => cases h

theorem ringSectorDetails_reads {message : SnapshotRingSectorDetailsMessage}
    (h : SnapshotRingSectorDetailsMessage.ofSnapshot s = .ok message) :
    ∃ hashes boundary, s = .ringSectorDetails hashes boundary ∧ message.toSnapshot = .ok s := by
  have hback := throughMessage_ok .ascending s
  cases s with
  | ringSectorDetails hashes boundary =>
      unfold throughMessage at hback
      dsimp only at hback
      rw [tryFrom_ascending.2.2, h] at hback
      exact ⟨hashes, boundary, rfl, hback⟩
  | _ => cases h

end Reads

namespace RoundOfTwo

variable (loc : LocCb) (initiatorUrl acceptorUrl : Url) (a : Agenda) (out : DhtState.Outcome)

/-- A slot holds a round in this stage, with this budget. -/
def Holds (slot : Option (GossipRoundState Url)) (budget : Int) (stage : RoundStage) : Prop :=
  ∃ state, slot = some state ∧ state.peerMaxOpDataBytes = budget ∧ state.stage = stage

/-- Both nodes have requested what the other one lists. -/
def AllRequested (gI gA : K2Gossip Url) : Prop :=
  (∀ id ∈ out.fromHandler, gA.Requested initiatorUrl id) ∧
    ∀ id ∈ out.fromOther, gI.Requested acceptorUrl id

/-- The messages in flight to the acceptor and to the initiator, and what is left of the exchange. -/
inductive Talk (gI gA : K2Gossip Url) : List GossipMessage → List GossipMessage → Prop
  | initiate {m : InitiateMessage} {minimal : DhtSnapshot}
      (hminimal : a.acceptorDht.snapshotMinimal a.arcSet = .ok minimal)
      (hrest : DhtState.Remains loc a.arcSet minimal (a.initiator none) (a.acceptor none) out.fromHandler
        out.fromOther) :
      Talk gI gA [.initiate m] []
  | accept {m : AcceptMessage} {message : SnapshotMinimalMessage} {ourAgents : List Bytes}
      (hmessage : m.snapshot = some message)
      (hrest : DhtState.Remains loc a.arcSet message.toSnapshot (a.initiator none) (a.acceptor none)
        out.fromHandler out.fromOther)
      (hacceptor : Holds (gA.acceptedRoundStates.lookup initiatorUrl) a.acceptorBudget
        (.accepted ourAgents a.arcSet)) :
      Talk gI gA [] [.accept m]
  | discSectorsDiff {m : DiscSectorsDiffMessage} {message : SnapshotDiscSectorsMessage}
      {hashes : ExtTreeMap Nat Bytes} {boundary : Int} {ourAgents : List Bytes}
      (hmessage : m.snapshot = some message)
      (hread : message.toSnapshot = .ok (.discSectors hashes boundary))
      (hrest : DhtState.Remains loc a.arcSet (.discSectors hashes boundary) (a.acceptor none)
        (a.initiator none) out.fromOther out.fromHandler)
      (hacceptor : Holds (gA.acceptedRoundStates.lookup initiatorUrl) a.acceptorBudget
        (.accepted ourAgents a.arcSet))
      (hinitiator : Holds (gI.initiatedWith acceptorUrl) a.initiatorBudget (.discSectorsDiff a.arcSet)) :
      Talk gI gA [.discSectorsDiff m] []
  | ringSectorDetailsDiff {m : RingSectorDetailsDiffMessage}
      {message : SnapshotRingSectorDetailsMessage} {hashes : NestedHashes} {boundary : Int}
      {ourAgents : List Bytes} (hmessage : m.snapshot = some message)
      (hread : message.toSnapshot = .ok (.ringSectorDetails hashes boundary))
      (hrest : DhtState.Remains loc a.arcSet (.ringSectorDetails hashes boundary) (a.acceptor none)
        (a.initiator (some (.ringSectorDetails hashes boundary))) out.fromOther out.fromHandler)
      (hacceptor : Holds (gA.acceptedRoundStates.lookup initiatorUrl) a.acceptorBudget
        (.accepted ourAgents a.arcSet))
      (hinitiator : Holds (gI.initiatedWith acceptorUrl) a.initiatorBudget
        (.ringSectorDetailsDiff a.arcSet (.ringSectorDetails hashes boundary))) :
      Talk gI gA [.ringSectorDetailsDiff m] []
  | discSectorDetailsDiff {m : DiscSectorDetailsDiffMessage}
      {message : SnapshotDiscSectorDetailsMessage} {hashes : NestedHashes} {boundary : Int}
      (hmessage : m.snapshot = some message)
      (hread : message.toSnapshot = .ok (.discSectorDetails hashes boundary))
      (hrest : DhtState.Remains loc a.arcSet (.discSectorDetails hashes boundary) (a.initiator none)
        (a.acceptor (some (.discSectorDetails hashes boundary))) out.fromHandler out.fromOther)
      (hinitiator : Holds (gI.initiatedWith acceptorUrl) a.initiatorBudget (.discSectorsDiff a.arcSet))
      (hacceptor : Holds (gA.acceptedRoundStates.lookup initiatorUrl) a.acceptorBudget
        (.discSectorDetailsDiff a.arcSet (.discSectorDetails hashes boundary))) :
      Talk gI gA [] [.discSectorDetailsDiff m]
  | discSectorDetailsDiffResponse {m : DiscSectorDetailsDiffResponseMessage}
      {message : SnapshotDiscSectorDetailsMessage} {hashes : NestedHashes} {boundary : Int}
      {ours : DhtSnapshot} {rest : List Bytes} (hmessage : m.snapshot = some message)
      (hread : message.toSnapshot = .ok (.discSectorDetails hashes boundary))
      (hours : DhtState.isDetails ours = true) (hlisted : out.fromHandler = m.missingIds ++ rest)
      (hrest : DhtState.Remains loc a.arcSet (.discSectorDetails hashes boundary)
        (a.acceptor (some ours))
        (a.initiator none) out.fromOther rest)
      (hacceptor : Holds (gA.acceptedRoundStates.lookup initiatorUrl) a.acceptorBudget
        (.discSectorDetailsDiff a.arcSet ours)) :
      Talk gI gA [.discSectorDetailsDiffResponse m] []
  | ringSectorDetailsDiffResponse {m : RingSectorDetailsDiffResponseMessage}
      {message : SnapshotRingSectorDetailsMessage} {hashes : NestedHashes} {boundary : Int}
      {ours : DhtSnapshot} {rest : List Bytes} (hmessage : m.snapshot = some message)
      (hread : message.toSnapshot = .ok (.ringSectorDetails hashes boundary))
      (hours : DhtState.isDetails ours = true) (hlisted : out.fromOther = m.missingIds ++ rest)
      (hrest : DhtState.Remains loc a.arcSet (.ringSectorDetails hashes boundary)
        (a.initiator (some ours))
        (a.acceptor none) out.fromHandler rest)
      (hinitiator : Holds (gI.initiatedWith acceptorUrl) a.initiatorBudget
        (.ringSectorDetailsDiff a.arcSet ours)) :
      Talk gI gA [] [.ringSectorDetailsDiffResponse m]
  | hashesToInitiator {m : HashesMessage} (hlisted : m.missingIds = out.fromOther)
      (hrequested : ∀ id ∈ out.fromHandler, gA.Requested initiatorUrl id) :
      Talk gI gA [] [.hashes m]
  | hashesToAcceptor {m : HashesMessage} (hlisted : m.missingIds = out.fromHandler)
      (hrequested : ∀ id ∈ out.fromOther, gI.Requested acceptorUrl id) :
      Talk gI gA [.hashes m] []

/-- The nodes answer with their DHTs, and whatever else they do leaves the round and all requests. -/
def Carries (s : RoundOfTwo Url) : RoundEvent Url → Prop
  | .initiatorHandles host _ => host.Answers ∧ host.dht = a.initiatorDht ∧
      ∀ msg ∈ s.toInitiator.head?, Leads a host acceptorUrl s.initiator msg
  | .acceptorHandles host _ => host.Answers ∧ host.dht = a.acceptorDht ∧
      ∀ msg ∈ s.toAcceptor.head?, Leads a host initiatorUrl s.acceptor msg
  | .initiatorMoves g => LeavesRounds acceptorUrl s.initiator g ∧
      s.initiator.requestedOps ⊆ g.requestedOps
  | .acceptorMoves g => LeavesRounds initiatorUrl s.acceptor g ∧
      s.acceptor.requestedOps ⊆ g.requestedOps

/-! ## Frame -/

section Frame

variable {loc initiatorUrl acceptorUrl a out} {gI gA gI' gA' : K2Gossip Url}
  {toA toI : List GossipMessage}

omit [DecidableEq Url] in
theorem AllRequested.of_subset (h : AllRequested initiatorUrl acceptorUrl out gI gA)
    (hI : gI.requestedOps ⊆ gI'.requestedOps) (hA : gA.requestedOps ⊆ gA'.requestedOps) :
    AllRequested initiatorUrl acceptorUrl out gI' gA' :=
  ⟨fun id hid => (h.1 id hid).of_subset hA, fun id hid => (h.2 id hid).of_subset hI⟩

/-- The rounds and requests of a node are all that the talk is about. -/
theorem Talk.of_subset (h : Talk loc initiatorUrl acceptorUrl a out gI gA toA toI)
    (hslotI : gI'.initiatedWith acceptorUrl = gI.initiatedWith acceptorUrl)
    (hslotA : gA'.acceptedRoundStates.lookup initiatorUrl = gA.acceptedRoundStates.lookup initiatorUrl)
    (hI : gI.requestedOps ⊆ gI'.requestedOps) (hA : gA.requestedOps ⊆ gA'.requestedOps) :
    Talk loc initiatorUrl acceptorUrl a out gI' gA' toA toI := by
  -- a talk is about the two slots and what has been requested, and these are kept
  cases h with
  | initiate hminimal hrest => exact .initiate hminimal hrest
  | accept hmessage hrest hacceptor => exact .accept hmessage hrest (hslotA.symm ▸ hacceptor)
  | discSectorsDiff hmessage hread hrest hacceptor hinitiator =>
      exact .discSectorsDiff hmessage hread hrest (hslotA.symm ▸ hacceptor)
        (hslotI.symm ▸ hinitiator)
  | ringSectorDetailsDiff hmessage hread hrest hacceptor hinitiator =>
      exact .ringSectorDetailsDiff hmessage hread hrest (hslotA.symm ▸ hacceptor)
        (hslotI.symm ▸ hinitiator)
  | discSectorDetailsDiff hmessage hread hrest hinitiator hacceptor =>
      exact .discSectorDetailsDiff hmessage hread hrest (hslotI.symm ▸ hinitiator)
        (hslotA.symm ▸ hacceptor)
  | discSectorDetailsDiffResponse hmessage hread hours hlisted hrest hacceptor =>
      exact .discSectorDetailsDiffResponse hmessage hread hours hlisted hrest
        (hslotA.symm ▸ hacceptor)
  | ringSectorDetailsDiffResponse hmessage hread hours hlisted hrest hinitiator =>
      exact .ringSectorDetailsDiffResponse hmessage hread hours hlisted hrest
        (hslotI.symm ▸ hinitiator)
  | hashesToInitiator hlisted hrequested =>
      exact .hashesToInitiator hlisted fun id hid => (hrequested id hid).of_subset hA
  | hashesToAcceptor hlisted hrequested =>
      exact .hashesToAcceptor hlisted fun id hid => (hrequested id hid).of_subset hI

end Frame

/-! ## What is compared -/

section Compared

variable {loc} {host : Host} {peer : Url} {state : GossipRoundState Url} {c : Comparison}
  {action : DhtSnapshotNextAction} {used : Nat}

theorem answers_of_turn
    (hturn : host.dht.handleSnapshot loc c.theirSnapshot c.ourPreviousSnapshot c.arcSet
      c.maxOpDataBytes = .ok (action, used)) : c.answers loc host.dht = true := by
  unfold Comparison.answers
  rw [hturn]
  rfl

/-- A comparison that is answered with more has found a difference. -/
theorem not_showsNothing_of_turn
    (hturn : host.dht.handleSnapshot loc c.theirSnapshot c.ourPreviousSnapshot c.arcSet
      c.maxOpDataBytes = .ok (action, used))
    (hidentical : action ≠ .identical) (hcannot : action ≠ .cannotCompare) :
    c.showsNothing host.dht = false := by
  rcases DhtState.handleSnapshot_answered hturn with ⟨ours, hours, -⟩
  unfold Comparison.showsNothing
  rw [hours]
  refine decide_eq_false ?_
  unfold DhtState.handleSnapshot at hturn
  split at hturn
  · cases hturn
  rcases bind_eq_ok_iff.mp hturn with ⟨ours', hours', hturn⟩
  cases hours'.symm.trans hours
  rintro (hcompare | hcompare)
  · rw [hcompare] at hturn
    cases hturn
    exact hidentical rfl
  · rw [hcompare] at hturn
    cases hturn
    exact hcannot rfl

omit [DecidableEq Url] in
/-- The comparison for a message of the round in a slot. -/
theorem comparison_in_slot {slot : Option (GossipRoundState Url)} {msg : GossipMessage}
    (hslot : slot = some state) (hcomparison : state.comparison msg = some c) {p : Comparison → Prop}
    (hc : p c) : ∀ state' ∈ slot, ∀ c' ∈ state'.comparison msg, p c' := by
  intro state' hstate' c' hc'
  cases hslot.symm.trans hstate'
  cases hcomparison.symm.trans hc'
  exact hc

end Compared

/-! ## The turns of the acceptor -/

section Acceptor

variable {loc initiatorUrl acceptorUrl a out} {host : Host} {gI gA : K2Gossip Url} {msg : GossipMessage}
  {ourAgents : List Bytes}

/-- Everything is requested already, or the message meets its condition and the talk goes on from
what its handler returns. -/
def AcceptorTurn (loc : LocCb) (initiatorUrl acceptorUrl : Url) (a : Agenda) (out : DhtState.Outcome)
    (host : Host) (gI gA : K2Gossip Url) (msg : GossipMessage) : Prop :=
  AllRequested initiatorUrl acceptorUrl out gI gA ∨
    MeetsPeer loc host initiatorUrl (gA.acceptedRoundStates.lookup initiatorUrl) gA msg ∧
      ∀ answer g₁, Returns (respond loc host initiatorUrl msg) gA answer g₁ →
        AllRequested initiatorUrl acceptorUrl out gI g₁ ∨
          Talk loc initiatorUrl acceptorUrl a out gI g₁ [] answer.toList

omit [DecidableEq Url] in
theorem comparison_initiate (state : GossipRoundState Url) (m : InitiateMessage) :
    state.comparison (.initiate m) = none := by
  unfold GossipRoundState.comparison
  cases state.stage with
  | _ => rfl

omit [DecidableEq Url] in
theorem comparison_hashes (state : GossipRoundState Url) (m : HashesMessage) :
    state.comparison (.hashes m) = none := by
  unfold GossipRoundState.comparison
  cases state.stage with
  | _ => rfl

theorem acceptorTurn_initiate {m : InitiateMessage} {minimal : DhtSnapshot} (hhost : host.Answers)
    (hdht : host.dht = a.acceptorDht) (hnone : gA.initiatedWith initiatorUrl = none)
    (haccepting : Accepting a host initiatorUrl gA m)
    (hminimal : a.acceptorDht.snapshotMinimal a.arcSet = .ok minimal)
    (hrest : DhtState.Remains loc a.arcSet minimal (a.initiator none) (a.acceptor none) out.fromHandler
      out.fromOther) :
    AcceptorTurn loc initiatorUrl acceptorUrl a out host gI gA (.initiate m) := by
  refine Or.inr ⟨⟨hhost, ?_, haccepting.room⟩, ?_⟩
  · intro state _ c hc
    rw [comparison_initiate] at hc
    cases hc
  intro answer g₁ hret
  have hadmits : admitsInitiate host initiatorUrl m gA = true :=
    admitsInitiate_of_single hnone haccepting.room
  rcases respondToInitiate_returns hret hadmits haccepting.free
    with ⟨accept, ourAgents, ourArcSet, theirArcSet, offered, rfl, haccept⟩
  rcases haccept.arcs with ⟨value, hvalue, hdecode⟩
  have harcs := haccepting.arcs _ _ _ _ haccept.agents hvalue hdecode
  have hsnapshot := haccept.snapshot
  have hnewOps := haccept.newOps
  have hslot := haccept.slot
  rw [harcs] at hsnapshot hnewOps hslot
  -- there are sectors in common, since there is an exchange about them
  unfold minimalSnapshotMessage at hsnapshot
  split at hsnapshot
  · rw [hdht] at hsnapshot
    rcases bind_eq_ok_iff.mp hsnapshot with ⟨minimal', hminimal', hsnapshot⟩
    cases hminimal'.symm.trans hminimal
    rcases bind_eq_ok_iff.mp hsnapshot with ⟨message, hmade, hsnapshot⟩
    have hread : message.toSnapshot = minimal := by
      cases minimal with
      | minimal top boundary rings =>
          cases hmade
          rfl
      | _ => cases hmade
    rw [← hread] at hrest
    refine Or.inr (.accept (Except.ok.inj hsnapshot).symm hrest ⟨_, hslot, ?_, rfl⟩)
    exact haccepting.budget offered hnewOps
  · rename_i hcount
    unfold DhtState.snapshotMinimal at hminimal
    rw [if_pos (Nat.eq_zero_of_not_pos hcount)] at hminimal
    cases hminimal

theorem acceptorTurn_discSectorsDiff {m : DiscSectorsDiffMessage}
    {message : SnapshotDiscSectorsMessage} {hashes : ExtTreeMap Nat Bytes} {boundary : Int}
    (hhost : host.Answers) (hdht : host.dht = a.acceptorDht) (hmessage : m.snapshot = some message)
    (hread : message.toSnapshot = .ok (.discSectors hashes boundary))
    (hrest : DhtState.Remains loc a.arcSet (.discSectors hashes boundary) (a.acceptor none)
      (a.initiator none) out.fromOther out.fromHandler)
    (hacceptor : Holds (gA.acceptedRoundStates.lookup initiatorUrl) a.acceptorBudget
      (.accepted ourAgents a.arcSet))
    (hinitiator : Holds (gI.initiatedWith acceptorUrl) a.initiatorBudget (.discSectorsDiff a.arcSet)) :
    AcceptorTurn loc initiatorUrl acceptorUrl a out host gI gA (.discSectorsDiff m) := by
  rcases hacceptor with ⟨state, hslot, hbudget, hstage⟩
  rcases hrest.turn with ⟨action, used, hturn, hanswer, hleft⟩
  rw [DhtState.handleSnapshot_budget rfl _ 0] at hturn
  have hturn : host.dht.handleSnapshot loc (.discSectors hashes boundary) none a.arcSet 0 =
      .ok (action, used) := hdht.symm ▸ hturn
  cases hanswer with
  | identical =>
      cases hleft with
      | identical hA hI => exact Or.inl ⟨hI ▸ List.forall_mem_nil _, hA ▸ List.forall_mem_nil _⟩
  | cannotCompare =>
      cases hleft with
      | cannotCompare hA hI => exact Or.inl ⟨hI ▸ List.forall_mem_nil _, hA ▸ List.forall_mem_nil _⟩
  -- a snapshot without details is not answered with ops
  | listed hdetails => cases hdetails
  | finished hdetails => cases hdetails
  | details =>
      cases hleft with
      | newSnapshot hrest =>
          have hcomparison : state.comparison (.discSectorsDiff m) = some
              { theirSnapshot := .discSectors hashes boundary, ourPreviousSnapshot := none
                arcSet := a.arcSet, maxOpDataBytes := 0 } := by
            unfold GossipRoundState.comparison
            rw [hstage]
            simp [RoundStage.comparison, hmessage, hread, Except.toOption]
          refine Or.inr ⟨⟨hhost, ?_, ?_⟩, ?_⟩
          · exact comparison_in_slot hslot hcomparison (answers_of_turn hturn)
          · exact comparison_in_slot hslot hcomparison
              (not_showsNothing_of_turn hturn (fun h => by cases h) (fun h => by cases h))
          intro answer g₁ hret
          rcases respondToDiscSectorsDiff_returns hret hslot hstage hmessage hread hturn
            with ⟨⟨m', message', rfl, hmessage', hmade⟩, hslot'⟩
          rcases discSectorDetails_reads hmade with ⟨hashes', boundary', hsame, hread'⟩
          cases hsame
          exact Or.inr (.discSectorDetailsDiff hmessage' hread' hrest hinitiator
            ⟨_, hslot', hbudget, rfl⟩)

theorem acceptorTurn_ringSectorDetailsDiff {m : RingSectorDetailsDiffMessage}
    {message : SnapshotRingSectorDetailsMessage} {hashes : NestedHashes} {boundary : Int}
    (hhost : host.Answers) (hdht : host.dht = a.acceptorDht) (hmessage : m.snapshot = some message)
    (hread : message.toSnapshot = .ok (.ringSectorDetails hashes boundary))
    (hrest : DhtState.Remains loc a.arcSet (.ringSectorDetails hashes boundary) (a.acceptor none)
      (a.initiator (some (.ringSectorDetails hashes boundary))) out.fromOther out.fromHandler)
    (hacceptor : Holds (gA.acceptedRoundStates.lookup initiatorUrl) a.acceptorBudget
      (.accepted ourAgents a.arcSet))
    (hinitiator : Holds (gI.initiatedWith acceptorUrl) a.initiatorBudget
      (.ringSectorDetailsDiff a.arcSet (.ringSectorDetails hashes boundary))) :
    AcceptorTurn loc initiatorUrl acceptorUrl a out host gI gA (.ringSectorDetailsDiff m) := by
  rcases hacceptor with ⟨state, hslot, hbudget, hstage⟩
  rcases hrest.turn with ⟨action, used, hturn, hanswer, hleft⟩
  have hturn : host.dht.handleSnapshot loc (.ringSectorDetails hashes boundary) none a.arcSet
      state.peerMaxOpDataBytes = .ok (action, used) := by
    rw [hdht, hbudget]
    exact hturn
  cases hanswer with
  | identical =>
      cases hleft with
      | identical hA hI => exact Or.inl ⟨hI ▸ List.forall_mem_nil _, hA ▸ List.forall_mem_nil _⟩
  | cannotCompare =>
      cases hleft with
      | cannotCompare hA hI => exact Or.inl ⟨hI ▸ List.forall_mem_nil _, hA ▸ List.forall_mem_nil _⟩
  -- nothing was kept, so this is not the last comparison
  | finished _ hfinal => cases hfinal
  | listed =>
      cases hleft with
      | newSnapshotAndHashList hlisted hrest =>
          have hcomparison : state.comparison (.ringSectorDetailsDiff m) = some
              { theirSnapshot := .ringSectorDetails hashes boundary, ourPreviousSnapshot := none
                arcSet := a.arcSet, maxOpDataBytes := state.peerMaxOpDataBytes } := by
            unfold GossipRoundState.comparison
            rw [hstage]
            simp [RoundStage.comparison, hmessage, hread, Except.toOption]
          refine Or.inr ⟨⟨hhost, ?_, ?_⟩, ?_⟩
          · exact comparison_in_slot hslot hcomparison (answers_of_turn hturn)
          · refine comparison_in_slot hslot hcomparison ?_
            intro hshows
            rw [not_showsNothing_of_turn hturn (fun h => by cases h) (fun h => by cases h)] at hshows
            cases hshows
          intro answer g₁ hret
          rcases respondToRingSectorDetailsDiff_returns hret hslot hstage hmessage hread hturn
            with ⟨m', message', rfl, rfl, hmessage', hmade⟩
          rcases ringSectorDetails_reads hmade with ⟨hashes', boundary', rfl, hread'⟩
          exact Or.inr (.ringSectorDetailsDiffResponse hmessage' hread' rfl hlisted hrest hinitiator)

theorem acceptorTurn_discSectorDetailsDiffResponse {m : DiscSectorDetailsDiffResponseMessage}
    {message : SnapshotDiscSectorDetailsMessage} {hashes : NestedHashes} {boundary : Int}
    {ours : DhtSnapshot} {rest : List Bytes} (hhost : host.Answers)
    (hdht : host.dht = a.acceptorDht) (hmessage : m.snapshot = some message)
    (hread : message.toSnapshot = .ok (.discSectorDetails hashes boundary))
    (hours : DhtState.isDetails ours = true) (hlisted : out.fromHandler = m.missingIds ++ rest)
    (hrest : DhtState.Remains loc a.arcSet (.discSectorDetails hashes boundary) (a.acceptor (some ours))
      (a.initiator none) out.fromOther rest)
    (hacceptor : Holds (gA.acceptedRoundStates.lookup initiatorUrl) a.acceptorBudget
      (.discSectorDetailsDiff a.arcSet ours)) :
    AcceptorTurn loc initiatorUrl acceptorUrl a out host gI gA (.discSectorDetailsDiffResponse m) := by
  rcases hacceptor with ⟨state, hslot, hbudget, hstage⟩
  rcases hrest.turn with ⟨action, used, hturn, hanswer, hleft⟩
  have hturn : host.dht.handleSnapshot loc (.discSectorDetails hashes boundary) (some ours) a.arcSet
      state.peerMaxOpDataBytes = .ok (action, used) := by
    rw [hdht, hbudget]
    exact hturn
  have hcomparison : state.comparison (.discSectorDetailsDiffResponse m) = some
      { theirSnapshot := .discSectorDetails hashes boundary, ourPreviousSnapshot := some ours
        arcSet := a.arcSet, maxOpDataBytes := state.peerMaxOpDataBytes } := by
    unfold GossipRoundState.comparison
    rw [hstage]
    simp [RoundStage.comparison, hmessage, hread, Except.toOption]
  refine Or.inr ⟨⟨hhost, ?_, trivial⟩, ?_⟩
  · exact comparison_in_slot hslot hcomparison (answers_of_turn hturn)
  intro answer g₁ hret
  rcases respondToDiscSectorDetailsDiffResponse_returns hret hslot hstage hmessage hread hturn
    with ⟨hrequested, hlist⟩
  -- the ids that have come with the details are requested, whatever is found now
  have hmissing : ∀ id ∈ m.missingIds, g₁.Requested initiatorUrl id :=
    fun id hid => ⟨m.missingIds, hrequested, hid⟩
  cases hanswer with
  | identical =>
      cases hleft with
      | identical hA hI =>
          rw [hI, List.append_nil] at hlisted
          exact Or.inl ⟨hlisted ▸ hmissing, hA ▸ List.forall_mem_nil _⟩
  | cannotCompare =>
      cases hleft with
      | cannotCompare hA hI =>
          rw [hI, List.append_nil] at hlisted
          exact Or.inl ⟨hlisted ▸ hmissing, hA ▸ List.forall_mem_nil _⟩
  | listed _ hfinal =>
      have hfinal : DhtState.isDetails ours = false := hfinal
      rw [hours] at hfinal
      cases hfinal
  | finished =>
      cases hleft with
      | hashList hI =>
          rw [hI, List.append_nil] at hlisted
          rcases hlist _ rfl with ⟨m', rfl, hids⟩
          exact Or.inr (.hashesToInitiator hids (hlisted ▸ hmissing))

theorem acceptorTurn_hashes {m : HashesMessage} (hhost : host.Answers)
    (hlisted : m.missingIds = out.fromHandler)
    (hrequested : ∀ id ∈ out.fromOther, gI.Requested acceptorUrl id) :
    AcceptorTurn loc initiatorUrl acceptorUrl a out host gI gA (.hashes m) := by
  refine Or.inr ⟨⟨hhost, ?_, trivial⟩, ?_⟩
  · intro state _ c hc
    rw [comparison_hashes] at hc
    cases hc
  intro answer g₁ hret
  have hlast := respondToHashes_returns hret
  exact Or.inl ⟨fun id hid => ⟨m.missingIds, hlast, hlisted ▸ hid⟩, hrequested⟩

end Acceptor

/-! ## The turns of the initiator -/

section Initiator

variable {loc initiatorUrl acceptorUrl a out} {host : Host} {gI gA : K2Gossip Url} {msg : GossipMessage}

/-- The same for a message in flight to the initiator. -/
def InitiatorTurn (loc : LocCb) (initiatorUrl acceptorUrl : Url) (a : Agenda) (out : DhtState.Outcome)
    (host : Host) (gI gA : K2Gossip Url) (msg : GossipMessage) : Prop :=
  AllRequested initiatorUrl acceptorUrl out gI gA ∨
    MeetsPeer loc host acceptorUrl (gI.initiatedWith acceptorUrl) gI msg ∧
      ∀ answer g₁, Returns (respond loc host acceptorUrl msg) gI answer g₁ →
        AllRequested initiatorUrl acceptorUrl out g₁ gA ∨
          Talk loc initiatorUrl acceptorUrl a out g₁ gA answer.toList []

theorem initiatorTurn_accept {m : AcceptMessage} {message : SnapshotMinimalMessage}
    {ourAgents theirAgents : List Bytes} {ourArcSet theirArcSet : ArcSet} {tieBreaker : Nat}
    {state : GossipRoundState Url} (hhost : host.Answers) (hdht : host.dht = a.initiatorDht)
    (haffording : Affording a host gI m) (hslot : gI.initiatedWith acceptorUrl = some state)
    (hstage : state.stage = .initiated ourAgents ourArcSet tieBreaker)
    (harcs : m.arcSet = some theirArcSet.encode)
    (hcommon : theirArcSet.intersection ourArcSet = a.arcSet) (hmessage : m.snapshot = some message)
    (hrest : DhtState.Remains loc a.arcSet message.toSnapshot (a.initiator none) (a.acceptor none)
      out.fromHandler out.fromOther)
    (hacceptor : Holds (gA.acceptedRoundStates.lookup initiatorUrl) a.acceptorBudget
      (.accepted theirAgents a.arcSet)) :
    InitiatorTurn loc initiatorUrl acceptorUrl a out host gI gA (.accept m) := by
  rcases hrest.turn with ⟨action, used, hturn, hanswer, hleft⟩
  have hminimal : DhtState.isDetails message.toSnapshot = false := rfl
  rw [DhtState.handleSnapshot_budget hminimal _ 0] at hturn
  have hturn : host.dht.handleSnapshot loc message.toSnapshot none a.arcSet 0 = .ok (action, used) :=
    hdht.symm ▸ hturn
  have hcomparison : state.comparison (.accept m) = some
      { theirSnapshot := message.toSnapshot, ourPreviousSnapshot := none
        arcSet := a.arcSet, maxOpDataBytes := 0 } := by
    unfold GossipRoundState.comparison
    rw [hstage]
    simp [RoundStage.comparison, harcs, hmessage, ArcSet.decode_encode, Except.toOption, hcommon]
  refine Or.inr ⟨⟨hhost, ?_, trivial⟩, ?_⟩
  · exact comparison_in_slot hslot hcomparison (answers_of_turn hturn)
  intro answer g₁ hret
  have hpeer := (initiatedWith_eq_some_iff.mp hslot).2
  rcases respondToAccept_returns hret hslot hstage harcs hcommon hmessage hturn
    with ⟨offered, response, g₂, hoffered, hret⟩
  rw [haffording offered hoffered] at hret
  cases hanswer with
  | identical =>
      cases hleft with
      | identical hI hA => exact Or.inl ⟨hI ▸ List.forall_mem_nil _, hA ▸ List.forall_mem_nil _⟩
  | cannotCompare =>
      cases hleft with
      | cannotCompare hI hA => exact Or.inl ⟨hI ▸ List.forall_mem_nil _, hA ▸ List.forall_mem_nil _⟩
  | listed hdetails => cases hdetails
  | finished hdetails => cases hdetails
  -- the first snapshot of the round goes out; the acceptor takes the next turn
  | discSectors =>
      cases hleft with
      | newSnapshot hrest =>
          rcases answerMinimalSnapshot_discSectors hret
            with ⟨⟨m', message', rfl, hmessage', hmade⟩, hstate⟩
          have hslot' := initiatedWith_eq_some_iff.mpr ⟨hstate, hpeer⟩
          exact Or.inr (.discSectorsDiff hmessage' (discSectors_reads hmade) hrest hacceptor
            ⟨_, hslot', rfl, rfl⟩)
  | rings =>
      cases hleft with
      | newSnapshot hrest =>
          rcases answerMinimalSnapshot_ringSectorDetails hret
            with ⟨⟨m', message', rfl, hmessage', hmade⟩, hstate⟩
          have hslot' := initiatedWith_eq_some_iff.mpr ⟨hstate, hpeer⟩
          rcases ringSectorDetails_reads hmade with ⟨hashes, boundary, hsame, hread⟩
          cases hsame
          exact Or.inr (.ringSectorDetailsDiff hmessage' hread hrest hacceptor ⟨_, hslot', rfl, rfl⟩)

theorem initiatorTurn_discSectorDetailsDiff {m : DiscSectorDetailsDiffMessage}
    {message : SnapshotDiscSectorDetailsMessage} {hashes : NestedHashes} {boundary : Int}
    (hhost : host.Answers) (hdht : host.dht = a.initiatorDht) (hmessage : m.snapshot = some message)
    (hread : message.toSnapshot = .ok (.discSectorDetails hashes boundary))
    (hrest : DhtState.Remains loc a.arcSet (.discSectorDetails hashes boundary) (a.initiator none)
      (a.acceptor (some (.discSectorDetails hashes boundary))) out.fromHandler out.fromOther)
    (hinitiator : Holds (gI.initiatedWith acceptorUrl) a.initiatorBudget (.discSectorsDiff a.arcSet))
    (hacceptor : Holds (gA.acceptedRoundStates.lookup initiatorUrl) a.acceptorBudget
      (.discSectorDetailsDiff a.arcSet (.discSectorDetails hashes boundary))) :
    InitiatorTurn loc initiatorUrl acceptorUrl a out host gI gA (.discSectorDetailsDiff m) := by
  rcases hinitiator with ⟨state, hslot, hbudget, hstage⟩
  rcases hrest.turn with ⟨action, used, hturn, hanswer, hleft⟩
  have hturn : host.dht.handleSnapshot loc (.discSectorDetails hashes boundary) none a.arcSet
      state.peerMaxOpDataBytes = .ok (action, used) := by
    rw [hdht, hbudget]
    exact hturn
  cases hanswer with
  | identical =>
      cases hleft with
      | identical hI hA => exact Or.inl ⟨hI ▸ List.forall_mem_nil _, hA ▸ List.forall_mem_nil _⟩
  | cannotCompare =>
      cases hleft with
      | cannotCompare hI hA => exact Or.inl ⟨hI ▸ List.forall_mem_nil _, hA ▸ List.forall_mem_nil _⟩
  | finished _ hfinal => cases hfinal
  -- our part is listed; the details go back for the last comparison
  | listed =>
      cases hleft with
      | newSnapshotAndHashList hlisted hrest =>
          have hcomparison : state.comparison (.discSectorDetailsDiff m) = some
              { theirSnapshot := .discSectorDetails hashes boundary, ourPreviousSnapshot := none
                arcSet := a.arcSet, maxOpDataBytes := state.peerMaxOpDataBytes } := by
            unfold GossipRoundState.comparison
            rw [hstage]
            simp [RoundStage.comparison, hmessage, hread, Except.toOption]
          refine Or.inr ⟨⟨hhost, ?_, trivial⟩, ?_⟩
          · exact comparison_in_slot hslot hcomparison (answers_of_turn hturn)
          intro answer g₁ hret
          rcases respondToDiscSectorDetailsDiff_returns hret hslot hstage hmessage hread hturn
            with ⟨m', message', rfl, rfl, hmessage', hmade⟩
          rcases discSectorDetails_reads hmade with ⟨hashes', boundary', rfl, hread'⟩
          exact Or.inr (.discSectorDetailsDiffResponse hmessage' hread' rfl hlisted hrest hacceptor)

theorem initiatorTurn_ringSectorDetailsDiffResponse {m : RingSectorDetailsDiffResponseMessage}
    {message : SnapshotRingSectorDetailsMessage} {hashes : NestedHashes} {boundary : Int}
    {ours : DhtSnapshot} {rest : List Bytes} (hhost : host.Answers)
    (hdht : host.dht = a.initiatorDht) (hmessage : m.snapshot = some message)
    (hread : message.toSnapshot = .ok (.ringSectorDetails hashes boundary))
    (hours : DhtState.isDetails ours = true) (hlisted : out.fromOther = m.missingIds ++ rest)
    (hrest : DhtState.Remains loc a.arcSet (.ringSectorDetails hashes boundary) (a.initiator (some ours))
      (a.acceptor none) out.fromHandler rest)
    (hinitiator : Holds (gI.initiatedWith acceptorUrl) a.initiatorBudget
      (.ringSectorDetailsDiff a.arcSet ours)) :
    InitiatorTurn loc initiatorUrl acceptorUrl a out host gI gA (.ringSectorDetailsDiffResponse m) := by
  rcases hinitiator with ⟨state, hslot, hbudget, hstage⟩
  rcases hrest.turn with ⟨action, used, hturn, hanswer, hleft⟩
  have hturn : host.dht.handleSnapshot loc (.ringSectorDetails hashes boundary) (some ours) a.arcSet
      state.peerMaxOpDataBytes = .ok (action, used) := by
    rw [hdht, hbudget]
    exact hturn
  have hcomparison : state.comparison (.ringSectorDetailsDiffResponse m) = some
      { theirSnapshot := .ringSectorDetails hashes boundary, ourPreviousSnapshot := some ours
        arcSet := a.arcSet, maxOpDataBytes := state.peerMaxOpDataBytes } := by
    unfold GossipRoundState.comparison
    rw [hstage]
    simp [RoundStage.comparison, hmessage, hread, Except.toOption]
  refine Or.inr ⟨⟨hhost, ?_, trivial⟩, ?_⟩
  · exact comparison_in_slot hslot hcomparison (answers_of_turn hturn)
  intro answer g₁ hret
  rcases respondToRingSectorDetailsDiffResponse_returns hret hslot hstage hmessage hread hturn
    with ⟨hrequested, hlist⟩
  -- the ids of the message are requested before it is answered
  have hmissing : ∀ id ∈ m.missingIds, g₁.Requested acceptorUrl id :=
    fun id hid => ⟨m.missingIds, hrequested, hid⟩
  cases hanswer with
  | identical =>
      cases hleft with
      | identical hI hA =>
          rw [hA, List.append_nil] at hlisted
          exact Or.inl ⟨hI ▸ List.forall_mem_nil _, hlisted ▸ hmissing⟩
  | cannotCompare =>
      cases hleft with
      | cannotCompare hI hA =>
          rw [hA, List.append_nil] at hlisted
          exact Or.inl ⟨hI ▸ List.forall_mem_nil _, hlisted ▸ hmissing⟩
  | listed _ hfinal =>
      have hfinal : DhtState.isDetails ours = false := hfinal
      rw [hours] at hfinal
      cases hfinal
  | finished =>
      cases hleft with
      | hashList hA =>
          rw [hA, List.append_nil] at hlisted
          rcases hlist _ rfl with ⟨m', rfl, hids⟩
          exact Or.inr (.hashesToAcceptor hids (hlisted ▸ hmissing))

theorem initiatorTurn_hashes {m : HashesMessage} (hhost : host.Answers)
    (hlisted : m.missingIds = out.fromOther)
    (hrequested : ∀ id ∈ out.fromHandler, gA.Requested initiatorUrl id) :
    InitiatorTurn loc initiatorUrl acceptorUrl a out host gI gA (.hashes m) := by
  refine Or.inr ⟨⟨hhost, ?_, trivial⟩, ?_⟩
  · intro state _ c hc
    rw [comparison_hashes] at hc
    cases hc
  intro answer g₁ hret
  have hlast := respondToHashes_returns hret
  exact Or.inl ⟨hrequested, fun id hid => ⟨m.missingIds, hlast, hlisted ▸ hid⟩⟩

end Initiator

/-! ## Runs -/

section Run

variable {loc initiatorUrl acceptorUrl a out} {host : Host} {session : Bytes} {s : RoundOfTwo Url}
  {msg : GossipMessage} {more others : List GossipMessage} {gI gA : K2Gossip Url}

theorem Talk.acceptorTurn (h : Talk loc initiatorUrl acceptorUrl a out gI gA (msg :: more) others)
    (hhost : host.Answers) (hdht : host.dht = a.acceptorDht)
    (hnone : gA.initiatedWith initiatorUrl = none)
    (hleads : Leads a host initiatorUrl gA msg) :
    AcceptorTurn loc initiatorUrl acceptorUrl a out host gI gA msg := by
  cases h with
  | initiate hminimal hrest =>
      exact acceptorTurn_initiate hhost hdht hnone hleads hminimal hrest
  | discSectorsDiff hmessage hread hrest hacceptor hinitiator =>
      exact acceptorTurn_discSectorsDiff hhost hdht hmessage hread hrest hacceptor hinitiator
  | ringSectorDetailsDiff hmessage hread hrest hacceptor hinitiator =>
      exact acceptorTurn_ringSectorDetailsDiff hhost hdht hmessage hread hrest hacceptor hinitiator
  | discSectorDetailsDiffResponse hmessage hread hours hlisted hrest hacceptor =>
      exact acceptorTurn_discSectorDetailsDiffResponse hhost hdht hmessage hread hours hlisted hrest
        hacceptor
  | hashesToAcceptor hlisted hrequested => exact acceptorTurn_hashes hhost hlisted hrequested

theorem Talk.initiatorTurn {stageI stageA : Option RoundStage}
    (h : Talk loc initiatorUrl acceptorUrl a out gI gA others (msg :: more))
    (hphase : Phase session stageI stageA others (msg :: more))
    (hatI : AtStage acceptorUrl session (gI.initiatedWith acceptorUrl) stageI)
    (hatA : AtStage initiatorUrl session (gA.acceptedRoundStates.lookup initiatorUrl) stageA)
    (hhost : host.Answers) (hdht : host.dht = a.initiatorDht)
    (hleads : Leads a host acceptorUrl gI msg) :
    InitiatorTurn loc initiatorUrl acceptorUrl a out host gI gA msg := by
  cases h with
  | accept hmessage hrest hacceptor =>
      cases hphase with
      | accept _ _ harcs =>
          rcases hatI with ⟨stateI, hslotI, -, -, hstageI⟩
          rcases hatA with ⟨stateA, hslotA, -, -, hstageA⟩
          -- the sectors of the accepted round are those that both nodes have named
          rcases hacceptor with ⟨stateA', hslotA', hbudget, hstageA'⟩
          cases hslotA.symm.trans hslotA'
          have hcommon := (RoundStage.accepted.inj (hstageA.symm.trans hstageA')).2
          exact initiatorTurn_accept hhost hdht hleads hslotI hstageI harcs hcommon
            hmessage hrest ⟨stateA, hslotA, hbudget, hstageA'⟩
      | endsInitiator hends => cases hends
  | discSectorDetailsDiff hmessage hread hrest hinitiator hacceptor =>
      exact initiatorTurn_discSectorDetailsDiff hhost hdht hmessage hread hrest hinitiator hacceptor
  | ringSectorDetailsDiffResponse hmessage hread hours hlisted hrest hinitiator =>
      exact initiatorTurn_ringSectorDetailsDiffResponse hhost hdht hmessage hread hours hlisted hrest
        hinitiator
  | hashesToInitiator hlisted hrequested => exact initiatorTurn_hashes hhost hlisted hrequested

/-- Everything has been requested, or the round talks about the rest of the exchange. -/
def Carried (loc : LocCb) (initiatorUrl acceptorUrl : Url) (a : Agenda) (out : DhtState.Outcome)
    (session : Bytes) (s : RoundOfTwo Url) : Prop :=
  AllRequested initiatorUrl acceptorUrl out s.initiator s.acceptor ∨
    Sound initiatorUrl acceptorUrl session s ∧
      Talk loc initiatorUrl acceptorUrl a out s.initiator s.acceptor s.toAcceptor s.toInitiator

theorem Carried.acceptorHandles {recorded : Bool}
    (h : Carried loc initiatorUrl acceptorUrl a out session s)
    (hcarries : Carries initiatorUrl acceptorUrl a s (.acceptorHandles host recorded)) :
    Carried loc initiatorUrl acceptorUrl a out session
      (step loc initiatorUrl acceptorUrl s (.acceptorHandles host recorded)) := by
  unfold step
  dsimp only
  cases hflight : s.toAcceptor with
  | nil => exact h
  | cons msg more =>
      rcases h with hdone | ⟨hsound, htalk⟩
      · exact Or.inl (hdone.of_subset (List.Subset.refl _)
          (requestedOps_subset (handleGossipMessage_writes recorded msg s.acceptor)))
      rcases hcarries with ⟨hhost, hdht, hleads⟩
      rw [hflight] at htalk hleads
      rcases htalk.acceptorTurn hhost hdht hsound.single (hleads msg rfl)
        with hdone | ⟨hmeets, hnext⟩
      · exact Or.inl (hdone.of_subset (List.Subset.refl _)
          (requestedOps_subset (handleGossipMessage_writes recorded msg s.acceptor)))
      -- the round goes on, and with it the talk
      have hproper : Proper loc initiatorUrl acceptorUrl s (.acceptorHandles host recorded) := by
        intro msg' hmsg'
        rw [hflight] at hmsg'
        cases hmsg'
        exact hmeets
      have hsound' := hsound.acceptorHandles hproper
      unfold step at hsound'
      rw [hflight] at hsound'
      dsimp only at hsound'
      rcases hsound.phase with ⟨stageI, stageA, hatI, hatA, hphase⟩
      rw [hflight] at hphase
      rcases hphase.acceptor hatA hsound.single hmeets with ⟨⟨rfl, hothers⟩, hends⟩
      rcases hrun : respond loc host initiatorUrl msg s.acceptor with ⟨r, g₁⟩
      rcases hends.of_run hrun with ⟨-, answer, stageA', rfl, -, -⟩
      have hrounds := handleGossipMessage_rounds hrun recorded
      have hafter := requestedOps_subset (handleGossipMessage_after hrun recorded)
      rcases hnext answer g₁ hrun with hdone | htalk'
      · exact Or.inl (hdone.of_subset (List.Subset.refl _) hafter)
      · refine Or.inr ⟨hsound', ?_⟩
        have hsent : (Crossing.sent host (.ok answer) : List GossipMessage) = answer.toList :=
          sent_ok hhost.toHealthy answer
        dsimp only
        rw [hothers, hrun]
        dsimp only
        rw [hsent]
        exact htalk'.of_subset rfl (congrArg (fun rounds => rounds.lookup initiatorUrl) hrounds.2)
          (List.Subset.refl _) hafter

theorem Carried.initiatorHandles {recorded : Bool}
    (h : Carried loc initiatorUrl acceptorUrl a out session s)
    (hcarries : Carries initiatorUrl acceptorUrl a s (.initiatorHandles host recorded)) :
    Carried loc initiatorUrl acceptorUrl a out session
      (step loc initiatorUrl acceptorUrl s (.initiatorHandles host recorded)) := by
  unfold step
  dsimp only
  cases hflight : s.toInitiator with
  | nil => exact h
  | cons msg more =>
      rcases h with hdone | ⟨hsound, htalk⟩
      · exact Or.inl (hdone.of_subset
          (requestedOps_subset (handleGossipMessage_writes recorded msg s.initiator))
          (List.Subset.refl _))
      rcases hcarries with ⟨hhost, hdht, hleads⟩
      rcases hsound.phase with ⟨stageI, stageA, hatI, hatA, hphase⟩
      rw [hflight] at htalk hleads hphase
      -- either both lists have been requested, or the turn leads on to the next message
      rcases htalk.initiatorTurn hphase hatI hatA hhost hdht (hleads msg rfl)
        with hdone | ⟨hmeets, hnext⟩
      · exact Or.inl (hdone.of_subset
          (requestedOps_subset (handleGossipMessage_writes recorded msg s.initiator))
          (List.Subset.refl _))
      have hproper : Proper loc initiatorUrl acceptorUrl s (.initiatorHandles host recorded) := by
        intro msg' hmsg'
        rw [hflight] at hmsg'
        cases hmsg'
        exact hmeets
      have hsound' := hsound.initiatorHandles hproper
      unfold step at hsound'
      rw [hflight] at hsound'
      dsimp only at hsound'
      rcases hphase.initiator hatI hmeets with ⟨⟨hothers, rfl⟩, hends⟩
      rcases hrun : respond loc host acceptorUrl msg s.initiator with ⟨r, g₁⟩
      rcases hends.of_run hrun with ⟨answer, stageI', rfl, -, -⟩
      have hrounds := handleGossipMessage_rounds hrun recorded
      have hafter := requestedOps_subset (handleGossipMessage_after hrun recorded)
      rcases hnext answer g₁ hrun with hdone | htalk'
      · exact Or.inl (hdone.of_subset hafter (List.Subset.refl _))
      · refine Or.inr ⟨hsound', ?_⟩
        have hsent : (Crossing.sent host (.ok answer) : List GossipMessage) = answer.toList :=
          sent_ok hhost.toHealthy answer
        dsimp only
        rw [hothers, hrun]
        dsimp only
        rw [hsent]
        exact htalk'.of_subset (initiatedWith_of_sameRounds hrounds) rfl hafter (List.Subset.refl _)

theorem Carried.step (h : Carried loc initiatorUrl acceptorUrl a out session s) {e : RoundEvent Url}
    (hcarries : Carries initiatorUrl acceptorUrl a s e) :
    Carried loc initiatorUrl acceptorUrl a out session (step loc initiatorUrl acceptorUrl s e) := by
  cases e with
  | initiatorHandles host recorded => exact h.initiatorHandles hcarries
  | acceptorHandles host recorded => exact h.acceptorHandles hcarries
  | initiatorMoves g =>
      rcases hcarries with ⟨hleaves, hkept⟩
      rcases h with hdone | ⟨hsound, htalk⟩
      · exact Or.inl (hdone.of_subset hkept (List.Subset.refl _))
      · exact Or.inr ⟨hsound.step (e := .initiatorMoves g) hleaves,
          htalk.of_subset hleaves.initiated rfl hkept (List.Subset.refl _)⟩
  | acceptorMoves g =>
      rcases hcarries with ⟨hleaves, hkept⟩
      rcases h with hdone | ⟨hsound, htalk⟩
      · exact Or.inl (hdone.of_subset (List.Subset.refl _) hkept)
      · exact Or.inr ⟨hsound.step (e := .acceptorMoves g) hleaves,
          htalk.of_subset rfl hleaves.accepted (List.Subset.refl _) hkept⟩

/-- With nothing in flight there is nothing left of the exchange. -/
theorem Carried.of_quiet (h : Carried loc initiatorUrl acceptorUrl a out session s)
    (hA : s.toAcceptor = []) (hI : s.toInitiator = []) :
    AllRequested initiatorUrl acceptorUrl out s.initiator s.acceptor := by
  rcases h with hdone | ⟨-, htalk⟩
  · exact hdone
  · rw [hA, hI] at htalk
    cases htalk

theorem sound_start {initiator initiator' acceptor : K2Gossip Url} {m : InitiateMessage}
    {tieBreaker : Nat}
    (hinitiate : initiateGossip host session tieBreaker acceptorUrl initiator =
      (.ok (some m), initiator'))
    (hsingle : acceptor.initiatedWith initiatorUrl = none)
    (hslot : acceptor.acceptedRoundStates.lookup initiatorUrl = none) :
    Sound initiatorUrl acceptorUrl session (start initiator' acceptor m) := by
  rcases initiateGossip_opens hinitiate with
    ⟨⟨hsession, -⟩, -, ourArcSet, state, harcs, hstate, hpeer, hstateSession, hstage⟩
  exact ⟨⟨some (.initiated m.participatingAgents ourArcSet m.tieBreaker), none,
    ⟨state, initiatedWith_eq_some_iff.mpr ⟨hstate, hpeer⟩, hpeer, hstateSession.trans hsession, hstage⟩,
    hslot, .initiate hsession harcs⟩, hsingle, rfl⟩

theorem carried_start {initiator initiator' acceptor : K2Gossip Url} {m : InitiateMessage}
    {tieBreaker : Nat}
    (hinitiate : initiateGossip host session tieBreaker acceptorUrl initiator =
      (.ok (some m), initiator'))
    (hsingle : acceptor.initiatedWith initiatorUrl = none)
    (hslot : acceptor.acceptedRoundStates.lookup initiatorUrl = none) {turns : Nat}
    (hexchange : DhtState.startExchange loc a.arcSet turns (a.acceptor none) (a.initiator none) =
      .ok (some out)) :
    Carried loc initiatorUrl acceptorUrl a out session (start initiator' acceptor m) := by
  rcases DhtState.remains_start hexchange with ⟨minimal, hminimal, hrest⟩
  exact Or.inr ⟨sound_start hinitiate hsingle hslot, .initiate hminimal hrest⟩

end Run

/-- A round over two DHTs that stay as they are carries out their exchange: once none of its messages
is in flight, each node has requested all that the other one lists in the exchange. -/
theorem round_exchanges (loc : LocCb) {initiatorUrl acceptorUrl : Url} {a : Agenda} {host : Host}
    {session : Bytes} {tieBreaker : Nat} {initiator initiator' acceptor : K2Gossip Url}
    {m : InitiateMessage}
    (hinitiate : initiateGossip host session tieBreaker acceptorUrl initiator =
      (.ok (some m), initiator'))
    (hsingle : acceptor.initiatedWith initiatorUrl = none)
    (hslot : acceptor.acceptedRoundStates.lookup initiatorUrl = none) {turns : Nat}
    {out : DhtState.Outcome}
    (hexchange : DhtState.startExchange loc a.arcSet turns (a.acceptor none) (a.initiator none) =
      .ok (some out))
    (events : List (RoundEvent Url))
    (hrun : Along (step loc initiatorUrl acceptorUrl) (Carries initiatorUrl acceptorUrl a)
      (start initiator' acceptor m) events) :
    let s := events.foldl (step loc initiatorUrl acceptorUrl) (start initiator' acceptor m)
    s.toAcceptor = [] → s.toInitiator = [] →
      (∀ id ∈ out.fromHandler, s.acceptor.Requested initiatorUrl id) ∧
        ∀ id ∈ out.fromOther, s.initiator.Requested acceptorUrl id := by
  intro s hA hI
  have hend : Carried loc initiatorUrl acceptorUrl a out session s :=
    hrun.invariant (carried_start hinitiate hsingle hslot hexchange) fun _ _ h hcarries =>
      h.step hcarries
  exact hend.of_quiet hA hI

/-! ## The exchange about one sector -/

/-- The node that is ahead gossips with the one that is behind. -/
def sectorAgenda : Agenda where
  arcSet := firstSector
  initiatorDht := aheadDht
  acceptorDht := behindDht
  initiatorBudget := (limitedConfig 10).maxGossipOpBytes
  acceptorBudget := (limitedConfig 10).maxGossipOpBytes

theorem sectorHost_agents (known : Option Bytes) (dht : Dht.DhtState) :
    localAgentState (sectorHost known dht) = .ok ([[1]], firstSector) :=
  bind_eq_ok_iff.mpr ⟨_, rfl, bind_eq_ok_iff.mpr
    ⟨firstSector, by show ArcSet.new [sectorArc 0] = .ok firstSector; decide +kernel, rfl⟩⟩

theorem sectorHost_newOps (known : Option Bytes) (dht : Dht.DhtState) (newSince : Int) (limit : Nat) :
    retrieveNewOpIds (sectorHost known dht) firstSector newSince limit = .ok ([], 0, roundTime) := by
  unfold retrieveNewOpIds
  rw [show firstSector.asArcs = [sectorArc 0] by decide +kernel]
  rfl

theorem sectorHost_accepting {g : K2Gossip Nat} (hconfig : g.config = limitedConfig 10)
    (hroom : burstHasRoom (sectorHost (some [9]) behindDht) 1 g = true) (hfree : g.isBusy = false) :
    Accepting sectorAgenda (sectorHost (some [9]) behindDht) 1 g sectorInitiate where
  room := hroom
  free := hfree
  arcs := by
    intro ourAgents ourArcSet value theirArcSet hagents hvalue hdecode
    rw [sectorHost_agents] at hagents
    cases hagents
    cases hvalue
    rw [ArcSet.decode_encode] at hdecode
    cases hdecode
    exact ArcSet.ext (Finset.inter_self _)
  budget := by
    intro offered hoffered
    have hnone : retrieveNewOpIds (sectorHost (some [9]) behindDht) firstSector
        sectorInitiate.newSince sectorInitiate.maxOpDataBytes = .ok ([], 0, roundTime) :=
      sectorHost_newOps _ _ _ _
    cases hnone.symm.trans hoffered
    unfold acceptState
    rw [hconfig]
    decide

/-- Not an initiate, and an accept only with the limit of the agenda. -/
def announcesLimit : GossipMessage → Bool
  | .initiate _ => false
  | .accept m => decide (m.maxOpDataBytes = (limitedConfig 10).maxGossipOpBytes)
  | _ => true

theorem leads_of_announcesLimit {known : Option Bytes} {dht : Dht.DhtState} {peer : Nat}
    {g : K2Gossip Nat}
    {msg : GossipMessage} (h : g.config = limitedConfig 10 ∧ announcesLimit msg = true) :
    Leads sectorAgenda (sectorHost known dht) peer g msg := by
  rcases h with ⟨hconfig, h⟩
  cases msg with
  | initiate m => cases h
  | accept m =>
      intro offered hoffered
      have hnone : retrieveNewOpIds (sectorHost known dht) firstSector m.newSince m.maxOpDataBytes =
          .ok ([], 0, roundTime) := sectorHost_newOps _ _ _ _
      cases hnone.symm.trans hoffered
      rw [hconfig, of_decide_eq_true h]
      decide
  | _ => trivial

/-- What comes in keeps the limit of the agenda. -/
def KeepsLimit (s : RoundOfTwo Nat) : RoundEvent Nat → Prop
  | .initiatorHandles _ _ => ∀ msg ∈ s.toInitiator.head?,
      s.initiator.config = limitedConfig 10 ∧ announcesLimit msg = true
  | .acceptorHandles _ _ => ∀ msg ∈ s.toAcceptor.head?,
      s.acceptor.config = limitedConfig 10 ∧ announcesLimit msg = true
  | .initiatorMoves _ => True
  | .acceptorMoves _ => True

instance KeepsLimit.decidable (s : RoundOfTwo Nat) :
    ∀ e : RoundEvent Nat, Decidable (KeepsLimit s e)
  | .initiatorHandles _ _ => inferInstanceAs (Decidable (∀ msg ∈ s.toInitiator.head?, _ ∧ _))
  | .acceptorHandles _ _ => inferInstanceAs (Decidable (∀ msg ∈ s.toAcceptor.head?, _ ∧ _))
  | .initiatorMoves _ => .isTrue trivial
  | .acceptorMoves _ => .isTrue trivial

theorem sectorRun_keepsLimit :
    Along (step (fun _ => 0) 1 2) KeepsLimit
      (step (fun _ => 0) 1 2 sectorStart (.acceptorHandles (sectorHost (some [9]) behindDht) true))
      (sectorRun (some [9]) behindDht behindDht).tail := by
  decide +kernel

theorem sectorRun_carries :
    Along (step (fun _ => 0) 1 2) (Carries 1 2 sectorAgenda) sectorStart
      (sectorRun (some [9]) behindDht behindDht) := by
  have hbehind := behind_answers (some [9])
  have hahead := ahead_answers (some [9])
  rcases sectorRun_keepsLimit with ⟨h₂, h₃, h₄, h₅, h₆, -⟩
  refine ⟨⟨hbehind, rfl, ?_⟩,
    ⟨hahead, rfl, fun msg hmsg => leads_of_announcesLimit (h₂ msg hmsg)⟩,
    ⟨hbehind, rfl, fun msg hmsg => leads_of_announcesLimit (h₃ msg hmsg)⟩,
    ⟨hahead, rfl, fun msg hmsg => leads_of_announcesLimit (h₄ msg hmsg)⟩,
    ⟨hbehind, rfl, fun msg hmsg => leads_of_announcesLimit (h₅ msg hmsg)⟩,
    ⟨hahead, rfl, fun msg hmsg => leads_of_announcesLimit (h₆ msg hmsg)⟩, trivial⟩
  intro msg hmsg
  cases hmsg
  exact sectorHost_accepting rfl (by decide +kernel) (by decide +kernel)

/-- The acceptor that is behind has requested the op in the end. -/
theorem round_exchanges_sector :
    (sectorEnd (some [9]) behindDht behindDht).acceptor.Requested 1 [1] := by
  have hexchanged := round_exchanges (fun _ => 0) sectorInitiate_sent rfl rfl
    (show DhtState.startExchange (fun _ => 0) sectorAgenda.arcSet 4 (sectorAgenda.acceptor none)
      (sectorAgenda.initiator none) = .ok (some ⟨.listed, 4, [[1]], []⟩) by decide +kernel)
    _ sectorRun_carries
  exact (hexchanged (by decide +kernel) (by decide +kernel)).1 [1] (List.mem_singleton_self _)

end RoundOfTwo

end Gossip
end Kitsune2
