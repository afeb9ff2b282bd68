import Kitsune2.Gossip.CompletedRounds
import Kitsune2.Gossip.FailedAccept
import Kitsune2.Gossip.Initiating
import Kitsune2.Gossip.Writes

/-!
# Contacts — when a node has gossiped with whom

A peer's turn is recorded with the time at which it is taken, and so is every round that is accepted
from it, before the round is created.  Nothing that a node does takes such a record back.
-/

namespace Kitsune2
namespace Gossip

open Api Lib Dht

variable {Url : Type} [DecidableEq Url]

/-! ## Contacts -/

/-- We have gossiped with the peer at `since` or later. -/
def K2Gossip.ContactedSince (g : K2Gossip Url) (since : Int) (peer : Url) : Prop :=
  ∃ last, (g.peerMeta peer).lastGossipTimestamp = some last ∧ since ≤ last

/-- No contact is forgotten, and every round that is new is with a peer that has been contacted. -/
structure Contacts (since : Int) (g g' : K2Gossip Url) : Prop where
  kept : ∀ q, g.ContactedSince since q → g'.ContactedSince since q
  opened : ∀ q, g.acceptedRoundStates.lookup q = none → g'.acceptedRoundStates.lookup q ≠ none →
    g'.ContactedSince since q

section Contacts

variable {since : Int} {host : Host} {peer : Url} {g g' g₁ g₂ : K2Gossip Url}

theorem Contacts.refl : Contacts since g g :=
  ⟨fun _ h => h, fun _ hnone hsome => absurd hnone hsome⟩

theorem Contacts.trans (h : Contacts since g g₁) (h' : Contacts since g₁ g₂) :
    Contacts since g g₂ := by
  refine ⟨fun q hq => h'.kept q (h.kept q hq), ?_⟩
  intro q hnone hsome
  by_cases hmid : g₁.acceptedRoundStates.lookup q = none
  · exact h'.opened q hmid hsome
  · exact h'.kept q (h.opened q hnone hmid)

theorem lastGossip_setMeta {f : PeerMeta → PeerMeta}
    (hf : ∀ m, (f m).lastGossipTimestamp = m.lastGossipTimestamp) (q : Url) :
    ((g.setMeta peer f).peerMeta q).lastGossipTimestamp = (g.peerMeta q).lastGossipTimestamp := by
  by_cases hq : q = peer
  · subst hq
    rw [peerMeta_setMeta_self, hf]
  · rw [peerMeta_setMeta_of_ne f hq]

theorem contactedSince_gossiped (hnow : since ≤ host.now) :
    (g.setMeta peer fun m => { m with lastGossipTimestamp := some host.now }).ContactedSince since
      peer := by
  refine ⟨host.now, ?_, hnow⟩
  rw [peerMeta_setMeta_self]

theorem K2Gossip.ContactedSince.wrote {q : Url} (h : g.ContactedSince since q)
    (hwrote : Wrote host peer g g')
    (hnow : since ≤ host.now) : g'.ContactedSince since q := by
  cases hwrote with
  | gossiped =>
      by_cases hq : q = peer
      · subst hq
        exact contactedSince_gossiped hnow
      · rcases h with ⟨last, hlast, hle⟩
        refine ⟨last, ?_, hle⟩
        rw [peerMeta_setMeta_of_ne _ hq]
        exact hlast
  | values hf =>
      rcases h with ⟨last, hlast, hle⟩
      exact ⟨last, (lastGossip_setMeta hf q).trans hlast, hle⟩
  | _ => exact h

theorem K2Gossip.ContactedSince.writes {q : Url} (h : g.ContactedSince since q)
    (hwrites : Relation.ReflTransGen (Wrote host peer) g g') (hnow : since ≤ host.now) :
    g'.ContactedSince since q := by
  induction hwrites with
  | refl => exact h
  | tail _ hwrote ih => exact ih.wrote hwrote hnow

/-- Writes that open no round. -/
theorem Contacts.of_writes (hwrites : Relation.ReflTransGen (Wrote host peer) g g')
    (hnow : since ≤ host.now)
    (hopened : ∀ q, g.acceptedRoundStates.lookup q = none → g'.acceptedRoundStates.lookup q = none) :
    Contacts since g g' :=
  ⟨fun _ h => h.writes hwrites hnow, fun q hnone hsome => absurd (hopened q hnone) hsome⟩

end Contacts

/-! ## The tasks of a node -/

section Tasks

variable {loc : LocCb} {since : Int} {host : Host} {recorded : Bool} {peer : Url} {g : K2Gossip Url}

theorem recordError_contacts (hnow : since ≤ host.now) (e : K2GossipError) :
    Contacts since g (g.recordError recorded peer e) := by
  have hwrites : Relation.ReflTransGen (Wrote host peer) g (g.recordError recorded peer e) :=
    recordError_writes recorded e
  refine .of_writes hwrites hnow ?_
  intro q hnone
  rw [(recordError_rounds recorded e).2]
  exact hnone

theorem next_contacts {α : Type} {part : GossipM Url α} {goesOn : α → K2Gossip Url → Task Url}
    (hnow : since ≤ host.now) (h : Contacts since g (part g).2) :
    Contacts since g (Task.next recorded peer g part goesOn).2 := by
  rcases hpart : part g with ⟨r, g'⟩
  rw [hpart] at h
  cases r with
  | ok a =>
      rw [Task.next_ok hpart]
      exact h
  | error e =>
      rw [Task.next_error hpart]
      exact h.trans (recordError_contacts hnow e)

/-- A part of a handler that leaves the rounds. -/
theorem call_contacts {α : Type} {m : GossipM Url α} (hnow : since ≤ host.now)
    (hcall : IsCall peer m) (hmakes : Makes (Wrote host peer) m) : Contacts since g (m g).2 := by
  refine .of_writes (hmakes g) hnow ?_
  intro q hnone
  rw [(hcall g _ _ rfl).1.accepted]
  exact hnone

theorem acceptInitiate_contacts (hnow : since ≤ host.now) (m : InitiateMessage) :
    Contacts since g (acceptInitiate host peer m g).2 := by
  rcases acceptInitiate_steps m g with hsame | hsteps
  · rw [hsame]
    exact .refl
  have hframe := ((acceptInitiate_outcome m Holding.self (Or.inl rfl)).of_run
    (rfl : acceptInitiate host peer m g = (_, _))).frame
  refine ⟨fun q hq => ?_, fun q hnone hsome => ?_⟩
  · exact (hq.wrote .gossiped hnow).writes hsteps hnow
  · -- the contact has been recorded before the round was created
    by_cases hq : q = peer
    · subst hq
      exact (contactedSince_gossiped hnow).writes hsteps hnow
    · exact absurd ((hframe.accepted q hq).trans hnone) hsome

theorem respond_contacts (hnow : since ≤ host.now) {msg : GossipMessage} (hopens : msg.opens = 0) :
    Contacts since g (respond loc host peer msg g).2 := by
  have houtcome := (respond_outcome msg).of_run (rfl : respond loc host peer msg g = (_, _))
  refine .of_writes (makes_respond msg g) hnow ?_
  intro q hnone
  by_cases hq : q = peer
  · subst hq
    exact houtcome.slot hopens hnone
  · exact (houtcome.frame.accepted q hq).trans hnone

theorem advance_contacts (hnow : since ≤ host.now) (t : Task Url) :
    Contacts since g (t.advance loc host recorded g).2 := by
  cases t with
  | received peer msg =>
      cases hopens : msg.opens with
      | zero =>
          rw [Task.advance_received hopens]
          exact next_contacts hnow (respond_contacts hnow hopens)
      | succ n =>
          cases msg with
          | initiate m =>
              -- the rate check may empty the initiated slot, never an accepted one
              have hrate : (checkPeerInitiateRate host peer m g).2.acceptedRoundStates =
                  g.acceptedRoundStates := ((checkPeerInitiateRate_holding m).of_run rfl).1.accepted
              refine next_contacts hnow (.of_writes (makes_checkPeerInitiateRate m g) hnow ?_)
              intro q hnone
              rw [hrate]
              exact hnone
          | _ => cases hopens
  | rated peer m =>
      exact next_contacts hnow (call_contacts hnow (refuseIfBusy_isCall m) (makes_refuseIfBusy m))
  | admitted peer m => exact next_contacts hnow (acceptInitiate_contacts hnow m)
  | answered peer res finished =>
      have hcall : IsCall peer (sendAnswer host res) := isCall_sendAnswer
      exact next_contacts hnow (call_contacts hnow hcall (makes_sendAnswer res))
  | counting peer =>
      have hcall : IsCall peer (liftK2 (host.call .incrCompletedRounds)) := isCall_liftK2 _
      exact next_contacts hnow (call_contacts hnow hcall (makes_liftK2 _))
  | writing peer seen =>
      have hmakes : Makes (Wrote host peer) (putMeta host .incrCompletedRounds peer
          fun m => { m with completedRounds := increment seen }) := makes_putMeta fun _ => rfl
      refine next_contacts hnow (.of_writes (hmakes g) hnow ?_)
      intro q hnone
      cases hcall : host.call .incrCompletedRounds with
      | ok u =>
          rw [putMeta_ok hcall]
          exact hnone
      | error fault =>
          rw [putMeta_error hcall]
          exact hnone
  | done => exact .refl

/-- Initiating opens no accepted round. -/
theorem initiateGossip_contacts (hnow : since ≤ host.now) (sessionId : Bytes) (tieBreaker : Nat)
    (target : Url) : Contacts since g (initiateGossip host sessionId tieBreaker target g).2 := by
  have haccepted : (initiateGossip host sessionId tieBreaker target g).2.acceptedRoundStates =
      g.acceptedRoundStates := (initiateGossip_holding.of_run rfl).accepted
  refine .of_writes (makes_initiateGossip sessionId tieBreaker g) hnow ?_
  intro q hnone
  rw [haccepted]
  exact hnone

/-- A peer that is given its turn is contacted, if no round is accepted from it. -/
theorem initiateGossip_contactedSince (hgives : givesTurn host g = true) (hnow : since ≤ host.now)
    (hnone : g.acceptedRoundStates.lookup peer = none) (sessionId : Bytes) (tieBreaker : Nat) :
    (initiateGossip host sessionId tieBreaker peer g).2.ContactedSince since peer := by
  unfold givesTurn at hgives
  simp only [Bool.and_eq_true, Option.isNone_iff_eq_none] at hgives
  rcases hgives with ⟨⟨⟨hidle, hagents⟩, hbookmark⟩, hset⟩
  have hend : Ends (initiateGossip host sessionId tieBreaker peer) g
      fun _ g' => g'.ContactedSince since peer := by
    unfold initiateGossip
    rw [ends_read_bind_iff, hidle]
    refine ends_liftK2_bind ?_ ?_
    · intro fault hfault
      rw [hfault] at hagents
      cases hagents
    rintro ⟨ourAgents, ourArcSet⟩ _
    refine Returns.ends_bind (getRequestNewSince_run (Task.call_of_isOk hbookmark)) ?_
    dsimp only
    rw [hnone]
    refine Returns.ends_bind (putMeta_ok (Task.call_of_isOk hset)) ?_
    -- what comes after the record keeps it
    have hsend : Makes (Wrote host peer) (liftK2 (host.call .sendModule) : GossipM Url Unit) :=
      makes_liftK2 _
    unfold Ends
    refine (contactedSince_gossiped hnow).writes (hsend.bind (fun _ => ?_) _) hnow
    exact (makes_writeInitiated _).bind fun _ => makes_pure _
  exact hend

theorem incrPeerTimeout_contacts (q : Url) : Contacts since g (incrPeerTimeout host q g) := by
  unfold incrPeerTimeout
  split
  · refine ⟨?_, fun q hnone hsome => absurd hnone hsome⟩
    rintro p ⟨last, hlast, hle⟩
    have hother : ∀ m : PeerMeta, ({ m with peerTimeouts := increment m.peerTimeouts } :
        PeerMeta).lastGossipTimestamp = m.lastGossipTimestamp := fun _ => rfl
    exact ⟨last, (lastGossip_setMeta hother p).trans hlast, hle⟩
  · exact .refl

theorem removeTimedOutRounds_contacts (locked : Url → Bool) :
    Contacts since g (removeTimedOutRounds host locked g) := by
  have hcounts : ∀ (urls : List Url) (g : K2Gossip Url),
      Contacts since g (urls.foldl (fun g url => incrPeerTimeout host url g) g) := by
    intro urls
    induction urls with
    | nil =>
        intro g
        exact .refl
    | cons url urls ih =>
        intro g
        exact (incrPeerTimeout_contacts url).trans (ih _)
  -- the accepted rounds are those that stay, whatever was counted
  have haccepted : ∀ (g : K2Gossip Url) (urls : List Url) (stays : Url → GossipRoundState Url → Bool),
      Contacts since g ((urls.foldl (fun g url => incrPeerTimeout host url g) g).setAccepted
        (retain stays g.acceptedRoundStates)) := by
    intro g urls stays
    refine ⟨(hcounts urls g).kept, ?_⟩
    intro q hnone hsome
    refine absurd ?_ hsome
    show (retain stays g.acceptedRoundStates).lookup q = none
    rw [lookup_retain, hnone]
    rfl
  unfold removeTimedOutRounds
  cases hinit : g.initiatedRoundState with
  | none => exact haccepted g _ _
  | some state =>
      dsimp only
      split
      · have hcounted : Contacts since g (incrPeerTimeout host state.sessionWithPeer g) :=
          incrPeerTimeout_contacts state.sessionWithPeer
        have hremoved : Contacts since g
            ((incrPeerTimeout host state.sessionWithPeer g).setInitiated none) :=
          ⟨hcounted.kept, hcounted.opened⟩
        exact hremoved.trans (haccepted _ _ _)
      · exact haccepted g _ _

/-- No clock that an event reads is before `since`. -/
def Event.NotBefore (since : Int) : Event Url → Prop
  | .advance _ host _ => since ≤ host.now
  | .initiate host _ _ _ => since ≤ host.now
  | _ => True

theorem step_contacts {s : Running Url} {e : Event Url} (hnow : e.NotBefore since) :
    Contacts since s.g (s.step loc e).g := by
  cases e with
  | receive peer msg => exact .refl
  | advance i host recorded =>
      unfold Running.step
      dsimp only
      split
      · exact .refl
      · exact advance_contacts hnow _
  | initiate host sessionId tieBreaker target => exact initiateGossip_contacts hnow _ _ _
  | timeout host locked => exact removeTimedOutRounds_contacts locked

end Tasks

end Gossip
end Kitsune2
