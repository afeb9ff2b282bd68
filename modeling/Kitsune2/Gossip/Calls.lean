import Kitsune2.Gossip.Respond

/-!
# Calls — what a handler does beside its rounds

Between its steps on the round states a handler asks its host for things and writes down values for
the peer it is talking to.  Such a call leaves all rounds and all other peers alone, whether it
succeeds or fails.  `Holding` follows a handler through its steps: what the rounds are now, and that
nothing else of another peer has changed since it began.
-/

namespace Kitsune2
namespace Gossip

open Api Lib Dht

variable {Url : Type} {α β : Type} {peer : Url}
  {g g₁ g₂ : K2Gossip Url} {initiated : Option (GossipRoundState Url)}
  {accepted : AcceptedRounds Url}

/-! ## Following a handler -/

/-- Since `g`, the rounds have become `initiated` and `accepted`, and otherwise only values kept for
`peer` have changed, the counter of completed rounds excepted. -/
structure Holding (peer : Url) (g : K2Gossip Url) (initiated : Option (GossipRoundState Url))
    (accepted : AcceptedRounds Url) (g₁ : K2Gossip Url) : Prop where
  config : g₁.config = g.config
  initiated : g₁.initiatedRoundState = initiated
  accepted : g₁.acceptedRoundStates = accepted
  others : ∀ q, q ≠ peer → g₁.valuesOf q = g.valuesOf q
  completed : (g₁.peerMeta peer).completedRounds = (g.peerMeta peer).completedRounds

theorem Holding.self : Holding peer g g.initiatedRoundState g.acceptedRoundStates g :=
  ⟨Eq.refl _, Eq.refl _, Eq.refl _, fun _ _ => Eq.refl _, Eq.refl _⟩

theorem Holding.trans (h : Holding peer g initiated accepted g₁)
    (h' : Holding peer g₁ g₁.initiatedRoundState g₁.acceptedRoundStates g₂) :
    Holding peer g initiated accepted g₂ :=
  ⟨h'.config.trans h.config, h'.initiated.trans h.initiated, h'.accepted.trans h.accepted,
    fun q hq => (h'.others q hq).trans (h.others q hq), h'.completed.trans h.completed⟩

theorem Holding.setInitiated (h : Holding peer g initiated accepted g₁)
    (state : Option (GossipRoundState Url)) :
    Holding peer g state accepted (g₁.setInitiated state) :=
  ⟨h.config, Eq.refl _, h.accepted, h.others, h.completed⟩

variable [DecidableEq Url]

theorem Holding.insertAccepted (h : Holding peer g initiated accepted g₁)
    (state : GossipRoundState Url) :
    Holding peer g initiated (accepted.insert peer state)
      (g₁.setAccepted (g₁.acceptedRoundStates.insert peer state)) :=
  ⟨h.config, h.initiated, congrArg (fun rounds => rounds.insert peer state) h.accepted, h.others,
    h.completed⟩

theorem Holding.eraseAccepted (h : Holding peer g initiated accepted g₁) :
    Holding peer g initiated (accepted.erase peer)
      (g₁.setAccepted (g₁.acceptedRoundStates.erase peer)) :=
  ⟨h.config, h.initiated, congrArg (fun rounds => rounds.erase peer) h.accepted, h.others, h.completed⟩

/-! ## Values of a peer -/

theorem peerMeta_setMeta_self (f : PeerMeta → PeerMeta) :
    (g.setMeta peer f).peerMeta peer = f (g.peerMeta peer) :=
  Function.update_self _ _ _

theorem peerMeta_setMeta_of_ne (f : PeerMeta → PeerMeta) {q : Url} (hq : q ≠ peer) :
    (g.setMeta peer f).peerMeta q = g.peerMeta q :=
  Function.update_of_ne hq _ _

/-! ## Calls -/

/-- A call leaves the rounds alone, and fails with a `K2Error`, if at all. -/
def IsCall (peer : Url) (m : GossipM Url α) : Prop :=
  ∀ g r g₁, m g = (r, g₁) → Holding peer g g.initiatedRoundState g.acceptedRoundStates g₁ ∧
    ∀ e, r = .error e → ∃ fault, e = .k2 fault

omit [DecidableEq Url] in
theorem isCall_pure (a : α) : IsCall peer (pure a : GossipM Url α) := by
  intro g r g₁ h
  cases h
  exact ⟨Holding.self, fun e he => by cases he⟩

omit [DecidableEq Url] in
theorem isCall_liftK2 (x : Except Fault α) : IsCall peer (liftK2 x : GossipM Url α) := by
  intro g r g₁ h
  cases h
  refine ⟨Holding.self, ?_⟩
  intro e he
  cases x with
  | ok a => cases he
  | error fault =>
      cases he
      exact ⟨fault, rfl⟩

omit [DecidableEq Url] in
theorem isCall_bind {m : GossipM Url α} {f : α → GossipM Url β} (hm : IsCall peer m)
    (hf : ∀ a, IsCall peer (f a)) : IsCall peer (m >>= f) := by
  intro g r g₁ h
  rw [bind_run] at h
  rcases hmg : m g with ⟨rm, gm⟩
  rcases hm g rm gm hmg with ⟨hhold, hfault⟩
  rw [hmg] at h
  cases rm with
  | error e =>
      cases h
      exact ⟨hhold, fun e' he' => by cases he'; exact hfault e rfl⟩
  | ok a =>
      rcases hf a gm r g₁ h with ⟨hhold', hfault'⟩
      exact ⟨hhold.trans hhold', hfault'⟩

omit [DecidableEq Url] in
theorem isCall_read_bind {f : K2Gossip Url → GossipM Url β} (hf : ∀ g, IsCall peer (f g)) :
    IsCall peer (Eff.read >>= f) :=
  fun g r g₁ h => hf g g r g₁ h

theorem isCall_setMeta {f : PeerMeta → PeerMeta}
    (hf : ∀ m, (f m).completedRounds = m.completedRounds) :
    IsCall peer (Eff.modify (K2Gossip.setMeta peer f) : GossipM Url Unit) := by
  intro g r g₁ h
  cases h
  refine ⟨⟨rfl, rfl, rfl, ?_, ?_⟩, fun e he => by cases he⟩
  · intro q hq
    exact congrArg (·, g.burst q) (peerMeta_setMeta_of_ne f hq)
  · exact (congrArg PeerMeta.completedRounds (peerMeta_setMeta_self f)).trans (hf _)

omit [DecidableEq Url] in
theorem liftK2_ok {x : Except Fault α} {a : α} (h : x = .ok a) :
    (liftK2 x : GossipM Url α) g = (.ok a, g) := by
  rw [h]
  rfl

omit [DecidableEq Url] in
theorem liftK2_run {x : Except Fault α} {a : α} (h : (liftK2 x : GossipM Url α) g = (.ok a, g₁)) :
    x = .ok a ∧ g₁ = g := by
  cases x with
  | ok b =>
      cases h
      exact ⟨rfl, rfl⟩
  | error fault => cases h

section Host

variable {host : Host}

theorem putMeta_ok {c : HostCall} {f : PeerMeta → PeerMeta} {u : Unit} (h : host.call c = .ok u) :
    putMeta host c peer f g = (.ok (), g.setMeta peer f) := by
  have hbind : putMeta host c peer f g = (liftK2 (host.call c) >>= fun _ =>
      Eff.modify (K2Gossip.setMeta peer f) : GossipM Url Unit) g := rfl
  rw [hbind, bind_run, liftK2_ok h]
  rfl

theorem putMeta_error {c : HostCall} {f : PeerMeta → PeerMeta} {fault : Fault}
    (h : host.call c = .error fault) : putMeta host c peer f g = (.error (.k2 fault), g) := by
  have hbind : putMeta host c peer f g = (liftK2 (host.call c) >>= fun _ =>
      Eff.modify (K2Gossip.setMeta peer f) : GossipM Url Unit) g := rfl
  rw [hbind, bind_run, h]
  rfl

theorem isCall_putMeta {c : HostCall} {f : PeerMeta → PeerMeta}
    (hf : ∀ m, (f m).completedRounds = m.completedRounds) : IsCall peer (putMeta host c peer f) :=
  isCall_bind (isCall_liftK2 _) fun _ => isCall_setMeta hf

theorem isCall_setLastGossipTimestamp (t : Int) : IsCall peer (setLastGossipTimestamp host peer t) :=
  isCall_putMeta fun _ => rfl

theorem isCall_setPeerDhtOpCount (n : Nat) : IsCall peer (setPeerDhtOpCount host peer n) :=
  isCall_putMeta fun _ => rfl

theorem isCall_incrPeerBusy : IsCall peer (incrPeerBusy host peer) :=
  isCall_putMeta fun _ => rfl

theorem isCall_incrPeerTerminated : IsCall peer (incrPeerTerminated host peer) :=
  isCall_putMeta fun _ => rfl

omit [DecidableEq Url] in
theorem isCall_newOpsBookmark (q : Url) : IsCall peer (newOpsBookmark host q) :=
  isCall_bind (isCall_liftK2 _) fun _ => isCall_read_bind fun _ => isCall_pure _

omit [DecidableEq Url] in
theorem isCall_requestOps (opIds : List Bytes) (source : Url) :
    IsCall peer (requestOps host opIds source) := by
  refine isCall_bind (isCall_liftK2 _) fun _ => ?_
  intro g r g₁ h
  cases h
  exact ⟨⟨rfl, rfl, rfl, fun _ _ => rfl, rfl⟩, fun e he => by cases he⟩

theorem isCall_updateNewOpsBookmark (bookmark : Int) :
    IsCall peer (updateNewOpsBookmark host peer bookmark) := by
  refine isCall_bind (isCall_newOpsBookmark peer) fun previous => ?_
  split
  · exact isCall_putMeta fun _ => rfl
  · exact isCall_pure _

omit [DecidableEq Url] in
theorem isCall_getRequestNewSince (q : Url) : IsCall peer (getRequestNewSince host q) :=
  isCall_bind (isCall_newOpsBookmark q) fun _ => isCall_pure _

theorem isCall_handleAcceptResponse (response : AcceptResponseMessage) :
    IsCall peer (handleAcceptResponse host peer response) := by
  refine isCall_bind (isCall_liftK2 _) fun _ => ?_
  refine isCall_bind (isCall_updateNewOpsBookmark _) fun _ => ?_
  refine isCall_bind (isCall_requestOps _ _) fun _ => ?_
  split
  · exact isCall_pure _
  · exact isCall_pure _

omit [DecidableEq Url] in
theorem isCall_updateStorageArcs (nextAction : DhtSnapshotNextAction) :
    IsCall peer (updateStorageArcs host nextAction : GossipM Url Unit) := by
  unfold updateStorageArcs
  split
  · exact isCall_pure _
  · exact isCall_liftK2 _

theorem isCall_recordDhtOpCount (count : Option Nat) :
    IsCall peer (recordDhtOpCount host peer count) := by
  cases count with
  | none => exact isCall_pure _
  | some n => exact isCall_setPeerDhtOpCount n

/-- The burst tracker writes down only what concerns the peer. -/
theorem isCall_checkAccept : IsCall peer (checkAccept host peer) := by
  have hwrite : ∀ (f : K2Gossip Url → List Int) (b : Bool), IsCall peer (do
      Eff.modify fun g => { g with burst := Function.update g.burst peer (f g) }
      pure b : GossipM Url Bool) := by
    intro f b g r g₁ h
    cases h
    refine ⟨⟨rfl, rfl, rfl, ?_, rfl⟩, fun e he => by cases he⟩
    intro q hq
    exact congrArg (g.peerMeta q, ·) (Function.update_of_ne hq _ _)
  refine isCall_read_bind fun g => ?_
  dsimp only
  split
  · exact hwrite (fun _ => _) false
  · exact hwrite (fun _ => _) true

end Host

/-! ## Steps of a handler -/

section Steps

variable {Q : Except K2GossipError β → K2Gossip Url → Prop} {kind : MessageKind}

omit [DecidableEq Url] in
/-- A call in front of the rest of a handler. -/
theorem ends_call_bind {m : GossipM Url α} {f : α → GossipM Url β} (hm : IsCall peer m)
    (hnow : Holding peer g initiated accepted g₁)
    (hfault : ∀ fault g₂, Holding peer g initiated accepted g₂ → Q (.error (.k2 fault)) g₂)
    (hnext : ∀ a g₂, m g₁ = (.ok a, g₂) → Holding peer g initiated accepted g₂ →
      Ends (f a) g₂ Q) :
    Ends (m >>= f) g₁ Q := by
  refine ends_bind ?_ ?_
  · intro e g₂ he
    rcases hm g₁ _ g₂ he with ⟨hhold, hk2⟩
    rcases hk2 e rfl with ⟨fault, rfl⟩
    exact hfault fault g₂ (hnow.trans hhold)
  · intro a g₂ ha
    exact hnext a g₂ ha (hnow.trans (hm g₁ _ g₂ ha).1)

omit [DecidableEq Url] in
/-- A pure host answer in front of the rest of a handler. -/
theorem ends_liftK2_bind {x : Except Fault α} {f : α → GossipM Url β}
    (hfault : ∀ fault, x = .error fault → Q (.error (.k2 fault)) g₁)
    (hnext : ∀ a, x = .ok a → Ends (f a) g₁ Q) : Ends (liftK2 x >>= f) g₁ Q := by
  cases x with
  | error fault =>
      exact hfault fault rfl
  | ok a =>
      exact hnext a rfl

omit [DecidableEq Url] in
theorem ends_writeInitiated_bind_iff {state : GossipRoundState Url} {f : Unit → GossipM Url β} :
    Ends (writeInitiated state >>= f) g Q ↔ Ends (f ()) (g.setInitiated (some state)) Q :=
  Iff.rfl

omit [DecidableEq Url] in
theorem ends_removeInitiated_bind_iff {f : Unit → GossipM Url β} :
    Ends (removeInitiated >>= f) g Q ↔ Ends (f ()) (g.setInitiated none) Q :=
  Iff.rfl

theorem ends_writeAccepted_bind_iff {state : GossipRoundState Url} {f : Unit → GossipM Url β} :
    Ends (writeAccepted peer state >>= f) g Q ↔
      Ends (f ()) (g.setAccepted (g.acceptedRoundStates.insert peer state)) Q :=
  Iff.rfl

theorem ends_removeAccepted_bind_iff {f : Unit → GossipM Url β} :
    Ends (removeAccepted peer >>= f) g Q ↔
      Ends (f ()) (g.setAccepted (g.acceptedRoundStates.erase peer)) Q :=
  Iff.rfl

/-- The outcome of a check of the round in a slot; it changes nothing. -/
def checkSlot (kind : MessageKind) (slot : Option (GossipRoundState Url))
    (validate : GossipRoundState Url → Except K2GossipError α) :
    Except K2GossipError (GossipRoundState Url × α) :=
  match slot with
  | some state => (validate state).map fun out => (state, out)
  | none => .error (.peerBehavior (.unsolicited kind))

omit [DecidableEq Url] in
theorem checkInitiated_run (validate : GossipRoundState Url → Except K2GossipError α) :
    checkInitiated kind validate g = (checkSlot kind g.initiatedRoundState validate, g) := by
  have hread : checkInitiated kind validate g =
      (match g.initiatedRoundState with
        | some state => do
            let out ← Eff.lift (validate state)
            pure (state, out)
        | none => blame (.unsolicited kind) : GossipM Url _) g := rfl
  rw [hread]
  unfold checkSlot
  cases g.initiatedRoundState with
  | none => rfl
  | some state =>
      dsimp only
      cases validate state with
      | error e => rfl
      | ok out => rfl

theorem checkAccepted_run (validate : GossipRoundState Url → Except K2GossipError α) :
    checkAccepted kind peer validate g =
      (checkSlot kind (g.acceptedRoundStates.lookup peer) validate, g) := by
  have hread : checkAccepted kind peer validate g =
      (match g.acceptedRoundStates.lookup peer with
        | some state => do
            let out ← Eff.lift (validate state)
            pure (state, out)
        | none => blame (.unsolicited kind) : GossipM Url _) g := rfl
  rw [hread]
  unfold checkSlot
  cases g.acceptedRoundStates.lookup peer with
  | none => rfl
  | some state =>
      dsimp only
      cases validate state with
      | error e => rfl
      | ok out => rfl

section Create

variable {host : Host} {m : InitiateMessage} {ourAgents : List Bytes} {commonArcSet : ArcSet}

theorem createAcceptState_some {state : GossipRoundState Url}
    (hslot : g.acceptedRoundStates.lookup peer = some state) :
    createAcceptState host peer m ourAgents commonArcSet g =
      (.error (.k2 (.k2 "peer already accepted")), g) := by
  have hread : createAcceptState host peer m ourAgents commonArcSet g =
      (match g.acceptedRoundStates.lookup peer with
        | some _ => liftK2 (.error (.k2 "peer already accepted"))
        | none => do
            let state := acceptState host g.config peer m ourAgents commonArcSet
            writeAccepted peer state
            pure state : GossipM Url _) g := rfl
  rw [hread, hslot]
  rfl

theorem createAcceptState_none (hslot : g.acceptedRoundStates.lookup peer = none) :
    createAcceptState host peer m ourAgents commonArcSet g =
      (.ok (acceptState host g.config peer m ourAgents commonArcSet),
        g.setAccepted (g.acceptedRoundStates.insert peer
          (acceptState host g.config peer m ourAgents commonArcSet))) := by
  have hread : createAcceptState host peer m ourAgents commonArcSet g =
      (match g.acceptedRoundStates.lookup peer with
        | some _ => liftK2 (.error (.k2 "peer already accepted"))
        | none => do
            let state := acceptState host g.config peer m ourAgents commonArcSet
            writeAccepted peer state
            pure state : GossipM Url _) g := rfl
  rw [hread, hslot]
  rfl

end Create

omit [DecidableEq Url] in
/-- A check in front of the rest of a handler: the message is refused, or there is a round that it
is valid for. -/
theorem ends_check_bind {slot : Option (GossipRoundState Url)}
    {check : GossipM Url (GossipRoundState Url × α)}
    {validate : GossipRoundState Url → Except K2GossipError α}
    {f : GossipRoundState Url × α → GossipM Url β}
    (hrun : check g = (checkSlot kind slot validate, g))
    (hrefused : ∀ e, checkSlot kind slot validate = .error e → Q (.error e) g)
    (hnext : ∀ state out, slot = some state → validate state = .ok out →
      Ends (f (state, out)) g Q) :
    Ends (check >>= f) g Q := by
  refine ends_bind ?_ ?_
  · intro e g₂ he
    rw [hrun] at he
    rcases Prod.mk.inj he with ⟨hslot, rfl⟩
    exact hrefused e hslot
  · intro a g₂ ha
    rw [hrun] at ha
    rcases Prod.mk.inj ha with ⟨hslot, rfl⟩
    unfold checkSlot at hslot
    cases slot with
    | none => cases hslot
    | some state =>
        dsimp only at hslot
        cases hv : validate state with
        | error e =>
            rw [hv] at hslot
            cases hslot
        | ok out =>
            rw [hv] at hslot
            cases hslot
            exact hnext state out rfl hv

end Steps

end Gossip
end Kitsune2
