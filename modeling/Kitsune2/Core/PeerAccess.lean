import Kitsune2.Core.PeerStore

/-!
# Peer access — decisions made by a listener of the peer store

Access to a URL is decided when an info that names it is inserted or removed: granted if some agent
is known there and none of those known there is blocked.  The decision then stands until the next
such info or until it is an hour old, while agents move to other URLs, are blocked, or are recorded
at the URL without being inserted.
-/

namespace Kitsune2
namespace Core

open Api Lib

variable {Agent SpaceId Url Sig : Type} [DecidableEq Agent] [DecidableEq Url]

inductive AccessDecision where
  | granted
  | blocked
  deriving DecidableEq, Repr

structure PeerAccess where
  decision : AccessDecision
  decidedAt : Int
  deriving DecidableEq, Repr

abbrev Decisions (Url : Type) := AList fun _ : Url => PeerAccess

/-- The peer store, the blocked agents and the access decisions of a space. -/
structure AccessState (Agent SpaceId Url Sig : Type) where
  peers : PeerStore Agent SpaceId Url Sig
  blocks : List Agent
  decisions : Decisions Url

/-! ## The listener -/

/-- What is decided for a URL, if anything is known there. -/
def verdict (known : KnownPeers Agent Url) (blocks : List Agent) (now : Int) (url : Url) :
    Option PeerAccess :=
  let agents := known.getByUrl url
  if agents.isEmpty then none
  else
    some
      { decision := if agents.any fun agent => blocks.contains agent then .blocked else .granted
        decidedAt := now }

/-- The listener `CorePeerAccessState` registers with the peer store. -/
def onPeerUpdate (known : KnownPeers Agent Url) (blocks : List Agent) (now : Int)
    (decisions : Decisions Url) (info : AgentInfoSigned Agent SpaceId Url Sig) : Decisions Url :=
  match info.url with
  | none => decisions
  | some url =>
      match verdict known blocks now url with
      | none => decisions.erase url
      | some access => decisions.insert url access

/-- One hour. -/
def decisionAgeMicros : Int := 60 * 60 * 1000000

/-! ## The operations -/

inductive AccessOp (Agent SpaceId Url Sig : Type) where
  | insert (nowInst : Nat) (pruneTime now : Int)
      (infos : List (AgentInfoSigned Agent SpaceId Url Sig))
  | remove (now : Int) (agent : Agent)
  | block (agent : Agent)
  | blockAndRemove (now : Int) (agent : Agent)
  /-- Any read of the peer store, which prunes first. -/
  | read (nowInst : Nat) (pruneTime : Int)
  /-- The background task drops old decisions. -/
  | pruneDecisions (now : Int)

namespace AccessState

def new (pruneInterval nowInst : Nat) : AccessState Agent SpaceId Url Sig :=
  { peers := .new pruneInterval nowInst, blocks := [], decisions := ∅ }

/-- What a call on the peer store finds around it: `MemBlocks` and `CoreKnownPeers` do not fail. -/
def surroundings (s : AccessState Agent SpaceId Url Sig) (nowInst : Nat) (pruneTime now : Int) :
    Surroundings Agent :=
  { isBlocked := fun agent => .ok (s.blocks.contains agent)
    recordFault := none
    nowInst, pruneTime, now }

/-- `PeerStore::insert` with its listener, which runs for each info that was taken. -/
def insert (s : AccessState Agent SpaceId Url Sig) (nowInst : Nat) (pruneTime now : Int)
    (infos : List (AgentInfoSigned Agent SpaceId Url Sig)) : AccessState Agent SpaceId Url Sig :=
  let after := s.peers.insert (s.surroundings nowInst pruneTime now) infos
  match after.2 with
  | .error _ => { s with peers := after.1 }
  | .ok inserted =>
      { s with
        peers := after.1
        decisions := inserted.foldl (onPeerUpdate after.1.known s.blocks now) s.decisions }

/-- `PeerStore::remove` with its listener, which runs if something was removed. -/
def remove (s : AccessState Agent SpaceId Url Sig) (now : Int) (agent : Agent) :
    AccessState Agent SpaceId Url Sig :=
  let after := s.peers.remove agent
  match after.2 with
  | none => { s with peers := after.1 }
  | some removed =>
      { s with
        peers := after.1
        decisions := onPeerUpdate after.1.known s.blocks now s.decisions removed }

def block (s : AccessState Agent SpaceId Url Sig) (agent : Agent) :
    AccessState Agent SpaceId Url Sig :=
  { s with blocks := agent :: s.blocks }

def apply (s : AccessState Agent SpaceId Url Sig) :
    AccessOp Agent SpaceId Url Sig → AccessState Agent SpaceId Url Sig
  | .insert nowInst pruneTime now infos => s.insert nowInst pruneTime now infos
  | .remove now agent => s.remove now agent
  | .block agent => s.block agent
  | .blockAndRemove now agent => (s.block agent).remove now agent
  | .read nowInst pruneTime =>
      { s with peers := s.peers.checkPrune (s.surroundings nowInst pruneTime pruneTime) }
  | .pruneDecisions now =>
      { s with
        decisions := retain (fun _ access => decide (now - decisionAgeMicros < access.decidedAt))
          s.decisions }

/-! ## Soundness -/

def Granted (s : AccessState Agent SpaceId Url Sig) (url : Url) : Prop :=
  ∃ access, s.decisions.lookup url = some access ∧ access.decision = .granted

/-- Some agent's latest known info names the URL, and no blocked agent's does. -/
def Deserved (known : KnownPeers Agent Url) (blocks : List Agent) (url : Url) : Prop :=
  (∃ agent, known.urlOf agent = some url) ∧ ∀ agent ∈ blocks, known.urlOf agent ≠ some url

/-- Every URL that is granted access deserves it. -/
def Sound (s : AccessState Agent SpaceId Url Sig) : Prop :=
  ∀ url, s.Granted url → Deserved s.peers.known s.blocks url

theorem mem_getByUrl_iff {known : KnownPeers Agent Url} {url : Url} {agent : Agent} :
    agent ∈ known.getByUrl url ↔ known.urlOf agent = some url := by
  simp only [KnownPeers.getByUrl, List.mem_map, List.mem_filter, decide_eq_true_eq,
    KnownPeers.urlOf, Option.bind_eq_some_iff]
  constructor
  · rintro ⟨⟨agent', entry⟩, ⟨hmem, hurl⟩, rfl⟩
    exact ⟨entry, AList.mem_lookup_iff.mpr hmem, hurl⟩
  · rintro ⟨entry, hlookup, hurl⟩
    exact ⟨⟨agent, entry⟩, ⟨AList.mem_lookup_iff.mp hlookup, hurl⟩, rfl⟩

/-- A fresh verdict grants access exactly to a URL that deserves it. -/
theorem verdict_granted {known : KnownPeers Agent Url} {blocks : List Agent} {now : Int} {url : Url}
    {access : PeerAccess} (h : verdict known blocks now url = some access)
    (hgranted : access.decision = .granted) : Deserved known blocks url := by
  unfold verdict at h
  by_cases hempty : (known.getByUrl url).isEmpty = true
  · simp [hempty] at h
  · by_cases hany : ((known.getByUrl url).any fun agent => blocks.contains agent) = true
    · simp only [hempty, hany, Bool.false_eq_true, if_false, if_true, Option.some.injEq] at h
      rw [← h] at hgranted
      cases hgranted
    · refine ⟨?_, ?_⟩
      · have hne : known.getByUrl url ≠ [] := fun hnil => hempty (List.isEmpty_iff.mpr hnil)
        rcases List.exists_mem_of_ne_nil _ hne with ⟨agent, hmem⟩
        exact ⟨agent, mem_getByUrl_iff.mp hmem⟩
      · intro agent hblocked hurl
        refine hany (List.any_eq_true.mpr ⟨agent, mem_getByUrl_iff.mpr hurl, ?_⟩)
        exact List.contains_iff_mem.mpr hblocked

theorem lookup_onPeerUpdate (known : KnownPeers Agent Url) (blocks : List Agent) (now : Int)
    (decisions : Decisions Url) (info : AgentInfoSigned Agent SpaceId Url Sig) (url : Url) :
    (onPeerUpdate known blocks now decisions info).lookup url =
      if info.url = some url then verdict known blocks now url else decisions.lookup url := by
  cases hurl : info.url with
  | none =>
      simp [onPeerUpdate, hurl]
  | some url' =>
      by_cases heq : url' = url
      · subst heq
        cases hv : verdict known blocks now url' with
        | none =>
            simp [onPeerUpdate, hurl, hv]
        | some access =>
            simp [onPeerUpdate, hurl, hv]
      · have hne : url ≠ url' := fun h => heq h.symm
        cases hv : verdict known blocks now url' with
        | none =>
            simp [onPeerUpdate, hurl, hv, heq, AList.lookup_erase_ne hne]
        | some access =>
            simp [onPeerUpdate, hurl, hv, heq, AList.lookup_insert_ne hne]

/-- After the listener has seen a batch, a URL has its verdict if an info of the batch named it, and
its old decision otherwise. -/
theorem lookup_foldl_onPeerUpdate (known : KnownPeers Agent Url) (blocks : List Agent) (now : Int)
    (infos : List (AgentInfoSigned Agent SpaceId Url Sig)) (url : Url) :
    ∀ decisions : Decisions Url,
      (infos.foldl (onPeerUpdate known blocks now) decisions).lookup url =
        if ∃ info ∈ infos, info.url = some url then verdict known blocks now url
        else decisions.lookup url := by
  induction infos with
  | nil =>
      intro decisions
      simp
  | cons info rest ih =>
      intro decisions
      rw [List.foldl_cons, ih, lookup_onPeerUpdate]
      by_cases hrest : ∃ info ∈ rest, info.url = some url
      · simp [hrest]
      · by_cases hinfo : info.url = some url
        · simp [hinfo]
        · simp [hinfo]

/-- When the URLs of `recomputed` have a fresh verdict and the others their old decision, what
matters is whether the others still deserve theirs. -/
theorem sound_iff_of_recomputed {s s' : AccessState Agent SpaceId Url Sig} {now : Int}
    {recomputed : Url → Prop} [DecidablePred recomputed]
    (h : ∀ url, s'.decisions.lookup url =
      if recomputed url then verdict s'.peers.known s'.blocks now url else s.decisions.lookup url) :
    s'.Sound ↔ ∀ url, s.Granted url → ¬ recomputed url → Deserved s'.peers.known s'.blocks url := by
  constructor
  · rintro hsound url ⟨access, hlookup, hgranted⟩ hold
    refine hsound url ⟨access, ?_, hgranted⟩
    rw [h url, if_neg hold, hlookup]
  · rintro hold url ⟨access, hlookup, hgranted⟩
    rw [h url] at hlookup
    by_cases hnew : recomputed url
    · rw [if_pos hnew] at hlookup
      exact verdict_granted hlookup hgranted
    · rw [if_neg hnew] at hlookup
      exact hold url ⟨access, hlookup, hgranted⟩ hnew

/-! ## The operations that leave no stale decision -/

/-- Some info of the batch that names the URL is taken into the store when its turn comes. -/
def Announces (env : Surroundings Agent) (url : Url) :
    (AList fun _ : Agent => AgentInfoSigned Agent SpaceId Url Sig) →
      List (AgentInfoSigned Agent SpaceId Url Sig) → Prop
  | _, [] => False
  | store, info :: rest =>
      match PeerStore.accepts env store info with
      | .error _ => False
      | .ok false => Announces env url store rest
      | .ok true => info.url = some url ∨ Announces env url (store.insert info.agent info) rest

/-- No operation takes the last known agent away from a URL that is granted access, or brings a
blocked one there, without an info that makes the listener look again. -/
def Attended (s : AccessState Agent SpaceId Url Sig) : AccessOp Agent SpaceId Url Sig → Prop
  | .insert nowInst pruneTime now infos =>
      let env := s.surroundings nowInst pruneTime now
      let known := s.peers.known.record infos
      ∀ url, s.Granted url → ¬ Announces env url (s.peers.checkPrune env).store infos →
        (∃ agent, known.urlOf agent = some url) ∧
          ∀ agent ∈ s.blocks, s.peers.known.urlOf agent ≠ some url → known.urlOf agent ≠ some url
  | .block agent => ∀ url, s.peers.known.urlOf agent = some url → ¬ s.Granted url
  | .blockAndRemove _ agent =>
      ∀ url, s.peers.known.urlOf agent = some url → s.Granted url →
        ∃ info, s.peers.store.lookup agent = some info ∧ info.url = some url
  | _ => True

omit [DecidableEq Url] in
theorem announces_iff {env : Surroundings Agent} {url : Url}
    {infos : List (AgentInfoSigned Agent SpaceId Url Sig)} :
    ∀ {store : AList fun _ : Agent => AgentInfoSigned Agent SpaceId Url Sig}
      {inserted : List (AgentInfoSigned Agent SpaceId Url Sig)},
      (PeerStore.insertAll env store infos).2 = .ok inserted →
        ((∃ info ∈ inserted, info.url = some url) ↔ Announces env url store infos) := by
  induction infos with
  | nil =>
      intro store inserted h
      rw [PeerStore.insertAll, Except.ok.injEq] at h
      simp [← h, Announces]
  | cons first rest ih =>
      intro store inserted h
      unfold PeerStore.insertAll at h
      unfold Announces
      cases hacc : PeerStore.accepts env store first with
      | error fault =>
          rw [hacc] at h
          cases h
      | ok accepted =>
          rw [hacc] at h
          cases accepted with
          | false => exact ih h
          | true =>
              dsimp only at h
              cases hafter : (PeerStore.insertAll env (store.insert first.agent first) rest).2 with
              | error fault =>
                  rw [hafter] at h
                  cases h
              | ok after =>
                  rw [hafter] at h
                  have hcons : inserted = first :: after := (Except.ok.inj h).symm
                  simp [hcons, ih hafter]

/-- An insert records the batch and gives every announced URL its verdict. -/
theorem insert_spec (s : AccessState Agent SpaceId Url Sig) (nowInst : Nat) (pruneTime now : Int)
    (infos : List (AgentInfoSigned Agent SpaceId Url Sig)) :
    let env := s.surroundings nowInst pruneTime now
    let s' := s.insert nowInst pruneTime now infos
    ∃ inserted : List (AgentInfoSigned Agent SpaceId Url Sig),
      (∀ url, (∃ info ∈ inserted, info.url = some url) ↔
        Announces env url (s.peers.checkPrune env).store infos) ∧
      s'.peers.known = s.peers.known.record infos ∧ s'.blocks = s.blocks ∧
      ∀ url, s'.decisions.lookup url =
        if ∃ info ∈ inserted, info.url = some url then verdict s'.peers.known s'.blocks now url
        else s.decisions.lookup url := by
  intro env s'
  -- the block check of these surroundings never fails
  have hblocks : ∀ agent, ∃ b, env.isBlocked agent = .ok b := fun agent => ⟨_, rfl⟩
  rcases PeerStore.insertAll_ok hblocks infos (s.peers.checkPrune env).store with
    ⟨inserted, hinserted⟩
  have hafter : s.peers.insert env infos =
      ({ s.peers.checkPrune env with
          store := (PeerStore.insertAll env (s.peers.checkPrune env).store infos).1
          known := s.peers.known.record infos }, .ok inserted) := by
    have hfault : env.recordFault = none := rfl
    simp only [PeerStore.insert, hfault, hinserted, PeerStore.checkPrune_known]
  have hs' : s' =
      { s with
        peers := (s.peers.insert env infos).1
        decisions := inserted.foldl (onPeerUpdate (s.peers.known.record infos) s.blocks now)
          s.decisions } := by
    simp only [s', env, insert, hafter]
  refine ⟨inserted, fun url => announces_iff hinserted, ?_, ?_, ?_⟩
  · rw [hs', hafter]
  · rw [hs']
  · intro url
    rw [hs', hafter]
    exact lookup_foldl_onPeerUpdate _ _ now inserted url s.decisions

theorem sound_insert_iff {s : AccessState Agent SpaceId Url Sig} (hs : s.Sound) (nowInst : Nat)
    (pruneTime now : Int) (infos : List (AgentInfoSigned Agent SpaceId Url Sig)) :
    (s.insert nowInst pruneTime now infos).Sound ↔
      s.Attended (.insert nowInst pruneTime now infos) := by
  rcases s.insert_spec nowInst pruneTime now infos with
    ⟨inserted, hannounced, hknown, hblocks, hlookup⟩
  rw [sound_iff_of_recomputed hlookup, hknown, hblocks]
  constructor
  · intro h url hgranted hquiet
    have hdeserved := h url hgranted fun hrec => hquiet ((hannounced url).mp hrec)
    exact ⟨hdeserved.1, fun agent hblocked _ => hdeserved.2 agent hblocked⟩
  · intro h url hgranted hquiet
    rcases h url hgranted fun hann => hquiet ((hannounced url).mpr hann) with ⟨hsome, hmoved⟩
    exact ⟨hsome, fun agent hblocked => hmoved agent hblocked ((hs url hgranted).2 agent hblocked)⟩

/-- A removal gives the URL of the removed info its verdict. -/
theorem sound_remove_iff {s : AccessState Agent SpaceId Url Sig} (now : Int) (agent : Agent) :
    (s.remove now agent).Sound ↔ ∀ url, s.Granted url →
      ¬ (∃ info, s.peers.store.lookup agent = some info ∧ info.url = some url) →
      Deserved s.peers.known s.blocks url := by
  cases hstored : s.peers.store.lookup agent with
  | none =>
      have hremoved : s.remove now agent = { s with peers := (s.peers.remove agent).1 } := by
        simp [remove, PeerStore.remove, hstored]
      rw [hremoved]
      simp [Sound, Granted, PeerStore.remove]
  | some info =>
      have hremoved : s.remove now agent =
          { s with
            peers := (s.peers.remove agent).1
            decisions := onPeerUpdate s.peers.known s.blocks now s.decisions info } := by
        simp [remove, PeerStore.remove, hstored]
      have hlookup : ∀ url, (s.remove now agent).decisions.lookup url =
          if info.url = some url then
            verdict (s.remove now agent).peers.known (s.remove now agent).blocks now url
          else s.decisions.lookup url := by
        intro url
        rw [hremoved]
        exact lookup_onPeerUpdate _ _ now s.decisions info url
      rw [sound_iff_of_recomputed hlookup, hremoved]
      simp [PeerStore.remove]

omit [DecidableEq Url] in
theorem deserved_cons_iff {known : KnownPeers Agent Url} {blocks : List Agent} {agent : Agent}
    {url : Url} : Deserved known (agent :: blocks) url ↔
      Deserved known blocks url ∧ known.urlOf agent ≠ some url := by
  simp only [Deserved, List.mem_cons, forall_eq_or_imp]
  tauto

theorem sound_apply_iff {s : AccessState Agent SpaceId Url Sig} (hs : s.Sound)
    (op : AccessOp Agent SpaceId Url Sig) : (s.apply op).Sound ↔ s.Attended op := by
  cases op with
  | insert nowInst pruneTime now infos =>
      exact sound_insert_iff hs nowInst pruneTime now infos
  | remove now agent =>
      refine iff_of_true ?_ trivial
      exact (sound_remove_iff now agent).mpr fun url hgranted _ => hs url hgranted
  -- a new block costs the URLs it is about their access, and the decisions do not follow
  | block agent =>
      constructor
      · intro h url hurl hgranted
        exact (deserved_cons_iff.mp (h url hgranted)).2 hurl
      · intro h url hgranted
        exact deserved_cons_iff.mpr ⟨hs url hgranted, fun hurl => h url hurl hgranted⟩
  | blockAndRemove now agent =>
      refine (sound_remove_iff now agent).trans ?_
      constructor
      · intro h url hurl hgranted
        by_contra hnone
        exact (deserved_cons_iff.mp (h url hgranted hnone)).2 hurl
      · intro h url hgranted hnone
        exact deserved_cons_iff.mpr ⟨hs url hgranted, fun hurl => hnone (h url hurl hgranted)⟩
  | read nowInst pruneTime =>
      refine iff_of_true ?_ trivial
      intro url hgranted
      simpa [apply] using hs url hgranted
  | pruneDecisions now =>
      refine iff_of_true ?_ trivial
      rintro url ⟨access, hlookup, hgranted⟩
      exact hs url ⟨access, (lookup_retain_eq_some_iff.mp hlookup).1, hgranted⟩

/-! ## Runs -/

/-- The state is sound, and so is every state the operations lead to. -/
def SoundThroughout : AccessState Agent SpaceId Url Sig →
    List (AccessOp Agent SpaceId Url Sig) → Prop
  | s, [] => s.Sound
  | s, op :: ops => s.Sound ∧ SoundThroughout (s.apply op) ops

/-- Every operation is attended in the state before it. -/
def AttendedRun : AccessState Agent SpaceId Url Sig →
    List (AccessOp Agent SpaceId Url Sig) → Prop
  | _, [] => True
  | s, op :: ops => s.Attended op ∧ AttendedRun (s.apply op) ops

theorem SoundThroughout.sound {s : AccessState Agent SpaceId Url Sig}
    {ops : List (AccessOp Agent SpaceId Url Sig)} (h : s.SoundThroughout ops) : s.Sound := by
  cases ops with
  | nil =>
      exact h
  | cons op ops =>
      exact h.1

theorem soundThroughout_iff_of_sound {ops : List (AccessOp Agent SpaceId Url Sig)} :
    ∀ {s : AccessState Agent SpaceId Url Sig}, s.Sound →
      (s.SoundThroughout ops ↔ s.AttendedRun ops) := by
  induction ops with
  | nil =>
      intro s hs
      exact iff_of_true hs trivial
  | cons op ops ih =>
      intro s hs
      have hstep := sound_apply_iff hs op
      constructor
      · rintro ⟨_, hrest⟩
        have hnext : (s.apply op).Sound := hrest.sound
        exact ⟨hstep.mp hnext, (ih hnext).mp hrest⟩
      · rintro ⟨hop, hrest⟩
        have hnext : (s.apply op).Sound := hstep.mpr hop
        exact ⟨hs, (ih hnext).mpr hrest⟩

/-- From an empty store, access decisions stay sound through a run exactly when every operation of
it is attended. -/
theorem soundThroughout_iff (pruneInterval nowInst : Nat)
    (ops : List (AccessOp Agent SpaceId Url Sig)) :
    (new pruneInterval nowInst : AccessState Agent SpaceId Url Sig).SoundThroughout ops ↔
      (new pruneInterval nowInst : AccessState Agent SpaceId Url Sig).AttendedRun ops := by
  refine soundThroughout_iff_of_sound ?_
  rintro url ⟨access, hlookup, _⟩
  simp [new] at hlookup

end AccessState

/-! ## A block that comes after the info has expired -/

/-- Agent 1 at URL 10. -/
def blockedInfo : AgentInfoSigned Nat Nat Nat Unit :=
  { agent := 1, space := 7, createdAt := 1, expiresAt := 100, isTombstone := false, url := some 10
    storageArc := .full, encoded := "one", signature := () }

/-- Agent 1 is inserted, its info expires and is pruned, and then the agent is blocked. -/
def lateBlockOps : List (AccessOp Nat Nat Nat Unit) :=
  [.insert 0 5 5 [blockedInfo], .read 10 200, .blockAndRemove 200 1]

/-- There is no info left to remove, so no listener runs, and URL 10 keeps its access although the
agent known there is blocked. -/
theorem late_block_keeps_access :
    ¬ (AccessState.new 10 0 : AccessState Nat Nat Nat Unit).SoundThroughout lateBlockOps := by
  rintro ⟨_, _, _, hsound⟩
  have hdeserved := hsound 10 ⟨⟨.granted, 5⟩, by decide, rfl⟩
  exact hdeserved.2 1 (by decide) (by decide)

end Core
end Kitsune2
