import Kitsune2.Gossip.Contacts
import Kitsune2.Gossip.RoundClosure
import Mathlib.Data.Finset.Card

/-!
# Fairness — every peer gets its turn

The peer that goes next is one that was gossiped with the longest time ago.  So while a peer that can
be reached waits for its turn, no other peer has two turns, as long as the store remembers the turns
that were given.
-/

namespace Kitsune2
namespace Gossip

open Api Lib Kitsune2.Core Dht

variable {Agent SpaceId Url Sig : Type} [DecidableEq Agent] [DecidableEq SpaceId] [DecidableEq Url]
  [DecidableEq Sig]

/-! ## Turns -/

/-- Where the initiate task is, while `url` waits and exactly the peers that are `met` have been
contacted for sure. -/
inductive AtWork (since : Int) (url : Url) (urls : Finset Url) (g : K2Gossip Url) (met : Finset Url) :
    TargetSearch Agent SpaceId Url Sig → Prop
  | waiting : AtWork since url urls g met .waiting
  | looking {localAgents : Aims Agent} {currentTime : Int} {usingOverlapping : Bool}
      {left : List (AgentInfoSigned Agent SpaceId Url Sig)} {found : List (Nat × Url)}
      (hnow : since ≤ currentTime)
      (hoffers : Offers currentTime url left ∨ ∃ t ∈ found, t.2 = url)
      (hurls : ∀ agent ∈ left, ∀ v, targetUrl currentTime agent = some v → v ∈ urls)
      (hfound : ∀ t ∈ found, t.2 ∈ urls ∧
        ((t.1 : Int) ≤ currentTime - since → g.ContactedSince since t.2) ∧
        (currentTime - since < t.1 → t.2 ∉ met)) :
      AtWork since url urls g met
        (.looking localAgents currentTime usingOverlapping left found)
  | selected {v : Url} (hurl : v ∈ urls) (hnew : v ∉ met) :
      AtWork since url urls g met (.selected v)

/-- Every turn since the start has gone to a peer that had not been contacted. -/
structure Rotates (since : Int) (url : Url) (urls : Finset Url) (start : Nat) (met : Finset Url)
    (s : Initiating Agent SpaceId Url Sig) : Prop where
  among : met ⊆ urls
  contacted : ∀ q ∈ met, s.node.g.ContactedSince since q
  turns : s.turns ≤ start + met.card
  work : AtWork since url urls s.node.g met s.search

/-- The peer has been contacted, or the turns go round. -/
structure Fair (since : Int) (url : Url) (urls : Finset Url) (start : Nat)
    (s : Initiating Agent SpaceId Url Sig) : Prop where
  accepted : ∀ q, s.node.g.acceptedRoundStates.lookup q ≠ none → s.node.g.ContactedSince since q
  rotates : s.node.g.ContactedSince since url ∨ ∃ met, Rotates since url urls start met s

/-- No clock is before `since`, no agent is looked at after a contact since then may have been forgotten,
and `url` can be reached: it is listed among `urls` whenever agents are listed, and not unresponsive when
it is looked at. -/
def KeepsCandidate (since : Int) (url : Url) (urls : Finset Url) :
    InitiatingEvent Agent SpaceId Url Sig → Prop
  | .node e => e.NotBefore since
  | .list peers localAgents currentTime => since ≤ currentTime ∧
      ∀ agents usingOverlapping, agentsToTry peers localAgents = .ok (agents, usingOverlapping) →
        Offers currentTime url agents ∧
          ∀ agent ∈ agents, ∀ v, targetUrl currentTime agent = some v → v ∈ urls
  | .look unresponsive _ now =>
      now ≤ since + lastGossipExpiry ∧ ∀ since', unresponsive url ≠ .ok (some since')
  | .decide _ => True
  | .initiate host _ _ => since ≤ host.now

section Turns

variable {loc : LocCb} {since : Int} {url : Url} {urls met : Finset Url} {start : Nat}
  {s : Initiating Agent SpaceId Url Sig} {g g' : K2Gossip Url}
  {search : TargetSearch Agent SpaceId Url Sig}

omit [DecidableEq Url] in
/-- A short time since the last contact is one since a contact at `since` or later. -/
theorem contacted_of_duration {currentTime now : Int} {keeps : Bool} (hsince : 0 < since)
    (hnow : since ≤ currentTime) {q : Url}
    (h : (durationSinceLast currentTime (g.lastGossipAt now keeps q) : Int) ≤ currentTime - since) :
    g.ContactedSince since q := by
  unfold durationSinceLast at h
  cases hlast : g.lastGossipAt now keeps q with
  | none =>
      rw [hlast] at h
      have hzero : (none : Option Int).getD unixTimestamp = 0 := rfl
      omega
  | some last =>
      rw [hlast] at h
      have hvalue : (some last).getD unixTimestamp = last := rfl
      exact ⟨last, (Option.filter_eq_some_iff.mp hlast).1, by omega⟩

omit [DecidableEq Url] in
/-- A contact since `since` is not forgotten for ten minutes. -/
theorem duration_of_contacted {currentTime now : Int} {keeps : Bool} (hnow : since ≤ currentTime)
    (hsoon : now ≤ since + lastGossipExpiry) {q : Url} (h : g.ContactedSince since q) :
    (durationSinceLast currentTime (g.lastGossipAt now keeps q) : Int) ≤ currentTime - since := by
  rcases h with ⟨last, hlast, hle⟩
  have hkept : now ≤ last + lastGossipExpiry := by omega
  have hread : g.lastGossipAt now keeps q = some last := by
    simp [K2Gossip.lastGossipAt, hlast, hkept]
  rw [hread]
  have hvalue : (some last).getD unixTimestamp = last := rfl
  unfold durationSinceLast
  omega

omit [DecidableEq Agent] [DecidableEq SpaceId] [DecidableEq Sig] in
theorem AtWork.contacts (h : AtWork since url urls g met search) (hcontacts : Contacts since g g') :
    AtWork since url urls g' met search := by
  cases h with
  | waiting => exact .waiting
  | looking hnow hoffers hurls hfound =>
      refine .looking hnow hoffers hurls fun t ht => ?_
      rcases hfound t ht with ⟨hmem, hshort, hlong⟩
      exact ⟨hmem, fun hle => hcontacts.kept _ (hshort hle), hlong⟩
  | selected hurl hnew => exact .selected hurl hnew

theorem Fair.node {e : Event Url} (h : Fair since url urls start s) (hnow : e.NotBefore since) :
    Fair since url urls start (s.step loc (.node e)) := by
  have hcontacts : Contacts since s.node.g (s.node.step loc e).g := step_contacts hnow
  refine ⟨?_, ?_⟩
  · intro q hsome
    by_cases hnone : s.node.g.acceptedRoundStates.lookup q = none
    · exact hcontacts.opened q hnone hsome
    · exact hcontacts.kept q (h.accepted q hnone)
  rcases h.rotates with hdone | ⟨met, hrotates⟩
  · exact Or.inl (hcontacts.kept _ hdone)
  · exact Or.inr ⟨met, hrotates.among, fun q hq => hcontacts.kept q (hrotates.contacted q hq),
      hrotates.turns, hrotates.work.contacts hcontacts⟩

omit [DecidableEq Agent] [DecidableEq SpaceId] [DecidableEq Url] [DecidableEq Sig] in
/-- What a look at an agent finds. -/
theorem possibleTarget_eq_ok {unresponsive : Url → Except Fault (Option Int)}
    {lastGossip : Url → Except Fault Bool} {currentTime now : Int}
    {agent : AgentInfoSigned Agent SpaceId Url Sig} {target : Option (Nat × Url)}
    (h : possibleTarget (g.metaAnswers unresponsive lastGossip now) currentTime agent = .ok target) :
    (∀ t ∈ target, targetUrl currentTime agent = some t.2 ∧
      ∃ keeps, t.1 = durationSinceLast currentTime (g.lastGossipAt now keeps t.2)) ∧
    ∀ v, targetUrl currentTime agent = some v → (∀ since', unresponsive v ≠ .ok (some since')) →
      ∃ t ∈ target, t.2 = v := by
  unfold possibleTarget at h
  cases hurl : targetUrl currentTime agent with
  | none =>
      rw [hurl] at h
      cases h
      refine ⟨?_, ?_⟩
      · intro t ht
        cases ht
      · intro v hv
        cases hv
  | some v =>
      rw [hurl] at h
      rcases bind_eq_ok_iff.mp h with ⟨answer, hanswer, h⟩
      cases answer with
      -- an unresponsive peer is left out
      | some since' =>
          cases h
          refine ⟨?_, ?_⟩
          · intro t ht
            cases ht
          · intro v' hv' hresponsive
            cases hv'
            exact absurd hanswer (hresponsive since')
      | none =>
          rcases bind_eq_ok_iff.mp h with ⟨last, hlast, h⟩
          -- the last round is read, or has been forgotten by now
          have hvalue : ∃ keeps, last = g.lastGossipAt now keeps v := by
            unfold K2Gossip.metaAnswers at hlast
            dsimp only at hlast
            cases hread : lastGossip v with
            | error fault =>
                rw [hread] at hlast
                cases hlast
            | ok keeps =>
                rw [hread] at hlast
                exact ⟨keeps, (Except.ok.inj hlast).symm⟩
          rcases hvalue with ⟨keeps, rfl⟩
          cases h
          refine ⟨?_, ?_⟩
          · intro t ht
            cases ht
            exact ⟨rfl, keeps, rfl⟩
          · intro v' hv' _
            cases hv'
            exact ⟨_, rfl, rfl⟩

omit [DecidableEq Agent] [DecidableEq SpaceId] [DecidableEq Sig] in
/-- A step that only moves the initiate task on. -/
theorem Fair.moved (h : Fair since url urls start s)
    (hmoved : ∀ met, Rotates since url urls start met s → s.node.g.ContactedSince since url ∨
      AtWork since url urls s.node.g met search) :
    Fair since url urls start { s with search := search } := by
  refine ⟨h.accepted, ?_⟩
  rcases h.rotates with hdone | ⟨met, hrotates⟩
  · exact Or.inl hdone
  rcases hmoved met hrotates with hdone | hwork
  · exact Or.inl hdone
  · exact Or.inr ⟨met, hrotates.among, hrotates.contacted, hrotates.turns, hwork⟩

theorem Fair.list {peers : PeerAnswers Agent SpaceId Url Sig} {localAgents : Aims Agent}
    {currentTime : Int} (h : Fair since url urls start s)
    (hkeeps : KeepsCandidate since url urls (.list peers localAgents currentTime)) :
    Fair since url urls start (s.step loc (.list peers localAgents currentTime)) := by
  unfold Initiating.step
  dsimp only
  split
  · split
    · exact h
    split
    · rename_i agents usingOverlapping hagents
      rcases hkeeps with ⟨hnow, hlisted⟩
      rcases hlisted agents usingOverlapping hagents with ⟨hoffers, hurls⟩
      refine h.moved fun met _ => Or.inr ?_
      exact .looking hnow (Or.inl hoffers) hurls (List.forall_mem_nil _)
    · exact h
  · exact h

theorem Fair.look {unresponsive : Url → Except Fault (Option Int)}
    {lastGossip : Url → Except Fault Bool} {now : Int} (hsince : 0 < since)
    (h : Fair since url urls start s) (hsoon : now ≤ since + lastGossipExpiry)
    (hresponsive : ∀ since', unresponsive url ≠ .ok (some since')) :
    Fair since url urls start (s.step loc (.look unresponsive lastGossip now)) := by
  unfold Initiating.step
  dsimp only
  split
  · rename_i localAgents currentTime usingOverlapping agent left found hsearch
    split
    · rename_i target htarget
      refine h.moved fun met hrotates => Or.inr ?_
      have hwork := hrotates.work
      rw [hsearch] at hwork
      cases hwork with
      | looking hnow hoffers hurls hfound =>
          rcases possibleTarget_eq_ok htarget with ⟨hnew, hreached⟩
          refine .looking hnow ?_ (fun a ha => hurls a (List.mem_cons_of_mem _ ha)) ?_
          -- our candidate is the agent just looked at, is still to come, or was found before
          · rcases hoffers with ⟨a, ha, hurl⟩ | ⟨t, ht, hurl⟩
            · rcases List.mem_cons.mp ha with rfl | hrest
              · rcases hreached url hurl hresponsive with ⟨t, ht, hsame⟩
                exact Or.inr ⟨t, List.mem_append_right _ (Option.mem_toList.mpr ht), hsame⟩
              · exact Or.inl ⟨a, hrest, hurl⟩
            · exact Or.inr ⟨t, List.mem_append_left _ ht, hurl⟩
          · intro t ht
            rcases List.mem_append.mp ht with hold | hlast
            · exact hfound t hold
            rcases hnew t (Option.mem_toList.mp hlast) with ⟨hurl, keeps, hduration⟩
            rw [hduration]
            refine ⟨hurls agent List.mem_cons_self _ hurl, contacted_of_duration hsince hnow, ?_⟩
            -- a peer met since is more recent than a candidate that waits
            intro hlong hmet
            have hshort : (durationSinceLast currentTime (s.node.g.lastGossipAt now keeps t.2) : Int) ≤
                currentTime - since := duration_of_contacted hnow hsoon (hrotates.contacted _ hmet)
            omega
    · exact h.moved fun _ _ => Or.inr .waiting
  · exact h

theorem Fair.decide {peers : PeerAnswers Agent SpaceId Url Sig} (h : Fair since url urls start s) :
    Fair since url urls start (s.step loc (.decide peers)) := by
  unfold Initiating.step
  dsimp only
  split
  · rename_i localAgents currentTime usingOverlapping found hsearch
    have hlooking : ∀ met, Rotates since url urls start met s →
        AtWork since url urls s.node.g met
          (.looking localAgents currentTime usingOverlapping [] found :
            TargetSearch Agent SpaceId Url Sig) := by
      intro met hrotates
      rw [← hsearch]
      exact hrotates.work
    cases hleast : leastRecent found with
    | some target =>
        refine h.moved fun met hrotates => ?_
        cases hlooking met hrotates with
        | looking hnow hoffers hurls hfound =>
            have hmem : target ∈ found := List.mem_reverse.mp (List.argmax_mem hleast)
            rcases hfound target hmem with ⟨hurl, -, hlong⟩
            by_cases hshort : (target.1 : Int) ≤ currentTime - since
            · -- then no target is further back, and `url` is one of them
              rcases hoffers with ⟨a, ha, -⟩ | ⟨t, ht, rfl⟩
              · cases ha
              have hle : t.1 ≤ target.1 := List.le_of_mem_argmax (List.mem_reverse.mpr ht) hleast
              exact Or.inl ((hfound t ht).2.1 (by omega))
            · exact Or.inr (.selected hurl (hlong (by omega)))
    | none =>
        -- then nothing was found, although `url` was looked at
        have hnothing : ∀ met, Rotates since url urls start met s → False := by
          intro met hrotates
          have hnil : found = [] := List.reverse_eq_nil_iff.mp (List.argmax_eq_none.mp hleast)
          subst hnil
          cases hlooking met hrotates with
          | looking hnow hoffers hurls hfound =>
              rcases hoffers with ⟨a, ha, -⟩ | ⟨t, ht, -⟩
              · cases ha
              · cases ht
        dsimp only
        split
        · split
          · exact h.moved fun met hrotates => (hnothing met hrotates).elim
          · exact h.moved fun met hrotates => (hnothing met hrotates).elim
        · exact h.moved fun met hrotates => (hnothing met hrotates).elim
  · exact h

theorem Fair.initiate {host : Host} {sessionId : Bytes} {tieBreaker : Nat}
    (h : Fair since url urls start s) (hnow : since ≤ host.now) :
    Fair since url urls start (s.step loc (.initiate host sessionId tieBreaker)) := by
  unfold Initiating.step
  dsimp only
  split
  · rename_i v hsearch
    have hcontacts : Contacts since s.node.g
        (initiateGossip host sessionId tieBreaker v s.node.g).2 := initiateGossip_contacts hnow _ _ _
    have haccepted : ∀ q,
        (initiateGossip host sessionId tieBreaker v s.node.g).2.acceptedRoundStates.lookup q ≠ none →
        (initiateGossip host sessionId tieBreaker v s.node.g).2.ContactedSince since q := by
      intro q hsome
      by_cases hnone : s.node.g.acceptedRoundStates.lookup q = none
      · exact hcontacts.opened q hnone hsome
      · exact hcontacts.kept q (h.accepted q hnone)
    refine ⟨haccepted, ?_⟩
    rcases h.rotates with hdone | ⟨met, hrotates⟩
    · exact Or.inl (hcontacts.kept _ hdone)
    have hwork := hrotates.work
    rw [hsearch] at hwork
    have hmet : ∀ q ∈ met,
        (initiateGossip host sessionId tieBreaker v s.node.g).2.ContactedSince since q :=
      fun q hq => hcontacts.kept q (hrotates.contacted q hq)
    refine Or.inr ?_
    cases hgives : givesTurn host s.node.g with
    | false => exact ⟨met, hrotates.among, hmet, hrotates.turns, .waiting⟩
    | true =>
        cases hwork with
        | selected hurl hnew =>
            -- the turn goes to a peer that was not met before
            have hv :
                (initiateGossip host sessionId tieBreaker v s.node.g).2.ContactedSince since v := by
              by_cases hnone : s.node.g.acceptedRoundStates.lookup v = none
              · exact initiateGossip_contactedSince hgives hnow hnone _ _
              · exact hcontacts.kept v (h.accepted v hnone)
            refine ⟨insert v met, Finset.insert_subset hurl hrotates.among, ?_, ?_, .waiting⟩
            · intro q hq
              rcases Finset.mem_insert.mp hq with rfl | hold
              · exact hv
              · exact hmet q hold
            · rw [Finset.card_insert_of_notMem hnew]
              have hturns := hrotates.turns
              show s.turns + 1 ≤ _
              omega
  · exact h

theorem Fair.step (hsince : 0 < since) (h : Fair since url urls start s)
    {e : InitiatingEvent Agent SpaceId Url Sig} (hkeeps : KeepsCandidate since url urls e) :
    Fair since url urls start (s.step loc e) := by
  cases e with
  | node e => exact h.node hkeeps
  | list peers localAgents currentTime => exact h.list hkeeps
  | look unresponsive lastGossip now => exact h.look hsince hkeeps.1 hkeeps.2
  | decide peers => exact h.decide
  | initiate host sessionId tieBreaker => exact h.initiate hkeeps

end Turns

/-- No peer that can be reached is passed over: once as many turns have been given, within ten minutes,
as there are URLs to choose from, it has been gossiped with. -/
theorem candidate_gets_turn (loc : LocCb) {since : Int} (hsince : 0 < since) {url : Url}
    {urls : Finset Url} (hurl : url ∈ urls) {s : Initiating Agent SpaceId Url Sig}
    (hwaiting : s.search = .waiting)
    (haccepted : ∀ q, s.node.g.acceptedRoundStates.lookup q ≠ none → s.node.g.ContactedSince since q)
    (events : List (InitiatingEvent Agent SpaceId Url Sig))
    (hrun : Along (Initiating.step loc) (fun _ e => KeepsCandidate since url urls e) s events) :
    let s' := events.foldl (Initiating.step loc) s
    s.turns + urls.card ≤ s'.turns → s'.node.g.ContactedSince since url := by
  intro s' hturns
  have hstart : Fair since url urls s.turns s := by
    refine ⟨haccepted, Or.inr ⟨∅, Finset.empty_subset _, ?_, le_refl _, ?_⟩⟩
    · intro q hq
      exact absurd hq (Finset.notMem_empty q)
    · rw [hwaiting]
      exact .waiting
  have hend : Fair since url urls s.turns s' :=
    hrun.invariant hstart fun _ _ h hkeeps => h.step hsince hkeeps
  rcases hend.rotates with hdone | ⟨met, hrotates⟩
  · exact hdone
  · -- all URLs have had their turn
    have hcard : urls.card ≤ met.card := by
      have hmet := hrotates.turns
      omega
    rw [← Finset.eq_of_subset_of_card_le hrotates.among hcard] at hurl
    exact hrotates.contacted url hurl

/-! ## Two peers of a peer store -/

/-- A peer whose arc overlaps what a local agent aims for is a candidate. -/
theorem keepsCandidate_ofStore {since : Int} {url : Url} {urls : Finset Url}
    {env : Surroundings Agent} {p : PeerStore Agent SpaceId Url Sig}
    {order : List (AgentInfoSigned Agent SpaceId Url Sig) →
      List (AgentInfoSigned Agent SpaceId Url Sig)}
    {localAgents : Aims Agent} {currentTime : Int} {info : AgentInfoSigned Agent SpaceId Url Sig}
    {aim : Agent × DhtArc} (hnow : since ≤ currentTime) (horder : ∀ l, order l ⊆ l ∧ l ⊆ order l)
    (hurls : ∀ a ∈ (p.getAll env).2, ∀ v, a.agent ∉ localAgents.map Prod.fst →
      targetUrl currentTime a = some v → v ∈ urls)
    (haim : aim ∈ localAgents) (hstored : info ∈ (p.getAll env).2)
    (hremote : info.agent ∉ localAgents.map Prod.fst) (hlive : targetUrl currentTime info = some url)
    (hoverlaps : aim.2.overlaps info.storageArc = true) :
    KeepsCandidate since url urls (.list (.ofStore env p order) localAgents currentTime) := by
  rcases offers_of_overlapping (fun l => (horder l).2) haim hstored hremote hlive hoverlaps
    with ⟨tried, htried, hoffers⟩
  refine ⟨hnow, ?_⟩
  intro agents usingOverlapping hagents
  cases htried.symm.trans hagents
  refine ⟨hoffers, ?_⟩
  intro a ha v hv
  rcases stored_of_agentsToTry (fun l => (horder l).1) hagents a ha with ⟨hmem, hother⟩
  exact hurls a hmem v hother hv

/-- The info of an agent with the full arc, which can be reached under its own number. -/
def numbered (agent : Nat) : AgentInfoSigned Nat Unit Nat Unit where
  agent := agent
  space := ()
  createdAt := 0
  expiresAt := 2 * RoundOfTwo.roundTime
  isTombstone := false
  url := some agent
  storageArc := .full
  encoded := ""
  signature := ()

def roundSurroundings : Surroundings Nat where
  isBlocked := fun _ => .ok false
  recordFault := none
  nowInst := 0
  pruneTime := RoundOfTwo.roundTime
  now := RoundOfTwo.roundTime

/-- The peer store of the agent 7, which knows two others. -/
def smallStore : PeerStore Nat Unit Nat Unit :=
  ((PeerStore.new 10 0).insert roundSurroundings [numbered 7, numbered 1, numbered 2]).1

/-- The host of the node, some time later. -/
def laterHost : Host :=
  { RoundOfTwo.sectorHost none RoundOfTwo.behindDht with instant := 1000000000 }

/-- A search, after which the round that it has begun times out. -/
def searchEvents : List (InitiatingEvent Nat Unit Nat Unit) :=
  .list (.ofStore roundSurroundings smallStore id) [(7, .full)] RoundOfTwo.roundTime ::
    (Initiating.passEvents (.ofStore roundSurroundings smallStore id) (fun _ => .ok none)
        (fun _ => .ok false) RoundOfTwo.roundTime 2 ++
      [.initiate (RoundOfTwo.sectorHost none RoundOfTwo.behindDht) [7] 0,
        .node (.timeout laterHost fun _ => false)])

def smallNode : Initiating Nat Unit Nat Unit where
  node := .start (limitedConfig 10)
  search := .waiting
  turns := 0

theorem smallStore_all :
    (smallStore.getAll roundSurroundings).2 = [numbered 2, numbered 1, numbered 7] := by
  decide +kernel

theorem targetUrl_numbered (n : Nat) : targetUrl RoundOfTwo.roundTime (numbered n) = some n := rfl

theorem list_keepsCandidate : KeepsCandidate RoundOfTwo.roundTime 2 {1, 2}
    (.list (.ofStore roundSurroundings smallStore id) [(7, .full)] RoundOfTwo.roundTime) := by
  have haim : ((7, .full) : Nat × DhtArc) ∈ ([(7, .full)] : Aims Nat) := List.mem_cons_self
  have hstored : numbered 2 ∈ (smallStore.getAll roundSurroundings).2 := by
    rw [smallStore_all]
    exact List.mem_cons_self
  refine keepsCandidate_ofStore (le_refl _) (fun _ => ⟨List.Subset.refl _, List.Subset.refl _⟩) ?_
    haim hstored (by decide) (targetUrl_numbered 2) (by decide)
  intro a ha v hremote hv
  rw [smallStore_all] at ha
  simp only [List.mem_cons, List.not_mem_nil, or_false] at ha
  rcases ha with rfl | rfl | rfl
  · cases (targetUrl_numbered 2).symm.trans hv
    decide
  · cases (targetUrl_numbered 1).symm.trans hv
    decide
  · exact absurd (by decide) hremote

/-- After two searches both peers have been contacted. -/
theorem candidate_gets_turn_small :
    ((searchEvents ++ searchEvents).foldl (Initiating.step fun _ => 0)
      smallNode).node.g.ContactedSince RoundOfTwo.roundTime 2 := by
  have hsince : 0 < RoundOfTwo.roundTime := by decide
  have hurl : 2 ∈ ({1, 2} : Finset Nat) := by decide
  have hpass : RoundOfTwo.roundTime ≤ RoundOfTwo.roundTime + lastGossipExpiry ∧
      ∀ since' : Int, (.ok none : Except Fault (Option Int)) ≠ .ok (some since') :=
    ⟨by decide, fun _ h => by cases h⟩
  refine candidate_gets_turn (fun _ => 0) hsince hurl rfl ?_ _ ?_ (by decide +kernel)
  · intro q hsome
    exact absurd rfl hsome
  · exact ⟨list_keepsCandidate, hpass, hpass, trivial, le_refl _, trivial, list_keepsCandidate, hpass,
      hpass, trivial, le_refl _, trivial, trivial⟩

end Gossip
end Kitsune2
