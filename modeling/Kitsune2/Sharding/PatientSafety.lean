import Kitsune2.Sharding.NetworkRun

/-!
# PatientSafety — no half is dropped that the others need

Whoever is shown as a holder of a sector that it has given up is announced as giving it up: the node that
counts it counts it as gone, too.  So a shrink that goes ahead leaves the target in every sector that it
vacates, with the arcs as they are and not as the node sees them.
-/

namespace Kitsune2
namespace Sharding

open Api Lib

variable {NodeId AgentId Url : Type} [DecidableEq NodeId] [LinearOrder AgentId]

/-! ## What a check reads of a peer -/

section Surroundings

variable {env : Surroundings AgentId Url}

theorem mem_gone {ownIds : List AgentId} {a : AgentId} (ha : a ∈ ownIds) : a ∈ env.gone ownIds := by
  unfold Surroundings.gone
  refine List.foldlRecOn (motive := fun gone => a ∈ gone) env.peers _ ha ?_
  intro gone hgone peer _
  split_ifs
  · exact hgone
  · split
    · exact hgone
    · split_ifs
      · exact List.mem_append_left _ hgone
      · exact hgone

/-- The peer store has one info for each agent, so the last one is the one. -/
theorem declaredArcs_eq (hnodup : (env.peers.map AgentInfo.agent).Nodup)
    {peer : AgentInfo AgentId Url} (hmem : peer ∈ env.peers) (hlive : peer.isTombstone = false) :
    env.declaredArcs peer.agent = some (peer.storageArc, peer.url) := by
  unfold Surroundings.declaredArcs
  have hsome : (env.peers.reverse.find?
      fun p => !p.isTombstone && decide (p.agent = peer.agent)).isSome := by
    rw [List.find?_isSome]
    exact ⟨peer, List.mem_reverse.mpr hmem, by simp [hlive]⟩
  rcases Option.isSome_iff_exists.mp hsome with ⟨found, hfound⟩
  have hagent : found.agent = peer.agent := by
    have hp := List.find?_some hfound
    rw [Bool.and_eq_true, decide_eq_true_eq] at hp
    exact hp.2
  have hfmem : found ∈ env.peers := List.mem_reverse.mp (List.mem_of_find?_eq_some hfound)
  have hsame : found = peer := List.inj_on_of_nodup_map hnodup hfmem hmem hagent
  rw [hfound, hsame]
  rfl

theorem covAt_covAround (node : Node AgentId Url) (base : Cov) (agent : AgentId) {x : Nat}
    (hx : x < base.length) :
    (node.covAround base agent).length = base.length ∧
      covAt (node.covAround base agent) x = covAt base x +
        (node.localAgents.filter fun b =>
          decide (b ≠ agent) && coversSector (node.arcs b).cur x).length := by
  -- each other agent adds one where its arc covers the sector
  have hfold : ∀ (agents : List AgentId) (cov : Cov), x < cov.length →
      (agents.foldl (fun cov other =>
        if other ≠ agent then addArc cov (node.arcs other).cur else cov) cov).length = cov.length ∧
      covAt (agents.foldl (fun cov other =>
        if other ≠ agent then addArc cov (node.arcs other).cur else cov) cov) x = covAt cov x +
          (agents.filter fun b =>
            decide (b ≠ agent) && coversSector (node.arcs b).cur x).length := by
    intro agents
    induction agents with
    | nil =>
        intro cov _
        exact ⟨rfl, rfl⟩
    | cons b agents ih =>
        intro cov hcov
        rw [List.foldl_cons]
        by_cases hb : b ≠ agent
        · rw [if_pos hb]
          rcases ih (addArc cov (node.arcs b).cur) (by rwa [length_addArc]) with ⟨hlen, hcount⟩
          rw [length_addArc] at hlen
          refine ⟨hlen, ?_⟩
          rw [hcount, covAt_addArc hcov]
          by_cases hc : coversSector (node.arcs b).cur x = true
          · rw [List.filter_cons_of_pos (by simp [hb, hc]), if_pos hc, List.length_cons]
            omega
          · rw [List.filter_cons_of_neg (by simp [hc]), if_neg hc, Nat.add_zero]
        · rw [if_neg hb, List.filter_cons_of_neg (by simp [hb])]
          exact ih cov hcov
  exact hfold node.localAgents base hx

end Surroundings

variable [DecidableEq Url]

namespace Network

variable {dep : Deployment NodeId AgentId Url} {net : Network NodeId AgentId Url}
  {n : NodeId} {env : Surroundings AgentId Url}

/-! ## Holders that are no longer -/

omit [DecidableEq NodeId] in
/-- The last thing a node has heard in a series that it knows the start of still lives, as long as the
end of the series does. -/
theorem Inv.heard_lives (h : Inv dep net) (hat : net.CheckAt dep n env) {a : AgentId}
    (hhost : dep.host a ≠ n) {vacate : SectorRange} {first last : Int}
    {pre run : List (Sent AgentId)} (hsaid : net.said a false = pre ++ run)
    (hseries : Series dep.bound a vacate first last run)
    (hfirst : first + dep.bound ≤ net.clock) (hlast : net.clock < last) :
    ∃ k e, net.heard n a false = k + 1 ∧ (net.said a false)[k]? = some e ∧
      AnnouncesRange a vacate e.2 ∧ net.clock < e.2.expiresAt := by
  have hne : run ≠ [] := by
    rintro rfl
    cases hseries.first_eq
  have hpos : 0 < run.length := List.length_pos_iff.mpr hne
  have hrun : ∀ i, (net.said a false)[pre.length + i]? = run[i]? := by
    intro i
    rw [hsaid, List.getElem?_append_right (Nat.le_add_right _ _), Nat.add_sub_cancel_left]
  -- the first announcement has arrived
  have hhead : run[0]?.map Prod.fst = some first := by
    rw [← List.head?_eq_getElem?]
    exact hseries.first_eq
  rcases Option.map_eq_some_iff.mp hhead with ⟨e₀, he₀, hfirst₀⟩
  have harrived : pre.length < net.heard n a false := by
    refine hat.arrived a hhost false pre.length e₀ ?_ ?_
    · rw [← he₀]
      exact hrun 0
    · rw [hfirst₀]
      exact hfirst
  have hle := h.heard_le n a false
  rw [hsaid, List.length_append] at hle
  -- so what was heard last is one of the series
  obtain ⟨i, hi⟩ : ∃ i, net.heard n a false = pre.length + i + 1 :=
    ⟨net.heard n a false - pre.length - 1, by omega⟩
  have hilt : i < run.length := by omega
  have hat_i : run[i]? = some run[i] := List.getElem?_eq_getElem hilt
  refine ⟨pre.length + i, run[i], hi, (hrun i).trans hat_i,
    hseries.announces _ (List.getElem_mem hilt), ?_⟩
  by_cases hend : i + 1 = run.length
  · have hlast_eq := hseries.last_eq
    rw [List.getLast?_eq_getElem?, show run.length - 1 = i by omega, hat_i] at hlast_eq
    cases hlast_eq
    exact hlast
  · -- the next one is still on its way, and was sent in time
    have hnext : run[i + 1]? = some run[i + 1] := List.getElem?_eq_getElem (by omega)
    have hlinked := hseries.linked _ _ ⟨i, hat_i, hnext⟩
    by_contra hdead
    have hgot := hat.arrived a hhost false (pre.length + i + 1) run[i + 1]
      ((hrun (i + 1)).trans hnext) (by omega)
    omega

omit [DecidableEq NodeId] in
/-- Who is seen to hold a sector and does not is seen to vacate it. -/
theorem Inv.stale_holder (h : Inv dep net) (hat : net.CheckAt dep n env) (lag : Nat)
    {peer : AgentInfo AgentId Url} (hmem : peer ∈ env.peers) (hlive : peer.isTombstone = false)
    (hother : peer.agent ∉ (net.node n).localAgents) {x : Nat} (hx : x < numSectors)
    (hcovers : coversSector peer.storageArc x = true)
    (hgone : coversSector (net.arcs dep peer.agent).cur x = false) :
    ∃ intent, (peer.agent, intent) ∈ ((net.node n).viewOf env lag).liveIntents ∧
      InRange intent.vacate x := by
  rcases hat.peers peer hmem hlive hother with ⟨hview, hurl⟩
  generalize hpa : peer.agent = a at hview hurl hother hgone ⊢
  -- the declaration that is shown
  have hseen : ∃ k e, net.seen n a = k + 1 ∧ (net.declared a)[k]? = some e ∧
      e.2 = peer.storageArc := by
    unfold view at hview
    cases hk : net.seen n a with
    | zero =>
        rw [hk] at hview
        cases hview
    | succ k =>
        rw [hk] at hview
        rcases Option.map_eq_some_iff.mp hview with ⟨e, he, heq⟩
        exact ⟨k, e, rfl, he, heq⟩
  rcases hseen with ⟨k, e, hk, he, harc⟩
  have ha : a ∈ dep.agents := by
    by_contra hnot
    rw [h.others a hnot] at he
    cases he
  have hhost : dep.host a ≠ n := fun heq => hother ((h.locals n a).mpr ⟨ha, heq⟩)
  have hsender := h.sender a ha
  -- since then it has dropped the sector
  rcases hsender.latest with ⟨s, hlatest⟩
  have hshown : coversSector e.2 x = true := harc ▸ hcovers
  rcases exists_adjacent (P := fun d : Declaration => coversSector d.2 x = true) he hshown hlatest
      (by rw [hgone]; exact Bool.false_ne_true) with
    ⟨j, e₁, e₂, hj, he₁, he₂, hc₁, hc₂⟩
  rcases hsender.honest e₁ e₂ ⟨j, he₁, he₂⟩ with hkeeps | ⟨level, first, last, pre, run, post, hd⟩
  · exact absurd (hkeeps x hx hc₁) hc₂
  have hrecent : net.clock < e₂.1 + dep.bound := by
    by_contra hold
    have := hat.shown a hhost (j + 1) e₂ he₂ (by omega)
    omega
  have hnow : e₂.1 ≤ net.clock := hsender.declared_le e₂ (List.mem_of_getElem? he₂)
  have hbefore := hd.declared_before
  have hannounced := hd.announced_before
  have hlives := hd.lives_on
  have hjk : j = k := by
    have := hat.shown a hhost j e₁ he₁ (by omega)
    omega
  subst hjk
  cases he.symm.trans he₁
  -- nothing is said after the series yet
  have hpost : post = [] := by
    rw [List.eq_nil_iff_forall_not_mem]
    intro m hm
    have hquiet := hd.quiet m hm
    have hsaid := hsender.said_le m (hd.said_eq ▸ List.mem_append_right _ hm)
    omega
  have hsaid : net.said a false = pre ++ run := by
    rw [hd.said_eq, hpost, List.append_nil]
  rcases h.heard_lives hat hhost hsaid hd.series (by omega) (by omega) with
    ⟨i, m, hi, hm, hannounces, hexpires⟩
  have hfiled := h.filed n a ha hhost i m level hi hm hd.level_pos hd.level_le hannounces hexpires
  refine ⟨filedIntent (vacateHalf (home dep a) level) m.2.expiresAt (dep.url (dep.host a)), ?_, ?_⟩
  · unfold Node.viewOf
    dsimp only
    refine List.mem_filter.mpr ⟨?_, ?_⟩
    · rw [IntentTable.mem_live_iff, hat.now]
      exact ⟨some (dep.url (dep.host a)), hfiled, hexpires⟩
    · have hdeclared := declaredArcs_eq hat.nodup hmem hlive
      rw [hurl, hpa] at hdeclared
      rw [intentDeclared_iff hdeclared hother rfl, ← harc, hd.before]
      exact arcContainsSectors_vacateHalf (home_lt dep a) hd.level_pos hd.level_le
  · rw [hd.before, coversSector_blockArc_iff (home_lt dep a)] at hc₁
    rw [hd.after, coversSector_blockArc_iff (home_lt dep a)] at hc₂
    exact (mem_vacateHalf_iff (home_lt dep a) hd.level_pos hd.level_le).mpr ⟨hc₁, hc₂⟩

/-! ## Counting -/

/-- The agents of other nodes that hold a sector. -/
def holdersElsewhere (dep : Deployment NodeId AgentId Url) (net : Network NodeId AgentId Url)
    (n : NodeId) (x : Nat) : Finset AgentId :=
  (net.holders dep x).filter fun a => dep.host a ≠ n

/-- Of the peers that are counted for a sector all hold it, but those that are seen to vacate it. -/
theorem Inv.counted_le (h : Inv dep net) (hat : net.CheckAt dep n env) (lag : Nat)
    {exclude : List AgentId} (hown : ∀ a ∈ (net.node n).localAgents, a ∈ exclude) {agent : AgentId}
    (hagent : agent ∈ (net.node n).localAgents) {x : Nat} (hx : x < numSectors) :
    (env.peers.filter (counted exclude x)).length ≤ (holdersElsewhere dep net n x).card +
      (((net.node n).viewOf env lag).liveIntents.filter fun e =>
        decide (e.1 ≠ agent) && decide (InRange e.2.vacate x)).length := by
  let vacating := ((net.node n).viewOf env lag).liveIntents.filter fun e =>
    decide (e.1 ≠ agent) && decide (InRange e.2.vacate x)
  let shown := (env.peers.filter (counted exclude x)).map AgentInfo.agent
  have hnodup : shown.Nodup := (List.filter_sublist.map _).nodup hat.nodup
  have hsub : shown.toFinset ⊆ holdersElsewhere dep net n x ∪ (vacating.map Prod.fst).toFinset := by
    intro a ha
    rcases List.mem_map.mp (List.mem_toFinset.mp ha) with ⟨peer, hpeer, rfl⟩
    rcases List.mem_filter.mp hpeer with ⟨hmem, hcounted⟩
    simp only [counted, Bool.and_eq_true, Bool.not_eq_true', List.contains_eq_mem,
      decide_eq_false_iff_not] at hcounted
    rcases hcounted with ⟨⟨hlive, hexcluded⟩, hcovers⟩
    have hother : peer.agent ∉ (net.node n).localAgents := fun hmem' => hexcluded (hown _ hmem')
    rw [Finset.mem_union]
    by_cases hholds : coversSector (net.arcs dep peer.agent).cur x = true
    · -- a peer that is shown at all is an agent of another node
      have hagents : peer.agent ∈ dep.agents := by
        by_contra hnot
        have hview := (hat.peers peer hmem hlive hother).1
        unfold view at hview
        rw [h.others _ hnot] at hview
        split at hview
        · cases hview
        · cases hview
      refine Or.inl (Finset.mem_filter.mpr ⟨Finset.mem_filter.mpr ⟨hagents, hholds⟩, ?_⟩)
      exact fun heq => hother ((h.locals n _).mpr ⟨hagents, heq⟩)
    · rcases h.stale_holder hat lag hmem hlive hother hx hcovers
          (Bool.eq_false_iff.mpr hholds) with ⟨intent, hintent, hrange⟩
      refine Or.inr (List.mem_toFinset.mpr (List.mem_map.mpr ⟨(peer.agent, intent), ?_, rfl⟩))
      refine List.mem_filter.mpr ⟨hintent, ?_⟩
      have hne : peer.agent ≠ agent := fun heq => hother (heq ▸ hagent)
      rw [Bool.and_eq_true, decide_eq_true_eq, decide_eq_true_eq]
      exact ⟨hne, hrange⟩
  calc (env.peers.filter (counted exclude x)).length
      = shown.length := (List.length_map _).symm
    _ = shown.toFinset.card := (List.toFinset_card_of_nodup hnodup).symm
    _ ≤ (holdersElsewhere dep net n x ∪ (vacating.map Prod.fst).toFinset).card :=
        Finset.card_le_card hsub
    _ ≤ (holdersElsewhere dep net n x).card + (vacating.map Prod.fst).toFinset.card :=
        Finset.card_union_le _ _
    _ ≤ (holdersElsewhere dep net n x).card + vacating.length := by
        have hle := List.toFinset_card_le (vacating.map Prod.fst)
        rw [List.length_map] at hle
        omega

/-- The holders with a node in another state: those elsewhere, and the node's own. -/
theorem holders_update (h : Inv dep net) (n : NodeId) (node' : Node AgentId Url) (agent : AgentId)
    (x : Nat) :
    (holdersElsewhere dep net n x).card +
        ((net.node n).localAgents.filter fun b =>
          decide (b ≠ agent) && coversSector (node'.arcs b).cur x).length ≤
      (({ net with node := Function.update net.node n node' } :
        Network NodeId AgentId Url).holders dep x).card := by
  let own := (net.node n).localAgents.filter fun b =>
    decide (b ≠ agent) && coversSector (node'.arcs b).cur x
  have hnodup : own.Nodup := (net.node n).nodup.filter _
  -- the holders elsewhere and those of this node are different agents
  have hdisjoint : Disjoint (holdersElsewhere dep net n x) own.toFinset := by
    rw [Finset.disjoint_left]
    intro a ha hown
    have hlocal := (List.mem_filter.mp (List.mem_toFinset.mp hown)).1
    exact (Finset.mem_filter.mp ha).2 ((h.locals n a).mp hlocal).2
  have hsub : holdersElsewhere dep net n x ∪ own.toFinset ⊆
      ({ net with node := Function.update net.node n node' } :
        Network NodeId AgentId Url).holders dep x := by
    intro a ha
    refine Finset.mem_filter.mpr ?_
    unfold arcs
    rcases Finset.mem_union.mp ha with helse | hown
    · rcases Finset.mem_filter.mp helse with ⟨hholds, hhost⟩
      dsimp only
      rw [Function.update_of_ne hhost]
      exact Finset.mem_filter.mp hholds
    · rcases List.mem_filter.mp (List.mem_toFinset.mp hown) with ⟨hlocal, hcovers⟩
      rcases (h.locals n a).mp hlocal with ⟨hagents, hhost⟩
      dsimp only
      rw [hhost, Function.update_self]
      rw [Bool.and_eq_true] at hcovers
      exact ⟨hagents, hcovers.2⟩
  have hcard := Finset.card_le_card hsub
  rw [Finset.card_union_of_disjoint hdisjoint, List.toFinset_card_of_nodup hnodup] at hcard
  exact hcard

/-! ## Safety -/

theorem vacateHalf_bounds {home level : Nat} (hhome : home < numSectors) (hpos : 1 ≤ level)
    (hlevel : level ≤ maxLevel) :
    (vacateHalf home level).1 < (vacateHalf home level).2 ∧
      (vacateHalf home level).2 ≤ numSectors := by
  obtain ⟨k, rfl⟩ : ∃ k, level = k + 1 := ⟨level - 1, by omega⟩
  rcases siblingHalf_bounds hhome (Nat.lt_of_succ_le hlevel) with ⟨hlen, hle, -⟩
  have htwo : 0 < 2 ^ k := Nat.two_pow_pos k
  rw [vacateHalf_succ]
  exact ⟨by omega, hle⟩

omit [DecidableEq NodeId] in
/-- What a shrink that goes ahead knows of its agent and of the arcs on its node. -/
theorem Proceeds.facts {agent : AgentId} {p : PendingShrink} {mid mid' : Node AgentId Url}
    (hp : net.Proceeds dep n env agent p mid mid') (h : Inv dep net) :
    agent ∈ (net.node n).localAgents ∧ p.vacate.1 < p.vacate.2 ∧ p.vacate.2 ≤ numSectors ∧
      mid.localAgents = (net.node n).localAgents ∧
      ∀ b, b ≠ agent → mid'.arcs b = mid.arcs b := by
  rcases hp.turn with ⟨lag, before, after, sent, sent', hlag, hlocal, hbefore, htick, _⟩
  have hoff := encoding_off dep n
  have hbrake := Node.stormBrake_braked hoff (env.gone (net.node n).localAgents)
    (Node.reading_consistent env lag (h.sound n))
  have hnodup : before.Nodup := by
    have hall := (net.node n).nodup
    rw [hlocal] at hall
    exact (List.nodup_append.mp hall).1
  rcases Node.ticks_turn hoff before _ hnodup hbrake.consistent hbefore with ⟨new, hticks⟩
  rcases Node.tickOne_turn hoff hticks.consistent htick with ⟨new', hone⟩
  have hagent : agent ∈ (net.node n).localAgents := by
    rw [hlocal]
    exact List.mem_append_right _ List.mem_cons_self
  have hhost := ((h.locals n agent).mp hagent).2
  have hfits := Node.control_consistent hticks.consistent agent
  have hs := hfits.shrinking p hp.pending
  -- the vacated half is one of a block at level 1 or above
  have hbounds := vacateHalf_bounds (home_lt dep agent) hs.level_pos hfits.declared_le
  refine ⟨hagent, ?_, ?_, ?_, ?_⟩
  · rw [hs.vacate]
    exact hbounds.1
  · rw [hs.vacate]
    exact hbounds.2
  · exact hticks.localAgents.trans hbrake.localAgents
  · intro b hb
    exact (hone.others b fun heq => hb (List.mem_singleton.mp heq)).arcs

end Network

/-! ## One shrink in a network of three -/

/-- The wait covers the bound and a late re-check, the persistence the bound. -/
def calmConfig : Config :=
  { slowConfig with shrinkPersistence := fun _ => 100 }

/-- Three agents with full arcs, each on a node of its own. -/
def three : Deployment Nat Nat Nat where
  agents := {0, 1, 2}
  host := id
  url := id
  loc := fun _ => 0
  loc_le := fun _ => Nat.zero_le _
  cfg := fun _ => calmConfig
  patient := fun _ => rfl
  bound := 100
  late := 100

/-- All nodes know of the arcs of the others, and none has made a check. -/
def threeStart : Network Nat Nat Nat where
  clock := 0
  node := fun n => Node.initial (fun _ => fullArcs) (if n < 3 then [n] else []) (by split <;> simp)
  said := fun _ _ => []
  declared := fun a => if a < 3 then [(0, DhtArc.full)] else []
  heard := fun _ _ _ => 0
  seen := fun _ _ => 1
  lastCheck := fun _ => none

def threeAt (now : Int) : Surroundings Nat Nat :=
  { instant with now := now, elapsed := 100 }

theorem three_start : threeStart.Start three where
  node := by
    intro n
    refine ⟨_, _, _, rfl, ?_⟩
    intro a
    by_cases hn : n < 3
    · simp only [if_pos hn, three, id_eq, List.mem_singleton, Finset.mem_insert,
        Finset.mem_singleton]
      omega
    · simp only [if_neg hn, three, id_eq, List.not_mem_nil, Finset.mem_insert,
        Finset.mem_singleton, false_iff]
      omega
  placed := by
    intro a _
    exact ⟨straight_full, ⟨9, le_refl _, (blockArc_maxLevel _).symm⟩, Keeps.refl _⟩
  said := fun _ _ => rfl
  declared := by
    intro a ha
    have hlt : a < 3 := by
      simp only [three, Finset.mem_insert, Finset.mem_singleton] at ha
      omega
    exact ⟨0, le_refl _, if_pos hlt⟩
  others := by
    intro a ha
    have hge : ¬ a < 3 := by
      simp only [three, Finset.mem_insert, Finset.mem_singleton] at ha
      omega
    exact if_neg hge
  heard := fun _ _ _ => rfl
  seen := fun _ _ => le_refl _
  lastCheck := fun _ => rfl

theorem three_lag (now : Int) :
    (threeAt now).lagEstimate calmConfig ((threeAt now).gone [0]) = .ok 0 := by
  have hnone : (threeAt now).lastGossip = fun _ => none := rfl
  unfold Surroundings.lagEstimate
  simp only [hnone, Option.map_none]
  rw [List.filterMap_eq_nil_iff.mpr fun _ _ => rfl]
  rfl

theorem three_gone (now : Int) : (threeAt now).gone [0] = [0] := rfl

theorem three_quiet (node : Node Nat Nat) (hlocal : node.localAgents = [0]) (now : Int) :
    (node.reading calmConfig (threeAt now) 0).stormBrake calmConfig
        ((threeAt now).gone node.localAgents) =
      { node.reading calmConfig (threeAt now) 0 with
        lastGone := (threeAt now).gone node.localAgents } := by
  unfold Node.stormBrake
  simp [Node.reading, hlocal, three_gone]

theorem three_shrinkBase (node : Node Nat Nat) (hlocal : node.localAgents = [0]) (now : Int) :
    node.shrinkBase calmConfig (threeAt now) 0 = othersCoverage fullPeers [0] := by
  have hrecent : ¬ calmConfig.requireRecentContact = true := by decide
  have hpeers : (threeAt now).peers = fullPeers := rfl
  unfold Node.shrinkBase
  dsimp only
  rw [hlocal, three_gone, if_neg hrecent, hpeers]

theorem three_shrinkCov (node : Node Nat Nat) (hlocal : node.localAgents = [0]) (now : Int) :
    (node.soleView calmConfig (threeAt now) 0).shrinkCov = othersCoverage fullPeers [0] := by
  rw [← three_shrinkBase node hlocal now]
  rfl

/-- The only agent of a node sees the others alone. -/
theorem covAround_sole {node : Node Nat Nat} {agent : Nat} (base : Cov)
    (hlocal : node.localAgents = [agent]) : node.covAround base agent = base := by
  unfold Node.covAround
  rw [hlocal]
  exact if_neg fun hne => hne rfl

/-- The control of the agent once it has announced. -/
def calmControl : AgentControl :=
  { fullControl (some slowShrink) with shrinkAcc := 100 }

theorem three_announces {view : TickView Nat Nat} (tables : Tables Nat Nat)
    (hcov : view.shrinkCov = othersCoverage fullPeers [0]) (hlive : view.liveIntents = [])
    (hnow : view.now = 0) (hlag : view.lag = 0) (helapsed : view.elapsed = 100) :
    tickAgent calmConfig 0 view
        { arcs := fullArcs, ctl := fullControl none, tables := tables, sent := [] } =
      .ok { arcs := fullArcs, ctl := calmControl
            tables := tables.step (.filed false 0 (256, 512) 2000), sent := [upperHalf 0 2000] } := by
  have hmin : minOver view.shrinkCov 256 512 > 1 := by
    rw [hcov]
    refine (le_minOver_iff (by decide) ?_).mpr ?_
    · rw [length_othersCoverage]
      decide
    · intro x hx
      have hx' : x < numSectors := hx.2
      rw [covAt_fullPeers hx']
  have hblock : blockArc 0 9 = DhtArc.full := by decide
  have hvacate : vacateRange 0 9 = .ok (256, 512) := by decide
  have harc : sectorsToArc 256 512 =
      .arc (256 * sectorSize) (511 * sectorSize + (sectorSize - 1)) := by decide
  simp [tickAgent, fullControl, fullArcs, hblock, heldFull, calmConfig, slowConfig, instantConfig,
    decideLevel, growCondition, shrinkCondition, hvacate, maxLevel, hmin, holdsOff, Config.patient,
    lowerRacer, hlive, announceShrink, harc, publishIntent, sendIntent, intentTimes, Config.waitFor,
    hnow, hlag, slowShrink, bind, Except.bind, upperHalf, helapsed, calmControl]

/-- The first check of node `0` announces. -/
theorem exists_three_announced :
    ∃ node, (threeStart.node 0).check calmConfig (fun _ => 0) (threeAt 0) =
        .ok (node, [upperHalf 0 2000]) ∧
      node.localAgents = [0] ∧
      node.tables = (Tables.empty.step (.checked 0)).step (.filed false 0 (256, 512) 2000) ∧
      node.states.lookup 0 = some calmControl ∧ node.arcs 0 = fullArcs := by
  have hlocal : (threeStart.node 0).localAgents = [0] := rfl
  have hstart : (threeStart.node 0).control (fun _ => 0) 0 = (fullArcs, fullControl none) := by decide
  have hlive : ((threeStart.node 0).soleView calmConfig (threeAt 0) 0).liveIntents = [] := by decide
  have hcov := three_shrinkCov (threeStart.node 0) hlocal 0
  have htick := three_announces (Tables.empty.step (.checked 0)) hcov hlive rfl rfl rfl
  exact Node.check_single hlocal hstart (three_lag 0) (three_quiet _ hlocal 0) htick

/-- A second after it was announced the shrink goes ahead. -/
theorem recheck_proceeds {cov : Cov} (hcov : cov = othersCoverage fullPeers [0])
    {live : LiveIntents Nat Nat} (hlive : live = [(0, ownIntent slowShrink)]) :
    recheckOutcome calmConfig cov live 0 (256, 512) = .proceed := by
  have hsize : cov.length = numSectors := by rw [hcov, length_othersCoverage]
  have hmin : 1 ≤ minOver (discount (racesUs 0 (256, 512)) cov live) 256 512 := by
    rcases discount_spec (racesUs 0 (256, 512)) live cov with ⟨hlen, hcount⟩
    rw [le_minOver_iff (by decide) (by rw [hlen, hsize]; decide)]
    intro x hx
    have hxs : x < numSectors := hx.2
    rw [hcount x (by rw [hsize]; exact hxs), hcov, covAt_fullPeers hxs, hlive]
    have hnone : discounted (racesUs 0 (256, 512))
        ([(0, ownIntent slowShrink)] : LiveIntents Nat Nat) x = [] := rfl
    rw [hnone]
    decide
  have hpatient : calmConfig.patient = true := rfl
  have hr : calmConfig.targetRedundancy = 1 := rfl
  simp only [recheckOutcome, hpatient, if_true, patientRecheck, hr, ge_iff_le, hmin]

end Sharding
end Kitsune2
