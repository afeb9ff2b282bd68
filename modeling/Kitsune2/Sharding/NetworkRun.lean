import Kitsune2.Sharding.Network

/-!
# NetworkRun — what holds over every run of the network

Each agent keeps what it has told the others, whatever it is told itself; and a node that has got the
last announcement of a series has it in its table for as long as the announcement lives.
-/

namespace Kitsune2
namespace Sharding

open Api Lib
open Gossip.StorageArc
open Dht (ArcSet)

variable {NodeId AgentId Url : Type}

namespace Network

variable {dep : Deployment NodeId AgentId Url} {net net' : Network NodeId AgentId Url}

/-- The home sector of an agent. -/
def home (dep : Deployment NodeId AgentId Url) (a : AgentId) : Nat :=
  homeSector (dep.loc a)

theorem home_lt (dep : Deployment NodeId AgentId Url) (a : AgentId) : home dep a < numSectors :=
  homeSector_lt (dep.loc_le a)

theorem encoding_off (dep : Deployment NodeId AgentId Url) (n : NodeId) :
    (dep.cfg n).agentinfoEncoding = false := by
  have h := dep.patient n
  unfold Config.patient at h
  simp only [Bool.and_eq_true, Bool.not_eq_true'] at h
  exact h.2

variable [LinearOrder AgentId] [DecidableEq Url]

/-- The control of an agent, on its own node. -/
def ctl (dep : Deployment NodeId AgentId Url) (net : Network NodeId AgentId Url) (a : AgentId) :
    AgentControl :=
  ((net.node (dep.host a)).control dep.loc a).2

/-- The node has what it has last heard of the shrinks of an agent in its table, if that is an
announcement that still lives. -/
def Filed (dep : Deployment NodeId AgentId Url) (net : Network NodeId AgentId Url) (n : NodeId)
    (a : AgentId) : Prop :=
  ∀ k e level, net.heard n a false = k + 1 → (net.said a false)[k]? = some e → 1 ≤ level →
    level ≤ maxLevel → AnnouncesRange a (vacateHalf (home dep a) level) e.2 →
    net.clock < e.2.expiresAt → (net.node n).tables.shrinks.lookup (a, some (dep.url (dep.host a))) =
      some (filedIntent (vacateHalf (home dep a) level) e.2.expiresAt (dep.url (dep.host a)))

/-- What holds over every run. -/
structure Inv (dep : Deployment NodeId AgentId Url) (net : Network NodeId AgentId Url) : Prop where
  locals : ∀ n a, a ∈ (net.node n).localAgents ↔ a ∈ dep.agents ∧ dep.host a = n
  sound : ∀ n, (net.node n).Sound (dep.cfg n) dep.loc
  placed : ∀ a ∈ dep.agents, Placed (home dep a) (net.arcs dep a)
  sender : ∀ a ∈ dep.agents, Sender dep.bound dep.late a (home dep a) net.clock
    (net.lastCheck (dep.host a)) (net.said a false) (net.declared a) (net.arcs dep a).cur (ctl dep net a)
  named : ∀ a grow, ∀ e ∈ net.said a grow, e.2.agentId = a ∧ e.2.grow = grow
  others : ∀ a, a ∉ dep.agents → net.declared a = []
  heard_le : ∀ n a grow, net.heard n a grow ≤ (net.said a grow).length
  filed : ∀ n a, a ∈ dep.agents → dep.host a ≠ n → Filed dep net n a

/-! ## The start -/

omit [DecidableEq Url] in
theorem control_initial (arcs : AgentId → Arcs) (localAgents : List AgentId)
    (nodup : localAgents.Nodup) (loc : AgentId → Nat) (a : AgentId) :
    (((Node.initial arcs localAgents nodup : Node AgentId Url)).control loc a).2.pending = none ∧
      (((Node.initial arcs localAgents nodup : Node AgentId Url)).control loc a).2.shrinkAcc = 0 := by
  unfold Node.control
  rw [Node.initial, AList.lookup_empty]
  exact ⟨rfl, rfl⟩

theorem inv_start (h : net.Start dep) : Inv dep net where
  locals := by
    intro n a
    rcases h.node n with ⟨arcs, localAgents, nodup, heq, hlocal⟩
    rw [heq]
    exact hlocal a
  sound := by
    intro n
    rcases h.node n with ⟨arcs, localAgents, nodup, heq, _⟩
    rw [heq]
    exact Node.initial_sound _ _ _ _ _
  placed := h.placed
  sender := by
    intro a ha
    rcases h.declared a ha with ⟨s, hs, hdeclared⟩
    rcases h.node (dep.host a) with ⟨arcs, localAgents, nodup, heq, _⟩
    -- one declaration only, so no two are adjacent
    have hnone : ∀ e e', ¬ Adjacent (net.declared a) e e' := by
      rintro e e' ⟨i, _, he'⟩
      rw [hdeclared] at he'
      cases he'
    refine ⟨⟨s, ?_⟩, ?_, ?_, ?_, ?_, ?_, ?_⟩
    · rw [hdeclared]
      rfl
    · rw [hdeclared]
      exact List.forall_mem_singleton.mpr hs
    · rw [h.said]
      exact List.forall_mem_nil _
    · intro c hc
      rw [h.lastCheck] at hc
      cases hc
    · intro e e' hadj
      exact absurd hadj (hnone e e')
    · intro t _ e e' hadj
      exact absurd hadj (hnone e e')
    · intro p hp
      unfold ctl at hp
      rw [heq, (control_initial arcs localAgents nodup dep.loc a).1] at hp
      cases hp
  named := by
    intro a grow
    rw [h.said]
    exact List.forall_mem_nil _
  others := h.others
  heard_le := by
    intro n a grow
    rw [h.heard]
    exact Nat.zero_le _
  filed := by
    intro n a _ _ k e level hk
    rw [h.heard] at hk
    cases hk

/-! ## Time, messages and declarations -/

theorem Inv.passed (h : Inv dep net) {t : Int} (ht : net.clock ≤ t) :
    Inv dep { net with clock := t } where
  locals := h.locals
  sound := h.sound
  placed := h.placed
  sender := fun a ha => (h.sender a ha).later ht
  named := h.named
  others := h.others
  heard_le := h.heard_le
  filed := fun n a ha hother k e level hk he hpos hlevel hmsg hlive =>
    h.filed n a ha hother k e level hk he hpos hlevel hmsg (lt_of_le_of_lt ht hlive)

variable [DecidableEq NodeId]

theorem Inv.seen (h : Inv dep net) (n : NodeId) (a : AgentId) :
    Inv dep (net.afterDeclaration n a) :=
  ⟨h.locals, h.sound, h.placed, h.sender, h.named, h.others, h.heard_le, h.filed⟩

theorem node_afterMessage_self (n : NodeId) (a : AgentId) (grow : Bool) (msg : IntentMessage AgentId) :
    (net.afterMessage dep n a grow msg).node n =
      { net.node n with
        tables := (net.node n).tables.step (.received net.clock (dep.url (dep.host a)) msg) } :=
  Function.update_self ..

theorem node_afterMessage_ne {n m : NodeId} (hm : m ≠ n) (a : AgentId) (grow : Bool)
    (msg : IntentMessage AgentId) : (net.afterMessage dep n a grow msg).node m = net.node m :=
  Function.update_of_ne hm _ _

omit [DecidableEq Url] in
/-- A node whose tables alone change has the same agents. -/
theorem control_tables (node : Node AgentId Url) (tables : Tables AgentId Url) (loc : AgentId → Nat)
    (a : AgentId) : ({ node with tables := tables } : Node AgentId Url).control loc a =
      node.control loc a :=
  rfl

/-- An announcement of a half is filed under its sender while it lives. -/
theorem lookup_announced {tables : Tables AgentId Url} {home level : Nat} (hhome : home < numSectors)
    (hpos : 1 ≤ level) (hlevel : level ≤ maxLevel) {a : AgentId} {msg : IntentMessage AgentId}
    {now : Int} (url : Url) (hmsg : AnnouncesRange a (vacateHalf home level) msg)
    (hlive : now < msg.expiresAt) :
    (tables.step (.received now url msg)).shrinks.lookup (a, some url) =
      some (filedIntent (vacateHalf home level) msg.expiresAt url) := by
  obtain ⟨k, rfl⟩ : ∃ k, level = k + 1 := ⟨level - 1, by omega⟩
  rcases receiveInto_half hhome (Nat.lt_of_succ_le hlevel) hlive a url false
    with ⟨msg', hmsg', hgrow, hfiled⟩
  unfold AnnouncesRange at hmsg
  rw [vacateHalf_succ] at hmsg ⊢
  cases hmsg.symm.trans hmsg'
  have hshrinks : (tables.step (.received now url msg)).shrinks =
      receiveInto tables.shrinks now url msg := by
    have hof := Tables.of_received tables false now url msg
    rw [if_pos hgrow.symm] at hof
    exact hof
  rw [hshrinks, hfiled]
  exact IntentTable.lookup_insert_self _ a _

theorem Inv.heard (h : Inv dep net) {n : NodeId} {a : AgentId} {grow : Bool} {e : Sent AgentId}
    (hother : dep.host a ≠ n) (he : (net.said a grow)[net.heard n a grow]? = some e) :
    Inv dep (net.afterMessage dep n a grow e.2) := by
  rcases h.named a grow e (List.mem_of_getElem? he) with ⟨hname, hkind⟩
  -- the node changes in its tables only
  have hnode : ∀ m, ∃ tables, (net.afterMessage dep n a grow e.2).node m =
      { net.node m with tables := tables } := by
    intro m
    by_cases hm : m = n
    · subst hm
      exact ⟨_, node_afterMessage_self ..⟩
    · exact ⟨_, node_afterMessage_ne hm ..⟩
  have harcs : ∀ b, (net.afterMessage dep n a grow e.2).arcs dep b = net.arcs dep b := by
    intro b
    rcases hnode (dep.host b) with ⟨tables, heq⟩
    unfold arcs
    rw [heq]
  have hctl : ∀ b, ctl dep (net.afterMessage dep n a grow e.2) b = ctl dep net b := by
    intro b
    rcases hnode (dep.host b) with ⟨tables, heq⟩
    unfold ctl
    rw [heq, control_tables]
  refine ⟨?_, ?_, ?_, ?_, h.named, h.others, ?_, ?_⟩
  · intro m b
    rcases hnode m with ⟨tables, heq⟩
    rw [heq]
    exact h.locals m b
  · intro m
    by_cases hm : m = n
    · subst hm
      rw [node_afterMessage_self]
      exact Node.step_sound (encoding_off dep m) (h.sound m) (.received ..)
    · rw [node_afterMessage_ne hm]
      exact h.sound m
  · intro b hb
    rw [harcs]
    exact h.placed b hb
  · intro b hb
    rw [harcs, hctl]
    exact h.sender b hb
  · intro m b grow'
    unfold afterMessage
    dsimp only
    split_ifs with heq
    · rcases heq with ⟨rfl, rfl, rfl⟩
      exact (List.getElem?_eq_some_iff.mp he).1
    · exact h.heard_le m b grow'
  · intro m b hb hother' k e' level hk he' hpos hlevel hmsg hlive
    by_cases hm : m = n
    · subst hm
      rw [node_afterMessage_self]
      by_cases hsame : b = a ∧ false = grow
      · -- this message is the last the node has heard of the agent's shrinks
        rcases hsame with ⟨rfl, rfl⟩
        have hcount : net.heard m b false + 1 = k + 1 := by
          rw [← hk]
          exact (if_pos ⟨rfl, rfl, rfl⟩).symm
        cases hcount
        cases he.symm.trans he'
        exact lookup_announced (home_lt dep b) hpos hlevel _ hmsg hlive
      · have hlook := lookup_step (net.node m).tables false (b, some (dep.url (dep.host b)))
          (.received net.clock (dep.url (dep.host a)) e.2)
        rw [stepAt, if_neg ?_] at hlook
        · refine hlook.trans (h.filed m b hb hother' k e' level ?_ he' hpos hlevel hmsg hlive)
          rw [← hk]
          exact (if_neg fun heq => hsame heq.2).symm
        · rintro ⟨hgrow, hkey⟩
          apply hsame
          rw [hname] at hkey
          exact ⟨congrArg Prod.fst hkey, hgrow.trans hkind⟩
    · rw [node_afterMessage_ne hm]
      refine h.filed m b hb hother' k e' level ?_ he' hpos hlevel hmsg hlive
      rw [← hk]
      exact (if_neg fun heq => hm heq.1).symm

/-! ## Gossip -/

omit [DecidableEq Url] in
theorem node_afterGossip_self (a : AgentId) (new : LocalAgent) :
    (net.afterGossip dep a new).node (dep.host a) =
      { net.node (dep.host a) with
        arcs := Function.update (net.node (dep.host a)).arcs a
          { cur := new.curStorageArc, tgt := new.tgtStorageArc } } :=
  Function.update_self ..

omit [DecidableEq Url] in
theorem node_afterGossip_ne {a : AgentId} {n : NodeId} (hn : n ≠ dep.host a) (new : LocalAgent) :
    (net.afterGossip dep a new).node n = net.node n :=
  Function.update_of_ne hn _ _

omit [DecidableEq Url] in
theorem arcs_afterGossip_self (a : AgentId) (new : LocalAgent) :
    (net.afterGossip dep a new).arcs dep a =
      { cur := new.curStorageArc, tgt := new.tgtStorageArc } := by
  unfold arcs
  rw [node_afterGossip_self]
  exact Function.update_self ..

omit [DecidableEq Url] in
theorem arcs_afterGossip_ne {a b : AgentId} (hb : b ≠ a) (new : LocalAgent) :
    (net.afterGossip dep a new).arcs dep b = net.arcs dep b := by
  unfold arcs
  by_cases hhost : dep.host b = dep.host a
  · rw [hhost, node_afterGossip_self]
    exact Function.update_of_ne hb ..
  · rw [node_afterGossip_ne hhost]

omit [DecidableEq Url] in
/-- Gossip changes the arcs of a node only. -/
theorem node_afterGossip (dep : Deployment NodeId AgentId Url) (net : Network NodeId AgentId Url)
    (a : AgentId) (new : LocalAgent) (n : NodeId) :
    ∃ arcs, (net.afterGossip dep a new).node n = { net.node n with arcs := arcs } := by
  by_cases hn : n = dep.host a
  · subst hn
    exact ⟨_, node_afterGossip_self ..⟩
  · exact ⟨_, node_afterGossip_ne hn ..⟩

omit [DecidableEq Url] in
theorem ctl_afterGossip (a b : AgentId) (new : LocalAgent) :
    ctl dep (net.afterGossip dep a new) b = ctl dep net b := by
  rcases node_afterGossip dep net a new (dep.host b) with ⟨arcs, heq⟩
  unfold ctl
  rw [heq]
  unfold Node.control
  cases (net.node (dep.host b)).states.lookup b with
  | none => rfl
  | some ctl => rfl

omit [DecidableEq NodeId] in
/-- The control of an agent fits its arcs. -/
theorem Inv.fits (h : Inv dep net) (a : AgentId) :
    Consistent (home dep a) (Backed (dep.cfg (dep.host a)) (net.node (dep.host a)).tables a)
      ((net.node (dep.host a)).control dep.loc a).1 (ctl dep net a) :=
  Node.control_consistent (h.sound (dep.host a)) a

omit [DecidableEq NodeId] in
/-- While a shrink is pending the agent is at its target. -/
theorem Inv.settled (h : Inv dep net) {a : AgentId} {p : PendingShrink}
    (hp : (ctl dep net a).pending = some p) :
    (net.arcs dep a).tgt = (net.arcs dep a).cur := by
  have hfits := h.fits a
  have hs := hfits.shrinking p hp
  unfold ctl Node.control at hp
  cases hl : (net.node (dep.host a)).states.lookup a with
  | none =>
      rw [hl] at hp
      cases hp
  | some c =>
      have harcs : ((net.node (dep.host a)).control dep.loc a).1 = net.arcs dep a := by
        unfold Node.control
        rw [hl]
        rfl
      rw [← harcs, hfits.tgt, hs.cur, hs.settled]

theorem Inv.grown (h : Inv dep net) {a : AgentId} {common : ArcSet} {theirs : Dht.DhtSnapshot}
    {mismatched : List Nat} {new : LocalAgent} (ha : a ∈ dep.agents)
    (hm : mismatchedSectors theirs = some mismatched)
    (hnew : updateAgent true (common.withoutSectorIndices mismatched).asArcs
      (localAgent (net.arcs dep a)) = .ok new) :
    Inv dep (net.afterGossip dep a new) := by
  have hupdated := (h.placed a ha).updated (home_lt dep a) hm hnew
  have hdeclared : ∀ b, b ≠ a → (net.afterGossip dep a new).declared b = net.declared b :=
    fun b hb => Function.update_of_ne hb _ _
  refine ⟨?_, ?_, ?_, ?_, h.named, ?_, h.heard_le, ?_⟩
  · intro n b
    rcases node_afterGossip dep net a new n with ⟨arcs, heq⟩
    rw [heq]
    exact h.locals n b
  · intro n
    by_cases hn : n = dep.host a
    · subst hn
      rcases hupdated.found with ⟨found, hfound⟩
      rw [node_afterGossip_self, hfound]
      exact Node.step_sound (encoding_off dep _) (h.sound _) (.grown a found _)
    · rw [node_afterGossip_ne hn]
      exact h.sound n
  · intro b hb
    by_cases hba : b = a
    · subst hba
      rw [arcs_afterGossip_self]
      exact hupdated.placed
    · rw [arcs_afterGossip_ne hba]
      exact h.placed b hb
  · intro b hb
    rw [ctl_afterGossip]
    by_cases hba : b = a
    · subst hba
      rw [arcs_afterGossip_self]
      have hsender := h.sender b hb
      have hnow : (net.afterGossip dep b new).declared b =
          net.declared b ++ List.replicate new.callbacks (net.clock, new.curStorageArc) :=
        Function.update_self ..
      rw [hnow]
      have honce := hupdated.once
      by_cases hcalls : new.callbacks = 0
      · have hsame : new.curStorageArc = (net.arcs dep b).cur := hupdated.silent hcalls
        rw [hcalls, List.replicate_zero, List.append_nil]
        dsimp only
        rw [hsame]
        exact hsender
      · have hone : new.callbacks = 1 := by omega
        rw [hone, List.replicate_one]
        refine hsender.grown hupdated.keeps ?_
        -- a pending shrink would have kept the agent at its target
        by_contra hpending
        rcases Option.ne_none_iff_exists'.mp hpending with ⟨p, hp⟩
        exact hcalls (hupdated.settled (h.settled hp))
    · rw [arcs_afterGossip_ne hba, hdeclared b hba]
      exact h.sender b hb
  · intro b hb
    rw [hdeclared b fun heq => hb (heq ▸ ha)]
    exact h.others b hb
  · intro n b hb hother k e level hk he hpos hlevel hmsg hlive
    rcases node_afterGossip dep net a new n with ⟨arcs, heq⟩
    rw [heq]
    exact h.filed n b hb hother k e level hk he hpos hlevel hmsg hlive

/-! ## Checks -/

omit [DecidableEq Url] in
theorem node_afterCheck_self (n : NodeId) (node' : Node AgentId Url)
    (sent : List (IntentMessage AgentId)) : (net.afterCheck dep n node' sent).node n = node' :=
  Function.update_self ..

omit [DecidableEq Url] in
theorem node_afterCheck_ne {n m : NodeId} (hm : m ≠ n) (node' : Node AgentId Url)
    (sent : List (IntentMessage AgentId)) :
    (net.afterCheck dep n node' sent).node m = net.node m :=
  Function.update_of_ne hm _ _

omit [DecidableEq Url] in
/-- The control of an agent has its current arc. -/
theorem control_cur (node : Node AgentId Url) (loc : AgentId → Nat) (a : AgentId) :
    (node.control loc a).1.cur = (node.arcs a).cur := by
  unfold Node.control
  cases node.states.lookup a with
  | none => rfl
  | some ctl => rfl

/-- The storm brake leaves the control fit. -/
theorem Consistent.calm {home : Nat} {backed : PendingShrink → Prop} {arcs : Arcs}
    {ctl ctl' : AgentControl} (h : Consistent home backed arcs ctl) (hcalm : Node.Calm ctl ctl') :
    Consistent home backed arcs ctl' := by
  rcases hcalm with rfl | rfl
  · exact h
  · refine ⟨h.home_eq, h.target_le, h.levels, h.tgt, Or.inl rfl, ?_, h.growing⟩
    intro p hp
    cases hp

omit [DecidableEq NodeId] in
/-- Also with the full target that a new agent gets, the arc is inside. -/
theorem Inv.placed_control (h : Inv dep net) {a : AgentId} (ha : a ∈ dep.agents) :
    Placed (home dep a) ((net.node (dep.host a)).control dep.loc a).1 := by
  have hplaced := h.placed a ha
  unfold Node.control
  cases (net.node (dep.host a)).states.lookup a with
  | some ctl => exact hplaced
  | none =>
      refine ⟨hplaced.straight, ⟨maxLevel, le_refl _, (blockArc_maxLevel _).symm⟩, ?_⟩
      rcases hplaced.target with ⟨level, hlevel, htgt⟩
      have hinside : Keeps (net.arcs dep a).cur (blockArc (home dep a) level) := htgt ▸ hplaced.inside
      have hfull := hinside.trans (keeps_blockArc (home_lt dep a) hlevel (le_refl maxLevel))
      rw [blockArc_maxLevel] at hfull
      exact hfull

section Checked

variable {n : NodeId} {env : Surroundings AgentId Url} {node' : Node AgentId Url}
  {sent : List (IntentMessage AgentId)}

/-- A check says nothing in the name of agents that are not local. -/
theorem said_afterCheck_other (hc : Node.Checked (dep.cfg n) dep.loc env (net.node n) node' sent)
    {a : AgentId} (ha : a ∉ (net.node n).localAgents) (grow : Bool) :
    (net.afterCheck dep n node' sent).said a grow = net.said a grow := by
  have hnone : sent.filter (fun msg => decide (msg.agentId = a)) = [] := by
    refine List.filter_eq_nil_iff.mpr fun msg hmsg => ?_
    rw [decide_eq_true_eq]
    exact fun heq => ha (heq ▸ hc.own msg hmsg)
  unfold afterCheck
  dsimp only
  rw [hnone]
  exact List.append_nil _

theorem declared_afterCheck_other
    (hc : Node.Checked (dep.cfg n) dep.loc env (net.node n) node' sent) {a : AgentId}
    (ha : a ∉ (net.node n).localAgents) :
    (net.afterCheck dep n node' sent).declared a = net.declared a := by
  unfold afterCheck
  dsimp only
  split_ifs with hhost
  · rw [hc.arcs a ha]
    exact if_pos rfl
  · rfl

/-- The turn of a local agent keeps up what it has told the others, and its arc inside its target. -/
theorem Inv.ticked (h : Inv dep net) (hat : net.CheckAt dep n env)
    (hc : Node.Checked (dep.cfg n) dep.loc env (net.node n) node' sent)
    (hsound' : node'.Sound (dep.cfg n) dep.loc) {a : AgentId} (ha : a ∈ dep.agents)
    (hhost : dep.host a = n) :
    Placed (home dep a) (node'.arcs a) ∧
      Sender dep.bound dep.late a (home dep a) net.clock (some net.clock)
        ((net.afterCheck dep n node' sent).said a false)
        ((net.afterCheck dep n node' sent).declared a) (node'.arcs a).cur
        (node'.control dep.loc a).2 := by
  subst hhost
  have hlocal := (h.locals (dep.host a) a).mpr ⟨ha, rfl⟩
  rcases hc.turn a hlocal with ⟨lag, c, c', hlag, hcalm, hstate, hturn⟩
  have hfits := Consistent.calm (h.fits a) hcalm
  have hcontrol : node'.control dep.loc a = (node'.arcs a, c') := by
    unfold Node.control
    rw [hstate]
  have hfits' := Node.control_consistent hsound' a
  rw [hcontrol] at hfits' ⊢
  rw [hat.now] at hturn
  refine ⟨(h.placed_control ha).turn (home_lt dep a) hfits hfits' hturn, ?_⟩
  have hsender := (h.sender a ha).calm hcalm
  have hcur := control_cur (net.node (dep.host a)) dep.loc a
  have hcur' : (net.arcs dep a).cur = ((net.node (dep.host a)).control dep.loc a).1.cur := hcur.symm
  rw [hcur'] at hsender
  rcases hat.waits lag hlag with ⟨hwait, hpersists⟩
  have hnext := hsender.turn hfits ?_ ?_ hwait hpersists hturn
  · have hdeclared : (net.afterCheck dep (dep.host a) node' sent).declared a =
        redeclared net.clock ((net.node (dep.host a)).control dep.loc a).1.cur (node'.arcs a).cur
          (net.declared a) := by
      rw [hcur]
      exact if_pos rfl
    rw [hdeclared]
    exact hnext
  · intro t ht
    rw [hat.elapsed]
    exact hat.slept t ht
  · intro p hp hdue
    -- a cancelled shrink is not pending any more
    have hp' : (ctl dep net a).pending = some p := by
      rcases hcalm with rfl | rfl
      · exact hp
      · cases hp
    unfold ctl Node.control at hp'
    cases hl : (net.node (dep.host a)).states.lookup a with
    | none =>
        rw [hl] at hp'
        cases hp'
    | some c₀ =>
        rw [hl] at hp'
        exact hat.onTime a c₀ p hl hp' hdue

theorem Inv.checked (h : Inv dep net) (hat : net.CheckAt dep n env)
    (hcheck : (net.node n).check (dep.cfg n) dep.loc env = .ok (node', sent)) :
    Inv dep (net.afterCheck dep n node' sent) := by
  have hc := Node.check_checked (encoding_off dep n) (h.sound n) hcheck
  have hsound' := Node.step_sound (encoding_off dep n) (h.sound n) (.checked env hcheck)
  have hforeign : ∀ b, dep.host b ≠ n → b ∉ (net.node n).localAgents :=
    fun b hb hmem => hb ((h.locals n b).mp hmem).2
  refine ⟨?_, ?_, ?_, ?_, ?_, ?_, ?_, ?_⟩
  · intro m b
    by_cases hm : m = n
    · subst hm
      rw [node_afterCheck_self, hc.localAgents]
      exact h.locals m b
    · rw [node_afterCheck_ne hm]
      exact h.locals m b
  · intro m
    by_cases hm : m = n
    · subst hm
      rw [node_afterCheck_self]
      exact hsound'
    · rw [node_afterCheck_ne hm]
      exact h.sound m
  · intro b hb
    unfold arcs
    by_cases hhost : dep.host b = n
    · rw [hhost, node_afterCheck_self]
      exact (h.ticked hat hc hsound' hb hhost).1
    · rw [node_afterCheck_ne hhost]
      exact h.placed b hb
  · intro b hb
    unfold arcs ctl
    by_cases hhost : dep.host b = n
    · have hlast : (net.afterCheck dep n node' sent).lastCheck n = some net.clock :=
        Function.update_self ..
      rw [hhost, node_afterCheck_self, hlast]
      exact (h.ticked hat hc hsound' hb hhost).2
    · have hlast : (net.afterCheck dep n node' sent).lastCheck (dep.host b) =
          net.lastCheck (dep.host b) := Function.update_of_ne hhost _ _
      rw [node_afterCheck_ne hhost, hlast, said_afterCheck_other hc (hforeign b hhost),
        declared_afterCheck_other hc (hforeign b hhost)]
      exact h.sender b hb
  · intro b grow e he
    rcases List.mem_append.mp he with he | he
    · exact h.named b grow e he
    · rcases List.mem_map.mp he with ⟨msg, hmsg, rfl⟩
      rw [List.mem_filter, List.mem_filter, decide_eq_true_eq, decide_eq_true_eq] at hmsg
      exact ⟨hmsg.1.2, hmsg.2⟩
  · intro b hb
    rw [declared_afterCheck_other hc fun hmem => hb ((h.locals n b).mp hmem).1]
    exact h.others b hb
  · intro m b grow
    refine le_trans (h.heard_le m b grow) ?_
    unfold afterCheck
    dsimp only
    rw [List.length_append]
    exact Nat.le_add_right _ _
  · intro m b hb hother k e level hk he hpos hlevel hmsg hlive
    -- what has been heard was said before this check
    have hk' : net.heard m b false = k + 1 := hk
    have hlt : k < (net.said b false).length := by
      have hle := h.heard_le m b false
      omega
    have he' : (net.said b false)[k]? = some e := by
      rw [← he]
      exact (List.getElem?_append_left hlt).symm
    have hheld := h.filed m b hb hother k e level hk' he' hpos hlevel hmsg hlive
    by_cases hm : m = n
    · subst hm
      rw [node_afterCheck_self]
      refine hc.heard b _ _ hheld ?_
      rw [hat.now]
      exact hlive
    · rw [node_afterCheck_ne hm]
      exact hheld

end Checked

/-- Over every run the invariant holds. -/
theorem reachable_inv (h : Reachable dep net) : Inv dep net := by
  induction h with
  | start hstart => exact inv_start hstart
  | step _ hstep ih =>
      cases hstep with
      | passed ht => exact ih.passed ht
      | checked n env hat hcheck => exact ih.checked hat hcheck
      | heard n a grow hother he => exact ih.heard hother he
      | seen n a hother hlt => exact ih.seen n a
      | grown a common theirs ha hm hnew => exact ih.grown ha hm hnew

end Network

end Sharding
end Kitsune2
