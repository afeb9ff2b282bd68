import Kitsune2.Sharding.ControllerInvariant

/-!
# Controller run — the invariant over every run of a node

A run interleaves checks with messages from peers, with the growth of storage arcs by gossip, and
with agents that join and leave.  A check first drops expired table entries, then may cancel every
pending shrink, then ticks the local agents one after another; an agent's tick touches nothing of
another agent.
-/

namespace Kitsune2
namespace Sharding

open Api Lib

variable {AgentId Url : Type} [LinearOrder AgentId] [DecidableEq Url]

/-! ## Runs -/

/-- `update_storage_arcs` for one agent: an agent at its target is left alone, any other may get
the arc that was found to be in sync. -/
def updateStorageArc (found : Option DhtArc) (arcs : Arcs) : Arcs :=
  if arcs.tgt = arcs.cur then arcs
  else
    match found with
    | none => arcs
    | some arc => { arcs with cur := arc }

/-- Gossip only grows an arc that is behind its target. -/
theorem Consistent.grown {home : Nat} {backed : PendingShrink → Prop} {arcs : Arcs}
    {ctl : AgentControl} (h : Consistent home backed arcs ctl) (found : Option DhtArc) :
    Consistent home backed (updateStorageArc found arcs) ctl := by
  have htgt : (updateStorageArc found arcs).tgt = arcs.tgt := by
    unfold updateStorageArc
    split_ifs
    · rfl
    · cases found <;> rfl
  refine ⟨h.home_eq, h.target_le, h.levels, htgt.trans h.tgt, h.exclusive, ?_, h.growing⟩
  intro p hp
  have hs := h.shrinking p hp
  -- an agent with a pending shrink is at its target
  have hsame : arcs.tgt = arcs.cur := by
    rw [h.tgt, hs.cur, hs.settled]
  have hcur : (updateStorageArc found arcs).cur = arcs.cur := by
    unfold updateStorageArc
    rw [if_pos hsame]
  exact ⟨hs.level_pos, hs.settled, hcur.trans hs.cur, hs.vacate, hs.lapses_after, hs.backed⟩

namespace Node

/-- A node before its first check. -/
def initial (arcs : AgentId → Arcs) (localAgents : List AgentId) (nodup : localAgents.Nodup) :
    Node AgentId Url where
  arcs := arcs
  localAgents := localAgents
  nodup := nodup
  states := ∅
  tables := Tables.empty
  lastGone := []
  contact := fun _ => none

/-- One step of a node.  `local_agent_join` gives the agent an empty current arc, so an agent that
joins is none the controller still has a state of: the arcs of those are written by checks and by gossip
alone. -/
inductive Step (cfg : Config) (loc : AgentId → Nat) : Node AgentId Url → Node AgentId Url → Prop
  | checked (env : Surroundings AgentId Url) {node node' : Node AgentId Url}
      {sent : List (IntentMessage AgentId)} (h : node.check cfg loc env = .ok (node', sent)) :
      Step cfg loc node node'
  | received (now : Int) (peer : Url) (msg : IntentMessage AgentId) (node : Node AgentId Url) :
      Step cfg loc node { node with tables := node.tables.step (.received now peer msg) }
  | grown (agent : AgentId) (found : Option DhtArc) (node : Node AgentId Url) :
      Step cfg loc node
        { node with
          arcs := Function.update node.arcs agent (updateStorageArc found (node.arcs agent)) }
  | joined (agent : AgentId) (tgt : DhtArc) (node : Node AgentId Url) (h : agent ∉ node.localAgents)
      (hforgotten : node.states.lookup agent = none) :
      Step cfg loc node
        { node with
          arcs := Function.update node.arcs agent { cur := .empty, tgt := tgt }
          localAgents := agent :: node.localAgents, nodup := List.nodup_cons.mpr ⟨h, node.nodup⟩ }
  | left (agent : AgentId) (node : Node AgentId Url) :
      Step cfg loc node
        { node with
          localAgents := node.localAgents.erase agent, nodup := node.nodup.erase agent }

/-- The nodes a run can lead to. -/
inductive Reachable (cfg : Config) (loc : AgentId → Nat) : Node AgentId Url → Prop
  | initial (arcs : AgentId → Arcs) (localAgents : List AgentId) (nodup : localAgents.Nodup) :
      Reachable cfg loc (initial arcs localAgents nodup)
  | step {node node' : Node AgentId Url} (h : Reachable cfg loc node)
      (hstep : Step cfg loc node node') : Reachable cfg loc node'

/-! ## The invariant of a node -/

/-- Every controlled agent is consistent. -/
def AllConsistent (loc : AgentId → Nat) (backed : AgentId → PendingShrink → Prop)
    (node : Node AgentId Url) : Prop :=
  ∀ agent ctl, node.states.lookup agent = some ctl →
    Consistent (homeSector (loc agent)) (backed agent) (node.arcs agent) ctl

/-- Nothing of this agent differs: its arcs, its state and its own table entry. -/
structure SameFor (agent : AgentId) (node node' : Node AgentId Url) : Prop where
  state : node'.states.lookup agent = node.states.lookup agent
  arcs : node'.arcs agent = node.arcs agent
  entry : node'.tables.shrinks.lookup (agent, none) = node.tables.shrinks.lookup (agent, none)

theorem SameFor.refl (agent : AgentId) (node : Node AgentId Url) : SameFor agent node node :=
  ⟨rfl, rfl, rfl⟩

theorem SameFor.trans {agent : AgentId} {a b c : Node AgentId Url} (h : SameFor agent a b)
    (h' : SameFor agent b c) : SameFor agent a c :=
  ⟨h'.state.trans h.state, h'.arcs.trans h.arcs, h'.entry.trans h.entry⟩

theorem SameFor.backedAt {cfg : Config} {now : Int} {agent : AgentId} {node node' : Node AgentId Url}
    (h : SameFor agent node node') {p : PendingShrink}
    (hb : BackedAt cfg now node.tables agent p) : BackedAt cfg now node'.tables agent p := by
  unfold BackedAt
  rw [h.entry]
  exact hb

theorem SameFor.backed {cfg : Config} {agent : AgentId} {node node' : Node AgentId Url}
    (h : SameFor agent node node') {p : PendingShrink} (hb : Backed cfg node.tables agent p) :
    Backed cfg node'.tables agent p := by
  unfold Backed
  rw [h.entry]
  exact hb

omit [LinearOrder AgentId] [DecidableEq Url] in
/-- The keys of two agents' own entries are different. -/
theorem own_key_ne {agent other : AgentId} (h : other ≠ agent) :
    ((other, none) : AgentId × Option Url) ≠ (agent, none) :=
  fun heq => h (congrArg Prod.fst heq)

/-! ## Before the ticks: the table is read, shrinks may be cancelled -/

/-- Reading the table drops the entries that have expired by then. -/
theorem backedAt_checked {cfg : Config} {now : Int} {agent : AgentId}
    {tables : Tables AgentId Url} {p : PendingShrink} (h : Backed cfg tables agent p) :
    BackedAt cfg now (tables.step (.checked now)) agent p := by
  intro htime
  have hlook := lookup_step tables false (agent, none) (.checked now)
  rw [stepAt] at hlook
  by_cases hlive : p.expiresAt > now
  · left
    have hentry : (tables.of false).lookup (agent, none) = some (ownIntent p) := h htime
    rw [hentry] at hlook
    have hkeep : (some (ownIntent p) : Option (ShrinkIntent Url)).filter
        (fun i => decide (i.expiresAt > now)) = some (ownIntent p) := by
      simp [Option.filter, ownIntent, hlive]
    exact hlook.trans hkeep
  · right
    exact not_lt.mp hlive

theorem cancelPending_same {cfg : Config} (hoff : cfg.agentinfoEncoding = false)
    (node : Node AgentId Url) {agent other : AgentId} (hne : other ≠ agent) :
    SameFor other node (node.cancelPending cfg agent) := by
  unfold cancelPending
  cases node.states.lookup agent with
  | none => exact SameFor.refl other node
  | some ctl =>
      dsimp only
      by_cases hnone : ctl.pending.isNone = true
      · rw [if_pos hnone]
        exact SameFor.refl other node
      · rw [if_neg hnone]
        simp only [hoff, Bool.false_and, Bool.false_eq_true, if_false]
        exact ⟨AList.lookup_insert_ne hne, rfl,
          othersKept_removed agent false node.tables false _ (own_key_ne hne)⟩

/-- Cancelling an agent's shrink leaves its levels and arcs, and no pending shrink. -/
theorem cancelPending_self {cfg : Config} (hoff : cfg.agentinfoEncoding = false)
    (node : Node AgentId Url) (agent : AgentId) :
    SameFor agent node (node.cancelPending cfg agent) ∨
      ∃ ctl, node.states.lookup agent = some ctl ∧
        (node.cancelPending cfg agent).states.lookup agent =
          some { ctl with pending := none, shrinkAcc := 0 } ∧
        (node.cancelPending cfg agent).arcs agent = node.arcs agent := by
  unfold cancelPending
  cases hl : node.states.lookup agent with
  | none => exact .inl (SameFor.refl agent node)
  | some ctl =>
      dsimp only
      by_cases hnone : ctl.pending.isNone = true
      · rw [if_pos hnone]
        exact .inl (SameFor.refl agent node)
      · rw [if_neg hnone]
        simp only [hoff, Bool.false_and, Bool.false_eq_true, if_false]
        exact .inr ⟨ctl, rfl, AList.lookup_insert _, trivial⟩

/-- What the storm brake leaves of each agent. -/
structure Braked (loc : AgentId → Nat) (cfg : Config) (now : Int)
    (node node' : Node AgentId Url) : Prop where
  consistent : node'.AllConsistent loc fun agent => BackedAt cfg now node'.tables agent
  sameLevel : ∀ agent ctl, node.states.lookup agent = some ctl →
    ∃ ctl', node'.states.lookup agent = some ctl' ∧ ctl'.declaredLevel = ctl.declaredLevel
  localAgents : node'.localAgents = node.localAgents

theorem cancelPending_consistent {loc : AgentId → Nat} {cfg : Config} {now : Int}
    (hoff : cfg.agentinfoEncoding = false) {node : Node AgentId Url}
    (h : node.AllConsistent loc fun agent => BackedAt cfg now node.tables agent)
    (agent : AgentId) :
    (node.cancelPending cfg agent).AllConsistent loc
      fun a => BackedAt cfg now (node.cancelPending cfg agent).tables a := by
  -- an agent of which nothing differs stays consistent
  have hsame : ∀ other, SameFor other node (node.cancelPending cfg agent) →
      ∀ ctl, (node.cancelPending cfg agent).states.lookup other = some ctl →
        Consistent (homeSector (loc other))
          (BackedAt cfg now (node.cancelPending cfg agent).tables other)
          ((node.cancelPending cfg agent).arcs other) ctl := by
    intro other hs ctl hctl
    rw [hs.state] at hctl
    rw [hs.arcs]
    exact (h other ctl hctl).mono fun p _ hb => hs.backedAt hb
  intro other ctl hctl
  by_cases hne : other = agent
  · subst hne
    rcases cancelPending_self hoff node other with hs | ⟨ctl₀, hl, hl', harcs⟩
    · exact hsame other hs ctl hctl
    · rw [hl'] at hctl
      obtain rfl := Option.some.inj hctl
      have hc := h other ctl₀ hl
      rw [harcs]
      refine ⟨hc.home_eq, hc.target_le, hc.levels, hc.tgt, .inl rfl, ?_, hc.growing⟩
      intro p hp
      cases hp
  · exact hsame other (cancelPending_same hoff node hne) ctl hctl

theorem cancelPending_level {cfg : Config} (hoff : cfg.agentinfoEncoding = false)
    {node : Node AgentId Url} (agent : AgentId) {other : AgentId} {ctl : AgentControl}
    (hl : node.states.lookup other = some ctl) :
    ∃ ctl', (node.cancelPending cfg agent).states.lookup other = some ctl' ∧
      ctl'.declaredLevel = ctl.declaredLevel := by
  by_cases hne : other = agent
  · subst hne
    rcases cancelPending_self hoff node other with hs | ⟨ctl₀, hl₀, hl', -⟩
    · exact ⟨ctl, hs.state.trans hl, rfl⟩
    · obtain rfl := Option.some.inj (hl.symm.trans hl₀)
      exact ⟨_, hl', rfl⟩
  · exact ⟨ctl, (cancelPending_same hoff node hne).state.trans hl, rfl⟩

theorem cancelPending_localAgents (cfg : Config) (node : Node AgentId Url) (agent : AgentId) :
    (node.cancelPending cfg agent).localAgents = node.localAgents := by
  unfold cancelPending
  cases node.states.lookup agent with
  | none => rfl
  | some ctl =>
      dsimp only
      split_ifs <;> rfl

theorem cancelPending_braked {loc : AgentId → Nat} {cfg : Config} {now : Int}
    (hoff : cfg.agentinfoEncoding = false) {start node : Node AgentId Url}
    (h : Braked loc cfg now start node) (agent : AgentId) :
    Braked loc cfg now start (node.cancelPending cfg agent) := by
  refine ⟨cancelPending_consistent hoff h.consistent agent, ?_,
    (cancelPending_localAgents cfg node agent).trans h.localAgents⟩
  intro other ctl hl
  obtain ⟨ctl₁, hl₁, hsame₁⟩ := h.sameLevel other ctl hl
  obtain ⟨ctl₂, hl₂, hsame₂⟩ := cancelPending_level hoff agent hl₁
  exact ⟨ctl₂, hl₂, hsame₂.trans hsame₁⟩

theorem stormBrake_braked {loc : AgentId → Nat} {cfg : Config} {now : Int}
    (hoff : cfg.agentinfoEncoding = false) (gone : List AgentId) {node : Node AgentId Url}
    (h : node.AllConsistent loc fun agent => BackedAt cfg now node.tables agent) :
    Braked loc cfg now node (node.stormBrake cfg gone) := by
  have hstart : Braked loc cfg now node { node with lastGone := gone } :=
    ⟨h, fun _ ctl hctl => ⟨ctl, hctl, rfl⟩, rfl⟩
  unfold stormBrake
  dsimp only
  split_ifs with hgone
  · have hfold : ∀ (keys : List AgentId) (n : Node AgentId Url), Braked loc cfg now node n →
        Braked loc cfg now node (keys.foldl (cancelPending cfg) n) := by
      intro keys
      induction keys with
      | nil => intro n hn; exact hn
      | cons agent keys ih =>
          intro n hn
          exact ih _ (cancelPending_braked hoff hn agent)
    exact hfold _ _ hstart
  · exact hstart

/-! ## The ticks -/

omit [DecidableEq Url] in
/-- An agent's state at the beginning of its tick, also when it is new. -/
theorem control_consistent {loc : AgentId → Nat} {backed : AgentId → PendingShrink → Prop}
    {node : Node AgentId Url} (h : node.AllConsistent loc backed) (agent : AgentId) :
    Consistent (homeSector (loc agent)) (backed agent) (node.control loc agent).1
      (node.control loc agent).2 := by
  unfold control
  cases hl : node.states.lookup agent with
  | some ctl => exact h agent ctl hl
  | none =>
      dsimp only
      exact Idle.consistent ⟨rfl, le_refl _, .inl rfl, (blockArc_maxLevel _).symm, rfl, rfl⟩

/-- What one agent is left with after its tick. -/
structure Ticked (loc : AgentId → Nat) (cfg : Config) (agent : AgentId)
    (node node' : Node AgentId Url) : Prop where
  consistent : ∀ ctl', node'.states.lookup agent = some ctl' →
    Consistent (homeSector (loc agent)) (Backed cfg node'.tables agent) (node'.arcs agent) ctl'
  level : ∀ ctl ctl', node.states.lookup agent = some ctl →
    node'.states.lookup agent = some ctl' →
      ctl'.declaredLevel ≤ ctl.declaredLevel + 1 ∧ ctl.declaredLevel ≤ ctl'.declaredLevel + 1

theorem Ticked.of_same {loc : AgentId → Nat} {cfg : Config} {agent : AgentId}
    {start node node' : Node AgentId Url} (h : Ticked loc cfg agent start node)
    (hs : SameFor agent node node') : Ticked loc cfg agent start node' := by
  refine ⟨?_, ?_⟩
  · intro ctl' hctl'
    rw [hs.state] at hctl'
    rw [hs.arcs]
    exact (h.consistent ctl' hctl').mono fun p _ hb => hs.backed hb
  · intro ctl ctl' hctl hctl'
    rw [hs.state] at hctl'
    exact h.level ctl ctl' hctl hctl'

/-- One pass of the loop: the agent's turn returns, restores its invariant and leaves every other
agent as it was. -/
theorem tickOne_keeps {loc : AgentId → Nat} {cfg : Config} (hoff : cfg.agentinfoEncoding = false)
    (view : TickView AgentId Url) (shrinkBase growBase : Cov)
    (acc : Node AgentId Url × List (IntentMessage AgentId)) (agent : AgentId)
    (h : acc.1.AllConsistent loc fun a => BackedAt cfg view.now acc.1.tables a) :
    ∃ acc', tickOne cfg loc view shrinkBase growBase acc agent = .ok acc' ∧
      Ticked loc cfg agent acc.1 acc'.1 ∧ (∀ other, other ≠ agent → SameFor other acc.1 acc'.1) ∧
      acc'.1.localAgents = acc.1.localAgents := by
  obtain ⟨st, heq, hrest⟩ := tickAgent_keeps cfg agent
    { view with
      shrinkCov := acc.1.covAround shrinkBase agent, growCov := acc.1.covAround growBase agent }
    { arcs := (acc.1.control loc agent).1, ctl := (acc.1.control loc agent).2
      tables := acc.1.tables, sent := acc.2 } hoff (control_consistent h agent)
  unfold tickOne
  dsimp only
  rw [heq]
  refine ⟨_, rfl, ⟨?_, ?_⟩, ?_, rfl⟩
  · intro ctl' hctl'
    dsimp only at hctl' ⊢
    rw [AList.lookup_insert] at hctl'
    obtain rfl := Option.some.inj hctl'
    rw [Function.update_self]
    exact hrest.consistent
  · intro ctl ctl' hctl hctl'
    dsimp only at hctl'
    rw [AList.lookup_insert] at hctl'
    obtain rfl := Option.some.inj hctl'
    have hcontrol : (acc.1.control loc agent).2 = ctl := by
      simp [control, hctl]
    have hle := hrest.level_le
    have hge := hrest.level_ge
    dsimp only at hle hge
    rw [hcontrol] at hle hge
    exact ⟨hle, hge⟩
  -- the others: their state, their arcs and their own entries
  · intro other hne
    exact ⟨AList.lookup_insert_ne hne, Function.update_of_ne hne _ _,
      hrest.others false _ (own_key_ne hne)⟩

/-- The whole loop: every agent of the list has had its turn, the others are as they were. -/
theorem ticks_keep {loc : AgentId → Nat} {cfg : Config} (hoff : cfg.agentinfoEncoding = false)
    (view : TickView AgentId Url) (shrinkBase growBase : Cov) (agents : List AgentId) :
    ∀ acc : Node AgentId Url × List (IntentMessage AgentId), agents.Nodup →
      acc.1.AllConsistent loc (fun a => BackedAt cfg view.now acc.1.tables a) →
      ∃ done, agents.foldlM (tickOne cfg loc view shrinkBase growBase) acc = .ok done ∧
        (∀ agent ∈ agents, Ticked loc cfg agent acc.1 done.1) ∧
        (∀ other, other ∉ agents → SameFor other acc.1 done.1) ∧
        done.1.localAgents = acc.1.localAgents := by
  induction agents with
  | nil =>
      intro acc _ _
      exact ⟨acc, rfl, by simp, fun other _ => SameFor.refl other acc.1, rfl⟩
  | cons agent agents ih =>
      intro acc hnodup h
      obtain ⟨hnot, hnodup'⟩ := List.nodup_cons.mp hnodup
      obtain ⟨acc', hfirst, hticked, hothers, hlocal⟩ :=
        tickOne_keeps hoff view shrinkBase growBase acc agent h
      have hnext : acc'.1.AllConsistent loc fun a => BackedAt cfg view.now acc'.1.tables a := by
        intro a ctl hctl
        by_cases ha : a = agent
        · subst ha
          exact (hticked.consistent ctl hctl).mono fun p _ hb htime => .inl (hb htime)
        · have hs := hothers a ha
          rw [hs.state] at hctl
          rw [hs.arcs]
          exact (h a ctl hctl).mono fun p _ hb => hs.backedAt hb
      obtain ⟨done, hrest, hdone, hsame, hlocal'⟩ := ih acc' hnodup' hnext
      refine ⟨done, ?_, ?_, ?_, hlocal'.trans hlocal⟩
      · rw [List.foldlM_cons]
        exact bind_eq_ok_iff.mpr ⟨acc', hfirst, hrest⟩
      · intro a ha
        rcases List.mem_cons.mp ha with rfl | ha
        · exact hticked.of_same (hsame a hnot)
        · -- its turn came after the first agent's, which left it as it was
          have hne : a ≠ agent := fun heq => hnot (heq ▸ ha)
          have hs := hothers a hne
          refine ⟨(hdone a ha).consistent, ?_⟩
          intro ctl ctl' hctl hctl'
          rw [← hs.state] at hctl
          exact (hdone a ha).level ctl ctl' hctl hctl'
      · intro other hother
        obtain ⟨hne, hrest'⟩ := not_or.mp (fun h => hother (List.mem_cons.mpr h))
        exact (hothers other hne).trans (hsame other hrest')

/-! ## The check -/

theorem lookup_eraseAll {agents : List AgentId} {agent : AgentId} {ctl : AgentControl} :
    ∀ states : AList fun _ : AgentId => AgentControl,
      (agents.foldl (fun states a => states.erase a) states).lookup agent = some ctl →
        agent ∉ agents ∧ states.lookup agent = some ctl := by
  induction agents with
  | nil =>
      intro states h
      exact ⟨by simp, h⟩
  | cons a agents ih =>
      intro states h
      obtain ⟨hnot, hl⟩ := ih _ h
      by_cases ha : agent = a
      · subst ha
        rw [AList.lookup_erase] at hl
        cases hl
      · rw [AList.lookup_erase_ne ha] at hl
        exact ⟨by simp [ha, hnot], hl⟩

omit [DecidableEq Url] in
/-- After a check only local agents are controlled. -/
theorem forgetLeft_lookup {node : Node AgentId Url} {agent : AgentId} {ctl : AgentControl}
    (h : node.forgetLeft.states.lookup agent = some ctl) :
    agent ∈ node.localAgents ∧ node.states.lookup agent = some ctl := by
  obtain ⟨hnot, hl⟩ := lookup_eraseAll node.states h
  refine ⟨?_, hl⟩
  by_contra hout
  apply hnot
  have hkey : agent ∈ node.states.keys := AList.mem_keys.mp (AList.lookup_isSome.mp (by simp [hl]))
  simp [hkey, hout]

/-- The only way a check can stop: a lag floor above the lag ceiling. -/
def clampPanic : Fault := .panicked "assertion failed: min <= max"

omit [DecidableEq Url] in
theorem lagEstimate_cases (env : Surroundings AgentId Url) (cfg : Config)
    (exclude : List AgentId) :
    (∃ lag, env.lagEstimate cfg exclude = .ok lag) ∨
      env.lagEstimate cfg exclude = .error clampPanic := by
  unfold Surroundings.lagEstimate
  dsimp only
  split_ifs
  · exact .inl ⟨_, rfl⟩
  · exact .inl ⟨_, rfl⟩
  · exact .inr rfl

/-- The invariant of a node between its steps. -/
def Sound (cfg : Config) (loc : AgentId → Nat) (node : Node AgentId Url) : Prop :=
  node.AllConsistent loc fun agent => Backed cfg node.tables agent

/-- One check moves every level it finds by at most one. -/
def LevelsMoveByOne (node node' : Node AgentId Url) : Prop :=
  ∀ agent ctl ctl', node.states.lookup agent = some ctl →
    node'.states.lookup agent = some ctl' →
      ctl'.declaredLevel ≤ ctl.declaredLevel + 1 ∧ ctl.declaredLevel ≤ ctl'.declaredLevel + 1

theorem reading_consistent {cfg : Config} {loc : AgentId → Nat} (env : Surroundings AgentId Url)
    (lag : Nat) {node : Node AgentId Url} (h : node.Sound cfg loc) :
    (node.reading cfg env lag).AllConsistent loc
      fun a => BackedAt cfg env.now (node.reading cfg env lag).tables a :=
  fun agent ctl hctl => (h agent ctl hctl).mono fun _ _ hb => backedAt_checked hb

/-- A check restores the invariant of every controlled agent, or panics on its configuration. -/
theorem check_keeps {cfg : Config} {loc : AgentId → Nat} (hoff : cfg.agentinfoEncoding = false)
    (env : Surroundings AgentId Url) {node : Node AgentId Url} (h : node.Sound cfg loc) :
    (∃ node' sent, node.check cfg loc env = .ok (node', sent) ∧ node'.Sound cfg loc ∧
      LevelsMoveByOne node node') ∨ node.check cfg loc env = .error clampPanic := by
  unfold check
  split_ifs with hempty
  · refine .inl ⟨node, [], rfl, h, ?_⟩
    intro agent ctl ctl' hl hl'
    obtain rfl := Option.some.inj (hl.symm.trans hl')
    omega
  · dsimp only
    rcases lagEstimate_cases env cfg (env.gone node.localAgents) with ⟨lag, hlag⟩ | hpanic
    · left
      -- the storm brake comes before the ticks and keeps every agent consistent
      have hbrake := stormBrake_braked hoff (env.gone node.localAgents)
        (reading_consistent env lag h)
      obtain ⟨done, hrun, hticked, -, hlocal⟩ := ticks_keep hoff (node.viewOf env lag)
        (node.shrinkBase cfg env lag) (othersCoverage env.peers (env.gone node.localAgents))
        node.localAgents ((node.reading cfg env lag).stormBrake cfg (env.gone node.localAgents), [])
        node.nodup hbrake.consistent
      have hall : done.1.localAgents = node.localAgents := hlocal.trans hbrake.localAgents
      refine ⟨done.1.forgetLeft, done.2, ?_, ?_, ?_⟩
      · exact bind_eq_ok_iff.mpr ⟨lag, hlag, bind_eq_ok_iff.mpr ⟨done, hrun, rfl⟩⟩
      · intro agent ctl hctl
        obtain ⟨hmem, hl⟩ := forgetLeft_lookup hctl
        exact (hticked agent (hall ▸ hmem)).consistent ctl hl
      · intro agent ctl ctl' hctl hctl'
        obtain ⟨hmem, hl'⟩ := forgetLeft_lookup hctl'
        obtain ⟨ctl₁, hl₁, hsame⟩ := hbrake.sameLevel agent ctl hctl
        rw [← hsame]
        exact (hticked agent (hall ▸ hmem)).level ctl₁ ctl' hl₁ hl'
    · right
      rw [hpanic]
      rfl

/-! ## Every run -/

theorem initial_sound (cfg : Config) (loc : AgentId → Nat) (arcs : AgentId → Arcs)
    (localAgents : List AgentId) (nodup : localAgents.Nodup) :
    (initial arcs localAgents nodup : Node AgentId Url).Sound cfg loc := by
  intro agent ctl hctl
  rw [initial, AList.lookup_empty] at hctl
  cases hctl

/-- A peer's message never touches an own entry. -/
theorem received_same (now : Int) (peer : Url) (msg : IntentMessage AgentId)
    (node : Node AgentId Url) (agent : AgentId) :
    SameFor agent node { node with tables := node.tables.step (.received now peer msg) } := by
  refine ⟨rfl, rfl, ?_⟩
  have hlook := lookup_step node.tables false (agent, none) (.received now peer msg)
  rw [stepAt, if_neg (by simp)] at hlook
  exact hlook

theorem step_sound {cfg : Config} {loc : AgentId → Nat} (hoff : cfg.agentinfoEncoding = false)
    {node node' : Node AgentId Url} (h : node.Sound cfg loc) (hstep : Step cfg loc node node') :
    node'.Sound cfg loc := by
  cases hstep with
  | checked env hcheck =>
      rcases check_keeps hoff env h with ⟨node₁, sent₁, heq, hsound, -⟩ | hpanic
      · rw [heq] at hcheck
        obtain ⟨rfl, -⟩ := Prod.mk.inj (Except.ok.inj hcheck)
        exact hsound
      · rw [hpanic] at hcheck
        cases hcheck
  | received now peer msg =>
      intro agent ctl hctl
      exact (h agent ctl hctl).mono fun p _ hb =>
        (received_same now peer msg node agent).backed hb
  -- gossip widens the current arc towards the target
  | grown agent found =>
      intro other ctl hctl
      by_cases hne : other = agent
      · subst hne
        dsimp only
        rw [Function.update_self]
        exact (h other ctl hctl).grown found
      · dsimp only
        rw [Function.update_of_ne hne]
        exact h other ctl hctl
  -- a joined agent has no state yet, so nothing is said about its arcs
  | joined agent tgt _ hout hforgotten =>
      intro other ctl hctl
      have hne : other ≠ agent := by
        rintro rfl
        rw [hforgotten] at hctl
        cases hctl
      dsimp only
      rw [Function.update_of_ne hne]
      exact h other ctl hctl
  | left agent => exact h

theorem reachable_sound {cfg : Config} {loc : AgentId → Nat}
    (hoff : cfg.agentinfoEncoding = false) {node : Node AgentId Url}
    (h : Reachable cfg loc node) : node.Sound cfg loc := by
  induction h with
  | initial arcs localAgents nodup => exact initial_sound cfg loc arcs localAgents nodup
  | step _ hstep ih => exact step_sound hoff ih hstep

/-- Over every run, each controlled agent's levels, arcs, pending intents and own table entry fit
together, no check stops on level arithmetic, and a check moves a declared level by at most one. -/
theorem controller_invariant {cfg : Config} {loc : AgentId → Nat}
    (hoff : cfg.agentinfoEncoding = false) {node : Node AgentId Url}
    (h : Reachable cfg loc node) :
    (∀ agent ctl, node.states.lookup agent = some ctl →
      ctl.declaredLevel ≤ maxLevel ∧
        Consistent (homeSector (loc agent)) (Backed cfg node.tables agent) (node.arcs agent) ctl) ∧
    ∀ env : Surroundings AgentId Url,
      (∀ fault, node.check cfg loc env = .error fault → fault = clampPanic) ∧
      ∀ node' sent, node.check cfg loc env = .ok (node', sent) → LevelsMoveByOne node node' := by
  have hsound := reachable_sound hoff h
  refine ⟨fun agent ctl hctl => ⟨(hsound agent ctl hctl).declared_le, hsound agent ctl hctl⟩, ?_⟩
  intro env
  rcases check_keeps hoff env hsound with ⟨node₁, sent₁, heq, -, hmove⟩ | hpanic
  · refine ⟨?_, ?_⟩
    · intro fault hfault
      rw [heq] at hfault
      cases hfault
    · intro node' sent hok
      rw [heq] at hok
      obtain ⟨rfl, -⟩ := Prod.mk.inj (Except.ok.inj hok)
      exact hmove
  · refine ⟨?_, ?_⟩
    · intro fault hfault
      rw [hpanic] at hfault
      exact (Except.error.inj hfault).symm
    · intro node' sent hok
      rw [hpanic] at hok
      cases hok

/-! ## A node with one local agent -/

omit [DecidableEq Url] in
theorem lookup_forgetLeft (node : Node AgentId Url) {agent : AgentId}
    (h : agent ∈ node.localAgents) :
    node.forgetLeft.states.lookup agent = node.states.lookup agent := by
  have herase : ∀ (agents : List AgentId) (states : AList fun _ : AgentId => AgentControl),
      agent ∉ agents → (agents.foldl (fun states a => states.erase a) states).lookup agent =
        states.lookup agent := by
    intro agents
    induction agents with
    | nil => intro states _; rfl
    | cons a agents ih =>
        intro states hnot
        rw [List.foldl_cons, ih _ fun hm => hnot (by simp [hm])]
        exact AList.lookup_erase_ne fun heq => hnot (by simp [heq])
  exact herase _ _ (by simp [h])

/-- The view of the only local agent. -/
def soleView (cfg : Config) (env : Surroundings AgentId Url) (lag : Nat) (node : Node AgentId Url) :
    TickView AgentId Url :=
  { node.viewOf env lag with
    shrinkCov := node.shrinkBase cfg env lag
    growCov := othersCoverage env.peers (env.gone node.localAgents) }

/-- The check of a node with one local agent and no newly lost peer is that agent's tick. -/
theorem check_single {cfg : Config} {loc : AgentId → Nat} {env : Surroundings AgentId Url}
    {node : Node AgentId Url} {agent : AgentId} {lag : Nat} {st : TickState AgentId Url}
    {arcs : Arcs} {ctl : AgentControl} (hlocal : node.localAgents = [agent])
    (hstart : node.control loc agent = (arcs, ctl))
    (hlag : env.lagEstimate cfg (env.gone node.localAgents) = .ok lag)
    (hquiet : (node.reading cfg env lag).stormBrake cfg (env.gone node.localAgents) =
      { node.reading cfg env lag with lastGone := env.gone node.localAgents })
    (htick : tickAgent cfg agent (node.soleView cfg env lag)
      { arcs := arcs, ctl := ctl, tables := node.tables.step (.checked env.now), sent := [] } =
        .ok st) :
    ∃ node', node.check cfg loc env = .ok (node', st.sent) ∧ node'.localAgents = [agent] ∧
      node'.tables = st.tables ∧ node'.states.lookup agent = some st.ctl ∧
      node'.arcs agent = st.arcs := by
  -- there are no other local agents to be added
  have hcov : ∀ base : Cov, covAround { node.reading cfg env lag with
      lastGone := env.gone node.localAgents } base agent = base := by
    intro base
    simp [covAround, reading, hlocal]
  have hcontrol : control loc { node.reading cfg env lag with
      lastGone := env.gone node.localAgents } agent = (arcs, ctl) := hstart
  have hturn : tickOne cfg loc (node.viewOf env lag) (node.shrinkBase cfg env lag)
      (othersCoverage env.peers (env.gone node.localAgents))
      ({ node.reading cfg env lag with lastGone := env.gone node.localAgents }, []) agent =
      .ok ({ node.reading cfg env lag with
        lastGone := env.gone node.localAgents
        arcs := Function.update node.arcs agent st.arcs
        states := node.states.insert agent st.ctl
        tables := st.tables }, st.sent) := by
    unfold tickOne
    dsimp only
    rw [hcov, hcov, hcontrol]
    exact bind_eq_ok_iff.mpr ⟨st, htick, rfl⟩
  generalize hticked : ({ node.reading cfg env lag with
      lastGone := env.gone node.localAgents
      arcs := Function.update node.arcs agent st.arcs
      states := node.states.insert agent st.ctl
      tables := st.tables } : Node AgentId Url) = ticked at hturn
  have hagents : ticked.localAgents = [agent] := by
    rw [← hticked]
    exact hlocal
  refine ⟨ticked.forgetLeft, ?_, hagents, ?_, ?_, ?_⟩
  · have hsingle : ∀ f (s : Node AgentId Url × List (IntentMessage AgentId)),
        node.localAgents.foldlM f s = (f s agent : Except Fault _) := by
      intro f s
      rw [hlocal, List.foldlM_cons]
      exact bind_pure _
    unfold check
    rw [if_neg (by simp [hlocal])]
    refine bind_eq_ok_iff.mpr ⟨lag, hlag, bind_eq_ok_iff.mpr ⟨(ticked, st.sent), ?_, rfl⟩⟩
    rw [hquiet]
    exact (hsingle _ _).trans hturn
  · rw [← hticked]
    rfl
  · rw [lookup_forgetLeft ticked (by simp [hagents]), ← hticked]
    exact AList.lookup_insert _
  · rw [← hticked]
    exact Function.update_self ..

end Node

/-! ## Checks that take no time -/

/-- Neither the check interval nor the intent wait takes any time. -/
def instantConfig : Config where
  targetRedundancy := 1
  clampMinPeers := 0
  checkInterval := 0
  growPersistence := fun _ => 0
  shrinkPersistence := fun _ => 0
  intentWait := fun _ => 0
  intentMinWait := 0
  lagFloor := 0
  lagCeiling := 0
  agentinfoEncoding := false
  patientLowest := true
  withdrawOnStandDown := true
  requireRecentContact := false
  announceAlongside := true
  coordinatedGrowth := false
  criticalRepair := true
  pinned := false

/-- Two remote agents, each with a full arc. -/
def fullPeers : List (AgentInfo Nat Nat) :=
  [{ agent := 1, url := some 1, isTombstone := false, storageArc := DhtArc.full },
   { agent := 2, url := some 2, isTombstone := false, storageArc := DhtArc.full }]

/-- Every check happens at the same instant. -/
def instant : Surroundings Nat Nat where
  now := 0
  elapsed := 0
  peers := fullPeers
  unresponsive := fun _ => false
  completedRounds := fun _ => 0
  lastGossip := fun _ => none

def fullArcs : Arcs := { cur := DhtArc.full, tgt := DhtArc.full }

/-- Agent `0` alone on its node, with a full arc. -/
def aloneNode : Node Nat Nat :=
  Node.initial (fun _ => fullArcs) [0] (by simp)

def fullControl (pending : Option PendingShrink) : AgentControl :=
  { home := 0, declaredLevel := 9, targetLevel := 9, growAcc := 0, shrinkAcc := 0
    pending := pending, pendingGrow := none }

/-- A shrink that is due, and lapses, the moment it is announced. -/
def instantShrink : PendingShrink :=
  { executeAt := 0, vacate := (256, 512), expiresAt := 0, wait := 0 }

/-- `agent` announces that it vacates the upper half of the ring. -/
def upperHalf (agent : Nat) (expiresAt : Int) : IntentMessage Nat :=
  { agentId := agent, vacateStart := 256 * sectorSize
    vacateEnd := 511 * sectorSize + (sectorSize - 1), expiresAt := expiresAt
    withdrawn := false, grow := false }

/-- The intents of the two remote agents, as the node files them. -/
def racing : LiveIntents Nat Nat :=
  [(2, { vacate := (256, 512), expiresAt := 1000, sender := some 2 }),
   (1, { vacate := (256, 512), expiresAt := 1000, sender := some 1 })]

theorem coversSector_full {x : Nat} (hx : x < numSectors) :
    coversSector DhtArc.full x = true := by
  have hring : 0 < numSectors := by decide
  have h := (coversSector_sectorsToArc hring (le_refl numSectors)).mpr ⟨Nat.zero_le x, hx⟩
  simpa [sectorsToArc] using h

theorem covAt_fullPeers {x : Nat} (hx : x < numSectors) :
    covAt (othersCoverage fullPeers [0]) x = 2 := by
  rw [covAt_othersCoverage _ _ hx]
  simp [fullPeers, counted, coversSector_full hx]

theorem instant_gone : instant.gone [0] = [0] := by decide

theorem instant_lag : instant.lagEstimate instantConfig (instant.gone [0]) = .ok 0 := by decide

theorem instant_quiet (node : Node Nat Nat) (hlocal : node.localAgents = [0]) :
    (node.reading instantConfig instant 0).stormBrake instantConfig
        (instant.gone node.localAgents) =
      { node.reading instantConfig instant 0 with lastGone := instant.gone node.localAgents } := by
  unfold Node.stormBrake
  simp [Node.reading, hlocal, instant_gone]

theorem instant_shrinkCov (node : Node Nat Nat) (hlocal : node.localAgents = [0]) :
    (node.soleView instantConfig instant 0).shrinkCov = othersCoverage fullPeers [0] := by
  have hrecent : ¬ instantConfig.requireRecentContact = true := by decide
  have hpeers : instant.peers = fullPeers := rfl
  unfold Node.soleView Node.shrinkBase
  dsimp only
  rw [hlocal, instant_gone, if_neg hrecent, hpeers]

/-- The first tick announces. -/
theorem tick_announces {view : TickView Nat Nat} (tables : Tables Nat Nat)
    (hcov : view.shrinkCov = othersCoverage fullPeers [0]) (hlive : view.liveIntents = [])
    (hnow : view.now = 0) (helapsed : view.elapsed = 0) :
    tickAgent instantConfig 0 view
        { arcs := fullArcs, ctl := fullControl none, tables := tables, sent := [] } =
      .ok { arcs := fullArcs, ctl := fullControl (some instantShrink)
            tables := tables.step (.filed false 0 (256, 512) 0), sent := [upperHalf 0 0] } := by
  have hmin : minOver view.shrinkCov 256 512 > 1 := by
    rw [hcov]
    refine (le_minOver_iff (by decide) ?_).mpr ?_
    · rw [length_othersCoverage]
      decide
    · intro x hx
      have hx' : x < numSectors := hx.2
      rw [covAt_fullPeers hx']
  have hblock : blockArc 0 9 = DhtArc.full := by decide
  have hvacate : vacateRange 0 9 = .ok (256, 512) := by decide
  have harc : sectorsToArc 256 512 =
      .arc (256 * sectorSize) (511 * sectorSize + (sectorSize - 1)) := by decide
  simp [tickAgent, fullControl, fullArcs, hblock, heldFull, instantConfig, decideLevel,
    growCondition, shrinkCondition, hvacate, maxLevel, hmin, holdsOff, Config.patient, lowerRacer,
    hlive, announceShrink, harc, publishIntent, sendIntent, intentTimes, Config.waitFor, hnow,
    instantShrink, bind, Except.bind, upperHalf, helapsed]

/-- Racing two agents with higher ids, the re-check tells the lowest one to wait. -/
theorem recheck_waits {cov : Cov} (hcov : cov = othersCoverage fullPeers [0]) :
    recheckOutcome instantConfig cov racing 0 (256, 512) = .wait := by
  have hmin : ¬ 1 ≤ minOver (discount (racesUs 0 (256, 512)) cov racing) 256 512 := by
    obtain ⟨hlen, hcount⟩ := discount_spec (racesUs 0 (256, 512)) racing cov
    have hsize : cov.length = numSectors := by rw [hcov, length_othersCoverage]
    have hlt : 256 < numSectors := by decide
    rw [le_minOver_iff (by decide) (by rw [hlen, hsize]; decide)]
    intro h
    have hat := h 256 (by decide)
    rw [hcount 256 (by rw [hsize]; exact hlt), hcov, covAt_fullPeers hlt] at hat
    revert hat
    decide
  have hhigher : (racing.any fun e => racesUs 0 (256, 512) e && decide (e.1 > 0)) = true := by
    decide
  have hlower : lowerRacer racing 0 (256, 512) = false := by decide
  have hpatient : instantConfig.patient = true := rfl
  have hr : instantConfig.targetRedundancy = 1 := rfl
  simp only [recheckOutcome, hpatient, if_true, patientRecheck, hr, ge_iff_le, hmin, if_false,
    hhigher, hlower, Bool.not_false, Bool.and_self]

/-- The second tick waits, and no refresh is due. -/
theorem tick_waits {view : TickView Nat Nat} (tables : Tables Nat Nat)
    (hcov : view.shrinkCov = othersCoverage fullPeers [0]) (hlive : view.liveIntents = racing)
    (hnow : view.now = 0) :
    tickAgent instantConfig 0 view
        { arcs := fullArcs, ctl := fullControl (some instantShrink), tables := tables, sent := [] } =
      .ok { arcs := fullArcs, ctl := fullControl (some instantShrink)
            tables := tables, sent := [] } := by
  have hwait : recheckOutcome instantConfig view.shrinkCov view.liveIntents 0 (256, 512) =
      .wait := by
    rw [hlive]
    exact recheck_waits hcov
  have hinterval : instantConfig.checkInterval = 0 := rfl
  simp [tickAgent, fullControl, instantShrink, hnow, executeIntent, hwait, waitForTurn,
    refreshedExpiry, hinterval]

/-- After its first check the agent has announced its shrink. -/
theorem exists_announced :
    ∃ node, aloneNode.check instantConfig (fun _ => 0) instant = .ok (node, [upperHalf 0 0]) ∧
      node.localAgents = [0] ∧
      node.tables = (aloneNode.tables.step (.checked 0)).step (.filed false 0 (256, 512) 0) ∧
      node.states.lookup 0 = some (fullControl (some instantShrink)) ∧
      node.arcs 0 = fullArcs := by
  have hstart : aloneNode.control (fun _ => 0) 0 = (fullArcs, fullControl none) := by decide
  have hlive : (aloneNode.soleView instantConfig instant 0).liveIntents = [] := by decide
  exact Node.check_single rfl hstart instant_lag (instant_quiet aloneNode rfl)
    (tick_announces (aloneNode.tables.step (.checked 0)) (instant_shrinkCov aloneNode rfl) hlive
      rfl rfl)

/-- A message from one of the remote agents. -/
def hear (node : Node Nat Nat) (agent : Nat) : Node Nat Nat :=
  { node with tables := node.tables.step (.received 0 agent (upperHalf agent 1000)) }

/-- The tables once both remote agents have announced. -/
def raceTables : Tables Nat Nat :=
  ((((Tables.empty.step (.checked 0)).step (.filed false 0 (256, 512) 0)).step
    (.received 0 1 (upperHalf 1 1000))).step (.received 0 2 (upperHalf 2 1000)))

theorem raceTables_consumed :
    retainDeclared (raceTables.shrinks.live 0).1 instant.declaredArcs [0] = racing := by
  have hlive : (raceTables.shrinks.live 0).1 = racing := by decide
  have hfull : arcContainsSectors DhtArc.full (256, 512) = true := by
    rw [arcContainsSectors_iff (by decide) (by decide)]
    intro x hx
    exact coversSector_full hx.2
  rw [hlive]
  simp [retainDeclared, racing, intentDeclared, Surroundings.declaredArcs, instant, fullPeers,
    hfull]

/-- The own entry of a pending shrink can be lost for good when nothing takes any time: the second
check drops it as expired, and the refresh is not yet due. -/
theorem instant_entry_lost :
    ∃ node : Node Nat Nat, Node.Reachable instantConfig (fun _ => 0) node ∧
      node.states.lookup 0 = some (fullControl (some instantShrink)) ∧
      node.tables.shrinks.lookup (0, none) = none := by
  obtain ⟨node, hcheck, hlocal, htables, hctl, harcs⟩ := exists_announced
  have hreach : Node.Reachable instantConfig (fun _ => 0) (hear (hear node 1) 2) :=
    .step (.step (.step (.initial _ _ _) (.checked instant hcheck))
      (.received 0 1 (upperHalf 1 1000) node)) (.received 0 2 (upperHalf 2 1000) _)
  have hown : (hear (hear node 1) 2).localAgents = [0] := hlocal
  -- two rivals arrive at the very microsecond of the announcement
  have hrace : (hear (hear node 1) 2).tables = raceTables := by
    simp only [hear, htables]
    rfl
  have hstart : (hear (hear node 1) 2).control (fun _ => 0) 0 =
      (fullArcs, fullControl (some instantShrink)) := by
    have hl : (hear (hear node 1) 2).states.lookup 0 = some (fullControl (some instantShrink)) :=
      hctl
    have ha : (hear (hear node 1) 2).arcs 0 = fullArcs := harcs
    simp [Node.control, hl, ha]
  have hlive : ((hear (hear node 1) 2).soleView instantConfig instant 0).liveIntents = racing := by
    unfold Node.soleView Node.viewOf
    dsimp only
    rw [hrace, hown]
    exact raceTables_consumed
  have hlag : instant.lagEstimate instantConfig (instant.gone (hear (hear node 1) 2).localAgents) =
      .ok 0 := by
    rw [hown]
    exact instant_lag
  obtain ⟨node', hcheck', -, htables', hctl', -⟩ := Node.check_single hown hstart hlag
    (instant_quiet _ hown)
    -- the agent waits for its turn, and with an interval of zero asks for no refresh
    (tick_waits ((hear (hear node 1) 2).tables.step (.checked 0)) (instant_shrinkCov _ hown)
      hlive rfl)
  refine ⟨node', .step hreach (.checked instant hcheck'), hctl', ?_⟩
  rw [htables', hrace]
  decide

/-- The invariant holds of a node with an announced shrink. -/
theorem controller_invariant_announced :
    ∃ node : Node Nat Nat,
      node.states.lookup 0 = some (fullControl (some instantShrink)) ∧
      Consistent 0 (Backed instantConfig node.tables 0) (node.arcs 0)
        (fullControl (some instantShrink)) := by
  obtain ⟨node, hcheck, -, -, hctl, -⟩ := exists_announced
  have hoff : instantConfig.agentinfoEncoding = false := rfl
  have h := Node.controller_invariant hoff
    (.step (.initial _ _ _) (.checked instant hcheck))
  exact ⟨node, hctl, (h.1 0 _ hctl).2⟩

end Sharding
end Kitsune2
