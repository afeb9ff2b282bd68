import Kitsune2.Sharding.Turns

/-!
# Checks — a check as one turn for each local agent

The turns of a check do not get in each other's way: every local agent has one turn from where the storm
brake has left it, and what the check sends in its name is what that turn sends.  Of the tables a check
changes its own agents' entries and drops what has expired.
-/

namespace Kitsune2
namespace Sharding
namespace Node

open Api Lib

variable {AgentId Url : Type} [LinearOrder AgentId] [DecidableEq Url]

variable {cfg : Config} {loc : AgentId → Nat} {node node' : Node AgentId Url}

/-! ## The storm brake -/

/-- The pending shrinks of some agents may be cancelled, and nothing else changes but own entries. -/
structure Calmed (node node' : Node AgentId Url) : Prop where
  state : ∀ agent, node'.states.lookup agent = node.states.lookup agent ∨
    ∃ ctl, node.states.lookup agent = some ctl ∧
      node'.states.lookup agent = some { ctl with pending := none, shrinkAcc := 0 }
  arcs : node'.arcs = node.arcs
  heard : ∀ agent url, node'.tables.shrinks.lookup (agent, some url) =
    node.tables.shrinks.lookup (agent, some url)

theorem Calmed.trans {node'' : Node AgentId Url} (h : Calmed node node') (h' : Calmed node' node'') :
    Calmed node node'' where
  state := by
    intro agent
    rcases h'.state agent with hsame | ⟨ctl, hctl, hctl'⟩
    · rw [hsame]
      exact h.state agent
    · rcases h.state agent with hsame | ⟨ctl₀, hctl₀, hctl₀'⟩
      · exact Or.inr ⟨ctl, hsame.symm.trans hctl, hctl'⟩
      · cases hctl.symm.trans hctl₀'
        exact Or.inr ⟨ctl₀, hctl₀, hctl'⟩
  arcs := h'.arcs.trans h.arcs
  heard := fun agent url => (h'.heard agent url).trans (h.heard agent url)

/-- The control of an agent whose pending shrink may have been cancelled. -/
def Calm (ctl ctl' : AgentControl) : Prop :=
  ctl' = ctl ∨ ctl' = { ctl with pending := none, shrinkAcc := 0 }

theorem Calmed.control (h : Calmed node node') (loc : AgentId → Nat) (agent : AgentId) :
    (node'.control loc agent).1 = (node.control loc agent).1 ∧
      Calm (node.control loc agent).2 (node'.control loc agent).2 := by
  unfold Node.control
  rw [h.arcs]
  rcases h.state agent with hsame | ⟨ctl, hctl, hctl'⟩
  · rw [hsame]
    exact ⟨rfl, Or.inl rfl⟩
  · rw [hctl, hctl']
    exact ⟨rfl, Or.inr rfl⟩

theorem cancelPending_calmed (hoff : cfg.agentinfoEncoding = false) (node : Node AgentId Url)
    (agent : AgentId) : Calmed node (node.cancelPending cfg agent) := by
  refine ⟨?_, ?_, ?_⟩
  · intro other
    by_cases hne : other = agent
    · subst hne
      rcases cancelPending_self hoff node other with hs | ⟨ctl, hctl, hctl', _⟩
      · exact Or.inl hs.state
      · exact Or.inr ⟨ctl, hctl, hctl'⟩
    · exact Or.inl (cancelPending_same hoff node hne).state
  · unfold cancelPending
    cases node.states.lookup agent with
    | none => rfl
    | some ctl =>
        dsimp only
        split_ifs with hnone hboth
        · rfl
        · simp [hoff] at hboth
        · rfl
  · intro other url
    unfold cancelPending
    cases node.states.lookup agent with
    | none => rfl
    | some ctl =>
        dsimp only
        split_ifs with hnone
        · rfl
        · exact othersKept_removed agent false node.tables false _ fun heq => by cases heq
        · exact othersKept_removed agent false node.tables false _ fun heq => by cases heq

theorem stormBrake_calmed (hoff : cfg.agentinfoEncoding = false) (gone : List AgentId)
    (node : Node AgentId Url) : Calmed node (node.stormBrake cfg gone) := by
  have hstart : Calmed node { node with lastGone := gone } :=
    ⟨fun _ => Or.inl rfl, rfl, fun _ _ => rfl⟩
  unfold stormBrake
  dsimp only
  split_ifs with hgone
  · have hfold : ∀ (keys : List AgentId) (n : Node AgentId Url), Calmed node n →
        Calmed node (keys.foldl (cancelPending cfg) n) := by
      intro keys
      induction keys with
      | nil =>
          intro n hn
          exact hn
      | cons agent keys ih =>
          intro n hn
          exact ih _ (hn.trans (cancelPending_calmed hoff n agent))
    exact hfold _ _ hstart
  · exact hstart

/-! ## The loop over the local agents -/

/-- What the turns of some agents do, one after the other. -/
structure Ticks (cfg : Config) (loc : AgentId → Nat) (view : TickView AgentId Url)
    (agents : List AgentId) (acc done : Node AgentId Url × List (IntentMessage AgentId))
    (new : List (IntentMessage AgentId)) : Prop where
  sent : done.2 = acc.2 ++ new
  own : ∀ msg ∈ new, msg.agentId ∈ agents
  turn : ∀ agent ∈ agents, ∃ ctl', done.1.states.lookup agent = some ctl' ∧
    Turn cfg agent view.now view.lag view.elapsed (acc.1.control loc agent).1
      (acc.1.control loc agent).2 (done.1.arcs agent) ctl'
      (new.filter fun msg => decide (msg.agentId = agent))
  others : ∀ agent, agent ∉ agents → SameFor agent acc.1 done.1
  heard : ∀ agent url, done.1.tables.shrinks.lookup (agent, some url) =
    acc.1.tables.shrinks.lookup (agent, some url)
  localAgents : done.1.localAgents = acc.1.localAgents
  consistent : done.1.AllConsistent loc fun a => BackedAt cfg view.now done.1.tables a

theorem control_eq {agent : AgentId} (h : SameFor agent node node') :
    node'.control loc agent = node.control loc agent := by
  unfold control
  rw [h.state, h.arcs]

variable {view : TickView AgentId Url} {shrinkBase growBase : Cov}
  {acc done : Node AgentId Url × List (IntentMessage AgentId)} {agent : AgentId}

theorem tickOne_turn (hoff : cfg.agentinfoEncoding = false)
    (h : acc.1.AllConsistent loc fun a => BackedAt cfg view.now acc.1.tables a)
    (hrun : tickOne cfg loc view shrinkBase growBase acc agent = .ok done) :
    ∃ new, Ticks cfg loc view [agent] acc done new := by
  have hcontrol := control_consistent h agent
  have hlevels : (acc.1.control loc agent).2.targetLevel ≤
      (acc.1.control loc agent).2.declaredLevel + 1 := by
    rcases hcontrol.levels with heq | heq
    · rw [heq]
      exact Nat.le_succ _
    · exact le_of_eq heq
  rcases tickAgent_keeps cfg agent
    { view with
      shrinkCov := acc.1.covAround shrinkBase agent, growCov := acc.1.covAround growBase agent }
    { arcs := (acc.1.control loc agent).1, ctl := (acc.1.control loc agent).2
      tables := acc.1.tables, sent := acc.2 } hoff hcontrol with ⟨st, htick, hrest⟩
  rcases tickAgent_turn hoff (by exact hlevels) htick with ⟨new, hsent, hown, hturn⟩
  rcases tickOne_keeps hoff view shrinkBase growBase acc agent h with
    ⟨acc', hrun', hticked, hothers, hlocal⟩
  cases hrun.symm.trans hrun'
  -- what the tick did to this agent is written back, and nothing else
  have hdone : done = ({ acc.1 with
      arcs := Function.update acc.1.arcs agent st.arcs
      states := acc.1.states.insert agent st.ctl
      tables := st.tables }, st.sent) := by
    unfold tickOne at hrun
    dsimp only at hrun
    rw [htick] at hrun
    cases hrun
    rfl
  refine ⟨new, ?_, ?_, ?_, ?_, ?_, hlocal, ?_⟩
  · rw [hdone]
    exact hsent
  · intro msg hmsg
    exact List.mem_singleton.mpr (hown msg hmsg)
  · intro a ha
    cases List.mem_singleton.mp ha
    have hall : new.filter (fun msg => decide (msg.agentId = agent)) = new :=
      List.filter_eq_self.mpr fun msg hmsg => decide_eq_true (hown msg hmsg)
    rw [hall, hdone]
    refine ⟨st.ctl, AList.lookup_insert _, ?_⟩
    dsimp only
    rw [Function.update_self]
    exact hturn
  · intro other hother
    exact hothers other fun heq => hother (List.mem_singleton.mpr heq)
  · intro other url
    rw [hdone]
    exact hrest.others false _ fun heq => by cases heq
  · intro other ctl hctl
    by_cases hne : other = agent
    · subst hne
      exact (hticked.consistent ctl hctl).mono fun p _ hb htime => Or.inl (hb htime)
    · have hs := hothers other hne
      rw [hs.state] at hctl
      rw [hs.arcs]
      exact (h other ctl hctl).mono fun p _ hb => hs.backedAt hb

/-- By induction on the agents: the turn of each is from where the loop has found it. -/
theorem ticks_turn (hoff : cfg.agentinfoEncoding = false) (agents : List AgentId) :
    ∀ acc : Node AgentId Url × List (IntentMessage AgentId), agents.Nodup →
      acc.1.AllConsistent loc (fun a => BackedAt cfg view.now acc.1.tables a) →
      agents.foldlM (tickOne cfg loc view shrinkBase growBase) acc = .ok done →
      ∃ new, Ticks cfg loc view agents acc done new := by
  induction agents with
  | nil =>
      intro acc _ h hrun
      cases hrun
      exact ⟨[], (List.append_nil _).symm, List.forall_mem_nil _, List.forall_mem_nil _,
        fun agent _ => SameFor.refl agent _, fun _ _ => rfl, rfl, h⟩
  | cons agent agents ih =>
      intro acc hnodup h hrun
      rcases List.nodup_cons.mp hnodup with ⟨hnot, hnodup'⟩
      rw [List.foldlM_cons] at hrun
      rcases bind_eq_ok_iff.mp hrun with ⟨mid, hfirst, hrest⟩
      rcases tickOne_turn hoff h hfirst with ⟨new₁, hone⟩
      rcases ih mid hnodup' hone.consistent hrest with ⟨new₂, hmore⟩
      have hnone₁ : ∀ a ∈ agents, new₁.filter (fun msg => decide (msg.agentId = a)) = [] := by
        intro a ha
        refine List.filter_eq_nil_iff.mpr fun msg hmsg => ?_
        rw [decide_eq_true_eq, List.mem_singleton.mp (hone.own msg hmsg)]
        exact fun heq => hnot (heq ▸ ha)
      have hnone₂ : new₂.filter (fun msg => decide (msg.agentId = agent)) = [] := by
        refine List.filter_eq_nil_iff.mpr fun msg hmsg => ?_
        rw [decide_eq_true_eq]
        exact fun heq => hnot (heq ▸ hmore.own msg hmsg)
      refine ⟨new₁ ++ new₂, ?_, ?_, ?_, ?_, ?_, ?_, hmore.consistent⟩
      · rw [hmore.sent, hone.sent, List.append_assoc]
      · intro msg hmsg
        rcases List.mem_append.mp hmsg with hmsg | hmsg
        · exact List.mem_cons.mpr (Or.inl (List.mem_singleton.mp (hone.own msg hmsg)))
        · exact List.mem_cons_of_mem _ (hmore.own msg hmsg)
      · intro a ha
        rcases List.mem_cons.mp ha with rfl | ha
        · -- the first agent is left alone by the later turns
          rcases hone.turn a (List.mem_singleton_self a) with ⟨ctl', hctl', hturn⟩
          have hs := hmore.others a hnot
          refine ⟨ctl', hs.state.trans hctl', ?_⟩
          rw [List.filter_append, hnone₂, List.append_nil, hs.arcs]
          exact hturn
        · have hs := hone.others a fun heq => hnot (List.mem_singleton.mp heq ▸ ha)
          rcases hmore.turn a ha with ⟨ctl', hctl', hturn⟩
          rw [control_eq hs] at hturn
          refine ⟨ctl', hctl', ?_⟩
          rw [List.filter_append, hnone₁ a ha, List.nil_append]
          exact hturn
      · intro a ha
        rw [List.mem_cons, not_or] at ha
        exact (hone.others a fun heq => ha.1 (List.mem_singleton.mp heq)).trans (hmore.others a ha.2)
      · exact fun a url => (hmore.heard a url).trans (hone.heard a url)
      · exact hmore.localAgents.trans hone.localAgents

/-! ## The check -/

/-- What one check does to a node, as its peers and its agents see it. -/
structure Checked (cfg : Config) (loc : AgentId → Nat) (env : Surroundings AgentId Url)
    (node node' : Node AgentId Url) (sent : List (IntentMessage AgentId)) : Prop where
  localAgents : node'.localAgents = node.localAgents
  own : ∀ msg ∈ sent, msg.agentId ∈ node.localAgents
  turn : ∀ agent ∈ node.localAgents, ∃ lag ctl ctl',
    env.lagEstimate cfg (env.gone node.localAgents) = .ok lag ∧
    Calm (node.control loc agent).2 ctl ∧ node'.states.lookup agent = some ctl' ∧
    Turn cfg agent env.now lag env.elapsed (node.control loc agent).1 ctl (node'.arcs agent) ctl'
      (sent.filter fun msg => decide (msg.agentId = agent))
  arcs : ∀ agent, agent ∉ node.localAgents → node'.arcs agent = node.arcs agent
  states : ∀ agent ctl, node'.states.lookup agent = some ctl → agent ∈ node.localAgents ∨
    node.states.lookup agent = some ctl
  heard : ∀ agent url intent, node.tables.shrinks.lookup (agent, some url) = some intent →
    env.now < intent.expiresAt → node'.tables.shrinks.lookup (agent, some url) = some intent

/-- Before its turns a check reads the tables and may cancel shrinks. -/
theorem ready_calmed (hoff : cfg.agentinfoEncoding = false) (env : Surroundings AgentId Url)
    (lag : Nat) (gone : List AgentId) (node : Node AgentId Url) :
    Calmed { node with tables := node.tables.step (.checked env.now) }
      ((node.reading cfg env lag).stormBrake cfg gone) := by
  have hreading : Calmed { node with tables := node.tables.step (.checked env.now) }
      (node.reading cfg env lag) := ⟨fun _ => Or.inl rfl, rfl, fun _ _ => rfl⟩
  exact hreading.trans (stormBrake_calmed hoff gone _)

theorem check_checked (hoff : cfg.agentinfoEncoding = false) {env : Surroundings AgentId Url}
    {sent : List (IntentMessage AgentId)} (hsound : node.Sound cfg loc)
    (h : node.check cfg loc env = .ok (node', sent)) : Checked cfg loc env node node' sent := by
  unfold check at h
  split_ifs at h with hempty
  · cases h
    have hnil : node.localAgents = [] := List.isEmpty_iff.mp hempty
    refine ⟨rfl, List.forall_mem_nil _, ?_, fun _ _ => rfl, fun _ _ hctl => Or.inr hctl,
      fun _ _ _ hheld _ => hheld⟩
    rw [hnil]
    exact List.forall_mem_nil _
  · dsimp only at h
    rcases bind_eq_ok_iff.mp h with ⟨lag, hlag, h⟩
    rcases bind_eq_ok_iff.mp h with ⟨done, hrun, h⟩
    cases h
    -- first the table is read, then the storm brake may cancel, then each agent has its tick
    have hbrake := stormBrake_braked hoff (env.gone node.localAgents)
      (reading_consistent env lag hsound)
    have hcalm := ready_calmed hoff env lag (env.gone node.localAgents) node
    rcases ticks_turn hoff node.localAgents _ node.nodup hbrake.consistent hrun
      with ⟨new, hticks⟩
    have hsent : done.2 = new := hticks.sent
    have hlocal : done.1.localAgents = node.localAgents :=
      hticks.localAgents.trans hbrake.localAgents
    refine ⟨hlocal, ?_, ?_, ?_, ?_, ?_⟩
    · rw [hsent]
      exact hticks.own
    · intro agent hagent
      rcases hticks.turn agent hagent with ⟨ctl', hctl', hturn⟩
      rcases hcalm.control loc agent with ⟨harcs, hcontrol⟩
      rw [harcs] at hturn
      refine ⟨lag, _, ctl', hlag, hcontrol, ?_, ?_⟩
      · rw [lookup_forgetLeft _ (hlocal.symm ▸ hagent)]
        exact hctl'
      · rw [hsent]
        exact hturn
    · intro agent hagent
      exact (hticks.others agent hagent).arcs.trans (congrFun hcalm.arcs agent)
    · intro agent ctl hctl
      exact Or.inl (hlocal ▸ (forgetLeft_lookup hctl).1)
    · intro agent url intent hheld hlive
      have hlook := lookup_step node.tables false (agent, some url) (.checked env.now)
      have hentry : (node.tables.of false).lookup (agent, some url) = some intent := hheld
      rw [hentry] at hlook
      -- a live entry survives the reading
      have hkept : stepAt false (agent, some url) (some intent) (.checked env.now) = some intent := by
        simp [stepAt, Option.filter, hlive]
      exact (hticks.heard agent url).trans ((hcalm.heard agent url).trans (hlook.trans hkept))

end Node
end Sharding
end Kitsune2
