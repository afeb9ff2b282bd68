import Kitsune2.Sharding.WaitingRacer

/-!
# Turns — what the turn of one agent does to its arc and its shrink

A turn of a check leaves the arc of the agent alone, or drops the vacated half.  Seen from outside, it
announces a shrink, keeps a pending one up, drops the half, stands down, or does none of these; and it
sends about shrinks only what belongs to the case.
-/

namespace Kitsune2
namespace Sharding

open Api Lib

variable {AgentId Url : Type}

variable {cfg : Config} {agent : AgentId}

/-! ## Turns -/

/-- A turn that leaves the shrink side of the agent alone, up to the time it accumulates. -/
structure Quiet (elapsed : Nat) (arcs : Arcs) (ctl : AgentControl) (arcs' : Arcs)
    (ctl' : AgentControl) (new : List (IntentMessage AgentId)) : Prop where
  cur : arcs'.cur = arcs.cur
  pending : ctl'.pending = ctl.pending
  acc : ctl'.shrinkAcc ≤ ctl.shrinkAcc + elapsed
  target : ctl.targetLevel ≤ ctl'.targetLevel
  grows : ∀ msg ∈ new, msg.grow = true

/-- What the turn of an agent can do at `now`, to its arcs and its control, and what it sends. -/
inductive Turn (cfg : Config) (agent : AgentId) (now : Int) (lag elapsed : Nat) (arcs : Arcs)
    (ctl : AgentControl) : Arcs → AgentControl → List (IntentMessage AgentId) → Prop
  | quiet {arcs' : Arcs} {ctl' : AgentControl} {new : List (IntentMessage AgentId)} :
      Quiet elapsed arcs ctl arcs' ctl' new →
      Turn cfg agent now lag elapsed arcs ctl arcs' ctl' new
  | announced {ctl' : AgentControl} {p : PendingShrink} {msg : IntentMessage AgentId} :
      ctl.pending = none → ctl'.pending = some p → ctl'.targetLevel = ctl.targetLevel →
      p.wait = cfg.waitFor lag → p.executeAt = now + p.wait → p.expiresAt = p.executeAt + p.wait →
      cfg.shrinkPersistence lag ≤ ctl'.shrinkAcc → ctl'.shrinkAcc ≤ ctl.shrinkAcc + elapsed →
      AnnouncesShrink agent p msg → Turn cfg agent now lag elapsed arcs ctl arcs ctl' [msg]
  | kept {p p' : PendingShrink} :
      ctl.pending = some p → p.executeAt ≤ now →
      p' = { p with executeAt := now + cfg.checkInterval } → p'.executeAt + p.wait ≤ p.expiresAt →
      Turn cfg agent now lag elapsed arcs ctl arcs { ctl with pending := some p' } []
  | refreshed {p p' : PendingShrink} {msg : IntentMessage AgentId} :
      ctl.pending = some p → p.executeAt ≤ now →
      p' = { p with
        executeAt := now + cfg.checkInterval
        expiresAt := now + cfg.checkInterval + p.wait + p.wait } →
      AnnouncesShrink agent p' msg →
      Turn cfg agent now lag elapsed arcs ctl arcs { ctl with pending := some p' } [msg]
  | proceeded {ctl' : AgentControl} {p : PendingShrink} {level : Nat} :
      ctl.pending = some p → p.executeAt ≤ now → subLevel ctl.declaredLevel = .ok level →
      ctl'.pending = none → ctl'.shrinkAcc = 0 →
      Turn cfg agent now lag elapsed arcs ctl
        { cur := blockArc ctl.home level, tgt := blockArc ctl.home level } ctl' []
  | stoodDown {ctl' : AgentControl} {p : PendingShrink} {new : List (IntentMessage AgentId)} :
      ctl.pending = some p → p.executeAt ≤ now → ctl'.targetLevel = ctl.targetLevel →
      ctl'.pending = none → ctl'.shrinkAcc = 0 →
      Turn cfg agent now lag elapsed arcs ctl arcs ctl' new

/-- Without a pending shrink the declared level does not matter. -/
theorem Turn.of_declared {now : Int} {lag elapsed level : Nat} {arcs arcs' : Arcs}
    {ctl ctl' : AgentControl} {new : List (IntentMessage AgentId)}
    (h : Turn cfg agent now lag elapsed arcs { ctl with declaredLevel := level } arcs' ctl' new)
    (hidle : ctl.pending = none) : Turn cfg agent now lag elapsed arcs ctl arcs' ctl' new := by
  cases h with
  | quiet hq => exact .quiet ⟨hq.cur, hq.pending, hq.acc, hq.target, hq.grows⟩
  | announced hp hp' htarget hwait hexecute hexpires hdue hacc hmsg =>
      exact .announced hp hp' htarget hwait hexecute hexpires hdue hacc hmsg
  | kept hp _ _ _ => cases hidle.symm.trans hp
  | refreshed hp _ _ _ => cases hidle.symm.trans hp
  | proceeded hp _ _ _ _ => cases hidle.symm.trans hp
  | stoodDown hp _ _ _ _ => cases hidle.symm.trans hp

/-- The turn from one state of a tick to another, with what it sends in its own name. -/
def Turns (cfg : Config) (agent : AgentId) (now : Int) (lag elapsed : Nat)
    (st st' : TickState AgentId Url) : Prop :=
  ∃ new, st'.sent = st.sent ++ new ∧ (∀ msg ∈ new, msg.agentId = agent) ∧
    Turn cfg agent now lag elapsed st.arcs st.ctl st'.arcs st'.ctl new

section Ticks

variable {view : TickView AgentId Url} {now : Int} {lag elapsed : Nat}
  {st st' : TickState AgentId Url}

/-! ## Growing -/

/-- A turn that is about growing, or about nothing. -/
def GrowTurn (agent : AgentId) (elapsed : Nat) (st st' : TickState AgentId Url) : Prop :=
  ∃ new, st'.sent = st.sent ++ new ∧ (∀ msg ∈ new, msg.agentId = agent) ∧
    Quiet elapsed st.arcs st.ctl st'.arcs st'.ctl new

theorem GrowTurn.turns (h : GrowTurn agent elapsed st st') :
    Turns cfg agent now lag elapsed st st' := by
  rcases h with ⟨new, hsent, hown, hquiet⟩
  exact ⟨new, hsent, hown, .quiet hquiet⟩

/-- A turn that sends nothing. -/
theorem growTurn_silent (hsent : st'.sent = st.sent) (hcur : st'.arcs.cur = st.arcs.cur)
    (hpending : st'.ctl.pending = st.ctl.pending)
    (hacc : st'.ctl.shrinkAcc ≤ st.ctl.shrinkAcc + elapsed)
    (htarget : st.ctl.targetLevel ≤ st'.ctl.targetLevel) : GrowTurn agent elapsed st st' :=
  ⟨[], hsent.trans (List.append_nil _).symm, List.forall_mem_nil _,
    hcur, hpending, hacc, htarget, List.forall_mem_nil _⟩

variable [LinearOrder AgentId] [DecidableEq Url]

omit [LinearOrder AgentId] [DecidableEq Url] in
theorem growTurn_refl (agent : AgentId) (elapsed : Nat) (st : TickState AgentId Url) :
    GrowTurn agent elapsed st st :=
  growTurn_silent rfl rfl rfl (Nat.le_add_right _ _) (le_refl _)

theorem startGrow_turn (h : startGrow agent st = .ok st') (hidle : st.ctl.pending = none)
    (hlevels : st.ctl.targetLevel ≤ st.ctl.declaredLevel + 1) :
    GrowTurn agent elapsed st st' := by
  rcases bind_eq_ok_iff.mp h with ⟨target, htarget, h⟩
  unfold addLevel at htarget
  split_ifs at htarget
  cases htarget
  cases h
  exact growTurn_silent rfl rfl hidle.symm (Nat.zero_le _) hlevels

omit [LinearOrder AgentId] [DecidableEq Url] in
/-- An announced or withdrawn grow. -/
theorem growTurn_message {msg : IntentMessage AgentId} (hagent : msg.agentId = agent)
    (hgrow : msg.grow = true) (hsent : st'.sent = st.sent ++ [msg]) (hcur : st'.arcs.cur = st.arcs.cur)
    (hpending : st'.ctl.pending = st.ctl.pending) (hacc : st'.ctl.shrinkAcc = st.ctl.shrinkAcc)
    (htarget : st'.ctl.targetLevel = st.ctl.targetLevel) : GrowTurn agent elapsed st st' := by
  refine ⟨[msg], hsent, ?_, hcur, hpending, ?_, le_of_eq htarget.symm, ?_⟩
  · exact List.forall_mem_singleton.mpr hagent
  · rw [hacc]
    exact Nat.le_add_right _ _
  · exact List.forall_mem_singleton.mpr hgrow

theorem grow_turn {cov : Cov} {liveIntents : LiveIntents AgentId Url}
    (h : grow cfg agent cov liveIntents lag now st = .ok st') (hidle : st.ctl.pending = none)
    (hlevels : st.ctl.targetLevel ≤ st.ctl.declaredLevel + 1) : GrowTurn agent elapsed st st' := by
  unfold grow at h
  by_cases hcoord : cfg.coordinatedGrowth = false
  · rw [if_pos hcoord] at h
    exact startGrow_turn h hidle hlevels
  · rw [if_neg hcoord] at h
    rcases bind_eq_ok_iff.mp h with ⟨range, _, h⟩
    split_ifs at h with hcritical
    · exact startGrow_turn h hidle hlevels
    · rcases sectorsToArc_arc range.1 range.2 with ⟨start, stop, harc⟩
      simp only [harc] at h
      cases h
      exact growTurn_message rfl rfl rfl rfl rfl rfl rfl

theorem executeGrow_turn {cov : Cov} {liveIntents liveGrows : LiveIntents AgentId Url}
    (h : executeGrow cfg agent cov liveIntents liveGrows st = .ok st')
    (hidle : st.ctl.pending = none) (hlevels : st.ctl.targetLevel ≤ st.ctl.declaredLevel + 1) :
    GrowTurn agent elapsed st st' := by
  unfold executeGrow at h
  cases hp : st.ctl.pendingGrow with
  | none =>
      rw [hp] at h
      cases h
      exact growTurn_refl agent elapsed st
  | some p =>
      rw [hp] at h
      dsimp only at h
      split_ifs at h with hgrows
      · have hstart : GrowTurn agent elapsed _ st' := startGrow_turn h hidle hlevels
        rcases hstart with ⟨new, hsent, hown, hquiet⟩
        exact ⟨new, hsent, hown, hquiet.cur, hquiet.pending, hquiet.acc, hquiet.target, hquiet.grows⟩
      · rcases sectorsToArc_arc p.vacate.1 p.vacate.2 with ⟨start, stop, harc⟩
        simp only [harc] at h
        cases h
        exact growTurn_message rfl rfl rfl rfl rfl rfl rfl

/-! ## Shrinking -/

/-- An announcement sends the pending shrink that it sets. -/
theorem announceShrink_turn (hoff : cfg.agentinfoEncoding = false)
    (h : announceShrink cfg agent lag now st = .ok st') :
    ∃ p msg, st'.arcs = st.arcs ∧ st'.ctl = { st.ctl with pending := some p } ∧
      p.wait = cfg.waitFor lag ∧ p.executeAt = now + p.wait ∧ p.expiresAt = p.executeAt + p.wait ∧
      AnnouncesShrink agent p msg ∧ st'.sent = st.sent ++ [msg] := by
  unfold announceShrink at h
  rcases bind_eq_ok_iff.mp h with ⟨vacate, _, h⟩
  rcases sectorsToArc_arc vacate.1 vacate.2 with ⟨start, stop, harc⟩
  rw [harc] at h
  dsimp only at h
  rw [if_neg (by simp [hoff])] at h
  have hpublish := publishIntent_sent agent
    { executeAt := now + cfg.waitFor lag, vacate := vacate
      expiresAt := now + cfg.waitFor lag + cfg.waitFor lag, wait := cfg.waitFor lag }
    { st with
      ctl := { st.ctl with
        pending := some
          { executeAt := now + cfg.waitFor lag, vacate := vacate
            expiresAt := now + cfg.waitFor lag + cfg.waitFor lag, wait := cfg.waitFor lag } } }
  rcases hpublish with ⟨msg, hmsg, hpublish⟩
  simp only [intentTimes] at h
  rw [hpublish] at h
  cases h
  exact ⟨_, msg, rfl, rfl, rfl, rfl, rfl, hmsg, rfl⟩

theorem decideLevel_turn (hoff : cfg.agentinfoEncoding = false)
    (h : decideLevel cfg agent view st = .ok st') (hidle : st.ctl.pending = none)
    (hlevels : st.ctl.targetLevel ≤ st.ctl.declaredLevel + 1) :
    Turns cfg agent view.now view.lag view.elapsed st st' := by
  unfold decideLevel at h
  rcases bind_eq_ok_iff.mp h with ⟨growCond, _, h⟩
  rcases bind_eq_ok_iff.mp h with ⟨shrinkCond, _, h⟩
  dsimp only at h
  -- the evidence for a shrink grows by the time elapsed or starts anew
  have hacc : (if shrinkCond = true then st.ctl.shrinkAcc + view.elapsed else 0) ≤
      st.ctl.shrinkAcc + view.elapsed := by
    split
    · exact le_refl _
    · exact Nat.zero_le _
  generalize (if growCond = true then st.ctl.growAcc + view.elapsed else 0) = growAcc at h
  generalize (if shrinkCond = true then st.ctl.shrinkAcc + view.elapsed else 0) = shrinkAcc at h hacc
  have hkept : GrowTurn agent view.elapsed st
      { st with ctl := { st.ctl with growAcc := growAcc, shrinkAcc := shrinkAcc } } :=
    growTurn_silent rfl rfl rfl hacc (le_refl _)
  split_ifs at h with hgrows hshrinks
  · have hgrow : GrowTurn agent 0 _ st' := grow_turn h hidle hlevels
    rcases hgrow with ⟨new, hsent, hown, hquiet⟩
    exact ⟨new, hsent, hown, .quiet ⟨hquiet.cur, hquiet.pending, le_trans hquiet.acc hacc,
      hquiet.target, hquiet.grows⟩⟩
  · rcases bind_eq_ok_iff.mp h with ⟨vacate, _, h⟩
    split_ifs at h with hholds
    · cases h
      exact hkept.turns
    · rcases announceShrink_turn hoff h with
        ⟨p, msg, harcs, hctl, hwait, hexecute, hexpires, hmsg, hsent⟩
      simp only [Bool.and_eq_true, decide_eq_true_eq] at hshrinks
      refine ⟨[msg], hsent, ?_, ?_⟩
      · exact List.forall_mem_singleton.mpr hmsg.agentId
      · rw [harcs]
        refine .announced hidle ?_ ?_ hwait hexecute hexpires ?_ ?_ hmsg
        · rw [hctl]
        · rw [hctl]
        · rw [hctl]
          exact hshrinks.2
        · rw [hctl]
          exact hacc
  · cases h
    exact hkept.turns

theorem executeIntent_turn {p : PendingShrink} (hoff : cfg.agentinfoEncoding = false)
    (hp : st.ctl.pending = some p) (hdue : p.executeAt ≤ view.now)
    (h : executeIntent cfg agent view.shrinkCov view.liveIntents view.now st = .ok st') :
    Turns cfg agent view.now view.lag view.elapsed st st' := by
  unfold executeIntent at h
  rw [hp] at h
  dsimp only at h
  cases hout : recheckOutcome cfg view.shrinkCov view.liveIntents agent p.vacate with
  -- kept under its expiry, or sent again under a later one
  | wait =>
      rw [hout] at h
      cases h
      rcases waitForTurn_renewed cfg agent view.now p st with ⟨p', hrenewed⟩
      cases hrenewed with
      | kept hp' hahead hst' =>
          rw [hst']
          exact ⟨[], (List.append_nil _).symm, List.forall_mem_nil _,
            .kept hp hdue hp' hahead⟩
      | @refreshed msg hp' _ hmsg hst' =>
          rw [hst']
          exact ⟨[msg], rfl, List.forall_mem_singleton.mpr hmsg.agentId, .refreshed hp hdue hp' hmsg⟩
  -- nothing is sent: the declared level says it
  | proceed =>
      rw [hout] at h
      rcases bind_eq_ok_iff.mp h with ⟨level, hlevel, h⟩
      cases h
      refine ⟨[], (List.append_nil _).symm, List.forall_mem_nil _, ?_⟩
      dsimp only
      rw [if_neg (by simp [hoff])]
      exact .proceeded hp hdue hlevel rfl rfl
  | standDown =>
      rw [hout] at h
      cases h
      unfold standDownShrink
      simp only [hoff, Bool.not_false, Bool.and_true, Bool.false_eq_true, if_false]
      split_ifs with hwithdraw
      · rcases sectorsToArc_arc p.vacate.1 p.vacate.2 with ⟨start, stop, harc⟩
        simp only [withdrawIntent, harc, sendIntent]
        exact ⟨_, rfl, List.forall_mem_singleton.mpr rfl, .stoodDown hp hdue rfl rfl rfl⟩
      · exact ⟨[], (List.append_nil _).symm, List.forall_mem_nil _,
          .stoodDown hp hdue rfl rfl rfl⟩

/-- Every tick is one of the turns. -/
theorem tickAgent_turn (hoff : cfg.agentinfoEncoding = false)
    (hlevels : st.ctl.targetLevel ≤ st.ctl.declaredLevel + 1)
    (h : tickAgent cfg agent view st = .ok st') :
    Turns cfg agent view.now view.lag view.elapsed st st' := by
  unfold tickAgent at h
  cases hp : st.ctl.pending with
  | some p =>
      rw [hp] at h
      dsimp only at h
      split_ifs at h with hdue
      · exact executeIntent_turn hoff hp hdue h
      · cases h
        exact (growTurn_refl agent _ st).turns
  | none =>
      rw [hp] at h
      dsimp only at h
      split at h
      · split_ifs at h with hdue
        · exact (executeGrow_turn h hp hlevels).turns
        · cases h
          exact (growTurn_refl agent _ st).turns
      · split_ifs at h with hbehind hheld hroom
        · cases h
          exact (growTurn_refl agent _ st).turns
        · -- the declared level is the target by now, which only matters for the new target
          have hgrow : GrowTurn agent view.elapsed _ st' := startGrow_turn h hp (Nat.le_succ _)
          rcases hgrow with ⟨new, hsent, hown, hquiet⟩
          exact ⟨new, hsent, hown, .quiet ⟨hquiet.cur, hquiet.pending, hquiet.acc, hquiet.target,
            hquiet.grows⟩⟩
        · cases h
          have hgrow : GrowTurn agent view.elapsed st
              { st with ctl := { st.ctl with declaredLevel := st.ctl.targetLevel } } :=
            growTurn_silent rfl rfl rfl (Nat.le_add_right _ _) (le_refl _)
          exact hgrow.turns
        · rcases decideLevel_turn hoff h hp (Nat.le_succ _) with ⟨new, hsent, hown, hturn⟩
          exact ⟨new, hsent, hown, hturn.of_declared hp⟩

end Ticks

end Sharding
end Kitsune2
