import Kitsune2.Sharding.Controller

/-!
# Controller invariant — levels, arcs and pending intents over whole runs

Each controlled agent's state is tied to its arcs and to its own entry in the table of shrink
intents.  `Consistent` says how for one agent, `tickAgent_keeps` that a tick restores it, whatever
the tick saw, and `check_keeps` that a check does so for every agent of the node.  Only the check's
own reading of the table can drop the entry of a pending shrink, and then the tick that follows
resolves the shrink or files it again.
-/

namespace Kitsune2
namespace Sharding

open Api Lib

/-! ## Arithmetic of levels -/

theorem addLevel_ok {level : Nat} (h : level < maxLevel) : addLevel level = .ok (level + 1) := by
  have hmax : maxLevel = 9 := rfl
  simp only [addLevel]
  rw [if_pos (by omega)]

theorem subLevel_ok {level : Nat} (h : 1 ≤ level) : subLevel level = .ok (level - 1) := by
  simp [subLevel, h]

theorem siblingRange_ok {home level : Nat} (h : level < maxLevel) :
    siblingRange home level = .ok (siblingHalf home level) := by
  unfold siblingRange
  rw [addLevel_ok h]
  rfl

theorem vacateRange_ok {home level : Nat} (h : 1 ≤ level) :
    vacateRange home level = .ok (vacateHalf home level) := by
  unfold vacateRange
  rw [subLevel_ok h]
  rfl

theorem sectorsToArc_arc (start stop : Nat) : ∃ a b, sectorsToArc start stop = .arc a b := by
  unfold sectorsToArc
  split_ifs
  · exact ⟨_, _, rfl⟩
  · exact ⟨_, _, rfl⟩

theorem blockArc_maxLevel (home : Nat) : blockArc home maxLevel = DhtArc.full := by
  simp [blockArc, block, sectorsToArc]

variable {AgentId Url : Type} [LinearOrder AgentId] [DecidableEq Url]

/-! ## The invariant of one agent -/

/-- What a pending shrink says about its agent; `backed` is about the table entry. -/
structure Shrinking (home : Nat) (backed : PendingShrink → Prop) (arcs : Arcs)
    (ctl : AgentControl) (p : PendingShrink) : Prop where
  level_pos : 1 ≤ ctl.declaredLevel
  settled : ctl.targetLevel = ctl.declaredLevel
  cur : arcs.cur = blockArc home ctl.declaredLevel
  vacate : p.vacate = vacateHalf home ctl.declaredLevel
  lapses_after : p.executeAt ≤ p.expiresAt
  backed : backed p

/-- The state of a controlled agent fits its arcs. -/
structure Consistent (home : Nat) (backed : PendingShrink → Prop) (arcs : Arcs)
    (ctl : AgentControl) : Prop where
  home_eq : ctl.home = home
  target_le : ctl.targetLevel ≤ maxLevel
  levels : ctl.targetLevel = ctl.declaredLevel ∨ ctl.targetLevel = ctl.declaredLevel + 1
  tgt : arcs.tgt = blockArc home ctl.targetLevel
  exclusive : ctl.pending = none ∨ ctl.pendingGrow = none
  shrinking : ∀ p, ctl.pending = some p → Shrinking home backed arcs ctl p
  growing : ∀ p, ctl.pendingGrow = some p → ctl.declaredLevel < maxLevel

/-- The own table entry of a pending shrink. -/
def ownIntent (p : PendingShrink) : ShrinkIntent Url :=
  { vacate := p.vacate, expiresAt := p.expiresAt, sender := none }

/-- Something passes between two checks, or between announcing and re-checking. -/
def TakesTime (cfg : Config) (p : PendingShrink) : Prop :=
  0 < cfg.checkInterval ∨ 0 < p.wait

/-- The pending shrink has its own table entry, with the same expiry. -/
def Backed (cfg : Config) (tables : Tables AgentId Url) (agent : AgentId) (p : PendingShrink) :
    Prop :=
  TakesTime cfg p → tables.shrinks.lookup (agent, none) = some (ownIntent p)

/-- While a check is going on: the entry is there, or the check has just dropped it. -/
def BackedAt (cfg : Config) (now : Int) (tables : Tables AgentId Url) (agent : AgentId)
    (p : PendingShrink) : Prop :=
  TakesTime cfg p →
    tables.shrinks.lookup (agent, none) = some (ownIntent p) ∨ p.expiresAt ≤ now

theorem Consistent.declared_le {home : Nat} {backed : PendingShrink → Prop} {arcs : Arcs}
    {ctl : AgentControl} (h : Consistent home backed arcs ctl) : ctl.declaredLevel ≤ maxLevel := by
  rcases h.levels with heq | heq
  · exact heq ▸ h.target_le
  · have := h.target_le
    omega

theorem Consistent.mono {home : Nat} {backed backed' : PendingShrink → Prop} {arcs : Arcs}
    {ctl : AgentControl} (h : Consistent home backed arcs ctl)
    (himp : ∀ p, ctl.pending = some p → backed p → backed' p) :
    Consistent home backed' arcs ctl where
  home_eq := h.home_eq
  target_le := h.target_le
  levels := h.levels
  tgt := h.tgt
  exclusive := h.exclusive
  shrinking := by
    intro p hp
    have hs := h.shrinking p hp
    exact { hs with backed := himp p hp hs.backed }
  growing := h.growing

/-- Without a pending shrink the table does not matter. -/
theorem Consistent.of_idle {home : Nat} {backed backed' : PendingShrink → Prop} {arcs : Arcs}
    {ctl : AgentControl} (h : Consistent home backed arcs ctl) (hidle : ctl.pending = none) :
    Consistent home backed' arcs ctl :=
  h.mono fun p hp => by simp [hidle] at hp

/-! ## What the tick of one agent leaves -/

/-- No key of the tables but the agent's own has changed. -/
def OthersKept (agent : AgentId) (tables tables' : Tables AgentId Url) : Prop :=
  ∀ kind key, key ≠ (agent, none) →
    (tables'.of kind).lookup key = (tables.of kind).lookup key

theorem OthersKept.refl (agent : AgentId) (tables : Tables AgentId Url) :
    OthersKept agent tables tables :=
  fun _ _ _ => rfl

theorem OthersKept.trans {agent : AgentId} {t t' t'' : Tables AgentId Url}
    (h : OthersKept agent t t') (h' : OthersKept agent t' t'') : OthersKept agent t t'' :=
  fun kind key hkey => (h' kind key hkey).trans (h kind key hkey)

theorem othersKept_removed (agent : AgentId) (kind : Bool) (tables : Tables AgentId Url) :
    OthersKept agent tables (tables.step (.removed kind agent)) := by
  intro kind' key hkey
  rw [lookup_step, stepAt, if_neg fun h => hkey h.2]

theorem othersKept_filed (agent : AgentId) (kind : Bool) (vacate : SectorRange) (expiresAt : Int)
    (tables : Tables AgentId Url) :
    OthersKept agent tables (tables.step (.filed kind agent vacate expiresAt)) := by
  intro kind' key hkey
  rw [lookup_step, stepAt, if_neg fun h => hkey h.2]

theorem lookup_filed_own (agent : AgentId) (vacate : SectorRange) (expiresAt : Int)
    (tables : Tables AgentId Url) :
    (tables.step (.filed false agent vacate expiresAt)).shrinks.lookup (agent, none) =
      some { vacate := vacate, expiresAt := expiresAt, sender := none } := by
  have h := lookup_step tables false (agent, none) (.filed false agent vacate expiresAt)
  rw [stepAt, if_pos ⟨rfl, rfl⟩] at h
  exact h

omit [LinearOrder AgentId] [DecidableEq Url] in
@[simp] theorem sendIntent_arcs (agent : AgentId) (start stop : Nat) (expiresAt : Int)
    (withdrawn grow : Bool) (st : TickState AgentId Url) :
    (sendIntent agent start stop expiresAt withdrawn grow st).arcs = st.arcs := rfl

omit [LinearOrder AgentId] [DecidableEq Url] in
@[simp] theorem sendIntent_ctl (agent : AgentId) (start stop : Nat) (expiresAt : Int)
    (withdrawn grow : Bool) (st : TickState AgentId Url) :
    (sendIntent agent start stop expiresAt withdrawn grow st).ctl = st.ctl := rfl

omit [LinearOrder AgentId] [DecidableEq Url] in
@[simp] theorem sendIntent_tables (agent : AgentId) (start stop : Nat) (expiresAt : Int)
    (withdrawn grow : Bool) (st : TickState AgentId Url) :
    (sendIntent agent start stop expiresAt withdrawn grow st).tables = st.tables := rfl

/-- Publishing files the intent and leaves the agent's arcs and state alone. -/
theorem publishIntent_eq (agent : AgentId) (vacate : SectorRange) (expiresAt : Int)
    (st : TickState AgentId Url) :
    (publishIntent agent vacate expiresAt st).arcs = st.arcs ∧
      (publishIntent agent vacate expiresAt st).ctl = st.ctl ∧
      (publishIntent agent vacate expiresAt st).tables =
        st.tables.step (.filed false agent vacate expiresAt) := by
  obtain ⟨a, b, harc⟩ := sectorsToArc_arc vacate.1 vacate.2
  simp [publishIntent, harc]

omit [LinearOrder AgentId] [DecidableEq Url] in
/-- Withdrawing only sends. -/
theorem withdrawIntent_eq (agent : AgentId) (vacate : SectorRange) (expiresAt : Int)
    (st : TickState AgentId Url) :
    (withdrawIntent agent vacate expiresAt st).arcs = st.arcs ∧
      (withdrawIntent agent vacate expiresAt st).ctl = st.ctl ∧
      (withdrawIntent agent vacate expiresAt st).tables = st.tables := by
  obtain ⟨a, b, harc⟩ := sectorsToArc_arc vacate.1 vacate.2
  simp [withdrawIntent, harc]

/-- What is promised of the state a tick leaves. -/
structure Restored (cfg : Config) (home : Nat) (agent : AgentId)
    (st st' : TickState AgentId Url) : Prop where
  consistent : Consistent home (Backed cfg st'.tables agent) st'.arcs st'.ctl
  others : OthersKept agent st.tables st'.tables
  level_le : st'.ctl.declaredLevel ≤ st.ctl.declaredLevel + 1
  level_ge : st.ctl.declaredLevel ≤ st'.ctl.declaredLevel + 1

/-- An agent that makes no announcement: its levels fit its arcs and nothing is pending. -/
structure Idle (home : Nat) (arcs : Arcs) (ctl : AgentControl) : Prop where
  home_eq : ctl.home = home
  target_le : ctl.targetLevel ≤ maxLevel
  levels : ctl.targetLevel = ctl.declaredLevel ∨ ctl.targetLevel = ctl.declaredLevel + 1
  tgt : arcs.tgt = blockArc home ctl.targetLevel
  pending : ctl.pending = none
  pendingGrow : ctl.pendingGrow = none

theorem Idle.consistent {home : Nat} {backed : PendingShrink → Prop} {arcs : Arcs}
    {ctl : AgentControl} (h : Idle home arcs ctl) : Consistent home backed arcs ctl where
  home_eq := h.home_eq
  target_le := h.target_le
  levels := h.levels
  tgt := h.tgt
  exclusive := .inl h.pending
  shrinking := by
    intro p hp
    rw [h.pending] at hp
    cases hp
  growing := by
    intro p hp
    rw [h.pendingGrow] at hp
    cases hp

/-- The ways a tick can leave an agent. -/
theorem Restored.of_idle {cfg : Config} {home : Nat} {agent : AgentId}
    {st st' : TickState AgentId Url} (h : Idle home st'.arcs st'.ctl)
    (hothers : OthersKept agent st.tables st'.tables)
    (hle : st'.ctl.declaredLevel ≤ st.ctl.declaredLevel + 1)
    (hge : st.ctl.declaredLevel ≤ st'.ctl.declaredLevel + 1) :
    Restored cfg home agent st st' :=
  ⟨h.consistent, hothers, hle, hge⟩

/-! ## Growing -/

/-- A grow starts from any state with room to grow and nothing but its own levels to keep. -/
theorem startGrow_ok (cfg : Config) {home : Nat} (agent : AgentId) (st : TickState AgentId Url)
    (hhome : st.ctl.home = home) (hlevel : st.ctl.declaredLevel < maxLevel) :
    ∃ st', startGrow agent st = .ok st' ∧ Restored cfg home agent st st' ∧
      st'.ctl.declaredLevel = st.ctl.declaredLevel := by
  unfold startGrow
  rw [addLevel_ok hlevel]
  refine ⟨_, rfl, Restored.of_idle ⟨hhome, hlevel, .inr rfl, ?_, rfl, rfl⟩ ?_ ?_ ?_, rfl⟩
  · exact congrArg (fun h => blockArc h (st.ctl.declaredLevel + 1)) hhome
  · exact (othersKept_removed agent false st.tables).trans
      (othersKept_removed agent true _)
  · simp
  · simp

theorem grow_ok (cfg : Config) {home : Nat} (agent : AgentId) (st : TickState AgentId Url)
    (cov : Cov) (liveIntents : LiveIntents AgentId Url) (lag : Nat) (now : Int)
    (hidle : Idle home st.arcs st.ctl) (hlevel : st.ctl.declaredLevel < maxLevel) :
    ∃ st', grow cfg agent cov liveIntents lag now st = .ok st' ∧ Restored cfg home agent st st' ∧
      st'.ctl.declaredLevel = st.ctl.declaredLevel := by
  have hstart := startGrow_ok cfg agent st hidle.home_eq hlevel
  unfold grow
  by_cases hcoord : cfg.coordinatedGrowth = false
  · rw [if_pos hcoord]
    exact hstart
  · rw [if_neg hcoord, siblingRange_ok hlevel]
    dsimp only [bind, Except.bind]
    split_ifs with hcritical
    · exact hstart
    · obtain ⟨a, b, harc⟩ := sectorsToArc_arc (siblingHalf st.ctl.home st.ctl.declaredLevel).1
        (siblingHalf st.ctl.home st.ctl.declaredLevel).2
      rw [harc]
      refine ⟨_, rfl, ⟨⟨hidle.home_eq, hidle.target_le, hidle.levels, hidle.tgt, ?_, ?_, ?_⟩,
        othersKept_filed agent true _ _ st.tables, by simp [sendIntent], by simp [sendIntent]⟩, rfl⟩
      · exact .inl hidle.pending
      · intro p hp
        exact absurd (hidle.pending.symm.trans hp) (by simp)
      · intro p _
        exact hlevel

/-- Re-checking an announced grow resolves it either way. -/
theorem executeGrow_ok (cfg : Config) {home : Nat} (agent : AgentId)
    {backed : PendingShrink → Prop} {st : TickState AgentId Url} (cov : Cov)
    (liveIntents liveGrows : LiveIntents AgentId Url)
    (hc : Consistent home backed st.arcs st.ctl) {p : PendingShrink}
    (hp : st.ctl.pendingGrow = some p) :
    ∃ st', executeGrow cfg agent cov liveIntents liveGrows st = .ok st' ∧
      Restored cfg home agent st st' := by
  have hpending : st.ctl.pending = none := by
    rcases hc.exclusive with h | h
    · exact h
    · rw [hp] at h
      cases h
  have hlevel := hc.growing p hp
  unfold executeGrow
  rw [hp]
  dsimp only
  -- the recheck still asks for the growth, or the pending grow is given up
  split_ifs with hrecheck
  · obtain ⟨st', heq, hrest, -⟩ := startGrow_ok cfg agent { st with
      ctl := { st.ctl with pendingGrow := none }
      tables := st.tables.step (.removed true agent) } hc.home_eq hlevel
    refine ⟨st', heq, hrest.consistent, ?_, hrest.level_le, hrest.level_ge⟩
    exact (othersKept_removed agent true st.tables).trans hrest.others
  · obtain ⟨a, b, harc⟩ := sectorsToArc_arc p.vacate.1 p.vacate.2
    rw [harc]
    refine ⟨_, rfl, Restored.of_idle
      ⟨hc.home_eq, hc.target_le, hc.levels, hc.tgt, hpending, rfl⟩ ?_ ?_ ?_⟩
    · exact othersKept_removed agent true st.tables
    · simp
    · simp

/-! ## Shrinking -/

/-- An agent at its declared block whose intent has just been filed. -/
theorem Restored.of_filed {cfg : Config} {home : Nat} {agent : AgentId}
    {backed : PendingShrink → Prop} {st st' : TickState AgentId Url} {p : PendingShrink}
    (hc : Consistent home backed st.arcs st.ctl) (hgrow : st.ctl.pendingGrow = none)
    (hlevel : 1 ≤ st.ctl.declaredLevel) (hsettled : st.ctl.targetLevel = st.ctl.declaredLevel)
    (hcur : st.arcs.cur = blockArc home st.ctl.declaredLevel)
    (hvacate : p.vacate = vacateHalf home st.ctl.declaredLevel)
    (hlapse : p.executeAt ≤ p.expiresAt) (harcs : st'.arcs = st.arcs)
    (hctl : st'.ctl = { st.ctl with pending := some p })
    (htables : st'.tables = st.tables.step (.filed false agent p.vacate p.expiresAt)) :
    Restored cfg home agent st st' := by
  obtain ⟨arcs', ctl', tables', sent'⟩ := st'
  obtain rfl : arcs' = st.arcs := harcs
  obtain rfl : ctl' = { st.ctl with pending := some p } := hctl
  obtain rfl : tables' = st.tables.step (.filed false agent p.vacate p.expiresAt) := htables
  refine ⟨⟨hc.home_eq, hc.target_le, hc.levels, hc.tgt, .inr hgrow, ?_, ?_⟩,
    othersKept_filed agent false _ _ st.tables, by simp, by simp⟩
  · intro q hq
    obtain rfl := Option.some.inj hq
    exact ⟨hlevel, hsettled, hcur, hvacate, hlapse,
      fun _ => lookup_filed_own agent _ _ st.tables⟩
  · intro q hq
    exact absurd (hgrow.symm.trans hq) (by simp)

/-- The announcement starts the clock and files the agent's own entry. -/
theorem announceShrink_ok (cfg : Config) {home : Nat} (agent : AgentId)
    (st : TickState AgentId Url) (lag : Nat) (now : Int)
    (hoff : cfg.agentinfoEncoding = false) (hidle : Idle home st.arcs st.ctl)
    (hlevel : 1 ≤ st.ctl.declaredLevel) (hsettled : st.ctl.targetLevel = st.ctl.declaredLevel)
    (hcur : st.arcs.cur = blockArc home st.ctl.declaredLevel) :
    ∃ st', announceShrink cfg agent lag now st = .ok st' ∧ Restored cfg home agent st st' ∧
      st'.ctl.declaredLevel = st.ctl.declaredLevel := by
  obtain ⟨a, b, harc⟩ := sectorsToArc_arc (vacateHalf st.ctl.home st.ctl.declaredLevel).1
    (vacateHalf st.ctl.home st.ctl.declaredLevel).2
  unfold announceShrink
  rw [vacateRange_ok hlevel]
  dsimp only [bind, Except.bind]
  rw [harc]
  dsimp only
  rw [if_neg (by simp [hoff])]
  refine ⟨_, rfl, ?_, ?_⟩
  · have hc : Consistent home (fun _ => True) st.arcs st.ctl := hidle.consistent
    exact Restored.of_filed hc hidle.pendingGrow hlevel hsettled hcur (by rw [hidle.home_eq])
      (by simp [intentTimes]) (publishIntent_eq _ _ _ _).1 (publishIntent_eq _ _ _ _).2.1
      (publishIntent_eq _ _ _ _).2.2
  · rw [(publishIntent_eq _ _ _ _).2.1]

/-- A racer that waits keeps its intent up, and its entry in the table. -/
theorem waitForTurn_restored (cfg : Config) {home : Nat} (agent : AgentId)
    {st : TickState AgentId Url} {now : Int} {p : PendingShrink}
    (hc : Consistent home (BackedAt cfg now st.tables agent) st.arcs st.ctl)
    (hp : st.ctl.pending = some p) :
    Restored cfg home agent st
      (waitForTurn cfg agent now p { st with ctl := { st.ctl with pending := none } }) := by
  have hs := hc.shrinking p hp
  have hgrow : st.ctl.pendingGrow = none := by
    rcases hc.exclusive with h | h
    · rw [hp] at h
      cases h
    · exact h
  unfold waitForTurn
  dsimp only
  cases href : refreshedExpiry p.expiresAt (now + cfg.checkInterval) p.wait with
  | none =>
      -- no refresh is due: the expiry lies beyond the next re-check
      have hfar : now + cfg.checkInterval + p.wait ≤ p.expiresAt := by
        unfold refreshedExpiry at href
        split_ifs at href with hdue
        exact not_lt.mp hdue
      refine ⟨⟨hc.home_eq, hc.target_le, hc.levels, hc.tgt, .inr hgrow, ?_, ?_⟩,
        OthersKept.refl agent st.tables, by simp, by simp⟩
      · intro q hq
        obtain rfl := Option.some.inj hq
        refine ⟨hs.level_pos, hs.settled, hs.cur, hs.vacate, ?_, ?_⟩
        · change now + cfg.checkInterval ≤ p.expiresAt
          omega
        · intro htime
          have htime' : 0 < cfg.checkInterval ∨ 0 < p.wait := htime
          rcases hs.backed htime with hentry | hexpired
          · exact hentry
          · -- a check before the expiry has not dropped the entry
            omega
      · intro q hq
        exact absurd (hgrow.symm.trans hq) (by simp)
  | some expiresAt =>
      have hexp : expiresAt = now + cfg.checkInterval + p.wait + p.wait := by
        unfold refreshedExpiry at href
        split_ifs at href
        exact (Option.some.inj href).symm
      refine Restored.of_filed
        (p := { p with executeAt := now + cfg.checkInterval, expiresAt := expiresAt }) hc hgrow
        hs.level_pos hs.settled hs.cur hs.vacate ?_ (publishIntent_eq _ _ _ _).1 ?_
        (publishIntent_eq _ _ _ _).2.2
      · change now + cfg.checkInterval ≤ expiresAt
        omega
      · dsimp only
        rw [(publishIntent_eq _ _ _ _).2.1]

/-- A due shrink is re-checked: it goes ahead, waits for its turn or stands down. -/
theorem executeIntent_ok (cfg : Config) {home : Nat} (agent : AgentId)
    {st : TickState AgentId Url} (cov : Cov) (liveIntents : LiveIntents AgentId Url) {now : Int}
    (hoff : cfg.agentinfoEncoding = false)
    (hc : Consistent home (BackedAt cfg now st.tables agent) st.arcs st.ctl) {p : PendingShrink}
    (hp : st.ctl.pending = some p) :
    ∃ st', executeIntent cfg agent cov liveIntents now st = .ok st' ∧
      Restored cfg home agent st st' := by
  have hs := hc.shrinking p hp
  have hgrow : st.ctl.pendingGrow = none := by
    rcases hc.exclusive with h | h
    · rw [hp] at h
      cases h
    · exact h
  have hlevel := hs.level_pos
  have hmax := hc.declared_le
  unfold executeIntent
  rw [hp]
  dsimp only
  cases recheckOutcome cfg cov liveIntents agent p.vacate with
  -- the expiry is refreshed, in the table and in the pending shrink alike
  | wait => exact ⟨_, rfl, waitForTurn_restored cfg agent hc hp⟩
  | proceed =>
      dsimp only
      unfold proceedShrink
      rw [subLevel_ok hlevel]
      refine ⟨_, rfl, Restored.of_idle ⟨hc.home_eq, ?_, .inl rfl, ?_, rfl, hgrow⟩ ?_ ?_ ?_⟩
      · dsimp only
        omega
      · dsimp only
        rw [if_neg (by simp [hoff]), hc.home_eq]
      · exact othersKept_removed agent false st.tables
      · dsimp only
        omega
      · dsimp only
        omega
  -- standing down keeps the level and takes the entry back
  | standDown =>
      dsimp only
      have hst : ∀ st' : TickState AgentId Url,
          st'.arcs = st.arcs → st'.ctl = { st.ctl with pending := none, shrinkAcc := 0 } →
          st'.tables = st.tables.step (.removed false agent) → Restored cfg home agent st st' := by
        intro st' harcs hctl htables
        refine Restored.of_idle ⟨?_, ?_, ?_, ?_, ?_, ?_⟩ ?_ ?_ ?_
        · simpa [hctl] using hc.home_eq
        · simpa [hctl] using hc.target_le
        · simpa [hctl] using hc.levels
        · simpa [hctl, harcs] using hc.tgt
        · simp [hctl]
        · simpa [hctl] using hgrow
        · rw [htables]
          exact othersKept_removed agent false st.tables
        · simp [hctl]
        · simp [hctl]
      refine ⟨_, rfl, hst _ ?_ ?_ ?_⟩
      all_goals
        unfold standDownShrink
        simp only [hoff, Bool.not_false, Bool.and_true, Bool.false_eq_true, if_false]
        split_ifs
        · simp [withdrawIntent_eq]
        · rfl

/-! ## One tick -/

omit [DecidableEq Url] in
theorem growCondition_ok (cfg : Config) (agent : AgentId) (view : TickView AgentId Url)
    (ctl : AgentControl) :
    ∃ b, growCondition cfg agent view ctl = .ok b ∧ (b = true → ctl.declaredLevel < maxLevel) := by
  unfold growCondition
  split_ifs with hlevel
  · rw [siblingRange_ok hlevel]
    exact ⟨_, rfl, fun _ => hlevel⟩
  · exact ⟨false, rfl, by simp⟩

omit [LinearOrder AgentId] [DecidableEq Url] in
theorem shrinkCondition_ok (cfg : Config) (view : TickView AgentId Url) (ctl : AgentControl) :
    ∃ b, shrinkCondition cfg view ctl = .ok b ∧ (b = true → 1 ≤ ctl.declaredLevel) := by
  unfold shrinkCondition
  split_ifs with hlevel
  · rw [vacateRange_ok hlevel]
    exact ⟨_, rfl, fun _ => hlevel⟩
  · exact ⟨false, rfl, by simp⟩

/-- The decisions of an agent whose arc has caught up with its target level. -/
theorem decideLevel_ok (cfg : Config) {home : Nat} (agent : AgentId)
    (view : TickView AgentId Url) (st : TickState AgentId Url)
    (hoff : cfg.agentinfoEncoding = false) (hidle : Idle home st.arcs st.ctl)
    (hsettled : st.ctl.targetLevel = st.ctl.declaredLevel)
    (hcur : st.arcs.cur = blockArc home st.ctl.declaredLevel) :
    ∃ st', decideLevel cfg agent view st = .ok st' ∧ Restored cfg home agent st st' ∧
      st'.ctl.declaredLevel = st.ctl.declaredLevel := by
  obtain ⟨growCond, hgrow, hroom⟩ := growCondition_ok cfg agent view st.ctl
  obtain ⟨shrinkCond, hshrink, hpos⟩ := shrinkCondition_ok cfg view st.ctl
  unfold decideLevel
  rw [hgrow]
  dsimp only [bind, Except.bind]
  rw [hshrink]
  dsimp only
  generalize (if growCond = true then st.ctl.growAcc + view.elapsed else 0) = growAcc
  generalize (if shrinkCond = true then st.ctl.shrinkAcc + view.elapsed else 0) = shrinkAcc
  -- the accumulators are part of no invariant
  have hidle' : Idle home st.arcs
      { st.ctl with growAcc := growAcc, shrinkAcc := shrinkAcc } :=
    ⟨hidle.home_eq, hidle.target_le, hidle.levels, hidle.tgt, hidle.pending, hidle.pendingGrow⟩
  have hkept : Restored cfg home agent st
      { st with ctl := { st.ctl with growAcc := growAcc, shrinkAcc := shrinkAcc } } :=
    Restored.of_idle hidle' (OthersKept.refl agent st.tables) (by simp) (by simp)
  split_ifs with hgrows hshrinks
  · have hlevel : st.ctl.declaredLevel < maxLevel := by
      simp only [Bool.and_eq_true] at hgrows
      exact hroom hgrows.1
    obtain ⟨st', heq, hrest, hsame⟩ := grow_ok cfg agent { st with
        ctl := { st.ctl with growAcc := growAcc, shrinkAcc := shrinkAcc } } view.growCov
      view.liveIntents view.lag view.now hidle' hlevel
    exact ⟨st', heq, ⟨hrest.consistent, hrest.others, hrest.level_le, hrest.level_ge⟩, hsame⟩
  · have hlevel : 1 ≤ st.ctl.declaredLevel := by
      simp only [Bool.and_eq_true] at hshrinks
      exact hpos hshrinks.1
    rw [vacateRange_ok hlevel]
    dsimp only
    split_ifs with hoffer
    · exact ⟨_, rfl, hkept, rfl⟩
    · obtain ⟨st', heq, hrest, hsame⟩ := announceShrink_ok cfg agent { st with
          ctl := { st.ctl with growAcc := growAcc, shrinkAcc := shrinkAcc } } view.lag view.now
        hoff hidle' hlevel hsettled hcur
      exact ⟨st', heq, ⟨hrest.consistent, hrest.others, hrest.level_le, hrest.level_ge⟩, hsame⟩
  · exact ⟨_, rfl, hkept, rfl⟩

/-- A tick returns and restores the invariant, whatever the agent saw. -/
theorem tickAgent_keeps (cfg : Config) {home : Nat} (agent : AgentId)
    (view : TickView AgentId Url) (st : TickState AgentId Url)
    (hoff : cfg.agentinfoEncoding = false)
    (hc : Consistent home (BackedAt cfg view.now st.tables agent) st.arcs st.ctl) :
    ∃ st', tickAgent cfg agent view st = .ok st' ∧ Restored cfg home agent st st' := by
  unfold tickAgent
  cases hp : st.ctl.pending with
  | some p =>
      dsimp only
      have hs := hc.shrinking p hp
      split_ifs with hdue
      · exact executeIntent_ok cfg agent view.shrinkCov view.liveIntents hoff hc hp
      · -- not due yet, so not expired either
        have hlater := hs.lapses_after
        refine ⟨st, rfl, hc.mono ?_, OthersKept.refl agent st.tables, by simp, by simp⟩
        intro q hq hbacked htime
        obtain rfl : p = q := Option.some.inj (hp.symm.trans hq)
        rcases hbacked htime with hentry | hexpired
        · exact hentry
        · omega
  | none =>
      dsimp only
      have hsame : Restored cfg home agent st st :=
        ⟨hc.of_idle hp, OthersKept.refl agent st.tables, by simp, by simp⟩
      split
      · rename_i p hg
        split_ifs with hdue
        · exact executeGrow_ok cfg agent view.growCov view.liveIntents view.liveGrows hc hg
        · exact ⟨st, rfl, hsame⟩
      · rename_i hg
        split_ifs with hbehind hfull hroom
        · exact ⟨st, rfl, hsame⟩
        all_goals
          have hcur : st.arcs.cur = blockArc home st.ctl.targetLevel := by
            rw [← hc.home_eq]
            exact not_not.mp hbehind
          have hidle : Idle home st.arcs
              { st.ctl with declaredLevel := st.ctl.targetLevel } :=
            ⟨hc.home_eq, hc.target_le, .inl rfl, hc.tgt, hp, hg⟩
          have hlevels := hc.levels
        · obtain ⟨st', heq, hrest, hdecl⟩ := startGrow_ok cfg agent { st with
            ctl := { st.ctl with declaredLevel := st.ctl.targetLevel } } hc.home_eq hroom
          dsimp only at hdecl
          exact ⟨st', heq, hrest.consistent, hrest.others, by omega, by omega⟩
        · refine ⟨_, rfl, Restored.of_idle hidle (OthersKept.refl agent st.tables) ?_ ?_⟩
          · dsimp only
            omega
          · dsimp only
            omega
        · obtain ⟨st', heq, hrest, hdecl⟩ := decideLevel_ok cfg agent view { st with
            ctl := { st.ctl with declaredLevel := st.ctl.targetLevel } } hoff hidle rfl hcur
          dsimp only at hdecl
          exact ⟨st', heq, hrest.consistent, hrest.others, by omega, by omega⟩

end Sharding
end Kitsune2
