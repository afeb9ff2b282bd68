import Kitsune2.Sharding.ControllerRun

/-!
# WaitingRacer — an announced shrink that waits for its turn

The lowest racer may be told to wait at every re-check, and for as long as it waits its peers must
count it as leaving.  A run of such decisions is followed here through the ticks of the agent, with
whatever else happens to the intent tables in between.  Each `Wait` leaves an expiry at least one
wait past the next re-check, the own table entry and the last announcement carry that expiry, and
two refreshes are more than one wait apart, so that there are few of them.
-/

namespace Kitsune2
namespace Sharding

open Api Lib

variable {AgentId Url : Type} [LinearOrder AgentId] [DecidableEq Url]

variable {cfg : Config} {agent : AgentId} {w : Nat} {now : Int} {p p' : PendingShrink}
  {st st' : TickState AgentId Url} {times : List Int}

/-! ## Runs of waiting -/

/-- What else may happen to the tables while the agent waits: messages, the intents of other agents,
and the readings of checks made before the intent lapses. -/
def Meanwhile (agent : AgentId) (p : PendingShrink) : TableStep AgentId Url → Prop
  | .received _ _ _ => True
  | .filed grow other _ _ => grow = true ∨ other ≠ agent
  | .removed grow other => grow = true ∨ other ≠ agent
  | .checked now => now < p.expiresAt

/-- One step of a waiting agent, with the time of the re-check if it is one. -/
inductive WaitStep (cfg : Config) (agent : AgentId) (st : TickState AgentId Url) :
    Option Int → TickState AgentId Url → Prop
  | table {p : PendingShrink} (step : TableStep AgentId Url) :
      st.ctl.pending = some p → Meanwhile agent p step →
      WaitStep cfg agent st none { st with tables := st.tables.step step }
  /-- A tick before the re-check is due. -/
  | early {p : PendingShrink} {view : TickView AgentId Url} {st' : TickState AgentId Url} :
      st.ctl.pending = some p → view.now < p.executeAt →
      tickAgent cfg agent view st = .ok st' → WaitStep cfg agent st none st'
  /-- A re-check before the intent lapses, with the outcome `Wait`. -/
  | wait {p : PendingShrink} {view : TickView AgentId Url} {st' : TickState AgentId Url} :
      st.ctl.pending = some p → p.executeAt ≤ view.now → view.now < p.expiresAt →
      recheckOutcome cfg view.shrinkCov view.liveIntents agent p.vacate = .wait →
      tickAgent cfg agent view st = .ok st' → WaitStep cfg agent st (some view.now) st'

/-- A run of consecutive `Wait` decisions, with the times of the re-checks, which never decrease. -/
inductive WaitRun (cfg : Config) (agent : AgentId) (st₀ : TickState AgentId Url) :
    List Int → TickState AgentId Url → Prop
  | refl : WaitRun cfg agent st₀ [] st₀
  | between {times : List Int} {st st' : TickState AgentId Url} :
      WaitRun cfg agent st₀ times st → WaitStep cfg agent st none st' →
      WaitRun cfg agent st₀ times st'
  | waited {times : List Int} {now : Int} {st st' : TickState AgentId Url} :
      WaitRun cfg agent st₀ times st → (∀ s ∈ times, s ≤ now) →
      WaitStep cfg agent st (some now) st' → WaitRun cfg agent st₀ (times ++ [now]) st'

/-! ## One step -/

/-- The message that announces a pending shrink. -/
structure AnnouncesShrink (agent : AgentId) (p : PendingShrink) (msg : IntentMessage AgentId) :
    Prop where
  agentId : msg.agentId = agent
  range : sectorsToArc p.vacate.1 p.vacate.2 = .arc msg.vacateStart msg.vacateEnd
  expiresAt : msg.expiresAt = p.expiresAt
  standing : msg.withdrawn = false
  shrink : msg.grow = false

/-- A racer that peers can see: its expiry lies one wait past the next re-check, and it is the one
filed here and last sent. -/
structure Visible (agent : AgentId) (w : Nat) (st : TickState AgentId Url) (p : PendingShrink) :
    Prop where
  pending : st.ctl.pending = some p
  wait_eq : p.wait = w
  ahead : p.executeAt + w ≤ p.expiresAt
  filed : st.tables.shrinks.lookup (agent, none) = some (ownIntent p)
  announced : ∃ msg, st.sent.getLast? = some msg ∧ AnnouncesShrink agent p msg

/-- Publishing sends one message, and files the intent. -/
theorem publishIntent_sent (agent : AgentId) (p : PendingShrink) (st : TickState AgentId Url) :
    ∃ msg, AnnouncesShrink agent p msg ∧
      publishIntent agent p.vacate p.expiresAt st =
        { st with
          tables := st.tables.step (.filed false agent p.vacate p.expiresAt)
          sent := st.sent ++ [msg] } := by
  rcases sectorsToArc_arc p.vacate.1 p.vacate.2 with ⟨start, stop, harc⟩
  refine ⟨{ agentId := agent, vacateStart := start, vacateEnd := stop, expiresAt := p.expiresAt
            withdrawn := false, grow := false }, ⟨rfl, harc, rfl, rfl, rfl⟩, ?_⟩
  simp only [publishIntent, harc, sendIntent]

/-- How a re-check at `now` that says `Wait` changes the pending shrink: the next re-check is one
interval away, and the expiry is renewed if it comes before one wait past that. -/
inductive Renewed (cfg : Config) (agent : AgentId) (now : Int) (p : PendingShrink)
    (st : TickState AgentId Url) : PendingShrink → TickState AgentId Url → Prop
  | kept {p' : PendingShrink} {st' : TickState AgentId Url} :
      p' = { p with executeAt := now + cfg.checkInterval } →
      p'.executeAt + p.wait ≤ p.expiresAt →
      st' = { st with ctl := { st.ctl with pending := some p' } } →
      Renewed cfg agent now p st p' st'
  | refreshed {p' : PendingShrink} {st' : TickState AgentId Url} {msg : IntentMessage AgentId} :
      p' = { p with
        executeAt := now + cfg.checkInterval
        expiresAt := now + cfg.checkInterval + p.wait + p.wait } →
      p.expiresAt < p'.executeAt + p.wait → AnnouncesShrink agent p' msg →
      st' = { st with
        ctl := { st.ctl with pending := some p' }
        tables := st.tables.step (.filed false agent p'.vacate p'.expiresAt)
        sent := st.sent ++ [msg] } →
      Renewed cfg agent now p st p' st'

theorem waitForTurn_renewed (cfg : Config) (agent : AgentId) (now : Int) (p : PendingShrink)
    (st : TickState AgentId Url) :
    ∃ p', Renewed cfg agent now p st p'
      (waitForTurn cfg agent now p { st with ctl := { st.ctl with pending := none } }) := by
  unfold waitForTurn refreshedExpiry
  by_cases hdue : p.expiresAt < now + cfg.checkInterval + p.wait
  · simp only [if_pos hdue]
    rcases publishIntent_sent agent { p with
        executeAt := now + cfg.checkInterval
        expiresAt := now + cfg.checkInterval + p.wait + p.wait }
      { st with ctl := { st.ctl with pending := none } } with ⟨msg, hmsg, hpublish⟩
    dsimp only at hpublish
    rw [hpublish]
    exact ⟨_, .refreshed rfl hdue hmsg rfl⟩
  · simp only [if_neg hdue]
    exact ⟨_, .kept rfl (not_lt.mp hdue) rfl⟩

/-- A due tick with the outcome `Wait`. -/
theorem tickAgent_wait {view : TickView AgentId Url} (hp : st.ctl.pending = some p)
    (hdue : p.executeAt ≤ view.now)
    (hwait : recheckOutcome cfg view.shrinkCov view.liveIntents agent p.vacate = .wait) :
    tickAgent cfg agent view st =
      .ok (waitForTurn cfg agent view.now p { st with ctl := { st.ctl with pending := none } }) := by
  unfold tickAgent
  rw [hp]
  dsimp only
  rw [if_pos hdue]
  unfold executeIntent
  rw [hp]
  dsimp only
  rw [hwait]

/-- Nothing else touches the own entry. -/
theorem Meanwhile.lookup {step : TableStep AgentId Url} {tables : Tables AgentId Url}
    (h : Meanwhile agent p step)
    (hfiled : tables.shrinks.lookup (agent, none) = some (ownIntent p)) :
    (tables.step step).shrinks.lookup (agent, none) = some (ownIntent p) := by
  have hlook := lookup_step tables false (agent, none) step
  have hheld : (tables.of false).lookup (agent, none) = some (ownIntent p) := hfiled
  rw [hheld] at hlook
  refine hlook.trans ?_
  cases step with
  | received now peer msg =>
      exact if_neg fun hkey => by cases hkey.2
  | filed grow other vacate expiresAt =>
      refine if_neg ?_
      rintro ⟨hkind, hkey⟩
      cases hkey
      rcases h with hgrow | hne
      · rw [hgrow] at hkind
        cases hkind
      · exact hne rfl
  | removed grow other =>
      refine if_neg ?_
      rintro ⟨hkind, hkey⟩
      cases hkey
      rcases h with hgrow | hne
      · rw [hgrow] at hkind
        cases hkind
      · exact hne rfl
  -- the entry has not expired, so the sweep keeps it
  | checked now =>
      have hlive : now < p.expiresAt := h
      simp [stepAt, ownIntent, Option.filter, hlive]

/-- Steps that are no re-check leave the pending shrink, and send nothing. -/
theorem Visible.between (h : Visible agent w st p) (hstep : WaitStep cfg agent st none st') :
    Visible agent w st' p ∧ st'.sent = st.sent := by
  cases hstep with
  | @table q step hq hmean =>
      have heq : some p = some q := h.pending.symm.trans hq
      cases heq
      exact ⟨⟨h.pending, h.wait_eq, h.ahead, hmean.lookup h.filed, h.announced⟩, rfl⟩
  | @early q view _ hq hearly htick =>
      have heq : some p = some q := h.pending.symm.trans hq
      cases heq
      have hsame : tickAgent cfg agent view st = .ok st := by
        unfold tickAgent
        rw [hq]
        dsimp only
        rw [if_neg (not_le.mpr hearly)]
      rw [hsame] at htick
      cases htick
      exact ⟨h, rfl⟩

theorem Visible.renewed (h : Visible agent w st p) (hrenewed : Renewed cfg agent now p st p' st') :
    Visible agent w st' p' ∧ p.expiresAt ≤ p'.expiresAt := by
  cases hrenewed with
  | kept hp' hahead hst' =>
      subst hst'
      subst hp'
      refine ⟨⟨rfl, h.wait_eq, ?_, h.filed, ?_⟩, le_refl _⟩
      · rw [← h.wait_eq]
        exact hahead
      · rcases h.announced with ⟨msg, hlast, hmsg⟩
        exact ⟨msg, hlast, ⟨hmsg.agentId, hmsg.range, hmsg.expiresAt, hmsg.standing, hmsg.shrink⟩⟩
  | @refreshed msg hp' hdue hmsg hst' =>
      subst hst'
      subst hp'
      refine ⟨⟨rfl, h.wait_eq, ?_, lookup_filed_own agent _ _ st.tables, msg, ?_, hmsg⟩, ?_⟩
      · dsimp only
        rw [h.wait_eq]
        omega
      · exact List.getLast?_concat
      · dsimp only at hdue ⊢
        omega

/-- The pending shrink of a re-check that says `Wait`. -/
theorem Visible.waited (h : Visible agent w st p) (hstep : WaitStep cfg agent st (some now) st') :
    ∃ p', Renewed cfg agent now p st p' st' := by
  cases hstep with
  | @wait q view _ hq hdue _ hwait htick =>
      have heq : some p = some q := h.pending.symm.trans hq
      cases heq
      rw [tickAgent_wait hq hdue hwait] at htick
      cases htick
      exact waitForTurn_renewed cfg agent view.now p st

/-! ## Whole runs -/

/-- The refreshes of a run with re-checks at `times`: what was sent since its start.  The last of
them, if there is one, was sent at a re-check `r`, and one wait has passed before it for every
earlier one. -/
structure Refreshes (cfg : Config) (agent : AgentId) (w : Nat) (times : List Int)
    (st₀ st : TickState AgentId Url) (p : PendingShrink)
    (refreshes : List (IntentMessage AgentId)) : Prop where
  sent : st.sent = st₀.sent ++ refreshes
  own : ∀ msg ∈ refreshes, msg.agentId = agent ∧ msg.withdrawn = false ∧ msg.grow = false
  none_before : times = [] → refreshes = []
  spaced : refreshes ≠ [] → ∀ first, times.head? = some first →
    ∃ r ∈ times, p.expiresAt = r + cfg.checkInterval + w + w ∧
      first + ((refreshes.length - 1) * w : Nat) ≤ r

variable {st₀ : TickState AgentId Url} {p₀ : PendingShrink} {first last : Int}
  {refreshes : List (IntentMessage AgentId)}

omit [LinearOrder AgentId] [DecidableEq Url] in
/-- A re-check that keeps the expiry sends nothing. -/
theorem Refreshes.kept (h : Refreshes cfg agent w times st₀ st p refreshes)
    (hsent : st'.sent = st.sent) (hexp : p'.expiresAt = p.expiresAt) :
    Refreshes cfg agent w (times ++ [now]) st₀ st' p' refreshes := by
  refine ⟨hsent.trans h.sent, h.own, fun hnil => absurd hnil (by simp), ?_⟩
  intro hne first hfirst
  have htimes : times ≠ [] := fun hnil => hne (h.none_before hnil)
  rw [List.head?_append_of_ne_nil _ htimes] at hfirst
  rcases h.spaced hne first hfirst with ⟨r, hr, hr_exp, hspace⟩
  exact ⟨r, List.mem_append_left _ hr, hexp.trans hr_exp, hspace⟩

omit [LinearOrder AgentId] [DecidableEq Url] in
/-- A re-check that refreshes comes more than one wait after the last one that did. -/
theorem Refreshes.refreshed {msg : IntentMessage AgentId}
    (h : Refreshes cfg agent w times st₀ st p refreshes) (hafter : ∀ s ∈ times, s ≤ now)
    (hdue : p.expiresAt < now + cfg.checkInterval + w) (hmsg : AnnouncesShrink agent p' msg)
    (hsent : st'.sent = st.sent ++ [msg])
    (hexp : p'.expiresAt = now + cfg.checkInterval + w + w) :
    Refreshes cfg agent w (times ++ [now]) st₀ st' p' (refreshes ++ [msg]) := by
  refine ⟨?_, ?_, fun hnil => absurd hnil (by simp), ?_⟩
  · rw [hsent, h.sent, List.append_assoc]
  · intro m hm
    rcases List.mem_append.mp hm with hold | hnew
    · exact h.own m hold
    · rw [List.mem_singleton.mp hnew]
      exact ⟨hmsg.agentId, hmsg.standing, hmsg.shrink⟩
  · intro _ first hfirst
    refine ⟨now, by simp, hexp, ?_⟩
    rw [List.length_append, List.length_singleton, Nat.add_sub_cancel]
    by_cases htimes : times = []
    · -- the first re-check of the run
      rw [h.none_before htimes]
      rw [htimes] at hfirst
      have heq : now = first := Option.some.inj hfirst
      simp [heq]
    · rw [List.head?_append_of_ne_nil _ htimes] at hfirst
      have hle := hafter first (List.mem_of_head? hfirst)
      by_cases hnone : refreshes = []
      · rw [hnone]
        simpa using hle
      · rcases h.spaced hnone first hfirst with ⟨r, hr, hr_exp, hspace⟩
        have hlen : refreshes.length = refreshes.length - 1 + 1 :=
          (Nat.sub_add_cancel (List.length_pos_iff.mpr hnone)).symm
        rw [hlen, Nat.add_mul, Nat.one_mul]
        push_cast at hspace ⊢
        omega

/-- Along a run the racer stays visible, its expiry does not decrease, and its refreshes are spaced. -/
theorem WaitRun.visible (hrun : WaitRun cfg agent st₀ times st) (h₀ : Visible agent w st₀ p₀) :
    ∃ p refreshes, Visible agent w st p ∧ p₀.expiresAt ≤ p.expiresAt ∧
      (∀ last, times.getLast? = some last → p.executeAt = last + cfg.checkInterval) ∧
      Refreshes cfg agent w times st₀ st p refreshes := by
  induction hrun with
  | refl =>
      refine ⟨p₀, [], h₀, le_refl _, nofun, ⟨(List.append_nil _).symm, ?_, fun _ => rfl, ?_⟩⟩
      · intro msg hmsg
        cases hmsg
      · intro hne
        exact absurd rfl hne
  -- table steps of others leave the own entry alone
  | between _ hstep ih =>
      rcases ih with ⟨p, refreshes, hvis, hle, hnext, href⟩
      rcases hvis.between hstep with ⟨hvis', hsent⟩
      exact ⟨p, refreshes, hvis', hle, hnext,
        ⟨hsent.trans href.sent, href.own, href.none_before, href.spaced⟩⟩
  -- each check schedules the next one and refreshes when the expiry comes near
  | @waited times now st st' _ hafter hstep ih =>
      rcases ih with ⟨p, refreshes, hvis, hle, _, href⟩
      rcases hvis.waited hstep with ⟨p', hrenewed⟩
      rcases hvis.renewed hrenewed with ⟨hvis', hle'⟩
      have hnext : p'.executeAt = now + cfg.checkInterval := by
        cases hrenewed with
        | kept hp' _ _ => rw [hp']
        | refreshed hp' _ _ _ => rw [hp']
      have hsched : ∀ last, (times ++ [now]).getLast? = some last →
          p'.executeAt = last + cfg.checkInterval := by
        intro last hlast
        rw [List.getLast?_concat] at hlast
        cases hlast
        exact hnext
      cases hrenewed with
      | kept hp' _ hst' =>
          refine ⟨p', refreshes, hvis', le_trans hle hle', hsched, href.kept ?_ ?_⟩
          · rw [hst']
          · rw [hp']
      | @refreshed msg hp' hdue hmsg hst' =>
          have hexp : p'.expiresAt = now + cfg.checkInterval + w + w := by
            rw [hp', ← hvis.wait_eq]
          rw [hnext, hvis.wait_eq] at hdue
          refine ⟨p', refreshes ++ [msg], hvis', le_trans hle hle', hsched,
            href.refreshed hafter hdue hmsg ?_ hexp⟩
          rw [hst']

theorem WaitRun.le_last (hrun : WaitRun cfg agent st₀ times st)
    (hlast : times.getLast? = some last) : ∀ s ∈ times, s ≤ last := by
  induction hrun with
  | refl =>
      intro s hs
      cases hs
  | between _ _ ih =>
      exact ih hlast
  | @waited times now st st' _ hafter _ _ =>
      rw [List.getLast?_concat] at hlast
      cases hlast
      intro s hs
      rcases List.mem_append.mp hs with hold | hnew
      · exact hafter s hold
      · rw [List.mem_singleton.mp hnew]

/-- Only the patient rule tells a racer to wait. -/
theorem WaitRun.patient (hrun : WaitRun cfg agent st₀ times st) (hne : times ≠ []) :
    cfg.patient = true := by
  induction hrun with
  | refl => exact absurd rfl hne
  | between _ _ ih => exact ih hne
  | waited _ _ hstep _ =>
      cases hstep with
      | wait _ _ _ hwait _ =>
          unfold recheckOutcome at hwait
          by_contra hoff
          rw [if_neg hoff] at hwait
          split_ifs at hwait

omit [LinearOrder AgentId] [DecidableEq Url] in
/-- The refreshes fit the time of the run. -/
theorem Refreshes.length_le (h : Refreshes cfg agent w times st₀ st p refreshes) (hw : 0 < w)
    (hfirst : times.head? = some first) (hlast : ∀ s ∈ times, s ≤ last) :
    refreshes.length ≤ (last - first).toNat / w + 1 := by
  by_cases hnone : refreshes = []
  · simp [hnone]
  · rcases h.spaced hnone first hfirst with ⟨r, hr, _, hspace⟩
    have hle := hlast r hr
    have hfits : (refreshes.length - 1) * w ≤ (last - first).toNat := by omega
    have hdiv := (Nat.le_div_iff_mul_le hw).mpr hfits
    omega

/-! ## From the announcement -/

/-- An announcement under the patient rule makes the racer visible until two waits later. -/
theorem announceShrink_visible {lag : Nat} {before : TickState AgentId Url}
    (hoff : cfg.agentinfoEncoding = false)
    (h : announceShrink cfg agent lag now before = .ok st) :
    ∃ p, Visible agent (cfg.waitFor lag) st p ∧ p.executeAt = now + cfg.waitFor lag ∧
      p.expiresAt = now + cfg.waitFor lag + cfg.waitFor lag := by
  unfold announceShrink at h
  rcases bind_eq_ok_iff.mp h with ⟨vacate, _, h⟩
  rcases sectorsToArc_arc vacate.1 vacate.2 with ⟨start, stop, harc⟩
  rw [harc] at h
  dsimp only at h
  rw [if_neg (by simp [hoff])] at h
  have hpublish := publishIntent_sent agent
    { executeAt := now + cfg.waitFor lag, vacate := vacate
      expiresAt := now + cfg.waitFor lag + cfg.waitFor lag, wait := cfg.waitFor lag }
    { before with
      ctl := { before.ctl with
        pending := some
          { executeAt := now + cfg.waitFor lag, vacate := vacate
            expiresAt := now + cfg.waitFor lag + cfg.waitFor lag, wait := cfg.waitFor lag } } }
  rcases hpublish with ⟨msg, hmsg, hpublish⟩
  simp only [intentTimes] at h
  rw [hpublish] at h
  cases h
  exact ⟨_, ⟨rfl, rfl, le_refl _, lookup_filed_own agent _ _ before.tables, msg,
    List.getLast?_concat, hmsg⟩, rfl, rfl⟩

/-- From the announcement on, through any run of `Wait` decisions: the racer stays visible, its expiry
never decreases, and its refreshes are at most the time between the first and the last re-check
divided by the wait, plus one. -/
theorem waiting_racer_stays_visible {lag : Nat} {before : TickState AgentId Url}
    (hwait : 0 < cfg.waitFor lag)
    (hannounce : announceShrink cfg agent lag now before = .ok st₀)
    (hrun : WaitRun cfg agent st₀ times st) (hfirst : times.head? = some first)
    (hlast : times.getLast? = some last) :
    ∃ p, Visible agent (cfg.waitFor lag) st p ∧ p.executeAt = last + cfg.checkInterval ∧
      now + cfg.waitFor lag + cfg.waitFor lag ≤ p.expiresAt ∧
      (∀ later st', WaitRun cfg agent st later st' →
        ∃ p', st'.ctl.pending = some p' ∧ p.expiresAt ≤ p'.expiresAt) ∧
      ∃ refreshes, st.sent = st₀.sent ++ refreshes ∧
        (∀ msg ∈ refreshes, msg.agentId = agent ∧ msg.withdrawn = false ∧ msg.grow = false) ∧
        refreshes.length ≤ (last - first).toNat / cfg.waitFor lag + 1 := by
  have hne : times ≠ [] := by
    rintro rfl
    cases hfirst
  have hpatient := hrun.patient hne
  have hoff : cfg.agentinfoEncoding = false := by
    unfold Config.patient at hpatient
    simp only [Bool.and_eq_true, Bool.not_eq_true'] at hpatient
    exact hpatient.2
  rcases announceShrink_visible hoff hannounce with ⟨p₀, hvis₀, _, hexp₀⟩
  -- the run lemma: the entry stays visible and its expiry never falls back
  rcases hrun.visible hvis₀ with ⟨p, refreshes, hvis, hle, hsched, href⟩
  refine ⟨p, hvis, hsched last hlast, hexp₀ ▸ hle, ?_, refreshes, href.sent, href.own,
    href.length_le hwait hfirst (hrun.le_last hlast)⟩
  intro later st' hlater
  rcases hlater.visible hvis with ⟨p', _, hvis', hle', _, _⟩
  exact ⟨p', hvis'.pending, hle'⟩

/-! ## One wait -/

/-- The racing agents of the run without time, now with a wait and a check interval. -/
def slowConfig : Config :=
  { instantConfig with checkInterval := 100, intentMinWait := 1000 }

/-- The shrink that agent `0` announces at time zero. -/
def slowShrink : PendingShrink :=
  { executeAt := 1000, vacate := (256, 512), expiresAt := 2000, wait := 1000 }

def slowAnnounced : TickState Nat Nat where
  arcs := fullArcs
  ctl := fullControl (some slowShrink)
  tables := Tables.empty.step (.filed false 0 (256, 512) 2000)
  sent := [upperHalf 0 2000]

/-- What the agent sees at its first re-check: two peers with higher ids vacate the same half. -/
def slowView : TickView Nat Nat where
  shrinkCov := othersCoverage fullPeers [0]
  growCov := othersCoverage fullPeers [0]
  liveIntents := racing
  liveGrows := []
  visiblePeers := 3
  lag := 0
  now := 1000
  elapsed := 100

theorem slow_announces :
    announceShrink slowConfig 0 0 0
        { arcs := fullArcs, ctl := fullControl none, tables := Tables.empty, sent := [] } =
      .ok slowAnnounced := rfl

theorem waiting_racer_stays_visible_once :
    ∃ st p, WaitRun slowConfig 0 slowAnnounced [1000] st ∧ Visible 0 1000 st p ∧
      2000 ≤ p.expiresAt := by
  have hrule : ∀ (cov : Cov) (live : LiveIntents Nat Nat) (vacate : SectorRange),
      recheckOutcome slowConfig cov live 0 vacate = recheckOutcome instantConfig cov live 0 vacate :=
    fun _ _ _ => rfl
  have hcov : slowView.shrinkCov = othersCoverage fullPeers [0] := by
    simp only [slowView]
  have hwait : recheckOutcome slowConfig slowView.shrinkCov slowView.liveIntents 0 slowShrink.vacate =
      .wait := by
    rw [hrule]
    exact recheck_waits hcov
  have hpending : slowAnnounced.ctl.pending = some slowShrink := rfl
  have hdue : slowShrink.executeAt ≤ slowView.now := by simp only [slowShrink, slowView, le_refl]
  have hlive : slowView.now < slowShrink.expiresAt := by simp only [slowShrink, slowView]; decide
  have hstep : WaitStep slowConfig 0 slowAnnounced (some slowView.now)
      (waitForTurn slowConfig 0 slowView.now slowShrink
        { slowAnnounced with ctl := { slowAnnounced.ctl with pending := none } }) :=
    .wait hpending hdue hlive hwait (tickAgent_wait hpending hdue hwait)
  have hrun := WaitRun.waited .refl (fun s hs => by cases hs) hstep
  have hw : 0 < slowConfig.waitFor 0 := by decide
  rcases waiting_racer_stays_visible hw slow_announces hrun rfl rfl with ⟨p, hvis, _, hle, _⟩
  exact ⟨_, p, hrun, hvis, hle⟩

end Sharding
end Kitsune2
