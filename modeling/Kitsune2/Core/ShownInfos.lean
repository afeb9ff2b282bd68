import Kitsune2.Core.LocalAgentsRun

/-!
# Shown infos — what the peer store comes to show of a local agent

Whatever joins, arcs and URLs came in between, once nothing is under way for an agent its info shows
what the agent is; once an agent is gone there is a tombstone or nothing; and while the tasks keep their
times the info of an agent does not lapse.
-/

namespace Kitsune2
namespace Core

open Api Lib SpaceStep

variable {Agent SpaceId Url Sig : Type} [DecidableEq Agent]

/-! ## Runs -/

/-- The states reached by steps that meet a condition. -/
def SpaceRun (cfg : SpaceConfig Agent SpaceId Url Sig)
    (cond : LocalSpace Agent SpaceId Url Sig → LocalSpace Agent SpaceId Url Sig → Prop) :
    LocalSpace Agent SpaceId Url Sig → LocalSpace Agent SpaceId Url Sig → Prop :=
  Relation.ReflTransGen fun s s' => SpaceStep cfg s s' ∧ cond s s'

/-- No step is excluded. -/
def AnyStep (_ _ : LocalSpace Agent SpaceId Url Sig) : Prop :=
  True

/-- A run keeps the invariant, and with it whatever the steps of sound states keep. -/
theorem SpaceRun.invariant {cfg : SpaceConfig Agent SpaceId Url Sig}
    {cond : LocalSpace Agent SpaceId Url Sig → LocalSpace Agent SpaceId Url Sig → Prop}
    {I : LocalSpace Agent SpaceId Url Sig → Prop} {s₀ s : LocalSpace Agent SpaceId Url Sig}
    (hrun : SpaceRun cfg cond s₀ s) (hsound : SpaceSound cfg s₀) (hinit : I s₀)
    (hstep : ∀ {s s'}, SpaceSound cfg s → I s → SpaceStep cfg s s' → cond s s' → I s') :
    SpaceSound cfg s ∧ I s := by
  induction hrun with
  | refl => exact ⟨hsound, hinit⟩
  | tail _ hlast ih => exact ⟨ih.1.step hlast.1, hstep ih.1 ih.2 hlast.1 hlast.2⟩

/-- All signing succeeds. -/
def Signing.Total (signing : Signing Agent SpaceId Url Sig) : Prop :=
  ∀ info, ∃ signed, signInfo signing info = .ok signed

omit [DecidableEq Agent] in
theorem Signing.Total.no_fault {signing : Signing Agent SpaceId Url Sig} (htotal : signing.Total)
    {info : AgentInfo Agent SpaceId Url} {fault : Fault} (h : signInfo signing info = .error fault) :
    False := by
  rcases htotal info with ⟨signed, hsigned⟩
  rw [h] at hsigned
  cases hsigned

variable {cfg : SpaceConfig Agent SpaceId Url Sig} {s s' : LocalSpace Agent SpaceId Url Sig}

/-! ## What an agent is owed -/

/-- An agent has an info signed after a time, or there is something under way that will sign one. -/
inductive Due (s : LocalSpace Agent SpaceId Url Sig) (agent : Agent) (after : Int) : Prop
  | nowhere (h : s.currentUrl = none)
  | unlisted (h : 0 < s.unlisted)
  | joining (h : agent ∈ s.joining)
  | owed (since : Int) (h : (agent, since) ∈ s.owed)
  | spawned (since : Int) (h : ⟨agent, since, .spawned⟩ ∈ s.updates)
  | located (since : Int) (url : Url) (h : ⟨agent, since, .located url⟩ ∈ s.updates)
  | stamped (since : Int) (url : Url) (createdAt : Int)
      (h : ⟨agent, since, .stamped url createdAt⟩ ∈ s.updates) (hafter : after < createdAt)
  | said (info : AgentInfoSigned Agent SpaceId Url Sig) (h : info ∈ s.said) (hagent : info.agent = agent)
      (hafter : after < info.createdAt)

theorem Due.step (htotal : cfg.signing.Total) (hs : SpaceSound cfg s) (h : SpaceStep cfg s s')
    {agent : Agent} {after : Int} (ha : agent ∈ s.localAgents) (hafter : after ≤ s.clock)
    (hdue : Due s agent after) : Due s' agent after := by
  -- without a URL there is none afterwards, or the agents have yet to be listed
  have hnowhere : s.currentUrl = none → Due s' agent after := by
    intro hurl
    rcases h.url_cases with ⟨hsame, _⟩ | ⟨_, hunlisted, _⟩
    · exact .nowhere (hsame.trans hurl)
    · exact .unlisted hunlisted
  have hjoining : agent ∈ s.joining → Due s' agent after := by
    intro hjoining
    rcases h.joining_kept hjoining with hkept | rfl
    · exact .joining hkept
    · exact .owed s.clock List.mem_cons_self
  cases hdue with
  | nowhere hurl => exact hnowhere hurl
  | unlisted hunlisted =>
      rcases h.unlisted_kept hunlisted with hkept | howed
      · exact .unlisted hkept
      · exact .owed s.clock (howed agent ha)
  | joining hjoin => exact hjoining hjoin
  | owed since howed =>
      rcases (hs.member agent ha).2 with hjoin | hcallback
      · exact hjoining hjoin
      · rcases h.owed_kept howed with hkept | hspawned
        · exact .owed since hkept
        · exact .spawned since (hspawned hcallback)
  | spawned since ht =>
      rcases h.updates_kept ht with hkept | hadvanced
      · exact .spawned since hkept
      · cases hadvanced with
        | nowhere hurl => exact hnowhere hurl
        | located _ hnext => exact .located since _ hnext
  | located since url ht =>
      rcases h.updates_kept ht with hkept | hadvanced
      · exact .located since url hkept
      · cases hadvanced with
        | stamped hnow hnext => exact .stamped since url _ hnext (Int.lt_of_le_of_lt hafter hnow)
  | stamped since url createdAt ht hlt =>
      rcases h.updates_kept ht with hkept | hadvanced
      · exact .stamped since url createdAt hkept hlt
      · cases hadvanced with
        | signed hsigned hsaid hnext =>
            have hsigns := signInfo_signs hsigned
            exact .said _ hsaid hsigns.agent (by rw [hsigns.createdAt]; exact hlt)
        | failed hfailed => exact (htotal.no_fault hfailed).elim
  | said info hi hagent hlt => exact .said info (h.said_kept hi) hagent hlt

/-- Nothing is under way for an agent. -/
structure Idle (s : LocalSpace Agent SpaceId Url Sig) (agent : Agent) : Prop where
  unlisted : s.unlisted = 0
  joining : agent ∉ s.joining
  owed : ∀ since, (agent, since) ∉ s.owed
  updates : ∀ since stage, ⟨agent, since, stage⟩ ∉ s.updates
  leaves : ∀ stage, ⟨agent, stage⟩ ∉ s.leaves

omit [DecidableEq Agent] in
/-- When nothing is under way for an agent, an info that was due is signed. -/
theorem Due.said_of_idle {agent : Agent} {after : Int} (hdue : Due s agent after)
    (hidle : Idle s agent) (hurl : s.currentUrl ≠ none) :
    ∃ info ∈ s.said, info.agent = agent ∧ after < info.createdAt := by
  cases hdue with
  | nowhere hnone => exact absurd hnone hurl
  | unlisted hpos => exact absurd hidle.unlisted (Nat.ne_of_gt hpos)
  | joining hjoin => exact absurd hjoin hidle.joining
  | owed since howed => exact absurd howed (hidle.owed since)
  | spawned since ht => exact absurd ht (hidle.updates since _)
  | located since url ht => exact absurd ht (hidle.updates since _)
  | stamped since url createdAt ht _ => exact absurd ht (hidle.updates since _)
  | said info hi hagent hlt => exact ⟨info, hi, hagent, hlt⟩

/-- When nothing is under way for an agent, no call holds an info of it. -/
theorem Idle.settled {agent : Agent} (hidle : Idle s agent) (hs : SpaceSound cfg s)
    {info : AgentInfoSigned Agent SpaceId Url Sig} (hi : info ∈ s.said) (hagent : info.agent = agent) :
    Settled s.clock s.store info := by
  rcases hs.settled info hi with (⟨holder, since, ht⟩ | ⟨holder, hc⟩) | hsettled
  · have hsame := (hs.signed holder since info ht).2.1
    rw [← hsame, hagent] at ht
    exact absurd ht (hidle.updates since _)
  · have hsame := (hs.left holder info hc).2.1
    rw [← hsame, hagent] at hc
    exact absurd hc (hidle.leaves _)
  · exact hsettled

/-- An info that is live and stored is as new as every info of its agent that is settled. -/
theorem SpaceSound.stored_newest (hs : SpaceSound cfg s) {agent : Agent} (hown : cfg.own agent)
    {st info : AgentInfoSigned Agent SpaceId Url Sig} (hst : s.store.store.lookup agent = some st)
    (hlive : s.clock < st.expiresAt) (hi : info ∈ s.said) (hagent : info.agent = agent)
    (hsettled : Settled s.clock s.store info) : info.createdAt ≤ st.createdAt := by
  have hexp := (hs.said info hi).2.2
  have hstexp := hs.stored_expiresAt hown hst
  rcases hsettled with hexpired | ⟨st', hst', hle⟩
  · omega
  · rw [hagent, hst] at hst'
    cases hst'
    exact hle

/-! ## A run of one agent -/

def soleConfig : SpaceConfig Nat Nat Nat Unit where
  space := 0
  signing := { encode := fun _ => .ok "", sign := fun _ _ => .ok () }
  reSignExpireTime := 300000000
  own := fun _ => True

theorem soleConfig_total : soleConfig.signing.Total :=
  fun _ => ⟨_, rfl⟩

def soleStart : LocalSpace Nat Nat Nat Unit :=
  .new 1000 0 0

/-- The space has a URL. -/
def soleLocated : LocalSpace Nat Nat Nat Unit :=
  { soleStart with currentUrl := some 7 }

/-- The agent has joined. -/
def soleJoined : LocalSpace Nat Nat Nat Unit :=
  (soleLocated.joinAdd 0).joinRegister 0

/-- The info that the update of the agent signs. -/
def soleInfo : AgentInfoSigned Nat Nat Nat Unit where
  agent := 0
  space := 0
  createdAt := 1
  expiresAt := 1 + infoLifetime
  isTombstone := false
  url := some 7
  storageArc := .empty
  encoded := ""
  signature := ()

/-- How far the update has come. -/
def soleUpdating (stage : UpdateStage Nat Nat Nat Unit) (clock : Int)
    (said : List (AgentInfoSigned Nat Nat Nat Unit)) : LocalSpace Nat Nat Nat Unit :=
  { soleJoined with owed := [], updates := [⟨0, 0, stage⟩], clock := clock, said := said }

/-- The info is inserted. -/
def soleShown : LocalSpace Nat Nat Nat Unit :=
  { soleJoined with
    owed := [], clock := 1, said := [soleInfo]
    store := (soleJoined.store.insert ((soleUpdating .spawned 1 []).env (fun _ => .ok false) 0)
      [soleInfo]).1 }

/-- What holds of all states of the run. -/
structure SoleEarly (s : LocalSpace Nat Nat Nat Unit) : Prop where
  clock : s.clock ≤ 1
  checked : ∀ agent ∈ s.localAgents, s.checkedAt agent = 0
  owed : ∀ call ∈ s.owed, call.2 = 0
  updates : ∀ t ∈ s.updates, t.since = 0
  calm : 0 < s.unlisted → s.updates = []

theorem sole_run {cond : LocalSpace Nat Nat Nat Unit → LocalSpace Nat Nat Nat Unit → Prop}
    (hcond : ∀ s s', SpaceStep soleConfig s s' → SoleEarly s' → cond s s') :
    SpaceRun soleConfig cond soleStart soleShown := by
  have hnext : ∀ {s} s', SpaceRun soleConfig cond soleStart s → SpaceStep soleConfig s s' →
      SoleEarly s' → SpaceRun soleConfig cond soleStart s' :=
    fun _ hrun h hearly => hrun.tail ⟨h, hcond _ _ h hearly⟩
  have h₁ := hnext _ .refl (.urlSet soleStart 7)
    ⟨by decide, by decide, by decide, by decide, by decide⟩
  have h₂ := hnext soleLocated h₁ (.urlListed _ rfl)
    ⟨by decide, by decide, by decide, by decide, by decide⟩
  have h₃ := hnext (soleLocated.joinAdd 0) h₂
    (.joinAdded _ trivial List.not_mem_nil (List.forall_mem_nil _))
    ⟨by decide, by decide, by decide, by decide, by decide⟩
  have h₄ := hnext soleJoined h₃ (.joinRegistered _ List.mem_cons_self)
    ⟨by decide, by decide, by decide, by decide, by decide⟩
  have h₅ := hnext (soleUpdating .spawned 0 []) h₄
    (.invoked soleJoined (show Replaced [((0 : Nat), (0 : Int))] (0, 0) [] [] from ⟨[], [], rfl, rfl⟩))
    ⟨by decide, by decide, by decide, by decide, by decide⟩
  have h₆ := hnext (soleUpdating (.located 7) 0 []) h₅ (.located _ ⟨[], [], rfl, rfl⟩)
    ⟨by decide, by decide, by decide, by decide, by decide⟩
  have h₇ := hnext (soleUpdating (.stamped 7 1) 1 []) h₆
    (.stamped _ (show (0 : Int) < 1 by decide) ⟨[], [], rfl, rfl⟩)
    ⟨by decide, by decide, by decide, by decide, by decide⟩
  have h₈ := hnext (soleUpdating (.signed soleInfo) 1 [soleInfo]) h₇
    (.signed _ rfl ⟨[], [], rfl, rfl⟩) ⟨by decide, by decide, by decide, by decide, by decide⟩
  exact hnext soleShown h₈ (.inserted _ (fun _ => .ok false) 0 rfl ⟨[], [], rfl, rfl⟩)
    ⟨by decide, by decide, by decide, by decide, by decide⟩

theorem soleShown_idle : Idle soleShown 0 :=
  ⟨rfl, by decide, fun _ => List.not_mem_nil, fun _ _ => List.not_mem_nil, fun _ => List.not_mem_nil⟩

/-! ## The arc -/

/-- What holds of the arcs that are shown. -/
structure ArcsShown (cfg : SpaceConfig Agent SpaceId Url Sig) (s : LocalSpace Agent SpaceId Url Sig) :
    Prop where
  arc : ∀ info ∈ s.said, info.isTombstone = false → s.changedAt info.agent < info.createdAt →
    info.storageArc = s.cur info.agent
  alive : ∀ info ∈ s.said, info.agent ∈ s.localAgents → s.changedAt info.agent < info.createdAt →
    info.isTombstone = false
  due : ∀ agent ∈ s.localAgents, Due s agent (s.changedAt agent)

namespace ArcsShown

/-- What was signed before a step was not signed after the arc changed. -/
theorem changed_eq (hs : SpaceSound cfg s) (h : SpaceStep cfg s s')
    {info : AgentInfoSigned Agent SpaceId Url Sig} (hi : info ∈ s.said)
    (hlt : s'.changedAt info.agent < info.createdAt) :
    s'.changedAt info.agent = s.changedAt info.agent ∧ s'.cur info.agent = s.cur info.agent := by
  rcases h.changed_cases info.agent with hsame | ⟨hnow, _⟩
  · exact hsame
  · have hle := (hs.said info hi).2.1
    omega

theorem arc_step (hs : SpaceSound cfg s) (hshown : ArcsShown cfg s) (h : SpaceStep cfg s s')
    {info : AgentInfoSigned Agent SpaceId Url Sig} (hi : info ∈ s'.said)
    (halive : info.isTombstone = false) (hlt : s'.changedAt info.agent < info.createdAt) :
    info.storageArc = s'.cur info.agent := by
  rcases h.mem_said hi with hold | ⟨agent, _, _, _, _, hsigned, _, heq⟩ | ⟨agent, _, _, hsigned, _⟩
  · rcases changed_eq hs h hold hlt with ⟨hchanged, hcur⟩
    rw [hcur]
    exact hshown.arc info hold halive (hchanged ▸ hlt)
  · have hsigns := signInfo_signs hsigned
    have hcur : s'.cur = s.cur := by rw [heq]
    rw [hsigns.storageArc, hsigns.agent, hcur]
    rfl
  · have hdead := (signInfo_signs hsigned).isTombstone
    rw [halive] at hdead
    cases hdead

theorem alive_step (hs : SpaceSound cfg s) (hshown : ArcsShown cfg s) (h : SpaceStep cfg s s')
    {info : AgentInfoSigned Agent SpaceId Url Sig} (hi : info ∈ s'.said)
    (hin : info.agent ∈ s'.localAgents) (hlt : s'.changedAt info.agent < info.createdAt) :
    info.isTombstone = false := by
  rcases h.mem_said hi with hold | ⟨agent, _, _, _, _, hsigned, _, _⟩ | ⟨agent, hc, _, hsigned, _, heq⟩
  · rcases changed_eq hs h hold hlt with ⟨hchanged, _⟩
    rcases h.mem_localAgents hin with hbefore | ⟨_, _, _, hjoin⟩
    · exact hshown.alive info hold hbefore (hchanged ▸ hlt)
    · -- an agent that joins has said all it has said before
      have hnow : s'.changedAt info.agent = s.clock := by
        rw [hjoin]
        exact Function.update_self _ _ _
      have hle := (hs.said info hold).2.1
      omega
  · exact (signInfo_signs hsigned).isTombstone
  · have hagent : info.agent = agent := (signInfo_signs hsigned).agent
    have hlocal : s'.localAgents = s.localAgents := by rw [heq]
    rw [hagent, hlocal] at hin
    exact absurd hin (hs.leaves agent _ hc).2

theorem due_step (htotal : cfg.signing.Total) (hs : SpaceSound cfg s) (hshown : ArcsShown cfg s)
    (h : SpaceStep cfg s s') {agent : Agent} (ha : agent ∈ s'.localAgents) :
    Due s' agent (s'.changedAt agent) := by
  rcases h.mem_localAgents ha with hbefore | ⟨_, _, _, rfl⟩
  · rcases h.changed_cases agent with ⟨hsame, _⟩ | ⟨_, _, howed | hjoining⟩
    · rw [hsame]
      exact (hshown.due agent hbefore).step htotal hs h hbefore (hs.changed agent)
    · exact .owed _ howed
    · exact .joining hjoining
  · exact .joining List.mem_cons_self

theorem step (htotal : cfg.signing.Total) (hs : SpaceSound cfg s) (hshown : ArcsShown cfg s)
    (h : SpaceStep cfg s s') : ArcsShown cfg s' where
  arc := fun _ => arc_step hs hshown h
  alive := fun _ => alive_step hs hshown h
  due := fun _ => due_step htotal hs hshown h

omit [DecidableEq Agent] in
theorem new (cfg : SpaceConfig Agent SpaceId Url Sig) (pruneInterval nowInst : Nat) (clock : Int) :
    ArcsShown cfg (LocalSpace.new pruneInterval nowInst clock) where
  arc := List.forall_mem_nil _
  alive := List.forall_mem_nil _
  due := List.forall_mem_nil _

/-- What is live and stored of an idle member is no tombstone and has its arc. -/
theorem shown (hs : SpaceSound cfg s) (hshown : ArcsShown cfg s) {agent : Agent}
    (ha : agent ∈ s.localAgents) (hidle : Idle s agent) (hurl : s.currentUrl ≠ none)
    {st : AgentInfoSigned Agent SpaceId Url Sig} (hst : s.store.store.lookup agent = some st)
    (hlive : s.clock < st.expiresAt) : st.isTombstone = false ∧ st.storageArc = s.cur agent := by
  have hown := (hs.member agent ha).1
  rcases (hshown.due agent ha).said_of_idle hidle hurl with ⟨info, hi, hagent, hlt⟩
  have hle := hs.stored_newest hown hst hlive hi hagent (hidle.settled hs hi hagent)
  rcases hs.stored agent st hst with ⟨rfl, hsaid⟩
  have hlt' : s.changedAt st.agent < st.createdAt := Int.lt_of_lt_of_le hlt hle
  have halive := hshown.alive st (hsaid hown) ha hlt'
  exact ⟨halive, hshown.arc st (hsaid hown) halive hlt'⟩

end ArcsShown

/-- The URL is not set while an update that has read it has yet to take its time stamp. -/
def UrlCalm (s s' : LocalSpace Agent SpaceId Url Sig) : Prop :=
  s'.currentUrl = s.currentUrl ∨ ∀ agent since url, ⟨agent, since, .located url⟩ ∉ s.updates

/-- What holds of the URLs that are shown. -/
structure UrlsShown (cfg : SpaceConfig Agent SpaceId Url Sig) (s : LocalSpace Agent SpaceId Url Sig) :
    Prop where
  moved : s.movedAt ≤ s.clock
  located : ∀ agent since url, ⟨agent, since, .located url⟩ ∈ s.updates → s.currentUrl = some url
  stamped : ∀ agent since url createdAt, ⟨agent, since, .stamped url createdAt⟩ ∈ s.updates →
    s.movedAt < createdAt → s.currentUrl = some url
  url : ∀ info ∈ s.said, info.isTombstone = false → s.movedAt < info.createdAt →
    info.url = s.currentUrl
  due : ∀ agent ∈ s.localAgents, Due s agent s.movedAt

namespace UrlsShown

theorem moved_step (hshown : UrlsShown cfg s) (h : SpaceStep cfg s s') : s'.movedAt ≤ s'.clock := by
  have hclock := h.clock_le
  have hle := hshown.moved
  rcases h.url_cases with ⟨_, hsame⟩ | ⟨hnow, _⟩
  · omega
  · omega

theorem located_step (hshown : UrlsShown cfg s) (h : SpaceStep cfg s s') (hcalm : UrlCalm s s')
    {agent : Agent} {since : Int} {url : Url} (ht : ⟨agent, since, .located url⟩ ∈ s'.updates) :
    s'.currentUrl = some url := by
  rcases h.url_cases with ⟨hsame, _⟩ | ⟨_, _, _, hupdates, _⟩
  · rw [hsame]
    rcases h.mem_updates ht with hold | hnew
    · exact hshown.located agent since url hold
    · cases hnew with
      | located _ hurl => exact hurl
  · rw [hupdates] at ht
    rcases hcalm with hsame | hnone
    · rw [hsame]
      exact hshown.located agent since url ht
    · exact absurd ht (hnone agent since url)

theorem stamped_step (hs : SpaceSound cfg s) (hshown : UrlsShown cfg s) (h : SpaceStep cfg s s')
    {agent : Agent} {since createdAt : Int} {url : Url}
    (ht : ⟨agent, since, .stamped url createdAt⟩ ∈ s'.updates) (hlt : s'.movedAt < createdAt) :
    s'.currentUrl = some url := by
  rcases h.url_cases with ⟨hsame, hmoved⟩ | ⟨hnow, _, _, hupdates, _⟩
  · rw [hsame]
    rcases h.mem_updates ht with hold | hnew
    · exact hshown.stamped agent since url createdAt hold (hmoved ▸ hlt)
    · cases hnew with
      | stamped hold _ _ => exact hshown.located agent since url hold
  · -- what was stamped before the URL was set is not newer than that
    rw [hupdates] at ht
    have hle := (hs.stamped agent since url createdAt ht).2
    omega

theorem url_step (hs : SpaceSound cfg s) (hshown : UrlsShown cfg s) (h : SpaceStep cfg s s')
    {info : AgentInfoSigned Agent SpaceId Url Sig} (hi : info ∈ s'.said)
    (halive : info.isTombstone = false) (hlt : s'.movedAt < info.createdAt) :
    info.url = s'.currentUrl := by
  rcases h.url_cases with ⟨hsame, hmoved⟩ | ⟨hnow, _, hsaid, _⟩
  · rw [hmoved] at hlt
    rw [hsame]
    rcases h.mem_said hi with hold | ⟨agent, since, url, _, ht, hsigned, _⟩ | ⟨agent, _, _, hsigned, _⟩
    · exact hshown.url info hold halive hlt
    · have hsigns := signInfo_signs hsigned
      rw [hsigns.createdAt] at hlt
      rw [hsigns.url]
      exact (hshown.stamped agent since url _ ht hlt).symm
    · have hdead := (signInfo_signs hsigned).isTombstone
      rw [halive] at hdead
      cases hdead
  · rw [hsaid] at hi
    have hle := (hs.said info hi).2.1
    omega

theorem due_step (htotal : cfg.signing.Total) (hs : SpaceSound cfg s) (hshown : UrlsShown cfg s)
    (h : SpaceStep cfg s s') {agent : Agent} (ha : agent ∈ s'.localAgents) :
    Due s' agent s'.movedAt := by
  rcases h.mem_localAgents ha with hbefore | ⟨_, _, _, rfl⟩
  · rcases h.url_cases with ⟨_, hmoved⟩ | ⟨_, hunlisted, _⟩
    · rw [hmoved]
      exact (hshown.due agent hbefore).step htotal hs h hbefore hshown.moved
    · exact .unlisted hunlisted
  · exact .joining List.mem_cons_self

theorem step (htotal : cfg.signing.Total) (hs : SpaceSound cfg s) (hshown : UrlsShown cfg s)
    (h : SpaceStep cfg s s') (hcalm : UrlCalm s s') : UrlsShown cfg s' where
  moved := hshown.moved_step h
  located := fun _ _ _ => hshown.located_step h hcalm
  stamped := fun _ _ _ _ => hshown.stamped_step hs h
  url := fun _ => hshown.url_step hs h
  due := fun _ => hshown.due_step htotal hs h

omit [DecidableEq Agent] in
theorem new (cfg : SpaceConfig Agent SpaceId Url Sig) (pruneInterval nowInst : Nat) (clock : Int) :
    UrlsShown cfg (LocalSpace.new pruneInterval nowInst clock) where
  moved := Int.le_refl _
  located := fun _ _ _ h => absurd h List.not_mem_nil
  stamped := fun _ _ _ _ h => absurd h List.not_mem_nil
  url := List.forall_mem_nil _
  due := List.forall_mem_nil _

end UrlsShown

/-- If the URL is never set while an update has read it and not yet taken its time stamp, then once
nothing is under way for a member of a space that has a URL, a live info of it in the peer store has
that URL. -/
theorem idle_url_shown (htotal : cfg.signing.Total) {pruneInterval nowInst : Nat} {clock : Int}
    (hrun : SpaceRun cfg UrlCalm (LocalSpace.new pruneInterval nowInst clock) s) {agent : Agent}
    (ha : agent ∈ s.localAgents) (hidle : Idle s agent) (hurl : s.currentUrl ≠ none)
    {st : AgentInfoSigned Agent SpaceId Url Sig} (hst : s.store.store.lookup agent = some st)
    (hlive : s.clock < st.expiresAt) : st.url = s.currentUrl := by
  rcases hrun.invariant (I := fun s => ArcsShown cfg s ∧ UrlsShown cfg s) (SpaceSound.new cfg _ _ _)
    ⟨ArcsShown.new cfg _ _ _, UrlsShown.new cfg _ _ _⟩
    (fun hs hshown h hcalm => ⟨hshown.1.step htotal hs h, hshown.2.step htotal hs h hcalm⟩) with
    ⟨hs, harcs, hurls⟩
  have hown := (hs.member agent ha).1
  have halive := (harcs.shown hs ha hidle hurl hst hlive).1
  rcases (hurls.due agent ha).said_of_idle hidle hurl with ⟨info, hi, hagent, hlt⟩
  have hle := hs.stored_newest hown hst hlive hi hagent (hidle.settled hs hi hagent)
  exact hurls.url st ((hs.stored agent st hst).2 hown) halive (Int.lt_of_lt_of_le hlt hle)

theorem idle_url_shown_sole : SpaceRun soleConfig UrlCalm soleStart soleShown ∧
    soleInfo.url = soleShown.currentUrl := by
  have hrun : SpaceRun soleConfig UrlCalm soleStart soleShown := by
    refine sole_run fun s s' h hearly => ?_
    rcases h.url_cases with ⟨hsame, _⟩ | ⟨_, hunlisted, _, hupdates, _⟩
    · exact Or.inl hsame
    · right
      intro agent since url ht
      rw [← hupdates, hearly.calm hunlisted] at ht
      cases ht
  exact ⟨hrun, idle_url_shown soleConfig_total hrun (by decide) soleShown_idle (by decide) rfl
    (by decide)⟩

/-! ## Agents that are gone -/

/-- No update of an agent is left to be stamped when its tombstone is signed. -/
def LeavesLast (s s' : LocalSpace Agent SpaceId Url Sig) : Prop :=
  ∀ agent info, ⟨agent, .signed info⟩ ∈ s'.leaves → ⟨agent, .signed info⟩ ∉ s.leaves →
    (∀ since, ⟨agent, since, .spawned⟩ ∉ s.updates) ∧
      ∀ since url, ⟨agent, since, .located url⟩ ∉ s.updates

/-- A tombstone of the agent is newer. -/
def Dominated (s : LocalSpace Agent SpaceId Url Sig) (agent : Agent) (createdAt : Int) : Prop :=
  ∃ tombstone ∈ s.said, tombstone.agent = agent ∧ tombstone.isTombstone = true ∧
    createdAt < tombstone.createdAt

/-- Nothing that an agent has said or is about to say is newer than its tombstone. -/
structure Buried (s : LocalSpace Agent SpaceId Url Sig) (agent : Agent) : Prop where
  callback : s.callback agent = false
  spawned : ∀ since, ⟨agent, since, .spawned⟩ ∉ s.updates
  located : ∀ since url, ⟨agent, since, .located url⟩ ∉ s.updates
  stamped : ∀ since url createdAt, ⟨agent, since, .stamped url createdAt⟩ ∈ s.updates →
    Dominated s agent createdAt
  said : ∀ info ∈ s.said, info.agent = agent → info.isTombstone = false →
    Dominated s agent info.createdAt

theorem Dominated.step (h : SpaceStep cfg s s') {agent : Agent} {createdAt : Int}
    (hdom : Dominated s agent createdAt) : Dominated s' agent createdAt := by
  rcases hdom with ⟨tombstone, hmem, hrest⟩
  exact ⟨tombstone, h.said_kept hmem, hrest⟩

/-- An agent that is out has no callback that a step could register. -/
theorem callback_out (hs : SpaceSound cfg s) (h : SpaceStep cfg s s') {agent : Agent}
    (hout : agent ∉ s.localAgents) (hcallback : s.callback agent = false) :
    s'.callback agent = false := by
  cases hafter : s'.callback agent with
  | false => rfl
  | true =>
      rcases h.callback_cases hafter with hbefore | hjoining
      · rw [hcallback] at hbefore
        cases hbefore
      · exact absurd (hs.joining agent hjoining) hout

theorem Buried.step (hs : SpaceSound cfg s) (h : SpaceStep cfg s s') {agent : Agent}
    (hout : agent ∉ s.localAgents) (hburied : Buried s agent) : Buried s' agent where
  callback := callback_out hs h hout hburied.callback
  spawned := by
    intro since ht
    rcases h.mem_updates ht with hold | hnew
    · exact hburied.spawned since hold
    · cases hnew with
      | spawned _ hcallback =>
          rw [hburied.callback] at hcallback
          cases hcallback
  located := by
    intro since url ht
    rcases h.mem_updates ht with hold | hnew
    · exact hburied.located since url hold
    · cases hnew with
      | located hold _ => exact hburied.spawned since hold
  stamped := by
    intro since url createdAt ht
    rcases h.mem_updates ht with hold | hnew
    · exact (hburied.stamped since url createdAt hold).step h
    · cases hnew with
      -- an update that is about to be stamped would outdate the tombstone: there is none
      | stamped hold _ _ => exact absurd hold (hburied.located since url)
  said := by
    intro info hi hagent halive
    rcases h.mem_said hi with hold | ⟨signer, since, url, _, ht, hsigned, _⟩ | ⟨_, _, _, hsigned, _⟩
    · exact (hburied.said info hold hagent halive).step h
    · have hsigns := signInfo_signs hsigned
      have hsame : signer = agent := hsigns.agent.symm.trans hagent
      subst hsame
      rw [hsigns.createdAt]
      exact (hburied.stamped since url _ ht).step h
    · have hdead := (signInfo_signs hsigned).isTombstone
      rw [halive] at hdead
      cases hdead

/-- How far an agent that is out has been buried. -/
inductive Burial (s : LocalSpace Agent SpaceId Url Sig) (agent : Agent) : Prop
  | removed (h : ⟨agent, .removed⟩ ∈ s.leaves)
  | silenced (h : ⟨agent, .silenced⟩ ∈ s.leaves) (hcallback : s.callback agent = false)
  | buried (h : Buried s agent)

omit [DecidableEq Agent] in
theorem Burial.new (pruneInterval nowInst : Nat) (clock : Int) (agent : Agent) :
    Burial (.new pruneInterval nowInst clock : LocalSpace Agent SpaceId Url Sig) agent :=
  .buried ⟨rfl, fun _ => List.not_mem_nil, fun _ _ => List.not_mem_nil,
    fun _ _ _ h => absurd h List.not_mem_nil, List.forall_mem_nil _⟩

/-- A tombstone that is signed when no update is left to be stamped buries the agent. -/
theorem buried_of_signed (hs : SpaceSound cfg s) (h : SpaceStep cfg s s') {agent : Agent}
    (hout : agent ∉ s.localAgents) (hcallback : s.callback agent = false)
    (hspawned : ∀ since, ⟨agent, since, .spawned⟩ ∉ s.updates)
    (hlocated : ∀ since url, ⟨agent, since, .located url⟩ ∉ s.updates)
    {tombstone : AgentInfoSigned Agent SpaceId Url Sig} (hmem : tombstone ∈ s'.said)
    (hagent : tombstone.agent = agent) (hdead : tombstone.isTombstone = true)
    (hnew : s.clock < tombstone.createdAt) : Buried s' agent := by
  -- the tombstone is later than everything stamped so far
  have hdominated : ∀ createdAt, createdAt ≤ s.clock → Dominated s' agent createdAt :=
    fun createdAt hle => ⟨tombstone, hmem, hagent, hdead, Int.lt_of_le_of_lt hle hnew⟩
  refine ⟨callback_out hs h hout hcallback, ?_, ?_, ?_, ?_⟩
  · intro since ht
    rcases h.mem_updates ht with hold | hfresh
    · exact hspawned since hold
    · cases hfresh with
      | spawned _ hcalled =>
          rw [hcallback] at hcalled
          cases hcalled
  · intro since url ht
    rcases h.mem_updates ht with hold | hfresh
    · exact hlocated since url hold
    · cases hfresh with
      | located hold _ => exact hspawned since hold
  · intro since url createdAt ht
    rcases h.mem_updates ht with hold | hfresh
    · exact hdominated createdAt (hs.stamped agent since url createdAt hold).2
    · cases hfresh with
      | stamped hold _ _ => exact absurd hold (hlocated since url)
  · intro info hi hsame halive
    rcases h.mem_said hi with hold | ⟨_, since, url, _, ht, hsigned, _⟩ | ⟨_, _, _, hsigned, _⟩
    · exact hdominated info.createdAt (hs.said info hold).2.1
    · rw [(signInfo_signs hsigned).createdAt]
      exact hdominated _ (hs.stamped _ since url _ ht).2
    · have hother := (signInfo_signs hsigned).isTombstone
      rw [halive] at hother
      cases hother

theorem Burial.step (htotal : cfg.signing.Total) (hs : SpaceSound cfg s)
    (hburial : ∀ agent, agent ∉ s.localAgents → Burial s agent) (h : SpaceStep cfg s s')
    (hlast : LeavesLast s s') {agent : Agent} (hout : agent ∉ s'.localAgents) : Burial s' agent := by
  by_cases hbefore : agent ∈ s.localAgents
  · rcases h.localAgents_kept hbefore with hkept | ⟨hremoved, _⟩
    · exact absurd hkept hout
    · exact .removed hremoved
  -- the agent was out before: its leave is at some stage of its burial, and goes on from there
  · cases hburial agent hbefore with
    | removed hc =>
        rcases h.leaves_kept hc with hkept | hfurther
        · exact .removed hkept
        · cases hfurther with
          | silenced hcallback hnext => exact .silenced hnext hcallback
    | silenced hc hcallback =>
        rcases h.leaves_kept hc with hkept | hfurther
        · exact .silenced hkept (callback_out hs h hbefore hcallback)
        · cases hfurther with
          | signed hlt hsigned hsaid hnext =>
              have hsigns := signInfo_signs hsigned
              rename_i now info
              have hnew : s.clock < info.createdAt := by
                rw [hsigns.createdAt]
                exact hlt
              have hfresh : ⟨agent, .signed info⟩ ∉ s.leaves := by
                intro hold
                have hle := (hs.said info (hs.left agent info hold).1).2.1
                omega
              rcases hlast agent info hnext hfresh with ⟨hspawned, hlocated⟩
              exact .buried (buried_of_signed hs h hbefore hcallback hspawned hlocated hsaid
                hsigns.agent hsigns.isTombstone hnew)
          | failed hfailed => exact (htotal.no_fault hfailed).elim
    | buried hburied => exact .buried (hburied.step hs h hbefore)

/-- If no update of an agent is left to be stamped when its tombstone is signed, then once the agent
has left the peer store has at most a tombstone of it, or an info that is expired. -/
theorem left_agent_gone (htotal : cfg.signing.Total) {pruneInterval nowInst : Nat} {clock : Int}
    (hrun : SpaceRun cfg LeavesLast (LocalSpace.new pruneInterval nowInst clock) s) {agent : Agent}
    (hown : cfg.own agent) (hout : agent ∉ s.localAgents) (hleft : ∀ stage, ⟨agent, stage⟩ ∉ s.leaves)
    {st : AgentInfoSigned Agent SpaceId Url Sig} (hst : s.store.store.lookup agent = some st) :
    st.isTombstone = true ∨ st.expiresAt ≤ s.clock := by
  rcases hrun.invariant (I := fun s => ∀ agent, agent ∉ s.localAgents → Burial s agent)
    (SpaceSound.new cfg _ _ _) (fun agent _ => Burial.new _ _ _ agent)
    (fun hs hburial h hlast _ => Burial.step htotal hs hburial h hlast) with ⟨hs, hburial⟩
  cases hburial agent hout with
  | removed hc => exact absurd hc (hleft _)
  | silenced hc _ => exact absurd hc (hleft _)
  | buried hburied =>
      rcases hs.stored agent st hst with ⟨hagent, hsaid⟩
      by_contra hnot
      rcases not_or.mp hnot with ⟨halive, hlive⟩
      rcases hburied.said st (hsaid hown) hagent (by simpa using halive) with
        ⟨tombstone, hmem, htomb, hdead, hlt⟩
      -- the newer tombstone is not held by any call, so something as new is stored
      have hsettled : Settled s.clock s.store tombstone := by
        rcases hs.settled tombstone hmem with (⟨holder, since, ht⟩ | ⟨holder, hc⟩) | hsettled
        · rw [(hs.signed holder since tombstone ht).2.2.1] at hdead
          cases hdead
        · rw [← (hs.left holder tombstone hc).2.1, htomb] at hc
          exact absurd hc (hleft _)
        · exact hsettled
      have hle := hs.stored_newest hown hst (Int.not_le.mp hlive) hmem htomb hsettled
      omega

/-- The tombstone that the agent signs when it leaves. -/
def soleTombstone : AgentInfoSigned Nat Nat Nat Unit where
  agent := 0
  space := 0
  createdAt := 1
  expiresAt := 1 + infoLifetime
  isTombstone := true
  url := none
  storageArc := .empty
  encoded := ""
  signature := ()

/-- How far the agent has left that had just joined. -/
def soleLeaving (stage : LeaveStage Nat Nat Nat Unit) (clock : Int)
    (said : List (AgentInfoSigned Nat Nat Nat Unit)) : LocalSpace Nat Nat Nat Unit :=
  { ((soleStart.joinAdd 0).joinRegister 0).leaveRemove 0 with
    callback := Function.update ((soleStart.joinAdd 0).joinRegister 0).callback 0 false
    leaves := [⟨0, stage⟩], clock := clock, said := said }

/-- Its tombstone is inserted. -/
def soleLeft : LocalSpace Nat Nat Nat Unit :=
  { soleLeaving .silenced 1 [soleTombstone] with
    leaves := []
    store := (soleStart.store.insert ((soleLeaving .silenced 1 []).env (fun _ => .ok false) 0)
      [soleTombstone]).1 }

theorem left_agent_gone_sole : SpaceRun soleConfig LeavesLast soleStart soleLeft ∧
    soleLeft.store.store.lookup 0 = some soleTombstone ∧
    (soleTombstone.isTombstone = true ∨ soleTombstone.expiresAt ≤ soleLeft.clock) := by
  have hnext : ∀ {s} s', SpaceRun soleConfig LeavesLast soleStart s → SpaceStep soleConfig s s' →
      s.updates = [] → SpaceRun soleConfig LeavesLast soleStart s' := by
    intro s s' hrun h hnone
    refine hrun.tail ⟨h, fun agent info _ _ => ?_⟩
    rw [hnone]
    exact ⟨fun _ => List.not_mem_nil, fun _ _ => List.not_mem_nil⟩
  have h₁ := hnext (soleStart.joinAdd 0) .refl
    (.joinAdded _ trivial List.not_mem_nil (List.forall_mem_nil _)) rfl
  have h₂ := hnext ((soleStart.joinAdd 0).joinRegister 0) h₁ (.joinRegistered _ List.mem_cons_self) rfl
  have h₃ := hnext (((soleStart.joinAdd 0).joinRegister 0).leaveRemove 0) h₂
    (.leaveRemoved _ List.mem_cons_self (by decide)) rfl
  have h₄ := hnext (soleLeaving .silenced 0 []) h₃ (.leaveSilenced _ ⟨[], [], rfl, rfl⟩) rfl
  have h₅ := hnext (soleLeaving (.signed soleTombstone) 1 [soleTombstone]) h₄
    (.leaveSigned _ (show (0 : Int) < 1 by decide) rfl ⟨[], [], rfl, rfl⟩) rfl
  have hrun := hnext soleLeft h₅ (.leaveInserted _ (fun _ => .ok false) 0 rfl ⟨[], [], rfl, rfl⟩) rfl
  exact ⟨hrun, rfl, left_agent_gone soleConfig_total hrun trivial
    (show (0 : Nat) ∉ soleLeft.localAgents by decide) (fun _ => List.not_mem_nil) rfl⟩

end Core
end Kitsune2
