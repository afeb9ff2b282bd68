import Kitsune2.Core.ShownInfos

/-!
# Re-signing — the info of a member does not lapse

A pass looks at every member from time to time, and calls the callback of one whose info is about to
expire.  If the passes come often enough and the updates do not take too long, each info is replaced
before it expires.
-/

namespace Kitsune2
namespace Core

open Api Lib SpaceStep

variable {Agent SpaceId Url Sig : Type} [DecidableEq Agent]
variable {cfg : SpaceConfig Agent SpaceId Url Sig} {s s' : LocalSpace Agent SpaceId Url Sig}
variable {period delay : Nat}

/-! ## Keeping time -/

/-- A member whose join has finished. -/
structure Member (s : LocalSpace Agent SpaceId Url Sig) (agent : Agent) : Prop where
  mem : agent ∈ s.localAgents
  joined : agent ∉ s.joining

/-- No member has gone unseen for longer than `period`, and nothing that was asked for has taken longer
than `delay`. -/
structure Timely (period delay : Nat) (s : LocalSpace Agent SpaceId Url Sig) : Prop where
  checked : ∀ agent, Member s agent → s.clock ≤ s.checkedAt agent + period
  owed : ∀ agent since, (agent, since) ∈ s.owed → s.clock ≤ since + delay
  updates : ∀ agent since stage, ⟨agent, since, stage⟩ ∈ s.updates → s.clock ≤ since + delay

/-- Every state that is reached keeps time. -/
def KeepsTime (period delay : Nat) (_ s' : LocalSpace Agent SpaceId Url Sig) : Prop :=
  Timely period delay s'

/-- There is time for a pass and an update before an info expires, and an info that an update signs is
good for longer than a pass looks ahead. -/
structure LeavesTime (cfg : SpaceConfig Agent SpaceId Url Sig) (period delay : Nat) : Prop where
  pass : period + delay ≤ cfg.reSignExpireTime
  update : cfg.reSignExpireTime + delay < infoLifetime

/-- An update of an agent is under way, and will be done before the info expires. -/
def Pending (delay : Nat) (s : LocalSpace Agent SpaceId Url Sig) (agent : Agent)
    (st : AgentInfoSigned Agent SpaceId Url Sig) : Prop :=
  ∃ since, ((agent, since) ∈ s.owed ∨ ∃ stage, ⟨agent, since, stage⟩ ∈ s.updates) ∧
    since + delay < st.expiresAt

/-- The next pass that sees the agent is in time, or an update is. -/
def Good (cfg : SpaceConfig Agent SpaceId Url Sig) (delay : Nat)
    (s : LocalSpace Agent SpaceId Url Sig) (agent : Agent)
    (st : AgentInfoSigned Agent SpaceId Url Sig) : Prop :=
  s.checkedAt agent + cfg.reSignExpireTime < st.expiresAt ∨ Pending delay s agent st

omit [DecidableEq Agent] in
theorem Good.live (hin : LeavesTime cfg period delay) (htimely : Timely period delay s) {agent : Agent}
    (hmember : Member s agent) {st : AgentInfoSigned Agent SpaceId Url Sig}
    (hgood : Good cfg delay s agent st) : s.clock < st.expiresAt := by
  rcases hgood with hchecked | ⟨since, howed | ⟨stage, ht⟩, hlt⟩
  · have hle := htimely.checked agent hmember
    have hpass := hin.pass
    omega
  · have hle := htimely.owed agent since howed
    omega
  · have hle := htimely.updates agent since stage ht
    omega

/-! ## The invariant -/

structure Lasting (cfg : SpaceConfig Agent SpaceId Url Sig) (delay : Nat)
    (s : LocalSpace Agent SpaceId Url Sig) : Prop where
  pass : ∀ cutoff agents, s.pass = some (cutoff, agents) → cutoff ≤ s.clock + cfg.reSignExpireTime
  checked : ∀ agent, s.checkedAt agent ≤ s.clock
  joined : ∀ agent, s.joinedAt agent ≤ s.clock
  urlOf : ∀ agent since stage, ⟨agent, since, stage⟩ ∈ s.updates → stage ≠ .spawned →
    s.currentUrl ≠ none
  url : ∀ info ∈ s.said, info.isTombstone = false → s.currentUrl ≠ none
  alive : ∀ info ∈ s.said, Member s info.agent → s.joinedAt info.agent < info.createdAt →
    info.isTombstone = false
  shown : ∀ info ∈ s.said, Member s info.agent → s.joinedAt info.agent < info.createdAt →
    Held s info ∨ ∃ st, s.store.store.lookup info.agent = some st ∧ info.createdAt ≤ st.createdAt
  good : ∀ agent, Member s agent → ∀ st, s.store.store.lookup agent = some st →
    s.joinedAt agent < st.createdAt → Good cfg delay s agent st

namespace Lasting

theorem pass_step (hlast : Lasting cfg delay s) (h : SpaceStep cfg s s') {cutoff : Int}
    {agents : List Agent} (hp : s'.pass = some (cutoff, agents)) :
    cutoff ≤ s'.clock + cfg.reSignExpireTime := by
  have hclock := h.clock_le
  rcases h.pass_cases hp with ⟨agents₀, hold⟩ | rfl
  · have hle := hlast.pass cutoff agents₀ hold
    omega
  · omega

/-- A pass that sees an agent has begun before. -/
theorem checked_le (hlast : Lasting cfg delay s) (h : SpaceStep cfg s s') (agent : Agent) :
    s'.checkedAt agent ≤ s.clock := by
  rcases h.checked_cases agent with hsame | ⟨_, rfl⟩ | ⟨cutoff, agents, hpass, hnow, _⟩
  · rw [hsame]
    exact hlast.checked agent
  · exact Int.le_of_eq (Function.update_self _ _ _)
  · have hle := hlast.pass cutoff agents hpass
    omega

theorem joined_step (hlast : Lasting cfg delay s) (h : SpaceStep cfg s s') (agent : Agent) :
    s'.joinedAt agent ≤ s'.clock := by
  have hclock := h.clock_le
  rcases h.joined_cases agent with hsame | ⟨_, rfl⟩
  · have hle := hlast.joined agent
    omega
  · exact Int.le_of_eq (Function.update_self _ _ _)

theorem url_kept (h : SpaceStep cfg s s') (hurl : s.currentUrl ≠ none) : s'.currentUrl ≠ none := by
  rcases h.url_cases with ⟨hsame, _⟩ | ⟨_, _, _, _, url, hset⟩
  · rwa [hsame]
  · rw [hset]
    exact Option.some_ne_none url

theorem urlOf_step (hlast : Lasting cfg delay s) (h : SpaceStep cfg s s') {agent : Agent}
    {since : Int} {stage : UpdateStage Agent SpaceId Url Sig}
    (ht : ⟨agent, since, stage⟩ ∈ s'.updates) (hstage : stage ≠ .spawned) : s'.currentUrl ≠ none := by
  apply url_kept h
  rcases h.mem_updates ht with hold | hnew
  · exact hlast.urlOf agent since stage hold hstage
  · cases hnew with
    | spawned _ _ => exact absurd rfl hstage
    | located _ hurl =>
        rw [hurl]
        exact Option.some_ne_none _
    | stamped hold _ _ => exact hlast.urlOf agent since _ hold (by simp)
    | signed hold _ _ => exact hlast.urlOf agent since _ hold (by simp)

theorem url_step (hlast : Lasting cfg delay s) (h : SpaceStep cfg s s')
    {info : AgentInfoSigned Agent SpaceId Url Sig} (hi : info ∈ s'.said)
    (halive : info.isTombstone = false) : s'.currentUrl ≠ none := by
  apply url_kept h
  rcases h.mem_said hi with hold | ⟨agent, since, url, _, ht, _⟩ | ⟨_, _, _, hsigned, _⟩
  · exact hlast.url info hold halive
  · exact hlast.urlOf agent since _ ht (by simp)
  · have hdead := (signInfo_signs hsigned).isTombstone
    rw [halive] at hdead
    cases hdead

/-- An info that a member has said since it joined was said before the step by that member, or the step
has signed it. -/
theorem member_before (h : SpaceStep cfg s s') {agent : Agent}
    {createdAt : Int} (hmember : Member s' agent) (hlt : s'.joinedAt agent < createdAt)
    (hle : createdAt ≤ s.clock) : Member s agent ∧ s.joinedAt agent < createdAt := by
  have hnot : ¬ (agent ∈ s.joining ∧ s' = s.joinRegister agent) := by
    rintro ⟨_, rfl⟩
    have hnow : (s.joinRegister agent).joinedAt agent = s.clock := Function.update_self _ _ _
    omega
  have hjoined : agent ∉ s.joining := by
    intro hjoining
    rcases h.joining_kept hjoining with hkept | hregister
    · exact hmember.joined hkept
    · exact hnot ⟨hjoining, hregister⟩
  refine ⟨⟨?_, hjoined⟩, ?_⟩
  · rcases h.mem_localAgents hmember.mem with hold | ⟨_, _, _, rfl⟩
    · exact hold
    · exact absurd List.mem_cons_self hmember.joined
  · rcases h.joined_cases agent with hsame | hregister
    · rwa [hsame] at hlt
    · exact absurd hregister hnot

theorem alive_step (hs : SpaceSound cfg s) (hlast : Lasting cfg delay s) (h : SpaceStep cfg s s')
    {info : AgentInfoSigned Agent SpaceId Url Sig} (hi : info ∈ s'.said)
    (hmember : Member s' info.agent) (hlt : s'.joinedAt info.agent < info.createdAt) :
    info.isTombstone = false := by
  rcases h.mem_said hi with hold | ⟨_, _, _, _, _, hsigned, _⟩ | ⟨agent, hc, _, hsigned, _, heq⟩
  · rcases member_before h hmember hlt (hs.said info hold).2.1 with ⟨hbefore, hlt'⟩
    exact hlast.alive info hold hbefore hlt'
  · exact (signInfo_signs hsigned).isTombstone
  · have hagent : info.agent = agent := (signInfo_signs hsigned).agent
    have hin : info.agent ∈ s.localAgents := by
      have hmem := hmember.mem
      rwa [heq] at hmem
    rw [hagent] at hin
    exact absurd hin (hs.leaves agent _ hc).2

/-- The info that an update holds is good for longer than a pass looks ahead. -/
theorem expires_late (hin : LeavesTime cfg period delay) (htimely : Timely period delay s)
    (hs : SpaceSound cfg s) {agent : Agent} {since : Int} {info : AgentInfoSigned Agent SpaceId Url Sig}
    (ht : ⟨agent, since, .signed info⟩ ∈ s.updates) :
    s.clock + cfg.reSignExpireTime < info.expiresAt := by
  rcases hs.signed agent since info ht with ⟨hsaid, _, _, hle⟩
  have hexp := (hs.said info hsaid).2.2
  have htime := htimely.updates agent since _ ht
  have hupdate := hin.update
  omega

/-- What comes of an update that a step takes further: it goes on, or it has put into the store an info
that is good for longer than a pass looks ahead. -/
theorem update_further (htotal : cfg.signing.Total) (hin : LeavesTime cfg period delay)
    (htimely : Timely period delay s) (hs : SpaceSound cfg s) (h : SpaceStep cfg s s')
    (hurl : s.currentUrl ≠ none) {agent : Agent} {since : Int}
    {stage : UpdateStage Agent SpaceId Url Sig} (ht : ⟨agent, since, stage⟩ ∈ s.updates) :
    (∃ stage, ⟨agent, since, stage⟩ ∈ s'.updates) ∨
      ∃ st, s'.store.store.lookup agent = some st ∧
        s.clock + cfg.reSignExpireTime < st.createdAt + infoLifetime := by
  rcases h.updates_kept ht with hkept | hadvanced
  · exact Or.inl ⟨stage, hkept⟩
  · cases hadvanced with
    | nowhere hnone => exact absurd hnone hurl
    | located _ hnext => exact Or.inl ⟨_, hnext⟩
    | stamped _ hnext => exact Or.inl ⟨_, hnext⟩
    | signed _ _ hnext => exact Or.inl ⟨_, hnext⟩
    | failed hfailed => exact (htotal.no_fault hfailed).elim
    | inserted hsettled =>
        have hlate := expires_late hin htimely hs ht
        rcases hs.signed agent since _ ht with ⟨hsaid, hagent, _, _⟩
        have hexp := (hs.said _ hsaid).2.2
        rcases hsettled with hexpired | ⟨st, hst, hle⟩
        · omega
        · rw [hagent] at hst
          exact Or.inr ⟨st, hst, by omega⟩

/-- What is stored of a member stays good while it is stored. -/
theorem good_kept (htotal : cfg.signing.Total) (hin : LeavesTime cfg period delay)
    (htimely : Timely period delay s) (hs : SpaceSound cfg s) (hlast : Lasting cfg delay s)
    (h : SpaceStep cfg s s') {agent : Agent} (hmember : Member s agent)
    {st : AgentInfoSigned Agent SpaceId Url Sig} (hsaid : st ∈ s.said) (halive : st.isTombstone = false)
    (hst : s'.store.store.lookup agent = some st) (hgood : Good cfg delay s agent st) :
    Good cfg delay s' agent st := by
  have hexp := (hs.said st hsaid).2.2
  have hchecked := hlast.checked_le h agent
  rcases hgood with hseen | ⟨since, hpending, hlt⟩
  · rcases h.checked_cases agent with hsame | ⟨hjoining, _⟩ |
      ⟨cutoff, agents, hpass, hnow, howed | ⟨st', hst', hlate⟩⟩
    · left
      rwa [hsame]
    · exact absurd hjoining hmember.joined
    · -- the pass has found an info that is about to expire, and there is time for an update
      have htime := htimely.checked agent hmember
      have hlong := hin.pass
      exact Or.inr ⟨s.clock, Or.inl howed, by omega⟩
    · rw [hst] at hst'
      cases hst'
      left
      omega
  · have hupdate : ∀ stage, ⟨agent, since, stage⟩ ∈ s.updates → Good cfg delay s' agent st := by
      intro stage ht
      rcases update_further htotal hin htimely hs h (hlast.url st hsaid halive) ht with
        hnext | ⟨st', hst', hlate⟩
      · exact Or.inr ⟨since, Or.inr hnext, hlt⟩
      · rw [hst] at hst'
        cases hst'
        left
        omega
    rcases hpending with howed | ⟨stage, ht⟩
    · rcases h.owed_kept howed with hkept | hspawned
      · exact Or.inr ⟨since, Or.inl hkept, hlt⟩
      · have hcallback := (hs.member agent hmember.mem).2.resolve_left hmember.joined
        exact Or.inr ⟨since, Or.inr ⟨_, hspawned hcallback⟩, hlt⟩
    · exact hupdate stage ht

/-- What has been shown since a member joined is live. -/
theorem shown_live (hin : LeavesTime cfg period delay) (htimely : Timely period delay s)
    (hlast : Lasting cfg delay s) {agent : Agent} (hmember : Member s agent) {createdAt : Int}
    (hlt : s.joinedAt agent < createdAt) {st : AgentInfoSigned Agent SpaceId Url Sig}
    (hst : s.store.store.lookup agent = some st) (hle : createdAt ≤ st.createdAt) :
    s.clock < st.expiresAt :=
  (hlast.good agent hmember st hst (Int.lt_of_lt_of_le hlt hle)).live hin htimely hmember

theorem shown_step (hin : LeavesTime cfg period delay) (htimely : Timely period delay s)
    (hs : SpaceSound cfg s) (hlast : Lasting cfg delay s) (h : SpaceStep cfg s s')
    {info : AgentInfoSigned Agent SpaceId Url Sig} (hi : info ∈ s'.said)
    (hmember : Member s' info.agent) (hlt : s'.joinedAt info.agent < info.createdAt) :
    Held s' info ∨
      ∃ st, s'.store.store.lookup info.agent = some st ∧ info.createdAt ≤ st.createdAt := by
  rcases h.mem_said hi with hold | ⟨agent, since, _, _, _, _, hnext, _⟩ | ⟨agent, _, _, _, hnext, _⟩
  · rcases member_before h hmember hlt (hs.said info hold).2.1 with ⟨hbefore, hlt'⟩
    rcases hlast.shown info hold hbefore hlt' with (⟨agent, since, ht⟩ | ⟨agent, hc⟩) | ⟨st, hst, hle⟩
    · rcases h.updates_kept ht with hkept | hadvanced
      · exact Or.inl (Or.inl ⟨agent, since, hkept⟩)
      · cases hadvanced with
        | inserted hsettled =>
            have hlate := expires_late hin htimely hs ht
            rcases hsettled with hexpired | hstored
            · omega
            · exact Or.inr hstored
    · have hagent := (hs.left agent info hc).2.1
      rw [hagent] at hbefore
      exact absurd hbefore.mem (hs.leaves agent _ hc).2
    · have hlive := hlast.shown_live hin htimely hbefore hlt' hst hle
      rcases h.renewed fun info => hs.held_said with ⟨given, hrenewed, _⟩
      rcases hrenewed.kept _ st hst hlive with ⟨st', hst', hle'⟩
      exact Or.inr ⟨st', hst', Int.le_trans hle hle'⟩
  · exact Or.inl (Or.inl ⟨agent, since, hnext⟩)
  · exact Or.inl (Or.inr ⟨agent, hnext⟩)

theorem good_step (htotal : cfg.signing.Total) (hin : LeavesTime cfg period delay)
    (htimely : Timely period delay s) (hs : SpaceSound cfg s) (hlast : Lasting cfg delay s)
    (h : SpaceStep cfg s s') {agent : Agent} (hmember : Member s' agent)
    {st : AgentInfoSigned Agent SpaceId Url Sig} (hst : s'.store.store.lookup agent = some st)
    (hlt : s'.joinedAt agent < st.createdAt) : Good cfg delay s' agent st := by
  have hown := (hs.step h |>.member agent hmember.mem).1
  rcases h.renewed fun info => hs.held_said with ⟨given, hrenewed, hgiven⟩
  have hsaid : st ∈ s.said := by
    rcases hrenewed.new agent st hst with hold | ⟨hmem, rfl, _⟩
    · exact (hs.stored agent st hold).2 hown
    · exact hgiven st hmem hown
  have hagent := ((hs.step h).stored agent st hst).1
  rcases member_before h hmember hlt (hs.said st hsaid).2.1 with ⟨hbefore, hlt'⟩
  subst hagent
  have halive := hlast.alive st hsaid hbefore hlt'
  rcases hrenewed.new _ st hst with hold | ⟨_, _, hbeats⟩
  · exact good_kept htotal hin htimely hs hlast h hbefore hsaid halive hst
      (hlast.good st.agent hbefore st hold hlt')
  · -- what comes in new is held by its own update, as otherwise something as new was stored
    rcases hlast.shown st hsaid hbefore hlt' with (⟨agent, since, ht⟩ | ⟨agent, hc⟩) | ⟨st₀, hst₀, hle⟩
    · have hsame := (hs.signed agent since st ht).2.1
      subst hsame
      have hlate := expires_late hin htimely hs ht
      have hchecked := hlast.checked_le h st.agent
      left
      omega
    · have hsame := (hs.left agent st hc).2.1
      subst hsame
      exact absurd hbefore.mem (hs.leaves _ _ hc).2
    · have hlive := hlast.shown_live hin htimely hbefore hlt' hst₀ hle
      have hnewer := hbeats st₀ hst₀ hlive
      omega

theorem step (htotal : cfg.signing.Total) (hin : LeavesTime cfg period delay)
    (htimely : Timely period delay s) (hs : SpaceSound cfg s) (hlast : Lasting cfg delay s)
    (h : SpaceStep cfg s s') : Lasting cfg delay s' where
  pass := fun _ _ => hlast.pass_step h
  checked := fun agent => Int.le_trans (hlast.checked_le h agent) h.clock_le
  joined := hlast.joined_step h
  urlOf := fun _ _ _ => hlast.urlOf_step h
  url := fun _ => hlast.url_step h
  alive := fun _ => hlast.alive_step hs h
  shown := fun _ => shown_step hin htimely hs hlast h
  good := fun _ hmember _ => good_step htotal hin htimely hs hlast h hmember

theorem new (cfg : SpaceConfig Agent SpaceId Url Sig) (delay pruneInterval nowInst : Nat)
    (clock : Int) : Lasting cfg delay (LocalSpace.new pruneInterval nowInst clock) where
  pass := fun _ _ h => by cases h
  checked := fun _ => Int.le_refl _
  joined := fun _ => Int.le_refl _
  urlOf := fun _ _ _ h => absurd h List.not_mem_nil
  url := List.forall_mem_nil _
  alive := List.forall_mem_nil _
  shown := List.forall_mem_nil _
  good := fun _ h => absurd h.mem List.not_mem_nil

end Lasting

omit [DecidableEq Agent] in
theorem Timely.new (period delay pruneInterval nowInst : Nat) (clock : Int) :
    Timely period delay
      (.new pruneInterval nowInst clock : LocalSpace Agent SpaceId Url Sig) where
  checked := fun _ h => absurd h.mem List.not_mem_nil
  owed := fun _ _ h => absurd h List.not_mem_nil
  updates := fun _ _ _ h => absurd h List.not_mem_nil

end Core
end Kitsune2
