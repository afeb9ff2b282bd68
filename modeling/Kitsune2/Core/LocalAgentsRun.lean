import Kitsune2.Core.LocalAgents

/-!
# Local agents, step by step — what a step can do to the store and to the calls

One lemma per component says what a step leaves of it and what it adds.  From these follows what holds
of every state that a space can reach.
-/

namespace Kitsune2
namespace Core

open Api Lib

variable {Agent SpaceId Url Sig : Type} [DecidableEq Agent]

/-! ## What a step leaves and what it adds -/

namespace SpaceStep

variable {cfg : SpaceConfig Agent SpaceId Url Sig} {s s' : LocalSpace Agent SpaceId Url Sig}

theorem clock_le (h : SpaceStep cfg s s') : s.clock ≤ s'.clock := by
  cases h with
  | passed h => exact h
  | leaveSigned hnow => exact Int.le_of_lt hnow
  | leaveFailed hnow => exact Int.le_of_lt hnow
  | stamped hnow => exact Int.le_of_lt hnow
  | _ => exact Int.le_refl _

/-- An update that a step begins or takes further. -/
inductive NewUpdate (cfg : SpaceConfig Agent SpaceId Url Sig) (s s' : LocalSpace Agent SpaceId Url Sig) :
    UpdateTask Agent SpaceId Url Sig → Prop
  | spawned {agent : Agent} {since : Int} (howed : (agent, since) ∈ s.owed)
      (hcallback : s.callback agent = true) : NewUpdate cfg s s' ⟨agent, since, .spawned⟩
  | located {agent : Agent} {since : Int} {url : Url} (hold : ⟨agent, since, .spawned⟩ ∈ s.updates)
      (hurl : s.currentUrl = some url) : NewUpdate cfg s s' ⟨agent, since, .located url⟩
  | stamped {agent : Agent} {since : Int} {url : Url} {now : Int}
      (hold : ⟨agent, since, .located url⟩ ∈ s.updates) (hlt : s.clock < now) (hnow : s'.clock = now) :
      NewUpdate cfg s s' ⟨agent, since, .stamped url now⟩
  | signed {agent : Agent} {since createdAt : Int} {url : Url}
      {info : AgentInfoSigned Agent SpaceId Url Sig}
      (hold : ⟨agent, since, .stamped url createdAt⟩ ∈ s.updates)
      (hsigned : signInfo cfg.signing (s.updateInfo cfg agent url createdAt) = .ok info)
      (hsaid : s'.said = info :: s.said) : NewUpdate cfg s s' ⟨agent, since, .signed info⟩

theorem mem_updates (h : SpaceStep cfg s s') {t : UpdateTask Agent SpaceId Url Sig}
    (ht : t ∈ s'.updates) : t ∈ s.updates ∨ NewUpdate cfg s s' t := by
  cases h with
  -- only the callback of an agent starts an update
  | invoked h =>
      rename_i agent since owed
      unfold LocalSpace.invokeCb at ht
      dsimp only at ht
      split at ht
      · rename_i hcallback
        rcases List.mem_cons.mp ht with rfl | hold
        · exact Or.inr (.spawned h.mem hcallback)
        · exact Or.inl hold
      · exact Or.inl ht
  -- the other steps move one update on, and end it without a current URL
  | located h =>
      rcases h.mem_cases ht with hold | hnew
      · exact Or.inl hold
      · cases hurl : s.currentUrl with
        | none =>
            rw [hurl] at hnew
            cases hnew
        | some url =>
            rw [hurl] at hnew
            cases List.mem_singleton.mp hnew
            exact Or.inr (.located h.mem hurl)
  | stamped hnow h =>
      rcases h.mem_cases ht with hold | hnew
      · exact Or.inl hold
      · cases List.mem_singleton.mp hnew
        exact Or.inr (.stamped h.mem hnow rfl)
  | signed hsigned h =>
      rcases h.mem_cases ht with hold | hnew
      · exact Or.inl hold
      · cases List.mem_singleton.mp hnew
        exact Or.inr (.signed h.mem hsigned rfl)
  | failed _ h => exact Or.inl ((h.mem_cases ht).resolve_right List.not_mem_nil)
  | inserted _ _ _ h => exact Or.inl ((h.mem_cases ht).resolve_right List.not_mem_nil)
  | _ => exact Or.inl ht

/-- An info is expired, or it is stored, or something newer of its agent is. -/
def Settled (clock : Int) (p : PeerStore Agent SpaceId Url Sig)
    (info : AgentInfoSigned Agent SpaceId Url Sig) : Prop :=
  info.expiresAt ≤ clock ∨
    ∃ st, p.store.lookup info.agent = some st ∧ info.createdAt ≤ st.createdAt

/-- What comes of an update that a step takes further. -/
inductive Advanced (cfg : SpaceConfig Agent SpaceId Url Sig) (s s' : LocalSpace Agent SpaceId Url Sig) :
    UpdateTask Agent SpaceId Url Sig → Prop
  | nowhere {agent : Agent} {since : Int} (hurl : s.currentUrl = none) :
      Advanced cfg s s' ⟨agent, since, .spawned⟩
  | located {agent : Agent} {since : Int} {url : Url} (hurl : s.currentUrl = some url)
      (hnext : ⟨agent, since, .located url⟩ ∈ s'.updates) :
      Advanced cfg s s' ⟨agent, since, .spawned⟩
  | stamped {agent : Agent} {since : Int} {url : Url} {now : Int} (hnow : s.clock < now)
      (hnext : ⟨agent, since, .stamped url now⟩ ∈ s'.updates) :
      Advanced cfg s s' ⟨agent, since, .located url⟩
  | signed {agent : Agent} {since createdAt : Int} {url : Url}
      {info : AgentInfoSigned Agent SpaceId Url Sig}
      (hsigned : signInfo cfg.signing (s.updateInfo cfg agent url createdAt) = .ok info)
      (hsaid : info ∈ s'.said) (hnext : ⟨agent, since, .signed info⟩ ∈ s'.updates) :
      Advanced cfg s s' ⟨agent, since, .stamped url createdAt⟩
  | failed {agent : Agent} {since createdAt : Int} {url : Url} {fault : Fault}
      (hfailed : signInfo cfg.signing (s.updateInfo cfg agent url createdAt) = .error fault) :
      Advanced cfg s s' ⟨agent, since, .stamped url createdAt⟩
  | inserted {agent : Agent} {since : Int} {info : AgentInfoSigned Agent SpaceId Url Sig}
      (hsettled : Settled s.clock s'.store info) : Advanced cfg s s' ⟨agent, since, .signed info⟩

theorem insert_settled (s : LocalSpace Agent SpaceId Url Sig) (isBlocked : Agent → Except Fault Bool)
    (nowInst : Nat) {info : AgentInfoSigned Agent SpaceId Url Sig}
    (hfree : isBlocked info.agent = .ok false) :
    Settled s.clock (s.insert (s.env isBlocked nowInst) [info]).store info :=
  (PeerStore.insert_settles s.store (s.env isBlocked nowInst) rfl hfree).imp_left Int.le_of_lt

theorem updates_kept (h : SpaceStep cfg s s') {t : UpdateTask Agent SpaceId Url Sig}
    (ht : t ∈ s.updates) : t ∈ s'.updates ∨ Advanced cfg s s' t := by
  cases h with
  | invoked h =>
      left
      unfold LocalSpace.invokeCb
      dsimp only
      split
      · exact List.mem_cons_of_mem _ ht
      · exact ht
  -- no URL yet: the update ends and is started anew when one is known
  | located h =>
      rcases h.kept ht with hkept | rfl
      · exact Or.inl hkept
      · right
        cases hurl : s.currentUrl with
        | none => exact .nowhere hurl
        | some url =>
            rw [hurl] at h
            exact .located hurl (h.new_mem List.mem_cons_self)
  | stamped hnow h =>
      rcases h.kept ht with hkept | rfl
      · exact Or.inl hkept
      · exact Or.inr (.stamped hnow (h.new_mem List.mem_cons_self))
  | signed hsigned h =>
      rcases h.kept ht with hkept | rfl
      · exact Or.inl hkept
      · exact Or.inr (.signed hsigned List.mem_cons_self (h.new_mem List.mem_cons_self))
  | failed hfailed h =>
      rcases h.kept ht with hkept | rfl
      · exact Or.inl hkept
      · exact Or.inr (.failed hfailed)
  | inserted isBlocked nowInst hfree h =>
      rcases h.kept ht with hkept | rfl
      · exact Or.inl hkept
      · exact Or.inr (.inserted (insert_settled s isBlocked nowInst hfree))
  | _ => exact Or.inl ht

/-! ### Leaving -/

/-- A call of `local_agent_leave` that a step begins or takes further. -/
inductive NewLeave (cfg : SpaceConfig Agent SpaceId Url Sig) (s s' : LocalSpace Agent SpaceId Url Sig) :
    LeaveCall Agent SpaceId Url Sig → Prop
  | removed {agent : Agent} (hin : agent ∈ s.localAgents) (hout : agent ∉ s'.localAgents) :
      NewLeave cfg s s' ⟨agent, .removed⟩
  | silenced {agent : Agent} (hold : ⟨agent, .removed⟩ ∈ s.leaves)
      (hcallback : s'.callback agent = false) : NewLeave cfg s s' ⟨agent, .silenced⟩
  | signed {agent : Agent} {now : Int} {info : AgentInfoSigned Agent SpaceId Url Sig}
      (hold : ⟨agent, .silenced⟩ ∈ s.leaves) (hlt : s.clock < now) (hnow : s'.clock = now)
      (hsigned : signInfo cfg.signing (LocalSpace.leaveInfo cfg agent now) = .ok info)
      (hsaid : s'.said = info :: s.said) : NewLeave cfg s s' ⟨agent, .signed info⟩

theorem mem_leaves (h : SpaceStep cfg s s') {c : LeaveCall Agent SpaceId Url Sig}
    (hc : c ∈ s'.leaves) : c ∈ s.leaves ∨ NewLeave cfg s s' c := by
  cases h with
  | leaveRemoved hin hjoined =>
      rcases List.mem_cons.mp hc with rfl | hold
      · exact Or.inr (.removed hin (by simp [LocalSpace.leaveRemove]))
      · exact Or.inl hold
  | leaveSilenced h =>
      rcases h.mem_cases hc with hold | hnew
      · exact Or.inl hold
      · cases List.mem_singleton.mp hnew
        exact Or.inr (.silenced h.mem (Function.update_self _ _ _))
  | leaveSigned hnow hsigned h =>
      rcases h.mem_cases hc with hold | hnew
      · exact Or.inl hold
      · cases List.mem_singleton.mp hnew
        exact Or.inr (.signed h.mem hnow rfl hsigned rfl)
  | leaveFailed _ _ h => exact Or.inl ((h.mem_cases hc).resolve_right List.not_mem_nil)
  | leaveInserted _ _ _ h => exact Or.inl ((h.mem_cases hc).resolve_right List.not_mem_nil)
  | _ => exact Or.inl hc

/-- What comes of a call of `local_agent_leave` that a step takes further. -/
inductive LeftFurther (cfg : SpaceConfig Agent SpaceId Url Sig)
    (s s' : LocalSpace Agent SpaceId Url Sig) : LeaveCall Agent SpaceId Url Sig → Prop
  | silenced {agent : Agent} (hcallback : s'.callback agent = false)
      (hnext : ⟨agent, .silenced⟩ ∈ s'.leaves) : LeftFurther cfg s s' ⟨agent, .removed⟩
  | signed {agent : Agent} {now : Int} {info : AgentInfoSigned Agent SpaceId Url Sig}
      (hlt : s.clock < now)
      (hsigned : signInfo cfg.signing (LocalSpace.leaveInfo cfg agent now) = .ok info)
      (hsaid : info ∈ s'.said) (hnext : ⟨agent, .signed info⟩ ∈ s'.leaves) :
      LeftFurther cfg s s' ⟨agent, .silenced⟩
  | failed {agent : Agent} {now : Int} {fault : Fault}
      (hfailed : signInfo cfg.signing (LocalSpace.leaveInfo cfg agent now) = .error fault) :
      LeftFurther cfg s s' ⟨agent, .silenced⟩
  | inserted {agent : Agent} {info : AgentInfoSigned Agent SpaceId Url Sig}
      (hsettled : Settled s.clock s'.store info) : LeftFurther cfg s s' ⟨agent, .signed info⟩

theorem leaves_kept (h : SpaceStep cfg s s') {c : LeaveCall Agent SpaceId Url Sig}
    (hc : c ∈ s.leaves) : c ∈ s'.leaves ∨ LeftFurther cfg s s' c := by
  cases h with
  | leaveRemoved => exact Or.inl (List.mem_cons_of_mem _ hc)
  | leaveSilenced h =>
      rcases h.kept hc with hkept | rfl
      · exact Or.inl hkept
      · exact Or.inr (.silenced (Function.update_self _ _ _) (h.new_mem List.mem_cons_self))
  | leaveSigned hnow hsigned h =>
      rcases h.kept hc with hkept | rfl
      · exact Or.inl hkept
      · exact Or.inr (.signed hnow hsigned List.mem_cons_self (h.new_mem List.mem_cons_self))
  | leaveFailed hnow hfailed h =>
      rcases h.kept hc with hkept | rfl
      · exact Or.inl hkept
      · exact Or.inr (.failed hfailed)
  | leaveInserted isBlocked nowInst hfree h =>
      rcases h.kept hc with hkept | rfl
      · exact Or.inl hkept
      · exact Or.inr (.inserted (insert_settled s isBlocked nowInst hfree))
  | _ => exact Or.inl hc

/-! ### What is signed, and what is stored -/

theorem said_kept (h : SpaceStep cfg s s') {info : AgentInfoSigned Agent SpaceId Url Sig}
    (hi : info ∈ s.said) : info ∈ s'.said := by
  cases h with
  | leaveSigned => exact List.mem_cons_of_mem _ hi
  | signed => exact List.mem_cons_of_mem _ hi
  | _ => exact hi

/-- What is signed is signed by an update or by an agent that leaves. -/
theorem mem_said (h : SpaceStep cfg s s') {info : AgentInfoSigned Agent SpaceId Url Sig}
    (hi : info ∈ s'.said) : info ∈ s.said ∨
      (∃ agent since url createdAt, ⟨agent, since, .stamped url createdAt⟩ ∈ s.updates ∧
        signInfo cfg.signing (s.updateInfo cfg agent url createdAt) = .ok info ∧
        ⟨agent, since, .signed info⟩ ∈ s'.updates ∧ s' = { s with
          updates := s'.updates, said := info :: s.said }) ∨
      ∃ agent, ⟨agent, .silenced⟩ ∈ s.leaves ∧ s.clock < s'.clock ∧
        signInfo cfg.signing (LocalSpace.leaveInfo cfg agent s'.clock) = .ok info ∧
        ⟨agent, .signed info⟩ ∈ s'.leaves ∧ s' = { s with
          clock := s'.clock, leaves := s'.leaves, said := info :: s.said } := by
  cases h with
  | leaveSigned hnow hsigned h =>
      rcases List.mem_cons.mp hi with rfl | hold
      · exact Or.inr (Or.inr ⟨_, h.mem, hnow, hsigned, h.new_mem List.mem_cons_self, rfl⟩)
      · exact Or.inl hold
  | signed hsigned h =>
      rcases List.mem_cons.mp hi with rfl | hold
      · exact Or.inr (Or.inl ⟨_, _, _, _, h.mem, hsigned, h.new_mem List.mem_cons_self, rfl⟩)
      · exact Or.inl hold
  | _ => exact Or.inl hi

/-- A call that holds the info has yet to insert it. -/
def Held (s : LocalSpace Agent SpaceId Url Sig) (info : AgentInfoSigned Agent SpaceId Url Sig) : Prop :=
  (∃ agent since, ⟨agent, since, .signed info⟩ ∈ s.updates) ∨ ∃ agent, ⟨agent, .signed info⟩ ∈ s.leaves

/-- What is inserted was signed here, if the agent is one of this node. -/
theorem renewed (h : SpaceStep cfg s s') (hheld : ∀ info, Held s info → info ∈ s.said) :
    ∃ given, PeerStore.Renewed s.clock given s.store s'.store ∧
      ∀ info ∈ given, cfg.own info.agent → info ∈ s.said := by
  cases h with
  | leaveInserted isBlocked nowInst _ h =>
      refine ⟨_, PeerStore.insert_renewed s.store (s.env isBlocked nowInst) _, fun info hi _ => ?_⟩
      cases List.mem_singleton.mp hi
      exact hheld _ (Or.inr ⟨_, h.mem⟩)
  | inserted isBlocked nowInst _ h =>
      refine ⟨_, PeerStore.insert_renewed s.store (s.env isBlocked nowInst) _, fun info hi _ => ?_⟩
      cases List.mem_singleton.mp hi
      exact hheld _ (Or.inl ⟨_, _, h.mem⟩)
  | received infos env hprune _ hown =>
      have hrenewed := PeerStore.insert_renewed s.store env infos
      rw [hprune] at hrenewed
      exact ⟨infos, hrenewed, hown⟩
  | passChecked isBlocked nowInst _ =>
      rename_i cutoff agent agents _
      exact ⟨[], PeerStore.get_renewed s.store (s.env isBlocked nowInst) agent _,
        List.forall_mem_nil _⟩
  | _ => exact ⟨[], PeerStore.Renewed.rfl, List.forall_mem_nil _⟩

/-! ### Members, callbacks and what is owed -/

theorem owed_kept (h : SpaceStep cfg s s') {agent : Agent} {since : Int}
    (ho : (agent, since) ∈ s.owed) : (agent, since) ∈ s'.owed ∨
      (s.callback agent = true → ⟨agent, since, .spawned⟩ ∈ s'.updates) := by
  cases h with
  | joinRegistered => exact Or.inl (List.mem_cons_of_mem _ ho)
  | arcSet => exact Or.inl (List.mem_cons_of_mem _ ho)
  | urlListed => exact Or.inl (List.mem_append_right _ ho)
  | invoked h =>
      rcases h.kept ho with hkept | heq
      · exact Or.inl hkept
      · cases heq
        right
        intro hcallback
        unfold LocalSpace.invokeCb
        dsimp only
        rw [if_pos hcallback]
        exact List.mem_cons_self
  | passChecked =>
      left
      dsimp only
      split
      · exact List.mem_cons_of_mem _ ho
      · exact ho
  | _ => exact Or.inl ho

theorem mem_owed (h : SpaceStep cfg s s') {agent : Agent} {since : Int}
    (ho : (agent, since) ∈ s'.owed) : (agent, since) ∈ s.owed ∨ since = s.clock := by
  -- an update comes to be owed when a join registers, an arc or the URL is set, or a pass asks
  -- for it
  cases h with
  | joinRegistered =>
      rcases List.mem_cons.mp ho with heq | hold
      · cases heq
        exact Or.inr rfl
      · exact Or.inl hold
  | arcSet =>
      rcases List.mem_cons.mp ho with heq | hold
      · cases heq
        exact Or.inr rfl
      · exact Or.inl hold
  | urlListed =>
      rcases List.mem_append.mp ho with hnew | hold
      · rcases List.mem_map.mp hnew with ⟨b, _, heq⟩
        cases heq
        exact Or.inr rfl
      · exact Or.inl hold
  | invoked h => exact Or.inl ((h.mem_cases ho).resolve_right List.not_mem_nil)
  | passChecked =>
      dsimp only at ho
      split at ho
      · rcases List.mem_cons.mp ho with heq | hold
        · cases heq
          exact Or.inr rfl
        · exact Or.inl hold
      · exact Or.inl ho
  | _ => exact Or.inl ho

/-- An agent is added by `local_agent_join` alone. -/
theorem mem_localAgents (h : SpaceStep cfg s s') {agent : Agent} (ha : agent ∈ s'.localAgents) :
    agent ∈ s.localAgents ∨ cfg.own agent ∧ agent ∉ s.localAgents ∧
      (∀ call ∈ s.leaves, call.agent ≠ agent) ∧ s' = s.joinAdd agent := by
  cases h with
  | joinAdded hown hout hleft =>
      rcases List.mem_cons.mp ha with rfl | hold
      · exact Or.inr ⟨hown, hout, hleft, rfl⟩
      · exact Or.inl hold
  | leaveRemoved => exact Or.inl (List.mem_filter.mp ha).1
  | _ => exact Or.inl ha

/-- An agent is removed by `local_agent_leave` alone. -/
theorem localAgents_kept (h : SpaceStep cfg s s') {agent : Agent} (ha : agent ∈ s.localAgents) :
    agent ∈ s'.localAgents ∨ ⟨agent, .removed⟩ ∈ s'.leaves ∧ s' = s.leaveRemove agent ∧
      agent ∉ s.joining := by
  cases h with
  | joinAdded => exact Or.inl (List.mem_cons_of_mem _ ha)
  | leaveRemoved hin hjoined =>
      rename_i gone
      by_cases heq : agent = gone
      · subst heq
        exact Or.inr ⟨List.mem_cons_self, rfl, hjoined⟩
      · exact Or.inl (List.mem_filter.mpr ⟨ha, by simpa using heq⟩)
  | _ => exact Or.inl ha

/-- The callback of an agent is registered when it joins. -/
theorem callback_cases (h : SpaceStep cfg s s') {agent : Agent} (hc : s'.callback agent = true) :
    s.callback agent = true ∨ agent ∈ s.joining := by
  cases h with
  | joinRegistered h =>
      rename_i b
      by_cases heq : agent = b
      · subst heq
        exact Or.inr h
      · left
        dsimp only [LocalSpace.joinRegister] at hc
        rwa [Function.update_of_ne heq] at hc
  | leaveSilenced h =>
      rename_i b leaves
      left
      dsimp only at hc
      by_cases heq : agent = b
      · subst heq
        rw [Function.update_self] at hc
        cases hc
      · rwa [Function.update_of_ne heq] at hc
  | _ => exact Or.inl hc

theorem mem_joining (h : SpaceStep cfg s s') {agent : Agent} (hj : agent ∈ s'.joining) :
    agent ∈ s.joining ∨ agent ∉ s.localAgents ∧ s' = s.joinAdd agent := by
  cases h with
  | joinAdded hown hout hleft =>
      rcases List.mem_cons.mp hj with rfl | hold
      · exact Or.inr ⟨hout, rfl⟩
      · exact Or.inl hold
  | joinRegistered => exact Or.inl (List.mem_filter.mp hj).1
  | _ => exact Or.inl hj

theorem joining_kept (h : SpaceStep cfg s s') {agent : Agent} (hj : agent ∈ s.joining) :
    agent ∈ s'.joining ∨ s' = s.joinRegister agent := by
  cases h with
  | joinAdded => exact Or.inl (List.mem_cons_of_mem _ hj)
  | joinRegistered h =>
      rename_i b
      by_cases heq : agent = b
      · subst heq
        exact Or.inr rfl
      · exact Or.inl (List.mem_filter.mpr ⟨hj, by simpa using heq⟩)
  | _ => exact Or.inl hj

/-- A callback is taken away from an agent that leaves. -/
theorem callback_kept (h : SpaceStep cfg s s') {agent : Agent} (hc : s.callback agent = true) :
    s'.callback agent = true ∨ ⟨agent, .removed⟩ ∈ s.leaves := by
  cases h with
  | joinRegistered h =>
      rename_i b
      left
      by_cases heq : agent = b
      · subst heq
        exact Function.update_self _ _ _
      · dsimp only [LocalSpace.joinRegister]
        rwa [Function.update_of_ne heq]
  | leaveSilenced h =>
      rename_i b leaves
      by_cases heq : agent = b
      · subst heq
        exact Or.inr h.mem
      · left
        dsimp only
        rwa [Function.update_of_ne heq]
  | _ => exact Or.inl hc

/-- Setting the arc of an agent is followed by a call of its callback. -/
theorem changed_cases (h : SpaceStep cfg s s') (agent : Agent) :
    (s'.changedAt agent = s.changedAt agent ∧ s'.cur agent = s.cur agent) ∨
      s'.changedAt agent = s.clock ∧ s'.said = s.said ∧
        ((agent, s.clock) ∈ s'.owed ∨ agent ∈ s'.joining) := by
  cases h with
  | joinAdded =>
      rename_i b _ _ _
      by_cases heq : agent = b
      · subst heq
        exact Or.inr ⟨Function.update_self _ _ _, rfl, Or.inr List.mem_cons_self⟩
      · exact Or.inl ⟨Function.update_of_ne heq _ _, Function.update_of_ne heq _ _⟩
  | arcSet b arc =>
      by_cases heq : agent = b
      · subst heq
        exact Or.inr ⟨Function.update_self _ _ _, rfl, Or.inl List.mem_cons_self⟩
      · exact Or.inl ⟨Function.update_of_ne heq _ _, Function.update_of_ne heq _ _⟩
  | _ => exact Or.inl ⟨rfl, rfl⟩

/-- Setting the URL is followed by calls of all callbacks. -/
theorem url_cases (h : SpaceStep cfg s s') :
    (s'.currentUrl = s.currentUrl ∧ s'.movedAt = s.movedAt) ∨
      s'.movedAt = s.clock ∧ 0 < s'.unlisted ∧ s'.said = s.said ∧ s'.updates = s.updates ∧
        ∃ url, s'.currentUrl = some url := by
  cases h with
  | urlSet url => exact Or.inr ⟨rfl, Nat.succ_pos _, rfl, rfl, url, rfl⟩
  | _ => exact Or.inl ⟨rfl, rfl⟩

theorem unlisted_kept (h : SpaceStep cfg s s') (hu : 0 < s.unlisted) :
    0 < s'.unlisted ∨ ∀ agent ∈ s.localAgents, (agent, s.clock) ∈ s'.owed := by
  cases h with
  | urlSet => exact Or.inl (Nat.succ_pos _)
  | urlListed =>
      right
      intro agent ha
      exact List.mem_append_left _ (List.mem_map.mpr ⟨agent, ha, rfl⟩)
  | _ => exact Or.inl hu

theorem joined_cases (h : SpaceStep cfg s s') (agent : Agent) :
    s'.joinedAt agent = s.joinedAt agent ∨ agent ∈ s.joining ∧ s' = s.joinRegister agent := by
  cases h with
  | joinRegistered h =>
      rename_i b
      by_cases heq : agent = b
      · subst heq
        exact Or.inr ⟨h, rfl⟩
      · exact Or.inl (Function.update_of_ne heq _ _)
  | _ => exact Or.inl rfl

/-- A pass that sees an agent finds an info that is good for longer, or calls the callback. -/
theorem checked_cases (h : SpaceStep cfg s s') (agent : Agent) :
    s'.checkedAt agent = s.checkedAt agent ∨ (agent ∈ s.joining ∧ s' = s.joinRegister agent) ∨
      ∃ cutoff agents, s.pass = some (cutoff, agents) ∧
        s'.checkedAt agent = cutoff - cfg.reSignExpireTime ∧
        ((agent, s.clock) ∈ s'.owed ∨
          ∃ st, s'.store.store.lookup agent = some st ∧ cutoff < st.expiresAt) := by
  cases h with
  | joinRegistered h =>
      rename_i b
      by_cases heq : agent = b
      · subst heq
        exact Or.inr (Or.inl ⟨h, rfl⟩)
      · exact Or.inl (Function.update_of_ne heq _ _)
  | passChecked isBlocked nowInst hpass =>
      rename_i cutoff b agents
      -- the pass asks for an update unless the live info outlasts the cutoff
      by_cases heq : agent = b
      · subst heq
        refine Or.inr (Or.inr ⟨cutoff, _, hpass, Function.update_self _ _ _, ?_⟩)
        dsimp only
        cases hgot : (s.store.get (s.env isBlocked nowInst) agent).2 with
        | none =>
            left
            simp
        | some st =>
            by_cases hle : st.expiresAt ≤ cutoff
            · left
              simp [hle]
            · exact Or.inr ⟨st, hgot, Int.not_le.mp hle⟩
      · exact Or.inl (Function.update_of_ne heq _ _)
  | _ => exact Or.inl rfl

theorem pass_cases (h : SpaceStep cfg s s') {cutoff : Int} {agents : List Agent}
    (hp : s'.pass = some (cutoff, agents)) :
    (∃ agents₀, s.pass = some (cutoff, agents₀)) ∨ cutoff = s.clock + cfg.reSignExpireTime := by
  cases h with
  | passBegun =>
      cases hp
      exact Or.inr rfl
  | passChecked isBlocked nowInst hpass =>
      cases hp
      exact Or.inl ⟨_, hpass⟩
  | passEnded => cases hp
  | _ => exact Or.inl ⟨agents, hp⟩

end SpaceStep

/-! ## What holds of every state -/

open SpaceStep

/-- What holds of every state that a space can reach. -/
structure SpaceSound (cfg : SpaceConfig Agent SpaceId Url Sig) (s : LocalSpace Agent SpaceId Url Sig) :
    Prop where
  owed : ∀ agent since, (agent, since) ∈ s.owed → since ≤ s.clock
  updates : ∀ agent since stage, ⟨agent, since, stage⟩ ∈ s.updates → cfg.own agent ∧ since ≤ s.clock
  stamped : ∀ agent since url createdAt, ⟨agent, since, .stamped url createdAt⟩ ∈ s.updates →
    since ≤ createdAt ∧ createdAt ≤ s.clock
  signed : ∀ agent since info, ⟨agent, since, .signed info⟩ ∈ s.updates →
    info ∈ s.said ∧ info.agent = agent ∧ info.isTombstone = false ∧ since ≤ info.createdAt
  left : ∀ agent info, ⟨agent, .signed info⟩ ∈ s.leaves →
    info ∈ s.said ∧ info.agent = agent ∧ info.isTombstone = true
  said : ∀ info ∈ s.said, cfg.own info.agent ∧ info.createdAt ≤ s.clock ∧
    info.expiresAt = info.createdAt + infoLifetime
  callback : ∀ agent, s.callback agent = true → cfg.own agent
  member : ∀ agent ∈ s.localAgents, cfg.own agent ∧ (agent ∈ s.joining ∨ s.callback agent = true)
  joining : ∀ agent ∈ s.joining, agent ∈ s.localAgents
  leaves : ∀ agent stage, ⟨agent, stage⟩ ∈ s.leaves → cfg.own agent ∧ agent ∉ s.localAgents
  changed : ∀ agent, s.changedAt agent ≤ s.clock
  stored : ∀ agent st, s.store.store.lookup agent = some st →
    st.agent = agent ∧ (cfg.own agent → st ∈ s.said)
  settled : ∀ info ∈ s.said, Held s info ∨ Settled s.clock s.store info

namespace SpaceSound

variable {cfg : SpaceConfig Agent SpaceId Url Sig} {s s' : LocalSpace Agent SpaceId Url Sig}

theorem held_said (hs : SpaceSound cfg s) {info : AgentInfoSigned Agent SpaceId Url Sig}
    (h : Held s info) : info ∈ s.said := by
  rcases h with ⟨agent, since, h⟩ | ⟨agent, h⟩
  · exact (hs.signed agent since info h).1
  · exact (hs.left agent info h).1

theorem new (cfg : SpaceConfig Agent SpaceId Url Sig) (pruneInterval nowInst : Nat) (clock : Int) :
    SpaceSound cfg (LocalSpace.new pruneInterval nowInst clock) where
  owed := fun _ _ h => absurd h List.not_mem_nil
  updates := fun _ _ _ h => absurd h List.not_mem_nil
  stamped := fun _ _ _ _ h => absurd h List.not_mem_nil
  signed := fun _ _ _ h => absurd h List.not_mem_nil
  left := fun _ _ h => absurd h List.not_mem_nil
  said := List.forall_mem_nil _
  callback := fun _ h => by cases h
  member := List.forall_mem_nil _
  joining := List.forall_mem_nil _
  leaves := fun _ _ h => absurd h List.not_mem_nil
  changed := fun _ => Int.le_refl _
  stored := fun _ _ h => by cases h
  settled := List.forall_mem_nil _

/-! ### The calls -/

theorem owed_step (hs : SpaceSound cfg s) (h : SpaceStep cfg s s') {agent : Agent} {since : Int}
    (ho : (agent, since) ∈ s'.owed) : since ≤ s'.clock := by
  have hclock := h.clock_le
  rcases h.mem_owed ho with hold | rfl
  · have hle := hs.owed agent since hold
    omega
  · exact hclock

theorem updates_step (hs : SpaceSound cfg s) (h : SpaceStep cfg s s') {agent : Agent} {since : Int}
    {stage : UpdateStage Agent SpaceId Url Sig} (ht : ⟨agent, since, stage⟩ ∈ s'.updates) :
    cfg.own agent ∧ since ≤ s'.clock := by
  have hbefore : cfg.own agent ∧ since ≤ s.clock := by
    rcases h.mem_updates ht with hold | hnew
    · exact hs.updates agent since stage hold
    · cases hnew with
      | spawned howed hcallback => exact ⟨hs.callback agent hcallback, hs.owed agent since howed⟩
      | located hold _ => exact hs.updates agent since _ hold
      | stamped hold _ _ => exact hs.updates agent since _ hold
      | signed hold _ _ => exact hs.updates agent since _ hold
  exact ⟨hbefore.1, Int.le_trans hbefore.2 h.clock_le⟩

theorem stamped_step (hs : SpaceSound cfg s) (h : SpaceStep cfg s s') {agent : Agent}
    {since createdAt : Int} {url : Url} (ht : ⟨agent, since, .stamped url createdAt⟩ ∈ s'.updates) :
    since ≤ createdAt ∧ createdAt ≤ s'.clock := by
  have hclock := h.clock_le
  rcases h.mem_updates ht with hold | hnew
  · have hle := hs.stamped agent since url createdAt hold
    omega
  · cases hnew with
    | stamped hold hlt hnow =>
        have hle := (hs.updates _ _ _ hold).2
        omega

theorem signed_step (hs : SpaceSound cfg s) (h : SpaceStep cfg s s') {agent : Agent} {since : Int}
    {info : AgentInfoSigned Agent SpaceId Url Sig} (ht : ⟨agent, since, .signed info⟩ ∈ s'.updates) :
    info ∈ s'.said ∧ info.agent = agent ∧ info.isTombstone = false ∧ since ≤ info.createdAt := by
  rcases h.mem_updates ht with hold | hnew
  · rcases hs.signed agent since info hold with ⟨hsaid, hrest⟩
    exact ⟨h.said_kept hsaid, hrest⟩
  · cases hnew with
    | signed hold hsigned hsaid =>
        have hsigns := signInfo_signs hsigned
        refine ⟨hsaid ▸ List.mem_cons_self, hsigns.agent, hsigns.isTombstone, ?_⟩
        rw [hsigns.createdAt]
        exact (hs.stamped _ _ _ _ hold).1

theorem left_step (hs : SpaceSound cfg s) (h : SpaceStep cfg s s') {agent : Agent}
    {info : AgentInfoSigned Agent SpaceId Url Sig} (hc : ⟨agent, .signed info⟩ ∈ s'.leaves) :
    info ∈ s'.said ∧ info.agent = agent ∧ info.isTombstone = true := by
  rcases h.mem_leaves hc with hold | hnew
  · rcases hs.left agent info hold with ⟨hsaid, hrest⟩
    exact ⟨h.said_kept hsaid, hrest⟩
  · cases hnew with
    | signed _ _ _ hsigned hsaid =>
        have hsigns := signInfo_signs hsigned
        exact ⟨hsaid ▸ List.mem_cons_self, hsigns.agent, hsigns.isTombstone⟩

theorem said_step (hs : SpaceSound cfg s) (h : SpaceStep cfg s s')
    {info : AgentInfoSigned Agent SpaceId Url Sig} (hi : info ∈ s'.said) :
    cfg.own info.agent ∧ info.createdAt ≤ s'.clock ∧
      info.expiresAt = info.createdAt + infoLifetime := by
  have hclock := h.clock_le
  rcases h.mem_said hi with hold | ⟨agent, since, url, createdAt, ht, hsigned, _, _⟩ |
    ⟨agent, hc, hlt, hsigned, _, _⟩
  · rcases hs.said info hold with ⟨hown, hle, hexp⟩
    exact ⟨hown, Int.le_trans hle hclock, hexp⟩
  · have hsigns := signInfo_signs hsigned
    have hle := (hs.stamped _ _ _ _ ht).2
    refine ⟨?_, ?_, ?_⟩
    · rw [hsigns.agent]
      exact (hs.updates _ _ _ ht).1
    · rw [hsigns.createdAt]
      exact Int.le_trans hle hclock
    · rw [hsigns.expiresAt, hsigns.createdAt]
      rfl
  · have hsigns := signInfo_signs hsigned
    refine ⟨?_, ?_, ?_⟩
    · rw [hsigns.agent]
      exact (hs.leaves _ _ hc).1
    · rw [hsigns.createdAt]
      exact Int.le_refl _
    · rw [hsigns.expiresAt, hsigns.createdAt]
      rfl

/-! ### Members -/

theorem callback_step (hs : SpaceSound cfg s) (h : SpaceStep cfg s s') {agent : Agent}
    (hc : s'.callback agent = true) : cfg.own agent := by
  rcases h.callback_cases hc with hold | hjoining
  · exact hs.callback agent hold
  · exact (hs.member agent (hs.joining agent hjoining)).1

theorem member_step (hs : SpaceSound cfg s) (h : SpaceStep cfg s s') {agent : Agent}
    (ha : agent ∈ s'.localAgents) :
    cfg.own agent ∧ (agent ∈ s'.joining ∨ s'.callback agent = true) := by
  rcases h.mem_localAgents ha with hold | ⟨hown, _, _, rfl⟩
  · rcases hs.member agent hold with ⟨hown, hjoining | hcallback⟩
    · rcases h.joining_kept hjoining with hkept | rfl
      · exact ⟨hown, Or.inl hkept⟩
      · exact ⟨hown, Or.inr (Function.update_self _ _ _)⟩
    · rcases h.callback_kept hcallback with hkept | hremoved
      · exact ⟨hown, Or.inr hkept⟩
      · exact absurd hold (hs.leaves _ _ hremoved).2
  · exact ⟨hown, Or.inl List.mem_cons_self⟩

theorem joining_step (hs : SpaceSound cfg s) (h : SpaceStep cfg s s') {agent : Agent}
    (hj : agent ∈ s'.joining) : agent ∈ s'.localAgents := by
  rcases h.mem_joining hj with hold | ⟨_, rfl⟩
  · rcases h.localAgents_kept (hs.joining agent hold) with hkept | ⟨_, _, hjoined⟩
    · exact hkept
    · exact absurd hold hjoined
  · exact List.mem_cons_self

theorem leaves_step (hs : SpaceSound cfg s) (h : SpaceStep cfg s s') {agent : Agent}
    {stage : LeaveStage Agent SpaceId Url Sig} (hc : ⟨agent, stage⟩ ∈ s'.leaves) :
    cfg.own agent ∧ agent ∉ s'.localAgents := by
  have hearlier : ∀ stage, ⟨agent, stage⟩ ∈ s.leaves → cfg.own agent ∧ agent ∉ s'.localAgents := by
    intro stage hc
    rcases hs.leaves agent stage hc with ⟨hown, hout⟩
    refine ⟨hown, fun hin => ?_⟩
    rcases h.mem_localAgents hin with hold | ⟨_, _, hfree, _⟩
    · exact hout hold
    · exact hfree _ hc rfl
  rcases h.mem_leaves hc with hold | hnew
  · exact hearlier stage hold
  · cases hnew with
    | removed hin hout => exact ⟨(hs.member agent hin).1, hout⟩
    | silenced hold _ => exact hearlier _ hold
    | signed hold _ _ _ _ => exact hearlier _ hold

theorem changed_step (hs : SpaceSound cfg s) (h : SpaceStep cfg s s') (agent : Agent) :
    s'.changedAt agent ≤ s'.clock := by
  have hclock := h.clock_le
  have hle := hs.changed agent
  rcases h.changed_cases agent with ⟨heq, _⟩ | ⟨heq, _⟩
  · omega
  · omega

/-! ### The store -/

theorem stored_step (hs : SpaceSound cfg s) (h : SpaceStep cfg s s') {agent : Agent}
    {st : AgentInfoSigned Agent SpaceId Url Sig} (hst : s'.store.store.lookup agent = some st) :
    st.agent = agent ∧ (cfg.own agent → st ∈ s'.said) := by
  rcases h.renewed fun info => hs.held_said with ⟨given, hrenewed, hgiven⟩
  rcases hrenewed.new agent st hst with hold | ⟨hmem, hagent, _⟩
  · rcases hs.stored agent st hold with ⟨hagent, hsaid⟩
    exact ⟨hagent, fun hown => h.said_kept (hsaid hown)⟩
  · subst hagent
    exact ⟨rfl, fun hown => h.said_kept (hgiven st hmem hown)⟩

/-- What is stored of an agent of this node expires by a rule. -/
theorem stored_expiresAt (hs : SpaceSound cfg s) {agent : Agent} (hown : cfg.own agent)
    {st : AgentInfoSigned Agent SpaceId Url Sig} (hst : s.store.store.lookup agent = some st) :
    st.expiresAt = st.createdAt + infoLifetime :=
  (hs.said st ((hs.stored agent st hst).2 hown)).2.2

/-- What is settled stays settled, as what beats an info expires after it. -/
theorem settled_kept (hs : SpaceSound cfg s) (h : SpaceStep cfg s s')
    {info : AgentInfoSigned Agent SpaceId Url Sig} (hi : info ∈ s.said)
    (hsettled : Settled s.clock s.store info) : Settled s'.clock s'.store info := by
  have hclock := h.clock_le
  rcases hs.said info hi with ⟨hown, _, hexp⟩
  rcases h.renewed fun info => hs.held_said with ⟨given, hrenewed, _⟩
  rcases hsettled with hexpired | ⟨st, hst, hle⟩
  · exact Or.inl (Int.le_trans hexpired hclock)
  · have hstexp := hs.stored_expiresAt hown hst
    by_cases hlive : s.clock < st.expiresAt
    · rcases hrenewed.kept _ st hst hlive with ⟨st', hst', hle'⟩
      exact Or.inr ⟨st', hst', Int.le_trans hle hle'⟩
    · left
      omega

theorem settled_step (hs : SpaceSound cfg s) (h : SpaceStep cfg s s')
    {info : AgentInfoSigned Agent SpaceId Url Sig} (hi : info ∈ s'.said) :
    Held s' info ∨ Settled s'.clock s'.store info := by
  have hclock := h.clock_le
  have hmono : Settled s.clock s'.store info → Settled s'.clock s'.store info :=
    fun hsettled => hsettled.imp_left fun hexp => Int.le_trans hexp hclock
  rcases h.mem_said hi with hold | ⟨agent, since, _, _, _, _, hnext, _⟩ | ⟨agent, _, _, _, hnext, _⟩
  · rcases hs.settled info hold with (⟨agent, since, ht⟩ | ⟨agent, hc⟩) | hsettled
    · rcases h.updates_kept ht with hkept | hadvanced
      · exact Or.inl (Or.inl ⟨agent, since, hkept⟩)
      · cases hadvanced with
        | inserted hsettled => exact Or.inr (hmono hsettled)
    · rcases h.leaves_kept hc with hkept | hfurther
      · exact Or.inl (Or.inr ⟨agent, hkept⟩)
      · cases hfurther with
        | inserted hsettled => exact Or.inr (hmono hsettled)
    · exact Or.inr (hs.settled_kept h hold hsettled)
  · exact Or.inl (Or.inl ⟨agent, since, hnext⟩)
  · exact Or.inl (Or.inr ⟨agent, hnext⟩)

/-- Every step keeps the invariant. -/
theorem step (hs : SpaceSound cfg s) (h : SpaceStep cfg s s') : SpaceSound cfg s' where
  owed := fun _ _ => hs.owed_step h
  updates := fun _ _ _ => hs.updates_step h
  stamped := fun _ _ _ _ => hs.stamped_step h
  signed := fun _ _ _ => hs.signed_step h
  left := fun _ _ => hs.left_step h
  said := fun _ => hs.said_step h
  callback := fun _ => hs.callback_step h
  member := fun _ => hs.member_step h
  joining := fun _ => hs.joining_step h
  leaves := fun _ _ => hs.leaves_step h
  changed := hs.changed_step h
  stored := fun _ _ => hs.stored_step h
  settled := fun _ => hs.settled_step h

end SpaceSound

end Core
end Kitsune2
