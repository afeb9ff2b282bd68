import Kitsune2.Bootstrap.PutServed
import Mathlib.Data.List.Dedup
import Mathlib.Data.List.Perm.Subperm

/-!
# Newest word — what a space holds for one agent

A stored info is compared with the next one of its agent, but a tombstone leaves nothing to compare
with: an older info that arrives after it, replayed or pushed again after a failure, is taken for
the agent's first.  As long as no info meets that gap, and every word of the agent is written into
the linked object, the space follows the agent's newest word.
-/

namespace Kitsune2
namespace Bootstrap

variable {Agent SpaceId Sig : Type} [DecidableEq Agent] [DecidableEq SpaceId] [DecidableEq Sig]

/-! ## Room for every agent -/

omit [DecidableEq SpaceId] [DecidableEq Sig] in
theorem evictedBy_eq_none {maxEntries : Nat} {now : Int}
    {parses : ParsedEntry Agent SpaceId Sig → Bool} {newInfo : Option (ParsedEntry Agent SpaceId Sig)}
    {list : List (ParsedEntry Agent SpaceId Sig)} (hone : OnePerAgent list)
    (hshort : list.length < maxEntries) :
    evictedBy maxEntries now parses newInfo list = none := by
  rw [evictedBy_filter_parses]
  cases newInfo with
  | none =>
      simp [evictedBy, sweep_prune]
  | some newP =>
      rcases (hone.filter parses).sweep_cases now newP with ⟨_, _, _, _, _, _, hsweep⟩ | ⟨_, hsweep⟩
      · simp [evictedBy, hsweep]
      · have hread : (list.filter parses).length ≤ list.length := List.length_filter_le _ _
        have hle : (unexpired now (list.filter parses)).length ≤ (list.filter parses).length :=
          List.length_filter_le _ _
        have hroom : ¬ maxEntries ≤ (unexpired now (list.filter parses)).length := by omega
        simp [evictedBy, hsweep, hroom]

/-! ## A list no tombstone outdates -/

/-- If no tombstone outdates what a list holds for an agent, and an info of the agent that meets no
stored one is not outdated either, then the same is true after the update, also of a tombstone the
update brings. -/
theorem Updated.not_outdated {maxEntries : Nat} {now : Int}
    {newInfo : Option (ParsedEntry Agent SpaceId Sig)}
    {list list' : List (ParsedEntry Agent SpaceId Sig)}
    (h : Updated maxEntries now list newInfo list') (hone : OnePerAgent list) {agent : Agent}
    (applied : ParsedEntry Agent SpaceId Sig → Prop)
    (hlist : ∀ e ∈ list, e.agent = agent → ∀ t, applied t → t.createdAt ≤ e.createdAt)
    (hgap : ∀ info, newInfo = some info → info.agent = agent → info.isTombstone = false →
      (∀ e ∈ list, e.agent ≠ agent) → ∀ t, applied t → t.createdAt ≤ info.createdAt)
    {e t : ParsedEntry Agent SpaceId Sig} (he : e ∈ list') (hagent : e.agent = agent)
    (ht : applied t ∨ (newInfo = some t ∧ t.agent = agent ∧ t.isTombstone = true)) :
    t.createdAt ≤ e.createdAt := by
  rcases h.mem he with hold | ⟨hnew, hinfo⟩
  · rcases ht with ht | ⟨htNew, htAgent, htomb⟩
    · exact hlist e hold hagent t ht
    · -- the tombstone is being written: it would have deleted an older info
      by_contra hlt
      subst htNew
      refine h.cleared htomb ?_ e he (hagent.trans htAgent.symm)
      intro e' he' hagent'
      rw [hone.eq_of_agent he' hold (hagent'.trans (htAgent.trans hagent.symm))]
      exact Int.not_le.mp hlt
  · rcases ht with ht | ⟨htNew, _, htomb⟩
    · by_cases hstored : ∃ e' ∈ list, e'.agent = agent
      · -- the info was compared with a stored one, which no tombstone outdates
        rcases hstored with ⟨e', he', hagent'⟩
        have hold := hlist e' he' hagent' t ht
        by_cases heq : e' = e
        · rwa [heq] at hold
        · subst hnew
          have hlt : e'.createdAt < e.createdAt := by
            by_contra hge
            exact h.refused he' (hagent'.trans hagent.symm) heq (Int.not_lt.mp hge) he
          exact Int.le_trans hold (Int.le_of_lt hlt)
      · have hnone : ∀ e' ∈ list, e'.agent ≠ agent :=
          fun e' he' hagent' => hstored ⟨e', he', hagent'⟩
        exact hgap e hnew hagent hinfo hnone t ht
    · rw [hnew, Option.some.injEq] at htNew
      rw [htNew, htomb] at hinfo
      cases hinfo

namespace Server

variable {verify : Agent → String → Sig → Bool} {maxEntries : Nat} {agent : Agent} {sp : SpaceId}

/-- The agents that have put something into a space. -/
def agentsOf (s : Server Agent SpaceId Sig) (sp : SpaceId) : List Agent :=
  ((s.written.filter fun e => e.space = sp).map fun e => e.agent).dedup

omit [DecidableEq Sig] in
theorem mem_agentsOf {s : Server Agent SpaceId Sig} {e : ParsedEntry Agent SpaceId Sig}
    (h : e ∈ s.written) : e.agent ∈ s.agentsOf e.space := by
  simp only [agentsOf, List.mem_dedup, List.mem_map, List.mem_filter, decide_eq_true_eq]
  exact ⟨e, ⟨h, rfl⟩, rfl⟩

omit [DecidableEq Sig] in
/-- An object holds at most one info for each agent of its space. -/
theorem Inv.length_le_agentsOf {s : Server Agent SpaceId Sig} (hinv : Inv s) {ref : Nat}
    {space : Space Agent SpaceId Sig} (hget : s.spaceMap.spaces[ref]? = some space) :
    space.readable.length ≤ (s.agentsOf space.spaceId).length := by
  have hsub : (space.readable.map fun e => e.agent) ⊆ s.agentsOf space.spaceId := by
    intro a ha
    rcases List.mem_map.mp ha with ⟨e, he, rfl⟩
    have hstored := hinv.stored hget e he
    exact hstored.2 ▸ mem_agentsOf hstored.1
  have hle := (List.Nodup.subperm space.onePerAgent hsub).length_le
  rwa [List.length_map] at hle

omit [DecidableEq Sig] in
/-- With fewer agents than the limit nobody is evicted. -/
theorem Inv.not_evicts {s : Server Agent SpaceId Sig} (hinv : Inv s)
    (hroom : (s.agentsOf sp).length < maxEntries) {x : ParsedEntry Agent SpaceId Sig}
    (hspace : x.space = sp) (event : ServerEvent Agent SpaceId Sig) :
    ¬ Evicts maxEntries x s event := by
  cases event with
  | tick _ =>
      exact fun h => h
  | putFinds _ =>
      exact fun h => h
  | pruneFinds _ =>
      exact fun h => h
  | writes call now parses =>
      rintro ⟨hlink, hevicted⟩
      rcases hinv.linked x.space call.ref hlink with ⟨space, hget, hid⟩
      have hlen := hinv.length_le_agentsOf hget
      rw [hid, hspace] at hlen
      rw [SpaceMap.readable_of_getElem? hget,
        evictedBy_eq_none space.onePerAgent (Nat.lt_of_le_of_lt hlen hroom)] at hevicted
      cases hevicted

theorem Step.agentsOf_le {s s' : Server Agent SpaceId Sig} {event : ServerEvent Agent SpaceId Sig}
    (hstep : Step verify maxEntries s event s') (sp : SpaceId) :
    (s.agentsOf sp).length ≤ (s'.agentsOf sp).length := by
  have hsub : s.agentsOf sp ⊆ s'.agentsOf sp := by
    intro a ha
    simp only [agentsOf, List.mem_dedup, List.mem_map, List.mem_filter, decide_eq_true_eq] at ha
    rcases ha with ⟨e, ⟨he, hspace⟩, rfl⟩
    exact hspace ▸ mem_agentsOf (hstep.written_mono he)
  exact (List.Nodup.subperm (List.nodup_dedup _) hsub).length_le

/-! ## The steps that keep to the agent's newest word -/

/-- The tombstones an agent has put into a space. -/
def Tombstoned (agent : Agent) (sp : SpaceId) (s : Server Agent SpaceId Sig)
    (t : ParsedEntry Agent SpaceId Sig) : Prop :=
  t ∈ s.written ∧ t.agent = agent ∧ t.space = sp ∧ t.isTombstone = true

/-- A word of the agent is written into the linked object, and an info that finds nothing of the
agent there is not older than a tombstone the agent has put before. -/
def WordInOrder (agent : Agent) (sp : SpaceId) (s : Server Agent SpaceId Sig)
    (call : UpdateCall Agent SpaceId Sig) : Prop :=
  ∀ info, call.newInfo = some info → info.agent = agent → info.space = sp →
    s.spaceMap.map.lookup sp = some call.ref ∧
      (info.isTombstone = false → (∀ e ∈ s.spaceMap.readable call.ref, e.agent ≠ agent) →
        ∀ t, Tombstoned agent sp s t → t.createdAt ≤ info.createdAt)

/-- A walk over the linked object can read what it holds for the agent. -/
def AgentParses (agent : Agent) (sp : SpaceId) (s : Server Agent SpaceId Sig)
    (call : UpdateCall Agent SpaceId Sig) (parses : ParsedEntry Agent SpaceId Sig → Bool) : Prop :=
  s.spaceMap.map.lookup sp = some call.ref →
    ∀ e ∈ s.spaceMap.readable call.ref, e.agent = agent → parses e = true

/-- The agent's words are written in order, and what the space holds for the agent can be read. -/
def Orderly (agent : Agent) (sp : SpaceId) (s : Server Agent SpaceId Sig) :
    ServerEvent Agent SpaceId Sig → Prop
  | .writes call _ parses => WordInOrder agent sp s call ∧ AgentParses agent sp s call parses
  | _ => True

/-- What is served for the agent is no older than any tombstone it has put. -/
def NoneBuried (agent : Agent) (sp : SpaceId) (s : Server Agent SpaceId Sig) : Prop :=
  ∀ e ref, ServedAt e ref s → e.agent = agent → e.space = sp →
    ∀ t, Tombstoned agent sp s t → t.createdAt ≤ e.createdAt

/-- Every other word of the agent that has been put is older. -/
def IsNewest (n : ParsedEntry Agent SpaceId Sig) (s : Server Agent SpaceId Sig) : Prop :=
  ∀ y ∈ s.written, y.space = n.space → y.agent = n.agent → y ≠ n → y.createdAt < n.createdAt

/-- The agent's newest word is served if it is an info that has not expired. -/
def NewestServed (agent : Agent) (sp : SpaceId) (s : Server Agent SpaceId Sig) : Prop :=
  ∀ n ∈ s.written, n.agent = agent → n.space = sp → n.isTombstone = false →
    s.clock < n.expiresAt → IsNewest n s → ∃ ref, ServedAt n ref s

theorem IsNewest.noNewer {n : ParsedEntry Agent SpaceId Sig} {s : Server Agent SpaceId Sig}
    (h : IsNewest n s) : NoNewer n s := by
  intro y hy hspace hagent
  by_cases heq : y = n
  · exact Int.le_of_eq (congrArg _ heq)
  · exact Int.le_of_lt (h y hy hspace hagent heq)

theorem IsNewest.of_step {n : ParsedEntry Agent SpaceId Sig} {s s' : Server Agent SpaceId Sig}
    {event : ServerEvent Agent SpaceId Sig} (h : IsNewest n s')
    (hstep : Step verify maxEntries s event s') : IsNewest n s :=
  fun y hy => h y (hstep.written_mono hy)

theorem mem_written_cases {s : Server Agent SpaceId Sig} {call : UpdateCall Agent SpaceId Sig}
    {now : Int} {parses : ParsedEntry Agent SpaceId Sig → Bool} {e : ParsedEntry Agent SpaceId Sig}
    (h : e ∈ (s.finishUpdate maxEntries call now parses).written) :
    e ∈ s.written ∨ (call.newInfo = some e ∧
      (s.spaceMap.write maxEntries now parses call.ref call.newInfo).1 = true) := by
  cases hok : (s.spaceMap.write maxEntries now parses call.ref call.newInfo).1 with
  | true =>
      rw [written_finishUpdate_of_returned hok] at h
      rcases List.mem_append.mp h with hnew | hold
      · exact Or.inr ⟨Option.mem_toList.mp hnew, rfl⟩
      · exact Or.inl hold
  | false =>
      simp only [finishUpdate, hok, Bool.false_eq_true, if_false] at h
      exact Or.inl h

omit [DecidableEq Agent] [DecidableEq Sig] in
/-- Finding an object serves nothing that was not served before. -/
theorem ServedAt.of_startUpdate {e : ParsedEntry Agent SpaceId Sig} {ref : Nat}
    {s : Server Agent SpaceId Sig} {spaceId : SpaceId}
    {newInfo : Option (ParsedEntry Agent SpaceId Sig)}
    (h : ServedAt e ref (s.startUpdate spaceId newInfo)) : ServedAt e ref s := by
  have hmem : e ∈ s.spaceMap.readable ref := SpaceMap.mem_readable_of_find h.2
  rcases SpaceMap.lookup_of_find h.1 with hlink | hempty
  · exact ⟨hlink, hmem⟩
  · have hmem' : e ∈ (s.spaceMap.find spaceId newInfo).1.readable ref := h.2
    rw [hempty] at hmem'
    cases hmem'

theorem NoneBuried.finishUpdate {s : Server Agent SpaceId Sig} (h : NoneBuried agent sp s)
    (hinv : Inv s) {call : UpdateCall Agent SpaceId Sig} (hcall : call ∈ s.calls) {now : Int}
    {parses : ParsedEntry Agent SpaceId Sig → Bool}
    (hok : Orderly agent sp s (.writes call now parses)) :
    NoneBuried agent sp (s.finishUpdate maxEntries call now parses) := by
  rintro e ref ⟨hlink, hmem⟩ hagent hspace t ⟨ht, htAgent, htSpace, htomb⟩
  replace hlink : s.spaceMap.map.lookup e.space = some ref := by
    simpa [Server.finishUpdate] using hlink
  by_cases hne : call.ref = ref
  · subst hne
    rcases hinv.readable_cases hcall now parses with ⟨_, hupdated⟩ | ⟨hfailed, hsame⟩
    · refine hupdated.not_outdated ((s.spaceMap.onePerAgent_readable call.ref).filter parses)
        (Tombstoned agent sp s) ?_ ?_ hmem hagent ?_
      · intro e' he' hagent'
        have he' := List.mem_of_mem_filter he'
        have hspace' := (hinv.space_of_linked hlink he').2
        exact h e' call.ref ⟨hspace' ▸ hlink, he'⟩ hagent' (hspace'.trans hspace)
      · intro info hinfo hagent' htombInfo hnone
        have hspace' : info.space = sp := by
          rw [hinv.addressed hcall hinfo, hinv.call_space_of_linked hcall hlink, hspace]
        refine (hok.1 info hinfo hagent' hspace').2 htombInfo fun e' he' hagentE => ?_
        -- the walk can read what the object holds for the agent
        have hparses := hok.2 (hspace ▸ hlink) e' he' hagentE
        exact hnone e' (List.mem_filter.mpr ⟨he', hparses⟩) hagentE
      · rcases mem_written_cases ht with ht | ⟨htNew, _⟩
        · exact Or.inl ⟨ht, htAgent, htSpace, htomb⟩
        · exact Or.inr ⟨htNew, htAgent, htomb⟩
    · rw [hsame] at hmem
      rcases mem_written_cases ht with ht | ⟨_, hreturned⟩
      · exact h e call.ref ⟨hlink, hmem⟩ hagent hspace t ⟨ht, htAgent, htSpace, htomb⟩
      · rw [hfailed] at hreturned
        cases hreturned
  · have hserved : ServedAt e ref s := by
      rcases hinv.linked e.space ref hlink with ⟨space, hget, _⟩
      have hafter :=
        (SpaceMap.write_spaces_of_ne maxEntries now parses hne call.newInfo s.spaceMap).trans hget
      rw [Server.finishUpdate, SpaceMap.readable_of_getElem? hafter] at hmem
      exact ⟨hlink, by rwa [SpaceMap.readable_of_getElem? hget]⟩
    rcases mem_written_cases ht with ht | ⟨htNew, _⟩
    · exact h e ref hserved hagent hspace t ⟨ht, htAgent, htSpace, htomb⟩
    · -- an orderly word of the agent is written into the linked object
      have hlinked := (hok.1 t htNew htAgent htSpace).1
      rw [hspace, hlinked, Option.some.injEq] at hlink
      exact absurd hlink hne

theorem NoneBuried.step {s s' : Server Agent SpaceId Sig} {event : ServerEvent Agent SpaceId Sig}
    (h : NoneBuried agent sp s) (hinv : Inv s) (hok : Orderly agent sp s event)
    (hstep : Step verify maxEntries s event s') : NoneBuried agent sp s' := by
  cases hstep with
  | tick _ =>
      exact h
  | putFinds _ _ =>
      exact fun e ref hserved => h e ref hserved.of_startUpdate
  | pruneFinds =>
      exact fun e ref hserved => h e ref hserved.of_startUpdate
  | writes hcall _ =>
      exact h.finishUpdate hinv hcall hok

theorem NewestServed.step {s s' : Server Agent SpaceId Sig} {event : ServerEvent Agent SpaceId Sig}
    (h : NewestServed agent sp s) (hinv : Inv s) (hok : Orderly agent sp s event)
    (hroom : (s.agentsOf sp).length < maxEntries)
    (hstep : Step verify maxEntries s event s') : NewestServed agent sp s' := by
  intro n hn hagent hspace htomb hlive hnewest
  -- a newest word that was put before is served, and stays served
  by_cases hold : n ∈ s.written
  · have hlive' := Int.lt_of_le_of_lt hstep.clock_le hlive
    rcases h n hold hagent hspace htomb hlive' (hnewest.of_step hstep) with ⟨ref, hserved⟩
    have hspares : Spares maxEntries n s event := by
      refine ⟨hinv.not_evicts hroom hspace event, ?_⟩
      cases event with
      | writes call now parses =>
          rintro ⟨hlink, hunread⟩
          have hsame := Option.some.inj (hlink.symm.trans hserved.1)
          have hparses := hok.2 (hspace ▸ hlink) n (hsame ▸ hserved.2) hagent
          rw [hparses] at hunread
          cases hunread
      | tick _ => exact fun hfails => hfails
      | putFinds _ => exact fun hfails => hfails
      | pruneFinds _ => exact fun hfails => hfails
    exact ⟨ref, hserved.step hinv hstep hspares hlive hnewest.noNewer⟩
  · cases hstep with
    | tick _ =>
        exact absurd hn hold
    | putFinds _ _ =>
        exact absurd hn hold
    | pruneFinds =>
        exact absurd hn hold
    | @writes call now parses hcall hnow =>
        -- a newest word that is being put is written into the linked object and meets no tie
        rcases mem_written_cases hn with hn | ⟨hinfo, hreturned⟩
        · exact absurd hn hold
        · have hlink := (hok.1 n hinfo hagent hspace).1
          have hwrites : WritesLinked call parses n s := by
            refine ⟨?_, ?_⟩
            · rw [← hinv.addressed hcall hinfo, hspace]
              exact hlink
            · intro e he _ hagent' heq
              by_contra hne
              have hstored := hinv.space_of_linked hlink he
              have hlt := hnewest e (mem_written_finishUpdate hstored.1)
                (hstored.2.trans hspace.symm) hagent' hne
              omega
          exact ⟨call.ref, servedAt_of_writesLinked hinv hcall hinfo htomb hreturned
            (Int.lt_of_le_of_lt hnow hlive) hnewest.noNewer hwrites⟩

end Server
end Bootstrap
end Kitsune2
