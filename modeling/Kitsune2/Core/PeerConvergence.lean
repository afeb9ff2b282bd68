import Mathlib.Data.List.MinMax
import Kitsune2.Core.PeerStore

/-!
# Peer convergence — the newest info wins, in the store and in the index

The store and the index of known peers apply one rule at two points of an insert: the index to the
whole batch before anything is filtered, the store info by info.  While no agent is blocked, no info
is expired and nothing is pruned, both end with the newest info of each agent, the first received
among equally new ones, however the infos are ordered, repeated and split into batches.
-/

namespace Kitsune2
namespace Core

open Api Lib

variable {Agent SpaceId Url Sig : Type} [DecidableEq Agent]

/-! ## The rule -/

/-- The infos of one agent, in the order in which they arrive. -/
def infosOf (agent : Agent) (infos : List (AgentInfoSigned Agent SpaceId Url Sig)) :
    List (AgentInfoSigned Agent SpaceId Url Sig) :=
  infos.filter fun info => info.agent = agent

theorem infosOf_cons (agent : Agent) (info : AgentInfoSigned Agent SpaceId Url Sig)
    (rest : List (AgentInfoSigned Agent SpaceId Url Sig)) :
    infosOf agent (info :: rest) =
      if info.agent = agent then info :: infosOf agent rest else infosOf agent rest := by
  simp [infosOf, List.filter_cons]

/-- The newest of some infos, the first of equally new ones. -/
def newest (infos : List (AgentInfoSigned Agent SpaceId Url Sig)) :
    Option (AgentInfoSigned Agent SpaceId Url Sig) :=
  @List.argmax _ Int Int.instLinearOrder.toPreorder Int.instLinearOrder.toDecidableLT
    (fun info => info.createdAt) infos

/-- What an info leaves of the info held before it: a strictly newer one replaces it. -/
def supersede (held : Option (AgentInfoSigned Agent SpaceId Url Sig))
    (info : AgentInfoSigned Agent SpaceId Url Sig) : Option (AgentInfoSigned Agent SpaceId Url Sig) :=
  List.argAux (fun b c => c.createdAt < b.createdAt) held info

omit [DecidableEq Agent] in
theorem foldl_supersede_none (infos : List (AgentInfoSigned Agent SpaceId Url Sig)) :
    infos.foldl supersede none = newest infos :=
  rfl

/-- What the index keeps of an info. -/
def knownEntry (info : AgentInfoSigned Agent SpaceId Url Sig) : Int × Option Url :=
  (info.createdAt, info.url)

omit [DecidableEq Agent] in
/-- Two lists with the same infos have the same newest one, if no two are equally new. -/
theorem newest_eq_of_mem_iff {infos infos' : List (AgentInfoSigned Agent SpaceId Url Sig)}
    (hmem : ∀ info, info ∈ infos ↔ info ∈ infos')
    (hdistinct : ∀ a ∈ infos, ∀ b ∈ infos, a.createdAt = b.createdAt → a = b) :
    newest infos = newest infos' := by
  cases h : newest infos with
  | none =>
      have hnil : infos = [] := List.argmax_eq_none.mp h
      have hnil' : infos' = [] := by
        apply List.eq_nil_iff_forall_not_mem.mpr
        intro info hinfo
        rw [← hmem, hnil] at hinfo
        exact List.not_mem_nil hinfo
      rw [hnil']
      rfl
  | some a =>
      have ha : a ∈ infos := List.argmax_mem h
      cases h' : newest infos' with
      | none =>
          have hnil' : infos' = [] := List.argmax_eq_none.mp h'
          rw [hmem, hnil'] at ha
          exact absurd ha List.not_mem_nil
      | some b =>
          have hb : b ∈ infos := (hmem b).mpr (List.argmax_mem h')
          have hle : a.createdAt ≤ b.createdAt := List.le_of_mem_argmax ((hmem a).mp ha) h'
          have hge : b.createdAt ≤ a.createdAt := List.le_of_mem_argmax hb h
          rw [hdistinct a ha b hb (le_antisymm hle hge)]

/-! ## The index -/

namespace KnownPeers

theorem lookup_recordOne {known : KnownPeers Agent Url} {agent : Agent}
    {held : Option (AgentInfoSigned Agent SpaceId Url Sig)}
    (h : known.lookup agent = held.map knownEntry) (info : AgentInfoSigned Agent SpaceId Url Sig) :
    (known.recordOne info).lookup agent =
      (if info.agent = agent then supersede held info else held).map knownEntry := by
  by_cases hagent : info.agent = agent
  · rw [if_pos hagent]
    subst hagent
    unfold recordOne upToDate
    rw [h]
    cases held with
    | none =>
        simp [supersede, List.argAux, knownEntry]
    | some a =>
        by_cases hle : info.createdAt ≤ a.createdAt
        · simp [supersede, List.argAux, knownEntry, hle, not_lt.mpr hle, h]
        · simp [supersede, List.argAux, knownEntry, hle, not_le.mp hle]
  · rw [if_neg hagent]
    unfold recordOne
    split
    · exact h
    · rw [AList.lookup_insert_ne (fun heq => hagent heq.symm)]
      exact h

/-- The index after a batch, agent by agent. -/
theorem lookup_record {agent : Agent} (infos : List (AgentInfoSigned Agent SpaceId Url Sig)) :
    ∀ {known : KnownPeers Agent Url} {held : Option (AgentInfoSigned Agent SpaceId Url Sig)},
      known.lookup agent = held.map knownEntry →
        (known.record infos).lookup agent =
          ((infosOf agent infos).foldl supersede held).map knownEntry := by
  induction infos with
  | nil =>
      intro known held h
      exact h
  | cons info rest ih =>
      intro known held h
      have hone := lookup_recordOne h info
      have hstep : known.record (info :: rest) = (known.recordOne info).record rest := rfl
      rw [hstep]
      by_cases hagent : info.agent = agent
      · rw [if_pos hagent] at hone
        rw [ih hone, infosOf_cons, if_pos hagent]
        rfl
      · rw [if_neg hagent] at hone
        rw [ih hone, infosOf_cons, if_neg hagent]

end KnownPeers

/-! ## The store -/

/-- Nothing but the rule decides about a batch: no prune is due, the index and the block list
answer, none of the agents is blocked and none of the infos is expired. -/
structure Undisturbed (env : Surroundings Agent) (noPruneUntil : Nat)
    (infos : List (AgentInfoSigned Agent SpaceId Url Sig)) : Prop where
  noPrune : env.nowInst < noPruneUntil
  recorded : env.recordFault = none
  unblocked : ∀ info ∈ infos, env.isBlocked info.agent = .ok false
  unexpired : ∀ info ∈ infos, env.now ≤ info.expiresAt

namespace PeerStore

theorem lookup_acceptOne {env : Surroundings Agent}
    (store : AList fun _ : Agent => AgentInfoSigned Agent SpaceId Url Sig)
    {info : AgentInfoSigned Agent SpaceId Url Sig} (hblock : env.isBlocked info.agent = .ok false)
    (hexp : env.now ≤ info.expiresAt) :
    ∃ accepted, accepts env store info = .ok accepted ∧
      ∀ agent, (if accepted then store.insert info.agent info else store).lookup agent =
        if info.agent = agent then supersede (store.lookup agent) info else store.lookup agent := by
  unfold accepts
  rw [hblock]
  dsimp only
  rw [if_neg (not_lt.mpr hexp)]
  cases hheld : store.lookup info.agent with
  | none =>
      refine ⟨true, rfl, ?_⟩
      intro agent
      rw [if_pos rfl]
      by_cases hagent : info.agent = agent
      · subst hagent
        rw [if_pos rfl, AList.lookup_insert, hheld]
        rfl
      · rw [if_neg hagent, AList.lookup_insert_ne (fun heq => hagent heq.symm)]
  | some a =>
      refine ⟨_, rfl, ?_⟩
      intro agent
      by_cases hle : info.createdAt ≤ a.createdAt
      · -- not newer than what is stored: nothing changes
        simp only [hle, decide_true, Bool.not_true, Bool.false_eq_true, if_false]
        by_cases hagent : info.agent = agent
        · subst hagent
          rw [if_pos rfl, hheld]
          simp [supersede, List.argAux, not_lt.mpr hle]
        · rw [if_neg hagent]
      · simp only [hle, decide_false, Bool.not_false, if_true]
        by_cases hagent : info.agent = agent
        · subst hagent
          rw [if_pos rfl, AList.lookup_insert, hheld]
          simp [supersede, List.argAux, not_le.mp hle]
        · rw [if_neg hagent, AList.lookup_insert_ne (fun heq => hagent heq.symm)]

/-- The store after the loop of an insert, agent by agent. -/
theorem lookup_insertAll_undisturbed {env : Surroundings Agent} {agent : Agent}
    (infos : List (AgentInfoSigned Agent SpaceId Url Sig)) :
    ∀ {store : AList fun _ : Agent => AgentInfoSigned Agent SpaceId Url Sig},
      (∀ info ∈ infos, env.isBlocked info.agent = .ok false) →
      (∀ info ∈ infos, env.now ≤ info.expiresAt) →
        (insertAll env store infos).1.lookup agent =
          (infosOf agent infos).foldl supersede (store.lookup agent) := by
  induction infos with
  | nil =>
      intro store _ _
      rfl
  | cons info rest ih =>
      intro store hblock hexp
      have hblock' : ∀ i ∈ rest, env.isBlocked i.agent = .ok false :=
        fun i hi => hblock i (List.mem_cons_of_mem _ hi)
      have hexp' : ∀ i ∈ rest, env.now ≤ i.expiresAt := fun i hi => hexp i (List.mem_cons_of_mem _ hi)
      rcases lookup_acceptOne store (hblock info List.mem_cons_self)
        (hexp info List.mem_cons_self) with ⟨accepted, hacc, hlook⟩
      -- no store call fails, so the loop goes on after every info
      have hstep : (insertAll env store (info :: rest)).1 =
          (insertAll env (if accepted then store.insert info.agent info else store) rest).1 := by
        rw [insertAll, hacc]
        cases accepted <;> rfl
      rw [hstep, ih hblock' hexp', hlook, infosOf_cons]
      by_cases hagent : info.agent = agent
      · rw [if_pos hagent, if_pos hagent]
        rfl
      · rw [if_neg hagent, if_neg hagent]

/-! ## Batches -/

/-- The store after batches of infos, each with what its insert read around it. -/
def insertBatches (p : PeerStore Agent SpaceId Url Sig)
    (batches : List (Surroundings Agent × List (AgentInfoSigned Agent SpaceId Url Sig))) :
    PeerStore Agent SpaceId Url Sig :=
  batches.foldl (fun p batch => (p.insert batch.1 batch.2).1) p

/-- Every info of the batches, in the order in which it was received. -/
def received (batches : List (Surroundings Agent × List (AgentInfoSigned Agent SpaceId Url Sig))) :
    List (AgentInfoSigned Agent SpaceId Url Sig) :=
  batches.flatMap fun batch => batch.2

/-- The store and the index hold, for the agent, the same info. -/
def Holds (p : PeerStore Agent SpaceId Url Sig) (agent : Agent)
    (held : Option (AgentInfoSigned Agent SpaceId Url Sig)) : Prop :=
  p.store.lookup agent = held ∧ p.known.lookup agent = held.map knownEntry

theorem holds_insert {env : Surroundings Agent} {p : PeerStore Agent SpaceId Url Sig} {agent : Agent}
    {held : Option (AgentInfoSigned Agent SpaceId Url Sig)}
    {infos : List (AgentInfoSigned Agent SpaceId Url Sig)}
    (hquiet : Undisturbed env p.noPruneUntil infos) (h : p.Holds agent held) :
    (p.insert env infos).1.Holds agent ((infosOf agent infos).foldl supersede held) ∧
      (p.insert env infos).1.noPruneUntil = p.noPruneUntil := by
  have hprune : p.checkPrune env = p := by
    unfold checkPrune
    rw [if_pos hquiet.noPrune]
  rcases h with ⟨hstore, hknown⟩
  unfold insert
  rw [hprune, hquiet.recorded]
  refine ⟨⟨?_, KnownPeers.lookup_record infos hknown⟩, rfl⟩
  rw [← hstore]
  exact lookup_insertAll_undisturbed infos hquiet.unblocked hquiet.unexpired

theorem holds_insertBatches {agent : Agent}
    (batches : List (Surroundings Agent × List (AgentInfoSigned Agent SpaceId Url Sig))) :
    ∀ {p : PeerStore Agent SpaceId Url Sig}
      {held : Option (AgentInfoSigned Agent SpaceId Url Sig)},
      (∀ batch ∈ batches, Undisturbed batch.1 p.noPruneUntil batch.2) → p.Holds agent held →
        (p.insertBatches batches).Holds agent
          ((infosOf agent (received batches)).foldl supersede held) := by
  induction batches with
  | nil =>
      intro p held _ h
      exact h
  | cons batch rest ih =>
      intro p held hquiet h
      rcases holds_insert (hquiet batch List.mem_cons_self) h with ⟨hone, hprune⟩
      have hrest : ∀ b ∈ rest, Undisturbed b.1 (p.insert batch.1 batch.2).1.noPruneUntil b.2 := by
        intro b hb
        rw [hprune]
        exact hquiet b (List.mem_cons_of_mem _ hb)
      have hsplit : infosOf agent (received (batch :: rest)) =
          infosOf agent batch.2 ++ infosOf agent (received rest) := by
        unfold infosOf received
        rw [List.flatMap_cons, List.filter_append]
      rw [hsplit, List.foldl_append]
      exact ih hrest hone

/-- The newest info of each agent is stored, and the index has its time and URL; for infos with
distinct creation times, the order and the batches make no difference. -/
theorem insertBatches_converge (pruneInterval nowInst : Nat)
    (batches : List (Surroundings Agent × List (AgentInfoSigned Agent SpaceId Url Sig)))
    (hquiet : ∀ batch ∈ batches, Undisturbed batch.1 (nowInst + pruneInterval) batch.2) :
    (∀ agent, ((new pruneInterval nowInst).insertBatches batches).store.lookup agent =
        newest (infosOf agent (received batches)) ∧
      ((new pruneInterval nowInst).insertBatches batches).known.lookup agent =
        (newest (infosOf agent (received batches))).map knownEntry ∧
      ((new pruneInterval nowInst).insertBatches batches).known.urlOf agent =
        (((new pruneInterval nowInst).insertBatches batches).store.lookup agent).bind
          fun info => info.url) ∧
    ∀ batches' : List (Surroundings Agent × List (AgentInfoSigned Agent SpaceId Url Sig)),
      (∀ batch ∈ batches', Undisturbed batch.1 (nowInst + pruneInterval) batch.2) →
      (∀ info, info ∈ received batches ↔ info ∈ received batches') →
      (∀ a ∈ received batches, ∀ b ∈ received batches,
        a.agent = b.agent → a.createdAt = b.createdAt → a = b) →
      ∀ agent, ((new pruneInterval nowInst).insertBatches batches').store.lookup agent =
          ((new pruneInterval nowInst).insertBatches batches).store.lookup agent ∧
        ((new pruneInterval nowInst).insertBatches batches').known.lookup agent =
          ((new pruneInterval nowInst).insertBatches batches).known.lookup agent := by
  have hempty : ∀ agent,
      (new pruneInterval nowInst : PeerStore Agent SpaceId Url Sig).Holds agent none :=
    fun agent => ⟨rfl, rfl⟩
  -- what a store ends with is a function of what it has received
  have hends : ∀ agent, ((new pruneInterval nowInst).insertBatches batches).Holds agent
      (newest (infosOf agent (received batches))) :=
    fun agent => holds_insertBatches batches hquiet (hempty agent)
  constructor
  · intro agent
    rcases hends agent with ⟨hstore, hknown⟩
    refine ⟨hstore, hknown, ?_⟩
    unfold KnownPeers.urlOf
    rw [hknown, hstore]
    cases newest (infosOf agent (received batches)) with
    | none => rfl
    | some info => rfl
  · intro batches' hquiet' hmem hdistinct agent
    have hends' := holds_insertBatches batches' hquiet' (hempty agent)
    have hsame : newest (infosOf agent (received batches)) =
        newest (infosOf agent (received batches')) := by
      -- the same infos have the same newest one when no two of them tie
      apply newest_eq_of_mem_iff
      · intro info
        simp only [infosOf, List.mem_filter, hmem info]
      · intro a ha b hb
        rcases List.mem_filter.mp ha with ⟨hain, haof⟩
        rcases List.mem_filter.mp hb with ⟨hbin, hbof⟩
        have hagents : a.agent = b.agent := (of_decide_eq_true haof).trans (of_decide_eq_true hbof).symm
        exact hdistinct a hain b hbin hagents
    rw [foldl_supersede_none, ← hsame] at hends'
    rcases hends agent with ⟨hstore, hknown⟩
    exact ⟨hends'.1.trans hstore.symm, hends'.2.trans hknown.symm⟩

end PeerStore

/-! ## A run -/

/-- An info of agent 1. -/
def convergingInfo (createdAt : Int) (url : Nat) : AgentInfoSigned Nat Nat Nat Unit where
  agent := 1
  space := 7
  createdAt := createdAt
  expiresAt := 100
  isTombstone := false
  url := some url
  storageArc := .full
  encoded := ""
  signature := ()

def convergingSurroundings : Surroundings Nat where
  isBlocked := fun _ => .ok false
  recordFault := none
  nowInst := 0
  pruneTime := 5
  now := 5

/-- The newer info arrives first; the older one and a copy of the newer one follow. -/
def convergingBatches : List (Surroundings Nat × List (AgentInfoSigned Nat Nat Nat Unit)) :=
  [(convergingSurroundings, [convergingInfo 2 20]),
    (convergingSurroundings, [convergingInfo 1 10, convergingInfo 2 20])]

theorem convergingBatches_converge :
    ((PeerStore.new 10 0).insertBatches convergingBatches).store.lookup 1 =
        some (convergingInfo 2 20) ∧
      ((PeerStore.new 10 0).insertBatches convergingBatches).known.urlOf 1 = some 20 := by
  have hquiet : ∀ batch ∈ convergingBatches, Undisturbed batch.1 (0 + 10) batch.2 := by
    simp only [convergingBatches, List.forall_mem_cons]
    refine ⟨⟨by decide, rfl, fun _ _ => rfl, by decide⟩, ⟨by decide, rfl, fun _ _ => rfl, by decide⟩, ?_⟩
    exact fun _ hnone => absurd hnone List.not_mem_nil
  rcases (PeerStore.insertBatches_converge 10 0 convergingBatches hquiet).1 1 with ⟨hstore, _, hurl⟩
  have hnewest : newest (infosOf 1 (PeerStore.received convergingBatches)) =
      some (convergingInfo 2 20) := by decide
  rw [hnewest] at hstore
  refine ⟨hstore, ?_⟩
  rw [hurl, hstore]
  rfl

end Core
end Kitsune2
