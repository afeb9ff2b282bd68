import Kitsune2.Api.Basic
import Kitsune2.Lib.Retain

/-!
# Peer store — agent infos, the index of known peers and the in-memory store

The store keeps, for each agent, the newest info it has accepted; the index of known peers keeps the
newest URL of every agent it was ever told of.  An insert first records the whole batch in the
index, before anything is filtered, and then decides info by info.
-/

namespace Kitsune2
namespace Core

open Api Lib

/-- A signed agent info: what was signed, and the signature. -/
structure AgentInfoSigned (Agent SpaceId Url Sig : Type) where
  agent : Agent
  space : SpaceId
  createdAt : Int
  expiresAt : Int
  isTombstone : Bool
  url : Option Url
  storageArc : DhtArc
  encoded : String
  signature : Sig
  deriving DecidableEq, Repr

variable {Agent SpaceId Url Sig : Type} [DecidableEq Agent]

/-- `AgentInfoSigned::inner_decode_one`: a parsed info is kept if its signature verifies. -/
def innerDecodeOne (verify : AgentInfoSigned Agent SpaceId Url Sig → Bool)
    (info : AgentInfoSigned Agent SpaceId Url Sig) :
    Except Fault (AgentInfoSigned Agent SpaceId Url Sig) :=
  if !verify info then .error (.k2 "InvalidSignature") else .ok info

/-! ## Known peers -/

/-- The newest creation time and URL of each agent. -/
abbrev KnownPeers (Agent Url : Type) := AList fun _ : Agent => Int × Option Url

namespace KnownPeers

/-- An info at least as new is on record. -/
def upToDate (known : KnownPeers Agent Url) (info : AgentInfoSigned Agent SpaceId Url Sig) : Bool :=
  match known.lookup info.agent with
  | none => false
  | some (createdAt, _) => info.createdAt ≤ createdAt

def recordOne (known : KnownPeers Agent Url) (info : AgentInfoSigned Agent SpaceId Url Sig) :
    KnownPeers Agent Url :=
  if known.upToDate info then known else known.insert info.agent (info.createdAt, info.url)

def record (known : KnownPeers Agent Url) (infos : List (AgentInfoSigned Agent SpaceId Url Sig)) :
    KnownPeers Agent Url :=
  infos.foldl recordOne known

/-- The URL of the agent's latest known info. -/
def urlOf (known : KnownPeers Agent Url) (agent : Agent) : Option Url :=
  (known.lookup agent).bind fun entry => entry.2

def getByUrl [DecidableEq Url] (known : KnownPeers Agent Url) (url : Url) : List Agent :=
  (known.entries.filter fun e => e.2.2 = some url).map fun e => e.1

end KnownPeers

/-! ## The store -/

/-- What a call reads around it: the block list, whether the index fails, and the clocks. -/
structure Surroundings (Agent : Type) where
  isBlocked : Agent → Except Fault Bool
  recordFault : Option Fault
  /-- The monotonic clock. -/
  nowInst : Nat
  /-- The time at which a prune is made. -/
  pruneTime : Int
  /-- The time against which an insert checks expiry. -/
  now : Int

structure PeerStore (Agent SpaceId Url Sig : Type) where
  pruneInterval : Nat
  store : AList fun _ : Agent => AgentInfoSigned Agent SpaceId Url Sig
  noPruneUntil : Nat
  known : KnownPeers Agent Url

namespace PeerStore

def new (pruneInterval nowInst : Nat) : PeerStore Agent SpaceId Url Sig :=
  { pruneInterval, store := ∅, noPruneUntil := nowInst + pruneInterval, known := ∅ }

def doPrune (p : PeerStore Agent SpaceId Url Sig) (nowInst : Nat) (now : Int) :
    PeerStore Agent SpaceId Url Sig :=
  { p with
    store := retain (fun _ info => decide (now < info.expiresAt)) p.store
    noPruneUntil := nowInst + p.pruneInterval }

def checkPrune (p : PeerStore Agent SpaceId Url Sig) (env : Surroundings Agent) :
    PeerStore Agent SpaceId Url Sig :=
  if env.nowInst < p.noPruneUntil then p else p.doPrune env.nowInst env.pruneTime

/-- Is an info taken into the store?  Not that of a blocked agent, not an expired one, and not one
that the stored info of its agent is at least as new as. -/
def accepts (env : Surroundings Agent)
    (store : AList fun _ : Agent => AgentInfoSigned Agent SpaceId Url Sig)
    (info : AgentInfoSigned Agent SpaceId Url Sig) : Except Fault Bool :=
  match env.isBlocked info.agent with
  | .error fault => .error fault
  | .ok true => .ok false
  | .ok false =>
      if info.expiresAt < env.now then .ok false
      else
        match store.lookup info.agent with
        | some a => .ok (!decide (info.createdAt ≤ a.createdAt))
        | none => .ok true

/-- The loop of `Inner::insert`: the store afterwards, and the infos that were taken.  A fault of
the block list ends the loop with what it has stored so far. -/
def insertAll (env : Surroundings Agent) :
    (AList fun _ : Agent => AgentInfoSigned Agent SpaceId Url Sig) →
      List (AgentInfoSigned Agent SpaceId Url Sig) →
      (AList fun _ : Agent => AgentInfoSigned Agent SpaceId Url Sig) ×
        Except Fault (List (AgentInfoSigned Agent SpaceId Url Sig))
  | store, [] => (store, .ok [])
  | store, info :: rest =>
      match accepts env store info with
      | .error fault => (store, .error fault)
      | .ok false => insertAll env store rest
      | .ok true =>
          let after := insertAll env (store.insert info.agent info) rest
          (after.1, after.2.map fun inserted => info :: inserted)

/-- `Inner::insert`: prune, record the batch, then take what is accepted. -/
def insert (env : Surroundings Agent) (p : PeerStore Agent SpaceId Url Sig)
    (infos : List (AgentInfoSigned Agent SpaceId Url Sig)) :
    PeerStore Agent SpaceId Url Sig × Except Fault (List (AgentInfoSigned Agent SpaceId Url Sig)) :=
  let pruned := p.checkPrune env
  match env.recordFault with
  | some fault => (pruned, .error fault)
  | none =>
      let after := insertAll env pruned.store infos
      -- blocked and expired infos are on record too, so that access control can resolve their URLs
      ({ pruned with store := after.1, known := pruned.known.record infos }, after.2)

/-- `Inner::remove`: the removed info, if there was one. -/
def remove (p : PeerStore Agent SpaceId Url Sig) (agent : Agent) :
    PeerStore Agent SpaceId Url Sig × Option (AgentInfoSigned Agent SpaceId Url Sig) :=
  ({ p with store := p.store.erase agent }, p.store.lookup agent)

def get (env : Surroundings Agent) (p : PeerStore Agent SpaceId Url Sig) (agent : Agent) :
    PeerStore Agent SpaceId Url Sig × Option (AgentInfoSigned Agent SpaceId Url Sig) :=
  let pruned := p.checkPrune env
  (pruned, pruned.store.lookup agent)

/-- `Inner::get_all`: all infos that are stored. -/
def getAll (env : Surroundings Agent) (p : PeerStore Agent SpaceId Url Sig) :
    PeerStore Agent SpaceId Url Sig × List (AgentInfoSigned Agent SpaceId Url Sig) :=
  let pruned := p.checkPrune env
  (pruned, pruned.store.entries.map fun e => e.2)

/-- `Inner::get_by_overlapping_storage_arc`: the infos whose arcs overlap `arc`, tombstones left
out. -/
def getByOverlappingStorageArc (env : Surroundings Agent) (p : PeerStore Agent SpaceId Url Sig)
    (arc : DhtArc) :
    PeerStore Agent SpaceId Url Sig × List (AgentInfoSigned Agent SpaceId Url Sig) :=
  let pruned := p.checkPrune env
  (pruned, (pruned.store.entries.map fun e => e.2).filter fun info =>
    !info.isTombstone && arc.overlaps info.storageArc)

/-! ## What is stored afterwards -/

omit [DecidableEq Agent] in
@[simp]
theorem checkPrune_known (p : PeerStore Agent SpaceId Url Sig) (env : Surroundings Agent) :
    (p.checkPrune env).known = p.known := by
  unfold checkPrune
  split <;> rfl

theorem lookup_checkPrune {p : PeerStore Agent SpaceId Url Sig} {env : Surroundings Agent}
    {agent : Agent} {info : AgentInfoSigned Agent SpaceId Url Sig}
    (h : (p.checkPrune env).store.lookup agent = some info) : p.store.lookup agent = some info := by
  unfold checkPrune at h
  split at h
  · exact h
  · exact (lookup_retain_eq_some_iff.mp h).1

/-- What the loop leaves stored was stored before or is of the batch. -/
theorem lookup_insertAll {env : Surroundings Agent}
    {infos : List (AgentInfoSigned Agent SpaceId Url Sig)} :
    ∀ {store : AList fun _ : Agent => AgentInfoSigned Agent SpaceId Url Sig} {agent : Agent}
      {info : AgentInfoSigned Agent SpaceId Url Sig},
      (insertAll env store infos).1.lookup agent = some info →
        store.lookup agent = some info ∨ info ∈ infos := by
  induction infos with
  | nil =>
      intro store agent info h
      exact Or.inl h
  | cons first rest ih =>
      intro store agent info h
      unfold insertAll at h
      split at h
      · exact Or.inl h
      · exact (ih h).imp_right (List.mem_cons_of_mem _)
      · rcases ih h with hold | hmem
        · by_cases hagent : agent = first.agent
          · rw [hagent, AList.lookup_insert, Option.some.injEq] at hold
            exact Or.inr (hold ▸ List.mem_cons_self)
          · rw [AList.lookup_insert_ne hagent] at hold
            exact Or.inl hold
        · exact Or.inr (List.mem_cons_of_mem _ hmem)

theorem lookup_insert {env : Surroundings Agent} {p : PeerStore Agent SpaceId Url Sig}
    {infos : List (AgentInfoSigned Agent SpaceId Url Sig)} {agent : Agent}
    {info : AgentInfoSigned Agent SpaceId Url Sig}
    (h : (p.insert env infos).1.store.lookup agent = some info) :
    p.store.lookup agent = some info ∨ info ∈ infos := by
  unfold insert at h
  split at h
  · exact Or.inl (lookup_checkPrune h)
  · exact (lookup_insertAll h).imp_left lookup_checkPrune

/-! ## Inserts that do not fail -/

theorem exists_accepts_eq_ok {env : Surroundings Agent}
    (store : AList fun _ : Agent => AgentInfoSigned Agent SpaceId Url Sig)
    {info : AgentInfoSigned Agent SpaceId Url Sig} {blocked : Bool}
    (h : env.isBlocked info.agent = .ok blocked) :
    ∃ accepted, accepts env store info = .ok accepted := by
  unfold accepts
  rw [h]
  cases blocked with
  | true =>
      exact ⟨false, rfl⟩
  | false =>
      dsimp only
      split
      · exact ⟨false, rfl⟩
      · split
        · exact ⟨_, rfl⟩
        · exact ⟨true, rfl⟩

theorem insertAll_ok {env : Surroundings Agent} (h : ∀ agent, ∃ b, env.isBlocked agent = .ok b)
    (infos : List (AgentInfoSigned Agent SpaceId Url Sig)) :
    ∀ store : AList fun _ : Agent => AgentInfoSigned Agent SpaceId Url Sig,
      ∃ inserted, (insertAll env store infos).2 = .ok inserted := by
  induction infos with
  | nil =>
      intro store
      exact ⟨[], rfl⟩
  | cons first rest ih =>
      intro store
      rcases h first.agent with ⟨blocked, hblocked⟩
      rcases exists_accepts_eq_ok store hblocked with ⟨accepted, hacc⟩
      cases accepted with
      | false =>
          simpa [insertAll, hacc] using ih store
      | true =>
          rcases ih (store.insert first.agent first) with ⟨inserted, hinserted⟩
          exact ⟨first :: inserted, by simp [insertAll, hacc, hinserted, Except.map]⟩

/-! ## What a call makes of a store -/

/-- One store follows from another: what was live is there or newer, and what is new was given and
beats what was live. -/
structure Renewed (clock : Int) (given : List (AgentInfoSigned Agent SpaceId Url Sig))
    (p p' : PeerStore Agent SpaceId Url Sig) : Prop where
  kept : ∀ agent st, p.store.lookup agent = some st → clock < st.expiresAt →
    ∃ st', p'.store.lookup agent = some st' ∧ st.createdAt ≤ st'.createdAt
  new : ∀ agent st', p'.store.lookup agent = some st' → p.store.lookup agent = some st' ∨
    st' ∈ given ∧ st'.agent = agent ∧
      ∀ st, p.store.lookup agent = some st → clock < st.expiresAt → st.createdAt < st'.createdAt

theorem Renewed.rfl {clock : Int} {given : List (AgentInfoSigned Agent SpaceId Url Sig)}
    {p : PeerStore Agent SpaceId Url Sig} : Renewed clock given p p :=
  ⟨fun _ st h _ => ⟨st, h, Int.le_refl _⟩, fun _ _ h => Or.inl h⟩

theorem checkPrune_kept {p : PeerStore Agent SpaceId Url Sig} {env : Surroundings Agent}
    {agent : Agent} {st : AgentInfoSigned Agent SpaceId Url Sig}
    (h : p.store.lookup agent = some st) (hlive : env.pruneTime < st.expiresAt) :
    (p.checkPrune env).store.lookup agent = some st := by
  unfold checkPrune
  split
  · exact h
  · exact lookup_retain_eq_some_iff.mpr ⟨h, decide_eq_true hlive⟩

theorem get_renewed (p : PeerStore Agent SpaceId Url Sig) (env : Surroundings Agent) (agent : Agent)
    (given : List (AgentInfoSigned Agent SpaceId Url Sig)) :
    Renewed env.pruneTime given p (p.get env agent).1 :=
  ⟨fun _ st h hlive => ⟨st, checkPrune_kept h hlive, Int.le_refl _⟩,
    fun _ _ h => Or.inl (lookup_checkPrune h)⟩

/-- An info is only taken if it beats what is stored of its agent. -/
theorem lt_of_accepts {env : Surroundings Agent}
    {store : AList fun _ : Agent => AgentInfoSigned Agent SpaceId Url Sig}
    {info st : AgentInfoSigned Agent SpaceId Url Sig} (h : store.lookup info.agent = some st)
    (hacc : accepts env store info = .ok true) : st.createdAt < info.createdAt := by
  unfold accepts at hacc
  rw [h] at hacc
  split at hacc
  · cases hacc
  · cases hacc
  · split at hacc
    · cases hacc
    · simpa using hacc

/-- What is stored of an agent is left, or something newer of the batch. -/
theorem insertAll_kept {env : Surroundings Agent}
    {infos : List (AgentInfoSigned Agent SpaceId Url Sig)} :
    ∀ {store : AList fun _ : Agent => AgentInfoSigned Agent SpaceId Url Sig} {agent : Agent}
      {st : AgentInfoSigned Agent SpaceId Url Sig}, store.lookup agent = some st →
        ∃ st', (insertAll env store infos).1.lookup agent = some st' ∧ st.createdAt ≤ st'.createdAt := by
  induction infos with
  | nil =>
      intro store agent st h
      exact ⟨st, h, Int.le_refl _⟩
  | cons first rest ih =>
      intro store agent st h
      unfold insertAll
      cases hacc : accepts env store first with
      | error fault =>
          exact ⟨st, h, Int.le_refl _⟩
      | ok taken =>
          cases taken with
          | false =>
              exact ih h
          | true =>
              dsimp only
              -- an accepted info of the agent is newer than the stored one it replaces
              by_cases hagent : agent = first.agent
              · subst hagent
                have hnewer : st.createdAt < first.createdAt := lt_of_accepts h hacc
                have hfirst : (store.insert first.agent first).lookup first.agent = some first :=
                  AList.lookup_insert store
                rcases ih hfirst with ⟨st', hst', hle⟩
                exact ⟨st', hst', Int.le_trans (Int.le_of_lt hnewer) hle⟩
              · exact ih (by rw [AList.lookup_insert_ne hagent]; exact h)

/-- What is stored afterwards was stored before, or it is of the batch and beats what was stored. -/
theorem insertAll_new {env : Surroundings Agent}
    {infos : List (AgentInfoSigned Agent SpaceId Url Sig)} :
    ∀ {store : AList fun _ : Agent => AgentInfoSigned Agent SpaceId Url Sig} {agent : Agent}
      {st' : AgentInfoSigned Agent SpaceId Url Sig},
      (insertAll env store infos).1.lookup agent = some st' → store.lookup agent = some st' ∨
        st' ∈ infos ∧ st'.agent = agent ∧
          ∀ st, store.lookup agent = some st → st.createdAt < st'.createdAt := by
  induction infos with
  | nil =>
      intro store agent st' h
      exact Or.inl h
  | cons first rest ih =>
      intro store agent st' h
      unfold insertAll at h
      split at h
      · exact Or.inl h
      · exact (ih h).imp_right fun ⟨hmem, hrest⟩ => ⟨List.mem_cons_of_mem _ hmem, hrest⟩
      · rename_i hacc
        by_cases hagent : agent = first.agent
        · subst hagent
          -- either `first` is what is left, or a later info has beaten it in turn
          rcases ih h with hold | ⟨hmem, hkey, hbeats⟩
          · rw [AList.lookup_insert, Option.some.injEq] at hold
            subst hold
            exact Or.inr ⟨List.mem_cons_self, rfl, fun st hst => lt_of_accepts hst hacc⟩
          · refine Or.inr ⟨List.mem_cons_of_mem _ hmem, hkey, fun st hst => ?_⟩
            exact Int.lt_trans (lt_of_accepts hst hacc) (hbeats first (AList.lookup_insert store))
        · have hsame : (store.insert first.agent first).lookup agent = store.lookup agent :=
            AList.lookup_insert_ne hagent
          have hcases := ih h
          rw [hsame] at hcases
          exact hcases.imp_right fun ⟨hmem, hrest⟩ => ⟨List.mem_cons_of_mem _ hmem, hrest⟩

theorem insert_renewed (p : PeerStore Agent SpaceId Url Sig) (env : Surroundings Agent)
    (infos : List (AgentInfoSigned Agent SpaceId Url Sig)) :
    Renewed env.pruneTime infos p (p.insert env infos).1 := by
  unfold insert
  split
  · exact ⟨fun _ st h hlive => ⟨st, checkPrune_kept h hlive, Int.le_refl _⟩,
      fun _ _ h => Or.inl (lookup_checkPrune h)⟩
  · refine ⟨fun _ st h hlive => insertAll_kept (checkPrune_kept h hlive), fun agent st' h => ?_⟩
    rcases insertAll_new h with hold | ⟨hmem, hkey, hbeats⟩
    · exact Or.inl (lookup_checkPrune hold)
    · exact Or.inr ⟨hmem, hkey, fun st hst hlive => hbeats st (checkPrune_kept hst hlive)⟩

/-- The info of an agent that is not blocked is expired, or it is stored, or something newer is. -/
theorem insert_settles (p : PeerStore Agent SpaceId Url Sig) (env : Surroundings Agent)
    {info : AgentInfoSigned Agent SpaceId Url Sig} (hrecord : env.recordFault = none)
    (hfree : env.isBlocked info.agent = .ok false) : info.expiresAt < env.now ∨
      ∃ st, (p.insert env [info]).1.store.lookup info.agent = some st ∧
        info.createdAt ≤ st.createdAt := by
  unfold insert
  rw [hrecord]
  dsimp only
  unfold insertAll accepts
  rw [hfree]
  dsimp only
  by_cases hexpired : info.expiresAt < env.now
  · exact Or.inl hexpired
  · right
    rw [if_neg hexpired]
    cases hst : (p.checkPrune env).store.lookup info.agent with
    | none =>
        exact ⟨info, AList.lookup_insert _, Int.le_refl _⟩
    | some st =>
        by_cases hle : info.createdAt ≤ st.createdAt
        · simp only [hle, decide_true, Bool.not_true]
          exact ⟨st, hst, hle⟩
        · simp only [hle, decide_false, Bool.not_false]
          exact ⟨info, AList.lookup_insert _, Int.le_refl _⟩

end PeerStore
end Core
end Kitsune2
