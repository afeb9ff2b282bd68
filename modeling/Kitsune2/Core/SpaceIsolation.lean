import Kitsune2.Core.PeerStore

/-!
# Space isolation — infos of other spaces on the three receive paths

Agent infos reach the peer store of a space by publish, in a gossip round and from the bootstrap
server.  Each path checks the signature and hands what it has decoded to `insert`; none of them, and
not the store either, looks at the space the info was signed for.  A run is isolated if the space
ends up where it would have ended up without the infos of other spaces.
-/

namespace Kitsune2
namespace Core

open Api Lib

variable {Agent SpaceId Url Sig : Type} [DecidableEq Agent] [DecidableEq SpaceId]

/-! ## The receive paths -/

inductive Arrival (Agent SpaceId Url Sig : Type) where
  /-- One info published to us. -/
  | publish (info : AgentInfoSigned Agent SpaceId Url Sig)
  /-- The agents provided in a gossip message. -/
  | gossip (provided : List (AgentInfoSigned Agent SpaceId Url Sig))
  /-- The list the bootstrap server returns. -/
  | bootstrap (list : List (AgentInfoSigned Agent SpaceId Url Sig))

/-- The batch a path hands to `insert`, if it makes the call. -/
def handedOver (verify : AgentInfoSigned Agent SpaceId Url Sig → Bool) :
    Arrival Agent SpaceId Url Sig → Option (List (AgentInfoSigned Agent SpaceId Url Sig))
  | .publish info =>
      match innerDecodeOne verify info with
      | .error _ => none
      | .ok info => some [info]
  | .gossip provided =>
      if provided.isEmpty then none
      else
        -- one info that does not decode fails the whole message
        match provided.mapM (innerDecodeOne verify) with
        | .error _ => none
        | .ok agents => some agents
  | .bootstrap list => some (list.filterMap fun info => (innerDecodeOne verify info).toOption)

/-- What happens to the peer store of a space. -/
inductive PeerStoreOp (Agent SpaceId Url Sig : Type) where
  | arrives (arrival : Arrival Agent SpaceId Url Sig)
  /-- A local agent's own info, signed for this space. -/
  | signed (info : AgentInfoSigned Agent SpaceId Url Sig)
  | remove (agent : Agent)
  /-- Any of the reads, which prune first. -/
  | read

namespace PeerStoreOp

/-- The batch that the operation inserts. -/
def batch (verify : AgentInfoSigned Agent SpaceId Url Sig → Bool) :
    PeerStoreOp Agent SpaceId Url Sig → Option (List (AgentInfoSigned Agent SpaceId Url Sig))
  | .arrives arrival => handedOver verify arrival
  | .signed info => some [info]
  | _ => none

end PeerStoreOp

namespace PeerStore

/-- An operation with the batch it inserts, if any. -/
def perform (p : PeerStore Agent SpaceId Url Sig) (env : Surroundings Agent)
    (op : PeerStoreOp Agent SpaceId Url Sig)
    (batch : Option (List (AgentInfoSigned Agent SpaceId Url Sig))) :
    PeerStore Agent SpaceId Url Sig :=
  match op, batch with
  | .remove agent, _ => (p.remove agent).1
  | .read, _ => p.checkPrune env
  | _, some infos => (p.insert env infos).1
  | _, none => p

/-- An operation as the code performs it. -/
def apply (verify : AgentInfoSigned Agent SpaceId Url Sig → Bool)
    (p : PeerStore Agent SpaceId Url Sig)
    (op : Surroundings Agent × PeerStoreOp Agent SpaceId Url Sig) : PeerStore Agent SpaceId Url Sig :=
  p.perform op.1 op.2 (op.2.batch verify)

/-- The same call without the infos of other spaces. -/
def applyNative (verify : AgentInfoSigned Agent SpaceId Url Sig → Bool) (sp : SpaceId)
    (p : PeerStore Agent SpaceId Url Sig)
    (op : Surroundings Agent × PeerStoreOp Agent SpaceId Url Sig) : PeerStore Agent SpaceId Url Sig :=
  p.perform op.1 op.2 ((op.2.batch verify).map fun infos => infos.filter fun info => info.space = sp)

/-- The URL and storage arc of the stored info, and the URL of the latest known one. -/
def attribution (p : PeerStore Agent SpaceId Url Sig) (agent : Agent) :
    Option (Option Url × DhtArc) × Option Url :=
  ((p.store.lookup agent).map fun info => (info.url, info.storageArc), p.known.urlOf agent)

/-- The stored infos name the space, and it attributes to every agent what it would have attributed
without the infos of other spaces. -/
structure Isolated (sp : SpaceId) (p native : PeerStore Agent SpaceId Url Sig) : Prop where
  names : ∀ agent info, p.store.lookup agent = some info → info.space = sp
  attributes : ∀ agent, p.attribution agent = native.attribution agent

/-! ## Infos that change nothing -/

/-- Whenever an info of another space is recorded, one at least as new is on record. -/
def KnownShield (sp : SpaceId) :
    KnownPeers Agent Url → List (AgentInfoSigned Agent SpaceId Url Sig) → Prop
  | _, [] => True
  | known, info :: rest =>
      (info.space = sp ∨ known.upToDate info = true) ∧ KnownShield sp (known.recordOne info) rest

/-- Whenever it is the turn of an info of another space, the store refuses it: its agent is blocked,
it has expired, or the stored info of its agent is at least as new. -/
def StoreShield (sp : SpaceId) (env : Surroundings Agent) :
    (AList fun _ : Agent => AgentInfoSigned Agent SpaceId Url Sig) →
      List (AgentInfoSigned Agent SpaceId Url Sig) → Prop
  | _, [] => True
  | store, info :: rest =>
      match accepts env store info with
      | .error _ => info.space = sp
      | .ok false => StoreShield sp env store rest
      | .ok true => info.space = sp ∧ StoreShield sp env (store.insert info.agent info) rest

/-- The operation hands over no info of another space that is new to the index or the store. -/
def Shielded (verify : AgentInfoSigned Agent SpaceId Url Sig → Bool) (sp : SpaceId)
    (p : PeerStore Agent SpaceId Url Sig)
    (op : Surroundings Agent × PeerStoreOp Agent SpaceId Url Sig) : Prop :=
  ∀ infos, op.2.batch verify = some infos → op.1.recordFault = none →
    KnownShield sp p.known infos ∧ StoreShield sp op.1 (p.checkPrune op.1).store infos

/-- Every operation of a run is shielded in the state before it. -/
def ShieldedRun (verify : AgentInfoSigned Agent SpaceId Url Sig → Bool) (sp : SpaceId) :
    PeerStore Agent SpaceId Url Sig →
      List (Surroundings Agent × PeerStoreOp Agent SpaceId Url Sig) → Prop
  | _, [] => True
  | p, op :: ops => Shielded verify sp p op ∧ ShieldedRun verify sp (p.apply verify op) ops

theorem record_filter_of_shield {sp : SpaceId}
    {infos : List (AgentInfoSigned Agent SpaceId Url Sig)} :
    ∀ {known : KnownPeers Agent Url}, KnownShield sp known infos →
      known.record (infos.filter fun info => info.space = sp) = known.record infos := by
  induction infos with
  | nil =>
      intro known _
      rfl
  | cons info rest ih =>
      rintro known ⟨hinfo, hrest⟩
      by_cases hspace : info.space = sp
      · simpa [KnownPeers.record, hspace] using ih hrest
      · -- recording an info that is not newer changes nothing
        have hup : known.upToDate info = true := hinfo.resolve_left hspace
        have hsame : known.recordOne info = known := by
          simp [KnownPeers.recordOne, hup]
        rw [hsame] at hrest
        simpa [KnownPeers.record, hspace, hsame] using ih hrest

theorem insertAll_filter_of_shield {sp : SpaceId} {env : Surroundings Agent}
    {infos : List (AgentInfoSigned Agent SpaceId Url Sig)} :
    ∀ {store : AList fun _ : Agent => AgentInfoSigned Agent SpaceId Url Sig},
      StoreShield sp env store infos →
        insertAll env store (infos.filter fun info => info.space = sp) =
          insertAll env store infos := by
  induction infos with
  | nil =>
      intro store _
      rfl
  | cons info rest ih =>
      intro store hshield
      unfold StoreShield at hshield
      split at hshield
      · next fault hacc =>
          have hspace : info.space = sp := hshield
          simp [hspace, insertAll, hacc]
      · next hacc =>
          -- a refused info may be of another space
          by_cases hspace : info.space = sp
          · simpa [hspace, insertAll, hacc] using ih hshield
          · simpa [hspace, insertAll, hacc] using ih hshield
      · next hacc =>
          simp [hshield.1, insertAll, hacc, ih hshield.2]

theorem insert_filter_of_shield {sp : SpaceId} {env : Surroundings Agent}
    {p : PeerStore Agent SpaceId Url Sig} {infos : List (AgentInfoSigned Agent SpaceId Url Sig)}
    (h : env.recordFault = none →
      KnownShield sp p.known infos ∧ StoreShield sp env (p.checkPrune env).store infos) :
    p.insert env (infos.filter fun info => info.space = sp) = p.insert env infos := by
  unfold insert
  cases hfault : env.recordFault with
  | some fault =>
      rfl
  | none =>
      rcases h hfault with ⟨hknown, hstore⟩
      simp only [checkPrune_known, record_filter_of_shield hknown,
        insertAll_filter_of_shield hstore]

theorem applyNative_of_shielded {verify : AgentInfoSigned Agent SpaceId Url Sig → Bool}
    {sp : SpaceId} {p : PeerStore Agent SpaceId Url Sig}
    {op : Surroundings Agent × PeerStoreOp Agent SpaceId Url Sig}
    (h : Shielded verify sp p op) : p.applyNative verify sp op = p.apply verify op := by
  unfold applyNative apply
  cases hbatch : op.2.batch verify with
  | none =>
      rfl
  | some infos =>
      have hsame := insert_filter_of_shield (h infos hbatch)
      rw [Option.map_some]
      unfold perform
      split <;> simp_all

/-! ## Runs -/

/-- Every stored info names the space. -/
def Named (sp : SpaceId) (p : PeerStore Agent SpaceId Url Sig) : Prop :=
  ∀ agent info, p.store.lookup agent = some info → info.space = sp

omit [DecidableEq SpaceId] in
theorem named_new (sp : SpaceId) (pruneInterval nowInst : Nat) :
    Named sp (new pruneInterval nowInst : PeerStore Agent SpaceId Url Sig) := by
  intro agent info h
  simp [new] at h

omit [DecidableEq SpaceId] in
theorem Named.perform {sp : SpaceId} {p : PeerStore Agent SpaceId Url Sig} (h : Named sp p)
    (env : Surroundings Agent) (op : PeerStoreOp Agent SpaceId Url Sig)
    {batch : Option (List (AgentInfoSigned Agent SpaceId Url Sig))}
    (hbatch : ∀ infos ∈ batch, ∀ info ∈ infos, info.space = sp) :
    Named sp (p.perform env op batch) := by
  have hinsert : ∀ infos ∈ batch, Named sp (p.insert env infos).1 := by
    intro infos hinfos agent info hlookup
    rcases lookup_insert hlookup with hold | hmem
    · exact h agent info hold
    · exact hbatch infos hinfos info hmem
  cases op with
  | remove gone =>
      intro agent info hlookup
      -- a removal only takes away
      by_cases hagent : agent = gone
      · subst hagent
        simp [PeerStore.perform, remove] at hlookup
      · have hold : p.store.lookup agent = some info := by
          simpa [PeerStore.perform, remove, AList.lookup_erase_ne hagent] using hlookup
        exact h agent info hold
  | read =>
      exact fun agent info hlookup => h agent info (lookup_checkPrune hlookup)
  | arrives arrival =>
      cases batch with
      | none =>
          exact h
      | some infos =>
          exact hinsert infos rfl
  | signed info =>
      cases batch with
      | none =>
          exact h
      | some infos =>
          exact hinsert infos rfl

theorem Named.applyNative {verify : AgentInfoSigned Agent SpaceId Url Sig → Bool} {sp : SpaceId}
    {p : PeerStore Agent SpaceId Url Sig} (h : Named sp p)
    (op : Surroundings Agent × PeerStoreOp Agent SpaceId Url Sig) :
    Named sp (p.applyNative verify sp op) := by
  refine h.perform op.1 op.2 ?_
  intro infos hinfos info hinfo
  rcases Option.map_eq_some_iff.mp hinfos with ⟨all, _, rfl⟩
  exact of_decide_eq_true (List.mem_filter.mp hinfo).2

/-- A shielded run goes through the same states as the run without the infos of other spaces, and
these infos are never stored. -/
theorem run_eq_native {verify : AgentInfoSigned Agent SpaceId Url Sig → Bool} {sp : SpaceId}
    {ops : List (Surroundings Agent × PeerStoreOp Agent SpaceId Url Sig)} :
    ∀ {p : PeerStore Agent SpaceId Url Sig}, Named sp p → ShieldedRun verify sp p ops →
      Named sp (ops.foldl (apply verify) p) ∧
        ops.foldl (apply verify) p = ops.foldl (PeerStore.applyNative verify sp) p := by
  induction ops with
  | nil =>
      intro p hnamed _
      exact ⟨hnamed, rfl⟩
  | cons op ops ih =>
      rintro p hnamed ⟨hop, hops⟩
      have hsame := applyNative_of_shielded hop
      have hnext : Named sp (p.apply verify op) := hsame ▸ hnamed.applyNative op
      rcases ih hnext hops with ⟨hend, heq⟩
      refine ⟨hend, ?_⟩
      rw [List.foldl_cons, List.foldl_cons, heq, hsame]

/-- A space is isolated in every run whose operations are all shielded. -/
theorem isolated_of_shielded {verify : AgentInfoSigned Agent SpaceId Url Sig → Bool} {sp : SpaceId}
    {pruneInterval nowInst : Nat}
    {ops : List (Surroundings Agent × PeerStoreOp Agent SpaceId Url Sig)}
    (h : ShieldedRun verify sp (new pruneInterval nowInst) ops) :
    Isolated sp (ops.foldl (apply verify) (new pruneInterval nowInst))
      (ops.foldl (PeerStore.applyNative verify sp) (new pruneInterval nowInst)) := by
  rcases run_eq_native (named_new sp pruneInterval nowInst) h with ⟨hnamed, heq⟩
  refine ⟨hnamed, ?_⟩
  intro agent
  rw [heq]

end PeerStore

/-! ## A replay across spaces -/

/-- Agent 1 at URL 10, in space 7. -/
def nativeInfo : AgentInfoSigned Nat Nat Nat Unit :=
  { agent := 1, space := 7, createdAt := 1, expiresAt := 100, isTombstone := false, url := some 10
    storageArc := .full, encoded := "one in seven", signature := () }

/-- Agent 1 at URL 20, in space 9, a little later. -/
def foreignInfo : AgentInfoSigned Nat Nat Nat Unit :=
  { nativeInfo with
    space := 9, createdAt := 2, url := some 20, storageArc := .empty, encoded := "one in nine" }

def quietSurroundings : Surroundings Nat :=
  { isBlocked := fun _ => .ok false, recordFault := none, nowInst := 0, pruneTime := 5, now := 5 }

/-- An info of space 7 is published, and later one of space 9. -/
def replayOps : List (Surroundings Nat × PeerStoreOp Nat Nat Nat Unit) :=
  [(quietSurroundings, .arrives (.publish nativeInfo)),
    (quietSurroundings, .arrives (.publish foreignInfo))]

/-- The info of space 9 that arrives is older than what space 7 knows of the agent. -/
def shieldedOps : List (Surroundings Nat × PeerStoreOp Nat Nat Nat Unit) :=
  [(quietSurroundings, .arrives (.publish { nativeInfo with createdAt := 3 })),
    (quietSurroundings, .arrives (.publish foreignInfo))]

theorem shieldedOps_isolated :
    PeerStore.Isolated 7 (shieldedOps.foldl (PeerStore.apply fun _ => true) (.new 10 0))
      (shieldedOps.foldl (PeerStore.applyNative (fun _ => true) 7) (.new 10 0)) := by
  refine PeerStore.isolated_of_shielded ⟨?_, ?_, trivial⟩
  · rintro infos ⟨⟩ _
    exact ⟨⟨Or.inl rfl, trivial⟩, ⟨rfl, trivial⟩⟩
  · rintro infos ⟨⟩ _
    exact ⟨⟨Or.inr (by decide), trivial⟩, trivial⟩

/-- A publish replays an info of another space: it is stored, and the agent's URL and arc move. -/
theorem replayed_info_moves_agent :
    ¬ PeerStore.Isolated 7 (replayOps.foldl (PeerStore.apply fun _ => true) (.new 10 0))
      (replayOps.foldl (PeerStore.applyNative (fun _ => true) 7) (.new 10 0)) ∧
    (replayOps.foldl (PeerStore.apply fun _ => true) (.new 10 0)).attribution 1 =
      (some (some 20, .empty), some 20) ∧
    (replayOps.foldl (PeerStore.applyNative (fun _ => true) 7) (.new 10 0)).attribution 1 =
      (some (some 10, .full), some 10) := by
  refine ⟨?_, by decide, by decide⟩
  intro hisolated
  have hnames := hisolated.names 1 foreignInfo (by decide)
  revert hnames
  decide

end Core
end Kitsune2
