import Kitsune2.Dht.Summary

/-!
# Incremental — a DHT kept up to date equals a DHT that is rebuilt

A run stores batches of new ops, tells the DHT about each batch, and updates the DHT as time goes
on.  After an update the DHT has the same snapshots as one that is built from the ops alone, and as
one that is built from the store with its slice hashes, as after a restart.
-/

namespace Kitsune2
namespace Dht

open Api Lib
open Std (ExtTreeMap)

variable {loc : LocCb} {n : Nat} {t : Int}

/-! ## Stores -/

def OpStore.ids (st : OpStore) : List Bytes :=
  st.opList.map fun op => op.opId

/-- The same ops, and no slice hashes. -/
def OpStore.opsOnly (st : OpStore) : OpStore :=
  { st with sliceHashes := fun _ => ∅ }

theorem processIncomingOps_new :
    ∀ (ops : List OpRecord) (st : OpStore), (st.ids ++ ops.map fun op => op.opId).Nodup →
      st.processIncomingOps ops = { st with opList := st.opList ++ ops } := by
  intro ops
  induction ops with
  | nil =>
      intro st _
      simp [OpStore.processIncomingOps]
  | cons op ops ih =>
      intro st hnd
      have hnew : (st.opList.any fun o => o.opId == op.opId) = false := by
        rw [List.any_eq_false]
        intro o ho heq
        have hmem : o.opId ∈ st.ids := List.mem_map.mpr ⟨o, ho, rfl⟩
        have hdisj := List.disjoint_of_nodup_append hnd
        exact hdisj hmem (by simp [beq_iff_eq.mp heq])
      have hins : st.insertOp op = { st with opList := st.opList ++ [op] } := by
        simp [OpStore.insertOp, hnew]
      have hstep : st.processIncomingOps (op :: ops) =
          (st.insertOp op).processIncomingOps ops := rfl
      rw [hstep, hins, ih]
      · simp
      · have heq : ({ st with opList := st.opList ++ [op] } : OpStore).ids = st.ids ++ [op.opId] := by
          simp [OpStore.ids]
        rw [heq, List.append_assoc]
        exact hnd

theorem stored_append {st : OpStore} {ops : List OpRecord} :
    ({ st with opList := st.opList ++ ops } : OpStore).stored =
      st.stored ++ ops.map fun op => op.toStoredOp := by
  simp [OpStore.stored]

namespace DhtState

/-- The partition and the store, as the functions of the hash partition see them. -/
def env (d : DhtState) : HashEnv where
  partition := d.partition
  store := d.store

theorem returns_onPartition_iff {m : HashM Unit} {d d' : DhtState} {u : Unit} :
    Returns (onPartition m) d u d' ↔ ∃ env', Returns m d.env () env' ∧
      d' = { d with partition := env'.partition, store := env'.store } :=
  returns_zoom_iff

/-- The slice hashes of the DHT match the ops of its store, at time `t`. -/
def Accurate (loc : LocCb) (t : Int) (d : DhtState) : Prop :=
  PartitionAccurate loc timeFactor t d.store.stored d.env

/-! ## Steps -/

inductive Step
  | storeAndInform (now : Int) (ops : List OpRecord)
  | update (now : Int)

def Step.now : Step → Int
  | .storeAndInform now _ => now
  | .update now => now

/-- One step: store a batch and inform the DHT of it, or update the DHT. -/
def step (loc : LocCb) : Step → DhtM Unit
  | .storeAndInform _ ops => do
      Eff.modify fun d => { d with store := d.store.processIncomingOps ops }
      informOpsStored loc (ops.map fun op => op.toStoredOp)
  | .update now => update loc now

def run (loc : LocCb) (steps : List Step) : DhtM Unit :=
  Eff.each (step loc) steps

/-- Ops with ids of length `n`, from between the epoch and now. -/
def OpsAt (n : Nat) (now : Int) (ops : List OpRecord) : Prop :=
  ∀ op ∈ ops, op.opId.length = n ∧ 0 ≤ op.createdAt ∧ op.createdAt ≤ now

/-- A run whose clock does not go backwards and that stores every op once. -/
def ValidRun (n : Nat) : Int → List Bytes → List Step → Prop
  | _, _, [] => True
  | last, held, .storeAndInform now ops :: rest =>
      last ≤ now ∧ now ≤ i64Max ∧ OpsAt n now ops ∧ (held ++ ops.map fun op => op.opId).Nodup ∧
        ValidRun n now (held ++ ops.map fun op => op.opId) rest
  | last, held, .update now :: rest => last ≤ now ∧ now ≤ i64Max ∧ ValidRun n now held rest

/-- A store to start from: every op once, and no slice hashes yet. -/
structure StartStore (n : Nat) (now : Int) (st : OpStore) : Prop where
  reliable : st.failures = []
  fresh : ∀ arc, st.sliceHashes arc = ∅
  ops : OpsAt n now st.opList
  nodup : st.ids.Nodup

/-! ## The invariant of a run -/

/-- At clock time `last` the DHT, updated last at `t`, counts the ops of its store. -/
structure Tracking (loc : LocCb) (n : Nat) (last t : Int) (d : DhtState) : Prop where
  accurate : d.Accurate loc t
  le : t ≤ last
  reliable : d.store.failures = []
  ops : OpsAt n last d.store.opList

theorem Tracking.idsOfLength {last : Int} {d : DhtState} (h : Tracking loc n last t d) :
    IdsOfLength n d.store.stored := by
  intro op hop
  rcases List.mem_map.mp hop with ⟨r, hr, rfl⟩
  exact (h.ops r hr).1

theorem Tracking.created {last : Int} {d : DhtState} (h : Tracking loc n last t d) :
    ∀ op ∈ d.store.stored, 0 ≤ op.createdAt ∧ op.createdAt ≤ last := by
  intro op hop
  rcases List.mem_map.mp hop with ⟨r, hr, rfl⟩
  exact (h.ops r hr).2

theorem timeFactor_le : timeFactor ≤ 53 := by decide

theorem returns_tryFromStore_iff {st : OpStore} {d : DhtState} :
    tryFromStore loc t st = .ok d ↔
      ∃ p st', Returns (HashPartition.tryFromStore loc timeFactor t) st p st' ∧
      d = { partition := p, store := st', opCount := st.opList.length } := by
  unfold tryFromStore Returns
  rcases hbuild : HashPartition.tryFromStore loc timeFactor t st with ⟨r, st'⟩
  cases r with
  | error e =>
      simp
  | ok p =>
      simp [eq_comm]

theorem StartStore.rebuildable {st : OpStore} (h : StartStore n t st) :
    Rebuildable loc timeFactor t (List.range numSectors) st := by
  refine ⟨?_, ?_⟩
  · intro i _
    exact ⟨0, Nat.zero_le _, slicesStored_of_empty (h.fresh _)⟩
  · intro op hop
    rcases List.mem_map.mp hop with ⟨r, hr, rfl⟩
    exact (h.ops r hr).2

theorem accurate_of_rebuildable {st : OpStore} {d : DhtState} (ht : 0 ≤ t) (hfits : t ≤ i64Max)
    (h : Rebuildable loc timeFactor t (List.range numSectors) st)
    (hd : tryFromStore loc t st = .ok d) :
    d.Accurate loc t ∧ d.store.opList = st.opList ∧ (st.failures = [] → d.store.failures = []) := by
  rcases returns_tryFromStore_iff.mp hd with ⟨p, st', hret, rfl⟩
  rcases rebuilt_partition (by decide) timeFactor_le ht hfits h hret with ⟨hacc, honly⟩
  refine ⟨?_, honly.opList, honly.reliable⟩
  have hstored : st'.stored = st.stored := honly.stored
  unfold Accurate
  simp only [env, hstored]
  exact hacc

/-- Storing ops does not touch the slice hashes. -/
theorem Accurate.storing {d : DhtState} (h : d.Accurate loc t) (ops : List OpRecord) :
    PartitionAccurate loc timeFactor t d.store.stored
      (env { d with store := { d.store with opList := d.store.opList ++ ops } }) := by
  refine ⟨h.size, h.length, ?_⟩
  intro i tp htp
  have hacc := h.sector i tp htp
  exact ⟨hacc.shape, hacc.nonneg, hacc.fits, hacc.fullSlices, hacc.partialSlices, hacc.slices⟩

theorem returns_storeAndInform_iff {now : Int} {d d' : DhtState} {ops : List OpRecord} :
    Returns (step loc (.storeAndInform now ops)) d () d' ↔
      Returns (informOpsStored loc (ops.map fun op => op.toStoredOp))
        { d with store := d.store.processIncomingOps ops } () d' :=
  returns_modify_bind_iff

/-- Storing a batch and informing the DHT of it keeps the DHT accurate. -/
theorem Accurate.storeAndInform {now : Int} {d d' : DhtState} {ops : List OpRecord} {u : Unit}
    (h : d.Accurate loc t) (hops : ∀ op ∈ ops, 0 ≤ op.createdAt)
    (hnd : (d.store.ids ++ ops.map fun op => op.opId).Nodup)
    (hret : Returns (step loc (.storeAndInform now ops)) d u d') :
    d'.Accurate loc t ∧ d'.store.opList = d.store.opList ++ ops ∧
      (d.store.failures = [] → d'.store.failures = []) := by
  have hret := returns_modify_bind_iff.mp hret
  rcases returns_bind_iff.mp hret with ⟨_, d1, hinf, hcount⟩
  rw [returns_modify_iff] at hcount
  rcases returns_onPartition_iff.mp hinf with ⟨env', hpart, rfl⟩
  -- the ids are new, so the store takes every op
  rw [processIncomingOps_new ops d.store hnd] at hpart
  have hpos : ∀ op ∈ ops.map (fun op => op.toStoredOp), 0 ≤ op.createdAt := by
    intro op hop
    rcases List.mem_map.mp hop with ⟨r, hr, rfl⟩
    exact hops r hr
  rcases (h.storing ops).informed timeFactor_le hpos hpart with ⟨hacc, hframe⟩
  have hopList : d'.store.opList = d.store.opList ++ ops := by
    rw [hcount]
    exact hframe.opList
  have hstored : d'.store.stored = d.store.stored ++ ops.map fun op => op.toStoredOp := by
    unfold OpStore.stored
    rw [hopList, List.map_append]
  refine ⟨?_, hopList, ?_⟩
  · unfold Accurate
    rw [hstored, hcount]
    exact hacc
  · intro hrel
    rw [hcount]
    exact hframe.reliable hrel

/-- On a store that does not fail, storing and informing always returns. -/
theorem Accurate.storeAndInform_returns (now : Int) {d : DhtState} {ops : List OpRecord}
    (h : d.Accurate loc t) (hrel : d.store.failures = []) (hids : IdsOfLength n d.store.stored)
    (hn : 0 < n) (hops : ∀ op ∈ ops, op.opId.length = n ∧ 0 ≤ op.createdAt)
    (hnd : (d.store.ids ++ ops.map fun op => op.opId).Nodup) :
    ∃ d', Returns (step loc (.storeAndInform now ops)) d () d' := by
  have hpos : ∀ op ∈ ops.map (fun op => op.toStoredOp), 0 ≤ op.createdAt := by
    intro op hop
    rcases List.mem_map.mp hop with ⟨r, hr, rfl⟩
    exact (hops r hr).2
  have hlen : IdsOfLength n (ops.map fun op => op.toStoredOp) := by
    intro op hop
    rcases List.mem_map.mp hop with ⟨r, hr, rfl⟩
    exact (hops r hr).1
  have hstart : PartitionAccurate loc timeFactor t d.store.stored
      (env { d with store := d.store.processIncomingOps ops }) := by
    rw [processIncomingOps_new ops d.store hnd]
    exact h.storing ops
  have hrel' : (d.store.processIncomingOps ops).failures = [] := by
    rw [processIncomingOps_new ops d.store hnd]
    exact hrel
  rcases hstart.inform_returns timeFactor_le hrel' hids hn hlen hpos with ⟨env', henv⟩
  exact ⟨_, returns_modify_bind_iff.mpr (returns_bind_iff.mpr
    ⟨(), _, returns_onPartition_iff.mpr ⟨env', henv, rfl⟩, returns_modify_iff.mpr rfl⟩)⟩

/-- A store step keeps the DHT tracking its store. -/
theorem Tracking.storeAndInform {last now : Int} {d d' : DhtState} {ops : List OpRecord} {u : Unit}
    (h : Tracking loc n last t d) (hle : last ≤ now) (hops : OpsAt n now ops)
    (hnd : (d.store.ids ++ ops.map fun op => op.opId).Nodup)
    (hret : Returns (step loc (.storeAndInform now ops)) d u d') :
    Tracking loc n now t d' ∧ d'.store.opList = d.store.opList ++ ops := by
  rcases h.accurate.storeAndInform (fun op hop => (hops op hop).2.1) hnd hret
    with ⟨hacc, hopList, hrel⟩
  refine ⟨⟨hacc, le_trans h.le hle, hrel h.reliable, ?_⟩, hopList⟩
  intro op hop
  rw [hopList] at hop
  rcases List.mem_append.mp hop with hold | hnew
  · rcases h.ops op hold with ⟨hlen, hlow, hhigh⟩
    exact ⟨hlen, hlow, le_trans hhigh hle⟩
  · exact hops op hnew

theorem Tracking.update {last now : Int} {d d' : DhtState} {u : Unit} (h : Tracking loc n last t d)
    (hle : last ≤ now) (hfits : now ≤ i64Max) (hret : Returns (step loc (.update now)) d u d') :
    Tracking loc n now now d' ∧ d'.store.opList = d.store.opList ∧ NextFits timeFactor now := by
  rcases returns_onPartition_iff.mp hret with ⟨env', hpart, rfl⟩
  rcases h.accurate.updated timeFactor_le (le_trans h.le hle) hfits (freshAgree_self _ _ _ _ _) hpart
    with ⟨hacc, hframe, hnext⟩
  have hstored : env'.store.stored = d.store.stored := by
    unfold OpStore.stored
    rw [hframe.opList]
    rfl
  refine ⟨⟨?_, le_refl now, hframe.reliable h.reliable, ?_⟩, hframe.opList, hnext⟩
  · unfold Accurate
    simp only [env, hstored]
    exact hacc
  · intro op hop
    have hlist : env'.store.opList = d.store.opList := hframe.opList
    rw [hlist] at hop
    rcases h.ops op hop with ⟨hlen, hlow, hhigh⟩
    exact ⟨hlen, hlow, le_trans hhigh hle⟩

/-- What a whole run keeps; the steps that follow are valid where the run ends. -/
theorem Tracking.run :
    ∀ (steps : List Step) {rest : List Step} {last t : Int} {d d' : DhtState} {u : Unit},
      Tracking loc n last t d → ValidRun n last d.store.ids (steps ++ rest) →
      Returns (run loc steps) d u d' →
      ∃ last' t', Tracking loc n last' t' d' ∧ ValidRun n last' d'.store.ids rest := by
  intro steps
  induction steps with
  | nil =>
      intro rest last t d d' u h hvalid hret
      rcases returns_pure_iff.mp hret with ⟨_, rfl⟩
      exact ⟨last, t, h, hvalid⟩
  | cons s steps ih =>
      intro rest last t d d' u h hvalid hret
      rcases returns_each_cons_iff.mp hret with ⟨d1, h1, h2⟩
      -- the step of the run lemma: the validity of the rest follows the ids that are stored now
      cases s with
      | storeAndInform now ops =>
          rcases hvalid with ⟨hle, _, hops, hnd, hrest⟩
          rcases h.storeAndInform hle hops hnd h1 with ⟨htrack, hlist⟩
          have hids : d1.store.ids = d.store.ids ++ ops.map fun op => op.opId := by
            simp [OpStore.ids, hlist]
          rw [← hids] at hrest
          exact ih htrack hrest h2
      | update now =>
          rcases hvalid with ⟨hle, hfits, hrest⟩
          rcases h.update hle hfits h1 with ⟨htrack, hlist, _⟩
          have hids : d1.store.ids = d.store.ids := by
            simp [OpStore.ids, hlist]
          rw [← hids] at hrest
          exact ih htrack hrest h2

/-! ## Runs return -/

theorem Tracking.step_returns {last : Int} {d : DhtState} {s : Step} (hn : 0 < n)
    (h : Tracking loc n last t d) (hvalid : ValidRun n last d.store.ids [s])
    (hroom : s.now + unitTime ≤ i64Max) : ∃ d', Returns (step loc s) d () d' := by
  cases s with
  | storeAndInform now ops =>
      rcases hvalid with ⟨_, _, hops, hnd, _⟩
      exact h.accurate.storeAndInform_returns now h.reliable h.idsOfLength hn
        (fun op hop => ⟨(hops op hop).1, (hops op hop).2.1⟩) hnd
  | update now =>
      rcases hvalid with ⟨hle, hfits, _⟩
      have hnow : 0 ≤ now := le_trans h.accurate.nonneg.1 (le_trans h.le hle)
      rcases h.accurate.update_returns timeFactor_le h.reliable h.idsOfLength (le_trans h.le hle)
        hfits (nextFits_of_le hnow hroom) with ⟨env', henv⟩
      exact ⟨_, returns_onPartition_iff.mpr ⟨env', henv, rfl⟩⟩

theorem Tracking.run_returns (hn : 0 < n) :
    ∀ (steps : List Step) {last t : Int} {d : DhtState}, Tracking loc n last t d →
      ValidRun n last d.store.ids steps → (∀ s ∈ steps, s.now + unitTime ≤ i64Max) →
      ∃ d', Returns (DhtState.run loc steps) d () d' := by
  intro steps
  induction steps with
  | nil =>
      intro last t d _ _ _
      exact ⟨d, returns_pure_iff.mpr ⟨rfl, rfl⟩⟩
  | cons s steps ih =>
      intro last t d h hvalid hroom
      have hone : ValidRun n last d.store.ids [s] := by
        cases s with
        | storeAndInform now ops =>
            exact ⟨hvalid.1, hvalid.2.1, hvalid.2.2.1, hvalid.2.2.2.1, trivial⟩
        | update now =>
            exact ⟨hvalid.1, hvalid.2.1, trivial⟩
      rcases h.step_returns hn hone (hroom s (by simp)) with ⟨d1, h1⟩
      have hfirst : Returns (DhtState.run loc [s]) d () d1 :=
        returns_each_cons_iff.mpr ⟨d1, h1, returns_pure_iff.mpr ⟨rfl, rfl⟩⟩
      rcases h.run [s] hvalid hfirst with ⟨last', t', htrack, hrest⟩
      rcases ih htrack hrest (fun s' hs' => hroom s' (by simp [hs'])) with ⟨d', h2⟩
      exact ⟨d', returns_each_cons_iff.mpr ⟨d1, h1, h2⟩⟩

/-! ## The same snapshots -/

/-- The two DHTs answer every request for a snapshot in the same way. -/
structure SameSnapshots (d d' : DhtState) : Prop where
  minimal : ∀ arcSet, d.snapshotMinimal arcSet = d'.snapshotMinimal arcSet
  discSectors : ∀ arcSet, d.snapshotDiscSectors arcSet = d'.snapshotDiscSectors arcSet
  discSectorDetails : ∀ sectors arcSet,
    d.snapshotDiscSectorDetails sectors arcSet = d'.snapshotDiscSectorDetails sectors arcSet
  ringSectorDetails : ∀ rings arcSet,
    d.snapshotRingSectorDetails rings arcSet = d'.snapshotRingSectorDetails rings arcSet

/-- The hash of a ring in a sector, or the error for a ring that is not there. -/
def slotHash (loc : LocCb) (t : Int) (counted : List StoredOp) (i ring : Nat) : Except Fault Bytes :=
  match (slotsAt timeFactor t)[ring]? with
  | none => .error (.k2 "Requested slice index is beyond the current partial slices")
  | some slot => .ok (slotXor loc (sectorArc i) counted slot)

/-- `ring_details`, from the counted ops alone. -/
def ringDetailsOf (loc : LocCb) (t : Int) (counted : List StoredOp) (arcSet : ArcSet)
    (rings : List Nat) : Except Fault (ExtTreeMap Nat (ExtTreeMap Nat Bytes) × Int) := do
  let out ← arcSet.sectors.foldlM (fun (out : ExtTreeMap Nat (ExtTreeMap Nat Bytes)) i =>
    rings.foldlM (fun (out : ExtTreeMap Nat (ExtTreeMap Nat Bytes)) ring => do
      let hash ← slotHash loc t counted i ring
      pure (HashPartition.addRingHash out ring i hash)) out) ∅
  pure (out, fullEnd timeFactor (fullCount timeFactor t))

theorem ringDetails_eq {counted : List StoredOp} {e : HashEnv}
    (h : PartitionAccurate loc timeFactor t counted e) (arcSet : ArcSet) (rings : List Nat) :
    e.partition.ringDetails arcSet rings = ringDetailsOf loc t counted arcSet rings := by
  -- a hash of a sector is a function of the counted ops, so the loops agree step by step
  have hhash : ∀ (tp : TimePartition) (i ring : Nat), e.partition.sectors[i]? = some tp →
      tp.partialSliceHash ring = slotHash loc t counted i ring := by
    intro tp i ring htp
    have hslices : tp.partialSlices =
        (slotsAt timeFactor t).map (exactSlice loc (sectorArc i) counted) :=
      (h.sector i tp htp).partialSlices
    unfold TimePartition.partialSliceHash slotHash
    rw [hslices, List.getElem?_map]
    cases (slotsAt timeFactor t)[ring]? with
    | none =>
        rfl
    | some slot =>
        rfl
  have hsector : ∀ (out : ExtTreeMap Nat (ExtTreeMap Nat Bytes)) (tp : TimePartition) (i : Nat),
      e.partition.sectors[i]? = some tp →
      rings.foldlM (fun (out : ExtTreeMap Nat (ExtTreeMap Nat Bytes)) ring => do
        let hash ← tp.partialSliceHash ring
        pure (HashPartition.addRingHash out ring i hash)) out =
      rings.foldlM (fun (out : ExtTreeMap Nat (ExtTreeMap Nat Bytes)) ring => do
        let hash ← slotHash loc t counted i ring
        pure (HashPartition.addRingHash out ring i hash)) out := by
    intro out tp i htp
    apply foldlM_congr_mem
    intro out ring _
    rw [hhash tp i ring htp]
  have hloop := foldlM_includedSectors (F := fun (out : ExtTreeMap Nat (ExtTreeMap Nat Bytes)) e =>
      rings.foldlM (fun (out : ExtTreeMap Nat (ExtTreeMap Nat Bytes)) ring => do
        let hash ← e.1.partialSliceHash ring
        pure (HashPartition.addRingHash out ring e.2 hash)) out) h.length hsector arcSet ∅
  unfold HashPartition.ringDetails ringDetailsOf
  rw [hloop, h.boundary_ok]
  rfl

/-- Accurate DHTs of the same ops at the same time have the same snapshots. -/
theorem sameSnapshots_of_accurate {d d' : DhtState} (h : d.Accurate loc t) (h' : d'.Accurate loc t)
    (hops : d'.store.opList = d.store.opList) (hids : IdsOfLength n d.store.stored) :
    SameSnapshots d d' := by
  -- both count the same ops, and each snapshot is a function of them
  have hstored : d'.store.stored = d.store.stored := by
    unfold OpStore.stored
    rw [hops]
  unfold Accurate at h'
  rw [hstored] at h'
  refine ⟨?_, ?_, ?_, ?_⟩
  · intro arcSet
    unfold snapshotMinimal
    by_cases harcs : arcSet.coveredSectorCount = 0
    · rw [if_pos harcs, if_pos harcs]
    · rw [if_neg harcs, if_neg harcs]
      have hdisc := h.discTopHash_ok hids arcSet
      have hdisc' := h'.discTopHash_ok hids arcSet
      have hring := h.ringTopHashes_ok hids harcs
      have hring' := h'.ringTopHashes_ok hids harcs
      simp only [env] at hdisc hdisc' hring hring'
      rw [hdisc, hdisc', hring, hring']
  · intro arcSet
    have hdisc := h.discSectorHashes_ok hids arcSet
    have hdisc' := h'.discSectorHashes_ok hids arcSet
    simp only [env] at hdisc hdisc'
    unfold snapshotDiscSectors
    rw [hdisc, hdisc']
  · intro sectors arcSet
    have hdisc := h.discDetails_ok arcSet sectors
    have hdisc' := h'.discDetails_ok arcSet sectors
    simp only [env] at hdisc hdisc'
    unfold snapshotDiscSectorDetails
    rw [hdisc, hdisc']
  · intro rings arcSet
    have hring := ringDetails_eq h arcSet rings
    have hring' := ringDetails_eq h' arcSet rings
    simp only [env] at hring hring'
    unfold snapshotRingSectorDetails
    rw [hring, hring']

/-- The snapshots of an accurate DHT are there. -/
theorem Accurate.snapshotMinimal_ok {d : DhtState} (h : d.Accurate loc t)
    (hids : IdsOfLength n d.store.stored) {arcSet : ArcSet} (harcs : arcSet.coveredSectorCount ≠ 0) :
    d.snapshotMinimal arcSet = .ok (.minimal
      (regionXor d.store.stored (inArcs loc arcSet 0 (fullEnd timeFactor (fullCount timeFactor t))))
      (fullEnd timeFactor (fullCount timeFactor t))
      ((slotsAt timeFactor t).map (ringXor loc d.store.stored arcSet))) := by
  unfold snapshotMinimal
  rw [if_neg harcs]
  exact bind_eq_ok_iff.mpr ⟨_, h.discTopHash_ok hids arcSet,
    bind_eq_ok_iff.mpr ⟨_, h.ringTopHashes_ok hids harcs, rfl⟩⟩

/-! ## The main result -/

/-- The store of an accurate DHT can be rebuilt from, with or without its slice hashes. -/
theorem Tracking.rebuildable {last : Int} {d : DhtState} (h : Tracking loc n last last d) :
    Rebuildable loc timeFactor last (List.range numSectors) d.store := by
  refine ⟨?_, h.created⟩
  intro i hi
  refine ⟨fullCount timeFactor last, le_refl _, ?_⟩
  have hlt : i < d.env.partition.sectors.length := by
    rw [h.accurate.length]
    exact List.mem_range.mp hi
  have hacc := h.accurate.sector i _ (List.getElem?_eq_getElem hlt)
  exact hacc.slices

theorem Tracking.rebuildable_opsOnly {last : Int} {d : DhtState} (h : Tracking loc n last last d) :
    Rebuildable loc timeFactor last (List.range numSectors) d.store.opsOnly :=
  ⟨fun _ _ => ⟨0, Nat.zero_le _, slicesStored_of_empty rfl⟩, h.created⟩

/-- A rebuilt DHT has the snapshots of the one that was kept up to date. -/
theorem Tracking.rebuilt_same {last : Int} {d : DhtState} (h : Tracking loc n last last d)
    (hnext : NextFits timeFactor last) {st : OpStore} (hops : st.opList = d.store.opList)
    (hrel : st.failures = [])
    (hre : Rebuildable loc timeFactor last (List.range numSectors) st) :
    ∃ d', tryFromStore loc last st = .ok d' ∧ SameSnapshots d d' := by
  have hstored : st.stored = d.store.stored := by
    unfold OpStore.stored
    rw [hops]
  have hids : IdsOfLength n st.stored := by
    rw [hstored]
    exact h.idsOfLength
  rcases h.accurate.nonneg with ⟨hnonneg, hfits⟩
  rcases rebuild_returns (by decide) timeFactor_le hnonneg hfits hnext hrel hids hre
    with ⟨p, st', hbuild⟩
  have hd' := returns_tryFromStore_iff.mpr ⟨p, st', hbuild, rfl⟩
  rcases accurate_of_rebuildable hnonneg hfits hre hd' with ⟨hacc, hlist, _⟩
  exact ⟨_, hd', sameSnapshots_of_accurate h.accurate hacc (hlist.trans hops) h.idsOfLength⟩

/-- A new DHT tracks its store. -/
theorem StartStore.tracking {st : OpStore} {d : DhtState} (h : StartStore n t st) (ht : 0 ≤ t)
    (hfits : t ≤ i64Max) (hd : tryFromStore loc t st = .ok d) :
    Tracking loc n t t d ∧ d.store.ids = st.ids := by
  rcases accurate_of_rebuildable ht hfits h.rebuildable hd with ⟨hacc, hlist, hrel⟩
  refine ⟨⟨hacc, le_refl t, hrel h.reliable, ?_⟩, ?_⟩
  · rw [hlist]
    exact h.ops
  · unfold OpStore.ids
    rw [hlist]

/-- A DHT can be built from a fresh store, as long as the clock leaves room for the next update. -/
theorem StartStore.built {st : OpStore} (loc : LocCb) (h : StartStore n t st) (ht : 0 ≤ t)
    (hroom : t + unitTime ≤ i64Max) :
    ∃ d, tryFromStore loc t st = .ok d ∧ Tracking loc n t t d ∧ d.store.opList = st.opList := by
  have hunit : (0 : Int) ≤ unitTime := Int.natCast_nonneg _
  have hfits : t ≤ i64Max := by linarith
  have hids : IdsOfLength n st.stored := by
    intro op hop
    rcases List.mem_map.mp hop with ⟨r, hr, rfl⟩
    exact (h.ops r hr).1
  rcases rebuild_returns (by decide) timeFactor_le ht hfits (nextFits_of_le ht hroom)
    h.reliable hids h.rebuildable with ⟨p, st', hbuild⟩
  have hd := returns_tryFromStore_iff.mpr ⟨p, st', hbuild, rfl⟩
  rcases accurate_of_rebuildable ht hfits h.rebuildable hd with ⟨_, hlist, _⟩
  exact ⟨_, hd, (h.tracking ht hfits hd).1, hlist⟩

/-- Runs of stored batches and updates from a fresh store return as long as the clock leaves room
for the next update; and after every update the DHT has the snapshots of a DHT built at that time,
both from the ops alone and from the store with its slice hashes. -/
theorem incremental_eq_rebuilt (loc : LocCb) {n : Nat} (hn : 0 < n) {start : Int} (hstart : 0 ≤ start)
    {st : OpStore} (hst : StartStore n start st) {steps : List Step}
    (hvalid : ValidRun n start st.ids steps) :
    (start + unitTime ≤ i64Max → (∀ s ∈ steps, s.now + unitTime ≤ i64Max) →
      ∃ d0 d, tryFromStore loc start st = .ok d0 ∧ Returns (run loc steps) d0 () d) ∧
    ∀ init now d0 d, start ≤ i64Max → steps = init ++ [.update now] →
      tryFromStore loc start st = .ok d0 → Returns (run loc steps) d0 () d →
      (∃ d', tryFromStore loc now d.store.opsOnly = .ok d' ∧ SameSnapshots d d') ∧
      (∃ d', tryFromStore loc now d.store = .ok d' ∧ SameSnapshots d d') ∧
      ∀ arcSet : ArcSet, arcSet.coveredSectorCount ≠ 0 → ∃ s, d.snapshotMinimal arcSet = .ok s := by
  refine ⟨?_, ?_⟩
  · intro hroom hrooms
    rcases hst.built loc hstart hroom with ⟨d0, hd0, htrack, hlist⟩
    have hheld : d0.store.ids = st.ids := by
      unfold OpStore.ids
      rw [hlist]
    rw [← hheld] at hvalid
    rcases htrack.run_returns hn steps hvalid hrooms with ⟨d, hd⟩
    exact ⟨d0, d, hd0, hd⟩
  · intro init now d0 d hfits hsteps hd0 hrun
    subst hsteps
    rcases hst.tracking hstart hfits hd0 with ⟨htrack, hheld⟩
    rw [← hheld] at hvalid
    -- the run up to the last update, and the update itself
    rcases returns_each_append_iff.mp hrun with ⟨d1, hinit, hlast⟩
    rcases htrack.run init hvalid hinit with ⟨last, t, htrack1, hle, hnow, _⟩
    rcases returns_each_cons_iff.mp hlast with ⟨d2, hupdate, hend⟩
    rcases returns_pure_iff.mp hend with ⟨_, rfl⟩
    rcases htrack1.update hle hnow hupdate with ⟨htrack2, _, hnext⟩
    refine ⟨?_, ?_, ?_⟩
    · exact htrack2.rebuilt_same hnext rfl htrack2.reliable htrack2.rebuildable_opsOnly
    · exact htrack2.rebuilt_same hnext rfl htrack2.reliable htrack2.rebuildable
    · intro arcSet harcs
      exact ⟨_, htrack2.accurate.snapshotMinimal_ok htrack2.idsOfLength harcs⟩

/-- One op of the epoch, stored and counted, then an update after two units of time. -/
theorem incremental_eq_rebuilt_one :
    ∃ d0 d, tryFromStore (fun _ => 0) 0 OpStore.empty = .ok d0 ∧
      Returns (run (fun _ => 0)
        [.storeAndInform 10 [{ opId := [7], createdAt := 5, dataLen := 1 }], .update 1800000000])
        d0 () d ∧
      (∃ d', tryFromStore (fun _ => 0) 1800000000 d.store.opsOnly = .ok d' ∧ SameSnapshots d d') ∧
      ∃ d', tryFromStore (fun _ => 0) 1800000000 d.store = .ok d' ∧ SameSnapshots d d' := by
  have hstart : StartStore 1 0 OpStore.empty :=
    ⟨rfl, fun _ => rfl, by simp [OpsAt, OpStore.empty], by simp [OpStore.ids, OpStore.empty]⟩
  have hvalid : ValidRun 1 0 OpStore.empty.ids
      [.storeAndInform 10 [{ opId := [7], createdAt := 5, dataLen := 1 }], .update 1800000000] := by
    simp [ValidRun, OpsAt, OpStore.ids, OpStore.empty, i64Max]
  rcases incremental_eq_rebuilt (fun _ => 0) (by decide) (le_refl 0) hstart hvalid with ⟨hruns, hsame⟩
  have hrun : ∃ d0 d, tryFromStore (fun _ => 0) 0 OpStore.empty = .ok d0 ∧
      Returns (run (fun _ => 0)
        [.storeAndInform 10 [{ opId := [7], createdAt := 5, dataLen := 1 }], .update 1800000000])
        d0 () d := by
    apply hruns
    · rw [unitTime_eq]
      decide
    · intro s hs
      rw [unitTime_eq]
      simp only [List.mem_cons, List.not_mem_nil, or_false] at hs
      rcases hs with rfl | rfl
      · decide
      · decide
  rcases hrun with ⟨d0, d, hd0, hd⟩
  rcases hsame [.storeAndInform 10 [{ opId := [7], createdAt := 5, dataLen := 1 }]] 1800000000 d0 d
    (by decide) rfl hd0 hd with ⟨hops, hstore, _⟩
  exact ⟨d0, d, hd0, hd, hops, hstore⟩

end DhtState

end Dht
end Kitsune2
