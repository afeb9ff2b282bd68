import Kitsune2.Dht.Dht

/-!
# Summary — what the snapshots of an accurate DHT contain

Every hash of a snapshot is the XOR of the ids of the ops in a region of the DHT: a slice of a
sector, the disc of a sector, the whole disc or a ring over an arc set.  Snapshots of an accurate
DHT therefore depend only on its time and the ops it counts.
-/

namespace Kitsune2
namespace Dht

open Api Lib
open Std (ExtTreeMap)

variable {loc : LocCb} {f n : Nat} {arc : DhtArc} {t : Int} {counted : List StoredOp}

/-! ## Regions -/

/-- The XOR of the ids of the ops in a region. -/
def regionXor (ops : List StoredOp) (p : StoredOp → Bool) : Bytes :=
  xorAll ((ops.filter p).map fun op => op.opId)

/-- The op lies in an arc set and an interval of time. -/
def inArcs (loc : LocCb) (arcSet : ArcSet) (start stop : Int) (op : StoredOp) : Bool :=
  decide (start ≤ op.createdAt) && decide (op.createdAt < stop) &&
    arcSet.includesSectorIndex (HashPartition.sectorIndex loc sectorSize op)

/-- A region that is cut in two. -/
theorem regionXor_split (ops : List StoredOp) (p q : StoredOp → Bool) :
    regionXor ops p =
      xorBytes (regionXor ops fun op => p op && q op) (regionXor ops fun op => p op && !q op) := by
  unfold regionXor
  rw [← xorAll_append, ← List.map_append]
  apply xorAll_perm
  apply List.Perm.map
  have hsplit := List.filter_append_perm q (ops.filter p)
  rw [List.filter_filter, List.filter_filter] at hsplit
  refine hsplit.symm.trans (List.Perm.of_eq ?_)
  simp only [Bool.and_comm]

theorem regionXor_congr {ops : List StoredOp} {p q : StoredOp → Bool} (h : ∀ op, p op = q op) :
    regionXor ops p = regionXor ops q := by
  rw [show p = q from funext h]

theorem sliceXor_split {start mid stop : Int} (hl : start ≤ mid) (hr : mid ≤ stop) :
    sliceXor loc arc counted start stop =
      xorBytes (sliceXor loc arc counted start mid) (sliceXor loc arc counted mid stop) := by
  have h := regionXor_split counted (inSlice loc arc start stop) (fun op => decide (op.createdAt < mid))
  -- of the ops in the slice those before `mid` are the left half's, the others the right half's
  have hleft : ∀ op, (inSlice loc arc start stop op && decide (op.createdAt < mid)) =
      inSlice loc arc start mid op := by
    intro op
    unfold inSlice
    rw [Bool.eq_iff_iff]
    simp only [Bool.and_eq_true, decide_eq_true_eq]
    constructor
    · rintro ⟨⟨⟨h1, _⟩, h3⟩, h4⟩
      exact ⟨⟨h1, h4⟩, h3⟩
    · rintro ⟨⟨h1, h2⟩, h3⟩
      exact ⟨⟨⟨h1, by omega⟩, h3⟩, h2⟩
  have hright : ∀ op, (inSlice loc arc start stop op && !decide (op.createdAt < mid)) =
      inSlice loc arc mid stop op := by
    intro op
    unfold inSlice
    rw [Bool.eq_iff_iff]
    simp only [Bool.and_eq_true, decide_eq_true_eq, Bool.not_eq_true', decide_eq_false_iff_not]
    constructor
    · rintro ⟨⟨⟨_, h2⟩, h3⟩, h4⟩
      exact ⟨⟨by omega, h2⟩, h3⟩
    · rintro ⟨⟨h1, h2⟩, h3⟩
      exact ⟨⟨⟨by omega, h2⟩, h3⟩, by omega⟩
  rw [regionXor_congr hleft, regionXor_congr hright] at h
  exact h

/-- The full slices together are the disc. -/
theorem xorAll_fullXor (k : Nat) :
    xorAll ((List.range k).map fun i => fullXor loc f arc counted i) =
      sliceXor loc arc counted 0 (fullEnd f k) := by
  induction k with
  | zero =>
      have hnil : sliceXor loc arc counted 0 (fullEnd f 0) = [] := by
        apply sliceXor_eq_nil
        intro op _
        unfold inSlice fullEnd
        rw [Bool.eq_false_iff]
        simp only [Nat.cast_zero, Int.mul_zero, ne_eq, Bool.and_eq_true, decide_eq_true_eq]
        omega
      simpa using hnil.symm
  | succ k ih =>
      rw [List.range_succ, List.map_append, xorAll_append, ih,
        sliceXor_split (fullEnd_nonneg f k) (fullEnd_mono (Nat.le_succ k))]
      simp [fullXor]

/-- The sectors of an arc set together are the region of the arc set. -/
theorem xorAll_sectors (start stop : Int) :
    ∀ l : List Nat, l.Nodup →
      xorAll (l.map fun i => sliceXor loc (sectorArc i) counted start stop) =
        regionXor counted fun op => decide (start ≤ op.createdAt) && decide (op.createdAt < stop) &&
          decide (HashPartition.sectorIndex loc sectorSize op ∈ l) := by
  intro l
  induction l with
  | nil =>
      intro _
      unfold regionXor
      simp
  | cons i l ih =>
      intro hnd
      rcases List.nodup_cons.mp hnd with ⟨hi, hnd'⟩
      rw [List.map_cons, xorAll_cons, ih hnd',
        regionXor_split counted (fun op => decide (start ≤ op.createdAt) &&
          decide (op.createdAt < stop) &&
          decide (HashPartition.sectorIndex loc sectorSize op ∈ i :: l))
          (fun op => decide (HashPartition.sectorIndex loc sectorSize op = i))]
      -- the ops of the sector `i`, and those of the sectors that are left
      congr 1
      · apply regionXor_congr
        intro op
        unfold inSlice
        rw [← contains_sectorArc_eq, Bool.and_assoc _ _ (decide (_ = i)),
          Bool.and_assoc, Bool.and_assoc]
        by_cases heq : HashPartition.sectorIndex loc sectorSize op = i
        · simp [heq]
        · simp [heq]
      · apply regionXor_congr
        intro op
        by_cases heq : HashPartition.sectorIndex loc sectorSize op = i
        · simp [heq, hi]
        · simp [heq]

/-! ## Loops over the sectors of an arc set -/

/-- The sectors of an arc set, in order. -/
def ArcSet.sectors (a : ArcSet) : List Nat :=
  (List.range numSectors).filter a.includesSectorIndex

theorem ArcSet.mem_sectors_iff {a : ArcSet} {i : Nat} : i ∈ a.sectors ↔ i ∈ a.inner := by
  unfold ArcSet.sectors
  rw [List.mem_filter, List.mem_range]
  simp only [ArcSet.includesSectorIndex, decide_eq_true_eq]
  exact ⟨fun h => h.2, fun h => ⟨a.bounded i h, h⟩⟩

theorem ArcSet.nodup_sectors (a : ArcSet) : a.sectors.Nodup :=
  List.nodup_range.filter _

theorem inArcs_eq (loc : LocCb) (a : ArcSet) (start stop : Int) (op : StoredOp) :
    inArcs loc a start stop op =
      (decide (start ≤ op.createdAt) && decide (op.createdAt < stop) &&
        decide (HashPartition.sectorIndex loc sectorSize op ∈ a.sectors)) := by
  unfold inArcs ArcSet.includesSectorIndex
  rw [decide_eq_decide.mpr ArcSet.mem_sectors_iff.symm]

/-- The region of an arc set, sector by sector. -/
theorem xorAll_arcs (a : ArcSet) (start stop : Int) :
    xorAll (a.sectors.map fun i => sliceXor loc (sectorArc i) counted start stop) =
      regionXor counted (inArcs loc a start stop) := by
  rw [xorAll_sectors start stop a.sectors a.nodup_sectors]
  exact regionXor_congr fun op => (inArcs_eq loc a start stop op).symm

section Queries

variable {env : HashEnv} {arcSet : ArcSet}

theorem includedSectors_map (h : env.partition.sectors.length = numSectors) :
    (env.partition.includedSectors arcSet).map (fun e => e.2) = arcSet.sectors := by
  unfold HashPartition.includedSectors ArcSet.sectors
  have hidx : env.partition.sectors.zipIdx.map Prod.snd = List.range numSectors := by
    rw [List.zipIdx_map_snd, h, List.range_eq_range']
  rw [← hidx, List.filter_map]
  rfl

theorem mem_includedSectors {e : TimePartition × Nat}
    (h : e ∈ env.partition.includedSectors arcSet) : env.partition.sectors[e.2]? = some e.1 := by
  have hmem := (List.mem_filter.mp h).1
  exact List.mk_mem_zipIdx_iff_getElem?.mp hmem

/-- A loop over the included sectors is a loop over their indices. -/
theorem foldlM_includedSectors {σ : Type} {F : σ → TimePartition × Nat → Except Fault σ}
    {G : σ → Nat → Except Fault σ} (hlen : env.partition.sectors.length = numSectors)
    (h : ∀ s tp i, env.partition.sectors[i]? = some tp → F s (tp, i) = G s i) (arcSet : ArcSet)
    (s : σ) :
    (env.partition.includedSectors arcSet).foldlM F s = arcSet.sectors.foldlM G s := by
  rw [← includedSectors_map hlen, List.foldlM_map]
  apply foldlM_congr_mem
  intro s e he
  exact h s e.1 e.2 (mem_includedSectors he)

/-! ## One sector -/

/-- The slice hashes of an accurate sector. -/
theorem SectorAccurate.sliceHashes_eq {e : SectorEnv} (h : SectorAccurate loc f arc t counted e) :
    e.store.sliceHashes arc =
      insertAll ∅ (List.range (fullCount f t)) fun k => optHash (fullXor loc f arc counted k) := by
  apply ExtTreeMap.ext_getElem?
  intro k
  rw [h.slices k, getElem?_insertAll]
  simp

theorem xorAll_filterMap_optHash (g : Nat → Bytes) :
    ∀ l : List Nat, xorAll (l.filterMap fun k => optHash (g k)) = xorAll (l.map g) := by
  intro l
  induction l with
  | nil =>
      rfl
  | cons k l ih =>
      by_cases hnil : g k = []
      · have hopt : optHash (g k) = none := by simp [optHash, hnil]
        rw [List.filterMap_cons, List.map_cons, xorAll_cons, hopt, hnil, xorBytes_nil_left]
        exact ih
      · have hopt : optHash (g k) = some (g k) := by simp [optHash, hnil]
        rw [List.filterMap_cons, List.map_cons, xorAll_cons, hopt, ← ih]
        rfl

/-- The XOR of the ops of a sector in all full slices. -/
def discXor (loc : LocCb) (f : Nat) (t : Int) (counted : List StoredOp) (i : Nat) : Bytes :=
  sliceXor loc (sectorArc i) counted 0 (fullEnd f (fullCount f t))

theorem SectorAccurate.topHash_ok {e : SectorEnv} (h : SectorAccurate loc f arc t counted e)
    (hids : IdsOfLength n counted) :
    e.part.fullTimeSliceTopHash e.store =
      .ok (sliceXor loc arc counted 0 (fullEnd f (fullCount f t))) := by
  -- no hash is kept from the count on, so the map lists the slices below it
  have hbound : ∀ k, fullCount f t ≤ k → (e.store.sliceHashes arc)[k]? = none := by
    intro k hk
    rw [h.slices k, if_neg (by omega)]
  have hperm := (toList_perm hbound).map fun x => x.2
  have hvalues : ((List.range (fullCount f t)).filterMap fun k =>
        (e.store.sliceHashes arc)[k]?.map fun v => (k, v)).map (fun x => x.2) =
      (List.range (fullCount f t)).filterMap fun k => optHash (fullXor loc f arc counted k) := by
    rw [List.map_filterMap]
    apply List.filterMap_congr
    intro k hk
    rw [h.slices k, if_pos (List.mem_range.mp hk)]
    cases optHash (fullXor loc f arc counted k) with
    | none =>
        rfl
    | some v =>
        rfl
  rw [hvalues] at hperm
  have hlen : ∀ hash ∈ (e.store.sliceHashes arc).toList.map (fun x => x.2), hash.length = n := by
    intro hash hmem
    rcases List.mem_filterMap.mp (hperm.mem_iff.mp hmem) with ⟨k, _, hk⟩
    unfold optHash at hk
    by_cases hnil : fullXor loc f arc counted k = []
    · simp [hnil] at hk
    · rw [if_neg hnil] at hk
      cases hk
      exact (length_sliceXor hids _ _).resolve_left hnil
  unfold TimePartition.fullTimeSliceTopHash TimePartition.fullTimeSliceHashes
  rw [h.shape.sectorConstraint, combineOpHashes_ok hlen, xorAll_perm hperm,
    xorAll_filterMap_optHash, xorAll_fullXor]

theorem PartitionAccurate.topHash_ok (h : PartitionAccurate loc f t counted env)
    (hids : IdsOfLength n counted) {i : Nat} {tp : TimePartition}
    (htp : env.partition.sectors[i]? = some tp) :
    tp.fullTimeSliceTopHash env.store = .ok (discXor loc f t counted i) :=
  (h.sector i tp htp).topHash_ok hids

/-- The disc boundary of an accurate partition. -/
theorem PartitionAccurate.boundary_ok (h : PartitionAccurate loc f t counted env) :
    env.partition.fullSliceEndTimestamp = .ok (fullEnd f (fullCount f t)) := by
  have hlt : 0 < env.partition.sectors.length := by
    rw [h.length]
    decide
  have htp := List.getElem?_eq_getElem hlt
  have hacc := h.sector 0 _ htp
  have hfit : fullEnd f (env.partition.sectors[0]).fullSlices ≤ i64Max := by
    rw [hacc.fullSlices]
    exact le_trans (fullEnd_fullCount_le_self hacc.nonneg) hacc.fits
  have hend := fullSliceEndTimestamp_ok hacc.shape hfit
  rw [hacc.fullSlices] at hend
  have hfirst : env.partition.firstSector = .ok env.partition.sectors[0] := by
    unfold HashPartition.firstSector
    rw [List.head?_eq_getElem?, htp]
  exact bind_eq_ok_iff.mpr ⟨_, hfirst, hend⟩

/-! ## Snapshots -/

theorem foldlM_combineNonEmpty_ok {g : Nat → Bytes} :
    ∀ (l : List Nat) {acc : Bytes}, (acc = [] ∨ acc.length = n) →
      (∀ i, g i = [] ∨ (g i).length = n) →
      l.foldlM (fun acc i => HashPartition.combineNonEmpty acc (g i)) acc =
        .ok (xorBytes acc (xorAll (l.map g))) := by
  intro l
  induction l with
  | nil =>
      intro acc _ _
      simp [pure, Except.pure]
  | cons i l ih =>
      intro acc hacc hg
      have hstep : HashPartition.combineNonEmpty acc (g i) = .ok (xorBytes acc (g i)) := by
        unfold HashPartition.combineNonEmpty
        by_cases hnil : g i = []
        · simp [hnil]
        · rw [if_neg hnil]
          exact combineHashes_ok hacc ((hg i).resolve_left hnil)
      rw [List.foldlM_cons, List.map_cons, xorAll_cons, ← xorBytes_assoc]
      exact bind_eq_ok_iff.mpr ⟨_, hstep, ih (length_xorBytes hacc (hg i)) hg⟩

theorem PartitionAccurate.discTopHash_ok (h : PartitionAccurate loc f t counted env)
    (hids : IdsOfLength n counted) (arcSet : ArcSet) :
    env.partition.discTopHash arcSet env.store =
      .ok (regionXor counted (inArcs loc arcSet 0 (fullEnd f (fullCount f t))),
        fullEnd f (fullCount f t)) := by
  have hloop : (env.partition.includedSectors arcSet).foldlM (fun combined e => do
        let hash ← e.1.fullTimeSliceTopHash env.store
        HashPartition.combineNonEmpty combined hash) [] =
      .ok (regionXor counted (inArcs loc arcSet 0 (fullEnd f (fullCount f t)))) := by
    calc _ = arcSet.sectors.foldlM (fun combined i =>
            HashPartition.combineNonEmpty combined (discXor loc f t counted i)) [] := by
          apply foldlM_includedSectors h.length
          intro s tp i htp
          simp only [h.topHash_ok hids htp]
          rfl
      _ = .ok (xorBytes [] (xorAll (arcSet.sectors.map (discXor loc f t counted)))) :=
          foldlM_combineNonEmpty_ok _ (Or.inl rfl) (fun i => length_sliceXor hids _ _)
      _ = _ := by
          rw [xorBytes_nil_left]
          exact congrArg Except.ok (xorAll_arcs arcSet _ _)
  refine bind_eq_ok_iff.mpr ⟨_, hloop, ?_⟩
  exact bind_eq_ok_iff.mpr ⟨_, h.boundary_ok, rfl⟩

/-- The ring with the given index at time `t`. -/
def slotAt (f : Nat) (t : Int) (ring : Nat) : Int × Nat :=
  (slotsAt f t)[ring]?.getD (0, 0)

theorem mem_slotsAt_slotAt {r : Nat} (hr : r < (slotsAt f t).length) : slotAt f t r ∈ slotsAt f t := by
  unfold slotAt
  rw [List.getElem?_eq_getElem hr, Option.getD_some]
  exact List.getElem_mem hr

theorem map_slotAt {β : Type} (f : Nat) (t : Int) (g : Int × Nat → β) :
    (List.range (slotsAt f t).length).map (fun r => g (slotAt f t r)) = (slotsAt f t).map g := by
  apply List.ext_getElem
  · simp
  · intro r h1 h2
    have hr : r < (slotsAt f t).length := by simpa using h2
    simp [slotAt, hr]

theorem SectorAccurate.partialHash_ok {e : SectorEnv} (h : SectorAccurate loc f arc t counted e)
    {r : Nat} (hr : r < (slotsAt f t).length) :
    e.part.partialSlices[r]? = some (exactSlice loc arc counted (slotAt f t r)) := by
  rw [h.partialSlices, List.getElem?_map, List.getElem?_eq_getElem hr]
  simp [slotAt, hr]

/-- The XOR of the ops of an arc set in a ring. -/
def ringXor (loc : LocCb) (counted : List StoredOp) (arcSet : ArcSet) (slot : Int × Nat) : Bytes :=
  regionXor counted (inArcs loc arcSet slot.1 (slot.1 + slotLen slot.2))

theorem ArcSet.sectors_ne_nil (h : arcSet.coveredSectorCount ≠ 0) : arcSet.sectors ≠ [] := by
  have hne : arcSet.inner.Nonempty := Finset.card_pos.mp (Nat.pos_of_ne_zero h)
  rcases hne with ⟨i, hi⟩
  intro hnil
  have hmem := ArcSet.mem_sectors_iff.mpr hi
  rw [hnil] at hmem
  cases hmem

theorem PartitionAccurate.ringTopHashes_ok (h : PartitionAccurate loc f t counted env)
    (hids : IdsOfLength n counted) (harcs : arcSet.coveredSectorCount ≠ 0) :
    env.partition.ringTopHashes arcSet =
      .ok ((slotsAt f t).map (ringXor loc counted arcSet)) := by
  -- the number of rings is read off the first included sector; there is one
  have hrings : ((env.partition.includedSectors arcSet).head?.map fun e =>
      e.1.partialSliceHashes.length).getD 0 = (slotsAt f t).length := by
    cases hhead : (env.partition.includedSectors arcSet).head? with
    | none =>
        rw [List.head?_eq_none_iff] at hhead
        have hmap : (env.partition.includedSectors arcSet).map (fun e => e.2) = arcSet.sectors :=
          includedSectors_map h.length
        rw [hhead] at hmap
        exact absurd hmap.symm (ArcSet.sectors_ne_nil harcs)
    | some e =>
        have htp := mem_includedSectors (List.mem_of_mem_head? hhead)
        have hpartials : e.1.partialSlices =
            (slotsAt f t).map (exactSlice loc (sectorArc e.2) counted) :=
          (h.sector e.2 e.1 htp).partialSlices
        simp [TimePartition.partialSliceHashes, hpartials]
  unfold HashPartition.ringTopHashes
  simp only [hrings]
  rw [← map_slotAt f t (ringXor loc counted arcSet)]
  apply mapM_ok
  intro r hr
  have hlt : r < (slotsAt f t).length := List.mem_range.mp hr
  calc HashPartition.ringTopHash (env.partition.includedSectors arcSet) r =
        arcSet.sectors.foldlM (fun combined i => HashPartition.combineNonEmpty combined
          (slotXor loc (sectorArc i) counted (slotAt f t r))) [] := by
        apply foldlM_includedSectors h.length
        intro s tp i htp
        have hslice := (h.sector i tp htp).partialHash_ok hlt
        simp only [TimePartition.partialSliceHashes, List.getElem?_map, hslice, Option.map_some,
          Option.getD_some, exactSlice]
    _ = .ok (xorBytes [] (xorAll (arcSet.sectors.map fun i =>
          slotXor loc (sectorArc i) counted (slotAt f t r)))) :=
        foldlM_combineNonEmpty_ok _ (Or.inl rfl) (fun i => length_sliceXor hids _ _)
    _ = .ok (ringXor loc counted arcSet (slotAt f t r)) := by
        rw [xorBytes_nil_left]
        exact congrArg Except.ok (xorAll_arcs arcSet _ _)

theorem PartitionAccurate.discSectorHashes_ok (h : PartitionAccurate loc f t counted env)
    (hids : IdsOfLength n counted) (arcSet : ArcSet) :
    env.partition.discSectorHashes arcSet env.store =
      .ok (insertAll ∅ arcSet.sectors (fun i => optHash (discXor loc f t counted i)),
        fullEnd f (fullCount f t)) := by
  have hloop : (env.partition.includedSectors arcSet).foldlM
      (fun (out : ExtTreeMap Nat Bytes) e => do
        let hash ← e.1.fullTimeSliceTopHash env.store
        pure (if hash = [] then out else out.insert e.2 hash)) ∅ =
      .ok (insertAll ∅ arcSet.sectors (fun i => optHash (discXor loc f t counted i))) := by
    rw [← foldlM_insertSome ∅ arcSet.sectors fun i => optHash (discXor loc f t counted i)]
    apply foldlM_includedSectors h.length
    intro out tp i htp
    simp only [h.topHash_ok hids htp, optHash]
    by_cases hnil : discXor loc f t counted i = []
    · simp [hnil, bind, Except.bind, insertSome, pure, Except.pure]
    · simp [hnil, bind, Except.bind, insertSome, pure, Except.pure]
  refine bind_eq_ok_iff.mpr ⟨_, hloop, ?_⟩
  exact bind_eq_ok_iff.mpr ⟨_, h.boundary_ok, rfl⟩

/-- The stored hashes of a sector's full slices. -/
def sliceMap (loc : LocCb) (f : Nat) (t : Int) (counted : List StoredOp) (i : Nat) :
    ExtTreeMap Nat Bytes :=
  insertAll ∅ (List.range (fullCount f t)) fun k => optHash (fullXor loc f (sectorArc i) counted k)

theorem PartitionAccurate.discDetails_ok (h : PartitionAccurate loc f t counted env)
    (arcSet : ArcSet) (sectorIndices : List Nat) :
    env.partition.discSectorSectorDetails arcSet sectorIndices env.store =
      .ok (insertAll ∅ (arcSet.sectors.filter fun i => sectorIndices.contains i)
          (fun i => some (sliceMap loc f t counted i)), fullEnd f (fullCount f t)) := by
  have hloop : ((env.partition.includedSectors arcSet).filter fun e => sectorIndices.contains e.2).foldl
      (fun (out : ExtTreeMap Nat (ExtTreeMap Nat Bytes)) e =>
        out.insert e.2 (env.store.sliceHashes e.1.sectorConstraint)) ∅ =
      insertAll ∅ (arcSet.sectors.filter fun i => sectorIndices.contains i)
        (fun i => some (sliceMap loc f t counted i)) := by
    rw [← includedSectors_map h.length, List.filter_map, insertAll, List.foldl_map]
    apply List.foldl_ext
    intro out e he
    have htp := mem_includedSectors (List.mem_filter.mp he).1
    have hacc := h.sector e.2 e.1 htp
    rw [hacc.shape.sectorConstraint]
    exact congrArg (out.insert e.2) hacc.sliceHashes_eq
  unfold HashPartition.discSectorSectorDetails
  simp only [hloop]
  exact bind_eq_ok_iff.mpr ⟨_, h.boundary_ok, rfl⟩

/-! ### Ring details -/

/-- One sector of `ring_details`, for hashes that are there. -/
def addRings (rings : List Nat) (sector : Nat) (hash : Nat → Bytes)
    (out : ExtTreeMap Nat (ExtTreeMap Nat Bytes)) : ExtTreeMap Nat (ExtTreeMap Nat Bytes) :=
  rings.foldl (fun out ring => HashPartition.addRingHash out ring sector (hash ring)) out

theorem getElem?_addRingHash {out : ExtTreeMap Nat (ExtTreeMap Nat Bytes)} {ring sector r : Nat}
    {hash : Bytes} :
    (HashPartition.addRingHash out ring sector hash)[r]? =
      if r = ring then some (insertSome (out[r]?.getD ∅) sector (optHash hash)) else out[r]? := by
  unfold HashPartition.addRingHash
  rw [ExtTreeMap.getElem?_insert]
  by_cases hr : r = ring
  · subst hr
    by_cases hnil : hash = []
    · simp [hnil, optHash, insertSome]
    · simp [hnil, optHash, insertSome]
  · have hr' : ¬ ring = r := fun h => hr h.symm
    simp [hr, hr']

theorem insertSome_insertSome (m : ExtTreeMap Nat Bytes) (k : Nat) (v : Option Bytes) :
    insertSome (insertSome m k v) k v = insertSome m k v := by
  cases v with
  | none =>
      rfl
  | some v =>
      apply ExtTreeMap.ext_getElem?
      intro j
      by_cases hj : k = j
      · simp [insertSome, hj]
      · simp [insertSome, ExtTreeMap.getElem?_insert, hj]

theorem getElem?_addRings (sector : Nat) (hash : Nat → Bytes) :
    ∀ (rings : List Nat) (out : ExtTreeMap Nat (ExtTreeMap Nat Bytes)) (r : Nat),
      (addRings rings sector hash out)[r]? =
        if r ∈ rings then some (insertSome (out[r]?.getD ∅) sector (optHash (hash r)))
        else out[r]? := by
  intro rings
  induction rings with
  | nil =>
      intro out r
      simp [addRings]
  | cons ring rings ih =>
      intro out r
      have hstep : addRings (ring :: rings) sector hash out =
          addRings rings sector hash
            (HashPartition.addRingHash out ring sector (hash ring)) := rfl
      rw [hstep, ih, getElem?_addRingHash]
      by_cases hr : r = ring
      · subst hr
        by_cases hmem : r ∈ rings
        · simp [hmem, insertSome_insertSome]
        · simp [hmem]
      · simp [hr]

/-- All sectors of `ring_details`: every ring has an entry, with the hashes that are not empty. -/
theorem getElem?_foldl_addRings (rings : List Nat) (hash : Nat → Nat → Bytes) :
    ∀ (sectors : List Nat) (out : ExtTreeMap Nat (ExtTreeMap Nat Bytes)) (r : Nat),
      (sectors.foldl (fun out i => addRings rings i (hash i) out) out)[r]? =
        if r ∈ rings ∧ sectors ≠ [] then
          some (insertAll (out[r]?.getD ∅) sectors fun i => optHash (hash i r))
        else out[r]? := by
  intro sectors
  induction sectors with
  | nil =>
      intro out r
      simp
  | cons i sectors ih =>
      intro out r
      rw [List.foldl_cons, ih, getElem?_addRings]
      by_cases hr : r ∈ rings
      · by_cases hnil : sectors = []
        · subst hnil
          simp [hr, insertAll]
        · simp [hr, hnil, insertAll]
      · simp [hr]

/-- The hashes of one ring, by sector. -/
def ringMap (loc : LocCb) (f : Nat) (t : Int) (counted : List StoredOp) (arcSet : ArcSet)
    (ring : Nat) : ExtTreeMap Nat Bytes :=
  insertAll ∅ arcSet.sectors fun i =>
    optHash (slotXor loc (sectorArc i) counted (slotAt f t ring))

theorem PartitionAccurate.ringDetails_ok (h : PartitionAccurate loc f t counted env)
    (harcs : arcSet.coveredSectorCount ≠ 0) {rings : List Nat}
    (hrings : ∀ r ∈ rings, r < (slotsAt f t).length) :
    env.partition.ringDetails arcSet rings =
      .ok (insertAll ∅ rings (fun r => some (ringMap loc f t counted arcSet r)),
        fullEnd f (fullCount f t)) := by
  -- one sector adds its own hashes to every ring of the list
  have hsector : ∀ (out : ExtTreeMap Nat (ExtTreeMap Nat Bytes)) (tp : TimePartition) (i : Nat),
      env.partition.sectors[i]? = some tp →
      rings.foldlM (fun (out : ExtTreeMap Nat (ExtTreeMap Nat Bytes)) ring => do
        let hash ← tp.partialSliceHash ring
        pure (HashPartition.addRingHash out ring i hash)) out =
      .ok (addRings rings i (fun r => slotXor loc (sectorArc i) counted (slotAt f t r)) out) := by
    intro out tp i htp
    have hhash : ∀ r ∈ rings, tp.partialSliceHash r =
        .ok (slotXor loc (sectorArc i) counted (slotAt f t r)) := by
      intro r hr
      unfold TimePartition.partialSliceHash
      have hslice := (h.sector i tp htp).partialHash_ok (hrings r hr)
      simp only at hslice
      rw [hslice]
      rfl
    refine (foldlM_congr_mem rings out ?_).trans List.foldlM_pure
    intro out r hr
    rw [hhash r hr]
    rfl
  have hloop : (env.partition.includedSectors arcSet).foldlM
      (fun (out : ExtTreeMap Nat (ExtTreeMap Nat Bytes)) e =>
        rings.foldlM (fun (out : ExtTreeMap Nat (ExtTreeMap Nat Bytes)) ring => do
          let hash ← e.1.partialSliceHash ring
          pure (HashPartition.addRingHash out ring e.2 hash)) out) ∅ =
      .ok (arcSet.sectors.foldl (fun out i => addRings rings i
        (fun r => slotXor loc (sectorArc i) counted (slotAt f t r)) out) ∅) := by
    have hlist : arcSet.sectors.foldlM (fun out i => (.ok (addRings rings i
          (fun r => slotXor loc (sectorArc i) counted (slotAt f t r)) out) : Except Fault _)) ∅ =
        .ok (arcSet.sectors.foldl (fun out i => addRings rings i
          (fun r => slotXor loc (sectorArc i) counted (slotAt f t r)) out) ∅) := by
      generalize arcSet.sectors = sectors
      exact List.foldlM_pure
    rw [← hlist]
    apply foldlM_includedSectors h.length
    intro out tp i htp
    exact hsector out tp i htp
  -- added up over the sectors this is one map for each ring
  have hmap : arcSet.sectors.foldl (fun out i => addRings rings i
        (fun r => slotXor loc (sectorArc i) counted (slotAt f t r)) out) ∅ =
      insertAll ∅ rings (fun r => some (ringMap loc f t counted arcSet r)) := by
    apply ExtTreeMap.ext_getElem?
    intro r
    rw [getElem?_foldl_addRings, getElem?_insertAll]
    have hne := ArcSet.sectors_ne_nil harcs
    by_cases hr : r ∈ rings
    · simp [hr, hne, ringMap]
    · simp [hr]
  rw [hmap] at hloop
  refine bind_eq_ok_iff.mpr ⟨_, hloop, ?_⟩
  exact bind_eq_ok_iff.mpr ⟨_, h.boundary_ok, rfl⟩

end Queries

end Dht
end Kitsune2
