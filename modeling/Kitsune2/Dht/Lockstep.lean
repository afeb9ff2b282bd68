import Kitsune2.Dht.Partition

/-!
# Lockstep — the sectors of a hash partition, kept accurate together

`PartitionAccurate loc f t counted env` says that every sector of the partition is laid out for time
`t` and counts the ops of `counted` that lie in its arc.  `update`, `inform_ops_stored` and
`try_from_store` keep or establish it, because each of them treats the sectors one by one and none
touches the slice hashes of another sector.
-/

namespace Kitsune2
namespace Dht

open Api Lib

variable {loc : LocCb} {f n : Nat} {arc : DhtArc} {t t' : Int} {counted : List StoredOp}

/-! ## One sector -/

/-- Accuracy depends on the counted ops only through the slices of the sector. -/
theorem SectorAccurate.congr {counted' : List StoredOp} {env : SectorEnv}
    (h : SectorAccurate loc f arc t counted env)
    (heq : ∀ start stop, sliceXor loc arc counted start stop = sliceXor loc arc counted' start stop) :
    SectorAccurate loc f arc t counted' env := by
  refine ⟨h.shape, h.nonneg, h.fits, h.fullSlices, ?_, ?_⟩
  · rw [h.partialSlices]
    apply List.map_congr_left
    intro slot _
    simp only [exactSlice, slotXor, heq]
  · intro k
    rw [h.slices k]
    simp only [fullXor, heq]

theorem local_sectorAccurate (loc : LocCb) (f : Nat) (t : Int) (counted : List StoredOp) :
    Local (fun i => SectorAccurate loc f (sectorArc i) t counted) := by
  intro i j tp st st' hij hown h
  have harc : sectorArc j ≠ sectorArc i := fun heq => hij (sectorArc_inj heq).symm
  refine ⟨h.shape, h.nonneg, h.fits, h.fullSlices, h.partialSlices, ?_⟩
  intro k
  simp only
  rw [hown.others _ harc]
  exact h.slices k

/-- Only the ops of the sector count. -/
theorem sliceXor_append_filter {ops : List StoredOp} {p : StoredOp → Bool}
    (hp : ∀ op ∈ ops, p op = arc.contains (loc op.opId)) (start stop : Int) :
    sliceXor loc arc (counted ++ ops.filter p) start stop =
      sliceXor loc arc (counted ++ ops) start stop := by
  have hfilter : (ops.filter p).filter (inSlice loc arc start stop) =
      ops.filter (inSlice loc arc start stop) := by
    rw [List.filter_filter]
    apply List.filter_congr
    intro op hop
    rw [hp op hop]
    unfold inSlice
    cases arc.contains (loc op.opId) with
    | false =>
        simp
    | true =>
        simp
  unfold sliceXor
  rw [List.filter_append, List.filter_append, hfilter]

/-! ## All sectors -/

structure PartitionAccurate (loc : LocCb) (f : Nat) (t : Int) (counted : List StoredOp)
    (env : HashEnv) : Prop where
  size : env.partition.size = sectorSize
  length : env.partition.sectors.length = numSectors
  sector : EverySector (fun i => SectorAccurate loc f (sectorArc i) t counted) env

theorem PartitionAccurate.nonneg {env : HashEnv} (h : PartitionAccurate loc f t counted env) :
    0 ≤ t ∧ t ≤ i64Max := by
  have hlt : 0 < env.partition.sectors.length := by
    rw [h.length]
    decide
  have h0 := h.sector 0 _ (List.getElem?_eq_getElem hlt)
  exact ⟨h0.nonneg, h0.fits⟩

theorem PartitionAccurate.lt_of_getElem {env : HashEnv} (h : PartitionAccurate loc f t counted env)
    {i : Nat} {tp : TimePartition} (htp : env.partition.sectors[i]? = some tp) : i < numSectors := by
  rw [← h.length]
  exact (List.getElem?_eq_some_iff.mp htp).1

theorem PartitionAccurate.congr {counted' : List StoredOp} {env : HashEnv}
    (h : PartitionAccurate loc f t counted env)
    (heq : ∀ i < numSectors, ∀ start stop, sliceXor loc (sectorArc i) counted start stop =
      sliceXor loc (sectorArc i) counted' start stop) :
    PartitionAccurate loc f t counted' env := by
  refine ⟨h.size, h.length, ?_⟩
  intro i tp htp
  exact (h.sector i tp htp).congr (heq i (h.lt_of_getElem htp))

theorem PartitionAccurate.perm {counted' : List StoredOp} {env : HashEnv}
    (h : PartitionAccurate loc f t counted env) (hperm : counted.Perm counted') :
    PartitionAccurate loc f t counted' env := by
  apply h.congr
  intro i _ start stop
  exact xorAll_perm ((hperm.filter _).map _)

/-! ## Update -/

/-- The slices that an update from `t` to `t'` computes from the store hold the counted ops, in
every sector. -/
def FreshAgree (loc : LocCb) (f : Nat) (t t' : Int) (stored counted : List StoredOp) : Prop :=
  ∀ i < numSectors, FreshSlicesAgree loc f (sectorArc i) t t' stored counted

theorem freshAgree_self (loc : LocCb) (f : Nat) (t t' : Int) (ops : List StoredOp) :
    FreshAgree loc f t t' ops ops :=
  fun _ _ => ⟨fun _ _ _ => rfl, fun _ _ _ => rfl⟩

theorem local_and_opList {P : Nat → SectorEnv → Prop} (hP : Local P) (ops : List OpRecord) :
    Local (fun i e => P i e ∧ e.store.opList = ops) := by
  intro i j tp st st' hij hown h
  exact ⟨hP i j tp st st' hij hown h.1, hown.opList.trans h.2⟩

/-- The next update of a partition can be scheduled. -/
def CanSchedule (tp : TimePartition) : Prop :=
  ∀ last, tp.partialSlices.getLast? = some last → ∃ next, nextUpdateAfter last = .ok next

theorem nextFits_of_schedule (hf : f ≤ 53) {tp : TimePartition} (ht : 0 ≤ t) (hfits : t ≤ i64Max)
    (hslots : tp.partialSlices.map (fun p => (p.start, p.size)) = slotsAt f t) (h : CanSchedule tp) :
    NextFits f t := by
  intro slot hslot
  have hfit : SlotFits slot := slotFits_partialLayout hf (fullEnd_nonneg _ _)
    (fullEnd_fullCount_le_self ht) hfits (List.mem_of_getLast? hslot)
  rw [← hslots, List.getLast?_map, Option.map_eq_some_iff] at hslot
  rcases hslot with ⟨last, hlast, rfl⟩
  rcases h _ hlast with ⟨next, hnext⟩
  rcases bind_eq_ok_iff.mp hnext with ⟨stop, hstop, hadd⟩
  rw [stop_ok hfit] at hstop
  cases hstop
  rcases addDuration_eq_ok_iff.mp hadd with ⟨_, _, hle⟩
  have hunit : wrapI64 (unitTime : Nat) = (unitTime : Int) := wrapI64_of_le (by
    rw [unitTime_eq]
    decide)
  rw [hunit] at hle
  exact hle

theorem local_canSchedule : Local (fun _ e => CanSchedule e.part) :=
  fun _ _ _ _ _ _ _ h => h

theorem local_and {P Q : Nat → SectorEnv → Prop} (hP : Local P) (hQ : Local Q) :
    Local (fun i e => P i e ∧ Q i e) :=
  fun i j tp st st' hij hown h => ⟨hP i j tp st st' hij hown h.1, hQ i j tp st st' hij hown h.2⟩

theorem PartitionAccurate.updated (hf : f ≤ 53) {env env' : HashEnv} {u : Unit}
    (h : PartitionAccurate loc f t counted env) (hle : t ≤ t') (ht' : t' ≤ i64Max)
    (hfresh : FreshAgree loc f t t' env.store.stored counted)
    (hret : Returns (HashPartition.update loc t') env u env') :
    PartitionAccurate loc f t' counted env' ∧ SameFrame env env' ∧ NextFits f t' := by
  -- the sectors are updated one after the other; the ops of the store stay what they were
  have hstart : EverySector (fun i e => SectorAccurate loc f (sectorArc i) t counted e ∧
      e.store.opList = env.store.opList) env := fun i tp htp => ⟨h.sector i tp htp, rfl⟩
  have hbody : ∀ i < env.partition.sectors.length, ∀ e e',
      (SectorAccurate loc f (sectorArc i) t counted e ∧ e.store.opList = env.store.opList) →
      Returns (TimePartition.update loc t') e () e' →
      (SectorAccurate loc f (sectorArc i) t' counted e' ∧ CanSchedule e'.part) ∧
        OwnArcOnly (sectorArc i) e.store e'.store := by
    rintro i hi e e' ⟨hacc, hops⟩ hup
    have hfit : fullEnd f e.part.fullSlices ≤ i64Max := by
      rw [hacc.fullSlices]
      exact le_trans (fullEnd_fullCount_le_self hacc.nonneg) hacc.fits
    have hupd := returns_update hf hacc.shape hfit ht' hup
    have hstored : e.store.stored = env.store.stored := by
      unfold OpStore.stored
      rw [hops]
    have hlt : i < numSectors := by
      rw [← h.length]
      exact hi
    refine ⟨⟨hacc.updated hle ht' ?_ hupd, hupd.nextUpdate⟩, hupd.own⟩
    rw [hstored]
    exact hfresh i hlt
  rcases returns_partition_update (local_and_opList (local_sectorAccurate loc f t counted) _)
    (local_and (local_sectorAccurate loc f t' counted) local_canSchedule) hbody hstart hret
    with ⟨hframe, hdone⟩
  refine ⟨⟨hframe.size.trans h.size, hframe.length.trans h.length,
    fun i tp htp => (hdone i tp htp).1⟩, hframe, ?_⟩
  have hlt : 0 < env'.partition.sectors.length := by
    rw [hframe.length, h.length]
    decide
  -- the schedule of one sector bounds the next time for all of them
  generalize htp : env'.partition.sectors[0] = tp₀
  rcases hdone 0 tp₀ (by rw [List.getElem?_eq_getElem hlt, htp]) with ⟨hacc, hsched⟩
  refine nextFits_of_schedule hf hacc.nonneg hacc.fits ?_ hsched
  rw [show tp₀.partialSlices = _ from hacc.partialSlices, List.map_map]
  exact List.map_id _

/-! ## Stored ops -/

theorem contains_sectorArc_eq (op : StoredOp) (i : Nat) :
    decide (HashPartition.sectorIndex loc sectorSize op = i) =
      (sectorArc i).contains (loc op.opId) := by
  rw [Bool.eq_iff_iff, contains_sectorArc_iff, decide_eq_true_iff]
  rfl

theorem PartitionAccurate.informed (hf : f ≤ 53) {env env' : HashEnv} {ops : List StoredOp}
    {u : Unit} (h : PartitionAccurate loc f t counted env) (hops : ∀ op ∈ ops, 0 ≤ op.createdAt)
    (hret : Returns (HashPartition.informOpsStored loc ops) env u env') :
    PartitionAccurate loc f t (counted ++ ops) env' ∧ SameFrame env env' := by
  have hret := returns_read_bind_iff.mp hret
  rw [h.size] at hret
  have hcongr : ∀ i start stop,
      sliceXor loc (sectorArc i) (counted ++ HashPartition.sectorOps loc sectorSize ops i) start stop =
        sliceXor loc (sectorArc i) (counted ++ ops) start stop := by
    intro i start stop
    exact sliceXor_append_filter (fun op _ => contains_sectorArc_eq op i) start stop
  have hbody : ∀ i ∈ HashPartition.touchedSectors loc sectorSize ops, ∀ e e',
      SectorAccurate loc f (sectorArc i) t counted e →
      Returns (TimePartition.informOpsStored (HashPartition.sectorOps loc sectorSize ops i)) e () e' →
      SectorAccurate loc f (sectorArc i) t (counted ++ ops) e' ∧
        OwnArcOnly (sectorArc i) e.store e'.store := by
    intro i _ e e' hacc hinf
    have hin : ∀ op ∈ HashPartition.sectorOps loc sectorSize ops i,
        (sectorArc i).contains (loc op.opId) = true ∧ 0 ≤ op.createdAt := by
      intro op hop
      rcases List.mem_filter.mp hop with ⟨hmem, hidx⟩
      rw [contains_sectorArc_eq] at hidx
      exact ⟨hidx, hops op hmem⟩
    rcases hacc.informed hf hin hinf with ⟨hacc', hown⟩
    exact ⟨hacc'.congr (hcongr i), hown⟩
  rcases returns_eachSector (local_sectorAccurate loc f t (counted ++ ops)) _
    (local_sectorAccurate loc f t counted) (List.nodup_dedup _) hbody h.sector hret
    with ⟨hframe, hevery⟩
  refine ⟨⟨hframe.size.trans h.size, hframe.length.trans h.length, ?_⟩, hframe⟩
  intro i tp htp
  by_cases htouched : i ∈ HashPartition.touchedSectors loc sectorSize ops
  · exact (hevery i tp htp).1 htouched
  · -- no op of the batch lies in this sector
    have hi := (hevery i tp htp).2 htouched
    have hnone : HashPartition.sectorOps loc sectorSize ops i = [] := by
      apply List.filter_eq_nil_iff.mpr
      intro op hop hidx
      apply htouched
      rw [decide_eq_true_iff] at hidx
      exact List.mem_dedup.mpr (List.mem_map.mpr ⟨op, hop, hidx⟩)
    have hsame := hcongr i
    rw [hnone, List.append_nil] at hsame
    exact hi.congr hsame

/-! ## Rebuilding -/

/-- A store from which sectors can be rebuilt at time `t`: each sector's slice hashes match its ops,
for as many slices as there are, and no op is from before the epoch or after `t`. -/
structure Rebuildable (loc : LocCb) (f : Nat) (t : Int) (l : List Nat) (st : OpStore) : Prop where
  slices : ∀ i ∈ l, ∃ m ≤ fullCount f t, SlicesStored loc f (sectorArc i) m st
  ops : ∀ op ∈ st.stored, 0 ≤ op.createdAt ∧ op.createdAt ≤ t

/-- A rebuilt partition counts exactly the stored ops. -/
theorem rebuilt_partition (hpos : 1 ≤ f) (hf : f ≤ 53) (ht : 0 ≤ t) (hfits : t ≤ i64Max)
    {st st' : OpStore} {p : HashPartition} (hre : Rebuildable loc f t (List.range numSectors) st)
    (h : Returns (HashPartition.tryFromStore loc f t) st p st') :
    PartitionAccurate loc f t st.stored { partition := p, store := st' } ∧
      SectorsOnly (List.range numSectors) st st' := by
  -- the slice hashes that a sector is rebuilt from, with the ops of all sectors
  have hbuilt := returns_rebuild (local_sectorAccurate loc f t st.stored)
    (S := fun i st1 => (∃ m ≤ fullCount f t, SlicesStored loc f (sectorArc i) m st1) ∧
      st1.stored = st.stored) ?_ ?_ (fun i hi => ⟨hre.slices i (List.mem_range.mpr hi), rfl⟩) h
  · exact ⟨⟨hbuilt.size, hbuilt.length, hbuilt.sector⟩, hbuilt.only⟩
  · rintro i j st1 st2 hij hown ⟨⟨m, hm, hslices⟩, hstored⟩
    refine ⟨⟨m, hm, ?_⟩, by rw [hown.stored]; exact hstored⟩
    intro k
    rw [hown.others _ fun heq => hij (sectorArc_inj heq).symm, hown.stored]
    exact hslices k
  · rintro i tp st1 st2 ⟨⟨m, hm, hslices⟩, hstored⟩ htp
    rw [← hstored]
    refine rebuilt_accurate hpos hf ht hfits hslices hm ?_ htp
    intro op hop _
    rw [hstored] at hop
    exact hre.ops op hop

/-! ## When these functions return -/

section Returning

variable {env : HashEnv}

theorem local_and_reliable {P : Nat → SectorEnv → Prop} (hP : Local P) :
    Local (fun i e => P i e ∧ e.store.failures = []) := by
  intro i j tp st st' hij hown h
  exact ⟨hP i j tp st st' hij hown h.1, hown.reliable h.2⟩

theorem PartitionAccurate.update_returns (hf : f ≤ 53) (h : PartitionAccurate loc f t counted env)
    (hrel : env.store.failures = []) (hids : IdsOfLength n env.store.stored) (hle : t ≤ t')
    (ht' : t' ≤ i64Max) (hnext : NextFits f t') :
    ∃ env', Returns (HashPartition.update loc t') env () env' := by
  have ht0 : 0 ≤ t' := le_trans h.nonneg.1 hle
  have htrue : Local (fun _ _ => True) := fun _ _ _ _ _ _ _ h => h
  have hstart : EverySector (fun i e => (SectorAccurate loc f (sectorArc i) t counted e ∧
      e.store.opList = env.store.opList) ∧ e.store.failures = []) env :=
    fun i tp htp => ⟨⟨h.sector i tp htp, rfl⟩, hrel⟩
  -- each sector is accurate when its turn comes, as the others do not touch it
  have hloop := eachSector_returns (m := fun _ => TimePartition.update loc t') htrue
    (List.range env.partition.sectors.length)
    (local_and_reliable (local_and_opList (local_sectorAccurate loc f t counted) _))
    List.nodup_range (fun i hi => List.mem_range.mp hi) ?_ hstart
  · rcases hloop with ⟨env', hloop⟩
    exact ⟨env', returns_read_bind_iff.mpr hloop⟩
  · rintro i _ e ⟨⟨hacc, hops⟩, hrel'⟩
    have hids' : IdsOfLength n e.store.stored := by
      unfold OpStore.stored
      rw [hops]
      exact hids
    have hcount : e.part.fullSlices ≤ fullCount f t' := by
      rw [hacc.fullSlices]
      exact fullCount_mono hle
    have hfit : fullEnd f e.part.fullSlices ≤ i64Max := by
      rw [hacc.fullSlices]
      exact le_trans (fullEnd_fullCount_le_self hacc.nonneg) hacc.fits
    have hup : ∃ e', Returns (TimePartition.update loc t') e () e' ∧ StillReliable e e' :=
      Dht.update_returns hf hacc.shape hrel' hids' ht0 ht' hcount hnext
    rcases hup with ⟨e', hup, _⟩
    exact ⟨e', hup, trivial, (returns_update hf hacc.shape hfit ht' hup).own⟩

theorem PartitionAccurate.inform_returns (hf : f ≤ 53) (h : PartitionAccurate loc f t counted env)
    (hrel : env.store.failures = []) (hids : IdsOfLength n counted) (hn : 0 < n)
    {ops : List StoredOp} (hlen : IdsOfLength n ops) (hops : ∀ op ∈ ops, 0 ≤ op.createdAt) :
    ∃ env', Returns (HashPartition.informOpsStored loc ops) env () env' := by
  have htrue : Local (fun _ _ => True) := fun _ _ _ _ _ _ _ h => h
  have hstart : EverySector (fun i e => SectorAccurate loc f (sectorArc i) t counted e ∧
      e.store.failures = []) env := fun i tp htp => ⟨h.sector i tp htp, hrel⟩
  -- the sector of an op exists
  have hlt : ∀ i ∈ HashPartition.touchedSectors loc sectorSize ops,
      i < env.partition.sectors.length := by
    intro i hi
    rcases List.mem_map.mp (List.mem_dedup.mp hi) with ⟨op, _, rfl⟩
    rw [h.length, numSectors_eq]
    unfold HashPartition.sectorIndex
    have := (loc op.opId).isLt
    rw [Nat.div_lt_iff_lt_mul sectorSize_pos]
    simp only [sectorSize]
    omega
  have hloop := eachSector_returns
    (m := fun i => TimePartition.informOpsStored (HashPartition.sectorOps loc sectorSize ops i))
    htrue (HashPartition.touchedSectors loc sectorSize ops)
    (local_and_reliable (local_sectorAccurate loc f t counted)) (List.nodup_dedup _) hlt ?_ hstart
  · rcases hloop with ⟨env', hloop⟩
    refine ⟨env', returns_read_bind_iff.mpr ?_⟩
    rw [h.size]
    exact hloop
  · rintro i _ e ⟨hacc, hrel'⟩
    have hin : ∀ op ∈ HashPartition.sectorOps loc sectorSize ops i,
        (sectorArc i).contains (loc op.opId) = true ∧ 0 ≤ op.createdAt := by
      intro op hop
      rcases List.mem_filter.mp hop with ⟨hmem, hidx⟩
      rw [contains_sectorArc_eq] at hidx
      exact ⟨hidx, hops op hmem⟩
    rcases informOpsStored_returns hf hacc hrel' hids hn
      (fun op hop => hlen op (List.mem_filter.mp hop).1) hin with ⟨e', hinf, _⟩
    exact ⟨e', hinf, trivial, (hacc.informed hf hin hinf).2⟩

theorem rebuild_returns (hpos : 1 ≤ f) (hf : f ≤ 53) (ht : 0 ≤ t) (hfits : t ≤ i64Max)
    (hnext : NextFits f t) {st : OpStore} (hrel : st.failures = []) (hids : IdsOfLength n st.stored)
    (hre : Rebuildable loc f t (List.range numSectors) st) :
    ∃ p st', Returns (HashPartition.tryFromStore loc f t) st p st' := by
  refine rebuild_returns_of (S := fun i st1 => st1.failures = [] ∧ st1.opList = st.opList ∧
    st1.sliceHashes (sectorArc i) = st.sliceHashes (sectorArc i) ∧ i < numSectors) ?_ ?_
    (fun i hi => ⟨hrel, rfl, rfl, hi⟩)
  · rintro i j st1 st2 hij hown ⟨hrel1, hlist, harc, hj⟩
    exact ⟨hown.reliable hrel1, hown.opList.trans hlist,
      (hown.others _ fun heq => hij (sectorArc_inj heq).symm).trans harc, hj⟩
  · rintro i st1 ⟨hrel1, hlist, harc, hi⟩
    have hstored : st1.stored = st.stored := by
      unfold OpStore.stored
      rw [hlist]
    rcases hre.slices i (List.mem_range.mpr hi) with ⟨m, hm, hslices⟩
    have hslices1 : SlicesStored loc f (sectorArc i) m st1 := by
      intro k
      rw [harc, hstored]
      exact hslices k
    have hops : ∀ op ∈ st1.stored, (sectorArc i).contains (loc op.opId) = true →
        0 ≤ op.createdAt ∧ op.createdAt ≤ t := by
      intro op hop _
      rw [hstored] at hop
      exact hre.ops op hop
    rcases tryFromStore_returns hpos hf (sectorArc_ne_empty i) hrel1 (by rw [hstored]; exact hids) ht
      hfits hnext hslices1 hm hops with ⟨tp, st2, htp, _⟩
    exact ⟨tp, st2, htp, (rebuilt_accurate hpos hf ht hfits hslices1 hm hops htp).2⟩

end Returning

end Dht
end Kitsune2
