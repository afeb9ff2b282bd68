import Kitsune2.Dht.Rebuild

/-!
# Total — when the functions of a sector return

On a store that answers every call, with op ids of one length and a clock that leaves room for the
next update, `update`, `inform_ops_stored` and `try_from_store` return.  Together with the
specifications of successful calls this makes them total functions on the states a node can reach.
-/

namespace Kitsune2
namespace Dht

open Api Lib

variable {loc : LocCb} {f n : Nat} {arc : DhtArc} {t : Int}

/-- All ids have length `n`. -/
def IdsOfLength (n : Nat) (ops : List StoredOp) : Prop :=
  ∀ op ∈ ops, op.opId.length = n

/-- The time of the next update after an update at `t` is a timestamp. -/
def NextFits (f : Nat) (t : Int) : Prop :=
  ∀ slot, (slotsAt f t).getLast? = some slot → slot.1 + slotLen slot.2 + unitTime ≤ i64Max

theorem nextFits_of_le (ht : 0 ≤ t) (h : t + unitTime ≤ i64Max) : NextFits f t := by
  intro slot hslot
  have hbefore : fullEnd f (fullCount f t) ≤ t := fullEnd_fullCount_le_self ht
  rcases tiles_partialLayout f (fullEnd f (fullCount f t)) (t - fullEnd f (fullCount f t)).toNat
    with ⟨stop, htiles, hstop⟩
  rw [Int.toNat_of_nonneg (sub_nonneg.mpr hbefore)] at hstop
  have hbounds := htiles.bounds slotLen_pos (List.mem_of_getLast? hslot)
  linarith [hbounds.2]

/-! ## Update -/

theorem combine_slice_ok {st : OpStore} (hids : IdsOfLength n st.stored) (start stop : Int) :
    combineOpHashes (st.opHashesInTimeSlice loc arc start stop).1 =
      .ok (sliceXor loc arc st.stored start stop) := by
  have hlen : ∀ id ∈ (st.opHashesInTimeSlice loc arc start stop).1, id.length = n := by
    intro id hid
    rcases List.mem_map.mp ((opHashes_perm st start stop).mem_iff.mp hid) with ⟨op, hop, rfl⟩
    exact hids op (List.mem_filter.mp hop).1
  have hok := combineOpHashes_ok hlen
  rw [hok, ← combine_slice_eq hok]

theorem onStore_query_returns {α : Type} {env : SectorEnv} (h : env.store.failures = [])
    (q : OpStore → α) : Returns (onStore (query q)) env (q env.store) env :=
  returns_onStore_iff.mpr ⟨env.store, query_returns h q, rfl⟩

/-- What a call leaves alone when it returns on a reliable store. -/
structure StillReliable (env env' : SectorEnv) : Prop where
  failures : env'.store.failures = []
  opList : env'.store.opList = env.store.opList

theorem StillReliable.stored {env env' : SectorEnv} (h : StillReliable env env') :
    env'.store.stored = env.store.stored := by
  unfold OpStore.stored
  rw [h.opList]

theorem StillReliable.trans {env env' env'' : SectorEnv} (h : StillReliable env env')
    (h' : StillReliable env' env'') : StillReliable env env'' :=
  ⟨h'.failures, h'.opList.trans h.opList⟩

theorem onStore_storeSliceHash_returns {env : SectorEnv} (h : env.store.failures = [])
    (arc : DhtArc) (i : Nat) {hash : Bytes} (hne : hash ≠ []) :
    ∃ env', Returns (onStore (storeSliceHash arc i hash)) env () env' ∧
      StillReliable env env' ∧ env'.part = env.part :=
  ⟨_, returns_onStore_iff.mpr ⟨_, storeSliceHash_returns h i hne, rfl⟩, ⟨h, rfl⟩, rfl⟩

theorem storeFullSlice_returns {env : SectorEnv} (h : env.store.failures = []) (arc : DhtArc)
    (i : Nat) (hash : Bytes) :
    ∃ env', Returns (TimePartition.storeFullSlice arc i hash) env () env' ∧
      StillReliable env env' ∧ env'.part = env.part := by
  unfold TimePartition.storeFullSlice
  by_cases hnil : hash = []
  · rw [if_pos hnil]
    exact ⟨env, returns_pure_iff.mpr ⟨rfl, rfl⟩, ⟨h, rfl⟩, rfl⟩
  · rw [if_neg hnil]
    exact onStore_storeSliceHash_returns h arc i hnil

theorem addFullSlices_returns :
    ∀ (count : Nat) {env : SectorEnv}, Shape f arc env.part → env.store.failures = [] →
      IdsOfLength n env.store.stored → fullEnd f (env.part.fullSlices + count) ≤ i64Max →
      ∃ env', Returns (TimePartition.addFullSlices loc count (fullEnd f env.part.fullSlices)) env ()
        env' ∧ StillReliable env env' := by
  intro count
  induction count with
  | zero =>
      intro env _ hrel _ _
      exact ⟨env, returns_pure_iff.mpr ⟨rfl, rfl⟩, ⟨hrel, rfl⟩⟩
  | succ count ih =>
      intro env hs hrel hids hfit
      have hnext : fullEnd f (env.part.fullSlices + 1) ≤ i64Max :=
        le_trans (fullEnd_mono (by omega)) hfit
      have hstop : addDuration (fullEnd f env.part.fullSlices) env.part.fullSliceDuration =
          .ok (fullEnd f (env.part.fullSlices + 1)) := by
        rw [hs.fullSliceDuration, addDuration_of_le (fullEnd_nonneg _ _)
          (by rw [← fullEnd_succ]; exact hnext), ← fullEnd_succ]
      rcases storeFullSlice_returns hrel env.part.sectorConstraint env.part.fullSlices
        (sliceXor loc env.part.sectorConstraint env.store.stored (fullEnd f env.part.fullSlices)
          (fullEnd f (env.part.fullSlices + 1))) with ⟨env1, hstore, hstill, hpart⟩
      -- one slice is stored and counted; the rest starts where it ends
      have hs1 : Shape f arc ({ env1 with
          part := { env1.part with fullSlices := env1.part.fullSlices + 1 } } : SectorEnv).part := by
        simp only [hpart]
        exact ⟨hs.factor, hs.fullSliceDuration, hs.minRecentTime, hs.sectorConstraint⟩
      have hids1 : IdsOfLength n env1.store.stored := by
        rw [hstill.stored]
        exact hids
      have hfit1 : fullEnd f (env1.part.fullSlices + 1 + count) ≤ i64Max := by
        rw [hpart, Nat.add_assoc, Nat.add_comm 1 count]
        exact hfit
      rcases ih hs1 hstill.failures hids1 hfit1 with ⟨env2, hrest, hstill2⟩
      refine ⟨env2, ?_, ⟨hstill2.failures, hstill2.opList.trans hstill.opList⟩⟩
      rw [TimePartition.addFullSlices]
      refine returns_read_bind_iff.mpr (returns_lift_bind_iff.mpr ⟨_, hstop, ?_⟩)
      refine returns_bind_iff.mpr ⟨_, _, onStore_query_returns hrel _, ?_⟩
      refine returns_lift_bind_iff.mpr ⟨_, combine_slice_ok hids _ _, ?_⟩
      refine returns_bind_iff.mpr ⟨(), env1, hstore, ?_⟩
      refine returns_modify_bind_iff.mpr ?_
      simp only [hpart] at hrest ⊢
      exact hrest

theorem computePartial_returns {env : SectorEnv} {earliest : Option Int} {slot : Int × Nat}
    (hrel : env.store.failures = []) (hids : IdsOfLength n env.store.stored)
    (hslot : SlotFits slot) :
    ∃ hash, Returns (TimePartition.computePartial loc earliest slot.1 slot.2) env hash env := by
  rcases slotStop_ok hslot with ⟨hdur, hstop⟩
  cases earliest with
  | none =>
      refine ⟨[], returns_lift_bind_iff.mpr ⟨_, hdur, returns_lift_bind_iff.mpr ⟨_, hstop, ?_⟩⟩⟩
      exact returns_pure_iff.mpr ⟨rfl, rfl⟩
  | some e =>
      by_cases hge : slot.1 + slotLen slot.2 ≥ e
      · refine ⟨sliceXor loc env.part.sectorConstraint env.store.stored slot.1
          (slot.1 + slotLen slot.2),
          returns_lift_bind_iff.mpr ⟨_, hdur, returns_lift_bind_iff.mpr ⟨_, hstop, ?_⟩⟩⟩
        simp only [if_pos hge]
        refine returns_read_bind_iff.mpr ?_
        refine returns_bind_iff.mpr ⟨_, env, onStore_query_returns hrel _, ?_⟩
        exact returns_lift_iff.mpr ⟨combine_slice_ok hids _ _, rfl⟩
      · refine ⟨[], returns_lift_bind_iff.mpr ⟨_, hdur, returns_lift_bind_iff.mpr ⟨_, hstop, ?_⟩⟩⟩
        simp only [if_neg hge]
        exact returns_pure_iff.mpr ⟨rfl, rfl⟩

theorem pushPartial_returns {env : SectorEnv} {old : List PartialSlice} {earliest : Option Int}
    {slot : Int × Nat} (hrel : env.store.failures = []) (hids : IdsOfLength n env.store.stored)
    (hslot : SlotFits slot) :
    ∃ env', Returns (TimePartition.pushPartial loc old earliest slot) env () env' ∧
      env'.store = env.store := by
  have hhash : ∃ hash, Returns (TimePartition.partialHash loc old earliest slot) env hash env := by
    unfold TimePartition.partialHash
    cases hfind : TimePartition.findPartial old slot.1 slot.2 with
    | some hash =>
        exact ⟨hash, returns_pure_iff.mpr ⟨rfl, rfl⟩⟩
    | none =>
        exact computePartial_returns hrel hids hslot
  rcases hhash with ⟨hash, hhash⟩
  exact ⟨_, returns_bind_iff.mpr ⟨hash, env, hhash, returns_modifyPart_iff.mpr rfl⟩, rfl⟩

theorem updatePartials_returns (hf : f ≤ 53) {env : SectorEnv} {earliest : Option Int}
    (hs : Shape f arc env.part) (hrel : env.store.failures = [])
    (hids : IdsOfLength n env.store.stored) (hle : fullEnd f env.part.fullSlices ≤ t)
    (ht : t ≤ i64Max) :
    ∃ env', Returns (TimePartition.updatePartials loc earliest t) env () env' ∧
      env'.store = env.store := by
  have hloop : ∃ env', Returns
      (Eff.each (TimePartition.pushPartial loc env.part.partialSlices earliest)
        (partialLayout f (fullEnd f env.part.fullSlices)
          (t - fullEnd f env.part.fullSlices).toNat))
      { env with part := { env.part with partialSlices := [] } } () env' ∧
      env'.store = env.store := by
    refine each_returns _ rfl ?_
    intro slot hslot e he
    have hfits := slotFits_partialLayout hf (fullEnd_nonneg _ _) hle ht hslot
    have hrel' : e.store.failures = [] := by rw [he, hrel]
    have hids' : IdsOfLength n e.store.stored := by rw [he]; exact hids
    rcases pushPartial_returns hrel' hids' hfits with ⟨e', hpush, he'⟩
    exact ⟨e', hpush, he'.trans he⟩
  rcases hloop with ⟨env', hloop, hstore⟩
  refine ⟨env', ?_, hstore⟩
  refine returns_read_bind_iff.mpr ?_
  refine returns_lift_bind_iff.mpr ⟨_, fullSliceEndTimestamp_ok hs (le_trans hle ht), ?_⟩
  refine returns_lift_bind_iff.mpr ⟨_, layoutPartials_ok hf hs (fullEnd_nonneg _ _) hle ht, ?_⟩
  exact returns_bind_iff.mpr ⟨(), _, returns_modifyPart_iff.mpr rfl, hloop⟩

theorem stop_ok {p : PartialSlice} (h : SlotFits (p.start, p.size)) :
    p.stop = .ok (p.start + slotLen p.size) := by
  rcases slotStop_ok h with ⟨hdur, hstop⟩
  exact bind_eq_ok_iff.mpr ⟨_, hdur, hstop⟩

theorem scheduleNextUpdate_returns {env : SectorEnv}
    (h : ∀ last, env.part.partialSlices.getLast? = some last →
      SlotFits (last.start, last.size) ∧ last.start + slotLen last.size + unitTime ≤ i64Max) :
    ∃ env', Returns TimePartition.scheduleNextUpdate env () env' ∧ env'.store = env.store := by
  cases hlast : env.part.partialSlices.getLast? with
  | none =>
      refine ⟨env, returns_read_bind_iff.mpr ?_, rfl⟩
      rw [hlast]
      exact returns_pure_iff.mpr ⟨rfl, rfl⟩
  | some last =>
      rcases h last hlast with ⟨hfits, hnext⟩
      have hnonneg : 0 ≤ last.start + slotLen last.size :=
        Int.add_nonneg hfits.1 (le_of_lt (slotLen_pos _))
      refine ⟨{ env with
        part := { env.part with nextUpdateAt := last.start + slotLen last.size + unitTime } },
        returns_read_bind_iff.mpr ?_, rfl⟩
      rw [hlast]
      refine returns_lift_bind_iff.mpr ⟨_, stop_ok hfits, ?_⟩
      refine returns_lift_bind_iff.mpr ⟨_, addDuration_of_le hnonneg hnext, ?_⟩
      exact returns_modifyPart_iff.mpr rfl

/-- The partial slices at time `t` after `k` full slices. -/
def slotsAfter (f k : Nat) (t : Int) : List (Int × Nat) :=
  partialLayout f (fullEnd f k) (t - fullEnd f k).toNat

theorem fullEnd_max_le {k : Nat} (hle : fullEnd f k ≤ t) : fullEnd f (max k (fullCount f t)) ≤ t := by
  rcases Nat.le_total k (fullCount f t) with hcase | hcase
  · rw [Nat.max_eq_right hcase]
    exact fullEnd_fullCount_le_self (le_trans (fullEnd_nonneg _ _) hle)
  · rw [Nat.max_eq_left hcase]
    exact hle

/-- An update to a time that is not before the full slices returns; the clock may have been ahead
when the full slices were counted. -/
theorem update_returns_of_le (hf : f ≤ 53) {env : SectorEnv} (hs : Shape f arc env.part)
    (hrel : env.store.failures = []) (hids : IdsOfLength n env.store.stored)
    (hle : fullEnd f env.part.fullSlices ≤ t) (ht : t ≤ i64Max)
    (hnext : ∀ slot, (slotsAfter f (max env.part.fullSlices (fullCount f t)) t).getLast? = some slot →
      slot.1 + slotLen slot.2 + unitTime ≤ i64Max) :
    ∃ env', Returns (TimePartition.update loc t) env () env' ∧ StillReliable env env' := by
  rcases layoutFullSlices_ok hs hle ht with ⟨count, hlayout, hmax⟩
  have hroom : fullEnd f (env.part.fullSlices + count) ≤ i64Max := by
    rw [hmax]
    exact le_trans (fullEnd_max_le hle) ht
  -- the full slices
  have hadd : ∃ env1, Returns
      (TimePartition.addFullSlices loc count (fullEnd f env.part.fullSlices)) env () env1 ∧
      StillReliable env env1 := addFullSlices_returns count hs hrel hids hroom
  rcases hadd with ⟨env1, hadd, hstill1⟩
  have hfull : Returns (TimePartition.updateFullSliceHashes loc t) env () env1 := by
    refine returns_read_bind_iff.mpr (returns_lift_bind_iff.mpr ⟨count, hlayout, ?_⟩)
    exact returns_lift_bind_iff.mpr ⟨_, fullSliceEndTimestamp_ok hs (le_trans hle ht), hadd⟩
  rcases returns_updateFullSliceHashes hs (le_trans hle ht) ht hfull with ⟨_, hpart1, hafter, _, _⟩
  have hs1 : Shape f arc env1.part := by
    rw [hpart1]
    exact ⟨hs.factor, hs.fullSliceDuration, hs.minRecentTime, hs.sectorConstraint⟩
  have hids1 : IdsOfLength n env1.store.stored := by
    rw [hstill1.stored]
    exact hids
  have hfs1 : env1.part.fullSlices = max env.part.fullSlices (fullCount f t) := by rw [hpart1]
  have hle1 : fullEnd f env1.part.fullSlices ≤ t := by
    rw [hfs1]
    exact hafter
  -- the partial slices
  have hpartials : ∃ env2, Returns
      (TimePartition.updatePartials loc (env1.store.earliestInArc loc arc) t) env1 () env2 ∧
      env2.store = env1.store := updatePartials_returns hf hs1 hstill1.failures hids1 hle1 ht
  rcases hpartials with ⟨env2, hpartials, hstore2⟩
  rcases returns_updatePartials hf hs1 hle1 ht hpartials with ⟨hpart2, _⟩
  have hlastFits : ∀ last, env2.part.partialSlices.getLast? = some last →
      SlotFits (last.start, last.size) ∧ last.start + slotLen last.size + unitTime ≤ i64Max := by
    intro last hlast
    rw [hpart2, hfs1] at hlast
    simp only [List.getLast?_map, Option.map_eq_some_iff] at hlast
    rcases hlast with ⟨slot, hslot, rfl⟩
    exact ⟨slotFits_partialLayout hf (fullEnd_nonneg _ _) hafter ht (List.mem_of_getLast? hslot),
      hnext slot hslot⟩
  rcases scheduleNextUpdate_returns hlastFits with ⟨env3, hsched, hstore3⟩
  have hearliest : Returns (onStore (earliestTimestampInArc loc env1.part.sectorConstraint)) env1
      (env1.store.earliestInArc loc arc) env1 := by
    rw [hs1.sectorConstraint]
    exact onStore_query_returns hstill1.failures _
  refine ⟨env3, ?_, ?_⟩
  · refine returns_bind_iff.mpr ⟨(), env1, hfull, returns_read_bind_iff.mpr ?_⟩
    refine returns_bind_iff.mpr ⟨_, env1, hearliest, ?_⟩
    exact returns_bind_iff.mpr ⟨(), env2, hpartials, hsched⟩
  · refine ⟨?_, ?_⟩
    · rw [hstore3, hstore2]
      exact hstill1.failures
    · rw [hstore3, hstore2]
      exact hstill1.opList

theorem update_returns (hf : f ≤ 53) {env : SectorEnv} (hs : Shape f arc env.part)
    (hrel : env.store.failures = []) (hids : IdsOfLength n env.store.stored) (ht0 : 0 ≤ t)
    (ht : t ≤ i64Max) (hcount : env.part.fullSlices ≤ fullCount f t) (hnext : NextFits f t) :
    ∃ env', Returns (TimePartition.update loc t) env () env' ∧ StillReliable env env' := by
  refine update_returns_of_le hf hs hrel hids
    (le_trans (fullEnd_mono hcount) (fullEnd_fullCount_le_self ht0)) ht ?_
  rw [Nat.max_eq_right hcount]
  exact hnext

/-! ## Stored ops -/

theorem length_sliceXor {ops : List StoredOp} (h : IdsOfLength n ops) (start stop : Int) :
    sliceXor loc arc ops start stop = [] ∨ (sliceXor loc arc ops start stop).length = n := by
  apply length_xorAll
  intro id hid
  rcases List.mem_map.mp hid with ⟨op, hop, rfl⟩
  exact h op (List.mem_filter.mp hop).1

theorem idsOfLength_append {ops ops' : List StoredOp} :
    IdsOfLength n (ops ++ ops') ↔ IdsOfLength n ops ∧ IdsOfLength n ops' := by
  simp only [IdsOfLength, List.mem_append]
  constructor
  · intro h
    exact ⟨fun op hop => h op (Or.inl hop), fun op hop => h op (Or.inr hop)⟩
  · rintro ⟨h, h'⟩ op (hop | hop)
    · exact h op hop
    · exact h' op hop

theorem combineFirst_ok {op : StoredOp} (hop : op.opId.length = n) :
    ∀ l : List PartialSlice, (∀ p ∈ l, p.hash = [] ∨ p.hash.length = n) →
      ∃ out, TimePartition.combineFirst op l = .ok out := by
  intro l
  induction l with
  | nil =>
      intro _
      exact ⟨[], rfl⟩
  | cons p l ih =>
      intro h
      rw [TimePartition.combineFirst]
      by_cases hge : op.createdAt ≥ p.start
      · rw [if_pos hge]
        exact ⟨_, bind_eq_ok_iff.mpr ⟨_, combineHashes_ok (h p (by simp)) hop, rfl⟩⟩
      · rw [if_neg hge]
        rcases ih (fun q hq => h q (by simp [hq])) with ⟨out, hout⟩
        exact ⟨_, bind_eq_ok_iff.mpr ⟨_, hout, rfl⟩⟩

section Inform

variable {counted : List StoredOp} {env : SectorEnv} {op : StoredOp}

theorem informFull_returns (hacc : SectorAccurate loc f arc t counted env)
    (hrel : env.store.failures = []) (hids : IdsOfLength n counted) (hn : 0 < n)
    (hop : op.opId.length = n) (hpos : 0 ≤ op.createdAt)
    (hlt : op.createdAt < fullEnd f (fullCount f t)) :
    ∃ env', Returns (TimePartition.informFull op) env () env' ∧ StillReliable env env' := by
  have hfit : fullEnd f (fullCount f t) ≤ i64Max :=
    le_trans (fullEnd_fullCount_le_self hacc.nonneg) hacc.fits
  rcases full_index hpos hlt hfit with ⟨k, hdiv, hwrap, hk, _⟩
  have hopne : op.opId ≠ [] := by
    intro hnil
    rw [hnil] at hop
    exact absurd hop (ne_of_lt hn)
  -- the index of the slice, and the hash that is stored for it
  have hdur := hacc.shape.fullSliceDuration
  rw [← hdur] at hdiv
  have hread : Returns (onStore (retrieveSliceHash arc k)) env (env.store.sliceHashes arc)[k]? env :=
    onStore_query_returns hrel _
  cases hcur : (env.store.sliceHashes arc)[k]? with
  | none =>
      rcases onStore_storeSliceHash_returns hrel arc k hopne with ⟨env', hstore, hstill, _⟩
      refine ⟨env', returns_read_bind_iff.mpr (returns_lift_bind_iff.mpr ⟨(k : Int), hdiv, ?_⟩),
        hstill⟩
      rw [hwrap, hacc.shape.sectorConstraint]
      refine returns_bind_iff.mpr ⟨_, env, hread, ?_⟩
      rw [hcur]
      exact hstore
  | some hash =>
      have hhash : hash = [] ∨ hash.length = n := by
        rw [hacc.slices k, if_pos hk] at hcur
        by_cases hnil : fullXor loc f arc counted k = []
        · simp [optHash, hnil] at hcur
        · simp only [optHash, hnil, if_false, Option.some.injEq] at hcur
          rw [← hcur]
          exact length_sliceXor hids _ _
      have hne : xorBytes hash op.opId ≠ [] := fun hnil => hopne (xorBytes_eq_nil_iff.mp hnil).2
      rcases onStore_storeSliceHash_returns hrel arc k hne with ⟨env', hstore, hstill, _⟩
      refine ⟨env', returns_read_bind_iff.mpr (returns_lift_bind_iff.mpr ⟨(k : Int), hdiv, ?_⟩),
        hstill⟩
      rw [hwrap, hacc.shape.sectorConstraint]
      refine returns_bind_iff.mpr ⟨_, env, hread, ?_⟩
      rw [hcur]
      exact returns_lift_bind_iff.mpr ⟨_, combineHashes_ok hhash hop, hstore⟩

theorem informPartial_returns (hf : f ≤ 53) (hacc : SectorAccurate loc f arc t counted env)
    (hrel : env.store.failures = []) (hids : IdsOfLength n counted) (hop : op.opId.length = n) :
    ∃ env', Returns (TimePartition.informPartial op) env () env' ∧ StillReliable env env' := by
  have hbefore : fullEnd f (fullCount f t) ≤ t := fullEnd_fullCount_le_self hacc.nonneg
  have hfit : ∀ p ∈ env.part.partialSlices, SlotFits (p.start, p.size) := by
    intro p hp
    rw [hacc.partialSlices] at hp
    rcases List.mem_map.mp hp with ⟨slot, hslot, rfl⟩
    exact slotFits_partialLayout hf (fullEnd_nonneg _ _) hbefore hacc.fits hslot
  have hlen : ∀ p ∈ env.part.partialSlices.reverse, p.hash = [] ∨ p.hash.length = n := by
    intro p hp
    rw [List.mem_reverse, hacc.partialSlices] at hp
    rcases List.mem_map.mp hp with ⟨slot, _, rfl⟩
    exact length_sliceXor hids _ _
  rcases combineFirst_ok hop _ hlen with ⟨out, hout⟩
  -- an op past the last partial slice waits for the next update
  cases hlast : env.part.partialSlices.getLast? with
  | none =>
      refine ⟨env, returns_read_bind_iff.mpr ?_, ⟨hrel, rfl⟩⟩
      rw [hlast]
      exact returns_pure_iff.mpr ⟨rfl, rfl⟩
  | some last =>
      have hstop := stop_ok (hfit last (List.mem_of_getLast? hlast))
      by_cases hlate : op.createdAt ≥ last.start + slotLen last.size
      · refine ⟨env, returns_read_bind_iff.mpr ?_, ⟨hrel, rfl⟩⟩
        rw [hlast]
        refine returns_lift_bind_iff.mpr ⟨_, hstop, ?_⟩
        rw [if_pos hlate]
        exact returns_pure_iff.mpr ⟨rfl, rfl⟩
      · refine ⟨{ env with part := { env.part with partialSlices := out.reverse } },
          returns_read_bind_iff.mpr ?_, ⟨hrel, rfl⟩⟩
        rw [hlast]
        refine returns_lift_bind_iff.mpr ⟨_, hstop, ?_⟩
        rw [if_neg hlate]
        exact returns_lift_bind_iff.mpr ⟨out, hout, returns_modifyPart_iff.mpr rfl⟩

/-- Informing an accurate sector of ops of its own arc returns. -/
theorem informOpsStored_returns (hf : f ≤ 53) {ops : List StoredOp}
    (hacc : SectorAccurate loc f arc t counted env) (hrel : env.store.failures = [])
    (hids : IdsOfLength n counted) (hn : 0 < n) (hlen : IdsOfLength n ops)
    (hops : ∀ op ∈ ops, arc.contains (loc op.opId) = true ∧ 0 ≤ op.createdAt) :
    ∃ env', Returns (TimePartition.informOpsStored ops) env () env' ∧ StillReliable env env' := by
  have hloop : ∃ env', Returns (Eff.each (TimePartition.informOp (fullEnd f (fullCount f t))) ops)
      env () env' ∧ StillReliable env env' ∧
        ∃ counted, SectorAccurate loc f arc t counted env' ∧ IdsOfLength n counted := by
    refine each_returns ops ⟨⟨hrel, rfl⟩, counted, hacc, hids⟩ ?_
    rintro op hmem e ⟨hstill, counted', hacc', hids'⟩
    rcases hops op hmem with ⟨harc, hpos⟩
    have hone : ∃ e', Returns (TimePartition.informOp (fullEnd f (fullCount f t)) op) e () e' ∧
        StillReliable e e' := by
      unfold TimePartition.informOp
      -- an op belongs to the full slices or to the partial ones, split at the boundary
      by_cases hlt : op.createdAt < fullEnd f (fullCount f t)
      · rw [if_pos hlt]
        exact informFull_returns hacc' hstill.failures hids' hn (hlen op hmem) hpos hlt
      · rw [if_neg hlt]
        exact informPartial_returns hf hacc' hstill.failures hids' (hlen op hmem)
    rcases hone with ⟨e', he', hstill'⟩
    refine ⟨e', he', hstill.trans hstill', counted' ++ [op], (hacc'.informOp hf harc hpos he').1, ?_⟩
    refine idsOfLength_append.mpr ⟨hids', ?_⟩
    intro o ho
    rw [List.mem_singleton] at ho
    rw [ho]
    exact hlen op hmem
  rcases hloop with ⟨env', hloop, hstill, _⟩
  have hfit : fullEnd f env.part.fullSlices ≤ i64Max := by
    rw [hacc.fullSlices]
    exact le_trans (fullEnd_fullCount_le_self hacc.nonneg) hacc.fits
  refine ⟨env', returns_read_bind_iff.mpr ?_, hstill⟩
  refine returns_lift_bind_iff.mpr ⟨_, fullSliceEndTimestamp_ok hacc.shape hfit, ?_⟩
  rw [hacc.fullSlices]
  exact hloop

end Inform

/-! ## Rebuilding -/

theorem initialFullSlices_returns {st : OpStore} {k : Nat} (hrel : st.failures = [])
    (hmax : ∀ id, (st.sliceHashes arc).maxKey? = some id → id < u64Max) :
    ∃ count, Returns (TimePartition.initialFullSlices loc (freshPart f arc k) t) st count st := by
  rcases sliceHashCount_returns hrel hmax with ⟨count, hcount⟩
  by_cases hzero : count = 0
  · refine ⟨(TimePartition.wrapU128 ((st.earliestInArc loc arc).getD t) / sliceLen f - 1) % 2 ^ 64,
      returns_bind_iff.mpr ⟨count, st, hcount, ?_⟩⟩
    rw [if_pos hzero]
    exact returns_bind_iff.mpr ⟨_, st, query_returns hrel _, returns_pure_iff.mpr ⟨rfl, rfl⟩⟩
  · refine ⟨count, returns_bind_iff.mpr ⟨count, st, hcount, ?_⟩⟩
    rw [if_neg hzero]
    exact returns_pure_iff.mpr ⟨rfl, rfl⟩

/-- A sector is rebuilt from any store whose start count is within the full slices of the time. -/
theorem tryFromStore_returns_of_count (hpos : 1 ≤ f) (hf : f ≤ 53) {st : OpStore}
    (harc : arc ≠ .empty) (hrel : st.failures = []) (hids : IdsOfLength n st.stored)
    (ht : 0 ≤ t) (hfits : t ≤ i64Max) (hnext : NextFits f t)
    (hmax : ∀ id, (st.sliceHashes arc).maxKey? = some id → id < u64Max)
    (hwithin : ∀ count, StartCount loc f arc t st count → count ≤ fullCount f t) :
    ∃ tp st', Returns (TimePartition.tryFromStore loc f t arc) st tp st' ∧ st'.failures = [] := by
  have hcount : ∃ count, Returns
      (TimePartition.initialFullSlices loc (freshPart f arc 0) t) st count st :=
    initialFullSlices_returns hrel hmax
  rcases hcount with ⟨count, hcount⟩
  have hle : count ≤ fullCount f t := hwithin count (returns_initialFullSlices hcount).2
  have hend : fullEnd f count ≤ t := le_trans (fullEnd_mono hle) (fullEnd_fullCount_le_self ht)
  have hshape : Shape f arc ({ part := freshPart f arc count, store := st } : SectorEnv).part :=
    shape_freshPart f arc count
  have hupdate : ∃ env, Returns (TimePartition.update loc t)
      { part := freshPart f arc count, store := st } () env ∧
      StillReliable { part := freshPart f arc count, store := st } env :=
    update_returns hf hshape hrel hids ht hfits hle hnext
  rcases hupdate with ⟨env, hupdate, hstill⟩
  have hrecent : elapsed t (fullEnd f count)
      (.k2 "Failed to calculate recent time, either the clock is wrong or this is a bug") =
        .ok (t - fullEnd f count).toNat := by
    have hnonneg := fullEnd_nonneg f count
    exact elapsed_eq_ok_iff.mpr ⟨hend, by linarith, Int.toNat_of_nonneg (sub_nonneg.mpr hend)⟩
  refine ⟨env.part, env.store, ?_, hstill.failures⟩
  unfold TimePartition.tryFromStore
  refine returns_check_iff.mpr ⟨harc, ?_⟩
  refine returns_lift_bind_iff.mpr ⟨_, new_ok hpos hf arc, ?_⟩
  refine returns_bind_iff.mpr ⟨count, st, hcount, ?_⟩
  refine returns_lift_bind_iff.mpr
    ⟨_, fullSliceEndTimestamp_ok (shape_freshPart f arc count) (le_trans hend hfits), ?_⟩
  refine returns_lift_bind_iff.mpr ⟨_, hrecent, ?_⟩
  refine returns_check_iff.mpr ⟨?_, returns_runOn_iff.mpr hupdate⟩
  rintro ⟨hcpos, hshort⟩
  -- the reserved recent time is what `fullCount` leaves free
  have hroom : fullEnd f count + recentLen f ≤ t := by
    rcases Nat.eq_zero_or_pos (fullCount f t) with hzero | hfpos
    · have hcpos' : count > 0 := hcpos
      omega
    · calc fullEnd f count + recentLen f ≤ fullEnd f (fullCount f t) + recentLen f :=
            Int.add_le_add_right (fullEnd_mono hle) _
        _ ≤ t := fullEnd_fullCount_le hfpos
  have hshort' : (t - fullEnd f count).toNat < recentLen f := hshort
  omega

/-- A sector is rebuilt from any store whose slice hashes match its ops. -/
theorem tryFromStore_returns (hpos : 1 ≤ f) (hf : f ≤ 53) {st : OpStore} {m : Nat}
    (harc : arc ≠ .empty) (hrel : st.failures = []) (hids : IdsOfLength n st.stored)
    (ht : 0 ≤ t) (hfits : t ≤ i64Max) (hnext : NextFits f t)
    (hstored : SlicesStored loc f arc m st) (hm : m ≤ fullCount f t)
    (hops : ∀ op ∈ st.stored, arc.contains (loc op.opId) = true →
      0 ≤ op.createdAt ∧ op.createdAt ≤ t) :
    ∃ tp st', Returns (TimePartition.tryFromStore loc f t arc) st tp st' ∧ st'.failures = [] := by
  have hmfit : fullEnd f m ≤ i64Max :=
    le_trans (le_trans (fullEnd_mono hm) (fullEnd_fullCount_le_self ht)) hfits
  have hmax : ∀ id, (st.sliceHashes arc).maxKey? = some id → id < u64Max := by
    intro id hid
    have hlt : id < m := by
      by_contra hge
      have hlook := hstored id
      rw [if_neg hge] at hlook
      exact mem_of_maxKey hid hlook
    have hle := le_fullEnd f m
    simp only [i64Max] at hmfit
    simp only [u64Max]
    omega
  exact tryFromStore_returns_of_count hpos hf harc hrel hids ht hfits hnext hmax
    fun count hcount => (hcount.slices ht hfits hstored hm hops).1

end Dht
end Kitsune2
