import Mathlib.Data.List.Induction
import Kitsune2.Dht.Sector

/-!
# Accuracy — slice hashes that match a list of ops

`SectorAccurate loc f arc t counted env` says that the sector is laid out for time `t` and that the
hash of each of its slices is the XOR of the ids of the `counted` ops in it.  The list is the
abstract content of the slice hashes; it is what `inform_ops_stored` adds to, and it may differ from
what the op store holds.

An update keeps the counted ops as long as every slice it computes from the store holds the same ops
there and in the list; informing the sector of an op adds the op to the list; rebuilding a sector
from a store counts exactly what is stored.
-/

namespace Kitsune2
namespace Dht

open Api Lib

variable {loc : LocCb} {f : Nat} {arc : DhtArc} {t : Int}

/-! ## The accuracy of a sector -/

/-- A stored slice hash: empty hashes are not stored. -/
def optHash (hash : Bytes) : Option Bytes :=
  if hash = [] then none else some hash

theorem optHash_getD (hash : Bytes) : (optHash hash).getD [] = hash := by
  by_cases hnil : hash = []
  · simp [optHash, hnil]
  · simp [optHash, hnil]

/-- The partial slice with exactly the counted ops. -/
def exactSlice (loc : LocCb) (arc : DhtArc) (counted : List StoredOp) (slot : Int × Nat) :
    PartialSlice where
  start := slot.1
  size := slot.2
  hash := slotXor loc arc counted slot

/-- The partial slots of a partition at time `t`. -/
def slotsAt (f : Nat) (t : Int) : List (Int × Nat) :=
  partialLayout f (fullEnd f (fullCount f t)) (t - fullEnd f (fullCount f t)).toNat

/-- The indices of the rings are of type `u32`. -/
theorem length_slotsAt_le (f : Nat) (hf : f ≤ 53) (t : Int) : (slotsAt f t).length ≤ 2 ^ 32 := by
  have hlen : (slotsAt f t).length ≤ 2 * f := length_partialLayout_le _ _ _
  omega

structure SectorAccurate (loc : LocCb) (f : Nat) (arc : DhtArc) (t : Int) (counted : List StoredOp)
    (env : SectorEnv) : Prop where
  shape : Shape f arc env.part
  nonneg : 0 ≤ t
  fits : t ≤ i64Max
  fullSlices : env.part.fullSlices = fullCount f t
  partialSlices : env.part.partialSlices = (slotsAt f t).map (exactSlice loc arc counted)
  slices : ∀ k, (env.store.sliceHashes arc)[k]? =
    if k < fullCount f t then optHash (fullXor loc f arc counted k) else none

/-! ## Update -/

theorem findPartial_exact {counted : List StoredOp} :
    ∀ (l : List (Int × Nat)) (slot : Int × Nat),
      TimePartition.findPartial (l.map (exactSlice loc arc counted)) slot.1 slot.2 =
        if slot ∈ l then some (slotXor loc arc counted slot) else none := by
  intro l slot
  induction l with
  | nil =>
      rfl
  | cons s l ih =>
      simp only [TimePartition.findPartial, List.map_cons, List.findSome?_cons] at ih ⊢
      by_cases heq : s = slot
      · subst heq
        simp [exactSlice]
      · have hne : ¬ (s.1 = slot.1 ∧ s.2 = slot.2) := fun h => heq (Prod.ext h.1 h.2)
        have hne' : ¬ slot = s := fun h => heq h.symm
        have hstep : (if (exactSlice loc arc counted s).start = slot.1 ∧
            (exactSlice loc arc counted s).size = slot.2 then
              some (exactSlice loc arc counted s).hash else none) = none := if_neg hne
        rw [hstep]
        simp only [List.mem_cons, hne', false_or]
        exact ih

/-- The slices that an update from `t` to `t'` computes from the store hold the counted ops. -/
structure FreshSlicesAgree (loc : LocCb) (f : Nat) (arc : DhtArc) (t t' : Int)
    (stored counted : List StoredOp) : Prop where
  full : ∀ k, fullCount f t ≤ k → k < fullCount f t' →
    fullXor loc f arc stored k = fullXor loc f arc counted k
  partials : ∀ slot ∈ slotsAt f t', slot ∉ slotsAt f t →
    slotXor loc arc stored slot = slotXor loc arc counted slot

theorem SectorAccurate.updated {counted : List StoredOp} {env env' : SectorEnv} {t' : Int}
    (hacc : SectorAccurate loc f arc t counted env) (hle : t ≤ t') (ht' : t' ≤ i64Max)
    (hfresh : FreshSlicesAgree loc f arc t t' env.store.stored counted)
    (h : Updated loc f arc t' env env') : SectorAccurate loc f arc t' counted env' := by
  have hfs : env'.part.fullSlices = fullCount f t' := by
    rw [h.fullSlices, hacc.fullSlices]
    exact Nat.max_eq_right (fullCount_mono hle)
  refine ⟨h.shape, le_trans hacc.nonneg hle, ht', hfs, ?_, ?_⟩
  · rw [h.partialSlices, hfs, hacc.partialSlices]
    apply List.map_congr_left
    intro slot hslot
    rw [newSlice, findPartial_exact]
    by_cases hold : slot ∈ slotsAt f t
    · simp [hold, exactSlice]
    · simp [hold, exactSlice, hfresh.partials slot hslot hold]
  · intro k
    rw [h.slices k, hacc.fullSlices, hfs, hacc.slices k]
    have hmono := fullCount_mono (f := f) hle
    by_cases hold : k < fullCount f t
    · -- an old slice stays as it is
      have hnew : k < fullCount f t' := lt_of_lt_of_le hold hmono
      simp [hold, hnew, not_le.mpr hold]
    · by_cases hnew : k < fullCount f t'
      · have heq := hfresh.full k (not_lt.mp hold) hnew
        simp only [hold, hnew, heq, not_lt.mp hold, true_and, if_true, if_false, optHash]
        by_cases hnil : fullXor loc f arc counted k = []
        · simp [hnil]
        · simp [hnil]
      · simp [hold, hnew]

/-! ## Stored ops -/

theorem sliceXor_concat {counted : List StoredOp} {op : StoredOp} {start stop : Int} :
    sliceXor loc arc (counted ++ [op]) start stop =
      if inSlice loc arc start stop op = true then
        xorBytes (sliceXor loc arc counted start stop) op.opId
      else sliceXor loc arc counted start stop := by
  unfold sliceXor
  rw [List.filter_append]
  by_cases hin : inSlice loc arc start stop op = true
  · rw [if_pos hin, List.filter_cons_of_pos hin, List.filter_nil, List.map_append, xorAll_append]
    simp
  · rw [if_neg hin, List.filter_cons_of_neg hin, List.filter_nil, List.append_nil]

theorem inSlice_iff {start stop : Int} {op : StoredOp} (harc : arc.contains (loc op.opId) = true) :
    inSlice loc arc start stop op = true ↔ start ≤ op.createdAt ∧ op.createdAt < stop := by
  simp [inSlice, harc]

theorem inSlot_iff {slot : Int × Nat} {op : StoredOp} (harc : arc.contains (loc op.opId) = true) :
    inSlice loc arc slot.1 (slot.1 + slotLen slot.2) op = true ↔
      InSlot slotLen slot op.createdAt :=
  inSlice_iff harc

/-- An op in no full slice changes no full slice. -/
theorem fullXor_concat_of_ge {counted : List StoredOp} {op : StoredOp} {n k : Nat} (hk : k < n)
    (hge : fullEnd f n ≤ op.createdAt) :
    fullXor loc f arc (counted ++ [op]) k = fullXor loc f arc counted k := by
  unfold fullXor
  rw [sliceXor_concat, if_neg]
  intro hin
  have hlt : op.createdAt < fullEnd f (k + 1) := by
    simp only [inSlice, Bool.and_eq_true, decide_eq_true_eq] at hin
    exact hin.1.2
  have hmono : fullEnd f (k + 1) ≤ fullEnd f n := fullEnd_mono hk
  omega

/-- The index of the full slice an op belongs to. -/
theorem full_index {op : StoredOp} {n : Nat} (hpos : 0 ≤ op.createdAt)
    (hlt : op.createdAt < fullEnd f n) (hfit : fullEnd f n ≤ i64Max) :
    ∃ k : Nat, TimePartition.divI64 op.createdAt (wrapI64 (sliceLen f)) = .ok (k : Int) ∧
      wrapU64 k = k ∧ k < n ∧ ∀ j : Nat, fullEnd f j ≤ op.createdAt ∧ op.createdAt < fullEnd f (j + 1) ↔
        j = k := by
  have hlen : (0 : Int) < sliceLen f := by exact_mod_cast sliceLen_pos f
  have hn : 1 ≤ n := by
    rcases Nat.eq_zero_or_pos n with hzero | hpos'
    · rw [hzero] at hlt
      simp only [fullEnd, Nat.cast_zero, Int.mul_zero] at hlt
      omega
    · exact hpos'
  have hone : (sliceLen f : Int) ≤ i64Max := by
    have h1 : fullEnd f 1 ≤ fullEnd f n := fullEnd_mono hn
    simp only [fullEnd, Nat.cast_one, Int.mul_one] at h1
    exact le_trans h1 hfit
  rcases Int.eq_ofNat_of_zero_le (Int.ediv_nonneg hpos (le_of_lt hlen)) with ⟨k, hk⟩
  have hbelow : fullEnd f k ≤ op.createdAt := by
    unfold fullEnd
    rw [← hk]
    exact Int.mul_ediv_self_le (ne_of_gt hlen)
  have habove : op.createdAt < fullEnd f (k + 1) := by
    unfold fullEnd
    push_cast
    rw [← hk, Int.mul_add, Int.mul_one]
    exact Int.lt_mul_ediv_self_add hlen
  have hkn : k < n := by
    by_contra hge
    have hmono : fullEnd f n ≤ fullEnd f k := fullEnd_mono (not_lt.mp hge)
    omega
  refine ⟨k, ?_, ?_, hkn, ?_⟩
  · rw [wrapI64_of_le hone]
    simp only [TimePartition.divI64, if_neg (ne_of_gt hlen)]
    rw [Int.tdiv_eq_ediv_of_nonneg hpos, hk]
  · -- the index is at most the number of microseconds since the epoch
    have hkle : (k : Int) ≤ fullEnd f k := le_fullEnd f k
    have hsmall : (k : Int) < 2 ^ 64 := by
      simp only [i64Max] at hfit
      omega
    unfold wrapU64
    rw [Int.emod_eq_of_lt (Int.natCast_nonneg k) hsmall, Int.toNat_natCast]
  · intro j
    constructor
    · rintro ⟨hj, hj'⟩
      by_contra hne
      rcases Nat.lt_or_gt_of_ne hne with hlt' | hgt
      · have hmono : fullEnd f (j + 1) ≤ fullEnd f k := fullEnd_mono hlt'
        omega
      · have hmono : fullEnd f (k + 1) ≤ fullEnd f j := fullEnd_mono hgt
        omega
    · rintro rfl
      exact ⟨hbelow, habove⟩

/-- A historical op is folded into the stored hash of its full slice, and changes nothing else. -/
theorem SectorAccurate.informFull {counted : List StoredOp} {env env' : SectorEnv} {op : StoredOp}
    {u : Unit} (hacc : SectorAccurate loc f arc t counted env)
    (harc : arc.contains (loc op.opId) = true) (hpos : 0 ≤ op.createdAt)
    (hlt : op.createdAt < fullEnd f (fullCount f t))
    (h : Returns (TimePartition.informFull op) env u env') :
    SectorAccurate loc f arc t (counted ++ [op]) env' ∧ OwnArcOnly arc env.store env'.store := by
  have hfit : fullEnd f (fullCount f t) ≤ i64Max :=
    le_trans (fullEnd_fullCount_le_self hacc.nonneg) hacc.fits
  rcases full_index hpos hlt hfit with ⟨k, hdiv, hwrap, hk, hindex⟩
  have h := returns_read_bind_iff.mp h
  rcases returns_lift_bind_iff.mp h with ⟨i, hi, h⟩
  rw [hacc.shape.fullSliceDuration, hdiv] at hi
  cases hi
  rcases returns_bind_iff.mp h with ⟨current, env1, hcur, h⟩
  rw [hwrap, hacc.shape.sectorConstraint] at hcur h
  rcases returns_onStore_iff.mp hcur with ⟨st1, hret, rfl⟩
  rcases returns_retrieveSliceHash hret with ⟨hcurEq, hsame⟩
  rw [hacc.slices k, if_pos hk] at hcurEq
  -- whether a hash was there or not, the new one is the old XOR the id
  have hstore : ∃ st2 hash, Returns (storeSliceHash arc k hash) st1 () st2 ∧
      env' = { env with store := st2 } ∧
      hash = xorBytes (fullXor loc f arc counted k) op.opId := by
    cases current with
    | none =>
        rcases returns_onStore_iff.mp h with ⟨st2, hst2, henv⟩
        have hnil : fullXor loc f arc counted k = [] := by
          by_contra hne
          simp [optHash, hne] at hcurEq
        exact ⟨st2, op.opId, hst2, henv, by simp [hnil]⟩
    | some hash =>
        rcases returns_lift_bind_iff.mp h with ⟨combined, hcomb, h⟩
        rcases returns_onStore_iff.mp h with ⟨st2, hst2, henv⟩
        have hhash : hash = fullXor loc f arc counted k := by
          by_cases hnil : fullXor loc f arc counted k = []
          · simp [optHash, hnil] at hcurEq
          · simpa [optHash, hnil] using hcurEq
        refine ⟨st2, combined, hst2, henv, ?_⟩
        rw [combineHashes_eq hcomb, hhash]
  rcases hstore with ⟨st2, hash, hst2, rfl, hhash⟩
  rcases returns_storeSliceHash_own hst2 with ⟨hne, hown, hlook⟩
  refine ⟨⟨hacc.shape, hacc.nonneg, hacc.fits, hacc.fullSlices, ?_, ?_⟩,
    hsame.ownArcOnly.trans hown⟩
  · -- the op lies before all partial slices
    simp only
    rw [hacc.partialSlices]
    apply List.map_congr_left
    intro slot hslot
    rcases tiles_partialLayout f (fullEnd f (fullCount f t)) (t - fullEnd f (fullCount f t)).toNat
      with ⟨stop, htiles, _⟩
    have hout := htiles.not_inSlot slotLen_pos hslot (Or.inl hlt)
    unfold exactSlice slotXor
    rw [sliceXor_concat, if_neg (fun hin => hout ((inSlot_iff harc).mp hin))]
  · intro j
    simp only
    rw [hlook j, hsame.sliceHashes, hacc.slices j]
    unfold fullXor
    rw [sliceXor_concat]
    by_cases hj : j = k
    · subst hj
      have hin : inSlice loc arc (fullEnd f j) (fullEnd f (j + 1)) op = true :=
        (inSlice_iff harc).mpr ((hindex j).mpr rfl)
      rw [if_pos rfl, if_pos hk, if_pos hin, hhash]
      unfold optHash fullXor
      rw [if_neg]
      rw [← fullXor, ← hhash]
      exact hne
    · have hout : ¬ inSlice loc arc (fullEnd f j) (fullEnd f (j + 1)) op = true :=
        fun hin => hj ((hindex j).mp ((inSlice_iff harc).mp hin))
      rw [if_neg hj, if_neg hout]

/-- The backwards scan finds the one slot that contains the op. -/
theorem combineFirst_exact {counted : List StoredOp} {op : StoredOp}
    (harc : arc.contains (loc op.opId) = true) :
    ∀ (l : List (Int × Nat)) {lo hi : Int} {out : List PartialSlice}, Tiles slotLen lo l hi →
      lo ≤ op.createdAt → op.createdAt < hi →
      TimePartition.combineFirst op (l.map (exactSlice loc arc counted)).reverse = .ok out →
      out.reverse = l.map (exactSlice loc arc (counted ++ [op])) := by
  intro l
  induction l using List.reverseRecOn with
  | nil =>
      intro lo hi out htiles hlo hhi h
      have heq : lo = hi := htiles
      omega
  | append_singleton l slot ih =>
      intro lo hi out htiles hlo hhi h
      rcases tiles_concat_iff.mp htiles with ⟨hinit, hend⟩
      rw [List.map_append, List.map_cons, List.map_nil, List.reverse_append, List.reverse_singleton,
        List.singleton_append, TimePartition.combineFirst] at h
      rw [List.map_append, List.map_cons, List.map_nil]
      by_cases hge : op.createdAt ≥ slot.1
      · -- the last slot is the one
        rw [if_pos (show op.createdAt ≥ (exactSlice loc arc counted slot).start from hge)] at h
        rcases bind_eq_ok_iff.mp h with ⟨hash, hcomb, hout⟩
        have hin : InSlot slotLen slot op.createdAt := ⟨hge, by rw [hend]; exact hhi⟩
        have hslot : exactSlice loc arc (counted ++ [op]) slot =
            { exactSlice loc arc counted slot with hash := hash } := by
          have hhash := combineHashes_eq hcomb
          unfold exactSlice slotXor at hhash ⊢
          rw [sliceXor_concat, if_pos ((inSlot_iff harc).mpr hin), hhash]
        have hrest : l.map (exactSlice loc arc (counted ++ [op])) =
            l.map (exactSlice loc arc counted) := by
          apply List.map_congr_left
          intro s hs
          have hnot := hinit.not_inSlot slotLen_pos hs (Or.inr hge)
          unfold exactSlice slotXor
          rw [sliceXor_concat, if_neg (fun hin => hnot ((inSlot_iff harc).mp hin))]
        have hout' : { exactSlice loc arc counted slot with hash := hash } ::
            (l.map (exactSlice loc arc counted)).reverse = out := by
          simpa [pure, Except.pure] using hout
        rw [← hout', hslot, hrest]
        simp
      · -- the op belongs to an earlier slot
        rw [if_neg (show ¬ op.createdAt ≥ (exactSlice loc arc counted slot).start from hge)] at h
        rcases bind_eq_ok_iff.mp h with ⟨rest, hrest, hout⟩
        have hih := ih hinit hlo (not_le.mp hge) hrest
        have hout' : exactSlice loc arc counted slot :: rest = out := by
          simpa [pure, Except.pure] using hout
        have hslot : exactSlice loc arc (counted ++ [op]) slot = exactSlice loc arc counted slot := by
          unfold exactSlice slotXor
          rw [sliceXor_concat, if_neg]
          intro hin
          exact hge ((inSlot_iff harc).mp hin).1
        rw [← hout', List.reverse_cons, hih, hslot]

/-- The end of the partial slices, as `informPartial` finds it. -/
theorem last_stop {counted : List StoredOp} {l : List (Int × Nat)} {lo hi : Int}
    {last : PartialSlice} (htiles : Tiles slotLen lo l hi) (hfit : ∀ slot ∈ l, SlotFits slot)
    (h : (l.map (exactSlice loc arc counted)).getLast? = some last) : last.stop = .ok hi := by
  rcases List.eq_nil_or_concat' l with rfl | ⟨init, slot, rfl⟩
  · cases h
  · have hlast : exactSlice loc arc counted slot = last := by
      simpa using h
    rcases tiles_concat_iff.mp htiles with ⟨_, hend⟩
    have hs := hfit slot (by simp)
    rcases slotStop_ok hs with ⟨hdur, hstop⟩
    rw [← hlast]
    simp only [PartialSlice.stop, exactSlice, hdur, bind, Except.bind, hstop, hend]

/-- A recent op is folded into its partial slice, or into none if it is newer than all of them. -/
theorem SectorAccurate.informPartial (hf : f ≤ 53) {counted : List StoredOp} {env env' : SectorEnv}
    {op : StoredOp} {u : Unit} (hacc : SectorAccurate loc f arc t counted env)
    (harc : arc.contains (loc op.opId) = true) (hge : fullEnd f (fullCount f t) ≤ op.createdAt)
    (h : Returns (TimePartition.informPartial op) env u env') :
    SectorAccurate loc f arc t (counted ++ [op]) env' ∧ OwnArcOnly arc env.store env'.store := by
  have hbefore : fullEnd f (fullCount f t) ≤ t := fullEnd_fullCount_le_self hacc.nonneg
  rcases tiles_partialLayout f (fullEnd f (fullCount f t)) (t - fullEnd f (fullCount f t)).toNat
    with ⟨hi, htiles, _⟩
  have hfit : ∀ slot ∈ slotsAt f t, SlotFits slot := fun slot hslot =>
    slotFits_partialLayout hf (fullEnd_nonneg _ _) hbefore hacc.fits hslot
  -- in every case only the partial slices change, and the full slices do not hold the op
  have hdone : ∀ partials : List PartialSlice,
      partials = (slotsAt f t).map (exactSlice loc arc (counted ++ [op])) →
      SectorAccurate loc f arc t (counted ++ [op])
          { env with part := { env.part with partialSlices := partials } } ∧
        OwnArcOnly arc env.store env.store := by
    intro partials hpartials
    refine ⟨⟨?_, hacc.nonneg, hacc.fits, hacc.fullSlices, hpartials, ?_⟩, OwnArcOnly.refl _ _⟩
    · exact ⟨hacc.shape.factor, hacc.shape.fullSliceDuration, hacc.shape.minRecentTime,
        hacc.shape.sectorConstraint⟩
    · intro k
      simp only
      rw [hacc.slices k]
      by_cases hk : k < fullCount f t
      · rw [if_pos hk, if_pos hk, fullXor_concat_of_ge hk hge]
      · rw [if_neg hk, if_neg hk]
  have hsame : (∀ slot ∈ slotsAt f t, ¬ InSlot slotLen slot op.createdAt) →
      env.part.partialSlices = (slotsAt f t).map (exactSlice loc arc (counted ++ [op])) := by
    intro hnone
    rw [hacc.partialSlices]
    apply List.map_congr_left
    intro slot hslot
    unfold exactSlice slotXor
    rw [sliceXor_concat, if_neg (fun hin => hnone slot hslot ((inSlot_iff harc).mp hin))]
  have h := returns_read_bind_iff.mp h
  cases hlast : env.part.partialSlices.getLast? with
  | none =>
      -- no partial slices yet
      rw [hlast] at h
      rcases returns_pure_iff.mp h with ⟨_, rfl⟩
      have hnil : slotsAt f t = [] := by
        rw [List.getLast?_eq_none_iff, hacc.partialSlices, List.map_eq_nil_iff] at hlast
        exact hlast
      have hnone : ∀ slot ∈ slotsAt f t, ¬ InSlot slotLen slot op.createdAt := by
        intro slot hslot
        rw [hnil] at hslot
        cases hslot
      exact hdone env.part.partialSlices (hsame hnone)
  | some last =>
      rw [hlast] at h
      rcases returns_lift_bind_iff.mp h with ⟨stop, hstop, h⟩
      rw [hacc.partialSlices] at hlast
      rw [last_stop htiles hfit hlast] at hstop
      cases hstop
      by_cases hlate : op.createdAt ≥ hi
      · -- newer than every partial slice
        rw [if_pos hlate] at h
        rcases returns_pure_iff.mp h with ⟨_, rfl⟩
        have hnone : ∀ slot ∈ slotsAt f t, ¬ InSlot slotLen slot op.createdAt :=
          fun slot hslot => htiles.not_inSlot slotLen_pos hslot (Or.inr hlate)
        exact hdone env.part.partialSlices (hsame hnone)
      · rw [if_neg hlate] at h
        rcases returns_lift_bind_iff.mp h with ⟨partials, hcomb, h⟩
        rw [returns_modifyPart_iff] at h
        subst h
        rw [hacc.partialSlices] at hcomb
        exact hdone partials.reverse
          (combineFirst_exact harc (slotsAt f t) htiles hge (not_le.mp hlate) hcomb)

/-- Informing the sector of an op adds the op to the counted ones. -/
theorem SectorAccurate.informOp (hf : f ≤ 53) {counted : List StoredOp} {env env' : SectorEnv}
    {op : StoredOp} {u : Unit} (hacc : SectorAccurate loc f arc t counted env)
    (harc : arc.contains (loc op.opId) = true) (hpos : 0 ≤ op.createdAt)
    (h : Returns (TimePartition.informOp (fullEnd f (fullCount f t)) op) env u env') :
    SectorAccurate loc f arc t (counted ++ [op]) env' ∧ OwnArcOnly arc env.store env'.store := by
  unfold TimePartition.informOp at h
  by_cases hlt : op.createdAt < fullEnd f (fullCount f t)
  · rw [if_pos hlt] at h
    exact hacc.informFull harc hpos hlt h
  · rw [if_neg hlt] at h
    exact hacc.informPartial hf harc (not_lt.mp hlt) h

theorem SectorAccurate.informOps (hf : f ≤ 53) :
    ∀ (ops : List StoredOp) {counted : List StoredOp} {env env' : SectorEnv} {u : Unit},
      SectorAccurate loc f arc t counted env →
      (∀ op ∈ ops, arc.contains (loc op.opId) = true ∧ 0 ≤ op.createdAt) →
      Returns (Eff.each (TimePartition.informOp (fullEnd f (fullCount f t))) ops) env u env' →
      SectorAccurate loc f arc t (counted ++ ops) env' ∧ OwnArcOnly arc env.store env'.store := by
  intro ops
  induction ops with
  | nil =>
      intro counted env env' u hacc _ h
      rcases returns_pure_iff.mp h with ⟨_, rfl⟩
      exact ⟨by simpa using hacc, OwnArcOnly.refl _ _⟩
  | cons op ops ih =>
      intro counted env env' u hacc hops h
      rcases returns_each_cons_iff.mp h with ⟨env1, h1, h2⟩
      rcases hops op (by simp) with ⟨harc, hpos⟩
      rcases hacc.informOp hf harc hpos h1 with ⟨hacc1, hown1⟩
      rcases ih hacc1 (fun o ho => hops o (by simp [ho])) h2 with ⟨hacc2, hown2⟩
      exact ⟨by simpa using hacc2, hown1.trans hown2⟩

/-- The specification of `TimePartition::inform_ops_stored`. -/
theorem SectorAccurate.informed (hf : f ≤ 53) {ops counted : List StoredOp} {env env' : SectorEnv}
    {u : Unit} (hacc : SectorAccurate loc f arc t counted env)
    (hops : ∀ op ∈ ops, arc.contains (loc op.opId) = true ∧ 0 ≤ op.createdAt)
    (h : Returns (TimePartition.informOpsStored ops) env u env') :
    SectorAccurate loc f arc t (counted ++ ops) env' ∧ OwnArcOnly arc env.store env'.store := by
  have hfit : fullEnd f env.part.fullSlices ≤ i64Max := by
    rw [hacc.fullSlices]
    exact le_trans (fullEnd_fullCount_le_self hacc.nonneg) hacc.fits
  have h := returns_read_bind_iff.mp h
  rcases returns_lift_bind_iff.mp h with ⟨e, he, h⟩
  rw [fullSliceEndTimestamp_ok hacc.shape hfit, hacc.fullSlices] at he
  cases he
  exact hacc.informOps hf ops hops h

end Dht
end Kitsune2
