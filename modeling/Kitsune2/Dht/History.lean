import Mathlib.Tactic.IntervalCases
import Kitsune2.Dht.Lockstep

/-!
# History — the layout of slices does not depend on the past

Whatever a hash partition went through (a start on a fresh store, updates, restarts, any ops with
any timestamps), after an update at `t` the number of its full slices and the place and size of its
partial slices are functions of the factor and `t`.  The full-slice count comes from the earliest
op, from the stored slice hashes or from the previous count; whenever these would give something
else, the code's own checks stop it.
-/

namespace Kitsune2
namespace Dht

open Api Lib

variable {loc : LocCb} {f : Nat} {arc : DhtArc} {t t' : Int}

/-! ## Large factors and early timestamps -/

/-- From factor 34 on, the reserved recent time is longer than all of machine time. -/
theorem recentLen_large (hf : 34 ≤ f) : i64Max < recentLen f := by
  have hpow : 2 ^ 34 ≤ 2 ^ f := Nat.pow_le_pow_right (by decide) hf
  simp only [recentLen, unitTime_eq, i64Max]
  push_cast
  omega

theorem sliceLen_small (hf : f ≤ 33) : (sliceLen f : Int) ≤ i64Max := by
  have hpow : 2 ^ f ≤ 2 ^ 33 := Nat.pow_le_pow_right (by decide) hf
  have hnat : sliceLen f < 2 ^ 63 := by
    simp only [sliceLen, unitTime_eq]
    omega
  simp only [i64Max]
  omega

/-- A start count from a timestamp before the epoch overflows when its end is computed. -/
theorem negative_start_overflows (hpos : 1 ≤ f) (hf : f ≤ 53) {e : Int} (hlow : -2 ^ 63 ≤ e)
    (hneg : e < 0) :
    u64Max < (TimePartition.wrapU128 e / sliceLen f - 1) % 2 ^ 64 * (2 ^ f * unitSecs) := by
  have hwrap : TimePartition.wrapU128 e = (2 ^ 128 + e).toNat := by
    unfold TimePartition.wrapU128
    congr 1
    omega
  rw [hwrap]
  generalize hx : (2 ^ 128 + e).toNat = x
  have hxlow : 2 ^ 128 - 2 ^ 63 ≤ x := by omega
  have hxhigh : x < 2 ^ 128 := by omega
  simp only [sliceLen, unitTime_eq, unitSecs, u64Max]
  interval_cases f <;> omega

/-! ## One sector -/

/-- The start and size of a partial slice. -/
def PartialSlice.slot (p : PartialSlice) : Int × Nat :=
  (p.start, p.size)

/-- The stored slices are among the first `n`, or were put there for an op from before the epoch. -/
def KeysWithin (f n : Nat) (m : SliceHashes) : Prop :=
  f ≤ 33 → ∀ k, m[k]? ≠ none → k < n ∨ k = 0 ∨ 2 ^ 63 ≤ k

theorem KeysWithin.mono {n n' : Nat} {m : SliceHashes} (h : KeysWithin f n m) (hle : n ≤ n') :
    KeysWithin f n' m := by
  intro hf k hk
  rcases h hf k hk with hlt | hspecial
  · exact Or.inl (lt_of_lt_of_le hlt hle)
  · exact Or.inr hspecial

/-- The slices of the sector lie where factor and time put them. -/
structure LaidOut (f : Nat) (arc : DhtArc) (t : Int) (e : SectorEnv) : Prop where
  shape : Shape f arc e.part
  nonneg : 0 ≤ t
  fits : t ≤ i64Max
  fullSlices : e.part.fullSlices = fullCount f t
  slots : e.part.partialSlices.map PartialSlice.slot = slotsAt f t
  keys : KeysWithin f (fullCount f t) (e.store.sliceHashes arc)

theorem local_laidOut (f : Nat) (t : Int) : Local (fun i => LaidOut f (sectorArc i) t) := by
  intro i j tp st st' hij hown h
  have harc : sectorArc j ≠ sectorArc i := fun heq => hij (sectorArc_inj heq).symm
  refine ⟨h.shape, h.nonneg, h.fits, h.fullSlices, h.slots, ?_⟩
  simp only
  rw [hown.others _ harc]
  exact h.keys

/-- The layout after an update, from a start whose slices are within the full slices. -/
theorem Updated.laidOut {e e' : SectorEnv} (h : Updated loc f arc t e e') (ht : 0 ≤ t)
    (hfits : t ≤ i64Max) (hcount : e.part.fullSlices ≤ fullCount f t)
    (hkeys : KeysWithin f (fullCount f t) (e.store.sliceHashes arc)) : LaidOut f arc t e' := by
  have hfs : e'.part.fullSlices = fullCount f t := by
    rw [h.fullSlices]
    exact Nat.max_eq_right hcount
  refine ⟨h.shape, ht, hfits, hfs, ?_, ?_⟩
  · rw [h.partialSlices, hfs, List.map_map]
    exact List.map_id _
  · intro hf k hk
    rw [h.slices k] at hk
    split at hk
    · rename_i hnew
      rw [← hfs]
      exact Or.inl hnew.2.1
    · exact hkeys hf k hk

theorem LaidOut.fullEnd_le {e : SectorEnv} (h : LaidOut f arc t e) :
    fullEnd f e.part.fullSlices ≤ i64Max := by
  rw [h.fullSlices]
  exact le_trans (fullEnd_fullCount_le_self h.nonneg) h.fits

theorem LaidOut.updated (hf : f ≤ 53) {e e' : SectorEnv} {u : Unit} (h : LaidOut f arc t e)
    (hle : t ≤ t') (ht' : t' ≤ i64Max) (hret : Returns (TimePartition.update loc t') e u e') :
    LaidOut f arc t' e' ∧ OwnArcOnly arc e.store e'.store := by
  have hup := returns_update hf h.shape h.fullEnd_le ht' hret
  refine ⟨hup.laidOut (le_trans h.nonneg hle) ht' ?_ (h.keys.mono (fullCount_mono hle)), hup.own⟩
  rw [h.fullSlices]
  exact fullCount_mono hle

theorem combineFirst_slots {op : StoredOp} :
    ∀ (l : List PartialSlice) {out : List PartialSlice}, TimePartition.combineFirst op l = .ok out →
      out.map PartialSlice.slot = l.map PartialSlice.slot := by
  intro l
  induction l with
  | nil =>
      intro out h
      cases h
      rfl
  | cons p l ih =>
      intro out h
      rw [TimePartition.combineFirst] at h
      by_cases hge : op.createdAt ≥ p.start
      · rw [if_pos hge] at h
        rcases bind_eq_ok_iff.mp h with ⟨hash, _, hout⟩
        cases hout
        rfl
      · rw [if_neg hge] at h
        rcases bind_eq_ok_iff.mp h with ⟨rest, hrest, hout⟩
        cases hout
        rw [List.map_cons, List.map_cons, ih hrest]

/-- A recent op is folded into one partial slice, or it is left out. -/
theorem returns_informPartial {e e' : SectorEnv} {op : StoredOp} {u : Unit}
    (hret : Returns (TimePartition.informPartial op) e u e') :
    e' = e ∨ ∃ partials, TimePartition.combineFirst op e.part.partialSlices.reverse = .ok partials ∧
      e' = { e with part := { e.part with partialSlices := partials.reverse } } := by
  have hret := returns_read_bind_iff.mp hret
  cases hlast : e.part.partialSlices.getLast? with
  | none =>
      rw [hlast] at hret
      exact Or.inl (returns_pure_iff.mp hret).2.symm
  | some last =>
      rw [hlast] at hret
      rcases returns_lift_bind_iff.mp hret with ⟨stop, _, hret⟩
      by_cases hlate : op.createdAt ≥ stop
      · rw [if_pos hlate] at hret
        exact Or.inl (returns_pure_iff.mp hret).2.symm
      · rw [if_neg hlate] at hret
        rcases returns_lift_bind_iff.mp hret with ⟨partials, hcomb, hret⟩
        exact Or.inr ⟨partials, hcomb, returns_modifyPart_iff.mp hret⟩

/-- The slice index of an op before the boundary. -/
theorem index_within (hf : f ≤ 33) {op : StoredOp} {n : Nat} {i : Int} (hlow : -2 ^ 63 ≤ op.createdAt)
    (hlt : op.createdAt < fullEnd f n) (hfit : fullEnd f n ≤ i64Max)
    (hi : TimePartition.divI64 op.createdAt (wrapI64 (sliceLen f)) = .ok i) :
    wrapU64 i < n ∨ wrapU64 i = 0 ∨ 2 ^ 63 ≤ wrapU64 i := by
  have hlen : (0 : Int) < sliceLen f := by exact_mod_cast sliceLen_pos f
  by_cases hpos : 0 ≤ op.createdAt
  · rcases full_index hpos hlt hfit with ⟨k, hdiv, hwrap, hk, _⟩
    rw [hdiv] at hi
    cases hi
    rw [hwrap]
    exact Or.inl hk
  · -- before the epoch: truncation gives zero or a negative index, and the cast a huge one
    have hneg : op.createdAt < 0 := not_le.mp hpos
    rw [wrapI64_of_le (sliceLen_small hf)] at hi
    simp only [TimePartition.divI64, if_neg (ne_of_gt hlen), Except.ok.injEq] at hi
    have htdiv : op.createdAt.tdiv (sliceLen f) = -((-op.createdAt) / sliceLen f) := by
      rw [← Int.tdiv_eq_ediv_of_nonneg (by omega), Int.neg_tdiv, neg_neg]
    have hnonneg : 0 ≤ (-op.createdAt) / (sliceLen f : Int) :=
      Int.ediv_nonneg (by omega) (le_of_lt hlen)
    have hle : (-op.createdAt) / (sliceLen f : Int) ≤ -op.createdAt :=
      Int.ediv_le_self _ (by omega)
    rw [htdiv] at hi
    unfold wrapU64
    rw [← hi]
    omega

/-- A historical op writes the hash of one slice: its id, combined with the hash that was there. -/
structure InformedFull (f : Nat) (arc : DhtArc) (op : StoredOp) (st st' : OpStore) (i : Int)
    (hash : Bytes) : Prop where
  index : TimePartition.divI64 op.createdAt (wrapI64 (sliceLen f)) = .ok i
  combined : hash = op.opId ∨ ∃ old, (st.sliceHashes arc)[wrapU64 i]? = some old ∧
    combineHashes old op.opId = .ok hash
  own : OwnArcOnly arc st st'
  slices : ∀ k, (st'.sliceHashes arc)[k]? =
    if k = wrapU64 i then some hash else (st.sliceHashes arc)[k]?

theorem returns_informFull {e e' : SectorEnv} {op : StoredOp} {u : Unit} (hs : Shape f arc e.part)
    (hret : Returns (TimePartition.informFull op) e u e') :
    ∃ i hash, InformedFull f arc op e.store e'.store i hash ∧ e'.part = e.part := by
  have hret := returns_read_bind_iff.mp hret
  rcases returns_lift_bind_iff.mp hret with ⟨i, hi, hret⟩
  rw [hs.fullSliceDuration] at hi
  rcases returns_bind_iff.mp hret with ⟨current, e1, hcur, hret⟩
  rw [hs.sectorConstraint] at hcur hret
  rcases returns_onStore_iff.mp hcur with ⟨st1, hread, rfl⟩
  rcases returns_retrieveSliceHash hread with ⟨rfl, hsame⟩
  -- the id is the first of its slice or is combined with the hash the slice has
  have hstore : ∃ st2 hash, Returns (storeSliceHash arc (wrapU64 i) hash) st1 () st2 ∧
      e' = { e with store := st2 } ∧
      (hash = op.opId ∨ ∃ old, (e.store.sliceHashes arc)[wrapU64 i]? = some old ∧
        combineHashes old op.opId = .ok hash) := by
    cases hcurrent : (e.store.sliceHashes arc)[wrapU64 i]? with
    | none =>
        rw [hcurrent] at hret
        rcases returns_onStore_iff.mp hret with ⟨st2, hst2, henv⟩
        exact ⟨st2, op.opId, hst2, henv, Or.inl rfl⟩
    | some old =>
        rw [hcurrent] at hret
        rcases returns_lift_bind_iff.mp hret with ⟨combined, hcomb, hret⟩
        rcases returns_onStore_iff.mp hret with ⟨st2, hst2, henv⟩
        exact ⟨st2, combined, hst2, henv, Or.inr ⟨old, rfl, hcomb⟩⟩
  rcases hstore with ⟨st2, hash, hst2, rfl, hhash⟩
  rcases returns_storeSliceHash_own hst2 with ⟨_, hown, hlook⟩
  refine ⟨i, hash, ⟨hi, hhash, hsame.ownArcOnly.trans hown, ?_⟩, rfl⟩
  intro k
  rw [hlook k, hsame.sliceHashes]

/-- What survives each op of a batch survives the batch. -/
theorem informed_invariant {I : SectorEnv → Prop} {ops : List StoredOp} {e e' : SectorEnv} {u : Unit}
    (hs : Shape f arc e.part) (hfit : fullEnd f e.part.fullSlices ≤ i64Max) (h0 : I e)
    (hfull : ∀ op ∈ ops, op.createdAt < fullEnd f e.part.fullSlices → ∀ e1 st2 i hash, I e1 →
      InformedFull f arc op e1.store st2 i hash → I { e1 with store := st2 })
    (hpart : ∀ op ∈ ops, ∀ e1 partials, I e1 →
      TimePartition.combineFirst op e1.part.partialSlices.reverse = .ok partials →
      I { e1 with part := { e1.part with partialSlices := partials.reverse } })
    (hret : Returns (TimePartition.informOpsStored ops) e u e') : I e' := by
  have hret := returns_read_bind_iff.mp hret
  rcases returns_lift_bind_iff.mp hret with ⟨stop, hstop, hret⟩
  rw [fullSliceEndTimestamp_ok hs hfit] at hstop
  cases hstop
  have hboth := returns_each_invariant (I := fun e1 : SectorEnv => Shape f arc e1.part ∧ I e1)
    ops ⟨hs, h0⟩ ?_ hret
  · exact hboth.2
  · rintro op hop e1 e2 ⟨hs1, h1⟩ hstep
    unfold TimePartition.informOp at hstep
    -- an op before the end of the full slices goes to the store, a later one to a partial slice
    by_cases hlt : op.createdAt < fullEnd f e.part.fullSlices
    · rw [if_pos hlt] at hstep
      rcases returns_informFull hs1 hstep with ⟨i, hash, hinf, hpart⟩
      have heq : e2 = { e1 with store := e2.store } := by rw [← hpart]
      rw [heq]
      exact ⟨hs1, hfull op hop hlt e1 e2.store i hash h1 hinf⟩
    · rw [if_neg hlt] at hstep
      rcases returns_informPartial hstep with rfl | ⟨partials, hcomb, rfl⟩
      · exact ⟨hs1, h1⟩
      · exact ⟨⟨hs1.factor, hs1.fullSliceDuration, hs1.minRecentTime, hs1.sectorConstraint⟩,
          hpart op hop e1 partials h1 hcomb⟩

/-- Informing changes hashes, not the layout. -/
theorem LaidOut.informed {e e' : SectorEnv} {ops : List StoredOp} {u : Unit} (h : LaidOut f arc t e)
    (hlow : ∀ op ∈ ops, -2 ^ 63 ≤ op.createdAt)
    (hret : Returns (TimePartition.informOpsStored ops) e u e') :
    LaidOut f arc t e' ∧ OwnArcOnly arc e.store e'.store := by
  refine informed_invariant (I := fun e1 => LaidOut f arc t e1 ∧ OwnArcOnly arc e.store e1.store)
    h.shape h.fullEnd_le ⟨h, OwnArcOnly.refl _ _⟩ ?_ ?_ hret
  · rintro op hop hlt e1 st2 i hash ⟨h1, hown⟩ hinf
    refine ⟨⟨h1.shape, h.nonneg, h.fits, h1.fullSlices, h1.slots, ?_⟩, hown.trans hinf.own⟩
    intro hf k hk
    rw [hinf.slices k] at hk
    by_cases hki : k = wrapU64 i
    · rw [hki, ← h.fullSlices]
      exact index_within hf (hlow op hop) hlt h.fullEnd_le hinf.index
    · rw [if_neg hki] at hk
      exact h1.keys hf k hk
  · rintro op _ e1 partials ⟨h1, hown⟩ hcomb
    refine ⟨⟨⟨h1.shape.factor, h1.shape.fullSliceDuration, h1.shape.minRecentTime,
      h1.shape.sectorConstraint⟩, h.nonneg, h.fits, h1.fullSlices, ?_, h1.keys⟩, hown⟩
    simp only [List.map_reverse, combineFirst_slots _ hcomb, List.reverse_reverse]
    exact h1.slots

/-- The end of the start count was computed without overflow. -/
theorem Started.no_overflow {st st1 : OpStore} {count : Nat} (h : Started loc f arc t st st1 count) :
    count * (2 ^ f * unitSecs) ≤ u64Max := by
  rcases h.checked with ⟨_, _, hend, _⟩
  rcases bind_eq_ok_iff.mp hend with ⟨secs, hsecs, _⟩
  have hle := (mulU64_eq_ok_iff.mp hsecs).2
  simp only [freshPart, asSecs_sliceLen] at hle
  exact hle

/-- Whatever a start count is taken from, its end is in machine range once it has been computed. -/
theorem Started.fullEnd_le (hpos : 1 ≤ f) (hf : f ≤ 53) {st st1 : OpStore} {count n : Nat}
    (h : Started loc f arc t st st1 count) (hlow : -2 ^ 63 ≤ t) (hfits : t ≤ i64Max)
    (hkeys : KeysWithin f n (st.sliceHashes arc)) (hn : n ≤ fullCount f t)
    (hops : ∀ op ∈ st.stored, -2 ^ 63 ≤ op.createdAt ∧ op.createdAt ≤ i64Max) :
    fullEnd f count ≤ i64Max := by
  rcases h.checked with ⟨boundary, recent, _, _, _, hrecent, hroom⟩
  have hmul := h.no_overflow
  rcases h.origin with ⟨id, hid, rfl⟩ | ⟨_, hcount⟩
  · -- from the stored slices
    by_cases hsmall : f ≤ 33
    · rcases hkeys hsmall id (mem_of_maxKey hid) with hlt | hzero | hhuge
      · have hcpos : 0 < fullCount f t := by omega
        have hroom' := fullEnd_fullCount_le hcpos
        have hrec : (0 : Int) ≤ recentLen f := Int.natCast_nonneg _
        have hmono : fullEnd f (id + 1) ≤ fullEnd f (fullCount f t) := fullEnd_mono (by omega)
        linarith
      · rw [hzero]
        have hone : fullEnd f (0 + 1) = sliceLen f := by
          simp [fullEnd]
        rw [hone]
        exact sliceLen_small hsmall
      · exfalso
        have hfactor : 1 ≤ 2 ^ f * unitSecs := Nat.mul_pos (Nat.two_pow_pos f) (by decide)
        have htwo : 2 ≤ 2 ^ f := by
          calc 2 = 2 ^ 1 := rfl
            _ ≤ 2 ^ f := Nat.pow_le_pow_right (by decide) hpos
        have hbig : 2 ^ 63 * (2 * unitSecs) ≤ (id + 1) * (2 ^ f * unitSecs) :=
          Nat.mul_le_mul (by omega) (Nat.mul_le_mul_right _ htwo)
        have hcontra := le_trans hbig hmul
        simp only [u64Max, unitSecs] at hcontra
        omega
    · -- no recent time is long enough
      exfalso
      have hlarge := recentLen_large (show 34 ≤ f by omega)
      have hneed := hroom (Nat.succ_pos id)
      linarith
  · -- from the earliest op, or from now
    generalize hearliest : (st.earliestInArc loc arc).getD t = e at hcount
    have hrange : -2 ^ 63 ≤ e ∧ e ≤ i64Max := by
      cases hear : st.earliestInArc loc arc with
      | none =>
          rw [hear, Option.getD_none] at hearliest
          rw [← hearliest]
          exact ⟨hlow, hfits⟩
      | some x =>
          rw [hear, Option.getD_some] at hearliest
          rcases earliestInArc_mem hear with ⟨op, hop, _, hx⟩
          rw [← hearliest, ← hx]
          exact hops op hop
    by_cases hneg : e < 0
    · have hover := negative_start_overflows hpos hf hrange.1 hneg
      rw [← hcount] at hover
      exact absurd hmul (not_le.mpr hover)
    · rcases Nat.eq_zero_or_pos count with hzero | hcpos
      · rw [hzero]
        simp [fullEnd, i64Max]
      · calc fullEnd f count ≤ fullEnd f (count + 1) := fullEnd_mono (Nat.le_succ count)
          _ ≤ e := skipped_slices (not_lt.mp hneg) hrange.2 hcount hcpos
          _ ≤ i64Max := hrange.2

theorem rebuilt_laidOut (hpos : 1 ≤ f) (hf : f ≤ 53) {st st' : OpStore} {tp : TimePartition} {n : Nat}
    (hlow : -2 ^ 63 ≤ t) (hfits : t ≤ i64Max) (hkeys : KeysWithin f n (st.sliceHashes arc))
    (hn : n ≤ fullCount f t)
    (hops : ∀ op ∈ st.stored, -2 ^ 63 ≤ op.createdAt ∧ op.createdAt ≤ i64Max)
    (h : Returns (TimePartition.tryFromStore loc f t arc) st tp st') :
    LaidOut f arc t { part := tp, store := st' } ∧ OwnArcOnly arc st st' := by
  rcases returns_tryFromStore hpos hf h with ⟨count, st1, hstart, hupdate⟩
  have hfit := hstart.fullEnd_le hpos hf hlow hfits hkeys hn hops
  rcases hstart.le_fullCount hfit with ⟨hend, hcount⟩
  have hnonneg : 0 ≤ t := le_trans (fullEnd_nonneg f count) hend
  have hshape : Shape f arc ({ part := freshPart f arc count, store := st1 } : SectorEnv).part :=
    shape_freshPart f arc count
  have hup := returns_update hf hshape hfit hfits hupdate
  refine ⟨hup.laidOut hnonneg hfits hcount ?_, hstart.same.ownArcOnly.trans hup.own⟩
  simp only [hstart.same.sliceHashes]
  exact hkeys.mono hn

/-! ## All sectors -/

structure PartitionLaidOut (f : Nat) (t : Int) (env : HashEnv) : Prop where
  size : env.partition.size = sectorSize
  length : env.partition.sectors.length = numSectors
  sector : EverySector (fun i => LaidOut f (sectorArc i) t) env

theorem PartitionLaidOut.updated (hf : f ≤ 53) {env env' : HashEnv} {u : Unit}
    (h : PartitionLaidOut f t env) (hle : t ≤ t') (ht' : t' ≤ i64Max)
    (hret : Returns (HashPartition.update loc t') env u env') :
    PartitionLaidOut f t' env' ∧ SameFrame env env' := by
  rcases returns_partition_update (local_laidOut f t) (local_laidOut f t')
    (fun i _ e e' hlaid hup => hlaid.updated hf hle ht' hup) h.sector hret with ⟨hframe, hsector⟩
  exact ⟨⟨hframe.size.trans h.size, hframe.length.trans h.length, hsector⟩, hframe⟩

theorem PartitionLaidOut.informed {env env' : HashEnv} {ops : List StoredOp} {u : Unit}
    (h : PartitionLaidOut f t env) (hlow : ∀ op ∈ ops, -2 ^ 63 ≤ op.createdAt)
    (hret : Returns (HashPartition.informOpsStored loc ops) env u env') :
    PartitionLaidOut f t env' ∧ SameFrame env env' := by
  rcases returns_partition_inform (local_laidOut f t)
    (fun i e e' hlaid hinf => hlaid.informed
      (fun op hop => hlow op (List.mem_filter.mp hop).1) hinf) h.sector hret with ⟨hframe, hsector⟩
  exact ⟨⟨hframe.size.trans h.size, hframe.length.trans h.length, hsector⟩, hframe⟩

theorem PartitionLaidOut.of_mem {env : HashEnv} (h : PartitionLaidOut f t env) {tp : TimePartition}
    (htp : tp ∈ env.partition.sectors) :
    ∃ i, LaidOut f (sectorArc i) t { part := tp, store := env.store } := by
  rcases List.mem_iff_getElem?.mp htp with ⟨i, hi⟩
  exact ⟨i, h.sector i tp hi⟩

theorem PartitionLaidOut.exists_mem {env : HashEnv} (h : PartitionLaidOut f t env) :
    ∃ tp, tp ∈ env.partition.sectors := by
  have hlt : 0 < env.partition.sectors.length := by
    rw [h.length]
    decide
  exact ⟨_, List.getElem_mem hlt⟩

theorem PartitionLaidOut.nonneg {env : HashEnv} (h : PartitionLaidOut f t env) : 0 ≤ t := by
  rcases h.exists_mem with ⟨tp, htp⟩
  rcases h.of_mem htp with ⟨i, hsector⟩
  exact hsector.nonneg

/-- What a restart needs of the store: slice hashes within the full slices of the time. -/
structure StoreWithin (f : Nat) (t : Int) (l : List Nat) (st : OpStore) : Prop where
  keys : ∀ i ∈ l, KeysWithin f (fullCount f t) (st.sliceHashes (sectorArc i))
  ops : ∀ op ∈ st.stored, -2 ^ 63 ≤ op.createdAt ∧ op.createdAt ≤ i64Max

theorem rebuilt_partition_laidOut (hpos : 1 ≤ f) (hf : f ≤ 53) (hlow : -2 ^ 63 ≤ t)
    (hfits : t ≤ i64Max) {st st' : OpStore} {p : HashPartition}
    (hst : StoreWithin f t (List.range numSectors) st)
    (h : Returns (HashPartition.tryFromStore loc f t) st p st') :
    PartitionLaidOut f t { partition := p, store := st' } ∧
      SectorsOnly (List.range numSectors) st st' := by
  have hbuilt := returns_rebuild (local_laidOut f t)
    (S := fun i st1 => KeysWithin f (fullCount f t) (st1.sliceHashes (sectorArc i)) ∧
      st1.stored = st.stored) ?_ ?_ (fun i hi => ⟨hst.keys i (List.mem_range.mpr hi), rfl⟩) h
  · exact ⟨⟨hbuilt.size, hbuilt.length, hbuilt.sector⟩, hbuilt.only⟩
  · rintro i j st1 st2 hij hown ⟨hkeys, hstored⟩
    rw [hown.others _ fun heq => hij (sectorArc_inj heq).symm, hown.stored]
    exact ⟨hkeys, hstored⟩
  · rintro i tp st1 st2 ⟨hkeys, hstored⟩ htp
    refine rebuilt_laidOut hpos hf hlow hfits hkeys (le_refl _) ?_ htp
    rw [hstored]
    exact hst.ops

/-! ## Histories -/

/-- Ops with timestamps of the machine type, none of them later than `now`. -/
def SeenBy (now : Int) (ops : List StoredOp) : Prop :=
  ∀ op ∈ ops, -2 ^ 63 ≤ op.createdAt ∧ op.createdAt ≤ now

/-- What a node can have gone through.  `History loc f now t env` holds of a node that was last
touched at `now` and whose last successful update, or start, was at `t`. -/
inductive History (loc : LocCb) (f : Nat) : Int → Int → HashEnv → Prop
  /-- The first start, on a store that no partition has written to. -/
  | start {now : Int} {st st' : OpStore} {p : HashPartition} :
      -2 ^ 63 ≤ now → now ≤ i64Max → (∀ arc, st.sliceHashes arc = ∅) → SeenBy now st.stored →
      Returns (HashPartition.tryFromStore loc f now) st p st' →
      History loc f now now { partition := p, store := st' }
  | update {last t now : Int} {env env' : HashEnv} :
      History loc f last t env → last ≤ now → now ≤ i64Max →
      Returns (HashPartition.update loc now) env () env' → History loc f now now env'
  /-- A restart keeps nothing but the store. -/
  | restart {last t now : Int} {env : HashEnv} {st' : OpStore} {p : HashPartition} :
      History loc f last t env → last ≤ now → now ≤ i64Max →
      Returns (HashPartition.tryFromStore loc f now) env.store p st' →
      History loc f now now { partition := p, store := st' }
  | inform {last t now : Int} {env env' : HashEnv} {ops : List StoredOp} :
      History loc f last t env → last ≤ now → now ≤ i64Max → SeenBy now ops →
      Returns (HashPartition.informOpsStored loc ops) env () env' → History loc f now t env'
  /-- The host replaces the ops of its store. -/
  | host {last t now : Int} {env : HashEnv} (ops : List OpRecord) :
      History loc f last t env → last ≤ now → now ≤ i64Max →
      SeenBy now (ops.map OpRecord.toStoredOp) →
      History loc f now t { env with store := { env.store with opList := ops } }

/-- What every history leaves behind. -/
structure Settled (f : Nat) (now t : Int) (env : HashEnv) : Prop where
  laidOut : PartitionLaidOut f t env
  ordered : t ≤ now
  fits : now ≤ i64Max
  seen : SeenBy now env.store.stored

theorem SeenBy.mono {now now' : Int} {ops : List StoredOp} (h : SeenBy now ops) (hle : now ≤ now') :
    SeenBy now' ops :=
  fun op hop => ⟨(h op hop).1, le_trans (h op hop).2 hle⟩

/-- The slices of an earlier layout are within those of a later one. -/
theorem Settled.storeWithin {now now' : Int} {env : HashEnv} (h : Settled f now t env)
    (hle : now ≤ now') : StoreWithin f now' (List.range numSectors) env.store := by
  refine ⟨?_, fun op hop => ⟨(h.seen op hop).1, le_trans (h.seen op hop).2 h.fits⟩⟩
  intro i hi
  have hlt : i < env.partition.sectors.length := by
    rw [h.laidOut.length]
    exact List.mem_range.mp hi
  have hsector := h.laidOut.sector i _ (List.getElem?_eq_getElem hlt)
  exact hsector.keys.mono (fullCount_mono (le_trans h.ordered hle))

theorem settled_rebuilt (hpos : 1 ≤ f) (hf : f ≤ 53) {st st' : OpStore} {p : HashPartition}
    (hlow : -2 ^ 63 ≤ t) (hfits : t ≤ i64Max) (hst : StoreWithin f t (List.range numSectors) st)
    (hseen : SeenBy t st.stored) (h : Returns (HashPartition.tryFromStore loc f t) st p st') :
    Settled f t t { partition := p, store := st' } := by
  rcases rebuilt_partition_laidOut hpos hf hlow hfits hst h with ⟨hlaid, honly⟩
  refine ⟨hlaid, le_refl t, hfits, ?_⟩
  simp only [honly.stored]
  exact hseen

theorem History.settled (hpos : 1 ≤ f) (hf : f ≤ 53) {now : Int} {env : HashEnv}
    (h : History loc f now t env) : Settled f now t env := by
  -- every step ends with the layout of the time of the last update
  induction h with
  | start hlow hfits hempty hseen hret =>
      refine settled_rebuilt hpos hf hlow hfits ⟨?_, ?_⟩ hseen hret
      · intro i _ _ k hk
        rw [hempty] at hk
        exact absurd Std.ExtTreeMap.getElem?_empty hk
      · exact fun op hop => ⟨(hseen op hop).1, le_trans (hseen op hop).2 hfits⟩
  | update _ hle hfits hret ih =>
      rcases ih.laidOut.updated hf (le_trans ih.ordered hle) hfits hret with ⟨hlaid, hframe⟩
      refine ⟨hlaid, le_refl _, hfits, ?_⟩
      unfold OpStore.stored
      rw [hframe.opList]
      exact ih.seen.mono hle
  | restart _ hle hfits hret ih =>
      have hnonneg := ih.laidOut.nonneg
      refine settled_rebuilt hpos hf ?_ hfits (ih.storeWithin hle) (ih.seen.mono hle) hret
      linarith [ih.ordered]
  | inform _ hle hfits hseen hret ih =>
      rcases ih.laidOut.informed (fun op hop => (hseen op hop).1) hret with ⟨hlaid, hframe⟩
      refine ⟨hlaid, le_trans ih.ordered hle, hfits, ?_⟩
      unfold OpStore.stored
      rw [hframe.opList]
      exact ih.seen.mono hle
  | host ops _ hle hfits hseen ih =>
      refine ⟨⟨ih.laidOut.size, ih.laidOut.length, ?_⟩, le_trans ih.ordered hle, hfits, hseen⟩
      intro i tp htp
      have hsector := ih.laidOut.sector i tp htp
      exact ⟨hsector.shape, hsector.nonneg, hsector.fits, hsector.fullSlices, hsector.slots,
        hsector.keys⟩

/-! ## The number of rings -/

/-- The number of slices of a size depends on recent time only through the units it has begun. -/
theorem sliceCount_eq_of_units (i : Nat) {recent recent' : Nat}
    (h : (recent - 1) / unitTime = (recent' - 1) / unitTime) :
    TimePartition.sliceCount recent (recentLen (i + 1)) (sliceLen i) =
      TimePartition.sliceCount recent' (recentLen (i + 1)) (sliceLen i) := by
  -- a comparison with a positive number of units sees the begun units only
  have hgt : ∀ k, 0 < k → (recent > unitTime * k ↔ recent' > unitTime * k) := by
    intro k hk
    rw [unitTime_eq] at h ⊢
    omega
  have hsize : sliceLen i = unitTime * 2 ^ i := rfl
  have htwo : 0 < 2 ^ i := Nat.two_pow_pos i
  have hsum : recentLen (i + 1) + sliceLen i = unitTime * (2 ^ (i + 1) - 1 + 2 ^ i) := by
    unfold recentLen sliceLen
    rw [Nat.mul_add]
  unfold TimePartition.sliceCount
  rw [hsum, hsize]
  simp only [hgt _ htwo, hgt (2 ^ (i + 1) - 1 + 2 ^ i) (by omega)]

/-- Taking slices of one size leaves two times in one unit in one unit. -/
theorem units_sub_sliceLen (i count : Nat) {recent recent' : Nat}
    (h : (recent - 1) / unitTime = (recent' - 1) / unitTime) :
    (recent - sliceLen i * count - 1) / unitTime = (recent' - sliceLen i * count - 1) / unitTime := by
  unfold sliceLen
  rw [Nat.mul_assoc]
  generalize 2 ^ i * count = k
  rw [unitTime_eq] at h ⊢
  omega

/-- The number of slots depends on recent time only through the units it has begun. -/
theorem length_partialLayout (n : Nat) {start start' : Int} {recent recent' : Nat}
    (h : (recent - 1) / unitTime = (recent' - 1) / unitTime) :
    (partialLayout n start recent).length = (partialLayout n start' recent').length := by
  induction n generalizing start start' recent recent' with
  | zero =>
      rfl
  | succ i ih =>
      simp only [partialLayout, List.length_append, length_slots, sliceCount_eq_of_units i h]
      congr 1
      exact ih (units_sub_sliceLen i _ h)

theorem fullEnd_units (f k : Nat) : fullEnd f k = unitTime * (2 ^ f * k : Nat) := by
  unfold fullEnd sliceLen
  push_cast
  ring

/-- Two times in one unit, both ends aligned, the later one included. -/
theorem length_slotsAt {t₁ t₂ : Int} (h₁ : 0 ≤ t₁) (h₂ : 0 ≤ t₂)
    (hunit : (t₁ - 1) / unitTime = (t₂ - 1) / unitTime) (hcount : fullCount f t₁ = fullCount f t₂) :
    (slotsAt f t₁).length = (slotsAt f t₂).length := by
  have hle₁ : fullEnd f (fullCount f t₁) ≤ t₁ := fullEnd_fullCount_le_self h₁
  have hle₂ : fullEnd f (fullCount f t₂) ≤ t₂ := fullEnd_fullCount_le_self h₂
  unfold slotsAt
  rw [hcount] at hle₁ ⊢
  rw [fullEnd_units] at hle₁ hle₂ ⊢
  apply length_partialLayout
  generalize 2 ^ f * fullCount f t₂ = k at hle₁ hle₂
  rw [unitTime_eq] at hunit hle₁ hle₂ ⊢
  omega

/-- After a history, the full slices and the place and size of the partial slices of every sector
are given by factor and time; two nodes in one unit with as many full slices share the boundary of
the disc and the number of rings. -/
theorem layout_independent_of_history (hpos : 1 ≤ f) (hf : f ≤ 53) :
    (∀ {loc : LocCb} {now t : Int} {env : HashEnv}, History loc f now t env →
      env.partition.sectors.length = numSectors ∧
      ∀ tp ∈ env.partition.sectors, tp.fullSlices = fullCount f t ∧
        tp.partialSlices.map PartialSlice.slot = slotsAt f t) ∧
    ∀ {loc₁ loc₂ : LocCb} {now₁ now₂ t₁ t₂ : Int} {env₁ env₂ : HashEnv},
      History loc₁ f now₁ t₁ env₁ → History loc₂ f now₂ t₂ env₂ →
      (t₁ - 1) / unitTime = (t₂ - 1) / unitTime →
      ∀ tp₁ ∈ env₁.partition.sectors, ∀ tp₂ ∈ env₂.partition.sectors,
        tp₁.fullSlices = tp₂.fullSlices →
        tp₁.fullSliceEndTimestamp = tp₂.fullSliceEndTimestamp ∧
          tp₁.partialSlices.length = tp₂.partialSlices.length := by
  refine ⟨?_, ?_⟩
  · intro loc now t env h
    have hlaid := (h.settled hpos hf).laidOut
    refine ⟨hlaid.length, ?_⟩
    intro tp htp
    rcases hlaid.of_mem htp with ⟨i, hsector⟩
    exact ⟨hsector.fullSlices, hsector.slots⟩
  · intro loc₁ loc₂ now₁ now₂ t₁ t₂ env₁ env₂ h₁ h₂ hunit tp₁ htp₁ tp₂ htp₂ hcount
    rcases (h₁.settled hpos hf).laidOut.of_mem htp₁ with ⟨i, hsec₁⟩
    rcases (h₂.settled hpos hf).laidOut.of_mem htp₂ with ⟨j, hsec₂⟩
    -- the same unit and count of full slices give the same number of slots
    have hslots := length_slotsAt hsec₁.nonneg hsec₂.nonneg hunit
      (by rw [← hsec₁.fullSlices, ← hsec₂.fullSlices]; exact hcount)
    rw [← hsec₁.slots, ← hsec₂.slots, List.length_map, List.length_map] at hslots
    refine ⟨?_, hslots⟩
    unfold TimePartition.fullSliceEndTimestamp
    rw [hcount, hsec₁.shape.fullSliceDuration, hsec₂.shape.fullSliceDuration]

/-! ## The end of a unit -/

theorem fresh_history (t : Int) (ht : 0 ≤ t) (hsmall : t ≤ 1000000000) :
    ∃ env, History (fun _ => 0) 1 t t env ∧ env.store.stored = [] := by
  have hfits : t ≤ i64Max := le_trans hsmall (by decide)
  have hre : Rebuildable (fun _ => 0) 1 t (List.range numSectors) OpStore.empty :=
    ⟨fun i _ => ⟨0, Nat.zero_le _, slicesStored_of_empty rfl⟩, fun op hop => by cases hop⟩
  have hnext : NextFits 1 t := nextFits_of_le ht (by rw [unitTime_eq]; simp only [i64Max]; omega)
  have hids : IdsOfLength 1 OpStore.empty.stored := fun op hop => by cases hop
  rcases rebuild_returns (le_refl 1) (by decide) ht hfits hnext rfl hids hre with ⟨p, st', hbuild⟩
  have hlow : -2 ^ 63 ≤ t := by omega
  have hwithin : StoreWithin 1 t (List.range numSectors) OpStore.empty :=
    ⟨fun _ _ _ k hk => absurd Std.ExtTreeMap.getElem?_empty hk, fun op hop => by cases hop⟩
  rcases rebuilt_partition_laidOut (le_refl 1) (by decide) hlow hfits hwithin hbuild with ⟨_, honly⟩
  exact ⟨_, History.start hlow hfits (fun _ => rfl) (fun op hop => by cases hop) hbuild, honly.stored⟩

/-- Two fresh nodes, one at the start of a unit and one a microsecond later. -/
theorem rings_differ_within_unit :
    ∃ env₁ env₂, History (fun _ => 0) 1 unitTime unitTime env₁ ∧
      History (fun _ => 0) 1 (unitTime + 1) (unitTime + 1) env₂ ∧
      (unitTime : Int) / unitTime = (unitTime + 1 : Int) / unitTime ∧
      ∃ tp₁ ∈ env₁.partition.sectors, ∃ tp₂ ∈ env₂.partition.sectors,
        tp₁.fullSlices = 0 ∧ tp₂.fullSlices = 0 ∧
          tp₁.partialSlices.length = 0 ∧ tp₂.partialSlices.length = 1 := by
  rcases fresh_history unitTime (by decide) (by decide) with ⟨env₁, h₁, _⟩
  rcases fresh_history (unitTime + 1) (by decide) (by decide) with ⟨env₂, h₂, _⟩
  have hlaid₁ := (h₁.settled (le_refl 1) (by decide)).laidOut
  have hlaid₂ := (h₂.settled (le_refl 1) (by decide)).laidOut
  rcases hlaid₁.exists_mem with ⟨tp₁, htp₁⟩
  rcases hlaid₂.exists_mem with ⟨tp₂, htp₂⟩
  rcases hlaid₁.of_mem htp₁ with ⟨i, hsec₁⟩
  rcases hlaid₂.of_mem htp₂ with ⟨j, hsec₂⟩
  refine ⟨env₁, env₂, h₁, h₂, by decide, tp₁, htp₁, tp₂, htp₂, ?_, ?_, ?_, ?_⟩
  · rw [show tp₁.fullSlices = _ from hsec₁.fullSlices]
    decide
  · rw [show tp₂.fullSlices = _ from hsec₂.fullSlices]
    decide
  · have hslots := congrArg List.length hsec₁.slots
    rw [List.length_map] at hslots
    exact hslots.trans (by decide)
  · have hslots := congrArg List.length hsec₂.slots
    rw [List.length_map] at hslots
    exact hslots.trans (by decide)

theorem layout_independent_of_history_one :
    ∃ env, History (fun _ => 0) 1 (unitTime + 1) (unitTime + 1) env ∧
      ∀ tp ∈ env.partition.sectors, tp.fullSlices = 0 ∧
        tp.partialSlices.map PartialSlice.slot = [(0, 0)] := by
  rcases fresh_history (unitTime + 1) (by decide) (by decide) with ⟨env, h, _⟩
  refine ⟨env, h, ?_⟩
  intro tp htp
  rcases ((layout_independent_of_history (le_refl 1) (by decide)).1 h).2 tp htp with ⟨hfull, hslots⟩
  exact ⟨hfull.trans (by decide), hslots.trans (by decide)⟩

end Dht
end Kitsune2
