import Kitsune2.Dht.Accuracy

/-!
# Rebuild — a sector built from an op store

`tryFromStore` starts from the number of stored slice hashes, or skips the empty slices before the
earliest op if there are none, and then updates to the current time.  Rebuilt from the ops alone or
from a store that still has its slice hashes, the sector counts exactly the stored ops.
-/

namespace Kitsune2
namespace Dht

open Api Lib

variable {loc : LocCb} {f : Nat} {arc : DhtArc} {t : Int}

/-! ## Where a rebuilt sector starts -/

theorem returns_runOn_iff {m : PartM Unit} {tp tp' : TimePartition} {st st' : OpStore} :
    Returns (TimePartition.runOn m tp) st tp' st' ↔
      Returns m { part := tp, store := st } () { part := tp', store := st' } := by
  unfold Returns TimePartition.runOn
  rcases hm : m { part := tp, store := st } with ⟨r, env⟩
  rcases env with ⟨p, s⟩
  cases r with
  | error e =>
      simp
  | ok u =>
      simp

/-- The count a sector starts from: one past the highest stored slice, or the slice before the
earliest op. -/
def StartCount (loc : LocCb) (f : Nat) (arc : DhtArc) (t : Int) (st : OpStore) (count : Nat) : Prop :=
  (∃ id, (st.sliceHashes arc).maxKey? = some id ∧ count = id + 1) ∨
    ((st.sliceHashes arc).maxKey? = none ∧
      count = (TimePartition.wrapU128 ((st.earliestInArc loc arc).getD t) / sliceLen f - 1) % 2 ^ 64)

/-- The count a sector starts from, and the checks it has passed. -/
structure Started (loc : LocCb) (f : Nat) (arc : DhtArc) (t : Int) (st st1 : OpStore) (count : Nat) :
    Prop where
  same : SameContent st st1
  origin : StartCount loc f arc t st count
  checked : ∃ boundary recent,
    (freshPart f arc count).fullSliceEndTimestamp = .ok boundary ∧ boundary ≤ t ∧
      (recent : Int) = t - boundary ∧ recent ≤ i64Max ∧ (0 < count → (recentLen f : Int) ≤ recent)

theorem returns_initialFullSlices {st st1 : OpStore} {n count : Nat}
    (h : Returns (TimePartition.initialFullSlices loc (freshPart f arc n) t) st count st1) :
    SameContent st st1 ∧ StartCount loc f arc t st count := by
  rcases returns_bind_iff.mp h with ⟨stored, s1, hcount, h⟩
  rcases returns_sliceHashCount hcount with ⟨hsame, hcases⟩
  rcases hcases with ⟨hnone, rfl⟩ | ⟨id, hid, _, rfl⟩
  · rw [if_pos rfl] at h
    rcases returns_bind_iff.mp h with ⟨earliest, s2, hear, h⟩
    rcases returns_earliestTimestamp hear with ⟨rfl, hsame2⟩
    rcases returns_pure_iff.mp h with ⟨rfl, rfl⟩
    refine ⟨hsame.trans hsame2, Or.inr ⟨hnone, ?_⟩⟩
    simp only [OpStore.earliestInArc, hsame.opList]
    rfl
  · rw [if_neg (Nat.succ_ne_zero id)] at h
    rcases returns_pure_iff.mp h with ⟨rfl, rfl⟩
    exact ⟨hsame, Or.inl ⟨id, hid, rfl⟩⟩

/-- A successful rebuild is a start and an update from there. -/
theorem returns_tryFromStore (hpos : 1 ≤ f) (hf : f ≤ 53) {st st' : OpStore} {tp : TimePartition}
    (h : Returns (TimePartition.tryFromStore loc f t arc) st tp st') :
    ∃ count st1, Started loc f arc t st st1 count ∧
      Returns (TimePartition.update loc t) { part := freshPart f arc count, store := st1 } ()
        { part := tp, store := st' } := by
  unfold TimePartition.tryFromStore at h
  rcases returns_check_iff.mp h with ⟨_, h⟩
  rcases returns_lift_bind_iff.mp h with ⟨fresh, hfresh, h⟩
  rw [new_ok hpos hf] at hfresh
  cases hfresh
  rcases returns_bind_iff.mp h with ⟨count, st1, hcount, h⟩
  rcases returns_lift_bind_iff.mp h with ⟨boundary, hboundary, h⟩
  rcases returns_lift_bind_iff.mp h with ⟨recent, hrecent, h⟩
  rcases elapsed_eq_ok_iff.mp hrecent with ⟨hle, hbig, hval⟩
  rcases returns_check_iff.mp h with ⟨hshort, h⟩
  rcases returns_initialFullSlices hcount with ⟨hsame, horigin⟩
  refine ⟨count, st1, ⟨hsame, horigin, boundary, recent, hboundary, hle, hval, ?_, ?_⟩,
    returns_runOn_iff.mp h⟩
  · rw [hval]
    exact hbig
  · intro hcpos
    have hlong : ¬ recent < recentLen f := fun hlt => hshort ⟨hcpos, hlt⟩
    exact_mod_cast not_lt.mp hlong

/-- A start whose end is a timestamp lies within the full slices of the current time. -/
theorem Started.le_fullCount {st st1 : OpStore} {count : Nat}
    (h : Started loc f arc t st st1 count) (hfit : fullEnd f count ≤ i64Max) :
    fullEnd f count ≤ t ∧ count ≤ fullCount f t := by
  rcases h.checked with ⟨boundary, recent, hend, hle, hval, _, hrecent⟩
  rw [fullSliceEndTimestamp_ok (shape_freshPart f arc count) hfit] at hend
  cases hend
  refine ⟨hle, le_fullCount_of ?_⟩
  intro hcpos
  have hroom := hrecent hcpos
  simp only [freshPart] at hval hle
  linarith

/-! ## A rebuilt sector is accurate -/

/-- The stored slice hashes of the first `n` slices match the stored ops; there are no others. -/
def SlicesStored (loc : LocCb) (f : Nat) (arc : DhtArc) (n : Nat) (st : OpStore) : Prop :=
  ∀ k, (st.sliceHashes arc)[k]? =
    if k < n then optHash (fullXor loc f arc st.stored k) else none

theorem slicesStored_of_empty {st : OpStore} (h : st.sliceHashes arc = ∅) :
    SlicesStored loc f arc 0 st := by
  intro k
  simp [h]

theorem lookup_none_of_maxKey {m : SliceHashes} {id k : Nat} (hmax : m.maxKey? = some id)
    (hk : id < k) : m[k]? = none := by
  by_contra hne
  have hmem : k ∈ m := by
    rw [Std.ExtTreeMap.mem_iff_isSome_getElem?]
    exact Option.isSome_iff_ne_none.mpr hne
  have hle := Std.ExtTreeMap.le_maxKey?_of_mem hmem rfl
  simp only [hmax, Option.get_some, Nat.isLE_compare] at hle
  omega

theorem mem_of_maxKey {m : SliceHashes} {id : Nat} (hmax : m.maxKey? = some id) :
    m[id]? ≠ none := by
  have hmem := Std.ExtTreeMap.maxKey?_mem hmax
  rw [Std.ExtTreeMap.mem_iff_isSome_getElem?] at hmem
  exact Option.isSome_iff_ne_none.mp hmem

/-- Skipping the slices before a timestamp leaves at least one slice before it. -/
theorem skipped_slices {e : Int} (he : 0 ≤ e) (hfits : e ≤ i64Max) {count : Nat}
    (hcount : count = (TimePartition.wrapU128 e / sliceLen f - 1) % 2 ^ 64) (hpos : 0 < count) :
    fullEnd f (count + 1) ≤ e := by
  rcases Int.eq_ofNat_of_zero_le he with ⟨m, hm⟩
  have hmsmall : m < 2 ^ 63 := by
    simp only [i64Max] at hfits
    omega
  have hwrap : TimePartition.wrapU128 e = m := by
    unfold TimePartition.wrapU128
    rw [hm, Int.emod_eq_of_lt (Int.natCast_nonneg m) (by omega), Int.toNat_natCast]
  have hdivle : m / sliceLen f ≤ m := Nat.div_le_self m (sliceLen f)
  have hcountEq : count = m / sliceLen f - 1 := by
    rw [hcount, hwrap]
    have hlt : m / sliceLen f - 1 < 2 ^ 64 := by omega
    exact Nat.mod_eq_of_lt hlt
  have hsucc : count + 1 = m / sliceLen f := by omega
  have hcast : fullEnd f (count + 1) = ((sliceLen f * (m / sliceLen f) : Nat) : Int) := by
    rw [hsucc]
    unfold fullEnd
    push_cast
    rfl
  rw [hcast, hm]
  exact_mod_cast Nat.mul_div_le m (sliceLen f)

/-- The start of a rebuild skips only slices whose stored hashes are already right. -/
theorem StartCount.slices {st : OpStore} {count n : Nat} (h : StartCount loc f arc t st count)
    (ht : 0 ≤ t) (hfits : t ≤ i64Max) (hstored : SlicesStored loc f arc n st)
    (hn : n ≤ fullCount f t)
    (hops : ∀ op ∈ st.stored, arc.contains (loc op.opId) = true →
      0 ≤ op.createdAt ∧ op.createdAt ≤ t) :
    count ≤ fullCount f t ∧
      (∀ k, k < count → (st.sliceHashes arc)[k]? = optHash (fullXor loc f arc st.stored k)) ∧
      ∀ k, count ≤ k → (st.sliceHashes arc)[k]? = none := by
  rcases h with ⟨id, hid, rfl⟩ | ⟨hnone, hcount⟩
  · -- a restart: everything up to the highest stored slice was covered
    have hidn : id < n := by
      by_contra hge
      have hlook := hstored id
      rw [if_neg hge] at hlook
      exact mem_of_maxKey hid hlook
    refine ⟨le_trans hidn hn, ?_, ?_⟩
    · intro k hk
      rw [hstored k, if_pos (by omega)]
    · intro k hk
      exact lookup_none_of_maxKey hid (by omega)
  · -- no stored slices: start just before the earliest op, or before now
    have hempty : st.sliceHashes arc = ∅ := Std.ExtTreeMap.maxKey?_eq_none_iff.mp hnone
    have hlook : ∀ k : Nat, (st.sliceHashes arc)[k]? = none := by
      intro k
      simp [hempty]
    generalize hearliest : (st.earliestInArc loc arc).getD t = e at hcount
    have hrange : 0 ≤ e ∧ e ≤ t ∧ ∀ op ∈ st.stored, arc.contains (loc op.opId) = true →
        e ≤ op.createdAt := by
      cases hear : st.earliestInArc loc arc with
      | none =>
          rw [hear] at hearliest
          simp only [Option.getD_none] at hearliest
          subst hearliest
          refine ⟨ht, le_refl t, ?_⟩
          intro op hop hin
          rw [earliestInArc_none hear op hop] at hin
          cases hin
      | some x =>
          rw [hear] at hearliest
          simp only [Option.getD_some] at hearliest
          subst hearliest
          have hmin := earliestInArc_some hear
          rcases earliestInArc_mem hear with ⟨op, hop, hin, hx⟩
          rcases hops op hop hin with ⟨hlow, hhigh⟩
          exact ⟨by omega, by omega, hmin⟩
    rcases hrange with ⟨he0, het, hmin⟩
    have hbelow : 0 < count → fullEnd f (count + 1) ≤ e :=
      fun hcpos => skipped_slices he0 (le_trans het hfits) hcount hcpos
    have hcountle : count ≤ fullCount f t := by
      apply le_fullCount_of
      intro hcpos
      have hnext := hbelow hcpos
      have hrec : (recentLen f : Int) ≤ sliceLen f := by
        exact_mod_cast (Nat.le_of_add_right_le (le_of_eq (recentLen_add_unitTime f)))
      rw [fullEnd_succ] at hnext
      linarith
    refine ⟨hcountle, ?_, fun k _ => hlook k⟩
    intro k hk
    have hnil : fullXor loc f arc st.stored k = [] := by
      apply sliceXor_eq_nil
      intro op hop
      by_cases hin : arc.contains (loc op.opId) = true
      · have hge := hmin op hop hin
        have hmono : fullEnd f (k + 1) ≤ fullEnd f (count + 1) := fullEnd_mono (by omega)
        have hstart := hbelow (by omega)
        have hlate : ¬ op.createdAt < fullEnd f (k + 1) := by omega
        simp [inSlice, hlate]
      · simp [inSlice, hin]
    rw [hlook k, hnil]
    rfl

/-- A rebuilt sector counts exactly the stored ops. -/
theorem rebuilt_accurate (hpos : 1 ≤ f) (hf : f ≤ 53) {st st' : OpStore} {tp : TimePartition} {n : Nat}
    (ht : 0 ≤ t) (hfits : t ≤ i64Max) (hstored : SlicesStored loc f arc n st)
    (hn : n ≤ fullCount f t)
    (hops : ∀ op ∈ st.stored, arc.contains (loc op.opId) = true →
      0 ≤ op.createdAt ∧ op.createdAt ≤ t)
    (h : Returns (TimePartition.tryFromStore loc f t arc) st tp st') :
    SectorAccurate loc f arc t st.stored { part := tp, store := st' } ∧ OwnArcOnly arc st st' := by
  rcases returns_tryFromStore hpos hf h with ⟨count, st1, hstart, hupdate⟩
  rcases hstart.origin.slices ht hfits hstored hn hops with ⟨hcount, hold, hnew⟩
  have hfit : fullEnd f count ≤ i64Max :=
    le_trans (le_trans (fullEnd_mono hcount) (fullEnd_fullCount_le_self ht)) hfits
  have hshape : Shape f arc ({ part := freshPart f arc count, store := st1 } : SectorEnv).part :=
    shape_freshPart f arc count
  have hup := returns_update hf hshape hfit hfits hupdate
  have hstoredEq : st1.stored = st.stored := hstart.same.stored
  have hfs : tp.fullSlices = fullCount f t := by
    rw [show tp.fullSlices = max count (fullCount f t) from hup.fullSlices]
    exact Nat.max_eq_right hcount
  refine ⟨⟨hup.shape, ht, hfits, hfs, ?_, ?_⟩, hstart.same.ownArcOnly.trans hup.own⟩
  · have hpart := hup.partialSlices
    simp only [freshPart, hfs, hstoredEq] at hpart
    rw [hpart]
    apply List.map_congr_left
    intro slot _
    rfl
  -- below count the slices were stored, from there to fullCount they are new, above there are
  -- none
  · intro k
    have hlook := hup.slices k
    simp only [freshPart, hfs, hstoredEq, hstart.same.sliceHashes] at hlook
    rw [hlook]
    by_cases hlow : k < count
    · rw [if_neg (fun hc => by omega), hold k hlow, if_pos (by omega)]
    · rw [hnew k (not_lt.mp hlow)]
      by_cases hhigh : k < fullCount f t
      · by_cases hnil : fullXor loc f arc st.stored k = []
        · simp [hnil, optHash]
        · simp [hnil, hhigh, not_lt.mp hlow, optHash]
      · simp [hhigh]

end Dht
end Kitsune2
