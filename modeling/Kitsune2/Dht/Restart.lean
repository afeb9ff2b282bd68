import Kitsune2.Dht.Uniform

/-!
# Restart — when a partition can be built from its store again

A restart takes the number of full slices of a sector from its stored slice hashes, or from its
earliest op if there are none, and refuses a number that the clock has not reached.  The hashes that
were stored for full slices are always within the reach of the clock; but an op from before the
epoch has a hash stored under a slice index that is not its own, and an earliest op that is ahead of
the clock stands for slices that are not there yet.
-/

namespace Kitsune2
namespace Dht

open Api Lib

variable {loc : LocCb} {f n : Nat} {arc : DhtArc} {t : Int}

/-! ## One sector -/

/-- The store of a sector claims no more full slices than the clock has reached. -/
structure Restartable (loc : LocCb) (f : Nat) (t : Int) (arc : DhtArc) (st : OpStore) : Prop where
  /-- Stored hashes are those of full slices. -/
  keys : ∀ k, (st.sliceHashes arc)[k]? ≠ none → k < fullCount f t
  /-- Without stored hashes, the earliest op lies between the epoch and the end of the second slice
  after the full slices. -/
  earliest : st.sliceHashes arc = ∅ → ∀ x, st.earliestInArc loc arc = some x →
    0 ≤ x ∧ x < fullEnd f (fullCount f t + 2)

theorem Restartable.congr {st st' : OpStore} (h : Restartable loc f t arc st)
    (hlist : st'.opList = st.opList) (harc : st'.sliceHashes arc = st.sliceHashes arc) :
    Restartable loc f t arc st' := by
  refine ⟨?_, ?_⟩
  · rw [harc]
    exact h.keys
  · unfold OpStore.earliestInArc
    rw [harc, hlist]
    exact h.earliest

/-- The slice count that an earliest op stands for. -/
theorem skipped_le_iff {x : Int} (hx : 0 ≤ x) (hfits : x ≤ i64Max) {m : Nat} :
    (TimePartition.wrapU128 x / sliceLen f - 1) % 2 ^ 64 ≤ m ↔ x < fullEnd f (m + 2) := by
  rcases Int.eq_ofNat_of_zero_le hx with ⟨k, rfl⟩
  have hksmall : k < 2 ^ 63 := by
    simp only [i64Max] at hfits
    omega
  have hwrap : TimePartition.wrapU128 (k : Int) = k := by
    unfold TimePartition.wrapU128
    rw [Int.emod_eq_of_lt (Int.natCast_nonneg k) (by omega), Int.toNat_natCast]
  have hdivle : k / sliceLen f ≤ k := Nat.div_le_self k (sliceLen f)
  have hdiv : k / sliceLen f < m + 2 ↔ k < (m + 2) * sliceLen f :=
    Nat.div_lt_iff_lt_mul (sliceLen_pos f)
  have hend : fullEnd f (m + 2) = (((m + 2) * sliceLen f : Nat) : Int) := by
    unfold fullEnd
    push_cast
    ring
  rw [hwrap, Nat.mod_eq_of_lt (by omega), hend, Int.ofNat_lt, ← hdiv]
  omega

/-- The clock itself never stands for too many slices. -/
theorem lt_fullEnd_fullCount (f : Nat) (t : Int) : t < fullEnd f (fullCount f t + 2) := by
  by_contra hle
  have hrec : (recentLen f : Int) ≤ sliceLen f := by
    exact_mod_cast Nat.le_of_add_right_le (le_of_eq (recentLen_add_unitTime f))
  have hnext : fullEnd f (fullCount f t + 2) = fullEnd f (fullCount f t + 1) + sliceLen f :=
    fullEnd_succ f (fullCount f t + 1)
  have hlt : fullCount f t < fullCount f t := lt_fullCount_iff.mpr (by linarith)
  exact absurd hlt (lt_irrefl _)

section Sector

variable {st st1 st' : OpStore} {count : Nat} {tp : TimePartition}

/-- The count of a restartable sector is within the full slices. -/
theorem Restartable.count_le (h : Restartable loc f t arc st) (ht : 0 ≤ t) (hfits : t ≤ i64Max)
    (hops : ∀ op ∈ st.stored, op.createdAt ≤ i64Max) (hcount : StartCount loc f arc t st count) :
    count ≤ fullCount f t := by
  rcases hcount with ⟨id, hid, rfl⟩ | ⟨hnone, rfl⟩
  · exact h.keys id (mem_of_maxKey hid)
  · have hempty : st.sliceHashes arc = ∅ := Std.ExtTreeMap.maxKey?_eq_none_iff.mp hnone
    cases hear : st.earliestInArc loc arc with
    | none => exact (skipped_le_iff ht hfits).mpr (lt_fullEnd_fullCount f t)
    | some x =>
        rcases h.earliest hempty x hear with ⟨hx, hlt⟩
        rcases earliestInArc_mem hear with ⟨op, hop, _, rfl⟩
        exact (skipped_le_iff hx (hops op hop)).mpr hlt

/-- A sector that was started was restartable. -/
theorem Started.restartable (hpos : 1 ≤ f) (hf : f ≤ 53) (h : Started loc f arc t st st1 count)
    (ht : 0 ≤ t) (hfits : t ≤ i64Max) (hkeys : KeysWithin f (fullCount f t) (st.sliceHashes arc))
    (hops : ∀ op ∈ st.stored, -2 ^ 63 ≤ op.createdAt ∧ op.createdAt ≤ i64Max) :
    Restartable loc f t arc st := by
  have hfit := h.fullEnd_le hpos hf (by linarith) hfits hkeys (le_refl _) hops
  have hle := (h.le_fullCount hfit).2
  rcases h.origin with ⟨id, hid, rfl⟩ | ⟨hnone, hcount⟩
  · refine ⟨?_, ?_⟩
    · intro k hk
      by_contra hge
      exact hk (lookup_none_of_maxKey hid (by omega))
    · intro hempty
      rw [Std.ExtTreeMap.maxKey?_eq_none_iff.mpr hempty] at hid
      cases hid
  · have hempty : st.sliceHashes arc = ∅ := Std.ExtTreeMap.maxKey?_eq_none_iff.mp hnone
    refine ⟨?_, ?_⟩
    · intro k hk
      rw [hempty] at hk
      exact absurd Std.ExtTreeMap.getElem?_empty hk
    · intro _ x hx
      rcases earliestInArc_mem hx with ⟨op, hop, _, rfl⟩
      rw [hx, Option.getD_some] at hcount
      have hnonneg : 0 ≤ op.createdAt := by
        by_contra hneg
        have hover := negative_start_overflows hpos hf (hops op hop).1 (not_le.mp hneg)
        rw [← hcount] at hover
        exact absurd h.no_overflow (not_le.mpr hover)
      refine ⟨hnonneg, (skipped_le_iff hnonneg (hops op hop).2).mp ?_⟩
      rw [← hcount]
      exact hle

/-- A sector is rebuilt exactly if it is restartable and its next update can be scheduled. -/
theorem rebuilds_iff_restartable (hpos : 1 ≤ f) (hf : f ≤ 53) (harc : arc ≠ .empty)
    (hrel : st.failures = []) (hids : Storable n st.stored) (ht : 0 ≤ t) (hfits : t ≤ i64Max)
    (hkeys : KeysWithin f (fullCount f t) (st.sliceHashes arc)) :
    (∃ tp st', Returns (TimePartition.tryFromStore loc f t arc) st tp st') ↔
      NextFits f t ∧ Restartable loc f t arc st := by
  have hops : ∀ op ∈ st.stored, -2 ^ 63 ≤ op.createdAt ∧ op.createdAt ≤ i64Max :=
    fun op hop => (hids op hop).2
  constructor
  · rintro ⟨tp, st', htp⟩
    rcases returns_tryFromStore hpos hf htp with ⟨count, st1, hstart, hupdate⟩
    refine ⟨?_, hstart.restartable hpos hf ht hfits hkeys hops⟩
    have hlaid := (rebuilt_laidOut hpos hf (by linarith) hfits hkeys (le_refl _) hops htp).1
    have hfit := hstart.fullEnd_le hpos hf (by linarith) hfits hkeys (le_refl _) hops
    have hshape : Shape f arc
        ({ part := freshPart f arc count, store := st1 } : SectorEnv).part :=
      shape_freshPart f arc count
    exact nextFits_of_schedule hf ht hfits hlaid.slots
      (returns_update hf hshape hfit hfits hupdate).nextUpdate
  · rintro ⟨hnext, hre⟩
    -- the keys are below the full slices, so the next key is in range
    have hmax : ∀ id, (st.sliceHashes arc).maxKey? = some id → id < u64Max := by
      intro id hid
      have hlt := hre.keys id (mem_of_maxKey hid)
      have hle := le_fullEnd f (fullCount f t)
      have hend := fullEnd_fullCount_le_self (f := f) ht
      simp only [i64Max] at hfits
      simp only [u64Max]
      omega
    rcases tryFromStore_returns_of_count hpos hf harc hrel (fun op hop => (hids op hop).1) ht hfits
      hnext hmax fun count => hre.count_le ht hfits fun op hop => (hops op hop).2
      with ⟨tp, st', htp, _⟩
    exact ⟨tp, st', htp⟩

end Sector

/-! ## All sectors -/

/-- What a sector of a later restart finds in the store, whatever the sectors before it wrote. -/
def AsLeft (f n : Nat) (t : Int) (st : OpStore) (i : Nat) (st1 : OpStore) : Prop :=
  st1.opList = st.opList ∧ st1.sliceHashes (sectorArc i) = st.sliceHashes (sectorArc i) ∧
    (st.failures = [] → st1.failures = []) ∧ Restorable f n t i st

theorem AsLeft.other {st st1 st2 : OpStore} {i j : Nat} (hij : i ≠ j)
    (hown : OwnArcOnly (sectorArc i) st1 st2) (h : AsLeft f n t st j st1) : AsLeft f n t st j st2 :=
  ⟨hown.opList.trans h.1, (hown.others _ fun heq => hij (sectorArc_inj heq).symm).trans h.2.1,
    fun hrel => hown.reliable (h.2.2.1 hrel), h.2.2.2⟩

/-- A partition is rebuilt exactly if all of its sectors are restartable. -/
theorem rebuilds_iff_all_restartable (hpos : 1 ≤ f) (hf : f ≤ 53) {st : OpStore}
    (hrel : st.failures = []) (ht : 0 ≤ t) (hfits : t ≤ i64Max)
    (hst : ∀ i < numSectors, Restorable f n t i st) :
    (∃ p st', Returns (HashPartition.tryFromStore loc f t) st p st') ↔
      NextFits f t ∧ ∀ i < numSectors, Restartable loc f t (sectorArc i) st := by
  have hleft : ∀ i < numSectors, AsLeft f n t st i st :=
    fun i hi => ⟨rfl, rfl, fun h => h, hst i hi⟩
  -- rebuilding one sector touches its own arc only, so each sector is judged on the old store
  have hone : ∀ i st1, AsLeft f n t st i st1 →
      ((∃ tp st', Returns (TimePartition.tryFromStore loc f t (sectorArc i)) st1 tp st') ↔
        NextFits f t ∧ Restartable loc f t (sectorArc i) st) := by
    rintro i st1 ⟨hlist, harc, hkeep, hkeys, hids, _⟩
    rw [← harc] at hkeys
    rw [rebuilds_iff_restartable hpos hf (sectorArc_ne_empty i) (hkeep hrel)
      (by rw [stored_eq hlist]; exact hids) ht hfits hkeys]
    exact and_congr_right fun _ =>
      ⟨fun h => h.congr hlist.symm harc.symm, fun h => h.congr hlist harc⟩
  have hown : ∀ i tp st1 st2, AsLeft f n t st i st1 →
      Returns (TimePartition.tryFromStore loc f t (sectorArc i)) st1 tp st2 →
      OwnArcOnly (sectorArc i) st1 st2 := by
    rintro i tp st1 st2 ⟨hlist, harc, _, hkeys, hids, _⟩ htp
    refine (rebuilt_laidOut hpos hf (by linarith) hfits (by rw [harc]; exact hkeys) (le_refl _) ?_
      htp).2
    rw [stored_eq hlist]
    exact fun op hop => (hids op hop).2
  constructor
  · rintro ⟨p, st', hret⟩
    -- a rebuild that returns has rebuilt every sector
    have hbuilt := returns_rebuild
      (P := fun i _ => NextFits f t ∧ Restartable loc f t (sectorArc i) st)
      (fun _ _ _ _ _ _ _ h => h) (fun i j st1 st2 hij hown h => h.other hij hown)
      (fun i tp st1 st2 h htp => ⟨(hone i st1 h).mp ⟨tp, st2, htp⟩, hown i tp st1 st2 h htp⟩)
      hleft hret
    have hsector : ∀ i < numSectors, NextFits f t ∧ Restartable loc f t (sectorArc i) st := by
      intro i hi
      have hlt : i < p.sectors.length := by
        rw [show p.sectors.length = numSectors from hbuilt.length]
        exact hi
      exact hbuilt.sector i _ (List.getElem?_eq_getElem hlt)
    exact ⟨(hsector 0 (by decide)).1, fun i hi => (hsector i hi).2⟩
  · rintro ⟨hnext, hre⟩
    refine rebuild_returns_of (S := fun i st1 => AsLeft f n t st i st1 ∧ i < numSectors) ?_ ?_
      fun i hi => ⟨hleft i hi, hi⟩
    · rintro i j st1 st2 hij hown' ⟨h, hj⟩
      exact ⟨h.other hij hown', hj⟩
    · rintro i st1 ⟨h, hi⟩
      rcases (hone i st1 h).mpr ⟨hnext, hre i hi⟩ with ⟨tp, st2, htp⟩
      exact ⟨tp, st2, htp, hown i tp st1 st2 h htp⟩

/-! ## Ops in time -/

/-- The op was created between the epoch and now. -/
def SinceEpoch (now : Int) (op : StoredOp) : Prop :=
  0 ≤ op.createdAt ∧ op.createdAt ≤ now

/-- Only full slices have stored hashes. -/
def OnlyFull (f : Nat) (arc : DhtArc) (t : Int) (st : OpStore) : Prop :=
  ∀ k, (st.sliceHashes arc)[k]? ≠ none → k < fullCount f t

theorem local_onlyFull (f : Nat) (t : Int) : Local (fun i e => OnlyFull f (sectorArc i) t e.store) := by
  intro i j tp st st' hij hown h
  unfold OnlyFull
  simp only [hown.others _ fun heq => hij (sectorArc_inj heq).symm]
  exact h

theorem OnlyFull.mono {t' : Int} {st : OpStore} (h : OnlyFull f arc t st) (hle : t ≤ t') :
    OnlyFull f arc t' st :=
  fun k hk => lt_of_lt_of_le (h k hk) (fullCount_mono hle)

theorem Updated.onlyFull {e e' : SectorEnv} (hup : Updated loc f arc t e e')
    (hcount : e'.part.fullSlices = fullCount f t) (h : OnlyFull f arc t e.store) :
    OnlyFull f arc t e'.store := by
  intro k hk
  rw [hup.slices k] at hk
  split at hk
  · rename_i hnew
    rw [← hcount]
    exact hnew.2.1
  · exact h k hk

theorem OnlyFull.informed {e e' : SectorEnv} {ops : List StoredOp} {u : Unit}
    (hlaid : LaidOut f arc t e) (h : OnlyFull f arc t e.store) (hops : ∀ op ∈ ops, 0 ≤ op.createdAt)
    (hret : Returns (TimePartition.informOpsStored ops) e u e') : OnlyFull f arc t e'.store := by
  refine informed_invariant (I := fun e1 => OnlyFull f arc t e1.store) hlaid.shape hlaid.fullEnd_le h
    ?_ (fun _ _ _ _ h1 _ => h1) hret
  intro op hop hlt e1 st2 i hash h1 hinf k hk
  rw [hinf.slices k] at hk
  by_cases hki : k = wrapU64 i
  · -- the slice of the op, which is not from before the epoch
    rcases full_index (hops op hop) hlt hlaid.fullEnd_le with ⟨j, hdiv, hwrap, hj, _⟩
    have hindex := hinf.index
    rw [hdiv] at hindex
    cases hindex
    rw [hki, hwrap, ← hlaid.fullSlices]
    exact hj
  · rw [if_neg hki] at hk
    exact h1 k hk

theorem rebuilt_onlyFull (hpos : 1 ≤ f) (hf : f ≤ 53) (hlow : -2 ^ 63 ≤ t) (hfits : t ≤ i64Max)
    {st st' : OpStore} {tp : TimePartition} (h : OnlyFull f arc t st) (hids : Storable n st.stored)
    (hret : Returns (TimePartition.tryFromStore loc f t arc) st tp st') :
    OnlyFull f arc t st' ∧ OwnArcOnly arc st st' := by
  have hkeys : KeysWithin f (fullCount f t) (st.sliceHashes arc) := fun _ k hk => Or.inl (h k hk)
  have hops : ∀ op ∈ st.stored, -2 ^ 63 ≤ op.createdAt ∧ op.createdAt ≤ i64Max :=
    fun op hop => (hids op hop).2
  rcases rebuilt_laidOut hpos hf hlow hfits hkeys (le_refl _) hops hret with ⟨hlaid, hown⟩
  rcases returns_tryFromStore hpos hf hret with ⟨count, st1, hstart, hupdate⟩
  have hfit := hstart.fullEnd_le hpos hf hlow hfits hkeys (le_refl _) hops
  have hshape : Shape f arc ({ part := freshPart f arc count, store := st1 } : SectorEnv).part :=
    shape_freshPart f arc count
  refine ⟨(returns_update hf hshape hfit hfits hupdate).onlyFull hlaid.fullSlices ?_, hown⟩
  unfold OnlyFull
  simp only [hstart.same.sliceHashes]
  exact h

/-! ## Runs -/

section Lives

variable {last now : Int} {env : HashEnv}

/-- What a life with ops in time leaves behind. -/
structure Timely (f : Nat) (last t : Int) (env : HashEnv) : Prop where
  onlyFull : EverySector (fun i e => OnlyFull f (sectorArc i) t e.store) env
  sinceEpoch : ∀ op ∈ env.store.stored, SinceEpoch last op

theorem SinceEpoch.mono {op : StoredOp} (h : SinceEpoch last op) (hle : last ≤ now) :
    SinceEpoch now op :=
  ⟨h.1, le_trans h.2 hle⟩

theorem timely_rebuilt (hpos : 1 ≤ f) (hf : f ≤ 53) (hlow : -2 ^ 63 ≤ now) (hfits : now ≤ i64Max)
    {st st' : OpStore} {p : HashPartition} (hids : Storable n st.stored)
    (honly : ∀ i < numSectors, OnlyFull f (sectorArc i) now st)
    (htime : ∀ op ∈ st.stored, SinceEpoch now op)
    (hret : Returns (HashPartition.tryFromStore loc f now) st p st') :
    Timely f now now { partition := p, store := st' } := by
  have hbuilt := returns_rebuild (local_onlyFull f now)
    (S := fun i st1 => OnlyFull f (sectorArc i) now st1 ∧ Storable n st1.stored) ?_ ?_
    (fun i hi => ⟨honly i hi, hids⟩) hret
  · refine ⟨hbuilt.sector, ?_⟩
    simp only [hbuilt.only.stored]
    exact htime
  · rintro i j st1 st2 hij hown ⟨h1, hids1⟩
    refine ⟨local_onlyFull f now i j (freshPart f (sectorArc j) 0) st1 st2 hij hown h1, ?_⟩
    rw [hown.stored]
    exact hids1
  · rintro i tp st1 st2 ⟨h1, hids1⟩ htp
    exact rebuilt_onlyFull hpos hf hlow hfits h1 hids1 htp

theorem LivesOn.onlyFull (h : LivesOn f n last t env) (htimely : Timely f last t env) :
    ∀ i < numSectors, OnlyFull f (sectorArc i) t env.store := by
  intro i hi
  have hlt : i < env.partition.sectors.length := by
    rw [h.regular.length]
    exact hi
  exact htimely.onlyFull i _ (List.getElem?_eq_getElem hlt)

theorem Lived.timely (hpos : 1 ≤ f) (hf : f ≤ 53) (h : Lived loc f n SinceEpoch last t env) :
    Timely f last t env := by
  induction h with
  | @start now st st' p hlow hfits hempty hkept hret =>
      refine timely_rebuilt hpos hf hlow hfits hkept.1 ?_ hkept.2 hret
      intro i _ k hk
      rw [hempty] at hk
      exact absurd Std.ExtTreeMap.getElem?_empty hk
  | @update last t now env env' hlived hle hfits hret ih =>
      have hlives := hlived.livesOn hpos hf
      have hlater : t ≤ now := le_trans hlives.ordered hle
      have hbody : ∀ i < env.partition.sectors.length, ∀ e e',
          LaidOut f (sectorArc i) t e ∧ OnlyFull f (sectorArc i) t e.store →
          Returns (TimePartition.update loc now) e () e' →
          OnlyFull f (sectorArc i) now e'.store ∧ OwnArcOnly (sectorArc i) e.store e'.store := by
        rintro i _ e e' ⟨hlaid, honly⟩ hup
        have hupd := returns_update hf hlaid.shape hlaid.fullEnd_le hfits hup
        have hcount := (hlaid.updated hf hlater hfits hup).1.fullSlices
        exact ⟨hupd.onlyFull hcount (honly.mono hlater), hupd.own⟩
      rcases returns_partition_update (local_and (local_laidOut f t) (local_onlyFull f t))
        (local_onlyFull f now) hbody
        (fun i tp htp => ⟨hlives.regular.laidOut.sector i tp htp, ih.onlyFull i tp htp⟩) hret
        with ⟨hframe, honly⟩
      refine ⟨honly, ?_⟩
      rw [stored_eq hframe.opList]
      exact fun op hop => (ih.sinceEpoch op hop).mono hle
  -- the rebuild keeps the stored slices, which are all full by now
  | @restart last t now env st' p hlived hle hfits hret ih =>
      have hlives := hlived.livesOn hpos hf
      have hlater : t ≤ now := le_trans hlives.ordered hle
      have hnonneg := hlives.nonneg
      exact timely_rebuilt hpos hf (by linarith) hfits hlives.stored
        (fun i hi => (hlives.onlyFull ih i hi).mono hlater)
        (fun op hop => (ih.sinceEpoch op hop).mono hle) hret
  | @inform last t now env env' ops hlived hle _ hkept hret ih =>
      have hlives := hlived.livesOn hpos hf
      have hbody : ∀ i e e', LaidOut f (sectorArc i) t e ∧ OnlyFull f (sectorArc i) t e.store →
          Returns (TimePartition.informOpsStored
            (HashPartition.sectorOps loc env.partition.size ops i)) e () e' →
          (LaidOut f (sectorArc i) t e' ∧ OnlyFull f (sectorArc i) t e'.store) ∧
            OwnArcOnly (sectorArc i) e.store e'.store := by
        rintro i e e' ⟨hlaid, honly⟩ hinf
        have hpos' : ∀ op ∈ HashPartition.sectorOps loc env.partition.size ops i, 0 ≤ op.createdAt :=
          fun op hop => (hkept.2 op (List.mem_filter.mp hop).1).1
        rcases hlaid.informed (fun op hop => le_trans (by decide) (hpos' op hop)) hinf
          with ⟨hlaid', hown⟩
        exact ⟨⟨hlaid', honly.informed hlaid hpos' hinf⟩, hown⟩
      rcases returns_partition_inform (local_and (local_laidOut f t) (local_onlyFull f t)) hbody
        (fun i tp htp => ⟨hlives.regular.laidOut.sector i tp htp, ih.onlyFull i tp htp⟩) hret
        with ⟨hframe, hboth⟩
      refine ⟨fun i tp htp => (hboth i tp htp).2, ?_⟩
      rw [stored_eq hframe.opList]
      exact fun op hop => (ih.sinceEpoch op hop).mono hle
  -- an op stored by the host changes no slice
  | host ops _ _ _ hkept ih => exact ⟨ih.onlyFull, hkept.2⟩

/-- Ops in time leave every sector restartable. -/
theorem LivesOn.restartable (h : LivesOn f n last t env) (htimely : Timely f last t env)
    (hle : last ≤ now) : ∀ i < numSectors, Restartable loc f now (sectorArc i) env.store := by
  intro i hi
  refine ⟨(h.onlyFull htimely i hi).mono (le_trans h.ordered hle), ?_⟩
  intro _ x hx
  rcases earliestInArc_mem hx with ⟨op, hop, _, rfl⟩
  rcases htimely.sinceEpoch op hop with ⟨hnonneg, hseen⟩
  exact ⟨hnonneg, lt_of_le_of_lt (le_trans hseen hle) (lt_fullEnd_fullCount f now)⟩

/-- Whatever a node has gone through, with ops of any time, it can restart exactly if every sector
is restartable; and a node whose ops were all created between the epoch and the clock can. -/
theorem restarts_iff_restartable (hpos : 1 ≤ f) (hf : f ≤ 53) :
    (∀ {last t now : Int} {env : HashEnv}, Lived loc f n (fun _ _ => True) last t env →
      env.store.failures = [] → t ≤ now → now ≤ i64Max →
      ((∃ p st', Returns (HashPartition.tryFromStore loc f now) env.store p st') ↔
        NextFits f now ∧ ∀ i < numSectors, Restartable loc f now (sectorArc i) env.store)) ∧
    ∀ {last t now : Int} {env : HashEnv}, Lived loc f n SinceEpoch last t env →
      env.store.failures = [] → last ≤ now → now ≤ i64Max → NextFits f now →
      ∃ p st', Returns (HashPartition.tryFromStore loc f now) env.store p st' := by
  constructor
  · intro last t now env h hrel hle hfits
    have hlives := h.livesOn hpos hf
    exact rebuilds_iff_all_restartable hpos hf hrel (le_trans hlives.nonneg hle) hfits
      (hlives.restorable hle)
  · intro last t now env h hrel hle hfits hnext
    have hlives := h.livesOn hpos hf
    have hlater := le_trans hlives.ordered hle
    exact (rebuilds_iff_all_restartable hpos hf hrel (le_trans hlives.nonneg hlater) hfits
      (hlives.restorable hlater)).mpr ⟨hnext, hlives.restartable (h.timely hpos hf) hle⟩

end Lives

/-! ## An op ahead of the clock -/

/-- A partition that is started on an empty store. -/
theorem exists_fresh (f : Nat) (hpos : 1 ≤ f) (hf : f ≤ 53) (Allowed : Int → StoredOp → Prop) :
    ∃ env, Lived (fun _ => 0) f 1 Allowed 0 0 env ∧
      PartitionAccurate (fun _ => 0) f 0 [] env ∧ env.store.failures = [] := by
  have hre : Rebuildable (fun _ => 0) f 0 (List.range numSectors) OpStore.empty :=
    ⟨fun i _ => ⟨0, Nat.zero_le _, slicesStored_of_empty rfl⟩, fun op hop => by cases hop⟩
  have hnext : NextFits f 0 := nextFits_of_le (le_refl 0) (by rw [unitTime_eq]; decide)
  have hids : IdsOfLength 1 OpStore.empty.stored := fun op hop => by cases hop
  rcases rebuild_returns hpos hf (le_refl 0) (by decide) hnext rfl hids hre with ⟨p, st', hbuild⟩
  rcases rebuilt_partition hpos hf (le_refl 0) (by decide) hre hbuild with ⟨hacc, honly⟩
  exact ⟨_, .start (by decide) (by decide) (fun _ => rfl)
    ⟨fun _ hop => absurd hop List.not_mem_nil, fun _ hop => absurd hop List.not_mem_nil⟩ hbuild, hacc,
    honly.reliable rfl⟩

/-- A node without ops restarts at any time. -/
theorem restarts_without_ops :
    ∃ env, Lived (fun _ => 0) 9 1 SinceEpoch 0 0 env ∧
      ∃ p st', Returns (HashPartition.tryFromStore (fun _ => 0) 9 86400000000) env.store p st' := by
  rcases exists_fresh 9 (by decide) (by decide) SinceEpoch with ⟨env, hlived, _, hrel⟩
  exact ⟨env, hlived, (restarts_iff_restartable (by decide) (by decide)).2 hlived hrel (by decide)
    (by decide) (nextFits_of_le (by decide) (by rw [unitTime_eq]; decide))⟩

/-- A node that has stored one op from an hour ahead of its clock, and was informed of it, cannot
restart at the time of its last update. -/
theorem not_restarts_op_ahead :
    ∃ env, Lived (fun _ => 0) 1 1 (fun _ _ => True) 0 0 env ∧ env.store.failures = [] ∧
      env.store.stored = [⟨[7], 3600000000⟩] ∧
      ¬ ∃ p st', Returns (HashPartition.tryFromStore (fun _ => 0) 1 0) env.store p st' := by
  rcases exists_fresh 1 (by decide) (by decide) (fun _ _ => True) with ⟨env, hlived, hacc, hrel⟩
  have hkept : Keepable 1 (fun _ _ => True) 0 [⟨[7], 3600000000⟩] := by
    refine ⟨?_, fun _ _ => trivial⟩
    intro op hop
    rw [List.mem_singleton.mp hop]
    decide
  have hhost := hlived.host [⟨⟨[7], 3600000000⟩, 1⟩] (le_refl 0) (by decide) hkept
  have hacc' : PartitionAccurate (fun _ => 0) 1 0 []
      { env with store := { env.store with opList := [⟨⟨[7], 3600000000⟩, 1⟩] } } := by
    refine ⟨hacc.size, hacc.length, ?_⟩
    intro i tp htp
    have h := hacc.sector i tp htp
    exact ⟨h.shape, h.nonneg, h.fits, h.fullSlices, h.partialSlices, h.slices⟩
  have hops : ∀ op ∈ [(⟨[7], 3600000000⟩ : StoredOp)], 0 ≤ op.createdAt := by decide
  rcases hacc'.inform_returns (n := 1) (by decide) hrel (fun op hop => by cases hop) (by decide)
    (fun op hop => (hkept.1 op hop).1) hops with ⟨env', hinform⟩
  rcases hacc'.informed (by decide) hops hinform with ⟨hacc'', hframe⟩
  have hlived' := hhost.inform (le_refl 0) (by decide) hkept hinform
  have hrel' := hframe.reliable hrel
  have hstored : env'.store.stored = [⟨[7], 3600000000⟩] := stored_eq hframe.opList
  refine ⟨env', hlived', hrel', hstored, ?_⟩
  have hlives := hlived'.livesOn (by decide) (by decide)
  rw [rebuilds_iff_all_restartable (by decide) (by decide) hrel' (le_refl 0) (by decide)
    (hlives.restorable (le_refl 0))]
  rintro ⟨_, hre⟩
  -- the first sector has no slice hashes, and only this op
  have hlt : 0 < env'.partition.sectors.length := by
    rw [hacc''.length]
    decide
  have hsector := hacc''.sector 0 _ (List.getElem?_eq_getElem hlt)
  have hempty : env'.store.sliceHashes (sectorArc 0) = ∅ := by
    apply Std.ExtTreeMap.ext_getElem?
    intro k
    rw [hsector.slices k, if_neg (by rw [show fullCount 1 0 = 0 by decide]; omega)]
    exact Std.ExtTreeMap.getElem?_empty.symm
  have hearliest : env'.store.earliestInArc (fun _ => 0) (sectorArc 0) = some 3600000000 := by
    unfold OpStore.earliestInArc
    rw [hframe.opList]
    rfl
  exact absurd ((hre 0 (by decide)).earliest hempty _ hearliest).2 (by decide)

end Dht
end Kitsune2
