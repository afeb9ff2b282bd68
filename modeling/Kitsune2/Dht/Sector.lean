import Kitsune2.Dht.Layout

/-!
# Sector — what an update does to one sector

Specifications of the mutating functions of `TimePartition`: from a successful call to the slices
and hashes it leaves behind.  Hashes are stated through `sliceXor`, the XOR of the ids of the ops in
a slice, so that the order in which the store returns ops does not matter.
-/

namespace Kitsune2
namespace Dht

open Api Lib

variable {loc : LocCb} {f : Nat} {arc : DhtArc}

/-! ## Slices as sets of ops -/

/-- The XOR of the ids of the ops in an interval of time and an arc. -/
def sliceXor (loc : LocCb) (arc : DhtArc) (ops : List StoredOp) (start stop : Int) : Bytes :=
  xorAll ((ops.filter (inSlice loc arc start stop)).map fun op => op.opId)

/-- The hash that full slice `k` should have. -/
def fullXor (loc : LocCb) (f : Nat) (arc : DhtArc) (ops : List StoredOp) (k : Nat) : Bytes :=
  sliceXor loc arc ops (fullEnd f k) (fullEnd f (k + 1))

/-- The hash that a partial slice should have. -/
def slotXor (loc : LocCb) (arc : DhtArc) (ops : List StoredOp) (slot : Int × Nat) : Bytes :=
  sliceXor loc arc ops slot.1 (slot.1 + slotLen slot.2)

/-- The ops of a store, as the DHT is told about them. -/
def OpStore.stored (st : OpStore) : List StoredOp :=
  st.opList.map fun op => op.toStoredOp

theorem opHashes_perm (st : OpStore) (start stop : Int) :
    ((st.opHashesInTimeSlice loc arc start stop).1).Perm
      ((st.stored.filter (inSlice loc arc start stop)).map fun op => op.opId) := by
  have hsort : (st.opsInSlice loc arc start stop).Perm
      (st.opList.filter fun op => inSlice loc arc start stop op.toStoredOp) :=
    List.perm_insertionSort _ _
  have hmap := hsort.map fun op => op.opId
  have heq : ((st.stored.filter (inSlice loc arc start stop)).map fun op => op.opId) =
      (st.opList.filter fun op => inSlice loc arc start stop op.toStoredOp).map
        fun op => op.opId := by
    unfold OpStore.stored
    rw [List.filter_map, List.map_map]
    rfl
  rw [heq]
  exact hmap

/-- Combining the hashes of a slice gives the XOR of its ids. -/
theorem combine_slice_eq {st : OpStore} {start stop : Int} {hash : Bytes}
    (h : combineOpHashes (st.opHashesInTimeSlice loc arc start stop).1 = .ok hash) :
    hash = sliceXor loc arc st.stored start stop := by
  rw [combineOpHashes_eq h]
  exact xorAll_perm (opHashes_perm st start stop)

theorem sliceXor_eq_nil {ops : List StoredOp} {start stop : Int}
    (h : ∀ op ∈ ops, inSlice loc arc start stop op = false) :
    sliceXor loc arc ops start stop = [] := by
  have hnil : ops.filter (inSlice loc arc start stop) = [] := by
    rw [List.filter_eq_nil_iff]
    intro op hop
    simp [h op hop]
  simp [sliceXor, hnil]

/-! ## Calls on the store from a partition -/

theorem returns_onStore_iff {α : Type} {m : StoreM α} {env env' : SectorEnv} {a : α} :
    Returns (onStore m) env a env' ↔
      ∃ st, Returns m env.store a st ∧ env' = { env with store := st } :=
  returns_zoom_iff

theorem returns_modifyPart_iff {g : TimePartition → TimePartition} {env env' : SectorEnv} {u : Unit} :
    Returns (modifyPart g) env u env' ↔ env' = { env with part := g env.part } :=
  returns_modify_iff

/-- What a sector's functions may change in the store: the slice hashes of its own arc. -/
structure OwnArcOnly (arc : DhtArc) (st st' : OpStore) : Prop where
  opList : st'.opList = st.opList
  others : ∀ arc', arc' ≠ arc → st'.sliceHashes arc' = st.sliceHashes arc'
  reliable : st.failures = [] → st'.failures = []

theorem OwnArcOnly.refl (arc : DhtArc) (st : OpStore) : OwnArcOnly arc st st :=
  ⟨rfl, fun _ _ => rfl, fun h => h⟩

theorem OwnArcOnly.trans {st st' st'' : OpStore} (h : OwnArcOnly arc st st')
    (h' : OwnArcOnly arc st' st'') : OwnArcOnly arc st st'' :=
  ⟨h'.opList.trans h.opList, fun a ha => (h'.others a ha).trans (h.others a ha),
    fun hrel => h'.reliable (h.reliable hrel)⟩

theorem OwnArcOnly.stored {st st' : OpStore} (h : OwnArcOnly arc st st') :
    st'.stored = st.stored := by
  unfold OpStore.stored
  rw [h.opList]

theorem SameContent.ownArcOnly {st st' : OpStore} (h : SameContent st st') :
    OwnArcOnly arc st st' :=
  ⟨h.opList, fun _ _ => by rw [h.sliceHashes], h.reliable⟩

theorem SameContent.stored {st st' : OpStore} (h : SameContent st st') : st'.stored = st.stored := by
  unfold OpStore.stored
  rw [h.opList]

theorem returns_storeSliceHash_own {st st' : OpStore} {i : Nat} {hash : Bytes} {u : Unit}
    (h : Returns (storeSliceHash arc i hash) st u st') :
    hash ≠ [] ∧ OwnArcOnly arc st st' ∧
      ∀ k, (st'.sliceHashes arc)[k]? = if k = i then some hash else (st.sliceHashes arc)[k]? := by
  rcases returns_storeSliceHash h with ⟨hne, hops, hslices, hrel⟩
  refine ⟨hne, ⟨hops, ?_, hrel⟩, ?_⟩
  · intro arc' hne'
    rw [hslices, Function.update_of_ne hne']
  · intro k
    rw [hslices, Function.update_self, Std.ExtTreeMap.getElem?_insert]
    by_cases hk : k = i
    · subst hk
      simp
    · have hki : ¬ i = k := fun h => hk h.symm
      simp [hk, hki]

/-! ## New full slices -/

theorem returns_storeFullSlice {env env' : SectorEnv} {i : Nat} {hash : Bytes} {u : Unit}
    (h : Returns (TimePartition.storeFullSlice arc i hash) env u env') :
    env'.part = env.part ∧ OwnArcOnly arc env.store env'.store ∧
      ∀ k, (env'.store.sliceHashes arc)[k]? =
        if k = i ∧ hash ≠ [] then some hash else (env.store.sliceHashes arc)[k]? := by
  unfold TimePartition.storeFullSlice at h
  by_cases hnil : hash = []
  · rw [if_pos hnil] at h
    rcases returns_pure_iff.mp h with ⟨_, rfl⟩
    exact ⟨rfl, OwnArcOnly.refl _ _, fun k => by simp [hnil]⟩
  · rw [if_neg hnil] at h
    rcases returns_onStore_iff.mp h with ⟨st, hst, rfl⟩
    rcases returns_storeSliceHash_own hst with ⟨_, hown, hlook⟩
    exact ⟨rfl, hown, fun k => by simp [hlook k, hnil]⟩

/-- The loop over new full slices stores, for each of them, the XOR of the ops in it. -/
theorem returns_addFullSlices :
    ∀ (n : Nat) {env env' : SectorEnv} {u : Unit}, Shape f arc env.part →
      fullEnd f (env.part.fullSlices + n) ≤ i64Max →
      Returns (TimePartition.addFullSlices loc n (fullEnd f env.part.fullSlices)) env u env' →
      env'.part = { env.part with fullSlices := env.part.fullSlices + n } ∧
        OwnArcOnly arc env.store env'.store ∧
        ∀ k, (env'.store.sliceHashes arc)[k]? =
          if env.part.fullSlices ≤ k ∧ k < env.part.fullSlices + n ∧
              fullXor loc f arc env.store.stored k ≠ [] then
            some (fullXor loc f arc env.store.stored k)
          else (env.store.sliceHashes arc)[k]? := by
  intro n
  induction n with
  | zero =>
      intro env env' u _ _ h
      rcases returns_pure_iff.mp h with ⟨_, rfl⟩
      refine ⟨rfl, OwnArcOnly.refl _ _, ?_⟩
      intro k
      rw [if_neg (by omega)]
  | succ n ih =>
      intro env env' u hs hfit h
      -- one pass of the loop
      rw [TimePartition.addFullSlices] at h
      have h := returns_read_bind_iff.mp h
      rcases returns_lift_bind_iff.mp h with ⟨stop, hstop, h⟩
      rcases returns_bind_iff.mp h with ⟨ops, env1, hops, h⟩
      rcases returns_lift_bind_iff.mp h with ⟨hash, hhash, h⟩
      rcases returns_bind_iff.mp h with ⟨_, env2, hstore, h⟩
      have hrest := returns_modify_bind_iff.mp h
      rcases returns_onStore_iff.mp hops with ⟨st1, hret, henv1⟩
      subst henv1
      rw [hs.sectorConstraint] at hret hstore
      rcases returns_retrieveOpHashes hret with ⟨hopsEq, hsame⟩
      subst hopsEq
      rcases returns_storeFullSlice hstore with ⟨hpart, hown, hlook⟩
      -- the slice that was read is full slice `fullSlices`
      have hnext : fullEnd f (env.part.fullSlices + 1) ≤ i64Max :=
        le_trans (fullEnd_mono (by omega)) hfit
      have hstopEq : stop = fullEnd f (env.part.fullSlices + 1) := by
        rw [hs.fullSliceDuration, addDuration_of_le (fullEnd_nonneg _ _)
          (by rw [← fullEnd_succ]; exact hnext), ← fullEnd_succ] at hstop
        exact (Except.ok.inj hstop).symm
      have hhashEq : hash = fullXor loc f arc env.store.stored env.part.fullSlices := by
        rw [combine_slice_eq hhash, hstopEq]
        rfl
      simp only at hpart hown hlook
      have hown1 : OwnArcOnly arc env.store env2.store := hsame.ownArcOnly.trans hown
      have hshape : Shape f arc ({ env2 with
          part := { env2.part with fullSlices := env2.part.fullSlices + 1 } } : SectorEnv).part := by
        simp only [hpart]
        exact ⟨hs.factor, hs.fullSliceDuration, hs.minRecentTime, hs.sectorConstraint⟩
      have hcount : env2.part.fullSlices = env.part.fullSlices := by rw [hpart]
      rw [hstopEq, ← hcount] at hrest
      have hfit' : fullEnd f (env2.part.fullSlices + 1 + n) ≤ i64Max := by
        rw [hcount, Nat.add_assoc, Nat.add_comm 1 n]
        exact hfit
      rcases ih hshape hfit' hrest with ⟨hpart', hown', hlook'⟩
      simp only [hcount] at hpart' hown' hlook'
      refine ⟨?_, hown1.trans hown', ?_⟩
      · rw [hpart', hpart, Nat.add_assoc, Nat.add_comm 1 n]
      · intro k
        rw [hlook' k, hown1.stored, hlook k, hhashEq, hsame.sliceHashes]
        by_cases hk : k = env.part.fullSlices
        · subst hk
          by_cases hnil : fullXor loc f arc env.store.stored env.part.fullSlices = []
          · simp [hnil]
          · have h1 : ¬ (env.part.fullSlices + 1 ≤ env.part.fullSlices) := by omega
            simp [hnil, h1]
        · have h1 : (env.part.fullSlices + 1 ≤ k ∧ k < env.part.fullSlices + 1 + n) ↔
              (env.part.fullSlices ≤ k ∧ k < env.part.fullSlices + (n + 1)) := by omega
          simp only [hk, false_and, if_false]
          by_cases hin : env.part.fullSlices ≤ k ∧ k < env.part.fullSlices + (n + 1)
          · have hin' := h1.mpr hin
            simp [hin.1, hin.2, hin'.1, hin'.2]
          · have hin' : ¬ (env.part.fullSlices + 1 ≤ k ∧ k < env.part.fullSlices + 1 + n) :=
              fun h => hin (h1.mp h)
            rw [if_neg (fun h => hin' ⟨h.1, h.2.1⟩), if_neg (fun h => hin ⟨h.1, h.2.1⟩)]

/-! ## New partial slices -/

theorem earliestInArc_none {st : OpStore} (h : st.earliestInArc loc arc = none) :
    ∀ op ∈ st.stored, arc.contains (loc op.opId) = false := by
  intro op hop
  rcases List.mem_map.mp hop with ⟨r, hr, rfl⟩
  unfold OpStore.earliestInArc at h
  rw [List.min?_eq_none_iff, List.map_eq_nil_iff, List.filter_eq_nil_iff] at h
  simpa using h r hr

theorem earliestInArc_some {st : OpStore} {t : Int} (h : st.earliestInArc loc arc = some t) :
    ∀ op ∈ st.stored, arc.contains (loc op.opId) = true → t ≤ op.createdAt := by
  intro op hop hin
  rcases List.mem_map.mp hop with ⟨r, hr, rfl⟩
  unfold OpStore.earliestInArc at h
  have hmem : r.createdAt ∈
      (st.opList.filter fun op => arc.contains (loc op.opId)).map fun op => op.createdAt :=
    List.mem_map.mpr ⟨r, List.mem_filter.mpr ⟨hr, hin⟩, rfl⟩
  exact (List.le_min?_iff h).mp (le_refl t) _ hmem

theorem earliestInArc_mem {st : OpStore} {t : Int} (h : st.earliestInArc loc arc = some t) :
    ∃ op ∈ st.stored, arc.contains (loc op.opId) = true ∧ op.createdAt = t := by
  unfold OpStore.earliestInArc at h
  rcases List.mem_map.mp (List.min?_mem h) with ⟨r, hr, hrt⟩
  rcases List.mem_filter.mp hr with ⟨hr, hin⟩
  exact ⟨r.toStoredOp, List.mem_map.mpr ⟨r, hr, rfl⟩, hin, hrt⟩

/-- A slot that ends in machine range. -/
def SlotFits (slot : Int × Nat) : Prop :=
  0 ≤ slot.1 ∧ slot.1 + slotLen slot.2 ≤ i64Max ∧ slot.2 ≤ 54

/-- The slice that an update puts into a slot: the old hash if the slot was there before, else the
XOR of the ops in it. -/
def newSlice (loc : LocCb) (arc : DhtArc) (old : List PartialSlice) (ops : List StoredOp)
    (slot : Int × Nat) : PartialSlice where
  start := slot.1
  size := slot.2
  hash := (TimePartition.findPartial old slot.1 slot.2).getD (slotXor loc arc ops slot)

theorem slotStop_ok {slot : Int × Nat} (h : SlotFits slot) :
    sliceDuration slot.2 = .ok (sliceLen slot.2) ∧
      addDuration slot.1 (sliceLen slot.2) = .ok (slot.1 + slotLen slot.2) :=
  ⟨sliceDuration_ok h.2.2, addDuration_of_le h.1 h.2.1⟩

/-- Skipping slices before the earliest op loses nothing: the computed hash is the XOR of the slot. -/
theorem returns_computePartial {env env' : SectorEnv} {slot : Int × Nat} {hash : Bytes}
    (hs : Shape f arc env.part) (hslot : SlotFits slot)
    (h : Returns
      (TimePartition.computePartial loc (env.store.earliestInArc loc arc) slot.1 slot.2)
      env hash env') :
    hash = slotXor loc arc env.store.stored slot ∧ env'.part = env.part ∧
      SameContent env.store env'.store := by
  rcases slotStop_ok hslot with ⟨hdur, hstop⟩
  rcases returns_lift_bind_iff.mp h with ⟨d, hd, h⟩
  rw [hdur] at hd
  cases hd
  rcases returns_lift_bind_iff.mp h with ⟨stop, hst, h⟩
  rw [hstop] at hst
  cases hst
  cases hear : env.store.earliestInArc loc arc with
  | none =>
      -- no op in the arc at all
      rw [hear] at h
      rcases returns_pure_iff.mp h with ⟨rfl, rfl⟩
      refine ⟨?_, rfl, SameContent.refl _⟩
      refine (sliceXor_eq_nil ?_).symm
      intro op hop
      simp [inSlice, earliestInArc_none hear op hop]
  | some t =>
      rw [hear] at h
      simp only at h
      by_cases hge : slot.1 + slotLen slot.2 ≥ t
      · rw [if_pos hge] at h
        have h := returns_read_bind_iff.mp h
        rcases returns_bind_iff.mp h with ⟨ops, env1, hops, h⟩
        rcases returns_lift_iff.mp h with ⟨hcomb, rfl⟩
        rcases returns_onStore_iff.mp hops with ⟨st1, hret, rfl⟩
        rw [hs.sectorConstraint] at hret
        rcases returns_retrieveOpHashes hret with ⟨rfl, hsame⟩
        exact ⟨combine_slice_eq hcomb, rfl, hsame⟩
      · -- the slice ends before the earliest op
        rw [if_neg hge] at h
        rcases returns_pure_iff.mp h with ⟨rfl, rfl⟩
        refine ⟨?_, rfl, SameContent.refl _⟩
        refine (sliceXor_eq_nil ?_).symm
        intro op hop
        by_cases hin : arc.contains (loc op.opId) = true
        · have hle := earliestInArc_some hear op hop hin
          have hlate : ¬ op.createdAt < slot.1 + slotLen slot.2 := by omega
          simp [inSlice, hlate]
        · simp [inSlice, hin]

theorem returns_pushPartial {env env' : SectorEnv} {old : List PartialSlice} {slot : Int × Nat}
    {u : Unit} (hs : Shape f arc env.part) (hslot : SlotFits slot)
    (h : Returns (TimePartition.pushPartial loc old (env.store.earliestInArc loc arc) slot)
      env u env') :
    env'.part = { env.part with
        partialSlices := env.part.partialSlices ++ [newSlice loc arc old env.store.stored slot] } ∧
      SameContent env.store env'.store := by
  rcases returns_bind_iff.mp h with ⟨hash, env1, hhash, hpush⟩
  rw [returns_modifyPart_iff] at hpush
  subst hpush
  have hspec : hash = (newSlice loc arc old env.store.stored slot).hash ∧ env1.part = env.part ∧
      SameContent env.store env1.store := by
    unfold TimePartition.partialHash at hhash
    simp only [newSlice]
    cases hfind : TimePartition.findPartial old slot.1 slot.2 with
    | some reused =>
        rw [hfind] at hhash
        rcases returns_pure_iff.mp hhash with ⟨rfl, rfl⟩
        exact ⟨rfl, rfl, SameContent.refl _⟩
    | none =>
        rw [hfind] at hhash
        exact returns_computePartial hs hslot hhash
  rcases hspec with ⟨hh, hpart, hsame⟩
  refine ⟨?_, hsame⟩
  simp only [hpart, hh]
  rfl

theorem returns_pushPartials {old : List PartialSlice} :
    ∀ (newPartials : List (Int × Nat)) {env env' : SectorEnv} {u : Unit}, Shape f arc env.part →
      (∀ slot ∈ newPartials, SlotFits slot) →
      Returns (Eff.each (TimePartition.pushPartial loc old (env.store.earliestInArc loc arc))
        newPartials) env u env' →
      env'.part = { env.part with
          partialSlices := env.part.partialSlices ++
            newPartials.map (newSlice loc arc old env.store.stored) } ∧
        SameContent env.store env'.store := by
  intro newPartials
  induction newPartials with
  | nil =>
      intro env env' u _ _ h
      rcases returns_pure_iff.mp h with ⟨_, rfl⟩
      exact ⟨by simp, SameContent.refl _⟩
  | cons slot rest ih =>
      intro env env' u hs hfit h
      rcases returns_each_cons_iff.mp h with ⟨env1, h1, h2⟩
      rcases returns_pushPartial hs (hfit slot (by simp)) h1 with ⟨hpart, hsame⟩
      -- a push stores nothing, so the earliest time stays
      have hear : env1.store.earliestInArc loc arc = env.store.earliestInArc loc arc := by
        simp only [OpStore.earliestInArc, hsame.opList]
      rw [← hear] at h2
      have hs1 : Shape f arc env1.part := by
        rw [hpart]
        exact ⟨hs.factor, hs.fullSliceDuration, hs.minRecentTime, hs.sectorConstraint⟩
      rcases ih hs1 (fun s hmem => hfit s (by simp [hmem])) h2 with ⟨hpart', hsame'⟩
      refine ⟨?_, hsame.trans hsame'⟩
      rw [hpart', hsame.stored]
      simp [hpart]

theorem partialLayout_size_lt {n recent : Nat} {start : Int} {slot : Int × Nat}
    (h : slot ∈ partialLayout n start recent) : slot.2 < n := by
  induction n generalizing start recent with
  | zero =>
      cases h
  | succ i ih =>
      have hslots : ∀ count (s : Int), slot ∈ slots i count s → slot.2 = i := by
        intro count
        induction count with
        | zero =>
            intro s hmem
            cases hmem
        | succ count ihc =>
            intro s hmem
            rcases List.mem_cons.mp hmem with rfl | htail
            · rfl
            · exact ihc _ htail
      rw [partialLayout] at h
      rcases List.mem_append.mp h with hhere | hrest
      · have := hslots _ _ hhere
        omega
      · have := ih hrest
        omega

/-- The slots laid out up to a time in machine range are in machine range. -/
theorem slotFits_partialLayout (hf : f ≤ 53) {start t : Int} (hstart : 0 ≤ start) (hle : start ≤ t)
    (ht : t ≤ i64Max) {slot : Int × Nat}
    (h : slot ∈ partialLayout f start (t - start).toNat) : SlotFits slot := by
  rcases tiles_partialLayout f start (t - start).toNat with ⟨stop, htiles, hstop⟩
  rw [Int.toNat_of_nonneg (sub_nonneg.mpr hle)] at hstop
  rcases htiles.bounds slotLen_pos h with ⟨hlow, hhigh⟩
  have hsize := partialLayout_size_lt h
  exact ⟨by linarith, by linarith, by omega⟩

/-! ## A whole update -/

/-- The time of the next update, counted from the last partial slice. -/
def nextUpdateAfter (last : PartialSlice) : Except Fault Int := do
  let stop ← last.stop
  addDuration stop unitTime

/-- What a successful update at time `t` leaves behind. -/
structure Updated (loc : LocCb) (f : Nat) (arc : DhtArc) (t : Int) (env env' : SectorEnv) : Prop where
  shape : Shape f arc env'.part
  before : fullEnd f env.part.fullSlices ≤ t
  fullSlices : env'.part.fullSlices = max env.part.fullSlices (fullCount f t)
  after : fullEnd f env'.part.fullSlices ≤ t
  partialSlices : env'.part.partialSlices =
    (partialLayout f (fullEnd f env'.part.fullSlices) (t - fullEnd f env'.part.fullSlices).toNat).map
      (newSlice loc arc env.part.partialSlices env.store.stored)
  nextUpdate : ∀ last, env'.part.partialSlices.getLast? = some last →
    ∃ next, nextUpdateAfter last = .ok next
  own : OwnArcOnly arc env.store env'.store
  slices : ∀ k, (env'.store.sliceHashes arc)[k]? =
    if env.part.fullSlices ≤ k ∧ k < env'.part.fullSlices ∧
        fullXor loc f arc env.store.stored k ≠ [] then
      some (fullXor loc f arc env.store.stored k)
    else (env.store.sliceHashes arc)[k]?

theorem returns_updateFullSliceHashes {env env' : SectorEnv} {t : Int} {u : Unit}
    (hs : Shape f arc env.part) (hfit : fullEnd f env.part.fullSlices ≤ i64Max) (ht : t ≤ i64Max)
    (h : Returns (TimePartition.updateFullSliceHashes loc t) env u env') :
    fullEnd f env.part.fullSlices ≤ t ∧
      env'.part = { env.part with
        fullSlices := max env.part.fullSlices (fullCount f t) } ∧
      fullEnd f (max env.part.fullSlices (fullCount f t)) ≤ t ∧
      OwnArcOnly arc env.store env'.store ∧
      ∀ k, (env'.store.sliceHashes arc)[k]? =
        if env.part.fullSlices ≤ k ∧ k < max env.part.fullSlices (fullCount f t) ∧
            fullXor loc f arc env.store.stored k ≠ [] then
          some (fullXor loc f arc env.store.stored k)
        else (env.store.sliceHashes arc)[k]? := by
  have h := returns_read_bind_iff.mp h
  rcases returns_lift_bind_iff.mp h with ⟨n, hn, h⟩
  rcases returns_lift_bind_iff.mp h with ⟨e, he, h⟩
  rw [fullSliceEndTimestamp_ok hs hfit] at he
  cases he
  have hle := layoutFullSlices_le hs hfit hn
  -- the number of new slices is what brings the count up to fullCount, if anything is missing
  rcases layoutFullSlices_ok hs hle ht with ⟨n', hn', hmax⟩
  rw [hn] at hn'
  cases hn'
  have hafter : fullEnd f (max env.part.fullSlices (fullCount f t)) ≤ t := by
    rcases Nat.le_total env.part.fullSlices (fullCount f t) with hcase | hcase
    · rw [Nat.max_eq_right hcase]
      exact fullEnd_fullCount_le_self (le_trans (fullEnd_nonneg _ _) hle)
    · rw [Nat.max_eq_left hcase]
      exact hle
  have hroom : fullEnd f (env.part.fullSlices + n) ≤ i64Max := by
    rw [hmax]
    exact le_trans hafter ht
  rcases returns_addFullSlices n hs hroom h with ⟨hpart, hown, hlook⟩
  rw [hmax] at hpart hlook
  exact ⟨hle, hpart, hafter, hown, hlook⟩

theorem returns_scheduleNextUpdate {env env' : SectorEnv} {u : Unit}
    (h : Returns TimePartition.scheduleNextUpdate env u env') :
    (∃ next, env'.part = { env.part with nextUpdateAt := next }) ∧ env'.store = env.store ∧
      ∀ last, env.part.partialSlices.getLast? = some last →
        ∃ next, nextUpdateAfter last = .ok next := by
  have h := returns_read_bind_iff.mp h
  cases hlast : env.part.partialSlices.getLast? with
  | none =>
      rw [hlast] at h
      rcases returns_pure_iff.mp h with ⟨_, rfl⟩
      refine ⟨⟨_, rfl⟩, rfl, ?_⟩
      intro last hcon
      cases hcon
  | some last =>
      rw [hlast] at h
      rcases returns_lift_bind_iff.mp h with ⟨stop, hstop, h⟩
      rcases returns_lift_bind_iff.mp h with ⟨next, hnext, h⟩
      rw [returns_modifyPart_iff] at h
      subst h
      refine ⟨⟨next, rfl⟩, rfl, ?_⟩
      intro last' hlast'
      cases hlast'
      exact ⟨next, bind_eq_ok_iff.mpr ⟨stop, hstop, hnext⟩⟩

theorem returns_updatePartials (hf : f ≤ 53) {env env' : SectorEnv} {t : Int} {u : Unit}
    (hs : Shape f arc env.part) (hle : fullEnd f env.part.fullSlices ≤ t) (ht : t ≤ i64Max)
    (h : Returns (TimePartition.updatePartials loc (env.store.earliestInArc loc arc) t) env u env') :
    env'.part = { env.part with
        partialSlices :=
          (partialLayout f (fullEnd f env.part.fullSlices)
            (t - fullEnd f env.part.fullSlices).toNat).map
          (newSlice loc arc env.part.partialSlices env.store.stored) } ∧
      SameContent env.store env'.store := by
  have h := returns_read_bind_iff.mp h
  rcases returns_lift_bind_iff.mp h with ⟨e, he, h⟩
  rw [fullSliceEndTimestamp_ok hs (le_trans hle ht)] at he
  cases he
  rcases returns_lift_bind_iff.mp h with ⟨newPartials, hnew, h⟩
  rw [layoutPartials_ok hf hs (fullEnd_nonneg _ _) hle ht] at hnew
  cases hnew
  rcases returns_bind_iff.mp h with ⟨_, env1, hclear, h⟩
  rw [returns_modifyPart_iff] at hclear
  subst hclear
  have hs1 : Shape f arc
      ({ env with part := { env.part with partialSlices := [] } } : SectorEnv).part :=
    ⟨hs.factor, hs.fullSliceDuration, hs.minRecentTime, hs.sectorConstraint⟩
  -- the old slices are set aside, cleared and pushed anew from the layout
  rcases returns_pushPartials _ hs1
    (fun slot hslot => slotFits_partialLayout hf (fullEnd_nonneg _ _) hle ht hslot) h
    with ⟨hpart, hsame⟩
  refine ⟨?_, hsame⟩
  rw [hpart]
  simp

/-- The specification of `TimePartition::update`. -/
theorem returns_update (hf : f ≤ 53) {env env' : SectorEnv} {t : Int} {u : Unit}
    (hs : Shape f arc env.part) (hfit : fullEnd f env.part.fullSlices ≤ i64Max) (ht : t ≤ i64Max)
    (h : Returns (TimePartition.update loc t) env u env') : Updated loc f arc t env env' := by
  -- the four parts of the update: full slices, earliest op, partial slices, next update
  rcases returns_bind_iff.mp h with ⟨_, env1, hfull, h⟩
  have h := returns_read_bind_iff.mp h
  rcases returns_bind_iff.mp h with ⟨earliest, env2, hear, h⟩
  rcases returns_bind_iff.mp h with ⟨_, env3, hpartials, hsched⟩
  rcases returns_updateFullSliceHashes hs hfit ht hfull with ⟨hle, hpart1, hafter, hown1, hlook1⟩
  rcases returns_onStore_iff.mp hear with ⟨st2, hst2, rfl⟩
  have hs1 : Shape f arc env1.part := by
    rw [hpart1]
    exact ⟨hs.factor, hs.fullSliceDuration, hs.minRecentTime, hs.sectorConstraint⟩
  rw [hs1.sectorConstraint] at hst2
  rcases returns_earliestTimestamp hst2 with ⟨rfl, hsame2⟩
  have hfs1 : env1.part.fullSlices = max env.part.fullSlices (fullCount f t) := by rw [hpart1]
  have hearEq : env1.store.earliestInArc loc arc = st2.earliestInArc loc arc := by
    simp only [OpStore.earliestInArc, hsame2.opList]
  rw [hearEq] at hpartials
  have hs2 : Shape f arc ({ env1 with store := st2 } : SectorEnv).part := hs1
  rcases returns_updatePartials hf hs2 (by simp only [hfs1]; exact hafter) ht hpartials
    with ⟨hpart3, hsame3⟩
  rcases returns_scheduleNextUpdate hsched with ⟨⟨next, hpart4⟩, hstore4, hnext⟩
  simp only at hpart3 hsame3
  have hstored : st2.stored = env.store.stored := by rw [hsame2.stored, hown1.stored]
  have hold : env1.part.partialSlices = env.part.partialSlices := by rw [hpart1]
  have hfs : env'.part.fullSlices = max env.part.fullSlices (fullCount f t) := by
    rw [hpart4, hpart3, hfs1]
  refine ⟨?_, hle, hfs, by rw [hfs]; exact hafter, ?_, ?_, ?_, ?_⟩
  · rw [hpart4, hpart3]
    exact ⟨hs1.factor, hs1.fullSliceDuration, hs1.minRecentTime, hs1.sectorConstraint⟩
  · rw [hfs, hpart4, hpart3, hfs1, hold, hstored]
  · rw [hpart4]
    exact hnext
  · rw [hstore4]
    exact hown1.trans (hsame2.ownArcOnly.trans hsame3.ownArcOnly)
  · intro k
    rw [hstore4, hsame3.sliceHashes, hsame2.sliceHashes, hlook1 k, hfs]

end Dht
end Kitsune2
