import Kitsune2.Dht.Incremental

/-!
# Interleaved — storing, informing and updating as separate steps

The host stores an op first and informs the DHT of it later, and the update task runs on its own
clock in between.  An update reads the ops of the slices it lays out anew from the store, so an op
that is stored and not yet informed is counted there, and counted again when the DHT is informed of
it: XOR then removes it from the hash.

`QuietRun` is the condition under which this does not happen: no update lays out a slice with an op
that is still to be informed.
-/

namespace Kitsune2
namespace Dht

open Api Lib

namespace DhtState

variable {loc : LocCb} {t : Int}

/-! ## Runs -/

inductive HostStep
  | store (now : Int) (op : OpRecord)
  | inform (op : StoredOp)
  | update (now : Int)

def hostStep (loc : LocCb) : HostStep → DhtM Unit
  | .store _ op => Eff.modify fun d => { d with store := d.store.processIncomingOps [op] }
  | .inform op => informOpsStored loc [op]
  | .update now => update loc now

def hostRun (loc : LocCb) (steps : List HostStep) : DhtM Unit :=
  Eff.each (hostStep loc) steps

/-- The ops that are stored and still to be informed, after one step. -/
def pendingAfter (pending : List StoredOp) : HostStep → List StoredOp
  | .store _ op => pending ++ [op.toStoredOp]
  | .inform op => pending.erase op
  | .update _ => pending

/-- Every op is stored once and informed once, after it was stored, and the clock does not go
backwards. -/
def ValidInterleaving : Int → List Bytes → List StoredOp → List HostStep → Prop
  | _, _, _, [] => True
  | last, held, pending, .store now op :: rest =>
      last ≤ now ∧ now ≤ i64Max ∧ 0 ≤ op.createdAt ∧ op.createdAt ≤ now ∧ op.opId ∉ held ∧
        ValidInterleaving now (held ++ [op.opId]) (pending ++ [op.toStoredOp]) rest
  | last, held, pending, .inform op :: rest =>
      op ∈ pending ∧ ValidInterleaving last held (pending.erase op) rest
  | last, held, pending, .update now :: rest =>
      last ≤ now ∧ now ≤ i64Max ∧ ValidInterleaving now held pending rest

/-- An update from `t` to `t'` reads the op from the store: it lies in a slice that is new. -/
def FreshlyRead (t t' : Int) (op : StoredOp) : Prop :=
  (fullEnd timeFactor (fullCount timeFactor t) ≤ op.createdAt ∧
      op.createdAt < fullEnd timeFactor (fullCount timeFactor t')) ∨
    ∃ slot ∈ slotsAt timeFactor t', slot ∉ slotsAt timeFactor t ∧ InSlot slotLen slot op.createdAt

/-- No update reads an op that is still to be informed; `t` is the time of the last update. -/
def QuietRun : Int → List StoredOp → List HostStep → Prop
  | _, _, [] => True
  | t, pending, .update now :: rest =>
      (∀ op ∈ pending, ¬ FreshlyRead t now op) ∧ QuietRun now pending rest
  | t, pending, s :: rest => QuietRun t (pendingAfter pending s) rest

/-- The hash of every full and partial slice of every sector is the XOR of the ids of exactly the
stored ops in it; a slice hash that is not stored stands for the empty one. -/
def HashesExact (loc : LocCb) (d : DhtState) : Prop :=
  ∀ tp ∈ d.partition.sectors,
    (∀ k < tp.fullSlices, ((d.store.sliceHashes tp.sectorConstraint)[k]?).getD [] =
      sliceXor loc tp.sectorConstraint d.store.stored (fullEnd tp.factor k)
        (fullEnd tp.factor (k + 1))) ∧
    ∀ p ∈ tp.partialSlices,
      p.hash = sliceXor loc tp.sectorConstraint d.store.stored p.start (p.start + slotLen p.size)

/-! ## The invariant -/

/-- The counted ops and the pending ones together are the stored ones. -/
structure Counting (loc : LocCb) (t last : Int) (counted pending : List StoredOp) (d : DhtState) :
    Prop where
  accurate : PartitionAccurate loc timeFactor t counted d.env
  le : t ≤ last
  split : (counted ++ pending).Perm d.store.stored

/-- When nothing is pending, the hashes are exact. -/
theorem Counting.exact {last : Int} {counted : List StoredOp} {d : DhtState}
    (h : Counting loc t last counted [] d) : HashesExact loc d := by
  have hperm : counted.Perm d.store.stored := by simpa using h.split
  have hacc := h.accurate.perm hperm
  intro tp htp
  rcases List.mem_iff_getElem?.mp htp with ⟨i, hi⟩
  have hsector := hacc.sector i tp hi
  have hcon : tp.sectorConstraint = sectorArc i := hsector.shape.sectorConstraint
  have hfac : tp.factor = timeFactor := hsector.shape.factor
  have hfull : tp.fullSlices = fullCount timeFactor t := hsector.fullSlices
  rw [hcon, hfac, hfull]
  refine ⟨?_, ?_⟩
  · intro k hk
    have hslice : (d.store.sliceHashes (sectorArc i))[k]? =
        if k < fullCount timeFactor t then
          optHash (fullXor loc timeFactor (sectorArc i) d.store.stored k) else none :=
      hsector.slices k
    rw [hslice, if_pos hk, optHash_getD]
    rfl
  · intro p hp
    have hpartials : tp.partialSlices =
        (slotsAt timeFactor t).map (exactSlice loc (sectorArc i) d.store.stored) :=
      hsector.partialSlices
    rw [hpartials] at hp
    rcases List.mem_map.mp hp with ⟨slot, _, rfl⟩
    rfl

theorem Counting.store {last now : Int} {counted pending : List StoredOp} {d d' : DhtState}
    {op : OpRecord} {u : Unit} (h : Counting loc t last counted pending d) (hle : last ≤ now)
    (hnew : op.opId ∉ d.store.ids) (hids : d.store.ids.Nodup)
    (hret : Returns (hostStep loc (.store now op)) d u d') :
    Counting loc t now counted (pending ++ [op.toStoredOp]) d' ∧
      d'.store.ids = d.store.ids ++ [op.opId] := by
  have hret : d' = { d with store := d.store.processIncomingOps [op] } := returns_modify_iff.mp hret
  have hnd : (d.store.ids ++ [op].map fun op => op.opId).Nodup := by
    refine List.nodup_append.mpr ⟨hids, by simp, ?_⟩
    intro a ha b hb
    simp only [List.map_cons, List.map_nil, List.mem_singleton] at hb
    rw [hb]
    intro heq
    exact hnew (heq ▸ ha)
  rw [processIncomingOps_new [op] d.store hnd] at hret
  subst hret
  refine ⟨⟨?_, le_trans h.le hle, ?_⟩, by simp [OpStore.ids]⟩
  · refine ⟨h.accurate.size, h.accurate.length, ?_⟩
    intro i tp htp
    have hacc := h.accurate.sector i tp htp
    exact ⟨hacc.shape, hacc.nonneg, hacc.fits, hacc.fullSlices, hacc.partialSlices, hacc.slices⟩
  · simp only
    rw [stored_append, ← List.append_assoc]
    exact h.split.append_right _

theorem Counting.inform {last : Int} {counted pending : List StoredOp} {d d' : DhtState}
    {op : StoredOp} {u : Unit} (h : Counting loc t last counted pending d) (hop : op ∈ pending)
    (hpos : 0 ≤ op.createdAt) (hret : Returns (hostStep loc (.inform op)) d u d') :
    Counting loc t last (counted ++ [op]) (pending.erase op) d' ∧ d'.store.ids = d.store.ids := by
  rcases returns_bind_iff.mp hret with ⟨_, d1, hinf, hcount⟩
  rw [returns_modify_iff] at hcount
  rcases returns_onPartition_iff.mp hinf with ⟨env', hpart, rfl⟩
  have hone : ∀ o ∈ [op], 0 ≤ o.createdAt := by
    intro o ho
    rw [List.mem_singleton.mp ho]
    exact hpos
  rcases h.accurate.informed timeFactor_le hone hpart with ⟨hacc, hframe⟩
  have hlist : d'.store.opList = d.store.opList := by
    rw [hcount]
    exact hframe.opList
  refine ⟨⟨?_, h.le, ?_⟩, by simp [OpStore.ids, hlist]⟩
  · rw [hcount]
    exact hacc
  · have hstored : d'.store.stored = d.store.stored := by
      unfold OpStore.stored
      rw [hlist]
    rw [hstored, List.append_assoc, List.singleton_append]
    exact ((List.perm_cons_erase hop).symm.append_left counted).trans h.split

/-- Slices without pending ops look the same in the store and in the count. -/
theorem sliceXor_of_notPending {counted pending stored : List StoredOp} {arc : DhtArc}
    {start stop : Int} (hsplit : (counted ++ pending).Perm stored)
    (hnone : ∀ op ∈ pending, ¬ (start ≤ op.createdAt ∧ op.createdAt < stop)) :
    sliceXor loc arc stored start stop = sliceXor loc arc counted start stop := by
  have hnil : pending.filter (inSlice loc arc start stop) = [] := by
    rw [List.filter_eq_nil_iff]
    intro op hop hin
    simp only [inSlice, Bool.and_eq_true, decide_eq_true_eq] at hin
    exact hnone op hop hin.1
  have hperm := ((hsplit.filter (inSlice loc arc start stop)).map fun op => op.opId).symm
  rw [List.filter_append, hnil, List.append_nil] at hperm
  exact xorAll_perm hperm

theorem Counting.update {last now : Int} {counted pending : List StoredOp} {d d' : DhtState} {u : Unit}
    (h : Counting loc t last counted pending d) (hle : last ≤ now) (hfits : now ≤ i64Max)
    (hquiet : ∀ op ∈ pending, ¬ FreshlyRead t now op)
    (hret : Returns (hostStep loc (.update now)) d u d') :
    Counting loc now now counted pending d' ∧ d'.store.ids = d.store.ids := by
  rcases returns_onPartition_iff.mp hret with ⟨env', hpart, rfl⟩
  -- what the update reads afresh holds no pending op, so stored and counted agree there
  have hfresh : FreshAgree loc timeFactor t now d.env.store.stored counted := by
    intro i _
    refine ⟨?_, ?_⟩
    · intro k hlow hhigh
      apply sliceXor_of_notPending h.split
      rintro op hop ⟨hge, hlt⟩
      refine hquiet op hop (Or.inl ⟨?_, ?_⟩)
      · exact le_trans (fullEnd_mono hlow) hge
      · exact lt_of_lt_of_le hlt (fullEnd_mono hhigh)
    · intro slot hslot hnew
      apply sliceXor_of_notPending h.split
      intro op hop hin
      exact hquiet op hop (Or.inr ⟨slot, hslot, hnew, hin⟩)
  rcases h.accurate.updated timeFactor_le (le_trans h.le hle) hfits hfresh hpart
    with ⟨hacc, hframe, _⟩
  have hlist : env'.store.opList = d.store.opList := hframe.opList
  refine ⟨⟨hacc, le_refl now, ?_⟩, by simp [OpStore.ids, hlist]⟩
  have hstored : env'.store.stored = d.store.stored := by
    unfold OpStore.stored
    rw [hlist]
  simp only [hstored]
  exact h.split

/-- What every quiet run keeps. -/
theorem Counting.run :
    ∀ (steps : List HostStep) {t last : Int} {counted pending : List StoredOp} {d d' : DhtState}
      {u : Unit}, Counting loc t last counted pending d → d.store.ids.Nodup →
      (∀ op ∈ pending, 0 ≤ op.createdAt) →
      ValidInterleaving last d.store.ids pending steps → QuietRun t pending steps →
      Returns (hostRun loc steps) d u d' →
      ∃ t' last' counted', Counting loc t' last' counted' (steps.foldl pendingAfter pending) d' := by
  intro steps
  induction steps with
  | nil =>
      intro t last counted pending d d' u h _ _ _ _ hret
      rcases returns_pure_iff.mp hret with ⟨_, rfl⟩
      exact ⟨t, last, counted, h⟩
  | cons s steps ih =>
      intro t last counted pending d d' u h hnd hpos hvalid hquiet hret
      rcases returns_each_cons_iff.mp hret with ⟨d1, h1, h2⟩
      cases s with
      -- the op is pending until it is informed
      | store now op =>
          rcases hvalid with ⟨hle, _, hlow, _, hnew, hrest⟩
          rcases h.store hle hnew hnd h1 with ⟨hcount, hids⟩
          rw [← hids] at hrest
          have hnd1 : d1.store.ids.Nodup := by
            rw [hids]
            exact List.nodup_append.mpr ⟨hnd, by simp, fun a ha b hb heq => by
              rw [List.mem_singleton.mp hb] at heq
              exact hnew (heq ▸ ha)⟩
          refine ih hcount hnd1 ?_ hrest hquiet h2
          intro o ho
          rcases List.mem_append.mp ho with hold | hone
          · exact hpos o hold
          · rw [List.mem_singleton.mp hone]
            exact hlow
      | inform op =>
          rcases hvalid with ⟨hop, hrest⟩
          rcases h.inform hop (hpos op hop) h1 with ⟨hcount, hids⟩
          rw [← hids] at hrest hnd
          exact ih hcount hnd (fun o ho => hpos o (List.mem_of_mem_erase ho)) hrest hquiet h2
      -- nothing that the update would count is pending
      | update now =>
          rcases hvalid with ⟨hle, hfits, hrest⟩
          rcases hquiet with ⟨hnone, hquiet⟩
          rcases h.update hle hfits hnone h1 with ⟨hcount, hids⟩
          rw [← hids] at hrest hnd
          exact ih hcount hnd hpos hrest hquiet h2

/-- In every quiet run from a fresh store, whenever every stored op has been informed, the hashes of
all slices are exact. -/
theorem quiet_run_exact (loc : LocCb) {start : Int} (hstart : 0 ≤ start) (hfits : start ≤ i64Max)
    {st : OpStore} (hslices : ∀ arc, st.sliceHashes arc = ∅) (hnd : st.ids.Nodup)
    (hops : ∀ op ∈ st.opList, 0 ≤ op.createdAt ∧ op.createdAt ≤ start) {steps : List HostStep}
    (hvalid : ValidInterleaving start st.ids [] steps) (hquiet : QuietRun start [] steps)
    {d0 d : DhtState} (hd0 : tryFromStore loc start st = .ok d0)
    (hrun : Returns (hostRun loc steps) d0 () d) (hall : steps.foldl pendingAfter [] = []) :
    HashesExact loc d := by
  have hre : Rebuildable loc timeFactor start (List.range numSectors) st := by
    refine ⟨fun i _ => ⟨0, Nat.zero_le _, slicesStored_of_empty (hslices _)⟩, ?_⟩
    intro op hop
    rcases List.mem_map.mp hop with ⟨r, hr, rfl⟩
    exact hops r hr
  rcases accurate_of_rebuildable hstart hfits hre hd0 with ⟨hacc, hlist, _⟩
  have hids : d0.store.ids = st.ids := by simp [OpStore.ids, hlist]
  have hcount : Counting loc start start d0.store.stored [] d0 :=
    ⟨hacc, le_refl start, by simp⟩
  rw [← hids] at hvalid hnd
  rcases hcount.run steps hnd (fun op hop => (List.not_mem_nil hop).elim) hvalid hquiet hrun
    with ⟨t, last, counted, hdone⟩
  rw [hall] at hdone
  exact hdone.exact

/-! ## Both kinds of run -/

theorem emptyStore_returns (loc : LocCb) :
    ∃ d, tryFromStore loc 0 OpStore.empty = .ok d ∧ d.Accurate loc 0 ∧ d.store.opList = [] ∧
      d.store.failures = [] := by
  have hstart : StartStore 1 0 OpStore.empty :=
    ⟨rfl, fun _ => rfl, by simp [OpsAt, OpStore.empty], by simp [OpStore.ids, OpStore.empty]⟩
  rcases hstart.built loc (le_refl 0) (by rw [unitTime_eq]; decide) with ⟨d, hd, htrack, hlist⟩
  exact ⟨d, hd, htrack.accurate, hlist, htrack.reliable⟩

/-- An op of the epoch. -/
def sampleOp : OpRecord where
  opId := [1]
  createdAt := 5
  dataLen := 1

/-- Informed before the update that lays out its slice, the op is counted. -/
theorem quiet_run_exact_one :
    ∃ d0 d, tryFromStore (fun _ => 0) 0 OpStore.empty = .ok d0 ∧
      Returns (hostRun (fun _ => 0)
        [.store 10 sampleOp, .inform sampleOp.toStoredOp, .update 1800000000]) d0 () d ∧
      HashesExact (fun _ => 0) d := by
  rcases emptyStore_returns (fun _ => 0) with ⟨d0, hd0, hacc0, hlist0, hrel0⟩
  have htrack : Tracking (fun _ => 0) 1 0 0 d0 := by
    refine ⟨hacc0, le_refl 0, hrel0, ?_⟩
    rw [hlist0]
    intro op hop
    cases hop
  have hids0 : d0.store.ids = [] := by simp [OpStore.ids, hlist0]
  have hvalid : ValidRun 1 0 d0.store.ids [.storeAndInform 10 [sampleOp], .update 1800000000] := by
    simp [ValidRun, OpsAt, hids0, sampleOp, i64Max]
  have hruns : ∃ d, Returns (run (fun _ => 0) [.storeAndInform 10 [sampleOp], .update 1800000000])
      d0 () d := by
    refine htrack.run_returns (by decide) _ hvalid ?_
    intro s hs
    rw [unitTime_eq]
    simp only [List.mem_cons, List.not_mem_nil, or_false] at hs
    rcases hs with rfl | rfl
    · decide
    · decide
  rcases hruns with ⟨d, hrun⟩
  -- the atomic step is a store step followed by an inform step
  have hhost : Returns (hostRun (fun _ => 0)
      [.store 10 sampleOp, .inform sampleOp.toStoredOp, .update 1800000000]) d0 () d := by
    rcases returns_each_cons_iff.mp hrun with ⟨d1, hbatch, hrest⟩
    rcases returns_bind_iff.mp hbatch with ⟨_, dm, hstore, hinform⟩
    exact returns_each_cons_iff.mpr ⟨dm, hstore, returns_each_cons_iff.mpr ⟨d1, hinform, hrest⟩⟩
  refine ⟨d0, d, hd0, hhost, ?_⟩
  refine quiet_run_exact (fun _ => 0) (le_refl 0) (by decide) (fun _ => rfl)
    (by simp [OpStore.ids, OpStore.empty])
    (fun op hop => by cases hop) ?_ ?_ hd0 hhost ?_
  · simp [ValidInterleaving, OpStore.ids, OpStore.empty, sampleOp, i64Max]
  · simp [QuietRun, pendingAfter]
  · simp [pendingAfter]

/-! ## A run that is not quiet -/

/-- A partition without slices counts whatever one likes. -/
theorem accurate_of_noSlices {f : Nat} {counted counted' : List StoredOp} {e : HashEnv}
    (h : PartitionAccurate loc f t counted e) (hfull : fullCount f t = 0) (hslots : slotsAt f t = []) :
    PartitionAccurate loc f t counted' e := by
  refine ⟨h.size, h.length, ?_⟩
  intro i tp htp
  have hacc := h.sector i tp htp
  refine ⟨hacc.shape, hacc.nonneg, hacc.fits, hacc.fullSlices, ?_, ?_⟩
  · rw [hacc.partialSlices, hslots]
    rfl
  · intro k
    rw [hacc.slices k, hfull]
    simp

theorem freshAgree_same (loc : LocCb) (f : Nat) (t : Int) (stored counted : List StoredOp) :
    FreshAgree loc f t t stored counted :=
  fun _ _ => ⟨fun _ hlow hhigh => absurd hlow (not_le.mpr hhigh), fun _ hin hout => absurd hin hout⟩

/-- An op that is stored, read by an update and informed afterwards is lost from the hash of its
slice, although every stored op has been informed and an update has followed. -/
theorem informed_late_not_exact :
    ∃ d0 d, tryFromStore (fun _ => 0) 0 OpStore.empty = .ok d0 ∧
      ValidInterleaving 0 OpStore.empty.ids []
        [.store 10 sampleOp, .update 1800000000, .inform sampleOp.toStoredOp, .update 1800000000] ∧
      Returns (hostRun (fun _ => 0)
        [.store 10 sampleOp, .update 1800000000, .inform sampleOp.toStoredOp, .update 1800000000])
        d0 () d ∧
      [HostStep.store 10 sampleOp, .update 1800000000, .inform sampleOp.toStoredOp,
        .update 1800000000].foldl pendingAfter [] = [] ∧
      ¬ HashesExact (fun _ => 0) d := by
  rcases emptyStore_returns (fun _ => 0) with ⟨d0, hd0, hacc0, hlist0, hrel0⟩
  have hids : IdsOfLength 1 [sampleOp.toStoredOp] := by
    intro op hop
    rw [List.mem_singleton.mp hop]
    rfl
  have hnext : NextFits timeFactor 1800000000 :=
    nextFits_of_le (by decide) (by rw [unitTime_eq]; decide)
  -- the op is stored; at time zero there is no slice that could count it or not
  have hprocess : d0.store.processIncomingOps [sampleOp] =
      { d0.store with opList := d0.store.opList ++ [sampleOp] } := by
    apply processIncomingOps_new
    simp [OpStore.ids, hlist0]
  generalize hd1 : ({ d0 with store := d0.store.processIncomingOps [sampleOp] } : DhtState) = d1
  have hstored1 : d1.store.stored = [sampleOp.toStoredOp] := by
    rw [← hd1, hprocess]
    simp [OpStore.stored, hlist0]
  have hacc1 : PartitionAccurate (fun _ => 0) timeFactor 0 [sampleOp.toStoredOp] d1.env := by
    rw [← hd1, hprocess]
    exact accurate_of_noSlices (hacc0.storing [sampleOp]) (by decide) (by decide)
  have hrel1 : d1.store.failures = [] := by
    rw [← hd1, hprocess]
    exact hrel0
  -- the update reads it from the store
  rcases hacc1.update_returns timeFactor_le hrel1
    (by rw [show d1.env.store.stored = _ from hstored1]; exact hids) (by decide) (by decide)
    hnext with ⟨env2, hret2⟩
  rcases hacc1.updated timeFactor_le (by decide) (by decide)
    (by rw [show d1.env.store.stored = _ from hstored1]; exact freshAgree_self _ _ _ _ _) hret2
    with ⟨hacc2, hframe2, _⟩
  have hrel2 : env2.store.failures = [] := hframe2.reliable hrel1
  -- and the DHT is informed of it
  rcases hacc2.inform_returns timeFactor_le hrel2 hids (by decide) hids
    (fun op hop => by rw [List.mem_singleton.mp hop]; decide) with ⟨env3, hret3⟩
  rcases hacc2.informed timeFactor_le (fun op hop => by rw [List.mem_singleton.mp hop]; decide) hret3
    with ⟨hacc3, hframe3⟩
  have hrel3 : env3.store.failures = [] := hframe3.reliable hrel2
  have hstored3 : env3.store.stored = [sampleOp.toStoredOp] := by
    unfold OpStore.stored
    rw [hframe3.opList, hframe2.opList]
    exact hstored1
  rcases hacc3.update_returns timeFactor_le hrel3 (by rw [hstored3]; exact hids) (le_refl _)
    (by decide) hnext with ⟨env4, hret4⟩
  rcases hacc3.updated timeFactor_le (le_refl _) (by decide) (freshAgree_same _ _ _ _ _) hret4
    with ⟨hacc4, hframe4, _⟩
  have hstored4 : env4.store.stored = [sampleOp.toStoredOp] := by
    unfold OpStore.stored
    rw [hframe4.opList]
    exact hstored3
  refine ⟨d0, { partition := env4.partition, store := env4.store, opCount := d1.opCount + 1 }, hd0,
    ?_, ?_, ?_, ?_⟩
  · simp [ValidInterleaving, OpStore.ids, OpStore.empty, sampleOp, i64Max]
  · refine returns_each_cons_iff.mpr ⟨d1, returns_modify_iff.mpr hd1.symm, ?_⟩
    refine returns_each_cons_iff.mpr ⟨_, returns_onPartition_iff.mpr ⟨env2, hret2, rfl⟩, ?_⟩
    refine returns_each_cons_iff.mpr ⟨_, returns_bind_iff.mpr
      ⟨(), _, returns_onPartition_iff.mpr ⟨env3, hret3, rfl⟩, returns_modify_iff.mpr rfl⟩, ?_⟩
    refine returns_each_cons_iff.mpr ⟨_, returns_onPartition_iff.mpr ⟨env4, hret4, rfl⟩, ?_⟩
    exact returns_pure_iff.mpr ⟨rfl, rfl⟩
  · simp [pendingAfter]
  · intro hexact
    have hlt : 0 < env4.partition.sectors.length := by
      rw [hacc4.length]
      decide
    have hsector := hacc4.sector 0 _ (List.getElem?_eq_getElem hlt)
    have hslot : exactSlice (fun _ => 0) (sectorArc 0) [sampleOp.toStoredOp, sampleOp.toStoredOp]
        (0, 0) ∈ (env4.partition.sectors[0]).partialSlices := by
      rw [show (env4.partition.sectors[0]).partialSlices = _ from hsector.partialSlices]
      exact List.mem_map.mpr ⟨(0, 0), by decide, rfl⟩
    have hhash := (hexact _ (List.getElem_mem hlt)).2 _ hslot
    simp only [hstored4] at hhash
    rw [show (env4.partition.sectors[0]).sectorConstraint = _ from hsector.shape.sectorConstraint]
      at hhash
    exact absurd hhash (by decide)

end DhtState

end Dht
end Kitsune2
