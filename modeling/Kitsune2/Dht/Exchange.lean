import Kitsune2.Dht.Differences

/-!
# Exchange — two nodes compare their DHTs

One node sends its minimal snapshot; from then on the nodes take turns to handle the snapshot of the
other, until one of them finds nothing to compare or has sent the last list of ids.  A node keeps its
own detailed snapshot for its next turn, as `handle_snapshot` asks of its caller.

Between accurate DHTs of one time the exchange ends after at most four turns, and each list holds the
sender's ids of the differing cells, as far as its budget goes.
-/

namespace Kitsune2
namespace Dht

open Api Lib
open Std (ExtTreeMap)

namespace DhtState

/-! ## The exchange -/

/-- A node in an exchange: its DHT, its byte budget and the detailed snapshot it has kept. -/
structure Party where
  dht : DhtState
  budget : Int
  kept : Option DhtSnapshot

inductive Ending
  | identical
  | cannotCompare
  | listed
  deriving DecidableEq

/-- How an exchange ended: the number of snapshots that were handled, and the ids offered by the
node whose turn it was and by the other one. -/
structure Outcome where
  ending : Ending
  handled : Nat
  fromHandler : List Bytes
  fromOther : List Bytes
  deriving DecidableEq

/-- The outcome of the remaining turns, seen from the node that just had its turn. -/
def Outcome.afterTurn (opIds : List Bytes) (out : Outcome) : Outcome where
  ending := out.ending
  handled := out.handled + 1
  fromHandler := opIds ++ out.fromOther
  fromOther := out.fromHandler

/-- The caller of `handle_snapshot` captures the most detailed snapshots only. -/
def keep (snapshot : DhtSnapshot) : Option DhtSnapshot :=
  if isDetails snapshot then some snapshot else none

/-- The turns of an exchange, at most `turns` of them; `none` if it has not ended by then. -/
def exchange (loc : LocCb) (arcSet : ArcSet) :
    Nat → DhtSnapshot → Party → Party → Except Fault (Option Outcome)
  | 0, _, _, _ => .ok none
  | turns + 1, snapshot, handler, other => do
      let (action, _) ← handler.dht.handleSnapshot loc snapshot handler.kept arcSet handler.budget
      match action with
      | .identical => pure (some ⟨.identical, 1, [], []⟩)
      | .cannotCompare => pure (some ⟨.cannotCompare, 1, [], []⟩)
      | .hashList opIds => pure (some ⟨.listed, 1, opIds, []⟩)
      -- the answer goes back: the parties change places for the next turn
      | .newSnapshot answer => do
          let rest ← exchange loc arcSet turns answer other { handler with kept := keep answer }
          pure (rest.map (Outcome.afterTurn []))
      -- this side has listed its part and keeps no snapshot for a later turn
      | .newSnapshotAndHashList answer opIds => do
          let rest ← exchange loc arcSet turns answer other handler
          pure (rest.map (Outcome.afterTurn opIds))

/-- An exchange that `first` starts with its minimal snapshot. -/
def startExchange (loc : LocCb) (arcSet : ArcSet) (turns : Nat) (first second : Party) :
    Except Fault (Option Outcome) := do
  let snapshot ← first.dht.snapshotMinimal arcSet
  exchange loc arcSet turns snapshot second first

end DhtState

/-! ## Differences are found on every level -/

section Levels

variable {loc : LocCb} {f n : Nat} {t : Int} {a b : List StoredOp} {arcSet : ArcSet}

theorem minimalOf_eq_iff :
    minimalOf loc f t arcSet a = minimalOf loc f t arcSet b ↔
      ¬ DiscDiffers loc f t arcSet a b ∧ diffRings loc f t arcSet a b = [] := by
  have hrings : (slotsAt f t).map (ringXor loc a arcSet) = (slotsAt f t).map (ringXor loc b arcSet) ↔
      diffRings loc f t arcSet a b = [] := by
    rw [← map_slotAt f t (ringXor loc a arcSet), ← map_slotAt f t (ringXor loc b arcSet),
      List.map_inj_left]
    unfold diffRings
    rw [List.filter_eq_nil_iff]
    simp
  unfold minimalOf DiscDiffers
  rw [DhtSnapshot.minimal.injEq, hrings]
  simp

/-- If the discs differ, they differ in a sector. -/
theorem diffSectors_ne_nil (h : DiscDiffers loc f t arcSet a b) :
    diffSectors loc f t arcSet a b ≠ [] := by
  intro hnil
  apply h
  have hsame : ∀ i ∈ arcSet.sectors, discXor loc f t a i = discXor loc f t b i := by
    intro i hi
    by_contra hne
    have hmem : i ∈ diffSectors loc f t arcSet a b :=
      List.mem_filter.mpr ⟨hi, decide_eq_true hne⟩
    rw [hnil] at hmem
    cases hmem
  unfold boundaryAt
  rw [← xorAll_arcs, ← xorAll_arcs]
  exact congrArg xorAll (List.map_congr_left hsame)

/-- If a sector's discs differ, they differ in a slice. -/
theorem diffSlices_ne_nil {i : Nat} (h : discXor loc f t a i ≠ discXor loc f t b i) :
    diffSlices loc f t a b i ≠ [] := by
  intro hnil
  apply h
  have hsame : ∀ k ∈ List.range (fullCount f t),
      fullXor loc f (sectorArc i) a k = fullXor loc f (sectorArc i) b k := by
    intro k hk
    by_contra hne
    have hmem : k ∈ diffSlices loc f t a b i := List.mem_filter.mpr ⟨hk, decide_eq_true hne⟩
    rw [hnil] at hmem
    cases hmem
  unfold discXor
  rw [← xorAll_fullXor, ← xorAll_fullXor]
  exact congrArg xorAll (List.map_congr_left hsame)

/-- If a ring differs, it differs in a sector. -/
theorem diffRingSectors_ne_nil {r : Nat}
    (h : ringXor loc a arcSet (slotAt f t r) ≠ ringXor loc b arcSet (slotAt f t r)) :
    diffRingSectors loc f t arcSet a b r ≠ [] := by
  intro hnil
  apply h
  have hsame : ∀ i ∈ arcSet.sectors, slotXor loc (sectorArc i) a (slotAt f t r) =
      slotXor loc (sectorArc i) b (slotAt f t r) := by
    intro i hi
    by_contra hne
    have hmem : i ∈ diffRingSectors loc f t arcSet a b r :=
      List.mem_filter.mpr ⟨hi, decide_eq_true hne⟩
    rw [hnil] at hmem
    cases hmem
  unfold ringXor
  rw [← xorAll_arcs, ← xorAll_arcs]
  exact congrArg xorAll (List.map_congr_left hsame)

theorem discCells_ne_nil (h : DiscDiffers loc f t arcSet a b) :
    discCells loc f t arcSet a b ≠ [] := by
  rcases List.exists_mem_of_ne_nil _ (diffSectors_ne_nil h) with ⟨i, hi⟩
  have hdiff : discXor loc f t a i ≠ discXor loc f t b i :=
    of_decide_eq_true (List.mem_filter.mp hi).2
  rcases List.exists_mem_of_ne_nil _ (diffSlices_ne_nil hdiff) with ⟨k, hk⟩
  have hmem : fullCell f i k ∈ discCells loc f t arcSet a b :=
    List.mem_flatMap.mpr ⟨i, hi, List.mem_map.mpr ⟨k, hk, rfl⟩⟩
  exact List.ne_nil_of_mem hmem

theorem ringCells_ne_nil (h : diffRings loc f t arcSet a b ≠ []) :
    ringCells loc f t arcSet a b ≠ [] := by
  rcases List.exists_mem_of_ne_nil _ h with ⟨r, hr⟩
  have hdiff : ringXor loc a arcSet (slotAt f t r) ≠ ringXor loc b arcSet (slotAt f t r) :=
    of_decide_eq_true (List.mem_filter.mp hr).2
  rcases List.exists_mem_of_ne_nil _ (diffRingSectors_ne_nil hdiff) with ⟨i, hi⟩
  have hmem : slotCell (slotAt f t r) i ∈ ringCells loc f t arcSet a b :=
    List.mem_flatMap.mpr ⟨r, hr, List.mem_map.mpr ⟨i, hi, rfl⟩⟩
  exact List.ne_nil_of_mem hmem

theorem diffSectors_eq (loc : LocCb) (f : Nat) (t : Int) (arcSet : ArcSet) (a b : List StoredOp) :
    diffSectors loc f t arcSet a b = (List.range numSectors).filter fun i =>
      decide (discXor loc f t a i ≠ discXor loc f t b i) && arcSet.includesSectorIndex i := by
  unfold diffSectors ArcSet.sectors
  rw [List.filter_filter]

end Levels

/-! ## Turns -/

namespace DhtState

section Turns

variable {loc : LocCb} {n : Nat} {t : Int} {d : DhtState} {b : List StoredOp} {arcSet : ArcSet}

theorem Accurate.discSectors_ok (h : d.Accurate loc t) (hids : IdsOfLength n d.store.stored)
    (arcSet : ArcSet) :
    d.snapshotDiscSectors arcSet =
      .ok (.discSectors (sectorMap loc timeFactor t arcSet d.store.stored)
        (boundaryAt timeFactor t)) :=
  bind_eq_ok_iff.mpr ⟨_, h.discSectorHashes_ok hids arcSet, rfl⟩

theorem Accurate.discDetails_ok (h : d.Accurate loc t) (sectors : List Nat) (arcSet : ArcSet) :
    d.snapshotDiscSectorDetails sectors arcSet =
      .ok (.discSectorDetails (detailMap loc timeFactor t d.store.stored
        (arcSet.sectors.filter fun i => sectors.contains i)) (boundaryAt timeFactor t)) :=
  bind_eq_ok_iff.mpr ⟨_, PartitionAccurate.discDetails_ok h arcSet sectors, rfl⟩

/-- The order in which rings are asked for does not matter. -/
theorem Accurate.ringDetails_ok (h : d.Accurate loc t) (harcs : arcSet.coveredSectorCount ≠ 0)
    {asked rings : List Nat} (hasked : ∀ r, r ∈ asked ↔ r ∈ rings)
    (hbound : ∀ r ∈ rings, r < (slotsAt timeFactor t).length) :
    d.snapshotRingSectorDetails asked arcSet =
      .ok (.ringSectorDetails (ringDetailMap loc timeFactor t arcSet d.store.stored rings)
        (boundaryAt timeFactor t)) := by
  have hmap : insertAll ∅ asked (fun r => some (ringMap loc timeFactor t d.store.stored arcSet r)) =
      ringDetailMap loc timeFactor t arcSet d.store.stored rings := by
    apply ExtTreeMap.ext_getElem?
    intro r
    unfold ringDetailMap
    rw [getElem?_insertAll, getElem?_insertAll]
    simp only [hasked]
  have hdetails := PartitionAccurate.ringDetails_ok h harcs
    (fun r hr => hbound r ((hasked r).mp hr))
  rw [hmap] at hdetails
  exact bind_eq_ok_iff.mpr ⟨_, hdetails, rfl⟩

theorem diffRings_bound {f : Nat} {a : List StoredOp} {r : Nat}
    (hr : r ∈ diffRings loc f t arcSet a b) : r < (slotsAt f t).length :=
  List.mem_range.mp (List.mem_filter.mp hr).1

theorem mismatchedSlices_self (m : ExtTreeMap Nat (ExtTreeMap Nat Bytes)) :
    mismatchedSlices m m = ∅ := by
  apply ExtTreeMap.ext_getElem?
  intro i
  rw [ExtTreeMap.getElem?_empty]
  cases hi : m[i]? with
  | none =>
      have hnot := getElem?_eq_none_iff'.mp hi
      exact getElem?_mismatchedSlices_none hnot hnot
  | some slices =>
      rw [getElem?_mismatchedSlices hi hi, if_pos (mismatchedKeys_eq_nil_iff.mpr rfl)]

theorem not_mem_ringSlots_self {m : ExtTreeMap Nat (ExtTreeMap Nat Bytes)} {e : Nat × Nat} :
    e ∉ ringSlots (mismatchedRingSectors m m).toList := by
  intro he
  rcases List.mem_flatMap.mp he with ⟨⟨r, sectors⟩, hg, hmem⟩
  rcases List.mem_map.mp hmem with ⟨i, hi, rfl⟩
  have hget := ExtTreeMap.mem_toList_iff_getElem?_eq_some.mp hg
  cases hr : m[r]? with
  | none =>
      rw [getElem?_mismatchedRingSectors_none (getElem?_eq_none_iff'.mp hr)] at hget
      cases hget
  | some hashes =>
      rw [getElem?_mismatchedRingSectors hr hr, mismatchedKeys_eq_nil_iff.mpr rfl] at hget
      cases hget
      cases (List.mem_insertionSort _).mp hi

/-- The rings that a comparison of minimal snapshots reports. -/
theorem mem_mismatchedRings_iff {f : Nat} (hf : f ≤ 53) {a : List StoredOp} {r : Nat} :
    r ∈ hashMismatchIndices ((slotsAt f t).map (ringXor loc a arcSet))
        ((slotsAt f t).map (ringXor loc b arcSet)) ↔ r ∈ diffRings loc f t arcSet a b := by
  have hfits := length_slotsAt_le f hf t
  rw [mem_hashMismatchIndices_iff (by simp) (by simpa using hfits), List.length_map]
  unfold diffRings
  rw [List.mem_filter, List.mem_range, decide_eq_true_eq]
  refine and_congr_right ?_
  intro hr
  simp [slotAt, hr]

/-- A minimal snapshot is answered with the sectors of the disc, or with the rings that differ. -/
theorem Accurate.handle_minimal (h : d.Accurate loc t) (hids : IdsOfLength n d.store.stored)
    (harcs : arcSet.coveredSectorCount ≠ 0) (b : List StoredOp) (budget : Int) :
    d.handleSnapshot loc (minimalOf loc timeFactor t arcSet b) none arcSet budget = .ok
      (if minimalOf loc timeFactor t arcSet d.store.stored = minimalOf loc timeFactor t arcSet b then
        (.identical, 0)
      else if DiscDiffers loc timeFactor t arcSet d.store.stored b then
        (.newSnapshot (.discSectors (sectorMap loc timeFactor t arcSet d.store.stored)
          (boundaryAt timeFactor t)), 0)
      else (.newSnapshot (.ringSectorDetails (ringDetailMap loc timeFactor t arcSet d.store.stored
        (diffRings loc timeFactor t arcSet d.store.stored b)) (boundaryAt timeFactor t)), 0)) := by
  have hours : d.snapshotMinimal arcSet = .ok (minimalOf loc timeFactor t arcSet d.store.stored) :=
    h.snapshotMinimal_ok hids harcs
  unfold handleSnapshot
  rw [if_neg harcs]
  refine bind_eq_ok_iff.mpr ⟨_, hours, ?_⟩
  by_cases heq : minimalOf loc timeFactor t arcSet d.store.stored =
      minimalOf loc timeFactor t arcSet b
  · have hcompare : (minimalOf loc timeFactor t arcSet d.store.stored).compare
        (minimalOf loc timeFactor t arcSet b) = .identical := by
      unfold DhtSnapshot.compare
      rw [if_pos heq]
    rw [hcompare, if_pos heq]
    rfl
  · rw [if_neg heq]
    -- the disc decides first; only when it agrees are the rings compared
    by_cases hdisc : DiscDiffers loc timeFactor t arcSet d.store.stored b
    · have hcompare : (minimalOf loc timeFactor t arcSet d.store.stored).compare
          (minimalOf loc timeFactor t arcSet b) = .discMismatch := by
        unfold DhtSnapshot.compare
        rw [if_neg heq]
        simp only [minimalOf, ne_eq, not_true_eq_false, if_false]
        exact if_pos hdisc
      rw [hcompare, if_pos hdisc]
      exact bind_eq_ok_iff.mpr ⟨_, h.discSectors_ok hids arcSet, rfl⟩
    · have hsame := not_not.mp hdisc
      have hcompare : (minimalOf loc timeFactor t arcSet d.store.stored).compare
          (minimalOf loc timeFactor t arcSet b) = .ringMismatches
            (hashMismatchIndices ((slotsAt timeFactor t).map (ringXor loc d.store.stored arcSet))
              ((slotsAt timeFactor t).map (ringXor loc b arcSet))) := by
        unfold DhtSnapshot.compare
        rw [if_neg heq]
        simp only [minimalOf, ne_eq, not_true_eq_false, if_false, hsame, List.length_map]
      rw [hcompare, if_neg hdisc]
      exact bind_eq_ok_iff.mpr
        ⟨_, h.ringDetails_ok harcs (fun r => mem_mismatchedRings_iff timeFactor_le)
          (fun r hr => diffRings_bound hr),
          rfl⟩

/-- The sectors of the disc are answered with the slices of the sectors that differ. -/
theorem Accurate.handle_sectors (h : d.Accurate loc t) (hids : IdsOfLength n d.store.stored)
    (harcs : arcSet.coveredSectorCount ≠ 0) (budget : Int)
    (hdiff : DiscDiffers loc timeFactor t arcSet d.store.stored b) :
    d.handleSnapshot loc
        (.discSectors (sectorMap loc timeFactor t arcSet b) (boundaryAt timeFactor t)) none arcSet
        budget =
      .ok (.newSnapshot (.discSectorDetails (detailMap loc timeFactor t d.store.stored
        (diffSectors loc timeFactor t arcSet d.store.stored b)) (boundaryAt timeFactor t)), 0) := by
  have hne : sectorMap loc timeFactor t arcSet d.store.stored ≠ sectorMap loc timeFactor t arcSet b := by
    intro heq
    apply diffSectors_ne_nil hdiff
    rw [← select_mismatched, mismatchedKeys_eq_nil_iff.mpr heq]
    simp
  -- so the comparison reports the sectors whose hashes differ
  have hcompare : (DhtSnapshot.discSectors (sectorMap loc timeFactor t arcSet d.store.stored)
        (boundaryAt timeFactor t)).compare
      (.discSectors (sectorMap loc timeFactor t arcSet b) (boundaryAt timeFactor t)) =
      .discSectorMismatches (mismatchedKeys (sectorMap loc timeFactor t arcSet d.store.stored)
        (sectorMap loc timeFactor t arcSet b)) := by
    unfold DhtSnapshot.compare
    rw [if_neg (by simpa using hne)]
    simp
  unfold handleSnapshot
  rw [if_neg harcs]
  refine bind_eq_ok_iff.mpr ⟨_, h.discSectors_ok hids arcSet, ?_⟩
  rw [hcompare]
  refine bind_eq_ok_iff.mpr ⟨_, h.discDetails_ok _ arcSet, ?_⟩
  rw [select_mismatched]
  rfl

/-- The differing cells of the disc fit the `i32` in which bytes are counted. -/
theorem Accurate.handle_details (h : d.Accurate loc t) (harcs : arcSet.coveredSectorCount ≠ 0)
    (budget : Nat) (hdiff : DiscDiffers loc timeFactor t arcSet d.store.stored b)
    (hsize : weightOf loc d.store (discCells loc timeFactor t arcSet d.store.stored b) < 2 ^ 31)
    {kept : Option DhtSnapshot}
    (hkept : kept = none ∨ kept = some (.discSectorDetails (detailMap loc timeFactor t d.store.stored
      (diffSectors loc timeFactor t arcSet d.store.stored b)) (boundaryAt timeFactor t))) :
    ∃ found, d.handleSnapshot loc (.discSectorDetails (detailMap loc timeFactor t b
          (diffSectors loc timeFactor t arcSet d.store.stored b)) (boundaryAt timeFactor t)) kept
          arcSet budget =
        .ok (finishList ((kept.map isDetails).getD false)
          (.discSectorDetails (detailMap loc timeFactor t d.store.stored
            (diffSectors loc timeFactor t arcSet d.store.stored b)) (boundaryAt timeFactor t)) found) ∧
      Picks (cellIds loc d.store) (cellBytes loc d.store) budget ([], 0)
        (discCells loc timeFactor t arcSet d.store.stored b) found := by
  -- the cells that the comparison reports are the differing ones
  have hvisit := visit_slices loc timeFactor t d.store.stored b fun i =>
    decide (discXor loc timeFactor t d.store.stored i ≠ discXor loc timeFactor t b i) &&
      arcSet.includesSectorIndex i
  have hbounds : ∀ g ∈ (mismatchedSlices
        (detailMap loc timeFactor t d.store.stored
          (diffSectors loc timeFactor t arcSet d.store.stored b))
        (detailMap loc timeFactor t b
          (diffSectors loc timeFactor t arcSet d.store.stored b))).toList,
      g.1 < numSectors ∧ ∀ k ∈ g.2, k < fullCount timeFactor t := by
    intro g hg
    rw [diffSectors_eq] at hg
    exact visit_slices_bounds hg
  rw [← diffSectors_eq] at hvisit
  have hcells : cellsOfSectors timeFactor (mismatchedSlices
        (detailMap loc timeFactor t d.store.stored
          (diffSectors loc timeFactor t arcSet d.store.stored b))
        (detailMap loc timeFactor t b
          (diffSectors loc timeFactor t arcSet d.store.stored b))).toList =
      discCells loc timeFactor t arcSet d.store.stored b := hvisit
  rcases collectDisc_picks budget h _ ([], 0) hbounds (by rw [hcells]; simpa using hsize)
    with ⟨found, hcollect, hpicks⟩
  rw [hcells] at hpicks
  refine ⟨found, ?_, hpicks⟩
  -- our own snapshot is the kept one, or is computed for the same sectors
  have hours : d.matchingSnapshot (.discSectorDetails (detailMap loc timeFactor t b
        (diffSectors loc timeFactor t arcSet d.store.stored b)) (boundaryAt timeFactor t)) kept arcSet =
      .ok (.discSectorDetails (detailMap loc timeFactor t d.store.stored
        (diffSectors loc timeFactor t arcSet d.store.stored b)) (boundaryAt timeFactor t)) := by
    rcases hkept with rfl | rfl
    · have hdetails := h.discDetails_ok (detailMap loc timeFactor t b
        (diffSectors loc timeFactor t arcSet d.store.stored b)).keys arcSet
      rw [select_detailKeys] at hdetails
      exact hdetails
    · rfl
  have hne : detailMap loc timeFactor t d.store.stored
        (diffSectors loc timeFactor t arcSet d.store.stored b) ≠
      detailMap loc timeFactor t b (diffSectors loc timeFactor t arcSet d.store.stored b) := by
    intro heq
    rw [heq] at hcells
    apply discCells_ne_nil hdiff
    rw [← hcells]
    simp only [mismatchedSlices_self]
    rfl
  have hcompare : (DhtSnapshot.discSectorDetails (detailMap loc timeFactor t d.store.stored
          (diffSectors loc timeFactor t arcSet d.store.stored b)) (boundaryAt timeFactor t)).compare
        (.discSectorDetails (detailMap loc timeFactor t b
          (diffSectors loc timeFactor t arcSet d.store.stored b)) (boundaryAt timeFactor t)) =
      .discSectorSliceMismatches (mismatchedSlices
        (detailMap loc timeFactor t d.store.stored
          (diffSectors loc timeFactor t arcSet d.store.stored b))
        (detailMap loc timeFactor t b
          (diffSectors loc timeFactor t arcSet d.store.stored b))) := by
    unfold DhtSnapshot.compare
    rw [if_neg (by simpa using hne)]
    simp
  unfold handleSnapshot
  rw [if_neg harcs]
  refine bind_eq_ok_iff.mpr ⟨_, hours, ?_⟩
  rw [hcompare]
  exact bind_eq_ok_iff.mpr ⟨_, hcollect, rfl⟩

theorem Accurate.handle_rings (h : d.Accurate loc t) (harcs : arcSet.coveredSectorCount ≠ 0)
    (budget : Nat) (hdiff : diffRings loc timeFactor t arcSet d.store.stored b ≠ [])
    (hsize : weightOf loc d.store (ringCells loc timeFactor t arcSet d.store.stored b) < 2 ^ 31)
    {kept : Option DhtSnapshot}
    (hkept : kept = none ∨ kept = some (.ringSectorDetails
      (ringDetailMap loc timeFactor t arcSet d.store.stored
        (diffRings loc timeFactor t arcSet d.store.stored b)) (boundaryAt timeFactor t))) :
    ∃ found, d.handleSnapshot loc (.ringSectorDetails (ringDetailMap loc timeFactor t arcSet b
          (diffRings loc timeFactor t arcSet d.store.stored b)) (boundaryAt timeFactor t)) kept
          arcSet budget =
        .ok (finishList ((kept.map isDetails).getD false)
          (.ringSectorDetails (ringDetailMap loc timeFactor t arcSet d.store.stored
            (diffRings loc timeFactor t arcSet d.store.stored b)) (boundaryAt timeFactor t)) found) ∧
      Picks (cellIds loc d.store) (cellBytes loc d.store) budget ([], 0)
        (ringCells loc timeFactor t arcSet d.store.stored b) found := by
  generalize hrings : diffRings loc timeFactor t arcSet d.store.stored b = rings at *
  have hlt : ∀ r ∈ rings, r < (slotsAt timeFactor t).length := by
    intro r hr
    rw [← hrings] at hr
    exact diffRings_bound hr
  -- what the loop visits is exactly where the two sides differ
  have hcells : cellsOfRings timeFactor t (ringSlots (mismatchedRingSectors
        (ringDetailMap loc timeFactor t arcSet d.store.stored rings)
        (ringDetailMap loc timeFactor t arcSet b rings)).toList) =
      ringCells loc timeFactor t arcSet d.store.stored b := by
    unfold ringCells
    rw [hrings, ← hrings]
    exact visit_rings loc timeFactor t arcSet d.store.stored b _ _
  have hbounds : ∀ e ∈ ringSlots (mismatchedRingSectors
        (ringDetailMap loc timeFactor t arcSet d.store.stored rings)
        (ringDetailMap loc timeFactor t arcSet b rings)).toList,
      e.1 < (slotsAt timeFactor t).length ∧ e.2 < numSectors := by
    intro e he
    rcases visit_rings_bounds he with ⟨hr, hi⟩
    exact ⟨hlt _ hr, hi⟩
  rcases collectRings_picks budget h _ ([], 0) hbounds (by rw [hcells]; simpa using hsize)
    with ⟨found, hcollect, hpicks⟩
  rw [hcells] at hpicks
  refine ⟨found, ?_, hpicks⟩
  -- our side of the comparison is the kept snapshot or is built for the same rings
  have hours : d.matchingSnapshot (.ringSectorDetails (ringDetailMap loc timeFactor t arcSet b rings)
        (boundaryAt timeFactor t)) kept arcSet =
      .ok (.ringSectorDetails (ringDetailMap loc timeFactor t arcSet d.store.stored rings)
        (boundaryAt timeFactor t)) := by
    rcases hkept with rfl | rfl
    · refine h.ringDetails_ok harcs (fun r => ?_) hlt
      rw [ExtTreeMap.mem_keys]
      exact mem_insertAll_iff
    · rfl
  have hkeys : (ringDetailMap loc timeFactor t arcSet d.store.stored rings).keys =
      (ringDetailMap loc timeFactor t arcSet b rings).keys :=
    keys_eq_of_mem_iff fun r => mem_insertAll_iff.trans mem_insertAll_iff.symm
  -- the two maps differ, since some cell does
  have hne : ringDetailMap loc timeFactor t arcSet d.store.stored rings ≠
      ringDetailMap loc timeFactor t arcSet b rings := by
    intro heq
    rw [heq] at hcells
    apply ringCells_ne_nil (show diffRings loc timeFactor t arcSet d.store.stored b ≠ [] by
      rw [hrings]; exact hdiff)
    rw [← hcells]
    apply List.eq_nil_iff_forall_not_mem.mpr
    intro c hc
    rcases List.mem_map.mp hc with ⟨e, he, _⟩
    exact not_mem_ringSlots_self he
  have hcompare : (DhtSnapshot.ringSectorDetails
          (ringDetailMap loc timeFactor t arcSet d.store.stored rings)
          (boundaryAt timeFactor t)).compare
        (.ringSectorDetails (ringDetailMap loc timeFactor t arcSet b rings)
          (boundaryAt timeFactor t)) =
      .ringSectorMismatches (mismatchedRingSectors
        (ringDetailMap loc timeFactor t arcSet d.store.stored rings)
        (ringDetailMap loc timeFactor t arcSet b rings)) := by
    unfold DhtSnapshot.compare
    rw [if_neg (by simpa using hne)]
    simp [hkeys]
  unfold handleSnapshot
  rw [if_neg harcs]
  refine bind_eq_ok_iff.mpr ⟨_, hours, ?_⟩
  rw [hcompare]
  exact bind_eq_ok_iff.mpr ⟨_, hcollect, rfl⟩

end Turns

/-! ## Whole exchanges -/

section Whole

variable {loc : LocCb} {n : Nat} {t : Int} {arcSet : ArcSet} {A B : DhtState}

/-- Two DHTs that are accurate for the same time, to be compared over a set of sectors. -/
structure Comparable (loc : LocCb) (n : Nat) (t : Int) (arcSet : ArcSet) (A B : DhtState) : Prop where
  left : A.Accurate loc t
  right : B.Accurate loc t
  leftIds : IdsOfLength n A.store.stored
  rightIds : IdsOfLength n B.store.stored
  arcs : arcSet.coveredSectorCount ≠ 0

/-- The differing cells, as both nodes visit them. -/
def cellsBetween (loc : LocCb) (t : Int) (arcSet : ArcSet) (A B : DhtState) : List Cell :=
  diffCells loc timeFactor t arcSet A.store.stored B.store.stored

/-- The minimal snapshots of the two DHTs are the same. -/
def SameMinimal (arcSet : ArcSet) (A B : DhtState) : Prop :=
  A.snapshotMinimal arcSet = B.snapshotMinimal arcSet

theorem Comparable.sameMinimal_iff (h : Comparable loc n t arcSet A B) :
    SameMinimal arcSet A B ↔ minimalOf loc timeFactor t arcSet A.store.stored =
      minimalOf loc timeFactor t arcSet B.store.stored := by
  have hA : A.snapshotMinimal arcSet = .ok (minimalOf loc timeFactor t arcSet A.store.stored) :=
    h.left.snapshotMinimal_ok h.leftIds h.arcs
  have hB : B.snapshotMinimal arcSet = .ok (minimalOf loc timeFactor t arcSet B.store.stored) :=
    h.right.snapshotMinimal_ok h.rightIds h.arcs
  unfold SameMinimal
  rw [hA, hB, Except.ok.injEq]

/-- What an exchange ends with: each list is a budgeted pick from the differing cells. -/
structure ExchangeResult (loc : LocCb) (t : Int) (arcSet : ArcSet) (budgetA budgetB : Nat)
    (A B : DhtState) (out : Outcome) : Prop where
  fromFirst : ∃ used, Picks (cellIds loc A.store) (cellBytes loc A.store) budgetA ([], 0)
    (cellsBetween loc t arcSet A B) (out.fromOther, used)
  fromSecond : ∃ used, Picks (cellIds loc B.store) (cellBytes loc B.store) budgetB ([], 0)
    (cellsBetween loc t arcSet A B) (out.fromHandler, used)
  bounded : out.handled ≤ 4
  identical : SameMinimal arcSet A B → out.ending = .identical ∧ out.handled = 1
  listed : ¬ SameMinimal arcSet A B → out.ending = .listed

theorem exchange_step {turns : Nat} {snapshot answer : DhtSnapshot} (handler : Party)
    {other : Party} {rest : Option Outcome} {used : Nat}
    (h : handler.dht.handleSnapshot loc snapshot handler.kept arcSet handler.budget =
      .ok (.newSnapshot answer, used))
    (hrest : exchange loc arcSet turns answer other { handler with kept := keep answer } = .ok rest) :
    exchange loc arcSet (turns + 1) snapshot handler other =
      .ok (rest.map (Outcome.afterTurn [])) := by
  refine bind_eq_ok_iff.mpr ⟨_, h, ?_⟩
  exact bind_eq_ok_iff.mpr ⟨_, hrest, rfl⟩

/-- The last two turns, in which both nodes list ids. -/
theorem exchange_lists {turns : Nat} {snapshot answer : DhtSnapshot} {handler other : Party}
    {found found' : Collected}
    (h : handler.dht.handleSnapshot loc snapshot handler.kept arcSet handler.budget =
      .ok (.newSnapshotAndHashList answer found.1, found.2))
    (h' : other.dht.handleSnapshot loc answer other.kept arcSet other.budget =
      .ok (.hashList found'.1, found'.2)) :
    exchange loc arcSet (turns + 2) snapshot handler other =
      .ok (some ⟨.listed, 2, found.1, found'.1⟩) := by
  refine bind_eq_ok_iff.mpr ⟨_, h, ?_⟩
  have hlast : exchange loc arcSet (turns + 1) answer other handler =
      .ok (some ⟨.listed, 1, found'.1, []⟩) := bind_eq_ok_iff.mpr ⟨_, h', rfl⟩
  refine bind_eq_ok_iff.mpr ⟨_, hlast, ?_⟩
  simp [Outcome.afterTurn, pure, Except.pure]

theorem Comparable.exchange_disc (h : Comparable loc n t arcSet A B) (budgetA budgetB turns : Nat)
    (hdiff : DiscDiffers loc timeFactor t arcSet A.store.stored B.store.stored)
    (hsizeA : weightOf loc A.store (cellsBetween loc t arcSet A B) < 2 ^ 31)
    (hsizeB : weightOf loc B.store (cellsBetween loc t arcSet A B) < 2 ^ 31) :
    ∃ out, startExchange loc arcSet (turns + 4) ⟨A, budgetA, none⟩ ⟨B, budgetB, none⟩ =
        .ok (some out) ∧ ExchangeResult loc t arcSet budgetA budgetB A B out := by
  have hcells : cellsBetween loc t arcSet A B =
      discCells loc timeFactor t arcSet A.store.stored B.store.stored := if_pos hdiff
  have hdiff' := discDiffers_comm.mp hdiff
  have hcells' : cellsBetween loc t arcSet A B =
      discCells loc timeFactor t arcSet B.store.stored A.store.stored := by
    unfold cellsBetween
    rw [diffCells_comm]
    exact if_pos hdiff'
  have hne : ¬ minimalOf loc timeFactor t arcSet B.store.stored =
      minimalOf loc timeFactor t arcSet A.store.stored := fun heq =>
    (minimalOf_eq_iff.mp heq).1 hdiff'
  have hstart : A.snapshotMinimal arcSet = .ok (minimalOf loc timeFactor t arcSet A.store.stored) :=
    h.left.snapshotMinimal_ok h.leftIds h.arcs
  -- second: minimal to sectors; first: sectors to details; then both list
  have hturn1 := h.right.handle_minimal h.rightIds h.arcs A.store.stored budgetB
  rw [if_neg hne, if_pos hdiff'] at hturn1
  have hturn2 := h.left.handle_sectors h.leftIds h.arcs budgetA hdiff
  rcases h.right.handle_details h.arcs budgetB hdiff' (by rw [← hcells']; exact hsizeB) (Or.inl rfl)
    with ⟨foundB, hturn3, hpicksB⟩
  rcases h.left.handle_details h.arcs budgetA hdiff (by rw [← hcells]; exact hsizeA) (Or.inr rfl)
    with ⟨foundA, hturn4, hpicksA⟩
  rw [diffSectors_comm loc timeFactor t arcSet B.store.stored] at hturn3
  have hlists : exchange loc arcSet (turns + 2) _
      ⟨B, budgetB, keep (.discSectors (sectorMap loc timeFactor t arcSet B.store.stored)
        (boundaryAt timeFactor t))⟩
      ⟨A, budgetA, keep (.discSectorDetails (detailMap loc timeFactor t A.store.stored
        (diffSectors loc timeFactor t arcSet A.store.stored B.store.stored))
        (boundaryAt timeFactor t))⟩ = _ := exchange_lists hturn3 hturn4
  have hexchange := exchange_step ⟨B, budgetB, none⟩ hturn1
    (exchange_step ⟨A, budgetA, none⟩ hturn2 hlists)
  refine ⟨⟨.listed, 4, foundB.1, foundA.1⟩, bind_eq_ok_iff.mpr ⟨_, hstart, ?_⟩, ?_⟩
  · rw [hexchange]
    simp [Outcome.afterTurn]
  · refine ⟨⟨foundA.2, ?_⟩, ⟨foundB.2, ?_⟩, le_refl 4, ?_, fun _ => rfl⟩
    · rw [hcells]
      exact hpicksA
    · rw [hcells']
      exact hpicksB
    · intro hsame
      exact absurd (h.sameMinimal_iff.mp hsame).symm hne

theorem Comparable.exchange_rings (h : Comparable loc n t arcSet A B) (budgetA budgetB turns : Nat)
    (hdisc : ¬ DiscDiffers loc timeFactor t arcSet A.store.stored B.store.stored)
    (hdiff : diffRings loc timeFactor t arcSet A.store.stored B.store.stored ≠ [])
    (hsizeA : weightOf loc A.store (cellsBetween loc t arcSet A B) < 2 ^ 31)
    (hsizeB : weightOf loc B.store (cellsBetween loc t arcSet A B) < 2 ^ 31) :
    ∃ out, startExchange loc arcSet (turns + 4) ⟨A, budgetA, none⟩ ⟨B, budgetB, none⟩ =
        .ok (some out) ∧ ExchangeResult loc t arcSet budgetA budgetB A B out := by
  have hcells : cellsBetween loc t arcSet A B =
      ringCells loc timeFactor t arcSet A.store.stored B.store.stored := if_neg hdisc
  have hdisc' : ¬ DiscDiffers loc timeFactor t arcSet B.store.stored A.store.stored :=
    fun hd => hdisc (discDiffers_comm.mp hd)
  have hcells' : cellsBetween loc t arcSet A B =
      ringCells loc timeFactor t arcSet B.store.stored A.store.stored := by
    unfold cellsBetween
    rw [diffCells_comm]
    exact if_neg hdisc'
  have hdiff' : diffRings loc timeFactor t arcSet B.store.stored A.store.stored ≠ [] := by
    rw [diffRings_comm]
    exact hdiff
  have hne : ¬ minimalOf loc timeFactor t arcSet B.store.stored =
      minimalOf loc timeFactor t arcSet A.store.stored := fun heq =>
    hdiff' (minimalOf_eq_iff.mp heq).2
  have hstart : A.snapshotMinimal arcSet = .ok (minimalOf loc timeFactor t arcSet A.store.stored) :=
    h.left.snapshotMinimal_ok h.leftIds h.arcs
  -- second: minimal to ring details; then both list, the first one before the second
  have hturn1 := h.right.handle_minimal h.rightIds h.arcs A.store.stored budgetB
  rw [if_neg hne, if_neg hdisc'] at hturn1
  rcases h.left.handle_rings h.arcs budgetA hdiff (by rw [← hcells]; exact hsizeA) (Or.inl rfl)
    with ⟨foundA, hturn2, hpicksA⟩
  rcases h.right.handle_rings h.arcs budgetB hdiff' (by rw [← hcells']; exact hsizeB) (Or.inr rfl)
    with ⟨foundB, hturn3, hpicksB⟩
  rw [diffRings_comm loc timeFactor t arcSet A.store.stored] at hturn2
  have hlists : exchange loc arcSet (turns + 1 + 2) _ ⟨A, budgetA, none⟩
      ⟨B, budgetB, keep (.ringSectorDetails (ringDetailMap loc timeFactor t arcSet B.store.stored
        (diffRings loc timeFactor t arcSet B.store.stored A.store.stored))
        (boundaryAt timeFactor t))⟩ = _ := exchange_lists hturn2 hturn3
  have hexchange := exchange_step ⟨B, budgetB, none⟩ hturn1 hlists
  refine ⟨⟨.listed, 3, foundB.1, foundA.1⟩, bind_eq_ok_iff.mpr ⟨_, hstart, ?_⟩, ?_⟩
  · rw [hexchange]
    simp [Outcome.afterTurn]
  · refine ⟨⟨foundA.2, ?_⟩, ⟨foundB.2, ?_⟩, Nat.le_succ 3, ?_, fun _ => rfl⟩
    · rw [hcells]
      exact hpicksA
    · rw [hcells']
      exact hpicksB
    · intro hsame
      exact absurd (h.sameMinimal_iff.mp hsame).symm hne

/-- Where the minimal snapshots are the same, no cell is found to differ. -/
theorem Comparable.cells_eq_nil (h : Comparable loc n t arcSet A B) (hsame : SameMinimal arcSet A B) :
    cellsBetween loc t arcSet A B = [] := by
  rcases minimalOf_eq_iff.mp (h.sameMinimal_iff.mp hsame) with ⟨hdisc, hrings⟩
  unfold cellsBetween diffCells ringCells
  rw [if_neg hdisc, hrings]
  rfl

/-- An exchange between comparable DHTs ends, after at most four turns. -/
theorem Comparable.exchange_ends (h : Comparable loc n t arcSet A B) (budgetA budgetB turns : Nat)
    (hsizeA : weightOf loc A.store (cellsBetween loc t arcSet A B) < 2 ^ 31)
    (hsizeB : weightOf loc B.store (cellsBetween loc t arcSet A B) < 2 ^ 31) :
    ∃ out, startExchange loc arcSet (turns + 4) ⟨A, budgetA, none⟩ ⟨B, budgetB, none⟩ =
        .ok (some out) ∧ ExchangeResult loc t arcSet budgetA budgetB A B out := by
  by_cases hdisc : DiscDiffers loc timeFactor t arcSet A.store.stored B.store.stored
  · exact h.exchange_disc budgetA budgetB turns hdisc hsizeA hsizeB
  by_cases hrings : diffRings loc timeFactor t arcSet A.store.stored B.store.stored = []
  · -- nothing differs
    have heq := minimalOf_eq_iff.mpr ⟨hdisc, hrings⟩
    have hsame := h.sameMinimal_iff.mpr heq
    have hcells := h.cells_eq_nil hsame
    have hstart : A.snapshotMinimal arcSet =
        .ok (minimalOf loc timeFactor t arcSet A.store.stored) :=
      h.left.snapshotMinimal_ok h.leftIds h.arcs
    have hturn := h.right.handle_minimal h.rightIds h.arcs A.store.stored budgetB
    rw [if_pos heq.symm] at hturn
    refine ⟨⟨.identical, 1, [], []⟩, bind_eq_ok_iff.mpr ⟨_, hstart, ?_⟩, ?_⟩
    · exact bind_eq_ok_iff.mpr ⟨_, hturn, rfl⟩
    · refine ⟨⟨0, ?_⟩, ⟨0, ?_⟩, by decide, fun _ => ⟨rfl, rfl⟩, fun hnot => absurd hsame hnot⟩
      · rw [hcells]
        exact Picks.nil
      · rw [hcells]
        exact Picks.nil
  · exact h.exchange_rings budgetA budgetB turns hdisc hrings hsizeA hsizeB

end Whole

end DhtState

end Dht
end Kitsune2
