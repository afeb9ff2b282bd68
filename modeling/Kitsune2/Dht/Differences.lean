import Kitsune2.Dht.Collect

/-!
# Differences — the cells in which two accurate DHTs differ

Two DHTs that are accurate for the same time and compared over the same arc set have snapshots of
one shape.  Comparing two of them finds the sectors, slices and rings whose hashes differ, and both
nodes find the same ones: the differing cells, in the order in which both visit them.
-/

namespace Kitsune2
namespace Dht

open Api Lib
open Std (ExtTreeMap)

variable {loc : LocCb} {f n : Nat} {t : Int} {a b : List StoredOp} {arcSet : ArcSet}

/-! ## The snapshots of a set of ops -/

/-- The end of the disc. -/
def boundaryAt (f : Nat) (t : Int) : Int :=
  fullEnd f (fullCount f t)

def minimalOf (loc : LocCb) (f : Nat) (t : Int) (arcSet : ArcSet) (ops : List StoredOp) :
    DhtSnapshot :=
  .minimal (regionXor ops (inArcs loc arcSet 0 (boundaryAt f t))) (boundaryAt f t)
    ((slotsAt f t).map (ringXor loc ops arcSet))

/-- The hashes of the discs of the sectors. -/
def sectorMap (loc : LocCb) (f : Nat) (t : Int) (arcSet : ArcSet) (ops : List StoredOp) :
    ExtTreeMap Nat Bytes :=
  insertAll ∅ arcSet.sectors fun i => optHash (discXor loc f t ops i)

/-- The slice hashes of some sectors. -/
def detailMap (loc : LocCb) (f : Nat) (t : Int) (ops : List StoredOp) (sectors : List Nat) :
    ExtTreeMap Nat (ExtTreeMap Nat Bytes) :=
  insertAll ∅ sectors fun i => some (sliceMap loc f t ops i)

/-- The sector hashes of some rings. -/
def ringDetailMap (loc : LocCb) (f : Nat) (t : Int) (arcSet : ArcSet) (ops : List StoredOp)
    (rings : List Nat) : ExtTreeMap Nat (ExtTreeMap Nat Bytes) :=
  insertAll ∅ rings fun r => some (ringMap loc f t ops arcSet r)

/-! ## What differs -/

/-- The disc hashes over the arc set differ. -/
def DiscDiffers (loc : LocCb) (f : Nat) (t : Int) (arcSet : ArcSet) (a b : List StoredOp) : Prop :=
  regionXor a (inArcs loc arcSet 0 (boundaryAt f t)) ≠
    regionXor b (inArcs loc arcSet 0 (boundaryAt f t))

instance : Decidable (DiscDiffers loc f t arcSet a b) :=
  inferInstanceAs (Decidable (_ ≠ _))

/-- The sectors whose discs differ. -/
def diffSectors (loc : LocCb) (f : Nat) (t : Int) (arcSet : ArcSet) (a b : List StoredOp) :
    List Nat :=
  arcSet.sectors.filter fun i => discXor loc f t a i ≠ discXor loc f t b i

/-- The slices of a sector that differ. -/
def diffSlices (loc : LocCb) (f : Nat) (t : Int) (a b : List StoredOp) (i : Nat) : List Nat :=
  (List.range (fullCount f t)).filter fun k =>
    fullXor loc f (sectorArc i) a k ≠ fullXor loc f (sectorArc i) b k

/-- The differing cells of the disc. -/
def discCells (loc : LocCb) (f : Nat) (t : Int) (arcSet : ArcSet) (a b : List StoredOp) :
    List Cell :=
  (diffSectors loc f t arcSet a b).flatMap fun i => (diffSlices loc f t a b i).map (fullCell f i)

/-- The rings that differ. -/
def diffRings (loc : LocCb) (f : Nat) (t : Int) (arcSet : ArcSet) (a b : List StoredOp) :
    List Nat :=
  (List.range (slotsAt f t).length).filter fun r =>
    ringXor loc a arcSet (slotAt f t r) ≠ ringXor loc b arcSet (slotAt f t r)

/-- The sectors that differ in a ring. -/
def diffRingSectors (loc : LocCb) (f : Nat) (t : Int) (arcSet : ArcSet) (a b : List StoredOp)
    (r : Nat) : List Nat :=
  arcSet.sectors.filter fun i =>
    slotXor loc (sectorArc i) a (slotAt f t r) ≠ slotXor loc (sectorArc i) b (slotAt f t r)

/-- The differing cells of the rings. -/
def ringCells (loc : LocCb) (f : Nat) (t : Int) (arcSet : ArcSet) (a b : List StoredOp) :
    List Cell :=
  (diffRings loc f t arcSet a b).flatMap fun r =>
    (diffRingSectors loc f t arcSet a b r).map (slotCell (slotAt f t r))

/-- The cells that one exchange is about: those of the disc, or else those of the rings. -/
def diffCells (loc : LocCb) (f : Nat) (t : Int) (arcSet : ArcSet) (a b : List StoredOp) :
    List Cell :=
  if DiscDiffers loc f t arcSet a b then discCells loc f t arcSet a b
  else ringCells loc f t arcSet a b

theorem discDiffers_comm : DiscDiffers loc f t arcSet a b ↔ DiscDiffers loc f t arcSet b a :=
  ne_comm

theorem diffSectors_comm (loc : LocCb) (f : Nat) (t : Int) (arcSet : ArcSet)
    (a b : List StoredOp) : diffSectors loc f t arcSet a b = diffSectors loc f t arcSet b a := by
  unfold diffSectors
  simp only [ne_comm]

theorem diffRings_comm (loc : LocCb) (f : Nat) (t : Int) (arcSet : ArcSet) (a b : List StoredOp) :
    diffRings loc f t arcSet a b = diffRings loc f t arcSet b a := by
  unfold diffRings
  simp only [ne_comm]

/-- Both nodes visit the same cells. -/
theorem diffCells_comm (loc : LocCb) (f : Nat) (t : Int) (arcSet : ArcSet) (a b : List StoredOp) :
    diffCells loc f t arcSet a b = diffCells loc f t arcSet b a := by
  have hdisc : discCells loc f t arcSet a b = discCells loc f t arcSet b a := by
    unfold discCells diffSlices
    rw [diffSectors_comm loc f t arcSet a b]
    simp only [ne_comm]
  have hring : ringCells loc f t arcSet a b = ringCells loc f t arcSet b a := by
    unfold ringCells diffRingSectors
    rw [diffRings_comm loc f t arcSet a b]
    simp only [ne_comm]
  unfold diffCells
  rw [hdisc, hring]
  simp only [discDiffers_comm]

/-! ## Finding it -/

theorem optHash_inj {x y : Bytes} : optHash x = optHash y ↔ x = y := by
  constructor
  · intro h
    rw [← optHash_getD x, ← optHash_getD y, h]
  · rintro rfl
    rfl

theorem sorted_sectors (arcSet : ArcSet) : arcSet.sectors.Pairwise (· < ·) :=
  List.pairwise_lt_range.filter _

theorem getElem?_sectorMap {i : Nat} (hi : i ∈ arcSet.sectors) :
    (sectorMap loc f t arcSet a)[i]? = optHash (discXor loc f t a i) := by
  unfold sectorMap
  rw [getElem?_insertAll, if_pos hi]
  simp

/-- The mismatched keys of two sector maps select the differing sectors. -/
theorem select_mismatched (loc : LocCb) (f : Nat) (t : Int) (arcSet : ArcSet)
    (a b : List StoredOp) :
    (arcSet.sectors.filter fun i =>
        (mismatchedKeys (sectorMap loc f t arcSet a) (sectorMap loc f t arcSet b)).contains i) =
      diffSectors loc f t arcSet a b := by
  unfold diffSectors
  apply List.filter_congr
  intro i hi
  rw [Bool.eq_iff_iff, List.contains_iff_mem, mem_mismatchedKeys_iff, getElem?_sectorMap hi,
    getElem?_sectorMap hi, decide_eq_true_eq, Ne, Ne, optHash_inj]

/-- A detailed snapshot of the differing sectors asks for just these sectors. -/
theorem select_detailKeys (loc : LocCb) (f : Nat) (t : Int) (arcSet : ArcSet)
    (a b ops : List StoredOp) :
    (arcSet.sectors.filter fun i =>
        (detailMap loc f t ops (diffSectors loc f t arcSet a b)).keys.contains i) =
      diffSectors loc f t arcSet a b := by
  have hkeys : ∀ i, (detailMap loc f t ops (diffSectors loc f t arcSet a b)).keys.contains i =
      decide (i ∈ diffSectors loc f t arcSet a b) := by
    intro i
    rw [Bool.eq_iff_iff, List.contains_iff_mem, ExtTreeMap.mem_keys, decide_eq_true_eq]
    exact mem_insertAll_iff
  simp only [hkeys]
  unfold diffSectors
  apply List.filter_congr
  intro i hi
  rw [Bool.eq_iff_iff, decide_eq_true_eq, List.mem_filter]
  exact ⟨fun h => h.2, fun h => ⟨hi, h⟩⟩

theorem getElem?_sliceMap {i k : Nat} :
    (sliceMap loc f t a i)[k]? =
      if k < fullCount f t then optHash (fullXor loc f (sectorArc i) a k) else none := by
  unfold sliceMap
  rw [getElem?_insertAll]
  by_cases hk : k < fullCount f t
  · simp [hk]
  · simp [hk]

/-- Sorted, the mismatched slices of a sector are its differing slices. -/
theorem sort_sliceMaps (loc : LocCb) (f : Nat) (t : Int) (a b : List StoredOp) (i : Nat) :
    (mismatchedKeys (sliceMap loc f t a i) (sliceMap loc f t b i)).insertionSort (· ≤ ·) =
      diffSlices loc f t a b i := by
  have hbound : ∀ k, (sliceMap loc f t a i)[k]? ≠ (sliceMap loc f t b i)[k]? →
      k ∈ List.range (fullCount f t) := by
    intro k hne
    by_contra hk
    rw [List.mem_range] at hk
    rw [getElem?_sliceMap, getElem?_sliceMap, if_neg hk, if_neg hk] at hne
    exact hne rfl
  rw [sort_mismatchedKeys List.pairwise_lt_range hbound]
  unfold diffSlices
  apply List.filter_congr
  intro k hk
  rw [decide_eq_decide, getElem?_sliceMap, getElem?_sliceMap, if_pos (List.mem_range.mp hk),
    if_pos (List.mem_range.mp hk), Ne, optHash_inj]

theorem getElem?_ringMap {r i : Nat} :
    (ringMap loc f t a arcSet r)[i]? =
      if i ∈ arcSet.sectors then optHash (slotXor loc (sectorArc i) a (slotAt f t r)) else none := by
  unfold ringMap
  rw [getElem?_insertAll]
  by_cases hi : i ∈ arcSet.sectors
  · simp [hi]
  · simp [hi]

theorem sort_ringMaps (loc : LocCb) (f : Nat) (t : Int) (arcSet : ArcSet) (a b : List StoredOp)
    (r : Nat) :
    (mismatchedKeys (ringMap loc f t a arcSet r) (ringMap loc f t b arcSet r)).insertionSort
        (· ≤ ·) = diffRingSectors loc f t arcSet a b r := by
  have hbound : ∀ i, (ringMap loc f t a arcSet r)[i]? ≠ (ringMap loc f t b arcSet r)[i]? →
      i ∈ arcSet.sectors := by
    intro i hne
    by_contra hi
    rw [getElem?_ringMap, getElem?_ringMap, if_neg hi, if_neg hi] at hne
    exact hne rfl
  rw [sort_mismatchedKeys (sorted_sectors arcSet) hbound]
  unfold diffRingSectors
  apply List.filter_congr
  intro i hi
  rw [decide_eq_decide, getElem?_ringMap, getElem?_ringMap, if_pos hi, if_pos hi, Ne, optHash_inj]

/-! ## Visiting it -/

section Visit

variable {q : Nat → Bool}

/-- The entry of a sector in the comparison of two detailed snapshots. -/
theorem getElem?_compareDetails (i : Nat) :
    (mismatchedSlices (detailMap loc f t a ((List.range numSectors).filter q))
        (detailMap loc f t b ((List.range numSectors).filter q)))[i]? =
      if i ∈ (List.range numSectors).filter q then
        if mismatchedKeys (sliceMap loc f t a i) (sliceMap loc f t b i) = [] then none
        else some (mismatchedKeys (sliceMap loc f t a i) (sliceMap loc f t b i))
      else none := by
  generalize (List.range numSectors).filter q = sectors
  by_cases hi : i ∈ sectors
  · rw [if_pos hi]
    exact getElem?_mismatchedSlices (getElem?_insertAll_some hi) (getElem?_insertAll_some hi)
  · rw [if_neg hi]
    exact getElem?_mismatchedSlices_none (fun h => hi (mem_insertAll_iff.mp h))
      (fun h => hi (mem_insertAll_iff.mp h))

/-- The slices that a comparison of detailed snapshots has a node visit. -/
theorem visit_slices (loc : LocCb) (f : Nat) (t : Int) (a b : List StoredOp) (q : Nat → Bool) :
    DhtState.cellsOfSectors f
        (mismatchedSlices (detailMap loc f t a ((List.range numSectors).filter q))
          (detailMap loc f t b ((List.range numSectors).filter q))).toList =
      ((List.range numSectors).filter q).flatMap fun i =>
        (diffSlices loc f t a b i).map (fullCell f i) := by
  rw [toList_eq numSectors]
  · unfold DhtState.cellsOfSectors
    apply flatMap_filterMap_eq
    intro i hi
    rw [getElem?_compareDetails]
    -- a sector of the map is listed with its differing slices, and the others are not there
    by_cases hq : q i
    · rw [if_pos (List.mem_filter.mpr ⟨hi, hq⟩), if_pos hq, ← sort_sliceMaps]
      by_cases hnil : mismatchedKeys (sliceMap loc f t a i) (sliceMap loc f t b i) = []
      · rw [if_pos hnil, hnil]
        rfl
      · rw [if_neg hnil]
        rfl
    · have hnot : i ∉ (List.range numSectors).filter q := fun h => hq (List.mem_filter.mp h).2
      rw [if_neg hnot, if_neg hq]
      rfl
  · intro i hi
    have hnot : i ∉ (List.range numSectors).filter q := by
      intro h
      have hlt := List.mem_range.mp (List.mem_filter.mp h).1
      omega
    rw [getElem?_compareDetails, if_neg hnot]

theorem visit_slices_bounds {g : Nat × List Nat}
    (hg : g ∈ (mismatchedSlices (detailMap loc f t a ((List.range numSectors).filter q))
      (detailMap loc f t b ((List.range numSectors).filter q))).toList) :
    g.1 < numSectors ∧ ∀ k ∈ g.2, k < fullCount f t := by
  rcases g with ⟨i, slices⟩
  have hget := ExtTreeMap.mem_toList_iff_getElem?_eq_some.mp hg
  rw [getElem?_compareDetails] at hget
  by_cases hi : i ∈ (List.range numSectors).filter q
  · rw [if_pos hi] at hget
    by_cases hnil : mismatchedKeys (sliceMap loc f t a i) (sliceMap loc f t b i) = []
    · rw [if_pos hnil] at hget
      cases hget
    · rw [if_neg hnil] at hget
      cases hget
      refine ⟨List.mem_range.mp (List.mem_filter.mp hi).1, ?_⟩
      intro k hk
      have hmem := (List.mem_insertionSort (· ≤ ·)).mpr hk
      rw [sort_sliceMaps] at hmem
      exact List.mem_range.mp (List.mem_filter.mp hmem).1
  · rw [if_neg hi] at hget
    cases hget

/-- The entry of a ring in the comparison of two ring snapshots. -/
theorem getElem?_compareRings {rings : List Nat} (r : Nat) :
    (mismatchedRingSectors (ringDetailMap loc f t arcSet a rings)
        (ringDetailMap loc f t arcSet b rings))[r]? =
      if r ∈ rings then
        some (mismatchedKeys (ringMap loc f t a arcSet r) (ringMap loc f t b arcSet r))
      else none := by
  by_cases hr : r ∈ rings
  · rw [if_pos hr]
    exact getElem?_mismatchedRingSectors (getElem?_insertAll_some hr) (getElem?_insertAll_some hr)
  · rw [if_neg hr]
    exact getElem?_mismatchedRingSectors_none fun h => hr (mem_insertAll_iff.mp h)

theorem visit_rings (loc : LocCb) (f : Nat) (t : Int) (arcSet : ArcSet) (a b : List StoredOp)
    (bound : Nat) (q : Nat → Bool) :
    DhtState.cellsOfRings f t (DhtState.ringSlots
        (mismatchedRingSectors (ringDetailMap loc f t arcSet a ((List.range bound).filter q))
          (ringDetailMap loc f t arcSet b ((List.range bound).filter q))).toList) =
      ((List.range bound).filter q).flatMap fun r =>
        (diffRingSectors loc f t arcSet a b r).map (slotCell (slotAt f t r)) := by
  rw [toList_eq bound]
  · unfold DhtState.cellsOfRings DhtState.ringSlots
    rw [List.map_flatMap]
    apply flatMap_filterMap_eq
    intro r hr
    rw [getElem?_compareRings]
    by_cases hq : q r
    · rw [if_pos (List.mem_filter.mpr ⟨hr, hq⟩), if_pos hq, ← sort_ringMaps]
      simp only [Option.map_some, Option.elim_some, List.map_map]
      rfl
    · have hnot : r ∉ (List.range bound).filter q := fun h => hq (List.mem_filter.mp h).2
      rw [if_neg hnot, if_neg hq]
      rfl
  · intro r hr
    have hnot : r ∉ (List.range bound).filter q := by
      intro h
      have hlt := List.mem_range.mp (List.mem_filter.mp h).1
      omega
    rw [getElem?_compareRings, if_neg hnot]

theorem visit_rings_bounds {rings : List Nat} {e : Nat × Nat}
    (he : e ∈ DhtState.ringSlots (mismatchedRingSectors (ringDetailMap loc f t arcSet a rings)
      (ringDetailMap loc f t arcSet b rings)).toList) :
    e.1 ∈ rings ∧ e.2 < numSectors := by
  rcases List.mem_flatMap.mp he with ⟨⟨r, sectors⟩, hg, hmem⟩
  rcases List.mem_map.mp hmem with ⟨i, hi, rfl⟩
  have hget := ExtTreeMap.mem_toList_iff_getElem?_eq_some.mp hg
  rw [getElem?_compareRings] at hget
  by_cases hr : r ∈ rings
  · rw [if_pos hr] at hget
    have hsectors := Option.some.inj hget
    subst hsectors
    have hdiff : i ∈ diffRingSectors loc f t arcSet a b r := by
      rw [← sort_ringMaps]
      exact hi
    have hsector : i ∈ arcSet.sectors := by
      unfold diffRingSectors at hdiff
      exact (List.mem_filter.mp hdiff).1
    exact ⟨hr, arcSet.bounded i (ArcSet.mem_sectors_iff.mp hsector)⟩
  · rw [if_neg hr] at hget
    cases hget

end Visit

end Dht
end Kitsune2
