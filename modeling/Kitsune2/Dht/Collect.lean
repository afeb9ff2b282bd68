import Kitsune2.Dht.Incremental
import Kitsune2.Lib.Greedy

/-!
# Collect — the op ids of differing slices

A node answers a detailed snapshot with the ids of its ops in the slices that differ, as far as they
fit a byte budget.  A cell is one slice of one sector; the loops of `handle_snapshot` visit the cells
that differ in an order that does not depend on which of the two nodes visits them.
-/

namespace Kitsune2
namespace Dht

open Api Lib
open Std (ExtTreeMap)

variable {loc : LocCb} {f n : Nat} {t : Int}

/-! ## Cells -/

/-- A slice of a sector, or a sector's part of a ring. -/
structure Cell where
  sector : Nat
  start : Int
  stop : Int
  deriving DecidableEq

/-- The op lies in the cell. -/
def Cell.holds (loc : LocCb) (c : Cell) (op : StoredOp) : Bool :=
  inSlice loc (sectorArc c.sector) c.start c.stop op

/-- The ids of a store's ops in a cell. -/
def cellIds (loc : LocCb) (st : OpStore) (c : Cell) : List Bytes :=
  (st.opHashesInTimeSlice loc (sectorArc c.sector) c.start c.stop).1

/-- The bytes of a store's ops in a cell. -/
def cellBytes (loc : LocCb) (st : OpStore) (c : Cell) : Nat :=
  ((st.opList.filter fun op => c.holds loc op.toStoredOp).map fun op => op.dataLen).sum

/-- Full slice `k` of a sector. -/
def fullCell (f i k : Nat) : Cell where
  sector := i
  start := fullEnd f k
  stop := fullEnd f (k + 1)

/-- A sector's part of a ring. -/
def slotCell (slot : Int × Nat) (i : Nat) : Cell where
  sector := i
  start := slot.1
  stop := slot.1 + slotLen slot.2

theorem mem_cellIds_iff {st : OpStore} {c : Cell} {x : Bytes} :
    x ∈ cellIds loc st c ↔ ∃ op ∈ st.opList, c.holds loc op.toStoredOp ∧ op.opId = x := by
  unfold cellIds OpStore.opHashesInTimeSlice OpStore.opsInSlice
  simp only [List.mem_map, List.mem_insertionSort, List.mem_filter]
  constructor
  · rintro ⟨op, ⟨hmem, hin⟩, hid⟩
    exact ⟨op, hmem, hin, hid⟩
  · rintro ⟨op, hmem, hin, hid⟩
    exact ⟨op, ⟨hmem, hin⟩, hid⟩

theorem opHashes_eq {st : OpStore} {c : Cell} (h : cellBytes loc st c < 2 ^ 31) :
    st.opHashesInTimeSlice loc (sectorArc c.sector) c.start c.stop =
      (cellIds loc st c, cellBytes loc st c) := by
  have hperm : (st.opsInSlice loc (sectorArc c.sector) c.start c.stop).Perm
      (st.opList.filter fun op => c.holds loc op.toStoredOp) := List.perm_insertionSort _ _
  have hsum : ((st.opsInSlice loc (sectorArc c.sector) c.start c.stop).map fun op => op.dataLen).sum =
      cellBytes loc st c := (hperm.map _).sum_eq
  have hmod : cellBytes loc st c % 2 ^ 32 = cellBytes loc st c := Nat.mod_eq_of_lt (by omega)
  refine Prod.ext rfl ?_
  simp only [OpStore.opHashesInTimeSlice]
  rw [hsum, hmod]

/-! ## Lookups of an accurate DHT -/

namespace DhtState

variable {d : DhtState} {budget : Nat}

theorem Accurate.dhtArc_ok (h : d.Accurate loc t) {i : Nat} (hi : i < numSectors) :
    d.partition.dhtArcForSectorIndex i = .ok (sectorArc i) := by
  have hlt : i < d.partition.sectors.length := by
    rw [show d.partition.sectors.length = _ from h.length]
    exact hi
  have hget := List.getElem?_eq_getElem hlt
  have hshape := (h.sector i _ hget).shape
  unfold HashPartition.dhtArcForSectorIndex
  rw [hget]
  exact congrArg Except.ok hshape.sectorConstraint

theorem Accurate.firstSector_ok (h : d.Accurate loc t) :
    ∃ tp, d.partition.firstSector = .ok tp ∧
      SectorAccurate loc timeFactor (sectorArc 0) t d.store.stored { part := tp, store := d.store } := by
  have hlt : 0 < d.partition.sectors.length := by
    rw [show d.partition.sectors.length = _ from h.length]
    decide
  have hget := List.getElem?_eq_getElem hlt
  refine ⟨_, ?_, h.sector 0 _ hget⟩
  unfold HashPartition.firstSector
  rw [List.head?_eq_getElem?, hget]

theorem Accurate.fullBounds_ok (h : d.Accurate loc t) {k : Nat} (hk : k < fullCount timeFactor t) :
    d.partition.timeBoundsForFullSliceIndex k =
      .ok (fullEnd timeFactor k, fullEnd timeFactor (k + 1)) := by
  rcases h.firstSector_ok with ⟨tp, hfirst, hacc⟩
  have hend : fullEnd timeFactor (fullCount timeFactor t) ≤ i64Max :=
    le_trans (fullEnd_fullCount_le_self hacc.nonneg) hacc.fits
  have hfits : fullEnd timeFactor (k + 1) ≤ i64Max := le_trans (fullEnd_mono hk) hend
  have hfits' : fullEnd timeFactor k ≤ i64Max := le_trans (fullEnd_mono (Nat.le_succ k)) hfits
  refine bind_eq_ok_iff.mpr ⟨tp, hfirst, ?_⟩
  have hcount : tp.fullSlices = fullCount timeFactor t := hacc.fullSlices
  unfold TimePartition.timeBoundsForFullSliceIndex
  rw [if_neg (by omega)]
  -- the start of slice `k` is the end of the full slices of a partition with `k` of them
  have hshape : Shape timeFactor (sectorArc 0) { tp with fullSlices := k } :=
    ⟨hacc.shape.factor, hacc.shape.fullSliceDuration, hacc.shape.minRecentTime,
      hacc.shape.sectorConstraint⟩
  have hstart := fullSliceEndTimestamp_ok hshape hfits'
  rcases bind_eq_ok_iff.mp hstart with ⟨secs, hsecs, hadd⟩
  refine bind_eq_ok_iff.mpr ⟨secs, hsecs, ?_⟩
  refine bind_eq_ok_iff.mpr ⟨_, hadd, ?_⟩
  refine bind_eq_ok_iff.mpr ⟨fullEnd timeFactor (k + 1), ?_, rfl⟩
  rw [show tp.fullSliceDuration = _ from hacc.shape.fullSliceDuration, fullEnd_succ]
  rw [fullEnd_succ] at hfits
  exact addDuration_of_le (fullEnd_nonneg _ _) hfits

theorem Accurate.partialBounds_ok (h : d.Accurate loc t) {r : Nat}
    (hr : r < (slotsAt timeFactor t).length) :
    d.partition.timeBoundsForPartialSliceIndex r =
      .ok ((slotAt timeFactor t r).1,
        (slotAt timeFactor t r).1 + slotLen (slotAt timeFactor t r).2) := by
  rcases h.firstSector_ok with ⟨tp, hfirst, hacc⟩
  have hfits : SlotFits (slotAt timeFactor t r) :=
    slotFits_partialLayout timeFactor_le (fullEnd_nonneg _ _)
      (fullEnd_fullCount_le_self hacc.nonneg) hacc.fits (mem_slotsAt_slotAt hr)
  refine bind_eq_ok_iff.mpr ⟨tp, hfirst, ?_⟩
  have hlen : tp.partialSlices.length = (slotsAt timeFactor t).length := by
    rw [show tp.partialSlices = _ from hacc.partialSlices, List.length_map]
  have hget : tp.partialSlices[r]? = _ := hacc.partialHash_ok hr
  unfold TimePartition.timeBoundsForPartialSliceIndex
  rw [if_neg (by omega), hget]
  exact bind_eq_ok_iff.mpr ⟨_, stop_ok hfits, rfl⟩

/-! ## One cell -/

theorem asI32_of_lt {x : Nat} (h : x < 2 ^ 31) : asI32 x = x := by
  unfold asI32 Int.bmod
  simp only
  split
  · omega
  · omega

theorem takeSlice_ok {c : Cell} {acc : Collected} (h : acc.2 + cellBytes loc d.store c < 2 ^ 31) :
    takeSlice loc d budget (sectorArc c.sector) (c.start, c.stop) acc =
      .ok (if acc.2 + cellBytes loc d.store c ≤ budget then
        (acc.1 ++ cellIds loc d.store c, acc.2 + cellBytes loc d.store c) else acc) := by
  have hadd : addU32 acc.2 (cellBytes loc d.store c) = .ok (acc.2 + cellBytes loc d.store c) := by
    unfold addU32
    rw [if_pos]
    simp only [u32Max]
    omega
  unfold takeSlice
  rw [opHashes_eq (by omega)]
  refine bind_eq_ok_iff.mpr ⟨_, hadd, ?_⟩
  rw [asI32_of_lt h]
  by_cases hle : acc.2 + cellBytes loc d.store c ≤ budget
  · rw [if_pos hle, if_pos (by exact_mod_cast hle)]
    rfl
  · rw [if_neg hle, if_neg (by exact_mod_cast hle)]
    rfl

/-- One cell is a take or a skip, whatever follows. -/
theorem takeSlice_picks (budget : Nat) {c : Cell} {acc : Collected}
    (h : acc.2 + cellBytes loc d.store c < 2 ^ 31) :
    ∃ acc', takeSlice loc d budget (sectorArc c.sector) (c.start, c.stop) acc = .ok acc' ∧
      acc'.2 ≤ acc.2 + cellBytes loc d.store c ∧
      ∀ l res, Picks (cellIds loc d.store) (cellBytes loc d.store) budget acc' l res →
        Picks (cellIds loc d.store) (cellBytes loc d.store) budget acc (c :: l) res := by
  rw [takeSlice_ok h]
  by_cases hle : acc.2 + cellBytes loc d.store c ≤ budget
  · rw [if_pos hle]
    exact ⟨_, rfl, le_refl _, fun l res hrest => Picks.take hle hrest⟩
  · rw [if_neg hle]
    exact ⟨_, rfl, Nat.le_add_right _ _, fun l res hrest => Picks.skip (not_le.mp hle) hrest⟩

/-! ## The disc -/

/-- The total weight of a list of cells. -/
def weightOf (loc : LocCb) (st : OpStore) (l : List Cell) : Nat :=
  (l.map (cellBytes loc st)).sum

/-- The bounds of the first slice are found, and its ops taken or left. -/
theorem collectSlices_cons_ok {d : DhtState} {limit : Int} {arc : DhtArc} {slice : Nat}
    {bounds : Int × Int} {acc acc₁ : Collected}
    (hbounds : d.partition.timeBoundsForFullSliceIndex slice = .ok bounds)
    (htake : takeSlice loc d limit arc bounds acc = .ok acc₁) (slices : List Nat) :
    collectSlices loc d limit arc (slice :: slices) acc =
      collectSlices loc d limit arc slices acc₁ := by
  unfold collectSlices
  rw [List.foldlM_cons, hbounds]
  exact congrArg (· >>= _) htake

/-- The first slice is out of range: it is skipped. -/
theorem collectSlices_cons_skip {d : DhtState} {slice : Nat} {reason : String}
    (hbounds : d.partition.timeBoundsForFullSliceIndex slice = .error (.k2 reason)) (limit : Int)
    (arc : DhtArc) (slices : List Nat) (acc : Collected) :
    collectSlices loc d limit arc (slice :: slices) acc =
      collectSlices loc d limit arc slices acc := by
  unfold collectSlices
  rw [List.foldlM_cons, hbounds]
  rfl

theorem collectSlices_cons_panicked {d : DhtState} {slice : Nat} {reason : String}
    (hbounds : d.partition.timeBoundsForFullSliceIndex slice = .error (.panicked reason))
    (limit : Int) (arc : DhtArc) (slices : List Nat) (acc : Collected) :
    collectSlices loc d limit arc (slice :: slices) acc = .error (.panicked reason) := by
  unfold collectSlices
  rw [List.foldlM_cons, hbounds]
  rfl

theorem collectSlices_picks (budget : Nat) (h : d.Accurate loc t) (i : Nat) :
    ∀ (slices : List Nat) (acc : Collected), (∀ k ∈ slices, k < fullCount timeFactor t) →
      acc.2 + weightOf loc d.store (slices.map (fullCell timeFactor i)) < 2 ^ 31 →
      ∃ acc', collectSlices loc d budget (sectorArc i) slices acc = .ok acc' ∧
        acc'.2 ≤ acc.2 + weightOf loc d.store (slices.map (fullCell timeFactor i)) ∧
        ∀ l res, Picks (cellIds loc d.store) (cellBytes loc d.store) budget acc' l res →
          Picks (cellIds loc d.store) (cellBytes loc d.store) budget acc
            (slices.map (fullCell timeFactor i) ++ l) res := by
  intro slices
  induction slices with
  | nil =>
      intro acc _ _
      exact ⟨acc, rfl, Nat.le_add_right _ _, fun l res hrest => hrest⟩
  | cons k slices ih =>
      intro acc hbound hsize
      simp only [weightOf, List.map_cons, List.sum_cons] at hsize ih ⊢
      have hcell : acc.2 + cellBytes loc d.store (fullCell timeFactor i k) < 2 ^ 31 := by omega
      rcases takeSlice_picks budget hcell with ⟨acc1, htake, hle1, hpick1⟩
      have hbound' : ∀ k ∈ slices, k < fullCount timeFactor t := fun k hk => hbound k (by simp [hk])
      have hsize' : acc1.2 +
          ((slices.map (fullCell timeFactor i)).map (cellBytes loc d.store)).sum < 2 ^ 31 := by
        omega
      rcases ih acc1 hbound' hsize' with ⟨acc2, hcollect, hle2, hpick2⟩
      refine ⟨acc2, ?_, by omega, fun l res hrest => hpick1 _ _ (hpick2 l res hrest)⟩
      exact (collectSlices_cons_ok (h.fullBounds_ok (hbound k (by simp))) htake slices).trans hcollect

/-- The cells of a list of sectors with slices, as `collect_disc` visits them. -/
def cellsOfSectors (f : Nat) (groups : List (Nat × List Nat)) : List Cell :=
  groups.flatMap fun g => (g.2.insertionSort (· ≤ ·)).map (fullCell f g.1)

theorem collectDisc_picks (budget : Nat) (h : d.Accurate loc t) :
    ∀ (groups : List (Nat × List Nat)) (acc : Collected),
      (∀ g ∈ groups, g.1 < numSectors ∧ ∀ k ∈ g.2, k < fullCount timeFactor t) →
      acc.2 + weightOf loc d.store (cellsOfSectors timeFactor groups) < 2 ^ 31 →
      ∃ res, collectDisc loc d budget groups acc = .ok res ∧
        Picks (cellIds loc d.store) (cellBytes loc d.store) budget acc
          (cellsOfSectors timeFactor groups) res := by
  intro groups
  induction groups with
  | nil =>
      intro acc _ _
      exact ⟨acc, rfl, Picks.nil⟩
  | cons g groups ih =>
      intro acc hbound hsize
      rcases g with ⟨i, slices⟩
      have hcells : cellsOfSectors timeFactor ((i, slices) :: groups) =
          (slices.insertionSort (· ≤ ·)).map (fullCell timeFactor i) ++
            cellsOfSectors timeFactor groups := List.flatMap_cons
      rw [hcells, weightOf, List.map_append, List.sum_append] at hsize
      rw [hcells, collectDisc]
      by_cases hfull : asI32 acc.2 ≥ budget
      · -- the budget is used up: the loop ends here
        rw [if_pos hfull]
        rw [asI32_of_lt (by omega)] at hfull
        exact ⟨acc, rfl, Picks.stop (by exact_mod_cast hfull)⟩
      · rw [if_neg hfull]
        rcases hbound (i, slices) (by simp) with ⟨hi, hslices⟩
        have hslices' : ∀ k ∈ slices.insertionSort (· ≤ ·), k < fullCount timeFactor t :=
          fun k hk => hslices k ((List.mem_insertionSort _).mp hk)
        rcases collectSlices_picks budget h i _ acc hslices' (by unfold weightOf; omega) with
          ⟨acc1, hcollect, hle, hpick⟩
        unfold weightOf at hle
        rcases ih acc1 (fun g hg => hbound g (by simp [hg])) (by unfold weightOf; omega)
          with ⟨res, hres, hpicks⟩
        refine ⟨res, ?_, hpick _ _ hpicks⟩
        have hskip : orSkip (d.partition.dhtArcForSectorIndex i) = .ok (some (sectorArc i)) := by
          rw [h.dhtArc_ok hi]
          rfl
        exact bind_eq_ok_iff.mpr ⟨_, hskip, bind_eq_ok_iff.mpr ⟨acc1, hcollect, hres⟩⟩

/-! ## The rings -/

/-- The cells of a list of pairs of ring and sector. -/
def cellsOfRings (f : Nat) (t : Int) (l : List (Nat × Nat)) : List Cell :=
  l.map fun e => slotCell (slotAt f t e.1) e.2

theorem collectRings_picks (budget : Nat) (h : d.Accurate loc t) :
    ∀ (l : List (Nat × Nat)) (acc : Collected),
      (∀ e ∈ l, e.1 < (slotsAt timeFactor t).length ∧ e.2 < numSectors) →
      acc.2 + weightOf loc d.store (cellsOfRings timeFactor t l) < 2 ^ 31 →
      ∃ res, collectRings loc d budget l acc = .ok res ∧
        Picks (cellIds loc d.store) (cellBytes loc d.store) budget acc
          (cellsOfRings timeFactor t l) res := by
  intro l
  induction l with
  | nil =>
      intro acc _ _
      exact ⟨acc, rfl, Picks.nil⟩
  | cons e l ih =>
      intro acc hbound hsize
      rcases e with ⟨r, i⟩
      rcases hbound (r, i) (by simp) with ⟨hr, hi⟩
      simp only [weightOf, cellsOfRings, List.map_cons, List.sum_cons] at hsize ih ⊢
      rw [collectRings]
      by_cases hfull : asI32 acc.2 ≥ budget
      · rw [if_pos hfull]
        -- the sizes stay below 2^31, so the cast keeps the order
        rw [asI32_of_lt (by omega)] at hfull
        exact ⟨acc, rfl, Picks.stop (by exact_mod_cast hfull)⟩
      · rw [if_neg hfull]
        have hcell : acc.2 + cellBytes loc d.store (slotCell (slotAt timeFactor t r) i) < 2 ^ 31 := by
          omega
        rcases takeSlice_picks budget hcell with ⟨acc1, htake, hle, hpick⟩
        rcases ih acc1 (fun e he => hbound e (by simp [he])) (by omega)
          with ⟨res, hres, hpicks⟩
        refine ⟨res, ?_, hpick _ _ hpicks⟩
        have harc : orSkip (d.partition.dhtArcForSectorIndex i) = .ok (some (sectorArc i)) := by
          rw [h.dhtArc_ok hi]
          rfl
        have hbounds : orSkip (d.partition.timeBoundsForPartialSliceIndex r) =
            .ok (some ((slotAt timeFactor t r).1,
              (slotAt timeFactor t r).1 + slotLen (slotAt timeFactor t r).2)) := by
          rw [h.partialBounds_ok hr]
          rfl
        refine bind_eq_ok_iff.mpr ⟨_, harc, ?_⟩
        exact bind_eq_ok_iff.mpr ⟨_, hbounds, bind_eq_ok_iff.mpr ⟨acc1, htake, hres⟩⟩

end DhtState

end Dht
end Kitsune2
