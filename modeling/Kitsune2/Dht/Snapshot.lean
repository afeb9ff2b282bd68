import Mathlib.Data.Finset.Card
import Kitsune2.Api.Basic
import Kitsune2.Lib.Maps

/-!
# Snapshot — summaries of a DHT and how they are compared

Two nodes compare snapshots of their DHTs, from a minimal one with a single hash for all of history
to detailed ones with a hash for each slice of each sector.  Maps are sparse: a key that is missing
stands for an empty slice, so a key that only one side has is a mismatch.
-/

namespace Kitsune2
namespace Dht

open Api Lib
open Std (ExtTreeMap)

/-! ## Arc sets -/

/-- A set of sector indices. -/
structure ArcSet where
  inner : Finset Nat
  bounded : ∀ i ∈ inner, i < numSectors

namespace ArcSet

theorem zero_bounded : ∀ i ∈ ({0} : Finset Nat), i < numSectors := by decide

def intersection (a b : ArcSet) : ArcSet where
  inner := a.inner ∩ b.inner
  bounded := fun i hi => a.bounded i (Finset.mem_inter.mp hi).1

def coveredSectorCount (a : ArcSet) : Nat :=
  a.inner.card

def includesSectorIndex (a : ArcSet) (value : Nat) : Bool :=
  decide (value ∈ a.inner)

/-- The set of all sectors. -/
def full : ArcSet where
  inner := Finset.range numSectors
  bounded := fun _ hi => Finset.mem_range.mp hi

end ArcSet

/-! ## Snapshots -/

inductive DhtSnapshot
  | minimal (discTopHash : Bytes) (discBoundary : Int) (ringTopHashes : List Bytes)
  | discSectors (discSectorTopHashes : ExtTreeMap Nat Bytes) (discBoundary : Int)
  | discSectorDetails (discSectorHashes : ExtTreeMap Nat (ExtTreeMap Nat Bytes)) (discBoundary : Int)
  | ringSectorDetails (ringSectorHashes : ExtTreeMap Nat (ExtTreeMap Nat Bytes)) (discBoundary : Int)
  deriving DecidableEq

inductive SnapshotDiff
  | identical
  | cannotCompare
  | discMismatch
  | discSectorMismatches (sectors : List Nat)
  | discSectorSliceMismatches (slices : ExtTreeMap Nat (List Nat))
  | ringMismatches (rings : List Nat)
  | ringSectorMismatches (sectors : ExtTreeMap Nat (List Nat))
  deriving DecidableEq

/-! ## Comparison -/

/-- The indices at which two lists of hashes differ, cast to `u32`. -/
def hashMismatchIndices (left right : List Bytes) : List Nat :=
  (left.zipIdx.zip right).filterMap fun e => if e.1.1 ≠ e.2 then some (e.1.2 % 2 ^ 32) else none

/-- The slices that differ, by sector: all slices of a sector that one side does not have, and the
mismatched ones of the sectors that both have. -/
def mismatchedSlices (ours theirs : ExtTreeMap Nat (ExtTreeMap Nat Bytes)) :
    ExtTreeMap Nat (List Nat) :=
  let oneSided := insertAll ∅ (symmetricDifference ours theirs) fun i =>
    some ((ours[i]?.getD (theirs[i]?.getD ∅)).keys)
  insertAll oneSided (commonKeys ours theirs) fun i =>
    let mismatched := mismatchedKeys (ours[i]?.getD ∅) (theirs[i]?.getD ∅)
    if mismatched = [] then none else some ((oneSided[i]?.getD []) ++ mismatched)

/-- The sectors that differ, for each ring. -/
def mismatchedRingSectors (ours theirs : ExtTreeMap Nat (ExtTreeMap Nat Bytes)) :
    ExtTreeMap Nat (List Nat) :=
  insertAll ∅ (commonKeys ours theirs) fun r =>
    some (mismatchedKeys (ours[r]?.getD ∅) (theirs[r]?.getD ∅))

namespace DhtSnapshot

def compare (ours theirs : DhtSnapshot) : SnapshotDiff :=
  if ours = theirs then .identical
  else
    match ours, theirs with
    | .minimal ourDisc ourBoundary ourRings, .minimal theirDisc theirBoundary theirRings =>
        if ourBoundary ≠ theirBoundary then .cannotCompare
        -- the disc is settled before the rings are looked at
        else if ourDisc ≠ theirDisc then .discMismatch
        else if ourRings.length ≠ theirRings.length then .cannotCompare
        else .ringMismatches (hashMismatchIndices ourRings theirRings)
    | .discSectors ourHashes ourBoundary, .discSectors theirHashes theirBoundary =>
        if ourBoundary ≠ theirBoundary then .cannotCompare
        else .discSectorMismatches (mismatchedKeys ourHashes theirHashes)
    | .discSectorDetails ourHashes ourBoundary, .discSectorDetails theirHashes theirBoundary =>
        if ourBoundary ≠ theirBoundary then .cannotCompare
        else .discSectorSliceMismatches (mismatchedSlices ourHashes theirHashes)
    | .ringSectorDetails ourHashes ourBoundary, .ringSectorDetails theirHashes theirBoundary =>
        if ourBoundary ≠ theirBoundary then .cannotCompare
        -- ring keys are positions that were found to differ, so both sides must name the same
        -- ones
        else if ourHashes.keys ≠ theirHashes.keys then .cannotCompare
        else .ringSectorMismatches (mismatchedRingSectors ourHashes theirHashes)
    | _, _ => .cannotCompare

end DhtSnapshot

/-! ## What a comparison finds -/

theorem mem_hashMismatchIndices_iff_exists {left right : List Bytes} {k : Nat}
    (hlen : left.length = right.length) :
    k ∈ hashMismatchIndices left right ↔
      ∃ i, i % 2 ^ 32 = k ∧ i < left.length ∧ left[i]? ≠ right[i]? := by
  -- a reported number is the cast of a position whose hashes differ
  simp only [hashMismatchIndices, List.mem_filterMap, Option.ite_none_right_eq_some,
    Option.some.injEq]
  constructor
  · rintro ⟨⟨⟨l, i⟩, r⟩, hmem, hne, hk⟩
    rcases List.mem_iff_getElem?.mp hmem with ⟨j, hj⟩
    rcases List.getElem?_zip_eq_some.mp hj with ⟨hl, hr⟩
    rw [List.getElem?_zipIdx] at hl
    rcases Option.map_eq_some_iff.mp hl with ⟨l', hl', heq⟩
    simp only [Nat.zero_add, Prod.mk.injEq] at heq
    rcases heq with ⟨rfl, rfl⟩
    refine ⟨j, hk, (List.getElem?_eq_some_iff.mp hl').1, ?_⟩
    simp only at hne hr
    rw [hl', hr]
    exact fun h => hne (Option.some.inj h)
  · rintro ⟨i, hk, hi, hne⟩
    have hl := List.getElem?_eq_getElem hi
    have hr := List.getElem?_eq_getElem (show i < right.length by omega)
    refine ⟨((left[i], i), right[i]), ?_, ?_, hk⟩
    · apply List.mem_iff_getElem?.mpr
      refine ⟨i, List.getElem?_zip_eq_some.mpr ⟨?_, hr⟩⟩
      rw [List.getElem?_zipIdx, hl]
      simp
    · intro heq
      apply hne
      rw [hl, hr]
      exact congrArg some heq

/-- Where every index is a `u32`, the cast changes none of them. -/
theorem mem_hashMismatchIndices_iff {left right : List Bytes} {k : Nat}
    (hlen : left.length = right.length) (hfits : left.length ≤ 2 ^ 32) :
    k ∈ hashMismatchIndices left right ↔ k < left.length ∧ left[k]? ≠ right[k]? := by
  rw [mem_hashMismatchIndices_iff_exists hlen]
  constructor
  · rintro ⟨i, hk, hi, hne⟩
    rw [Nat.mod_eq_of_lt (by omega)] at hk
    subst hk
    exact ⟨hi, hne⟩
  · rintro ⟨hk, hne⟩
    exact ⟨k, Nat.mod_eq_of_lt (by omega), hk, hne⟩

/-- For a sector that both sides have, the mismatched slices are reported. -/
theorem getElem?_mismatchedSlices {ours theirs : ExtTreeMap Nat (ExtTreeMap Nat Bytes)} {i : Nat}
    {a b : ExtTreeMap Nat Bytes} (ha : ours[i]? = some a) (hb : theirs[i]? = some b) :
    (mismatchedSlices ours theirs)[i]? =
      if mismatchedKeys a b = [] then none else some (mismatchedKeys a b) := by
  have hao : i ∈ ours := ExtTreeMap.mem_iff_isSome_getElem?.mpr (by simp [ha])
  have hbt : i ∈ theirs := ExtTreeMap.mem_iff_isSome_getElem?.mpr (by simp [hb])
  have hsym : i ∉ symmetricDifference ours theirs := by
    rw [mem_symmetricDifference_iff]
    simp [hao, hbt]
  have hcommon : i ∈ commonKeys ours theirs := mem_commonKeys_iff.mpr ⟨hao, hbt⟩
  simp only [mismatchedSlices, getElem?_insertAll, if_pos hcommon, if_neg hsym, ha, hb]
  by_cases hnil : mismatchedKeys a b = []
  · simp [hnil]
  · simp [hnil]

theorem getElem?_mismatchedSlices_none {ours theirs : ExtTreeMap Nat (ExtTreeMap Nat Bytes)}
    {i : Nat} (ha : i ∉ ours) (hb : i ∉ theirs) : (mismatchedSlices ours theirs)[i]? = none := by
  have hsym : i ∉ symmetricDifference ours theirs := by
    rw [mem_symmetricDifference_iff]
    simp [ha, hb]
  have hcommon : i ∉ commonKeys ours theirs := fun h => ha (mem_commonKeys_iff.mp h).1
  simp only [mismatchedSlices, getElem?_insertAll, if_neg hcommon, if_neg hsym]
  simp

theorem getElem?_mismatchedRingSectors {ours theirs : ExtTreeMap Nat (ExtTreeMap Nat Bytes)}
    {r : Nat} {a b : ExtTreeMap Nat Bytes} (ha : ours[r]? = some a) (hb : theirs[r]? = some b) :
    (mismatchedRingSectors ours theirs)[r]? = some (mismatchedKeys a b) := by
  have hao : r ∈ ours := ExtTreeMap.mem_iff_isSome_getElem?.mpr (by simp [ha])
  have hbt : r ∈ theirs := ExtTreeMap.mem_iff_isSome_getElem?.mpr (by simp [hb])
  have hcommon : r ∈ commonKeys ours theirs := mem_commonKeys_iff.mpr ⟨hao, hbt⟩
  simp only [mismatchedRingSectors, getElem?_insertAll, if_pos hcommon, ha, hb]
  simp

theorem getElem?_mismatchedRingSectors_none {ours theirs : ExtTreeMap Nat (ExtTreeMap Nat Bytes)}
    {r : Nat} (ha : r ∉ ours) : (mismatchedRingSectors ours theirs)[r]? = none := by
  have hcommon : r ∉ commonKeys ours theirs := fun h => ha (mem_commonKeys_iff.mp h).1
  simp only [mismatchedRingSectors, getElem?_insertAll, if_neg hcommon]
  simp

end Dht
end Kitsune2
