import Mathlib.Data.Option.Basic
import Kitsune2.Dht.Snapshot

/-!
# ExactDiff — a comparison of snapshots reports the differing lookups

A nested map is looked up with two keys, and a missing sector, a missing slice and a slice without
hash are one and the same `none`.  `compare_exact` says that a comparison reports exactly the places
at which the two sides answer differently, each once, and that both sides of a comparison report the
same: what one peer takes for a difference, the other one does too.
-/

namespace Kitsune2
namespace Dht

open Api Lib
open Std (ExtTreeMap)

/-- Hashes under two keys. -/
abbrev NestedHashes := ExtTreeMap Nat (ExtTreeMap Nat Bytes)

/-- The keys under each key at which a comparison found a difference. -/
abbrev Mismatches := ExtTreeMap Nat (List Nat)

/-- The hash of a slice in a sector, or of a sector in a ring. -/
def lookupHash (m : NestedHashes) (i j : Nat) : Option Bytes :=
  m[i]?.bind fun inner => inner[j]?

/-- The pairs of a report are those with different lookups, and no key is listed twice. -/
structure ExactPairs (m : Mismatches) (ours theirs : NestedHashes) : Prop where
  mem_iff : ∀ i j : Nat, (∃ l, m[i]? = some l ∧ j ∈ l) ↔ lookupHash ours i j ≠ lookupHash theirs i j
  nodup : ∀ (i : Nat) (l : List Nat), m[i]? = some l → l.Nodup

/-- Two reports of the same variant that list the same, in any order. -/
inductive SameReport : SnapshotDiff → SnapshotDiff → Prop
  | identical : SameReport .identical .identical
  | cannotCompare : SameReport .cannotCompare .cannotCompare
  | discMismatch : SameReport .discMismatch .discMismatch
  | discSectorMismatches {l l' : List Nat} (h : l.Perm l') :
      SameReport (.discSectorMismatches l) (.discSectorMismatches l')
  | discSectorSliceMismatches {m m' : Mismatches}
      (h : ∀ i : Nat, Option.Rel List.Perm m[i]? m'[i]?) :
      SameReport (.discSectorSliceMismatches m) (.discSectorSliceMismatches m')
  | ringMismatches {l l' : List Nat} (h : l.Perm l') :
      SameReport (.ringMismatches l) (.ringMismatches l')
  | ringSectorMismatches {m m' : Mismatches}
      (h : ∀ i : Nat, Option.Rel List.Perm m[i]? m'[i]?) :
      SameReport (.ringSectorMismatches m) (.ringSectorMismatches m')

/-! ## Lists of hashes -/

theorem nodup_hashMismatchIndices {left right : List Bytes} (hfits : left.length ≤ 2 ^ 32) :
    (hashMismatchIndices left right).Nodup := by
  -- the positions of the zipped list increase, and each is a `u32`
  have hpos : (left.zipIdx.zip right).Pairwise fun a b => a.1.2 < b.1.2 ∧ b.1.2 < 2 ^ 32 := by
    rw [List.pairwise_iff_getElem]
    intro i j hi hj hij
    have hlt : j < left.length := by
      rw [List.length_zip, List.length_zipIdx] at hj
      omega
    refine ⟨by simpa using hij, ?_⟩
    simpa using Nat.lt_of_lt_of_le hlt hfits
  refine List.Pairwise.filterMap _ ?_ hpos
  rintro a b ⟨hlt, hfit⟩ k hk k' hk'
  simp only [Option.ite_none_right_eq_some, Option.some.injEq] at hk hk'
  rw [← hk.2, ← hk'.2, Nat.mod_eq_of_lt hfit, Nat.mod_eq_of_lt (Nat.lt_trans hlt hfit)]
  exact Nat.ne_of_lt hlt

/-- Both sides report the same positions, in the same order. -/
theorem hashMismatchIndices_comm (left right : List Bytes) :
    hashMismatchIndices left right = hashMismatchIndices right left := by
  have hswap : ∀ n, (left.zipIdx n).zip right =
      ((right.zipIdx n).zip left).map fun e => ((e.2, e.1.2), e.1.1) := by
    induction left generalizing right with
    | nil =>
        intro n
        simp
    | cons l left ih =>
        intro n
        cases right with
        | nil => simp
        | cons r right => simp [ih right (n + 1)]
  unfold hashMismatchIndices
  rw [hswap, List.filterMap_map]
  refine List.filterMap_congr ?_
  rintro ⟨⟨r, i⟩, l⟩ _
  simp [eq_comm]

/-! ## Maps of hashes -/

theorem mismatchedKeys_perm (ours theirs : ExtTreeMap Nat Bytes) :
    (mismatchedKeys ours theirs).Perm (mismatchedKeys theirs ours) := by
  refine (List.perm_ext_iff_of_nodup (nodup_mismatchedKeys _ _) (nodup_mismatchedKeys _ _)).mpr ?_
  intro k
  rw [mem_mismatchedKeys_iff, mem_mismatchedKeys_iff, ne_comm]

section Nested

variable {ours theirs : NestedHashes} {i j : Nat}

/-- What the comparison of two details reports for one sector. -/
def sectorReport (a b : Option (ExtTreeMap Nat Bytes)) : Option (List Nat) :=
  match a, b with
  | none, none => none
  | some a, none => some a.keys
  | none, some b => some b.keys
  | some a, some b => if mismatchedKeys a b = [] then none else some (mismatchedKeys a b)

theorem getElem?_mismatchedSlices_eq (ours theirs : NestedHashes) (i : Nat) :
    (mismatchedSlices ours theirs)[i]? = sectorReport ours[i]? theirs[i]? := by
  -- by which of the two maps has the sector
  cases ha : ours[i]? with
  | none =>
      have hao : i ∉ ours := getElem?_eq_none_iff'.mp ha
      cases hb : theirs[i]? with
      | none =>
          exact getElem?_mismatchedSlices_none hao (getElem?_eq_none_iff'.mp hb)
      | some b =>
          have hbt : i ∈ theirs := ExtTreeMap.mem_iff_isSome_getElem?.mpr (by simp [hb])
          have hsym : i ∈ symmetricDifference ours theirs :=
            mem_symmetricDifference_iff.mpr (Or.inr ⟨hbt, hao⟩)
          have hcommon : i ∉ commonKeys ours theirs := fun h => hao (mem_commonKeys_iff.mp h).1
          simp only [mismatchedSlices, getElem?_insertAll, if_neg hcommon, if_pos hsym, ha, hb]
          rfl
  | some a =>
      have hao : i ∈ ours := ExtTreeMap.mem_iff_isSome_getElem?.mpr (by simp [ha])
      cases hb : theirs[i]? with
      | none =>
          have hbt : i ∉ theirs := getElem?_eq_none_iff'.mp hb
          have hsym : i ∈ symmetricDifference ours theirs :=
            mem_symmetricDifference_iff.mpr (Or.inl ⟨hao, hbt⟩)
          have hcommon : i ∉ commonKeys ours theirs := fun h => hbt (mem_commonKeys_iff.mp h).2
          simp only [mismatchedSlices, getElem?_insertAll, if_neg hcommon, if_pos hsym, ha]
          rfl
      | some b =>
          exact getElem?_mismatchedSlices ha hb

theorem mem_sectorReport_iff {a b : Option (ExtTreeMap Nat Bytes)} :
    (∃ l, sectorReport a b = some l ∧ j ∈ l) ↔
      (a.bind fun inner => inner[j]?) ≠ b.bind fun inner => inner[j]? := by
  cases a with
  | none =>
      cases b with
      | none =>
          simp [sectorReport]
      | some b =>
          simp [sectorReport, eq_comm]
  | some a =>
      cases b with
      | none =>
          simp [sectorReport]
      | some b =>
          rw [sectorReport]
          simp only [Option.bind_some, ← mem_mismatchedKeys_iff]
          by_cases hnil : mismatchedKeys a b = []
          · simp [hnil]
          · simp [hnil]

theorem nodup_sectorReport {a b : Option (ExtTreeMap Nat Bytes)} {l : List Nat}
    (h : sectorReport a b = some l) : l.Nodup := by
  cases a with
  | none =>
      cases b with
      | none =>
          cases h
      | some b =>
          cases h
          exact ExtTreeMap.nodup_keys
  | some a =>
      cases b with
      | none =>
          cases h
          exact ExtTreeMap.nodup_keys
      | some b =>
          rw [sectorReport, Option.ite_none_left_eq_some] at h
          cases h.2
          exact nodup_mismatchedKeys a b

theorem sectorReport_rel (a b : Option (ExtTreeMap Nat Bytes)) :
    Option.Rel List.Perm (sectorReport a b) (sectorReport b a) := by
  cases a with
  | none =>
      cases b with
      | none => exact Option.Rel.none
      | some b => exact Option.Rel.some (List.Perm.refl _)
  | some a =>
      cases b with
      | none => exact Option.Rel.some (List.Perm.refl _)
      | some b =>
          have hperm := mismatchedKeys_perm a b
          simp only [sectorReport]
          by_cases hnil : mismatchedKeys a b = []
          · have hnil' : mismatchedKeys b a = [] := by
              rw [hnil] at hperm
              exact hperm.nil_eq.symm
            rw [if_pos hnil, if_pos hnil']
            exact Option.Rel.none
          · have hnil' : mismatchedKeys b a ≠ [] := by
              intro h
              rw [h] at hperm
              exact hnil hperm.eq_nil
            rw [if_neg hnil, if_neg hnil']
            exact Option.Rel.some hperm

theorem exactPairs_mismatchedSlices (ours theirs : NestedHashes) :
    ExactPairs (mismatchedSlices ours theirs) ours theirs where
  mem_iff := by
    intro i j
    rw [getElem?_mismatchedSlices_eq]
    exact mem_sectorReport_iff
  nodup := by
    intro i l h
    rw [getElem?_mismatchedSlices_eq] at h
    exact nodup_sectorReport h

/-- With the same rings on both sides, the rings report the sectors that differ. -/
theorem getElem?_mismatchedRingSectors_eq (hkeys : ∀ k, k ∈ ours ↔ k ∈ theirs) (r : Nat) :
    (mismatchedRingSectors ours theirs)[r]? =
      ours[r]?.map fun a => mismatchedKeys a (theirs[r]?.getD ∅) := by
  cases ha : ours[r]? with
  | none =>
      exact getElem?_mismatchedRingSectors_none (getElem?_eq_none_iff'.mp ha)
  | some a =>
      have hao : r ∈ ours := ExtTreeMap.mem_iff_isSome_getElem?.mpr (by simp [ha])
      rcases Option.isSome_iff_exists.mp
        (ExtTreeMap.mem_iff_isSome_getElem?.mp ((hkeys r).mp hao)) with ⟨b, hb⟩
      rw [getElem?_mismatchedRingSectors ha hb, hb]
      rfl

theorem exactPairs_mismatchedRingSectors (hkeys : ∀ k, k ∈ ours ↔ k ∈ theirs) :
    ExactPairs (mismatchedRingSectors ours theirs) ours theirs where
  mem_iff := by
    intro r j
    rw [getElem?_mismatchedRingSectors_eq hkeys]
    unfold lookupHash
    cases ha : ours[r]? with
    | none =>
        have hnone : theirs[r]? = none := by
          rw [getElem?_eq_none_iff', ← hkeys r]
          exact getElem?_eq_none_iff'.mp ha
        simp [hnone]
    | some a =>
        have hao : r ∈ ours := ExtTreeMap.mem_iff_isSome_getElem?.mpr (by simp [ha])
        rcases Option.isSome_iff_exists.mp
          (ExtTreeMap.mem_iff_isSome_getElem?.mp ((hkeys r).mp hao)) with ⟨b, hb⟩
        simp [hb, mem_mismatchedKeys_iff]
  nodup := by
    intro r l h
    rw [getElem?_mismatchedRingSectors_eq hkeys] at h
    rcases Option.map_eq_some_iff.mp h with ⟨a, _, rfl⟩
    exact nodup_mismatchedKeys _ _

theorem mismatchedRingSectors_rel (hkeys : ∀ k, k ∈ ours ↔ k ∈ theirs) (r : Nat) :
    Option.Rel List.Perm (mismatchedRingSectors ours theirs)[r]?
      (mismatchedRingSectors theirs ours)[r]? := by
  rw [getElem?_mismatchedRingSectors_eq hkeys,
    getElem?_mismatchedRingSectors_eq fun k => (hkeys k).symm]
  cases ha : ours[r]? with
  | none =>
      have hnone : theirs[r]? = none := by
        rw [getElem?_eq_none_iff', ← hkeys r]
        exact getElem?_eq_none_iff'.mp ha
      rw [hnone]
      exact Option.Rel.none
  | some a =>
      have hao : r ∈ ours := ExtTreeMap.mem_iff_isSome_getElem?.mpr (by simp [ha])
      rcases Option.isSome_iff_exists.mp
        (ExtTreeMap.mem_iff_isSome_getElem?.mp ((hkeys r).mp hao)) with ⟨b, hb⟩
      rw [hb]
      exact Option.Rel.some (mismatchedKeys_perm a b)

end Nested

/-! ## Comparisons -/

namespace DhtSnapshot

theorem compare_self (a : DhtSnapshot) : compare a a = .identical := by
  unfold compare
  rw [if_pos rfl]

theorem compare_eq_identical_iff {a b : DhtSnapshot} : compare a b = .identical ↔ a = b := by
  constructor
  · intro h
    by_contra hne
    unfold compare at h
    rw [if_neg hne] at h
    -- past the first check no branch answers `Identical`
    repeat' split at h
    all_goals cases h
  · rintro rfl
    exact compare_self a

/-- Slices are reported for two details with one boundary. -/
theorem compare_slices {a b : DhtSnapshot} {slices : Mismatches}
    (h : compare a b = .discSectorSliceMismatches slices) :
    ∃ ours theirs boundary, a = .discSectorDetails ours boundary ∧
      b = .discSectorDetails theirs boundary ∧ slices = mismatchedSlices ours theirs := by
  unfold compare at h
  repeat' split at h
  all_goals cases h
  rename_i hboundary
  exact ⟨_, _, _, rfl, by rw [not_not.mp hboundary], rfl⟩

/-- Sectors of rings are reported for two ring details with one boundary and the same rings. -/
theorem compare_ringSectors {a b : DhtSnapshot} {sectors : Mismatches}
    (h : compare a b = .ringSectorMismatches sectors) :
    ∃ ours theirs boundary, a = .ringSectorDetails ours boundary ∧
      b = .ringSectorDetails theirs boundary ∧ (∀ k, k ∈ ours ↔ k ∈ theirs) ∧
      sectors = mismatchedRingSectors ours theirs := by
  unfold compare at h
  repeat' split at h
  all_goals cases h
  rename_i hboundary hkeys
  refine ⟨_, _, _, rfl, by rw [not_not.mp hboundary], ?_, rfl⟩
  intro k
  rw [← ExtTreeMap.mem_keys, not_not.mp hkeys, ExtTreeMap.mem_keys]

theorem compare_discDetails {ours theirs : NestedHashes} (hne : ours ≠ theirs) (boundary : Int) :
    compare (.discSectorDetails ours boundary) (.discSectorDetails theirs boundary) =
      .discSectorSliceMismatches (mismatchedSlices ours theirs) := by
  simp [compare, hne]

theorem compare_ringDetails {ours theirs : NestedHashes} (hne : ours ≠ theirs)
    (hkeys : ∀ k, k ∈ ours ↔ k ∈ theirs) (boundary : Int) :
    compare (.ringSectorDetails ours boundary) (.ringSectorDetails theirs boundary) =
      .ringSectorMismatches (mismatchedRingSectors ours theirs) := by
  simp [compare, hne, keys_eq_of_mem_iff hkeys]

/-- Both sides of a comparison see the same. -/
theorem compare_symm (a b : DhtSnapshot) : SameReport (compare a b) (compare b a) := by
  by_cases heq : a = b
  · subst heq
    rw [compare_self]
    exact .identical
  have heq' : b ≠ a := fun h => heq h.symm
  unfold compare
  rw [if_neg heq, if_neg heq']
  cases a with
  -- in each variant the tests are symmetric, and so is what is reported behind them
  | minimal disc boundary rings =>
      cases b with
      | minimal disc' boundary' rings' =>
          by_cases hboundary : boundary = boundary'
          · by_cases hdisc : disc = disc'
            · by_cases hlen : rings.length = rings'.length
              · simp only [hboundary, hdisc, hlen, ne_eq, not_true_eq_false, if_false]
                exact .ringMismatches (.of_eq (hashMismatchIndices_comm _ _))
              · have hlen' : rings'.length ≠ rings.length := fun h => hlen h.symm
                simp only [hboundary, hdisc, ne_eq, not_true_eq_false, if_false, if_pos hlen,
                  if_pos hlen']
                exact .cannotCompare
            · have hdisc' : disc' ≠ disc := fun h => hdisc h.symm
              simp only [hboundary, ne_eq, not_true_eq_false, if_false, if_pos hdisc, if_pos hdisc']
              exact .discMismatch
          · have hboundary' : boundary' ≠ boundary := fun h => hboundary h.symm
            simp only [ne_eq, if_pos hboundary, if_pos hboundary']
            exact .cannotCompare
      | discSectors => exact .cannotCompare
      | discSectorDetails => exact .cannotCompare
      | ringSectorDetails => exact .cannotCompare
  | discSectors hashes boundary =>
      cases b with
      | discSectors hashes' boundary' =>
          by_cases hboundary : boundary = boundary'
          · simp only [hboundary, ne_eq, not_true_eq_false, if_false]
            exact .discSectorMismatches (mismatchedKeys_perm hashes hashes')
          · have hboundary' : boundary' ≠ boundary := fun h => hboundary h.symm
            simp only [ne_eq, if_pos hboundary, if_pos hboundary']
            exact .cannotCompare
      | minimal => exact .cannotCompare
      | discSectorDetails => exact .cannotCompare
      | ringSectorDetails => exact .cannotCompare
  | discSectorDetails hashes boundary =>
      cases b with
      | discSectorDetails hashes' boundary' =>
          by_cases hboundary : boundary = boundary'
          · simp only [hboundary, ne_eq, not_true_eq_false, if_false]
            refine .discSectorSliceMismatches ?_
            intro i
            rw [getElem?_mismatchedSlices_eq, getElem?_mismatchedSlices_eq]
            exact sectorReport_rel _ _
          · have hboundary' : boundary' ≠ boundary := fun h => hboundary h.symm
            simp only [ne_eq, if_pos hboundary, if_pos hboundary']
            exact .cannotCompare
      | minimal => exact .cannotCompare
      | discSectors => exact .cannotCompare
      | ringSectorDetails => exact .cannotCompare
  | ringSectorDetails hashes boundary =>
      cases b with
      | ringSectorDetails hashes' boundary' =>
          by_cases hboundary : boundary = boundary'
          · by_cases hkeys : hashes.keys = hashes'.keys
            · have hmem : ∀ k, k ∈ hashes ↔ k ∈ hashes' := by
                intro k
                rw [← ExtTreeMap.mem_keys, hkeys, ExtTreeMap.mem_keys]
              simp only [hboundary, hkeys, ne_eq, not_true_eq_false, if_false]
              exact .ringSectorMismatches (mismatchedRingSectors_rel hmem)
            · have hkeys' : hashes'.keys ≠ hashes.keys := fun h => hkeys h.symm
              simp only [hboundary, ne_eq, not_true_eq_false, if_false, if_pos hkeys, if_pos hkeys']
              exact .cannotCompare
          · have hboundary' : boundary' ≠ boundary := fun h => hboundary h.symm
            simp only [ne_eq, if_pos hboundary, if_pos hboundary']
            exact .cannotCompare
      | minimal => exact .cannotCompare
      | discSectors => exact .cannotCompare
      | discSectorDetails => exact .cannotCompare

end DhtSnapshot

/-- A comparison is `Identical` for equal snapshots only; otherwise, where the snapshots are
comparable, it lists exactly the differing places, each once, provided that the indices of the rings
fit a `u32`; and it is symmetric. -/
theorem compare_exact :
    (∀ a b, DhtSnapshot.compare a b = .identical ↔ a = b) ∧
      (∀ ours theirs boundary, ours ≠ theirs → ∃ sectors,
        DhtSnapshot.compare (.discSectors ours boundary) (.discSectors theirs boundary) =
            .discSectorMismatches sectors ∧
          sectors.Nodup ∧ ∀ i, i ∈ sectors ↔ ours[i]? ≠ theirs[i]?) ∧
      (∀ ours theirs boundary, ours ≠ theirs → ∃ slices,
        DhtSnapshot.compare (.discSectorDetails ours boundary) (.discSectorDetails theirs boundary) =
            .discSectorSliceMismatches slices ∧ ExactPairs slices ours theirs) ∧
      (∀ ours theirs boundary, ours ≠ theirs → (∀ r, r ∈ ours ↔ r ∈ theirs) → ∃ sectors,
        DhtSnapshot.compare (.ringSectorDetails ours boundary) (.ringSectorDetails theirs boundary) =
            .ringSectorMismatches sectors ∧ ExactPairs sectors ours theirs) ∧
      (∀ disc boundary ours theirs, ours ≠ theirs → ours.length = theirs.length →
        ours.length ≤ 2 ^ 32 → ∃ rings,
        DhtSnapshot.compare (.minimal disc boundary ours) (.minimal disc boundary theirs) =
            .ringMismatches rings ∧
          rings.Nodup ∧ ∀ k : Nat, k ∈ rings ↔ ours[k]? ≠ theirs[k]?) ∧
      ∀ a b, SameReport (DhtSnapshot.compare a b) (DhtSnapshot.compare b a) := by
  refine ⟨fun a b => DhtSnapshot.compare_eq_identical_iff, ?_, ?_, ?_, ?_,
    DhtSnapshot.compare_symm⟩
  · intro ours theirs boundary hne
    refine ⟨mismatchedKeys ours theirs, ?_, nodup_mismatchedKeys _ _,
      fun i => mem_mismatchedKeys_iff⟩
    simp [DhtSnapshot.compare, hne]
  · intro ours theirs boundary hne
    exact ⟨mismatchedSlices ours theirs, DhtSnapshot.compare_discDetails hne boundary,
      exactPairs_mismatchedSlices ours theirs⟩
  · intro ours theirs boundary hne hkeys
    exact ⟨mismatchedRingSectors ours theirs, DhtSnapshot.compare_ringDetails hne hkeys boundary,
      exactPairs_mismatchedRingSectors hkeys⟩
  · intro disc boundary ours theirs hne hlen hfits
    refine ⟨hashMismatchIndices ours theirs, ?_, nodup_hashMismatchIndices hfits, ?_⟩
    · simp [DhtSnapshot.compare, hne, hlen]
    · intro k
      rw [mem_hashMismatchIndices_iff hlen hfits]
      refine ⟨fun h => h.2, fun hdiff => ⟨?_, hdiff⟩⟩
      -- past the end both sides have nothing
      by_contra hge
      rw [List.getElem?_eq_none (by omega), List.getElem?_eq_none (by omega)] at hdiff
      exact hdiff rfl

/-- A sector that only we have is reported with its slices. -/
theorem compare_exact_one_sided :
    ∃ slices,
      DhtSnapshot.compare
          (.discSectorDetails ((∅ : NestedHashes).insert 3 ((∅ : ExtTreeMap Nat Bytes).insert 5 [7])) 0)
          (.discSectorDetails ∅ 0) = .discSectorSliceMismatches slices ∧
        ∃ l, slices[3]? = some l ∧ 5 ∈ l := by
  have hdiff : lookupHash ((∅ : NestedHashes).insert 3 ((∅ : ExtTreeMap Nat Bytes).insert 5 [7])) 3 5 ≠
      lookupHash ∅ 3 5 := by
    simp [lookupHash]
  have hne : (∅ : NestedHashes).insert 3 ((∅ : ExtTreeMap Nat Bytes).insert 5 [7]) ≠ ∅ := by
    intro h
    rw [h] at hdiff
    exact hdiff rfl
  rcases compare_exact.2.2.1 _ _ 0 hne with ⟨slices, heq, hexact⟩
  exact ⟨slices, heq, (hexact.mem_iff 3 5).mpr hdiff⟩

/-- One ring more than a `u32` counts, all without ops but for the last. -/
def manyRings (last : Bytes) : List Bytes :=
  List.replicate (2 ^ 32) [] ++ [last]

theorem length_manyRings (last : Bytes) : (manyRings last).length = 2 ^ 32 + 1 := by
  rw [manyRings, List.length_append, List.length_replicate, List.length_singleton]

theorem getElem?_manyRings_last (last : Bytes) : (manyRings last)[2 ^ 32]? = some last := by
  rw [manyRings, List.getElem?_append_right (by rw [List.length_replicate]), List.length_replicate,
    Nat.sub_self]
  rfl

/-- The index of the last of so many rings wraps: ring 0 is reported, in which nothing differs. -/
theorem compare_wraps_last_ring :
    ∃ rings,
      DhtSnapshot.compare (.minimal [] 0 (manyRings [1])) (.minimal [] 0 (manyRings [2])) =
          .ringMismatches rings ∧
        0 ∈ rings ∧ (manyRings [1])[0]? = (manyRings [2])[0]? := by
  have hlen : (manyRings [1]).length = (manyRings [2]).length := by
    rw [length_manyRings, length_manyRings]
  have hlast : (manyRings [1])[2 ^ 32]? ≠ (manyRings [2])[2 ^ 32]? := by
    rw [getElem?_manyRings_last, getElem?_manyRings_last]
    decide
  have hne : manyRings [1] ≠ manyRings [2] := fun heq => hlast (by rw [heq])
  refine ⟨hashMismatchIndices (manyRings [1]) (manyRings [2]), ?_, ?_, ?_⟩
  · simp [DhtSnapshot.compare, hne, hlen]
  · refine (mem_hashMismatchIndices_iff_exists hlen).mpr ⟨2 ^ 32, Nat.mod_self _, ?_, hlast⟩
    rw [length_manyRings]
    exact Nat.lt_succ_self _
  · have hfirst : 0 < (List.replicate (2 ^ 32) ([] : Bytes)).length := by
      rw [List.length_replicate]
      decide
    rw [manyRings, manyRings, List.getElem?_append_left hfirst, List.getElem?_append_left hfirst]

end Dht
end Kitsune2
