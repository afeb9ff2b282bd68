import Kitsune2.Dht.Collect

/-!
# Spending — the byte budget of a list of op ids

A node that answers a snapshot collects op ids within a budget of op data.  Its sums are `u32` values
that are compared as `i32` values with what is left.  Every operation of the collecting loops is
listed here with its exact result, so that it can be said when one of them does not fit its type, and
the ids that are found are priced against the budget, for any DHT and any budget.
-/

namespace Kitsune2
namespace Dht

open Api Lib

variable {loc : LocCb} {size : Bytes → Nat}

/-! ## Results of operations -/

/-- The exact result of an operation, with the type it is kept in. -/
inductive Computed
  | u32 (value : Int)
  | i32 (value : Int)
  deriving DecidableEq, Repr

def Computed.Fits : Computed → Prop
  | .u32 value => 0 ≤ value ∧ value < 2 ^ 32
  | .i32 value => -(2 ^ 31) ≤ value ∧ value < 2 ^ 31

instance Computed.Fits.decidable : ∀ c : Computed, Decidable c.Fits
  | .u32 value => inferInstanceAs (Decidable (0 ≤ value ∧ value < 2 ^ 32))
  | .i32 value => inferInstanceAs (Decidable (-(2 ^ 31) ≤ value ∧ value < 2 ^ 31))

/-- The data of the ops of a slice. -/
def sliceBytes (loc : LocCb) (st : OpStore) (arc : DhtArc) (bounds : Int × Int) : Nat :=
  ((st.opsInSlice loc arc bounds.1 bounds.2).map fun op => op.dataLen).sum

/-- The data that op ids stand for. -/
def bytesOf (size : Bytes → Nat) (opIds : List Bytes) : Nat :=
  (opIds.map size).sum

@[simp] theorem bytesOf_nil : bytesOf size [] = 0 := rfl

theorem bytesOf_append (opIds more : List Bytes) :
    bytesOf size (opIds ++ more) = bytesOf size opIds + bytesOf size more := by
  unfold bytesOf
  rw [List.map_append, List.sum_append]

/-- The op store knows the data of an op by its id. -/
def OpStore.SizedBy (size : Bytes → Nat) (st : OpStore) : Prop :=
  ∀ op ∈ st.opList, op.dataLen = size op.opId

namespace DhtState

/-- No slice of a sector has so much data that it would reach `2 ^ 31` together with the budget. -/
def SlicesFit (loc : LocCb) (d : DhtState) (budget : Int) : Prop :=
  ∀ sector arc, d.partition.dhtArcForSectorIndex sector = .ok arc →
    ∀ slice bounds, d.partition.timeBoundsForFullSliceIndex slice = .ok bounds ∨
        d.partition.timeBoundsForPartialSliceIndex slice = .ok bounds →
      budget + sliceBytes loc d.store arc bounds < 2 ^ 31

/-! ## The operations of the loops -/

section Operations

variable (loc : LocCb) (d : DhtState) (maxOpDataBytes : Int)

/-- `used_bytes + ub`, and the comparison of it. -/
def takeSliceComputes (arc : DhtArc) (bounds : Int × Int) (acc : Collected) : List Computed :=
  let total : Int := acc.2 + (d.store.opHashesInTimeSlice loc arc bounds.1 bounds.2).2
  [.u32 total, .i32 total]

def collectSlicesComputes (arc : DhtArc) : List Nat → Collected → List Computed
  | [], _ => []
  | slice :: slices, acc =>
      match orSkip (d.partition.timeBoundsForFullSliceIndex slice) with
      | .error _ => []
      | .ok none => collectSlicesComputes arc slices acc
      | .ok (some bounds) =>
          takeSliceComputes loc d arc bounds acc ++
            match takeSlice loc d maxOpDataBytes arc bounds acc with
            | .ok acc => collectSlicesComputes arc slices acc
            | .error _ => []

def collectDiscComputes : List (Nat × List Nat) → Collected → List Computed
  | [], _ => []
  | (sector, slices) :: rest, acc =>
      -- `used_bytes as i32`
      .i32 acc.2 ::
        if asI32 acc.2 ≥ maxOpDataBytes then []
        else
          match orSkip (d.partition.dhtArcForSectorIndex sector) with
          | .error _ => []
          | .ok none => collectDiscComputes rest acc
          | .ok (some arc) =>
              collectSlicesComputes loc d maxOpDataBytes arc (slices.insertionSort (· ≤ ·)) acc ++
                match collectSlices loc d maxOpDataBytes arc (slices.insertionSort (· ≤ ·)) acc with
                | .ok acc => collectDiscComputes rest acc
                | .error _ => []

def collectRingsComputes : List (Nat × Nat) → Collected → List Computed
  | [], _ => []
  | (ring, sector) :: rest, acc =>
      .i32 acc.2 ::
        if asI32 acc.2 ≥ maxOpDataBytes then []
        else
          match orSkip (d.partition.dhtArcForSectorIndex sector) with
          -- a panic ends the loop, an error skips the entry
          | .error _ => []
          | .ok none => collectRingsComputes rest acc
          | .ok (some arc) =>
              match orSkip (d.partition.timeBoundsForPartialSliceIndex ring) with
              | .error _ => []
              | .ok none => collectRingsComputes rest acc
              | .ok (some bounds) =>
                  takeSliceComputes loc d arc bounds acc ++
                    match takeSlice loc d maxOpDataBytes arc bounds acc with
                    | .ok acc => collectRingsComputes rest acc
                    | .error _ => []

/-- The operations on the budget while a snapshot is handled. -/
def handleSnapshotComputes (theirSnapshot : DhtSnapshot) (ourPreviousSnapshot : Option DhtSnapshot)
    (arcSet : ArcSet) : List Computed :=
  match d.matchingSnapshot theirSnapshot ourPreviousSnapshot arcSet with
  | .error _ => []
  | .ok ourSnapshot =>
      match ourSnapshot.compare theirSnapshot with
      | .discSectorSliceMismatches slices =>
          collectDiscComputes loc d maxOpDataBytes slices.toList ([], 0)
      | .ringSectorMismatches sectors =>
          collectRingsComputes loc d maxOpDataBytes (ringSlots sectors.toList) ([], 0)
      | _ => []

end Operations

/-! ## Prices -/

/-- The sum is that of the ids, and within the budget. -/
structure Priced (size : Bytes → Nat) (budget : Int) (acc : Collected) : Prop where
  exact : acc.2 = bytesOf size acc.1
  within : (acc.2 : Int) ≤ budget

variable {d : DhtState} {budget : Int} {arc : DhtArc} {bounds : Int × Int} {acc : Collected}

theorem Priced.nil (h : 0 ≤ budget) : Priced size budget ([], 0) :=
  ⟨rfl, h⟩

theorem sliceBytes_eq (hsized : d.store.SizedBy size) :
    sliceBytes loc d.store arc bounds =
      bytesOf size (d.store.opHashesInTimeSlice loc arc bounds.1 bounds.2).1 := by
  unfold sliceBytes bytesOf OpStore.opHashesInTimeSlice
  rw [List.map_map]
  refine congrArg List.sum (List.map_congr_left ?_)
  intro op hop
  have hmem : op ∈ d.store.opList := (List.mem_filter.mp ((List.mem_insertionSort _).mp hop)).1
  exact hsized op hmem

section Takes

variable (hbudget : 0 ≤ budget) (hsized : d.store.SizedBy size)

include hbudget

theorem opHashes_bytes (hfit : budget + sliceBytes loc d.store arc bounds < 2 ^ 31) :
    (d.store.opHashesInTimeSlice loc arc bounds.1 bounds.2).2 =
      sliceBytes loc d.store arc bounds := by
  unfold OpStore.opHashesInTimeSlice
  exact Nat.mod_eq_of_lt (by unfold sliceBytes at hfit; omega)

theorem takeSliceComputes_fit (hfit : budget + sliceBytes loc d.store arc bounds < 2 ^ 31)
    (hacc : Priced size budget acc) :
    ∀ c ∈ takeSliceComputes loc d arc bounds acc, c.Fits := by
  intro c hc
  have hbytes := opHashes_bytes hbudget hfit
  have hwithin := hacc.within
  simp only [takeSliceComputes, hbytes, List.mem_cons, List.not_mem_nil, or_false] at hc
  rcases hc with rfl | rfl
  · exact ⟨by omega, by omega⟩
  · exact ⟨by omega, by omega⟩

/-- The check at the head of a loop compares a sum that fits. -/
theorem asI32_fits (hacc : Priced size budget acc) (hmax : budget < 2 ^ 31) :
    (Computed.i32 acc.2).Fits := by
  have hwithin := hacc.within
  exact ⟨by omega, by omega⟩

include hsized

/-- A slice is taken only if it fits what is left. -/
theorem takeSlice_priced (hfit : budget + sliceBytes loc d.store arc bounds < 2 ^ 31)
    (hacc : Priced size budget acc) :
    ∃ acc', takeSlice loc d budget arc bounds acc = .ok acc' ∧ Priced size budget acc' := by
  have hbytes := opHashes_bytes hbudget hfit
  have hwithin := hacc.within
  have hadd : addU32 acc.2 (sliceBytes loc d.store arc bounds) =
      .ok (acc.2 + sliceBytes loc d.store arc bounds) := by
    unfold addU32
    rw [if_pos]
    simp only [u32Max]
    omega
  -- the sum is below 2 ^ 31, so the cast to i32 keeps it
  have hcast : asI32 (acc.2 + sliceBytes loc d.store arc bounds) =
      (acc.2 + sliceBytes loc d.store arc bounds : Nat) := asI32_of_lt (by omega)
  have hrun : takeSlice loc d budget arc bounds acc =
      .ok (if ((acc.2 + sliceBytes loc d.store arc bounds : Nat) : Int) ≤ budget then
        (acc.1 ++ (d.store.opHashesInTimeSlice loc arc bounds.1 bounds.2).1,
          acc.2 + sliceBytes loc d.store arc bounds) else acc) := by
    unfold takeSlice
    refine bind_eq_ok_iff.mpr ⟨_, (congrArg (addU32 acc.2) hbytes).trans hadd, ?_⟩
    rw [hcast]
    split
    · rfl
    · rfl
  rw [hrun]
  by_cases hle : ((acc.2 + sliceBytes loc d.store arc bounds : Nat) : Int) ≤ budget
  · rw [if_pos hle]
    refine ⟨_, rfl, ⟨?_, hle⟩⟩
    calc
      acc.2 + sliceBytes loc d.store arc bounds
          = bytesOf size acc.1 + sliceBytes loc d.store arc bounds := by rw [hacc.exact]
      _ = _ := by rw [sliceBytes_eq hsized, ← bytesOf_append]
  · rw [if_neg hle]
    exact ⟨acc, rfl, hacc⟩

/-! ## Whole loops -/

/-- What a loop guarantees: its sum is priced, and its operations fit. -/
theorem collectSlices_priced
    (hfit : ∀ slice bounds, d.partition.timeBoundsForFullSliceIndex slice = .ok bounds →
      budget + sliceBytes loc d.store arc bounds < 2 ^ 31) :
    ∀ (slices : List Nat) (acc : Collected), Priced size budget acc →
      (∀ acc', collectSlices loc d budget arc slices acc = .ok acc' → Priced size budget acc') ∧
        ∀ c ∈ collectSlicesComputes loc d budget arc slices acc, c.Fits := by
  intro slices
  induction slices with
  | nil =>
      intro acc hacc
      refine ⟨?_, fun c hc => by cases hc⟩
      intro acc' h
      cases h
      exact hacc
  | cons slice slices ih =>
      intro acc hacc
      rw [collectSlicesComputes]
      cases hbounds : d.partition.timeBoundsForFullSliceIndex slice with
      | error fault =>
          cases fault with
          -- an error skips the slice, a panic ends the loop
          | k2 reason =>
              rw [collectSlices_cons_skip hbounds]
              exact ih acc hacc
          | panicked reason =>
              rw [collectSlices_cons_panicked hbounds]
              exact ⟨fun acc' h => (by cases h), fun c hc => (by cases hc)⟩
      | ok bounds =>
          have hhere := hfit slice bounds hbounds
          rcases takeSlice_priced hbudget hsized hhere hacc with ⟨acc₁, htake, hacc₁⟩
          rcases ih acc₁ hacc₁ with ⟨hrest, hops⟩
          refine ⟨?_, ?_⟩
          · rw [collectSlices_cons_ok hbounds htake]
            exact hrest
          · intro c hc
            simp only [orSkip, htake, List.mem_append] at hc
            rcases hc with hc | hc
            · exact takeSliceComputes_fit hbudget hhere hacc c hc
            · exact hops c hc

variable (hfit : d.SlicesFit loc budget) (hmax : budget < 2 ^ 31)

include hfit hmax

theorem collectDisc_priced :
    ∀ (groups : List (Nat × List Nat)) (acc : Collected), Priced size budget acc →
      (∀ acc', collectDisc loc d budget groups acc = .ok acc' → Priced size budget acc') ∧
        ∀ c ∈ collectDiscComputes loc d budget groups acc, c.Fits := by
  intro groups
  induction groups with
  | nil =>
      intro acc hacc
      refine ⟨?_, fun c hc => by cases hc⟩
      intro acc' h
      cases h
      exact hacc
  | cons group rest ih =>
      rcases group with ⟨sector, slices⟩
      intro acc hacc
      have hhead := asI32_fits hbudget hacc hmax
      rw [collectDisc, collectDiscComputes]
      split
      · -- the budget is used up: the loop ends here
        refine ⟨?_, ?_⟩
        · intro acc' h
          cases h
          exact hacc
        · intro c hc
          rw [List.mem_singleton] at hc
          exact hc ▸ hhead
      · cases harc : d.partition.dhtArcForSectorIndex sector with
        | error fault =>
            cases fault with
            | k2 reason =>
                rcases ih acc hacc with ⟨hrest, hops⟩
                refine ⟨hrest, ?_⟩
                intro c hc
                rcases List.mem_cons.mp hc with rfl | hc
                · exact hhead
                · exact hops c hc
            | panicked reason =>
                refine ⟨fun acc' h => (by cases h), ?_⟩
                intro c hc
                rcases List.mem_cons.mp hc with rfl | hc
                · exact hhead
                · cases hc
        | ok arc =>
            have hslices := collectSlices_priced hbudget hsized
              (fun slice bounds hbounds => hfit sector arc harc slice bounds (Or.inl hbounds))
              (slices.insertionSort (· ≤ ·)) acc hacc
            refine ⟨?_, ?_⟩
            · intro acc' h
              rcases bind_eq_ok_iff.mp h with ⟨found, hfound, h⟩
              cases hfound
              rcases bind_eq_ok_iff.mp h with ⟨acc₁, hcollect, h⟩
              exact (ih acc₁ (hslices.1 acc₁ hcollect)).1 acc' h
            · intro c hc
              rcases List.mem_cons.mp hc with rfl | hc
              · exact hhead
              simp only [orSkip, List.mem_append] at hc
              rcases hc with hc | hc
              · exact hslices.2 c hc
              · split at hc
                · rename_i acc₁ hcollect
                  exact (ih acc₁ (hslices.1 acc₁ hcollect)).2 c hc
                · cases hc

theorem collectRings_priced :
    ∀ (slots : List (Nat × Nat)) (acc : Collected), Priced size budget acc →
      (∀ acc', collectRings loc d budget slots acc = .ok acc' → Priced size budget acc') ∧
        ∀ c ∈ collectRingsComputes loc d budget slots acc, c.Fits := by
  intro slots
  induction slots with
  | nil =>
      intro acc hacc
      refine ⟨?_, fun c hc => by cases hc⟩
      intro acc' h
      cases h
      exact hacc
  | cons slot rest ih =>
      rcases slot with ⟨ring, sector⟩
      intro acc hacc
      -- the comparison with the budget is made before anything else, in every round of the loop
      have hhead := asI32_fits hbudget hacc hmax
      have hnone : ∀ c ∈ Computed.i32 acc.2 :: [], c.Fits := by
        intro c hc
        rw [List.mem_singleton] at hc
        exact hc ▸ hhead
      have hskip : ∀ c ∈ Computed.i32 acc.2 :: collectRingsComputes loc d budget rest acc,
          c.Fits := by
        intro c hc
        rcases List.mem_cons.mp hc with rfl | hc
        · exact hhead
        · exact (ih acc hacc).2 c hc
      rw [collectRings, collectRingsComputes]
      split
      · refine ⟨?_, hnone⟩
        intro acc' h
        cases h
        exact hacc
      · cases harc : d.partition.dhtArcForSectorIndex sector with
        | error fault =>
            cases fault with
            | k2 reason => exact ⟨(ih acc hacc).1, hskip⟩
            | panicked reason => exact ⟨fun acc' h => (by cases h), hnone⟩
        | ok arc =>
            cases hbounds : d.partition.timeBoundsForPartialSliceIndex ring with
            | error fault =>
                cases fault with
                | k2 reason => exact ⟨(ih acc hacc).1, hskip⟩
                | panicked reason => exact ⟨fun acc' h => (by cases h), hnone⟩
            | ok bounds =>
                have hhere := hfit sector arc harc ring bounds (Or.inr hbounds)
                rcases takeSlice_priced hbudget hsized hhere hacc with ⟨acc₁, htake, hacc₁⟩
                rcases ih acc₁ hacc₁ with ⟨hrest, hops⟩
                refine ⟨?_, ?_⟩
                · intro acc' h
                  have h : (takeSlice loc d budget arc bounds acc >>= fun acc =>
                      collectRings loc d budget rest acc) = .ok acc' := h
                  rw [htake] at h
                  exact hrest acc' h
                · intro c hc
                  rcases List.mem_cons.mp hc with rfl | hc
                  · exact hhead
                  simp only [orSkip, htake, List.mem_append] at hc
                  rcases hc with hc | hc
                  · exact takeSliceComputes_fit hbudget hhere hacc c hc
                  · exact hops c hc

end Takes

/-! ## Answers -/

end DhtState

/-- The op ids of an answer to a snapshot. -/
def DhtSnapshotNextAction.opIds : DhtSnapshotNextAction → List Bytes
  | .newSnapshotAndHashList _ opIds => opIds
  | .hashList opIds => opIds
  | _ => []

namespace DhtState

variable {d : DhtState} {budget : Int} {theirSnapshot : DhtSnapshot}
  {ourPreviousSnapshot : Option DhtSnapshot} {arcSet : ArcSet}

theorem finishList_found {isFinal : Bool} {ourSnapshot : DhtSnapshot} {found : Collected}
    {nextAction : DhtSnapshotNextAction} {usedBytes : Nat}
    (h : finishList isFinal ourSnapshot found = (nextAction, usedBytes)) :
    (nextAction.opIds, usedBytes) = found := by
  unfold finishList at h
  split at h
  · cases h
    rfl
  · cases h
    rfl

/-- An answer has no op ids, or those that one of the two loops has collected. -/
theorem handleSnapshot_cases {nextAction : DhtSnapshotNextAction} {usedBytes : Nat}
    (h : d.handleSnapshot loc theirSnapshot ourPreviousSnapshot arcSet budget =
      .ok (nextAction, usedBytes)) :
    ∃ ours, d.matchingSnapshot theirSnapshot ourPreviousSnapshot arcSet = .ok ours ∧
      ((nextAction.opIds, usedBytes) = ([], 0) ∨
        (∃ slices, ours.compare theirSnapshot = .discSectorSliceMismatches slices ∧
          collectDisc loc d budget slices.toList ([], 0) = .ok (nextAction.opIds, usedBytes)) ∨
        ∃ sectors, ours.compare theirSnapshot = .ringSectorMismatches sectors ∧
          collectRings loc d budget (ringSlots sectors.toList) ([], 0) =
            .ok (nextAction.opIds, usedBytes)) := by
  unfold handleSnapshot at h
  split at h
  · cases h
  rcases bind_eq_ok_iff.mp h with ⟨ourSnapshot, hours, h⟩
  refine ⟨ourSnapshot, hours, ?_⟩
  cases hcompare : ourSnapshot.compare theirSnapshot with
  | identical =>
      rw [hcompare] at h
      cases h
      exact Or.inl rfl
  | cannotCompare =>
      rw [hcompare] at h
      cases h
      exact Or.inl rfl
  | discMismatch =>
      rw [hcompare] at h
      rcases bind_eq_ok_iff.mp h with ⟨snapshot, _, h⟩
      cases h
      exact Or.inl rfl
  | discSectorMismatches sectors =>
      rw [hcompare] at h
      rcases bind_eq_ok_iff.mp h with ⟨snapshot, _, h⟩
      cases h
      exact Or.inl rfl
  | ringMismatches rings =>
      rw [hcompare] at h
      rcases bind_eq_ok_iff.mp h with ⟨snapshot, _, h⟩
      cases h
      exact Or.inl rfl
  -- only the two comparisons of details read ops
  | discSectorSliceMismatches slices =>
      rw [hcompare] at h
      rcases bind_eq_ok_iff.mp h with ⟨found, hfound, h⟩
      rw [finishList_found (Except.ok.inj h)]
      exact Or.inr (Or.inl ⟨slices, rfl, hfound⟩)
  | ringSectorMismatches sectors =>
      rw [hcompare] at h
      rcases bind_eq_ok_iff.mp h with ⟨found, hfound, h⟩
      rw [finishList_found (Except.ok.inj h)]
      exact Or.inr (Or.inr ⟨sectors, rfl, hfound⟩)

/-- The op ids of an answer stay within the budget. -/
theorem handleSnapshot_priced (hbudget : 0 ≤ budget) (hmax : budget < 2 ^ 31)
    (hsized : d.store.SizedBy size) (hfit : d.SlicesFit loc budget)
    {nextAction : DhtSnapshotNextAction} {usedBytes : Nat}
    (h : d.handleSnapshot loc theirSnapshot ourPreviousSnapshot arcSet budget =
      .ok (nextAction, usedBytes)) :
    Priced size budget (nextAction.opIds, usedBytes) := by
  have hnil : Priced size budget ([], 0) := Priced.nil hbudget
  rcases handleSnapshot_cases h with ⟨_, _, hnone | ⟨slices, _, hfound⟩ | ⟨sectors, _, hfound⟩⟩
  · rw [hnone]
    exact hnil
  · exact (collectDisc_priced hbudget hsized hfit hmax _ _ hnil).1 _ hfound
  · exact (collectRings_priced hbudget hsized hfit hmax _ _ hnil).1 _ hfound

/-- No operation on the budget leaves its type. -/
theorem handleSnapshotComputes_fit (hbudget : 0 ≤ budget) (hmax : budget < 2 ^ 31)
    (hsized : d.store.SizedBy size) (hfit : d.SlicesFit loc budget) :
    ∀ c ∈ d.handleSnapshotComputes loc budget theirSnapshot ourPreviousSnapshot arcSet, c.Fits := by
  have hnil : Priced size budget ([], 0) := Priced.nil hbudget
  intro c hc
  unfold handleSnapshotComputes at hc
  split at hc
  · cases hc
  split at hc
  · exact (collectDisc_priced hbudget hsized hfit hmax _ _ hnil).2 c hc
  · exact (collectRings_priced hbudget hsized hfit hmax _ _ hnil).2 c hc
  · cases hc

end DhtState

end Dht
end Kitsune2
