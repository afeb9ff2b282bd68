import Kitsune2.Dht.ExactDiff
import Kitsune2.Dht.Spending

/-!
# GreedySpending — the op ids of an answer are a first fit of the mismatched slices

Both loops of `handle_snapshot` walk the mismatched places in order, with a `u32` total and an `i32`
budget that may be zero or negative.  As long as every sum they form is an `i32`, each walk is a
`Selects`: a slice is taken whole when it fits, and one that has data is left out only when it does
not fit, whether it was looked at or lies behind the point where the loop ended.
-/

namespace Kitsune2
namespace Dht

open Api Lib
open Std (ExtTreeMap)

variable {loc : LocCb}

/-! ## Places -/

/-- The order in which mismatched places are visited. -/
def PlaceBefore (a b : Nat × Nat) : Prop :=
  a.1 < b.1 ∨ a.1 = b.1 ∧ a.2 < b.2

instance : DecidableRel PlaceBefore := fun a b =>
  inferInstanceAs (Decidable (a.1 < b.1 ∨ a.1 = b.1 ∧ a.2 < b.2))

/-- An arc and an interval of time. -/
abbrev Place := DhtArc × (Int × Int)

/-- The data of a place; a place that is out of range has none. -/
def placeBytes (loc : LocCb) (st : OpStore) : Option Place → Nat
  | none => 0
  | some (arc, bounds) => sliceBytes loc st arc bounds

/-- The ids of a place. -/
def placeIds (loc : LocCb) (st : OpStore) : Option Place → List Bytes
  | none => []
  | some (arc, bounds) => (st.opHashesInTimeSlice loc arc bounds.1 bounds.2).1

/-- A comparison has listed the place. -/
def Listed (mismatched : Mismatches) (c : Nat × Nat) : Prop :=
  ∃ l, mismatched[c.1]? = some l ∧ c.2 ∈ l

theorem mem_ringSlots_iff {m : Mismatches} {c : Nat × Nat} :
    c ∈ DhtState.ringSlots m.toList ↔ Listed m c := by
  unfold DhtState.ringSlots Listed
  rw [List.mem_flatMap]
  constructor
  · rintro ⟨⟨i, l⟩, hmem, hc⟩
    rcases List.mem_map.mp hc with ⟨j, hj, rfl⟩
    exact ⟨l, ExtTreeMap.mem_toList_iff_getElem?_eq_some.mp hmem, (List.mem_insertionSort _).mp hj⟩
  · rintro ⟨l, hl, hc⟩
    refine ⟨(c.1, l), ExtTreeMap.mem_toList_iff_getElem?_eq_some.mpr hl, ?_⟩
    exact List.mem_map.mpr ⟨c.2, (List.mem_insertionSort _).mpr hc, rfl⟩

/-- The places of a comparison are visited in order, each once. -/
theorem pairwise_ringSlots {m : Mismatches}
    (hnodup : ∀ (i : Nat) (l : List Nat), m[i]? = some l → l.Nodup) :
    (DhtState.ringSlots m.toList).Pairwise PlaceBefore := by
  have hkeys : m.toList.Pairwise fun a b => a.1 < b.1 :=
    ExtTreeMap.ordered_keys_toList.imp fun hlt => Nat.compare_eq_lt.mp hlt
  unfold DhtState.ringSlots
  rw [List.pairwise_flatMap]
  constructor
  · rintro ⟨i, l⟩ hmem
    rw [List.pairwise_map]
    have hl := hnodup i l (ExtTreeMap.mem_toList_iff_getElem?_eq_some.mp hmem)
    have hle : (l.insertionSort (· ≤ ·)).Pairwise (· ≤ ·) := List.pairwise_insertionSort _ _
    have hne : (l.insertionSort (· ≤ ·)).Nodup := (List.perm_insertionSort _ l).nodup_iff.mpr hl
    refine (hle.and hne).imp ?_
    rintro a b ⟨hab, hdiff⟩
    exact Or.inr ⟨rfl, Nat.lt_of_le_of_ne hab hdiff⟩
  · refine hkeys.imp ?_
    intro e e' hlt x hx y hy
    rcases List.mem_map.mp hx with ⟨_, _, rfl⟩
    rcases List.mem_map.mp hy with ⟨_, _, rfl⟩
    exact Or.inl hlt

namespace DhtState

/-- Where a slice of a sector lies, if both are in range. -/
def discPlace (d : DhtState) (c : Nat × Nat) : Option Place :=
  match d.partition.dhtArcForSectorIndex c.1, d.partition.timeBoundsForFullSliceIndex c.2 with
  | .ok arc, .ok bounds => some (arc, bounds)
  | _, _ => none

/-- Where a ring crosses a sector, if both are in range. -/
def ringPlace (d : DhtState) (c : Nat × Nat) : Option Place :=
  match d.partition.dhtArcForSectorIndex c.2, d.partition.timeBoundsForPartialSliceIndex c.1 with
  | .ok arc, .ok bounds => some (arc, bounds)
  | _, _ => none

/-- A query that does not panic. -/
def NoPanic {α : Type} (r : Except Fault α) : Prop :=
  ∀ reason, r ≠ .error (.panicked reason)

/-- What a walk over places leaves: the ids and the data of the places it chose. -/
structure Bought (loc : LocCb) (d : DhtState) (place : Nat × Nat → Option Place) (limit : Int)
    (cells : List (Nat × Nat)) (acc acc' : Collected) (chosen : List (Nat × Nat)) : Prop where
  selects : Selects (fun c => placeBytes loc d.store (place c)) limit acc.2 cells chosen
  ids : acc'.1 = acc.1 ++ chosen.flatMap fun c => placeIds loc d.store (place c)
  used : acc'.2 = acc.2 + (chosen.map fun c => placeBytes loc d.store (place c)).sum
  inRange : ∀ c ∈ chosen, (place c).isSome = true

section Walks

variable {d : DhtState} {place : Nat × Nat → Option Place} {limit : Int} {acc acc₁ acc₂ : Collected}
  {cells cells' chosen chosen' : List (Nat × Nat)}

theorem Bought.nothing
    (h : Selects (fun c => placeBytes loc d.store (place c)) limit acc.2 cells []) :
    Bought loc d place limit cells acc acc [] :=
  ⟨h, by simp, by simp, nofun⟩

theorem Bought.append (h : Bought loc d place limit cells acc acc₁ chosen)
    (h' : Bought loc d place limit cells' acc₁ acc₂ chosen') :
    Bought loc d place limit (cells ++ cells') acc acc₂ (chosen ++ chosen') := by
  have hsel := h'.selects
  rw [h.used] at hsel
  refine ⟨h.selects.append hsel, ?_, ?_, ?_⟩
  · rw [h'.ids, h.ids, List.flatMap_append, List.append_assoc]
  · rw [h'.used, h.used, List.map_append, List.sum_append, Nat.add_assoc]
  · intro c hc
    rcases List.mem_append.mp hc with hin | hin
    · exact h.inRange c hin
    · exact h'.inRange c hin

/-! ## One slice -/

variable {arc : DhtArc} {bounds : Int × Int}

/-- With sums that fit, a slice is taken exactly when it fits the budget. -/
theorem takeSlice_eq (hsize : sliceBytes loc d.store arc bounds < 2 ^ 32)
    (hfits : ∀ c ∈ takeSliceComputes loc d arc bounds acc, c.Fits) :
    takeSlice loc d limit arc bounds acc =
      .ok (if ((acc.2 + sliceBytes loc d.store arc bounds : Nat) : Int) ≤ limit then
        (acc.1 ++ (d.store.opHashesInTimeSlice loc arc bounds.1 bounds.2).1,
          acc.2 + sliceBytes loc d.store arc bounds) else acc) := by
  have hbytes : (d.store.opHashesInTimeSlice loc arc bounds.1 bounds.2).2 =
      sliceBytes loc d.store arc bounds := by
    unfold OpStore.opHashesInTimeSlice
    exact Nat.mod_eq_of_lt hsize
  have hi32 := (hfits (.i32 (acc.2 + (d.store.opHashesInTimeSlice loc arc bounds.1 bounds.2).2 : Nat))
    (by simp [takeSliceComputes])).2
  rw [hbytes] at hi32
  -- nothing overflows, so the sum is the sum of numbers
  have hadd : addU32 acc.2 (sliceBytes loc d.store arc bounds) =
      .ok (acc.2 + sliceBytes loc d.store arc bounds) := by
    unfold addU32
    rw [if_pos]
    simp only [u32Max]
    omega
  have hcast : asI32 (acc.2 + sliceBytes loc d.store arc bounds) =
      (acc.2 + sliceBytes loc d.store arc bounds : Nat) := asI32_of_lt (by omega)
  unfold takeSlice
  refine bind_eq_ok_iff.mpr ⟨_, (congrArg (addU32 acc.2) hbytes).trans hadd, ?_⟩
  rw [hcast]
  split
  · rfl
  · rfl

/-- Looking at one place in range chooses it or leaves it because it does not fit. -/
theorem takeSlice_bought {c : Nat × Nat} (hplace : place c = some (arc, bounds))
    (hsize : sliceBytes loc d.store arc bounds < 2 ^ 32)
    (hfits : ∀ c ∈ takeSliceComputes loc d arc bounds acc, c.Fits) :
    ∃ acc' chosen, takeSlice loc d limit arc bounds acc = .ok acc' ∧
      Bought loc d place limit [c] acc acc' chosen := by
  have hbytes : placeBytes loc d.store (place c) = sliceBytes loc d.store arc bounds := by
    rw [hplace]
    rfl
  have hids : placeIds loc d.store (place c) =
      (d.store.opHashesInTimeSlice loc arc bounds.1 bounds.2).1 := by
    rw [hplace]
    rfl
  rw [takeSlice_eq hsize hfits]
  by_cases hle : ((acc.2 + sliceBytes loc d.store arc bounds : Nat) : Int) ≤ limit
  · rw [if_pos hle]
    refine ⟨_, [c], rfl, ⟨.take (by rw [hbytes]; exact hle) .nil, ?_, ?_, ?_⟩⟩
    · simp [hids]
    · simp [hbytes]
    · intro c' hc'
      rw [List.mem_singleton.mp hc', hplace]
      rfl
  · rw [if_neg hle]
    refine ⟨acc, [], rfl, Bought.nothing (.leave (fun _ => ?_) .nil)⟩
    rw [hbytes]
    exact not_le.mp hle

/-! ## Whole loops -/

/-- What a loop over places does: whenever it returns it has bought places of its list, and it
returns if none of its queries panics. -/
structure BuysFrom (loc : LocCb) (d : DhtState) (place : Nat × Nat → Option Place) (limit : Int)
    (cells : List (Nat × Nat)) (acc : Collected) (safe : Prop) (run : Except Fault Collected) :
    Prop where
  bought : ∀ acc', run = .ok acc' → ∃ chosen, Bought loc d place limit cells acc acc' chosen
  returns : safe → ∃ acc', run = .ok acc'

/-- Every place of the list that is in range has a size that fits. -/
def SizesFit (loc : LocCb) (d : DhtState) (place : Nat × Nat → Option Place) (cells : List (Nat × Nat)) :
    Prop :=
  ∀ c ∈ cells, placeBytes loc d.store (place c) < 2 ^ 32

theorem collectSlices_buys {sector : Nat}
    (harc : d.partition.dhtArcForSectorIndex sector = .ok arc) :
    ∀ (slices : List Nat) (acc : Collected),
      SizesFit loc d d.discPlace (slices.map fun slice => (sector, slice)) →
      (∀ c ∈ collectSlicesComputes loc d limit arc slices acc, c.Fits) →
      BuysFrom loc d d.discPlace limit (slices.map fun slice => (sector, slice)) acc
        (∀ slice ∈ slices, NoPanic (d.partition.timeBoundsForFullSliceIndex slice))
        (collectSlices loc d limit arc slices acc) := by
  intro slices
  induction slices with
  | nil =>
      intro acc _ _
      refine ⟨?_, fun _ => ⟨acc, rfl⟩⟩
      intro acc' h
      cases h
      exact ⟨[], Bought.nothing .nil⟩
  | cons slice slices ih =>
      intro acc hsizes hfits
      have hsizes' : SizesFit loc d d.discPlace (slices.map fun slice => (sector, slice)) :=
        fun c hc => hsizes c (List.mem_cons_of_mem _ hc)
      rw [collectSlicesComputes] at hfits
      rw [List.map_cons]
      cases hbounds : d.partition.timeBoundsForFullSliceIndex slice with
      | error fault =>
          rw [hbounds] at hfits
          cases fault with
          | panicked reason =>
              rw [collectSlices_cons_panicked hbounds]
              refine ⟨fun acc' h => (by cases h), ?_⟩
              intro hsafe
              exact absurd hbounds (hsafe slice (by simp) reason)
          | k2 reason =>
              rw [collectSlices_cons_skip hbounds]
              -- out of range: the place has no data
              have hzero : placeBytes loc d.store (d.discPlace (sector, slice)) = 0 := by
                simp [discPlace, hbounds, placeBytes]
              rcases ih acc hsizes' hfits with ⟨hbought, hreturns⟩
              refine ⟨?_, fun hsafe => hreturns fun s hs => hsafe s (by simp [hs])⟩
              intro acc' h
              rcases hbought acc' h with ⟨chosen, hchosen⟩
              refine ⟨chosen, ⟨.leave (fun hpos => ?_) hchosen.selects, hchosen.ids, hchosen.used,
                hchosen.inRange⟩⟩
              rw [hzero] at hpos
              exact absurd hpos (lt_irrefl 0)
      | ok bounds =>
          rw [hbounds] at hfits
          have hplace : d.discPlace (sector, slice) = some (arc, bounds) := by
            simp [discPlace, harc, hbounds]
          have hsize : sliceBytes loc d.store arc bounds < 2 ^ 32 := by
            have := hsizes (sector, slice) (by simp)
            rwa [hplace] at this
          simp only [orSkip, List.mem_append] at hfits
          rcases takeSlice_bought hplace hsize fun c hc => hfits c (Or.inl hc)
            with ⟨acc₁, first, htake, hfirst⟩
          rw [htake] at hfits
          rcases ih acc₁ hsizes' fun c hc => hfits c (Or.inr hc) with ⟨hbought, hreturns⟩
          rw [collectSlices_cons_ok hbounds htake]
          refine ⟨?_, fun hsafe => hreturns fun s hs => hsafe s (by simp [hs])⟩
          intro acc' h
          rcases hbought acc' h with ⟨chosen, hchosen⟩
          exact ⟨first ++ chosen, hfirst.append hchosen⟩

theorem NoPanic.dhtArcForSectorIndex (p : HashPartition) (sector : Nat) :
    NoPanic (p.dhtArcForSectorIndex sector) := by
  intro reason h
  unfold HashPartition.dhtArcForSectorIndex at h
  split at h
  · cases h
  · cases h

/-- The check of the budget compares the exact total. -/
theorem asI32_eq (h : (Computed.i32 acc.2).Fits) : asI32 acc.2 = acc.2 := by
  have := h.2
  exact asI32_of_lt (by omega)

theorem collectDisc_buys :
    ∀ (groups : List (Nat × List Nat)) (acc : Collected),
      SizesFit loc d d.discPlace (ringSlots groups) →
      (∀ c ∈ collectDiscComputes loc d limit groups acc, c.Fits) →
      BuysFrom loc d d.discPlace limit (ringSlots groups) acc
        (∀ c ∈ ringSlots groups, NoPanic (d.partition.timeBoundsForFullSliceIndex c.2))
        (collectDisc loc d limit groups acc) := by
  intro groups
  induction groups with
  | nil =>
      intro acc _ _
      refine ⟨?_, fun _ => ⟨acc, rfl⟩⟩
      intro acc' h
      cases h
      exact ⟨[], Bought.nothing .nil⟩
  | cons group rest ih =>
      rcases group with ⟨sector, slices⟩
      intro acc hsizes hfits
      have hcells : ringSlots ((sector, slices) :: rest) =
          ((slices.insertionSort (· ≤ ·)).map fun slice => (sector, slice)) ++ ringSlots rest := rfl
      rw [collectDiscComputes] at hfits
      have hhead := asI32_eq (hfits _ List.mem_cons_self)
      have hsizes' : SizesFit loc d d.discPlace (ringSlots rest) :=
        fun c hc => hsizes c (by rw [hcells]; exact List.mem_append_right _ hc)
      rw [collectDisc]
      by_cases hfull : asI32 acc.2 ≥ limit
      · -- the budget is used up: what is left does not fit
        rw [if_pos hfull]
        refine ⟨?_, fun _ => ⟨acc, rfl⟩⟩
        intro acc' h
        cases h
        exact ⟨[], Bought.nothing (.stop (by rw [← hhead]; exact hfull) _)⟩
      · rw [if_neg hfull]
        rw [if_neg hfull] at hfits
        cases harc : d.partition.dhtArcForSectorIndex sector with
        | error fault =>
            rw [harc] at hfits
            cases fault with
            | panicked reason =>
                exact absurd harc (NoPanic.dhtArcForSectorIndex _ _ reason)
            | k2 reason =>
                rcases ih acc hsizes' fun c hc => hfits c (List.mem_cons_of_mem _ hc)
                  with ⟨hbought, hreturns⟩
                refine ⟨?_, fun hsafe => hreturns fun c hc =>
                  hsafe c (by rw [hcells]; exact List.mem_append_right _ hc)⟩
                intro acc' h
                rcases hbought acc' h with ⟨chosen, hchosen⟩
                rw [hcells]
                refine ⟨[] ++ chosen, Bought.append (Bought.nothing (.weightless ?_)) hchosen⟩
                intro c hc
                rcases List.mem_map.mp hc with ⟨slice, _, rfl⟩
                simp [discPlace, harc, placeBytes]
        | ok arc =>
            rw [harc] at hfits
            simp only [orSkip, List.mem_cons, List.mem_append] at hfits
            have hsector := collectSlices_buys harc (slices.insertionSort (· ≤ ·)) acc
              (fun c hc => hsizes c (by rw [hcells]; exact List.mem_append_left _ hc))
              (fun c hc => hfits c (Or.inr (Or.inl hc)))
            suffices h : BuysFrom loc d d.discPlace limit (ringSlots ((sector, slices) :: rest)) acc
                (∀ c ∈ ringSlots ((sector, slices) :: rest),
                  NoPanic (d.partition.timeBoundsForFullSliceIndex c.2))
                (collectSlices loc d limit arc (slices.insertionSort (· ≤ ·)) acc >>= fun acc =>
                  collectDisc loc d limit rest acc) from h
            have hrest : ∀ acc₁, collectSlices loc d limit arc (slices.insertionSort (· ≤ ·)) acc =
                .ok acc₁ → BuysFrom loc d d.discPlace limit (ringSlots rest) acc₁
                  (∀ c ∈ ringSlots rest, NoPanic (d.partition.timeBoundsForFullSliceIndex c.2))
                  (collectDisc loc d limit rest acc₁) := by
              intro acc₁ hacc₁
              rw [hacc₁] at hfits
              exact ih acc₁ hsizes' fun c hc => hfits c (Or.inr (Or.inr hc))
            refine ⟨?_, ?_⟩
            · intro acc' h
              rcases bind_eq_ok_iff.mp h with ⟨acc₁, hacc₁, h⟩
              rcases hsector.bought acc₁ hacc₁ with ⟨first, hfirst⟩
              rcases (hrest acc₁ hacc₁).bought acc' h with ⟨chosen, hchosen⟩
              exact ⟨first ++ chosen, hfirst.append hchosen⟩
            · intro hsafe
              rw [hcells] at hsafe
              rcases hsector.returns fun slice hslice =>
                hsafe (sector, slice) (List.mem_append_left _ (List.mem_map_of_mem hslice))
                with ⟨acc₁, hacc₁⟩
              rcases (hrest acc₁ hacc₁).returns fun c hc => hsafe c (List.mem_append_right _ hc)
                with ⟨acc', h⟩
              exact ⟨acc', bind_eq_ok_iff.mpr ⟨acc₁, hacc₁, h⟩⟩

theorem collectRings_buys :
    ∀ (slots : List (Nat × Nat)) (acc : Collected), SizesFit loc d d.ringPlace slots →
      (∀ c ∈ collectRingsComputes loc d limit slots acc, c.Fits) →
      BuysFrom loc d d.ringPlace limit slots acc
        (∀ c ∈ slots, NoPanic (d.partition.timeBoundsForPartialSliceIndex c.1))
        (collectRings loc d limit slots acc) := by
  intro slots
  induction slots with
  | nil =>
      intro acc _ _
      refine ⟨?_, fun _ => ⟨acc, rfl⟩⟩
      intro acc' h
      cases h
      exact ⟨[], Bought.nothing .nil⟩
  | cons slot rest ih =>
      rcases slot with ⟨ring, sector⟩
      intro acc hsizes hfits
      rw [collectRingsComputes] at hfits
      have hhead := asI32_eq (hfits _ List.mem_cons_self)
      have hsizes' : SizesFit loc d d.ringPlace rest :=
        fun c hc => hsizes c (List.mem_cons_of_mem _ hc)
      -- a place that is out of range is passed over
      have hskip : d.ringPlace (ring, sector) = none →
          BuysFrom loc d d.ringPlace limit rest acc
            (∀ c ∈ rest, NoPanic (d.partition.timeBoundsForPartialSliceIndex c.1))
            (collectRings loc d limit rest acc) →
          BuysFrom loc d d.ringPlace limit ((ring, sector) :: rest) acc
            (∀ c ∈ (ring, sector) :: rest,
              NoPanic (d.partition.timeBoundsForPartialSliceIndex c.1))
            (collectRings loc d limit rest acc) := by
        rintro hplace ⟨hbought, hreturns⟩
        refine ⟨?_, fun hsafe => hreturns fun c hc => hsafe c (by simp [hc])⟩
        intro acc' h
        rcases hbought acc' h with ⟨chosen, hchosen⟩
        refine ⟨chosen, ⟨.leave (fun hpos => ?_) hchosen.selects, hchosen.ids, hchosen.used,
          hchosen.inRange⟩⟩
        rw [hplace] at hpos
        exact absurd hpos (lt_irrefl 0)
      rw [collectRings]
      by_cases hfull : asI32 acc.2 ≥ limit
      · rw [if_pos hfull]
        refine ⟨?_, fun _ => ⟨acc, rfl⟩⟩
        intro acc' h
        cases h
        exact ⟨[], Bought.nothing (.stop (by rw [← hhead]; exact hfull) _)⟩
      · rw [if_neg hfull]
        rw [if_neg hfull] at hfits
        cases harc : d.partition.dhtArcForSectorIndex sector with
        | error fault =>
            rw [harc] at hfits
            cases fault with
            | panicked reason =>
                exact absurd harc (NoPanic.dhtArcForSectorIndex _ _ reason)
            | k2 reason =>
                exact hskip (by simp [ringPlace, harc])
                  (ih acc hsizes' fun c hc => hfits c (List.mem_cons_of_mem _ hc))
        | ok arc =>
            rw [harc] at hfits
            cases hbounds : d.partition.timeBoundsForPartialSliceIndex ring with
            | error fault =>
                rw [hbounds] at hfits
                cases fault with
                | panicked reason =>
                    refine ⟨fun acc' h => (by cases h), ?_⟩
                    intro hsafe
                    exact absurd hbounds (hsafe (ring, sector) (by simp) reason)
                | k2 reason =>
                    exact hskip (by simp [ringPlace, harc, hbounds])
                      (ih acc hsizes' fun c hc => hfits c (List.mem_cons_of_mem _ hc))
            | ok bounds =>
                rw [hbounds] at hfits
                simp only [orSkip, List.mem_cons, List.mem_append] at hfits
                have hplace : d.ringPlace (ring, sector) = some (arc, bounds) := by
                  simp [ringPlace, harc, hbounds]
                have hsize : sliceBytes loc d.store arc bounds < 2 ^ 32 := by
                  have := hsizes (ring, sector) (by simp)
                  rwa [hplace] at this
                rcases takeSlice_bought hplace hsize fun c hc => hfits c (Or.inr (Or.inl hc))
                  with ⟨acc₁, first, htake, hfirst⟩
                rw [htake] at hfits
                rcases ih acc₁ hsizes' fun c hc => hfits c (Or.inr (Or.inr hc))
                  with ⟨hbought, hreturns⟩
                suffices h : BuysFrom loc d d.ringPlace limit ((ring, sector) :: rest) acc
                    (∀ c ∈ (ring, sector) :: rest,
                      NoPanic (d.partition.timeBoundsForPartialSliceIndex c.1))
                    (takeSlice loc d limit arc bounds acc >>= fun acc =>
                      collectRings loc d limit rest acc) from h
                rw [htake]
                refine ⟨?_, fun hsafe => hreturns fun c hc => hsafe c (by simp [hc])⟩
                intro acc' h
                rcases hbought acc' h with ⟨chosen, hchosen⟩
                exact ⟨first ++ chosen, hfirst.append hchosen⟩

end Walks

/-! ## An answer to a snapshot -/

/-- The ids and the byte count are those of a first fit of the mismatched places. -/
def Spent (loc : LocCb) (d : DhtState) (place : Nat × Nat → Option Place) (limit : Int)
    (mismatched : Mismatches) (opIds : List Bytes) (used : Nat) : Prop :=
  ∃ chosen, opIds = (chosen.flatMap fun c => placeIds loc d.store (place c)) ∧
    used = (chosen.map fun c => placeBytes loc d.store (place c)).sum ∧
    (∀ c ∈ chosen, (place c).isSome = true) ∧
    SpendsGreedily PlaceBefore (fun c => placeBytes loc d.store (place c)) limit
      (Listed mismatched) chosen

section Answers

variable {d : DhtState} {place : Nat × Nat → Option Place} {limit : Int}
  {mismatched : Mismatches}

theorem Bought.spent {found : Collected} {chosen : List (Nat × Nat)}
    (h : Bought loc d place limit (ringSlots mismatched.toList) ([], 0) found chosen)
    (hnodup : ∀ (i : Nat) (l : List Nat), mismatched[i]? = some l → l.Nodup) :
    Spent loc d place limit mismatched found.1 found.2 := by
  have hgreedy := h.selects.spendsGreedily (pairwise_ringSlots hnodup)
  refine ⟨chosen, by simpa using h.ids, by simpa using h.used, h.inRange, ?_⟩
  refine ⟨?_, hgreedy.ordered, hgreedy.within, ?_⟩
  · intro c hc
    exact mem_ringSlots_iff.mp (hgreedy.of_offered c hc)
  · intro c hc hnot hpos
    exact hgreedy.left_out c (mem_ringSlots_iff.mpr hc) hnot hpos

variable {theirs ours : DhtSnapshot} {prev : Option DhtSnapshot} {arcSet : ArcSet}

theorem handleSnapshot_disc {slices : Mismatches}
    (harcs : arcSet.coveredSectorCount ≠ 0)
    (hours : d.matchingSnapshot theirs prev arcSet = .ok ours)
    (hdiff : ours.compare theirs = .discSectorSliceMismatches slices) :
    d.handleSnapshot loc theirs prev arcSet limit =
      (collectDisc loc d limit slices.toList ([], 0) >>= fun found =>
        pure (finishList ((prev.map isDetails).getD false) ours found)) := by
  simp only [handleSnapshot, if_neg harcs, hours, bind, Except.bind, hdiff]

theorem handleSnapshot_rings {sectors : Mismatches}
    (harcs : arcSet.coveredSectorCount ≠ 0)
    (hours : d.matchingSnapshot theirs prev arcSet = .ok ours)
    (hdiff : ours.compare theirs = .ringSectorMismatches sectors) :
    d.handleSnapshot loc theirs prev arcSet limit =
      (collectRings loc d limit (ringSlots sectors.toList) ([], 0) >>= fun found =>
        pure (finishList ((prev.map isDetails).getD false) ours found)) := by
  simp only [handleSnapshot, if_neg harcs, hours, bind, Except.bind, hdiff]

/-- From a loop that buys to an answer. -/
theorem BuysFrom.answer {safe : Prop} {run : Except Fault Collected} {isFinal : Bool}
    (h : BuysFrom loc d place limit (ringSlots mismatched.toList) ([], 0) safe run)
    (hnodup : ∀ (i : Nat) (l : List Nat), mismatched[i]? = some l → l.Nodup) :
    (∀ action used,
      (run >>= fun found => pure (finishList isFinal ours found)) = .ok (action, used) →
        Spent loc d place limit mismatched action.opIds used) ∧
      (safe → ∃ answer, (run >>= fun found => pure (finishList isFinal ours found)) = .ok answer) := by
  constructor
  · intro action used hrun
    rcases bind_eq_ok_iff.mp hrun with ⟨found, hfound, hfinish⟩
    rcases h.bought found hfound with ⟨chosen, hchosen⟩
    have hspent := hchosen.spent hnodup
    rw [← finishList_found (Except.ok.inj hfinish)] at hspent
    exact hspent
  · intro hsafe
    rcases h.returns hsafe with ⟨found, hfound⟩
    exact ⟨_, bind_eq_ok_iff.mpr ⟨found, hfound, rfl⟩⟩

/-- An answer with a list of ids spends its budget exactly and greedily, as long as every sum of
sizes that is formed fits its type; and it is given unless a query for the bounds of a slice
panics. -/
theorem handleSnapshot_spends_greedily (harcs : arcSet.coveredSectorCount ≠ 0)
    (hours : d.matchingSnapshot theirs prev arcSet = .ok ours)
    (hsums : ∀ c ∈ handleSnapshotComputes loc d limit theirs prev arcSet, c.Fits) :
    (∀ slices, ours.compare theirs = .discSectorSliceMismatches slices →
      (∀ c, Listed slices c → placeBytes loc d.store (d.discPlace c) < 2 ^ 32) →
        (∀ action used, d.handleSnapshot loc theirs prev arcSet limit = .ok (action, used) →
          Spent loc d d.discPlace limit slices action.opIds used) ∧
        ((∀ c, Listed slices c → NoPanic (d.partition.timeBoundsForFullSliceIndex c.2)) →
          ∃ answer, d.handleSnapshot loc theirs prev arcSet limit = .ok answer)) ∧
    ∀ sectors, ours.compare theirs = .ringSectorMismatches sectors →
      (∀ c, Listed sectors c → placeBytes loc d.store (d.ringPlace c) < 2 ^ 32) →
        (∀ action used, d.handleSnapshot loc theirs prev arcSet limit = .ok (action, used) →
          Spent loc d d.ringPlace limit sectors action.opIds used) ∧
        ((∀ c, Listed sectors c → NoPanic (d.partition.timeBoundsForPartialSliceIndex c.1)) →
          ∃ answer, d.handleSnapshot loc theirs prev arcSet limit = .ok answer) := by
  unfold handleSnapshotComputes at hsums
  rw [hours] at hsums
  constructor
  · intro slices hdiff hsizes
    rw [handleSnapshot_disc harcs hours hdiff]
    simp only [hdiff] at hsums
    rcases DhtSnapshot.compare_slices hdiff with ⟨_, _, _, _, _, heq⟩
    -- the loop buys along the list; the list names every mismatch once
    have hbuys := collectDisc_buys slices.toList ([], 0)
      (fun c hc => hsizes c (mem_ringSlots_iff.mp hc)) hsums
    rcases hbuys.answer (heq ▸ (exactPairs_mismatchedSlices _ _).nodup) with ⟨hspent, hreturns⟩
    refine ⟨hspent, fun hsafe => hreturns fun c hc => hsafe c (mem_ringSlots_iff.mp hc)⟩
  · intro sectors hdiff hsizes
    rw [handleSnapshot_rings harcs hours hdiff]
    simp only [hdiff] at hsums
    rcases DhtSnapshot.compare_ringSectors hdiff with ⟨_, _, _, _, _, hkeys, heq⟩
    have hbuys := collectRings_buys (ringSlots sectors.toList) ([], 0)
      (fun c hc => hsizes c (mem_ringSlots_iff.mp hc)) hsums
    rcases hbuys.answer (heq ▸ (exactPairs_mismatchedRingSectors hkeys).nodup)
      with ⟨hspent, hreturns⟩
    refine ⟨hspent, fun hsafe => hreturns fun c hc => hsafe c (mem_ringSlots_iff.mp hc)⟩

/-- A DHT of one sector with one full slice and an op of 3 bytes in it. -/
def oneOpDht : DhtState where
  partition := { size := 0, sectors := [freshPart timeFactor (sectorArc 0) 1] }
  store := { opList := [⟨⟨[1], 5⟩, 3⟩], sliceHashes := fun _ => ∅, failures := [] }
  opCount := 1

/-- The hash of the op, as details of the disc. -/
def oneOpHashes : NestedHashes :=
  (∅ : NestedHashes).insert 0 ((∅ : ExtTreeMap Nat Bytes).insert 0 [1])

theorem oneOp_listed {c : Nat × Nat} (h : Listed (mismatchedSlices oneOpHashes ∅) c) :
    c = (0, 0) := by
  have hdiff := ((exactPairs_mismatchedSlices oneOpHashes ∅).mem_iff c.1 c.2).mp h
  by_contra hne
  apply hdiff
  have hfst : ¬ (0 = c.1 ∧ 0 = c.2) := fun ⟨h1, h2⟩ => hne (Prod.ext h1.symm h2.symm)
  by_cases h0 : 0 = c.1
  · have h1 : ¬ 0 = c.2 := fun h1 => hfst ⟨h0, h1⟩
    simp [lookupHash, oneOpHashes, ← h0, h1]
  · simp [lookupHash, oneOpHashes, h0]

/-- With a budget of 10 bytes, the one mismatched slice is offered. -/
theorem handleSnapshot_spends_one :
    ∃ action used,
      oneOpDht.handleSnapshot (fun _ => 0) (.discSectorDetails ∅ 0)
          (some (.discSectorDetails oneOpHashes 0)) .full 10 = .ok (action, used) ∧
        Spent (fun _ => 0) oneOpDht oneOpDht.discPlace 10 (mismatchedSlices oneOpHashes ∅)
          action.opIds used := by
  have hdiff : DhtSnapshot.compare (.discSectorDetails oneOpHashes 0) (.discSectorDetails ∅ 0) =
      .discSectorSliceMismatches (mismatchedSlices oneOpHashes ∅) := by
    decide +kernel
  have hsums : ∀ c ∈ handleSnapshotComputes (fun _ => 0) oneOpDht 10 (.discSectorDetails ∅ 0)
      (some (.discSectorDetails oneOpHashes 0)) .full, c.Fits := by
    decide +kernel
  have hmain := (handleSnapshot_spends_greedily (by decide +kernel) rfl hsums).1 _ hdiff (by
    intro c hc
    rw [oneOp_listed hc]
    decide +kernel)
  rcases hmain.2 (by
    intro c hc reason
    rw [oneOp_listed hc]
    have hok : oneOpDht.partition.timeBoundsForFullSliceIndex 0 = .ok (0, 460800000000) := by
      decide +kernel
    rw [hok]
    exact nofun) with ⟨⟨action, used⟩, hanswer⟩
  exact ⟨action, used, hanswer, hmain.1 action used hanswer⟩

end Answers

end DhtState

end Dht
end Kitsune2
