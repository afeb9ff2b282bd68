import Kitsune2.Dht.GreedySpending

/-!
# Walk — the collecting loops on any input

`handle_snapshot` collects op ids in two loops, over the slices of the disc and over the rings.  What
either does at one place depends on the place only through an *offer*: nothing, the ids of the ops
there with their size, or a fault.  `Walks` is the relation both loops follow, also where a sum wraps
or a query panics, and what a walk can return is said of `Walks` once.
-/

namespace Kitsune2
namespace Dht

open Api Lib
open Std (ExtTreeMap)

namespace DhtState

/-! ## Offers -/

/-- What there is to offer at a place. -/
abbrev Offer := Except Fault (Option (List Bytes × Nat))

/-- The data of an offer. -/
def offerBytes : Offer → Nat
  | .ok (some found) => found.2
  | _ => 0

theorem offerBytes_some (found : List Bytes × Nat) : offerBytes (.ok (some found)) = found.2 := rfl

/-- The ids of an offer. -/
def offerIds : Offer → List Bytes
  | .ok (some found) => found.1
  | _ => []

section Offers

variable (loc : LocCb) (d : DhtState)

/-- The ops of a slice of a sector; an index that is out of range is skipped. -/
def discOffer (c : Nat × Nat) : Offer := do
  match ← orSkip (d.partition.dhtArcForSectorIndex c.1) with
  | none => pure none
  | some arc =>
      match ← orSkip (d.partition.timeBoundsForFullSliceIndex c.2) with
      | none => pure none
      | some bounds => pure (some (d.store.opHashesInTimeSlice loc arc bounds.1 bounds.2))

/-- The ops of a ring in a sector. -/
def ringOffer (c : Nat × Nat) : Offer := do
  match ← orSkip (d.partition.dhtArcForSectorIndex c.2) with
  | none => pure none
  | some arc =>
      match ← orSkip (d.partition.timeBoundsForPartialSliceIndex c.1) with
      | none => pure none
      | some bounds => pure (some (d.store.opHashesInTimeSlice loc arc bounds.1 bounds.2))

end Offers

/-! ## Walks -/

/-- From what was collected so far, a walk over the places ends with a result.  It may stop at any
place once the budget is used up. -/
inductive Walks (offer : Nat × Nat → Offer) (limit : Int) :
    List (Nat × Nat) → Collected → Except Fault Collected → Prop
  | nil {acc : Collected} : Walks offer limit [] acc (.ok acc)
  | stop {cells : List (Nat × Nat)} {acc : Collected} :
      asI32 acc.2 ≥ limit → Walks offer limit cells acc (.ok acc)
  | skip {c : Nat × Nat} {cells : List (Nat × Nat)} {acc : Collected} {r : Except Fault Collected} :
      offer c = .ok none → Walks offer limit cells acc r → Walks offer limit (c :: cells) acc r
  | fault {c : Nat × Nat} {cells : List (Nat × Nat)} {acc : Collected} {e : Fault} :
      offer c = .error e → Walks offer limit (c :: cells) acc (.error e)
  | overflow {c : Nat × Nat} {cells : List (Nat × Nat)} {acc : Collected} {e : Fault}
      {found : List Bytes × Nat} :
      offer c = .ok (some found) → addU32 acc.2 found.2 = .error e →
      Walks offer limit (c :: cells) acc (.error e)
  | take {c : Nat × Nat} {cells : List (Nat × Nat)} {acc : Collected} {r : Except Fault Collected}
      {found : List Bytes × Nat} :
      offer c = .ok (some found) → addU32 acc.2 found.2 = .ok (acc.2 + found.2) →
      asI32 (acc.2 + found.2) ≤ limit →
      Walks offer limit cells (acc.1 ++ found.1, acc.2 + found.2) r →
      Walks offer limit (c :: cells) acc r
  | leave {c : Nat × Nat} {cells : List (Nat × Nat)} {acc : Collected} {r : Except Fault Collected}
      {found : List Bytes × Nat} :
      offer c = .ok (some found) → addU32 acc.2 found.2 = .ok (acc.2 + found.2) →
      limit < asI32 (acc.2 + found.2) → Walks offer limit cells acc r →
      Walks offer limit (c :: cells) acc r

theorem addU32_cases (a b : Nat) :
    addU32 a b = .ok (a + b) ∧ a + b ≤ u32Max ∨
      addU32 a b = .error (.panicked "attempt to add with overflow") ∧ u32Max < a + b := by
  unfold addU32
  by_cases h : a + b ≤ u32Max
  · exact Or.inl ⟨if_pos h, h⟩
  · exact Or.inr ⟨if_neg h, not_le.mp h⟩

section Walks

variable {offer : Nat × Nat → Offer} {limit : Int} {cells : List (Nat × Nat)}
  {acc acc' : Collected} {r : Except Fault Collected}

/-- Everything collected was offered at some place. -/
theorem Walks.source (h : Walks offer limit cells acc r) (hr : r = .ok acc') {x : Bytes}
    (hx : x ∈ acc'.1) : x ∈ acc.1 ∨ ∃ c ∈ cells, x ∈ offerIds (offer c) := by
  induction h with
  | nil =>
      cases hr
      exact Or.inl hx
  | stop _ =>
      cases hr
      exact Or.inl hx
  | fault _ => cases hr
  | overflow _ _ => cases hr
  | skip _ _ ih =>
      rcases ih hr with hacc | ⟨c', hc', hin⟩
      · exact Or.inl hacc
      · exact Or.inr ⟨c', List.mem_cons_of_mem _ hc', hin⟩
  | leave _ _ _ _ ih =>
      rcases ih hr with hacc | ⟨c', hc', hin⟩
      · exact Or.inl hacc
      · exact Or.inr ⟨c', List.mem_cons_of_mem _ hc', hin⟩
  | @take c cells acc r found hoffer _ _ _ ih =>
      rcases ih hr with hacc | ⟨c', hc', hin⟩
      · rcases List.mem_append.mp hacc with hold | hnew
        · exact Or.inl hold
        · refine Or.inr ⟨c, List.mem_cons_self, ?_⟩
          rw [hoffer]
          exact hnew
      · exact Or.inr ⟨c', List.mem_cons_of_mem _ hc', hin⟩

/-- Without faulty places a walk returns, as long as the sum of all sizes is a `u32`. -/
theorem Walks.returns (h : Walks offer limit cells acc r)
    (hsafe : ∀ c ∈ cells, ∀ e, offer c ≠ .error e)
    (hsum : acc.2 + (cells.map fun c => offerBytes (offer c)).sum ≤ u32Max) : ∃ acc', r = .ok acc' := by
  induction h with
  | nil => exact ⟨_, rfl⟩
  | stop _ => exact ⟨_, rfl⟩
  | fault hoffer => exact absurd hoffer (hsafe _ List.mem_cons_self _)
  | @overflow c cells acc e found hoffer hadd =>
      rw [List.map_cons, List.sum_cons, hoffer, offerBytes_some] at hsum
      rcases addU32_cases acc.2 found.2 with ⟨hok, _⟩ | ⟨_, hbig⟩
      · rw [hok] at hadd
        cases hadd
      · omega
  | skip _ _ ih =>
      rw [List.map_cons, List.sum_cons] at hsum
      exact ih (fun c' hc' => hsafe c' (List.mem_cons_of_mem _ hc')) (by omega)
  | leave _ _ _ _ ih =>
      rw [List.map_cons, List.sum_cons] at hsum
      exact ih (fun c' hc' => hsafe c' (List.mem_cons_of_mem _ hc')) (by omega)
  | @take c cells acc r found hoffer _ _ _ ih =>
      rw [List.map_cons, List.sum_cons, hoffer, offerBytes_some] at hsum
      exact ih (fun c' hc' => hsafe c' (List.mem_cons_of_mem _ hc')) (by simp only; omega)

/-- With a budget that is larger than everything there is, a walk visits every place: it collects
all that is offered, or it ends with the fault of a place. -/
theorem Walks.visits_all (h : Walks offer limit cells acc r)
    (hroom : ((acc.2 + (cells.map fun c => offerBytes (offer c)).sum : Nat) : Int) < limit)
    (hmax : limit < 2 ^ 31) :
    (∃ c ∈ cells, ∃ e, offer c = .error e ∧ r = .error e) ∨
      ∃ acc', r = .ok acc' ∧ (∀ x ∈ acc.1, x ∈ acc'.1) ∧
        ∀ c ∈ cells, (∀ e, offer c ≠ .error e) ∧ ∀ x ∈ offerIds (offer c), x ∈ acc'.1 := by
  induction h with
  | nil =>
      exact Or.inr ⟨_, rfl, fun x hx => hx, fun c hc => absurd hc List.not_mem_nil⟩
  -- with room for everything the walk neither stops nor leaves a place out
  | stop hfull =>
      rw [asI32_of_lt (by omega)] at hfull
      omega
  | @fault c cells acc e hoffer =>
      exact Or.inl ⟨c, List.mem_cons_self, e, hoffer, rfl⟩
  | @overflow c cells acc e found hoffer hadd =>
      rw [List.map_cons, List.sum_cons, hoffer, offerBytes_some] at hroom
      rcases addU32_cases acc.2 found.2 with ⟨hok, _⟩ | ⟨_, hbig⟩
      · rw [hok] at hadd
        cases hadd
      · simp only [u32Max] at hbig
        omega
  | @skip c cells acc r hoffer _ ih =>
      rw [List.map_cons, List.sum_cons] at hroom
      rcases ih (by omega) with ⟨c', hc', hfault⟩ | ⟨acc', hr, hkept, hall⟩
      · exact Or.inl ⟨c', List.mem_cons_of_mem _ hc', hfault⟩
      · refine Or.inr ⟨acc', hr, hkept, ?_⟩
        intro c' hc'
        rcases List.mem_cons.mp hc' with rfl | htail
        · rw [hoffer]
          exact ⟨fun e he => (by cases he), fun x hx => absurd hx List.not_mem_nil⟩
        · exact hall c' htail
  | @leave c cells acc r found hoffer _ hbig _ _ =>
      rw [List.map_cons, List.sum_cons, hoffer, offerBytes_some] at hroom
      rw [asI32_of_lt (by omega)] at hbig
      omega
  | @take c cells acc r found hoffer _ _ _ ih =>
      rw [List.map_cons, List.sum_cons, hoffer, offerBytes_some] at hroom
      rcases ih (by simp only; omega) with ⟨c', hc', hfault⟩ | ⟨acc', hr, hkept, hall⟩
      · exact Or.inl ⟨c', List.mem_cons_of_mem _ hc', hfault⟩
      · refine Or.inr ⟨acc', hr, fun x hx => hkept x (List.mem_append_left _ hx), ?_⟩
        intro c' hc'
        rcases List.mem_cons.mp hc' with rfl | htail
        · rw [hoffer]
          exact ⟨fun e he => (by cases he), fun x hx => hkept x (List.mem_append_right _ hx)⟩
        · exact hall c' htail

end Walks

/-! ## The loops are walks -/

section Loops

variable {loc : LocCb} {d : DhtState} {limit : Int} {arc : DhtArc} {cells : List (Nat × Nat)}
  {next : Collected → Except Fault Collected}

/-- One slice, with what follows. -/
theorem takeSlice_walks {offer : Nat × Nat → Offer} {c : Nat × Nat} {bounds : Int × Int}
    (acc : Collected)
    (hoffer : offer c = .ok (some (d.store.opHashesInTimeSlice loc arc bounds.1 bounds.2)))
    (hnext : ∀ acc', Walks offer limit cells acc' (next acc')) :
    Walks offer limit (c :: cells) acc (takeSlice loc d limit arc bounds acc >>= next) := by
  have hstep : takeSlice loc d limit arc bounds acc =
      (addU32 acc.2 (d.store.opHashesInTimeSlice loc arc bounds.1 bounds.2).2 >>= fun total =>
        if asI32 total ≤ limit then
          pure (acc.1 ++ (d.store.opHashesInTimeSlice loc arc bounds.1 bounds.2).1, total)
        else pure acc) := rfl
  generalize d.store.opHashesInTimeSlice loc arc bounds.1 bounds.2 = found at hoffer hstep
  rw [hstep]
  rcases addU32_cases acc.2 found.2 with ⟨hadd, _⟩ | ⟨hadd, _⟩
  · rw [hadd]
    -- within the limit the slice is taken whole, above it the walk goes on without it
    by_cases hle : asI32 (acc.2 + found.2) ≤ limit
    · have hrun : ((.ok (acc.2 + found.2) >>= fun total => if asI32 total ≤ limit then
          pure (acc.1 ++ found.1, total) else pure acc) >>= next : Except Fault Collected) =
          next (acc.1 ++ found.1, acc.2 + found.2) := by
        simp only [bind, Except.bind, if_pos hle, pure, Except.pure]
      rw [hrun]
      exact Walks.take hoffer hadd hle (hnext _)
    · have hrun : ((.ok (acc.2 + found.2) >>= fun total => if asI32 total ≤ limit then
          pure (acc.1 ++ found.1, total) else pure acc) >>= next : Except Fault Collected) =
          next acc := by
        simp only [bind, Except.bind, if_neg hle, pure, Except.pure]
      rw [hrun]
      exact Walks.leave hoffer hadd (not_le.mp hle) (hnext _)
  · rw [hadd]
    exact Walks.overflow hoffer hadd

theorem collectSlices_walks {sector : Nat}
    (harc : d.partition.dhtArcForSectorIndex sector = .ok arc)
    (hnext : ∀ acc', Walks (discOffer loc d) limit cells acc' (next acc')) :
    ∀ (slices : List Nat) (acc : Collected),
      Walks (discOffer loc d) limit ((slices.map fun slice => (sector, slice)) ++ cells) acc
        (collectSlices loc d limit arc slices acc >>= next) := by
  intro slices
  induction slices with
  | nil =>
      intro acc
      exact hnext acc
  | cons slice slices ih =>
      intro acc
      -- one step of the loop, with the rest of the walk behind it
      have hstep : (collectSlices loc d limit arc (slice :: slices) acc >>= next) =
          ((do
            match ← orSkip (d.partition.timeBoundsForFullSliceIndex slice) with
            | none => pure acc
            | some bounds => takeSlice loc d limit arc bounds acc) >>= fun acc =>
              collectSlices loc d limit arc slices acc >>= next) := by
        unfold collectSlices
        rw [List.foldlM_cons]
        exact bind_assoc _ _ _
      have hoffer : discOffer loc d (sector, slice) =
          (orSkip (d.partition.timeBoundsForFullSliceIndex slice) >>= fun
            | none => pure none
            | some bounds => pure (some (d.store.opHashesInTimeSlice loc arc bounds.1 bounds.2))) := by
        unfold discOffer
        simp only [harc]
        rfl
      rw [hstep, List.map_cons, List.cons_append]
      cases hbounds : orSkip (d.partition.timeBoundsForFullSliceIndex slice) with
      | error e =>
          rw [hbounds] at hoffer
          exact Walks.fault hoffer
      | ok found =>
          rw [hbounds] at hoffer
          cases found with
          | none => exact Walks.skip hoffer (ih acc)
          | some bounds => exact takeSlice_walks acc hoffer ih

theorem collectDisc_walks :
    ∀ (groups : List (Nat × List Nat)) (acc : Collected),
      Walks (discOffer loc d) limit (ringSlots groups) acc (collectDisc loc d limit groups acc) := by
  intro groups
  induction groups with
  | nil =>
      intro acc
      exact Walks.nil
  | cons group rest ih =>
      rcases group with ⟨sector, slices⟩
      intro acc
      have hcells : ringSlots ((sector, slices) :: rest) =
          ((slices.insertionSort (· ≤ ·)).map fun slice => (sector, slice)) ++ ringSlots rest := rfl
      rw [hcells, collectDisc]
      by_cases hfull : asI32 acc.2 ≥ limit
      · rw [if_pos hfull]
        exact Walks.stop hfull
      · rw [if_neg hfull]
        cases harc : d.partition.dhtArcForSectorIndex sector with
        | ok arc =>
            exact collectSlices_walks harc ih (slices.insertionSort (· ≤ ·)) acc
        | error fault =>
            cases fault with
            | panicked reason =>
                exact absurd harc (NoPanic.dhtArcForSectorIndex _ _ reason)
            | k2 reason =>
                -- no slice of the sector is offered
                suffices h : Walks (discOffer loc d) limit
                    (((slices.insertionSort (· ≤ ·)).map fun slice => (sector, slice)) ++
                      ringSlots rest) acc (collectDisc loc d limit rest acc) from h
                generalize slices.insertionSort (· ≤ ·) = sorted
                induction sorted with
                | nil => exact ih acc
                | cons slice sorted ihs =>
                    refine Walks.skip ?_ ihs
                    unfold discOffer
                    simp only [harc]
                    rfl

theorem collectRings_walks :
    ∀ (slots : List (Nat × Nat)) (acc : Collected),
      Walks (ringOffer loc d) limit slots acc (collectRings loc d limit slots acc) := by
  intro slots
  induction slots with
  | nil =>
      intro acc
      exact Walks.nil
  | cons slot rest ih =>
      rcases slot with ⟨ring, sector⟩
      intro acc
      rw [collectRings]
      by_cases hfull : asI32 acc.2 ≥ limit
      · rw [if_pos hfull]
        exact Walks.stop hfull
      · rw [if_neg hfull]
        -- what the ring offers is what the loop reads for it
        have hoffer : ringOffer loc d (ring, sector) =
            (orSkip (d.partition.dhtArcForSectorIndex sector) >>= fun
              | none => pure none
              | some arc => orSkip (d.partition.timeBoundsForPartialSliceIndex ring) >>= fun
                | none => pure none
                | some bounds =>
                    pure (some (d.store.opHashesInTimeSlice loc arc bounds.1 bounds.2))) := rfl
        cases harc : orSkip (d.partition.dhtArcForSectorIndex sector) with
        | error e =>
            rw [harc] at hoffer
            exact Walks.fault hoffer
        | ok found =>
            rw [harc] at hoffer
            cases found with
            | none =>
                exact Walks.skip hoffer (ih acc)
            | some arc =>
                cases hbounds : orSkip (d.partition.timeBoundsForPartialSliceIndex ring) with
                | error e =>
                    simp only [hbounds] at hoffer
                    exact Walks.fault hoffer
                | ok found =>
                    simp only [hbounds] at hoffer
                    cases found with
                    | none => exact Walks.skip hoffer (ih acc)
                    | some bounds => exact takeSlice_walks acc hoffer ih

end Loops

end DhtState

end Dht
end Kitsune2
