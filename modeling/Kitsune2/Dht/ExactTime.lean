import Kitsune2.Dht.FailedUpdate

/-!
# ExactTime — arithmetic of the time partition that loses nothing

A checked operation panics when its result does not fit, but `as i64`, `as u128` and `as u64` wrap
without a word, and a `Nat` subtraction of the model stops at zero.  The predicates of this module
say, place by place, that an update, a start or a time bound runs into none of these.  They hold for
every partition whose full slices end in machine range, at every time that leaves room for one unit.
-/

namespace Kitsune2
namespace Dht

open Api Lib

variable {f n k : Nat} {arc : DhtArc} {t start : Int} {tp : TimePartition}

/-! ## Exact additions -/

/-- `t + d`, with the cast of `d` to `i64` and the sum both in range. -/
structure ExactSum (t : Int) (d : Nat) : Prop where
  cast : wrapI64 d = d
  sum : addDuration t d = .ok (t + d)

theorem exactSum_of_le {d : Nat} (ht : 0 ≤ t) (h : t + d ≤ i64Max) : ExactSum t d :=
  ⟨wrapI64_of_le (by omega), addDuration_of_le ht h⟩

/-- A cast that keeps the value was a cast of an `i64`. -/
theorem le_of_wrapI64_eq {x : Nat} (h : wrapI64 x = x) : (x : Int) ≤ i64Max := by
  have hlt : Int.bmod (x : Int) (2 ^ 64) < ((2 ^ 64 : Nat) + 1 : Int) / 2 :=
    Int.bmod_lt (by decide)
  have heq : Int.bmod (x : Int) (2 ^ 64) = x := h
  rw [heq] at hlt
  simp only [i64Max]
  omega

namespace TimePartition

/-! ## Places -/

/-- The end of the first `k` full slices: a `u64` product and an addition to the epoch. -/
structure ExactSlices (tp : TimePartition) (k : Nat) : Prop where
  product : k * asSecs tp.fullSliceDuration ≤ u64Max
  sum : ExactSum unixTimestamp (fromSecs (k * asSecs tp.fullSliceDuration))

/-- The loop of `update_full_slice_hashes`: `+= full_slice_duration` and `full_slices += 1`. -/
def ExactFullLoop (tp : TimePartition) (count : Nat) (boundary : Int) : Prop :=
  ∀ k < count, ExactSum (boundary + (tp.fullSliceDuration * k : Nat)) tp.fullSliceDuration ∧
    tp.fullSlices + k < u64Max

/-- The loops of `layout_partials` from size `n - 1` on: `start_at += slice_size` and
`recent_time -= slice_size`. -/
def ExactSizes : Nat → Int → Nat → Prop
  | 0, _, _ => True
  | i + 1, startAt, recentTime =>
      ∀ sliceSize residual, sliceDuration i = .ok sliceSize →
        residualDurationForFactor i = .ok residual →
        (∀ k < sliceCount recentTime residual sliceSize,
          ExactSum (startAt + (sliceSize * k : Nat)) sliceSize ∧ sliceSize * (k + 1) ≤ recentTime) ∧
        ExactSizes i (startAt + (sliceSize * sliceCount recentTime residual sliceSize : Nat))
          (recentTime - sliceSize * sliceCount recentTime residual sliceSize)

/-- The partition after its new full slices have been added. -/
def grown (tp : TimePartition) (count : Nat) : TimePartition :=
  { tp with fullSlices := tp.fullSlices + count }

/-- The ends of the slots of a layout, and the next update one unit after the last of them. -/
structure ExactSlots (slots : List (Int × Nat)) : Prop where
  ends : ∀ slot ∈ slots, ∀ d, sliceDuration slot.2 = .ok d → ExactSum slot.1 d
  next : ∀ slot, slots.getLast? = some slot → ∀ d, sliceDuration slot.2 = .ok d →
    ExactSum (slot.1 + d) unitTime

/-- All of `update`, as far as the time lets it come. -/
structure ExactUpdate (tp : TimePartition) (t : Int) : Prop where
  boundary : ExactSlices tp tp.fullSlices
  full : ∀ count boundary, tp.layoutFullSlices t = .ok count →
    tp.fullSliceEndTimestamp = .ok boundary → ExactFullLoop tp count boundary
  grown : ∀ count, tp.layoutFullSlices t = .ok count → ExactSlices tp (tp.fullSlices + count)
  sizes : ∀ count boundary, tp.layoutFullSlices t = .ok count →
    (tp.grown count).fullSliceEndTimestamp = .ok boundary →
    boundary ≤ t ∧ ExactSizes tp.factor boundary (t - boundary).toNat
  slots : ∀ count boundary slots, tp.layoutFullSlices t = .ok count →
    (tp.grown count).fullSliceEndTimestamp = .ok boundary →
    (tp.grown count).layoutPartials boundary t = .ok slots → ExactSlots slots

/-- `try_from_store`: the casts of the earliest timestamp and of the count computed from it, and the
update that follows. -/
structure ExactStart (loc : LocCb) (fresh : TimePartition) (t : Int) (st : OpStore) : Prop where
  earliest : (st.sliceHashes fresh.sectorConstraint).maxKey? = none →
    (wrapU128 ((st.earliestInArc loc fresh.sectorConstraint).getD t) : Int) =
        (st.earliestInArc loc fresh.sectorConstraint).getD t ∧
      wrapU128 ((st.earliestInArc loc fresh.sectorConstraint).getD t) / fresh.fullSliceDuration - 1 ≤
        u64Max
  boundary : ∀ count st', Returns (initialFullSlices loc fresh t) st count st' →
    ExactSlices fresh count
  update : ∀ count st', Returns (initialFullSlices loc fresh t) st count st' →
    ExactUpdate { fresh with fullSlices := count } t

/-- The bounds of full slice `k` are there, and their additions are exact. -/
structure ExactFullBounds (tp : TimePartition) (k : Nat) : Prop where
  returns : ∃ bounds, tp.timeBoundsForFullSliceIndex k = .ok bounds
  start : ExactSlices tp k
  stop : ExactSum (unixTimestamp + fromSecs (k * asSecs tp.fullSliceDuration)) tp.fullSliceDuration

/-- The bounds of partial slice `i` are there, and their addition is exact. -/
structure ExactPartialBounds (tp : TimePartition) (i : Nat) (p : PartialSlice) : Prop where
  returns : ∃ bounds, tp.timeBoundsForPartialSliceIndex i = .ok bounds
  stop : ∀ d, sliceDuration p.size = .ok d → ExactSum p.start d

/-! ## In machine range nothing is lost -/

theorem fromSecs_slices (f k : Nat) :
    ((fromSecs (k * asSecs (sliceLen f)) : Nat) : Int) = fullEnd f k := by
  rw [asSecs_sliceLen, ← Nat.mul_assoc, fromSecs_mul_unitSecs, fullEnd, sliceLen]
  push_cast
  ring

theorem exactSlices_of_le (hs : Shape f arc tp) (h : fullEnd f k ≤ i64Max) : ExactSlices tp k := by
  have hvalue := fromSecs_slices f k
  constructor
  · rw [hs.fullSliceDuration]
    simp only [fromSecs, microsPerSec] at hvalue
    simp only [i64Max] at h
    simp only [u64Max]
    omega
  · rw [hs.fullSliceDuration]
    refine exactSum_of_le (le_refl 0) ?_
    rw [hvalue, unixTimestamp, zero_add]
    exact h

/-- The other way round: an end outside the machine range is lost in the cast. -/
theorem ExactSlices.fullEnd_le (h : ExactSlices tp k) (hs : Shape f arc tp) :
    fullEnd f k ≤ i64Max := by
  have hcast := le_of_wrapI64_eq h.sum.cast
  rw [hs.fullSliceDuration, fromSecs_slices] at hcast
  exact hcast

theorem exactSizes_of_le {recent : Nat} (hn : n ≤ 53) (hstart : 0 ≤ start)
    (hend : start + recent ≤ i64Max) : ExactSizes n start recent := by
  induction n generalizing start recent with
  | zero =>
      trivial
  | succ i ih =>
      intro sliceSize residual hsize hres
      rw [sliceDuration_ok (show i ≤ 54 by omega)] at hsize
      rw [residualDuration_ok (show i < 54 by omega)] at hres
      cases hsize
      cases hres
      have hfits := sliceCount_fits recent i
      constructor
      · intro k hk
        -- the slices of one size fit into what is left, so each of them does
        have hstep : sliceLen i * (k + 1) ≤ recent :=
          le_trans (Nat.mul_le_mul_left _ hk) hfits
        refine ⟨exactSum_of_le (by omega) ?_, hstep⟩
        rw [Nat.mul_succ] at hstep
        omega
      · refine ih (by omega) (by omega) ?_
        rw [Nat.cast_sub hfits]
        linarith

theorem shape_grown (hs : Shape f arc tp) (count : Nat) : Shape f arc (tp.grown count) :=
  ⟨hs.factor, hs.fullSliceDuration, hs.minRecentTime, hs.sectorConstraint⟩

/-- The slot lies between the epoch and `limit`. -/
def SlotWithin (limit : Int) (slot : Int × Nat) : Prop :=
  0 ≤ slot.1 ∧ slot.1 + slotLen slot.2 ≤ limit ∧ slot.2 ≤ 54

theorem SlotWithin.fits {limit : Int} {slot : Int × Nat} (h : SlotWithin limit slot)
    (hlimit : limit ≤ i64Max) : SlotFits slot :=
  ⟨h.1, le_trans h.2.1 hlimit, h.2.2⟩

theorem SlotWithin.exactSum {limit : Int} {slot : Int × Nat} (h : SlotWithin limit slot)
    (hlimit : limit ≤ i64Max) {d : Nat} (hd : sliceDuration slot.2 = .ok d) :
    ExactSum slot.1 d := by
  rw [sliceDuration_ok h.2.2] at hd
  cases hd
  exact exactSum_of_le h.1 (le_trans h.2.1 hlimit)

/-- A layout stays before the time it is made for. -/
theorem slotWithin_partialLayout (hf : f ≤ 53) (hstart : 0 ≤ start) (hle : start ≤ t)
    {slot : Int × Nat} (h : slot ∈ partialLayout f start (t - start).toNat) : SlotWithin t slot := by
  rcases tiles_partialLayout f start (t - start).toNat with ⟨stop, htiles, hstop⟩
  rw [Int.toNat_of_nonneg (sub_nonneg.mpr hle)] at hstop
  rcases htiles.bounds slotLen_pos h with ⟨hlow, hhigh⟩
  have hsize := partialLayout_size_lt h
  exact ⟨by linarith, by linarith, by omega⟩

theorem exactSlots_of_within {slots : List (Int × Nat)} (h : ∀ slot ∈ slots, SlotWithin t slot)
    (ht : t + unitTime ≤ i64Max) : ExactSlots slots := by
  have hmax : t ≤ i64Max := by omega
  refine ⟨fun slot hslot d hd => (h slot hslot).exactSum hmax hd, ?_⟩
  intro slot hlast d hd
  rcases h slot (List.mem_of_getLast? hlast) with ⟨hlow, hhigh, hsize⟩
  rw [sliceDuration_ok hsize] at hd
  cases hd
  unfold slotLen at hhigh
  exact exactSum_of_le (by omega) (by omega)

/-- The full slices after an update end by the time of the update. -/
theorem layoutFullSlices_grown (hs : Shape f arc tp) (hfit : fullEnd f tp.fullSlices ≤ i64Max)
    (ht : t ≤ i64Max) {count : Nat} (h : tp.layoutFullSlices t = .ok count) :
    fullEnd f (tp.fullSlices + count) ≤ t := by
  have hle := layoutFullSlices_le hs hfit h
  rcases layoutFullSlices_ok hs hle ht with ⟨m, hm, hmax⟩
  rw [h] at hm
  cases hm
  rw [hmax]
  exact fullEnd_max_le hle

theorem exactUpdate_of_le (hf : f ≤ 53) (hs : Shape f arc tp)
    (hfit : fullEnd f tp.fullSlices ≤ i64Max) (ht : t + unitTime ≤ i64Max) : ExactUpdate tp t := by
  have hmax : t ≤ i64Max := by omega
  -- what the update computes: full slices up to t, the partial slices after them
  have hend : ∀ count, tp.layoutFullSlices t = .ok count →
      (tp.grown count).fullSliceEndTimestamp = .ok (fullEnd f (tp.fullSlices + count)) :=
    fun count hcount => fullSliceEndTimestamp_ok (shape_grown hs count)
      (le_trans (layoutFullSlices_grown hs hfit hmax hcount) hmax)
  have hlayout : ∀ count, tp.layoutFullSlices t = .ok count →
      (tp.grown count).layoutPartials (fullEnd f (tp.fullSlices + count)) t =
        .ok (partialLayout f (fullEnd f (tp.fullSlices + count))
          (t - fullEnd f (tp.fullSlices + count)).toNat) :=
    fun count hcount => layoutPartials_ok hf (shape_grown hs count) (fullEnd_nonneg _ _)
      (layoutFullSlices_grown hs hfit hmax hcount) hmax
  constructor
  case boundary =>
    exact exactSlices_of_le hs hfit
  case full =>
    intro count boundary hcount hboundary k hk
    rw [fullSliceEndTimestamp_ok hs hfit] at hboundary
    cases hboundary
    have hgrown := layoutFullSlices_grown hs hfit hmax hcount
    have hnext : fullEnd f (tp.fullSlices + k + 1) ≤ i64Max :=
      le_trans (fullEnd_mono (by omega)) (le_trans hgrown hmax)
    -- the start of the k-th new slice
    have hcur : fullEnd f tp.fullSlices + ((tp.fullSliceDuration * k : Nat) : Int) =
        fullEnd f (tp.fullSlices + k) := by
      rw [hs.fullSliceDuration, fullEnd, fullEnd]
      push_cast
      ring
    constructor
    · rw [hcur]
      refine exactSum_of_le (fullEnd_nonneg _ _) ?_
      rw [hs.fullSliceDuration, ← fullEnd_succ]
      exact hnext
    · have hsmall := le_trans (le_fullEnd f (tp.fullSlices + k + 1)) hnext
      simp only [i64Max] at hsmall
      simp only [u64Max]
      omega
  case grown =>
    intro count hcount
    exact exactSlices_of_le hs (le_trans (layoutFullSlices_grown hs hfit hmax hcount) hmax)
  case sizes =>
    intro count boundary hcount hboundary
    rw [hend count hcount] at hboundary
    cases hboundary
    have hle := layoutFullSlices_grown hs hfit hmax hcount
    refine ⟨hle, ?_⟩
    rw [hs.factor]
    refine exactSizes_of_le hf (fullEnd_nonneg _ _) ?_
    rw [Int.toNat_of_nonneg (sub_nonneg.mpr hle)]
    linarith
  case slots =>
    intro count boundary slots hcount hboundary hslots
    rw [hend count hcount] at hboundary
    cases hboundary
    rw [hlayout count hcount] at hslots
    cases hslots
    exact exactSlots_of_within (fun slot hslot => slotWithin_partialLayout hf (fullEnd_nonneg _ _)
      (layoutFullSlices_grown hs hfit hmax hcount) hslot) ht

/-! ## Bounds of the slices -/

theorem exactFullBounds_of_lt (hs : Shape f arc tp) (hfit : fullEnd f tp.fullSlices ≤ i64Max)
    (hk : k < tp.fullSlices) : ExactFullBounds tp k := by
  have hnext : fullEnd f (k + 1) ≤ i64Max := le_trans (fullEnd_mono hk) hfit
  refine ⟨⟨_, fullBounds_ok hs (le_of_lt hk) hnext⟩,
    exactSlices_of_le hs (le_trans (fullEnd_mono (Nat.le_succ k)) hnext), ?_⟩
  rw [hs.fullSliceDuration, fromSecs_slices, unixTimestamp, zero_add]
  refine exactSum_of_le (fullEnd_nonneg _ _) ?_
  rw [← fullEnd_succ]
  exact hnext

theorem exactPartialBounds_of_within {i : Nat} {p : PartialSlice} (hp : tp.partialSlices[i]? = some p)
    (hwithin : SlotWithin t p.slot) (ht : t ≤ i64Max) : ExactPartialBounds tp i p :=
  ⟨⟨_, partialBounds_ok hp (hwithin.fits ht)⟩, fun _ hd => hwithin.exactSum ht hd⟩

end TimePartition

end Dht
end Kitsune2
