import Mathlib.Tactic.Ring
import Kitsune2.Dht.TimePartition
import Kitsune2.Lib.Tiling

/-!
# Layout — where the slices of a partition lie

The layout functions of `TimePartition` are checked computations; this module says what they
compute.  `fullCount f t` is the number of full slices at time `t`, and `partialLayout f s r` the
list of partial slices that cover `r` microseconds of recent time from `s` on.  Whenever the code's
layout functions return, they return these values, and they return for every time that fits its
machine type.
-/

namespace Kitsune2
namespace Dht

open Api Lib

/-! ## Durations -/

theorem unitTime_eq : unitTime = 900000000 := by decide

/-- The length of a slice of the given size. -/
def sliceLen (size : Nat) : Nat :=
  unitTime * 2 ^ size

/-- The reserved recent time below a full slice of the given size. -/
def recentLen (size : Nat) : Nat :=
  unitTime * (2 ^ size - 1)

theorem sliceLen_pos (size : Nat) : 0 < sliceLen size := by
  have htwo : 0 < 2 ^ size := Nat.two_pow_pos size
  have hunit : 0 < unitTime := by decide
  exact Nat.mul_pos hunit htwo

theorem recentLen_add_unitTime (size : Nat) : recentLen size + unitTime = sliceLen size := by
  have htwo : 0 < 2 ^ size := Nat.two_pow_pos size
  unfold recentLen sliceLen
  rw [Nat.mul_sub, Nat.mul_one, Nat.sub_add_cancel]
  exact Nat.le_mul_of_pos_right _ htwo

theorem residualUnits_eq (i : Nat) : residualUnits i = 2 ^ (i + 1) - 1 := by
  induction i with
  | zero =>
      rfl
  | succ i ih =>
      have htwo : 0 < 2 ^ (i + 1) := Nat.two_pow_pos (i + 1)
      have hlt : residualUnits i < 2 ^ (i + 1) := by omega
      have hor : residualUnits (i + 1) = 2 ^ (i + 1) + residualUnits i := by
        have h := Nat.two_pow_add_eq_or_of_lt hlt 1
        rw [Nat.mul_one] at h
        rw [h, residualUnits, Nat.one_shiftLeft, Nat.or_comm]
      rw [hor, ih, Nat.pow_succ 2 (i + 1)]
      omega

theorem mulU64_unitSecs {n : Nat} (h : n ≤ 2 ^ 54) : mulU64 n unitSecs = .ok (n * unitSecs) := by
  rw [mulU64_eq_ok_iff]
  refine ⟨rfl, ?_⟩
  calc n * unitSecs ≤ 2 ^ 54 * unitSecs := Nat.mul_le_mul_right _ h
    _ ≤ u64Max := by decide

theorem fromSecs_mul_unitSecs (n : Nat) : fromSecs (n * unitSecs) = unitTime * n := by
  unfold fromSecs unitTime fromSecs
  rw [Nat.mul_comm n, Nat.mul_assoc]

theorem sliceDuration_ok {size : Nat} (h : size ≤ 54) : sliceDuration size = .ok (sliceLen size) := by
  have hpow : 2 ^ size ≤ 2 ^ 54 := Nat.pow_le_pow_right (by decide) h
  simp only [sliceDuration, shlU64_of_lt (show size < 64 by omega), bind, Except.bind,
    mulU64_unitSecs hpow, pure, Except.pure, fromSecs_mul_unitSecs]
  rfl

theorem residualDuration_ok {i : Nat} (h : i < 54) :
    residualDurationForFactor i = .ok (recentLen (i + 1)) := by
  have hpow : 2 ^ (i + 1) ≤ 2 ^ 54 := Nat.pow_le_pow_right (by decide) h
  have hle : residualUnits i ≤ 2 ^ 54 := by
    rw [residualUnits_eq]
    omega
  simp only [residualDurationForFactor, if_neg (show ¬ i ≥ 54 by omega), bind, Except.bind,
    mulU64_unitSecs hle, pure, Except.pure, fromSecs_mul_unitSecs]
  rw [residualUnits_eq]
  rfl

theorem microsPerSec_dvd_sliceLen (size : Nat) : microsPerSec ∣ sliceLen size :=
  Nat.dvd_mul_right_of_dvd (by decide) _

theorem asSecs_sliceLen (size : Nat) : asSecs (sliceLen size) = 2 ^ size * unitSecs := by
  unfold sliceLen
  rw [← fromSecs_mul_unitSecs, asSecs_fromSecs]

/-! ## Full slices -/

/-- The constants of a partition are those of its factor and sector. -/
structure Shape (f : Nat) (arc : DhtArc) (tp : TimePartition) : Prop where
  factor : tp.factor = f
  fullSliceDuration : tp.fullSliceDuration = sliceLen f
  minRecentTime : tp.minRecentTime = recentLen f
  sectorConstraint : tp.sectorConstraint = arc

/-- The start of full slice `k`; full slices lie between the epoch and `fullEnd f fullSlices`. -/
def fullEnd (f k : Nat) : Int :=
  (sliceLen f : Int) * k

/-- The number of full slices at time `t`. -/
def fullCount (f : Nat) (t : Int) : Nat :=
  ((t - recentLen f) / sliceLen f).toNat

/-- A new partition, before its first update. -/
def freshPart (f : Nat) (arc : DhtArc) (fullSlices : Nat) : TimePartition where
  factor := f
  fullSlices := fullSlices
  partialSlices := []
  fullSliceDuration := sliceLen f
  minRecentTime := recentLen f
  nextUpdateAt := 0
  sectorConstraint := arc

theorem shape_freshPart (f : Nat) (arc : DhtArc) (fullSlices : Nat) :
    Shape f arc (freshPart f arc fullSlices) :=
  ⟨rfl, rfl, rfl, rfl⟩

theorem new_ok {f : Nat} (hpos : 1 ≤ f) (hf : f ≤ 53) (arc : DhtArc) :
    TimePartition.new f arc = .ok (freshPart f arc 0) := by
  have hne : f ≠ 0 := by omega
  have hsucc : f - 1 + 1 = f := by omega
  simp only [TimePartition.new, sliceDuration_ok (show f ≤ 54 by omega), bind, Except.bind,
    if_neg hne, residualDuration_ok (show f - 1 < 54 by omega), hsucc, pure, Except.pure, freshPart]

theorem fullEnd_succ (f k : Nat) : fullEnd f (k + 1) = fullEnd f k + sliceLen f := by
  unfold fullEnd
  push_cast
  ring

theorem fullEnd_nonneg (f k : Nat) : 0 ≤ fullEnd f k :=
  Int.mul_nonneg (Int.natCast_nonneg (sliceLen f)) (Int.natCast_nonneg k)

theorem fullEnd_mono {f k k' : Nat} (h : k ≤ k') : fullEnd f k ≤ fullEnd f k' := by
  unfold fullEnd
  exact Int.mul_le_mul_of_nonneg_left (by exact_mod_cast h) (Int.natCast_nonneg _)

theorem le_fullEnd (f k : Nat) : (k : Int) ≤ fullEnd f k := by
  have hlen : (1 : Int) ≤ sliceLen f := by exact_mod_cast sliceLen_pos f
  unfold fullEnd
  calc (k : Int) = 1 * k := (one_mul _).symm
    _ ≤ sliceLen f * k := Int.mul_le_mul_of_nonneg_right hlen (Int.natCast_nonneg k)

/-- A full slice is counted exactly when it fits before `t` with the reserved recent time. -/
theorem lt_fullCount_iff {f k : Nat} {t : Int} :
    k < fullCount f t ↔ fullEnd f (k + 1) + recentLen f ≤ t := by
  have hlen : (0 : Int) < sliceLen f := by exact_mod_cast sliceLen_pos f
  unfold fullCount fullEnd
  rw [Int.lt_toNat, Int.lt_iff_add_one_le, Int.le_ediv_iff_mul_le hlen]
  push_cast
  rw [Int.mul_comm]
  constructor
  · intro h
    linarith
  · intro h
    linarith

theorem fullEnd_fullCount_le {f : Nat} {t : Int} (h : 0 < fullCount f t) :
    fullEnd f (fullCount f t) + recentLen f ≤ t := by
  have hlt : fullCount f t - 1 < fullCount f t := by omega
  have hfit := lt_fullCount_iff.mp hlt
  rwa [Nat.sub_add_cancel h] at hfit

/-- A count whose end leaves the reserved recent time free is within `fullCount`. -/
theorem le_fullCount_of {f k : Nat} {t : Int} (h : 0 < k → fullEnd f k + recentLen f ≤ t) :
    k ≤ fullCount f t := by
  rcases Nat.eq_zero_or_pos k with hzero | hpos
  · rw [hzero]
    exact Nat.zero_le _
  · have hlt : k - 1 < fullCount f t := by
      rw [lt_fullCount_iff, Nat.sub_add_cancel hpos]
      exact h hpos
    omega

theorem fullCount_mono {f : Nat} {t t' : Int} (h : t ≤ t') : fullCount f t ≤ fullCount f t' := by
  by_contra hlt
  have hfit := lt_fullCount_iff.mp (not_le.mp hlt)
  have hlt' : fullCount f t' < fullCount f t' := lt_fullCount_iff.mpr (le_trans hfit h)
  exact absurd hlt' (lt_irrefl _)

theorem fullEnd_fullCount_le_self {f : Nat} {t : Int} (ht : 0 ≤ t) :
    fullEnd f (fullCount f t) ≤ t := by
  rcases Nat.eq_zero_or_pos (fullCount f t) with hzero | hpos
  · rw [hzero]
    simpa [fullEnd] using ht
  · have hfit := fullEnd_fullCount_le hpos
    have hrec : (0 : Int) ≤ recentLen f := Int.natCast_nonneg _
    linarith

section Full

variable {f : Nat} {arc : DhtArc} {tp : TimePartition}

/-- The end of the full slices, as long as it is a timestamp. -/
theorem fullSliceEndTimestamp_ok (hs : Shape f arc tp) (h : fullEnd f tp.fullSlices ≤ i64Max) :
    tp.fullSliceEndTimestamp = .ok (fullEnd f tp.fullSlices) := by
  have hmicros : fromSecs (tp.fullSlices * (2 ^ f * unitSecs)) = sliceLen f * tp.fullSlices := by
    rw [← Nat.mul_assoc, fromSecs_mul_unitSecs, sliceLen, Nat.mul_assoc, Nat.mul_comm (2 ^ f)]
  have hcast : ((sliceLen f * tp.fullSlices : Nat) : Int) = fullEnd f tp.fullSlices := by
    unfold fullEnd
    push_cast
    rfl
  have hmul : tp.fullSlices * (2 ^ f * unitSecs) ≤ u64Max := by
    have hle : ((sliceLen f * tp.fullSlices : Nat) : Int) ≤ i64Max := by rwa [hcast]
    rw [← hmicros] at hle
    simp only [fromSecs, microsPerSec, i64Max] at hle
    simp only [u64Max]
    omega
  have hadd : addDuration unixTimestamp (sliceLen f * tp.fullSlices) =
      .ok (fullEnd f tp.fullSlices) := by
    have hfit : (0 : Int) + ((sliceLen f * tp.fullSlices : Nat) : Int) ≤ i64Max := by
      rw [hcast, zero_add]
      exact h
    have hok := addDuration_of_le (le_refl 0) hfit
    rw [hcast, zero_add] at hok
    exact hok
  simp only [TimePartition.fullSliceEndTimestamp, hs.fullSliceDuration, asSecs_sliceLen, bind,
    Except.bind, mulU64_eq_ok_iff.mpr ⟨rfl, hmul⟩, hmicros, hadd]

/-- `layout_full_slices` brings the count up to `fullCount`, and never below what it is. -/
theorem layoutFullSlices_ok (hs : Shape f arc tp) {t : Int} (hle : fullEnd f tp.fullSlices ≤ t)
    (ht : t ≤ i64Max) :
    ∃ n, tp.layoutFullSlices t = .ok n ∧
      tp.fullSlices + n = max tp.fullSlices (fullCount f t) := by
  have hend := fullSliceEndTimestamp_ok hs (le_trans hle ht)
  have hnonneg := fullEnd_nonneg f tp.fullSlices
  have hlen : (0 : Int) < sliceLen f := by exact_mod_cast sliceLen_pos f
  rcases Int.eq_ofNat_of_zero_le (sub_nonneg.mpr hle) with ⟨recent, hrecent⟩
  have helapsed : elapsed t (fullEnd f tp.fullSlices)
      (.k2 "Current time is before the complete time slice boundary") = .ok recent := by
    rw [elapsed_eq_ok_iff]
    refine ⟨hle, ?_, hrecent.symm⟩
    linarith
  simp only [TimePartition.layoutFullSlices, hend, helapsed, bind, Except.bind, hs.minRecentTime,
    hs.fullSliceDuration, pure, Except.pure]
  by_cases hbig : recent > recentLen f
  · rw [if_pos hbig]
    refine ⟨_, rfl, ?_⟩
    -- dividing whole seconds by whole seconds is dividing the durations
    have hdiv : asSecs (recent - recentLen f) / asSecs (sliceLen f) =
        (recent - recentLen f) / sliceLen f := by
      rw [asSecs_sliceLen, asSecs, Nat.div_div_eq_div_mul, Nat.mul_comm microsPerSec,
        show 2 ^ f * unitSecs * microsPerSec = sliceLen f by
          rw [Nat.mul_comm _ microsPerSec, ← asSecs_sliceLen]
          exact Nat.mul_div_cancel' (microsPerSec_dvd_sliceLen f)]
    have hsub : t - recentLen f = ((recent - recentLen f : Nat) : Int) + sliceLen f * tp.fullSlices := by
      rw [Nat.cast_sub (le_of_lt hbig)]
      unfold fullEnd at hrecent
      linarith
    have hcount : fullCount f t = (recent - recentLen f) / sliceLen f + tp.fullSlices := by
      unfold fullCount
      rw [hsub, Int.add_mul_ediv_left _ _ (ne_of_gt hlen)]
      have hcast : (((recent - recentLen f : Nat) : Int) / (sliceLen f : Int)) =
          (((recent - recentLen f) / sliceLen f : Nat) : Int) := by
        rw [Int.natCast_ediv]
      rw [hcast, ← Nat.cast_add, Int.toNat_natCast]
    rw [hdiv, hcount, Nat.max_eq_right (Nat.le_add_left _ _), Nat.add_comm]
  · rw [if_neg hbig]
    refine ⟨0, rfl, ?_⟩
    -- no room for another slice: the next one would eat into the reserved time
    have hnot : ¬ tp.fullSlices < fullCount f t := by
      rw [lt_fullCount_iff, fullEnd_succ]
      intro hfit
      have hrec : (recent : Int) ≤ recentLen f := by exact_mod_cast not_lt.mp hbig
      linarith
    rw [Nat.add_zero, Nat.max_eq_left (not_lt.mp hnot)]

/-- When `layout_full_slices` returns, the time is not before the end of the full slices. -/
theorem layoutFullSlices_le (hs : Shape f arc tp) {t : Int} {n : Nat}
    (hfit : fullEnd f tp.fullSlices ≤ i64Max) (h : tp.layoutFullSlices t = .ok n) :
    fullEnd f tp.fullSlices ≤ t := by
  have hend := fullSliceEndTimestamp_ok hs hfit
  rcases bind_eq_ok_iff.mp h with ⟨e, he, hrest⟩
  rw [hend] at he
  cases he
  rcases bind_eq_ok_iff.mp hrest with ⟨recent, hrecent, _⟩
  exact (elapsed_eq_ok_iff.mp hrecent).1

end Full

/-! ## Partial slices -/

/-- The length of a slot of the given size, as `Tiles` takes it. -/
def slotLen (size : Nat) : Int :=
  sliceLen size

theorem slotLen_pos (size : Nat) : 0 < slotLen size := by
  unfold slotLen
  exact_mod_cast sliceLen_pos size

/-- `count` slots of one size, from `start` on. -/
def slots (size : Nat) : Nat → Int → List (Int × Nat)
  | 0, _ => []
  | count + 1, start => (start, size) :: slots size count (start + slotLen size)

/-- The partial slices of sizes below `n` that cover `recent` microseconds from `start` on. -/
def partialLayout : Nat → Int → Nat → List (Int × Nat)
  | 0, _, _ => []
  | i + 1, start, recent =>
      let count := TimePartition.sliceCount recent (recentLen (i + 1)) (sliceLen i)
      slots i count start ++
        partialLayout i (start + slotLen i * count) (recent - sliceLen i * count)

theorem length_slots (size count : Nat) (start : Int) : (slots size count start).length = count := by
  induction count generalizing start with
  | zero =>
      rfl
  | succ count ih =>
      rw [slots, List.length_cons, ih]

theorem sliceCount_le_two (recent residual size : Nat) :
    TimePartition.sliceCount recent residual size ≤ 2 := by
  unfold TimePartition.sliceCount
  split
  · exact le_refl 2
  · split
    · decide
    · decide

/-- Each size is used at most twice. -/
theorem length_partialLayout_le (n : Nat) (start : Int) (recent : Nat) :
    (partialLayout n start recent).length ≤ 2 * n := by
  induction n generalizing start recent with
  | zero =>
      exact Nat.le_refl 0
  | succ i ih =>
      have hcount := sliceCount_le_two recent (recentLen (i + 1)) (sliceLen i)
      have hrest := ih (start + slotLen i * TimePartition.sliceCount recent (recentLen (i + 1))
        (sliceLen i))
        (recent - sliceLen i * TimePartition.sliceCount recent (recentLen (i + 1)) (sliceLen i))
      simp only [partialLayout, List.length_append, length_slots]
      omega

theorem sliceLen_le_recentLen (i : Nat) : sliceLen i ≤ recentLen (i + 1) := by
  have hpow : (2 : Nat) ^ (i + 1) = 2 ^ i * 2 := Nat.pow_succ 2 i
  have htwo : 0 < 2 ^ i := Nat.two_pow_pos i
  unfold sliceLen recentLen
  apply Nat.mul_le_mul_left
  omega

/-- The slices that are laid out fit into the time that is left. -/
theorem sliceCount_fits (recent i : Nat) :
    sliceLen i * TimePartition.sliceCount recent (recentLen (i + 1)) (sliceLen i) ≤ recent := by
  have hres := sliceLen_le_recentLen i
  unfold TimePartition.sliceCount
  split
  · rename_i hbig
    omega
  · split
    · rename_i hone
      omega
    · omega

theorem tiles_slots (size count : Nat) (start : Int) :
    Tiles slotLen start (slots size count start) (start + slotLen size * count) := by
  induction count generalizing start with
  | zero =>
      simp [slots, Tiles]
  | succ count ih =>
      refine ⟨rfl, ?_⟩
      have hnext := ih (start + slotLen size)
      have heq : start + slotLen size + slotLen size * count =
          start + slotLen size * ((count + 1 : Nat) : Int) := by
        push_cast
        ring
      rwa [heq] at hnext

/-- The partial slices tile recent time from its start, and do not reach past its end. -/
theorem tiles_partialLayout (n : Nat) (start : Int) (recent : Nat) :
    ∃ stop, Tiles slotLen start (partialLayout n start recent) stop ∧ stop ≤ start + recent := by
  induction n generalizing start recent with
  | zero =>
      exact ⟨start, rfl, by omega⟩
  | succ i ih =>
      have hfits := sliceCount_fits recent i
      generalize hc : TimePartition.sliceCount recent (recentLen (i + 1)) (sliceLen i) = count at hfits
      rcases ih (start + slotLen i * count) (recent - sliceLen i * count) with ⟨stop, htiles, hle⟩
      refine ⟨stop, ?_, ?_⟩
      · simp only [partialLayout, hc]
        exact tiles_append (tiles_slots i count start) htiles
      · have hcast : ((sliceLen i * count : Nat) : Int) = slotLen i * count := by
          unfold slotLen
          push_cast
          rfl
        rw [Nat.cast_sub hfits, hcast] at hle
        linarith

theorem pushSlices_ok {size count recent : Nat} {start : Int} (hstart : 0 ≤ start)
    (hfits : sliceLen size * count ≤ recent) (hend : start + recent ≤ i64Max) :
    TimePartition.pushSlices size (sliceLen size) count start recent =
      .ok (slots size count start, start + slotLen size * count, recent - sliceLen size * count) := by
  induction count generalizing start recent with
  | zero =>
      simp [TimePartition.pushSlices, slots]
  | succ count ih =>
      have hsplit : sliceLen size * (count + 1) = sliceLen size * count + sliceLen size := by ring
      have hlen : sliceLen size ≤ recent := by omega
      have hadd : addDuration start (sliceLen size) = .ok (start + slotLen size) := by
        apply addDuration_of_le hstart
        have : ((sliceLen size : Nat) : Int) ≤ recent := by exact_mod_cast hlen
        linarith
      have hnext := @ih (recent - sliceLen size) (start + slotLen size)
        (by have := slotLen_pos size; linarith) (by omega)
        (by rw [Nat.cast_sub hlen]; unfold slotLen; linarith)
      simp only [TimePartition.pushSlices, hadd, hnext, bind, Except.bind, pure, Except.pure, slots]
      congr 3
      · push_cast
        ring
      · omega

theorem addDurations_ok {i : Nat} (hi : i ≤ 52) :
    ∃ d, addDurations (recentLen (i + 1)) (sliceLen i) = .ok d := by
  have hpow : 2 ^ i ≤ 2 ^ 52 := Nat.pow_le_pow_right (by decide) hi
  have hpow' : (2 : Nat) ^ (i + 1) = 2 ^ i * 2 := Nat.pow_succ 2 i
  have hle : asSecs (recentLen (i + 1) + sliceLen i) ≤ u64Max := by
    simp only [asSecs, recentLen, sliceLen, unitTime_eq, microsPerSec, u64Max, hpow']
    omega
  exact ⟨recentLen (i + 1) + sliceLen i, by simp only [addDurations, if_pos hle]⟩

theorem layoutSizes_ok {n recent : Nat} {start : Int} (hn : n ≤ 53) (hstart : 0 ≤ start)
    (hend : start + recent ≤ i64Max) :
    TimePartition.layoutSizes n start recent = .ok (partialLayout n start recent) := by
  induction n generalizing start recent with
  | zero =>
      rfl
  | succ i ih =>
      have hfits := sliceCount_fits recent i
      rcases addDurations_ok (show i ≤ 52 by omega) with ⟨d, hd⟩
      have hcast (count : Nat) : ((sliceLen i * count : Nat) : Int) = slotLen i * count := by
        unfold slotLen
        push_cast
        rfl
      have hpush := @pushSlices_ok i _ _ _ hstart hfits hend
      have hrest := @ih
        (recent - sliceLen i * TimePartition.sliceCount recent (recentLen (i + 1)) (sliceLen i))
        (start + slotLen i * TimePartition.sliceCount recent (recentLen (i + 1)) (sliceLen i))
        (by omega)
        (by rw [← hcast]; exact Int.add_nonneg hstart (Int.natCast_nonneg _))
        (by rw [Nat.cast_sub hfits, hcast]; linarith)
      refine bind_eq_ok_iff.mpr ⟨_, sliceDuration_ok (show i ≤ 54 by omega), ?_⟩
      refine bind_eq_ok_iff.mpr ⟨_, residualDuration_ok (show i < 54 by omega), ?_⟩
      refine bind_eq_ok_iff.mpr ⟨d, hd, ?_⟩
      refine bind_eq_ok_iff.mpr ⟨_, hpush, ?_⟩
      exact bind_eq_ok_iff.mpr ⟨_, hrest, rfl⟩

/-- `layout_partials` from the end of the full slices to the current time. -/
theorem layoutPartials_ok {f : Nat} {arc : DhtArc} {tp : TimePartition} (hf : f ≤ 53)
    (hs : Shape f arc tp) {start t : Int} (hstart : 0 ≤ start) (hle : start ≤ t)
    (ht : t ≤ i64Max) :
    tp.layoutPartials start t = .ok (partialLayout f start (t - start).toNat) := by
  have hcast : (((t - start).toNat : Nat) : Int) = t - start :=
    Int.toNat_of_nonneg (sub_nonneg.mpr hle)
  have helapsed : elapsed t start
      (.k2 "Failed to calculate recent time for partials, either the clock is wrong or this is a bug")
        = .ok (t - start).toNat := by
    rw [elapsed_eq_ok_iff]
    refine ⟨hle, by linarith, hcast⟩
  simp only [TimePartition.layoutPartials, helapsed, bind, Except.bind, hs.factor]
  exact layoutSizes_ok hf hstart (by rw [hcast]; linarith)

end Dht
end Kitsune2
