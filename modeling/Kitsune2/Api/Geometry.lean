import Kitsune2.Api.Basic
import Kitsune2.Lib.Circle

/-!
# Geometry — storage arcs on the circle of locations

The locations are the `2 ^ 32` numbers of a `u32`, on a circle.  A storage arc is a walk on it: `dist`
is the distance from a location to the nearest one of the walk, in the direction in which it is
nearer, and two arcs overlap when some location is on both.  The bounds here are `u32` by type, and
the arithmetic of `dist` is checked, so that it is known not to overflow.
-/

namespace Kitsune2
namespace Api

open Lib

/-! ## Arcs with `u32` bounds -/

/-- A `DhtArc` whose bounds are of type `u32`. -/
inductive U32Arc
  | empty
  | arc (start stop : UInt32)
  deriving DecidableEq

def U32Arc.toArc : U32Arc → DhtArc
  | .empty => .empty
  | .arc start stop => .arc start.toNat stop.toNat

/-- The number of locations. -/
def ringSize : Nat := u32Max + 1

theorem ringSize_eq : ringSize = 4294967296 := rfl

theorem u32Max_succ : u32Max + 1 = ringSize := rfl

theorem toNat_lt_ringSize (x : UInt32) : x.toNat < ringSize :=
  x.toNat_lt

/-! ## Checked arithmetic -/

/-- `a - b` in `u32`. -/
def checkedSub (a b : Nat) : Except Fault Nat :=
  if b ≤ a then .ok (a - b) else .error (.panicked "attempt to subtract with overflow")

/-- `a + b` in `u32`. -/
def checkedAdd (a b : Nat) : Except Fault Nat :=
  if a + b ≤ u32Max then .ok (a + b) else .error (.panicked "attempt to add with overflow")

theorem checkedSub_ok {a b : Nat} (h : b ≤ a) : checkedSub a b = .ok (a - b) :=
  if_pos h

theorem checkedAdd_ok {a b : Nat} (h : a + b ≤ u32Max) : checkedAdd a b = .ok (a + b) :=
  if_pos h

namespace DhtArc

/-- `dist` in the arithmetic of `u32`. -/
def distU32 : DhtArc → Nat → Except Fault Nat
  | .empty, _ => .ok u32Max
  | .arc start stop, loc =>
      if start > stop then
        if loc ≥ start ∨ loc ≤ stop then .ok 0
        else do
          let d1 ← checkedSub start loc
          let d2 ← checkedSub loc stop
          pure (min d1 d2)
      else
        if loc ≥ start ∧ loc ≤ stop then .ok 0
        else if loc < start then do
          let d1 ← checkedSub start loc
          -- the one is for the wrap
          let d2 ← checkedAdd (← checkedAdd (← checkedSub u32Max stop) loc) 1
          pure (min d1 d2)
        else do
          let d1 ← checkedAdd (← checkedAdd (← checkedSub u32Max loc) start) 1
          let d2 ← checkedSub loc stop
          pure (min d1 d2)

section Dist

variable {start stop loc : Nat}

/-- No operation of `dist` overflows. -/
theorem distU32_eq_dist (hstop : stop ≤ u32Max) (hloc : loc ≤ u32Max) :
    (arc start stop).distU32 loc = .ok ((arc start stop).dist loc) := by
  simp only [distU32, dist]
  by_cases hwrap : start > stop
  · rw [if_pos hwrap, if_pos hwrap]
    by_cases hin : loc ≥ start ∨ loc ≤ stop
    · rw [if_pos hin, if_pos hin]
    · rw [if_neg hin, if_neg hin, checkedSub_ok (by omega), checkedSub_ok (by omega)]
      rfl
  · rw [if_neg hwrap, if_neg hwrap]
    by_cases hin : loc ≥ start ∧ loc ≤ stop
    · rw [if_pos hin, if_pos hin]
    · rw [if_neg hin, if_neg hin]
      by_cases hlt : loc < start
      · have hgap : u32Max - stop + loc ≤ u32Max := by omega
        have hwrapped : u32Max - stop + loc + 1 ≤ u32Max := by omega
        rw [if_pos hlt, if_pos hlt, checkedSub_ok (by omega), checkedSub_ok hstop]
        simp only [bind, Except.bind, checkedAdd_ok hgap, checkedAdd_ok hwrapped]
        rfl
      · have hgap : u32Max - loc + start ≤ u32Max := by omega
        have hwrapped : u32Max - loc + start + 1 ≤ u32Max := by omega
        rw [if_neg hlt, if_neg hlt, checkedSub_ok hloc]
        simp only [bind, Except.bind, checkedAdd_ok hgap, checkedAdd_ok hwrapped,
          checkedSub_ok (show stop ≤ loc by omega)]
        rfl

/-- An arc contains the locations of its walk. -/
theorem contains_iff_onCircleWalk (hstart : start < ringSize) (hstop : stop < ringSize)
    (hloc : loc < ringSize) :
    (arc start stop).contains loc = true ↔ OnCircleWalk ringSize start stop loc := by
  rcases Nat.lt_or_ge stop start with hlt | hle
  · rw [contains_wrap_iff hlt, onCircleWalk_of_gt hlt hstart hloc]
  · rw [contains_arc_iff hle, onCircleWalk_of_le hle hstop hloc]

/-- Off the walk, `dist` is the shorter of the way up to its start and the way down to its stop. -/
theorem dist_of_off_walk (hstart : start < ringSize) (hstop : stop < ringSize)
    (hloc : loc < ringSize) (hoff : ¬ OnCircleWalk ringSize start stop loc) :
    (arc start stop).dist loc = min (stepsTo ringSize loc start) (stepsTo ringSize stop loc) := by
  have hup := stepsTo_cases hloc hstart
  have hdown := stepsTo_cases hstop hloc
  have hring := u32Max_succ
  simp only [dist]
  rcases Nat.lt_or_ge stop start with hlt | hle
  · rw [onCircleWalk_of_gt hlt hstart hloc] at hoff
    rw [if_pos hlt, if_neg hoff]
    omega
  · rw [onCircleWalk_of_le hle hstop hloc] at hoff
    rw [if_neg (Nat.not_lt_of_ge hle), if_neg hoff]
    split <;> omega

/-- `dist` is the distance to the nearest location of the walk. -/
theorem dist_isNearest (hstart : start < ringSize) (hstop : stop < ringSize)
    (hloc : loc < ringSize) :
    (∃ x < ringSize, OnCircleWalk ringSize start stop x ∧
        circleDist ringSize loc x = (arc start stop).dist loc) ∧
      ∀ x < ringSize, OnCircleWalk ringSize start stop x →
        (arc start stop).dist loc ≤ circleDist ringSize loc x := by
  by_cases hon : OnCircleWalk ringSize start stop loc
  · have hzero : (arc start stop).dist loc = 0 := by
      have hcontains := (contains_iff_onCircleWalk hstart hstop hloc).mpr hon
      exact beq_iff_eq.mp hcontains
    rw [hzero]
    exact ⟨⟨loc, hloc, hon, (circleDist_eq_zero_iff hloc hloc).mpr rfl⟩,
      fun _ _ _ => Nat.zero_le _⟩
  · rw [dist_of_off_walk hstart hstop hloc hon]
    exact ⟨exists_nearest_end hstart hstop hloc hon,
      fun x hx hwalk => circleDist_of_off_walk hstart hstop hloc hon hx hwalk⟩

end Dist

/-! ## Overlaps -/

/-- Two arcs overlap when one of them starts on the other. -/
theorem overlaps_iff_starts {start stop start' stop' : Nat} (hstart : start < ringSize)
    (hstop : stop < ringSize) (hstart' : start' < ringSize) (hstop' : stop' < ringSize) :
    (arc start stop).overlaps (arc start' stop') = true ↔
      OnCircleWalk ringSize start stop start' ∨ OnCircleWalk ringSize start' stop' start := by
  have hunfold : (arc start stop).overlaps (arc start' stop') =
      ((arc start stop).contains start' || (arc start stop).contains stop' ||
        (arc start' stop').contains start || (arc start' stop').contains stop) := rfl
  rw [hunfold]
  simp only [Bool.or_eq_true, contains_iff_onCircleWalk, hstart, hstop, hstart', hstop']
  constructor
  · rintro (((hon | hon) | hon) | hon)
    · exact Or.inl hon
    · exact (exists_common_iff hstart hstart').mp ⟨stop', hstop', hon, onCircleWalk_stop⟩
    · exact Or.inr hon
    · exact (exists_common_iff hstart hstart').mp ⟨stop, hstop, onCircleWalk_stop, hon⟩
  · rintro (hon | hon)
    · exact Or.inl (Or.inl (Or.inl hon))
    · exact Or.inl (Or.inr hon)

/-- Two arcs overlap when some location is in both. -/
theorem overlaps_iff (a b : U32Arc) :
    a.toArc.overlaps b.toArc = true ↔
      ∃ x : UInt32, a.toArc.contains x.toNat = true ∧ b.toArc.contains x.toNat = true := by
  cases a with
  | empty => simp [U32Arc.toArc, overlaps]
  | arc start stop =>
      cases b with
      | empty => simp [U32Arc.toArc, overlaps]
      | arc start' stop' =>
          have hlt : ∀ x : UInt32, x.toNat < ringSize := toNat_lt_ringSize
          unfold U32Arc.toArc
          dsimp only
          rw [overlaps_iff_starts (hlt _) (hlt _) (hlt _) (hlt _),
            ← exists_common_iff (hlt start) (hlt start')]
          constructor
          · rintro ⟨x, hx, hon, hon'⟩
            refine ⟨UInt32.ofNat x, ?_⟩
            have hval : (UInt32.ofNat x).toNat = x := UInt32.toNat_ofNat_of_lt' hx
            rw [hval, contains_iff_onCircleWalk (hlt _) (hlt _) hx,
              contains_iff_onCircleWalk (hlt _) (hlt _) hx]
            exact ⟨hon, hon'⟩
          · rintro ⟨x, hon, hon'⟩
            rw [contains_iff_onCircleWalk (hlt _) (hlt _) (hlt _)] at hon hon'
            exact ⟨x.toNat, hlt x, hon, hon'⟩

/-- `dist` never overflows and is the distance to the nearest location of the arc, on the arc it is
zero, and `overlaps` says whether two arcs share a location, in either order. -/
theorem dist_and_overlaps_spec :
    (∀ start stop loc : UInt32, ∃ d,
      (U32Arc.arc start stop).toArc.distU32 loc.toNat = .ok d ∧
      (∃ x : UInt32, (U32Arc.arc start stop).toArc.contains x.toNat = true ∧
        circleDist (2 ^ 32) loc.toNat x.toNat = d) ∧
      (∀ x : UInt32, (U32Arc.arc start stop).toArc.contains x.toNat = true →
        d ≤ circleDist (2 ^ 32) loc.toNat x.toNat) ∧
      (d = 0 ↔ OnCircleWalk (2 ^ 32) start.toNat stop.toNat loc.toNat)) ∧
    ∀ a b : U32Arc,
      (a.toArc.overlaps b.toArc = true ↔
        ∃ x : UInt32, a.toArc.contains x.toNat = true ∧ b.toArc.contains x.toNat = true) ∧
      a.toArc.overlaps b.toArc = b.toArc.overlaps a.toArc := by
  have hring : (2 : Nat) ^ 32 = ringSize := rfl
  have hlt : ∀ x : UInt32, x.toNat < ringSize := toNat_lt_ringSize
  refine ⟨?_, ?_⟩
  · intro start stop loc
    rw [hring]
    have hwalk : ∀ x : UInt32, (U32Arc.arc start stop).toArc.contains x.toNat = true ↔
        OnCircleWalk ringSize start.toNat stop.toNat x.toNat :=
      fun x => contains_iff_onCircleWalk (hlt start) (hlt stop) (hlt x)
    -- the distance is attained inside the arc and nothing in the arc is nearer
    rcases dist_isNearest (hlt start) (hlt stop) (hlt loc) with ⟨⟨x, hx, hon, hdist⟩, hleast⟩
    refine ⟨_, distU32_eq_dist (Nat.le_of_lt_succ (hlt stop))
      (Nat.le_of_lt_succ (hlt loc)), ⟨UInt32.ofNat x, ?_, ?_⟩, ?_, ?_⟩
    · rw [hwalk, UInt32.toNat_ofNat_of_lt' hx]
      exact hon
    · rw [UInt32.toNat_ofNat_of_lt' hx]
      exact hdist
    · exact fun x hcontains => hleast x.toNat (hlt x) ((hwalk x).mp hcontains)
    · rw [← hwalk loc]
      exact beq_iff_eq.symm
  · intro a b
    refine ⟨overlaps_iff a b, ?_⟩
    rw [Bool.eq_iff_iff, overlaps_iff, overlaps_iff]
    constructor
    · rintro ⟨x, ha, hb⟩
      exact ⟨x, hb, ha⟩
    · rintro ⟨x, hb, ha⟩
      exact ⟨x, ha, hb⟩

end DhtArc

end Api
end Kitsune2
