import Mathlib.Data.Nat.Basic
import Mathlib.Tactic.Common

/-!
# Circle — steps, distances and walks around a circle of numbers

The points are the numbers below `n`, and after `n - 1` comes `0` again.  A walk goes from its start
upwards to its stop.  From a point off a walk the nearest point of it is one of its two ends, and two
walks have a point in common exactly when one of them starts on the other.
-/

namespace Kitsune2
namespace Lib

variable {n a b c d x y start stop : Nat}

/-! ## Steps -/

/-- The number of steps upwards from `a` to `b`. -/
def stepsTo (n a b : Nat) : Nat :=
  (b + (n - a)) % n

/-- The way to a point ahead, and the way to one behind, which goes on at `0`. -/
theorem stepsTo_cases (ha : a < n) (hb : b < n) :
    (a ≤ b ∧ stepsTo n a b = b - a) ∨ (b < a ∧ stepsTo n a b = n - a + b) := by
  unfold stepsTo
  by_cases hle : a ≤ b
  · refine Or.inl ⟨hle, ?_⟩
    rw [show b + (n - a) = b - a + n by omega, Nat.add_mod_right, Nat.mod_eq_of_lt (by omega)]
  · refine Or.inr ⟨Nat.lt_of_not_le hle, ?_⟩
    rw [Nat.mod_eq_of_lt (by omega), Nat.add_comm]

theorem stepsTo_self (ha : a < n) : stepsTo n a a = 0 := by
  have haa := stepsTo_cases ha ha
  omega

theorem stepsTo_eq_zero_iff (ha : a < n) (hb : b < n) : stepsTo n a b = 0 ↔ a = b := by
  have hab := stepsTo_cases ha hb
  omega

/-- A way that does not go around may be taken over any point on it. -/
theorem stepsTo_add (ha : a < n) (hb : b < n) (hc : c < n)
    (h : stepsTo n a b ≤ stepsTo n a c) : stepsTo n a c = stepsTo n a b + stepsTo n b c := by
  have hab := stepsTo_cases ha hb
  have hac := stepsTo_cases ha hc
  have hbc := stepsTo_cases hb hc
  omega

/-- The way back is the rest of the circle. -/
theorem stepsTo_add_back (ha : a < n) (hb : b < n) (hne : a ≠ b) :
    stepsTo n a b + stepsTo n b a = n := by
  have hab := stepsTo_cases ha hb
  have hba := stepsTo_cases hb ha
  omega

/-! ## Distances -/

/-- The steps to a point in the direction in which it is nearer. -/
def circleDist (n a b : Nat) : Nat :=
  min (stepsTo n a b) (stepsTo n b a)

theorem circleDist_eq_zero_iff (ha : a < n) (hb : b < n) : circleDist n a b = 0 ↔ a = b := by
  unfold circleDist
  rw [Nat.min_eq_zero_iff, stepsTo_eq_zero_iff ha hb, stepsTo_eq_zero_iff hb ha]
  constructor
  · rintro (h | h)
    · exact h
    · exact h.symm
  · exact Or.inl

/-! ## Walks -/

/-- The point is on the walk from `start` to `stop`. -/
def OnCircleWalk (n start stop x : Nat) : Prop :=
  stepsTo n start x ≤ stepsTo n start stop

theorem onCircleWalk_start (hstart : start < n) : OnCircleWalk n start stop start := by
  unfold OnCircleWalk
  rw [stepsTo_self hstart]
  exact Nat.zero_le _

theorem onCircleWalk_stop : OnCircleWalk n start stop stop :=
  le_refl _

/-- A walk that does not pass the end of the numbers. -/
theorem onCircleWalk_of_le (hle : start ≤ stop) (hstop : stop < n) (hx : x < n) :
    OnCircleWalk n start stop x ↔ start ≤ x ∧ x ≤ stop := by
  unfold OnCircleWalk
  have hstart : start < n := Nat.lt_of_le_of_lt hle hstop
  have hfar := stepsTo_cases hstart hstop
  have hnear := stepsTo_cases hstart hx
  omega

/-- A walk that goes on at `0`. -/
theorem onCircleWalk_of_gt (hlt : stop < start) (hstart : start < n) (hx : x < n) :
    OnCircleWalk n start stop x ↔ start ≤ x ∨ x ≤ stop := by
  unfold OnCircleWalk
  have hfar := stepsTo_cases hstart (Nat.lt_trans hlt hstart)
  have hnear := stepsTo_cases hstart hx
  omega

section Nearest

variable (hstart : start < n) (hstop : stop < n) (hx : x < n)

include hstart hstop hx

/-- Off a walk, the way up to its points leads over its start and the way down over its stop. -/
theorem circleDist_of_off_walk (hoff : ¬ OnCircleWalk n start stop x) (hy : y < n)
    (hon : OnCircleWalk n start stop y) :
    min (stepsTo n x start) (stepsTo n stop x) ≤ circleDist n x y := by
  unfold OnCircleWalk at hoff hon
  -- on the way from the start to the stop come first the point of the walk and then `x`
  have hbetween : stepsTo n start x = stepsTo n start stop + stepsTo n stop x :=
    stepsTo_add hstart hstop hx (Nat.le_of_not_le hoff)
  have hwalk : stepsTo n start stop = stepsTo n start y + stepsTo n y stop :=
    stepsTo_add hstart hy hstop hon
  have hyx : stepsTo n start x = stepsTo n start y + stepsTo n y x :=
    stepsTo_add hstart hy hx (by omega)
  have hne : x ≠ y := by
    rintro rfl
    exact hoff hon
  have hneStart : start ≠ x := by
    rintro rfl
    exact hoff (onCircleWalk_start hstart)
  have hback := stepsTo_add_back hx hy hne
  have hbackStart := stepsTo_add_back hstart hx hneStart
  unfold circleDist
  omega

/-- One of the two ends is as near as that. -/
theorem exists_nearest_end (hoff : ¬ OnCircleWalk n start stop x) :
    ∃ y < n, OnCircleWalk n start stop y ∧
      circleDist n x y = min (stepsTo n x start) (stepsTo n stop x) := by
  have hle : ∀ y < n, OnCircleWalk n start stop y →
      min (stepsTo n x start) (stepsTo n stop x) ≤ circleDist n x y :=
    fun y hy hon => circleDist_of_off_walk hstart hstop hx hoff hy hon
  have hstartLe := hle start hstart (onCircleWalk_start hstart)
  have hstopLe := hle stop hstop onCircleWalk_stop
  rcases Nat.le_total (stepsTo n x start) (stepsTo n stop x) with hnear | hnear
  · refine ⟨start, hstart, onCircleWalk_start hstart, ?_⟩
    unfold circleDist at hstartLe ⊢
    omega
  · refine ⟨stop, hstop, onCircleWalk_stop, ?_⟩
    unfold circleDist at hstopLe ⊢
    omega

end Nearest

/-- Two walks with a common point: one of them starts on the other. -/
theorem exists_common_iff (ha : a < n) (hc : c < n) :
    (∃ x < n, OnCircleWalk n a b x ∧ OnCircleWalk n c d x) ↔
      OnCircleWalk n a b c ∨ OnCircleWalk n c d a := by
  constructor
  · rintro ⟨x, hx, hab, hcd⟩
    unfold OnCircleWalk at hab hcd ⊢
    have hax := stepsTo_cases ha hx
    have hcx := stepsTo_cases hc hx
    have hac := stepsTo_cases ha hc
    have hca := stepsTo_cases hc ha
    -- on the way to the common point one of the two walks starts after the other
    omega
  · rintro (hon | hon)
    · exact ⟨c, hc, hon, onCircleWalk_start hc⟩
    · exact ⟨a, ha, onCircleWalk_start ha, hon⟩

end Lib
end Kitsune2
