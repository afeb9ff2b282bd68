import Mathlib.Data.Nat.Basic
import Mathlib.Tactic.Common

/-!
# MaximalRun — the longest stretches of consecutive numbers in a set

A run of a set of numbers is maximal if neither neighbour of it is in the set.  A stretch of the set
that meets a maximal run lies inside it, and in a bounded set every stretch lies inside some maximal
run.
-/

namespace Kitsune2
namespace Lib

variable {s : Nat → Prop} {first last a b n : Nat}

/-- All numbers from `a` to `b` are in the set. -/
def Stretch (s : Nat → Prop) (a b : Nat) : Prop :=
  ∀ i, a ≤ i → i ≤ b → s i

structure MaximalRun (s : Nat → Prop) (first last : Nat) : Prop where
  le : first ≤ last
  stretch : Stretch s first last
  left : ∀ i, i + 1 = first → ¬ s i
  right : ¬ s (last + 1)

theorem MaximalRun.first_mem (h : MaximalRun s first last) : s first :=
  h.stretch first (le_refl first) h.le

theorem MaximalRun.last_mem (h : MaximalRun s first last) : s last :=
  h.stretch last h.le (le_refl last)

/-- A stretch that meets a maximal run lies inside it. -/
theorem MaximalRun.contains_stretch (h : MaximalRun s first last) (hab : Stretch s a b) {k : Nat}
    (hin : a ≤ k ∧ k ≤ b) (hmeet : first ≤ k ∧ k ≤ last) : first ≤ a ∧ b ≤ last := by
  refine ⟨?_, ?_⟩
  · -- else the left neighbour of the run would be in the stretch
    by_contra hlt
    have hpred : first - 1 + 1 = first := by omega
    exact h.left (first - 1) hpred (hab _ (by omega) (by omega))
  · by_contra hlt
    exact h.right (hab _ (by omega) (by omega))

/-- A stretch can be extended to the left as far as it goes. -/
theorem Stretch.exists_left (hab : Stretch s a b) (hle : a ≤ b) :
    ∃ first ≤ a, Stretch s first b ∧ ∀ i, i + 1 = first → ¬ s i := by
  induction a with
  | zero => exact ⟨0, le_refl 0, hab, fun i hi => absurd hi (Nat.succ_ne_zero i)⟩
  | succ a ih =>
      by_cases hmem : s a
      · have hwider : Stretch s a b := by
          intro i hlow hhigh
          rcases Nat.eq_or_lt_of_le hlow with rfl | hlt
          · exact hmem
          · exact hab i hlt hhigh
        rcases ih hwider (by omega) with ⟨first, hfirst, hrest⟩
        exact ⟨first, by omega, hrest⟩
      · refine ⟨a + 1, le_refl _, hab, fun i hi => ?_⟩
        have heq : i = a := Nat.succ.inj hi
        rw [heq]
        exact hmem

/-- In a bounded set it can be extended to the right as far as it goes. -/
theorem Stretch.exists_right (hbound : ∀ i, s i → i < n) (hab : Stretch s a b) (hle : a ≤ b) :
    ∃ last, b ≤ last ∧ Stretch s a last ∧ ¬ s (last + 1) := by
  -- induction on the room that is left up to the bound
  induction hroom : n - b generalizing b with
  | zero =>
      have hlt := hbound b (hab b hle (le_refl b))
      omega
  | succ room ih =>
      by_cases hmem : s (b + 1)
      · have hwider : Stretch s a (b + 1) := by
          intro i hlow hhigh
          rcases Nat.eq_or_lt_of_le hhigh with rfl | hlt
          · exact hmem
          · exact hab i hlow (Nat.le_of_lt_succ hlt)
        rcases ih hwider (by omega) (by omega) with ⟨last, hlast, hrest⟩
        exact ⟨last, by omega, hrest⟩
      · exact ⟨b, le_refl b, hab, hmem⟩

/-- In a bounded set every stretch lies inside a maximal run. -/
theorem Stretch.exists_maximalRun (hbound : ∀ i, s i → i < n) (hab : Stretch s a b) (hle : a ≤ b) :
    ∃ first last, MaximalRun s first last ∧ first ≤ a ∧ b ≤ last := by
  rcases hab.exists_left hle with ⟨first, hfirst, hwide, hleft⟩
  rcases hwide.exists_right hbound (by omega) with ⟨last, hlast, hall, hright⟩
  exact ⟨first, last, ⟨by omega, hall, hleft, hright⟩, hfirst, hlast⟩

end Lib
end Kitsune2
