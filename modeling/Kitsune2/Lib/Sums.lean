import Mathlib.Algebra.Order.BigOperators.Group.List
import Mathlib.Algebra.Ring.Nat
import Mathlib.Tactic.Common

/-!
# Sums — a measure summed over a list of tasks

A step of a system replaces one task in a list, or takes one out of it.  Then the sum of a measure over
the list changes by what the measure makes of that one.
-/

namespace Kitsune2
namespace Lib

variable {α : Type} {l : List α} {a : α} {i : Nat}

/-- Replacing an element changes a sum by that element. -/
theorem sum_map_set {f : α → Nat} (h : l[i]? = some a) (b : α) :
    ((l.set i b).map f).sum + f a = (l.map f).sum + f b := by
  induction l generalizing i with
  | nil => cases h
  | cons c l ih =>
      cases i with
      | zero =>
          cases h
          simp only [List.set_cons_zero, List.map_cons, List.sum_cons]
          omega
      | succ i =>
          have hrest := ih h
          simp only [List.set_cons_succ, List.map_cons, List.sum_cons]
          omega

/-- Taking an element out lowers a sum by it. -/
theorem sum_map_eraseIdx {f : α → Nat} (h : l[i]? = some a) :
    ((l.eraseIdx i).map f).sum + f a = (l.map f).sum := by
  induction l generalizing i with
  | nil => cases h
  | cons c l ih =>
      cases i with
      | zero =>
          cases h
          simp only [List.eraseIdx_cons_zero, List.map_cons, List.sum_cons]
          omega
      | succ i =>
          have hrest := ih h
          simp only [List.eraseIdx_cons_succ, List.map_cons, List.sum_cons]
          omega

end Lib
end Kitsune2
