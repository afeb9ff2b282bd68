import Mathlib.Data.List.Nodup
import Mathlib.Data.List.Perm.Subperm
import Mathlib.Order.Lattice
import Mathlib.Tactic.Common

/-!
# Ranks — the lowest members of a list

The rank of an element is the number of members below it.  In a list without repetitions the ranks
are the numbers below the length, each once, so the members of rank below `k` are the `k` lowest.
-/

namespace Kitsune2
namespace Lib

variable {α : Type} [LinearOrder α]

/-- The number of members below `a`. -/
def rank (l : List α) (a : α) : Nat :=
  l.countP fun b => decide (b < a)

theorem rank_le_rank (l : List α) {a b : α} (hab : a ≤ b) : rank l a ≤ rank l b := by
  refine List.countP_mono_left ?_
  intro c _ hc
  exact decide_eq_true (lt_of_lt_of_le (of_decide_eq_true hc) hab)

/-- A member is itself below what lies above it. -/
theorem rank_lt_rank {l : List α} {a b : α} (ha : a ∈ l) (hab : a < b) : rank l a < rank l b := by
  induction l with
  | nil =>
      cases ha
  | cons c l ih =>
      rcases List.mem_cons.mp ha with rfl | ha
      · have hle := rank_le_rank l hab.le
        simp only [rank, List.countP_cons] at hle ⊢
        simp only [lt_irrefl, decide_false, hab, decide_true]
        simp only [Bool.false_eq_true, if_false, if_true]
        omega
      · have hlt := ih ha
        have hc : c < a → c < b := fun h => lt_trans h hab
        simp only [rank, List.countP_cons, decide_eq_true_eq] at hlt ⊢
        by_cases hca : c < a
        · rw [if_pos hca, if_pos (hc hca)]
          omega
        · rw [if_neg hca]
          omega

theorem rank_lt_length {l : List α} {a : α} (ha : a ∈ l) : rank l a < l.length := by
  have hle : rank l a ≤ l.length := List.countP_le_length
  refine Nat.lt_of_le_of_ne hle ?_
  intro heq
  have hall := List.countP_eq_length.mp heq a ha
  exact lt_irrefl a (of_decide_eq_true hall)

/-- The ranks of a list without repetitions. -/
theorem map_rank_perm {l : List α} (h : l.Nodup) :
    (l.map (rank l)).Perm (List.range l.length) := by
  have hnodup : (l.map (rank l)).Nodup := by
    refine List.Nodup.map_on ?_ h
    intro a ha b hb heq
    rcases lt_trichotomy a b with hab | hab | hab
    · exact absurd heq (Nat.ne_of_lt (rank_lt_rank ha hab))
    · exact hab
    · exact absurd heq (Nat.ne_of_gt (rank_lt_rank hb hab))
  have hsub : l.map (rank l) ⊆ List.range l.length := by
    intro r hr
    rcases List.mem_map.mp hr with ⟨a, ha, rfl⟩
    exact List.mem_range.mpr (rank_lt_length ha)
  refine (List.subperm_of_subset hnodup hsub).perm_of_length_le ?_
  simp

theorem countP_lt_range (n k : Nat) : (List.range n).countP (fun r => decide (r < k)) = min n k := by
  induction n with
  | zero =>
      simp
  | succ n ih =>
      rw [List.range_succ, List.countP_append, ih, List.countP_singleton]
      by_cases hn : n < k
      · simp only [hn, decide_true, if_true]
        omega
      · simp only [hn, decide_false, Bool.false_eq_true, if_false]
        omega

/-- As many members have a rank below `k` as there are, up to `k`. -/
theorem countP_rank_lt {l : List α} (h : l.Nodup) (k : Nat) :
    l.countP (fun a => decide (rank l a < k)) = min l.length k := by
  have hmap := (map_rank_perm h).countP_eq fun r => decide (r < k)
  rw [List.countP_map, countP_lt_range] at hmap
  exact hmap

end Lib
end Kitsune2
