import Mathlib.Order.Lattice
import Mathlib.Tactic.Common

/-!
# SortedMap — a map as a list of entries in the order of their keys

A search and an insertion stop at the first greater key, so that the laws of the two need no order of the
list.  What lists the entries, `Ascending` makes a map.
-/

namespace Kitsune2
namespace Lib
namespace SortedMap

variable {κ β : Type} [LinearOrder κ]

def find (key : κ) : List (κ × β) → Option β
  | [] => none
  | (k, v) :: rest => if key < k then none else if key = k then some v else find key rest

/-- The value at a key is replaced, or added in its place. -/
def put (key : κ) (value : β) : List (κ × β) → List (κ × β)
  | [] => [(key, value)]
  | (k, v) :: rest =>
      if key < k then (key, value) :: (k, v) :: rest
      else if key = k then (key, value) :: rest
      else (k, v) :: put key value rest

def Ascending (m : List (κ × β)) : Prop :=
  m.Pairwise fun e e' => e.1 < e'.1

variable {key other : κ} {value : β} {m : List (κ × β)}

theorem find_put_self (key : κ) (value : β) (m : List (κ × β)) :
    find key (put key value m) = some value := by
  induction m with
  | nil => simp [put, find]
  | cons e rest ih =>
      rcases e with ⟨k, v⟩
      unfold put
      split
      · simp [find]
      · split
        · simp [find]
        · rename_i hlt hne
          simp [find, hlt, hne, ih]

theorem find_put_ne (h : other ≠ key) (value : β) (m : List (κ × β)) :
    find other (put key value m) = find other m := by
  induction m with
  | nil => simp [put, find, h]
  | cons e rest ih =>
      rcases e with ⟨k, v⟩
      unfold put
      split
      · -- a key before the new one is before the next one too
        rename_i hlt
        by_cases hother : other < key
        · simp [find, hother, hother.trans hlt]
        · simp [find, hother, h]
      · split
        · rename_i heq
          subst heq
          simp [find, h]
        · simp only [find, ih]

/-- What is there already can be put again. -/
theorem put_of_find (h : find key m = some value) : put key value m = m := by
  induction m with
  | nil => cases h
  | cons e rest ih =>
      rcases e with ⟨k, v⟩
      unfold find at h
      unfold put
      split
      · rename_i hlt
        rw [if_pos hlt] at h
        cases h
      · rename_i hlt
        rw [if_neg hlt] at h
        split
        · rename_i heq
          rw [if_pos heq] at h
          cases h
          rw [heq]
        · rename_i hne
          rw [if_neg hne] at h
          rw [ih h]

theorem put_eq_self_iff : put key value m = m ↔ find key m = some value := by
  refine ⟨fun h => ?_, put_of_find⟩
  rw [← h, find_put_self]

theorem mem_put {e : κ × β} (h : e ∈ put key value m) : e = (key, value) ∨ e ∈ m := by
  induction m with
  | nil => exact Or.inl (List.mem_singleton.mp h)
  | cons e' rest ih =>
      rcases e' with ⟨k, v⟩
      unfold put at h
      split at h
      · exact List.mem_cons.mp h
      · split at h
        · exact (List.mem_cons.mp h).imp_right (List.mem_cons_of_mem _)
        · rcases List.mem_cons.mp h with hfirst | hrest
          · exact Or.inr (hfirst ▸ List.mem_cons_self)
          · exact (ih hrest).imp_right (List.mem_cons_of_mem _)

namespace Ascending

theorem put (h : Ascending m) (key : κ) (value : β) : Ascending (put key value m) := by
  induction m with
  | nil => exact List.pairwise_singleton _ _
  | cons e rest ih =>
      rcases e with ⟨k, v⟩
      rcases List.pairwise_cons.mp h with ⟨hfirst, hrest⟩
      unfold SortedMap.put
      split
      · rename_i hlt
        refine List.pairwise_cons.mpr ⟨?_, h⟩
        intro e he
        rcases List.mem_cons.mp he with rfl | he
        · exact hlt
        · exact hlt.trans (hfirst e he)
      · split
        · rename_i heq
          exact List.pairwise_cons.mpr ⟨fun e he => heq ▸ hfirst e he, hrest⟩
        · rename_i hle hne
          refine List.pairwise_cons.mpr ⟨?_, ih hrest⟩
          intro e he
          rcases mem_put he with rfl | he
          · exact lt_of_le_of_ne (not_lt.mp hle) (Ne.symm hne)
          · exact hfirst e he

theorem mem_iff (h : Ascending m) : (key, value) ∈ m ↔ find key m = some value := by
  induction m with
  | nil => exact ⟨fun hmem => (List.not_mem_nil hmem).elim, fun hfind => by cases hfind⟩
  | cons e rest ih =>
      rcases e with ⟨k, v⟩
      rcases List.pairwise_cons.mp h with ⟨hfirst, hrest⟩
      unfold find
      rw [List.mem_cons]
      -- the search stops at the first key above the one looked for
      split
      · rename_i hlt
        refine ⟨fun hmem => ?_, fun hfind => by cases hfind⟩
        rcases hmem with heq | hmem
        · cases heq
          exact absurd hlt (lt_irrefl _)
        · exact absurd (hlt.trans (hfirst _ hmem)) (lt_irrefl _)
      · split
        · rename_i heq
          subst heq
          constructor
          · rintro (heq | hmem)
            · cases heq
              rfl
            · exact absurd (hfirst _ hmem) (lt_irrefl _)
          · intro hfind
            cases hfind
            exact Or.inl rfl
        · rename_i hne
          rw [← ih hrest]
          refine ⟨fun hmem => hmem.resolve_left ?_, Or.inr⟩
          intro heq
          cases heq
          exact hne rfl

end Ascending

end SortedMap
end Lib
end Kitsune2
