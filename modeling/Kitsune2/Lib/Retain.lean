import Mathlib.Data.List.AList

/-!
# Retain — keeping part of an association list

`retain` keeps the entries of a finite map that pass a test, as `HashMap::retain` does, and a lookup
in the result is the old lookup, filtered; `retainMut` also changes what it keeps.  The lemmas on
lengths say how many entries a map has after a change.
-/

namespace Kitsune2
namespace Lib

variable {α β : Type} [DecidableEq α]

/-- Keep the entries that pass `keep`. -/
def retain (keep : α → β → Bool) (m : AList fun _ : α => β) : AList fun _ : α => β where
  entries := m.entries.filter fun e => keep e.1 e.2
  nodupKeys := m.nodupKeys.sublist (by simp)

theorem lookup_retain (keep : α → β → Bool) (m : AList fun _ : α => β) (a : α) :
    (retain keep m).lookup a = (m.lookup a).filter (keep a) := by
  ext b
  simp only [Option.mem_def.symm, AList.mem_lookup_iff, Option.mem_filter_iff, retain,
    List.mem_filter]

theorem lookup_retain_eq_some_iff {keep : α → β → Bool} {m : AList fun _ : α => β} {a : α} {b : β} :
    (retain keep m).lookup a = some b ↔ m.lookup a = some b ∧ keep a b = true := by
  rw [lookup_retain, Option.filter_eq_some_iff]

/-- Change the entries to what `f` makes of them, and drop those of which it makes nothing. -/
def retainMut (f : α → β → Option β) (m : AList fun _ : α => β) : AList fun _ : α => β where
  entries := m.entries.filterMap fun e => (f e.1 e.2).map fun b => ⟨e.1, b⟩
  nodupKeys := by
    have hkeys : (m.entries.filterMap fun e => (f e.1 e.2).map fun b =>
        (⟨e.1, b⟩ : Sigma fun _ : α => β)).keys.Sublist m.entries.keys := by
      induction m.entries with
      | nil => exact List.Sublist.slnil
      | cons e entries ih =>
          cases h : f e.1 e.2 with
          | none => simpa [h] using ih.cons e.1
          | some b => simpa [h] using ih.cons_cons e.1
    exact List.Nodup.sublist hkeys m.nodupKeys

theorem lookup_retainMut (f : α → β → Option β) (m : AList fun _ : α => β) (a : α) :
    (retainMut f m).lookup a = (m.lookup a).bind (f a) := by
  ext b
  rw [← Option.mem_def, AList.mem_lookup_iff, retainMut, List.mem_filterMap,
    Option.bind_eq_some_iff]
  constructor
  · rintro ⟨e, hmem, hf⟩
    rcases Option.map_eq_some_iff.mp hf with ⟨b', hb', heq⟩
    cases heq
    exact ⟨e.2, AList.mem_lookup_iff.mpr hmem, hb'⟩
  · rintro ⟨b', hmem, hf⟩
    refine ⟨⟨a, b'⟩, AList.mem_lookup_iff.mp hmem, ?_⟩
    rw [hf, Option.map_some]

/-! ## Lengths -/

omit [DecidableEq α] in
theorem length_retain_le (keep : α → β → Bool) (m : AList fun _ : α => β) :
    (retain keep m).entries.length ≤ m.entries.length :=
  List.length_filter_le _ _

theorem length_erase_le (a : α) (m : AList fun _ : α => β) :
    (m.erase a).entries.length ≤ m.entries.length :=
  (List.kerase_sublist a m.entries).length_le

theorem length_insert_of_mem {a : α} {b : β} {m : AList fun _ : α => β} (h : a ∈ m) :
    (m.insert a b).entries.length = m.entries.length := by
  have hkeys : (m.insert a b).keys.length = m.keys.length := by
    rw [AList.keys_insert, List.length_cons, List.length_erase_of_mem (AList.mem_keys.mp h)]
    have hpos : 0 < m.keys.length := List.length_pos_of_mem (AList.mem_keys.mp h)
    omega
  simpa [AList.keys, List.keys] using hkeys

theorem length_insert_le (a : α) (b : β) (m : AList fun _ : α => β) :
    (m.insert a b).entries.length ≤ m.entries.length + 1 := by
  by_cases h : a ∈ m
  · rw [length_insert_of_mem h]
    exact Nat.le_succ _
  · rw [AList.entries_insert_of_notMem h, List.length_cons]

end Lib
end Kitsune2
