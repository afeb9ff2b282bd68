import Mathlib.Tactic.Common

/-!
# Runs — states reached by a list of events

A system is given by what an event does to a state.  `Along step cond s events` says that in the run
of `events` from `s` every event meets `cond` in the state in which it happens, and an invariant that
such events keep holds at the end.  Every state reached in a run is the end of a prefix of it.

A system of many tasks keeps them in a list; the last lemmas say what starting one task, or one task's
step, does to that list.
-/

namespace Kitsune2
namespace Lib

variable {σ ε : Type}

/-- Every event of the run meets `cond` in the state in which it happens. -/
def Along (step : σ → ε → σ) (cond : σ → ε → Prop) : σ → List ε → Prop
  | _, [] => True
  | s, e :: es => cond s e ∧ Along step cond (step s e) es

variable {step : σ → ε → σ} {cond : σ → ε → Prop}

instance Along.decidable [∀ s e, Decidable (cond s e)] :
    ∀ (s : σ) (es : List ε), Decidable (Along step cond s es)
  | _, [] => .isTrue trivial
  | s, e :: es =>
      haveI := Along.decidable (step s e) es
      inferInstanceAs (Decidable (cond s e ∧ Along step cond (step s e) es))

/-- An invariant kept by every event that meets the condition holds at the end of the run. -/
theorem Along.invariant {I : σ → Prop} {s : σ} {es : List ε} (hrun : Along step cond s es)
    (hs : I s) (hstep : ∀ s e, I s → cond s e → I (step s e)) : I (es.foldl step s) := by
  induction es generalizing s with
  | nil => exact hs
  | cons e es ih => exact ih hrun.2 (hstep s e hs hrun.1)

/-- With an invariant, what the events of a run meet may be strengthened. -/
theorem Along.strengthen {I : σ → Prop} {cond' : σ → ε → Prop} {s : σ} {es : List ε}
    (hrun : Along step cond s es) (hs : I s)
    (hstep : ∀ s, ∀ e ∈ es, I s → cond s e → I (step s e) ∧ cond' s e) :
    I (es.foldl step s) ∧ Along step cond' s es := by
  induction es generalizing s with
  | nil => exact ⟨hs, trivial⟩
  | cons e es ih =>
      rcases hstep s e List.mem_cons_self hs hrun.1 with ⟨hkept, hmet⟩
      have hrest := ih hrun.2 hkept fun s e he => hstep s e (List.mem_cons_of_mem _ he)
      exact ⟨hrest.1, hmet, hrest.2⟩

/-- A measure that every event of the run brings down bounds the length of the run. -/
theorem Along.length_le {f : σ → Nat} {s : σ} {es : List ε} (hrun : Along step cond s es)
    (hless : ∀ s e, cond s e → f (step s e) < f s) : es.length + f (es.foldl step s) ≤ f s := by
  induction es generalizing s with
  | nil => simp
  | cons e es ih =>
      have hrest := ih hrun.2
      have hstep := hless s e hrun.1
      simp only [List.length_cons, List.foldl_cons]
      omega

/-! ## Lists of tasks -/

section Tasks

variable {α : Type} {l : List α} {a b : α} {i : Nat}

/-- An element after one was added is an old one, or the new one at the end. -/
theorem getElem?_concat_cases (h : (l ++ [b])[i]? = some a) :
    l[i]? = some a ∨ (i = l.length ∧ a = b) := by
  rcases Nat.lt_or_ge i l.length with hlt | hge
  · rw [List.getElem?_append_left hlt] at h
    exact Or.inl h
  · rw [List.getElem?_append_right hge] at h
    rcases List.getElem?_eq_some_iff.mp h with ⟨hlt, hval⟩
    rw [List.length_singleton] at hlt
    rw [List.getElem_singleton] at hval
    exact Or.inr ⟨by omega, hval.symm⟩

/-- An element after one was replaced is the new one in its place, or another old one. -/
theorem getElem?_set_cases {j : Nat} (h : (l.set i b)[j]? = some a) :
    (i = j ∧ a = b) ∨ (i ≠ j ∧ l[j]? = some a) := by
  rw [List.getElem?_set] at h
  split at h
  · rename_i hij
    split at h
    · exact Or.inl ⟨hij, (Option.some.inj h).symm⟩
    · cases h
  · rename_i hij
    exact Or.inr ⟨hij, h⟩

/-- What stands beside the replaced element stays. -/
theorem mem_set_of_ne {c : α} (hi : l[i]? = some a) (hc : c ∈ l) (hne : c ≠ a) :
    c ∈ l.set i b := by
  rcases List.mem_iff_getElem?.mp hc with ⟨j, hj⟩
  have hij : i ≠ j := by
    rintro rfl
    rw [hi] at hj
    exact hne (Option.some.inj hj).symm
  refine List.mem_iff_getElem?.mpr ⟨j, ?_⟩
  rw [List.getElem?_set_ne hij, hj]

/-- The new element is in the list. -/
theorem mem_set_self (hi : l[i]? = some a) : b ∈ l.set i b := by
  rcases List.getElem?_eq_some_iff.mp hi with ⟨hlt, _⟩
  exact List.mem_set hlt b

/-- An element with a property stays, or it is the replaced one. -/
theorem exists_mem_set_or {p : α → Prop} (hi : l[i]? = some a) (h : ∃ c ∈ l, p c) :
    (∃ c ∈ l.set i b, p c) ∨ p a := by
  rcases h with ⟨c, hc, hp⟩
  by_cases hca : c = a
  · subst hca
    exact Or.inr hp
  · exact Or.inl ⟨c, mem_set_of_ne hi hc hca, hp⟩

/-- An element with a property after one was replaced is an old one or the new one. -/
theorem exists_of_mem_set {p : α → Prop} (h : ∃ c ∈ l.set i b, p c) : (∃ c ∈ l, p c) ∨ p b := by
  rcases h with ⟨c, hc, hp⟩
  rcases List.mem_or_eq_of_mem_set hc with hold | rfl
  · exact Or.inl ⟨c, hold, hp⟩
  · exact Or.inr hp

/-- Replacing an element changes a count by that element. -/
theorem countP_set_add {p : α → Bool} (h : l[i]? = some a) :
    (l.set i b).countP p + (p a).toNat = l.countP p + (p b).toNat := by
  rcases List.getElem?_eq_some_iff.mp h with ⟨hi, rfl⟩
  have hle : (p l[i]).toNat ≤ l.countP p := by
    cases hp : p l[i] with
    | false => exact Nat.zero_le _
    | true => exact List.countP_pos_iff.mpr ⟨l[i], List.getElem_mem hi, hp⟩
  rw [List.countP_set hi]
  cases hp : p l[i] with
  | false =>
      cases hb : p b with
      | false => simp
      | true => simp
  | true =>
      rw [hp] at hle
      have hle : 1 ≤ l.countP p := hle
      cases hb : p b with
      | false => simp [Nat.sub_add_cancel hle]
      | true => simp [Nat.sub_add_cancel hle]

/-- An element stays when one is taken out, or it is that one. -/
theorem mem_eraseIdx_or (h : a ∈ l) (i : Nat) : a ∈ l.eraseIdx i ∨ l[i]? = some a := by
  rcases List.mem_iff_getElem?.mp h with ⟨j, hj⟩
  by_cases hij : j = i
  · rw [hij] at hj
    exact Or.inr hj
  · exact Or.inl (List.mem_eraseIdx_iff_getElem?.mpr ⟨j, hij, hj⟩)

/-- The list has the element at some place, and the other list something else there. -/
def Replaced (l : List α) (a : α) (new l' : List α) : Prop :=
  ∃ pre post, l = pre ++ a :: post ∧ l' = pre ++ new ++ post

namespace Replaced

variable {new l' : List α}

theorem mem (h : Replaced l a new l') : a ∈ l := by
  rcases h with ⟨pre, post, rfl, rfl⟩
  simp

theorem new_mem (h : Replaced l a new l') (hb : b ∈ new) : b ∈ l' := by
  rcases h with ⟨pre, post, rfl, rfl⟩
  simp [hb]

/-- An element afterwards was there before, or it is new. -/
theorem mem_cases (h : Replaced l a new l') (hb : b ∈ l') : b ∈ l ∨ b ∈ new := by
  rcases h with ⟨pre, post, rfl, rfl⟩
  simp only [List.mem_append, List.mem_cons] at hb ⊢
  tauto

/-- An element stays, or it is the replaced one. -/
theorem kept (h : Replaced l a new l') (hb : b ∈ l) : b ∈ l' ∨ b = a := by
  rcases h with ⟨pre, post, rfl, rfl⟩
  simp only [List.mem_append, List.mem_cons] at hb ⊢
  tauto

end Replaced

end Tasks

end Lib
end Kitsune2
