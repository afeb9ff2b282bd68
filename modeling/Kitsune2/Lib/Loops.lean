import Mathlib.Data.List.Forall2
import Mathlib.Tactic.Common

/-!
# Loops — invariant rules for loops that may stop early

A loop of an imperative program with early exits is a monadic fold in `Except`.  The rules below
prove that such a loop runs to its end and keeps an invariant, from a statement about one pass of
its body.
-/

namespace Kitsune2
namespace Lib

variable {ε σ α : Type}

/-- A bind succeeds exactly when both parts do. -/
theorem bind_eq_ok_iff {β : Type} {x : Except ε α} {f : α → Except ε β} {b : β} :
    (x >>= f) = .ok b ↔ ∃ a, x = .ok a ∧ f a = .ok b := by
  cases x with
  | error e =>
      constructor
      · intro h
        cases h
      · rintro ⟨a, h, _⟩
        cases h
  | ok a =>
      constructor
      · intro h
        exact ⟨a, rfl, h⟩
      · rintro ⟨a', ha, h⟩
        cases ha
        exact h

/-- A loop whose body always succeeds and keeps `I` succeeds and keeps `I`. -/
theorem foldlM_ok {I : σ → Prop} {f : σ → α → Except ε σ} :
    ∀ (l : List α) (s : σ), I s →
      (∀ s a, a ∈ l → I s → ∃ s', f s a = .ok s' ∧ I s') →
      ∃ s', l.foldlM f s = .ok s' ∧ I s' := by
  intro l
  induction l with
  | nil =>
      intro s hs _
      exact ⟨s, rfl, hs⟩
  | cons a l ih =>
      intro s hs hstep
      rcases hstep s a (by simp) hs with ⟨s', hf, hs'⟩
      rcases ih s' hs' (fun s b hb => hstep s b (by simp [hb])) with ⟨s'', hl, hs''⟩
      refine ⟨s'', ?_, hs''⟩
      rw [List.foldlM_cons]
      exact bind_eq_ok_iff.mpr ⟨s', hf, hl⟩

/-- The rule for a counting loop: the invariant may speak about the loop counter. -/
theorem foldlM_range_ok_of_lt {I : Nat → σ → Prop} {f : σ → Nat → Except ε σ} {s : σ} (h0 : I 0 s)
    (n : Nat) (hstep : ∀ t s, t < n → I t s → ∃ s', f s t = .ok s' ∧ I (t + 1) s') :
    ∃ s', (List.range n).foldlM f s = .ok s' ∧ I n s' := by
  induction n with
  | zero =>
      exact ⟨s, rfl, h0⟩
  | succ n ih =>
      rcases ih (fun t s ht => hstep t s (Nat.lt_succ_of_lt ht)) with ⟨s', hs', hinv⟩
      rcases hstep n s' (Nat.lt_succ_self n) hinv with ⟨s'', hs'', hinv'⟩
      refine ⟨s'', ?_, hinv'⟩
      rw [List.range_succ, List.foldlM_append]
      refine bind_eq_ok_iff.mpr ⟨s', hs', ?_⟩
      rw [List.foldlM_cons]
      exact bind_eq_ok_iff.mpr ⟨s'', hs'', rfl⟩

theorem foldlM_range_ok {I : Nat → σ → Prop} {f : σ → Nat → Except ε σ} {s : σ} (h0 : I 0 s)
    (hstep : ∀ t s, I t s → ∃ s', f s t = .ok s' ∧ I (t + 1) s') :
    ∀ n, ∃ s', (List.range n).foldlM f s = .ok s' ∧ I n s' :=
  fun n => foldlM_range_ok_of_lt h0 n fun t s _ => hstep t s

/-- Two loops with the same passes are the same. -/
theorem foldlM_congr_mem {f g : σ → α → Except ε σ} :
    ∀ (l : List α) (s : σ), (∀ s, ∀ a ∈ l, f s a = g s a) → l.foldlM f s = l.foldlM g s := by
  intro l
  induction l with
  | nil =>
      intro s _
      rfl
  | cons a l ih =>
      intro s h
      rw [List.foldlM_cons, List.foldlM_cons, h s a (by simp)]
      congr 1
      funext s'
      exact ih s' (fun s b hb => h s b (by simp [hb]))

theorem mapM_ok {β : Type} {f : α → Except ε β} {g : α → β} :
    ∀ l : List α, (∀ a ∈ l, f a = .ok (g a)) → l.mapM f = .ok (l.map g) := by
  intro l
  induction l with
  | nil =>
      intro _
      rfl
  | cons a l ih =>
      intro h
      rw [List.mapM_cons]
      refine bind_eq_ok_iff.mpr ⟨g a, h a (by simp), ?_⟩
      exact bind_eq_ok_iff.mpr ⟨l.map g, ih (fun b hb => h b (by simp [hb])), rfl⟩

/-- A mapping loop ends well exactly with the results of its passes. -/
theorem mapM_eq_ok_iff {β : Type} {f : α → Except ε β} :
    ∀ {l : List α} {out : List β}, l.mapM f = .ok out ↔ List.Forall₂ (fun a b => f a = .ok b) l out := by
  intro l
  induction l with
  | nil =>
      intro out
      rw [List.mapM_nil, List.forall₂_nil_left_iff]
      exact ⟨fun h => (Except.ok.inj h).symm, fun h => by rw [h]; rfl⟩
  | cons a l ih =>
      intro out
      rw [List.mapM_cons, bind_eq_ok_iff, List.forall₂_cons_left_iff]
      constructor
      · rintro ⟨b, hb, h⟩
        rcases bind_eq_ok_iff.mp h with ⟨bs, hbs, heq⟩
        exact ⟨b, bs, hb, ih.mp hbs, (Except.ok.inj heq).symm⟩
      · rintro ⟨b, bs, hb, hbs, rfl⟩
        exact ⟨b, hb, bind_eq_ok_iff.mpr ⟨bs, ih.mpr hbs, rfl⟩⟩

/-! ## Results and errors -/

/-- The value, if there is one, satisfies `I`, and the error, if there is one, satisfies `E`. -/
def Meets (I : α → Prop) (E : ε → Prop) (r : Except ε α) : Prop :=
  (∀ a, r = .ok a → I a) ∧ ∀ e, r = .error e → E e

section Meets

variable {β : Type} {I : α → Prop} {J : β → Prop} {E : ε → Prop}

theorem Meets.ok {a : α} (h : I a) : Meets I E (.ok a : Except ε α) := by
  refine ⟨?_, nofun⟩
  intro b hb
  cases hb
  exact h

theorem Meets.error {e : ε} (h : E e) : Meets I E (.error e : Except ε α) := by
  refine ⟨nofun, ?_⟩
  intro e' he
  cases he
  exact h

theorem Meets.bind {x : Except ε α} {f : α → Except ε β} (h : Meets I E x)
    (hf : ∀ a, I a → Meets J E (f a)) : Meets J E (x >>= f) := by
  cases x with
  | error e => exact Meets.error (h.2 e rfl)
  | ok a => exact hf a (h.1 a rfl)

/-- A loop of which no pass breaks `I` or fails outside `E` does neither. -/
theorem foldlM_meets {f : σ → α → Except ε σ} {K : σ → Prop} :
    ∀ (l : List α) (s : σ), K s → (∀ s a, a ∈ l → K s → Meets K E (f s a)) →
      Meets K E (l.foldlM f s) := by
  intro l
  induction l with
  | nil =>
      intro s hs _
      exact Meets.ok hs
  | cons a l ih =>
      intro s hs hstep
      rw [List.foldlM_cons]
      refine (hstep s a (by simp) hs).bind ?_
      intro s' hs'
      exact ih s' hs' fun s b hb => hstep s b (by simp [hb])

theorem mapM_meets {f : α → Except ε β} :
    ∀ l : List α, (∀ a ∈ l, Meets (fun _ => True) E (f a)) → Meets (fun _ => True) E (l.mapM f) := by
  intro l
  induction l with
  | nil =>
      intro _
      exact Meets.ok trivial
  | cons a l ih =>
      intro h
      rw [List.mapM_cons]
      refine (h a (by simp)).bind fun _ _ => ?_
      exact (ih fun b hb => h b (by simp [hb])).bind fun _ _ => Meets.ok trivial

end Meets

end Lib
end Kitsune2
