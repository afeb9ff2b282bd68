import Mathlib.Data.List.Perm.Basic
import Mathlib.Tactic.Common

/-!
# XorFold — combining byte strings with XOR

`xorBytes` combines two byte strings position by position, with the empty string as a neutral
element.  It is a commutative monoid operation, so `xorAll`, the combination of a list, does not
depend on the order of the list.
-/

namespace Kitsune2
namespace Lib

/-- XOR of two byte strings; the empty string changes nothing. -/
def xorBytes (a b : List UInt8) : List UInt8 :=
  if a = [] then b
  else if b = [] then a
  else List.zipWith (· ^^^ ·) a b

/-- XOR of a list of byte strings. -/
def xorAll (l : List (List UInt8)) : List UInt8 :=
  l.foldr xorBytes []

@[simp] theorem xorBytes_nil_left (b : List UInt8) : xorBytes [] b = b := by
  simp [xorBytes]

@[simp] theorem xorBytes_nil_right (a : List UInt8) : xorBytes a [] = a := by
  by_cases h : a = [] <;> simp [xorBytes, h]

theorem xorBytes_of_ne {a b : List UInt8} (ha : a ≠ []) (hb : b ≠ []) :
    xorBytes a b = List.zipWith (· ^^^ ·) a b := by
  simp [xorBytes, ha, hb]

theorem xorBytes_comm (a b : List UInt8) : xorBytes a b = xorBytes b a := by
  by_cases ha : a = []
  · simp [ha]
  by_cases hb : b = []
  · simp [hb]
  rw [xorBytes_of_ne ha hb, xorBytes_of_ne hb ha, List.zipWith_comm]
  congr 1
  funext x y
  exact UInt8.xor_comm y x

theorem xorBytes_eq_nil_iff {a b : List UInt8} : xorBytes a b = [] ↔ a = [] ∧ b = [] := by
  by_cases ha : a = []
  · simp [ha]
  by_cases hb : b = []
  · simp [hb]
  simp [xorBytes_of_ne ha hb, ha, hb, List.zipWith_eq_nil_iff]

theorem zipWith_xor_assoc :
    ∀ a b c : List UInt8,
      List.zipWith (· ^^^ ·) (List.zipWith (· ^^^ ·) a b) c =
        List.zipWith (· ^^^ ·) a (List.zipWith (· ^^^ ·) b c) := by
  intro a
  induction a with
  | nil =>
      intro b c
      simp
  | cons x a ih =>
      intro b c
      cases b with
      | nil =>
          simp
      | cons y b =>
          cases c with
          | nil =>
              simp
          | cons z c =>
              simp [ih b c, UInt8.xor_assoc]

theorem xorBytes_assoc (a b c : List UInt8) :
    xorBytes (xorBytes a b) c = xorBytes a (xorBytes b c) := by
  by_cases ha : a = []
  · simp [ha]
  by_cases hb : b = []
  · simp [hb]
  by_cases hc : c = []
  · simp [hc]
  -- none of the strings is empty, so neither is any combination of them
  have hab : xorBytes a b ≠ [] := fun h => ha (xorBytes_eq_nil_iff.mp h).1
  have hbc : xorBytes b c ≠ [] := fun h => hb (xorBytes_eq_nil_iff.mp h).1
  rw [xorBytes_of_ne hab hc, xorBytes_of_ne ha hbc, xorBytes_of_ne ha hb, xorBytes_of_ne hb hc]
  exact zipWith_xor_assoc a b c

theorem xorBytes_left_comm (a b c : List UInt8) :
    xorBytes a (xorBytes b c) = xorBytes b (xorBytes a c) := by
  rw [← xorBytes_assoc, xorBytes_comm a b, xorBytes_assoc]

@[simp] theorem xorAll_nil : xorAll [] = [] := rfl

@[simp] theorem xorAll_cons (a : List UInt8) (l : List (List UInt8)) :
    xorAll (a :: l) = xorBytes a (xorAll l) := rfl

theorem xorAll_append (l l' : List (List UInt8)) :
    xorAll (l ++ l') = xorBytes (xorAll l) (xorAll l') := by
  induction l with
  | nil =>
      simp
  | cons a l ih =>
      simp [ih, xorBytes_assoc]

theorem xorAll_perm {l l' : List (List UInt8)} (h : l.Perm l') : xorAll l = xorAll l' := by
  induction h with
  | nil =>
      rfl
  | cons a _ ih =>
      rw [xorAll_cons, xorAll_cons, ih]
  | swap a b l =>
      simp only [xorAll_cons]
      exact xorBytes_left_comm b a (xorAll l)
  | trans _ _ ih ih' =>
      exact ih.trans ih'

theorem xorAll_eq_nil_iff {l : List (List UInt8)} : xorAll l = [] ↔ ∀ a ∈ l, a = [] := by
  induction l with
  | nil =>
      simp
  | cons a l ih =>
      simp [xorBytes_eq_nil_iff, ih]

/-- Strings of one length combine to a string of that length. -/
theorem length_xorBytes {a b : List UInt8} {n : Nat} (ha : a = [] ∨ a.length = n)
    (hb : b = [] ∨ b.length = n) : xorBytes a b = [] ∨ (xorBytes a b).length = n := by
  by_cases ha' : a = []
  · simpa [ha'] using hb
  by_cases hb' : b = []
  · simpa [hb'] using ha
  right
  rw [xorBytes_of_ne ha' hb', List.length_zipWith]
  have hal : a.length = n := ha.resolve_left ha'
  have hbl : b.length = n := hb.resolve_left hb'
  omega

theorem length_xorAll {l : List (List UInt8)} {n : Nat} (h : ∀ a ∈ l, a.length = n) :
    xorAll l = [] ∨ (xorAll l).length = n := by
  induction l with
  | nil =>
      simp
  | cons a l ih =>
      have htail := ih (fun b hb => h b (List.mem_cons_of_mem a hb))
      exact length_xorBytes (Or.inr (h a (by simp))) htail

end Lib
end Kitsune2
