import Mathlib.Algebra.Order.BigOperators.Group.List
import Mathlib.Algebra.Ring.Nat
import Mathlib.Tactic.Common

/-!
# Greedy — taking batches in order within a budget

Batches of items are visited in a fixed order.  A batch that fits what is left of the budget is taken
whole, one that does not is skipped, and a visit may stop for good once the budget is used up.
`Picks` leaves open where it stops, so the loops that check the budget before each batch and those
that check it before a group of batches are both instances.

`Selects` keeps the batches themselves, under a limit that may be negative, and `SpendsGreedily` says
what such a choice amounts to: first fit in the given order.
-/

namespace Kitsune2
namespace Lib

variable {ρ ι : Type} {items : ρ → List ι} {weight : ρ → Nat} {budget : Nat}

/-- From the items and the weight taken so far, a visit of the batches ends with `res`. -/
inductive Picks (items : ρ → List ι) (weight : ρ → Nat) (budget : Nat) :
    List ι × Nat → List ρ → List ι × Nat → Prop
  | nil {acc : List ι × Nat} : Picks items weight budget acc [] acc
  | take {out : List ι} {used : Nat} {r : ρ} {l : List ρ} {res : List ι × Nat} :
      used + weight r ≤ budget → Picks items weight budget (out ++ items r, used + weight r) l res →
      Picks items weight budget (out, used) (r :: l) res
  | skip {acc res : List ι × Nat} {r : ρ} {l : List ρ} :
      budget < acc.2 + weight r → Picks items weight budget acc l res →
      Picks items weight budget acc (r :: l) res
  | stop {acc : List ι × Nat} {l : List ρ} : budget ≤ acc.2 → Picks items weight budget acc l acc

variable {acc res : List ι × Nat} {l : List ρ} {r : ρ}

/-- What has been taken stays. -/
theorem Picks.mem_of_mem (h : Picks items weight budget acc l res) {x : ι} (hx : x ∈ acc.1) :
    x ∈ res.1 := by
  induction h with
  | nil =>
      exact hx
  | take _ _ ih =>
      exact ih (List.mem_append_left _ hx)
  | skip _ _ ih =>
      exact ih hx
  | stop _ =>
      exact hx

/-- Whatever is taken comes from a batch that fits the budget by itself. -/
theorem Picks.mem_source (h : Picks items weight budget acc l res) {x : ι} (hx : x ∈ res.1) :
    x ∈ acc.1 ∨ ∃ r ∈ l, weight r ≤ budget ∧ x ∈ items r := by
  induction h with
  | nil =>
      exact Or.inl hx
  | @take out used r l res hfits _ ih =>
      rcases ih hx with hacc | ⟨r', hr', hsource⟩
      · rcases List.mem_append.mp hacc with hold | hnew
        · exact Or.inl hold
        · exact Or.inr ⟨r, by simp, by omega, hnew⟩
      · exact Or.inr ⟨r', by simp [hr'], hsource⟩
  | skip _ _ ih =>
      rcases ih hx with hacc | ⟨r', hr', hsource⟩
      · exact Or.inl hacc
      · exact Or.inr ⟨r', by simp [hr'], hsource⟩
  | stop _ =>
      exact Or.inl hx

/-- A budget that all batches together do not reach takes them all. -/
theorem Picks.mem_of_sum_lt (h : Picks items weight budget acc l res)
    (hsum : acc.2 + (l.map weight).sum < budget) (hr : r ∈ l) {x : ι} (hx : x ∈ items r) :
    x ∈ res.1 := by
  induction h with
  | nil =>
      cases hr
  | @take out used r' l res hfits hrest ih =>
      simp only [List.map_cons, List.sum_cons] at hsum
      rcases List.mem_cons.mp hr with rfl | htail
      · exact hrest.mem_of_mem (List.mem_append_right _ hx)
      · exact ih (by simp only; omega) htail
  | skip hbig _ _ =>
      simp only [List.map_cons, List.sum_cons] at hsum
      omega
  | stop hfull =>
      omega

/-- A first batch that fits is taken. -/
theorem Picks.mem_of_first (h : Picks items weight budget acc (r :: l) res) (hroom : acc.2 < budget)
    (hfits : acc.2 + weight r ≤ budget) {x : ι} (hx : x ∈ items r) : x ∈ res.1 := by
  cases h with
  | take _ hrest =>
      exact hrest.mem_of_mem (List.mem_append_right _ hx)
  | skip hbig _ =>
      omega
  | stop hfull =>
      omega

/-! ## The batches that are chosen -/

/-- From a weight used so far, a visit of the batches chooses some of them: each fits when it is
chosen, and one that has a weight is left only if it does not fit. -/
inductive Selects (weight : ρ → Nat) (limit : Int) : Nat → List ρ → List ρ → Prop
  | nil {used : Nat} : Selects weight limit used [] []
  | take {used : Nat} {r : ρ} {l chosen : List ρ} :
      ((used + weight r : Nat) : Int) ≤ limit → Selects weight limit (used + weight r) l chosen →
      Selects weight limit used (r :: l) (r :: chosen)
  | leave {used : Nat} {r : ρ} {l chosen : List ρ} :
      (0 < weight r → limit < ((used + weight r : Nat) : Int)) → Selects weight limit used l chosen →
      Selects weight limit used (r :: l) chosen

section Selects

variable {limit : Int} {used : Nat} {l' chosen chosen' : List ρ}

theorem Selects.sublist (h : Selects weight limit used l chosen) : chosen.Sublist l := by
  induction h with
  | nil => exact List.Sublist.slnil
  | take _ _ ih => exact ih.cons_cons _
  | leave _ _ ih => exact ih.cons _

/-- Two visits in a row are one visit of all the batches. -/
theorem Selects.append (h : Selects weight limit used l chosen)
    (h' : Selects weight limit (used + (chosen.map weight).sum) l' chosen') :
    Selects weight limit used (l ++ l') (chosen ++ chosen') := by
  induction h with
  | nil =>
      simpa using h'
  | take hfits _ ih =>
      refine .take hfits (ih ?_)
      simpa [Nat.add_assoc] using h'
  | leave hbig _ ih =>
      exact .leave hbig (ih h')

/-- Once the limit is reached, everything may be left. -/
theorem Selects.stop (h : limit ≤ used) (l : List ρ) : Selects weight limit used l [] := by
  induction l with
  | nil => exact .nil
  | cons r l ih => exact .leave (fun hpos => by omega) ih

/-- Batches without weight may be left. -/
theorem Selects.weightless (h : ∀ r ∈ l, weight r = 0) : Selects weight limit used l [] := by
  induction l with
  | nil =>
      exact .nil
  | cons r l ih =>
      refine .leave (fun hpos => ?_) (ih fun r' hr' => h r' (by simp [hr']))
      rw [h r (by simp)] at hpos
      exact absurd hpos (lt_irrefl 0)

theorem Selects.within (h : Selects weight limit used l chosen) :
    ((used + (chosen.map weight).sum : Nat) : Int) ≤ max (used : Int) limit := by
  induction h with
  | nil =>
      simp
  | @take used r l chosen hfits _ ih =>
      rw [List.map_cons, List.sum_cons, ← Nat.add_assoc]
      exact le_trans ih (max_le (le_trans hfits (le_max_right _ _)) (le_max_right _ _))
  | leave _ _ ih =>
      exact ih

/-- A batch that was left did not fit what the chosen batches before it had left over. -/
theorem Selects.left_out {before : ρ → ρ → Prop} [DecidableRel before]
    (h : Selects weight limit used l chosen) (hsorted : l.Pairwise before) {c : ρ} (hc : c ∈ l)
    (hnot : c ∉ chosen) (hpos : 0 < weight c) :
    limit < ((used + ((chosen.filter fun r => decide (before r c)).map weight).sum + weight c : Nat)
      : Int) := by
  induction h with
  | nil =>
      cases hc
  | @take used r l chosen hfits _ ih =>
      rw [List.pairwise_cons] at hsorted
      rw [List.mem_cons, not_or] at hnot
      have htail : c ∈ l := (List.mem_cons.mp hc).resolve_left hnot.1
      have hrest := ih hsorted.2 htail hnot.2
      rw [List.filter_cons_of_pos (by simpa using hsorted.1 c htail), List.map_cons, List.sum_cons,
        ← Nat.add_assoc]
      exact hrest
  | @leave used r l chosen hbig _ ih =>
      rcases List.mem_cons.mp hc with rfl | htail
      · have := hbig hpos
        omega
      · exact ih (List.pairwise_cons.mp hsorted).2 htail hnot

/-- First fit: the chosen batches are in order and within the limit, and a batch with a weight that
is not among them did not fit what those before it had left over. -/
structure SpendsGreedily (before : ρ → ρ → Prop) [DecidableRel before] (weight : ρ → Nat)
    (limit : Int) (offered : ρ → Prop) (chosen : List ρ) : Prop where
  of_offered : ∀ r ∈ chosen, offered r
  ordered : chosen.Pairwise before
  within : (((chosen.map weight).sum : Nat) : Int) ≤ max 0 limit
  left_out : ∀ c, offered c → c ∉ chosen → 0 < weight c →
    limit < ((((chosen.filter fun r => decide (before r c)).map weight).sum + weight c : Nat) : Int)

theorem Selects.spendsGreedily {before : ρ → ρ → Prop} [DecidableRel before]
    (h : Selects weight limit 0 l chosen) (hsorted : l.Pairwise before) :
    SpendsGreedily before weight limit (· ∈ l) chosen where
  of_offered := fun _ hr => h.sublist.subset hr
  ordered := hsorted.sublist h.sublist
  within := by simpa using h.within
  left_out := by
    intro c hc hnot hpos
    simpa using h.left_out hsorted hc hnot hpos

end Selects

/-! ## Disjoint batches -/

/-- Batches that share no item weigh no more than all items together. -/
theorem sum_batches_le {size : ι → Nat} {holds : ρ → ι → Bool} :
    ∀ (batches : List ρ) (all : List ι),
      (batches.Pairwise fun a b => ∀ x, holds a x = true → holds b x = false) →
      (batches.map fun c => ((all.filter (holds c)).map size).sum).sum ≤ (all.map size).sum := by
  intro batches
  induction batches with
  | nil =>
      intro all _
      exact Nat.zero_le _
  | cons c batches ih =>
      intro all hdisj
      rw [List.pairwise_cons] at hdisj
      -- the other batches take nothing from what the first one holds
      have hrest := ih (all.filter fun x => !holds c x) hdisj.2
      have hsame : (batches.map fun c' =>
          (((all.filter fun x => !holds c x).filter (holds c')).map size).sum) =
          batches.map fun c' => ((all.filter (holds c')).map size).sum := by
        apply List.map_congr_left
        intro c' hc'
        rw [List.filter_filter]
        congr 2
        apply List.filter_congr
        intro x _
        cases hx : holds c x with
        | false => simp
        | true => simp [hdisj.1 c' hc' x hx]
      have hsplit : ((all.filter (holds c)).map size).sum +
          ((all.filter fun x => !holds c x).map size).sum = (all.map size).sum := by
        rw [← List.sum_append, ← List.map_append]
        exact ((List.filter_append_perm (holds c) all).map size).sum_eq
      rw [hsame] at hrest
      rw [List.map_cons, List.sum_cons]
      omega

end Lib
end Kitsune2
