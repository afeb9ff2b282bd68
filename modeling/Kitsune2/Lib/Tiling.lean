import Mathlib.Tactic.Linarith

/-!
# Tiling — intervals cut into consecutive slots

A slot is a start point together with a kind, and `len` gives the length of a kind.  `Tiles len lo
l hi` says that the slots of `l` follow each other without gaps from `lo` to `hi`.  When all lengths
are positive, every point between the ends lies in exactly one slot.
-/

namespace Kitsune2
namespace Lib

variable {κ : Type} {len : κ → Int} {lo hi mid x : Int} {l l' : List (Int × κ)}

/-- The slots of the list follow each other from `lo` to `hi`. -/
def Tiles (len : κ → Int) : Int → List (Int × κ) → Int → Prop
  | lo, [], hi => lo = hi
  | lo, slot :: l, hi => slot.1 = lo ∧ Tiles len (lo + len slot.2) l hi

/-- The point lies in the slot. -/
def InSlot (len : κ → Int) (slot : Int × κ) (x : Int) : Prop :=
  slot.1 ≤ x ∧ x < slot.1 + len slot.2

instance (slot : Int × κ) (x : Int) : Decidable (InSlot len slot x) :=
  inferInstanceAs (Decidable (_ ∧ _))

theorem tiles_append (h : Tiles len lo l mid) (h' : Tiles len mid l' hi) :
    Tiles len lo (l ++ l') hi := by
  induction l generalizing lo with
  | nil =>
      have heq : lo = mid := h
      rw [heq]
      exact h'
  | cons slot l ih =>
      exact ⟨h.1, ih h.2⟩

/-- Splitting off the last slot. -/
theorem tiles_concat_iff {slot : Int × κ} :
    Tiles len lo (l ++ [slot]) hi ↔ Tiles len lo l slot.1 ∧ slot.1 + len slot.2 = hi := by
  induction l generalizing lo with
  | nil =>
      constructor
      · rintro ⟨h, h'⟩
        refine ⟨h.symm, ?_⟩
        rw [h]
        exact h'
      · rintro ⟨h, h'⟩
        have hlo : lo = slot.1 := h
        refine ⟨hlo.symm, ?_⟩
        rw [hlo]
        exact h'
  | cons s l ih =>
      constructor
      · rintro ⟨hs, h⟩
        rcases ih.mp h with ⟨hl, hend⟩
        exact ⟨⟨hs, hl⟩, hend⟩
      · rintro ⟨⟨hs, hl⟩, hend⟩
        exact ⟨hs, ih.mpr ⟨hl, hend⟩⟩

theorem Tiles.le (hpos : ∀ k, 0 < len k) (h : Tiles len lo l hi) : lo ≤ hi := by
  induction l generalizing lo with
  | nil =>
      exact le_of_eq h
  | cons slot l ih =>
      have hrest := ih h.2
      have hlen := hpos slot.2
      linarith

/-- Every slot lies between the ends. -/
theorem Tiles.bounds (hpos : ∀ k, 0 < len k) (h : Tiles len lo l hi) {slot : Int × κ}
    (hmem : slot ∈ l) : lo ≤ slot.1 ∧ slot.1 + len slot.2 ≤ hi := by
  induction l generalizing lo with
  | nil =>
      cases hmem
  | cons s l ih =>
      rcases List.mem_cons.mp hmem with rfl | htail
      · have hrest := Tiles.le hpos h.2
        rw [h.1]
        exact ⟨le_refl lo, hrest⟩
      · rcases ih h.2 htail with ⟨hlow, hhigh⟩
        have hlen := hpos s.2
        exact ⟨by linarith, hhigh⟩

/-- A point outside the ends lies in no slot. -/
theorem Tiles.not_inSlot (hpos : ∀ k, 0 < len k) (h : Tiles len lo l hi) {slot : Int × κ}
    (hmem : slot ∈ l) (hx : x < lo ∨ hi ≤ x) : ¬ InSlot len slot x := by
  rintro ⟨hl, hr⟩
  rcases h.bounds hpos hmem with ⟨hlow, hhigh⟩
  rcases hx with hx | hx
  · linarith
  · linarith

/-- No point lies in two slots. -/
theorem Tiles.eq_of_inSlot (hpos : ∀ k, 0 < len k) (h : Tiles len lo l hi) {slot slot' : Int × κ}
    (hmem : slot ∈ l) (hmem' : slot' ∈ l) (hx : InSlot len slot x) (hx' : InSlot len slot' x) :
    slot = slot' := by
  induction l generalizing lo with
  | nil =>
      cases hmem
  | cons s l ih =>
      -- a slot of the tail begins where the first one ends
      have htail : ∀ {other : Int × κ}, other ∈ l → InSlot len s x → InSlot len other x → False := by
        intro other hother hs ho
        have hlow := (h.2.bounds hpos hother).1
        have hstart := h.1
        have hend := hs.2
        have hbegin := ho.1
        linarith
      rcases List.mem_cons.mp hmem with rfl | hin
      · rcases List.mem_cons.mp hmem' with rfl | hin'
        · rfl
        · exact (htail hin' hx hx').elim
      · rcases List.mem_cons.mp hmem' with rfl | hin'
        · exact (htail hin hx' hx).elim
        · exact ih h.2 hin hin'

/-- A point between the ends lies in a slot, and in only one place of the list. -/
theorem Tiles.existsUnique_inSlot (hpos : ∀ k, 0 < len k) (h : Tiles len lo l hi) (hlo : lo ≤ x)
    (hhi : x < hi) : ∃! i : Nat, ∃ slot, l[i]? = some slot ∧ InSlot len slot x := by
  induction l generalizing lo with
  | nil =>
      have heq : lo = hi := h
      omega
  | cons s l ih =>
      have hstart : s.1 = lo := h.1
      by_cases hx : x < lo + len s.2
      · -- the first slot; the others begin where it ends
        refine ⟨0, ⟨s, rfl, ⟨by omega, by omega⟩⟩, ?_⟩
        rintro i ⟨slot, hslot, hin⟩
        cases i with
        | zero =>
            rfl
        | succ i =>
            have hbegin := (h.2.bounds hpos (List.mem_of_getElem? hslot)).1
            have := hin.1
            omega
      · rcases ih h.2 (not_lt.mp hx) with ⟨i, hi, hunique⟩
        refine ⟨i + 1, hi, ?_⟩
        rintro j ⟨slot, hslot, hin⟩
        cases j with
        | zero =>
            cases hslot
            have := hin.2
            omega
        | succ j =>
            rw [hunique j ⟨slot, hslot, hin⟩]

/-- The starts of consecutive slots increase. -/
theorem Tiles.pairwise_lt (hpos : ∀ k, 0 < len k) (h : Tiles len lo l hi) :
    l.Pairwise fun a b => a.1 < b.1 := by
  induction l generalizing lo with
  | nil =>
      exact List.Pairwise.nil
  | cons s l ih =>
      refine List.Pairwise.cons ?_ (ih h.2)
      intro b hb
      have hbegin := (h.2.bounds hpos hb).1
      have hlen := hpos s.2
      have hstart : s.1 = lo := h.1
      omega

/-- Where the last slot ends, the tiling ends. -/
theorem Tiles.getLast_end (h : Tiles len lo l hi) {slot : Int × κ} (hlast : l.getLast? = some slot) :
    slot.1 + len slot.2 = hi := by
  rcases List.getLast?_eq_some_iff.mp hlast with ⟨front, rfl⟩
  exact (tiles_concat_iff.mp h).2

end Lib
end Kitsune2
