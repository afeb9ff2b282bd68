import Kitsune2.Api.Basic
import Kitsune2.Lib.Loops
import Kitsune2.Lib.XorFold

/-!
# Combine — combining op hashes

`combine_hashes` folds one hash into another with XOR and refuses hashes of different lengths;
`combine_op_hashes` does so for a series of hashes, starting from zeroes.  Whenever they return,
they return the `xorBytes` and the `xorAll` of their arguments, and they always return on hashes of
one length.
-/

namespace Kitsune2
namespace Dht

open Api Lib

/-- `combine_hashes`: the new value of the target. -/
def combineHashes (into other : Bytes) : Except Fault Bytes :=
  if into.isEmpty && !other.isEmpty then .ok other
  else if into.length ≠ other.length then
    .error (.panicked "Refusing to combine hashes of different lengths, this data should have been rejected by the host")
  else .ok (List.zipWith (· ^^^ ·) into other)

/-- `combine_op_hashes`. -/
def combineOpHashes (hashes : List Bytes) : Except Fault Bytes :=
  match hashes with
  | [] => .ok []
  | first :: _ => hashes.foldlM combineHashes (List.replicate first.length 0)

theorem combineHashes_eq {into other out : Bytes} (h : combineHashes into other = .ok out) :
    out = xorBytes into other := by
  unfold combineHashes at h
  split at h
  · rename_i hempty
    have hinto : into = [] := by
      have := (Bool.and_eq_true_iff.mp hempty).1
      simpa using this
    simpa [hinto] using h.symm
  · rename_i hne
    split at h
    · cases h
    · rename_i hlen
      have hlen' : into.length = other.length := by simpa using hlen
      have hout : List.zipWith (· ^^^ ·) into other = out := by simpa using h
      rw [← hout]
      by_cases hinto : into = []
      · have hother : other = [] := by
          rw [← List.length_eq_zero_iff, ← hlen', hinto, List.length_nil]
        simp [hinto, hother]
      · have hother : other ≠ [] := by
          intro hnil
          rw [hnil, List.length_nil] at hlen'
          exact hinto (List.length_eq_zero_iff.mp hlen')
        rw [xorBytes_of_ne hinto hother]

/-- Hashes of one length always combine. -/
theorem combineHashes_ok {into other : Bytes} {n : Nat} (hinto : into = [] ∨ into.length = n)
    (hother : other.length = n) : combineHashes into other = .ok (xorBytes into other) := by
  have hok : ∃ out, combineHashes into other = .ok out := by
    unfold combineHashes
    by_cases hnil : into = []
    · by_cases hnil' : other = []
      · exact ⟨[], by simp [hnil, hnil']⟩
      · exact ⟨other, by simp [hnil, hnil']⟩
    · have hlen : into.length = other.length := by
        rw [hother]
        exact hinto.resolve_left hnil
      have hne : into.isEmpty = false := by simpa using hnil
      exact ⟨List.zipWith (· ^^^ ·) into other, by simp [hne, hlen]⟩
  rcases hok with ⟨out, hout⟩
  rw [hout, combineHashes_eq hout]

theorem foldlM_combineHashes_eq :
    ∀ (hashes : List Bytes) {into out : Bytes},
      hashes.foldlM combineHashes into = .ok out → out = xorBytes into (xorAll hashes) := by
  intro hashes
  induction hashes with
  | nil =>
      intro into out h
      have : into = out := by simpa [pure, Except.pure] using h
      simp [this]
  | cons hash hashes ih =>
      intro into out h
      rw [List.foldlM_cons] at h
      rcases bind_eq_ok_iff.mp h with ⟨mid, hmid, hrest⟩
      rw [ih hrest, combineHashes_eq hmid, xorAll_cons, xorBytes_assoc]

theorem xorBytes_replicate_zero (hash : Bytes) :
    xorBytes (List.replicate hash.length 0) hash = hash := by
  by_cases hnil : hash = []
  · simp [hnil]
  · have hne : List.replicate hash.length (0 : UInt8) ≠ [] := by simpa using hnil
    rw [xorBytes_of_ne hne hnil]
    apply List.ext_getElem
    · simp
    · intro i _ _
      simp

theorem combineOpHashes_eq {hashes : List Bytes} {out : Bytes}
    (h : combineOpHashes hashes = .ok out) : out = xorAll hashes := by
  cases hashes with
  | nil =>
      simpa [combineOpHashes] using h.symm
  | cons first rest =>
      have hfold := foldlM_combineHashes_eq (first :: rest) h
      rw [hfold, xorAll_cons, ← xorBytes_assoc, xorBytes_replicate_zero]

/-- A series of hashes of one length always combines. -/
theorem combineOpHashes_ok {hashes : List Bytes} {n : Nat} (h : ∀ a ∈ hashes, a.length = n) :
    combineOpHashes hashes = .ok (xorAll hashes) := by
  have hok : ∃ out, combineOpHashes hashes = .ok out := by
    cases hashes with
    | nil =>
        exact ⟨[], rfl⟩
    | cons first rest =>
        have hfold := foldlM_ok (I := fun acc : Bytes => acc = [] ∨ acc.length = n)
          (f := combineHashes) (first :: rest) (List.replicate first.length 0)
          (Or.inr (by simp [h first (by simp)]))
          (fun acc a ha hacc =>
            ⟨xorBytes acc a, combineHashes_ok hacc (h a ha), length_xorBytes hacc (Or.inr (h a ha))⟩)
        rcases hfold with ⟨out, hout, _⟩
        exact ⟨out, hout⟩
  rcases hok with ⟨out, hout⟩
  rw [hout, combineOpHashes_eq hout]

end Dht
end Kitsune2
