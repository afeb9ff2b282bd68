import Mathlib.Data.List.Basic

/-!
# Files — a file as a list that is written at a position

A write overwrites what is at its position, extends the file past its end, and fills a gap before the
position.  A write at the end leaves every slice of the file as it was.
-/

namespace Kitsune2
namespace Lib

variable {α : Type}

/-- What a file holds from an offset on. -/
def slice (file : List α) (offset length : Nat) : List α :=
  (file.drop offset).take length

/-- A write at a position. -/
def overwrite (fill : α) (file : List α) (position : Nat) : List α → List α
  | [] => file
  | bytes =>
      file.take position ++ List.replicate (position - file.length) fill ++ bytes ++
        file.drop (position + bytes.length)

theorem overwrite_length (fill : α) (file bytes : List α) :
    overwrite fill file file.length bytes = file ++ bytes := by
  cases bytes with
  | nil => exact (List.append_nil file).symm
  | cons b bytes =>
      have hdrop : file.drop (file.length + (b :: bytes).length) = [] :=
        List.drop_eq_nil_of_le (Nat.le_add_right _ _)
      simp only [overwrite, hdrop, List.take_length, Nat.sub_self, List.replicate_zero,
        List.append_nil]

theorem length_slice {file : List α} {offset length : Nat} (h : offset + length ≤ file.length) :
    (slice file offset length).length = length := by
  unfold slice
  rw [List.length_take, List.length_drop]
  omega

theorem slice_append {file : List α} {offset length : Nat} (h : offset + length ≤ file.length)
    (tail : List α) : slice (file ++ tail) offset length = slice file offset length := by
  unfold slice
  rw [List.drop_append_of_le_length (by omega), List.take_append_of_le_length]
  rw [List.length_drop]
  omega

/-- The slice that ends where the file ends grows with the file. -/
theorem slice_append_end {file : List α} {offset : Nat} {written : List α}
    (hend : offset + written.length = file.length) (h : slice file offset written.length = written)
    (bytes : List α) :
    slice (file ++ bytes) offset (written ++ bytes).length = written ++ bytes := by
  unfold slice at h ⊢
  rw [List.drop_append_of_le_length (by omega)]
  have hall : file.drop offset = written := by
    rw [← h, List.take_of_length_le]
    rw [List.length_drop]
    omega
  rw [hall, List.take_length]

end Lib
end Kitsune2
