import Mathlib.Data.Nat.Basic
import Mathlib.Tactic.Common
import Mathlib.Tactic.Ring

/-!
# BigEndian — numbers of a fixed width as bytes

`beBytes w n` writes the last `w` digits of `n` to the base 256, the most significant one first, and
`ofBe` reads such digits.  What is too large for its width comes back without its higher digits.
-/

namespace Kitsune2
namespace Lib

def beBytes : Nat → Nat → List UInt8
  | 0, _ => []
  | width + 1, n => UInt8.ofNat (n / 256 ^ width) :: beBytes width n

/-- One more digit at the end. -/
def shiftIn (n : Nat) (digit : UInt8) : Nat :=
  n * 256 + digit.toNat

def ofBe (digits : List UInt8) : Nat :=
  digits.foldl shiftIn 0

@[simp]
theorem length_beBytes (width n : Nat) : (beBytes width n).length = width := by
  induction width with
  | zero => rfl
  | succ width ih => rw [beBytes, List.length_cons, ih]

theorem foldl_shiftIn_beBytes (width n : Nat) :
    ∀ acc, (beBytes width n).foldl shiftIn acc = acc * 256 ^ width + n % 256 ^ width := by
  induction width with
  | zero =>
      intro acc
      simp [beBytes, Nat.mod_one]
  | succ width ih =>
      intro acc
      have hdigit : (UInt8.ofNat (n / 256 ^ width)).toNat = n / 256 ^ width % 256 := by
        simp
      have hsplit : n % 256 ^ (width + 1) = n % 256 ^ width + 256 ^ width * (n / 256 ^ width % 256) := by
        rw [Nat.pow_succ, Nat.mod_mul]
      calc (beBytes (width + 1) n).foldl shiftIn acc
          = (beBytes width n).foldl shiftIn (acc * 256 + n / 256 ^ width % 256) := by
            rw [beBytes, List.foldl_cons, shiftIn, hdigit]
        _ = (acc * 256 + n / 256 ^ width % 256) * 256 ^ width + n % 256 ^ width := ih _
        _ = acc * 256 ^ (width + 1) + n % 256 ^ (width + 1) := by
            rw [hsplit]
            ring

/-- What was written is read again, up to the width. -/
theorem ofBe_beBytes (width n : Nat) : ofBe (beBytes width n) = n % 256 ^ width := by
  rw [ofBe, foldl_shiftIn_beBytes, Nat.zero_mul, Nat.zero_add]

end Lib
end Kitsune2
