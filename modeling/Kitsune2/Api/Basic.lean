import Mathlib.Algebra.Group.Int.Defs
import Mathlib.Algebra.Group.Nat.Defs
import Mathlib.Data.Nat.Basic
import Mathlib.Tactic.Common

/-!
# Basic — faults, times and storage arcs of the kitsune2 API

The vocabulary every other module speaks:

* `Fault` is the way a call can fail to return: a `K2Error` with its text, or a panic
  (an out-of-bounds index, an arithmetic overflow, a failed `expect`);
* a timestamp is an `Int`, the `i64` count of microseconds since the epoch, and a duration a `Nat`,
  a count of microseconds;
* `DhtArc` is a storage arc with inclusive `u32` bounds that may wrap around the ring.
-/

namespace Kitsune2
namespace Api

/-! ## Faults -/

/-- Why a call returned no value. -/
inductive Fault
  | k2 (message : String)
  | panicked (reason : String)
  deriving DecidableEq, Repr

/-! ## Bytes and machine bounds -/

abbrev Bytes := List UInt8

instance Bytes.lawfulBEq : LawfulBEq Bytes := List.instLawfulBEq

def i64Max : Int := 2 ^ 63 - 1

def u64Max : Nat := 2 ^ 64 - 1

def u32Max : Nat := 2 ^ 32 - 1

/-! ## Sectors -/

/-- `SECTOR_SIZE`, the size of a hash sector. -/
def sectorSize : Nat := 2 ^ 23

/-- The number of sectors in the full ring; the last one ends at `u32::MAX`. -/
def numSectors : Nat := u32Max / sectorSize + 1

theorem numSectors_eq : numSectors = 512 := by decide

/-! ## Storage arcs -/

/-- A storage arc: nothing, or the inclusive walk from `start` to `stop` on the `u32` ring. -/
inductive DhtArc
  | empty
  | arc (start stop : Nat)
  deriving DecidableEq, Repr

namespace DhtArc

/-- The arc that contains every location. -/
def full : DhtArc :=
  .arc 0 u32Max

/-- Minimum distance from a location to the arc in the wrapping `u32` space. -/
def dist : DhtArc → Nat → Nat
  | .empty, _ => u32Max
  | .arc start stop, loc =>
      if start > stop then
        -- the arc wraps around the end of the ring
        if loc ≥ start ∨ loc ≤ stop then 0
        else min (start - loc) (loc - stop)
      else
        if loc ≥ start ∧ loc ≤ stop then 0
        else if loc < start then min (start - loc) (u32Max - stop + loc + 1)
        else min (u32Max - loc + start + 1) (loc - stop)

def contains (a : DhtArc) (loc : Nat) : Bool :=
  a.dist loc == 0

def overlaps : DhtArc → DhtArc → Bool
  | .empty, _ => false
  | _, .empty => false
  | .arc aBeg aEnd, .arc bBeg bEnd =>
      (arc aBeg aEnd).dist bBeg == 0
        || (arc aBeg aEnd).dist bEnd == 0
        || (arc bBeg bEnd).dist aBeg == 0
        || (arc bBeg bEnd).dist aEnd == 0

/-- The distance from the start of an arc to its end; the empty arc has the span of a single location. -/
def arcSpan : DhtArc → Nat
  | .empty => 0
  | .arc start stop => if start > stop then u32Max - start + stop + 1 else stop - start

def isEmpty : DhtArc → Bool
  | .empty => true
  | .arc _ _ => false

@[simp] theorem contains_empty (loc : Nat) : DhtArc.empty.contains loc = false := by
  have h : u32Max ≠ 0 := by decide
  simpa [contains, dist] using h

/-- An arc that does not wrap contains exactly the locations between its bounds. -/
theorem contains_arc_iff {start stop loc : Nat} (h : start ≤ stop) :
    (arc start stop).contains loc = true ↔ start ≤ loc ∧ loc ≤ stop := by
  have hwrap : ¬ start > stop := by omega
  simp only [contains, dist, if_neg hwrap]
  split
  · rename_i hin
    simp [hin.1, hin.2]
  · rename_i hout
    split
    · rename_i hlt
      simp only [beq_iff_eq]
      omega
    · rename_i hge
      simp only [beq_iff_eq]
      omega

/-- An arc that wraps contains the locations from its start on and those up to its stop. -/
theorem contains_wrap_iff {start stop loc : Nat} (h : stop < start) :
    (arc start stop).contains loc = true ↔ start ≤ loc ∨ loc ≤ stop := by
  simp only [contains, dist, gt_iff_lt, if_pos h]
  split
  · rename_i hin
    simp only [beq_self_eq_true, true_iff]
    exact hin
  · rename_i hout
    simp only [beq_iff_eq]
    omega

end DhtArc

end Api
end Kitsune2
