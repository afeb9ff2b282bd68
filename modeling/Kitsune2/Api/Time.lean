import Mathlib.Tactic.Linarith
import Kitsune2.Api.Basic

/-!
# Time — checked arithmetic on timestamps and durations

Timestamps are `i64` microseconds, durations are counted in microseconds here, and slice counts and
second counts are `u64`.  Arithmetic is checked: a result outside the machine type is a panic, as in
a build with overflow checks.  Casts (`as i64`, `as u64`) wrap.

For each operation one lemma says what a returned value is, and one when a value is returned.
-/

namespace Kitsune2
namespace Api

/-! ## Durations -/

def microsPerSec : Nat := 1000000

/-- `Duration::from_secs`. -/
def fromSecs (secs : Nat) : Nat :=
  microsPerSec * secs

/-- `Duration::as_secs`. -/
def asSecs (d : Nat) : Nat :=
  d / microsPerSec

/-- `UNIX_TIMESTAMP`. -/
def unixTimestamp : Int := 0

@[simp] theorem asSecs_fromSecs (secs : Nat) : asSecs (fromSecs secs) = secs := by
  simp [asSecs, fromSecs, microsPerSec]

/-! ## Checked operations -/

/-- `a * b` in `u64`. -/
def mulU64 (a b : Nat) : Except Fault Nat :=
  if a * b ≤ u64Max then .ok (a * b) else .error (.panicked "attempt to multiply with overflow")

/-- `1u64 << k`. -/
def shlU64 (k : Nat) : Except Fault Nat :=
  if k < 64 then .ok (2 ^ k) else .error (.panicked "attempt to shift left with overflow")

/-- `d + e` for durations, whose seconds are a `u64`. -/
def addDurations (d e : Nat) : Except Fault Nat :=
  if asSecs (d + e) ≤ u64Max then .ok (d + e)
  else .error (.panicked "overflow when adding durations")

/-- `x as i64`. -/
def wrapI64 (x : Int) : Int :=
  Int.bmod x (2 ^ 64)

/-- `x as u64`. -/
def wrapU64 (x : Int) : Nat :=
  (x % 2 ^ 64).toNat

/-- `t + d`, with the microseconds of `d` cast to `i64`. -/
def addDuration (t : Int) (d : Nat) : Except Fault Int :=
  let r := t + wrapI64 d
  if -(2 ^ 63) ≤ r ∧ r ≤ i64Max then .ok r
  else .error (.panicked "attempt to add with overflow")

/-- `later - earlier` for timestamps; `err` stands for what the caller makes of `Err(())`. -/
def elapsed (later earlier : Int) (err : Fault) : Except Fault Nat :=
  if later < earlier then .error err
  else if later - earlier > i64Max then .error (.panicked "attempt to subtract with overflow")
  else .ok (later - earlier).toNat

/-! ## What they return -/

theorem mulU64_eq_ok_iff {a b c : Nat} : mulU64 a b = .ok c ↔ c = a * b ∧ a * b ≤ u64Max := by
  unfold mulU64
  split
  · rename_i h
    simp [h, eq_comm]
  · rename_i h
    simp [h]

theorem shlU64_of_lt {k : Nat} (h : k < 64) : shlU64 k = .ok (2 ^ k) := by
  simp [shlU64, h]

/-- A cast to `i64` keeps a value that fits. -/
theorem wrapI64_of_le {x : Nat} (h : (x : Int) ≤ i64Max) : wrapI64 x = x := by
  unfold wrapI64
  simp only [i64Max] at h
  rw [Int.bmod_def]
  omega

theorem addDuration_eq_ok_iff {t r : Int} {d : Nat} :
    addDuration t d = .ok r ↔
      r = t + wrapI64 d ∧ -(2 ^ 63) ≤ t + wrapI64 d ∧ t + wrapI64 d ≤ i64Max := by
  unfold addDuration
  simp only
  split
  · rename_i h
    constructor
    · intro hok
      exact ⟨(Except.ok.inj hok).symm, h⟩
    · rintro ⟨rfl, _⟩
      rfl
  · rename_i h
    constructor
    · intro hc
      cases hc
    · rintro ⟨_, hl, hr⟩
      exact absurd ⟨hl, hr⟩ h

/-- Adding a duration that fits the `i64` to a time of the epoch or later. -/
theorem addDuration_of_le {t : Int} {d : Nat} (ht : 0 ≤ t) (h : t + d ≤ i64Max) :
    addDuration t d = .ok (t + d) := by
  have hd : (d : Int) ≤ i64Max := by omega
  rw [addDuration_eq_ok_iff, wrapI64_of_le hd]
  refine ⟨rfl, ?_, h⟩
  omega

theorem elapsed_eq_ok_iff {later earlier : Int} {err : Fault} {d : Nat} :
    elapsed later earlier err = .ok d ↔
      earlier ≤ later ∧ later - earlier ≤ i64Max ∧ (d : Int) = later - earlier := by
  unfold elapsed
  split
  · rename_i h
    constructor
    · intro hc
      cases hc
    · rintro ⟨hle, _, _⟩
      omega
  · rename_i h
    split
    · rename_i hbig
      constructor
      · intro hc
        cases hc
      · rintro ⟨_, hle, _⟩
        omega
    · rename_i hsmall
      simp only [Except.ok.injEq]
      omega

end Api
end Kitsune2
