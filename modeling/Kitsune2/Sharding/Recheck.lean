import Mathlib.Order.Basic
import Kitsune2.Sharding.Intents

/-!
# Recheck — the re-check rules of announced shrinks and grows

The pure decision functions of the controller.  `shrinkRecheck` is the default rule (lower-id
intenders count as gone), `patientRecheck` the patient-lowest rule (every overlapping intender
counts as gone, and the lowest racer waits), `growRecheck` the coordinated-growth rule.

`proceed_covAt` is what later safety proofs use: a `Proceed` leaves, in every sector of the vacated
range, at least the target even after every other live intender over that sector is discounted.
-/

namespace Kitsune2
namespace Sharding

open Api

variable {AgentId Url : Type} [LinearOrder AgentId] [DecidableEq Url]

/-! ## Definitions -/

/-- Outcome of a patient-lowest re-check. -/
inductive Recheck
  | proceed
  | wait
  | standDown
  deriving DecidableEq, Repr

/-- Do half-open sector ranges overlap? -/
def overlaps (a b : SectorRange) : Bool :=
  max a.1 b.1 < min a.2 b.2

/-- Is an intender with a lower id racing us for any sector of `vacate`? -/
def lowerRacer (liveIntents : LiveIntents AgentId Url) (ownId : AgentId) (vacate : SectorRange) :
    Bool :=
  liveIntents.any fun e => decide (e.1 < ownId) && overlaps e.2.vacate vacate

/-- Discount the vacate range of every live intent that `counts`. -/
def discount (counts : AgentId × ShrinkIntent Url → Bool) (cov : Cov)
    (liveIntents : LiveIntents AgentId Url) : Cov :=
  liveIntents.foldl
    (fun eff e => if counts e then subtractSectors eff e.2.vacate.1 e.2.vacate.2 else eff) cov

def shrinkRecheck (cov : Cov) (liveIntents : LiveIntents AgentId Url) (ownId : AgentId)
    (vacate : SectorRange) (targetRedundancy : Nat) : Bool :=
  let eff := discount (fun e => decide (e.1 < ownId)) cov liveIntents
  decide (minOver eff vacate.1 vacate.2 ≥ targetRedundancy)

/-- The intents a patient re-check counts as gone. -/
def racesUs (ownId : AgentId) (vacate : SectorRange) (e : AgentId × ShrinkIntent Url) : Bool :=
  !(decide (e.1 = ownId) || !overlaps e.2.vacate vacate)

def patientRecheck (cov : Cov) (liveIntents : LiveIntents AgentId Url) (ownId : AgentId)
    (vacate : SectorRange) (targetRedundancy : Nat) : Recheck :=
  let eff := discount (racesUs ownId vacate) cov liveIntents
  let higher := liveIntents.any fun e => racesUs ownId vacate e && decide (e.1 > ownId)
  if minOver eff vacate.1 vacate.2 ≥ targetRedundancy then .proceed
  else if higher && !lowerRacer liveIntents ownId vacate then .wait
  else .standDown

/-- Is there room to vacate alongside every lower-id agent racing us? -/
def roomAlongside (cov : Cov) (liveIntents : LiveIntents AgentId Url) (ownId : AgentId)
    (vacate : SectorRange) (targetRedundancy : Nat) : Bool :=
  let eff := discount (fun e => decide (e.1 < ownId) && overlaps e.2.vacate vacate) cov liveIntents
  decide (minOver eff vacate.1 vacate.2 ≥ targetRedundancy)

/-- The coverage a grower judges a range by. -/
def growView (cov : Cov) (liveIntents : LiveIntents AgentId Url) (ownId : AgentId) : Cov :=
  discount (fun e => decide (e.1 ≠ ownId)) cov liveIntents

def isCritical (eff : Cov) (range : SectorRange) : Bool :=
  decide (minOver eff range.1 range.2 ≤ 1)

def growRecheck (cov : Cov) (liveIntents liveGrows : LiveIntents AgentId Url) (ownId : AgentId)
    (range : SectorRange) (targetRedundancy : Nat) : Bool :=
  let eff := liveGrows.foldl
    (fun eff e =>
      if decide (e.1 < ownId) && overlaps e.2.vacate range then
        addSectors eff e.2.vacate.1 e.2.vacate.2
      else eff)
    (growView cov liveIntents ownId)
  decide (minOver eff range.1 range.2 < targetRedundancy)

/-- When an announced intent is re-checked and when it lapses.  Times are `i64` microseconds in the source,
which has the sums as long as the clock and twice the wait are below `2 ^ 62` each. -/
def intentTimes (now : Int) (wait : Nat) : Int × Int :=
  let executeAt := now + wait
  (executeAt, executeAt + wait)

/-- The new expiry of a waiting racer's intent, when a refresh is due; the bound on times is that of
`intentTimes`. -/
def refreshedExpiry (expiresAt nextCheck : Int) (wait : Nat) : Option Int :=
  if expiresAt < nextCheck + wait then some (nextCheck + wait + wait) else none

/-! ## What a `Proceed` guarantees -/

theorem overlaps_of_inRange {a b : SectorRange} {x : Nat} (ha : InRange a x) (hb : InRange b x) :
    overlaps a b = true := by
  simp only [InRange] at ha hb
  simp only [overlaps, decide_eq_true_eq]
  omega

/-- The live intents that a discount subtracts from sector `x`. -/
def discounted (counts : AgentId × ShrinkIntent Url → Bool) (liveIntents : LiveIntents AgentId Url)
    (x : Nat) : LiveIntents AgentId Url :=
  liveIntents.filter fun e => counts e && decide (InRange e.2.vacate x)

omit [LinearOrder AgentId] [DecidableEq Url] in
theorem discount_spec (counts : AgentId × ShrinkIntent Url → Bool) :
    ∀ (liveIntents : LiveIntents AgentId Url) (cov : Cov),
      (discount counts cov liveIntents).length = cov.length ∧
        ∀ x, x < cov.length →
          covAt (discount counts cov liveIntents) x =
            covAt cov x - (discounted counts liveIntents x).length := by
  intro liveIntents
  induction liveIntents with
  | nil =>
      intro cov
      simp [discount, discounted]
  | cons e liveIntents ih =>
      intro cov
      -- one intent is taken off in the sectors of its range
      have hstep : discount counts cov (e :: liveIntents) =
          discount counts (if counts e then subtractSectors cov e.2.vacate.1 e.2.vacate.2 else cov)
            liveIntents := rfl
      rw [hstep]
      by_cases hc : counts e = true
      · rw [if_pos hc]
        obtain ⟨hlen, hcount⟩ := ih (subtractSectors cov e.2.vacate.1 e.2.vacate.2)
        refine ⟨by simpa using hlen, ?_⟩
        intro x hx
        rw [hcount x (by simpa using hx), covAt_subtractSectors hx]
        by_cases hr : InRange e.2.vacate x
        · rw [if_pos hr, discounted, discounted, List.filter_cons_of_pos (by simp [hc, hr]),
            List.length_cons]
          omega
        · rw [if_neg hr, discounted, discounted, List.filter_cons_of_neg (by simp [hr])]
          omega
      · rw [if_neg hc]
        obtain ⟨hlen, hcount⟩ := ih cov
        refine ⟨hlen, ?_⟩
        intro x hx
        rw [hcount x hx, discounted, discounted, List.filter_cons_of_neg (by simp [hc])]

omit [DecidableEq Url] in
/-- A `Proceed` leaves the target in every sector of the vacated range, after every other live
intender over that sector has been counted as gone. -/
theorem proceed_covAt {cov : Cov} {liveIntents : LiveIntents AgentId Url} {ownId : AgentId}
    {vacate : SectorRange} {r : Nat} (hlt : vacate.1 < vacate.2) (hle : vacate.2 ≤ cov.length)
    (h : patientRecheck cov liveIntents ownId vacate r = .proceed) {x : Nat}
    (hx : InRange vacate x) :
    r ≤ covAt cov x -
      (liveIntents.filter fun e => decide (e.1 ≠ ownId) && decide (InRange e.2.vacate x)).length := by
  obtain ⟨hlen, hcount⟩ := discount_spec (racesUs ownId vacate) liveIntents cov
  have hmin : r ≤ minOver (discount (racesUs ownId vacate) cov liveIntents) vacate.1 vacate.2 := by
    by_contra hcon
    simp only [patientRecheck, ge_iff_le, if_neg hcon] at h
    split at h <;> cases h
  have hxlen : x < cov.length := lt_of_lt_of_le hx.2 hle
  have hat := (le_minOver_iff hlt (by omega)).mp hmin x hx
  rw [hcount x hxlen] at hat
  -- over a sector of the range, racing us is the same as covering the sector
  have hsame : discounted (racesUs ownId vacate) liveIntents x =
      liveIntents.filter fun e => decide (e.1 ≠ ownId) && decide (InRange e.2.vacate x) := by
    apply List.filter_congr
    intro e _
    by_cases hr : InRange e.2.vacate x
    · simp [racesUs, overlaps_of_inRange hr hx, hr]
    · simp [hr]
  rw [hsame] at hat
  exact hat

end Sharding
end Kitsune2
