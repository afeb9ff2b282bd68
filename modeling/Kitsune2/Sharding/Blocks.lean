import Mathlib.Tactic.Ring
import Kitsune2.Api.Basic

/-!
# Blocks — quantised storage-arc block math

An agent's arc is an aligned power-of-two block of sectors that contains its home sector, and
the controller's only state is the block *level*.  Ranges are half-open `[start, end)` in sector
indices; `sectorsToArc` converts to the inclusive bounds of a `DhtArc` at the edge.

The blocks of one home are nested, and the half dropped by a shrink is exactly the difference of
two of them: `mem_block_iff` and `mem_vacateHalf_iff` say so sector by sector.
-/

namespace Kitsune2
namespace Sharding

open Api

/-! ## Constants -/

/-- `MAX_LEVEL`, the block level of the full ring. -/
def maxLevel : Nat := 9

theorem two_pow_maxLevel : 2 ^ maxLevel = numSectors := by decide

/-! ## Blocks and halves -/

abbrev SectorRange := Nat × Nat

def homeSector (loc : Nat) : Nat :=
  loc / sectorSize

/-- The aligned block of `2^level` sectors containing `home`. -/
def block (home level : Nat) : SectorRange :=
  if level ≥ maxLevel then (0, numSectors)
  else
    let size := 1 <<< level
    let start := (home >>> level) <<< level
    (start, start + size)

/-- The sectors gained by growing one level: the other half of the parent block. -/
def siblingHalf (home level : Nat) : SectorRange :=
  let parent := block home (level + 1)
  let cur := block home level
  if parent.1 = cur.1 then (cur.2, parent.2) else (parent.1, cur.1)

/-- The sectors dropped by shrinking one level: the half of the block without `home`. -/
def vacateHalf (home level : Nat) : SectorRange :=
  let cur := block home level
  let keep := block home (level - 1)
  if cur.1 = keep.1 then (keep.2, cur.2) else (cur.1, keep.1)

/-- A half-open sector range as an arc with inclusive location bounds. -/
def sectorsToArc (start stop : Nat) : DhtArc :=
  if start = 0 ∧ stop = numSectors then DhtArc.full
  else .arc (start * sectorSize) ((stop - 1) * sectorSize + (sectorSize - 1))

def blockArc (home level : Nat) : DhtArc :=
  sectorsToArc (block home level).1 (block home level).2

/-! ## Sectors of a range, sectors of an arc -/

/-- The sector lies in the half-open range. -/
def InRange (range : SectorRange) (x : Nat) : Prop :=
  range.1 ≤ x ∧ x < range.2

instance (range : SectorRange) (x : Nat) : Decidable (InRange range x) :=
  inferInstanceAs (Decidable (_ ∧ _))

/-- A whole sector lies inside the arc: the check of `add_arc` and `arc_contains_sectors`. -/
def coversSector (a : DhtArc) (x : Nat) : Bool :=
  a.contains (x * sectorSize) && a.contains (x * sectorSize + (sectorSize - 1))

theorem coversSector_sectorsToArc_iff {start stop x : Nat} (hlt : start < stop)
    (hle : stop ≤ numSectors) :
    coversSector (sectorsToArc start stop) x = true ↔
      InRange (start, stop) x ∨ (start = 0 ∧ stop = numSectors ∧ x < numSectors) := by
  have hn := numSectors_eq
  unfold coversSector sectorsToArc InRange
  by_cases hfull : start = 0 ∧ stop = numSectors
  · rw [if_pos hfull]
    simp only [DhtArc.full, Bool.and_eq_true,
      DhtArc.contains_arc_iff (Nat.zero_le u32Max)]
    simp only [u32Max, sectorSize]
    omega
  · rw [if_neg hfull]
    have horder : start * sectorSize ≤ (stop - 1) * sectorSize + (sectorSize - 1) := by
      simp only [sectorSize]
      omega
    simp only [Bool.and_eq_true, DhtArc.contains_arc_iff horder]
    simp only [sectorSize]
    omega

theorem coversSector_sectorsToArc {start stop x : Nat} (hlt : start < stop)
    (hle : stop ≤ numSectors) :
    coversSector (sectorsToArc start stop) x = true ↔ InRange (start, stop) x := by
  rw [coversSector_sectorsToArc_iff hlt hle]
  constructor
  · intro h
    rcases h with h | ⟨h0, hs, hx⟩
    · exact h
    · exact ⟨by simp [h0], by simpa [hs] using hx⟩
  · intro h
    exact Or.inl h

@[simp] theorem coversSector_empty (x : Nat) : coversSector .empty x = false := by
  simp [coversSector]

/-! ## The nesting of blocks -/

theorem block_of_lt {home level : Nat} (h : level < maxLevel) :
    block home level = (home / 2 ^ level * 2 ^ level, home / 2 ^ level * 2 ^ level + 2 ^ level) := by
  have hlt : ¬ level ≥ maxLevel := by omega
  simp [block, hlt, Nat.shiftLeft_eq, Nat.shiftRight_eq_div_pow]

/-- Membership in a block is agreement with `home` above the level's bits. -/
theorem mem_block_iff {home level x : Nat} (hhome : home < numSectors) (hlevel : level ≤ maxLevel) :
    InRange (block home level) x ↔ x / 2 ^ level = home / 2 ^ level := by
  rcases Nat.lt_or_ge level maxLevel with hlt | hge
  · rw [block_of_lt hlt]
    unfold InRange
    have hpos : 0 < 2 ^ level := Nat.two_pow_pos level
    rw [Nat.div_eq_iff hpos]
    simp only
    omega
  · have hmax : level = maxLevel := by omega
    subst hmax
    have hpos : 0 < numSectors := by decide
    rw [two_pow_maxLevel, Nat.div_eq_of_lt hhome, Nat.div_eq_zero_iff]
    simp [InRange, block, hpos.ne']

theorem block_lt {home level : Nat} : (block home level).1 < (block home level).2 := by
  unfold block
  split
  · decide
  · simp [Nat.shiftLeft_eq]

theorem block_le_numSectors {home level : Nat} (hhome : home < numSectors) :
    (block home level).2 ≤ numSectors := by
  rcases Nat.lt_or_ge level maxLevel with hlt | hge
  · rw [block_of_lt hlt]
    -- the ring size is a multiple of the block size, and the block starts strictly below it
    have hsplit : numSectors = 2 ^ (maxLevel - level) * 2 ^ level := by
      rw [← Nat.pow_add, ← two_pow_maxLevel]
      congr 1
      omega
    have hdiv : home / 2 ^ level < 2 ^ (maxLevel - level) := by
      rw [Nat.div_lt_iff_lt_mul (Nat.two_pow_pos level), ← hsplit]
      exact hhome
    calc home / 2 ^ level * 2 ^ level + 2 ^ level
        = (home / 2 ^ level + 1) * 2 ^ level := by ring
      _ ≤ 2 ^ (maxLevel - level) * 2 ^ level := Nat.mul_le_mul_right _ hdiv
      _ = numSectors := hsplit.symm
  · simp [block, hge]

theorem coversSector_blockArc_iff {home level x : Nat} (hhome : home < numSectors) :
    coversSector (blockArc home level) x = true ↔ InRange (block home level) x :=
  coversSector_sectorsToArc block_lt (block_le_numSectors hhome)

/-- Blocks of one home grow with the level. -/
theorem block_mono {home lo hi x : Nat} (hhome : home < numSectors) (hle : lo ≤ hi)
    (hhi : hi ≤ maxLevel) (hx : InRange (block home lo) x) : InRange (block home hi) x := by
  rw [mem_block_iff hhome (le_trans hle hhi)] at hx
  rw [mem_block_iff hhome hhi]
  have hpow : 2 ^ hi = 2 ^ lo * 2 ^ (hi - lo) := by
    rw [← Nat.pow_add]
    congr 1
    omega
  rw [hpow, ← Nat.div_div_eq_div_mul, ← Nat.div_div_eq_div_mul, hx]

/-- The parent of a block has twice its size and an aligned start. -/
theorem block_succ {home level : Nat} (hhome : home < numSectors) (hlevel : level < maxLevel) :
    block home (level + 1) =
      (home / 2 ^ level / 2 * (2 ^ level * 2),
        home / 2 ^ level / 2 * (2 ^ level * 2) + 2 ^ level * 2) := by
  have hpow : (2 : Nat) ^ (level + 1) = 2 ^ level * 2 := Nat.pow_succ 2 level
  rcases Nat.lt_or_ge (level + 1) maxLevel with hlt | hge
  · rw [block_of_lt hlt, hpow, Nat.div_div_eq_div_mul]
  · have height : level = 8 := by
      have hmax : maxLevel = 9 := rfl
      omega
    subst height
    have hzero : home / 2 ^ 8 / 2 = 0 := by
      rw [numSectors_eq] at hhome
      omega
    rw [hzero]
    simp [block, maxLevel, numSectors_eq]

/-- The vacated half is the difference of the block and the block one level down. -/
theorem mem_vacateHalf_iff {home level x : Nat} (hhome : home < numSectors) (hpos : 1 ≤ level)
    (hlevel : level ≤ maxLevel) :
    InRange (vacateHalf home level) x ↔
      InRange (block home level) x ∧ ¬ InRange (block home (level - 1)) x := by
  obtain ⟨k, rfl⟩ : ∃ k, level = k + 1 := ⟨level - 1, by omega⟩
  have hk : k < maxLevel := by omega
  -- the kept half starts either where the block starts or one half further on
  have hhalves : (block home (k + 1)).1 = (block home k).1 ∧
        (block home (k + 1)).2 = (block home k).2 + 2 ^ k ∨
      (block home (k + 1)).1 + 2 ^ k = (block home k).1 ∧
        (block home (k + 1)).2 = (block home k).2 := by
    rw [block_succ hhome hk, block_of_lt hk]
    generalize home / 2 ^ k = q
    generalize 2 ^ k = p
    rcases Nat.mod_two_eq_zero_or_one q with heven | hodd
    · left
      have hq : q = q / 2 * 2 := by omega
      generalize q / 2 = m at hq
      subst hq
      constructor
      · simp only
        ring
      · simp only
        ring
    · right
      have hq : q = q / 2 * 2 + 1 := by omega
      generalize q / 2 = m at hq
      subst hq
      constructor
      · simp only
        ring
      · simp only
        ring
  have hkeep : (block home k).1 < (block home k).2 := block_lt
  have hsize : (block home k).2 = (block home k).1 + 2 ^ k := by
    rw [block_of_lt hk]
  have htwo : 0 < 2 ^ k := Nat.two_pow_pos k
  simp only [vacateHalf, Nat.add_sub_cancel]
  unfold InRange
  split
  · rename_i heq
    simp only
    omega
  · rename_i hne
    simp only
    omega

end Sharding
end Kitsune2
