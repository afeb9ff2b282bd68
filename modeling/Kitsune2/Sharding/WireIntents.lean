import Kitsune2.Dht.Arcs
import Kitsune2.Sharding.Intents

/-!
# WireIntents — honest intents survive the wire and the filters

The half that a shrink drops from level `k + 1` and the half that a grow gains at level `k` are the
same range: the one beside the block of level `k` in the block twice its size (`siblingHalf_eq`).
Its bounds on the wire are locations, from which the receiver reads off the same sectors; and the
alignment test of the receiver accepts exactly such a range beside exactly such a block.
-/

namespace Kitsune2
namespace Sharding

open Api
open Dht (Aligned sectorsArc Covers OnWalk)

/-! ## Halves -/

/-- Shrinking drops what growing from the level below would gain. -/
theorem vacateHalf_succ (home level : Nat) : vacateHalf home (level + 1) = siblingHalf home level :=
  rfl

/-- The half beside the block that is number `q` of its size: the next one if `q` is even, the one
before it if `q` is odd. -/
theorem siblingHalf_eq {home level : Nat} (hhome : home < numSectors) (hlevel : level < maxLevel) :
    siblingHalf home level =
      if home / 2 ^ level % 2 = 0 then
        (home / 2 ^ level * 2 ^ level + 2 ^ level, home / 2 ^ level * 2 ^ level + 2 ^ level * 2)
      else (home / 2 ^ level * 2 ^ level - 2 ^ level, home / 2 ^ level * 2 ^ level) := by
  have hpos : 0 < 2 ^ level := Nat.two_pow_pos level
  simp only [siblingHalf, block_succ hhome hlevel, block_of_lt hlevel]
  generalize home / 2 ^ level = q
  generalize 2 ^ level = p at hpos
  rcases Nat.mod_two_eq_zero_or_one q with heven | hodd
  · obtain ⟨m, rfl⟩ : ∃ m, q = m * 2 := ⟨q / 2, by omega⟩
    have hhalf : m * 2 / 2 = m := Nat.mul_div_cancel m (by decide)
    have hstart : m * (p * 2) = m * 2 * p := by ring
    rw [hhalf, if_pos hstart, if_pos heven, hstart]
  · obtain ⟨m, rfl⟩ : ∃ m, q = m * 2 + 1 := ⟨q / 2, by omega⟩
    have hhalf : (m * 2 + 1) / 2 = m := by omega
    have hstart : m * (p * 2) + p = (m * 2 + 1) * p := by ring
    rw [hhalf, if_neg (by omega), if_neg (by omega), ← hstart, Nat.add_sub_cancel]

/-- The half is as long as the block, and the two are neighbours inside the ring. -/
theorem siblingHalf_bounds {home level : Nat} (hhome : home < numSectors)
    (hlevel : level < maxLevel) :
    (siblingHalf home level).2 = (siblingHalf home level).1 + 2 ^ level ∧
      (siblingHalf home level).2 ≤ numSectors ∧ 2 ^ level ≤ numSectors / 2 := by
  have hparent : (block home (level + 1)).2 ≤ numSectors := block_le_numSectors hhome
  have hpos : 0 < 2 ^ level := Nat.two_pow_pos level
  rw [block_succ hhome hlevel] at hparent
  rw [siblingHalf_eq hhome hlevel]
  generalize home / 2 ^ level = q at hparent
  generalize 2 ^ level = p at hpos hparent
  have hsplit := Nat.div_add_mod q 2
  rcases Nat.mod_two_eq_zero_or_one q with heven | hodd
  · obtain ⟨m, rfl⟩ : ∃ m, q = m * 2 := ⟨q / 2, by omega⟩
    have hhalf : m * 2 / 2 = m := Nat.mul_div_cancel m (by decide)
    have hstart : m * (p * 2) = m * 2 * p := by ring
    simp only [hhalf, hstart] at hparent
    rw [if_pos heven]
    refine ⟨by simp only; omega, hparent, by omega⟩
  · obtain ⟨m, rfl⟩ : ∃ m, q = m * 2 + 1 := ⟨q / 2, by omega⟩
    have hhalf : (m * 2 + 1) / 2 = m := by omega
    have hstart : m * (p * 2) + p = (m * 2 + 1) * p := by ring
    simp only [hhalf] at hparent
    rw [if_neg (by omega), ← hstart]
    refine ⟨by simp only; omega, by simp only; omega, by omega⟩

/-! ## The tests of the receiver -/

theorem isPowerOfTwo_iff {len : Nat} (hlen : len ≤ numSectors) :
    isPowerOfTwo len = true ↔ ∃ k, len = 2 ^ k := by
  rw [isPowerOfTwo, List.any_eq_true]
  constructor
  · rintro ⟨k, -, hk⟩
    exact ⟨k, by simpa using hk⟩
  · rintro ⟨k, rfl⟩
    refine ⟨k, List.mem_range.mpr ?_, by simp⟩
    have hlt : 2 ^ k < 2 ^ 32 := lt_of_le_of_lt hlen (by decide)
    exact (Nat.pow_lt_pow_iff_right (by decide)).mp hlt

/-- The sibling test on the bounds of a sector-aligned arc. -/
theorem isSiblingOf_sectorsArc_iff {first last : Nat} {range : SectorRange}
    (hlast : last < numSectors) :
    isSiblingOf (sectorsArc first last) range = true ↔
      range.1 < range.2 ∧ range.2 ≤ numSectors ∧ ∃ k, last + 1 = first + 2 ^ k ∧
        range.2 = range.1 + 2 ^ k ∧ (range.1 = last + 1 ∨ range.2 = first) ∧
        min first range.1 % (2 ^ k * 2) = 0 := by
  have hs : first * sectorSize / sectorSize = first := Nat.mul_div_cancel first (by decide)
  have he : ((last + 1) * sectorSize - 1) / sectorSize + 1 = last + 1 := by
    rw [Dht.sectorSize_eq]
    omega
  -- the guard against a wrapping arc, in sectors
  have hwrap : (last + 1) * sectorSize - 1 < first * sectorSize ↔ last + 1 ≤ first := by
    rw [Dht.sectorSize_eq]
    omega
  unfold isSiblingOf sectorsArc
  simp only [hs, he, hwrap]
  by_cases hguard : last + 1 ≤ first ∨ range.1 ≥ range.2 ∨ range.2 > numSectors
  · rw [if_pos hguard]
    constructor
    · nofun
    · rintro ⟨hlt, hle, k, hlen, -⟩
      have hpos : 0 < 2 ^ k := Nat.two_pow_pos k
      omega
  · rw [if_neg hguard]
    by_cases hlen : range.2 - range.1 ≠ last + 1 - first ∨ isPowerOfTwo (last + 1 - first) = false
    · rw [if_pos hlen]
      constructor
      · nofun
      · rintro ⟨hlt, hle, k, hk, hk', -⟩
        rcases hlen with hlen | hpow
        · omega
        · have hk2 : last + 1 - first = 2 ^ k := by omega
          rw [(isPowerOfTwo_iff (by omega)).mpr ⟨k, hk2⟩] at hpow
          cases hpow
    · rw [if_neg hlen]
      rcases not_or.mp hlen with ⟨hsame, hpow⟩
      rcases (isPowerOfTwo_iff (by omega)).mp (Bool.not_eq_false _ ▸ hpow) with ⟨k, hk⟩
      rw [Bool.and_eq_true_iff, Bool.or_eq_true_iff, beq_iff_eq, beq_iff_eq, beq_iff_eq, hk]
      constructor
      · rintro ⟨hside, hmod⟩
        exact ⟨by omega, by omega, k, by omega, by omega, hside, hmod⟩
      · rintro ⟨-, -, k', hk', -, hside, hmod⟩
        have hpow' : 2 ^ k' = 2 ^ k := by omega
        rw [hpow'] at hmod
        exact ⟨hside, hmod⟩

/-- A block that is not the whole ring, as an aligned arc. -/
theorem blockArc_eq {home level : Nat} (hhome : home < numSectors) (hlevel : level < maxLevel) :
    blockArc home level = sectorsArc (home / 2 ^ level * 2 ^ level)
      (home / 2 ^ level * 2 ^ level + 2 ^ level - 1) := by
  have hpos : 0 < 2 ^ level := Nat.two_pow_pos level
  have hsmall := (siblingHalf_bounds hhome hlevel).2.2
  rw [blockArc, block_of_lt hlevel, sectorsToArc, sectorsArc]
  generalize home / 2 ^ level * 2 ^ level = start
  generalize 2 ^ level = p at hpos hsmall
  have hfull : ¬ (start = 0 ∧ start + p = numSectors) := by
    rw [numSectors_eq] at hsmall ⊢
    omega
  have hend : (start + p - 1) * sectorSize + (sectorSize - 1) =
      (start + p - 1 + 1) * sectorSize - 1 := by
    rw [Dht.sectorSize_eq]
    omega
  rw [if_neg hfull, hend]

theorem aligned_blockArc {home level : Nat} (hhome : home < numSectors)
    (hlevel : level < maxLevel) : Aligned (blockArc home level) := by
  have hstop : (block home level).2 ≤ numSectors := block_le_numSectors hhome
  rw [block_of_lt hlevel] at hstop
  have hpos : 0 < 2 ^ level := Nat.two_pow_pos level
  rw [blockArc_eq hhome hlevel]
  exact .walk (by omega) (by omega)

/-- The sibling test accepts the half beside a block, and nothing else. -/
theorem isSiblingOf_iff {arc : DhtArc} {range : SectorRange} (haligned : Aligned arc) :
    isSiblingOf arc range = true ↔ ∃ home level, home < numSectors ∧ level < maxLevel ∧
      arc = blockArc home level ∧ range = siblingHalf home level := by
  constructor
  · intro h
    cases haligned with
    | empty => cases h
    | @walk first last hfirst hlast =>
        rcases (isSiblingOf_sectorsArc_iff hlast).mp h with
          ⟨hlt, hle, k, hlen, hlen', hside, hmod⟩
        have hpos : 0 < 2 ^ k := Nat.two_pow_pos k
        have hk : k < maxLevel := by
          have htwo : 2 ^ k * 2 ≤ numSectors := by omega
          rw [← Nat.pow_succ, ← two_pow_maxLevel] at htwo
          exact (Nat.pow_le_pow_iff_right (by decide)).mp htwo
        -- The block is the one of its own first sector.
        have hmul : ∃ q, first = q * 2 ^ k ∧
            range = if q % 2 = 0 then (q * 2 ^ k + 2 ^ k, q * 2 ^ k + 2 ^ k * 2)
              else (q * 2 ^ k - 2 ^ k, q * 2 ^ k) := by
          generalize 2 ^ k = p at hlen hlen' hmod hpos
          rcases hside with hright | hleft
          · -- The range follows the arc, which is the even half.
            rw [min_eq_left (by omega)] at hmod
            rcases Nat.dvd_of_mod_eq_zero hmod with ⟨m, rfl⟩
            refine ⟨m * 2, by ring, ?_⟩
            have hstart : p * 2 * m = m * 2 * p := by ring
            rw [if_pos (Nat.mul_mod_left m 2)]
            ext
            · simp only
              omega
            · simp only
              omega
          · -- The range comes before the arc, which is the odd half.
            rw [min_eq_right (by omega)] at hmod
            rcases Nat.dvd_of_mod_eq_zero hmod with ⟨m, hm⟩
            have hstart : p * 2 * m + p = (m * 2 + 1) * p := by ring
            refine ⟨m * 2 + 1, by omega, ?_⟩
            rw [if_neg (by omega)]
            ext
            · simp only
              omega
            · simp only
              omega
        rcases hmul with ⟨q, rfl, hrange⟩
        have hq : q * 2 ^ k / 2 ^ k = q := Nat.mul_div_cancel q hpos
        refine ⟨q * 2 ^ k, k, hfirst, hk, ?_, ?_⟩
        · rw [blockArc_eq hfirst hk, hq]
          congr 1
          omega
        · rw [siblingHalf_eq hfirst hk, hq, hrange]
  · rintro ⟨home, level, hhome, hlevel, rfl, rfl⟩
    have hpos : 0 < 2 ^ level := Nat.two_pow_pos level
    rcases siblingHalf_bounds hhome hlevel with ⟨hlen, hle, -⟩
    have hblock : home / 2 ^ level * 2 ^ level + 2 ^ level ≤ numSectors := by
      have h : (block home level).2 ≤ numSectors := block_le_numSectors hhome
      rw [block_of_lt hlevel] at h
      exact h
    rw [blockArc_eq hhome hlevel, isSiblingOf_sectorsArc_iff (by omega)]
    refine ⟨by omega, hle, level, by omega, hlen, ?_⟩
    rw [siblingHalf_eq hhome hlevel]
    generalize home / 2 ^ level = q
    generalize 2 ^ level = p at hpos
    rcases Nat.mod_two_eq_zero_or_one q with heven | hodd
    · obtain ⟨m, rfl⟩ : ∃ m, q = m * 2 := ⟨q / 2, by omega⟩
      have hstart : m * 2 * p = m * (p * 2) := by ring
      rw [if_pos heven]
      refine ⟨Or.inl (by simp only; omega), ?_⟩
      rw [min_eq_left (by simp only; omega), hstart]
      exact Nat.mul_mod_left m (p * 2)
    · obtain ⟨m, rfl⟩ : ∃ m, q = m * 2 + 1 := ⟨q / 2, by omega⟩
      have hstart : (m * 2 + 1) * p = m * (p * 2) + p := by ring
      rw [if_neg (by omega)]
      refine ⟨Or.inr rfl, ?_⟩
      rw [min_eq_right (by simp only; omega), hstart, Nat.add_sub_cancel]
      exact Nat.mul_mod_left m (p * 2)

/-- A sector of the ring with all its locations in the arc. -/
def SectorInside (arc : DhtArc) (x : Nat) : Prop :=
  x < numSectors ∧ ∀ loc, loc / sectorSize = x → arc.contains loc = true

/-- An aligned arc has both ends of a sector exactly if it has all of it. -/
theorem coversSector_iff_inside {arc : DhtArc} (haligned : Aligned arc) {x : Nat}
    (hx : x < numSectors) : coversSector arc x = true ↔ SectorInside arc x := by
  have hfirst : x * sectorSize / sectorSize = x := Nat.mul_div_cancel x (by decide)
  have hlast : (x * sectorSize + (sectorSize - 1)) / sectorSize = x := by
    rw [Dht.sectorSize_eq]
    omega
  rw [coversSector, Bool.and_eq_true_iff]
  constructor
  · rintro ⟨h, -⟩
    refine ⟨hx, fun loc hloc => ?_⟩
    rw [haligned.contains_iff, hfirst] at h
    rw [haligned.contains_iff, hloc]
    exact h
  · intro h
    exact ⟨h.2 _ hfirst, h.2 _ hlast⟩

/-- The containment test accepts the ranges of sectors inside the arc that are not empty. -/
theorem arcContainsSectors_iff_inside {arc : DhtArc} {range : SectorRange}
    (haligned : Aligned arc) :
    arcContainsSectors arc range = true ↔
      range.1 < range.2 ∧ ∀ x, InRange range x → SectorInside arc x := by
  by_cases hguard : range.1 < range.2 ∧ range.2 ≤ numSectors
  · rw [arcContainsSectors_iff hguard.1 hguard.2]
    constructor
    · intro h
      refine ⟨hguard.1, fun x hx => ?_⟩
      exact (coversSector_iff_inside haligned (lt_of_lt_of_le hx.2 hguard.2)).mp (h x hx)
    · rintro ⟨-, h⟩ x hx
      exact (coversSector_iff_inside haligned (h x hx).1).mpr (h x hx)
  · have hout : arcContainsSectors arc range = false := by
      rw [arcContainsSectors, if_pos (by omega)]
    rw [hout]
    constructor
    · intro h
      cases h
    · -- The last sector of the range would have to be on the ring.
      rintro ⟨hlt, h⟩
      have hlast := (h (range.2 - 1) ⟨by omega, by omega⟩).1
      exact absurd ⟨hlt, by omega⟩ hguard

/-! ## The wire -/

section Wire

variable {AgentId Url : Type} [DecidableEq AgentId] [DecidableEq Url]

/-- The message that announces a range, as `publish_intent` and `announce_grow` send it. -/
def announcement (agent : AgentId) (range : SectorRange) (expiresAt : Int) (grow : Bool) :
    Option (IntentMessage AgentId) :=
  match sectorsToArc range.1 range.2 with
  | .empty => none
  | .arc start stop =>
      some { agentId := agent, vacateStart := start, vacateEnd := stop, expiresAt := expiresAt
             withdrawn := false, grow := grow }

/-- The intent of the agent for the range, as it is filed for the sender. -/
def filedIntent (range : SectorRange) (expiresAt : Int) (sender : Url) : ShrinkIntent Url :=
  { vacate := range, expiresAt := expiresAt, sender := some sender }

/-- A half of the ring at most is read off its bounds as it was sent. -/
theorem receiveInto_announcement {range : SectorRange} (hlt : range.1 < range.2)
    (hle : range.2 ≤ numSectors) (hhalf : range.2 - range.1 ≤ numSectors / 2) {now expiresAt : Int}
    (hfuture : now < expiresAt) (agent : AgentId) (url : Url) (grow : Bool) :
    ∃ msg, announcement agent range expiresAt grow = some msg ∧ msg.grow = grow ∧
      ∀ table : IntentTable AgentId Url,
        receiveInto table now url msg = table.insert agent (filedIntent range expiresAt url) := by
  have hring := numSectors_eq
  have hfull : ¬ (range.1 = 0 ∧ range.2 = numSectors) := by omega
  have hstart : range.1 * sectorSize / sectorSize = range.1 :=
    Nat.mul_div_cancel range.1 (by decide)
  have hstop : ((range.2 - 1) * sectorSize + (sectorSize - 1)) / sectorSize + 1 = range.2 := by
    rw [Dht.sectorSize_eq]
    omega
  have horder : ¬ (range.2 - 1) * sectorSize + (sectorSize - 1) < range.1 * sectorSize := by
    rw [Dht.sectorSize_eq]
    omega
  refine ⟨_, by rw [announcement, sectorsToArc, if_neg hfull], rfl, fun table => ?_⟩
  have hhalf' : ¬ range.2 - range.1 > numSectors / 2 := not_lt.mpr hhalf
  simp only [receiveInto, Bool.false_eq_true, if_false, hstart, hstop]
  rw [if_neg (not_le.mpr hfuture), if_neg horder, if_neg hhalf']
  rfl

theorem mem_live_insert {table : IntentTable AgentId Url} {agent : AgentId}
    {intent : ShrinkIntent Url} {now : Int} (h : now < intent.expiresAt) :
    (agent, intent) ∈ ((table.insert agent intent).live now).1 :=
  IntentTable.mem_live_iff.mpr ⟨intent.sender, table.lookup_insert_self agent intent, h⟩

/-- An entry from the declared URL of another node's agent is kept exactly when its range fits. -/
theorem intentDeclared_iff {fits : DhtArc → SectorRange → Bool} {declared : Declared AgentId Url}
    {ownIds : List AgentId} {agent : AgentId} {arc : DhtArc} {url : Url}
    {intent : ShrinkIntent Url} (hdeclared : declared agent = some (arc, some url))
    (hother : agent ∉ ownIds) (hsender : intent.sender = some url) :
    intentDeclared fits declared ownIds (agent, intent) = true ↔ fits arc intent.vacate = true := by
  have hown : ownIds.contains agent = false := by simpa using hother
  simp only [intentDeclared, hown, Bool.false_eq_true, if_false, hdeclared, hsender,
    Option.isSome_some, BEq.rfl, Bool.true_and]

theorem homeSector_lt {loc : Nat} (hloc : loc ≤ u32Max) : homeSector loc < numSectors := by
  rw [Dht.u32Max_eq] at hloc
  rw [homeSector, Dht.sectorSize_eq, numSectors_eq]
  omega

/-- Either half travels well, under the level from which it is announced. -/
theorem receiveInto_half {home level : Nat} (hhome : home < numSectors) (hlevel : level < maxLevel)
    {now expiresAt : Int} (hfuture : now < expiresAt) (agent : AgentId) (url : Url) (grow : Bool) :
    ∃ msg, announcement agent (siblingHalf home level) expiresAt grow = some msg ∧
      msg.grow = grow ∧ ∀ table : IntentTable AgentId Url, receiveInto table now url msg =
        table.insert agent (filedIntent (siblingHalf home level) expiresAt url) := by
  rcases siblingHalf_bounds hhome hlevel with ⟨hlen, hle, hhalf⟩
  have hpos : 0 < 2 ^ level := Nat.two_pow_pos level
  exact receiveInto_announcement (by omega) hle (by omega) hfuture agent url grow

/-- The dropped half lies inside the arc that is still declared. -/
theorem arcContainsSectors_vacateHalf {home level : Nat} (hhome : home < numSectors)
    (hpos : 1 ≤ level) (hlevel : level ≤ maxLevel) :
    arcContainsSectors (blockArc home level) (vacateHalf home level) = true := by
  obtain ⟨k, rfl⟩ : ∃ k, level = k + 1 := ⟨level - 1, by omega⟩
  rcases siblingHalf_bounds hhome (Nat.lt_of_succ_le hlevel) with ⟨hlen, hle, -⟩
  have htwo : 0 < 2 ^ k := Nat.two_pow_pos k
  have hlt : (vacateHalf home (k + 1)).1 < (vacateHalf home (k + 1)).2 := by
    rw [vacateHalf_succ]
    omega
  rw [arcContainsSectors_iff hlt hle]
  intro x hx
  rw [coversSector_blockArc_iff hhome]
  exact ((mem_vacateHalf_iff hhome hpos hlevel).mp hx).1

/-- Honest announcements are filed as they were meant and pass the filter of their kind; and the
filters keep only what the declared arc allows: the half beside a block below the full ring for a
grow, sectors inside the arc for a shrink. -/
theorem honest_intents_survive :
    (∀ (loc level : Nat) (now expiresAt : Int) (agent : AgentId) (url : Url)
      (declared : Declared AgentId Url) (ownIds : List AgentId)
      (intents growIntents : IntentTable AgentId Url),
      loc ≤ u32Max → 1 ≤ level → level ≤ maxLevel → now < expiresAt →
      declared agent = some (blockArc (homeSector loc) level, some url) → agent ∉ ownIds →
      let intent := filedIntent (vacateHalf (homeSector loc) level) expiresAt url
      ∃ msg, announcement agent (vacateHalf (homeSector loc) level) expiresAt false = some msg ∧
        receiveIntent intents growIntents now url msg =
          (intents.insert agent intent, growIntents) ∧
        ∀ later < expiresAt, (agent, intent) ∈
          retainDeclared ((intents.insert agent intent).live later).1 declared ownIds) ∧
    (∀ (loc level : Nat) (now expiresAt : Int) (agent : AgentId) (url : Url)
      (declared : Declared AgentId Url) (ownIds : List AgentId)
      (intents growIntents : IntentTable AgentId Url),
      loc ≤ u32Max → level < maxLevel → now < expiresAt →
      declared agent = some (blockArc (homeSector loc) level, some url) → agent ∉ ownIds →
      let intent := filedIntent (siblingHalf (homeSector loc) level) expiresAt url
      ∃ msg, announcement agent (siblingHalf (homeSector loc) level) expiresAt true = some msg ∧
        receiveIntent intents growIntents now url msg =
          (intents, growIntents.insert agent intent) ∧
        ∀ later < expiresAt, (agent, intent) ∈
          retainGrowers ((growIntents.insert agent intent).live later).1 declared ownIds) ∧
    ∀ (declared : Declared AgentId Url) (ownIds : List AgentId) (live : LiveIntents AgentId Url)
      (agent : AgentId) (arc : DhtArc) (url : Url) (intent : ShrinkIntent Url),
      declared agent = some (arc, some url) → agent ∉ ownIds → intent.sender = some url →
      Aligned arc → (agent, intent) ∈ live →
      ((agent, intent) ∈ retainGrowers live declared ownIds ↔
        ∃ home level, home < numSectors ∧ level < maxLevel ∧ arc = blockArc home level ∧
          intent.vacate = siblingHalf home level) ∧
      ((agent, intent) ∈ retainDeclared live declared ownIds ↔
        intent.vacate.1 < intent.vacate.2 ∧
          ∀ x, InRange intent.vacate x → SectorInside arc x) := by
  refine ⟨?_, ?_, ?_⟩
  · intro loc level now expiresAt agent url declared ownIds intents growIntents hloc hpos hlevel
      hfuture hdeclared hother
    obtain ⟨k, rfl⟩ : ∃ k, level = k + 1 := ⟨level - 1, by omega⟩
    rcases receiveInto_half (homeSector_lt hloc) (Nat.lt_of_succ_le hlevel) hfuture agent url false
      with ⟨msg, hmsg, hgrow, hfiled⟩
    refine ⟨msg, hmsg, ?_, ?_⟩
    · rw [receiveIntent, if_neg (by simp [hgrow]), hfiled]
      rfl
    · intro later hlater
      refine List.mem_filter.mpr ⟨mem_live_insert hlater, ?_⟩
      rw [intentDeclared_iff hdeclared hother rfl]
      -- the half to vacate lies inside the declared block
      exact arcContainsSectors_vacateHalf (homeSector_lt hloc) hpos hlevel
  · intro loc level now expiresAt agent url declared ownIds intents growIntents hloc hlevel
      hfuture hdeclared hother
    rcases receiveInto_half (homeSector_lt hloc) hlevel hfuture agent url true
      with ⟨msg, hmsg, hgrow, hfiled⟩
    refine ⟨msg, hmsg, ?_, ?_⟩
    · rw [receiveIntent, if_pos hgrow, hfiled]
    · intro later hlater
      refine List.mem_filter.mpr ⟨mem_live_insert hlater, ?_⟩
      rw [intentDeclared_iff hdeclared hother rfl]
      -- and the sibling half right beside it
      exact (isSiblingOf_iff (aligned_blockArc (homeSector_lt hloc) hlevel)).mpr
        ⟨homeSector loc, level, homeSector_lt hloc, hlevel, rfl, rfl⟩
  · intro declared ownIds live agent arc url intent hdeclared hother hsender haligned hlive
    constructor
    · rw [retainGrowers, List.mem_filter, intentDeclared_iff hdeclared hother hsender,
        isSiblingOf_iff haligned]
      exact and_iff_right hlive
    · rw [retainDeclared, List.mem_filter, intentDeclared_iff hdeclared hother hsender,
        arcContainsSectors_iff_inside haligned]
      exact and_iff_right hlive

end Wire

/-- The agent at the top of the ring: it drops the lower half of the full ring, or grows from the
last sector, and its shrink is kept by a full arc. -/
theorem honest_intents_survive_top :
    (∃ msg, announcement (1 : Nat) (vacateHalf (homeSector u32Max) 9) 50 false = some msg ∧
      receiveIntent (∅ : IntentTable Nat Nat) ∅ 10 7 msg =
        (IntentTable.insert ∅ 1 (filedIntent (vacateHalf (homeSector u32Max) 9) 50 7), ∅)) ∧
    (∃ msg, announcement (1 : Nat) (siblingHalf (homeSector u32Max) 0) 50 true = some msg ∧
      receiveIntent (∅ : IntentTable Nat Nat) ∅ 10 7 msg =
        (∅, IntentTable.insert ∅ 1 (filedIntent (siblingHalf (homeSector u32Max) 0) 50 7))) ∧
    ((1, filedIntent (3, 3) 50 7) ∉ retainDeclared [((1 : Nat), filedIntent (3, 3) 50 (7 : Nat))]
      (fun _ => some (.empty, some 7)) []) := by
  have h := @honest_intents_survive Nat Nat _ _
  refine ⟨?_, ?_, ?_⟩
  · rcases h.1 u32Max 9 10 50 1 7 (fun _ => some (blockArc (homeSector u32Max) 9, some 7)) [] ∅ ∅
      (le_refl _) (by decide) (by decide) (by decide) rfl List.not_mem_nil with ⟨msg, hmsg, hrec, -⟩
    exact ⟨msg, hmsg, hrec⟩
  · rcases h.2.1 u32Max 0 10 50 1 7 (fun _ => some (blockArc (homeSector u32Max) 0, some 7)) [] ∅ ∅
      (le_refl _) (by decide) (by decide) rfl List.not_mem_nil with ⟨msg, hmsg, hrec, -⟩
    exact ⟨msg, hmsg, hrec⟩
  · intro hkept
    have hiff := (h.2.2 (fun _ => some (.empty, some 7)) [] [(1, filedIntent (3, 3) 50 7)] 1 .empty 7
      (filedIntent (3, 3) 50 7) rfl List.not_mem_nil rfl .empty (by simp)).2
    exact absurd (hiff.mp hkept).1 (by decide)

end Sharding
end Kitsune2
