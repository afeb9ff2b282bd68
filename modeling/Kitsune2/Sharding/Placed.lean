import Kitsune2.Gossip.StorageArc
import Kitsune2.Sharding.WireIntents
import Kitsune2.Sharding.Checks

/-!
# Placed — arcs that lie straight inside their target

A block does not wrap around the ring, and neither does an arc that gossip has made from sectors.  So
the current arc of an agent whose target is a block of its home only grows when gossip updates it.
-/

namespace Kitsune2
namespace Sharding

open Api Lib
open Gossip.StorageArc
open Dht (Aligned Covers sectorsArc covers_sectorsArc_iff ArcSet)

/-! ## Straight arcs -/

/-- An arc of whole sectors that does not wrap around the ring. -/
def Straight (arc : DhtArc) : Prop :=
  arc = .empty ∨ ∃ first last, first ≤ last ∧ last < numSectors ∧ arc = sectorsArc first last

theorem Straight.aligned {arc : DhtArc} (h : Straight arc) : Aligned arc := by
  rcases h with rfl | ⟨first, last, hle, hlast, rfl⟩
  · exact .empty
  · exact .walk (lt_of_le_of_lt hle hlast) hlast

theorem straight_full : Straight .full :=
  Or.inr ⟨0, numSectors - 1, Nat.zero_le _, by decide, Dht.full_eq_sectorsArc⟩

theorem straight_blockArc {home level : Nat} (hhome : home < numSectors) :
    Straight (blockArc home level) := by
  by_cases hlevel : level < maxLevel
  · have hstop : (block home level).2 ≤ numSectors := block_le_numSectors hhome
    rw [block_of_lt hlevel] at hstop
    have hpos : 0 < 2 ^ level := Nat.two_pow_pos level
    exact Or.inr ⟨_, _, by omega, by omega, blockArc_eq hhome hlevel⟩
  · have hfull : blockArc home level = DhtArc.full := by
      simp [blockArc, block, sectorsToArc, not_lt.mp hlevel]
    rw [hfull]
    exact straight_full

theorem straight_asArcs {set : ArcSet} {arc : DhtArc} (h : arc ∈ set.asArcs) : Straight arc := by
  rw [ArcSet.mem_asArcs_iff] at h
  split at h
  · rw [h]
    exact straight_full
  · rcases h with ⟨first, last, hmax, rfl⟩
    rcases ArcSet.maximalRun_bounded hmax with ⟨hle, hlast⟩
    exact Or.inr ⟨first, last, hle, hlast, rfl⟩

/-- What does not wrap has no two ends of the ring to split into. -/
theorem Straight.not_splits {arc : DhtArc} (h : Straight arc) (s : Nat → Prop) : ¬ Splits s arc := by
  rintro ⟨a, b, harc, hwraps, _, _, _⟩
  rcases h with rfl | ⟨first, last, hle, _, rfl⟩
  · cases harc
  · unfold sectorsArc at harc
    injection harc with hfirst hlast
    rw [Dht.sectorSize_eq] at hfirst hlast
    omega

theorem coversSector_iff_covers {arc : DhtArc} (h : Aligned arc) {x : Nat} (hx : x < numSectors) :
    coversSector arc x = true ↔ Covers arc x := by
  rw [coversSector_iff_inside h hx]
  constructor
  · intro hin
    exact hin.2 _ (Nat.mul_div_cancel x (by decide))
  · intro hcovers
    refine ⟨hx, fun location hlocation => ?_⟩
    rw [h.contains_iff, hlocation]
    exact hcovers

/-! ## Inside the target -/

/-- The second arc has every sector of the first. -/
def Keeps (arc arc' : DhtArc) : Prop :=
  ∀ x < numSectors, coversSector arc x = true → coversSector arc' x = true

theorem Keeps.refl (arc : DhtArc) : Keeps arc arc :=
  fun _ _ hcovers => hcovers

theorem Keeps.trans {a b c : DhtArc} (h : Keeps a b) (h' : Keeps b c) : Keeps a c :=
  fun x hx hcovers => h' x hx (h x hx hcovers)

theorem keeps_blockArc {home lo hi : Nat} (hhome : home < numSectors) (hle : lo ≤ hi)
    (hhi : hi ≤ maxLevel) : Keeps (blockArc home lo) (blockArc home hi) := by
  intro x _ hcovers
  rw [coversSector_blockArc_iff hhome] at hcovers ⊢
  exact block_mono hhome hle hhi hcovers

/-- A current arc that does not wrap, inside a target that is a block of the home. -/
structure Placed (home : Nat) (arcs : Arcs) : Prop where
  straight : Straight arcs.cur
  target : ∃ level ≤ maxLevel, arcs.tgt = blockArc home level
  inside : Keeps arcs.cur arcs.tgt

/-- The two arcs as gossip sees them. -/
def localAgent (arcs : Arcs) : LocalAgent :=
  { curStorageArc := arcs.cur, tgtStorageArc := arcs.tgt, callbacks := 0 }

theorem Placed.wellPlaced {home : Nat} (hhome : home < numSectors) {arcs : Arcs}
    (h : Placed home arcs) : WellPlaced (localAgent arcs) := by
  rcases h.target with ⟨level, _, htgt⟩
  have htarget : Aligned arcs.tgt := by
    rw [htgt]
    exact (straight_blockArc hhome).aligned
  refine ⟨h.straight.aligned, htarget, ?_⟩
  intro x hx hin
  have hsector := sector_lt hx
  rw [localAgent, h.straight.aligned.contains_iff, ← coversSector_iff_covers h.straight.aligned hsector]
    at hin
  rw [localAgent, htarget.contains_iff, ← coversSector_iff_covers htarget hsector]
  exact h.inside _ hsector hin

/-- What an update of the storage arc leaves: the target as it was, and a current arc that has grown
inside it, with a call of the callback whenever it is another one. -/
structure Updated (home : Nat) (arcs arcs' : Arcs) (callbacks : Nat) : Prop where
  found : ∃ found, arcs' = updateStorageArc found arcs
  placed : Placed home arcs'
  keeps : Keeps arcs.cur arcs'.cur
  once : callbacks ≤ 1
  silent : callbacks = 0 → arcs'.cur = arcs.cur
  settled : arcs.tgt = arcs.cur → callbacks = 0

theorem Placed.updated_self {home : Nat} {arcs : Arcs} (h : Placed home arcs) :
    Updated home arcs arcs 0 := by
  refine ⟨⟨none, ?_⟩, h, Keeps.refl _, Nat.zero_le 1, fun _ => rfl, fun _ => rfl⟩
  unfold updateStorageArc
  split_ifs <;> rfl

theorem Placed.updated {home : Nat} (hhome : home < numSectors) {arcs : Arcs} {new : LocalAgent}
    {common : ArcSet} {theirs : Dht.DhtSnapshot} {mismatched : List Nat} (h : Placed home arcs)
    (hm : mismatchedSectors theirs = some mismatched)
    (hnew : updateAgent true (common.withoutSectorIndices mismatched).asArcs (localAgent arcs) =
      .ok new) :
    Updated home arcs { cur := new.curStorageArc, tgt := new.tgtStorageArc } new.callbacks := by
  have hwell := h.wellPlaced hhome
  rcases updateAgent_spec hwell hm with ⟨_, hrun⟩ | ⟨set, hset, hrun⟩
  · cases Except.ok.inj (hnew.symm.trans hrun)
    exact h.updated_self
  cases hpick : pickArc true set.asArcs (localAgent arcs).curStorageArc with
  | none =>
      rw [hpick] at hrun
      cases Except.ok.inj (hnew.symm.trans hrun)
      exact h.updated_self
  | some arc =>
      by_cases hat : arcs.tgt = arcs.cur
      · -- an agent at its target is not looked at
        have hstay : updateAgent true (common.withoutSectorIndices mismatched).asArcs
            (localAgent arcs) = .ok (localAgent arcs) := if_pos hat
        cases Except.ok.inj (hnew.symm.trans hstay)
        exact h.updated_self
      rw [hpick] at hrun
      cases Except.ok.inj (hnew.symm.trans hrun)
      have harc := pickArc_mem hpick
      have hstraight := straight_asArcs harc
      rcases h.target with ⟨level, hlevel, htgt⟩
      have htarget : Aligned arcs.tgt := by
        rw [htgt]
        exact (straight_blockArc hhome).aligned
      have hkeeps : Keeps arcs.cur arc := by
        intro x hx hcovers
        rw [coversSector_iff_covers h.straight.aligned hx] at hcovers
        rw [coversSector_iff_covers hstraight.aligned hx]
        have hcur : arcs.cur ≠ .empty := by
          intro hempty
          rw [hempty] at hcovers
          exact Dht.not_covers_empty x hcovers
        rcases pickArc_longer hpick hcur with ⟨hspan, hoverlap⟩
        refine covers_of_longer h.straight.aligned ?_ (h.straight.not_splits _) harc hspan hoverlap
          hx hcovers
        intro i hi hin
        exact (hset i).mpr ⟨hi, Or.inr hin, hwell.within _ (sector_start_le hi) hin⟩
      have hinside : Keeps arc arcs.tgt := by
        intro x hx hcovers
        rw [coversSector_iff_covers hstraight.aligned hx] at hcovers
        rw [coversSector_iff_covers htarget hx]
        exact ((hset x).mp ((ArcSet.covers_asArcs_iff hx).mp ⟨arc, harc, hcovers⟩)).2.2
      refine ⟨⟨some arc, ?_⟩, ⟨hstraight, ⟨level, hlevel, htgt⟩, hinside⟩, hkeeps, le_refl 1, ?_, ?_⟩
      · unfold updateStorageArc
        rw [if_neg hat]
        rfl
      · intro hnone
        cases hnone
      · intro hat'
        exact absurd hat' hat

/-! ## One turn -/

section Turn

variable {AgentId : Type} {cfg : Config} {agent : AgentId} {home : Nat} {clock : Int}
  {lag elapsed : Nat} {arcs arcs' : Arcs} {ctl ctl' : AgentControl}
  {new : List (IntentMessage AgentId)} {backed backed' : PendingShrink → Prop}

/-- A turn moves the target to another block of the home that still has the arc inside. -/
theorem Placed.turn (hhome : home < numSectors) (h : Placed home arcs)
    (hfits : Consistent home backed arcs ctl) (hfits' : Consistent home backed' arcs' ctl')
    (hturn : Turn cfg agent clock lag elapsed arcs ctl arcs' ctl' new) : Placed home arcs' := by
  cases hturn with
  | quiet hq =>
      refine ⟨?_, ⟨ctl'.targetLevel, hfits'.target_le, hfits'.tgt⟩, ?_⟩
      · rw [hq.cur]
        exact h.straight
      · have hinside : Keeps arcs.cur (blockArc home ctl.targetLevel) := hfits.tgt ▸ h.inside
        rw [hq.cur, hfits'.tgt]
        exact hinside.trans (keeps_blockArc hhome hq.target hfits'.target_le)
  | announced => exact h
  | kept => exact h
  | refreshed => exact h
  | @proceeded _ _ level _ _ hlevel _ _ =>
      have hle : level ≤ maxLevel := by
        have hmax := hfits.declared_le
        unfold subLevel at hlevel
        split_ifs at hlevel
        cases hlevel
        omega
      rw [hfits.home_eq]
      exact ⟨straight_blockArc hhome, ⟨level, hle, rfl⟩, Keeps.refl _⟩
  | stoodDown => exact h

end Turn

end Sharding
end Kitsune2
