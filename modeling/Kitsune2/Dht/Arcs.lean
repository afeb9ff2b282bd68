import Mathlib.Data.Finset.Card
import Mathlib.Data.List.Pairwise
import Mathlib.Tactic.Ring
import Kitsune2.Dht.ArcSet
import Kitsune2.Lib.MaximalRun

/-!
# Arcs — arcs that are aligned with the sectors

An aligned arc is empty or walks from the start of one sector to the end of another, around the ring
if the second lies before the first.  An arc set made of aligned arcs has exactly the sectors that
some of them covers, and the arcs of an arc set are its maximal runs of sectors: none of them walks
around the ring, and a set that has the last sector and the first one has two arcs for them.
-/

namespace Kitsune2
namespace Dht

open Api Lib

/-! ## Aligned arcs -/

/-- The arc from the start of sector `first` to the end of sector `last`. -/
def sectorsArc (first last : Nat) : DhtArc :=
  .arc (first * sectorSize) ((last + 1) * sectorSize - 1)

/-- A sector is on the walk from sector `first` to sector `last`. -/
def OnWalk (first last i : Nat) : Prop :=
  if first ≤ last then first ≤ i ∧ i ≤ last else first ≤ i ∨ i ≤ last

/-- The number of sectors on the walk. -/
def walkLength (first last : Nat) : Nat :=
  if first ≤ last then last + 1 - first else numSectors - first + (last + 1)

/-- An arc with whole sectors only. -/
inductive Aligned : DhtArc → Prop
  | empty : Aligned .empty
  | walk {first last : Nat} : first < numSectors → last < numSectors → Aligned (sectorsArc first last)

section Walk

variable {first last : Nat}

theorem sectorSize_eq : sectorSize = 8388608 := rfl

theorem u32Max_eq : u32Max = 4294967295 := rfl

/-- An aligned arc contains the locations whose sector is on its walk. -/
theorem contains_sectorsArc_iff {x : Nat} :
    (sectorsArc first last).contains x = true ↔ OnWalk first last (x / sectorSize) := by
  have hlow : first * sectorSize ≤ x ↔ first ≤ x / sectorSize := by
    rw [sectorSize_eq]
    omega
  have hhigh : x ≤ (last + 1) * sectorSize - 1 ↔ x / sectorSize ≤ last := by
    rw [sectorSize_eq]
    omega
  unfold sectorsArc OnWalk
  by_cases hle : first ≤ last
  · have hmono : first * sectorSize ≤ (last + 1) * sectorSize - 1 := by
      rw [sectorSize_eq]
      omega
    rw [DhtArc.contains_arc_iff hmono, hlow, hhigh, if_pos hle]
  · have hmono : (last + 1) * sectorSize - 1 < first * sectorSize := by
      rw [sectorSize_eq]
      omega
    rw [DhtArc.contains_wrap_iff hmono, hlow, hhigh, if_neg hle]

/-- The span of an aligned arc counts its sectors. -/
theorem arcSpan_sectorsArc (hfirst : first < numSectors) :
    (sectorsArc first last).arcSpan + 1 = walkLength first last * sectorSize := by
  simp only [sectorsArc, DhtArc.arcSpan, walkLength]
  rw [numSectors_eq] at hfirst ⊢
  rw [sectorSize_eq, u32Max_eq]
  by_cases hle : first ≤ last
  · rw [if_pos hle, if_neg (by omega)]
    omega
  · rw [if_neg hle, if_pos (by omega)]
    omega

theorem arcSpan_lt_iff {first' last' : Nat} (hfirst : first < numSectors)
    (hfirst' : first' < numSectors) :
    (sectorsArc first last).arcSpan < (sectorsArc first' last').arcSpan ↔
      walkLength first last < walkLength first' last' := by
  have hspan : (sectorsArc first last).arcSpan + 1 = _ := arcSpan_sectorsArc hfirst
  have hspan' : (sectorsArc first' last').arcSpan + 1 = _ := arcSpan_sectorsArc hfirst'
  rw [sectorSize_eq] at hspan hspan'
  omega

/-- Two aligned arcs overlap where a sector at the end of one walk is on the other. -/
theorem overlaps_sectorsArc_iff {first' last' : Nat} :
    (sectorsArc first last).overlaps (sectorsArc first' last') = true ↔
      OnWalk first last first' ∨ OnWalk first last last' ∨ OnWalk first' last' first ∨
        OnWalk first' last' last := by
  have hstart : ∀ i, i * sectorSize / sectorSize = i := fun i =>
    Nat.mul_div_cancel i (by decide)
  have hstop : ∀ i, ((i + 1) * sectorSize - 1) / sectorSize = i := by
    intro i
    rw [sectorSize_eq]
    omega
  have hzero : ∀ (arc : DhtArc) (x : Nat), (arc.dist x == 0) = arc.contains x := fun _ _ => rfl
  have hunfold : (sectorsArc first last).overlaps (sectorsArc first' last') =
      ((sectorsArc first last).contains (first' * sectorSize) ||
        (sectorsArc first last).contains ((last' + 1) * sectorSize - 1) ||
        (sectorsArc first' last').contains (first * sectorSize) ||
        (sectorsArc first' last').contains ((last + 1) * sectorSize - 1)) := rfl
  rw [hunfold]
  simp only [Bool.or_eq_true, contains_sectorsArc_iff, hstart, hstop, or_assoc]

theorem full_eq_sectorsArc : DhtArc.full = sectorsArc 0 (numSectors - 1) := by decide

end Walk

/-- An arc covers a sector if it contains the start of it. -/
def Covers (arc : DhtArc) (i : Nat) : Prop :=
  arc.contains (i * sectorSize) = true

theorem not_covers_empty (i : Nat) : ¬ Covers .empty i := by
  simp [Covers]

theorem covers_sectorsArc_iff {first last i : Nat} :
    Covers (sectorsArc first last) i ↔ OnWalk first last i := by
  unfold Covers
  rw [contains_sectorsArc_iff, Nat.mul_div_cancel i (by decide)]

/-- What an aligned arc contains is decided by the sector. -/
theorem Aligned.contains_iff {arc : DhtArc} (h : Aligned arc) {x : Nat} :
    arc.contains x = true ↔ Covers arc (x / sectorSize) := by
  cases h with
  | empty => simp [Covers]
  | walk _ _ => rw [contains_sectorsArc_iff, covers_sectorsArc_iff]

namespace ArcSet

/-! ## The set of some arcs -/

section New

variable {first last i : Nat}

theorem numSectorsCovered_walk (hfirst : first < numSectors) :
    numSectorsCovered (first * sectorSize) ((last + 1) * sectorSize - 1) = walkLength first last := by
  simp only [numSectorsCovered, walkLength]
  rw [numSectors_eq] at hfirst ⊢
  rw [sectorSize_eq, u32Max_eq]
  by_cases hle : first ≤ last
  · rw [if_pos hle, if_neg (by omega)]
    omega
  · rw [if_neg hle, if_pos (by omega)]
    omega

/-- The walk ends where the arc does. -/
theorem walk_ends (hfirst : first < numSectors) :
    (first * sectorSize + walkLength first last * sectorSize) % 2 ^ 32 =
      ((last + 1) * sectorSize - 1 + 1) % 2 ^ 32 := by
  simp only [walkLength]
  rw [numSectors_eq] at hfirst ⊢
  rw [sectorSize_eq]
  by_cases hle : first ≤ last
  · rw [if_pos hle]
    omega
  · rw [if_neg hle]
    omega

theorem mem_sectorsFrom_iff (hfirst : first < numSectors) (hlast : last < numSectors) :
    i ∈ (sectorsFrom (first * sectorSize) (walkLength first last)).inner ↔
      i < numSectors ∧ OnWalk first last i := by
  simp only [sectorsFrom, Finset.mem_image, Finset.mem_range, walkLength, OnWalk]
  rw [numSectors_eq] at hfirst hlast ⊢
  rw [sectorSize_eq]
  by_cases hle : first ≤ last
  · rw [if_pos hle, if_pos hle]
    constructor
    · rintro ⟨k, hk, rfl⟩
      omega
    · rintro ⟨hlt, hlow, hhigh⟩
      exact ⟨i - first, by omega, by omega⟩
  · rw [if_neg hle, if_neg hle]
    constructor
    · rintro ⟨k, hk, rfl⟩
      omega
    · rintro ⟨hlt, hlow | hhigh⟩
      · exact ⟨i - first, by omega, by omega⟩
      · -- the walk has passed the end of the ring
        exact ⟨512 - first + i, by omega, by omega⟩

theorem inner_eq_range {a : ArcSet} (h : a.inner.card = numSectors) :
    a.inner = Finset.range numSectors := by
  apply Finset.eq_of_subset_of_card_le
  · exact fun i hi => Finset.mem_range.mpr (a.bounded i hi)
  · rw [Finset.card_range, h]

theorem addArcs_aligned {arcs : List DhtArc} :
    ∀ acc : ArcSet, (∀ arc ∈ arcs, Aligned arc) →
      ∃ set, addArcs acc arcs = .ok set ∧
        ∀ i, i ∈ set.inner ↔ i ∈ acc.inner ∨ (i < numSectors ∧ ∃ arc ∈ arcs, Covers arc i) := by
  induction arcs with
  | nil =>
      intro acc _
      exact ⟨acc, rfl, fun i => by simp⟩
  | cons arc arcs ih =>
      intro acc haligned
      have hrest : ∀ arc ∈ arcs, Aligned arc := fun a ha => haligned a (List.mem_cons_of_mem _ ha)
      unfold addArcs
      by_cases hcard : acc.inner.card = numSectors
      · -- every sector is in already
        refine ⟨acc, if_pos hcard, fun i => ⟨Or.inl, ?_⟩⟩
        rintro (hmem | ⟨hlt, _⟩)
        · exact hmem
        · rw [inner_eq_range hcard]
          exact Finset.mem_range.mpr hlt
      · rw [if_neg hcard]
        cases haligned arc List.mem_cons_self with
        | empty =>
            rcases ih acc hrest with ⟨set, hset, hmem⟩
            refine ⟨set, hset, fun i => (hmem i).trans ?_⟩
            simp [not_covers_empty]
        | @walk first last hfirst hlast =>
            rcases ih (acc.union (sectorsFrom (first * sectorSize) (walkLength first last))) hrest
              with ⟨set, hset, hmem⟩
            refine ⟨set, ?_, fun i => (hmem i).trans ?_⟩
            · simp only [sectorsArc, numSectorsCovered_walk hfirst, walk_ends hfirst, ne_eq,
                not_true_eq_false, false_and, if_false]
              exact hset
            · simp only [union, Finset.mem_union, mem_sectorsFrom_iff hfirst hlast,
                List.exists_mem_cons_iff, covers_sectorsArc_iff]
              tauto

/-- The set of some aligned arcs has the sectors that they cover. -/
theorem new_aligned {arcs : List DhtArc} (h : ∀ arc ∈ arcs, Aligned arc) :
    ∃ set, new arcs = .ok set ∧
      ∀ i, i ∈ set.inner ↔ i < numSectors ∧ ∃ arc ∈ arcs, Covers arc i := by
  rcases addArcs_aligned empty h with ⟨set, hset, hmem⟩
  refine ⟨set, hset, fun i => (hmem i).trans ?_⟩
  simp [empty]

end New

/-! ## Runs of sectors -/

/-- The first run starts at the first number. -/
theorem runs_cons (first : Nat) (rest : List Nat) :
    ∃ stop more, runs (first :: rest) = (first, stop) :: more := by
  unfold runs
  split
  · exact ⟨first, [], rfl⟩
  · rename_i start stop more _
    by_cases hnext : first + 1 = start
    · exact ⟨stop, more, if_pos hnext⟩
    · exact ⟨first, (start, stop) :: more, if_neg hnext⟩

/-- The runs are the maximal runs of the list, from left to right. -/
structure RunsOf (l : List Nat) (found : List (Nat × Nat)) : Prop where
  maximal : ∀ r ∈ found, MaximalRun (fun i => i ∈ l) r.1 r.2
  covers : ∀ i ∈ l, ∃ r ∈ found, r.1 ≤ i ∧ i ≤ r.2
  sorted : found.Pairwise fun r r' => r.1 < r'.1

section Step

variable {first stop : Nat} {rest : List Nat} {more : List (Nat × Nat)}

/-- A run of the rest stays maximal next to a smaller number that does not touch it. -/
theorem RunsOf.maximal_cons (h : RunsOf rest more) (hfirst : ∀ i ∈ rest, first < i)
    {r : Nat × Nat} (hr : r ∈ more) (hapart : r.1 ≠ first + 1) :
    MaximalRun (fun i => i ∈ first :: rest) r.1 r.2 := by
  have hmax := h.maximal r hr
  have hlt := hfirst r.1 hmax.first_mem
  refine ⟨hmax.le, fun i hlow hhigh => List.mem_cons_of_mem _ (hmax.stretch i hlow hhigh), ?_, ?_⟩
  · intro i hi hmem
    rcases List.mem_cons.mp hmem with rfl | hin
    · exact hapart hi.symm
    · exact hmax.left i hi hin
  · intro hmem
    rcases List.mem_cons.mp hmem with heq | hin
    · have hle := hmax.le
      omega
    · exact hmax.right hin

/-- The first run of the rest grows by a number right before it. -/
theorem RunsOf.extend (h : RunsOf rest ((first + 1, stop) :: more))
    (hfirst : ∀ i ∈ rest, first < i) : RunsOf (first :: rest) ((first, stop) :: more) := by
  have hhead := h.maximal _ List.mem_cons_self
  have hle : first + 1 ≤ stop := hhead.le
  rcases List.pairwise_cons.mp h.sorted with ⟨hlater, hsorted⟩
  refine ⟨?_, ?_, ?_⟩
  · intro r hr
    rcases List.mem_cons.mp hr with rfl | hmore
    · refine ⟨by omega, ?_, ?_, ?_⟩
      · intro i hlow hhigh
        rcases Nat.eq_or_lt_of_le hlow with rfl | hlt
        · exact List.mem_cons_self
        · exact List.mem_cons_of_mem _ (hhead.stretch i hlt hhigh)
      · intro i hi hmem
        have hlt : i < first := by omega
        rcases List.mem_cons.mp hmem with rfl | hin
        · omega
        · exact absurd (hfirst i hin) (by omega)
      · intro hmem
        rcases List.mem_cons.mp hmem with heq | hin
        · omega
        · exact hhead.right hin
    · exact h.maximal_cons hfirst (List.mem_cons_of_mem _ hmore) (ne_of_gt (hlater r hmore))
  · intro i hi
    rcases List.mem_cons.mp hi with rfl | hin
    · exact ⟨_, List.mem_cons_self, le_refl _, by omega⟩
    · rcases h.covers i hin with ⟨r, hr, hlow, hhigh⟩
      rcases List.mem_cons.mp hr with rfl | hmore
      · exact ⟨_, List.mem_cons_self, by omega, hhigh⟩
      · exact ⟨r, List.mem_cons_of_mem _ hmore, hlow, hhigh⟩
  · exact List.pairwise_cons.mpr ⟨fun r hr => Nat.lt_of_succ_lt (hlater r hr), hsorted⟩

/-- A number that does not touch the first run of the rest is a run of its own. -/
theorem RunsOf.prepend (h : RunsOf rest more) (hfirst : ∀ i ∈ rest, first < i)
    (hapart : first + 1 ∉ rest) : RunsOf (first :: rest) ((first, first) :: more) := by
  refine ⟨?_, ?_, ?_⟩
  · intro r hr
    rcases List.mem_cons.mp hr with rfl | hmore
    · refine ⟨le_refl _, ?_, ?_, ?_⟩
      · intro i hlow hhigh
        rw [Nat.le_antisymm hhigh hlow]
        exact List.mem_cons_self
      · intro i hi hmem
        rcases List.mem_cons.mp hmem with rfl | hin
        · omega
        · exact absurd (hfirst i hin) (by omega)
      · intro hmem
        rcases List.mem_cons.mp hmem with heq | hin
        · omega
        · exact hapart hin
    · refine h.maximal_cons hfirst hmore fun heq => hapart ?_
      rw [← heq]
      exact (h.maximal r hmore).first_mem
  · intro i hi
    rcases List.mem_cons.mp hi with rfl | hin
    · exact ⟨_, List.mem_cons_self, le_refl _, le_refl _⟩
    · rcases h.covers i hin with ⟨r, hr, hbounds⟩
      exact ⟨r, List.mem_cons_of_mem _ hr, hbounds⟩
  · exact List.pairwise_cons.mpr
      ⟨fun r hr => hfirst _ (h.maximal r hr).first_mem, h.sorted⟩

end Step

theorem runs_spec {l : List Nat} (hsorted : l.Pairwise (· < ·)) : RunsOf l (runs l) := by
  induction l with
  | nil =>
      exact ⟨fun r hr => absurd hr List.not_mem_nil, fun i hi => absurd hi List.not_mem_nil,
        List.Pairwise.nil⟩
  | cons first rest ih =>
      rcases List.pairwise_cons.mp hsorted with ⟨hfirst, hrest⟩
      have hspec := ih hrest
      cases rest with
      | nil => exact hspec.prepend hfirst List.not_mem_nil
      | cons second rest =>
          rcases runs_cons second rest with ⟨stop, more, hruns⟩
          have hsecond : ∀ i ∈ second :: rest, second ≤ i := by
            intro i hi
            rcases List.mem_cons.mp hi with rfl | hin
            · exact le_refl _
            · exact le_of_lt ((List.pairwise_cons.mp hrest).1 i hin)
          rw [runs, hruns]
          rw [hruns] at hspec
          -- `first` either extends the run that starts next to it or is a run of its own
          by_cases hnext : first + 1 = second
          · subst hnext
            simp only [if_true]
            exact hspec.extend hfirst
          · simp only [if_neg hnext]
            refine hspec.prepend hfirst fun hmem => ?_
            have hle := hsecond _ hmem
            have hlt := hfirst second List.mem_cons_self
            omega

/-! ## The arcs of a set -/

section AsArcs

variable {a : ArcSet} {arc : DhtArc}

theorem runArc_eq {r : Nat × Nat} (hlast : r.2 < numSectors) : runArc r = sectorsArc r.1 r.2 := by
  rw [numSectors_eq] at hlast
  unfold runArc sectorsArc
  rw [sectorSize_eq, u32Max_eq]
  by_cases htop : (r.2 + 1) * 8388608 ≤ 4294967295
  · simp only [Nat.min_eq_left htop]
    congr 1
    split <;> omega
  · simp only [Nat.min_eq_right (Nat.le_of_not_le htop), if_true]
    congr 1
    omega

/-- The arcs of a set: the full one, or those of its maximal runs. -/
theorem mem_asArcs_iff :
    arc ∈ a.asArcs ↔
      if a.inner.card = numSectors then arc = .full
      else ∃ first last, MaximalRun (fun i => i ∈ a.inner) first last ∧
        arc = sectorsArc first last := by
  have hmem : ∀ i, i ∈ a.inner.sort (· ≤ ·) ↔ i ∈ a.inner := fun i => Finset.mem_sort _
  have hruns := runs_spec (a.inner.sortedLT_sort.pairwise)
  have hmaximal : ∀ r ∈ runs (a.inner.sort (· ≤ ·)),
      MaximalRun (fun i => i ∈ a.inner) r.1 r.2 := by
    intro r hr
    have hmax := hruns.maximal r hr
    simp only [hmem] at hmax
    exact hmax
  unfold asArcs
  rw [← numSectors_eq]
  by_cases hempty : a.inner = ∅
  · have hcard : ¬ a.inner.card = numSectors := by
      rw [hempty]
      decide
    rw [if_pos hempty, if_neg hcard]
    refine ⟨fun h => absurd h List.not_mem_nil, ?_⟩
    rintro ⟨first, last, hmax, _⟩
    have hfirst := hmax.first_mem
    rw [hempty] at hfirst
    exact absurd hfirst (Finset.notMem_empty _)
  rw [if_neg hempty]
  by_cases hcard : a.inner.card = numSectors
  · rw [if_pos hcard, if_pos hcard, List.mem_singleton]
  · rw [if_neg hcard, if_neg hcard, List.mem_map]
    constructor
    · rintro ⟨r, hr, rfl⟩
      have hmax := hmaximal r hr
      exact ⟨r.1, r.2, hmax, runArc_eq (a.bounded _ hmax.last_mem)⟩
    · rintro ⟨first, last, hmax, rfl⟩
      rcases hruns.covers first ((hmem first).mpr hmax.first_mem) with ⟨r, hr, hlow, hhigh⟩
      have hfound := hmaximal r hr
      -- two maximal runs with a common number are one
      have hin := hfound.contains_stretch hmax.stretch ⟨le_refl first, hmax.le⟩ ⟨hlow, hhigh⟩
      have hout := hmax.contains_stretch hfound.stretch ⟨hlow, hhigh⟩ ⟨le_refl first, hmax.le⟩
      refine ⟨r, hr, ?_⟩
      rw [runArc_eq (a.bounded _ hfound.last_mem), Nat.le_antisymm hin.1 hout.1,
        Nat.le_antisymm hout.2 hin.2]

theorem onWalk_of_le {first last i : Nat} (hle : first ≤ last) :
    OnWalk first last i ↔ first ≤ i ∧ i ≤ last := by
  unfold OnWalk
  rw [if_pos hle]

theorem covers_full {i : Nat} (hi : i < numSectors) : Covers .full i := by
  rw [full_eq_sectorsArc, covers_sectorsArc_iff, onWalk_of_le (Nat.zero_le _)]
  exact ⟨Nat.zero_le i, Nat.le_sub_one_of_lt hi⟩

theorem aligned_full : Aligned .full := by
  rw [full_eq_sectorsArc]
  exact .walk (by decide) (by decide)

/-- A maximal run of a set stays inside the ring. -/
theorem maximalRun_bounded {first last : Nat} (h : MaximalRun (fun i => i ∈ a.inner) first last) :
    first ≤ last ∧ last < numSectors :=
  ⟨h.le, a.bounded _ h.last_mem⟩

theorem aligned_asArcs (h : arc ∈ a.asArcs) : Aligned arc := by
  rw [mem_asArcs_iff] at h
  split at h
  · rw [h]
    exact aligned_full
  · rcases h with ⟨first, last, hmax, rfl⟩
    rcases maximalRun_bounded hmax with ⟨hle, hlt⟩
    exact .walk (lt_of_le_of_lt hle hlt) hlt

/-- The arcs of a set cover its sectors and no others. -/
theorem covers_asArcs_iff {i : Nat} (hi : i < numSectors) :
    (∃ arc ∈ a.asArcs, Covers arc i) ↔ i ∈ a.inner := by
  simp only [mem_asArcs_iff]
  by_cases hcard : a.inner.card = numSectors
  · rw [inner_eq_range hcard]
    simp only [Finset.card_range, if_true, exists_eq_left, Finset.mem_range, hi, iff_true]
    exact covers_full hi
  · simp only [if_neg hcard]
    constructor
    · rintro ⟨_, ⟨first, last, hmax, rfl⟩, hcovers⟩
      rw [covers_sectorsArc_iff, onWalk_of_le hmax.le] at hcovers
      exact hmax.stretch i hcovers.1 hcovers.2
    · intro hmem
      have hsingle : Stretch (fun i => i ∈ a.inner) i i := by
        intro j hlow hhigh
        rw [Nat.le_antisymm hhigh hlow]
        exact hmem
      rcases hsingle.exists_maximalRun a.bounded (le_refl i) with ⟨first, last, hmax, hlow, hhigh⟩
      refine ⟨_, ⟨first, last, hmax, rfl⟩, ?_⟩
      rw [covers_sectorsArc_iff, onWalk_of_le hmax.le]
      exact ⟨hlow, hhigh⟩

end AsArcs

end ArcSet

end Dht
end Kitsune2
