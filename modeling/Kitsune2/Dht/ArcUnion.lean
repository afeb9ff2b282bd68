import Kitsune2.Api.Geometry
import Kitsune2.Dht.Arcs

/-!
# ArcUnion — what the set of some arcs contains

`ArcSet::new` takes the union of its arcs, and rejects an arc whose walk over the sectors does not end
where the arc does.  Where the arc starts it does not look: an arc that is a whole number of sectors
long is accepted wherever it starts, and stands for the sectors below it.  So the set has the locations
of the arcs exactly when the arcs together cover only whole sectors.
-/

namespace Kitsune2
namespace Dht

open Api Lib

/-- Some arc of the list contains the location. -/
def InSome (arcs : List U32Arc) (loc : UInt32) : Prop :=
  ∃ arc ∈ arcs, arc.toArc.contains loc.toNat = true

/-- Of every sector the arcs contain all locations or none. -/
def WholeSectors (arcs : List U32Arc) : Prop :=
  ∀ loc loc' : UInt32, loc.toNat / sectorSize = loc'.toNat / sectorSize →
    InSome arcs loc → InSome arcs loc'

/-- The arc starts and ends on sector boundaries. -/
def OnBoundaries : U32Arc → Prop
  | .empty => True
  | .arc start stop => start.toNat % sectorSize = 0 ∧ (stop.toNat + 1) % sectorSize = 0

/-- The sector of a location is in the set. -/
def InSector (set : ArcSet) (loc : UInt32) : Prop :=
  loc.toNat / sectorSize ∈ set.inner

instance (set : ArcSet) (loc : UInt32) : Decidable (InSector set loc) :=
  inferInstanceAs (Decidable (_ ∈ _))

namespace ArcSet

/-! ## One arc -/

section Walk

variable {start stop i x : Nat}

/-- A walk over the sectors that ends where its arc does is as long as the arc. -/
theorem covered_length (hstart : start < ringSize) (hstop : stop < ringSize)
    (hends : (start + numSectorsCovered start stop * sectorSize) % 2 ^ 32 = (stop + 1) % 2 ^ 32) :
    numSectorsCovered start stop * sectorSize = stepsTo ringSize start stop + 1 := by
  have hsteps := stepsTo_cases hstart hstop
  rw [ringSize_eq] at *
  unfold numSectorsCovered at hends ⊢
  rw [sectorSize_eq, u32Max_eq] at *
  split at hends
  · rename_i hwrap
    rw [if_pos hwrap]
    omega
  · rename_i hwrap
    rw [if_neg hwrap]
    omega

/-- Every sector of the walk has a location of the arc. -/
theorem exists_mem_of_sectorsFrom (hstart : start < ringSize) (hstop : stop < ringSize)
    (hends : (start + numSectorsCovered start stop * sectorSize) % 2 ^ 32 = (stop + 1) % 2 ^ 32)
    (hi : i ∈ (sectorsFrom start (numSectorsCovered start stop)).inner) :
    ∃ x < ringSize, x / sectorSize = i ∧ OnCircleWalk ringSize start stop x := by
  have hlength := covered_length hstart hstop hends
  simp only [sectorsFrom, Finset.mem_image, Finset.mem_range] at hi
  rcases hi with ⟨k, hk, rfl⟩
  have hlt : (start + k * sectorSize) % 2 ^ 32 < ringSize := Nat.mod_lt _ (by decide)
  refine ⟨_, hlt, rfl, ?_⟩
  have hsteps := stepsTo_cases hstart hlt
  have hfar := stepsTo_cases hstart hstop
  unfold OnCircleWalk
  rw [ringSize_eq] at *
  rw [sectorSize_eq] at *
  omega

/-- The sector of every location of the arc that is the last one of its sector is on the walk. -/
theorem mem_sectorsFrom_of_last (hstart : start < ringSize) (hstop : stop < ringSize)
    (hends : (start + numSectorsCovered start stop * sectorSize) % 2 ^ 32 = (stop + 1) % 2 ^ 32)
    (hx : x < ringSize) (hon : OnCircleWalk ringSize start stop x)
    (hlast : x % sectorSize = sectorSize - 1) :
    x / sectorSize ∈ (sectorsFrom start (numSectorsCovered start stop)).inner := by
  have hlength := covered_length hstart hstop hends
  have hsteps := stepsTo_cases hstart hx
  unfold OnCircleWalk at hon
  simp only [sectorsFrom, Finset.mem_image, Finset.mem_range]
  -- the last step of the walk before the location is in its sector
  refine ⟨stepsTo ringSize start x / sectorSize, ?_, ?_⟩
  · rw [sectorSize_eq] at *
    omega
  · rw [ringSize_eq] at *
    rw [sectorSize_eq] at *
    omega

end Walk

/-! ## A list of arcs -/

/-- What `addArcs` has made of the arcs. -/
structure Gathered (acc set : ArcSet) (arcs : List U32Arc) : Prop where
  kept : acc.inner ⊆ set.inner
  touched : ∀ i ∈ set.inner, i ∈ acc.inner ∨ ∃ loc : UInt32, loc.toNat / sectorSize = i ∧ InSome arcs loc
  ends : ∀ loc : UInt32, InSome arcs loc → loc.toNat % sectorSize = sectorSize - 1 → InSector set loc

theorem inSome_cons {arc : U32Arc} {arcs : List U32Arc} {loc : UInt32} :
    InSome (arc :: arcs) loc ↔ arc.toArc.contains loc.toNat = true ∨ InSome arcs loc :=
  List.exists_mem_cons_iff ..

theorem sector_lt (loc : UInt32) : loc.toNat / sectorSize < numSectors := by
  have hlt := toNat_lt_ringSize loc
  rw [ringSize_eq] at hlt
  rw [numSectors_eq, sectorSize_eq]
  omega

theorem addArcs_gathered {set : ArcSet} : ∀ {arcs : List U32Arc} {acc : ArcSet},
    addArcs acc (arcs.map U32Arc.toArc) = .ok set → Gathered acc set arcs := by
  intro arcs
  induction arcs with
  | nil =>
      intro acc h
      cases h
      exact ⟨Finset.Subset.refl _, fun i hi => Or.inl hi,
        fun loc hin => by rcases hin with ⟨arc, harc, _⟩; exact absurd harc List.not_mem_nil⟩
  | cons arc arcs ih =>
      intro acc h
      rw [List.map_cons] at h
      unfold addArcs at h
      -- the loop returns early once every sector is covered
      by_cases hfull : acc.inner.card = numSectors
      · rw [if_pos hfull] at h
        cases h
        refine ⟨Finset.Subset.refl _, fun i hi => Or.inl hi, fun loc _ _ => ?_⟩
        unfold InSector
        rw [inner_eq_range hfull]
        exact Finset.mem_range.mpr (sector_lt loc)
      rw [if_neg hfull] at h
      cases arc with
      | empty =>
          have hrest := ih h
          have hsame : ∀ loc, InSome (.empty :: arcs) loc ↔ InSome arcs loc := by
            intro loc
            rw [inSome_cons]
            simp [U32Arc.toArc]
          refine ⟨hrest.kept, ?_, ?_⟩
          · simpa only [hsame] using hrest.touched
          · simpa only [hsame] using hrest.ends
      | arc start stop =>
          have hstart := toNat_lt_ringSize start
          have hstop := toNat_lt_ringSize stop
          simp only [U32Arc.toArc] at h
          split at h
          · cases h
          rename_i hcheck
          -- the alignment test, with the case of the full circle folded in
          have hends : (start.toNat + numSectorsCovered start.toNat stop.toNat * sectorSize) % 2 ^ 32 =
              (stop.toNat + 1) % 2 ^ 32 := by
            by_contra hne
            refine hcheck ⟨hne, ?_⟩
            rintro ⟨htop, hzero⟩
            rw [hzero, htop] at hne
            exact hne rfl
          have hrest := ih h
          have hwalk : ∀ loc : UInt32, (U32Arc.arc start stop).toArc.contains loc.toNat = true ↔
              OnCircleWalk ringSize start.toNat stop.toNat loc.toNat :=
            fun loc => DhtArc.contains_iff_onCircleWalk hstart hstop (toNat_lt_ringSize loc)
          refine ⟨fun i hi => hrest.kept (Finset.mem_union_left _ hi), ?_, ?_⟩
          · intro i hi
            rcases hrest.touched i hi with hin | ⟨loc, hloc, hin⟩
            -- the sector is one of before or one of this arc
            · rcases Finset.mem_union.mp hin with hold | hnew
              · exact Or.inl hold
              · rcases exists_mem_of_sectorsFrom hstart hstop hends hnew with ⟨x, hx, hsector, hon⟩
                have hval : (UInt32.ofNat x).toNat = x := UInt32.toNat_ofNat_of_lt' hx
                refine Or.inr ⟨UInt32.ofNat x, by rw [hval]; exact hsector, ?_⟩
                rw [inSome_cons, hwalk, hval]
                exact Or.inl hon
            · exact Or.inr ⟨loc, hloc, inSome_cons.mpr (Or.inr hin)⟩
          · intro loc hin hlast
            rcases inSome_cons.mp hin with hthis | hlater
            · refine hrest.kept (Finset.mem_union_right _ ?_)
              exact mem_sectorsFrom_of_last hstart hstop hends (toNat_lt_ringSize loc)
                ((hwalk loc).mp hthis) hlast
            · exact hrest.ends loc hlater hlast

/-- The set has the locations of the arcs if and only if these cover only whole sectors. -/
theorem new_union_iff {arcs : List U32Arc} {set : ArcSet}
    (h : new (arcs.map U32Arc.toArc) = .ok set) :
    (∀ loc, InSector set loc ↔ InSome arcs loc) ↔ WholeSectors arcs := by
  have hgathered := addArcs_gathered h
  constructor
  · intro hunion loc loc' hsector hin
    rw [← hunion] at hin ⊢
    unfold InSector at hin ⊢
    rwa [← hsector]
  · intro hwhole loc
    constructor
    · intro hmem
      rcases hgathered.touched _ hmem with hempty | ⟨loc', hsector, hin⟩
      · exact absurd hempty (Finset.notMem_empty _)
      · exact hwhole loc' loc hsector hin
    · intro hin
      -- with the location the arcs contain the last one of its sector
      have hlt := toNat_lt_ringSize loc
      have hlastLt : (loc.toNat / sectorSize + 1) * sectorSize - 1 < ringSize := by
        rw [ringSize_eq] at *
        rw [sectorSize_eq]
        omega
      have hval : (UInt32.ofNat ((loc.toNat / sectorSize + 1) * sectorSize - 1)).toNat =
          (loc.toNat / sectorSize + 1) * sectorSize - 1 := UInt32.toNat_ofNat_of_lt' hlastLt
      have hsector : ((loc.toNat / sectorSize + 1) * sectorSize - 1) / sectorSize =
          loc.toNat / sectorSize := by
        rw [sectorSize_eq]
        omega
      have hlast : ((loc.toNat / sectorSize + 1) * sectorSize - 1) % sectorSize = sectorSize - 1 := by
        rw [sectorSize_eq]
        omega
      have hend := hgathered.ends _
        (hwhole loc (UInt32.ofNat ((loc.toNat / sectorSize + 1) * sectorSize - 1))
          (by rw [hval, hsector]) hin) (by rw [hval]; exact hlast)
      unfold InSector at hend ⊢
      rwa [hval, hsector] at hend

/-! ## Arcs on sector boundaries -/

theorem aligned_of_onBoundaries {arc : U32Arc} (h : OnBoundaries arc) : Aligned arc.toArc := by
  cases arc with
  | empty => exact .empty
  | arc start stop =>
      have hstart := sector_lt start
      have hstop := sector_lt stop
      rcases h with ⟨hfirst, hlast⟩
      have hwalk : (U32Arc.arc start stop).toArc =
          sectorsArc (start.toNat / sectorSize) (stop.toNat / sectorSize) := by
        have hstartEq : start.toNat / sectorSize * sectorSize = start.toNat := by
          rw [sectorSize_eq] at *
          omega
        have hstopEq : (stop.toNat / sectorSize + 1) * sectorSize - 1 = stop.toNat := by
          rw [sectorSize_eq] at *
          omega
        unfold sectorsArc
        rw [hstartEq, hstopEq]
        rfl
      rw [hwalk]
      exact .walk hstart hstop

/-- An arc set is the union of its arcs exactly where these cover only whole sectors, and arcs on
sector boundaries are never rejected. -/
theorem new_means_union_iff (arcs : List U32Arc) :
    (∀ set, new (arcs.map U32Arc.toArc) = .ok set →
      ((∀ loc, InSector set loc ↔ InSome arcs loc) ↔ WholeSectors arcs)) ∧
    ((∀ arc ∈ arcs, OnBoundaries arc) → ∃ set, new (arcs.map U32Arc.toArc) = .ok set) := by
  refine ⟨fun set h => new_union_iff h, ?_⟩
  intro hbounds
  have haligned : ∀ arc ∈ arcs.map U32Arc.toArc, Aligned arc := by
    intro arc harc
    rcases List.mem_map.mp harc with ⟨arc', harc', rfl⟩
    exact aligned_of_onBoundaries (hbounds arc' harc')
  rcases new_aligned haligned with ⟨set, hset, _⟩
  exact ⟨set, hset⟩

/-- An arc of the length of a sector that starts five locations into one is accepted, and stands for
the five locations before it too. -/
theorem shifted_arc_accepted :
    ∃ set, new ([U32Arc.arc 5 8388612].map U32Arc.toArc) = .ok set ∧
      InSector set 0 ∧ ¬ InSome [U32Arc.arc 5 8388612] 0 := by
  refine ⟨empty.union (sectorsFrom 5 1), by decide, by decide, ?_⟩
  rintro ⟨arc, harc, hcontains⟩
  rw [List.mem_singleton.mp harc] at hcontains
  exact absurd hcontains (by decide)

end ArcSet

end Dht
end Kitsune2
