import Mathlib.Data.List.Forall2
import Kitsune2.Dht.Arcs
import Kitsune2.Dht.SyncedSectors

/-!
# StorageArc — storage arcs that grow with what is in sync

After a comparison a node takes the sectors of the common arc set that its peer has not listed for
synced, adds the current arc of each of its agents, cuts the result down to the agent's target and
turns it into arcs.  The first of these that overlaps the current arc and is longer becomes the new
one.

An arc that is made from a set of sectors never wraps around the ring.  So a current arc that does
is met by two of the new arcs, one at each end of the ring, and neither of them contains it unless the
ring is complete: if one of them is longer than the current arc, the other part of it is dropped.
-/

namespace Kitsune2
namespace Gossip
namespace StorageArc

open Api Lib
open Dht
open Dht.DhtState (Compared)

/-! ## The update -/

/-- What the update needs of a local agent: its arcs, and how often its callback has been invoked. -/
structure LocalAgent where
  curStorageArc : DhtArc
  tgtStorageArc : DhtArc
  callbacks : Nat
  deriving DecidableEq, Repr

namespace LocalAgent

def setCurStorageArc (agent : LocalAgent) (arc : DhtArc) : LocalAgent :=
  { agent with curStorageArc := arc }

def invokeCb (agent : LocalAgent) : LocalAgent :=
  { agent with callbacks := agent.callbacks + 1 }

end LocalAgent

/-- The sectors that did not match; `none` for a snapshot that says nothing about rings. -/
def mismatchedSectors : DhtSnapshot → Option (List Nat)
  | .minimal _ _ _ => some []
  | .ringSectorDetails ringSectorHashes _ =>
      some (ringSectorHashes.toList.flatMap fun e => e.2.keys)
  | _ => none

/-- The last of the arcs with the largest span. -/
def maxByArcSpan : List DhtArc → Option DhtArc
  | [] => none
  | arc :: rest =>
      some (rest.foldl (fun best arc => if best.arcSpan ≤ arc.arcSpan then arc else best) arc)

/-- The new storage arc, if there is one, with and without the feature `sharding`. -/
def pickArc (sharding : Bool) (newArcs : List DhtArc) (currentStorageArc : DhtArc) : Option DhtArc :=
  if sharding then
    if currentStorageArc = .empty then maxByArcSpan newArcs
    else
      newArcs.find? fun arc =>
        decide (arc.arcSpan > currentStorageArc.arcSpan) && arc.overlaps currentStorageArc
  else if .full ∈ newArcs then some .full
  else none

/-- The body of the loop over the local agents. -/
def updateAgent (sharding : Bool) (syncedArcs : List DhtArc) (localAgent : LocalAgent) :
    Except Fault LocalAgent :=
  if localAgent.tgtStorageArc = localAgent.curStorageArc then .ok localAgent
  else do
    let targetSet ← ArcSet.new [localAgent.tgtStorageArc]
    let syncedArcSet ← ArcSet.new (syncedArcs ++ [localAgent.curStorageArc])
    let newArcs := (syncedArcSet.intersection targetSet).asArcs
    match pickArc sharding newArcs localAgent.curStorageArc with
    | none => pure localAgent
    | some newArc => pure (localAgent.setCurStorageArc newArc).invokeCb

/-- The loop; an error ends it and leaves the agents before as they are by then. -/
def updateAgents (sharding : Bool) (syncedArcs : List DhtArc) :
    List LocalAgent → Except Fault Unit × List LocalAgent
  | [] => (.ok (), [])
  | localAgent :: rest =>
      match updateAgent sharding syncedArcs localAgent with
      | .error e => (.error e, localAgent :: rest)
      | .ok updated =>
          let (r, rest') := updateAgents sharding syncedArcs rest
          (r, updated :: rest')

def updateStorageArcs (sharding : Bool) (snapshot : DhtSnapshot) (localAgents : List LocalAgent)
    (commonArcSet : ArcSet) : Except Fault Unit × List LocalAgent :=
  match mismatchedSectors snapshot with
  | none => (.ok (), localAgents)
  | some mismatched =>
      updateAgents sharding (commonArcSet.withoutSectorIndices mismatched).asArcs localAgents

/-- `K2Gossip::update_storage_arcs`; an error is only logged. -/
def K2Gossip.updateStorageArcs (sharding : Bool) (nextAction : DhtSnapshotNextAction)
    (theirSnapshot : DhtSnapshot) (localAgents : List LocalAgent) (commonArcSet : ArcSet) :
    List LocalAgent :=
  if nextAction = .cannotCompare then localAgents
  else (StorageArc.updateStorageArcs sharding theirSnapshot localAgents commonArcSet).2

/-! ## What an agent may store -/

/-- An agent with aligned arcs, the current one inside the target. -/
structure WellPlaced (agent : LocalAgent) : Prop where
  current : Aligned agent.curStorageArc
  target : Aligned agent.tgtStorageArc
  within : ∀ x ≤ u32Max, agent.curStorageArc.contains x = true → agent.tgtStorageArc.contains x = true

/-- A sector of the target that is synced or stored already. -/
def Storable (commonArcSet : ArcSet) (theirSnapshot : DhtSnapshot) (agent : LocalAgent) (i : Nat) :
    Prop :=
  i < numSectors ∧
    ((i ∈ commonArcSet.inner ∧ ¬ ListsSector theirSnapshot i) ∨ Covers agent.curStorageArc i) ∧
    Covers agent.tgtStorageArc i

/-- An arc that wraps around the ring, with more sectors of the set in a row at one end of the ring
than the arc has altogether, while the set is not the whole ring. -/
def Splits (s : Nat → Prop) (arc : DhtArc) : Prop :=
  ∃ first last, arc = sectorsArc first last ∧ last + 1 < first ∧ first < numSectors ∧
    (∃ i < numSectors, ¬ s i) ∧
    ((∃ m, Stretch s 0 m ∧ walkLength first last < m + 1) ∨
      ∃ m < numSectors, Stretch s m (numSectors - 1) ∧ walkLength first last < numSectors - m)

/-! ## Picking an arc -/

section Pick

variable {sharding : Bool} {set : ArcSet} {cur arc : DhtArc}

theorem maxByArcSpan_mem {arcs : List DhtArc} (h : maxByArcSpan arcs = some arc) : arc ∈ arcs := by
  cases arcs with
  | nil => cases h
  | cons first rest =>
      have hfold : ∀ (l : List DhtArc) (best : DhtArc),
          l.foldl (fun best arc => if best.arcSpan ≤ arc.arcSpan then arc else best) best ∈
            best :: l := by
        intro l
        induction l with
        | nil => exact fun best => List.mem_cons_self
        | cons next l ih =>
            intro best
            rw [List.foldl_cons]
            rcases List.mem_cons.mp (ih (if best.arcSpan ≤ next.arcSpan then next else best))
              with heq | hmem
            · rw [heq]
              split <;> simp
            · exact List.mem_cons_of_mem _ (List.mem_cons_of_mem _ hmem)
      cases h
      exact hfold rest first

theorem pickArc_mem {arcs : List DhtArc} (h : pickArc sharding arcs cur = some arc) : arc ∈ arcs := by
  unfold pickArc at h
  split at h
  · split at h
    · exact maxByArcSpan_mem h
    · exact List.mem_of_find?_eq_some h
  · split at h
    · rename_i hfull
      cases h
      exact hfull
    · cases h

/-- Without sharding an arc only becomes full. -/
theorem pickArc_full {arcs : List DhtArc} (h : pickArc false arcs cur = some arc) : arc = .full := by
  unfold pickArc at h
  rw [if_neg Bool.false_ne_true] at h
  split at h
  · exact (Option.some.inj h).symm
  · cases h

theorem pickArc_longer {arcs : List DhtArc} (h : pickArc true arcs cur = some arc)
    (hcur : cur ≠ .empty) : cur.arcSpan < arc.arcSpan ∧ arc.overlaps cur = true := by
  unfold pickArc at h
  rw [if_pos rfl, if_neg hcur] at h
  have haccepted := List.find?_some h
  rw [Bool.and_eq_true, decide_eq_true_eq] at haccepted
  exact haccepted

theorem exists_not_mem (h : set.inner.card ≠ numSectors) : ∃ i < numSectors, i ∉ set.inner := by
  by_contra hall
  push Not at hall
  apply h
  have hrange : set.inner = Finset.range numSectors := by
    ext i
    rw [Finset.mem_range]
    exact ⟨set.bounded i, hall i⟩
  rw [hrange, Finset.card_range]

/-- A longer arc of the set that overlaps the current arc contains it, unless that one splits. -/
theorem covers_of_longer (hcur : Aligned cur)
    (hsub : ∀ i < numSectors, Covers cur i → i ∈ set.inner)
    (hsplit : ¬ Splits (fun i => i ∈ set.inner) cur) (harc : arc ∈ set.asArcs)
    (hspan : cur.arcSpan < arc.arcSpan) (hoverlap : arc.overlaps cur = true) {i : Nat}
    (hi : i < numSectors) (hcovers : Covers cur i) : Covers arc i := by
  rw [ArcSet.mem_asArcs_iff] at harc
  split at harc
  · rw [harc]
    exact ArcSet.covers_full hi
  rename_i hcard
  rcases harc with ⟨first, last, hmax, rfl⟩
  rcases ArcSet.maximalRun_bounded hmax with ⟨hle, hlast⟩
  have hfirst : first < numSectors := lt_of_le_of_lt hle hlast
  cases hcur with
  | empty => exact absurd hcovers (not_covers_empty i)
  | @walk a b ha hb =>
      rw [covers_sectorsArc_iff] at hcovers ⊢
      rw [arcSpan_lt_iff ha hfirst] at hspan
      rw [overlaps_sectorsArc_iff] at hoverlap
      simp only [covers_sectorsArc_iff] at hsub
      simp only [ArcSet.onWalk_of_le hle] at hoverlap ⊢
      by_cases hab : a ≤ b
      · -- the current arc is a stretch that meets the run
        simp only [ArcSet.onWalk_of_le hab] at hoverlap hsub hcovers
        have hstretch : Stretch (fun i => i ∈ set.inner) a b := fun j hlow hhigh =>
          hsub j (lt_of_le_of_lt hhigh hb) ⟨hlow, hhigh⟩
        have hmeet : ∃ k, (a ≤ k ∧ k ≤ b) ∧ first ≤ k ∧ k ≤ last := by
          rcases hoverlap with hin | hin | hin | hin
          · exact ⟨a, ⟨le_refl a, hab⟩, hin⟩
          · exact ⟨b, ⟨hab, le_refl b⟩, hin⟩
          · exact ⟨first, hin, le_refl first, hle⟩
          · exact ⟨last, hin, hle, le_refl last⟩
        rcases hmeet with ⟨k, hin, hmeet⟩
        rcases hmax.contains_stretch hstretch hin hmeet with ⟨hlow, hhigh⟩
        exact ⟨le_trans hlow hcovers.1, le_trans hcovers.2 hhigh⟩
      · simp only [OnWalk, if_neg hab] at hoverlap hsub hcovers
        simp only [walkLength, if_neg hab, if_pos hle] at hspan
        exfalso
        apply hsplit
        refine ⟨a, b, rfl, by omega, ha, exists_not_mem hcard, ?_⟩
        simp only [walkLength, if_neg hab]
        have hlow : Stretch (fun i => i ∈ set.inner) 0 b := fun j _ hhigh =>
          hsub j (lt_of_le_of_lt hhigh hb) (Or.inr hhigh)
        have hhigh : Stretch (fun i => i ∈ set.inner) a (numSectors - 1) := fun j hj hlt =>
          hsub j (by omega) (Or.inl hj)
        -- the run meets one of the two parts of the current arc, and starts or ends the ring
        have hmeet : first ≤ b ∨ a ≤ last := by omega
        rcases hmeet with hstart | hstop
        · have hzero : first = 0 := by
            have hin := hmax.contains_stretch hlow ⟨Nat.zero_le first, hstart⟩ ⟨le_refl first, hle⟩
            omega
          subst hzero
          exact Or.inl ⟨last, hmax.stretch, by omega⟩
        · have hend : last = numSectors - 1 := by
            have hin := hmax.contains_stretch hhigh ⟨hstop, by omega⟩ ⟨hle, le_refl last⟩
            omega
          subst hend
          exact Or.inr ⟨first, hfirst, hmax.stretch, by omega⟩

theorem card_ne_of_not_mem {i : Nat} (hi : i < numSectors) (hout : i ∉ set.inner) :
    set.inner.card ≠ numSectors := by
  intro hcard
  rw [ArcSet.inner_eq_range hcard] at hout
  exact hout (Finset.mem_range.mpr hi)

/-- No arc of an incomplete set has both ends of the ring. -/
theorem not_covers_both_ends {i : Nat} (hi : i < numSectors) (hout : i ∉ set.inner)
    (harc : arc ∈ set.asArcs) (hlow : Covers arc 0) : ¬ Covers arc (numSectors - 1) := by
  rw [ArcSet.mem_asArcs_iff, if_neg (card_ne_of_not_mem hi hout)] at harc
  rcases harc with ⟨first, last, hmax, rfl⟩
  rw [covers_sectorsArc_iff, ArcSet.onWalk_of_le hmax.le] at hlow ⊢
  rintro ⟨_, hhigh⟩
  exact hout (hmax.stretch i (le_trans hlow.1 (Nat.zero_le i))
    (le_trans (Nat.le_sub_one_of_lt hi) hhigh))

/-- If the current arc splits, the new one drops a part of it. -/
theorem pickArc_drops (hsplit : Splits (fun i => i ∈ set.inner) cur) :
    ∃ arc, pickArc true set.asArcs cur = some arc ∧
      ∃ i < numSectors, Covers cur i ∧ ¬ Covers arc i := by
  rcases hsplit with ⟨a, b, rfl, hwraps, ha, ⟨i, hi, hout⟩, hlonger⟩
  have hab : ¬ a ≤ b := by omega
  have hends : Covers (sectorsArc a b) 0 ∧ Covers (sectorsArc a b) (numSectors - 1) := by
    simp only [covers_sectorsArc_iff, OnWalk, if_neg hab]
    exact ⟨Or.inr (Nat.zero_le b), Or.inl (Nat.le_sub_one_of_lt ha)⟩
  have hcard := card_ne_of_not_mem hi hout
  have hrun : ∃ first last, MaximalRun (fun i => i ∈ set.inner) first last ∧
      walkLength a b < walkLength first last ∧ (first = 0 ∨ last = numSectors - 1) := by
    rcases hlonger with ⟨m, hstretch, hlt⟩ | ⟨m, hm, hstretch, hlt⟩
    · rcases hstretch.exists_maximalRun set.bounded (Nat.zero_le m)
        with ⟨first, last, hmax, hfirst, hlast⟩
      refine ⟨first, last, hmax, ?_, Or.inl (Nat.le_zero.mp hfirst)⟩
      simp only [walkLength, if_pos hmax.le] at hlt ⊢
      omega
    · rcases hstretch.exists_maximalRun set.bounded (Nat.le_sub_one_of_lt hm)
        with ⟨first, last, hmax, hfirst, hlast⟩
      have hbound := set.bounded _ hmax.last_mem
      refine ⟨first, last, hmax, ?_, Or.inr (by omega)⟩
      simp only [walkLength, if_pos hmax.le] at hlt ⊢
      omega
  rcases hrun with ⟨first, last, hmax, hlt, hend⟩
  rcases ArcSet.maximalRun_bounded hmax with ⟨hle, hlast⟩
  -- the long arc at an end of the ring is one that the search accepts
  have hmem : sectorsArc first last ∈ set.asArcs := by
    rw [ArcSet.mem_asArcs_iff, if_neg hcard]
    exact ⟨first, last, hmax, rfl⟩
  have haccepted : (decide ((sectorsArc first last).arcSpan > (sectorsArc a b).arcSpan) &&
      (sectorsArc first last).overlaps (sectorsArc a b)) = true := by
    rw [Bool.and_eq_true, decide_eq_true_eq, overlaps_sectorsArc_iff, gt_iff_lt,
      arcSpan_lt_iff ha (lt_of_le_of_lt hle hlast)]
    refine ⟨hlt, ?_⟩
    simp only [OnWalk, if_neg hab]
    omega
  have hfound : ∃ arc, pickArc true set.asArcs (sectorsArc a b) = some arc := by
    have hne : sectorsArc a b ≠ .empty := fun h => DhtArc.noConfusion h
    unfold pickArc
    rw [if_pos rfl, if_neg hne]
    exact Option.isSome_iff_exists.mp (List.find?_isSome.mpr ⟨_, hmem, haccepted⟩)
  rcases hfound with ⟨arc, harc⟩
  refine ⟨arc, harc, ?_⟩
  have hnot := not_covers_both_ends hi hout (pickArc_mem harc)
  by_cases hzero : Covers arc 0
  · exact ⟨numSectors - 1, by decide, hends.2, hnot hzero⟩
  · exact ⟨0, by decide, hends.1, hzero⟩

end Pick

/-! ## One agent -/

section Agent

variable {sharding : Bool} {common : ArcSet} {theirs : DhtSnapshot} {agent new : LocalAgent}
  {mismatched : List Nat}

theorem mem_mismatched_iff (h : mismatchedSectors theirs = some mismatched) {i : Nat} :
    i ∈ mismatched ↔ ListsSector theirs i := by
  cases theirs with
  | minimal _ _ _ =>
      cases h
      refine ⟨fun hmem => absurd hmem List.not_mem_nil, ?_⟩
      rintro ⟨_, _, heq, _⟩
      cases heq
  | ringSectorDetails hashes boundary =>
      cases h
      simp only [List.mem_flatMap, Std.ExtTreeMap.mem_keys]
      constructor
      · rintro ⟨e, he, hi⟩
        have hget : hashes[e.1]? = some e.2 :=
          Std.ExtTreeMap.mem_toList_iff_getElem?_eq_some.mp he
        exact ⟨hashes, boundary, rfl, e.1, e.2, hget, hi⟩
      · rintro ⟨_, _, heq, ring, sectors, hget, hi⟩
        cases heq
        exact ⟨(ring, sectors), Std.ExtTreeMap.mem_toList_iff_getElem?_eq_some.mpr hget, hi⟩
  | discSectors _ _ => cases h
  | discSectorDetails _ _ => cases h

/-- The agent after the search for a new arc. -/
def LocalAgent.afterPick (agent : LocalAgent) (picked : Option DhtArc) : LocalAgent :=
  picked.elim agent fun arc => (agent.setCurStorageArc arc).invokeCb

/-- The update searches the arcs of the storable sectors, unless the agent is at its target. -/
theorem updateAgent_spec (h : WellPlaced agent) (hm : mismatchedSectors theirs = some mismatched) :
    (agent.tgtStorageArc = agent.curStorageArc ∧
      updateAgent sharding (common.withoutSectorIndices mismatched).asArcs agent = .ok agent) ∨
    ∃ set : ArcSet, (∀ i, i ∈ set.inner ↔ Storable common theirs agent i) ∧
      updateAgent sharding (common.withoutSectorIndices mismatched).asArcs agent =
        .ok (agent.afterPick (pickArc sharding set.asArcs agent.curStorageArc)) := by
  unfold updateAgent
  by_cases hat : agent.tgtStorageArc = agent.curStorageArc
  · exact Or.inl ⟨hat, if_pos hat⟩
  refine Or.inr ?_
  have hsingle : ∀ arc ∈ [agent.tgtStorageArc], Aligned arc := by
    intro arc harc
    rw [List.mem_singleton.mp harc]
    exact h.target
  -- all arcs that are combined are aligned, so the set is their union
  have hsynced : ∀ arc ∈ (common.withoutSectorIndices mismatched).asArcs ++ [agent.curStorageArc],
      Aligned arc := by
    intro arc harc
    rcases List.mem_append.mp harc with hin | hcur
    · exact ArcSet.aligned_asArcs hin
    · rw [List.mem_singleton.mp hcur]
      exact h.current
  rcases ArcSet.new_aligned hsingle with ⟨target, htarget, htargetMem⟩
  rcases ArcSet.new_aligned hsynced with ⟨synced, hnew, hsyncedMem⟩
  refine ⟨synced.intersection target, ?_, ?_⟩
  · intro i
    have hin : i ∈ (synced.intersection target).inner ↔ i ∈ synced.inner ∧ i ∈ target.inner :=
      Finset.mem_inter
    rw [hin, hsyncedMem, htargetMem]
    unfold Storable
    by_cases hi : i < numSectors
    · have hwithout : i ∈ (common.withoutSectorIndices mismatched).inner ↔
          i ∈ common.inner ∧ ¬ ListsSector theirs i := by
        rw [← mem_mismatched_iff hm]
        simp [ArcSet.withoutSectorIndices]
      simp only [hi, true_and, List.mem_append, List.mem_singleton, or_and_right, exists_or,
        exists_eq_left, ArcSet.covers_asArcs_iff hi, hwithout]
    · simp [hi]
  · rw [if_neg hat]
    refine bind_eq_ok_iff.mpr ⟨target, htarget, bind_eq_ok_iff.mpr ⟨synced, hnew, ?_⟩⟩
    cases hpick : pickArc sharding (synced.intersection target).asArcs agent.curStorageArc with
    | none => simp [LocalAgent.afterPick, hpick, pure, Except.pure]
    | some arc => simp [LocalAgent.afterPick, hpick, pure, Except.pure]

/-- An agent at its target has nothing to split. -/
theorem not_splits_of_eq (h : agent.tgtStorageArc = agent.curStorageArc) :
    ¬ Splits (Storable common theirs agent) agent.curStorageArc := by
  rintro ⟨a, b, harc, hwraps, ha, _, hlonger⟩
  have hab : ¬ a ≤ b := by omega
  have hcovers : ∀ i, Storable common theirs agent i → a ≤ i ∨ i ≤ b := by
    intro i hi
    have hcur := hi.2.2
    rw [h, harc, covers_sectorsArc_iff] at hcur
    simpa only [OnWalk, if_neg hab] using hcur
  simp only [walkLength, if_neg hab] at hlonger
  -- the sectors next to the current arc are not storable
  rcases hlonger with ⟨m, hstretch, hlt⟩ | ⟨m, hm, hstretch, hlt⟩
  · by_cases hlong : b + 1 ≤ m
    · have hnext := hcovers (b + 1) (hstretch _ (Nat.zero_le _) hlong)
      omega
    · omega
  · by_cases hlong : m ≤ a - 1
    · have hnext := hcovers (a - 1) (hstretch _ hlong (by omega))
      omega
    · omega

end Agent

/-! ## Sound growth -/

section Growth

variable {sharding : Bool} {loc : LocCb} {n : Nat} {t t' : Int} {us peer : Dht.DhtState}
  {common : ArcSet} {theirs : DhtSnapshot} {agent new : LocalAgent} {mismatched : List Nat}

/-- We hold all ops of the peer in the sector, as far as its slices cover time. -/
def HoldsOps (loc : LocCb) (t' : Int) (us peer : Dht.DhtState) (i : Nat) : Prop :=
  ∀ op ∈ peer.store.stored, HashPartition.sectorIndex loc sectorSize op = i →
    CoveredTime Dht.DhtState.timeFactor t' op.createdAt → op ∈ us.store.stored

/-- The current arc keeps what it had and stays inside the target, and what it gains is in the common
arcs and in sync; without sharding it only ever becomes full. -/
structure GrowsSoundly (sharding : Bool) (loc : LocCb) (t' : Int) (us peer : Dht.DhtState)
    (common : ArcSet) (old new : LocalAgent) : Prop where
  target : new.tgtStorageArc = old.tgtStorageArc
  keeps : ∀ x ≤ u32Max, old.curStorageArc.contains x = true → new.curStorageArc.contains x = true
  inside : ∀ x ≤ u32Max, new.curStorageArc.contains x = true → new.tgtStorageArc.contains x = true
  gained : ∀ x ≤ u32Max, new.curStorageArc.contains x = true →
    ¬ old.curStorageArc.contains x = true →
      x / sectorSize ∈ common.inner ∧ HoldsOps loc t' us peer (x / sectorSize)
  onlyFull : sharding = false →
    new.curStorageArc = old.curStorageArc ∨ new.curStorageArc = .full

/-- An agent whose arc stays as it is. -/
theorem WellPlaced.growsSoundly_self (h : WellPlaced agent) :
    GrowsSoundly sharding loc t' us peer common agent agent where
  target := rfl
  keeps := fun _ _ hin => hin
  inside := h.within
  gained := fun _ _ hin hout => absurd hin hout
  onlyFull := fun _ => Or.inl rfl

theorem sector_lt {x : Nat} (hx : x ≤ u32Max) : x / sectorSize < numSectors := by
  rw [numSectors_eq, sectorSize_eq]
  rw [u32Max_eq] at hx
  omega

theorem sector_start_le {i : Nat} (hi : i < numSectors) : i * sectorSize ≤ u32Max := by
  rw [u32Max_eq, sectorSize_eq]
  rw [numSectors_eq] at hi
  omega

/-- A picked arc grows soundly if it keeps the sectors of the current one. -/
theorem WellPlaced.growsSoundly (h : WellPlaced agent) {set : ArcSet} {arc : DhtArc}
    (hset : ∀ i, i ∈ set.inner ↔ Storable common theirs agent i)
    (hholds : ∀ i ∈ common.inner, ¬ ListsSector theirs i → HoldsOps loc t' us peer i)
    (hpick : pickArc sharding set.asArcs agent.curStorageArc = some arc)
    (hkeeps : ∀ i < numSectors, Covers agent.curStorageArc i → Covers arc i) :
    GrowsSoundly sharding loc t' us peer common agent (agent.setCurStorageArc arc).invokeCb := by
  have harc := pickArc_mem hpick
  have haligned := ArcSet.aligned_asArcs harc
  have hstorable : ∀ x ≤ u32Max, arc.contains x = true →
      Storable common theirs agent (x / sectorSize) := by
    intro x hx hin
    rw [haligned.contains_iff] at hin
    exact (hset _).mp ((ArcSet.covers_asArcs_iff (sector_lt hx)).mp ⟨arc, harc, hin⟩)
  refine ⟨rfl, ?_, ?_, ?_, ?_⟩
  · intro x hx hin
    rw [h.current.contains_iff] at hin
    exact haligned.contains_iff.mpr (hkeeps _ (sector_lt hx) hin)
  · intro x hx hin
    exact h.target.contains_iff.mpr (hstorable x hx hin).2.2
  · intro x hx hin hout
    rw [h.current.contains_iff] at hout
    rcases (hstorable x hx hin).2.1.resolve_right hout with ⟨hcommon, hunlisted⟩
    exact ⟨hcommon, hholds _ hcommon hunlisted⟩
  · rintro rfl
    exact Or.inr (pickArc_full hpick)

/-- What one pass of the loop does to an agent is sound unless its arc splits. -/
theorem WellPlaced.growsSoundly_iff (h : WellPlaced agent)
    (hm : mismatchedSectors theirs = some mismatched)
    (hholds : ∀ i ∈ common.inner, ¬ ListsSector theirs i → HoldsOps loc t' us peer i)
    (hnew : updateAgent sharding (common.withoutSectorIndices mismatched).asArcs agent = .ok new) :
    GrowsSoundly sharding loc t' us peer common agent new ↔
      ¬ (sharding = true ∧ Splits (Storable common theirs agent) agent.curStorageArc) := by
  rcases updateAgent_spec h hm with ⟨hat, hrun⟩ | ⟨set, hset, hrun⟩
  · cases Except.ok.inj (hrun.symm.trans hnew)
    exact ⟨fun _ hsplits => not_splits_of_eq hat hsplits.2, fun _ => h.growsSoundly_self⟩
  have hs : (fun i => i ∈ set.inner) = Storable common theirs agent :=
    funext fun i => propext (hset i)
  have hsub : ∀ i < numSectors, Covers agent.curStorageArc i → i ∈ set.inner := fun i hi hcovers =>
    (hset i).mpr ⟨hi, Or.inr hcovers, h.within _ (sector_start_le hi) hcovers⟩
  cases Except.ok.inj (hrun.symm.trans hnew)
  constructor
  · rintro hgrows ⟨rfl, hsplits⟩
    rw [← hs] at hsplits
    rcases pickArc_drops hsplits with ⟨arc, harc, i, hi, hcovers, hdropped⟩
    rw [harc] at hgrows
    exact hdropped (hgrows.keeps _ (sector_start_le hi) hcovers)
  · intro hsplits
    cases hpick : pickArc sharding set.asArcs agent.curStorageArc with
    | none => exact h.growsSoundly_self
    | some arc =>
        refine h.growsSoundly hset hholds hpick ?_
        intro i hi hcovers
        cases sharding with
        | false =>
            rw [pickArc_full hpick]
            exact ArcSet.covers_full hi
        | true =>
            have hne : agent.curStorageArc ≠ .empty := by
              intro heq
              rw [heq] at hcovers
              exact not_covers_empty i hcovers
            rcases pickArc_longer hpick hne with ⟨hspan, hoverlap⟩
            -- a longer run that overlaps an arc of one piece contains it
            refine covers_of_longer h.current hsub ?_ (pickArc_mem hpick) hspan hoverlap hi hcovers
            rw [hs]
            exact fun hsplit => hsplits ⟨rfl, hsplit⟩

end Growth

/-! ## All agents of a round -/

section Round

variable {sharding : Bool} {loc : LocCb} {n : Nat} {t t' : Int} {us peer : Dht.DhtState}
  {common : ArcSet} {theirs : DhtSnapshot} {action : DhtSnapshotNextAction}
  {agents : List LocalAgent} {mismatched : List Nat}

/-- The comparisons of a round are comparable, and about rings or of minimal snapshots. -/
theorem compared_comparable (h : Compared loc us peer common action theirs) :
    action ≠ .cannotCompare ∧ ∃ mismatched, mismatchedSectors theirs = some mismatched := by
  cases h with
  | accept hminimal _ =>
      refine ⟨fun heq => DhtSnapshotNextAction.noConfusion heq, ?_⟩
      unfold Dht.DhtState.snapshotMinimal at hminimal
      split at hminimal
      · cases hminimal
      rcases bind_eq_ok_iff.mp hminimal with ⟨_, _, hminimal⟩
      rcases bind_eq_ok_iff.mp hminimal with ⟨_, _, hminimal⟩
      cases hminimal
      exact ⟨_, rfl⟩
  | ringSectorDetailsDiff _ _ _ hne => exact ⟨hne, _, rfl⟩
  | ringSectorDetailsDiffResponse _ _ hpeer _ hne =>
      refine ⟨hne, ?_⟩
      rcases Dht.DhtState.handleSnapshot_answered hpeer with ⟨ours, hours, hanswer⟩
      cases hanswer with
      | listed =>
          rcases bind_eq_ok_iff.mp hours with ⟨_, _, hours⟩
          cases hours
          exact ⟨_, rfl⟩

/-- Aligned agents are all updated. -/
theorem updateAgents_updated (hm : mismatchedSectors theirs = some mismatched)
    (h : ∀ agent ∈ agents, WellPlaced agent) :
    List.Forall₂ (fun old new => WellPlaced old ∧
        updateAgent sharding (common.withoutSectorIndices mismatched).asArcs old = .ok new)
      agents
      (updateAgents sharding (common.withoutSectorIndices mismatched).asArcs agents).2 := by
  induction agents with
  | nil => exact .nil
  | cons agent agents ih =>
      have hagent := h agent List.mem_cons_self
      have hupdated : ∃ new,
          updateAgent sharding (common.withoutSectorIndices mismatched).asArcs agent = .ok new := by
        rcases updateAgent_spec hagent hm with ⟨_, hrun⟩ | ⟨_, _, hrun⟩
        · exact ⟨_, hrun⟩
        · exact ⟨_, hrun⟩
      rcases hupdated with ⟨new, hnew⟩
      unfold updateAgents
      rw [hnew]
      exact .cons ⟨hagent, hnew⟩ (ih fun a ha => h a (List.mem_cons_of_mem _ ha))

theorem forall₂_iff_forall_mem {α β : Type} {R S : α → β → Prop} {P : α → Prop} {l : List α}
    {l' : List β} (h : List.Forall₂ R l l') (hiff : ∀ a b, R a b → (S a b ↔ P a)) :
    List.Forall₂ S l l' ↔ ∀ a ∈ l, P a := by
  induction h with
  | nil => simp
  | cons hR _ ih => rw [List.forall₂_cons, List.forall_mem_cons, hiff _ _ hR, ih]

/-- After a comparison of a round the arcs of all agents have grown soundly, unless one of them
splits; without sharding they always have. -/
theorem storage_arcs_grow_soundly_iff (hn : 0 < n) (hus : us.Accurate loc t)
    (hpeer : peer.Accurate loc t') (hidsUs : IdsOfLength n us.store.stored)
    (hidsPeer : IdsOfLength n peer.store.stored)
    (htell : HashesTell loc Dht.DhtState.timeFactor t t' common us.store.stored peer.store.stored)
    (hcompared : Compared loc us peer common action theirs)
    (hagents : ∀ agent ∈ agents, WellPlaced agent) :
    List.Forall₂ (GrowsSoundly sharding loc t' us peer common) agents
        (K2Gossip.updateStorageArcs sharding action theirs agents common) ↔
      ∀ agent ∈ agents,
        ¬ (sharding = true ∧ Splits (Storable common theirs agent) agent.curStorageArc) := by
  rcases compared_comparable hcompared with ⟨hne, mismatched, hm⟩
  have hholds : ∀ i ∈ common.inner, ¬ ListsSector theirs i → HoldsOps loc t' us peer i :=
    fun i hi hout op hop hsector htime =>
      hcompared.holds hus hpeer hn hidsUs hidsPeer htell hi hout hop hsector htime
  unfold K2Gossip.updateStorageArcs updateStorageArcs
  rw [if_neg hne, hm]
  exact forall₂_iff_forall_mem (updateAgents_updated hm hagents) fun old new h =>
    h.1.growsSoundly_iff hm hholds h.2

/-! ## A node that compares with its like -/

/-- A node with one op, and a peer that holds the same. -/
theorem exists_compared (hcommon : common.coveredSectorCount ≠ 0) :
    ∃ d disc boundary rings, d.Accurate (fun _ => 0) 1800000000 ∧ IdsOfLength 1 d.store.stored ∧
      HashesTell (fun _ => 0) Dht.DhtState.timeFactor 1800000000 1800000000 common d.store.stored
        d.store.stored ∧
      Compared (fun _ => 0) d d common .identical (.minimal disc boundary rings) := by
  rcases Dht.DhtState.exists_peers 1 with ⟨d, _, hpeers, _, _⟩
  have hminimal := hpeers.left.snapshotMinimal_ok hpeers.leftIds hcommon
  have hidentical := hpeers.left.handle_minimal hpeers.leftIds hcommon d.store.stored 0
  rw [if_pos rfl] at hidentical
  exact ⟨d, _, _, _, hpeers.left, hpeers.leftIds, ⟨fun _ _ => Iff.rfl, fun _ _ _ _ _ => Iff.rfl⟩,
    .accept hminimal hidentical⟩

/-- Every aligned arc lies inside the full one. -/
theorem wellPlaced_full {arc : DhtArc} (h : Aligned arc) (callbacks : Nat) :
    WellPlaced ⟨arc, .full, callbacks⟩ where
  current := h
  target := ArcSet.aligned_full
  within := fun _ hx _ => ArcSet.aligned_full.contains_iff.mpr (ArcSet.covers_full (sector_lt hx))

theorem not_listsSector_minimal {disc : Bytes} {boundary : Int} {rings : List Bytes} {i : Nat} :
    ¬ ListsSector (.minimal disc boundary rings) i := by
  rintro ⟨_, _, heq, _⟩
  cases heq

/-- Once everything is synced, both an arc that wraps and one that does not grow to the target. -/
theorem storage_arcs_grow_when_all_synced :
    ∃ d theirs, Compared (fun _ => 0) d d ArcSet.full .identical theirs ∧
      List.Forall₂ (GrowsSoundly true (fun _ => 0) 1800000000 d d ArcSet.full)
        [⟨sectorsArc 3 5, .full, 0⟩, ⟨sectorsArc 510 2, .full, 0⟩]
        (K2Gossip.updateStorageArcs true .identical theirs
          [⟨sectorsArc 3 5, .full, 0⟩, ⟨sectorsArc 510 2, .full, 0⟩] ArcSet.full) := by
  have hcommon : ArcSet.full.coveredSectorCount ≠ 0 := by
    simp [ArcSet.coveredSectorCount, ArcSet.full, numSectors_eq]
  rcases exists_compared hcommon with ⟨d, disc, boundary, rings, hacc, hids, htell, hcompared⟩
  refine ⟨d, _, hcompared, (storage_arcs_grow_soundly_iff (by decide) hacc hacc hids hids htell
    hcompared ?_).mpr ?_⟩
  · intro agent hagent
    rcases List.mem_pair.mp hagent with rfl | rfl
    · exact wellPlaced_full (.walk (by decide) (by decide)) 0
    · exact wellPlaced_full (.walk (by decide) (by decide)) 0
  · -- every sector is storable
    rintro agent hagent ⟨_, _, _, _, _, _, ⟨i, hi, hout⟩, _⟩
    have htarget : agent.tgtStorageArc = .full := by
      rcases List.mem_pair.mp hagent with rfl | rfl <;> rfl
    refine hout ⟨hi, Or.inl ⟨Finset.mem_range.mpr hi, not_listsSector_minimal⟩, ?_⟩
    rw [htarget]
    exact ArcSet.covers_full hi

/-- The sectors up to the one with index 200. -/
def firstSectors : ArcSet where
  inner := Finset.range 201
  bounded := fun i hi => lt_trans (Finset.mem_range.mp hi) (by decide)

theorem storable_firstSectors_iff {disc : Bytes} {boundary : Int} {rings : List Bytes} {i : Nat} :
    Storable firstSectors (.minimal disc boundary rings) ⟨sectorsArc 510 2, .full, 0⟩ i ↔
      i ≤ 200 ∨ (510 ≤ i ∧ i < 512) := by
  have hmem : i ∈ firstSectors.inner ↔ i ≤ 200 := by
    simp [firstSectors, Nat.lt_succ_iff]
  unfold Storable
  rw [hmem, covers_sectorsArc_iff, numSectors_eq]
  simp only [not_listsSector_minimal, not_false_eq_true, and_true, OnWalk]
  constructor
  · rintro ⟨hi, hin, _⟩
    rcases hin with hlow | hcur
    · exact Or.inl hlow
    · simp at hcur
      omega
  · intro hin
    have hi : i < 512 := by omega
    refine ⟨hi, ?_, ArcSet.covers_full (lt_of_lt_of_eq hi numSectors_eq.symm)⟩
    simp
    omega

/-- Of the arcs of these sectors only the one at the start of the ring is long enough. -/
theorem pickArc_firstSectors {set : ArcSet}
    (hset : ∀ i, i ∈ set.inner ↔ i ≤ 200 ∨ (510 ≤ i ∧ i < 512)) :
    pickArc true set.asArcs (sectorsArc 510 2) = some (sectorsArc 0 200) := by
  have hgap : 201 ∉ set.inner := by
    rw [hset]
    decide
  have hsplit : Splits (fun i => i ∈ set.inner) (sectorsArc 510 2) :=
    ⟨510, 2, rfl, by decide, by decide, ⟨201, by decide, hgap⟩,
      Or.inl ⟨200, fun i _ hhigh => (hset i).mpr (Or.inl hhigh), by decide⟩⟩
  rcases pickArc_drops hsplit with ⟨arc, hpick, _⟩
  have hmem := pickArc_mem hpick
  have hspan := (pickArc_longer hpick fun h => DhtArc.noConfusion h).1
  rw [ArcSet.mem_asArcs_iff, if_neg (card_ne_of_not_mem (by decide) hgap)] at hmem
  rcases hmem with ⟨first, last, hmax, rfl⟩
  rcases ArcSet.maximalRun_bounded hmax with ⟨hle, hlast⟩
  rw [arcSpan_lt_iff (by decide) (lt_of_le_of_lt hle hlast)] at hspan
  have hlength : 5 < last + 1 - first := by
    simpa [walkLength, hle, numSectors_eq] using hspan
  rw [numSectors_eq] at hlast
  have hfirst := (hset first).mp hmax.first_mem
  -- the run ends before the gap, and goes as far as it can on both sides
  have hbefore : last < 201 := by
    by_contra hafter
    exact hgap (hmax.stretch 201 (by omega) (by omega))
  have hstop : last = 200 := by
    by_contra hne
    exact hmax.right ((hset _).mpr (Or.inl (by omega)))
  have hstart : first = 0 := by
    by_contra hne
    exact hmax.left (first - 1) (by omega) ((hset _).mpr (Or.inl (by omega)))
  rw [hpick, hstop, hstart]

/-- An agent that stores the last two sectors and the first three loses the last two once the sectors
up to 200 are synced. -/
theorem storage_arc_loses_last_sectors :
    ∃ d theirs, d.Accurate (fun _ => 0) 1800000000 ∧ IdsOfLength 1 d.store.stored ∧
      HashesTell (fun _ => 0) Dht.DhtState.timeFactor 1800000000 1800000000 firstSectors d.store.stored
        d.store.stored ∧
      Compared (fun _ => 0) d d firstSectors .identical theirs ∧
      WellPlaced ⟨sectorsArc 510 2, .full, 0⟩ ∧
      K2Gossip.updateStorageArcs true .identical theirs [⟨sectorsArc 510 2, .full, 0⟩]
          firstSectors = [⟨sectorsArc 0 200, .full, 1⟩] ∧
      ¬ List.Forall₂ (GrowsSoundly true (fun _ => 0) 1800000000 d d firstSectors)
        [⟨sectorsArc 510 2, .full, 0⟩] [⟨sectorsArc 0 200, .full, 1⟩] := by
  have hcommon : firstSectors.coveredSectorCount ≠ 0 := by
    simp [ArcSet.coveredSectorCount, firstSectors]
  have hplaced : WellPlaced ⟨sectorsArc 510 2, .full, 0⟩ :=
    wellPlaced_full (.walk (by decide) (by decide)) 0
  rcases exists_compared hcommon with ⟨d, disc, boundary, rings, hacc, hids, htell, hcompared⟩
  refine ⟨d, _, hacc, hids, htell, hcompared, hplaced, ?_, ?_⟩
  · have hspec := @updateAgent_spec true firstSectors (.minimal disc boundary rings)
      ⟨sectorsArc 510 2, .full, 0⟩ [] hplaced rfl
    rcases hspec with ⟨hat, _⟩ | ⟨set, hset, hrun⟩
    · exact absurd hat (by decide)
    · have hpick := pickArc_firstSectors fun i => (hset i).trans storable_firstSectors_iff
      rw [hpick] at hrun
      unfold K2Gossip.updateStorageArcs updateStorageArcs mismatchedSectors
      rw [if_neg (fun h => DhtSnapshotNextAction.noConfusion h)]
      simp only [updateAgents, hrun]
      rfl
  -- the last location was in the old arc and is not in the new one
  · intro hgrows
    have hkeeps := (List.forall₂_cons.mp hgrows).1.keeps u32Max (le_refl _)
    exact absurd (hkeeps (by decide)) (by decide)

end Round

end StorageArc
end Gossip
end Kitsune2
