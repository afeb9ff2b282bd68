import Kitsune2.Dht.Completeness
import Kitsune2.Dht.ExactDiff

/-!
# SyncedSectors — what a snapshot of the rings says by leaving a sector out

Two nodes that reach the details of the rings have found their discs equal, and a node lists a sector
in the details of a ring if it holds an op there.  So in a sector of the common arcs that the peer
does not list, everything the peer holds in the time that its slices cover is held by the other node
too: the ring was not asked about and hence equal, or the peer has nothing in it.

The clocks of the nodes may differ; the rings of the two are compared by their index.
-/

namespace Kitsune2
namespace Dht

open Api Lib
open Std (ExtTreeMap)

/-- A snapshot of ring details lists a sector. -/
def ListsSector (snapshot : DhtSnapshot) (i : Nat) : Prop :=
  ∃ hashes boundary, snapshot = .ringSectorDetails hashes boundary ∧
    ∃ (ring : Nat) (sectors : ExtTreeMap Nat Bytes), hashes[ring]? = some sectors ∧ i ∈ sectors

/-! ## Equal hashes -/

section Hashes

variable {loc : LocCb} {f : Nat} {t t' : Int} {arcSet : ArcSet} {a b : List StoredOp}

/-- If the hash of a region on one side is that of a region on the other, they hold the same ops. -/
def TellsApart (p q : StoredOp → Bool) (a b : List StoredOp) : Prop :=
  regionXor a p = regionXor b q → ∀ op, (op ∈ a ∧ p op = true) ↔ (op ∈ b ∧ q op = true)

/-- The combined hashes of the regions that two nodes compare agree only for equal sets of ops. -/
structure HashesTell (loc : LocCb) (f : Nat) (t t' : Int) (arcSet : ArcSet) (a b : List StoredOp) :
    Prop where
  disc : TellsApart (discRegion loc f t arcSet) (discRegion loc f t' arcSet) a b
  ring : ∀ r, r < (slotsAt f t).length → r < (slotsAt f t').length →
    TellsApart (ringRegion loc arcSet (slotAt f t r))
      (ringRegion loc arcSet (slotAt f t' r)) a b

/-- Two nodes agree on the disc and on every ring but the given ones. -/
structure AgreeBut (loc : LocCb) (f : Nat) (t t' : Int) (arcSet : ArcSet) (a b : List StoredOp)
    (rings : List Nat) : Prop where
  disc : regionXor a (discRegion loc f t arcSet) =
    regionXor b (discRegion loc f t' arcSet)
  count : (slotsAt f t).length = (slotsAt f t').length
  inRange : ∀ r ∈ rings, r < (slotsAt f t).length
  ring : ∀ r < (slotsAt f t).length, r ∉ rings →
    ringXor loc a arcSet (slotAt f t r) = ringXor loc b arcSet (slotAt f t' r)

theorem AgreeBut.symm {rings : List Nat} (h : AgreeBut loc f t t' arcSet a b rings) :
    AgreeBut loc f t' t arcSet b a rings where
  disc := h.disc.symm
  count := h.count.symm
  inRange := fun r hr => lt_of_lt_of_eq (h.inRange r hr) h.count
  ring := fun r hr hout => (h.ring r (lt_of_lt_of_eq hr h.count.symm) hout).symm

theorem getElem?_map_slotAt {β : Type} {f r : Nat} (g : Int × Nat → β) (hr : r < (slotsAt f t).length) :
    ((slotsAt f t).map g)[r]? = some (g (slotAt f t r)) := by
  simp [slotAt, hr]

theorem agreeBut_of_eq
    (h : minimalOf loc f t arcSet a = minimalOf loc f t' arcSet b) :
    AgreeBut loc f t t' arcSet a b [] := by
  unfold minimalOf at h
  rcases DhtSnapshot.minimal.injEq _ _ _ _ _ _ ▸ h with ⟨hdisc, _, hrings⟩
  have hcount : (slotsAt f t).length = (slotsAt f t').length := by
    simpa using congrArg List.length hrings
  refine ⟨hdisc, hcount, fun r hr => absurd hr List.not_mem_nil, ?_⟩
  intro r hr _
  have hget := congrArg (fun l => l[r]?) hrings
  simp only [getElem?_map_slotAt _ hr, getElem?_map_slotAt _ (lt_of_lt_of_eq hr hcount)] at hget
  exact Option.some.inj hget

/-- Comparing two minimal snapshots reports the rings that do not agree. -/
theorem agreeBut_of_ringMismatches (hf : f ≤ 53) {rings : List Nat}
    (h : (minimalOf loc f t arcSet a).compare (minimalOf loc f t' arcSet b) =
      .ringMismatches rings) :
    AgreeBut loc f t t' arcSet a b rings := by
  unfold DhtSnapshot.compare minimalOf at h
  split at h
  · cases h
  simp only at h
  split at h
  · cases h
  split at h
  · cases h
  rename_i hdisc
  split at h
  · cases h
  rename_i hlen
  have hcount : (slotsAt f t).length = (slotsAt f t').length := by
    simpa using hlen
  -- there are far fewer than 2 ^ 32 rings, so what is reported are positions
  have hmem : ∀ r, r ∈ rings ↔ r < (slotsAt f t).length ∧
      ((slotsAt f t).map (ringXor loc a arcSet))[r]? ≠
        ((slotsAt f t').map (ringXor loc b arcSet))[r]? := by
    intro r
    have hfits := length_slotsAt_le f hf t
    rw [← SnapshotDiff.ringMismatches.inj h, mem_hashMismatchIndices_iff (not_not.mp hlen)
      (by simpa using hfits), List.length_map]
  refine ⟨not_not.mp hdisc, hcount, fun r hr => ((hmem r).mp hr).1, ?_⟩
  intro r hr hout
  by_contra hne
  refine hout ((hmem r).mpr ⟨hr, ?_⟩)
  rw [getElem?_map_slotAt _ hr, getElem?_map_slotAt _ (lt_of_lt_of_eq hr hcount)]
  exact fun heq => hne (Option.some.inj heq)

/-- The times that the full and partial slices of a DHT cover. -/
def CoveredTime (f : Nat) (t x : Int) : Prop :=
  (0 ≤ x ∧ x < boundaryAt f t) ∨
    ∃ slot ∈ slotsAt f t, slot.1 ≤ x ∧ x < slot.1 + slotLen slot.2

/-- An empty hash of a sector in a ring means that there is no op. -/
theorem not_inSlot_of_slotXor_nil {n i : Nat} (hn : 0 < n) (hids : IdsOfLength n b)
    {slot : Int × Nat} (hnil : slotXor loc (sectorArc i) b slot = []) {op : StoredOp} (hop : op ∈ b)
    (hsector : HashPartition.sectorIndex loc sectorSize op = i) :
    ¬ (slot.1 ≤ op.createdAt ∧ op.createdAt < slot.1 + slotLen slot.2) := by
  rintro ⟨hlow, hhigh⟩
  have hin : inSlice loc (sectorArc i) slot.1 (slot.1 + slotLen slot.2) op = true := by
    unfold inSlice
    rw [← contains_sectorArc_eq]
    simp [hlow, hhigh, hsector]
  have hid : op.opId = [] :=
    xorAll_eq_nil_iff.mp hnil _ (List.mem_map.mpr ⟨op, List.mem_filter.mpr ⟨hop, hin⟩, rfl⟩)
  have hlen := hids op hop
  rw [hid] at hlen
  exact absurd hlen (ne_of_lt hn)

/-- Where the nodes agree but on some rings, and the peer has nothing of the sector in those, all
covered ops of the peer are held. -/
theorem AgreeBut.holds {rings : List Nat} {n i : Nat} (h : AgreeBut loc f t t' arcSet a b rings)
    (htell : HashesTell loc f t t' arcSet a b) (hn : 0 < n) (hids : IdsOfLength n b)
    (hi : i ∈ arcSet.inner)
    (hnil : ∀ r ∈ rings, slotXor loc (sectorArc i) b (slotAt f t' r) = []) {op : StoredOp}
    (hop : op ∈ b) (hsector : HashPartition.sectorIndex loc sectorSize op = i)
    (htime : CoveredTime f t' op.createdAt) : op ∈ a := by
  have hmem : HashPartition.sectorIndex loc sectorSize op ∈ arcSet.sectors := by
    rw [hsector]
    exact ArcSet.mem_sectors_iff.mpr hi
  rcases htime with hdisc | ⟨slot, hslot, hbounds⟩
  · exact ((htell.disc h.disc op).mpr ⟨hop, inArcs_iff.mpr ⟨hdisc, hmem⟩⟩).1
  · rcases List.getElem?_of_mem hslot with ⟨r, hr⟩
    have hlt' : r < (slotsAt f t').length := (List.getElem?_eq_some_iff.mp hr).1
    have hlt : r < (slotsAt f t).length := lt_of_lt_of_eq hlt' h.count.symm
    have hat : slotAt f t' r = slot := by
      unfold slotAt
      rw [hr, Option.getD_some]
    rw [← hat] at hbounds
    by_cases hring : r ∈ rings
    · exact absurd hbounds (not_inSlot_of_slotXor_nil hn hids (hnil r hring) hop hsector)
    · have hsame := h.ring r hlt hring
      exact ((htell.ring r hlt hlt' hsame op).mpr ⟨hop, inArcs_iff.mpr ⟨hbounds, hmem⟩⟩).1

/-- A ring that is listed without the sector has no op in it. -/
theorem slotXor_nil_of_unlisted {rings : List Nat} {i r : Nat} {boundary : Int}
    (hi : i ∈ arcSet.inner)
    (hout : ¬ ListsSector (.ringSectorDetails (ringDetailMap loc f t arcSet b rings) boundary) i)
    (hr : r ∈ rings) : slotXor loc (sectorArc i) b (slotAt f t r) = [] := by
  have hget : (ringDetailMap loc f t arcSet b rings)[r]? = some (ringMap loc f t b arcSet r) := by
    unfold ringDetailMap
    rw [getElem?_insertAll, if_pos hr, Option.some_or]
  by_contra hne
  refine hout ⟨_, _, rfl, r, _, hget, ?_⟩
  rw [ExtTreeMap.mem_iff_isSome_getElem?, getElem?_ringMap, if_pos (ArcSet.mem_sectors_iff.mpr hi)]
  simp [optHash, hne]

end Hashes

/-! ## Answers -/

namespace DhtState

section Answers

variable {loc : LocCb} {d : DhtState} {arcSet : ArcSet} {ours theirs : DhtSnapshot}

/-- What `handle_snapshot` answers after it has compared our snapshot with theirs. -/
inductive Answered (d : DhtState) (arcSet : ArcSet) (ours theirs : DhtSnapshot) :
    DhtSnapshotNextAction → Prop
  | identical : ours.compare theirs = .identical → Answered d arcSet ours theirs .identical
  | cannotCompare :
      ours.compare theirs = .cannotCompare → Answered d arcSet ours theirs .cannotCompare
  | discSectors {s : DhtSnapshot} :
      ours.compare theirs = .discMismatch → d.snapshotDiscSectors arcSet = .ok s →
      Answered d arcSet ours theirs (.newSnapshot s)
  | discDetails {sectors : List Nat} {s : DhtSnapshot} :
      ours.compare theirs = .discSectorMismatches sectors →
      d.snapshotDiscSectorDetails sectors arcSet = .ok s →
      Answered d arcSet ours theirs (.newSnapshot s)
  | ringDetails {rings : List Nat} {s : DhtSnapshot} :
      ours.compare theirs = .ringMismatches rings →
      d.snapshotRingSectorDetails rings arcSet = .ok s →
      Answered d arcSet ours theirs (.newSnapshot s)
  | listed {opIds : List Bytes} :
      Answered d arcSet ours theirs (.newSnapshotAndHashList ours opIds)
  | finished {opIds : List Bytes} : Answered d arcSet ours theirs (.hashList opIds)

theorem answered_finishList (d : DhtState) (arcSet : ArcSet) (ours theirs : DhtSnapshot)
    (isFinal : Bool) (found : Collected) :
    Answered d arcSet ours theirs (finishList isFinal ours found).1 := by
  cases isFinal with
  | false => exact .listed
  | true => exact .finished

theorem handleSnapshot_answered {prev : Option DhtSnapshot} {budget : Int}
    {action : DhtSnapshotNextAction} {used : Nat}
    (h : d.handleSnapshot loc theirs prev arcSet budget = .ok (action, used)) :
    ∃ ours, d.matchingSnapshot theirs prev arcSet = .ok ours ∧
      Answered d arcSet ours theirs action := by
  unfold handleSnapshot at h
  split at h
  · cases h
  rcases bind_eq_ok_iff.mp h with ⟨ours, hours, h⟩
  refine ⟨ours, hours, ?_⟩
  cases hcompare : ours.compare theirs with
  | identical =>
      rw [hcompare] at h
      cases h
      exact .identical hcompare
  | cannotCompare =>
      rw [hcompare] at h
      cases h
      exact .cannotCompare hcompare
  | discMismatch =>
      rw [hcompare] at h
      rcases bind_eq_ok_iff.mp h with ⟨s, hs, h⟩
      cases h
      exact .discSectors hcompare hs
  | discSectorMismatches sectors =>
      rw [hcompare] at h
      rcases bind_eq_ok_iff.mp h with ⟨s, hs, h⟩
      cases h
      exact .discDetails hcompare hs
  | ringMismatches rings =>
      rw [hcompare] at h
      rcases bind_eq_ok_iff.mp h with ⟨s, hs, h⟩
      cases h
      exact .ringDetails hcompare hs
  -- the ids that were found do not matter for the kind of the answer
  | discSectorSliceMismatches slices =>
      rw [hcompare] at h
      rcases bind_eq_ok_iff.mp h with ⟨found, _, h⟩
      have hanswer := answered_finishList d arcSet ours theirs ((prev.map isDetails).getD false) found
      rw [Except.ok.inj h] at hanswer
      exact hanswer
  | ringSectorMismatches sectors =>
      rw [hcompare] at h
      rcases bind_eq_ok_iff.mp h with ⟨found, _, h⟩
      have hanswer := answered_finishList d arcSet ours theirs ((prev.map isDetails).getD false) found
      rw [Except.ok.inj h] at hanswer
      exact hanswer

end Answers

/-! ## Comparisons of a round -/

/-- The comparisons of a round after which a node looks at its storage arcs, with the answer of
`handle_snapshot` and the snapshot of the peer that was compared. -/
inductive Compared (loc : LocCb) (us peer : DhtState) (arcSet : ArcSet) :
    DhtSnapshotNextAction → DhtSnapshot → Prop
  /-- Our peer accepts with its minimal snapshot. -/
  | accept {theirs : DhtSnapshot} {used : Nat} :
      peer.snapshotMinimal arcSet = .ok theirs →
      us.handleSnapshot loc theirs none arcSet 0 = .ok (.identical, used) →
      Compared loc us peer arcSet .identical theirs
  /-- Our peer has compared our minimal snapshot and sends the details of the rings that differ. -/
  | ringSectorDetailsDiff {minimal : DhtSnapshot} {hashes : NestedHashes} {boundary budget : Int}
      {action : DhtSnapshotNextAction} {used used' : Nat} :
      us.snapshotMinimal arcSet = .ok minimal →
      peer.handleSnapshot loc minimal none arcSet 0 =
        .ok (.newSnapshot (.ringSectorDetails hashes boundary), used) →
      us.handleSnapshot loc (.ringSectorDetails hashes boundary) none arcSet budget =
        .ok (action, used') →
      action ≠ .cannotCompare →
      Compared loc us peer arcSet action (.ringSectorDetails hashes boundary)
  /-- Our peer answers the details that we have sent with its own. -/
  | ringSectorDetailsDiffResponse {minimal theirs : DhtSnapshot} {hashes : NestedHashes}
      {boundary budget budget' : Int} {opIds : List Bytes} {action : DhtSnapshotNextAction}
      {used used' used'' : Nat} :
      peer.snapshotMinimal arcSet = .ok minimal →
      us.handleSnapshot loc minimal none arcSet 0 =
        .ok (.newSnapshot (.ringSectorDetails hashes boundary), used) →
      peer.handleSnapshot loc (.ringSectorDetails hashes boundary) none arcSet budget =
        .ok (.newSnapshotAndHashList theirs opIds, used') →
      us.handleSnapshot loc theirs (some (.ringSectorDetails hashes boundary)) arcSet budget' =
        .ok (action, used'') →
      action ≠ .cannotCompare →
      Compared loc us peer arcSet action theirs

section Compared

variable {loc : LocCb} {n : Nat} {t t' : Int} {us peer d : DhtState} {arcSet : ArcSet}
  {b : List StoredOp} {theirs : DhtSnapshot}

/-- The minimal snapshot of an accurate DHT, if there is one. -/
theorem Accurate.minimal_eq (h : d.Accurate loc t) (hids : IdsOfLength n d.store.stored)
    (hrun : d.snapshotMinimal arcSet = .ok theirs) :
    arcSet.coveredSectorCount ≠ 0 ∧ theirs = minimalOf loc timeFactor t arcSet d.store.stored := by
  have harcs : arcSet.coveredSectorCount ≠ 0 := by
    intro hzero
    unfold snapshotMinimal at hrun
    rw [if_pos hzero] at hrun
    cases hrun
  have hours : d.snapshotMinimal arcSet = .ok (minimalOf loc timeFactor t arcSet d.store.stored) :=
    h.snapshotMinimal_ok hids harcs
  rw [hours] at hrun
  exact ⟨harcs, (Except.ok.inj hrun).symm⟩

theorem Accurate.agree_of_identical (h : d.Accurate loc t) (hids : IdsOfLength n d.store.stored)
    {budget : Int} {used : Nat}
    (hrun : d.handleSnapshot loc (minimalOf loc timeFactor t' arcSet b) none arcSet budget =
      .ok (.identical, used)) : AgreeBut loc timeFactor t t' arcSet d.store.stored b [] := by
  rcases handleSnapshot_answered hrun with ⟨ours, hours, hanswer⟩
  cases (h.minimal_eq hids hours).2
  cases hanswer with
  | identical hcompare => exact agreeBut_of_eq (DhtSnapshot.compare_eq_identical_iff.mp hcompare)

/-- An answer with details of rings is about all rings on which the nodes do not agree. -/
theorem Accurate.agree_of_ringDetails (h : d.Accurate loc t) (hids : IdsOfLength n d.store.stored)
    {budget boundary : Int} {used : Nat} {hashes : NestedHashes}
    (hrun : d.handleSnapshot loc (minimalOf loc timeFactor t' arcSet b) none arcSet budget =
      .ok (.newSnapshot (.ringSectorDetails hashes boundary), used)) :
    ∃ rings, AgreeBut loc timeFactor t t' arcSet d.store.stored b rings ∧
      hashes = ringDetailMap loc timeFactor t arcSet d.store.stored rings := by
  rcases handleSnapshot_answered hrun with ⟨ours, hours, hanswer⟩
  rcases h.minimal_eq hids hours with ⟨harcs, rfl⟩
  cases hanswer with
  | discSectors _ hs =>
      rcases bind_eq_ok_iff.mp hs with ⟨_, _, hs⟩
      cases hs
  | discDetails _ hs =>
      rcases bind_eq_ok_iff.mp hs with ⟨_, _, hs⟩
      cases hs
  | @ringDetails rings _ hcompare hs =>
      have hagree := agreeBut_of_ringMismatches timeFactor_le hcompare
      rw [h.ringDetails_ok harcs (fun r => Iff.rfl) hagree.inRange] at hs
      cases hs
      exact ⟨rings, hagree, rfl⟩

/-- In a sector that the peer does not list, we hold what it holds. -/
theorem Compared.holds {action : DhtSnapshotNextAction}
    (h : Compared loc us peer arcSet action theirs) (hus : us.Accurate loc t)
    (hpeer : peer.Accurate loc t') (hn : 0 < n) (hidsUs : IdsOfLength n us.store.stored)
    (hidsPeer : IdsOfLength n peer.store.stored)
    (htell : HashesTell loc timeFactor t t' arcSet us.store.stored peer.store.stored) {i : Nat}
    (hi : i ∈ arcSet.inner) (hout : ¬ ListsSector theirs i) {op : StoredOp}
    (hop : op ∈ peer.store.stored) (hsector : HashPartition.sectorIndex loc sectorSize op = i)
    (htime : CoveredTime timeFactor t' op.createdAt) : op ∈ us.store.stored := by
  have hsettles : ∃ rings, AgreeBut loc timeFactor t t' arcSet us.store.stored peer.store.stored rings ∧
      ∀ r ∈ rings, slotXor loc (sectorArc i) peer.store.stored (slotAt timeFactor t' r) = [] := by
    cases h with
    | accept hminimal hrun =>
        rcases hpeer.minimal_eq hidsPeer hminimal with ⟨_, rfl⟩
        exact ⟨[], hus.agree_of_identical hidsUs hrun, fun r hr => absurd hr List.not_mem_nil⟩
    | ringSectorDetailsDiff hminimal hpeerRun _ _ =>
        rcases hus.minimal_eq hidsUs hminimal with ⟨_, rfl⟩
        rcases hpeer.agree_of_ringDetails hidsPeer hpeerRun with ⟨rings, hagree, rfl⟩
        exact ⟨rings, hagree.symm, fun r hr => slotXor_nil_of_unlisted hi hout hr⟩
    | ringSectorDetailsDiffResponse hminimal hrun hpeerRun _ _ =>
        rcases hpeer.minimal_eq hidsPeer hminimal with ⟨harcs, rfl⟩
        rcases hus.agree_of_ringDetails hidsUs hrun with ⟨rings, hagree, rfl⟩
        rcases handleSnapshot_answered hpeerRun with ⟨ours, hours, hanswer⟩
        cases hanswer with
        | listed =>
            -- the peer lists the rings that we have asked about
            have hkeys : ∀ r, r ∈ (ringDetailMap loc timeFactor t arcSet us.store.stored rings).keys ↔
                r ∈ rings := fun r => ExtTreeMap.mem_keys.trans mem_insertAll_iff
            have hdetails := hpeer.ringDetails_ok harcs hkeys hagree.symm.inRange
            cases Except.ok.inj (hours.symm.trans hdetails)
            exact ⟨rings, hagree, fun r hr => slotXor_nil_of_unlisted hi hout hr⟩
  rcases hsettles with ⟨rings, hagree, hnil⟩
  exact hagree.holds htell hn hidsPeer hi hnil hop hsector htime

end Compared

end DhtState

end Dht
end Kitsune2
