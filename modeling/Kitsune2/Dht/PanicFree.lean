import Kitsune2.Dht.AgreedArcs
import Kitsune2.Dht.Differences
import Kitsune2.Dht.Uniform

/-!
# PanicFree — which snapshots are answered without a panic

Every index of a snapshot is checked before it is used, in the helpers that look a sector or a slice
up.  The check of a ring lets the number of rings itself through, and the lookup behind it panics.
Where both details have been computed by a current DHT no such ring is left; but our previous
details are used again as they are, and the rings may have become fewer since.
-/

namespace Kitsune2
namespace Dht

open Api Lib
open Std (ExtTreeMap)

variable {loc : LocCb} {n : Nat} {t : Int}

/-- Any fault but a panic. -/
def Reported (e : Fault) : Prop :=
  ∀ reason, e ≠ .panicked reason

theorem reported_k2 (reason : String) : Reported (.k2 reason) :=
  nofun

/-! ## Hashes of one length combine -/

theorem combineNonEmpty_meets {combined hash : Bytes} (h : HashOfLength n combined)
    (hhash : HashOfLength n hash) :
    Meets (HashOfLength n) Reported (HashPartition.combineNonEmpty combined hash) := by
  unfold HashPartition.combineNonEmpty
  by_cases hnil : hash = []
  · rw [if_pos hnil]
    exact Meets.ok h
  · have hlen : hash.length = n := hhash.resolve_left hnil
    have hok := combineHashes_ok h hlen
    rw [if_neg hnil, hok]
    exact Meets.ok (h.combined hlen hok)

/-- The hash of all full slices of a sector. -/
theorem Uniform.topHash_meets {arc : DhtArc} {tp : TimePartition} {st : OpStore}
    (hshape : Shape timeFactor arc tp) (h : Uniform n arc { part := tp, store := st }) :
    Meets (HashOfLength n) Reported (tp.fullTimeSliceTopHash st) := by
  have hall : ∀ hash ∈ (tp.fullTimeSliceHashes st).map (fun e => e.2), hash.length = n := by
    intro hash hmem
    rcases List.mem_map.mp hmem with ⟨e, he, rfl⟩
    unfold TimePartition.fullTimeSliceHashes at he
    rw [hshape.sectorConstraint] at he
    exact h.slices e.1 e.2 (ExtTreeMap.mem_toList_iff_getElem?_eq_some.mp he)
  unfold TimePartition.fullTimeSliceTopHash
  rw [combineOpHashes_ok hall]
  exact Meets.ok (length_xorAll hall)

namespace DhtState

variable {d : DhtState} {arcSet : ArcSet} {e : TimePartition × Nat}

/-! ## Our own snapshots -/

/-- A snapshot of rings has no ring but those of the DHT. -/
def OwnRings (t : Int) (s : DhtSnapshot) : Prop :=
  ∀ hashes boundary, s = .ringSectorDetails hashes boundary → ∀ r ∈ hashes, r < ringCount t

section Snapshots

variable (h : Regular timeFactor n t d.env)
include h

theorem included_regular (he : e ∈ d.partition.includedSectors arcSet) :
    RegularSector timeFactor n t e.2 { part := e.1, store := d.store } := by
  have hget : d.env.partition.sectors[e.2]? = some e.1 := mem_includedSectors he
  exact h.sector e.2 e.1 hget

theorem included_topHash (he : e ∈ d.partition.includedSectors arcSet) :
    Meets (HashOfLength n) Reported (e.1.fullTimeSliceTopHash d.store) := by
  rcases included_regular h he with ⟨hlaid, huni⟩
  exact huni.topHash_meets hlaid.shape

theorem included_ringHash (he : e ∈ d.partition.includedSectors arcSet) (ring : Nat) :
    HashOfLength n (e.1.partialSliceHashes[ring]?.getD []) := by
  unfold TimePartition.partialSliceHashes
  rw [List.getElem?_map]
  cases hget : e.1.partialSlices[ring]? with
  | none => exact Or.inl rfl
  | some p => exact (included_regular h he).2.partials p (List.mem_of_getElem? hget)

/-- Only the rings of the DHT have hashes. -/
theorem included_partialSliceHash (he : e ∈ d.partition.includedSectors arcSet) (ring : Nat) :
    Meets (fun _ => ring < ringCount t) Reported (e.1.partialSliceHash ring) := by
  have hlen : e.1.partialSlices.length = ringCount t := by
    rw [ringCount, ← (included_regular h he).1.slots, List.length_map]
  unfold TimePartition.partialSliceHash
  cases hget : e.1.partialSlices[ring]? with
  | none => exact Meets.error (reported_k2 _)
  | some p =>
      refine Meets.ok ?_
      rw [← hlen]
      exact (List.getElem?_eq_some_iff.mp hget).1

theorem boundary_meets : Meets (fun _ => True) Reported d.partition.fullSliceEndTimestamp := by
  rw [LaidOutAt.boundary h.laidOut]
  exact Meets.ok trivial

theorem snapshotMinimal_meets :
    Meets (OwnRings t) Reported (d.snapshotMinimal arcSet) := by
  have hdisc : Meets (fun _ => True) Reported (d.partition.discTopHash arcSet d.store) := by
    refine (foldlM_meets (K := HashOfLength n) _ [] (Or.inl rfl) ?_).bind fun _ _ => ?_
    · intro combined e he hcombined
      exact (included_topHash h he).bind fun _ hhash => combineNonEmpty_meets hcombined hhash
    · exact (boundary_meets h).bind fun _ _ => Meets.ok trivial
  have hrings : Meets (fun _ => True) Reported (d.partition.ringTopHashes arcSet) := by
    refine mapM_meets _ fun ring _ => ?_
    have hring : Meets (HashOfLength n) Reported
        (HashPartition.ringTopHash (d.partition.includedSectors arcSet) ring) :=
      foldlM_meets _ [] (Or.inl rfl) fun combined e he hcombined =>
        combineNonEmpty_meets hcombined (included_ringHash h he ring)
    exact ⟨fun _ _ => trivial, hring.2⟩
  unfold snapshotMinimal
  split
  · exact Meets.error (reported_k2 _)
  · exact hdisc.bind fun _ _ => hrings.bind fun _ _ => Meets.ok nofun

theorem snapshotDiscSectors_meets :
    Meets (OwnRings t) Reported (d.snapshotDiscSectors arcSet) := by
  have hdisc : Meets (fun _ => True) Reported (d.partition.discSectorHashes arcSet d.store) := by
    refine (foldlM_meets (K := fun _ => True) _ ∅ trivial ?_).bind fun _ _ => ?_
    · intro out e he _
      exact (included_topHash h he).bind fun _ _ => Meets.ok trivial
    · exact (boundary_meets h).bind fun _ _ => Meets.ok trivial
  exact hdisc.bind fun _ _ => Meets.ok nofun

theorem snapshotDiscSectorDetails_meets (sectors : List Nat) :
    Meets (OwnRings t) Reported (d.snapshotDiscSectorDetails sectors arcSet) := by
  have hdisc : Meets (fun _ => True) Reported
      (d.partition.discSectorSectorDetails arcSet sectors d.store) :=
    (boundary_meets h).bind fun _ _ => Meets.ok trivial
  exact hdisc.bind fun _ _ => Meets.ok nofun

theorem snapshotRingSectorDetails_meets (rings : List Nat) :
    Meets (OwnRings t) Reported (d.snapshotRingSectorDetails rings arcSet) := by
  have hrings : Meets (fun out : NestedHashes × Int => ∀ r ∈ out.1, r < ringCount t) Reported
      (d.partition.ringDetails arcSet rings) := by
    refine (foldlM_meets (K := fun out : NestedHashes => ∀ r ∈ out, r < ringCount t) _ ∅ ?_ ?_).bind
      fun out hout => ?_
    · intro r hr
      exact absurd hr ExtTreeMap.not_mem_empty
    · intro out e he hout
      refine foldlM_meets _ out hout fun out' ring _ hout' => ?_
      refine (included_partialSliceHash h he ring).bind fun hash hring => Meets.ok ?_
      intro r hr
      rcases ExtTreeMap.mem_insert.mp hr with heq | hold
      · rw [← Std.LawfulEqCmp.eq_of_compare heq]
        exact hring
      · exact hout' r hold
    · exact (boundary_meets h).bind fun _ _ => Meets.ok hout
  refine hrings.bind fun out hout => Meets.ok ?_
  rintro hashes boundary hs r hr
  cases hs
  exact hout r hr

end Snapshots

/-! ## Rings of our previous snapshot -/

/-- Two ring details that are compared agree on the ring with the number of all rings; it is the
only one that a lookup panics on. -/
def RingsInRange (t : Int) (theirs : DhtSnapshot) (prev : Option DhtSnapshot) : Prop :=
  match theirs, prev with
  | .ringSectorDetails theirHashes boundary, some (.ringSectorDetails ourHashes ourBoundary) =>
      ourBoundary = boundary → (∀ k, k ∈ ourHashes ↔ k ∈ theirHashes) →
        ∀ i < numSectors,
          lookupHash ourHashes (ringCount t) i = lookupHash theirHashes (ringCount t) i
  | _, _ => True

variable {theirs ours : DhtSnapshot} {prev : Option DhtSnapshot} {limit : Int}

/-- Our matching snapshot is the previous one, or it has rings of the DHT only. -/
theorem matchingSnapshot_meets (h : Regular timeFactor n t d.env) (theirs : DhtSnapshot)
    (prev : Option DhtSnapshot) (arcSet : ArcSet) :
    Meets (fun ours => prev = some ours ∨ OwnRings t ours) Reported
      (d.matchingSnapshot theirs prev arcSet) := by
  have hnew : ∀ {r : Except Fault DhtSnapshot}, Meets (OwnRings t) Reported r →
      Meets (fun ours => prev = some ours ∨ OwnRings t ours) Reported r :=
    fun hr => ⟨fun ours hours => Or.inr (hr.1 ours hours), hr.2⟩
  unfold matchingSnapshot
  cases theirs with
  | minimal disc boundary rings => exact hnew (snapshotMinimal_meets h)
  | discSectors hashes boundary => exact hnew (snapshotDiscSectors_meets h)
  | discSectorDetails hashes boundary =>
      simp only
      split
      · exact Meets.ok (Or.inl rfl)
      · exact hnew (snapshotDiscSectorDetails_meets h _)
  | ringSectorDetails hashes boundary =>
      simp only
      split
      · exact Meets.ok (Or.inl rfl)
      · exact hnew (snapshotRingSectorDetails_meets h _)

/-- A lookup of a ring that our own details have is in range. -/
theorem lookup_eq_of_ownRings {ourHashes theirHashes : NestedHashes} {boundary : Int}
    (hown : OwnRings t (.ringSectorDetails ourHashes boundary))
    (hkeys : ∀ k, k ∈ ourHashes ↔ k ∈ theirHashes) (i : Nat) :
    lookupHash ourHashes (ringCount t) i = lookupHash theirHashes (ringCount t) i := by
  have hours : ringCount t ∉ ourHashes := fun hmem => lt_irrefl _ (hown _ _ rfl _ hmem)
  have htheirs : ringCount t ∉ theirHashes := fun hmem => hours ((hkeys _).mpr hmem)
  unfold lookupHash
  rw [ExtTreeMap.getElem?_eq_none hours, ExtTreeMap.getElem?_eq_none htheirs]

/-! ## Answers -/

theorem noPanic_of_ok {α : Type} {a : α} {r : Except Fault α} (h : r = .ok a) : NoPanic r := by
  rintro reason hpanic
  rw [h] at hpanic
  cases hpanic

theorem noPanic_of_meets {α : Type} {I : α → Prop} {r : Except Fault α} (h : Meets I Reported r) :
    NoPanic r :=
  fun reason hpanic => h.2 _ hpanic reason rfl

/-- An answer that is a new snapshot. -/
theorem noPanic_newSnapshot {next : Except Fault DhtSnapshot} (h : Meets (OwnRings t) Reported next)
    (hrun : d.handleSnapshot loc theirs prev arcSet limit =
      (next >>= fun snapshot => pure (.newSnapshot snapshot, 0))) :
    NoPanic (d.handleSnapshot loc theirs prev arcSet limit) := by
  have hbind : Meets (fun _ => True) Reported
      (next >>= fun snapshot => (pure (.newSnapshot snapshot, 0) :
        Except Fault (DhtSnapshotNextAction × Nat))) := h.bind fun _ _ => Meets.ok trivial
  rw [hrun]
  exact noPanic_of_meets hbind

/-- Where the rings are in range, and the clock has room for one more slice, every snapshot is
answered or refused. -/
theorem handleSnapshot_noPanic (h : Regular timeFactor n t d.env)
    (harcs : arcSet.coveredSectorCount ≠ 0) (hfit : d.store.totalBytes ≤ u32Max)
    (hroom : t + unitTime ≤ i64Max) (hrange : RingsInRange t theirs prev) (limit : Int) :
    NoPanic (d.handleSnapshot loc theirs prev arcSet limit) := by
  have hlaid : d.LaidOutAt t := h.laidOut
  have hmatching := matchingSnapshot_meets h theirs prev arcSet
  cases hours : d.matchingSnapshot theirs prev arcSet with
  | error e =>
      intro reason hpanic
      simp only [handleSnapshot, if_neg harcs, hours, bind, Except.bind, Except.error.injEq] at hpanic
      exact hmatching.2 e hours reason hpanic
  | ok ours =>
      -- what differs is not identical
      have hdiffers : ours.compare theirs ≠ .identical → ours ≠ theirs := by
        rintro hcompare rfl
        exact hcompare (DhtSnapshot.compare_self ours)
      cases hcompare : ours.compare theirs with
      | identical =>
          simp only [handleSnapshot, if_neg harcs, hours, bind, Except.bind, hcompare]
          exact noPanic_of_ok rfl
      | cannotCompare =>
          simp only [handleSnapshot, if_neg harcs, hours, bind, Except.bind, hcompare]
          exact noPanic_of_ok rfl
      | discMismatch =>
          have hnext : Meets (OwnRings t) Reported (d.snapshotDiscSectors arcSet) :=
            snapshotDiscSectors_meets h
          refine noPanic_newSnapshot hnext ?_
          simp only [handleSnapshot, if_neg harcs, hours, bind, Except.bind, hcompare]
      | discSectorMismatches sectors =>
          have hnext : Meets (OwnRings t) Reported (d.snapshotDiscSectorDetails sectors arcSet) :=
            snapshotDiscSectorDetails_meets h sectors
          refine noPanic_newSnapshot hnext ?_
          simp only [handleSnapshot, if_neg harcs, hours, bind, Except.bind, hcompare]
      | ringMismatches rings =>
          have hnext : Meets (OwnRings t) Reported (d.snapshotRingSectorDetails rings arcSet) :=
            snapshotRingSectorDetails_meets h rings
          refine noPanic_newSnapshot hnext ?_
          simp only [handleSnapshot, if_neg harcs, hours, bind, Except.bind, hcompare]
      | discSectorSliceMismatches slices =>
          have hne := hdiffers (fun h => by cases hcompare.symm.trans h)
          rcases DhtSnapshot.compare_slices hcompare
            with ⟨ourHashes, theirHashes, boundary, rfl, rfl, rfl⟩
          have hanswers := answersBy_disc loc harcs (fun heq => hne (by rw [heq])) hours
          have hsafe : ∀ c, ∀ e, discOffer loc d c ≠ .error e := by
            intro c e hfault
            rw [hlaid.discOffer_eq hroom] at hfault
            cases hfault
          rcases hanswers.returns (fun c _ => hsafe c)
            (le_trans (hlaid.discOffers_le hroom hanswers.sorted) hfit) limit with ⟨answer, hanswer⟩
          exact noPanic_of_ok hanswer
      | ringSectorMismatches sectors =>
          have hne := hdiffers (fun h => by cases hcompare.symm.trans h)
          rcases DhtSnapshot.compare_ringSectors hcompare
            with ⟨ourHashes, theirHashes, boundary, rfl, rfl, hkeys, rfl⟩
          have hanswers := answersBy_rings loc harcs (fun heq => hne (by rw [heq])) hkeys hours
          -- the only faulty ring is one on which the two sides agree
          have hagree : ∀ i < numSectors,
              lookupHash ourHashes (ringCount t) i = lookupHash theirHashes (ringCount t) i := by
            intro i hi
            rcases hmatching.1 _ hours with rfl | hown
            · exact hrange rfl hkeys i hi
            · exact lookup_eq_of_ownRings hown hkeys i
          have hsafe : ∀ c ∈ ringSlots (mismatchedRingSectors ourHashes theirHashes).toList,
              ∀ e, ringOffer loc d c ≠ .error e := by
            intro c hc e hfault
            rcases hlaid.ringOffer_fault hfault with ⟨hsector, hring, _⟩
            refine (hanswers.mem_iff c).mp hc ?_
            rw [hring]
            exact hagree c.2 hsector
          rcases hanswers.returns hsafe (le_trans (hlaid.ringOffers_le hanswers.sorted) hfit) limit
            with ⟨answer, hanswer⟩
          exact noPanic_of_ok hanswer

/-- Where they are not, a budget for everything there is leads to the panic. -/
theorem handleSnapshot_panics (h : d.LaidOutAt t) (harcs : arcSet.coveredSectorCount ≠ 0)
    (htotal : d.store.totalBytes < 2 ^ 31 - 1) (hrange : ¬ RingsInRange t theirs prev) :
    d.handleSnapshot loc theirs prev arcSet (d.store.totalBytes + 1) =
      .error (.panicked "index out of bounds") := by
  unfold RingsInRange at hrange
  split at hrange
  · rename_i theirHashes boundary ourHashes ourBoundary
    push Not at hrange
    rcases hrange with ⟨rfl, hkeys, i, hi, hdiff⟩
    have hours : d.matchingSnapshot (.ringSectorDetails theirHashes ourBoundary)
        (some (.ringSectorDetails ourHashes ourBoundary)) arcSet =
        .ok (.ringSectorDetails ourHashes ourBoundary) := rfl
    have hanswers := answersBy_rings loc harcs (ne_of_lookupHash_ne hdiff) hkeys hours
    rcases hanswers.visits_all (h.ringOffers_le hanswers.sorted) htotal with
      ⟨c, _, e, hfault, hanswer⟩ | ⟨action, used, _, hall⟩
    · rcases h.ringOffer_fault hfault with ⟨_, _, rfl⟩
      exact hanswer
    · have hlate : ringOffer loc d (ringCount t, i) = .error (.panicked "index out of bounds") := by
        rw [h.ringOffer_eq, if_pos hi, if_neg (lt_irrefl _), if_pos rfl]
      exact absurd hlate ((hall (ringCount t, i) ((hanswers.mem_iff _).mpr hdiff)).1 _)
  · exact absurd trivial hrange

/-- Whatever the node has gone through, whatever snapshot it is sent and whichever details it has
kept: it answers within every budget, or refuses, exactly when the rings are in range. -/
theorem handleSnapshot_noPanic_iff_ringsInRange (h : Node loc n t d)
    (harcs : arcSet.coveredSectorCount ≠ 0) (hfit : d.store.totalBytes ≤ u32Max) :
    (t + unitTime ≤ i64Max → RingsInRange t theirs prev →
      ∀ limit, NoPanic (d.handleSnapshot loc theirs prev arcSet limit)) ∧
    (d.store.totalBytes < 2 ^ 31 - 1 →
      (∀ limit, NoPanic (d.handleSnapshot loc theirs prev arcSet limit)) →
        RingsInRange t theirs prev) := by
  constructor
  · intro hroom hrange limit
    exact handleSnapshot_noPanic h.regular harcs hfit hroom hrange limit
  · intro htotal hall
    by_contra hrange
    exact hall _ _ (handleSnapshot_panics h.laidOutAt harcs htotal hrange)

/-! ## A node that loses a ring -/

/-- One hash, of the first sector in one ring. -/
def oneHash (ring : Nat) : NestedHashes :=
  (∅ : NestedHashes).insert ring ((∅ : ExtTreeMap Nat Bytes).insert 0 [7])

theorem mem_oneHash_iff {ring k : Nat} : k ∈ oneHash ring ↔ k = ring := by
  unfold oneHash
  rw [ExtTreeMap.mem_insert, Std.LawfulEqCmp.compare_eq_iff_eq]
  simp [eq_comm]

/-- Against empty rings, one hash is in range unless its ring is the number of all rings. -/
theorem ringsInRange_oneHash_iff {ring : Nat} {hashes : NestedHashes} {boundary : Int}
    (hkeys : ∀ k, k ∈ hashes ↔ k = ring) (hempty : ∀ j i, lookupHash hashes j i = none) :
    RingsInRange t (.ringSectorDetails (oneHash ring) boundary)
      (some (.ringSectorDetails hashes boundary)) ↔ ring ≠ ringCount t := by
  have hsame : ∀ k, k ∈ hashes ↔ k ∈ oneHash ring := fun k => (hkeys k).trans mem_oneHash_iff.symm
  constructor
  · intro hrange hring
    have hnone := hrange rfl hsame 0 (by decide)
    rw [hempty, ← hring] at hnone
    simp [lookupHash, oneHash] at hnone
  · intro hring _ _ i _
    have hout : ringCount t ∉ oneHash ring := fun hmem => hring (mem_oneHash_iff.mp hmem).symm
    rw [hempty]
    unfold lookupHash
    rw [ExtTreeMap.getElem?_eq_none hout]
    rfl

/-- The details of a ring of a DHT without ops. -/
theorem emptyRing_details {last : Int} {ring : Nat} (h : Tracking loc n last t d)
    (hops : d.store.opList = []) (harcs : arcSet.coveredSectorCount ≠ 0) (hring : ring < ringCount t) :
    ∃ hashes, d.snapshotRingSectorDetails [ring] arcSet =
        .ok (.ringSectorDetails hashes (fullEnd timeFactor (fullCount timeFactor t))) ∧
      (∀ k, k ∈ hashes ↔ k = ring) ∧ ∀ j i, lookupHash hashes j i = none := by
  have hstored : d.store.stored = [] := by
    unfold OpStore.stored
    rw [hops]
    rfl
  have hacc := h.accurate
  unfold Accurate at hacc
  rw [hstored] at hacc
  have hrings : ∀ r ∈ [ring], r < (slotsAt timeFactor t).length := by
    intro r hr
    rw [List.mem_singleton.mp hr]
    exact hring
  have hdetails := hacc.ringDetails_ok harcs hrings
  refine ⟨_, bind_eq_ok_iff.mpr ⟨_, hdetails, rfl⟩, fun k => ?_, fun j i => ?_⟩
  · rw [mem_insertAll_iff, List.mem_singleton]
  · unfold lookupHash
    rw [getElem?_insertAll]
    split
    · show (ringMap loc timeFactor t [] arcSet j)[i]? = none
      rw [getElem?_ringMap]
      split
      · rfl
      · rfl
    · rfl

/-- Just before four units have passed an empty node has two rings, and just after it has one. -/
theorem exists_lostRing : ∃ d₀ d₁ : DhtState,
    tryFromStore (fun _ => 0) 3599000000 OpStore.empty = .ok d₀ ∧
      Tracking (fun _ => 0) 1 3599000000 3599000000 d₀ ∧ d₀.store.opList = [] ∧
      Returns (update (fun _ => 0) 3601000000) d₀ () d₁ ∧ d₁.store.opList = [] ∧
      Node (fun _ => 0) 1 3601000000 d₁ := by
  have hstart : StartStore 1 3599000000 OpStore.empty :=
    ⟨rfl, fun _ => rfl, by simp [OpsAt, OpStore.empty], by simp [OpStore.ids, OpStore.empty]⟩
  rcases hstart.built (fun _ => 0) (by decide) (by rw [unitTime_eq]; decide)
    with ⟨d₀, hd₀, htrack, hlist⟩
  have hvalid : ValidRun 1 3599000000 d₀.store.ids [.update 3601000000] :=
    ⟨by decide, by decide, trivial⟩
  have hrooms : ∀ s ∈ [Step.update 3601000000], s.now + unitTime ≤ i64Max := by
    intro s hs
    rw [List.mem_singleton.mp hs, unitTime_eq]
    decide
  rcases htrack.run_returns (by decide) _ hvalid hrooms with ⟨_, hrun⟩
  rcases returns_each_cons_iff.mp hrun with ⟨d₁, hupdate, hend⟩
  rcases returns_pure_iff.mp hend with ⟨_, rfl⟩
  rcases htrack.update (by decide) (by decide) hupdate with ⟨_, hlist', _⟩
  have hstarted : Node (fun _ => 0) 1 3599000000 d₀ :=
    .start (by decide) (by decide) hstart.fresh (by simp [Storable, OpStore.stored, OpStore.empty]) hd₀
  exact ⟨d₀, d₁, hd₀, htrack, hlist, hupdate, hlist'.trans hlist,
    hstarted.update (by decide) (by decide) hupdate⟩

/-- A ring that is still there is compared in full. -/
theorem handleSnapshot_noPanic_first_ring : ∃ (d₀ d₁ : DhtState) (prev : DhtSnapshot),
    d₀.snapshotRingSectorDetails [0] secondSector = .ok prev ∧
      Returns (update (fun _ => 0) 3601000000) d₀ () d₁ ∧
      ∀ limit, NoPanic (d₁.handleSnapshot (fun _ => 0) (.ringSectorDetails (oneHash 0) 0) (some prev)
        secondSector limit) := by
  rcases exists_lostRing with ⟨d₀, d₁, _, htrack, hops₀, hupdate, hops₁, hnode⟩
  rcases emptyRing_details htrack hops₀ (show secondSector.coveredSectorCount ≠ 0 by decide)
    (show 0 < ringCount 3599000000 by decide) with ⟨hashes, hprev, hkeys, hempty⟩
  have htotal : d₁.store.totalBytes = 0 := by
    unfold OpStore.totalBytes
    rw [hops₁]
    rfl
  have hrange : RingsInRange 3601000000 (.ringSectorDetails (oneHash 0) 0)
      (some (.ringSectorDetails hashes 0)) :=
    (ringsInRange_oneHash_iff hkeys hempty).mpr (by decide)
  exact ⟨d₀, d₁, _, hprev, hupdate, (handleSnapshot_noPanic_iff_ringsInRange hnode (by decide)
    (by rw [htotal]; exact Nat.zero_le _)).1 (by rw [unitTime_eq]; decide) hrange⟩

/-- A ring that is not there any more is looked up, and the lookup panics. -/
theorem handleSnapshot_panics_lost_ring : ∃ (d₀ d₁ : DhtState) (prev : DhtSnapshot),
    tryFromStore (fun _ => 0) 3599000000 OpStore.empty = .ok d₀ ∧
      d₀.snapshotRingSectorDetails [1] secondSector = .ok prev ∧
      Returns (update (fun _ => 0) 3601000000) d₀ () d₁ ∧
      secondSector.coveredSectorCount ≠ 0 ∧ d₁.store.totalBytes = 0 ∧
      d₁.handleSnapshot (fun _ => 0) (.ringSectorDetails (oneHash 1) 0) (some prev) secondSector 1 =
        .error (.panicked "index out of bounds") := by
  rcases exists_lostRing with ⟨d₀, d₁, hd₀, htrack, hops₀, hupdate, hops₁, hnode⟩
  rcases emptyRing_details htrack hops₀ (show secondSector.coveredSectorCount ≠ 0 by decide)
    (show 1 < ringCount 3599000000 by decide) with ⟨hashes, hprev, hkeys, hempty⟩
  have htotal : d₁.store.totalBytes = 0 := by
    unfold OpStore.totalBytes
    rw [hops₁]
    rfl
  have hrange : ¬ RingsInRange 3601000000 (.ringSectorDetails (oneHash 1) 0)
      (some (.ringSectorDetails hashes 0)) := by
    rw [ringsInRange_oneHash_iff hkeys hempty]
    decide
  have hpanics : d₁.handleSnapshot (fun _ => 0) (.ringSectorDetails (oneHash 1) 0) _ secondSector
      (d₁.store.totalBytes + 1) = .error (.panicked "index out of bounds") :=
    handleSnapshot_panics hnode.laidOutAt (by decide) (by rw [htotal]; decide) hrange
  rw [htotal] at hpanics
  exact ⟨d₀, d₁, _, hd₀, hprev, hupdate, by decide, htotal, hpanics⟩

end DhtState

end Dht
end Kitsune2
