import Kitsune2.Dht.Offers

/-!
# AgreedArcs — which op ids an answer may offer

Two nodes compare their DHTs on an agreed set of sectors, and on a disc that ends at a common
boundary.  Our own snapshots keep to both.  But a place that only the peer lists is a mismatch too,
and nothing checks it against the agreement: its sector only has to exist, and its slice only has to
be no later than the one after our last full slice.  So an answer stays inside the agreement exactly
when no such place holds an op of ours.
-/

namespace Kitsune2
namespace Dht

open Api Lib
open Std (ExtTreeMap)

/-- The boundary of a snapshot of the disc. -/
def DhtSnapshot.discBoundary : DhtSnapshot → Option Int
  | .discSectors _ boundary => some boundary
  | .discSectorDetails _ boundary => some boundary
  | _ => none

namespace DhtState

variable {loc : LocCb} {d : DhtState} {t : Int} {arcSet : ArcSet} {theirs ours : DhtSnapshot}
  {prev : Option DhtSnapshot}

/-! ## Our own snapshots -/

/-- The DHT makes the snapshot for the arc set. -/
inductive Makes (d : DhtState) (arcSet : ArcSet) : DhtSnapshot → Prop
  | minimal {s : DhtSnapshot} : d.snapshotMinimal arcSet = .ok s → Makes d arcSet s
  | discSectors {s : DhtSnapshot} : d.snapshotDiscSectors arcSet = .ok s → Makes d arcSet s
  | discDetails {s : DhtSnapshot} (sectors : List Nat) :
      d.snapshotDiscSectorDetails sectors arcSet = .ok s → Makes d arcSet s
  | ringDetails {s : DhtSnapshot} (rings : List Nat) :
      d.snapshotRingSectorDetails rings arcSet = .ok s → Makes d arcSet s

/-- The end of the full slices of a laid out DHT. -/
theorem LaidOutAt.boundary (h : d.LaidOutAt t) :
    d.partition.fullSliceEndTimestamp = .ok (fullEnd timeFactor (fullCount timeFactor t)) := by
  rcases h.firstSector with ⟨tp, hfirst, hlaid⟩
  have hcount : tp.fullSlices = fullCount timeFactor t := hlaid.fullSlices
  have hfit : fullEnd timeFactor tp.fullSlices ≤ i64Max := by
    rw [hcount]
    exact le_trans (fullEnd_fullCount_le_self hlaid.nonneg) hlaid.fits
  have hend := fullSliceEndTimestamp_ok hlaid.shape hfit
  simp only [hcount] at hend
  exact bind_eq_ok_iff.mpr ⟨tp, hfirst, hend⟩

/-- The disc of our details ends with a full slice. -/
theorem Makes.boundary_aligned (h : Makes d arcSet ours) (hlaid : d.LaidOutAt t)
    {hashes : NestedHashes} {boundary : Int} (hours : ours = .discSectorDetails hashes boundary) :
    boundary = fullEnd timeFactor (fullCount timeFactor t) := by
  subst hours
  cases h with
  | minimal hs =>
      unfold snapshotMinimal at hs
      split at hs
      · cases hs
      · rcases bind_eq_ok_iff.mp hs with ⟨_, _, hs⟩
        rcases bind_eq_ok_iff.mp hs with ⟨_, _, hs⟩
        cases hs
  | discSectors hs =>
      rcases bind_eq_ok_iff.mp hs with ⟨_, _, hs⟩
      cases hs
  | ringDetails rings hs =>
      rcases bind_eq_ok_iff.mp hs with ⟨_, _, hs⟩
      cases hs
  | discDetails sectors hs =>
      rcases bind_eq_ok_iff.mp hs with ⟨out, hout, hs⟩
      cases hs
      rcases bind_eq_ok_iff.mp hout with ⟨timestamp, htime, hout⟩
      rw [hlaid.boundary] at htime
      cases htime
      cases hout
      rfl

/-- A previous snapshot was made for the same arcs, at some time. -/
def MadeBefore (arcSet : ArcSet) (prev : Option DhtSnapshot) : Prop :=
  ∀ s, prev = some s → ∃ (d' : DhtState) (t' : Int), d'.LaidOutAt t' ∧ Makes d' arcSet s

/-- Whether it was made before or is made now, our matching snapshot of the disc ends with a full
slice. -/
theorem matchingSnapshot_aligned (h : d.LaidOutAt t) (hprev : MadeBefore arcSet prev)
    {hashes : NestedHashes} {boundary : Int}
    (hours : d.matchingSnapshot theirs prev arcSet = .ok (.discSectorDetails hashes boundary)) :
    ∃ k, boundary = fullEnd timeFactor k := by
  cases theirs with
  | minimal _ _ _ =>
      exact ⟨_, (Makes.minimal hours).boundary_aligned h rfl⟩
  | discSectors _ _ =>
      exact ⟨_, (Makes.discSectors hours).boundary_aligned h rfl⟩
  | discSectorDetails theirHashes _ =>
      unfold matchingSnapshot at hours
      simp only at hours
      split at hours
      · cases hours
        rcases hprev _ rfl with ⟨d', t', hlaid, hmade⟩
        exact ⟨_, hmade.boundary_aligned hlaid rfl⟩
      · exact ⟨_, (Makes.discDetails _ hours).boundary_aligned h rfl⟩
  | ringSectorDetails theirHashes _ =>
      unfold matchingSnapshot at hours
      simp only at hours
      split at hours
      · cases hours
      · exact ⟨_, (Makes.ringDetails _ hours).boundary_aligned h rfl⟩

/-! ## The agreement -/

/-- The op is in the agreed sectors, and before the boundary if the snapshot is one of the disc. -/
def Agreed (loc : LocCb) (arcSet : ArcSet) (theirs : DhtSnapshot) (op : StoredOp) : Prop :=
  (loc op.opId).val / sectorSize ∈ arcSet.inner ∧
    ∀ boundary, theirs.discBoundary = some boundary → op.createdAt < boundary

/-- Every id is that of an op inside the agreement. -/
def OffersAgreed (loc : LocCb) (d : DhtState) (arcSet : ArcSet) (theirs : DhtSnapshot)
    (opIds : List Bytes) : Prop :=
  ∀ x ∈ opIds, ∃ op ∈ d.store.opList, op.opId = x ∧ Agreed loc arcSet theirs op.toStoredOp

/-- A place outside the agreement that both snapshots are compared at, that they differ at, and that
has ops of ours. -/
def Strays (loc : LocCb) (d : DhtState) (theirs : DhtSnapshot) (prev : Option DhtSnapshot)
    (arcSet : ArcSet) (c : Nat × Nat) : Prop :=
  match theirs, d.matchingSnapshot theirs prev arcSet with
  | .discSectorDetails theirHashes boundary, .ok (.discSectorDetails ourHashes ourBoundary) =>
      ourBoundary = boundary ∧ lookupHash ourHashes c.1 c.2 ≠ lookupHash theirHashes c.1 c.2 ∧
        (c.1 ∉ arcSet.inner ∨ boundary ≤ fullEnd timeFactor c.2) ∧
        offerIds (discOffer loc d c) ≠ []
  | .ringSectorDetails theirHashes boundary, .ok (.ringSectorDetails ourHashes ourBoundary) =>
      ourBoundary = boundary ∧ (∀ k, k ∈ ourHashes ↔ k ∈ theirHashes) ∧
        lookupHash ourHashes c.1 c.2 ≠ lookupHash theirHashes c.1 c.2 ∧
        c.2 ∉ arcSet.inner ∧ offerIds (ringOffer loc d c) ≠ []
  | _, _ => False

/-! ## Ops of a place -/

theorem LaidOutAt.mem_discOffer (h : d.LaidOutAt t) (hroom : t + unitTime ≤ i64Max) {c : Nat × Nat}
    {x : Bytes} (hx : x ∈ offerIds (discOffer loc d c)) :
    ∃ op ∈ d.store.opList, op.opId = x ∧
      (fullCell timeFactor c.1 c.2).holds loc op.toStoredOp = true := by
  rw [h.discOffer_eq hroom c] at hx
  split at hx
  · rcases mem_cellIds_iff.mp hx with ⟨op, hop, hholds, hid⟩
    exact ⟨op, hop, hid, hholds⟩
  · cases hx

theorem LaidOutAt.mem_ringOffer (h : d.LaidOutAt t) {c : Nat × Nat} {x : Bytes}
    (hx : x ∈ offerIds (ringOffer loc d c)) :
    ∃ op ∈ d.store.opList, op.opId = x ∧ (loc op.opId).val / sectorSize = c.2 := by
  rw [h.ringOffer_eq c] at hx
  split at hx
  · split at hx
    · rcases mem_cellIds_iff.mp hx with ⟨op, hop, hholds, hid⟩
      exact ⟨op, hop, hid, (Cell.holds_iff.mp hholds).2.2⟩
    · split at hx
      · cases hx
      · cases hx
  · cases hx

/-! ## Inside -/

/-- Where no place strays, every answer stays inside the agreement. -/
theorem LaidOutAt.offersAgreed (h : d.LaidOutAt t) (hroom : t + unitTime ≤ i64Max)
    (hprev : MadeBefore arcSet prev) (hinside : ∀ c, ¬ Strays loc d theirs prev arcSet c)
    {limit : Int} {action : DhtSnapshotNextAction} {used : Nat}
    (hrun : d.handleSnapshot loc theirs prev arcSet limit = .ok (action, used)) :
    OffersAgreed loc d arcSet theirs action.opIds := by
  intro x hx
  rcases handleSnapshot_cases hrun with
    ⟨ours, hours, hnone | ⟨slices, hcompare, hfound⟩ | ⟨sectors, hcompare, hfound⟩⟩
  · rw [(Prod.mk.inj hnone).1] at hx
    cases hx
  · rcases DhtSnapshot.compare_slices hcompare with ⟨ourHashes, theirHashes, boundary, rfl, rfl, rfl⟩
    rcases (collectDisc_walks _ _).source hfound hx with hnil | ⟨c, hc, hoffered⟩
    · cases hnil
    · have hdiff : lookupHash ourHashes c.1 c.2 ≠ lookupHash theirHashes c.1 c.2 :=
        ((exactPairs_mismatchedSlices ourHashes theirHashes).mem_iff c.1 c.2).mp
          (mem_ringSlots_iff.mp hc)
      -- the place is not outside, or it would stray
      have hplace : c.1 ∈ arcSet.inner ∧ fullEnd timeFactor c.2 < boundary := by
        by_contra hout
        rw [not_and_or, not_lt] at hout
        refine hinside c ?_
        unfold Strays
        rw [hours]
        exact ⟨rfl, hdiff, hout, List.ne_nil_of_mem hoffered⟩
      rcases h.mem_discOffer hroom hoffered with ⟨op, hop, hid, hholds⟩
      rcases Cell.holds_iff.mp hholds with ⟨_, hhigh, hsector⟩
      refine ⟨op, hop, hid, ?_, ?_⟩
      · rw [hsector]
        exact hplace.1
      · intro b hb
        cases hb
        rcases matchingSnapshot_aligned h hprev hours with ⟨k, rfl⟩
        have hlt : c.2 < k := by
          by_contra hle
          exact absurd hplace.2 (not_lt.mpr (fullEnd_mono (not_lt.mp hle)))
        exact lt_of_lt_of_le hhigh (fullEnd_mono hlt)
  · rcases DhtSnapshot.compare_ringSectors hcompare
      with ⟨ourHashes, theirHashes, boundary, rfl, rfl, hkeys, rfl⟩
    rcases (collectRings_walks _ _).source hfound hx with hnil | ⟨c, hc, hoffered⟩
    · cases hnil
    · have hdiff : lookupHash ourHashes c.1 c.2 ≠ lookupHash theirHashes c.1 c.2 :=
        ((exactPairs_mismatchedRingSectors hkeys).mem_iff c.1 c.2).mp (mem_ringSlots_iff.mp hc)
      have hplace : c.2 ∈ arcSet.inner := by
        by_contra hout
        refine hinside c ?_
        unfold Strays
        rw [hours]
        exact ⟨rfl, hkeys, hdiff, hout, List.ne_nil_of_mem hoffered⟩
      rcases h.mem_ringOffer hoffered with ⟨op, hop, hid, hsector⟩
      refine ⟨op, hop, hid, ?_, ?_⟩
      · rw [hsector]
        exact hplace
      · intro b hb
        cases hb

/-! ## Outside -/

/-- An op outside the agreement is not made good by another op with its id. -/
theorem not_offersAgreed {opIds : List Bytes} (hunique : d.store.ids.Nodup) {op : OpRecord}
    (hop : op ∈ d.store.opList) (hoffered : op.opId ∈ opIds)
    (hout : ¬ Agreed loc arcSet theirs op.toStoredOp) : ¬ OffersAgreed loc d arcSet theirs opIds := by
  intro hall
  rcases hall op.opId hoffered with ⟨op', hop', hid, hagreed⟩
  have heq : op' = op := List.inj_on_of_nodup_map hunique hop' hop hid
  rw [heq] at hagreed
  exact hout hagreed

/-- A place that strays is offered to a peer with a large enough budget. -/
theorem LaidOutAt.offers_stray (h : d.LaidOutAt t) (hroom : t + unitTime ≤ i64Max)
    (harcs : arcSet.coveredSectorCount ≠ 0) (hunique : d.store.ids.Nodup)
    (htotal : d.store.totalBytes < 2 ^ 31 - 1)
    (hpanic : ∀ limit reason, d.handleSnapshot loc theirs prev arcSet limit ≠
      .error (.panicked reason))
    {c : Nat × Nat} (hstray : Strays loc d theirs prev arcSet c) :
    ∃ action used,
      d.handleSnapshot loc theirs prev arcSet (d.store.totalBytes + 1) = .ok (action, used) ∧
        ¬ OffersAgreed loc d arcSet theirs action.opIds := by
  unfold Strays at hstray
  split at hstray
  · rename_i theirHashes boundary ourHashes ourBoundary hours
    rcases hstray with ⟨rfl, hdiff, hout, hids⟩
    have hanswers := answersBy_disc loc harcs (ne_of_lookupHash_ne hdiff) hours
    rcases hanswers.visits_all (h.discOffers_le hroom hanswers.sorted) htotal with
      ⟨c', _, e, hfault, _⟩ | ⟨action, used, hanswer, hall⟩
    · rw [h.discOffer_eq hroom] at hfault
      cases hfault
    -- a limit above all stored bytes lets the stray place through, and its ops are offered
    · refine ⟨action, used, hanswer, ?_⟩
      rcases List.exists_mem_of_ne_nil _ hids with ⟨x, hx⟩
      rcases h.mem_discOffer hroom hx with ⟨op, hop, rfl, hholds⟩
      refine not_offersAgreed hunique hop ((hall c ((hanswers.mem_iff c).mpr hdiff)).2 _ hx) ?_
      rintro ⟨hsector, hcreated⟩
      rcases Cell.holds_iff.mp hholds with ⟨hlow, _, hin⟩
      -- the place is stray for its sector or for its time
      rcases hout with hnot | hlate
      · rw [hin] at hsector
        exact hnot hsector
      · have hbefore := hcreated ourBoundary rfl
        have hstart : fullEnd timeFactor c.2 ≤ op.createdAt := hlow
        linarith
  · rename_i theirHashes boundary ourHashes ourBoundary hours
    rcases hstray with ⟨rfl, hkeys, hdiff, hout, hids⟩
    have hanswers := answersBy_rings loc harcs (ne_of_lookupHash_ne hdiff) hkeys hours
    rcases hanswers.visits_all (h.ringOffers_le hanswers.sorted) htotal with
      ⟨c', _, e, hfault, hanswer⟩ | ⟨action, used, hanswer, hall⟩
    · rcases h.ringOffer_fault hfault with ⟨_, _, rfl⟩
      exact absurd hanswer (hpanic _ _)
    · refine ⟨action, used, hanswer, ?_⟩
      rcases List.exists_mem_of_ne_nil _ hids with ⟨x, hx⟩
      rcases h.mem_ringOffer hx with ⟨op, hop, rfl, hin⟩
      refine not_offersAgreed hunique hop ((hall c ((hanswers.mem_iff c).mpr hdiff)).2 _ hx) ?_
      rintro ⟨hsector, _⟩
      rw [hin] at hsector
      exact hout hsector
  · exact hstray.elim

/-- Every answer, for whatever budget, stays inside the agreement if no place strays; and if one
does, some budget gives an answer with an op from outside. -/
theorem offers_agreed_iff_none_stray (h : d.LaidOutAt t) (hroom : t + unitTime ≤ i64Max)
    (hprev : MadeBefore arcSet prev) :
    ((∀ c, ¬ Strays loc d theirs prev arcSet c) →
      ∀ limit action used, d.handleSnapshot loc theirs prev arcSet limit = .ok (action, used) →
        OffersAgreed loc d arcSet theirs action.opIds) ∧
    (arcSet.coveredSectorCount ≠ 0 → d.store.ids.Nodup → d.store.totalBytes < 2 ^ 31 - 1 →
      (∀ limit reason, d.handleSnapshot loc theirs prev arcSet limit ≠ .error (.panicked reason)) →
      (∀ limit action used, d.handleSnapshot loc theirs prev arcSet limit = .ok (action, used) →
        OffersAgreed loc d arcSet theirs action.opIds) →
      ∀ c, ¬ Strays loc d theirs prev arcSet c) := by
  constructor
  · intro hinside limit action used hrun
    exact h.offersAgreed hroom hprev hinside hrun
  · intro harcs hunique htotal hpanic hall c hstray
    rcases h.offers_stray hroom harcs hunique htotal hpanic hstray with ⟨action, used, hrun, hout⟩
    exact hout (hall _ action used hrun)

/-- Two snapshots of the disc that differ inside the agreement only. -/
theorem not_strays_disc (loc : LocCb) {ourHashes theirHashes : NestedHashes} {boundary : Int}
    (hours : d.matchingSnapshot (.discSectorDetails theirHashes boundary) prev arcSet =
      .ok (.discSectorDetails ourHashes boundary))
    (hin : ∀ c : Nat × Nat, lookupHash ourHashes c.1 c.2 ≠ lookupHash theirHashes c.1 c.2 →
      c.1 ∈ arcSet.inner ∧ fullEnd timeFactor c.2 < boundary) (c : Nat × Nat) :
    ¬ Strays loc d (.discSectorDetails theirHashes boundary) prev arcSet c := by
  unfold Strays
  rw [hours]
  rintro ⟨_, hdiff, hout, _⟩
  rcases hin c hdiff with ⟨hsector, hbefore⟩
  rcases hout with hnot | hlate
  · exact hnot hsector
  · exact absurd hbefore (not_lt.mpr hlate)

/-! ## A DHT with ops that it has not been told of -/

/-- All sectors laid out at `t`, with a store whose ops have not been combined into any slice. -/
def laidOutDht (t : Int) (ops : List OpRecord) : DhtState where
  partition :=
    { size := sectorSize
      sectors := (List.range numSectors).map fun i =>
        { freshPart timeFactor (sectorArc i) (fullCount timeFactor t) with
          partialSlices := (slotsAt timeFactor t).map fun slot => ⟨slot.1, slot.2, []⟩ } }
  store := { OpStore.empty with opList := ops }
  opCount := 0

theorem laidOutAt_laidOutDht {t : Int} (ht : 0 ≤ t) (hfits : t ≤ i64Max) (ops : List OpRecord) :
    (laidOutDht t ops).LaidOutAt t := by
  refine ⟨rfl, ?_, ?_⟩
  · simp only [laidOutDht, List.length_map, List.length_range]
  · intro i tp htp
    simp only [laidOutDht, List.getElem?_map] at htp
    rcases Option.map_eq_some_iff.mp htp with ⟨j, hj, rfl⟩
    rcases List.getElem?_eq_some_iff.mp hj with ⟨_, hget⟩
    rw [List.getElem_range] at hget
    subst hget
    refine ⟨⟨rfl, rfl, rfl, rfl⟩, ht, hfits, rfl, ?_, ?_⟩
    · simp only [List.map_map]
      exact List.map_id _
    · intro _ k hk
      exact absurd Std.ExtTreeMap.getElem?_empty hk

/-- Three ops: one of the first sector, and two of the second, before and after the boundary. -/
def threeOps : List OpRecord :=
  [⟨⟨[1], 5000000⟩, 3⟩, ⟨⟨[2], 500000000000⟩, 4⟩, ⟨⟨[3], 6000000⟩, 5⟩]

def threeOpsLoc : LocCb := fun id => if id = [1] then 0 else 8388608

/-- The second sector alone. -/
def secondSector : ArcSet where
  inner := {1}
  bounded := by decide

/-- A hash for the first slice of the second sector. -/
def agreedHashes : NestedHashes :=
  (∅ : NestedHashes).insert 1 ((∅ : ExtTreeMap Nat Bytes).insert 0 [8])

/-- A peer that keeps to the agreement is offered the op there. -/
theorem offers_agreed_second_sector :
    OffersAgreed threeOpsLoc (laidOutDht 1000000000000 threeOps) secondSector
        (.discSectorDetails agreedHashes 460800000000) [[3]] ∧
      (laidOutDht 1000000000000 threeOps).handleSnapshot threeOpsLoc
          (.discSectorDetails agreedHashes 460800000000) none secondSector 100 =
        .ok (.newSnapshotAndHashList
          (.discSectorDetails ((∅ : NestedHashes).insert 1 ∅) 460800000000) [[3]], 5) := by
  have hrun : (laidOutDht 1000000000000 threeOps).handleSnapshot threeOpsLoc
      (.discSectorDetails agreedHashes 460800000000) none secondSector 100 =
      .ok (.newSnapshotAndHashList
        (.discSectorDetails ((∅ : NestedHashes).insert 1 ∅) 460800000000) [[3]], 5) := by
    decide +kernel
  have hours : (laidOutDht 1000000000000 threeOps).matchingSnapshot
      (.discSectorDetails agreedHashes 460800000000) none secondSector =
      .ok (.discSectorDetails ((∅ : NestedHashes).insert 1 ∅) 460800000000) := by
    decide +kernel
  -- the two sides differ at one place only
  have hplace : ∀ c : Nat × Nat, lookupHash ((∅ : NestedHashes).insert 1 ∅) c.1 c.2 ≠
      lookupHash agreedHashes c.1 c.2 → c = (1, 0) := by
    intro c hdiff
    by_contra hne
    apply hdiff
    by_cases hfst : 1 = c.1
    · have hsnd : ¬ 0 = c.2 := fun hsnd => hne (Prod.ext hfst.symm hsnd.symm)
      simp [lookupHash, agreedHashes, ← hfst, hsnd]
    · simp [lookupHash, agreedHashes, hfst]
  have hinside := not_strays_disc threeOpsLoc hours fun c hdiff => by
    rw [hplace c hdiff]
    decide
  exact ⟨(offers_agreed_iff_none_stray (laidOutAt_laidOutDht (by decide) (by decide) threeOps)
    (by decide) (fun s hs => by cases hs)).1 hinside _ _ _ hrun, hrun⟩

/-- A peer that lists the first sector, and the second one after the boundary, is offered both. -/
theorem offers_outside_agreement :
    let theirs : DhtSnapshot := .discSectorDetails
      (((∅ : NestedHashes).insert 0 ((∅ : ExtTreeMap Nat Bytes).insert 0 [7])).insert 1
        ((∅ : ExtTreeMap Nat Bytes).insert 1 [8])) 460800000000
    (laidOutDht 1000000000000 threeOps).LaidOutAt 1000000000000 ∧
      (laidOutDht 1000000000000 threeOps).handleSnapshot threeOpsLoc theirs none secondSector 100 =
        .ok (.newSnapshotAndHashList
          (.discSectorDetails ((∅ : NestedHashes).insert 1 ∅) 460800000000) [[1], [2]], 7) ∧
      ¬ Agreed threeOpsLoc secondSector theirs ⟨[1], 5000000⟩ ∧
      ¬ Agreed threeOpsLoc secondSector theirs ⟨[2], 500000000000⟩ ∧
      ¬ OffersAgreed threeOpsLoc (laidOutDht 1000000000000 threeOps) secondSector theirs [[1], [2]] := by
  intro theirs
  have hfirst : ¬ Agreed threeOpsLoc secondSector theirs ⟨[1], 5000000⟩ := by
    rintro ⟨hsector, _⟩
    exact absurd hsector (by decide)
  have hsecond : ¬ Agreed threeOpsLoc secondSector theirs ⟨[2], 500000000000⟩ := by
    rintro ⟨_, hcreated⟩
    exact absurd (hcreated 460800000000 rfl) (by decide)
  refine ⟨laidOutAt_laidOutDht (by decide) (by decide) threeOps, by decide +kernel, hfirst, hsecond, ?_⟩
  have hstored : (⟨⟨[1], 5000000⟩, 3⟩ : OpRecord) ∈
      (laidOutDht 1000000000000 threeOps).store.opList := List.mem_cons_self
  exact not_offersAgreed (by decide) hstored List.mem_cons_self hfirst

end DhtState

end Dht
end Kitsune2
