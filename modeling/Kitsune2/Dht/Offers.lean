import Kitsune2.Dht.RecentTime
import Kitsune2.Dht.Walk

/-!
# Offers — what the places of a laid out DHT have to offer

On a DHT whose slices lie where its last update put them, the queries for a place can be computed:
a slice of the disc is in range up to and including the one after the last full slice, a ring is in
range below the number of partial slices, and the query for the ring with exactly that number
panics.  Different places share no op, so together they offer no more than the store holds.
-/

namespace Kitsune2
namespace Dht

open Api Lib
open Std (ExtTreeMap)

/-- The data of all ops of a store. -/
def OpStore.totalBytes (st : OpStore) : Nat :=
  (st.opList.map fun op => op.dataLen).sum

/-- The ids of the ops of a cell and the `u32` total of their sizes. -/
def cellOffer (loc : LocCb) (st : OpStore) (c : Cell) : List Bytes × Nat :=
  st.opHashesInTimeSlice loc (sectorArc c.sector) c.start c.stop

theorem cellOffer_le (loc : LocCb) (st : OpStore) (c : Cell) :
    (cellOffer loc st c).2 ≤ cellBytes loc st c := by
  have hperm : (st.opsInSlice loc (sectorArc c.sector) c.start c.stop).Perm
      (st.opList.filter fun op => c.holds loc op.toStoredOp) := List.perm_insertionSort _ _
  have hsum : ((st.opsInSlice loc (sectorArc c.sector) c.start c.stop).map fun op => op.dataLen).sum =
      cellBytes loc st c := (hperm.map _).sum_eq
  calc (cellOffer loc st c).2
      = ((st.opsInSlice loc (sectorArc c.sector) c.start c.stop).map fun op => op.dataLen).sum
          % 2 ^ 32 := rfl
    _ ≤ ((st.opsInSlice loc (sectorArc c.sector) c.start c.stop).map fun op => op.dataLen).sum :=
        Nat.mod_le _ _
    _ = cellBytes loc st c := hsum

/-! ## Disjoint cells -/

theorem Cell.holds_iff {loc : LocCb} {c : Cell} {op : StoredOp} :
    c.holds loc op = true ↔
      c.start ≤ op.createdAt ∧ op.createdAt < c.stop ∧ (loc op.opId).val / sectorSize = c.sector := by
  unfold Cell.holds inSlice
  rw [Bool.and_eq_true, Bool.and_eq_true, decide_eq_true_iff, decide_eq_true_iff,
    contains_sectorArc_iff, and_assoc]

/-- An op lies in one full slice of one sector. -/
theorem fullCell_disjoint {loc : LocCb} {f i i' k k' : Nat} {op : StoredOp}
    (h : (fullCell f i k).holds loc op = true) (h' : (fullCell f i' k').holds loc op = true) :
    i = i' ∧ k = k' := by
  rcases Cell.holds_iff.mp h with ⟨hlow, hhigh, hsector⟩
  rcases Cell.holds_iff.mp h' with ⟨hlow', hhigh', hsector'⟩
  refine ⟨hsector.symm.trans hsector', ?_⟩
  simp only [fullCell] at hlow hhigh hlow' hhigh'
  have hbelow : ∀ a b : Nat, fullEnd f a ≤ op.createdAt → op.createdAt < fullEnd f (b + 1) → a ≤ b := by
    intro a b ha hb
    by_contra hlt
    have hmono : fullEnd f (b + 1) ≤ fullEnd f a := fullEnd_mono (not_le.mp hlt)
    linarith
  exact Nat.le_antisymm (hbelow k k' hlow hhigh') (hbelow k' k hlow' hhigh)

/-- An op lies in one ring of one sector. -/
theorem ringCell_disjoint {loc : LocCb} {f : Nat} {t : Int} {i i' r r' : Nat} {op : StoredOp}
    (hr : r < (slotsAt f t).length) (hr' : r' < (slotsAt f t).length)
    (h : (slotCell (slotAt f t r) i).holds loc op = true)
    (h' : (slotCell (slotAt f t r') i').holds loc op = true) : r = r' ∧ i = i' := by
  rcases Cell.holds_iff.mp h with ⟨hlow, hhigh, hsector⟩
  rcases Cell.holds_iff.mp h' with ⟨hlow', hhigh', hsector'⟩
  refine ⟨?_, hsector.symm.trans hsector'⟩
  rcases tiles_partialLayout f (fullEnd f (fullCount f t)) (t - fullEnd f (fullCount f t)).toNat
    with ⟨stop, htiles, _⟩
  have hslot : slotAt f t r = slotAt f t r' :=
    htiles.eq_of_inSlot slotLen_pos (mem_slotsAt_slotAt hr) (mem_slotsAt_slotAt hr')
      ⟨hlow, hhigh⟩ ⟨hlow', hhigh'⟩
  -- the slots start at different times
  have hsorted : (slotsAt f t).Pairwise fun a b => a.1 < b.1 := htiles.pairwise_lt slotLen_pos
  have hnodup : (slotsAt f t).Nodup := hsorted.imp fun hlt heq => by
    rw [heq] at hlt
    exact lt_irrefl _ hlt
  unfold slotAt at hslot
  rw [List.getElem?_eq_getElem hr, List.getElem?_eq_getElem hr', Option.getD_some,
    Option.getD_some] at hslot
  exact (hnodup.getElem_inj_iff).mp hslot

namespace DhtState

variable {loc : LocCb} {d : DhtState} {t : Int}

/-- The slices of the DHT lie where an update at `t` puts them. -/
def LaidOutAt (d : DhtState) (t : Int) : Prop :=
  PartitionLaidOut timeFactor t { partition := d.partition, store := d.store }

/-! ## Queries -/

theorem LaidOutAt.dhtArc (h : d.LaidOutAt t) (i : Nat) :
    orSkip (d.partition.dhtArcForSectorIndex i) =
      .ok (if i < numSectors then some (sectorArc i) else none) := by
  have hlen : d.partition.sectors.length = numSectors := h.length
  unfold HashPartition.dhtArcForSectorIndex
  by_cases hi : i < numSectors
  · have hget := List.getElem?_eq_getElem (show i < d.partition.sectors.length by omega)
    have hshape : Shape timeFactor (sectorArc i) _ := (h.sector i _ hget).shape
    rw [hget, if_pos hi]
    simp only [orSkip]
    rw [hshape.sectorConstraint]
  · rw [List.getElem?_eq_none (by omega), if_neg hi]
    rfl

theorem LaidOutAt.firstSector (h : d.LaidOutAt t) :
    ∃ tp, d.partition.firstSector = .ok tp ∧
      LaidOut timeFactor (sectorArc 0) t { part := tp, store := d.store } := by
  have hlen : d.partition.sectors.length = numSectors := h.length
  have hlt : 0 < d.partition.sectors.length := by
    rw [hlen]
    decide
  have hget := List.getElem?_eq_getElem hlt
  refine ⟨_, ?_, h.sector 0 _ hget⟩
  unfold HashPartition.firstSector
  rw [List.head?_eq_getElem?, hget]

/-- The slice after the last full slice ends less than a unit after the last update. -/
theorem fullEnd_succ_fullCount_le {f : Nat} (hsmall : (sliceLen f : Int) ≤ i64Max)
    (hroom : t + unitTime ≤ i64Max) : fullEnd f (fullCount f t + 1) ≤ i64Max := by
  rw [fullEnd_succ]
  rcases Nat.eq_zero_or_pos (fullCount f t) with hzero | hpos
  · rw [hzero]
    simpa [fullEnd] using hsmall
  · have hle := fullEnd_fullCount_le hpos
    have hlen := recentLen_add_unitTime f
    omega

theorem LaidOutAt.fullBounds (h : d.LaidOutAt t) (hroom : t + unitTime ≤ i64Max) (k : Nat) :
    orSkip (d.partition.timeBoundsForFullSliceIndex k) =
      .ok (if k ≤ fullCount timeFactor t then
        some (fullEnd timeFactor k, fullEnd timeFactor (k + 1)) else none) := by
  rcases h.firstSector with ⟨tp, hfirst, hlaid⟩
  have hcount : tp.fullSlices = fullCount timeFactor t := hlaid.fullSlices
  have hquery : d.partition.timeBoundsForFullSliceIndex k = tp.timeBoundsForFullSliceIndex k := by
    unfold HashPartition.timeBoundsForFullSliceIndex
    rw [hfirst]
    rfl
  rw [hquery]
  by_cases hk : k ≤ fullCount timeFactor t
  · have hnext : fullEnd timeFactor (k + 1) ≤ i64Max :=
      le_trans (fullEnd_mono (Nat.succ_le_succ hk))
        (fullEnd_succ_fullCount_le (by decide) hroom)
    rw [fullBounds_ok hlaid.shape (by rw [hcount]; exact hk) hnext, if_pos hk]
    rfl
  · unfold TimePartition.timeBoundsForFullSliceIndex
    rw [if_pos (by omega), if_neg hk]
    rfl

/-- The rings of the DHT. -/
def ringCount (t : Int) : Nat :=
  (slotsAt timeFactor t).length

theorem LaidOutAt.partialBounds (h : d.LaidOutAt t) (r : Nat) :
    orSkip (d.partition.timeBoundsForPartialSliceIndex r) =
      if r < ringCount t then
        .ok (some ((slotAt timeFactor t r).1,
          (slotAt timeFactor t r).1 + slotLen (slotAt timeFactor t r).2))
      else if r = ringCount t then .error (.panicked "index out of bounds")
      else .ok none := by
  rcases h.firstSector with ⟨tp, hfirst, hlaid⟩
  have hslots : tp.partialSlices.map PartialSlice.slot = slotsAt timeFactor t := hlaid.slots
  have hlen : tp.partialSlices.length = ringCount t := by
    rw [ringCount, ← hslots, List.length_map]
  have hquery : d.partition.timeBoundsForPartialSliceIndex r =
      tp.timeBoundsForPartialSliceIndex r := by
    unfold HashPartition.timeBoundsForPartialSliceIndex
    rw [hfirst]
    rfl
  rw [hquery]
  by_cases hr : r < ringCount t
  · rcases hget : tp.partialSlices[r]? with _ | p
    · have hnone := List.getElem?_eq_none_iff.mp hget
      omega
    · have hslot : p.slot = slotAt timeFactor t r := by
        unfold slotAt
        rw [← hslots, List.getElem?_map, hget]
        rfl
      have hfits : SlotFits p.slot := by
        rw [hslot]
        exact slotFits_partialLayout timeFactor_le (fullEnd_nonneg _ _)
          (fullEnd_fullCount_le_self hlaid.nonneg) hlaid.fits (mem_slotsAt_slotAt hr)
      rw [partialBounds_ok hget hfits, if_pos hr, ← hslot]
      rfl
  · rw [if_neg hr]
    by_cases heq : r = ringCount t
    · -- the check lets this index through, and the list has no element there
      unfold TimePartition.timeBoundsForPartialSliceIndex
      rw [if_neg (by omega), List.getElem?_eq_none (by omega), if_pos heq]
      rfl
    · unfold TimePartition.timeBoundsForPartialSliceIndex
      rw [if_pos (by omega), if_neg heq]
      rfl

/-! ## Offers -/

theorem LaidOutAt.discOffer_eq (h : d.LaidOutAt t) (hroom : t + unitTime ≤ i64Max) (c : Nat × Nat) :
    discOffer loc d c =
      .ok (if c.1 < numSectors ∧ c.2 ≤ fullCount timeFactor t then
        some (cellOffer loc d.store (fullCell timeFactor c.1 c.2)) else none) := by
  unfold discOffer
  rw [h.dhtArc, h.fullBounds hroom]
  by_cases hi : c.1 < numSectors
  · by_cases hk : c.2 ≤ fullCount timeFactor t
    · rw [if_pos hi, if_pos hk, if_pos ⟨hi, hk⟩]
      rfl
    · have hout : ¬ (c.1 < numSectors ∧ c.2 ≤ fullCount timeFactor t) := fun hboth => hk hboth.2
      rw [if_pos hi, if_neg hk, if_neg hout]
      rfl
  · have hout : ¬ (c.1 < numSectors ∧ c.2 ≤ fullCount timeFactor t) := fun hboth => hi hboth.1
    rw [if_neg hi, if_neg hout]
    rfl

theorem LaidOutAt.ringOffer_eq (h : d.LaidOutAt t) (c : Nat × Nat) :
    ringOffer loc d c =
      if c.2 < numSectors then
        if c.1 < ringCount t then
          .ok (some (cellOffer loc d.store (slotCell (slotAt timeFactor t c.1) c.2)))
        else if c.1 = ringCount t then .error (.panicked "index out of bounds")
        else .ok none
      else .ok none := by
  unfold ringOffer
  rw [h.dhtArc, h.partialBounds]
  by_cases hi : c.2 < numSectors
  · rw [if_pos hi, if_pos hi]
    by_cases hr : c.1 < ringCount t
    · rw [if_pos hr, if_pos hr]
      rfl
    · rw [if_neg hr, if_neg hr]
      by_cases heq : c.1 = ringCount t
      · rw [if_pos heq, if_pos heq]
        rfl
      · rw [if_neg heq, if_neg heq]
        rfl
  · rw [if_neg hi, if_neg hi]
    rfl

/-- The only fault is the panic of the ring after the last one. -/
theorem LaidOutAt.ringOffer_fault (h : d.LaidOutAt t) {c : Nat × Nat} {e : Fault}
    (hfault : ringOffer loc d c = .error e) :
    c.2 < numSectors ∧ c.1 = ringCount t ∧ e = .panicked "index out of bounds" := by
  rw [h.ringOffer_eq c] at hfault
  split at hfault
  · rename_i hi
    split at hfault
    · cases hfault
    · split at hfault
      · rename_i heq
        cases hfault
        exact ⟨hi, heq, rfl⟩
      · cases hfault
  · cases hfault

/-! ### Together -/

theorem LaidOutAt.discOffers_le (h : d.LaidOutAt t) (hroom : t + unitTime ≤ i64Max)
    {cells : List (Nat × Nat)} (hcells : cells.Pairwise PlaceBefore) :
    (cells.map fun c => offerBytes (discOffer loc d c)).sum ≤ d.store.totalBytes := by
  have hdisj : cells.Pairwise fun a b => ∀ op : OpRecord,
      (fullCell timeFactor a.1 a.2).holds loc op.toStoredOp = true →
        (fullCell timeFactor b.1 b.2).holds loc op.toStoredOp = false := by
    refine hcells.imp ?_
    intro a b hbefore op ha
    by_contra hb
    rcases fullCell_disjoint ha (Bool.not_eq_false _ ▸ hb) with ⟨hfst, hsnd⟩
    rcases hbefore with hlt | ⟨_, hlt⟩
    · omega
    · omega
  refine le_trans (List.sum_le_sum fun c _ => ?_)
    (sum_batches_le cells d.store.opList hdisj)
  rw [h.discOffer_eq hroom c]
  by_cases hin : c.1 < numSectors ∧ c.2 ≤ fullCount timeFactor t
  · rw [if_pos hin, offerBytes_some]
    exact cellOffer_le loc d.store _
  · rw [if_neg hin]
    exact Nat.zero_le _

theorem LaidOutAt.ringOffers_le (h : d.LaidOutAt t) {cells : List (Nat × Nat)}
    (hcells : cells.Pairwise PlaceBefore) :
    (cells.map fun c => offerBytes (ringOffer loc d c)).sum ≤ d.store.totalBytes := by
  -- different places hold different ops, so their sizes add up to at most the whole store
  have hdisj : cells.Pairwise fun a b => ∀ op : OpRecord,
      (decide (a.1 < ringCount t) &&
          (slotCell (slotAt timeFactor t a.1) a.2).holds loc op.toStoredOp) = true →
        (decide (b.1 < ringCount t) &&
          (slotCell (slotAt timeFactor t b.1) b.2).holds loc op.toStoredOp) = false := by
    refine hcells.imp ?_
    intro a b hbefore op ha
    by_contra hb
    rw [Bool.not_eq_false, Bool.and_eq_true, decide_eq_true_iff] at hb
    rw [Bool.and_eq_true, decide_eq_true_iff] at ha
    rcases ringCell_disjoint ha.1 hb.1 ha.2 hb.2 with ⟨hfst, hsnd⟩
    rcases hbefore with hlt | ⟨_, hlt⟩
    · omega
    · omega
  refine le_trans (List.sum_le_sum fun c _ => ?_)
    (sum_batches_le cells d.store.opList hdisj)
  rw [h.ringOffer_eq c]
  by_cases hi : c.2 < numSectors
  · rw [if_pos hi]
    by_cases hr : c.1 < ringCount t
    · rw [if_pos hr, offerBytes_some]
      simp only [hr, decide_true, Bool.true_and]
      exact cellOffer_le loc d.store _
    · rw [if_neg hr]
      by_cases heq : c.1 = ringCount t
      · rw [if_pos heq]
        exact Nat.zero_le _
      · rw [if_neg heq]
        exact Nat.zero_le _
  · rw [if_neg hi]
    exact Nat.zero_le _

/-! ## Answers -/

/-- The answer to a snapshot is that of a walk over the places at which two maps differ. -/
structure AnswersBy (loc : LocCb) (d : DhtState) (theirs : DhtSnapshot) (prev : Option DhtSnapshot)
    (arcSet : ArcSet) (offer : Nat × Nat → Offer) (ourHashes theirHashes : NestedHashes)
    (cells : List (Nat × Nat)) : Prop where
  sorted : cells.Pairwise PlaceBefore
  mem_iff : ∀ c, c ∈ cells ↔ lookupHash ourHashes c.1 c.2 ≠ lookupHash theirHashes c.1 c.2
  walk : ∀ limit, ∃ r, Walks offer limit cells ([], 0) r ∧
    (∀ found, r = .ok found → ∃ action,
      d.handleSnapshot loc theirs prev arcSet limit = .ok (action, found.2) ∧ action.opIds = found.1) ∧
    ∀ e, r = .error e → d.handleSnapshot loc theirs prev arcSet limit = .error e

section Answers

variable {theirs ours : DhtSnapshot} {prev : Option DhtSnapshot} {arcSet : ArcSet}
  {ourHashes theirHashes : NestedHashes} {boundary : Int} {offer : Nat × Nat → Offer}
  {cells : List (Nat × Nat)}

/-- How an answer follows from what a loop has collected. -/
theorem finish_run {isFinal : Bool} {run : Except Fault Collected} {limit : Int}
    (h : d.handleSnapshot loc theirs prev arcSet limit =
      (run >>= fun found => pure (finishList isFinal ours found))) :
    (∀ found, run = .ok found → ∃ action,
      d.handleSnapshot loc theirs prev arcSet limit = .ok (action, found.2) ∧ action.opIds = found.1) ∧
    ∀ e, run = .error e → d.handleSnapshot loc theirs prev arcSet limit = .error e := by
  rw [h]
  constructor
  · rintro found rfl
    rcases hfinish : finishList isFinal ours found with ⟨action, used⟩
    have hfound := finishList_found hfinish
    refine ⟨action, ?_, congrArg Prod.fst hfound⟩
    show (.ok (finishList isFinal ours found) : Except Fault _) = _
    rw [hfinish, ← hfound]
  · rintro e rfl
    rfl

theorem ne_of_lookupHash_ne {i j : Nat}
    (h : lookupHash ourHashes i j ≠ lookupHash theirHashes i j) : ourHashes ≠ theirHashes := by
  rintro rfl
  exact h rfl

theorem answersBy_disc (loc : LocCb) (harcs : arcSet.coveredSectorCount ≠ 0)
    (hne : ourHashes ≠ theirHashes)
    (hours : d.matchingSnapshot (.discSectorDetails theirHashes boundary) prev arcSet =
      .ok (.discSectorDetails ourHashes boundary)) :
    AnswersBy loc d (.discSectorDetails theirHashes boundary) prev arcSet (discOffer loc d)
      ourHashes theirHashes (ringSlots (mismatchedSlices ourHashes theirHashes).toList) := by
  have hexact := exactPairs_mismatchedSlices ourHashes theirHashes
  refine ⟨pairwise_ringSlots hexact.nodup, ?_, ?_⟩
  · intro c
    rw [mem_ringSlots_iff]
    exact hexact.mem_iff c.1 c.2
  · intro limit
    exact ⟨_, collectDisc_walks _ _,
      finish_run (handleSnapshot_disc harcs hours (DhtSnapshot.compare_discDetails hne boundary))⟩

theorem answersBy_rings (loc : LocCb) (harcs : arcSet.coveredSectorCount ≠ 0)
    (hne : ourHashes ≠ theirHashes)
    (hkeys : ∀ k, k ∈ ourHashes ↔ k ∈ theirHashes)
    (hours : d.matchingSnapshot (.ringSectorDetails theirHashes boundary) prev arcSet =
      .ok (.ringSectorDetails ourHashes boundary)) :
    AnswersBy loc d (.ringSectorDetails theirHashes boundary) prev arcSet (ringOffer loc d)
      ourHashes theirHashes (ringSlots (mismatchedRingSectors ourHashes theirHashes).toList) := by
  have hexact := exactPairs_mismatchedRingSectors hkeys
  refine ⟨pairwise_ringSlots hexact.nodup, ?_, ?_⟩
  · intro c
    rw [mem_ringSlots_iff]
    exact hexact.mem_iff c.1 c.2
  · intro limit
    exact ⟨_, collectRings_walks _ _, finish_run
      (handleSnapshot_rings harcs hours (DhtSnapshot.compare_ringDetails hne hkeys boundary))⟩

/-- Without faulty places there is an answer to every budget. -/
theorem AnswersBy.returns (h : AnswersBy loc d theirs prev arcSet offer ourHashes theirHashes cells)
    (hsafe : ∀ c ∈ cells, ∀ e, offer c ≠ .error e)
    (hsum : (cells.map fun c => offerBytes (offer c)).sum ≤ u32Max) (limit : Int) :
    ∃ answer, d.handleSnapshot loc theirs prev arcSet limit = .ok answer := by
  rcases h.walk limit with ⟨r, hwalk, hok, _⟩
  rcases hwalk.returns hsafe (by simpa using hsum) with ⟨found, hfound⟩
  rcases hok found hfound with ⟨action, hanswer, _⟩
  exact ⟨_, hanswer⟩

/-- With a budget for everything there is, the answer is the fault of a place, or it has the ids of
all places. -/
theorem AnswersBy.visits_all {total : Nat}
    (h : AnswersBy loc d theirs prev arcSet offer ourHashes theirHashes cells)
    (hsum : (cells.map fun c => offerBytes (offer c)).sum ≤ total) (htotal : total < 2 ^ 31 - 1) :
    (∃ c ∈ cells, ∃ e, offer c = .error e ∧
      d.handleSnapshot loc theirs prev arcSet (total + 1) = .error e) ∨
    ∃ action used, d.handleSnapshot loc theirs prev arcSet (total + 1) = .ok (action, used) ∧
      ∀ c ∈ cells, (∀ e, offer c ≠ .error e) ∧ ∀ x ∈ offerIds (offer c), x ∈ action.opIds := by
  rcases h.walk (total + 1) with ⟨r, hwalk, hok, herror⟩
  rcases hwalk.visits_all (by simp only; omega) (by omega)
    with ⟨c, hc, e, hfault, hr⟩ | ⟨found, hr, _, hall⟩
  · exact Or.inl ⟨c, hc, e, hfault, herror e hr⟩
  · rcases hok found hr with ⟨action, hanswer, hids⟩
    refine Or.inr ⟨action, _, hanswer, ?_⟩
    rw [hids]
    exact hall

end Answers

end DhtState

end Dht
end Kitsune2
