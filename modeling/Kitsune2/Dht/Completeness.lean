import Mathlib.Data.List.Flatten
import Kitsune2.Dht.Sync

/-!
# Completeness — an exchange finds every op that one node lacks

With budgets that are larger than all the data of a node and hashes that tell different sets of ops
apart, the lists of an exchange hold every op that exactly one of the nodes has: those of the disc
if the discs differ, else those of the rings.  Two rounds therefore bring the nodes together.
-/

namespace Kitsune2
namespace Dht

open Api Lib

variable {loc : LocCb} {f n : Nat} {t : Int} {arcSet : ArcSet} {a b : List StoredOp}

/-! ## Regions -/

/-- Both sides hold the same ops of the region. -/
def SameOn (p : StoredOp → Bool) (a b : List StoredOp) : Prop :=
  ∀ op, p op = true → (op ∈ a ↔ op ∈ b)

/-- The hash of the region tells the two sides apart. -/
def Tells (p : StoredOp → Bool) (a b : List StoredOp) : Prop :=
  regionXor a p = regionXor b p → SameOn p a b

/-- The disc over the arc set. -/
def discRegion (loc : LocCb) (f : Nat) (t : Int) (arcSet : ArcSet) : StoredOp → Bool :=
  inArcs loc arcSet 0 (boundaryAt f t)

/-- A ring over the arc set. -/
def ringRegion (loc : LocCb) (arcSet : ArcSet) (slot : Int × Nat) : StoredOp → Bool :=
  inArcs loc arcSet slot.1 (slot.1 + slotLen slot.2)

/-- The disc of one sector. -/
def sectorRegion (loc : LocCb) (f : Nat) (t : Int) (i : Nat) : StoredOp → Bool :=
  inSlice loc (sectorArc i) 0 (boundaryAt f t)

/-- Equal hashes of compared sets of ops mean equal sets, for the regions of the disc. -/
structure DiscTells (loc : LocCb) (f : Nat) (t : Int) (arcSet : ArcSet) (a b : List StoredOp) :
    Prop where
  disc : Tells (discRegion loc f t arcSet) a b
  sector : ∀ i ∈ arcSet.sectors, Tells (sectorRegion loc f t i) a b
  slice : ∀ i ∈ arcSet.sectors, ∀ k < fullCount f t, Tells ((fullCell f i k).holds loc) a b

/-- The same for the regions of the rings. -/
structure RingsTell (loc : LocCb) (f : Nat) (t : Int) (arcSet : ArcSet) (a b : List StoredOp) :
    Prop where
  ring : ∀ slot ∈ slotsAt f t, Tells (ringRegion loc arcSet slot) a b
  sector : ∀ slot ∈ slotsAt f t, ∀ i ∈ arcSet.sectors, Tells ((slotCell slot i).holds loc) a b

theorem regionXor_of_sameOn {p : StoredOp → Bool} (ha : a.Nodup) (hb : b.Nodup)
    (h : SameOn p a b) : regionXor a p = regionXor b p := by
  unfold regionXor
  apply xorAll_perm
  apply List.Perm.map
  refine (List.perm_ext_iff_of_nodup (ha.filter _) (hb.filter _)).mpr ?_
  intro op
  rw [List.mem_filter, List.mem_filter]
  constructor
  · rintro ⟨hmem, hp⟩
    exact ⟨(h op hp).mp hmem, hp⟩
  · rintro ⟨hmem, hp⟩
    exact ⟨(h op hp).mpr hmem, hp⟩

theorem SameOn.of_unchanged {p : StoredOp → Bool} {a a' b b' : List StoredOp} (h : SameOn p a b)
    (ha : SameOn p a' a) (hb : SameOn p b' b) : SameOn p a' b' := fun op hop =>
  (ha op hop).trans ((h op hop).trans (hb op hop).symm)

theorem Tells.of_unchanged {p : StoredOp → Bool} {a a' b b' : List StoredOp} (h : Tells p a b)
    (ha : SameOn p a' a) (hb : SameOn p b' b) (hnda : a.Nodup) (hnda' : a'.Nodup) (hndb : b.Nodup)
    (hndb' : b'.Nodup) : Tells p a' b' := by
  intro heq
  rw [regionXor_of_sameOn hnda' hnda ha, regionXor_of_sameOn hndb' hndb hb] at heq
  exact SameOn.of_unchanged (h heq) ha hb

theorem inArcs_iff {start stop : Int} {op : StoredOp} :
    inArcs loc arcSet start stop op = true ↔ (start ≤ op.createdAt ∧ op.createdAt < stop) ∧
      HashPartition.sectorIndex loc sectorSize op ∈ arcSet.sectors := by
  rw [inArcs_eq]
  simp

/-- The full slice of a time before the boundary. -/
theorem exists_slice {x : Int} (hlow : 0 ≤ x) (hhigh : x < boundaryAt f t) :
    ∃ k < fullCount f t, fullEnd f k ≤ x ∧ x < fullEnd f (k + 1) := by
  have hlen : (0 : Int) < sliceLen f := by exact_mod_cast sliceLen_pos f
  have hnonneg : 0 ≤ x / (sliceLen f : Int) := Int.ediv_nonneg hlow (le_of_lt hlen)
  refine ⟨(x / sliceLen f).toNat, ?_, ?_, ?_⟩
  · have hlt : x / sliceLen f < fullCount f t := by
      apply Int.ediv_lt_of_lt_mul hlen
      rw [Int.mul_comm]
      exact hhigh
    omega
  · unfold fullEnd
    rw [Int.toNat_of_nonneg hnonneg]
    exact Int.mul_ediv_self_le (ne_of_gt hlen)
  · rw [fullEnd_succ]
    unfold fullEnd
    rw [Int.toNat_of_nonneg hnonneg]
    exact Int.lt_mul_ediv_self_add hlen

/-! ## Every difference lies in a differing cell -/

theorem exists_discCell (h : DiscTells loc f t arcSet a b) {op : StoredOp}
    (hop : discRegion loc f t arcSet op = true) (hdiff : ¬ (op ∈ a ↔ op ∈ b)) :
    ∃ c ∈ discCells loc f t arcSet a b, c.holds loc op = true := by
  rcases inArcs_iff.mp hop with ⟨⟨hlow, hhigh⟩, hi⟩
  rcases exists_slice hlow hhigh with ⟨k, hk, hstart, hstop⟩
  have hcell : (fullCell f (HashPartition.sectorIndex loc sectorSize op) k).holds loc op = true :=
    DhtState.holds_iff.mpr ⟨⟨hstart, hstop⟩, rfl⟩
  refine ⟨_, ?_, hcell⟩
  -- a sector or slice with equal hashes would hold the same ops on both sides
  have hsector : HashPartition.sectorIndex loc sectorSize op ∈ diffSectors loc f t arcSet a b := by
    refine List.mem_filter.mpr ⟨hi, decide_eq_true fun heq => hdiff ?_⟩
    refine h.sector _ hi heq op ?_
    unfold sectorRegion inSlice
    rw [← contains_sectorArc_eq]
    simp [hlow, hhigh]
  have hslice : k ∈ diffSlices loc f t a b (HashPartition.sectorIndex loc sectorSize op) := by
    refine List.mem_filter.mpr ⟨List.mem_range.mpr hk, decide_eq_true fun heq => hdiff ?_⟩
    exact h.slice _ hi k hk heq op hcell
  exact List.mem_flatMap.mpr ⟨_, hsector, List.mem_map.mpr ⟨k, hslice, rfl⟩⟩

theorem exists_ringCell (h : RingsTell loc f t arcSet a b) {slot : Int × Nat}
    (hslot : slot ∈ slotsAt f t) {op : StoredOp} (hop : ringRegion loc arcSet slot op = true)
    (hdiff : ¬ (op ∈ a ↔ op ∈ b)) :
    ∃ c ∈ ringCells loc f t arcSet a b, c.holds loc op = true := by
  rcases inArcs_iff.mp hop with ⟨hbounds, hi⟩
  rcases List.getElem?_of_mem hslot with ⟨r, hr⟩
  have hlt : r < (slotsAt f t).length := (List.getElem?_eq_some_iff.mp hr).1
  have hat : slotAt f t r = slot := by
    unfold slotAt
    rw [hr, Option.getD_some]
  have hcell : (slotCell slot (HashPartition.sectorIndex loc sectorSize op)).holds loc op = true :=
    DhtState.holds_iff.mpr ⟨hbounds, rfl⟩
  refine ⟨_, ?_, hcell⟩
  have hring : r ∈ diffRings loc f t arcSet a b := by
    refine List.mem_filter.mpr ⟨List.mem_range.mpr hlt, decide_eq_true fun heq => hdiff ?_⟩
    rw [hat] at heq
    exact h.ring slot hslot heq op hop
  have hsector : HashPartition.sectorIndex loc sectorSize op ∈
      diffRingSectors loc f t arcSet a b r := by
    refine List.mem_filter.mpr ⟨hi, decide_eq_true fun heq => hdiff ?_⟩
    rw [hat] at heq
    exact h.sector slot hslot _ hi heq op hcell
  exact List.mem_flatMap.mpr ⟨r, hring, List.mem_map.mpr ⟨_, hsector, by rw [hat]⟩⟩

/-! ## Disc and rings are apart -/

theorem discCell_before {c : Cell} (hc : c ∈ discCells loc f t arcSet a b) {op : StoredOp}
    (hop : c.holds loc op = true) : op.createdAt < boundaryAt f t := by
  rcases List.mem_flatMap.mp hc with ⟨i, _, hcell⟩
  rcases List.mem_map.mp hcell with ⟨k, hk, rfl⟩
  have hlt := List.mem_range.mp (List.mem_filter.mp hk).1
  exact lt_of_lt_of_le (DhtState.holds_iff.mp hop).1.2 (fullEnd_mono hlt)

theorem slot_after_boundary {slot : Int × Nat} (hslot : slot ∈ slotsAt f t) :
    boundaryAt f t ≤ slot.1 := by
  rcases tiles_partialLayout f (fullEnd f (fullCount f t)) (t - fullEnd f (fullCount f t)).toNat
    with ⟨stop, htiles, _⟩
  exact (htiles.bounds slotLen_pos hslot).1

theorem ringCell_after {c : Cell} (hc : c ∈ ringCells loc f t arcSet a b) {op : StoredOp}
    (hop : c.holds loc op = true) : boundaryAt f t ≤ op.createdAt := by
  rcases List.mem_flatMap.mp hc with ⟨r, hr, hcell⟩
  rcases List.mem_map.mp hcell with ⟨i, _, rfl⟩
  have hslot := mem_slotsAt_slotAt (List.mem_range.mp (List.mem_filter.mp hr).1)
  exact le_trans (slot_after_boundary hslot) (DhtState.holds_iff.mp hop).1.1

/-! ## Budgets -/

/-- All slices of the sectors of an arc set. -/
def allDiscCells (f : Nat) (t : Int) (arcSet : ArcSet) : List Cell :=
  arcSet.sectors.flatMap fun i => (List.range (fullCount f t)).map (fullCell f i)

/-- All rings of the sectors of an arc set. -/
def allRingCells (f : Nat) (t : Int) (arcSet : ArcSet) : List Cell :=
  (List.range (slotsAt f t).length).flatMap fun r => arcSet.sectors.map (slotCell (slotAt f t r))

theorem discCells_sublist : (discCells loc f t arcSet a b).Sublist (allDiscCells f t arcSet) := by
  have hslices : (discCells loc f t arcSet a b).Sublist
      ((diffSectors loc f t arcSet a b).flatMap fun i =>
        (List.range (fullCount f t)).map (fullCell f i)) :=
    List.Sublist.flatMap_right _ fun i _ => List.filter_sublist.map _
  have hsectors : (diffSectors loc f t arcSet a b).Sublist arcSet.sectors := List.filter_sublist
  exact hslices.trans (hsectors.flatMap _)

theorem ringCells_sublist : (ringCells loc f t arcSet a b).Sublist (allRingCells f t arcSet) := by
  have hsectors : (ringCells loc f t arcSet a b).Sublist
      ((diffRings loc f t arcSet a b).flatMap fun r => arcSet.sectors.map (slotCell (slotAt f t r))) :=
    List.Sublist.flatMap_right _ fun r _ => List.filter_sublist.map _
  have hrings : (diffRings loc f t arcSet a b).Sublist (List.range (slotsAt f t).length) :=
    List.filter_sublist
  exact hsectors.trans (hrings.flatMap _)

theorem weightOf_le_of_sublist {st : OpStore} {l l' : List Cell} (h : l.Sublist l') :
    DhtState.weightOf loc st l ≤ DhtState.weightOf loc st l' :=
  (h.map _).sum_le_sum fun _ _ => Nat.zero_le _

namespace DhtState

section Rounds

variable {A B A' B' : DhtState} {budgetA budgetB : Nat} {out : Outcome}

theorem nodup_stored {st : OpStore} (h : st.ids.Nodup) : st.stored.Nodup := by
  have hmap : st.stored.map (fun op => op.opId) = st.ids := by
    unfold OpStore.stored OpStore.ids
    rw [List.map_map]
    rfl
  exact List.Nodup.of_map _ (hmap ▸ h)

/-- Budgets that are larger than everything that a list can be about. -/
structure Ample (loc : LocCb) (t : Int) (arcSet : ArcSet) (budget : Nat) (d : DhtState) : Prop where
  disc : weightOf loc d.store (allDiscCells timeFactor t arcSet) < budget
  rings : weightOf loc d.store (allRingCells timeFactor t arcSet) < budget
  fits : budget < 2 ^ 31

theorem Ample.cells_lt {d : DhtState} {budget : Nat} (h : Ample loc t arcSet budget d) (A B : DhtState) :
    weightOf loc d.store (cellsBetween loc t arcSet A B) < budget := by
  unfold cellsBetween diffCells
  by_cases hdisc : DiscDiffers loc timeFactor t arcSet A.store.stored B.store.stored
  · rw [if_pos hdisc]
    exact lt_of_le_of_lt (weightOf_le_of_sublist discCells_sublist) h.disc
  · rw [if_neg hdisc]
    exact lt_of_le_of_lt (weightOf_le_of_sublist ringCells_sublist) h.rings

/-- Every op of a differing cell is listed by its holder. -/
theorem listed_of_cell {st : OpStore} {budget used : Nat} {cells : List Cell}
    {offered : List Bytes} (hsum : weightOf loc st cells < budget)
    (hpicks : Picks (cellIds loc st) (cellBytes loc st) budget ([], 0) cells (offered, used))
    {c : Cell} (hc : c ∈ cells) {op : StoredOp} (hop : op ∈ st.stored)
    (hholds : c.holds loc op = true) : op.opId ∈ offered := by
  rcases List.mem_map.mp hop with ⟨r, hr, rfl⟩
  have hids : r.opId ∈ cellIds loc st c := mem_cellIds_iff.mpr ⟨r, hr, hholds, rfl⟩
  exact hpicks.mem_of_sum_lt (by simpa [weightOf] using hsum) hc hids

/-- The exchange has listed every op of the region that one side lacks. -/
def ListsAll (p : StoredOp → Bool) (A B : DhtState) (out : Outcome) : Prop :=
  ∀ op, p op = true → (op ∈ A.store.stored → op ∉ B.store.stored → op.opId ∈ out.fromOther) ∧
    (op ∈ B.store.stored → op ∉ A.store.stored → op.opId ∈ out.fromHandler)

/-- Both sides list the ops of the differing cells. -/
theorem ExchangeResult.listsAll (h : ExchangeResult loc t arcSet budgetA budgetB A B out)
    (hA : weightOf loc A.store (cellsBetween loc t arcSet A B) < budgetA)
    (hB : weightOf loc B.store (cellsBetween loc t arcSet A B) < budgetB) {p : StoredOp → Bool}
    (hcell : ∀ op, p op = true → ¬ (op ∈ A.store.stored ↔ op ∈ B.store.stored) →
      ∃ c ∈ cellsBetween loc t arcSet A B, c.holds loc op = true) : ListsAll p A B out := by
  rcases h.fromFirst with ⟨usedA, hpicksA⟩
  rcases h.fromSecond with ⟨usedB, hpicksB⟩
  intro op hp
  refine ⟨?_, ?_⟩
  · intro hmem hnot
    rcases hcell op hp (fun hiff => hnot (hiff.mp hmem)) with ⟨c, hc, hholds⟩
    exact listed_of_cell hA hpicksA hc hmem hholds
  · intro hmem hnot
    rcases hcell op hp (fun hiff => hnot (hiff.mpr hmem)) with ⟨c, hc, hholds⟩
    exact listed_of_cell hB hpicksB hc hmem hholds

theorem ExchangeResult.listsAll_disc (h : ExchangeResult loc t arcSet budgetA budgetB A B out)
    (hA : weightOf loc A.store (cellsBetween loc t arcSet A B) < budgetA)
    (hB : weightOf loc B.store (cellsBetween loc t arcSet A B) < budgetB)
    (htells : DiscTells loc timeFactor t arcSet A.store.stored B.store.stored)
    (hdisc : DiscDiffers loc timeFactor t arcSet A.store.stored B.store.stored) :
    ListsAll (discRegion loc timeFactor t arcSet) A B out := by
  apply h.listsAll hA hB
  intro op hp hdiff
  have hcells : cellsBetween loc t arcSet A B = discCells loc timeFactor t arcSet _ _ := if_pos hdisc
  rw [hcells]
  exact exists_discCell htells hp hdiff

theorem ExchangeResult.listsAll_ring (h : ExchangeResult loc t arcSet budgetA budgetB A B out)
    (hA : weightOf loc A.store (cellsBetween loc t arcSet A B) < budgetA)
    (hB : weightOf loc B.store (cellsBetween loc t arcSet A B) < budgetB)
    (htells : RingsTell loc timeFactor t arcSet A.store.stored B.store.stored)
    (hdisc : ¬ DiscDiffers loc timeFactor t arcSet A.store.stored B.store.stored)
    {slot : Int × Nat} (hslot : slot ∈ slotsAt timeFactor t) :
    ListsAll (ringRegion loc arcSet slot) A B out := by
  apply h.listsAll hA hB
  intro op hp hdiff
  have hcells : cellsBetween loc t arcSet A B = ringCells loc timeFactor t arcSet _ _ := if_neg hdisc
  rw [hcells]
  exact exists_ringCell htells hslot hp hdiff

/-! ## What a round settles and what it leaves alone -/

theorem Round.stored_left (hr : Round loc n t arcSet budgetA budgetB A B out A' B')
    (h : Syncable loc n t arcSet A B) {op : StoredOp} : op ∈ A'.store.stored ↔
      op ∈ A.store.stored ∨ (op ∈ B.store.stored ∧ op.opId ∈ out.fromHandler) := by
  unfold OpStore.stored
  simp only [List.mem_map]
  constructor
  · rintro ⟨r, hmem, rfl⟩
    exact ((hr.mem_left h).mp hmem).imp (fun hA => ⟨r, hA, rfl⟩) fun hB => ⟨⟨r, hB.1, rfl⟩, hB.2⟩
  · rintro (⟨r, hmem, rfl⟩ | ⟨⟨r, hmem, rfl⟩, hoff⟩)
    · exact ⟨r, (hr.mem_left h).mpr (Or.inl hmem), rfl⟩
    · exact ⟨r, (hr.mem_left h).mpr (Or.inr ⟨hmem, hoff⟩), rfl⟩

theorem Round.stored_right (hr : Round loc n t arcSet budgetA budgetB A B out A' B')
    (h : Syncable loc n t arcSet A B) {op : StoredOp} : op ∈ B'.store.stored ↔
      op ∈ B.store.stored ∨ (op ∈ A.store.stored ∧ op.opId ∈ out.fromOther) := by
  unfold OpStore.stored
  simp only [List.mem_map]
  constructor
  · rintro ⟨r, hmem, rfl⟩
    exact ((hr.mem_right h).mp hmem).imp (fun hB => ⟨r, hB, rfl⟩) fun hA => ⟨⟨r, hA.1, rfl⟩, hA.2⟩
  · rintro (⟨r, hmem, rfl⟩ | ⟨⟨r, hmem, rfl⟩, hoff⟩)
    · exact ⟨r, (hr.mem_right h).mpr (Or.inl hmem), rfl⟩
    · exact ⟨r, (hr.mem_right h).mpr (Or.inr ⟨hmem, hoff⟩), rfl⟩

/-- Listing all differences of a region settles it. -/
theorem Round.sameOn_of_listsAll (hr : Round loc n t arcSet budgetA budgetB A B out A' B')
    (h : Syncable loc n t arcSet A B) {p : StoredOp → Bool} (hlists : ListsAll p A B out) :
    SameOn p A'.store.stored B'.store.stored := by
  intro op hp
  rcases hlists op hp with ⟨hleft, hright⟩
  rw [hr.stored_left h, hr.stored_right h]
  by_cases hA : op ∈ A.store.stored
  · by_cases hB : op ∈ B.store.stored
    · simp [hA, hB]
    · simp [hA, hB, hleft hA hB]
  · by_cases hB : op ∈ B.store.stored
    · simp [hA, hB, hright hB hA]
    · simp [hA, hB]

/-- A listed op lies in a differing cell. -/
theorem listed_in_cell {st : OpStore} {budget used : Nat} {a b : List StoredOp}
    {offered : List Bytes} (hst : st.ids.Nodup)
    (hpicks : Picks (cellIds loc st) (cellBytes loc st) budget ([], 0)
      (diffCells loc timeFactor t arcSet a b) (offered, used)) {op : StoredOp}
    (hop : op ∈ st.stored) (hoff : op.opId ∈ offered) :
    ∃ c ∈ diffCells loc timeFactor t arcSet a b, c.holds loc op = true := by
  rcases List.mem_map.mp hop with ⟨r, hr, rfl⟩
  rcases offered_source hst hpicks hr hoff with ⟨c, hc, _, hholds⟩
  exact ⟨c, hc, hholds⟩

/-- A region that no differing cell touches stays as it is. -/
theorem Round.unchanged_of_cells (hr : Round loc n t arcSet budgetA budgetB A B out A' B')
    (h : Syncable loc n t arcSet A B) {p : StoredOp → Bool}
    (hout : ∀ op, p op = true → ∀ c ∈ cellsBetween loc t arcSet A B, ¬ c.holds loc op = true) :
    SameOn p A'.store.stored A.store.stored ∧ SameOn p B'.store.stored B.store.stored := by
  rcases hr.result.fromFirst with ⟨usedA, hpicksA⟩
  rcases hr.result.fromSecond with ⟨usedB, hpicksB⟩
  refine ⟨?_, ?_⟩
  · intro op hp
    rw [hr.stored_left h]
    refine ⟨fun hmem => hmem.resolve_right ?_, Or.inl⟩
    rintro ⟨hB, hoff⟩
    rcases listed_in_cell h.rightOnce hpicksB hB hoff with ⟨c, hc, hholds⟩
    exact hout op hp c hc hholds
  · intro op hp
    rw [hr.stored_right h]
    refine ⟨fun hmem => hmem.resolve_right ?_, Or.inl⟩
    rintro ⟨hA, hoff⟩
    rcases listed_in_cell h.leftOnce hpicksA hA hoff with ⟨c, hc, hholds⟩
    exact hout op hp c hc hholds

/-- A round that finds no difference changes nothing. -/
theorem Round.sameOn_of_nil (hr : Round loc n t arcSet budgetA budgetB A B out A' B')
    (h : Syncable loc n t arcSet A B) (hnil : cellsBetween loc t arcSet A B = [])
    {p : StoredOp → Bool} (hp : SameOn p A.store.stored B.store.stored) :
    SameOn p A'.store.stored B'.store.stored := by
  rcases hr.unchanged_of_cells (p := p) h (fun op _ c hc => by rw [hnil] at hc; cases hc)
    with ⟨hsameA, hsameB⟩
  exact SameOn.of_unchanged hp hsameA hsameB

/-- While the discs differ, a round leaves everything after the boundary alone. -/
theorem Round.unchanged_after (hr : Round loc n t arcSet budgetA budgetB A B out A' B')
    (h : Syncable loc n t arcSet A B)
    (hdisc : DiscDiffers loc timeFactor t arcSet A.store.stored B.store.stored)
    {p : StoredOp → Bool} (hp : ∀ op, p op = true → boundaryAt timeFactor t ≤ op.createdAt) :
    SameOn p A'.store.stored A.store.stored ∧ SameOn p B'.store.stored B.store.stored := by
  apply hr.unchanged_of_cells h
  intro op hop c hc hholds
  have hcells : cellsBetween loc t arcSet A B = discCells loc timeFactor t arcSet _ _ := if_pos hdisc
  rw [hcells] at hc
  exact absurd (hp op hop) (not_le.mpr (discCell_before hc hholds))

/-- A round that is about the rings leaves the disc alone. -/
theorem Round.unchanged_before (hr : Round loc n t arcSet budgetA budgetB A B out A' B')
    (h : Syncable loc n t arcSet A B)
    (hdisc : ¬ DiscDiffers loc timeFactor t arcSet A.store.stored B.store.stored)
    {p : StoredOp → Bool} (hp : ∀ op, p op = true → op.createdAt < boundaryAt timeFactor t) :
    SameOn p A'.store.stored A.store.stored ∧ SameOn p B'.store.stored B.store.stored := by
  apply hr.unchanged_of_cells h
  intro op hop c hc hholds
  have hcells : cellsBetween loc t arcSet A B = ringCells loc timeFactor t arcSet _ _ := if_neg hdisc
  rw [hcells] at hc
  exact absurd (hp op hop) (not_lt.mpr (ringCell_after hc hholds))

/-! ## Two rounds -/

/-- Both sides hold the same ops in all the time that slices cover. -/
structure SameCovered (loc : LocCb) (t : Int) (arcSet : ArcSet) (a b : List StoredOp) : Prop where
  disc : SameOn (discRegion loc timeFactor t arcSet) a b
  rings : ∀ slot ∈ slotsAt timeFactor t, SameOn (ringRegion loc arcSet slot) a b

theorem Syncable.sameMinimal_of_sameCovered (h : Syncable loc n t arcSet A B)
    (hsame : SameCovered loc t arcSet A.store.stored B.store.stored) : SameMinimal arcSet A B := by
  have hA := nodup_stored h.leftOnce
  have hB := nodup_stored h.rightOnce
  refine h.sameMinimal_iff.mpr (minimalOf_eq_iff.mpr ⟨?_, ?_⟩)
  · exact fun hdiff => hdiff (regionXor_of_sameOn hA hB hsame.disc)
  · refine List.filter_eq_nil_iff.mpr ?_
    intro r hr
    have hslot := mem_slotsAt_slotAt (List.mem_range.mp hr)
    have heq := regionXor_of_sameOn hA hB (hsame.rings _ hslot)
    simp only [ne_eq, decide_not, Bool.not_eq_true', decide_eq_false_iff_not, not_not]
    exact heq

/-- Where the hashes tell the sides apart, equal minimal snapshots mean equal ops. -/
theorem Comparable.sameCovered_of_sameMinimal (h : Comparable loc n t arcSet A B)
    (hdisc : Tells (discRegion loc timeFactor t arcSet) A.store.stored B.store.stored)
    (hrings : ∀ slot ∈ slotsAt timeFactor t,
      Tells (ringRegion loc arcSet slot) A.store.stored B.store.stored)
    (hsame : SameMinimal arcSet A B) :
    SameCovered loc t arcSet A.store.stored B.store.stored := by
  rcases minimalOf_eq_iff.mp (h.sameMinimal_iff.mp hsame) with ⟨hnot, hnil⟩
  refine ⟨hdisc (not_not.mp hnot), ?_⟩
  intro slot hslot
  apply hrings slot hslot
  rcases List.getElem?_of_mem hslot with ⟨r, hr⟩
  have hlt : r < (slotsAt timeFactor t).length := (List.getElem?_eq_some_iff.mp hr).1
  have hat : slotAt timeFactor t r = slot := by
    unfold slotAt
    rw [hr, Option.getD_some]
  have hmem := List.filter_eq_nil_iff.mp hnil r (List.mem_range.mpr hlt)
  rw [hat] at hmem
  have heq : ringXor loc A.store.stored arcSet slot = ringXor loc B.store.stored arcSet slot := by
    simpa using hmem
  exact heq

/-- Cells without new ops weigh what they did. -/
theorem weightOf_unchanged {st st' : OpStore} {extra : List OpRecord} {cells : List Cell}
    (hlist : st'.opList = st.opList ++ extra)
    (hout : ∀ c ∈ cells, ∀ op ∈ extra, ¬ c.holds loc op.toStoredOp = true) :
    weightOf loc st' cells = weightOf loc st cells := by
  unfold weightOf
  congr 1
  apply List.map_congr_left
  intro c hc
  have hnil : extra.filter (fun op => c.holds loc op.toStoredOp) = [] :=
    List.filter_eq_nil_iff.mpr (hout c hc)
  unfold cellBytes
  rw [hlist, List.filter_append, hnil, List.append_nil]

/-- While the discs differ, the rings of a node weigh the same after the round. -/
theorem weightOf_rings_unchanged {st st' source : OpStore} {budget used : Nat}
    {offered : List Bytes} (hsource : source.ids.Nodup)
    (hdisc : DiscDiffers loc timeFactor t arcSet A.store.stored B.store.stored)
    (hpicks : Picks (cellIds loc source) (cellBytes loc source) budget ([], 0)
      (cellsBetween loc t arcSet A B) (offered, used))
    (hlist : st'.opList = st.opList ++ missingOps st source offered) :
    weightOf loc st' (allRingCells timeFactor t arcSet) =
      weightOf loc st (allRingCells timeFactor t arcSet) := by
  apply weightOf_unchanged hlist
  intro c hc op hop hholds
  rcases mem_missingOps_iff.mp hop with ⟨hmem, hoff, _⟩
  rcases offered_source hsource hpicks hmem hoff with ⟨c', hc', _, hholds'⟩
  have hcells : diffCells loc timeFactor t arcSet A.store.stored B.store.stored =
      discCells loc timeFactor t arcSet _ _ := if_pos hdisc
  rw [hcells] at hc'
  -- the op lies before the boundary, the cell after it
  have hbefore := discCell_before hc' hholds'
  rcases List.mem_flatMap.mp hc with ⟨r, hr, hcell⟩
  rcases List.mem_map.mp hcell with ⟨i, _, rfl⟩
  have hslot := slot_after_boundary (mem_slotsAt_slotAt (List.mem_range.mp hr))
  have hafter := (holds_iff.mp hholds).1.1
  exact absurd (le_trans hslot hafter) (not_le.mpr hbefore)

/-- After a round about the disc, the next one is about the rings and settles them. -/
theorem Syncable.after_disc_round {A₁ B₁ : DhtState} {out₁ : Outcome}
    (h : Syncable loc n t arcSet A B) (hA : Ample loc t arcSet budgetA A)
    (hB : Ample loc t arcSet budgetB B)
    (htells : RingsTell loc timeFactor t arcSet A.store.stored B.store.stored)
    (hdisc : DiscDiffers loc timeFactor t arcSet A.store.stored B.store.stored)
    (hr₁ : Round loc n t arcSet budgetA budgetB A B out₁ A₁ B₁)
    (hsame₁ : SameOn (discRegion loc timeFactor t arcSet) A₁.store.stored B₁.store.stored) :
    weightOf loc A₁.store (cellsBetween loc t arcSet A₁ B₁) < budgetA ∧
      weightOf loc B₁.store (cellsBetween loc t arcSet A₁ B₁) < budgetB ∧
      ∀ {out₂ : Outcome} {A₂ B₂ : DhtState}, Round loc n t arcSet budgetA budgetB A₁ B₁ out₂ A₂ B₂ →
        SameCovered loc t arcSet A₂.store.stored B₂.store.stored := by
  have h₁ := hr₁.syncable
  have hndA := nodup_stored h.leftOnce
  have hndB := nodup_stored h.rightOnce
  have hndA₁ := nodup_stored h₁.leftOnce
  have hndB₁ := nodup_stored h₁.rightOnce
  have hdisc₁ : ¬ DiscDiffers loc timeFactor t arcSet A₁.store.stored B₁.store.stored :=
    fun hdiff => hdiff (regionXor_of_sameOn hndA₁ hndB₁ hsame₁)
  have hcells₁ : cellsBetween loc t arcSet A₁ B₁ = ringCells loc timeFactor t arcSet _ _ :=
    if_neg hdisc₁
  rcases hr₁.result.fromFirst with ⟨usedA, hpicksA⟩
  rcases hr₁.result.fromSecond with ⟨usedB, hpicksB⟩
  have hwA : weightOf loc A₁.store (cellsBetween loc t arcSet A₁ B₁) < budgetA := by
    rw [hcells₁]
    refine lt_of_le_of_lt (weightOf_le_of_sublist ringCells_sublist) ?_
    rw [weightOf_rings_unchanged h.rightOnce hdisc hpicksB hr₁.left]
    exact hA.rings
  have hwB : weightOf loc B₁.store (cellsBetween loc t arcSet A₁ B₁) < budgetB := by
    rw [hcells₁]
    refine lt_of_le_of_lt (weightOf_le_of_sublist ringCells_sublist) ?_
    rw [weightOf_rings_unchanged h.leftOnce hdisc hpicksA hr₁.right]
    exact hB.rings
  refine ⟨hwA, hwB, ?_⟩
  intro out₂ A₂ B₂ hr₂
  -- the hashes of the rings still tell the sides apart, since the rings are as they were
  have htells₁ : RingsTell loc timeFactor t arcSet A₁.store.stored B₁.store.stored := by
    refine ⟨?_, ?_⟩
    · intro slot hslot
      rcases hr₁.unchanged_after (p := ringRegion loc arcSet slot) h hdisc (fun op hop =>
        le_trans (slot_after_boundary hslot) (inArcs_iff.mp hop).1.1) with ⟨hsameA, hsameB⟩
      exact Tells.of_unchanged (htells.ring slot hslot) hsameA hsameB hndA hndA₁ hndB hndB₁
    · intro slot hslot i hi
      rcases hr₁.unchanged_after (p := (slotCell slot i).holds loc) h hdisc (fun op hop =>
        le_trans (slot_after_boundary hslot) (holds_iff.mp hop).1.1) with ⟨hsameA, hsameB⟩
      exact Tells.of_unchanged (htells.sector slot hslot i hi) hsameA hsameB hndA hndA₁ hndB hndB₁
  refine ⟨?_, ?_⟩
  · rcases hr₂.unchanged_before (p := discRegion loc timeFactor t arcSet) h₁ hdisc₁
      (fun op hop => (inArcs_iff.mp hop).1.2) with ⟨hsameA, hsameB⟩
    exact SameOn.of_unchanged hsame₁ hsameA hsameB
  · intro slot hslot
    exact hr₂.sameOn_of_listsAll h₁ (hr₂.result.listsAll_ring hwA hwB htells₁ hdisc₁ hslot)

/-- Two rounds bring the nodes together. -/
theorem Syncable.two_rounds (h : Syncable loc n t arcSet A B) (hn : 0 < n)
    (hA : Ample loc t arcSet budgetA A) (hB : Ample loc t arcSet budgetB B)
    (hdisc : DiscTells loc timeFactor t arcSet A.store.stored B.store.stored)
    (hrings : RingsTell loc timeFactor t arcSet A.store.stored B.store.stored) (now : Int)
    (turns : Nat) :
    ∃ out₁ A₁ B₁ out₂ A₂ B₂,
      syncRound loc arcSet now (turns + 4) budgetA budgetB A B = .ok (some (out₁, A₁, B₁)) ∧
      syncRound loc arcSet now (turns + 4) budgetA budgetB A₁ B₁ = .ok (some (out₂, A₂, B₂)) ∧
      SameMinimal arcSet A₂ B₂ := by
  have hwA : weightOf loc A.store (cellsBetween loc t arcSet A B) < budgetA := hA.cells_lt A B
  have hwB : weightOf loc B.store (cellsBetween loc t arcSet A B) < budgetB := hB.cells_lt A B
  rcases h.round hn now budgetA budgetB turns (lt_trans hwA hA.fits) (lt_trans hwB hB.fits)
    with ⟨out₁, A₁, B₁, hret₁, hr₁⟩
  have h₁ := hr₁.syncable
  by_cases hdiff : DiscDiffers loc timeFactor t arcSet A.store.stored B.store.stored
  · have hsame₁ := hr₁.sameOn_of_listsAll h (hr₁.result.listsAll_disc hwA hwB hdisc hdiff)
    rcases h.after_disc_round hA hB hrings hdiff hr₁ hsame₁ with ⟨hwA₁, hwB₁, hsettles⟩
    rcases h₁.round hn now budgetA budgetB turns (lt_trans hwA₁ hA.fits) (lt_trans hwB₁ hB.fits)
      with ⟨out₂, A₂, B₂, hret₂, hr₂⟩
    exact ⟨out₁, A₁, B₁, out₂, A₂, B₂, hret₁, hret₂,
      hr₂.syncable.sameMinimal_of_sameCovered (hsettles hr₂)⟩
  · -- the first round is about the rings already, and the second one finds nothing
    have hsame₁ : SameCovered loc t arcSet A₁.store.stored B₁.store.stored := by
      refine ⟨?_, ?_⟩
      · rcases hr₁.unchanged_before (p := discRegion loc timeFactor t arcSet) h hdiff
          (fun op hop => (inArcs_iff.mp hop).1.2) with ⟨hsameA, hsameB⟩
        exact SameOn.of_unchanged (hdisc.disc (not_not.mp hdiff)) hsameA hsameB
      · intro slot hslot
        exact hr₁.sameOn_of_listsAll h (hr₁.result.listsAll_ring hwA hwB hrings hdiff hslot)
    have hnil := h₁.cells_eq_nil (h₁.sameMinimal_of_sameCovered hsame₁)
    rcases h₁.round hn now budgetA budgetB turns (by rw [hnil]; simp [weightOf])
      (by rw [hnil]; simp [weightOf]) with ⟨out₂, A₂, B₂, hret₂, hr₂⟩
    refine ⟨out₁, A₁, B₁, out₂, A₂, B₂, hret₁, hret₂, hr₂.syncable.sameMinimal_of_sameCovered ?_⟩
    exact ⟨hr₂.sameOn_of_nil h₁ hnil hsame₁.disc,
      fun slot hslot => hr₂.sameOn_of_nil h₁ hnil (hsame₁.rings slot hslot)⟩

/-! ## The main result -/

/-- Two times with the same layout of slices. -/
structure SameLayout (t t' : Int) : Prop where
  count : fullCount timeFactor t' = fullCount timeFactor t
  slots : slotsAt timeFactor t' = slotsAt timeFactor t

/-- A DHT that is accurate at one time is so at every other time of the layout. -/
theorem Accurate.of_sameLayout {t' : Int} (h : B.Accurate loc t') (hlayout : SameLayout t t')
    (ht : 0 ≤ t) (hfits : t ≤ i64Max) : B.Accurate loc t := by
  refine ⟨h.size, h.length, ?_⟩
  intro i tp htp
  have hacc := h.sector i tp htp
  refine ⟨hacc.shape, ht, hfits, ?_, ?_, ?_⟩
  · rw [hacc.fullSlices, hlayout.count]
  · rw [hacc.partialSlices, hlayout.slots]
  · intro k
    rw [hacc.slices k, hlayout.count]

/-- Two nodes whose DHTs are accurate for their stores, at times of one layout; the stores hold
every op once and agree on the ops they share. -/
structure Peers (loc : LocCb) (n : Nat) (t t' : Int) (arcSet : ArcSet) (A B : DhtState) : Prop where
  left : A.Accurate loc t
  right : B.Accurate loc t'
  layout : SameLayout t t'
  leftIds : IdsOfLength n A.store.stored
  rightIds : IdsOfLength n B.store.stored
  arcs : arcSet.coveredSectorCount ≠ 0
  leftReliable : A.store.failures = []
  rightReliable : B.store.failures = []
  leftOnce : A.store.ids.Nodup
  rightOnce : B.store.ids.Nodup
  agree : ∀ x ∈ A.store.opList, ∀ y ∈ B.store.opList, x.opId = y.opId → x = y

theorem Peers.syncable {t' : Int} (h : Peers loc n t t' arcSet A B) :
    Syncable loc n t arcSet A B := by
  have hB : B.Accurate loc t := h.right.of_sameLayout h.layout h.left.nonneg.1 h.left.nonneg.2
  exact ⟨⟨h.left, hB, h.leftIds, h.rightIds, h.arcs⟩, h.leftReliable, h.rightReliable, h.leftOnce,
    h.rightOnce, h.agree⟩

/-- An exchange between accurate DHTs ends; it ends at the minimal snapshots exactly when both sides
hold the same ops; else its lists hold every op of the disc, or of the rings, that one side lacks;
and two rounds make the minimal snapshots the same. -/
theorem exchange_complete (loc : LocCb) {n : Nat} (hn : 0 < n) {t t' : Int} {arcSet : ArcSet}
    {A B : DhtState} (h : Peers loc n t t' arcSet A B) {budgetA budgetB : Nat}
    (hA : Ample loc t arcSet budgetA A) (hB : Ample loc t arcSet budgetB B)
    (hdisc : DiscTells loc timeFactor t arcSet A.store.stored B.store.stored)
    (hrings : RingsTell loc timeFactor t arcSet A.store.stored B.store.stored) (now : Int)
    (turns : Nat) :
    (∃ out, startExchange loc arcSet (turns + 4) ⟨A, budgetA, none⟩ ⟨B, budgetB, none⟩ =
        .ok (some out) ∧ out.handled ≤ 4 ∧
      (out.ending = .identical ∧ out.handled = 1 ↔
        SameCovered loc t arcSet A.store.stored B.store.stored) ∧
      (¬ SameOn (discRegion loc timeFactor t arcSet) A.store.stored B.store.stored →
        ListsAll (discRegion loc timeFactor t arcSet) A B out) ∧
      (SameOn (discRegion loc timeFactor t arcSet) A.store.stored B.store.stored →
        ∀ slot ∈ slotsAt timeFactor t, ListsAll (ringRegion loc arcSet slot) A B out)) ∧
    ∃ out₁ A₁ B₁ out₂ A₂ B₂,
      syncRound loc arcSet now (turns + 4) budgetA budgetB A B = .ok (some (out₁, A₁, B₁)) ∧
      syncRound loc arcSet now (turns + 4) budgetA budgetB A₁ B₁ = .ok (some (out₂, A₂, B₂)) ∧
      SameMinimal arcSet A₂ B₂ := by
  have hs := h.syncable
  have hwA : weightOf loc A.store (cellsBetween loc t arcSet A B) < budgetA := hA.cells_lt A B
  have hwB : weightOf loc B.store (cellsBetween loc t arcSet A B) < budgetB := hB.cells_lt A B
  refine ⟨?_, hs.two_rounds hn hA hB hdisc hrings now turns⟩
  rcases hs.exchange_ends budgetA budgetB turns (lt_trans hwA hA.fits) (lt_trans hwB hB.fits)
    with ⟨out, hout, hresult⟩
  -- the disc hashes differ exactly when the ops of the disc do
  have hdiffers : DiscDiffers loc timeFactor t arcSet A.store.stored B.store.stored ↔
      ¬ SameOn (discRegion loc timeFactor t arcSet) A.store.stored B.store.stored := by
    constructor
    · intro hne hsame
      exact hne (regionXor_of_sameOn (nodup_stored h.leftOnce) (nodup_stored h.rightOnce) hsame)
    · intro hnot heq
      exact hnot (hdisc.disc heq)
  refine ⟨out, hout, hresult.bounded, ?_, ?_, ?_⟩
  · constructor
    · rintro ⟨hend, _⟩
      by_cases hsame : SameMinimal arcSet A B
      · exact hs.sameCovered_of_sameMinimal hdisc.disc hrings.ring hsame
      · rw [hresult.listed hsame] at hend
        cases hend
    · intro hsame
      exact hresult.identical (hs.sameMinimal_of_sameCovered hsame)
  · intro hnot
    exact hresult.listsAll_disc hwA hwB hdisc (hdiffers.mpr hnot)
  · intro hsame slot hslot
    exact hresult.listsAll_ring hwA hwB hrings (fun hd => hdiffers.mp hd hsame) hslot

end Rounds

/-! ## One op on one side -/

/-- An op of the epoch with some data. -/
def soleOp (dataLen : Nat) : OpRecord where
  opId := [1]
  createdAt := 5
  dataLen := dataLen

/-- Two nodes after two units of time, of which the first holds one op and the second none. -/
theorem exists_peers (dataLen : Nat) :
    ∃ A B, Peers (fun _ => 0) 1 1800000000 1800000000 ArcSet.full A B ∧
      A.store.opList = [soleOp dataLen] ∧ B.store.opList = [] := by
  have hroom : (1800000000 : Int) + unitTime ≤ i64Max := by
    rw [unitTime_eq]
    decide
  have hone : StartStore 1 1800000000 { OpStore.empty with opList := [soleOp dataLen] } :=
    ⟨rfl, fun _ => rfl, by simp [OpsAt, soleOp], by simp [OpStore.ids]⟩
  have hnone : StartStore 1 1800000000 OpStore.empty :=
    ⟨rfl, fun _ => rfl, by simp [OpsAt, OpStore.empty], by simp [OpStore.ids, OpStore.empty]⟩
  rcases hone.built (fun _ => 0) (by decide) hroom with ⟨A, _, hA, hlistA⟩
  rcases hnone.built (fun _ => 0) (by decide) hroom with ⟨B, _, hB, hlistB⟩
  have hlistA' : A.store.opList = [soleOp dataLen] := hlistA
  have hlistB' : B.store.opList = [] := hlistB
  refine ⟨A, B, ⟨hA.accurate, hB.accurate, ⟨rfl, rfl⟩, hA.idsOfLength, hB.idsOfLength, ?_,
    hA.reliable, hB.reliable, ?_, ?_, ?_⟩, hlistA', hlistB'⟩
  · simp [ArcSet.coveredSectorCount, ArcSet.full, numSectors_eq]
  · simp [OpStore.ids, hlistA']
  · simp [OpStore.ids, hlistB']
  · intro x _ y hy
    rw [hlistB'] at hy
    cases hy

/-- A single op is told apart from nothing. -/
theorem tells_sole (dataLen : Nat) (p : StoredOp → Bool) :
    Tells p [(soleOp dataLen).toStoredOp] [] := by
  intro heq op hop
  by_cases hp : p (soleOp dataLen).toStoredOp = true
  · unfold regionXor at heq
    rw [List.filter_cons_of_pos hp] at heq
    exact absurd heq (by simp [soleOp])
  · constructor
    · intro hmem
      rw [List.mem_singleton.mp hmem] at hop
      exact absurd hop hp
    · intro hmem
      cases hmem

theorem cellBytes_le {loc : LocCb} {st : OpStore} (c : Cell) :
    cellBytes loc st c ≤ (st.opList.map fun op => op.dataLen).sum :=
  (List.filter_sublist.map _).sum_le_sum fun _ _ => Nat.zero_le _

/-- With a budget above the number of cells, one byte of data is never too much. -/
theorem ample_of_bytes {loc : LocCb} {t : Int} {arcSet : ArcSet} {budget : Nat} {d : DhtState}
    (hdata : (d.store.opList.map fun op => op.dataLen).sum ≤ 1)
    (hdisc : (allDiscCells timeFactor t arcSet).length < budget)
    (hrings : (allRingCells timeFactor t arcSet).length < budget) (hfits : budget < 2 ^ 31) :
    Ample loc t arcSet budget d := by
  have hsum : ∀ cells : List Cell, weightOf loc d.store cells ≤ cells.length := by
    intro cells
    have hle := List.sum_le_card_nsmul (cells.map (cellBytes loc d.store)) 1 (by
      intro x hx
      rcases List.mem_map.mp hx with ⟨c, _, rfl⟩
      exact le_trans (cellBytes_le c) hdata)
    simpa [weightOf] using hle
  exact ⟨lt_of_le_of_lt (hsum _) hdisc, lt_of_le_of_lt (hsum _) hrings, hfits⟩

theorem length_sectors_le (arcSet : ArcSet) : arcSet.sectors.length ≤ 512 := by
  have hle : arcSet.sectors.length ≤ (List.range numSectors).length := List.length_filter_le _ _
  rw [List.length_range, numSectors_eq] at hle
  exact hle

/-- While no slice is full there are no slices to compare. -/
theorem allDiscCells_eq_nil (h : fullCount f t = 0) : allDiscCells f t arcSet = [] := by
  simp [allDiscCells, h]

/-- One ring has a cell for each sector. -/
theorem length_allRingCells_le (h : (slotsAt f t).length = 1) :
    (allRingCells f t arcSet).length ≤ 512 := by
  have hle := length_sectors_le arcSet
  simp only [allRingCells, List.length_flatMap, List.length_map, h, List.range_one, List.map_cons,
    List.map_nil, List.sum_cons, List.sum_nil]
  omega

/-- The op is offered by its holder, and two rounds settle everything. -/
theorem exchange_complete_one :
    ∃ A B out A₁ B₁ out₂ A₂ B₂, Peers (fun _ => 0) 1 1800000000 1800000000 ArcSet.full A B ∧
      A.store.opList = [soleOp 1] ∧ B.store.opList = [] ∧
      syncRound (fun _ => 0) ArcSet.full 1800000000 4 1000 1000 A B = .ok (some (out, A₁, B₁)) ∧
      syncRound (fun _ => 0) ArcSet.full 1800000000 4 1000 1000 A₁ B₁ = .ok (some (out₂, A₂, B₂)) ∧
      SameMinimal ArcSet.full A₂ B₂ := by
  rcases exists_peers 1 with ⟨A, B, hpeers, hA, hB⟩
  have hstoredA : A.store.stored = [(soleOp 1).toStoredOp] := by simp [OpStore.stored, hA]
  have hstoredB : B.store.stored = [] := by simp [OpStore.stored, hB]
  -- at this time there is one slot and no full slice
  have hfull : fullCount timeFactor 1800000000 = 0 := by decide
  have hslots : (slotsAt timeFactor 1800000000).length = 1 := by decide
  have hdisc : (allDiscCells timeFactor 1800000000 ArcSet.full).length < 1000 := by
    rw [allDiscCells_eq_nil hfull]
    exact Nat.succ_pos _
  have hrings : (allRingCells timeFactor 1800000000 ArcSet.full).length < 1000 :=
    lt_of_le_of_lt (length_allRingCells_le hslots) (by decide)
  have htells : ∀ p, Tells p A.store.stored B.store.stored := by
    intro p
    rw [hstoredA, hstoredB]
    exact tells_sole 1 p
  rcases (exchange_complete (fun _ => 0) (by decide) hpeers
    (ample_of_bytes (by simp [hA, soleOp]) hdisc hrings (by decide))
    (ample_of_bytes (by simp [hB]) hdisc hrings (by decide))
    ⟨htells _, fun _ _ => htells _, fun _ _ _ _ => htells _⟩
    ⟨fun _ _ => htells _, fun _ _ _ _ => htells _⟩ 1800000000 0).2
    with ⟨out, A₁, B₁, out₂, A₂, B₂, hret₁, hret₂, hsame⟩
  exact ⟨A, B, out, A₁, B₁, out₂, A₂, B₂, hpeers, hA, hB, hret₁, hret₂, hsame⟩

end DhtState

end Dht
end Kitsune2
