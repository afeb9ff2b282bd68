import Kitsune2.Dht.AgreedArcs
import Kitsune2.Dht.SyncedSectors

/-!
# NamedSectors — which sectors our snapshots and answers name

Whatever state a DHT is in, the snapshots it makes for an arc set name sectors of that set only, and
what it answers a snapshot with is a snapshot of the next kind.
-/

namespace Kitsune2
namespace Dht

open Api Lib
open Std (ExtTreeMap)

/-- Every sector that is named is in the arc set. -/
def NamesWithin (arcSet : ArcSet) : DhtSnapshot → Prop
  | .minimal _ _ _ => True
  | .discSectors hashes _ => ∀ i ∈ hashes, i ∈ arcSet.inner
  | .discSectorDetails hashes _ => ∀ i ∈ hashes, i ∈ arcSet.inner
  | .ringSectorDetails hashes _ =>
      ∀ (ring : Nat) (sectors : ExtTreeMap Nat Bytes), hashes[ring]? = some sectors →
        ∀ i ∈ sectors, i ∈ arcSet.inner

section Loops

variable {p : HashPartition} {arcSet : ArcSet} {store : OpStore}

theorem mem_inner_of_included {e : TimePartition × Nat} (h : e ∈ p.includedSectors arcSet) :
    e.2 ∈ arcSet.inner :=
  of_decide_eq_true (List.mem_filter.mp h).2

theorem mem_of_mem_insert {β : Type} {m : ExtTreeMap Nat β} {k i : Nat} {v : β}
    (h : i ∈ m.insert k v) : i = k ∨ i ∈ m := by
  rcases ExtTreeMap.mem_insert.mp h with heq | hmem
  · exact Or.inl (Std.LawfulEqCmp.eq_of_compare heq).symm
  · exact Or.inr hmem

/-- A map with keys in the arc set. -/
def KeysIn {β : Type} (arcSet : ArcSet) (m : ExtTreeMap Nat β) : Prop :=
  ∀ i ∈ m, i ∈ arcSet.inner

theorem keysIn_empty {β : Type} : KeysIn arcSet (∅ : ExtTreeMap Nat β) :=
  fun _ hi => absurd hi ExtTreeMap.not_mem_empty

theorem KeysIn.insert {β : Type} {m : ExtTreeMap Nat β} {k : Nat} {v : β}
    (h : KeysIn arcSet m) (hk : k ∈ arcSet.inner) : KeysIn arcSet (m.insert k v) := by
  intro i hi
  rcases mem_of_mem_insert hi with rfl | hmem
  · exact hk
  · exact h i hmem

/-- Maps with keys in the arc set, for each ring. -/
def RingsIn (arcSet : ArcSet) (m : ExtTreeMap Nat (ExtTreeMap Nat Bytes)) : Prop :=
  ∀ (ring : Nat) (sectors : ExtTreeMap Nat Bytes), m[ring]? = some sectors → KeysIn arcSet sectors

theorem RingsIn.addRingHash {out : ExtTreeMap Nat (ExtTreeMap Nat Bytes)} {ring sector : Nat}
    {hash : Bytes} (h : RingsIn arcSet out) (hsector : sector ∈ arcSet.inner) :
    RingsIn arcSet (HashPartition.addRingHash out ring sector hash) := by
  have hentry : KeysIn arcSet (out[ring]?.getD ∅) := by
    cases hget : out[ring]? with
    | none => exact keysIn_empty
    | some sectors => exact h ring sectors hget
  intro r sectors hget
  unfold HashPartition.addRingHash at hget
  dsimp only at hget
  rw [ExtTreeMap.getElem?_insert] at hget
  split at hget
  · cases hget
    split
    · exact hentry
    · exact hentry.insert hsector
  · exact h r sectors hget

theorem discSectorHashes_within {out : ExtTreeMap Nat Bytes × Int}
    (h : p.discSectorHashes arcSet store = .ok out) : KeysIn arcSet out.1 := by
  rcases bind_eq_ok_iff.mp h with ⟨hashes, hhashes, hend⟩
  rcases bind_eq_ok_iff.mp hend with ⟨timestamp, -, hout⟩
  cases hout
  have hloop : Meets (KeysIn arcSet) (fun _ : Fault => True)
      ((p.includedSectors arcSet).foldlM (fun (out : ExtTreeMap Nat Bytes) e => do
        let hash ← e.1.fullTimeSliceTopHash store
        pure (if hash = [] then out else out.insert e.2 hash)) ∅) := by
    refine foldlM_meets _ _ keysIn_empty ?_
    intro out e he hout
    refine Meets.bind (I := fun _ => True) ⟨fun _ _ => trivial, fun _ _ => trivial⟩ ?_
    intro hash _
    refine Meets.ok ?_
    split
    · exact hout
    · exact hout.insert (mem_inner_of_included he)
  exact hloop.1 hashes hhashes

theorem discSectorSectorDetails_within {sectors : List Nat}
    {out : ExtTreeMap Nat (ExtTreeMap Nat Bytes) × Int}
    (h : p.discSectorSectorDetails arcSet sectors store = .ok out) : KeysIn arcSet out.1 := by
  rcases bind_eq_ok_iff.mp h with ⟨timestamp, -, hout⟩
  cases hout
  dsimp only
  have hloop : ∀ (wanted : List (TimePartition × Nat)) (m : ExtTreeMap Nat (ExtTreeMap Nat Bytes)),
      (∀ e ∈ wanted, e.2 ∈ arcSet.inner) → KeysIn arcSet m →
      KeysIn arcSet (wanted.foldl (fun (out : ExtTreeMap Nat (ExtTreeMap Nat Bytes)) e =>
        out.insert e.2 (store.sliceHashes e.1.sectorConstraint)) m) := by
    intro wanted
    induction wanted with
    | nil => exact fun m _ hm => hm
    | cons e wanted ih =>
        intro m hall hm
        rw [List.forall_mem_cons] at hall
        exact ih _ hall.2 (hm.insert hall.1)
  refine hloop _ ∅ ?_ keysIn_empty
  intro e he
  exact mem_inner_of_included (List.mem_filter.mp he).1

theorem ringDetails_within {rings : List Nat} {out : ExtTreeMap Nat (ExtTreeMap Nat Bytes) × Int}
    (h : p.ringDetails arcSet rings = .ok out) : RingsIn arcSet out.1 := by
  rcases bind_eq_ok_iff.mp h with ⟨hashes, hhashes, hend⟩
  rcases bind_eq_ok_iff.mp hend with ⟨timestamp, -, hout⟩
  cases hout
  have hloop : Meets (RingsIn arcSet) (fun _ : Fault => True)
      ((p.includedSectors arcSet).foldlM
        (fun (out : ExtTreeMap Nat (ExtTreeMap Nat Bytes)) e =>
          rings.foldlM (fun (out : ExtTreeMap Nat (ExtTreeMap Nat Bytes)) ring => do
            let hash ← e.1.partialSliceHash ring
            pure (HashPartition.addRingHash out ring e.2 hash)) out) ∅) := by
    refine foldlM_meets _ _ ?_ ?_
    · intro ring sectors hget
      rw [ExtTreeMap.getElem?_empty] at hget
      cases hget
    · intro out e he hout
      refine foldlM_meets _ _ hout ?_
      intro out ring _ hout
      refine Meets.bind (I := fun _ => True) ⟨fun _ _ => trivial, fun _ _ => trivial⟩ ?_
      intro hash _
      exact Meets.ok (hout.addRingHash (mem_inner_of_included he))
  exact hloop.1 hashes hhashes

end Loops

namespace DhtState

variable {loc : LocCb} {d : DhtState} {arcSet : ArcSet} {theirs s : DhtSnapshot}
  {prev : Option DhtSnapshot} {budget : Int} {used : Nat} {opIds : List Bytes}

/-! ## Our snapshots -/

theorem snapshotDiscSectors_eq_ok (h : d.snapshotDiscSectors arcSet = .ok s) :
    ∃ hashes boundary, s = .discSectors hashes boundary ∧ NamesWithin arcSet s := by
  rcases bind_eq_ok_iff.mp h with ⟨⟨hashes, boundary⟩, hout, hs⟩
  cases hs
  exact ⟨hashes, boundary, rfl, discSectorHashes_within hout⟩

theorem snapshotDiscSectorDetails_eq_ok {sectors : List Nat}
    (h : d.snapshotDiscSectorDetails sectors arcSet = .ok s) :
    ∃ hashes boundary, s = .discSectorDetails hashes boundary ∧ NamesWithin arcSet s := by
  rcases bind_eq_ok_iff.mp h with ⟨⟨hashes, boundary⟩, hout, hs⟩
  cases hs
  exact ⟨hashes, boundary, rfl, discSectorSectorDetails_within hout⟩

theorem snapshotRingSectorDetails_eq_ok {rings : List Nat}
    (h : d.snapshotRingSectorDetails rings arcSet = .ok s) :
    ∃ hashes boundary, s = .ringSectorDetails hashes boundary ∧ NamesWithin arcSet s := by
  rcases bind_eq_ok_iff.mp h with ⟨⟨hashes, boundary⟩, hout, hs⟩
  cases hs
  exact ⟨hashes, boundary, rfl, ringDetails_within hout⟩

/-! ## Our answers -/

/-- A new snapshot names sectors of the arc set only. -/
theorem handleSnapshot_newSnapshot
    (h : d.handleSnapshot loc theirs prev arcSet budget = .ok (.newSnapshot s, used)) :
    NamesWithin arcSet s := by
  rcases handleSnapshot_answered h with ⟨ours, -, hanswer⟩
  cases hanswer with
  | discSectors hcompare hs => exact (snapshotDiscSectors_eq_ok hs).choose_spec.choose_spec.2
  | discDetails hcompare hs => exact (snapshotDiscSectorDetails_eq_ok hs).choose_spec.choose_spec.2
  | ringDetails hcompare hs => exact (snapshotRingSectorDetails_eq_ok hs).choose_spec.choose_spec.2

/-- The hashes of sectors are answered with the details of sectors. -/
theorem handleSnapshot_discSectors {hashes : ExtTreeMap Nat Bytes} {boundary : Int}
    (h : d.handleSnapshot loc (.discSectors hashes boundary) prev arcSet budget =
      .ok (.newSnapshot s, used)) :
    ∃ details boundary', s = .discSectorDetails details boundary' ∧ NamesWithin arcSet s := by
  rcases handleSnapshot_answered h with ⟨ours, hours, hanswer⟩
  rcases snapshotDiscSectors_eq_ok hours with ⟨ourHashes, ourBoundary, rfl, -⟩
  cases hanswer with
  | discSectors hcompare hs =>
      -- two snapshots of this kind do not differ in their disc hash
      unfold DhtSnapshot.compare at hcompare
      split at hcompare
      · cases hcompare
      · dsimp only at hcompare
        split at hcompare <;> cases hcompare
  | discDetails hcompare hs => exact snapshotDiscSectorDetails_eq_ok hs
  | ringDetails hcompare hs =>
      unfold DhtSnapshot.compare at hcompare
      split at hcompare
      · cases hcompare
      · dsimp only at hcompare
        split at hcompare <;> cases hcompare

/-- Details of sectors are answered with our details of sectors. -/
theorem handleSnapshot_discSectorDetails {hashes : ExtTreeMap Nat (ExtTreeMap Nat Bytes)}
    {boundary : Int} (h : d.handleSnapshot loc (.discSectorDetails hashes boundary) none arcSet budget =
      .ok (.newSnapshotAndHashList s opIds, used)) :
    ∃ details boundary', s = .discSectorDetails details boundary' ∧ NamesWithin arcSet s := by
  rcases handleSnapshot_answered h with ⟨ours, hours, hanswer⟩
  cases hanswer with
  | listed => exact snapshotDiscSectorDetails_eq_ok hours

/-- Details of rings are answered with our details of rings. -/
theorem handleSnapshot_ringSectorDetails {hashes : ExtTreeMap Nat (ExtTreeMap Nat Bytes)}
    {boundary : Int} (h : d.handleSnapshot loc (.ringSectorDetails hashes boundary) none arcSet budget =
      .ok (.newSnapshotAndHashList s opIds, used)) :
    ∃ details boundary', s = .ringSectorDetails details boundary' ∧ NamesWithin arcSet s := by
  rcases handleSnapshot_answered h with ⟨ours, hours, hanswer⟩
  cases hanswer with
  | listed => exact snapshotRingSectorDetails_eq_ok hours

end DhtState

end Dht
end Kitsune2
