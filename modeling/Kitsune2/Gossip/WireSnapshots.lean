import Kitsune2.Gossip.Protocol
import Kitsune2.Lib.Loops

/-!
# WireSnapshots — a snapshot through its message and back

The maps of a snapshot are hash maps, so the two lists of a message are the keys and the values of a
map in an order that nobody chooses; an `Iteration` is one choice of these orders, for the outer map
and for each inner one.  A map read from two lists has, at each index, what stands at the index's
last position (`ByPosition`), so a snapshot comes back whatever the orders were.
-/

namespace Kitsune2
namespace Gossip

open Api Dht Lib
open Std (ExtTreeMap)

/-! ## Sending -/

/-- The order in which each hash map of a snapshot is gone through, the same one for its keys and
for its values: at `[]` the outer map, at `[i]` the map that the outer one has at `i`. -/
structure Iteration where
  entries : List Nat → {β : Type} → ExtTreeMap Nat β → List (Nat × β)
  entries_perm : ∀ (place : List Nat) {β : Type} (m : ExtTreeMap Nat β),
    (entries place m).Perm m.toList

namespace Iteration

def keys (it : Iteration) (place : List Nat) {β : Type} (m : ExtTreeMap Nat β) : List Nat :=
  (it.entries place m).map Prod.fst

def values (it : Iteration) (place : List Nat) {β : Type} (m : ExtTreeMap Nat β) : List β :=
  (it.entries place m).map Prod.snd

/-- The hashes of each inner map, in the order of the outer one. -/
def innerHashes (it : Iteration) (m : ExtTreeMap Nat (ExtTreeMap Nat Bytes)) : List IndexedHashes :=
  (it.entries [] m).map fun e => { indices := it.keys [e.1] e.2, hashes := it.values [e.1] e.2 }

/-- Every map in the order of its keys. -/
def ascending : Iteration where
  entries := fun _ {_} m => m.toList
  entries_perm := fun _ {_} _ => List.Perm.refl _

end Iteration

def SnapshotDiscSectorsMessage.tryFrom (it : Iteration) :
    DhtSnapshot → Except Fault SnapshotDiscSectorsMessage
  | .discSectors hashes discBoundary =>
      .ok { discBoundary, discSectors := it.keys [] hashes, discSectorHashes := it.values [] hashes }
  | _ =>
      .error (.k2 "Only DhtSnapshot::DiscSectors can be converted to a SnapshotDiscSectorsMessage")

def SnapshotDiscSectorDetailsMessage.tryFrom (it : Iteration) :
    DhtSnapshot → Except Fault SnapshotDiscSectorDetailsMessage
  | .discSectorDetails hashes discBoundary =>
      .ok
        { discBoundary
          sectorIndices := it.keys [] hashes
          discSliceHashes := it.innerHashes hashes }
  | _ =>
      .error (.k2 ("Only DhtSnapshot::DiscSectorDetails can be converted to a " ++
        "SnapshotDiscSectorDetailsMessage"))

def SnapshotRingSectorDetailsMessage.tryFrom (it : Iteration) :
    DhtSnapshot → Except Fault SnapshotRingSectorDetailsMessage
  | .ringSectorDetails hashes discBoundary =>
      .ok
        { discBoundary
          ringIndices := it.keys [] hashes
          ringSectorHashes := it.innerHashes hashes }
  | _ =>
      .error (.k2 ("Only DhtSnapshot::RingSectorDetails can be converted to a " ++
        "SnapshotRingSectorDetailsMessage"))

/-- A snapshot converted to the message of its variant and back. -/
def throughMessage (it : Iteration) (snapshot : DhtSnapshot) : Except Fault DhtSnapshot :=
  match snapshot with
  | .minimal .. => do
      let message ← SnapshotMinimalMessage.ofSnapshot snapshot
      pure message.toSnapshot
  | .discSectors .. => do
      let message ← SnapshotDiscSectorsMessage.tryFrom it snapshot
      message.toSnapshot
  | .discSectorDetails .. => do
      let message ← SnapshotDiscSectorDetailsMessage.tryFrom it snapshot
      message.toSnapshot
  | .ringSectorDetails .. => do
      let message ← SnapshotRingSectorDetailsMessage.tryFrom it snapshot
      message.toSnapshot

/-- The handlers' conversions take every map in the order of its keys. -/
theorem tryFrom_ascending :
    SnapshotDiscSectorsMessage.tryFrom .ascending = SnapshotDiscSectorsMessage.ofSnapshot ∧
    SnapshotDiscSectorDetailsMessage.tryFrom .ascending =
      SnapshotDiscSectorDetailsMessage.ofSnapshot ∧
    SnapshotRingSectorDetailsMessage.tryFrom .ascending =
      SnapshotRingSectorDetailsMessage.ofSnapshot := by
  have hkeys : ∀ {β : Type} (place : List Nat) (m : ExtTreeMap Nat β),
      Iteration.ascending.keys place m = m.keys :=
    fun _ _ => ExtTreeMap.map_fst_toList_eq_keys
  have hvalues : ∀ {β : Type} (place : List Nat) (m : ExtTreeMap Nat β),
      Iteration.ascending.values place m = m.values :=
    fun _ m => map_snd_toList_eq_values m
  -- keys and values in ascending order are those of the map itself
  have hinner : ∀ m : ExtTreeMap Nat (ExtTreeMap Nat Bytes),
      Iteration.ascending.innerHashes m = m.values.map indexedHashes := by
    intro m
    rw [← map_snd_toList_eq_values, List.map_map]
    simp only [Iteration.innerHashes, hkeys, hvalues]
    rfl
  refine ⟨?_, ?_, ?_⟩
  · funext snapshot
    cases snapshot <;> simp [SnapshotDiscSectorsMessage.tryFrom,
      SnapshotDiscSectorsMessage.ofSnapshot, hkeys, hvalues]
  · funext snapshot
    cases snapshot <;> simp [SnapshotDiscSectorDetailsMessage.tryFrom,
      SnapshotDiscSectorDetailsMessage.ofSnapshot, hkeys, hinner]
  · funext snapshot
    cases snapshot <;> simp [SnapshotRingSectorDetailsMessage.tryFrom,
      SnapshotRingSectorDetailsMessage.ofSnapshot, hkeys, hinner]

/-! ## Maps read from two lists -/

/-- The map has, at each index of the list, what `R` makes of the value at the index's last
position, and nothing elsewhere. -/
def ByPosition {α β : Type} (R : α → β → Prop) (indices : List Nat) (values : List α)
    (m : ExtTreeMap Nat β) : Prop :=
  ∀ i v, m[i]? = some v ↔
    ∃ (p : Nat) (u : α), indices[p]? = some i ∧ values[p]? = some u ∧ R u v ∧
      ∀ q : Nat, p < q → indices[q]? ≠ some i

/-- Indices and hashes of the same number, with the map that they make up. -/
def Paired (hashes : IndexedHashes) (m : ExtTreeMap Nat Bytes) : Prop :=
  hashes.indices.length = hashes.hashes.length ∧
    ByPosition Eq hashes.indices hashes.hashes m

section ByPosition

variable {α β : Type} {R : α → β → Prop} {indices : List Nat} {values : List α}

theorem ByPosition.unique {m m' : ExtTreeMap Nat β} (h : ByPosition R indices values m)
    (h' : ByPosition R indices values m') : m = m' := by
  apply ExtTreeMap.ext_getElem?
  intro i
  ext v
  exact (h i v).trans (h' i v).symm

theorem collectMap_keys_values (it : Iteration) (place : List Nat) (m : ExtTreeMap Nat β) :
    collectMap (it.keys place m) (it.values place m) = m := by
  have hzip : (it.keys place m).zip (it.values place m) = it.entries place m := by
    rw [Iteration.keys, Iteration.values, List.zip_map']
    exact List.map_id _
  unfold collectMap
  rw [hzip]
  exact ofEntries_perm (it.entries_perm place m)

/-- Lists of the same length make up the map by position, each value having become what `R` makes
of it. -/
theorem byPosition_collectMap {outs : List β} (hlength : indices.length = values.length)
    (houts : List.Forall₂ R values outs) (hR : ∀ u v v', R u v → R u v' → v = v') :
    ByPosition R indices values (collectMap indices outs) := by
  have hsame : indices.length = outs.length := hlength.trans houts.length_eq
  intro i v
  have hcollect : (collectMap indices outs)[i]? = some v ↔ _ :=
    getElem?_ofEntries (indices.zip outs) i v
  rw [hcollect]
  -- the last position of an index gives the value, as a later entry replaces an earlier one
  constructor
  · rintro ⟨p, hp, hlast⟩
    rcases List.getElem?_zip_eq_some.mp hp with ⟨hpi, hpv⟩
    rcases List.getElem?_eq_some_iff.mp hpv with ⟨hlt, hv⟩
    have hlt' : p < values.length := houts.length_eq ▸ hlt
    have hR' : R values[p] v := by
      have hget := houts.get hlt' hlt
      rw [List.get_eq_getElem, List.get_eq_getElem, hv] at hget
      exact hget
    refine ⟨p, values[p], hpi, List.getElem?_eq_getElem hlt', hR', ?_⟩
    intro q hq hqi
    have hqlt : q < outs.length := hsame ▸ (List.getElem?_eq_some_iff.mp hqi).1
    exact hlast q hq outs[q]
      (List.getElem?_zip_eq_some.mpr ⟨hqi, List.getElem?_eq_getElem hqlt⟩)
  · rintro ⟨p, u, hpi, hpu, huv, hlast⟩
    rcases List.getElem?_eq_some_iff.mp hpu with ⟨hlt, hu⟩
    have hlt' : p < outs.length := houts.length_eq ▸ hlt
    have hv : outs[p] = v := hR u _ _ (hu ▸ houts.get hlt hlt') huv
    refine ⟨p, List.getElem?_zip_eq_some.mpr ⟨hpi, ?_⟩, ?_⟩
    · rw [← hv]
      exact List.getElem?_eq_getElem hlt'
    · intro q hq w hw
      exact hlast q hq (List.getElem?_zip_eq_some.mp hw).1

theorem collectHashes_ok_iff {lengthError : String} {hashes : IndexedHashes}
    {m : ExtTreeMap Nat Bytes} :
    collectHashes lengthError hashes = .ok m ↔ Paired hashes m := by
  unfold collectHashes
  by_cases hlength : hashes.indices.length = hashes.hashes.length
  · have hcollect : ByPosition Eq hashes.indices hashes.hashes
        (collectMap hashes.indices hashes.hashes) := by
      refine byPosition_collectMap hlength (List.forall₂_same.mpr fun _ _ => rfl) ?_
      rintro u v v' rfl rfl
      rfl
    rw [if_neg (not_not.mpr hlength), Except.ok.injEq]
    constructor
    · rintro rfl
      exact ⟨hlength, hcollect⟩
    · intro h
      exact hcollect.unique h.2
  · rw [if_pos hlength]
    exact ⟨nofun, fun h => absurd h.1 hlength⟩

/-- A list of inner hashes can be read exactly when each of them has as many indices as hashes. -/
theorem mapM_collectHashes_ok_iff {lengthError : String} {hashes : List IndexedHashes} :
    (∃ maps, hashes.mapM (collectHashes lengthError) = .ok maps) ↔
      ∀ h ∈ hashes, h.indices.length = h.hashes.length := by
  constructor
  · rintro ⟨maps, hmaps⟩ h hh
    rcases List.getElem?_of_mem hh with ⟨p, hp⟩
    have hall := mapM_eq_ok_iff.mp hmaps
    rcases List.getElem?_eq_some_iff.mp hp with ⟨hlt, hget⟩
    have hpair := collectHashes_ok_iff.mp (hall.get hlt (hall.length_eq ▸ hlt))
    rw [List.get_eq_getElem, hget] at hpair
    exact hpair.1
  · intro h
    refine ⟨_, mapM_ok (g := fun h => collectMap h.indices h.hashes) hashes ?_⟩
    intro a ha
    unfold collectHashes
    rw [if_neg (not_not.mpr (h a ha))]

/-- The outer map is read from its indices and from the inner hashes at the same positions. -/
theorem innerHashes_read_spec {lengthError : String} {hashes : List IndexedHashes}
    {read : Except Fault DhtSnapshot}
    (variant : ExtTreeMap Nat (ExtTreeMap Nat Bytes) → DhtSnapshot)
    (hread : read = do
      let maps ← hashes.mapM (collectHashes lengthError)
      pure (variant (collectMap indices maps)))
    (hlength : indices.length = hashes.length) :
    ((∃ s, read = .ok s) ↔ ∀ h ∈ hashes, h.indices.length = h.hashes.length) ∧
    ∀ s, read = .ok s → ∃ t, s = variant t ∧ ByPosition Paired indices hashes t := by
  -- the only error is that of an inner pair of lists of different lengths
  have hok : ∀ s, read = .ok s ↔ ∃ maps, hashes.mapM (collectHashes lengthError) = .ok maps ∧
      variant (collectMap indices maps) = s := by
    intro s
    rw [hread, bind_eq_ok_iff]
    refine exists_congr fun maps => and_congr_right fun _ => ?_
    exact ⟨fun h => Except.ok.inj h, fun h => congrArg Except.ok h⟩
  constructor
  · rw [← mapM_collectHashes_ok_iff]
    constructor
    · rintro ⟨s, hs⟩
      rcases (hok s).mp hs with ⟨maps, hmaps, -⟩
      exact ⟨maps, hmaps⟩
    · rintro ⟨maps, hmaps⟩
      exact ⟨_, (hok _).mpr ⟨maps, hmaps, rfl⟩⟩
  · intro s hs
    rcases (hok s).mp hs with ⟨maps, hmaps, rfl⟩
    refine ⟨_, rfl, byPosition_collectMap hlength ?_ fun u v v' h h' => h.2.unique h'.2⟩
    exact (mapM_eq_ok_iff.mp hmaps).imp fun _ _ h => collectHashes_ok_iff.mp h

theorem mapM_collectHashes_innerHashes (it : Iteration) (lengthError : String)
    (m : ExtTreeMap Nat (ExtTreeMap Nat Bytes)) :
    (it.innerHashes m).mapM (collectHashes lengthError) = .ok (it.values [] m) := by
  rw [mapM_eq_ok_iff, Iteration.innerHashes, Iteration.values, List.forall₂_map_left_iff,
    List.forall₂_map_right_iff, List.forall₂_same]
  rintro ⟨i, inner⟩ -
  unfold collectHashes
  rw [if_neg (by simp [Iteration.keys, Iteration.values]), collectMap_keys_values]

end ByPosition

/-! ## Messages -/

theorem SnapshotDiscSectorsMessage.toSnapshot_spec (m : SnapshotDiscSectorsMessage) :
    ((∃ s, m.toSnapshot = .ok s) ↔ m.discSectors.length = m.discSectorHashes.length) ∧
    ∀ s, m.toSnapshot = .ok s → ∃ t, s = .discSectors t m.discBoundary ∧
      ByPosition Eq m.discSectors m.discSectorHashes t := by
  unfold toSnapshot
  by_cases hlength : m.discSectors.length = m.discSectorHashes.length
  · rw [if_neg (not_not.mpr hlength)]
    refine ⟨⟨fun _ => hlength, fun _ => ⟨_, rfl⟩⟩, ?_⟩
    rintro s hs
    cases hs
    refine ⟨_, rfl, byPosition_collectMap hlength (List.forall₂_same.mpr fun _ _ => rfl) ?_⟩
    rintro u v v' rfl rfl
    rfl
  · rw [if_pos hlength]
    exact ⟨⟨nofun, fun h => absurd h hlength⟩, nofun⟩

theorem SnapshotDiscSectorDetailsMessage.toSnapshot_spec (m : SnapshotDiscSectorDetailsMessage) :
    ((∃ s, m.toSnapshot = .ok s) ↔ m.sectorIndices.length = m.discSliceHashes.length ∧
      ∀ h ∈ m.discSliceHashes, h.indices.length = h.hashes.length) ∧
    ∀ s, m.toSnapshot = .ok s → ∃ t, s = .discSectorDetails t m.discBoundary ∧
      ByPosition Paired m.sectorIndices m.discSliceHashes t := by
  by_cases hlength : m.sectorIndices.length = m.discSliceHashes.length
  · have hread : m.toSnapshot = _ := if_neg (not_not.mpr hlength)
    have hspec := innerHashes_read_spec (fun t => .discSectorDetails t m.discBoundary) hread hlength
    exact ⟨hspec.1.trans (by simp [hlength]), hspec.2⟩
  · rw [toSnapshot, if_pos hlength]
    exact ⟨⟨nofun, fun h => absurd h.1 hlength⟩, nofun⟩

theorem SnapshotRingSectorDetailsMessage.toSnapshot_spec (m : SnapshotRingSectorDetailsMessage) :
    ((∃ s, m.toSnapshot = .ok s) ↔ m.ringIndices.length = m.ringSectorHashes.length ∧
      ∀ h ∈ m.ringSectorHashes, h.indices.length = h.hashes.length) ∧
    ∀ s, m.toSnapshot = .ok s → ∃ t, s = .ringSectorDetails t m.discBoundary ∧
      ByPosition Paired m.ringIndices m.ringSectorHashes t := by
  by_cases hlength : m.ringIndices.length = m.ringSectorHashes.length
  · have hread : m.toSnapshot = _ := if_neg (not_not.mpr hlength)
    have hspec := innerHashes_read_spec (fun t => .ringSectorDetails t m.discBoundary) hread hlength
    exact ⟨hspec.1.trans (by simp [hlength]), hspec.2⟩
  · rw [toSnapshot, if_pos hlength]
    exact ⟨⟨nofun, fun h => absurd h.1 hlength⟩, nofun⟩

/-! ## There and back -/

theorem throughMessage_ok (it : Iteration) (snapshot : DhtSnapshot) :
    throughMessage it snapshot = .ok snapshot := by
  have hlength : ∀ {β : Type} (m : ExtTreeMap Nat β),
      (it.keys [] m).length = (it.values [] m).length := by
    intro β m
    simp [Iteration.keys, Iteration.values]
  have hinner : ∀ m, (it.keys [] m).length = (it.innerHashes m).length := by
    intro m
    simp [Iteration.keys, Iteration.innerHashes]
  -- the lists sent have equal lengths, so reading refuses nothing
  cases snapshot with
  | minimal discTopHash discBoundary ringTopHashes =>
      rfl
  | discSectors hashes discBoundary =>
      refine bind_eq_ok_iff.mpr ⟨_, rfl, ?_⟩
      rw [SnapshotDiscSectorsMessage.toSnapshot, if_neg (not_not.mpr (hlength hashes)),
        collectMap_keys_values]
  | discSectorDetails hashes discBoundary =>
      refine bind_eq_ok_iff.mpr ⟨_, rfl, ?_⟩
      rw [SnapshotDiscSectorDetailsMessage.toSnapshot, if_neg (not_not.mpr (hinner hashes))]
      refine bind_eq_ok_iff.mpr ⟨_, mapM_collectHashes_innerHashes it _ hashes, ?_⟩
      rw [collectMap_keys_values]
      rfl
  | ringSectorDetails hashes discBoundary =>
      refine bind_eq_ok_iff.mpr ⟨_, rfl, ?_⟩
      rw [SnapshotRingSectorDetailsMessage.toSnapshot, if_neg (not_not.mpr (hinner hashes))]
      refine bind_eq_ok_iff.mpr ⟨_, mapM_collectHashes_innerHashes it _ hashes, ?_⟩
      rw [collectMap_keys_values]
      rfl

/-- A snapshot survives the way through its message, in whatever order its maps are gone through;
and a message becomes a snapshot exactly when its lists fit at every level, each index then having
the hashes at its own last position. -/
theorem snapshot_conversion_lossless :
    (∀ (it : Iteration) (snapshot : DhtSnapshot), throughMessage it snapshot = .ok snapshot) ∧
    (∀ m : SnapshotMinimalMessage,
      m.toSnapshot = .minimal m.discTopHash m.discBoundary m.ringTopHashes) ∧
    (∀ m : SnapshotDiscSectorsMessage,
      ((∃ s, m.toSnapshot = .ok s) ↔ m.discSectors.length = m.discSectorHashes.length) ∧
      ∀ s, m.toSnapshot = .ok s → ∃ t, s = .discSectors t m.discBoundary ∧
        ByPosition Eq m.discSectors m.discSectorHashes t) ∧
    (∀ m : SnapshotDiscSectorDetailsMessage,
      ((∃ s, m.toSnapshot = .ok s) ↔ m.sectorIndices.length = m.discSliceHashes.length ∧
        ∀ h ∈ m.discSliceHashes, h.indices.length = h.hashes.length) ∧
      ∀ s, m.toSnapshot = .ok s → ∃ t, s = .discSectorDetails t m.discBoundary ∧
        ByPosition Paired m.sectorIndices m.discSliceHashes t) ∧
    (∀ m : SnapshotRingSectorDetailsMessage,
      ((∃ s, m.toSnapshot = .ok s) ↔ m.ringIndices.length = m.ringSectorHashes.length ∧
        ∀ h ∈ m.ringSectorHashes, h.indices.length = h.hashes.length) ∧
      ∀ s, m.toSnapshot = .ok s → ∃ t, s = .ringSectorDetails t m.discBoundary ∧
        ByPosition Paired m.ringIndices m.ringSectorHashes t) :=
  ⟨throughMessage_ok, fun _ => rfl, fun m => m.toSnapshot_spec, fun m => m.toSnapshot_spec,
    fun m => m.toSnapshot_spec⟩

end Gossip
end Kitsune2
