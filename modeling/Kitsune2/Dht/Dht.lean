import Kitsune2.Dht.Lockstep
import Kitsune2.Dht.Snapshot

/-!
# Dht — the DHT model of a node

The queries of `HashPartition` that snapshots are made of, the `Dht` with its updates and snapshots,
and `handleSnapshot`, which answers a snapshot of another node with a more detailed one or with a
list of op ids.  The byte budget of a list counts whole slices: a slice that does not fit what is
left is skipped.
-/

namespace Kitsune2
namespace Dht

open Api Lib
open Std (ExtTreeMap)

/-! ## Queries of the hash partition -/

namespace HashPartition

/-- The sectors of an arc set, with their indices, around the circle from `0`. -/
def includedSectors (p : HashPartition) (arcSet : ArcSet) : List (TimePartition × Nat) :=
  p.sectors.zipIdx.filter fun e => arcSet.includesSectorIndex e.2

/-- `self.sectors[0]`. -/
def firstSector (p : HashPartition) : Except Fault TimePartition :=
  match p.sectors.head? with
  | none => .error (.panicked "index out of bounds")
  | some tp => .ok tp

/-- The end of the last full slice, the common reference point of two snapshots. -/
def fullSliceEndTimestamp (p : HashPartition) : Except Fault Int := do
  let tp ← p.firstSector
  tp.fullSliceEndTimestamp

def dhtArcForSectorIndex (p : HashPartition) (sectorIndex : Nat) : Except Fault DhtArc :=
  match p.sectors[sectorIndex]? with
  | none => .error (.k2 "Sector index out of bounds")
  | some tp => .ok tp.sectorConstraint

def timeBoundsForFullSliceIndex (p : HashPartition) (sliceIndex : Nat) : Except Fault (Int × Int) := do
  let tp ← p.firstSector
  tp.timeBoundsForFullSliceIndex sliceIndex

def timeBoundsForPartialSliceIndex (p : HashPartition) (sliceIndex : Nat) :
    Except Fault (Int × Int) := do
  let tp ← p.firstSector
  tp.timeBoundsForPartialSliceIndex sliceIndex

/-- Fold a hash into a combined hash, unless it is empty. -/
def combineNonEmpty (combined hash : Bytes) : Except Fault Bytes :=
  if hash = [] then .ok combined else combineHashes combined hash

def discTopHash (p : HashPartition) (arcSet : ArcSet) (store : OpStore) :
    Except Fault (Bytes × Int) := do
  let combined ← (p.includedSectors arcSet).foldlM (fun combined e => do
    let hash ← e.1.fullTimeSliceTopHash store
    combineNonEmpty combined hash) []
  let timestamp ← p.fullSliceEndTimestamp
  pure (combined, timestamp)

/-- The combined hash of one ring. -/
def ringTopHash (sectors : List (TimePartition × Nat)) (ring : Nat) : Except Fault Bytes :=
  sectors.foldlM (fun combined e =>
    combineNonEmpty combined (e.1.partialSliceHashes[ring]?.getD [])) []

/-- One hash for each ring of the first included sector. -/
def ringTopHashes (p : HashPartition) (arcSet : ArcSet) : Except Fault (List Bytes) :=
  let sectors := p.includedSectors arcSet
  let rings := (sectors.head?.map fun e => e.1.partialSliceHashes.length).getD 0
  (List.range rings).mapM (ringTopHash sectors)

def discSectorHashes (p : HashPartition) (arcSet : ArcSet) (store : OpStore) :
    Except Fault (ExtTreeMap Nat Bytes × Int) := do
  let out ← (p.includedSectors arcSet).foldlM (fun (out : ExtTreeMap Nat Bytes) e => do
    let hash ← e.1.fullTimeSliceTopHash store
    pure (if hash = [] then out else out.insert e.2 hash)) ∅
  let timestamp ← p.fullSliceEndTimestamp
  pure (out, timestamp)

def discSectorSectorDetails (p : HashPartition) (arcSet : ArcSet) (sectorIndices : List Nat)
    (store : OpStore) : Except Fault (ExtTreeMap Nat (ExtTreeMap Nat Bytes) × Int) := do
  let wanted := (p.includedSectors arcSet).filter fun e => sectorIndices.contains e.2
  let out := wanted.foldl (fun (out : ExtTreeMap Nat (ExtTreeMap Nat Bytes)) e =>
    out.insert e.2 (store.sliceHashes e.1.sectorConstraint)) ∅
  let timestamp ← p.fullSliceEndTimestamp
  pure (out, timestamp)

/-- The entry of a ring is there even when the hash is empty. -/
def addRingHash (out : ExtTreeMap Nat (ExtTreeMap Nat Bytes)) (ring sector : Nat) (hash : Bytes) :
    ExtTreeMap Nat (ExtTreeMap Nat Bytes) :=
  let entry := out[ring]?.getD ∅
  out.insert ring (if hash = [] then entry else entry.insert sector hash)

def ringDetails (p : HashPartition) (arcSet : ArcSet) (ringIndices : List Nat) :
    Except Fault (ExtTreeMap Nat (ExtTreeMap Nat Bytes) × Int) := do
  let out ← (p.includedSectors arcSet).foldlM
    (fun (out : ExtTreeMap Nat (ExtTreeMap Nat Bytes)) e =>
      ringIndices.foldlM (fun (out : ExtTreeMap Nat (ExtTreeMap Nat Bytes)) ring => do
        let hash ← e.1.partialSliceHash ring
        pure (addRingHash out ring e.2 hash)) out) ∅
  let timestamp ← p.fullSliceEndTimestamp
  pure (out, timestamp)

end HashPartition

/-! ## The DHT -/

structure DhtState where
  partition : HashPartition
  store : OpStore
  opCount : Nat

inductive DhtSnapshotNextAction
  | identical
  | cannotCompare
  | newSnapshot (snapshot : DhtSnapshot)
  | newSnapshotAndHashList (snapshot : DhtSnapshot) (opIds : List Bytes)
  | hashList (opIds : List Bytes)
  deriving DecidableEq

namespace DhtState

abbrev DhtM := Eff Fault DhtState

/-- The time factor of every DHT. -/
def timeFactor : Nat := 9

section Mutation

variable (loc : LocCb)

def onPartition (m : HashM Unit) : DhtM Unit :=
  Eff.zoom (fun d : DhtState => { partition := d.partition, store := d.store : HashEnv })
    (fun env d => { d with partition := env.partition, store := env.store }) m

def update (currentTime : Int) : DhtM Unit :=
  onPartition (HashPartition.update loc currentTime)

def informOpsStored (storedOps : List StoredOp) : DhtM Unit := do
  onPartition (HashPartition.informOpsStored loc storedOps)
  Eff.modify fun d => { d with opCount := d.opCount + storedOps.length }

/-- Build the DHT of a store; the store is left with the slice hashes of the build. -/
def tryFromStore (currentTime : Int) (store : OpStore) : Except Fault DhtState :=
  match HashPartition.tryFromStore loc timeFactor currentTime store with
  | (.ok partition, store') =>
      .ok { partition := partition, store := store', opCount := store.opList.length }
  | (.error e, _) => .error e

end Mutation

/-! ## Snapshots -/

def snapshotMinimal (d : DhtState) (arcSet : ArcSet) : Except Fault DhtSnapshot :=
  if arcSet.coveredSectorCount = 0 then .error (.k2 "No arcs to snapshot")
  else do
    let (discTopHash, discBoundary) ← d.partition.discTopHash arcSet d.store
    let ringTopHashes ← d.partition.ringTopHashes arcSet
    pure (.minimal discTopHash discBoundary ringTopHashes)

def snapshotDiscSectors (d : DhtState) (arcSet : ArcSet) : Except Fault DhtSnapshot := do
  let (hashes, discBoundary) ← d.partition.discSectorHashes arcSet d.store
  pure (.discSectors hashes discBoundary)

def snapshotDiscSectorDetails (d : DhtState) (mismatchedSectorIndices : List Nat) (arcSet : ArcSet) :
    Except Fault DhtSnapshot := do
  let (hashes, discBoundary) ←
    d.partition.discSectorSectorDetails arcSet mismatchedSectorIndices d.store
  pure (.discSectorDetails hashes discBoundary)

def snapshotRingSectorDetails (d : DhtState) (mismatchedRings : List Nat) (arcSet : ArcSet) :
    Except Fault DhtSnapshot := do
  let (hashes, discBoundary) ← d.partition.ringDetails arcSet mismatchedRings
  pure (.ringSectorDetails hashes discBoundary)

/-! ## Collecting op ids within a budget -/

/-- `x as i32` of a `u32`. -/
def asI32 (x : Nat) : Int :=
  Int.bmod x (2 ^ 32)

/-- `a + b` in `u32`. -/
def addU32 (a b : Nat) : Except Fault Nat :=
  if a + b ≤ u32Max then .ok (a + b) else .error (.panicked "attempt to add with overflow")

/-- `let Ok(x) = r else { continue }`: an error is skipped, a panic is not. -/
def orSkip {α : Type} (r : Except Fault α) : Except Fault (Option α) :=
  match r with
  | .ok x => .ok (some x)
  | .error (.k2 _) => .ok none
  | .error (.panicked reason) => .error (.panicked reason)

/-- The ids collected so far and the bytes they use. -/
abbrev Collected := List Bytes × Nat

variable (loc : LocCb)

/-- Take the ops of one slice if they fit. -/
def takeSlice (d : DhtState) (maxOpDataBytes : Int) (arc : DhtArc) (bounds : Int × Int)
    (acc : Collected) : Except Fault Collected := do
  let (opIds, usedHere) := d.store.opHashesInTimeSlice loc arc bounds.1 bounds.2
  let total ← addU32 acc.2 usedHere
  if asI32 total ≤ maxOpDataBytes then pure (acc.1 ++ opIds, total) else pure acc

/-- The slices of one sector, in order. -/
def collectSlices (d : DhtState) (maxOpDataBytes : Int) (arc : DhtArc) (slices : List Nat)
    (acc : Collected) : Except Fault Collected :=
  slices.foldlM (fun acc slice => do
    match ← orSkip (d.partition.timeBoundsForFullSliceIndex slice) with
    | none => pure acc
    | some bounds => takeSlice loc d maxOpDataBytes arc bounds acc) acc

/-- The mismatched slices of the disc, by sector; the budget is checked before each sector. -/
def collectDisc (d : DhtState) (maxOpDataBytes : Int) :
    List (Nat × List Nat) → Collected → Except Fault Collected
  | [], acc => pure acc
  | (sector, slices) :: rest, acc =>
      if asI32 acc.2 ≥ maxOpDataBytes then pure acc
      else do
        match ← orSkip (d.partition.dhtArcForSectorIndex sector) with
        | none => collectDisc d maxOpDataBytes rest acc
        | some arc => do
            let acc ← collectSlices loc d maxOpDataBytes arc
              (slices.insertionSort (· ≤ ·)) acc
            collectDisc d maxOpDataBytes rest acc

/-- The mismatched sectors of the rings, as one list of pairs of ring and sector. -/
def ringSlots (mismatched : List (Nat × List Nat)) : List (Nat × Nat) :=
  mismatched.flatMap fun e => (e.2.insertionSort (· ≤ ·)).map fun sector => (e.1, sector)

/-- The mismatched sectors of the rings; the budget is checked before each of them and ends the
whole search. -/
def collectRings (d : DhtState) (maxOpDataBytes : Int) :
    List (Nat × Nat) → Collected → Except Fault Collected
  | [], acc => pure acc
  | (ring, sector) :: rest, acc =>
      if asI32 acc.2 ≥ maxOpDataBytes then pure acc
      else do
        match ← orSkip (d.partition.dhtArcForSectorIndex sector) with
        | none => collectRings d maxOpDataBytes rest acc
        | some arc =>
            match ← orSkip (d.partition.timeBoundsForPartialSliceIndex ring) with
            | none => collectRings d maxOpDataBytes rest acc
            | some bounds => do
                let acc ← takeSlice loc d maxOpDataBytes arc bounds acc
                collectRings d maxOpDataBytes rest acc

/-! ## Answering a snapshot -/

/-- A most detailed snapshot: the next comparison is the final one. -/
def isDetails : DhtSnapshot → Bool
  | .discSectorDetails _ _ => true
  | .ringSectorDetails _ _ => true
  | _ => false

/-- The snapshot of ours that matches theirs; a detailed one is not computed again. -/
def matchingSnapshot (d : DhtState) (theirSnapshot : DhtSnapshot)
    (ourPreviousSnapshot : Option DhtSnapshot) (arcSet : ArcSet) : Except Fault DhtSnapshot :=
  match theirSnapshot with
  | .minimal _ _ _ => d.snapshotMinimal arcSet
  | .discSectors _ _ => d.snapshotDiscSectors arcSet
  | .discSectorDetails hashes _ =>
      match ourPreviousSnapshot with
      | some (.discSectorDetails h b) => .ok (.discSectorDetails h b)
      | _ => d.snapshotDiscSectorDetails hashes.keys arcSet
  | .ringSectorDetails hashes _ =>
      match ourPreviousSnapshot with
      | some (.ringSectorDetails h b) => .ok (.ringSectorDetails h b)
      | _ => d.snapshotRingSectorDetails hashes.keys arcSet

/-- A hash list, with our snapshot unless this was the final comparison. -/
def finishList (isFinal : Bool) (ourSnapshot : DhtSnapshot) (found : Collected) :
    DhtSnapshotNextAction × Nat :=
  if isFinal then (.hashList found.1, found.2)
  else (.newSnapshotAndHashList ourSnapshot found.1, found.2)

def handleSnapshot (d : DhtState) (theirSnapshot : DhtSnapshot)
    (ourPreviousSnapshot : Option DhtSnapshot) (arcSet : ArcSet) (maxOpDataBytes : Int) :
    Except Fault (DhtSnapshotNextAction × Nat) :=
  if arcSet.coveredSectorCount = 0 then .error (.k2 "No arcs to snapshot")
  else do
    -- a previous snapshot with details marks the last comparison: it answers with a list only
    let isFinal := (ourPreviousSnapshot.map isDetails).getD false
    let ourSnapshot ← d.matchingSnapshot theirSnapshot ourPreviousSnapshot arcSet
    match ourSnapshot.compare theirSnapshot with
    | .identical => pure (.identical, 0)
    | .cannotCompare => pure (.cannotCompare, 0)
    | .discMismatch => do
        let snapshot ← d.snapshotDiscSectors arcSet
        pure (.newSnapshot snapshot, 0)
    | .discSectorMismatches sectors => do
        let snapshot ← d.snapshotDiscSectorDetails sectors arcSet
        pure (.newSnapshot snapshot, 0)
    -- the two detail comparisons are the only ones that read ops and spend the budget
    | .discSectorSliceMismatches slices => do
        let found ← collectDisc loc d maxOpDataBytes slices.toList ([], 0)
        pure (finishList isFinal ourSnapshot found)
    | .ringMismatches rings => do
        let snapshot ← d.snapshotRingSectorDetails rings arcSet
        pure (.newSnapshot snapshot, 0)
    | .ringSectorMismatches sectors => do
        let found ← collectRings loc d maxOpDataBytes (ringSlots sectors.toList) ([], 0)
        pure (finishList isFinal ourSnapshot found)

end DhtState

end Dht
end Kitsune2
