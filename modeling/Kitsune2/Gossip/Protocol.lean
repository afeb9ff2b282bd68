import Kitsune2.Dht.ArcSet

/-!
# Protocol — the messages of a gossip round

Twelve kinds of messages, each with the fields the handlers read.  Snapshots travel as lists of
indices beside lists of hashes and are put together again by position, so a message may fail to be a
snapshot.  Agent infos travel encoded; a message without an optional part is `none` there.
-/

namespace Kitsune2
namespace Gossip

open Api Dht
open Std (ExtTreeMap)

/-! ## Snapshots on the wire -/

structure SnapshotMinimalMessage where
  discBoundary : Int
  discTopHash : Bytes
  ringTopHashes : List Bytes
  deriving DecidableEq, Repr

structure SnapshotDiscSectorsMessage where
  discBoundary : Int
  discSectors : List Nat
  discSectorHashes : List Bytes
  deriving DecidableEq, Repr

/-- `DiscSliceHashes` and `RingSectorHashes`: indices and, at the same positions, hashes. -/
structure IndexedHashes where
  indices : List Nat
  hashes : List Bytes
  deriving DecidableEq, Repr

structure SnapshotDiscSectorDetailsMessage where
  discBoundary : Int
  sectorIndices : List Nat
  discSliceHashes : List IndexedHashes
  deriving DecidableEq, Repr

structure SnapshotRingSectorDetailsMessage where
  discBoundary : Int
  ringIndices : List Nat
  ringSectorHashes : List IndexedHashes
  deriving DecidableEq, Repr

/-- `zip` and `collect` into a map: of an index that repeats, the last hash stays. -/
def collectMap {β : Type} (indices : List Nat) (values : List β) : ExtTreeMap Nat β :=
  (indices.zip values).foldl (fun m e => m.insert e.1 e.2) ∅

/-- The keys and, at the same positions, the values of a map of hashes. -/
def indexedHashes (m : ExtTreeMap Nat Bytes) : IndexedHashes :=
  { indices := m.keys, hashes := m.values }

def collectHashes (lengthError : String) (message : IndexedHashes) :
    Except Fault (ExtTreeMap Nat Bytes) :=
  if message.indices.length ≠ message.hashes.length then .error (.k2 lengthError)
  else .ok (collectMap message.indices message.hashes)

namespace SnapshotMinimalMessage

def ofSnapshot : DhtSnapshot → Except Fault SnapshotMinimalMessage
  | .minimal discTopHash discBoundary ringTopHashes =>
      .ok { discBoundary, discTopHash, ringTopHashes }
  | _ =>
      .error (.k2 "Only DhtSnapshot::Minimal can be converted to a SnapshotMinimalMessage")

def toSnapshot (m : SnapshotMinimalMessage) : DhtSnapshot :=
  .minimal m.discTopHash m.discBoundary m.ringTopHashes

end SnapshotMinimalMessage

namespace SnapshotDiscSectorsMessage

def ofSnapshot : DhtSnapshot → Except Fault SnapshotDiscSectorsMessage
  | .discSectors hashes discBoundary =>
      .ok { discBoundary, discSectors := hashes.keys, discSectorHashes := hashes.values }
  | _ =>
      .error (.k2 "Only DhtSnapshot::DiscSectors can be converted to a SnapshotDiscSectorsMessage")

def toSnapshot (m : SnapshotDiscSectorsMessage) : Except Fault DhtSnapshot :=
  if m.discSectors.length ≠ m.discSectorHashes.length then
    .error (.k2 "Mismatched disc sector and hash lengths")
  else .ok (.discSectors (collectMap m.discSectors m.discSectorHashes) m.discBoundary)

end SnapshotDiscSectorsMessage

namespace SnapshotDiscSectorDetailsMessage

def ofSnapshot : DhtSnapshot → Except Fault SnapshotDiscSectorDetailsMessage
  | .discSectorDetails hashes discBoundary =>
      .ok
        { discBoundary
          sectorIndices := hashes.keys
          discSliceHashes := hashes.values.map indexedHashes }
  | _ =>
      .error (.k2 ("Only DhtSnapshot::DiscSectorDetails can be converted to a " ++
        "SnapshotDiscSectorDetailsMessage"))

def toSnapshot (m : SnapshotDiscSectorDetailsMessage) : Except Fault DhtSnapshot :=
  if m.sectorIndices.length ≠ m.discSliceHashes.length then
    .error (.k2 "Mismatched sector and hash lengths")
  else do
    let slices ← m.discSliceHashes.mapM (collectHashes "Mismatched slice and hash lengths")
    pure (.discSectorDetails (collectMap m.sectorIndices slices) m.discBoundary)

end SnapshotDiscSectorDetailsMessage

namespace SnapshotRingSectorDetailsMessage

def ofSnapshot : DhtSnapshot → Except Fault SnapshotRingSectorDetailsMessage
  | .ringSectorDetails hashes discBoundary =>
      .ok
        { discBoundary
          ringIndices := hashes.keys
          ringSectorHashes := hashes.values.map indexedHashes }
  | _ =>
      .error (.k2 ("Only DhtSnapshot::RingSectorDetails can be converted to a " ++
        "SnapshotRingSectorDetailsMessage"))

def toSnapshot (m : SnapshotRingSectorDetailsMessage) : Except Fault DhtSnapshot :=
  if m.ringIndices.length ≠ m.ringSectorHashes.length then
    .error (.k2 "Mismatched ring sector and hash lengths")
  else do
    let sectors ← m.ringSectorHashes.mapM (collectHashes "Mismatched sector and hash lengths")
    pure (.ringSectorDetails (collectMap m.ringIndices sectors) m.discBoundary)

end SnapshotRingSectorDetailsMessage

/-! ## Messages -/

/-- Common fields of every answer to an accept message. -/
structure AcceptResponseMessage where
  missingAgents : List Bytes
  providedAgents : List Bytes
  newOps : List Bytes
  updatedNewSince : Int
  deriving DecidableEq, Repr

structure InitiateMessage where
  sessionId : Bytes
  participatingAgents : List Bytes
  arcSet : Option (List Nat)
  tieBreaker : Nat
  newSince : Int
  maxOpDataBytes : Nat
  dhtOpCount : Option Nat
  deriving DecidableEq, Repr

structure AcceptMessage where
  sessionId : Bytes
  participatingAgents : List Bytes
  arcSet : Option (List Nat)
  missingAgents : List Bytes
  newSince : Int
  maxOpDataBytes : Nat
  newOps : List Bytes
  updatedNewSince : Int
  dhtOpCount : Option Nat
  snapshot : Option SnapshotMinimalMessage
  deriving DecidableEq, Repr

structure NoDiffMessage where
  sessionId : Bytes
  acceptResponse : Option AcceptResponseMessage
  cannotCompare : Bool
  deriving DecidableEq, Repr

structure DiscSectorsDiffMessage where
  sessionId : Bytes
  acceptResponse : Option AcceptResponseMessage
  snapshot : Option SnapshotDiscSectorsMessage
  deriving DecidableEq, Repr

structure DiscSectorDetailsDiffMessage where
  sessionId : Bytes
  providedAgents : List Bytes
  snapshot : Option SnapshotDiscSectorDetailsMessage
  deriving DecidableEq, Repr

structure DiscSectorDetailsDiffResponseMessage where
  sessionId : Bytes
  missingIds : List Bytes
  snapshot : Option SnapshotDiscSectorDetailsMessage
  deriving DecidableEq, Repr

structure RingSectorDetailsDiffMessage where
  sessionId : Bytes
  acceptResponse : Option AcceptResponseMessage
  snapshot : Option SnapshotRingSectorDetailsMessage
  deriving DecidableEq, Repr

structure RingSectorDetailsDiffResponseMessage where
  sessionId : Bytes
  missingIds : List Bytes
  snapshot : Option SnapshotRingSectorDetailsMessage
  deriving DecidableEq, Repr

structure HashesMessage where
  sessionId : Bytes
  missingIds : List Bytes
  deriving DecidableEq, Repr

structure AgentsMessage where
  sessionId : Bytes
  providedAgents : List Bytes
  deriving DecidableEq, Repr

structure BusyMessage where
  sessionId : Bytes
  deriving DecidableEq, Repr

structure TerminateMessage where
  sessionId : Bytes
  reason : String
  deriving DecidableEq, Repr

inductive GossipMessage
  | initiate (m : InitiateMessage)
  | accept (m : AcceptMessage)
  | noDiff (m : NoDiffMessage)
  | discSectorsDiff (m : DiscSectorsDiffMessage)
  | discSectorDetailsDiff (m : DiscSectorDetailsDiffMessage)
  | discSectorDetailsDiffResponse (m : DiscSectorDetailsDiffResponseMessage)
  | ringSectorDetailsDiff (m : RingSectorDetailsDiffMessage)
  | ringSectorDetailsDiffResponse (m : RingSectorDetailsDiffResponseMessage)
  | hashes (m : HashesMessage)
  | agents (m : AgentsMessage)
  | busy (m : BusyMessage)
  | terminate (m : TerminateMessage)
  deriving DecidableEq, Repr

/-- No answer, or one of the three messages that end a round. -/
def isFinalMessage : Option GossipMessage → Bool
  | none => true
  | some (.agents _) => true
  | some (.hashes _) => true
  | some (.terminate _) => true
  | some _ => false

end Gossip
end Kitsune2
