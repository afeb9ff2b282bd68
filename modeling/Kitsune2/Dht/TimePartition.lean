import Kitsune2.Dht.Combine
import Kitsune2.Dht.OpStore

/-!
# TimePartition — full and partial time slices of one sector

Historical time is cut into *full slices* of `2^factor` units whose combined hashes live in the op
store; recent time is cut into *partial slices* of decreasing size whose hashes are kept in memory.
`update` moves the boundary with the clock, `informOpsStored` folds newly stored ops into the
slices they belong to, and `tryFromStore` rebuilds the partition from a store.

Functions with `&mut self` run over `SectorEnv`, the partition together with the store, and keep
what they changed when they stop early.
-/

namespace Kitsune2
namespace Dht

open Api Lib

/-! ## Data -/

/-- `UNIT_TIME` in seconds. -/
def unitSecs : Nat := 15 * 60

/-- `UNIT_TIME`. -/
def unitTime : Nat := fromSecs unitSecs

structure PartialSlice where
  start : Int
  size : Nat
  hash : Bytes
  deriving DecidableEq, Repr

/-- The duration `2^size * UNIT_TIME` of a slice. -/
def sliceDuration (size : Nat) : Except Fault Nat := do
  let units ← shlU64 size
  let secs ← mulU64 units unitSecs
  pure (fromSecs secs)

/-- `PartialSlice::end`. -/
def PartialSlice.stop (p : PartialSlice) : Except Fault Int := do
  let d ← sliceDuration p.size
  addDuration p.start d

structure TimePartition where
  factor : Nat
  fullSlices : Nat
  partialSlices : List PartialSlice
  fullSliceDuration : Nat
  minRecentTime : Nat
  nextUpdateAt : Int
  sectorConstraint : DhtArc
  deriving DecidableEq, Repr

/-- A partition and the store it works on. -/
structure SectorEnv where
  part : TimePartition
  store : OpStore

abbrev PartM := Eff Fault SectorEnv

def onStore {α : Type} (m : StoreM α) : PartM α :=
  Eff.zoom (fun env => env.store) (fun st env => { env with store := st }) m

def modifyPart (f : TimePartition → TimePartition) : PartM Unit :=
  Eff.modify fun env => { env with part := f env.part }

/-! ## Construction -/

/-- The bit sum of the loop in `residual_duration_for_factor`. -/
def residualUnits : Nat → Nat
  | 0 => 1
  | i + 1 => residualUnits i ||| 1 <<< (i + 1)

def residualDurationForFactor (factor : Nat) : Except Fault Nat :=
  if factor ≥ 54 then .error (.k2 "Time partitioning factor must be less than 54")
  else do
    let secs ← mulU64 (residualUnits factor) unitSecs
    pure (fromSecs secs)

namespace TimePartition

def new (factor : Nat) (sectorConstraint : DhtArc) : Except Fault TimePartition := do
  let fullSliceDuration ← sliceDuration factor
  if factor = 0 then .error (.panicked "attempt to subtract with overflow")
  else
    let minRecentTime ← residualDurationForFactor (factor - 1)
    pure
      { factor := factor
        fullSlices := 0
        partialSlices := []
        fullSliceDuration := fullSliceDuration
        minRecentTime := minRecentTime
        nextUpdateAt := 0
        sectorConstraint := sectorConstraint }

def fullSliceEndTimestamp (tp : TimePartition) : Except Fault Int := do
  let secs ← mulU64 tp.fullSlices (asSecs tp.fullSliceDuration)
  addDuration unixTimestamp (fromSecs secs)

/-! ## Layout -/

/-- How many new full slices fit. -/
def layoutFullSlices (tp : TimePartition) (currentTime : Int) : Except Fault Nat := do
  let fullEnd ← tp.fullSliceEndTimestamp
  let recentTime ← elapsed currentTime fullEnd
    (.k2 "Current time is before the complete time slice boundary")
  if recentTime > tp.minRecentTime then
    pure (asSecs (recentTime - tp.minRecentTime) / asSecs tp.fullSliceDuration)
  else pure 0

/-- How many slices of one size are laid out in the time that is left. -/
def sliceCount (recentTime residual sliceSize : Nat) : Nat :=
  if recentTime > residual + sliceSize then 2
  else if recentTime > sliceSize then 1
  else 0

/-- The inner loop of `layout_partials`: push `count` slices of one size. -/
def pushSlices (size sliceSize : Nat) :
    Nat → Int → Nat → Except Fault (List (Int × Nat) × Int × Nat)
  | 0, startAt, recentTime => .ok ([], startAt, recentTime)
  | count + 1, startAt, recentTime => do
      let next ← addDuration startAt sliceSize
      let rest ← pushSlices size sliceSize count next (recentTime - sliceSize)
      pure ((startAt, size) :: rest.1, rest.2)

/-- The outer loop of `layout_partials`, from size `n - 1` down to size `0`. -/
def layoutSizes : Nat → Int → Nat → Except Fault (List (Int × Nat))
  | 0, _, _ => .ok []
  | i + 1, startAt, recentTime => do
      let sliceSize ← sliceDuration i
      let residual ← residualDurationForFactor i
      let _ ← addDurations residual sliceSize
      let here ← pushSlices i sliceSize (sliceCount recentTime residual sliceSize) startAt recentTime
      let rest ← layoutSizes i here.2.1 here.2.2
      pure (here.1 ++ rest)

def layoutPartials (tp : TimePartition) (startAt currentTime : Int) :
    Except Fault (List (Int × Nat)) := do
  let recentTime ← elapsed currentTime startAt
    (.k2 "Failed to calculate recent time for partials, either the clock is wrong or this is a bug")
  layoutSizes tp.factor startAt recentTime

/-! ## Update -/

section Update

variable (loc : LocCb)

/-- Store the combined hash of a new full slice.  Empty hashes are left out: the store is sparse. -/
def storeFullSlice (arc : DhtArc) (sliceIndex : Nat) (hash : Bytes) : PartM Unit :=
  if hash = [] then pure () else onStore (storeSliceHash arc sliceIndex hash)

/-- The loop of `update_full_slice_hashes`. -/
def addFullSlices : Nat → Int → PartM Unit
  | 0, _ => pure ()
  | n + 1, fullEnd => do
      let env ← Eff.read
      let stop ← Eff.lift (addDuration fullEnd env.part.fullSliceDuration)
      let ops ← onStore
        (retrieveOpHashesInTimeSlice loc env.part.sectorConstraint fullEnd stop)
      let hash ← Eff.lift (combineOpHashes ops.1)
      storeFullSlice env.part.sectorConstraint env.part.fullSlices hash
      modifyPart fun tp => { tp with fullSlices := tp.fullSlices + 1 }
      addFullSlices n stop

def updateFullSliceHashes (currentTime : Int) : PartM Unit := do
  let env ← Eff.read
  let count ← Eff.lift (env.part.layoutFullSlices currentTime)
  let fullEnd ← Eff.lift env.part.fullSliceEndTimestamp
  addFullSlices loc count fullEnd

/-- The hash of an unchanged slice, for reuse. -/
def findPartial (old : List PartialSlice) (start : Int) (size : Nat) : Option Bytes :=
  old.findSome? fun b => if b.start = start ∧ b.size = size then some b.hash else none

/-- The combined hash of a slice that was not there before. -/
def computePartial (earliest : Option Int) (start : Int) (size : Nat) : PartM Bytes := do
  let d ← Eff.lift (sliceDuration size)
  let stop ← Eff.lift (addDuration start d)
  match earliest with
  | none => pure []
  | some t =>
      if stop ≥ t then do
        let env ← Eff.read
        let ops ← onStore (retrieveOpHashesInTimeSlice loc env.part.sectorConstraint start stop)
        Eff.lift (combineOpHashes ops.1)
      else pure []

/-- The hash of a slice: reused if the slice did not change. -/
def partialHash (old : List PartialSlice) (earliest : Option Int) (slot : Int × Nat) :
    PartM Bytes :=
  match findPartial old slot.1 slot.2 with
  | some hash => pure hash
  | none => computePartial loc earliest slot.1 slot.2

/-- The loop body of `update_partials`. -/
def pushPartial (old : List PartialSlice) (earliest : Option Int) (slot : Int × Nat) :
    PartM Unit := do
  let hash ← partialHash loc old earliest slot
  modifyPart fun tp =>
    { tp with
      partialSlices := tp.partialSlices ++ [{ start := slot.1, size := slot.2, hash := hash }] }

def updatePartials (earliest : Option Int) (currentTime : Int) : PartM Unit := do
  let env ← Eff.read
  let fullEnd ← Eff.lift env.part.fullSliceEndTimestamp
  let newPartials ← Eff.lift (env.part.layoutPartials fullEnd currentTime)
  modifyPart fun tp => { tp with partialSlices := [] }
  Eff.each (pushPartial loc env.part.partialSlices earliest) newPartials

/-- The timestamp of the next required update, once partial slices exist. -/
def scheduleNextUpdate : PartM Unit := do
  let env ← Eff.read
  match env.part.partialSlices.getLast? with
  | none => pure ()
  | some last => do
      let stop ← Eff.lift last.stop
      let next ← Eff.lift (addDuration stop unitTime)
      modifyPart fun tp => { tp with nextUpdateAt := next }

def update (currentTime : Int) : PartM Unit := do
  updateFullSliceHashes loc currentTime
  let env ← Eff.read
  let earliest ← onStore (earliestTimestampInArc loc env.part.sectorConstraint)
  updatePartials loc earliest currentTime
  scheduleNextUpdate

end Update

/-! ## Stored ops -/

/-- `i64` division. -/
def divI64 (a b : Int) : Except Fault Int :=
  if b = 0 then .error (.panicked "attempt to divide by zero") else .ok (a.tdiv b)

/-- A historical op changes the stored hash of its full slice. -/
def informFull (op : StoredOp) : PartM Unit := do
  let env ← Eff.read
  let index ← Eff.lift (divI64 op.createdAt (wrapI64 env.part.fullSliceDuration))
  let current ← onStore (retrieveSliceHash env.part.sectorConstraint (wrapU64 index))
  match current with
  | some hash => do
      let combined ← Eff.lift (combineHashes hash op.opId)
      onStore (storeSliceHash env.part.sectorConstraint (wrapU64 index) combined)
  | none => onStore (storeSliceHash env.part.sectorConstraint (wrapU64 index) op.opId)

/-- The backwards scan over the partial slices: combine into the first one that starts in time. -/
def combineFirst (op : StoredOp) : List PartialSlice → Except Fault (List PartialSlice)
  | [] => .ok []
  | p :: rest =>
      if op.createdAt ≥ p.start then do
        let hash ← combineHashes p.hash op.opId
        pure ({ p with hash := hash } :: rest)
      else do
        let rest' ← combineFirst op rest
        pure (p :: rest')

/-- A recent op changes the hash of its partial slice, if there is one yet. -/
def informPartial (op : StoredOp) : PartM Unit := do
  let env ← Eff.read
  match env.part.partialSlices.getLast? with
  | none => pure ()
  | some last => do
      let endOfPartials ← Eff.lift last.stop
      if op.createdAt ≥ endOfPartials then pure ()
      else do
        let partials ← Eff.lift (combineFirst op env.part.partialSlices.reverse)
        modifyPart fun tp => { tp with partialSlices := partials.reverse }

def informOp (fullEnd : Int) (op : StoredOp) : PartM Unit :=
  if op.createdAt < fullEnd then informFull op else informPartial op

def informOpsStored (storedOps : List StoredOp) : PartM Unit := do
  let env ← Eff.read
  let fullEnd ← Eff.lift env.part.fullSliceEndTimestamp
  Eff.each (informOp fullEnd) storedOps

/-! ## Rebuilding from a store -/

/-- Run a computation on a partition of our own; what it did to the store stays in any case. -/
def runOn (m : PartM Unit) (tp : TimePartition) : StoreM TimePartition := fun st =>
  match m { part := tp, store := st } with
  | (.ok _, env) => (.ok env.part, env.store)
  | (.error e, env) => (.error e, env.store)

/-- `x as u128` of an `i64`. -/
def wrapU128 (x : Int) : Nat :=
  (x % 2 ^ 128).toNat

/-- The full-slice count a partition starts from: the stored count, or a count that skips the
slices before the earliest op. -/
def initialFullSlices (loc : LocCb) (tp : TimePartition) (currentTime : Int) : StoreM Nat := do
  let count ← sliceHashCount tp.sectorConstraint
  if count = 0 then do
    let earliest ← earliestTimestampInArc loc tp.sectorConstraint
    let index := wrapU128 (earliest.getD currentTime) / tp.fullSliceDuration
    pure ((index - 1) % 2 ^ 64)
  else pure count

def tryFromStore (loc : LocCb) (factor : Nat) (currentTime : Int) (sectorConstraint : DhtArc) :
    StoreM TimePartition :=
  if sectorConstraint = .empty then Eff.fail (.k2 "Empty arc constraint is not valid")
  else do
    let fresh ← Eff.lift (TimePartition.new factor sectorConstraint)
    let fullSlices ← initialFullSlices loc fresh currentTime
    let pt := { fresh with fullSlices := fullSlices }
    let fullEnd ← Eff.lift pt.fullSliceEndTimestamp
    let recentTime ← Eff.lift (elapsed currentTime fullEnd
      (.k2 "Failed to calculate recent time, either the clock is wrong or this is a bug"))
    if pt.fullSlices > 0 ∧ recentTime < pt.minRecentTime then
      Eff.fail (.k2 "Not enough recent time reserved, either the clock is wrong or this is a bug")
    else runOn (update loc currentTime) pt

/-! ## Queries -/

def timeBoundsForFullSliceIndex (tp : TimePartition) (sliceIndex : Nat) :
    Except Fault (Int × Int) :=
  if sliceIndex > tp.fullSlices then
    .error (.k2 "Requested slice index is beyond the current full slices")
  else do
    let secs ← mulU64 sliceIndex (asSecs tp.fullSliceDuration)
    let start ← addDuration unixTimestamp (fromSecs secs)
    let stop ← addDuration start tp.fullSliceDuration
    pure (start, stop)

def timeBoundsForPartialSliceIndex (tp : TimePartition) (sliceIndex : Nat) :
    Except Fault (Int × Int) :=
  if sliceIndex > tp.partialSlices.length then
    .error (.k2 "Requested slice index is beyond the current partial slices")
  else
    match tp.partialSlices[sliceIndex]? with
    | none => .error (.panicked "index out of bounds")
    | some p => do
        let stop ← p.stop
        pure (p.start, stop)

/-- The stored slice hashes, in slice order. -/
def fullTimeSliceHashes (tp : TimePartition) (store : OpStore) : List (Nat × Bytes) :=
  (store.sliceHashes tp.sectorConstraint).toList

def fullTimeSliceTopHash (tp : TimePartition) (store : OpStore) : Except Fault Bytes :=
  combineOpHashes ((tp.fullTimeSliceHashes store).map fun e => e.2)

def partialSliceHashes (tp : TimePartition) : List Bytes :=
  tp.partialSlices.map fun p => p.hash

def partialSliceHash (tp : TimePartition) (sliceIndex : Nat) : Except Fault Bytes :=
  match tp.partialSlices[sliceIndex]? with
  | none => .error (.k2 "Requested slice index is beyond the current partial slices")
  | some p => .ok p.hash

end TimePartition

end Dht
end Kitsune2
