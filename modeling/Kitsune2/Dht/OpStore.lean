import Mathlib.Data.List.Sort
import Mathlib.Tactic.Linarith
import Kitsune2.Api.Time
import Kitsune2.Lib.Effect

/-!
# OpStore — the host's op store, as the DHT model uses it

The store keeps op records under their ids and, for every sector arc, a sparse ordered map of
combined slice hashes.  The DHT reaches it through calls that may fail: `failures` is the schedule
of failing calls, and a store whose schedule is empty answers every call.

An op's location is a function of its id that the host may choose (`LocCb`).
-/

namespace Kitsune2
namespace Dht

open Api Lib

/-! ## Ops -/

/-- The location callback of an id. -/
abbrev LocCb := Bytes → Fin (2 ^ 32)

instance LocCb.neZero : NeZero (2 ^ 32) := ⟨by decide⟩

/-- What the DHT is told about an op that was stored. -/
structure StoredOp where
  opId : Bytes
  createdAt : Int
  deriving DecidableEq, Repr

/-- The store's record of an op; of its data only the length matters here. -/
structure OpRecord extends StoredOp where
  dataLen : Nat
  deriving DecidableEq, Repr

/-- The combined hashes of one sector's full slices, by slice index. -/
abbrev SliceHashes := Std.ExtTreeMap Nat Bytes

structure OpStore where
  opList : List OpRecord
  sliceHashes : DhtArc → SliceHashes
  failures : List Bool

def OpStore.empty : OpStore where
  opList := []
  sliceHashes := fun _ => ∅
  failures := []

/-! ## Storing ops -/

/-- `op_list.entry(op_id).or_insert(record)`: an op that is already there stays as it is. -/
def OpStore.insertOp (st : OpStore) (op : OpRecord) : OpStore :=
  if st.opList.any fun o => o.opId == op.opId then st
  else { st with opList := st.opList ++ [op] }

/-- `process_incoming_ops`. -/
def OpStore.processIncomingOps (st : OpStore) (ops : List OpRecord) : OpStore :=
  ops.foldl OpStore.insertOp st

/-! ## Reading ops -/

section Reads

variable (loc : LocCb)

/-- The op lies in the arc and in the closed-open time interval. -/
def inSlice (arc : DhtArc) (start stop : Int) (op : StoredOp) : Bool :=
  decide (start ≤ op.createdAt) && decide (op.createdAt < stop) && arc.contains (loc op.opId)

/-- The records of a slice, ordered by creation time. -/
def OpStore.opsInSlice (st : OpStore) (arc : DhtArc) (start stop : Int) : List OpRecord :=
  (st.opList.filter fun op => inSlice loc arc start stop op.toStoredOp).insertionSort
    fun a b => a.createdAt ≤ b.createdAt

/-- The ids of a slice and the `u32` total of their data sizes. -/
def OpStore.opHashesInTimeSlice (st : OpStore) (arc : DhtArc) (start stop : Int) :
    List Bytes × Nat :=
  let ops := st.opsInSlice loc arc start stop
  (ops.map fun op => op.opId, (ops.map fun op => op.dataLen).sum % 2 ^ 32)

def OpStore.earliestInArc (st : OpStore) (arc : DhtArc) : Option Int :=
  ((st.opList.filter fun op => arc.contains (loc op.opId)).map fun op => op.createdAt).min?

/-! ## Calls -/

abbrev StoreM := Eff Fault OpStore

/-- Every call to the store may fail; the schedule says which. -/
def storeCall : StoreM Unit := fun st =>
  match st.failures with
  | [] => (.ok (), st)
  | false :: rest => (.ok (), { st with failures := rest })
  | true :: rest => (.error (.k2 "op store failure"), { st with failures := rest })

/-- A call that only reads. -/
def query {α : Type} (f : OpStore → α) : StoreM α := do
  storeCall
  let st ← Eff.read
  pure (f st)

def retrieveOpHashesInTimeSlice (arc : DhtArc) (start stop : Int) : StoreM (List Bytes × Nat) :=
  query fun st => st.opHashesInTimeSlice loc arc start stop

def earliestTimestampInArc (arc : DhtArc) : StoreM (Option Int) :=
  query fun st => st.earliestInArc loc arc

end Reads

def storeSliceHash (arc : DhtArc) (sliceIndex : Nat) (hash : Bytes) : StoreM Unit := do
  storeCall
  if hash = [] then Eff.fail (.k2 "Cannot insert empty combined hash")
  else
    Eff.modify fun st =>
      { st with
        sliceHashes := Function.update st.sliceHashes arc
          ((st.sliceHashes arc).insert sliceIndex hash) }

/-- The highest stored slice index plus one. -/
def sliceHashCount (arc : DhtArc) : StoreM Nat := do
  let highest ← query fun st => (st.sliceHashes arc).maxKey?
  match highest with
  | none => pure 0
  | some id =>
      if id < u64Max then pure (id + 1)
      else Eff.fail (.panicked "attempt to add with overflow")

def retrieveSliceHash (arc : DhtArc) (sliceIndex : Nat) : StoreM (Option Bytes) :=
  query fun st => (st.sliceHashes arc)[sliceIndex]?

/-! ## What the calls return -/

/-- The call left the ops and the slice hashes as they were. -/
structure SameContent (st st' : OpStore) : Prop where
  opList : st'.opList = st.opList
  sliceHashes : st'.sliceHashes = st.sliceHashes
  reliable : st.failures = [] → st'.failures = []

theorem SameContent.refl (st : OpStore) : SameContent st st :=
  ⟨rfl, rfl, fun h => h⟩

theorem SameContent.trans {st st' st'' : OpStore} (h : SameContent st st')
    (h' : SameContent st' st'') : SameContent st st'' :=
  ⟨h'.opList.trans h.opList, h'.sliceHashes.trans h.sliceHashes,
    fun hrel => h'.reliable (h.reliable hrel)⟩

section Specs

variable {loc : LocCb} {st st' : OpStore} {arc : DhtArc}

theorem returns_storeCall {u : Unit} (h : Returns storeCall st u st') : SameContent st st' := by
  unfold Returns storeCall at h
  split at h
  · cases h
    exact SameContent.refl _
  · rename_i rest hfail
    cases h
    refine ⟨rfl, rfl, ?_⟩
    intro hrel
    rw [hrel] at hfail
    cases hfail
  · cases h

theorem storeCall_returns (h : st.failures = []) : Returns storeCall st () st := by
  simp [Returns, storeCall, h]

theorem returns_query {α : Type} {f : OpStore → α} {r : α} (h : Returns (query f) st r st') :
    r = f st' ∧ SameContent st st' := by
  rcases returns_bind_iff.mp h with ⟨_, s1, h1, h2⟩
  rcases returns_bind_iff.mp h2 with ⟨s2, s3, h3, h4⟩
  rcases returns_read_iff.mp h3 with ⟨rfl, rfl⟩
  rcases returns_pure_iff.mp h4 with ⟨rfl, rfl⟩
  exact ⟨rfl, returns_storeCall h1⟩

theorem returns_retrieveOpHashes {start stop : Int} {r : List Bytes × Nat}
    (h : Returns (retrieveOpHashesInTimeSlice loc arc start stop) st r st') :
    r = st.opHashesInTimeSlice loc arc start stop ∧ SameContent st st' := by
  rcases returns_query h with ⟨rfl, hsame⟩
  refine ⟨?_, hsame⟩
  simp only [OpStore.opHashesInTimeSlice, OpStore.opsInSlice, hsame.opList]

theorem returns_earliestTimestamp {r : Option Int}
    (h : Returns (earliestTimestampInArc loc arc) st r st') :
    r = st.earliestInArc loc arc ∧ SameContent st st' := by
  rcases returns_query h with ⟨rfl, hsame⟩
  refine ⟨?_, hsame⟩
  simp only [OpStore.earliestInArc, hsame.opList]

theorem returns_retrieveSliceHash {i : Nat} {r : Option Bytes}
    (h : Returns (retrieveSliceHash arc i) st r st') :
    r = (st.sliceHashes arc)[i]? ∧ SameContent st st' := by
  rcases returns_query h with ⟨rfl, hsame⟩
  refine ⟨?_, hsame⟩
  rw [hsame.sliceHashes]

theorem returns_storeSliceHash {i : Nat} {hash : Bytes} {u : Unit}
    (h : Returns (storeSliceHash arc i hash) st u st') :
    hash ≠ [] ∧ st'.opList = st.opList ∧
      st'.sliceHashes = Function.update st.sliceHashes arc ((st.sliceHashes arc).insert i hash) ∧
      (st.failures = [] → st'.failures = []) := by
  rcases returns_bind_iff.mp h with ⟨_, s1, h1, h2⟩
  have hsame := returns_storeCall h1
  by_cases hnil : hash = []
  · rw [if_pos hnil] at h2
    exact absurd h2 not_returns_fail
  · rw [if_neg hnil] at h2
    rw [returns_modify_iff] at h2
    subst h2
    exact ⟨hnil, hsame.opList, by simp only [hsame.sliceHashes], hsame.reliable⟩

theorem returns_sliceHashCount {n : Nat} (h : Returns (sliceHashCount arc) st n st') :
    SameContent st st' ∧
      (((st.sliceHashes arc).maxKey? = none ∧ n = 0) ∨
        ∃ id, (st.sliceHashes arc).maxKey? = some id ∧ id < u64Max ∧ n = id + 1) := by
  rcases returns_bind_iff.mp h with ⟨highest, s1, h1, h2⟩
  rcases returns_query h1 with ⟨hval, hsame⟩
  rw [hsame.sliceHashes] at hval
  rw [← hval]
  cases highest with
  | none =>
      rcases returns_pure_iff.mp h2 with ⟨rfl, rfl⟩
      exact ⟨hsame, Or.inl ⟨rfl, rfl⟩⟩
  | some id =>
      simp only at h2
      by_cases hlt : id < u64Max
      · rw [if_pos hlt] at h2
        rcases returns_pure_iff.mp h2 with ⟨rfl, rfl⟩
        exact ⟨hsame, Or.inr ⟨id, rfl, hlt, rfl⟩⟩
      · rw [if_neg hlt] at h2
        exact absurd h2 not_returns_fail

end Specs

/-! ## A store that answers every call -/

section Reliable

variable {st : OpStore} {arc : DhtArc}

theorem query_returns {α : Type} (h : st.failures = []) (f : OpStore → α) :
    Returns (query f) st (f st) st := by
  refine returns_bind_iff.mpr ⟨(), st, storeCall_returns h, ?_⟩
  exact returns_bind_iff.mpr ⟨st, st, returns_read_iff.mpr ⟨rfl, rfl⟩, returns_pure_iff.mpr ⟨rfl, rfl⟩⟩

theorem storeSliceHash_returns (h : st.failures = []) (i : Nat) {hash : Bytes} (hne : hash ≠ []) :
    Returns (storeSliceHash arc i hash) st ()
      { st with
        sliceHashes := Function.update st.sliceHashes arc
          ((st.sliceHashes arc).insert i hash) } := by
  refine returns_bind_iff.mpr ⟨(), st, storeCall_returns h, ?_⟩
  rw [if_neg hne]
  exact returns_modify_iff.mpr rfl

theorem sliceHashCount_returns (h : st.failures = [])
    (hmax : ∀ id, (st.sliceHashes arc).maxKey? = some id → id < u64Max) :
    ∃ n, Returns (sliceHashCount arc) st n st := by
  have hquery := query_returns h fun st => (st.sliceHashes arc).maxKey?
  cases hid : (st.sliceHashes arc).maxKey? with
  | none =>
      rw [hid] at hquery
      exact ⟨0, returns_bind_iff.mpr ⟨none, st, hquery, returns_pure_iff.mpr ⟨rfl, rfl⟩⟩⟩
  | some id =>
      rw [hid] at hquery
      refine ⟨id + 1, returns_bind_iff.mpr ⟨some id, st, hquery, ?_⟩⟩
      simp only [if_pos (hmax id hid)]
      exact returns_pure_iff.mpr ⟨rfl, rfl⟩

end Reliable

end Dht
end Kitsune2
