import Mathlib.Data.List.Sort
import Kitsune2.Dht.OpStore

/-!
# MemOpStore — paging through the memory op store

An op's `stored_at` is read from the clock before the store is locked for writing.  A bounded query
returns the ids of an arc's ops in the order of `stored_at`, as many as fit a byte limit, and the time
from which the next query should go on.

The iteration order of the hash map is free, so among ops with one timestamp any may come first; the
order is an argument here.
-/

namespace Kitsune2
namespace Core

open Api Dht

/-- `MemoryOpRecord`. -/
structure MemoryOpRecord where
  opId : Bytes
  createdAt : Int
  storedAt : Int
  opData : Bytes
  deriving DecidableEq

/-- An incoming op, with its data decoded. -/
structure IncomingMemoryOp where
  opId : Bytes
  createdAt : Int
  opData : Bytes
  deriving DecidableEq

namespace MemoryOpRecord

/-- `MemoryOpRecord::from`, with the clock's reading. -/
def ofIncoming (op : IncomingMemoryOp) (now : Int) : MemoryOpRecord where
  opId := op.opId
  createdAt := op.createdAt
  storedAt := now
  opData := op.opData

/-- `op_data.len() as u32`. -/
def dataLen (op : MemoryOpRecord) : Nat :=
  op.opData.length % 2 ^ 32

end MemoryOpRecord

/-! ## Storing -/

/-- `op_list.entry(op_id).or_insert(record)`. -/
def insertRecord (opList : List MemoryOpRecord) (op : MemoryOpRecord) : List MemoryOpRecord :=
  if op.opId ∈ opList.map MemoryOpRecord.opId then opList else opList ++ [op]

/-- `process_incoming_ops` under its lock. -/
def insertRecords (opList ops : List MemoryOpRecord) : List MemoryOpRecord :=
  ops.foldl insertRecord opList

theorem subset_insertRecord (opList : List MemoryOpRecord) (op : MemoryOpRecord) :
    opList ⊆ insertRecord opList op := by
  unfold insertRecord
  split
  · exact List.Subset.refl _
  · exact List.subset_append_left _ _

theorem mem_insertRecord {opList : List MemoryOpRecord} {op o : MemoryOpRecord}
    (h : o ∈ insertRecord opList op) :
    o ∈ opList ∨ (o = op ∧ op.opId ∉ opList.map MemoryOpRecord.opId) := by
  unfold insertRecord at h
  split at h
  · exact Or.inl h
  · rename_i hnew
    rcases List.mem_append.mp h with hold | hlast
    · exact Or.inl hold
    · exact Or.inr ⟨List.mem_singleton.mp hlast, hnew⟩

theorem nodup_insertRecord {opList : List MemoryOpRecord}
    (h : (opList.map MemoryOpRecord.opId).Nodup) (op : MemoryOpRecord) :
    ((insertRecord opList op).map MemoryOpRecord.opId).Nodup := by
  unfold insertRecord
  split
  · exact h
  · rename_i hnew
    rw [List.map_append, List.map_singleton]
    exact List.nodup_append.mpr ⟨h, List.nodup_singleton _, by
      intro a ha b hb
      rw [List.mem_singleton.mp hb]
      rintro rfl
      exact hnew ha⟩

theorem subset_insertRecords (opList ops : List MemoryOpRecord) :
    opList ⊆ insertRecords opList ops := by
  induction ops generalizing opList with
  | nil => exact List.Subset.refl _
  | cons op ops ih => exact List.Subset.trans (subset_insertRecord opList op) (ih _)

/-- What is new in the store was not there under its id. -/
theorem mem_insertRecords {opList ops : List MemoryOpRecord} {o : MemoryOpRecord}
    (h : o ∈ insertRecords opList ops) :
    o ∈ opList ∨ (o ∈ ops ∧ o.opId ∉ opList.map MemoryOpRecord.opId) := by
  induction ops generalizing opList with
  | nil => exact Or.inl h
  | cons op ops ih =>
      rcases ih h with hold | ⟨hmem, hnew⟩
      · rcases mem_insertRecord hold with hold | ⟨rfl, hnew⟩
        · exact Or.inl hold
        · exact Or.inr ⟨List.mem_cons_self, hnew⟩
      · refine Or.inr ⟨List.mem_cons_of_mem _ hmem, fun hold => hnew ?_⟩
        rcases List.mem_map.mp hold with ⟨o', ho', heq⟩
        exact List.mem_map.mpr ⟨o', subset_insertRecord opList op ho', heq⟩

theorem nodup_insertRecords {opList : List MemoryOpRecord}
    (h : (opList.map MemoryOpRecord.opId).Nodup) (ops : List MemoryOpRecord) :
    ((insertRecords opList ops).map MemoryOpRecord.opId).Nodup := by
  induction ops generalizing opList with
  | nil => exact h
  | cons op ops ih => exact ih (nodup_insertRecord h op)

/-- The size of the data of the op with this id. -/
def opSize (opList : List MemoryOpRecord) (opId : Bytes) : Nat :=
  match opList.find? fun o => o.opId = opId with
  | some o => o.opData.length
  | none => 0

theorem opSize_of_mem {opList : List MemoryOpRecord}
    (h : (opList.map MemoryOpRecord.opId).Nodup) {o : MemoryOpRecord} (ho : o ∈ opList) :
    opSize opList o.opId = o.opData.length := by
  have hfound : opList.find? (fun o' => decide (o'.opId = o.opId)) = some o := by
    induction opList with
    | nil => cases ho
    | cons op opList ih =>
        rw [List.map_cons, List.nodup_cons] at h
        rcases List.mem_cons.mp ho with rfl | htail
        · rw [List.find?_cons_of_pos (by simp)]
        · have hne : op.opId ≠ o.opId := fun heq =>
            h.1 (List.mem_map.mpr ⟨o, htail, heq.symm⟩)
          rw [List.find?_cons_of_neg (by simpa using hne)]
          exact ih h.2 htail
  unfold opSize
  rw [hfound]

/-! ## The bounded query -/

section Query

variable (loc : LocCb)

/-- The ops of the arc that were stored from `start` on, oldest first. -/
def candidateOps (order : List MemoryOpRecord) (arc : DhtArc) (start : Int) :
    List MemoryOpRecord :=
  (order.filter fun op => arc.contains (loc op.opId) && decide (op.storedAt ≥ start)).insertionSort
    fun a b => a.storedAt ≤ b.storedAt

/-- The ops that are taken, their total size, and the time of the first one that does not fit. -/
def takeWithin (limitBytes : Nat) :
    List MemoryOpRecord → Nat → List MemoryOpRecord × Nat × Option Int
  | [], totalBytes => ([], totalBytes, none)
  | op :: ops, totalBytes =>
      if (totalBytes + op.dataLen) % 2 ^ 32 ≤ limitBytes then
        let rest := takeWithin limitBytes ops ((totalBytes + op.dataLen) % 2 ^ 32)
        (op :: rest.1, rest.2)
      else ([], totalBytes, some op.storedAt)

/-- `retrieve_op_ids_bounded` on what it reads under the lock; `newStart` is the clock's reading
before that. -/
def retrieveOpIdsBounded (order : List MemoryOpRecord) (arc : DhtArc) (start : Int)
    (limitBytes : Nat) (newStart : Int) : List Bytes × Nat × Int :=
  let taken := takeWithin limitBytes (candidateOps loc order arc start) 0
  (taken.1.map MemoryOpRecord.opId, taken.2.1, taken.2.2.getD newStart)

end Query

/-- The sizes on the way stay below `2 ^ 32`: those of the ops that are taken, and that of the first
one that does not fit. -/
def SizesFit (limitBytes : Nat) : List MemoryOpRecord → Nat → Prop
  | [], _ => True
  | op :: ops, totalBytes =>
      totalBytes + op.opData.length < 2 ^ 32 ∧
        (totalBytes + op.opData.length ≤ limitBytes →
          SizesFit limitBytes ops (totalBytes + op.opData.length))

instance SizesFit.decidable (limitBytes : Nat) :
    ∀ (ops : List MemoryOpRecord) (totalBytes : Nat), Decidable (SizesFit limitBytes ops totalBytes)
  | [], _ => .isTrue trivial
  | op :: ops, totalBytes =>
      haveI := SizesFit.decidable limitBytes ops (totalBytes + op.opData.length)
      inferInstanceAs (Decidable (_ ∧ _))

/-- What a walk within the limit takes and where it stops. -/
structure TakenWithin (limitBytes totalBytes : Nat) (ops : List MemoryOpRecord)
    (taken : List MemoryOpRecord × Nat × Option Int) : Prop where
  sub : taken.1 ⊆ ops
  total : taken.2.1 = totalBytes + (taken.1.map fun op => op.opData.length).sum
  within : taken.2.1 ≤ limitBytes
  all : taken.2.2 = none → ops ⊆ taken.1
  rest : ∀ cut, taken.2.2 = some cut → ∀ op ∈ ops, op ∈ taken.1 ∨ cut ≤ op.storedAt
  source : ∀ cut, taken.2.2 = some cut → ∃ op ∈ ops, op.storedAt = cut

theorem takeWithin_spec {limitBytes : Nat} {ops : List MemoryOpRecord}
    (hsorted : ops.Pairwise fun a b => a.storedAt ≤ b.storedAt) {totalBytes : Nat}
    (hle : totalBytes ≤ limitBytes) (hfit : SizesFit limitBytes ops totalBytes) :
    TakenWithin limitBytes totalBytes ops (takeWithin limitBytes ops totalBytes) := by
  induction ops generalizing totalBytes with
  | nil => exact ⟨List.Subset.refl _, rfl, hle, fun _ => List.Subset.refl _, nofun, nofun⟩
  | cons op ops ih =>
      rcases hfit with ⟨hsize, hfit⟩
      rcases List.pairwise_cons.mp hsorted with ⟨hfirst, hsorted⟩
      -- no size on the way reaches the modulus
      have hlen : op.dataLen = op.opData.length := Nat.mod_eq_of_lt (by omega)
      have hsum : (totalBytes + op.dataLen) % 2 ^ 32 = totalBytes + op.opData.length := by
        rw [hlen, Nat.mod_eq_of_lt hsize]
      by_cases htake : totalBytes + op.opData.length ≤ limitBytes
      · have hrest := ih hsorted htake (hfit htake)
        simp only [takeWithin, hsum, if_pos htake]
        refine ⟨?_, ?_, hrest.within, ?_, ?_, ?_⟩
        · exact List.cons_subset_cons _ hrest.sub
        · rw [hrest.total, List.map_cons, List.sum_cons, Nat.add_assoc]
        · exact fun hnone => List.cons_subset_cons _ (hrest.all hnone)
        · intro cut hcut o ho
          rcases List.mem_cons.mp ho with rfl | htail
          · exact Or.inl List.mem_cons_self
          · rcases hrest.rest cut hcut o htail with hin | hlate
            · exact Or.inl (List.mem_cons_of_mem _ hin)
            · exact Or.inr hlate
        · intro cut hcut
          rcases hrest.source cut hcut with ⟨o, ho, heq⟩
          exact ⟨o, List.mem_cons_of_mem _ ho, heq⟩
      · simp only [takeWithin, hsum, if_neg htake]
        refine ⟨List.nil_subset _, rfl, hle, nofun, ?_, ?_⟩
        · intro cut hcut o ho
          cases hcut
          rcases List.mem_cons.mp ho with rfl | htail
          · exact Or.inr (le_refl _)
          · exact Or.inr (hfirst o htail)
        · intro cut hcut
          cases hcut
          exact ⟨op, List.mem_cons_self, rfl⟩

section Spec

variable {loc : LocCb} {order : List MemoryOpRecord} {arc : DhtArc} {start : Int}

theorem mem_candidateOps {op : MemoryOpRecord} :
    op ∈ candidateOps loc order arc start ↔
      op ∈ order ∧ arc.contains (loc op.opId) = true ∧ start ≤ op.storedAt := by
  unfold candidateOps
  rw [List.mem_insertionSort, List.mem_filter, Bool.and_eq_true, decide_eq_true_iff]

theorem pairwise_candidateOps :
    (candidateOps loc order arc start).Pairwise fun a b => a.storedAt ≤ b.storedAt := by
  have htotal : Std.Total (fun a b : MemoryOpRecord => a.storedAt ≤ b.storedAt) :=
    ⟨fun a b => le_total a.storedAt b.storedAt⟩
  have htrans : IsTrans MemoryOpRecord fun a b => a.storedAt ≤ b.storedAt :=
    ⟨fun _ _ _ => le_trans⟩
  exact List.pairwise_insertionSort _ _

end Spec

end Core
end Kitsune2
