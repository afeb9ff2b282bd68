import Mathlib.Data.List.Perm.Subperm
import Kitsune2.Core.Fetch

/-!
# FetchReports — what the report module is told about received ops

When the op store has processed a response, the incoming response task tells the report module of every
op that was processed, with the length of its data.  It pairs the ids that the op store returns with the
received ops by position, though the op store may leave out ops and return the ids in any order.
-/

namespace Kitsune2
namespace Core
namespace CoreFetch

open Api

variable {OpId Url : Type} [DecidableEq OpId]
  {s : CoreFetch OpId Url} {ops : List (Op OpId)} {peer : Url} {incoming : List (IncomingOp OpId)}
  {opIds : List OpId}

/-! ## The calls of `fetched_op` -/

/-- What is reported of a processed response. -/
def reported (peer : Url) (opIds : List OpId) (ops : List (Op OpId)) : List (Url × OpId × Nat) :=
  (opIds.zip ops).map fun p => (peer, p.1, p.2.data.length)

/-- The answer of the op store leads to these calls, and no others. -/
theorem reports_processed (hs : s.responseTask = .processing ops peer incoming) :
    (s.processed (some opIds)).reports = s.reports ++ reported peer opIds ops := by
  simp only [processed, hs, reported]

/-- One call for each op of the response that was processed, with the length of its data. -/
def ReportsRight (peer : Url) (opIds : List OpId) (ops : List (Op OpId))
    (made : List (Url × OpId × Nat)) : Prop :=
  made.Perm ((ops.filter fun op => op.opId ∈ opIds).map fun op => (peer, op.opId, op.data.length))

/-- Each processed id stands where the response has an op with data as long as its own. -/
def SameLengths (opIds : List OpId) (ops : List (Op OpId)) : Prop :=
  ∀ p ∈ opIds.zip ops, ∀ op ∈ ops, op.opId = p.1 → p.2.data.length = op.data.length

instance SameLengths.decidable (opIds : List OpId) (ops : List (Op OpId)) :
    Decidable (SameLengths opIds ops) :=
  inferInstanceAs (Decidable (∀ p ∈ opIds.zip ops, ∀ op ∈ ops,
    op.opId = p.1 → p.2.data.length = op.data.length))

/-! ## When they are right -/

omit [DecidableEq OpId] in
/-- The ids are reported in the order in which the op store names them. -/
theorem map_id_reported (hle : opIds.length ≤ ops.length) :
    (reported peer opIds ops).map (fun r => r.2.1) = opIds := by
  unfold reported
  rw [List.map_map]
  exact List.map_fst_zip hle

theorem mem_reported_iff (hsame : SameLengths opIds ops) (hle : opIds.length ≤ ops.length)
    (hpart : ∀ opId ∈ opIds, opId ∈ ops.map Op.opId) {r : Url × OpId × Nat} :
    r ∈ reported peer opIds ops ↔
      r ∈ (ops.filter fun op => op.opId ∈ opIds).map fun op => (peer, op.opId, op.data.length) := by
  simp only [reported, List.mem_map, List.mem_filter, decide_eq_true_eq]
  constructor
  · rintro ⟨p, hp, rfl⟩
    have hin : p.1 ∈ opIds := (List.of_mem_zip hp).1
    rcases List.mem_map.mp (hpart p.1 hin) with ⟨op, hop, hid⟩
    refine ⟨op, ⟨hop, hid ▸ hin⟩, ?_⟩
    rw [hid, hsame p hp op hop hid]
  · rintro ⟨op, ⟨hop, hin⟩, rfl⟩
    have hmem : op.opId ∈ (opIds.zip ops).map Prod.fst := by
      rw [List.map_fst_zip hle]
      exact hin
    rcases List.mem_map.mp hmem with ⟨p, hp, hid⟩
    refine ⟨p, hp, ?_⟩
    rw [hid, hsame p hp op hop hid.symm]

theorem SameLengths.right (hsame : SameLengths opIds ops) (hdistinct : (ops.map Op.opId).Nodup)
    (honce : opIds.Nodup) (hpart : ∀ opId ∈ opIds, opId ∈ ops.map Op.opId) :
    ReportsRight peer opIds ops (reported peer opIds ops) := by
  have hle : opIds.length ≤ ops.length := by
    have hlength := (List.subperm_of_subset honce hpart).length_le
    rwa [List.length_map] at hlength
  have hmade : (reported peer opIds ops).Nodup := by
    refine List.Nodup.of_map (fun r => r.2.1) ?_
    rw [map_id_reported hle]
    exact honce
  have hright : ((ops.filter fun op => op.opId ∈ opIds).map fun op =>
      (peer, op.opId, op.data.length)).Nodup := by
    refine List.Nodup.of_map (fun r => r.2.1) ?_
    rw [List.map_map]
    exact hdistinct.sublist (List.filter_sublist.map Op.opId)
  exact (List.perm_ext_iff_of_nodup hmade hright).mpr fun r => mem_reported_iff hsame hle hpart

theorem sameLengths_of_right (hdistinct : (ops.map Op.opId).Nodup)
    (h : ReportsRight peer opIds ops (reported peer opIds ops)) : SameLengths opIds ops := by
  intro p hp op hop hid
  have hmade : (peer, p.1, p.2.data.length) ∈ reported peer opIds ops :=
    List.mem_map.mpr ⟨p, hp, rfl⟩
  rcases List.mem_map.mp (h.mem_iff.mp hmade) with ⟨op', hop', heq⟩
  have hsameId : op'.opId = p.1 := congrArg (fun r => r.2.1) heq
  have hlength : op'.data.length = p.2.data.length := congrArg (fun r => r.2.2) heq
  -- no other op of the response has this id
  have hsame : op' = op := List.inj_on_of_nodup_map hdistinct (List.mem_filter.mp hop').1 hop
    (hsameId.trans hid.symm)
  rw [← hlength, hsame]

/-- A response is reported right, whatever part of it the op store has processed and in whatever order it
names the ids, exactly if each id stands where the response has an op with data of the same length. -/
theorem fetched_op_right_iff (hs : s.responseTask = .processing ops peer incoming)
    (hdistinct : (ops.map Op.opId).Nodup) (honce : opIds.Nodup)
    (hpart : ∀ opId ∈ opIds, opId ∈ ops.map Op.opId) :
    (∃ made, (s.processed (some opIds)).reports = s.reports ++ made ∧
      ReportsRight peer opIds ops made) ↔ SameLengths opIds ops := by
  rw [reports_processed hs]
  constructor
  · rintro ⟨made, heq, hright⟩
    rw [← List.append_cancel_left heq] at hright
    exact sameLengths_of_right hdistinct hright
  · intro hsame
    exact ⟨_, rfl, hsame.right hdistinct honce hpart⟩

/-- The node after it has received a response of two ops. -/
def receivedTwo (first second : Bytes) : CoreFetch Bool Bool :=
  ((new 2).respond [⟨true, first⟩, ⟨false, second⟩] true).receiveResponse

/-- Only the second op is processed, and it is as long as the first. -/
theorem fetched_op_right_second :
    ∃ made, ((receivedTwo [1, 2] [3, 4]).processed (some [false])).reports =
      (receivedTwo [1, 2] [3, 4]).reports ++ made ∧
      ReportsRight true [false] [⟨true, [1, 2]⟩, ⟨false, [3, 4]⟩] made :=
  (fetched_op_right_iff rfl (by decide) (by decide) (by decide)).mpr (by decide)

/-- Only the second op is processed, with two bytes, and it is reported with the one byte of the
first. -/
theorem fetched_op_wrong_second :
    ((receivedTwo [1] [3, 4]).processed (some [false])).reports = [(true, false, 1)] ∧
      ¬ ReportsRight true [false] [⟨true, [1]⟩, ⟨false, [3, 4]⟩] [(true, false, 1)] := by
  refine ⟨by decide, ?_⟩
  unfold ReportsRight
  decide

end CoreFetch

end Core
end Kitsune2
