import Kitsune2.Dht.Exchange

/-!
# Sync — rounds of comparing and transferring

A round is an exchange followed by the transfer of the two lists: each node fetches the listed ops
that it lacks from the other one, stores them and informs its DHT of them.  Rounds keep the DHTs
accurate, so rounds can follow each other.
-/

namespace Kitsune2
namespace Dht

open Api Lib

namespace DhtState

/-! ## Rounds -/

/-- The listed ops of `source` that a store lacks. -/
def missingOps (st source : OpStore) (offered : List Bytes) : List OpRecord :=
  source.opList.filter fun op => offered.contains op.opId && !st.ids.contains op.opId

/-- Fetch, store and inform. -/
def receive (loc : LocCb) (now : Int) (d : DhtState) (source : OpStore) (offered : List Bytes) :
    Except Fault DhtState :=
  match step loc (.storeAndInform now (missingOps d.store source offered)) d with
  | (.ok _, d') => .ok d'
  | (.error e, _) => .error e

/-- One round; `none` if the exchange does not end within the turns. -/
def syncRound (loc : LocCb) (arcSet : ArcSet) (now : Int) (turns : Nat) (budgetA budgetB : Int)
    (A B : DhtState) : Except Fault (Option (Outcome × DhtState × DhtState)) := do
  match ← startExchange loc arcSet turns ⟨A, budgetA, none⟩ ⟨B, budgetB, none⟩ with
  | none => pure none
  | some out => do
      let A' ← receive loc now A B.store out.fromHandler
      let B' ← receive loc now B A.store out.fromOther
      pure (some (out, A', B'))

/-! ## What rounds need and keep -/

section Rounds

variable {loc : LocCb} {n : Nat} {t now : Int} {arcSet : ArcSet} {A B : DhtState}

/-- Two nodes that can sync: comparable DHTs over stores that answer and hold every op once, and
that agree on the ops they share. -/
structure Syncable (loc : LocCb) (n : Nat) (t : Int) (arcSet : ArcSet) (A B : DhtState) : Prop
    extends Comparable loc n t arcSet A B where
  leftReliable : A.store.failures = []
  rightReliable : B.store.failures = []
  leftOnce : A.store.ids.Nodup
  rightOnce : B.store.ids.Nodup
  agree : ∀ x ∈ A.store.opList, ∀ y ∈ B.store.opList, x.opId = y.opId → x = y

theorem mem_missingOps_iff {st source : OpStore} {offered : List Bytes} {op : OpRecord} :
    op ∈ missingOps st source offered ↔
      op ∈ source.opList ∧ op.opId ∈ offered ∧ op.opId ∉ st.ids := by
  unfold missingOps
  simp [List.mem_filter]

theorem mem_ids_iff {st : OpStore} {x : Bytes} : x ∈ st.ids ↔ ∃ op ∈ st.opList, op.opId = x := by
  unfold OpStore.ids
  simp

theorem nodup_receive {st source : OpStore} {offered : List Bytes} (hst : st.ids.Nodup)
    (hsource : source.ids.Nodup) :
    (st.ids ++ (missingOps st source offered).map fun op => op.opId).Nodup := by
  have hsub : ((missingOps st source offered).map fun op => op.opId).Sublist source.ids :=
    List.filter_sublist.map _
  refine List.Nodup.append hst (hsub.nodup hsource) ?_
  intro x hx hx'
  rcases List.mem_map.mp hx' with ⟨op, hop, rfl⟩
  exact (mem_missingOps_iff.mp hop).2.2 hx

/-- Receiving a list whose ops are not from before the epoch. -/
theorem Accurate.receive_ok (now : Int) {source : OpStore} {offered : List Bytes} (h : A.Accurate loc t)
    (hrel : A.store.failures = []) (hids : IdsOfLength n A.store.stored) (hn : 0 < n)
    (hst : A.store.ids.Nodup) (hsource : source.ids.Nodup)
    (hlen : IdsOfLength n source.stored)
    (hops : ∀ op ∈ source.opList, op.opId ∈ offered → 0 ≤ op.createdAt) :
    ∃ A', receive loc now A source offered = .ok A' ∧ A'.Accurate loc t ∧
      A'.store.opList = A.store.opList ++ missingOps A.store source offered ∧
      A'.store.failures = [] ∧ A'.store.ids.Nodup := by
  have hnd : (A.store.ids ++ (missingOps A.store source offered).map fun op => op.opId).Nodup :=
    nodup_receive hst hsource
  have hmissing : ∀ op ∈ missingOps A.store source offered, op.opId.length = n ∧ 0 ≤ op.createdAt := by
    intro op hop
    rcases mem_missingOps_iff.mp hop with ⟨hmem, hoff, _⟩
    exact ⟨hlen _ (List.mem_map.mpr ⟨op, hmem, rfl⟩), hops op hmem hoff⟩
  rcases h.storeAndInform_returns now hrel hids hn hmissing hnd with ⟨A', hret⟩
  rcases h.storeAndInform (fun op hop => (hmissing op hop).2) hnd hret with ⟨hacc, hlist, hrel'⟩
  refine ⟨A', ?_, hacc, hlist, hrel' hrel, ?_⟩
  · unfold receive
    rw [hret]
  · unfold OpStore.ids at hnd ⊢
    rw [hlist, List.map_append]
    exact hnd

/-- Two records of one store with the same id are the same. -/
theorem eq_of_opId_eq {st : OpStore} (h : st.ids.Nodup) {x y : OpRecord} (hx : x ∈ st.opList)
    (hy : y ∈ st.opList) (heq : x.opId = y.opId) : x = y :=
  List.inj_on_of_nodup_map h hx hy heq

/-- No cell begins before the epoch. -/
theorem cell_start_nonneg {f : Nat} {a b : List StoredOp} {c : Cell}
    (hc : c ∈ diffCells loc f t arcSet a b) : 0 ≤ c.start := by
  unfold diffCells at hc
  split at hc
  · rcases List.mem_flatMap.mp hc with ⟨i, _, hcell⟩
    rcases List.mem_map.mp hcell with ⟨k, _, rfl⟩
    exact fullEnd_nonneg f k
  · rcases List.mem_flatMap.mp hc with ⟨r, hr, hcell⟩
    rcases List.mem_map.mp hcell with ⟨i, _, rfl⟩
    have hslot : slotAt f t r ∈ slotsAt f t := by
      have hlt := diffRings_bound hr
      unfold slotAt
      rw [List.getElem?_eq_getElem hlt, Option.getD_some]
      exact List.getElem_mem hlt
    rcases tiles_partialLayout f (fullEnd f (fullCount f t)) (t - fullEnd f (fullCount f t)).toNat
      with ⟨stop, htiles, _⟩
    have hlow := (htiles.bounds slotLen_pos hslot).1
    exact le_trans (fullEnd_nonneg f _) hlow

theorem holds_iff {c : Cell} {op : StoredOp} :
    c.holds loc op = true ↔ (c.start ≤ op.createdAt ∧ op.createdAt < c.stop) ∧
      HashPartition.sectorIndex loc sectorSize op = c.sector := by
  unfold Cell.holds inSlice
  rw [← contains_sectorArc_eq]
  simp

/-- An offered op lies in a differing cell that fits the budget by itself. -/
theorem offered_source {f budget used : Nat} {a b : List StoredOp} {st : OpStore}
    {offered : List Bytes} (hst : st.ids.Nodup)
    (hpicks : Picks (cellIds loc st) (cellBytes loc st) budget ([], 0)
      (diffCells loc f t arcSet a b) (offered, used)) {op : OpRecord} (hop : op ∈ st.opList)
    (hoff : op.opId ∈ offered) :
    ∃ c ∈ diffCells loc f t arcSet a b, cellBytes loc st c ≤ budget ∧
      c.holds loc op.toStoredOp = true := by
  rcases hpicks.mem_source hoff with hnil | ⟨c, hc, hfits, hids⟩
  · cases hnil
  · rcases mem_cellIds_iff.mp hids with ⟨op', hop', hholds, hid⟩
    rw [eq_of_opId_eq hst hop' hop hid] at hholds
    exact ⟨c, hc, hfits, hholds⟩

theorem offered_nonneg {f budget used : Nat} {a b : List StoredOp} {st : OpStore}
    {offered : List Bytes} (hst : st.ids.Nodup)
    (hpicks : Picks (cellIds loc st) (cellBytes loc st) budget ([], 0)
      (diffCells loc f t arcSet a b) (offered, used)) {op : OpRecord} (hop : op ∈ st.opList)
    (hoff : op.opId ∈ offered) : 0 ≤ op.createdAt := by
  rcases offered_source hst hpicks hop hoff with ⟨c, hc, _, hholds⟩
  exact le_trans (cell_start_nonneg hc) (holds_iff.mp hholds).1.1

/-- What a round does. -/
structure Round (loc : LocCb) (n : Nat) (t : Int) (arcSet : ArcSet) (budgetA budgetB : Nat)
    (A B : DhtState) (out : Outcome) (A' B' : DhtState) : Prop where
  result : ExchangeResult loc t arcSet budgetA budgetB A B out
  syncable : Syncable loc n t arcSet A' B'
  left : A'.store.opList = A.store.opList ++ missingOps A.store B.store out.fromHandler
  right : B'.store.opList = B.store.opList ++ missingOps B.store A.store out.fromOther

theorem idsOfLength_receive {st st' source : OpStore} {offered : List Bytes}
    (hst : IdsOfLength n st.stored) (hsource : IdsOfLength n source.stored)
    (hlist : st'.opList = st.opList ++ missingOps st source offered) :
    IdsOfLength n st'.stored := by
  intro op hop
  rcases List.mem_map.mp hop with ⟨r, hr, rfl⟩
  rw [hlist] at hr
  rcases List.mem_append.mp hr with hold | hnew
  · exact hst _ (List.mem_map.mpr ⟨r, hold, rfl⟩)
  · exact hsource _ (List.mem_map.mpr ⟨r, (mem_missingOps_iff.mp hnew).1, rfl⟩)

theorem Syncable.round (h : Syncable loc n t arcSet A B) (hn : 0 < n) (now : Int)
    (budgetA budgetB turns : Nat)
    (hsizeA : weightOf loc A.store (cellsBetween loc t arcSet A B) < 2 ^ 31)
    (hsizeB : weightOf loc B.store (cellsBetween loc t arcSet A B) < 2 ^ 31) :
    ∃ out A' B', syncRound loc arcSet now (turns + 4) budgetA budgetB A B = .ok (some (out, A', B')) ∧
      Round loc n t arcSet budgetA budgetB A B out A' B' := by
  rcases h.exchange_ends budgetA budgetB turns hsizeA hsizeB with ⟨out, hout, hresult⟩
  rcases hresult.fromFirst with ⟨usedA, hpicksA⟩
  rcases hresult.fromSecond with ⟨usedB, hpicksB⟩
  rcases h.left.receive_ok now h.leftReliable h.leftIds hn h.leftOnce h.rightOnce h.rightIds
    (fun op hop hoff => offered_nonneg h.rightOnce hpicksB hop hoff)
    with ⟨A', hA', haccA, hlistA, hrelA, honceA⟩
  rcases h.right.receive_ok now h.rightReliable h.rightIds hn h.rightOnce h.leftOnce h.leftIds
    (fun op hop hoff => offered_nonneg h.leftOnce hpicksA hop hoff)
    with ⟨B', hB', haccB, hlistB, hrelB, honceB⟩
  refine ⟨out, A', B', ?_, hresult, ⟨⟨haccA, haccB, ?_, ?_, h.arcs⟩, hrelA, hrelB, honceA, honceB, ?_⟩,
    hlistA, hlistB⟩
  · refine bind_eq_ok_iff.mpr ⟨_, hout, ?_⟩
    exact bind_eq_ok_iff.mpr ⟨_, hA', bind_eq_ok_iff.mpr ⟨_, hB', rfl⟩⟩
  · exact idsOfLength_receive h.leftIds h.rightIds hlistA
  · exact idsOfLength_receive h.rightIds h.leftIds hlistB
  · -- every record of either node was a record of one of them before
    have hsource : ∀ x ∈ A'.store.opList, x ∈ A.store.opList ∨ x ∈ B.store.opList := by
      intro x hx
      rw [hlistA] at hx
      exact (List.mem_append.mp hx).imp id fun hnew => (mem_missingOps_iff.mp hnew).1
    have hsource' : ∀ y ∈ B'.store.opList, y ∈ A.store.opList ∨ y ∈ B.store.opList := by
      intro y hy
      rw [hlistB] at hy
      exact (List.mem_append.mp hy).symm.imp (fun hnew => (mem_missingOps_iff.mp hnew).1) id
    intro x hx y hy heq
    rcases hsource x hx with hxA | hxB
    · rcases hsource' y hy with hyA | hyB
      · exact eq_of_opId_eq h.leftOnce hxA hyA heq
      · exact h.agree x hxA y hyB heq
    · rcases hsource' y hy with hyA | hyB
      · exact (h.agree y hyA x hxB heq.symm).symm
      · exact eq_of_opId_eq h.rightOnce hxB hyB heq

theorem Round.mem_left {budgetA budgetB : Nat} {out : Outcome} {A' B' : DhtState}
    (hr : Round loc n t arcSet budgetA budgetB A B out A' B') (h : Syncable loc n t arcSet A B)
    {op : OpRecord} : op ∈ A'.store.opList ↔
      op ∈ A.store.opList ∨ (op ∈ B.store.opList ∧ op.opId ∈ out.fromHandler) := by
  rw [hr.left, List.mem_append, mem_missingOps_iff]
  constructor
  · rintro (hold | ⟨hmem, hoff, _⟩)
    · exact Or.inl hold
    · exact Or.inr ⟨hmem, hoff⟩
  · rintro (hold | ⟨hmem, hoff⟩)
    · exact Or.inl hold
    · by_cases hid : op.opId ∈ A.store.ids
      · rcases mem_ids_iff.mp hid with ⟨op', hop', heq⟩
        rw [← h.agree op' hop' op hmem heq]
        exact Or.inl hop'
      · exact Or.inr ⟨hmem, hoff, hid⟩

theorem Round.mem_right {budgetA budgetB : Nat} {out : Outcome} {A' B' : DhtState}
    (hr : Round loc n t arcSet budgetA budgetB A B out A' B') (h : Syncable loc n t arcSet A B)
    {op : OpRecord} : op ∈ B'.store.opList ↔
      op ∈ B.store.opList ∨ (op ∈ A.store.opList ∧ op.opId ∈ out.fromOther) := by
  rw [hr.right, List.mem_append, mem_missingOps_iff]
  constructor
  · rintro (hold | ⟨hmem, hoff, _⟩)
    · exact Or.inl hold
    · exact Or.inr ⟨hmem, hoff⟩
  · rintro (hold | ⟨hmem, hoff⟩)
    · exact Or.inl hold
    · by_cases hid : op.opId ∈ B.store.ids
      · rcases mem_ids_iff.mp hid with ⟨op', hop', heq⟩
        rw [h.agree op hmem op' hop' heq.symm]
        exact Or.inl hop'
      · exact Or.inr ⟨hmem, hoff, hid⟩

end Rounds

end DhtState

end Dht
end Kitsune2
