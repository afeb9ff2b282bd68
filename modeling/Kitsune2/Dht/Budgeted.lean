import Kitsune2.Dht.Completeness

/-!
# Budgeted — repeated rounds with a small budget

A budget counts whole slices.  Round after round the nodes come together as long as a node's ops in
a slice fit the budget whenever the other node lacks one of them; a slice that does not fit is never
offered again, however many rounds follow.
-/

namespace Kitsune2
namespace Dht

open Api Lib

variable {loc : LocCb} {f n : Nat} {t : Int} {arcSet : ArcSet} {a b : List StoredOp}

/-! ## Cells do not overlap -/

/-- All slices and rings of an arc set. -/
def allCells (f : Nat) (t : Int) (arcSet : ArcSet) : List Cell :=
  allDiscCells f t arcSet ++ allRingCells f t arcSet

theorem mem_allDiscCells_iff {c : Cell} :
    c ∈ allDiscCells f t arcSet ↔ ∃ i ∈ arcSet.sectors, ∃ k < fullCount f t, c = fullCell f i k := by
  unfold allDiscCells
  simp only [List.mem_flatMap, List.mem_map, List.mem_range, eq_comm]

theorem mem_allRingCells_iff {c : Cell} :
    c ∈ allRingCells f t arcSet ↔ ∃ slot ∈ slotsAt f t, ∃ i ∈ arcSet.sectors, c = slotCell slot i := by
  unfold allRingCells
  simp only [List.mem_flatMap, List.mem_map, List.mem_range]
  constructor
  · rintro ⟨r, hr, i, hi, rfl⟩
    exact ⟨_, mem_slotsAt_slotAt hr, i, hi, rfl⟩
  · rintro ⟨slot, hslot, i, hi, rfl⟩
    rcases List.getElem?_of_mem hslot with ⟨r, hr⟩
    refine ⟨r, (List.getElem?_eq_some_iff.mp hr).1, i, hi, ?_⟩
    unfold slotAt
    rw [hr, Option.getD_some]

theorem fullCell_before {i k : Nat} (hk : k < fullCount f t) {op : StoredOp}
    (hop : (fullCell f i k).holds loc op = true) : op.createdAt < boundaryAt f t :=
  lt_of_lt_of_le (DhtState.holds_iff.mp hop).1.2 (fullEnd_mono hk)

theorem slotCell_after {slot : Int × Nat} (hslot : slot ∈ slotsAt f t) {i : Nat} {op : StoredOp}
    (hop : (slotCell slot i).holds loc op = true) : boundaryAt f t ≤ op.createdAt :=
  le_trans (slot_after_boundary hslot) (DhtState.holds_iff.mp hop).1.1

/-- An op lies in at most one cell. -/
theorem cell_unique {c c' : Cell} (hc : c ∈ allCells f t arcSet) (hc' : c' ∈ allCells f t arcSet)
    {op : StoredOp} (hop : c.holds loc op = true) (hop' : c'.holds loc op = true) : c = c' := by
  rcases List.mem_append.mp hc with hdisc | hring
  · rcases mem_allDiscCells_iff.mp hdisc with ⟨i, _, k, hk, rfl⟩
    have hb := fullCell_before hk hop
    rcases List.mem_append.mp hc' with hdisc' | hring'
    · rcases mem_allDiscCells_iff.mp hdisc' with ⟨i', _, k', hk', rfl⟩
      rcases DhtState.holds_iff.mp hop with ⟨⟨hlow, hhigh⟩, hi⟩
      rcases DhtState.holds_iff.mp hop' with ⟨⟨hlow', hhigh'⟩, hi'⟩
      have hii : i = i' := hi.symm.trans hi'
      -- slices with a common time have the same index
      have hkk : k = k' := by
        rcases Nat.lt_trichotomy k k' with hlt | heq | hgt
        · have hle : fullEnd f (k + 1) ≤ fullEnd f k' := fullEnd_mono hlt
          exact absurd (lt_of_lt_of_le hhigh hle) (not_lt.mpr hlow')
        · exact heq
        · have hle : fullEnd f (k' + 1) ≤ fullEnd f k := fullEnd_mono hgt
          exact absurd (lt_of_lt_of_le hhigh' hle) (not_lt.mpr hlow)
      rw [hii, hkk]
    · rcases mem_allRingCells_iff.mp hring' with ⟨slot, hslot, i', _, rfl⟩
      exact absurd (slotCell_after hslot hop') (not_le.mpr hb)
  · rcases mem_allRingCells_iff.mp hring with ⟨slot, hslot, i, _, rfl⟩
    have hafter := slotCell_after hslot hop
    rcases List.mem_append.mp hc' with hdisc' | hring'
    · rcases mem_allDiscCells_iff.mp hdisc' with ⟨i', _, k', hk', rfl⟩
      exact absurd hafter (not_le.mpr (fullCell_before hk' hop'))
    · rcases mem_allRingCells_iff.mp hring' with ⟨slot', hslot', i', _, rfl⟩
      rcases DhtState.holds_iff.mp hop with ⟨hin, hi⟩
      rcases DhtState.holds_iff.mp hop' with ⟨hin', hi'⟩
      rcases tiles_partialLayout f (fullEnd f (fullCount f t)) (t - fullEnd f (fullCount f t)).toNat
        with ⟨stop, htiles, _⟩
      have hslots : slot = slot' := htiles.eq_of_inSlot slotLen_pos hslot hslot' hin hin'
      have hii : i = i' := hi.symm.trans hi'
      rw [hslots, hii]

theorem diffCells_sublist : (diffCells loc f t arcSet a b).Sublist (allCells f t arcSet) := by
  unfold diffCells allCells
  by_cases hdisc : DiscDiffers loc f t arcSet a b
  · rw [if_pos hdisc]
    exact discCells_sublist.trans (List.sublist_append_left _ _)
  · rw [if_neg hdisc]
    exact ringCells_sublist.trans (List.sublist_append_right _ _)

/-- The hashes of a differing cell differ. -/
theorem diffCell_differs {c : Cell} (hc : c ∈ diffCells loc f t arcSet a b) :
    regionXor a (c.holds loc) ≠ regionXor b (c.holds loc) := by
  unfold diffCells at hc
  split at hc
  · rcases List.mem_flatMap.mp hc with ⟨i, _, hcell⟩
    rcases List.mem_map.mp hcell with ⟨k, hk, rfl⟩
    exact of_decide_eq_true (List.mem_filter.mp hk).2
  · rcases List.mem_flatMap.mp hc with ⟨r, _, hcell⟩
    rcases List.mem_map.mp hcell with ⟨i, hi, rfl⟩
    exact of_decide_eq_true (List.mem_filter.mp hi).2

/-- A cell of the arc set lies in the disc or in a ring. -/
theorem covered_of_cell {c : Cell} (hc : c ∈ allCells f t arcSet) {op : StoredOp}
    (hop : c.holds loc op = true) :
    discRegion loc f t arcSet op = true ∨
      ∃ slot ∈ slotsAt f t, ringRegion loc arcSet slot op = true := by
  rcases List.mem_append.mp hc with hdisc | hring
  · rcases mem_allDiscCells_iff.mp hdisc with ⟨i, hi, k, hk, rfl⟩
    rcases DhtState.holds_iff.mp hop with ⟨⟨hlow, _⟩, hsector⟩
    refine Or.inl (inArcs_iff.mpr ⟨⟨le_trans (fullEnd_nonneg f k) hlow, fullCell_before hk hop⟩, ?_⟩)
    rw [hsector]
    exact hi
  · rcases mem_allRingCells_iff.mp hring with ⟨slot, hslot, i, hi, rfl⟩
    rcases DhtState.holds_iff.mp hop with ⟨hin, hsector⟩
    refine Or.inr ⟨slot, hslot, inArcs_iff.mpr ⟨hin, ?_⟩⟩
    rw [hsector]
    exact hi

namespace DhtState

/-! ## Repeated rounds -/

/-- A number of rounds with one budget on both sides. -/
def syncRounds (loc : LocCb) (arcSet : ArcSet) (now : Int) (turns budget : Nat) :
    Nat → DhtState → DhtState → Except Fault (Option (DhtState × DhtState))
  | 0, A, B => .ok (some (A, B))
  | k + 1, A, B => do
      match ← syncRounds loc arcSet now turns budget k A B with
      | none => pure none
      | some (A', B') => do
          match ← syncRound loc arcSet now turns budget budget A' B' with
          | none => pure none
          | some (_, A'', B'') => pure (some (A'', B''))

variable {A B : DhtState} {budget : Nat}

/-- In every slice in which a node holds an op that the other one lacks, its ops fit the budget. -/
structure FitsBudget (loc : LocCb) (t : Int) (arcSet : ArcSet) (budget : Nat) (A B : DhtState) :
    Prop where
  left : ∀ c ∈ allCells timeFactor t arcSet, ∀ op ∈ A.store.stored, op ∉ B.store.stored →
    c.holds loc op = true → cellBytes loc A.store c ≤ budget
  right : ∀ c ∈ allCells timeFactor t arcSet, ∀ op ∈ B.store.stored, op ∉ A.store.stored →
    c.holds loc op = true → cellBytes loc B.store c ≤ budget

/-- A round offers an op that its receiver lacks. -/
def OffersNew (A B : DhtState) (out : Outcome) : Prop :=
  ∃ op, (op ∈ A.store.stored ∧ op ∉ B.store.stored ∧ op.opId ∈ out.fromOther) ∨
    (op ∈ B.store.stored ∧ op ∉ A.store.stored ∧ op.opId ∈ out.fromHandler)

/-- What rounds from `A₀` and `B₀` lead to. -/
structure Between (loc : LocCb) (n : Nat) (t : Int) (arcSet : ArcSet) (A₀ B₀ A B : DhtState) : Prop where
  syncable : Syncable loc n t arcSet A B
  leftSub : ∀ op ∈ A.store.opList, op ∈ A₀.store.opList ++ B₀.store.opList
  rightSub : ∀ op ∈ B.store.opList, op ∈ A₀.store.opList ++ B₀.store.opList

theorem nodup_opList {st : OpStore} (h : st.ids.Nodup) : st.opList.Nodup :=
  List.Nodup.of_map _ h

/-- A cell weighs at most what both nodes had in it. -/
theorem cellBytes_le_both {st st₀ st₁ : OpStore} (hst : st.ids.Nodup)
    (hsub : ∀ op ∈ st.opList, op ∈ st₀.opList ++ st₁.opList) (c : Cell) :
    cellBytes loc st c ≤ cellBytes loc st₀ c + cellBytes loc st₁ c := by
  have hperm : List.Subperm st.opList (st₀.opList ++ st₁.opList) :=
    (List.subperm_of_subset (nodup_opList hst)) hsub
  rcases hperm with ⟨l, hl, hsubl⟩
  have hsum : cellBytes loc st c =
      ((l.filter fun op => c.holds loc op.toStoredOp).map fun op => op.dataLen).sum :=
    (((hl.filter _).map _).sum_eq).symm
  have hle := ((hsubl.filter fun op => c.holds loc op.toStoredOp).map
    fun op => op.dataLen).sum_le_sum fun _ _ => Nat.zero_le _
  rw [List.filter_append, List.map_append, List.sum_append] at hle
  rw [hsum]
  exact hle

theorem weightOf_le_both {st st₀ st₁ : OpStore} (hst : st.ids.Nodup)
    (hsub : ∀ op ∈ st.opList, op ∈ st₀.opList ++ st₁.opList) (cells : List Cell) :
    weightOf loc st cells ≤ weightOf loc st₀ cells + weightOf loc st₁ cells := by
  unfold weightOf
  rw [← List.sum_map_add]
  exact List.sum_le_sum fun c _ => cellBytes_le_both hst hsub c

/-! ## One round -/

section Step

variable {A₀ B₀ A' B' : DhtState} {out : Outcome}

/-- The bytes of both nodes in all slices together fit the `i32` in which they are counted. -/
def Countable (loc : LocCb) (t : Int) (arcSet : ArcSet) (A₀ B₀ : DhtState) : Prop :=
  weightOf loc A₀.store (allCells timeFactor t arcSet) +
    weightOf loc B₀.store (allCells timeFactor t arcSet) < 2 ^ 31

theorem Between.step (h : Between loc n t arcSet A₀ B₀ A B) (hn : 0 < n)
    (hcount : Countable loc t arcSet A₀ B₀) (now : Int) (budget turns : Nat) :
    ∃ out A' B', syncRound loc arcSet now (turns + 4) budget budget A B = .ok (some (out, A', B')) ∧
      Round loc n t arcSet budget budget A B out A' B' ∧ Between loc n t arcSet A₀ B₀ A' B' := by
  have hcells : (cellsBetween loc t arcSet A B).Sublist (allCells timeFactor t arcSet) :=
    diffCells_sublist
  have hwA : weightOf loc A.store (cellsBetween loc t arcSet A B) < 2 ^ 31 :=
    lt_of_le_of_lt (le_trans (weightOf_le_of_sublist hcells)
      (weightOf_le_both h.syncable.leftOnce h.leftSub _)) hcount
  have hwB : weightOf loc B.store (cellsBetween loc t arcSet A B) < 2 ^ 31 :=
    lt_of_le_of_lt (le_trans (weightOf_le_of_sublist hcells)
      (weightOf_le_both h.syncable.rightOnce h.rightSub _)) hcount
  rcases h.syncable.round hn now budget budget turns hwA hwB with ⟨out, A', B', hret, hr⟩
  refine ⟨out, A', B', hret, hr, hr.syncable, ?_, ?_⟩
  · intro op hop
    rcases (hr.mem_left h.syncable).mp hop with hA | ⟨hB, _⟩
    · exact h.leftSub op hA
    · exact h.rightSub op hB
  · intro op hop
    rcases (hr.mem_right h.syncable).mp hop with hB | ⟨hA, _⟩
    · exact h.rightSub op hB
    · exact h.leftSub op hA

/-- If the first differing cell fits where it has to, the round offers something new. -/
theorem Round.offersNew (hr : Round loc n t arcSet budget budget A B out A' B')
    (h : Syncable loc n t arcSet A B) (hpos : 0 < budget)
    (hfits : FitsBudget loc t arcSet budget A B) (hdiff : ¬ SameMinimal arcSet A B) :
    OffersNew A B out := by
  -- some cell differs
  have hne : cellsBetween loc t arcSet A B ≠ [] := by
    unfold cellsBetween diffCells
    by_cases hdisc : DiscDiffers loc timeFactor t arcSet A.store.stored B.store.stored
    · rw [if_pos hdisc]
      exact discCells_ne_nil hdisc
    · rw [if_neg hdisc]
      refine ringCells_ne_nil fun hrings => hdiff ?_
      exact h.sameMinimal_iff.mpr (minimalOf_eq_iff.mpr ⟨hdisc, hrings⟩)
  rcases hr.result.fromFirst with ⟨usedA, hpicksA⟩
  rcases hr.result.fromSecond with ⟨usedB, hpicksB⟩
  cases hcells : cellsBetween loc t arcSet A B with
  | nil =>
      exact absurd hcells hne
  | cons c rest =>
      have hmem : c ∈ cellsBetween loc t arcSet A B := by
        rw [hcells]
        simp
      have hall : c ∈ allCells timeFactor t arcSet := diffCells_sublist.subset hmem
      rw [hcells] at hpicksA hpicksB
      -- its ops are not the same on both sides
      have hnot : ¬ SameOn (c.holds loc) A.store.stored B.store.stored := fun hsame =>
        diffCell_differs hmem
          (regionXor_of_sameOn (nodup_stored h.leftOnce) (nodup_stored h.rightOnce) hsame)
      unfold SameOn at hnot
      push Not at hnot
      rcases hnot with ⟨op, hop, ⟨hA, hB⟩ | ⟨hA, hB⟩⟩
      · refine ⟨op, Or.inl ⟨hA, hB, ?_⟩⟩
        have hle := hfits.left c hall op hA hB hop
        rcases List.mem_map.mp hA with ⟨r, hr', rfl⟩
        exact hpicksA.mem_of_first hpos (by simpa using hle)
          (mem_cellIds_iff.mpr ⟨r, hr', hop, rfl⟩)
      · refine ⟨op, Or.inr ⟨hB, hA, ?_⟩⟩
        have hle := hfits.right c hall op hB hA hop
        rcases List.mem_map.mp hB with ⟨r, hr', rfl⟩
        exact hpicksB.mem_of_first hpos (by simpa using hle)
          (mem_cellIds_iff.mpr ⟨r, hr', hop, rfl⟩)

/-- The number of ops that both nodes hold together. -/
def held (A B : DhtState) : Nat :=
  A.store.opList.length + B.store.opList.length

/-- A new op that is offered is one op more. -/
theorem Round.held_lt (hr : Round loc n t arcSet budget budget A B out A' B')
    (h : Syncable loc n t arcSet A B) (hnew : OffersNew A B out) : held A B < held A' B' := by
  have hfresh : ∀ {st source : OpStore} {offered : List Bytes} {op : StoredOp},
      (∀ x ∈ source.opList, ∀ y ∈ st.opList, x.opId = y.opId → x = y) → op ∈ source.stored →
      op ∉ st.stored → op.opId ∈ offered → 0 < (missingOps st source offered).length := by
    intro st source offered op hagree hsource hst hoff
    rcases List.mem_map.mp hsource with ⟨r, hr', rfl⟩
    refine List.length_pos_of_mem (mem_missingOps_iff.mpr ⟨hr', hoff, ?_⟩)
    intro hid
    rcases mem_ids_iff.mp hid with ⟨y, hy, heq⟩
    rw [← hagree r hr' y hy heq.symm] at hy
    exact hst (List.mem_map.mpr ⟨r, hy, rfl⟩)
  unfold held
  rw [hr.left, hr.right, List.length_append, List.length_append]
  rcases hnew with ⟨op, ⟨hA, hB, hoff⟩ | ⟨hB, hA, hoff⟩⟩
  · have hpos := hfresh h.agree hA hB hoff
    omega
  · have hpos := hfresh (fun x hx y hy heq => (h.agree y hy x hx heq.symm).symm) hB hA hoff
    omega

theorem Between.held_bounded (h : Between loc n t arcSet A₀ B₀ A B) :
    held A B ≤ 2 * held A₀ B₀ := by
  have hA := (List.subperm_of_subset (nodup_opList h.syncable.leftOnce) h.leftSub).length_le
  have hB := (List.subperm_of_subset (nodup_opList h.syncable.rightOnce) h.rightSub).length_le
  rw [List.length_append] at hA hB
  unfold held
  omega

/-- An op in a cell that is too large for the budget stays where it is. -/
theorem Round.stuck (hr : Round loc n t arcSet budget budget A B out A' B')
    (h : Syncable loc n t arcSet A B) {c : Cell} (hc : c ∈ allCells timeFactor t arcSet)
    {op : StoredOp} (hop : c.holds loc op = true) :
    (op ∉ B.store.stored → budget < cellBytes loc A.store c → op ∉ B'.store.stored) ∧
      (op ∉ A.store.stored → budget < cellBytes loc B.store c → op ∉ A'.store.stored) := by
  rcases hr.result.fromFirst with ⟨usedA, hpicksA⟩
  rcases hr.result.fromSecond with ⟨usedB, hpicksB⟩
  have hsmall : ∀ {st : OpStore} {used : Nat} {offered : List Bytes}, st.ids.Nodup →
      Picks (cellIds loc st) (cellBytes loc st) budget ([], 0) (cellsBetween loc t arcSet A B)
        (offered, used) → op ∈ st.stored → op.opId ∈ offered → cellBytes loc st c ≤ budget := by
    intro st used offered honce hpicks hmem hoff
    rcases List.mem_map.mp hmem with ⟨r, hr', rfl⟩
    rcases offered_source honce hpicks hr' hoff with ⟨c', hc', hfits, hholds⟩
    rw [cell_unique hc (diffCells_sublist.subset hc') hop hholds]
    exact hfits
  refine ⟨?_, ?_⟩
  · intro hB hbig hB'
    rcases (hr.stored_right h).mp hB' with hold | ⟨hA, hoff⟩
    · exact hB hold
    · exact absurd (hsmall h.leftOnce hpicksA hA hoff) (not_le.mpr hbig)
  · intro hA hbig hA'
    rcases (hr.stored_left h).mp hA' with hold | ⟨hB, hoff⟩
    · exact hA hold
    · exact absurd (hsmall h.rightOnce hpicksB hB hoff) (not_le.mpr hbig)

/-- Cells only grow. -/
theorem cellBytes_mono {st st' : OpStore} {extra : List OpRecord}
    (hlist : st'.opList = st.opList ++ extra) (c : Cell) :
    cellBytes loc st c ≤ cellBytes loc st' c := by
  unfold cellBytes
  rw [hlist, List.filter_append, List.map_append, List.sum_append]
  exact Nat.le_add_right _ _

end Step

/-! ## Whole runs -/

section Runs

variable {A₀ B₀ A' B' : DhtState} {now : Int} {turns k m : Nat}

theorem syncRounds_succ {out : Outcome} {A'' B'' : DhtState}
    (h : syncRounds loc arcSet now turns budget k A B = .ok (some (A', B')))
    (hround : syncRound loc arcSet now turns budget budget A' B' = .ok (some (out, A'', B''))) :
    syncRounds loc arcSet now turns budget (k + 1) A B = .ok (some (A'', B'')) := by
  refine bind_eq_ok_iff.mpr ⟨_, h, ?_⟩
  exact bind_eq_ok_iff.mpr ⟨_, hround, rfl⟩

theorem Between.refl (h : Syncable loc n t arcSet A B) : Between loc n t arcSet A B A B :=
  ⟨h, fun _ hop => List.mem_append_left _ hop, fun _ hop => List.mem_append_right _ hop⟩

/-- Rounds can go on for ever. -/
theorem rounds_return (h : Syncable loc n t arcSet A₀ B₀) (hn : 0 < n)
    (hcount : Countable loc t arcSet A₀ B₀) (now : Int) (budget turns : Nat) :
    ∀ k, ∃ A B, syncRounds loc arcSet now (turns + 4) budget k A₀ B₀ = .ok (some (A, B)) ∧
      Between loc n t arcSet A₀ B₀ A B := by
  intro k
  induction k with
  | zero =>
      exact ⟨A₀, B₀, rfl, Between.refl h⟩
  | succ k ih =>
      rcases ih with ⟨A, B, hret, hbetween⟩
      rcases hbetween.step hn hcount now budget turns with ⟨out, A', B', hround, _, hbetween'⟩
      exact ⟨A', B', syncRounds_succ hret hround, hbetween'⟩

/-- One more round, from a state that rounds have led to. -/
theorem rounds_step (h : Syncable loc n t arcSet A₀ B₀) (hn : 0 < n)
    (hcount : Countable loc t arcSet A₀ B₀)
    (hret : syncRounds loc arcSet now (turns + 4) budget k A₀ B₀ = .ok (some (A, B))) :
    Between loc n t arcSet A₀ B₀ A B ∧ ∃ out A' B',
      syncRound loc arcSet now (turns + 4) budget budget A B = .ok (some (out, A', B')) ∧
      Round loc n t arcSet budget budget A B out A' B' ∧
      syncRounds loc arcSet now (turns + 4) budget (k + 1) A₀ B₀ = .ok (some (A', B')) := by
  rcases rounds_return h hn hcount now budget turns k with ⟨A₁, B₁, hret₁, hbetween⟩
  rw [hret] at hret₁
  cases hret₁
  rcases hbetween.step hn hcount now budget turns with ⟨out, A', B', hround, hr, _⟩
  exact ⟨hbetween, out, A', B', hround, hr, syncRounds_succ hret hround⟩

/-- While every round fits, the nodes meet or hold at least as many ops as rounds have passed. -/
theorem meet_or_grow (h : Syncable loc n t arcSet A₀ B₀) (hn : 0 < n)
    (hcount : Countable loc t arcSet A₀ B₀) (hpos : 0 < budget)
    (hfits : ∀ k A B, syncRounds loc arcSet now (turns + 4) budget k A₀ B₀ = .ok (some (A, B)) →
      FitsBudget loc t arcSet budget A B) :
    ∀ k, (∃ j A B, syncRounds loc arcSet now (turns + 4) budget j A₀ B₀ = .ok (some (A, B)) ∧
        SameMinimal arcSet A B) ∨
      ∃ A B, syncRounds loc arcSet now (turns + 4) budget k A₀ B₀ = .ok (some (A, B)) ∧
        k ≤ held A B := by
  intro k
  induction k with
  | zero =>
      exact Or.inr ⟨A₀, B₀, rfl, Nat.zero_le _⟩
  | succ k ih =>
      rcases ih with hmeet | ⟨A, B, hret, hle⟩
      · exact Or.inl hmeet
      · by_cases hsame : SameMinimal arcSet A B
        · exact Or.inl ⟨k, A, B, hret, hsame⟩
        · rcases rounds_step h hn hcount hret with ⟨hbetween, out, A', B', _, hr, hret'⟩
          have hnew := hr.offersNew hbetween.syncable hpos (hfits k A B hret) hsame
          have hlt := hr.held_lt hbetween.syncable hnew
          exact Or.inr ⟨A', B', hret', by omega⟩

/-- An op that its holder cannot offer, since its slice is too large for the budget. -/
def Stuck (loc : LocCb) (budget : Nat) (c : Cell) (op : StoredOp) (A B : DhtState) : Prop :=
  (op ∈ A.store.stored ∧ op ∉ B.store.stored ∧ budget < cellBytes loc A.store c) ∨
    (op ∈ B.store.stored ∧ op ∉ A.store.stored ∧ budget < cellBytes loc B.store c)

theorem stuck_forever (h : Syncable loc n t arcSet A₀ B₀) (hn : 0 < n)
    (hcount : Countable loc t arcSet A₀ B₀) {c : Cell} (hc : c ∈ allCells timeFactor t arcSet)
    {op : StoredOp} (hop : c.holds loc op = true)
    (hret : syncRounds loc arcSet now (turns + 4) budget m A₀ B₀ = .ok (some (A, B)))
    (hstuck : Stuck loc budget c op A B) :
    ∀ j, ∃ A' B', syncRounds loc arcSet now (turns + 4) budget (m + j) A₀ B₀ = .ok (some (A', B')) ∧
      Stuck loc budget c op A' B' := by
  intro j
  induction j with
  | zero =>
      exact ⟨A, B, hret, hstuck⟩
  | succ j ih =>
      rcases ih with ⟨A₁, B₁, hret₁, hstuck₁⟩
      rcases rounds_step h hn hcount hret₁ with ⟨hbetween, out, A₂, B₂, _, hr, hret₂⟩
      refine ⟨A₂, B₂, hret₂, ?_⟩
      rcases hr.stuck hbetween.syncable hc hop with ⟨hkeepB, hkeepA⟩
      rcases hstuck₁ with ⟨hA, hB, hbig⟩ | ⟨hB, hA, hbig⟩
      · exact Or.inl ⟨(hr.stored_left hbetween.syncable).mpr (Or.inl hA), hkeepB hB hbig,
          lt_of_lt_of_le hbig (cellBytes_mono hr.left c)⟩
      · exact Or.inr ⟨(hr.stored_right hbetween.syncable).mpr (Or.inl hB), hkeepA hA hbig,
          lt_of_lt_of_le hbig (cellBytes_mono hr.right c)⟩

/-- A stuck op of a slice or ring is a difference. -/
theorem Stuck.not_sameCovered {c : Cell} (hc : c ∈ allCells timeFactor t arcSet) {op : StoredOp}
    (hop : c.holds loc op = true) (hstuck : Stuck loc budget c op A B) :
    ¬ SameCovered loc t arcSet A.store.stored B.store.stored := by
  intro hsame
  have hiff : op ∈ A.store.stored ↔ op ∈ B.store.stored := by
    rcases covered_of_cell hc hop with hdisc | ⟨slot, hslot, hring⟩
    · exact hsame.disc op hdisc
    · exact hsame.rings slot hslot op hring
  rcases hstuck with ⟨hA, hB, _⟩ | ⟨hB, hA, _⟩
  · exact hB (hiff.mp hA)
  · exact hA (hiff.mpr hB)

theorem not_fits_stuck (hnot : ¬ FitsBudget loc t arcSet budget A B) :
    ∃ c ∈ allCells timeFactor t arcSet, ∃ op, c.holds loc op = true ∧ Stuck loc budget c op A B := by
  by_contra hnone
  apply hnot
  refine ⟨?_, ?_⟩
  · intro c hc op hA hB hop
    by_contra hbig
    exact hnone ⟨c, hc, op, hop, Or.inl ⟨hA, hB, not_le.mp hbig⟩⟩
  · intro c hc op hB hA hop
    by_contra hbig
    exact hnone ⟨c, hc, op, hop, Or.inr ⟨hB, hA, not_le.mp hbig⟩⟩

/-- Once the nodes hold the same ops they do so in every later round. -/
theorem sameCovered_forever (h : Syncable loc n t arcSet A₀ B₀) (hn : 0 < n)
    (hcount : Countable loc t arcSet A₀ B₀)
    (hret : syncRounds loc arcSet now (turns + 4) budget k A₀ B₀ = .ok (some (A, B)))
    (hsame : SameCovered loc t arcSet A.store.stored B.store.stored) :
    ∀ j, ∃ A' B', syncRounds loc arcSet now (turns + 4) budget (k + j) A₀ B₀ = .ok (some (A', B')) ∧
      SameCovered loc t arcSet A'.store.stored B'.store.stored := by
  intro j
  induction j with
  | zero =>
      exact ⟨A, B, hret, hsame⟩
  | succ j ih =>
      rcases ih with ⟨A₁, B₁, hret₁, hsame₁⟩
      rcases rounds_step h hn hcount hret₁ with ⟨hbetween, out, A₂, B₂, _, hr, hret₂⟩
      refine ⟨A₂, B₂, hret₂, ?_⟩
      have h₁ := hbetween.syncable
      have hnil := h₁.cells_eq_nil (h₁.sameMinimal_of_sameCovered hsame₁)
      exact ⟨hr.sameOn_of_nil h₁ hnil hsame₁.disc,
        fun slot hslot => hr.sameOn_of_nil h₁ hnil (hsame₁.rings slot hslot)⟩

end Runs

/-! ## The main result -/

/-- The hashes of the disc and of the rings tell the two nodes apart. -/
structure TopTells (loc : LocCb) (t : Int) (arcSet : ArcSet) (A B : DhtState) : Prop where
  disc : Tells (discRegion loc timeFactor t arcSet) A.store.stored B.store.stored
  rings : ∀ slot ∈ slotsAt timeFactor t,
    Tells (ringRegion loc arcSet slot) A.store.stored B.store.stored

/-- Rounds with one budget can go on for ever.  If before every round each node's ops fit the budget
in every slice in which the other node lacks one of them, then every round between different nodes
offers something new and the minimal snapshots become the same after finitely many rounds; and if
they ever become the same, with hashes that tell the nodes apart, every round was like that. -/
theorem budgeted_sync_iff (loc : LocCb) {n : Nat} (hn : 0 < n) {t t' : Int} {arcSet : ArcSet}
    {A₀ B₀ : DhtState} (h : Peers loc n t t' arcSet A₀ B₀) (hcount : Countable loc t arcSet A₀ B₀)
    {budget : Nat} (hpos : 0 < budget) (now : Int) (turns : Nat) :
    (∀ k, ∃ A B, syncRounds loc arcSet now (turns + 4) budget k A₀ B₀ = .ok (some (A, B))) ∧
    ((∀ k A B, syncRounds loc arcSet now (turns + 4) budget k A₀ B₀ = .ok (some (A, B)) →
        FitsBudget loc t arcSet budget A B) →
      (∃ k A B, syncRounds loc arcSet now (turns + 4) budget k A₀ B₀ = .ok (some (A, B)) ∧
        SameMinimal arcSet A B) ∧
      ∀ k A B, syncRounds loc arcSet now (turns + 4) budget k A₀ B₀ = .ok (some (A, B)) →
        ¬ SameMinimal arcSet A B → ∃ out A' B',
          syncRound loc arcSet now (turns + 4) budget budget A B = .ok (some (out, A', B')) ∧
          OffersNew A B out) ∧
    ((∃ k A B, syncRounds loc arcSet now (turns + 4) budget k A₀ B₀ = .ok (some (A, B)) ∧
        SameMinimal arcSet A B ∧ TopTells loc t arcSet A B) →
      ∀ m A B, syncRounds loc arcSet now (turns + 4) budget m A₀ B₀ = .ok (some (A, B)) →
        FitsBudget loc t arcSet budget A B) := by
  have hs := h.syncable
  refine ⟨?_, ?_, ?_⟩
  · intro k
    rcases rounds_return hs hn hcount now budget turns k with ⟨A, B, hret, _⟩
    exact ⟨A, B, hret⟩
  · intro hfits
    refine ⟨?_, ?_⟩
    · -- the nodes cannot hold more and more ops
      rcases meet_or_grow hs hn hcount hpos hfits (2 * held A₀ B₀ + 1) with hmeet | ⟨A, B, hret, hle⟩
      · exact hmeet
      · have hbound := (rounds_step hs hn hcount hret).1.held_bounded
        omega
    · intro k A B hret hdiff
      rcases rounds_step hs hn hcount hret with ⟨hbetween, out, A', B', hround, hr, _⟩
      exact ⟨out, A', B', hround, hr.offersNew hbetween.syncable hpos (hfits k A B hret) hdiff⟩
  · rintro ⟨k, A, B, hret, hsame, htells⟩ m A₁ B₁ hret₁
    by_contra hnot
    rcases not_fits_stuck hnot with ⟨c, hc, op, hop, hstuck⟩
    have hcovered := (rounds_step hs hn hcount hret).1.syncable.sameCovered_of_sameMinimal
      htells.disc htells.rings hsame
    -- whichever of the two comes first lasts
    rcases Nat.le_total m k with hmk | hkm
    · rcases stuck_forever hs hn hcount hc hop hret₁ hstuck (k - m) with ⟨A₂, B₂, hret₂, hstuck₂⟩
      rw [Nat.add_sub_cancel' hmk, hret] at hret₂
      cases hret₂
      exact hstuck₂.not_sameCovered hc hop hcovered
    · rcases sameCovered_forever hs hn hcount hret hcovered (m - k) with ⟨A₂, B₂, hret₂, hcovered₂⟩
      rw [Nat.add_sub_cancel' hkm, hret₁] at hret₂
      cases hret₂
      exact hstuck.not_sameCovered hc hop hcovered₂

/-! ## A slice that never fits -/

theorem countable_of_bytes {A B : DhtState} {data : Nat}
    (hA : (A.store.opList.map fun op => op.dataLen).sum ≤ data) (hB : B.store.opList = [])
    (hcells : (allCells timeFactor t arcSet).length * data < 2 ^ 31) :
    Countable loc t arcSet A B := by
  have hle := List.sum_le_card_nsmul ((allCells timeFactor t arcSet).map (cellBytes loc A.store)) data
    (by
      intro x hx
      rcases List.mem_map.mp hx with ⟨c, _, rfl⟩
      exact le_trans (cellBytes_le c) hA)
  have hzero : weightOf loc B.store (allCells timeFactor t arcSet) = 0 := by
    unfold weightOf cellBytes
    simp [hB]
  unfold Countable
  rw [hzero, Nat.add_zero]
  have hmul : weightOf loc A.store (allCells timeFactor t arcSet) ≤
      (allCells timeFactor t arcSet).length * data := by
    simpa [weightOf] using hle
  exact lt_of_le_of_lt hmul hcells

theorem length_allCells : (allCells timeFactor 1800000000 ArcSet.full).length ≤ 512 := by
  have hfull : fullCount timeFactor 1800000000 = 0 := by decide
  have hslots : (slotsAt timeFactor 1800000000).length = 1 := by decide
  have hle := length_sectors_le ArcSet.full
  have hdisc : allDiscCells timeFactor 1800000000 ArcSet.full = [] := by
    unfold allDiscCells
    rw [hfull]
    simp
  have hrings : (allRingCells timeFactor 1800000000 ArcSet.full).length =
      ArcSet.full.sectors.length := by
    unfold allRingCells
    rw [hslots]
    simp
  unfold allCells
  rw [hdisc, List.nil_append, hrings]
  exact hle

/-- The cell of the op. -/
theorem soleCell_mem : slotCell (0, 0) 0 ∈ allCells timeFactor 1800000000 ArcSet.full := by
  refine List.mem_append_right _ (mem_allRingCells_iff.mpr ⟨(0, 0), by decide, 0, ?_, rfl⟩)
  refine ArcSet.mem_sectors_iff.mpr (Finset.mem_range.mpr ?_)
  rw [numSectors_eq]
  decide

theorem soleCell_holds (dataLen : Nat) :
    (slotCell (0, 0) 0).holds (fun _ => 0) (soleOp dataLen).toStoredOp = true := by
  refine holds_iff.mpr ⟨⟨?_, ?_⟩, ?_⟩
  · simp [slotCell, soleOp]
  · have hlen : slotLen 0 = 900000000 := by
      unfold slotLen sliceLen
      rw [unitTime_eq]
      decide
    simp [slotCell, soleOp, hlen]
  · simp [HashPartition.sectorIndex, slotCell]

/-- An op of two bytes against a budget of one byte: however many rounds the nodes try, their
minimal snapshots never become the same. -/
theorem oversized_slice_never_offered :
    ∃ A₀ B₀, Peers (fun _ => 0) 1 1800000000 1800000000 ArcSet.full A₀ B₀ ∧
      A₀.store.opList = [soleOp 2] ∧ B₀.store.opList = [] ∧
      ∀ k, ∃ A B, syncRounds (fun _ => 0) ArcSet.full 1800000000 4 1 k A₀ B₀ = .ok (some (A, B)) ∧
        ¬ SameMinimal ArcSet.full A B := by
  rcases exists_peers 2 with ⟨A₀, B₀, hpeers, hA₀, hB₀⟩
  refine ⟨A₀, B₀, hpeers, hA₀, hB₀, ?_⟩
  have hs := hpeers.syncable
  have hcount : Countable (fun _ => 0) 1800000000 ArcSet.full A₀ B₀ := by
    refine countable_of_bytes (show _ ≤ 2 by simp [hA₀, soleOp]) hB₀ ?_
    have hlen := length_allCells
    omega
  have hstuck : Stuck (fun _ => 0) 1 (slotCell (0, 0) 0) (soleOp 2).toStoredOp A₀ B₀ := by
    refine Or.inl ⟨by simp [OpStore.stored, hA₀], by simp [OpStore.stored, hB₀], ?_⟩
    unfold cellBytes
    rw [hA₀, List.filter_cons, if_pos (soleCell_holds 2)]
    simp [soleOp]
  intro k
  have hstart : syncRounds (fun _ => 0) ArcSet.full 1800000000 (0 + 4) 1 0 A₀ B₀ =
      .ok (some (A₀, B₀)) := rfl
  rcases stuck_forever hs (by decide) hcount soleCell_mem (soleCell_holds 2) hstart hstuck k
    with ⟨A, B, hret, hstuck'⟩
  simp only [Nat.zero_add] at hret
  refine ⟨A, B, hret, ?_⟩
  intro hsame
  have hbetween := (rounds_step hs (by decide) hcount hret).1
  -- all that the nodes can hold is the op itself
  have hsub : ∀ {st : OpStore}, st.ids.Nodup →
      (∀ op ∈ st.opList, op ∈ A₀.store.opList ++ B₀.store.opList) →
      st.stored = [] ∨ st.stored = [(soleOp 2).toStoredOp] := by
    intro st honce hmem
    have hsubperm := List.subperm_of_subset (nodup_opList honce) hmem
    rw [hA₀, hB₀, List.append_nil] at hsubperm
    rcases List.subperm_singleton_iff.mp hsubperm with hnil | hone
    · exact Or.inl (by simp [OpStore.stored, hnil])
    · exact Or.inr (by simp [OpStore.stored, hone])
  have htells : ∀ p, Tells p A.store.stored B.store.stored := by
    intro p
    rcases hstuck' with ⟨hA, hB, _⟩ | ⟨hB, hA, _⟩
    · rcases hsub hbetween.syncable.leftOnce hbetween.leftSub with hnil | hone
      · rw [hnil] at hA
        cases hA
      · rcases hsub hbetween.syncable.rightOnce hbetween.rightSub with hnil' | hone'
        · rw [hone, hnil']
          exact tells_sole 2 p
        · rw [hone'] at hB
          exact absurd (List.mem_singleton.mpr rfl) hB
    · rcases hsub hbetween.syncable.leftOnce hbetween.leftSub with hnil | hone
      · rcases hsub hbetween.syncable.rightOnce hbetween.rightSub with hnil' | hone'
        · rw [hnil'] at hB
          cases hB
        · rw [hnil, hone']
          intro heq op hop
          exact (tells_sole 2 p heq.symm op hop).symm
      · rw [hone] at hA
        exact absurd (List.mem_singleton.mpr rfl) hA
  have hcovered := hbetween.syncable.sameCovered_of_sameMinimal (htells _) (fun _ _ => htells _) hsame
  exact hstuck'.not_sameCovered soleCell_mem (soleCell_holds 2) hcovered

/-- An op of one byte is offered and transferred with a budget of one byte. -/
theorem budgeted_sync_iff_one :
    ∃ A₀ B₀ k A B, Peers (fun _ => 0) 1 1800000000 1800000000 ArcSet.full A₀ B₀ ∧
      A₀.store.opList = [soleOp 1] ∧ B₀.store.opList = [] ∧
      syncRounds (fun _ => 0) ArcSet.full 1800000000 4 1 k A₀ B₀ = .ok (some (A, B)) ∧
      SameMinimal ArcSet.full A B := by
  rcases exists_peers 1 with ⟨A₀, B₀, hpeers, hA₀, hB₀⟩
  have hs := hpeers.syncable
  have hcount : Countable (fun _ => 0) 1800000000 ArcSet.full A₀ B₀ := by
    refine countable_of_bytes (show _ ≤ 1 by simp [hA₀, soleOp]) hB₀ ?_
    have hlen := length_allCells
    omega
  -- the only op is one byte long, so no cell is over the budget
  have hsmall : ∀ {st : OpStore}, st.ids.Nodup →
      (∀ op ∈ st.opList, op ∈ A₀.store.opList ++ B₀.store.opList) →
      ∀ c, cellBytes (fun _ => 0) st c ≤ 1 := by
    intro st honce hmem c
    have hle : cellBytes (fun _ => 0) A₀.store c ≤ 1 := by
      refine le_trans (cellBytes_le c) ?_
      simp [hA₀, soleOp]
    have hzero : cellBytes (fun _ => 0) B₀.store c = 0 := by
      unfold cellBytes
      simp [hB₀]
    have hboth : cellBytes (fun _ => 0) st c ≤ _ := cellBytes_le_both honce hmem c
    omega
  rcases (budgeted_sync_iff (fun _ => 0) (by decide) hpeers hcount (show 0 < 1 by decide)
    1800000000 0).2.1 (fun k A B hret => by
      have hbetween := (rounds_step hs (by decide) hcount hret).1
      exact ⟨fun c _ _ _ _ _ => hsmall hbetween.syncable.leftOnce hbetween.leftSub c,
        fun c _ _ _ _ _ => hsmall hbetween.syncable.rightOnce hbetween.rightSub c⟩)
    with ⟨⟨k, A, B, hret, hsame⟩, _⟩
  exact ⟨A₀, B₀, k, A, B, hpeers, hA₀, hB₀, hret, hsame⟩

end DhtState

end Dht
end Kitsune2
