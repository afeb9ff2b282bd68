import Kitsune2.Dht.History

/-!
# RecentTime — what the partial slices leave uncovered

The greedy layout of `layout_partials` takes two, one or no slices of each size.  Going from size
`n - 1` down to `0` with `recent` microseconds left, the invariant is `0 < recent ≤ recentLen (n + 1)`:
what is left is never nothing, and never more than the sizes still to come can cover with one unit
to spare.  At the end of the loop it says that the tail is positive and at most one unit.

From there follow the tiling of time by full and partial slices, the bound on `next_update_at`, and
that an update before that time is a single read of the store.
-/

namespace Kitsune2
namespace Dht

open Api Lib

variable {loc : LocCb} {f n : Nat} {arc : DhtArc} {t t' : Int}

/-! ## The greedy choice -/

theorem recentLen_succ (i : Nat) : recentLen (i + 1) = recentLen i + sliceLen i := by
  have htwo : 0 < 2 ^ i := Nat.two_pow_pos i
  unfold recentLen sliceLen
  rw [← Nat.mul_add, Nat.pow_succ]
  congr 1
  omega

theorem unitTime_le_sliceLen (i : Nat) : unitTime ≤ sliceLen i := by
  unfold sliceLen
  exact Nat.le_mul_of_pos_right _ (Nat.two_pow_pos i)

/-- One round of the loop keeps the invariant: something is left, and it fits the next sizes. -/
theorem sliceCount_invariant {recent i : Nat} (hpos : 0 < recent)
    (hle : recent ≤ recentLen (i + 2)) :
    0 < recent - sliceLen i * TimePartition.sliceCount recent (recentLen (i + 1)) (sliceLen i) ∧
      recent - sliceLen i * TimePartition.sliceCount recent (recentLen (i + 1)) (sliceLen i) ≤
        recentLen (i + 1) := by
  have hi := recentLen_succ i
  have hi1 : recentLen (i + 2) = recentLen (i + 1) + sliceLen (i + 1) := recentLen_succ (i + 1)
  have hunit := recentLen_add_unitTime (i + 1)
  have hlen := recentLen_add_unitTime i
  have hbase := unitTime_le_sliceLen i
  unfold TimePartition.sliceCount
  split
  · omega
  · split
    · omega
    · omega

/-- The partial slices leave a tail that is not empty and not longer than a unit. -/
theorem partialLayout_tail {recent : Nat} {start : Int} (hpos : 0 < recent)
    (hle : recent ≤ recentLen (n + 1)) :
    ∃ stop, Tiles slotLen start (partialLayout n start recent) stop ∧
      stop < start + recent ∧ start + recent ≤ stop + unitTime := by
  induction n generalizing start recent with
  | zero =>
      refine ⟨start, rfl, by omega, ?_⟩
      have hone : recentLen (0 + 1) = unitTime := by decide
      omega
  | succ i ih =>
      have hfits := sliceCount_fits recent i
      rcases sliceCount_invariant hpos hle with ⟨hpos', hle'⟩
      generalize hc : TimePartition.sliceCount recent (recentLen (i + 1)) (sliceLen i) = count
        at hfits hpos' hle'
      rcases @ih _ (start + slotLen i * count) hpos' hle' with ⟨stop, htiles, hbelow, habove⟩
      have hcast : ((sliceLen i * count : Nat) : Int) = slotLen i * count := by
        unfold slotLen
        push_cast
        rfl
      rw [Nat.cast_sub hfits, hcast] at hbelow habove
      refine ⟨stop, ?_, by linarith, by linarith⟩
      simp only [partialLayout, hc]
      exact tiles_append (tiles_slots i count start) htiles

theorem slots_size (size count : Nat) (start : Int) {slot : Int × Nat}
    (h : slot ∈ slots size count start) : slot.2 = size := by
  induction count generalizing start with
  | zero =>
      cases h
  | succ count ih =>
      rcases List.mem_cons.mp h with rfl | htail
      · rfl
      · exact ih _ htail

theorem pairwise_slots (size count : Nat) (start : Int) :
    (slots size count start).Pairwise fun a b => b.2 ≤ a.2 := by
  induction count generalizing start with
  | zero =>
      exact List.Pairwise.nil
  | succ count ih =>
      refine List.Pairwise.cons ?_ (ih _)
      intro b hb
      exact le_of_eq (slots_size _ _ _ hb)

/-- The sizes of the partial slices never increase. -/
theorem pairwise_partialLayout (n : Nat) (start : Int) (recent : Nat) :
    (partialLayout n start recent).Pairwise fun a b => b.2 ≤ a.2 := by
  induction n generalizing start recent with
  | zero =>
      exact List.Pairwise.nil
  | succ i ih =>
      refine List.pairwise_append.mpr ⟨pairwise_slots _ _ _, ih _ _, ?_⟩
      intro a ha b hb
      rw [slots_size _ _ _ ha]
      exact le_of_lt (partialLayout_size_lt hb)

/-- No size is used more than twice. -/
theorem countP_partialLayout_le (n : Nat) (start : Int) (recent size : Nat) :
    (partialLayout n start recent).countP (fun slot => decide (slot.2 = size)) ≤ 2 := by
  induction n generalizing start recent with
  | zero =>
      exact Nat.zero_le 2
  | succ i ih =>
      simp only [partialLayout, List.countP_append]
      by_cases hsize : size = i
      · -- the sizes still to come are smaller
        have hrest : (partialLayout i
            (start + slotLen i * TimePartition.sliceCount recent (recentLen (i + 1)) (sliceLen i))
            (recent - sliceLen i *
              TimePartition.sliceCount recent (recentLen (i + 1)) (sliceLen i))).countP
              (fun slot => decide (slot.2 = size)) = 0 := by
          rw [List.countP_eq_zero]
          intro slot hslot
          have := partialLayout_size_lt hslot
          simp only [decide_eq_true_eq]
          omega
        have hhere : (slots i (TimePartition.sliceCount recent (recentLen (i + 1)) (sliceLen i))
            start).countP (fun slot => decide (slot.2 = size)) ≤ 2 := by
          refine le_trans List.countP_le_length ?_
          rw [length_slots]
          exact sliceCount_le_two _ _ _
        omega
      · have hhere : (slots i (TimePartition.sliceCount recent (recentLen (i + 1)) (sliceLen i))
            start).countP (fun slot => decide (slot.2 = size)) = 0 := by
          rw [List.countP_eq_zero]
          intro slot hslot
          rw [slots_size _ _ _ hslot]
          simpa using fun h : i = size => hsize h.symm
        rw [hhere, Nat.zero_add]
        exact ih _ _

/-! ## One slice for each time -/

/-- A full slice by its index, or a partial slice by its place in the list. -/
inductive SliceRef
  | full (k : Nat)
  | recent (i : Nat)
  deriving DecidableEq, Repr

/-- The bounds of a slice of the partition, as the partition's own queries give them. -/
def TimePartition.sliceBounds (tp : TimePartition) : SliceRef → Option (Int × Int)
  | .full k => if k < tp.fullSlices then (tp.timeBoundsForFullSliceIndex k).toOption else none
  | .recent i =>
      if i < tp.partialSlices.length then (tp.timeBoundsForPartialSliceIndex i).toOption else none

/-- The time lies in the slice. -/
def TimePartition.InSliceAt (tp : TimePartition) (x : Int) (ref : SliceRef) : Prop :=
  ∃ start stop, tp.sliceBounds ref = some (start, stop) ∧ start ≤ x ∧ x < stop

section Slices

variable {tp : TimePartition} {x : Int}

/-- The bounds of a slice up to and including the one after the last full slice, which the check of
the index lets through. -/
theorem fullBounds_ok (hs : Shape f arc tp) {k : Nat} (hk : k ≤ tp.fullSlices)
    (hnext : fullEnd f (k + 1) ≤ i64Max) :
    tp.timeBoundsForFullSliceIndex k = .ok (fullEnd f k, fullEnd f (k + 1)) := by
  have hstart : fullEnd f k ≤ i64Max := le_trans (fullEnd_mono (Nat.le_succ k)) hnext
  -- the start is computed as the end of `k` full slices
  have hend := fullSliceEndTimestamp_ok (shape_freshPart f arc k) hstart
  rcases bind_eq_ok_iff.mp hend with ⟨secs, hsecs, hadd⟩
  have hstop : addDuration (fullEnd f k) (sliceLen f) = .ok (fullEnd f (k + 1)) := by
    rw [addDuration_of_le (fullEnd_nonneg f k) (by rw [← fullEnd_succ]; exact hnext), fullEnd_succ]
  unfold TimePartition.timeBoundsForFullSliceIndex
  rw [if_neg (by omega), hs.fullSliceDuration]
  refine bind_eq_ok_iff.mpr ⟨secs, hsecs, bind_eq_ok_iff.mpr ⟨_, hadd, ?_⟩⟩
  exact bind_eq_ok_iff.mpr ⟨_, hstop, rfl⟩

theorem partialBounds_ok {i : Nat} {p : PartialSlice} (hp : tp.partialSlices[i]? = some p)
    (hfits : SlotFits p.slot) :
    tp.timeBoundsForPartialSliceIndex i = .ok (p.start, p.start + slotLen p.size) := by
  have hlt : i < tp.partialSlices.length := (List.getElem?_eq_some_iff.mp hp).1
  unfold TimePartition.timeBoundsForPartialSliceIndex
  rw [if_neg (by omega), hp]
  exact bind_eq_ok_iff.mpr ⟨_, stop_ok hfits, rfl⟩

theorem inSliceAt_full_iff (hs : Shape f arc tp) (hfit : fullEnd f tp.fullSlices ≤ i64Max)
    {k : Nat} :
    tp.InSliceAt x (.full k) ↔ k < tp.fullSlices ∧ fullEnd f k ≤ x ∧ x < fullEnd f (k + 1) := by
  unfold TimePartition.InSliceAt TimePartition.sliceBounds
  by_cases hk : k < tp.fullSlices
  · simp [hk, fullBounds_ok hs (Nat.le_of_lt hk) (le_trans (fullEnd_mono hk) hfit), Except.toOption]
  · simp [hk]

theorem inSliceAt_recent_iff (hfits : ∀ p ∈ tp.partialSlices, SlotFits p.slot) {i : Nat} :
    tp.InSliceAt x (.recent i) ↔
      ∃ slot, (tp.partialSlices.map PartialSlice.slot)[i]? = some slot ∧ InSlot slotLen slot x := by
  unfold TimePartition.InSliceAt TimePartition.sliceBounds
  rw [List.getElem?_map]
  cases hp : tp.partialSlices[i]? with
  | none =>
      have hlen := List.getElem?_eq_none_iff.mp hp
      simp [show ¬ i < tp.partialSlices.length by omega]
  | some p =>
      have hlt := (List.getElem?_eq_some_iff.mp hp).1
      have hbounds := partialBounds_ok hp (hfits p (List.mem_of_getElem? hp))
      simp [hlt, hbounds, Except.toOption, InSlot, PartialSlice.slot]

/-- When the partial slices tile the time from the end of the full slices to `stop`, every time
from the epoch to `stop` lies in exactly one slice. -/
theorem existsUnique_inSliceAt (hs : Shape f arc tp) (hfit : fullEnd f tp.fullSlices ≤ i64Max)
    (hfits : ∀ p ∈ tp.partialSlices, SlotFits p.slot) {stop : Int}
    (htiles : Tiles slotLen (fullEnd f tp.fullSlices) (tp.partialSlices.map PartialSlice.slot) stop)
    (hx : 0 ≤ x) (hstop : x < stop) : ∃! ref, tp.InSliceAt x ref := by
  by_cases hfull : x < fullEnd f tp.fullSlices
  · -- the index of the full slice is the quotient by the slice length
    have hlen : (0 : Int) < sliceLen f := by exact_mod_cast sliceLen_pos f
    have hquot : ((x / sliceLen f).toNat : Int) = x / sliceLen f :=
      Int.toNat_of_nonneg (Int.ediv_nonneg hx (le_of_lt hlen))
    have hin : ∀ k, fullEnd f k ≤ x ∧ x < fullEnd f (k + 1) ↔ k = (x / sliceLen f).toNat := by
      intro k
      have hk : fullEnd f k ≤ x ∧ x < fullEnd f (k + 1) ↔ (k : Int) = x / sliceLen f := by
        rw [fullEnd_succ]
        unfold fullEnd
        rw [eq_comm, Int.ediv_eq_iff_of_pos hlen]
        constructor
        · rintro ⟨h1, h2⟩
          exact ⟨by linarith, by linarith⟩
        · rintro ⟨h1, h2⟩
          exact ⟨by linarith, by linarith⟩
      rw [hk]
      omega
    have hmem : (x / sliceLen f).toNat < tp.fullSlices := by
      by_contra hge
      have := ((hin _).mpr rfl).1
      have := fullEnd_mono (f := f) (not_lt.mp hge)
      linarith
    refine ⟨.full (x / sliceLen f).toNat,
      (inSliceAt_full_iff hs hfit).mpr ⟨hmem, (hin _).mpr rfl⟩, ?_⟩
    intro ref href
    cases ref with
    | full k =>
        rw [(hin k).mp ((inSliceAt_full_iff hs hfit).mp href).2]
    | recent i =>
        rcases (inSliceAt_recent_iff hfits).mp href with ⟨slot, hslot, hslotx⟩
        exact absurd hslotx
          (htiles.not_inSlot slotLen_pos (List.mem_of_getElem? hslot) (Or.inl hfull))
  · rcases htiles.existsUnique_inSlot slotLen_pos (not_lt.mp hfull) hstop with ⟨i, hi, hunique⟩
    refine ⟨.recent i, (inSliceAt_recent_iff hfits).mpr hi, ?_⟩
    intro ref href
    cases ref with
    | full k =>
        rcases (inSliceAt_full_iff hs hfit).mp href with ⟨hk, _, hlt⟩
        have := fullEnd_mono (f := f) (Nat.succ_le_of_lt hk)
        rw [Nat.succ_eq_add_one] at this
        linarith
    | recent j =>
        rw [hunique j ((inSliceAt_recent_iff hfits).mp href)]

end Slices

/-! ## After an update -/

/-- The time since the end of the full slices is within what the partial sizes can cover. -/
theorem recent_le_of_fullCount_le {k : Nat} (hk : fullCount f t ≤ k) (hle : fullEnd f k ≤ t) :
    (t - fullEnd f k).toNat ≤ recentLen (f + 1) := by
  have hnot : ¬ k < fullCount f t := not_lt.mpr hk
  rw [lt_fullCount_iff, fullEnd_succ] at hnot
  have hsucc := recentLen_succ f
  omega

/-- The slices that a layout at time `t` puts after `k` full slices. -/
theorem recentLayout_spec {k : Nat} (hk : fullCount f t ≤ k) (hlt : fullEnd f k < t) :
    ∃ stop, Tiles slotLen (fullEnd f k)
        (partialLayout f (fullEnd f k) (t - fullEnd f k).toNat) stop ∧
      stop < t ∧ t ≤ stop + unitTime := by
  have hcast : (((t - fullEnd f k).toNat : Nat) : Int) = t - fullEnd f k :=
    Int.toNat_of_nonneg (by omega)
  rcases @partialLayout_tail f (t - fullEnd f k).toNat (fullEnd f k) (by omega)
    (recent_le_of_fullCount_le hk (le_of_lt hlt)) with ⟨stop, htiles, hbelow, habove⟩
  rw [hcast] at hbelow habove
  exact ⟨stop, htiles, by linarith, by linarith⟩

theorem returns_scheduleNextUpdate_at {env env' : SectorEnv} {u : Unit}
    (h : Returns TimePartition.scheduleNextUpdate env u env') {last : PartialSlice}
    (hlast : env.part.partialSlices.getLast? = some last) :
    nextUpdateAfter last = .ok env'.part.nextUpdateAt := by
  have h := returns_read_bind_iff.mp h
  rw [hlast] at h
  rcases returns_lift_bind_iff.mp h with ⟨stop, hstop, h⟩
  rcases returns_lift_bind_iff.mp h with ⟨next, hnext, h⟩
  rw [returns_modifyPart_iff] at h
  subst h
  exact bind_eq_ok_iff.mpr ⟨stop, hstop, hnext⟩

/-- A successful update sets `next_update_at` from the last of the new partial slices. -/
theorem returns_update_nextUpdateAt {env env' : SectorEnv} {u : Unit}
    (h : Returns (TimePartition.update loc t) env u env') {last : PartialSlice}
    (hlast : env'.part.partialSlices.getLast? = some last) :
    nextUpdateAfter last = .ok env'.part.nextUpdateAt := by
  rcases returns_bind_iff.mp h with ⟨_, env1, _, h⟩
  have h := returns_read_bind_iff.mp h
  rcases returns_bind_iff.mp h with ⟨earliest, env2, _, h⟩
  rcases returns_bind_iff.mp h with ⟨_, env3, _, hsched⟩
  rcases returns_scheduleNextUpdate hsched with ⟨⟨next, hpart⟩, _, _⟩
  have hsame : env3.part.partialSlices.getLast? = some last := by
    rw [hpart] at hlast
    exact hlast
  exact returns_scheduleNextUpdate_at hsched hsame

/-- The state a successful update leaves, when it has partial slices: they tile the time from the
end of the full slices up to a unit before `next_update_at`, which is not before `t`. -/
structure Scheduled (f : Nat) (arc : DhtArc) (t : Int) (tp : TimePartition) (stop : Int) : Prop where
  shape : Shape f arc tp
  counted : fullCount f t ≤ tp.fullSlices
  before : fullEnd f tp.fullSlices < t
  fits : stop + unitTime ≤ i64Max
  slots : tp.partialSlices.map PartialSlice.slot =
    partialLayout f (fullEnd f tp.fullSlices) (t - fullEnd f tp.fullSlices).toNat
  tiles : Tiles slotLen (fullEnd f tp.fullSlices) (tp.partialSlices.map PartialSlice.slot) stop
  slotFits : ∀ p ∈ tp.partialSlices, SlotFits p.slot
  nonempty : tp.partialSlices ≠ []
  tail_pos : stop < t
  tail_le : t ≤ stop + unitTime
  next : tp.nextUpdateAt = stop + unitTime

theorem Updated.slots {env env' : SectorEnv} (h : Updated loc f arc t env env') :
    env'.part.partialSlices.map PartialSlice.slot =
      partialLayout f (fullEnd f env'.part.fullSlices)
        (t - fullEnd f env'.part.fullSlices).toNat := by
  rw [h.partialSlices, List.map_map]
  exact List.map_id _

theorem returns_update_scheduled (hf : f ≤ 53) {env env' : SectorEnv} {u : Unit}
    (hs : Shape f arc env.part) (hfit : fullEnd f env.part.fullSlices ≤ i64Max) (ht : t ≤ i64Max)
    (h : Returns (TimePartition.update loc t) env u env') (hne : env'.part.partialSlices ≠ []) :
    ∃ stop, Scheduled f arc t env'.part stop := by
  have hup := returns_update hf hs hfit ht h
  have hslots := hup.slots
  have hcounted : fullCount f t ≤ env'.part.fullSlices := by
    rw [hup.fullSlices]
    exact Nat.le_max_right _ _
  -- with no recent time at all there would be no partial slice
  have hbefore : fullEnd f env'.part.fullSlices < t := by
    rcases lt_or_eq_of_le hup.after with hlt | heq
    · exact hlt
    · exfalso
      have hzero : (t - fullEnd f env'.part.fullSlices).toNat = 0 := by omega
      rw [hzero] at hslots
      have hnil : ∀ n (s : Int), partialLayout n s 0 = [] := by
        intro n
        induction n with
        | zero => exact fun _ => rfl
        | succ i ih =>
            intro s
            simp [partialLayout, TimePartition.sliceCount, slots, ih]
      rw [hnil, List.map_eq_nil_iff] at hslots
      exact hne hslots
  rcases recentLayout_spec hcounted hbefore with ⟨stop, htiles, hbelow, habove⟩
  rw [← hslots] at htiles
  have hfits : ∀ p ∈ env'.part.partialSlices, SlotFits p.slot := by
    intro p hp
    refine slotFits_partialLayout hf (fullEnd_nonneg _ _) (le_of_lt hbefore) ht ?_
    rw [← hslots]
    exact List.mem_map_of_mem hp
  rcases hlast : env'.part.partialSlices.getLast? with _ | last
  · exact absurd (List.getLast?_eq_none_iff.mp hlast) hne
  · have hmem := List.mem_of_getLast? hlast
    have hend : last.start + slotLen last.size = stop :=
      htiles.getLast_end (by rw [List.getLast?_map, hlast]; rfl)
    have hnext := returns_update_nextUpdateAt h hlast
    rcases bind_eq_ok_iff.mp hnext with ⟨e, he, hadd⟩
    rw [stop_ok (hfits last hmem), hend] at he
    cases he
    have hwrap : wrapI64 unitTime = unitTime := wrapI64_of_le (by decide)
    rw [addDuration_eq_ok_iff, hwrap] at hadd
    exact ⟨stop, hup.shape, hcounted, hbefore, hadd.2.2, hslots, htiles, hfits, hne, hbelow, habove,
      hadd.1⟩

/-- The partial slices tile recent time from the end of the full slices, in sizes that never increase
and are used at most twice, up to a tail of at most one unit; after an update every time up to the
end of the partial slices lies in exactly one slice, and the next update is not yet due. -/
theorem partials_tile_recent_time (hf : f ≤ 53) {tp : TimePartition} (hs : Shape f arc tp)
    (ht : t ≤ i64Max) :
    (∀ n, tp.layoutFullSlices t = .ok n → fullEnd f (tp.fullSlices + n) < t →
      ({ tp with fullSlices := tp.fullSlices + n } : TimePartition).fullSliceEndTimestamp =
          .ok (fullEnd f (tp.fullSlices + n)) ∧
        ∃ slots stop, tp.layoutPartials (fullEnd f (tp.fullSlices + n)) t = .ok slots ∧
          Tiles slotLen (fullEnd f (tp.fullSlices + n)) slots stop ∧
          (slots.Pairwise fun a b => b.2 ≤ a.2) ∧ (∀ slot ∈ slots, slot.2 < f) ∧
          (∀ size, slots.countP (fun slot => decide (slot.2 = size)) ≤ 2) ∧
          0 < t - stop ∧ t - stop ≤ unitTime) ∧
      ∀ loc st env', fullEnd f tp.fullSlices ≤ i64Max →
        Returns (TimePartition.update loc t) { part := tp, store := st } () env' →
        env'.part.partialSlices ≠ [] →
          t ≤ env'.part.nextUpdateAt ∧
            ∃ last stop, env'.part.partialSlices.getLast? = some last ∧ last.stop = .ok stop ∧
              ∀ x, 0 ≤ x → x < stop → ∃! ref, env'.part.InSliceAt x ref := by
  constructor
  · intro n hn hlt
    have hle : fullEnd f tp.fullSlices ≤ t :=
      le_trans (fullEnd_mono (Nat.le_add_right _ n)) (le_of_lt hlt)
    have hshape : Shape f arc { tp with fullSlices := tp.fullSlices + n } :=
      ⟨hs.factor, hs.fullSliceDuration, hs.minRecentTime, hs.sectorConstraint⟩
    refine ⟨fullSliceEndTimestamp_ok hshape (le_of_lt (lt_of_lt_of_le hlt ht)), ?_⟩
    -- the layout of full slices has brought the count up to `fullCount`
    rcases layoutFullSlices_ok hs hle ht with ⟨n', hn', hmax⟩
    rw [hn] at hn'
    cases hn'
    have hcount : fullCount f t ≤ tp.fullSlices + n := by
      rw [hmax]
      exact Nat.le_max_right _ _
    rcases recentLayout_spec hcount hlt with ⟨stop, htiles, hbelow, habove⟩
    refine ⟨_, stop, layoutPartials_ok hf hs (fullEnd_nonneg _ _) (le_of_lt hlt) ht, htiles,
      pairwise_partialLayout _ _ _, ?_, countP_partialLayout_le _ _ _, by omega, by omega⟩
    intro slot hslot
    exact partialLayout_size_lt hslot
  · intro loc st env' hfit hup hne
    rcases returns_update_scheduled hf hs hfit ht hup hne with ⟨stop, hsched⟩
    refine ⟨by rw [hsched.next]; exact hsched.tail_le, ?_⟩
    rcases hlast : env'.part.partialSlices.getLast? with _ | last
    · exact absurd (List.getLast?_eq_none_iff.mp hlast) hne
    · have hend : last.start + slotLen last.size = stop :=
        hsched.tiles.getLast_end (by rw [List.getLast?_map, hlast]; rfl)
      refine ⟨last, stop, rfl, ?_, ?_⟩
      · rw [stop_ok (hsched.slotFits last (List.mem_of_getLast? hlast)), hend]
      · intro x hx hxs
        exact existsUnique_inSliceAt hsched.shape
          (le_of_lt (lt_of_lt_of_le hsched.before ht)) hsched.slotFits hsched.tiles hx hxs

/-- With factor 1, two slices of size 0 cover the first half hour of 2,000 seconds. -/
theorem partials_tile_first_half_hour :
    (∃ slots stop, (freshPart 1 .empty 0).layoutPartials 0 2000000000 = .ok slots ∧
        Tiles slotLen 0 slots stop ∧ 0 < 2000000000 - stop ∧ 2000000000 - stop ≤ unitTime) ∧
      ∃ env', Returns (TimePartition.update (fun _ => 0) 2000000000)
          { part := freshPart 1 .empty 0, store := OpStore.empty } () env' ∧
        2000000000 ≤ env'.part.nextUpdateAt := by
  have hshape := shape_freshPart 1 .empty 0
  have hmain := @partials_tile_recent_time 1 .empty 2000000000 (by decide) _ hshape (by decide)
  constructor
  · rcases (hmain.1 0 (by decide) (by decide)).2 with ⟨slots, stop, hok, htiles, _, _, _, hpos, hle⟩
    exact ⟨slots, stop, hok, htiles, hpos, hle⟩
  · rcases @update_returns (fun _ => 0) 1 0 .empty 2000000000 (by decide)
      { part := freshPart 1 .empty 0, store := OpStore.empty } hshape rfl nofun (by decide)
      (by decide) (by decide) (nextFits_of_le (by decide) (by decide)) with ⟨env', hup, _⟩
    have hspec := returns_update (by decide) hshape (by decide) (by decide) hup
    have hslots := hspec.slots
    have hfull : env'.part.fullSlices = 0 := hspec.fullSlices.trans (by decide)
    refine ⟨env', hup, (hmain.2 _ _ env' (by decide) hup ?_).1⟩
    intro hnil
    rw [hnil, hfull] at hslots
    exact absurd hslots (by decide)

end Dht
end Kitsune2
