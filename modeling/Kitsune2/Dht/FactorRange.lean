import Kitsune2.Dht.RangedUpdate

/-!
# FactorRange — the factors whose arithmetic is safe

The factor of a time partition is a `u8`, and `TimePartition::new` is where one that is too large is
to be refused.  The check is made for `factor - 1`, behind the shift and the product for `factor`
itself: no factor is ever refused there, zero and everything from 55 on panic in `new`, and 54 passes
and panics at the first layout of partial slices.  From 1 to 53 every computation on the way is
exact, whatever the store holds and whichever of its calls fail, provided that the count a partition
starts from comes from a time in machine range.
-/

namespace Kitsune2
namespace Dht

open Api Lib

variable {loc : LocCb} {f k n : Nat} {arc : DhtArc} {t start : Int} {tp : TimePartition}
  {st : OpStore}

namespace TimePartition

/-! ## From a start to any later time -/

/-- The last time of the range: `2^62` microseconds. -/
def latest : Int := 2 ^ 62

theorem latest_room : latest + unitTime ≤ i64Max := by decide

/-- The partitions that come of a start at time `t`, with any failing calls, any stored ops it is told
of, and updates at any times in range on any store, the failed ones included. -/
inductive Reached (loc : LocCb) (f : Nat) (t : Int) (arc : DhtArc) (st : OpStore) :
    TimePartition → Prop
  | built {failures : List Bool} {tp : TimePartition} {st' : OpStore} :
      Returns (tryFromStore loc f t arc) (st.withFailures failures) tp st' →
      Reached loc f t arc st tp
  | informed {tp : TimePartition} (ops : List StoredOp) (st' : OpStore) :
      Reached loc f t arc st tp →
      Reached loc f t arc st (informOpsStored ops { part := tp, store := st' }).2.part
  | updated {tp : TimePartition} {t' : Int} (st' : OpStore) :
      Reached loc f t arc st tp → 0 ≤ t' → t' ≤ latest →
      Reached loc f t arc st (update loc t' { part := tp, store := st' }).2.part

/-- The factor is accepted, and nothing overflows or is lost from there on. -/
structure Completes (loc : LocCb) (f : Nat) (t : Int) (arc : DhtArc) (st : OpStore) : Prop where
  accepted : arc ≠ .empty → ∃ fresh, TimePartition.new f arc = .ok fresh
  start : arc ≠ .empty → ∀ fresh failures, TimePartition.new f arc = .ok fresh →
    ExactStart loc fresh t (st.withFailures failures)
  built : ∀ failures, NoOverflow (tryFromStore loc f t arc (st.withFailures failures)).1
  updates : ∀ tp, Reached loc f t arc st tp → ∀ t' st', 0 ≤ t' → t' ≤ latest →
    NoOverflow (update loc t' { part := tp, store := st' }).1 ∧ ExactUpdate tp t'
  boundary : ∀ tp, Reached loc f t arc st tp →
    (∃ boundary, tp.fullSliceEndTimestamp = .ok boundary) ∧ ExactSlices tp tp.fullSlices
  fullBounds : ∀ tp, Reached loc f t arc st tp → ∀ k < tp.fullSlices, ExactFullBounds tp k
  partialBounds : ∀ tp, Reached loc f t arc st tp → ∀ i p, tp.partialSlices[i]? = some p →
    ExactPartialBounds tp i p

/-- The factor is refused as one outside the documented range, or everything completes. -/
def Safe (loc : LocCb) (f : Nat) (t : Int) (arc : DhtArc) (st : OpStore) : Prop :=
  ((∃ message, TimePartition.new f arc = .error (.k2 message)) ∧ (f = 0 ∨ 54 ≤ f)) ∨
    Completes loc f t arc st

/-- The count a partition starts from is one of machine range: the highest stored slice ends there,
or, where none is stored, no op of the sector is dated before the epoch. -/
structure StartInRange (loc : LocCb) (f : Nat) (arc : DhtArc) (st : OpStore) : Prop where
  stored : ∀ id, (st.sliceHashes arc).maxKey? = some id → fullEnd f (id + 1) ≤ i64Max
  skipped : (st.sliceHashes arc).maxKey? = none → ∀ e, st.earliestInArc loc arc = some e → 0 ≤ e

/-- The timestamps of the stored ops are `i64` values. -/
def MachineTimes (st : OpStore) : Prop :=
  ∀ op ∈ st.opList, op.createdAt ≤ i64Max

section Start

theorem earliest_range (hin : (st.sliceHashes arc).maxKey? = none →
      ∀ e, st.earliestInArc loc arc = some e → 0 ≤ e)
    (hnone : (st.sliceHashes arc).maxKey? = none) (hmicros : MachineTimes st) (ht : 0 ≤ t)
    (hmax : t ≤ i64Max) :
    0 ≤ (st.earliestInArc loc arc).getD t ∧ (st.earliestInArc loc arc).getD t ≤ i64Max := by
  cases hear : st.earliestInArc loc arc with
  | none =>
      exact ⟨ht, hmax⟩
  | some e =>
      refine ⟨hin hnone e hear, ?_⟩
      rcases earliestInArc_mem hear with ⟨op, hop, _, rfl⟩
      rcases List.mem_map.mp hop with ⟨r, hr, rfl⟩
      exact hmicros r hr

/-- A cast to `u128` keeps a time of the epoch or later. -/
theorem wrapU128_of_range {e : Int} (he : 0 ≤ e) (hmax : e ≤ i64Max) : (wrapU128 e : Int) = e := by
  simp only [i64Max] at hmax
  unfold wrapU128
  rw [Int.toNat_of_nonneg (Int.emod_nonneg _ (by decide)), Int.emod_eq_of_lt he (by omega)]

theorem startCount_fits (h : StartInRange loc f arc st) (hmicros : MachineTimes st) (ht : 0 ≤ t)
    (hmax : t ≤ i64Max) (hcount : StartCount loc f arc t st k) : fullEnd f k ≤ i64Max := by
  rcases hcount with ⟨id, hid, rfl⟩ | ⟨hnone, hk⟩
  · exact h.stored id hid
  · rcases earliest_range h.skipped hnone hmicros ht hmax with ⟨hlow, hhigh⟩
    rcases Nat.eq_zero_or_pos k with rfl | hpos
    · simp [fullEnd, i64Max]
    · have hskip := skipped_slices hlow hhigh hk hpos
      exact le_trans (le_trans (fullEnd_mono (Nat.le_succ k)) hskip) hhigh

theorem exactStart_of_range (hf : f ≤ 53) (h : StartInRange loc f arc st) (hmicros : MachineTimes st)
    (ht : 0 ≤ t) (hlatest : t ≤ latest) : ExactStart loc (freshPart f arc 0) t st := by
  have hroom := latest_room
  have hmax : t ≤ i64Max := by
    have hunit : (0 : Int) ≤ unitTime := Int.natCast_nonneg _
    omega
  have hfits : ∀ count st', Returns (initialFullSlices loc (freshPart f arc 0) t) st count st' →
      fullEnd f count ≤ i64Max := fun count st' hret =>
    startCount_fits h hmicros ht hmax (returns_initialFullSlices hret).2
  constructor
  case earliest =>
    intro hnone
    rcases earliest_range h.skipped hnone hmicros ht hmax with ⟨hlow, hhigh⟩
    have hwrap := wrapU128_of_range hlow hhigh
    refine ⟨hwrap, ?_⟩
    have hdiv := Nat.div_le_self (wrapU128 ((st.earliestInArc loc arc).getD t)) (sliceLen f)
    simp only [i64Max] at hhigh
    simp only [freshPart, u64Max]
    omega
  case boundary =>
    intro count st' hret
    exact exactSlices_of_le (shape_freshPart f arc 0) (hfits count st' hret)
  case update =>
    intro count st' hret
    exact exactUpdate_of_le hf (shape_freshPart f arc count) (hfits count st' hret) (by omega)

theorem ends_sliceHashCount (h : StartInRange loc f arc st) :
    Ends (sliceHashCount arc) st fun r _ => NoOverflow r := by
  refine ends_bind ?_ ?_
  · intro e st1 hrun
    exact Meets.error (((ends_query _ st).of_run hrun).2 e rfl)
  · intro highest st1 hrun
    rcases returns_query hrun with ⟨hval, hsame⟩
    rw [hsame.sliceHashes] at hval
    cases highest with
    | none =>
        exact noOverflow_ok 0
    | some id =>
        have hsmall := le_trans (le_fullEnd f (id + 1)) (h.stored id hval.symm)
        have hlt : id < u64Max := by
          simp only [i64Max] at hsmall
          simp only [u64Max]
          omega
        simp only [if_pos hlt]
        exact noOverflow_ok (id + 1)

theorem ends_initialFullSlices (h : StartInRange loc f arc st) :
    Ends (initialFullSlices loc (freshPart f arc 0) t) st fun r _ => NoOverflow r := by
  refine ends_bind ?_ ?_
  · intro e st1 hrun
    exact Meets.error (((ends_sliceHashCount h).of_run hrun).2 e rfl)
  · intro count st1 _
    by_cases hzero : count = 0
    · rw [if_pos hzero]
      refine ends_bind ?_ fun _ _ _ => noOverflow_ok _
      intro e st2 hrun
      exact Meets.error (((ends_query _ st1).of_run hrun).2 e rfl)
    · rw [if_neg hzero]
      exact noOverflow_ok count

theorem noOverflow_elapsed {later earlier : Int} (message : String) (hearlier : 0 ≤ earlier)
    (hlater : later ≤ i64Max) : NoOverflow (elapsed later earlier (.k2 message)) := by
  unfold elapsed
  split
  · exact noOverflow_k2 message
  · rw [if_neg (by omega)]
    exact noOverflow_ok _

theorem ends_runOn {I : TimePartition → Prop} {m : PartM Unit}
    (h : Settles I m { part := tp, store := st }) :
    Ends (runOn m tp) st fun r _ => NoOverflow r ∧ ∀ tp', r = .ok tp' → I tp' := by
  unfold Settles Ends at h
  unfold Ends runOn
  rcases hm : m { part := tp, store := st } with ⟨r, env⟩
  rw [hm] at h
  cases r with
  | error e => exact ⟨Meets.error (h.1.2 e rfl), nofun⟩
  | ok u =>
      refine ⟨noOverflow_ok _, ?_⟩
      intro tp' htp
      cases htp
      exact h.2

/-- What a rebuild promises of its outcome. -/
theorem ends_tryFromStore (hpos : 1 ≤ f) (hf : f ≤ 53) (h : StartInRange loc f arc st)
    (hmicros : MachineTimes st) (ht : 0 ≤ t) (hlatest : t ≤ latest) :
    Ends (tryFromStore loc f t arc) st fun r _ =>
      NoOverflow r ∧ ∀ tp, r = .ok tp → InRange f arc latest tp := by
  have hroom := latest_room
  have hmax : t ≤ i64Max := by
    have hunit : (0 : Int) ≤ unitTime := Int.natCast_nonneg _
    omega
  -- an error on the way is reported, never an overflow
  have hfail : ∀ {α : Type} {r : Except Fault α} {e : Fault}, NoOverflow r → r = .error e →
      NoOverflow (.error e : Except Fault TimePartition) ∧
        ∀ tp, (.error e : Except Fault TimePartition) = .ok tp → InRange f arc latest tp :=
    fun hr he => ⟨Meets.error (hr.2 _ he), nofun⟩
  have hreported : ∀ message, NoOverflow (.error (.k2 message) : Except Fault Unit) :=
    fun message => noOverflow_k2 message
  unfold tryFromStore
  by_cases harc : arc = .empty
  · rw [if_pos harc]
    exact hfail (hreported _) rfl
  rw [if_neg harc]
  refine ends_lift_ok_bind (new_ok hpos hf arc) (ends_bind ?_ ?_)
  · intro e st1 hrun
    exact hfail ((ends_initialFullSlices h).of_run hrun) rfl
  · intro count st1 hrun
    have hfits := startCount_fits h hmicros ht hmax (returns_initialFullSlices hrun).2
    have hnonneg := fullEnd_nonneg f count
    refine ends_lift_ok_bind (fullSliceEndTimestamp_ok (shape_freshPart f arc count) hfits) ?_
    refine ends_lift_bind (fun e he => hfail (noOverflow_elapsed _ hnonneg hmax) he) ?_
    intro recent hrecent
    have hle := (elapsed_eq_ok_iff.mp hrecent).1
    split
    · exact hfail (hreported _) rfl
    · have hin : InRange f arc latest
          ({ part := freshPart f arc count, store := st1 } : SectorEnv).part :=
        ⟨shape_freshPart f arc count, le_trans hle hlatest, nofun⟩
      exact ends_runOn (settles_update hf hin hlatest hroom)

theorem Reached.inRange (hpos : 1 ≤ f) (hf : f ≤ 53) (h : StartInRange loc f arc st)
    (hmicros : MachineTimes st) (ht : 0 ≤ t) (hlatest : t ≤ latest)
    (hreached : Reached loc f t arc st tp) : InRange f arc latest tp := by
  induction hreached with
  | @built failures tp st' hret =>
      have hstart : StartInRange loc f arc (st.withFailures failures) := ⟨h.stored, h.skipped⟩
      exact ((ends_tryFromStore hpos hf hstart hmicros ht hlatest).returns hret).2 tp rfl
  | @informed tp ops st' _ ih =>
      exact ih.of_sameButHashes (ends_informOpsStored_layout ops { part := tp, store := st' })
  | @updated tp t' st' _ _ hle ih =>
      have hrun : Settles (InRange f arc latest) (update loc t') { part := tp, store := st' } :=
        settles_update hf ih hle latest_room
      exact hrun.2

/-- From 1 to 53, with a start in range, everything completes. -/
theorem completes_of_range (hpos : 1 ≤ f) (hf : f ≤ 53) (h : StartInRange loc f arc st)
    (hmicros : MachineTimes st) (ht : 0 ≤ t) (hlatest : t ≤ latest) :
    Completes loc f t arc st := by
  have hin : ∀ tp, Reached loc f t arc st tp → InRange f arc latest tp :=
    fun tp => Reached.inRange hpos hf h hmicros ht hlatest
  have hroom := latest_room
  have hmax : latest ≤ i64Max := by decide
  have hstart : ∀ failures, StartInRange loc f arc (st.withFailures failures) :=
    fun _ => ⟨h.stored, h.skipped⟩
  constructor
  case accepted =>
    intro _
    exact ⟨_, new_ok hpos hf arc⟩
  case start =>
    intro _ fresh failures hfresh
    rw [new_ok hpos hf] at hfresh
    cases hfresh
    exact exactStart_of_range hf (hstart failures) hmicros ht hlatest
  -- every partition that is reached stays in range, and in range nothing overflows
  case built =>
    intro failures
    exact (ends_tryFromStore hpos hf (hstart failures) hmicros ht hlatest).1
  case updates =>
    intro tp htp t' st' _ hle
    have hrange := hin tp htp
    have hrun : Settles (InRange f arc latest) (update loc t') { part := tp, store := st' } :=
      settles_update hf hrange hle hroom
    exact ⟨hrun.1, exactUpdate_of_le hf hrange.shape (le_trans hrange.full hmax) (by omega)⟩
  case boundary =>
    intro tp htp
    have hrange := hin tp htp
    have hfit := le_trans hrange.full hmax
    exact ⟨⟨_, fullSliceEndTimestamp_ok hrange.shape hfit⟩, exactSlices_of_le hrange.shape hfit⟩
  case fullBounds =>
    intro tp htp k hk
    have hrange := hin tp htp
    exact exactFullBounds_of_lt hrange.shape (le_trans hrange.full hmax) hk
  case partialBounds =>
    intro tp htp i p hp
    exact exactPartialBounds_of_within hp ((hin tp htp).partials p (List.mem_of_getElem? hp)) hmax

end Start

/-! ## Outside the range -/

/-- The slice of a size from 55 on does not fit a `u64` of seconds. -/
theorem sliceDuration_overflows (hf : 55 ≤ f) :
    ∃ reason ∈ overflowReasons, sliceDuration f = .error (.panicked reason) := by
  unfold sliceDuration
  by_cases hshift : f < 64
  · have hpow : 2 ^ 55 ≤ 2 ^ f := Nat.pow_le_pow_right (by decide) hf
    have hbig : ¬ 2 ^ f * unitSecs ≤ u64Max := by
      simp only [unitSecs, u64Max]
      omega
    refine ⟨"attempt to multiply with overflow", by decide, ?_⟩
    simp only [shlU64_of_lt hshift, bind, Except.bind, mulU64, if_neg hbig]
  · refine ⟨"attempt to shift left with overflow", by decide, ?_⟩
    simp only [shlU64, if_neg hshift, bind, Except.bind]

/-- No factor is refused: those the check is there for have overflowed before it. -/
theorem new_cases (f : Nat) (arc : DhtArc) :
    (1 ≤ f ∧ f ≤ 54 ∧ TimePartition.new f arc = .ok (freshPart f arc 0)) ∨
      ((f = 0 ∨ 55 ≤ f) ∧
        ∃ reason ∈ overflowReasons, TimePartition.new f arc = .error (.panicked reason)) := by
  by_cases hbig : 55 ≤ f
  · rcases sliceDuration_overflows hbig with ⟨reason, hreason, hdur⟩
    refine Or.inr ⟨Or.inr hbig, reason, hreason, ?_⟩
    simp only [TimePartition.new, hdur, bind, Except.bind]
  have hdur := sliceDuration_ok (show f ≤ 54 by omega)
  by_cases hzero : f = 0
  · refine Or.inr ⟨Or.inl hzero, "attempt to subtract with overflow", by decide, ?_⟩
    simp only [TimePartition.new, hdur, bind, Except.bind, if_pos hzero]
  · have hsucc : f - 1 + 1 = f := by omega
    refine Or.inl ⟨by omega, by omega, ?_⟩
    simp only [TimePartition.new, hdur, bind, Except.bind, if_neg hzero,
      residualDuration_ok (show f - 1 < 54 by omega), hsucc, pure, Except.pure, freshPart]

theorem not_noOverflow {α : Type} {reason : String} (h : reason ∈ overflowReasons) :
    ¬ NoOverflow (.error (.panicked reason) : Except Fault α) :=
  fun hno => hno.2 _ rfl reason h rfl

/-- A highest slice id of `u64::MAX` overflows in the count of the stored slices. -/
theorem ends_tryFromStore_lastId (harc : arc ≠ .empty) {fresh : TimePartition}
    (hnew : TimePartition.new f arc = .ok fresh) (hcon : fresh.sectorConstraint = arc)
    (hrel : st.failures = []) {id : Nat} (hid : (st.sliceHashes arc).maxKey? = some id)
    (hbig : ¬ id < u64Max) :
    Ends (tryFromStore loc f t arc) st fun r _ => ¬ NoOverflow r := by
  have hquery := query_returns hrel fun st => (st.sliceHashes arc).maxKey?
  have hcount : sliceHashCount arc st = (.error (.panicked "attempt to add with overflow"), st) := by
    unfold sliceHashCount
    rw [hquery.bind_run, hid]
    simp only [if_neg hbig]
    rfl
  have hinitial : initialFullSlices loc fresh t st =
      (.error (.panicked "attempt to add with overflow"), st) := by
    unfold initialFullSlices
    rw [hcon]
    exact bind_run_error hcount _
  unfold tryFromStore
  rw [if_neg harc]
  refine ends_lift_ok_bind hnew ?_
  unfold Ends
  rw [bind_run_error hinitial]
  exact not_noOverflow (by decide)

/-- The sum that is compared with recent time is computed for every size, whether it is used or not. -/
theorem layoutSizes_overflows {sliceSize residual recent : Nat} {e : Fault}
    (hsize : sliceDuration n = .ok sliceSize) (hres : residualDurationForFactor n = .ok residual)
    (hsum : addDurations residual sliceSize = .error e) :
    layoutSizes (n + 1) start recent = .error e := by
  simp only [layoutSizes, hsize, hres, hsum, bind, Except.bind]

theorem layoutPartials_54 (hs : Shape 54 arc tp) (ht : 0 ≤ t) (hmax : t ≤ i64Max) :
    tp.layoutPartials 0 t = .error (.panicked "overflow when adding durations") := by
  have helapsed : elapsed t 0
      (.k2 "Failed to calculate recent time for partials, either the clock is wrong or this is a bug")
        = .ok t.toNat :=
    elapsed_eq_ok_iff.mpr ⟨ht, by omega, by omega⟩
  have hbig : ¬ asSecs (recentLen (53 + 1) + sliceLen 53) ≤ u64Max := by
    simp only [recentLen, sliceLen, unitTime_eq, asSecs, microsPerSec, u64Max]
    omega
  have hsum : addDurations (recentLen (53 + 1)) (sliceLen 53) =
      .error (.panicked "overflow when adding durations") := by
    unfold addDurations
    rw [if_neg hbig]
  have hsizes : layoutSizes tp.factor 0 t.toNat =
      .error (.panicked "overflow when adding durations") := by
    rw [hs.factor]
    exact layoutSizes_overflows (sliceDuration_ok (by decide)) (residualDuration_ok (by decide)) hsum
  simp only [layoutPartials, helapsed, hsizes, bind, Except.bind]

/-- At factor 54 no full slice fits before the last `i64` time, and the first layout of partial
slices overflows. -/
theorem ends_update_54 (ht : 0 ≤ t) (hmax : t ≤ i64Max) (hrel : st.failures = []) :
    Ends (update loc t) { part := freshPart 54 arc 0, store := st } fun r _ => ¬ NoOverflow r := by
  have hs := shape_freshPart 54 arc 0
  have hzero : fullEnd 54 0 = 0 := rfl
  have hle : fullEnd 54 (freshPart 54 arc 0).fullSlices ≤ t := ht
  rcases layoutFullSlices_ok hs hle hmax with ⟨count, hcount, hsum⟩
  -- the recent time of factor 54 exceeds every timestamp: there are no full slices
  have hnone : fullCount 54 t = 0 := by
    by_contra hpos
    have hfit := fullEnd_fullCount_le (Nat.pos_of_ne_zero hpos)
    have hlong : (i64Max : Int) < recentLen 54 := by decide
    have hnonneg := fullEnd_nonneg 54 (fullCount 54 t)
    omega
  have hcount0 : count = 0 := by
    rw [hnone] at hsum
    have hfresh : (freshPart 54 arc 0).fullSlices = 0 := rfl
    omega
  rw [hcount0] at hcount
  have hend := fullSliceEndTimestamp_ok hs (le_trans hle hmax)
  have hfull : Returns (updateFullSliceHashes loc t) { part := freshPart 54 arc 0, store := st } ()
      { part := freshPart 54 arc 0, store := st } := by
    refine returns_read_bind_iff.mpr (returns_lift_bind_iff.mpr ⟨0, hcount, ?_⟩)
    exact returns_lift_bind_iff.mpr ⟨_, hend, returns_pure_iff.mpr ⟨rfl, rfl⟩⟩
  refine hfull.ends_bind (ends_read_bind_iff.mpr ?_)
  have hread := fun earliest : OpStore → Option Int => onStore_query_returns
    (show ({ part := freshPart 54 arc 0, store := st } : SectorEnv).store.failures = [] from hrel)
    earliest
  refine (hread _).ends_bind ?_
  -- so the partial slices are laid out from the epoch, where the first sum overflows
  have hpartials : ∀ earliest, Ends (updatePartials loc earliest t)
      { part := freshPart 54 arc 0, store := st }
      fun r _ => r = .error (.panicked "overflow when adding durations") := by
    intro earliest
    refine ends_read_bind_iff.mpr (ends_lift_ok_bind hend ?_)
    rw [show fullEnd 54 (freshPart 54 arc 0).fullSlices = 0 from rfl]
    have hlayout := layoutPartials_54 hs ht hmax
    refine ends_lift_bind ?_ ?_
    · intro e he
      rw [hlayout] at he
      rw [Except.error.inj he]
    · intro slots hslots
      rw [hlayout] at hslots
      cases hslots
  refine ends_bind ?_ ?_
  · intro e env1 hrun
    rw [(hpartials _).of_run hrun]
    exact not_noOverflow (by decide)
  · intro _ env1 hrun
    have hcontra := (hpartials _).of_run hrun
    cases hcontra

theorem ends_runOn_overflow {m : PartM Unit}
    (h : Ends m { part := tp, store := st } fun r _ => ¬ NoOverflow r) :
    Ends (runOn m tp) st fun r _ => ¬ NoOverflow r := by
  unfold Ends at h
  unfold Ends runOn
  rcases hm : m { part := tp, store := st } with ⟨r, env⟩
  rw [hm] at h
  cases r with
  | error e => exact fun hno => h (Meets.error (hno.2 e rfl))
  | ok u => exact absurd (noOverflow_ok u) h

/-- So a start at factor 54 overflows: the count it starts from is zero. -/
theorem ends_tryFromStore_54 (harc : arc ≠ .empty) (h : StartInRange loc 54 arc st)
    (hmicros : MachineTimes st) (ht : 0 ≤ t) (hmax : t ≤ i64Max) (hrel : st.failures = []) :
    Ends (tryFromStore loc 54 t arc) st fun r _ => ¬ NoOverflow r := by
  have hlen : (i64Max : Int) < sliceLen 54 := by decide
  -- no full slice of factor 54 fits below the largest timestamp
  have hzero : ∀ count, fullEnd 54 count ≤ i64Max → count = 0 := by
    intro count hfit
    by_contra hpos
    have hone : fullEnd 54 1 ≤ fullEnd 54 count := fullEnd_mono (Nat.pos_of_ne_zero hpos)
    have heq : fullEnd 54 1 = sliceLen 54 := by simp [fullEnd]
    omega
  have hmaxKey : ∀ id, (st.sliceHashes arc).maxKey? = some id → id < u64Max := by
    intro id hid
    have hcontra := hzero (id + 1) (h.stored id hid)
    omega
  have hstarts : ∃ count, Returns (initialFullSlices loc (freshPart 54 arc 0) t) st count st :=
    initialFullSlices_returns hrel hmaxKey
  rcases hstarts with ⟨count, hcount⟩
  have hcount0 := hzero count (startCount_fits h hmicros ht hmax (returns_initialFullSlices hcount).2)
  rw [hcount0] at hcount
  have hs := shape_freshPart 54 arc 0
  have hfirst : fullEnd 54 (freshPart 54 arc 0).fullSlices = 0 := by simp [fullEnd, freshPart]
  have hend := fullSliceEndTimestamp_ok hs (by rw [hfirst]; decide)
  rw [hfirst] at hend
  unfold tryFromStore
  rw [if_neg harc]
  rcases new_cases 54 arc with ⟨_, _, hnew⟩ | ⟨hout, _⟩
  · refine ends_lift_ok_bind hnew (hcount.ends_bind (ends_lift_ok_bind hend ?_))
    have helapsed : elapsed t 0
        (.k2 "Failed to calculate recent time, either the clock is wrong or this is a bug") =
          .ok t.toNat := elapsed_eq_ok_iff.mpr ⟨ht, by omega, by omega⟩
    refine ends_lift_ok_bind helapsed ?_
    rw [if_neg (by simp)]
    exact ends_runOn_overflow (ends_update_54 ht hmax hrel)
  · omega

/-- What a safe factor needs. -/
theorem range_of_safe (harc : arc ≠ .empty) (hmicros : MachineTimes st) (ht : 0 ≤ t)
    (hmax : t ≤ i64Max) (h : Safe loc f t arc st) :
    1 ≤ f ∧ f ≤ 53 ∧ StartInRange loc f arc st := by
  rcases h with ⟨⟨message, hrefused⟩, _⟩ | h
  · rcases new_cases f arc with ⟨_, _, hnew⟩ | ⟨_, reason, _, hnew⟩
    · rw [hrefused] at hnew
      cases hnew
    · rw [hrefused] at hnew
      cases hnew
  rcases h.accepted harc with ⟨fresh, hfresh⟩
  rcases new_cases f arc with ⟨hpos, hle, hnew⟩ | ⟨_, reason, _, hnew⟩
  · have hstart := h.start harc _ [] hnew
    have hno := h.built []
    have hrange : StartInRange loc f arc st := by
      constructor
      case stored =>
        intro id hid
        have hlt : ∀ id', (st.sliceHashes arc).maxKey? = some id' → id' < u64Max := by
          intro id' hid'
          by_contra hbig
          have hrel : (st.withFailures []).failures = [] := rfl
          exact ends_tryFromStore_lastId harc hnew rfl hrel hid' hbig hno
        have hstarts : ∃ count, Returns (initialFullSlices loc (freshPart f arc 0) t)
            (st.withFailures []) count (st.withFailures []) := initialFullSlices_returns rfl hlt
        rcases hstarts with ⟨count, hcount⟩
        rcases (returns_initialFullSlices hcount).2 with ⟨id', hid', rfl⟩ | ⟨hnone, _⟩
        · have heq : some id = some id' := hid.symm.trans hid'
          cases heq
          exact (hstart.boundary _ _ hcount).fullEnd_le (shape_freshPart f arc 0)
        · have hcontra : some id = none := hid.symm.trans hnone
          cases hcontra
      case skipped =>
        intro hnone e hear
        have hcast := (hstart.earliest hnone).1
        -- the schedule of failing calls does not change what the store holds
        have hsame : (st.withFailures []).earliestInArc loc (freshPart f arc 0).sectorConstraint =
            some e := hear
        rw [hsame, Option.getD_some] at hcast
        rw [← hcast]
        exact Int.natCast_nonneg _
    refine ⟨hpos, ?_, hrange⟩
    by_contra hbig
    have hf : f = 54 := by omega
    rw [hf] at hrange hno
    have hstart54 : StartInRange loc 54 arc (st.withFailures []) := ⟨hrange.stored, hrange.skipped⟩
    exact ends_tryFromStore_54 harc hstart54 hmicros ht hmax rfl hno
  · rw [hfresh] at hnew
    cases hnew

/-! ## The safe factors -/

theorem not_reached_empty : ¬ Reached loc f t .empty st tp := by
  intro h
  induction h with
  | built hret =>
      rcases returns_check_iff.mp hret with ⟨hne, _⟩
      exact hne rfl
  | informed _ _ _ ih => exact ih
  | updated _ _ _ _ ih => exact ih

/-- An empty sector is reported before any arithmetic is done. -/
theorem completes_empty (loc : LocCb) (f : Nat) (t : Int) (st : OpStore) :
    Completes loc f t .empty st where
  accepted := fun harc => absurd rfl harc
  start := fun harc => absurd rfl harc
  built := fun failures => by
    unfold tryFromStore
    rw [if_pos rfl]
    exact noOverflow_k2 _
  updates := fun _ h => absurd h not_reached_empty
  boundary := fun _ h => absurd h not_reached_empty
  fullBounds := fun _ h => absurd h not_reached_empty
  partialBounds := fun _ h => absurd h not_reached_empty

/-- Over every `u8`, every time in range and every store, the arithmetic is safe exactly for the
factors from 1 to 53 on a store with a start in range, and for an empty sector. -/
theorem arithmetic_safe_iff (loc : LocCb) (factor : UInt8) (t : Int) (arc : DhtArc) (st : OpStore)
    (ht : 0 ≤ t) (hlatest : t ≤ latest) (hmicros : MachineTimes st) :
    Safe loc factor.toNat t arc st ↔
      arc = .empty ∨
        (1 ≤ factor.toNat ∧ factor.toNat ≤ 53 ∧ StartInRange loc factor.toNat arc st) := by
  have hmax : t ≤ i64Max := le_trans hlatest (by decide)
  constructor
  · intro h
    by_cases harc : arc = .empty
    · exact Or.inl harc
    · exact Or.inr (range_of_safe harc hmicros ht hmax h)
  · rintro (rfl | ⟨hpos, hle, hstart⟩)
    · exact Or.inr (completes_empty loc _ t st)
    · exact Or.inr (completes_of_range hpos hle hstart hmicros ht hlatest)

theorem startInRange_empty (loc : LocCb) (f : Nat) (arc : DhtArc) :
    StartInRange loc f arc OpStore.empty := by
  constructor
  · intro id hid
    simp [OpStore.empty] at hid
  · intro _ e he
    simp [OpStore.empty, OpStore.earliestInArc] at he

/-- The factor of the DHT on a full sector and an empty store. -/
theorem arithmetic_safe_fourteen :
    Safe (fun _ => 0) (14 : UInt8).toNat 1700000000000000 .full OpStore.empty :=
  (arithmetic_safe_iff (fun _ => 0) 14 1700000000000000 .full OpStore.empty (by decide) (by decide)
    (by simp [MachineTimes, OpStore.empty])).mpr
    (Or.inr ⟨by decide, by decide, startInRange_empty _ _ _⟩)

/-- The first factor past the documented range, at the epoch. -/
theorem arithmetic_unsafe_54 : ¬ Safe (fun _ => 0) (54 : UInt8).toNat 0 .full OpStore.empty := by
  intro h
  have hrange := range_of_safe (by decide) (by simp [MachineTimes, OpStore.empty]) (le_refl 0)
    (by decide) h
  exact absurd hrange.2.1 (by decide)

end TimePartition

end Dht
end Kitsune2
