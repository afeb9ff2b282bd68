import Kitsune2.Dht.EarlyUpdate

/-!
# FailedUpdate — an update stopped by a failing store call

`HashPartition::update` walks the sectors one by one and leaves with the first error, and a sector
that was updated before the failing call stays updated.  So an update that has anything to do can
stop with some sectors at the new time and the others at the old one: the first call for the second
sector is such a place whatever the state.  An update that is not due lays out nothing, and there a
failing call does no harm.
-/

namespace Kitsune2
namespace Dht

open Api Lib

variable {loc : LocCb} {f n k : Nat} {arc : DhtArc} {t t0 : Int} {tp tp' : TimePartition}

/-! ## Failure schedules -/

def OpStore.withFailures (failures : List Bool) (st : OpStore) : OpStore :=
  { st with failures := failures }

def SectorEnv.withFailures (failures : List Bool) (env : SectorEnv) : SectorEnv :=
  { env with store := env.store.withFailures failures }

def HashEnv.withFailures (failures : List Bool) (env : HashEnv) : HashEnv :=
  { env with store := env.store.withFailures failures }

theorem answered_storeCall : Answered OpStore.withFailures storeCall := by
  intro st _ st' hret
  cases hret
  exact ⟨1, st, rfl, fun _ => rfl⟩

theorem answered_query {α : Type} {q : OpStore → α}
    (hq : ∀ failures st, q (st.withFailures failures) = q st) :
    Answered OpStore.withFailures (query q) := by
  refine answered_storeCall.bind fun _ => answered_read_bind ?_ fun _ => answered_pure _
  intro failures st
  rw [hq]

theorem answered_storeSliceHash (arc : DhtArc) (i : Nat) (hash : Bytes) :
    Answered OpStore.withFailures (storeSliceHash arc i hash) := by
  refine answered_storeCall.bind fun _ => ?_
  by_cases hnil : hash = []
  · rw [if_pos hnil]
    exact answered_fail _
  · rw [if_neg hnil]
    exact answered_modify fun _ _ => rfl

theorem answered_onStore {α : Type} {m : StoreM α} (hm : Answered OpStore.withFailures m) :
    Answered SectorEnv.withFailures (onStore m) :=
  hm.zoom (fun _ _ => rfl) (fun _ _ _ _ => rfl)

theorem answered_modifyPart (g : TimePartition → TimePartition) :
    Answered SectorEnv.withFailures (modifyPart g) :=
  answered_modify fun _ _ => rfl

/-! ### The calls of an update -/

theorem answered_addFullSlices :
    ∀ (count : Nat) (start : Int),
      Answered SectorEnv.withFailures (TimePartition.addFullSlices loc count start) := by
  intro count
  induction count with
  | zero =>
      intro start
      exact answered_pure ()
  | succ count ih =>
      intro start
      refine answered_read_bind (fun _ _ => rfl) fun env => ?_
      refine (answered_lift _).bind fun stop => ?_
      refine (answered_onStore (answered_query fun _ _ => rfl)).bind fun ops => ?_
      refine (answered_lift _).bind fun hash => ?_
      have hstore : Answered SectorEnv.withFailures
          (TimePartition.storeFullSlice env.part.sectorConstraint env.part.fullSlices hash) := by
        unfold TimePartition.storeFullSlice
        by_cases hnil : hash = []
        · rw [if_pos hnil]
          exact answered_pure ()
        · rw [if_neg hnil]
          exact answered_onStore (answered_storeSliceHash _ _ _)
      exact hstore.bind fun _ => (answered_modifyPart _).bind fun _ => ih stop

theorem answered_partialHash (old : List PartialSlice) (earliest : Option Int) (slot : Int × Nat) :
    Answered SectorEnv.withFailures (TimePartition.partialHash loc old earliest slot) := by
  unfold TimePartition.partialHash
  cases TimePartition.findPartial old slot.1 slot.2 with
  | some hash =>
      exact answered_pure hash
  | none =>
      refine (answered_lift _).bind fun d => (answered_lift _).bind fun stop => ?_
      cases earliest with
      | none =>
          exact answered_pure _
      | some first =>
          by_cases hlate : stop ≥ first
          · simp only [if_pos hlate]
            refine answered_read_bind (fun _ _ => rfl) fun env => ?_
            exact (answered_onStore (answered_query fun _ _ => rfl)).bind fun ops => answered_lift _
          · simp only [if_neg hlate]
            exact answered_pure _

theorem answered_scheduleNextUpdate :
    Answered SectorEnv.withFailures TimePartition.scheduleNextUpdate := by
  refine answered_read_bind (fun _ _ => rfl) fun env => ?_
  cases env.part.partialSlices.getLast? with
  | none =>
      exact answered_pure ()
  | some last =>
      exact (answered_lift _).bind fun _ => (answered_lift _).bind fun _ => answered_modifyPart _

/-- An update that returns makes some number of calls, and needs no more than these answered. -/
theorem answered_update (loc : LocCb) (t : Int) :
    Answered SectorEnv.withFailures (TimePartition.update loc t) := by
  have hfull : Answered SectorEnv.withFailures (TimePartition.updateFullSliceHashes loc t) :=
    answered_read_bind (fun _ _ => rfl) fun env => (answered_lift _).bind fun count =>
      (answered_lift _).bind fun start => answered_addFullSlices count start
  have hpartials : ∀ earliest,
      Answered SectorEnv.withFailures (TimePartition.updatePartials loc earliest t) := by
    intro earliest
    refine answered_read_bind (fun _ _ => rfl) fun env => (answered_lift _).bind fun _ => ?_
    refine (answered_lift _).bind fun slots => (answered_modifyPart _).bind fun _ => ?_
    refine Answered.each (fun slot => ?_) slots
    exact (answered_partialHash _ _ slot).bind fun _ => answered_modifyPart _
  refine hfull.bind fun _ => answered_read_bind (fun _ _ => rfl) fun env => ?_
  refine (answered_onStore (answered_query fun _ _ => rfl)).bind fun earliest => ?_
  exact (hpartials earliest).bind fun _ => answered_scheduleNextUpdate

/-! ## What a failed update may leave -/

/-- The sector has `k` full slices and the partial slices of time `t`. -/
def SectorAt (f k : Nat) (t : Int) (tp : TimePartition) : Prop :=
  tp.fullSlices = k ∧ tp.partialSlices.map PartialSlice.slot = slotsAfter f k t

/-- The full slices after an update at `t`; a clock that went back takes none away. -/
def countAfter (f : Nat) (t0 t : Int) : Nat :=
  max (fullCount f t0) (fullCount f t)

/-- All sectors are at the old time or all are at the new one, and a partial slice that was there
before and still is there has its hash. -/
structure Harmless (f : Nat) (t0 t : Int) (env env' : HashEnv) : Prop where
  agree : (∀ tp ∈ env'.partition.sectors, SectorAt f (fullCount f t0) t0 tp) ∨
    ∀ tp ∈ env'.partition.sectors, SectorAt f (countAfter f t0 t) t tp
  kept : ∀ (i : Nat) (tp tp' : TimePartition), env.partition.sectors[i]? = some tp →
    env'.partition.sectors[i]? = some tp' → ∀ p ∈ tp.partialSlices,
      p.slot ∈ tp'.partialSlices.map PartialSlice.slot → p ∈ tp'.partialSlices

/-- At time `t` there is nothing to lay out: the clock is before the end of the full slices, or no
full slice is added and the partial slices stay where they are. -/
def NotDue (f : Nat) (t0 t : Int) : Prop :=
  t < fullEnd f (fullCount f t0) ∨
    (fullCount f t ≤ fullCount f t0 ∧ slotsAfter f (fullCount f t0) t = slotsAt f t0)

instance (f : Nat) (t0 t : Int) : Decidable (NotDue f t0 t) :=
  inferInstanceAs (Decidable (_ ∨ _))

/-! ## An update that is not due -/

/-- Nothing but the time of the next update differs. -/
def SameSlices (tp tp' : TimePartition) : Prop :=
  ∃ next, tp' = { tp with nextUpdateAt := next }

theorem SameSlices.refl (tp : TimePartition) : SameSlices tp tp :=
  ⟨tp.nextUpdateAt, rfl⟩

theorem SameSlices.trans {tp'' : TimePartition} (h : SameSlices tp tp') (h' : SameSlices tp' tp'') :
    SameSlices tp tp'' := by
  rcases h with ⟨_, rfl⟩
  rcases h' with ⟨next, rfl⟩
  exact ⟨next, rfl⟩

/-- An update of the sector at time `t` changes no slice. -/
def AtRest (f : Nat) (t : Int) (tp : TimePartition) : Prop :=
  ∃ arc, (Shape f arc tp ∧ t < fullEnd f tp.fullSlices ∧ fullEnd f tp.fullSlices ≤ i64Max) ∨
    UpToDate f arc t tp

theorem AtRest.of_sameSlices (h : AtRest f t tp) (hsame : SameSlices tp tp') : AtRest f t tp' := by
  rcases hsame with ⟨next, rfl⟩
  rcases h with ⟨arc, ⟨hs, hlt, hfit⟩ | hup⟩
  · exact ⟨arc, Or.inl ⟨⟨hs.factor, hs.fullSliceDuration, hs.minRecentTime, hs.sectorConstraint⟩,
      hlt, hfit⟩⟩
  · have hs := hup.shape
    exact ⟨arc, Or.inr ⟨⟨hs.factor, hs.fullSliceDuration, hs.minRecentTime, hs.sectorConstraint⟩,
      hup.counted, hup.before, hup.fits, hup.slots⟩⟩

theorem LaidOut.atRest {e : SectorEnv} (h : LaidOut f arc t0 e) (ht : t ≤ i64Max)
    (hdue : NotDue f t0 t) : AtRest f t e.part := by
  have hfit : fullEnd f (fullCount f t0) ≤ i64Max :=
    le_trans (fullEnd_fullCount_le_self h.nonneg) h.fits
  refine ⟨arc, ?_⟩
  by_cases hlt : t < fullEnd f (fullCount f t0)
  · left
    rw [h.fullSlices]
    exact ⟨h.shape, hlt, hfit⟩
  · right
    rcases hdue.resolve_left hlt with ⟨hcount, hslots⟩
    refine ⟨h.shape, by rw [h.fullSlices]; exact hcount, ?_, ht, ?_⟩
    · rw [h.fullSlices]
      exact not_lt.mp hlt
    · rw [h.fullSlices, h.slots]
      exact hslots

theorem ends_scheduleNextUpdate (env : SectorEnv) :
    Ends TimePartition.scheduleNextUpdate env fun _ env' => SameSlices env.part env'.part := by
  refine ends_read_bind_iff.mpr ?_
  cases env.part.partialSlices.getLast? with
  | none =>
      exact SameSlices.refl _
  | some last =>
      refine ends_lift_bind (fun _ _ => SameSlices.refl _) fun stop _ => ?_
      refine ends_lift_bind (fun _ _ => SameSlices.refl _) fun next _ => ?_
      exact ⟨next, rfl⟩

/-- Whatever call fails, no slice of the sector changes. -/
theorem AtRest.ends_update (loc : LocCb) (hf : f ≤ 53) (h : AtRest f t tp) (st : OpStore) :
    Ends (TimePartition.update loc t) { part := tp, store := st }
      fun _ env' => SameSlices tp env'.part := by
  rcases h with ⟨arc, ⟨hs, hlt, hfit⟩ | hup⟩
  · -- the time since the end of the full slices cannot be measured
    have hfull : ∀ r env', TimePartition.updateFullSliceHashes loc t { part := tp, store := st } =
        (r, env') → (∃ e, r = .error e) ∧ env'.part = tp := by
      intro r env' hrun
      have hends : Ends (TimePartition.updateFullSliceHashes loc t) { part := tp, store := st }
          fun r env' => (∃ e, r = .error e) ∧ env'.part = tp := by
        refine ends_read_bind_iff.mpr (ends_lift_bind (fun e _ => ⟨⟨e, rfl⟩, rfl⟩) ?_)
        intro count hcount
        exact absurd (layoutFullSlices_le hs hfit hcount) (not_le.mpr hlt)
      exact hends.of_run hrun
    refine ends_bind ?_ ?_
    · intro e env' hrun
      rw [(hfull _ _ hrun).2]
      exact SameSlices.refl tp
    · intro _ env' hrun
      rcases (hfull _ _ hrun).1 with ⟨e, he⟩
      cases he
  · have hread := ends_onStore_part (earliestTimestampInArc loc tp.sectorConstraint)
      { part := tp, store := st }
    refine ends_congr (hup.update_eq loc hf st) (ends_bind ?_ ?_)
    · intro e env' hrun
      rw [show env'.part = tp from hread.of_run hrun]
      exact SameSlices.refl tp
    · intro _ env' hrun
      have hpart : env'.part = tp := hread.of_run hrun
      rw [← hpart]
      exact ends_scheduleNextUpdate env'

/-- The sectors of `env'` are those of `env`, slice by slice. -/
def SameSectors (env env' : HashEnv) : Prop :=
  ∀ (i : Nat) (tp' : TimePartition), env'.partition.sectors[i]? = some tp' →
    ∃ tp, env.partition.sectors[i]? = some tp ∧ SameSlices tp tp'

theorem ends_update_sameSectors (hf : f ≤ 53) {env env1 : HashEnv}
    (hrest : ∀ tp ∈ env.partition.sectors, AtRest f t tp) (hsame : SameSectors env env1) :
    Ends (HashPartition.update loc t) env1 fun _ env' => SameSectors env env' := by
  refine ends_read_bind_iff.mpr ?_
  refine ends_each_invariant (I := SameSectors env) _ hsame ?_
  intro i _ env2 hinv
  unfold Ends onSector
  cases htp : env2.partition.sectors[i]? with
  | none =>
      exact hinv
  | some tp2 =>
      rcases hinv i tp2 htp with ⟨tp, hget, hslices⟩
      have hends : SameSlices tp2 _ := ((hrest tp (List.mem_of_getElem? hget)).of_sameSlices
        hslices).ends_update loc hf env2.store
      intro j tp' htp'
      simp only [List.getElem?_set] at htp'
      by_cases hij : i = j
      · subst hij
        have hlt : i < env2.partition.sectors.length := (List.getElem?_eq_some_iff.mp htp).1
        simp only [if_true, hlt, Option.some.injEq] at htp'
        rw [← htp']
        exact ⟨tp, hget, hslices.trans hends⟩
      · simp only [hij, if_false] at htp'
        exact hinv j tp' htp'

/-- An update that is not due leaves every slice alone, whether it returns or fails. -/
theorem PartitionLaidOut.harmless_of_notDue (hf : f ≤ 53) {env env' : HashEnv}
    (h : PartitionLaidOut f t0 env) (ht : t ≤ i64Max) (hdue : NotDue f t0 t) {failures : List Bool}
    {r : Except Fault Unit}
    (hrun : HashPartition.update loc t (env.withFailures failures) = (r, env')) :
    Harmless f t0 t env env' := by
  have hrest : ∀ tp ∈ env.partition.sectors, AtRest f t tp := by
    intro tp htp
    rcases h.of_mem htp with ⟨i, hlaid⟩
    exact hlaid.atRest ht hdue
  have hstart : SameSectors env (env.withFailures failures) :=
    fun i tp' hget => ⟨tp', hget, SameSlices.refl tp'⟩
  have hsame : SameSectors env env' := (ends_update_sameSectors hf hrest hstart).of_run hrun
  refine ⟨Or.inl ?_, ?_⟩
  · intro tp' htp'
    rcases List.mem_iff_getElem?.mp htp' with ⟨i, hi⟩
    rcases hsame i tp' hi with ⟨tp, hget, next, rfl⟩
    have hlaid := h.sector i tp hget
    exact ⟨hlaid.fullSlices, hlaid.slots⟩
  · intro i tp tp' hget hget' p hp _
    rcases hsame i tp' hget' with ⟨tp1, hget1, next, rfl⟩
    rw [hget] at hget1
    cases hget1
    exact hp

/-! ## An update that is due -/

theorem ends_first_call {α β : Type} {g : α → PartM β} (q : OpStore → α) (env : SectorEnv)
    (rest : List Bool) :
    Ends (onStore (query q) >>= g) (env.withFailures (true :: rest)) fun r env' =>
      (∃ e, r = .error e) ∧ env' = env.withFailures rest :=
  ⟨⟨_, rfl⟩, rfl⟩

/-- If the first call of a sector's update fails, the sector is as it was. -/
theorem ends_update_first_call (loc : LocCb) {env : SectorEnv} (hs : Shape f arc env.part)
    (hle : fullEnd f env.part.fullSlices ≤ t) (ht : t ≤ i64Max) (rest : List Bool) :
    Ends (TimePartition.update loc t) (env.withFailures (true :: rest)) fun r env' =>
      (∃ e, r = .error e) ∧ env' = env.withFailures rest := by
  rcases layoutFullSlices_ok hs hle ht with ⟨count, hcount, hmax⟩
  have hend := fullSliceEndTimestamp_ok hs (le_trans hle ht)
  cases count with
  | zero =>
      -- no full slice is due, and the first call reads the earliest timestamp
      have hnone : Returns (TimePartition.updateFullSliceHashes loc t)
          (env.withFailures (true :: rest)) () (env.withFailures (true :: rest)) := by
        refine returns_read_bind_iff.mpr (returns_lift_bind_iff.mpr ⟨0, hcount, ?_⟩)
        exact returns_lift_bind_iff.mpr ⟨_, hend, returns_pure_iff.mpr ⟨rfl, rfl⟩⟩
      refine hnone.ends_bind (ends_read_bind_iff.mpr ?_)
      exact ends_first_call _ env rest
  | succ count =>
      -- the first call reads the ops of the first new full slice
      have hfit : fullEnd f (env.part.fullSlices + 1) ≤ i64Max :=
        le_trans (fullEnd_mono (by omega)) (le_trans (fullEnd_max_le hle) ht)
      have hstop : addDuration (fullEnd f env.part.fullSlices) env.part.fullSliceDuration =
          .ok (fullEnd f (env.part.fullSlices + 1)) := by
        rw [hs.fullSliceDuration, addDuration_of_le (fullEnd_nonneg _ _)
          (by rw [← fullEnd_succ]; exact hfit), ← fullEnd_succ]
      have hloop : Ends (TimePartition.updateFullSliceHashes loc t)
          (env.withFailures (true :: rest)) fun r env' =>
            (∃ e, r = .error e) ∧ env' = env.withFailures rest := by
        refine ends_read_bind_iff.mpr (ends_lift_ok_bind hcount (ends_lift_ok_bind hend ?_))
        rw [TimePartition.addFullSlices]
        refine ends_read_bind_iff.mpr (ends_lift_ok_bind hstop ?_)
        exact ends_first_call _ env rest
      refine ends_bind ?_ ?_
      · intro e env' hrun
        exact ⟨⟨e, rfl⟩, (hloop.of_run hrun).2⟩
      · intro _ env' hrun
        rcases (hloop.of_run hrun).1 with ⟨e, he⟩
        cases he

/-- The last slot of a layout ends by the time it is made for. -/
theorem slotsAfter_last_le {k : Nat} (hle : fullEnd f k ≤ t) {slot : Int × Nat}
    (hslot : (slotsAfter f k t).getLast? = some slot) : slot.1 + slotLen slot.2 ≤ t := by
  rcases tiles_partialLayout f (fullEnd f k) (t - fullEnd f k).toNat with ⟨stop, htiles, hstop⟩
  rw [Int.toNat_of_nonneg (sub_nonneg.mpr hle)] at hstop
  have hbounds := htiles.bounds slotLen_pos (List.mem_of_getLast? hslot)
  linarith [hbounds.2]

/-- With its calls answered, a sector is brought to the new time, and the rest of the schedule is
left for the next sector. -/
theorem LaidOut.update_answered (loc : LocCb) (hf : f ≤ 53) {e : SectorEnv} (h : LaidOut f arc t0 e)
    (hids : IdsOfLength n e.store.stored) (hroom : t + unitTime ≤ i64Max)
    (hle : fullEnd f (fullCount f t0) ≤ t) :
    ∃ (k : Nat) (out : SectorEnv), SectorAt f (countAfter f t0 t) t out.part ∧
      ∀ rest, Returns (TimePartition.update loc t)
        (e.withFailures (List.replicate k false ++ rest)) () (out.withFailures rest) := by
  have hunit : (0 : Int) ≤ unitTime := Int.natCast_nonneg _
  have ht : t ≤ i64Max := by linarith
  have hbefore : fullEnd f (e.withFailures []).part.fullSlices ≤ t := by
    show fullEnd f e.part.fullSlices ≤ t
    rw [h.fullSlices]
    exact hle
  have hnext : ∀ slot, (slotsAfter f (max (e.withFailures []).part.fullSlices (fullCount f t))
      t).getLast? = some slot → slot.1 + slotLen slot.2 + unitTime ≤ i64Max := by
    intro slot hslot
    have hlast := slotsAfter_last_le (fullEnd_max_le hbefore) hslot
    linarith
  -- without failures the update returns, and it needs only so many calls answered
  rcases @update_returns_of_le loc f n arc t hf (e.withFailures []) h.shape rfl hids hbefore ht hnext
    with ⟨env', hret, _⟩
  rcases answered_update loc t e () env' hret with ⟨k, out, rfl, hrun⟩
  refine ⟨k, out, ?_, hrun⟩
  have hs : Shape f arc (e.withFailures []).part := h.shape
  have hup := returns_update hf hs (le_trans hbefore ht) ht hret
  -- what is laid out then is what an update without failures lays out
  have hcount : out.part.fullSlices = countAfter f t0 t := by
    have hfs : out.part.fullSlices = max e.part.fullSlices (fullCount f t) := hup.fullSlices
    rw [hfs, h.fullSlices]
    rfl
  refine ⟨hcount, ?_⟩
  have hslots := hup.slots
  rw [show (out.withFailures []).part.fullSlices = countAfter f t0 t from hcount] at hslots
  exact hslots

/-- An update with the first call for the second sector failing leaves the first sector at the new
time and the second one at the old. -/
theorem PartitionLaidOut.stops_between_sectors (loc : LocCb) (hf : f ≤ 53) {env : HashEnv}
    (h : PartitionLaidOut f t0 env) (hids : IdsOfLength n env.store.stored)
    (hroom : t + unitTime ≤ i64Max) (hle : fullEnd f (fullCount f t0) ≤ t) :
    ∃ failures e env', HashPartition.update loc t (env.withFailures failures) = (.error e, env') ∧
      (∃ tp ∈ env'.partition.sectors, SectorAt f (countAfter f t0 t) t tp) ∧
      ∃ tp ∈ env'.partition.sectors, SectorAt f (fullCount f t0) t0 tp := by
  have hunit : (0 : Int) ≤ unitTime := Int.natCast_nonneg _
  have ht : t ≤ i64Max := by linarith
  have hlt0 : 0 < env.partition.sectors.length := by
    rw [h.length]
    decide
  have hlt1 : 1 < env.partition.sectors.length := by
    rw [h.length]
    decide
  rcases List.getElem?_eq_some_iff.mpr ⟨hlt0, rfl⟩ with hget0
  rcases List.getElem?_eq_some_iff.mpr ⟨hlt1, rfl⟩ with hget1
  have hlaid0 : LaidOut f (sectorArc 0) t0 { part := env.partition.sectors[0], store := env.store } :=
    h.sector 0 _ hget0
  have hlaid1 : LaidOut f (sectorArc 1) t0 { part := env.partition.sectors[1], store := env.store } :=
    h.sector 1 _ hget1
  rcases hlaid0.update_answered loc hf hids hroom hle with ⟨k, out, hat, hrun⟩
  have hbefore : fullEnd f env.partition.sectors[1].fullSlices ≤ t := by
    rw [show env.partition.sectors[1].fullSlices = fullCount f t0 from hlaid1.fullSlices]
    exact hle
  -- the first sector is updated, and one failing call is left on the schedule
  have hfirst : Returns (onSector 0 (TimePartition.update loc t))
      (env.withFailures (List.replicate k false ++ [true])) ()
      { partition := { env.partition with sectors := env.partition.sectors.set 0 out.part }
        store := out.store.withFailures [true] } :=
    returns_onSector_iff.mpr ⟨_, _, hget0, hrun [true], rfl⟩
  -- the second sector stops at once
  have hsecond : ∃ e, onSector 1 (TimePartition.update loc t)
      { partition := { env.partition with sectors := env.partition.sectors.set 0 out.part }
        store := out.store.withFailures [true] } =
      (.error e, { partition := { env.partition with
                     sectors := (env.partition.sectors.set 0 out.part).set 1 env.partition.sectors[1] }
                   store := out.store.withFailures [] }) := by
    have hget : (env.partition.sectors.set 0 out.part)[1]? = some env.partition.sectors[1] := by
      rw [List.getElem?_set_ne (by decide)]
      exact hget1
    have hstop : Ends (TimePartition.update loc t)
        { part := env.partition.sectors[1], store := out.store.withFailures [true] } fun r env' =>
          (∃ e, r = .error e) ∧
            env' = { part := env.partition.sectors[1], store := out.store.withFailures [] } :=
      @ends_update_first_call f (sectorArc 1) t loc
        { part := env.partition.sectors[1], store := out.store } hlaid1.shape hbefore ht []
    rcases hm : TimePartition.update loc t
      { part := env.partition.sectors[1], store := out.store.withFailures [true] } with ⟨r, env'⟩
    rcases hstop.of_run hm with ⟨⟨e, rfl⟩, rfl⟩
    refine ⟨e, ?_⟩
    simp only [onSector, hget, hm]
  rcases hsecond with ⟨e, hsecond⟩
  have hrange : List.range env.partition.sectors.length = 0 :: 1 :: List.range' 2 510 := by
    rw [h.length, List.range_eq_range', show numSectors = 510 + 1 + 1 from rfl, List.range'_succ,
      List.range'_succ]
  have hwhole : HashPartition.update loc t (env.withFailures (List.replicate k false ++ [true])) =
      (.error e, { partition := { env.partition with
                     sectors := (env.partition.sectors.set 0 out.part).set 1 env.partition.sectors[1] }
                   store := out.store.withFailures [] }) := by
    show Eff.each (fun i => onSector i (TimePartition.update loc t))
      (List.range env.partition.sectors.length) _ = _
    rw [hrange]
    exact (hfirst.bind_run _).trans (bind_run_error hsecond _)
  refine ⟨_, e, _, hwhole, ⟨out.part, ?_, hat⟩, env.partition.sectors[1], ?_,
    hlaid1.fullSlices, hlaid1.slots⟩
  · refine List.mem_of_getElem? (i := 0) ?_
    rw [List.getElem?_set_ne (by decide), List.getElem?_set_self hlt0]
  · exact List.mem_set (by rw [List.length_set]; exact hlt1) _

/-- A sector at both times is possible only if the two layouts are equal. -/
theorem notDue_of_sectorAt (hold : SectorAt f (fullCount f t0) t0 tp)
    (hnew : SectorAt f (countAfter f t0 t) t tp) : NotDue f t0 t := by
  have hcount : fullCount f t0 = countAfter f t0 t := hold.1.symm.trans hnew.1
  refine Or.inr ⟨?_, ?_⟩
  · rw [hcount]
    exact Nat.le_max_right _ _
  · rw [hcount]
    exact hnew.2.symm.trans hold.2

theorem PartitionLaidOut.harmful_of_due (loc : LocCb) (hf : f ≤ 53) {env : HashEnv}
    (h : PartitionLaidOut f t0 env) (hids : IdsOfLength n env.store.stored)
    (hroom : t + unitTime ≤ i64Max) (hdue : ¬ NotDue f t0 t) :
    ∃ failures e env', HashPartition.update loc t (env.withFailures failures) = (.error e, env') ∧
      ¬ Harmless f t0 t env env' := by
  rcases h.stops_between_sectors loc hf hids hroom (not_lt.mp fun hlt => hdue (Or.inl hlt))
    with ⟨failures, e, env', hrun, ⟨tp, htp, hnew⟩, tp', htp', hold⟩
  refine ⟨failures, e, env', hrun, ?_⟩
  intro hharmless
  rcases hharmless.agree with hall | hall
  · exact hdue (notDue_of_sectorAt (hall tp htp) hnew)
  · exact hdue (notDue_of_sectorAt hold (hall tp' htp'))

/-! ## Failed updates -/

/-- A partition laid out for `t0` survives every failing call of an update at `t` in exactly the
states in which that update is not due. -/
theorem failed_update_harmless_iff (hf : f ≤ 53) {env : HashEnv} (h : PartitionLaidOut f t0 env)
    (hids : IdsOfLength n env.store.stored) (hroom : t + unitTime ≤ i64Max) :
    (∀ failures e env', HashPartition.update loc t (env.withFailures failures) = (.error e, env') →
      Harmless f t0 t env env') ↔ NotDue f t0 t := by
  constructor
  · intro hall
    by_contra hdue
    rcases h.harmful_of_due loc hf hids hroom hdue with ⟨failures, e, env', hrun, hharm⟩
    exact hharm (hall failures e env' hrun)
  · intro hdue failures e env' hrun
    have hunit : (0 : Int) ≤ unitTime := Int.natCast_nonneg _
    exact h.harmless_of_notDue hf (by linarith) hdue hrun

/-- A fresh node a quarter of an hour after the epoch, asked to update ten seconds later. -/
theorem failed_update_harmless_ten_seconds :
    ∃ env, History (fun _ => 0) 1 910000000 910000000 env ∧
      ∀ failures e env',
        HashPartition.update (fun _ => 0) 920000000 (env.withFailures failures) = (.error e, env') →
        Harmless 1 910000000 920000000 env env' := by
  rcases fresh_history 910000000 (by decide) (by decide) with ⟨env, hist, hempty⟩
  have hlaid := (hist.settled (le_refl 1) (by decide)).laidOut
  have hids : IdsOfLength 1 env.store.stored := by
    rw [hempty]
    exact fun op hop => nomatch hop
  exact ⟨env, hist, (failed_update_harmless_iff (by decide) hlaid hids (by decide)).mpr (by decide)⟩

/-- The same node, asked to update after the next quarter of an hour has passed. -/
theorem failed_update_harmful :
    ∃ env, History (fun _ => 0) 1 910000000 910000000 env ∧
      ∃ failures e env',
        HashPartition.update (fun _ => 0) 1810000000 (env.withFailures failures) = (.error e, env') ∧
        ¬ Harmless 1 910000000 1810000000 env env' := by
  rcases fresh_history 910000000 (by decide) (by decide) with ⟨env, hist, hempty⟩
  have hlaid := (hist.settled (le_refl 1) (by decide)).laidOut
  have hids : IdsOfLength 1 env.store.stored := by
    rw [hempty]
    exact fun op hop => nomatch hop
  exact ⟨env, hist, hlaid.harmful_of_due _ (by decide) hids (by decide) (by decide)⟩

end Dht
end Kitsune2
