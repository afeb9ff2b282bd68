import Kitsune2.Dht.ExactTime

/-!
# RangedUpdate — updates that do not overflow

A call to the store may fail, and hashes may refuse to combine, so an update may stop at many places.
Wherever it stops, on a partition whose slices lie between the epoch and a limit it has not
overflowed up to there, and it leaves a partition of that kind.  `Settles` is the form in which both
are carried through the loops.
-/

namespace Kitsune2
namespace Dht

open Api Lib

variable {loc : LocCb} {f : Nat} {arc : DhtArc} {t limit : Int} {tp : TimePartition}

/-! ## Faults that are not overflows -/

/-- What a checked operation panics with when its result does not fit. -/
def overflowReasons : List String :=
  [ "attempt to add with overflow", "attempt to subtract with overflow",
    "attempt to multiply with overflow", "attempt to shift left with overflow",
    "overflow when adding durations" ]

/-- The computation did not stop in an overflow.  It may have stopped for another reason: a call to
the store that failed, say. -/
def NoOverflow {α : Type} (r : Except Fault α) : Prop :=
  Meets (fun _ => True) (fun e => ∀ reason ∈ overflowReasons, e ≠ .panicked reason) r

theorem noOverflow_ok {α : Type} (a : α) : NoOverflow (.ok a : Except Fault α) :=
  Meets.ok trivial

theorem noOverflow_k2 {α : Type} (message : String) :
    NoOverflow (.error (.k2 message) : Except Fault α) :=
  Meets.error fun _ _ => nofun

theorem noOverflow_combine (hashes : List Bytes) : NoOverflow (combineOpHashes hashes) := by
  unfold combineOpHashes
  cases hashes with
  | nil =>
      exact noOverflow_ok _
  | cons first rest =>
      have hloop : Meets (fun _ => True) (fun e => ∀ reason ∈ overflowReasons, e ≠ .panicked reason)
          ((first :: rest).foldlM combineHashes (List.replicate first.length 0)) := by
        refine foldlM_meets _ _ trivial ?_
        intro into other _ _
        unfold combineHashes
        split
        · exact Meets.ok trivial
        · split
          · exact Meets.error (by decide)
          · exact Meets.ok trivial
      exact hloop

/-! ## Runs that keep a property of the partition -/

/-- `m`, run from `env`, does not overflow, and leaves a partition with `I` however it ends. -/
def Settles {α : Type} (I : TimePartition → Prop) (m : PartM α) (env : SectorEnv) : Prop :=
  Ends m env fun r env' => NoOverflow r ∧ I env'.part

section Settles

variable {α β : Type} {I J : TimePartition → Prop} {env : SectorEnv}

theorem settles_pure {a : α} (h : I env.part) : Settles I (pure a : PartM α) env :=
  ⟨noOverflow_ok a, h⟩

theorem Settles.bind {m : PartM β} {g : β → PartM α} (hm : Settles I m env)
    (hmono : ∀ tp, I tp → J tp)
    (hg : ∀ b env', Returns m env b env' → I env'.part → Settles J (g b) env') :
    Settles J (m >>= g) env := by
  refine ends_bind ?_ ?_
  · intro e env' hrun
    rcases hm.of_run hrun with ⟨hfault, hI⟩
    exact ⟨Meets.error (hfault.2 e rfl), hmono _ hI⟩
  · intro b env' hrun
    exact hg b env' hrun (hm.of_run hrun).2

theorem settles_lift_bind {x : Except Fault β} {g : β → PartM α} (hx : NoOverflow x)
    (hI : I env.part) (hg : ∀ b, x = .ok b → Settles I (g b) env) :
    Settles I (Eff.lift x >>= g) env :=
  ends_lift_bind (fun e he => ⟨Meets.error (hx.2 e he), hI⟩) hg

/-- A read of the store fails with an error of the store, if at all. -/
theorem ends_query (q : OpStore → α) (st : OpStore) :
    Ends (query q) st fun r _ => NoOverflow r := by
  unfold Ends query
  rw [bind_run]
  unfold storeCall
  rcases hfail : st.failures with _ | ⟨fails, rest⟩
  · exact noOverflow_ok _
  · cases fails with
    | false => exact noOverflow_ok _
    | true => exact noOverflow_k2 _

theorem settles_query (q : OpStore → α) (h : I env.part) : Settles I (onStore (query q)) env := by
  rcases hrun : query q env.store with ⟨r, st⟩
  have hr := (ends_query q env.store).of_run hrun
  unfold Settles Ends onStore Eff.zoom
  rw [hrun]
  exact ⟨hr, h⟩

theorem settles_storeFullSlice (arc : DhtArc) (i : Nat) (hash : Bytes) (h : I env.part) :
    Settles I (TimePartition.storeFullSlice arc i hash) env := by
  unfold TimePartition.storeFullSlice
  by_cases hnil : hash = []
  · rw [if_pos hnil]
    exact settles_pure h
  · rw [if_neg hnil]
    unfold Settles Ends onStore Eff.zoom storeSliceHash
    rw [bind_run]
    unfold storeCall
    rcases hfail : env.store.failures with _ | ⟨fails, rest⟩
    · simp only [if_neg hnil]
      exact ⟨noOverflow_ok _, h⟩
    · cases fails with
      | false =>
          simp only [if_neg hnil]
          exact ⟨noOverflow_ok _, h⟩
      | true => exact ⟨noOverflow_k2 _, h⟩

theorem settles_each {γ : Type} {body : γ → PartM Unit} :
    ∀ (l : List γ) {env : SectorEnv}, I env.part →
      (∀ c ∈ l, ∀ env, I env.part → Settles I (body c) env) → Settles I (Eff.each body l) env := by
  intro l
  induction l with
  | nil =>
      intro env h _
      exact settles_pure h
  | cons c l ih =>
      intro env h hbody
      refine (hbody c (by simp) env h).bind (fun _ hI => hI) ?_
      intro _ env' _ h'
      exact ih h' fun c' hc' => hbody c' (by simp [hc'])

end Settles

/-! ## Updates -/

/-- A partition whose slices lie between the epoch and `limit`. -/
structure InRange (f : Nat) (arc : DhtArc) (limit : Int) (tp : TimePartition) : Prop where
  shape : Shape f arc tp
  full : fullEnd f tp.fullSlices ≤ limit
  partials : ∀ p ∈ tp.partialSlices, TimePartition.SlotWithin limit p.slot

theorem InRange.of_sameButHashes {tp' : TimePartition} (h : InRange f arc limit tp)
    (hsame : SameButHashes tp tp') : InRange f arc limit tp' := by
  have hrest := hsame.rest
  refine ⟨?_, ?_, ?_⟩
  · rw [hrest]
    exact ⟨h.shape.factor, h.shape.fullSliceDuration, h.shape.minRecentTime,
      h.shape.sectorConstraint⟩
  · rw [hrest]
    exact h.full
  · intro p hp
    have hslot : p.slot ∈ tp'.partialSlices.map PartialSlice.slot := List.mem_map_of_mem hp
    rw [hsame.slots] at hslot
    rcases List.mem_map.mp hslot with ⟨q, hq, heq⟩
    rw [← heq]
    exact h.partials q hq

namespace TimePartition

section Update

variable {env : SectorEnv}

/-- The loop of `update_full_slice_hashes`: each new full slice ends in range. -/
theorem settles_addFullSlices (hlimit : limit ≤ i64Max) :
    ∀ (count : Nat) {env : SectorEnv}, InRange f arc limit env.part →
      fullEnd f (env.part.fullSlices + count) ≤ limit →
      Settles (InRange f arc limit)
        (addFullSlices loc count (fullEnd f env.part.fullSlices)) env := by
  intro count
  induction count with
  | zero =>
      intro env h _
      exact settles_pure h
  | succ count ih =>
      intro env h hroom
      have hnext : fullEnd f (env.part.fullSlices + 1) ≤ limit :=
        le_trans (fullEnd_mono (by omega)) hroom
      have hstop : addDuration (fullEnd f env.part.fullSlices) env.part.fullSliceDuration =
          .ok (fullEnd f (env.part.fullSlices + 1)) := by
        rw [h.shape.fullSliceDuration, addDuration_of_le (fullEnd_nonneg _ _)
          (by rw [← fullEnd_succ]; exact le_trans hnext hlimit), ← fullEnd_succ]
      rw [addFullSlices]
      refine ends_read_bind_iff.mpr (ends_lift_ok_bind hstop ?_)
      -- up to the count the partition is the one we started with
      refine Settles.bind (I := fun tp => tp = env.part) (settles_query _ rfl)
        (fun tp htp => htp ▸ h) ?_
      intro ops env1 _ hpart1
      refine settles_lift_bind (noOverflow_combine _) (hpart1 ▸ h) ?_
      intro hash _
      refine Settles.bind (I := fun tp => tp = env.part)
        (settles_storeFullSlice _ _ _ hpart1) (fun tp htp => htp ▸ h) ?_
      intro _ env2 _ hpart2
      refine ends_modify_bind_iff.mpr ?_
      have hin : InRange f arc limit ({ env2 with
          part := { env2.part with fullSlices := env2.part.fullSlices + 1 } } : SectorEnv).part := by
        simp only [hpart2]
        exact ⟨shape_grown h.shape 1, hnext, h.partials⟩
      have hfs : env2.part.fullSlices = env.part.fullSlices := by rw [hpart2]
      rw [← hfs]
      refine ih hin ?_
      show fullEnd f (env2.part.fullSlices + 1 + count) ≤ limit
      rw [hfs, Nat.add_assoc, Nat.add_comm 1 count]
      exact hroom

theorem noOverflow_layoutFullSlices (hs : Shape f arc tp) (hfit : fullEnd f tp.fullSlices ≤ i64Max)
    (ht : t ≤ i64Max) : NoOverflow (tp.layoutFullSlices t) := by
  by_cases hle : fullEnd f tp.fullSlices ≤ t
  · rcases layoutFullSlices_ok hs hle ht with ⟨count, hcount, _⟩
    rw [hcount]
    exact noOverflow_ok count
  · -- a time before the end of the full slices is reported
    have hend := fullSliceEndTimestamp_ok hs hfit
    simp only [layoutFullSlices, hend, bind, Except.bind, elapsed, if_pos (not_le.mp hle)]
    exact noOverflow_k2 _

theorem settles_updateFullSliceHashes (h : InRange f arc limit env.part) (ht : t ≤ limit)
    (hlimit : limit ≤ i64Max) :
    Settles (InRange f arc limit) (updateFullSliceHashes loc t) env := by
  have hfit := le_trans h.full hlimit
  have hend := fullSliceEndTimestamp_ok h.shape hfit
  refine ends_read_bind_iff.mpr (settles_lift_bind ?_ h ?_)
  · exact noOverflow_layoutFullSlices h.shape hfit (le_trans ht hlimit)
  · intro count hcount
    refine ends_lift_ok_bind hend (settles_addFullSlices hlimit count h ?_)
    exact le_trans (layoutFullSlices_grown h.shape hfit (le_trans ht hlimit) hcount) ht

theorem settles_partialHash {I : TimePartition → Prop} {slot : Int × Nat} (old : List PartialSlice)
    (earliest : Option Int) (hslot : SlotFits slot) (h : I env.part) :
    Settles I (partialHash loc old earliest slot) env := by
  rcases slotStop_ok hslot with ⟨hdur, hstop⟩
  unfold partialHash
  cases findPartial old slot.1 slot.2 with
  | some hash =>
      exact settles_pure h
  | none =>
      refine ends_lift_ok_bind hdur (ends_lift_ok_bind hstop ?_)
      cases earliest with
      | none =>
          exact settles_pure h
      | some e =>
          by_cases hge : slot.1 + slotLen slot.2 ≥ e
          · simp only [if_pos hge]
            refine ends_read_bind_iff.mpr ((settles_query _ h).bind (fun _ hI => hI) ?_)
            intro ops env1 _ h1
            exact ⟨noOverflow_combine _, h1⟩
          · simp only [if_neg hge]
            exact settles_pure h

theorem settles_pushPartial {slot : Int × Nat} (old : List PartialSlice) (earliest : Option Int)
    (hslot : SlotWithin limit slot) (hlimit : limit ≤ i64Max) (h : InRange f arc limit env.part) :
    Settles (InRange f arc limit) (pushPartial loc old earliest slot) env := by
  refine (settles_partialHash old earliest (hslot.fits hlimit) h).bind (fun _ hI => hI) ?_
  intro hash env1 _ h1
  refine ⟨noOverflow_ok (), ⟨h1.shape.factor, h1.shape.fullSliceDuration, h1.shape.minRecentTime,
    h1.shape.sectorConstraint⟩, h1.full, ?_⟩
  intro p hp
  rcases List.mem_append.mp hp with hold | hnew
  · exact h1.partials p hold
  · rw [List.mem_singleton.mp hnew]
    exact hslot

theorem settles_updatePartials (hf : f ≤ 53) (earliest : Option Int)
    (h : InRange f arc limit env.part) (ht : t ≤ limit) (hlimit : limit ≤ i64Max)
    (hle : fullEnd f env.part.fullSlices ≤ t) :
    Settles (InRange f arc limit) (updatePartials loc earliest t) env := by
  have hnonneg := fullEnd_nonneg f env.part.fullSlices
  refine ends_read_bind_iff.mpr ?_
  refine ends_lift_ok_bind (fullSliceEndTimestamp_ok h.shape (le_trans h.full hlimit)) ?_
  refine ends_lift_ok_bind
    (layoutPartials_ok hf h.shape hnonneg hle (le_trans ht hlimit)) (ends_modify_bind_iff.mpr ?_)
  refine settles_each _ ?_ ?_
  · exact ⟨⟨h.shape.factor, h.shape.fullSliceDuration, h.shape.minRecentTime,
      h.shape.sectorConstraint⟩, h.full, nofun⟩
  · intro slot hslot env1 h1
    have hwithin := slotWithin_partialLayout hf hnonneg hle hslot
    exact settles_pushPartial _ _ ⟨hwithin.1, le_trans hwithin.2.1 ht, hwithin.2.2⟩ hlimit h1

theorem settles_scheduleNextUpdate (h : InRange f arc limit env.part)
    (hlimit : limit + unitTime ≤ i64Max) :
    Settles (InRange f arc limit) scheduleNextUpdate env := by
  refine ends_read_bind_iff.mpr ?_
  cases hlast : env.part.partialSlices.getLast? with
  | none =>
      exact settles_pure h
  | some last =>
      have hwithin := h.partials last (List.mem_of_getLast? hlast)
      have hhigh : last.start + slotLen last.size ≤ limit := hwithin.2.1
      have hlow : 0 ≤ last.start := hwithin.1
      have hlen := slotLen_pos last.size
      refine ends_lift_ok_bind (stop_ok (hwithin.fits (by omega))) ?_
      refine ends_lift_ok_bind (addDuration_of_le (by omega) (by omega)) ?_
      exact ⟨noOverflow_ok (), ⟨h.shape.factor, h.shape.fullSliceDuration, h.shape.minRecentTime,
        h.shape.sectorConstraint⟩, h.full, h.partials⟩

/-- An update at any time up to `limit`, on any store, does not overflow, and leaves the partition in
range also when it stops early. -/
theorem settles_update (hf : f ≤ 53) (h : InRange f arc limit env.part) (ht : t ≤ limit)
    (hlimit : limit + unitTime ≤ i64Max) :
    Settles (InRange f arc limit) (update loc t) env := by
  have hmax : limit ≤ i64Max := by omega
  have htmax := le_trans ht hmax
  refine (settles_updateFullSliceHashes h ht hmax).bind (fun _ hI => hI) ?_
  intro _ env1 hfull h1
  rcases returns_updateFullSliceHashes h.shape (le_trans h.full hmax) htmax hfull with
    ⟨_, hpart, hafter, _, _⟩
  have hle : fullEnd f env1.part.fullSlices ≤ t := by
    rw [hpart]
    exact hafter
  -- the read of the earliest timestamp leaves the partition as it is
  refine ends_read_bind_iff.mpr (Settles.bind (I := fun tp => tp = env1.part)
    (settles_query _ rfl) (fun tp htp => htp ▸ h1) ?_)
  intro earliest env2 _ hpart2
  have h2 : InRange f arc limit env2.part := by
    rw [hpart2]
    exact h1
  have hle2 : fullEnd f env2.part.fullSlices ≤ t := by
    rw [hpart2]
    exact hle
  refine (settles_updatePartials hf earliest h2 ht hmax hle2).bind (fun _ hI => hI) ?_
  intro _ env3 _ h3
  exact settles_scheduleNextUpdate h3 hlimit

end Update

end TimePartition

end Dht
end Kitsune2
