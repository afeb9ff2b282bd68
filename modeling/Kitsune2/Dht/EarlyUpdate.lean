import Kitsune2.Dht.RecentTime

/-!
# EarlyUpdate — an update before the next one is due

Between an update at `t` and `next_update_at` the number of full slices and the place and size of
every partial slice are constant: recent time has begun the same number of units.  An update in that
interval finds every slice among the old ones, so it makes a single call to the store, the read of
the earliest timestamp, and leaves the partition as it was.
-/

namespace Kitsune2
namespace Dht

open Api Lib

variable {loc : LocCb} {f n : Nat} {arc : DhtArc} {t t' stop : Int} {tp tp' : TimePartition}

/-! ## The layout within a unit -/

/-- The layout depends on recent time only through the units it has begun. -/
theorem partialLayout_eq_of_units (n : Nat) {start : Int} {recent recent' : Nat}
    (h : (recent - 1) / unitTime = (recent' - 1) / unitTime) :
    partialLayout n start recent = partialLayout n start recent' := by
  induction n generalizing start recent recent' with
  | zero =>
      rfl
  | succ i ih =>
      simp only [partialLayout, sliceCount_eq_of_units i h]
      congr 1
      exact ih (units_sub_sliceLen i _ h)

/-- Consecutive slots cover a whole number of units. -/
theorem tiles_units {l : List (Int × Nat)} {lo hi : Int} (h : Tiles slotLen lo l hi) :
    ∃ m : Nat, hi = lo + unitTime * m := by
  induction l generalizing lo with
  | nil =>
      have heq : lo = hi := h
      exact ⟨0, by rw [heq]; simp⟩
  | cons slot l ih =>
      rcases ih h.2 with ⟨m, hm⟩
      refine ⟨2 ^ slot.2 + m, ?_⟩
      rw [hm, slotLen, sliceLen]
      push_cast
      ring

/-- Up to `next_update_at` no full slice is added and the partial slices stay where they are. -/
theorem Scheduled.layout_eq (h : Scheduled f arc t tp stop) (hle : t ≤ t')
    (hlt : t' < tp.nextUpdateAt) :
    fullCount f t' ≤ tp.fullSlices ∧
      partialLayout f (fullEnd f tp.fullSlices) (t' - fullEnd f tp.fullSlices).toNat =
        tp.partialSlices.map PartialSlice.slot := by
  rcases tiles_units h.tiles with ⟨m, hm⟩
  have hpos := h.tail_pos
  have htail := h.tail_le
  rw [h.next] at hlt
  constructor
  · by_contra hcon
    -- a full slice that fits at `t'` would have fitted in the units begun at `t` already
    have hfit := lt_fullCount_iff.mp (not_le.mp hcon)
    refine absurd h.counted (not_le.mpr (lt_fullCount_iff.mpr ?_))
    have hunits : fullEnd f (tp.fullSlices + 1) + recentLen f =
        fullEnd f tp.fullSlices + unitTime * ((2 ^ f + (2 ^ f - 1) : Nat) : Int) := by
      rw [fullEnd_succ, recentLen, sliceLen]
      push_cast
      ring
    rw [hunits] at hfit ⊢
    generalize 2 ^ f + (2 ^ f - 1) = k at hfit ⊢
    rw [unitTime_eq] at *
    omega
  · rw [h.slots]
    apply partialLayout_eq_of_units
    have hbefore := h.before
    rw [unitTime_eq] at *
    omega

/-! ## What may happen between two updates -/

/-- Nothing but the hashes of the partial slices differs. -/
structure SameButHashes (tp tp' : TimePartition) : Prop where
  rest : tp' = { tp with partialSlices := tp'.partialSlices }
  slots : tp'.partialSlices.map PartialSlice.slot = tp.partialSlices.map PartialSlice.slot

theorem SameButHashes.refl (tp : TimePartition) : SameButHashes tp tp :=
  ⟨rfl, rfl⟩

theorem SameButHashes.trans {tp'' : TimePartition} (h : SameButHashes tp tp')
    (h' : SameButHashes tp' tp'') :
    SameButHashes tp tp'' := by
  refine ⟨?_, h'.slots.trans h.slots⟩
  calc tp'' = { tp' with partialSlices := tp''.partialSlices } := h'.rest
    _ = { tp with partialSlices := tp''.partialSlices } := by rw [h.rest]

theorem ends_onStore_part {α : Type} (m : StoreM α) (env : SectorEnv) :
    Ends (onStore m) env fun _ env' => env'.part = env.part := by
  unfold Ends onStore Eff.zoom
  rcases m env.store with ⟨r, st⟩
  rfl

/-- A historical op goes to the store only. -/
theorem ends_informFull_part (op : StoredOp) (env : SectorEnv) :
    Ends (TimePartition.informFull op) env fun _ env' => env'.part = env.part := by
  refine ends_read_bind_iff.mpr ?_
  refine ends_lift_bind (fun _ _ => rfl) ?_
  intro index _
  have hread := ends_onStore_part
    (retrieveSliceHash env.part.sectorConstraint (wrapU64 index)) env
  refine ends_bind (fun _ _ h => hread.of_run h) ?_
  intro current env1 hrun
  have hpart : env1.part = env.part := hread.of_run hrun
  have hstore : ∀ hash, Ends
      (onStore (storeSliceHash env.part.sectorConstraint (wrapU64 index) hash)) env1
      fun _ env' => env'.part = env.part := by
    intro hash
    rw [← hpart]
    exact ends_onStore_part _ env1
  cases current with
  | none =>
      exact hstore op.opId
  | some hash =>
      exact ends_lift_bind (fun _ _ => hpart) fun combined _ => hstore combined

/-- A recent op changes the hash of a partial slice, or nothing. -/
theorem ends_informPartial_layout (op : StoredOp) (env : SectorEnv) :
    Ends (TimePartition.informPartial op) env fun _ env' => SameButHashes env.part env'.part := by
  refine ends_read_bind_iff.mpr ?_
  cases hlast : env.part.partialSlices.getLast? with
  | none =>
      exact SameButHashes.refl _
  | some last =>
      refine ends_lift_bind (fun _ _ => SameButHashes.refl _) ?_
      intro endOfPartials _
      by_cases hlate : op.createdAt ≥ endOfPartials
      · rw [if_pos hlate]
        exact SameButHashes.refl _
      · rw [if_neg hlate]
        refine ends_lift_bind (fun _ _ => SameButHashes.refl _) ?_
        intro partials hcomb
        show SameButHashes env.part { env.part with partialSlices := partials.reverse }
        refine ⟨rfl, ?_⟩
        have hslots := combineFirst_slots _ hcomb
        simp only [List.map_reverse, hslots, List.reverse_reverse]

/-- Informing, also when it stops early, leaves the layout alone. -/
theorem ends_informOpsStored_layout (ops : List StoredOp) (env : SectorEnv) :
    Ends (TimePartition.informOpsStored ops) env fun _ env' => SameButHashes env.part env'.part := by
  refine ends_read_bind_iff.mpr ?_
  refine ends_lift_bind (fun _ _ => SameButHashes.refl _) ?_
  intro fullEnd _
  refine ends_each_invariant (I := fun env' : SectorEnv => SameButHashes env.part env'.part) ops
    (SameButHashes.refl _) ?_
  intro op _ env1 hsame
  unfold TimePartition.informOp
  split
  · refine (ends_informFull_part op env1).mono ?_
    intro _ env2 hpart
    rw [hpart]
    exact hsame
  · exact hsame.trans (ends_informPartial_layout op env1)

/-- What a node may do to a sector between two updates: the host changes its store in any way, and
the sector is told of stored ops, whatever comes of it. -/
inductive Meanwhile : SectorEnv → SectorEnv → Prop
  | refl (env : SectorEnv) : Meanwhile env env
  | stored {env env' : SectorEnv} (st : OpStore) :
      Meanwhile env env' → Meanwhile env { env' with store := st }
  | informed {env env' : SectorEnv} (ops : List StoredOp) :
      Meanwhile env env' → Meanwhile env (TimePartition.informOpsStored ops env').2

theorem Meanwhile.sameButHashes {env env' : SectorEnv} (h : Meanwhile env env') :
    SameButHashes env.part env'.part := by
  induction h with
  | refl => exact SameButHashes.refl _
  | stored st _ ih => exact ih
  | informed ops _ ih => exact ih.trans (ends_informOpsStored_layout ops _)

theorem Scheduled.of_sameButHashes (h : Scheduled f arc t tp stop) (hsame : SameButHashes tp tp') :
    Scheduled f arc t tp' stop := by
  rcases hsame with ⟨hrest, hslots⟩
  generalize tp'.partialSlices = l at hrest hslots
  subst hrest
  refine ⟨⟨h.shape.factor, h.shape.fullSliceDuration, h.shape.minRecentTime,
    h.shape.sectorConstraint⟩, h.counted, h.before, h.fits, hslots.trans h.slots, ?_, ?_, ?_,
    h.tail_pos, h.tail_le, h.next⟩
  · simp only [hslots]
    exact h.tiles
  · intro p hp
    have hmem : p.slot ∈ tp.partialSlices.map PartialSlice.slot := by
      rw [← hslots]
      exact List.mem_map_of_mem hp
    rcases List.mem_map.mp hmem with ⟨q, hq, heq⟩
    rw [← heq]
    exact h.slotFits q hq
  · intro hnil
    simp only at hnil
    rw [hnil, List.map_nil] at hslots
    exact h.nonempty (List.map_eq_nil_iff.mp hslots.symm)

/-! ## Every slice is reused -/

theorem findPartial_of_mem {old : List PartialSlice} {p : PartialSlice}
    (hdistinct : (old.map PartialSlice.slot).Pairwise fun a b => a.1 < b.1) (hp : p ∈ old) :
    TimePartition.findPartial old p.start p.size = some p.hash := by
  induction old with
  | nil =>
      cases hp
  | cons q old ih =>
      rw [List.map_cons, List.pairwise_cons] at hdistinct
      unfold TimePartition.findPartial
      rw [List.findSome?_cons]
      rcases List.mem_cons.mp hp with rfl | htail
      · rw [if_pos ⟨rfl, rfl⟩]
      · -- the first slice starts earlier than any later one
        have hlt := hdistinct.1 p.slot (List.mem_map_of_mem htail)
        have hne : ¬ (q.start = p.start ∧ q.size = p.size) := by
          rintro ⟨hstart, _⟩
          simp only [PartialSlice.slot, hstart] at hlt
          exact lt_irrefl _ hlt
        rw [if_neg hne]
        exact ih hdistinct.2 htail

/-- The loop over the new layout pushes the old slices back, without a call to the store. -/
theorem pushPartials_reuse {old : List PartialSlice} (earliest : Option Int) :
    ∀ (l : List PartialSlice) (env : SectorEnv),
      (∀ p ∈ l, TimePartition.findPartial old p.start p.size = some p.hash) →
      Returns (Eff.each (TimePartition.pushPartial loc old earliest) (l.map PartialSlice.slot)) env ()
        { env with part := { env.part with partialSlices := env.part.partialSlices ++ l } } := by
  intro l
  induction l with
  | nil =>
      intro env _
      refine returns_pure_iff.mpr ⟨rfl, ?_⟩
      simp
  | cons p l ih =>
      intro env hfind
      have hhash : Returns (TimePartition.partialHash loc old earliest p.slot) env p.hash env := by
        unfold TimePartition.partialHash
        rw [show TimePartition.findPartial old p.slot.1 p.slot.2 = some p.hash from hfind p (by simp)]
        exact returns_pure_iff.mpr ⟨rfl, rfl⟩
      refine returns_each_cons_iff.mpr
        ⟨_, returns_bind_iff.mpr ⟨p.hash, env, hhash, returns_modifyPart_iff.mpr rfl⟩, ?_⟩
      have hrest := ih
        { env with part := { env.part with partialSlices := env.part.partialSlices ++ [p] } }
        (fun q hq => hfind q (by simp [hq]))
      simpa [PartialSlice.slot] using hrest

/-- The slices of the partition are those of time `t`: an update has nothing to lay out. -/
structure UpToDate (f : Nat) (arc : DhtArc) (t : Int) (tp : TimePartition) : Prop where
  shape : Shape f arc tp
  counted : fullCount f t ≤ tp.fullSlices
  before : fullEnd f tp.fullSlices ≤ t
  fits : t ≤ i64Max
  slots : partialLayout f (fullEnd f tp.fullSlices) (t - fullEnd f tp.fullSlices).toNat =
    tp.partialSlices.map PartialSlice.slot

theorem UpToDate.pairwise_slots (h : UpToDate f arc t tp) :
    (tp.partialSlices.map PartialSlice.slot).Pairwise fun a b => a.1 < b.1 := by
  rcases tiles_partialLayout f (fullEnd f tp.fullSlices) (t - fullEnd f tp.fullSlices).toNat
    with ⟨stop, htiles, _⟩
  rw [h.slots] at htiles
  exact htiles.pairwise_lt slotLen_pos

theorem UpToDate.updatePartials_reuse (h : UpToDate f arc t tp) (hf : f ≤ 53)
    (earliest : Option Int) (st : OpStore) :
    Returns (TimePartition.updatePartials loc earliest t) { part := tp, store := st } ()
      { part := tp, store := st } := by
  refine returns_read_bind_iff.mpr ?_
  refine returns_lift_bind_iff.mpr
    ⟨_, fullSliceEndTimestamp_ok h.shape (le_trans h.before h.fits), ?_⟩
  refine returns_lift_bind_iff.mpr
    ⟨_, layoutPartials_ok hf h.shape (fullEnd_nonneg _ _) h.before h.fits, ?_⟩
  rw [h.slots]
  refine returns_bind_iff.mpr ⟨(), _, returns_modifyPart_iff.mpr rfl, ?_⟩
  exact pushPartials_reuse earliest tp.partialSlices _ fun p hp =>
    findPartial_of_mem h.pairwise_slots hp

/-- No full slice is due. -/
theorem UpToDate.updateFullSliceHashes_none (h : UpToDate f arc t tp) (st : OpStore) :
    Returns (TimePartition.updateFullSliceHashes loc t) { part := tp, store := st } ()
      { part := tp, store := st } := by
  rcases layoutFullSlices_ok h.shape h.before h.fits with ⟨count, hcount, hmax⟩
  rw [Nat.max_eq_left h.counted] at hmax
  have hzero : count = 0 := by omega
  subst hzero
  refine returns_read_bind_iff.mpr (returns_lift_bind_iff.mpr ⟨0, hcount, ?_⟩)
  refine returns_lift_bind_iff.mpr
    ⟨_, fullSliceEndTimestamp_ok h.shape (le_trans h.before h.fits), ?_⟩
  exact returns_pure_iff.mpr ⟨rfl, rfl⟩

/-- An update with nothing to lay out is a read of the earliest timestamp and a new schedule. -/
theorem UpToDate.update_eq (loc : LocCb) (h : UpToDate f arc t tp) (hf : f ≤ 53) (st : OpStore) :
    TimePartition.update loc t { part := tp, store := st } =
      (onStore (earliestTimestampInArc loc tp.sectorConstraint) >>= fun _ =>
        TimePartition.scheduleNextUpdate) { part := tp, store := st } := by
  rcases hread : earliestTimestampInArc loc tp.sectorConstraint st with ⟨r, st'⟩
  have hzoom : onStore (earliestTimestampInArc loc tp.sectorConstraint)
      { part := tp, store := st } = (r, { part := tp, store := st' }) := by
    simp only [onStore, Eff.zoom, hread]
  have hself : Returns (Eff.read : PartM SectorEnv) { part := tp, store := st }
      { part := tp, store := st } { part := tp, store := st } := returns_read_iff.mpr ⟨rfl, rfl⟩
  unfold TimePartition.update
  rw [(h.updateFullSliceHashes_none st).bind_run, hself.bind_run]
  cases r with
  | error e =>
      rw [bind_run_error hzoom, bind_run_error hzoom]
  | ok earliest =>
      have hok : Returns (onStore (earliestTimestampInArc loc tp.sectorConstraint))
          { part := tp, store := st } earliest { part := tp, store := st' } := hzoom
      rw [hok.bind_run, hok.bind_run, (h.updatePartials_reuse hf earliest st').bind_run]

/-! ## An early update -/

/-- Up to `next_update_at` the slices stay those of the time. -/
theorem Scheduled.upToDate (h : Scheduled f arc t tp stop) (hle : t ≤ t')
    (hlt : t' < tp.nextUpdateAt) : UpToDate f arc t' tp := by
  have hfits := h.fits
  have hnext := h.next
  rcases h.layout_eq hle hlt with ⟨hcount, hslots⟩
  exact ⟨h.shape, hcount, le_trans (le_of_lt h.before) hle, by omega, hslots⟩

/-- The next update is scheduled for the same time again. -/
theorem Scheduled.schedule_same (h : Scheduled f arc t tp stop) (st : OpStore) :
    Returns TimePartition.scheduleNextUpdate { part := tp, store := st } ()
      { part := tp, store := st } := by
  refine returns_read_bind_iff.mpr ?_
  rcases hlast : tp.partialSlices.getLast? with _ | last
  · exact absurd (List.getLast?_eq_none_iff.mp hlast) h.nonempty
  · have hend : last.start + slotLen last.size = stop :=
      h.tiles.getLast_end (by rw [List.getLast?_map, hlast]; rfl)
    have hfits := h.slotFits last (List.mem_of_getLast? hlast)
    have hstop : last.stop = .ok stop := by rw [stop_ok hfits, hend]
    have hpos : 0 ≤ stop := by
      rw [← hend]
      exact Int.add_nonneg hfits.1 (le_of_lt (slotLen_pos _))
    refine returns_lift_bind_iff.mpr ⟨stop, hstop, ?_⟩
    refine returns_lift_bind_iff.mpr ⟨_, addDuration_of_le hpos h.fits, ?_⟩
    rw [returns_modifyPart_iff, ← h.next]

/-- An update before `next_update_at` is the read of the earliest timestamp and nothing else. -/
theorem Scheduled.update_eq_read (loc : LocCb) (h : Scheduled f arc t tp stop) (hf : f ≤ 53)
    (hle : t ≤ t') (hlt : t' < tp.nextUpdateAt) (st : OpStore) :
    TimePartition.update loc t' { part := tp, store := st } =
      (onStore (earliestTimestampInArc loc tp.sectorConstraint) >>= fun _ => pure ())
        { part := tp, store := st } := by
  rw [(h.upToDate hle hlt).update_eq loc hf st]
  rcases hread : earliestTimestampInArc loc tp.sectorConstraint st with ⟨r, st'⟩
  have hzoom : onStore (earliestTimestampInArc loc tp.sectorConstraint)
      { part := tp, store := st } = (r, { part := tp, store := st' }) := by
    simp only [onStore, Eff.zoom, hread]
  cases r with
  | error e =>
      rw [bind_run_error hzoom, bind_run_error hzoom]
  | ok earliest =>
      have hok : Returns (onStore (earliestTimestampInArc loc tp.sectorConstraint))
          { part := tp, store := st } earliest { part := tp, store := st' } := hzoom
      rw [hok.bind_run, hok.bind_run]
      exact h.schedule_same st'

/-- After an update at `t` that left a partial slice, whatever was stored or informed since, an update
at a time before `next_update_at` makes one call, a read, and leaves the partition and the store as
they were. -/
theorem early_update_changes_nothing (hf : f ≤ 53) {env env1 env2 : SectorEnv}
    (hs : Shape f arc env.part) (hfit : fullEnd f env.part.fullSlices ≤ i64Max) (ht : t ≤ i64Max)
    (hup : Returns (TimePartition.update loc t) env () env1) (hne : env1.part.partialSlices ≠ [])
    (hbetween : Meanwhile env1 env2) (hle : t ≤ t') (hlt : t' < env1.part.nextUpdateAt) :
    TimePartition.update loc t' env2 =
        (onStore (earliestTimestampInArc loc env2.part.sectorConstraint) >>= fun _ => pure ()) env2 ∧
      (env2.store.failures = [] → Returns (TimePartition.update loc t') env2 () env2) := by
  rcases returns_update_scheduled hf hs hfit ht hup hne with ⟨stop, hsched⟩
  have hsame := hbetween.sameButHashes
  have hlt2 : t' < env2.part.nextUpdateAt := by
    rw [hsame.rest]
    exact hlt
  have heq := (hsched.of_sameButHashes hsame).update_eq_read loc hf hle hlt2 env2.store
  refine ⟨heq, ?_⟩
  intro hrel
  unfold Returns
  rw [heq]
  exact (onStore_query_returns hrel _).bind_run _

/-- Half an hour of partial slices at 2,000 seconds, an op stored since, and an update at 2,500
seconds: the op is not picked up, and nothing changes before 2,700 seconds. -/
theorem early_update_of_stored_op :
    ∃ env1, Returns (TimePartition.update (fun _ => 0) 2000000000)
        { part := freshPart 1 .empty 0, store := OpStore.empty } () env1 ∧
      Returns (TimePartition.update (fun _ => 0) 2500000000)
        { env1 with store := OpStore.empty.insertOp ⟨⟨[1], 5⟩, 3⟩ } ()
        { env1 with store := OpStore.empty.insertOp ⟨⟨[1], 5⟩, 3⟩ } := by
  have hshape := shape_freshPart 1 .empty 0
  rcases @update_returns (fun _ => 0) 1 0 .empty 2000000000 (by decide)
    { part := freshPart 1 .empty 0, store := OpStore.empty } hshape rfl nofun (by decide)
    (by decide) (by decide) (nextFits_of_le (by decide) (by decide)) with ⟨env1, hup, _⟩
  have hspec := returns_update (by decide) hshape (by decide) (by decide) hup
  have hfull : env1.part.fullSlices = 0 := hspec.fullSlices.trans (by decide)
  have hslots := hspec.slots
  rw [hfull] at hslots
  -- slots are laid out, and the last of them ends at 1800 s
  have hne : env1.part.partialSlices ≠ [] := by
    intro hnil
    rw [hnil] at hslots
    exact absurd hslots (by decide)
  rcases returns_update_scheduled (by decide) hshape (by decide) (by decide) hup hne
    with ⟨stop, hsched⟩
  have hend : stop = 1800000000 := by
    have hlast : (env1.part.partialSlices.map PartialSlice.slot).getLast? = some (900000000, 0) := by
      rw [hslots]
      decide
    exact (hsched.tiles.getLast_end hlast).symm
  have hnext : (2500000000 : Int) < env1.part.nextUpdateAt := by
    rw [hsched.next, hend]
    decide
  exact ⟨env1, hup, (early_update_changes_nothing (by decide) hshape (by decide) (by decide) hup hne
    (Meanwhile.stored _ (Meanwhile.refl env1)) (by decide) hnext).2 rfl⟩

end Dht
end Kitsune2
