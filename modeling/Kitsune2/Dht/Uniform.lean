import Kitsune2.Dht.Offers

/-!
# Uniform — hashes of one length

`combine_hashes` panics on hashes of different lengths, and says that the host should have rejected
such data.  With a host that does, every hash that a DHT keeps, in memory or in the store, has the
length of the op ids or is empty, whatever the node has gone through.
-/

namespace Kitsune2
namespace Dht

open Api Lib
open Std (ExtTreeMap)

variable {loc : LocCb} {f n : Nat} {arc : DhtArc} {t : Int}

/-! ## One sector -/

/-- The hash is empty or has length `n`. -/
def HashOfLength (n : Nat) (hash : Bytes) : Prop :=
  hash = [] ∨ hash.length = n

structure Uniform (n : Nat) (arc : DhtArc) (e : SectorEnv) : Prop where
  partials : ∀ p ∈ e.part.partialSlices, HashOfLength n p.hash
  slices : ∀ (k : Nat) (hash : Bytes), (e.store.sliceHashes arc)[k]? = some hash → hash.length = n
  ids : IdsOfLength n e.store.stored

theorem local_uniform (n : Nat) : Local (fun i => Uniform n (sectorArc i)) := by
  intro i j tp st st' hij hown h
  refine ⟨h.partials, ?_, ?_⟩
  · simp only [hown.others _ fun heq => hij (sectorArc_inj heq).symm]
    exact h.slices
  · simp only [hown.stored]
    exact h.ids

theorem HashOfLength.combined {into other out : Bytes} (h : HashOfLength n into)
    (hother : other.length = n) (hout : combineHashes into other = .ok out) : HashOfLength n out := by
  rw [combineHashes_eq hout]
  exact length_xorBytes h (Or.inr hother)

/-- Once it is not empty, a hash stays so. -/
theorem length_combined {into other out : Bytes} (h : into.length = n) (hother : other.length = n)
    (hout : combineHashes into other = .ok out) : out.length = n := by
  rcases HashOfLength.combined (Or.inr h) hother hout with hnil | hlen
  · unfold combineHashes at hout
    split at hout
    · cases hout
      exact hother
    · split at hout
      · cases hout
      · cases hout
        rw [List.length_zipWith, h, hother, Nat.min_self]
  · exact hlen

theorem combineFirst_uniform {op : StoredOp} (hop : op.opId.length = n) :
    ∀ (l : List PartialSlice) {out : List PartialSlice}, (∀ p ∈ l, HashOfLength n p.hash) →
      TimePartition.combineFirst op l = .ok out → ∀ p ∈ out, HashOfLength n p.hash := by
  intro l
  induction l with
  | nil =>
      intro out _ h
      cases h
      exact fun p hp => absurd hp List.not_mem_nil
  | cons q l ih =>
      intro out hall h
      rw [TimePartition.combineFirst] at h
      have hrest : ∀ p ∈ l, HashOfLength n p.hash := fun p hp => hall p (List.mem_cons_of_mem q hp)
      -- the first slice that starts no later takes the op, the others stay
      by_cases hge : op.createdAt ≥ q.start
      · rw [if_pos hge] at h
        rcases bind_eq_ok_iff.mp h with ⟨hash, hcomb, hout⟩
        cases hout
        intro p hp
        rcases List.mem_cons.mp hp with rfl | htail
        · exact (hall q List.mem_cons_self).combined hop hcomb
        · exact hrest p htail
      · rw [if_neg hge] at h
        rcases bind_eq_ok_iff.mp h with ⟨rest, hcomb, hout⟩
        cases hout
        intro p hp
        rcases List.mem_cons.mp hp with rfl | htail
        · exact hall p List.mem_cons_self
        · exact ih hrest hcomb p htail

theorem Uniform.informed {e e' : SectorEnv} {ops : List StoredOp} {u : Unit}
    (hlaid : LaidOut f arc t e) (h : Uniform n arc e) (hids : IdsOfLength n ops)
    (hret : Returns (TimePartition.informOpsStored ops) e u e') : Uniform n arc e' := by
  refine informed_invariant (I := Uniform n arc) hlaid.shape hlaid.fullEnd_le h ?_ ?_ hret
  · intro op hop _ e1 st2 i hash h1 hinf
    refine ⟨h1.partials, ?_, ?_⟩
    · intro k stored hk
      rw [hinf.slices k] at hk
      split at hk
      · cases hk
        rcases hinf.combined with rfl | ⟨old, hold, hcomb⟩
        · exact hids op hop
        · exact length_combined (h1.slices _ old hold) (hids op hop) hcomb
      · exact h1.slices k stored hk
    · simp only [hinf.own.stored]
      exact h1.ids
  · intro op hop e1 partials h1 hcomb
    have hall : ∀ p ∈ e1.part.partialSlices.reverse, HashOfLength n p.hash :=
      fun p hp => h1.partials p (List.mem_reverse.mp hp)
    refine ⟨?_, h1.slices, h1.ids⟩
    intro p hp
    exact combineFirst_uniform (hids op hop) _ hall hcomb p (List.mem_reverse.mp hp)

theorem findPartial_mem {old : List PartialSlice} {start : Int} {size : Nat} {hash : Bytes}
    (h : TimePartition.findPartial old start size = some hash) : ∃ p ∈ old, p.hash = hash := by
  rcases List.exists_of_findSome?_eq_some h with ⟨p, hp, hfound⟩
  split at hfound
  · cases hfound
    exact ⟨p, hp, rfl⟩
  · cases hfound

theorem Uniform.updated {e e' : SectorEnv} (h : Uniform n arc e) (hup : Updated loc f arc t e e') :
    Uniform n arc e' := by
  refine ⟨?_, ?_, ?_⟩
  · intro p hp
    rw [hup.partialSlices] at hp
    rcases List.mem_map.mp hp with ⟨slot, _, rfl⟩
    show HashOfLength n ((TimePartition.findPartial _ _ _).getD _)
    cases hfind : TimePartition.findPartial e.part.partialSlices slot.1 slot.2 with
    | none => exact length_sliceXor h.ids _ _
    | some hash =>
        rcases findPartial_mem hfind with ⟨old, hold, rfl⟩
        exact h.partials old hold
  · intro k hash hk
    rw [hup.slices k] at hk
    split at hk
    · rename_i hnew
      cases hk
      exact (length_sliceXor h.ids _ _).resolve_left hnew.2.2
    · exact h.slices k hash hk
  · rw [hup.own.stored]
    exact h.ids

/-! ## All sectors -/

/-- A sector that is laid out for time `t` with hashes of length `n`. -/
def RegularSector (f n : Nat) (t : Int) (i : Nat) (e : SectorEnv) : Prop :=
  LaidOut f (sectorArc i) t e ∧ Uniform n (sectorArc i) e

theorem local_regularSector (f n : Nat) (t : Int) : Local (RegularSector f n t) :=
  local_and (local_laidOut f t) (local_uniform n)

structure Regular (f n : Nat) (t : Int) (env : HashEnv) : Prop where
  size : env.partition.size = sectorSize
  length : env.partition.sectors.length = numSectors
  sector : EverySector (RegularSector f n t) env

theorem Regular.laidOut {env : HashEnv} (h : Regular f n t env) : PartitionLaidOut f t env :=
  ⟨h.size, h.length, fun i tp htp => (h.sector i tp htp).1⟩

/-- Ops whose ids have length `n` and whose times are of the machine type. -/
def Storable (n : Nat) (ops : List StoredOp) : Prop :=
  ∀ op ∈ ops, op.opId.length = n ∧ -2 ^ 63 ≤ op.createdAt ∧ op.createdAt ≤ i64Max

section Steps

variable {env env' : HashEnv} {u : Unit} {now : Int}

theorem Regular.updated (hf : f ≤ 53) (h : Regular f n t env) (hle : t ≤ now) (hfits : now ≤ i64Max)
    (hret : Returns (HashPartition.update loc now) env u env') :
    Regular f n now env' ∧ SameFrame env env' := by
  have hbody : ∀ i e e', RegularSector f n t i e →
      Returns (TimePartition.update loc now) e () e' →
      RegularSector f n now i e' ∧ OwnArcOnly (sectorArc i) e.store e'.store := by
    rintro i e e' ⟨hlaid, huni⟩ hup
    rcases hlaid.updated hf hle hfits hup with ⟨hlaid', hown⟩
    have hupd := returns_update hf hlaid.shape hlaid.fullEnd_le hfits hup
    exact ⟨⟨hlaid', huni.updated hupd⟩, hown⟩
  rcases returns_partition_update (local_regularSector f n t) (local_regularSector f n now)
    (fun i _ => hbody i) h.sector hret with ⟨hframe, hsector⟩
  exact ⟨⟨hframe.size.trans h.size, hframe.length.trans h.length, hsector⟩, hframe⟩

theorem Regular.informed {ops : List StoredOp} (h : Regular f n t env) (hops : Storable n ops)
    (hret : Returns (HashPartition.informOpsStored loc ops) env u env') :
    Regular f n t env' ∧ SameFrame env env' := by
  have hbody : ∀ i e e', RegularSector f n t i e → Returns (TimePartition.informOpsStored
        (HashPartition.sectorOps loc env.partition.size ops i)) e () e' →
      RegularSector f n t i e' ∧ OwnArcOnly (sectorArc i) e.store e'.store := by
    rintro i e e' ⟨hlaid, huni⟩ hinf
    have hsub : ∀ op ∈ HashPartition.sectorOps loc env.partition.size ops i, op ∈ ops :=
      fun op hop => (List.mem_filter.mp hop).1
    rcases hlaid.informed (fun op hop => (hops op (hsub op hop)).2.1) hinf with ⟨hlaid', hown⟩
    exact ⟨⟨hlaid', huni.informed hlaid (fun op hop => (hops op (hsub op hop)).1) hinf⟩, hown⟩
  rcases returns_partition_inform (local_regularSector f n t) hbody h.sector hret
    with ⟨hframe, hsector⟩
  exact ⟨⟨hframe.size.trans h.size, hframe.length.trans h.length, hsector⟩, hframe⟩

/-- The slice hashes a sector is rebuilt from. -/
def Restorable (f n : Nat) (t : Int) (i : Nat) (st : OpStore) : Prop :=
  KeysWithin f (fullCount f t) (st.sliceHashes (sectorArc i)) ∧ Storable n st.stored ∧
    ∀ (k : Nat) (hash : Bytes), (st.sliceHashes (sectorArc i))[k]? = some hash → hash.length = n

theorem rebuilt_regular (hpos : 1 ≤ f) (hf : f ≤ 53) (hlow : -2 ^ 63 ≤ t) (hfits : t ≤ i64Max)
    {st st' : OpStore} {p : HashPartition} (hst : ∀ i < numSectors, Restorable f n t i st)
    (h : Returns (HashPartition.tryFromStore loc f t) st p st') :
    Regular f n t { partition := p, store := st' } ∧ st'.opList = st.opList := by
  have hbuilt := returns_rebuild (local_regularSector f n t) ?_ ?_ hst h
  · exact ⟨⟨hbuilt.size, hbuilt.length, hbuilt.sector⟩, hbuilt.only.opList⟩
  · rintro i j st1 st2 hij hown ⟨hkeys, hops, hslices⟩
    have harc := hown.others _ fun heq => hij (sectorArc_inj heq).symm
    refine ⟨by rw [harc]; exact hkeys, by rw [hown.stored]; exact hops, ?_⟩
    rw [harc]
    exact hslices
  · rintro i tp st1 st2 ⟨hkeys, hops, hslices⟩ htp
    have hrange : ∀ op ∈ st1.stored, -2 ^ 63 ≤ op.createdAt ∧ op.createdAt ≤ i64Max :=
      fun op hop => (hops op hop).2
    rcases rebuilt_laidOut hpos hf hlow hfits hkeys (le_refl _) hrange htp with ⟨hlaid, hown⟩
    refine ⟨⟨hlaid, ?_⟩, hown⟩
    -- the update of a fresh sector starts from no partial slices
    rcases returns_tryFromStore hpos hf htp with ⟨count, st3, hstart, hupdate⟩
    have hfit := hstart.fullEnd_le hpos hf hlow hfits hkeys (le_refl _) hrange
    have hfresh : Uniform n (sectorArc i)
        { part := freshPart f (sectorArc i) count, store := st3 } := by
      refine ⟨fun p hp => absurd hp List.not_mem_nil, ?_, ?_⟩
      · simp only [hstart.same.sliceHashes]
        exact hslices
      · simp only [hstart.same.stored]
        exact fun op hop => (hops op hop).1
    have hshape : Shape f (sectorArc i)
        ({ part := freshPart f (sectorArc i) count, store := st3 } : SectorEnv).part :=
      shape_freshPart f (sectorArc i) count
    exact hfresh.updated (returns_update hf hshape hfit hfits hupdate)

end Steps

/-! ## Nodes -/

/-- Ops that the host may keep at a time. -/
def Keepable (n : Nat) (Allowed : Int → StoredOp → Prop) (now : Int) (ops : List StoredOp) : Prop :=
  Storable n ops ∧ ∀ op ∈ ops, Allowed now op

/-- What a partition can have gone through with a host that keeps allowed ops only, with ids of
length `n`.  `Lived loc f n Allowed last t env` holds at the time `last` of a partition whose last
update, or start, was at `t`. -/
inductive Lived (loc : LocCb) (f n : Nat) (Allowed : Int → StoredOp → Prop) :
    Int → Int → HashEnv → Prop
  /-- The first start, on a store that no partition has written to. -/
  | start {now : Int} {st st' : OpStore} {p : HashPartition} :
      -2 ^ 63 ≤ now → now ≤ i64Max → (∀ arc, st.sliceHashes arc = ∅) → Keepable n Allowed now st.stored →
      Returns (HashPartition.tryFromStore loc f now) st p st' →
      Lived loc f n Allowed now now { partition := p, store := st' }
  | update {last t now : Int} {env env' : HashEnv} :
      Lived loc f n Allowed last t env → last ≤ now → now ≤ i64Max →
      Returns (HashPartition.update loc now) env () env' → Lived loc f n Allowed now now env'
  /-- A restart keeps nothing but the store. -/
  | restart {last t now : Int} {env : HashEnv} {st' : OpStore} {p : HashPartition} :
      Lived loc f n Allowed last t env → last ≤ now → now ≤ i64Max →
      Returns (HashPartition.tryFromStore loc f now) env.store p st' →
      Lived loc f n Allowed now now { partition := p, store := st' }
  | inform {last t now : Int} {env env' : HashEnv} {ops : List StoredOp} :
      Lived loc f n Allowed last t env → last ≤ now → now ≤ i64Max → Keepable n Allowed now ops →
      Returns (HashPartition.informOpsStored loc ops) env () env' →
      Lived loc f n Allowed now t env'
  /-- The host replaces the ops of its store. -/
  | host {last t now : Int} {env : HashEnv} (ops : List OpRecord) :
      Lived loc f n Allowed last t env → last ≤ now → now ≤ i64Max →
      Keepable n Allowed now (ops.map OpRecord.toStoredOp) →
      Lived loc f n Allowed now t { env with store := { env.store with opList := ops } }

section Lives

variable {Allowed : Int → StoredOp → Prop} {last : Int} {env env' : HashEnv}

/-- What every life leaves behind: a regular partition and a store of its ops. -/
structure LivesOn (f n : Nat) (last t : Int) (env : HashEnv) : Prop where
  regular : Regular f n t env
  stored : Storable n env.store.stored
  ordered : t ≤ last
  fits : last ≤ i64Max

theorem LivesOn.nonneg (h : LivesOn f n last t env) : 0 ≤ t :=
  h.regular.laidOut.nonneg

/-- A later restart finds a regular store. -/
theorem LivesOn.restorable (h : LivesOn f n last t env) {now : Int} (hle : t ≤ now) :
    ∀ i < numSectors, Restorable f n now i env.store := by
  intro i hi
  have hlt : i < env.partition.sectors.length := by
    rw [h.regular.length]
    exact hi
  rcases h.regular.sector i _ (List.getElem?_eq_getElem hlt) with ⟨hlaid, huni⟩
  exact ⟨hlaid.keys.mono (fullCount_mono hle), h.stored, huni.slices⟩

theorem stored_eq {st st' : OpStore} (h : st'.opList = st.opList) : st'.stored = st.stored := by
  unfold OpStore.stored
  rw [h]

theorem Lived.livesOn (hpos : 1 ≤ f) (hf : f ≤ 53) (h : Lived loc f n Allowed last t env) :
    LivesOn f n last t env := by
  induction h with
  -- an empty store has no slices to be restored
  | @start now st st' p hlow hfits hempty hkept hret =>
      have hst : ∀ i < numSectors, Restorable f n now i st := by
        intro i _
        refine ⟨?_, hkept.1, ?_⟩
        · rw [hempty]
          exact fun _ k hk => absurd Std.ExtTreeMap.getElem?_empty hk
        · intro k hash hk
          rw [hempty, Std.ExtTreeMap.getElem?_empty] at hk
          cases hk
      rcases rebuilt_regular hpos hf hlow hfits hst hret with ⟨hreg, hlist⟩
      refine ⟨hreg, ?_, le_refl now, hfits⟩
      simp only [stored_eq hlist]
      exact hkept.1
  | update _ hle hfits hret ih =>
      rcases ih.regular.updated hf (le_trans ih.ordered hle) hfits hret with ⟨hreg, hframe⟩
      refine ⟨hreg, ?_, le_refl _, hfits⟩
      rw [stored_eq hframe.opList]
      exact ih.stored
  | @restart last t now env st' p _ hle hfits hret ih =>
      have hlater : t ≤ now := le_trans ih.ordered hle
      have hlow : -2 ^ 63 ≤ now := by
        have hnonneg := ih.nonneg
        linarith
      rcases rebuilt_regular hpos hf hlow hfits (ih.restorable hlater) hret with ⟨hreg, hlist⟩
      refine ⟨hreg, ?_, le_refl now, hfits⟩
      simp only [stored_eq hlist]
      exact ih.stored
  | inform _ hle hfits hkept hret ih =>
      rcases ih.regular.informed hkept.1 hret with ⟨hreg, hframe⟩
      refine ⟨hreg, ?_, le_trans ih.ordered hle, hfits⟩
      rw [stored_eq hframe.opList]
      exact ih.stored
  -- the slices are as before, and the new ops have ids of the same length
  | host ops _ hle hfits hkept ih =>
      refine ⟨⟨ih.regular.size, ih.regular.length, ?_⟩, hkept.1, le_trans ih.ordered hle, hfits⟩
      intro i tp htp
      rcases ih.regular.sector i tp htp with ⟨hlaid, huni⟩
      exact ⟨⟨hlaid.shape, hlaid.nonneg, hlaid.fits, hlaid.fullSlices, hlaid.slots, hlaid.keys⟩,
        huni.partials, huni.slices, fun op hop => (hkept.1 op hop).1⟩

end Lives

namespace DhtState

/-- A node with a host that keeps ops with ids of length `n` only.  `Node loc n t d` holds of a node
whose last update, or start, was at `t`. -/
inductive Node (loc : LocCb) (n : Nat) : Int → DhtState → Prop
  /-- The first start, on a store that no DHT has written to. -/
  | start {now : Int} {st : OpStore} {d : DhtState} :
      -2 ^ 63 ≤ now → now ≤ i64Max → (∀ arc, st.sliceHashes arc = ∅) → Storable n st.stored →
      tryFromStore loc now st = .ok d → Node loc n now d
  | update {t now : Int} {d d' : DhtState} :
      Node loc n t d → t ≤ now → now ≤ i64Max → Returns (update loc now) d () d' →
      Node loc n now d'
  /-- A restart keeps nothing but the store. -/
  | restart {t now : Int} {d d' : DhtState} :
      Node loc n t d → t ≤ now → now ≤ i64Max → tryFromStore loc now d.store = .ok d' →
      Node loc n now d'
  | inform {t : Int} {d d' : DhtState} {ops : List StoredOp} :
      Node loc n t d → Storable n ops → Returns (informOpsStored loc ops) d () d' → Node loc n t d'
  /-- The host replaces the ops of its store. -/
  | host {t : Int} {d : DhtState} (ops : List OpRecord) :
      Node loc n t d → Storable n (ops.map OpRecord.toStoredOp) →
      Node loc n t { d with store := { d.store with opList := ops } }

variable {d : DhtState}

/-- A node lives through its partition and store. -/
theorem Node.lived (h : Node loc n t d) :
    Lived loc timeFactor n (fun _ _ => True) t t d.env := by
  have hkept : ∀ {now : Int} {ops : List StoredOp}, Storable n ops →
      Keepable n (fun _ _ => True) now ops := fun hops => ⟨hops, fun _ _ => trivial⟩
  induction h with
  | start hlow hfits hempty hops hd =>
      rcases returns_tryFromStore_iff.mp hd with ⟨p, st', hret, rfl⟩
      exact .start hlow hfits hempty (hkept hops) hret
  | update _ hle hfits hret ih =>
      rcases returns_onPartition_iff.mp hret with ⟨env', henv, rfl⟩
      exact ih.update hle hfits henv
  | restart _ hle hfits hd ih =>
      rcases returns_tryFromStore_iff.mp hd with ⟨p, st', hret, rfl⟩
      exact ih.restart hle hfits hret
  | inform _ hops hret ih =>
      rcases returns_bind_iff.mp hret with ⟨_, d1, hinf, hcount⟩
      rw [returns_modify_iff] at hcount
      rcases returns_onPartition_iff.mp hinf with ⟨env', henv, rfl⟩
      subst hcount
      have hfits := (ih.livesOn (by decide) timeFactor_le).fits
      exact ih.inform (le_refl _) hfits (hkept hops) henv
  | host ops _ hops ih =>
      have hfits := (ih.livesOn (by decide) timeFactor_le).fits
      exact ih.host ops (le_refl _) hfits (hkept hops)

theorem Node.regular (h : Node loc n t d) : Regular timeFactor n t d.env :=
  (h.lived.livesOn (by decide) timeFactor_le).regular

theorem Node.laidOutAt (h : Node loc n t d) : d.LaidOutAt t :=
  h.regular.laidOut

end DhtState

end Dht
end Kitsune2
