import Mathlib.Data.List.Dedup
import Kitsune2.Dht.Total

/-!
# Partition — the hash space cut into sectors

A `HashPartition` owns one `TimePartition` for each of the 512 sectors of the hash space.  Its
mutating functions run a function of the time partition on each sector they concern.  Sectors do not
share state: each has its own entry in the list and its own arc of slice hashes in the store, so
what a loop does to one sector survives the passes over the others (`returns_eachSector`).
-/

namespace Kitsune2
namespace Dht

open Api Lib

/-! ## Data -/

structure HashPartition where
  size : Nat
  sectors : List TimePartition
  deriving DecidableEq, Repr

/-- A hash partition and the store it works on. -/
structure HashEnv where
  partition : HashPartition
  store : OpStore

abbrev HashM := Eff Fault HashEnv

/-- Run a function of the time partition on the sector with the given index. -/
def onSector (i : Nat) (m : PartM Unit) : HashM Unit := fun env =>
  match env.partition.sectors[i]? with
  | none => (.error (.panicked "index out of bounds"), env)
  | some tp =>
      let (r, out) := m { part := tp, store := env.store }
      (r, { partition := { env.partition with sectors := env.partition.sectors.set i out.part }
            store := out.store })

namespace HashPartition

variable (loc : LocCb)

/-! ## Construction -/

/-- The arcs of the sectors: the last one takes the remainder of the hash space. -/
def sectorArcs : List DhtArc :=
  (List.range (numSectors - 1)).map
      (fun i => DhtArc.arc (i * sectorSize) (min u32Max ((i + 1) * sectorSize) - 1))
    ++ [.arc ((numSectors - 1) * sectorSize) u32Max]

/-- One time partition for each arc, in order. -/
def buildSectors (timeFactor : Nat) (currentTime : Int) : List DhtArc → StoreM (List TimePartition)
  | [] => pure []
  | arc :: arcs => do
      let tp ← TimePartition.tryFromStore loc timeFactor currentTime arc
      let rest ← buildSectors timeFactor currentTime arcs
      pure (tp :: rest)

def tryFromStore (timeFactor : Nat) (currentTime : Int) : StoreM HashPartition := do
  let sectors ← buildSectors loc timeFactor currentTime sectorArcs
  pure { size := sectorSize, sectors := sectors }

/-! ## Mutation -/

def update (currentTime : Int) : HashM Unit := do
  let env ← Eff.read
  Eff.each (fun i => onSector i (TimePartition.update loc currentTime))
    (List.range env.partition.sectors.length)

/-- The index of the sector an op belongs to. -/
def sectorIndex (size : Nat) (op : StoredOp) : Nat :=
  (loc op.opId).val / size

/-- The ops of one sector, in the order they were given. -/
def sectorOps (size : Nat) (storedOps : List StoredOp) (i : Nat) : List StoredOp :=
  storedOps.filter fun op => sectorIndex loc size op = i

/-- The sectors of a batch of ops, each of them once. -/
def touchedSectors (size : Nat) (storedOps : List StoredOp) : List Nat :=
  (storedOps.map (sectorIndex loc size)).dedup

/-- The batch is split by location, and each sector is informed of its own ops.  A sector has its
own state, so the order of the sectors (a hash map's in the code) does not matter. -/
def informOpsStored (storedOps : List StoredOp) : HashM Unit := do
  let env ← Eff.read
  Eff.each
    (fun i => onSector i (TimePartition.informOpsStored (sectorOps loc env.partition.size storedOps i)))
    (touchedSectors loc env.partition.size storedOps)

end HashPartition

/-! ## Sector arcs -/

/-- The arc of the sector with index `i`. -/
def sectorArc (i : Nat) : DhtArc :=
  .arc (i * sectorSize) ((i + 1) * sectorSize - 1)

theorem sectorSize_pos : 0 < sectorSize := by decide

theorem sectorArcs_eq : HashPartition.sectorArcs = (List.range numSectors).map sectorArc := by
  have hsplit : List.range numSectors = List.range (numSectors - 1) ++ [numSectors - 1] := by
    rw [← List.range_succ]
    rfl
  have hlast : DhtArc.arc ((numSectors - 1) * sectorSize) u32Max = sectorArc (numSectors - 1) := by
    decide
  have hrest : (List.range (numSectors - 1)).map
      (fun i => DhtArc.arc (i * sectorSize) (min u32Max ((i + 1) * sectorSize) - 1)) =
      (List.range (numSectors - 1)).map sectorArc := by
    apply List.map_congr_left
    intro i hi
    have hlt : i < numSectors - 1 := List.mem_range.mp hi
    have hle : (i + 1) * sectorSize ≤ u32Max := by
      rw [numSectors_eq] at hlt
      simp only [sectorSize, u32Max]
      omega
    rw [Nat.min_eq_right hle]
    rfl
  unfold HashPartition.sectorArcs
  rw [hrest, hlast, hsplit, List.map_append, List.map_singleton]

theorem contains_sectorArc_iff {i l : Nat} :
    (sectorArc i).contains l = true ↔ l / sectorSize = i := by
  have hpos := sectorSize_pos
  have hend : (i + 1) * sectorSize = i * sectorSize + sectorSize := by ring
  unfold sectorArc
  rw [DhtArc.contains_arc_iff (by omega), Nat.div_eq_iff hpos]
  omega

theorem sectorArc_inj {i j : Nat} (h : sectorArc i = sectorArc j) : i = j := by
  have hin : (sectorArc j).contains (i * sectorSize) = true := by
    rw [← h, contains_sectorArc_iff]
    exact Nat.mul_div_cancel i sectorSize_pos
  rw [contains_sectorArc_iff, Nat.mul_div_cancel i sectorSize_pos] at hin
  exact hin

theorem sectorArc_ne_empty (i : Nat) : sectorArc i ≠ .empty := by
  intro h
  cases h

/-! ## Loops over sectors -/

theorem returns_onSector_iff {i : Nat} {m : PartM Unit} {env env' : HashEnv} {u : Unit} :
    Returns (onSector i m) env u env' ↔
      ∃ tp out, env.partition.sectors[i]? = some tp ∧
        Returns m { part := tp, store := env.store } () out ∧
        env' = { partition := { env.partition with sectors := env.partition.sectors.set i out.part }
                 store := out.store } := by
  unfold Returns onSector
  cases hi : env.partition.sectors[i]? with
  | none =>
      simp
  | some tp =>
      rcases hm : m { part := tp, store := env.store } with ⟨r, out⟩
      constructor
      · intro h
        simp only [hm, Prod.mk.injEq] at h
        exact ⟨tp, out, rfl, by rw [hm, h.1], h.2.symm⟩
      · rintro ⟨tp', out', htp, hout, rfl⟩
        cases htp
        rw [hm] at hout
        simp only [Prod.mk.injEq] at hout
        simp only [hm]
        rw [hout.1, hout.2]

/-- A fact about a sector that only its own arc of the store can change. -/
def Local (P : Nat → SectorEnv → Prop) : Prop :=
  ∀ i j tp st st', i ≠ j → OwnArcOnly (sectorArc i) st st' →
    P j { part := tp, store := st } → P j { part := tp, store := st' }

/-- Every sector satisfies its fact. -/
def EverySector (P : Nat → SectorEnv → Prop) (env : HashEnv) : Prop :=
  ∀ i tp, env.partition.sectors[i]? = some tp → P i { part := tp, store := env.store }

/-- What a function on sectors leaves alone. -/
structure SameFrame (env env' : HashEnv) : Prop where
  size : env'.partition.size = env.partition.size
  length : env'.partition.sectors.length = env.partition.sectors.length
  opList : env'.store.opList = env.store.opList
  reliable : env.store.failures = [] → env'.store.failures = []

theorem SameFrame.refl (env : HashEnv) : SameFrame env env :=
  ⟨rfl, rfl, rfl, fun h => h⟩

theorem SameFrame.trans {env env' env'' : HashEnv} (h : SameFrame env env')
    (h' : SameFrame env' env'') : SameFrame env env'' :=
  ⟨h'.size.trans h.size, h'.length.trans h.length, h'.opList.trans h.opList,
    fun hrel => h'.reliable (h.reliable hrel)⟩

/-- One pass: the sector it is about moves from `P` to `Q`, the others keep what they have. -/
theorem returns_onSector_step {P Q : Nat → SectorEnv → Prop} {i : Nat} {m : PartM Unit}
    {env env' : HashEnv} {u : Unit} (hP : Local P)
    (hbody : ∀ e e', P i e → Returns m e () e' → Q i e' ∧ OwnArcOnly (sectorArc i) e.store e'.store)
    (henv : EverySector P env) (h : Returns (onSector i m) env u env') :
    SameFrame env env' ∧ EverySector (fun j => if j = i then Q j else P j) env' := by
  rcases returns_onSector_iff.mp h with ⟨tp, out, htp, hm, rfl⟩
  rcases hbody _ _ (henv i tp htp) hm with ⟨hQ, hown⟩
  refine ⟨⟨rfl, by simp, hown.opList, hown.reliable⟩, ?_⟩
  intro j tp' htp'
  simp only [List.getElem?_set] at htp'
  by_cases hji : j = i
  · subst hji
    have hlt : j < env.partition.sectors.length := (List.getElem?_eq_some_iff.mp htp).1
    simp only [if_true, hlt, Option.some.injEq] at htp'
    subst htp'
    simpa using hQ
  · have hij : ¬ i = j := fun h => hji h.symm
    simp only [hij, if_false] at htp'
    simp only [hji, if_false]
    exact hP i j tp' _ _ hij hown (henv j tp' htp')

theorem local_ite {P Q : Nat → SectorEnv → Prop} (hP : Local P) (hQ : Local Q) (p : Nat → Prop)
    [DecidablePred p] : Local (fun j => if p j then Q j else P j) := by
  intro i j tp st st' hij hown
  by_cases hp : p j
  · simp only [hp, if_true]
    exact hQ i j tp st st' hij hown
  · simp only [hp, if_false]
    exact hP i j tp st st' hij hown

/-- A loop over distinct sectors moves exactly these sectors from `P` to `Q`. -/
theorem returns_eachSector {Q : Nat → SectorEnv → Prop} {m : Nat → PartM Unit} (hQ : Local Q) :
    ∀ (l : List Nat) {P : Nat → SectorEnv → Prop} {env env' : HashEnv} {u : Unit}, Local P →
      l.Nodup →
      (∀ i ∈ l, ∀ e e', P i e → Returns (m i) e () e' →
        Q i e' ∧ OwnArcOnly (sectorArc i) e.store e'.store) →
      EverySector P env → Returns (Eff.each (fun i => onSector i (m i)) l) env u env' →
      SameFrame env env' ∧ EverySector (fun j e => (j ∈ l → Q j e) ∧ (j ∉ l → P j e)) env' := by
  intro l
  induction l with
  | nil =>
      intro P env env' u _ _ _ henv h
      rcases returns_pure_iff.mp h with ⟨_, rfl⟩
      refine ⟨SameFrame.refl env, ?_⟩
      intro j tp htp
      exact ⟨fun hj => (List.not_mem_nil hj).elim, fun _ => henv j tp htp⟩
  | cons i l ih =>
      intro P env env' u hP hnd hbody henv h
      rcases List.nodup_cons.mp hnd with ⟨hnotin, hnd'⟩
      rcases returns_each_cons_iff.mp h with ⟨env1, h1, h2⟩
      rcases returns_onSector_step hP (hbody i (by simp)) henv h1 with ⟨hframe1, henv1⟩
      -- sectors already done meet Q, the ones to come still P: one predicate for the rest of
      -- the list
      have hrest : ∀ k ∈ l, ∀ e e', (if k = i then Q k else P k) e → Returns (m k) e () e' →
          Q k e' ∧ OwnArcOnly (sectorArc k) e.store e'.store := by
        intro k hk e e' he
        have hki : ¬ k = i := fun heq => hnotin (heq ▸ hk)
        rw [if_neg hki] at he
        exact hbody k (by simp [hk]) e e' he
      rcases ih (local_ite hP hQ (· = i)) hnd' hrest henv1 h2 with ⟨hframe2, henv2⟩
      refine ⟨hframe1.trans hframe2, ?_⟩
      intro j tp htp
      rcases henv2 j tp htp with ⟨hin, hout⟩
      by_cases hjl : j ∈ l
      · exact ⟨fun _ => hin hjl, fun hj => absurd (List.mem_cons_of_mem i hjl) hj⟩
      · have hj := hout hjl
        by_cases hji : j = i
        · rw [if_pos hji] at hj
          exact ⟨fun _ => hj, fun hmem => absurd (by simp [hji]) hmem⟩
        · rw [if_neg hji] at hj
          refine ⟨fun hmem => ?_, fun _ => hj⟩
          rcases List.mem_cons.mp hmem with heq | hmem'
          · exact absurd heq hji
          · exact absurd hmem' hjl

/-- A loop over sectors returns if its body does. -/
theorem eachSector_returns {Q : Nat → SectorEnv → Prop} {m : Nat → PartM Unit} (hQ : Local Q) :
    ∀ (l : List Nat) {P : Nat → SectorEnv → Prop} {env : HashEnv}, Local P → l.Nodup →
      (∀ i ∈ l, i < env.partition.sectors.length) →
      (∀ i ∈ l, ∀ e, P i e → ∃ e', Returns (m i) e () e' ∧ Q i e' ∧
        OwnArcOnly (sectorArc i) e.store e'.store) →
      EverySector P env → ∃ env', Returns (Eff.each (fun i => onSector i (m i)) l) env () env' := by
  intro l
  induction l with
  | nil =>
      intro P env _ _ _ _ _
      exact ⟨env, returns_pure_iff.mpr ⟨rfl, rfl⟩⟩
  | cons i l ih =>
      intro P env hP hnd hlt hbody henv
      rcases List.nodup_cons.mp hnd with ⟨hnotin, hnd'⟩
      have htp := List.getElem?_eq_getElem (hlt i (by simp))
      rcases hbody i (by simp) _ (henv i _ htp) with ⟨e', hm, _⟩
      have hone : ∃ env1, Returns (onSector i (m i)) env () env1 :=
        ⟨_, returns_onSector_iff.mpr ⟨_, e', htp, hm, rfl⟩⟩
      rcases hone with ⟨env1, hone⟩
      -- the body is deterministic, so what it returns here is what it always returns
      have hstep : ∀ e e', P i e → Returns (m i) e () e' →
          Q i e' ∧ OwnArcOnly (sectorArc i) e.store e'.store := by
        intro e e1 hPe hret
        rcases hbody i (by simp) e hPe with ⟨e2, hret2, hspec⟩
        rw [(hret.det hret2).2]
        exact hspec
      rcases returns_onSector_step hP hstep henv hone with ⟨hframe, henv1⟩
      have hrest : ∀ k ∈ l, ∀ e, (if k = i then Q k else P k) e → ∃ e', Returns (m k) e () e' ∧
          Q k e' ∧ OwnArcOnly (sectorArc k) e.store e'.store := by
        intro k hk e he
        have hki : ¬ k = i := fun heq => hnotin (heq ▸ hk)
        rw [if_neg hki] at he
        exact hbody k (by simp [hk]) e he
      rcases ih (local_ite hP hQ (· = i)) hnd'
        (fun k hk => by rw [hframe.length]; exact hlt k (by simp [hk])) hrest henv1 with ⟨env', h'⟩
      exact ⟨env', returns_each_cons_iff.mpr ⟨_, hone, h'⟩⟩

/-! ## Mutation of all sectors -/

section Mutating

variable {loc : LocCb} {P Q : Nat → SectorEnv → Prop} {env env' : HashEnv} {u : Unit}

/-- An update moves every sector from `P` to `Q`. -/
theorem returns_partition_update {now : Int} (hP : Local P) (hQ : Local Q)
    (hbody : ∀ i < env.partition.sectors.length, ∀ e e', P i e →
      Returns (TimePartition.update loc now) e () e' →
      Q i e' ∧ OwnArcOnly (sectorArc i) e.store e'.store)
    (henv : EverySector P env) (hret : Returns (HashPartition.update loc now) env u env') :
    SameFrame env env' ∧ EverySector Q env' := by
  have hret := returns_read_bind_iff.mp hret
  rcases returns_eachSector hQ _ hP List.nodup_range
    (fun i hi => hbody i (List.mem_range.mp hi)) henv hret with ⟨hframe, hevery⟩
  refine ⟨hframe, ?_⟩
  intro i tp htp
  have hlt : i < env.partition.sectors.length := by
    rw [← hframe.length]
    exact (List.getElem?_eq_some_iff.mp htp).1
  exact (hevery i tp htp).1 (List.mem_range.mpr hlt)

/-- What every sector keeps when it is informed of its ops, the partition keeps. -/
theorem returns_partition_inform {ops : List StoredOp} (hP : Local P)
    (hbody : ∀ i e e', P i e → Returns (TimePartition.informOpsStored
        (HashPartition.sectorOps loc env.partition.size ops i)) e () e' →
      P i e' ∧ OwnArcOnly (sectorArc i) e.store e'.store)
    (henv : EverySector P env) (hret : Returns (HashPartition.informOpsStored loc ops) env u env') :
    SameFrame env env' ∧ EverySector P env' := by
  have hret := returns_read_bind_iff.mp hret
  rcases returns_eachSector hP _ hP (List.nodup_dedup _) (fun i _ => hbody i) henv hret
    with ⟨hframe, hevery⟩
  refine ⟨hframe, ?_⟩
  intro i tp htp
  rcases hevery i tp htp with ⟨hin, hout⟩
  by_cases hmem : i ∈ HashPartition.touchedSectors loc env.partition.size ops
  · exact hin hmem
  · exact hout hmem

end Mutating

/-! ## Rebuilding all sectors -/

/-- Sectors outside the list keep their slice hashes. -/
structure SectorsOnly (l : List Nat) (st st' : OpStore) : Prop where
  opList : st'.opList = st.opList
  others : ∀ j, j ∉ l → st'.sliceHashes (sectorArc j) = st.sliceHashes (sectorArc j)
  reliable : st.failures = [] → st'.failures = []

theorem SectorsOnly.stored {l : List Nat} {st st' : OpStore} (h : SectorsOnly l st st') :
    st'.stored = st.stored := by
  unfold OpStore.stored
  rw [h.opList]

theorem OwnArcOnly.cons {i : Nat} {l : List Nat} {st st1 st' : OpStore}
    (h : OwnArcOnly (sectorArc i) st st1) (h' : SectorsOnly l st1 st') :
    SectorsOnly (i :: l) st st' := by
  refine ⟨h'.opList.trans h.opList, ?_, fun hrel => h'.reliable (h.reliable hrel)⟩
  intro j hj
  have hji : j ≠ i := fun heq => hj (by simp [heq])
  have hjl : j ∉ l := fun hmem => hj (by simp [hmem])
  rw [h'.others j hjl, h.others _ (fun heq => hji (sectorArc_inj heq))]

/-- A rebuilt partition whose sectors all satisfy their fact. -/
structure Rebuilt (P : Nat → SectorEnv → Prop) (st : OpStore) (env : HashEnv) : Prop where
  size : env.partition.size = sectorSize
  length : env.partition.sectors.length = numSectors
  sector : EverySector P env
  only : SectorsOnly (List.range numSectors) st env.store

section Rebuilding

variable {loc : LocCb} {f : Nat} {t : Int} {P : Nat → SectorEnv → Prop} {S : Nat → OpStore → Prop}

theorem returns_buildSectors (hP : Local P)
    (hS : ∀ i j st st', i ≠ j → OwnArcOnly (sectorArc i) st st' → S j st → S j st')
    (hone : ∀ i tp st st', S i st →
      Returns (TimePartition.tryFromStore loc f t (sectorArc i)) st tp st' →
      P i { part := tp, store := st' } ∧ OwnArcOnly (sectorArc i) st st') :
    ∀ (l : List Nat) {st st' : OpStore} {tps : List TimePartition}, l.Nodup → (∀ i ∈ l, S i st) →
      Returns (HashPartition.buildSectors loc f t (l.map sectorArc)) st tps st' →
      List.Forall₂ (fun i tp => P i { part := tp, store := st' }) l tps ∧ SectorsOnly l st st' ∧
        ∀ i tp, i ∉ l → P i { part := tp, store := st } → P i { part := tp, store := st' } := by
  intro l
  induction l with
  | nil =>
      intro st st' tps _ _ h
      rcases returns_pure_iff.mp h with ⟨rfl, rfl⟩
      exact ⟨List.Forall₂.nil, ⟨rfl, fun _ _ => rfl, fun h => h⟩, fun _ _ _ hfact => hfact⟩
  | cons i l ih =>
      intro st st' tps hnd hst h
      rcases List.nodup_cons.mp hnd with ⟨hi, hnd'⟩
      rcases returns_bind_iff.mp h with ⟨tp, st1, htp, h⟩
      rcases returns_bind_iff.mp h with ⟨rest, st2, hrest, h⟩
      rcases returns_pure_iff.mp h with ⟨rfl, rfl⟩
      rcases hone i tp st st1 (hst i (by simp)) htp with ⟨hfact, hown⟩
      have hst1 : ∀ j ∈ l, S j st1 :=
        fun j hj => hS i j st st1 (fun heq => hi (heq ▸ hj)) hown (hst j (by simp [hj]))
      rcases ih hnd' hst1 hrest with ⟨hall, honly, hkeep⟩
      -- the later sectors do not touch this one
      refine ⟨List.Forall₂.cons (hkeep i tp hi hfact) hall, hown.cons honly, ?_⟩
      intro j tp' hj hfact'
      have hji : i ≠ j := fun heq => hj (by simp [heq])
      exact hkeep j tp' (fun hmem => hj (by simp [hmem])) (hP i j tp' st st1 hji hown hfact')

/-- Sectors that can be rebuilt one at a time can be rebuilt one after the other. -/
theorem buildSectors_returns_of
    (hS : ∀ i j st st', i ≠ j → OwnArcOnly (sectorArc i) st st' → S j st → S j st')
    (hone : ∀ i st, S i st → ∃ tp st',
      Returns (TimePartition.tryFromStore loc f t (sectorArc i)) st tp st' ∧
        OwnArcOnly (sectorArc i) st st') :
    ∀ (l : List Nat) {st : OpStore}, l.Nodup → (∀ i ∈ l, S i st) →
      ∃ tps st', Returns (HashPartition.buildSectors loc f t (l.map sectorArc)) st tps st' := by
  intro l
  induction l with
  | nil =>
      intro st _ _
      exact ⟨[], st, returns_pure_iff.mpr ⟨rfl, rfl⟩⟩
  | cons i l ih =>
      intro st hnd hst
      rcases List.nodup_cons.mp hnd with ⟨hi, hnd'⟩
      rcases hone i st (hst i (by simp)) with ⟨tp, st1, htp, hown⟩
      have hst1 : ∀ j ∈ l, S j st1 :=
        fun j hj => hS i j st st1 (fun heq => hi (heq ▸ hj)) hown (hst j (by simp [hj]))
      rcases ih hnd' hst1 with ⟨rest, st', hrest⟩
      refine ⟨tp :: rest, st', ?_⟩
      refine returns_bind_iff.mpr ⟨tp, st1, htp, ?_⟩
      exact returns_bind_iff.mpr ⟨rest, st', hrest, returns_pure_iff.mpr ⟨rfl, rfl⟩⟩

theorem rebuild_returns_of
    (hS : ∀ i j st st', i ≠ j → OwnArcOnly (sectorArc i) st st' → S j st → S j st')
    (hone : ∀ i st, S i st → ∃ tp st',
      Returns (TimePartition.tryFromStore loc f t (sectorArc i)) st tp st' ∧
        OwnArcOnly (sectorArc i) st st')
    {st : OpStore} (hst : ∀ i < numSectors, S i st) :
    ∃ p st', Returns (HashPartition.tryFromStore loc f t) st p st' := by
  rcases buildSectors_returns_of hS hone _ List.nodup_range
    (fun i hi => hst i (List.mem_range.mp hi)) with ⟨tps, st', hbuild⟩
  rw [← sectorArcs_eq] at hbuild
  exact ⟨_, st', returns_bind_iff.mpr ⟨tps, st', hbuild, returns_pure_iff.mpr ⟨rfl, rfl⟩⟩⟩

/-- Rebuilding sector by sector: `S` is what a sector is rebuilt from and `P` what comes of it. -/
theorem returns_rebuild (hP : Local P)
    (hS : ∀ i j st st', i ≠ j → OwnArcOnly (sectorArc i) st st' → S j st → S j st')
    (hone : ∀ i tp st st', S i st →
      Returns (TimePartition.tryFromStore loc f t (sectorArc i)) st tp st' →
      P i { part := tp, store := st' } ∧ OwnArcOnly (sectorArc i) st st')
    {st st' : OpStore} {p : HashPartition} (hst : ∀ i < numSectors, S i st)
    (h : Returns (HashPartition.tryFromStore loc f t) st p st') :
    Rebuilt P st { partition := p, store := st' } := by
  rcases returns_bind_iff.mp h with ⟨tps, st1, hbuild, h⟩
  rcases returns_pure_iff.mp h with ⟨rfl, rfl⟩
  rw [sectorArcs_eq] at hbuild
  rcases returns_buildSectors hP hS hone _ List.nodup_range
    (fun i hi => hst i (List.mem_range.mp hi)) hbuild with ⟨hall, honly, _⟩
  have hlen := hall.length_eq
  rw [List.length_range] at hlen
  refine ⟨rfl, hlen.symm, ?_, honly⟩
  intro i tp htp
  rcases List.getElem?_eq_some_iff.mp htp with ⟨hi, rfl⟩
  have hi' : i < (List.range numSectors).length := by
    rw [List.length_range, hlen]
    exact hi
  have hget := hall.get hi' hi
  simpa using hget

end Rebuilding

end Dht
end Kitsune2
