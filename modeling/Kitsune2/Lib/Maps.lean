import Mathlib.Data.List.Induction
import Mathlib.Data.List.Nodup
import Mathlib.Data.List.Sort
import Mathlib.Tactic.Common
import Std.Data.ExtTreeMap

/-!
# Maps — sparse maps built by loops and compared key by key

Maps with `Nat` keys are extensional ordered maps.  `insertAll` is the loop that inserts a value for
each key that has one; `mismatchedKeys` collects the keys at which two maps differ, first those that
only one of them has, then those where both have different values.
-/

namespace Kitsune2
namespace Lib

open Std (ExtTreeMap)

variable {β : Type}

/-! ## Building -/

def insertSome (m : ExtTreeMap Nat β) (k : Nat) : Option β → ExtTreeMap Nat β
  | none => m
  | some v => m.insert k v

/-- For each key of the list, in order, insert its value if it has one. -/
def insertAll (m : ExtTreeMap Nat β) (keys : List Nat) (value : Nat → Option β) : ExtTreeMap Nat β :=
  keys.foldl (fun m k => insertSome m k (value k)) m

theorem getElem?_insertAll (keys : List Nat) (value : Nat → Option β) :
    ∀ (m : ExtTreeMap Nat β) (k : Nat),
      (insertAll m keys value)[k]? = if k ∈ keys then (value k).or m[k]? else m[k]? := by
  induction keys with
  | nil =>
      intro m k
      simp [insertAll]
  | cons key keys ih =>
      intro m k
      have hstep : insertAll m (key :: keys) value =
          insertAll (insertSome m key (value key)) keys value := rfl
      rw [hstep, ih]
      by_cases hk : k = key
      · subst hk
        cases hv : value k with
        | none =>
            simp [insertSome]
        | some v =>
            simp [insertSome]
      · have hk' : ¬ key = k := fun h => hk h.symm
        cases hv : value key with
        | none =>
            simp [insertSome, hk]
        | some v =>
            simp [insertSome, hk, hk', ExtTreeMap.getElem?_insert]

theorem foldlM_insertSome {ε : Type} (m : ExtTreeMap Nat β) (keys : List Nat)
    (value : Nat → Option β) :
    keys.foldlM (fun m k => (.ok (insertSome m k (value k)) : Except ε (ExtTreeMap Nat β))) m =
      Except.ok (insertAll m keys value) := by
  induction keys generalizing m with
  | nil =>
      rfl
  | cons k keys ih =>
      rw [List.foldlM_cons]
      exact ih (insertSome m k (value k))

/-! ## Comparing -/

/-- The keys that exactly one of the maps has. -/
def symmetricDifference (ours theirs : ExtTreeMap Nat β) : List Nat :=
  ours.keys.filter (fun k => !theirs.contains k) ++ theirs.keys.filter (fun k => !ours.contains k)

/-- The keys that both maps have. -/
def commonKeys (ours theirs : ExtTreeMap Nat β) : List Nat :=
  ours.keys.filter fun k => theirs.contains k

/-- The keys at which the maps differ. -/
def mismatchedKeys [DecidableEq β] (ours theirs : ExtTreeMap Nat β) : List Nat :=
  symmetricDifference ours theirs ++
    (commonKeys ours theirs).filter fun k => ours[k]? ≠ theirs[k]?

theorem mem_symmetricDifference_iff {ours theirs : ExtTreeMap Nat β} {k : Nat} :
    k ∈ symmetricDifference ours theirs ↔ (k ∈ ours ∧ k ∉ theirs) ∨ (k ∈ theirs ∧ k ∉ ours) := by
  simp only [symmetricDifference, List.mem_append, List.mem_filter, ExtTreeMap.mem_keys,
    ← ExtTreeMap.contains_iff_mem, Bool.not_eq_true', Bool.not_eq_true]

theorem mem_commonKeys_iff {ours theirs : ExtTreeMap Nat β} {k : Nat} :
    k ∈ commonKeys ours theirs ↔ k ∈ ours ∧ k ∈ theirs := by
  simp [commonKeys]

theorem getElem?_eq_none_iff' {m : ExtTreeMap Nat β} {k : Nat} : m[k]? = none ↔ k ∉ m := by
  rw [ExtTreeMap.mem_iff_isSome_getElem?, Option.not_isSome_iff_eq_none]

theorem mem_mismatchedKeys_iff [DecidableEq β] {ours theirs : ExtTreeMap Nat β} {k : Nat} :
    k ∈ mismatchedKeys ours theirs ↔ ours[k]? ≠ theirs[k]? := by
  simp only [mismatchedKeys, List.mem_append, mem_symmetricDifference_iff, List.mem_filter,
    mem_commonKeys_iff, decide_eq_true_eq]
  by_cases ho : k ∈ ours
  · by_cases ht : k ∈ theirs
    · simp [ho, ht]
    · have hnone : theirs[k]? = none := getElem?_eq_none_iff'.mpr ht
      have hsome : ours[k]? ≠ none := fun h => getElem?_eq_none_iff'.mp h ho
      simp [ho, ht]
  · have hnone : ours[k]? = none := getElem?_eq_none_iff'.mpr ho
    by_cases ht : k ∈ theirs
    · have hsome : theirs[k]? ≠ none := fun h => getElem?_eq_none_iff'.mp h ht
      simp [ho, ht]
    · simp [ho, ht]

theorem mismatchedKeys_eq_nil_iff [DecidableEq β] {ours theirs : ExtTreeMap Nat β} :
    mismatchedKeys ours theirs = [] ↔ ours = theirs := by
  constructor
  · intro h
    apply ExtTreeMap.ext_getElem?
    intro k
    by_contra hne
    have hmem := mem_mismatchedKeys_iff.mpr hne
    rw [h] at hmem
    cases hmem
  · rintro rfl
    apply List.eq_nil_iff_forall_not_mem.mpr
    intro k hk
    exact mem_mismatchedKeys_iff.mp hk rfl

/-! ## Listing -/

/-- The entries of a map whose keys lie below a bound. -/
theorem toList_perm {m : ExtTreeMap Nat β} {bound : Nat} (h : ∀ k, bound ≤ k → m[k]? = none) :
    m.toList.Perm ((List.range bound).filterMap fun k => m[k]?.map fun v => (k, v)) := by
  have hleft : m.toList.Nodup := by
    have hkeys : (m.toList.map Prod.fst).Nodup := by
      rw [ExtTreeMap.map_fst_toList_eq_keys]
      exact ExtTreeMap.nodup_keys
    exact List.Nodup.of_map _ hkeys
  have hright : ((List.range bound).filterMap fun k => m[k]?.map fun v => (k, v)).Nodup := by
    refine List.Nodup.filterMap ?_ List.nodup_range
    intro k k' e he he'
    simp only [Option.mem_def, Option.map_eq_some_iff] at he he'
    rcases he with ⟨v, _, rfl⟩
    rcases he' with ⟨v', _, heq⟩
    exact (Prod.mk.inj heq).1.symm
  -- two lists without duplicates and with the same members
  refine (List.perm_ext_iff_of_nodup hleft hright).mpr ?_
  rintro ⟨k, v⟩
  rw [ExtTreeMap.mem_toList_iff_getElem?_eq_some, List.mem_filterMap]
  constructor
  · intro hv
    have hlt : k < bound := by
      by_contra hge
      rw [h k (not_lt.mp hge)] at hv
      cases hv
    exact ⟨k, List.mem_range.mpr hlt, by simp [hv]⟩
  · rintro ⟨k', _, he⟩
    simp only [Option.map_eq_some_iff, Prod.mk.injEq] at he
    rcases he with ⟨v', hv', rfl, rfl⟩
    exact hv'

/-- The entries are listed in the order of their keys. -/
theorem toList_eq {m : ExtTreeMap Nat β} (bound : Nat) (h : ∀ k, bound ≤ k → m[k]? = none) :
    m.toList = (List.range bound).filterMap fun k => m[k]?.map fun v => (k, v) := by
  have hright : ((List.range bound).filterMap fun k => m[k]?.map fun v => (k, v)).Pairwise
      fun a b => a.1 < b.1 := by
    refine List.pairwise_lt_range.filterMap _ ?_
    intro k k' hlt e he e' he'
    rcases Option.map_eq_some_iff.mp he with ⟨v, _, rfl⟩
    rcases Option.map_eq_some_iff.mp he' with ⟨v', _, rfl⟩
    exact hlt
  have hleft : m.toList.Pairwise fun a b => a.1 < b.1 :=
    ExtTreeMap.ordered_keys_toList.imp fun hlt => Nat.compare_eq_lt.mp hlt
  refine List.Perm.eq_of_pairwise ?_ hleft hright (toList_perm h)
  intro a b _ _ hab hba
  exact absurd hab (Nat.lt_asymm hba)

theorem values_eq_foldr (m : ExtTreeMap Nat β) : m.values = m.foldr (fun _ v l => v :: l) [] := by
  rcases m with ⟨⟨m⟩⟩
  induction m using Quotient.inductionOn with
  | h m => rfl

/-- The values are listed in the order of their keys. -/
theorem map_snd_toList_eq_values (m : ExtTreeMap Nat β) : m.toList.map Prod.snd = m.values := by
  rw [values_eq_foldr, ExtTreeMap.foldr_eq_foldr_toList]
  induction m.toList with
  | nil =>
      rfl
  | cons e l ih =>
      rw [List.map_cons, List.foldr_cons, ih]

/-- The keys are listed in order, so maps with the same keys list them alike. -/
theorem keys_eq_of_mem_iff {m m' : ExtTreeMap Nat β} (h : ∀ k, k ∈ m ↔ k ∈ m') :
    m.keys = m'.keys := by
  have hsorted : ∀ m : ExtTreeMap Nat β, m.keys.Pairwise (· < ·) := fun m =>
    ExtTreeMap.ordered_keys.imp fun hlt => Nat.compare_eq_lt.mp hlt
  have hperm : m.keys.Perm m'.keys := by
    refine (List.perm_ext_iff_of_nodup ExtTreeMap.nodup_keys ExtTreeMap.nodup_keys).mpr ?_
    intro k
    rw [ExtTreeMap.mem_keys, ExtTreeMap.mem_keys]
    exact h k
  refine List.Perm.eq_of_pairwise ?_ (hsorted m) (hsorted m') hperm
  intro a b _ _ hab hba
  exact absurd hab (Nat.lt_asymm hba)

theorem mem_insertAll_iff {keys : List Nat} {value : Nat → β} {k : Nat} :
    k ∈ insertAll ∅ keys (fun k => some (value k)) ↔ k ∈ keys := by
  rw [ExtTreeMap.mem_iff_isSome_getElem?, getElem?_insertAll]
  by_cases hk : k ∈ keys
  · simp [hk]
  · simp [hk]

theorem getElem?_insertAll_some {keys : List Nat} {value : Nat → β} {k : Nat} (hk : k ∈ keys) :
    (insertAll ∅ keys fun k => some (value k))[k]? = some (value k) := by
  rw [getElem?_insertAll, if_pos hk]
  rfl

/-- A loop over the entries of a map, as a loop over the keys that it visits. -/
theorem flatMap_filterMap_eq {γ δ : Type} {g : Nat → Option γ} {h : γ → List δ} {p : Nat → Bool}
    {cells : Nat → List δ} :
    ∀ l : List Nat, (∀ k ∈ l, (g k).elim [] h = if p k then cells k else []) →
      (l.filterMap g).flatMap h = (l.filter p).flatMap cells := by
  intro l
  induction l with
  | nil =>
      intro _
      rfl
  | cons k l ih =>
      intro hk
      have hhead := hk k (by simp)
      have htail := ih fun j hj => hk j (by simp [hj])
      cases hg : g k with
      | none =>
          rw [hg] at hhead
          rw [List.filterMap_cons_none hg, htail]
          by_cases hp : p k
          · rw [if_pos hp] at hhead
            rw [List.filter_cons_of_pos hp, List.flatMap_cons, ← hhead]
            rfl
          · rw [List.filter_cons_of_neg hp]
      | some v =>
          rw [hg] at hhead
          rw [List.filterMap_cons_some hg, List.flatMap_cons, htail]
          by_cases hp : p k
          · rw [if_pos hp] at hhead
            rw [List.filter_cons_of_pos hp, List.flatMap_cons, ← hhead]
            rfl
          · rw [if_neg hp] at hhead
            rw [List.filter_cons_of_neg hp, show h v = [] from hhead]
            rfl

/-! ## Sorting -/

theorem nodup_mismatchedKeys [DecidableEq β] (ours theirs : ExtTreeMap Nat β) :
    (mismatchedKeys ours theirs).Nodup := by
  have hours : ours.keys.Nodup := ExtTreeMap.nodup_keys
  have htheirs : theirs.keys.Nodup := ExtTreeMap.nodup_keys
  refine List.Nodup.append (List.Nodup.append (hours.filter _) (htheirs.filter _) ?_)
    ((hours.filter _).filter _) ?_
  · intro k hk hk'
    simp only [List.mem_filter, ExtTreeMap.mem_keys, Bool.not_eq_true',
      ← Bool.not_eq_true, ExtTreeMap.contains_iff_mem] at hk hk'
    exact hk.2 hk'.1
  · intro k hk hk'
    have hcommon := mem_commonKeys_iff.mp (List.mem_filter.mp hk').1
    rcases mem_symmetricDifference_iff.mp hk with ⟨_, hnot⟩ | ⟨_, hnot⟩
    · exact hnot hcommon.2
    · exact hnot hcommon.1

/-- Sorted, the keys at which two maps differ do not depend on which map is ours. -/
theorem sort_mismatchedKeys [DecidableEq β] {ours theirs : ExtTreeMap Nat β} {l : List Nat}
    (hsorted : l.Pairwise (· < ·)) (h : ∀ k, ours[k]? ≠ theirs[k]? → k ∈ l) :
    (mismatchedKeys ours theirs).insertionSort (· ≤ ·) = l.filter fun k => ours[k]? ≠ theirs[k]? := by
  have hright : (l.filter fun k => ours[k]? ≠ theirs[k]?).Pairwise (· < ·) := hsorted.filter _
  have hnodup : (l.filter fun k => ours[k]? ≠ theirs[k]?).Nodup :=
    hright.imp fun hlt => Nat.ne_of_lt hlt
  have hperm : ((mismatchedKeys ours theirs).insertionSort (· ≤ ·)).Perm
      (l.filter fun k => ours[k]? ≠ theirs[k]?) := by
    refine (List.perm_insertionSort _ _).trans ?_
    refine (List.perm_ext_iff_of_nodup (nodup_mismatchedKeys ours theirs) hnodup).mpr ?_
    intro k
    rw [mem_mismatchedKeys_iff, List.mem_filter, decide_eq_true_eq]
    exact ⟨fun hne => ⟨h k hne, hne⟩, fun hmem => hmem.2⟩
  exact List.Perm.eq_of_pairwise' (List.pairwise_insertionSort _ _)
    (hright.imp fun hlt => Nat.le_of_lt hlt) hperm

/-! ## Collecting -/

/-- `collect` of a list of entries: of a key that repeats, the last value stays. -/
def ofEntries (l : List (Nat × β)) : ExtTreeMap Nat β :=
  l.foldl (fun m e => m.insert e.1 e.2) ∅

theorem ofEntries_concat (l : List (Nat × β)) (e : Nat × β) :
    ofEntries (l ++ [e]) = (ofEntries l).insert e.1 e.2 := by
  simp [ofEntries]

/-- What a collected map has at a key is the value at the key's last position. -/
theorem getElem?_ofEntries (l : List (Nat × β)) (k : Nat) (v : β) :
    (ofEntries l)[k]? = some v ↔
      ∃ p : Nat, l[p]? = some (k, v) ∧ ∀ q : Nat, p < q → ∀ w, l[q]? ≠ some (k, w) := by
  induction l using List.reverseRecOn with
  | nil =>
      simp [ofEntries]
  | append_singleton l e ih =>
      rw [ofEntries_concat, ExtTreeMap.getElem?_insert]
      by_cases hk : e.1 = k
      · -- The new entry is the last one of its key.
        rw [if_pos (by simpa using hk), Option.some_inj]
        constructor
        · intro hv
          refine ⟨l.length, ?_, ?_⟩
          · simp [← hk, ← hv]
          · intro q hq w hw
            have hlt := (List.getElem?_eq_some_iff.mp hw).1
            rw [List.length_append, List.length_singleton] at hlt
            omega
        · rintro ⟨p, hp, hlast⟩
          have hlt := (List.getElem?_eq_some_iff.mp hp).1
          rw [List.length_append, List.length_singleton] at hlt
          have hend : ¬ p < l.length := by
            intro hp'
            exact hlast l.length hp' e.2 (by simp [← hk])
          have hpe : p = l.length := by omega
          rw [hpe, List.getElem?_concat_length, Option.some_inj] at hp
          rw [hp]
      · -- The entry of another key is at no position of this one.
        rw [if_neg (by simpa using hk), ih]
        have hpos : ∀ (p : Nat) (w : β), (l ++ [e])[p]? = some (k, w) ↔ l[p]? = some (k, w) := by
          intro p w
          rcases Nat.lt_trichotomy p l.length with hp | hp | hp
          · rw [List.getElem?_append_left hp]
          · rw [hp, List.getElem?_concat_length, List.getElem?_eq_none (Nat.le_refl _)]
            simp only [Option.some_inj, reduceCtorEq, iff_false]
            intro he
            exact hk (by rw [he])
          · rw [List.getElem?_eq_none (by simp; omega), List.getElem?_eq_none (by omega)]
        simp only [hpos, ne_eq]

/-- The entries of a map make up the map again, in whatever order they come. -/
theorem ofEntries_perm {l : List (Nat × β)} {m : ExtTreeMap Nat β} (h : l.Perm m.toList) :
    ofEntries l = m := by
  have hmem : ∀ k v, (k, v) ∈ l ↔ m[k]? = some v := by
    intro k v
    rw [h.mem_iff, ExtTreeMap.mem_toList_iff_getElem?_eq_some]
  -- No key repeats, so every entry is the last one of its key.
  have hkeys : l.Pairwise fun a b => a.1 ≠ b.1 := by
    refine (h.pairwise_iff fun {a b} hab => Ne.symm hab).mpr ?_
    exact (ExtTreeMap.distinct_keys_toList (t := m)).imp fun hne heq => hne (by simp [heq])
  apply ExtTreeMap.ext_getElem?
  intro k
  ext v
  rw [getElem?_ofEntries, ← hmem]
  constructor
  · rintro ⟨p, hp, -⟩
    exact List.mem_of_getElem? hp
  · intro hkv
    rcases List.getElem?_of_mem hkv with ⟨p, hp⟩
    refine ⟨p, hp, ?_⟩
    intro q hpq w hq
    rcases List.getElem?_eq_some_iff.mp hp with ⟨hpl, hpe⟩
    rcases List.getElem?_eq_some_iff.mp hq with ⟨hql, hqe⟩
    have hne := List.pairwise_iff_getElem.mp hkeys p q hpl hql hpq
    rw [hpe, hqe] at hne
    exact hne rfl

end Lib
end Kitsune2
