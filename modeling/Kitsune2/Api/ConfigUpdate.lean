import Kitsune2.Api.Config

/-!
# ConfigUpdate — when an update of the config is all or nothing

A call of `set_module_config` that fails has met a conflict, and keeps what the walk has changed
before it. The callbacks of what was changed are not run.  A call that succeeds stores every new
entry, leaves all others, and runs each callback it should once.
-/

namespace Kitsune2
namespace Api

open Lib

variable {Key Value Cb : Type} [LinearOrder Key]

namespace ConfigMap

/-! ## What comes before a conflict -/

mutual

/-- An entry meets a map, or a map an entry. -/
def conflicts : ConfigMap Key Value Cb → ConfigMap Key Value Cb → Bool
  | .configMap oldMap, .configMap newMap => conflictsAny oldMap newMap
  | .configEntry _, .configMap _ => true
  | .configMap oldMap, .configEntry _ => !oldMap.isEmpty
  | .configEntry _, .configEntry _ => false

def conflictsAny (oldMap : List (Key × ConfigMap Key Value Cb)) :
    List (Key × ConfigMap Key Value Cb) → Bool
  | [] => false
  | (key, newMap) :: rest =>
      (match SortedMap.find key oldMap with
        | none => false
        | some old => conflicts old newMap) || conflictsAny oldMap rest

end

section

variable [DecidableEq Value]

mutual

/-- Every map and every value of the new tree is stored. -/
def stores : ConfigMap Key Value Cb → ConfigMap Key Value Cb → Bool
  | .configMap oldMap, .configMap newMap => storesAll oldMap newMap
  | .configEntry oldEntry, .configEntry newEntry => oldEntry.value = newEntry.value
  | _, _ => false

def storesAll (oldMap : List (Key × ConfigMap Key Value Cb)) :
    List (Key × ConfigMap Key Value Cb) → Bool
  | [] => true
  | (key, newMap) :: rest =>
      (match SortedMap.find key oldMap with
        | none => false
        | some old => stores old newMap) && storesAll oldMap rest

end

mutual

/-- What comes before the first conflict, in the order of the keys, is stored. -/
def storesUpToConflict : ConfigMap Key Value Cb → ConfigMap Key Value Cb → Bool
  | .configMap oldMap, .configMap newMap => storesAllUpToConflict oldMap newMap
  | _, _ => true

def storesAllUpToConflict (oldMap : List (Key × ConfigMap Key Value Cb)) :
    List (Key × ConfigMap Key Value Cb) → Bool
  | [] => true
  | (key, newMap) :: rest =>
      match SortedMap.find key oldMap with
      | none => false
      | some old =>
          if conflicts old newMap then storesUpToConflict old newMap
          else stores old newMap && storesAllUpToConflict oldMap rest

end

end

/-! ## The walk over one map -/

variable {debugPath : String} {key : Key} {old new : ConfigMap Key Value Cb}
  {oldMap newMap : List (Key × ConfigMap Key Value Cb)}

/-- A walk leaves alone what it has no key for. -/
theorem find_applyEntries_of_ne (debugPath : String) (hne : ∀ child ∈ newMap, child.1 ≠ key) :
    SortedMap.find key (applyEntries debugPath oldMap newMap).map = SortedMap.find key oldMap := by
  induction newMap generalizing oldMap with
  | nil => rfl
  | cons child rest ih =>
      rcases child with ⟨k, n⟩
      have hk : key ≠ k := (hne _ List.mem_cons_self).symm
      have hrest := fun child hchild => hne child (List.mem_cons_of_mem _ hchild)
      simp only [applyEntries]
      split
      · exact SortedMap.find_put_ne hk _ _
      · rw [ih hrest, SortedMap.find_put_ne hk]

theorem conflictsAny_congr {oldMap' : List (Key × ConfigMap Key Value Cb)}
    (h : ∀ child ∈ newMap, SortedMap.find child.1 oldMap = SortedMap.find child.1 oldMap') :
    conflictsAny oldMap newMap = conflictsAny oldMap' newMap := by
  induction newMap with
  | nil => rfl
  | cons child rest ih =>
      rcases child with ⟨k, n⟩
      have hk := h _ List.mem_cons_self
      simp only [conflictsAny, ih fun child hchild => h child (List.mem_cons_of_mem _ hchild)]
      rw [show SortedMap.find k oldMap = SortedMap.find k oldMap' from hk]

/-- A tree that is new to the stored one meets nothing. -/
theorem conflicts_default (new : ConfigMap Key Value Cb) :
    conflicts (default : ConfigMap Key Value Cb) new = false := by
  have hany : ∀ m : List (Key × ConfigMap Key Value Cb), conflictsAny [] m = false := by
    intro m
    induction m with
    | nil => rfl
    | cons child rest ih =>
        rcases child with ⟨k, n⟩
        simp [conflictsAny, SortedMap.find, ih]
  cases new with
  | configEntry e => rfl
  | configMap m => exact hany m

section

variable [DecidableEq Value]

/-- A walk fails exactly at a conflict; without one it leaves the tree as it was exactly when everything
was stored, and with one when everything before it was. -/
structure Walked (debugPath : String) (old new : ConfigMap Key Value Cb) : Prop where
  result : (applyMap debugPath old new).result = .ok () ↔ conflicts old new = false
  stores : conflicts old new = false →
    ((applyMap debugPath old new).map = old ↔ stores old new = true)
  storesUpTo : conflicts old new = true →
    ((applyMap debugPath old new).map = old ↔ storesUpToConflict old new = true)

structure WalkedAll (debugPath : String) (oldMap newMap : List (Key × ConfigMap Key Value Cb)) :
    Prop where
  result : (applyEntries debugPath oldMap newMap).result = .ok () ↔
    conflictsAny oldMap newMap = false
  stores : conflictsAny oldMap newMap = false →
    ((applyEntries debugPath oldMap newMap).map = oldMap ↔ storesAll oldMap newMap = true)
  storesUpTo : conflictsAny oldMap newMap = true →
    ((applyEntries debugPath oldMap newMap).map = oldMap ↔
      storesAllUpToConflict oldMap newMap = true)

/-- One key after the other, with what is known of the walk below each. -/
theorem walkedAll (debugPath : String) (hsorted : SortedMap.Ascending newMap)
    (hchild : ∀ child ∈ newMap, ∀ old, Walked debugPath old child.2) :
    ∀ oldMap, WalkedAll debugPath oldMap newMap := by
  induction newMap with
  | nil =>
      intro oldMap
      exact ⟨by simp [applyEntries, conflictsAny], fun _ => by simp [applyEntries, storesAll],
        fun h => by cases h⟩
  | cons child rest ih =>
      rcases child with ⟨k, n⟩
      rcases List.pairwise_cons.mp hsorted with ⟨hfirst, hrest⟩
      have ih := ih hrest fun child hmem => hchild child (List.mem_cons_of_mem _ hmem)
      have hn := hchild (k, n) List.mem_cons_self
      have hne : ∀ child ∈ rest, child.1 ≠ k := fun child hmem => (hfirst child hmem).ne'
      intro oldMap
      -- what the walk below the key leaves, and what the walk over the rest makes of it
      cases hfind : SortedMap.find k oldMap with
      | none =>
          have hok := (hn default).result.mpr (conflicts_default n)
          have hsame : ∀ v, conflictsAny (SortedMap.put k v oldMap) rest = conflictsAny oldMap rest :=
            fun v => conflictsAny_congr fun child hmem => SortedMap.find_put_ne (hne child hmem) v _
          have hchanged : (applyEntries debugPath oldMap ((k, n) :: rest)).map ≠ oldMap := by
            intro heq
            have hput : SortedMap.find k (applyEntries debugPath oldMap ((k, n) :: rest)).map =
                some (applyMap debugPath default n).map := by
              simp only [applyEntries, hfind, Option.getD_none, hok]
              rw [find_applyEntries_of_ne _ hne, SortedMap.find_put_self]
            rw [heq, hfind] at hput
            cases hput
          refine ⟨?_, fun _ => ?_, fun _ => ?_⟩
          · simp only [applyEntries, hfind, Option.getD_none, hok, conflictsAny, Bool.false_or]
            rw [(ih _).result, hsame]
          · simp [storesAll, hfind, hchanged]
          · simp [storesAllUpToConflict, hfind, hchanged]
      | some o =>
          by_cases hc : conflicts o n = true
          · -- the walk stops below this key
            rcases hresult : (applyMap debugPath o n).result with e | ⟨⟩
            · refine ⟨?_, fun hnot => ?_, fun _ => ?_⟩
              · simp [applyEntries, conflictsAny, hfind, hresult, hc]
              · simp [conflictsAny, hfind, hc] at hnot
              · simp only [applyEntries, hfind, Option.getD_some, hresult, storesAllUpToConflict, hc,
                  if_true]
                rw [SortedMap.put_eq_self_iff, hfind, Option.some.injEq, eq_comm]
                exact (hn o).storesUpTo hc
            · rw [(hn o).result.mp hresult] at hc
              cases hc
          · rw [Bool.not_eq_true] at hc
            have hok := (hn o).result.mpr hc
            have hsame : ∀ v, conflictsAny (SortedMap.put k v oldMap) rest = conflictsAny oldMap rest :=
              fun v => conflictsAny_congr fun child hmem =>
                SortedMap.find_put_ne (hne child hmem) v _
            have hany : conflictsAny oldMap ((k, n) :: rest) = conflictsAny oldMap rest := by
              simp only [conflictsAny, hfind, hc, Bool.false_or]
            -- nothing is changed at this key, and then nothing at the others
            have hkept : (applyEntries debugPath oldMap ((k, n) :: rest)).map = oldMap ↔
                (applyMap debugPath o n).map = o ∧
                  (applyEntries debugPath oldMap rest).map = oldMap := by
              simp only [applyEntries, hfind, Option.getD_some, hok]
              constructor
              · intro heq
                have hput := SortedMap.find_put_self k (applyMap debugPath o n).map oldMap
                rw [← find_applyEntries_of_ne debugPath hne, heq, hfind] at hput
                have ho := (Option.some.inj hput).symm
                rw [ho, SortedMap.put_of_find hfind] at heq
                exact ⟨ho, heq⟩
              · rintro ⟨ho, heq⟩
                rw [ho, SortedMap.put_of_find hfind, heq]
            refine ⟨?_, fun hnone => ?_, fun hsome => ?_⟩
            · rw [hany]
              simp only [applyEntries, hfind, Option.getD_some, hok]
              rw [(ih _).result, hsame]
            · rw [hany] at hnone
              rw [hkept, (hn o).stores hc, (ih oldMap).stores hnone]
              simp [storesAll, hfind]
            · rw [hany] at hsome
              rw [hkept, (hn o).stores hc, (ih oldMap).storesUpTo hsome]
              simp [storesAllUpToConflict, hfind, hc]

theorem walked (hsorted : new.Sorted) : ∀ old, Walked debugPath old new := by
  induction new using ConfigMap.induction with
  -- an entry lands on an entry or on an empty map; any other map is the conflict itself
  | entry e =>
      intro old
      cases old with
      | configEntry o =>
          refine ⟨by simp [applyMap, conflicts], fun _ => ?_, fun h => by cases h⟩
          rcases o with ⟨value, updateCb⟩
          simp [applyMap, ConfigMap.stores, eq_comm]
      | configMap m =>
          cases hm : m.isEmpty with
          | true =>
              refine ⟨by simp [applyMap, conflicts, hm], fun _ => ?_, fun h => ?_⟩
              · simp [applyMap, ConfigMap.stores, hm]
              · simp [conflicts, hm] at h
          | false =>
              refine ⟨by simp [applyMap, conflicts, hm], fun h => ?_, fun _ => ?_⟩
              · simp [conflicts, hm] at h
              · simp [applyMap, storesUpToConflict, hm]
  | map m ih =>
      intro old
      cases old with
      | configEntry o =>
          exact ⟨by simp [applyMap, conflicts], fun h => (by cases h),
            fun _ => by simp [applyMap, storesUpToConflict]⟩
      | configMap o =>
          -- the children are walked in order, each with its own induction hypothesis
          have hall := walkedAll debugPath hsorted.1
            (fun child hmem => ih child hmem (sortedAll_iff.mp hsorted.2 child hmem)) o
          refine ⟨?_, fun h => ?_, fun h => ?_⟩
          · exact hall.result
          · simp only [applyMap, ConfigMap.configMap.injEq]
            exact hall.stores h
          · simp only [applyMap, ConfigMap.configMap.injEq]
            exact hall.storesUpTo h

end

/-! ## What a walk that succeeds leaves -/

/-- The walk below one key of a new map. -/
def underKey (debugPath : String) (oldMap : List (Key × ConfigMap Key Value Cb))
    (child : Key × ConfigMap Key Value Cb) : Applied Value Cb (ConfigMap Key Value Cb) :=
  applyMap debugPath ((SortedMap.find child.1 oldMap).getD default) child.2

theorem applyEntries_ok (hsorted : SortedMap.Ascending newMap) :
    ∀ oldMap, (applyEntries debugPath oldMap newMap).result = .ok () →
      (∀ child ∈ newMap, (underKey debugPath oldMap child).result = .ok () ∧
        SortedMap.find child.1 (applyEntries debugPath oldMap newMap).map =
          some (underKey debugPath oldMap child).map) ∧
        (applyEntries debugPath oldMap newMap).updates =
          newMap.flatMap fun child => (underKey debugPath oldMap child).updates := by
  induction newMap with
  | nil => exact fun oldMap _ => ⟨fun child hmem => absurd hmem List.not_mem_nil, rfl⟩
  | cons child rest ih =>
      rcases child with ⟨k, n⟩
      rcases List.pairwise_cons.mp hsorted with ⟨hfirst, hrest⟩
      have hne : ∀ child ∈ rest, child.1 ≠ k := fun child hmem => (hfirst child hmem).ne'
      intro oldMap hok
      rcases hresult : (applyMap debugPath ((SortedMap.find k oldMap).getD default) n).result
        with e | ⟨⟩
      · simp only [applyEntries, hresult] at hok
        cases hok
      · simp only [applyEntries, hresult] at hok ⊢
        rcases ih hrest _ hok with ⟨hkeys, hupdates⟩
        -- the walk over the rest finds below its keys what was there before
        have hbelow : ∀ child ∈ rest, underKey debugPath (SortedMap.put k
            (applyMap debugPath ((SortedMap.find k oldMap).getD default) n).map oldMap) child =
              underKey debugPath oldMap child := by
          intro child hmem
          unfold underKey
          rw [SortedMap.find_put_ne (hne child hmem)]
        refine ⟨?_, ?_⟩
        · intro child hmem
          rcases List.mem_cons.mp hmem with rfl | hmem
          · refine ⟨hresult, ?_⟩
            rw [find_applyEntries_of_ne _ hne, SortedMap.find_put_self]
            rfl
          · rw [← hbelow child hmem]
            exact hkeys child hmem
        · rw [List.flatMap_cons, hupdates]
          congr 1
          exact List.flatMap_congr fun child hmem => by rw [hbelow child hmem]

/-- A new entry takes over the callback of the one it overwrites. -/
def overwritten : Option (ConfigEntry Value Cb) → Option (ConfigEntry Value Cb) →
    Option (ConfigEntry Value Cb)
  | old, none => old
  | none, some new => some new
  | some old, some new => some { old with value := new.value }

theorem entryAt_applyMap (hsorted : new.Sorted) :
    ∀ old path, (applyMap debugPath old new).result = .ok () →
      (applyMap debugPath old new).map.entryAt path =
        overwritten (old.entryAt path) (new.entryAt path) := by
  induction new using ConfigMap.induction with
  | entry e =>
      intro old path hok
      cases old with
      | configEntry o =>
          cases path with
          | nil => rfl
          | cons k path => rfl
      | configMap m =>
          cases m with
          | cons child rest => simp [applyMap] at hok
          | nil =>
              cases path with
              | nil => rfl
              | cons k path => rfl
  | map m ih =>
      intro old path hok
      cases old with
      | configEntry o => simp [applyMap] at hok
      | configMap o =>
          cases path with
          | nil => rfl
          | cons k path =>
              simp only [applyMap] at hok ⊢
              rw [entryAt_cons, entryAt_cons, entryAt_cons]
              cases hfind : SortedMap.find k m with
              -- no child of the update has this key: the path still leads through the old map
              | none =>
                  have hne : ∀ child ∈ m, child.1 ≠ k := by
                    rintro ⟨k', n⟩ hmem rfl
                    rw [hsorted.1.mem_iff, hfind] at hmem
                    cases hmem
                  have hnone : (default : ConfigMap Key Value Cb).entryAt path = none := by
                    cases path <;> rfl
                  rw [find_applyEntries_of_ne _ hne, Option.getD_none, hnone]
                  rfl
              -- the child applied its own part, and no later child has the same key
              | some n =>
                  have hmem := hsorted.1.mem_iff.mpr hfind
                  rcases (applyEntries_ok hsorted.1 o hok).1 _ hmem with ⟨hbelow, hfinal⟩
                  rw [hfinal]
                  exact ih _ hmem (sortedAll_iff.mp hsorted.2 _ hmem) _ path hbelow

/-- The callback of a stored entry that a new one overwrites, with the new value. -/
def callback (old : ConfigMap Key Value Cb) (new : List Key × ConfigEntry Value Cb) :
    Option (Cb × Value) :=
  ((old.entryAt new.1).bind ConfigEntry.updateCb).map fun updateCb => (updateCb, new.2.value)

theorem updates_applyMap (hsorted : new.Sorted) :
    ∀ old, (applyMap debugPath old new).result = .ok () →
      (applyMap debugPath old new).updates = new.entries.filterMap old.callback := by
  induction new using ConfigMap.induction with
  | entry e =>
      intro old hok
      cases old with
      | configEntry o =>
          rcases o with ⟨value, _ | updateCb⟩
          · rfl
          · rfl
      | configMap m =>
          cases m with
          | cons child rest => simp [applyMap] at hok
          | nil => rfl
  | map m ih =>
      intro old hok
      cases old with
      | configEntry o => simp [applyMap] at hok
      -- an accepted map applies every child to the old one under its key, in order
      | configMap o =>
          simp only [applyMap] at hok ⊢
          rcases applyEntries_ok hsorted.1 o hok with ⟨hkeys, hupdates⟩
          rw [hupdates, ConfigMap.entries, entriesAll_eq, List.filterMap_flatMap]
          refine List.flatMap_congr fun child hmem => ?_
          have hchild := ih child hmem (sortedAll_iff.mp hsorted.2 child hmem) _ (hkeys child hmem).1
          rw [List.filterMap_map]
          refine hchild.trans (List.filterMap_congr fun e _ => ?_)
          simp only [callback, Function.comp_apply, entryAt_cons]

end ConfigMap

/-! ## All or nothing -/

namespace Config

/-- What a call of `set_module_config` is to do: nothing when it fails, else to store every new entry at
its path and to leave all others, and to run the callbacks of what it overwrote, each once. -/
structure AllOrNothing (config : Config Key Value Cb) (inMap : Except Fault (InMap Key Value Cb))
    (outcome : SetOutcome Key Value Cb) : Prop where
  failed : outcome.result ≠ .ok () → outcome.config = config ∧ outcome.ran = []
  stored : outcome.result = .ok () → ∀ new, inMap = .ok new → ∀ path entry,
    new.1.entryAt path = some entry →
      (outcome.config.map.entryAt path).map ConfigEntry.value = some entry.value
  others : outcome.result = .ok () → ∀ new, inMap = .ok new → ∀ path,
    new.1.entryAt path = none → outcome.config.map.entryAt path = config.map.entryAt path
  ran : outcome.result = .ok () → ∀ new, inMap = .ok new →
    ∃ entries : List (List Key × ConfigEntry Value Cb), (entries.map Prod.fst).Nodup ∧
      (∀ path entry, (path, entry) ∈ entries ↔ new.1.entryAt path = some entry) ∧
      outcome.ran = entries.filterMap config.map.callback

/-- Nothing of the new tree conflicts with the stored one, or what comes before the first conflict is
stored. -/
def StoredUpToConflict [DecidableEq Value] (config : Config Key Value Cb)
    (inMap : Except Fault (InMap Key Value Cb)) : Prop :=
  ∀ new, inMap = .ok new → config.map.conflicts new.1 = true →
    config.map.storesUpToConflict new.1 = true

/-- A call is all or nothing exactly when everything that comes before a conflict is stored already. -/
theorem setModuleConfig_allOrNothing_iff [DecidableEq Value]
    (debug : ConfigMap Key Value Cb → String) (config : Config Key Value Cb)
    (inMap : Except Fault (InMap Key Value Cb)) :
    AllOrNothing config inMap (config.setModuleConfig debug inMap) ↔
      StoredUpToConflict config inMap := by
  cases inMap with
  -- the update does not even serialize: nothing is touched
  | error e =>
      refine ⟨fun _ new hnew => (by cases hnew), fun _ => ⟨fun _ => ⟨rfl, rfl⟩, ?_, ?_, ?_⟩⟩
      · exact fun _ new hnew => by cases hnew
      · exact fun _ new hnew => by cases hnew
      · exact fun _ new hnew => by cases hnew
  | ok new =>
      have hwalked : ConfigMap.Walked (debug new.1) config.map new.1 :=
        ConfigMap.walked new.2 config.map
      have hresult : (config.setModuleConfig debug (.ok new)).result =
          (ConfigMap.applyMap (debug new.1) config.map new.1).result := rfl
      constructor
      · intro h new' hnew hconflict
        cases hnew
        -- the walk fails at its first conflict, so all-or-nothing compares the map with the old
        -- one
        have hfails : (config.setModuleConfig debug (.ok new)).result ≠ .ok () := by
          rw [hresult, Ne, hwalked.result, hconflict]
          exact Bool.noConfusion
        exact (hwalked.storesUpTo hconflict).mp (congrArg Config.map (h.failed hfails).1)
      · intro h
        refine ⟨?_, ?_, ?_, ?_⟩
        · intro hfails
          rw [hresult, Ne, hwalked.result, Bool.not_eq_false] at hfails
          refine ⟨ext_map ((hwalked.storesUpTo hfails).mpr (h new rfl hfails)), ?_⟩
          have hnot : (ConfigMap.applyMap (debug new.1) config.map new.1).result ≠ .ok () := by
            rw [Ne, hwalked.result, hfails]
            exact Bool.noConfusion
          simp only [setModuleConfig]
          split
          · rfl
          · exact absurd ‹_› hnot
        · intro hok new' hnew path entry hentry
          cases hnew
          change ((ConfigMap.applyMap _ config.map new.1).map.entryAt path).map _ = _
          rw [ConfigMap.entryAt_applyMap new.2 _ _ hok, hentry]
          cases config.map.entryAt path <;> rfl
        · intro hok new' hnew path hnone
          cases hnew
          change (ConfigMap.applyMap _ config.map new.1).map.entryAt path = _
          rw [ConfigMap.entryAt_applyMap new.2 _ _ hok, hnone]
          rfl
        · intro hok new' hnew
          cases hnew
          -- the callbacks that run are those of the entries of the update, once each
          refine ⟨new.1.entries, ConfigMap.nodup_entries new.2, ConfigMap.mem_entries_iff new.2, ?_⟩
          rw [← ConfigMap.updates_applyMap new.2 _ hok]
          simp only [setModuleConfig]
          split
          · rename_i e herror
            rw [hresult, herror] at hok
            cases hok
          · rfl

/-- Two entries, the first with a callback. -/
def twoEntries : Config Nat Nat Unit where
  map := .configMap [(0, .configEntry ⟨3, some ()⟩), (1, .configEntry ⟨5, none⟩)]
  sorted := ⟨List.pairwise_pair.mpr Nat.zero_lt_one, trivial, trivial, trivial⟩

/-- A new value for the first entry, and a map for the second. -/
def mapForSecond : InMap Nat Nat Unit :=
  ⟨.configMap [(0, .configEntry ⟨7, none⟩), (1, .configMap [(0, .configEntry ⟨9, none⟩)])],
    List.pairwise_pair.mpr Nat.zero_lt_one, trivial, ⟨List.pairwise_singleton _ _, trivial, trivial⟩,
    trivial⟩

/-- The call fails at the second entry, but the first one has the new value, of which its callback is not
told. -/
theorem setModuleConfig_half_applied :
    ∃ (debug : ConfigMap Nat Nat Unit → String) (config : Config Nat Nat Unit)
      (inMap : Except Fault (InMap Nat Nat Unit)),
      ¬ AllOrNothing config inMap (config.setModuleConfig debug inMap) := by
  refine ⟨fun _ => "", twoEntries, .ok mapForSecond, fun h => ?_⟩
  have hunchanged := (h.failed fun hok => by cases hok).1
  have hentry := congrArg (fun config : Config Nat Nat Unit => config.map.entryAt [0]) hunchanged
  cases hentry

end Config

end Api
end Kitsune2
