import Mathlib.Data.List.Nodup
import Kitsune2.Api.Basic
import Kitsune2.Lib.SortedMap

/-!
# Config — the tree of config values and its updates

A config is a tree whose leaves are entries: a value, and a callback that wants to know of its
updates. `set_module_config` walks over the new tree in the order of its keys and changes the stored
one as it goes, until an entry meets a map or a map an entry.
-/

namespace Kitsune2
namespace Api

open Lib

/-! ## Trees -/

structure ConfigEntry (Value Cb : Type) where
  value : Value
  updateCb : Option Cb
  deriving DecidableEq, Repr

/-- A map lists its entries in the order of their keys. -/
inductive ConfigMap (Key Value Cb : Type) where
  | configMap (map : List (Key × ConfigMap Key Value Cb))
  | configEntry (entry : ConfigEntry Value Cb)

variable {Key Value Cb : Type} [LinearOrder Key]

namespace ConfigMap

/-- `ConfigMap::default`. -/
def default : ConfigMap Key Value Cb :=
  .configMap []

/-- The entry at a path. -/
def entryAt : ConfigMap Key Value Cb → List Key → Option (ConfigEntry Value Cb)
  | .configEntry entry, [] => some entry
  | .configEntry _, _ :: _ => none
  | .configMap _, [] => none
  | .configMap map, key :: path =>
      match SortedMap.find key map with
      | none => none
      | some child => child.entryAt path

mutual

/-- Every map of the tree is in the order of its keys. -/
def Sorted : ConfigMap Key Value Cb → Prop
  | .configEntry _ => True
  | .configMap map => SortedMap.Ascending map ∧ SortedAll map

def SortedAll : List (Key × ConfigMap Key Value Cb) → Prop
  | [] => True
  | (_, child) :: rest => child.Sorted ∧ SortedAll rest

end

mutual

/-- All entries of the tree with their paths. -/
def entries : ConfigMap Key Value Cb → List (List Key × ConfigEntry Value Cb)
  | .configEntry entry => [([], entry)]
  | .configMap map => entriesAll map

def entriesAll : List (Key × ConfigMap Key Value Cb) → List (List Key × ConfigEntry Value Cb)
  | [] => []
  | (key, child) :: rest =>
      child.entries.map (fun e => (key :: e.1, e.2)) ++ entriesAll rest

end

end ConfigMap

/-! ## Applying a tree -/

/-- Where a walk over a new tree has come to: whether it has failed, the updates it has collected, and
the tree as it is now. -/
structure Applied (Value Cb M : Type) where
  result : Except Fault Unit
  updates : List (Cb × Value)
  map : M

namespace ConfigMap

mutual

/-- `apply_map`.  The old tree stays as far as it has been changed when an error stops the walk. -/
def applyMap (debugPath : String) :
    ConfigMap Key Value Cb → ConfigMap Key Value Cb → Applied Value Cb (ConfigMap Key Value Cb)
  | .configMap oldMap, .configMap newMap =>
      let applied := applyEntries debugPath oldMap newMap
      { applied with map := .configMap applied.map }
  | .configEntry oldEntry, .configMap _ =>
      { result := .error (.k2 (debugPath ++ " attempted to insert a map where an entry exists"))
        updates := []
        map := .configEntry oldEntry }
  -- an empty map is what a fresh node is, so only an empty one may turn into an entry
  | .configMap oldMap, .configEntry newEntry =>
      if oldMap.isEmpty then
        { result := .ok (), updates := [], map := .configEntry newEntry }
      else
        { result := .error (.k2 (debugPath ++ " attempted to insert an entry where a map exists"))
          updates := []
          map := .configMap oldMap }
  | .configEntry oldEntry, .configEntry newEntry =>
      { result := .ok ()
        -- the callback is only collected here: it runs after the lock is released
        updates := oldEntry.updateCb.toList.map fun updateCb => (updateCb, newEntry.value)
        map := .configEntry { oldEntry with value := newEntry.value } }

/-- The walk over the entries of a new map. -/
def applyEntries (debugPath : String) :
    List (Key × ConfigMap Key Value Cb) → List (Key × ConfigMap Key Value Cb) →
      Applied Value Cb (List (Key × ConfigMap Key Value Cb))
  | oldMap, [] => { result := .ok (), updates := [], map := oldMap }
  | oldMap, (key, newMap) :: rest =>
      let applied := applyMap debugPath ((SortedMap.find key oldMap).getD default) newMap
      let oldMap := SortedMap.put key applied.map oldMap
      match applied.result with
      | .error e => { result := .error e, updates := applied.updates, map := oldMap }
      | .ok () =>
          let later := applyEntries debugPath oldMap rest
          { later with updates := applied.updates ++ later.updates }

end

/-- The walk of `register_entry_update_cb` along a path.  `null` is what an entry has before any value
was set. -/
def register (null : Value) (updateCb : Cb) :
    List Key → ConfigMap Key Value Cb → Except Fault Value × ConfigMap Key Value Cb
  | [], .configMap map =>
      if map.isEmpty then (.ok null, .configEntry ⟨null, some updateCb⟩)
      else (.error (.k2 "attempted to insert an entry where a map exists"), .configMap map)
  | [], .configEntry entry => (.ok entry.value, .configEntry { entry with updateCb := some updateCb })
  | key :: path, .configMap map =>
      let child := register null updateCb path ((SortedMap.find key map).getD default)
      (child.1, .configMap (SortedMap.put key child.2 map))
  | _ :: _, .configEntry entry =>
      (.error (.k2 "attempted to insert a map where an entry exists"), .configEntry entry)

/-! ## The entries of a tree -/

omit [LinearOrder Key] in
mutual

/-- What holds of every entry, and of a map when it holds of all its children, holds of every tree. -/
theorem induction {motive : ConfigMap Key Value Cb → Prop}
    (entry : ∀ e, motive (.configEntry e))
    (map : ∀ m, (∀ child ∈ m, motive child.2) → motive (.configMap m)) : ∀ t, motive t
  | .configEntry e => entry e
  | .configMap m => map m (inductionAll entry map m)

theorem inductionAll {motive : ConfigMap Key Value Cb → Prop}
    (entry : ∀ e, motive (.configEntry e))
    (map : ∀ m, (∀ child ∈ m, motive child.2) → motive (.configMap m)) :
    ∀ (m : List (Key × ConfigMap Key Value Cb)), ∀ child ∈ m, motive child.2
  | [], _, hmem => absurd hmem List.not_mem_nil
  | (_, c) :: rest, child, hmem =>
      (List.mem_cons.mp hmem).elim (fun h => h ▸ induction entry map c)
        (fun h => inductionAll entry map rest child h)

end

variable {old new : ConfigMap Key Value Cb}
  {oldMap newMap : List (Key × ConfigMap Key Value Cb)}

theorem sortedAll_iff : SortedAll newMap ↔ ∀ child ∈ newMap, child.2.Sorted := by
  induction newMap with
  | nil => simp [SortedAll]
  | cons child rest ih =>
      rcases child with ⟨key, child⟩
      simp [SortedAll, ih]

omit [LinearOrder Key] in
theorem entriesAll_eq :
    entriesAll newMap =
      newMap.flatMap fun child => child.2.entries.map fun e => (child.1 :: e.1, e.2) := by
  induction newMap with
  | nil => rfl
  | cons child rest ih =>
      rcases child with ⟨key, child⟩
      simp only [entriesAll, List.flatMap_cons, ih]

theorem entryAt_cons (m : List (Key × ConfigMap Key Value Cb)) (k : Key) (path : List Key) :
    (configMap m).entryAt (k :: path) = ((SortedMap.find k m).getD default).entryAt path := by
  rw [entryAt]
  cases SortedMap.find k m with
  | some child => rfl
  | none => cases path <;> rfl

theorem mem_entries_iff (hsorted : new.Sorted) : ∀ path entry,
    (path, entry) ∈ new.entries ↔ new.entryAt path = some entry := by
  induction new using ConfigMap.induction with
  | entry e =>
      intro path entry
      cases path with
      | nil => simp [ConfigMap.entries, entryAt, eq_comm]
      | cons k path => simp [ConfigMap.entries, entryAt]
  | map m ih =>
      intro path entry
      simp only [ConfigMap.entries, entriesAll_eq, List.mem_flatMap, List.mem_map, Prod.mk.injEq]
      cases path with
      | nil => simp [entryAt]
      | cons k path =>
          rw [entryAt_cons]
          -- a sorted map holds a key once, so the child found under `k` is the one listed
          constructor
          · rintro ⟨⟨k', n⟩, hmem, ⟨path', entry'⟩, hentry, hpath, rfl⟩
            cases hpath
            rw [hsorted.1.mem_iff.mp hmem]
            exact (ih _ hmem (sortedAll_iff.mp hsorted.2 _ hmem) _ _).mp hentry
          · intro hentry
            cases hfind : SortedMap.find k m with
            | none =>
                rw [hfind] at hentry
                cases path <;> cases hentry
            | some n =>
                rw [hfind] at hentry
                have hmem := hsorted.1.mem_iff.mpr hfind
                exact ⟨(k, n), hmem, (path, entry),
                  (ih _ hmem (sortedAll_iff.mp hsorted.2 _ hmem) _ _).mpr hentry, rfl, rfl⟩

theorem nodup_entries (hsorted : new.Sorted) : (new.entries.map Prod.fst).Nodup := by
  induction new using ConfigMap.induction with
  | entry e => exact List.nodup_singleton _
  | map m ih =>
      simp only [ConfigMap.entries, entriesAll_eq, List.map_flatMap, List.map_map]
      refine List.nodup_flatMap.mpr ⟨?_, hsorted.1.imp ?_⟩
      · intro child hmem
        have hchild := ih child hmem (sortedAll_iff.mp hsorted.2 child hmem)
        have hcons : (child.2.entries.map Prod.fst).map (fun path => child.1 :: path) =
            child.2.entries.map (Prod.fst ∘ fun e => (child.1 :: e.1, e.2)) := List.map_map
        rw [← hcons]
        exact hchild.map fun _ _ heq => (List.cons.inj heq).2
      · -- paths below different keys are different
        intro child child' hlt path hpath hpath'
        rcases List.mem_map.mp hpath with ⟨e, _, rfl⟩
        rcases List.mem_map.mp hpath' with ⟨e', _, heq⟩
        exact hlt.ne' (List.cons.inj heq).1

/-! ## The order of the keys -/

theorem sorted_default : (default : ConfigMap Key Value Cb).Sorted :=
  ⟨List.Pairwise.nil, trivial⟩

theorem sorted_getD (hsorted : (configMap oldMap).Sorted) (key : Key) :
    ((SortedMap.find key oldMap).getD default).Sorted := by
  cases hfind : SortedMap.find key oldMap with
  | none => exact sorted_default
  | some child => exact sortedAll_iff.mp hsorted.2 _ (hsorted.1.mem_iff.mpr hfind)

theorem sorted_put (hsorted : (configMap oldMap).Sorted) {child : ConfigMap Key Value Cb}
    (hchild : child.Sorted) (key : Key) : (configMap (SortedMap.put key child oldMap)).Sorted := by
  refine ⟨hsorted.1.put key child, sortedAll_iff.mpr fun e he => ?_⟩
  rcases SortedMap.mem_put he with rfl | he
  · exact hchild
  · exact sortedAll_iff.mp hsorted.2 e he

theorem sorted_applyMap (debugPath : String) (hnew : new.Sorted) :
    ∀ old : ConfigMap Key Value Cb, old.Sorted → (applyMap debugPath old new).map.Sorted := by
  induction new using ConfigMap.induction with
  | entry e =>
      intro old hold
      cases old with
      | configEntry o => trivial
      | configMap m =>
          cases m with
          | cons child rest => exact hold
          | nil => trivial
  | map m ih =>
      intro old hold
      cases old with
      | configEntry o => trivial
      | configMap o =>
          -- one key after the other
          have hall : ∀ rest : List (Key × ConfigMap Key Value Cb), (∀ child ∈ rest, child ∈ m) →
              ∀ o, (configMap o).Sorted → (configMap (applyEntries debugPath o rest).map).Sorted := by
            intro rest
            induction rest with
            | nil => exact fun _ o ho => ho
            | cons child rest ihRest =>
                rcases child with ⟨k, n⟩
                intro hsub o ho
                have hmem := hsub _ List.mem_cons_self
                have hput := sorted_put ho (ih _ hmem (sortedAll_iff.mp hnew.2 _ hmem) _
                  (sorted_getD ho k)) k
                simp only [applyEntries]
                split
                · exact hput
                · exact ihRest (fun child hchild => hsub child (List.mem_cons_of_mem _ hchild)) _ hput
          exact hall m (fun _ hmem => hmem) o hold

/-! ## Registering a callback -/

theorem sorted_register (null : Value) (updateCb : Cb) (path : List Key) :
    ∀ old : ConfigMap Key Value Cb, old.Sorted → (register null updateCb path old).2.Sorted := by
  induction path with
  | nil =>
      intro old hold
      cases old with
      | configEntry o => trivial
      | configMap m =>
          cases m with
          | cons child rest => exact hold
          | nil => trivial
  | cons k path ih =>
      intro old hold
      cases old with
      | configEntry o => trivial
      | configMap m => exact sorted_put hold (ih _ (sorted_getD hold k)) k

theorem register_default (null : Value) (updateCb : Cb) (path : List Key) (e : Fault) :
    register null updateCb path (default : ConfigMap Key Value Cb) ≠ (.error e, default) := by
  cases path with
  | nil =>
      intro heq
      cases heq
  | cons k path =>
      intro heq
      have hmap := congrArg Prod.snd heq
      simp [register, default, SortedMap.put] at hmap

/-- The walk of a registration fails before it changes anything, or leaves the callback at the entry. -/
theorem register_cases (null : Value) (updateCb : Cb) (path : List Key) :
    ∀ old : ConfigMap Key Value Cb,
      (∃ e, register null updateCb path old = (.error e, old)) ∨
        ∃ value, (register null updateCb path old).1 = .ok value ∧
          value = ((old.entryAt path).map ConfigEntry.value).getD null ∧
          ∀ path', (register null updateCb path old).2.entryAt path' =
            if path' = path then some ⟨value, some updateCb⟩ else old.entryAt path' := by
  induction path with
  | nil =>
      intro old
      cases old with
      | configEntry o =>
          refine Or.inr ⟨o.value, rfl, rfl, fun path' => ?_⟩
          cases path' <;> rfl
      | configMap m =>
          cases m with
          | cons child rest => exact Or.inl ⟨_, rfl⟩
          | nil =>
              refine Or.inr ⟨null, rfl, rfl, fun path' => ?_⟩
              cases path' <;> rfl
  | cons k path ih =>
      intro old
      cases old with
      | configEntry o => exact Or.inl ⟨_, rfl⟩
      | configMap m =>
          rcases ih ((SortedMap.find k m).getD default) with ⟨e, hfail⟩ | ⟨value, hok, hvalue, hentry⟩
          · -- only what is there can fail
            cases hfind : SortedMap.find k m with
            | some child =>
                rw [hfind, Option.getD_some] at hfail
                refine Or.inl ⟨e, ?_⟩
                simp only [register, hfind, Option.getD_some, hfail]
                rw [SortedMap.put_of_find hfind]
            | none =>
                rw [hfind, Option.getD_none] at hfail
                exact absurd hfail (register_default null updateCb path e)
          · refine Or.inr ⟨value, ?_, ?_, ?_⟩
            · simp only [register, hok]
            · rw [entryAt_cons]
              exact hvalue
            · intro path'
              cases path' with
              | nil => rfl
              | cons k' path' =>
                  simp only [register]
                  rw [entryAt_cons, entryAt_cons]
                  by_cases hk : k' = k
                  · subst hk
                    rw [SortedMap.find_put_self, Option.getD_some, hentry]
                    simp
                  · rw [SortedMap.find_put_ne hk, if_neg fun heq => hk (List.cons.inj heq).1]

end ConfigMap

/-! ## The config -/

/-- A config.  What it notes besides the tree decides only which warnings are logged. -/
structure Config (Key Value Cb : Type) [LinearOrder Key] where
  map : ConfigMap Key Value Cb
  sorted : map.Sorted

/-- A new tree, as it is made from what the caller passes. -/
abbrev InMap (Key Value Cb : Type) [LinearOrder Key] :=
  { inMap : ConfigMap Key Value Cb // inMap.Sorted }

/-- What a call returns, the callbacks it has run with their values, and the config after it. -/
structure SetOutcome (Key Value Cb : Type) [LinearOrder Key] where
  result : Except Fault Unit
  ran : List (Cb × Value)
  config : Config Key Value Cb

namespace Config

/-- `set_module_config`.  The argument is what `tc` makes of the caller's value, and `debug` the debug
format of a tree. -/
def setModuleConfig (debug : ConfigMap Key Value Cb → String) (config : Config Key Value Cb) :
    Except Fault (InMap Key Value Cb) → SetOutcome Key Value Cb
  | .error e => { result := .error e, ran := [], config := config }
  | .ok inMap =>
      let applied := ConfigMap.applyMap (debug inMap.1) config.map inMap.1
      { result := applied.result
        ran :=
          match applied.result with
          | .error _ => []
          | .ok () => applied.updates
        config :=
          { map := applied.map
            sorted := ConfigMap.sorted_applyMap _ inMap.2 _ config.sorted } }

/-- `register_entry_update_cb`. -/
def registerEntryUpdateCb (null : Value) (config : Config Key Value Cb) (path : List Key)
    (updateCb : Cb) : SetOutcome Key Value Cb :=
  let walked := config.map.register null updateCb path
  { result := walked.1.map fun _ => ()
    ran :=
      match walked.1 with
      | .error _ => []
      | .ok value => [(updateCb, value)]
    config :=
      { map := walked.2, sorted := ConfigMap.sorted_register null updateCb path _ config.sorted } }

theorem ext_map {config config' : Config Key Value Cb} (h : config.map = config'.map) :
    config = config' := by
  cases config
  cases config'
  cases h
  rfl

/-- A registration that fails changes nothing and runs no callback; one that succeeds runs the callback
with the value of its entry, and changes only that entry's callback. -/
theorem registerEntryUpdateCb_cases (null : Value) (config : Config Key Value Cb) (path : List Key)
    (updateCb : Cb) :
    (∃ e, config.registerEntryUpdateCb null path updateCb =
        { result := .error e, ran := [], config := config }) ∨
      ∃ value, (config.registerEntryUpdateCb null path updateCb).result = .ok () ∧
        (config.registerEntryUpdateCb null path updateCb).ran = [(updateCb, value)] ∧
        ∀ path', (config.registerEntryUpdateCb null path updateCb).config.map.entryAt path' =
          if path' = path then some ⟨value, some updateCb⟩ else config.map.entryAt path' := by
  rcases ConfigMap.register_cases null updateCb path config.map with
    ⟨e, hfail⟩ | ⟨value, hok, _, hentry⟩
  · refine Or.inl ⟨e, ?_⟩
    simp only [registerEntryUpdateCb, hfail]
    rfl
  · refine Or.inr ⟨value, ?_, ?_, hentry⟩
    · simp only [registerEntryUpdateCb, hok]
      rfl
    · simp only [registerEntryUpdateCb, hok]

end Config

end Api
end Kitsune2
