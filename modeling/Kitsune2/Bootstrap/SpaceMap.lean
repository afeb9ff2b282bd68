import Kitsune2.Bootstrap.Space
import Mathlib.Data.List.AList

/-!
# Space map — finding a space under the map lock, writing it under its own

`SpaceMap::update` holds the map lock only while it finds or creates the `Space` object, and then
updates that object under the object's write lock.  The prune worker makes the same call without an
info, and in its first half unlinks a space that is empty.  A run of the server interleaves these
critical sections in any order.

A `Space` object lives as long as somebody holds a reference, so the objects are kept in a list that
only grows, and the map holds positions in it.
-/

namespace Kitsune2
namespace Bootstrap

variable {Agent SpaceId Sig : Type} [DecidableEq Agent] [DecidableEq SpaceId]

/-! ## The map -/

structure SpaceMap (Agent SpaceId Sig : Type) where
  /-- The object each space id is linked to. -/
  map : AList fun _ : SpaceId => Nat
  /-- Every object created so far, linked or not. -/
  spaces : List (Space Agent SpaceId Sig)

namespace SpaceMap

def new : SpaceMap Agent SpaceId Sig :=
  { map := ∅, spaces := [] }

/-- What an object holds. -/
def readable (m : SpaceMap Agent SpaceId Sig) (ref : Nat) : List (ParsedEntry Agent SpaceId Sig) :=
  match m.spaces[ref]? with
  | none => []
  | some space => space.readable

/-- The half of `SpaceMap::update` under the map lock: the object to update, if there is one. -/
def find (m : SpaceMap Agent SpaceId Sig) (spaceId : SpaceId)
    (newInfo : Option (ParsedEntry Agent SpaceId Sig)) : SpaceMap Agent SpaceId Sig × Option Nat :=
  match m.map.lookup spaceId with
  | none =>
      if newInfo.isNone then (m, none)
      else
        ({ map := m.map.insert spaceId m.spaces.length, spaces := m.spaces ++ [Space.new spaceId] },
          some m.spaces.length)
  | some ref =>
      -- a space with nothing in it is unlinked, whoever else may hold it
      if newInfo.isNone && (m.readable ref).isEmpty then ({ m with map := m.map.erase spaceId }, none)
      else (m, some ref)

/-- The half under the object's write lock: does it return, and what does it leave? -/
def write (maxEntries : Nat) (now : Int)
    (parses : ParsedEntry Agent SpaceId Sig → Bool) (ref : Nat)
    (newInfo : Option (ParsedEntry Agent SpaceId Sig)) (m : SpaceMap Agent SpaceId Sig) :
    Bool × SpaceMap Agent SpaceId Sig :=
  match m.spaces[ref]? with
  | none => (false, m)
  | some space =>
      let updated := space.update maxEntries now parses newInfo
      (updated.1, { m with spaces := m.spaces.set ref updated.2 })

/-- The list `SpaceMap::read` clones: the object is found in one state of the map and its list is
cloned in a later one. -/
def listed (found cloned : SpaceMap Agent SpaceId Sig) (spaceId : SpaceId) :
    List (ParsedEntry Agent SpaceId Sig) :=
  match found.map.lookup spaceId with
  | none => []
  | some ref => cloned.readable ref

/-- `SpaceMap::read`, which fails if one of the infos it has cloned cannot be read. -/
def read (reads : ParsedEntry Agent SpaceId Sig → Bool) (found cloned : SpaceMap Agent SpaceId Sig)
    (spaceId : SpaceId) : Option (List (ParsedEntry Agent SpaceId Sig)) :=
  Space.read reads (listed found cloned spaceId)

/-! ### What each half changes -/

omit [DecidableEq Agent] [DecidableEq SpaceId] in
theorem readable_of_getElem? {m : SpaceMap Agent SpaceId Sig} {ref : Nat}
    {space : Space Agent SpaceId Sig} (h : m.spaces[ref]? = some space) :
    m.readable ref = space.readable := by
  simp [readable, h]

omit [DecidableEq Agent] [DecidableEq SpaceId] in
theorem onePerAgent_readable (m : SpaceMap Agent SpaceId Sig) (ref : Nat) :
    OnePerAgent (m.readable ref) := by
  cases hget : m.spaces[ref]? with
  | none =>
      simp [readable, hget, OnePerAgent]
  | some space =>
      rw [readable_of_getElem? hget]
      exact space.onePerAgent

omit [DecidableEq Agent] in
/-- An update finds the linked object, creates one, unlinks an empty one, or has nothing to do. -/
theorem find_cases (m : SpaceMap Agent SpaceId Sig) (spaceId : SpaceId)
    (newInfo : Option (ParsedEntry Agent SpaceId Sig)) :
    (m.map.lookup spaceId = none ∧ m.find spaceId newInfo = (m, none)) ∨
      (m.map.lookup spaceId = none ∧ m.find spaceId newInfo =
        ({ map := m.map.insert spaceId m.spaces.length, spaces := m.spaces ++ [Space.new spaceId] },
          some m.spaces.length)) ∨
      (∃ ref, m.map.lookup spaceId = some ref ∧ m.readable ref = [] ∧
        m.find spaceId newInfo = ({ m with map := m.map.erase spaceId }, none)) ∨
      ∃ ref, m.map.lookup spaceId = some ref ∧ m.find spaceId newInfo = (m, some ref) := by
  cases hmap : m.map.lookup spaceId with
  | none =>
      cases newInfo with
      | none =>
          exact Or.inl ⟨rfl, by simp [find, hmap]⟩
      | some newP =>
          exact Or.inr (Or.inl ⟨rfl, by simp [find, hmap]⟩)
  | some ref =>
      by_cases hempty : (newInfo.isNone && (m.readable ref).isEmpty) = true
      · refine Or.inr (Or.inr (Or.inl ⟨ref, rfl, ?_, ?_⟩))
        · rw [Bool.and_eq_true, List.isEmpty_iff] at hempty
          exact hempty.2
        · simp only [find, hmap, hempty, if_true]
      · refine Or.inr (Or.inr (Or.inr ⟨ref, rfl, ?_⟩))
        simp only [find, hmap, hempty, Bool.false_eq_true, if_false]

omit [DecidableEq SpaceId] in
@[simp]
theorem write_map (maxEntries : Nat) (now : Int)
    (parses : ParsedEntry Agent SpaceId Sig → Bool) (ref : Nat)
    (newInfo : Option (ParsedEntry Agent SpaceId Sig)) (m : SpaceMap Agent SpaceId Sig) :
    (m.write maxEntries now parses ref newInfo).2.map = m.map := by
  unfold write
  split <;> rfl

omit [DecidableEq SpaceId] in
/-- A write leaves the other objects alone. -/
theorem write_spaces_of_ne (maxEntries : Nat) (now : Int)
    (parses : ParsedEntry Agent SpaceId Sig → Bool) {ref other : Nat} (hne : ref ≠ other)
    (newInfo : Option (ParsedEntry Agent SpaceId Sig)) (m : SpaceMap Agent SpaceId Sig) :
    (m.write maxEntries now parses ref newInfo).2.spaces[other]? = m.spaces[other]? := by
  unfold write
  split
  · rfl
  · exact List.getElem?_set_ne hne

omit [DecidableEq SpaceId] in
/-- A write updates its object. -/
theorem write_spaces_self (maxEntries : Nat) (now : Int)
    (parses : ParsedEntry Agent SpaceId Sig → Bool) {ref : Nat}
    (newInfo : Option (ParsedEntry Agent SpaceId Sig)) {m : SpaceMap Agent SpaceId Sig}
    {space : Space Agent SpaceId Sig} (h : m.spaces[ref]? = some space) :
    (m.write maxEntries now parses ref newInfo).2.spaces[ref]? =
      some (space.update maxEntries now parses newInfo).2 := by
  have hlt : ref < m.spaces.length := (List.getElem?_eq_some_iff.mp h).1
  simp only [write, h]
  exact List.getElem?_set_self hlt

omit [DecidableEq SpaceId] in
theorem write_fst (maxEntries : Nat) (now : Int)
    (parses : ParsedEntry Agent SpaceId Sig → Bool) {ref : Nat}
    (newInfo : Option (ParsedEntry Agent SpaceId Sig)) {m : SpaceMap Agent SpaceId Sig}
    {space : Space Agent SpaceId Sig} (h : m.spaces[ref]? = some space) :
    (m.write maxEntries now parses ref newInfo).1 = (space.update maxEntries now parses newInfo).1 := by
  simp [write, h]

/-- The object at a position was created for a space id. -/
def Owns (m : SpaceMap Agent SpaceId Sig) (spaceId : SpaceId) (ref : Nat) : Prop :=
  ∃ space, m.spaces[ref]? = some space ∧ space.spaceId = spaceId

omit [DecidableEq Agent] [DecidableEq SpaceId] in
theorem Owns.append {m : SpaceMap Agent SpaceId Sig} {spaceId : SpaceId} {ref : Nat}
    (h : m.Owns spaceId ref) (map : AList fun _ : SpaceId => Nat)
    (more : List (Space Agent SpaceId Sig)) :
    Owns { map, spaces := m.spaces ++ more } spaceId ref := by
  rcases h with ⟨space, hget, hid⟩
  have hlt : ref < m.spaces.length := (List.getElem?_eq_some_iff.mp hget).1
  exact ⟨space, by simpa [List.getElem?_append_left hlt] using hget, hid⟩

omit [DecidableEq SpaceId] in
theorem Owns.write {m : SpaceMap Agent SpaceId Sig} {spaceId : SpaceId} {ref : Nat}
    (h : m.Owns spaceId ref) (maxEntries : Nat) (now : Int)
    (parses : ParsedEntry Agent SpaceId Sig → Bool) (written : Nat)
    (newInfo : Option (ParsedEntry Agent SpaceId Sig)) :
    (m.write maxEntries now parses written newInfo).2.Owns spaceId ref := by
  rcases h with ⟨space, hget, hid⟩
  by_cases hne : written = ref
  · subst hne
    refine ⟨_, write_spaces_self maxEntries now parses newInfo hget, ?_⟩
    rw [Space.update_spaceId, hid]
  · exact ⟨space, (write_spaces_of_ne maxEntries now parses hne newInfo m).trans hget, hid⟩

omit [DecidableEq Agent] in
/-- Finding an object keeps the objects there are. -/
theorem Owns.find {m : SpaceMap Agent SpaceId Sig} {spaceId : SpaceId} {ref : Nat}
    (h : m.Owns spaceId ref) (target : SpaceId)
    (newInfo : Option (ParsedEntry Agent SpaceId Sig)) :
    (m.find target newInfo).1.Owns spaceId ref := by
  rcases m.find_cases target newInfo with
    ⟨_, hfind⟩ | ⟨_, hfind⟩ | ⟨_, _, _, hfind⟩ | ⟨_, _, hfind⟩
  · rwa [hfind]
  · rw [hfind]
    exact h.append _ _
  · rw [hfind]
    exact h
  · rwa [hfind]

/-- What a map links, and what it finds, is an object created for that id. -/
def Linked (m : SpaceMap Agent SpaceId Sig) : Prop :=
  ∀ spaceId ref, m.map.lookup spaceId = some ref → m.Owns spaceId ref

omit [DecidableEq Agent] [DecidableEq SpaceId] in
theorem owns_new_object (m : SpaceMap Agent SpaceId Sig) (map : AList fun _ : SpaceId => Nat)
    (spaceId : SpaceId) :
    Owns { map, spaces := m.spaces ++ [Space.new spaceId] } spaceId m.spaces.length :=
  ⟨Space.new spaceId, by simp, rfl⟩

omit [DecidableEq Agent] in
theorem Linked.find {m : SpaceMap Agent SpaceId Sig} (h : m.Linked) (target : SpaceId)
    (newInfo : Option (ParsedEntry Agent SpaceId Sig)) :
    (m.find target newInfo).1.Linked ∧
      ∀ ref, (m.find target newInfo).2 = some ref → (m.find target newInfo).1.Owns target ref := by
  rcases m.find_cases target newInfo with
    ⟨_, hfind⟩ | ⟨_, hfind⟩ | ⟨_, _, _, hfind⟩ | ⟨ref, href, hfind⟩
  · rw [hfind]
    exact ⟨h, fun _ hnone => absurd hnone (by simp)⟩
  · rw [hfind]
    -- a new space is created and linked under the target
    refine ⟨?_, ?_⟩
    · intro spaceId ref href
      by_cases hid : spaceId = target
      · subst hid
        rw [AList.lookup_insert, Option.some.injEq] at href
        exact href ▸ m.owns_new_object _ _
      · rw [AList.lookup_insert_ne hid] at href
        exact (h spaceId ref href).append _ _
    · intro ref href
      exact Option.some.inj href ▸ m.owns_new_object _ _
  · rw [hfind]
    -- an empty space is removed: the other links stay
    refine ⟨?_, fun _ hnone => absurd hnone (by simp)⟩
    intro spaceId ref href
    by_cases hid : spaceId = target
    · subst hid
      simp at href
    · rw [AList.lookup_erase_ne hid] at href
      exact h spaceId ref href
  · rw [hfind]
    exact ⟨h, fun ref' href' => Option.some.inj href' ▸ h target ref href⟩

theorem Linked.write {m : SpaceMap Agent SpaceId Sig} (h : m.Linked) (maxEntries : Nat) (now : Int)
    (parses : ParsedEntry Agent SpaceId Sig → Bool) (ref : Nat)
    (newInfo : Option (ParsedEntry Agent SpaceId Sig)) :
    (m.write maxEntries now parses ref newInfo).2.Linked := by
  intro spaceId ref' href
  rw [write_map] at href
  exact (h spaceId ref' href).write maxEntries now parses ref newInfo

omit [DecidableEq Agent] in
/-- Finding an object changes no list and creates at most an empty one. -/
theorem find_spaces {m : SpaceMap Agent SpaceId Sig} {target : SpaceId}
    {newInfo : Option (ParsedEntry Agent SpaceId Sig)} {ref : Nat} {space : Space Agent SpaceId Sig}
    (h : (m.find target newInfo).1.spaces[ref]? = some space) :
    m.spaces[ref]? = some space ∨ space.readable = [] := by
  rcases m.find_cases target newInfo with
    ⟨_, hfind⟩ | ⟨_, hfind⟩ | ⟨_, _, _, hfind⟩ | ⟨_, _, hfind⟩
  · exact Or.inl (by rwa [hfind] at h)
  · rw [hfind] at h
    by_cases hlt : ref < m.spaces.length
    · rw [List.getElem?_append_left hlt] at h
      exact Or.inl h
    · rw [List.getElem?_append_right (Nat.not_lt.mp hlt), List.getElem?_singleton] at h
      split at h
      · exact Or.inr (Option.some.inj h ▸ rfl)
      · cases h
  · exact Or.inl (by rwa [hfind] at h)
  · exact Or.inl (by rwa [hfind] at h)

omit [DecidableEq Agent] in
theorem mem_readable_of_find {m : SpaceMap Agent SpaceId Sig} {target : SpaceId}
    {newInfo : Option (ParsedEntry Agent SpaceId Sig)} {ref : Nat}
    {e : ParsedEntry Agent SpaceId Sig} (h : e ∈ (m.find target newInfo).1.readable ref) :
    e ∈ m.readable ref := by
  cases hget : (m.find target newInfo).1.spaces[ref]? with
  | none =>
      simp [readable, hget] at h
  | some space =>
      rw [readable_of_getElem? hget] at h
      rcases find_spaces hget with hold | hempty
      · rwa [readable_of_getElem? hold]
      · rw [hempty] at h
        cases h

omit [DecidableEq Agent] in
/-- What is linked after finding an object was linked before, or is a new and empty object. -/
theorem lookup_of_find {m : SpaceMap Agent SpaceId Sig} {target spaceId : SpaceId}
    {newInfo : Option (ParsedEntry Agent SpaceId Sig)} {ref : Nat}
    (h : (m.find target newInfo).1.map.lookup spaceId = some ref) :
    m.map.lookup spaceId = some ref ∨ (m.find target newInfo).1.readable ref = [] := by
  rcases m.find_cases target newInfo with
    ⟨_, hfind⟩ | ⟨_, hfind⟩ | ⟨_, _, _, hfind⟩ | ⟨_, _, hfind⟩
  · exact Or.inl (by rwa [hfind] at h)
  · rw [hfind] at h ⊢
    by_cases hid : spaceId = target
    · rw [hid, AList.lookup_insert, Option.some.injEq] at h
      subst h
      exact Or.inr (by simp [readable, Space.new])
    · rw [AList.lookup_insert_ne hid] at h
      exact Or.inl h
  · rw [hfind] at h
    by_cases hid : spaceId = target
    · rw [hid, AList.lookup_erase] at h
      cases h
    · rw [AList.lookup_erase_ne hid] at h
      exact Or.inl h
  · exact Or.inl (by rwa [hfind] at h)

end SpaceMap

/-! ## The server's steps -/

/-- A call of `SpaceMap::update` that has found its object and not yet written it. -/
structure UpdateCall (Agent SpaceId Sig : Type) where
  space : SpaceId
  ref : Nat
  newInfo : Option (ParsedEntry Agent SpaceId Sig)
  deriving DecidableEq

structure Server (Agent SpaceId Sig : Type) where
  clock : Int
  spaceMap : SpaceMap Agent SpaceId Sig
  calls : List (UpdateCall Agent SpaceId Sig)
  /-- The infos and tombstones whose update has returned. -/
  written : List (ParsedEntry Agent SpaceId Sig)

inductive ServerEvent (Agent SpaceId Sig : Type) where
  | tick (time : Int)
  /-- A put has passed its checks and finds its space. -/
  | putFinds (info : ParsedEntry Agent SpaceId Sig)
  /-- The prune worker looks at a space. -/
  | pruneFinds (spaceId : SpaceId)
  /-- A call writes its object, with the clock reading it took before the lock and what its readings
  of the stored infos give. -/
  | writes (call : UpdateCall Agent SpaceId Sig) (now : Int)
      (parses : ParsedEntry Agent SpaceId Sig → Bool)

namespace Server

def new : Server Agent SpaceId Sig :=
  { clock := 0, spaceMap := .new, calls := [], written := [] }

/-- The first half of a call. -/
def startUpdate (s : Server Agent SpaceId Sig) (spaceId : SpaceId)
    (newInfo : Option (ParsedEntry Agent SpaceId Sig)) : Server Agent SpaceId Sig :=
  let found := s.spaceMap.find spaceId newInfo
  { s with
    spaceMap := found.1
    calls := (found.2.map fun ref => ⟨spaceId, ref, newInfo⟩).toList ++ s.calls }

/-- The second half; a call that panics ends without having put anything. -/
def finishUpdate [DecidableEq Sig] (maxEntries : Nat) (s : Server Agent SpaceId Sig)
    (call : UpdateCall Agent SpaceId Sig) (now : Int) (parses : ParsedEntry Agent SpaceId Sig → Bool) :
    Server Agent SpaceId Sig :=
  let wrote := s.spaceMap.write maxEntries now parses call.ref call.newInfo
  { s with
    spaceMap := wrote.2
    calls := s.calls.erase call
    written := if wrote.1 then call.newInfo.toList ++ s.written else s.written }

variable [DecidableEq Sig] (verify : Agent → String → Sig → Bool) (maxEntries : Nat)

inductive Step : Server Agent SpaceId Sig → ServerEvent Agent SpaceId Sig →
    Server Agent SpaceId Sig → Prop where
  | tick {s : Server Agent SpaceId Sig} {time : Int} (hclock : s.clock ≤ time) :
      Step s (.tick time) { s with clock := time }
  | putFinds {s : Server Agent SpaceId Sig} {info : ParsedEntry Agent SpaceId Sig} {now : Int}
      (hnow : now ≤ s.clock)
      (hvalid : checkBootPut verify now info.space info.agent info = .ok ()) :
      Step s (.putFinds info) (s.startUpdate info.space (some info))
  | pruneFinds {s : Server Agent SpaceId Sig} {spaceId : SpaceId} :
      Step s (.pruneFinds spaceId) (s.startUpdate spaceId none)
  | writes {s : Server Agent SpaceId Sig} {call : UpdateCall Agent SpaceId Sig} {now : Int}
      {parses : ParsedEntry Agent SpaceId Sig → Bool} (hcall : call ∈ s.calls) (hnow : now ≤ s.clock) :
      Step s (.writes call now parses) (s.finishUpdate maxEntries call now parses)

/-- Runs whose every step satisfies `ok` in the state before it. -/
inductive RunWhere (ok : Server Agent SpaceId Sig → ServerEvent Agent SpaceId Sig → Prop)
    (s : Server Agent SpaceId Sig) : Server Agent SpaceId Sig → Prop where
  | refl : RunWhere ok s s
  | step {s' s'' : Server Agent SpaceId Sig} {event : ServerEvent Agent SpaceId Sig}
      (hrun : RunWhere ok s s') (hok : ok s' event)
      (hstep : Step verify maxEntries s' event s'') : RunWhere ok s s''

/-- The states of a server that started empty. -/
def Reachable (s : Server Agent SpaceId Sig) : Prop :=
  RunWhere verify maxEntries (fun _ _ => True) new s

/-- The list `SpaceMap::read` clones when it finds the object in one state and clones in another. -/
def listed (found cloned : Server Agent SpaceId Sig) (spaceId : SpaceId) :
    List (ParsedEntry Agent SpaceId Sig) :=
  SpaceMap.listed found.spaceMap cloned.spaceMap spaceId

/-- `SpaceMap::read` on a server that is in one state when it finds the object and in another when it
clones. -/
def read (reads : ParsedEntry Agent SpaceId Sig → Bool) (found cloned : Server Agent SpaceId Sig)
    (spaceId : SpaceId) : Option (List (ParsedEntry Agent SpaceId Sig)) :=
  SpaceMap.read reads found.spaceMap cloned.spaceMap spaceId

end Server

end Bootstrap
end Kitsune2
