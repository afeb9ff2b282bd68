import Mathlib.Data.Finset.Basic
import Mathlib.Data.List.AList
import Kitsune2.Lib.Runs

/-!
# SpaceAddress — listening addresses of single spaces

The handler map, the URLs kept for spaces that are not registered yet and the set of spaces that the
transport manages are under three locks.  An announcement and a registration take them one after the
other, so other calls run between their steps.

Announcements and registrations carry what the code does not keep: their number and how often the
space had been unregistered when they began.  With that, what a handler should learn can be said.
-/

namespace Kitsune2
namespace Transport

open Lib

variable {SpaceId Url : Type} [DecidableEq SpaceId]

/-! ## State -/

/-- A URL announced for one space.  `epoch` counts the removals of the space's handler before it. -/
structure Announced (SpaceId Url : Type) where
  space : SpaceId
  url : Url
  number : Nat
  epoch : Nat
  deriving DecidableEq

/-- A space handler, with the count of removals before its registration. -/
structure SpaceHandler (SpaceId : Type) where
  space : SpaceId
  number : Nat
  epoch : Nat
  deriving DecidableEq

/-- What a space handler is told, as the result of its registration or by a callback. -/
inductive Told (SpaceId Url : Type) where
  | perSpace (a : Announced SpaceId Url)
  | general (url : Option Url)
  deriving DecidableEq

/-- A call under way, between two of its steps. -/
inductive AddressCall (SpaceId Url : Type) where
  /-- `new_listening_address` for a space that is now marked as managed. -/
  | marked (a : Announced SpaceId Url)
  /-- The handler was found, its callback has not run. -/
  | found (h : SpaceHandler SpaceId) (a : Announced SpaceId Url)
  /-- No handler was found, the URL is not kept yet. -/
  | notFound (a : Announced SpaceId Url)
  /-- `register_space_handler` that has taken the kept URL. -/
  | taken (h : SpaceHandler SpaceId) (pending : Option (Announced SpaceId Url))
  /-- `new_listening_address` for all spaces, with its copy of the managed set. -/
  | copied (url : Url) (managed : Finset SpaceId)
  /-- The spaces' handlers are listed, the node's own handler is next. -/
  | listed (url : Url) (handlers : List (SpaceHandler SpaceId))
  /-- The handlers that are still to be called. -/
  | calling (url : Url) (handlers : List (SpaceHandler SpaceId))
  | done
  deriving DecidableEq

/-- The locks of `TxImpHnd`, the calls under way, and what the handlers were told. -/
structure TxImpHnd (SpaceId Url : Type) where
  spaceMap : AList fun _ : SpaceId => SpaceHandler SpaceId
  pendingSpaceUrls : AList fun _ : SpaceId => Announced SpaceId Url
  perSpaceManaged : Finset SpaceId
  /-- A panic under the lock of the space map poisons it. -/
  poisoned : Bool
  calls : List (AddressCall SpaceId Url)
  told : List (SpaceHandler SpaceId × Told SpaceId Url)
  toldNode : List Url
  epoch : SpaceId → Nat
  latest : SpaceId → Option (Announced SpaceId Url)
  announcements : Nat
  registrations : Nat

namespace TxImpHnd

/-- `TxImpHnd::new`. -/
def new : TxImpHnd SpaceId Url where
  spaceMap := ∅
  pendingSpaceUrls := ∅
  perSpaceManaged := ∅
  poisoned := false
  calls := []
  told := []
  toldNode := []
  epoch := fun _ => 0
  latest := fun _ => none
  announcements := 0
  registrations := 0

/-! ## Steps -/

/-- The announcement of `url` for `space`, were it made now. -/
def announcement (s : TxImpHnd SpaceId Url) (url : Url) (space : SpaceId) :
    Announced SpaceId Url where
  space := space
  url := url
  number := s.announcements
  epoch := s.epoch space

/-- The handler of `space`, were it registered now. -/
def handler (s : TxImpHnd SpaceId Url) (space : SpaceId) : SpaceHandler SpaceId where
  space := space
  number := s.registrations
  epoch := s.epoch space

/-- `new_listening_address` for one space, its first lock. -/
def newListeningAddress (s : TxImpHnd SpaceId Url) (url : Url) (space : SpaceId) :
    TxImpHnd SpaceId Url :=
  { s with
    perSpaceManaged := insert space s.perSpaceManaged
    calls := s.calls ++ [.marked (s.announcement url space)]
    latest := Function.update s.latest space (some (s.announcement url space))
    announcements := s.announcements + 1 }

/-- `new_listening_address` for all spaces, its first lock. -/
def newGlobalAddress (s : TxImpHnd SpaceId Url) (url : Url) : TxImpHnd SpaceId Url :=
  { s with calls := s.calls ++ [.copied url s.perSpaceManaged] }

/-- `register_space_handler`, its first lock. -/
def registerSpaceHandler (s : TxImpHnd SpaceId Url) (space : SpaceId) : TxImpHnd SpaceId Url :=
  { s with
    pendingSpaceUrls := s.pendingSpaceUrls.erase space
    calls := s.calls ++ [.taken (s.handler space) (s.pendingSpaceUrls.lookup space)]
    registrations := s.registrations + 1 }

/-- `unregister_space`. -/
def unregisterSpace (s : TxImpHnd SpaceId Url) (space : SpaceId) : TxImpHnd SpaceId Url :=
  if s.poisoned then s
  else
    match s.spaceMap.lookup space with
    | none => s
    | some _ =>
        { s with
          spaceMap := s.spaceMap.erase space
          epoch := Function.update s.epoch space (s.epoch space + 1) }

/-- `unmark_per_space_managed`. -/
def unmarkPerSpaceManaged (s : TxImpHnd SpaceId Url) (space : SpaceId) : TxImpHnd SpaceId Url :=
  { s with perSpaceManaged := s.perSpaceManaged.erase space }

/-- The handlers that a URL for all spaces goes to. -/
def unmanaged (s : TxImpHnd SpaceId Url) (managed : Finset SpaceId) :
    List (SpaceHandler SpaceId) :=
  (s.spaceMap.entries.filter fun e => e.1 ∉ managed).map Sigma.snd

/-- What `register_space_handler` returns; `imp` is the URL the transport has then. -/
def registered (pending : Option (Announced SpaceId Url)) (imp : Option Url) : Told SpaceId Url :=
  match pending with
  | some a => .perSpace a
  | none => .general imp

/-- The next lock-protected step, or the next callback, of a call. -/
def advance (imp : Option Url) (s : TxImpHnd SpaceId Url) :
    AddressCall SpaceId Url → AddressCall SpaceId Url × TxImpHnd SpaceId Url
  | .marked a =>
      if s.poisoned then (.done, s)
      else
        match s.spaceMap.lookup a.space with
        | some h => (.found h a, s)
        | none => (.notFound a, s)
  | .found h a => (.done, { s with told := s.told ++ [(h, .perSpace a)] })
  | .notFound a => (.done, { s with pendingSpaceUrls := s.pendingSpaceUrls.insert a.space a })
  | .taken h pending =>
      if s.poisoned then (.done, s)
      else
        match s.spaceMap.lookup h.space with
        -- `panic!("Attempted to register duplicate space handler! {space_id}")`, after the insert
        | some _ =>
            (.done, { s with spaceMap := s.spaceMap.insert h.space h, poisoned := true })
        | none =>
            (.done,
              { s with
                spaceMap := s.spaceMap.insert h.space h
                told := s.told ++ [(h, registered pending imp)] })
  | .copied url managed =>
      if s.poisoned then (.done, s) else (.listed url (s.unmanaged managed), s)
  | .listed url handlers => (.calling url handlers, { s with toldNode := s.toldNode ++ [url] })
  | .calling _ [] => (.done, s)
  | .calling url (h :: handlers) =>
      (.calling url handlers, { s with told := s.told ++ [(h, .general (some url))] })
  | .done => (.done, s)

end TxImpHnd

/-- What can happen next. -/
inductive AddressEvent (SpaceId Url : Type) where
  | announce (url : Url) (space : SpaceId)
  | announceAll (url : Url)
  | register (space : SpaceId)
  | unregister (space : SpaceId)
  | unmark (space : SpaceId)
  /-- The call at place `i` takes its next step. -/
  | advance (i : Nat) (imp : Option Url)

namespace TxImpHnd

def step (s : TxImpHnd SpaceId Url) : AddressEvent SpaceId Url → TxImpHnd SpaceId Url
  | .announce url space => s.newListeningAddress url space
  | .announceAll url => s.newGlobalAddress url
  | .register space => s.registerSpaceHandler space
  | .unregister space => s.unregisterSpace space
  | .unmark space => s.unmarkPerSpaceManaged space
  | .advance i imp =>
      match s.calls[i]? with
      | none => s
      | some c => { (s.advance imp c).2 with calls := s.calls.set i (s.advance imp c).1 }

end TxImpHnd

/-! ## The condition -/

namespace AddressCall

/-- A registration of the space that has taken the kept URL and not yet inserted its handler. -/
def claims (space : SpaceId) : AddressCall SpaceId Url → Bool
  | .taken h _ => h.space = space
  | _ => false

/-- A call about the listening address of this one space. -/
def concerns (space : SpaceId) : AddressCall SpaceId Url → Bool
  | .marked a => a.space = space
  | .found _ a => a.space = space
  | .notFound a => a.space = space
  | .taken h _ => h.space = space
  | _ => false

end AddressCall

namespace TxImpHnd

/-- No handler of the space is registered or about to be. -/
def Vacant (s : TxImpHnd SpaceId Url) (space : SpaceId) : Prop :=
  s.spaceMap.lookup space = none ∧ ∀ c ∈ s.calls, c.claims space = false

instance Vacant.decidable (s : TxImpHnd SpaceId Url) (space : SpaceId) :
    Decidable (s.Vacant space) :=
  inferInstanceAs (Decidable (_ ∧ _))

/-- A space is registered while it is vacant; an announcement finds no handler that was registered
after a removal it did not see, and what it keeps it keeps for a vacant space, with no removal since
it began and in place of an older URL only. -/
def InTurn (s : TxImpHnd SpaceId Url) : AddressEvent SpaceId Url → Prop
  | .register space => s.Vacant space
  | .advance i _ =>
      match s.calls[i]? with
      | some (.marked a) => ∀ h ∈ s.spaceMap.lookup a.space, a.epoch = h.epoch
      | some (.notFound a) =>
          s.Vacant a.space ∧ a.epoch = s.epoch a.space ∧
            ∀ p ∈ s.pendingSpaceUrls.lookup a.space, p.number < a.number
      | _ => True
  | _ => True

instance InTurn.decidable (s : TxImpHnd SpaceId Url) :
    ∀ e : AddressEvent SpaceId Url, Decidable (s.InTurn e)
  | .register space => inferInstanceAs (Decidable (s.Vacant space))
  | .advance i imp =>
      match h : s.calls[i]? with
      | some (.marked a) =>
          decidable_of_iff (∀ x ∈ s.spaceMap.lookup a.space, a.epoch = x.epoch)
            (by simp only [InTurn, h])
      | some (.notFound a) =>
          decidable_of_iff
            (s.Vacant a.space ∧ a.epoch = s.epoch a.space ∧
              ∀ p ∈ s.pendingSpaceUrls.lookup a.space, p.number < a.number)
            (by simp only [InTurn, h])
      | none => .isTrue (by simp only [InTurn, h])
      | some (.found _ _) => .isTrue (by simp only [InTurn, h])
      | some (.taken _ _) => .isTrue (by simp only [InTurn, h])
      | some (.copied _ _) => .isTrue (by simp only [InTurn, h])
      | some (.listed _ _) => .isTrue (by simp only [InTurn, h])
      | some (.calling _ _) => .isTrue (by simp only [InTurn, h])
      | some .done => .isTrue (by simp only [InTurn, h])
  | .announce _ _ => .isTrue trivial
  | .announceAll _ => .isTrue trivial
  | .unregister _ => .isTrue trivial
  | .unmark _ => .isTrue trivial

/-! ## The invariant -/

end TxImpHnd

/-- The URL was announced for the space of this handler, with no removal between the two. -/
def Announced.For (a : Announced SpaceId Url) (h : SpaceHandler SpaceId) : Prop :=
  a.space = h.space ∧ a.epoch = h.epoch

namespace TxImpHnd

/-- Where the latest URL of a space is: on its way, kept, or with the registered handler. -/
inductive Tracks (s : TxImpHnd SpaceId Url) (a : Announced SpaceId Url) : Prop
  | marked (hcall : .marked a ∈ s.calls)
  | notFound (hcall : .notFound a ∈ s.calls)
  | kept (hkept : s.pendingSpaceUrls.lookup a.space = some a)
  | taken (h : SpaceHandler SpaceId) (hspace : h.space = a.space)
      (hcall : .taken h (some a) ∈ s.calls)
  | found (h : SpaceHandler SpaceId) (hregistered : s.spaceMap.lookup a.space = some h)
      (hcall : .found h a ∈ s.calls)
  | told (h : SpaceHandler SpaceId) (hregistered : s.spaceMap.lookup a.space = some h)
      (htold : (h, .perSpace a) ∈ s.told)

/-- The URLs that are kept, taken, found or told are for the handlers that get them. -/
structure Addressed (s : TxImpHnd SpaceId Url) : Prop where
  clean : s.poisoned = false
  registered : ∀ space h, s.spaceMap.lookup space = some h →
    h.space = space ∧ h.epoch = s.epoch space
  kept : ∀ space a, s.pendingSpaceUrls.lookup space = some a →
    s.Vacant space ∧ a.space = space ∧ a.epoch = s.epoch space
  taken : ∀ h p, .taken h p ∈ s.calls →
    s.spaceMap.lookup h.space = none ∧ h.epoch = s.epoch h.space ∧ ∀ a ∈ p, a.For h
  single : ∀ (i j : Nat) (h h' : SpaceHandler SpaceId) (p p' : Option (Announced SpaceId Url)),
    s.calls[i]? = some (AddressCall.taken h p) → s.calls[j]? = some (AddressCall.taken h' p') →
    h.space = h'.space → i = j
  found : ∀ h a, .found h a ∈ s.calls → a.For h
  told : ∀ h a, (h, .perSpace a) ∈ s.told → a.For h

/-- The latest announcement of a space has the highest number, and is not lost. -/
structure Followed (s : TxImpHnd SpaceId Url) : Prop where
  numbered : ∀ a, .marked a ∈ s.calls ∨ .notFound a ∈ s.calls → a.number < s.announcements
  newest : ∀ a, .marked a ∈ s.calls ∨ .notFound a ∈ s.calls →
    ∀ b ∈ s.latest a.space, a.number ≤ b.number
  latest : ∀ space a, s.latest space = some a →
    a.space = space ∧ a.epoch ≤ s.epoch space ∧ (a.epoch = s.epoch space → s.Tracks a)

/-! ## One step -/

variable {s s' : TxImpHnd SpaceId Url}

theorem claims_eq_true_iff {space : SpaceId} {c : AddressCall SpaceId Url} :
    c.claims space = true ↔ ∃ h p, c = .taken h p ∧ h.space = space := by
  constructor
  · intro hc
    cases c with
    | taken h p => exact ⟨h, p, rfl, of_decide_eq_true hc⟩
    | _ => cases hc
  · rintro ⟨h, p, rfl, hspace⟩
    exact decide_eq_true hspace

theorem Vacant.not_taken {space : SpaceId} (hvacant : s.Vacant space) {h : SpaceHandler SpaceId}
    {p : Option (Announced SpaceId Url)} (hcall : .taken h p ∈ s.calls) : h.space ≠ space := by
  intro hspace
  have hclaims := hvacant.2 _ hcall
  rw [claims_eq_true_iff.mpr ⟨h, p, rfl, hspace⟩] at hclaims
  cases hclaims

theorem vacant_of {space : SpaceId} (hmap : s.spaceMap.lookup space = none)
    (hcalls : ∀ h p, .taken h p ∈ s.calls → h.space ≠ space) : s.Vacant space := by
  refine ⟨hmap, fun c hc => ?_⟩
  cases hclaims : c.claims space with
  | false => rfl
  | true =>
      rcases claims_eq_true_iff.mp hclaims with ⟨h, p, rfl, hspace⟩
      exact absurd hspace (hcalls h p hc)

/-- A step that registers nothing, removes nothing and takes no kept URL. -/
theorem Addressed.of_registered (hs : s.Addressed) (hclean : s'.poisoned = s.poisoned)
    (hmap : s'.spaceMap = s.spaceMap) (hepoch : s'.epoch = s.epoch)
    (hkept : ∀ space a, s'.pendingSpaceUrls.lookup space = some a →
      s.pendingSpaceUrls.lookup space = some a ∨
        (s.Vacant space ∧ a.space = space ∧ a.epoch = s.epoch space))
    (htaken : ∀ (i : Nat) h p, s'.calls[i]? = some (AddressCall.taken h p) →
      s.calls[i]? = some (AddressCall.taken h p))
    (hfound : ∀ h a, .found h a ∈ s'.calls → a.For h)
    (htold : ∀ h a, (h, .perSpace a) ∈ s'.told → a.For h) : s'.Addressed := by
  have hmem : ∀ h p, AddressCall.taken h p ∈ s'.calls → AddressCall.taken h p ∈ s.calls := by
    intro h p hcall
    rcases List.mem_iff_getElem?.mp hcall with ⟨i, hi⟩
    exact List.mem_iff_getElem?.mpr ⟨i, htaken i h p hi⟩
  -- a space without a handler stays without one
  have hvacant : ∀ space, s.Vacant space → s'.Vacant space := by
    intro space hspace
    refine vacant_of (by rw [hmap]; exact hspace.1) ?_
    intro h p hcall
    exact hspace.not_taken (hmem h p hcall)
  refine ⟨?_, ?_, ?_, ?_, ?_, hfound, htold⟩
  · rw [hclean]
    exact hs.clean
  · rw [hmap, hepoch]
    exact hs.registered
  · intro space a ha
    rw [hepoch]
    rcases hkept space a ha with hold | ⟨hspace, hnew⟩
    · have hold := hs.kept space a hold
      exact ⟨hvacant space hold.1, hold.2⟩
    · exact ⟨hvacant space hspace, hnew⟩
  · intro h p hcall
    rw [hmap, hepoch]
    exact hs.taken h p (hmem h p hcall)
  · intro i j h h' p p' hi hj
    exact hs.single i j h h' p p' (htaken i h p hi) (htaken j h' p' hj)

/-- A step that announces nothing and removes nothing. -/
theorem Followed.of_tracks (hs : s.Followed) (hcount : s'.announcements = s.announcements)
    (hlatest : s'.latest = s.latest) (hepoch : s'.epoch = s.epoch)
    (hcalls : ∀ a, .marked a ∈ s'.calls ∨ .notFound a ∈ s'.calls →
      .marked a ∈ s.calls ∨ .notFound a ∈ s.calls)
    (htracks : ∀ a, s.latest a.space = some a → a.epoch = s.epoch a.space → s.Tracks a →
      s'.Tracks a) : s'.Followed := by
  refine ⟨?_, ?_, ?_⟩
  · rw [hcount]
    exact fun a ha => hs.numbered a (hcalls a ha)
  · rw [hlatest]
    exact fun a ha => hs.newest a (hcalls a ha)
  · rw [hlatest, hepoch]
    intro space a ha
    rcases hs.latest space a ha with ⟨rfl, hle, htracked⟩
    exact ⟨rfl, hle, fun hnow => htracks a ha hnow (htracked hnow)⟩

/-- The latest URL stays where it is, except where the call that has it takes the step. -/
theorem Tracks.of_advance {i : Nat} {c c' : AddressCall SpaceId Url} {a : Announced SpaceId Url}
    (hi : s.calls[i]? = some c) (hcalls : s'.calls = s.calls.set i c')
    (hmap : ∀ h, s.spaceMap.lookup a.space = some h → s'.spaceMap.lookup a.space = some h)
    (hkept : s.pendingSpaceUrls.lookup a.space = some a →
      s'.pendingSpaceUrls.lookup a.space = some a)
    (htold : ∀ x ∈ s.told, x ∈ s'.told)
    (hmarked : c = .marked a → s'.Tracks a) (hnotFound : c = .notFound a → s'.Tracks a)
    (htaken : ∀ h, h.space = a.space → c = .taken h (some a) → s'.Tracks a)
    (hfound : ∀ h, s.spaceMap.lookup a.space = some h → c = .found h a → s'.Tracks a)
    (ha : s.Tracks a) : s'.Tracks a := by
  -- a call other than `c` is still there
  have hstays : ∀ d, d ∈ s.calls → d ≠ c → d ∈ s'.calls := by
    intro d hd hne
    rw [hcalls]
    exact mem_set_of_ne hi hd hne
  cases ha with
  | marked hcall =>
      by_cases hc : AddressCall.marked a = c
      · exact hmarked hc.symm
      · exact .marked (hstays _ hcall hc)
  | notFound hcall =>
      by_cases hc : AddressCall.notFound a = c
      · exact hnotFound hc.symm
      · exact .notFound (hstays _ hcall hc)
  | kept h => exact .kept (hkept h)
  | taken h hspace hcall =>
      by_cases hc : AddressCall.taken h (some a) = c
      · exact htaken h hspace hc.symm
      · exact .taken h hspace (hstays _ hcall hc)
  | found h hregistered hcall =>
      by_cases hc : AddressCall.found h a = c
      · exact hfound h hregistered hc.symm
      · exact .found h (hmap h hregistered) (hstays _ hcall hc)
  | told h hregistered hmem => exact .told h (hmap h hregistered) (htold _ hmem)

/-- A call's step that registers nothing. -/
theorem Addressed.of_advance (hs : s.Addressed) {i : Nat} {c' : AddressCall SpaceId Url}
    (hclean : s'.poisoned = s.poisoned) (hmap : s'.spaceMap = s.spaceMap)
    (hepoch : s'.epoch = s.epoch) (hcalls : s'.calls = s.calls.set i c')
    (hkept : ∀ space a, s'.pendingSpaceUrls.lookup space = some a →
      s.pendingSpaceUrls.lookup space = some a ∨
        (s.Vacant space ∧ a.space = space ∧ a.epoch = s.epoch space))
    (htaken : ∀ h p, c' ≠ .taken h p) (hfound : ∀ h a, c' = .found h a → a.For h)
    (htold : ∀ h a, (h, .perSpace a) ∈ s'.told → (h, .perSpace a) ∈ s.told ∨ a.For h) :
    s'.Addressed := by
  refine hs.of_registered hclean hmap hepoch hkept ?_ ?_ ?_
  · intro j h p hj
    rw [hcalls] at hj
    rcases getElem?_set_cases hj with ⟨_, heq⟩ | ⟨_, hold⟩
    · exact absurd heq.symm (htaken h p)
    · exact hold
  · intro h a hcall
    rw [hcalls] at hcall
    rcases List.mem_or_eq_of_mem_set hcall with hold | heq
    · exact hs.found h a hold
    · exact hfound h a heq.symm
  · intro h a hmem
    rcases htold h a hmem with hold | hnew
    · exact hs.told h a hold
    · exact hnew

omit [DecidableEq SpaceId] in
theorem mem_append_told {told : List (SpaceHandler SpaceId × Told SpaceId Url)}
    {h h' : SpaceHandler SpaceId} {a : Announced SpaceId Url} {t : Told SpaceId Url}
    (hmem : (h, .perSpace a) ∈ told ++ [(h', t)]) :
    (h, .perSpace a) ∈ told ∨ (h = h' ∧ .perSpace a = t) := by
  rcases List.mem_append.mp hmem with hold | hnew
  · exact Or.inl hold
  · rw [List.mem_singleton] at hnew
    exact Or.inr ⟨congrArg Prod.fst hnew, congrArg Prod.snd hnew⟩

variable {i : Nat} {imp : Option Url} {c : AddressCall SpaceId Url}

theorem step_advance (hi : s.calls[i]? = some c) :
    s.step (.advance i imp) =
      { (s.advance imp c).2 with calls := s.calls.set i (s.advance imp c).1 } := by
  simp only [step, hi]

/-! ### Looking up the handler -/

theorem advance_marked (hclean : s.poisoned = false) (a : Announced SpaceId Url) :
    (∃ h, s.spaceMap.lookup a.space = some h ∧ s.advance imp (.marked a) = (.found h a, s)) ∨
      (s.spaceMap.lookup a.space = none ∧ s.advance imp (.marked a) = (.notFound a, s)) := by
  simp only [advance, hclean, Bool.false_eq_true, if_false]
  cases hmap : s.spaceMap.lookup a.space with
  | none => exact Or.inr ⟨rfl, rfl⟩
  | some h => exact Or.inl ⟨h, rfl, rfl⟩

theorem Addressed.lookup {a : Announced SpaceId Url} (hs : s.Addressed)
    (hi : s.calls[i]? = some (.marked a)) (hturn : s.InTurn (.advance i imp)) :
    (s.step (.advance i imp)).Addressed := by
  rw [step_advance hi]
  simp only [InTurn, hi] at hturn
  rcases advance_marked hs.clean a with ⟨h, hmap, hnext⟩ | ⟨hmap, hnext⟩
  · have hfor : a.For h := ⟨(hs.registered _ _ hmap).1.symm, hturn h hmap⟩
    rw [hnext]
    refine hs.of_advance rfl rfl rfl rfl (fun _ _ => Or.inl) nofun ?_ fun _ _ => Or.inl
    intro h' a' heq
    cases heq
    exact hfor
  · rw [hnext]
    exact hs.of_advance rfl rfl rfl rfl (fun _ _ => Or.inl) nofun nofun fun _ _ => Or.inl

theorem Followed.lookup {a : Announced SpaceId Url} (hs : s.Followed) (haddressed : s.Addressed)
    (hi : s.calls[i]? = some (.marked a)) : (s.step (.advance i imp)).Followed := by
  have hmem : AddressCall.marked a ∈ s.calls := List.mem_of_getElem? hi
  rw [step_advance hi]
  -- with a handler found the URL is on its way to it, without one it waits to be parked
  rcases advance_marked haddressed.clean a with ⟨h, hmap, hnext⟩ | ⟨hmap, hnext⟩
  · rw [hnext]
    refine hs.of_tracks rfl rfl rfl ?_ ?_
    · intro b hb
      rcases hb with hb | hb
      · exact Or.inl ((List.mem_or_eq_of_mem_set hb).resolve_right nofun)
      · exact Or.inr ((List.mem_or_eq_of_mem_set hb).resolve_right nofun)
    · intro b _ _ htracks
      refine htracks.of_advance hi rfl (fun _ => id) id (fun _ => id) ?_ nofun nofun nofun
      intro heq
      cases heq
      exact .found h hmap (mem_set_self hi)
  · rw [hnext]
    refine hs.of_tracks rfl rfl rfl ?_ ?_
    · intro b hb
      rcases hb with hb | hb
      · exact Or.inl ((List.mem_or_eq_of_mem_set hb).resolve_right nofun)
      · rcases List.mem_or_eq_of_mem_set hb with hold | heq
        · exact Or.inr hold
        · cases heq
          exact Or.inl hmem
    · intro b _ _ htracks
      refine htracks.of_advance hi rfl (fun _ => id) id (fun _ => id) ?_ nofun nofun nofun
      intro heq
      cases heq
      exact .notFound (mem_set_self hi)

omit [DecidableEq SpaceId] in
/-- A call's step to a call that no longer looks for a handler. -/
theorem mem_announcing_of_set {c' : AddressCall SpaceId Url}
    {calls : List (AddressCall SpaceId Url)} {a : Announced SpaceId Url}
    (h : .marked a ∈ calls.set i c' ∨ .notFound a ∈ calls.set i c')
    (hmarked : ∀ a, c' ≠ .marked a) (hnotFound : ∀ a, c' ≠ .notFound a) :
    .marked a ∈ calls ∨ .notFound a ∈ calls := by
  rcases h with h | h
  · exact Or.inl ((List.mem_or_eq_of_mem_set h).resolve_right fun heq => hmarked a heq.symm)
  · exact Or.inr ((List.mem_or_eq_of_mem_set h).resolve_right fun heq => hnotFound a heq.symm)

/-! ### The callback and the kept URL -/

theorem Addressed.callback {h : SpaceHandler SpaceId} {a : Announced SpaceId Url}
    (hs : s.Addressed) (hi : s.calls[i]? = some (.found h a)) :
    (s.step (.advance i imp)).Addressed := by
  rw [step_advance hi]
  refine hs.of_advance rfl rfl rfl rfl (fun _ _ => Or.inl) nofun nofun ?_
  intro h' a' hmem
  rcases mem_append_told hmem with hold | ⟨rfl, heq⟩
  · exact Or.inl hold
  · cases heq
    exact Or.inr (hs.found _ _ (List.mem_of_getElem? hi))

theorem Followed.callback {h : SpaceHandler SpaceId} {a : Announced SpaceId Url}
    (hs : s.Followed) (hi : s.calls[i]? = some (.found h a)) :
    (s.step (.advance i imp)).Followed := by
  rw [step_advance hi]
  refine hs.of_tracks rfl rfl rfl (fun b hb => mem_announcing_of_set hb nofun nofun) ?_
  intro b _ _ htracks
  refine htracks.of_advance hi rfl (fun _ => id) id (fun x hx => List.mem_append_left _ hx)
    nofun nofun nofun ?_
  intro h' hregistered heq
  cases heq
  exact .told h hregistered (List.mem_append_right _ (List.mem_singleton.mpr rfl))

theorem Addressed.keep {a : Announced SpaceId Url} (hs : s.Addressed)
    (hi : s.calls[i]? = some (.notFound a)) (hturn : s.InTurn (.advance i imp)) :
    (s.step (.advance i imp)).Addressed := by
  rw [step_advance hi]
  simp only [InTurn, hi] at hturn
  refine hs.of_advance rfl rfl rfl rfl ?_ nofun nofun fun _ _ => Or.inl
  intro space b hb
  by_cases hspace : space = a.space
  · subst hspace
    have heq : a = b := by simpa only [advance, AList.lookup_insert, Option.some.injEq] using hb
    subst heq
    exact Or.inr ⟨hturn.1, rfl, hturn.2.1⟩
  · have hold : s.pendingSpaceUrls.lookup space = some b := by
      simpa only [advance, AList.lookup_insert_ne hspace] using hb
    exact Or.inl hold

theorem Followed.keep {a : Announced SpaceId Url} (hs : s.Followed)
    (hi : s.calls[i]? = some (.notFound a)) (hturn : s.InTurn (.advance i imp)) :
    (s.step (.advance i imp)).Followed := by
  rw [step_advance hi]
  simp only [InTurn, hi] at hturn
  refine hs.of_tracks rfl rfl rfl (fun b hb => mem_announcing_of_set hb nofun nofun) ?_
  intro b hlatest _ htracks
  refine htracks.of_advance hi rfl (fun _ => id) ?_ (fun _ => id) nofun ?_ nofun nofun
  · intro hkept
    by_cases hspace : b.space = a.space
    · -- the latest URL is kept already, so nothing older may replace it
      have hle : a.number ≤ b.number :=
        hs.newest a (Or.inr (List.mem_of_getElem? hi)) b (by rw [← hspace]; exact hlatest)
      rw [hspace] at hkept
      exact absurd (hturn.2.2 b hkept) (Nat.not_lt.mpr hle)
    · simpa only [advance, AList.lookup_insert_ne hspace] using hkept
  · intro heq
    cases heq
    exact .kept (by simp only [advance, AList.lookup_insert])

/-! ### Registering -/

theorem advance_taken (hclean : s.poisoned = false) {h : SpaceHandler SpaceId}
    (hmap : s.spaceMap.lookup h.space = none) (p : Option (Announced SpaceId Url)) :
    s.advance imp (.taken h p) =
      (.done,
        { s with
          spaceMap := s.spaceMap.insert h.space h
          told := s.told ++ [(h, registered p imp)] }) := by
  simp only [advance, hclean, hmap, Bool.false_eq_true, if_false]

omit [DecidableEq SpaceId] in
theorem registered_eq_perSpace {p : Option (Announced SpaceId Url)} {a : Announced SpaceId Url}
    (h : .perSpace a = registered p imp) : p = some a := by
  cases p with
  | none => cases h
  | some b =>
      cases h
      rfl

theorem Addressed.insert {h : SpaceHandler SpaceId} {p : Option (Announced SpaceId Url)}
    (hs : s.Addressed) (hi : s.calls[i]? = some (.taken h p)) :
    (s.step (.advance i imp)).Addressed := by
  have hmem : AddressCall.taken h p ∈ s.calls := List.mem_of_getElem? hi
  rcases hs.taken h p hmem with ⟨hmap, hepoch, hfor⟩
  rw [step_advance hi, advance_taken hs.clean hmap]
  -- no other registration of this space is under way
  have hother : ∀ (j : Nat) h' p', (s.calls.set i .done)[j]? = some (AddressCall.taken h' p') →
      s.calls[j]? = some (AddressCall.taken h' p') ∧ h'.space ≠ h.space := by
    intro j h' p' hj
    rcases getElem?_set_cases hj with ⟨_, heq⟩ | ⟨hne, hold⟩
    · cases heq
    · exact ⟨hold, fun hspace => hne (hs.single i j h h' p p' hi hold hspace.symm)⟩
  have hotherMem : ∀ h' p', AddressCall.taken h' p' ∈ s.calls.set i .done →
      AddressCall.taken h' p' ∈ s.calls ∧ h'.space ≠ h.space := by
    intro h' p' hcall
    rcases List.mem_iff_getElem?.mp hcall with ⟨j, hj⟩
    exact ⟨List.mem_of_getElem? (hother j h' p' hj).1, (hother j h' p' hj).2⟩
  refine ⟨hs.clean, ?_, ?_, ?_, ?_, ?_, ?_⟩
  · intro space h' hlookup
    by_cases hspace : space = h.space
    · subst hspace
      rw [AList.lookup_insert] at hlookup
      cases hlookup
      exact ⟨rfl, hepoch⟩
    · rw [AList.lookup_insert_ne hspace] at hlookup
      exact hs.registered space h' hlookup
  · intro space a hkept
    rcases hs.kept space a hkept with ⟨hvacant, hold⟩
    have hspace : h.space ≠ space := hvacant.not_taken hmem
    refine ⟨vacant_of ?_ ?_, hold⟩
    · rw [AList.lookup_insert_ne hspace.symm]
      exact hvacant.1
    · intro h' p' hcall
      exact hvacant.not_taken (hotherMem h' p' hcall).1
  · intro h' p' hcall
    rcases hotherMem h' p' hcall with ⟨hold, hne⟩
    rw [AList.lookup_insert_ne hne]
    exact hs.taken h' p' hold
  · intro j k h₁ h₂ p₁ p₂ hj hk
    exact hs.single j k h₁ h₂ p₁ p₂ (hother j h₁ p₁ hj).1 (hother k h₂ p₂ hk).1
  · intro h' a hcall
    exact hs.found h' a ((List.mem_or_eq_of_mem_set hcall).resolve_right nofun)
  · intro h' a htold
    rcases mem_append_told htold with hold | ⟨rfl, heq⟩
    · exact hs.told h' a hold
    · exact hfor a (registered_eq_perSpace heq)

theorem Followed.insert {h : SpaceHandler SpaceId} {p : Option (Announced SpaceId Url)}
    (hs : s.Followed) (haddressed : s.Addressed) (hi : s.calls[i]? = some (.taken h p)) :
    (s.step (.advance i imp)).Followed := by
  have hmem : AddressCall.taken h p ∈ s.calls := List.mem_of_getElem? hi
  have hmap := (haddressed.taken h p hmem).1
  rw [step_advance hi, advance_taken haddressed.clean hmap]
  refine hs.of_tracks rfl rfl rfl (fun b hb => mem_announcing_of_set hb nofun nofun) ?_
  intro b _ _ htracks
  refine htracks.of_advance hi rfl ?_ id (fun x hx => List.mem_append_left _ hx) nofun nofun ?_
    nofun
  · intro h' hregistered
    have hspace : b.space ≠ h.space := by
      intro hspace
      rw [hspace, hmap] at hregistered
      cases hregistered
    rw [AList.lookup_insert_ne hspace]
    exact hregistered
  · intro h' hspace heq
    cases heq
    refine .told h ?_ (List.mem_append_right _ (List.mem_singleton.mpr rfl))
    rw [← hspace, AList.lookup_insert]

theorem Addressed.register {space : SpaceId} (hs : s.Addressed) (hvacant : s.Vacant space) :
    (s.step (.register space)).Addressed := by
  show (s.registerSpaceHandler space).Addressed
  have hcalls : ∀ h p, AddressCall.taken h p ∈ (s.registerSpaceHandler space).calls →
      AddressCall.taken h p ∈ s.calls ∨
        (h = s.handler space ∧ p = s.pendingSpaceUrls.lookup space) := by
    intro h p hcall
    rcases List.mem_append.mp hcall with hold | hnew
    · exact Or.inl hold
    · cases List.mem_singleton.mp hnew
      exact Or.inr ⟨rfl, rfl⟩
  -- the registration took the parked URL, so none is left for this space
  refine ⟨hs.clean, hs.registered, ?_, ?_, ?_, ?_, hs.told⟩
  · intro space' a hkept
    have hspace : space' ≠ space := by
      rintro rfl
      rw [show (s.registerSpaceHandler space').pendingSpaceUrls = s.pendingSpaceUrls.erase space'
        from rfl, AList.lookup_erase] at hkept
      cases hkept
    have hkept : s.pendingSpaceUrls.lookup space' = some a := by
      simpa only [registerSpaceHandler, AList.lookup_erase_ne hspace] using hkept
    rcases hs.kept space' a hkept with ⟨hfree, hold⟩
    refine ⟨vacant_of hfree.1 ?_, hold⟩
    intro h p hcall
    rcases hcalls h p hcall with hmem | ⟨rfl, _⟩
    · exact hfree.not_taken hmem
    · exact hspace.symm
  · intro h p hcall
    rcases hcalls h p hcall with hmem | ⟨rfl, rfl⟩
    · exact hs.taken h p hmem
    · refine ⟨hvacant.1, rfl, fun a ha => ?_⟩
      have hkept := hs.kept space a ha
      exact ⟨hkept.2.1, hkept.2.2⟩
  · intro j k h h' p p' hj hk hspace
    rcases getElem?_concat_cases hj with hj | ⟨rfl, heq⟩
    · rcases getElem?_concat_cases hk with hk | ⟨rfl, heq⟩
      · exact hs.single j k h h' p p' hj hk hspace
      · cases heq
        exact absurd hspace (hvacant.not_taken (List.mem_of_getElem? hj))
    · cases heq
      rcases getElem?_concat_cases hk with hk | ⟨rfl, heq⟩
      · exact absurd hspace.symm (hvacant.not_taken (List.mem_of_getElem? hk))
      · rfl
  · intro h a hcall
    rcases List.mem_append.mp hcall with hold | hnew
    · exact hs.found h a hold
    · cases List.mem_singleton.mp hnew

theorem Followed.register (hs : s.Followed) (space : SpaceId) :
    (s.step (.register space)).Followed := by
  refine hs.of_tracks rfl rfl rfl ?_ ?_
  · intro a ha
    rcases ha with ha | ha
    · exact Or.inl ((List.mem_append.mp ha).resolve_right (by simp))
    · exact Or.inr ((List.mem_append.mp ha).resolve_right (by simp))
  · intro a _ _ htracks
    cases htracks with
    | marked hcall => exact .marked (List.mem_append_left _ hcall)
    | notFound hcall => exact .notFound (List.mem_append_left _ hcall)
    | kept hkept =>
        by_cases hspace : a.space = space
        · subst hspace
          refine .taken (s.handler a.space) rfl (List.mem_append_right _ ?_)
          rw [hkept]
          exact List.mem_singleton.mpr rfl
        · refine .kept ?_
          simpa only [step, registerSpaceHandler, AList.lookup_erase_ne hspace] using hkept
    | taken h hspace hcall => exact .taken h hspace (List.mem_append_left _ hcall)
    | found h hregistered hcall => exact .found h hregistered (List.mem_append_left _ hcall)
    | told h hregistered htold => exact .told h hregistered htold

/-! ### The other steps -/

/-- A step that changes neither the handlers nor what is kept, and adds one call. -/
theorem Addressed.of_append (hs : s.Addressed) (hclean : s'.poisoned = s.poisoned)
    (hmap : s'.spaceMap = s.spaceMap) (hepoch : s'.epoch = s.epoch)
    (hpending : s'.pendingSpaceUrls = s.pendingSpaceUrls) (htold : s'.told = s.told)
    (hcalls : s'.calls = s.calls ++ [c]) (htaken : ∀ h p, c ≠ .taken h p)
    (hfound : ∀ h a, c ≠ .found h a) : s'.Addressed := by
  refine hs.of_registered hclean hmap hepoch ?_ ?_ ?_ ?_
  · rw [hpending]
    exact fun _ _ => Or.inl
  · intro j h p hj
    rw [hcalls] at hj
    rcases getElem?_concat_cases hj with hold | ⟨_, heq⟩
    · exact hold
    · exact absurd heq.symm (htaken h p)
  · intro h a hcall
    rw [hcalls] at hcall
    rcases List.mem_append.mp hcall with hold | hnew
    · exact hs.found h a hold
    · exact absurd (List.mem_singleton.mp hnew).symm (hfound h a)
  · rw [htold]
    exact hs.told

theorem Tracks.mono {a : Announced SpaceId Url} (ha : s.Tracks a)
    (hmap : ∀ h, s.spaceMap.lookup a.space = some h → s'.spaceMap.lookup a.space = some h)
    (hpending : s'.pendingSpaceUrls = s.pendingSpaceUrls) (htold : s'.told = s.told)
    (hcalls : ∀ d ∈ s.calls, d ∈ s'.calls) : s'.Tracks a := by
  cases ha with
  | marked hcall => exact .marked (hcalls _ hcall)
  | notFound hcall => exact .notFound (hcalls _ hcall)
  | kept hkept => exact .kept (by rw [hpending]; exact hkept)
  | taken h hspace hcall => exact .taken h hspace (hcalls _ hcall)
  | found h hregistered hcall => exact .found h (hmap h hregistered) (hcalls _ hcall)
  | told h hregistered hmem => exact .told h (hmap h hregistered) (by rw [htold]; exact hmem)

theorem Followed.announce (hs : s.Followed) (url : Url) (space : SpaceId) :
    (s.step (.announce url space)).Followed := by
  -- the new announcement is the latest of its space and is on its way
  have hcalls : ∀ a, .marked a ∈ (s.newListeningAddress url space).calls ∨
      .notFound a ∈ (s.newListeningAddress url space).calls →
      (.marked a ∈ s.calls ∨ .notFound a ∈ s.calls) ∨ a = s.announcement url space := by
    intro a ha
    rcases ha with ha | ha
    · rcases List.mem_append.mp ha with hold | hnew
      · exact Or.inl (Or.inl hold)
      · cases List.mem_singleton.mp hnew
        exact Or.inr rfl
    · rcases List.mem_append.mp ha with hold | hnew
      · exact Or.inl (Or.inr hold)
      · cases List.mem_singleton.mp hnew
  refine ⟨?_, ?_, ?_⟩
  · intro a ha
    rcases hcalls a ha with hold | rfl
    · exact Nat.lt_succ_of_lt (hs.numbered a hold)
    · exact Nat.lt_succ_self _
  · intro a ha b hb
    have hb : Function.update s.latest space (some (s.announcement url space)) a.space = some b :=
      hb
    by_cases hspace : a.space = space
    · rw [hspace, Function.update_self] at hb
      cases hb
      rcases hcalls a ha with hold | rfl
      · exact Nat.le_of_lt (hs.numbered a hold)
      · exact Nat.le_refl _
    · rw [Function.update_of_ne hspace] at hb
      rcases hcalls a ha with hold | rfl
      · exact hs.newest a hold b hb
      · exact absurd rfl hspace
  · intro space' a ha
    have ha : Function.update s.latest space (some (s.announcement url space)) space' = some a := ha
    by_cases hspace : space' = space
    · rw [hspace, Function.update_self] at ha
      cases ha
      refine ⟨hspace.symm, ?_, fun _ => .marked ?_⟩
      · rw [hspace]
        exact Nat.le_refl _
      · exact List.mem_append_right _ (List.mem_singleton.mpr rfl)
    · rw [Function.update_of_ne hspace] at ha
      rcases hs.latest space' a ha with ⟨heq, hle, htracked⟩
      refine ⟨heq, hle, fun hnow => (htracked hnow).mono (fun _ => id) rfl rfl ?_⟩
      exact fun d hd => List.mem_append_left _ hd

theorem step_unregister (hclean : s.poisoned = false) (space : SpaceId) :
    (s.spaceMap.lookup space = none ∧ s.step (.unregister space) = s) ∨
      ∃ h, s.spaceMap.lookup space = some h ∧
        s.step (.unregister space) =
          { s with
            spaceMap := s.spaceMap.erase space
            epoch := Function.update s.epoch space (s.epoch space + 1) } := by
  simp only [step, unregisterSpace, hclean, Bool.false_eq_true, if_false]
  cases hmap : s.spaceMap.lookup space with
  | none => exact Or.inl ⟨rfl, rfl⟩
  | some h => exact Or.inr ⟨h, rfl, rfl⟩

theorem Addressed.unregister (hs : s.Addressed) (space : SpaceId) :
    (s.step (.unregister space)).Addressed := by
  rcases step_unregister hs.clean space with ⟨_, hstep⟩ | ⟨h, hmap, hstep⟩
  · rw [hstep]
    exact hs
  · rw [hstep]
    -- a space that is kept for or claimed is not registered, so its count stays
    have hne : ∀ space', s.spaceMap.lookup space' = none → space' ≠ space := by
      rintro space' hnone rfl
      rw [hmap] at hnone
      cases hnone
    refine ⟨hs.clean, ?_, ?_, ?_, hs.single, hs.found, hs.told⟩
    · intro space' h' hlookup
      have hspace : space' ≠ space := by
        rintro rfl
        rw [AList.lookup_erase] at hlookup
        cases hlookup
      rw [AList.lookup_erase_ne hspace] at hlookup
      simp only [Function.update_of_ne hspace]
      exact hs.registered space' h' hlookup
    · intro space' a hkept
      rcases hs.kept space' a hkept with ⟨hvacant, hspace, hepoch⟩
      have hother := hne space' hvacant.1
      refine ⟨⟨?_, hvacant.2⟩, hspace, ?_⟩
      · rw [AList.lookup_erase_ne hother]
        exact hvacant.1
      · simp only [Function.update_of_ne hother]
        exact hepoch
    · intro h' p hcall
      rcases hs.taken h' p hcall with ⟨hnone, hepoch, hfor⟩
      have hother := hne h'.space hnone
      simp only [AList.lookup_erase_ne hother, Function.update_of_ne hother]
      exact ⟨hnone, hepoch, hfor⟩

theorem Followed.unregister (hs : s.Followed) (haddressed : s.Addressed) (space : SpaceId) :
    (s.step (.unregister space)).Followed := by
  rcases step_unregister haddressed.clean space with ⟨_, hstep⟩ | ⟨h, hmap, hstep⟩
  · rw [hstep]
    exact hs
  · rw [hstep]
    refine ⟨hs.numbered, hs.newest, ?_⟩
    intro space' a ha
    rcases hs.latest space' a ha with ⟨rfl, hle, htracked⟩
    by_cases hspace : a.space = space
    · -- what was announced before the removal is not for the next handler
      subst hspace
      refine ⟨rfl, ?_, fun hnow => absurd hle ?_⟩
      · simp only [Function.update_self]
        exact Nat.le_succ_of_le hle
      · simp only [hnow, Function.update_self]
        exact Nat.not_succ_le_self _
    · refine ⟨rfl, ?_, ?_⟩
      · simp only [Function.update_of_ne hspace]
        exact hle
      · simp only [Function.update_of_ne hspace]
        intro hnow
        refine (htracked hnow).mono ?_ rfl rfl fun _ => id
        exact fun h' hregistered => (AList.lookup_erase_ne hspace).trans hregistered

/-- The call for all spaces that a step leaves, and what it tells. -/
structure TellsAll (s s' : TxImpHnd SpaceId Url) (c c' : AddressCall SpaceId Url) : Prop where
  before : ∀ space, c.concerns space = false
  after : ∀ space, c'.concerns space = false
  poisoned : s'.poisoned = s.poisoned
  spaceMap : s'.spaceMap = s.spaceMap
  pending : s'.pendingSpaceUrls = s.pendingSpaceUrls
  epoch : s'.epoch = s.epoch
  latest : s'.latest = s.latest
  announcements : s'.announcements = s.announcements
  told : ∀ x ∈ s.told, x ∈ s'.told
  perSpace : ∀ h a, (h, .perSpace a) ∈ s'.told → (h, .perSpace a) ∈ s.told

theorem advance_tellsAll (hc : ∀ space, c.concerns space = false) :
    TellsAll s (s.advance imp c).2 c (s.advance imp c).1 := by
  have hsame : ∀ c' : AddressCall SpaceId Url, (∀ space, c'.concerns space = false) →
      TellsAll s s c c' :=
    fun c' hc' => ⟨hc, hc', rfl, rfl, rfl, rfl, rfl, rfl, fun _ => id, fun _ _ => id⟩
  cases c with
  | marked a => exact absurd (hc a.space) (by simp [AddressCall.concerns])
  | found h a => exact absurd (hc a.space) (by simp [AddressCall.concerns])
  | notFound a => exact absurd (hc a.space) (by simp [AddressCall.concerns])
  | taken h p => exact absurd (hc h.space) (by simp [AddressCall.concerns])
  | copied url managed =>
      simp only [advance]
      split
      · exact hsame .done fun _ => rfl
      · exact hsame (.listed url (s.unmanaged managed)) fun _ => rfl
  | listed url handlers =>
      exact ⟨hc, fun _ => rfl, rfl, rfl, rfl, rfl, rfl, rfl, fun _ => id, fun _ _ => id⟩
  | calling url handlers =>
      cases handlers with
      | nil => exact hsame .done fun _ => rfl
      | cons h handlers =>
          refine ⟨hc, fun _ => rfl, rfl, rfl, rfl, rfl, rfl, rfl,
            fun x hx => List.mem_append_left _ hx, ?_⟩
          intro h' a hmem
          exact (mem_append_told hmem).resolve_right fun hnew => by cases hnew.2
  | done => exact hsame .done fun _ => rfl

theorem Addressed.tellAll (hs : s.Addressed) (hi : s.calls[i]? = some c)
    (hc : ∀ space, c.concerns space = false) : (s.step (.advance i imp)).Addressed := by
  have htells : TellsAll s (s.advance imp c).2 c (s.advance imp c).1 := advance_tellsAll hc
  rw [step_advance hi]
  refine hs.of_advance htells.poisoned htells.spaceMap htells.epoch rfl ?_ ?_ ?_
    fun h a hmem => Or.inl (htells.perSpace h a hmem)
  · intro space a ha
    rw [show _ = s.pendingSpaceUrls from htells.pending] at ha
    exact Or.inl ha
  · intro h p heq
    have hafter := htells.after h.space
    rw [heq] at hafter
    simp [AddressCall.concerns] at hafter
  · intro h a heq
    have hafter := htells.after a.space
    rw [heq] at hafter
    simp [AddressCall.concerns] at hafter

theorem Followed.tellAll (hs : s.Followed) (hi : s.calls[i]? = some c)
    (hc : ∀ space, c.concerns space = false) : (s.step (.advance i imp)).Followed := by
  -- telling all spaces touches no space's own announcement
  have htells : TellsAll s (s.advance imp c).2 c (s.advance imp c).1 := advance_tellsAll hc
  rw [step_advance hi]
  refine hs.of_tracks htells.announcements htells.latest htells.epoch ?_ ?_
  · intro a ha
    refine mem_announcing_of_set ha ?_ ?_
    · intro b heq
      have hafter := htells.after b.space
      rw [heq] at hafter
      simp [AddressCall.concerns] at hafter
    · intro b heq
      have hafter := htells.after b.space
      rw [heq] at hafter
      simp [AddressCall.concerns] at hafter
  · intro a _ _ htracks
    refine htracks.of_advance hi rfl ?_ ?_ htells.told ?_ ?_ ?_ ?_
    · intro h hregistered
      rw [show _ = s.spaceMap from htells.spaceMap]
      exact hregistered
    · intro hkept
      rw [show _ = s.pendingSpaceUrls from htells.pending]
      exact hkept
    · rintro rfl
      exact absurd (hc a.space) (by simp [AddressCall.concerns])
    · rintro rfl
      exact absurd (hc a.space) (by simp [AddressCall.concerns])
    · rintro h _ rfl
      exact absurd (hc h.space) (by simp [AddressCall.concerns])
    · rintro h _ rfl
      exact absurd (hc a.space) (by simp [AddressCall.concerns])

/-- A step that only changes which spaces are managed. -/
theorem Addressed.unmark (hs : s.Addressed) (space : SpaceId) :
    (s.step (.unmark space)).Addressed :=
  hs.of_registered rfl rfl rfl (fun _ _ => Or.inl) (fun _ _ _ => id) hs.found hs.told

theorem Followed.unmark (hs : s.Followed) (space : SpaceId) :
    (s.step (.unmark space)).Followed :=
  hs.of_tracks rfl rfl rfl (fun _ => id)
    fun _ _ _ htracks => htracks.mono (fun _ => id) rfl rfl fun _ => id

theorem Followed.announceAll (hs : s.Followed) (url : Url) :
    (s.step (.announceAll url)).Followed := by
  refine hs.of_tracks rfl rfl rfl ?_ ?_
  · intro a ha
    rcases ha with ha | ha
    · exact Or.inl ((List.mem_append.mp ha).resolve_right (by simp))
    · exact Or.inr ((List.mem_append.mp ha).resolve_right (by simp))
  · intro a _ _ htracks
    exact htracks.mono (fun _ => id) rfl rfl fun d hd => List.mem_append_left _ hd

/-! ## Runs -/

theorem advance_sound (hs : s.Addressed ∧ s.Followed) (hturn : s.InTurn (.advance i imp)) :
    (s.step (.advance i imp)).Addressed ∧ (s.step (.advance i imp)).Followed := by
  cases hi : s.calls[i]? with
  | none =>
      simp only [step, hi]
      exact hs
  | some c =>
      cases c with
      | marked a => exact ⟨hs.1.lookup hi hturn, hs.2.lookup hs.1 hi⟩
      | found h a => exact ⟨hs.1.callback hi, hs.2.callback hi⟩
      | notFound a => exact ⟨hs.1.keep hi hturn, hs.2.keep hi hturn⟩
      | taken h p => exact ⟨hs.1.insert hi, hs.2.insert hs.1 hi⟩
      | copied url managed => exact ⟨hs.1.tellAll hi fun _ => rfl, hs.2.tellAll hi fun _ => rfl⟩
      | listed url handlers => exact ⟨hs.1.tellAll hi fun _ => rfl, hs.2.tellAll hi fun _ => rfl⟩
      | calling url handlers => exact ⟨hs.1.tellAll hi fun _ => rfl, hs.2.tellAll hi fun _ => rfl⟩
      | done => exact ⟨hs.1.tellAll hi fun _ => rfl, hs.2.tellAll hi fun _ => rfl⟩

theorem step_sound (hs : s.Addressed ∧ s.Followed) (e : AddressEvent SpaceId Url)
    (hturn : s.InTurn e) : (s.step e).Addressed ∧ (s.step e).Followed := by
  cases e with
  | announce url space =>
      exact ⟨hs.1.of_append rfl rfl rfl rfl rfl rfl nofun nofun, hs.2.announce url space⟩
  | announceAll url =>
      exact ⟨hs.1.of_append rfl rfl rfl rfl rfl rfl nofun nofun, hs.2.announceAll url⟩
  | register space => exact ⟨hs.1.register hturn, hs.2.register space⟩
  | unregister space => exact ⟨hs.1.unregister space, hs.2.unregister hs.1 space⟩
  | unmark space => exact ⟨hs.1.unmark space, hs.2.unmark space⟩
  | advance i imp => exact advance_sound hs hturn

theorem new_sound : (new : TxImpHnd SpaceId Url).Addressed ∧ (new : TxImpHnd SpaceId Url).Followed :=
  ⟨⟨rfl, nofun, nofun, nofun, nofun, nofun, nofun⟩, ⟨nofun, nofun, nofun⟩⟩

/-- No call about the address of this space is between two of its steps. -/
def Idle (s : TxImpHnd SpaceId Url) (space : SpaceId) : Prop :=
  ∀ c ∈ s.calls, c.concerns space = false

instance Idle.decidable (s : TxImpHnd SpaceId Url) (space : SpaceId) : Decidable (s.Idle space) :=
  inferInstanceAs (Decidable (∀ c ∈ s.calls, c.concerns space = false))

/-- The state after a run. -/
def run (events : List (AddressEvent SpaceId Url)) : TxImpHnd SpaceId Url :=
  events.foldl step new

theorem Followed.learned {space : SpaceId} {h : SpaceHandler SpaceId} {a : Announced SpaceId Url}
    (hs : s.Followed) (haddressed : s.Addressed) (hidle : s.Idle space)
    (hregistered : s.spaceMap.lookup space = some h) (hlatest : s.latest space = some a)
    (hnow : a.epoch = h.epoch) : (h, .perSpace a) ∈ s.told := by
  rcases hs.latest space a hlatest with ⟨rfl, _, htracked⟩
  have hidle : ∀ c ∈ s.calls, c.concerns a.space ≠ true := by
    intro c hc
    rw [hidle c hc]
    exact Bool.false_ne_true
  cases htracked (hnow.trans (haddressed.registered _ _ hregistered).2) with
  | marked hcall => exact absurd (decide_eq_true rfl) (hidle _ hcall)
  | notFound hcall => exact absurd (decide_eq_true rfl) (hidle _ hcall)
  | kept hkept =>
      rw [(haddressed.kept _ _ hkept).1.1] at hregistered
      cases hregistered
  | taken h' hspace hcall => exact absurd (decide_eq_true hspace) (hidle _ hcall)
  | found h' _ hcall => exact absurd (decide_eq_true rfl) (hidle _ hcall)
  | told h' hregistered' htold =>
      rw [hregistered] at hregistered'
      cases hregistered'
      exact htold

/-- In a run whose steps are in turn, a registered handler has been told the latest URL announced for
its space whenever no call about that space is under way, and no handler is ever told a URL that was
announced before its space was last removed. -/
theorem addresses_delivered (events : List (AddressEvent SpaceId Url))
    (hturn : Along step InTurn new events) :
    (∀ space h a, (run events).spaceMap.lookup space = some h →
      (run events).latest space = some a → a.epoch = h.epoch → (run events).Idle space →
      (h, .perSpace a) ∈ (run events).told) ∧
    ∀ h a, (h, .perSpace a) ∈ (run events).told → a.For h := by
  have hsound : (run events).Addressed ∧ (run events).Followed :=
    hturn.invariant (I := fun s => s.Addressed ∧ s.Followed) new_sound
      fun _ e hs hcond => step_sound hs e hcond
  refine ⟨?_, hsound.1.told⟩
  intro space h a hregistered hlatest hnow hidle
  exact hsound.2.learned hsound.1 hidle hregistered hlatest hnow

/-- Announced, kept, registered, announced again, removed, announced and registered again: both
handlers learn what is announced for them. -/
def settledAddresses : List (AddressEvent Bool Nat) :=
  [.announce 1 true, .advance 0 none, .advance 0 none, .register true, .advance 1 none,
    .announce 2 true, .advance 2 none, .advance 2 none, .unregister true, .announce 3 true,
    .advance 3 none, .advance 3 none, .register true, .advance 4 none]

theorem settledAddresses_delivered :
    Along step InTurn new settledAddresses ∧
      (⟨true, 1, 1⟩, .perSpace ⟨true, 3, 2, 1⟩) ∈ (run settledAddresses).told := by
  have hturn : Along step InTurn new settledAddresses := by decide +kernel
  refine ⟨hturn, ?_⟩
  refine (addresses_delivered settledAddresses hturn).1 true ⟨true, 1, 1⟩ ⟨true, 3, 2, 1⟩ ?_ ?_ ?_ ?_
  · decide +kernel
  · decide +kernel
  · rfl
  · decide +kernel

/-- The announcement looks for a handler before there is one and keeps its URL after the registration
took what was kept: the handler never learns it. -/
theorem latest_address_lost :
    ∃ (events : List (AddressEvent Bool Nat)) (h : SpaceHandler Bool) (a : Announced Bool Nat),
      (run events).spaceMap.lookup true = some h ∧ (run events).latest true = some a ∧
        a.epoch = h.epoch ∧ (run events).Idle true ∧ (h, .perSpace a) ∉ (run events).told := by
  refine ⟨[.announce 1 true, .advance 0 none, .register true, .advance 1 (some 0), .advance 0 none],
    ⟨true, 0, 0⟩, ⟨true, 1, 0, 0⟩, ?_⟩
  decide +kernel

end TxImpHnd

end Transport
end Kitsune2
