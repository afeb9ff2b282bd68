import Kitsune2.Bootstrap.Space

/-!
# Space list — the list of a space over every sequence of updates

One walk over the list replaces, deletes and drops infos and uses up the new one, and what comes after it
takes an info that was not used up for one that met no info of its agent.  That holds as long as no agent
has two infos in the list, which every update keeps up.  An info that cannot be read back is lost to the
walk, whoever's it is, so what is kept is said of the infos the walk can read.
-/

namespace Kitsune2
namespace Bootstrap

variable {Agent SpaceId Sig : Type}

/-- A list that was not too long is not too long after an update. -/
theorem Updated.length_le {maxEntries : Nat} {now : Int}
    {newInfo : Option (ParsedEntry Agent SpaceId Sig)}
    {list list' : List (ParsedEntry Agent SpaceId Sig)}
    (h : Updated maxEntries now list newInfo list') (hmax : 0 < maxEntries)
    (hlen : list.length ≤ maxEntries) : list'.length ≤ maxEntries := by
  have hkept : ∀ l : List (ParsedEntry Agent SpaceId Sig), (unexpired now l).length ≤ l.length :=
    fun l => List.length_filter_le _ l
  cases h with
  | pruned => exact Nat.le_trans (hkept list) hlen
  | tombstone _ _ => exact Nat.le_trans (hkept list) hlen
  | @matched newP parsed front back hlist _ _ =>
      have hfront := hkept front
      have hback := hkept back
      have hone : (supersede now newP parsed).toList.length ≤ 1 := by
        cases supersede now newP parsed with
        | none => exact Nat.zero_le 1
        | some e => exact Nat.le_refl 1
      rw [hlist, List.length_append, List.length_cons] at hlen
      rw [List.length_append, List.length_append]
      omega
  | @pushed newP _ _ _ hpush =>
      have hshort := Nat.le_trans (hkept list) hlen
      rcases pushEntry_eq_some hpush with ⟨hfull, rfl⟩ | ⟨hroom, rfl⟩
      -- the evicted index is in bounds as the list is full and not empty
      · have hidx : maxEntries / 2 < (unexpired now list).length := by omega
        rw [List.length_append, List.length_eraseIdx_of_lt hidx, List.length_singleton]
        omega
      · rw [List.length_append, List.length_singleton]
        omega

/-! ## The infos of other agents -/

variable [DecidableEq Agent]

/-- The infos of other agents than the new info's. -/
def othersOf (newInfo : Option (ParsedEntry Agent SpaceId Sig))
    (list : List (ParsedEntry Agent SpaceId Sig)) : List (ParsedEntry Agent SpaceId Sig) :=
  list.filter fun e => newInfo.map (fun p => p.agent) ≠ some e.agent

/-- The new info is of an agent the list holds nothing for, and the list is full without what has
expired. -/
def AddedToFull (maxEntries : Nat) (now : Int) (newInfo : Option (ParsedEntry Agent SpaceId Sig))
    (list : List (ParsedEntry Agent SpaceId Sig)) : Prop :=
  ∃ newP, newInfo = some newP ∧ newP.isTombstone = false ∧ (∀ e ∈ list, e.agent ≠ newP.agent) ∧
    maxEntries ≤ (unexpired now list).length

/-- What an update does to the infos of other agents: those that have not expired keep their order, and
the half-way one of a full list goes for the info of an agent that is new to it. -/
structure OthersKept (maxEntries : Nat) (now : Int)
    (newInfo : Option (ParsedEntry Agent SpaceId Sig))
    (list list' : List (ParsedEntry Agent SpaceId Sig)) : Prop where
  kept : ¬ AddedToFull maxEntries now newInfo list →
    othersOf newInfo list' = unexpired now (othersOf newInfo list)
  inBounds : AddedToFull maxEntries now newInfo list →
    maxEntries / 2 < (unexpired now (othersOf newInfo list)).length
  evicted : AddedToFull maxEntries now newInfo list →
    othersOf newInfo list' = (unexpired now (othersOf newInfo list)).eraseIdx (maxEntries / 2)

section

variable {newP : ParsedEntry Agent SpaceId Sig} {list : List (ParsedEntry Agent SpaceId Sig)}

theorem othersOf_append (newInfo : Option (ParsedEntry Agent SpaceId Sig))
    (front back : List (ParsedEntry Agent SpaceId Sig)) :
    othersOf newInfo (front ++ back) = othersOf newInfo front ++ othersOf newInfo back :=
  List.filter_append ..

theorem othersOf_of_ne (h : ∀ e ∈ list, e.agent ≠ newP.agent) : othersOf (some newP) list = list := by
  refine List.filter_eq_self.mpr fun e he => ?_
  simpa using (h e he).symm

theorem othersOf_of_eq (h : ∀ e ∈ list, e.agent = newP.agent) : othersOf (some newP) list = [] := by
  refine List.filter_eq_nil_iff.mpr fun e he => ?_
  simpa using (h e he).symm

theorem othersOf_unexpired (now : Int) (newInfo : Option (ParsedEntry Agent SpaceId Sig)) :
    othersOf newInfo (unexpired now list) = unexpired now (othersOf newInfo list) :=
  List.filter_comm ..

end

namespace Updated

variable {maxEntries : Nat} {now : Int} {newInfo : Option (ParsedEntry Agent SpaceId Sig)}
  {list list' : List (ParsedEntry Agent SpaceId Sig)}

theorem othersKept (h : Updated maxEntries now list newInfo list') (hmax : 0 < maxEntries) :
    OthersKept maxEntries now newInfo list list' := by
  -- only a push to a full list evicts
  have hkeeps : ¬ AddedToFull maxEntries now newInfo list →
      othersOf newInfo list' = unexpired now (othersOf newInfo list) →
      OthersKept maxEntries now newInfo list list' :=
    fun hnot hkept => ⟨fun _ => hkept, fun hfull => absurd hfull hnot, fun hfull => absurd hfull hnot⟩
  cases h with
  | pruned =>
      refine hkeeps ?_ (othersOf_unexpired now none)
      rintro ⟨newP, hnew, _⟩
      cases hnew
  | @tombstone newP _ htomb =>
      refine hkeeps ?_ (othersOf_unexpired now (some newP))
      rintro ⟨newP', hnew, hnot, _⟩
      cases hnew
      rw [htomb] at hnot
      cases hnot
  | @matched newP parsed front back hlist hagent hothers =>
      subst hlist
      refine hkeeps ?_ ?_
      · rintro ⟨newP', hnew, _, hnone, _⟩
        cases hnew
        exact hnone parsed (List.mem_append_right _ List.mem_cons_self) hagent
      · have hfront : othersOf (some newP) front = front :=
          othersOf_of_ne fun e he => hothers e (Or.inl he)
        have hback : othersOf (some newP) back = back :=
          othersOf_of_ne fun e he => hothers e (Or.inr he)
        have hgone : othersOf (some newP) [parsed] = [] :=
          othersOf_of_eq fun e he => (List.mem_singleton.mp he) ▸ hagent
        have hkept : othersOf (some newP) (supersede now newP parsed).toList = [] :=
          othersOf_of_eq fun e he =>
            (supersede_agent hagent e (Option.mem_toList.mp he)).trans hagent
        rw [← List.singleton_append (l := back)]
        simp only [othersOf_append, othersOf_unexpired, hfront, hback, hgone, hkept, List.append_nil,
          List.nil_append]
        exact (List.filter_append ..).symm
  | @pushed newP list' hnone htomb hpush =>
      have hall : othersOf (some newP) list = list := othersOf_of_ne hnone
      have hlive : ∀ e ∈ unexpired now list, e.agent ≠ newP.agent :=
        fun e he => hnone e (mem_unexpired_iff.mp he).1
      have hnew : othersOf (some newP) [newP] = [] :=
        othersOf_of_eq fun e he => (List.mem_singleton.mp he) ▸ rfl
      rcases pushEntry_eq_some hpush with ⟨hfull, rfl⟩ | ⟨hroom, rfl⟩
      · have hadded : AddedToFull maxEntries now (some newP) list :=
          ⟨newP, rfl, htomb, hnone, hfull⟩
        refine ⟨fun hnot => absurd hadded hnot, fun _ => ?_, fun _ => ?_⟩
        · rw [hall]
          omega
        · rw [hall, othersOf_append, hnew, List.append_nil]
          exact othersOf_of_ne fun e he => hlive e ((List.eraseIdx_sublist _ _).subset he)
      · refine hkeeps ?_ ?_
        · rintro ⟨newP', hnew', _, _, hfull⟩
          omega
        · rw [hall, othersOf_append, hnew, List.append_nil]
          exact othersOf_of_ne hlive

end Updated

/-! ## Every sequence of updates -/

/-- The new info of a call, the clock reading it takes, and which of the stored infos it can read. -/
structure SpaceUpdate (Agent SpaceId Sig : Type) where
  now : Int
  parses : ParsedEntry Agent SpaceId Sig → Bool
  newInfo : Option (ParsedEntry Agent SpaceId Sig)

namespace Space

variable {maxEntries : Nat} {space : Space Agent SpaceId Sig}

/-- A space after a sequence of updates. -/
def run (spaceId : SpaceId) (maxEntries : Nat) (calls : List (SpaceUpdate Agent SpaceId Sig)) :
    Space Agent SpaceId Sig :=
  calls.foldl (fun space call => (space.update maxEntries call.now call.parses call.newInfo).2)
    (new spaceId)

/-- An update of a space that no earlier one has poisoned returns. -/
theorem update_returns (hmax : 0 < maxEntries) (hpoison : space.poisoned = false) (now : Int)
    (parses : ParsedEntry Agent SpaceId Sig → Bool)
    (newInfo : Option (ParsedEntry Agent SpaceId Sig)) :
    (space.update maxEntries now parses newInfo).1 = true ∧
      (space.update maxEntries now parses newInfo).2.poisoned = false := by
  have hsome : (updateEntries maxEntries now parses newInfo _).isSome = true :=
    updateEntries_isSome space.onePerAgent hmax
  unfold update
  rw [if_neg (by rw [hpoison]; exact Bool.false_ne_true)]
  split
  · next hnone =>
      rw [hnone] at hsome
      cases hsome
  · exact ⟨rfl, hpoison⟩

theorem update_updated (hmax : 0 < maxEntries) (hpoison : space.poisoned = false) (now : Int)
    (parses : ParsedEntry Agent SpaceId Sig → Bool)
    (newInfo : Option (ParsedEntry Agent SpaceId Sig)) :
    Updated maxEntries now (space.readable.filter parses) newInfo
      (space.update maxEntries now parses newInfo).2.readable := by
  rcases space.update_cases maxEntries now parses newInfo with ⟨_, hupdated⟩ | ⟨hpanic, _⟩
  · exact hupdated
  · rw [(update_returns hmax hpoison now parses newInfo).1] at hpanic
    cases hpanic

theorem run_bounded (spaceId : SpaceId) (hmax : 0 < maxEntries)
    (calls : List (SpaceUpdate Agent SpaceId Sig)) :
    (run spaceId maxEntries calls).poisoned = false ∧
      (run spaceId maxEntries calls).readable.length ≤ maxEntries := by
  unfold run
  refine List.foldlRecOn (motive := fun s : Space Agent SpaceId Sig =>
    s.poisoned = false ∧ s.readable.length ≤ maxEntries) calls _ ⟨rfl, Nat.zero_le _⟩ ?_
  rintro space ⟨hpoison, hlen⟩ call _
  have hread : (space.readable.filter call.parses).length ≤ maxEntries :=
    Nat.le_trans (List.length_filter_le _ _) hlen
  exact ⟨(update_returns hmax hpoison call.now call.parses call.newInfo).2,
    (update_updated hmax hpoison call.now call.parses call.newInfo).length_le hmax hread⟩

/-- After every sequence of updates the list has one info for each agent and is not too long, and every
next update returns and keeps what it should of the infos of other agents it can read. -/
theorem run_list_invariant (spaceId : SpaceId) (maxEntries : Nat) (hmax : 1 ≤ maxEntries)
    (calls : List (SpaceUpdate Agent SpaceId Sig)) :
    OnePerAgent (run spaceId maxEntries calls).readable ∧
      (run spaceId maxEntries calls).readable.length ≤ maxEntries ∧
      ∀ now parses newInfo,
        ((run spaceId maxEntries calls).update maxEntries now parses newInfo).1 = true ∧
          OthersKept maxEntries now newInfo ((run spaceId maxEntries calls).readable.filter parses)
            ((run spaceId maxEntries calls).update maxEntries now parses newInfo).2.readable := by
  rcases run_bounded spaceId hmax calls with ⟨hpoison, hlen⟩
  refine ⟨(run spaceId maxEntries calls).onePerAgent, hlen, fun now parses newInfo => ?_⟩
  exact ⟨(update_returns hmax hpoison now parses newInfo).1,
    (update_updated hmax hpoison now parses newInfo).othersKept hmax⟩

/-- Two agents fill a space for two. -/
def fullOfTwo : List (SpaceUpdate Nat Unit Unit) :=
  [⟨0, allParse, some ⟨1, (), 0, 9, false, "", ()⟩⟩, ⟨1, allParse, some ⟨2, (), 1, 9, false, "", ()⟩⟩]

/-- The half-way info makes room for a third agent. -/
theorem run_list_invariant_fullOfTwo :
    ((run () 2 fullOfTwo).update 2 2 allParse (some ⟨3, (), 2, 9, false, "", ()⟩)).1 = true ∧
      othersOf (some ⟨3, (), 2, 9, false, "", ()⟩)
          ((run () 2 fullOfTwo).update 2 2 allParse (some ⟨3, (), 2, 9, false, "", ()⟩)).2.readable =
        [⟨1, (), 0, 9, false, "", ()⟩] := by
  rcases run_list_invariant () 2 (by decide) fullOfTwo with ⟨_, _, hupdate⟩
  rcases hupdate 2 allParse (some ⟨3, (), 2, 9, false, "", ()⟩) with ⟨hreturns, hothers⟩
  exact ⟨hreturns, hothers.evicted ⟨_, rfl, rfl, by decide, by decide⟩⟩

/-- An update with nothing new that cannot read the info of agent 1 deletes it, though it has not expired
and nothing is evicted. -/
theorem unread_entry_deleted :
    ¬ OthersKept 2 2 none (run () 2 fullOfTwo).readable
      ((run () 2 fullOfTwo).update 2 2 (fun e => e.agent ≠ 1) none).2.readable := by
  intro hothers
  have hnot : ¬ AddedToFull 2 2 none (run () 2 fullOfTwo).readable := by
    rintro ⟨newP, hnew, _⟩
    cases hnew
  exact absurd (hothers.kept hnot) (by decide)

end Space

end Bootstrap
end Kitsune2
