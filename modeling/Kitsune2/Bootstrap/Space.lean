import Mathlib.Data.List.Nodup
import Mathlib.Tactic.Common

/-!
# Space — the infos a bootstrap space holds and how one update rewrites them

A space holds at most one info for each agent.  An update walks over the stored infos once: an
info of the new one's agent is replaced, deleted or kept by comparing creation times, and whatever
has expired is dropped.  A new info that met no stored one is appended, after the half-way info
has made room if the space is full.

The list holds references into a file, and the walk reads each info back first; one that cannot be
read is dropped as well.  Whether a reading succeeds is up to the operating system, so it is a
parameter of the walk: `parses` gives the answer for each stored info.

A panic of the source is `none`: it leaves the space as it was.
-/

namespace Kitsune2
namespace Bootstrap

/-- An agent info as the server parses it. -/
structure ParsedEntry (Agent SpaceId Sig : Type) where
  agent : Agent
  space : SpaceId
  createdAt : Int
  expiresAt : Int
  isTombstone : Bool
  encoded : String
  signature : Sig
  deriving DecidableEq, Repr

variable {Agent SpaceId Sig : Type}

/-! ## Accepting a put -/

/-- Three minutes. -/
def createdAtClockSkewAllowedMicros : Int := 3 * 60 * 1000000

/-- Thirty minutes. -/
def expiresAtDurationMaxAllowedMicros : Int := 30 * 60 * 1000000

/-- The checks `handle_boot_put` makes before it touches the store. -/
def checkBootPut [DecidableEq Agent] [DecidableEq SpaceId] (verify : Agent → String → Sig → Bool)
    (now : Int) (spaceId : SpaceId) (agent : Agent) (info : ParsedEntry Agent SpaceId Sig) :
    Except String Unit :=
  if agent ≠ info.agent then .error "InvalidAgent"
  else if spaceId ≠ info.space then .error "InvalidSpace"
  else if info.createdAt < now - createdAtClockSkewAllowedMicros then .error "InvalidCreatedAt"
  else if now + createdAtClockSkewAllowedMicros < info.createdAt then .error "InvalidCreatedAt"
  else if info.expiresAt < now then .error "InvalidExpiresAt"
  else if info.expiresAt ≤ info.createdAt then .error "InvalidExpiresAt"
  else if expiresAtDurationMaxAllowedMicros < info.expiresAt - info.createdAt then
    .error "InvalidExpiresAt"
  else if !verify info.agent info.encoded info.signature then .error "InvalidSignature"
  else .ok ()

/-! ## Updating the list -/

/-- The expiration check that ends the treatment of one info. -/
def unlessExpired (now : Int) (parsed : ParsedEntry Agent SpaceId Sig) :
    Option (ParsedEntry Agent SpaceId Sig) :=
  if parsed.expiresAt ≤ now then none else some parsed

/-- What the new info makes of a stored one of its agent. -/
def supersede (now : Int) (newP parsed : ParsedEntry Agent SpaceId Sig) :
    Option (ParsedEntry Agent SpaceId Sig) :=
  if parsed.createdAt < newP.createdAt then
    -- a newer tombstone deletes the stored info and is not stored itself
    if newP.isTombstone then none else unlessExpired now newP
  else unlessExpired now parsed

/-- The walk over the stored infos: the new info, if no stored one took it, and the infos kept. -/
def sweep [DecidableEq Agent] (now : Int) (parses : ParsedEntry Agent SpaceId Sig → Bool)
    (replaceAgent : Option Agent) :
    Option (ParsedEntry Agent SpaceId Sig) → List (ParsedEntry Agent SpaceId Sig) →
      Option (Option (ParsedEntry Agent SpaceId Sig) × List (ParsedEntry Agent SpaceId Sig))
  | newInfo, [] => some (newInfo, [])
  | newInfo, parsed :: rest =>
      -- `store.parse()` fails, and the new info is not taken
      if parses parsed = false then sweep now parses replaceAgent newInfo rest
      else if some parsed.agent = replaceAgent then
        match newInfo with
        -- `new_info.take().unwrap()` on an info that was taken before
        | none => none
        | some newP =>
            (sweep now parses replaceAgent none rest).map fun r =>
              (r.1, (supersede now newP parsed).toList ++ r.2)
      else
        (sweep now parses replaceAgent newInfo rest).map fun r =>
          (r.1, (unlessExpired now parsed).toList ++ r.2)

/-- Append a new info, first deleting the half-way one of a full list. -/
def pushEntry (maxEntries : Nat) (list : List (ParsedEntry Agent SpaceId Sig))
    (parsed : ParsedEntry Agent SpaceId Sig) : Option (List (ParsedEntry Agent SpaceId Sig)) :=
  if maxEntries ≤ list.length then
    -- `Vec::remove` panics when the index is out of bounds
    if maxEntries / 2 < list.length then some (list.eraseIdx (maxEntries / 2) ++ [parsed]) else none
  else some (list ++ [parsed])

/-- `Space::update` on the list of infos, with the clock reading it took and what its readings of
the stored infos gave. -/
def updateEntries [DecidableEq Agent] (maxEntries : Nat) (now : Int)
    (parses : ParsedEntry Agent SpaceId Sig → Bool) (newInfo : Option (ParsedEntry Agent SpaceId Sig))
    (list : List (ParsedEntry Agent SpaceId Sig)) : Option (List (ParsedEntry Agent SpaceId Sig)) :=
  match sweep now parses (newInfo.map fun p => p.agent) newInfo list with
  | none => none
  | some (none, kept) => some kept
  | some (some parsed, kept) =>
      if parsed.isTombstone then some kept else pushEntry maxEntries kept parsed

/-- The info an update deletes to make room for the new one. -/
def evictedBy [DecidableEq Agent] (maxEntries : Nat) (now : Int)
    (parses : ParsedEntry Agent SpaceId Sig → Bool) (newInfo : Option (ParsedEntry Agent SpaceId Sig))
    (list : List (ParsedEntry Agent SpaceId Sig)) : Option (ParsedEntry Agent SpaceId Sig) :=
  match sweep now parses (newInfo.map fun p => p.agent) newInfo list with
  | some (some parsed, kept) =>
      if parsed.isTombstone = false ∧ maxEntries ≤ kept.length then kept[maxEntries / 2]? else none
  | _ => none

/-! ## What the walk does -/

/-- No two infos of the list are of one agent. -/
def OnePerAgent (list : List (ParsedEntry Agent SpaceId Sig)) : Prop :=
  (list.map fun e => e.agent).Nodup

@[simp]
theorem unlessExpired_eq_some_iff {now : Int} {parsed e : ParsedEntry Agent SpaceId Sig} :
    unlessExpired now parsed = some e ↔ now < parsed.expiresAt ∧ parsed = e := by
  by_cases h : parsed.expiresAt ≤ now
  · have hnot : ¬ now < parsed.expiresAt := Int.not_lt.mpr h
    simp [unlessExpired, h, hnot]
  · have hlt : now < parsed.expiresAt := Int.not_le.mp h
    simp [unlessExpired, h, hlt]

/-- The infos of a list that have not expired. -/
def unexpired (now : Int) (list : List (ParsedEntry Agent SpaceId Sig)) :
    List (ParsedEntry Agent SpaceId Sig) :=
  list.filter fun e => now < e.expiresAt

theorem mem_unexpired_iff {now : Int} {list : List (ParsedEntry Agent SpaceId Sig)}
    {e : ParsedEntry Agent SpaceId Sig} :
    e ∈ unexpired now list ↔ e ∈ list ∧ now < e.expiresAt := by
  simp [unexpired]

theorem unexpired_cons (now : Int) (parsed : ParsedEntry Agent SpaceId Sig)
    (rest : List (ParsedEntry Agent SpaceId Sig)) :
    unexpired now (parsed :: rest) = (unlessExpired now parsed).toList ++ unexpired now rest := by
  by_cases h : parsed.expiresAt ≤ now
  · have hnot : ¬ now < parsed.expiresAt := Int.not_lt.mpr h
    simp [unexpired, unlessExpired, h, hnot]
  · have hlt : now < parsed.expiresAt := Int.not_le.mp h
    simp [unexpired, unlessExpired, h, hlt]

theorem supersede_eq_some {now : Int} {newP parsed e : ParsedEntry Agent SpaceId Sig}
    (h : supersede now newP parsed = some e) :
    (e = newP ∧ newP.isTombstone = false) ∨ (e = parsed ∧ now < parsed.expiresAt) := by
  by_cases hlt : parsed.createdAt < newP.createdAt
  · cases htomb : newP.isTombstone with
    | true =>
        simp [supersede, hlt, htomb] at h
    | false =>
        simp [supersede, hlt, htomb] at h
        exact Or.inl ⟨h.2.symm, rfl⟩
  · simp [supersede, hlt] at h
    exact Or.inr ⟨h.2.symm, h.1⟩

/-- Where an agent's only info stands in a list. -/
theorem OnePerAgent.split {list : List (ParsedEntry Agent SpaceId Sig)} (hone : OnePerAgent list)
    {parsed : ParsedEntry Agent SpaceId Sig} (hmem : parsed ∈ list) :
    ∃ front back, list = front ++ parsed :: back ∧ (∀ e ∈ front, e.agent ≠ parsed.agent) ∧
      ∀ e ∈ back, e.agent ≠ parsed.agent := by
  rcases List.append_of_mem hmem with ⟨front, back, rfl⟩
  rw [OnePerAgent, List.map_append, List.map_cons, List.nodup_middle, List.nodup_cons] at hone
  refine ⟨front, back, rfl, ?_, ?_⟩
  · intro e he heq
    exact hone.1 (List.mem_append_left _ (List.mem_map.mpr ⟨e, he, heq⟩))
  · intro e he heq
    exact hone.1 (List.mem_append_right _ (List.mem_map.mpr ⟨e, he, heq⟩))

theorem OnePerAgent.eq_of_agent {list : List (ParsedEntry Agent SpaceId Sig)}
    (hone : OnePerAgent list) {e e' : ParsedEntry Agent SpaceId Sig} (he : e ∈ list)
    (he' : e' ∈ list) (hagent : e.agent = e'.agent) : e = e' :=
  List.inj_on_of_nodup_map hone he he' hagent

/-! ### The walk -/

section Walk

variable [DecidableEq Agent]

/-- Every reading succeeds. -/
def allParse : ParsedEntry Agent SpaceId Sig → Bool :=
  fun _ => true

/-- An info that cannot be read might as well not be in the list. -/
theorem sweep_filter_parses (now : Int) (parses : ParsedEntry Agent SpaceId Sig → Bool)
    (replaceAgent : Option Agent) (newInfo : Option (ParsedEntry Agent SpaceId Sig))
    (list : List (ParsedEntry Agent SpaceId Sig)) :
    sweep now parses replaceAgent newInfo list =
      sweep now allParse replaceAgent newInfo (list.filter parses) := by
  induction list generalizing newInfo with
  | nil =>
      rfl
  | cons parsed rest ih =>
      cases hparses : parses parsed with
      | false =>
          simp [sweep, hparses, ih]
      | true =>
          simp [sweep, allParse, hparses, ih]

theorem updateEntries_filter_parses (maxEntries : Nat) (now : Int)
    (parses : ParsedEntry Agent SpaceId Sig → Bool) (newInfo : Option (ParsedEntry Agent SpaceId Sig))
    (list : List (ParsedEntry Agent SpaceId Sig)) :
    updateEntries maxEntries now parses newInfo list =
      updateEntries maxEntries now allParse newInfo (list.filter parses) := by
  simp only [updateEntries, sweep_filter_parses now parses]

theorem evictedBy_filter_parses (maxEntries : Nat) (now : Int)
    (parses : ParsedEntry Agent SpaceId Sig → Bool) (newInfo : Option (ParsedEntry Agent SpaceId Sig))
    (list : List (ParsedEntry Agent SpaceId Sig)) :
    evictedBy maxEntries now parses newInfo list =
      evictedBy maxEntries now allParse newInfo (list.filter parses) := by
  simp only [evictedBy, sweep_filter_parses now parses]

theorem sweep_of_unmatched {now : Int} {replaceAgent : Option Agent}
    {newInfo : Option (ParsedEntry Agent SpaceId Sig)} {list : List (ParsedEntry Agent SpaceId Sig)}
    (h : ∀ e ∈ list, some e.agent ≠ replaceAgent) :
    sweep now allParse replaceAgent newInfo list = some (newInfo, unexpired now list) := by
  induction list with
  | nil =>
      rfl
  | cons parsed rest ih =>
      have hrest := ih fun e he => h e (List.mem_cons_of_mem _ he)
      have hstep : sweep now allParse replaceAgent newInfo (parsed :: rest) =
          some (newInfo, (unlessExpired now parsed).toList ++ unexpired now rest) := by
        simp [sweep, allParse, h parsed List.mem_cons_self, hrest]
      rw [hstep, unexpired_cons]

theorem sweep_of_matched {now : Int} {newP parsed : ParsedEntry Agent SpaceId Sig}
    {front back : List (ParsedEntry Agent SpaceId Sig)} (hagent : parsed.agent = newP.agent)
    (hfront : ∀ e ∈ front, e.agent ≠ newP.agent) (hback : ∀ e ∈ back, e.agent ≠ newP.agent) :
    sweep now allParse (some newP.agent) (some newP) (front ++ parsed :: back) =
      some (none, unexpired now front ++ (supersede now newP parsed).toList ++ unexpired now back) := by
  induction front with
  | nil =>
      have hrest : sweep now allParse (some newP.agent) none back = some (none, unexpired now back) :=
        sweep_of_unmatched fun e he heq => hback e he (Option.some.inj heq)
      simp [sweep, allParse, hagent, hrest, unexpired]
  | cons e front ih =>
      have hrest := ih fun e' he' => hfront e' (List.mem_cons_of_mem _ he')
      have hne : e.agent ≠ newP.agent := hfront e List.mem_cons_self
      rw [List.cons_append]
      simp only [sweep, allParse, Bool.true_eq_false, if_false, Option.some.injEq, if_neg hne, hrest,
        Option.map_some, unexpired_cons, List.append_assoc]

theorem sweep_prune (now : Int) (list : List (ParsedEntry Agent SpaceId Sig)) :
    sweep now allParse none none list = some (none, unexpired now list) :=
  sweep_of_unmatched fun _ _ => Option.some_ne_none _

/-- A new info meets the one stored info of its agent, or none. -/
theorem OnePerAgent.sweep_cases {list : List (ParsedEntry Agent SpaceId Sig)}
    (hone : OnePerAgent list) (now : Int) (newP : ParsedEntry Agent SpaceId Sig) :
    (∃ front parsed back, list = front ++ parsed :: back ∧ parsed.agent = newP.agent ∧
        (∀ e, e ∈ front ∨ e ∈ back → e.agent ≠ newP.agent) ∧
        sweep now allParse (some newP.agent) (some newP) list = some (none,
          unexpired now front ++ (supersede now newP parsed).toList ++ unexpired now back)) ∨
      ((∀ e ∈ list, e.agent ≠ newP.agent) ∧
        sweep now allParse (some newP.agent) (some newP) list =
          some (some newP, unexpired now list)) := by
  by_cases hmem : ∃ e ∈ list, e.agent = newP.agent
  · rcases hmem with ⟨parsed, hmem, hagent⟩
    rcases hone.split hmem with ⟨front, back, hlist, hfront, hback⟩
    rw [hagent] at hfront hback
    refine Or.inl ⟨front, parsed, back, hlist, hagent, fun e he => he.elim (hfront e) (hback e), ?_⟩
    rw [hlist]
    exact sweep_of_matched hagent hfront hback
  · have hnone : ∀ e ∈ list, e.agent ≠ newP.agent := fun e he heq => hmem ⟨e, he, heq⟩
    exact Or.inr ⟨hnone, sweep_of_unmatched fun e he heq => hnone e he (Option.some.inj heq)⟩

end Walk

/-! ## What an update does -/

/-- The ways an update can go, for the list of the infos it can read. -/
inductive Updated (maxEntries : Nat) (now : Int) (list : List (ParsedEntry Agent SpaceId Sig)) :
    Option (ParsedEntry Agent SpaceId Sig) → List (ParsedEntry Agent SpaceId Sig) → Prop where
  /-- Nothing new: the expired infos go. -/
  | pruned : Updated maxEntries now list none (unexpired now list)
  /-- The new info is compared with the stored one of its agent. -/
  | matched {newP parsed : ParsedEntry Agent SpaceId Sig}
      {front back : List (ParsedEntry Agent SpaceId Sig)} (hlist : list = front ++ parsed :: back)
      (hagent : parsed.agent = newP.agent)
      (hothers : ∀ e, e ∈ front ∨ e ∈ back → e.agent ≠ newP.agent) :
      Updated maxEntries now list (some newP)
        (unexpired now front ++ (supersede now newP parsed).toList ++ unexpired now back)
  /-- A tombstone of an agent the space holds nothing for. -/
  | tombstone {newP : ParsedEntry Agent SpaceId Sig} (hnone : ∀ e ∈ list, e.agent ≠ newP.agent)
      (htomb : newP.isTombstone = true) :
      Updated maxEntries now list (some newP) (unexpired now list)
  /-- An info of an agent the space holds nothing for. -/
  | pushed {newP : ParsedEntry Agent SpaceId Sig} {list' : List (ParsedEntry Agent SpaceId Sig)}
      (hnone : ∀ e ∈ list, e.agent ≠ newP.agent) (htomb : newP.isTombstone = false)
      (hpush : pushEntry maxEntries (unexpired now list) newP = some list') :
      Updated maxEntries now list (some newP) list'

theorem updated_of_allParse [DecidableEq Agent] {maxEntries : Nat} {now : Int}
    {newInfo : Option (ParsedEntry Agent SpaceId Sig)}
    {list list' : List (ParsedEntry Agent SpaceId Sig)} (hone : OnePerAgent list)
    (h : updateEntries maxEntries now allParse newInfo list = some list') :
    Updated maxEntries now list newInfo list' := by
  cases newInfo with
  | none =>
      simp only [updateEntries, Option.map_none, sweep_prune, Option.some.injEq] at h
      exact h ▸ .pruned
  | some newP =>
      rcases hone.sweep_cases now newP with
        ⟨front, parsed, back, hlist, hagent, hothers, hsweep⟩ | ⟨hnone, hsweep⟩
      · simp only [updateEntries, Option.map_some, hsweep, Option.some.injEq] at h
        exact h ▸ .matched hlist hagent hothers
      · simp only [updateEntries, Option.map_some, hsweep] at h
        cases htomb : newP.isTombstone with
        | true =>
            simp only [htomb, if_true, Option.some.injEq] at h
            exact h ▸ .tombstone hnone htomb
        | false =>
            simp only [htomb, Bool.false_eq_true, if_false] at h
            exact .pushed hnone htomb h

theorem OnePerAgent.sublist {list list' : List (ParsedEntry Agent SpaceId Sig)}
    (hone : OnePerAgent list) (hsub : list'.Sublist list) : OnePerAgent list' :=
  (hsub.map _).nodup hone

theorem OnePerAgent.filter {list : List (ParsedEntry Agent SpaceId Sig)} (hone : OnePerAgent list)
    (parses : ParsedEntry Agent SpaceId Sig → Bool) : OnePerAgent (list.filter parses) :=
  hone.sublist List.filter_sublist

theorem updated_of_updateEntries [DecidableEq Agent] {maxEntries : Nat} {now : Int}
    {parses : ParsedEntry Agent SpaceId Sig → Bool} {newInfo : Option (ParsedEntry Agent SpaceId Sig)}
    {list list' : List (ParsedEntry Agent SpaceId Sig)} (hone : OnePerAgent list)
    (h : updateEntries maxEntries now parses newInfo list = some list') :
    Updated maxEntries now (list.filter parses) newInfo list' := by
  rw [updateEntries_filter_parses] at h
  exact updated_of_allParse (hone.filter parses) h

theorem pushEntry_eq_some {maxEntries : Nat} {list list' : List (ParsedEntry Agent SpaceId Sig)}
    {parsed : ParsedEntry Agent SpaceId Sig} (h : pushEntry maxEntries list parsed = some list') :
    (maxEntries ≤ list.length ∧ list' = list.eraseIdx (maxEntries / 2) ++ [parsed]) ∨
      (list.length < maxEntries ∧ list' = list ++ [parsed]) := by
  by_cases hfull : maxEntries ≤ list.length
  · by_cases hidx : maxEntries / 2 < list.length
    · simp [pushEntry, hfull, hidx] at h
      exact Or.inl ⟨hfull, h.symm⟩
    · simp [pushEntry, hfull, hidx] at h
  · simp [pushEntry, hfull] at h
    exact Or.inr ⟨by omega, h.symm⟩

theorem pushEntry_isSome {maxEntries : Nat} {list : List (ParsedEntry Agent SpaceId Sig)}
    {parsed : ParsedEntry Agent SpaceId Sig} (hmax : 0 < maxEntries) :
    (pushEntry maxEntries list parsed).isSome = true := by
  by_cases hfull : maxEntries ≤ list.length
  · have hidx : maxEntries / 2 < list.length := by omega
    simp [pushEntry, hfull, hidx]
  · simp [pushEntry, hfull]

theorem mem_of_pushEntry {maxEntries : Nat} {list list' : List (ParsedEntry Agent SpaceId Sig)}
    {parsed e : ParsedEntry Agent SpaceId Sig} (h : pushEntry maxEntries list parsed = some list')
    (he : e ∈ list') : e ∈ list ∨ e = parsed := by
  rcases pushEntry_eq_some h with ⟨_, rfl⟩ | ⟨_, rfl⟩
  · rcases List.mem_append.mp he with he | he
    · exact Or.inl ((List.eraseIdx_sublist _ _).subset he)
    · exact Or.inr (List.mem_singleton.mp he)
  · rcases List.mem_append.mp he with he | he
    · exact Or.inl he
    · exact Or.inr (List.mem_singleton.mp he)

theorem mem_pushEntry_self {maxEntries : Nat} {list list' : List (ParsedEntry Agent SpaceId Sig)}
    {parsed : ParsedEntry Agent SpaceId Sig} (h : pushEntry maxEntries list parsed = some list') :
    parsed ∈ list' := by
  rcases pushEntry_eq_some h with ⟨_, rfl⟩ | ⟨_, rfl⟩
  · exact List.mem_append_right _ (List.mem_singleton.mpr rfl)
  · exact List.mem_append_right _ (List.mem_singleton.mpr rfl)

theorem OnePerAgent.append_singleton {list : List (ParsedEntry Agent SpaceId Sig)}
    (hone : OnePerAgent list) {parsed : ParsedEntry Agent SpaceId Sig}
    (hnone : ∀ e ∈ list, e.agent ≠ parsed.agent) : OnePerAgent (list ++ [parsed]) := by
  have hnew : parsed.agent ∉ list.map fun e => e.agent := by
    intro hmem
    rcases List.mem_map.mp hmem with ⟨e, he, heq⟩
    exact hnone e he heq
  rw [OnePerAgent, List.map_append, List.nodup_append_comm]
  exact List.nodup_cons.mpr ⟨hnew, hone⟩

theorem OnePerAgent.replace {front back : List (ParsedEntry Agent SpaceId Sig)}
    {parsed : ParsedEntry Agent SpaceId Sig} (hone : OnePerAgent (front ++ parsed :: back))
    {kept : Option (ParsedEntry Agent SpaceId Sig)} (hkept : ∀ e ∈ kept, e.agent = parsed.agent)
    (now : Int) : OnePerAgent (unexpired now front ++ kept.toList ++ unexpired now back) := by
  have hfront : (unexpired now front).Sublist front := List.filter_sublist
  have hback : (unexpired now back).Sublist back := List.filter_sublist
  cases kept with
  | none =>
      rw [Option.toList_none, List.append_nil]
      exact hone.sublist (hfront.append (hback.trans (List.sublist_cons_self _ _)))
  | some e =>
      have hsame : OnePerAgent (front ++ e :: back) := by
        rw [OnePerAgent, List.map_append, List.map_cons, hkept e rfl, ← List.map_cons,
          ← List.map_append]
        exact hone
      rw [Option.toList_some, List.append_assoc, List.singleton_append]
      exact hsame.sublist (hfront.append (hback.cons_cons e))

theorem supersede_agent {now : Int} {newP parsed : ParsedEntry Agent SpaceId Sig}
    (hagent : parsed.agent = newP.agent) :
    ∀ e ∈ supersede now newP parsed, e.agent = parsed.agent := by
  intro e he
  rcases supersede_eq_some he with ⟨rfl, _⟩ | ⟨rfl, _⟩
  · exact hagent.symm
  · rfl

namespace Updated

variable {maxEntries : Nat} {now : Int} {newInfo : Option (ParsedEntry Agent SpaceId Sig)}
  {list list' : List (ParsedEntry Agent SpaceId Sig)} {x : ParsedEntry Agent SpaceId Sig}

/-- A space still holds one info for each agent. -/
theorem onePerAgent (h : Updated maxEntries now list newInfo list') (hone : OnePerAgent list) :
    OnePerAgent list' := by
  have hkept : OnePerAgent (unexpired now list) := hone.sublist List.filter_sublist
  cases h with
  | pruned =>
      exact hkept
  | matched hlist hagent _ =>
      subst hlist
      exact hone.replace (supersede_agent hagent) now
  | tombstone _ _ =>
      exact hkept
  | pushed hnone _ hpush =>
      have hnew : ∀ e ∈ unexpired now list, e.agent ≠ _ :=
        fun e he => hnone e (mem_unexpired_iff.mp he).1
      rcases pushEntry_eq_some hpush with ⟨_, rfl⟩ | ⟨_, rfl⟩
      · refine (hkept.sublist (List.eraseIdx_sublist _ _)).append_singleton ?_
        exact fun e he => hnew e ((List.eraseIdx_sublist _ _).subset he)
      · exact hkept.append_singleton hnew

/-- What is held after an update was held before or is the new info. -/
theorem mem (h : Updated maxEntries now list newInfo list') (hx : x ∈ list') :
    x ∈ list ∨ (newInfo = some x ∧ x.isTombstone = false) := by
  cases h with
  | pruned =>
      exact Or.inl (mem_unexpired_iff.mp hx).1
  | matched hlist hagent _ =>
      subst hlist
      rcases List.mem_append.mp hx with hx | hx
      · rcases List.mem_append.mp hx with hx | hx
        · exact Or.inl (List.mem_append_left _ (mem_unexpired_iff.mp hx).1)
        · rcases supersede_eq_some (Option.mem_toList.mp hx) with ⟨rfl, htomb⟩ | ⟨rfl, _⟩
          · exact Or.inr ⟨rfl, htomb⟩
          · exact Or.inl (List.mem_append_right _ List.mem_cons_self)
      · exact Or.inl (List.mem_append_right _ (List.mem_cons_of_mem _ (mem_unexpired_iff.mp hx).1))
  | tombstone _ _ =>
      exact Or.inl (mem_unexpired_iff.mp hx).1
  | pushed _ htomb hpush =>
      rcases mem_of_pushEntry hpush hx with hx | rfl
      · exact Or.inl (mem_unexpired_iff.mp hx).1
      · exact Or.inr ⟨rfl, htomb⟩

/-- An info that is not outdated, expired or evicted stays. -/
theorem survives [DecidableEq Agent] (h : Updated maxEntries now list newInfo list') (hx : x ∈ list)
    (hnow : now < x.expiresAt)
    (hnewest : ∀ newP, newInfo = some newP → newP.agent = x.agent → newP.createdAt ≤ x.createdAt)
    (hkept : evictedBy maxEntries now allParse newInfo list ≠ some x) : x ∈ list' := by
  have hlive : x ∈ unexpired now list := mem_unexpired_iff.mpr ⟨hx, hnow⟩
  cases h with
  | pruned =>
      exact hlive
  | @matched newP parsed front back hlist hagent _ =>
      subst hlist
      simp only [List.mem_append]
      rcases List.mem_append.mp hx with hx | hx
      · exact Or.inl (Or.inl (mem_unexpired_iff.mpr ⟨hx, hnow⟩))
      · rcases List.mem_cons.mp hx with rfl | hx
        · -- the new info is of this agent and not newer, so the comparison keeps the stored one
          have hle : ¬ x.createdAt < newP.createdAt := Int.not_lt.mpr (hnewest newP rfl hagent.symm)
          have hsame : supersede now newP x = some x := by
            simp [supersede, hle, hnow]
          exact Or.inl (Or.inr (by simp [hsame]))
        · exact Or.inr (mem_unexpired_iff.mpr ⟨hx, hnow⟩)
  | tombstone _ _ =>
      exact hlive
  | @pushed newP _ hnone htomb hpush =>
      have hsweep : sweep now allParse (some newP.agent) (some newP) list =
          some (some newP, unexpired now list) :=
        sweep_of_unmatched fun e he heq => hnone e he (Option.some.inj heq)
      rcases pushEntry_eq_some hpush with ⟨hfull, rfl⟩ | ⟨_, rfl⟩
      · have hidx : (unexpired now list)[maxEntries / 2]? ≠ some x := by
          simpa [evictedBy, hsweep, htomb, hfull] using hkept
        refine List.mem_append_left _ (List.mem_eraseIdx_iff_getElem?.mpr ?_)
        rcases List.mem_iff_getElem?.mp hlive with ⟨i, hi⟩
        refine ⟨i, fun heq => hidx (heq ▸ hi), hi⟩
      · exact List.mem_append_left _ hlive

/-- A new info is held once it has been put, unless the space holds one that is not older. -/
theorem stored (h : Updated maxEntries now list (some x) list') (htomb : x.isTombstone = false)
    (hnow : now < x.expiresAt)
    (hnewest : ∀ e ∈ list, e.agent = x.agent → e.createdAt < x.createdAt ∨ e = x) : x ∈ list' := by
  cases h with
  | @matched _ parsed front back hlist hagent _ =>
      have hmem : parsed ∈ list := hlist ▸ List.mem_append_right _ List.mem_cons_self
      have hkept : supersede now x parsed = some x := by
        rcases hnewest parsed hmem hagent with hlt | rfl
        · simp [supersede, hlt, htomb, hnow]
        · simp [supersede, hnow]
      simp [hkept]
  | tombstone _ htomb' =>
      rw [htomb] at htomb'
      cases htomb'
  | pushed _ _ hpush =>
      exact mem_pushEntry_self hpush

/-- A new info that is not newer than the stored one of its agent is not taken up. -/
theorem refused (h : Updated maxEntries now list (some x) list') {e : ParsedEntry Agent SpaceId Sig}
    (he : e ∈ list) (hagent : e.agent = x.agent) (hne : e ≠ x) (hle : x.createdAt ≤ e.createdAt) :
    x ∉ list' := by
  intro hx
  cases h with
  | @matched _ parsed front back hlist _ hothers =>
      have hparsed : e = parsed := by
        subst hlist
        rcases List.mem_append.mp he with he | he
        · exact absurd hagent (hothers e (Or.inl he))
        · rcases List.mem_cons.mp he with rfl | he
          · rfl
          · exact absurd hagent (hothers e (Or.inr he))
      subst hparsed
      have hkept : supersede now x e = unlessExpired now e := by
        simp [supersede, Int.not_lt.mpr hle]
      rcases List.mem_append.mp hx with hx | hx
      · rcases List.mem_append.mp hx with hx | hx
        · exact hothers x (Or.inl (mem_unexpired_iff.mp hx).1) rfl
        · rw [hkept, Option.mem_toList, unlessExpired_eq_some_iff] at hx
          exact hne hx.2
      · exact hothers x (Or.inr (mem_unexpired_iff.mp hx).1) rfl
  | tombstone hnone _ =>
      exact hnone e he hagent
  | pushed hnone _ _ =>
      exact hnone e he hagent

/-- A tombstone leaves nothing of its agent unless the space holds an info that is not older. -/
theorem cleared (h : Updated maxEntries now list (some x) list') (htomb : x.isTombstone = true)
    (holder : ∀ e ∈ list, e.agent = x.agent → e.createdAt < x.createdAt) :
    ∀ e ∈ list', e.agent ≠ x.agent := by
  intro e he
  cases h with
  | @matched _ parsed front back hlist hagent hothers =>
      have hmem : parsed ∈ list := hlist ▸ List.mem_append_right _ List.mem_cons_self
      have hgone : supersede now x parsed = none := by
        simp [supersede, holder parsed hmem hagent, htomb]
      rw [hgone, Option.toList_none, List.append_nil] at he
      rcases List.mem_append.mp he with he | he
      · exact hothers e (Or.inl (mem_unexpired_iff.mp he).1)
      · exact hothers e (Or.inr (mem_unexpired_iff.mp he).1)
  | tombstone hnone _ =>
      exact hnone e (mem_unexpired_iff.mp he).1
  | pushed _ htomb' _ =>
      rw [htomb] at htomb'
      cases htomb'

end Updated

/-- An update of a list with one info for each agent does not panic. -/
theorem updateEntries_isSome [DecidableEq Agent] {maxEntries : Nat} {now : Int}
    {parses : ParsedEntry Agent SpaceId Sig → Bool} {newInfo : Option (ParsedEntry Agent SpaceId Sig)}
    {list : List (ParsedEntry Agent SpaceId Sig)} (hone : OnePerAgent list) (hmax : 0 < maxEntries) :
    (updateEntries maxEntries now parses newInfo list).isSome = true := by
  rw [updateEntries_filter_parses]
  cases newInfo with
  | none =>
      simp [updateEntries, sweep_prune]
  | some newP =>
      rcases (hone.filter parses).sweep_cases now newP with ⟨_, _, _, _, _, _, hsweep⟩ | ⟨_, hsweep⟩
      · simp [updateEntries, hsweep]
      · cases htomb : newP.isTombstone with
        | true =>
            simp [updateEntries, hsweep, htomb]
        | false =>
            simp [updateEntries, hsweep, htomb, pushEntry_isSome hmax]

/-! ## The space -/

/-- A `Space` object.  `spaceId` is the key it was created under; `poisoned` says that an update
panicked with the write lock held. -/
structure Space (Agent SpaceId Sig : Type) where
  spaceId : SpaceId
  readable : List (ParsedEntry Agent SpaceId Sig)
  poisoned : Bool
  onePerAgent : OnePerAgent readable

namespace Space

def new (spaceId : SpaceId) : Space Agent SpaceId Sig :=
  { spaceId, readable := [], poisoned := false, onePerAgent := List.nodup_nil }

/-- `Space::read`: the list it has cloned, unless one of the infos cannot be read. -/
def read (reads : ParsedEntry Agent SpaceId Sig → Bool)
    (list : List (ParsedEntry Agent SpaceId Sig)) : Option (List (ParsedEntry Agent SpaceId Sig)) :=
  if list.all reads then some list else none

variable [DecidableEq Agent]

/-- `Space::update`: whether it returns, and the space afterwards. -/
def update (maxEntries : Nat) (now : Int) (parses : ParsedEntry Agent SpaceId Sig → Bool)
    (newInfo : Option (ParsedEntry Agent SpaceId Sig)) (space : Space Agent SpaceId Sig) :
    Bool × Space Agent SpaceId Sig :=
  if space.poisoned then (false, space)
  else
    match h : updateEntries maxEntries now parses newInfo space.readable with
    | none => (false, { space with poisoned := true })
    | some list =>
        (true, { space with
          readable := list
          onePerAgent := (updated_of_updateEntries space.onePerAgent h).onePerAgent
            (space.onePerAgent.filter parses) })

@[simp]
theorem update_spaceId (maxEntries : Nat) (now : Int)
    (parses : ParsedEntry Agent SpaceId Sig → Bool) (newInfo : Option (ParsedEntry Agent SpaceId Sig))
    (space : Space Agent SpaceId Sig) :
    (space.update maxEntries now parses newInfo).2.spaceId = space.spaceId := by
  unfold update
  split
  · rfl
  · split <;> rfl

/-- An update that returns has rewritten the list; one that panics has left it alone. -/
theorem update_cases (maxEntries : Nat) (now : Int)
    (parses : ParsedEntry Agent SpaceId Sig → Bool) (newInfo : Option (ParsedEntry Agent SpaceId Sig))
    (space : Space Agent SpaceId Sig) :
    ((space.update maxEntries now parses newInfo).1 = true ∧
        Updated maxEntries now (space.readable.filter parses) newInfo
          (space.update maxEntries now parses newInfo).2.readable) ∨
      ((space.update maxEntries now parses newInfo).1 = false ∧
        (space.update maxEntries now parses newInfo).2.readable = space.readable) := by
  unfold update
  split
  · exact Or.inr ⟨rfl, rfl⟩
  · split
    · exact Or.inr ⟨rfl, rfl⟩
    · next list h =>
        exact Or.inl ⟨rfl, updated_of_updateEntries space.onePerAgent h⟩

end Space

end Bootstrap
end Kitsune2
