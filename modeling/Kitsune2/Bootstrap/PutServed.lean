import Kitsune2.Bootstrap.SpaceMap

/-!
# Put served — when a put that has returned is served

A put that found its space can see the object unlinked before it writes: the prune worker does not
know that somebody holds the empty object, so the info lands where no read looks.  Writing into the
linked object is safe: from then on the object is not empty, so it stays linked for as long as the
info stays in it.  What can still delete the info is a push to a full list, and a later walk that
cannot read it back.
-/

namespace Kitsune2
namespace Bootstrap
namespace Server

variable {Agent SpaceId Sig : Type} [DecidableEq SpaceId]
  {verify : Agent → String → Sig → Bool} {maxEntries : Nat}

/-! ## What every reachable state satisfies -/

/-- Objects, links and calls belong together, and every stored info was put into its space. -/
structure Inv (s : Server Agent SpaceId Sig) : Prop where
  linked : s.spaceMap.Linked
  held : ∀ {call}, call ∈ s.calls → s.spaceMap.Owns call.space call.ref
  addressed : ∀ {call info}, call ∈ s.calls → call.newInfo = some info → info.space = call.space
  stored : ∀ {ref : Nat} {space}, s.spaceMap.spaces[ref]? = some space → ∀ e ∈ space.readable,
    e ∈ s.written ∧ e.space = space.spaceId
  infos : ∀ {ref : Nat} {space}, s.spaceMap.spaces[ref]? = some space → ∀ e ∈ space.readable,
    e.isTombstone = false

theorem inv_new : Inv (new : Server Agent SpaceId Sig) := by
  refine ⟨?_, ?_, ?_, ?_, ?_⟩
  · intro spaceId ref h
    simp [new, SpaceMap.new] at h
  · intro call h
    simp [new] at h
  · intro call info h
    simp [new] at h
  · intro ref space h
    simp [new, SpaceMap.new] at h
  · intro ref space h
    simp [new, SpaceMap.new] at h

theorem mem_calls_startUpdate {s : Server Agent SpaceId Sig} {spaceId : SpaceId}
    {newInfo : Option (ParsedEntry Agent SpaceId Sig)} {call : UpdateCall Agent SpaceId Sig}
    (h : call ∈ (s.startUpdate spaceId newInfo).calls) :
    call ∈ s.calls ∨ (call.space = spaceId ∧ call.newInfo = newInfo ∧
      (s.spaceMap.find spaceId newInfo).2 = some call.ref) := by
  rcases List.mem_append.mp h with hnew | hold
  · rw [Option.mem_toList, Option.map_eq_some_iff] at hnew
    rcases hnew with ⟨ref, href, rfl⟩
    exact Or.inr ⟨rfl, rfl, href⟩
  · exact Or.inl hold

variable [DecidableEq Agent] [DecidableEq Sig]

omit [DecidableEq Agent] [DecidableEq Sig] in
theorem Inv.startUpdate {s : Server Agent SpaceId Sig} (hinv : Inv s) {spaceId : SpaceId}
    {newInfo : Option (ParsedEntry Agent SpaceId Sig)}
    (hspace : ∀ info, newInfo = some info → info.space = spaceId) :
    Inv (s.startUpdate spaceId newInfo) := by
  have hfound := hinv.linked.find spaceId newInfo
  refine ⟨hfound.1, ?_, ?_, ?_, ?_⟩
  · intro call hcall
    rcases mem_calls_startUpdate hcall with hold | ⟨hid, _, href⟩
    · exact (hinv.held hold).find spaceId newInfo
    · rw [hid]
      exact hfound.2 call.ref href
  · intro call info hcall hinfo
    rcases mem_calls_startUpdate hcall with hold | ⟨hid, hnew, _⟩
    · exact hinv.addressed hold hinfo
    · rw [hid]
      exact hspace info (hnew ▸ hinfo)
  · intro ref space hget e he
    rcases SpaceMap.find_spaces hget with hold | hempty
    · exact hinv.stored hold e he
    · rw [hempty] at he
      cases he
  · intro ref space hget e he
    rcases SpaceMap.find_spaces hget with hold | hempty
    · exact hinv.infos hold e he
    · rw [hempty] at he
      cases he

theorem written_finishUpdate_of_returned {s : Server Agent SpaceId Sig}
    {call : UpdateCall Agent SpaceId Sig} {now : Int} {parses : ParsedEntry Agent SpaceId Sig → Bool}
    (h : (s.spaceMap.write maxEntries now parses call.ref call.newInfo).1 = true) :
    (s.finishUpdate maxEntries call now parses).written = call.newInfo.toList ++ s.written := by
  simp [finishUpdate, h]

theorem mem_written_finishUpdate {s : Server Agent SpaceId Sig}
    {call : UpdateCall Agent SpaceId Sig} {now : Int} {parses : ParsedEntry Agent SpaceId Sig → Bool}
    {e : ParsedEntry Agent SpaceId Sig}
    (h : e ∈ s.written) : e ∈ (s.finishUpdate maxEntries call now parses).written := by
  unfold finishUpdate
  dsimp only
  split
  · exact List.mem_append_right _ h
  · exact h

/-- What an object holds after a write it held before, or the call's info, if its update returned. -/
theorem mem_spaces_finishUpdate {s : Server Agent SpaceId Sig}
    {call : UpdateCall Agent SpaceId Sig} {now : Int} {parses : ParsedEntry Agent SpaceId Sig → Bool}
    {ref : Nat} {space : Space Agent SpaceId Sig}
    (hget : (s.finishUpdate maxEntries call now parses).spaceMap.spaces[ref]? = some space)
    {e : ParsedEntry Agent SpaceId Sig} (he : e ∈ space.readable) :
    ∃ before, s.spaceMap.spaces[ref]? = some before ∧ space.spaceId = before.spaceId ∧
      (e ∈ before.readable ∨ (call.ref = ref ∧ call.newInfo = some e ∧ e.isTombstone = false ∧
        (s.spaceMap.write maxEntries now parses call.ref call.newInfo).1 = true)) := by
  -- only the space the call has found is written
  by_cases hne : call.ref = ref
  · subst hne
    cases hbefore : s.spaceMap.spaces[call.ref]? with
    | none =>
        simp [Server.finishUpdate, SpaceMap.write, hbefore] at hget
    | some before =>
        rw [Server.finishUpdate, SpaceMap.write_spaces_self maxEntries now parses call.newInfo hbefore,
          Option.some.injEq] at hget
        subst hget
        refine ⟨before, rfl, before.update_spaceId _ _ _ _, ?_⟩
        rw [SpaceMap.write_fst maxEntries now parses call.newInfo hbefore]
        rcases before.update_cases maxEntries now parses call.newInfo with ⟨hok, hupdated⟩ | ⟨_, hsame⟩
        · rcases hupdated.mem he with hold | ⟨hnew, hinfo⟩
          · exact Or.inl (List.mem_of_mem_filter hold)
          · exact Or.inr ⟨rfl, hnew, hinfo, hok⟩
        · rw [hsame] at he
          exact Or.inl he
  · rw [Server.finishUpdate,
      SpaceMap.write_spaces_of_ne maxEntries now parses hne call.newInfo s.spaceMap] at hget
    exact ⟨space, hget, rfl, Or.inl he⟩

theorem Inv.finishUpdate {s : Server Agent SpaceId Sig} (hinv : Inv s)
    {call : UpdateCall Agent SpaceId Sig} (hcall : call ∈ s.calls) (now : Int)
    (parses : ParsedEntry Agent SpaceId Sig → Bool) :
    Inv (s.finishUpdate maxEntries call now parses) := by
  refine ⟨hinv.linked.write _ _ _ _ _, ?_, ?_, ?_, ?_⟩
  · intro call' hcall'
    exact (hinv.held (List.mem_of_mem_erase hcall')).write _ _ _ _ _
  · intro call' info hcall' hinfo
    exact hinv.addressed (List.mem_of_mem_erase hcall') hinfo
  · intro ref space hget e he
    rcases mem_spaces_finishUpdate hget he with
      ⟨before, hbefore, hid, hold | ⟨rfl, hnew, _, hreturned⟩⟩
    · have hstored := hinv.stored hbefore e hold
      exact ⟨mem_written_finishUpdate hstored.1, hstored.2.trans hid.symm⟩
    · refine ⟨?_, ?_⟩
      · rw [written_finishUpdate_of_returned hreturned, hnew]
        exact List.mem_cons_self
      · rcases hinv.held hcall with ⟨before', hbefore', hid'⟩
        rw [hbefore, Option.some.injEq] at hbefore'
        rw [hinv.addressed hcall hnew, hid, hbefore', hid']
  · intro ref space hget e he
    rcases mem_spaces_finishUpdate hget he with ⟨before, hbefore, _, hold | ⟨_, _, hinfo, _⟩⟩
    · exact hinv.infos hbefore e hold
    · exact hinfo

theorem Inv.step {s s' : Server Agent SpaceId Sig} {event : ServerEvent Agent SpaceId Sig}
    (hinv : Inv s) (hstep : Step verify maxEntries s event s') : Inv s' := by
  cases hstep with
  | tick _ =>
      exact ⟨hinv.linked, hinv.held, hinv.addressed, hinv.stored, hinv.infos⟩
  | putFinds _ _ =>
      refine hinv.startUpdate ?_
      intro info hinfo
      rw [Option.some.inj hinfo]
  | pruneFinds =>
      exact hinv.startUpdate fun _ hinfo => absurd hinfo (by simp)
  | writes hcall _ =>
      exact hinv.finishUpdate hcall _ _

theorem Reachable.inv {s : Server Agent SpaceId Sig} (h : Reachable verify maxEntries s) : Inv s := by
  induction h with
  | refl =>
      exact inv_new
  | step _ _ hstep ih =>
      exact ih.step hstep

/-- A written object: what it holds afterwards, or that nothing has changed. -/
theorem Inv.readable_cases {s : Server Agent SpaceId Sig} (hinv : Inv s)
    {call : UpdateCall Agent SpaceId Sig} (hcall : call ∈ s.calls) (now : Int)
    (parses : ParsedEntry Agent SpaceId Sig → Bool) :
    ((s.spaceMap.write maxEntries now parses call.ref call.newInfo).1 = true ∧
        Updated maxEntries now ((s.spaceMap.readable call.ref).filter parses) call.newInfo
          ((s.finishUpdate maxEntries call now parses).spaceMap.readable call.ref)) ∨
      ((s.spaceMap.write maxEntries now parses call.ref call.newInfo).1 = false ∧
        (s.finishUpdate maxEntries call now parses).spaceMap.readable call.ref =
          s.spaceMap.readable call.ref) := by
  rcases hinv.held hcall with ⟨space, hspace, _⟩
  have hafter := SpaceMap.write_spaces_self maxEntries now parses call.newInfo hspace
  rw [SpaceMap.write_fst maxEntries now parses call.newInfo hspace, Server.finishUpdate,
    SpaceMap.readable_of_getElem? hafter, SpaceMap.readable_of_getElem? hspace]
  exact space.update_cases maxEntries now parses call.newInfo

omit [DecidableEq Agent] [DecidableEq Sig] in
/-- What the object linked for an id holds was put into that space. -/
theorem Inv.space_of_linked {s : Server Agent SpaceId Sig} (hinv : Inv s) {spaceId : SpaceId}
    {ref : Nat} (hlink : s.spaceMap.map.lookup spaceId = some ref) {e : ParsedEntry Agent SpaceId Sig}
    (he : e ∈ s.spaceMap.readable ref) : e ∈ s.written ∧ e.space = spaceId := by
  rcases hinv.linked spaceId ref hlink with ⟨space, hget, hid⟩
  rw [SpaceMap.readable_of_getElem? hget] at he
  have hstored := hinv.stored hget e he
  exact ⟨hstored.1, hstored.2.trans hid⟩

omit [DecidableEq Agent] [DecidableEq Sig] in
/-- What a read lists was put into the space and is served. -/
theorem Inv.of_mem_listed {s : Server Agent SpaceId Sig} (hinv : Inv s) {spaceId : SpaceId}
    {e : ParsedEntry Agent SpaceId Sig} (he : e ∈ listed s s spaceId) :
    e ∈ s.written ∧ e.space = spaceId ∧ e.isTombstone = false := by
  cases hlink : s.spaceMap.map.lookup spaceId with
  | none =>
      simp [listed, SpaceMap.listed, hlink] at he
  | some ref =>
      simp only [listed, SpaceMap.listed, hlink] at he
      rcases hinv.linked spaceId ref hlink with ⟨space, hget, _⟩
      have hstored := hinv.space_of_linked hlink he
      rw [SpaceMap.readable_of_getElem? hget] at he
      exact ⟨hstored.1, hstored.2, hinv.infos hget e he⟩

omit [DecidableEq Agent] [DecidableEq Sig] in
/-- A call that holds the object linked for an id is a call on that space. -/
theorem Inv.call_space_of_linked {s : Server Agent SpaceId Sig} (hinv : Inv s) {spaceId : SpaceId}
    {call : UpdateCall Agent SpaceId Sig} (hcall : call ∈ s.calls)
    (hlink : s.spaceMap.map.lookup spaceId = some call.ref) : call.space = spaceId := by
  rcases hinv.linked spaceId call.ref hlink with ⟨space, hget, hid⟩
  rcases hinv.held hcall with ⟨space', hget', hid'⟩
  rw [hget, Option.some.injEq] at hget'
  rw [← hid', ← hget', hid]

/-! ## An info stays where it is served -/

/-- No info or tombstone of the agent that has been put is newer. -/
def NoNewer (x : ParsedEntry Agent SpaceId Sig) (s : Server Agent SpaceId Sig) : Prop :=
  ∀ y ∈ s.written, y.space = x.space → y.agent = x.agent → y.createdAt ≤ x.createdAt

/-- The event makes room for another info by deleting this one from the linked object. -/
def Evicts (maxEntries : Nat) (x : ParsedEntry Agent SpaceId Sig) (s : Server Agent SpaceId Sig) :
    ServerEvent Agent SpaceId Sig → Prop
  | .writes call now parses =>
      s.spaceMap.map.lookup x.space = some call.ref ∧
        evictedBy maxEntries now parses call.newInfo (s.spaceMap.readable call.ref) = some x
  | _ => False

/-- The event walks over the linked object and cannot read the info back. -/
def FailsToRead (x : ParsedEntry Agent SpaceId Sig) (s : Server Agent SpaceId Sig) :
    ServerEvent Agent SpaceId Sig → Prop
  | .writes call _ parses => s.spaceMap.map.lookup x.space = some call.ref ∧ parses x = false
  | _ => False

/-- The event neither evicts the info nor fails to read it. -/
structure Spares (maxEntries : Nat) (x : ParsedEntry Agent SpaceId Sig) (s : Server Agent SpaceId Sig)
    (event : ServerEvent Agent SpaceId Sig) : Prop where
  kept : ¬ Evicts maxEntries x s event
  read : ¬ FailsToRead x s event

/-- The object linked for the info's space is at `ref` and holds it. -/
def ServedAt (x : ParsedEntry Agent SpaceId Sig) (ref : Nat) (s : Server Agent SpaceId Sig) : Prop :=
  s.spaceMap.map.lookup x.space = some ref ∧ x ∈ s.spaceMap.readable ref

omit [DecidableEq Agent] [DecidableEq Sig] in
theorem mem_listed_self_iff {x : ParsedEntry Agent SpaceId Sig} {s : Server Agent SpaceId Sig} :
    x ∈ listed s s x.space ↔ ∃ ref, ServedAt x ref s := by
  cases href : s.spaceMap.map.lookup x.space with
  | none =>
      simp [listed, SpaceMap.listed, ServedAt, href]
  | some ref =>
      simp [listed, SpaceMap.listed, ServedAt, href]

theorem Step.clock_le {s s' : Server Agent SpaceId Sig} {event : ServerEvent Agent SpaceId Sig}
    (hstep : Step verify maxEntries s event s') : s.clock ≤ s'.clock := by
  cases hstep with
  | tick hclock =>
      exact hclock
  | putFinds _ _ =>
      exact Int.le_refl _
  | pruneFinds =>
      exact Int.le_refl _
  | writes _ _ =>
      exact Int.le_refl _

theorem Step.written_mono {s s' : Server Agent SpaceId Sig} {event : ServerEvent Agent SpaceId Sig}
    (hstep : Step verify maxEntries s event s') {e : ParsedEntry Agent SpaceId Sig}
    (h : e ∈ s.written) : e ∈ s'.written := by
  cases hstep with
  | tick _ =>
      exact h
  | putFinds _ _ =>
      exact h
  | pruneFinds =>
      exact h
  | writes _ _ =>
      exact mem_written_finishUpdate h

theorem Step.noNewer {s s' : Server Agent SpaceId Sig} {event : ServerEvent Agent SpaceId Sig}
    (hstep : Step verify maxEntries s event s') {x : ParsedEntry Agent SpaceId Sig}
    (h : NoNewer x s') : NoNewer x s :=
  fun y hy => h y (hstep.written_mono hy)

omit [DecidableEq Agent] [DecidableEq Sig] in
/-- Nobody unlinks an object that holds something. -/
theorem ServedAt.startUpdate {x : ParsedEntry Agent SpaceId Sig} {ref : Nat}
    {s : Server Agent SpaceId Sig} (h : ServedAt x ref s) (spaceId : SpaceId)
    (newInfo : Option (ParsedEntry Agent SpaceId Sig)) :
    ServedAt x ref (s.startUpdate spaceId newInfo) := by
  rcases h with ⟨hlink, hmem⟩
  rcases s.spaceMap.find_cases spaceId newInfo with
    ⟨_, hfind⟩ | ⟨hnone, hfind⟩ | ⟨empty, hempty, hnil, hfind⟩ | ⟨_, _, hfind⟩
  · simpa [ServedAt, Server.startUpdate, hfind] using ⟨hlink, hmem⟩
  · -- the new object is linked for another id, and the old ones keep their positions
    have hne : x.space ≠ spaceId := by
      rintro rfl
      rw [hnone] at hlink
      cases hlink
    have hlt : ref < s.spaceMap.spaces.length := by
      by_contra hge
      rw [SpaceMap.readable, List.getElem?_eq_none (Nat.not_lt.mp hge)] at hmem
      cases hmem
    refine ⟨?_, ?_⟩
    · simpa [Server.startUpdate, hfind, AList.lookup_insert_ne hne] using hlink
    · simpa [Server.startUpdate, hfind, SpaceMap.readable, List.getElem?_append_left hlt] using hmem
  · have hne : x.space ≠ spaceId := by
      rintro rfl
      rw [hempty, Option.some.injEq] at hlink
      rw [← hlink, hnil] at hmem
      cases hmem
    refine ⟨?_, ?_⟩
    · simpa [Server.startUpdate, hfind, AList.lookup_erase_ne hne] using hlink
    · simpa [Server.startUpdate, hfind, SpaceMap.readable] using hmem
  · simpa [ServedAt, Server.startUpdate, hfind] using ⟨hlink, hmem⟩

theorem ServedAt.finishUpdate {x : ParsedEntry Agent SpaceId Sig} {ref : Nat}
    {s : Server Agent SpaceId Sig} (h : ServedAt x ref s) (hinv : Inv s)
    {call : UpdateCall Agent SpaceId Sig} (hcall : call ∈ s.calls) {now : Int}
    {parses : ParsedEntry Agent SpaceId Sig → Bool}
    (hspares : Spares maxEntries x s (.writes call now parses)) (hlive : now < x.expiresAt)
    (hnewest : NoNewer x (s.finishUpdate maxEntries call now parses)) :
    ServedAt x ref (s.finishUpdate maxEntries call now parses) := by
  rcases h with ⟨hlink, hmem⟩
  refine ⟨by simpa [Server.finishUpdate] using hlink, ?_⟩
  rcases hinv.linked x.space ref hlink with ⟨space, hspace, _⟩
  rw [SpaceMap.readable_of_getElem? hspace] at hmem
  by_cases hne : call.ref = ref
  · subst hne
    have hafter := SpaceMap.write_spaces_self maxEntries now parses call.newInfo hspace
    rw [Server.finishUpdate, SpaceMap.readable_of_getElem? hafter]
    rcases space.update_cases maxEntries now parses call.newInfo with ⟨hok, hupdated⟩ | ⟨_, hsame⟩
    · have hparses : parses x = true := by
        cases hread : parses x with
        | true => rfl
        | false => exact absurd ⟨hlink, hread⟩ hspares.read
      refine hupdated.survives (List.mem_filter.mpr ⟨hmem, hparses⟩) hlive ?_ ?_
      · intro newP hnew hagent
        -- the write returns, so its info counts as put into this space
        have hreturned : (s.spaceMap.write maxEntries now parses call.ref call.newInfo).1 = true :=
          (SpaceMap.write_fst maxEntries now parses call.newInfo hspace).trans hok
        have hwritten : newP ∈ (s.finishUpdate maxEntries call now parses).written := by
          rw [written_finishUpdate_of_returned hreturned, hnew]
          exact List.mem_cons_self
        have howner : call.space = x.space := hinv.call_space_of_linked hcall hlink
        exact hnewest newP hwritten ((hinv.addressed hcall hnew).trans howner) hagent
      · intro hevicted
        refine hspares.kept ⟨hlink, ?_⟩
        rwa [SpaceMap.readable_of_getElem? hspace, evictedBy_filter_parses]
    · rwa [hsame]
  · have hafter :=
      (SpaceMap.write_spaces_of_ne maxEntries now parses hne call.newInfo s.spaceMap).trans hspace
    rwa [Server.finishUpdate, SpaceMap.readable_of_getElem? hafter]

theorem ServedAt.step {x : ParsedEntry Agent SpaceId Sig} {ref : Nat}
    {s s' : Server Agent SpaceId Sig} {event : ServerEvent Agent SpaceId Sig}
    (h : ServedAt x ref s) (hinv : Inv s) (hstep : Step verify maxEntries s event s')
    (hspares : Spares maxEntries x s event) (hlive : s'.clock < x.expiresAt)
    (hnewest : NoNewer x s') : ServedAt x ref s' := by
  cases hstep with
  | tick _ =>
      exact h
  | putFinds _ _ =>
      exact h.startUpdate _ _
  | pruneFinds =>
      exact h.startUpdate _ _
  | writes hcall hnow =>
      exact h.finishUpdate hinv hcall hspares (Int.lt_of_le_of_lt hnow hlive) hnewest

theorem RunWhere.inv {ok : Server Agent SpaceId Sig → ServerEvent Agent SpaceId Sig → Prop}
    {s s' : Server Agent SpaceId Sig} (hrun : RunWhere verify maxEntries ok s s') (hinv : Inv s) :
    Inv s' := by
  induction hrun with
  | refl =>
      exact hinv
  | step _ _ hstep ih =>
      exact ih.step hstep

theorem ServedAt.run {x : ParsedEntry Agent SpaceId Sig} {ref : Nat}
    {s s' : Server Agent SpaceId Sig}
    (hrun : RunWhere verify maxEntries (Spares maxEntries x) s s')
    (h : ServedAt x ref s) (hinv : Inv s) (hlive : s'.clock < x.expiresAt)
    (hnewest : NoNewer x s') : ServedAt x ref s' := by
  induction hrun with
  | refl =>
      exact h
  | step hrun hspares hstep ih =>
      have hlive' := Int.lt_of_le_of_lt hstep.clock_le hlive
      exact (ih hlive' (hstep.noNewer hnewest)).step (hrun.inv hinv) hstep hspares hlive hnewest

theorem RunWhere.clock_le {ok : Server Agent SpaceId Sig → ServerEvent Agent SpaceId Sig → Prop}
    {s s' : Server Agent SpaceId Sig} (hrun : RunWhere verify maxEntries ok s s') :
    s.clock ≤ s'.clock := by
  induction hrun with
  | refl =>
      exact Int.le_refl _
  | step _ _ hstep ih =>
      exact Int.le_trans ih hstep.clock_le

theorem RunWhere.noNewer {ok : Server Agent SpaceId Sig → ServerEvent Agent SpaceId Sig → Prop}
    {s s' : Server Agent SpaceId Sig} (hrun : RunWhere verify maxEntries ok s s')
    {x : ParsedEntry Agent SpaceId Sig} (h : NoNewer x s') : NoNewer x s := by
  induction hrun with
  | refl =>
      exact h
  | step _ _ hstep ih =>
      exact ih (hstep.noNewer h)

/-! ## The put itself -/

/-- Whatever happens next, every read that succeeds returns the info for as long as it has not
expired, no newer word of its agent has been put, no later put has evicted it and every update of the
space could read it. -/
def PutServed (verify : Agent → String → Sig → Bool) (maxEntries : Nat)
    (x : ParsedEntry Agent SpaceId Sig) (s : Server Agent SpaceId Sig) : Prop :=
  ∀ found cloned,
    RunWhere verify maxEntries (Spares maxEntries x) s found →
    RunWhere verify maxEntries (Spares maxEntries x) found cloned →
    NoNewer x cloned → cloned.clock < x.expiresAt →
    ∀ reads list, read reads found cloned x.space = some list → x ∈ list

/-- The object the call found is still the linked one, and no other info of the agent that the call
can read there has the same creation time. -/
def WritesLinked (call : UpdateCall Agent SpaceId Sig)
    (parses : ParsedEntry Agent SpaceId Sig → Bool) (x : ParsedEntry Agent SpaceId Sig)
    (s : Server Agent SpaceId Sig) : Prop :=
  s.spaceMap.map.lookup call.space = some call.ref ∧
    ∀ e ∈ s.spaceMap.readable call.ref, parses e = true → e.agent = x.agent →
      e.createdAt = x.createdAt → e = x

omit [DecidableEq Agent] [DecidableEq Sig] in
theorem eq_listed_of_read {reads : ParsedEntry Agent SpaceId Sig → Bool}
    {found cloned : Server Agent SpaceId Sig}
    {spaceId : SpaceId} {list : List (ParsedEntry Agent SpaceId Sig)}
    (h : read reads found cloned spaceId = some list) : list = listed found cloned spaceId := by
  unfold read SpaceMap.read Space.read at h
  split at h
  · exact (Option.some.inj h).symm
  · cases h

omit [DecidableEq Agent] [DecidableEq Sig] in
/-- A read whose every reading succeeds returns the list. -/
theorem read_allParse (found cloned : Server Agent SpaceId Sig) (spaceId : SpaceId) :
    read allParse found cloned spaceId = some (listed found cloned spaceId) := by
  simp [read, SpaceMap.read, Space.read, allParse, listed]

theorem putServed_of_servedAt {x : ParsedEntry Agent SpaceId Sig} {ref : Nat}
    {s : Server Agent SpaceId Sig} (hinv : Inv s) (h : ServedAt x ref s) :
    PutServed verify maxEntries x s := by
  intro found cloned hfound hcloned hnewest hlive
  have hlive' := Int.lt_of_le_of_lt hcloned.clock_le hlive
  have hmid : ServedAt x ref found := h.run hfound hinv hlive' (hcloned.noNewer hnewest)
  have hend : ServedAt x ref cloned := hmid.run hcloned (hfound.inv hinv) hlive hnewest
  intro reads list hread
  rw [eq_listed_of_read hread]
  simp only [listed, SpaceMap.listed, hmid.1]
  exact hend.2

section Put

variable {s : Server Agent SpaceId Sig} {call : UpdateCall Agent SpaceId Sig} {now : Int}
  {parses : ParsedEntry Agent SpaceId Sig → Bool} {x : ParsedEntry Agent SpaceId Sig}

/-- A call that returns has updated the object it found. -/
theorem Inv.updated_of_returned (hinv : Inv s) (hcall : call ∈ s.calls)
    (hreturned : (s.spaceMap.write maxEntries now parses call.ref call.newInfo).1 = true) :
    Updated maxEntries now ((s.spaceMap.readable call.ref).filter parses) call.newInfo
      ((s.finishUpdate maxEntries call now parses).spaceMap.readable call.ref) := by
  rcases hinv.readable_cases hcall now parses with ⟨_, hupdated⟩ | ⟨hfailed, _⟩
  · exact hupdated
  · rw [hreturned] at hfailed
    cases hfailed

/-- What the object holds for the agent is no newer than the info. -/
theorem Inv.held_not_newer (hinv : Inv s) (hcall : call ∈ s.calls) (hinfo : call.newInfo = some x)
    (hnewest : NoNewer x (s.finishUpdate maxEntries call now parses)) :
    ∀ e ∈ s.spaceMap.readable call.ref, e.agent = x.agent → e.createdAt ≤ x.createdAt := by
  intro e he hagent
  rcases hinv.held hcall with ⟨space, hspace, hid⟩
  rw [SpaceMap.readable_of_getElem? hspace] at he
  have hstored := hinv.stored hspace e he
  have hsame : e.space = x.space := by
    rw [hstored.2, hid, hinv.addressed hcall hinfo]
  exact hnewest e (mem_written_finishUpdate hstored.1) hsame hagent

/-- Writing into the linked object makes the info served. -/
theorem servedAt_of_writesLinked (hinv : Inv s) (hcall : call ∈ s.calls)
    (hinfo : call.newInfo = some x) (htomb : x.isTombstone = false)
    (hreturned : (s.spaceMap.write maxEntries now parses call.ref call.newInfo).1 = true)
    (hlive : now < x.expiresAt) (hnewest : NoNewer x (s.finishUpdate maxEntries call now parses))
    (hlinked : WritesLinked call parses x s) :
    ServedAt x call.ref (s.finishUpdate maxEntries call now parses) := by
  have hupdated := hinv.updated_of_returned hcall hreturned
  rw [hinfo] at hupdated
  refine ⟨?_, hupdated.stored htomb hlive ?_⟩
  · rw [hinv.addressed hcall hinfo]
    simpa [Server.finishUpdate] using hlinked.1
  · intro e he hagent
    rcases List.mem_filter.mp he with ⟨hmem, hparses⟩
    rcases Int.lt_or_eq_of_le (hinv.held_not_newer hcall hinfo hnewest e hmem hagent) with hlt | heq
    · exact Or.inl hlt
    · exact Or.inr (hlinked.2 e hmem hparses hagent heq)

/-- A write that is not into the linked object, or that meets a tie, does not make it served. -/
theorem writesLinked_of_served (hinv : Inv s) (hcall : call ∈ s.calls)
    (hinfo : call.newInfo = some x)
    (hreturned : (s.spaceMap.write maxEntries now parses call.ref call.newInfo).1 = true)
    (hserved : ∃ ref, ServedAt x ref (s.finishUpdate maxEntries call now parses))
    (hunserved : ¬ ∃ ref, ServedAt x ref s) : WritesLinked call parses x s := by
  rcases hserved with ⟨ref, hlink, hmem⟩
  have hlink' : s.spaceMap.map.lookup x.space = some ref := by
    simpa [Server.finishUpdate] using hlink
  have hspace := hinv.addressed hcall hinfo
  by_cases hne : call.ref = ref
  · subst hne
    have hupdated := hinv.updated_of_returned hcall hreturned
    rw [hinfo] at hupdated
    refine ⟨hspace ▸ hlink', ?_⟩
    intro e he hparses hagent heq
    by_contra hdiff
    exact hupdated.refused (List.mem_filter.mpr ⟨he, hparses⟩) hagent hdiff (Int.le_of_eq heq.symm) hmem
  · -- the linked object is another one, which the write has not touched
    refine absurd ⟨ref, hlink', ?_⟩ hunserved
    rcases hinv.linked x.space ref hlink' with ⟨space, hget, _⟩
    have hafter :=
      (SpaceMap.write_spaces_of_ne maxEntries now parses hne call.newInfo s.spaceMap).trans hget
    rw [Server.finishUpdate, SpaceMap.readable_of_getElem? hafter] at hmem
    rwa [SpaceMap.readable_of_getElem? hget]

omit [DecidableEq Agent] [DecidableEq Sig] in
/-- Where the info is served already there is no tie. -/
theorem ServedAt.writesLinked {ref : Nat} (h : ServedAt x ref s) (hinv : Inv s)
    (hcall : call ∈ s.calls) (hinfo : call.newInfo = some x) (href : call.ref = ref) :
    WritesLinked call parses x s := by
  subst href
  refine ⟨hinv.addressed hcall hinfo ▸ h.1, ?_⟩
  intro e he _ hagent _
  exact (s.spaceMap.onePerAgent_readable call.ref).eq_of_agent he h.2 hagent

end Put

/-- A put that has returned is served from then on exactly when it wrote into the linked object and
met no tie there, or when the info was being served before. -/
theorem putServed_iff {s s' : Server Agent SpaceId Sig} {call : UpdateCall Agent SpaceId Sig}
    {now : Int} {parses : ParsedEntry Agent SpaceId Sig → Bool} {x : ParsedEntry Agent SpaceId Sig}
    (hreach : Reachable verify maxEntries s)
    (hstep : Step verify maxEntries s (.writes call now parses) s') (hinfo : call.newInfo = some x)
    (htomb : x.isTombstone = false)
    (hreturned : (s.spaceMap.write maxEntries now parses call.ref call.newInfo).1 = true)
    (hnewest : NoNewer x s') (hlive : s'.clock < x.expiresAt) :
    PutServed verify maxEntries x s' ↔ WritesLinked call parses x s ∨ x ∈ listed s s x.space := by
  have hinv := hreach.inv
  have hinv' := hinv.step hstep
  cases hstep with
  | writes hcall hnow =>
      have hlive' : now < x.expiresAt := Int.lt_of_le_of_lt hnow hlive
      constructor
      · intro hserved
        by_cases hbefore : ∃ ref, ServedAt x ref s
        · exact Or.inr (mem_listed_self_iff.mpr hbefore)
        · have hread := hserved _ _ .refl .refl hnewest hlive allParse _ (read_allParse _ _ _)
          have hafter := mem_listed_self_iff.mp hread
          exact Or.inl (writesLinked_of_served hinv hcall hinfo hreturned hafter hbefore)
      · rintro (hlinked | hbefore)
        · exact putServed_of_servedAt hinv'
            (servedAt_of_writesLinked hinv hcall hinfo htomb hreturned hlive' hnewest hlinked)
        · rcases mem_listed_self_iff.mp hbefore with ⟨ref, hserved⟩
          by_cases hne : call.ref = ref
          · have hlinked : WritesLinked call parses x s := hserved.writesLinked hinv hcall hinfo hne
            exact putServed_of_servedAt hinv'
              (servedAt_of_writesLinked hinv hcall hinfo htomb hreturned hlive' hnewest hlinked)
          · -- the write is to another object, so it neither evicts the info nor walks over it
            have hother : s.spaceMap.map.lookup x.space ≠ some call.ref :=
              fun hlink => hne (Option.some.inj (hlink.symm.trans hserved.1))
            have hspares : Spares maxEntries x s (.writes call now parses) :=
              ⟨fun hevicts => hother hevicts.1, fun hfails => hother hfails.1⟩
            exact putServed_of_servedAt hinv'
              (hserved.finishUpdate hinv hcall hspares hlive' hnewest)

end Server

/-! ## Losing a put, and keeping one -/

/-- An info of agent 1 in space 7 that expires after a minute. -/
def loneInfo : ParsedEntry Nat Nat Unit :=
  { agent := 1, space := 7, createdAt := 0, expiresAt := 60000000, isTombstone := false
    encoded := "one", signature := () }

/-- The put of `loneInfo` has created the space. -/
def loneFound : Server Nat Nat Unit :=
  Server.new.startUpdate 7 (some loneInfo)

/-- The prune worker has come by before the put has written. -/
def lonePruned : Server Nat Nat Unit :=
  loneFound.startUpdate 7 none

def loneCall : UpdateCall Nat Nat Unit :=
  { space := 7, ref := 0, newInfo := some loneInfo }

theorem loneFound_reachable : Server.Reachable (fun _ _ _ => true) 32 loneFound :=
  Server.RunWhere.step .refl trivial (Server.Step.putFinds (Int.le_refl 0) rfl)

/-- A put that the prune worker does not overtake is served. -/
theorem lone_put_served :
    Server.PutServed (fun _ _ _ => true) 32 loneInfo
      (loneFound.finishUpdate 32 loneCall 0 allParse) := by
  have hnewest : Server.NoNewer loneInfo (loneFound.finishUpdate 32 loneCall 0 allParse) := by
    unfold Server.NoNewer
    decide
  have hlinked : Server.WritesLinked loneCall allParse loneInfo loneFound := by
    unfold Server.WritesLinked
    decide
  exact (Server.putServed_iff loneFound_reachable
    (Server.Step.writes (by decide) (Int.le_refl 0)) rfl rfl (by decide) hnewest (by decide)).mpr
    (Or.inl hlinked)

/-- The put of an empty space returns after the prune worker has unlinked the space, and the very
next read does not return the info. -/
theorem orphaned_put_lost :
    Server.Reachable (fun _ _ _ => true) 32 lonePruned ∧
      Server.Step (fun _ _ _ => true) 32 lonePruned (.writes loneCall 0 allParse)
        (lonePruned.finishUpdate 32 loneCall 0 allParse) ∧
      (lonePruned.spaceMap.write 32 0 allParse loneCall.ref loneCall.newInfo).1 = true ∧
      Server.NoNewer loneInfo (lonePruned.finishUpdate 32 loneCall 0 allParse) ∧
      (lonePruned.finishUpdate 32 loneCall 0 allParse).clock < loneInfo.expiresAt ∧
      ¬ Server.PutServed (fun _ _ _ => true) 32 loneInfo
        (lonePruned.finishUpdate 32 loneCall 0 allParse) := by
  have hnewest : Server.NoNewer loneInfo (lonePruned.finishUpdate 32 loneCall 0 allParse) := by
    unfold Server.NoNewer
    decide
  refine ⟨?_, ?_, by decide, hnewest, by decide, ?_⟩
  · exact loneFound_reachable.step trivial Server.Step.pruneFinds
  · exact Server.Step.writes (by decide) (Int.le_refl 0)
  · intro hserved
    have hread := hserved _ _ .refl .refl hnewest (by decide) allParse _ (Server.read_allParse _ _ _)
    revert hread
    decide

end Bootstrap
end Kitsune2
