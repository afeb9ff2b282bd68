import Kitsune2.Transport.Node

/-!
# Steps — what one step of an endpoint can do

The registry's verdict in full, what a step leaves alone, and where a slot can come from.  The
invariants of runs are derived from these and do not open the operations again.
-/

namespace Kitsune2
namespace Transport

variable {Id Url Conn : Type}

/-- What the tasks of other connections can do to a connection: supersede and close it. -/
structure ConnectionContext.Touched (ctx ctx' : ConnectionContext Id Url Conn) : Prop where
  same : ctx' = { ctx with lifecycle := ctx'.lifecycle, link := ctx'.link }
  lifecycle : ctx'.lifecycle = ctx.lifecycle ∨ ctx'.lifecycle = ctx.lifecycle.markSuperseded
  link : ctx'.link = ctx.link ∨
    ctx'.link = ctx.link.close .superseded supersededCloseReason

namespace ConnectionContext.Touched

variable {ctx ctx' : ConnectionContext Id Url Conn}

theorem refl (ctx : ConnectionContext Id Url Conn) : ctx.Touched ctx :=
  ⟨rfl, Or.inl rfl, Or.inl rfl⟩

theorem remoteId (h : ctx.Touched ctx') : ctx'.remoteId = ctx.remoteId := by
  rw [h.same]

theorem dialedUrl (h : ctx.Touched ctx') : ctx'.dialedUrl = ctx.dialedUrl := by
  rw [h.same]

theorem remoteUrl (h : ctx.Touched ctx') : ctx'.remoteUrl = ctx.remoteUrl := by
  rw [h.same]

theorem reader (h : ctx.Touched ctx') : ctx'.reader = ctx.reader := by
  rw [h.same]

theorem dial (h : ctx.Touched ctx') : ctx'.dial = ctx.dial := by
  rw [h.same]

theorem isLive (h : ctx.Touched ctx') (hlive : ctx.lifecycle.isLive = false) :
    ctx'.lifecycle.isLive = false := by
  rcases h.lifecycle with heq | heq
  · rw [heq, hlive]
  · rw [heq, ConnectionState.isLive_markSuperseded]

end ConnectionContext.Touched

namespace Node

section Operations

variable [DecidableEq Conn]

/-! ## Fields after an update -/

@[simp]
theorem modify_slots (n : Node Id Url Conn) (c : Conn)
    (f : ConnectionContext Id Url Conn → ConnectionContext Id Url Conn) :
    (n.modify c f).slots = n.slots := rfl

@[simp]
theorem modify_calls (n : Node Id Url Conn) (c : Conn)
    (f : ConnectionContext Id Url Conn → ConnectionContext Id Url Conn) :
    (n.modify c f).calls = n.calls := rfl

@[simp]
theorem modify_localId (n : Node Id Url Conn) (c : Conn)
    (f : ConnectionContext Id Url Conn → ConnectionContext Id Url Conn) :
    (n.modify c f).localId = n.localId := rfl

@[simp]
theorem modify_context_self (n : Node Id Url Conn) (c : Conn)
    (f : ConnectionContext Id Url Conn → ConnectionContext Id Url Conn) :
    (n.modify c f).context c = f (n.context c) := by
  simp [modify]

theorem modify_context_of_ne (n : Node Id Url Conn) {c c' : Conn} (h : c' ≠ c)
    (f : ConnectionContext Id Url Conn → ConnectionContext Id Url Conn) :
    (n.modify c f).context c' = n.context c' := by
  simp [modify, h]

theorem modify_modify (n : Node Id Url Conn) (c : Conn)
    (f g : ConnectionContext Id Url Conn → ConnectionContext Id Url Conn) :
    (n.modify c f).modify c g = n.modify c fun ctx => g (f ctx) := by
  simp [modify]

theorem modify_congr {n : Node Id Url Conn} {c : Conn}
    {f g : ConnectionContext Id Url Conn → ConnectionContext Id Url Conn}
    (h : f (n.context c) = g (n.context c)) : n.modify c f = n.modify c g := by
  simp [modify, h]

variable [DecidableEq Url]

omit [DecidableEq Conn] in
@[simp]
theorem setSlot_context (n : Node Id Url Conn) (peer : Url) (holder : Option Conn) :
    (n.setSlot peer holder).context = n.context := rfl

omit [DecidableEq Conn] in
@[simp]
theorem setSlot_calls (n : Node Id Url Conn) (peer : Url) (holder : Option Conn) :
    (n.setSlot peer holder).calls = n.calls := rfl

omit [DecidableEq Conn] in
@[simp]
theorem setSlot_slots_self (n : Node Id Url Conn) (peer : Url) (holder : Option Conn) :
    (n.setSlot peer holder).slots peer = holder := by
  simp [setSlot]

omit [DecidableEq Conn] in
theorem setSlot_slots_of_ne (n : Node Id Url Conn) {peer url : Url} (h : url ≠ peer)
    (holder : Option Conn) : (n.setSlot peer holder).slots url = n.slots url := by
  simp [setSlot, h]

omit [DecidableEq Url] [DecidableEq Conn] in
@[simp]
theorem call_context (n : Node Id Url Conn) (call : HandlerCall Url Conn) :
    (n.call call).context = n.context := rfl

omit [DecidableEq Url] [DecidableEq Conn] in
@[simp]
theorem call_slots (n : Node Id Url Conn) (call : HandlerCall Url Conn) :
    (n.call call).slots = n.slots := rfl

omit [DecidableEq Url] [DecidableEq Conn] in
@[simp]
theorem call_calls (n : Node Id Url Conn) (call : HandlerCall Url Conn) :
    (n.call call).calls = n.calls ++ [call] := rfl

end Operations

section Registry

variable [DecidableEq Url] [DecidableEq Conn]

/-! ## The registry's verdict -/

/-- What a claim of a slot can come to. -/
inductive Verdict [LinearOrder Id] (n : Node Id Url Conn) (peer : Url) (c : Conn) :
    Bool × Option Conn × Node Id Url Conn → Prop
  | dead (hlive : (n.context c).lifecycle.isLive = false) : Verdict n peer c (false, none, n)
  | held (hlive : (n.context c).lifecycle.isLive = true) (hslot : n.slots peer = some c) :
      Verdict n peer c (true, none, n)
  | free (hlive : (n.context c).lifecycle.isLive = true) (hslot : n.slots peer = none) :
      Verdict n peer c (true, none, n.setSlot peer (some c))
  | displaced (d : Conn) (hlive : (n.context c).lifecycle.isLive = true) (hne : d ≠ c)
      (hslot : n.slots peer = some d)
      (hyields : (n.context d).lifecycle.isLive = true →
        (n.context d).isPreferredConnection n.localId = true →
          (n.context c).isPreferredConnection n.localId = true) :
      Verdict n peer c (true, some d, (n.setSlot peer (some c)).markSuperseded d)
  | defended (d : Conn) (hlive : (n.context c).lifecycle.isLive = true) (hne : d ≠ c)
      (hslot : n.slots peer = some d) (hlive' : (n.context d).lifecycle.isLive = true)
      (hpreferred : (n.context d).isPreferredConnection n.localId = true)
      (hother : (n.context c).isPreferredConnection n.localId = false) :
      Verdict n peer c (false, none, n.markSuperseded c)

theorem registerCandidate_verdict [LinearOrder Id] (n : Node Id Url Conn) (peer : Url) (c : Conn) :
    Verdict n peer c (n.registerCandidate peer c) := by
  unfold registerCandidate
  cases hlive : (n.context c).lifecycle.isLive with
  | false => exact .dead hlive
  | true =>
      simp only [Bool.not_true, Bool.false_eq_true, if_false]
      cases hslot : n.slots peer with
      | none => exact .free hlive hslot
      | some d =>
          -- a live and preferred holder gives way only to another preferred connection
          by_cases hd : d = c
          · subst hd
            simpa using Verdict.held hlive hslot
          · simp only [hd, if_false]
            cases hlive' : (n.context d).lifecycle.isLive with
            | false =>
                refine .displaced d hlive hd hslot ?_
                rw [hlive']
                intro h
                cases h
            | true =>
                cases hpd : (n.context d).isPreferredConnection n.localId with
                | false =>
                    refine .displaced d hlive hd hslot ?_
                    rw [hpd]
                    intro _ h
                    cases h
                | true =>
                    cases hpc : (n.context c).isPreferredConnection n.localId with
                    | false => exact .defended d hlive hd hslot hlive' hpd hpc
                    | true =>
                        refine .displaced d hlive hd hslot ?_
                        exact fun _ _ => hpc

/-- A claim does nothing to the candidate but supersede it, nor to another connection. -/
theorem Verdict.touched [LinearOrder Id] {n : Node Id Url Conn} {peer : Url} {c : Conn}
    {r : Bool × Option Conn × Node Id Url Conn} (h : Verdict n peer c r) (c' : Conn) :
    (n.context c').Touched (r.2.2.context c') := by
  cases h with
  | dead hlive => exact .refl _
  | held hlive hslot => exact .refl _
  | free hlive hslot => exact .refl _
  | displaced d hlive hne hslot hyields =>
      by_cases hc : c' = d
      · subst hc
        simp only [markSuperseded, modify_context_self]
        exact ⟨rfl, Or.inr rfl, Or.inl rfl⟩
      · simp only [markSuperseded, modify_context_of_ne _ hc]
        exact .refl _
  | defended d hlive hne hslot hlive' hpreferred hother =>
      by_cases hc : c' = c
      · subst hc
        simp only [markSuperseded, modify_context_self]
        exact ⟨rfl, Or.inr rfl, Or.inl rfl⟩
      · simp only [markSuperseded, modify_context_of_ne _ hc]
        exact .refl _

theorem Verdict.calls [LinearOrder Id] {n : Node Id Url Conn} {peer : Url} {c : Conn}
    {r : Bool × Option Conn × Node Id Url Conn} (h : Verdict n peer c r) :
    r.2.2.calls = n.calls := by
  cases h <;> rfl

/-- A slot of the result was that connection's before, or is the one claimed. -/
theorem Verdict.slots [LinearOrder Id] {n : Node Id Url Conn} {peer : Url} {c : Conn}
    {r : Bool × Option Conn × Node Id Url Conn} (h : Verdict n peer c r) {url : Url} {c' : Conn}
    (hslot' : r.2.2.slots url = some c') :
    n.slots url = some c' ∨ url = peer ∧ c' = c ∧ (n.context c).lifecycle.isLive = true := by
  have hset : ∀ (_ : (n.context c).lifecycle.isLive = true)
      (_ : (n.setSlot peer (some c)).slots url = some c'),
      n.slots url = some c' ∨ url = peer ∧ c' = c ∧ (n.context c).lifecycle.isLive = true := by
    intro hlive hs
    by_cases hurl : url = peer
    · subst hurl
      rw [setSlot_slots_self, Option.some.injEq] at hs
      exact Or.inr ⟨rfl, hs.symm, hlive⟩
    · rw [setSlot_slots_of_ne _ hurl] at hs
      exact Or.inl hs
  cases h with
  | dead hlive => exact Or.inl hslot'
  | held hlive hslot => exact Or.inl hslot'
  | free hlive hslot => exact hset hlive hslot'
  | displaced d hlive hne hslot hyields => exact hset hlive hslot'
  | defended d hlive hne hslot hlive' hpreferred hother => exact Or.inl hslot'

/-! ## What a step leaves alone -/

omit [DecidableEq Url] [DecidableEq Conn] in
theorem afterDisplacing_cases (ctx : ConnectionContext Id Url Conn) :
    afterDisplacing ctx = .activating ∨ afterDisplacing ctx = .returning := by
  unfold afterDisplacing
  split
  · exact Or.inl rfl
  · exact Or.inr rfl

omit [DecidableEq Url] in
theorem closeDisplaced_touched (n : Node Id Url Conn) (displaced : Option Conn) (c : Conn) :
    (n.context c).Touched ((n.closeDisplaced displaced).context c) := by
  cases displaced with
  | none => exact .refl _
  | some d =>
      by_cases hc : c = d
      · subst hc
        simp only [closeDisplaced, close, modify_context_self]
        exact ⟨rfl, Or.inl rfl, Or.inr rfl⟩
      · simp only [closeDisplaced, close, modify_context_of_ne _ hc]
        exact .refl _

omit [DecidableEq Url] in
@[simp]
theorem closeDisplaced_slots (n : Node Id Url Conn) (displaced : Option Conn) :
    (n.closeDisplaced displaced).slots = n.slots := by
  cases displaced <;> rfl

omit [DecidableEq Url] in
@[simp]
theorem closeDisplaced_calls (n : Node Id Url Conn) (displaced : Option Conn) :
    (n.closeDisplaced displaced).calls = n.calls := by
  cases displaced <;> rfl

omit [DecidableEq Url] in
@[simp]
theorem disconnect_slots (n : Node Id Url Conn) (c : Conn) (code : CloseCode) (reason : String) :
    (n.disconnect c code reason).slots = n.slots := by
  unfold disconnect
  simp only
  split <;> rfl

omit [DecidableEq Url] in
theorem disconnect_context (n : Node Id Url Conn) (c : Conn) (code : CloseCode)
    (reason : String) :
    (n.disconnect c code reason).context = ((n.markClosed c).close c code reason).context := by
  unfold disconnect
  simp only
  split <;> rfl

theorem removeIfCurrent_slots {n : Node Id Url Conn} {peer url : Url} {c c' : Conn}
    (h : (n.removeIfCurrent peer c).2.slots url = some c') : n.slots url = some c' := by
  unfold removeIfCurrent at h
  split at h
  · by_cases hurl : url = peer
    · subst hurl
      simp at h
    · rwa [setSlot_slots_of_ne _ hurl] at h
  · exact h

/-- Giving a slot back leaves no slot of that URL with the entry. -/
theorem removeIfCurrent_slots_ne (n : Node Id Url Conn) (peer : Url) (c : Conn) :
    (n.removeIfCurrent peer c).2.slots peer ≠ some c := by
  unfold removeIfCurrent
  split
  · simp
  · assumption

@[simp]
theorem removeIfCurrent_context (n : Node Id Url Conn) (peer : Url) (c : Conn) :
    (n.removeIfCurrent peer c).2.context = n.context := by
  unfold removeIfCurrent
  split <;> rfl

@[simp]
theorem removeIfCurrent_localId (n : Node Id Url Conn) (peer : Url) (c : Conn) :
    (n.removeIfCurrent peer c).2.localId = n.localId := by
  unfold removeIfCurrent
  split <;> rfl

@[simp]
theorem removeIfCurrent_calls (n : Node Id Url Conn) (peer : Url) (c : Conn) :
    (n.removeIfCurrent peer c).2.calls = n.calls := by
  unfold removeIfCurrent
  split <;> rfl

omit [DecidableEq Url] in
@[simp]
theorem activate_slots (n : Node Id Url Conn) (peer : Url) (c : Conn) :
    (n.activate peer c).2.slots = n.slots := by
  unfold activate
  split <;> rfl

omit [DecidableEq Url] in
@[simp]
theorem activate_calls (n : Node Id Url Conn) (peer : Url) (c : Conn) :
    (n.activate peer c).2.calls = n.calls := by
  unfold activate
  split <;> rfl

/-! ## One step -/

/-- The connection whose task makes the step. -/
def Event.conn : Event Id Url Conn → Option Conn
  | .dialed c _ _ | .accepted c _ | .dialRegistered c _ | .dialRejected c | .dialDisplaced c
  | .dialWritten c | .dialWriteFailed c _ | .dialFailedClosed c | .dialFailedRemoved c _
  | .preflightRead c _ | .preflightRefused c _ _ | .readFailed c _ | .readerRegistered c _
  | .readerDisplaced c | .returnSent c | .returnFailed c _ | .readerActivated c _
  | .dataRead c _ | .exitRemoved c | .exitMarked c | .exitFinished c | .remoteClosed c _ _
  | .connectionLost c | .takenClosed c _ => some c
  | .slotTaken _ | .sendGaveUp _ _ => none

omit [DecidableEq Url] in
theorem setReader_context_of_ne (n : Node Id Url Conn) {c c' : Conn} (h : c' ≠ c)
    (stage : ReaderStage Conn) : (n.setReader c stage).context c' = n.context c' :=
  modify_context_of_ne n h _

omit [DecidableEq Url] in
theorem setDial_context_of_ne (n : Node Id Url Conn) {c c' : Conn} (h : c' ≠ c)
    (stage : DialStage Conn) : (n.setDial c stage).context c' = n.context c' :=
  modify_context_of_ne n h _

omit [DecidableEq Url] in
theorem close_context_of_ne (n : Node Id Url Conn) {c c' : Conn} (h : c' ≠ c) (code : CloseCode)
    (reason : String) : (n.close c code reason).context c' = n.context c' :=
  modify_context_of_ne n h _

omit [DecidableEq Url] in
theorem markClosed_context_of_ne (n : Node Id Url Conn) {c c' : Conn} (h : c' ≠ c) :
    (n.markClosed c).context c' = n.context c' :=
  modify_context_of_ne n h _

omit [DecidableEq Url] in
theorem markSuperseded_context_of_ne (n : Node Id Url Conn) {c c' : Conn} (h : c' ≠ c) :
    (n.markSuperseded c).context c' = n.context c' :=
  modify_context_of_ne n h _

variable [LinearOrder Id]

omit [DecidableEq Url] [LinearOrder Id] in
theorem disconnect_context_of_ne (n : Node Id Url Conn) {c c' : Conn} (h : c' ≠ c)
    (code : CloseCode) (reason : String) :
    (n.disconnect c code reason).context c' = n.context c' := by
  rw [disconnect_context, close_context_of_ne _ h, markClosed_context_of_ne _ h]

omit [DecidableEq Url] [LinearOrder Id] in
theorem activate_context_of_ne (n : Node Id Url Conn) {c c' : Conn} (h : c' ≠ c) (peer : Url) :
    (n.activate peer c).2.context c' = n.context c' := by
  unfold activate
  split
  · simp only
    rw [modify_context_of_ne n h]
  · rfl

omit [DecidableEq Url] [LinearOrder Id] in
theorem exitFinish_context_of_ne (n : Node Id Url Conn) {c c' : Conn} (h : c' ≠ c) (url : Url)
    (wasActive : Bool) (exit : ReaderExit) :
    (n.exitFinish c url wasActive exit).context c' = n.context c' := by
  unfold exitFinish
  simp only
  split
  · rw [setReader_context_of_ne _ h, disconnect_context_of_ne _ h]
  · rw [setReader_context_of_ne _ h, disconnect_context_of_ne _ h]
    split <;> rfl
  · rw [setReader_context_of_ne _ h, close_context_of_ne _ h]
  · rw [setReader_context_of_ne _ h, close_context_of_ne _ h]

/-- A step of one connection's task can only supersede and close another connection. -/
theorem Step.touched_of_ne {n n' : Node Id Url Conn} {e : Event Id Url Conn} (h : Step n e n')
    {c' : Conn} (hne : e.conn ≠ some c') : (n.context c').Touched (n'.context c') := by
  have hother : ∀ {c : Conn}, Event.conn e = some c → c' ≠ c := by
    rintro c hc rfl
    exact hne hc
  cases h with
  -- registering may supersede the connection that is displaced
  | dialRegistered c url hdial hurl =>
      have hc := hother rfl
      have htouched := (registerCandidate_verdict n url c).touched c'
      unfold dialRegister
      simp only
      split
      · rwa [setDial_context_of_ne _ hc]
      · rwa [setDial_context_of_ne _ hc]
  | readerRegistered c url hreader hurl =>
      have hc := hother rfl
      have htouched := (registerCandidate_verdict n url c).touched c'
      unfold readerRegister
      simp only
      split
      · rwa [setReader_context_of_ne _ hc]
      · rwa [setReader_context_of_ne _ hc]
  | dialDisplaced c displaced hdial =>
      rw [setDial_context_of_ne _ (hother rfl)]
      exact closeDisplaced_touched n displaced c'
  | readerDisplaced c displaced hreader =>
      rw [setReader_context_of_ne _ (hother rfl)]
      exact closeDisplaced_touched n displaced c'
  | dialWriteFailed c url err hdial hurl =>
      unfold dialWriteFail
      split
      · rw [setDial_context_of_ne _ (hother rfl)]
        exact .refl _
      · rw [setDial_context_of_ne _ (hother rfl)]
        exact .refl _
  | readerActivated c url hreader hurl =>
      unfold readerActivate
      simp only
      split
      · rw [setReader_context_of_ne _ (hother rfl), activate_context_of_ne _ (hother rfl)]
        exact .refl _
      · rw [setReader_context_of_ne _ (hother rfl), activate_context_of_ne _ (hother rfl)]
        exact .refl _
  | exitRemoved c exit hreader =>
      unfold exitRemove
      split
      · rw [setReader_context_of_ne _ (hother rfl), close_context_of_ne _ (hother rfl),
          markClosed_context_of_ne _ (hother rfl)]
        exact .refl _
      · simp only
        rw [setReader_context_of_ne _ (hother rfl), removeIfCurrent_context]
        exact .refl _
  | exitMarked c wasActive exit hreader =>
      unfold exitMark
      split
      · rw [setReader_context_of_ne _ (hother rfl), markSuperseded_context_of_ne _ (hother rfl)]
        exact .refl _
      · rw [setReader_context_of_ne _ (hother rfl), markClosed_context_of_ne _ (hother rfl)]
        exact .refl _
  | exitFinished c url wasActive exit hreader hurl =>
      rw [exitFinish_context_of_ne _ (hother rfl)]
      exact .refl _
  | dialRejected c hdial =>
      rw [setDial_context_of_ne _ (hother rfl), close_context_of_ne _ (hother rfl),
        markSuperseded_context_of_ne _ (hother rfl)]
      exact .refl _
  | dialFailedClosed c err hdial =>
      rw [setDial_context_of_ne _ (hother rfl), close_context_of_ne _ (hother rfl),
        markClosed_context_of_ne _ (hother rfl)]
      exact .refl _
  | dialFailedRemoved c url hdial hurl =>
      rw [setDial_context_of_ne _ (hother rfl), removeIfCurrent_context]
      exact .refl _
  | takenClosed c reason htaken =>
      simp only
      rw [disconnect_context_of_ne _ (hother rfl)]
      exact .refl _
  | sendGaveUp url c =>
      rw [removeIfCurrent_context]
      exact .refl _
  -- the rest changes the context of its own connection only
  | slotTaken c url hslot => exact .refl _
  | dataRead c url hreader hurl => exact .refl _
  | dialed c remoteId url hreader =>
      rw [modify_context_of_ne _ (hother rfl)]
      exact .refl _
  | accepted c remoteId hreader =>
      rw [modify_context_of_ne _ (hother rfl)]
      exact .refl _
  | dialWritten c hdial hlink =>
      rw [modify_context_of_ne _ (hother rfl)]
      exact .refl _
  | preflightRead c url hreader =>
      rw [call_context, modify_context_of_ne _ (hother rfl)]
      exact .refl _
  | preflightRefused c url exit hreader =>
      rw [call_context, modify_context_of_ne _ (hother rfl)]
      exact .refl _
  | readFailed c err hreader =>
      rw [setReader_context_of_ne _ (hother rfl)]
      exact .refl _
  | returnSent c hreader hlink =>
      rw [modify_context_of_ne _ (hother rfl)]
      exact .refl _
  | returnFailed c exit hreader =>
      rw [setReader_context_of_ne _ (hother rfl)]
      exact .refl _
  | remoteClosed c code reason hlink =>
      rw [modify_context_of_ne _ (hother rfl)]
      exact .refl _
  | connectionLost c hlink =>
      rw [modify_context_of_ne _ (hother rfl)]
      exact .refl _

/-- A slot is only ever filled by a live connection that registers for it. -/
theorem Step.slots {n n' : Node Id Url Conn} {e : Event Id Url Conn} (h : Step n e n') {url : Url}
    {c : Conn} (hslot : n'.slots url = some c) :
    n.slots url = some c ∨
      (e = .dialRegistered c url ∨ e = .readerRegistered c url) ∧
        (n.context c).lifecycle.isLive = true := by
  cases h with
  | dialRegistered c' url' hdial hurl =>
      have hslot' : (n.registerCandidate url' c').2.2.slots url = some c := by
        unfold dialRegister at hslot
        simp only at hslot
        split at hslot <;> exact hslot
      rcases (registerCandidate_verdict n url' c').slots hslot' with hold | ⟨rfl, rfl, hlive⟩
      · exact Or.inl hold
      · exact Or.inr ⟨Or.inl rfl, hlive⟩
  | readerRegistered c' url' hreader hurl =>
      have hslot' : (n.registerCandidate url' c').2.2.slots url = some c := by
        unfold readerRegister at hslot
        simp only at hslot
        split at hslot <;> exact hslot
      rcases (registerCandidate_verdict n url' c').slots hslot' with hold | ⟨rfl, rfl, hlive⟩
      · exact Or.inl hold
      · exact Or.inr ⟨Or.inr rfl, hlive⟩
  -- no other step fills a slot
  | dialDisplaced c' displaced hdial =>
      simp only [setDial, modify_slots, closeDisplaced_slots] at hslot
      exact Or.inl hslot
  | readerDisplaced c' displaced hreader =>
      simp only [setReader, modify_slots, closeDisplaced_slots] at hslot
      exact Or.inl hslot
  | dialWriteFailed c' url' err hdial hurl =>
      unfold dialWriteFail at hslot
      split at hslot <;> exact Or.inl hslot
  | readerActivated c' url' hreader hurl =>
      unfold readerActivate at hslot
      simp only at hslot
      split at hslot
      · simp only [setReader, modify_slots, activate_slots] at hslot
        exact Or.inl hslot
      · simp only [setReader, modify_slots, activate_slots] at hslot
        exact Or.inl hslot
  | exitRemoved c' exit hreader =>
      unfold exitRemove at hslot
      split at hslot
      · exact Or.inl hslot
      · exact Or.inl (removeIfCurrent_slots hslot)
  | exitMarked c' wasActive exit hreader =>
      unfold exitMark at hslot
      split at hslot <;> exact Or.inl hslot
  | exitFinished c' url' wasActive exit hreader hurl =>
      unfold exitFinish at hslot
      simp only at hslot
      split at hslot
      · simp only [setReader, modify_slots, disconnect_slots] at hslot
        exact Or.inl hslot
      · simp only [setReader, modify_slots, disconnect_slots] at hslot
        split at hslot <;> exact Or.inl hslot
      · exact Or.inl hslot
      · exact Or.inl hslot
  | dialFailedRemoved c' url' hdial hurl => exact Or.inl (removeIfCurrent_slots hslot)
  | sendGaveUp url' c' => exact Or.inl (removeIfCurrent_slots hslot)
  | slotTaken c' url' hslot' =>
      by_cases hurl : url = url'
      · subst hurl
        simp at hslot
      · simp only [setSlot_slots_of_ne _ hurl] at hslot
        exact Or.inl hslot
  | takenClosed c' reason htaken =>
      simp only [disconnect_slots] at hslot
      exact Or.inl hslot
  | _ => exact Or.inl hslot

/-! ## The connection a step belongs to -/

/-- A claim supersedes the candidate at most, and then its dial moves on. -/
theorem dialRegister_context_self (n : Node Id Url Conn) (c : Conn) (url : Url) :
    ∃ ctx stage, (n.context c).Touched ctx ∧
      ((∃ displaced, stage = .displacing displaced) ∨ stage = .rejected) ∧
      (n.dialRegister c url).context c = { ctx with dial := stage } := by
  have htouched := (registerCandidate_verdict n url c).touched c
  unfold dialRegister
  simp only
  split
  · exact ⟨_, _, htouched, Or.inl ⟨_, rfl⟩, modify_context_self _ _ _⟩
  · exact ⟨_, _, htouched, Or.inr rfl, modify_context_self _ _ _⟩

theorem readerRegister_context_self (n : Node Id Url Conn) (c : Conn) (url : Url) :
    ∃ ctx stage, (n.context c).Touched ctx ∧
      ((∃ displaced, stage = .displacing displaced) ∨ ∃ exit, stage = .exiting exit) ∧
      (n.readerRegister c url).context c = { ctx with reader := stage } := by
  have htouched := (registerCandidate_verdict n url c).touched c
  unfold readerRegister
  simp only
  split
  · exact ⟨_, _, htouched, Or.inl ⟨_, rfl⟩, modify_context_self _ _ _⟩
  · exact ⟨_, _, htouched, Or.inr ⟨_, rfl⟩, modify_context_self _ _ _⟩

omit [DecidableEq Url] [LinearOrder Id] in
theorem activate_context_self (n : Node Id Url Conn) (c : Conn) (url : Url) :
    ∃ lifecycle, (n.activate url c).2.context c = { n.context c with lifecycle := lifecycle } := by
  unfold activate
  split
  · exact ⟨(n.context c).lifecycle.activate.2, by simp only [modify_context_self]⟩
  · exact ⟨_, rfl⟩

omit [DecidableEq Url] [LinearOrder Id] in
theorem readerActivate_context_self (n : Node Id Url Conn) (c : Conn) (url : Url) :
    ∃ lifecycle stage, (stage = .serving ∨ ∃ exit, stage = .exiting exit) ∧
      (n.readerActivate c url).context c =
        { n.context c with lifecycle := lifecycle, reader := stage } := by
  obtain ⟨lifecycle, heq⟩ := activate_context_self n c url
  unfold readerActivate
  simp only
  split
  · refine ⟨lifecycle, .serving, Or.inl rfl, ?_⟩
    rw [setReader, modify_context_self, heq]
  · refine ⟨lifecycle, .exiting ⟨supersededCloseReason, true⟩, Or.inr ⟨_, rfl⟩, ?_⟩
    rw [setReader, modify_context_self, heq]

omit [DecidableEq Url] [LinearOrder Id] in
theorem exitFinish_context_self (n : Node Id Url Conn) (c : Conn) (url : Url) (wasActive : Bool)
    (exit : ReaderExit) :
    ∃ lifecycle code reason,
      ((n.context c).lifecycle.isLive = false → lifecycle.isLive = false) ∧
      (n.exitFinish c url wasActive exit).context c =
        { n.context c with
          lifecycle := lifecycle, link := (n.context c).link.close code reason,
          reader := .finished } := by
  unfold exitFinish
  simp only
  split
  · rename_i reason _
    refine ⟨(n.context c).lifecycle.markClosed, .graceful, reason,
      fun _ => ConnectionState.isLive_markClosed _, ?_⟩
    simp only [setReader, disconnect_context, close, markClosed, modify_context_self]
  · rename_i mark _
    refine ⟨(n.context c).lifecycle.markClosed, .unspecified, exit.err,
      fun _ => ConnectionState.isLive_markClosed _, ?_⟩
    simp only [setReader, disconnect_context, close, markClosed, modify_context_self]
    split <;> rfl
  · refine ⟨_, .superseded, supersededCloseReason, id, ?_⟩
    simp only [setReader, close, modify_context_self]
  · refine ⟨_, .unspecified, exit.err, id, ?_⟩
    simp only [setReader, close, modify_context_self]

/-- What a step can do to the reader and the URLs of the connection it belongs to. -/
inductive ReaderMove (n n' : Node Id Url Conn) (e : Event Id Url Conn) (c : Conn) : Prop
  | dialed (remoteId : Id) (url : Url) (he : e = .dialed c remoteId url)
      (hreader : (n.context c).reader = .notStarted)
      (hcontext : n'.context c = .dialed remoteId url)
  | accepted (remoteId : Id) (he : e = .accepted c remoteId)
      (hreader : (n.context c).reader = .notStarted) (hcontext : n'.context c = .accepted remoteId)
  /-- A step of the dial, of the network or of the user. -/
  | stays (hid : (n'.context c).remoteId = (n.context c).remoteId)
      (hdialed : (n'.context c).dialedUrl = (n.context c).dialedUrl)
      (hremote : (n'.context c).remoteUrl = (n.context c).remoteUrl)
      (hreader : (n'.context c).reader = (n.context c).reader)
      (hlive : (n.context c).lifecycle.isLive = false → (n'.context c).lifecycle.isLive = false)
  | read (url : Url) (he : e = .preflightRead c url ∨ ∃ exit, e = .preflightRefused c url exit)
      (hreader : (n.context c).reader = .awaiting)
      (hid : (n'.context c).remoteId = (n.context c).remoteId)
      (hdialed : (n'.context c).dialedUrl = (n.context c).dialedUrl)
      (hremote : (n'.context c).remoteUrl = some url)
      (hreader' : (n'.context c).reader = .received ∨
        ∃ exit, (n'.context c).reader = .exiting exit)
  /-- The reader goes on, up to the start of its cleanup. -/
  | goesOn (hid : (n'.context c).remoteId = (n.context c).remoteId)
      (hdialed : (n'.context c).dialedUrl = (n.context c).dialedUrl)
      (hremote : (n'.context c).remoteUrl = (n.context c).remoteUrl)
      (hreader : (n'.context c).reader = .returning ∨ (n'.context c).reader = .activating ∨
        (n'.context c).reader = .serving ∨
        (∃ displaced, (n'.context c).reader = .displacing displaced) ∨
          ∃ exit, (n'.context c).reader = .exiting exit)
  /-- The cleanup gives the slot of the last known URL back. -/
  | leaves (hid : (n'.context c).remoteId = (n.context c).remoteId)
      (hdialed : (n'.context c).dialedUrl = (n.context c).dialedUrl)
      (hremote : (n'.context c).remoteUrl = (n.context c).remoteUrl)
      (hslot : ∀ url, (n.context c).remoteUrl = some url → n'.slots url ≠ some c)
      (hreader : (n'.context c).reader = .finished ∧ (n'.context c).lifecycle.isLive = false ∨
        ∃ wasActive exit, (n'.context c).reader = .removed wasActive exit)
  | ends (hleft : (n.context c).HasLeft)
      (hid : (n'.context c).remoteId = (n.context c).remoteId)
      (hdialed : (n'.context c).dialedUrl = (n.context c).dialedUrl)
      (hremote : (n'.context c).remoteUrl = (n.context c).remoteUrl)
      (hreader : ((∃ wasActive exit, (n'.context c).reader = .marked wasActive exit) ∧
          (n'.context c).lifecycle.isLive = false) ∨
        (∃ wasActive exit, (n.context c).reader = .marked wasActive exit) ∧
          (n'.context c).reader = .finished ∧
          ((n.context c).lifecycle.isLive = false → (n'.context c).lifecycle.isLive = false))

theorem Step.readerMove {n n' : Node Id Url Conn} {e : Event Id Url Conn} (h : Step n e n')
    {c : Conn} (hc : e.conn = some c) : ReaderMove n n' e c := by
  cases h with
  | dialed c' remoteId url hreader =>
      cases hc
      exact .dialed remoteId url rfl hreader (modify_context_self _ _ _)
  | accepted c' remoteId hreader =>
      cases hc
      exact .accepted remoteId rfl hreader (modify_context_self _ _ _)
  -- the dialing side leaves the reader alone
  | dialRegistered c' url hdial hurl =>
      cases hc
      obtain ⟨ctx, stage, htouched, -, heq⟩ := dialRegister_context_self n c url
      refine .stays ?_ ?_ ?_ ?_ ?_
      · rw [heq, htouched.remoteId]
      · rw [heq, htouched.dialedUrl]
      · rw [heq, htouched.remoteUrl]
      · rw [heq, htouched.reader]
      · rw [heq]
        exact htouched.isLive
  | dialRejected c' hdial =>
      cases hc
      refine .stays ?_ ?_ ?_ ?_ ?_ <;>
        simp only [setDial, close, markSuperseded, modify_context_self,
          ConnectionState.isLive_markSuperseded, implies_true]
  | dialDisplaced c' displaced hdial =>
      cases hc
      have htouched := closeDisplaced_touched n displaced c
      refine .stays ?_ ?_ ?_ ?_ ?_ <;> rw [setDial, modify_context_self]
      · exact htouched.remoteId
      · exact htouched.dialedUrl
      · exact htouched.remoteUrl
      · exact htouched.reader
      · exact htouched.isLive
  | dialWritten c' hdial hlink =>
      cases hc
      refine .stays ?_ ?_ ?_ ?_ ?_ <;> simp only [modify_context_self, imp_self]
  | dialWriteFailed c' url err hdial hurl =>
      cases hc
      unfold dialWriteFail
      split
      · refine .stays ?_ ?_ ?_ ?_ ?_ <;> simp only [setDial, modify_context_self, imp_self]
      · refine .stays ?_ ?_ ?_ ?_ ?_ <;>
          simp only [setDial, modify_context_self, call_context, imp_self]
  | dialFailedClosed c' err hdial =>
      cases hc
      refine .stays ?_ ?_ ?_ ?_ ?_ <;>
        simp only [setDial, close, markClosed, modify_context_self,
          ConnectionState.isLive_markClosed, implies_true]
  | dialFailedRemoved c' url hdial hurl =>
      cases hc
      refine .stays ?_ ?_ ?_ ?_ ?_ <;>
        simp only [setDial, modify_context_self, removeIfCurrent_context, imp_self]
  | preflightRead c' url hreader =>
      cases hc
      refine .read url (Or.inl rfl) hreader ?_ ?_ ?_ (Or.inl ?_) <;>
        simp only [call_context, modify_context_self]
  | preflightRefused c' url exit hreader =>
      cases hc
      refine .read url (Or.inr ⟨exit, rfl⟩) hreader ?_ ?_ ?_ (Or.inr ⟨exit, ?_⟩) <;>
        simp only [call_context, modify_context_self]
  | readFailed c' err hreader =>
      cases hc
      refine .goesOn ?_ ?_ ?_ (Or.inr (Or.inr (Or.inr (Or.inr ⟨⟨err, true⟩, ?_⟩)))) <;>
        simp only [setReader, modify_context_self]
  -- the reader goes on or gives up
  | readerRegistered c' url hreader hurl =>
      cases hc
      obtain ⟨ctx, stage, htouched, hstage, heq⟩ := readerRegister_context_self n c url
      refine .goesOn ?_ ?_ ?_ ?_ <;> rw [heq]
      · exact htouched.remoteId
      · exact htouched.dialedUrl
      · exact htouched.remoteUrl
      · exact Or.inr (Or.inr (Or.inr hstage))
  | readerDisplaced c' displaced hreader =>
      cases hc
      have htouched := closeDisplaced_touched n displaced c
      refine .goesOn ?_ ?_ ?_ ?_ <;> rw [setReader, modify_context_self]
      · exact htouched.remoteId
      · exact htouched.dialedUrl
      · exact htouched.remoteUrl
      · unfold afterDisplacing
        split
        · exact Or.inr (Or.inl rfl)
        · exact Or.inl rfl
  | returnSent c' hreader hlink =>
      cases hc
      refine .goesOn ?_ ?_ ?_ (Or.inr (Or.inl ?_)) <;> simp only [modify_context_self]
  | returnFailed c' exit hreader =>
      cases hc
      refine .goesOn ?_ ?_ ?_ (Or.inr (Or.inr (Or.inr (Or.inr ⟨exit, ?_⟩)))) <;>
        simp only [setReader, modify_context_self]
  | readerActivated c' url hreader hurl =>
      cases hc
      obtain ⟨lifecycle, stage, hstage, heq⟩ := readerActivate_context_self n c url
      refine .goesOn ?_ ?_ ?_ ?_ <;> rw [heq]
      rcases hstage with hstage | hstage
      · exact Or.inr (Or.inr (Or.inl hstage))
      · exact Or.inr (Or.inr (Or.inr (Or.inr hstage)))
  | dataRead c' url hreader hurl => exact .stays rfl rfl rfl rfl id
  -- the exit of the reader: it gives its slot back, marks the connection, closes it
  | exitRemoved c' exit hreader =>
      cases hc
      unfold exitRemove
      split
      · rename_i hnone
        refine .leaves ?_ ?_ ?_ ?_ (Or.inl ⟨?_, ?_⟩)
        case refine_4 =>
          intro url hurl
          rw [hnone] at hurl
          cases hurl
        all_goals simp only [setReader, close, markClosed, modify_context_self,
          ConnectionState.isLive_markClosed]
      · rename_i url hsome
        refine .leaves ?_ ?_ ?_ ?_ (Or.inr ⟨(n.removeIfCurrent url c).1, exit, ?_⟩)
        case refine_4 =>
          intro url' hurl
          rw [hsome, Option.some.injEq] at hurl
          subst hurl
          exact removeIfCurrent_slots_ne n url c
        all_goals simp only [setReader, modify_context_self, removeIfCurrent_context]
  | exitMarked c' wasActive exit hreader =>
      cases hc
      have hleft : (n.context c).HasLeft := by simp [ConnectionContext.HasLeft, hreader]
      unfold exitMark
      split
      · refine .ends hleft ?_ ?_ ?_ (Or.inl ⟨⟨wasActive, exit, ?_⟩, ?_⟩) <;>
          simp only [setReader, markSuperseded, modify_context_self,
            ConnectionState.isLive_markSuperseded]
      · refine .ends hleft ?_ ?_ ?_ (Or.inl ⟨⟨wasActive, exit, ?_⟩, ?_⟩) <;>
          simp only [setReader, markClosed, modify_context_self,
            ConnectionState.isLive_markClosed]
  | exitFinished c' url wasActive exit hreader hurl =>
      cases hc
      have hleft : (n.context c).HasLeft := by simp [ConnectionContext.HasLeft, hreader]
      obtain ⟨lifecycle, code, reason, hlive, heq⟩ :=
        exitFinish_context_self n c url wasActive exit
      refine .ends hleft ?_ ?_ ?_ (Or.inr ⟨⟨wasActive, exit, hreader⟩, ?_, ?_⟩) <;> rw [heq]
      exact hlive
  | remoteClosed c' code reason hlink =>
      cases hc
      refine .stays ?_ ?_ ?_ ?_ ?_ <;> simp only [modify_context_self, imp_self]
  | connectionLost c' hlink =>
      cases hc
      refine .stays ?_ ?_ ?_ ?_ ?_ <;> simp only [modify_context_self, imp_self]
  | slotTaken c' url hslot => exact .stays rfl rfl rfl rfl id
  | takenClosed c' reason htaken =>
      cases hc
      refine .stays ?_ ?_ ?_ ?_ ?_ <;>
        simp only [disconnect_context, close, markClosed, modify_context_self,
          ConnectionState.isLive_markClosed, implies_true]
  | sendGaveUp url c' => cases hc

/-! ## What the other end can see -/

/-- What a step does to what the remote sees of a connection: a written preflight stays written,
and a closed connection stays closed. -/
inductive WireMove (ctx ctx' : ConnectionContext Id Url Conn) (e : Event Id Url Conn) (c : Conn) :
    Prop
  | born (he : (∃ remoteId url, e = .dialed c remoteId url) ∨ ∃ remoteId, e = .accepted c remoteId)
      (hreader : ctx.reader = .notStarted)
  | same (hwritten : ctx.written = true → ctx'.written = true) (hlink : ctx'.link = ctx.link)
  | closed (hwritten : ctx.written = true → ctx'.written = true) (code : CloseCode)
      (reason : String) (hlink : ctx'.link = ctx.link.close code reason)
  | remoteClosed (hwritten : ctx.written = true → ctx'.written = true) (code : CloseCode)
      (reason : String) (he : e = .remoteClosed c code reason)
      (hlink : ctx'.link = .closedRemotely code reason)
  | lost (hwritten : ctx.written = true → ctx'.written = true) (he : e = .connectionLost c)
      (hlink : ctx'.link = .lost)

omit [DecidableEq Url] [DecidableEq Conn] [LinearOrder Id] in
theorem WireMove.of_touched {ctx ctx' ctx'' : ConnectionContext Id Url Conn}
    {e : Event Id Url Conn} {c : Conn} (h : ctx.Touched ctx') (hwritten : ctx''.written = ctx'.written)
    (hlink : ctx''.link = ctx'.link) : WireMove ctx ctx'' e c := by
  have hkept : ctx.written = true → ctx''.written = true := by
    rw [hwritten, h.same]
    exact id
  rcases h.link with heq | heq
  · exact .same hkept (hlink.trans heq)
  · exact .closed hkept _ _ (hlink.trans heq)

theorem Step.wireMove {n n' : Node Id Url Conn} {e : Event Id Url Conn} (h : Step n e n')
    (c : Conn) : WireMove (n.context c) (n'.context c) e c := by
  by_cases hc : e.conn = some c
  case neg => exact .of_touched (h.touched_of_ne hc) rfl rfl
  cases h with
  | dialed c' remoteId url hreader =>
      cases hc
      exact .born (Or.inl ⟨remoteId, url, rfl⟩) hreader
  | accepted c' remoteId hreader =>
      cases hc
      exact .born (Or.inr ⟨remoteId, rfl⟩) hreader
  | dialRegistered c' url hdial hurl =>
      cases hc
      obtain ⟨ctx, stage, htouched, -, heq⟩ := dialRegister_context_self n c url
      rw [heq]
      exact .of_touched htouched rfl rfl
  | dialRejected c' hdial =>
      cases hc
      simp only [setDial, close, markSuperseded, modify_context_self]
      exact .closed id _ _ rfl
  | dialDisplaced c' displaced hdial =>
      cases hc
      rw [setDial, modify_context_self]
      exact .of_touched (closeDisplaced_touched n displaced c) rfl rfl
  | dialWritten c' hdial hlink =>
      cases hc
      rw [modify_context_self]
      exact .same (fun _ => rfl) rfl
  | dialWriteFailed c' url err hdial hurl =>
      cases hc
      unfold dialWriteFail
      split
      · rw [setDial, modify_context_self]
        exact .same id rfl
      · rw [setDial, modify_context_self]
        exact .same id rfl
  | dialFailedClosed c' err hdial =>
      cases hc
      simp only [setDial, close, markClosed, modify_context_self]
      exact .closed id _ _ rfl
  | dialFailedRemoved c' url hdial hurl =>
      cases hc
      rw [setDial, modify_context_self, removeIfCurrent_context]
      exact .same id rfl
  | preflightRead c' url hreader =>
      cases hc
      rw [call_context, modify_context_self]
      exact .same id rfl
  | preflightRefused c' url exit hreader =>
      cases hc
      rw [call_context, modify_context_self]
      exact .same id rfl
  | readFailed c' err hreader =>
      cases hc
      rw [setReader, modify_context_self]
      exact .same id rfl
  | readerRegistered c' url hreader hurl =>
      cases hc
      obtain ⟨ctx, stage, htouched, -, heq⟩ := readerRegister_context_self n c url
      rw [heq]
      exact .of_touched htouched rfl rfl
  | readerDisplaced c' displaced hreader =>
      cases hc
      rw [setReader, modify_context_self]
      exact .of_touched (closeDisplaced_touched n displaced c) rfl rfl
  | returnSent c' hreader hlink =>
      cases hc
      rw [modify_context_self]
      exact .same (fun _ => rfl) rfl
  | returnFailed c' exit hreader =>
      cases hc
      rw [setReader, modify_context_self]
      exact .same id rfl
  | readerActivated c' url hreader hurl =>
      cases hc
      obtain ⟨lifecycle, stage, -, heq⟩ := readerActivate_context_self n c url
      rw [heq]
      exact .same id rfl
  | dataRead c' url hreader hurl => exact .same id rfl
  | exitRemoved c' exit hreader =>
      cases hc
      unfold exitRemove
      split
      · simp only [setReader, close, markClosed, modify_context_self]
        exact .closed id _ _ rfl
      · simp only [setReader, modify_context_self, removeIfCurrent_context]
        exact .same id rfl
  | exitMarked c' wasActive exit hreader =>
      cases hc
      unfold exitMark
      split
      · simp only [setReader, markSuperseded, modify_context_self]
        exact .same id rfl
      · simp only [setReader, markClosed, modify_context_self]
        exact .same id rfl
  -- an exit closes the link, unless it is closed already
  | exitFinished c' url wasActive exit hreader hurl =>
      cases hc
      obtain ⟨lifecycle, code, reason, -, heq⟩ := exitFinish_context_self n c url wasActive exit
      rw [heq]
      exact .closed id code reason rfl
  | remoteClosed c' code reason hlink =>
      cases hc
      rw [modify_context_self]
      exact .remoteClosed id code reason rfl rfl
  | connectionLost c' hlink =>
      cases hc
      rw [modify_context_self]
      exact .lost id rfl rfl
  | slotTaken c' url hslot => exact .same id rfl
  | takenClosed c' reason htaken =>
      cases hc
      simp only [disconnect_context, close, markClosed, modify_context_self]
      exact .closed id _ _ rfl
  | sendGaveUp url c' => cases hc

end Registry

end Node

end Transport
end Kitsune2
