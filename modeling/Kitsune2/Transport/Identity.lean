import Mathlib.Data.Nat.Basic
import Kitsune2.Transport.Steps

/-!
# Identity — whose data a peer URL stands for

iroh authenticates the endpoint id of a connection.  The peer URL under which its frames are handed
on, and whose slot it claims, comes from the remote's own preflight.  When every preflight names a
URL of the authenticated endpoint, every frame and every slot is bound to that endpoint.
-/

namespace Kitsune2
namespace Transport

variable {Id Url Conn : Type} [DecidableEq Url] [DecidableEq Conn] [LinearOrder Id]

namespace Node

/-- What iroh promises of a dial: the connection is to the endpoint the URL names. -/
def DialAuthentic (peerId : Url → Option Id) (_ : Node Id Url Conn) : Event Id Url Conn → Prop
  | .dialed _ remoteId url => peerId url = some remoteId
  | _ => True

/-- The preflight, if the step reads one, names a URL of the connection's endpoint. -/
def Named (peerId : Url → Option Id) (n : Node Id Url Conn) : Event Id Url Conn → Prop
  | .preflightRead c url => peerId url = some (n.context c).remoteId
  | .preflightRefused c url _ => peerId url = some (n.context c).remoteId
  | _ => True

/-- Every frame handed on under a URL, and every slot, belongs to the endpoint of that URL. -/
structure Bound (peerId : Url → Option Id) (n : Node Id Url Conn) : Prop where
  frames : ∀ c url, HandlerCall.recvData c url ∈ n.calls →
    peerId url = some (n.context c).remoteId
  slots : ∀ url c, n.slots url = some c → peerId url = some (n.context c).remoteId

/-! ## Frames -/

omit [DecidableEq Url] [LinearOrder Id] in
theorem recvData_mem_disconnect {n : Node Id Url Conn} {c c' : Conn} {code : CloseCode}
    {reason : String} {url : Url}
    (h : HandlerCall.recvData c' url ∈ (n.disconnect c code reason).calls) :
    HandlerCall.recvData c' url ∈ n.calls := by
  unfold disconnect at h
  simp only at h
  split at h
  · exact h
  · simpa [close, markClosed] using h

/-- A frame is handed on when a preflight or a data frame is read, under the URL that was read or
that the connection had. -/
theorem Step.recvData {n n' : Node Id Url Conn} {e : Event Id Url Conn} (h : Step n e n') {c : Conn}
    {url : Url} (hcall : HandlerCall.recvData c url ∈ n'.calls) :
    HandlerCall.recvData c url ∈ n.calls ∨ e = .preflightRead c url ∨
      (∃ exit, e = .preflightRefused c url exit) ∨
        e = .dataRead c url ∧ (n.context c).remoteUrl = some url := by
  cases h with
  -- the steps that hand something to the handler
  | preflightRead c' url' hreader =>
      simp only [call_calls, modify_calls, List.mem_append, List.mem_singleton] at hcall
      rcases hcall with hcall | hcall
      · exact Or.inl hcall
      · cases hcall
        exact Or.inr (Or.inl rfl)
  | preflightRefused c' url' exit hreader =>
      simp only [call_calls, modify_calls, List.mem_append, List.mem_singleton] at hcall
      rcases hcall with hcall | hcall
      · exact Or.inl hcall
      · cases hcall
        exact Or.inr (Or.inr (Or.inl ⟨exit, rfl⟩))
  | dataRead c' url' hreader hurl =>
      simp only [call_calls, List.mem_append, List.mem_singleton] at hcall
      rcases hcall with hcall | hcall
      · exact Or.inl hcall
      · cases hcall
        exact Or.inr (Or.inr (Or.inr ⟨rfl, hurl⟩))
  -- the others record no recv_data call
  | dialRegistered c' url' hdial hurl =>
      refine Or.inl ?_
      unfold dialRegister at hcall
      simp only at hcall
      rw [← (registerCandidate_verdict n url' c').calls]
      split at hcall <;> exact hcall
  | readerRegistered c' url' hreader hurl =>
      refine Or.inl ?_
      unfold readerRegister at hcall
      simp only at hcall
      rw [← (registerCandidate_verdict n url' c').calls]
      split at hcall <;> exact hcall
  | dialDisplaced c' displaced hdial =>
      simp only [setDial, modify_calls, closeDisplaced_calls] at hcall
      exact Or.inl hcall
  | readerDisplaced c' displaced hreader =>
      simp only [setReader, modify_calls, closeDisplaced_calls] at hcall
      exact Or.inl hcall
  | dialWriteFailed c' url' err hdial hurl =>
      unfold dialWriteFail at hcall
      split at hcall
      · exact Or.inl hcall
      · simp only [setDial, modify_calls, call_calls, List.mem_append, List.mem_singleton,
          reduceCtorEq, or_false] at hcall
        exact Or.inl hcall
  | dialFailedRemoved c' url' hdial hurl =>
      simp only [setDial, modify_calls, removeIfCurrent_calls] at hcall
      exact Or.inl hcall
  | readerActivated c' url' hreader hurl =>
      unfold readerActivate at hcall
      simp only at hcall
      split at hcall
      · simp only [setReader, modify_calls, activate_calls] at hcall
        exact Or.inl hcall
      · simp only [setReader, modify_calls, activate_calls] at hcall
        exact Or.inl hcall
  | exitRemoved c' exit hreader =>
      unfold exitRemove at hcall
      split at hcall
      · exact Or.inl hcall
      · simp only [setReader, modify_calls, removeIfCurrent_calls] at hcall
        exact Or.inl hcall
  | exitMarked c' wasActive exit hreader =>
      unfold exitMark at hcall
      split at hcall <;> exact Or.inl hcall
  | exitFinished c' url' wasActive exit hreader hurl =>
      unfold exitFinish at hcall
      simp only at hcall
      split at hcall
      · exact Or.inl (recvData_mem_disconnect hcall)
      · refine Or.inl ?_
        have hcall' := recvData_mem_disconnect hcall
        split at hcall'
        · simpa using hcall'
        · exact hcall'
      · exact Or.inl hcall
      · exact Or.inl hcall
  | takenClosed c' reason htaken => exact Or.inl (recvData_mem_disconnect hcall)
  | sendGaveUp url' c' =>
      simp only [removeIfCurrent_calls] at hcall
      exact Or.inl hcall
  | _ => exact Or.inl hcall

/-! ## The invariant -/

/-- A connection's URLs name the endpoint iroh has authenticated. -/
structure Identified (peerId : Url → Option Id) (n : Node Id Url Conn) : Prop where
  dialed : ∀ c url, (n.context c).dialedUrl = some url → peerId url = some (n.context c).remoteId
  remote : ∀ c url, (n.context c).remoteUrl = some url → peerId url = some (n.context c).remoteId
  /-- Nothing refers to a connection that does not exist yet. -/
  unborn : ∀ c, (n.context c).reader = .notStarted → (n.context c).dialedUrl = none ∧
    (∀ url, n.slots url ≠ some c) ∧ ∀ url, HandlerCall.recvData c url ∉ n.calls
  bound : n.Bound peerId

omit [DecidableEq Url] [DecidableEq Conn] [LinearOrder Id] in
theorem identified_initial (peerId : Url → Option Id) (localId : Id) :
    Identified peerId (initial localId : Node Id Url Conn) where
  dialed := by
    intro c url h
    cases h
  remote := by
    intro c url h
    cases h
  unborn := by
    intro c _
    refine ⟨rfl, ?_, ?_⟩
    · intro url h
      cases h
    · intro url h
      cases h
  bound := by
    refine ⟨?_, ?_⟩
    · intro c url h
      cases h
    · intro url c h
      cases h

variable {peerId : Url → Option Id} {n n' : Node Id Url Conn} {e : Event Id Url Conn}

/-- A connection that exists goes on existing, with the same endpoint. -/
theorem Step.born (hstep : Step n e n') {c : Conn} (hborn : (n.context c).reader ≠ .notStarted) :
    (n'.context c).reader ≠ .notStarted ∧ (n'.context c).remoteId = (n.context c).remoteId := by
  by_cases hc : e.conn = some c
  case neg =>
    have htouched := hstep.touched_of_ne hc
    exact ⟨htouched.reader ▸ hborn, htouched.remoteId⟩
  cases hstep.readerMove hc with
  | dialed remoteId url he hreader hcontext => exact absurd hreader hborn
  | accepted remoteId he hreader hcontext => exact absurd hreader hborn
  | stays hid hdialed hremote hreader hlive => exact ⟨hreader ▸ hborn, hid⟩
  | read url he hreader hid hdialed hremote hreader' =>
      refine ⟨?_, hid⟩
      rcases hreader' with hr | ⟨exit, hr⟩ <;> simp [hr]
  | goesOn hid hdialed hremote hreader =>
      refine ⟨?_, hid⟩
      rcases hreader with hr | hr | hr | ⟨d, hr⟩ | ⟨exit, hr⟩ <;> simp [hr]
  | leaves hid hdialed hremote hslot hreader =>
      refine ⟨?_, hid⟩
      rcases hreader with ⟨hr, -⟩ | ⟨wasActive, exit, hr⟩ <;> simp [hr]
  | ends hleft hid hdialed hremote hreader =>
      refine ⟨?_, hid⟩
      rcases hreader with ⟨⟨wasActive, exit, hr⟩, -⟩ | ⟨-, hr, -⟩ <;> simp [hr]

/-- What registers for a slot exists, and the slot's URL is one of its own. -/
theorem Identified.registered (h : n.Identified peerId) (hstep : Step n e n') {url : Url} {c : Conn}
    (he : e = .dialRegistered c url ∨ e = .readerRegistered c url) :
    (n.context c).reader ≠ .notStarted ∧ peerId url = some (n.context c).remoteId := by
  rcases he with rfl | rfl
  · cases hstep with
    | dialRegistered _ _ hdial hurl =>
        refine ⟨?_, h.dialed c url hurl⟩
        intro hreader
        rw [(h.unborn c hreader).1] at hurl
        cases hurl
  · cases hstep with
    | readerRegistered _ _ hreader hurl =>
        exact ⟨by simp [hreader], h.remote c url hurl⟩

/-- Whose frame a step hands on: the connection exists and the URL is its endpoint's. -/
theorem Identified.handedOn (h : n.Identified peerId) (hstep : Step n e n') (hnamed : n.Named peerId e)
    {c : Conn} {url : Url} (hcall : HandlerCall.recvData c url ∈ n'.calls) :
    (n.context c).reader ≠ .notStarted ∧ peerId url = some (n.context c).remoteId := by
  rcases hstep.recvData hcall with hold | rfl | ⟨exit, rfl⟩ | ⟨rfl, hurl⟩
  · refine ⟨?_, h.bound.frames c url hold⟩
    intro hreader
    exact (h.unborn c hreader).2.2 url hold
  · cases hstep with
    | preflightRead _ _ hreader => exact ⟨by simp [hreader], hnamed⟩
  · cases hstep with
    | preflightRefused _ _ _ hreader => exact ⟨by simp [hreader], hnamed⟩
  · cases hstep with
    | dataRead _ _ hreader _ => exact ⟨by simp [hreader], h.remote c url hurl⟩

/-- The URLs of a connection go on naming its endpoint. -/
theorem Identified.urls_step (h : n.Identified peerId) (hstep : Step n e n')
    (hauthentic : n.DialAuthentic peerId e) (hnamed : n.Named peerId e) (c : Conn) (url : Url) :
    ((n'.context c).dialedUrl = some url → peerId url = some (n'.context c).remoteId) ∧
      ((n'.context c).remoteUrl = some url → peerId url = some (n'.context c).remoteId) := by
  have hold := h.dialed c url
  have hold' := h.remote c url
  by_cases hc : e.conn = some c
  -- another connection keeps its URLs and its id
  case neg =>
    have htouched := hstep.touched_of_ne hc
    rw [htouched.dialedUrl, htouched.remoteUrl, htouched.remoteId]
    exact ⟨hold, hold'⟩
  cases hstep.readerMove hc with
  | dialed remoteId url' he hreader hcontext =>
      subst he
      rw [hcontext]
      refine ⟨?_, ?_⟩
      · intro hurl
        cases hurl
        exact hauthentic
      · intro hurl
        cases hurl
        exact hauthentic
  | accepted remoteId he hreader hcontext =>
      rw [hcontext]
      refine ⟨?_, ?_⟩
      · intro hurl
        cases hurl
      · intro hurl
        cases hurl
  | stays hid hdialed hremote hreader hlive =>
      rw [hid, hdialed, hremote]
      exact ⟨hold, hold'⟩
  -- the URL is the one the peer claims in its preflight
  | read url' he hreader hid hdialed hremote hreader' =>
      rw [hid, hdialed, hremote]
      refine ⟨hold, ?_⟩
      intro hurl
      cases hurl
      rcases he with rfl | ⟨exit, rfl⟩
      · exact hnamed
      · exact hnamed
  | goesOn hid hdialed hremote hreader =>
      rw [hid, hdialed, hremote]
      exact ⟨hold, hold'⟩
  | leaves hid hdialed hremote hslot hreader =>
      rw [hid, hdialed, hremote]
      exact ⟨hold, hold'⟩
  | ends hleft hid hdialed hremote hreader =>
      rw [hid, hdialed, hremote]
      exact ⟨hold, hold'⟩

theorem Identified.unborn_step (h : n.Identified peerId) (hstep : Step n e n')
    (hnamed : n.Named peerId e) {c : Conn} (hreader' : (n'.context c).reader = .notStarted) :
    (n'.context c).dialedUrl = none ∧ (∀ url, n'.slots url ≠ some c) ∧
      ∀ url, HandlerCall.recvData c url ∉ n'.calls := by
  have hreader : (n.context c).reader = .notStarted := by
    by_contra hborn
    exact (hstep.born hborn).1 hreader'
  obtain ⟨hdialedUrl, hslots, -⟩ := h.unborn c hreader
  -- a connection that is not born has done nothing that could bind it
  refine ⟨?_, ?_, ?_⟩
  · by_cases hc : e.conn = some c
    case neg => rw [(hstep.touched_of_ne hc).dialedUrl, hdialedUrl]
    cases hstep.readerMove hc with
    | stays hid hdialed hremote hreader hlive => rw [hdialed, hdialedUrl]
    | dialed remoteId url he hreader hcontext =>
        rw [hcontext] at hreader'
        cases hreader'
    | accepted remoteId he hreader hcontext =>
        rw [hcontext]
        rfl
    | read url he hreader hid hdialed hremote hreader' => rw [hdialed, hdialedUrl]
    | goesOn hid hdialed hremote hreader => rw [hdialed, hdialedUrl]
    | leaves hid hdialed hremote hslot hreader => rw [hdialed, hdialedUrl]
    | ends hleft hid hdialed hremote hreader => rw [hdialed, hdialedUrl]
  · intro url hslot
    rcases hstep.slots hslot with hold | ⟨he, -⟩
    · exact hslots url hold
    · exact (h.registered hstep he).1 hreader
  · intro url hcall
    exact (h.handedOn hstep hnamed hcall).1 hreader

theorem Identified.bound_step (h : n.Identified peerId) (hstep : Step n e n')
    (hnamed : n.Named peerId e) : n'.Bound peerId where
  frames := by
    intro c url hcall
    obtain ⟨hborn, hurl⟩ := h.handedOn hstep hnamed hcall
    rw [(hstep.born hborn).2, hurl]
  slots := by
    intro url c hslot
    rcases hstep.slots hslot with hold | ⟨he, -⟩
    · have hborn : (n.context c).reader ≠ .notStarted :=
        fun hreader => (h.unborn c hreader).2.1 url hold
      rw [(hstep.born hborn).2, h.bound.slots url c hold]
    · obtain ⟨hborn, hurl⟩ := h.registered hstep he
      rw [(hstep.born hborn).2, hurl]

theorem Identified.step (h : n.Identified peerId) (hstep : Step n e n')
    (hauthentic : n.DialAuthentic peerId e) (hnamed : n.Named peerId e) :
    n'.Identified peerId where
  dialed := fun c url => (h.urls_step hstep hauthentic hnamed c url).1
  remote := fun c url => (h.urls_step hstep hauthentic hnamed c url).2
  unborn := fun _ hreader => h.unborn_step hstep hnamed hreader
  bound := h.bound_step hstep hnamed

/-- When iroh's dials are authentic and every preflight names a URL of the connection's endpoint,
frames and slots are bound to the endpoint of their URL throughout the run. -/
theorem bound_of_named {localId : Id}
    (h : RunWhere (fun n e => n.DialAuthentic peerId e ∧ n.Named peerId e) localId n) :
    n.Bound peerId := by
  have hidentified : n.Identified peerId := by
    induction h with
    | initial => exact identified_initial peerId localId
    | step _ hstep hok ih => exact ih.step hstep hok.1 hok.2
  exact hidentified.bound

end Node

/-! ## A preflight under another endpoint's URL -/

section Impersonation

open Node

/-- The peer id of URL `u` is endpoint `u`. -/
private def ownId (url : Nat) : Option Nat := some url

/-- Endpoint `7` connects, announces its own URL and its data is handed on. -/
theorem named_peer_bound :
    ∃ n : Node Nat Nat Nat,
      RunWhere (fun n e => n.DialAuthentic ownId e ∧ n.Named ownId e) 5 n ∧
        HandlerCall.recvData 0 7 ∈ n.calls ∧ n.slots 7 = some 0 ∧ n.Bound ownId := by
  have hinitial : RunWhere (fun n e => n.DialAuthentic ownId e ∧ n.Named ownId e) 5
      (Node.initial 5 : Node Nat Nat Nat) := .initial
  have haccepted := hinitial.step (.accepted 0 7 rfl) ⟨trivial, trivial⟩
  have hread := haccepted.step (.preflightRead 0 7 rfl) ⟨trivial, rfl⟩
  have hregistered := hread.step (.readerRegistered 0 7 rfl rfl) ⟨trivial, trivial⟩
  exact ⟨_, hregistered, by decide, rfl, bound_of_named hregistered⟩

/-- Endpoint `7` connects and announces the URL of endpoint `1`: its frames are handed on as those
of endpoint `1`, and it takes the slot of endpoint `1`. -/
theorem impersonated_peer :
    ¬ ∀ n : Node Nat Nat Nat, RunWhere (fun n e => n.DialAuthentic ownId e) 5 n →
      n.Bound ownId := by
  intro h
  have hinitial : RunWhere (fun n e => n.DialAuthentic ownId e) 5
      (Node.initial 5 : Node Nat Nat Nat) := .initial
  have haccepted := hinitial.step (.accepted 0 7 rfl) trivial
  have hread := haccepted.step (.preflightRead 0 1 rfl) trivial
  have hbound := (h _ hread).frames 0 1 (by decide)
  revert hbound
  decide

end Impersonation

end Transport
end Kitsune2
