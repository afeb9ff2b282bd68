import Mathlib.Data.List.AList
import Kitsune2.Api.Basic
import Kitsune2.Lib.Retain
import Kitsune2.Lib.Runs

/-!
# Fetch — requests for ops and the listeners for an empty queue

`CoreFetch` keeps the requests that are pending under one lock.  Calls of `request_ops` add them, the
outgoing request tasks send them to peers, and the incoming response task removes those whose ops are
stored.  A step here is what one of these does between two points where others can run: a lock that
it takes, a channel, or the answer of the op store, the peer meta store or the transport.

Only some of the places that remove requests tell the listeners that wait for none to be pending.
-/

namespace Kitsune2
namespace Core

open Api Lib

variable {OpId Url : Type} [DecidableEq OpId]

/-! ## State -/

structure PublishOp (OpId : Type) where
  opId : OpId
  metadata : Option Bytes
  deriving DecidableEq

/-- An op as a peer sends it. -/
structure Op (OpId : Type) where
  opId : OpId
  data : Bytes
  deriving DecidableEq

/-- An op as it goes to the op store. -/
structure IncomingOp (OpId : Type) where
  opId : OpId
  opData : Bytes
  metadata : Option Bytes
  deriving DecidableEq

/-- A call of `request_ops`. -/
inductive RequestCall (OpId Url : Type) where
  /-- The op store filters out the ops it has. -/
  | filtering (metadata : AList fun _ : OpId => Option Bytes) (source : Url)
  /-- The requests are in the state; these are not in the queue yet. -/
  | queueing (opIds : List OpId) (source : Url)
  | ended
  deriving DecidableEq

/-- An `outgoing_request_task`. -/
inductive RequestTask (OpId Url : Type) where
  | idle
  /-- The peer meta store is asked whether the peer is unresponsive. -/
  | asking (opId : OpId) (peer : Url)
  /-- Next the task looks whether the request is still pending. -/
  | checking (opId : OpId) (peer : Url)
  | sending (opId : OpId) (peer : Url)
  /-- The transport is gone. -/
  | stopped
  deriving DecidableEq

/-- The `incoming_response_task`. -/
inductive ResponseTask (OpId Url : Type) where
  | idle
  /-- The op store processes the ops. -/
  | processing (ops : List (Op OpId)) (peer : Url) (incoming : List (IncomingOp OpId))
  deriving DecidableEq

/-- The fetch state, the channels and the tasks.  A listener is the number of its registration. -/
structure CoreFetch (OpId Url : Type) where
  requests : AList fun _ : OpId × Url => Option Bytes
  notifyWhenDrainedSenders : List Nat
  notified : List Nat
  listeners : Nat
  outgoingRequests : List (OpId × Url)
  incomingResponses : List (List (Op OpId) × Url)
  calls : List (RequestCall OpId Url)
  requestTasks : List (RequestTask OpId Url)
  responseTask : ResponseTask OpId Url
  /-- What `fetched_op` of the report module is told. -/
  reports : List (Url × OpId × Nat)

/-- The capacity of each channel. -/
def channelCapacity : Nat := 16384

namespace CoreFetch

variable [DecidableEq Url]

/-- `CoreFetch::new` with its tasks spawned; the count of request tasks is a `u8` of the
configuration. -/
def new (parallelRequestCount : UInt8) : CoreFetch OpId Url where
  requests := ∅
  notifyWhenDrainedSenders := []
  notified := []
  listeners := 0
  outgoingRequests := []
  incomingResponses := []
  calls := []
  requestTasks := List.replicate parallelRequestCount.toNat .idle
  responseTask := .idle
  reports := []

/-! ## Steps -/

/-- No request is pending. -/
def drained (s : CoreFetch OpId Url) : Bool :=
  s.requests.entries.isEmpty

/-- `notify_listeners_if_queue_drained`. -/
def notifyListenersIfQueueDrained (s : CoreFetch OpId Url) : CoreFetch OpId Url :=
  if s.drained then
    { s with
      notifyWhenDrainedSenders := []
      notified := s.notified ++ s.notifyWhenDrainedSenders }
  else s

/-- `notify_on_drained`. -/
def notifyOnDrained (s : CoreFetch OpId Url) : CoreFetch OpId Url :=
  if s.drained then
    { s with notified := s.notified ++ [s.listeners], listeners := s.listeners + 1 }
  else
    { s with
      notifyWhenDrainedSenders := s.notifyWhenDrainedSenders ++ [s.listeners]
      listeners := s.listeners + 1 }

/-- `request_ops` up to the question to the op store: of two ops with one id the last one's metadata
counts. -/
def requestOps (s : CoreFetch OpId Url) (ops : List (PublishOp OpId)) (source : Url) :
    CoreFetch OpId Url :=
  { s with
    calls := s.calls ++
      [.filtering (ops.foldl (fun m op => m.insert op.opId op.metadata) ∅) source] }

/-- One request added to the state: metadata is added where there is none, never replaced. -/
def addRequest (source : Url)
    (acc : (AList fun _ : OpId => Option Bytes) × AList fun _ : OpId × Url => Option Bytes)
    (opId : OpId) :
    (AList fun _ : OpId => Option Bytes) × AList fun _ : OpId × Url => Option Bytes :=
  let metadata := (acc.1.lookup opId).join
  match (acc.2.lookup (opId, source)).join with
  | some _ => (acc.1.erase opId, acc.2)
  | none => (acc.1.erase opId, acc.2.insert (opId, source) metadata)

/-- Every request task has ended, and with them the receiver of the queue. -/
def queueClosed (s : CoreFetch OpId Url) : Bool :=
  s.requestTasks.all fun t => t = .stopped

/-- The op store answers the call: an error ends it, else the requests are added. -/
def filtered (s : CoreFetch OpId Url) (answer : Option (List OpId)) :
    RequestCall OpId Url → RequestCall OpId Url × CoreFetch OpId Url
  | .filtering metadata source =>
      match answer with
      | none => (.ended, s)
      | some newOpIds =>
          (.queueing newOpIds source,
            { s with
              requests := (newOpIds.foldl (addRequest source) (metadata, s.requests)).2 })
  | c => (c, s)

/-- The call puts its next request into the queue, or waits while that is full. -/
def queue (s : CoreFetch OpId Url) :
    RequestCall OpId Url → RequestCall OpId Url × CoreFetch OpId Url
  | .queueing [] _ => (.ended, s)
  | .queueing (opId :: opIds) source =>
      if s.queueClosed then
        (.queueing opIds source,
          notifyListenersIfQueueDrained { s with requests := s.requests.erase (opId, source) })
      else if s.outgoingRequests.length < channelCapacity then
        (.queueing opIds source,
          { s with outgoingRequests := s.outgoingRequests ++ [(opId, source)] })
      else (.queueing (opId :: opIds) source, s)
  | c => (c, s)

/-- The answers an outgoing request task gets: whether the transport is still there, whether the peer
is unresponsive (no answer when the store fails), whether the message was sent. -/
inductive TaskAnswer where
  | upgraded (present : Bool)
  | unresponsive (answer : Option Bool)
  | locked
  | sent (ok : Bool)
  deriving DecidableEq

/-- The next step of an `outgoing_request_task`. -/
def advanceTask (s : CoreFetch OpId Url) :
    RequestTask OpId Url → TaskAnswer → RequestTask OpId Url × CoreFetch OpId Url
  | .idle, .upgraded present =>
      match s.outgoingRequests with
      | [] => (.idle, s)
      | (opId, peer) :: rest =>
          (if present then .asking opId peer else .stopped, { s with outgoingRequests := rest })
  -- a failed query counts as a responsive peer
  | .asking opId peer, .unresponsive answer =>
      if answer.getD false then
        (.checking opId peer, { s with requests := s.requests.erase (opId, peer) })
      else (.checking opId peer, s)
  | .checking opId peer, .locked =>
      -- also where the request was answered while this task was on its way
      if (opId, peer) ∈ s.requests then (.sending opId peer, s)
      -- a failed send drops every request to the peer, not only this one
      else (.idle, s.notifyListenersIfQueueDrained)
  | .sending _ peer, .sent ok =>
      if ok then (.idle, s)
      else
        (.idle,
          notifyListenersIfQueueDrained
            { s with requests := retain (fun r _ => r.2 ≠ peer) s.requests })
  | t, _ => (t, s)

/-- `recv_module_msg` with a response: a full queue drops it. -/
def respond (s : CoreFetch OpId Url) (ops : List (Op OpId)) (peer : Url) : CoreFetch OpId Url :=
  if s.incomingResponses.length < channelCapacity then
    { s with incomingResponses := s.incomingResponses ++ [(ops, peer)] }
  else s

/-- The op with the metadata that its request came with. -/
def incomingOp (s : CoreFetch OpId Url) (peer : Url) (op : Op OpId) : IncomingOp OpId where
  opId := op.opId
  opData := op.data
  metadata := (s.requests.lookup (op.opId, peer)).join

/-- The `incoming_response_task` takes a response. -/
def receiveResponse (s : CoreFetch OpId Url) : CoreFetch OpId Url :=
  match s.responseTask, s.incomingResponses with
  | .idle, (ops, peer) :: rest =>
      { s with
        incomingResponses := rest
        responseTask := .processing ops peer (ops.map (s.incomingOp peer)) }
  | _, _ => s

/-- The requests that stay when the op store has processed some ops. -/
def unprocessed (s : CoreFetch OpId Url) (processed : List OpId) :
    AList fun _ : OpId × Url => Option Bytes :=
  retain (fun r _ => r.1 ∉ processed) s.requests

/-- The op store answers the `incoming_response_task`; no listener is told. -/
def processed (s : CoreFetch OpId Url) (answer : Option (List OpId)) : CoreFetch OpId Url :=
  match s.responseTask with
  | .idle => s
  | .processing ops peer _ =>
      match answer with
      | none => { s with responseTask := .idle }
      | some opIds =>
          { s with
            reports := s.reports ++
              (opIds.zip ops).map fun p => (peer, p.1, p.2.data.length)
            requests := s.unprocessed opIds
            responseTask := .idle }

end CoreFetch

/-- What can happen next. -/
inductive FetchEvent (OpId Url : Type) where
  | requestOps (ops : List (PublishOp OpId)) (source : Url)
  | notifyOnDrained
  | filtered (i : Nat) (answer : Option (List OpId))
  | queue (i : Nat)
  | advanceTask (i : Nat) (answer : CoreFetch.TaskAnswer)
  | respond (ops : List (Op OpId)) (peer : Url)
  | receiveResponse
  | processed (answer : Option (List OpId))

namespace CoreFetch

variable [DecidableEq Url]

def step (s : CoreFetch OpId Url) : FetchEvent OpId Url → CoreFetch OpId Url
  | .requestOps ops source => s.requestOps ops source
  | .notifyOnDrained => s.notifyOnDrained
  | .filtered i answer =>
      match s.calls[i]? with
      | none => s
      | some c => { (s.filtered answer c).2 with calls := s.calls.set i (s.filtered answer c).1 }
  | .queue i =>
      match s.calls[i]? with
      | none => s
      | some c => { (s.queue c).2 with calls := s.calls.set i (s.queue c).1 }
  | .advanceTask i answer =>
      match s.requestTasks[i]? with
      | none => s
      | some t =>
          { (s.advanceTask t answer).2 with
            requestTasks := s.requestTasks.set i (s.advanceTask t answer).1 }
  | .respond ops peer => s.respond ops peer
  | .receiveResponse => s.receiveResponse
  | .processed answer => s.processed answer

attribute [local simp] advanceTask

/-- The state after a run. -/
def run (parallelRequestCount : UInt8) (events : List (FetchEvent OpId Url)) : CoreFetch OpId Url :=
  events.foldl step (new parallelRequestCount)

end CoreFetch

/-! ## Who is told -/

namespace RequestTask

/-- The task has yet to look whether its request is pending, and tells the listeners if none is. -/
def checks : RequestTask OpId Url → Bool
  | .asking _ _ => true
  | .checking _ _ => true
  | _ => false

/-- The task waits for the queue, or has ended. -/
def waits : RequestTask OpId Url → Bool
  | .idle => true
  | .stopped => true
  | _ => false

omit [DecidableEq OpId] in
theorem not_checks_of_waits {t : RequestTask OpId Url} (h : t.waits = true) : t.checks = false := by
  cases t with
  | idle => rfl
  | stopped => rfl
  | _ => cases h

end RequestTask

namespace CoreFetch

/-- Some outgoing request task has yet to look whether a request is pending. -/
def Checks (s : CoreFetch OpId Url) : Prop :=
  ∃ t ∈ s.requestTasks, t.checks = true

instance Checks.decidable (s : CoreFetch OpId Url) : Decidable s.Checks :=
  inferInstanceAs (Decidable (∃ t ∈ s.requestTasks, t.checks = true))

/-- When nothing is pending, no listener waits or a task will tell the listeners. -/
def Told (s : CoreFetch OpId Url) : Prop :=
  s.drained = true → s.notifyWhenDrainedSenders = [] ∨ s.Checks

/-- Processed ops remove the last requests only while no listener waits, or while an outgoing request
task has yet to look whether its request is pending. -/
def LastIsSeen (s : CoreFetch OpId Url) : FetchEvent OpId Url → Prop
  | .processed (some opIds) =>
      (s.unprocessed opIds).entries.isEmpty = true → s.notifyWhenDrainedSenders = [] ∨ s.Checks
  | _ => True

instance LastIsSeen.decidable (s : CoreFetch OpId Url) :
    ∀ e : FetchEvent OpId Url, Decidable (s.LastIsSeen e)
  | .processed (some opIds) =>
      inferInstanceAs (Decidable ((s.unprocessed opIds).entries.isEmpty = true →
        s.notifyWhenDrainedSenders = [] ∨ s.Checks))
  | .processed none => .isTrue trivial
  | .requestOps _ _ => .isTrue trivial
  | .notifyOnDrained => .isTrue trivial
  | .filtered _ _ => .isTrue trivial
  | .queue _ => .isTrue trivial
  | .advanceTask _ _ => .isTrue trivial
  | .respond _ _ => .isTrue trivial
  | .receiveResponse => .isTrue trivial

variable {s s' : CoreFetch OpId Url}

omit [DecidableEq OpId] in
theorem drained_iff : s.drained = true ↔ ∀ r, r ∉ s.requests := by
  unfold drained
  rw [List.isEmpty_iff]
  constructor
  · intro hempty r hr
    rw [AList.mem_keys, AList.keys, hempty] at hr
    cases hr
  · intro hnone
    refine List.eq_nil_iff_forall_not_mem.mpr fun e he => ?_
    exact hnone e.1 (AList.mem_keys.mpr (List.mem_map.mpr ⟨e, he, rfl⟩))

omit [DecidableEq OpId] in
theorem notify_senders (h : s.notifyListenersIfQueueDrained.drained = true) :
    s.notifyListenersIfQueueDrained.notifyWhenDrainedSenders = [] := by
  unfold notifyListenersIfQueueDrained at h ⊢
  split
  · rfl
  · rename_i hfull
    rw [if_neg hfull] at h
    exact absurd h hfull

omit [DecidableEq OpId] in
/-- A step that adds no listener, removes no request and ends no task's turn. -/
theorem Told.of_unchanged (hs : s.Told)
    (hsenders : s'.notifyWhenDrainedSenders = s.notifyWhenDrainedSenders)
    (hdrained : s'.drained = true → s.drained = true) (hchecks : s.Checks → s'.Checks) :
    s'.Told := by
  intro hnow
  rcases hs (hdrained hnow) with hnone | hsome
  · exact Or.inl (hsenders.trans hnone)
  · exact Or.inr (hchecks hsome)

/-! ### Adding requests -/

variable [DecidableEq Url]

theorem mem_addRequest {source : Url} {r : OpId × Url} {opId : OpId}
    {acc : (AList fun _ : OpId => Option Bytes) × AList fun _ : OpId × Url => Option Bytes}
    (hr : r ∈ acc.2) : r ∈ (addRequest source acc opId).2 := by
  unfold addRequest
  split
  · exact hr
  · exact AList.mem_insert _ |>.mpr (Or.inr hr)

theorem mem_addRequests {source : Url} {r : OpId × Url} (opIds : List OpId)
    {acc : (AList fun _ : OpId => Option Bytes) × AList fun _ : OpId × Url => Option Bytes}
    (hr : r ∈ acc.2) : r ∈ (opIds.foldl (addRequest source) acc).2 := by
  induction opIds generalizing acc with
  | nil => exact hr
  | cons opId opIds ih => exact ih (mem_addRequest hr)

theorem filtered_told (hs : s.Told) (answer : Option (List OpId)) (c : RequestCall OpId Url) :
    (s.filtered answer c).2.Told := by
  cases c with
  | filtering metadata source =>
      cases answer with
      | none => exact hs
      | some newOpIds =>
          refine hs.of_unchanged rfl ?_ id
          intro hnow
          rw [drained_iff] at hnow ⊢
          exact fun r hr => hnow r (mem_addRequests newOpIds hr)
  | queueing opIds source => exact hs
  | ended => exact hs

theorem queue_told (hs : s.Told) (c : RequestCall OpId Url) : (s.queue c).2.Told := by
  cases c with
  | filtering metadata source => exact hs
  | ended => exact hs
  | queueing opIds source =>
      cases opIds with
      | nil => exact hs
      | cons opId opIds =>
          simp only [queue]
          split
          · exact fun hnow => Or.inl (notify_senders hnow)
          · split
            · exact hs
            · exact hs

omit [DecidableEq OpId] [DecidableEq Url] in
theorem notifyOnDrained_told (hs : s.Told) : s.notifyOnDrained.Told := by
  unfold notifyOnDrained
  split
  · exact hs
  · rename_i hfull
    exact fun hnow => absurd hnow hfull

/-! ### Outgoing requests -/

variable {i : Nat} {t : RequestTask OpId Url}

theorem step_advanceTask (hi : s.requestTasks[i]? = some t) (answer : TaskAnswer) :
    s.step (.advanceTask i answer) =
      { (s.advanceTask t answer).2 with
        requestTasks := s.requestTasks.set i (s.advanceTask t answer).1 } := by
  simp only [step, hi]

omit [DecidableEq OpId] [DecidableEq Url] in
theorem checks_set_self (hi : s.requestTasks[i]? = some t) (t' : RequestTask OpId Url)
    (ht' : t'.checks = true) (htasks : s'.requestTasks = s.requestTasks.set i t') :
    s'.Checks := by
  refine ⟨t', ?_, ht'⟩
  rw [htasks]
  exact mem_set_self hi

omit [DecidableEq OpId] [DecidableEq Url] in
theorem checks_set_of_not (hi : s.requestTasks[i]? = some t) (ht : t.checks = false)
    {t' : RequestTask OpId Url} (htasks : s'.requestTasks = s.requestTasks.set i t')
    (hs : s.Checks) : s'.Checks := by
  rcases hs with ⟨u, hu, hchecks⟩
  refine ⟨u, ?_, hchecks⟩
  rw [htasks]
  refine mem_set_of_ne hi hu ?_
  rintro rfl
  rw [ht] at hchecks
  cases hchecks

/-- The answer is not the one the task waits for. -/
theorem advanceTask_told_of_eq (hs : s.Told) (hi : s.requestTasks[i]? = some t)
    {answer : TaskAnswer} (h : s.advanceTask t answer = (t, s)) :
    (s.step (.advanceTask i answer)).Told := by
  rw [step_advanceTask hi, h]
  have htasks : s.requestTasks.set i t = s.requestTasks := by
    rcases List.getElem?_eq_some_iff.mp hi with ⟨hlt, rfl⟩
    exact List.set_getElem_self hlt
  rw [htasks]
  exact hs

theorem receive_told (hs : s.Told) (hi : s.requestTasks[i]? = some .idle) (present : Bool) :
    (s.step (.advanceTask i (.upgraded present))).Told := by
  cases hqueue : s.outgoingRequests with
  | nil => exact advanceTask_told_of_eq hs hi (by simp only [advanceTask, hqueue])
  | cons r rest =>
      rw [step_advanceTask hi]
      simp only [advanceTask, hqueue]
      exact hs.of_unchanged rfl id (checks_set_of_not hi rfl rfl)

theorem asked_told {opId : OpId} {peer : Url} (hi : s.requestTasks[i]? = some (.asking opId peer))
    (answer : Option Bool) : (s.step (.advanceTask i (.unresponsive answer))).Told := by
  rw [step_advanceTask hi]
  simp only [advanceTask]
  -- the request may be gone, but the task has yet to look
  split
  · exact fun _ => Or.inr (checks_set_self hi (.checking opId peer) rfl rfl)
  · exact fun _ => Or.inr (checks_set_self hi (.checking opId peer) rfl rfl)

theorem checked_told {opId : OpId} {peer : Url}
    (hi : s.requestTasks[i]? = some (.checking opId peer)) :
    (s.step (.advanceTask i .locked)).Told := by
  rw [step_advanceTask hi]
  simp only [advanceTask]
  split
  · rename_i hmem
    exact fun hnow => absurd hmem (drained_iff.mp hnow (opId, peer))
  · exact fun hnow => Or.inl (notify_senders hnow)

theorem sent_told {opId : OpId} {peer : Url} (hs : s.Told)
    (hi : s.requestTasks[i]? = some (.sending opId peer)) (ok : Bool) :
    (s.step (.advanceTask i (.sent ok))).Told := by
  rw [step_advanceTask hi]
  simp only [advanceTask]
  split
  · exact hs.of_unchanged rfl id (checks_set_of_not hi rfl rfl)
  · exact fun hnow => Or.inl (notify_senders hnow)

theorem advanceTask_told (hs : s.Told) (i : Nat) (answer : TaskAnswer) :
    (s.step (.advanceTask i answer)).Told := by
  cases hi : s.requestTasks[i]? with
  | none =>
      simp only [step, hi]
      exact hs
  | some t =>
      cases t with
      | idle =>
          cases answer with
          | upgraded present => exact receive_told hs hi present
          | _ => exact advanceTask_told_of_eq hs hi rfl
      | asking opId peer =>
          cases answer with
          | unresponsive answer => exact asked_told hi answer
          | _ => exact advanceTask_told_of_eq hs hi rfl
      | checking opId peer =>
          cases answer with
          | locked => exact checked_told hi
          | _ => exact advanceTask_told_of_eq hs hi rfl
      | sending opId peer =>
          cases answer with
          | sent ok => exact sent_told hs hi ok
          | _ => exact advanceTask_told_of_eq hs hi rfl
      | stopped =>
          cases answer with
          | _ => exact advanceTask_told_of_eq hs hi rfl

/-! ### Incoming responses -/

omit [DecidableEq OpId] [DecidableEq Url] in
theorem respond_told (hs : s.Told) (ops : List (Op OpId)) (peer : Url) :
    (s.respond ops peer).Told := by
  unfold respond
  split
  · exact hs
  · exact hs

theorem receiveResponse_told (hs : s.Told) : s.receiveResponse.Told := by
  unfold receiveResponse
  split
  · exact hs
  · exact hs

omit [DecidableEq Url] in
theorem processed_told (hs : s.Told) {answer : Option (List OpId)}
    (hseen : s.LastIsSeen (.processed answer)) : (s.processed answer).Told := by
  unfold processed
  cases s.responseTask with
  | idle => exact hs
  | processing ops peer incoming =>
      cases answer with
      | none => exact hs
      | some opIds => exact hseen

/-! ## Runs -/

theorem step_told (hs : s.Told) (e : FetchEvent OpId Url) (hseen : s.LastIsSeen e) :
    (s.step e).Told := by
  cases e with
  | requestOps ops source => exact hs
  | notifyOnDrained => exact notifyOnDrained_told hs
  | filtered i answer =>
      simp only [step]
      split
      · exact hs
      · exact filtered_told hs answer _
  | queue i =>
      simp only [step]
      split
      · exact hs
      · exact queue_told hs _
  | advanceTask i answer => exact advanceTask_told hs i answer
  | respond ops peer => exact respond_told hs ops peer
  | receiveResponse => exact receiveResponse_told hs
  | processed answer => exact processed_told hs hseen

/-- No call and no task is in the middle of a step. -/
def Quiet (s : CoreFetch OpId Url) : Prop :=
  (∀ c ∈ s.calls, c = .ended) ∧ (∀ t ∈ s.requestTasks, t.waits = true) ∧ s.responseTask = .idle

instance Quiet.decidable (s : CoreFetch OpId Url) : Decidable s.Quiet :=
  inferInstanceAs (Decidable (_ ∧ _ ∧ _))

/-- In a run where no processed response removes the last requests behind the back of the listeners,
no listener waits once nothing is pending and nothing is in the middle of a step. -/
theorem drained_listeners_told (parallelRequestCount : UInt8) (events : List (FetchEvent OpId Url))
    (hseen : Along step LastIsSeen (new parallelRequestCount) events)
    (hquiet : (run parallelRequestCount events).Quiet)
    (hdrained : (run parallelRequestCount events).drained = true) :
    (run parallelRequestCount events).notifyWhenDrainedSenders = [] := by
  have htold : (run parallelRequestCount events).Told :=
    hseen.invariant (I := Told) (fun _ => Or.inl rfl) fun _ e hs hcond => step_told hs e hcond
  rcases htold hdrained with hnone | ⟨t, ht, hchecks⟩
  · exact hnone
  · rw [RequestTask.not_checks_of_waits (hquiet.2.1 t ht)] at hchecks
    cases hchecks

/-- The peer cannot be reached: the task that fails to send tells the listener. -/
def unreachablePeer : List (FetchEvent Bool Bool) :=
  [.requestOps [⟨true, none⟩] true, .filtered 0 (some [true]), .queue 0, .queue 0, .notifyOnDrained,
    .advanceTask 0 (.upgraded true), .advanceTask 0 (.unresponsive none), .advanceTask 0 .locked,
    .advanceTask 0 (.sent false)]

theorem unreachablePeer_told :
    Along step LastIsSeen (new 2) unreachablePeer ∧ (run 2 unreachablePeer).notified = [0] ∧
      (run 2 unreachablePeer).notifyWhenDrainedSenders = [] := by
  have hseen : Along step LastIsSeen (new 2) unreachablePeer := by decide +kernel
  refine ⟨hseen, by decide +kernel, ?_⟩
  exact drained_listeners_told 2 unreachablePeer hseen (by decide +kernel) (by decide +kernel)

/-- The peer answers the request and the op is stored: nothing is pending, every queue is empty and
every task waits, and the listener was never told. -/
theorem fetched_listener_waits :
    ∃ events : List (FetchEvent Bool Bool),
      (run 2 events).Quiet ∧ (run 2 events).drained = true ∧ (run 2 events).outgoingRequests = [] ∧
        (run 2 events).incomingResponses = [] ∧
        (run 2 events).notifyWhenDrainedSenders = [0] ∧ (run 2 events).notified = [] := by
  refine ⟨[.requestOps [⟨true, none⟩] true, .filtered 0 (some [true]), .queue 0, .queue 0,
    .notifyOnDrained, .advanceTask 0 (.upgraded true), .advanceTask 0 (.unresponsive none),
    .advanceTask 0 .locked, .advanceTask 0 (.sent true), .respond [⟨true, [1]⟩] true,
    .receiveResponse, .processed (some [true])], ?_⟩
  decide +kernel

end CoreFetch

end Core
end Kitsune2
