import Kitsune2.Core.FetchQueue
import Kitsune2.Core.FetchMetadata

/-!
# FetchSteps — what a step of the fetch module can do

Every event changes the fetch state in one of a few ways, or not at all.  Which listeners are told is
left open here.
-/

namespace Kitsune2
namespace Core

open Api Lib

variable {OpId Url : Type}

namespace CoreFetch

variable {s s' : CoreFetch OpId Url} {e : FetchEvent OpId Url}

/-- The state with other listeners. -/
def relisten (s : CoreFetch OpId Url) (senders notified : List Nat) (listeners : Nat) :
    CoreFetch OpId Url :=
  { s with
    notifyWhenDrainedSenders := senders
    notified := notified
    listeners := listeners }

/-- What an event does to the state, listeners apart. -/
inductive Stepped [DecidableEq OpId] [DecidableEq Url] (s : CoreFetch OpId Url) :
    FetchEvent OpId Url → CoreFetch OpId Url → Prop where
  /-- The event is not the next one of its call or task. -/
  | unchanged (e : FetchEvent OpId Url) : Stepped s e s
  | listens (senders notified : List Nat) (listeners : Nat) :
      Stepped s .notifyOnDrained (s.relisten senders notified listeners)
  | requested (ops : List (PublishOp OpId)) (source : Url) :
      Stepped s (.requestOps ops source) (s.requestOps ops source)
  | refused {i : Nat} {metadata : AList fun _ : OpId => Option Bytes} {source : Url}
      (hcall : s.calls[i]? = some (.filtering metadata source)) :
      Stepped s (.filtered i none) { s with calls := s.calls.set i .ended }
  | added {i : Nat} {metadata : AList fun _ : OpId => Option Bytes} {source : Url}
      (hcall : s.calls[i]? = some (.filtering metadata source)) (newOpIds : List OpId) :
      Stepped s (.filtered i (some newOpIds))
        { s with
          requests := (newOpIds.foldl (addRequest source) (metadata, s.requests)).2
          calls := s.calls.set i (.queueing newOpIds source) }
  | ended {i : Nat} {source : Url} (hcall : s.calls[i]? = some (.queueing [] source)) :
      Stepped s (.queue i) { s with calls := s.calls.set i .ended }
  | closed {i : Nat} {opId : OpId} {opIds : List OpId} {source : Url}
      (hcall : s.calls[i]? = some (.queueing (opId :: opIds) source))
      (hclosed : s.queueClosed = true) (senders notified : List Nat) :
      Stepped s (.queue i)
        { s.relisten senders notified s.listeners with
          requests := s.requests.erase (opId, source)
          calls := s.calls.set i (.queueing opIds source) }
  | pushed {i : Nat} {opId : OpId} {opIds : List OpId} {source : Url}
      (hcall : s.calls[i]? = some (.queueing (opId :: opIds) source))
      (hroom : s.outgoingRequests.length < channelCapacity) :
      Stepped s (.queue i)
        { s with
          outgoingRequests := s.outgoingRequests ++ [(opId, source)]
          calls := s.calls.set i (.queueing opIds source) }
  | popped {i : Nat} {opId : OpId} {peer : Url} {rest : List (OpId × Url)}
      (htask : s.requestTasks[i]? = some .idle) (hqueue : s.outgoingRequests = (opId, peer) :: rest)
      (present : Bool) :
      Stepped s (.advanceTask i (.upgraded present))
        { s with
          outgoingRequests := rest
          requestTasks := s.requestTasks.set i (if present then .asking opId peer else .stopped) }
  | asked {i : Nat} {opId : OpId} {peer : Url}
      (htask : s.requestTasks[i]? = some (.asking opId peer)) (answer : Option Bool) :
      Stepped s (.advanceTask i (.unresponsive answer))
        { s with
          requests := if answer.getD false then s.requests.erase (opId, peer) else s.requests
          requestTasks := s.requestTasks.set i (.checking opId peer) }
  | found {i : Nat} {opId : OpId} {peer : Url}
      (htask : s.requestTasks[i]? = some (.checking opId peer)) (hmem : (opId, peer) ∈ s.requests) :
      Stepped s (.advanceTask i .locked)
        { s with requestTasks := s.requestTasks.set i (.sending opId peer) }
  | skipped {i : Nat} {opId : OpId} {peer : Url}
      (htask : s.requestTasks[i]? = some (.checking opId peer)) (hnot : (opId, peer) ∉ s.requests)
      (senders notified : List Nat) :
      Stepped s (.advanceTask i .locked)
        { s.relisten senders notified s.listeners with requestTasks := s.requestTasks.set i .idle }
  | sent {i : Nat} {opId : OpId} {peer : Url}
      (htask : s.requestTasks[i]? = some (.sending opId peer)) :
      Stepped s (.advanceTask i (.sent true)) { s with requestTasks := s.requestTasks.set i .idle }
  | sendFailed {i : Nat} {opId : OpId} {peer : Url}
      (htask : s.requestTasks[i]? = some (.sending opId peer)) (senders notified : List Nat) :
      Stepped s (.advanceTask i (.sent false))
        { s.relisten senders notified s.listeners with
          requests := retain (fun r _ => r.2 ≠ peer) s.requests
          requestTasks := s.requestTasks.set i .idle }
  | responded (ops : List (Op OpId)) (peer : Url)
      (hroom : s.incomingResponses.length < channelCapacity) :
      Stepped s (.respond ops peer)
        { s with incomingResponses := s.incomingResponses ++ [(ops, peer)] }
  | received {ops : List (Op OpId)} {peer : Url} {rest : List (List (Op OpId) × Url)}
      (hidle : s.responseTask = .idle) (hqueue : s.incomingResponses = (ops, peer) :: rest) :
      Stepped s .receiveResponse
        { s with
          incomingResponses := rest
          responseTask := .processing ops peer (ops.map (s.incomingOp peer)) }
  | failed {ops : List (Op OpId)} {peer : Url} {incoming : List (IncomingOp OpId)}
      (htask : s.responseTask = .processing ops peer incoming) :
      Stepped s (.processed none) { s with responseTask := .idle }
  | processed {ops : List (Op OpId)} {peer : Url} {incoming : List (IncomingOp OpId)}
      (htask : s.responseTask = .processing ops peer incoming) (opIds : List OpId) :
      Stepped s (.processed (some opIds))
        { s with
          reports := s.reports ++ (opIds.zip ops).map fun p => (peer, p.1, p.2.data.length)
          requests := s.unprocessed opIds
          responseTask := .idle }

theorem notify_eq (s : CoreFetch OpId Url) :
    ∃ senders notified, s.notifyListenersIfQueueDrained = s.relisten senders notified s.listeners := by
  unfold notifyListenersIfQueueDrained
  split
  · exact ⟨_, _, rfl⟩
  · exact ⟨_, _, rfl⟩

theorem calls_set_self {i : Nat} {c : RequestCall OpId Url} (hi : s.calls[i]? = some c) :
    { s with calls := s.calls.set i c } = s := by
  rcases List.getElem?_eq_some_iff.mp hi with ⟨hlt, rfl⟩
  rw [List.set_getElem_self hlt]

theorem requestTasks_set_self {i : Nat} {t : RequestTask OpId Url} (hi : s.requestTasks[i]? = some t) :
    { s with requestTasks := s.requestTasks.set i t } = s := by
  rcases List.getElem?_eq_some_iff.mp hi with ⟨hlt, rfl⟩
  rw [List.set_getElem_self hlt]

variable [DecidableEq OpId] [DecidableEq Url]

theorem stepped_filtered (i : Nat) (answer : Option (List OpId)) :
    Stepped s (.filtered i answer) (s.step (.filtered i answer)) := by
  cases hcall : s.calls[i]? with
  | none =>
      simp only [step, hcall]
      exact .unchanged _
  | some c =>
      simp only [step, hcall]
      cases c with
      | filtering metadata source =>
          cases answer with
          | none => exact .refused hcall
          | some newOpIds => exact .added hcall newOpIds
      | queueing opIds source =>
          simp only [filtered, calls_set_self hcall]
          exact .unchanged _
      | ended =>
          simp only [filtered, calls_set_self hcall]
          exact .unchanged _

theorem stepped_queue (i : Nat) : Stepped s (.queue i) (s.step (.queue i)) := by
  cases hcall : s.calls[i]? with
  | none =>
      simp only [step, hcall]
      exact .unchanged _
  | some c =>
      simp only [step, hcall]
      cases c with
      | filtering metadata source =>
          simp only [queue, calls_set_self hcall]
          exact .unchanged _
      | ended =>
          simp only [queue, calls_set_self hcall]
          exact .unchanged _
      | queueing opIds source =>
          cases opIds with
          | nil => exact .ended hcall
          | cons opId opIds =>
              simp only [queue]
              split
              · rename_i hclosed
                rcases notify_eq { s with requests := s.requests.erase (opId, source) } with
                  ⟨senders, notified, heq⟩
                rw [heq]
                exact .closed hcall hclosed senders notified
              · split
                · rename_i hroom
                  exact .pushed hcall hroom
                · simp only [calls_set_self hcall]
                  exact .unchanged _

theorem stepped_advanceTask (i : Nat) (answer : TaskAnswer) :
    Stepped s (.advanceTask i answer) (s.step (.advanceTask i answer)) := by
  cases htask : s.requestTasks[i]? with
  | none =>
      simp only [step, htask]
      exact .unchanged _
  | some t =>
      -- an answer that the task does not wait for
      have hother : s.advanceTask t answer = (t, s) →
          Stepped s (.advanceTask i answer) (s.step (.advanceTask i answer)) := by
        intro heq
        rw [step_advanceTask htask, heq]
        simp only [requestTasks_set_self htask]
        exact .unchanged _
      rw [step_advanceTask htask] at hother ⊢
      cases t with
      | idle =>
          cases answer with
          | upgraded present =>
              cases hqueue : s.outgoingRequests with
              | nil => exact hother (by simp only [advanceTask, hqueue])
              | cons r rest =>
                  simp only [advanceTask, hqueue]
                  exact .popped htask hqueue present
          | _ => exact hother rfl
      | asking opId peer =>
          cases answer with
          | unresponsive answer =>
              simp only [advanceTask]
              have hasked := Stepped.asked htask answer
              split
              · rename_i hgone
                rwa [if_pos hgone] at hasked
              · rename_i hthere
                rwa [if_neg hthere] at hasked
          | _ => exact hother rfl
      | checking opId peer =>
          cases answer with
          | locked =>
              simp only [advanceTask]
              split
              · rename_i hmem
                exact .found htask hmem
              · rename_i hnot
                rcases notify_eq s with ⟨senders, notified, heq⟩
                rw [heq]
                exact .skipped htask hnot senders notified
          | _ => exact hother rfl
      | sending opId peer =>
          cases answer with
          | sent ok =>
              cases ok with
              | true => exact .sent htask
              | false =>
                  simp only [advanceTask, Bool.false_eq_true, if_false]
                  rcases notify_eq { s with requests := retain (fun r _ => r.2 ≠ peer) s.requests }
                    with ⟨senders, notified, heq⟩
                  rw [heq]
                  exact .sendFailed htask senders notified
          | _ => exact hother rfl
      | stopped =>
          cases answer with
          | _ => exact hother rfl

theorem stepped_receiveResponse : Stepped s .receiveResponse (s.step .receiveResponse) := by
  simp only [step, receiveResponse]
  split
  · rename_i hidle hqueue
    exact .received hidle hqueue
  · exact .unchanged _

theorem stepped_processed (answer : Option (List OpId)) :
    Stepped s (.processed answer) (s.step (.processed answer)) := by
  simp only [step, CoreFetch.processed]
  cases htask : s.responseTask with
  | idle => exact .unchanged _
  | processing ops peer incoming =>
      cases answer with
      | none => exact .failed htask
      | some opIds => exact .processed htask opIds

/-- What a step can do. -/
theorem stepped (s : CoreFetch OpId Url) (e : FetchEvent OpId Url) : Stepped s e (s.step e) := by
  cases e with
  | requestOps ops source => exact .requested ops source
  | notifyOnDrained =>
      simp only [step, notifyOnDrained]
      split
      · exact .listens s.notifyWhenDrainedSenders _ _
      · exact .listens _ s.notified _
  | filtered i answer => exact stepped_filtered i answer
  | queue i => exact stepped_queue i
  | advanceTask i answer => exact stepped_advanceTask i answer
  | respond ops peer =>
      simp only [step, respond]
      split
      · rename_i hroom
        exact .responded ops peer hroom
      · exact .unchanged _
  | receiveResponse => exact stepped_receiveResponse
  | processed answer => exact stepped_processed answer

end CoreFetch

end Core
end Kitsune2
