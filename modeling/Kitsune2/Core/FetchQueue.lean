import Kitsune2.Core.FetchMetadata

/-!
# FetchQueue — no pending request is forgotten

A call of `request_ops` inserts its requests into the state and then pushes an entry for each into the
queue.  The outgoing request tasks pop the entries and send those that are pending still.  A failed send
removes every request to the peer, while the entries of these requests stay behind.

`QueueRun` follows a run with a clock that counts its steps, and notes when a request was inserted and by
which call, when each entry was pushed, and when a request was last sent.
-/

namespace Kitsune2
namespace Core

open Lib

variable {OpId Url : Type}

/-- The entry of the queue that a task has in its hands. -/
def RequestTask.entry : RequestTask OpId Url → Option (OpId × Url)
  | .asking opId peer => some (opId, peer)
  | .checking opId peer => some (opId, peer)
  | .sending opId peer => some (opId, peer)
  | _ => none

/-! ## A run with its times -/

/-- When a request was inserted into the state, and by which call. -/
structure Insertion where
  time : Nat
  call : Nat
  deriving DecidableEq, Repr

structure QueueRun (OpId Url : Type) where
  fetch : CoreFetch OpId Url
  /-- The number of steps so far. -/
  clock : Nat
  /-- The insertions of a request since it became pending. -/
  inserted : OpId × Url → List Insertion
  /-- When the entries of the outgoing queue were pushed, in the order of the queue. -/
  pushedAt : List Nat
  /-- When the entry in the hands of a task was pushed. -/
  heldSince : Nat → Nat
  /-- When a request was last sent successfully. -/
  sentAt : OpId × Url → Option Nat

namespace CoreFetch

@[simp] theorem outgoingRequests_notify (s : CoreFetch OpId Url) :
    s.notifyListenersIfQueueDrained.outgoingRequests = s.outgoingRequests := by
  unfold notifyListenersIfQueueDrained
  split
  · rfl
  · rfl

@[simp] theorem requestTasks_notify (s : CoreFetch OpId Url) :
    s.notifyListenersIfQueueDrained.requestTasks = s.requestTasks := by
  unfold notifyListenersIfQueueDrained
  split
  · rfl
  · rfl

end CoreFetch

variable [DecidableEq OpId] [DecidableEq Url]

namespace QueueRun

open CoreFetch

def start (parallelRequestCount : UInt8) : QueueRun OpId Url where
  fetch := .new parallelRequestCount
  clock := 0
  inserted := fun _ => []
  pushedAt := []
  heldSince := fun _ => 0
  sentAt := fun _ => none

/-- The insertion of a request by an event, if it makes one. -/
def inserts (w : QueueRun OpId Url) (r : OpId × Url) : FetchEvent OpId Url → List Insertion
  | .filtered i (some newOpIds) =>
      if w.fetch.calls[i]?.bind RequestCall.filteringFrom = some r.2 ∧ r.1 ∈ newOpIds then
        [⟨w.clock, i⟩]
      else []
  | _ => []

/-- The times of the entries after a call has had its turn to push. -/
def pushes (w : QueueRun OpId Url) : RequestCall OpId Url → List Nat
  | .queueing (_ :: _) _ =>
      if w.fetch.queueClosed then w.pushedAt
      else if w.fetch.outgoingRequests.length < channelCapacity then w.pushedAt ++ [w.clock]
      else w.pushedAt
  | _ => w.pushedAt

/-- The times after a step of a task: of the entries left, of the entry in its hands, and of what it has
sent. -/
def advances (w : QueueRun OpId Url) (i : Nat) :
    RequestTask OpId Url → TaskAnswer → List Nat × (Nat → Nat) × (OpId × Url → Option Nat)
  | .idle, .upgraded _ =>
      match w.pushedAt with
      | [] => (w.pushedAt, w.heldSince, w.sentAt)
      | t :: rest => (rest, Function.update w.heldSince i t, w.sentAt)
  | .sending opId peer, .sent true =>
      (w.pushedAt, w.heldSince, Function.update w.sentAt (opId, peer) (some w.clock))
  | _, _ => (w.pushedAt, w.heldSince, w.sentAt)

/-- What a step does to the times of entries and sends. -/
def times (w : QueueRun OpId Url) :
    FetchEvent OpId Url → List Nat × (Nat → Nat) × (OpId × Url → Option Nat)
  | .queue i =>
      match w.fetch.calls[i]? with
      | none => (w.pushedAt, w.heldSince, w.sentAt)
      | some c => (w.pushes c, w.heldSince, w.sentAt)
  | .advanceTask i answer =>
      match w.fetch.requestTasks[i]? with
      | none => (w.pushedAt, w.heldSince, w.sentAt)
      | some t => w.advances i t answer
  | _ => (w.pushedAt, w.heldSince, w.sentAt)

def step (w : QueueRun OpId Url) (e : FetchEvent OpId Url) : QueueRun OpId Url where
  fetch := w.fetch.step e
  clock := w.clock + 1
  inserted := fun r =>
    if r ∈ (w.fetch.step e).requests then
      (if r ∈ w.fetch.requests then w.inserted r else []) ++ w.inserts r e
    else []
  pushedAt := (w.times e).1
  heldSince := (w.times e).2.1
  sentAt := (w.times e).2.2

def run (parallelRequestCount : UInt8) (events : List (FetchEvent OpId Url)) : QueueRun OpId Url :=
  events.foldl step (start parallelRequestCount)

/-- The fetch state of the run is that of the fetch module. -/
theorem fetch_run (parallelRequestCount : UInt8) (events : List (FetchEvent OpId Url)) :
    (run parallelRequestCount events).fetch = CoreFetch.run parallelRequestCount events := by
  have hfold : ∀ w : QueueRun OpId Url,
      (events.foldl step w).fetch = events.foldl CoreFetch.step w.fetch := by
    induction events with
    | nil => exact fun _ => rfl
    | cons e events ih => exact fun w => ih (w.step e)
  exact hfold (start parallelRequestCount)

/-! ## Where a request is -/

/-- The call has the request in hand, but no entry for it in the queue yet. -/
def Queueing (w : QueueRun OpId Url) (r : OpId × Url) (call : Nat) : Prop :=
  ∃ opIds, w.fetch.calls[call]? = some (.queueing opIds r.2) ∧ r.1 ∈ opIds

/-- An entry pushed after the time is in the queue. -/
def Queued (w : QueueRun OpId Url) (r : OpId × Url) (time : Nat) : Prop :=
  ∃ t > time, (r, t) ∈ w.fetch.outgoingRequests.zip w.pushedAt

/-- An entry pushed after the time is in the hands of a task. -/
def Held (w : QueueRun OpId Url) (r : OpId × Url) (time : Nat) : Prop :=
  ∃ i, (w.fetch.requestTasks[i]?.bind RequestTask.entry) = some r ∧ time < w.heldSince i

/-- The request was sent to its peer after the time. -/
def Sent (w : QueueRun OpId Url) (r : OpId × Url) (time : Nat) : Prop :=
  ∃ t > time, w.sentAt r = some t

/-- Since its insertion the request has not been forgotten. -/
def Accounted (w : QueueRun OpId Url) (r : OpId × Url) (a : Insertion) : Prop :=
  w.Queueing r a.call ∨ w.Queued r a.time ∨ w.Held r a.time ∨ w.Sent r a.time

/-- The transport is never found to be gone. -/
def TransportKept : FetchEvent OpId Url → Prop
  | .advanceTask _ (.upgraded present) => present = true
  | _ => True

/-- Every entry has its time, and every insertion of a pending request is accounted for. -/
structure NothingLost (w : QueueRun OpId Url) : Prop where
  timed : w.fetch.outgoingRequests.length = w.pushedAt.length
  inserted : ∀ r ∈ w.fetch.requests, w.inserted r ≠ []
  past : ∀ r, ∀ a ∈ w.inserted r, a.time < w.clock
  accounted : ∀ r ∈ w.fetch.requests, ∀ a ∈ w.inserted r, w.Accounted r a

variable {w : QueueRun OpId Url} {r : OpId × Url} {a : Insertion} {e : FetchEvent OpId Url} {i : Nat}

omit [DecidableEq OpId] [DecidableEq Url] in
theorem nothingLost_start (parallelRequestCount : UInt8) :
    NothingLost (start parallelRequestCount : QueueRun OpId Url) where
  timed := rfl
  inserted := fun r hr => absurd hr (AList.notMem_empty r)
  past := fun _ _ ha => absurd ha List.not_mem_nil
  accounted := fun r hr => absurd hr (AList.notMem_empty r)

omit [DecidableEq OpId] [DecidableEq Url] in
/-- A step that changes none of the places where a request can be. -/
theorem Accounted.of_same {w' : QueueRun OpId Url} (h : w.Accounted r a)
    (hcalls : w'.fetch.calls = w.fetch.calls)
    (hqueue : w'.fetch.outgoingRequests = w.fetch.outgoingRequests)
    (htasks : w'.fetch.requestTasks = w.fetch.requestTasks)
    (htimes : (w'.pushedAt, w'.heldSince, w'.sentAt) = (w.pushedAt, w.heldSince, w.sentAt)) :
    w'.Accounted r a := by
  simp only [Prod.mk.injEq] at htimes
  rcases htimes with ⟨hpushed, hheld, hsent⟩
  simpa only [Accounted, Queueing, Queued, Held, Sent, hcalls, hqueue, htasks, hpushed, hheld, hsent]
    using h

/-! ### Calls -/

theorem filtered_keeps (s : CoreFetch OpId Url) (i : Nat) (answer : Option (List OpId)) :
    (s.step (.filtered i answer)).outgoingRequests = s.outgoingRequests ∧
      (s.step (.filtered i answer)).requestTasks = s.requestTasks := by
  simp only [CoreFetch.step]
  split
  · exact ⟨rfl, rfl⟩
  · rename_i c hcall
    cases c with
    | filtering metadata source =>
        cases answer with
        | none => exact ⟨rfl, rfl⟩
        | some newOpIds => exact ⟨rfl, rfl⟩
    | queueing opIds source => exact ⟨rfl, rfl⟩
    | ended => exact ⟨rfl, rfl⟩

/-- The op store's answer changes neither the queue nor the tasks, and what a call still has to queue
stays with it. -/
theorem Accounted.filtered (h : w.Accounted r a) (answer : Option (List OpId)) :
    (w.step (.filtered i answer)).Accounted r a := by
  have hfetch := filtered_keeps w.fetch i answer
  rcases h with ⟨opIds, hcall, hin⟩ | ⟨t, ht, hentry⟩ | ⟨j, htask, hheld⟩ | hsent
  · refine Or.inl ⟨opIds, ?_, hin⟩
    simp only [step, CoreFetch.step]
    split
    · exact hcall
    · rename_i c hc
      by_cases hij : i = a.call
      · subst hij
        rw [hc] at hcall
        cases hcall
        simp only [CoreFetch.filtered]
        rw [List.getElem?_set_self (List.getElem?_eq_some_iff.mp hc).1]
      · simp only [List.getElem?_set_ne hij]
        exact hcall
  · exact Or.inr (Or.inl ⟨t, ht, by simpa only [step, times, hfetch.1] using hentry⟩)
  · exact Or.inr (Or.inr (Or.inl ⟨j, by simpa only [step, times, hfetch.2] using htask, hheld⟩))
  · exact Or.inr (Or.inr (Or.inr hsent))

omit [DecidableEq OpId] [DecidableEq Url] in
/-- A call that is not at the turn, or has not the request, keeps the request in hand. -/
theorem Queueing.set {call : Nat} {c c' : RequestCall OpId Url} (h : w.Queueing r call)
    (hc : w.fetch.calls[i]? = some c)
    (hsame : ∀ opIds, c = .queueing opIds r.2 → r.1 ∈ opIds →
      ∃ opIds', c' = .queueing opIds' r.2 ∧ r.1 ∈ opIds') :
    ∃ opIds, (w.fetch.calls.set i c')[call]? = some (.queueing opIds r.2) ∧ r.1 ∈ opIds := by
  rcases h with ⟨opIds, hcall, hin⟩
  by_cases hij : i = call
  · subst hij
    rcases hsame opIds (Option.some.inj (hc.symm.trans hcall)) hin with ⟨opIds', rfl, hin'⟩
    exact ⟨opIds', List.getElem?_set_self (List.getElem?_eq_some_iff.mp hc).1, hin'⟩
  · exact ⟨opIds, (List.getElem?_set_ne hij).trans hcall, hin⟩

/-- The call at its turn pushes an entry: what it had in hand is now in the queue. -/
theorem Accounted.push {opId : OpId} {opIds : List OpId} {source : Url} (h : w.Accounted r a)
    (hlost : w.NothingLost) (hpast : a.time < w.clock)
    (hc : w.fetch.calls[i]? = some (.queueing (opId :: opIds) source))
    (hclosed : ¬ w.fetch.queueClosed = true)
    (hroom : w.fetch.outgoingRequests.length < channelCapacity) :
    (w.step (.queue i)).Accounted r a := by
  have hentries : (w.step (.queue i)).fetch.outgoingRequests.zip (w.step (.queue i)).pushedAt =
      w.fetch.outgoingRequests.zip w.pushedAt ++ [((opId, source), w.clock)] := by
    simp only [step, times, CoreFetch.step, hc, CoreFetch.queue, pushes, if_neg hclosed,
      if_pos hroom]
    rw [List.zip_append hlost.timed]
    rfl
  have htasks : (w.step (.queue i)).fetch.requestTasks = w.fetch.requestTasks := by
    simp only [step, CoreFetch.step, hc, CoreFetch.queue, if_neg hclosed, if_pos hroom]
  have hheld : (w.step (.queue i)).heldSince = w.heldSince := by simp only [step, times, hc]
  have hsent : (w.step (.queue i)).sentAt = w.sentAt := by simp only [step, times, hc]
  have hpushed : r = (opId, source) → (w.step (.queue i)).Accounted r a := by
    rintro rfl
    refine Or.inr (Or.inl ⟨w.clock, hpast, ?_⟩)
    rw [hentries]
    exact List.mem_append_right _ (List.mem_singleton_self _)
  -- the pushed request passes from its call to the queue; every other one stays where it was
  rcases h with hcalling | ⟨t, ht, hentry⟩ | hhands | hdone
  · by_cases hr : r = (opId, source)
    · exact hpushed hr
    · refine Or.inl ?_
      simp only [Queueing, step, CoreFetch.step, hc, CoreFetch.queue, if_neg hclosed, if_pos hroom]
      refine hcalling.set hc ?_
      intro opIds' heq hin
      cases heq
      rcases List.mem_cons.mp hin with hfirst | hrest
      · exact absurd (Prod.ext hfirst rfl : r = (opId, r.2)) hr
      · exact ⟨opIds, rfl, hrest⟩
  · refine Or.inr (Or.inl ⟨t, ht, ?_⟩)
    rw [hentries]
    exact List.mem_append_left _ hentry
  · exact Or.inr (Or.inr (Or.inl (by simpa only [Held, htasks, hheld] using hhands)))
  · exact Or.inr (Or.inr (Or.inr (by simpa only [Sent, hsent] using hdone)))

/-- A call pushes an entry for a request, or gives the request up, or waits. -/
theorem Accounted.queue (h : w.Accounted r a) (hlost : w.NothingLost) (hpast : a.time < w.clock)
    (hr : r ∈ (w.fetch.step (.queue i)).requests) : (w.step (.queue i)).Accounted r a := by
  cases hc : w.fetch.calls[i]? with
  | none =>
      have hfetch : w.fetch.step (.queue i) = w.fetch := by simp only [CoreFetch.step, hc]
      refine h.of_same ?_ ?_ ?_ ?_
      · exact congrArg CoreFetch.calls hfetch
      · exact congrArg CoreFetch.outgoingRequests hfetch
      · exact congrArg CoreFetch.requestTasks hfetch
      · simp only [step, times, hc]
  | some c =>
      -- a turn that leaves the queue as it is
      have hturn : (w.step (.queue i)).fetch.outgoingRequests = w.fetch.outgoingRequests →
          (w.step (.queue i)).fetch.requestTasks = w.fetch.requestTasks →
          w.pushes c = w.pushedAt →
          (∀ opIds, c = .queueing opIds r.2 → r.1 ∈ opIds →
            ∃ opIds', (w.fetch.queue c).1 = .queueing opIds' r.2 ∧ r.1 ∈ opIds') →
          (w.step (.queue i)).Accounted r a := by
        intro hqueue htasks hpushes hkept
        have hpushed : (w.step (.queue i)).pushedAt = w.pushedAt := by
          simp only [step, times, hc, hpushes]
        have hheld : (w.step (.queue i)).heldSince = w.heldSince := by
          simp only [step, times, hc]
        have hsent : (w.step (.queue i)).sentAt = w.sentAt := by
          simp only [step, times, hc]
        rcases h with hcalling | hqueued | hhands | hdone
        · refine Or.inl ?_
          simp only [Queueing, step, CoreFetch.step, hc]
          exact hcalling.set hc hkept
        · exact Or.inr (Or.inl (by simpa only [Queued, hqueue, hpushed] using hqueued))
        · exact Or.inr (Or.inr (Or.inl (by simpa only [Held, htasks, hheld] using hhands)))
        · exact Or.inr (Or.inr (Or.inr (by simpa only [Sent, hsent] using hdone)))
      cases c with
      | filtering metadata source =>
          refine hturn ?_ ?_ rfl fun opIds heq => by cases heq
          · simp only [step, CoreFetch.step, hc, CoreFetch.queue]
          · simp only [step, CoreFetch.step, hc, CoreFetch.queue]
      | ended =>
          refine hturn ?_ ?_ rfl fun opIds heq => by cases heq
          · simp only [step, CoreFetch.step, hc, CoreFetch.queue]
          · simp only [step, CoreFetch.step, hc, CoreFetch.queue]
      | queueing opIds source =>
          cases opIds with
          | nil =>
              refine hturn ?_ ?_ rfl ?_
              · simp only [step, CoreFetch.step, hc, CoreFetch.queue]
              · simp only [step, CoreFetch.step, hc, CoreFetch.queue]
              · intro opIds heq hin
                cases heq
                cases hin
          | cons opId opIds =>
              by_cases hclosed : w.fetch.queueClosed = true
              · -- the request at the turn is removed, and is not the one that is pending
                refine hturn ?_ ?_ (by simp only [pushes, if_pos hclosed]) ?_
                · simp only [step, CoreFetch.step, hc, CoreFetch.queue, if_pos hclosed,
                    outgoingRequests_notify]
                · simp only [step, CoreFetch.step, hc, CoreFetch.queue, if_pos hclosed,
                    requestTasks_notify]
                · intro opIds' heq hin
                  cases heq
                  have hne : r ≠ (opId, r.2) := by
                    intro heq
                    simp only [CoreFetch.step, hc, CoreFetch.queue, if_pos hclosed,
                      requests_notify] at hr
                    rw [← heq, AList.mem_erase] at hr
                    exact hr.1 rfl
                  refine ⟨opIds, by simp only [CoreFetch.queue, if_pos hclosed], ?_⟩
                  rcases List.mem_cons.mp hin with hfirst | hrest
                  · exact absurd (Prod.ext hfirst rfl : r = (opId, r.2)) hne
                  · exact hrest
              · by_cases hroom : w.fetch.outgoingRequests.length < channelCapacity
                · exact h.push hlost hpast hc hclosed hroom
                · refine hturn ?_ ?_ (by simp only [pushes, if_neg hclosed, if_neg hroom]) ?_
                  · simp only [step, CoreFetch.step, hc, CoreFetch.queue, if_neg hclosed,
                      if_neg hroom]
                  · simp only [step, CoreFetch.step, hc, CoreFetch.queue, if_neg hclosed,
                      if_neg hroom]
                  · intro opIds' heq hin
                    exact ⟨opIds', by simp only [CoreFetch.queue, if_neg hclosed, if_neg hroom, heq],
                      hin⟩

/-! ### Tasks -/

omit [DecidableEq OpId] [DecidableEq Url] in
/-- A task that has not the request in hand, or keeps it. -/
theorem Held.set {time : Nat} {t t' : RequestTask OpId Url} (h : w.Held r time)
    (ht : w.fetch.requestTasks[i]? = some t) (hsame : t.entry = some r → t'.entry = some r) :
    ∃ j, ((w.fetch.requestTasks.set i t')[j]?.bind RequestTask.entry) = some r ∧
      time < w.heldSince j := by
  rcases h with ⟨j, hentry, htime⟩
  refine ⟨j, ?_, htime⟩
  by_cases hij : i = j
  · subst hij
    rw [ht] at hentry
    rw [List.getElem?_set_self (List.getElem?_eq_some_iff.mp ht).1]
    exact hsame hentry
  · rw [List.getElem?_set_ne hij]
    exact hentry

/-- A turn of a task that leaves the queue and the sends as they are. -/
theorem Accounted.turn {t : RequestTask OpId Url} {answer : TaskAnswer} (h : w.Accounted r a)
    (ht : w.fetch.requestTasks[i]? = some t)
    (hqueue : (w.fetch.advanceTask t answer).2.outgoingRequests = w.fetch.outgoingRequests)
    (htimes : w.advances i t answer = (w.pushedAt, w.heldSince, w.sentAt))
    (hsame : t.entry = some r → (w.fetch.advanceTask t answer).1.entry = some r) :
    (w.step (.advanceTask i answer)).Accounted r a := by
  have hstep := step_advanceTask ht answer
  have hcalls : (w.step (.advanceTask i answer)).fetch.calls = w.fetch.calls := by
    simp only [step, hstep, calls_advanceTask]
  have hout : (w.step (.advanceTask i answer)).fetch.outgoingRequests = w.fetch.outgoingRequests := by
    simp only [step, hstep, hqueue]
  have hpushed : (w.step (.advanceTask i answer)).pushedAt = w.pushedAt := by
    simp only [step, times, ht, htimes]
  have hheld : (w.step (.advanceTask i answer)).heldSince = w.heldSince := by
    simp only [step, times, ht, htimes]
  have hsent : (w.step (.advanceTask i answer)).sentAt = w.sentAt := by
    simp only [step, times, ht, htimes]
  rcases h with hcalling | hqueued | hhands | hdone
  · exact Or.inl (by simpa only [Queueing, hcalls] using hcalling)
  · exact Or.inr (Or.inl (by simpa only [Queued, hout, hpushed] using hqueued))
  · refine Or.inr (Or.inr (Or.inl ?_))
    simp only [Held, hheld]
    simpa only [step, hstep] using hhands.set ht hsame
  · exact Or.inr (Or.inr (Or.inr (by simpa only [Sent, hsent] using hdone)))

/-- A task pops an entry and has it in its hands. -/
theorem Accounted.pop {opId : OpId} {peer : Url} {rest : List (OpId × Url)} (h : w.Accounted r a)
    (hlost : w.NothingLost) (ht : w.fetch.requestTasks[i]? = some .idle)
    (hqueue : w.fetch.outgoingRequests = (opId, peer) :: rest) :
    (w.step (.advanceTask i (.upgraded true))).Accounted r a := by
  have htimed := hlost.timed
  rw [hqueue] at htimed
  cases hpushedAt : w.pushedAt with
  | nil =>
      rw [hpushedAt] at htimed
      cases htimed
  | cons time times =>
      have hstep := step_advanceTask ht (.upgraded true)
      simp only [CoreFetch.advanceTask, hqueue, if_true] at hstep
      have hcalls : (w.step (.advanceTask i (.upgraded true))).fetch.calls = w.fetch.calls := by
        simp only [step, hstep]
      have hheld : (w.step (.advanceTask i (.upgraded true))).heldSince =
          Function.update w.heldSince i time := by
        simp only [step, QueueRun.times, ht, advances, hpushedAt]
      rcases h with hcalling | ⟨t, hlt, hentry⟩ | ⟨j, hentry, hlt⟩ | hdone
      · exact Or.inl (by simpa only [Queueing, hcalls] using hcalling)
      · rw [hqueue, hpushedAt, List.zip_cons_cons] at hentry
        rcases List.mem_cons.mp hentry with hfirst | hrest
        · -- the entry is the one popped
          cases hfirst
          refine Or.inr (Or.inr (Or.inl ⟨i, ?_, ?_⟩))
          · simp only [step, hstep]
            rw [List.getElem?_set_self (List.getElem?_eq_some_iff.mp ht).1]
            rfl
          · rw [hheld, Function.update_self]
            exact hlt
        · refine Or.inr (Or.inl ⟨t, hlt, ?_⟩)
          simp only [step, hstep, QueueRun.times, ht, advances, hpushedAt]
          exact hrest
      · have hij : i ≠ j := by
          rintro rfl
          rw [ht] at hentry
          cases hentry
        refine Or.inr (Or.inr (Or.inl ⟨j, ?_, ?_⟩))
        · simp only [step, hstep]
          rw [List.getElem?_set_ne hij]
          exact hentry
        · rw [hheld, Function.update_of_ne (Ne.symm hij)]
          exact hlt
      · refine Or.inr (Or.inr (Or.inr ?_))
        simpa only [Sent, step, QueueRun.times, ht, advances, hpushedAt] using hdone

/-- A task has sent the request that it had in its hands. -/
theorem Accounted.sent {opId : OpId} {peer : Url} (h : w.Accounted r a) (hpast : a.time < w.clock)
    (ht : w.fetch.requestTasks[i]? = some (.sending opId peer)) :
    (w.step (.advanceTask i (.sent true))).Accounted r a := by
  have hstep := step_advanceTask ht (.sent true)
  simp only [CoreFetch.advanceTask, if_true] at hstep
  have hsent : (w.step (.advanceTask i (.sent true))).sentAt =
      Function.update w.sentAt (opId, peer) (some w.clock) := by
    simp only [step, times, ht, advances]
  by_cases hr : r = (opId, peer)
  · subst hr
    refine Or.inr (Or.inr (Or.inr ⟨w.clock, hpast, ?_⟩))
    rw [hsent, Function.update_self]
  · rcases h with hcalling | hqueued | hhands | hdone
    · exact Or.inl (by simpa only [Queueing, step, hstep] using hcalling)
    · exact Or.inr (Or.inl (by
        simpa only [Queued, step, hstep, times, ht, advances] using hqueued))
    · refine Or.inr (Or.inr (Or.inl ?_))
      simp only [Held, step, hstep, times, ht, advances]
      exact hhands.set ht fun hentry => absurd (Option.some.inj hentry).symm hr
    · refine Or.inr (Or.inr (Or.inr ?_))
      simp only [Sent, hsent, Function.update_of_ne hr]
      exact hdone

theorem Accounted.advanceTask {answer : TaskAnswer} (h : w.Accounted r a) (hlost : w.NothingLost)
    (hpast : a.time < w.clock) (hr : r ∈ (w.fetch.step (.advanceTask i answer)).requests)
    (hkept : TransportKept (.advanceTask i answer : FetchEvent OpId Url)) :
    (w.step (.advanceTask i answer)).Accounted r a := by
  cases ht : w.fetch.requestTasks[i]? with
  | none =>
      have hfetch : w.fetch.step (.advanceTask i answer) = w.fetch := by
        simp only [CoreFetch.step, ht]
      refine h.of_same ?_ ?_ ?_ ?_
      · exact congrArg CoreFetch.calls hfetch
      · exact congrArg CoreFetch.outgoingRequests hfetch
      · exact congrArg CoreFetch.requestTasks hfetch
      · simp only [step, times, ht]
  | some t =>
      rw [step_advanceTask ht] at hr
      cases t with
      | idle =>
          cases answer with
          | upgraded present =>
              cases (hkept : present = true)
              cases hqueue : w.fetch.outgoingRequests with
              | cons entry rest => exact h.pop hlost ht hqueue
              | nil =>
                  have htimed := hlost.timed
                  rw [hqueue] at htimed
                  have hnil : w.pushedAt = [] := List.eq_nil_of_length_eq_zero htimed.symm
                  refine h.turn ht ?_ ?_ fun hentry => by cases hentry
                  · simp only [CoreFetch.advanceTask, hqueue]
                  · simp only [advances, hnil]
          | _ => exact h.turn ht rfl rfl id
      | asking opId peer =>
          cases answer with
          | unresponsive answer =>
              simp only [CoreFetch.advanceTask] at hr
              refine h.turn ht ?_ rfl ?_
              · simp only [CoreFetch.advanceTask]
                split
                · rfl
                · rfl
              · simp only [CoreFetch.advanceTask]
                split
                · exact id
                · exact id
          | _ => exact h.turn ht rfl rfl id
      | checking opId peer =>
          cases answer with
          | locked =>
              by_cases hin : (opId, peer) ∈ w.fetch.requests
              · refine h.turn ht ?_ rfl ?_
                · simp only [CoreFetch.advanceTask, if_pos hin]
                · simp only [CoreFetch.advanceTask, if_pos hin]
                  exact id
              · refine h.turn ht ?_ rfl ?_
                · simp only [CoreFetch.advanceTask, if_neg hin, outgoingRequests_notify]
                · -- the request in its hands is not pending
                  intro hentry
                  simp only [CoreFetch.advanceTask, if_neg hin, requests_notify] at hr
                  exact absurd hr (Option.some.inj hentry ▸ hin)
          | _ => exact h.turn ht rfl rfl id
      | sending opId peer =>
          cases answer with
          | sent ok =>
              cases ok with
              | true => exact h.sent hpast ht
              | false =>
                  refine h.turn ht ?_ rfl ?_
                  · simp only [CoreFetch.advanceTask, Bool.false_eq_true, if_false,
                      outgoingRequests_notify]
                  · -- every request to the peer is removed
                    intro hentry
                    simp only [CoreFetch.advanceTask, Bool.false_eq_true, if_false,
                      requests_notify] at hr
                    rw [← AList.lookup_isSome, lookup_retain] at hr
                    have hpeer : r.2 = peer := congrArg Prod.snd (Option.some.inj hentry).symm
                    cases hlookup : w.fetch.requests.lookup r with
                    | none => simp [hlookup] at hr
                    | some m => simp [hlookup, Option.filter, hpeer] at hr
          | _ => exact h.turn ht rfl rfl id
      | stopped =>
          cases answer with
          | _ => exact h.turn ht rfl rfl id

/-! ### Every step -/

theorem Accounted.step (h : w.Accounted r a) (hlost : w.NothingLost) (hpast : a.time < w.clock)
    (hr : r ∈ (w.fetch.step e).requests) (hkept : TransportKept e) :
    (w.step e).Accounted r a := by
  cases e with
  | requestOps ops source =>
      rcases h with ⟨opIds, hcall, hin⟩ | hrest
      · refine Or.inl ⟨opIds, ?_, hin⟩
        simp only [QueueRun.step, CoreFetch.step, requestOps]
        rw [List.getElem?_append_left (List.getElem?_eq_some_iff.mp hcall).1]
        exact hcall
      · exact Or.inr hrest
  | filtered i answer => exact h.filtered answer
  | queue i => exact h.queue hlost hpast hr
  | advanceTask i answer => exact h.advanceTask hlost hpast hr hkept
  | notifyOnDrained =>
      rcases step_aside w.fetch (e := .notifyOnDrained) rfl with ⟨hcalls, hqueue, htasks⟩
      exact h.of_same hcalls hqueue htasks rfl
  | respond ops peer =>
      rcases step_aside w.fetch (e := .respond ops peer) rfl with ⟨hcalls, hqueue, htasks⟩
      exact h.of_same hcalls hqueue htasks rfl
  | receiveResponse =>
      rcases step_aside w.fetch (e := .receiveResponse) rfl with ⟨hcalls, hqueue, htasks⟩
      exact h.of_same hcalls hqueue htasks rfl
  | processed answer =>
      rcases step_aside w.fetch (e := .processed answer) rfl with ⟨hcalls, hqueue, htasks⟩
      exact h.of_same hcalls hqueue htasks rfl

/-- Only a task that waits for the queue takes an entry out of it. -/
theorem advanceTask_queue {t : RequestTask OpId Url} (ht : t ≠ .idle) (i : Nat) (answer : TaskAnswer) :
    (w.fetch.advanceTask t answer).2.outgoingRequests = w.fetch.outgoingRequests ∧
      (w.advances i t answer).1 = w.pushedAt := by
  refine ⟨?_, ?_⟩
  · unfold CoreFetch.advanceTask
    split
    · exact absurd rfl ht
    · split
      · rfl
      · rfl
    · split
      · rfl
      · rw [outgoingRequests_notify]
    · split
      · rfl
      · rw [outgoingRequests_notify]
    · rfl
  · unfold advances
    split
    · exact absurd rfl ht
    · rfl
    · rfl

/-- An entry and its time are pushed and popped together. -/
theorem NothingLost.step_timed (h : NothingLost w) (hkept : TransportKept e) :
    (w.step e).fetch.outgoingRequests.length = (w.step e).pushedAt.length := by
  cases e with
  | requestOps ops source => exact h.timed
  | filtered i answer =>
      exact (congrArg List.length (filtered_keeps w.fetch i answer).1).trans h.timed
  | queue i =>
      cases hc : w.fetch.calls[i]? with
      | none =>
          simp only [QueueRun.step, times, CoreFetch.step, hc]
          exact h.timed
      | some c =>
          simp only [QueueRun.step, times, CoreFetch.step, hc]
          cases c with
          | filtering metadata source => exact h.timed
          | ended => exact h.timed
          | queueing opIds source =>
              cases opIds with
              | nil => exact h.timed
              -- a push lengthens both lists, a closed or full queue neither
              | cons opId opIds =>
                  simp only [CoreFetch.queue, pushes]
                  split
                  · rw [outgoingRequests_notify]
                    exact h.timed
                  · split
                    · rw [List.length_append, List.length_append, h.timed]
                      rfl
                    · exact h.timed
  | advanceTask i answer =>
      cases ht : w.fetch.requestTasks[i]? with
      | none =>
          simp only [QueueRun.step, times, CoreFetch.step, ht]
          exact h.timed
      | some t =>
          simp only [QueueRun.step, times, step_advanceTask ht, ht]
          by_cases hidle : t = .idle
          · subst hidle
            cases answer with
            -- an idle task pops both
            | upgraded present =>
                cases (hkept : present = true)
                have htimed := h.timed
                cases hqueue : w.fetch.outgoingRequests with
                | nil =>
                    rw [hqueue] at htimed
                    have hnil : w.pushedAt = [] := List.eq_nil_of_length_eq_zero htimed.symm
                    simp only [CoreFetch.advanceTask, advances, hqueue, hnil]
                    rfl
                | cons entry rest =>
                    cases hpushedAt : w.pushedAt with
                    | nil =>
                        rw [hqueue, hpushedAt] at htimed
                        cases htimed
                    | cons time times =>
                        rw [hqueue, hpushedAt, List.length_cons, List.length_cons] at htimed
                        simp only [CoreFetch.advanceTask, advances, hqueue, hpushedAt]
                        exact Nat.succ.inj htimed
            | _ => exact h.timed
          · rw [(advanceTask_queue hidle i answer).1, (advanceTask_queue hidle i answer).2]
            exact h.timed
  | notifyOnDrained =>
      exact (congrArg List.length (step_aside w.fetch rfl).2.1).trans h.timed
  | respond ops peer =>
      exact (congrArg List.length (step_aside w.fetch rfl).2.1).trans h.timed
  | receiveResponse =>
      exact (congrArg List.length (step_aside w.fetch rfl).2.1).trans h.timed
  | processed answer =>
      exact (congrArg List.length (step_aside w.fetch rfl).2.1).trans h.timed

/-- A request that is pending after a step without having been before was inserted by it. -/
theorem inserts_ne_nil (hr : r ∈ (w.fetch.step e).requests) (hnew : r ∉ w.fetch.requests) :
    w.inserts r e ≠ [] := by
  rw [← AList.lookup_isSome] at hr
  rw [← AList.lookup_eq_none] at hnew
  by_cases he : ∀ i answer, e ≠ .filtered i answer
  · rcases step_keptOrRemoved w.fetch e he r with hsame | hgone
    · rw [hsame, hnew] at hr
      cases hr
    · rw [hgone] at hr
      cases hr
  -- only an answer of the op store adds requests
  · push Not at he
    rcases he with ⟨i, answer, rfl⟩
    cases hfrom : w.fetch.calls[i]?.bind RequestCall.filteringFrom with
    | none =>
        rw [requests_filtered, hnew] at hr
        · cases hr
        · rintro metadata source newOpIds hcall rfl
          rw [hcall] at hfrom
          cases hfrom
    | some source =>
        rcases Option.bind_eq_some_iff.mp hfrom with ⟨c, hcall, hc⟩
        cases c with
        | queueing opIds source' => cases hc
        | ended => cases hc
        | filtering metadata source' =>
            cases hc
            cases answer with
            | none =>
                rw [requests_filtered, hnew] at hr
                · cases hr
                · rintro metadata source newOpIds _ heq
                  cases heq
            | some newOpIds =>
                rw [lookup_filtered hcall newOpIds r] at hr
                split at hr
                · rename_i hadded
                  simp only [inserts, hfrom]
                  rw [if_pos ⟨congrArg some hadded.1.symm, hadded.2⟩]
                  exact List.cons_ne_nil _ _
                · rw [hnew] at hr
                  cases hr

/-- The call that inserts a request goes on to queue it. -/
theorem accounted_of_inserts (ha : a ∈ w.inserts r e) :
    a.time = w.clock ∧ (w.step e).Accounted r a := by
  unfold inserts at ha
  split at ha
  · rename_i i newOpIds
    split at ha
    · rename_i hadded
      cases List.mem_singleton.mp ha
      refine ⟨rfl, Or.inl ⟨newOpIds, ?_, hadded.2⟩⟩
      rcases Option.bind_eq_some_iff.mp hadded.1 with ⟨c, hcall, hc⟩
      simp only [QueueRun.step, CoreFetch.step, hcall]
      rw [List.getElem?_set_self (List.getElem?_eq_some_iff.mp hcall).1]
      cases c with
      | filtering metadata source =>
          cases hc
          rfl
      | queueing opIds source => cases hc
      | ended => cases hc
    · cases ha
  · cases ha

theorem NothingLost.step (h : NothingLost w) (hkept : TransportKept e) :
    NothingLost (w.step e) := by
  -- an insertion of a request that is pending is an earlier one, or is made by the step
  have hinserted : ∀ r, ∀ a ∈ (w.step e).inserted r, r ∈ (w.fetch.step e).requests ∧
      ((r ∈ w.fetch.requests ∧ a ∈ w.inserted r) ∨ a ∈ w.inserts r e) := by
    intro r a ha
    simp only [QueueRun.step] at ha
    split at ha
    · rename_i hr
      refine ⟨hr, ?_⟩
      rcases List.mem_append.mp ha with hold | hnew
      · split at hold
        · rename_i hbefore
          exact Or.inl ⟨hbefore, hold⟩
        · cases hold
      · exact Or.inr hnew
    · cases ha
  refine ⟨h.step_timed hkept, ?_, ?_, ?_⟩
  · intro r hr
    have hr : r ∈ (w.fetch.step e).requests := hr
    simp only [QueueRun.step, if_pos hr]
    split
    · rename_i hbefore
      exact List.append_ne_nil_of_left_ne_nil (h.inserted r hbefore) _
    · rename_i hnew
      exact List.append_ne_nil_of_right_ne_nil _ (inserts_ne_nil hr hnew)
  · intro r a ha
    change a.time < w.clock + 1
    rcases (hinserted r a ha).2 with ⟨_, hold⟩ | hnew
    · have hpast := h.past r a hold
      omega
    · have htime := (accounted_of_inserts hnew).1
      omega
  · intro r hr a ha
    rcases (hinserted r a ha).2 with ⟨hbefore, hold⟩ | hnew
    · exact (h.accounted r hbefore a hold).step h (h.past r a hold) hr hkept
    · exact (accounted_of_inserts hnew).2

/-- After every run in which the transport is not gone, each insertion of a pending request is accounted
for: the call that made it is still queueing the request, or an entry pushed later is in the queue or in
the hands of a task, or the request was sent to the peer later. -/
theorem pending_requests_accounted (parallelRequestCount : UInt8)
    (events : List (FetchEvent OpId Url)) (hkept : ∀ e ∈ events, TransportKept e) :
    ∀ r ∈ (run parallelRequestCount events).fetch.requests,
      (run parallelRequestCount events).inserted r ≠ [] ∧
        ∀ a ∈ (run parallelRequestCount events).inserted r,
          (run parallelRequestCount events).Accounted r a := by
  have hlost : NothingLost (run parallelRequestCount events) := by
    unfold run
    exact List.foldlRecOn events step (nothingLost_start parallelRequestCount)
      fun _ h e he => h.step (hkept e he)
  exact fun r hr => ⟨hlost.inserted r hr, hlost.accounted r hr⟩

/-- Two requests to one peer: the send of the first fails and removes both, a second call asks for the
second op again, and its old entry is popped and sent. -/
def requestAgain : List (FetchEvent Bool Bool) :=
  [.requestOps [⟨true, none⟩, ⟨false, none⟩] true, .filtered 0 (some [true, false]), .queue 0,
    .queue 0, .advanceTask 0 (.upgraded true), .advanceTask 0 (.unresponsive (some false)),
    .advanceTask 0 .locked, .advanceTask 0 (.sent false), .requestOps [⟨false, none⟩] true,
    .filtered 1 (some [false]), .advanceTask 0 (.upgraded true),
    .advanceTask 0 (.unresponsive none), .advanceTask 0 .locked, .advanceTask 0 (.sent true)]

theorem pending_requests_accounted_requestAgain :
    (run 1 requestAgain).fetch.requests.lookup (false, true) = some none ∧
      (run 1 requestAgain).inserted (false, true) = [⟨9, 1⟩] ∧
      (run 1 requestAgain).Accounted (false, true) ⟨9, 1⟩ := by
  have hinserted : (run 1 requestAgain).inserted (false, true) = [⟨9, 1⟩] := by decide +kernel
  have haccounted := pending_requests_accounted 1 requestAgain
    (by simp [requestAgain, TransportKept]) (false, true) (by decide +kernel)
  refine ⟨by decide +kernel, hinserted, haccounted.2 _ ?_⟩
  rw [hinserted]
  exact List.mem_singleton_self _

end QueueRun

end Core
end Kitsune2
