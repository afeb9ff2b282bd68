import Mathlib.Data.List.Induction
import Kitsune2.Core.Fetch

/-!
# FetchMetadata — the metadata of a pending request

A pending request keeps the metadata that a call of `request_ops` gave for it, and the op goes to the op
store with it.  A call first merges the ops of its batch by id, then asks the op store which of them are
new, and adds the requests under the lock: metadata that is there already is never replaced.

`MetadataRun` follows a run and notes for every pending request what has been given for it since it
became pending.  A call gives the metadata of all ops of its batch, in order, when its requests are
added.
-/

namespace Kitsune2
namespace Core

open Api Lib

variable {OpId Url : Type} [DecidableEq OpId] [DecidableEq Url]

/-! ## Batches -/

/-- The ops of a batch merged by id, as `request_ops` does it. -/
def mergedMetadata (ops : List (PublishOp OpId)) : AList fun _ : OpId => Option Bytes :=
  ops.foldl (fun m op => m.insert op.opId op.metadata) ∅

/-- The metadata of the last op with this id. -/
def lastMetadata (ops : List (PublishOp OpId)) (opId : OpId) : Option Bytes :=
  ((ops.filter fun op => op.opId = opId).getLast?).bind PublishOp.metadata

/-- All metadata that the batch has for an id, in the order of its ops. -/
def metadataFor (ops : List (PublishOp OpId)) (opId : OpId) : List Bytes :=
  (ops.filter fun op => op.opId = opId).filterMap PublishOp.metadata

theorem lookup_mergedMetadata (ops : List (PublishOp OpId)) (opId : OpId) :
    ((mergedMetadata ops).lookup opId).join = lastMetadata ops opId := by
  induction ops using List.reverseRecOn with
  | nil => rfl
  | append_singleton ops op ih =>
      have hmerged : mergedMetadata (ops ++ [op]) =
          (mergedMetadata ops).insert op.opId op.metadata := by
        simp only [mergedMetadata, List.foldl_append, List.foldl_cons, List.foldl_nil]
      rw [hmerged]
      unfold lastMetadata at ih ⊢
      by_cases hid : op.opId = opId
      · subst hid
        rw [AList.lookup_insert, List.filter_append, List.filter_cons_of_pos (by simp)]
        simp
      · rw [AList.lookup_insert_ne (Ne.symm hid), ih, List.filter_append,
          List.filter_cons_of_neg (by simp [hid])]
        simp

/-- An id that the batch does not have. -/
theorem metadataFor_eq_nil {ops : List (PublishOp OpId)} {opId : OpId}
    (h : ∀ op ∈ ops, op.opId ≠ opId) : metadataFor ops opId = [] ∧ lastMetadata ops opId = none := by
  have hnone : ops.filter (fun op => op.opId = opId) = [] :=
    List.filter_eq_nil_iff.mpr fun op hop => by simp [h op hop]
  unfold metadataFor lastMetadata
  rw [hnone]
  exact ⟨rfl, rfl⟩

namespace CoreFetch

variable {s : CoreFetch OpId Url} {r : OpId × Url} {source : Url}

/-! ## Adding requests -/

/-- What the requests of a call leave at one key: metadata that is there already, else that of the
call. -/
theorem lookup_addRequests (source : Url) (r : OpId × Url) (opIds : List OpId) :
    ∀ acc : (AList fun _ : OpId => Option Bytes) × AList fun _ : OpId × Url => Option Bytes,
      (opIds.foldl (addRequest source) acc).2.lookup r =
        if r.2 = source ∧ r.1 ∈ opIds then
          some ((acc.2.lookup r).join.or (acc.1.lookup r.1).join)
        else acc.2.lookup r := by
  induction opIds with
  | nil =>
      intro acc
      simp
  | cons opId opIds ih =>
      intro acc
      rw [List.foldl_cons, ih]
      by_cases hkey : r = (opId, source)
      · -- the request of this key: it has what it had, or what the call has for the id
        have hhere : (addRequest source acc opId).2.lookup r =
            some ((acc.2.lookup r).join.or (acc.1.lookup r.1).join) := by
          unfold addRequest
          dsimp only
          rw [← hkey]
          cases hjoin : (acc.2.lookup r).join with
          | none =>
              dsimp only
              rw [AList.lookup_insert, hkey, Option.none_or]
          | some m =>
              rw [Option.join_eq_some_iff] at hjoin
              dsimp only
              rw [hjoin, Option.some_or]
        have hgone : ((addRequest source acc opId).1.lookup r.1).join = none := by
          have hfst : (addRequest source acc opId).1 = acc.1.erase opId := by
            unfold addRequest
            dsimp only
            split
            · rfl
            · rfl
          rw [hfst, hkey, AList.lookup_erase]
          rfl
        rw [hhere, hgone, hkey]
        simp
      · have hother : (addRequest source acc opId).2.lookup r = acc.2.lookup r := by
          unfold addRequest
          dsimp only
          split
          · rfl
          · exact AList.lookup_insert_ne hkey
        rw [hother]
        by_cases hsource : r.2 = source
        · have hid : r.1 ≠ opId := fun heq => hkey (Prod.ext heq hsource)
          have hsame : (addRequest source acc opId).1.lookup r.1 = acc.1.lookup r.1 := by
            unfold addRequest
            dsimp only
            split
            · exact AList.lookup_erase_ne hid
            · exact AList.lookup_erase_ne hid
          rw [hsame]
          simp [hsource, hid]
        · simp [hsource]

omit [DecidableEq OpId] [DecidableEq Url] in
@[simp] theorem requests_notify (s : CoreFetch OpId Url) :
    s.notifyListenersIfQueueDrained.requests = s.requests := by
  unfold notifyListenersIfQueueDrained
  split
  · rfl
  · rfl

omit [DecidableEq OpId] [DecidableEq Url] in
@[simp] theorem calls_notify (s : CoreFetch OpId Url) :
    s.notifyListenersIfQueueDrained.calls = s.calls := by
  unfold notifyListenersIfQueueDrained
  split
  · rfl
  · rfl

/-- A request stays as it is, or is removed. -/
def KeptOrRemoved (before after : AList fun _ : OpId × Url => Option Bytes) (r : OpId × Url) : Prop :=
  after.lookup r = before.lookup r ∨ after.lookup r = none

theorem keptOrRemoved_erase (requests : AList fun _ : OpId × Url => Option Bytes)
    (r r' : OpId × Url) : KeptOrRemoved requests (requests.erase r') r := by
  by_cases h : r = r'
  · rw [h]
    exact Or.inr (AList.lookup_erase _ _)
  · exact Or.inl (AList.lookup_erase_ne h)

theorem keptOrRemoved_retain (requests : AList fun _ : OpId × Url => Option Bytes)
    (keep : OpId × Url → Option Bytes → Bool) (r : OpId × Url) :
    KeptOrRemoved requests (retain keep requests) r := by
  unfold KeptOrRemoved
  rw [lookup_retain]
  cases requests.lookup r with
  | none => exact Or.inl rfl
  | some m =>
      cases h : keep r m with
      | true => exact Or.inl (by simp [Option.filter, h])
      | false => exact Or.inr (by simp [Option.filter, h])

theorem queue_keptOrRemoved (s : CoreFetch OpId Url) (c : RequestCall OpId Url) (r : OpId × Url) :
    KeptOrRemoved s.requests (s.queue c).2.requests r := by
  cases c with
  | filtering metadata source => exact Or.inl rfl
  | ended => exact Or.inl rfl
  | queueing opIds source =>
      cases opIds with
      | nil => exact Or.inl rfl
      | cons opId opIds =>
          simp only [queue]
          split
          · rw [requests_notify]
            exact keptOrRemoved_erase s.requests r (opId, source)
          · split
            · exact Or.inl rfl
            · exact Or.inl rfl

theorem advanceTask_keptOrRemoved (s : CoreFetch OpId Url) (t : RequestTask OpId Url)
    (answer : TaskAnswer) (r : OpId × Url) :
    KeptOrRemoved s.requests (s.advanceTask t answer).2.requests r := by
  unfold advanceTask
  split
  · split
    · exact Or.inl rfl
    · exact Or.inl rfl
  · split
    · exact keptOrRemoved_erase s.requests r _
    · exact Or.inl rfl
  · split
    · exact Or.inl rfl
    · rw [requests_notify]
      exact Or.inl rfl
  · split
    · exact Or.inl rfl
    · rw [requests_notify]
      exact keptOrRemoved_retain s.requests _ r
  · exact Or.inl rfl

theorem calls_advanceTask (s : CoreFetch OpId Url) (t : RequestTask OpId Url)
    (answer : TaskAnswer) : (s.advanceTask t answer).2.calls = s.calls := by
  unfold advanceTask
  split
  · split
    · rfl
    · rfl
  · split
    · rfl
    · rfl
  · split
    · rfl
    · rw [calls_notify]
  · split
    · rfl
    · rw [calls_notify]
  · rfl

/-- Steps that neither a call nor an outgoing request task takes. -/
def aside : FetchEvent OpId Url → Bool
  | .notifyOnDrained => true
  | .respond _ _ => true
  | .receiveResponse => true
  | .processed _ => true
  | _ => false

theorem step_aside (s : CoreFetch OpId Url) {e : FetchEvent OpId Url} (he : aside e = true) :
    (s.step e).calls = s.calls ∧ (s.step e).outgoingRequests = s.outgoingRequests ∧
      (s.step e).requestTasks = s.requestTasks := by
  cases e with
  | notifyOnDrained =>
      simp only [step, notifyOnDrained]
      split
      · exact ⟨rfl, rfl, rfl⟩
      · exact ⟨rfl, rfl, rfl⟩
  | respond ops peer =>
      simp only [step, respond]
      split
      · exact ⟨rfl, rfl, rfl⟩
      · exact ⟨rfl, rfl, rfl⟩
  | receiveResponse =>
      simp only [step, receiveResponse]
      split
      · exact ⟨rfl, rfl, rfl⟩
      · exact ⟨rfl, rfl, rfl⟩
  | processed answer =>
      simp only [step, processed]
      split
      · exact ⟨rfl, rfl, rfl⟩
      · split
        · exact ⟨rfl, rfl, rfl⟩
        · exact ⟨rfl, rfl, rfl⟩
  | _ => cases he

/-- Only the answer of the op store to a call adds requests or metadata. -/
theorem step_keptOrRemoved (s : CoreFetch OpId Url) (e : FetchEvent OpId Url)
    (he : ∀ i answer, e ≠ .filtered i answer) (r : OpId × Url) :
    KeptOrRemoved s.requests (s.step e).requests r := by
  cases e with
  | requestOps ops source => exact Or.inl rfl
  | notifyOnDrained =>
      unfold step notifyOnDrained
      dsimp only
      split
      · exact Or.inl rfl
      · exact Or.inl rfl
  -- the one event that adds
  | filtered i answer => exact absurd rfl (he i answer)
  | queue i =>
      unfold step
      dsimp only
      split
      · exact Or.inl rfl
      · exact queue_keptOrRemoved s _ r
  | advanceTask i answer =>
      unfold step
      dsimp only
      split
      · exact Or.inl rfl
      · exact advanceTask_keptOrRemoved s _ answer r
  | respond ops peer =>
      unfold step respond
      dsimp only
      split
      · exact Or.inl rfl
      · exact Or.inl rfl
  | receiveResponse =>
      unfold step receiveResponse
      dsimp only
      split
      · exact Or.inl rfl
      · exact Or.inl rfl
  | processed answer =>
      unfold step processed
      dsimp only
      split
      · exact Or.inl rfl
      · split
        · exact Or.inl rfl
        · exact keptOrRemoved_retain s.requests _ r

/-- The op store's answer adds the requests of a call, with the metadata of the call where there was
none. -/
theorem lookup_filtered {i : Nat} {metadata : AList fun _ : OpId => Option Bytes}
    (hcall : s.calls[i]? = some (.filtering metadata source)) (newOpIds : List OpId)
    (r : OpId × Url) :
    (s.step (.filtered i (some newOpIds))).requests.lookup r =
      if r.2 = source ∧ r.1 ∈ newOpIds then
        some ((s.requests.lookup r).join.or (metadata.lookup r.1).join)
      else s.requests.lookup r := by
  simp only [step, hcall, filtered]
  exact lookup_addRequests source r newOpIds (metadata, s.requests)

/-- The op store's answer to anything else changes no request. -/
theorem requests_filtered {i : Nat} {answer : Option (List OpId)}
    (h : ∀ metadata source newOpIds, s.calls[i]? = some (.filtering metadata source) →
      answer ≠ some newOpIds) :
    (s.step (.filtered i answer)).requests = s.requests := by
  cases hcall : s.calls[i]? with
  | none => simp only [step, hcall]
  | some c =>
      simp only [step, hcall]
      cases c with
      | filtering metadata source =>
          cases answer with
          | none => rfl
          | some newOpIds => exact absurd rfl (h metadata source newOpIds hcall)
      | queueing opIds source => rfl
      | ended => rfl

end CoreFetch

/-! ## What has been given -/

namespace RequestCall

/-- The source of a call that waits for the op store. -/
def filteringFrom : RequestCall OpId Url → Option Url
  | .filtering _ source => some source
  | _ => none

/-- The source of a call that has not ended. -/
def source : RequestCall OpId Url → Option Url
  | .filtering _ source => some source
  | .queueing _ source => some source
  | .ended => none

end RequestCall

/-- A run, with the batches of its calls and the metadata given for each pending request since it became
pending. -/
structure MetadataRun (OpId Url : Type) where
  fetch : CoreFetch OpId Url
  batches : List (List (PublishOp OpId))
  given : OpId × Url → List Bytes

namespace MetadataRun

open CoreFetch

def start (parallelRequestCount : UInt8) : MetadataRun OpId Url where
  fetch := .new parallelRequestCount
  batches := []
  given := fun _ => []

/-- The source and the batch of a call that waits for the op store. -/
def waiting (w : MetadataRun OpId Url) (i : Nat) : Option (Url × List (PublishOp OpId)) :=
  (w.fetch.calls[i]?.bind RequestCall.filteringFrom).bind fun source =>
    w.batches[i]?.map fun ops => (source, ops)

/-- The metadata that an event gives for a request. -/
def gives (w : MetadataRun OpId Url) (r : OpId × Url) : FetchEvent OpId Url → List Bytes
  | .filtered i (some _) =>
      match w.waiting i with
      | some (source, ops) => if r.2 = source then metadataFor ops r.1 else []
      | none => []
  | _ => []

def step (w : MetadataRun OpId Url) (e : FetchEvent OpId Url) : MetadataRun OpId Url where
  fetch := w.fetch.step e
  batches :=
    match e with
    | .requestOps ops _ => w.batches ++ [ops]
    | _ => w.batches
  given := fun r =>
    if r ∈ (w.fetch.step e).requests then
      (if r ∈ w.fetch.requests then w.given r else []) ++ w.gives r e
    else []

def run (parallelRequestCount : UInt8) (events : List (FetchEvent OpId Url)) :
    MetadataRun OpId Url :=
  events.foldl step (start parallelRequestCount)

/-- The fetch state of the run is that of the fetch module. -/
theorem fetch_run (parallelRequestCount : UInt8) (events : List (FetchEvent OpId Url)) :
    (run parallelRequestCount events).fetch = CoreFetch.run parallelRequestCount events := by
  have hfold : ∀ w : MetadataRun OpId Url,
      (events.foldl step w).fetch = events.foldl CoreFetch.step w.fetch := by
    induction events with
    | nil => exact fun _ => rfl
    | cons e events ih => exact fun w => ih (w.step e)
  exact hfold (start parallelRequestCount)

/-- For a request that has no metadata yet, the batch's last op with the id has the first metadata that
the batch has for it; if the op store does not let the id through, the batch has none. -/
def BatchKept (requests : AList fun _ : OpId × Url => Option Bytes) (newOpIds : List OpId)
    (source : Url) (ops : List (PublishOp OpId)) : Prop :=
  ∀ op ∈ ops, (requests.lookup (op.opId, source)).join = none →
    if op.opId ∈ newOpIds then lastMetadata ops op.opId = (metadataFor ops op.opId).head?
    else (op.opId, source) ∈ requests → metadataFor ops op.opId = []

instance BatchKept.decidable (requests : AList fun _ : OpId × Url => Option Bytes)
    (newOpIds : List OpId) (source : Url) (ops : List (PublishOp OpId)) :
    Decidable (BatchKept requests newOpIds source ops) :=
  inferInstanceAs (Decidable (∀ op ∈ ops, (requests.lookup (op.opId, source)).join = none →
    if op.opId ∈ newOpIds then lastMetadata ops op.opId = (metadataFor ops op.opId).head?
    else (op.opId, source) ∈ requests → metadataFor ops op.opId = []))

/-- The batch of an answered call is merged without loss, and the op store keeps nothing of it back that
a pending request lacks. -/
def KeepsFirst (w : MetadataRun OpId Url) : FetchEvent OpId Url → Prop
  | .filtered i (some newOpIds) =>
      ∀ b ∈ w.waiting i, BatchKept w.fetch.requests newOpIds b.1 b.2
  | _ => True

instance KeepsFirst.decidable (w : MetadataRun OpId Url) :
    ∀ e : FetchEvent OpId Url, Decidable (w.KeepsFirst e)
  | .filtered i (some newOpIds) =>
      inferInstanceAs (Decidable (∀ b ∈ w.waiting i, BatchKept w.fetch.requests newOpIds b.1 b.2))
  | .filtered _ none => .isTrue trivial
  | .requestOps _ _ => .isTrue trivial
  | .notifyOnDrained => .isTrue trivial
  | .queue _ => .isTrue trivial
  | .advanceTask _ _ => .isTrue trivial
  | .respond _ _ => .isTrue trivial
  | .receiveResponse => .isTrue trivial
  | .processed _ => .isTrue trivial

/-! ## The invariant -/

variable {w : MetadataRun OpId Url} {r : OpId × Url} {i : Nat}

/-- Every call that waits has its batch merged, and every request has the first metadata given for it. -/
structure Follows (w : MetadataRun OpId Url) : Prop where
  batches : w.batches.length = w.fetch.calls.length
  merged : ∀ (i : Nat) metadata source, w.fetch.calls[i]? = some (.filtering metadata source) →
    ∃ ops, w.batches[i]? = some ops ∧ metadata = mergedMetadata ops
  first : ∀ r, (w.fetch.requests.lookup r).join = (w.given r).head?

theorem follows_start (parallelRequestCount : UInt8) :
    Follows (start parallelRequestCount : MetadataRun OpId Url) where
  batches := rfl
  merged := by
    intro i metadata source h
    simp [start, CoreFetch.new] at h
  first := fun _ => rfl

/-- Replacing a call by one that does not wait, or leaves the wait as it is. -/
theorem Follows.merged_set (h : Follows w) {c c' : RequestCall OpId Url}
    (hcall : w.fetch.calls[i]? = some c)
    (hc : ∀ metadata source, c' = .filtering metadata source → c = .filtering metadata source) :
    w.batches.length = (w.fetch.calls.set i c').length ∧
      ∀ (j : Nat) metadata source, (w.fetch.calls.set i c')[j]? = some (.filtering metadata source) →
        ∃ ops, w.batches[j]? = some ops ∧ metadata = mergedMetadata ops := by
  refine ⟨by rw [List.length_set, h.batches], ?_⟩
  intro j metadata source hj
  rcases getElem?_set_cases hj with ⟨rfl, heq⟩ | ⟨_, hold⟩
  · exact h.merged i metadata source (hc metadata source heq.symm ▸ hcall)
  · exact h.merged j metadata source hold

/-- Batches are added with their calls, and no other step makes a call wait. -/
theorem Follows.step_merged (h : Follows w) (e : FetchEvent OpId Url) :
    (w.step e).batches.length = (w.step e).fetch.calls.length ∧
      ∀ (i : Nat) metadata source, (w.step e).fetch.calls[i]? = some (.filtering metadata source) →
        ∃ ops, (w.step e).batches[i]? = some ops ∧ metadata = mergedMetadata ops := by
  -- steps of the tasks leave the calls alone
  have hsame : (w.fetch.step e).calls = w.fetch.calls → (w.step e).batches = w.batches →
      (w.step e).batches.length = (w.step e).fetch.calls.length ∧
      ∀ (i : Nat) metadata source, (w.step e).fetch.calls[i]? = some (.filtering metadata source) →
        ∃ ops, (w.step e).batches[i]? = some ops ∧ metadata = mergedMetadata ops := by
    intro hcalls hbatches
    have hcalls' : (w.step e).fetch.calls = w.fetch.calls := hcalls
    rw [hcalls', hbatches]
    exact ⟨h.batches, h.merged⟩
  cases e with
  | requestOps ops source =>
      refine ⟨?_, ?_⟩
      · simp only [step, CoreFetch.step, requestOps, List.length_append, h.batches,
          List.length_singleton]
      · intro i metadata source' hcall
        rcases getElem?_concat_cases hcall with hold | ⟨rfl, heq⟩
        · rcases h.merged i metadata source' hold with ⟨ops', hops', hmerged⟩
          refine ⟨ops', ?_, hmerged⟩
          simp only [step]
          rw [List.getElem?_append_left (List.getElem?_eq_some_iff.mp hops').1, hops']
        · cases heq
          refine ⟨ops, ?_, rfl⟩
          simp only [step]
          rw [← h.batches, List.getElem?_concat_length]
  | filtered i answer =>
      cases hcall : w.fetch.calls[i]? with
      | none => exact hsame (by simp only [CoreFetch.step, hcall]) rfl
      | some c =>
          have hstep : (w.step (.filtered i answer)).fetch.calls =
              w.fetch.calls.set i (w.fetch.filtered answer c).1 := by
            simp only [step, CoreFetch.step, hcall]
          rw [hstep]
          refine h.merged_set hcall ?_
          intro metadata source heq
          cases c with
          | filtering metadata' source' =>
              cases answer with
              | none => cases heq
              | some newOpIds => cases heq
          | queueing opIds source' => cases heq
          | ended => cases heq
  | queue i =>
      cases hcall : w.fetch.calls[i]? with
      | none => exact hsame (by simp only [CoreFetch.step, hcall]) rfl
      | some c =>
          have hstep : (w.step (.queue i)).fetch.calls =
              w.fetch.calls.set i (w.fetch.queue c).1 := by
            simp only [step, CoreFetch.step, hcall]
          rw [hstep]
          refine h.merged_set hcall ?_
          intro metadata source heq
          cases c with
          | filtering metadata' source' => exact heq
          | ended => cases heq
          | queueing opIds source' =>
              cases opIds with
              | nil => cases heq
              | cons opId opIds =>
                  simp only [queue] at heq
                  split at heq
                  · cases heq
                  · split at heq
                    · cases heq
                    · cases heq
  | advanceTask i answer =>
      refine hsame ?_ rfl
      unfold CoreFetch.step
      dsimp only
      split
      · rfl
      · exact calls_advanceTask w.fetch _ answer
  | notifyOnDrained => exact hsame (step_aside w.fetch rfl).1 rfl
  | respond ops peer => exact hsame (step_aside w.fetch rfl).1 rfl
  | receiveResponse => exact hsame (step_aside w.fetch rfl).1 rfl
  | processed answer => exact hsame (step_aside w.fetch rfl).1 rfl

omit [DecidableEq OpId] [DecidableEq Url] in
theorem waiting_eq_some_iff {source : Url} {ops : List (PublishOp OpId)} :
    w.waiting i = some (source, ops) ↔
      (∃ metadata, w.fetch.calls[i]? = some (.filtering metadata source)) ∧
        w.batches[i]? = some ops := by
  unfold waiting
  cases hcall : w.fetch.calls[i]? with
  | none => simp
  | some c =>
      cases c with
      | filtering metadata source' =>
          cases hbatch : w.batches[i]? with
          | none => simp [RequestCall.filteringFrom]
          | some ops' => simp [RequestCall.filteringFrom]
      | queueing opIds source' => simp [RequestCall.filteringFrom]
      | ended => simp [RequestCall.filteringFrom]

/-- What was given before the step for a request that stays pending, or is new. -/
theorem Follows.head?_before (h : Follows w) (r : OpId × Url) :
    (if r ∈ w.fetch.requests then w.given r else []).head? = (w.fetch.requests.lookup r).join := by
  split
  · exact (h.first r).symm
  · rename_i hout
    rw [AList.lookup_eq_none.mpr hout]
    rfl

/-- A step that leaves a request as it is and gives nothing for it. -/
theorem Follows.first_of_same (h : Follows w) {e : FetchEvent OpId Url}
    (hsame : (w.fetch.step e).requests.lookup r = w.fetch.requests.lookup r)
    (hgives : w.gives r e = []) :
    ((w.step e).fetch.requests.lookup r).join = ((w.step e).given r).head? := by
  simp only [step]
  split
  · rw [hgives, List.append_nil, h.head?_before, hsame]
  · rename_i hout
    rw [AList.lookup_eq_none.mpr hout]
    rfl

/-- The call's requests are added: where there is no metadata, they get the first that the batch has. -/
theorem Follows.first_added (h : Follows w) {source : Url} {ops : List (PublishOp OpId)}
    {newOpIds : List OpId} (hwait : w.waiting i = some (source, ops))
    (hkept : BatchKept w.fetch.requests newOpIds source ops) (r : OpId × Url) :
    ((w.step (.filtered i (some newOpIds))).fetch.requests.lookup r).join =
      ((w.step (.filtered i (some newOpIds))).given r).head? := by
  rcases waiting_eq_some_iff.mp hwait with ⟨⟨metadata, hcall⟩, hbatch⟩
  rcases h.merged i metadata source hcall with ⟨ops', hbatch', rfl⟩
  cases Option.some.inj (hbatch.symm.trans hbatch')
  have hadded := lookup_filtered hcall newOpIds r
  have hgives : w.gives r (.filtered i (some newOpIds)) =
      if r.2 = source then metadataFor ops r.1 else [] := by
    simp only [gives, hwait]
  by_cases hsource : r.2 = source
  · -- the batch may have something for this request
    rw [if_pos hsource] at hgives
    simp only [hsource, true_and] at hadded
    have hmerge : (w.fetch.requests.lookup r).join = none →
        if r.1 ∈ newOpIds then lastMetadata ops r.1 = (metadataFor ops r.1).head?
        else r ∈ w.fetch.requests → metadataFor ops r.1 = [] := by
      intro hnone
      by_cases hin : ∃ op ∈ ops, op.opId = r.1
      · rcases hin with ⟨op, hop, hid⟩
        have hr : (r.1, source) = r := by rw [← hsource]
        have hop' := hkept op hop
        rw [hid, hr] at hop'
        exact hop' hnone
      · rcases metadataFor_eq_nil fun op hop hid => hin ⟨op, hop, hid⟩ with ⟨hnil, hlast⟩
        split
        · rw [hlast, hnil]
          rfl
        · exact fun _ => hnil
    have hafter : ((w.step (.filtered i (some newOpIds))).fetch.requests.lookup r).join =
        if r.1 ∈ newOpIds then
          (w.fetch.requests.lookup r).join.or (lastMetadata ops r.1)
        else (w.fetch.requests.lookup r).join := by
      rw [← lookup_mergedMetadata]
      simp only [step, hadded]
      split
      · rfl
      · rfl
    by_cases hin : r ∈ (w.fetch.step (.filtered i (some newOpIds))).requests
    · have hgiven : ((w.step (.filtered i (some newOpIds))).given r).head? =
          (w.fetch.requests.lookup r).join.or (metadataFor ops r.1).head? := by
        simp only [step, if_pos hin, hgives, List.head?_append, h.head?_before]
      rw [hafter, hgiven]
      cases hjoin : (w.fetch.requests.lookup r).join with
      | some m => simp
      | none =>
          have hmerge := hmerge hjoin
          split at hmerge
          · rename_i hnew
            rw [if_pos hnew, hmerge]
          · rename_i hold
            have hpending : r ∈ w.fetch.requests := by
              rw [← AList.lookup_isSome, hadded, if_neg hold, AList.lookup_isSome] at hin
              exact hin
            rw [if_neg hold, hmerge hpending]
            rfl
    · simp only [step, if_neg hin]
      rw [AList.lookup_eq_none.mpr hin]
      rfl
  · rw [if_neg hsource] at hgives
    rw [if_neg fun hboth => hsource hboth.1] at hadded
    exact h.first_of_same hadded hgives

theorem Follows.step_first (h : Follows w) {e : FetchEvent OpId Url} (hkept : w.KeepsFirst e)
    (r : OpId × Url) :
    ((w.step e).fetch.requests.lookup r).join = ((w.step e).given r).head? := by
  -- every other event leaves the request with its first metadata or removes it
  have hother : (∀ i answer, e ≠ .filtered i answer) →
      ((w.step e).fetch.requests.lookup r).join = ((w.step e).given r).head? := by
    intro he
    have hgives : w.gives r e = [] := by
      unfold gives
      split
      · rename_i i newOpIds
        exact absurd rfl (he i (some newOpIds))
      · rfl
    rcases step_keptOrRemoved w.fetch e he r with hsame | hgone
    · exact h.first_of_same hsame hgives
    · have hout : r ∉ (w.fetch.step e).requests := AList.lookup_eq_none.mp hgone
      simp only [step, if_neg hout, hgone]
      rfl
  cases e with
  | filtered i answer =>
      cases answer with
      -- the call was not waiting for an answer of the store
      | none =>
          refine h.first_of_same ?_ rfl
          rw [requests_filtered]
          intro metadata source newOpIds _ heq
          cases heq
      | some newOpIds =>
          cases hwait : w.waiting i with
          | some b =>
              rcases b with ⟨source, ops⟩
              exact h.first_added hwait (hkept (source, ops) hwait) r
          | none =>
              refine h.first_of_same ?_ (by simp only [gives, hwait])
              rw [requests_filtered]
              intro metadata source newOpIds' hcall _
              rcases h.merged i metadata source hcall with ⟨ops, hops, _⟩
              rw [waiting_eq_some_iff.mpr ⟨⟨metadata, hcall⟩, hops⟩] at hwait
              cases hwait
  | requestOps ops source => exact hother fun _ _ heq => by cases heq
  | notifyOnDrained => exact hother fun _ _ heq => by cases heq
  | queue i => exact hother fun _ _ heq => by cases heq
  | advanceTask i answer => exact hother fun _ _ heq => by cases heq
  | respond ops peer => exact hother fun _ _ heq => by cases heq
  | receiveResponse => exact hother fun _ _ heq => by cases heq
  | processed answer => exact hother fun _ _ heq => by cases heq

theorem Follows.step (h : Follows w) (e : FetchEvent OpId Url) (hkept : w.KeepsFirst e) :
    Follows (w.step e) :=
  ⟨(h.step_merged e).1, (h.step_merged e).2, h.step_first hkept⟩

/-! ## Every state of a run -/

/-- A call changes no request to another peer than its own. -/
theorem call_keeps_others (s : CoreFetch OpId Url) {c : RequestCall OpId Url}
    (hcall : s.calls[i]? = some c) (hother : c.source ≠ some r.2) (answer : Option (List OpId)) :
    (s.step (.filtered i answer)).requests.lookup r = s.requests.lookup r ∧
      (s.step (.queue i)).requests.lookup r = s.requests.lookup r := by
  simp only [CoreFetch.step, hcall]
  -- both steps touch the requests of the call's own source only
  cases c with
  | ended => exact ⟨rfl, rfl⟩
  | filtering metadata source =>
      have hne : r.2 ≠ source := fun heq => hother (congrArg some heq.symm)
      refine ⟨?_, rfl⟩
      cases answer with
      | none => rfl
      | some newOpIds =>
          simp only [filtered]
          rw [lookup_addRequests, if_neg fun hboth => hne hboth.1]
  | queueing opIds source =>
      have hne : r.2 ≠ source := fun heq => hother (congrArg some heq.symm)
      refine ⟨rfl, ?_⟩
      cases opIds with
      | nil => rfl
      | cons opId opIds =>
          simp only [queue]
          split
          · rw [requests_notify]
            exact AList.lookup_erase_ne fun heq => hne (congrArg Prod.snd heq)
          · split
            · rfl
            · rfl

/-- In a run in which every batch keeps its first metadata, a pending request has the first metadata
given for it since it became pending, the op goes to the op store with it, and a call changes no request
to another peer. -/
theorem metadata_first_given (parallelRequestCount : UInt8)
    (events : List (FetchEvent OpId Url))
    (hkept : Along step KeepsFirst (start parallelRequestCount) events) :
    (∀ r ∈ (run parallelRequestCount events).fetch.requests,
      (run parallelRequestCount events).fetch.requests.lookup r =
        some ((run parallelRequestCount events).given r).head?) ∧
      (∀ ops peer rest, (run parallelRequestCount events).fetch.responseTask = .idle →
        (run parallelRequestCount events).fetch.incomingResponses = (ops, peer) :: rest →
        ((run parallelRequestCount events).fetch.step .receiveResponse).responseTask =
          .processing ops peer (ops.map fun op =>
            ⟨op.opId, op.data,
              ((run parallelRequestCount events).given (op.opId, peer)).head?⟩)) ∧
      ∀ (i : Nat) c r answer, (run parallelRequestCount events).fetch.calls[i]? = some c →
        c.source ≠ some r.2 →
        ((run parallelRequestCount events).fetch.step (.filtered i answer)).requests.lookup r =
            (run parallelRequestCount events).fetch.requests.lookup r ∧
          ((run parallelRequestCount events).fetch.step (.queue i)).requests.lookup r =
            (run parallelRequestCount events).fetch.requests.lookup r := by
  -- the invariant of the run carries all three parts
  have hfollows : Follows (run parallelRequestCount events) :=
    hkept.invariant (follows_start parallelRequestCount) fun _ e h hcond => h.step e hcond
  refine ⟨?_, ?_, ?_⟩
  · intro r hr
    rw [← hfollows.first r]
    cases hlookup : (run parallelRequestCount events).fetch.requests.lookup r with
    | none => exact absurd hr (AList.lookup_eq_none.mp hlookup)
    | some m => rfl
  · intro ops peer rest hidle hqueue
    simp only [CoreFetch.step, receiveResponse, hidle, hqueue]
    congr 1
    refine List.map_congr_left fun op _ => ?_
    rw [← hfollows.first (op.opId, peer)]
    rfl
  · intro i c r answer hcall hother
    exact call_keeps_others _ hcall hother answer

/-- Three calls for one op, of which the second is the first with metadata. -/
def upgradeAndKeep : List (FetchEvent Bool Bool) :=
  [.requestOps [⟨true, none⟩] true, .requestOps [⟨true, some [7]⟩] true,
    .requestOps [⟨true, some [8]⟩, ⟨true, some [8]⟩] true, .filtered 0 (some [true]),
    .filtered 1 (some [true]), .filtered 2 (some [true])]

theorem metadata_first_given_upgrade :
    (run 2 upgradeAndKeep).fetch.requests.lookup (true, true) = some (some [7]) := by
  have hkept : Along step KeepsFirst (start 2) upgradeAndKeep := by decide +kernel
  have hfirst := (metadata_first_given 2 upgradeAndKeep hkept).1 (true, true) (by decide +kernel)
  exact hfirst.trans (by decide +kernel)

/-- One batch names an op twice, the second time without metadata: what was given is lost. -/
theorem metadata_of_repeated_op_lost :
    ∃ events : List (FetchEvent Bool Bool),
      (true, true) ∈ (run 2 events).fetch.requests ∧
        (run 2 events).given (true, true) = [[1]] ∧
        (run 2 events).fetch.requests.lookup (true, true) = some none := by
  refine ⟨[.requestOps [⟨true, some [1]⟩, ⟨true, none⟩] true, .filtered 0 (some [true])], ?_⟩
  decide +kernel

end MetadataRun

end Core
end Kitsune2
