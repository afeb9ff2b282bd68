import Kitsune2.Core.FetchNetwork
import Kitsune2.Core.FetchSteps

/-!
# FetchPlaces — where a request is, and where it is next

A request goes from a call through the queue and a task to its peer, and comes back as a response that
goes through a queue to the host.  As long as none of these is disturbed the request is found at one of
these places, and it stays pending until the op is stored.
-/

namespace Kitsune2
namespace Core

open Api Lib

variable {OpId Url : Type} [DecidableEq OpId] [DecidableEq Url]

/-! ## What may go wrong elsewhere -/

namespace FetchNode

variable (node : FetchNode OpId Url) (opId : OpId) (peer : Url)

/-- The host names the ops that it has not, and processes only what it is given. -/
def answersRight : FetchEvent OpId Url → Bool
  | .filtered i (some newOpIds) =>
      match node.fetch.calls[i]? with
      | some (.filtering metadata _) =>
          decide (newOpIds.Perm (filterOutExistingOps node.ops metadata.keys))
      | _ => true
  | .processed (some opIds) =>
      match node.fetch.responseTask with
      | .processing _ _ incoming => opIds.all fun opId => opId ∈ incoming.map IncomingOp.opId
      | .idle => true
  | _ => true

/-- The event is no failure that concerns this op of this peer. -/
def undisturbed : FetchEvent OpId Url → Bool
  -- the op store refuses a call that asks the peer for the op
  | .filtered i none =>
      match node.fetch.calls[i]? with
      | some (.filtering metadata source) => source ≠ peer || opId ∉ metadata
      | _ => true
  | .advanceTask _ (.upgraded present) => present
  -- the peer is marked unresponsive while its request is looked at
  | .advanceTask i (.unresponsive (some true)) =>
      node.fetch.requestTasks[i]? ≠ some (.asking opId peer)
  -- a send to the peer fails
  | .advanceTask i (.sent false) =>
      match node.fetch.requestTasks[i]? with
      | some (.sending _ source) => source ≠ peer
      | _ => true
  -- the op arrives from the peer and the store does not take it
  | .processed answer =>
      match node.fetch.responseTask with
      | .processing _ source incoming =>
          source ≠ peer || opId ∉ incoming.map IncomingOp.opId || opId ∈ answer.getD []
      | .idle => true
  | _ => true

/-- The incoming request task does not fail an answer to this peer. -/
def answers (a : IncomingRequestAnswer) : Bool :=
  match node.answering, a with
  | _, .upgraded present => present
  | .retrieving _ source, .retrieved ok => ok || source ≠ peer
  | .sending _ source, .sent ok => ok || source ≠ peer
  | _, _ => true

/-- The queue for the message is not full. -/
def hasRoom : FetchMessage OpId → Bool
  | .request _ => node.incomingRequests.length < channelCapacity
  | .response _ => node.fetch.incomingResponses.length < channelCapacity

end FetchNode

/-- The transport is not found to be gone. -/
def IncomingRequestAnswer.FindsTransport : IncomingRequestAnswer → Prop
  | .upgraded present => present = true
  | _ => True

/-- A packet between the two nodes. -/
def Packet.between (a b : Url) (p : Packet OpId Url) : Bool :=
  (p.source = a && p.target = b) || (p.source = b && p.target = a)

namespace FetchNetwork

/-- The event is no failure that concerns this op, which the node requests from the peer. -/
def undisturbed (net : FetchNetwork OpId Url) (node : Url) (opId : OpId) (peer : Url) :
    NetworkEvent OpId Url → Bool
  | .advance url e =>
      url ≠ node ||
        (net.nodes node).answersRight e && (net.nodes node).undisturbed opId peer e
  | .answer url a => url ≠ peer || (net.nodes peer).answers node a
  | .deliver i =>
      match net.packets[i]? with
      | some p => !p.between node peer || (net.nodes p.target).hasRoom p.message
      | none => true
  | .lose i =>
      match net.packets[i]? with
      | some p => !p.between node peer
      | none => true
  | .author _ _ => true

end FetchNetwork

/-! ## Where a request is -/

namespace CoreFetch

variable {s : CoreFetch OpId Url} {r : OpId × Url}

/-- A call has yet to learn whether the op is in the store. -/
def Filtering (s : CoreFetch OpId Url) (r : OpId × Url) : Prop :=
  ∃ metadata, .filtering metadata r.2 ∈ s.calls ∧ r.1 ∈ metadata

/-- A call, the queue or a task has the request, or a response has come. -/
inductive Handles (s : CoreFetch OpId Url) (r : OpId × Url) : Prop where
  | queueing {opIds : List OpId} (hcall : .queueing opIds r.2 ∈ s.calls) (hop : r.1 ∈ opIds)
  | queued (hqueue : r ∈ s.outgoingRequests)
  | inHand {t : RequestTask OpId Url} (htask : t ∈ s.requestTasks) (hentry : t.entry = some r)
  | received {ops : List (Op OpId)} (hresponse : (ops, r.2) ∈ s.incomingResponses)
      (hop : r.1 ∈ ops.map Op.opId)
  | processing {ops : List (Op OpId)} {incoming : List (IncomingOp OpId)}
      (htask : s.responseTask = .processing ops r.2 incoming)
      (hop : r.1 ∈ incoming.map IncomingOp.opId)

end CoreFetch

/-- The incoming request task of the peer has the request, or its answer. -/
inductive FetchNode.Serves (node : FetchNode OpId Url) (opId : OpId) (peer : Url) : Prop where
  | incoming {opIds : List OpId} (hrequest : (opIds, peer) ∈ node.incomingRequests)
      (hop : opId ∈ opIds)
  | retrieving {opIds : List OpId} (htask : node.answering = .retrieving opIds peer)
      (hop : opId ∈ opIds)
  | sending {ops : List (Op OpId)} (htask : node.answering = .sending ops peer)
      (hop : opId ∈ ops.map Op.opId)

namespace FetchNetwork

/-- A packet between node and peer has the request or its answer. -/
inductive Carries (net : FetchNetwork OpId Url) (node : Url) (opId : OpId) (peer : Url) : Prop where
  | request {opIds : List OpId} (hpacket : ⟨node, peer, .request opIds⟩ ∈ net.packets)
      (hop : opId ∈ opIds)
  | response {ops : List (Op OpId)} (hpacket : ⟨peer, node, .response ops⟩ ∈ net.packets)
      (hop : opId ∈ ops.map Op.opId)

/-- The request is at some place on its way. -/
def OnItsWay (net : FetchNetwork OpId Url) (node : Url) (opId : OpId) (peer : Url) : Prop :=
  (net.nodes node).fetch.Handles (opId, peer) ∨ (net.nodes peer).Serves opId node ∨
    net.Carries node opId peer

/-- The op is stored, or requested and not forgotten. -/
def Owed (net : FetchNetwork OpId Url) (node : Url) (opId : OpId) (peer : Url) : Prop :=
  opId ∈ (net.nodes node).ops ∨ (net.nodes node).fetch.Filtering (opId, peer) ∨
    (opId, peer) ∈ (net.nodes node).fetch.requests ∧ net.OnItsWay node opId peer

end FetchNetwork

/-! ## Steps of the fetch module -/

namespace CoreFetch

variable {s s' : CoreFetch OpId Url} {e : FetchEvent OpId Url} {r : OpId × Url}

/-- There is an outgoing request task, and none has found the transport gone. -/
def Alive (s : CoreFetch OpId Url) : Prop :=
  s.requestTasks ≠ [] ∧ .stopped ∉ s.requestTasks

theorem Alive.not_closed (h : Alive s) : s.queueClosed = false := by
  rcases List.exists_mem_of_ne_nil _ h.1 with ⟨t, ht⟩
  refine List.all_eq_false.mpr ⟨t, ht, ?_⟩
  simp only [decide_eq_true_eq]
  rintro rfl
  exact h.2 ht

omit [DecidableEq OpId] [DecidableEq Url] in
theorem Alive.set (h : Alive s) {t : RequestTask OpId Url} (ht : t ≠ .stopped) (i : Nat) :
    s.requestTasks.set i t ≠ [] ∧ .stopped ∉ s.requestTasks.set i t := by
  refine ⟨?_, ?_⟩
  · have hnil := h.1
    simpa using hnil
  · intro hmem
    rcases List.mem_or_eq_of_mem_set hmem with hold | hnew
    · exact h.2 hold
    · exact ht hnew.symm

theorem Alive.step (h : Alive s) (hstep : Stepped s e s')
    (hkept : QueueRun.TransportKept e) : Alive s' := by
  cases hstep with
  | popped htask hqueue present =>
      obtain rfl : present = true := hkept
      exact h.set (by simp) _
  | asked htask answer => exact h.set (by simp) _
  | found htask hmem => exact h.set (by simp) _
  | skipped htask hnot senders notified => exact h.set (by simp) _
  | sent htask => exact h.set (by simp) _
  | sendFailed htask senders notified => exact h.set (by simp) _
  | _ => exact h

end CoreFetch

namespace FetchNode

open CoreFetch

variable {node : FetchNode OpId Url} {s' : CoreFetch OpId Url} {e : FetchEvent OpId Url}
  {opId : OpId} {peer : Url}

omit [DecidableEq Url] in
theorem mem_opsAfter (h : opId ∈ node.ops) (e : FetchEvent OpId Url) : opId ∈ node.opsAfter e := by
  rcases Option.isSome_iff_exists.mp (AList.lookup_isSome.mpr h) with ⟨data, hdata⟩
  exact AList.lookup_isSome.mp (Option.isSome_iff_exists.mpr ⟨data, lookup_opsAfter hdata e⟩)

omit [DecidableEq Url] in
/-- A processed op is stored. -/
theorem mem_opsAfter_processed {ops : List (Op OpId)} {source : Url}
    {incoming : List (IncomingOp OpId)} {opIds : List OpId}
    (htask : node.fetch.responseTask = .processing ops source incoming)
    (hgiven : opId ∈ incoming.map IncomingOp.opId) (hop : opId ∈ opIds) :
    opId ∈ node.opsAfter (.processed (some opIds)) := by
  simp only [opsAfter, htask]
  exact mem_processIncomingOps (Or.inr ⟨hgiven, hop⟩)

theorem transportKept_of_undisturbed (hcalm : node.undisturbed opId peer e = true) :
    QueueRun.TransportKept e := by
  cases e with
  | advanceTask i answer =>
      cases answer with
      | upgraded present => exact hcalm
      | _ => trivial
  | _ => trivial

/-- A pending request stays, unless its op is stored. -/
theorem pending_kept (hstep : Stepped node.fetch e s') (halive : node.fetch.Alive)
    (hright : node.answersRight e = true) (hcalm : node.undisturbed opId peer e = true)
    (hr : (opId, peer) ∈ node.fetch.requests) :
    (opId, peer) ∈ s'.requests ∨ opId ∈ node.opsAfter e := by
  cases hstep with
  | added hcall newOpIds => exact Or.inl (mem_addRequests newOpIds hr)
  | closed hcall hclosed senders notified =>
      rw [halive.not_closed] at hclosed
      cases hclosed
  -- an unresponsive peer loses its request, which the condition rules out for this one
  | asked htask answer =>
      refine Or.inl ?_
      dsimp only
      split
      · rename_i hgone
        obtain rfl : answer = some true := by
          cases answer with
          | none => cases hgone
          | some b => exact congrArg some hgone
        simp only [undisturbed, htask, ne_eq, Option.some.injEq, RequestTask.asking.injEq,
          decide_eq_true_eq] at hcalm
        refine (AList.mem_erase).mpr ⟨?_, hr⟩
        rintro heq
        exact hcalm ⟨(congrArg Prod.fst heq).symm, (congrArg Prod.snd heq).symm⟩
      · exact hr
  | sendFailed htask senders notified =>
      refine Or.inl ?_
      simp only [undisturbed, htask, ne_eq, decide_eq_true_eq] at hcalm
      rcases Option.isSome_iff_exists.mp (AList.lookup_isSome.mpr hr) with ⟨m, hm⟩
      refine AList.lookup_isSome.mp (Option.isSome_iff_exists.mpr ⟨m, ?_⟩)
      refine lookup_retain_eq_some_iff.mpr ⟨hm, ?_⟩
      exact decide_eq_true (Ne.symm hcalm)
  -- a processed op leaves the requests and enters the store
  | processed htask opIds =>
      by_cases hop : opId ∈ opIds
      · simp only [answersRight, htask, List.all_eq_true, decide_eq_true_eq] at hright
        exact Or.inr (mem_opsAfter_processed htask (hright opId hop) hop)
      · refine Or.inl ?_
        rcases Option.isSome_iff_exists.mp (AList.lookup_isSome.mpr hr) with ⟨m, hm⟩
        refine AList.lookup_isSome.mp (Option.isSome_iff_exists.mpr ⟨m, ?_⟩)
        exact lookup_retain_eq_some_iff.mpr ⟨hm, decide_eq_true hop⟩
  | _ => exact Or.inl hr

/-! ### Where the request is next -/

variable {r : OpId × Url}

omit [DecidableEq OpId] [DecidableEq Url] in
theorem handles_relisten {s : CoreFetch OpId Url} (senders notified : List Nat) (listeners : Nat)
    (h : s.Handles r) : (s.relisten senders notified listeners).Handles r := by
  cases h with
  | queueing hmem hop => exact .queueing hmem hop
  | queued hmem => exact .queued hmem
  | inHand hmem hentry => exact .inHand hmem hentry
  | received hmem hop => exact .received hmem hop
  | processing htask hop => exact .processing htask hop

omit [DecidableEq Url] in
theorem handles_requested {s : CoreFetch OpId Url} (ops : List (PublishOp OpId)) (source : Url)
    (h : s.Handles r) : (s.requestOps ops source).Handles r := by
  cases h with
  | queueing hmem hop => exact .queueing (List.mem_append_left _ hmem) hop
  | queued hmem => exact .queued hmem
  | inHand hmem hentry => exact .inHand hmem hentry
  | received hmem hop => exact .received hmem hop
  | processing htask hop => exact .processing htask hop

omit [DecidableEq OpId] [DecidableEq Url] in
theorem handles_responded {s : CoreFetch OpId Url} (ops : List (Op OpId)) (source : Url)
    (h : s.Handles r) :
    { s with incomingResponses := s.incomingResponses ++ [(ops, source)] }.Handles r := by
  cases h with
  | queueing hmem hop => exact .queueing hmem hop
  | queued hmem => exact .queued hmem
  | inHand hmem hentry => exact .inHand hmem hentry
  | received hmem hop => exact .received (List.mem_append_left _ hmem) hop
  | processing htask hop => exact .processing htask hop

omit [DecidableEq OpId] [DecidableEq Url] in
/-- A call goes on that has not the request in its list. -/
theorem handles_call {s : CoreFetch OpId Url} {i : Nat} {c c' : RequestCall OpId Url}
    (hcall : s.calls[i]? = some c) (hc : ∀ opIds, c = .queueing opIds r.2 → r.1 ∉ opIds)
    {requests : AList fun _ : OpId × Url => Option Bytes} (h : s.Handles r) :
    { s with requests := requests, calls := s.calls.set i c' }.Handles r := by
  cases h with
  | queueing hmem hop =>
      refine .queueing (mem_set_of_ne hcall hmem ?_) hop
      rintro rfl
      exact hc _ rfl hop
  | queued hqueue => exact .queued hqueue
  | inHand htask hentry => exact .inHand htask hentry
  | received hresponse hop => exact .received hresponse hop
  | processing htask hop => exact .processing htask hop

/-- The request goes into the queue, or stays where it was. -/
theorem handles_pushed {s : CoreFetch OpId Url} {i : Nat} {opId : OpId} {opIds : List OpId}
    {source : Url} (hcall : s.calls[i]? = some (.queueing (opId :: opIds) source))
    (h : s.Handles r) :
    { s with
      outgoingRequests := s.outgoingRequests ++ [(opId, source)]
      calls := s.calls.set i (.queueing opIds source) }.Handles r := by
  cases h with
  | @queueing opIds' hmem hop =>
      by_cases hsame : (.queueing opIds' r.2 : RequestCall OpId Url) = .queueing (opId :: opIds) source
      · cases hsame
        rcases List.mem_cons.mp hop with hhead | hrest
        · refine .queued (List.mem_append_right _ ?_)
          rw [← hhead]
          exact List.mem_singleton_self _
        · exact .queueing (mem_set_self hcall) hrest
      · exact .queueing (mem_set_of_ne hcall hmem hsame) hop
  | queued hqueue => exact .queued (List.mem_append_left _ hqueue)
  | inHand htask hentry => exact .inHand htask hentry
  | received hresponse hop => exact .received hresponse hop
  | processing htask hop => exact .processing htask hop

omit [DecidableEq OpId] [DecidableEq Url] in
/-- A task takes the request out of the queue, or it stays where it was. -/
theorem handles_popped {s : CoreFetch OpId Url} {i : Nat} {opId : OpId} {source : Url}
    {rest : List (OpId × Url)} (htask : s.requestTasks[i]? = some .idle)
    (hqueue : s.outgoingRequests = (opId, source) :: rest) (h : s.Handles r) :
    { s with
      outgoingRequests := rest
      requestTasks := s.requestTasks.set i (.asking opId source) }.Handles r := by
  cases h with
  | queueing hmem hop => exact .queueing hmem hop
  | queued hmem =>
      rw [hqueue] at hmem
      rcases List.mem_cons.mp hmem with rfl | hrest
      · exact .inHand (mem_set_self htask) rfl
      · exact .queued hrest
  | inHand hmem hentry =>
      refine .inHand (mem_set_of_ne htask hmem ?_) hentry
      rintro rfl
      cases hentry
  | received hresponse hop => exact .received hresponse hop
  | processing hprocessing hop => exact .processing hprocessing hop

/-- A task goes on with the entry in its hands, or gives up an entry that is not this one. -/
theorem handles_turn {s : CoreFetch OpId Url} {i : Nat} {t : RequestTask OpId Url}
    (htask : s.requestTasks[i]? = some t) (t' : RequestTask OpId Url)
    (hentry : t.entry = some r → t'.entry = some r)
    {requests : AList fun _ : OpId × Url => Option Bytes} (h : s.Handles r) :
    { s with requests := requests, requestTasks := s.requestTasks.set i t' }.Handles r := by
  cases h with
  | queueing hmem hop => exact .queueing hmem hop
  | queued hmem => exact .queued hmem
  | @inHand u hmem hu =>
      by_cases hsame : u = t
      · rw [hsame] at hu
        exact .inHand (mem_set_self htask) (hentry hu)
      · exact .inHand (mem_set_of_ne htask hmem hsame) hu
  | received hresponse hop => exact .received hresponse hop
  | processing hprocessing hop => exact .processing hprocessing hop

/-- The host gets the response with the op, or the request stays where it was. -/
theorem handles_received {s : CoreFetch OpId Url} {ops : List (Op OpId)} {source : Url}
    {rest : List (List (Op OpId) × Url)} (hidle : s.responseTask = .idle)
    (hqueue : s.incomingResponses = (ops, source) :: rest) (h : s.Handles r) :
    { s with
      incomingResponses := rest
      responseTask := .processing ops source (ops.map (s.incomingOp source)) }.Handles r := by
  cases h with
  | queueing hmem hop => exact .queueing hmem hop
  | queued hmem => exact .queued hmem
  | inHand hmem hentry => exact .inHand hmem hentry
  | received hmem hop =>
      rw [hqueue] at hmem
      rcases List.mem_cons.mp hmem with heq | hrest
      · cases heq
        refine .processing rfl ?_
        rw [List.map_map]
        exact hop
      · exact .received hrest hop
  | processing hprocessing hop =>
      rw [hidle] at hprocessing
      cases hprocessing

omit [DecidableEq OpId] [DecidableEq Url] in
/-- When a response has been processed, the request of another op is where it was. -/
theorem handles_processed {s : CoreFetch OpId Url} {ops : List (Op OpId)} {source : Url}
    {incoming : List (IncomingOp OpId)} (htask : s.responseTask = .processing ops source incoming)
    (hother : source = r.2 → r.1 ∉ incoming.map IncomingOp.opId)
    {requests : AList fun _ : OpId × Url => Option Bytes} {reports : List (Url × OpId × Nat)}
    (h : s.Handles r) :
    { s with reports := reports, requests := requests, responseTask := .idle }.Handles r := by
  cases h with
  | queueing hmem hop => exact .queueing hmem hop
  | queued hmem => exact .queued hmem
  | inHand hmem hentry => exact .inHand hmem hentry
  | received hmem hop => exact .received hmem hop
  | processing hprocessing hop =>
      rw [htask] at hprocessing
      cases hprocessing
      exact absurd hop (hother rfl)

/-- A pending request that is at some place goes to the next one, is sent, or its op is stored. -/
theorem handles_step (hstep : Stepped node.fetch e s') (halive : node.fetch.Alive)
    (hcalm : node.undisturbed opId peer e = true) (hr : (opId, peer) ∈ node.fetch.requests)
    (h : node.fetch.Handles (opId, peer)) :
    s'.Handles (opId, peer) ∨ node.requestSent e = some (peer, .request [opId]) ∨
      opId ∈ node.opsAfter e := by
  cases hstep with
  | unchanged e => exact Or.inl h
  | listens senders notified listeners => exact Or.inl (handles_relisten _ _ _ h)
  | requested ops source => exact Or.inl (handles_requested ops source h)
  | refused hcall =>
      refine Or.inl (handles_call hcall ?_ h)
      rintro opIds heq
      cases heq
  | added hcall newOpIds =>
      refine Or.inl (handles_call hcall ?_ h)
      rintro opIds heq
      cases heq
  | ended hcall =>
      refine Or.inl (handles_call hcall ?_ h)
      rintro opIds heq
      cases heq
      exact List.not_mem_nil
  -- the queue closes only when every request task has stopped
  | closed hcall hclosed senders notified =>
      rw [halive.not_closed] at hclosed
      cases hclosed
  | pushed hcall hroom => exact Or.inl (handles_pushed hcall h)
  | popped htask hqueue present =>
      obtain rfl : present = true := hcalm
      exact Or.inl (handles_popped htask hqueue h)
  | asked htask answer => exact Or.inl (handles_turn htask (.checking _ _) id h)
  | found htask hmem => exact Or.inl (handles_turn htask (.sending _ _) id h)
  | skipped htask hnot senders notified =>
      have hlater := handles_relisten senders notified node.fetch.listeners h
      refine Or.inl (handles_turn (by exact htask) .idle ?_ hlater)
      rintro heq
      cases heq
      exact absurd hr hnot
  -- here the request leaves the node
  | @sent i opId' peer' htask =>
      by_cases hsame : (opId', peer') = (opId, peer)
      · cases hsame
        exact Or.inr (Or.inl (by simp only [requestSent, htask]))
      · refine Or.inl (handles_turn htask .idle ?_ h)
        rintro heq
        exact absurd (Option.some.inj heq) hsame
  | sendFailed htask senders notified =>
      have hlater := handles_relisten senders notified node.fetch.listeners h
      refine Or.inl (handles_turn (by exact htask) .idle ?_ hlater)
      rintro heq
      simp only [undisturbed, htask, ne_eq, decide_eq_true_eq] at hcalm
      exact absurd (congrArg Prod.snd (Option.some.inj heq)) hcalm
  | responded ops source hroom => exact Or.inl (handles_responded ops source h)
  | received hidle hqueue => exact Or.inl (handles_received hidle hqueue h)
  | failed htask =>
      refine Or.inl (handles_processed htask ?_ h)
      rintro hsource hgiven
      simp [undisturbed, htask, hsource, hgiven] at hcalm
  -- and here its op is in the store
  | processed htask opIds =>
      by_cases hstored : opId ∈ node.opsAfter (.processed (some opIds))
      · exact Or.inr (Or.inr hstored)
      · refine Or.inl (handles_processed htask ?_ h)
        rintro hsource hgiven
        simp only [undisturbed, htask, hsource, hgiven] at hcalm
        exact hstored (mem_opsAfter_processed htask hgiven (by simpa using hcalm))

/-- What the op store leaves over is requested. -/
theorem filtering_step (hstep : Stepped node.fetch e s') (hright : node.answersRight e = true)
    (hcalm : node.undisturbed opId peer e = true) (h : node.fetch.Filtering (opId, peer)) :
    opId ∈ node.ops ∨ s'.Filtering (opId, peer) ∨
      ((opId, peer) ∈ s'.requests ∧ s'.Handles (opId, peer)) := by
  rcases h with ⟨metadata, hmem, hop⟩
  -- a turn of another call
  have hother : ∀ {i : Nat} {c c' : RequestCall OpId Url}, node.fetch.calls[i]? = some c →
      c ≠ .filtering metadata peer → .filtering metadata peer ∈ node.fetch.calls.set i c' :=
    fun hi hne => mem_set_of_ne hi hmem hne.symm
  cases hstep with
  | requested ops source =>
      exact Or.inr (Or.inl ⟨metadata, List.mem_append_left _ hmem, hop⟩)
  | @refused i metadata' source hcall =>
      refine Or.inr (Or.inl ⟨metadata, hother hcall ?_, hop⟩)
      rintro heq
      cases heq
      simp [undisturbed, hcall, hop] at hcalm
  | @added i metadata' source hcall newOpIds =>
      by_cases hsame : (.filtering metadata' source : RequestCall OpId Url) = .filtering metadata peer
      · cases hsame
        by_cases hthere : opId ∈ node.ops
        · exact Or.inl hthere
        · simp only [answersRight, hcall, decide_eq_true_eq] at hright
          have hnew : opId ∈ newOpIds := by
            refine hright.mem_iff.mpr (List.mem_filter.mpr ⟨?_, decide_eq_true hthere⟩)
            exact AList.mem_keys.mp hop
          refine Or.inr (Or.inr ⟨?_, .queueing (mem_set_self hcall) hnew⟩)
          refine AList.lookup_isSome.mp ?_
          rw [lookup_addRequests, if_pos ⟨rfl, hnew⟩]
          rfl
      · exact Or.inr (Or.inl ⟨metadata, hother hcall hsame, hop⟩)
  | ended hcall => exact Or.inr (Or.inl ⟨metadata, hother hcall (by simp), hop⟩)
  | closed hcall hclosed senders notified =>
      exact Or.inr (Or.inl ⟨metadata, hother hcall (by simp), hop⟩)
  | pushed hcall hroom => exact Or.inr (Or.inl ⟨metadata, hother hcall (by simp), hop⟩)
  | _ => exact Or.inr (Or.inl ⟨metadata, hmem, hop⟩)

/-- What is requested stays so, is sent to the peer, or its op is stored; `Away` stands for a request
that has left the node. -/
theorem requested_step {Away : Prop} (hstep : Stepped node.fetch e s') (halive : node.fetch.Alive)
    (hright : node.answersRight e = true) (hcalm : node.undisturbed opId peer e = true)
    (hr : (opId, peer) ∈ node.fetch.requests)
    (h : node.fetch.Handles (opId, peer) ∨ Away) :
    opId ∈ node.opsAfter e ∨ (opId, peer) ∈ s'.requests ∧
      (s'.Handles (opId, peer) ∨ node.requestSent e = some (peer, .request [opId]) ∨ Away) := by
  rcases pending_kept hstep halive hright hcalm hr with hkept | hstored
  · rcases h with hplace | haway
    · rcases handles_step hstep halive hcalm hr hplace with hnext | hsent | hstored
      · exact Or.inr ⟨hkept, Or.inl hnext⟩
      · exact Or.inr ⟨hkept, Or.inr (Or.inl hsent)⟩
      · exact Or.inl hstored
    · exact Or.inr ⟨hkept, Or.inr (Or.inr haway)⟩
  · exact Or.inl hstored

/-! ### The incoming request task -/

omit [DecidableEq OpId] [DecidableEq Url] in
theorem Serves.of_same {n n' : FetchNode OpId Url} (h : n.Serves opId peer)
    (hanswering : n'.answering = n.answering) (hqueue : n'.incomingRequests = n.incomingRequests) :
    n'.Serves opId peer := by
  cases h with
  | incoming hrequest hop => exact .incoming (hqueue ▸ hrequest) hop
  | retrieving htask hop => exact .retrieving (hanswering.trans htask) hop
  | sending htask hop => exact .sending (hanswering.trans htask) hop

/-- A request that the task has goes on towards its answer, or the answer is sent. -/
theorem serves_answer {a : IncomingRequestAnswer} (hheld : opId ∈ node.ops)
    (hcalm : node.answers peer a = true) (h : node.Serves opId peer) :
    (node.answer a).Serves opId peer ∨
      ∃ ops, node.responseSent a = some (peer, .response ops) ∧ opId ∈ ops.map Op.opId := by
  unfold answers at hcalm
  unfold answer responseSent
  cases htask : node.answering with
  | idle =>
      cases a with
      | upgraded present =>
          rw [htask] at hcalm
          obtain rfl : present = true := hcalm
          refine Or.inl ?_
          dsimp only
          split
          · exact h
          -- the task takes the next incoming request, perhaps this one
          · rename_i opIds source rest hqueue
            cases h with
            | incoming hrequest hop =>
                rw [hqueue] at hrequest
                rcases List.mem_cons.mp hrequest with heq | hrest
                · cases heq
                  exact .retrieving rfl hop
                · exact .incoming hrest hop
            | retrieving hother hop =>
                rw [htask] at hother
                cases hother
            | sending hother hop =>
                rw [htask] at hother
                cases hother
      | _ => exact Or.inl h
  | retrieving opIds source =>
      cases a with
      | retrieved ok =>
          refine Or.inl ?_
          rw [htask] at hcalm
          cases h with
          | incoming hrequest hop =>
              dsimp only
              split
              · split
                · exact .incoming hrequest hop
                · exact .incoming hrequest hop
              · exact .incoming hrequest hop
          | retrieving hother hop =>
              rw [htask] at hother
              cases hother
              -- the peer still holds the op, so the answer is not empty
              have hfound := mem_retrieveOps hheld hop
              have hok : ok = true := by simpa using hcalm
              dsimp only
              rw [if_pos hok]
              split
              · rename_i hnone
                rw [hnone] at hfound
                cases hfound
              · rename_i op ops hsome
                rw [hsome] at hfound
                exact .sending rfl hfound
          | sending hother hop =>
              rw [htask] at hother
              cases hother
      | _ => exact Or.inl h
  | sending ops source =>
      cases a with
      | sent ok =>
          rw [htask] at hcalm
          cases h with
          | incoming hrequest hop => exact Or.inl (.incoming hrequest hop)
          | retrieving hother hop =>
              rw [htask] at hother
              cases hother
          | sending hother hop =>
              rw [htask] at hother
              cases hother
              obtain rfl : ok = true := by simpa using hcalm
              exact Or.inr ⟨ops, rfl, hop⟩
      | _ => exact Or.inl h
  | stopped => exact Or.inl h

omit [DecidableEq Url] in
theorem answering_answer {a : IncomingRequestAnswer} (hkept : a.FindsTransport)
    (h : node.answering ≠ .stopped) : (node.answer a).answering ≠ .stopped := by
  unfold answer
  split
  · split
    · exact h
    · dsimp only
      rw [if_pos (by exact hkept)]
      simp
  · split
    · split
      · simp
      · simp
    · simp
  · simp
  · exact h

omit [DecidableEq OpId] in
theorem findsTransport_of_answers {a : IncomingRequestAnswer} (hcalm : node.answers peer a = true) :
    a.FindsTransport := by
  unfold answers at hcalm
  cases a with
  | upgraded present => exact hcalm
  | _ => trivial

/-! ### A message comes in -/

theorem serves_recvModuleMsg (h : node.Serves opId peer) (source : Url)
    (message : FetchMessage OpId) : (node.recvModuleMsg source message).Serves opId peer := by
  cases message with
  | request opIds =>
      unfold recvModuleMsg
      dsimp only
      split
      · exact h
      · split
        · cases h with
          | incoming hrequest hop => exact .incoming (List.mem_append_left _ hrequest) hop
          | retrieving htask hop => exact .retrieving htask hop
          | sending htask hop => exact .sending htask hop
        · exact h
  | response ops => exact h.of_same rfl rfl

theorem handles_recvModuleMsg (h : node.fetch.Handles r) (source : Url)
    (message : FetchMessage OpId) : (node.recvModuleMsg source message).fetch.Handles r := by
  cases message with
  | request opIds =>
      unfold recvModuleMsg
      dsimp only
      split
      · exact h
      · split
        · exact h
        · exact h
  | response ops =>
      unfold recvModuleMsg respond
      dsimp only
      split
      · exact handles_responded ops source h
      · exact h

/-- A request is in the queue of the task that answers it. -/
theorem serves_request {opIds : List OpId} (hop : opId ∈ opIds) (hopen : node.answering ≠ .stopped)
    (hroom : node.hasRoom (.request opIds) = true) :
    (node.recvModuleMsg peer (.request opIds)).Serves opId peer := by
  simp only [hasRoom, decide_eq_true_eq] at hroom
  simp only [recvModuleMsg, if_neg hopen, if_pos hroom]
  exact .incoming (List.mem_append_right _ (List.mem_singleton_self _)) hop

theorem handles_response {ops : List (Op OpId)} (hop : opId ∈ ops.map Op.opId)
    (hroom : node.hasRoom (.response ops) = true) :
    (node.recvModuleMsg peer (.response ops)).fetch.Handles (opId, peer) := by
  simp only [hasRoom, decide_eq_true_eq] at hroom
  simp only [recvModuleMsg, respond, if_pos hroom]
  exact .received (List.mem_append_right _ (List.mem_singleton_self _)) hop

end FetchNode

end Core
end Kitsune2
