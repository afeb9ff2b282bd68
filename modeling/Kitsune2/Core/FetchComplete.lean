import Mathlib.Algebra.Order.BigOperators.Group.List
import Mathlib.Algebra.Order.Ring.Nat
import Kitsune2.Core.FetchWork

/-!
# FetchComplete — a network that has come to rest has fetched what was requested

A request that is at one of its places can be moved on by a step that is no failure.  So when no such
step is left, the op is stored.
-/

namespace Kitsune2
namespace Core

open Api Lib

variable {OpId Url : Type} [DecidableEq OpId] [DecidableEq Url]

namespace FetchNetwork

open CoreFetch FetchNode

variable {net : FetchNetwork OpId Url} {node peer : Url} {opId : OpId}

/-! ## Rest -/

/-- No step of a task, or of the network, can move anything unless it fails this op of this peer. -/
def AtRest (net : FetchNetwork OpId Url) (node : Url) (opId : OpId) (peer : Url) : Prop :=
  ∀ e : NetworkEvent OpId Url, e.works = true → net.undisturbed node opId peer e = true →
    net.step e = net

section AtRest

variable (hrest : AtRest net node opId peer)

include hrest

/-- The fetch module of the node takes no step. -/
theorem AtRest.fetch {e : FetchEvent OpId Url} (hnone : ∀ ops source, e ≠ .respond ops source)
    (hwork : NetworkEvent.works (.advance node e : NetworkEvent OpId Url) = true)
    (hright : (net.nodes node).answersRight e = true)
    (hcalm : (net.nodes node).undisturbed opId peer e = true) :
    (net.nodes node).fetch.step e = (net.nodes node).fetch := by
  have hstep : net.step (.advance node e) = net := by
    refine hrest _ hwork ?_
    simp only [undisturbed, hright, hcalm, Bool.and_self, Bool.or_true]
  have hsame : net.advance node e = net := by
    cases e with
    | respond ops source => exact absurd rfl (hnone ops source)
    | _ => exact hstep
  have hfetch := congrArg (fun net => (net.nodes node).fetch) hsame
  simp only [advance, nodes_update_self] at hfetch
  exact hfetch

/-- The incoming request task of the peer takes no step. -/
theorem AtRest.answer {a : IncomingRequestAnswer} (hcalm : (net.nodes peer).answers node a = true) :
    (net.nodes peer).answer a = net.nodes peer := by
  have hstep : net.answer peer a = net := by
    refine hrest (.answer peer a) rfl ?_
    simp only [undisturbed, hcalm, Bool.or_true]
  have hsame := congrArg (fun net => net.nodes peer) hstep
  simp only [FetchNetwork.answer, nodes_update_self] at hsame
  exact hsame

/-- A task of the node that can go on would. -/
theorem AtRest.task_waits (halive : (net.nodes node).fetch.Alive) {t : RequestTask OpId Url}
    (ht : t ∈ (net.nodes node).fetch.requestTasks) : t = .idle := by
  rcases List.mem_iff_getElem?.mp ht with ⟨i, hi⟩
  -- a network at rest stays as it is at any step, so a task that would move contradicts it
  have hset : ∀ t' : RequestTask OpId Url,
      ((net.nodes node).fetch.requestTasks.set i t')[i]? = some t' := fun t' =>
    List.getElem?_set_self (List.getElem?_eq_some_iff.mp hi).1
  cases t with
  | idle => rfl
  | asking opId' peer' =>
      have hstep := hrest.fetch (e := .advanceTask i (.unresponsive none)) (by simp) rfl rfl rfl
      rw [step_advanceTask hi] at hstep
      have htask := congrArg (fun s => s.requestTasks[i]?) hstep
      simp only [advanceTask, Option.getD_none, Bool.false_eq_true, if_false, hset, hi] at htask
      cases htask
  | checking opId' peer' =>
      have hstep := hrest.fetch (e := .advanceTask i .locked) (by simp) rfl rfl rfl
      rw [step_advanceTask hi] at hstep
      have htask := congrArg (fun s => s.requestTasks[i]?) hstep
      simp only [advanceTask, hi, hset] at htask
      split at htask
      · cases htask
      · cases htask
  | sending opId' peer' =>
      have hstep := hrest.fetch (e := .advanceTask i (.sent true)) (by simp) rfl rfl rfl
      rw [step_advanceTask hi] at hstep
      have htask := congrArg (fun s => s.requestTasks[i]?) hstep
      simp only [advanceTask, if_true, hset, hi] at htask
      cases htask
  | stopped => exact absurd ht halive.2

theorem AtRest.queue_empty (halive : (net.nodes node).fetch.Alive) :
    (net.nodes node).fetch.outgoingRequests = [] := by
  rcases List.exists_mem_of_ne_nil _ halive.1 with ⟨t, ht⟩
  obtain rfl := hrest.task_waits halive ht
  rcases List.mem_iff_getElem?.mp ht with ⟨i, hi⟩
  cases hqueue : (net.nodes node).fetch.outgoingRequests with
  | nil => rfl
  | cons r rest =>
      have hstep := hrest.fetch (e := .advanceTask i (.upgraded true)) (by simp) rfl rfl rfl
      rw [step_advanceTask hi] at hstep
      have hlength := congrArg (fun s => s.outgoingRequests.length) hstep
      simp only [advanceTask, hqueue, List.length_cons] at hlength
      omega

/-- The host has processed every response. -/
theorem AtRest.responses_empty :
    (net.nodes node).fetch.responseTask = .idle ∧ (net.nodes node).fetch.incomingResponses = [] := by
  have hidle : (net.nodes node).fetch.responseTask = .idle := by
    cases htask : (net.nodes node).fetch.responseTask with
    | idle => rfl
    | processing ops source incoming =>
        have hstep := hrest.fetch (e := .processed (some (incoming.map IncomingOp.opId))) (by simp) rfl
          (by simpa [FetchNode.answersRight, htask] using fun op hop => ⟨op, hop, rfl⟩) (by
            simp only [FetchNode.undisturbed, htask, Option.getD_some]
            by_cases hop : opId ∈ incoming.map IncomingOp.opId <;> simp [hop])
        have hafter := congrArg CoreFetch.responseTask hstep
        simp only [CoreFetch.step, CoreFetch.processed, htask] at hafter
        cases hafter
  refine ⟨hidle, ?_⟩
  cases hqueue : (net.nodes node).fetch.incomingResponses with
  | nil => rfl
  | cons response rest =>
      have hstep := hrest.fetch (e := .receiveResponse) (by simp) rfl rfl rfl
      have hafter := congrArg CoreFetch.responseTask hstep
      simp only [CoreFetch.step, receiveResponse, hidle, hqueue] at hafter
      cases hafter

/-- The peer has answered every request. -/
theorem AtRest.answered (hopen : (net.nodes peer).answering ≠ .stopped) :
    (net.nodes peer).answering = .idle ∧ (net.nodes peer).incomingRequests = [] := by
  have hidle : (net.nodes peer).answering = .idle := by
    cases htask : (net.nodes peer).answering with
    | idle => rfl
    | retrieving opIds source =>
        have hsame := hrest.answer (a := .retrieved true) (by simp [answers, htask])
        have hafter := congrArg FetchNode.answering hsame
        simp only [FetchNode.answer, htask, if_true] at hafter
        split at hafter
        · cases hafter
        · cases hafter
    | sending ops source =>
        have hsame := hrest.answer (a := .sent true) (by simp [answers, htask])
        have hafter := congrArg FetchNode.answering hsame
        simp only [FetchNode.answer, htask] at hafter
        cases hafter
    | stopped => exact absurd htask hopen
  refine ⟨hidle, ?_⟩
  cases hqueue : (net.nodes peer).incomingRequests with
  | nil => rfl
  | cons request rest =>
      have hsame := hrest.answer (a := .upgraded true) (by simp [answers])
      have hafter := congrArg FetchNode.answering hsame
      simp only [FetchNode.answer, hidle, hqueue, if_true] at hafter
      cases hafter

/-- No packet with room where it goes is on its way. -/
theorem AtRest.no_packet {p : Packet OpId Url} (hp : p ∈ net.packets)
    (hroom : (net.nodes p.target).hasRoom p.message = true) : False := by
  rcases List.mem_iff_getElem?.mp hp with ⟨i, hi⟩
  have hstep := hrest (.deliver i) rfl (by simp only [undisturbed, hi, hroom, Bool.or_true])
  have hpackets := congrArg (fun net => net.packets.length) hstep
  simp only [step, deliver, hi] at hpackets
  have hlt := (List.getElem?_eq_some_iff.mp hi).1
  rw [List.length_eraseIdx_of_lt hlt] at hpackets
  omega

/-- No call waits for the op store. -/
theorem AtRest.not_filtering : ¬ (net.nodes node).fetch.Filtering (opId, peer) := by
  rintro ⟨metadata, hmem, hop⟩
  rcases List.mem_iff_getElem?.mp hmem with ⟨i, hi⟩
  have hstep := hrest.fetch
    (e := .filtered i (some (filterOutExistingOps (net.nodes node).ops metadata.keys))) (by simp) rfl
    (by simp [FetchNode.answersRight, hi]) rfl
  have hcalls := congrArg (fun s => s.calls[i]?) hstep
  simp only [CoreFetch.step, hi, filtered, List.getElem?_set_self
    (List.getElem?_eq_some_iff.mp hi).1] at hcalls
  cases hcalls

/-- No call has requests left for the queue. -/
theorem AtRest.not_queueing (halive : (net.nodes node).fetch.Alive) {opIds : List OpId} {source : Url}
    (hmem : .queueing opIds source ∈ (net.nodes node).fetch.calls) : opIds = [] := by
  rcases List.mem_iff_getElem?.mp hmem with ⟨i, hi⟩
  cases opIds with
  | nil => rfl
  | cons opId' opIds =>
      have hroom : (net.nodes node).fetch.outgoingRequests.length < channelCapacity := by
        rw [hrest.queue_empty halive]
        exact Nat.succ_pos _
      have hstep := hrest.fetch (e := .queue i) (by simp) rfl rfl rfl
      have hqueue := congrArg (fun s => s.outgoingRequests.length) hstep
      simp only [CoreFetch.step, hi, queue, halive.not_closed, Bool.false_eq_true, if_false,
        if_pos hroom,
        List.length_append, List.length_singleton] at hqueue
      omega

/-- A request that is kept when the network is at rest has been served. -/
theorem AtRest.stored (h : RequestKept net node opId peer) : opId ∈ (net.nodes node).ops := by
  rcases hrest.responses_empty with ⟨hidle, hresponses⟩
  rcases hrest.answered h.tasks.answering with ⟨hanswering, hrequests⟩
  rcases h.owed with hthere | hfiltering | ⟨-, hplace | hserved | hcarried⟩
  · exact hthere
  · exact absurd hfiltering hrest.not_filtering
  -- at rest no task, queue or channel of the requesting node holds anything
  · cases hplace with
    | queueing hmem hop =>
        rw [hrest.not_queueing h.tasks.alive hmem] at hop
        cases hop
    | queued hqueue =>
        rw [hrest.queue_empty h.tasks.alive] at hqueue
        cases hqueue
    | inHand hmem hentry =>
        rw [hrest.task_waits h.tasks.alive hmem] at hentry
        cases hentry
    | received hresponse hop =>
        rw [hresponses] at hresponse
        cases hresponse
    | processing htask hop =>
        rw [hidle] at htask
        cases htask
  -- nor does the answering node
  · cases hserved with
    | incoming hrequest hop =>
        rw [hrequests] at hrequest
        cases hrequest
    | retrieving htask hop =>
        rw [hanswering] at htask
        cases htask
    | sending htask hop =>
        rw [hanswering] at htask
        cases htask
  -- and a packet in flight could still be delivered
  · cases hcarried with
    | request hpacket hop =>
        refine (hrest.no_packet hpacket ?_).elim
        simp [hasRoom, hrequests, channelCapacity]
    | response hpacket hop =>
        refine (hrest.no_packet hpacket ?_).elim
        simp [hasRoom, hresponses, channelCapacity]

end AtRest

/-! ## Runs -/

omit [DecidableEq Url] in
/-- A node with no work left waits for no answer of its host. -/
theorem answersRight_of_work {n : FetchNode OpId Url} (h : n.work = 0) (e : FetchEvent OpId Url) :
    n.answersRight e = true := by
  have hfetch : n.fetch.work = 0 := by
    unfold FetchNode.work at h
    omega
  unfold CoreFetch.work at hfetch
  -- with no work left no call is filtering and nothing is processed, so no answer can be wrong
  cases e with
  | filtered i answer =>
      cases answer with
      | none => rfl
      | some newOpIds =>
          simp only [FetchNode.answersRight]
          split
          · rename_i metadata source hcall
            have hle : RequestCall.work (.filtering metadata source) ≤
                (n.fetch.calls.map RequestCall.work).sum :=
              List.le_sum_of_mem (List.mem_map.mpr ⟨_, List.mem_of_getElem? hcall, rfl⟩)
            simp only [RequestCall.work] at hle
            omega
          · rfl
  | processed answer =>
      cases answer with
      | none => rfl
      | some opIds =>
          simp only [FetchNode.answersRight]
          split
          · rename_i htask
            simp only [htask, ResponseTask.work] at hfetch
            omega
          · rfl
  | _ => rfl

/-- A network with no work left is at rest. -/
theorem atRest_of_work [Fintype Url] (h : net.work = 0) : AtRest net node opId peer := by
  intro e hwork hcalm
  by_contra hne
  have hright : net.answersRight e = true := by
    cases e with
    | advance url e =>
        have hnode : (net.nodes url).work = 0 := by
          have hsum : ∑ m, (net.nodes m).work = 0 := by
            unfold work at h
            omega
          exact Finset.sum_eq_zero_iff.mp hsum url (Finset.mem_univ url)
        exact answersRight_of_work hnode e
    | _ => rfl
  have hless := work_lt hwork hright hne
  omega

omit [DecidableEq OpId] [DecidableEq Url] in
theorem tasksKept_start {nodes : Url → UInt8 × AList fun _ : OpId => Bytes}
    (hcount : 0 < (nodes node).1) : TasksKept (start nodes : FetchNetwork OpId Url) node peer := by
  refine ⟨⟨?_, ?_⟩, ?_⟩
  · intro hnil
    have hzero : (nodes node).1.toNat = 0 := by
      simpa [start, FetchNode.new, CoreFetch.new] using hnil
    have hpos := UInt8.lt_iff_toNat_lt.mp hcount
    rw [hzero] at hpos
    exact Nat.lt_irrefl _ hpos
  · intro hmem
    cases List.eq_of_mem_replicate hmem
  · intro hstopped
    cases hstopped

theorem mem_mergedMetadata {ops : List (PublishOp OpId)} (hop : opId ∈ ops.map PublishOp.opId) :
    opId ∈ mergedMetadata ops := by
  induction ops using List.reverseRecOn with
  | nil => cases hop
  | append_singleton ops op ih =>
      simp only [mergedMetadata, List.foldl_append, List.foldl_cons, List.foldl_nil]
      rw [List.map_append] at hop
      refine (AList.mem_insert _).mpr ?_
      rcases List.mem_append.mp hop with hold | hlast
      · exact Or.inr (ih hold)
      · exact Or.inl (List.mem_singleton.mp hlast)

omit [DecidableEq Url] in
/-- A call is waiting for the op store. -/
theorem filtering_requestOps {ops : List (PublishOp OpId)} (hop : opId ∈ ops.map PublishOp.opId)
    (s : CoreFetch OpId Url) (source : Url) : (s.requestOps ops source).Filtering (opId, source) := by
  refine ⟨mergedMetadata ops, List.mem_append_right _ (List.mem_singleton_self _), ?_⟩
  exact mem_mergedMetadata hop

theorem RequestKept.requested (htasks : TasksKept net node peer) (hheld : opId ∈ (net.nodes peer).ops)
    {ops : List (PublishOp OpId)} (hop : opId ∈ ops.map PublishOp.opId) :
    RequestKept (net.step (.advance node (.requestOps ops peer))) node opId peer := by
  refine ⟨mem_ops_step hheld _, htasks.step (fun _ => trivial), Or.inr (Or.inl ?_)⟩
  show ((net.advance node (.requestOps ops peer)).nodes node).fetch.Filtering (opId, peer)
  rw [advance, nodes_update_self]
  exact filtering_requestOps hop _ peer

/-- The end of a run of work. -/
def Works (net : FetchNetwork OpId Url) (e : NetworkEvent OpId Url) : Prop :=
  e.works = true ∧ net.answersRight e = true ∧ net.step e ≠ net

/-- However the steps of the nodes are interleaved, an op that a node requests from a peer who has it
is stored by the node once nothing is left to do, unless one of the steps in between fails this op of
this peer; and without new calls something is left to do for so many steps only. -/
theorem requested_op_stored [Fintype Url] (nodes : Url → UInt8 × AList fun _ : OpId => Bytes)
    (node peer : Url) (hcount : 0 < (nodes node).1) (before after : List (NetworkEvent OpId Url))
    (hbefore : Along step (fun _ e => TransportsKept node peer e) (start nodes) before)
    (ops : List (PublishOp OpId)) (opId : OpId)
    (hop : opId ∈ ops.map PublishOp.opId)
    (hheld : opId ∈ ((before.foldl step (start nodes)).nodes peer).ops)
    (hafter : Along step (fun net e => net.undisturbed node opId peer e = true)
      ((before.foldl step (start nodes)).step (.advance node (.requestOps ops peer))) after) :
    let net := after.foldl step
      ((before.foldl step (start nodes)).step (.advance node (.requestOps ops peer)))
    (∀ work, Along step Works net work → work.length ≤ net.work) ∧
      (AtRest net node opId peer → opId ∈ (net.nodes node).ops) := by
  intro net
  have hkept : RequestKept net node opId peer := by
    refine hafter.invariant (I := fun net => RequestKept net node opId peer) ?_
      fun _ _ h hcalm => h.step hcalm
    refine RequestKept.requested ?_ hheld hop
    exact hbefore.invariant (I := fun net => TasksKept net node peer) (tasksKept_start hcount)
      fun _ _ h hkept => h.step hkept
  refine ⟨?_, fun hrest => hrest.stored hkept⟩
  intro work hworks
  exact Nat.le_of_add_right_le (hworks.length_le fun _ _ h => work_lt h.1 h.2.1 h.2.2)

/-- The op that one of two nodes has is fetched by the other. -/
theorem requested_op_stored_fetched :
    7 ∈ ((fetchOp.foldl step ((start oneHasOp).step
      (.advance true (.requestOps [⟨7, none⟩] false)))).nodes true).ops := by
  have hstored := requested_op_stored oneHasOp true false (by decide) [] fetchOp trivial
    [⟨7, none⟩] 7 (by decide) (by decide +kernel) (by decide +kernel)
  exact hstored.2 (atRest_of_work (by decide +kernel))

end FetchNetwork

end Core
end Kitsune2
