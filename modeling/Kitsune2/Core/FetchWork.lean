import Mathlib.Algebra.BigOperators.Group.Finset.Basic
import Mathlib.Data.Fintype.Basic
import Kitsune2.Core.FetchDelivery
import Kitsune2.Lib.Sums

/-!
# FetchWork — a network of fetching nodes comes to rest

Without new calls every step brings some request nearer to its end, so only so many steps can follow.
-/

namespace Kitsune2
namespace Core

open Api Lib

variable {OpId Url : Type} [DecidableEq OpId] [DecidableEq Url]

/-! ## The steps that are left -/

def RequestCall.work : RequestCall OpId Url → Nat
  | .filtering metadata _ => 12 * metadata.entries.length + 2
  | .queueing opIds _ => 12 * opIds.length + 1
  | .ended => 0

def RequestTask.work : RequestTask OpId Url → Nat
  | .asking _ _ => 10
  | .checking _ _ => 9
  | .sending _ _ => 8
  | _ => 0

def ResponseTask.work : ResponseTask OpId Url → Nat
  | .idle => 0
  | .processing _ _ _ => 1

def IncomingRequestTask.work : IncomingRequestTask OpId Url → Nat
  | .retrieving _ _ => 5
  | .sending _ _ => 4
  | _ => 0

def FetchMessage.work : FetchMessage OpId → Nat
  | .request _ => 7
  | .response _ => 3

/-- A bound on the steps that the tasks of a node can still take, and what they send. -/
def CoreFetch.work (s : CoreFetch OpId Url) : Nat :=
  (s.calls.map RequestCall.work).sum + 11 * s.outgoingRequests.length +
    (s.requestTasks.map RequestTask.work).sum + 2 * s.incomingResponses.length + s.responseTask.work

def FetchNode.work (node : FetchNode OpId Url) : Nat :=
  node.fetch.work + 6 * node.incomingRequests.length + node.answering.work

def sentWork (sent : Option (Url × FetchMessage OpId)) : Nat :=
  sent.elim 0 fun m => m.2.work

def FetchNetwork.work [Fintype Url] (net : FetchNetwork OpId Url) : Nat :=
  ∑ url, (net.nodes url).work + (net.packets.map fun p => p.message.work).sum

/-- A step of a task or of the network, not a new call or op. -/
def NetworkEvent.works : NetworkEvent OpId Url → Bool
  | .advance _ (.requestOps _ _) => false
  | .advance _ .notifyOnDrained => false
  | .author _ _ => false
  | _ => true

namespace FetchNode

open CoreFetch

variable {node : FetchNode OpId Url} {url : Url} {e : FetchEvent OpId Url} {s' : CoreFetch OpId Url}

/-- A step of a call or task is work done, the request that it sends included. -/
theorem work_step (hstep : Stepped node.fetch e s') (hright : node.answersRight e = true)
    (hwork : NetworkEvent.works (.advance url e : NetworkEvent OpId Url) = true)
    (hnone : ∀ ops source, e ≠ .respond ops source) :
    s' = node.fetch ∨ s'.work + sentWork (node.requestSent e) < node.fetch.work := by
  -- each kind of step moves one call, one task or one message to a place of less weight
  cases hstep with
  | unchanged e => exact Or.inl rfl
  | listens senders notified listeners => cases hwork
  | requested ops source => cases hwork
  | refused hcall =>
      have hsum := sum_map_set (f := RequestCall.work) hcall .ended
      refine Or.inr ?_
      simp only [CoreFetch.work, RequestCall.work, sentWork, requestSent, Option.elim] at hsum ⊢
      omega
  | @added i metadata source hcall newOpIds =>
      have hsum := sum_map_set (f := RequestCall.work) hcall (.queueing newOpIds source)
      -- the store names no more ops than it was asked about
      have hlength : newOpIds.length ≤ metadata.entries.length := by
        simp only [answersRight, hcall, decide_eq_true_eq] at hright
        rw [hright.length_eq]
        refine le_trans (List.length_filter_le _ _) ?_
        simp [AList.keys, List.keys]
      refine Or.inr ?_
      simp only [CoreFetch.work, RequestCall.work, sentWork, requestSent, Option.elim] at hsum ⊢
      omega
  | ended hcall =>
      have hsum := sum_map_set (f := RequestCall.work) hcall .ended
      refine Or.inr ?_
      simp only [CoreFetch.work, RequestCall.work, sentWork, requestSent, Option.elim] at hsum ⊢
      omega
  | @closed i opId opIds source hcall hclosed senders notified =>
      have hsum := sum_map_set (f := RequestCall.work) hcall (.queueing opIds source)
      refine Or.inr ?_
      simp only [CoreFetch.work, RequestCall.work, sentWork, requestSent, Option.elim,
        List.length_cons, relisten] at hsum ⊢
      omega
  | @pushed i opId opIds source hcall hroom =>
      have hsum := sum_map_set (f := RequestCall.work) hcall (.queueing opIds source)
      refine Or.inr ?_
      simp only [CoreFetch.work, RequestCall.work, sentWork, requestSent, Option.elim,
        List.length_cons, List.length_append, List.length_nil] at hsum ⊢
      omega
  | @popped i opId peer rest htask hqueue present =>
      have hsum := sum_map_set (f := RequestTask.work) htask
        (if present then .asking opId peer else .stopped)
      have hlength : node.fetch.outgoingRequests.length = rest.length + 1 := by
        rw [hqueue, List.length_cons]
      refine Or.inr ?_
      simp only [CoreFetch.work, sentWork, requestSent, Option.elim]
      cases present with
      | true =>
          simp only [if_true, RequestTask.work] at hsum ⊢
          omega
      | false =>
          simp only [Bool.false_eq_true, if_false, RequestTask.work] at hsum ⊢
          omega
  | @asked i opId peer htask answer =>
      have hsum := sum_map_set (f := RequestTask.work) htask (.checking opId peer)
      refine Or.inr ?_
      simp only [CoreFetch.work, RequestTask.work, sentWork, requestSent, Option.elim] at hsum ⊢
      omega
  | @found i opId peer htask hmem =>
      have hsum := sum_map_set (f := RequestTask.work) htask (.sending opId peer)
      refine Or.inr ?_
      simp only [CoreFetch.work, RequestTask.work, sentWork, requestSent, Option.elim] at hsum ⊢
      omega
  | skipped htask hnot senders notified =>
      have hsum := sum_map_set (f := RequestTask.work) htask .idle
      refine Or.inr ?_
      simp only [CoreFetch.work, RequestTask.work, sentWork, requestSent, Option.elim,
        relisten] at hsum ⊢
      omega
  | sent htask =>
      have hsum := sum_map_set (f := RequestTask.work) htask .idle
      refine Or.inr ?_
      simp only [CoreFetch.work, RequestTask.work, sentWork, requestSent, htask, Option.elim,
        FetchMessage.work] at hsum ⊢
      omega
  | sendFailed htask senders notified =>
      have hsum := sum_map_set (f := RequestTask.work) htask .idle
      refine Or.inr ?_
      simp only [CoreFetch.work, RequestTask.work, sentWork, requestSent, Option.elim,
        relisten] at hsum ⊢
      omega
  | responded ops source hroom => exact absurd rfl (hnone ops source)
  | @received ops peer rest hidle hqueue =>
      have hlength : node.fetch.incomingResponses.length = rest.length + 1 := by
        rw [hqueue, List.length_cons]
      refine Or.inr ?_
      simp only [CoreFetch.work, ResponseTask.work, sentWork, requestSent, Option.elim, hidle]
      omega
  | failed htask =>
      refine Or.inr ?_
      simp only [CoreFetch.work, ResponseTask.work, sentWork, requestSent, Option.elim, htask]
      omega
  | processed htask opIds =>
      refine Or.inr ?_
      simp only [CoreFetch.work, ResponseTask.work, sentWork, requestSent, Option.elim, htask]
      omega

theorem opsAfter_of_same (h : node.fetch.step e = node.fetch) : node.opsAfter e = node.ops := by
  cases e with
  | processed answer =>
      cases answer with
      | none => rfl
      | some opIds =>
          simp only [opsAfter]
          split
          · rename_i ops source incoming htask
            have hidle := congrArg CoreFetch.responseTask h
            simp only [step, CoreFetch.processed, htask] at hidle
            cases hidle
          · rfl
  | _ => rfl

theorem requestSent_of_same (h : node.fetch.step e = node.fetch) : node.requestSent e = none := by
  unfold requestSent
  split
  · split
    · rename_i i _ _ _ htask
      rw [step_advanceTask htask] at h
      have htasks := congrArg (fun s => s.requestTasks[i]?) h
      simp only [CoreFetch.advanceTask] at htasks
      rw [List.getElem?_set_self (List.getElem?_eq_some_iff.mp htask).1, htask] at htasks
      cases htasks
    · rfl
  · rfl

omit [DecidableEq Url] in
/-- The incoming request task does work, the response that it sends included. -/
theorem work_answer (node : FetchNode OpId Url) (a : IncomingRequestAnswer) :
    (node.answer a = node ∧ node.responseSent a = none) ∨
      (node.answer a).work + sentWork (node.responseSent a) < node.work := by
  unfold answer responseSent
  cases htask : node.answering with
  | idle =>
      cases a with
      | upgraded present =>
          dsimp only
          split
          · exact Or.inl ⟨rfl, rfl⟩
          -- the request leaves the channel and weighs less in the hands of the task
          · rename_i opIds peer rest hqueue
            have hlength : node.incomingRequests.length = rest.length + 1 := by
              rw [hqueue, List.length_cons]
            refine Or.inr ?_
            cases present with
            | true =>
                simp only [FetchNode.work, IncomingRequestTask.work, sentWork, Option.elim, htask,
                  if_true]
                omega
            | false =>
                simp only [FetchNode.work, IncomingRequestTask.work, sentWork, Option.elim, htask,
                  Bool.false_eq_true, if_false]
                omega
      | _ => exact Or.inl ⟨rfl, rfl⟩
  | retrieving opIds peer =>
      cases a with
      | retrieved ok =>
          refine Or.inr ?_
          dsimp only
          split
          · split
            · simp only [FetchNode.work, IncomingRequestTask.work, sentWork, Option.elim, htask]
              omega
            · simp only [FetchNode.work, IncomingRequestTask.work, sentWork, Option.elim, htask]
              omega
          · simp only [FetchNode.work, IncomingRequestTask.work, sentWork, Option.elim, htask]
            omega
      | _ => exact Or.inl ⟨rfl, rfl⟩
  | sending ops peer =>
      cases a with
      | sent ok =>
          refine Or.inr ?_
          cases ok with
          | true =>
              simp only [FetchNode.work, IncomingRequestTask.work, sentWork, Option.elim, htask,
                FetchMessage.work]
              omega
          | false =>
              simp only [FetchNode.work, IncomingRequestTask.work, sentWork, Option.elim, htask]
              omega
      | _ => exact Or.inl ⟨rfl, rfl⟩
  | stopped => exact Or.inl ⟨rfl, rfl⟩

/-- A message that comes in is less work than it was on its way. -/
theorem work_recvModuleMsg (node : FetchNode OpId Url) (source : Url)
    (message : FetchMessage OpId) :
    (node.recvModuleMsg source message).work < node.work + message.work := by
  cases message with
  | request opIds =>
      unfold recvModuleMsg
      dsimp only
      split
      · simp only [FetchMessage.work]
        omega
      · split
        · simp only [FetchNode.work, FetchMessage.work, List.length_append, List.length_singleton]
          omega
        · simp only [FetchMessage.work]
          omega
  | response ops =>
      unfold recvModuleMsg respond
      dsimp only
      split
      · simp only [FetchNode.work, CoreFetch.work, FetchMessage.work, List.length_append,
          List.length_singleton]
        omega
      · simp only [FetchNode.work, CoreFetch.work, FetchMessage.work]
        omega

end FetchNode

namespace FetchNetwork

open CoreFetch FetchNode

variable [Fintype Url] {net : FetchNetwork OpId Url} {e : NetworkEvent OpId Url}

/-- The hosts answer right. -/
def answersRight (net : FetchNetwork OpId Url) : NetworkEvent OpId Url → Bool
  | .advance url e => (net.nodes url).answersRight e
  | _ => true

omit [DecidableEq OpId] in
theorem sum_work_update (nodes : Url → FetchNode OpId Url) (url : Url) (n : FetchNode OpId Url) :
    ∑ m, (Function.update nodes url n m).work + (nodes url).work =
      ∑ m, (nodes m).work + n.work := by
  have hrest : ∑ m ∈ Finset.univ.erase url, (Function.update nodes url n m).work =
      ∑ m ∈ Finset.univ.erase url, (nodes m).work := by
    refine Finset.sum_congr rfl ?_
    intro m hm
    rw [Function.update_of_ne (Finset.ne_of_mem_erase hm)]
  have hnew := Finset.add_sum_erase Finset.univ (fun m => (Function.update nodes url n m).work)
    (Finset.mem_univ url)
  have hold := Finset.add_sum_erase Finset.univ (fun m => (nodes m).work) (Finset.mem_univ url)
  simp only [Function.update_self] at hnew
  omega

omit [DecidableEq OpId] in
theorem work_update (net : FetchNetwork OpId Url) (url : Url) (n : FetchNode OpId Url)
    (sent : Option (Url × FetchMessage OpId)) :
    (net.update url n sent).work + (net.nodes url).work = net.work + n.work + sentWork sent := by
  have hsum := sum_work_update net.nodes url n
  cases sent with
  | none =>
      simp only [work, update, sentWork, Option.map_none, Option.toList_none, List.append_nil,
        Option.elim] at hsum ⊢
      omega
  | some m =>
      simp only [work, update, sentWork, Option.map_some, Option.toList_some, List.map_append,
        List.map_cons, List.map_nil, List.sum_append, List.sum_cons, List.sum_nil,
        Option.elim] at hsum ⊢
      omega

omit [DecidableEq OpId] [Fintype Url] in
theorem update_same (net : FetchNetwork OpId Url) (url : Url) :
    net.update url (net.nodes url) none = net := by
  simp [update]

/-- A step of work brings the network nearer to its end, or changes nothing. -/
theorem work_lt (hwork : e.works = true) (hright : net.answersRight e = true)
    (hne : net.step e ≠ net) : (net.step e).work < net.work := by
  cases e with
  | advance url e =>
      by_cases hresponse : ∃ ops source, e = .respond ops source
      · rcases hresponse with ⟨ops, source, rfl⟩
        exact absurd rfl hne
      have hstep : net.step (.advance url e) = net.advance url e := by
        cases e with
        | respond ops source => exact absurd ⟨ops, source, rfl⟩ hresponse
        | _ => rfl
      rw [hstep] at hne ⊢
      have hsum := work_update net url ((net.nodes url).advance e) ((net.nodes url).requestSent e)
      rcases work_step (stepped (net.nodes url).fetch e) hright hwork
        (fun ops source heq => hresponse ⟨ops, source, heq⟩) with hsame | hless
      -- the step changed nothing, which is excluded
      · refine absurd ?_ hne
        have hnode : (net.nodes url).advance e = net.nodes url := by
          unfold FetchNode.advance
          rw [hsame, opsAfter_of_same hsame]
        unfold advance
        rw [hnode, requestSent_of_same hsame]
        exact update_same net url
      · unfold advance
        simp only [FetchNode.work, FetchNode.advance] at hsum hless ⊢
        omega
  | answer url a =>
      have hsum := work_update net url ((net.nodes url).answer a) ((net.nodes url).responseSent a)
      rcases work_answer (net.nodes url) a with ⟨hsame, hnone⟩ | hless
      · refine absurd ?_ hne
        show net.answer url a = net
        unfold answer
        rw [hsame, hnone]
        exact update_same net url
      · show (net.answer url a).work < net.work
        unfold answer
        omega
  | deliver i =>
      cases hpacket : net.packets[i]? with
      | none =>
          refine absurd ?_ hne
          simp only [step, deliver, hpacket]
      | some p =>
          have hless := work_recvModuleMsg (net.nodes p.target) p.source p.message
          have hnodes := sum_work_update net.nodes p.target
            ((net.nodes p.target).recvModuleMsg p.source p.message)
          have hpackets := sum_map_eraseIdx (f := fun p => p.message.work) hpacket
          simp only [step, deliver, hpacket, work]
          omega
  -- a lost packet takes its weight with it
  | lose i =>
      cases hpacket : net.packets[i]? with
      | none =>
          refine absurd ?_ hne
          simp only [step, List.eraseIdx_of_length_le (List.getElem?_eq_none_iff.mp hpacket)]
      | some p =>
          have hpackets := sum_map_eraseIdx (f := fun p => p.message.work) hpacket
          have hpos : 0 < p.message.work := by
            cases p.message with
            | request opIds => exact Nat.succ_pos _
            | response ops => exact Nat.succ_pos _
          simp only [step, work]
          omega
  | author url op => cases hwork

end FetchNetwork

end Core
end Kitsune2
