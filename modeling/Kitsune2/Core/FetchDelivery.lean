import Kitsune2.Core.FetchPlaces

/-!
# FetchDelivery — no request is forgotten

Whatever happens elsewhere in the network, a request that nothing disturbs is pending and at one of its
places until the op is stored.
-/

namespace Kitsune2
namespace Core

open Api Lib

variable {OpId Url : Type} [DecidableEq Url]

namespace FetchNetwork

open CoreFetch FetchNode

variable {net net' : FetchNetwork OpId Url} {node peer url : Url} {opId : OpId}
  {e : NetworkEvent OpId Url}

/-! ## The tasks -/

/-- Neither the node's tasks nor the peer's find the transport gone. -/
def TransportsKept (node peer : Url) : NetworkEvent OpId Url → Prop
  | .advance url e => url = node → QueueRun.TransportKept e
  | .answer url a => url = peer → a.FindsTransport
  | _ => True

/-- The tasks that a request and its answer need are there. -/
structure TasksKept (net : FetchNetwork OpId Url) (node peer : Url) : Prop where
  alive : (net.nodes node).fetch.Alive
  answering : (net.nodes peer).answering ≠ .stopped

theorem TasksKept.step [DecidableEq OpId] (h : TasksKept net node peer)
    (hkept : TransportsKept node peer e) :
    TasksKept (net.step e) node peer := by
  refine ⟨?_, ?_⟩
  · have halive := h.alive
    have hstep := nodeStep net e node
    generalize (net.step e).nodes node = n at hstep
    cases hstep with
    | same => exact halive
    | advance he =>
        rw [he] at hkept
        exact halive.step (stepped _ _) (hkept rfl)
    | answer he =>
        rw [(answer_same _ _).1]
        exact halive
    | received source message =>
        unfold Alive
        rw [(recvModuleMsg_same _ _ _).2.2.2.2]
        exact halive
    | authored he => exact halive
  · have hopen := h.answering
    have hstep := nodeStep net e peer
    generalize (net.step e).nodes peer = n at hstep
    cases hstep with
    | same => exact hopen
    | advance he => exact hopen
    | answer he =>
        rw [he] at hkept
        exact answering_answer (hkept rfl) hopen
    | received source message =>
        rw [(recvModuleMsg_same _ _ _).2.1]
        exact hopen
    | authored he => exact hopen

theorem transportKept [DecidableEq OpId] (hcalm : net.undisturbed node opId peer e = true) :
    TransportsKept node peer e := by
  cases e with
  | advance url e =>
      rintro rfl
      simp only [undisturbed, ne_eq, not_true_eq_false, decide_false, Bool.false_or,
        Bool.and_eq_true] at hcalm
      exact transportKept_of_undisturbed hcalm.2
  | answer url a =>
      rintro rfl
      simp only [undisturbed, ne_eq, not_true_eq_false, decide_false, Bool.false_or] at hcalm
      exact findsTransport_of_answers hcalm
  | _ => trivial

/-! ## Packets -/

theorem mem_packets_sent (net : FetchNetwork OpId Url) (url : Url) (n : FetchNode OpId Url)
    (target : Url) (message : FetchMessage OpId) :
    ⟨url, target, message⟩ ∈ (net.update url n (some (target, message))).packets :=
  List.mem_append_right _ (List.mem_singleton_self _)

/-- What is sent joins the packets on their way. -/
theorem Carries.updated (h : net.Carries node opId peer) (url : Url) (n : FetchNode OpId Url)
    (sent : Option (Url × FetchMessage OpId)) : (net.update url n sent).Carries node opId peer := by
  cases h with
  | request hpacket hop => exact .request (List.mem_append_left _ hpacket) hop
  | response hpacket hop => exact .response (List.mem_append_left _ hpacket) hop

theorem between_forth (a b : Url) (message : FetchMessage OpId) :
    (⟨a, b, message⟩ : Packet OpId Url).between a b = true := by
  simp [Packet.between]

theorem between_back (a b : Url) (message : FetchMessage OpId) :
    (⟨b, a, message⟩ : Packet OpId Url).between a b = true := by
  simp [Packet.between]

omit [DecidableEq Url] in
/-- A packet that is taken out had the request or its answer, or another packet has it still. -/
theorem Carries.eraseIdx (h : net.Carries node opId peer) (i : Nat)
    (nodes : Url → FetchNode OpId Url) :
    Carries ⟨nodes, net.packets.eraseIdx i⟩ node opId peer ∨
      (∃ opIds, net.packets[i]? = some ⟨node, peer, .request opIds⟩ ∧ opId ∈ opIds) ∨
        ∃ ops, net.packets[i]? = some ⟨peer, node, .response ops⟩ ∧ opId ∈ ops.map Op.opId := by
  cases h with
  | request hpacket hop =>
      rcases mem_eraseIdx_or hpacket i with hstill | hthis
      · exact Or.inl (.request hstill hop)
      · exact Or.inr (Or.inl ⟨_, hthis, hop⟩)
  | response hpacket hop =>
      rcases mem_eraseIdx_or hpacket i with hstill | hthis
      · exact Or.inl (.response hstill hop)
      · exact Or.inr (Or.inr ⟨_, hthis, hop⟩)

/-! ## The request -/

/-- The peer has the op, the tasks have not stopped, and the request is not forgotten. -/
structure RequestKept (net : FetchNetwork OpId Url) (node : Url) (opId : OpId) (peer : Url) : Prop where
  held : opId ∈ (net.nodes peer).ops
  tasks : TasksKept net node peer
  owed : net.Owed node opId peer

omit [DecidableEq Url] in
/-- A step that leaves the calls of the node, and what is pending there. -/
theorem Owed.mono (h : net.Owed node opId peer)
    (hops : opId ∈ (net.nodes node).ops → opId ∈ (net'.nodes node).ops)
    (hcalls : (net'.nodes node).fetch.calls = (net.nodes node).fetch.calls)
    (hrequests : (net'.nodes node).fetch.requests = (net.nodes node).fetch.requests)
    (hway : net.OnItsWay node opId peer → net'.OnItsWay node opId peer) :
    net'.Owed node opId peer := by
  rcases h with hthere | ⟨metadata, hmem, hop⟩ | ⟨hpending, hplace⟩
  · exact Or.inl (hops hthere)
  · exact Or.inr (Or.inl ⟨metadata, hcalls ▸ hmem, hop⟩)
  · exact Or.inr (Or.inr ⟨hrequests ▸ hpending, hway hplace⟩)

variable [DecidableEq OpId]

/-- A step of a fetch module leaves what the incoming request task has. -/
theorem serves_advance (h : (net.nodes peer).Serves opId node) (url : Url)
    (e : FetchEvent OpId Url) : ((net.advance url e).nodes peer).Serves opId node := by
  by_cases hurl : peer = url
  · rw [hurl] at h ⊢
    rw [advance, nodes_update_self]
    exact h.of_same rfl rfl
  · rw [advance, nodes_update_of_ne hurl]
    exact h

/-- A step of the node's own fetch module. -/
theorem RequestKept.advance_self (h : RequestKept net node opId peer) {e : FetchEvent OpId Url}
    (hright : (net.nodes node).answersRight e = true)
    (hcalm : (net.nodes node).undisturbed opId peer e = true) :
    (net.advance node e).Owed node opId peer := by
  have hstep := stepped (net.nodes node).fetch e
  have hnode : (net.advance node e).nodes node = (net.nodes node).advance e :=
    nodes_update_self _ _ _ _
  unfold Owed OnItsWay
  rw [hnode]
  rcases h.owed with hthere | hfiltering | ⟨hpending, hway⟩
  · exact Or.inl (mem_opsAfter hthere e)
  · rcases filtering_step hstep hright hcalm hfiltering with hthere | hstill | ⟨hpending, hplace⟩
    · exact Or.inl (mem_opsAfter hthere e)
    · exact Or.inr (Or.inl hstill)
    · exact Or.inr (Or.inr ⟨hpending, Or.inl hplace⟩)
  · rcases requested_step hstep h.tasks.alive hright hcalm hpending hway
      with hstored | ⟨hpending, hnext⟩
    · exact Or.inl hstored
    refine Or.inr (Or.inr ⟨hpending, ?_⟩)
    rcases hnext with hplace | hsent | hserved | hcarried
    · exact Or.inl hplace
    · refine Or.inr (Or.inr (.request ?_ (List.mem_singleton_self _)))
      rw [FetchNetwork.advance, hsent]
      exact mem_packets_sent net node _ peer _
    · exact Or.inr (Or.inl (serves_advance hserved node e))
    · exact Or.inr (Or.inr (hcarried.updated _ _ _))

theorem RequestKept.advance_other (h : RequestKept net node opId peer) (hurl : node ≠ url)
    (e : FetchEvent OpId Url) : (net.advance url e).Owed node opId peer := by
  have hnode : (net.advance url e).nodes node = net.nodes node := nodes_update_of_ne hurl _ _
  refine h.owed.mono (hnode ▸ id) (by rw [hnode]) (by rw [hnode]) ?_
  rintro (hplace | hserved | hcarried)
  · exact Or.inl (hnode ▸ hplace)
  · exact Or.inr (Or.inl (serves_advance hserved url e))
  · exact Or.inr (Or.inr (hcarried.updated _ _ _))

theorem RequestKept.answer (h : RequestKept net node opId peer) {a : IncomingRequestAnswer}
    (hcalm : net.undisturbed node opId peer (.answer url a) = true) :
    (net.answer url a).Owed node opId peer := by
  -- answering leaves the fetch state and the stored ops of every node alone
  have hsame : ((net.answer url a).nodes node).fetch = (net.nodes node).fetch ∧
      ((net.answer url a).nodes node).ops = (net.nodes node).ops := by
    by_cases hurl : node = url
    · rw [hurl, FetchNetwork.answer, nodes_update_self]
      exact answer_same _ _
    · rw [FetchNetwork.answer, nodes_update_of_ne hurl]
      exact ⟨rfl, rfl⟩
  refine h.owed.mono (hsame.2 ▸ id) (by rw [hsame.1]) (by rw [hsame.1]) ?_
  rintro (hplace | hserved | hcarried)
  · exact Or.inl (hsame.1 ▸ hplace)
  · by_cases hurl : peer = url
    · subst hurl
      simp only [undisturbed, ne_eq, not_true_eq_false, decide_false, Bool.false_or] at hcalm
      -- the peer keeps serving the request or sends the op
      rcases serves_answer h.held hcalm hserved with hstill | ⟨ops, hsent, hop⟩
      · refine Or.inr (Or.inl ?_)
        rw [FetchNetwork.answer, nodes_update_self]
        exact hstill
      · refine Or.inr (Or.inr (.response ?_ hop))
        rw [FetchNetwork.answer, hsent]
        exact mem_packets_sent net peer _ node _
    · refine Or.inr (Or.inl ?_)
      rw [FetchNetwork.answer, nodes_update_of_ne hurl]
      exact hserved
  · exact Or.inr (Or.inr (hcarried.updated _ _ _))

/-- A packet that comes in leaves the request where it was, or has it or its answer. -/
theorem RequestKept.deliver (h : RequestKept net node opId peer) {i : Nat}
    (hcalm : net.undisturbed node opId peer (.deliver i) = true) :
    (net.deliver i).Owed node opId peer := by
  unfold FetchNetwork.deliver
  simp only [undisturbed] at hcalm
  cases hpacket : net.packets[i]? with
  | none => exact h.owed
  | some p =>
      rw [hpacket] at hcalm
      simp only [Bool.or_eq_true, Bool.not_eq_true'] at hcalm
      dsimp only
      generalize hnodes : Function.update net.nodes p.target
        ((net.nodes p.target).recvModuleMsg p.source p.message) = nodes
      have htarget : nodes p.target = (net.nodes p.target).recvModuleMsg p.source p.message := by
        rw [← hnodes]
        exact Function.update_self _ _ _
      -- one node receives the message, every other one is as before
      have hreceives : ∀ m, nodes m = net.nodes m ∨
          nodes m = (net.nodes m).recvModuleMsg p.source p.message := by
        intro m
        by_cases hm : m = p.target
        · rw [hm]
          exact Or.inr htarget
        · rw [← hnodes]
          exact Or.inl (Function.update_of_ne hm _ _)
      have hsame : (nodes node).ops = (net.nodes node).ops ∧
          (nodes node).fetch.calls = (net.nodes node).fetch.calls ∧
          (nodes node).fetch.requests = (net.nodes node).fetch.requests := by
        rcases hreceives node with hnode | hnode
        · rw [hnode]
          exact ⟨rfl, rfl, rfl⟩
        · rw [hnode]
          rcases recvModuleMsg_same (net.nodes node) p.source p.message with ⟨h1, -, h3, h4, -⟩
          exact ⟨h1, h3, h4⟩
      refine h.owed.mono (hsame.1 ▸ id) hsame.2.1 hsame.2.2 ?_
      rintro (hplace | hserved | hcarried)
      · refine Or.inl ?_
        dsimp only
        rcases hreceives node with hnode | hnode
        · exact hnode ▸ hplace
        · exact hnode ▸ handles_recvModuleMsg hplace _ _
      · refine Or.inr (Or.inl ?_)
        dsimp only
        rcases hreceives peer with hpeer | hpeer
        · exact hpeer ▸ hserved
        · exact hpeer ▸ serves_recvModuleMsg hserved _ _
      -- the packet that carried the request or the response may be the delivered one
      · rcases hcarried.eraseIdx i nodes with hstill | ⟨opIds, hthis, hop⟩ | ⟨ops, hthis, hop⟩
        · exact Or.inr (Or.inr hstill)
        · obtain rfl := Option.some.inj (hpacket.symm.trans hthis)
          rw [between_forth] at hcalm
          refine Or.inr (Or.inl ?_)
          dsimp only at htarget ⊢
          rw [htarget]
          exact serves_request hop h.tasks.answering (by simpa using hcalm)
        · obtain rfl := Option.some.inj (hpacket.symm.trans hthis)
          rw [between_back] at hcalm
          refine Or.inl ?_
          dsimp only at htarget ⊢
          rw [htarget]
          exact handles_response hop (by simpa using hcalm)

theorem RequestKept.lose (h : RequestKept net node opId peer) {i : Nat}
    (hcalm : net.undisturbed node opId peer (.lose i) = true) :
    Owed { net with packets := net.packets.eraseIdx i } node opId peer := by
  simp only [undisturbed] at hcalm
  refine h.owed.mono id rfl rfl ?_
  rintro (hplace | hserved | hcarried)
  · exact Or.inl hplace
  · exact Or.inr (Or.inl hserved)
  · rcases hcarried.eraseIdx i net.nodes with hstill | ⟨opIds, hthis, -⟩ | ⟨ops, hthis, -⟩
    · exact Or.inr (Or.inr hstill)
    · rw [hthis] at hcalm
      simp [between_forth] at hcalm
    · rw [hthis] at hcalm
      simp [between_back] at hcalm

theorem RequestKept.author (h : RequestKept net node opId peer) (url : Url) (op : Op OpId) :
    (net.author url op).Owed node opId peer := by
  have hsame : ∀ m, ((net.author url op).nodes m).fetch = (net.nodes m).fetch ∧
      ((net.author url op).nodes m).answering = (net.nodes m).answering ∧
      ((net.author url op).nodes m).incomingRequests = (net.nodes m).incomingRequests := by
    intro m
    by_cases hurl : m = url
    · rw [hurl, FetchNetwork.author, nodes_update_self]
      exact ⟨rfl, rfl, rfl⟩
    · rw [FetchNetwork.author, nodes_update_of_ne hurl]
      exact ⟨rfl, rfl, rfl⟩
  have hfetch := (hsame node).1
  refine h.owed.mono (fun hthere => mem_ops_step hthere (.author url op)) (by rw [hfetch])
    (by rw [hfetch]) ?_
  rintro (hplace | hserved | hcarried)
  · exact Or.inl (hfetch ▸ hplace)
  · exact Or.inr (Or.inl (hserved.of_same (hsame peer).2.1 (hsame peer).2.2))
  · exact Or.inr (Or.inr (hcarried.updated _ _ _))

theorem RequestKept.step (h : RequestKept net node opId peer)
    (hcalm : net.undisturbed node opId peer e = true) : RequestKept (net.step e) node opId peer := by
  refine ⟨mem_ops_step h.held e, h.tasks.step (transportKept hcalm), ?_⟩
  cases e with
  | advance url e =>
      have hadvance : (net.advance url e).Owed node opId peer := by
        by_cases hurl : node = url
        · subst hurl
          simp only [undisturbed, ne_eq, not_true_eq_false, decide_false, Bool.false_or,
            Bool.and_eq_true] at hcalm
          exact h.advance_self hcalm.1 hcalm.2
        · exact h.advance_other hurl e
      cases e with
      | respond ops source => exact h.owed
      | _ => exact hadvance
  | answer url a => exact h.answer hcalm
  | deliver i => exact h.deliver hcalm
  | lose i => exact h.lose hcalm
  | author url op => exact h.author url op

end FetchNetwork

end Core
end Kitsune2
