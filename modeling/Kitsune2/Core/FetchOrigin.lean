import Kitsune2.Core.FetchNetwork
import Kitsune2.Core.FetchSteps

/-!
# FetchOrigin — where an op comes from

Op ids are taken from the wire as they are.  Still no step makes an op up or changes one, so every op
that is stored anywhere was stored by some host of its own accord, and a stored op stays as it is.
-/

namespace Kitsune2
namespace Core

open Api Lib

variable {OpId Url : Type} [DecidableEq OpId] {P : OpId → Bytes → Prop}

/-! ## Nodes -/

/-- All ops have the property. -/
def AllOps (P : OpId → Bytes → Prop) (ops : List (Op OpId)) : Prop :=
  ∀ op ∈ ops, P op.opId op.data

/-- Every op in the store has the property. -/
def StoreSound (P : OpId → Bytes → Prop) (ops : AList fun _ : OpId => Bytes) : Prop :=
  ∀ opId data, ops.lookup opId = some data → P opId data

theorem StoreSound.insertOp {ops : AList fun _ : OpId => Bytes} (h : StoreSound P ops) {opId : OpId}
    {data : Bytes} (hop : P opId data) : StoreSound P (insertOp ops opId data) := by
  unfold Core.insertOp
  split
  · exact h
  · intro opId' data' hlookup
    by_cases hid : opId' = opId
    · subst hid
      rw [AList.lookup_insert] at hlookup
      cases hlookup
      exact hop
    · rw [AList.lookup_insert_ne hid] at hlookup
      exact h opId' data' hlookup

theorem StoreSound.processIncomingOps {ops : AList fun _ : OpId => Bytes} (h : StoreSound P ops)
    {opList : List (IncomingOp OpId)} (hlist : ∀ op ∈ opList, P op.opId op.opData)
    (opIds : List OpId) : StoreSound P (processIncomingOps ops opList opIds) := by
  unfold Core.processIncomingOps
  have hfilter : ∀ op ∈ opList.filter fun op => decide (op.opId ∈ opIds), P op.opId op.opData :=
    fun op hop => hlist op (List.mem_filter.mp hop).1
  generalize opList.filter (fun op => decide (op.opId ∈ opIds)) = l at hfilter
  induction l generalizing ops with
  | nil => exact h
  | cons op l ih =>
      exact ih (h.insertOp (hfilter op List.mem_cons_self))
        fun op' hop' => hfilter op' (List.mem_cons_of_mem _ hop')

theorem StoreSound.retrieveOps {ops : AList fun _ : OpId => Bytes} (h : StoreSound P ops)
    (opIds : List OpId) : AllOps P (retrieveOps ops opIds) := by
  intro op hop
  rcases List.mem_filterMap.mp hop with ⟨opId, -, hlookup⟩
  rcases Option.map_eq_some_iff.mp hlookup with ⟨data, hdata, rfl⟩
  exact h opId data hdata

/-- Every op that the node has anywhere has the property. -/
structure FetchNode.Sound (P : OpId → Bytes → Prop) (node : FetchNode OpId Url) : Prop where
  stored : StoreSound P node.ops
  sending : ∀ ops peer, node.answering = .sending ops peer → AllOps P ops
  received : ∀ r ∈ node.fetch.incomingResponses, AllOps P r.1
  processing : ∀ ops peer incoming, node.fetch.responseTask = .processing ops peer incoming →
    ∀ op ∈ incoming, P op.opId op.opData

namespace FetchNode

open CoreFetch

variable {node : FetchNode OpId Url}

theorem Sound.new (count : UInt8) {ops : AList fun _ : OpId => Bytes} (h : StoreSound P ops) :
    Sound P (.new count ops : FetchNode OpId Url) where
  stored := h
  sending := fun _ _ heq => by cases heq
  received := fun r hr => by cases hr
  processing := fun _ _ _ heq => by cases heq

/-- Only the response queue and its task hold ops. -/
theorem Sound.of_same {node' : FetchNode OpId Url} (h : node.Sound P)
    (hops : node'.ops = node.ops) (hanswering : node'.answering = node.answering)
    (hresponses : node'.fetch.incomingResponses = node.fetch.incomingResponses)
    (htask : node'.fetch.responseTask = node.fetch.responseTask) : node'.Sound P where
  stored := hops ▸ h.stored
  sending := hanswering ▸ h.sending
  received := hresponses ▸ h.received
  processing := htask ▸ h.processing

variable [DecidableEq Url]

theorem Sound.advance (h : node.Sound P) {e : FetchEvent OpId Url}
    (hnone : ∀ ops source, e ≠ .respond ops source) : (node.advance e).Sound P := by
  -- what is stored comes from a response under process
  have hstored : StoreSound P (node.opsAfter e) := by
    unfold opsAfter
    split
    · split
      · rename_i htask
        exact h.stored.processIncomingOps (h.processing _ _ _ htask) _
      · exact h.stored
    · exact h.stored
  -- and what is processed from a response that was received
  have hfetch : (∀ r ∈ (node.fetch.step e).incomingResponses, AllOps P r.1) ∧
      ∀ ops peer incoming, (node.fetch.step e).responseTask = .processing ops peer incoming →
        ∀ op ∈ incoming, P op.opId op.opData := by
    have hstep := stepped node.fetch e
    generalize node.fetch.step e = s at hstep
    cases hstep with
    | responded ops source hroom => exact absurd rfl (hnone ops source)
    | received hidle hqueue =>
        have hreceived := h.received
        rw [hqueue] at hreceived
        refine ⟨fun r hr => hreceived r (List.mem_cons_of_mem _ hr), ?_⟩
        rintro ops source incoming heq op hop
        cases heq
        rcases List.mem_map.mp hop with ⟨op', hop', rfl⟩
        exact hreceived _ List.mem_cons_self op' hop'
    | failed htask => exact ⟨h.received, fun _ _ _ heq => by cases heq⟩
    | processed htask opIds => exact ⟨h.received, fun _ _ _ heq => by cases heq⟩
    | _ => exact ⟨h.received, h.processing⟩
  exact ⟨hstored, h.sending, hfetch.1, hfetch.2⟩

omit [DecidableEq Url] in
theorem Sound.answer (h : node.Sound P) (a : IncomingRequestAnswer) : (node.answer a).Sound P := by
  have hsame := answer_same node a
  refine ⟨hsame.2 ▸ h.stored, ?_, hsame.1 ▸ h.received, hsame.1 ▸ h.processing⟩
  intro ops peer
  unfold FetchNode.answer
  split
  · split
    · exact h.sending ops peer
    · rintro heq
      dsimp only at heq
      split at heq
      · cases heq
      · cases heq
  · split
    · split
      · rintro heq
        cases heq
      · rename_i hsome
        rintro heq
        cases heq
        rw [← hsome]
        exact h.stored.retrieveOps _
    · rintro heq
      cases heq
  · rintro heq
    cases heq
  · exact h.sending ops peer

omit [DecidableEq Url] in
/-- A response is what the task was sending. -/
theorem Sound.responseSent (h : node.Sound P) {a : IncomingRequestAnswer} {target : Url}
    {ops : List (Op OpId)} (hsent : node.responseSent a = some (target, .response ops)) :
    AllOps P ops := by
  unfold FetchNode.responseSent at hsent
  split at hsent
  · rename_i htask
    cases hsent
    exact h.sending _ _ htask
  · cases hsent

omit [DecidableEq OpId] [DecidableEq Url] in
theorem requestSent_ne_response (node : FetchNode OpId Url) (e : FetchEvent OpId Url) (target : Url)
    (ops : List (Op OpId)) : node.requestSent e ≠ some (target, .response ops) := by
  unfold requestSent
  split
  · split
    · simp
    · simp
  · simp

theorem Sound.recvModuleMsg (h : node.Sound P) (source : Url) {message : FetchMessage OpId}
    (hmessage : ∀ ops, message = .response ops → AllOps P ops) :
    (node.recvModuleMsg source message).Sound P := by
  cases message with
  | request opIds =>
      unfold FetchNode.recvModuleMsg
      dsimp only
      split
      · exact h
      · split
        · exact h.of_same rfl rfl rfl rfl
        · exact h
  | response ops =>
      unfold FetchNode.recvModuleMsg respond
      dsimp only
      split
      · refine ⟨h.stored, h.sending, ?_, h.processing⟩
        intro r hr
        rcases List.mem_append.mp hr with hold | hnew
        · exact h.received r hold
        · rw [List.mem_singleton.mp hnew]
          exact hmessage ops rfl
      · exact h

end FetchNode

/-! ## The network -/

variable [DecidableEq Url]

namespace FetchNetwork

open FetchNode

variable {net : FetchNetwork OpId Url}

/-- Every op anywhere in the network has the property. -/
structure Sound (P : OpId → Bytes → Prop) (net : FetchNetwork OpId Url) : Prop where
  nodes : ∀ url, (net.nodes url).Sound P
  packets : ∀ p ∈ net.packets, ∀ ops, p.message = .response ops → AllOps P ops

theorem Sound.update (h : net.Sound P) {url : Url} {n : FetchNode OpId Url} (hn : n.Sound P)
    {sent : Option (Url × FetchMessage OpId)}
    (hsent : ∀ target ops, sent = some (target, .response ops) → AllOps P ops) :
    (net.update url n sent).Sound P := by
  refine ⟨?_, ?_⟩
  · intro m
    by_cases hm : m = url
    · rw [hm, nodes_update_self]
      exact hn
    · rw [nodes_update_of_ne hm]
      exact h.nodes m
  · intro p hp ops hmessage
    rcases List.mem_append.mp hp with hold | hnew
    · exact h.packets p hold ops hmessage
    · cases sent with
      | none => cases hnew
      | some m =>
          obtain rfl := List.mem_singleton.mp hnew
          refine hsent m.1 ops ?_
          rw [← (show m.2 = .response ops from hmessage)]

/-- A host's own ops are all that a step can add. -/
theorem Sound.step (h : net.Sound P) {e : NetworkEvent OpId Url}
    (hauthor : ∀ url op, e = .author url op → P op.opId op.data) : (net.step e).Sound P := by
  cases e with
  | advance url e =>
      have hadvance : (∀ ops source, e ≠ .respond ops source) → (net.advance url e).Sound P :=
        fun hnone => h.update ((h.nodes url).advance hnone) fun target ops heq =>
          absurd heq (requestSent_ne_response _ _ _ _)
      cases e with
      | respond ops source => exact h
      | _ => exact hadvance (by simp)
  | answer url a =>
      exact h.update ((h.nodes url).answer a) fun target ops heq => (h.nodes url).responseSent heq
  | deliver i =>
      simp only [FetchNetwork.step, deliver]
      split
      · exact h
      · rename_i p hp
        have hmem := List.mem_of_getElem? hp
        refine ⟨?_, fun q hq => h.packets q (List.mem_of_mem_eraseIdx hq)⟩
        intro m
        by_cases hm : m = p.target
        · rw [hm]
          dsimp only
          rw [Function.update_self]
          exact (h.nodes p.target).recvModuleMsg _ (h.packets p hmem)
        · dsimp only
          rw [Function.update_of_ne hm]
          exact h.nodes m
  | lose i => exact ⟨h.nodes, fun q hq => h.packets q (List.mem_of_mem_eraseIdx hq)⟩
  | author url op =>
      refine h.update ?_ fun target ops heq => by cases heq
      refine ⟨(h.nodes url).stored.insertOp (hauthor url op rfl), (h.nodes url).sending,
        (h.nodes url).received, (h.nodes url).processing⟩

/-- Where an op of a run can come from. -/
def Authored (nodes : Url → UInt8 × AList fun _ : OpId => Bytes) (events : List (NetworkEvent OpId Url))
    (opId : OpId) (data : Bytes) : Prop :=
  ∃ url, (nodes url).2.lookup opId = some data ∨ .author url ⟨opId, data⟩ ∈ events

theorem sound_run (nodes : Url → UInt8 × AList fun _ : OpId => Bytes)
    (events : List (NetworkEvent OpId Url)) :
    Sound (Authored nodes events) (events.foldl step (start nodes)) := by
  have hstart : Sound (Authored nodes events) (start nodes) := by
    refine ⟨fun url => .new _ fun opId data h => ⟨url, Or.inl h⟩, ?_⟩
    intro p hp
    cases hp
  -- the events of a run that is under way are among all its events
  have hrun : ∀ (es : List (NetworkEvent OpId Url)) (net : FetchNetwork OpId Url), es ⊆ events →
      Sound (Authored nodes events) net → Sound (Authored nodes events) (es.foldl step net) := by
    intro es
    induction es with
    | nil => exact fun net _ h => h
    | cons e es ih =>
        intro net hsub h
        refine ih _ (fun e' he' => hsub (List.mem_cons_of_mem _ he')) (h.step ?_)
        rintro url op rfl
        exact ⟨url, Or.inr (hsub List.mem_cons_self)⟩
  exact hrun events _ (List.Subset.refl _) hstart

/-- In every run, whatever is lost, overtaken or refused, each op in a store is byte for byte one that
some host stored of its own accord, and it stays there as it is. -/
theorem stored_ops_authored (nodes : Url → UInt8 × AList fun _ : OpId => Bytes)
    (events more : List (NetworkEvent OpId Url)) (url : Url) (opId : OpId) (data : Bytes) :
    let net := events.foldl step (start nodes)
    (net.nodes url).ops.lookup opId = some data →
      Authored nodes events opId data ∧
        ((more.foldl step net).nodes url).ops.lookup opId = some data := by
  intro net hlookup
  exact ⟨((sound_run nodes events).nodes url).stored opId data hlookup, lookup_ops_run hlookup more⟩

/-- The op that was fetched, while the node that had it stores another one. -/
theorem stored_ops_authored_fetched :
    let request : List (NetworkEvent Nat Bool) := [.advance true (.requestOps [⟨7, none⟩] false)]
    let net := (request ++ fetchOp).foldl step (start oneHasOp)
    Authored oneHasOp (request ++ fetchOp) 7 [1, 2, 3] ∧
      (([.author false ⟨8, [4]⟩].foldl step net).nodes true).ops.lookup 7 = some [1, 2, 3] := by
  intro request net
  exact stored_ops_authored oneHasOp (request ++ fetchOp) [.author false ⟨8, [4]⟩] true 7 [1, 2, 3]
    (by decide +kernel)

end FetchNetwork

end Core
end Kitsune2
