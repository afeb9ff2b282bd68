import Mathlib.Logic.Function.Basic
import Kitsune2.Core.Fetch

/-!
# FetchNetwork — nodes that fetch ops from each other

Every node has an op store, a `CoreFetch` that asks other nodes for ops, and an incoming request task
that answers such questions out of the store.  A packet on its way can be overtaken or lost.

The hosts decide which ops they process, and hosts store ops of their own at any time.
-/

namespace Kitsune2
namespace Core

open Api Lib

variable {OpId Url : Type} [DecidableEq OpId] [DecidableEq Url]

/-! ## Nodes -/

/-- A `K2FetchMessage`, decoded. -/
inductive FetchMessage (OpId : Type) where
  | request (opIds : List OpId)
  | response (ops : List (Op OpId))
  deriving DecidableEq

/-- The `incoming_request_task`. -/
inductive IncomingRequestTask (OpId Url : Type) where
  | idle
  /-- The op store is asked for the ops. -/
  | retrieving (opIds : List OpId) (peer : Url)
  | sending (ops : List (Op OpId)) (peer : Url)
  /-- The transport is gone. -/
  | stopped
  deriving DecidableEq

/-- The answers the task gets: whether the transport is still there, whether the store could be read,
whether the message was sent. -/
inductive IncomingRequestAnswer where
  | upgraded (present : Bool)
  | retrieved (ok : Bool)
  | sent (ok : Bool)
  deriving DecidableEq

structure FetchNode (OpId Url : Type) where
  fetch : CoreFetch OpId Url
  /-- The op store. -/
  ops : AList fun _ : OpId => Bytes
  incomingRequests : List (List OpId × Url)
  answering : IncomingRequestTask OpId Url

/-! ## The op store -/

/-- `retrieve_ops`. -/
def retrieveOps (ops : AList fun _ : OpId => Bytes) (opIds : List OpId) : List (Op OpId) :=
  opIds.filterMap fun opId => (ops.lookup opId).map fun data => ⟨opId, data⟩

/-- `filter_out_existing_ops`. -/
def filterOutExistingOps (ops : AList fun _ : OpId => Bytes) (opIds : List OpId) : List OpId :=
  opIds.filter fun opId => opId ∉ ops

/-- `op_list.entry(op_id).or_insert(record)`. -/
def insertOp (ops : AList fun _ : OpId => Bytes) (opId : OpId) (data : Bytes) :
    AList fun _ : OpId => Bytes :=
  if opId ∈ ops then ops else ops.insert opId data

/-- `process_incoming_ops` of a host that processes the ops with these ids. -/
def processIncomingOps (ops : AList fun _ : OpId => Bytes) (opList : List (IncomingOp OpId))
    (opIds : List OpId) : AList fun _ : OpId => Bytes :=
  (opList.filter fun op => op.opId ∈ opIds).foldl (fun ops op => insertOp ops op.opId op.opData) ops

section OpStore

variable {ops : AList fun _ : OpId => Bytes} {opId : OpId}

/-- A stored op is never replaced. -/
theorem lookup_insertOp {data : Bytes} (h : ops.lookup opId = some data) (opId' : OpId)
    (data' : Bytes) : (insertOp ops opId' data').lookup opId = some data := by
  unfold insertOp
  split
  · exact h
  · rename_i hnew
    rw [AList.lookup_insert_ne]
    · exact h
    · rintro rfl
      exact hnew (AList.lookup_isSome.mp (by rw [h]; rfl))

theorem lookup_processIncomingOps {data : Bytes} (h : ops.lookup opId = some data)
    (opList : List (IncomingOp OpId)) (opIds : List OpId) :
    (processIncomingOps ops opList opIds).lookup opId = some data := by
  unfold processIncomingOps
  generalize opList.filter (fun op => decide (op.opId ∈ opIds)) = l
  induction l generalizing ops with
  | nil => exact h
  | cons op l ih => exact ih (lookup_insertOp h _ _)

theorem mem_insertOp_of_mem (h : opId ∈ ops) (opId' : OpId) (data : Bytes) :
    opId ∈ insertOp ops opId' data := by
  unfold insertOp
  split
  · exact h
  · exact (AList.mem_insert _).mpr (Or.inr h)

theorem mem_insertOp_self (ops : AList fun _ : OpId => Bytes) (opId : OpId) (data : Bytes) :
    opId ∈ insertOp ops opId data := by
  unfold insertOp
  split
  · assumption
  · exact (AList.mem_insert _).mpr (Or.inl rfl)

theorem mem_foldl_insertOp (opList : List (IncomingOp OpId)) :
    ∀ ops : AList fun _ : OpId => Bytes, (opId ∈ ops ∨ opId ∈ opList.map IncomingOp.opId) →
      opId ∈ opList.foldl (fun ops op => insertOp ops op.opId op.opData) ops := by
  induction opList with
  | nil =>
      rintro ops (hold | hnew)
      · exact hold
      · cases hnew
  | cons op opList ih =>
      intro ops h
      refine ih _ ?_
      rcases h with hold | hnew
      · exact Or.inl (mem_insertOp_of_mem hold _ _)
      · rcases List.mem_cons.mp hnew with rfl | hrest
        · exact Or.inl (mem_insertOp_self _ _ _)
        · exact Or.inr hrest

theorem mem_processIncomingOps {opList : List (IncomingOp OpId)} {opIds : List OpId}
    (h : opId ∈ ops ∨ (opId ∈ opList.map IncomingOp.opId ∧ opId ∈ opIds)) :
    opId ∈ processIncomingOps ops opList opIds := by
  refine mem_foldl_insertOp _ ops ?_
  rcases h with hold | ⟨hgiven, hprocessed⟩
  · exact Or.inl hold
  · rcases List.mem_map.mp hgiven with ⟨op, hop, rfl⟩
    exact Or.inr (List.mem_map.mpr ⟨op, List.mem_filter.mpr ⟨hop, decide_eq_true hprocessed⟩, rfl⟩)

/-- A node that has the op finds it. -/
theorem mem_retrieveOps (h : opId ∈ ops) {opIds : List OpId} (hop : opId ∈ opIds) :
    opId ∈ (retrieveOps ops opIds).map Op.opId := by
  rcases Option.isSome_iff_exists.mp (AList.lookup_isSome.mpr h) with ⟨data, hdata⟩
  refine List.mem_map.mpr ⟨⟨opId, data⟩, List.mem_filterMap.mpr ⟨opId, hop, ?_⟩, rfl⟩
  rw [hdata]
  rfl

end OpStore

namespace FetchNode

def new (parallelRequestCount : UInt8) (ops : AList fun _ : OpId => Bytes) : FetchNode OpId Url where
  fetch := .new parallelRequestCount
  ops := ops
  incomingRequests := []
  answering := .idle

/-- The op store after an event. -/
def opsAfter (node : FetchNode OpId Url) : FetchEvent OpId Url → AList fun _ : OpId => Bytes
  | .processed (some opIds) =>
      match node.fetch.responseTask with
      | .processing _ _ incoming => processIncomingOps node.ops incoming opIds
      | .idle => node.ops
  | _ => node.ops

/-- A call or a task of the fetch module goes on. -/
def advance (node : FetchNode OpId Url) (e : FetchEvent OpId Url) : FetchNode OpId Url :=
  { node with fetch := node.fetch.step e, ops := node.opsAfter e }

/-- The request that an outgoing request task sends. -/
def requestSent (node : FetchNode OpId Url) : FetchEvent OpId Url → Option (Url × FetchMessage OpId)
  | .advanceTask i (.sent true) =>
      match node.fetch.requestTasks[i]? with
      | some (.sending opId peer) => some (peer, .request [opId])
      | _ => none
  | _ => none

/-- The next step of the `incoming_request_task`. -/
def answer (node : FetchNode OpId Url) (a : IncomingRequestAnswer) : FetchNode OpId Url :=
  match node.answering, a with
  | .idle, .upgraded present =>
      match node.incomingRequests with
      | [] => node
      | (opIds, peer) :: rest =>
          { node with
            incomingRequests := rest
            answering := if present then .retrieving opIds peer else .stopped }
  | .retrieving opIds peer, .retrieved ok =>
      -- no response is sent when no op could be retrieved
      if ok then
        match retrieveOps node.ops opIds with
        | [] => { node with answering := .idle }
        | op :: ops => { node with answering := .sending (op :: ops) peer }
      else { node with answering := .idle }
  | .sending _ _, .sent _ => { node with answering := .idle }
  | _, _ => node

/-- The response that the task sends. -/
def responseSent (node : FetchNode OpId Url) (a : IncomingRequestAnswer) :
    Option (Url × FetchMessage OpId) :=
  match node.answering, a with
  | .sending ops peer, .sent true => some (peer, .response ops)
  | _, _ => none

/-- `recv_module_msg`: a full queue, or one whose receiver is gone, drops the message. -/
def recvModuleMsg (node : FetchNode OpId Url) (peer : Url) : FetchMessage OpId → FetchNode OpId Url
  | .request opIds =>
      if node.answering = .stopped then node
      else if node.incomingRequests.length < channelCapacity then
        { node with incomingRequests := node.incomingRequests ++ [(opIds, peer)] }
      else node
  | .response ops => { node with fetch := node.fetch.respond ops peer }

omit [DecidableEq Url] in
theorem lookup_opsAfter {node : FetchNode OpId Url} {opId : OpId} {data : Bytes}
    (h : node.ops.lookup opId = some data) (e : FetchEvent OpId Url) :
    (node.opsAfter e).lookup opId = some data := by
  unfold opsAfter
  split
  · split
    · exact lookup_processIncomingOps h _ _
    · exact h
  · exact h

omit [DecidableEq Url] in
theorem answer_same (node : FetchNode OpId Url) (a : IncomingRequestAnswer) :
    (node.answer a).fetch = node.fetch ∧ (node.answer a).ops = node.ops := by
  unfold answer
  split
  · split
    · exact ⟨rfl, rfl⟩
    · exact ⟨rfl, rfl⟩
  · split
    · split
      · exact ⟨rfl, rfl⟩
      · exact ⟨rfl, rfl⟩
    · exact ⟨rfl, rfl⟩
  · exact ⟨rfl, rfl⟩
  · exact ⟨rfl, rfl⟩

theorem recvModuleMsg_same (node : FetchNode OpId Url) (source : Url) (message : FetchMessage OpId) :
    (node.recvModuleMsg source message).ops = node.ops ∧
      (node.recvModuleMsg source message).answering = node.answering ∧
      (node.recvModuleMsg source message).fetch.calls = node.fetch.calls ∧
      (node.recvModuleMsg source message).fetch.requests = node.fetch.requests ∧
      (node.recvModuleMsg source message).fetch.requestTasks = node.fetch.requestTasks := by
  cases message with
  | request opIds =>
      unfold recvModuleMsg
      dsimp only
      split
      · exact ⟨rfl, rfl, rfl, rfl, rfl⟩
      · split
        · exact ⟨rfl, rfl, rfl, rfl, rfl⟩
        · exact ⟨rfl, rfl, rfl, rfl, rfl⟩
  | response ops =>
      unfold recvModuleMsg CoreFetch.respond
      dsimp only
      split
      · exact ⟨rfl, rfl, rfl, rfl, rfl⟩
      · exact ⟨rfl, rfl, rfl, rfl, rfl⟩

end FetchNode

/-! ## The network -/

structure Packet (OpId Url : Type) where
  source : Url
  target : Url
  message : FetchMessage OpId
  deriving DecidableEq

structure FetchNetwork (OpId Url : Type) where
  nodes : Url → FetchNode OpId Url
  /-- What is on its way. -/
  packets : List (Packet OpId Url)

/-- What can happen next. -/
inductive NetworkEvent (OpId Url : Type) where
  /-- A call or a task of a node goes on; responses come by packets only. -/
  | advance (url : Url) (e : FetchEvent OpId Url)
  /-- The incoming request task of a node goes on. -/
  | answer (url : Url) (a : IncomingRequestAnswer)
  | deliver (i : Nat)
  | lose (i : Nat)
  /-- The host of a node stores an op of its own. -/
  | author (url : Url) (op : Op OpId)

namespace FetchNetwork

def start (nodes : Url → UInt8 × AList fun _ : OpId => Bytes) : FetchNetwork OpId Url where
  nodes := fun url => .new (nodes url).1 (nodes url).2
  packets := []

/-- A node has changed, and what it sends is on its way. -/
def update (net : FetchNetwork OpId Url) (url : Url) (node : FetchNode OpId Url)
    (sent : Option (Url × FetchMessage OpId)) : FetchNetwork OpId Url where
  nodes := Function.update net.nodes url node
  packets := net.packets ++ (sent.map fun m => ⟨url, m.1, m.2⟩).toList

/-- A call or a task of a node's fetch module goes on. -/
def advance (net : FetchNetwork OpId Url) (url : Url) (e : FetchEvent OpId Url) :
    FetchNetwork OpId Url :=
  net.update url ((net.nodes url).advance e) ((net.nodes url).requestSent e)

def answer (net : FetchNetwork OpId Url) (url : Url) (a : IncomingRequestAnswer) :
    FetchNetwork OpId Url :=
  net.update url ((net.nodes url).answer a) ((net.nodes url).responseSent a)

def deliver (net : FetchNetwork OpId Url) (i : Nat) : FetchNetwork OpId Url :=
  match net.packets[i]? with
  | none => net
  | some p =>
      { nodes := Function.update net.nodes p.target
          ((net.nodes p.target).recvModuleMsg p.source p.message)
        packets := net.packets.eraseIdx i }

def author (net : FetchNetwork OpId Url) (url : Url) (op : Op OpId) : FetchNetwork OpId Url :=
  net.update url { net.nodes url with ops := insertOp (net.nodes url).ops op.opId op.data } none

def step (net : FetchNetwork OpId Url) : NetworkEvent OpId Url → FetchNetwork OpId Url
  | .advance _ (.respond _ _) => net
  | .advance url e => net.advance url e
  | .answer url a => net.answer url a
  | .deliver i => net.deliver i
  | .lose i => { net with packets := net.packets.eraseIdx i }
  | .author url op => net.author url op

/-! ## What a step does to a node -/

/-- A node is as it was, or one of the node's steps was the event. -/
inductive NodeStep (e : NetworkEvent OpId Url) (url : Url) (n : FetchNode OpId Url) :
    FetchNode OpId Url → Prop where
  | same : NodeStep e url n n
  | advance {f : FetchEvent OpId Url} (he : e = .advance url f) : NodeStep e url n (n.advance f)
  | answer {a : IncomingRequestAnswer} (he : e = .answer url a) : NodeStep e url n (n.answer a)
  | received (source : Url) (message : FetchMessage OpId) :
      NodeStep e url n (n.recvModuleMsg source message)
  | authored {op : Op OpId} (he : e = .author url op) :
      NodeStep e url n { n with ops := insertOp n.ops op.opId op.data }

omit [DecidableEq OpId] in
theorem nodes_update_self (net : FetchNetwork OpId Url) (url : Url) (n : FetchNode OpId Url)
    (sent : Option (Url × FetchMessage OpId)) : (net.update url n sent).nodes url = n :=
  Function.update_self _ _ _

omit [DecidableEq OpId] in
theorem nodes_update_of_ne {net : FetchNetwork OpId Url} {url m : Url} (hne : m ≠ url)
    (n : FetchNode OpId Url) (sent : Option (Url × FetchMessage OpId)) :
    (net.update url n sent).nodes m = net.nodes m :=
  Function.update_of_ne hne _ _

theorem nodeStep_update {net : FetchNetwork OpId Url} {e : NetworkEvent OpId Url} {url : Url}
    {n : FetchNode OpId Url} (h : NodeStep e url (net.nodes url) n)
    (sent : Option (Url × FetchMessage OpId)) (m : Url) :
    NodeStep e m (net.nodes m) ((net.update url n sent).nodes m) := by
  by_cases hm : m = url
  · rw [hm, nodes_update_self]
    exact h
  · rw [nodes_update_of_ne hm]
    exact .same

theorem nodeStep (net : FetchNetwork OpId Url) (e : NetworkEvent OpId Url) (m : Url) :
    NodeStep e m (net.nodes m) ((net.step e).nodes m) := by
  cases e with
  | advance url e =>
      cases e with
      | respond ops source => exact .same
      | _ => exact nodeStep_update (.advance rfl) _ m
  | answer url a => exact nodeStep_update (.answer rfl) _ m
  | deliver i =>
      simp only [step, deliver]
      split
      · exact .same
      · rename_i p hp
        by_cases hm : m = p.target
        · rw [hm]
          dsimp only
          rw [Function.update_self]
          exact .received _ _
        · dsimp only
          rw [Function.update_of_ne hm]
          exact .same
  | lose i => exact .same
  | author url op => exact nodeStep_update (.authored rfl) _ m

/-- A stored op stays as it is. -/
theorem lookup_ops_step {net : FetchNetwork OpId Url} {m : Url} {opId : OpId} {data : Bytes}
    (h : (net.nodes m).ops.lookup opId = some data) (e : NetworkEvent OpId Url) :
    ((net.step e).nodes m).ops.lookup opId = some data := by
  have hstep := nodeStep net e m
  generalize (net.step e).nodes m = n at hstep
  cases hstep with
  | same => exact h
  | advance he => exact FetchNode.lookup_opsAfter h _
  | answer he =>
      rw [(FetchNode.answer_same _ _).2]
      exact h
  | received source message =>
      rw [(FetchNode.recvModuleMsg_same _ _ _).1]
      exact h
  | authored he => exact lookup_insertOp h _ _

theorem lookup_ops_run {net : FetchNetwork OpId Url} {m : Url} {opId : OpId} {data : Bytes}
    (h : (net.nodes m).ops.lookup opId = some data) (events : List (NetworkEvent OpId Url)) :
    ((events.foldl step net).nodes m).ops.lookup opId = some data := by
  induction events generalizing net with
  | nil => exact h
  | cons e events ih => exact ih (lookup_ops_step h e)

theorem mem_ops_step {net : FetchNetwork OpId Url} {m : Url} {opId : OpId}
    (h : opId ∈ (net.nodes m).ops) (e : NetworkEvent OpId Url) :
    opId ∈ ((net.step e).nodes m).ops := by
  rcases Option.isSome_iff_exists.mp (AList.lookup_isSome.mpr h) with ⟨data, hdata⟩
  exact AList.lookup_isSome.mp (Option.isSome_iff_exists.mpr ⟨data, lookup_ops_step hdata e⟩)

/-! ## Two nodes -/

/-- Two nodes of which one has an op. -/
def oneHasOp : Bool → UInt8 × AList fun _ : Nat => Bytes
  | false => (1, AList.singleton 7 [1, 2, 3])
  | true => (1, ∅)

/-- The steps in which the other node fetches the op, after its call of `request_ops`. -/
def fetchOp : List (NetworkEvent Nat Bool) :=
  [.advance true (.filtered 0 (some [7])), .advance true (.queue 0), .advance true (.queue 0),
    .advance true (.advanceTask 0 (.upgraded true)),
    .advance true (.advanceTask 0 (.unresponsive none)), .advance true (.advanceTask 0 .locked),
    .advance true (.advanceTask 0 (.sent true)), .deliver 0, .answer false (.upgraded true),
    .answer false (.retrieved true), .answer false (.sent true), .deliver 0,
    .advance true .receiveResponse, .advance true (.processed (some [7]))]

end FetchNetwork

end Core
end Kitsune2
