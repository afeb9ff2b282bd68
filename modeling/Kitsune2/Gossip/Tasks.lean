import Kitsune2.Gossip.Isolation
import Kitsune2.Lib.Runs

/-!
# Tasks — messages handled side by side

Every message is handled by a task of its own, and tasks take turns where they wait.  The steps below
are those that matter to the accepted rounds and to the counter of completed rounds: the checks of an
initiate, the check of the limit, the creation of the round, sending the answer, and the two halves
of the increment.  What a handler does while it holds the lock of its round is one step.

A task that nothing comes in between is `handleGossipMessage`.
-/

namespace Kitsune2
namespace Gossip

open Api Lib Dht

variable {Url : Type} [DecidableEq Url]

/-! ## Tasks -/

/-- How far the handling of a message has come. -/
inductive Task (Url : Type)
  | received (peer : Url) (msg : GossipMessage)
  /-- An initiate that has passed the rate check. -/
  | rated (peer : Url) (initiate : InitiateMessage)
  /-- An initiate that has passed the check of the limit. -/
  | admitted (peer : Url) (initiate : InitiateMessage)
  /-- The handler has returned; `finished` says that it finished a round. -/
  | answered (peer : Url) (res : Option GossipMessage) (finished : Bool)
  /-- The completed round is to be counted. -/
  | counting (peer : Url)
  /-- The counter has been read. -/
  | writing (peer : Url) (seen : Option Nat)
  | done

namespace Task

/-- The peer whose message a task handles. -/
def peer? : Task Url → Option Url
  | .received peer _ => some peer
  | .rated peer _ => some peer
  | .admitted peer _ => some peer
  | .answered peer _ _ => some peer
  | .counting peer => some peer
  | .writing peer _ => some peer
  | .done => none

def isAdmitted : Task Url → Bool
  | .admitted _ _ => true
  | _ => false

/-- Did handling a message finish a round of its session? -/
def finishedBy (peer : Url) (msg : GossipMessage) (g g' : K2Gossip Url) : Bool :=
  msg.mayFinish && decide (g'.roundsOf peer msg.sessionId < g.roundsOf peer msg.sessionId)

section Advance

variable (loc : LocCb) (host : Host) (recorded : Bool)

/-- The next task after one part of a handler, which ends the task if it fails. -/
def next {α : Type} (peer : Url) (g : K2Gossip Url) (part : GossipM Url α)
    (goesOn : α → K2Gossip Url → Task Url) : Task Url × K2Gossip Url :=
  match part g with
  | (.ok a, g') => (goesOn a g', g')
  | (.error e, g') => (.done, g'.recordError recorded peer e)

/-- One step of a task. -/
def advance (g : K2Gossip Url) : Task Url → Task Url × K2Gossip Url
  | .received peer (.initiate m) =>
      next recorded peer g (checkPeerInitiateRate host peer m) fun ok _ =>
        if ok then .rated peer m else .answered peer none false
  | .received peer msg =>
      next recorded peer g (respond loc host peer msg) fun res g' =>
        .answered peer res (finishedBy peer msg g g')
  -- the length check and the insertion of the accepted round are two critical sections
  | .rated peer m =>
      next recorded peer g (refuseIfBusy host peer m) fun busy _ =>
        if busy.isSome then .answered peer busy false else .admitted peer m
  | .admitted peer m =>
      next recorded peer g (acceptInitiate host peer m) fun res _ => .answered peer res false
  | .answered peer res _ =>
      next recorded peer g (sendAnswer host res) fun _ _ =>
        if isFinalMessage res then .counting peer else .done
  -- the counter is read in one step and written in the next: two tasks may read the same
  | .counting peer =>
      next recorded peer g (liftK2 (host.call .incrCompletedRounds)) fun _ g' =>
        .writing peer (g'.peerMeta peer).completedRounds
  | .writing peer seen =>
      next recorded peer g
        (putMeta host .incrCompletedRounds peer fun m => { m with completedRounds := increment seen })
        fun _ _ => .done
  | .done => (.done, g)

/-- The peer with whom a step of a task ends a round: the handler has finished one, and the answer
is out. -/
def ends (g : K2Gossip Url) : Task Url → Option Url
  | .answered peer res true => if (sendAnswer host res g).1.isOk then some peer else none
  | _ => none

end Advance

end Task

/-! ## A running node -/

/-- A node with its tasks, and the number of rounds that have ended with each peer through an
exchange of messages. -/
structure Running (Url : Type) where
  g : K2Gossip Url
  tasks : List (Task Url)
  ended : Url → Nat

inductive Event (Url : Type)
  | receive (peer : Url) (msg : GossipMessage)
  | advance (task : Nat) (host : Host) (recorded : Bool)
  | initiate (host : Host) (sessionId : Bytes) (tieBreaker : Nat) (target : Url)
  | timeout (host : Host) (locked : Url → Bool)

namespace Running

/-- One more round has ended, if there is a peer. -/
def countEnded (ended : Url → Nat) : Option Url → Url → Nat
  | some peer => Function.update ended peer (ended peer + 1)
  | none => ended

def step (loc : LocCb) (s : Running Url) : Event Url → Running Url
  | .receive peer msg => { s with tasks := s.tasks ++ [.received peer msg] }
  | .advance i host recorded =>
      match s.tasks[i]? with
      | none => s
      | some t =>
          { g := (t.advance loc host recorded s.g).2
            tasks := s.tasks.set i (t.advance loc host recorded s.g).1
            ended := countEnded s.ended (t.ends host s.g) }
  | .initiate host sessionId tieBreaker target =>
      { s with g := (initiateGossip host sessionId tieBreaker target s.g).2 }
  | .timeout host locked => { s with g := removeTimedOutRounds host locked s.g }

/-- The node after a run. -/
def run (loc : LocCb) (s : Running Url) (events : List (Event Url)) : Running Url :=
  events.foldl (step loc) s

/-- A node that has not gossiped yet. -/
def start (config : K2GossipConfig) : Running Url :=
  { g :=
      { config, initiatedRoundState := none, acceptedRoundStates := ∅
        peerMeta := fun _ => .empty, burst := fun _ => [], requestedOps := [] }
    tasks := []
    ended := fun _ => 0 }

end Running

/-! ## What steps leave alone -/

/-- The configuration and the counters of completed rounds are the same, and at most `n` rounds were
accepted. -/
structure Within (n : Nat) (g g' : K2Gossip Url) : Prop where
  config : g'.config = g.config
  size : g'.acceptedRoundStates.entries.length ≤ g.acceptedRoundStates.entries.length + n
  completed : ∀ q, (g'.peerMeta q).completedRounds = (g.peerMeta q).completedRounds

section Within

variable {n : Nat} {peer : Url} {g g' g₁ g₂ : K2Gossip Url}

omit [DecidableEq Url] in
theorem Within.refl : Within 0 g g :=
  ⟨rfl, le_refl _, fun _ => rfl⟩

omit [DecidableEq Url] in
theorem Within.trans (h : Within n g g₁) (h' : Within 0 g₁ g₂) : Within n g g₂ :=
  ⟨h'.config.trans h.config, le_trans h'.size h.size,
    fun q => (h'.completed q).trans (h.completed q)⟩

theorem completed_of_values (hothers : ∀ q, q ≠ peer → g'.valuesOf q = g.valuesOf q)
    (hpeer : (g'.peerMeta peer).completedRounds = (g.peerMeta peer).completedRounds) (q : Url) :
    (g'.peerMeta q).completedRounds = (g.peerMeta q).completedRounds := by
  by_cases hq : q = peer
  · rw [hq]
    exact hpeer
  · exact congrArg PeerMeta.completedRounds (Prod.mk.inj (hothers q hq)).1

theorem Within.of_holding {initiated : Option (GossipRoundState Url)}
    (h : Holding peer g initiated g.acceptedRoundStates g') : Within 0 g g' where
  config := h.config
  size := by
    rw [h.accepted]
    exact le_refl _
  completed := completed_of_values h.others h.completed

theorem Within.of_outcome {msg : GossipMessage} {r : Except K2GossipError (Option GossipMessage)}
    (h : Outcome peer msg g r g') : Within msg.opens g g' :=
  ⟨h.frame.config, h.size, completed_of_values h.frame.others h.completed⟩

/-- A write to another value of the peer meta store. -/
theorem Within.setMeta {f : PeerMeta → PeerMeta}
    (hf : ∀ m, (f m).completedRounds = m.completedRounds) : Within 0 g (g.setMeta peer f) :=
  Within.of_holding (isCall_setMeta hf g _ _ rfl).1

theorem recordError_within (recorded : Bool) (e : K2GossipError) :
    Within 0 g (g.recordError recorded peer e) := by
  unfold K2Gossip.recordError
  split
  · exact Within.refl
  · cases e with
    | peerBehavior ctx => exact Within.setMeta fun _ => rfl
    | k2 fault => exact Within.setMeta fun _ => rfl

end Within

/-! ## The node's own tasks -/

section Own

variable {host : Host} {target : Url} {g : K2Gossip Url}

/-- Initiating gossip works on the initiated round only. -/
theorem initiateGossip_holding {sessionId : Bytes} {tieBreaker : Nat} :
    Ends (initiateGossip host sessionId tieBreaker target) g fun _ g' =>
      Holding target g g'.initiatedRoundState g.acceptedRoundStates g' := by
  have hsame : ∀ {g₁ : K2Gossip Url},
      Holding target g g.initiatedRoundState g.acceptedRoundStates g₁ →
      Holding target g g₁.initiatedRoundState g.acceptedRoundStates g₁ :=
    fun h => h.initiated ▸ h
  unfold initiateGossip
  rw [ends_read_bind_iff]
  split
  · exact Holding.self
  refine ends_liftK2_bind (fun _ _ => Holding.self) ?_
  rintro ⟨ourAgents, ourArcSet⟩ _
  refine ends_call_bind (isCall_getRequestNewSince _) Holding.self (fun _ _ h => hsame h) ?_
  intro newSince g₁ _ hnow
  dsimp only
  split
  · exact hsame hnow
  refine ends_call_bind (isCall_setLastGossipTimestamp _) hnow (fun _ _ h => hsame h) ?_
  intro _ g₂ _ hnow
  refine ends_liftK2_bind (fun _ _ => hsame hnow) ?_
  intro _ _
  exact hnow.setInitiated _

theorem incrPeerTimeout_within (peer : Url) : Within 0 g (incrPeerTimeout host peer g) := by
  unfold incrPeerTimeout
  split
  · exact Within.setMeta fun _ => rfl
  · exact Within.refl

theorem foldl_incrPeerTimeout (urls : List Url) :
    ∀ g : K2Gossip Url, Within 0 g (urls.foldl (fun g url => incrPeerTimeout host url g) g) := by
  induction urls with
  | nil =>
      intro g
      exact Within.refl
  | cons url urls ih =>
      intro g
      exact (incrPeerTimeout_within url).trans (ih _)

theorem removeTimedOutRounds_within (locked : Url → Bool) :
    Within 0 g (removeTimedOutRounds host locked g) := by
  -- the accepted rounds are those that stay, whatever was counted
  have haccepted : ∀ (g : K2Gossip Url) (urls : List Url) (stays : Url → GossipRoundState Url → Bool),
      Within 0 g ((urls.foldl (fun g url => incrPeerTimeout host url g) g).setAccepted
        (retain stays g.acceptedRoundStates)) := by
    intro g urls stays
    have hcounted : Within 0 g (urls.foldl (fun g url => incrPeerTimeout host url g) g) :=
      foldl_incrPeerTimeout urls g
    exact ⟨hcounted.config, length_retain_le _ _, hcounted.completed⟩
  unfold removeTimedOutRounds
  cases hinit : g.initiatedRoundState with
  | none => exact haccepted g _ _
  | some state =>
      dsimp only
      split
      · have hcounted : Within 0 g (incrPeerTimeout host state.sessionWithPeer g) :=
          incrPeerTimeout_within state.sessionWithPeer
        have hremoved : Within 0 g
            ((incrPeerTimeout host state.sessionWithPeer g).setInitiated none) :=
          ⟨hcounted.config, hcounted.size, hcounted.completed⟩
        exact hremoved.trans (haccepted _ _ _)
      · exact haccepted g _ _

end Own

/-! ## A task alone -/

namespace Task

variable {loc : LocCb} {host : Host} {recorded : Bool} {peer : Url} {g g' : K2Gossip Url}

theorem next_ok {α : Type} {part : GossipM Url α} {goesOn : α → K2Gossip Url → Task Url} {a : α}
    (h : part g = (.ok a, g')) : next recorded peer g part goesOn = (goesOn a g', g') := by
  unfold next
  rw [h]

theorem next_error {α : Type} {part : GossipM Url α} {goesOn : α → K2Gossip Url → Task Url}
    {e : K2GossipError} (h : part g = (.error e, g')) :
    next recorded peer g part goesOn = (.done, g'.recordError recorded peer e) := by
  unfold next
  rw [h]

/-- A part of a handler ends the task, or returns and the task goes on. -/
theorem next_cases {α : Type} (part : GossipM Url α) (goesOn : α → K2Gossip Url → Task Url) :
    (next recorded peer g part goesOn).1 = .done ∨
      ∃ a g', part g = (.ok a, g') ∧ next recorded peer g part goesOn = (goesOn a g', g') := by
  rcases hpart : part g with ⟨r, g'⟩
  cases r with
  | ok a => exact Or.inr ⟨a, g', rfl, next_ok hpart⟩
  | error e =>
      rw [next_error hpart]
      exact Or.inl rfl

/-- A message that opens no round is handled in one step. -/
theorem advance_received {msg : GossipMessage} (hmsg : msg.opens = 0) :
    (Task.received peer msg).advance loc host recorded g =
      next recorded peer g (respond loc host peer msg) fun res g' =>
        .answered peer res (finishedBy peer msg g g') := by
  cases msg with
  | initiate m => cases hmsg
  | _ => rfl

/-- A part of a handler keeps to its bounds, also when it fails. -/
theorem next_within {α : Type} {n : Nat} {part : GossipM Url α}
    {goesOn : α → K2Gossip Url → Task Url} (h : Ends part g fun _ g' => Within n g g') :
    Within n g (next recorded peer g part goesOn).2 := by
  rcases hpart : part g with ⟨r, g'⟩
  have hwithin := h.of_run hpart
  cases r with
  | ok a =>
      rw [next_ok hpart]
      exact hwithin
  | error e =>
      rw [next_error hpart]
      exact hwithin.trans (recordError_within recorded e)

theorem call_within {α : Type} {m : GossipM Url α} (h : IsCall peer m) :
    Ends m g fun _ g' => Within 0 g g' := by
  unfold Ends
  exact Within.of_holding (h g _ _ rfl).1

theorem respond_within (msg : GossipMessage) :
    Ends (respond loc host peer msg) g fun _ g' => Within msg.opens g g' := by
  unfold Ends
  exact Within.of_outcome ((respond_outcome msg).of_run rfl)

/-- Only a task that has passed the check of the limit adds a round, and only one that writes the
counter changes it. -/
theorem advance_within {t : Task Url} (ht : ∀ p seen, t ≠ .writing p seen) :
    Within t.isAdmitted.toNat g (t.advance loc host recorded g).2 := by
  cases t with
  | received peer msg =>
      cases hopens : msg.opens with
      | zero =>
          have hnone : (Task.received peer msg).isAdmitted.toNat = msg.opens := hopens.symm
          rw [advance_received hopens, hnone]
          exact next_within (respond_within msg)
      | succ n =>
          cases msg with
          | initiate m =>
              refine next_within ?_
              unfold Ends
              exact Within.of_holding (checkPeerInitiateRate_holding m).1
          | _ => cases hopens
  | rated peer m => exact next_within (call_within (refuseIfBusy_isCall m))
  | admitted peer m =>
      refine next_within ?_
      unfold Ends
      exact Within.of_outcome (acceptInitiate_outcome m Holding.self (Or.inl rfl))
  | answered peer res finished =>
      have hcall : IsCall peer (sendAnswer host res) := isCall_sendAnswer
      exact next_within (call_within hcall)
  | counting peer =>
      have hcall : IsCall peer (liftK2 (host.call .incrCompletedRounds)) := isCall_liftK2 _
      exact next_within (call_within hcall)
  | writing peer seen => exact absurd rfl (ht peer seen)
  | done => exact Within.refl

/-- A task that makes `n` steps with nothing in between. -/
def alone (loc : LocCb) (host : Host) (recorded : Bool) : Nat → Task Url → K2Gossip Url →
    Task Url × K2Gossip Url
  | 0, t, g => (t, g)
  | n + 1, t, g => alone loc host recorded n (t.advance loc host recorded g).1
      (t.advance loc host recorded g).2

theorem alone_done (n : Nat) : alone loc host recorded n .done g = (.done, g) := by
  induction n with
  | zero => rfl
  | succ n ih => exact ih

/-- The node that a handler leaves, with its error counted. -/
def settle {α : Type} (recorded : Bool) (peer : Url) (m : GossipM Url α) (g : K2Gossip Url) :
    K2Gossip Url :=
  match m g with
  | (.ok _, g') => g'
  | (.error e, g') => g'.recordError recorded peer e

/-- One part of a handler, and then the rest of it. -/
theorem alone_next {α β : Type} {t : Task Url} {n : Nat} {part : GossipM Url α}
    {goesOn : α → K2Gossip Url → Task Url} {f : α → GossipM Url β}
    (ht : t.advance loc host recorded g = next recorded peer g part goesOn)
    (hrest : ∀ a g', part g = (.ok a, g') →
      alone loc host recorded n (goesOn a g') g' = (.done, settle recorded peer (f a) g')) :
    alone loc host recorded (n + 1) t g = (.done, settle recorded peer (part >>= f) g) := by
  have hstep : alone loc host recorded (n + 1) t g =
      alone loc host recorded n (next recorded peer g part goesOn).1
        (next recorded peer g part goesOn).2 := by
    rw [← ht]
    rfl
  -- the whole handler does `part` first and settles an error of it the same way
  have hbind : settle recorded peer (part >>= f) g =
      match part g with
      | (.ok a, g') => settle recorded peer (f a) g'
      | (.error e, g') => g'.recordError recorded peer e := by
    unfold settle
    rw [bind_run]
    rcases part g with ⟨r, g'⟩
    cases r with
    | ok a => rfl
    | error e => rfl
  rw [hstep, hbind]
  rcases hpart : part g with ⟨r, g'⟩
  cases r with
  | ok a =>
      rw [next_ok hpart]
      exact hrest a g' hpart
  | error e =>
      rw [next_error hpart]
      exact alone_done n

theorem alone_counting (n : Nat) :
    alone loc host recorded (n + 2) (.counting peer) g =
      (.done, settle recorded peer (incrCompletedRounds host peer) g) := by
  -- the counter is still what it was when it was read
  refine alone_next (t := .counting peer) rfl ?_
  intro _ g' hread
  rcases liftK2_run hread with ⟨hcall, rfl⟩
  have hstep : (Task.writing peer (g'.peerMeta peer).completedRounds).advance loc host recorded g' =
      (.done, g'.setMeta peer fun m =>
        { m with completedRounds := increment (g'.peerMeta peer).completedRounds }) :=
    next_ok (putMeta_ok hcall)
  have halone : alone loc host recorded (n + 1) (.writing peer (g'.peerMeta peer).completedRounds) g' =
      alone loc host recorded n .done (g'.setMeta peer fun m =>
        { m with completedRounds := increment (g'.peerMeta peer).completedRounds }) := by
    rw [alone, hstep]
  rw [halone, alone_done]
  rfl

theorem alone_answered (n : Nat) (res : Option GossipMessage) (finished : Bool) :
    alone loc host recorded (n + 3) (.answered peer res finished) g =
      (.done, settle recorded peer (do
        sendAnswer host res
        countIfFinal host peer res
        pure res) g) := by
  refine alone_next (t := .answered peer res finished) rfl ?_
  intro _ g' _
  unfold countIfFinal
  cases hfinal : isFinalMessage res with
  | false => exact alone_done (n + 2)
  | true =>
      have hpure : settle recorded peer (do
          incrCompletedRounds host peer
          pure res) g' = settle recorded peer (incrCompletedRounds host peer) g' := by
        unfold settle
        rw [bind_run]
        rcases incrCompletedRounds host peer g' with ⟨r, g₂⟩
        cases r with
        | ok u => rfl
        | error e => rfl
      exact (alone_counting n).trans (congrArg (Prod.mk _) hpure.symm)

/-- With nothing in between, a task handles its message as `handleGossipMessage` does. -/
theorem alone_handles (peer : Url) (msg : GossipMessage) (g : K2Gossip Url) :
    alone loc host recorded 6 (.received peer msg) g =
      (.done, (handleGossipMessage loc host recorded peer msg g).1) := by
  have hsettle : (handleGossipMessage loc host recorded peer msg g).1 =
      settle recorded peer (respondToMsg loc host peer msg) g := by
    unfold handleGossipMessage settle
    rcases respondToMsg loc host peer msg g with ⟨r, g'⟩
    cases r with
    | ok res => rfl
    | error e => rfl
  have hother : msg.opens = 0 → alone loc host recorded (2 + 4) (.received peer msg) g =
      (.done, settle recorded peer (respondToMsg loc host peer msg) g) :=
    fun hmsg => alone_next (advance_received hmsg) fun res _ _ => alone_answered 2 res _
  rw [hsettle]
  cases msg with
  | initiate m =>
      -- the handler of an initiate, part by part
      unfold respondToMsg respond respondToInitiate
      rw [bind_assoc]
      refine alone_next (t := .received peer (.initiate m)) rfl ?_
      intro ok g₁ _
      cases ok with
      | false => exact alone_answered 2 none false
      | true =>
          rw [if_neg (show ¬ (!true) = true by decide), bind_assoc]
          refine alone_next (t := .rated peer m) rfl ?_
          intro busy g₂ _
          cases busy with
          | some msg => exact alone_answered 1 (some msg) false
          | none =>
              exact alone_next (t := .admitted peer m) rfl fun res _ _ => alone_answered 0 res false
  | _ => exact hother rfl

end Task

/-! ## A quiet node -/

/-- The host of a node without agents, whose stores are empty and take everything. -/
def quietHost (loc : LocCb) (now : Int) : Host where
  now := now
  instant := 0
  localAgents := .ok []
  peerStoreGet := fun _ => .ok none
  peerStoreInsert := fun _ => .ok ()
  retrieveOpIdsBounded := fun _ _ _ => .ok ([], 0, now)
  dht :=
    match DhtState.tryFromStore loc now OpStore.empty with
    | .ok dht => dht
    | .error _ =>
        { partition := { size := sectorSize, sectors := [] }, store := OpStore.empty, opCount := 0 }
  call := fun _ => .ok ()

/-- What a node without agents sends to initiate. -/
def quietInitiate (sessionId : Bytes) (tieBreaker : Nat) : InitiateMessage where
  sessionId := sessionId
  participatingAgents := []
  arcSet := some ArcSet.empty.encode
  tieBreaker := tieBreaker
  newSince := 0
  maxOpDataBytes := 1000
  dhtOpCount := some 0

/-- The default configuration, but for the limit of accepted rounds. -/
def limitedConfig (limit : Nat) : K2GossipConfig where
  maxGossipOpBytes := 100 * 1024 * 1024
  maxRequestGossipOpBytes := 100 * 1024 * 1024
  initiateIntervalMs := 120000
  initiateBurstFactor := 3
  initiateBurstWindowCount := 5
  roundTimeoutMs := 15000
  maxConcurrentAcceptedRounds := limit

end Gossip
end Kitsune2
