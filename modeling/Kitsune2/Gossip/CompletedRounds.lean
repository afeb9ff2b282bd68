import Kitsune2.Gossip.Tasks

/-!
# CompletedRounds — what the counter of completed rounds counts

The counter is raised whenever a handler's answer is a final one, by a read and a later write.  It is
the number of rounds that have ended through an exchange of messages in every run in which no busy
refusal and no initiate dropped by the tie-break is handled, the peer meta store takes every count,
and the counter of a peer is not read while another task has read it and is about to write it.
-/

namespace Kitsune2
namespace Gossip

open Api Lib Dht

variable {Url : Type} [DecidableEq Url] {loc : LocCb} {host : Host} {recorded : Bool} {peer : Url}
  {g g' : K2Gossip Url}

/-! ## Answers that finish no round -/

/-- An initiate of the peer ties with ours, and loses. -/
def K2Gossip.dropsInitiate (g : K2Gossip Url) (peer : Url) (initiate : InitiateMessage) : Bool :=
  match g.initiatedRoundState with
  | some state =>
      decide (state.sessionWithPeer = peer) &&
        match state.stage with
        | .initiated _ _ tieBreaker => decide (tieBreaker > initiate.tieBreaker)
        | _ => false
  | none => false

theorem checkBurst_ok {ok : Bool} (h : checkBurst host peer g = (.ok ok, g')) : ok = true := by
  have h : Returns (checkBurst host peer) g ok g' := h
  rcases returns_bind_iff.mp h with ⟨accepted, g₁, _, h⟩
  cases accepted with
  | false => exact absurd h not_returns_fail
  | true => exact (returns_pure_iff.mp h).1.symm

theorem dropsInitiate_of_rate {m : InitiateMessage}
    (h : checkPeerInitiateRate host peer m g = (.ok false, g')) : g.dropsInitiate peer m = true := by
  have h : Returns (checkPeerInitiateRate host peer m) g false g' := h
  unfold checkPeerInitiateRate at h
  rw [returns_read_bind_iff] at h
  unfold K2Gossip.dropsInitiate
  cases hinit : g.initiatedRoundState with
  | none =>
      rw [hinit] at h
      cases checkBurst_ok h
  | some state =>
      rw [hinit] at h
      dsimp only at h ⊢
      split at h
      · rename_i hpeer
        cases hstage : state.stage with
        | initiated agents arcs tieBreaker =>
            rw [hstage] at h
            dsimp only at h ⊢
            split at h
            · rename_i hlt
              simp [hpeer, hlt]
            · cases h
        | _ =>
            rw [hstage] at h
            cases h
      · cases checkBurst_ok h

theorem hasInitiated_of_busy {m : BusyMessage} {res : Option GossipMessage}
    (h : respondToBusy host peer m g = (.ok res, g')) : g.hasInitiated peer m.sessionId = true := by
  have hends : Ends (respondToBusy host peer m) g fun r _ =>
      ∀ res, r = .ok res → g.hasInitiated peer m.sessionId = true := by
    refine ends_check_bind (checkInitiated_run _) (fun _ _ _ hok => by cases hok) ?_
    intro state _ hstate hvalid
    rcases validateSession_ok hvalid with ⟨hpeer, hsession⟩
    have hinit := hasInitiated_of_some hstate hpeer hsession
    unfold Ends
    exact fun _ _ => hinit
  exact hends.of_run h res rfl

/-- Nothing about the answer is asked of an error. -/
def Answers (P : Option GossipMessage → Prop) (r : Except K2GossipError (Option GossipMessage))
    (_ : K2Gossip Url) : Prop :=
  ∀ res, r = .ok res → P res

omit [DecidableEq Url] in
theorem answers_bind {α : Type} {P : Option GossipMessage → Prop} {m : GossipM Url α}
    {f : α → GossipM Url (Option GossipMessage)} (h : ∀ a g', Ends (f a) g' (Answers P)) :
    Ends (m >>= f) g (Answers P) :=
  ends_bind (fun _ _ _ _ hok => by cases hok) fun a g' _ => h a g'

theorem acceptInitiate_open {m : InitiateMessage} :
    Ends (acceptInitiate host peer m) g (Answers fun res => isFinalMessage res = false) := by
  unfold acceptInitiate
  -- every part but the last only returns to the next
  refine answers_bind fun _ _ => answers_bind fun _ _ => answers_bind fun _ _ => ?_
  refine answers_bind fun _ _ => answers_bind fun _ _ => answers_bind fun _ _ => ?_
  refine answers_bind fun _ _ => answers_bind fun _ _ => answers_bind fun _ _ => ?_
  refine answers_bind fun _ _ => ?_
  intro res hres
  cases hres
  rfl

theorem refuseIfBusy_open {m : InitiateMessage} :
    Ends (refuseIfBusy host peer m) g
      (Answers fun res => res.isSome = true → isFinalMessage res = false) := by
  unfold refuseIfBusy
  refine answers_bind fun _ _ => answers_bind fun g₁ _ => ?_
  split
  · intro res hres
    cases hres
    exact fun _ => rfl
  · intro res hres hsome
    cases hres
    cases hsome

/-! ## One step of a task -/

namespace Task

/-- The task is counting a completed round with the peer. -/
def isCounting (peer : Url) : Task Url → Bool
  | .counting p => decide (p = peer)
  | .writing p _ => decide (p = peer)
  | _ => false

/-- The task has read the counter of the peer, and is about to write it. -/
def isWriting (peer : Url) : Task Url → Bool
  | .writing p _ => decide (p = peer)
  | _ => false

theorem isCounting_of_isWriting {t : Task Url} {peer : Url} (h : t.isWriting peer = true) :
    t.isCounting peer = true := by
  cases t with
  | writing p seen => exact h
  | _ => cases h

/-- The next step of the task counts as it should: it answers no busy refusal and no initiate that
the tie-break drops, and the peer meta store takes the count. -/
def isRegular (host : Host) (g : K2Gossip Url) : Task Url → Bool
  | .received peer (.busy m) => !g.hasInitiated peer m.sessionId
  | .received peer (.initiate m) => !g.dropsInitiate peer m
  | .counting _ => (host.call .incrCompletedRounds).isOk
  | .writing _ _ => (host.call .incrCompletedRounds).isOk
  | _ => true

/-- What is known of a task while the node is as it is. -/
def Sound (g : K2Gossip Url) : Task Url → Prop
  | .answered _ res finished => isFinalMessage res = finished
  | .writing peer seen => seen = (g.peerMeta peer).completedRounds
  | _ => True

/-- The number kept for a peer. -/
def completedCount (g : K2Gossip Url) (q : Url) : Nat :=
  (g.peerMeta q).completedRounds.getD 0

/-- A step of a task: the counter and what is still to be counted grow by what has ended. -/
structure Counts (host : Host) (g : K2Gossip Url) (t t' : Task Url) (g' : K2Gossip Url) : Prop where
  reads : ∀ p, t'.isWriting p = true → t = .counting p
  sound : t'.Sound g'
  others : ∀ q, t.isWriting q = false →
    (g'.peerMeta q).completedRounds = (g.peerMeta q).completedRounds
  count : ∀ q, completedCount g' q + (t'.isCounting q).toNat =
    completedCount g q + (t.isCounting q).toNat + if t.ends host g = some q then 1 else 0

/-- A step that counts nothing and ends no round. -/
theorem Counts.of_same {t t' : Task Url} (hreads : ∀ p, t'.isWriting p = true → t = .counting p)
    (hsound : t'.Sound g') (hcompleted : ∀ q,
      (g'.peerMeta q).completedRounds = (g.peerMeta q).completedRounds)
    (hcounting : ∀ q, t'.isCounting q = t.isCounting q) (hends : t.ends host g = none) :
    Counts host g t t' g' where
  reads := hreads
  sound := hsound
  others := fun q _ => hcompleted q
  count := by
    intro q
    unfold completedCount
    rw [hcompleted, hcounting, hends]
    rfl

/-- A step that is not counting: the task ends with an error, or goes on to one that is sound. -/
theorem counts_next {α : Type} {n : Nat} {t : Task Url} {part : GossipM Url α}
    {goesOn : α → K2Gossip Url → Task Url}
    (ht : t.advance loc host recorded g = next recorded peer g part goesOn)
    (hpart : Ends part g fun _ g' => Within n g g')
    (hgoes : ∀ a g', part g = (.ok a, g') →
      (goesOn a g').Sound g' ∧ ∀ q, (goesOn a g').isCounting q = false)
    (hcounting : ∀ q, t.isCounting q = false) (hends : t.ends host g = none) :
    Counts host g t (t.advance loc host recorded g).1 (t.advance loc host recorded g).2 := by
  have hwithin : Within n g (next recorded peer g part goesOn).2 := next_within hpart
  -- an error ends the task, and otherwise it goes on with what `part` returned
  have hcases : (next recorded peer g part goesOn).1 = .done ∨
      ∃ a g', part g = (.ok a, g') ∧ next recorded peer g part goesOn = (goesOn a g', g') :=
    next_cases part goesOn
  rw [ht]
  refine Counts.of_same ?_ ?_ hwithin.completed ?_ hends
  · intro p hp
    rcases hcases with hdone | ⟨a, g', hok, hnext⟩
    · rw [hdone] at hp
      cases hp
    · rw [hnext] at hp
      exact absurd (isCounting_of_isWriting hp) (by rw [(hgoes a g' hok).2 p]; decide)
  · rcases hcases with hdone | ⟨a, g', hok, hnext⟩
    · rw [hdone]
      trivial
    · rw [hnext]
      exact (hgoes a g' hok).1
  · intro q
    rw [hcounting]
    rcases hcases with hdone | ⟨a, g', hok, hnext⟩
    · rw [hdone]
      rfl
    · rw [hnext]
      exact (hgoes a g' hok).2 q

theorem finishedBy_of_outcome {msg : GossipMessage} {res : Option GossipMessage}
    (hfinish : msg.mayFinish = true) (h : Outcome peer msg g (.ok res) g') :
    isFinalMessage res = finishedBy peer msg g g' := by
  have hfinal := h.final res rfl hfinish
  unfold finishedBy
  rw [hfinish, Bool.true_and, Bool.eq_iff_iff, decide_eq_true_eq]
  exact hfinal

/-- A regular step of a message that opens no round. -/
theorem counts_received {msg : GossipMessage} (hopens : msg.opens = 0)
    (hregular : (Task.received peer msg).isRegular host g = true) :
    Counts host g (.received peer msg) ((Task.received peer msg).advance loc host recorded g).1
      ((Task.received peer msg).advance loc host recorded g).2 := by
  refine counts_next (advance_received hopens) (respond_within msg) ?_ (fun _ => rfl) rfl
  intro res g' hok
  refine ⟨?_, fun _ => rfl⟩
  have houtcome := (respond_outcome msg).of_run hok
  cases hmay : msg.mayFinish with
  | true => exact finishedBy_of_outcome hmay houtcome
  | false =>
      -- what is left is a busy message, and there is no round that it could refuse
      cases msg with
      | initiate m => cases hopens
      | busy m =>
          have hinit := hasInitiated_of_busy hok
          have hfree : (!g.hasInitiated peer m.sessionId) = true := hregular
          rw [hinit] at hfree
          cases hfree
      | _ => cases hmay

theorem counts_answered {res : Option GossipMessage} {finished : Bool}
    (hsound : isFinalMessage res = finished) :
    Counts host g (.answered peer res finished)
      ((Task.answered peer res finished).advance loc host recorded g).1
      ((Task.answered peer res finished).advance loc host recorded g).2 := by
  have hwithin : Within 0 g ((Task.answered peer res finished).advance loc host recorded g).2 :=
    advance_within (t := .answered peer res finished) fun _ _ h => by cases h
  have hadvance : (Task.answered peer res finished).advance loc host recorded g =
      next recorded peer g (sendAnswer host res) fun _ _ =>
        if isFinalMessage res then .counting peer else .done := rfl
  rcases hsend : sendAnswer host res g with ⟨r, g'⟩
  cases r with
  | error e =>
      -- the answer did not go out, and no round has ended
      have hdone := hadvance.trans (next_error hsend)
      have hends : (Task.answered peer res finished).ends host g = none := by
        cases finished with
        | false => rfl
        | true =>
            have : (Task.answered peer res true).ends host g =
                if (sendAnswer host res g).1.isOk then some peer else none := rfl
            rw [this, hsend]
            rfl
      refine Counts.of_same ?_ ?_ hwithin.completed ?_ hends
      · intro p hp
        rw [hdone] at hp
        cases hp
      · rw [hdone]
        trivial
      · intro q
        rw [hdone]
        rfl
  | ok u =>
      have hsent := hadvance.trans (next_ok hsend)
      cases finished with
      | false =>
          rw [hsound] at hsent
          refine Counts.of_same ?_ ?_ hwithin.completed ?_ rfl
          · intro p hp
            rw [hsent] at hp
            cases hp
          · rw [hsent]
            trivial
          · intro q
            rw [hsent]
            rfl
      | true =>
          rw [hsound] at hsent
          have hends : (Task.answered peer res true).ends host g = some peer := by
            have : (Task.answered peer res true).ends host g =
                if (sendAnswer host res g).1.isOk then some peer else none := rfl
            rw [this, hsend]
            rfl
          refine ⟨?_, ?_, fun q _ => hwithin.completed q, ?_⟩
          · intro p hp
            rw [hsent] at hp
            cases hp
          · rw [hsent]
            trivial
          · intro q
            have hcompleted := hwithin.completed q
            unfold completedCount
            rw [hcompleted, hends, hsent]
            by_cases hq : peer = q
            · simp [isCounting, hq]
            · simp [isCounting, hq]

theorem counts_counting (hcall : host.call .incrCompletedRounds = .ok ()) :
    Counts host g (.counting peer) ((Task.counting peer).advance loc host recorded g).1
      ((Task.counting peer).advance loc host recorded g).2 := by
  have hadvance : (Task.counting peer).advance loc host recorded g =
      (.writing peer (g.peerMeta peer).completedRounds, g) := next_ok (liftK2_ok hcall)
  rw [hadvance]
  refine Counts.of_same ?_ rfl (fun _ => rfl) (fun _ => rfl) rfl
  intro p hp
  rw [of_decide_eq_true hp]

theorem counts_writing {seen : Option Nat} (hcall : host.call .incrCompletedRounds = .ok ())
    (hseen : seen = (g.peerMeta peer).completedRounds) :
    Counts host g (.writing peer seen) ((Task.writing peer seen).advance loc host recorded g).1
      ((Task.writing peer seen).advance loc host recorded g).2 := by
  have hadvance : (Task.writing peer seen).advance loc host recorded g =
      (.done, g.setMeta peer fun m => { m with completedRounds := increment seen }) :=
    next_ok (putMeta_ok hcall)
  rw [hadvance]
  refine ⟨?_, trivial, ?_, ?_⟩
  · intro p hp
    cases hp
  · intro q hq
    have hne : peer ≠ q := of_decide_eq_false hq
    dsimp only
    rw [peerMeta_setMeta_of_ne _ hne.symm]
  · intro q
    unfold completedCount
    by_cases hq : q = peer
    · subst hq
      rw [peerMeta_setMeta_self, ← hseen]
      simp [isCounting, increment, ends]
    · have hne : ¬ peer = q := fun h => hq h.symm
      rw [peerMeta_setMeta_of_ne _ hq]
      simp [isCounting, ends, hne]

theorem call_of_isOk {c : HostCall} (h : (host.call c).isOk = true) : host.call c = .ok () := by
  cases hcall : host.call c with
  | ok u => rfl
  | error fault =>
      rw [hcall] at h
      cases h

/-- Every regular step of a sound task counts. -/
theorem advance_counts {t : Task Url} (hsound : t.Sound g) (hregular : t.isRegular host g = true) :
    Counts host g t (t.advance loc host recorded g).1 (t.advance loc host recorded g).2 := by
  cases t with
  | received peer msg =>
      cases hopens : msg.opens with
      | zero => exact counts_received hopens hregular
      | succ n =>
          cases msg with
          | initiate m =>
              refine counts_next (n := 0) rfl ?_ ?_ (fun _ => rfl) rfl
              · unfold Ends
                exact Within.of_holding (checkPeerInitiateRate_holding m).1
              · intro ok g' hok
                cases ok with
                | true => exact ⟨trivial, fun _ => rfl⟩
                | false =>
                    -- a dropped Initiate of a crossing would be counted although no round has
                    -- ended
                    have hdrops := dropsInitiate_of_rate hok
                    have hkeeps : (!g.dropsInitiate peer m) = true := hregular
                    rw [hdrops] at hkeeps
                    cases hkeeps
          | _ => cases hopens
  | rated peer m =>
      refine counts_next rfl (call_within (refuseIfBusy_isCall m)) ?_ (fun _ => rfl) rfl
      intro busy g' hok
      cases busy with
      | none => exact ⟨trivial, fun _ => rfl⟩
      | some msg => exact ⟨refuseIfBusy_open.of_run hok _ rfl rfl, fun _ => rfl⟩
  | admitted peer m =>
      refine counts_next (n := 1) rfl ?_ ?_ (fun _ => rfl) rfl
      · unfold Ends
        exact Within.of_outcome (acceptInitiate_outcome m Holding.self (Or.inl rfl))
      · intro res g' hok
        exact ⟨acceptInitiate_open.of_run hok _ rfl, fun _ => rfl⟩
  | answered peer res finished => exact counts_answered hsound
  | counting peer => exact counts_counting (call_of_isOk hregular)
  | writing peer seen => exact counts_writing (call_of_isOk hregular) hsound
  | done => exact Counts.of_same (fun _ hp => by cases hp) trivial (fun _ => rfl) (fun _ => rfl) rfl

end Task

/-! ## Runs -/

namespace Running

/-- The task may read the counter: no other task is about to write it. -/
def mayRead (s : Running Url) : Task Url → Bool
  | .counting peer => s.tasks.all fun t => !t.isWriting peer
  | _ => true

/-- The steps are regular, and none reads a counter that is about to be written. -/
def Orderly (s : Running Url) : Event Url → Prop
  | .advance i host _ =>
      ∀ t, s.tasks[i]? = some t → (t.isRegular host s.g && s.mayRead t) = true
  | _ => True

instance Orderly.decidable (s : Running Url) : ∀ e : Event Url, Decidable (s.Orderly e)
  | .advance i host _ =>
      decidable_of_iff ((s.tasks[i]?).all fun t => t.isRegular host s.g && s.mayRead t) (by
        rw [Option.all_eq_true]
        exact Iff.rfl)
  | .receive _ _ => .isTrue trivial
  | .initiate _ _ _ _ => .isTrue trivial
  | .timeout _ _ => .isTrue trivial

/-- The number of tasks that are counting a completed round with the peer. -/
def countingCount (s : Running Url) (peer : Url) : Nat :=
  s.tasks.countP (Task.isCounting peer)

/-- What is counted, and will be, is what has ended; every task is sound, and alone when it is about to
write a counter. -/
structure Counted (s : Running Url) : Prop where
  single : ∀ (i j : Nat) t t' p, s.tasks[i]? = some t → s.tasks[j]? = some t' →
    t.isWriting p = true → t'.isWriting p = true → i = j
  sound : ∀ t ∈ s.tasks, t.Sound s.g
  count : ∀ q, Task.completedCount s.g q + s.countingCount q = s.ended q

theorem Counted.of_within {s : Running Url} {g' : K2Gossip Url} {n : Nat} (h : s.Counted)
    (hwithin : Within n s.g g') : Counted { s with g := g' } where
  single := h.single
  sound := by
    intro t ht
    have hsound := h.sound t ht
    cases t with
    | writing p seen => exact hsound.trans (hwithin.completed p).symm
    | _ => exact hsound
  count := by
    intro q
    have hcount := h.count q
    unfold Task.completedCount at hcount ⊢
    rw [hwithin.completed q]
    exact hcount

theorem Counted.receive {s : Running Url} {msg : GossipMessage} (h : s.Counted) :
    Counted { s with tasks := s.tasks ++ [.received peer msg] } where
  single := by
    intro i j t t' p hi hj hp hp'
    rcases getElem?_concat_cases hi with hi | ⟨_, rfl⟩
    · rcases getElem?_concat_cases hj with hj | ⟨_, rfl⟩
      · exact h.single i j t t' p hi hj hp hp'
      · cases hp'
    · cases hp
  sound := by
    intro t ht
    rcases List.mem_append.mp ht with ht | ht
    · exact h.sound t ht
    · rw [List.mem_singleton.mp ht]
      trivial
  count := by
    intro q
    have hcount := h.count q
    unfold countingCount at hcount ⊢
    rw [List.countP_append]
    exact hcount

theorem countEnded_apply (ended : Url → Nat) (who : Option Url) (q : Url) :
    countEnded ended who q = ended q + if who = some q then 1 else 0 := by
  cases who with
  | none => rfl
  | some p =>
      by_cases hq : q = p
      · subst hq
        simp [countEnded]
      · have hne : ¬ p = q := fun h => hq h.symm
        simp [countEnded, hq, hne]

theorem Counted.advance {s : Running Url} {i : Nat} {t : Task Url} (h : s.Counted)
    (ht : s.tasks[i]? = some t) (hregular : t.isRegular host s.g = true)
    (hread : s.mayRead t = true) :
    Counted
      { g := (t.advance loc host recorded s.g).2
        tasks := s.tasks.set i (t.advance loc host recorded s.g).1
        ended := countEnded s.ended (t.ends host s.g) } := by
  have hcounts : Task.Counts host s.g t (t.advance loc host recorded s.g).1
      (t.advance loc host recorded s.g).2 :=
    Task.advance_counts (h.sound t (List.mem_of_getElem? ht)) hregular
  -- when the task has read a counter, nobody else was about to write it
  have halone : ∀ {j : Nat} {t' : Task Url} {p : Url}, s.tasks[j]? = some t' →
      t'.isWriting p = true → (t.advance loc host recorded s.g).1.isWriting p = false := by
    intro j t' p hj hp
    by_contra hnew
    rw [hcounts.reads p (by simpa using hnew)] at hread
    have hfree := List.all_eq_true.mp hread t' (List.mem_of_getElem? hj)
    rw [hp] at hfree
    cases hfree
  refine ⟨?_, ?_, ?_⟩
  · intro j k t₁ t₂ p hj hk hp₁ hp₂
    rcases getElem?_set_cases hj with ⟨rfl, rfl⟩ | ⟨_, hj⟩
    · rcases getElem?_set_cases hk with ⟨rfl, rfl⟩ | ⟨_, hk⟩
      · rfl
      · rw [halone hk hp₂] at hp₁
        cases hp₁
    · rcases getElem?_set_cases hk with ⟨rfl, rfl⟩ | ⟨_, hk⟩
      · rw [halone hj hp₁] at hp₂
        cases hp₂
      · exact h.single j k t₁ t₂ p hj hk hp₁ hp₂
  · intro t' ht'
    rcases List.getElem?_of_mem ht' with ⟨j, hj⟩
    rcases getElem?_set_cases hj with ⟨rfl, rfl⟩ | ⟨hij, hj⟩
    · exact hcounts.sound
    · have hsound := h.sound t' (List.mem_of_getElem? hj)
      cases t' with
      | writing p seen =>
          -- a task that writes now has another peer
          refine hsound.trans (hcounts.others p ?_).symm
          by_contra hp
          exact hij (h.single i j t _ p ht hj (by simpa using hp) (decide_eq_true rfl))
      | _ => exact hsound
  · intro q
    have hset : (s.tasks.set i (t.advance loc host recorded s.g).1).countP (Task.isCounting q) +
        (t.isCounting q).toNat = s.countingCount q +
          ((t.advance loc host recorded s.g).1.isCounting q).toNat := countP_set_add ht
    have hcount := hcounts.count q
    have hbefore := h.count q
    unfold countingCount at hset hbefore ⊢
    dsimp only
    rw [countEnded_apply]
    omega

theorem step_counted {s : Running Url} {e : Event Url} (h : s.Counted) (horderly : s.Orderly e) :
    (step loc s e).Counted := by
  cases e with
  | receive peer msg => exact h.receive
  | initiate host sessionId tieBreaker target =>
      exact h.of_within (Within.of_holding initiateGossip_holding)
  | timeout host locked => exact h.of_within (removeTimedOutRounds_within locked)
  | advance i host recorded =>
      unfold step
      dsimp only
      cases ht : s.tasks[i]? with
      | none => exact h
      | some t =>
          rcases (Bool.and_eq_true _ _).mp (horderly t ht) with ⟨hregular, hread⟩
          exact h.advance ht hregular hread

/-- Our initiate is answered with a busy message. -/
def refusedRound : List (Event Nat) :=
  let host := quietHost (fun _ => 0) 1000000
  [.initiate host [7] 3 1, .receive 1 (.busy { sessionId := [7] }), .advance 0 host true,
    .advance 0 host true, .advance 0 host true, .advance 0 host true]

/-- A peer initiates, we accept, and it terminates the round. -/
def terminatedRound : List (Event Nat) :=
  let host := quietHost (fun _ => 0) 1000000
  [.receive 1 (.initiate (quietInitiate [7] 3)), .advance 0 host true, .advance 0 host true,
    .advance 0 host true, .advance 0 host true,
    .receive 1 (.terminate { sessionId := [7], reason := "" }), .advance 1 host true,
    .advance 1 host true, .advance 1 host true, .advance 1 host true]

end Running

end Gossip
end Kitsune2
