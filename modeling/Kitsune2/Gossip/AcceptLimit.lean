import Kitsune2.Gossip.Tasks

/-!
# AcceptLimit — how many rounds are accepted at a time

A task that passes the check of the limit creates its round later.  The limit is kept by every run
in which that check is made in turn: not while other tasks that have passed it could still fill what
is left.  A run where two tasks pass the check before either creates its round goes over the limit.
-/

namespace Kitsune2
namespace Gossip

open Api Lib Dht

variable {Url : Type} [DecidableEq Url] {loc : LocCb} {host : Host} {recorded : Bool} {peer : Url}
  {g g' : K2Gossip Url}

/-! ## One step -/

/-- The number of rounds that are accepted. -/
def K2Gossip.acceptedCount (g : K2Gossip Url) : Nat :=
  g.acceptedRoundStates.entries.length

/-- The number of tasks that have passed the check of the limit and not yet created a round. -/
def Running.admittedCount (s : Running Url) : Nat :=
  s.tasks.countP Task.isAdmitted

/-- Only a task that has passed the check adds a round. -/
theorem advance_size (t : Task Url) :
    (t.advance loc host recorded g).2.config = g.config ∧
      (t.advance loc host recorded g).2.acceptedCount ≤
        g.acceptedCount + t.isAdmitted.toNat := by
  by_cases ht : ∃ p seen, t = .writing p seen
  · rcases ht with ⟨p, seen, rfl⟩
    cases hcall : host.call .incrCompletedRounds with
    | ok u =>
        rw [show (Task.writing p seen).advance loc host recorded g = _ from
          Task.next_ok (putMeta_ok hcall)]
        exact ⟨rfl, le_refl _⟩
    | error fault =>
        rw [show (Task.writing p seen).advance loc host recorded g = _ from
          Task.next_error (putMeta_error hcall)]
        have hwithin : Within 0 g (g.recordError recorded p (.k2 fault)) :=
          recordError_within recorded (.k2 fault)
        exact ⟨hwithin.config, hwithin.size⟩
  · have hwithin : Within t.isAdmitted.toNat g (t.advance loc host recorded g).2 :=
      Task.advance_within fun p seen h => ht ⟨p, seen, h⟩
    exact ⟨hwithin.config, hwithin.size⟩

omit [DecidableEq Url] in
theorem isBusy_congr (hconfig : g'.config = g.config)
    (haccepted : g'.acceptedRoundStates = g.acceptedRoundStates) : g'.isBusy = g.isBusy := by
  unfold K2Gossip.isBusy
  rw [hconfig, haccepted]

theorem not_isBusy_of_refuseIfBusy {m : InitiateMessage}
    (h : refuseIfBusy host peer m g = (.ok none, g')) : g.isBusy = false := by
  have h : Returns (refuseIfBusy host peer m) g none g' := h
  unfold refuseIfBusy at h
  rcases returns_bind_iff.mp h with ⟨_, g₁, hrecord, h⟩
  rw [returns_read_bind_iff] at h
  have hnow := (isCall_recordDhtOpCount _ g _ g₁ hrecord).1
  rw [← isBusy_congr hnow.config hnow.accepted]
  split at h
  · cases (returns_pure_iff.mp h).1
  · rename_i hbusy
    exact Bool.eq_false_iff.mpr hbusy

/-- A task passes the check only where the node is not busy. -/
theorem advance_admitted {t : Task Url}
    (h : (t.advance loc host recorded g).1.isAdmitted = true) :
    ∃ peer m, t = .rated peer m ∧ g.isBusy = false := by
  -- a part that goes on to something else than an admitted task admits nothing
  have hnext : ∀ {α : Type} {peer : Url} {part : GossipM Url α}
      {goesOn : α → K2Gossip Url → Task Url},
      (∀ a g', (goesOn a g').isAdmitted = false) →
      (Task.next recorded peer g part goesOn).1.isAdmitted = false := by
    intro α peer part goesOn hgoes
    rcases Task.next_cases part goesOn with hdone | ⟨a, g', _, hnext⟩
    · rw [hdone]
      rfl
    · rw [hnext]
      exact hgoes a g'
  have hnot : ∀ {t' : Task Url}, t'.isAdmitted = true → t'.isAdmitted = false → False :=
    fun htrue hfalse => Bool.noConfusion (htrue.symm.trans hfalse)
  cases t with
  -- the one part that admits, and only when the length check passed
  | rated peer m =>
      refine ⟨peer, m, rfl, ?_⟩
      rcases Task.next_cases (refuseIfBusy host peer m)
        (fun busy _ => if busy.isSome then .answered peer busy false else .admitted peer m) with
        hdone | ⟨busy, g', hrun, hnext⟩
      · exact (hnot h (congrArg Task.isAdmitted hdone)).elim
      · cases busy with
        | none => exact not_isBusy_of_refuseIfBusy hrun
        | some busy => exact (hnot h (congrArg (fun n => n.1.isAdmitted) hnext)).elim
  | received peer msg =>
      cases hopens : msg.opens with
      | zero =>
          rw [Task.advance_received hopens] at h
          exact (hnot h (hnext fun _ _ => rfl)).elim
      | succ n =>
          cases msg with
          | initiate m =>
              refine (hnot h (hnext fun ok _ => ?_)).elim
              cases ok with
              | true => rfl
              | false => rfl
          | _ => cases hopens
  | admitted peer m => exact (hnot h (hnext fun _ _ => rfl)).elim
  | answered peer res finished =>
      refine (hnot h (hnext fun _ _ => ?_)).elim
      split
      · rfl
      · rfl
  | counting peer => exact (hnot h (hnext fun _ _ => rfl)).elim
  | writing peer seen => exact (hnot h (hnext fun _ _ => rfl)).elim
  | done => cases h

/-! ## Runs -/

namespace Running

/-- The check of the limit is made in turn: if it passes, there is room for the tasks that have
passed it before, too. -/
def CheckedInTurn (s : Running Url) : Event Url → Prop
  | .advance i _ _ => ∀ peer m, s.tasks[i]? = some (.rated peer m) → s.g.isBusy = false →
      s.g.acceptedCount + s.admittedCount < s.g.config.maxConcurrentAcceptedRounds
  | _ => True

/-- What keeps a node within its limit. -/
structure WithinLimit (limit : Nat) (s : Running Url) : Prop where
  config : s.g.config.maxConcurrentAcceptedRounds = limit
  room : s.g.acceptedCount + s.admittedCount ≤ limit

theorem step_withinLimit {limit : Nat} {s : Running Url} {e : Event Url}
    (h : s.WithinLimit limit) (hturn : s.CheckedInTurn e) : (step loc s e).WithinLimit limit := by
  have hwithin : ∀ {g' : K2Gossip Url}, Within 0 s.g g' → WithinLimit limit { s with g := g' } := by
    intro g' hg
    exact ⟨hg.config ▸ h.config, le_trans (Nat.add_le_add_right hg.size _) h.room⟩
  cases e with
  | receive peer msg =>
      have hcount : (step loc s (.receive peer msg)).admittedCount = s.admittedCount := by
        unfold admittedCount step
        rw [List.countP_append]
        rfl
      exact ⟨h.config, hcount ▸ h.room⟩
  | initiate host sessionId tieBreaker target => exact hwithin (Within.of_holding initiateGossip_holding)
  | timeout host locked => exact hwithin (removeTimedOutRounds_within locked)
  | advance i host recorded =>
      unfold step
      dsimp only
      cases ht : s.tasks[i]? with
      | none => exact h
      | some t =>
          have hadvance : (t.advance loc host recorded s.g).2.config = s.g.config ∧
              (t.advance loc host recorded s.g).2.acceptedCount ≤
                s.g.acceptedCount + t.isAdmitted.toNat := advance_size t
          rcases hadvance with ⟨hconfig, hsize⟩
          have hcount : (s.tasks.set i (t.advance loc host recorded s.g).1).countP Task.isAdmitted +
              t.isAdmitted.toNat = s.admittedCount +
                (t.advance loc host recorded s.g).1.isAdmitted.toNat := countP_set_add ht
          have hroom := h.room
          refine ⟨hconfig ▸ h.config, ?_⟩
          unfold admittedCount at hcount hroom ⊢
          dsimp only
          cases hadm : (t.advance loc host recorded s.g).1.isAdmitted with
          | false =>
              rw [hadm, Bool.toNat_false] at hcount
              omega
          | true =>
              -- the task passes the check now, and there was room for one more
              rcases advance_admitted hadm with ⟨peer, m, rfl, hbusy⟩
              have hlt := hturn peer m ht hbusy
              rw [h.config] at hlt
              unfold admittedCount at hlt
              rw [hadm, Bool.toNat_true] at hcount
              have hrated : (Task.rated peer m).isAdmitted.toNat = 0 := rfl
              omega

/-- The number of accepted rounds stays within the limit in every run in which the check of the limit
is made in turn. -/
theorem accepted_within_limit (loc : LocCb) (config : K2GossipConfig) (events : List (Event Url))
    (hrun : Along (step loc) CheckedInTurn (start config) events) :
    (run loc (start config) events).g.acceptedCount ≤ config.maxConcurrentAcceptedRounds := by
  have hstart : (start config : Running Url).WithinLimit config.maxConcurrentAcceptedRounds :=
    ⟨rfl, Nat.zero_le _⟩
  have hend := hrun.invariant hstart fun _ _ h hturn => step_withinLimit h hturn
  exact le_trans (Nat.le_add_right _ _) hend.room

/-! ## One check after the other, and two at once -/

/-- One step of a task of a quiet node. -/
def quietStep (i : Nat) : Event Nat :=
  .advance i (quietHost (fun _ => 0) 1000000) true

/-- Two peers initiate; both tasks pass the check before either has created its round. -/
def crossedChecks : List (Event Nat) :=
  [.receive 1 (.initiate (quietInitiate [1] 5)), .receive 2 (.initiate (quietInitiate [2] 7)),
    quietStep 0, quietStep 1, quietStep 0, quietStep 1, quietStep 0, quietStep 1]

theorem crossedChecks_over_limit :
    ¬ (run (fun _ => 0) (start (limitedConfig 1)) crossedChecks).g.acceptedCount ≤
      (limitedConfig 1).maxConcurrentAcceptedRounds := by
  decide +kernel

/-- Two peers initiate, one after the other. -/
def orderedChecks : List (Event Nat) :=
  [.receive 1 (.initiate (quietInitiate [1] 5)), quietStep 0, quietStep 0, quietStep 0,
    .receive 2 (.initiate (quietInitiate [2] 7)), quietStep 1, quietStep 1, quietStep 1]

theorem orderedChecks_within_limit :
    (run (fun _ => 0) (start (limitedConfig 3)) orderedChecks).g.acceptedCount = 2 ∧
      (run (fun _ => 0) (start (limitedConfig 3)) orderedChecks).g.acceptedCount ≤
        (limitedConfig 3).maxConcurrentAcceptedRounds := by
  refine ⟨by decide +kernel, accepted_within_limit _ _ _ ?_⟩
  -- no more than one task is between its check and its round
  refine ⟨trivial, fun _ _ _ _ => ?_, fun _ _ _ _ => ?_, fun _ _ _ _ => ?_, trivial,
    fun _ _ _ _ => ?_, fun _ _ _ _ => ?_, fun _ _ _ _ => ?_, trivial⟩
  all_goals decide +kernel

end Running

end Gossip
end Kitsune2
