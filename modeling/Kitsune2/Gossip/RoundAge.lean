import Kitsune2.Gossip.RoundClosure
import Kitsune2.Gossip.StartTimes

/-!
# RoundAge — how long a slot can be occupied

The timeout task drops every round that has been running for too long, and a round cannot be started
anew while it runs.  So the slot of a round is free again after the timeout and the time between two
sweeps.
-/

namespace Kitsune2
namespace Gossip

open Api Lib Dht

variable {Url : Type} [DecidableEq Url] {loc : LocCb}

/-! ## Runs -/

/-- Does the timeout task look at the slot?  It passes over an accepted round that is locked. -/
def Event.sweeps (slot : Slot Url) : Event Url → Bool
  | .timeout _ locked =>
      match slot with
      | .initiated => true
      | .accepted peer => !locked peer
  | _ => false

/-- A running node with the time, and the time at which the slot was swept last. -/
structure Watched (Url : Type) where
  node : Running Url
  clock : Nat
  sweep : Nat

namespace Watched

variable {slot : Slot Url} {period limit : Nat} {s : Watched Url} {e : Event Url}

def start (config : K2GossipConfig) (clock : Nat) : Watched Url :=
  { node := .start config, clock := clock, sweep := clock }

def step (loc : LocCb) (slot : Slot Url) (s : Watched Url) (e : Event Url) : Watched Url :=
  { node := s.node.step loc e
    clock := e.instant s.clock
    sweep := if e.sweeps slot then e.instant s.clock else s.sweep }

/-- The clock does not go backwards, and the slot is swept once in a period. -/
def Swept (period : Nat) (s : Watched Url) (e : Event Url) : Prop :=
  s.clock ≤ e.instant s.clock ∧ e.instant s.clock ≤ s.sweep + period

instance (period : Nat) (s : Watched Url) (e : Event Url) : Decidable (Swept period s e) :=
  inferInstanceAs (Decidable (_ ∧ _))

/-- The round in the slot was still running in time when the slot was swept last. -/
structure Aged (slot : Slot Url) (limit : Nat) (s : Watched Url) : Prop where
  timeout : 1000 * s.node.g.config.roundTimeoutMs = limit
  sweep : s.sweep ≤ s.clock
  round : ∀ state ∈ s.node.g.inSlot slot,
    s.sweep ≤ state.startedAt + limit ∧ state.startedAt ≤ s.clock

/-- A sweep drops the round in the slot, or finds it in time. -/
theorem in_time_of_sweeps {state : GossipRoundState Url} (hsweeps : e.sweeps slot = true)
    (hstate : state ∈ (s.node.step loc e).g.inSlot slot) :
    e.instant s.clock ≤ state.startedAt + 1000 * s.node.g.config.roundTimeoutMs := by
  cases e with
  | timeout host locked =>
      rcases removeTimedOutRounds_left host locked s.node.g with ⟨hinitiated, haccepted⟩
      have htime : timedOut host s.node.g.config state = false := by
        cases slot with
        | initiated =>
            have hleft : (removeTimedOutRounds host locked s.node.g).initiatedRoundState =
                some state := hstate
            rw [hinitiated] at hleft
            simpa using (Option.filter_eq_some_iff.mp hleft).2
        | accepted peer =>
            have hunlocked : locked peer = false := by simpa [Event.sweeps] using hsweeps
            have hleft : (removeTimedOutRounds host locked s.node.g).acceptedRoundStates.lookup peer =
                some state := hstate
            rw [haccepted] at hleft
            have hstays := (lookup_retain_eq_some_iff.mp hleft).2
            rw [hunlocked, Bool.false_or] at hstays
            simpa using hstays
      unfold timedOut at htime
      have hin := of_decide_eq_false htime
      show host.instant ≤ _
      omega
  | _ => cases hsweeps

theorem Aged.step (h : Aged slot limit s) (hswept : Swept period s e) :
    Aged slot limit (s.step loc slot e) := by
  have hsweep := h.sweep
  refine ⟨?_, ?_, ?_⟩
  · show 1000 * (s.node.step loc e).g.config.roundTimeoutMs = limit
    rw [step_config]
    exact h.timeout
  · show (if e.sweeps slot then e.instant s.clock else s.sweep) ≤ e.instant s.clock
    split
    · exact le_refl _
    · exact le_trans hsweep hswept.1
  intro state hstate
  have hcontinues := step_continues s.node e s.clock slot state hstate
  show (if e.sweeps slot then e.instant s.clock else s.sweep) ≤ _ ∧ _ ≤ e.instant s.clock
  have hstarted : s.sweep ≤ state.startedAt + limit ∧ state.startedAt ≤ e.instant s.clock := by
    rcases hcontinues with ⟨old, hold, hsame⟩ | ⟨-, hnew⟩
    · rcases h.round old hold with ⟨hlow, hhigh⟩
      rw [hsame]
      exact ⟨hlow, le_trans hhigh hswept.1⟩
    · -- a round that is new starts after the last sweep
      rw [hnew]
      exact ⟨le_trans (le_trans hsweep hswept.1) (Nat.le_add_right _ _), le_refl _⟩
  refine ⟨?_, hstarted.2⟩
  split
  · rename_i hsweeps
    rw [← h.timeout]
    exact in_time_of_sweeps hsweeps hstate
  · exact hstarted.1

theorem aged_start (config : K2GossipConfig) (clock : Nat) :
    Aged slot (1000 * config.roundTimeoutMs) (start config clock) := by
  refine ⟨rfl, le_refl _, ?_⟩
  intro state hstate
  cases slot with
  | initiated => cases hstate
  | accepted peer => cases hstate

/-- If a slot is swept once in a period, then however messages are handled it is never occupied for
longer than the timeout and that period. -/
theorem slot_freed (loc : LocCb) (config : K2GossipConfig) (slot : Slot Url) (period clock : Nat)
    (before during : List (Event Url))
    (hbefore : Along (step loc slot) (Swept period) (start config clock) before)
    (hduring : Along (step loc slot) (fun s e => Swept period s e ∧ s.node.g.inSlot slot ≠ none)
      (before.foldl (step loc slot) (start config clock)) during) :
    (during.foldl (step loc slot) (before.foldl (step loc slot) (start config clock))).clock ≤
      (before.foldl (step loc slot) (start config clock)).clock + 1000 * config.roundTimeoutMs +
        period := by
  have haged : Aged slot (1000 * config.roundTimeoutMs)
      (before.foldl (step loc slot) (start config clock)) :=
    hbefore.invariant (aged_start config clock) fun _ _ h hswept => h.step hswept
  generalize before.foldl (step loc slot) (start config clock) = s₀ at hduring haged
  -- the round that is in the slot at first stays there, with its start time
  have hend := hduring.invariant
    (I := fun s => Aged slot (1000 * config.roundTimeoutMs) s ∧
      (∀ state ∈ s.node.g.inSlot slot, state.startedAt ≤ s₀.clock) ∧
        s.clock ≤ s₀.clock + 1000 * config.roundTimeoutMs + period)
    ⟨haged, fun state hstate => (haged.round state hstate).2, by omega⟩ ?_
  · exact hend.2.2
  rintro s e ⟨haged, hstarted, -⟩ ⟨hswept, hoccupied⟩
  rcases Option.ne_none_iff_exists'.mp hoccupied with ⟨old, hold⟩
  refine ⟨haged.step hswept, ?_, ?_⟩
  · intro state hstate
    rcases step_continues s.node e s.clock slot state hstate with ⟨old, hold, hsame⟩ | ⟨hnone, -⟩
    · rw [hsame]
      exact hstarted old hold
    · exact absurd hnone hoccupied
  · show e.instant s.clock ≤ _
    have hlow := (haged.round old hold).1
    have hhigh := hstarted old hold
    have hnext := hswept.2
    omega

/-! ## A round that nobody answers -/

/-- A sweep of the timeout task, some seconds after the start. -/
def sweepAfter (seconds : Nat) : Event Nat :=
  .timeout { RoundOfTwo.sectorHost none RoundOfTwo.behindDht with instant := 1000000 * seconds }
    fun _ => false

/-- The initiated round of a node whose peer is silent. -/
def silentStart : List (Event Nat) :=
  [.initiate (RoundOfTwo.sectorHost none RoundOfTwo.behindDht) [7] 0 2]

/-- With the default timeout of 15 s, the slot is free again after 20 s. -/
theorem slot_freed_silent :
    ([sweepAfter 5, sweepAfter 10, sweepAfter 15, sweepAfter 20].foldl (step (fun _ => 0) .initiated)
      (silentStart.foldl (step (fun _ => 0) .initiated) (start (limitedConfig 10) 0))).clock ≤
        (silentStart.foldl (step (fun _ => 0) .initiated) (start (limitedConfig 10) 0)).clock +
          1000 * (limitedConfig 10).roundTimeoutMs + 5000000 := by
  have hoccupied : ∀ {s : Watched Nat}, (s.node.g.inSlot .initiated).isSome = true →
      s.node.g.inSlot .initiated ≠ none := Option.isSome_iff_ne_none.mp
  refine slot_freed (fun _ => 0) (limitedConfig 10) .initiated 5000000 0 silentStart _ ?_ ?_
  · exact ⟨by decide, trivial⟩
  · exact ⟨⟨by decide +kernel, hoccupied (by decide +kernel)⟩,
      ⟨by decide +kernel, hoccupied (by decide +kernel)⟩,
      ⟨by decide +kernel, hoccupied (by decide +kernel)⟩,
      ⟨by decide +kernel, hoccupied (by decide +kernel)⟩, trivial⟩

end Watched

end Gossip
end Kitsune2
