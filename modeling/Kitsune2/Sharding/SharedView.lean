import Mathlib.Data.Finset.Max
import Mathlib.Data.Finset.Card
import Mathlib.Logic.Function.Basic
import Kitsune2.Sharding.Recheck

/-!
# SharedView — concurrent shrinks decided by the default rule on one view

A `SharedView` is what all announcers of one moment see: who holds which sectors, and the live
intents of everyone who announced a vacate range inside its own holdings.  Each announcer judges its
own range by `shrinkRecheck`, with the coverage of all *other* holders, and leaves if it may.

The decisions and the departures are the moves of a run, in any order.  `shrinkRecheck_safe` is the
safety of the rule: in every state of every run each sector that somebody may vacate keeps the target.
The argument is about one sector.  The highest of the proceeding ids over it has counted every other
proceeder over it as gone, because their ids are lower and their intents live.
-/

namespace Kitsune2
namespace Sharding

open Api

variable {AgentId Url : Type} [LinearOrder AgentId]

/-! ## The view and the decisions on it -/

/-- Holders, their sectors, and the intents that every announcer sees. -/
structure SharedView (AgentId Url : Type) [LinearOrder AgentId] where
  holders : Finset AgentId
  holds : AgentId → Finset Nat
  live : LiveIntents AgentId Url
  announced : AgentId → Option SectorRange
  held_lt : ∀ a ∈ holders, ∀ x ∈ holds a, x < numSectors
  announced_iff : ∀ a v, announced a = some v ↔ ∃ i, (a, i) ∈ live ∧ i.vacate = v
  announced_held : ∀ a v, announced a = some v →
    a ∈ holders ∧ v.1 ≤ v.2 ∧ ∀ x, InRange v x → x ∈ holds a

namespace SharedView

/-- The coverage an agent sees: every other holder counts in each sector it holds. -/
def coverage (view : SharedView AgentId Url) (a : AgentId) : Cov :=
  (List.range numSectors).map fun x =>
    ((view.holders.erase a).filter fun b => x ∈ view.holds b).card

/-- The verdict of the default rule on an agent's own announced range. -/
def mayLeave (view : SharedView AgentId Url) (target : Nat) (a : AgentId) : Bool :=
  match view.announced a with
  | none => false
  | some v => shrinkRecheck (view.coverage a) view.live a v target

/-- The announcers that may vacate a range over sector `x`. -/
def leavers (view : SharedView AgentId Url) (target x : Nat) : Finset AgentId :=
  view.holders.filter fun a =>
    view.mayLeave target a = true ∧ ∃ v, view.announced a = some v ∧ InRange v x

end SharedView

/-! ## Runs of decisions and departures -/

/-- An announcer decides, or a decided announcer acts on its decision. -/
inductive ShrinkMove (AgentId : Type)
  | decides (a : AgentId)
  | leaves (a : AgentId)
  deriving DecidableEq, Repr

structure ShrinkState (AgentId : Type) where
  verdict : AgentId → Option Bool
  holdings : AgentId → Finset Nat

namespace ShrinkState

def start (view : SharedView AgentId Url) : ShrinkState AgentId where
  verdict := fun _ => none
  holdings := view.holds

def step (view : SharedView AgentId Url) (target : Nat) (s : ShrinkState AgentId) :
    ShrinkMove AgentId → ShrinkState AgentId
  | .decides a =>
      { s with verdict := Function.update s.verdict a (some (view.mayLeave target a)) }
  | .leaves a =>
      match s.verdict a, view.announced a with
      | some true, some v =>
          { s with
            holdings := Function.update s.holdings a
              ((s.holdings a).filter fun x => ¬InRange v x) }
      | _, _ => s

def run (view : SharedView AgentId Url) (target : Nat) (moves : List (ShrinkMove AgentId)) :
    ShrinkState AgentId :=
  moves.foldl (step view target) (start view)

/-- The number of holders a sector has left. -/
def redundancy (view : SharedView AgentId Url) (s : ShrinkState AgentId) (x : Nat) : Nat :=
  (view.holders.filter fun a => x ∈ s.holdings a).card

/-- Everyone who may leave has left. -/
def Settled (view : SharedView AgentId Url) (target : Nat) (s : ShrinkState AgentId) : Prop :=
  ∀ a v, view.announced a = some v → view.mayLeave target a = true →
    ∀ x, InRange v x → x ∉ s.holdings a

end ShrinkState

/-! ## One sector of a view -/

namespace SharedView

variable {view : SharedView AgentId Url} {target x : Nat} {a : AgentId}

theorem covAt_coverage (view : SharedView AgentId Url) (a : AgentId)
    (hx : x < numSectors) :
    covAt (view.coverage a) x =
      ((view.holders.erase a).filter fun b => x ∈ view.holds b).card := by
  simp [covAt, coverage, List.getD_eq_getElem?_getD, hx]

theorem length_coverage (view : SharedView AgentId Url) (a : AgentId) :
    (view.coverage a).length = numSectors := by
  simp [coverage]

/-- A vacated sector is a sector of the partition. -/
theorem lt_of_inRange {v : SectorRange} (h : view.announced a = some v) (hx : InRange v x) :
    x < numSectors := by
  rcases view.announced_held a v h with ⟨hmem, _, hheld⟩
  exact view.held_lt a hmem x (hheld x hx)

/-- A `true` of the default rule leaves the target in every sector of the range, after every
lower-id intender over that sector has been counted as gone. -/
theorem target_le_of_mayLeave {v : SectorRange} (hmay : view.mayLeave target a = true)
    (hann : view.announced a = some v) (hx : InRange v x) :
    target ≤ ((view.holders.erase a).filter fun b => x ∈ view.holds b).card -
      (discounted (fun e => decide (e.1 < a)) view.live x).length := by
  have hxs : x < numSectors := lt_of_inRange hann hx
  have hlt : v.1 < v.2 := lt_of_le_of_lt hx.1 hx.2
  have hle : v.2 ≤ numSectors := by
    have hlast : InRange v (v.2 - 1) := ⟨by omega, by omega⟩
    have := lt_of_inRange hann hlast
    omega
  rcases discount_spec (fun e => decide (e.1 < a)) view.live (view.coverage a) with ⟨hlen, hcount⟩
  rw [length_coverage] at hlen hcount
  simp only [mayLeave, hann, shrinkRecheck, ge_iff_le, decide_eq_true_eq] at hmay
  have hat := (le_minOver_iff hlt (by omega)).mp hmay x hx
  rw [hcount x hxs, covAt_coverage view a hxs] at hat
  exact hat

/-- Every other leaver over the sector with a lower id has a live intent that was counted. -/
theorem card_lower_leavers_le (view : SharedView AgentId Url) (target : Nat) (a : AgentId)
    (x : Nat) :
    ((view.leavers target x).filter fun b => b < a).card ≤
      (discounted (fun e => decide (e.1 < a)) view.live x).length := by
  set counted := discounted (fun e => decide (e.1 < a)) view.live x with hcounted
  have hsub : ((view.leavers target x).filter fun b => b < a) ⊆ (counted.map (·.1)).toFinset := by
    intro b hb
    rcases Finset.mem_filter.mp hb with ⟨hleaver, hlow⟩
    rcases (Finset.mem_filter.mp hleaver).2 with ⟨_, v, hann, hx⟩
    rcases (view.announced_iff b v).mp hann with ⟨i, hlive, hv⟩
    rw [List.mem_toFinset, List.mem_map]
    refine ⟨(b, i), ?_, rfl⟩
    rw [hcounted, discounted, List.mem_filter]
    exact ⟨hlive, by simp [hlow, hv, hx]⟩
  calc ((view.leavers target x).filter fun b => b < a).card
      ≤ (counted.map (·.1)).toFinset.card := Finset.card_le_card hsub
    _ ≤ (counted.map (·.1)).length := List.toFinset_card_le _
    _ = counted.length := List.length_map _

/-- The holders of a sector without all its leavers still reach the target. -/
theorem target_le_card_stayers (hne : (view.leavers target x).Nonempty) :
    target ≤ ((view.holders.filter fun b => x ∈ view.holds b) \ view.leavers target x).card := by
  -- the leaver with the highest id has counted all the others
  set top := (view.leavers target x).max' hne with htop
  have hmem : top ∈ view.leavers target x := Finset.max'_mem _ hne
  rcases (Finset.mem_filter.mp hmem).2 with ⟨hmay, v, hann, hx⟩
  have hbound := target_le_of_mayLeave hmay hann hx
  have hcounted := card_lower_leavers_le view target top x
  -- what the highest leaver saw, less the lower leavers, is what stays
  have hsub : ((view.holders.erase top).filter fun b => x ∈ view.holds b) \
        ((view.leavers target x).filter fun b => b < top) ⊆
      (view.holders.filter fun b => x ∈ view.holds b) \ view.leavers target x := by
    intro b hb
    rcases Finset.mem_sdiff.mp hb with ⟨hsaw, hnot⟩
    rcases Finset.mem_filter.mp hsaw with ⟨herase, hheld⟩
    rcases Finset.mem_erase.mp herase with ⟨hne', hholder⟩
    refine Finset.mem_sdiff.mpr ⟨Finset.mem_filter.mpr ⟨hholder, hheld⟩, ?_⟩
    intro hleaver
    have hle : b ≤ top := Finset.le_max' _ b hleaver
    exact hnot (Finset.mem_filter.mpr ⟨hleaver, lt_of_le_of_ne hle hne'⟩)
  calc target
      ≤ ((view.holders.erase top).filter fun b => x ∈ view.holds b).card -
          (discounted (fun e => decide (e.1 < top)) view.live x).length := hbound
    _ ≤ ((view.holders.erase top).filter fun b => x ∈ view.holds b).card -
          ((view.leavers target x).filter fun b => b < top).card := Nat.sub_le_sub_left hcounted _
    _ ≤ (((view.holders.erase top).filter fun b => x ∈ view.holds b) \
          ((view.leavers target x).filter fun b => b < top)).card := Finset.le_card_sdiff _ _
    _ ≤ ((view.holders.filter fun b => x ∈ view.holds b) \ view.leavers target x).card :=
        Finset.card_le_card hsub

end SharedView

/-! ## Any order of moves -/

namespace ShrinkState

variable {view : SharedView AgentId Url} {target : Nat} {s : ShrinkState AgentId}

/-- Verdicts are those of the rule on the view, and an agent has either all it started with or has
vacated its range on a `true`. -/
structure FollowsRule (view : SharedView AgentId Url) (target : Nat) (s : ShrinkState AgentId) :
    Prop where
  verdict_eq : ∀ a b, s.verdict a = some b → b = view.mayLeave target a
  holdings_eq : ∀ a, s.holdings a = view.holds a ∨
    ∃ v, view.announced a = some v ∧ view.mayLeave target a = true ∧
      s.holdings a = (view.holds a).filter fun x => ¬InRange v x

theorem FollowsRule.start (view : SharedView AgentId Url) (target : Nat) :
    FollowsRule view target (start view) where
  verdict_eq := by
    intro a b h
    cases h
  holdings_eq := fun _ => Or.inl rfl

theorem FollowsRule.step (h : FollowsRule view target s) (move : ShrinkMove AgentId) :
    FollowsRule view target (step view target s move) := by
  cases move with
  | decides a =>
      refine ⟨?_, h.holdings_eq⟩
      intro a' b hb
      by_cases haa : a' = a
      · subst haa
        simp only [ShrinkState.step, Function.update_self, Option.some.injEq] at hb
        exact hb.symm
      · simp only [ShrinkState.step, Function.update_of_ne haa] at hb
        exact h.verdict_eq a' b hb
  | leaves a =>
      simp only [ShrinkState.step]
      split
      · rename_i v hverdict hann
        have hmay : view.mayLeave target a = true := (h.verdict_eq a true hverdict).symm
        refine ⟨h.verdict_eq, ?_⟩
        intro a'
        by_cases haa : a' = a
        · subst haa
          refine Or.inr ⟨v, hann, hmay, ?_⟩
          simp only [Function.update_self]
          -- leaving a second time takes nothing more
          rcases h.holdings_eq a' with heq | ⟨w, hw, _, heq⟩
          · rw [heq]
          · obtain rfl : w = v := Option.some.inj (hw.symm.trans hann)
            rw [heq, Finset.filter_filter]
            simp only [and_self]
        · simp only [Function.update_of_ne haa]
          exact h.holdings_eq a'
      · exact h

theorem FollowsRule.run (view : SharedView AgentId Url) (target : Nat)
    (moves : List (ShrinkMove AgentId)) : FollowsRule view target (run view target moves) := by
  unfold ShrinkState.run
  suffices ∀ s, FollowsRule view target s →
      FollowsRule view target (moves.foldl (ShrinkState.step view target) s) from
    this _ (FollowsRule.start view target)
  induction moves with
  | nil => exact fun _ hs => hs
  | cons move moves ih => exact fun s hs => ih _ (hs.step move)

/-- Whoever is not a leaver over the sector still holds it. -/
theorem FollowsRule.stayers_subset (h : FollowsRule view target s) (x : Nat) :
    (view.holders.filter fun b => x ∈ view.holds b) \ view.leavers target x ⊆
      view.holders.filter fun b => x ∈ s.holdings b := by
  intro b hb
  rcases Finset.mem_sdiff.mp hb with ⟨hheld, hstays⟩
  rcases Finset.mem_filter.mp hheld with ⟨hholder, hx⟩
  refine Finset.mem_filter.mpr ⟨hholder, ?_⟩
  rcases h.holdings_eq b with heq | ⟨v, hann, hmay, heq⟩
  · rw [heq]
    exact hx
  · rw [heq, Finset.mem_filter]
    refine ⟨hx, ?_⟩
    intro hr
    exact hstays (Finset.mem_filter.mpr ⟨hholder, hmay, v, hann, hr⟩)

theorem FollowsRule.target_le_redundancy (h : FollowsRule view target s) {a : AgentId}
    {v : SectorRange} {x : Nat} (hann : view.announced a = some v)
    (hmay : view.mayLeave target a = true) (hx : InRange v x) :
    target ≤ redundancy view s x := by
  have hne : (view.leavers target x).Nonempty :=
    ⟨a, Finset.mem_filter.mpr ⟨(view.announced_held a v hann).1, hmay, v, hann, hx⟩⟩
  calc target
      ≤ ((view.holders.filter fun b => x ∈ view.holds b) \ view.leavers target x).card :=
        SharedView.target_le_card_stayers hne
    _ ≤ redundancy view s x := Finset.card_le_card (h.stayers_subset x)

/-- Once everyone who may leave has left, the holdings are a function of the view alone. -/
theorem FollowsRule.holdings_of_settled (h : FollowsRule view target s)
    (hsettled : Settled view target s) (a : AgentId) :
    s.holdings a =
      (view.holds a).filter fun x => ¬(view.mayLeave target a = true ∧
        ∃ v, view.announced a = some v ∧ InRange v x) := by
  ext x
  rw [Finset.mem_filter]
  rcases h.holdings_eq a with heq | ⟨v, hann, hmay, heq⟩
  · rw [heq]
    refine ⟨?_, fun hx => hx.1⟩
    intro hx
    refine ⟨hx, ?_⟩
    rintro ⟨hmay, v, hann, hr⟩
    exact hsettled a v hann hmay x hr (heq ▸ hx)
  · rw [heq, Finset.mem_filter]
    refine and_congr_right fun _ => not_congr ?_
    constructor
    · exact fun hr => ⟨hmay, v, hann, hr⟩
    · rintro ⟨_, w, hw, hr⟩
      obtain rfl : w = v := Option.some.inj (hw.symm.trans hann)
      exact hr

/-! ## Safety of the rule -/

/-- In every state of every run each sector of a range that its announcer may vacate has the target
number of holders, and two runs in which everyone who may leave has left end with the same
holdings. -/
theorem shrinkRecheck_safe (view : SharedView AgentId Url) (target : Nat)
    (moves : List (ShrinkMove AgentId)) :
    (∀ a v x, view.announced a = some v → view.mayLeave target a = true → InRange v x →
        target ≤ redundancy view (run view target moves) x) ∧
      ∀ moves', Settled view target (run view target moves) →
        Settled view target (run view target moves') →
          (run view target moves').holdings = (run view target moves).holdings := by
  have hrule := FollowsRule.run view target moves
  refine ⟨fun a v x hann hmay hx => hrule.target_le_redundancy hann hmay hx, ?_⟩
  intro moves' hsettled hsettled'
  funext a
  rw [(FollowsRule.run view target moves').holdings_of_settled hsettled' a,
    hrule.holdings_of_settled hsettled a]

/-- Three holders of sectors 0 and 1.  Agents 1 and 2 both announce to vacate, over different ranges
that meet in sector 1. -/
def contestedView : SharedView Nat Unit where
  holders := {1, 2, 3}
  holds := fun _ => {0, 1}
  live := [(2, ⟨(1, 2), 60, none⟩), (1, ⟨(0, 2), 60, none⟩)]
  announced := fun a => if a = 1 then some (0, 2) else if a = 2 then some (1, 2) else none
  held_lt := by decide
  announced_iff := by
    intro a v
    constructor
    · intro h
      split at h
      · rename_i ha
        exact ⟨⟨(0, 2), 60, none⟩, by simp [ha], Option.some.inj h⟩
      · split at h
        · rename_i ha
          exact ⟨⟨(1, 2), 60, none⟩, by simp [ha], Option.some.inj h⟩
        · cases h
    · rintro ⟨i, hmem, rfl⟩
      simp only [List.mem_cons, Prod.mk.injEq, List.not_mem_nil, or_false] at hmem
      rcases hmem with ⟨rfl, rfl⟩ | ⟨rfl, rfl⟩
      · rfl
      · rfl
  announced_held := by
    intro a v h
    split at h
    · rename_i ha
      cases h
      refine ⟨by simp [ha], by decide, ?_⟩
      intro x hx
      simp only [InRange] at hx
      simp only [Finset.mem_insert, Finset.mem_singleton]
      omega
    · split at h
      · rename_i ha
        cases h
        refine ⟨by simp [ha], by decide, ?_⟩
        intro x hx
        simp only [InRange] at hx
        simp only [Finset.mem_insert, Finset.mem_singleton]
        omega
      · cases h

theorem contestedView_settled {s : ShrinkState Nat} (h : s.holdings 1 = ∅) :
    Settled contestedView 2 s := by
  intro a v hann hmay x _
  have hone : a = 1 := by
    by_contra hne
    by_cases htwo : a = 2
    · subst htwo
      exact absurd hmay (by decide +kernel)
    · simp [contestedView, hne, htwo] at hann
  rw [hone, h]
  exact Finset.notMem_empty x

/-- With a target of 2 only the lower of the two racers may leave, in whatever order they move. -/
theorem contestedView_safe :
    contestedView.mayLeave 2 2 = false ∧
      2 ≤ redundancy contestedView
        (run contestedView 2 [.decides 2, .leaves 2, .decides 1, .leaves 1]) 1 ∧
      (run contestedView 2 [.decides 1, .leaves 1]).holdings =
        (run contestedView 2 [.decides 2, .leaves 2, .decides 1, .leaves 1]).holdings := by
  rcases shrinkRecheck_safe contestedView 2 [.decides 2, .leaves 2, .decides 1, .leaves 1]
    with ⟨hsafe, horder⟩
  refine ⟨by decide +kernel, hsafe 1 (0, 2) 1 rfl (by decide +kernel) (by decide), ?_⟩
  exact horder [.decides 1, .leaves 1] (contestedView_settled (by decide +kernel))
    (contestedView_settled (by decide +kernel))

end ShrinkState

end Sharding
end Kitsune2
