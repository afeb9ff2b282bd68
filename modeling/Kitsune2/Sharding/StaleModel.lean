import Mathlib.Data.Finset.Card
import Mathlib.Data.Finset.Range
import Mathlib.Order.Monotone.Basic
import Kitsune2.Lib.Loops
import Kitsune2.Sharding.Recheck

/-!
# StaleModel — the stale-view tick model of the re-check rules

One sector, `n` nodes all holding it.  A node that announces at tick `a` executes at `a + d`,
reading the world as it was `lag` ticks ago; executes due in one tick run in id order and cannot
see each other.  Announcements are unconstrained.  Deaths are visible `detect` ticks later,
whatever the staleness of the viewer.

The model drives the real decision functions of `Recheck`.  The main result is that under the
patient-lowest rule no shrink ever takes the sector below the target, for any number of nodes, any
schedule of announcements and any set of deaths, as soon as the wait covers the largest lag.
-/

namespace Kitsune2
namespace Sharding
namespace StaleModel

open Api Lib

/-! ## The world -/

/-- Which re-check runs at execute time. -/
inductive Rule
  | tieBreak
  | countAll
  | patient
  deriving DecidableEq, Repr

structure Outcome where
  /-- Tick at which a shrink took the sector below the target, if any. -/
  violation : Option Nat
  /-- How many nodes vacated by shrinking. -/
  departed : Nat
  deriving DecidableEq, Repr

/-- The parameters of a run.  The ids order exactly like the node numbers. -/
structure World (AgentId : Type) [LinearOrder AgentId] where
  n : Nat
  r : Nat
  d : Nat
  maxLag : Nat
  detect : Nat
  rule : Rule
  ids : Nat → AgentId
  ids_strictMono : StrictMono ids
  pythonView : Bool

/-- `VACATE`, the one sector of the model. -/
def vacate : SectorRange := (0, 1)

/-- The world of `World::new`, with numbers for ids. -/
def World.new (n r maxLag d : Nat) (rule : Rule) (detect : Nat) : World Nat where
  n := n
  r := r
  d := d
  maxLag := maxLag
  detect := detect
  rule := rule
  ids := fun i => i + 1
  ids_strictMono := fun _ _ h => Nat.succ_lt_succ h
  pythonView := false

/-! ## One tick -/

/-- Holders and intenders at the end of a tick. -/
abbrev View := Finset Nat × Finset Nat

structure RunState where
  holds : Finset Nat
  intent : Nat → Option Nat
  departed : Finset Nat
  diedAt : List (Nat × Nat)
  history : List View

/-- Why the loop of `run` ends before its horizon. -/
inductive Stop
  | fault (f : Fault)
  | returned (o : Outcome)
  deriving Repr

namespace World

variable {AgentId : Type} [LinearOrder AgentId]

/-- The bit set `full` of all nodes. -/
def full (w : World AgentId) : Finset Nat :=
  Finset.range w.n

/-- What a viewer with the given lag sees at tick `t`. -/
def viewAt (w : World AgentId) (history : List View) (t lag : Nat) : Except Stop View :=
  if lag ≤ t then
    match history[t - lag]? with
    | some v => .ok v
    | none => .error (.fault (.panicked "index out of bounds"))
  else .ok (w.full, ∅)

/-- A death is visible exactly `detect` ticks after it happens: undetected it is still counted,
detected it is removed even from a view taken before it. -/
def applyDeaths (w : World AgentId) (diedAt : List (Nat × Nat)) (t : Nat) (hs : Finset Nat) :
    Finset Nat :=
  diedAt.foldl (fun hs m => if t - m.2 < w.detect then insert m.1 hs else hs.erase m.1) hs

def liveIntents (w : World AgentId) (its : Finset Nat) : LiveIntents AgentId Unit :=
  ((List.range w.n).filter fun j => decide (j ∈ its)).map fun j =>
    (w.ids j, { vacate := vacate, expiresAt := 3600000000, sender := none })

/-- The decision of the rule in force; `none` keeps the intent up for the next tick. -/
def decision (w : World AgentId) (cov : Cov) (live : LiveIntents AgentId Unit) (me : AgentId) :
    Option Bool :=
  match w.rule with
  | .tieBreak => some (shrinkRecheck cov live me vacate w.r)
  | .countAll => some (decide (patientRecheck cov live me vacate w.r = .proceed))
  | .patient =>
      match patientRecheck cov live me vacate w.r with
      | .proceed => some true
      | .standDown => some false
      | .wait => none

/-- Node `i`'s turn in the execute phase of tick `t`. -/
def execute (w : World AgentId) (lags : Nat → Nat) (t : Nat) (st : RunState) (i : Nat) :
    Except Stop RunState :=
  if st.intent i ≠ some t ∨ i ∉ st.holds then .ok st
  else do
    let view ← w.viewAt st.history t (lags i)
    let hs := w.applyDeaths st.diedAt t view.1
    let cov := [(hs.erase i).card]
    let its := if w.pythonView then view.2 ∩ hs else view.2
    match w.decision cov (w.liveIntents its) (w.ids i) with
    -- wait: the intent stays up and is judged again in the next tick
    | none => .ok { st with intent := Function.update st.intent i (some (t + 1)) }
    | some false => .ok { st with intent := Function.update st.intent i none }
    | some true =>
        let holds := st.holds.erase i
        let departed := insert i st.departed
        -- the run stops at the first violation
        if holds.card < w.r then
          .error (.returned { violation := some t, departed := departed.card })
        else
          .ok { st with
            intent := Function.update st.intent i none
            holds := holds
            departed := departed }

/-- The deaths of tick `t`: a holder that dies leaves without announcing. -/
def die (t : Nat) (st : RunState) (crash : Nat × Nat) : RunState :=
  if crash.2 = t ∧ crash.1 ∈ st.holds then
    { st with
      holds := st.holds.erase crash.1
      intent := Function.update st.intent crash.1 none
      diedAt := st.diedAt ++ [(crash.1, t)] }
  else st

def announce (w : World AgentId) (ann : Nat → Option Nat) (t : Nat) (st : RunState) : RunState :=
  { st with
    intent := fun i =>
      if i < w.n ∧ ann i = some t ∧ i ∈ st.holds ∧ st.intent i = none ∧ i ∉ st.departed then
        some (t + w.d)
      else st.intent i }

def publish (w : World AgentId) (st : RunState) : RunState :=
  { st with
    history := st.history ++ [(st.holds, w.full.filter fun j => (st.intent j).isSome)] }

def tick (w : World AgentId) (ann : Nat → Option Nat) (lags : Nat → Nat)
    (crashes : List (Nat × Nat)) (st : RunState) (t : Nat) : Except Stop RunState := do
  let st ← (List.range w.n).foldlM (w.execute lags t) st
  return w.publish (w.announce ann t (crashes.foldl (die t) st))

/-! ## A whole run -/

def start (w : World AgentId) : RunState where
  holds := w.full
  intent := fun _ => none
  departed := ∅
  diedAt := []
  history := []

/-- The run up to a given horizon. -/
def runTo (w : World AgentId) (ann : Nat → Option Nat) (lags : Nat → Nat)
    (crashes : List (Nat × Nat)) (horizon : Nat) : Except Fault Outcome :=
  match (List.range horizon).foldlM (w.tick ann lags crashes) w.start with
  | .ok st => .ok { violation := none, departed := st.departed.card }
  | .error (.returned o) => .ok o
  | .error (.fault f) => .error f

def horizon (w : World AgentId) (ann : Nat → Option Nat) (crashes : List (Nat × Nat)) : Nat :=
  let base := ((List.range w.n).filterMap ann).foldl max 0 + w.d + 2
  let room := if w.rule = .patient then base + w.n * (w.d + 2 * w.maxLag + 2) else base
  crashes.foldl (fun h c => max h (c.2 + 2)) room

/-- `World::run`, with any set of deaths where the source takes at most one. -/
def run (w : World AgentId) (ann : Nat → Option Nat) (lags : Nat → Nat)
    (crashes : List (Nat × Nat)) : Except Fault Outcome :=
  w.runTo ann lags crashes (w.horizon ann crashes)

/-! ## Who may have left since a view was taken -/

/-- The world as published before tick `s`: the initial world, or the end of tick `s - 1`. -/
def published (w : World AgentId) (history : List View) : Nat → Option View
  | 0 => some (w.full, ∅)
  | s + 1 => history[s]?

/-- A holder without an intent in the view of tick `s` is still there (or dead), and an intent it
has announced since then is not due before `s + d`. -/
def Staying (w : World AgentId) (st : RunState) (s : Nat) (view : View) : Prop :=
  ∀ j ∈ view.1, j ∉ view.2 →
    (∃ td, (j, td) ∈ st.diedAt) ∨
      (j ∈ st.holds ∧ ∀ e, st.intent j = some e → s + w.d ≤ e)

/-- The invariant of a run at tick `t`: every view that a decision can still read is `Staying`. -/
structure Inv (w : World AgentId) (t : Nat) (st : RunState) : Prop where
  length_history : st.history.length = t
  holds_subset : st.holds ⊆ w.full
  intenders_subset : ∀ v ∈ st.history, v.2 ⊆ w.full
  staying : ∀ s view, t < s + w.d → w.published st.history s = some view → w.Staying st s view

section Patient

variable {w : World AgentId} {t : Nat} {st : RunState}

theorem inv_start : w.Inv 0 w.start where
  length_history := rfl
  holds_subset := by simp [start]
  intenders_subset := by simp [start]
  staying := by
    intro s view _ hview
    cases s with
    | zero =>
        -- nobody has announced anything yet
        have hv : (w.full, ∅) = view := by simpa [published] using hview
        subst hv
        intro j hj _
        exact Or.inr ⟨hj, by simp [start]⟩
    | succ s =>
        simp [published, start] at hview

/-- A viewer with an allowed lag finds its view in the history, and the view is recent enough. -/
theorem viewAt_ok (hinv : w.Inv t st) {lag : Nat} (hpos : 1 ≤ lag) (hlag : lag ≤ w.d) :
    ∃ s view, w.viewAt st.history t lag = .ok view ∧ view.2 ⊆ w.full ∧ w.Staying st s view ∧
      t < s + w.d := by
  by_cases hle : lag ≤ t
  · have hlt : t - lag < st.history.length := by
      rw [hinv.length_history]
      omega
    have hget : st.history[t - lag]? = some st.history[t - lag] := List.getElem?_eq_getElem hlt
    have hrecent : t < (t - lag + 1) + w.d := by omega
    refine ⟨t - lag + 1, st.history[t - lag], ?_, ?_, ?_, hrecent⟩
    · simp [viewAt, hle, hget]
    · exact hinv.intenders_subset _ (List.getElem_mem hlt)
    · exact hinv.staying _ _ hrecent hget
  · -- the viewer looks past the start: everybody holds, nobody intends
    have hrecent : t < 0 + w.d := by omega
    refine ⟨0, (w.full, ∅), ?_, by simp, ?_, hrecent⟩
    · simp [viewAt, hle]
    · exact hinv.staying _ _ hrecent rfl

/-- With prompt detection, or without deaths, exactly the dead are removed from a view. -/
theorem mem_applyDeaths_iff :
    ∀ (diedAt : List (Nat × Nat)) (_ : w.detect = 0 ∨ diedAt = []) (hs : Finset Nat) (j : Nat),
      j ∈ w.applyDeaths diedAt t hs ↔ j ∈ hs ∧ ∀ td, (j, td) ∉ diedAt := by
  intro diedAt
  induction diedAt with
  | nil =>
      intro _ hs j
      simp [applyDeaths]
  | cons m diedAt ih =>
      intro hdetect hs j
      have hprompt : w.detect = 0 := hdetect.resolve_right (List.cons_ne_nil m diedAt)
      have hstep : w.applyDeaths (m :: diedAt) t hs = w.applyDeaths diedAt t (hs.erase m.1) := by
        simp [applyDeaths, hprompt]
      rw [hstep, ih (Or.inl hprompt), Finset.mem_erase]
      constructor
      · rintro ⟨⟨hne, hj⟩, hrest⟩
        refine ⟨hj, ?_⟩
        intro td hmem
        rcases List.mem_cons.mp hmem with heq | htail
        · exact hne (by rw [← heq])
        · exact hrest td htail
      · rintro ⟨hj, hall⟩
        refine ⟨⟨?_, hj⟩, ?_⟩
        · intro heq
          exact hall m.2 (by simp [heq])
        · intro td htail
          exact hall td (List.mem_cons_of_mem _ htail)

/-- The live intents of others over the sector are the intenders other than `i`. -/
theorem length_other_intents {its : Finset Nat} (hits : its ⊆ w.full) (i : Nat) :
    ((w.liveIntents its).filter
        fun e => decide (e.1 ≠ w.ids i) && decide (InRange e.2.vacate 0)).length =
      (its.erase i).card := by
  have hinj : ∀ j, w.ids j = w.ids i ↔ j = i := fun j => w.ids_strictMono.injective.eq_iff
  have hsector : InRange vacate 0 := by decide
  have hset : its.erase i =
      ((List.range w.n).filter fun j => decide (j ∈ its) && decide (j ≠ i)).toFinset := by
    ext j
    simp only [Finset.mem_erase, List.mem_toFinset, List.mem_filter, List.mem_range,
      Bool.and_eq_true, decide_eq_true_eq]
    constructor
    · rintro ⟨hne, hj⟩
      exact ⟨Finset.mem_range.mp (hits hj), hj, hne⟩
    · rintro ⟨_, hj, hne⟩
      exact ⟨hne, hj⟩
  have hnodup : ((List.range w.n).filter fun j => decide (j ∈ its) && decide (j ≠ i)).Nodup :=
    List.nodup_range.filter _
  rw [hset, List.toFinset_card_of_nodup hnodup]
  simp only [liveIntents, List.filter_map, List.length_map, List.filter_filter, Function.comp_def,
    hsector, hinj, decide_true, Bool.and_true, ne_eq]
  congr 1
  apply List.filter_congr
  intro j _
  exact Bool.and_comm _ _

/-- A `Proceed` on a `Staying` view leaves at least `r` holders. -/
theorem proceed_leaves_target {s i : Nat} {view : View} (hdetect : w.detect = 0 ∨ st.diedAt = [])
    (hsub : view.2 ⊆ w.full) (hstay : w.Staying st s view)
    (hgo : patientRecheck [((w.applyDeaths st.diedAt t view.1).erase i).card]
      (w.liveIntents
        (if w.pythonView then view.2 ∩ w.applyDeaths st.diedAt t view.1 else view.2))
      (w.ids i) vacate w.r = .proceed) :
    w.r ≤ (st.holds.erase i).card := by
  generalize hhs : w.applyDeaths st.diedAt t view.1 = hs at hgo
  generalize hits : (if w.pythonView then view.2 ∩ hs else view.2) = its at hgo
  have hitsFull : its ⊆ w.full := by
    subst hits
    split
    · exact fun j hj => hsub (Finset.mem_inter.mp hj).1
    · exact hsub
  have hle := proceed_covAt (by decide) (by simp [vacate]) hgo (x := 0) (by decide)
  rw [length_other_intents hitsFull i] at hle
  -- the holders of the view without an intent are all still there
  have hkeep : hs.erase i \ its.erase i ⊆ st.holds.erase i := by
    intro j hj
    rcases Finset.mem_sdiff.mp hj with ⟨hjhs, hjits⟩
    rcases Finset.mem_erase.mp hjhs with ⟨hne, hjhs⟩
    have hview : j ∈ view.1 ∧ ∀ td, (j, td) ∉ st.diedAt := by
      rw [← mem_applyDeaths_iff (t := t) _ hdetect, hhs]
      exact hjhs
    have hfree : j ∉ view.2 := by
      intro hmem
      apply hjits
      rw [Finset.mem_erase]
      refine ⟨hne, ?_⟩
      subst hits
      split
      · exact Finset.mem_inter.mpr ⟨hmem, hjhs⟩
      · exact hmem
    rcases hstay j hview.1 hfree with ⟨td, hdead⟩ | ⟨hholds, _⟩
    · exact absurd hdead (hview.2 td)
    · exact Finset.mem_erase.mpr ⟨hne, hholds⟩
  have hcov : covAt [(hs.erase i).card] 0 = (hs.erase i).card := rfl
  calc w.r ≤ (hs.erase i).card - (its.erase i).card := by rwa [hcov] at hle
    _ ≤ (hs.erase i \ its.erase i).card := Finset.le_card_sdiff _ _
    _ ≤ (st.holds.erase i).card := Finset.card_le_card hkeep

/-! ## What one tick preserves -/

/-- A node whose intent is due at `t` is in no recent view as a holder without an intent, so what
it does breaks no `Staying` of a recent view. -/
theorem staying_of_due {s i : Nat} {view : View} {st' : RunState} (hdue : st.intent i = some t)
    (hrecent : t < s + w.d) (hstay : w.Staying st s view) (hdied : st'.diedAt = st.diedAt)
    (hholds : ∀ j, j ≠ i → (j ∈ st'.holds ↔ j ∈ st.holds))
    (hintent : ∀ j, j ≠ i → st'.intent j = st.intent j) : w.Staying st' s view := by
  intro j hj hfree
  rcases hstay j hj hfree with hdead | ⟨hj', hnext⟩
  · exact Or.inl (by rwa [hdied])
  · have hne : j ≠ i := by
      intro heq
      subst heq
      have := hnext t hdue
      omega
    exact Or.inr ⟨(hholds j hne).mpr hj', by rwa [hintent j hne]⟩

theorem execute_ok {lags : Nat → Nat} {i : Nat} (hrule : w.rule = .patient)
    (hdetect : w.detect = 0 ∨ st.diedAt = []) (hpos : 1 ≤ lags i) (hlag : lags i ≤ w.d)
    (hinv : w.Inv t st) :
    ∃ st', w.execute lags t st i = .ok st' ∧ w.Inv t st' := by
  unfold execute
  by_cases hskip : st.intent i ≠ some t ∨ i ∉ st.holds
  · exact ⟨st, by rw [if_pos hskip], hinv⟩
  rw [if_neg hskip]
  have hdue : st.intent i = some t := by
    by_contra hne
    exact hskip (Or.inl hne)
  rcases viewAt_ok hinv hpos hlag with ⟨s, view, hview, hsub, hstay, _⟩
  rw [hview]
  -- whatever the decision, only node `i` changes
  have hupd : ∀ v j, j ≠ i → Function.update st.intent i v j = st.intent j :=
    fun v j hne => Function.update_of_ne hne v st.intent
  cases hrec : patientRecheck [((w.applyDeaths st.diedAt t view.1).erase i).card]
      (w.liveIntents
        (if w.pythonView then view.2 ∩ w.applyDeaths st.diedAt t view.1 else view.2))
      (w.ids i) vacate w.r with
  | wait =>
      refine ⟨{ st with intent := Function.update st.intent i (some (t + 1)) }, ?_, ?_⟩
      · simp only [decision, hrule, hrec, bind, Except.bind]
      · exact ⟨hinv.length_history, hinv.holds_subset, hinv.intenders_subset,
          fun s' v hr hp => staying_of_due hdue hr (hinv.staying s' v hr hp) rfl
            (fun _ _ => Iff.rfl) (hupd _)⟩
  | standDown =>
      refine ⟨{ st with intent := Function.update st.intent i none }, ?_, ?_⟩
      · simp only [decision, hrule, hrec, bind, Except.bind]
      · exact ⟨hinv.length_history, hinv.holds_subset, hinv.intenders_subset,
          fun s' v hr hp => staying_of_due hdue hr (hinv.staying s' v hr hp) rfl
            (fun _ _ => Iff.rfl) (hupd _)⟩
  | proceed =>
      have htarget : ¬ (st.holds.erase i).card < w.r :=
        not_lt.mpr (proceed_leaves_target hdetect hsub hstay hrec)
      refine ⟨{ st with
        intent := Function.update st.intent i none
        holds := st.holds.erase i
        departed := insert i st.departed }, ?_, ?_⟩
      · simp only [decision, hrule, hrec, bind, Except.bind, if_neg htarget]
      · exact ⟨hinv.length_history,
          fun j hj => hinv.holds_subset (Finset.mem_of_mem_erase hj), hinv.intenders_subset,
          fun s' v hr hp => staying_of_due hdue hr (hinv.staying s' v hr hp) rfl
            (fun j hne => by simp [hne]) (hupd _)⟩

theorem inv_die (crash : Nat × Nat) (hinv : w.Inv t st) : w.Inv t (die t st crash) := by
  unfold die
  split
  · refine ⟨hinv.length_history, fun j hj => hinv.holds_subset (Finset.mem_of_mem_erase hj),
      hinv.intenders_subset, ?_⟩
    intro s view hrecent hview j hj hfree
    rcases hinv.staying s view hrecent hview j hj hfree with ⟨td, hdead⟩ | ⟨hholds, hnext⟩
    · exact Or.inl ⟨td, List.mem_append_left _ hdead⟩
    · by_cases heq : j = crash.1
      · exact Or.inl ⟨t, by simp [heq]⟩
      · refine Or.inr ⟨Finset.mem_erase.mpr ⟨heq, hholds⟩, ?_⟩
        simpa [Function.update_of_ne heq] using hnext
  · exact hinv

theorem inv_deaths (crashes : List (Nat × Nat)) (hinv : w.Inv t st) :
    w.Inv t (crashes.foldl (die t) st) := by
  induction crashes generalizing st with
  | nil =>
      exact hinv
  | cons crash crashes ih =>
      exact ih (inv_die crash hinv)

theorem inv_announce (ann : Nat → Option Nat) (hinv : w.Inv t st) : w.Inv t (w.announce ann t st) := by
  refine ⟨hinv.length_history, hinv.holds_subset, hinv.intenders_subset, ?_⟩
  intro s view hrecent hview j hj hfree
  rcases hinv.staying s view hrecent hview j hj hfree with hdead | ⟨hholds, hnext⟩
  · exact Or.inl hdead
  · refine Or.inr ⟨hholds, ?_⟩
    intro e he
    have hs : s ≤ t := by
      -- a view of tick `s` exists only once tick `s` has begun
      cases s with
      | zero =>
          exact Nat.zero_le t
      | succ s =>
          have hlt := (List.getElem?_eq_some_iff.mp hview).1
          have hlen : st.history.length = t := hinv.length_history
          exact lt_of_lt_of_eq hlt hlen
    simp only [announce] at he
    split at he
    · have : t + w.d = e := by simpa using he
      omega
    · exact hnext e he

theorem inv_publish (hinv : w.Inv t st) : w.Inv (t + 1) (w.publish st) := by
  refine ⟨by simp [publish, hinv.length_history], hinv.holds_subset, ?_, ?_⟩
  · intro v hv
    rcases List.mem_append.mp hv with hold | hnew
    · exact hinv.intenders_subset v hold
    · rw [List.mem_singleton.mp hnew]
      exact Finset.filter_subset _ _
  · intro s view hrecent hview
    by_cases hold : s ≤ t
    · -- a view that was there before
      have hsame : w.published st.history s = some view := by
        cases s with
        | zero =>
            exact hview
        | succ s =>
            have hlt : s < st.history.length := by
              rw [hinv.length_history]
              omega
            simpa [published, publish, List.getElem?_append_left hlt] using hview
      exact hinv.staying s view (by omega) hsame
    · -- the view published now: a holder without an intent has none to execute
      have hs : s = t + 1 := by
        cases s with
        | zero => omega
        | succ s =>
            have hlt := (List.getElem?_eq_some_iff.mp hview).1
            simp only [publish, List.length_append, List.length_cons, List.length_nil,
              hinv.length_history] at hlt
            omega
      subst hs
      have hv : (st.holds, w.full.filter fun j => (st.intent j).isSome) = view := by
        have hidx : t = st.history.length := hinv.length_history.symm
        simp only [published, publish] at hview
        rw [hidx, List.getElem?_concat_length] at hview
        exact Option.some.inj hview
      subst hv
      intro j hj hfree
      refine Or.inr ⟨hj, ?_⟩
      intro e he
      exact absurd (Finset.mem_filter.mpr ⟨hinv.holds_subset hj,
        by simp [show st.intent j = some e from he]⟩) hfree

theorem tick_ok {ann : Nat → Option Nat} {lags : Nat → Nat} {crashes : List (Nat × Nat)}
    (hrule : w.rule = .patient) (hdetect : w.detect = 0) (hd : w.maxLag ≤ w.d)
    (hlags : ∀ i, i < w.n → 1 ≤ lags i ∧ lags i ≤ w.maxLag) (hinv : w.Inv t st) :
    ∃ st', w.tick ann lags crashes st t = .ok st' ∧ w.Inv (t + 1) st' := by
  have hexec : ∃ st', (List.range w.n).foldlM (w.execute lags t) st = .ok st' ∧ w.Inv t st' := by
    refine foldlM_ok (List.range w.n) st hinv ?_
    intro st i hi hst
    rcases hlags i (List.mem_range.mp hi) with ⟨hpos, hlag⟩
    exact execute_ok hrule (Or.inl hdetect) hpos (le_trans hlag hd) hst
  rcases hexec with ⟨st', hst', hinv'⟩
  refine ⟨w.publish (w.announce ann t (crashes.foldl (die t) st')), ?_, ?_⟩
  · exact bind_eq_ok_iff.mpr ⟨st', hst', rfl⟩
  · exact inv_publish (inv_announce ann (inv_deaths crashes hinv'))

end Patient

/-! ## Safety of the patient-lowest rule -/

/-- Under the patient-lowest rule, with a wait that covers the largest lag and deaths detected
before the next decision, a run of any length ends without a shrink below the target. -/
theorem patient_run_keeps_target (w : World AgentId) (hrule : w.rule = .patient)
    (hdetect : w.detect = 0) (hd : w.maxLag ≤ w.d) (ann : Nat → Option Nat) (lags : Nat → Nat)
    (hlags : ∀ i, i < w.n → 1 ≤ lags i ∧ lags i ≤ w.maxLag) (crashes : List (Nat × Nat)) :
    (∃ o, w.run ann lags crashes = .ok o ∧ o.violation = none) ∧
      ∀ horizon, ∃ o, w.runTo ann lags crashes horizon = .ok o ∧ o.violation = none := by
  have hto : ∀ horizon, ∃ o, w.runTo ann lags crashes horizon = .ok o ∧ o.violation = none := by
    intro horizon
    have hloop := foldlM_range_ok (f := w.tick ann lags crashes) (inv_start (w := w))
      (fun t st hinv => tick_ok hrule hdetect hd hlags hinv) horizon
    rcases hloop with ⟨st, hst, _⟩
    exact ⟨{ violation := none, departed := st.departed.card }, by simp only [runTo, hst], rfl⟩
  exact ⟨hto _, hto⟩

theorem patient_run_keeps_target_three :
    (World.new 3 1 2 2 .patient 0).maxLag ≤ (World.new 3 1 2 2 .patient 0).d ∧
      ∃ o, (World.new 3 1 2 2 .patient 0).run (fun i => some i) (fun _ => 2) [(2, 1), (0, 3)] =
        .ok o ∧ o.violation = none :=
  ⟨by decide, (patient_run_keeps_target (World.new 3 1 2 2 .patient 0) rfl rfl (by decide)
    (fun i => some i) (fun _ => 2) (fun _ _ => by decide) [(2, 1), (0, 3)]).1⟩

end World

end StaleModel
end Sharding
end Kitsune2
