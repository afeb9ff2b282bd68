import Kitsune2.Gossip.Respond

/-!
# BurstWindow — how many initiates of a peer are let through in any window

`AcceptBurstTracker` keeps, for each peer, when it last let an initiate of the peer through.  Every
check and every pass of the cleanup task drops the times that are a window old by then, so what is
kept is never the whole history.  `Records` says what is still right about it: from now on, every
window that ends at a reading holds the same of what is kept as of what was accepted.

The map behind the mutex is an association list.  A pass of the cleanup task drops the entry of a peer
of which nothing is left.
-/

namespace Kitsune2
namespace Gossip

open Api Lib

variable {Url : Type} [DecidableEq Url]

/-! ## The tracker -/

structure AcceptBurstTracker (Url : Type) where
  config : K2GossipConfig
  state : AList fun _ : Url => List Int

namespace AcceptBurstTracker

def new (config : K2GossipConfig) : AcceptBurstTracker Url where
  config := config
  state := ∅

/-- The timestamps kept for a peer. -/
def kept (tracker : AcceptBurstTracker Url) (peer : Url) : List Int :=
  (tracker.state.lookup peer).getD []

/-- `check_accept`, with the clock reading that the threshold is taken from. -/
def checkAccept (tracker : AcceptBurstTracker Url) (peer : Url) (timestamp now : Int) :
    Bool × AcceptBurstTracker Url :=
  let entry := (tracker.kept peer).filter fun t => decide (t > tracker.config.burstThreshold now)
  if entry.length ≥ tracker.config.maxBurst then
    (false, { tracker with state := tracker.state.insert peer entry })
  else (true, { tracker with state := tracker.state.insert peer (entry ++ [timestamp]) })

def cleanup (tracker : AcceptBurstTracker Url) (now : Int) : AcceptBurstTracker Url :=
  { tracker with
    state := retainMut (fun _ timestamps =>
      let timestamps := timestamps.filter fun t => decide (t > tracker.config.burstThreshold now)
      if timestamps.isEmpty then none else some timestamps) tracker.state }

theorem kept_checkAccept_self (tracker : AcceptBurstTracker Url) (peer : Url) (timestamp now : Int) :
    (tracker.checkAccept peer timestamp now).2.kept peer =
      (tracker.kept peer).filter (fun t => decide (t > tracker.config.burstThreshold now)) ++
        if (tracker.checkAccept peer timestamp now).1 then [timestamp] else [] := by
  unfold checkAccept
  dsimp only
  split
  · simp [kept]
  · simp [kept]

theorem kept_checkAccept_of_ne (tracker : AcceptBurstTracker Url) {peer other : Url}
    (h : other ≠ peer) (timestamp now : Int) :
    (tracker.checkAccept peer timestamp now).2.kept other = tracker.kept other := by
  unfold checkAccept
  dsimp only
  split
  · simp only [kept, AList.lookup_insert_ne h]
  · simp only [kept, AList.lookup_insert_ne h]

theorem kept_cleanup (tracker : AcceptBurstTracker Url) (peer : Url) (now : Int) :
    (tracker.cleanup now).kept peer =
      (tracker.kept peer).filter fun t => decide (t > tracker.config.burstThreshold now) := by
  unfold cleanup kept
  dsimp only
  rw [lookup_retainMut]
  cases tracker.state.lookup peer with
  | none => rfl
  | some timestamps =>
      dsimp only [Option.bind_some, Option.getD_some]
      split
      · rename_i hempty
        exact (List.isEmpty_iff.mp hempty).symm
      · rfl

@[simp] theorem config_checkAccept (tracker : AcceptBurstTracker Url) (peer : Url)
    (timestamp now : Int) :
    (tracker.checkAccept peer timestamp now).2.config = tracker.config := by
  unfold checkAccept
  dsimp only
  split
  · rfl
  · rfl

/-- A call is refused when the burst is used up. -/
theorem checkAccept_fst (tracker : AcceptBurstTracker Url) (peer : Url) (timestamp now : Int) :
    (tracker.checkAccept peer timestamp now).1 =
      decide (((tracker.kept peer).filter fun t =>
        decide (t > tracker.config.burstThreshold now)).length < tracker.config.maxBurst) := by
  unfold checkAccept
  dsimp only
  split
  · rename_i hfull
    exact (decide_eq_false (Nat.not_lt.mpr hfull)).symm
  · rename_i hroom
    exact (decide_eq_true (Nat.lt_of_not_le hroom)).symm

/-- The handlers ask the tracker with one reading of the clock. -/
theorem checkAccept_run (host : Host) (peer : Url) {g : K2Gossip Url}
    {tracker : AcceptBurstTracker Url} (hconfig : g.config = tracker.config)
    (hburst : g.burst = tracker.kept) :
    Gossip.checkAccept host peer g =
      (.ok (tracker.checkAccept peer host.now host.now).1,
        { g with burst := (tracker.checkAccept peer host.now host.now).2.kept }) := by
  have hkept : (tracker.checkAccept peer host.now host.now).2.kept =
      Function.update tracker.kept peer
        ((tracker.checkAccept peer host.now host.now).2.kept peer) := by
    funext other
    by_cases h : other = peer
    · rw [h, Function.update_self]
    · rw [Function.update_of_ne h, kept_checkAccept_of_ne tracker h]
  rw [hkept, kept_checkAccept_self, checkAccept_fst, ← hconfig, ← hburst]
  unfold Gossip.checkAccept
  rw [bind_run]
  dsimp only [Eff.read]
  by_cases hfull : ((g.burst peer).filter fun t =>
      decide (t > g.config.burstThreshold host.now)).length ≥ g.config.maxBurst
  · rw [if_pos hfull, decide_eq_false (Nat.not_lt.mpr hfull), if_neg Bool.false_ne_true,
      List.append_nil]
    rfl
  · rw [if_neg hfull, decide_eq_true (Nat.lt_of_not_le hfull), if_pos rfl]
    rfl

/-! ## Runs -/

end AcceptBurstTracker

/-- What can happen to the tracker: a check that passes its own reading of the clock as timestamp, or a
pass of the cleanup task. -/
inductive BurstEvent (Url : Type) where
  | check (peer : Url) (now : Int)
  | cleanup (now : Int)
  deriving DecidableEq, Repr

namespace BurstEvent

def now : BurstEvent Url → Int
  | .check _ now => now
  | .cleanup now => now

/-- A check of the peer, or a pass of the cleanup task. -/
def concerns (peer : Url) : BurstEvent Url → Bool
  | .check other _ => other = peer
  | .cleanup _ => true

end BurstEvent

/-- The answer to one check. -/
structure BurstAnswer (Url : Type) where
  peer : Url
  now : Int
  accepted : Bool
  deriving DecidableEq, Repr

/-- The tracker and the answers it has given. -/
structure BurstRun (Url : Type) where
  tracker : AcceptBurstTracker Url
  answers : List (BurstAnswer Url)

namespace BurstRun

def start (config : K2GossipConfig) : BurstRun Url where
  tracker := .new config
  answers := []

def step (s : BurstRun Url) : BurstEvent Url → BurstRun Url
  | .check peer now =>
      { tracker := (s.tracker.checkAccept peer now now).2
        answers := s.answers ++ [⟨peer, now, (s.tracker.checkAccept peer now now).1⟩] }
  | .cleanup now => { s with tracker := s.tracker.cleanup now }

def run (config : K2GossipConfig) (events : List (BurstEvent Url)) : BurstRun Url :=
  events.foldl step (start config)

/-- The answers to the checks of one peer. -/
def answersOf (s : BurstRun Url) (peer : Url) : List (BurstAnswer Url) :=
  s.answers.filter fun a => a.peer = peer

/-- When calls of the peer were accepted. -/
def accepted (s : BurstRun Url) (peer : Url) : List Int :=
  ((s.answersOf peer).filter BurstAnswer.accepted).map BurstAnswer.now

end BurstRun

/-- The length of the window in microseconds. -/
def K2GossipConfig.burstWindow (config : K2GossipConfig) : Nat :=
  1000 * (config.initiateIntervalMs * config.initiateBurstWindowCount)

/-! ## Windows -/

/-- The times of a half-open window that includes its start. -/
def fromStart (start : Int) (window : Nat) (times : List Int) : List Int :=
  times.filter fun t => decide (start ≤ t ∧ t < start + window)

/-- The times of a half-open window that includes its end. -/
def upToEnd (stop : Int) (window : Nat) (times : List Int) : List Int :=
  times.filter fun t => decide (stop - window < t ∧ t ≤ stop)

/-- The times that are less than a window old. -/
def recent (now : Int) (window : Nat) (times : List Int) : List Int :=
  times.filter fun t => decide (t > now - window)

/-- No two of the times are a window apart. -/
def Spans (window : Nat) (p : Int → Bool) : Prop :=
  ∀ t t', p t = true → p t' = true → t' - window < t

section Windows

variable {window : Nat} {now later : Int} {times : List Int} {p : Int → Bool}

theorem spans_fromStart (start : Int) :
    Spans window fun t => decide (start ≤ t ∧ t < start + window) := by
  intro t t' ht ht'
  rw [decide_eq_true_eq] at ht ht'
  omega

theorem spans_upToEnd (stop : Int) :
    Spans window fun t => decide (stop - window < t ∧ t ≤ stop) := by
  intro t t' ht ht'
  rw [decide_eq_true_eq] at ht ht'
  omega

/-- Times that share such a stretch with a reading are recent at that reading. -/
theorem Spans.length_le (hp : Spans window p) (hnow : p now = true) :
    (times.filter p).length ≤ (recent now window times).length := by
  apply List.Sublist.length_le
  apply List.monotone_filter_right
  intro t ht
  exact decide_eq_true (hp t now ht hnow)

/-- What is recent later is among what is recent now. -/
theorem recent_recent (h : now ≤ later) :
    recent later window (recent now window times) = recent later window times := by
  unfold recent
  rw [List.filter_filter]
  refine List.filter_congr fun t _ => ?_
  rw [Bool.and_eq_left_iff_imp]
  intro ht
  rw [decide_eq_true_eq] at ht ⊢
  omega

theorem recent_append (times times' : List Int) :
    recent now window (times ++ times') = recent now window times ++ recent now window times' :=
  List.filter_append _ _

end Windows

/-! ## What the records are good for -/

namespace K2GossipConfig

variable {config : K2GossipConfig} {now : Int}

theorem burstThreshold_eq (hlate : config.burstWindow < now) (hnow : now ≤ i64Max) :
    config.burstThreshold now = now - config.burstWindow := by
  have hwindow : wrapI64 (config.burstWindow : Nat) = config.burstWindow :=
    wrapI64_of_le (by omega)
  have hrest : (now - config.burstWindow : Int) = ((now - config.burstWindow).toNat : Nat) := by
    omega
  unfold burstThreshold
  change (if now < wrapI64 (config.burstWindow : Nat) then unixTimestamp
    else wrapI64 (now - wrapI64 (config.burstWindow : Nat))) = _
  rw [hwindow, if_neg (by omega), hrest, wrapI64_of_le (by omega)]

/-- The timestamps a check or a cleanup keeps. -/
theorem filter_burstThreshold (hlate : config.burstWindow < now) (hnow : now ≤ i64Max)
    (times : List Int) :
    (times.filter fun t => decide (t > config.burstThreshold now)) =
      recent now config.burstWindow times := by
  rw [burstThreshold_eq hlate hnow]
  rfl

end K2GossipConfig

namespace BurstRun

variable {config : K2GossipConfig} {s : BurstRun Url} {peer other : Url} {now later : Int}

/-- What the tracker keeps of a peer, beside the calls of the peer that it accepted. -/
structure Records (config : K2GossipConfig) (now : Int) (peer : Url) (s : BurstRun Url) : Prop where
  config_eq : s.tracker.config = config
  kept : ∀ later ≥ now, recent later config.burstWindow (s.tracker.kept peer) =
    recent later config.burstWindow (s.accepted peer)
  past : ∀ t ∈ s.accepted peer, t ≤ now
  limit : ∀ p, Spans config.burstWindow p → ((s.accepted peer).filter p).length ≤ config.maxBurst

theorem Records.mono (h : Records config now peer s) (hle : now ≤ later) :
    Records config later peer s where
  config_eq := h.config_eq
  kept := fun t ht => h.kept t (le_trans hle ht)
  past := fun t ht => le_trans (h.past t ht) hle
  limit := h.limit

theorem records_start (config : K2GossipConfig) (now : Int) (peer : Url) :
    Records config now peer (start config) where
  config_eq := rfl
  kept := fun _ _ => rfl
  past := fun _ ht => absurd ht List.not_mem_nil
  limit := fun _ _ => Nat.zero_le _

theorem accepted_check (s : BurstRun Url) (peer other : Url) (now : Int) :
    (s.step (.check other now)).accepted peer =
      s.accepted peer ++
        if other = peer ∧ (s.tracker.checkAccept other now now).1 = true then [now] else [] := by
  have happend : (s.step (.check other now)).accepted peer = s.accepted peer ++
      (([⟨other, now, (s.tracker.checkAccept other now now).1⟩] : List (BurstAnswer Url)).filter
        (fun a => a.peer = peer) |>.filter BurstAnswer.accepted).map BurstAnswer.now := by
    simp only [step, accepted, answersOf, List.filter_append, List.map_append]
  rw [happend]
  by_cases hpeer : other = peer
  · cases haccepted : (s.tracker.checkAccept other now now).1 with
    | false => simp [hpeer]
    | true => simp [hpeer]
  · simp [hpeer]

/-- The answer to a check counts the accepted calls that are less than a window old. -/
theorem Records.answer (h : Records config now peer s) (hlate : config.burstWindow < now)
    (hnow : now ≤ i64Max) :
    (s.tracker.checkAccept peer now now).1 =
      decide ((recent now config.burstWindow (s.accepted peer)).length < config.maxBurst) := by
  rw [AcceptBurstTracker.checkAccept_fst, h.config_eq,
    K2GossipConfig.filter_burstThreshold hlate hnow, h.kept now (le_refl now)]

theorem Records.check (h : Records config now peer s) (hlate : config.burstWindow < now)
    (hnow : now ≤ i64Max) : Records config now peer (s.step (.check peer now)) := by
  have hanswer := h.answer hlate hnow
  have hkept : (s.step (.check peer now)).tracker.kept peer =
      recent now config.burstWindow (s.tracker.kept peer) ++
        if (s.tracker.checkAccept peer now now).1 then [now] else [] := by
    change (s.tracker.checkAccept peer now now).2.kept peer = _
    rw [AcceptBurstTracker.kept_checkAccept_self, h.config_eq,
      K2GossipConfig.filter_burstThreshold hlate hnow]
  have haccepted := accepted_check s peer peer now
  simp only [true_and] at haccepted
  refine ⟨?_, ?_, ?_, ?_⟩
  · exact (s.tracker.config_checkAccept peer now now).trans h.config_eq
  · intro later hlater
    rw [hkept, haccepted, recent_append, recent_append, recent_recent hlater, h.kept later hlater]
  · intro t ht
    rw [haccepted] at ht
    rcases List.mem_append.mp ht with hold | hnew
    · exact h.past t hold
    · split at hnew
      · exact le_of_eq (List.mem_singleton.mp hnew)
      · cases hnew
  · intro p hp
    rw [haccepted]
    split
    · rename_i hroom
      rw [hanswer, decide_eq_true_eq] at hroom
      rw [List.filter_append, List.length_append]
      by_cases hin : p now = true
      · -- the stretch holds the new call, so what else it holds is recent
        have hle : ((s.accepted peer).filter p).length ≤ _ := hp.length_le hin
        rw [List.filter_cons_of_pos hin, List.filter_nil, List.length_singleton]
        omega
      · rw [List.filter_cons_of_neg hin, List.filter_nil, List.length_nil]
        exact h.limit p hp
    · rw [List.append_nil]
      exact h.limit p hp

theorem Records.check_of_ne (h : Records config now peer s) (hne : peer ≠ other) :
    Records config now peer (s.step (.check other now)) := by
  have hkept : (s.step (.check other now)).tracker.kept peer = s.tracker.kept peer :=
    s.tracker.kept_checkAccept_of_ne hne now now
  have haccepted : (s.step (.check other now)).accepted peer = s.accepted peer := by
    rw [accepted_check, if_neg fun hboth => hne hboth.1.symm, List.append_nil]
  refine ⟨(s.tracker.config_checkAccept other now now).trans h.config_eq, ?_, ?_, ?_⟩
  · rw [hkept, haccepted]
    exact h.kept
  · rw [haccepted]
    exact h.past
  · rw [haccepted]
    exact h.limit

theorem Records.cleanup (h : Records config now peer s) (hlate : config.burstWindow < now)
    (hnow : now ≤ i64Max) : Records config now peer (s.step (.cleanup now)) := by
  have hkept : (s.step (.cleanup now)).tracker.kept peer =
      recent now config.burstWindow (s.tracker.kept peer) := by
    change (s.tracker.cleanup now).kept peer = _
    rw [AcceptBurstTracker.kept_cleanup, h.config_eq,
      K2GossipConfig.filter_burstThreshold hlate hnow]
  refine ⟨h.config_eq, ?_, h.past, h.limit⟩
  intro later hlater
  rw [hkept, recent_recent hlater]
  exact h.kept later hlater

theorem Records.step {e : BurstEvent Url} (h : Records config e.now peer s)
    (hlate : config.burstWindow < e.now) (hnow : e.now ≤ i64Max) :
    Records config e.now peer (s.step e) := by
  cases e with
  | check other now =>
      by_cases hne : peer = other
      · subst hne
        exact h.check hlate hnow
      · exact h.check_of_ne hne
  | cleanup now => exact h.cleanup hlate hnow

/-- The readings of the clock: never decreasing, and each more than a window after the epoch. -/
structure Readings (config : K2GossipConfig) (events : List (BurstEvent Url)) : Prop where
  order : (events.map BurstEvent.now).Pairwise (· ≤ ·)
  late : ∀ e ∈ events, config.burstWindow < e.now
  fits : ∀ e ∈ events, e.now ≤ i64Max

omit [DecidableEq Url] in
/-- Every reading of a run is at most the last one. -/
theorem Readings.before {before after : List (BurstEvent Url)} {e : BurstEvent Url}
    (h : Readings config (before ++ e :: after)) :
    Readings config before ∧ ∀ e' ∈ before, e'.now ≤ e.now := by
  have horder := h.order
  rw [List.map_append, List.pairwise_append] at horder
  refine ⟨⟨horder.1, fun e' he' => h.late e' (List.mem_append_left _ he'),
    fun e' he' => h.fits e' (List.mem_append_left _ he')⟩, ?_⟩
  intro e' he'
  exact horder.2.2 e'.now (List.mem_map_of_mem he') e.now (by simp)

/-- The records are right after every run. -/
theorem records_run (peer : Url) (events : List (BurstEvent Url)) (h : Readings config events)
    (hlast : ∀ e ∈ events, e.now ≤ now) : Records config now peer (run config events) := by
  induction events using List.reverseRecOn generalizing now with
  | nil => exact records_start config now peer
  | append_singleton events e ih =>
      rcases h.before with ⟨hbefore, hlast'⟩
      have he : e ∈ events ++ [e] := by simp
      have hrun : run config (events ++ [e]) = (run config events).step e := by
        simp only [run, List.foldl_append, List.foldl_cons, List.foldl_nil]
      rw [hrun]
      exact ((ih hbefore hlast').step (h.late e he) (h.fits e he)).mono (hlast e he)

/-! ## Other peers -/

/-- Two runs that keep the same of one peer and have given it the same answers. -/
structure SameFor (peer : Url) (s s' : BurstRun Url) : Prop where
  config : s'.tracker.config = s.tracker.config
  kept : s'.tracker.kept peer = s.tracker.kept peer
  answers : s'.answersOf peer = s.answersOf peer

theorem SameFor.step {s s' : BurstRun Url} (h : SameFor peer s s') (e : BurstEvent Url) :
    SameFor peer (s.step e) (s'.step e) := by
  cases e with
  | cleanup now =>
      refine ⟨h.config, ?_, h.answers⟩
      change (s'.tracker.cleanup now).kept peer = (s.tracker.cleanup now).kept peer
      rw [AcceptBurstTracker.kept_cleanup, AcceptBurstTracker.kept_cleanup, h.kept, h.config]
  | check other now =>
      have hconfig : (s'.step (.check other now)).tracker.config =
          (s.step (.check other now)).tracker.config :=
        (s'.tracker.config_checkAccept other now now).trans
          (h.config.trans (s.tracker.config_checkAccept other now now).symm)
      have hanswers := h.answers
      unfold answersOf at hanswers
      -- the answer is read off what is kept for the peer, so both give the same
      by_cases hne : peer = other
      · subst hne
        have hanswer : (s'.tracker.checkAccept peer now now).1 =
            (s.tracker.checkAccept peer now now).1 := by
          rw [AcceptBurstTracker.checkAccept_fst, AcceptBurstTracker.checkAccept_fst, h.kept,
            h.config]
        refine ⟨hconfig, ?_, ?_⟩
        · change (s'.tracker.checkAccept peer now now).2.kept peer =
            (s.tracker.checkAccept peer now now).2.kept peer
          rw [AcceptBurstTracker.kept_checkAccept_self, AcceptBurstTracker.kept_checkAccept_self,
            hanswer, h.kept, h.config]
        · simp only [BurstRun.step, answersOf, List.filter_append, hanswers, hanswer]
      · refine ⟨hconfig, ?_, ?_⟩
        · exact (s'.tracker.kept_checkAccept_of_ne hne now now).trans
            (h.kept.trans (s.tracker.kept_checkAccept_of_ne hne now now).symm)
        · simp [BurstRun.step, answersOf, List.filter_append, hanswers, Ne.symm hne]

/-- A check of another peer changes nothing for this one. -/
theorem SameFor.of_other {s s' : BurstRun Url} (h : SameFor peer s s') {e : BurstEvent Url}
    (he : e.concerns peer = false) : SameFor peer (s.step e) s' := by
  cases e with
  | cleanup now => cases he
  | check other now =>
      have hne : peer ≠ other := fun heq => of_decide_eq_false he heq.symm
      refine ⟨h.config.trans (s.tracker.config_checkAccept other now now).symm,
        h.kept.trans (s.tracker.kept_checkAccept_of_ne hne now now).symm, ?_⟩
      rw [h.answers]
      simp [BurstRun.step, answersOf, List.filter_append, Ne.symm hne]

theorem sameFor_foldl (peer : Url) (events : List (BurstEvent Url)) :
    ∀ s s' : BurstRun Url, SameFor peer s s' →
      SameFor peer (events.foldl step s) ((events.filter (BurstEvent.concerns peer)).foldl step s') := by
  induction events with
  | nil => exact fun _ _ h => h
  | cons e events ih =>
      intro s s' h
      cases hc : e.concerns peer with
      | true =>
          rw [List.filter_cons_of_pos hc]
          exact ih _ _ (h.step e)
      | false =>
          rw [List.filter_cons_of_neg (by simp [hc])]
          exact ih _ _ (h.of_other hc)

/-! ## The limit -/

/-- A call is refused only when the window that ends at it holds a burst of accepted calls. -/
theorem Records.refused (h : Records config now peer s) (hlate : config.burstWindow < now)
    (hnow : now ≤ i64Max) (hrefused : (s.tracker.checkAccept peer now now).1 = false) :
    (upToEnd now config.burstWindow (s.accepted peer)).length = config.maxBurst := by
  have hlimit : (upToEnd now config.burstWindow (s.accepted peer)).length ≤ config.maxBurst :=
    h.limit _ (spans_upToEnd now)
  rw [h.answer hlate hnow, decide_eq_false_iff_not] at hrefused
  have hsame : upToEnd now config.burstWindow (s.accepted peer) =
      recent now config.burstWindow (s.accepted peer) := by
    refine List.filter_congr fun t ht => ?_
    have hpast := h.past t ht
    exact decide_eq_decide.mpr (by omega)
  rw [hsame] at hlimit ⊢
  omega

/-- In any half-open window at most a burst of calls of a peer is accepted, a call is refused only when
a burst was accepted in the window that ends at it, and the answers to a peer do not depend on the calls
of others. -/
theorem burst_limit_holds (config : K2GossipConfig)
    (hburst : config.initiateBurstFactor * config.initiateBurstWindowCount < 2 ^ 32)
    (events : List (BurstEvent Url)) (hreadings : Readings config events) (peer : Url) :
    (∀ t, (fromStart t config.burstWindow ((run config events).accepted peer)).length ≤
          config.initiateBurstFactor * config.initiateBurstWindowCount ∧
        (upToEnd t config.burstWindow ((run config events).accepted peer)).length ≤
          config.initiateBurstFactor * config.initiateBurstWindowCount) ∧
      (∀ before after now, events = before ++ .check peer now :: after →
        ((run config before).tracker.checkAccept peer now now).1 = false →
        (upToEnd now config.burstWindow ((run config before).accepted peer)).length =
          config.initiateBurstFactor * config.initiateBurstWindowCount) ∧
      (run config events).answersOf peer =
        (run config (events.filter (BurstEvent.concerns peer))).answersOf peer := by
  have hmax : config.maxBurst = config.initiateBurstFactor * config.initiateBurstWindowCount :=
    Nat.mod_eq_of_lt hburst
  rw [← hmax]
  refine ⟨?_, ?_, ?_⟩
  · intro t
    -- the records are right at a reading that is no earlier than any of the run
    have hlast : ∀ e ∈ events, e.now ≤ i64Max := hreadings.fits
    have hrecords := records_run peer events hreadings hlast
    exact ⟨hrecords.limit _ (spans_fromStart t), hrecords.limit _ (spans_upToEnd t)⟩
  · rintro before after now rfl hrefused
    rcases hreadings.before with ⟨hbefore, hlast⟩
    have hmem : BurstEvent.check peer now ∈ before ++ .check peer now :: after := by simp
    exact (records_run peer before hbefore hlast).refused (hreadings.late _ hmem)
      (hreadings.fits _ hmem) hrefused
  · exact (sameFor_foldl peer events _ _ ⟨rfl, rfl, rfl⟩).answers.symm

/-- Two initiates in two windows of a millisecond each. -/
def burstOfTwo : K2GossipConfig where
  maxGossipOpBytes := 0
  maxRequestGossipOpBytes := 0
  initiateIntervalMs := 1
  initiateBurstFactor := 1
  initiateBurstWindowCount := 2
  roundTimeoutMs := 0
  maxConcurrentAcceptedRounds := 0

/-- A third call in the window is refused, a later one is accepted again. -/
def burstCalls : List (BurstEvent Bool) :=
  [.check true 3000, .check false 3100, .check true 3500, .check true 3600, .cleanup 4000,
    .check true 5400]

theorem burst_limit_holds_burstOfTwo :
    (upToEnd 3600 2000 ((run burstOfTwo (burstCalls.take 3)).accepted true)).length = 2 ∧
      ((run burstOfTwo burstCalls).answersOf true).map BurstAnswer.accepted =
        [true, true, false, true] := by
  have hreadings : Readings burstOfTwo burstCalls := ⟨by decide, by decide, by decide⟩
  have hlimit := burst_limit_holds burstOfTwo (by decide) burstCalls hreadings true
  exact ⟨hlimit.2.1 (burstCalls.take 3) (burstCalls.drop 4) 3600 rfl (by decide +kernel),
    by decide +kernel⟩

end BurstRun

end Gossip
end Kitsune2
