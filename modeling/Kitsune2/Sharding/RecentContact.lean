import Kitsune2.Lib.Runs
import Kitsune2.Sharding.Controller

/-!
# RecentContact — who has been heard from lately

For shrink decisions a holder counts only if a gossip round with it was completed lately.  A call of
`silent_peers` reads the counter of completed rounds of every peer it examines, one after another, and
then compares the numbers with those it remembers for the URLs.  Rounds are completed at any time, also
while the counters are being read, and a counter that was not raised for a day is dropped by the store
and starts again.  A reading can fail, and then counts as zero.

Beside the code's own record the state keeps, for each URL since it was first read, the rounds that were
completed and the call at which each was first visible.
-/

namespace Kitsune2
namespace Sharding

open Lib

variable {AgentId Url : Type} [DecidableEq Url]

/-! ## The counter of completed rounds -/

/-- What the store keeps under `gossip:completed_rounds`: a value and when it expires. -/
abbrev RoundCounters (Url : Type) := Url → Option (Nat × Int)

/-- 24 hours. -/
def roundsExpiry : Int := 24 * 60 * 60 * 1000000

def completedRounds (counters : RoundCounters Url) (now : Int) (peer : Url) : Option Nat :=
  match counters peer with
  | none => none
  | some (value, expiry) => if now ≤ expiry then some value else none

def incrCompletedRounds (counters : RoundCounters Url) (now : Int) (peer : Url) : RoundCounters Url :=
  let value := completedRounds counters now peer
  Function.update counters peer (some (value.getD 0 + 1, now + roundsExpiry))

/-! ## Silent peers -/

abbrev Contact (Url : Type) := Url → Option (Nat × Option Int)

/-- One agent's entry of `counts`. -/
structure RoundCount (AgentId Url : Type) where
  agent : AgentId
  url : Url
  n : Nat
  deriving DecidableEq, Repr

/-- The peers whose counters are read. -/
def examined [LinearOrder AgentId] (peers : List (AgentInfo AgentId Url)) (gone : List AgentId) :
    List (AgentId × Url) :=
  peers.filterMap fun peer =>
    if peer.isTombstone || gone.contains peer.agent then none
    else peer.url.map fun url => (peer.agent, url)

/-- The entry of a URL after a count was compared with it. -/
def heardEntry (entry : Option (Nat × Option Int)) (n : Nat) (now : Int) : Nat × Option Int :=
  let entry := entry.getD (n, none)
  if n > entry.1 then (n, some now) else entry

def isFresh (lease : Nat) (now : Int) (heard : Option Int) : Bool :=
  match heard with
  | none => false
  | some heard => decide (elapsedSince now heard < lease)

/-- One pass of the loop over the counts. -/
def hearCount (lease : Nat) (now : Int) (acc : Contact Url × List AgentId)
    (count : RoundCount AgentId Url) : Contact Url × List AgentId :=
  let entry := heardEntry (acc.1 count.url) count.n now
  (Function.update acc.1 count.url (some entry),
    if isFresh lease now entry.2 then acc.2 else acc.2 ++ [count.agent])

/-- The second half of a call: the updated record, and the silent peers. -/
def hearCounts (lease : Nat) (now : Int) (contact : Contact Url)
    (counts : List (RoundCount AgentId Url)) : Contact Url × List AgentId :=
  counts.foldl (hearCount lease now) (contact, [])

/-- With one count for each URL this is the call that a check makes. -/
theorem silentPeers_eq_hearCounts [LinearOrder AgentId] (env : Surroundings AgentId Url) (cfg : Config)
    (gone : List AgentId) (lag : Nat) (contact : Contact Url) :
    env.silentPeers cfg gone lag contact =
      hearCounts (cfg.waitFor lag) env.now contact ((examined env.peers gone).map fun p =>
        ⟨p.1, p.2, env.completedRounds p.2⟩) := by
  unfold Surroundings.silentPeers hearCounts
  rw [List.foldl_map]
  rfl

/-! ## Calls among other things -/

/-- What the peer store returns: one agent info for each agent. -/
structure PeerView (AgentId Url : Type) where
  infos : List (AgentInfo AgentId Url)
  nodup : (infos.map AgentInfo.agent).Nodup

/-- A call of `silent_peers` under way; `now` was read at the start of the check. -/
structure ContactCall (AgentId Url : Type) where
  now : Int
  lag : Nat
  unread : List (AgentId × Url)
  counts : List (RoundCount AgentId Url)
  deriving DecidableEq, Repr

structure ContactState (AgentId Url : Type) where
  clock : Int
  counters : RoundCounters Url
  contact : Contact Url
  call : Option (ContactCall AgentId Url)
  /-- For a URL that was read: the rounds completed since, each with the time of the call at which it
  was first visible. -/
  rounds : Url → Option (List (Option Int))

inductive ContactEvent (AgentId Url : Type)
  | waited (d : Nat)
  | completed (peer : Url)
  | called (peers : PeerView AgentId Url) (gone : List AgentId) (lag : Nat)
  /-- The next counter is read, if the store can read it. -/
  | read (ok : Bool)
  | answered

/-- The rounds that were not visible before are visible now. -/
def shown (now : Int) (rounds : Option (List (Option Int))) : List (Option Int) :=
  (rounds.getD []).map fun visible => some (visible.getD now)

/-- The rounds of a URL after a reading of its counter; one that fails shows none of them. -/
def seen (now : Int) (ok : Bool) (rounds : Option (List (Option Int))) : List (Option Int) :=
  if ok then shown now rounds else rounds.getD []

namespace ContactState

variable [LinearOrder AgentId]

/-- Nothing was read yet; the store may hold counters from before. -/
def initial (clock : Int) (counters : RoundCounters Url) : ContactState AgentId Url where
  clock := clock
  counters := counters
  contact := fun _ => none
  call := none
  rounds := fun _ => none

/-- The counter as it stands. -/
def count (w : ContactState AgentId Url) (peer : Url) : Nat :=
  (completedRounds w.counters w.clock peer).getD 0

/-- The counter as a call reads it. -/
def reading (w : ContactState AgentId Url) (peer : Url) (ok : Bool) : Nat :=
  if ok then w.count peer else 0

/-- What a call would answer with the counts it has read. -/
def hears (cfg : Config) (w : ContactState AgentId Url) (c : ContactCall AgentId Url) :
    Contact Url × List AgentId :=
  hearCounts (cfg.waitFor c.lag) c.now w.contact c.counts

def readNext (w : ContactState AgentId Url) (c : ContactCall AgentId Url) (ok : Bool) :
    ContactState AgentId Url :=
  match c.unread with
  | [] => w
  | (agent, url) :: unread =>
      { w with
        call := some { c with
          unread := unread
          counts := c.counts ++ [{ agent := agent, url := url, n := w.reading url ok }] }
        rounds := Function.update w.rounds url (some (seen c.now ok (w.rounds url))) }

def begin (w : ContactState AgentId Url) (peers : PeerView AgentId Url) (gone : List AgentId)
    (lag : Nat) : ContactState AgentId Url :=
  { w with
    call := some
      { now := w.clock, lag := lag, unread := examined peers.infos gone, counts := [] } }

/-- Every counter was read: the counts are compared under the lock of the record. -/
def answer (cfg : Config) (w : ContactState AgentId Url) (c : ContactCall AgentId Url) :
    ContactState AgentId Url :=
  match c.unread with
  | [] => { w with contact := (w.hears cfg c).1, call := none }
  | _ :: _ => w

def step (cfg : Config) (w : ContactState AgentId Url) :
    ContactEvent AgentId Url → ContactState AgentId Url
  | .waited d => { w with clock := w.clock + d }
  | .completed peer =>
      { w with
        counters := incrCompletedRounds w.counters w.clock peer
        -- a completed round waits for its first sighting by a call
        rounds := Function.update w.rounds peer ((w.rounds peer).map (none :: ·)) }
  | .called peers gone lag =>
      match w.call with
      | none => w.begin peers gone lag
      | some _ => w
  | .read ok =>
      match w.call with
      | none => w
      | some c => w.readNext c ok
  | .answered =>
      match w.call with
      | none => w
      | some c => w.answer cfg c

/-- A reading that fails is not the first one of its URL, unless the counter stands at zero. -/
def Founded (w : ContactState AgentId Url) (c : ContactCall AgentId Url) (ok : Bool) : Prop :=
  ok = true ∨ ∀ p ∈ c.unread.head?, (w.rounds p.2).isSome ∨ w.count p.2 = 0

instance (w : ContactState AgentId Url) (c : ContactCall AgentId Url) (ok : Bool) :
    Decidable (w.Founded c ok) :=
  inferInstanceAs (Decidable
    (ok = true ∨ ∀ p ∈ c.unread.head?, (w.rounds p.2).isSome ∨ w.count p.2 = 0))

/-- If a round with the next URL was not visible yet, its count shows it: no other agent with the URL
was read before the round in the same call, and the counter is above the number remembered. -/
def Countable (w : ContactState AgentId Url) (c : ContactCall AgentId Url) : Prop :=
  ∀ p ∈ c.unread.head?, none ∈ (w.rounds p.2).getD [] →
    p.2 ∉ c.counts.map RoundCount.url ∧ ∀ entry ∈ w.contact p.2, entry.1 < w.count p.2

instance (w : ContactState AgentId Url) (c : ContactCall AgentId Url) : Decidable (w.Countable c) :=
  inferInstanceAs (Decidable (∀ p ∈ c.unread.head?, none ∈ (w.rounds p.2).getD [] →
    p.2 ∉ c.counts.map RoundCount.url ∧ ∀ entry ∈ w.contact p.2, entry.1 < w.count p.2))

/-- No URL is first read in vain. -/
def FirstRead (w : ContactState AgentId Url) : ContactEvent AgentId Url → Prop
  | .read ok => ∀ c ∈ w.call, w.Founded c ok
  | _ => True

/-- No URL is first read in vain, and every counter that is read shows the rounds that were not
visible yet. -/
def Counted (w : ContactState AgentId Url) : ContactEvent AgentId Url → Prop
  | .read ok => ∀ c ∈ w.call, w.Founded c ok ∧ (ok = true → w.Countable c)
  | _ => True

instance (w : ContactState AgentId Url) : ∀ e, Decidable (w.Counted e)
  | .read ok => inferInstanceAs (Decidable (∀ c ∈ w.call, w.Founded c ok ∧ (ok = true → w.Countable c)))
  | .waited _ => .isTrue trivial
  | .completed _ => .isTrue trivial
  | .called _ _ _ => .isTrue trivial
  | .answered => .isTrue trivial

omit [LinearOrder AgentId] [DecidableEq Url] in
theorem Counted.firstRead {w : ContactState AgentId Url} {e : ContactEvent AgentId Url}
    (h : w.Counted e) : w.FirstRead e := by
  cases e with
  | read ok => exact fun c hc => (h c hc).1
  | waited d => trivial
  | completed peer => trivial
  | called peers gone lag => trivial
  | answered => trivial

/-- The state after the events. -/
def run (cfg : Config) (clock : Int) (counters : RoundCounters Url)
    (events : List (ContactEvent AgentId Url)) : ContactState AgentId Url :=
  events.foldl (step cfg) (initial clock counters)

end ContactState

/-- A round with the URL was completed after the URL was first read, and was first visible at a call
less than the lease ago. -/
def HeardWithin (rounds : Option (List (Option Int))) (lease : Nat) (now : Int) : Prop :=
  ∃ since, rounds = some since ∧ ∃ t, some t ∈ since ∧ elapsedSince now t < lease

/-! ## The counter over time -/

omit [DecidableEq Url] in
theorem completedRounds_getD_le {counters : RoundCounters Url} {now later : Int} (h : now ≤ later)
    (peer : Url) :
    (completedRounds counters later peer).getD 0 ≤ (completedRounds counters now peer).getD 0 := by
  unfold completedRounds
  cases counters peer with
  | none => exact le_refl _
  | some entry =>
      dsimp only
      by_cases hlater : later ≤ entry.2
      · rw [if_pos hlater, if_pos (h.trans hlater)]
      · rw [if_neg hlater]
        exact Nat.zero_le _

/-- A completed round changes no other counter. -/
theorem completedRounds_incr_of_ne {counters : RoundCounters Url} {now : Int} {peer other : Url}
    (h : other ≠ peer) :
    completedRounds (incrCompletedRounds counters now peer) now other =
      completedRounds counters now other := by
  unfold completedRounds incrCompletedRounds
  rw [Function.update_of_ne h]

/-! ## One URL -/

/-- The entry of a URL follows its rounds: what it was heard at is when a round was first visible, and
if every round was visible the counter is not above the remembered number. -/
def Follows :
    Option (Nat × Option Int) → Option (List (Option Int)) → Nat → Prop
  | none, none, _ => True
  | some (mark, heard), some since, count =>
      (∀ t, heard = some t → some t ∈ since) ∧ (none ∉ since → count ≤ mark)
  | _, _, _ => False

/-- Nothing was visible later than what the entry was heard at. -/
def Latest (entry : Option (Nat × Option Int)) (rounds : Option (List (Option Int))) : Prop :=
  ∀ mark heard since, entry = some (mark, heard) → rounds = some since →
    ∀ t, some t ∈ since → ∃ t', heard = some t' ∧ t ≤ t'

section OneUrl

variable {entry : Option (Nat × Option Int)} {rounds : Option (List (Option Int))} {count n : Nat}
  {now : Int}

theorem Follows.of_le (h : Follows entry rounds count) (hle : n ≤ count) :
    Follows entry rounds n := by
  cases entry with
  | none =>
      cases rounds with
      | none => trivial
      | some since => exact h
  | some known =>
      cases rounds with
      | none => exact h
      | some since => exact ⟨h.1, fun hall => hle.trans (h.2 hall)⟩

/-- One more round, which no call has shown. -/
theorem Follows.completed (h : Follows entry rounds count) :
    Follows entry (rounds.map (none :: ·)) n := by
  cases entry with
  | none =>
      cases rounds with
      | none => trivial
      | some since => exact h
  | some known =>
      cases rounds with
      | none => exact h
      | some since =>
          refine ⟨fun t ht => List.mem_cons_of_mem _ (h.1 t ht), ?_⟩
          intro hall
          exact absurd List.mem_cons_self hall

theorem Latest.completed (h : Latest entry rounds) : Latest entry (rounds.map (none :: ·)) := by
  intro mark heard since hentry hsince t ht
  rcases Option.map_eq_some_iff.mp hsince with ⟨before, hbefore, rfl⟩
  rcases List.mem_cons.mp ht with heq | ht
  · cases heq
  · exact h mark heard before hentry hbefore t ht

theorem some_mem_shown {t : Int} {since : List (Option Int)} :
    some t ∈ shown now (some since) ↔ some t ∈ since ∨ (t = now ∧ none ∈ since) := by
  unfold shown
  rw [Option.getD_some, List.mem_map]
  constructor
  · rintro ⟨visible, hmem, heq⟩
    cases visible with
    | none => exact Or.inr ⟨(Option.some.inj heq).symm, hmem⟩
    | some t' =>
        have hsame : t' = t := Option.some.inj heq
        subst hsame
        exact Or.inl hmem
  · rintro (hmem | ⟨rfl, hmem⟩)
    · exact ⟨some t, hmem, rfl⟩
    · exact ⟨none, hmem, rfl⟩

theorem heardEntry_of_le {known : Nat × Option Int} (h : n ≤ known.1) :
    heardEntry (some known) n now = known :=
  if_neg (not_lt.mpr h)

/-- Once every round is visible, the counter is not above the remembered number. -/
theorem Follows.count_le {known : Nat × Option Int} (h : Follows (some known) rounds count)
    (hall : none ∉ rounds.getD []) : count ≤ known.1 := by
  cases rounds with
  | none => exact h.elim
  | some since => exact h.2 hall

/-- Comparing the counter with the entry: the entry rises only if a round was not visible yet. -/
theorem Follows.read (h : Follows entry rounds n) :
    Follows (some (heardEntry entry n now)) (some (shown now rounds)) n := by
  cases entry with
  | none =>
      cases rounds with
      | none =>
          have hentry : heardEntry none n now = (n, none) := if_neg (lt_irrefl n)
          rw [hentry]
          exact ⟨nofun, fun _ => le_refl n⟩
      | some since => exact h.elim
  | some known =>
      cases rounds with
      | none => exact h.elim
      | some since =>
          by_cases hrise : n > known.1
          · have hentry : heardEntry (some known) n now = (n, some now) := if_pos hrise
            rw [hentry]
            refine ⟨?_, fun _ => le_refl n⟩
            intro t ht
            -- had every round been visible, the counter would not have risen
            have hnone : none ∈ since := by
              by_contra hall
              exact absurd (h.2 hall) (not_le.mpr hrise)
            exact some_mem_shown.mpr (Or.inr ⟨(Option.some.inj ht).symm, hnone⟩)
          · rw [heardEntry_of_le (not_lt.mp hrise)]
            refine ⟨?_, fun _ => not_lt.mp hrise⟩
            intro t ht
            exact some_mem_shown.mpr (Or.inl (h.1 t ht))

/-- A failed reading leaves the entry of a URL alone, and begins one at zero where there is none. -/
theorem Follows.failed (h : Follows entry rounds count) (hfounded : rounds.isSome ∨ count = 0) :
    Follows (some (heardEntry entry 0 now)) (some (rounds.getD [])) count := by
  cases entry with
  | none =>
      cases rounds with
      | none =>
          have hcount : count = 0 := hfounded.resolve_left (by simp)
          have hentry : heardEntry none 0 now = (0, none) := rfl
          rw [hentry]
          exact ⟨nofun, fun _ => hcount.le⟩
      | some since => exact h.elim
  | some known =>
      cases rounds with
      | none => exact h.elim
      | some since =>
          rw [heardEntry_of_le (Nat.zero_le _)]
          exact h

/-- If a round that was not visible yet raised the counter, the entry is as late as the rounds. -/
theorem Latest.read (h : Latest entry rounds) (hfollows : Follows entry rounds n)
    (hpast : ∀ t, some t ∈ rounds.getD [] → t ≤ now)
    (hcounted : none ∈ rounds.getD [] → ∀ known, entry = some known → known.1 < n) :
    Latest (some (heardEntry entry n now)) (some (shown now rounds)) := by
  intro mark heard since hentry hsince t ht
  cases hsince
  cases rounds with
  | none => exact absurd ht List.not_mem_nil
  | some since =>
      cases entry with
      | none => exact hfollows.elim
      | some known =>
          -- a round that was not visible before is so now, and the count has risen with it
          by_cases hnone : none ∈ since
          · have hrise : known.1 < n := hcounted hnone known rfl
            have hnew : heardEntry (some known) n now = (n, some now) := if_pos hrise
            rw [hnew] at hentry
            cases hentry
            refine ⟨now, rfl, ?_⟩
            rcases some_mem_shown.mp ht with hbefore | ⟨rfl, -⟩
            · exact hpast t hbefore
            · exact le_refl t
          · have hsame : heardEntry (some known) n now = known :=
              if_neg (not_lt.mpr (hfollows.2 hnone))
            rw [hsame] at hentry
            rcases some_mem_shown.mp ht with hbefore | ⟨-, hnow⟩
            · exact h mark heard since hentry rfl t hbefore
            · exact absurd hnow hnone

theorem Latest.failed (h : Latest entry rounds) (hfollows : Follows entry rounds count) :
    Latest (some (heardEntry entry 0 now)) (some (rounds.getD [])) := by
  cases entry with
  | none =>
      cases rounds with
      | none =>
          intro mark heard since _ hsince t ht
          cases hsince
          exact absurd ht List.not_mem_nil
      | some since => exact hfollows.elim
  | some known =>
      cases rounds with
      | none => exact hfollows.elim
      | some since =>
          rw [heardEntry_of_le (Nat.zero_le _)]
          exact h

/-- An entry within the lease is there for a round within the lease. -/
theorem Follows.heardWithin {lease : Nat} {known : Nat × Option Int}
    (h : Follows (some known) rounds count) (hfresh : isFresh lease now known.2 = true) :
    HeardWithin rounds lease now := by
  rcases known with ⟨mark, heard⟩
  cases rounds with
  | none => exact h.elim
  | some since =>
      cases heard with
      | none => cases hfresh
      | some t => exact ⟨since, rfl, t, h.1 t rfl, of_decide_eq_true hfresh⟩

theorem Latest.isFresh {lease : Nat} {known : Nat × Option Int} (h : Latest (some known) rounds)
    (hheard : HeardWithin rounds lease now) : isFresh lease now known.2 = true := by
  rcases hheard with ⟨since, hsince, t, ht, hlease⟩
  rcases h known.1 known.2 since rfl hsince t ht with ⟨t', ht', hle⟩
  rw [ht']
  refine decide_eq_true ?_
  unfold elapsedSince at hlease ⊢
  omega

end OneUrl

theorem HeardWithin.completed {rounds : Option (List (Option Int))} {lease : Nat} {now : Int}
    (h : HeardWithin rounds lease now) : HeardWithin (rounds.map (none :: ·)) lease now := by
  rcases h with ⟨since, rfl, t, ht, hlease⟩
  exact ⟨none :: since, rfl, t, List.mem_cons_of_mem _ ht, hlease⟩

theorem HeardWithin.shown {rounds : Option (List (Option Int))} {lease : Nat} {now reading : Int}
    (h : HeardWithin rounds lease now) : HeardWithin (some (shown reading rounds)) lease now := by
  rcases h with ⟨since, rfl, t, ht, hlease⟩
  exact ⟨_, rfl, t, some_mem_shown.mpr (Or.inl ht), hlease⟩

theorem HeardWithin.seen {rounds : Option (List (Option Int))} {lease : Nat} {now reading : Int}
    (h : HeardWithin rounds lease now) (ok : Bool) :
    HeardWithin (some (seen reading ok rounds)) lease now := by
  cases ok with
  | true => exact h.shown
  | false =>
      rcases h with ⟨since, rfl, t, ht, hlease⟩
      exact ⟨since, rfl, t, ht, hlease⟩

/-- What is visible after a reading was visible before, or is visible since this call. -/
theorem some_mem_seen {t now : Int} {ok : Bool} {rounds : Option (List (Option Int))}
    (h : some t ∈ seen now ok rounds) : some t ∈ rounds.getD [] ∨ t = now := by
  cases ok with
  | false => exact Or.inl h
  | true =>
      cases rounds with
      | none => exact absurd h List.not_mem_nil
      | some since => exact (some_mem_shown.mp h).imp id And.left

/-! ## The counts of a call -/

/-- What one count does to the record. -/
def noteCount (now : Int) (contact : Contact Url) (count : RoundCount AgentId Url) : Contact Url :=
  Function.update contact count.url (some (heardEntry (contact count.url) count.n now))

section Counts

variable {lease : Nat} {now : Int} {contact : Contact Url} {counts : List (RoundCount AgentId Url)}
  {k : RoundCount AgentId Url}

/-- The lease decides about silence, not about the record. -/
theorem hearCounts_fst :
    (hearCounts lease now contact counts).1 = counts.foldl (noteCount now) contact := by
  unfold hearCounts
  exact (List.foldl_hom Prod.fst fun _ _ => rfl).symm

theorem hearCounts_concat :
    hearCounts lease now contact (counts ++ [k]) =
      hearCount lease now (hearCounts lease now contact counts) k := by
  unfold hearCounts
  rw [List.foldl_concat]

theorem foldl_noteCount_of_notMem {url : Url} (h : url ∉ counts.map RoundCount.url) :
    counts.foldl (noteCount now) contact url = contact url := by
  induction counts generalizing contact with
  | nil => rfl
  | cons first counts ih =>
      rw [List.map_cons, List.mem_cons, not_or] at h
      rw [List.foldl_cons, ih h.2]
      exact Function.update_of_ne h.1 ..

theorem hearCount_snd {acc : Contact Url × List AgentId} :
    (hearCount lease now acc k).2 =
      if isFresh lease now (heardEntry (acc.1 k.url) k.n now).2 then acc.2 else acc.2 ++ [k.agent] :=
  rfl

end Counts

omit [DecidableEq Url] in
theorem examined_nodup [LinearOrder AgentId] {peers : List (AgentInfo AgentId Url)}
    (h : (peers.map AgentInfo.agent).Nodup) (gone : List AgentId) :
    ((examined peers gone).map Prod.fst).Nodup := by
  refine List.Nodup.sublist ?_ h
  clear h
  unfold examined
  induction peers with
  | nil => exact List.Sublist.slnil
  | cons peer peers ih =>
      rw [List.map_cons, List.filterMap_cons]
      split
      · exact ih.cons _
      · rename_i p hp
        rw [List.map_cons]
        have hagent : p.1 = peer.agent := by
          split at hp
          · cases hp
          · rcases Option.map_eq_some_iff.mp hp with ⟨url, -, rfl⟩
            rfl
        rw [hagent]
        exact ih.cons_cons _

namespace ContactState

/-! ## Every state -/

/-- The record as it will be once the counts that were read are compared. -/
def noted (w : ContactState AgentId Url) : Contact Url :=
  match w.call with
  | none => w.contact
  | some c => c.counts.foldl (noteCount c.now) w.contact

/-- Rounds were visible up to here: the call under way, or the clock. -/
def horizon (w : ContactState AgentId Url) : Int :=
  match w.call with
  | none => w.clock
  | some c => c.now

/-- What holds in every state. -/
structure Kept (cfg : Config) (w : ContactState AgentId Url) : Prop where
  follows : ∀ url, Follows (w.noted url) (w.rounds url) (w.count url)
  past : ∀ url t, some t ∈ (w.rounds url).getD [] → t ≤ w.horizon
  begun : w.horizon ≤ w.clock
  agents : ∀ c, w.call = some c → (c.counts.map RoundCount.agent ++ c.unread.map Prod.fst).Nodup
  leftOut : ∀ c, w.call = some c → ∀ k ∈ c.counts, k.agent ∉ (w.hears cfg c).2 →
    HeardWithin (w.rounds k.url) (cfg.waitFor c.lag) c.now

/-- What holds as long as every round raised the remembered number. -/
structure Exact (cfg : Config) (w : ContactState AgentId Url) : Prop where
  latest : ∀ url, Latest (w.noted url) (w.rounds url)
  silent : ∀ c, w.call = some c → ∀ a ∈ (w.hears cfg c).2, ∃ k ∈ c.counts, k.agent = a ∧
    ∃ known, w.noted k.url = some known ∧ isFresh (cfg.waitFor c.lag) c.now known.2 = false

variable {cfg : Config} {w : ContactState AgentId Url}

theorem noted_of_idle (hcall : w.call = none) : w.noted = w.contact := by
  rw [noted, hcall]

theorem noted_of_call {c : ContactCall AgentId Url} (hcall : w.call = some c) :
    w.noted = c.counts.foldl (noteCount c.now) w.contact := by
  rw [noted, hcall]

omit [DecidableEq Url] in
theorem horizon_of_call {c : ContactCall AgentId Url} (hcall : w.call = some c) :
    w.horizon = c.now := by
  rw [horizon, hcall]

theorem kept_initial (cfg : Config) (clock : Int) (counters : RoundCounters Url) :
    (initial clock counters : ContactState AgentId Url).Kept cfg where
  follows := fun _ => trivial
  past := fun _ _ ht => absurd ht List.not_mem_nil
  begun := le_refl clock
  agents := nofun
  leftOut := nofun

theorem exact_initial (cfg : Config) (clock : Int) (counters : RoundCounters Url) :
    (initial clock counters : ContactState AgentId Url).Exact cfg where
  latest := nofun
  silent := nofun

/-! ## Time and rounds -/

variable [LinearOrder AgentId]

theorem count_waited_le (w : ContactState AgentId Url) (d : Nat) (url : Url) :
    (w.step cfg (.waited d)).count url ≤ w.count url := by
  refine completedRounds_getD_le ?_ url
  exact Int.le_add_of_nonneg_right (Int.natCast_nonneg d)

theorem Kept.waited (h : w.Kept cfg) (d : Nat) : (w.step cfg (.waited d)).Kept cfg where
  follows := fun url => (h.follows url).of_le (count_waited_le w d url)
  past := by
    intro url t ht
    refine (h.past url t ht).trans ?_
    unfold horizon step
    dsimp only
    cases w.call with
    | none => exact Int.le_add_of_nonneg_right (Int.natCast_nonneg d)
    | some c => exact le_refl c.now
  begun := by
    have hbegun := h.begun
    unfold horizon step at *
    dsimp only at *
    cases hcall : w.call with
    | none => exact le_refl _
    | some c =>
        rw [hcall] at hbegun
        exact hbegun.trans (Int.le_add_of_nonneg_right (Int.natCast_nonneg d))
  agents := h.agents
  leftOut := h.leftOut

/-- A completed round changes the rounds and the counter of its own URL only. -/
theorem completed_cases (cfg : Config) (w : ContactState AgentId Url) (peer url : Url) :
    (w.step cfg (.completed peer)).rounds url = (w.rounds url).map (none :: ·) ∨
      ((w.step cfg (.completed peer)).rounds url = w.rounds url ∧
        (w.step cfg (.completed peer)).count url = w.count url) := by
  by_cases hurl : url = peer
  · subst hurl
    exact Or.inl (Function.update_self ..)
  · refine Or.inr ⟨Function.update_of_ne hurl .., ?_⟩
    exact congrArg (Option.getD · 0) (completedRounds_incr_of_ne hurl)

theorem some_mem_of_mem_completed {rounds : Option (List (Option Int))} {t : Int}
    (h : some t ∈ (rounds.map (none :: ·)).getD []) : some t ∈ rounds.getD [] := by
  cases rounds with
  | none => exact h
  | some since =>
      rcases List.mem_cons.mp h with heq | hmem
      · cases heq
      · exact hmem

theorem Kept.completed (h : w.Kept cfg) (peer : Url) : (w.step cfg (.completed peer)).Kept cfg where
  follows := by
    intro url
    rcases completed_cases cfg w peer url with hrounds | ⟨hrounds, hcount⟩
    · rw [hrounds]
      exact (h.follows url).completed
    · rw [hrounds, hcount]
      exact h.follows url
  past := by
    intro url t ht
    refine h.past url t ?_
    rcases completed_cases cfg w peer url with hrounds | ⟨hrounds, -⟩
    · rw [hrounds] at ht
      exact some_mem_of_mem_completed ht
    · rwa [hrounds] at ht
  begun := h.begun
  agents := h.agents
  leftOut := by
    intro c hcall k hk hleft
    have hbefore := h.leftOut c hcall k hk hleft
    rcases completed_cases cfg w peer k.url with hrounds | ⟨hrounds, -⟩
    · rw [hrounds]
      exact hbefore.completed
    · rwa [hrounds]

theorem Exact.completed (h : w.Exact cfg) (peer : Url) : (w.step cfg (.completed peer)).Exact cfg where
  latest := by
    intro url
    rcases completed_cases cfg w peer url with hrounds | ⟨hrounds, -⟩
    · rw [hrounds]
      exact (h.latest url).completed
    · rw [hrounds]
      exact h.latest url
  silent := h.silent

/-! ## Calls -/

theorem Kept.begin (h : w.Kept cfg) (hcall : w.call = none) (peers : PeerView AgentId Url)
    (gone : List AgentId) (lag : Nat) : (w.begin peers gone lag).Kept cfg := by
  have hnoted := noted_of_idle hcall
  have hhorizon : w.horizon = w.clock := by
    rw [horizon, hcall]
  refine ⟨?_, ?_, le_refl w.clock, ?_, ?_⟩
  · intro url
    have hfollows := h.follows url
    rwa [hnoted] at hfollows
  · intro url t ht
    exact (h.past url t ht).trans hhorizon.le
  · intro c hc
    cases hc
    exact examined_nodup peers.nodup gone
  · intro c hc k hk
    cases hc
    exact absurd hk List.not_mem_nil

theorem Exact.begin (h : w.Exact cfg) (hcall : w.call = none) (peers : PeerView AgentId Url)
    (gone : List AgentId) (lag : Nat) : (w.begin peers gone lag).Exact cfg := by
  have hnoted := noted_of_idle hcall
  refine ⟨?_, ?_⟩
  · intro url
    have hlatest := h.latest url
    rwa [hnoted] at hlatest
  · intro c hc a ha
    cases hc
    exact absurd ha List.not_mem_nil

section Call

variable {c : ContactCall AgentId Url}

omit [LinearOrder AgentId] in
/-- Comparing the counts makes the record what it was going to be. -/
theorem hears_fst (hcall : w.call = some c) : (w.hears cfg c).1 = w.noted := by
  unfold hears
  rw [hearCounts_fst, noted_of_call hcall]

omit [LinearOrder AgentId] in
theorem Kept.answer (h : w.Kept cfg) (hcall : w.call = some c) : (w.answer cfg c).Kept cfg := by
  unfold ContactState.answer
  cases c.unread with
  | cons p unread => exact h
  | nil =>
      refine ⟨?_, fun url t ht => (h.past url t ht).trans h.begun, le_refl w.clock, nofun, nofun⟩
      intro url
      have hfollows := h.follows url
      rwa [← hears_fst hcall] at hfollows

omit [LinearOrder AgentId] in
theorem Exact.answer (h : w.Exact cfg) (hcall : w.call = some c) : (w.answer cfg c).Exact cfg := by
  unfold ContactState.answer
  cases c.unread with
  | cons p unread => exact h
  | nil =>
      refine ⟨?_, nofun⟩
      intro url
      have hlatest := h.latest url
      rwa [← hears_fst hcall] at hlatest

/-! ## One more count -/

variable {agent : AgentId} {url : Url} {unread : List (AgentId × Url)} {ok : Bool}

omit [LinearOrder AgentId] in
theorem readNext_eq (hunread : c.unread = (agent, url) :: unread) :
    w.readNext c ok = { w with
      call := some { c with
        unread := unread
        counts := c.counts ++ [{ agent := agent, url := url, n := w.reading url ok }] }
      rounds := Function.update w.rounds url (some (seen c.now ok (w.rounds url))) } := by
  unfold readNext
  rw [hunread]

omit [LinearOrder AgentId] in
theorem noted_readNext (ok : Bool) (hcall : w.call = some c)
    (hunread : c.unread = (agent, url) :: unread) :
    (w.readNext c ok).noted =
      Function.update w.noted url (some (heardEntry (w.noted url) (w.reading url ok) c.now)) := by
  rw [readNext_eq hunread]
  unfold noted
  rw [hcall]
  dsimp only
  rw [List.foldl_concat]
  rfl

omit [LinearOrder AgentId] in
theorem rounds_readNext (ok : Bool) (hunread : c.unread = (agent, url) :: unread) :
    (w.readNext c ok).rounds =
      Function.update w.rounds url (some (seen c.now ok (w.rounds url))) := by
  rw [readNext_eq hunread]

omit [LinearOrder AgentId] in
theorem count_readNext (ok : Bool) (hunread : c.unread = (agent, url) :: unread) (other : Url) :
    (w.readNext c ok).count other = w.count other := by
  rw [readNext_eq hunread]
  rfl

omit [LinearOrder AgentId] in
/-- A count adds its agent to the silent ones unless the entry is fresh after it. -/
theorem hears_readNext (hcall : w.call = some c) (hunread : c.unread = (agent, url) :: unread)
    {c' : ContactCall AgentId Url} (hc' : (w.readNext c ok).call = some c') :
    ((w.readNext c ok).hears cfg c').2 =
      if isFresh (cfg.waitFor c.lag) c.now (heardEntry (w.noted url) (w.reading url ok) c.now).2 then
        (w.hears cfg c).2
      else (w.hears cfg c).2 ++ [agent] := by
  rw [readNext_eq hunread] at hc' ⊢
  cases hc'
  have hfst : (w.hears cfg c).1 = w.noted := hears_fst hcall
  unfold hears at hfst ⊢
  dsimp only at hfst ⊢
  rw [hearCounts_concat, hearCount_snd, hfst]

omit [LinearOrder AgentId] in
theorem Kept.follows_reading (h : w.Kept cfg) (hunread : c.unread = (agent, url) :: unread)
    (hfounded : w.Founded c ok) :
    Follows (some (heardEntry (w.noted url) (w.reading url ok) c.now))
      (some (seen c.now ok (w.rounds url))) (w.count url) := by
  cases ok with
  | true => exact (h.follows url).read
  | false =>
      have hhead : (agent, url) ∈ c.unread.head? := by
        rw [hunread]
        rfl
      exact (h.follows url).failed (hfounded.resolve_left Bool.false_ne_true _ hhead)

omit [LinearOrder AgentId] in
theorem Kept.readNext (h : w.Kept cfg) (hcall : w.call = some c)
    (hunread : c.unread = (agent, url) :: unread) (hfounded : w.Founded c ok) :
    (w.readNext c ok).Kept cfg := by
  have hnoted := noted_readNext ok hcall hunread
  have hrounds := w.rounds_readNext ok hunread
  have hhorizon := horizon_of_call hcall
  have hcall' : (w.readNext c ok).call = some { c with
      unread := unread
      counts := c.counts ++ [{ agent := agent, url := url, n := w.reading url ok }] } := by
    rw [readNext_eq hunread]
  have hhorizon' : (w.readNext c ok).horizon = c.now := by
    rw [horizon, hcall']
  have hclock : (w.readNext c ok).clock = w.clock := by
    rw [readNext_eq hunread]
  have hread := h.follows_reading hunread hfounded
  refine ⟨?_, ?_, ?_, ?_, ?_⟩
  · intro other
    rw [hnoted, hrounds, count_readNext ok hunread]
    by_cases hother : other = url
    · subst hother
      rw [Function.update_self, Function.update_self]
      exact hread
    · rw [Function.update_of_ne hother, Function.update_of_ne hother]
      exact h.follows other
  · intro other t ht
    rw [hhorizon', ← hhorizon]
    rw [hrounds] at ht
    by_cases hother : other = url
    · subst hother
      rw [Function.update_self, Option.getD_some] at ht
      rcases some_mem_seen ht with hbefore | rfl
      · exact h.past other t hbefore
      · exact hhorizon.ge
    · rw [Function.update_of_ne hother] at ht
      exact h.past other t ht
  · rw [hhorizon', hclock, ← hhorizon]
    exact h.begun
  · intro c' hc'
    rw [hcall'] at hc'
    cases hc'
    have hagents := h.agents c hcall
    rw [hunread, List.map_cons] at hagents
    rwa [List.map_append, List.map_singleton, List.append_assoc, List.singleton_append]
  · intro c' hc' k hk hleft
    rw [hears_readNext hcall hunread hc'] at hleft
    rw [hcall'] at hc'
    cases hc'
    dsimp only at hk ⊢
    -- what was heard before is heard with one more reading
    have hlater : HeardWithin (w.rounds k.url) (cfg.waitFor c.lag) c.now →
        HeardWithin ((w.readNext c ok).rounds k.url) (cfg.waitFor c.lag) c.now := by
      intro hbefore
      rw [hrounds]
      by_cases hother : k.url = url
      · rw [hother, Function.update_self]
        rw [hother] at hbefore
        exact hbefore.seen ok
      · rwa [Function.update_of_ne hother]
    rcases List.mem_append.mp hk with hold | hnew
    · refine hlater (h.leftOut c hcall k hold ?_)
      intro hsilent
      apply hleft
      split
      · exact hsilent
      · exact List.mem_append_left _ hsilent
    · rcases List.mem_singleton.mp hnew with rfl
      split at hleft
      · rename_i hfresh
        rw [hrounds, Function.update_self]
        exact hread.heardWithin hfresh
      · exact absurd (List.mem_append_right _ (List.mem_singleton_self _)) hleft

omit [LinearOrder AgentId] in
theorem Exact.readNext (h : w.Exact cfg) (hkept : w.Kept cfg) (hcall : w.call = some c)
    (hunread : c.unread = (agent, url) :: unread)
    (hcounted : ok = true → none ∈ (w.rounds url).getD [] → url ∉ c.counts.map RoundCount.url ∧
      ∀ entry, w.contact url = some entry → entry.1 < w.count url) :
    (w.readNext c ok).Exact cfg := by
  have hnoted := noted_readNext ok hcall hunread
  have hrounds := w.rounds_readNext ok hunread
  have hhorizon := horizon_of_call hcall
  have hcall' : (w.readNext c ok).call = some { c with
      unread := unread
      counts := c.counts ++ [{ agent := agent, url := url, n := w.reading url ok }] } := by
    rw [readNext_eq hunread]
  have hrise : ok = true → none ∈ (w.rounds url).getD [] →
      ∀ known, w.noted url = some known → known.1 < w.count url := by
    intro hok hnone known hknown
    rcases hcounted hok hnone with ⟨hfirst, hmark⟩
    refine hmark known ?_
    rwa [noted_of_call hcall, foldl_noteCount_of_notMem hfirst] at hknown
  have hlatest : Latest (some (heardEntry (w.noted url) (w.reading url ok) c.now))
      (some (seen c.now ok (w.rounds url))) := by
    cases ok with
    | false => exact (h.latest url).failed (hkept.follows url)
    | true =>
        refine (h.latest url).read (hkept.follows url) ?_ (hrise rfl)
        intro t ht
        rw [← hhorizon]
        exact hkept.past url t ht
  refine ⟨?_, ?_⟩
  · intro other
    rw [hnoted, hrounds]
    by_cases hother : other = url
    · subst hother
      rw [Function.update_self, Function.update_self]
      exact hlatest
    · rw [Function.update_of_ne hother, Function.update_of_ne hother]
      exact h.latest other
  · intro c' hc' a ha
    rw [hears_readNext hcall hunread hc'] at ha
    rw [hcall'] at hc'
    cases hc'
    dsimp only
    have hkeep : a ∈ (w.hears cfg c).2 → ∃ k ∈ c.counts, k.agent = a ∧
        ∃ known, (w.readNext c ok).noted k.url = some known ∧
          isFresh (cfg.waitFor c.lag) c.now known.2 = false := by
      intro hold
      rcases h.silent c hcall a hold with ⟨k, hk, hagent, known, hknown, hstale⟩
      refine ⟨k, hk, hagent, ?_⟩
      rw [hnoted]
      by_cases hother : k.url = url
      · refine ⟨known, ?_, hstale⟩
        rw [hother] at hknown ⊢
        have hfollows := hkept.follows url
        rw [hknown] at hfollows
        -- the URL was read before in this call, so its counter has not risen since
        have hle : w.reading url ok ≤ known.1 := by
          cases ok with
          | false => exact Nat.zero_le _
          | true =>
              refine hfollows.count_le fun hnone => ?_
              refine (hcounted rfl hnone).1 ?_
              rw [← hother]
              exact List.mem_map_of_mem hk
        rw [Function.update_self, hknown, heardEntry_of_le hle]
      · rw [Function.update_of_ne hother]
        exact ⟨known, hknown, hstale⟩
    split at ha
    · rcases hkeep ha with ⟨k, hk, hstale⟩
      exact ⟨k, List.mem_append_left _ hk, hstale⟩
    · rename_i hstale
      rcases List.mem_append.mp ha with hold | hnew
      · rcases hkeep hold with ⟨k, hk, hstale⟩
        exact ⟨k, List.mem_append_left _ hk, hstale⟩
      · refine ⟨_, List.mem_append_right _ (List.mem_singleton_self _),
          (List.mem_singleton.mp hnew).symm, _, ?_, Bool.eq_false_iff.mpr hstale⟩
        rw [hnoted, Function.update_self]

end Call

/-! ## Every run -/

theorem Kept.step (h : w.Kept cfg) (e : ContactEvent AgentId Url) (hfirst : w.FirstRead e) :
    (w.step cfg e).Kept cfg := by
  cases e with
  | waited d => exact h.waited d
  | completed peer => exact h.completed peer
  | called peers gone lag =>
      unfold ContactState.step
      cases hcall : w.call with
      | none => exact h.begin hcall peers gone lag
      | some c => exact h
  | read ok =>
      unfold ContactState.step
      cases hcall : w.call with
      | none => exact h
      | some c =>
          cases hunread : c.unread with
          | nil =>
              dsimp only
              unfold ContactState.readNext
              rw [hunread]
              exact h
          -- the only step at which a first reading matters
          | cons p unread => exact h.readNext hcall hunread (hfirst c hcall)
  | answered =>
      unfold ContactState.step
      cases hcall : w.call with
      | none => exact h
      | some c => exact h.answer hcall

theorem Exact.step (h : w.Exact cfg) (hkept : w.Kept cfg) (e : ContactEvent AgentId Url)
    (hcounted : w.Counted e) : (w.step cfg e).Exact cfg := by
  cases e with
  | waited d => exact ⟨h.latest, h.silent⟩
  | completed peer => exact h.completed peer
  | called peers gone lag =>
      unfold ContactState.step
      cases hcall : w.call with
      | none => exact h.begin hcall peers gone lag
      | some c => exact h
  | read ok =>
      unfold ContactState.step
      cases hcall : w.call with
      | none => exact h
      | some c =>
          cases hunread : c.unread with
          | nil =>
              dsimp only
              unfold ContactState.readNext
              rw [hunread]
              exact h
          | cons p unread =>
              refine h.readNext hkept hcall hunread fun hok => ?_
              exact (hcounted c hcall).2 hok p (congrArg List.head? hunread)
  | answered =>
      unfold ContactState.step
      cases hcall : w.call with
      | none => exact h
      | some c => exact h.answer hcall

theorem kept_run {clock : Int} {counters : RoundCounters Url}
    {events : List (ContactEvent AgentId Url)}
    (hfirst : Along (step cfg) FirstRead (initial clock counters) events) :
    (run cfg clock counters events).Kept cfg :=
  hfirst.invariant (kept_initial cfg clock counters) fun _ e hw hmet => hw.step e hmet

theorem exact_run {clock : Int} {counters : RoundCounters Url}
    {events : List (ContactEvent AgentId Url)}
    (hcounted : Along (step cfg) Counted (initial clock counters) events) :
    (run cfg clock counters events).Kept cfg ∧ (run cfg clock counters events).Exact cfg := by
  refine Along.invariant (I := fun w => w.Kept cfg ∧ w.Exact cfg) hcounted ?_ ?_
  · exact ⟨kept_initial cfg clock counters, exact_initial cfg clock counters⟩
  · intro w e hw hmet
    exact ⟨hw.1.step e hmet.firstRead, hw.2.step hw.1 e hmet⟩

omit [LinearOrder AgentId] in
/-- The agents a call examines have one URL each. -/
theorem Kept.url_unique {c : ContactCall AgentId Url} (h : w.Kept cfg) (hcall : w.call = some c)
    {k k' : RoundCount AgentId Url} (hk : k ∈ c.counts) (hk' : k' ∈ c.counts)
    (hagent : k.agent = k'.agent) : k = k' := by
  have hnodup : (c.counts.map RoundCount.agent).Nodup := (h.agents c hcall).of_append_left
  exact List.inj_on_of_nodup_map hnodup hk hk' hagent

omit [LinearOrder AgentId] in
/-- An agent that was examined is left out of the silent ones exactly if its URL was heard lately. -/
theorem Exact.leftOut_iff {c : ContactCall AgentId Url} (h : w.Exact cfg) (hkept : w.Kept cfg)
    (hcall : w.call = some c) {k : RoundCount AgentId Url} (hk : k ∈ c.counts) :
    k.agent ∉ (w.hears cfg c).2 ↔ HeardWithin (w.rounds k.url) (cfg.waitFor c.lag) c.now := by
  constructor
  · exact hkept.leftOut c hcall k hk
  · intro hheard hsilent
    rcases h.silent c hcall k.agent hsilent with ⟨k', hk', hagent, known, hknown, hstale⟩
    have hsame : k' = k := hkept.url_unique hcall hk' hk hagent
    subst hsame
    have hlatest := h.latest k'.url
    rw [hknown] at hlatest
    rw [hlatest.isFresh hheard] at hstale
    cases hstale

end ContactState

/-! ## The lease -/

variable [LinearOrder AgentId]

open ContactState in
/-- Whatever rounds are completed and whatever counters expire while peers are examined again and
again, and as long as no URL is first read in vain, an agent is left out of the silent peers only if a
round with its URL was completed since the URL was first read and was first visible less than the wait
ago.  As long as every counter that is read shows the rounds that were not visible yet, it is left out
exactly then, and agents sharing a URL are all left out or all silent. -/
theorem left_out_iff_heard_within (cfg : Config) (clock : Int) (counters : RoundCounters Url)
    (events : List (ContactEvent AgentId Url)) :
    ∀ c, (run cfg clock counters events).call = some c →
      (Along (step cfg) FirstRead (initial clock counters) events →
        ∀ k ∈ c.counts, k.agent ∉ ((run cfg clock counters events).hears cfg c).2 →
          HeardWithin ((run cfg clock counters events).rounds k.url) (cfg.waitFor c.lag) c.now) ∧
      (Along (step cfg) Counted (initial clock counters) events →
        (∀ k ∈ c.counts, k.agent ∉ ((run cfg clock counters events).hears cfg c).2 ↔
          HeardWithin ((run cfg clock counters events).rounds k.url) (cfg.waitFor c.lag) c.now) ∧
        ∀ k ∈ c.counts, ∀ k' ∈ c.counts, k.url = k'.url →
          (k.agent ∈ ((run cfg clock counters events).hears cfg c).2 ↔
            k'.agent ∈ ((run cfg clock counters events).hears cfg c).2)) := by
  intro c hcall
  refine ⟨fun hfirst => (kept_run hfirst).leftOut c hcall, ?_⟩
  intro hcounted
  rcases exact_run hcounted with ⟨hkept, hexact⟩
  refine ⟨fun k hk => hexact.leftOut_iff hkept hcall hk, ?_⟩
  intro k hk k' hk' hurl
  have hiff := hexact.leftOut_iff hkept hcall hk
  have hiff' := hexact.leftOut_iff hkept hcall hk'
  rw [← hurl] at hiff'
  exact not_iff_not.mp (hiff.trans hiff'.symm)

/-! ## Two agents behind one URL -/

/-- The wait is twice the lag. -/
def leaseConfig : Config where
  targetRedundancy := 1
  clampMinPeers := 0
  checkInterval := 1
  growPersistence := fun lag => lag
  shrinkPersistence := fun lag => lag
  intentWait := fun lag => 2 * lag
  intentMinWait := 0
  lagFloor := 0
  lagCeiling := 10
  agentinfoEncoding := false
  patientLowest := true
  withdrawOnStandDown := true
  requireRecentContact := true
  announceAlongside := true
  coordinatedGrowth := false
  criticalRepair := true
  pinned := false

/-- Agents 1 and 2 with the URL 7. -/
def sharedView : PeerView Nat Nat where
  infos :=
    [{ agent := 1, url := some 7, isTombstone := false, storageArc := Api.DhtArc.full },
     { agent := 2, url := some 7, isTombstone := false, storageArc := Api.DhtArc.full }]
  nodup := by decide

/-- A call that reads both counters and answers. -/
def wholeCall : List (ContactEvent Nat Nat) :=
  [.called sharedView [] 10, .read true, .read true, .answered]

/-- A round between two calls. -/
def heardEvents : List (ContactEvent Nat Nat) :=
  wholeCall ++ [.completed 7, .waited 5, .called sharedView [] 10, .read true, .read true]

def heardCall : ContactCall Nat Nat :=
  ⟨5, 10, [], [⟨1, 7, 1⟩, ⟨2, 7, 1⟩]⟩

/-- A round before a day without one, and a round after it. -/
def restartedEvents : List (ContactEvent Nat Nat) :=
  wholeCall ++ [.completed 7] ++ wholeCall ++
    [.waited 86400000001, .completed 7, .called sharedView [] 10, .read true, .read true]

def restartedCall : ContactCall Nat Nat :=
  ⟨86400000001, 10, [], [⟨1, 7, 1⟩, ⟨2, 7, 1⟩]⟩

/-- A round between the two readings of one call. -/
def splitEvents : List (ContactEvent Nat Nat) :=
  wholeCall ++ [.called sharedView [] 10, .read true, .completed 7, .read true]

def splitCall : ContactCall Nat Nat :=
  ⟨0, 10, [], [⟨1, 7, 0⟩, ⟨2, 7, 1⟩]⟩

/-- A round between two calls is heard by the second. -/
theorem left_out_iff_heard_within_shared :
    1 ∉ ((ContactState.run leaseConfig 0 (fun _ => none) heardEvents).hears leaseConfig
        heardCall).2 ↔
      HeardWithin ((ContactState.run leaseConfig 0 (fun _ => none) heardEvents).rounds 7)
        (leaseConfig.waitFor heardCall.lag) heardCall.now :=
  ((left_out_iff_heard_within leaseConfig 0 (fun _ => none) heardEvents heardCall (by decide)).2
    (by decide)).1 ⟨1, 7, 1⟩ (by decide)

/-- A counter that was dropped after a day starts again at one, which is not above the one remembered:
the peer is silent although a round with it was only just completed.  And a round that is completed
between two readings of one call is seen for one agent of the URL and not for the other. -/
theorem restarted_counter_silent :
    ((ContactState.run leaseConfig 0 (fun _ => none) restartedEvents).call = some restartedCall ∧
      1 ∈ ((ContactState.run leaseConfig 0 (fun _ => none) restartedEvents).hears leaseConfig
        restartedCall).2 ∧
      HeardWithin ((ContactState.run leaseConfig 0 (fun _ => none) restartedEvents).rounds 7)
        (leaseConfig.waitFor restartedCall.lag) restartedCall.now) ∧
    (ContactState.run leaseConfig 0 (fun _ => none) splitEvents).call = some splitCall ∧
      1 ∈ ((ContactState.run leaseConfig 0 (fun _ => none) splitEvents).hears leaseConfig
        splitCall).2 ∧
      2 ∉ ((ContactState.run leaseConfig 0 (fun _ => none) splitEvents).hears leaseConfig
        splitCall).2 := by
  refine ⟨⟨by decide, by decide, ?_⟩, by decide, by decide, by decide⟩
  exact ⟨[some 86400000001, some 0], by decide, 86400000001, by decide, by decide⟩

end Sharding
end Kitsune2
