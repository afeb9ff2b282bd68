import Kitsune2.Sharding.Placed

/-!
# Series — what an agent has told the others about its shrinks

The announcements of one shrink form a series: each is sent while the one before it still has a while to
live, and the shrink happens while the last one has.  So whoever hears every message within that while
finds a live announcement from the first one on until the dropped half is known to be gone.
-/

namespace Kitsune2
namespace Sharding

open Api Lib

variable {AgentId Url : Type} [DecidableEq Url]

/-! ## Neighbours in a list -/

/-- The two are next to each other in the list. -/
def Adjacent {α : Type} (l : List α) (a b : α) : Prop :=
  ∃ i, l[i]? = some a ∧ l[i + 1]? = some b

section Adjacent

variable {α : Type} {l : List α} {a b c : α}

theorem adjacent_concat (h : Adjacent (l ++ [c]) a b) :
    Adjacent l a b ∨ (l.getLast? = some a ∧ b = c) := by
  rcases h with ⟨i, ha, hb⟩
  by_cases hi : i + 1 < l.length
  · refine Or.inl ⟨i, ?_, ?_⟩
    · rwa [List.getElem?_append_left (by omega)] at ha
    · rwa [List.getElem?_append_left hi] at hb
  · have hlen := (List.getElem?_eq_some_iff.mp hb).1
    rw [List.length_append, List.length_singleton] at hlen
    have heq : i + 1 = l.length := by omega
    rw [heq, List.getElem?_concat_length] at hb
    rw [List.getElem?_append_left (by omega)] at ha
    refine Or.inr ⟨?_, (Option.some.inj hb).symm⟩
    rw [List.getLast?_eq_getElem?, show l.length - 1 = i by omega]
    exact ha

/-- What holds at one place and not at the end stops holding at some step in between. -/
theorem exists_adjacent {P : α → Prop} {i : Nat} (hi : l[i]? = some a) (ha : P a)
    (hlast : l.getLast? = some b) (hb : ¬ P b) :
    ∃ j x y, i ≤ j ∧ l[j]? = some x ∧ l[j + 1]? = some y ∧ P x ∧ ¬ P y := by
  rw [List.getLast?_eq_getElem?] at hlast
  have hlen := (List.getElem?_eq_some_iff.mp hi).1
  obtain ⟨n, hn⟩ : ∃ n, l.length - 1 = i + n := ⟨l.length - 1 - i, by omega⟩
  rw [hn] at hlast
  clear hn
  induction n generalizing i a with
  | zero =>
      cases hi.symm.trans hlast
      exact absurd ha hb
  | succ n ih =>
      have hlt : i + 1 < l.length := by
        have := (List.getElem?_eq_some_iff.mp hlast).1
        omega
      have hnext : l[i + 1]? = some l[i + 1] := List.getElem?_eq_getElem hlt
      by_cases hp : P l[i + 1]
      · rw [show i + (n + 1) = i + 1 + n by omega] at hlast
        rcases ih hnext hp hlt hlast with ⟨j, x, y, hj, hx, hy, hpx, hpy⟩
        exact ⟨j, x, y, by omega, hx, hy, hpx, hpy⟩
      · exact ⟨i, a, _, le_refl i, hi, hnext, ha, hp⟩

end Adjacent

/-! ## Announcements -/

/-- A message with the time at which it was sent. -/
abbrev Sent (AgentId : Type) := Int × IntentMessage AgentId

/-- An arc with the time at which it was declared. -/
abbrev Declaration := Int × DhtArc

/-- The message announces that the agent will vacate this range. -/
def AnnouncesRange (agent : AgentId) (vacate : SectorRange) (msg : IntentMessage AgentId) : Prop :=
  announcement agent vacate msg.expiresAt false = some msg

theorem AnnouncesShrink.announces {agent : AgentId} {p : PendingShrink} {msg : IntentMessage AgentId}
    (h : AnnouncesShrink agent p msg) : AnnouncesRange agent p.vacate msg := by
  unfold AnnouncesRange announcement
  rw [h.range]
  rcases msg with ⟨agentId, start, stop, expiresAt, withdrawn, grow⟩
  rcases h with ⟨rfl, _, _, rfl, rfl⟩
  rfl

/-- Announcements of one shrink: the first is sent at `first`, each of the others at least `bound`
before the one before it expires, and the last one expires at `last`. -/
structure Series (bound : Nat) (agent : AgentId) (vacate : SectorRange) (first last : Int)
    (run : List (Sent AgentId)) : Prop where
  first_eq : run.head?.map Prod.fst = some first
  last_eq : (run.getLast?.map fun e => e.2.expiresAt) = some last
  announces : ∀ e ∈ run, AnnouncesRange agent vacate e.2
  linked : ∀ e e', Adjacent run e e' → e'.1 + bound ≤ e.2.expiresAt

section Series

variable {bound : Nat} {agent : AgentId} {vacate : SectorRange} {first last now : Int}
  {run : List (Sent AgentId)} {msg : IntentMessage AgentId}

theorem series_singleton (h : AnnouncesRange agent vacate msg) :
    Series bound agent vacate now msg.expiresAt [(now, msg)] := by
  refine ⟨rfl, rfl, List.forall_mem_singleton.mpr h, ?_⟩
  rintro e e' ⟨i, _, he'⟩
  cases he'

/-- A refresh is sent in time. -/
theorem Series.concat (h : Series bound agent vacate first last run)
    (hmsg : AnnouncesRange agent vacate msg)
    (hnow : now + bound ≤ last) :
    Series bound agent vacate first msg.expiresAt (run ++ [(now, msg)]) := by
  have hne : run ≠ [] := by
    rintro rfl
    cases h.first_eq
  refine ⟨?_, ?_, ?_, ?_⟩
  · rw [List.head?_append_of_ne_nil _ hne]
    exact h.first_eq
  · rw [List.getLast?_concat]
    rfl
  · intro e he
    rcases List.mem_append.mp he with he | he
    · exact h.announces e he
    · rw [List.mem_singleton.mp he]
      exact hmsg
  · intro e e' hadj
    rcases adjacent_concat hadj with hold | ⟨hlast, rfl⟩
    · exact h.linked e e' hold
    · have hexpires := h.last_eq
      rw [hlast] at hexpires
      cases hexpires
      exact hnow

end Series

/-! ## Dropped halves -/

/-- The half between two declarations was announced: since `bound` before it was dropped at least, and
to beyond `bound` after.  Nothing else is said about shrinks for as long. -/
structure Dropped (bound : Nat) (agent : AgentId) (home : Nat) (said : List (Sent AgentId))
    (e e' : Declaration) (level : Nat) (first last : Int) (pre run post : List (Sent AgentId)) :
    Prop where
  level_pos : 1 ≤ level
  level_le : level ≤ maxLevel
  before : e.2 = blockArc home level
  after : e'.2 = blockArc home (level - 1)
  said_eq : said = pre ++ run ++ post
  series : Series bound agent (vacateHalf home level) first last run
  declared_before : e.1 ≤ first
  announced_before : first + bound ≤ e'.1
  lives_on : e'.1 + bound ≤ last
  quiet : ∀ m ∈ post, e'.1 + bound ≤ m.1

/-- The second declaration has all sectors of the first, or drops a half that was announced. -/
def Honest (bound : Nat) (agent : AgentId) (home : Nat) (said : List (Sent AgentId))
    (e e' : Declaration) : Prop :=
  Keeps e.2 e'.2 ∨ ∃ level first last pre run post,
    Dropped bound agent home said e e' level first last pre run post

/-- No sectors are dropped after this time. -/
def DroppedBy (declared : List Declaration) (t : Int) : Prop :=
  ∀ e e', Adjacent declared e e' → Keeps e.2 e'.2 ∨ e'.1 ≤ t

section Honest

variable {bound : Nat} {agent : AgentId} {home : Nat} {said : List (Sent AgentId)}
  {declared : List Declaration} {now t : Int} {arc : DhtArc}

/-- What is said later does not matter. -/
theorem Honest.later {e e' : Declaration} {new : List (Sent AgentId)}
    (h : Honest bound agent home said e e')
    (hnew : Keeps e.2 e'.2 ∨ ∀ m ∈ new, e'.1 + bound ≤ m.1) :
    Honest bound agent home (said ++ new) e e' := by
  rcases h with hkeeps | ⟨level, first, last, pre, run, post, h⟩
  · exact Or.inl hkeeps
  · rcases hnew with hkeeps | hnew
    · exact Or.inl hkeeps
    · refine Or.inr ⟨level, first, last, pre, run, post ++ new, { h with said_eq := ?_, quiet := ?_ }⟩
      · rw [h.said_eq, List.append_assoc]
      · intro m hm
        rcases List.mem_append.mp hm with hm | hm
        · exact h.quiet m hm
        · exact hnew m hm

theorem DroppedBy.mono {t' : Int} (h : DroppedBy declared t) (hle : t ≤ t') :
    DroppedBy declared t' := by
  intro e e' hadj
  rcases h e e' hadj with hkeeps | hby
  · exact Or.inl hkeeps
  · exact Or.inr (le_trans hby hle)

theorem DroppedBy.concat (h : DroppedBy declared t)
    (hlast : ∀ e, declared.getLast? = some e → Keeps e.2 arc ∨ now ≤ t) :
    DroppedBy (declared ++ [(now, arc)]) t := by
  intro e e' hadj
  rcases adjacent_concat hadj with hold | ⟨hlast', rfl⟩
  · exact h e e' hold
  · exact hlast e hlast'

end Honest

end Sharding
end Kitsune2
