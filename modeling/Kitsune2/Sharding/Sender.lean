import Kitsune2.Sharding.Series

/-!
# Sender — an agent keeps what it has told the others

The agent has told the others of every half it has dropped, long enough before and for long enough after,
and of the shrink that is pending.  Every turn keeps this up: a half is dropped one wait after it was
announced, a pending shrink is refreshed before it expires, and a new one is announced only when the last
half has been gone for the persistence time.
-/

namespace Kitsune2
namespace Sharding

open Api Lib
open Node (Calm)

variable {AgentId Url : Type} [DecidableEq Url]

/-- The shrink that is pending has been announced, in a series that is the last of what was said. -/
structure Promised (bound late : Nat) (agent : AgentId) (said : List (Sent AgentId))
    (declared : List Declaration) (p : PendingShrink) (first : Int)
    (pre run : List (Sent AgentId)) : Prop where
  said_eq : said = pre ++ run
  series : Series bound agent p.vacate first p.expiresAt run
  declared_before : ∀ e, declared.getLast? = some e → e.1 ≤ first
  rested : DroppedBy declared (first - bound)
  announced_before : first + p.wait ≤ p.executeAt
  ahead : p.executeAt + p.wait ≤ p.expiresAt
  long : bound + late ≤ p.wait

/-- What an agent has said and declared by `clock` fits its arc and its control. -/
structure Sender (bound late : Nat) (agent : AgentId) (home : Nat) (clock : Int)
    (lastCheck : Option Int) (said : List (Sent AgentId)) (declared : List Declaration)
    (cur : DhtArc) (ctl : AgentControl) : Prop where
  latest : ∃ s, declared.getLast? = some (s, cur)
  declared_le : ∀ e ∈ declared, e.1 ≤ clock
  said_le : ∀ m ∈ said, m.1 ≤ clock
  checked_le : ∀ c, lastCheck = some c → c ≤ clock
  honest : ∀ e e', Adjacent declared e e' → Honest bound agent home said e e'
  rested : ∀ t, (∀ c, lastCheck = some c → c - ctl.shrinkAcc ≤ t) → DroppedBy declared t
  promised : ∀ p, ctl.pending = some p → ∃ first pre run,
    Promised bound late agent said declared p first pre run

section Sender

variable {bound late : Nat} {agent : AgentId} {home : Nat} {clock : Int} {lastCheck : Option Int}
  {said : List (Sent AgentId)} {declared : List Declaration} {cur : DhtArc} {ctl ctl' : AgentControl}

/-- Time passes. -/
theorem Sender.later (h : Sender bound late agent home clock lastCheck said declared cur ctl)
    {clock' : Int} (hle : clock ≤ clock') :
    Sender bound late agent home clock' lastCheck said declared cur ctl :=
  { h with
    declared_le := fun e he => le_trans (h.declared_le e he) hle
    said_le := fun m hm => le_trans (h.said_le m hm) hle
    checked_le := fun c hc => le_trans (h.checked_le c hc) hle }

/-- The storm brake may forget the pending shrink. -/
theorem Sender.calm (h : Sender bound late agent home clock lastCheck said declared cur ctl)
    (hcalm : Calm ctl ctl') :
    Sender bound late agent home clock lastCheck said declared cur ctl' := by
  rcases hcalm with rfl | rfl
  · exact h
  · refine { h with rested := ?_, promised := ?_ }
    · intro t ht
      refine h.rested t fun c hc => ?_
      have hle := ht c hc
      simp only [Nat.cast_zero] at hle
      omega
    · intro p hp
      cases hp

/-- The arc grows. -/
theorem Sender.grown (h : Sender bound late agent home clock lastCheck said declared cur ctl)
    {arc : DhtArc} (hkeeps : Keeps cur arc) (hidle : ctl.pending = none) :
    Sender bound late agent home clock lastCheck said (declared ++ [(clock, arc)]) arc ctl := by
  rcases h.latest with ⟨s, hlatest⟩
  have hlast : ∀ e, declared.getLast? = some e → Keeps e.2 arc := by
    intro e he
    cases hlatest.symm.trans he
    exact hkeeps
  refine { h with
    latest := ⟨clock, List.getLast?_concat⟩, declared_le := ?_, honest := ?_, rested := ?_
    promised := ?_ }
  · intro e he
    rcases List.mem_append.mp he with he | he
    · exact h.declared_le e he
    · rw [List.mem_singleton.mp he]
  · intro e e' hadj
    rcases adjacent_concat hadj with hold | ⟨he, rfl⟩
    · exact h.honest e e' hold
    · exact Or.inl (hlast e he)
  · intro t ht
    exact (h.rested t ht).concat fun e he => Or.inl (hlast e he)
  · intro p hp
    cases hidle.symm.trans hp

variable {new : List (Sent AgentId)}

/-- A check in which the arc of the agent stays: what it says is said when no half that it has dropped
can still be taken for held. -/
theorem Sender.said_more (h : Sender bound late agent home clock lastCheck said declared cur ctl)
    (ctl' : AgentControl)
    (hnew : ∀ m ∈ new, m.1 = clock) (hquiet : new = [] ∨ DroppedBy declared (clock - bound))
    (hacc : ∀ c, lastCheck = some c → c - ctl.shrinkAcc ≤ clock - ctl'.shrinkAcc)
    (hpromised : ∀ p, ctl'.pending = some p → ∃ first pre run,
      Promised bound late agent (said ++ new) declared p first pre run) :
    Sender bound late agent home clock (some clock) (said ++ new) declared cur ctl' := by
  refine { h with said_le := ?_, checked_le := ?_, honest := ?_, rested := ?_, promised := hpromised }
  · intro m hm
    rcases List.mem_append.mp hm with hm | hm
    · exact h.said_le m hm
    · exact le_of_eq (hnew m hm)
  · intro c hc
    cases hc
    exact le_refl _
  · intro e e' hadj
    refine (h.honest e e' hadj).later ?_
    rcases hquiet with rfl | hquiet
    · exact Or.inr (List.forall_mem_nil _)
    · rcases hquiet e e' hadj with hkeeps | hby
      · exact Or.inl hkeeps
      · refine Or.inr fun m hm => ?_
        rw [hnew m hm]
        omega
  · intro t ht
    exact h.rested t fun c hc => le_trans (hacc c hc) (ht clock rfl)

end Sender

/-! ## One turn -/

/-- What is declared once the arc is `arc'`. -/
def redeclared (clock : Int) (arc arc' : DhtArc) (declared : List Declaration) : List Declaration :=
  if arc' = arc then declared else declared ++ [(clock, arc')]

/-- What is said about shrinks in these messages. -/
def saidNow (clock : Int) (grow : Bool) (new : List (IntentMessage AgentId)) : List (Sent AgentId) :=
  (new.filter fun msg => decide (msg.grow = grow)).map fun msg => (clock, msg)

theorem saidNow_stamp {clock : Int} {grow : Bool} {new : List (IntentMessage AgentId)} :
    ∀ m ∈ saidNow clock grow new, m.1 = clock := by
  intro m hm
  rcases List.mem_map.mp hm with ⟨msg, _, rfl⟩
  rfl

section Turn

variable {cfg : Config} {bound late : Nat} {agent : AgentId} {home : Nat} {clock : Int}
  {lastCheck : Option Int} {said : List (Sent AgentId)} {declared : List Declaration}
  {arcs arcs' : Arcs} {ctl ctl' : AgentControl} {lag elapsed : Nat}
  {new : List (IntentMessage AgentId)} {backed : PendingShrink → Prop}

/-- When a pending shrink is re-checked, its last announcement still lives for `bound`, and the last
dropped half has been gone for as long. -/
theorem Promised.at_recheck {p : PendingShrink} {first : Int} {pre run : List (Sent AgentId)}
    (h : Promised bound late agent said declared p first pre run) (hdue : p.executeAt ≤ clock)
    (hontime : clock ≤ p.executeAt + late) :
    clock + bound ≤ p.expiresAt ∧ first + bound ≤ clock ∧ DroppedBy declared (clock - bound) := by
  have hbefore := h.announced_before
  have hahead := h.ahead
  have hlong := h.long
  refine ⟨by omega, by omega, h.rested.mono ?_⟩
  omega

/-- Every turn keeps up what the agent has told the others. -/
theorem Sender.turn (h : Sender bound late agent home clock lastCheck said declared arcs.cur ctl)
    (hfits : Consistent home backed arcs ctl)
    (hslept : ∀ c, lastCheck = some c → c + elapsed ≤ clock)
    (hontime : ∀ p, ctl.pending = some p → p.executeAt ≤ clock → clock ≤ p.executeAt + late)
    (hwait : bound + late ≤ cfg.waitFor lag) (hpersists : bound ≤ cfg.shrinkPersistence lag)
    (hturn : Turn cfg agent clock lag elapsed arcs ctl arcs' ctl' new) :
    Sender bound late agent home clock (some clock) (said ++ saidNow clock false new)
      (redeclared clock arcs.cur arcs'.cur declared) arcs'.cur ctl' := by
  have hzero : ∀ c, lastCheck = some c → c - ctl.shrinkAcc ≤ clock := by
    intro c hc
    have := h.checked_le c hc
    omega
  have hgains : ctl'.shrinkAcc ≤ ctl.shrinkAcc + elapsed →
      ∀ c, lastCheck = some c → c - ctl.shrinkAcc ≤ clock - ctl'.shrinkAcc := by
    intro hacc c hc
    have := hslept c hc
    omega
  cases hturn with
  | quiet hq =>
      have hsilent : saidNow clock false new = [] := by
        refine List.map_eq_nil_iff.mpr (List.filter_eq_nil_iff.mpr fun msg hmsg => ?_)
        simp [hq.grows msg hmsg]
      rw [hsilent, hq.cur, redeclared, if_pos rfl]
      refine h.said_more _ (List.forall_mem_nil _) (Or.inl rfl) (hgains hq.acc) ?_
      intro p hp
      rw [List.append_nil]
      exact h.promised p (hq.pending.symm.trans hp)
  | @announced ctl' p msg hp hp' _ hpwait hexecute hexpires hdue hacc hmsg =>
      have hsaid : saidNow clock false [msg] = [(clock, msg)] := by
        simp [saidNow, hmsg.shrink]
      have hrested : DroppedBy declared (clock - bound) := by
        refine h.rested _ fun c hc => ?_
        have := hslept c hc
        omega
      rw [hsaid, redeclared, if_pos rfl]
      refine h.said_more _ (List.forall_mem_singleton.mpr rfl) (Or.inr hrested) (hgains hacc) ?_
      intro q hq
      cases hp'.symm.trans hq
      refine ⟨clock, said, [(clock, msg)], rfl, ?_, ?_, hrested, ?_, ?_, ?_⟩
      · rw [← hmsg.expiresAt]
        exact series_singleton hmsg.announces
      · exact fun e he => h.declared_le e (List.mem_of_getLast? he)
      · exact le_of_eq hexecute.symm
      · exact le_of_eq hexpires.symm
      · rw [hpwait]
        exact hwait
  | @kept p p' hp hdue hp' hahead =>
      have hsilent : saidNow clock false ([] : List (IntentMessage AgentId)) = [] := rfl
      rw [hsilent, redeclared, if_pos rfl]
      refine h.said_more _ (List.forall_mem_nil _) (Or.inl rfl) ?_ ?_
      · intro c hc
        have := h.checked_le c hc
        dsimp only
        omega
      · intro q hq
        cases hq
        rcases h.promised p hp with ⟨first, pre, run, hpromised⟩
        have hbefore := hpromised.announced_before
        subst hp'
        refine ⟨first, pre, run, ?_, hpromised.series, hpromised.declared_before,
          hpromised.rested, ?_, hahead, hpromised.long⟩
        · rw [List.append_nil]
          exact hpromised.said_eq
        · dsimp only
          omega
  | @refreshed p p' msg hp hdue hp' hmsg =>
      have hsaid : saidNow clock false [msg] = [(clock, msg)] := by
        simp [saidNow, hmsg.shrink]
      rcases h.promised p hp with ⟨first, pre, run, hpromised⟩
      rcases hpromised.at_recheck hdue (hontime p hp hdue) with ⟨hlives, _, hrested⟩
      rw [hsaid, redeclared, if_pos rfl]
      refine h.said_more _ (List.forall_mem_singleton.mpr rfl) (Or.inr hrested) ?_ ?_
      · intro c hc
        have := h.checked_le c hc
        dsimp only
        omega
      · intro q hq
        cases hq
        have hbefore := hpromised.announced_before
        have hannounces := hmsg.announces
        have hexpires := hmsg.expiresAt
        subst hp'
        refine ⟨first, pre, run ++ [(clock, msg)], ?_, ?_, hpromised.declared_before,
          hpromised.rested, ?_, ?_, hpromised.long⟩
        · rw [hpromised.said_eq, List.append_assoc]
        · rw [← hexpires]
          exact hpromised.series.concat hannounces hlives
        · dsimp only
          omega
        · dsimp only
          omega
  | @proceeded ctl' p level hp hdue hlevel hp' hacc =>
      have hs := hfits.shrinking p hp
      rcases h.promised p hp with ⟨first, pre, run, hpromised⟩
      rcases hpromised.at_recheck hdue (hontime p hp hdue) with ⟨hlives, hbefore, _⟩
      rw [subLevel_ok hs.level_pos] at hlevel
      cases hlevel
      have hsilent : saidNow clock false ([] : List (IntentMessage AgentId)) = [] := rfl
      have hstays := h.said_more ctl' (List.forall_mem_nil _) (Or.inl rfl)
        (by rw [hacc]; simpa using hzero) fun q hq => by cases hp'.symm.trans hq
      rw [hsilent, redeclared]
      split_ifs with hsame
      · dsimp only at hsame ⊢
        rw [hsame]
        exact hstays
      · rcases h.latest with ⟨s, hlatest⟩
        refine { hstays with
          latest := ⟨clock, List.getLast?_concat⟩, declared_le := ?_, honest := ?_, rested := ?_
          promised := ?_ }
        · intro e he
          rcases List.mem_append.mp he with he | he
          · exact h.declared_le e he
          · rw [List.mem_singleton.mp he]
        · intro e e' hadj
          rcases adjacent_concat hadj with hold | ⟨he, rfl⟩
          · exact hstays.honest e e' hold
          · -- the half that is dropped here was announced by the series of the pending shrink
            cases hlatest.symm.trans he
            refine Or.inr ⟨ctl.declaredLevel, first, p.expiresAt, pre, run, [], hs.level_pos,
              hfits.declared_le, hs.cur, ?_, ?_, ?_, hpromised.declared_before _ hlatest, hbefore,
              hlives, List.forall_mem_nil _⟩
            · dsimp only
              rw [hfits.home_eq]
            · rw [List.append_nil, List.append_nil]
              exact hpromised.said_eq
            · rw [← hs.vacate]
              exact hpromised.series
        · intro t ht
          have hle := ht clock rfl
          rw [hacc] at hle
          refine (hstays.rested t ht).concat fun e _ => Or.inr ?_
          simpa using hle
        · intro q hq
          cases hp'.symm.trans hq
  | @stoodDown ctl' p new hp hdue _ hp' hacc =>
      rcases h.promised p hp with ⟨first, pre, run, hpromised⟩
      rcases hpromised.at_recheck hdue (hontime p hp hdue) with ⟨_, _, hrested⟩
      rw [redeclared, if_pos rfl]
      refine h.said_more _ saidNow_stamp (Or.inr hrested) ?_ ?_
      · rw [hacc]
        simpa using hzero
      · intro q hq
        cases hp'.symm.trans hq

end Turn

end Sharding
end Kitsune2
