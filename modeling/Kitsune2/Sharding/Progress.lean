import Kitsune2.Sharding.StaleModel

/-!
# Progress — somebody leaves under the patient-lowest rule

A rule that only waits and stands down is safe for nothing.  In a run without deaths, with a copy to
spare and at least one announcement, the lowest announcer never stands down: it sees no lower racer,
and alone it may go.  Everybody else stands down as soon as its intent is seen, so the lowest
announcer is alone once the last wait is over, sees that one lag later, and leaves.
-/

namespace Kitsune2
namespace Sharding
namespace StaleModel
namespace World

open Api Lib

variable {AgentId : Type} [LinearOrder AgentId] {w : World AgentId}

/-! ## The re-check on one view -/

theorem mem_liveIntents_iff {its : Finset Nat} {e : AgentId × ShrinkIntent Unit} :
    e ∈ w.liveIntents its ↔
      ∃ j ∈ its, j < w.n ∧
        (w.ids j, { vacate := vacate, expiresAt := 3600000000, sender := none }) = e := by
  simp only [liveIntents, List.mem_map, List.mem_filter, List.mem_range, decide_eq_true_eq]
  constructor
  · rintro ⟨j, ⟨hj, hits⟩, he⟩
    exact ⟨j, hits, hj, he⟩
  · rintro ⟨j, hits, hj, he⟩
    exact ⟨j, ⟨hj, hits⟩, he⟩

theorem lowerRacer_iff {its : Finset Nat} {i : Nat} :
    lowerRacer (w.liveIntents its) (w.ids i) vacate = true ↔ ∃ j ∈ its, j < w.n ∧ j < i := by
  have hover : overlaps vacate vacate = true := by decide
  simp only [lowerRacer, List.any_eq_true, Bool.and_eq_true, decide_eq_true_eq]
  constructor
  · rintro ⟨e, he, hlt, _⟩
    rcases mem_liveIntents_iff.mp he with ⟨j, hits, hj, rfl⟩
    exact ⟨j, hits, hj, w.ids_strictMono.lt_iff_lt.mp hlt⟩
  · rintro ⟨j, hits, hj, hlt⟩
    exact ⟨_, mem_liveIntents_iff.mpr ⟨j, hits, hj, rfl⟩, w.ids_strictMono hlt, hover⟩

/-- Alone, a node goes as soon as there is a copy to spare. -/
theorem patientRecheck_alone {its : Finset Nat} {i c : Nat} (halone : ∀ j ∈ its, j = i)
    (hc : w.r ≤ c) :
    patientRecheck [c] (w.liveIntents its) (w.ids i) vacate w.r = .proceed := by
  have hnone : ∀ e ∈ w.liveIntents its, racesUs (w.ids i) vacate e = false := by
    intro e he
    rcases mem_liveIntents_iff.mp he with ⟨j, hits, _, rfl⟩
    simp [racesUs, halone j hits]
  rcases discount_spec (racesUs (w.ids i) vacate) (w.liveIntents its) [c] with ⟨hlen, hat⟩
  have hzero : discounted (racesUs (w.ids i) vacate) (w.liveIntents its) 0 = [] := by
    apply List.filter_eq_nil_iff.mpr
    intro e he
    simp [hnone e he]
  have hmin : w.r ≤ minOver (discount (racesUs (w.ids i) vacate) [c] (w.liveIntents its))
      vacate.1 vacate.2 := by
    apply (le_minOver_iff (by decide) (by rw [hlen]; exact le_refl 1)).mpr
    intro x hx
    have hx0 : x = 0 := Nat.lt_one_iff.mp hx.2
    rw [hx0, hat 0 Nat.zero_lt_one, hzero]
    exact hc
  unfold patientRecheck
  exact if_pos hmin

/-- A node that sees no lower racer does not stand down. -/
theorem patientRecheck_lowest {its : Finset Nat} {i c : Nat} (hits : its ⊆ w.full)
    (hlowest : ∀ j ∈ its, i ≤ j) (hc : w.r ≤ c) :
    patientRecheck [c] (w.liveIntents its) (w.ids i) vacate w.r ≠ .standDown := by
  by_cases halone : ∀ j ∈ its, j = i
  · rw [patientRecheck_alone halone hc]
    exact Recheck.noConfusion
  · push Not at halone
    rcases halone with ⟨j, hj, hne⟩
    have hjn : j < w.n := Finset.mem_range.mp (hits hj)
    have hlt : i < j := lt_of_le_of_ne (hlowest j hj) hne.symm
    have hlower : lowerRacer (w.liveIntents its) (w.ids i) vacate = false := by
      rw [Bool.eq_false_iff]
      intro hl
      rcases lowerRacer_iff.mp hl with ⟨k, hk, _, hki⟩
      exact absurd (hlowest k hk) (not_le.mpr hki)
    -- another racer lives, and it has a higher id
    have hhigher : ((w.liveIntents its).any fun e =>
        racesUs (w.ids i) vacate e && decide (e.1 > w.ids i)) = true := by
      rw [List.any_eq_true]
      refine ⟨_, mem_liveIntents_iff.mpr ⟨j, hj, hjn, rfl⟩, ?_⟩
      have hids : w.ids j ≠ w.ids i := fun h => hne (w.ids_strictMono.injective h)
      have hover : overlaps vacate vacate = true := by decide
      simp [racesUs, hids, hover, w.ids_strictMono hlt]
    unfold patientRecheck
    simp only [hhigher, hlower, Bool.not_false, Bool.and_self, if_true]
    split
    · exact Recheck.noConfusion
    · exact Recheck.noConfusion

/-- A node that sees a lower racer does not wait. -/
theorem patientRecheck_not_wait {its : Finset Nat} {i m : Nat} {cov : Cov} (hm : m ∈ its)
    (hmn : m < w.n) (hlt : m < i) :
    patientRecheck cov (w.liveIntents its) (w.ids i) vacate w.r ≠ .wait := by
  have hlower : lowerRacer (w.liveIntents its) (w.ids i) vacate = true :=
    lowerRacer_iff.mpr ⟨m, hm, hmn, hlt⟩
  unfold patientRecheck
  simp only [hlower, Bool.not_true, Bool.and_false, Bool.false_eq_true, if_false]
  split
  · exact Recheck.noConfusion
  · exact Recheck.noConfusion

/-! ## What one execute can do -/

/-- The view a node decides on, with the intents that count. -/
structure Reads (w : World AgentId) (lags : Nat → Nat) (t i : Nat) (st : RunState) (view : View)
    (its : Finset Nat) : Prop where
  found : w.viewAt st.history t (lags i) = .ok view
  counted : its = if w.pythonView then view.2 ∩ view.1 else view.2

/-- Without deaths an execute skips the node, or decides on one view of the past. -/
theorem execute_cases {lags : Nat → Nat} {t i : Nat} {st st' : RunState} (hrule : w.rule = .patient)
    (hdied : st.diedAt = []) (h : w.execute lags t st i = .ok st') :
    (st' = st ∧ (st.intent i ≠ some t ∨ i ∉ st.holds)) ∨
      ∃ view its, st.intent i = some t ∧ i ∈ st.holds ∧ w.Reads lags t i st view its ∧
        ((patientRecheck [(view.1.erase i).card] (w.liveIntents its) (w.ids i) vacate w.r = .wait ∧
            st' = { st with intent := Function.update st.intent i (some (t + 1)) }) ∨
          (patientRecheck [(view.1.erase i).card] (w.liveIntents its) (w.ids i) vacate w.r =
              .standDown ∧
            st' = { st with intent := Function.update st.intent i none }) ∨
          (i ∈ st'.departed ∧ st'.diedAt = [] ∧ w.r ≤ st'.holds.card)) := by
  unfold execute at h
  by_cases hskip : st.intent i ≠ some t ∨ i ∉ st.holds
  · rw [if_pos hskip] at h
    exact Or.inl ⟨(Except.ok.inj h).symm, hskip⟩
  rw [if_neg hskip] at h
  push Not at hskip
  rcases bind_eq_ok_iff.mp h with ⟨view, hview, h⟩
  refine Or.inr ⟨view, _, hskip.1, hskip.2, ⟨hview, rfl⟩, ?_⟩
  -- nobody has died, so the view is what it is
  have hdeaths : w.applyDeaths st.diedAt t view.1 = view.1 := by
    rw [hdied]
    rfl
  rw [hdeaths] at h
  simp only [decision, hrule] at h
  cases hrec : patientRecheck [(view.1.erase i).card]
      (w.liveIntents (if w.pythonView then view.2 ∩ view.1 else view.2)) (w.ids i) vacate w.r with
  | wait =>
      rw [hrec] at h
      exact Or.inl ⟨rfl, (Except.ok.inj h).symm⟩
  | standDown =>
      rw [hrec] at h
      exact Or.inr (Or.inl ⟨rfl, (Except.ok.inj h).symm⟩)
  | proceed =>
      rw [hrec] at h
      dsimp only at h
      split at h
      · cases h
      · rename_i htarget
        refine Or.inr (Or.inr ?_)
        rw [← Except.ok.inj h]
        exact ⟨Finset.mem_insert_self _ _, hdied, not_lt.mp htarget⟩

/-! ## The race -/

/-- A schedule of announcements: `m` is the lowest node that announces, at tick `a`, and nobody
announces after tick `last`. -/
structure Schedule (w : World AgentId) (ann : Nat → Option Nat) (m a last : Nat) : Prop where
  inside : m < w.n
  announces : ann m = some a
  lowest : ∀ j t, ann j = some t → j < w.n → m ≤ j
  latest : ∀ j t, ann j = some t → j < w.n → t ≤ last

/-- What has been published while nobody has left: everybody holds, the intenders announced, the
lowest of them is there from its announcement on, and alone once the last wait is over. -/
structure Published (w : World AgentId) (m a last : Nat) (history : List View) : Prop where
  full : ∀ v ∈ history, v.1 = w.full
  intenders : ∀ v ∈ history, v.2 ⊆ w.full ∧ ∀ j ∈ v.2, m ≤ j
  shown : ∀ s v, history[s]? = some v → a ≤ s → m ∈ v.2
  alone : ∀ s v, history[s]? = some v → last + w.d ≤ s → ∀ j ∈ v.2, j = m

/-- The race at tick `t`, when the first `k` nodes have had their turn and nobody has left. -/
structure Racing (w : World AgentId) (m a last t k : Nat) (st : RunState) : Prop where
  holds : st.holds = w.full
  length_history : st.history.length = t
  published : w.Published m a last st.history
  racer : ∀ j e, st.intent j = some e → j < w.n ∧ m ≤ j
  due : ∀ j e, st.intent j = some e → t ≤ e ∧ (j < k → t < e)
  soon : ∀ j e, st.intent j = some e → e ≤ last + w.d ∨ e ≤ (if j < k then t + 1 else t)
  stays : a < t → ∃ e, st.intent m = some e
  deferred : last + w.d < t → ∀ j e, st.intent j = some e → j = m
  deferring : last + w.d ≤ t → ∀ j e, st.intent j = some e → j < k → j = m
  early : t < last + w.d + w.maxLag ∨ (t = last + w.d + w.maxLag ∧ k ≤ m)

/-- Nobody has died, the target is kept, and somebody has left or the race is on. -/
structure Advancing (w : World AgentId) (m a last t k : Nat) (st : RunState) : Prop where
  nobodyDied : st.diedAt = []
  target : w.r ≤ st.holds.card
  advances : st.departed.Nonempty ∨ w.Racing m a last t k st

section Race

variable {ann : Nat → Option Nat} {lags : Nat → Nat} {m a last t k i : Nat} {st st' : RunState}
  {view : View} {its : Finset Nat}

theorem Schedule.announced_le (hs : w.Schedule ann m a last) : a ≤ last :=
  hs.latest m a hs.announces hs.inside

/-- What a node sees during the race. -/
structure Sees (w : World AgentId) (m last t lag : Nat) (view : View) (its : Finset Nat) : Prop where
  full : view.1 = w.full
  inside : its ⊆ w.full
  lowest : ∀ j ∈ its, m ≤ j
  shown : last + w.d ≤ t → m ∈ its
  alone : last + w.d + lag ≤ t → ∀ j ∈ its, j = m

theorem Racing.sees (hrace : w.Racing m a last t k st) (hs : w.Schedule ann m a last)
    (hlag : lags i ≤ w.d) (hread : w.Reads lags t i st view its) :
    w.Sees m last t (lags i) view its := by
  rcases hread with ⟨hfound, hcounted⟩
  have hle := hs.announced_le
  have hview : view.1 = w.full ∧ (view.2 ⊆ w.full ∧ ∀ j ∈ view.2, m ≤ j) ∧
      (last + w.d ≤ t → m ∈ view.2) ∧ (last + w.d + lags i ≤ t → ∀ j ∈ view.2, j = m) := by
    unfold viewAt at hfound
    by_cases hlt : lags i ≤ t
    · rw [if_pos hlt] at hfound
      cases hget : st.history[t - lags i]? with
      | none =>
          rw [hget] at hfound
          cases hfound
      | some v =>
          rw [hget] at hfound
          have hv : v = view := Except.ok.inj hfound
          subst hv
          have hmem := List.mem_of_getElem? hget
          refine ⟨hrace.published.full v hmem, hrace.published.intenders v hmem, ?_, ?_⟩
          · intro hwait
            exact hrace.published.shown _ v hget (by omega)
          · intro hwait
            exact hrace.published.alone _ v hget (by omega)
    · -- before the first tick everybody holds and nobody intends
      rw [if_neg hlt] at hfound
      have hv : (w.full, ∅) = view := Except.ok.inj hfound
      subst hv
      refine ⟨rfl, ⟨by simp, by simp⟩, ?_, by simp⟩
      intro hwait
      omega
  rcases hview with ⟨hfull, ⟨hsub, hlow⟩, hshown, halone⟩
  have hits : ∀ j, j ∈ its ↔ j ∈ view.2 := by
    intro j
    rw [hcounted]
    split
    · rw [Finset.mem_inter, hfull]
      exact ⟨fun h => h.1, fun h => ⟨h, hsub h⟩⟩
    · exact Iff.rfl
  exact ⟨hfull, fun j hj => hsub ((hits j).mp hj), fun j hj => hlow j ((hits j).mp hj),
    fun h => (hits m).mpr (hshown h), fun h j hj => halone h j ((hits j).mp hj)⟩

/-- There is a copy to spare for every viewer. -/
theorem Sees.spare (hsees : w.Sees m last t k view its) (hspare : w.r < w.n) :
    w.r ≤ (view.1.erase i).card := by
  have hcard : view.1.card = w.n := by
    rw [hsees.full]
    exact Finset.card_range w.n
  have := Finset.pred_card_le_card_erase (s := view.1) (a := i)
  omega

/-- During the race a node whose turn has come is due, once the last wait is over. -/
theorem Racing.due_now (hrace : w.Racing m a last t i st) (hwait : last + w.d ≤ t) {e : Nat}
    (he : st.intent i = some e) : e = t := by
  have hlow := (hrace.due i e he).1
  have hup := hrace.soon i e he
  rw [if_neg (lt_irrefl i)] at hup
  omega

/-- A turn that changes nothing keeps the race, if the node was not due. -/
theorem Racing.skip (hrace : w.Racing m a last t i st) (hs : w.Schedule ann m a last)
    (hpos : 1 ≤ w.maxLag) (hnot : st.intent i ≠ some t) : w.Racing m a last t (i + 1) st := by
  have hle := hs.announced_le
  have hidle : last + w.d ≤ t → st.intent i = none := by
    intro hwait
    cases he : st.intent i with
    | none => rfl
    | some e => exact absurd (hrace.due_now hwait he ▸ he) hnot
  refine { hrace with due := ?_, soon := ?_, deferring := ?_, early := ?_ }
  · intro j e he
    refine ⟨(hrace.due j e he).1, ?_⟩
    intro hj
    rcases Nat.lt_succ_iff_lt_or_eq.mp hj with hlt | heq
    · exact (hrace.due j e he).2 hlt
    · subst heq
      exact lt_of_le_of_ne (hrace.due j e he).1 (fun h => hnot (h ▸ he))
  · intro j e he
    refine (hrace.soon j e he).imp_right ?_
    intro hup
    split at hup <;> split <;> omega
  · intro hwait j e he hj
    rcases Nat.lt_succ_iff_lt_or_eq.mp hj with hlt | heq
    · exact hrace.deferring hwait j e he hlt
    · rw [heq, hidle hwait] at he
      cases he
  · rcases hrace.early with hlt | ⟨heq, him⟩
    · exact Or.inl hlt
    · refine Or.inr ⟨heq, lt_of_le_of_ne him ?_⟩
      rintro rfl
      -- the lowest racer is still there, so it was due
      rcases hrace.stays (by omega) with ⟨e, he⟩
      rw [hidle (by omega)] at he
      cases he

/-- A node that waits stays in the race, if it is the lowest racer or has not seen it yet. -/
theorem Racing.wait (hrace : w.Racing m a last t i st) (hdue : st.intent i = some t)
    (hlowest : last + w.d ≤ t → i = m) (hseen : i = m → t < last + w.d + w.maxLag) :
    w.Racing m a last t (i + 1) { st with intent := Function.update st.intent i (some (t + 1)) } := by
  have hold : ∀ {j e}, Function.update st.intent i (some (t + 1)) j = some e → j ≠ i →
      st.intent j = some e := by
    intro j e he hne
    rwa [Function.update_of_ne hne] at he
  -- only the due time of this node changes, to the next tick
  have hnew : ∀ {e}, Function.update st.intent i (some (t + 1)) i = some e → e = t + 1 := by
    intro e he
    rw [Function.update_self] at he
    exact (Option.some.inj he).symm
  refine ⟨hrace.holds, hrace.length_history, hrace.published, ?_, ?_, ?_, ?_, ?_, ?_, ?_⟩
  · intro j e he
    by_cases hne : j = i
    · subst hne
      exact hrace.racer j t hdue
    · exact hrace.racer j e (hold he hne)
  · intro j e he
    by_cases hne : j = i
    · subst hne
      rw [hnew he]
      exact ⟨Nat.le_succ t, fun _ => Nat.lt_succ_self t⟩
    · have h := hrace.due j e (hold he hne)
      exact ⟨h.1, fun hj => h.2 (by omega)⟩
  · intro j e he
    by_cases hne : j = i
    · subst hne
      rw [hnew he, if_pos (Nat.lt_succ_self j)]
      exact Or.inr (le_refl _)
    · refine (hrace.soon j e (hold he hne)).imp_right ?_
      intro hup
      split at hup <;> split <;> omega
  · intro ha
    by_cases hne : m = i
    · subst hne
      exact ⟨t + 1, Function.update_self _ _ _⟩
    · rcases hrace.stays ha with ⟨e, he⟩
      exact ⟨e, (Function.update_of_ne hne _ _).trans he⟩
  · intro hlate j e he
    by_cases hne : j = i
    · subst hne
      exact hrace.deferred hlate j t hdue
    · exact hrace.deferred hlate j e (hold he hne)
  · intro hwait j e he hj
    by_cases hne : j = i
    · exact hne.trans (hlowest hwait)
    · exact hrace.deferring hwait j e (hold he hne) (by omega)
  · rcases hrace.early with hlt | ⟨heq, him⟩
    · exact Or.inl hlt
    · have hne : i ≠ m := fun h => absurd (hseen h) (by omega)
      exact Or.inr ⟨heq, lt_of_le_of_ne him hne⟩

/-- The race goes on when a node other than the lowest racer stands down. -/
theorem Racing.standDown (hrace : w.Racing m a last t i st) (hne : i ≠ m) :
    w.Racing m a last t (i + 1) { st with intent := Function.update st.intent i none } := by
  -- only the entry of `i` is gone
  have hold : ∀ {j e}, Function.update st.intent i none j = some e →
      st.intent j = some e ∧ j ≠ i := by
    intro j e he
    by_cases heq : j = i
    · rw [heq, Function.update_self] at he
      cases he
    · rw [Function.update_of_ne heq] at he
      exact ⟨he, heq⟩
  refine ⟨hrace.holds, hrace.length_history, hrace.published, ?_, ?_, ?_, ?_, ?_, ?_, ?_⟩
  · intro j e he
    exact hrace.racer j e (hold he).1
  · intro j e he
    have h := hrace.due j e (hold he).1
    exact ⟨h.1, fun hj => h.2 (by have := (hold he).2; omega)⟩
  · intro j e he
    refine (hrace.soon j e (hold he).1).imp_right ?_
    intro hup
    split at hup <;> split <;> omega
  · intro ha
    rcases hrace.stays ha with ⟨e, he⟩
    exact ⟨e, (Function.update_of_ne hne.symm _ _).trans he⟩
  · intro hlate j e he
    exact hrace.deferred hlate j e (hold he).1
  · intro hwait j e he hj
    exact hrace.deferring hwait j e (hold he).1 (by have := (hold he).2; omega)
  · rcases hrace.early with hlt | ⟨heq, him⟩
    · exact Or.inl hlt
    · exact Or.inr ⟨heq, lt_of_le_of_ne him hne⟩

/-! ## One tick -/

/-- One turn of the execute phase. -/
theorem Advancing.execute (hadv : w.Advancing m a last t i st) (hs : w.Schedule ann m a last)
    (hrule : w.rule = .patient) (hspare : w.r < w.n) (hd : w.maxLag ≤ w.d) (hi : i < w.n)
    (hpos : 1 ≤ lags i) (hlag : lags i ≤ w.maxLag) (h : w.execute lags t st i = .ok st') :
    w.Advancing m a last t (i + 1) st' := by
  rcases hadv with ⟨hdied, htarget, hadvances⟩
  rcases execute_cases hrule hdied h with ⟨rfl, hskip⟩ | ⟨view, its, hdue, hholds, hread, hcase⟩
  · refine ⟨hdied, htarget, hadvances.imp_right ?_⟩
    intro hrace
    have hmem : i ∈ st'.holds := by
      rw [hrace.holds]
      exact Finset.mem_range.mpr hi
    exact hrace.skip hs (by omega) (hskip.resolve_right (fun hout => hout hmem))
  rcases hcase with ⟨hrec, rfl⟩ | ⟨hrec, rfl⟩ | ⟨hleft, hdied', htarget'⟩
  · refine ⟨hdied, htarget, hadvances.imp_right ?_⟩
    intro hrace
    have hsees := hrace.sees hs (le_trans hlag hd) hread
    have hmi : m ≤ i := (hrace.racer i t hdue).2
    refine hrace.wait hdue ?_ ?_
    · intro hwait
      by_contra hne
      exact patientRecheck_not_wait (hsees.shown hwait) hs.inside
        (lt_of_le_of_ne hmi (fun h => hne h.symm)) hrec
    · -- the lowest racer, alone in its view, would go
      intro him
      by_contra hlate
      have halone := hsees.alone (by omega)
      rw [← him] at halone
      rw [patientRecheck_alone halone (hsees.spare hspare)] at hrec
      cases hrec
  · refine ⟨hdied, htarget, hadvances.imp_right ?_⟩
    intro hrace
    have hsees := hrace.sees hs (le_trans hlag hd) hread
    refine hrace.standDown ?_
    rintro rfl
    exact patientRecheck_lowest hsees.inside hsees.lowest (hsees.spare hspare) hrec
  · exact ⟨hdied', htarget', Or.inl ⟨i, hleft⟩⟩

/-- An intent after the announcements of tick `t`. -/
theorem intent_announce {j e : Nat} (h : (w.announce ann t st).intent j = some e) :
    st.intent j = some e ∨ (j < w.n ∧ ann j = some t ∧ e = t + w.d) := by
  simp only [announce] at h
  split at h
  · rename_i hcond
    exact Or.inr ⟨hcond.1, hcond.2.1, (Option.some.inj h).symm⟩
  · exact Or.inl h

/-- The announcements and the publication of a tick, when all nodes have had their turn. -/
theorem Racing.publish (hrace : w.Racing m a last t w.n st) (hs : w.Schedule ann m a last)
    (hd : 1 ≤ w.d) (hstay : st.departed = ∅) :
    w.Racing m a last (t + 1) 0 (w.publish (w.announce ann t st)) := by
  have hle := hs.announced_le
  -- the lowest racer has an intent from its announcement on
  have hthere : a ≤ t → ∃ e, (w.announce ann t st).intent m = some e := by
    intro hat
    simp only [announce]
    split
    · exact ⟨_, rfl⟩
    · rename_i hcond
      rcases Nat.lt_or_eq_of_le hat with hlt | heq
      · exact hrace.stays hlt
      · cases he : st.intent m with
        | some e => exact ⟨e, rfl⟩
        | none =>
            refine absurd ⟨hs.inside, heq ▸ hs.announces, ?_, he, ?_⟩ hcond
            · rw [hrace.holds]
              exact Finset.mem_range.mpr hs.inside
            · rw [hstay]
              exact Finset.notMem_empty m
  -- nobody else has one once the last wait is over
  have halone : last + w.d ≤ t → ∀ j e, (w.announce ann t st).intent j = some e → j = m := by
    intro hwait j e he
    rcases intent_announce he with hold | ⟨hj, hann, _⟩
    · exact hrace.deferring hwait j e hold (hrace.racer j e hold).1
    · have := hs.latest j t hann hj
      omega
  have hracer : ∀ j e, (w.announce ann t st).intent j = some e → j < w.n ∧ m ≤ j := by
    intro j e he
    rcases intent_announce he with hold | ⟨hj, hann, _⟩
    · exact hrace.racer j e hold
    · exact ⟨hj, hs.lowest j t hann hj⟩
  have hlast : ∀ s v, (w.publish (w.announce ann t st)).history[s]? = some v →
      st.history[s]? = some v ∨ (s = t ∧ v = ((w.announce ann t st).holds,
        w.full.filter fun j => ((w.announce ann t st).intent j).isSome)) := by
    intro s v hv
    have hlen : st.history.length = t := hrace.length_history
    simp only [World.publish, announce, List.getElem?_append, hlen] at hv
    split at hv
    · exact Or.inl hv
    · rename_i hge
      rcases List.getElem?_eq_some_iff.mp hv with ⟨hlt, hget⟩
      have hst : s = t := by
        rw [List.length_singleton] at hlt
        omega
      subst hst
      simp only [Nat.sub_self, List.getElem_cons_zero] at hget
      exact Or.inr ⟨rfl, hget.symm⟩
  refine ⟨hrace.holds, ?_, ⟨?_, ?_, ?_, ?_⟩, hracer, ?_, ?_, ?_, ?_, ?_, ?_⟩
  · simp [World.publish, announce, hrace.length_history]
  · intro v hv
    rcases List.mem_iff_getElem?.mp hv with ⟨s, hs'⟩
    rcases hlast s v hs' with hold | ⟨_, rfl⟩
    · exact hrace.published.full v (List.mem_of_getElem? hold)
    · exact hrace.holds
  · intro v hv
    rcases List.mem_iff_getElem?.mp hv with ⟨s, hs'⟩
    rcases hlast s v hs' with hold | ⟨_, rfl⟩
    · exact hrace.published.intenders v (List.mem_of_getElem? hold)
    · refine ⟨Finset.filter_subset _ _, ?_⟩
      intro j hj
      rcases Option.isSome_iff_exists.mp (Finset.mem_filter.mp hj).2 with ⟨e, he⟩
      exact (hracer j e he).2
  · intro s v hv hat
    rcases hlast s v hv with hold | ⟨rfl, rfl⟩
    · exact hrace.published.shown s v hold hat
    · rcases hthere hat with ⟨e, he⟩
      exact Finset.mem_filter.mpr ⟨Finset.mem_range.mpr hs.inside, by rw [he]; rfl⟩
  · intro s v hv hwait j hj
    rcases hlast s v hv with hold | ⟨rfl, rfl⟩
    · exact hrace.published.alone s v hold hwait j hj
    · rcases Option.isSome_iff_exists.mp (Finset.mem_filter.mp hj).2 with ⟨e, he⟩
      exact halone hwait j e he
  · intro j e he
    refine ⟨?_, fun hj => absurd hj (Nat.not_lt_zero j)⟩
    rcases intent_announce he with hold | ⟨_, _, rfl⟩
    · exact (hrace.due j e hold).2 (hrace.racer j e hold).1
    · omega
  · intro j e he
    rw [if_neg (Nat.not_lt_zero j)]
    rcases intent_announce he with hold | ⟨hj, hann, rfl⟩
    · refine (hrace.soon j e hold).imp_right ?_
      intro hup
      split at hup <;> omega
    · have := hs.latest j t hann hj
      omega
  · intro hat
    exact hthere (by omega)
  · intro hlate
    exact halone (by omega)
  · intro _ j e _ hj
    exact absurd hj (Nat.not_lt_zero j)
  · have hin := hs.inside
    rcases hrace.early with hlt | ⟨_, hnm⟩
    · omega
    · omega

/-- One tick of the race. -/
theorem Advancing.tick (hadv : w.Advancing m a last t 0 st) (hinv : w.Inv t st)
    (hs : w.Schedule ann m a last) (hrule : w.rule = .patient) (hspare : w.r < w.n)
    (hd : w.maxLag ≤ w.d) (hlags : ∀ i, i < w.n → 1 ≤ lags i ∧ lags i ≤ w.maxLag) :
    ∃ st', w.tick ann lags [] st t = .ok st' ∧ w.Advancing m a last (t + 1) 0 st' ∧
      w.Inv (t + 1) st' := by
  have hloop := foldlM_range_ok_of_lt (f := w.execute lags t) (s := st)
    (I := fun i st => w.Advancing m a last t i st ∧ w.Inv t st) ⟨hadv, hinv⟩ w.n (by
      intro i st hi hst
      rcases hlags i hi with ⟨hpos, hlag⟩
      rcases execute_ok hrule (Or.inr hst.1.nobodyDied) hpos (le_trans hlag hd) hst.2
        with ⟨st', hok, hinv'⟩
      exact ⟨st', hok, hst.1.execute hs hrule hspare hd hi hpos hlag hok, hinv'⟩)
  rcases hloop with ⟨st', hst', hadv', hinv'⟩
  have hd1 : 1 ≤ w.d := by
    have := hlags m hs.inside
    omega
  refine ⟨w.publish (w.announce ann t st'), bind_eq_ok_iff.mpr ⟨st', hst', rfl⟩,
    ⟨hadv'.nobodyDied, hadv'.target, ?_⟩, inv_publish (inv_announce ann hinv')⟩
  by_cases hleft : st'.departed.Nonempty
  · exact Or.inl hleft
  · have hrace := hadv'.advances.resolve_left hleft
    exact Or.inr (hrace.publish hs hd1 (Finset.not_nonempty_iff_eq_empty.mp hleft))

theorem advancing_start (hspare : w.r < w.n) (hpos : 1 ≤ w.maxLag) :
    w.Advancing m a last 0 0 w.start := by
  have hcard : w.full.card = w.n := Finset.card_range w.n
  refine ⟨rfl, ?_, Or.inr ⟨rfl, rfl, ⟨by simp [start], by simp [start], by simp [start],
    by simp [start]⟩, by simp [start], by simp [start], by simp [start], by simp, by simp [start],
    by simp [start], Or.inl (by omega)⟩⟩
  show w.r ≤ w.full.card
  omega

end Race

/-! ## A whole run -/

/-- The tick of the last announcement, as `run` computes it for its horizon. -/
def lastAnnouncement (w : World AgentId) (ann : Nat → Option Nat) : Nat :=
  ((List.range w.n).filterMap ann).foldl max 0

theorem le_lastAnnouncement {ann : Nat → Option Nat} {j t : Nat} (hj : j < w.n)
    (hann : ann j = some t) : t ≤ w.lastAnnouncement ann := by
  have hmem : t ∈ (List.range w.n).filterMap ann :=
    List.mem_filterMap.mpr ⟨j, List.mem_range.mpr hj, hann⟩
  have hfold : ∀ (l : List Nat) (b : Nat), t ∈ l ∨ t ≤ b → t ≤ l.foldl max b := by
    intro l
    induction l with
    | nil =>
        intro b h
        exact h.resolve_left List.not_mem_nil
    | cons x l ih =>
        intro b h
        apply ih
        rcases h with hmem | hle
        · rcases List.mem_cons.mp hmem with rfl | htail
          · exact Or.inr (le_max_right b t)
          · exact Or.inl htail
        · exact Or.inr (le_trans hle (le_max_left b x))
  exact hfold _ 0 (Or.inl hmem)

/-- Some node announces, so there is a lowest one that does. -/
theorem exists_schedule {ann : Nat → Option Nat} (h : ∃ i < w.n, ∃ t, ann i = some t) :
    ∃ m a, w.Schedule ann m a (w.lastAnnouncement ann) := by
  classical
  rcases Nat.find_spec h with ⟨hm, a, ha⟩
  refine ⟨Nat.find h, a, hm, ha, ?_, ?_⟩
  · intro j t hann hj
    exact Nat.find_min' h ⟨hj, t, hann⟩
  · intro j t hann hj
    exact le_lastAnnouncement hj hann

/-- In a run of the patient-lowest rule without deaths, with more holders than the target and at
least one announcement, the target is kept at every tick, and somebody has left once the last wait
and one lag have passed, so by the end of the run. -/
theorem patient_run_progresses (w : World AgentId) (hrule : w.rule = .patient)
    (hd : w.maxLag ≤ w.d) (hspare : w.r < w.n) (ann : Nat → Option Nat) (lags : Nat → Nat)
    (hlags : ∀ i, i < w.n → 1 ≤ lags i ∧ lags i ≤ w.maxLag)
    (hann : ∃ i < w.n, ∃ t, ann i = some t) :
    (∃ o, w.run ann lags [] = .ok o ∧ o.violation = none ∧ 1 ≤ o.departed) ∧
      ∀ horizon, ∃ st, (List.range horizon).foldlM (w.tick ann lags []) w.start = .ok st ∧
        w.r ≤ st.holds.card ∧
        (w.lastAnnouncement ann + w.d + w.maxLag < horizon → st.departed.Nonempty) := by
  rcases exists_schedule hann with ⟨m, a, hs⟩
  have hpos : 1 ≤ w.maxLag := by
    have := hlags m hs.inside
    omega
  have hto : ∀ horizon, ∃ st, (List.range horizon).foldlM (w.tick ann lags []) w.start = .ok st ∧
      w.r ≤ st.holds.card ∧
      (w.lastAnnouncement ann + w.d + w.maxLag < horizon → st.departed.Nonempty) := by
    intro horizon
    have hloop := foldlM_range_ok (f := w.tick ann lags []) (s := w.start)
      (I := fun t st => w.Advancing m a (w.lastAnnouncement ann) t 0 st ∧ w.Inv t st)
      ⟨advancing_start hspare hpos, inv_start⟩ (by
        intro t st hst
        rcases hst.1.tick hst.2 hs hrule hspare hd hlags with ⟨st', hok, hadv, hinv⟩
        exact ⟨st', hok, hadv, hinv⟩) horizon
    rcases hloop with ⟨st, hok, hadv, _⟩
    refine ⟨st, hok, hadv.target, ?_⟩
    intro hlate
    refine hadv.advances.resolve_right ?_
    intro hrace
    -- a race that is still on has not reached the bound
    rcases hrace.early with hlt | ⟨heq, _⟩
    · omega
    · omega
  refine ⟨?_, hto⟩
  rcases hto (w.horizon ann []) with ⟨st, hok, _, hleft⟩
  -- the horizon of the run lies beyond the bound
  have hhorizon : w.lastAnnouncement ann + w.d + w.maxLag < w.horizon ann [] := by
    have hone : 1 * (w.d + 2 * w.maxLag + 2) ≤ w.n * (w.d + 2 * w.maxLag + 2) :=
      Nat.mul_le_mul_right _ (by omega)
    simp only [horizon, hrule, if_true, List.foldl_nil]
    unfold lastAnnouncement
    omega
  refine ⟨{ violation := none, departed := st.departed.card }, ?_, rfl, ?_⟩
  · unfold run runTo
    rw [hok]
  · exact Finset.card_pos.mpr (hleft hhorizon)

theorem patient_run_progresses_three :
    (World.new 3 1 2 2 .patient 7).r < (World.new 3 1 2 2 .patient 7).n ∧
      ∃ o, (World.new 3 1 2 2 .patient 7).run (fun i => some i) (fun _ => 2) [] = .ok o ∧
        o.violation = none ∧ 1 ≤ o.departed :=
  ⟨by decide, (patient_run_progresses (World.new 3 1 2 2 .patient 7) rfl (by decide) (by decide)
    (fun i => some i) (fun _ => 2) (fun _ _ => by decide) ⟨0, by decide, 0, rfl⟩).1⟩

end World
end StaleModel
end Sharding
end Kitsune2
