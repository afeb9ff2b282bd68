import Mathlib.Data.List.MinMax
import Kitsune2.Lib.Ranks
import Kitsune2.Sharding.Recheck

/-!
# Growth — growers that decide on the same announcements

Each grower counts every announced grower with a lower id as already there, whether that one will be
let in or not.  In a sector that stays short nobody is held back: the lowest announcer that is kept
out counts only lower ones, and these are all let in.  Over one common range the rule lets in as
many of the lowest ids as there are copies missing.
-/

namespace Kitsune2
namespace Sharding

open Lib

variable {AgentId Url : Type} [LinearOrder AgentId] [DecidableEq Url]

/-! ## Definitions -/

/-- Add the range of every announced grower that `counts`. -/
def arrive (counts : AgentId × ShrinkIntent Url → Bool) (cov : Cov)
    (liveGrows : LiveIntents AgentId Url) : Cov :=
  liveGrows.foldl
    (fun eff e => if counts e then addSectors eff e.2.vacate.1 e.2.vacate.2 else eff) cov

/-- The coverage with every announced vacate counted as gone. -/
def vacated (cov : Cov) (liveIntents : LiveIntents AgentId Url) : Cov :=
  discount (fun _ => true) cov liveIntents

/-- Does this announcer's own re-check let it grow? -/
def letIn (cov : Cov) (liveIntents liveGrows : LiveIntents AgentId Url) (r : Nat)
    (grower : AgentId × ShrinkIntent Url) : Bool :=
  growRecheck cov liveIntents liveGrows grower.1 grower.2.vacate r

/-- The announcers that grow when each of them decides on the same view. -/
def admittedGrowers (cov : Cov) (liveIntents liveGrows : LiveIntents AgentId Url) (r : Nat) :
    LiveIntents AgentId Url :=
  liveGrows.filter (letIn cov liveIntents liveGrows r)

/-- The coverage after all growers have decided: announced vacates gone, admitted growers
there. -/
def repaired (cov : Cov) (liveIntents liveGrows : LiveIntents AgentId Url) (r : Nat) : Cov :=
  arrive (letIn cov liveIntents liveGrows r) (vacated cov liveIntents) liveGrows

/-! ## One sector at a time -/

theorem covAt_addSectors {cov : Cov} {start stop x : Nat} (hx : x < cov.length) :
    covAt (addSectors cov start stop) x =
      covAt cov x + if InRange (start, stop) x then 1 else 0 := by
  rw [addSectors, covAt_mapSectors hx]
  split <;> rfl

omit [LinearOrder AgentId] [DecidableEq Url] in
/-- Each grower that counts adds one copy to the sectors of its range. -/
theorem arrive_spec (counts : AgentId × ShrinkIntent Url → Bool) :
    ∀ (liveGrows : LiveIntents AgentId Url) (cov : Cov),
      (arrive counts cov liveGrows).length = cov.length ∧
        ∀ x, x < cov.length →
          covAt (arrive counts cov liveGrows) x =
            covAt cov x + (discounted counts liveGrows x).length := by
  intro liveGrows
  induction liveGrows with
  | nil =>
      intro cov
      simp [arrive, discounted]
  | cons e liveGrows ih =>
      intro cov
      -- one intent counts for the sectors of its range
      have hstep : arrive counts cov (e :: liveGrows) =
          arrive counts (if counts e then addSectors cov e.2.vacate.1 e.2.vacate.2 else cov)
            liveGrows := rfl
      rw [hstep]
      by_cases hc : counts e = true
      · rw [if_pos hc]
        rcases ih (addSectors cov e.2.vacate.1 e.2.vacate.2) with ⟨hlen, hcount⟩
        have hlen' : (addSectors cov e.2.vacate.1 e.2.vacate.2).length = cov.length :=
          length_mapSectors _ cov _ _
        refine ⟨hlen.trans hlen', ?_⟩
        intro x hx
        rw [hcount x (hlen'.symm ▸ hx), covAt_addSectors hx]
        by_cases hr : InRange e.2.vacate x
        · rw [if_pos hr, discounted, discounted, List.filter_cons_of_pos (by simp [hc, hr]),
            List.length_cons]
          omega
        · rw [if_neg hr, discounted, discounted, List.filter_cons_of_neg (by simp [hr])]
          omega
      · rw [if_neg hc]
        rcases ih cov with ⟨hlen, hcount⟩
        refine ⟨hlen, ?_⟩
        intro x hx
        rw [hcount x hx, discounted, discounted, List.filter_cons_of_neg (by simp [hc])]

omit [LinearOrder AgentId] [DecidableEq Url] in
theorem discount_congr {counts counts' : AgentId × ShrinkIntent Url → Bool} :
    ∀ {liveIntents : LiveIntents AgentId Url} {cov : Cov},
      (∀ e ∈ liveIntents, counts e = counts' e) →
        discount counts cov liveIntents = discount counts' cov liveIntents := by
  intro liveIntents
  induction liveIntents with
  | nil =>
      intro cov _
      rfl
  | cons e liveIntents ih =>
      intro cov h
      have hhead : counts e = counts' e := h e List.mem_cons_self
      have htail : ∀ cov, discount counts cov liveIntents = discount counts' cov liveIntents :=
        fun cov => ih fun e' he' => h e' (List.mem_cons_of_mem e he')
      calc discount counts cov (e :: liveIntents)
          = discount counts (if counts e then subtractSectors cov e.2.vacate.1 e.2.vacate.2
              else cov) liveIntents := rfl
        _ = discount counts' (if counts e then subtractSectors cov e.2.vacate.1 e.2.vacate.2
              else cov) liveIntents := htail _
        _ = discount counts' (if counts' e then subtractSectors cov e.2.vacate.1 e.2.vacate.2
              else cov) liveIntents := by rw [hhead]
        _ = discount counts' cov (e :: liveIntents) := rfl

/-- The announced growers with a lower id over the sector. -/
def lowerOver (liveGrows : LiveIntents AgentId Url) (ownId : AgentId) (x : Nat) :
    LiveIntents AgentId Url :=
  liveGrows.filter fun e => decide (e.1 < ownId) && decide (InRange e.2.vacate x)

/-! ## One decision -/

section Decision

variable {cov : Cov} {liveIntents liveGrows : LiveIntents AgentId Url} {r : Nat}
  {grower : AgentId × ShrinkIntent Url}

omit [DecidableEq Url] in
/-- A grower with no announced shrink of its own is kept out exactly when no sector of its range is
short of the target, counting everybody below it over that sector. -/
theorem letIn_eq_false_iff (hapart : ∀ e ∈ liveIntents, e.1 ≠ grower.1)
    (hlt : grower.2.vacate.1 < grower.2.vacate.2) (hle : grower.2.vacate.2 ≤ cov.length) :
    letIn cov liveIntents liveGrows r grower = false ↔
      ∀ x, InRange grower.2.vacate x →
        r ≤ covAt (vacated cov liveIntents) x + (lowerOver liveGrows grower.1 x).length := by
  have hview : growView cov liveIntents grower.1 = vacated cov liveIntents :=
    discount_congr fun e he => decide_eq_true (hapart e he)
  have hviewLen : (vacated cov liveIntents).length = cov.length :=
    (discount_spec _ liveIntents cov).1
  rcases arrive_spec
    (fun e => decide (e.1 < grower.1) && overlaps e.2.vacate grower.2.vacate) liveGrows
    (vacated cov liveIntents) with ⟨hlen, hcount⟩
  have hdef : letIn cov liveIntents liveGrows r grower =
      decide (minOver (arrive
        (fun e => decide (e.1 < grower.1) && overlaps e.2.vacate grower.2.vacate)
        (vacated cov liveIntents) liveGrows) grower.2.vacate.1 grower.2.vacate.2 < r) := by
    rw [← hview]
    rfl
  rw [hdef, decide_eq_false_iff_not, not_lt, le_minOver_iff hlt (by omega)]
  refine forall_congr' fun x => imp_congr_right fun hx => ?_
  have hxlen : x < (vacated cov liveIntents).length := by
    rw [hviewLen]
    exact lt_of_lt_of_le hx.2 hle
  -- A grower over a sector of the range overlaps the range.
  have hsame : discounted (fun e => decide (e.1 < grower.1) && overlaps e.2.vacate grower.2.vacate)
      liveGrows x = lowerOver liveGrows grower.1 x := by
    apply List.filter_congr
    intro e _
    by_cases hr : InRange e.2.vacate x
    · simp [overlaps_of_inRange hr hx]
    · simp [hr]
  rw [hcount x hxlen, hsame]

end Decision

/-! ## All decisions -/

section All

variable {cov : Cov} {liveIntents liveGrows : LiveIntents AgentId Url} {r : Nat}

omit [DecidableEq Url] in
/-- A sector that an announced range covers reaches the target, or all of its announcers grow. -/
theorem repaired_or_all_letIn (hapart : ∀ e ∈ liveIntents, ∀ g ∈ liveGrows, e.1 ≠ g.1)
    (hranges : ∀ g ∈ liveGrows, g.2.vacate.2 ≤ cov.length) {x : Nat} (hx : x < cov.length) :
    r ≤ covAt (repaired cov liveIntents liveGrows r) x ∨
      ∀ g ∈ liveGrows, InRange g.2.vacate x → letIn cov liveIntents liveGrows r g = true := by
  let keptOut := liveGrows.filter fun g =>
    !letIn cov liveIntents liveGrows r g && decide (InRange g.2.vacate x)
  cases hmin : keptOut.argmin Prod.fst with
  | none =>
      right
      intro g hg hgx
      by_contra hout
      have hmem : g ∈ keptOut := List.mem_filter.mpr ⟨hg, by simp [hout, hgx]⟩
      rw [List.argmin_eq_none.mp hmin] at hmem
      cases hmem
  | some g =>
      left
      rcases List.mem_filter.mp (List.argmin_mem hmin) with ⟨hg, hcond⟩
      have hgx : InRange g.2.vacate x := by
        simpa using (Bool.and_eq_true_iff.mp hcond).2
      have hout : letIn cov liveIntents liveGrows r g = false := by
        simpa using (Bool.and_eq_true_iff.mp hcond).1
      have hshort := (letIn_eq_false_iff (fun e he => hapart e he g hg)
        (lt_of_le_of_lt hgx.1 hgx.2) (hranges g hg)).mp hout x hgx
      -- Whoever is below the lowest announcer kept out, over this sector, is let in.
      have hbelow : ∀ e ∈ liveGrows, (decide (e.1 < g.1) && decide (InRange e.2.vacate x)) = true →
          (letIn cov liveIntents liveGrows r e && decide (InRange e.2.vacate x)) = true := by
        intro e he hlow
        rcases Bool.and_eq_true_iff.mp hlow with ⟨hlt, hex⟩
        refine Bool.and_eq_true_iff.mpr ⟨?_, hex⟩
        by_contra hnot
        have hmem : e ∈ keptOut := List.mem_filter.mpr ⟨he, by simp [hnot, of_decide_eq_true hex]⟩
        exact absurd (of_decide_eq_true hlt) (not_lt.mpr (List.le_of_mem_argmin hmem hmin))
      have hle : (lowerOver liveGrows g.1 x).length ≤
          (discounted (letIn cov liveIntents liveGrows r) liveGrows x).length := by
        rw [lowerOver, discounted, ← List.countP_eq_length_filter, ← List.countP_eq_length_filter]
        exact List.countP_mono_left hbelow
      have hviewLen : (vacated cov liveIntents).length = cov.length :=
        (discount_spec _ liveIntents cov).1
      have hcount := (arrive_spec (letIn cov liveIntents liveGrows r) liveGrows
        (vacated cov liveIntents)).2 x (hviewLen.symm ▸ hx)
      calc r ≤ covAt (vacated cov liveIntents) x + (lowerOver liveGrows g.1 x).length := hshort
        _ ≤ covAt (vacated cov liveIntents) x +
            (discounted (letIn cov liveIntents liveGrows r) liveGrows x).length :=
          Nat.add_le_add_left hle _
        _ = covAt (repaired cov liveIntents liveGrows r) x := hcount.symm

omit [DecidableEq Url] in
/-- Of announcers of one range, those with fewer lower ids than there are copies missing grow. -/
theorem letIn_iff_rank_lt {range : SectorRange}
    (hapart : ∀ e ∈ liveIntents, ∀ g ∈ liveGrows, e.1 ≠ g.1)
    (hlt : range.1 < range.2) (hle : range.2 ≤ cov.length)
    (hsame : ∀ g ∈ liveGrows, g.2.vacate = range) {g : AgentId × ShrinkIntent Url}
    (hg : g ∈ liveGrows) :
    letIn cov liveIntents liveGrows r g = true ↔
      rank (liveGrows.map Prod.fst) g.1 <
        r - minOver (vacated cov liveIntents) range.1 range.2 := by
  have hviewLen : (vacated cov liveIntents).length = cov.length :=
    (discount_spec _ liveIntents cov).1
  -- all grow into one range, so at every sector the lower ones are those of a lower id
  have hrank : ∀ x, InRange range x →
      (lowerOver liveGrows g.1 x).length = rank (liveGrows.map Prod.fst) g.1 := by
    intro x hx
    rw [lowerOver, rank, List.countP_map, ← List.countP_eq_length_filter]
    refine List.countP_congr fun e he => ?_
    simp [hsame e he, hx]
  have hg' : g.2.vacate = range := hsame g hg
  have hout : letIn cov liveIntents liveGrows r g = false ↔
      ∀ x, InRange g.2.vacate x →
        r ≤ covAt (vacated cov liveIntents) x + (lowerOver liveGrows g.1 x).length :=
    letIn_eq_false_iff (fun e he => hapart e he g hg) (hg' ▸ hlt) (hg' ▸ hle)
  -- the count of the lower ones is the same over the range, so the minimum decides
  have hmin : (∀ x, InRange range x → r ≤ covAt (vacated cov liveIntents) x +
      (lowerOver liveGrows g.1 x).length) ↔
      r - rank (liveGrows.map Prod.fst) g.1 ≤
        minOver (vacated cov liveIntents) range.1 range.2 := by
    rw [le_minOver_iff hlt (by omega)]
    refine forall_congr' fun x => imp_congr_right fun hx => ?_
    rw [hrank x hx]
    omega
  rw [hg', hmin] at hout
  rw [← Bool.not_eq_false, hout]
  omega

end All

/-! ## Coordinated growth -/

omit [DecidableEq Url] in
/-- Growers that decide on one view lose no repair: each sector of an announced range reaches the
target or gets all of its announcers.  And of the announcers of one range that is short, only as
many grow as copies are missing, those with the lowest ids.  The code slices the coverage with the
ranges, so these lie inside it. -/
theorem coordinated_growth (cov : Cov) (liveIntents liveGrows : LiveIntents AgentId Url) (r : Nat)
    (hids : (liveGrows.map Prod.fst).Nodup)
    (hapart : ∀ e ∈ liveIntents, ∀ g ∈ liveGrows, e.1 ≠ g.1)
    (hranges : ∀ g ∈ liveGrows, g.2.vacate.2 ≤ cov.length) :
    (∀ g ∈ liveGrows, ∀ x, InRange g.2.vacate x →
      r ≤ covAt (repaired cov liveIntents liveGrows r) x ∨
        ∀ g' ∈ liveGrows, InRange g'.2.vacate x →
          g' ∈ admittedGrowers cov liveIntents liveGrows r) ∧
    ∀ range : SectorRange, range.1 < range.2 → (∀ g ∈ liveGrows, g.2.vacate = range) →
      minOver (vacated cov liveIntents) range.1 range.2 < r →
        (admittedGrowers cov liveIntents liveGrows r).length =
          min liveGrows.length (r - minOver (vacated cov liveIntents) range.1 range.2) ∧
        ∀ g ∈ admittedGrowers cov liveIntents liveGrows r, ∀ g' ∈ liveGrows,
          g' ∉ admittedGrowers cov liveIntents liveGrows r → g.1 < g'.1 := by
  constructor
  · intro g hg x hx
    have hxlen : x < cov.length := lt_of_lt_of_le hx.2 (hranges g hg)
    refine (repaired_or_all_letIn hapart hranges hxlen).imp_right fun hall g' hg' hx' => ?_
    exact List.mem_filter.mpr ⟨hg', hall g' hg' hx'⟩
  · intro range hlt hsame _
    have hletIn : ∀ g ∈ liveGrows, letIn cov liveIntents liveGrows r g = true ↔
        rank (liveGrows.map Prod.fst) g.1 <
          r - minOver (vacated cov liveIntents) range.1 range.2 :=
      fun g hg => letIn_iff_rank_lt hapart hlt (hsame g hg ▸ hranges g hg) hsame hg
    constructor
    · have hcount := countP_rank_lt hids
        (r - minOver (vacated cov liveIntents) range.1 range.2)
      rw [List.length_map, List.countP_map] at hcount
      rw [admittedGrowers, ← List.countP_eq_length_filter, ← hcount]
      refine List.countP_congr fun g hg => ?_
      simp [hletIn g hg]
    · intro g hin g' hg' hout
      rcases List.mem_filter.mp hin with ⟨hg, hin⟩
      by_contra hge
      -- A lower announcer has no more announcers below it.
      have hle : rank (liveGrows.map Prod.fst) g'.1 ≤ rank (liveGrows.map Prod.fst) g.1 :=
        rank_le_rank _ (not_lt.mp hge)
      have hin' := (hletIn g' hg').mpr (lt_of_le_of_lt hle ((hletIn g hg).mp hin))
      exact hout (List.mem_filter.mpr ⟨hg', hin'⟩)

/-- Agent 9 leaves the first two of three sectors, and three agents announce to take them: two copies
are missing, so the two lowest grow. -/
theorem coordinated_growth_lowest_two :
    (admittedGrowers [2, 1, 4] [(9, ⟨(0, 2), 50, some ()⟩)]
      [(3, ⟨(0, 2), 60, some ()⟩), (1, ⟨(0, 2), 60, some ()⟩), (2, ⟨(0, 2), 60, none⟩)] 2 :
        LiveIntents Nat Unit).length = 2 := by
  have h := coordinated_growth [2, 1, 4] [((9 : Nat), ⟨(0, 2), 50, some ()⟩)]
    [(3, ⟨(0, 2), 60, some ()⟩), (1, ⟨(0, 2), 60, some ()⟩), (2, ⟨(0, 2), 60, none⟩)] 2
    (by decide) (by decide) (by decide)
  exact (h.2 (0, 2) (by decide) (by decide) (by decide)).1.trans (by decide)

end Sharding
end Kitsune2
