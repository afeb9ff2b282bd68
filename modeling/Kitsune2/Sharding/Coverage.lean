import Kitsune2.Sharding.Blocks

/-!
# Coverage — per-sector redundancy counting from declared storage arcs

`othersCoverage` counts, for every sector, the peers whose declared arc covers it; the controller
then adds its sibling agents (`addCurArc`), discounts announced vacates (`subtractSectors`), adds
announced growers (`addSectors`) and looks at the minimum over a range (`minOver`).

A coverage vector is a list with one count for each sector.  Each operation has one lemma that
says what it does to the count of one sector, and `le_minOver_iff` turns the minimum into a
statement about every sector of the range.
-/

namespace Kitsune2
namespace Sharding

open Api

/-- A peer's signed agent info, as far as the controller reads it. -/
structure AgentInfo (AgentId Url : Type) where
  agent : AgentId
  url : Option Url
  isTombstone : Bool
  storageArc : DhtArc
  deriving DecidableEq, Repr

/-! ## Definitions -/

/-- How many copies each sector has.  The source counts in `u32`: a count goes up by one for every listed
agent and every grow intent, of which there are fewer than `2 ^ 32`. -/
abbrev Cov := List Nat

/-- Add one copy to every sector fully covered by `arc` (`add_arc`, `add_cur_arc`). -/
def addArc (cov : Cov) (arc : DhtArc) : Cov :=
  match arc with
  | .empty => cov
  | .arc _ _ => cov.mapIdx fun x c => if coversSector arc x then c + 1 else c

section Others

variable {AgentId Url : Type} [DecidableEq AgentId]

/-- The loop body of `others_coverage`: skip tombstones and excluded agents. -/
def addPeer (exclude : List AgentId) (cov : Cov) (peer : AgentInfo AgentId Url) : Cov :=
  if peer.isTombstone || exclude.contains peer.agent then cov
  else addArc cov peer.storageArc

def othersCoverage (peers : List (AgentInfo AgentId Url)) (exclude : List AgentId) : Cov :=
  peers.foldl (addPeer exclude) (List.replicate numSectors 0)

end Others

/-- Apply `f` to the counts of the sectors in `[start, stop)`. -/
def mapSectors (f : Nat → Nat) (cov : Cov) (start stop : Nat) : Cov :=
  cov.mapIdx fun x c => if start ≤ x ∧ x < start + (stop - start) then f c else c

/-- Saturating-subtract one copy from every sector of `[start, stop)`. -/
def subtractSectors (cov : Cov) (start stop : Nat) : Cov :=
  mapSectors (fun c => c - 1) cov start stop

/-- Add one copy to every sector of `[start, stop)`. -/
def addSectors (cov : Cov) (start stop : Nat) : Cov :=
  mapSectors (fun c => c + 1) cov start stop

/-- The minimum coverage over `[start, stop)`. -/
def minOver (cov : Cov) (start stop : Nat) : Nat :=
  ((cov.drop start).take (stop - start)).min?.getD 0

/-- The count of one sector. -/
def covAt (cov : Cov) (x : Nat) : Nat :=
  cov.getD x 0

/-! ## One sector at a time -/

@[simp] theorem length_addArc (cov : Cov) (arc : DhtArc) : (addArc cov arc).length = cov.length := by
  cases arc <;> simp [addArc]

@[simp] theorem length_mapSectors (f : Nat → Nat) (cov : Cov) (start stop : Nat) :
    (mapSectors f cov start stop).length = cov.length := by
  simp [mapSectors]

@[simp] theorem length_subtractSectors (cov : Cov) (start stop : Nat) :
    (subtractSectors cov start stop).length = cov.length := by
  simp [subtractSectors]

theorem covAt_addArc {cov : Cov} {arc : DhtArc} {x : Nat} (hx : x < cov.length) :
    covAt (addArc cov arc) x = covAt cov x + if coversSector arc x then 1 else 0 := by
  cases arc with
  | empty =>
      simp [addArc, covAt]
  | arc s e =>
      simp only [addArc, covAt, List.getD_eq_getElem?_getD, List.getElem?_mapIdx,
        List.getElem?_eq_getElem hx, Option.map_some, Option.getD_some]
      split <;> rfl

theorem covAt_mapSectors {f : Nat → Nat} {cov : Cov} {start stop x : Nat} (hx : x < cov.length) :
    covAt (mapSectors f cov start stop) x =
      if InRange (start, stop) x then f (covAt cov x) else covAt cov x := by
  have hiff : (start ≤ x ∧ x < start + (stop - start)) ↔ InRange (start, stop) x := by
    simp only [InRange]
    omega
  simp only [mapSectors, covAt, List.getD_eq_getElem?_getD, List.getElem?_mapIdx,
    List.getElem?_eq_getElem hx, Option.map_some, Option.getD_some, hiff]

theorem covAt_subtractSectors {cov : Cov} {start stop x : Nat} (hx : x < cov.length) :
    covAt (subtractSectors cov start stop) x =
      covAt cov x - if InRange (start, stop) x then 1 else 0 := by
  rw [subtractSectors, covAt_mapSectors hx]
  split <;> simp

/-! ## Counting declared arcs -/

section Counting

variable {AgentId Url : Type} [DecidableEq AgentId]

/-- A peer that `othersCoverage` counts for the sector. -/
def counted (exclude : List AgentId) (x : Nat) (peer : AgentInfo AgentId Url) : Bool :=
  !peer.isTombstone && !exclude.contains peer.agent && coversSector peer.storageArc x

theorem foldl_coverage_spec (exclude : List AgentId) :
    ∀ (peers : List (AgentInfo AgentId Url)) (cov : Cov) (x : Nat), x < cov.length →
      (peers.foldl (addPeer exclude) cov).length = cov.length ∧
        covAt (peers.foldl (addPeer exclude) cov) x =
          covAt cov x + (peers.filter (counted exclude x)).length := by
  intro peers
  induction peers with
  | nil =>
      intro cov x _
      simp
  | cons peer peers ih =>
      intro cov x hx
      rw [List.foldl_cons, addPeer]
      by_cases hskip : (peer.isTombstone || exclude.contains peer.agent) = true
      · -- a tombstone or an excluded agent adds nothing
        have hnot : counted exclude x peer = false := by
          unfold counted
          rcases Bool.or_eq_true_iff.mp hskip with h | h
          · simp [h]
          · simp only [h, Bool.not_true, Bool.and_false, Bool.false_and]
        rw [if_pos hskip, List.filter_cons_of_neg (by simp [hnot])]
        exact ih cov x hx
      · have hkeep : peer.isTombstone = false ∧ exclude.contains peer.agent = false := by
          simpa using hskip
        rw [if_neg hskip]
        have hx' : x < (addArc cov peer.storageArc).length := by simpa using hx
        obtain ⟨hlen, hcount⟩ := ih (addArc cov peer.storageArc) x hx'
        refine ⟨by simpa using hlen, ?_⟩
        rw [hcount, covAt_addArc hx]
        by_cases hc : coversSector peer.storageArc x = true
        · have hyes : counted exclude x peer = true := by
            simp only [counted, hkeep.1, hkeep.2, hc, Bool.not_false, Bool.and_self]
          rw [List.filter_cons_of_pos hyes, if_pos hc, List.length_cons]
          omega
        · have hno : counted exclude x peer = false := by
            simp [counted, hc]
          rw [List.filter_cons_of_neg (by simp [hno]), if_neg hc, Nat.add_zero]

theorem length_othersCoverage (peers : List (AgentInfo AgentId Url)) (exclude : List AgentId) :
    (othersCoverage peers exclude).length = numSectors := by
  have hpos : 0 < (List.replicate numSectors 0).length := by
    rw [List.length_replicate]
    decide
  have h := (foldl_coverage_spec exclude peers (List.replicate numSectors 0) 0 hpos).1
  simpa [othersCoverage] using h

theorem covAt_othersCoverage (peers : List (AgentInfo AgentId Url)) (exclude : List AgentId)
    {x : Nat} (hx : x < numSectors) :
    covAt (othersCoverage peers exclude) x = (peers.filter (counted exclude x)).length := by
  have hlen : x < (List.replicate numSectors 0).length := by simpa using hx
  have h := (foldl_coverage_spec exclude peers (List.replicate numSectors 0) x hlen).2
  have hzero : covAt (List.replicate numSectors 0) x = 0 := by
    simp [covAt, List.getD_eq_getElem?_getD, hx]
  rw [othersCoverage, h, hzero, Nat.zero_add]

end Counting

/-! ## The minimum over a range -/

theorem le_minOver_iff {cov : Cov} {start stop r : Nat} (hlt : start < stop)
    (hle : stop ≤ cov.length) :
    r ≤ minOver cov start stop ↔ ∀ x, InRange (start, stop) x → r ≤ covAt cov x := by
  have hlen : ((cov.drop start).take (stop - start)).length = stop - start := by
    rw [List.length_take, List.length_drop]
    omega
  have hne : (cov.drop start).take (stop - start) ≠ [] := by
    intro hnil
    rw [hnil, List.length_nil] at hlen
    omega
  -- the range is not empty, so it has a least count
  obtain ⟨m, hm⟩ : ∃ m, ((cov.drop start).take (stop - start)).min? = some m := by
    rcases h : ((cov.drop start).take (stop - start)).min? with _ | m
    · exact absurd (List.min?_eq_none_iff.mp h) hne
    · exact ⟨m, rfl⟩
  rw [minOver, hm, Option.getD_some, List.le_min?_iff hm]
  constructor
  · intro h x hx
    obtain ⟨hxl, hxr⟩ : start ≤ x ∧ x < stop := hx
    have hxcov : x < cov.length := by omega
    apply h
    rw [List.mem_iff_getElem?]
    refine ⟨x - start, ?_⟩
    rw [List.getElem?_take_of_lt (by omega), List.getElem?_drop,
      show start + (x - start) = x by omega, List.getElem?_eq_getElem hxcov]
    simp [covAt, List.getD_eq_getElem?_getD, List.getElem?_eq_getElem hxcov]
  · intro h c hc
    obtain ⟨k, hk⟩ := List.mem_iff_getElem?.mp hc
    have hklt : k < stop - start := by
      have := (List.getElem?_eq_some_iff.mp hk).1
      omega
    rw [List.getElem?_take_of_lt hklt, List.getElem?_drop] at hk
    have := h (start + k) ⟨by simp, by simp only; omega⟩
    simpa [covAt, List.getD_eq_getElem?_getD, hk] using this

end Sharding
end Kitsune2
