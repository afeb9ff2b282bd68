import Kitsune2.Api.Geometry
import Kitsune2.Dht.Arcs

/-!
# ArcConversions — arc sets to arcs and to words, and back

`as_arcs` scans the sorted sectors for runs with two nested loops, `encode` sets a bit for each sector.
The arcs of a set are apart from each other and make up the same set again, and an arc set and sixteen
words are two forms of the same thing.
-/

namespace Kitsune2
namespace Dht

open Api Lib

namespace ArcSet

/-! ## The scan for runs -/

section Scan

variable (sectors : List Nat)

/-- The inner loop: the last index of the consecutive sectors from an index on. -/
def runEnd (stop : Nat) : Nat :=
  if _h : stop + 1 < sectors.length then
    if sectors[stop] + 1 = sectors[stop + 1] then runEnd (stop + 1) else stop
  else stop
termination_by sectors.length - stop

theorem runEnd_bounds {stop : Nat} (h : stop < sectors.length) :
    stop ≤ runEnd sectors stop ∧ runEnd sectors stop < sectors.length := by
  induction stop using runEnd.induct sectors with
  | case1 stop hnext heq ih =>
      rw [runEnd, dif_pos hnext, if_pos heq]
      exact ⟨Nat.le_of_succ_le (ih hnext).1, (ih hnext).2⟩
  | case2 stop hnext hne =>
      rw [runEnd, dif_pos hnext, if_neg hne]
      exact ⟨le_refl _, h⟩
  | case3 stop hlast =>
      rw [runEnd, dif_neg hlast]
      exact ⟨le_refl _, h⟩

/-- The outer loop. -/
def scanArcs (start : Nat) : List DhtArc :=
  if h : start < sectors.length then
    have hbounds := runEnd_bounds sectors h
    runArc (sectors[start], sectors[runEnd sectors start]) :: scanArcs (runEnd sectors start + 1)
  else []
termination_by sectors.length - start

/-- The scan finds the first run and goes on behind it. -/
theorem runs_drop {start : Nat} (h : start < sectors.length) :
    ∃ (hstop : runEnd sectors start < sectors.length),
      runs (sectors.drop start) = (sectors[start], sectors[runEnd sectors start]) ::
        runs (sectors.drop (runEnd sectors start + 1)) := by
  refine ⟨(runEnd_bounds sectors h).2, ?_⟩
  induction start using runEnd.induct sectors with
  | case1 stop hnext heq ih =>
      have hrest := ih hnext
      have hend : runEnd sectors stop = runEnd sectors (stop + 1) := by
        rw [runEnd, dif_pos hnext, if_pos heq]
      simp only [hend]
      rw [List.drop_eq_getElem_cons h, runs, hrest]
      exact if_pos heq
  | case2 stop hnext hne =>
      have hend : runEnd sectors stop = stop := by
        rw [runEnd, dif_pos hnext, if_neg hne]
      simp only [hend]
      rw [List.drop_eq_getElem_cons h, List.drop_eq_getElem_cons hnext]
      rcases runs_cons sectors[stop + 1] (sectors.drop (stop + 1 + 1)) with ⟨last, more, hruns⟩
      rw [runs, hruns]
      exact if_neg hne
  | case3 stop hlast =>
      have hend : runEnd sectors stop = stop := by
        rw [runEnd, dif_neg hlast]
      have hnil : sectors.drop (stop + 1) = [] := List.drop_eq_nil_of_le (Nat.le_of_not_lt hlast)
      simp only [hend]
      rw [List.drop_eq_getElem_cons h, hnil]
      rfl

theorem scanArcs_eq (start : Nat) :
    scanArcs sectors start = (runs (sectors.drop start)).map runArc := by
  induction start using scanArcs.induct sectors with
  | case1 start h hbounds ih =>
      rcases runs_drop sectors h with ⟨hstop, hruns⟩
      rw [scanArcs, dif_pos h, hruns, List.map_cons, ih]
  | case2 start h =>
      rw [scanArcs, dif_neg h, List.drop_eq_nil_of_le (Nat.le_of_not_lt h)]
      rfl

end Scan

/-- `as_arcs` as it scans. -/
def scannedArcs (a : ArcSet) : List DhtArc :=
  if a.inner = ∅ then []
  else if a.inner.card = 512 then [.full]
  else scanArcs (a.inner.sort (· ≤ ·)) 0

theorem scannedArcs_eq_asArcs (a : ArcSet) : a.scannedArcs = a.asArcs := by
  unfold scannedArcs asArcs
  rw [scanArcs_eq, List.drop_zero]

/-! ## Arcs and back -/

/-- The arcs of a set make up the set again. -/
theorem new_asArcs (a : ArcSet) : new a.asArcs = .ok a := by
  have haligned : ∀ arc ∈ a.asArcs, Aligned arc := fun arc harc => aligned_asArcs harc
  rcases new_aligned haligned with ⟨set, hset, hmem⟩
  rw [hset]
  congr 1
  apply ext
  ext i
  rw [hmem]
  constructor
  · rintro ⟨hi, hcovers⟩
    exact (covers_asArcs_iff hi).mp hcovers
  · intro hi
    exact ⟨a.bounded i hi, (covers_asArcs_iff (a.bounded i hi)).mpr hi⟩

/-- One arc ends right before the other one starts; nothing comes right after `u32::MAX`. -/
def Adjacent (arc other : DhtArc) : Prop :=
  ∃ start stop start' stop', arc = .arc start stop ∧ other = .arc start' stop' ∧ stop + 1 = start'

/-- Two arcs that share no location and do not touch. -/
structure Apart (arc other : DhtArc) : Prop where
  disjoint : ∀ loc, arc.contains loc = true → other.contains loc = false
  before : ¬ Adjacent arc other
  after : ¬ Adjacent other arc

/-- A gap between two runs of sectors keeps their arcs apart. -/
theorem apart_of_gap {first last first' last' : Nat} (hle : first ≤ last) (hgap : last + 1 < first')
    (hle' : first' ≤ last') : Apart (sectorsArc first last) (sectorsArc first' last') := by
  refine ⟨?_, ?_, ?_⟩
  · intro loc hin
    rw [contains_sectorsArc_iff, onWalk_of_le hle] at hin
    rw [Bool.eq_false_iff, Ne, contains_sectorsArc_iff, onWalk_of_le hle']
    omega
  · rintro ⟨_, _, _, _, harc, hother, hnext⟩
    cases harc
    cases hother
    rw [sectorSize_eq] at hnext
    omega
  · rintro ⟨_, _, _, _, harc, hother, hnext⟩
    cases harc
    cases hother
    rw [sectorSize_eq] at hnext
    omega

/-- Of two maximal runs, the one that starts first ends before a gap. -/
theorem gap_of_lt {s : Nat → Prop} {first last first' last' : Nat} (h : MaximalRun s first last)
    (h' : MaximalRun s first' last') (hlt : first < first') : last + 1 < first' := by
  by_contra hnot
  rcases Nat.eq_or_lt_of_le (Nat.le_of_not_lt hnot) with heq | hin
  · -- the second run starts right behind the first one
    refine h.right ?_
    rw [← heq]
    exact h'.first_mem
  · have hmeet : first ≤ first' ∧ first' ≤ last := ⟨le_of_lt hlt, Nat.le_of_lt_succ hin⟩
    have hall := h'.contains_stretch h.stretch hmeet ⟨le_refl _, h'.le⟩
    omega

theorem pairwise_apart_asArcs (a : ArcSet) : a.asArcs.Pairwise Apart := by
  have hmem : ∀ i, i ∈ a.inner.sort (· ≤ ·) ↔ i ∈ a.inner := fun i => Finset.mem_sort _
  have hruns := runs_spec (a.inner.sortedLT_sort.pairwise)
  have hmaximal : ∀ r ∈ runs (a.inner.sort (· ≤ ·)), MaximalRun (fun i => i ∈ a.inner) r.1 r.2 := by
    intro r hr
    have hmax := hruns.maximal r hr
    simp only [hmem] at hmax
    exact hmax
  unfold asArcs
  split
  · exact List.Pairwise.nil
  split
  · exact List.pairwise_singleton _ _
  rw [List.pairwise_map]
  refine hruns.sorted.imp_of_mem ?_
  intro r r' hr hr' hlt
  have hmax := hmaximal r hr
  have hmax' := hmaximal r' hr'
  rw [runArc_eq (a.bounded _ hmax.last_mem), runArc_eq (a.bounded _ hmax'.last_mem)]
  exact apart_of_gap hmax.le (gap_of_lt hmax hmax' hlt) hmax'.le

/-! ## Words and back -/

section Words

variable {words other : List Nat}

/-- The words are of type `u32`. -/
def FitU32 (words : List Nat) : Prop :=
  ∀ word ∈ words, word < 2 ^ 32

theorem FitU32.setSector (h : FitU32 words) (sector : Nat) : FitU32 (setSector words sector) := by
  intro word hword
  unfold ArcSet.setSector at hword
  rcases List.mem_iff_getElem?.mp hword with ⟨k, hk⟩
  rw [List.getElem?_modify] at hk
  split at hk
  · rcases Option.map_eq_some_iff.mp hk with ⟨old, hold, rfl⟩
    have holdLt := h old (List.mem_of_getElem? hold)
    have hbit : 1 <<< (sector % 32) < 2 ^ 32 := by
      rw [Nat.one_shiftLeft]
      exact Nat.pow_lt_pow_right (by decide) (Nat.mod_lt _ (by decide))
    exact Nat.or_lt_two_pow holdLt hbit
  · simp only [Option.map_eq_map, Option.map_id'] at hk
    exact h word (List.mem_of_getElem? hk)

theorem FitU32.foldl_setSector (sectors : List Nat) :
    ∀ {words : List Nat}, FitU32 words → FitU32 (sectors.foldl ArcSet.setSector words) := by
  induction sectors with
  | nil => exact fun h => h
  | cons sector sectors ih => exact fun h => ih (h.setSector sector)

/-- Words are determined by their sectors. -/
theorem words_ext (hlen : words.length = numWords) (hlen' : other.length = numWords)
    (hfit : FitU32 words) (hfit' : FitU32 other)
    (hbits : ∀ sector < numSectors, sectorBit words sector = sectorBit other sector) :
    words = other := by
  apply List.ext_getElem (hlen.trans hlen'.symm)
  intro k hk hk'
  apply Nat.eq_of_testBit_eq
  intro bit
  have hword : words[k] < 2 ^ 32 := hfit _ (List.getElem_mem hk)
  have hother : other[k] < 2 ^ 32 := hfit' _ (List.getElem_mem hk')
  by_cases hbit : bit < 32
  · have hlt : 32 * k + bit < numSectors := by
      rw [hlen] at hk
      rw [numSectors_eq]
      unfold numWords at hk
      omega
    have hsector := hbits (32 * k + bit) hlt
    unfold sectorBit at hsector
    rw [show (32 * k + bit) / 32 = k by omega, show (32 * k + bit) % 32 = bit by omega,
      List.getElem?_eq_getElem hk, List.getElem?_eq_getElem hk'] at hsector
    exact hsector
  · have hpow : 2 ^ 32 ≤ 2 ^ bit := Nat.pow_le_pow_right (by decide) (Nat.le_of_not_lt hbit)
    rw [Nat.testBit_lt_two_pow (lt_of_lt_of_le hword hpow),
      Nat.testBit_lt_two_pow (lt_of_lt_of_le hother hpow)]

theorem fitU32_zero : FitU32 (List.replicate numWords 0) := by
  intro word hword
  rw [List.eq_of_mem_replicate hword]
  decide

/-- The words of some sectors, whatever the order in which they are set. -/
theorem foldl_setSector_eq_encode {a : ArcSet} {sectors : List Nat}
    (h : ∀ i, i ∈ sectors ↔ i ∈ a.inner) :
    sectors.foldl setSector (List.replicate numWords 0) = a.encode := by
  have hlen : (List.replicate numWords 0).length = numWords := List.length_replicate
  have hsort : ∀ s, s ∈ a.inner.sort (· ≤ ·) ↔ s ∈ a.inner := fun s => Finset.mem_sort _
  refine words_ext ?_ ?_ (fitU32_zero.foldl_setSector _) (fitU32_zero.foldl_setSector _) ?_
  · rw [length_foldl_setSector, hlen]
  · unfold encode
    rw [length_foldl_setSector, hlen]
  · intro sector _
    unfold encode
    rw [sectorBit_foldl_setSector sectors _ hlen (fun s hs => a.bounded s ((h s).mp hs)),
      sectorBit_foldl_setSector (a.inner.sort (· ≤ ·)) _ hlen
        (fun s hs => a.bounded s ((hsort s).mp hs))]
    simp only [h, hsort]

/-- Sixteen words survive decoding. -/
theorem encode_decode (hlen : words.length = numWords) (hfit : FitU32 words) :
    ∃ a, decode words = .ok a ∧ a.encode = words := by
  refine ⟨_, if_neg (not_not.mpr hlen), ?_⟩
  have hzero : (List.replicate numWords 0).length = numWords := List.length_replicate
  unfold encode
  refine words_ext ?_ hlen (fitU32_zero.foldl_setSector _) hfit ?_
  · rw [length_foldl_setSector, hzero]
  · intro sector hsector
    rw [sectorBit_foldl_setSector _ _ hzero, sectorBit_replicate_zero, Bool.or_false]
    · simp only [Finset.mem_sort, Finset.mem_filter, Finset.mem_range, hsector, true_and,
        Bool.decide_eq_true]
    · intro s hs
      rw [Finset.mem_sort, Finset.mem_filter, Finset.mem_range] at hs
      exact hs.1

end Words

/-- The arcs of a set, as the scan finds them, are apart and make up the set again; a set survives
the wire, and so do sixteen words. -/
theorem conversions_inverse :
    (∀ a : ArcSet, new a.scannedArcs = .ok a ∧ a.scannedArcs.Pairwise Apart ∧
      decode a.encode = .ok a) ∧
    (∀ (a : ArcSet) (sectors : List Nat), (∀ i, i ∈ sectors ↔ i ∈ a.inner) →
      sectors.foldl setSector (List.replicate numWords 0) = a.encode) ∧
    ∀ words : List UInt32, words.length = 16 →
      ∃ a, decode (words.map UInt32.toNat) = .ok a ∧ a.encode = words.map UInt32.toNat := by
  refine ⟨fun a => ?_, fun a sectors h => foldl_setSector_eq_encode h, fun words hlen => ?_⟩
  · rw [scannedArcs_eq_asArcs]
    exact ⟨new_asArcs a, pairwise_apart_asArcs a, decode_encode a⟩
  · refine encode_decode ((List.length_map _).trans hlen) fun word hword => ?_
    rcases List.mem_map.mp hword with ⟨x, _, rfl⟩
    exact x.toNat_lt

end ArcSet

end Dht
end Kitsune2
