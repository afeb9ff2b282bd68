import Mathlib.Data.Finset.Sort
import Kitsune2.Dht.Snapshot

/-!
# ArcSet — sets of sectors, from arcs, to arcs and on the wire

An arc set is made of the storage arcs of some agents, which have to be aligned with the sectors; it
travels as a bit set of sixteen 32-bit words; and it is turned back into the fewest arcs that cover
it.
-/

namespace Kitsune2
namespace Dht

open Api

namespace ArcSet

@[ext]
theorem ext {a b : ArcSet} (h : a.inner = b.inner) : a = b := by
  cases a
  cases b
  simp only at h
  subst h
  rfl

instance : DecidableEq ArcSet := fun _ _ => decidable_of_iff _ ⟨ext, congrArg inner⟩

def empty : ArcSet where
  inner := ∅
  bounded := fun _ hi => absurd hi (Finset.notMem_empty _)

/-! ## From arcs -/

/-- The number of sectors an arc covers, as `new` counts them. -/
def numSectorsCovered (start stop : Nat) : Nat :=
  if start > stop then (u32Max - start + stop + 1) / sectorSize + 1
  else (stop - start) / sectorSize + 1

/-- The sectors of a walk of so many steps around the ring. -/
def sectorsFrom (start count : Nat) : ArcSet where
  inner := (Finset.range count).image fun k => ((start + k * sectorSize) % 2 ^ 32) / sectorSize
  bounded := by
    intro i hi
    rcases Finset.mem_image.mp hi with ⟨k, _, rfl⟩
    have hlt : (start + k * sectorSize) % 2 ^ 32 < numSectors * sectorSize :=
      lt_of_lt_of_eq (Nat.mod_lt _ (by decide)) (by decide)
    rw [Nat.mul_comm numSectors] at hlt
    exact Nat.div_lt_of_lt_mul hlt

def union (a b : ArcSet) : ArcSet where
  inner := a.inner ∪ b.inner
  bounded := fun i hi => (Finset.mem_union.mp hi).elim (a.bounded i) (b.bounded i)

/-- The loop of `ArcSet::new`; it stops early once every sector is in. -/
def addArcs (acc : ArcSet) : List DhtArc → Except Fault ArcSet
  | [] => .ok acc
  | arc :: rest =>
      if acc.inner.card = numSectors then .ok acc
      else
        match arc with
        | .empty => addArcs acc rest
        | .arc start stop =>
            let count := numSectorsCovered start stop
            let next := (start + count * sectorSize) % 2 ^ 32
            -- the walk has to end where the arc does
            if next ≠ (stop + 1) % 2 ^ 32 ∧ ¬ (stop = u32Max ∧ next = 0) then
              .error (.k2 s!"Invalid arc, expected end at {next} but arc specifies {stop}")
            else addArcs (acc.union (sectorsFrom start count)) rest

def new (arcs : List DhtArc) : Except Fault ArcSet :=
  addArcs empty arcs

/-- Remove sectors from a set. -/
def withoutSectorIndices (a : ArcSet) (remove : List Nat) : ArcSet where
  inner := a.inner \ remove.toFinset
  bounded := fun i hi => a.bounded i (Finset.mem_sdiff.mp hi).1

/-! ## On the wire -/

/-- The number of 32-bit words of an encoded arc set. -/
def numWords : Nat := 512 / 32

/-- Set the bit of one sector. -/
def setSector (words : List Nat) (sector : Nat) : List Nat :=
  words.modify (sector / 32) fun word => word ||| (1 <<< (sector % 32))

def encode (a : ArcSet) : List Nat :=
  (a.inner.sort (· ≤ ·)).foldl setSector (List.replicate numWords 0)

/-- The bit of a sector. -/
def sectorBit (words : List Nat) (sector : Nat) : Bool :=
  ((words[sector / 32]?).getD 0).testBit (sector % 32)

def decode (input : List Nat) : Except Fault ArcSet :=
  if input.length ≠ numWords then .error (.k2 "Invalid size for encoded arc set")
  else
    .ok
      { inner := (Finset.range numSectors).filter fun sector => sectorBit input sector
        bounded := fun _ hi => Finset.mem_range.mp (Finset.mem_filter.mp hi).1 }

@[simp]
theorem length_setSector (words : List Nat) (sector : Nat) :
    (setSector words sector).length = words.length := by
  unfold setSector
  rw [List.length_modify]

theorem sectorBit_setSector {words : List Nat} {sector other : Nat}
    (h : sector / 32 < words.length) :
    sectorBit (setSector words sector) other = (decide (other = sector) || sectorBit words other) := by
  unfold sectorBit setSector
  rw [List.getElem?_modify]
  by_cases hword : sector / 32 = other / 32
  · have hget := List.getElem?_eq_getElem (show other / 32 < words.length by omega)
    rw [hget, hword]
    have hbit : decide (sector % 32 = other % 32) = decide (other = sector) := by
      rw [decide_eq_decide]
      omega
    simp only [if_true, Option.map_eq_map, Option.map_some, Option.getD_some, Nat.testBit_or,
      Nat.one_shiftLeft, Nat.testBit_two_pow]
    rw [Bool.or_comm, hbit]
  · have hne : ¬ other = sector := fun heq => hword (by rw [heq])
    simp [hword, hne]

theorem sectorBit_foldl_setSector (sectors : List Nat) :
    ∀ words : List Nat, words.length = numWords → (∀ s ∈ sectors, s < numSectors) →
      ∀ other, sectorBit (sectors.foldl setSector words) other =
        (decide (other ∈ sectors) || sectorBit words other) := by
  induction sectors with
  | nil =>
      intro words _ _ other
      simp
  | cons sector sectors ih =>
      intro words hlen hlt other
      have hhead : sector < numSectors := hlt sector List.mem_cons_self
      have hword : sector / 32 < words.length := by
        rw [hlen]
        rw [numSectors_eq] at hhead
        unfold numWords
        omega
      have hrest := ih (setSector words sector) (by rw [length_setSector, hlen])
        (fun s hs => hlt s (List.mem_cons_of_mem _ hs)) other
      rw [List.foldl_cons, hrest, sectorBit_setSector hword]
      by_cases heq : other = sector
      · simp [heq]
      · simp [heq]

theorem length_foldl_setSector (sectors : List Nat) :
    ∀ words : List Nat, (sectors.foldl setSector words).length = words.length := by
  induction sectors with
  | nil =>
      intro words
      rfl
  | cons sector sectors ih =>
      intro words
      rw [List.foldl_cons, ih, length_setSector]

theorem sectorBit_replicate_zero (n other : Nat) : sectorBit (List.replicate n 0) other = false := by
  unfold sectorBit
  rw [List.getElem?_replicate]
  split <;> simp

/-- An arc set survives the wire. -/
theorem decode_encode (a : ArcSet) : decode a.encode = .ok a := by
  have hlen : a.encode.length = numWords := by
    unfold encode
    rw [length_foldl_setSector, List.length_replicate]
  have hmem : ∀ s, s ∈ a.inner.sort (· ≤ ·) ↔ s ∈ a.inner := fun s => Finset.mem_sort _
  unfold decode
  rw [if_neg (not_not.mpr hlen)]
  congr 1
  apply ext
  ext sector
  have hzero : (List.replicate numWords 0).length = numWords := List.length_replicate
  have hbit := sectorBit_foldl_setSector (a.inner.sort (· ≤ ·)) _ hzero
    (fun s hs => a.bounded s ((hmem s).mp hs)) sector
  rw [sectorBit_replicate_zero] at hbit
  simp only [Finset.mem_filter, Finset.mem_range]
  unfold encode
  rw [hbit]
  simp only [Bool.or_false, decide_eq_true_eq, hmem]
  exact ⟨fun h => h.2, fun h => ⟨a.bounded sector h, h⟩⟩

/-! ## To arcs -/

/-- The runs of consecutive numbers in an ascending list, as first and last number. -/
def runs : List Nat → List (Nat × Nat)
  | [] => []
  | first :: rest =>
      match runs rest with
      | [] => [(first, first)]
      | (start, stop) :: more =>
          if first + 1 = start then (first, stop) :: more
          else (first, first) :: (start, stop) :: more

/-- The arc of a run of sectors; the multiplication saturates. -/
def runArc (run : Nat × Nat) : DhtArc :=
  let top := min ((run.2 + 1) * sectorSize) u32Max
  .arc (run.1 * sectorSize) (if top = u32Max then u32Max else top - 1)

def asArcs (a : ArcSet) : List DhtArc :=
  if a.inner = ∅ then []
  else if a.inner.card = 512 then [.full]
  else (runs (a.inner.sort (· ≤ ·))).map runArc

end ArcSet

end Dht
end Kitsune2
