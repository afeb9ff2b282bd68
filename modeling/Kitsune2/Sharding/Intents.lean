import Mathlib.Data.List.AList
import Kitsune2.Sharding.Coverage

/-!
# Intents — the table of announced shrink and grow intents

Announcements are filed under the agent they name *and* the transport peer they came from; a later
announcement under the same key replaces the earlier one, a withdrawal removes only the intent with
the expiry it names, and `live` drops what has expired.  `retainDeclared` and `retainGrowers` then
keep what the announcer's own declared arc and URL bear out.
-/

namespace Kitsune2
namespace Sharding

open Api

/-! ## The table -/

/-- One announced intent.  `from` is `none` for this node's own agents. -/
structure ShrinkIntent (Url : Type) where
  vacate : SectorRange
  expiresAt : Int
  sender : Option Url
  deriving DecidableEq, Repr

abbrev IntentTable (AgentId Url : Type) :=
  AList fun _ : AgentId × Option Url => ShrinkIntent Url

abbrev LiveIntents (AgentId Url : Type) := List (AgentId × ShrinkIntent Url)

section Table

variable {AgentId Url : Type} [DecidableEq AgentId] [DecidableEq Url]

namespace IntentTable

def insert (table : IntentTable AgentId Url) (agent : AgentId) (intent : ShrinkIntent Url) :
    IntentTable AgentId Url :=
  AList.insert (agent, intent.sender) intent table

/-- Remove a local agent's own intent. -/
def remove (table : IntentTable AgentId Url) (agent : AgentId) : IntentTable AgentId Url :=
  AList.erase (agent, none) table

/-- Remove the intent only if it is the one being withdrawn, identified by its expiry. -/
def withdraw (table : IntentTable AgentId Url) (agent : AgentId) (sender : Option Url)
    (expiresAt : Int) : Bool × IntentTable AgentId Url :=
  match AList.lookup (agent, sender) table with
  | some intent =>
      if intent.expiresAt = expiresAt then (true, AList.erase (agent, sender) table)
      else (false, table)
  | none => (false, table)

/-- Keep the entries whose intent passes `keep`. -/
def retain (keep : ShrinkIntent Url → Bool) (table : IntentTable AgentId Url) :
    IntentTable AgentId Url where
  entries := table.entries.filter fun e => keep e.2
  nodupKeys := table.nodupKeys.sublist (by simp)

/-- Drop expired intents and return the live ones. -/
def live (table : IntentTable AgentId Url) (now : Int) :
    LiveIntents AgentId Url × IntentTable AgentId Url :=
  let kept := retain (fun i => decide (i.expiresAt > now)) table
  (kept.entries.map fun e => (e.1.1, e.2), kept)

/-! ## What each operation does to one key -/

theorem lookup_insert_self (table : IntentTable AgentId Url) (agent : AgentId)
    (intent : ShrinkIntent Url) :
    (table.insert agent intent).lookup (agent, intent.sender) = some intent :=
  AList.lookup_insert table

theorem lookup_insert_ne (table : IntentTable AgentId Url) {agent : AgentId}
    {intent : ShrinkIntent Url} {key : AgentId × Option Url} (h : key ≠ (agent, intent.sender)) :
    (table.insert agent intent).lookup key = table.lookup key :=
  AList.lookup_insert_ne h

theorem lookup_remove_self (table : IntentTable AgentId Url) (agent : AgentId) :
    (table.remove agent).lookup (agent, none) = none :=
  AList.lookup_erase _ table

theorem lookup_remove_ne (table : IntentTable AgentId Url) {agent : AgentId}
    {key : AgentId × Option Url} (h : key ≠ (agent, none)) :
    (table.remove agent).lookup key = table.lookup key :=
  AList.lookup_erase_ne h

theorem lookup_withdraw_ne (table : IntentTable AgentId Url) {agent : AgentId}
    {sender : Option Url} {expiresAt : Int} {key : AgentId × Option Url}
    (h : key ≠ (agent, sender)) :
    (table.withdraw agent sender expiresAt).2.lookup key = table.lookup key := by
  unfold withdraw
  split
  · split
    · exact AList.lookup_erase_ne h
    · rfl
  · rfl

theorem lookup_retain (keep : ShrinkIntent Url → Bool) (table : IntentTable AgentId Url)
    (key : AgentId × Option Url) :
    (retain keep table).lookup key = (table.lookup key).filter keep := by
  ext intent
  simp only [Option.mem_def.symm, AList.mem_lookup_iff, Option.mem_filter_iff, retain,
    List.mem_filter]

/-- The live intents are the unexpired entries of the table. -/
theorem mem_live_iff {table : IntentTable AgentId Url} {now : Int} {agent : AgentId}
    {intent : ShrinkIntent Url} :
    (agent, intent) ∈ (table.live now).1 ↔
      ∃ sender, table.lookup (agent, sender) = some intent ∧ now < intent.expiresAt := by
  constructor
  · intro h
    obtain ⟨⟨⟨a, sender⟩, i⟩, hmem, heq⟩ := List.mem_map.mp h
    simp only [Prod.mk.injEq] at heq
    obtain ⟨rfl, rfl⟩ := heq
    have hkept := AList.mem_lookup_iff.mpr hmem
    rw [lookup_retain] at hkept
    obtain ⟨hlook, hlive⟩ := Option.mem_filter_iff.mp hkept
    exact ⟨sender, hlook, by simpa using hlive⟩
  · rintro ⟨sender, hlook, hlive⟩
    refine List.mem_map.mpr ⟨⟨(agent, sender), intent⟩, ?_, rfl⟩
    apply AList.mem_lookup_iff.mp
    rw [lookup_retain]
    exact Option.mem_filter_iff.mpr ⟨hlook, by simpa using hlive⟩

end IntentTable

/-! ## Receiver-side validation -/

/-- Every sector of the range lies fully within `arc`. -/
def arcContainsSectors (arc : DhtArc) (range : SectorRange) : Bool :=
  if range.1 ≥ range.2 ∨ range.2 > numSectors then false
  else (List.range' range.1 (range.2 - range.1)).all fun x => coversSector arc x

/-- `len` is a power of two. -/
def isPowerOfTwo (len : Nat) : Bool :=
  (List.range 32).any fun k => len == 2 ^ k

/-- `range` is the half adjoining `arc` within the aligned block twice its size. -/
def isSiblingOf (arc : DhtArc) (range : SectorRange) : Bool :=
  match arc with
  | .empty => false
  | .arc a b =>
      if b < a ∨ range.1 ≥ range.2 ∨ range.2 > numSectors then false
      else
        let s := a / sectorSize
        let e := b / sectorSize + 1
        let len := e - s
        if range.2 - range.1 ≠ len ∨ isPowerOfTwo len = false then false
        else
          let parent := len * 2
          let lo := min s range.1
          (range.1 == e || range.2 == s) && lo % parent == 0

/-- What an agent declares in this node's peer store: its arc and its peer URL. -/
abbrev Declared (AgentId Url : Type) := AgentId → Option (DhtArc × Option Url)

/-- The rule both filters share: own intents only from this node, others only from their agent's
declared URL and with a range that `fits` the declared arc. -/
def intentDeclared (fits : DhtArc → SectorRange → Bool) (declared : Declared AgentId Url)
    (ownIds : List AgentId) (entry : AgentId × ShrinkIntent Url) : Bool :=
  if ownIds.contains entry.1 then entry.2.sender.isNone
  else
    match declared entry.1 with
    | none => false
    | some (arc, url) => url.isSome && url == entry.2.sender && fits arc entry.2.vacate

def retainDeclared (live : LiveIntents AgentId Url) (declared : Declared AgentId Url)
    (ownIds : List AgentId) : LiveIntents AgentId Url :=
  live.filter (intentDeclared arcContainsSectors declared ownIds)

def retainGrowers (live : LiveIntents AgentId Url) (declared : Declared AgentId Url)
    (ownIds : List AgentId) : LiveIntents AgentId Url :=
  live.filter (intentDeclared isSiblingOf declared ownIds)

theorem arcContainsSectors_iff {arc : DhtArc} {range : SectorRange} (hlt : range.1 < range.2)
    (hle : range.2 ≤ numSectors) :
    arcContainsSectors arc range = true ↔ ∀ x, InRange range x → coversSector arc x = true := by
  have hguard : ¬ (range.1 ≥ range.2 ∨ range.2 > numSectors) := by omega
  rw [arcContainsSectors, if_neg hguard, List.all_eq_true]
  constructor
  · intro h x hx
    apply h
    obtain ⟨hl, hr⟩ : range.1 ≤ x ∧ x < range.2 := hx
    rw [List.mem_range'_1]
    omega
  · intro h x hx
    rw [List.mem_range'_1] at hx
    exact h x ⟨hx.1, by omega⟩

/-! ## Received messages -/

/-- The `K2ShardingShrinkIntentMessage` that announces or withdraws an intent. -/
structure IntentMessage (AgentId : Type) where
  agentId : AgentId
  vacateStart : Nat
  vacateEnd : Nat
  expiresAt : Int
  withdrawn : Bool
  grow : Bool
  deriving DecidableEq, Repr

/-- What `receive_intent` does to the table the message belongs to. -/
def receiveInto (table : IntentTable AgentId Url) (now : Int) (peer : Url)
    (msg : IntentMessage AgentId) : IntentTable AgentId Url :=
  if msg.withdrawn then (table.withdraw msg.agentId (some peer) msg.expiresAt).2
  else if msg.expiresAt ≤ now then table
  else if msg.vacateEnd < msg.vacateStart then table
  else
    let vacate := (msg.vacateStart / sectorSize, msg.vacateEnd / sectorSize + 1)
    if vacate.2 - vacate.1 > numSectors / 2 then table
    else table.insert msg.agentId
      { vacate := vacate, expiresAt := msg.expiresAt, sender := some peer }

/-- File a received intent, or apply its withdrawal, in the table it belongs to. -/
def receiveIntent (intents growIntents : IntentTable AgentId Url) (now : Int) (peer : Url)
    (msg : IntentMessage AgentId) : IntentTable AgentId Url × IntentTable AgentId Url :=
  if msg.grow then (intents, receiveInto growIntents now peer msg)
  else (receiveInto intents now peer msg, growIntents)

end Table

end Sharding
end Kitsune2
