import Kitsune2.Sharding.Intents

/-!
# Table history — what a whole run of messages and checks leaves in the intent tables

A node keeps one table of shrink intents and one of grow intents.  Peers' messages are filed in
them by `receive_intent`, the controller files and removes its own agents' intents, and every check
drops what has expired.  Each of these steps reads and writes single keys, so a run can be followed
one key at a time; what a check consumes about an agent depends on one key only.
-/

namespace Kitsune2
namespace Sharding

open Api

variable {AgentId Url : Type} [DecidableEq AgentId] [DecidableEq Url]

/-! ## The two tables and their steps -/

/-- The `intents` and `grow_intents` tables of one node. -/
structure Tables (AgentId Url : Type) where
  shrinks : IntentTable AgentId Url
  grows : IntentTable AgentId Url

/-- Everything that touches the tables. -/
inductive TableStep (AgentId Url : Type) where
  /-- A message reaches this node at `now`, from the transport peer `peer`. -/
  | received (now : Int) (peer : Url) (msg : IntentMessage AgentId)
  /-- The controller records an intent of one of its own agents. -/
  | filed (grow : Bool) (agent : AgentId) (vacate : SectorRange) (expiresAt : Int)
  /-- The controller removes an intent of one of its own agents. -/
  | removed (grow : Bool) (agent : AgentId)
  /-- A check reads both tables at `now`. -/
  | checked (now : Int)

namespace Tables

def empty : Tables AgentId Url := { shrinks := ∅, grows := ∅ }

/-- The table an intent of the given kind belongs to. -/
def of (tables : Tables AgentId Url) : Bool → IntentTable AgentId Url
  | true => tables.grows
  | false => tables.shrinks

/-- Apply `f` to the table of one kind. -/
def modify (tables : Tables AgentId Url) (grow : Bool)
    (f : IntentTable AgentId Url → IntentTable AgentId Url) : Tables AgentId Url :=
  match grow with
  | true => { tables with grows := f tables.grows }
  | false => { tables with shrinks := f tables.shrinks }

def step (tables : Tables AgentId Url) : TableStep AgentId Url → Tables AgentId Url
  | .received now peer msg =>
      let filed := receiveIntent tables.shrinks tables.grows now peer msg
      { shrinks := filed.1, grows := filed.2 }
  | .filed grow agent vacate expiresAt =>
      tables.modify grow fun table =>
        table.insert agent { vacate := vacate, expiresAt := expiresAt, sender := none }
  | .removed grow agent => tables.modify grow fun table => table.remove agent
  | .checked now =>
      { shrinks := (tables.shrinks.live now).2, grows := (tables.grows.live now).2 }

/-- The tables after a whole history. -/
def run (tables : Tables AgentId Url) (history : List (TableStep AgentId Url)) :
    Tables AgentId Url :=
  history.foldl step tables

/-- What one check takes from the table of one kind: the live intents that the peer store bears
out. -/
def consumed (tables : Tables AgentId Url) (grow : Bool) (now : Int)
    (declared : Declared AgentId Url) (ownIds : List AgentId) : LiveIntents AgentId Url :=
  match grow with
  | true => retainGrowers (tables.grows.live now).1 declared ownIds
  | false => retainDeclared (tables.shrinks.live now).1 declared ownIds

omit [DecidableEq AgentId] [DecidableEq Url] in
@[simp] theorem of_modify (tables : Tables AgentId Url) (grow kind : Bool)
    (f : IntentTable AgentId Url → IntentTable AgentId Url) :
    (tables.modify grow f).of kind = if kind = grow then f (tables.of kind) else tables.of kind := by
  cases grow <;> cases kind <;> rfl

theorem of_received (tables : Tables AgentId Url) (kind : Bool) (now : Int) (peer : Url)
    (msg : IntentMessage AgentId) :
    (tables.step (.received now peer msg)).of kind =
      if kind = msg.grow then receiveInto (tables.of kind) now peer msg else tables.of kind := by
  cases hg : msg.grow <;> cases kind <;> simp [step, receiveIntent, hg, of]

theorem of_checked (tables : Tables AgentId Url) (kind : Bool) (now : Int) :
    (tables.step (.checked now)).of kind =
      IntentTable.retain (fun i => decide (i.expiresAt > now)) (tables.of kind) := by
  cases kind <;> rfl

end Tables

/-! ## One message, one key -/

/-- An announcement that passes the checks `receive_intent` makes, and the range it announces. -/
def admitted (now : Int) (msg : IntentMessage AgentId) : Option SectorRange :=
  if msg.expiresAt ≤ now then none
  else if msg.vacateEnd < msg.vacateStart then none
  else
    let vacate := (msg.vacateStart / sectorSize, msg.vacateEnd / sectorSize + 1)
    if vacate.2 - vacate.1 > numSectors / 2 then none else some vacate

/-- A message writes to one key of its table only: its agent's, from its sender. -/
theorem receiveInto_eq (table : IntentTable AgentId Url) (now : Int) (peer : Url)
    (msg : IntentMessage AgentId) :
    receiveInto table now peer msg =
      if msg.withdrawn then (table.withdraw msg.agentId (some peer) msg.expiresAt).2
      else
        match admitted now msg with
        | none => table
        | some vacate => table.insert msg.agentId
            { vacate := vacate, expiresAt := msg.expiresAt, sender := some peer } := by
  unfold receiveInto admitted
  dsimp only
  split_ifs <;> rfl

theorem lookup_withdraw_self (table : IntentTable AgentId Url) (agent : AgentId)
    (sender : Option Url) (expiresAt : Int) :
    (table.withdraw agent sender expiresAt).2.lookup (agent, sender) =
      (table.lookup (agent, sender)).filter fun i => decide (i.expiresAt ≠ expiresAt) := by
  unfold IntentTable.withdraw
  cases hl : AList.lookup (agent, sender) table with
  | none => simpa using hl
  | some intent =>
      by_cases he : intent.expiresAt = expiresAt
      · simp [he, Option.filter]
      · simp [he, hl, Option.filter]

/-- What a message leaves at its own key, from what was there. -/
def receiveAt (now : Int) (peer : Url) (msg : IntentMessage AgentId)
    (held : Option (ShrinkIntent Url)) : Option (ShrinkIntent Url) :=
  if msg.withdrawn then held.filter fun i => decide (i.expiresAt ≠ msg.expiresAt)
  else
    match admitted now msg with
    | none => held
    | some vacate =>
        some { vacate := vacate, expiresAt := msg.expiresAt, sender := some peer }

theorem lookup_receiveInto_self (table : IntentTable AgentId Url) (now : Int) (peer : Url)
    (msg : IntentMessage AgentId) :
    (receiveInto table now peer msg).lookup (msg.agentId, some peer) =
      receiveAt now peer msg (table.lookup (msg.agentId, some peer)) := by
  rw [receiveInto_eq, receiveAt]
  split_ifs with hw
  · exact lookup_withdraw_self table msg.agentId (some peer) msg.expiresAt
  · cases admitted now msg with
    | none => rfl
    | some vacate =>
        exact table.lookup_insert_self msg.agentId
          { vacate := vacate, expiresAt := msg.expiresAt, sender := some peer }

theorem lookup_receiveInto_ne (table : IntentTable AgentId Url) {now : Int} {peer : Url}
    {msg : IntentMessage AgentId} {key : AgentId × Option Url}
    (h : key ≠ (msg.agentId, some peer)) :
    (receiveInto table now peer msg).lookup key = table.lookup key := by
  rw [receiveInto_eq]
  split_ifs with hw
  · exact table.lookup_withdraw_ne h
  · cases admitted now msg with
    | none => rfl
    | some vacate => exact table.lookup_insert_ne h

/-! ## A run, one key at a time -/

/-- What a step leaves at `key` of the table of kind `kind`, from what was there. -/
def stepAt (kind : Bool) (key : AgentId × Option Url) (held : Option (ShrinkIntent Url)) :
    TableStep AgentId Url → Option (ShrinkIntent Url)
  | .received now peer msg =>
      if kind = msg.grow ∧ key = (msg.agentId, some peer) then receiveAt now peer msg held
      else held
  | .filed grow agent vacate expiresAt =>
      if kind = grow ∧ key = (agent, none) then
        some { vacate := vacate, expiresAt := expiresAt, sender := none }
      else held
  | .removed grow agent => if kind = grow ∧ key = (agent, none) then none else held
  | .checked now => held.filter fun i => decide (i.expiresAt > now)

/-- A step reads and writes each key on its own. -/
theorem lookup_step (tables : Tables AgentId Url) (kind : Bool) (key : AgentId × Option Url)
    (s : TableStep AgentId Url) :
    ((tables.step s).of kind).lookup key = stepAt kind key ((tables.of kind).lookup key) s := by
  cases s with
  | received now peer msg =>
      rw [Tables.of_received, stepAt]
      -- the table of the other kind is not touched, nor an entry under another key
      by_cases hk : kind = msg.grow
      · by_cases hkey : key = (msg.agentId, some peer)
        · rw [if_pos hk, if_pos ⟨hk, hkey⟩, hkey]
          exact lookup_receiveInto_self _ now peer msg
        · rw [if_pos hk, if_neg fun h => hkey h.2]
          exact lookup_receiveInto_ne _ hkey
      · rw [if_neg hk, if_neg fun h => hk h.1]
  | filed grow agent vacate expiresAt =>
      rw [Tables.step, Tables.of_modify, stepAt]
      by_cases hk : kind = grow
      · by_cases hkey : key = (agent, none)
        · rw [if_pos hk, if_pos ⟨hk, hkey⟩, hkey]
          exact IntentTable.lookup_insert_self _ agent
            { vacate := vacate, expiresAt := expiresAt, sender := none }
        · rw [if_pos hk, if_neg fun h => hkey h.2]
          exact IntentTable.lookup_insert_ne _ hkey
      · rw [if_neg hk, if_neg fun h => hk h.1]
  | removed grow agent =>
      rw [Tables.step, Tables.of_modify, stepAt]
      by_cases hk : kind = grow
      · by_cases hkey : key = (agent, none)
        · rw [if_pos hk, if_pos ⟨hk, hkey⟩, hkey]
          exact IntentTable.lookup_remove_self _ agent
        · rw [if_pos hk, if_neg fun h => hkey h.2]
          exact IntentTable.lookup_remove_ne _ hkey
      · rw [if_neg hk, if_neg fun h => hk h.1]
  | checked now =>
      rw [Tables.of_checked, stepAt]
      exact IntentTable.lookup_retain _ _ key

/-- So does a whole run. -/
theorem lookup_run (history : List (TableStep AgentId Url)) (kind : Bool)
    (key : AgentId × Option Url) :
    ∀ tables : Tables AgentId Url,
      ((tables.run history).of kind).lookup key =
        history.foldl (stepAt kind key) ((tables.of kind).lookup key) := by
  induction history with
  | nil => intro tables; rfl
  | cons s history ih =>
      intro tables
      have hrun : tables.run (s :: history) = (tables.step s).run history := rfl
      rw [hrun, ih, lookup_step, List.foldl_cons]

/-- A step whose key is another one changes nothing at this key. -/
theorem foldl_stepAt_filter {kind : Bool} {key : AgentId × Option Url}
    {keep : TableStep AgentId Url → Bool}
    (hdrop : ∀ s held, keep s = false → stepAt kind key held s = held)
    (history : List (TableStep AgentId Url)) :
    ∀ held, (history.filter keep).foldl (stepAt kind key) held =
      history.foldl (stepAt kind key) held := by
  induction history with
  | nil => intro held; rfl
  | cons s history ih =>
      intro held
      cases hk : keep s with
      | true => rw [List.filter_cons_of_pos hk, List.foldl_cons, List.foldl_cons, ih]
      | false =>
          rw [List.filter_cons_of_neg (by simp [hk]), List.foldl_cons, hdrop s held hk, ih]

end Sharding
end Kitsune2
