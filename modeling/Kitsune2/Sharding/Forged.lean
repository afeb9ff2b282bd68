import Kitsune2.Sharding.TableHistory

/-!
# Forged intents — what others say about an agent changes nothing

A check consumes, about each agent, only the entry filed under the sender the peer store vouches
for.  Messages from anyone else land under other keys, so a run with them and a run without them
leave the same consumed intents.
-/

namespace Kitsune2
namespace Sharding

open Api

variable {AgentId Url : Type} [DecidableEq AgentId] [DecidableEq Url]

/-! ## Entries are filed under their sender -/

/-- Every entry of the table stands under the sender it records. -/
def FiledBySender (table : IntentTable AgentId Url) : Prop :=
  ∀ agent sender intent, table.lookup (agent, sender) = some intent → intent.sender = sender

theorem stepAt_sender {kind : Bool} {agent : AgentId} {sender : Option Url}
    {held : Option (ShrinkIntent Url)} {s : TableStep AgentId Url}
    (hheld : ∀ i, held = some i → i.sender = sender) :
    ∀ i, stepAt kind (agent, sender) held s = some i → i.sender = sender := by
  intro i hi
  cases s with
  | received now peer msg =>
      simp only [stepAt, receiveAt] at hi
      -- a filed message carries the sender it is keyed by
      split_ifs at hi with hkey hw
      · exact hheld i (Option.filter_eq_some_iff.mp hi).1
      · cases ha : admitted now msg with
        | none => rw [ha] at hi; exact hheld i hi
        | some vacate =>
            rw [ha] at hi
            obtain ⟨-, hkey⟩ := hkey
            have hsender : sender = some peer := congrArg Prod.snd hkey
            rw [← Option.some.inj hi, hsender]
      · exact hheld i hi
  | filed grow a vacate expiresAt =>
      simp only [stepAt] at hi
      split_ifs at hi with hkey
      · have hsender : sender = none := congrArg Prod.snd hkey.2
        rw [← Option.some.inj hi, hsender]
      · exact hheld i hi
  | removed grow a =>
      simp only [stepAt] at hi
      split_ifs at hi with hkey
      exact hheld i hi
  | checked now => exact hheld i (Option.filter_eq_some_iff.mp hi).1

theorem foldl_stepAt_sender {kind : Bool} {agent : AgentId} {sender : Option Url}
    (history : List (TableStep AgentId Url)) :
    ∀ held, (∀ i, held = some i → i.sender = sender) →
      ∀ i, history.foldl (stepAt kind (agent, sender)) held = some i → i.sender = sender := by
  induction history with
  | nil => intro held hheld; exact hheld
  | cons s history ih =>
      intro held hheld
      exact ih _ (stepAt_sender hheld)

theorem lookup_empty (kind : Bool) (key : AgentId × Option Url) :
    ((Tables.empty : Tables AgentId Url).of kind).lookup key = none := by
  cases kind <;> exact AList.lookup_empty key

theorem filedBySender_run (history : List (TableStep AgentId Url)) (kind : Bool) :
    FiledBySender ((Tables.empty.run history).of kind) := by
  intro agent sender intent h
  rw [lookup_run, lookup_empty] at h
  exact foldl_stepAt_sender history none (by simp) intent h

/-! ## The sender a check believes -/

/-- The URL the peer store declares for an agent. -/
def declaredUrl (declared : Declared AgentId Url) (agent : AgentId) : Option Url :=
  (declared agent).bind fun d => d.2

/-- The only sender whose intents about `agent` survive the filters. -/
def believed (declared : Declared AgentId Url) (ownIds : List AgentId) (agent : AgentId) :
    Option (Option Url) :=
  if ownIds.contains agent then some none
  else (declaredUrl declared agent).map some

theorem believed_of_intentDeclared {fits : DhtArc → SectorRange → Bool}
    {declared : Declared AgentId Url} {ownIds : List AgentId} {agent : AgentId}
    {intent : ShrinkIntent Url} (h : intentDeclared fits declared ownIds (agent, intent) = true) :
    believed declared ownIds agent = some intent.sender := by
  unfold intentDeclared at h
  unfold believed
  split_ifs at h ⊢ with hown
  · rw [Option.isNone_iff_eq_none.mp h]
  · cases hd : declared agent with
    | none => simp [hd] at h
    | some d =>
        obtain ⟨arc, url⟩ := d
        simp only [hd, Bool.and_eq_true, beq_iff_eq] at h
        obtain ⟨⟨hsome, hurl⟩, -⟩ := h
        obtain ⟨u, rfl⟩ := Option.isSome_iff_exists.mp hsome
        simp [declaredUrl, hd, ← hurl]

namespace Tables

/-- The containment rule of each kind. -/
def fits : Bool → DhtArc → SectorRange → Bool
  | true => isSiblingOf
  | false => arcContainsSectors

theorem consumed_eq (tables : Tables AgentId Url) (kind : Bool) (now : Int)
    (declared : Declared AgentId Url) (ownIds : List AgentId) :
    tables.consumed kind now declared ownIds =
      ((tables.of kind).live now).1.filter (intentDeclared (fits kind) declared ownIds) := by
  cases kind <;> rfl

/-- What a check consumes about an agent is read off one key. -/
theorem mem_consumed_iff {tables : Tables AgentId Url} {kind : Bool} {now : Int}
    {declared : Declared AgentId Url} {ownIds : List AgentId} {agent : AgentId}
    {intent : ShrinkIntent Url} (hfiled : FiledBySender (tables.of kind)) :
    (agent, intent) ∈ tables.consumed kind now declared ownIds ↔
      (tables.of kind).lookup (agent, intent.sender) = some intent ∧ now < intent.expiresAt ∧
        intentDeclared (fits kind) declared ownIds (agent, intent) = true := by
  rw [consumed_eq, List.mem_filter, IntentTable.mem_live_iff]
  constructor
  · rintro ⟨⟨sender, hlook, hlive⟩, hdecl⟩
    rw [hfiled agent sender intent hlook]
    exact ⟨hlook, hlive, hdecl⟩
  · rintro ⟨hlook, hlive, hdecl⟩
    exact ⟨⟨intent.sender, hlook, hlive⟩, hdecl⟩

/-- Two consumed intents about one agent are the same one. -/
theorem consumed_unique {tables : Tables AgentId Url} {kind : Bool} {now : Int}
    {declared : Declared AgentId Url} {ownIds : List AgentId} {agent : AgentId}
    {intent intent' : ShrinkIntent Url} (hfiled : FiledBySender (tables.of kind))
    (h : (agent, intent) ∈ tables.consumed kind now declared ownIds)
    (h' : (agent, intent') ∈ tables.consumed kind now declared ownIds) : intent = intent' := by
  obtain ⟨hlook, -, hdecl⟩ := (mem_consumed_iff hfiled).mp h
  obtain ⟨hlook', -, hdecl'⟩ := (mem_consumed_iff hfiled).mp h'
  have hsender : intent.sender = intent'.sender :=
    Option.some.inj ((believed_of_intentDeclared hdecl).symm.trans
      (believed_of_intentDeclared hdecl'))
  rw [hsender, hlook'] at hlook
  exact (Option.some.inj hlook).symm

theorem nodup_live {table : IntentTable AgentId Url} (hfiled : FiledBySender table) (now : Int) :
    (table.live now).1.Nodup := by
  have hentries : table.entries.Nodup := table.nodupKeys.nodup
  refine List.Nodup.map_on ?_ (hentries.filter _)
  rintro ⟨⟨a, s⟩, i⟩ h ⟨⟨a', s'⟩, i'⟩ h' heq
  simp only [Prod.mk.injEq] at heq
  obtain ⟨rfl, rfl⟩ := heq
  -- the sender is part of the intent, so equal intents stand under equal keys
  have hs := hfiled a s i (AList.mem_lookup_iff.mpr (List.mem_filter.mp h).1)
  have hs' := hfiled a s' i (AList.mem_lookup_iff.mpr (List.mem_filter.mp h').1)
  rw [← hs, ← hs']

/-- No two consumed intents of one kind are about the same agent. -/
theorem nodup_consumed_agents {tables : Tables AgentId Url} {kind : Bool} {now : Int}
    {declared : Declared AgentId Url} {ownIds : List AgentId}
    (hfiled : FiledBySender (tables.of kind)) :
    ((tables.consumed kind now declared ownIds).map Prod.fst).Nodup := by
  have hnodup : (tables.consumed kind now declared ownIds).Nodup := by
    rw [consumed_eq]
    exact (nodup_live hfiled now).filter _
  refine List.Nodup.map_on ?_ hnodup
  rintro ⟨a, i⟩ h ⟨a', i'⟩ h' heq
  obtain rfl : a = a' := heq
  rw [consumed_unique hfiled h h']

/-- The consumed intents about one agent: none, or one. -/
def consumedAbout (tables : Tables AgentId Url) (kind : Bool) (now : Int)
    (declared : Declared AgentId Url) (ownIds : List AgentId) (agent : AgentId) :
    LiveIntents AgentId Url :=
  (tables.consumed kind now declared ownIds).filter fun e => decide (e.1 = agent)

theorem mem_consumedAbout_iff {tables : Tables AgentId Url} {kind : Bool} {now : Int}
    {declared : Declared AgentId Url} {ownIds : List AgentId} {agent : AgentId}
    {e : AgentId × ShrinkIntent Url} (hfiled : FiledBySender (tables.of kind)) :
    e ∈ tables.consumedAbout kind now declared ownIds agent ↔
      e.1 = agent ∧ (tables.of kind).lookup (agent, e.2.sender) = some e.2 ∧
        now < e.2.expiresAt ∧ intentDeclared (fits kind) declared ownIds (agent, e.2) = true := by
  obtain ⟨a, i⟩ := e
  simp only [consumedAbout, List.mem_filter, decide_eq_true_eq]
  constructor
  · rintro ⟨h, rfl⟩
    exact ⟨rfl, (mem_consumed_iff hfiled).mp h⟩
  · rintro ⟨rfl, h⟩
    exact ⟨(mem_consumed_iff hfiled).mpr h, rfl⟩

theorem length_consumedAbout_le {tables : Tables AgentId Url} {kind : Bool} {now : Int}
    {declared : Declared AgentId Url} {ownIds : List AgentId} {agent : AgentId}
    (hfiled : FiledBySender (tables.of kind)) :
    (tables.consumedAbout kind now declared ownIds agent).length ≤ 1 := by
  have hnodup : ((tables.consumedAbout kind now declared ownIds agent).map Prod.fst).Nodup :=
    (nodup_consumed_agents hfiled).sublist ((List.filter_sublist).map Prod.fst)
  have hconst : (tables.consumedAbout kind now declared ownIds agent).map Prod.fst =
      List.replicate (tables.consumedAbout kind now declared ownIds agent).length agent := by
    rw [List.eq_replicate_iff]
    refine ⟨by simp, ?_⟩
    intro a ha
    obtain ⟨e, he, rfl⟩ := List.mem_map.mp ha
    exact ((mem_consumedAbout_iff hfiled).mp he).1
  rw [hconst] at hnodup
  exact List.nodup_replicate.mp hnodup

end Tables

/-! ## Two runs -/

/-- A message about `agent` that did not come from the URL the peer store declares for it. -/
def forged (declared : Declared AgentId Url) (agent : AgentId) : TableStep AgentId Url → Bool
  | .received _ peer msg =>
      decide (msg.agentId = agent) && decide (declaredUrl declared agent ≠ some peer)
  | _ => false

/-- The history without the forged messages about `agent`. -/
def withoutForged (declared : Declared AgentId Url) (agent : AgentId)
    (history : List (TableStep AgentId Url)) : List (TableStep AgentId Url) :=
  history.filter fun s => !forged declared agent s

/-- A forged message leaves the key a check believes as it was. -/
theorem stepAt_forged {kind : Bool} {declared : Declared AgentId Url} {ownIds : List AgentId}
    {agent : AgentId} {sender : Option Url} {held : Option (ShrinkIntent Url)}
    {s : TableStep AgentId Url} (hsender : believed declared ownIds agent = some sender)
    (hf : forged declared agent s = true) : stepAt kind (agent, sender) held s = held := by
  cases s with
  | received now peer msg =>
      simp only [forged, Bool.and_eq_true, decide_eq_true_eq] at hf
      obtain ⟨-, hpeer⟩ := hf
      have hne : (agent, sender) ≠ (msg.agentId, some peer) := by
        intro heq
        obtain ⟨-, rfl⟩ := Prod.mk.inj heq
        unfold believed at hsender
        split_ifs at hsender
        · simp at hsender
        · exact hpeer (by simpa using hsender)
      rw [stepAt, if_neg fun h => hne h.2]
  | filed grow a vacate expiresAt => simp [forged] at hf
  | removed grow a => simp [forged] at hf
  | checked now => simp [forged] at hf

theorem lookup_withoutForged {kind : Bool} {declared : Declared AgentId Url}
    {ownIds : List AgentId} {agent : AgentId} {sender : Option Url}
    (hsender : believed declared ownIds agent = some sender)
    (history : List (TableStep AgentId Url)) :
    ((Tables.empty.run (withoutForged declared agent history)).of kind).lookup (agent, sender) =
      ((Tables.empty.run history).of kind).lookup (agent, sender) := by
  rw [lookup_run, lookup_run]
  refine foldl_stepAt_filter ?_ history _
  intro s held hkeep
  exact stepAt_forged hsender (by simpa using hkeep)

/-- Lists of at most one entry with the same members are the same. -/
theorem eq_of_mem_iff_of_length_le {β : Type} {l l' : List β} (hl : l.length ≤ 1)
    (hl' : l'.length ≤ 1) (hmem : ∀ b, b ∈ l ↔ b ∈ l') : l = l' := by
  match l, l', hl, hl' with
  | [], [], _, _ => rfl
  | [], b :: _, _, _ => exact absurd ((hmem b).mpr (by simp)) (by simp)
  | a :: _, [], _, _ => exact absurd ((hmem a).mp (by simp)) (by simp)
  | [a], [b], _, _ => simpa using (hmem a).mp (by simp)

/-- What a check consumes about an agent is what it would consume without the forgeries. -/
theorem consumedAbout_withoutForged (history : List (TableStep AgentId Url)) (kind : Bool)
    (now : Int) (declared : Declared AgentId Url) (ownIds : List AgentId) (agent : AgentId) :
    (Tables.empty.run (withoutForged declared agent history)).consumedAbout kind now declared
        ownIds agent =
      (Tables.empty.run history).consumedAbout kind now declared ownIds agent := by
  have hfiled := filedBySender_run history kind
  have hfiled' := filedBySender_run (withoutForged declared agent history) kind
  refine eq_of_mem_iff_of_length_le (Tables.length_consumedAbout_le hfiled')
    (Tables.length_consumedAbout_le hfiled) ?_
  intro e
  rw [Tables.mem_consumedAbout_iff hfiled, Tables.mem_consumedAbout_iff hfiled']
  constructor
  · rintro ⟨hagent, hlook, hlive, hdecl⟩
    rw [lookup_withoutForged (believed_of_intentDeclared hdecl)] at hlook
    exact ⟨hagent, hlook, hlive, hdecl⟩
  · rintro ⟨hagent, hlook, hlive, hdecl⟩
    rw [← lookup_withoutForged (believed_of_intentDeclared hdecl)] at hlook
    exact ⟨hagent, hlook, hlive, hdecl⟩

/-! ## Own intents -/

theorem stepAt_own {kind : Bool} {agent : AgentId} {held : Option (ShrinkIntent Url)}
    {s : TableStep AgentId Url} {i : ShrinkIntent Url}
    (h : stepAt kind (agent, none) held s = some i) :
    held = some i ∨ s = .filed kind agent i.vacate i.expiresAt := by
  cases s with
  | received now peer msg =>
      rw [stepAt, if_neg (by simp)] at h
      exact .inl h
  | filed grow a vacate expiresAt =>
      simp only [stepAt] at h
      split_ifs at h with hkey
      · obtain ⟨rfl, hagent⟩ := hkey
        obtain rfl : agent = a := congrArg Prod.fst hagent
        obtain rfl := Option.some.inj h
        exact .inr rfl
      · exact .inl h
  | removed grow a =>
      simp only [stepAt] at h
      split_ifs at h
      exact .inl h
  | checked now => exact .inl (Option.filter_eq_some_iff.mp h).1

/-- An entry without a sender was filed by this node. -/
theorem foldl_stepAt_own {kind : Bool} {agent : AgentId} {i : ShrinkIntent Url}
    (history : List (TableStep AgentId Url)) :
    ∀ held, history.foldl (stepAt kind (agent, none)) held = some i →
      held = some i ∨ .filed kind agent i.vacate i.expiresAt ∈ history := by
  induction history with
  | nil => intro held h; exact .inl h
  | cons s history ih =>
      intro held h
      rcases ih _ h with hheld | hmem
      · rcases stepAt_own hheld with hheld | rfl
        · exact .inl hheld
        · exact .inr (by simp)
      · exact .inr (List.mem_cons_of_mem s hmem)

theorem filed_of_own {history : List (TableStep AgentId Url)} {kind : Bool} {agent : AgentId}
    {i : ShrinkIntent Url} (h : ((Tables.empty.run history).of kind).lookup (agent, none) = some i) :
    .filed kind agent i.vacate i.expiresAt ∈ history := by
  rw [lookup_run, lookup_empty] at h
  rcases foldl_stepAt_own history none h with hnone | hmem
  · simp at hnone
  · exact hmem

/-- Forged intents have no effect: over every history of the two tables and every view of the peer
store, what a check consumes about an agent is what it would consume had the messages about it from
elsewhere than its declared URL never come; it consumes at most one intent of a kind for an agent,
and for one of this node's own agents only what this node filed. -/
theorem forged_intents_no_effect (history : List (TableStep AgentId Url)) (kind : Bool)
    (now : Int) (declared : Declared AgentId Url) (ownIds : List AgentId) :
    (∀ agent,
      (Tables.empty.run (withoutForged declared agent history)).consumedAbout kind now declared
          ownIds agent =
        (Tables.empty.run history).consumedAbout kind now declared ownIds agent) ∧
    (((Tables.empty.run history).consumed kind now declared ownIds).map Prod.fst).Nodup ∧
    ∀ agent ∈ ownIds, ∀ intent,
      (agent, intent) ∈ (Tables.empty.run history).consumed kind now declared ownIds →
        intent.sender = none ∧
          .filed kind agent intent.vacate intent.expiresAt ∈ history := by
  have hfiled := filedBySender_run history kind
  refine ⟨consumedAbout_withoutForged history kind now declared ownIds,
    Tables.nodup_consumed_agents hfiled, ?_⟩
  intro agent hown intent hmem
  obtain ⟨hlook, -, hdecl⟩ := (Tables.mem_consumed_iff hfiled).mp hmem
  have hsender : intent.sender = none := by
    have hb := believed_of_intentDeclared hdecl
    rw [believed, if_pos (by simpa using hown)] at hb
    exact (Option.some.inj hb).symm
  rw [hsender] at hlook
  exact ⟨hsender, filed_of_own hlook⟩

end Sharding
end Kitsune2
