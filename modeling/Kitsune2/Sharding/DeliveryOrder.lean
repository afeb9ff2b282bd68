import Kitsune2.Sharding.TableHistory

/-!
# Delivery order — what is left when an agent's messages overtake each other

Every announcement, refresh and withdrawal is broadcast in a task of its own, so the messages of one
agent may reach a peer in any order.  A table entry is replaced by whatever announcement arrives
last, whichever was sent last, and a withdrawal that comes before its announcement is forgotten.  The
table therefore ends as in-order delivery would leave it exactly when the last announcement to
arrive stands or falls with the last one sent.
-/

namespace Kitsune2
namespace Sharding

open Api

/-! ## A delivery -/

/-- The instants at which something happens to the tables: a message arrives, or a check reads
them. -/
inductive Slot where
  | arrival (now : Int)
  | check (now : Int)
  deriving DecidableEq, Repr

namespace Slot

def time : Slot → Int
  | .arrival now => now
  | .check now => now

def isArrival : Slot → Bool
  | .arrival _ => true
  | .check _ => false

end Slot

variable {AgentId Url : Type} [DecidableEq AgentId] [DecidableEq Url]

/-- The messages `msgs` from `peer`, in this order, one at each arrival slot. -/
def deliver (peer : Url) : List Slot → List (IntentMessage AgentId) → List (TableStep AgentId Url)
  | [], _ => []
  | .arrival _ :: _, [] => []
  | .arrival now :: slots, msg :: msgs => .received now peer msg :: deliver peer slots msgs
  | .check now :: slots, msgs => .checked now :: deliver peer slots msgs

/-- The messages with the instants they arrive at. -/
def arrivals : List Slot → List (IntentMessage AgentId) → List (Int × IntentMessage AgentId)
  | [], _ => []
  | .arrival _ :: _, [] => []
  | .arrival now :: slots, msg :: msgs => (now, msg) :: arrivals slots msgs
  | .check _ :: slots, msgs => arrivals slots msgs

/-- One agent's messages on their way to one node: `sent` in this order, `arrived` in another, and
read once all of them are there. -/
structure Delivery (AgentId Url : Type) where
  agent : AgentId
  peer : Url
  sent : List (IntentMessage AgentId)
  about : ∀ msg ∈ sent, msg.agentId = agent
  arrived : List (IntentMessage AgentId)
  perm : arrived.Perm sent
  slots : List Slot
  room : (slots.filter Slot.isArrival).length = sent.length
  readAt : Int
  timely : ∀ slot ∈ slots, slot.time ≤ readAt

namespace Delivery

/-- What the table of one kind shows for the agent when the messages came as in `msgs`. -/
def shown (d : Delivery AgentId Url) (msgs : List (IntentMessage AgentId)) (kind : Bool) :
    Option (ShrinkIntent Url) :=
  AList.lookup (d.agent, some d.peer)
    (((Tables.empty.run (deliver d.peer d.slots msgs)).of kind).live d.readAt).2

/-- The order the messages came in made no difference to either table. -/
def OrderIrrelevant (d : Delivery AgentId Url) : Prop :=
  ∀ kind, d.shown d.arrived kind = d.shown d.sent kind

end Delivery

/-! ## The last announcement of an order -/

/-- The sector range an announcement names. -/
def rangeOf (msg : IntentMessage AgentId) : SectorRange :=
  (msg.vacateStart / sectorSize, msg.vacateEnd / sectorSize + 1)

/-- A message that announces an intent of the given kind and is admitted on arrival. -/
def Announces (kind : Bool) (now : Int) (msg : IntentMessage AgentId) : Prop :=
  msg.grow = kind ∧ msg.withdrawn = false ∧ (admitted now msg).isSome

instance (kind : Bool) (now : Int) (msg : IntentMessage AgentId) :
    Decidable (Announces kind now msg) :=
  inferInstanceAs (Decidable (_ ∧ _))

/-- The last announcement of a kind that was admitted when it arrived, and what came after it. -/
def lastAnnounced (kind : Bool) :
    List (Int × IntentMessage AgentId) →
      Option (IntentMessage AgentId × List (IntentMessage AgentId))
  | [] => none
  | (now, msg) :: rest =>
      match lastAnnounced kind rest with
      | some last => some last
      | none =>
          if Announces kind now msg then some (msg, rest.map Prod.snd) else none

/-- A message that withdraws an intent of the given kind and expiry. -/
def withdraws (kind : Bool) (expiresAt : Int) (msg : IntentMessage AgentId) : Bool :=
  msg.grow == kind && msg.withdrawn && decide (msg.expiresAt = expiresAt)

/-- An announcement is void once it has expired or a withdrawal of it came after it. -/
def Void (kind : Bool) (readAt : Int)
    (last : IntentMessage AgentId × List (IntentMessage AgentId)) : Prop :=
  last.1.expiresAt ≤ readAt ∨ last.2.any (withdraws kind last.1.expiresAt) = true

instance (kind : Bool) (readAt : Int)
    (last : IntentMessage AgentId × List (IntentMessage AgentId)) :
    Decidable (Void kind readAt last) :=
  inferInstanceAs (Decidable (_ ∨ _))

/-- The last announcement to arrive and the last one sent are both void, or neither is and they
announce the same range until the same time. -/
def LastWordKept (kind : Bool) (readAt : Int)
    (arrived sent : List (Int × IntentMessage AgentId)) : Prop :=
  match lastAnnounced kind arrived, lastAnnounced kind sent with
  | none, none => True
  | some a, none => Void kind readAt a
  | none, some s => Void kind readAt s
  | some a, some s =>
      (Void kind readAt a ∧ Void kind readAt s) ∨
        (¬ Void kind readAt a ∧ ¬ Void kind readAt s ∧
          rangeOf a.1 = rangeOf s.1 ∧ a.1.expiresAt = s.1.expiresAt)

/-! ## What the table shows -/

/-- The entry an announcement makes. -/
def entryOf (peer : Url) (msg : IntentMessage AgentId) : ShrinkIntent Url :=
  { vacate := rangeOf msg, expiresAt := msg.expiresAt, sender := some peer }

/-- An entry that outlives the messages `after` and is live at `readAt`. -/
def outlives (kind : Bool) (readAt : Int) (after : List (IntentMessage AgentId))
    (i : ShrinkIntent Url) : Bool :=
  decide (i.expiresAt > readAt) && !after.any (withdraws kind i.expiresAt)

omit [DecidableEq AgentId] [DecidableEq Url] in
theorem outlives_nil (kind : Bool) (readAt : Int) :
    (outlives kind readAt ([] : List (IntentMessage AgentId)) : ShrinkIntent Url → Bool) =
      fun i => decide (i.expiresAt > readAt) := by
  funext i
  simp [outlives]

omit [DecidableEq AgentId] [DecidableEq Url] in
theorem outlives_cons (kind : Bool) (readAt : Int) (msg : IntentMessage AgentId)
    (after : List (IntentMessage AgentId)) (i : ShrinkIntent Url) :
    outlives kind readAt (msg :: after) i =
      (!withdraws kind i.expiresAt msg && outlives kind readAt after i) := by
  simp only [outlives, List.any_cons, Bool.not_or]
  cases withdraws kind i.expiresAt msg <;> simp

theorem stepAt_announces {kind : Bool} {now : Int} {peer : Url} {msg : IntentMessage AgentId}
    (h : Announces kind now msg) (held : Option (ShrinkIntent Url)) :
    stepAt kind (msg.agentId, some peer) held (.received now peer msg) =
      some (entryOf peer msg) := by
  obtain ⟨hkind, hw, ha⟩ := h
  obtain ⟨vacate, hv⟩ := Option.isSome_iff_exists.mp ha
  have hrange : vacate = rangeOf msg := by
    unfold admitted at hv
    dsimp only at hv
    split_ifs at hv
    exact (Option.some.inj hv).symm
  simp [stepAt, receiveAt, hkind, hw, hv, hrange, entryOf]

/-- Any other message leaves the entry, unless it withdraws it. -/
theorem stepAt_not_announces {kind : Bool} {now readAt : Int} {peer : Url}
    {msg : IntentMessage AgentId} (h : ¬ Announces kind now msg)
    (held : Option (ShrinkIntent Url)) (after : List (IntentMessage AgentId)) :
    (stepAt kind (msg.agentId, some peer) held (.received now peer msg)).filter
        (outlives kind readAt after) =
      held.filter (outlives kind readAt (msg :: after)) := by
  have hcons : (outlives kind readAt (msg :: after) : ShrinkIntent Url → Bool) =
      fun i => !withdraws kind i.expiresAt msg && outlives kind readAt after i :=
    funext (outlives_cons kind readAt msg after)
  rw [hcons, stepAt]
  by_cases hkind : kind = msg.grow
  · rw [if_pos ⟨hkind, rfl⟩, receiveAt]
    cases hw : msg.withdrawn with
    | true =>
        rw [if_pos rfl, Option.filter_filter]
        congr 1
        funext i
        by_cases he : i.expiresAt = msg.expiresAt
        · simp [withdraws, hkind, hw, he]
        · simp [withdraws, hkind, hw, he, Ne.symm he]
    | false =>
        -- not admitted, so nothing is filed
        have hnone : admitted now msg = none := by
          by_contra hsome
          exact h ⟨hkind.symm, hw, Option.isSome_iff_ne_none.mpr hsome⟩
        simp [hnone, withdraws, hw]
  · rw [if_neg fun hk => hkind hk.1]
    congr 1
    funext i
    have hother : withdraws kind i.expiresAt msg = false := by
      simp [withdraws, Ne.symm hkind]
    simp [hother]

omit [DecidableEq AgentId] [DecidableEq Url] in
/-- What a check drops before `readAt` would not be shown at `readAt`. -/
theorem filter_check_outlives {kind : Bool} {now readAt : Int} (hnow : now ≤ readAt)
    (held : Option (ShrinkIntent Url)) (after : List (IntentMessage AgentId)) :
    (held.filter fun i => decide (i.expiresAt > now)).filter (outlives kind readAt after) =
      held.filter (outlives kind readAt after) := by
  rw [Option.filter_filter]
  congr 1
  funext i
  by_cases hi : i.expiresAt > now
  · simp [hi]
  · have hi' : ¬ i.expiresAt > readAt := by omega
    simp [hi, hi', outlives]

/-- Followed from the left: either an announcement admitted on the way decides the entry, or what
was held before does. -/
theorem foldl_deliver (kind : Bool) (peer : Url) {agent : AgentId} {readAt : Int}
    (slots : List Slot) :
    ∀ (msgs : List (IntentMessage AgentId)) (held : Option (ShrinkIntent Url)),
      (∀ slot ∈ slots, slot.time ≤ readAt) → (∀ msg ∈ msgs, msg.agentId = agent) →
      ((deliver peer slots msgs).foldl (stepAt kind (agent, some peer)) held).filter
          (outlives kind readAt ([] : List (IntentMessage AgentId))) =
        match lastAnnounced kind (arrivals slots msgs) with
        | some (msg, after) => (some (entryOf peer msg)).filter (outlives kind readAt after)
        | none => held.filter (outlives kind readAt ((arrivals slots msgs).map Prod.snd)) := by
  induction slots with
  | nil =>
      intro msgs held _ _
      rfl
  | cons slot slots ih =>
      intro msgs held htime habout
      have htail : ∀ s ∈ slots, s.time ≤ readAt := fun s hs => htime s (by simp [hs])
      cases slot with
      -- a check drops what has expired by then, which the reading would drop as well
      | check now =>
          rw [deliver, arrivals, List.foldl_cons, ih msgs _ htail habout]
          cases lastAnnounced kind (arrivals slots msgs) with
          | some last => rfl
          | none => exact filter_check_outlives (htime (.check now) (by simp)) held _
      -- an arrival overwrites: only the last one that announces matters
      | arrival now =>
          cases msgs with
          | nil => rfl
          | cons msg msgs =>
              obtain rfl : msg.agentId = agent := habout msg (by simp)
              have hrest : ∀ m ∈ msgs, m.agentId = msg.agentId :=
                fun m hm => habout m (by simp [hm])
              rw [deliver, arrivals, List.foldl_cons, ih msgs _ htail hrest, lastAnnounced]
              cases lastAnnounced kind (arrivals slots msgs) with
              | some last => rfl
              | none =>
                  dsimp only
                  by_cases ha : Announces kind now msg
                  · rw [if_pos ha, stepAt_announces ha]
                  · rw [if_neg ha]
                    exact stepAt_not_announces ha held _

/-! ## When the order makes no difference -/

omit [DecidableEq AgentId] [DecidableEq Url] in
theorem filter_outlives (kind : Bool) (readAt : Int) (peer : Url)
    (last : IntentMessage AgentId × List (IntentMessage AgentId)) :
    (some (entryOf peer last.1)).filter (outlives kind readAt last.2) =
      if Void kind readAt last then none else some (entryOf peer last.1) := by
  by_cases hv : Void kind readAt last
  · rw [if_pos hv]
    rcases hv with hexpired | hwithdrawn
    · simp [Option.filter, outlives, entryOf, not_lt.mpr hexpired]
    · simp [Option.filter, outlives, entryOf, hwithdrawn]
  · rw [if_neg hv]
    obtain ⟨hlive, hkept⟩ := not_or.mp hv
    have houtlives : outlives kind readAt last.2 (entryOf peer last.1) = true := by
      rw [outlives, Bool.and_eq_true, decide_eq_true_eq]
      exact ⟨not_le.mp hlive, by simpa [entryOf] using hkept⟩
    simp [Option.filter, houtlives]

omit [DecidableEq AgentId] [DecidableEq Url] in
theorem entryOf_eq_iff {peer : Url} {msg msg' : IntentMessage AgentId} :
    entryOf peer msg = entryOf peer msg' ↔
      rangeOf msg = rangeOf msg' ∧ msg.expiresAt = msg'.expiresAt := by
  simp [entryOf]

namespace Delivery

/-- The table shows the last announcement to arrive, unless it is void. -/
theorem shown_eq (d : Delivery AgentId Url) {msgs : List (IntentMessage AgentId)}
    (habout : ∀ msg ∈ msgs, msg.agentId = d.agent) (kind : Bool) :
    d.shown msgs kind =
      match lastAnnounced kind (arrivals d.slots msgs) with
      | some last => if Void kind d.readAt last then none else some (entryOf d.peer last.1)
      | none => none := by
  have hlive : d.shown msgs kind =
      (((Tables.empty.run (deliver d.peer d.slots msgs)).of kind).lookup
        (d.agent, some d.peer)).filter fun i => decide (i.expiresAt > d.readAt) :=
    IntentTable.lookup_retain _ _ _
  have hempty : ((Tables.empty : Tables AgentId Url).of kind).lookup (d.agent, some d.peer) =
      none := by
    cases kind <;> exact AList.lookup_empty _
  have hfold := foldl_deliver kind d.peer d.slots msgs none d.timely habout
  rw [hlive, lookup_run, hempty]
  rw [outlives_nil] at hfold
  rw [hfold]
  cases lastAnnounced kind (arrivals d.slots msgs) with
  | none => rfl
  | some last => exact filter_outlives kind d.readAt d.peer last

/-- The order in which an agent's messages arrive makes no difference exactly when the last
announcement to arrive is void with, or says the same as, the last one sent. -/
theorem orderIrrelevant_iff (d : Delivery AgentId Url) :
    d.OrderIrrelevant ↔
      ∀ kind, LastWordKept kind d.readAt (arrivals d.slots d.arrived)
        (arrivals d.slots d.sent) := by
  have harrived : ∀ msg ∈ d.arrived, msg.agentId = d.agent :=
    fun msg hmsg => d.about msg (d.perm.mem_iff.mp hmsg)
  refine forall_congr' fun kind => ?_
  rw [d.shown_eq harrived, d.shown_eq d.about, LastWordKept]
  cases lastAnnounced kind (arrivals d.slots d.arrived) with
  | none =>
      cases lastAnnounced kind (arrivals d.slots d.sent) with
      | none => simp
      | some s =>
          dsimp only
          split_ifs with hs <;> simp [hs]
  | some a =>
      cases lastAnnounced kind (arrivals d.slots d.sent) with
      | none =>
          dsimp only
          split_ifs with ha <;> simp [ha]
      | some s =>
          dsimp only
          split_ifs with ha hs hs <;> simp [ha, hs, entryOf_eq_iff]

end Delivery

/-! ## A refresh overtaken by its announcement -/

/-- Agent `7` announces at `0` that it vacates the upper half of the ring, with a wait of `50`. -/
def announced : IntentMessage Nat :=
  { agentId := 7, vacateStart := 256 * sectorSize, vacateEnd := 512 * sectorSize - 1
    expiresAt := 100, withdrawn := false, grow := false }

/-- At its re-check it has to wait for its turn and refreshes the intent. -/
def refreshed : IntentMessage Nat := { announced with expiresAt := 160 }

/-- Both are on their way at once, and the refresh arrives first. -/
def overtaken : Delivery Nat Nat where
  agent := 7
  peer := 1
  sent := [announced, refreshed]
  about := by simp [announced, refreshed]
  arrived := [refreshed, announced]
  perm := List.Perm.swap _ _ _
  slots := [.arrival 51, .arrival 52]
  room := rfl
  readAt := 120
  timely := by simp [Slot.time]

/-- The peer no longer counts the agent as leaving, though its intent runs until `160`. -/
theorem overtaken_refresh_lost :
    overtaken.shown overtaken.arrived false = none ∧
      overtaken.shown overtaken.sent false =
        some { vacate := (256, 512), expiresAt := 160, sender := some 1 } ∧
      ¬ overtaken.OrderIrrelevant := by
  have harrived : overtaken.shown overtaken.arrived false = none := by decide
  have hsent : overtaken.shown overtaken.sent false =
      some { vacate := (256, 512), expiresAt := 160, sender := some 1 } := by decide
  refine ⟨harrived, hsent, ?_⟩
  intro h
  have heq := h false
  rw [harrived, hsent] at heq
  simp at heq

end Sharding
end Kitsune2
