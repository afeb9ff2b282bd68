import Kitsune2.Transport.Steps

/-!
# Simultaneous open — two endpoints that dial each other

Each endpoint dials the other once and both connections reach both sides.  A connection is named by
the side that dialed it; each side runs the transport of `Node`, and the network carries preflights
and closes.  The connection dialed by the larger id is preferred on both sides, and this file has
what holds on one side of it and of the other connection in every state of every interleaving.
-/

namespace Kitsune2
namespace Transport

/-! ## Two endpoints -/

/-- An endpoint, and also the connection that this endpoint dialed. -/
inductive Side where
  | left
  | right
  deriving DecidableEq, Repr

namespace Side

def other : Side → Side
  | .left => .right
  | .right => .left

@[simp]
theorem other_other (s : Side) : s.other.other = s := by
  cases s <;> rfl

theorem other_ne (s : Side) : s.other ≠ s := by
  cases s <;> decide

theorem eq_or_eq_other (s c : Side) : c = s ∨ c = s.other := by
  cases s <;> cases c <;> decide

theorem eq_other_of_ne {s c : Side} (h : c ≠ s) : c = s.other :=
  (eq_or_eq_other s c).resolve_left h

end Side

variable {Id Url : Type}

/-- The ids and the URLs of the two endpoints. -/
structure Endpoints (Id Url : Type) [LinearOrder Id] where
  id : Side → Id
  url : Side → Url
  distinct : id .left ≠ id .right

namespace Endpoints

variable [LinearOrder Id]

/-- The connection dialed by the larger id. -/
def preferred (ends : Endpoints Id Url) : Side :=
  if ends.id .left < ends.id .right then .right else .left

/-- Both sides prefer the connection that the larger id dialed. -/
theorem preferred_iff (ends : Endpoints Id Url) (s c : Side) :
    (decide (c = s) == decide (ends.id s.other < ends.id s)) = decide (c = ends.preferred) := by
  rcases lt_or_gt_of_ne ends.distinct with hlt | hlt
  · have hge : ¬ ends.id .right < ends.id .left := not_lt_of_gt hlt
    cases s <;> cases c <;> simp [preferred, Side.other, hlt, hge]
  · have hge : ¬ ends.id .left < ends.id .right := not_lt_of_gt hlt
    cases s <;> cases c <;> simp [preferred, Side.other, hlt, hge]

theorem preferred_larger (ends : Endpoints Id Url) :
    ends.id ends.preferred.other < ends.id ends.preferred := by
  rcases lt_or_gt_of_ne ends.distinct with hlt | hlt
  · simp [preferred, Side.other, hlt]
  · have hge : ¬ ends.id .left < ends.id .right := not_lt_of_gt hlt
    simpa [preferred, Side.other, hge] using hlt

end Endpoints

/-- The two transports. -/
abbrev Pair (Id Url : Type) := Side → Node Id Url Side

namespace Pair

variable [DecidableEq Url] [LinearOrder Id]

def initial (ends : Endpoints Id Url) : Pair Id Url := fun s => Node.initial (ends.id s)

/-- What can happen on one side when nothing fails: the side dials once, accepts the other's dial,
reads what the other side has written, sees the other's close, and its reads and writes fail only on
a closed connection. -/
def Faultless (ends : Endpoints Id Url) (p : Pair Id Url) (s : Side) :
    Node.Event Id Url Side → Prop
  | .dialed c remoteId url => c = s ∧ remoteId = ends.id s.other ∧ url = ends.url s.other
  | .accepted c remoteId => c = s.other ∧ remoteId = ends.id s.other
  | .preflightRead c url =>
      url = ends.url s.other ∧ ((p s.other).context c).written = true
  | .dialWriteFailed c _ | .readFailed c _ | .returnFailed c _ =>
      ((p s).context c).link ≠ .opened
  | .remoteClosed c code reason =>
      ((p s.other).context c).link = .closedLocally code reason ∧
        ((p s).context c).reader ≠ .notStarted
  | .preflightRefused _ _ _ | .connectionLost _ | .dataRead _ _ | .slotTaken _
  | .takenClosed _ _ | .sendGaveUp _ _ => False
  | _ => True

/-- One step of either side. -/
inductive Step (ends : Endpoints Id Url) (p : Pair Id Url) : Pair Id Url → Prop
  | move (s : Side) (e : Node.Event Id Url Side) (n : Node Id Url Side)
      (hstep : Node.Step (p s) e n) (hok : p.Faultless ends s e) :
      Step ends p (Function.update p s n)

/-- The states after a number of steps. -/
inductive Run (ends : Endpoints Id Url) : Nat → Pair Id Url → Prop
  | initial : Run ends 0 (initial ends)
  | step {k : Nat} {p p' : Pair Id Url} (h : Run ends k p) (hstep : Step ends p p') :
      Run ends (k + 1) p'

end Pair

/-! ## One connection on one side -/

namespace ReaderStage

variable {Conn : Type}

/-- The preflight was read, so the URL is known. -/
def hasRead : ReaderStage Conn → Bool
  | .received | .displacing _ | .returning | .activating | .serving | .removed _ _
  | .marked _ _ => true
  | _ => false

/-- The reader has claimed the slot and not given it back. -/
def hasClaimed : ReaderStage Conn → Bool
  | .displacing _ | .returning | .activating | .serving => true
  | _ => false

/-- The reader has not come to its exit. -/
def isUp : ReaderStage Conn → Bool
  | .exiting _ | .removed _ _ | .marked _ _ | .finished => false
  | _ => true

/-- The reader has given its slot back. -/
def hasLeft : ReaderStage Conn → Bool
  | .removed _ _ | .marked _ _ | .finished => true
  | _ => false

end ReaderStage

namespace DialStage

variable {Conn : Type}

/-- The registry has given its verdict on the dialed connection. -/
def hasClaimed : DialStage Conn → Bool
  | .idle | .created => false
  | _ => true

/-- The dial has gone as the preferred one goes. -/
def isUp : DialStage Conn → Bool
  | .idle | .created | .displacing _ | .writing | .done => true
  | _ => false

end DialStage

/-- What holds of either connection on side `s` whose peer has URL `u`. -/
structure Addressed [LinearOrder Id] (localId : Id) (s c : Side) (u : Url) (preferred : Side)
    (ctx : ConnectionContext Id Url Side) : Prop where
  ranked : ctx.reader ≠ .notStarted →
    ctx.isPreferredConnection localId = decide (c = preferred)
  remote : ∀ url, ctx.remoteUrl = some url → url = u
  known : ctx.reader.hasRead = true → ctx.remoteUrl = some u
  dialed : ctx.dial ≠ .idle → ctx.dialedUrl = some u ∧ ctx.remoteUrl = some u
  unborn : ctx.reader = .notStarted →
    ctx.dial = .idle ∧ ctx.remoteUrl = none ∧ ctx.written = false ∧ ctx.link = .opened
  own : c = s → ctx.dial = .idle → ctx.reader = .notStarted
  others : c ≠ s → ctx.dial = .idle
  /-- An end that has written or closed has a URL for the other. -/
  heard : ctx.written = true ∨ (∃ code reason, ctx.link = .closedLocally code reason) →
    ctx.remoteUrl = some u

/-- What holds of the preferred connection on one side. -/
structure WinnerOk (w : Side) (slot : Option Side) (ctx : ConnectionContext Id Url Side) :
    Prop where
  link : ctx.link = .opened
  live : ctx.lifecycle.isLive = true
  reader : ctx.reader.isUp = true
  dial : ctx.dial.isUp = true
  held : slot = some w → ctx.reader ≠ .notStarted
  claimed : ctx.reader.hasClaimed = true ∨ ctx.dial.hasClaimed = true → slot = some w
  active : ctx.reader = .serving → ctx.lifecycle = .active
  /-- Its preflight is on the wire when the dial is done, or when it was returned. -/
  dialWritten : ctx.dial = .done → ctx.written = true
  returned : ctx.preflightSent = true → ctx.dial ≠ .idle ∨ ctx.written = true
  sent : ctx.reader = .activating ∨ ctx.reader = .serving → ctx.preflightSent = true

/-- What holds of the other connection on one side. -/
structure LoserOk (l : Side) (u : Url) (slot : Option Side)
    (ctx : ConnectionContext Id Url Side) : Prop where
  /-- Before the dial registers it, nothing has happened to it. -/
  early : ctx.dial = .created →
    ctx.link = .opened ∧ ctx.reader = .awaiting ∧ ctx.written = false ∧ slot ≠ some l
  /-- It leaves only because it was superseded, by this side or by the other. -/
  exiting : ctx.reader.isUp = false → ctx.reader ≠ .finished → ctx.isSuperseded = true
  marked : ∀ wasActive exit, ctx.reader = .marked wasActive exit → ctx.lifecycle = .superseded
  finished : ctx.reader = .finished → ctx.lifecycle.isLive = false
  closed : ctx.lifecycle = .closed → ctx.reader = .finished ∧ ctx.remoteUrl = none
  /-- It closes without a URL only after the connection was closed. -/
  unread : ∀ exit, ctx.reader = .exiting exit → ctx.remoteUrl = none → ctx.link ≠ .opened
  held : slot = some l →
    ctx.lifecycle.isLive = true ∧ ctx.reader.hasLeft = false ∧ ctx.remoteUrl = some u
  claimed : ctx.reader.hasClaimed = true ∨ ctx.dial.hasClaimed = true →
    slot = some l ∨ ctx.lifecycle = .superseded ∨ ctx.reader.hasLeft = true
  closedLocally : ∀ code reason, ctx.link = .closedLocally code reason →
    code = .superseded ∧ ctx.lifecycle = .superseded
  closedRemotely : ∀ code reason, ctx.link = .closedRemotely code reason → code = .superseded
  notLost : ctx.link ≠ .lost
  rejected : ctx.dial = .rejected → ctx.lifecycle = .superseded
  notFailed : (∀ err, ctx.dial ≠ .failing err) ∧ ctx.dial ≠ .failed
  unwritten : ctx.dial = .done → ctx.written = false → ctx.link ≠ .opened
  displacesNone : ∀ d, ctx.reader ≠ .displacing (some d) ∧ ctx.dial ≠ .displacing (some d)

/-! ## How a connection moves on -/

section Moves

variable {localId : Id} {s c w l : Side} {u : Url} {slot slot' : Option Side}
  {ctx ctx' : ConnectionContext Id Url Side}

theorem Addressed.ofDialed [DecidableEq Url] [LinearOrder Id] (ends : Endpoints Id Url) (hc : c = s) :
    Addressed (ends.id s) s c (ends.url s.other) ends.preferred
      (.dialed (ends.id s.other) (ends.url s.other)) where
  ranked := by
    intro _
    rw [← ends.preferred_iff s c]
    simp only [ConnectionContext.isPreferredConnection, ConnectionContext.dialed, hc, decide_true,
      Bool.true_beq]
    exact decide_eq_decide.mpr Iff.rfl
  remote := by
    intro url hurl
    cases hurl
    rfl
  known := fun _ => rfl
  dialed := fun _ => ⟨rfl, rfl⟩
  unborn := by simp [ConnectionContext.dialed]
  own := by simp [ConnectionContext.dialed]
  others := fun hne => absurd hc hne
  heard := fun _ => rfl

theorem Addressed.ofAccepted [DecidableEq Url] [LinearOrder Id] (ends : Endpoints Id Url)
    (hc : c = s.other) :
    Addressed (ends.id s) s c (ends.url s.other) ends.preferred
      (.accepted (ends.id s.other)) where
  ranked := by
    intro _
    rw [← ends.preferred_iff s c]
    simp only [ConnectionContext.isPreferredConnection, ConnectionContext.accepted,
      ConnectionContext.unborn, hc, decide_eq_false (Side.other_ne s), Bool.false_beq]
    exact congrArg Bool.not (decide_eq_decide.mpr Iff.rfl)
  remote := by simp [ConnectionContext.accepted, ConnectionContext.unborn]
  known := by simp [ConnectionContext.accepted, ReaderStage.hasRead]
  dialed := by simp [ConnectionContext.accepted, ConnectionContext.unborn]
  unborn := by simp [ConnectionContext.accepted]
  own := fun heq => absurd (hc.symm.trans heq) (Side.other_ne s)
  others := fun _ => rfl
  heard := by simp [ConnectionContext.accepted, ConnectionContext.unborn]

/-- A connection that exists keeps its endpoint and its URL. -/
theorem Addressed.of_moved [LinearOrder Id] (h : Addressed localId s c u w ctx)
    (hid : ctx'.remoteId = ctx.remoteId)
    (hby : ctx'.dialedByUs = ctx.dialedByUs) (hurl : ctx'.dialedUrl = ctx.dialedUrl)
    (hremote : ctx'.remoteUrl = ctx.remoteUrl ∨ ctx'.remoteUrl = some u)
    (hborn : ctx.reader ≠ .notStarted) (hborn' : ctx'.reader ≠ .notStarted)
    (hdial : ctx'.dial = .idle ↔ ctx.dial = .idle)
    (hknown : ctx'.reader.hasRead = true → ctx'.remoteUrl = some u)
    (hheard : ctx'.written = true ∨ (∃ code reason, ctx'.link = .closedLocally code reason) →
      ctx'.remoteUrl = some u) :
    Addressed localId s c u w ctx' where
  -- id and dialer are the same, so the rank is
  ranked := by
    intro _
    rw [← h.ranked hborn, ConnectionContext.isPreferredConnection,
      ConnectionContext.isPreferredConnection, hid, hby]
  remote := by
    intro url hurl'
    rcases hremote with heq | heq
    · exact h.remote url (heq ▸ hurl')
    · rw [heq, Option.some.injEq] at hurl'
      exact hurl'.symm
  known := hknown
  dialed := by
    intro hne
    obtain ⟨hd, hr⟩ := h.dialed fun hidle => hne (hdial.mpr hidle)
    refine ⟨hurl ▸ hd, ?_⟩
    rcases hremote with heq | heq
    · rw [heq, hr]
    · exact heq
  unborn := fun hreader => absurd hreader hborn'
  own := fun hc hidle => absurd (h.own hc (hdial.mp hidle)) hborn
  others := fun hc => hdial.mpr (h.others hc)
  heard := hheard

theorem Addressed.born [LinearOrder Id] (h : Addressed localId s c u w ctx) (hdial : ctx.dial ≠ .idle) :
    ctx.reader ≠ .notStarted :=
  fun hreader => hdial (h.unborn hreader).1

theorem Addressed.born_of_url [LinearOrder Id] (h : Addressed localId s c u w ctx)
    (hurl : ctx.remoteUrl = some u) :
    ctx.reader ≠ .notStarted := by
  intro hreader
  rw [(h.unborn hreader).2.1] at hurl
  cases hurl

/-- The preferred connection that has claimed nothing does not mind who holds the slot. -/
theorem WinnerOk.of_slot (h : WinnerOk w slot ctx) (hne : slot ≠ some w) (hne' : slot' ≠ some w) :
    WinnerOk w slot' ctx :=
  { h with
    held := fun heq => absurd heq hne'
    claimed := fun hclaimed => absurd (h.claimed hclaimed) hne }

theorem WinnerOk.takeSlot (h : WinnerOk w slot ctx) (hborn : ctx.reader ≠ .notStarted) :
    WinnerOk w (some w) ctx :=
  { h with
    held := fun _ => hborn
    claimed := fun _ => rfl }

theorem WinnerOk.accepted (remoteId : Id) :
    WinnerOk w slot (ConnectionContext.accepted remoteId : ConnectionContext Id Url Side) where
  link := rfl
  live := rfl
  reader := rfl
  dial := rfl
  held := by simp [ConnectionContext.accepted]
  claimed := by simp [ConnectionContext.accepted, ConnectionContext.unborn,
    ReaderStage.hasClaimed, DialStage.hasClaimed]
  active := by simp [ConnectionContext.accepted]
  dialWritten := by simp [ConnectionContext.accepted, ConnectionContext.unborn]
  returned := by simp [ConnectionContext.accepted, ConnectionContext.unborn]
  sent := by simp [ConnectionContext.accepted]

theorem WinnerOk.dialed (remoteId : Id) :
    WinnerOk w slot (ConnectionContext.dialed remoteId u) where
  link := rfl
  live := rfl
  reader := rfl
  dial := rfl
  held := by simp [ConnectionContext.dialed]
  claimed := by simp [ConnectionContext.dialed, ReaderStage.hasClaimed, DialStage.hasClaimed]
  active := by simp [ConnectionContext.dialed]
  dialWritten := by simp [ConnectionContext.dialed]
  returned := by simp [ConnectionContext.dialed]
  sent := by simp [ConnectionContext.dialed]

theorem WinnerOk.dialClaimed (h : WinnerOk w (some w) ctx) (displaced : Option Side) :
    WinnerOk w (some w) { ctx with dial := .displacing displaced } :=
  { h with
    dial := rfl
    claimed := fun _ => rfl
    dialWritten := by simp
    returned := fun _ => Or.inl (by simp) }

theorem WinnerOk.dialDisplaced (h : WinnerOk w slot ctx) {displaced : Option Side}
    (hdial : ctx.dial = .displacing displaced) : WinnerOk w slot { ctx with dial := .writing } :=
  { h with
    dial := rfl
    claimed := fun _ => h.claimed (Or.inr (by rw [hdial]; rfl))
    dialWritten := by simp
    returned := fun _ => Or.inl (by simp) }

theorem WinnerOk.dialWritten_step (h : WinnerOk w slot ctx) (hdial : ctx.dial = .writing) :
    WinnerOk w slot { ctx with written := true, dial := .done } :=
  { h with
    dial := rfl
    claimed := fun _ => h.claimed (Or.inr (by rw [hdial]; rfl))
    dialWritten := fun _ => rfl
    returned := fun _ => Or.inl (by simp) }

theorem WinnerOk.read (h : WinnerOk w slot ctx) :
    WinnerOk w slot { ctx with remoteUrl := some u, reader := .received } :=
  { h with
    reader := rfl
    held := by simp
    claimed := by
      rintro (hclaimed | hclaimed)
      · cases hclaimed
      · exact h.claimed (Or.inr hclaimed)
    active := by simp
    sent := by simp }

theorem WinnerOk.readerClaimed (h : WinnerOk w (some w) ctx) (displaced : Option Side) :
    WinnerOk w (some w) { ctx with reader := .displacing displaced } :=
  { h with
    reader := rfl
    held := by simp
    claimed := fun _ => rfl
    active := by simp
    sent := by simp }

theorem WinnerOk.readerDisplaced (h : WinnerOk w slot ctx) {displaced : Option Side}
    (hreader : ctx.reader = .displacing displaced) :
    WinnerOk w slot { ctx with reader := Node.afterDisplacing ctx } := by
  have hclaimed : slot = some w := h.claimed (Or.inl (by rw [hreader]; rfl))
  unfold Node.afterDisplacing
  split
  · rename_i hsent
    exact { h with
      reader := rfl, held := by simp, claimed := fun _ => hclaimed, active := by simp,
      sent := fun _ => hsent }
  · exact { h with
      reader := rfl, held := by simp, claimed := fun _ => hclaimed, active := by simp,
      sent := by simp }

theorem WinnerOk.returnSent (h : WinnerOk w slot ctx) (hreader : ctx.reader = .returning) :
    WinnerOk w slot
      { ctx with written := true, preflightSent := true, reader := .activating } :=
  { h with
    reader := rfl
    held := by simp
    claimed := fun _ => h.claimed (Or.inl (by rw [hreader]; rfl))
    active := by simp
    dialWritten := fun _ => rfl
    returned := fun _ => Or.inr rfl
    sent := fun _ => rfl }

theorem WinnerOk.activated (h : WinnerOk w slot ctx) (hreader : ctx.reader = .activating) :
    WinnerOk w slot { ctx with lifecycle := .active, reader := .serving } :=
  { h with
    live := rfl
    reader := rfl
    held := by simp
    claimed := fun _ => h.claimed (Or.inl (by rw [hreader]; rfl))
    active := fun _ => rfl
    sent := fun _ => h.sent (Or.inl hreader) }

/-! ### The other connection -/

theorem LoserOk.accepted (remoteId : Id) (hslot : slot ≠ some l) :
    LoserOk l u slot (ConnectionContext.accepted remoteId : ConnectionContext Id Url Side) where
  early := by simp [ConnectionContext.accepted, ConnectionContext.unborn]
  exiting := by simp [ConnectionContext.accepted, ReaderStage.isUp]
  marked := by simp [ConnectionContext.accepted]
  finished := by simp [ConnectionContext.accepted]
  closed := by simp [ConnectionContext.accepted, ConnectionContext.unborn]
  unread := by simp [ConnectionContext.accepted]
  held := fun h => absurd h hslot
  claimed := by simp [ConnectionContext.accepted, ConnectionContext.unborn,
    ReaderStage.hasClaimed, DialStage.hasClaimed]
  closedLocally := by simp [ConnectionContext.accepted, ConnectionContext.unborn]
  closedRemotely := by simp [ConnectionContext.accepted, ConnectionContext.unborn]
  notLost := by simp [ConnectionContext.accepted, ConnectionContext.unborn]
  rejected := by simp [ConnectionContext.accepted, ConnectionContext.unborn]
  notFailed := by simp [ConnectionContext.accepted, ConnectionContext.unborn]
  unwritten := by simp [ConnectionContext.accepted, ConnectionContext.unborn]
  displacesNone := by simp [ConnectionContext.accepted, ConnectionContext.unborn]

theorem LoserOk.dialed (remoteId : Id) (hslot : slot ≠ some l) :
    LoserOk l u slot (ConnectionContext.dialed remoteId u) where
  early := fun _ => ⟨rfl, rfl, rfl, hslot⟩
  exiting := by simp [ConnectionContext.dialed, ReaderStage.isUp]
  marked := by simp [ConnectionContext.dialed]
  finished := by simp [ConnectionContext.dialed]
  closed := by simp [ConnectionContext.dialed]
  unread := by simp [ConnectionContext.dialed]
  held := fun h => absurd h hslot
  claimed := by simp [ConnectionContext.dialed, ReaderStage.hasClaimed, DialStage.hasClaimed]
  closedLocally := by simp [ConnectionContext.dialed]
  closedRemotely := by simp [ConnectionContext.dialed]
  notLost := by simp [ConnectionContext.dialed]
  rejected := by simp [ConnectionContext.dialed]
  notFailed := by simp [ConnectionContext.dialed]
  unwritten := by simp [ConnectionContext.dialed]
  displacesNone := by simp [ConnectionContext.dialed]

/-- A reader that has moved on belongs to a connection that its dial has registered. -/
theorem LoserOk.dial_ne_created (h : LoserOk l u slot ctx) (hreader : ctx.reader ≠ .awaiting) :
    ctx.dial ≠ .created :=
  fun hcreated => hreader (h.early hcreated).2.1

/-- On a closed connection the verdict is that it was superseded. -/
theorem LoserOk.isSuperseded_of_closed (h : LoserOk l u slot ctx) (hlink : ctx.link ≠ .opened) :
    ctx.isSuperseded = true := by
  cases hl : ctx.link with
  | opened => exact absurd hl hlink
  | closedLocally code reason =>
      simp [ConnectionContext.isSuperseded, (h.closedLocally code reason hl).2]
  | closedRemotely code reason =>
      have hcode := h.closedRemotely code reason hl
      subst hcode
      simp [ConnectionContext.isSuperseded, hl, Link.remoteCloseReason]
  | lost => exact absurd hl h.notLost

theorem isSuperseded_of_lifecycle (h : ctx.lifecycle = .superseded) : ctx.isSuperseded = true := by
  simp [ConnectionContext.isSuperseded, h]

theorem LoserOk.superseded_of_dead (h : LoserOk l u slot ctx)
    (hdead : ctx.lifecycle.isLive = false) (hreader : ctx.reader ≠ .finished) :
    ctx.lifecycle = .superseded := by
  cases hstate : ctx.lifecycle with
  | pending => simp [hstate, ConnectionState.isLive] at hdead
  | active => simp [hstate, ConnectionState.isLive] at hdead
  | superseded => rfl
  | closed => exact absurd (h.closed hstate).1 hreader

/-- A reader that has claimed the slot still holds it, or has lost it to the preferred connection. -/
theorem LoserOk.held_or_superseded (h : LoserOk l u slot ctx)
    (hclaimed : ctx.reader.hasClaimed = true) : slot = some l ∨ ctx.lifecycle = .superseded := by
  rcases h.claimed (Or.inl hclaimed) with heq | hstate | hleft
  · exact Or.inl heq
  · exact Or.inr hstate
  · cases hr : ctx.reader <;> simp [hr, ReaderStage.hasClaimed, ReaderStage.hasLeft] at hclaimed hleft

/-- A free slot that the preferred connection takes. -/
theorem LoserOk.of_slot (h : LoserOk l u none ctx) (hslot : slot ≠ some l) :
    LoserOk l u slot ctx :=
  { h with
    early := by
      intro hdial
      obtain ⟨hlink, hreader, hwritten, -⟩ := h.early hdial
      exact ⟨hlink, hreader, hwritten, hslot⟩
    held := fun heq => absurd heq hslot
    claimed := by
      intro hclaimed
      rcases h.claimed hclaimed with heq | hrest
      · cases heq
      · exact Or.inr hrest }

/-- Superseded by the registry, it has no slot. -/
theorem LoserOk.supersede [DecidableEq Url] [LinearOrder Id] (h : LoserOk l u slot ctx)
    (hslot : slot' ≠ some l) :
    LoserOk l u slot' { ctx with lifecycle := .superseded } :=
  { h with
    early := by
      intro hdial
      obtain ⟨hlink, hreader, hwritten, -⟩ := h.early hdial
      exact ⟨hlink, hreader, hwritten, hslot⟩
    exiting := fun _ _ => isSuperseded_of_lifecycle rfl
    marked := fun _ _ _ => rfl
    finished := fun _ => rfl
    closed := by simp
    held := fun heq => absurd heq hslot
    claimed := fun _ => Or.inr (Or.inl rfl)
    closedLocally := fun code reason hl => ⟨(h.closedLocally code reason hl).1, rfl⟩
    rejected := fun _ => rfl }

theorem LoserOk.dialRefused (h : LoserOk l u slot ctx) (hstate : ctx.lifecycle = .superseded) :
    LoserOk l u slot { ctx with dial := .rejected } :=
  { h with
    early := by simp
    claimed := fun _ => Or.inr (Or.inl hstate)
    rejected := fun _ => hstate
    notFailed := by simp
    unwritten := by simp
    displacesNone := fun d => ⟨(h.displacesNone d).1, by simp⟩ }

theorem LoserOk.dialClaimed (h : LoserOk l u slot ctx) (hlive : ctx.lifecycle.isLive = true)
    (hreader : ctx.reader = .awaiting) (hurl : ctx.remoteUrl = some u) :
    LoserOk l u (some l) { ctx with dial := .displacing none } :=
  { h with
    early := by simp
    held := fun _ => ⟨hlive, by simp [hreader, ReaderStage.hasLeft], hurl⟩
    claimed := fun _ => Or.inl rfl
    rejected := by simp
    notFailed := by simp
    unwritten := by simp
    displacesNone := fun d => ⟨(h.displacesNone d).1, by simp⟩ }

/-- The superseded connection is closed. -/
theorem LoserOk.close [DecidableEq Url] [LinearOrder Id] (h : LoserOk l u slot ctx)
    (hstate : ctx.lifecycle = .superseded)
    (hdial : ctx.dial ≠ .created) (reason : String) :
    LoserOk l u slot { ctx with link := ctx.link.close .superseded reason } :=
  { h with
    early := fun hcreated => absurd hcreated hdial
    exiting := fun _ _ => isSuperseded_of_lifecycle hstate
    unread := fun _ _ _ => Link.close_ne_opened _ _ _
    closedLocally := by
      intro code' reason' hl
      cases hlink : ctx.link with
      | opened =>
          simp only [hlink, Link.close, Link.closedLocally.injEq] at hl
          exact ⟨hl.1.symm, hstate⟩
      | closedLocally code'' reason'' =>
          simp only [hlink, Link.close, Link.closedLocally.injEq] at hl
          exact ⟨hl.1 ▸ (h.closedLocally code'' reason'' hlink).1, hstate⟩
      | closedRemotely code'' reason'' => simp [hlink, Link.close] at hl
      | lost => simp [hlink, Link.close] at hl
    closedRemotely := by
      intro code' reason' hl
      cases hlink : ctx.link with
      | opened => simp [hlink, Link.close] at hl
      | closedLocally code'' reason'' => simp [hlink, Link.close] at hl
      | closedRemotely code'' reason'' =>
          simp only [hlink, Link.close, Link.closedRemotely.injEq] at hl
          exact hl.1 ▸ h.closedRemotely code'' reason'' hlink
      | lost => simp [hlink, Link.close] at hl
    notLost := by
      cases hlink : ctx.link with
      | lost => exact absurd hlink h.notLost
      | _ => simp [Link.close]
    unwritten := fun _ _ => Link.close_ne_opened _ _ _ }

/-- The dial is over without a preflight because the connection is closed. -/
theorem LoserOk.dialDone (h : LoserOk l u slot ctx) (hlink : ctx.link ≠ .opened)
    (hclaimed : ctx.dial.hasClaimed = true) : LoserOk l u slot { ctx with dial := .done } :=
  { h with
    early := by simp
    claimed := fun _ => h.claimed (Or.inr hclaimed)
    rejected := by simp
    notFailed := by simp
    unwritten := fun _ _ => hlink
    displacesNone := fun d => ⟨(h.displacesNone d).1, by simp⟩ }

theorem LoserOk.dialDisplaced (h : LoserOk l u slot ctx) {displaced : Option Side}
    (hdial : ctx.dial = .displacing displaced) :
    LoserOk l u slot { ctx with dial := .writing } :=
  { h with
    early := by simp
    claimed := fun _ => h.claimed (Or.inr (by rw [hdial]; rfl))
    rejected := by simp
    notFailed := by simp
    unwritten := by simp
    displacesNone := fun d => ⟨(h.displacesNone d).1, by simp⟩ }

theorem LoserOk.dialWritten (h : LoserOk l u slot ctx) (hdial : ctx.dial = .writing) :
    LoserOk l u slot { ctx with written := true, dial := .done } :=
  { h with
    early := by simp
    claimed := fun _ => h.claimed (Or.inr (by rw [hdial]; rfl))
    rejected := by simp
    notFailed := by simp
    unwritten := by simp
    displacesNone := fun d => ⟨(h.displacesNone d).1, by simp⟩ }

theorem LoserOk.read (h : LoserOk l u slot ctx) (hreader : ctx.reader = .awaiting)
    (hdial : ctx.dial ≠ .created) :
    LoserOk l u slot { ctx with remoteUrl := some u, reader := .received } :=
  { h with
    early := fun hcreated => absurd hcreated hdial
    exiting := by simp [ReaderStage.isUp]
    marked := by simp
    finished := by simp
    closed := by
      intro hstate
      have hfinished := (h.closed hstate).1
      rw [hreader] at hfinished
      cases hfinished
    unread := by simp
    held := fun heq => ⟨(h.held heq).1, rfl, rfl⟩
    claimed := by
      rintro (hclaimed | hclaimed)
      · cases hclaimed
      · rcases h.claimed (Or.inr hclaimed) with heq | hstate | hleft
        · exact Or.inl heq
        · exact Or.inr (Or.inl hstate)
        · rw [hreader] at hleft
          cases hleft
    displacesNone := fun d => ⟨by simp, (h.displacesNone d).2⟩ }

/-- The reader starts its exit, with a verdict that is not the peer's failure. -/
theorem LoserOk.exit (h : LoserOk l u slot ctx) (hup : ctx.reader.isUp = true)
    (hsuperseded : ctx.isSuperseded = true) (hdial : ctx.dial ≠ .created)
    (hunread : ctx.remoteUrl = none → ctx.link ≠ .opened) (exit : ReaderExit) :
    LoserOk l u slot { ctx with reader := .exiting exit } := by
  have hleft : ctx.reader.hasLeft = false := by
    cases hr : ctx.reader <;> simp [hr, ReaderStage.isUp, ReaderStage.hasLeft] at hup ⊢
  have hnot : ctx.reader ≠ .finished := by
    intro hr
    simp [hr, ReaderStage.isUp] at hup
  exact { h with
    early := fun hcreated => absurd hcreated hdial
    exiting := fun _ _ => hsuperseded
    marked := by simp
    finished := by simp
    closed := fun hstate => absurd (h.closed hstate).1 hnot
    unread := fun _ _ hnone => hunread hnone
    held := fun heq => ⟨(h.held heq).1, rfl, (h.held heq).2.2⟩
    claimed := by
      rintro (hclaimed | hclaimed)
      · cases hclaimed
      · rcases h.claimed (Or.inr hclaimed) with heq | hstate | hleft'
        · exact Or.inl heq
        · exact Or.inr (Or.inl hstate)
        · rw [hleft] at hleft'
          cases hleft'
    displacesNone := fun d => ⟨by simp, (h.displacesNone d).2⟩ }

/-- The reader goes on while it works. -/
theorem LoserOk.goOn (h : LoserOk l u slot ctx) (hdial : ctx.dial ≠ .created)
    (hnot : ctx.reader ≠ .finished) {stage : ReaderStage Side} (hup : stage.isUp = true)
    (hnone : ∀ d, stage ≠ .displacing (some d))
    (hclaimed : slot = some l ∨ ctx.lifecycle = .superseded) :
    LoserOk l u slot { ctx with reader := stage } := by
  have hleft : stage.hasLeft = false := by
    cases stage <;> simp [ReaderStage.isUp, ReaderStage.hasLeft] at hup ⊢
  exact { h with
    early := fun hcreated => absurd hcreated hdial
    exiting := fun hdown => by simp [hup] at hdown
    marked := by
      rintro wasActive exit rfl
      simp [ReaderStage.isUp] at hup
    finished := by
      rintro rfl
      simp [ReaderStage.isUp] at hup
    closed := fun hstate => absurd (h.closed hstate).1 hnot
    unread := by
      rintro exit rfl
      simp [ReaderStage.isUp] at hup
    held := fun heq => ⟨(h.held heq).1, hleft, (h.held heq).2.2⟩
    claimed := by
      intro _
      rcases hclaimed with heq | hstate
      · exact Or.inl heq
      · exact Or.inr (Or.inl hstate)
    displacesNone := fun d => ⟨hnone d, (h.displacesNone d).2⟩ }

theorem LoserOk.takeSlot (h : LoserOk l u slot ctx) (hlive : ctx.lifecycle.isLive = true)
    (hleft : ctx.reader.hasLeft = false) (hurl : ctx.remoteUrl = some u)
    (hdial : ctx.dial ≠ .created) : LoserOk l u (some l) ctx :=
  { h with
    early := fun hcreated => absurd hcreated hdial
    held := fun _ => ⟨hlive, hleft, hurl⟩
    claimed := fun _ => Or.inl rfl }

theorem LoserOk.wrote (h : LoserOk l u slot ctx) (hdial : ctx.dial ≠ .created) :
    LoserOk l u slot { ctx with written := true, preflightSent := true } :=
  { h with
    early := fun hcreated => absurd hcreated hdial
    unwritten := by simp }

/-- The slot holder becomes active. -/
theorem LoserOk.activate (h : LoserOk l u slot ctx) (hslot : slot = some l)
    (hup : ctx.reader.isUp = true) :
    LoserOk l u slot { ctx with lifecycle := .active } := by
  obtain ⟨hlive, hleft, hurl⟩ := h.held hslot
  exact { h with
    exiting := fun hdown => by simp [hup] at hdown
    marked := by
      intro wasActive exit hr
      simp only at hr
      simp [hr, ReaderStage.isUp] at hup
    finished := by
      intro hr
      simp only at hr
      simp [hr, ReaderStage.isUp] at hup
    closed := by simp
    held := fun _ => ⟨rfl, hleft, hurl⟩
    claimed := fun _ => Or.inl hslot
    closedLocally := by
      intro code reason hl
      have hstate := (h.closedLocally code reason hl).2
      simp [hstate, ConnectionState.isLive] at hlive
    rejected := by
      intro hdial
      simp [h.rejected hdial, ConnectionState.isLive] at hlive }

/-- The reader that never learned a URL ends after the connection was closed. -/
theorem LoserOk.endUnread (h : LoserOk l u slot ctx) (hnone : ctx.remoteUrl = none)
    (hdial : ctx.dial = .idle) (hlink : ctx.link ≠ .opened) (err : String) :
    LoserOk l u slot
      { ctx with
        lifecycle := ctx.lifecycle.markClosed, link := ctx.link.close .unspecified err,
        reader := .finished } := by
  -- the link is closed already, and closing it again changes nothing
  have hsame : ctx.link.close .unspecified err = ctx.link := by
    cases hl : ctx.link with
    | opened => exact absurd hl hlink
    | _ => rfl
  rw [hsame]
  exact { h with
    early := by simp [hdial]
    exiting := by simp
    marked := by simp
    finished := fun _ => ConnectionState.isLive_markClosed _
    closed := fun _ => ⟨rfl, hnone⟩
    unread := by simp
    held := by
      intro heq
      have hurl := (h.held heq).2.2
      rw [hnone] at hurl
      cases hurl
    claimed := fun _ => Or.inr (Or.inr rfl)
    closedLocally := by
      intro code reason hl
      obtain ⟨hcode, hstate⟩ := h.closedLocally code reason hl
      exact ⟨hcode, by simp only [hstate]; rfl⟩
    rejected := by simp [hdial]
    displacesNone := fun d => ⟨by simp, (h.displacesNone d).2⟩ }

variable [DecidableEq Url] [LinearOrder Id]

omit [DecidableEq Url] [LinearOrder Id] in
/-- The slot is given back. -/
theorem LoserOk.leave (h : LoserOk l u slot ctx) {exit : ReaderExit}
    (hreader : ctx.reader = .exiting exit) (hslot : slot' ≠ some l) (wasActive : Bool) :
    LoserOk l u slot' { ctx with reader := .removed wasActive exit } :=
  { h with
    early := fun hcreated => absurd hcreated (h.dial_ne_created (by simp [hreader]))
    exiting := fun _ _ => h.exiting (by rw [hreader]; rfl) (by simp [hreader])
    marked := by simp
    finished := by simp
    closed := by
      intro hstate
      have hr := (h.closed hstate).1
      rw [hreader] at hr
      cases hr
    unread := by simp
    held := fun heq => absurd heq hslot
    claimed := fun _ => Or.inr (Or.inr rfl)
    displacesNone := fun d => ⟨by simp, (h.displacesNone d).2⟩ }

/-- The cleanup leaves the lifecycle superseded. -/
theorem LoserOk.mark (h : LoserOk l u slot ctx) {wasActive : Bool} {exit : ReaderExit}
    (hreader : ctx.reader = .removed wasActive exit) :
    LoserOk l u slot { ctx with lifecycle := .superseded, reader := .marked wasActive exit } := by
  have hslot : slot ≠ some l := by
    intro heq
    have hleft := (h.held heq).2.1
    rw [hreader] at hleft
    cases hleft
  exact { h.supersede hslot with
    early := fun hcreated => absurd hcreated (h.dial_ne_created (by simp [hreader]))
    exiting := fun _ _ => isSuperseded_of_lifecycle rfl
    marked := fun _ _ _ => rfl
    finished := by simp
    closed := by simp
    unread := by simp
    held := fun heq => absurd heq hslot
    claimed := fun _ => Or.inr (Or.inl rfl)
    displacesNone := fun d => ⟨by simp, (h.displacesNone d).2⟩ }

theorem LoserOk.finish (h : LoserOk l u slot ctx) {wasActive : Bool} {exit : ReaderExit}
    (hreader : ctx.reader = .marked wasActive exit) (reason : String) :
    LoserOk l u slot
      { ctx with link := ctx.link.close .superseded reason, reader := .finished } := by
  have hstate := h.marked wasActive exit hreader
  have hdial := h.dial_ne_created (by simp [hreader])
  have hclose := h.close hstate hdial reason
  exact { hclose with
    early := fun hcreated => absurd hcreated hdial
    exiting := by simp
    marked := by simp
    finished := by
      intro _
      simp only [hstate]
      rfl
    closed := by simp [hstate]
    unread := by simp
    held := by
      intro heq
      have hleft := (h.held heq).2.1
      rw [hreader] at hleft
      cases hleft
    claimed := fun _ => Or.inr (Or.inr rfl)
    displacesNone := fun d => ⟨by simp, (h.displacesNone d).2⟩ }

omit [DecidableEq Url] [LinearOrder Id] in
theorem LoserOk.remoteClosed (h : LoserOk l u slot ctx) (hdial : ctx.dial ≠ .created)
    (reason : String) :
    LoserOk l u slot { ctx with link := .closedRemotely .superseded reason } :=
  { h with
    early := fun hcreated => absurd hcreated hdial
    exiting := by
      intro _ _
      simp [ConnectionContext.isSuperseded, Link.remoteCloseReason]
    unread := by simp
    closedLocally := by simp
    closedRemotely := by
      intro code reason' hl
      cases hl
      rfl
    notLost := by simp
    unwritten := by simp }

end Moves

end Transport
end Kitsune2
