import Mathlib.Data.Nat.Basic
import Kitsune2.Transport.Steps

/-!
# Dead slots — what a finished reader leaves in the registry

A connection can hold the slot of the URL it dialed and the slot of the URL that the remote's
preflight names, while the reader's cleanup gives back the slot of the last known URL only.  When
the two URLs agree, and no dial registers a connection after its reader has given the slot back, no
slot is left with a connection whose reader has finished.
-/

namespace Kitsune2
namespace Transport

variable {Id Url Conn : Type}

/-- The reader's cleanup has marked the lifecycle. -/
def ConnectionContext.HasEnded (ctx : ConnectionContext Id Url Conn) : Prop :=
  match ctx.reader with
  | .marked _ _ | .finished => True
  | _ => False

/-- The connection has one URL, and its lifecycle ends with its reader. -/
structure ConnectionContext.OneUrl (ctx : ConnectionContext Id Url Conn) : Prop where
  unborn : ctx.reader = .notStarted → ctx.dialedUrl = none
  dialed : ∀ url, ctx.dialedUrl = some url → ctx.remoteUrl = some url
  unread : ctx.reader = .notStarted ∨ ctx.reader = .awaiting → ctx.remoteUrl = ctx.dialedUrl
  ended : ctx.HasEnded → ctx.lifecycle.isLive = false

namespace Node

/-- No slot refers to a connection whose reader has finished. -/
def NoDeadSlot (n : Node Id Url Conn) : Prop :=
  ∀ url c, n.slots url = some c → (n.context c).reader ≠ .finished

/-- The step keeps to the URL that was dialed, and registers no live connection whose reader has
given its slot back already. -/
def Orderly (n : Node Id Url Conn) : Event Id Url Conn → Prop
  | .preflightRead c url => ∀ dialed, (n.context c).dialedUrl = some dialed → dialed = url
  | .preflightRefused c url _ => ∀ dialed, (n.context c).dialedUrl = some dialed → dialed = url
  | .dialRegistered c _ =>
      (n.context c).lifecycle.isLive = true →
        ∀ wasActive exit, (n.context c).reader ≠ .removed wasActive exit
  | _ => True

/-! ## The invariant -/

/-- Slots are held under the connection's one URL, and only until its reader gives them back. -/
structure Placed (n : Node Id Url Conn) : Prop where
  oneUrl : ∀ c, (n.context c).OneUrl
  held : ∀ url c, n.slots url = some c →
    (n.context c).remoteUrl = some url ∧ ¬ (n.context c).HasLeft

theorem placed_initial (localId : Id) : Placed (initial localId : Node Id Url Conn) where
  oneUrl := by
    intro c
    refine ⟨fun _ => rfl, ?_, fun _ => rfl, fun hended => hended.elim⟩
    intro url h
    cases h
  held := by
    intro url c h
    cases h

end Node

namespace ConnectionContext

variable {ctx ctx' : ConnectionContext Id Url Conn}

/-- What does not touch the reader and the URLs keeps them one. -/
theorem OneUrl.of_same (h : ctx.OneUrl) (hdialed : ctx'.dialedUrl = ctx.dialedUrl)
    (hremote : ctx'.remoteUrl = ctx.remoteUrl) (hreader : ctx'.reader = ctx.reader)
    (hlive : ctx.lifecycle.isLive = false → ctx'.lifecycle.isLive = false) : ctx'.OneUrl := by
  refine ⟨?_, ?_, ?_, ?_⟩
  · rw [hdialed, hreader]
    exact h.unborn
  · rw [hdialed, hremote]
    exact h.dialed
  · rw [hdialed, hremote, hreader]
    exact h.unread
  · intro hended
    refine hlive (h.ended ?_)
    simpa only [HasEnded, hreader] using hended

theorem OneUrl.touched (h : ctx.OneUrl) (ht : ctx.Touched ctx') : ctx'.OneUrl :=
  h.of_same ht.dialedUrl ht.remoteUrl ht.reader ht.isLive

/-- A reader that has moved on keeps the URLs one, and its lifecycle has to have ended when it
ends. -/
theorem OneUrl.of_moved (h : ctx.OneUrl) (hdialed : ctx'.dialedUrl = ctx.dialedUrl)
    (hremote : ctx'.remoteUrl = ctx.remoteUrl)
    (hread : ¬ (ctx'.reader = .notStarted ∨ ctx'.reader = .awaiting))
    (hended : ctx'.HasEnded → ctx'.lifecycle.isLive = false) : ctx'.OneUrl := by
  refine ⟨fun hr => absurd (Or.inl hr) hread, ?_, fun hr => absurd hr hread, hended⟩
  rw [hdialed, hremote]
  exact h.dialed

end ConnectionContext

namespace Node

variable [DecidableEq Url] [DecidableEq Conn] [LinearOrder Id]

variable {n n' : Node Id Url Conn} {e : Event Id Url Conn}

/-- Every orderly step keeps a connection's URLs one. -/
theorem Placed.oneUrl_step (h : n.Placed) (hstep : Step n e n') (horderly : n.Orderly e)
    (c : Conn) : (n'.context c).OneUrl := by
  have hold := h.oneUrl c
  by_cases hc : e.conn = some c
  case neg => exact hold.touched (hstep.touched_of_ne hc)
  cases hstep.readerMove hc with
  | dialed remoteId url he hreader hcontext =>
      rw [hcontext]
      refine ⟨?_, fun _ hurl => hurl, fun _ => rfl, fun hended => hended.elim⟩
      intro hr
      cases hr
  | accepted remoteId he hreader hcontext =>
      rw [hcontext]
      refine ⟨fun _ => rfl, ?_, fun _ => rfl, fun hended => hended.elim⟩
      intro url hurl
      cases hurl
  | stays hid hdialed hremote hreader hlive => exact hold.of_same hdialed hremote hreader hlive
  | read url he hreader hid hdialed hremote hreader' =>
      -- the condition on preflights is what keeps the dialed URL
      have hsame : ∀ dialed, (n.context c).dialedUrl = some dialed → dialed = url := by
        rcases he with rfl | ⟨exit, rfl⟩
        · exact horderly
        · exact horderly
      refine ⟨?_, ?_, ?_, ?_⟩
      · rcases hreader' with hr | ⟨exit, hr⟩ <;> simp [hr]
      · intro dialed hd
        rw [hremote, hsame dialed (hdialed ▸ hd)]
      · rcases hreader' with hr | ⟨exit, hr⟩ <;> simp [hr]
      · rcases hreader' with hr | ⟨exit, hr⟩ <;> simp [ConnectionContext.HasEnded, hr]
  | goesOn hid hdialed hremote hreader =>
      refine hold.of_moved hdialed hremote ?_ ?_
      · rcases hreader with hr | hr | hr | ⟨d, hr⟩ | ⟨exit, hr⟩ <;> simp [hr]
      · rcases hreader with hr | hr | hr | ⟨d, hr⟩ | ⟨exit, hr⟩ <;>
          simp [ConnectionContext.HasEnded, hr]
  | leaves hid hdialed hremote hslot hreader =>
      refine hold.of_moved hdialed hremote ?_ ?_
      · rcases hreader with ⟨hr, -⟩ | ⟨wasActive, exit, hr⟩ <;> simp [hr]
      · rcases hreader with ⟨hr, hdead⟩ | ⟨wasActive, exit, hr⟩
        · exact fun _ => hdead
        · simp [ConnectionContext.HasEnded, hr]
  | ends hleft hid hdialed hremote hreader =>
      refine hold.of_moved hdialed hremote ?_ ?_
      · rcases hreader with ⟨⟨wasActive, exit, hr⟩, -⟩ | ⟨-, hr, -⟩ <;> simp [hr]
      · rcases hreader with ⟨-, hdead⟩ | ⟨⟨wasActive, exit, hmarked⟩, -, hdead⟩
        · exact fun _ => hdead
        · exact fun _ => hdead (hold.ended (by simp [ConnectionContext.HasEnded, hmarked]))

/-- A slot that was held before the step is held under the same URL after it. -/
theorem Placed.held_of_held (h : n.Placed) (hstep : Step n e n') (horderly : n.Orderly e) {url : Url}
    {c : Conn} (hslot' : n'.slots url = some c) (hslot : n.slots url = some c) :
    (n'.context c).remoteUrl = some url ∧ ¬ (n'.context c).HasLeft := by
  obtain ⟨hurl, hleft⟩ := h.held url c hslot
  have hborn : (n.context c).reader ≠ .notStarted := by
    intro hreader
    rw [(h.oneUrl c).unread (Or.inl hreader), (h.oneUrl c).unborn hreader] at hurl
    cases hurl
  by_cases hc : e.conn = some c
  case neg =>
    have htouched := hstep.touched_of_ne hc
    refine ⟨htouched.remoteUrl ▸ hurl, ?_⟩
    simpa only [ConnectionContext.HasLeft, htouched.reader] using hleft
  cases hstep.readerMove hc with
  | dialed remoteId url' he hreader hcontext => exact absurd hreader hborn
  | accepted remoteId he hreader hcontext => exact absurd hreader hborn
  | stays hid hdialed hremote hreader hlive =>
      refine ⟨hremote ▸ hurl, ?_⟩
      simpa only [ConnectionContext.HasLeft, hreader] using hleft
  | read url' he hreader hid hdialed hremote hreader' =>
      -- no preflight was read yet, so the slot is the one of the dialed URL
      have hdialedUrl : (n.context c).dialedUrl = some url := by
        rw [← (h.oneUrl c).unread (Or.inr hreader)]
        exact hurl
      have hsame : url = url' := by
        rcases he with rfl | ⟨exit, rfl⟩
        · exact horderly url hdialedUrl
        · exact horderly url hdialedUrl
      subst hsame
      refine ⟨hremote, ?_⟩
      rcases hreader' with hr | ⟨exit, hr⟩ <;> simp [ConnectionContext.HasLeft, hr]
  | goesOn hid hdialed hremote hreader =>
      refine ⟨hremote ▸ hurl, ?_⟩
      rcases hreader with hr | hr | hr | ⟨d, hr⟩ | ⟨exit, hr⟩ <;>
        simp [ConnectionContext.HasLeft, hr]
  | leaves hid hdialed hremote hslots hreader => exact absurd hslot' (hslots url hurl)
  | ends hleft' hid hdialed hremote hreader => exact absurd hleft' hleft

/-- A connection that registers does so under its URL, before its reader gives the slot back. -/
theorem Placed.held_of_registered (h : n.Placed) (hstep : Step n e n') (horderly : n.Orderly e)
    {url : Url} {c : Conn} (he : e = .dialRegistered c url ∨ e = .readerRegistered c url)
    (hlive : (n.context c).lifecycle.isLive = true) :
    (n'.context c).remoteUrl = some url ∧ ¬ (n'.context c).HasLeft := by
  rcases he with rfl | rfl
  · cases hstep with
    | dialRegistered _ _ hdial hurl =>
        obtain ⟨ctx, stage, htouched, -, heq⟩ := dialRegister_context_self n c url
        rw [heq]
        refine ⟨?_, ?_⟩
        · rw [htouched.remoteUrl]
          exact (h.oneUrl c).dialed url hurl
        · intro hleft
          simp only [ConnectionContext.HasLeft, htouched.reader] at hleft
          -- past the removal the lifecycle is terminal, and a live one is excluded there
          cases hreader : (n.context c).reader with
          | removed wasActive exit => exact horderly hlive wasActive exit hreader
          | marked wasActive exit =>
              have hdead := (h.oneUrl c).ended (by simp [ConnectionContext.HasEnded, hreader])
              rw [hlive] at hdead
              cases hdead
          | finished =>
              have hdead := (h.oneUrl c).ended (by simp [ConnectionContext.HasEnded, hreader])
              rw [hlive] at hdead
              cases hdead
          | _ => simp [hreader] at hleft
  · cases hstep with
    | readerRegistered _ _ hreader hurl =>
        obtain ⟨ctx, stage, htouched, hstage, heq⟩ := readerRegister_context_self n c url
        rw [heq]
        refine ⟨htouched.remoteUrl ▸ hurl, ?_⟩
        rcases hstage with ⟨displaced, rfl⟩ | ⟨exit, rfl⟩ <;> simp [ConnectionContext.HasLeft]

theorem Placed.step (h : n.Placed) (hstep : Step n e n') (horderly : n.Orderly e) : n'.Placed where
  oneUrl := h.oneUrl_step hstep horderly
  held := by
    intro url c hslot'
    rcases hstep.slots hslot' with hslot | ⟨he, hlive⟩
    · exact h.held_of_held hstep horderly hslot' hslot
    · exact h.held_of_registered hstep horderly he hlive

theorem placed_of_orderly {localId : Id} (h : RunWhere Orderly localId n) : n.Placed := by
  induction h with
  | initial => exact placed_initial localId
  | step _ hstep horderly ih => exact ih.step hstep horderly

/-! ## The slots of finished connections -/

/-- A send to `url` picks a connection that is closed for good, and returns without an error and
without a live connection being tried. -/
def SilentOk (n : Node Id Url Conn) (url : Url) : Prop :=
  ∃ c, n.slots url = some c ∧ (n.context c).reader = .finished ∧
    (n.context c).lifecycle = .closed

/-- In an orderly run no slot is left with a connection whose reader has finished, and no send is
lost to one. -/
theorem noDeadSlot_of_orderly {localId : Id} (h : RunWhere Orderly localId n) :
    n.NoDeadSlot ∧ ∀ url, ¬ n.SilentOk url := by
  have hfinished : n.NoDeadSlot := by
    intro url c hslot hreader
    refine ((placed_of_orderly h).held url c hslot).2 ?_
    simp [ConnectionContext.HasLeft, hreader]
  refine ⟨hfinished, ?_⟩
  rintro url ⟨c, hslot, hreader, -⟩
  exact hfinished url c hslot hreader

end Node

/-! ## A preflight that names another URL -/

section OtherUrl

open Node

/-- Connection `0` to endpoint `7` was dialed for URL `1`, registered, and its preflight written. -/
private def dialedFor : Node Nat Nat Nat :=
  ((((Node.initial 5 : Node Nat Nat Nat).modify 0 fun _ => .dialed 7 1).dialRegister 0 1).setDial 0
    .writing).modify 0 fun ctx => { ctx with written := true, dial := .done }

private theorem dialedFor_orderly : RunWhere Orderly 5 dialedFor := by
  have hinitial : RunWhere Orderly 5 (Node.initial 5 : Node Nat Nat Nat) := .initial
  have hdialed := hinitial.step (.dialed 0 7 1 rfl) trivial
  have hregistered := hdialed.step (.dialRegistered 0 1 rfl rfl) (by
    intro _ wasActive exit h
    cases h)
  have hdisplaced := hregistered.step (.dialDisplaced 0 none rfl) trivial
  exact hdisplaced.step (.dialWritten 0 rfl rfl) trivial

/-- The remote answers under the dialed URL and leaves gracefully. -/
theorem orderly_peer_leaves :
    ∃ n : Node Nat Nat Nat, RunWhere Orderly 5 n ∧ (n.context 0).reader = .finished ∧ n.NoDeadSlot ∧
      ∀ url, ¬ n.SilentOk url := by
  have hread := dialedFor_orderly.step (.preflightRead 0 1 rfl) (by
    intro dialed h
    cases h
    rfl)
  have hregistered := hread.step (.readerRegistered 0 1 rfl rfl) trivial
  have hdisplaced := hregistered.step (.readerDisplaced 0 none rfl) trivial
  have hactive := hdisplaced.step (.readerActivated 0 1 rfl rfl) trivial
  have hclosed := hactive.step (.remoteClosed 0 .graceful "bye" rfl) trivial
  have hfailed := hclosed.step (.readFailed 0 "closed" (Or.inr ⟨rfl, by decide⟩)) trivial
  have hremoved := hfailed.step (.exitRemoved 0 ⟨"closed", true⟩ rfl) trivial
  have hmarked := hremoved.step (.exitMarked 0 true ⟨"closed", true⟩ rfl) trivial
  have hfinished := hmarked.step (.exitFinished 0 1 true ⟨"closed", true⟩ rfl rfl) trivial
  exact ⟨_, hfinished, rfl, noDeadSlot_of_orderly hfinished⟩

/-- The remote answers under URL `2`: the connection takes that slot too, and its cleanup leaves
the slot of URL `1` behind. -/
theorem renamed_peer_leaves_dead_slot :
    ¬ ∀ n : Node Nat Nat Nat, Reachable 5 n → n.NoDeadSlot ∧ ∀ url, ¬ n.SilentOk url := by
  intro h
  have hdialed : Reachable 5 dialedFor := dialedFor_orderly.mono fun _ _ _ => trivial
  have hread := hdialed.step (.preflightRead 0 2 rfl) trivial
  have hregistered := hread.step (.readerRegistered 0 2 rfl rfl) trivial
  have hdisplaced := hregistered.step (.readerDisplaced 0 none rfl) trivial
  have hactive := hdisplaced.step (.readerActivated 0 2 rfl rfl) trivial
  have hclosed := hactive.step (.remoteClosed 0 .graceful "bye" rfl) trivial
  have hfailed := hclosed.step (.readFailed 0 "closed" (Or.inr ⟨rfl, by decide⟩)) trivial
  have hremoved := hfailed.step (.exitRemoved 0 ⟨"closed", true⟩ rfl) trivial
  have hmarked := hremoved.step (.exitMarked 0 true ⟨"closed", true⟩ rfl) trivial
  have hfinished := hmarked.step (.exitFinished 0 2 true ⟨"closed", true⟩ rfl rfl) trivial
  exact (h _ hfinished).2 1 ⟨0, rfl, rfl, rfl⟩

end OtherUrl

end Transport
end Kitsune2
