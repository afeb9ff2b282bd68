import Mathlib.Data.Nat.Basic
import Kitsune2.Transport.Convergence

/-!
# Simultaneous runs — every interleaving of a simultaneous open

The invariant of the two sides together, that every run is bounded, and where a run that cannot go
on has arrived.
-/

namespace Kitsune2
namespace Transport

variable {Id Url : Type}

/-! ## The start -/

section Unborn

variable {s c w l : Side} {u : Url} {localId remoteId : Id}

theorem Addressed.ofUnborn [LinearOrder Id] :
    Addressed localId s c u w (.unborn remoteId : ConnectionContext Id Url Side) where
  ranked := fun h => absurd rfl h
  remote := by simp [ConnectionContext.unborn]
  known := by simp [ConnectionContext.unborn, ReaderStage.hasRead]
  dialed := fun h => absurd rfl h
  unborn := fun _ => ⟨rfl, rfl, rfl, rfl⟩
  own := fun _ _ => rfl
  others := fun _ => rfl
  heard := by simp [ConnectionContext.unborn]

theorem WinnerOk.ofUnborn :
    WinnerOk w none (.unborn remoteId : ConnectionContext Id Url Side) where
  link := rfl
  live := rfl
  reader := rfl
  dial := rfl
  held := by simp
  claimed := by simp [ConnectionContext.unborn, ReaderStage.hasClaimed, DialStage.hasClaimed]
  active := by simp [ConnectionContext.unborn]
  dialWritten := by simp [ConnectionContext.unborn]
  returned := by simp [ConnectionContext.unborn]
  sent := by simp [ConnectionContext.unborn]

theorem LoserOk.ofUnborn :
    LoserOk l u none (.unborn remoteId : ConnectionContext Id Url Side) where
  early := by simp [ConnectionContext.unborn]
  exiting := by simp [ConnectionContext.unborn, ReaderStage.isUp]
  marked := by simp [ConnectionContext.unborn]
  finished := by simp [ConnectionContext.unborn]
  closed := by simp [ConnectionContext.unborn]
  unread := by simp [ConnectionContext.unborn]
  held := by simp
  claimed := by simp [ConnectionContext.unborn, ReaderStage.hasClaimed, DialStage.hasClaimed]
  closedLocally := by simp [ConnectionContext.unborn]
  closedRemotely := by simp [ConnectionContext.unborn]
  notLost := by simp [ConnectionContext.unborn]
  rejected := by simp [ConnectionContext.unborn]
  notFailed := by simp [ConnectionContext.unborn]
  unwritten := by simp [ConnectionContext.unborn]
  displacesNone := by simp [ConnectionContext.unborn]

end Unborn

theorem SideInv.initial [DecidableEq Url] [LinearOrder Id] (ends : Endpoints Id Url) (s : Side) :
    SideInv ends s (Node.initial (ends.id s)) where
  localId := rfl
  addressed := fun _ => .ofUnborn
  winner := .ofUnborn
  loser := .ofUnborn
  displaced := by simp [Node.initial, ConnectionContext.unborn]
  quiet := by simp [Node.initial]

/-! ## How far a connection has come -/

namespace ReaderStage

variable {Conn : Type}

def rank : ReaderStage Conn → Nat
  | .notStarted => 0
  | .awaiting => 1
  | .received => 2
  | .displacing _ => 3
  | .returning => 4
  | .activating => 5
  | .serving => 6
  | .exiting _ => 7
  | .removed _ _ => 8
  | .marked _ _ => 9
  | .finished => 10

end ReaderStage

def DialStage.rank {Conn : Type} : DialStage Conn → Nat
  | .idle => 0
  | .created => 1
  | .rejected => 2
  | .displacing _ => 2
  | .writing => 3
  | .failing _ => 4
  | .failed => 5
  | .done => 6

def Link.rank : Link → Nat
  | .opened => 0
  | _ => 1

theorem Link.rank_le_rank_close (link : Link) (code : CloseCode) (reason : String) :
    link.rank ≤ (link.close code reason).rank := by
  cases link <;> simp [Link.close, Link.rank]

/-- The stages that the tasks of one end have behind them. -/
def ConnectionContext.rank {Conn : Type} (ctx : ConnectionContext Id Url Conn) : Nat :=
  ctx.reader.rank + ctx.dial.rank + ctx.link.rank

theorem ConnectionContext.rank_le {Conn : Type} (ctx : ConnectionContext Id Url Conn) :
    ctx.rank ≤ 17 := by
  have hreader : ctx.reader.rank ≤ 10 := by
    cases ctx.reader <;> simp [ReaderStage.rank]
  have hdial : ctx.dial.rank ≤ 6 := by
    cases ctx.dial <;> simp [DialStage.rank]
  have hlink : ctx.link.rank ≤ 1 := by
    cases ctx.link <;> simp [Link.rank]
  unfold ConnectionContext.rank
  omega

section Ranks

variable {ctx ctx' : ConnectionContext Id Url Side}

/-- The reader goes on, and nothing is undone. -/
theorem rank_lt_of_reader (hreader : ctx.reader.rank < ctx'.reader.rank)
    (hdial : ctx'.dial = ctx.dial) (hlink : ctx.link.rank ≤ ctx'.link.rank) :
    ctx.rank < ctx'.rank := by
  unfold ConnectionContext.rank
  rw [hdial]
  omega

/-- The dial goes on, and nothing is undone. -/
theorem rank_lt_of_dial (hdial : ctx.dial.rank < ctx'.dial.rank)
    (hreader : ctx'.reader = ctx.reader) (hlink : ctx.link.rank ≤ ctx'.link.rank) :
    ctx.rank < ctx'.rank := by
  unfold ConnectionContext.rank
  rw [hreader]
  omega

theorem ConnectionContext.Touched.link_rank_le (h : ctx.Touched ctx') :
    ctx.link.rank ≤ ctx'.link.rank := by
  rcases h.link with heq | heq
  · exact le_of_eq (congrArg Link.rank heq.symm)
  · rw [heq]
    exact Link.rank_le_rank_close _ _ _

theorem ConnectionContext.Touched.rank_le (h : ctx.Touched ctx') : ctx.rank ≤ ctx'.rank := by
  have hlink := h.link_rank_le
  unfold ConnectionContext.rank
  rw [h.reader, h.dial]
  omega

end Ranks

variable [DecidableEq Url] [LinearOrder Id]

/-- A step that is not a frame or a request of the user takes its connection further. -/
theorem Node.Step.rank_lt {n n' : Node Id Url Side} {e : Node.Event Id Url Side}
    (h : Node.Step n e n') {c : Side} (hc : e.conn = some c)
    (hunborn : (n.context c).reader = .notStarted →
      (n.context c).dial = .idle ∧ (n.context c).link = .opened)
    (hdata : ∀ url, e ≠ .dataRead c url) (htaken : ∀ reason, e ≠ .takenClosed c reason) :
    (n.context c).rank < (n'.context c).rank := by
  cases h with
  | dialed c' remoteId url hreader =>
      cases hc
      obtain ⟨hdial, hlink⟩ := hunborn hreader
      rw [Node.modify_context_self]
      simp [ConnectionContext.rank, hreader, hdial, hlink, ConnectionContext.dialed,
        ReaderStage.rank, DialStage.rank, Link.rank]
  | accepted c' remoteId hreader =>
      cases hc
      obtain ⟨hdial, hlink⟩ := hunborn hreader
      rw [Node.modify_context_self]
      simp [ConnectionContext.rank, hreader, hdial, hlink, ConnectionContext.accepted,
        ConnectionContext.unborn, ReaderStage.rank, DialStage.rank, Link.rank]
  -- the dialing task moves on
  | dialRegistered c' url hdial hurl =>
      cases hc
      obtain ⟨ctx, stage, htouched, hstage, heq⟩ := Node.dialRegister_context_self n c url
      rw [heq]
      refine rank_lt_of_dial ?_ htouched.reader htouched.link_rank_le
      rcases hstage with ⟨d, rfl⟩ | rfl <;> simp [hdial, DialStage.rank]
  | dialRejected c' hdial =>
      cases hc
      simp only [Node.setDial, Node.close, Node.markSuperseded, Node.modify_context_self]
      exact rank_lt_of_dial (by simp [hdial, DialStage.rank]) rfl (Link.rank_le_rank_close _ _ _)
  | dialDisplaced c' d hdial =>
      cases hc
      have htouched := Node.closeDisplaced_touched n d c
      rw [Node.setDial, Node.modify_context_self]
      exact rank_lt_of_dial (by simp [hdial, DialStage.rank]) htouched.reader htouched.link_rank_le
  | dialWritten c' hdial hlink =>
      cases hc
      rw [Node.modify_context_self]
      exact rank_lt_of_dial (by simp [hdial, DialStage.rank]) rfl le_rfl
  | dialWriteFailed c' url err hdial hurl =>
      cases hc
      unfold Node.dialWriteFail
      split
      · rw [Node.setDial, Node.modify_context_self]
        exact rank_lt_of_dial (by simp [hdial, DialStage.rank]) rfl le_rfl
      · rw [Node.setDial, Node.modify_context_self]
        exact rank_lt_of_dial (by simp [hdial, DialStage.rank]) rfl le_rfl
  | dialFailedClosed c' err hdial =>
      cases hc
      simp only [Node.setDial, Node.close, Node.markClosed, Node.modify_context_self]
      exact rank_lt_of_dial (by simp [hdial, DialStage.rank]) rfl (Link.rank_le_rank_close _ _ _)
  | dialFailedRemoved c' url hdial hurl =>
      cases hc
      rw [Node.setDial, Node.modify_context_self, Node.removeIfCurrent_context]
      exact rank_lt_of_dial (by simp [hdial, DialStage.rank]) rfl le_rfl
  -- the reader task moves on
  | preflightRead c' url hreader =>
      cases hc
      rw [Node.call_context, Node.modify_context_self]
      exact rank_lt_of_reader (by simp [hreader, ReaderStage.rank]) rfl le_rfl
  | preflightRefused c' url exit hreader =>
      cases hc
      rw [Node.call_context, Node.modify_context_self]
      exact rank_lt_of_reader (by simp [hreader, ReaderStage.rank]) rfl le_rfl
  | readFailed c' err hreader =>
      cases hc
      rw [Node.setReader, Node.modify_context_self]
      refine rank_lt_of_reader ?_ rfl le_rfl
      rcases hreader with hr | ⟨hr, -⟩ <;> simp [hr, ReaderStage.rank]
  | readerRegistered c' url hreader hurl =>
      cases hc
      obtain ⟨ctx, stage, htouched, hstage, heq⟩ := Node.readerRegister_context_self n c url
      rw [heq]
      refine rank_lt_of_reader ?_ htouched.dial htouched.link_rank_le
      rcases hstage with ⟨d, rfl⟩ | ⟨exit, rfl⟩ <;> simp [hreader, ReaderStage.rank]
  | readerDisplaced c' d hreader =>
      cases hc
      have htouched := Node.closeDisplaced_touched n d c
      rw [Node.setReader, Node.modify_context_self]
      refine rank_lt_of_reader ?_ htouched.dial htouched.link_rank_le
      rcases Node.afterDisplacing_cases (n.context c) with heq | heq <;>
        simp [heq, hreader, ReaderStage.rank]
  | returnSent c' hreader hlink =>
      cases hc
      rw [Node.modify_context_self]
      exact rank_lt_of_reader (by simp [hreader, ReaderStage.rank]) rfl le_rfl
  | returnFailed c' exit hreader =>
      cases hc
      rw [Node.setReader, Node.modify_context_self]
      exact rank_lt_of_reader (by simp [hreader, ReaderStage.rank]) rfl le_rfl
  | readerActivated c' url hreader hurl =>
      cases hc
      obtain ⟨lifecycle, stage, hstage, heq⟩ := Node.readerActivate_context_self n c url
      rw [heq]
      refine rank_lt_of_reader ?_ rfl le_rfl
      rcases hstage with rfl | ⟨exit, rfl⟩ <;> simp [hreader, ReaderStage.rank]
  | dataRead c' url hreader hurl =>
      cases hc
      exact absurd rfl (hdata url)
  | exitRemoved c' exit hreader =>
      cases hc
      unfold Node.exitRemove
      split
      · simp only [Node.setReader, Node.close, Node.markClosed, Node.modify_context_self]
        exact rank_lt_of_reader (by simp [hreader, ReaderStage.rank]) rfl
          (Link.rank_le_rank_close _ _ _)
      · simp only [Node.setReader, Node.modify_context_self, Node.removeIfCurrent_context]
        exact rank_lt_of_reader (by simp [hreader, ReaderStage.rank]) rfl le_rfl
  | exitMarked c' wasActive exit hreader =>
      cases hc
      unfold Node.exitMark
      split
      · simp only [Node.setReader, Node.markSuperseded, Node.modify_context_self]
        exact rank_lt_of_reader (by simp [hreader, ReaderStage.rank]) rfl le_rfl
      · simp only [Node.setReader, Node.markClosed, Node.modify_context_self]
        exact rank_lt_of_reader (by simp [hreader, ReaderStage.rank]) rfl le_rfl
  | exitFinished c' url wasActive exit hreader hurl =>
      cases hc
      obtain ⟨lifecycle, code, reason, -, heq⟩ :=
        Node.exitFinish_context_self n c url wasActive exit
      rw [heq]
      exact rank_lt_of_reader (by simp [hreader, ReaderStage.rank]) rfl
        (Link.rank_le_rank_close _ _ _)
  -- the link closes
  | remoteClosed c' code reason hlink =>
      cases hc
      rw [Node.modify_context_self]
      simp [ConnectionContext.rank, hlink, Link.rank]
  | connectionLost c' hlink =>
      cases hc
      rw [Node.modify_context_self]
      simp [ConnectionContext.rank, hlink, Link.rank]
  | slotTaken c' url hslot => cases hc
  | takenClosed c' reason hmem =>
      cases hc
      exact absurd rfl (htaken reason)
  | sendGaveUp url c' => cases hc

namespace Pair

variable {ends : Endpoints Id Url} {p p' : Pair Id Url}

/-! ## The two sides together -/

/-- What holds of the two sides in every state. -/
structure Inv (ends : Endpoints Id Url) (p : Pair Id Url) : Prop where
  side : ∀ s, SideInv ends s (p s)
  /-- The end that accepted has a URL only from the preflight of the end that dialed. -/
  heard : ∀ c, ((p c.other).context c).remoteUrl ≠ none → ((p c).context c).written = true
  /-- A close that has arrived was sent. -/
  closed : ∀ s code reason,
    ((p s).context ends.preferred.other).link = .closedRemotely code reason →
      ((p s.other).context ends.preferred.other).link ≠ .opened

theorem Inv.initial (ends : Endpoints Id Url) : Inv ends (initial ends) where
  side := SideInv.initial ends
  heard := fun _ h => absurd rfl h
  closed := by
    intro s code reason h
    cases h

omit [DecidableEq Url] in
/-- What the other side has written or closed, it has after it heard from us. -/
theorem Inv.not_early (h : Inv ends p) {s : Side}
    (hother : ((p s.other).context ends.preferred.other).written = true ∨
      ∃ code reason, ((p s.other).context ends.preferred.other).link = .closedLocally code reason) :
    ((p s).context ends.preferred.other).dial ≠ .created := by
  intro hcreated
  rcases Side.eq_or_eq_other s ends.preferred.other with hs | hs
  · -- our own dial: the other end knows a URL, so our preflight was written
    subst hs
    have hurl := ((h.side _).addressed ends.preferred.other).heard hother
    have hwritten := h.heard ends.preferred.other (by
      rw [hurl]
      exact Option.some_ne_none _)
    have hearly := ((h.side ends.preferred.other).loser.early hcreated).2.2.1
    rw [hwritten] at hearly
    cases hearly
  · -- a connection we accepted has no dial
    have hidle := ((h.side s).addressed ends.preferred.other).others (by
      rw [hs]
      exact Side.other_ne s)
    rw [hidle] at hcreated
    cases hcreated

omit [DecidableEq Url] in
/-- What the other side can have sent makes every faultless step a calm one. -/
theorem Inv.calm (h : Inv ends p) {s : Side} {e : Node.Event Id Url Side}
    (hok : p.Faultless ends s e) : Calm ends s (p s) e := by
  cases e with
  | preflightRead c url =>
      obtain ⟨rfl, hwritten⟩ := hok
      refine ⟨rfl, ?_⟩
      rintro rfl
      exact h.not_early (Or.inl hwritten)
  | remoteClosed c code reason =>
      obtain ⟨hlink, hborn⟩ := hok
      have hc : c = ends.preferred.other := by
        rcases Side.eq_or_eq_other ends.preferred c with rfl | rfl
        · rw [(h.side s.other).winner.link] at hlink
          cases hlink
        · rfl
      subst hc
      exact ⟨rfl, ((h.side s.other).loser.closedLocally code reason hlink).1,
        h.not_early (Or.inr ⟨code, reason, hlink⟩), hborn⟩
  | _ => exact hok

theorem Inv.heard_step (h : Inv ends p) {s : Side} {e : Node.Event Id Url Side}
    {n : Node Id Url Side} (hstep : Node.Step (p s) e n) (hok : p.Faultless ends s e) (c : Side)
    (hurl : ((Function.update p s n c.other).context c).remoteUrl ≠ none) :
    ((Function.update p s n c).context c).written = true := by
  rcases Side.eq_or_eq_other c s with rfl | rfl
  · -- the end that dialed: what was written stays written
    rw [Function.update_of_ne (Side.other_ne s)] at hurl
    have hwritten := h.heard s hurl
    rw [Function.update_self]
    cases hstep.wireMove s with
    | born he hreader =>
        rw [(((h.side s).addressed s).unborn hreader).2.2.1] at hwritten
        cases hwritten
    | same hkept hlink => exact hkept hwritten
    | closed hkept code reason hlink => exact hkept hwritten
    | remoteClosed hkept code reason he hlink => exact hkept hwritten
    | lost hkept he hlink => exact hkept hwritten
  · -- the end that accepted: a URL comes from the preflight of the other end
    rw [Function.update_of_ne (Side.other_ne c).symm]
    rw [Function.update_self] at hurl
    by_cases hc : e.conn = some c
    case neg =>
      rw [(hstep.touched_of_ne hc).remoteUrl] at hurl
      exact h.heard c hurl
    cases hstep.readerMove hc with
    | dialed remoteId url he hreader hcontext =>
        subst he
        exact absurd hok.1.symm (Side.other_ne c)
    | accepted remoteId he hreader hcontext =>
        rw [hcontext] at hurl
        exact absurd rfl hurl
    | read url he hreader hid hdialed hremote hreader' =>
        rcases he with rfl | ⟨exit, rfl⟩
        · have hwritten := hok.2
          rwa [Side.other_other] at hwritten
        · exact hok.elim
    | stays hid hdialed hremote hreader hlive => exact h.heard c (hremote ▸ hurl)
    | goesOn hid hdialed hremote hreader => exact h.heard c (hremote ▸ hurl)
    | leaves hid hdialed hremote hslot hreader => exact h.heard c (hremote ▸ hurl)
    | ends hleft hid hdialed hremote hreader => exact h.heard c (hremote ▸ hurl)

theorem Inv.closed_step (h : Inv ends p) {s t : Side} {e : Node.Event Id Url Side}
    {n : Node Id Url Side} (hstep : Node.Step (p s) e n) (hok : p.Faultless ends s e)
    {code : CloseCode} {reason : String}
    (hlink : ((Function.update p s n t).context ends.preferred.other).link =
      .closedRemotely code reason) :
    ((Function.update p s n t.other).context ends.preferred.other).link ≠ .opened := by
  rcases Side.eq_or_eq_other t s with rfl | rfl
  · -- the end that sees the close
    rw [Function.update_self] at hlink
    rw [Function.update_of_ne (Side.other_ne s)]
    cases hstep.wireMove ends.preferred.other with
    | born he hreader =>
        have hcontext : (n.context ends.preferred.other).link = .opened := by
          rcases he with ⟨remoteId, url, rfl⟩ | ⟨remoteId, rfl⟩
          · cases hstep with
            | dialed =>
                rw [Node.modify_context_self]
                rfl
          · cases hstep with
            | accepted =>
                rw [Node.modify_context_self]
                rfl
        rw [hcontext] at hlink
        cases hlink
    | same hkept hlink' => exact h.closed s code reason (hlink' ▸ hlink)
    | closed hkept code' reason' hlink' =>
        refine h.closed s code reason ?_
        rw [hlink'] at hlink
        cases hold : ((p s).context ends.preferred.other).link with
        | opened => simp [hold, Link.close] at hlink
        | closedLocally _ _ => simp [hold, Link.close] at hlink
        | closedRemotely _ _ => simpa [hold, Link.close] using hlink
        | lost => simp [hold, Link.close] at hlink
    | remoteClosed hkept code' reason' he hlink' =>
        subst he
        rw [hok.1]
        simp
    | lost hkept he hlink' =>
        subst he
        exact hok.elim
  · -- the end that sent it: closed stays closed
    rw [Function.update_of_ne (Side.other_ne t).symm] at hlink
    have hold := h.closed t code reason hlink
    rw [Function.update_self]
    cases hstep.wireMove ends.preferred.other with
    | born he hreader =>
        exact absurd (((h.side t.other).addressed _).unborn hreader).2.2.2 hold
    | same hkept hlink' => rwa [hlink']
    | closed hkept code' reason' hlink' =>
        rw [hlink']
        exact Link.close_ne_opened _ _ _
    | remoteClosed hkept code' reason' he hlink' => simp [hlink']
    | lost hkept he hlink' => simp [hlink']

theorem Inv.step (h : Inv ends p) (hstep : Step ends p p') : Inv ends p' := by
  cases hstep with
  | move s e n hstep hok =>
      refine ⟨?_, fun c hurl => h.heard_step hstep hok c hurl,
        fun t code reason hlink => h.closed_step hstep hok hlink⟩
      intro t
      by_cases ht : t = s
      · subst ht
        rw [Function.update_self]
        exact (h.side t).step hstep (h.calm hok)
      · rw [Function.update_of_ne ht]
        exact h.side t

theorem Run.inv {k : Nat} (h : Run ends k p) : Inv ends p := by
  induction h with
  | initial => exact Inv.initial ends
  | step _ hstep ih => exact ih.step hstep

/-! ## Where a run that cannot go on has arrived -/

/-- No step is left on either side. -/
def Stuck (ends : Endpoints Id Url) (p : Pair Id Url) : Prop := ∀ p', ¬ Step ends p p'

theorem Stuck.no_step (h : Stuck ends p) {s : Side} {e : Node.Event Id Url Side}
    {n : Node Id Url Side} (hstep : Node.Step (p s) e n) (hok : p.Faultless ends s e) : False :=
  h _ (.move s e n hstep hok)

/-- Both ends of both connections exist. -/
theorem Stuck.born (h : Stuck ends p) (s c : Side) : ((p s).context c).reader ≠ .notStarted := by
  intro hreader
  rcases Side.eq_or_eq_other s c with rfl | rfl
  · exact h.no_step (.dialed c (ends.id c.other) (ends.url c.other) hreader) ⟨rfl, rfl, rfl⟩
  · exact h.no_step (.accepted s.other (ends.id s.other) hreader) ⟨rfl, rfl⟩

/-- The dial of either side is over. -/
theorem Stuck.dial_done (h : Stuck ends p) (hinv : Inv ends p) (s : Side) :
    ((p s).context s).dial = .done := by
  have haddr := (hinv.side s).addressed s
  have hidle : ((p s).context s).dial ≠ .idle := fun hidle => h.born s s (haddr.own rfl hidle)
  have hurl := (haddr.dialed hidle).1
  cases hdial : ((p s).context s).dial with
  | idle => exact absurd hdial hidle
  | created => exact (h.no_step (.dialRegistered s _ hdial hurl) trivial).elim
  | rejected => exact (h.no_step (.dialRejected s hdial) trivial).elim
  | displacing d => exact (h.no_step (.dialDisplaced s d hdial) trivial).elim
  | writing =>
      by_cases hlink : ((p s).context s).link = .opened
      · exact (h.no_step (.dialWritten s hdial hlink) trivial).elim
      · exact (h.no_step (.dialWriteFailed s _ "closed" hdial hurl) hlink).elim
  | failing err => exact (h.no_step (.dialFailedClosed s err hdial) trivial).elim
  | failed => exact (h.no_step (.dialFailedRemoved s _ hdial hurl) trivial).elim
  | done => rfl

/-- A reader stops in the middle only while it waits, serves or has finished. -/
theorem Stuck.reader_cases (h : Stuck ends p) (hinv : Inv ends p) (s c : Side) :
    ((p s).context c).reader = .awaiting ∨ ((p s).context c).reader = .serving ∨
      ((p s).context c).reader = .finished := by
  have haddr := (hinv.side s).addressed c
  cases hreader : ((p s).context c).reader with
  | notStarted => exact absurd hreader (h.born s c)
  | awaiting => exact Or.inl rfl
  | received =>
      exact (h.no_step (.readerRegistered c _ hreader (haddr.known (by rw [hreader]; rfl)))
        trivial).elim
  | displacing d => exact (h.no_step (.readerDisplaced c d hreader) trivial).elim
  | returning =>
      by_cases hlink : ((p s).context c).link = .opened
      · exact (h.no_step (.returnSent c hreader hlink) trivial).elim
      · exact (h.no_step (.returnFailed c ⟨"closed", true⟩ hreader) hlink).elim
  | activating =>
      exact (h.no_step (.readerActivated c _ hreader (haddr.known (by rw [hreader]; rfl)))
        trivial).elim
  | serving => exact Or.inr (Or.inl rfl)
  | exiting exit => exact (h.no_step (.exitRemoved c exit hreader) trivial).elim
  | removed wasActive exit => exact (h.no_step (.exitMarked c wasActive exit hreader) trivial).elim
  | marked wasActive exit =>
      exact (h.no_step (.exitFinished c _ wasActive exit hreader
        (haddr.known (by rw [hreader]; rfl))) trivial).elim
  | finished => exact Or.inr (Or.inr rfl)

/-- A reader still waits only when the other end has written nothing and the connection is open. -/
theorem Stuck.awaiting (h : Stuck ends p) {s c : Side}
    (hreader : ((p s).context c).reader = .awaiting) :
    ((p s.other).context c).written = false ∧ ((p s).context c).link = .opened := by
  refine ⟨?_, ?_⟩
  · by_contra hwritten
    simp only [Bool.not_eq_false] at hwritten
    exact h.no_step (.preflightRead c (ends.url s.other) hreader) ⟨rfl, hwritten⟩
  · by_contra hlink
    exact h.no_step (.readFailed c "closed" (Or.inl hreader)) hlink

/-- The reader of the preferred connection serves once the other end has written. -/
theorem Stuck.serving (h : Stuck ends p) (hinv : Inv ends p) {s : Side}
    (hwritten : ((p s.other).context ends.preferred).written = true) :
    ((p s).context ends.preferred).reader = .serving := by
  rcases h.reader_cases hinv s ends.preferred with hr | hr | hr
  · rw [(h.awaiting hr).1] at hwritten
    cases hwritten
  · exact hr
  · have hup := (hinv.side s).winner.reader
    rw [hr] at hup
    cases hup

theorem Stuck.serving_both (h : Stuck ends p) (hinv : Inv ends p) (s : Side) :
    ((p s).context ends.preferred).reader = .serving := by
  have hdialed : ((p ends.preferred).context ends.preferred).written = true :=
    (hinv.side ends.preferred).winner.dialWritten (h.dial_done hinv ends.preferred)
  -- the end that accepted serves, so it has returned its preflight
  have haccepted : ((p ends.preferred.other).context ends.preferred).reader = .serving := by
    refine h.serving hinv ?_
    rwa [Side.other_other]
  have hsent := (hinv.side ends.preferred.other).winner.sent (Or.inr haccepted)
  have hreturned : ((p ends.preferred.other).context ends.preferred).written = true := by
    rcases (hinv.side ends.preferred.other).winner.returned hsent with hdial | hwritten
    · have hidle := ((hinv.side ends.preferred.other).addressed ends.preferred).others
        (Side.other_ne _).symm
      exact absurd hidle hdial
    · exact hwritten
  rcases Side.eq_or_eq_other ends.preferred s with rfl | rfl
  · exact h.serving hinv hreturned
  · exact haccepted

/-- The other connection is over on the side that dialed it. -/
theorem Stuck.dead_dialed (h : Stuck ends p) (hinv : Inv ends p)
    (hslot : (p ends.preferred.other).slots (ends.url ends.preferred.other.other) =
      some ends.preferred) :
    ((p ends.preferred.other).context ends.preferred.other).lifecycle.isLive = false := by
  have hloser := (hinv.side ends.preferred.other).loser
  have hdone := h.dial_done hinv ends.preferred.other
  rcases hloser.claimed (Or.inr (by rw [hdone]; rfl)) with heq | hstate | hleft
  · rw [hslot, Option.some.injEq] at heq
    exact absurd heq.symm (Side.other_ne _)
  · rw [hstate]
    rfl
  · rcases h.reader_cases hinv ends.preferred.other ends.preferred.other with hr | hr | hr
    · rw [hr] at hleft
      cases hleft
    · rw [hr] at hleft
      cases hleft
    · exact hloser.finished hr

/-- The other connection is over on the side that accepted it. -/
theorem Stuck.dead_accepted (h : Stuck ends p) (hinv : Inv ends p)
    (hslot : (p ends.preferred).slots (ends.url ends.preferred.other) = some ends.preferred) :
    ((p ends.preferred).context ends.preferred.other).lifecycle.isLive = false := by
  have hloser := (hinv.side ends.preferred).loser
  rcases h.reader_cases hinv ends.preferred ends.preferred.other with hr | hr | hr
  · -- it would wait for a preflight that was never written, on a connection that was closed
    obtain ⟨hwritten, hlink⟩ := h.awaiting hr
    have hdone := h.dial_done hinv ends.preferred.other
    have hclosed := (hinv.side ends.preferred.other).loser.unwritten hdone hwritten
    cases hl : ((p ends.preferred.other).context ends.preferred.other).link with
    | opened => exact absurd hl hclosed
    | closedLocally code reason =>
        refine (h.no_step (.remoteClosed ends.preferred.other code reason hlink) ⟨hl, ?_⟩).elim
        simp [hr]
    | closedRemotely code reason =>
        have hother := hinv.closed ends.preferred.other code reason hl
        rw [Side.other_other] at hother
        exact absurd hlink hother
    | lost => exact absurd hl (hinv.side ends.preferred.other).loser.notLost
  · rcases hloser.held_or_superseded (by rw [hr]; rfl) with heq | hstate
    · rw [hslot, Option.some.injEq] at heq
      exact absurd heq.symm (Side.other_ne _)
    · rw [hstate]
      rfl
  · exact hloser.finished hr

/-- One connection is left, in both slots and active on both sides: the one the larger id dialed.
Neither side has reported a disconnect or an unresponsive peer. -/
def Converged (ends : Endpoints Id Url) (p : Pair Id Url) : Prop :=
  ends.id ends.preferred.other < ends.id ends.preferred ∧ ∀ s,
    (p s).slots (ends.url s.other) = some ends.preferred ∧
      ((p s).context ends.preferred).lifecycle = .active ∧
      ((p s).context ends.preferred.other).lifecycle.isLive = false ∧
      (∀ url reason, HandlerCall.peerDisconnect url reason ∉ (p s).calls) ∧
      ∀ url, HandlerCall.setUnresponsive url ∉ (p s).calls

theorem Stuck.converged (h : Stuck ends p) (hinv : Inv ends p) : Converged ends p := by
  have hserving := h.serving_both hinv
  have hslot : ∀ s, (p s).slots (ends.url s.other) = some ends.preferred := fun s =>
    (hinv.side s).winner.claimed (Or.inl (by rw [hserving s]; rfl))
  refine ⟨ends.preferred_larger, ?_⟩
  intro s
  refine ⟨hslot s, (hinv.side s).winner.active (hserving s), ?_, ?_, ?_⟩
  · rcases Side.eq_or_eq_other ends.preferred s with rfl | rfl
    · exact h.dead_accepted hinv (hslot _)
    · exact h.dead_dialed hinv (hslot _)
  · intro url reason hcall
    obtain ⟨c, url', heq⟩ := (hinv.side s).quiet _ hcall
    cases heq
  · intro url hcall
    obtain ⟨c, url', heq⟩ := (hinv.side s).quiet _ hcall
    cases heq

/-! ## Runs are bounded -/

/-- The stages that both ends of both connections have behind them. -/
def rank (p : Pair Id Url) : Nat :=
  ((p .left).context .left).rank + ((p .left).context .right).rank +
    ((p .right).context .left).rank + ((p .right).context .right).rank

omit [DecidableEq Url] [LinearOrder Id] in
theorem rank_le (p : Pair Id Url) : p.rank ≤ 68 := by
  have h1 := ((p .left).context .left).rank_le
  have h2 := ((p .left).context .right).rank_le
  have h3 := ((p .right).context .left).rank_le
  have h4 := ((p .right).context .right).rank_le
  unfold rank
  omega

omit [DecidableEq Url] [LinearOrder Id] in
theorem rank_eq (p : Pair Id Url) (s c : Side) :
    p.rank = ((p s).context c).rank + ((p s).context c.other).rank +
      (((p s.other).context c).rank + ((p s.other).context c.other).rank) := by
  cases s <;> cases c <;> simp only [rank, Side.other] <;> omega

theorem Step.rank_lt (h : Step ends p p') (hinv : Inv ends p) : p.rank < p'.rank := by
  cases h with
  | move s e n hstep hok =>
      cases hc : e.conn with
      | none => cases hstep <;> first | exact hok.elim | cases hc
      | some c =>
          have hunborn : ((p s).context c).reader = .notStarted →
              ((p s).context c).dial = .idle ∧ ((p s).context c).link = .opened := by
            intro hreader
            obtain ⟨hdial, -, -, hlink⟩ := ((hinv.side s).addressed c).unborn hreader
            exact ⟨hdial, hlink⟩
          have hown : ((p s).context c).rank < (n.context c).rank := by
            refine hstep.rank_lt hc hunborn ?_ ?_
            · rintro url rfl
              exact hok
            · rintro reason rfl
              exact hok
          have hother : ((p s).context c.other).rank ≤ (n.context c.other).rank := by
            refine (hstep.touched_of_ne ?_).rank_le
            rw [hc]
            simp [(Side.other_ne c).symm]
          rw [rank_eq p s c, rank_eq (Function.update p s n) s c, Function.update_self,
            Function.update_of_ne (Side.other_ne s)]
          omega

/-- No run has more than 68 steps. -/
theorem Run.length_le {k : Nat} (h : Run ends k p) : k ≤ 68 := by
  have hrank : k ≤ p.rank := by
    induction h with
    | initial => exact Nat.zero_le _
    | step h hstep ih =>
        have hlt := hstep.rank_lt h.inv
        omega
  exact le_trans hrank (rank_le p)

/-- Every run can be continued until no step is left. -/
theorem Run.exists_stuck {k : Nat} (h : Run ends k p) :
    ∃ k' p', Run ends k' p' ∧ Stuck ends p' := by
  -- by induction on the steps that the bound still leaves
  induction hm : 68 - k generalizing k p with
  | zero =>
      refine ⟨k, p, h, ?_⟩
      intro p' hstep
      have hle := (h.step hstep).length_le
      omega
  | succ m ih =>
      by_cases hstuck : Stuck ends p
      · exact ⟨k, p, h, hstuck⟩
      · simp only [Stuck, not_forall, not_not] at hstuck
        obtain ⟨p', hstep⟩ := hstuck
        exact ih (h.step hstep) (by omega)

/-- Every interleaving of a simultaneous open comes to an end, and ends on the connection that the
larger id dialed. -/
theorem simultaneous_open_converges (ends : Endpoints Id Url) (k : Nat) (p : Pair Id Url)
    (h : Run ends k p) : k ≤ 68 ∧ (Stuck ends p → Converged ends p) :=
  ⟨h.length_le, fun hstuck => hstuck.converged h.inv⟩

/-- Endpoints with ids `1` and `2`. -/
private def oneAndTwo : Endpoints Nat Nat where
  id
    | .left => 1
    | .right => 2
  url
    | .left => 10
    | .right => 20
  distinct := by decide

theorem one_and_two_converge :
    ∃ k p, Run oneAndTwo k p ∧ Stuck oneAndTwo p ∧ oneAndTwo.preferred = .right ∧
      Converged oneAndTwo p := by
  obtain ⟨k, p, hrun, hstuck⟩ := (Run.initial : Run oneAndTwo 0 (initial oneAndTwo)).exists_stuck
  exact ⟨k, p, hrun, hstuck, rfl, (simultaneous_open_converges oneAndTwo k p hrun).2 hstuck⟩

end Pair

end Transport
end Kitsune2
