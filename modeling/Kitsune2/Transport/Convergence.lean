import Kitsune2.Transport.SimultaneousOpen

/-!
# Convergence — simultaneous open ends on one connection

The invariant of one side joins what holds of the two connections; every step without a failure
keeps it, given what the other side can have sent.  The two sides together then show that a state
with no step left has the preferred connection in both slots, active on both sides.
-/

namespace Kitsune2
namespace Transport

variable {Id Url : Type} [LinearOrder Id]

/-! ## One side -/

/-- The other connection after the registry has displaced it. -/
structure Displaced (u : Url) (ctx : ConnectionContext Id Url Side) : Prop where
  superseded : ctx.lifecycle = .superseded
  url : ctx.remoteUrl = some u
  registered : ctx.dial ≠ .created

/-- What holds on one side in every state. -/
structure SideInv (ends : Endpoints Id Url) (s : Side) (n : Node Id Url Side) : Prop where
  localId : n.localId = ends.id s
  addressed : ∀ c,
    Addressed (ends.id s) s c (ends.url s.other) ends.preferred (n.context c)
  winner : WinnerOk ends.preferred (n.slots (ends.url s.other)) (n.context ends.preferred)
  loser : LoserOk ends.preferred.other (ends.url s.other) (n.slots (ends.url s.other))
    (n.context ends.preferred.other)
  /-- The preferred connection closes the one it has displaced and no other. -/
  displaced : ∀ d, (n.context ends.preferred).reader = .displacing (some d) ∨
    (n.context ends.preferred).dial = .displacing (some d) →
      d = ends.preferred.other ∧ Displaced (ends.url s.other) (n.context ends.preferred.other)
  /-- The handler is only ever given data. -/
  quiet : ∀ call ∈ n.calls, ∃ c url, call = .recvData c url

/-- What one side can do, given what the other can have sent it. -/
def Calm (ends : Endpoints Id Url) (s : Side) (n : Node Id Url Side) :
    Node.Event Id Url Side → Prop
  | .dialed c remoteId url => c = s ∧ remoteId = ends.id s.other ∧ url = ends.url s.other
  | .accepted c remoteId => c = s.other ∧ remoteId = ends.id s.other
  | .preflightRead c url =>
      url = ends.url s.other ∧ (c = ends.preferred.other → (n.context c).dial ≠ .created)
  | .dialWriteFailed c _ | .readFailed c _ | .returnFailed c _ => (n.context c).link ≠ .opened
  | .remoteClosed c code _ =>
      c = ends.preferred.other ∧ code = .superseded ∧ (n.context c).dial ≠ .created ∧
        (n.context c).reader ≠ .notStarted
  | .preflightRefused _ _ _ | .connectionLost _ | .dataRead _ _ | .slotTaken _
  | .takenClosed _ _ | .sendGaveUp _ _ => False
  | _ => True

namespace SideInv

variable {ends : Endpoints Id Url} {s : Side} {n n' : Node Id Url Side}

/-- Only the preferred connection changes, and the slot if it takes it. -/
theorem of_winner (h : SideInv ends s n) (hid : n'.localId = n.localId)
    (hcalls : n'.calls = n.calls)
    (hother : n'.context ends.preferred.other = n.context ends.preferred.other)
    (haddressed : Addressed (ends.id s) s ends.preferred (ends.url s.other) ends.preferred
      (n'.context ends.preferred))
    (hwinner : WinnerOk ends.preferred (n'.slots (ends.url s.other)) (n'.context ends.preferred))
    (hloser : LoserOk ends.preferred.other (ends.url s.other) (n'.slots (ends.url s.other))
      (n.context ends.preferred.other))
    (hdisplaced : ∀ d, (n'.context ends.preferred).reader = .displacing (some d) ∨
      (n'.context ends.preferred).dial = .displacing (some d) →
        d = ends.preferred.other ∧
          Displaced (ends.url s.other) (n.context ends.preferred.other)) :
    SideInv ends s n' where
  localId := hid.trans h.localId
  addressed := by
    intro c
    rcases Side.eq_or_eq_other ends.preferred c with rfl | rfl
    · exact haddressed
    · rw [hother]
      exact h.addressed _
  winner := hwinner
  loser := hother ▸ hloser
  displaced := by
    rw [hother]
    exact hdisplaced
  quiet := hcalls ▸ h.quiet

theorem modify_winner [DecidableEq Url] (h : SideInv ends s n)
    {f : ConnectionContext Id Url Side → ConnectionContext Id Url Side}
    (haddressed : Addressed (ends.id s) s ends.preferred (ends.url s.other) ends.preferred
      (f (n.context ends.preferred)))
    (hwinner : WinnerOk ends.preferred (n.slots (ends.url s.other))
      (f (n.context ends.preferred)))
    (hdisplaced : ∀ d, (f (n.context ends.preferred)).reader = .displacing (some d) ∨
      (f (n.context ends.preferred)).dial = .displacing (some d) →
        (n.context ends.preferred).reader = .displacing (some d) ∨
          (n.context ends.preferred).dial = .displacing (some d)) :
    SideInv ends s (n.modify ends.preferred f) := by
  refine h.of_winner rfl rfl (Node.modify_context_of_ne _ (Side.other_ne _) _) ?_ ?_ h.loser ?_
  · rwa [Node.modify_context_self]
  · rwa [Node.modify_context_self]
  · intro d hd
    rw [Node.modify_context_self] at hd
    exact h.displaced d (hdisplaced d hd)

/-- Only the other connection changes, and the slot as far as the preferred one does not hold it. -/
theorem of_loser (h : SideInv ends s n) (hid : n'.localId = n.localId)
    (hcalls : n'.calls = n.calls)
    (hother : n'.context ends.preferred = n.context ends.preferred)
    (haddressed : Addressed (ends.id s) s ends.preferred.other (ends.url s.other) ends.preferred
      (n'.context ends.preferred.other))
    (hwinner : WinnerOk ends.preferred (n'.slots (ends.url s.other)) (n.context ends.preferred))
    (hloser : LoserOk ends.preferred.other (ends.url s.other) (n'.slots (ends.url s.other))
      (n'.context ends.preferred.other))
    (hdisplaced : Displaced (ends.url s.other) (n.context ends.preferred.other) →
      Displaced (ends.url s.other) (n'.context ends.preferred.other)) :
    SideInv ends s n' where
  localId := hid.trans h.localId
  addressed := by
    intro c
    rcases Side.eq_or_eq_other ends.preferred c with rfl | rfl
    · rw [hother]
      exact h.addressed _
    · exact haddressed
  winner := hother ▸ hwinner
  loser := hloser
  displaced := by
    rw [hother]
    intro d hd
    obtain ⟨hd', hdis⟩ := h.displaced d hd
    exact ⟨hd', hdisplaced hdis⟩
  quiet := hcalls ▸ h.quiet

theorem modify_loser [DecidableEq Url] (h : SideInv ends s n)
    {f : ConnectionContext Id Url Side → ConnectionContext Id Url Side}
    (haddressed : Addressed (ends.id s) s ends.preferred.other (ends.url s.other) ends.preferred
      (f (n.context ends.preferred.other)))
    (hloser : LoserOk ends.preferred.other (ends.url s.other) (n.slots (ends.url s.other))
      (f (n.context ends.preferred.other)))
    (hdisplaced : Displaced (ends.url s.other) (n.context ends.preferred.other) →
      Displaced (ends.url s.other) (f (n.context ends.preferred.other))) :
    SideInv ends s (n.modify ends.preferred.other f) := by
  refine h.of_loser rfl rfl (Node.modify_context_of_ne _ (Side.other_ne _).symm _) ?_ h.winner ?_ ?_
  · rwa [Node.modify_context_self]
  · rwa [Node.modify_context_self]
  · rwa [Node.modify_context_self]

/-- Handing data on changes nothing. -/
theorem recvData (h : SideInv ends s n) (c : Side) (url : Url) :
    SideInv ends s (n.call (.recvData c url)) :=
  { h with
    quiet := by
      intro call hcall
      simp only [Node.call_calls, List.mem_append, List.mem_singleton] at hcall
      rcases hcall with hold | rfl
      · exact h.quiet call hold
      · exact ⟨c, url, rfl⟩ }

/-! ## Claims of the slot -/

theorem ranked_winner (h : SideInv ends s n)
    (hborn : (n.context ends.preferred).reader ≠ .notStarted) :
    (n.context ends.preferred).isPreferredConnection n.localId = true := by
  rw [h.localId, (h.addressed ends.preferred).ranked hborn]
  exact decide_eq_true rfl

theorem ranked_loser (h : SideInv ends s n)
    (hborn : (n.context ends.preferred.other).reader ≠ .notStarted) :
    (n.context ends.preferred.other).isPreferredConnection n.localId = false := by
  rw [h.localId, (h.addressed ends.preferred.other).ranked hborn]
  exact decide_eq_false (Side.other_ne _)

variable [DecidableEq Url]

/-- The preferred connection always gets the slot, and displaces at most the other one. -/
theorem register_winner (h : SideInv ends s n)
    (hborn : (n.context ends.preferred).reader ≠ .notStarted) :
    ∃ d n', n.registerCandidate (ends.url s.other) ends.preferred = (true, d, n') ∧
      SideInv ends s n' ∧ n'.slots (ends.url s.other) = some ends.preferred ∧
      n'.context ends.preferred = n.context ends.preferred ∧
      ∀ d', d = some d' → d' = ends.preferred.other ∧
        Displaced (ends.url s.other) (n'.context ends.preferred.other) := by
  have hverdict := Node.registerCandidate_verdict n (ends.url s.other) ends.preferred
  generalize n.registerCandidate (ends.url s.other) ends.preferred = r at hverdict
  cases hverdict with
  | dead hdead =>
      rw [h.winner.live] at hdead
      cases hdead
  | held hlive hslot =>
      refine ⟨none, n, rfl, h, hslot, rfl, ?_⟩
      intro d' hd
      cases hd
  | free hlive hslot =>
      refine ⟨none, _, rfl, ?_, Node.setSlot_slots_self _ _ _, rfl, ?_⟩
      · refine h.of_winner rfl rfl rfl (h.addressed _) ?_ ?_ h.displaced
        · rw [Node.setSlot_slots_self]
          exact h.winner.takeSlot hborn
        · rw [Node.setSlot_slots_self]
          have hloser := h.loser
          rw [hslot] at hloser
          exact hloser.of_slot (by simp [(Side.other_ne _).symm])
      · intro d' hd
        cases hd
  | displaced d hlive hne hslot hyields =>
      have hd : d = ends.preferred.other := Side.eq_other_of_ne hne
      subst hd
      -- the incumbent is the other connection: it is live, and it is marked superseded
      obtain ⟨hlive', hleft, hurl⟩ := h.loser.held hslot
      have hdial : (n.context ends.preferred.other).dial ≠ .created :=
        fun hcreated => (h.loser.early hcreated).2.2.2 hslot
      have hmark : (n.context ends.preferred.other).lifecycle.markSuperseded = .superseded :=
        ConnectionState.markSuperseded_of_isLive hlive'
      have hcontext : (((n.setSlot (ends.url s.other) (some ends.preferred)).markSuperseded
          ends.preferred.other).context ends.preferred.other) =
            { n.context ends.preferred.other with lifecycle := .superseded } := by
        simp only [Node.markSuperseded, Node.modify_context_self, Node.setSlot_context, hmark]
      have hslot' : ((n.setSlot (ends.url s.other) (some ends.preferred)).markSuperseded
          ends.preferred.other).slots (ends.url s.other) = some ends.preferred :=
        Node.setSlot_slots_self _ _ _
      have hsame : ((n.setSlot (ends.url s.other) (some ends.preferred)).markSuperseded
          ends.preferred.other).context ends.preferred = n.context ends.preferred :=
        Node.modify_context_of_ne _ (Side.other_ne _).symm _
      refine ⟨some ends.preferred.other, _, rfl, ?_, hslot', hsame, ?_⟩
      · refine h.of_loser rfl rfl hsame ?_ ?_ ?_ ?_
        · rw [hcontext]
          have haddr := h.addressed ends.preferred.other
          exact ⟨haddr.ranked, haddr.remote, haddr.known, haddr.dialed, haddr.unborn, haddr.own,
            haddr.others,
            haddr.heard⟩
        · rw [hslot']
          exact h.winner.takeSlot hborn
        · rw [hcontext, hslot']
          exact h.loser.supersede (by simp [(Side.other_ne _).symm])
        · intro hdis
          rw [hcontext]
          exact ⟨rfl, hdis.url, hdis.registered⟩
      · intro d' hd
        cases hd
        rw [hcontext]
        exact ⟨rfl, ⟨rfl, hurl, hdial⟩⟩
  | defended d hlive hne hslot hlive' hpreferred hother =>
      rw [h.ranked_winner hborn] at hother
      cases hother

/-- The other connection gets a slot that is free or its own, and is superseded otherwise. -/
theorem register_loser (h : SideInv ends s n)
    (hborn : (n.context ends.preferred.other).reader ≠ .notStarted)
    (hnot : (n.context ends.preferred.other).reader ≠ .finished) :
    (∃ n', n.registerCandidate (ends.url s.other) ends.preferred.other = (true, none, n') ∧
      n'.localId = n.localId ∧ n'.calls = n.calls ∧ n'.context = n.context ∧
      n'.slots (ends.url s.other) = some ends.preferred.other ∧
      n.slots (ends.url s.other) ≠ some ends.preferred ∧
      (n.context ends.preferred.other).lifecycle.isLive = true) ∨
    ∃ n', n.registerCandidate (ends.url s.other) ends.preferred.other = (false, none, n') ∧
      SideInv ends s n' ∧ n'.context ends.preferred.other =
        { n.context ends.preferred.other with lifecycle := .superseded } := by
  have hverdict := Node.registerCandidate_verdict n (ends.url s.other) ends.preferred.other
  generalize n.registerCandidate (ends.url s.other) ends.preferred.other = r at hverdict
  cases hverdict with
  | dead hdead =>
      have hstate := h.loser.superseded_of_dead hdead hnot
      exact Or.inr ⟨n, rfl, h, by rw [← hstate]⟩
  | held hlive hslot =>
      refine Or.inl ⟨n, rfl, rfl, rfl, rfl, hslot, ?_, hlive⟩
      rw [hslot]
      simp [Side.other_ne]
  | free hlive hslot =>
      refine Or.inl ⟨_, rfl, rfl, rfl, rfl, Node.setSlot_slots_self _ _ _, ?_, hlive⟩
      rw [hslot]
      simp
  | displaced d hlive hne hslot hyields =>
      -- the incumbent would be the preferred connection, which yields to nobody
      have hd : d = ends.preferred := by
        rcases Side.eq_or_eq_other ends.preferred d with rfl | rfl
        · rfl
        · exact absurd rfl hne
      subst hd
      have hpreferred := hyields h.winner.live (h.ranked_winner (h.winner.held hslot))
      rw [h.ranked_loser hborn] at hpreferred
      cases hpreferred
  | defended d hlive hne hslot hlive' hpreferred hother =>
      have hd : d = ends.preferred := by
        rcases Side.eq_or_eq_other ends.preferred d with rfl | rfl
        · rfl
        · exact absurd rfl hne
      subst hd
      have hmark : (n.context ends.preferred.other).lifecycle.markSuperseded = .superseded :=
        ConnectionState.markSuperseded_of_isLive hlive
      refine Or.inr ⟨_, rfl, ?_, ?_⟩
      · refine h.modify_loser ?_ ?_ ?_
        · have haddr := h.addressed ends.preferred.other
          exact ⟨haddr.ranked, haddr.remote, haddr.known, haddr.dialed, haddr.unborn, haddr.own,
            haddr.others,
            haddr.heard⟩
        · rw [hmark]
          refine h.loser.supersede ?_
          rw [hslot]
          simp [(Side.other_ne _).symm]
        · intro hdis
          exact ⟨hmark, hdis.url, hdis.registered⟩
      · simp only [Node.markSuperseded, Node.modify_context_self, hmark]

/-! ## Steps of the preferred connection -/

theorem winner_dialRegister (h : SideInv ends s n)
    (hdial : (n.context ends.preferred).dial = .created) :
    SideInv ends s (n.dialRegister ends.preferred (ends.url s.other)) := by
  have hborn := (h.addressed ends.preferred).born (by simp [hdial])
  obtain ⟨d, n', hregister, hinv, hslot, hsame, hdisplaced⟩ := h.register_winner hborn
  have haddr := hinv.addressed ends.preferred
  have hwinner := hinv.winner
  rw [hslot] at hwinner
  simp only [Node.dialRegister, hregister, if_true]
  refine hinv.of_winner rfl rfl (Node.modify_context_of_ne _ (Side.other_ne _) _) ?_ ?_ hinv.loser ?_
  · simp only [Node.setDial, Node.modify_context_self]
    refine haddr.of_moved rfl rfl rfl (Or.inl rfl) (hsame ▸ hborn) (hsame ▸ hborn) ?_ haddr.known
      haddr.heard
    simp [hsame, hdial]
  · simp only [Node.setDial, Node.modify_context_self, Node.modify_slots, hslot]
    exact hwinner.dialClaimed d
  · simp only [Node.setDial, Node.modify_context_self]
    rintro d' (hd | hd)
    · exact hinv.displaced d' (Or.inl hd)
    · cases hd
      exact hdisplaced d' rfl

theorem winner_readerRegister (h : SideInv ends s n)
    (hreader : (n.context ends.preferred).reader = .received) :
    SideInv ends s (n.readerRegister ends.preferred (ends.url s.other)) := by
  have hborn : (n.context ends.preferred).reader ≠ .notStarted := by simp [hreader]
  obtain ⟨d, n', hregister, hinv, hslot, hsame, hdisplaced⟩ := h.register_winner hborn
  have haddr := hinv.addressed ends.preferred
  have hwinner := hinv.winner
  rw [hslot] at hwinner
  simp only [Node.readerRegister, hregister, if_true]
  refine hinv.of_winner rfl rfl (Node.modify_context_of_ne _ (Side.other_ne _) _) ?_ ?_ hinv.loser ?_
  · simp only [Node.setReader, Node.modify_context_self]
    refine haddr.of_moved rfl rfl rfl (Or.inl rfl) (hsame ▸ hborn) (by simp) Iff.rfl ?_ haddr.heard
    exact fun _ => haddr.known (by simp [hsame, hreader, ReaderStage.hasRead])
  · simp only [Node.setReader, Node.modify_context_self, Node.modify_slots, hslot]
    exact hwinner.readerClaimed d
  · simp only [Node.setReader, Node.modify_context_self]
    rintro d' (hd | hd)
    · cases hd
      exact hdisplaced d' rfl
    · exact hinv.displaced d' (Or.inr hd)

/-- The preferred connection closes the other one, which it has displaced. -/
theorem closeDisplaced (h : SideInv ends s n) {d : Option Side}
    (hd : (n.context ends.preferred).reader = .displacing d ∨
      (n.context ends.preferred).dial = .displacing d) :
    SideInv ends s (n.closeDisplaced d) ∧
      (n.closeDisplaced d).context ends.preferred = n.context ends.preferred := by
  cases d with
  | none => exact ⟨h, rfl⟩
  | some d =>
      obtain ⟨rfl, hdis⟩ := h.displaced d hd
      have haddr := h.addressed ends.preferred.other
      simp only [Node.closeDisplaced, Node.close]
      refine ⟨?_, Node.modify_context_of_ne _ (Side.other_ne _).symm _⟩
      refine h.modify_loser ?_ ?_ ?_
      case refine_2 => exact h.loser.close hdis.superseded hdis.registered _
      · refine haddr.of_moved rfl rfl rfl (Or.inl rfl) (haddr.born_of_url hdis.url)
          (haddr.born_of_url hdis.url) Iff.rfl haddr.known ?_
        exact fun _ => hdis.url
      · exact fun _ => ⟨hdis.superseded, hdis.url, hdis.registered⟩

theorem winner_dialDisplaced (h : SideInv ends s n) {d : Option Side}
    (hdial : (n.context ends.preferred).dial = .displacing d) :
    SideInv ends s ((n.closeDisplaced d).setDial ends.preferred .writing) := by
  obtain ⟨hinv, hsame⟩ := h.closeDisplaced (Or.inr hdial)
  have haddr := hinv.addressed ends.preferred
  have hborn := haddr.born (by simp [hsame, hdial])
  refine hinv.modify_winner ?_ (hinv.winner.dialDisplaced (hsame ▸ hdial)) ?_
  · exact haddr.of_moved rfl rfl rfl (Or.inl rfl) hborn hborn (by simp [hsame, hdial]) haddr.known
      haddr.heard
  · rintro d' (hd | hd)
    · exact Or.inl hd
    · cases hd

theorem winner_readerDisplaced (h : SideInv ends s n) {d : Option Side}
    (hreader : (n.context ends.preferred).reader = .displacing d) :
    SideInv ends s ((n.closeDisplaced d).setReader ends.preferred
      (Node.afterDisplacing (n.context ends.preferred))) := by
  obtain ⟨hinv, hsame⟩ := h.closeDisplaced (Or.inl hreader)
  have haddr := hinv.addressed ends.preferred
  rw [← hsame] at hreader
  have hafter := Node.afterDisplacing_cases (n.context ends.preferred)
  have hwinner := hinv.winner.readerDisplaced hreader
  rw [hsame] at hwinner
  refine hinv.modify_winner ?_ ?_ ?_
  · refine haddr.of_moved rfl rfl rfl (Or.inl rfl) (by simp [hreader]) ?_ Iff.rfl ?_ haddr.heard
    · rcases hafter with heq | heq <;> simp [heq]
    · exact fun _ => haddr.known (by simp [hreader, ReaderStage.hasRead])
  · rw [hsame]
    exact hwinner
  · rintro d' (hd | hd)
    · rcases hafter with heq | heq <;> simp [heq] at hd
    · exact Or.inr hd

theorem winner_readerActivate (h : SideInv ends s n)
    (hreader : (n.context ends.preferred).reader = .activating) :
    SideInv ends s (n.readerActivate ends.preferred (ends.url s.other)) := by
  have hslot : n.slots (ends.url s.other) = some ends.preferred :=
    h.winner.claimed (Or.inl (by rw [hreader]; rfl))
  have hactive := ConnectionState.activate_of_isLive h.winner.live
  have haddr := h.addressed ends.preferred
  simp only [Node.readerActivate, Node.activate, hslot, if_true, hactive, decide_true, Bool.or_true,
    Node.setReader, Node.modify_modify]
  refine h.modify_winner ?_ (h.winner.activated hreader) ?_
  · refine haddr.of_moved rfl rfl rfl (Or.inl rfl) (by simp [hreader]) (by simp) Iff.rfl ?_
      haddr.heard
    exact fun _ => haddr.known (by simp [hreader, ReaderStage.hasRead])
  · rintro d (hd | hd)
    · cases hd
    · exact Or.inr hd

/-- Every step of the preferred connection keeps the invariant. -/
theorem step_winner {e : Node.Event Id Url Side} (h : SideInv ends s n) (hstep : Node.Step n e n')
    (hcalm : Calm ends s n e) (hc : e.conn = some ends.preferred) : SideInv ends s n' := by
  have haddr := h.addressed ends.preferred
  have hdialedUrl : ∀ {url : Url}, (n.context ends.preferred).dial ≠ .idle →
      (n.context ends.preferred).dialedUrl = some url → url = ends.url s.other := by
    intro url hdial hurl
    rw [(haddr.dialed hdial).1, Option.some.injEq] at hurl
    exact hurl.symm
  have hknownUrl : ∀ {url : Url}, (n.context ends.preferred).reader.hasRead = true →
      (n.context ends.preferred).remoteUrl = some url → url = ends.url s.other := by
    intro url hread hurl
    rw [haddr.known hread, Option.some.injEq] at hurl
    exact hurl.symm
  cases hstep with
  | dialed c remoteId url hreader =>
      cases hc
      obtain ⟨hs, rfl, rfl⟩ := hcalm
      refine h.modify_winner (.ofDialed ends hs) (.dialed _) ?_
      simp [ConnectionContext.dialed]
  | accepted c remoteId hreader =>
      cases hc
      obtain ⟨hs, rfl⟩ := hcalm
      refine h.modify_winner (.ofAccepted ends hs) (.accepted _) ?_
      simp [ConnectionContext.accepted, ConnectionContext.unborn]
  | dialRegistered c url hdial hurl =>
      cases hc
      obtain rfl := hdialedUrl (by simp [hdial]) hurl
      exact h.winner_dialRegister hdial
  | dialDisplaced c d hdial =>
      cases hc
      exact h.winner_dialDisplaced hdial
  | dialWritten c hdial hlink =>
      cases hc
      have hborn := haddr.born (by simp [hdial])
      refine h.modify_winner ?_ (h.winner.dialWritten_step hdial) ?_
      · refine haddr.of_moved rfl rfl rfl (Or.inl rfl) hborn hborn (by simp [hdial]) haddr.known ?_
        exact fun _ => (haddr.dialed (by simp [hdial])).2
      · rintro d (hd | hd)
        · exact Or.inl hd
        · cases hd
  | preflightRead c url hreader =>
      cases hc
      obtain ⟨rfl, -⟩ := hcalm
      refine SideInv.recvData (h.modify_winner ?_ h.winner.read ?_) _ _
      · exact haddr.of_moved rfl rfl rfl (Or.inr rfl) (by simp [hreader]) (by simp) Iff.rfl
          (fun _ => rfl) (fun _ => rfl)
      · rintro d (hd | hd)
        · cases hd
        · exact Or.inr hd
  | readerRegistered c url hreader hurl =>
      cases hc
      obtain rfl := hknownUrl (by rw [hreader]; rfl) hurl
      exact h.winner_readerRegister hreader
  | readerDisplaced c d hreader =>
      cases hc
      exact h.winner_readerDisplaced hreader
  | returnSent c hreader hlink =>
      cases hc
      have hurl := haddr.known (by rw [hreader]; rfl)
      refine h.modify_winner ?_ (h.winner.returnSent hreader) ?_
      · exact haddr.of_moved rfl rfl rfl (Or.inl rfl) (by simp [hreader]) (by simp) Iff.rfl
          (fun _ => hurl) (fun _ => hurl)
      · rintro d (hd | hd)
        · cases hd
        · exact Or.inr hd
  | readerActivated c url hreader hurl =>
      cases hc
      obtain rfl := hknownUrl (by rw [hreader]; rfl) hurl
      exact h.winner_readerActivate hreader
  -- nothing that fails or ends ever happens to it
  | dialRejected c hdial =>
      cases hc
      have hup := h.winner.dial
      simp [hdial, DialStage.isUp] at hup
  | dialWriteFailed c url err hdial hurl =>
      cases hc
      exact absurd h.winner.link hcalm
  | dialFailedClosed c err hdial =>
      cases hc
      have hup := h.winner.dial
      simp [hdial, DialStage.isUp] at hup
  | dialFailedRemoved c url hdial hurl =>
      cases hc
      have hup := h.winner.dial
      simp [hdial, DialStage.isUp] at hup
  | readFailed c err hreader =>
      cases hc
      exact absurd h.winner.link hcalm
  | returnFailed c exit hreader =>
      cases hc
      exact absurd h.winner.link hcalm
  | exitRemoved c exit hreader =>
      cases hc
      have hup := h.winner.reader
      simp [hreader, ReaderStage.isUp] at hup
  | exitMarked c wasActive exit hreader =>
      cases hc
      have hup := h.winner.reader
      simp [hreader, ReaderStage.isUp] at hup
  | exitFinished c url wasActive exit hreader hurl =>
      cases hc
      have hup := h.winner.reader
      simp [hreader, ReaderStage.isUp] at hup
  | remoteClosed c code reason hlink =>
      cases hc
      exact absurd hcalm.1.symm (Side.other_ne _)
  | preflightRefused c url exit hreader => exact hcalm.elim
  | dataRead c url hreader hurl => exact hcalm.elim
  | connectionLost c hlink => exact hcalm.elim
  | slotTaken c url hslot => exact hcalm.elim
  | takenClosed c reason htaken => exact hcalm.elim
  | sendGaveUp url c => exact hcalm.elim

/-! ## Steps of the other connection -/

theorem loser_dialRegister (h : SideInv ends s n)
    (hdial : (n.context ends.preferred.other).dial = .created) :
    SideInv ends s (n.dialRegister ends.preferred.other (ends.url s.other)) := by
  have haddr := h.addressed ends.preferred.other
  obtain ⟨-, hreader, -, -⟩ := h.loser.early hdial
  have hborn : (n.context ends.preferred.other).reader ≠ .notStarted := by simp [hreader]
  obtain ⟨hdialedUrl, hremoteUrl⟩ := haddr.dialed (by simp [hdial])
  -- registered where the slot was free, or refused because the preferred connection has it
  rcases h.register_loser hborn (by simp [hreader]) with
    ⟨n', hregister, hid, hcalls, hcontext, hslot, hfree, hlive⟩ | ⟨n', hregister, hinv, hsame⟩
  · simp only [Node.dialRegister, hregister, if_true]
    refine h.of_loser hid hcalls ?_ ?_ ?_ ?_ ?_
    · rw [Node.setDial, Node.modify_context_of_ne _ (Side.other_ne _).symm, hcontext]
    · simp only [Node.setDial, Node.modify_context_self, hcontext]
      exact haddr.of_moved rfl rfl rfl (Or.inl rfl) hborn hborn (by simp [hdial]) haddr.known
        haddr.heard
    · simp only [Node.setDial, Node.modify_slots, hslot]
      exact h.winner.of_slot hfree (by simp [Side.other_ne])
    · simp only [Node.setDial, Node.modify_slots, Node.modify_context_self, hslot, hcontext]
      exact h.loser.dialClaimed hlive hreader hremoteUrl
    · intro hdis
      exact absurd hdial hdis.registered
  · have haddr' := hinv.addressed ends.preferred.other
    simp only [Node.dialRegister, hregister, Bool.false_eq_true, if_false]
    refine hinv.modify_loser ?_ (hinv.loser.dialRefused (by rw [hsame])) ?_
    · refine haddr'.of_moved rfl rfl rfl (Or.inl rfl) ?_ ?_ ?_ haddr'.known haddr'.heard
      · rw [hsame]
        exact hborn
      · rw [hsame]
        exact hborn
      · simp [hsame, hdial]
    · exact fun hdis => ⟨hdis.superseded, hdis.url, by simp⟩

theorem loser_readerRegister (h : SideInv ends s n)
    (hreader : (n.context ends.preferred.other).reader = .received) :
    SideInv ends s (n.readerRegister ends.preferred.other (ends.url s.other)) := by
  have haddr := h.addressed ends.preferred.other
  have hborn : (n.context ends.preferred.other).reader ≠ .notStarted := by simp [hreader]
  have hremoteUrl := haddr.known (by rw [hreader]; rfl)
  have hdial := h.loser.dial_ne_created (by simp [hreader])
  rcases h.register_loser hborn (by simp [hreader]) with
    ⟨n', hregister, hid, hcalls, hcontext, hslot, hfree, hlive⟩ | ⟨n', hregister, hinv, hsame⟩
  -- the slot was free: the loser takes it for now
  · have hloser := h.loser.takeSlot hlive (by rw [hreader]; rfl) hremoteUrl hdial
    simp only [Node.readerRegister, hregister, if_true]
    refine h.of_loser hid hcalls ?_ ?_ ?_ ?_ ?_
    · rw [Node.setReader, Node.modify_context_of_ne _ (Side.other_ne _).symm, hcontext]
    · simp only [Node.setReader, Node.modify_context_self, hcontext]
      exact haddr.of_moved rfl rfl rfl (Or.inl rfl) hborn (by simp) Iff.rfl
        (fun _ => hremoteUrl) haddr.heard
    · simp only [Node.setReader, Node.modify_slots, hslot]
      exact h.winner.of_slot hfree (by simp [Side.other_ne])
    · simp only [Node.setReader, Node.modify_slots, Node.modify_context_self, hslot, hcontext]
      exact hloser.goOn hdial (by simp [hreader]) rfl (by simp) (Or.inl rfl)
    · intro hdis
      simp only [Node.setReader, Node.modify_context_self, hcontext]
      exact ⟨hdis.superseded, hdis.url, hdis.registered⟩
  -- the preferred connection holds it: the loser is superseded and leaves
  · have haddr' := hinv.addressed ends.preferred.other
    simp only [Node.readerRegister, hregister, Bool.false_eq_true, if_false]
    refine hinv.modify_loser ?_ (hinv.loser.exit ?_ (isSuperseded_of_lifecycle ?_) ?_ ?_ _) ?_
    · refine haddr'.of_moved rfl rfl rfl (Or.inl rfl) ?_ (by simp) Iff.rfl ?_ haddr'.heard
      · rw [hsame]
        exact hborn
      · simp [ReaderStage.hasRead]
    · simp [hsame, hreader, ReaderStage.isUp]
    · rw [hsame]
    · rw [hsame]
      exact hdial
    · intro hnone
      rw [hsame] at hnone
      simp [hremoteUrl] at hnone
    · exact fun hdis => ⟨hdis.superseded, hdis.url, hdis.registered⟩

theorem loser_readerActivate (h : SideInv ends s n)
    (hreader : (n.context ends.preferred.other).reader = .activating) :
    SideInv ends s (n.readerActivate ends.preferred.other (ends.url s.other)) := by
  have haddr := h.addressed ends.preferred.other
  have hborn : (n.context ends.preferred.other).reader ≠ .notStarted := by simp [hreader]
  have hremoteUrl := haddr.known (by rw [hreader]; rfl)
  have hup : (n.context ends.preferred.other).reader.isUp = true := by rw [hreader]; rfl
  have hdial := h.loser.dial_ne_created (by simp [hreader])
  by_cases hslot : n.slots (ends.url s.other) = some ends.preferred.other
  · have hactive := ConnectionState.activate_of_isLive (h.loser.held hslot).1
    simp only [Node.readerActivate, Node.activate, hslot, if_true, hactive, decide_true,
      Bool.or_true, Node.setReader, Node.modify_modify]
    refine h.modify_loser ?_ ?_ ?_
    · exact haddr.of_moved rfl rfl rfl (Or.inl rfl) hborn (by simp) Iff.rfl
        (fun _ => hremoteUrl) haddr.heard
    · have hloser := h.loser.activate hslot hup
      exact hloser.goOn hdial (by simp [hreader]) rfl (by simp) (Or.inl hslot)
    · intro hdis
      have hlive := (h.loser.held hslot).1
      rw [hdis.superseded] at hlive
      cases hlive
  · -- the slot was lost to the preferred connection, which has marked this one
    have hstate : (n.context ends.preferred.other).lifecycle = .superseded :=
      (h.loser.held_or_superseded (by rw [hreader]; rfl)).resolve_left hslot
    simp only [Node.readerActivate, Node.activate, hslot, if_false, Bool.false_eq_true]
    refine h.modify_loser ?_ (h.loser.exit hup (isSuperseded_of_lifecycle hstate) hdial ?_ _) ?_
    · exact haddr.of_moved rfl rfl rfl (Or.inl rfl) hborn (by simp) Iff.rfl
        (by simp [ReaderStage.hasRead]) haddr.heard
    · intro hnone
      simp [hremoteUrl] at hnone
    · exact fun hdis => ⟨hdis.superseded, hdis.url, hdis.registered⟩

theorem loser_exitRemove (h : SideInv ends s n) {exit : ReaderExit}
    (hreader : (n.context ends.preferred.other).reader = .exiting exit) :
    SideInv ends s (n.exitRemove ends.preferred.other exit) := by
  have haddr := h.addressed ends.preferred.other
  have hborn : (n.context ends.preferred.other).reader ≠ .notStarted := by simp [hreader]
  unfold Node.exitRemove
  split
  · rename_i hnone
    have hlink := h.loser.unread exit hreader hnone
    have hidle : (n.context ends.preferred.other).dial = .idle := by
      by_contra hdial
      rw [(haddr.dialed hdial).2] at hnone
      cases hnone
    simp only [Node.markClosed, Node.close, Node.setReader, Node.modify_modify]
    refine h.modify_loser ?_ (h.loser.endUnread hnone hidle hlink exit.err) ?_
    · refine haddr.of_moved rfl rfl rfl (Or.inl rfl) hborn (by simp) Iff.rfl
        (by simp [ReaderStage.hasRead]) ?_
      rintro (hwritten | ⟨code, reason, hl⟩)
      · exact haddr.heard (Or.inl hwritten)
      · -- the link was closed before, so it is the old close that is seen
        cases hlink' : (n.context ends.preferred.other).link with
        | opened => exact absurd hlink' hlink
        | closedLocally code' reason' => exact haddr.heard (Or.inr ⟨code', reason', hlink'⟩)
        | closedRemotely code' reason' => simp [hlink', Link.close] at hl
        | lost => simp [hlink', Link.close] at hl
    · intro hdis
      rw [hdis.url] at hnone
      cases hnone
  · rename_i url hsome
    obtain rfl := haddr.remote url hsome
    simp only
    refine h.of_loser ?_ ?_ ?_ ?_ ?_ ?_ ?_
    · simp only [Node.setReader, Node.modify_localId, Node.removeIfCurrent_localId]
    · simp only [Node.setReader, Node.modify_calls, Node.removeIfCurrent_calls]
    · rw [Node.setReader, Node.modify_context_of_ne _ (Side.other_ne _).symm,
        Node.removeIfCurrent_context]
    · simp only [Node.setReader, Node.modify_context_self, Node.removeIfCurrent_context]
      exact haddr.of_moved rfl rfl rfl (Or.inl rfl) hborn (by simp) Iff.rfl (fun _ => hsome)
        haddr.heard
    · by_cases hslot : n.slots (ends.url s.other) = some ends.preferred.other
      · refine h.winner.of_slot ?_ ?_
        · rw [hslot]
          simp [Side.other_ne]
        · simp [Node.setReader, Node.removeIfCurrent, hslot]
      · have hsame : (n.removeIfCurrent (ends.url s.other) ends.preferred.other).2 = n := by
          simp [Node.removeIfCurrent, hslot]
        simp only [Node.setReader, Node.modify_slots, hsame]
        exact h.winner
    · simp only [Node.setReader, Node.modify_context_self, Node.removeIfCurrent_context,
        Node.modify_slots]
      exact h.loser.leave hreader (Node.removeIfCurrent_slots_ne _ _ _) _
    · intro hdis
      simp only [Node.setReader, Node.modify_context_self, Node.removeIfCurrent_context]
      exact ⟨hdis.superseded, hdis.url, hdis.registered⟩

theorem loser_exitMark (h : SideInv ends s n) {wasActive : Bool} {exit : ReaderExit}
    (hreader : (n.context ends.preferred.other).reader = .removed wasActive exit) :
    SideInv ends s (n.exitMark ends.preferred.other wasActive exit) := by
  have haddr := h.addressed ends.preferred.other
  have hborn : (n.context ends.preferred.other).reader ≠ .notStarted := by simp [hreader]
  have hnot : (n.context ends.preferred.other).lifecycle ≠ .closed := by
    intro hclosed
    have hr := (h.loser.closed hclosed).1
    rw [hreader] at hr
    cases hr
  have hsuperseded := h.loser.exiting (by rw [hreader]; rfl) (by simp [hreader])
  -- in both branches the connection ends up superseded
  have hmark : SideInv ends s (n.modify ends.preferred.other fun ctx =>
      { ctx with lifecycle := .superseded, reader := .marked wasActive exit }) := by
    refine h.modify_loser ?_ (h.loser.mark hreader) ?_
    · exact haddr.of_moved rfl rfl rfl (Or.inl rfl) hborn (by simp) Iff.rfl
        (fun _ => haddr.known (by rw [hreader]; rfl)) haddr.heard
    · exact fun hdis => ⟨rfl, hdis.url, hdis.registered⟩
  unfold Node.exitMark
  split
  · simp only [Node.markSuperseded, Node.setReader, Node.modify_modify]
    rwa [Node.modify_congr]
    cases hstate : (n.context ends.preferred.other).lifecycle with
    | closed => exact absurd hstate hnot
    | _ => rfl
  · rename_i hreason
    have hstate : (n.context ends.preferred.other).lifecycle = .superseded := by
      simp only [ConnectionContext.isSuperseded, Bool.or_eq_true, decide_eq_true_eq] at hsuperseded
      rcases hsuperseded with hstate | hremote
      · exact hstate
      · cases hremote
    simp only [Node.markClosed, Node.setReader, Node.modify_modify]
    rwa [Node.modify_congr]
    simp only [hstate]
    rfl

theorem loser_exitFinish (h : SideInv ends s n) {wasActive : Bool} {exit : ReaderExit}
    (hreader : (n.context ends.preferred.other).reader = .marked wasActive exit) (url : Url) :
    SideInv ends s (n.exitFinish ends.preferred.other url wasActive exit) := by
  have haddr := h.addressed ends.preferred.other
  have hborn : (n.context ends.preferred.other).reader ≠ .notStarted := by simp [hreader]
  have hstate := h.loser.marked wasActive exit hreader
  have hurl := haddr.known (by rw [hreader]; rfl)
  -- the verdict is that it was superseded, whatever the slot said
  simp only [Node.exitFinish, isSuperseded_of_lifecycle hstate, classifyExit_of_superseded,
    Node.close, Node.setReader, Node.modify_modify]
  refine h.modify_loser ?_ (h.loser.finish hreader _) ?_
  · exact haddr.of_moved rfl rfl rfl (Or.inl rfl) hborn (by simp) Iff.rfl
      (by simp [ReaderStage.hasRead]) (fun _ => hurl)
  · exact fun hdis => ⟨hdis.superseded, hdis.url, hdis.registered⟩

/-- Every step of the other connection keeps the invariant. -/
theorem step_loser {e : Node.Event Id Url Side} (h : SideInv ends s n) (hstep : Node.Step n e n')
    (hcalm : Calm ends s n e) (hc : e.conn = some ends.preferred.other) : SideInv ends s n' := by
  have haddr := h.addressed ends.preferred.other
  have hdialedUrl : ∀ {url : Url}, (n.context ends.preferred.other).dial ≠ .idle →
      (n.context ends.preferred.other).dialedUrl = some url → url = ends.url s.other := by
    intro url hdial hurl
    rw [(haddr.dialed hdial).1, Option.some.injEq] at hurl
    exact hurl.symm
  -- a connection that does not exist yet holds no slot
  have hunborn : (n.context ends.preferred.other).reader = .notStarted →
      n.slots (ends.url s.other) ≠ some ends.preferred.other := by
    intro hreader hslot
    have hurl := (h.loser.held hslot).2.2
    rw [(haddr.unborn hreader).2.1] at hurl
    cases hurl
  cases hstep with
  | dialed c remoteId url hreader =>
      cases hc
      obtain ⟨hs, rfl, rfl⟩ := hcalm
      refine h.modify_loser (.ofDialed ends hs) (.dialed _ (hunborn hreader)) ?_
      intro hdis
      have hurl := hdis.url
      rw [(haddr.unborn hreader).2.1] at hurl
      cases hurl
  | accepted c remoteId hreader =>
      cases hc
      obtain ⟨hs, rfl⟩ := hcalm
      refine h.modify_loser (.ofAccepted ends hs) (.accepted _ (hunborn hreader)) ?_
      intro hdis
      have hurl := hdis.url
      rw [(haddr.unborn hreader).2.1] at hurl
      cases hurl
  | dialRegistered c url hdial hurl =>
      cases hc
      obtain rfl := hdialedUrl (by simp [hdial]) hurl
      exact h.loser_dialRegister hdial
  | dialRejected c hdial =>
      cases hc
      have hborn := haddr.born (by simp [hdial])
      have hurl := (haddr.dialed (by simp [hdial])).2
      have hstate := h.loser.rejected hdial
      have hclosed := h.loser.close hstate (by simp [hdial]) supersededCloseReason
      simp only [Node.markSuperseded, Node.close, Node.setDial, Node.modify_modify]
      refine h.modify_loser ?_ ?_ ?_
      · exact haddr.of_moved rfl rfl rfl (Or.inl rfl) hborn hborn (by simp [hdial]) haddr.known
          (fun _ => hurl)
      · have hmark : (n.context ends.preferred.other).lifecycle.markSuperseded =
            (n.context ends.preferred.other).lifecycle := by
          rw [hstate]
          rfl
        rw [hmark]
        exact hclosed.dialDone (Link.close_ne_opened _ _ _) (by simp [hdial, DialStage.hasClaimed])
      · exact fun hdis => ⟨by simp only [hstate]; rfl, hdis.url, by simp⟩
  | dialDisplaced c d hdial =>
      cases hc
      have hborn := haddr.born (by simp [hdial])
      have hnone : d = none := by
        cases d with
        | none => rfl
        | some d => exact absurd hdial (h.loser.displacesNone d).2
      subst hnone
      refine h.modify_loser ?_ (h.loser.dialDisplaced hdial) ?_
      · exact haddr.of_moved rfl rfl rfl (Or.inl rfl) hborn hborn (by simp [hdial]) haddr.known
          haddr.heard
      · exact fun hdis => ⟨hdis.superseded, hdis.url, by simp⟩
  | dialWritten c hdial hlink =>
      cases hc
      have hborn := haddr.born (by simp [hdial])
      refine h.modify_loser ?_ (h.loser.dialWritten hdial) ?_
      · exact haddr.of_moved rfl rfl rfl (Or.inl rfl) hborn hborn (by simp [hdial]) haddr.known
          (fun _ => (haddr.dialed (by simp [hdial])).2)
      · exact fun hdis => ⟨hdis.superseded, hdis.url, by simp⟩
  | dialWriteFailed c url err hdial hurl =>
      cases hc
      have hborn := haddr.born (by simp [hdial])
      -- the write failed on a superseded connection, which is not held against the peer
      simp only [Node.dialWriteFail, h.loser.isSuperseded_of_closed hcalm, if_true]
      refine h.modify_loser ?_ (h.loser.dialDone hcalm (by simp [hdial, DialStage.hasClaimed])) ?_
      · exact haddr.of_moved rfl rfl rfl (Or.inl rfl) hborn hborn (by simp [hdial]) haddr.known
          haddr.heard
      · exact fun hdis => ⟨hdis.superseded, hdis.url, by simp⟩
  | dialFailedClosed c err hdial =>
      cases hc
      exact absurd hdial (h.loser.notFailed.1 err)
  | dialFailedRemoved c url hdial hurl =>
      cases hc
      exact absurd hdial h.loser.notFailed.2
  | preflightRead c url hreader =>
      cases hc
      obtain ⟨rfl, hdial⟩ := hcalm
      refine SideInv.recvData (h.modify_loser ?_ (h.loser.read hreader (hdial rfl)) ?_) _ _
      · exact haddr.of_moved rfl rfl rfl (Or.inr rfl) (by simp [hreader]) (by simp) Iff.rfl
          (fun _ => rfl) (fun _ => rfl)
      · exact fun hdis => ⟨hdis.superseded, rfl, hdis.registered⟩
  | readFailed c err hreader =>
      cases hc
      have hup : (n.context ends.preferred.other).reader.isUp = true := by
        rcases hreader with hr | ⟨hr, -⟩ <;> rw [hr] <;> rfl
      have hborn : (n.context ends.preferred.other).reader ≠ .notStarted := by
        rcases hreader with hr | ⟨hr, -⟩ <;> simp [hr]
      have hdial : (n.context ends.preferred.other).dial ≠ .created :=
        fun hcreated => hcalm (h.loser.early hcreated).1
      refine h.modify_loser ?_ (h.loser.exit hup (h.loser.isSuperseded_of_closed hcalm) hdial
        (fun _ => hcalm) _) ?_
      · exact haddr.of_moved rfl rfl rfl (Or.inl rfl) hborn (by simp) Iff.rfl
          (by simp [ReaderStage.hasRead]) haddr.heard
      · exact fun hdis => ⟨hdis.superseded, hdis.url, hdis.registered⟩
  | readerRegistered c url hreader hurl =>
      cases hc
      obtain rfl := haddr.remote url hurl
      exact h.loser_readerRegister hreader
  | readerDisplaced c d hreader =>
      cases hc
      have hnone : d = none := by
        cases d with
        | none => rfl
        | some d => exact absurd hreader (h.loser.displacesNone d).1
      subst hnone
      have hafter := Node.afterDisplacing_cases (n.context ends.preferred.other)
      have hclaimed := h.loser.held_or_superseded (by rw [hreader]; rfl)
      have hdial := h.loser.dial_ne_created (by simp [hreader])
      refine h.modify_loser ?_ (h.loser.goOn hdial (by simp [hreader]) ?_ ?_ hclaimed) ?_
      · refine haddr.of_moved rfl rfl rfl (Or.inl rfl) (by simp [hreader]) ?_ Iff.rfl ?_ haddr.heard
        · rcases hafter with heq | heq <;> simp [heq]
        · exact fun _ => haddr.known (by rw [hreader]; rfl)
      · rcases hafter with heq | heq <;> rw [heq] <;> rfl
      · intro d
        rcases hafter with heq | heq <;> simp [heq]
      · exact fun hdis => ⟨hdis.superseded, hdis.url, hdis.registered⟩
  | returnSent c hreader hlink =>
      cases hc
      have hurl := haddr.known (by rw [hreader]; rfl)
      have hclaimed := h.loser.held_or_superseded (by rw [hreader]; rfl)
      have hdial := h.loser.dial_ne_created (by simp [hreader])
      refine h.modify_loser ?_ ?_ ?_
      · exact haddr.of_moved rfl rfl rfl (Or.inl rfl) (by simp [hreader]) (by simp) Iff.rfl
          (fun _ => hurl) (fun _ => hurl)
      · exact (h.loser.wrote hdial).goOn hdial (by simp [hreader]) rfl (by simp) hclaimed
      · exact fun hdis => ⟨hdis.superseded, hdis.url, hdis.registered⟩
  | returnFailed c exit hreader =>
      cases hc
      have hdial := h.loser.dial_ne_created (by simp [hreader])
      refine h.modify_loser ?_ (h.loser.exit (by rw [hreader]; rfl)
        (h.loser.isSuperseded_of_closed hcalm) hdial (fun _ => hcalm) _) ?_
      · exact haddr.of_moved rfl rfl rfl (Or.inl rfl) (by simp [hreader]) (by simp) Iff.rfl
          (by simp [ReaderStage.hasRead]) haddr.heard
      · exact fun hdis => ⟨hdis.superseded, hdis.url, hdis.registered⟩
  | readerActivated c url hreader hurl =>
      cases hc
      obtain rfl := haddr.remote url hurl
      exact h.loser_readerActivate hreader
  | exitRemoved c exit hreader =>
      cases hc
      exact h.loser_exitRemove hreader
  | exitMarked c wasActive exit hreader =>
      cases hc
      exact h.loser_exitMark hreader
  | exitFinished c url wasActive exit hreader hurl =>
      cases hc
      exact h.loser_exitFinish hreader url
  | remoteClosed c code reason hlink =>
      cases hc
      obtain ⟨-, rfl, hdial, hborn⟩ := hcalm
      refine h.modify_loser ?_ (h.loser.remoteClosed hdial reason) ?_
      · refine haddr.of_moved rfl rfl rfl (Or.inl rfl) hborn hborn Iff.rfl haddr.known ?_
        rintro (hwritten | ⟨code, reason', hl⟩)
        · exact haddr.heard (Or.inl hwritten)
        · cases hl
      · exact fun hdis => ⟨hdis.superseded, hdis.url, hdis.registered⟩
  | preflightRefused c url exit hreader => exact hcalm.elim
  | dataRead c url hreader hurl => exact hcalm.elim
  | connectionLost c hlink => exact hcalm.elim
  | slotTaken c url hslot => exact hcalm.elim
  | takenClosed c reason htaken => exact hcalm.elim
  | sendGaveUp url c => exact hcalm.elim

theorem step {e : Node.Event Id Url Side} (h : SideInv ends s n) (hstep : Node.Step n e n')
    (hcalm : Calm ends s n e) : SideInv ends s n' := by
  cases hc : e.conn with
  | none => cases hstep <;> first | exact hcalm.elim | cases hc
  | some c =>
      rcases Side.eq_or_eq_other ends.preferred c with rfl | rfl
      · exact h.step_winner hstep hcalm hc
      · exact h.step_loser hstep hcalm hc

end SideInv

end Transport
end Kitsune2
