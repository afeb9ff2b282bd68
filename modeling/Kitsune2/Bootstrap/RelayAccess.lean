import Kitsune2.Lib.Retain

/-!
# Relay access — bearer tokens, the recovery allowlist and the prune worker

The bootstrap server tracks bearer tokens by their last use, maps endpoint keys to the token they
were registered with, and records which token backs each live relay connection.  A connection is
admitted on a valid token, or on a registered key when its token has gone stale.  The prune worker
refreshes the tokens of live connections, drops the idle ones and tells the allowlist which.

Instants are natural numbers on the monotonic clock; every operation reads the clock once, under the
lock it takes, and the prune worker takes its locks one after another.
-/

namespace Kitsune2
namespace Bootstrap

open Lib

variable {Token Key Conn : Type} [DecidableEq Token] [DecidableEq Key] [DecidableEq Conn]

/-! ## The three maps -/

structure AuthConfig where
  hookServer : Bool
  idleTimeout : Nat
  deriving DecidableEq, Repr

/-- Valid tokens and the instant each was last used. -/
abbrev AuthTokenTracker (Token : Type) := AList fun _ : Token => Nat

/-- Endpoint keys and the token each was registered with. -/
abbrev RelayAllowlist (Key Token : Type) := AList fun _ : Key => Token

/-- Live relay connections and the token that backs each. -/
abbrev RelayConnTracker (Conn Token : Type) := AList fun _ : Conn => Token

/-- A token last used at `last` has not idled out at `now`. -/
def inUse (cfg : AuthConfig) (now last : Nat) : Bool :=
  decide (now - last < cfg.idleTimeout)

namespace AuthTokenTracker

def registerToken (tokens : AuthTokenTracker Token) (now : Nat) (token : Token) :
    AuthTokenTracker Token :=
  tokens.insert token now

/-- Check a token: a valid one is marked as used, an expired one is dropped. -/
def isValid (cfg : AuthConfig) (tokens : AuthTokenTracker Token) (now : Nat)
    (token : Option Token) : Bool × AuthTokenTracker Token :=
  match token with
  | none => (!cfg.hookServer, tokens)
  | some t =>
      match tokens.lookup t with
      | none => (false, tokens)
      | some last =>
          if inUse cfg now last then (true, tokens.insert t now) else (false, tokens.erase t)

/-- Drop the expired tokens and return them. -/
def pruneExpired (cfg : AuthConfig) (tokens : AuthTokenTracker Token) (now : Nat) :
    List Token × AuthTokenTracker Token :=
  ((tokens.entries.filter fun e => !inUse cfg now e.2).map fun e => e.1,
    retain (fun _ last => inUse cfg now last) tokens)

end AuthTokenTracker

namespace RelayAllowlist

def register (allow : RelayAllowlist Key Token) (key : Key) (token : Token) :
    RelayAllowlist Key Token :=
  allow.insert key token

def isAllowed (allow : RelayAllowlist Key Token) (key : Key) : Bool :=
  (allow.lookup key).isSome

/-- Remove the entries whose token has been pruned from the tracker. -/
def pruneForExpiredTokens (allow : RelayAllowlist Key Token) (expired : List Token) :
    RelayAllowlist Key Token :=
  if expired.isEmpty then allow else retain (fun _ token => !expired.contains token) allow

end RelayAllowlist

/-- Tokens that back at least one live connection. -/
def RelayConnTracker.liveTokens (conns : RelayConnTracker Conn Token) : List Token :=
  (conns.entries.map fun e => e.2).dedup

/-! ## The server's relay state -/

/-- Where the prune worker stands in its pass. -/
inductive PruneStage (Token : Type) where
  | idle
  /-- The tokens of live connections still to be refreshed. -/
  | refreshing (live : List Token)
  /-- The tracker was pruned at `now`; the allowlist is to be told of the expired tokens. -/
  | pruned (now : Nat) (expired : List Token)
  deriving DecidableEq, Repr

structure Relay (Token Key Conn : Type) where
  clock : Nat
  tokens : AuthTokenTracker Token
  allow : RelayAllowlist Key Token
  conns : RelayConnTracker Conn Token
  /-- Keepalives whose token was found valid and whose key is not registered yet. -/
  keepalives : List (Key × Token)
  worker : PruneStage Token

/-- `TokenAccess::on_connect`: is the endpoint admitted, and what does that change? -/
def onConnect (cfg : AuthConfig) (tokens : AuthTokenTracker Token) (allow : RelayAllowlist Key Token)
    (conns : RelayConnTracker Conn Token) (now : Nat) (key : Key) (token : Option Token)
    (conn : Conn) : Bool × AuthTokenTracker Token × RelayConnTracker Conn Token :=
  match token with
  | none => (false, tokens, conns)
  | some t =>
      let checked := tokens.isValid cfg now (some t)
      if checked.1 then (true, checked.2, conns.insert conn t)
      -- a stale token is re-admitted by the key a keepalive has registered
      else (allow.isAllowed key, checked.2, conns)

inductive RelayAction (Token Key Conn : Type) where
  /-- An authentication succeeded and its token is registered. -/
  | authenticated (token : Token)
  /-- An HTTP request presents a token. -/
  | checked (token : Option Token)
  /-- A keepalive presents a token for a key. -/
  | keepalive (key : Key) (token : Token)
  /-- A keepalive whose check has passed registers its key. -/
  | registered (key : Key) (token : Token)
  | connected (key : Key) (token : Option Token) (conn : Conn)
  | disconnected (conn : Conn)
  /-- The prune worker asks for the tokens of live connections. -/
  | collected
  /-- The prune worker refreshes one of them. -/
  | refreshed
  /-- The prune worker prunes the tracker. -/
  | tokensPruned
  /-- The prune worker tells the allowlist, which ends its pass. -/
  | allowlistPruned
  deriving DecidableEq, Repr

namespace Relay

def initial : Relay Token Key Conn :=
  { clock := 0, tokens := ∅, allow := ∅, conns := ∅, keepalives := [], worker := .idle }

/-- An action can happen now: time has not run back, and the thread is where the action needs it. -/
def Enabled (s : Relay Token Key Conn) (now : Nat) (action : RelayAction Token Key Conn) : Prop :=
  s.clock ≤ now ∧
    match action with
    | .registered key token => (key, token) ∈ s.keepalives
    | .collected => s.worker = .idle
    | .refreshed => ∃ t ts, s.worker = .refreshing (t :: ts)
    | .tokensPruned => s.worker = .refreshing []
    | .allowlistPruned => ∃ at_ expired, s.worker = .pruned at_ expired
    | _ => True

def act (cfg : AuthConfig) (s : Relay Token Key Conn) (now : Nat) :
    RelayAction Token Key Conn → Relay Token Key Conn
  | .authenticated token =>
      { s with clock := now, tokens := s.tokens.registerToken now token }
  | .checked token => { s with clock := now, tokens := (s.tokens.isValid cfg now token).2 }
  | .keepalive key token =>
      -- the handler checks the token first and registers with the allowlist in a second step
      let checked := s.tokens.isValid cfg now (some token)
      { s with
        clock := now, tokens := checked.2
        keepalives := if checked.1 then (key, token) :: s.keepalives else s.keepalives }
  | .registered key token =>
      { s with
        clock := now, allow := s.allow.register key token
        keepalives := s.keepalives.erase (key, token) }
  | .connected key token conn =>
      let r := onConnect cfg s.tokens s.allow s.conns now key token conn
      { s with clock := now, tokens := r.2.1, conns := r.2.2 }
  | .disconnected conn => { s with clock := now, conns := s.conns.erase conn }
  -- from here on: the prune worker, one lock after the other
  | .collected => { s with clock := now, worker := .refreshing s.conns.liveTokens }
  | .refreshed =>
      match s.worker with
      | .refreshing (t :: ts) =>
          { s with clock := now, tokens := s.tokens.registerToken now t, worker := .refreshing ts }
      | _ => { s with clock := now }
  | .tokensPruned =>
      let pruned := s.tokens.pruneExpired cfg now
      { s with clock := now, tokens := pruned.2, worker := .pruned now pruned.1 }
  | .allowlistPruned =>
      match s.worker with
      -- only what this pass found expired reaches the allowlist
      | .pruned _ expired =>
          { s with clock := now, allow := s.allow.pruneForExpiredTokens expired, worker := .idle }
      | _ => { s with clock := now }

/-! ## When a pass leaves the allowlist right -/

/-- The token is in the tracker and was in use at `now`. -/
def Live (cfg : AuthConfig) (tokens : AuthTokenTracker Token) (now : Nat) (token : Token) : Prop :=
  ∃ last, tokens.lookup token = some last ∧ inUse cfg now last = true

/-- The token is on its way out: the worker is about to tell the allowlist. -/
def Leaving (s : Relay Token Key Conn) (token : Token) : Prop :=
  ∃ now expired, s.worker = .pruned now expired ∧ token ∈ expired

/-- A check of this token would drop it from the tracker while a registered key still names it, and
the prune worker is not about to clear that key. -/
def Orphans (cfg : AuthConfig) (s : Relay Token Key Conn) (now : Nat) (token : Token) : Prop :=
  (∃ last, s.tokens.lookup token = some last ∧ inUse cfg now last = false) ∧
    (∃ key, s.allow.lookup key = some token) ∧ ¬ s.Leaving token

/-- The action neither drops a token that a registered key still names, nor registers a key with a
token that is gone. -/
def Tidy (cfg : AuthConfig) (s : Relay Token Key Conn) (now : Nat) :
    RelayAction Token Key Conn → Prop
  | .checked (some token) => ¬ s.Orphans cfg now token
  | .keepalive _ token => ¬ s.Orphans cfg now token
  | .connected _ (some token) _ => ¬ s.Orphans cfg now token
  | .registered _ token => (s.tokens.lookup token).isSome ∨ s.Leaving token
  | _ => True

/-- The states the server can reach. -/
inductive Reachable (cfg : AuthConfig) : Relay Token Key Conn → Prop
  | initial : Reachable cfg initial
  | step {s : Relay Token Key Conn} (h : Reachable cfg s) (now : Nat)
      (action : RelayAction Token Key Conn) (henabled : s.Enabled now action) :
      Reachable cfg (s.act cfg now action)

/-- The states of runs in which every action was tidy. -/
inductive TidyRun (cfg : AuthConfig) : Relay Token Key Conn → Prop
  | initial : TidyRun cfg initial
  | step {s : Relay Token Key Conn} (h : TidyRun cfg s) (now : Nat)
      (action : RelayAction Token Key Conn) (henabled : s.Enabled now action)
      (htidy : s.Tidy cfg now action) : TidyRun cfg (s.act cfg now action)

end Relay

/-! ## What one action does to the tracker -/

namespace AuthTokenTracker

/-- A check leaves the tracker as it is, marks the token as used, or drops it because it expired. -/
theorem isValid_cases (cfg : AuthConfig) (tokens : AuthTokenTracker Token) (now : Nat)
    (token : Option Token) :
    (tokens.isValid cfg now token).2 = tokens ∨
      (∃ t, token = some t ∧ 0 < cfg.idleTimeout ∧
        (tokens.isValid cfg now token).2 = tokens.insert t now) ∨
      ∃ t last, token = some t ∧ tokens.lookup t = some last ∧ inUse cfg now last = false ∧
        (tokens.isValid cfg now token).2 = tokens.erase t := by
  cases token with
  | none => exact Or.inl rfl
  | some t =>
      cases hlast : tokens.lookup t with
      | none => exact Or.inl (by simp only [isValid, hlast])
      | some last =>
          by_cases huse : inUse cfg now last = true
          · have hpos : 0 < cfg.idleTimeout := by
              simp only [inUse, decide_eq_true_eq] at huse
              omega
            exact Or.inr (Or.inl ⟨t, rfl, hpos, by simp only [isValid, hlast, huse, if_true]⟩)
          · have huse' : inUse cfg now last = false := by simpa using huse
            refine Or.inr (Or.inr ⟨t, last, rfl, hlast, huse', ?_⟩)
            simp only [isValid, hlast, huse', Bool.false_eq_true, if_false]

/-- A token is found valid exactly when it is tracked and in use. -/
theorem isValid_some_iff {cfg : AuthConfig} {tokens : AuthTokenTracker Token} {now : Nat}
    {token : Token} :
    (tokens.isValid cfg now (some token)).1 = true ↔
      ∃ last, tokens.lookup token = some last ∧ inUse cfg now last = true := by
  cases hlast : tokens.lookup token with
  | none => simp [isValid, hlast]
  | some last => by_cases huse : inUse cfg now last = true <;> simp [isValid, hlast, huse]

theorem mem_pruneExpired_iff {cfg : AuthConfig} {tokens : AuthTokenTracker Token} {now : Nat}
    {token : Token} :
    token ∈ (tokens.pruneExpired cfg now).1 ↔
      ∃ last, tokens.lookup token = some last ∧ inUse cfg now last = false := by
  simp only [pruneExpired, List.mem_map, List.mem_filter, Bool.not_eq_true']
  constructor
  · rintro ⟨⟨t, last⟩, ⟨hmem, huse⟩, rfl⟩
    exact ⟨last, AList.mem_lookup_iff.mpr hmem, huse⟩
  · rintro ⟨last, hlast, huse⟩
    exact ⟨⟨token, last⟩, ⟨AList.mem_lookup_iff.mp hlast, huse⟩, rfl⟩

end AuthTokenTracker

namespace Relay

/-- An action of anyone but the pruning itself marks a token as used or drops one that expired, and
a tidy one drops no token that a registered key still needs. -/
def Moved (cfg : AuthConfig) (s : Relay Token Key Conn) (now : Nat)
    (tokens : AuthTokenTracker Token) : Prop :=
  tokens = s.tokens ∨ (∃ t, tokens = s.tokens.insert t now) ∨
    ∃ t, ¬ s.Orphans cfg now t ∧
      (∃ last, s.tokens.lookup t = some last ∧ inUse cfg now last = false) ∧
        tokens = s.tokens.erase t

omit [DecidableEq Conn] in
theorem moved_isValid {cfg : AuthConfig} {s : Relay Token Key Conn} {now : Nat}
    {token : Option Token} (htidy : ∀ t, token = some t → ¬ s.Orphans cfg now t) :
    s.Moved cfg now (s.tokens.isValid cfg now token).2 := by
  rcases AuthTokenTracker.isValid_cases cfg s.tokens now token with
    heq | ⟨t, -, -, heq⟩ | ⟨t, last, rfl, hlast, huse, heq⟩
  · exact Or.inl heq
  · exact Or.inr (Or.inl ⟨t, heq⟩)
  · exact Or.inr (Or.inr ⟨t, htidy t rfl, ⟨last, hlast, huse⟩, heq⟩)

/-! ## The invariant of tidy runs -/

/-- What holds in every state of a tidy run. -/
structure Sound (cfg : AuthConfig) (s : Relay Token Key Conn) : Prop where
  /-- A registered key's token is tracked, or the worker is about to clear the key. -/
  tracked : ∀ key t, s.allow.lookup key = some t → (s.tokens.lookup t).isSome ∨ s.Leaving t
  /-- What the tracker holds after a pruning was in use at the pruning. -/
  fresh : ∀ at_ expired, s.worker = .pruned at_ expired → 0 < cfg.idleTimeout →
    at_ ≤ s.clock ∧ ∀ t last, s.tokens.lookup t = some last → inUse cfg at_ last = true
  /-- With a zero timeout no keepalive ever passes its check. -/
  lasting : (∃ key t, s.allow.lookup key = some t) ∨ s.keepalives ≠ [] → 0 < cfg.idleTimeout

omit [DecidableEq Conn] in
theorem sound_initial (cfg : AuthConfig) : Sound cfg (initial : Relay Token Key Conn) where
  tracked := by
    intro key t h
    simp [initial] at h
  fresh := by
    intro at_ expired h
    cases h
  lasting := by
    rintro (⟨key, t, h⟩ | h)
    · simp [initial] at h
    · exact absurd rfl h

variable {cfg : AuthConfig} {s : Relay Token Key Conn} {now : Nat}

omit [DecidableEq Conn] in
/-- A token that a registered key needs stays tracked. -/
theorem Moved.tracked {tokens : AuthTokenTracker Token} (hmoved : s.Moved cfg now tokens)
    (hsound : s.Sound cfg) {key : Key} {t : Token} (hkey : s.allow.lookup key = some t) :
    (tokens.lookup t).isSome ∨ s.Leaving t := by
  rcases hsound.tracked key t hkey with hin | hleaving
  · rcases hmoved with rfl | ⟨t', rfl⟩ | ⟨t', htidy, hexpired, rfl⟩
    · exact Or.inl hin
    · by_cases heq : t = t'
      · subst heq
        simp
      · rw [AList.lookup_insert_ne heq]
        exact Or.inl hin
    · by_cases heq : t = t'
      · -- the dropped token is the key's own, so the worker must be about to clear the key
        subst heq
        by_contra hcon
        exact htidy ⟨hexpired, ⟨key, hkey⟩, fun h => hcon (Or.inr h)⟩
      · rw [AList.lookup_erase_ne heq]
        exact Or.inl hin
  · exact Or.inr hleaving

omit [DecidableEq Conn] in
/-- A token used after the pruning counts as in use at the pruning. -/
theorem Moved.fresh {tokens : AuthTokenTracker Token} (hmoved : s.Moved cfg now tokens)
    {at_ : Nat} (hnow : at_ ≤ now) (hpos : 0 < cfg.idleTimeout)
    (hold : ∀ t last, s.tokens.lookup t = some last → inUse cfg at_ last = true) :
    ∀ t last, tokens.lookup t = some last → inUse cfg at_ last = true := by
  intro t last h
  rcases hmoved with rfl | ⟨t', rfl⟩ | ⟨t', -, -, rfl⟩
  · exact hold t last h
  · by_cases heq : t = t'
    · subst heq
      rw [AList.lookup_insert, Option.some.injEq] at h
      subst h
      simp only [inUse, decide_eq_true_eq]
      omega
    · rw [AList.lookup_insert_ne heq] at h
      exact hold t last h
  · by_cases heq : t = t'
    · subst heq
      rw [AList.lookup_erase] at h
      cases h
    · rw [AList.lookup_erase_ne heq] at h
      exact hold t last h

omit [DecidableEq Conn] in
/-- Moving the tracker alone keeps the invariant. -/
theorem Sound.moved (hsound : s.Sound cfg) (hclock : s.clock ≤ now)
    {tokens : AuthTokenTracker Token} (hmoved : s.Moved cfg now tokens)
    (conns : RelayConnTracker Conn Token) :
    Sound cfg { s with clock := now, tokens := tokens, conns := conns } where
  tracked := fun _ _ hkey => hmoved.tracked hsound hkey
  fresh := by
    intro at_ expired hworker hpos
    obtain ⟨hat, hold⟩ := hsound.fresh at_ expired hworker hpos
    exact ⟨le_trans hat hclock, hmoved.fresh (le_trans hat hclock) hpos hold⟩
  lasting := hsound.lasting

omit [DecidableEq Conn] in
/-- When the worker is not between its two prunings, every registered key's token is tracked. -/
theorem Sound.tracked_of_not_pruned (hsound : s.Sound cfg)
    (hworker : ∀ at_ expired, s.worker ≠ .pruned at_ expired) {key : Key} {t : Token}
    (hkey : s.allow.lookup key = some t) : (s.tokens.lookup t).isSome := by
  rcases hsound.tracked key t hkey with hin | ⟨at_, expired, hpruned, -⟩
  · exact hin
  · exact absurd hpruned (hworker at_ expired)

omit [DecidableEq Conn] in
/-- Outside the two prunings the worker's moves keep the invariant. -/
theorem Sound.worker (hsound : s.Sound cfg)
    (hworker : ∀ at_ expired, s.worker ≠ .pruned at_ expired)
    (stage : PruneStage Token) (hstage : ∀ at_ expired, stage ≠ .pruned at_ expired) :
    Sound cfg { s with worker := stage } where
  tracked := fun _ _ hkey => Or.inl (hsound.tracked_of_not_pruned hworker hkey)
  fresh := fun at_ expired h => absurd h (hstage at_ expired)
  lasting := hsound.lasting

theorem lookup_pruneForExpiredTokens {allow : RelayAllowlist Key Token} {expired : List Token}
    {key : Key} {t : Token} :
    (allow.pruneForExpiredTokens expired).lookup key = some t ↔
      allow.lookup key = some t ∧ t ∉ expired := by
  unfold RelayAllowlist.pruneForExpiredTokens
  split
  · rename_i hempty
    simp [List.isEmpty_iff.mp hempty]
  · simp [lookup_retain_eq_some_iff]

omit [DecidableEq Conn] in
/-- After the allowlist was told, the token of every key left in it is tracked. -/
theorem Sound.tracked_of_pruned (hsound : s.Sound cfg) {at_ : Nat} {expired : List Token}
    (hworker : s.worker = .pruned at_ expired) {key : Key} {t : Token}
    (hkey : (s.allow.pruneForExpiredTokens expired).lookup key = some t) :
    (s.tokens.lookup t).isSome := by
  obtain ⟨hkey, hnot⟩ := lookup_pruneForExpiredTokens.mp hkey
  rcases hsound.tracked key t hkey with hin | ⟨at', expired', hworker', hmem⟩
  · exact hin
  · rw [hworker] at hworker'
    cases hworker'
    exact absurd hmem hnot

theorem Sound.tokensPruned (hsound : s.Sound cfg) (hworker : s.worker = .refreshing []) :
    Sound cfg (s.act cfg now .tokensPruned) where
  tracked := by
    intro key t hkey
    have hin : (s.tokens.lookup t).isSome :=
      hsound.tracked_of_not_pruned (by simp [hworker]) hkey
    obtain ⟨last, hlast⟩ := Option.isSome_iff_exists.mp hin
    by_cases huse : inUse cfg now last = true
    · refine Or.inl (Option.isSome_iff_exists.mpr ⟨last, ?_⟩)
      exact lookup_retain_eq_some_iff.mpr ⟨hlast, huse⟩
    · exact Or.inr ⟨now, _, rfl,
        AuthTokenTracker.mem_pruneExpired_iff.mpr ⟨last, hlast, by simpa using huse⟩⟩
  fresh := by
    intro at_ expired h _
    cases h
    exact ⟨le_rfl, fun t last h => (lookup_retain_eq_some_iff.mp h).2⟩
  lasting := hsound.lasting

omit [DecidableEq Conn] in
theorem Sound.allowlistPruned (hsound : s.Sound cfg) {at_ : Nat} {expired : List Token}
    (hworker : s.worker = .pruned at_ expired) :
    Sound cfg
      { s with
        clock := now, allow := s.allow.pruneForExpiredTokens expired, worker := .idle } where
  tracked := fun _ _ hkey => Or.inl (hsound.tracked_of_pruned hworker hkey)
  fresh := by
    intro at' expired' h
    cases h
  lasting := by
    rintro (⟨key, t, hkey⟩ | hkeep)
    · exact hsound.lasting (Or.inl ⟨key, t, (lookup_pruneForExpiredTokens.mp hkey).1⟩)
    · exact hsound.lasting (Or.inr hkeep)

theorem Sound.keepalive (hsound : s.Sound cfg) (hclock : s.clock ≤ now) {key : Key} {token : Token}
    (htidy : ¬ s.Orphans cfg now token) :
    Sound cfg (s.act cfg now (.keepalive key token)) := by
  have hmoved : s.Moved cfg now (s.tokens.isValid cfg now (some token)).2 := by
    refine moved_isValid ?_
    rintro t ⟨⟩
    exact htidy
  have hsound' := hsound.moved hclock hmoved s.conns
  refine ⟨hsound'.tracked, hsound'.fresh, ?_⟩
  rintro (hallow | hkeep)
  · exact hsound.lasting (Or.inl hallow)
  · by_cases hvalid : (s.tokens.isValid cfg now (some token)).1 = true
    · -- a passed check is a use within the timeout
      obtain ⟨last, -, huse⟩ := AuthTokenTracker.isValid_some_iff.mp hvalid
      simp only [inUse, decide_eq_true_eq] at huse
      omega
    · simp only [act, hvalid, Bool.false_eq_true, if_false] at hkeep
      exact hsound.lasting (Or.inr hkeep)

theorem Sound.registered (hsound : s.Sound cfg) (hclock : s.clock ≤ now) {key : Key} {token : Token}
    (hmem : (key, token) ∈ s.keepalives)
    (htidy : (s.tokens.lookup token).isSome ∨ s.Leaving token) :
    Sound cfg (s.act cfg now (.registered key token)) where
  tracked := by
    intro key' t hkey
    by_cases heq : key' = key
    · subst heq
      simp only [act, RelayAllowlist.register, AList.lookup_insert, Option.some.injEq] at hkey
      subst hkey
      exact htidy
    · simp only [act, RelayAllowlist.register, AList.lookup_insert_ne heq] at hkey
      exact hsound.tracked key' t hkey
  fresh := by
    intro at_ expired hworker hpos
    obtain ⟨hat, hold⟩ := hsound.fresh at_ expired hworker hpos
    exact ⟨le_trans hat hclock, hold⟩
  lasting := fun _ => hsound.lasting (Or.inr (List.ne_nil_of_mem hmem))

theorem Sound.connected (hsound : s.Sound cfg) (hclock : s.clock ≤ now) {key : Key}
    {token : Option Token} {conn : Conn}
    (htidy : ∀ t, token = some t → ¬ s.Orphans cfg now t) :
    Sound cfg (s.act cfg now (.connected key token conn)) := by
  cases token with
  | none => exact hsound.moved hclock (Or.inl rfl) s.conns
  | some t =>
      have hmoved := moved_isValid htidy
      by_cases hvalid : (s.tokens.isValid cfg now (some t)).1 = true
      · simp only [act, onConnect, hvalid, if_true]
        exact hsound.moved hclock hmoved _
      · simp only [act, onConnect, hvalid, Bool.false_eq_true, if_false]
        exact hsound.moved hclock hmoved _

/-- One tidy action keeps the invariant. -/
theorem Sound.step (hsound : s.Sound cfg) {action : RelayAction Token Key Conn}
    (henabled : s.Enabled now action) (htidy : s.Tidy cfg now action) :
    Sound cfg (s.act cfg now action) := by
  obtain ⟨hclock, hready⟩ := henabled
  cases action with
  | authenticated token => exact hsound.moved hclock (Or.inr (Or.inl ⟨token, rfl⟩)) s.conns
  -- `htidy` says that `is_valid` does not drop a token the list still admits
  | checked token =>
      refine hsound.moved hclock (moved_isValid ?_) s.conns
      rintro t rfl
      exact htidy
  | keepalive key token => exact hsound.keepalive hclock htidy
  | registered key token => exact hsound.registered hclock hready htidy
  | connected key token conn =>
      refine hsound.connected hclock ?_
      rintro t rfl
      exact htidy
  | disconnected conn => exact hsound.moved hclock (Or.inl rfl) (s.conns.erase conn)
  | collected =>
      have hsound' := hsound.moved hclock (Or.inl rfl) s.conns
      exact hsound'.worker (by simp [show s.worker = .idle from hready]) _ (by simp)
  | refreshed =>
      obtain ⟨t, ts, hworker⟩ := hready
      have hsound' := hsound.moved hclock (Or.inr (Or.inl ⟨t, rfl⟩)) s.conns
      simp only [act, hworker]
      exact hsound'.worker (by simp [hworker]) (.refreshing ts) (by simp)
  | tokensPruned => exact hsound.tokensPruned hready
  | allowlistPruned =>
      obtain ⟨at_, expired, hworker⟩ := hready
      simp only [act, hworker]
      exact hsound.allowlistPruned hworker

theorem TidyRun.sound (hrun : TidyRun cfg s) : s.Sound cfg := by
  induction hrun with
  | initial => exact sound_initial cfg
  | step _ now action henabled htidy ih => exact ih.step henabled htidy

/-! ## What a finished pass leaves behind -/

/-- Later actions, each with the instant it happens at. -/
def acts (cfg : AuthConfig) (s : Relay Token Key Conn)
    (later : List (Nat × RelayAction Token Key Conn)) : Relay Token Key Conn :=
  later.foldl (fun s a => s.act cfg a.1 a.2) s

/-- Only a keepalive brings a key back onto the allowlist. -/
theorem lookup_allow_act_eq_none {action : RelayAction Token Key Conn} {key : Key}
    (hnone : s.allow.lookup key = none) (hother : ∀ t, action ≠ .registered key t) :
    (s.act cfg now action).allow.lookup key = none := by
  cases action with
  | registered key' t =>
      have hne : key ≠ key' := by
        rintro rfl
        exact hother t rfl
      simpa only [act, RelayAllowlist.register, AList.lookup_insert_ne hne] using hnone
  | refreshed =>
      simp only [act]
      split
      · exact hnone
      · exact hnone
  | allowlistPruned =>
      simp only [act]
      split
      · rw [Option.eq_none_iff_forall_ne_some] at hnone ⊢
        exact fun t h => hnone t (lookup_pruneForExpiredTokens.mp h).1
      · exact hnone
  | _ => exact hnone

theorem lookup_allow_acts_eq_none {later : List (Nat × RelayAction Token Key Conn)} {key : Key}
    (hnone : s.allow.lookup key = none) (hother : ∀ a ∈ later, ∀ t, a.2 ≠ .registered key t) :
    (s.acts cfg later).allow.lookup key = none := by
  induction later generalizing s with
  | nil => exact hnone
  | cons a later ih =>
      refine ih (lookup_allow_act_eq_none hnone (hother a (by simp))) ?_
      exact fun b hb => hother b (by simp [hb])

/-- Without a live token and without a registered key there is no admission. -/
theorem onConnect_denied {tokens : AuthTokenTracker Token} {allow : RelayAllowlist Key Token}
    {conns : RelayConnTracker Conn Token} {key : Key} {token : Option Token} {conn : Conn}
    (hkey : allow.lookup key = none) (htoken : ∀ t, token = some t → ¬ Live cfg tokens now t) :
    (onConnect cfg tokens allow conns now key token conn).1 = false := by
  cases token with
  | none => rfl
  | some t =>
      have hinvalid : ¬ (tokens.isValid cfg now (some t)).1 = true :=
        fun h => htoken t rfl (AuthTokenTracker.isValid_some_iff.mp h)
      simp only [onConnect, hinvalid, Bool.false_eq_true, if_false, RelayAllowlist.isAllowed, hkey,
        Option.isSome_none]

/-- Admission follows token life: when a pass ends, every key on the allowlist was registered with a
token that is tracked and was in use when the pass pruned the tracker, and an endpoint whose
registered token was not is refused from then on, unless it presents a live token or a later
keepalive registers it again. -/
def FollowsTokenLife (cfg : AuthConfig) (s : Relay Token Key Conn) (at_ now : Nat) : Prop :=
  (∀ key t, (s.act cfg now .allowlistPruned).allow.lookup key = some t →
    Live cfg (s.act cfg now .allowlistPruned).tokens at_ t) ∧
  ∀ key, (∀ t, s.allow.lookup key = some t → ¬ Live cfg s.tokens at_ t) →
    ∀ later, (∀ a ∈ later, ∀ t, a.2 ≠ .registered key t) →
      ∀ (now' : Nat) (token : Option Token) (conn : Conn),
        (∀ t, token = some t →
          ¬ Live cfg ((s.act cfg now .allowlistPruned).acts cfg later).tokens now' t) →
        (onConnect cfg ((s.act cfg now .allowlistPruned).acts cfg later).tokens
          ((s.act cfg now .allowlistPruned).acts cfg later).allow
          ((s.act cfg now .allowlistPruned).acts cfg later).conns now' key token conn).1 = false

/-- In a tidy run every pass leaves admission following token life. -/
theorem TidyRun.followsTokenLife (hrun : TidyRun cfg s) {at_ : Nat} {expired : List Token}
    (hworker : s.worker = .pruned at_ expired) (now : Nat) : s.FollowsTokenLife cfg at_ now := by
  have hsound := hrun.sound
  have hlive : ∀ key t, (s.allow.pruneForExpiredTokens expired).lookup key = some t →
      Live cfg s.tokens at_ t := by
    intro key t hkey
    have hpos : 0 < cfg.idleTimeout :=
      hsound.lasting (Or.inl ⟨key, t, (lookup_pruneForExpiredTokens.mp hkey).1⟩)
    obtain ⟨last, hlast⟩ :=
      Option.isSome_iff_exists.mp (hsound.tracked_of_pruned hworker hkey)
    exact ⟨last, hlast, (hsound.fresh at_ expired hworker hpos).2 t last hlast⟩
  refine ⟨?_, ?_⟩
  · simp only [act, hworker]
    exact hlive
  · intro key hdead later hother now' token conn htoken
    refine onConnect_denied (lookup_allow_acts_eq_none ?_ hother) htoken
    simp only [act, hworker]
    rw [Option.eq_none_iff_forall_ne_some]
    intro t hkey
    exact hdead t (lookup_pruneForExpiredTokens.mp hkey).1 (hlive key t hkey)

end Relay

/-! ## A token dropped by a check -/

section Orphaned

private def fiveMinutes : AuthConfig := { hookServer := false, idleTimeout := 300 }

/-- A keepalive has registered key `7` with token `5`. -/
private def registeredKey : Relay Nat Nat Nat :=
  Relay.initial.acts fiveMinutes [(0, .authenticated 5), (1, .keepalive 7 5), (1, .registered 7 5)]

/-- The worker finds the token expired and clears the key. -/
theorem relay_pass_clears_key :
    Relay.FollowsTokenLife fiveMinutes
      (registeredKey.acts fiveMinutes [(302, .collected), (302, .tokensPruned)]) 302 303 := by
  have hregistered : Relay.TidyRun fiveMinutes registeredKey := by
    refine .step (.step (.step .initial 0 (.authenticated 5) ?_ ?_) 1 (.keepalive 7 5) ?_ ?_) 1
      (.registered 7 5) ?_ ?_
    · exact ⟨by decide, trivial⟩
    · exact trivial
    · exact ⟨by decide, trivial⟩
    · rintro ⟨⟨last, hlast, huse⟩, -⟩
      cases hlast
      revert huse
      decide
    · exact ⟨by decide, by decide⟩
    · exact Or.inl (by decide)
  have hpruned := Relay.TidyRun.step
    (Relay.TidyRun.step hregistered 302 .collected ⟨by decide, rfl⟩ trivial)
    302 .tokensPruned ⟨by decide, rfl⟩ trivial
  exact Relay.TidyRun.followsTokenLife hpruned (by rfl) 303

/-- An HTTP request presents the expired token before the worker runs: the check drops it from the
tracker, the worker never learns of it, and the key survives the pass. -/
theorem orphaned_key_admitted :
    ¬ ∀ s : Relay Nat Nat Nat, Relay.Reachable fiveMinutes s → ∀ at_ expired,
      s.worker = .pruned at_ expired → s.FollowsTokenLife fiveMinutes at_ at_ := by
  intro h
  have hregistered : Relay.Reachable fiveMinutes registeredKey :=
    .step (.step (.step .initial 0 (.authenticated 5) ⟨by decide, trivial⟩) 1 (.keepalive 7 5)
      ⟨by decide, trivial⟩) 1 (.registered 7 5) ⟨by decide, by decide⟩
  have hdropped := hregistered.step 301 (.checked (some 5)) ⟨by decide, trivial⟩
  have hpruned := (hdropped.step 310 .collected ⟨by decide, rfl⟩).step 310 .tokensPruned
    ⟨by decide, rfl⟩
  obtain ⟨hlive, -⟩ := h _ hpruned 310 [] rfl
  obtain ⟨last, hlast, -⟩ := hlive 7 5 rfl
  cases hlast

end Orphaned

end Bootstrap
end Kitsune2
