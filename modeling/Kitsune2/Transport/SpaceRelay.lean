import Mathlib.Data.Finset.Basic
import Mathlib.Data.List.AList
import Kitsune2.Api.Basic
import Kitsune2.Lib.Runs

/-!
# SpaceRelay — relays that single spaces bring

`configure_for_space` starts a task that inserts the space's relay into the endpoint and only then
records it; `unconfigure_for_space` removes the record, looks whether another space has the relay
recorded, and takes it out of the endpoint.  A step is what one of these does between two locks or
answers of the endpoint.

How a relay URL is read from a text and written as one belongs to other packages and is a parameter,
and so is the decoding of auth material.  `wanted` is not in the code: it says which relay the last
call for a space asked for.
-/

namespace Kitsune2
namespace Transport

open Api Lib

variable {SpaceId RelayUrl Url : Type} [DecidableEq SpaceId] [DecidableEq RelayUrl]

/-! ## Whose relay it is -/

/-- `trim_end_matches('/')`. -/
def trimEndSlashes (text : String) : List Char :=
  (text.toList.reverse.dropWhile (· = '/')).reverse

/-- The text with a slash at its end. -/
def withEndSlash (text : String) : String :=
  if text.toList.getLast? = some '/' then text else text ++ "/"

/-- `is_transport_own_relay`. -/
def isTransportOwnRelay (relayUrl : String) (transportRelayUrl : Option String) : Bool :=
  match transportRelayUrl with
  | none => false
  | some transportRelayUrl => trimEndSlashes relayUrl = trimEndSlashes transportRelayUrl

/-- `SpaceRelay`: what a space's configuration asks for. -/
structure SpaceRelay where
  url : String
  authMaterialBase64 : Option String
  deriving DecidableEq

/-- The fields of `IrohTransportConfig` about the relay. -/
structure RelayConfig where
  relayUrl : Option String
  authMaterialRelayBase64 : Option String
  deriving DecidableEq

/-- `per_space_relay`. -/
def perSpaceRelay (spaceRelayUrl spaceAuthMaterial transportRelayUrl transportAuthMaterial :
    Option String) : Option SpaceRelay := do
  let url ← spaceRelayUrl
  let ownAuthMaterial := spaceAuthMaterial.filter fun m => some m ≠ transportAuthMaterial
  if isTransportOwnRelay url transportRelayUrl && ownAuthMaterial.isNone then none
  else some ⟨url, ownAuthMaterial⟩

/-! ## State -/

/-- What the transport is made with. -/
structure RelayEnv (RelayUrl Url : Type) where
  config : RelayConfig
  /-- `RelayUrl::from_str`. -/
  parse : String → Option RelayUrl
  /-- `RelayUrl::as_str`. -/
  asStr : RelayUrl → String
  /-- `canonicalize_relay_url` for this endpoint; `none` where it fails. -/
  localUrl : RelayUrl → Option Url
  /-- Decoding of standard base64. -/
  decode : String → Option Bytes
  /-- The relays the endpoint has when none is configured. -/
  defaultRelays : List RelayUrl

/-- The transport's own relays, where its configuration can be read. -/
def RelayEnv.ownRelays (env : RelayEnv RelayUrl Url) : Option (List RelayUrl) :=
  match env.config.relayUrl with
  | none => some env.defaultRelays
  | some url => (env.parse url).map fun relay => [relay]

/-- The transport's own relays. -/
def RelayEnv.own (env : RelayEnv RelayUrl Url) : List RelayUrl :=
  env.ownRelays.getD []

/-- A background insertion, or a call of `unconfigure_for_space`. -/
inductive RelayTask (SpaceId RelayUrl Url : Type) where
  /-- `do_insert_relay` has yet to read the URL and to get its token. -/
  | preparing (space : SpaceId) (number : Nat) (url : String) (auth : Option Bytes)
  | ready (space : SpaceId) (number : Nat) (relay : RelayUrl) (auth : Option Bytes)
  /-- The relay is in the endpoint and not yet recorded for the space. -/
  | inserted (space : SpaceId) (number : Nat) (relay : RelayUrl) (auth : Option Bytes)
  /-- Next is the keepalive, if there is auth material. -/
  | recorded (space : SpaceId) (relay : RelayUrl) (localUrl : Url) (auth : Option Bytes)
  | announcing (space : SpaceId) (localUrl : Url)
  /-- `unconfigure_for_space` has yet to remove the record. -/
  | removing (space : SpaceId)
  | removed (relay : RelayUrl)
  /-- No other space had the relay recorded. -/
  | unused (relay : RelayUrl)
  | released (relay : RelayUrl)
  | done
  deriving DecidableEq

/-- What the transport's handler is told. -/
inductive RelayNotice (SpaceId Url : Type) where
  | newListeningAddress (url : Url) (space : SpaceId)
  | unmarkPerSpaceManaged (space : SpaceId)
  deriving DecidableEq

/-- The relay state of `IrohTransport`. -/
structure IrohTransport (SpaceId RelayUrl Url : Type) where
  /-- The relays in the endpoint. -/
  relays : Finset RelayUrl
  spaceRelays : AList fun _ : SpaceId => RelayUrl × Option Url
  /-- The keepalive tasks that run, with the auth material they use. -/
  spaceRelayKeepalives : AList fun _ : RelayUrl => Bytes
  notices : List (RelayNotice SpaceId Url)
  tasks : List (RelayTask SpaceId RelayUrl Url)
  wanted : SpaceId → Option (Nat × RelayUrl)
  configurations : Nat

namespace IrohTransport

/-- `IrohTransport::create`; a relay URL that cannot be read is an error. -/
def create (env : RelayEnv RelayUrl Url) : Option (IrohTransport SpaceId RelayUrl Url) :=
  env.ownRelays.map fun own =>
    { relays := own.toFinset
      spaceRelays := ∅
      spaceRelayKeepalives := ∅
      notices := []
      tasks := []
      wanted := fun _ => none
      configurations := 0 }

/-! ## Steps -/

variable (env : RelayEnv RelayUrl Url)

/-- `per_space_relay` on a space's configuration, if it has one for this module. -/
def spaceRelay (config : Option RelayConfig) : Option SpaceRelay :=
  perSpaceRelay (config.bind RelayConfig.relayUrl)
    (config.bind RelayConfig.authMaterialRelayBase64)
    env.config.relayUrl env.config.authMaterialRelayBase64

/-- `configure_for_space`: the insertion runs in a task of its own.  Auth material that is not valid
base64 is ignored. -/
def configureForSpace (s : IrohTransport SpaceId RelayUrl Url) (space : SpaceId)
    (config : Option RelayConfig) : IrohTransport SpaceId RelayUrl Url :=
  match spaceRelay env config with
  | none => { s with wanted := Function.update s.wanted space none }
  | some r =>
      { s with
        tasks := s.tasks ++
          [.preparing space s.configurations r.url (r.authMaterialBase64.bind env.decode)]
        wanted := Function.update s.wanted space
          ((env.parse (withEndSlash r.url)).map fun relay => (s.configurations, relay))
        configurations := s.configurations + 1 }

/-- `unconfigure_for_space` up to its first lock. -/
def unconfigureForSpace (s : IrohTransport SpaceId RelayUrl Url) (space : SpaceId) :
    IrohTransport SpaceId RelayUrl Url :=
  { s with
    notices := s.notices ++ [.unmarkPerSpaceManaged space]
    tasks := s.tasks ++ [.removing space]
    wanted := Function.update s.wanted space none }

/-- The insertion of this number failed: the space has no use of its relay. -/
def failed (s : IrohTransport SpaceId RelayUrl Url) (space : SpaceId) (number : Nat) :
    IrohTransport SpaceId RelayUrl Url :=
  match s.wanted space with
  | some (n, _) =>
      if n = number then { s with wanted := Function.update s.wanted space none } else s
  | none => s

/-- Some space has the relay recorded. -/
def stillUsed (s : IrohTransport SpaceId RelayUrl Url) (relay : RelayUrl) : Bool :=
  s.spaceRelays.entries.any fun e => e.2.1 = relay

/-- The next step of a task; `authorised` is whether the relay's server gives a token and takes the
first keepalive. -/
def advance (authorised : Bool) (s : IrohTransport SpaceId RelayUrl Url) :
    RelayTask SpaceId RelayUrl Url →
      RelayTask SpaceId RelayUrl Url × IrohTransport SpaceId RelayUrl Url
  | .preparing space number url auth =>
      match env.parse (withEndSlash url) with
      | none => (.done, s.failed space number)
      | some relay =>
          if auth.isSome && !authorised then (.done, s.failed space number)
          else (.ready space number relay auth, s)
  | .ready space number relay auth =>
      (.inserted space number relay auth, { s with relays := insert relay s.relays })
  | .inserted space number relay auth =>
      match env.localUrl relay with
      -- the error leaves the relay in the endpoint
      | none => (.done, s.failed space number)
      | some localUrl =>
          (.recorded space relay localUrl auth,
            { s with spaceRelays := s.spaceRelays.insert space (relay, some localUrl) })
  | .recorded space relay localUrl auth =>
      match auth, s.spaceRelayKeepalives.lookup relay with
      | some material, none =>
          (.announcing space localUrl,
            { s with spaceRelayKeepalives := s.spaceRelayKeepalives.insert relay material })
      | _, _ => (.announcing space localUrl, s)
  | .announcing space localUrl =>
      (.done, { s with notices := s.notices ++ [.newListeningAddress localUrl space] })
  | .removing space =>
      match s.spaceRelays.lookup space with
      | none => (.done, s)
      | some (relay, _) =>
          (.removed relay, { s with spaceRelays := s.spaceRelays.erase space })
  | .removed relay => if s.stillUsed relay then (.done, s) else (.unused relay, s)
  | .unused relay =>
      if isTransportOwnRelay (env.asStr relay) env.config.relayUrl then (.released relay, s)
      else (.released relay, { s with relays := s.relays.erase relay })
  | .released relay =>
      (.done, { s with spaceRelayKeepalives := s.spaceRelayKeepalives.erase relay })
  | .done => (.done, s)

end IrohTransport

/-- What can happen next. -/
inductive RelayEvent (SpaceId : Type) where
  | configure (space : SpaceId) (config : Option RelayConfig)
  | unconfigure (space : SpaceId)
  /-- The task at place `i` takes its next step. -/
  | advance (i : Nat) (authorised : Bool)

namespace IrohTransport

variable (env : RelayEnv RelayUrl Url)

def step (s : IrohTransport SpaceId RelayUrl Url) :
    RelayEvent SpaceId → IrohTransport SpaceId RelayUrl Url
  | .configure space config => s.configureForSpace env space config
  | .unconfigure space => s.unconfigureForSpace space
  | .advance i authorised =>
      match s.tasks[i]? with
      | none => s
      | some t =>
          { (s.advance env authorised t).2 with
            tasks := s.tasks.set i (s.advance env authorised t).1 }

end IrohTransport

/-! ## The condition -/

namespace RelayTask

/-- An insertion for the space that has not come past its keepalive. -/
def inserts (space : SpaceId) : RelayTask SpaceId RelayUrl Url → Bool
  | .preparing space' _ _ _ => space' = space
  | .ready space' _ _ _ => space' = space
  | .inserted space' _ _ _ => space' = space
  | .recorded space' _ _ _ => space' = space
  | _ => false

/-- The relay is in the endpoint for a space that has it not recorded yet. -/
def hasInserted (relay : RelayUrl) : RelayTask SpaceId RelayUrl Url → Bool
  | .inserted _ _ relay' _ => relay' = relay
  | _ => false

end RelayTask

namespace IrohTransport

variable (env : RelayEnv RelayUrl Url)

/-- A space is configured while it has no relay and no insertion or removal under way, and
unconfigured while no insertion for it is under way; a relay that was inserted has an address; and a
relay is taken out of the endpoint only when no space has come to use it since it was found unused,
its text being the transport's own just when the relay is. -/
def InTurn (s : IrohTransport SpaceId RelayUrl Url) : RelayEvent SpaceId → Prop
  | .configure space _ =>
      s.spaceRelays.lookup space = none ∧ .removing space ∉ s.tasks ∧
        ∀ t ∈ s.tasks, t.inserts space = false
  | .unconfigure space => ∀ t ∈ s.tasks, t.inserts space = false
  | .advance i _ =>
      match s.tasks[i]? with
      | some (.inserted _ _ relay _) => (env.localUrl relay).isSome = true
      | some (.unused relay) =>
          (isTransportOwnRelay (env.asStr relay) env.config.relayUrl = true ↔ relay ∈ env.own) ∧
            (relay ∉ env.own →
              s.stillUsed relay = false ∧ ∀ t ∈ s.tasks, t.hasInserted relay = false)
      | _ => True

instance InTurn.decidable (s : IrohTransport SpaceId RelayUrl Url) [DecidableEq Url] :
    ∀ e : RelayEvent SpaceId, Decidable (s.InTurn env e)
  | .configure space _ => inferInstanceAs (Decidable (_ ∧ _ ∧ _))
  | .unconfigure space => inferInstanceAs (Decidable (∀ t ∈ s.tasks, t.inserts space = false))
  | .advance i authorised =>
      match h : s.tasks[i]? with
      | some (.inserted _ _ relay _) =>
          decidable_of_iff ((env.localUrl relay).isSome = true) (by simp only [InTurn, h])
      | some (.unused relay) =>
          decidable_of_iff
            ((isTransportOwnRelay (env.asStr relay) env.config.relayUrl = true ↔
                relay ∈ env.own) ∧
              (relay ∉ env.own →
                s.stillUsed relay = false ∧ ∀ t ∈ s.tasks, t.hasInserted relay = false))
            (by simp only [InTurn, h])
      | none => .isTrue (by simp only [InTurn, h])
      | some (.preparing _ _ _ _) => .isTrue (by simp only [InTurn, h])
      | some (.ready _ _ _ _) => .isTrue (by simp only [InTurn, h])
      | some (.recorded _ _ _ _) => .isTrue (by simp only [InTurn, h])
      | some (.announcing _ _) => .isTrue (by simp only [InTurn, h])
      | some (.removing _) => .isTrue (by simp only [InTurn, h])
      | some (.removed _) => .isTrue (by simp only [InTurn, h])
      | some (.released _) => .isTrue (by simp only [InTurn, h])
      | some .done => .isTrue (by simp only [InTurn, h])

end IrohTransport

/-! ## The invariant -/

namespace RelayTask

/-- The task is why the relay is in the endpoint. -/
def holds (relay : RelayUrl) : RelayTask SpaceId RelayUrl Url → Bool
  | .inserted _ _ relay' _ => relay' = relay
  | .removed relay' => relay' = relay
  | .unused relay' => relay' = relay
  | _ => false

/-- The task will end the relay's keepalive, or find a space that uses the relay. -/
def ends (relay : RelayUrl) : RelayTask SpaceId RelayUrl Url → Bool
  | .removed relay' => relay' = relay
  | .unused relay' => relay' = relay
  | .released relay' => relay' = relay
  | _ => false

/-- An insertion for the space that has not recorded its relay. -/
def unrecorded (space : SpaceId) : RelayTask SpaceId RelayUrl Url → Bool
  | .preparing space' _ _ _ => space' = space
  | .ready space' _ _ _ => space' = space
  | .inserted space' _ _ _ => space' = space
  | _ => false

/-- The task is the insertion of this number, and it will record this relay unless it fails. -/
def brings (env : RelayEnv RelayUrl Url) (space : SpaceId) (number : Nat) (relay : RelayUrl) :
    RelayTask SpaceId RelayUrl Url → Prop
  | .preparing space' number' url _ =>
      space' = space ∧ number' = number ∧ env.parse (withEndSlash url) = some relay
  | .ready space' number' relay' _ => space' = space ∧ number' = number ∧ relay' = relay
  | .inserted space' number' relay' _ => space' = space ∧ number' = number ∧ relay' = relay
  | _ => False

omit [DecidableEq RelayUrl] in
theorem inserts_of_unrecorded {space : SpaceId} {t : RelayTask SpaceId RelayUrl Url}
    (h : t.unrecorded space = true) : t.inserts space = true := by
  cases t with
  | preparing space' number' url auth => exact h
  | ready space' number' relay' auth => exact h
  | inserted space' number' relay' auth => exact h
  | _ => cases h

omit [DecidableEq RelayUrl] in
theorem inserts_of_brings {env : RelayEnv RelayUrl Url} {space : SpaceId} {number : Nat}
    {relay : RelayUrl} {t : RelayTask SpaceId RelayUrl Url} (h : t.brings env space number relay) :
    t.inserts space = true := by
  cases t with
  | preparing space' number' url auth => exact decide_eq_true h.1
  | ready space' number' relay' auth => exact decide_eq_true h.1
  | inserted space' number' relay' auth => exact decide_eq_true h.1
  | _ => cases h

end RelayTask

namespace IrohTransport

variable {env : RelayEnv RelayUrl Url} {s s' : IrohTransport SpaceId RelayUrl Url}

/-- Some space has the relay recorded. -/
def Records (s : IrohTransport SpaceId RelayUrl Url) (relay : RelayUrl) : Prop :=
  ∃ space e, s.spaceRelays.lookup space = some e ∧ e.1 = relay

theorem stillUsed_iff {relay : RelayUrl} : s.stillUsed relay = true ↔ s.Records relay := by
  unfold stillUsed Records
  rw [List.any_eq_true]
  constructor
  · rintro ⟨⟨space, e⟩, hmem, hrelay⟩
    exact ⟨space, e, AList.mem_lookup_iff.mpr hmem, of_decide_eq_true hrelay⟩
  · rintro ⟨space, e, hlookup, hrelay⟩
    exact ⟨⟨space, e⟩, AList.mem_lookup_iff.mp hlookup, decide_eq_true hrelay⟩

/-- The relays in the endpoint and the keepalives have a reason, and every use has its relay. -/
structure Placed (env : RelayEnv RelayUrl Url) (s : IrohTransport SpaceId RelayUrl Url) : Prop where
  own : ∀ relay ∈ env.own, relay ∈ s.relays
  recorded : ∀ relay, s.Records relay → relay ∈ s.relays
  inserted : ∀ relay, (∃ t ∈ s.tasks, t.hasInserted relay = true) → relay ∈ s.relays
  held : ∀ relay ∈ s.relays,
    relay ∈ env.own ∨ s.Records relay ∨ ∃ t ∈ s.tasks, t.holds relay = true
  alive : ∀ relay ∈ s.spaceRelayKeepalives,
    s.Records relay ∨ ∃ t ∈ s.tasks, t.ends relay = true

/-- What is recorded or on its way is what the last calls asked for. -/
structure Tended (env : RelayEnv RelayUrl Url) (s : IrohTransport SpaceId RelayUrl Url) : Prop where
  brought : ∀ space number relay, s.wanted space = some (number, relay) →
    (∃ e, s.spaceRelays.lookup space = some e ∧ e.1 = relay) ∨
      ∃ t ∈ s.tasks, t.brings env space number relay
  brings : ∀ t ∈ s.tasks, ∀ space number relay, t.brings env space number relay →
    s.wanted space = some (number, relay)
  recorded : ∀ space e, s.spaceRelays.lookup space = some e →
    (∃ number, s.wanted space = some (number, e.1)) ∨ .removing space ∈ s.tasks
  removing : ∀ space, .removing space ∈ s.tasks →
    s.wanted space = none ∧ ∀ t ∈ s.tasks, t.inserts space = false
  fresh : ∀ t ∈ s.tasks, ∀ space, t.unrecorded space = true → s.spaceRelays.lookup space = none
  late : ∀ space relay localUrl auth, .recorded space relay localUrl auth ∈ s.tasks →
    ∃ e, s.spaceRelays.lookup space = some e ∧ e.1 = relay
  single : ∀ (i j : Nat) (t t' : RelayTask SpaceId RelayUrl Url) (space : SpaceId),
    s.tasks[i]? = some t → s.tasks[j]? = some t' → t.inserts space = true →
    t'.inserts space = true → i = j

/-! ## Steps of tasks: the endpoint -/

variable {i : Nat} {authorised : Bool} {t t' : RelayTask SpaceId RelayUrl Url}

theorem step_advance (hi : s.tasks[i]? = some t) :
    s.step env (.advance i authorised) =
      { (s.advance env authorised t).2 with
        tasks := s.tasks.set i (s.advance env authorised t).1 } := by
  simp only [step, hi]

omit [DecidableEq RelayUrl] in
theorem failed_eq (s : IrohTransport SpaceId RelayUrl Url) (space : SpaceId) (number : Nat) :
    ∃ wanted, s.failed space number = { s with wanted := wanted } := by
  unfold failed
  split
  · split
    · exact ⟨_, rfl⟩
    · exact ⟨_, rfl⟩
  · exact ⟨_, rfl⟩

/-- A step that leaves the endpoint, the records and the keepalives. -/
theorem Placed.of_tasks (hs : s.Placed env) (hi : s.tasks[i]? = some t)
    (htasks : s'.tasks = s.tasks.set i t') (hrelays : s'.relays = s.relays)
    (hmap : s'.spaceRelays = s.spaceRelays)
    (halive : s'.spaceRelayKeepalives = s.spaceRelayKeepalives)
    (hinserted : ∀ relay, t'.hasInserted relay = true → relay ∈ s.relays)
    (hholds : ∀ relay, t.holds relay = true →
      relay ∈ env.own ∨ s.Records relay ∨ t'.holds relay = true)
    (hends : ∀ relay, t.ends relay = true → s.Records relay ∨ t'.ends relay = true) :
    s'.Placed env := by
  have hrecords : ∀ relay, s'.Records relay ↔ s.Records relay := by
    intro relay
    unfold Records
    rw [hmap]
  -- only one task changes: what held by it has to hold by its next stage
  have hself : ∀ p : RelayTask SpaceId RelayUrl Url → Prop, p t' → ∃ u ∈ s'.tasks, p u := by
    intro p hp
    rw [htasks]
    exact ⟨t', mem_set_self hi, hp⟩
  refine ⟨?_, ?_, ?_, ?_, ?_⟩
  · rw [hrelays]
    exact hs.own
  · intro relay hrelay
    rw [hrelays]
    exact hs.recorded relay ((hrecords relay).mp hrelay)
  · intro relay hrelay
    rw [hrelays]
    rw [htasks] at hrelay
    rcases exists_of_mem_set hrelay with hold | hnew
    · exact hs.inserted relay hold
    · exact hinserted relay hnew
  · intro relay hrelay
    rw [hrelays] at hrelay
    rw [hrecords]
    rcases hs.held relay hrelay with hown | hrecord | hheld
    · exact Or.inl hown
    · exact Or.inr (Or.inl hrecord)
    · rcases exists_mem_set_or (b := t') hi hheld with hstays | hwas
      · rw [← htasks] at hstays
        exact Or.inr (Or.inr hstays)
      · rcases hholds relay hwas with hown | hrecord | hnew
        · exact Or.inl hown
        · exact Or.inr (Or.inl hrecord)
        · exact Or.inr (Or.inr (hself _ hnew))
  · intro relay hrelay
    rw [halive] at hrelay
    rw [hrecords]
    rcases hs.alive relay hrelay with hrecord | hended
    · exact Or.inl hrecord
    · rcases exists_mem_set_or (b := t') hi hended with hstays | hwas
      · rw [← htasks] at hstays
        exact Or.inr hstays
      · rcases hends relay hwas with hrecord | hnew
        · exact Or.inl hrecord
        · exact Or.inr (hself _ hnew)

theorem Placed.prepare {space : SpaceId} {number : Nat} {url : String} {auth : Option Bytes}
    (hs : s.Placed env) (hi : s.tasks[i]? = some (.preparing space number url auth)) :
    (s.step env (.advance i authorised)).Placed env := by
  rw [step_advance hi]
  rcases failed_eq s space number with ⟨wanted, hfailed⟩
  simp only [advance, hfailed]
  split
  · exact hs.of_tasks hi rfl rfl rfl rfl nofun nofun nofun
  · split
    · exact hs.of_tasks hi rfl rfl rfl rfl nofun nofun nofun
    · exact hs.of_tasks hi rfl rfl rfl rfl nofun nofun nofun

theorem Placed.insert {space : SpaceId} {number : Nat} {relay : RelayUrl} {auth : Option Bytes}
    (hs : s.Placed env) (hi : s.tasks[i]? = some (.ready space number relay auth)) :
    (s.step env (.advance i authorised)).Placed env := by
  rw [step_advance hi]
  refine ⟨?_, ?_, ?_, ?_, ?_⟩
  · exact fun r hr => Finset.mem_insert_of_mem (hs.own r hr)
  · exact fun r hr => Finset.mem_insert_of_mem (hs.recorded r hr)
  · intro r hr
    rcases exists_of_mem_set hr with hold | hnew
    · exact Finset.mem_insert_of_mem (hs.inserted r hold)
    · exact Finset.mem_insert.mpr (Or.inl (of_decide_eq_true hnew).symm)
  · intro r hr
    rcases Finset.mem_insert.mp hr with rfl | hold
    · exact Or.inr (Or.inr ⟨_, mem_set_self hi, decide_eq_true rfl⟩)
    · rcases hs.held r hold with hown | hrecord | hheld
      · exact Or.inl hown
      · exact Or.inr (Or.inl hrecord)
      · exact Or.inr (Or.inr ((exists_mem_set_or hi hheld).resolve_right nofun))
  · intro r hr
    rcases hs.alive r hr with hrecord | hended
    · exact Or.inl hrecord
    · exact Or.inr ((exists_mem_set_or hi hended).resolve_right nofun)

/-- The relay is recorded for a space that had none. -/
theorem Placed.record {space : SpaceId} {number : Nat} {relay : RelayUrl} {auth : Option Bytes}
    (hs : s.Placed env) (hi : s.tasks[i]? = some (.inserted space number relay auth))
    (hfresh : s.spaceRelays.lookup space = none) (hturn : s.InTurn env (.advance i authorised)) :
    (s.step env (.advance i authorised)).Placed env := by
  simp only [InTurn, hi] at hturn
  rcases Option.isSome_iff_exists.mp hturn with ⟨localUrl, hurl⟩
  rw [step_advance hi]
  simp only [advance, hurl]
  have hin : relay ∈ s.relays :=
    hs.inserted relay ⟨_, List.mem_of_getElem? hi, decide_eq_true rfl⟩
  -- from here on the record holds the relay, not the task
  have hnew : ∃ space' e,
      (s.spaceRelays.insert space (relay, some localUrl)).lookup space' = some e ∧ e.1 = relay :=
    ⟨space, _, AList.lookup_insert _, rfl⟩
  -- the space had no record, so none is overwritten
  have hold : ∀ r, s.Records r → ∃ space' e,
      (s.spaceRelays.insert space (relay, some localUrl)).lookup space' = some e ∧ e.1 = r := by
    rintro r ⟨space', e, hlookup, he⟩
    have hne : space' ≠ space := by
      rintro rfl
      rw [hfresh] at hlookup
      cases hlookup
    exact ⟨space', e, (AList.lookup_insert_ne hne).trans hlookup, he⟩
  refine ⟨hs.own, ?_, ?_, ?_, ?_⟩
  · rintro r ⟨space', e, hlookup, rfl⟩
    by_cases hspace : space' = space
    · rw [hspace, AList.lookup_insert] at hlookup
      cases hlookup
      exact hin
    · rw [AList.lookup_insert_ne hspace] at hlookup
      exact hs.recorded e.1 ⟨space', e, hlookup, rfl⟩
  · intro r hr
    exact hs.inserted r ((exists_of_mem_set hr).resolve_right nofun)
  · intro r hr
    rcases hs.held r hr with hown | hrecord | hheld
    · exact Or.inl hown
    · exact Or.inr (Or.inl (hold r hrecord))
    · rcases exists_mem_set_or hi hheld with hstays | hwas
      · exact Or.inr (Or.inr hstays)
      · cases of_decide_eq_true hwas
        exact Or.inr (Or.inl hnew)
  · intro r hr
    rcases hs.alive r hr with hrecord | hended
    · exact Or.inl (hold r hrecord)
    · exact Or.inr ((exists_mem_set_or hi hended).resolve_right nofun)

/-- A keepalive starts for a relay that is recorded. -/
theorem Placed.keepAlive {space : SpaceId} {relay : RelayUrl} {localUrl : Url}
    {auth : Option Bytes} (hs : s.Placed env)
    (hi : s.tasks[i]? = some (.recorded space relay localUrl auth)) (hrecords : s.Records relay) :
    (s.step env (.advance i authorised)).Placed env := by
  rw [step_advance hi]
  simp only [advance]
  split
  · rename_i material _
    refine ⟨hs.own, hs.recorded, ?_, ?_, ?_⟩
    · intro r hr
      exact hs.inserted r ((exists_of_mem_set hr).resolve_right nofun)
    · intro r hr
      rcases hs.held r hr with hown | hrecord | hheld
      · exact Or.inl hown
      · exact Or.inr (Or.inl hrecord)
      · exact Or.inr (Or.inr ((exists_mem_set_or hi hheld).resolve_right nofun))
    · intro r hr
      rcases (AList.mem_insert _).mp hr with rfl | hold
      · exact Or.inl hrecords
      · rcases hs.alive r hold with hrecord | hended
        · exact Or.inl hrecord
        · exact Or.inr ((exists_mem_set_or hi hended).resolve_right nofun)
  · exact hs.of_tasks hi rfl rfl rfl rfl nofun nofun nofun

theorem Placed.announce {space : SpaceId} {localUrl : Url} (hs : s.Placed env)
    (hi : s.tasks[i]? = some (.announcing space localUrl)) :
    (s.step env (.advance i authorised)).Placed env := by
  rw [step_advance hi]
  exact hs.of_tasks hi rfl rfl rfl rfl nofun nofun nofun

/-- The record is removed; the task stands for the relay until it has looked for other uses. -/
theorem Placed.remove {space : SpaceId} (hs : s.Placed env)
    (hi : s.tasks[i]? = some (.removing space)) :
    (s.step env (.advance i authorised)).Placed env := by
  rw [step_advance hi]
  simp only [advance]
  cases hlookup : s.spaceRelays.lookup space with
  | none => exact hs.of_tasks hi rfl rfl rfl rfl nofun nofun nofun
  | some e =>
      -- the relay of the removed record is now the task's to release
      have hrecords : ∀ r, s.Records r → (∃ space' e',
          (s.spaceRelays.erase space).lookup space' = some e' ∧ e'.1 = r) ∨ r = e.1 := by
        rintro r ⟨space', e', hlookup', rfl⟩
        by_cases hspace : space' = space
        · rw [hspace, hlookup] at hlookup'
          cases hlookup'
          exact Or.inr rfl
        · exact Or.inl ⟨space', e', (AList.lookup_erase_ne hspace).trans hlookup', rfl⟩
      have hself : ∀ p : RelayTask SpaceId RelayUrl Url → Prop, p (.removed e.1) →
          ∃ u ∈ s.tasks.set i (.removed e.1), p u :=
        fun p hp => ⟨_, mem_set_self hi, hp⟩
      refine ⟨hs.own, ?_, ?_, ?_, ?_⟩
      · rintro r ⟨space', e', hlookup', rfl⟩
        have hspace : space' ≠ space := by
          rintro rfl
          rw [AList.lookup_erase] at hlookup'
          cases hlookup'
        rw [AList.lookup_erase_ne hspace] at hlookup'
        exact hs.recorded e'.1 ⟨space', e', hlookup', rfl⟩
      · intro r hr
        exact hs.inserted r ((exists_of_mem_set hr).resolve_right nofun)
      · intro r hr
        rcases hs.held r hr with hown | hrecord | hheld
        · exact Or.inl hown
        · rcases hrecords r hrecord with hstays | rfl
          · exact Or.inr (Or.inl hstays)
          · exact Or.inr (Or.inr (hself _ (decide_eq_true rfl)))
        · exact Or.inr (Or.inr ((exists_mem_set_or hi hheld).resolve_right nofun))
      · intro r hr
        rcases hs.alive r hr with hrecord | hended
        · rcases hrecords r hrecord with hstays | rfl
          · exact Or.inl hstays
          · exact Or.inr (hself _ (decide_eq_true rfl))
        · exact Or.inr ((exists_mem_set_or hi hended).resolve_right nofun)

theorem Placed.look {relay : RelayUrl} (hs : s.Placed env)
    (hi : s.tasks[i]? = some (.removed relay)) :
    (s.step env (.advance i authorised)).Placed env := by
  rw [step_advance hi]
  simp only [advance]
  split
  · rename_i hused
    have hrecords := stillUsed_iff.mp hused
    refine hs.of_tasks hi rfl rfl rfl rfl nofun ?_ ?_
    · intro r hr
      cases of_decide_eq_true hr
      exact Or.inr (Or.inl hrecords)
    · intro r hr
      cases of_decide_eq_true hr
      exact Or.inl hrecords
  · refine hs.of_tasks hi rfl rfl rfl rfl nofun ?_ ?_
    · exact fun r hr => Or.inr (Or.inr hr)
    · exact fun r hr => Or.inr hr

/-- The relay goes only when it is not the transport's own and no space has come to use it. -/
theorem Placed.release {relay : RelayUrl} (hs : s.Placed env)
    (hi : s.tasks[i]? = some (.unused relay)) (hturn : s.InTurn env (.advance i authorised)) :
    (s.step env (.advance i authorised)).Placed env := by
  simp only [InTurn, hi] at hturn
  rw [step_advance hi]
  simp only [advance]
  split
  · rename_i hownText
    refine hs.of_tasks hi rfl rfl rfl rfl nofun ?_ fun r hr => Or.inr hr
    intro r hr
    cases of_decide_eq_true hr
    exact Or.inl (hturn.1.mp hownText)
  · rename_i hownText
    have hown : relay ∉ env.own := fun hmem => hownText (hturn.1.mpr hmem)
    -- in its turn the task finds the relay neither recorded nor about to be
    rcases hturn.2 hown with ⟨hunused, hnone⟩
    refine ⟨?_, ?_, ?_, ?_, ?_⟩
    · intro r hr
      refine Finset.mem_erase.mpr ⟨?_, hs.own r hr⟩
      rintro rfl
      exact hown hr
    · intro r hr
      have hrecords : s.Records r := hr
      refine Finset.mem_erase.mpr ⟨?_, hs.recorded r hrecords⟩
      rintro rfl
      rw [stillUsed_iff.mpr hrecords] at hunused
      cases hunused
    · intro r hr
      have hold := (exists_of_mem_set hr).resolve_right nofun
      refine Finset.mem_erase.mpr ⟨?_, hs.inserted r hold⟩
      rintro rfl
      rcases hold with ⟨u, hu, hinserted⟩
      rw [hnone u hu] at hinserted
      cases hinserted
    · intro r hr
      rcases Finset.mem_erase.mp hr with ⟨hne, hold⟩
      rcases hs.held r hold with hmem | hrecord | hheld
      · exact Or.inl hmem
      · exact Or.inr (Or.inl hrecord)
      · rcases exists_mem_set_or hi hheld with hstays | hwas
        · exact Or.inr (Or.inr hstays)
        · exact absurd (of_decide_eq_true hwas).symm hne
    · intro r hr
      rcases hs.alive r hr with hrecord | hended
      · exact Or.inl hrecord
      · rcases exists_mem_set_or hi hended with hstays | hwas
        · exact Or.inr hstays
        · exact Or.inr ⟨_, mem_set_self hi, hwas⟩

theorem Placed.endKeepAlive {relay : RelayUrl} (hs : s.Placed env)
    (hi : s.tasks[i]? = some (.released relay)) :
    (s.step env (.advance i authorised)).Placed env := by
  rw [step_advance hi]
  refine ⟨hs.own, hs.recorded, ?_, ?_, ?_⟩
  · intro r hr
    exact hs.inserted r ((exists_of_mem_set hr).resolve_right nofun)
  · intro r hr
    rcases hs.held r hr with hown | hrecord | hheld
    · exact Or.inl hown
    · exact Or.inr (Or.inl hrecord)
    · exact Or.inr (Or.inr ((exists_mem_set_or hi hheld).resolve_right nofun))
  · intro r hr
    rcases AList.mem_erase.mp hr with ⟨hne, hold⟩
    rcases hs.alive r hold with hrecord | hended
    · exact Or.inl hrecord
    · rcases exists_mem_set_or hi hended with hstays | hwas
      · exact Or.inr hstays
      · exact absurd (of_decide_eq_true hwas).symm hne

/-! ## Steps of tasks: the spaces -/

omit [DecidableEq RelayUrl] in
/-- The new task of a step stands where the old one stood. -/
theorem Tended.single_of_tasks (hs : s.Tended env) (hi : s.tasks[i]? = some t)
    (htasks : s'.tasks = s.tasks.set i t')
    (hinserts : ∀ space, t'.inserts space = true → t.inserts space = true) :
    ∀ (j k : Nat) (u u' : RelayTask SpaceId RelayUrl Url) (space : SpaceId),
      s'.tasks[j]? = some u → s'.tasks[k]? = some u' → u.inserts space = true →
      u'.inserts space = true → j = k := by
  intro j k u u' space hj hk hu hu'
  have hback : ∀ (l : Nat) v, s'.tasks[l]? = some v → v.inserts space = true →
      ∃ v', s.tasks[l]? = some v' ∧ v'.inserts space = true := by
    intro l v hl hv
    rw [htasks] at hl
    rcases getElem?_set_cases hl with ⟨rfl, rfl⟩ | ⟨_, hsame⟩
    · exact ⟨t, hi, hinserts space hv⟩
    · exact ⟨v, hsame, hv⟩
  rcases hback j u hj hu with ⟨v, hv, hvspace⟩
  rcases hback k u' hk hu' with ⟨v', hv', hvspace'⟩
  exact hs.single j k v v' space hv hv' hvspace hvspace'

omit [DecidableEq RelayUrl] in
/-- Beside an insertion for a space there is no other one for it. -/
theorem Tended.not_inserts_of_set (hs : s.Tended env) (hi : s.tasks[i]? = some t) {space : SpaceId}
    (ht : t.inserts space = true) {u : RelayTask SpaceId RelayUrl Url}
    (hu : u ∈ s.tasks.set i t') (hne : u ≠ t') : u.inserts space = false := by
  rcases List.mem_iff_getElem?.mp hu with ⟨j, hj⟩
  rcases getElem?_set_cases hj with ⟨_, heq⟩ | ⟨hij, hold⟩
  · exact absurd heq hne
  · cases hinserts : u.inserts space with
    | false => rfl
    | true => exact absurd (hs.single i j t u space hi hold ht hinserts) hij

omit [DecidableEq RelayUrl] in
/-- A step that neither records nor removes and leaves what is on its way. -/
theorem Tended.of_tasks (hs : s.Tended env) (hi : s.tasks[i]? = some t)
    (htasks : s'.tasks = s.tasks.set i t') (hwanted : s'.wanted = s.wanted)
    (hmap : s'.spaceRelays = s.spaceRelays)
    (hbrings : ∀ space number relay,
      t'.brings env space number relay ↔ t.brings env space number relay)
    (hinserts : ∀ space, t'.inserts space = true → t.inserts space = true)
    (hunrecorded : ∀ space, t'.unrecorded space = true → t.unrecorded space = true)
    (hremoving : ∀ space, t ≠ .removing space ∧ t' ≠ .removing space)
    (hlate : ∀ space relay localUrl auth, t' ≠ .recorded space relay localUrl auth) :
    s'.Tended env := by
  have ht : t ∈ s.tasks := List.mem_of_getElem? hi
  -- every other task is as before
  have hold : ∀ u ∈ s'.tasks, u = t' ∨ u ∈ s.tasks := by
    intro u hu
    rw [htasks] at hu
    exact (List.mem_or_eq_of_mem_set hu).symm
  refine ⟨?_, ?_, ?_, ?_, ?_, ?_, ?_⟩
  · rw [hwanted, hmap]
    intro space number relay hspace
    rcases hs.brought space number relay hspace with hrecorded | hbrought
    · exact Or.inl hrecorded
    · rcases exists_mem_set_or (b := t') hi hbrought with hstays | hwas
      · rw [← htasks] at hstays
        exact Or.inr hstays
      · refine Or.inr ⟨t', ?_, (hbrings space number relay).mpr hwas⟩
        rw [htasks]
        exact mem_set_self hi
  · rw [hwanted]
    intro u hu space number relay hbrought
    rcases hold u hu with rfl | hmem
    · exact hs.brings t ht space number relay ((hbrings space number relay).mp hbrought)
    · exact hs.brings u hmem space number relay hbrought
  · rw [hwanted, hmap]
    intro space e hlookup
    rcases hs.recorded space e hlookup with hnow | hremove
    · exact Or.inl hnow
    · rw [htasks]
      exact Or.inr (mem_set_of_ne hi hremove (hremoving space).1.symm)
  · rw [hwanted]
    intro space hspace
    have hmem := (hold _ hspace).resolve_left (hremoving space).2.symm
    rcases hs.removing space hmem with ⟨hnone, hfree⟩
    refine ⟨hnone, fun u hu => ?_⟩
    rcases hold u hu with rfl | humem
    · cases hu' : u.inserts space with
      | false => rfl
      | true =>
          have hwas := hinserts space hu'
          rw [hfree t ht] at hwas
          cases hwas
    · exact hfree u humem
  · rw [hmap]
    intro u hu space hfresh
    rcases hold u hu with rfl | hmem
    · exact hs.fresh t ht space (hunrecorded space hfresh)
    · exact hs.fresh u hmem space hfresh
  · rw [hmap]
    intro space relay localUrl auth hu
    exact hs.late space relay localUrl auth
      ((hold _ hu).resolve_left (hlate space relay localUrl auth).symm)
  · exact hs.single_of_tasks hi htasks hinserts

/-- The insertion ends with an error. -/
theorem Tended.fail {space : SpaceId} {number : Nat} {url : String} {auth : Option Bytes}
    (hs : s.Tended env) (hi : s.tasks[i]? = some (.preparing space number url auth)) :
    Tended env { s.failed space number with tasks := s.tasks.set i .done } := by
  have hmem : RelayTask.preparing space number url auth ∈ s.tasks := List.mem_of_getElem? hi
  have hold : ∀ u ∈ s.tasks.set i .done, u = .done ∨ u ∈ s.tasks :=
    fun u hu => (List.mem_or_eq_of_mem_set hu).symm
  -- the space had no other insertion, so nothing is on its way to it now
  have hother : ∀ u ∈ s.tasks.set i .done, u.inserts space = false := by
    intro u hu
    by_cases hdone : u = .done
    · subst hdone
      rfl
    · exact hs.not_inserts_of_set hi (decide_eq_true rfl) hu hdone
  have hwanted : ∀ space', (s.failed space number).wanted space' = s.wanted space' ∨
      (space' = space ∧ (s.failed space number).wanted space' = none) := by
    intro space'
    unfold failed
    split
    · split
      · by_cases hspace : space' = space
        · subst hspace
          exact Or.inr ⟨rfl, Function.update_self _ _ _⟩
        · exact Or.inl (Function.update_of_ne hspace _ _)
      · exact Or.inl rfl
    · exact Or.inl rfl
  have hcleared : ∀ relay, s.wanted space = some (number, relay) →
      (s.failed space number).wanted space = none := by
    intro relay hspace
    simp only [failed, hspace, if_true, Function.update_self]
  have hmap : (s.failed space number).spaceRelays = s.spaceRelays := by
    rcases failed_eq s space number with ⟨wanted, hfailed⟩
    rw [hfailed]
  refine ⟨?_, ?_, ?_, ?_, ?_, ?_, ?_⟩
  · intro space' number' relay hspace
    have hwas : s.wanted space' = some (number', relay) := by
      rcases hwanted space' with heq | ⟨_, hnone⟩
      · exact heq ▸ hspace
      · exact absurd (hnone.symm.trans hspace) nofun
    rcases hs.brought space' number' relay hwas with hrecorded | hbrought
    · exact Or.inl (hmap ▸ hrecorded)
    · rcases exists_mem_set_or (b := .done) hi hbrought with hstays | hfailed
      · exact Or.inr hstays
      · rcases hfailed with ⟨rfl, rfl, _⟩
        exact absurd ((hcleared relay hwas).symm.trans hspace) nofun
  · intro u hu space' number' relay hbrought
    rcases hold u hu with rfl | humem
    · cases hbrought
    · have hwas := hs.brings u humem space' number' relay hbrought
      rcases hwanted space' with heq | ⟨rfl, _⟩
      · exact heq.trans hwas
      · have hinserts := RelayTask.inserts_of_brings hbrought
        rw [hother u hu] at hinserts
        cases hinserts
  · intro space' e hlookup
    have hrecord : s.spaceRelays.lookup space' = some e := hmap ▸ hlookup
    rcases hs.recorded space' e hrecord with ⟨n, hnow⟩ | hremove
    · rcases hwanted space' with heq | ⟨rfl, _⟩
      · exact Or.inl ⟨n, heq.trans hnow⟩
      · exact absurd ((hs.fresh _ hmem _ (decide_eq_true rfl)).symm.trans hrecord) nofun
    · exact Or.inr (mem_set_of_ne hi hremove nofun)
  · intro space' hspace
    have hspace := (hold _ hspace).resolve_left nofun
    rcases hs.removing space' hspace with ⟨hnone, hfree⟩
    refine ⟨?_, fun u hu => ?_⟩
    · rcases hwanted space' with heq | ⟨_, hcleared⟩
      · exact heq.trans hnone
      · exact hcleared
    · rcases hold u hu with rfl | humem
      · rfl
      · exact hfree u humem
  · intro u hu space' hfresh
    show (s.failed space number).spaceRelays.lookup space' = none
    rw [hmap]
    rcases hold u hu with rfl | humem
    · cases hfresh
    · exact hs.fresh u humem space' hfresh
  · intro space' relay localUrl auth' hlate
    show ∃ e, (s.failed space number).spaceRelays.lookup space' = some e ∧ e.1 = relay
    rw [hmap]
    exact hs.late space' relay localUrl auth' ((hold _ hlate).resolve_left nofun)
  · exact hs.single_of_tasks hi rfl nofun

theorem Tended.prepare {space : SpaceId} {number : Nat} {url : String} {auth : Option Bytes}
    (hs : s.Tended env) (hi : s.tasks[i]? = some (.preparing space number url auth)) :
    (s.step env (.advance i authorised)).Tended env := by
  rw [step_advance hi]
  simp only [advance]
  cases hparse : env.parse (withEndSlash url) with
  | none => exact hs.fail hi
  | some relay =>
      simp only
      split
      · exact hs.fail hi
      · refine hs.of_tasks hi rfl rfl rfl ?_ (fun _ => id) (fun _ => id)
          (fun _ => ⟨nofun, nofun⟩) nofun
        intro space' number' relay'
        simp only [RelayTask.brings, hparse, Option.some.injEq]

/-- The relay is recorded, as the last call for the space asked. -/
theorem Tended.record {space : SpaceId} {number : Nat} {relay : RelayUrl} {auth : Option Bytes}
    (hs : s.Tended env) (hi : s.tasks[i]? = some (.inserted space number relay auth))
    (hturn : s.InTurn env (.advance i authorised)) :
    (s.step env (.advance i authorised)).Tended env := by
  simp only [InTurn, hi] at hturn
  rcases Option.isSome_iff_exists.mp hturn with ⟨localUrl, hurl⟩
  rw [step_advance hi]
  simp only [advance, hurl]
  have hmem : RelayTask.inserted space number relay auth ∈ s.tasks := List.mem_of_getElem? hi
  have hnow : s.wanted space = some (number, relay) :=
    hs.brings _ hmem space number relay ⟨rfl, rfl, rfl⟩
  have hold : ∀ u ∈ s.tasks.set i (.recorded space relay localUrl auth),
      u = .recorded space relay localUrl auth ∨ u ∈ s.tasks :=
    fun u hu => (List.mem_or_eq_of_mem_set hu).symm
  have hother : ∀ u ∈ s.tasks.set i (.recorded space relay localUrl auth),
      u ≠ .recorded space relay localUrl auth → u.inserts space = false :=
    fun u hu hne => hs.not_inserts_of_set hi (decide_eq_true rfl) hu hne
  refine ⟨?_, ?_, ?_, ?_, ?_, ?_, ?_⟩
  · intro space' number' relay' hspace
    by_cases heq : space' = space
    · subst heq
      rw [hnow] at hspace
      cases hspace
      exact Or.inl ⟨_, AList.lookup_insert _, rfl⟩
    · rcases hs.brought space' number' relay' hspace with ⟨e, hlookup, he⟩ | hbrought
      · exact Or.inl ⟨e, (AList.lookup_insert_ne heq).trans hlookup, he⟩
      · refine Or.inr ((exists_mem_set_or hi hbrought).resolve_right fun hwas => ?_)
        exact heq hwas.1.symm
  · intro u hu space' number' relay' hbrought
    rcases hold u hu with rfl | humem
    · cases hbrought
    · exact hs.brings u humem space' number' relay' hbrought
  · intro space' e hlookup
    by_cases heq : space' = space
    · subst heq
      rw [AList.lookup_insert] at hlookup
      cases hlookup
      exact Or.inl ⟨number, hnow⟩
    · rw [AList.lookup_insert_ne heq] at hlookup
      rcases hs.recorded space' e hlookup with hwanted | hremove
      · exact Or.inl hwanted
      · exact Or.inr (mem_set_of_ne hi hremove nofun)
  · intro space' hspace
    rcases hs.removing space' ((hold _ hspace).resolve_left nofun) with ⟨hnone, hfree⟩
    refine ⟨hnone, fun u hu => ?_⟩
    rcases hold u hu with rfl | humem
    · exact hfree (.inserted space number relay auth) hmem
    · exact hfree u humem
  · intro u hu space' hfresh
    rcases hold u hu with rfl | humem
    · cases hfresh
    · have hne : space' ≠ space := by
        rintro rfl
        have hinserts := RelayTask.inserts_of_unrecorded hfresh
        rw [hother u hu (by rintro rfl; cases hfresh)] at hinserts
        cases hinserts
      exact (AList.lookup_insert_ne hne).trans (hs.fresh u humem space' hfresh)
  · intro space' relay' localUrl' auth' hlate
    rcases hold _ hlate with heq | humem
    · cases heq
      exact ⟨_, AList.lookup_insert _, rfl⟩
    · rcases hs.late space' relay' localUrl' auth' humem with ⟨e, hlookup, he⟩
      by_cases hspace : space' = space
      · -- the space had no relay recorded before
        subst hspace
        rw [hs.fresh _ hmem _ (decide_eq_true rfl)] at hlookup
        cases hlookup
      · exact ⟨e, (AList.lookup_insert_ne hspace).trans hlookup, he⟩
  · exact hs.single_of_tasks hi rfl fun space' h => h

omit [DecidableEq RelayUrl] in
/-- Nothing of a space that is no longer configured stays recorded. -/
theorem Tended.of_erased {space : SpaceId} (hs : s.Tended env)
    (hi : s.tasks[i]? = some (.removing space)) (htasks : s'.tasks = s.tasks.set i t')
    (hwanted : s'.wanted = s.wanted) (hinserts : ∀ space', t'.inserts space' = false)
    (hremoving : ∀ space', t' ≠ .removing space') (hnone : s'.spaceRelays.lookup space = none)
    (hother : ∀ space', space' ≠ space →
      s'.spaceRelays.lookup space' = s.spaceRelays.lookup space') : s'.Tended env := by
  have hmem : RelayTask.removing space ∈ s.tasks := List.mem_of_getElem? hi
  rcases hs.removing space hmem with ⟨hunwanted, hfree⟩
  have hold : ∀ u ∈ s'.tasks, u = t' ∨ u ∈ s.tasks := by
    intro u hu
    rw [htasks] at hu
    exact (List.mem_or_eq_of_mem_set hu).symm
  -- a removal brings nothing
  have hnew : ∀ space', t'.inserts space' = true → False := by
    intro space' h
    rw [hinserts space'] at h
    cases h
  have hfree' : ∀ u ∈ s.tasks, u.inserts space = true → False := by
    intro u hu h
    rw [hfree u hu] at h
    cases h
  refine ⟨?_, ?_, ?_, ?_, ?_, ?_, ?_⟩
  · rw [hwanted]
    intro space' number relay hspace
    have hne : space' ≠ space := by
      rintro rfl
      rw [hunwanted] at hspace
      cases hspace
    rw [hother space' hne]
    rcases hs.brought space' number relay hspace with hrecorded | hbrought
    · exact Or.inl hrecorded
    · rw [htasks]
      exact Or.inr ((exists_mem_set_or hi hbrought).resolve_right id)
  · rw [hwanted]
    intro u hu space' number relay hbrought
    rcases hold u hu with rfl | humem
    · exact (hnew space' (RelayTask.inserts_of_brings hbrought)).elim
    · exact hs.brings u humem space' number relay hbrought
  · rw [hwanted]
    intro space' e hlookup
    have hne : space' ≠ space := by
      rintro rfl
      rw [hnone] at hlookup
      cases hlookup
    rw [hother space' hne] at hlookup
    rcases hs.recorded space' e hlookup with hnow | hremove
    · exact Or.inl hnow
    · rw [htasks]
      refine Or.inr (mem_set_of_ne hi hremove ?_)
      rintro ⟨⟩
      exact hne rfl
  · rw [hwanted]
    intro space' hspace
    rcases hs.removing space' ((hold _ hspace).resolve_left (hremoving space').symm) with
      ⟨hunwanted', hfree''⟩
    refine ⟨hunwanted', fun u hu => ?_⟩
    rcases hold u hu with rfl | humem
    · exact hinserts space'
    · exact hfree'' u humem
  · intro u hu space' hfresh
    have hins := RelayTask.inserts_of_unrecorded hfresh
    rcases hold u hu with rfl | humem
    · exact (hnew space' hins).elim
    · have hne : space' ≠ space := by
        rintro rfl
        exact hfree' u humem hins
      rw [hother space' hne]
      exact hs.fresh u humem space' hfresh
  · intro space' relay localUrl auth hlate
    rcases hold _ hlate with rfl | humem
    · exact (hnew space' (decide_eq_true rfl)).elim
    · have hne : space' ≠ space := by
        rintro rfl
        exact hfree' _ humem (decide_eq_true rfl)
      rw [hother space' hne]
      exact hs.late space' relay localUrl auth humem
  · exact hs.single_of_tasks hi htasks fun space' h => (hnew space' h).elim

theorem Tended.remove {space : SpaceId} (hs : s.Tended env)
    (hi : s.tasks[i]? = some (.removing space)) :
    (s.step env (.advance i authorised)).Tended env := by
  rw [step_advance hi]
  simp only [advance]
  cases hlookup : s.spaceRelays.lookup space with
  | none =>
      exact hs.of_erased hi rfl rfl (fun _ => rfl) nofun hlookup fun _ _ => rfl
  | some e =>
      exact hs.of_erased hi rfl rfl (fun _ => rfl) nofun (AList.lookup_erase _ _)
        fun _ hne => AList.lookup_erase_ne hne

omit [DecidableEq RelayUrl] in
/-- A step of a task that has nothing to do with an insertion, or is past it. -/
theorem Tended.pass (hs : s.Tended env) (hi : s.tasks[i]? = some t)
    (htasks : s'.tasks = s.tasks.set i t') (hwanted : s'.wanted = s.wanted)
    (hmap : s'.spaceRelays = s.spaceRelays) (ht : ∀ space, t.unrecorded space = false)
    (ht' : ∀ space, t'.inserts space = false)
    (hremoving : ∀ space, t ≠ .removing space ∧ t' ≠ .removing space) : s'.Tended env := by
  have hnot : ∀ space, t'.inserts space = true → False := by
    intro space h
    rw [ht' space] at h
    cases h
  refine hs.of_tasks hi htasks hwanted hmap ?_ (fun space h => (hnot space h).elim)
    (fun space h => (hnot space (RelayTask.inserts_of_unrecorded h)).elim) hremoving ?_
  · intro space number relay
    constructor
    · exact fun h => (hnot space (RelayTask.inserts_of_brings h)).elim
    · intro h
      have hunrecorded := ht space
      cases t with
      | preparing space' number' url auth => exact absurd h.1 (of_decide_eq_false hunrecorded)
      | ready space' number' relay' auth => exact absurd h.1 (of_decide_eq_false hunrecorded)
      | inserted space' number' relay' auth => exact absurd h.1 (of_decide_eq_false hunrecorded)
      | _ => cases h
  · rintro space relay localUrl auth rfl
    exact hnot space (decide_eq_true rfl)

/-! ## Calls -/

theorem Placed.of_append (hs : s.Placed env) (htasks : s'.tasks = s.tasks ++ [t])
    (hrelays : s'.relays = s.relays) (hmap : s'.spaceRelays = s.spaceRelays)
    (halive : s'.spaceRelayKeepalives = s.spaceRelayKeepalives)
    (hinserted : ∀ relay, t.hasInserted relay = false) : s'.Placed env := by
  have hrecords : ∀ relay, s'.Records relay ↔ s.Records relay := by
    intro relay
    unfold Records
    rw [hmap]
  -- a new task has inserted nothing yet
  have hstays : ∀ p : RelayTask SpaceId RelayUrl Url → Prop, (∃ u ∈ s.tasks, p u) →
      ∃ u ∈ s'.tasks, p u := by
    rintro p ⟨u, hu, hp⟩
    rw [htasks]
    exact ⟨u, List.mem_append_left _ hu, hp⟩
  refine ⟨?_, ?_, ?_, ?_, ?_⟩
  · rw [hrelays]
    exact hs.own
  · intro relay hrelay
    rw [hrelays]
    exact hs.recorded relay ((hrecords relay).mp hrelay)
  · rintro relay ⟨u, hu, hrelay⟩
    rw [hrelays]
    rw [htasks] at hu
    rcases List.mem_append.mp hu with hold | hnew
    · exact hs.inserted relay ⟨u, hold, hrelay⟩
    · rw [List.mem_singleton.mp hnew, hinserted relay] at hrelay
      cases hrelay
  · intro relay hrelay
    rw [hrelays] at hrelay
    rw [hrecords]
    rcases hs.held relay hrelay with hown | hrecord | hheld
    · exact Or.inl hown
    · exact Or.inr (Or.inl hrecord)
    · exact Or.inr (Or.inr (hstays _ hheld))
  · intro relay hrelay
    rw [halive] at hrelay
    rw [hrecords]
    rcases hs.alive relay hrelay with hrecord | hended
    · exact Or.inl hrecord
    · exact Or.inr (hstays _ hended)

theorem Placed.configure {space : SpaceId} {config : Option RelayConfig} (hs : s.Placed env) :
    (s.step env (.configure space config)).Placed env := by
  simp only [step, configureForSpace]
  split
  · exact ⟨hs.own, hs.recorded, hs.inserted, hs.held, hs.alive⟩
  · exact hs.of_append rfl rfl rfl rfl fun _ => rfl

/-- A space that nothing is under way for gets a new wish, and perhaps a task that brings it. -/
theorem Tended.configure {space : SpaceId} {config : Option RelayConfig} (hs : s.Tended env)
    (hturn : s.InTurn env (.configure space config)) :
    (s.step env (.configure space config)).Tended env := by
  rcases hturn with ⟨hvacant, hremoving, hfree⟩
  -- no task brings a relay for a space that is configured only now
  have hbrings : ∀ u ∈ s.tasks, ∀ space' number relay, u.brings env space' number relay →
      space' ≠ space := by
    rintro u hu space' number relay hbrought rfl
    have hinserts := RelayTask.inserts_of_brings hbrought
    rw [hfree u hu] at hinserts
    cases hinserts
  simp only [step, configureForSpace]
  cases hrelay : spaceRelay env config with
  | none =>
      refine ⟨?_, ?_, ?_, ?_, hs.fresh, hs.late, hs.single⟩
      · intro space' number relay hspace
        have hne : space' ≠ space := by
          rintro rfl
          simp only [Function.update_self] at hspace
          cases hspace
        simp only [Function.update_of_ne hne] at hspace
        exact hs.brought space' number relay hspace
      · intro u hu space' number relay hbrought
        simp only [Function.update_of_ne (hbrings u hu space' number relay hbrought)]
        exact hs.brings u hu space' number relay hbrought
      · intro space' e hlookup
        have hne : space' ≠ space := by
          rintro rfl
          exact absurd (hvacant.symm.trans hlookup) nofun
        simp only [Function.update_of_ne hne]
        exact hs.recorded space' e hlookup
      · intro space' hspace
        have hne : space' ≠ space := by
          rintro rfl
          exact hremoving hspace
        simp only [Function.update_of_ne hne]
        exact hs.removing space' hspace
  | some r =>
      have hold : ∀ u ∈ s.tasks ++
          [.preparing space s.configurations r.url (r.authMaterialBase64.bind env.decode)],
          u ∈ s.tasks ∨
            u = .preparing space s.configurations r.url (r.authMaterialBase64.bind env.decode) := by
        intro u hu
        rcases List.mem_append.mp hu with hmem | hnew
        · exact Or.inl hmem
        · exact Or.inr (List.mem_singleton.mp hnew)
      refine ⟨?_, ?_, ?_, ?_, ?_, ?_, ?_⟩
      · intro space' number relay hspace
        by_cases heq : space' = space
        · subst heq
          simp only [Function.update_self, Option.map_eq_some_iff] at hspace
          rcases hspace with ⟨relay', hparse, heq⟩
          cases heq
          exact Or.inr ⟨_, List.mem_append_right _ (List.mem_singleton.mpr rfl), rfl, rfl, hparse⟩
        · simp only [Function.update_of_ne heq] at hspace
          rcases hs.brought space' number relay hspace with hrecorded | ⟨u, hu, hbrought⟩
          · exact Or.inl hrecorded
          · exact Or.inr ⟨u, List.mem_append_left _ hu, hbrought⟩
      · intro u hu space' number relay hbrought
        rcases hold u hu with hmem | rfl
        · simp only [Function.update_of_ne (hbrings u hmem space' number relay hbrought)]
          exact hs.brings u hmem space' number relay hbrought
        · rcases hbrought with ⟨rfl, rfl, hparse⟩
          simp only [Function.update_self, hparse, Option.map_some]
      · intro space' e hlookup
        have hne : space' ≠ space := by
          rintro rfl
          exact absurd (hvacant.symm.trans hlookup) nofun
        simp only [Function.update_of_ne hne]
        rcases hs.recorded space' e hlookup with hnow | hremove
        · exact Or.inl hnow
        · exact Or.inr (List.mem_append_left _ hremove)
      · intro space' hspace
        have hmem := (hold _ hspace).resolve_right nofun
        have hne : space' ≠ space := by
          rintro rfl
          exact hremoving hmem
        simp only [Function.update_of_ne hne]
        rcases hs.removing space' hmem with ⟨hnone, hfree'⟩
        refine ⟨hnone, fun u hu => ?_⟩
        rcases hold u hu with hu | rfl
        · exact hfree' u hu
        · exact decide_eq_false hne.symm
      · intro u hu space' hfresh
        rcases hold u hu with hmem | rfl
        · exact hs.fresh u hmem space' hfresh
        · cases of_decide_eq_true hfresh
          exact hvacant
      · intro space' relay localUrl auth hlate
        exact hs.late space' relay localUrl auth ((hold _ hlate).resolve_right nofun)
      · intro j k u u' space' hj hk hu hu'
        -- the new task is the only one for its space
        have hlast : ∀ v ∈ s.tasks, v.inserts space' = true → space ≠ space' := by
          rintro v hv hinserts rfl
          rw [hfree v hv] at hinserts
          cases hinserts
        rcases getElem?_concat_cases hj with hj | ⟨rfl, rfl⟩
        · rcases getElem?_concat_cases hk with hk | ⟨rfl, rfl⟩
          · exact hs.single j k u u' space' hj hk hu hu'
          · exact absurd (of_decide_eq_true hu') (hlast u (List.mem_of_getElem? hj) hu)
        · rcases getElem?_concat_cases hk with hk | ⟨rfl, rfl⟩
          · exact absurd (of_decide_eq_true hu) (hlast u' (List.mem_of_getElem? hk) hu')
          · rfl

/-- A space that nothing is on its way to is no longer configured. -/
theorem Tended.unconfigure {space : SpaceId} (hs : s.Tended env)
    (hturn : s.InTurn env (.unconfigure space)) :
    (s.step env (.unconfigure space)).Tended env := by
  have hfree : ∀ t ∈ s.tasks, t.inserts space = false := hturn
  simp only [step, unconfigureForSpace]
  have hold : ∀ u ∈ s.tasks ++ [RelayTask.removing space], u ∈ s.tasks ∨ u = .removing space := by
    intro u hu
    rcases List.mem_append.mp hu with hmem | hnew
    · exact Or.inl hmem
    · exact Or.inr (List.mem_singleton.mp hnew)
  refine ⟨?_, ?_, ?_, ?_, ?_, ?_, ?_⟩
  · intro space' number relay hspace
    have hne : space' ≠ space := by
      rintro rfl
      simp only [Function.update_self] at hspace
      cases hspace
    simp only [Function.update_of_ne hne] at hspace
    rcases hs.brought space' number relay hspace with hrecorded | ⟨u, hu, hbrought⟩
    · exact Or.inl hrecorded
    · exact Or.inr ⟨u, List.mem_append_left _ hu, hbrought⟩
  · intro u hu space' number relay hbrought
    rcases hold u hu with hmem | rfl
    · have hne : space' ≠ space := by
        rintro rfl
        have hinserts := RelayTask.inserts_of_brings hbrought
        rw [hfree u hmem] at hinserts
        cases hinserts
      simp only [Function.update_of_ne hne]
      exact hs.brings u hmem space' number relay hbrought
    · cases hbrought
  · intro space' e hlookup
    by_cases heq : space' = space
    · subst heq
      exact Or.inr (List.mem_append_right _ (List.mem_singleton.mpr rfl))
    · simp only [Function.update_of_ne heq]
      rcases hs.recorded space' e hlookup with hnow | hremove
      · exact Or.inl hnow
      · exact Or.inr (List.mem_append_left _ hremove)
  · intro space' hspace
    -- the space is wanted no more and no task is bringing it a relay
    have hfree' : s.wanted space' = none ∧ (∀ u ∈ s.tasks, u.inserts space' = false) ∨
        space' = space := by
      rcases hold _ hspace with hmem | heq
      · exact Or.inl (hs.removing space' hmem)
      · cases heq
        exact Or.inr rfl
    refine ⟨?_, fun u hu => ?_⟩
    · by_cases heq : space' = space
      · subst heq
        simp only [Function.update_self]
      · simp only [Function.update_of_ne heq]
        exact (hfree'.resolve_right heq).1
    · rcases hold u hu with hmem | rfl
      · rcases hfree' with hboth | rfl
        · exact hboth.2 u hmem
        · exact hfree u hmem
      · rfl
  · intro u hu space' hfresh
    rcases hold u hu with hmem | rfl
    · exact hs.fresh u hmem space' hfresh
    · cases hfresh
  · intro space' relay localUrl auth hlate
    exact hs.late space' relay localUrl auth ((hold _ hlate).resolve_right nofun)
  · intro j k u u' space' hj hk hu hu'
    rcases getElem?_concat_cases hj with hj | ⟨rfl, rfl⟩
    · rcases getElem?_concat_cases hk with hk | ⟨rfl, rfl⟩
      · exact hs.single j k u u' space' hj hk hu hu'
      · cases hu'
    · cases hu

/-! ## Runs -/

theorem advance_kept (hs : s.Placed env ∧ s.Tended env)
    (hturn : s.InTurn env (.advance i authorised)) :
    (s.step env (.advance i authorised)).Placed env ∧
      (s.step env (.advance i authorised)).Tended env := by
  rcases hs with ⟨hplaced, htended⟩
  cases hi : s.tasks[i]? with
  | none =>
      simp only [step, hi]
      exact ⟨hplaced, htended⟩
  | some t =>
      have hmem : t ∈ s.tasks := List.mem_of_getElem? hi
      cases t with
      | preparing space number url auth => exact ⟨hplaced.prepare hi, htended.prepare hi⟩
      | ready space number relay auth =>
          refine ⟨hplaced.insert hi, ?_⟩
          rw [step_advance hi]
          exact htended.of_tasks hi rfl rfl rfl (fun _ _ _ => Iff.rfl) (fun _ => id) (fun _ => id)
            (fun _ => ⟨nofun, nofun⟩) nofun
      -- the record is written in a critical section of its own, hence the condition
      | inserted space number relay auth =>
          have hfresh := htended.fresh _ hmem space (decide_eq_true rfl)
          exact ⟨hplaced.record hi hfresh hturn, htended.record hi hturn⟩
      | recorded space relay localUrl auth =>
          rcases htended.late space relay localUrl auth hmem with ⟨e, hlookup, he⟩
          refine ⟨hplaced.keepAlive hi ⟨space, e, hlookup, he⟩, ?_⟩
          rw [step_advance hi]
          simp only [advance]
          split
          · exact htended.pass hi rfl rfl rfl (fun _ => rfl) (fun _ => rfl)
              fun _ => ⟨nofun, nofun⟩
          · exact htended.pass hi rfl rfl rfl (fun _ => rfl) (fun _ => rfl)
              fun _ => ⟨nofun, nofun⟩
      | announcing space localUrl =>
          refine ⟨hplaced.announce hi, ?_⟩
          rw [step_advance hi]
          exact htended.pass hi rfl rfl rfl (fun _ => rfl) (fun _ => rfl) fun _ => ⟨nofun, nofun⟩
      | removing space => exact ⟨hplaced.remove hi, htended.remove hi⟩
      | removed relay =>
          refine ⟨hplaced.look hi, ?_⟩
          rw [step_advance hi]
          simp only [advance]
          split
          · exact htended.pass hi rfl rfl rfl (fun _ => rfl) (fun _ => rfl)
              fun _ => ⟨nofun, nofun⟩
          · exact htended.pass hi rfl rfl rfl (fun _ => rfl) (fun _ => rfl)
              fun _ => ⟨nofun, nofun⟩
      | unused relay =>
          refine ⟨hplaced.release hi hturn, ?_⟩
          rw [step_advance hi]
          simp only [advance]
          split
          · exact htended.pass hi rfl rfl rfl (fun _ => rfl) (fun _ => rfl)
              fun _ => ⟨nofun, nofun⟩
          · exact htended.pass hi rfl rfl rfl (fun _ => rfl) (fun _ => rfl)
              fun _ => ⟨nofun, nofun⟩
      | released relay =>
          refine ⟨hplaced.endKeepAlive hi, ?_⟩
          rw [step_advance hi]
          exact htended.pass hi rfl rfl rfl (fun _ => rfl) (fun _ => rfl) fun _ => ⟨nofun, nofun⟩
      | done =>
          rw [step_advance hi]
          refine ⟨hplaced.of_tasks hi rfl rfl rfl rfl nofun nofun nofun, ?_⟩
          exact htended.pass hi rfl rfl rfl (fun _ => rfl) (fun _ => rfl) fun _ => ⟨nofun, nofun⟩

theorem step_kept (hs : s.Placed env ∧ s.Tended env) (e : RelayEvent SpaceId)
    (hturn : s.InTurn env e) : (s.step env e).Placed env ∧ (s.step env e).Tended env := by
  cases e with
  | configure space config => exact ⟨hs.1.configure, hs.2.configure hturn⟩
  | unconfigure space =>
      exact ⟨hs.1.of_append rfl rfl rfl rfl fun _ => rfl, hs.2.unconfigure hturn⟩
  | advance i authorised => exact advance_kept hs hturn

theorem create_kept (hcreate : create env = some s) : s.Placed env ∧ s.Tended env := by
  unfold create at hcreate
  rcases Option.map_eq_some_iff.mp hcreate with ⟨own, hown, rfl⟩
  have hmem : ∀ relay, relay ∈ env.own ↔ relay ∈ own := by
    intro relay
    rw [RelayEnv.own, hown, Option.getD_some]
  refine ⟨⟨?_, nofun, nofun, ?_, nofun⟩, ⟨nofun, nofun, nofun, nofun, nofun, nofun, nofun⟩⟩
  · exact fun relay hrelay => List.mem_toFinset.mpr ((hmem relay).mp hrelay)
  · exact fun relay hrelay => Or.inl ((hmem relay).mpr (List.mem_toFinset.mp hrelay))

/-- No insertion and no removal is under way. -/
def Quiet (s : IrohTransport SpaceId RelayUrl Url) : Prop :=
  ∀ t ∈ s.tasks, t = .done

instance Quiet.decidable [DecidableEq Url] (s : IrohTransport SpaceId RelayUrl Url) :
    Decidable s.Quiet :=
  inferInstanceAs (Decidable (∀ t ∈ s.tasks, t = .done))

/-- The space is configured with this relay, and its insertion did not fail. -/
def Uses (s : IrohTransport SpaceId RelayUrl Url) (space : SpaceId) (relay : RelayUrl) : Prop :=
  (s.wanted space).map Prod.snd = some relay

instance Uses.decidable (s : IrohTransport SpaceId RelayUrl Url) (space : SpaceId)
    (relay : RelayUrl) : Decidable (s.Uses space relay) :=
  inferInstanceAs (Decidable (_ = _))

omit [DecidableEq RelayUrl] in
theorem Tended.uses_iff (hs : s.Tended env) (hquiet : s.Quiet) (relay : RelayUrl) :
    s.Records relay ↔ ∃ space, s.Uses space relay := by
  constructor
  · rintro ⟨space, e, hlookup, rfl⟩
    rcases hs.recorded space e hlookup with ⟨number, hwanted⟩ | hremove
    · refine ⟨space, ?_⟩
      unfold Uses
      rw [hwanted]
      rfl
    · cases hquiet _ hremove
  · rintro ⟨space, huses⟩
    rcases Option.map_eq_some_iff.mp huses with ⟨⟨number, relay'⟩, hwanted, rfl⟩
    rcases hs.brought space number relay' hwanted with ⟨e, hlookup, he⟩ | ⟨t, ht, hbrings⟩
    · exact ⟨space, e, hlookup, he⟩
    · cases hquiet t ht
      cases hbrings

/-- In a run whose steps are in turn the transport's own relays stay in the endpoint, and once nothing
is under way the endpoint has another relay exactly when a space uses it, and keepalives run only for
relays that a space uses. -/
theorem relays_exactly_used (env : RelayEnv RelayUrl Url)
    {start : IrohTransport SpaceId RelayUrl Url} (hcreate : create env = some start)
    (events : List (RelayEvent SpaceId)) (hturn : Along (step env) (InTurn env) start events) :
    (∀ relay ∈ env.own, relay ∈ (events.foldl (step env) start).relays) ∧
      ((events.foldl (step env) start).Quiet →
        (∀ relay ∉ env.own, relay ∈ (events.foldl (step env) start).relays ↔
          ∃ space, (events.foldl (step env) start).Uses space relay) ∧
        ∀ relay ∈ (events.foldl (step env) start).spaceRelayKeepalives,
          ∃ space, (events.foldl (step env) start).Uses space relay) := by
  have hkept : (events.foldl (step env) start).Placed env ∧
      (events.foldl (step env) start).Tended env :=
    hturn.invariant (I := fun s => s.Placed env ∧ s.Tended env) (create_kept hcreate)
      fun _ e hs hcond => step_kept hs e hcond
  rcases hkept with ⟨hplaced, htended⟩
  -- at rest no task holds a relay, so what is left is what is recorded
  refine ⟨hplaced.own, fun hquiet => ⟨?_, ?_⟩⟩
  · intro relay hown
    rw [← htended.uses_iff hquiet]
    constructor
    · intro hrelay
      rcases hplaced.held relay hrelay with hmem | hrecords | ⟨t, ht, hholds⟩
      · exact absurd hmem hown
      · exact hrecords
      · cases hquiet t ht
        cases hholds
    · exact hplaced.recorded relay
  · intro relay hrelay
    rw [← htended.uses_iff hquiet]
    rcases hplaced.alive relay hrelay with hrecords | ⟨t, ht, hends⟩
    · exact hrecords
    · cases hquiet t ht
      cases hends

/-- Reads an `https` URL; the default port is dropped. -/
def readHttps (text : String) : Option String :=
  if "https://".toList.isPrefixOf text.toList then
    let rest := text.toList.drop 8
    let host := rest.takeWhile (· ≠ '/')
    let port := if ":443".toList.isSuffixOf host then host.take (host.length - 4) else host
    some (String.ofList ("https://".toList ++ port ++ rest.dropWhile (· ≠ '/')))
  else none

/-- A transport whose relay is configured with this text. -/
def relayEnv (relayUrl : String) : RelayEnv String String where
  config := ⟨some relayUrl, none⟩
  parse := readHttps
  asStr := id
  localUrl := fun relay => some (relay ++ "id")
  decode := fun _ => none
  defaultRelays := []

/-- The state of a transport that has only its own relay. -/
def ownRelayOnly (relay : String) : IrohTransport Bool String String where
  relays := {relay}
  spaceRelays := ∅
  spaceRelayKeepalives := ∅
  notices := []
  tasks := []
  wanted := fun _ => none
  configurations := 0

/-- Two spaces share a relay, and one of them leaves. -/
def sharedRelay : List (RelayEvent Bool) :=
  [.configure true (some ⟨some "https://b", none⟩), .configure false (some ⟨some "https://b/", none⟩),
    .advance 0 true, .advance 0 true, .advance 0 true, .advance 0 true, .advance 0 true,
    .advance 1 true, .advance 1 true, .advance 1 true, .advance 1 true, .advance 1 true,
    .unconfigure true, .advance 2 true, .advance 2 true]

theorem sharedRelay_used :
    Along (step (relayEnv "https://a/")) (InTurn (relayEnv "https://a/")) (ownRelayOnly "https://a/")
        sharedRelay ∧
      "https://b/" ∈ (sharedRelay.foldl (step (relayEnv "https://a/"))
        (ownRelayOnly "https://a/")).relays := by
  have hturn : Along (step (relayEnv "https://a/")) (InTurn (relayEnv "https://a/"))
      (ownRelayOnly "https://a/") sharedRelay := by decide +kernel
  refine ⟨hturn, ?_⟩
  have hcreate : create (relayEnv "https://a/") = some (ownRelayOnly "https://a/") := by rfl
  refine (((relays_exactly_used (relayEnv "https://a/") hcreate sharedRelay hturn).2
    (by decide +kernel)).1 "https://b/" (by decide +kernel)).mpr ⟨false, ?_⟩
  decide +kernel

/-- A space that is unconfigured before its insertion ends leaves its relay behind, and a space that
names the transport's own relay by another text takes it along when it is unconfigured. -/
theorem relay_left_or_taken :
    (∃ (env : RelayEnv String String) (events : List (RelayEvent Bool)) (relay : String)
        (start : IrohTransport Bool String String),
      create env = some start ∧ (events.foldl (step env) start).Quiet ∧ relay ∉ env.own ∧
        relay ∈ (events.foldl (step env) start).relays ∧
        ∀ space, ¬ (events.foldl (step env) start).Uses space relay) ∧
    ∃ (env : RelayEnv String String) (events : List (RelayEvent Bool)) (relay : String)
        (start : IrohTransport Bool String String),
      create env = some start ∧ relay ∈ env.own ∧
        relay ∉ (events.foldl (step env) start).relays := by
  constructor
  · refine ⟨relayEnv "https://a/", [.configure true (some ⟨some "https://b", none⟩),
      .unconfigure true, .advance 1 true, .advance 0 true, .advance 0 true, .advance 0 true,
      .advance 0 true, .advance 0 true], "https://b/", ownRelayOnly "https://a/", rfl, ?_⟩
    decide +kernel
  · refine ⟨relayEnv "https://a:443/", [.configure true (some ⟨some "https://a", none⟩),
      .advance 0 true, .advance 0 true, .advance 0 true, .advance 0 true, .advance 0 true,
      .unconfigure true, .advance 1 true, .advance 1 true, .advance 1 true, .advance 1 true],
      "https://a/", ownRelayOnly "https://a/", ?_, ?_⟩
    · rfl
    · decide +kernel

end IrohTransport

end Transport
end Kitsune2
