import Mathlib.Data.List.Perm.Basic
import Kitsune2.Core.PeerStore
import Kitsune2.Lib.Runs

/-!
# PeerListeners — who is told of a stored agent info

An insert call stores info by info and tells the listeners only when the whole batch went through,
so an error of the block list leaves what was stored before it untold.  A retry does not make up for
it: the stored info is as new as itself and is not taken again.  `owed` records what listeners have
to be told, `calls` what the calls in progress are still going to tell them, `heard` what they were
told; the last two fall behind the first exactly by what interrupted batches stored.
-/

namespace Kitsune2
namespace Core

open Api Lib
open scoped List

variable {Listener Agent SpaceId Url Sig : Type}

/-! ## One batch -/

/-- An info of a batch with the answer of the block list to its check. -/
abbrev Checked (Agent SpaceId Url Sig : Type) :=
  AgentInfoSigned Agent SpaceId Url Sig × Except Fault Bool

namespace PeerStore

variable [DecidableEq Agent]

/-- Is the info taken, given the answer of the block list? -/
def takes (env : Surroundings Agent)
    (store : AList fun _ : Agent => AgentInfoSigned Agent SpaceId Url Sig)
    (checked : Checked Agent SpaceId Url Sig) : Except Fault Bool :=
  accepts { env with isBlocked := fun _ => checked.2 } store checked.1

/-- The loop of `Inner::insert`, with an answer of the block list for each info: the store
afterwards, what was stored, and the fault that ended the loop early. -/
def insertEach (env : Surroundings Agent) :
    (AList fun _ : Agent => AgentInfoSigned Agent SpaceId Url Sig) →
      List (Checked Agent SpaceId Url Sig) →
      (AList fun _ : Agent => AgentInfoSigned Agent SpaceId Url Sig) ×
        List (AgentInfoSigned Agent SpaceId Url Sig) × Option Fault
  | store, [] => (store, [], none)
  | store, checked :: rest =>
      match takes env store checked with
      | .error fault => (store, [], some fault)
      | .ok false => insertEach env store rest
      | .ok true =>
          let after := insertEach env (store.insert checked.1.agent checked.1) rest
          (after.1, checked.1 :: after.2.1, after.2.2)

/-- A block list that answers by agent gives the loop of the store. -/
theorem insertAll_eq (env : Surroundings Agent)
    (infos : List (AgentInfoSigned Agent SpaceId Url Sig)) :
    ∀ store : AList fun _ : Agent => AgentInfoSigned Agent SpaceId Url Sig,
      let after := insertEach env store (infos.map fun info => (info, env.isBlocked info.agent))
      insertAll env store infos =
        (after.1, match after.2.2 with
          | some fault => .error fault
          | none => .ok after.2.1) := by
  induction infos with
  | nil =>
      intro store
      rfl
  | cons info rest ih =>
      intro store
      have htakes : takes env store (info, env.isBlocked info.agent) = accepts env store info := rfl
      simp only [List.map_cons, insertEach, insertAll, htakes]
      cases accepts env store info with
      | error fault =>
          rfl
      | ok accepted =>
          cases accepted with
          | false =>
              exact ih store
          | true =>
              have hrest := ih (store.insert info.agent info)
              simp only [hrest]
              split <;> rfl

end PeerStore

/-! ## The store with its listeners -/

/-- The peer store, its listeners, and the calls to listeners: those that each insert call in
progress is still going to make, those made, and those that stored infos ask for. -/
structure ListenedStore (Listener Agent SpaceId Url Sig : Type) where
  peers : PeerStore Agent SpaceId Url Sig
  listeners : List Listener
  calls : List (List (Listener × AgentInfoSigned Agent SpaceId Url Sig))
  heard : List (Listener × AgentInfoSigned Agent SpaceId Url Sig)
  owed : List (Listener × AgentInfoSigned Agent SpaceId Url Sig)

inductive ListenedOp (Listener Agent SpaceId Url Sig : Type) where
  | register (listener : Listener)
  /-- An insert call, up to the point where it lets go of the lock. -/
  | insert (env : Surroundings Agent) (batch : List (Checked Agent SpaceId Url Sig))
  /-- The next listener call of an insert call in progress. -/
  | tell (call : Nat)

namespace ListenedStore

variable [DecidableEq Agent]

/-- A store at which no insert call was made so far. -/
def new (peers : PeerStore Agent SpaceId Url Sig) (listeners : List Listener) :
    ListenedStore Listener Agent SpaceId Url Sig :=
  { peers, listeners, calls := [], heard := [], owed := [] }

/-- Each info, in order, for each listener. -/
def notices (listeners : List Listener) (infos : List (AgentInfoSigned Agent SpaceId Url Sig)) :
    List (Listener × AgentInfoSigned Agent SpaceId Url Sig) :=
  infos.flatMap fun info => listeners.map fun listener => (listener, info)

/-- `MemPeerStore::insert`. -/
def insert (s : ListenedStore Listener Agent SpaceId Url Sig) (env : Surroundings Agent)
    (batch : List (Checked Agent SpaceId Url Sig)) : ListenedStore Listener Agent SpaceId Url Sig :=
  let pruned := s.peers.checkPrune env
  match env.recordFault with
  | some _ => { s with peers := pruned }
  | none =>
      let after := PeerStore.insertEach env pruned.store batch
      let stored :=
        { s with
          peers :=
            { pruned with
              store := after.1
              known := pruned.known.record (batch.map Prod.fst) }
          owed := s.owed ++ notices s.listeners after.2.1 }
      match after.2.2 with
      -- the fault is returned before the listeners are looked at
      | some _ => stored
      | none =>
          if after.2.1.isEmpty || s.listeners.isEmpty then stored
          else { stored with calls := s.calls ++ [notices s.listeners after.2.1] }

def apply (s : ListenedStore Listener Agent SpaceId Url Sig) :
    ListenedOp Listener Agent SpaceId Url Sig → ListenedStore Listener Agent SpaceId Url Sig
  | .register listener => { s with listeners := s.listeners ++ [listener] }
  | .insert env batch => s.insert env batch
  | .tell call =>
      match s.calls[call]? with
      | some (notice :: rest) =>
          { s with calls := s.calls.set call rest, heard := s.heard ++ [notice] }
      | _ => s

/-- Every info that entered the store was told, or is going to be told by the call that stored it,
once to each listener that was registered then. -/
def Announced (s : ListenedStore Listener Agent SpaceId Url Sig) : Prop :=
  (s.heard ++ s.calls.flatten).Perm s.owed

/-- The block list fails on the batch after an info was found that the store takes. -/
def Interrupted (env : Surroundings Agent) (peers : PeerStore Agent SpaceId Url Sig)
    (batch : List (Checked Agent SpaceId Url Sig)) : Prop :=
  env.recordFault = none ∧ (∃ checked ∈ batch, checked.2.isOk = false) ∧
    ∃ checked ∈ batch.takeWhile fun checked => checked.2.isOk,
      PeerStore.takes env (peers.checkPrune env).store checked = .ok true

/-- No interrupted batch while somebody listens. -/
def Undisturbed (s : ListenedStore Listener Agent SpaceId Url Sig) :
    ListenedOp Listener Agent SpaceId Url Sig → Prop
  | .insert env batch => s.listeners = [] ∨ ¬ Interrupted env s.peers batch
  | _ => True

end ListenedStore

/-! ## What an interrupted batch stores -/

namespace PeerStore

variable {env : Surroundings Agent}

variable [DecidableEq Agent]

theorem takes_error {store : AList fun _ : Agent => AgentInfoSigned Agent SpaceId Url Sig}
    {info : AgentInfoSigned Agent SpaceId Url Sig} {fault : Fault} :
    takes env store (info, .error fault) = .error fault := rfl

theorem takes_ok (env : Surroundings Agent)
    (store : AList fun _ : Agent => AgentInfoSigned Agent SpaceId Url Sig)
    (info : AgentInfoSigned Agent SpaceId Url Sig) (blocked : Bool) :
    ∃ taken, takes env store (info, .ok blocked) = .ok taken :=
  exists_accepts_eq_ok store rfl

/-- The loop ends early exactly when the block list fails on some info. -/
theorem insertEach_fault_iff {batch : List (Checked Agent SpaceId Url Sig)} :
    ∀ {store : AList fun _ : Agent => AgentInfoSigned Agent SpaceId Url Sig},
      (insertEach env store batch).2.2 ≠ none ↔ ∃ checked ∈ batch, checked.2.isOk = false := by
  induction batch with
  | nil =>
      intro store
      simp [insertEach]
  | cons checked rest ih =>
      intro store
      rcases checked with ⟨info, answer⟩
      cases answer with
      | error fault =>
          simp [insertEach, takes_error, Except.isOk, Except.toBool]
      | ok blocked =>
          have hskip : (∃ checked ∈ (info, Except.ok blocked) :: rest, checked.2.isOk = false) ↔
              ∃ checked ∈ rest, checked.2.isOk = false := by
            simp [Except.isOk, Except.toBool]
          rcases takes_ok env store info blocked with ⟨taken, htaken⟩
          rw [hskip]
          cases taken with
          | false => simpa only [insertEach, htaken] using ih
          | true => simpa only [insertEach, htaken] using ih

/-- The loop ends early with something stored exactly when an info that the store takes comes before
the first one on which the block list fails. -/
theorem insertEach_interrupted_iff {batch : List (Checked Agent SpaceId Url Sig)} :
    ∀ {store : AList fun _ : Agent => AgentInfoSigned Agent SpaceId Url Sig},
      ((insertEach env store batch).2.2 ≠ none ∧ (insertEach env store batch).2.1 ≠ []) ↔
        (∃ checked ∈ batch, checked.2.isOk = false) ∧
          ∃ checked ∈ batch.takeWhile fun checked => checked.2.isOk,
            takes env store checked = .ok true := by
  induction batch with
  | nil =>
      intro store
      simp [insertEach]
  | cons checked rest ih =>
      intro store
      rcases checked with ⟨info, answer⟩
      cases answer with
      | error fault =>
          simp [insertEach, takes_error, Except.isOk, Except.toBool]
      | ok blocked =>
          have hskip : (∃ checked ∈ (info, Except.ok blocked) :: rest, checked.2.isOk = false) ↔
              ∃ checked ∈ rest, checked.2.isOk = false := by
            simp [Except.isOk, Except.toBool]
          have hbefore : ((info, Except.ok blocked) :: rest).takeWhile (fun c => c.2.isOk) =
              (info, .ok blocked) :: rest.takeWhile fun c => c.2.isOk := by
            simp [Except.isOk, Except.toBool]
          rcases takes_ok env store info blocked with ⟨taken, htaken⟩
          rw [hskip, hbefore]
          cases taken with
          | false =>
              -- Nothing changes, so the first info that is taken comes later.
              have hlater : (∃ c ∈ (info, Except.ok blocked) :: rest.takeWhile fun c => c.2.isOk,
                  takes env store c = .ok true) ↔
                  ∃ c ∈ rest.takeWhile fun c => c.2.isOk, takes env store c = .ok true := by
                simp [htaken]
              rw [hlater]
              simpa only [insertEach, htaken] using ih
          | true =>
              have hfirst : ∃ c ∈ (info, Except.ok blocked) :: rest.takeWhile fun c => c.2.isOk,
                  takes env store c = .ok true := ⟨_, List.mem_cons_self, htaken⟩
              have hfault : (insertEach env (store.insert info.agent info) rest).2.2 ≠ none ↔ _ :=
                insertEach_fault_iff
              simp only [insertEach, htaken, hfault, hfirst, and_true, ne_eq, reduceCtorEq,
                not_false_eq_true]

end PeerStore

namespace ListenedStore

/-! ## Calls that fall behind -/

/-- The listener calls made and still to be made are `missed` short of what is owed. -/
def Behind (s : ListenedStore Listener Agent SpaceId Url Sig) (missed : Nat) : Prop :=
  ∃ untold, untold.length = missed ∧ (s.heard ++ s.calls.flatten ++ untold).Perm s.owed

theorem announced_iff_behind {s : ListenedStore Listener Agent SpaceId Url Sig} :
    s.Announced ↔ s.Behind 0 := by
  constructor
  · intro h
    exact ⟨[], rfl, by simpa [Announced] using h⟩
  · rintro ⟨untold, hlen, h⟩
    rw [List.length_eq_zero_iff.mp hlen, List.append_nil] at h
    exact h

theorem Behind.unique {s : ListenedStore Listener Agent SpaceId Url Sig} {m n : Nat}
    (hm : s.Behind m) (hn : s.Behind n) : m = n := by
  rcases hm with ⟨untold, rfl, hm⟩
  rcases hn with ⟨untold', rfl, hn⟩
  have hlen := hm.length_eq.trans hn.length_eq.symm
  simp only [List.length_append] at hlen
  omega

theorem flatten_set_perm {α : Type} {l : List (List α)} {i : Nat} {a : α} {rest : List α}
    (h : l[i]? = some (a :: rest)) : (a :: (l.set i rest).flatten).Perm l.flatten := by
  induction l generalizing i with
  | nil =>
      cases h
  | cons b l ih =>
      cases i with
      | zero =>
          rw [List.getElem?_cons_zero, Option.some_inj] at h
          rw [h]
          exact List.Perm.refl _
      | succ i =>
          have hrest := ih (by simpa using h : l[i]? = some (a :: rest))
          rw [List.set_cons_succ, List.flatten_cons, List.flatten_cons]
          exact (List.perm_middle.symm).trans (hrest.append_left b)

theorem length_notices (listeners : List Listener)
    (infos : List (AgentInfoSigned Agent SpaceId Url Sig)) :
    (notices listeners infos).length = infos.length * listeners.length := by
  induction infos with
  | nil =>
      simp [notices]
  | cons info infos ih =>
      have hcons : notices listeners (info :: infos) =
          (listeners.map fun listener => (listener, info)) ++ notices listeners infos := rfl
      rw [hcons, List.length_append, ih, List.length_map, List.length_cons, Nat.succ_mul,
        Nat.add_comm]

variable [DecidableEq Agent]

/-- An interrupted batch is one whose loop ends early with something stored. -/
theorem interrupted_iff {env : Surroundings Agent} {peers : PeerStore Agent SpaceId Url Sig}
    {batch : List (Checked Agent SpaceId Url Sig)} :
    Interrupted env peers batch ↔ env.recordFault = none ∧
      (PeerStore.insertEach env (peers.checkPrune env).store batch).2.2 ≠ none ∧
      (PeerStore.insertEach env (peers.checkPrune env).store batch).2.1 ≠ [] := by
  rw [Interrupted, PeerStore.insertEach_interrupted_iff]

section Insert

variable {s : ListenedStore Listener Agent SpaceId Url Sig} {env : Surroundings Agent}
  {batch : List (Checked Agent SpaceId Url Sig)}

/-- What an insert call stores it is going to tell, or it is interrupted and never does. -/
theorem insert_cases (s : ListenedStore Listener Agent SpaceId Url Sig) (env : Surroundings Agent)
    (batch : List (Checked Agent SpaceId Url Sig)) :
    ∃ stored, (s.insert env batch).heard = s.heard ∧
      (s.insert env batch).owed = s.owed ++ notices s.listeners stored ∧
      (((s.insert env batch).calls.flatten = s.calls.flatten ++ notices s.listeners stored ∧
          ¬ Interrupted env s.peers batch) ∨
        (s.insert env batch).calls = s.calls ∧
          (Interrupted env s.peers batch ↔ stored ≠ [])) := by
  rw [interrupted_iff]
  unfold insert
  cases hrecord : env.recordFault with
  | some fault =>
      exact ⟨[], rfl, by simp [notices], Or.inl ⟨by simp [notices], by simp⟩⟩
  | none =>
      rcases hafter : PeerStore.insertEach env (s.peers.checkPrune env).store batch with
        ⟨store, stored, fault⟩
      refine ⟨stored, ?_⟩
      simp only [hafter]
      -- at a fault the listeners are not called, whatever was stored before it
      cases fault with
      | some fault =>
          exact ⟨rfl, rfl, Or.inr ⟨rfl, by simp⟩⟩
      | none =>
          by_cases hempty : (stored.isEmpty || s.listeners.isEmpty) = true
          · have hnone : notices s.listeners stored = [] := by
              rcases Bool.or_eq_true_iff.mp hempty with hnil | hnil
              · simp [notices, List.isEmpty_iff.mp hnil]
              · simp [notices, List.isEmpty_iff.mp hnil]
            simp only [if_pos hempty]
            exact ⟨trivial, trivial, Or.inl ⟨by rw [hnone, List.append_nil], by simp⟩⟩
          · simp only [if_neg hempty]
            exact ⟨trivial, trivial, Or.inl ⟨by simp, by simp⟩⟩

end Insert

/-- A step leaves the listener calls as far behind as they were, or further: exactly if it disturbs
the announcing. -/
theorem Behind.apply {s : ListenedStore Listener Agent SpaceId Url Sig} {missed : Nat}
    (h : s.Behind missed) (op : ListenedOp Listener Agent SpaceId Url Sig) :
    ∃ missed', missed ≤ missed' ∧ (s.apply op).Behind missed' ∧
      (missed' = missed ↔ s.Undisturbed op) := by
  rcases h with ⟨untold, rfl, hperm⟩
  cases op with
  | register listener =>
      exact ⟨untold.length, le_refl _, ⟨untold, rfl, hperm⟩, by simp [Undisturbed]⟩
  | tell call =>
      refine ⟨untold.length, le_refl _, ⟨untold, rfl, ?_⟩, by simp [Undisturbed]⟩
      unfold ListenedStore.apply
      simp only
      split
      · -- The call that is made moves from one list to the other.
        rename_i notice rest hcall
        have hmove := flatten_set_perm hcall
        calc s.heard ++ [notice] ++ (s.calls.set call rest).flatten ++ untold
            = s.heard ++ (notice :: (s.calls.set call rest).flatten) ++ untold := by simp
          _ ~ s.heard ++ s.calls.flatten ++ untold := (hmove.append_left _).append_right _
          _ ~ s.owed := hperm
      · exact hperm
  | insert env batch =>
      have happly : s.apply (.insert env batch) = s.insert env batch := rfl
      rw [happly]
      rcases insert_cases s env batch with
        ⟨stored, hheard, howed, ⟨hcalls, hcond⟩ | ⟨hcalls, hcond⟩⟩
      · refine ⟨untold.length, le_refl _, ⟨untold, rfl, ?_⟩, by simp [Undisturbed, hcond]⟩
        rw [hheard, howed, hcalls]
        calc s.heard ++ (s.calls.flatten ++ notices s.listeners stored) ++ untold
            = s.heard ++ s.calls.flatten ++ (notices s.listeners stored ++ untold) := by simp
          _ ~ s.heard ++ s.calls.flatten ++ (untold ++ notices s.listeners stored) :=
            List.perm_append_comm.append_left _
          _ = s.heard ++ s.calls.flatten ++ untold ++ notices s.listeners stored := by simp
          _ ~ s.owed ++ notices s.listeners stored := hperm.append_right _
      · refine ⟨untold.length + (notices s.listeners stored).length, Nat.le_add_right _ _,
          ⟨untold ++ notices s.listeners stored, List.length_append, ?_⟩, ?_⟩
        · rw [hheard, howed, hcalls, ← List.append_assoc]
          exact hperm.append_right _
        · have hstored : stored = [] ↔ ¬ Interrupted env s.peers batch := by
            rw [hcond, not_not]
          rw [length_notices, Undisturbed, ← hstored, Nat.add_eq_left, Nat.mul_eq_zero,
            List.length_eq_zero_iff, List.length_eq_zero_iff]
          exact or_comm

/-! ## Runs -/

theorem behind_run (es : List (ListenedOp Listener Agent SpaceId Url Sig)) :
    ∀ {s : ListenedStore Listener Agent SpaceId Url Sig} {missed : Nat}, s.Behind missed →
      ∃ missed', missed ≤ missed' ∧ (es.foldl apply s).Behind missed' ∧
        (missed' = missed ↔ Along apply Undisturbed s es) := by
  induction es with
  | nil =>
      intro s missed h
      exact ⟨missed, le_refl _, h, by simp [Along]⟩
  | cons op es ih =>
      intro s missed h
      rcases h.apply op with ⟨now, hle, hnow, hop⟩
      rcases ih hnow with ⟨later, hle', hlater, hes⟩
      refine ⟨later, le_trans hle hle', hlater, ?_⟩
      -- Nothing that was missed is told later.
      have hboth : later = missed ↔ now = missed ∧ later = now := by omega
      rw [hboth, hop, hes]
      rfl

/-- Every info that enters the store is told, once to each listener, exactly in the runs in which no
insert call with somebody listening fails on a block check after it has stored an info. -/
theorem announced_iff_undisturbed (peers : PeerStore Agent SpaceId Url Sig)
    (listeners : List Listener) (es : List (ListenedOp Listener Agent SpaceId Url Sig)) :
    (es.foldl apply (new peers listeners)).Announced ↔
      Along apply Undisturbed (new peers listeners) es := by
  have hnew : (new peers listeners).Behind 0 := ⟨[], rfl, List.Perm.refl _⟩
  rcases behind_run es hnew with ⟨missed, -, hbehind, hrun⟩
  rw [announced_iff_behind, ← hrun]
  constructor
  · intro h
    exact hbehind.unique h
  · rintro rfl
    exact hbehind

/-- An agent info for the run below. -/
def listedInfo (agent : Nat) : AgentInfoSigned Nat Unit Nat Unit :=
  { agent := agent, space := (), createdAt := 5, expiresAt := 100, isTombstone := false
    url := some 7, storageArc := .empty, encoded := "", signature := () }

/-- The surroundings of both inserts of the run below. -/
def listedEnv : Surroundings Nat :=
  { isBlocked := fun _ => .ok false, recordFault := none, nowInst := 0, pruneTime := 10, now := 10 }

/-- The first of two infos is stored, the block list fails on the second, and a retry with all
answers given tells the listener of the second one only. -/
theorem retry_leaves_first_untold :
    ¬ ([ListenedOp.insert listedEnv [(listedInfo 1, .ok false), (listedInfo 2, .error (.k2 "blocks"))],
        .insert listedEnv [(listedInfo 1, .ok false), (listedInfo 2, .ok false)],
        .tell 0].foldl apply (new (.new 60 0) [()])).Announced := by
  intro h
  exact absurd h.length_eq (by decide)

end ListenedStore
end Core
end Kitsune2
