import Kitsune2.Bootstrap.NewestWord

/-!
# Push — an agent's words on their way to the bootstrap server

`CoreBootstrap::put` queues an info, and a task pushes the queued infos one by one.  A push that
fails puts its info back at the end of the queue, behind the newer ones.  Others may hand the server
any info the agent has signed, as often as they like.
-/

namespace Kitsune2
namespace Bootstrap

variable {Agent SpaceId Sig : Type} [DecidableEq SpaceId]

/-! ## The client -/

/-- The queue to the push task, and the info it is pushing. -/
structure CoreBootstrap (Agent SpaceId Sig : Type) where
  space : SpaceId
  queue : List (ParsedEntry Agent SpaceId Sig)
  pushing : Option (ParsedEntry Agent SpaceId Sig)

namespace CoreBootstrap

def new (space : SpaceId) : CoreBootstrap Agent SpaceId Sig :=
  { space, queue := [], pushing := none }

/-- The capacity of the queue; what does not fit is dropped. -/
def pushCapacity : Nat := 1024

def trySend (c : CoreBootstrap Agent SpaceId Sig) (info : ParsedEntry Agent SpaceId Sig) :
    CoreBootstrap Agent SpaceId Sig :=
  if c.queue.length < pushCapacity then { c with queue := c.queue ++ [info] } else c

/-- `Bootstrap::put`, which ignores an info of another space. -/
def put (c : CoreBootstrap Agent SpaceId Sig) (info : ParsedEntry Agent SpaceId Sig) :
    CoreBootstrap Agent SpaceId Sig :=
  if info.space ≠ c.space then c else c.trySend info

/-- The push task, which is not pushing, takes the next info. -/
def recv (c : CoreBootstrap Agent SpaceId Sig) : Option (CoreBootstrap Agent SpaceId Sig) :=
  match c.pushing, c.queue with
  | none, info :: queue => some { c with queue, pushing := some info }
  | _, _ => none

def pushed (c : CoreBootstrap Agent SpaceId Sig) : CoreBootstrap Agent SpaceId Sig :=
  { c with pushing := none }

/-- A failed push is tried again later unless the info has expired on the client's clock. -/
def pushFailed (c : CoreBootstrap Agent SpaceId Sig) (now : Int)
    (info : ParsedEntry Agent SpaceId Sig) : CoreBootstrap Agent SpaceId Sig :=
  if now < info.expiresAt then c.pushed.trySend info else c.pushed

omit [DecidableEq SpaceId] in
@[simp]
theorem trySend_space (c : CoreBootstrap Agent SpaceId Sig) (info : ParsedEntry Agent SpaceId Sig) :
    (c.trySend info).space = c.space := by
  unfold trySend
  split <;> rfl

@[simp]
theorem put_space (c : CoreBootstrap Agent SpaceId Sig) (info : ParsedEntry Agent SpaceId Sig) :
    (c.put info).space = c.space := by
  unfold put
  split <;> simp

omit [DecidableEq SpaceId] in
theorem recv_space {c c' : CoreBootstrap Agent SpaceId Sig} (h : c.recv = some c') :
    c'.space = c.space := by
  unfold recv at h
  split at h
  · rw [← Option.some.inj h]
  · cases h

omit [DecidableEq SpaceId] in
@[simp]
theorem pushFailed_space (c : CoreBootstrap Agent SpaceId Sig) (now : Int)
    (info : ParsedEntry Agent SpaceId Sig) : (c.pushFailed now info).space = c.space := by
  unfold pushFailed
  split <;> simp [pushed]

end CoreBootstrap

/-! ## Client and server together -/

variable [DecidableEq Agent] [DecidableEq Sig]

structure Bootstrapping (Agent SpaceId Sig : Type) where
  client : CoreBootstrap Agent SpaceId Sig
  server : Server Agent SpaceId Sig
  /-- What has been put through the client. -/
  signed : List (ParsedEntry Agent SpaceId Sig)
  /-- What has been pushed with success. -/
  pushed : List (ParsedEntry Agent SpaceId Sig)

namespace Bootstrapping

def new (space : SpaceId) : Bootstrapping Agent SpaceId Sig :=
  { client := .new space, server := .new, signed := [], pushed := [] }

variable (verify : Agent → String → Sig → Bool) (maxEntries : Nat) (agent : Agent)

/-- One step, of which `ok` allows those of the server in the state before them.  The server sees
pushes, replays and the puts of other agents alike; an info of the agent is one the agent signed. -/
inductive StepWhere (ok : Server Agent SpaceId Sig → ServerEvent Agent SpaceId Sig → Prop)
    (s : Bootstrapping Agent SpaceId Sig) : Bootstrapping Agent SpaceId Sig → Prop where
  | put (info : ParsedEntry Agent SpaceId Sig) :
      StepWhere ok s { s with client := s.client.put info, signed := info :: s.signed }
  | recv {client : CoreBootstrap Agent SpaceId Sig} (hrecv : s.client.recv = some client) :
      StepWhere ok s { s with client }
  /-- The server has answered, so its update of the info has returned. -/
  | pushSucceeds {info : ParsedEntry Agent SpaceId Sig} (hpushing : s.client.pushing = some info)
      (hwritten : info ∈ s.server.written) :
      StepWhere ok s { s with client := s.client.pushed, pushed := info :: s.pushed }
  /-- The push may or may not have reached the server. -/
  | pushFails {info : ParsedEntry Agent SpaceId Sig} (hpushing : s.client.pushing = some info)
      (now : Int) : StepWhere ok s { s with client := s.client.pushFailed now info }
  | server {event : ServerEvent Agent SpaceId Sig} {server : Server Agent SpaceId Sig}
      (hok : ok s.server event) (hstep : Server.Step verify maxEntries s.server event server)
      (hsigned : ∀ info, event = .putFinds info → info.agent = agent → info.space = s.client.space →
        info ∈ s.signed) :
      StepWhere ok s { s with server }

/-- The states of runs whose server steps satisfy `ok`. -/
inductive ReachableWhere (ok : Server Agent SpaceId Sig → ServerEvent Agent SpaceId Sig → Prop)
    (space : SpaceId) : Bootstrapping Agent SpaceId Sig → Prop where
  | start : ReachableWhere ok space (new space)
  | step {s s' : Bootstrapping Agent SpaceId Sig} (hrun : ReachableWhere ok space s)
      (hstep : StepWhere verify maxEntries agent ok s s') : ReachableWhere ok space s'

/-- What the server's space holds, which is what a read lists. -/
def held (s : Bootstrapping Agent SpaceId Sig) : List (ParsedEntry Agent SpaceId Sig) :=
  Server.listed s.server s.server s.client.space

/-- The agent's words for this space. -/
def Word (s : Bootstrapping Agent SpaceId Sig) (info : ParsedEntry Agent SpaceId Sig) : Prop :=
  info ∈ s.signed ∧ info.agent = agent ∧ info.space = s.client.space

/-- Every push has succeeded. -/
def AllPushed (s : Bootstrapping Agent SpaceId Sig) : Prop :=
  ∀ info, s.Word agent info → info ∈ s.pushed

/-- The agent's newest word: every other one is older. -/
def IsNewestWord (s : Bootstrapping Agent SpaceId Sig) (n : ParsedEntry Agent SpaceId Sig) : Prop :=
  s.Word agent n ∧ ∀ y, s.Word agent y → y ≠ n → y.createdAt < n.createdAt

/-- The space follows the agent's newest word, and serves nothing a tombstone has buried. -/
structure FollowsNewestWord (s : Bootstrapping Agent SpaceId Sig) : Prop where
  info : (s.server.agentsOf s.client.space).length < maxEntries → s.AllPushed agent →
    ∀ n, s.IsNewestWord agent n → n.isTombstone = false → s.server.clock < n.expiresAt →
      n ∈ s.held ∧ ∀ e ∈ s.held, e.agent = agent → e = n
  tombstone : s.AllPushed agent → ∀ n, s.IsNewestWord agent n → n.isTombstone = true →
    ∀ e ∈ s.held, e.agent ≠ agent
  buried : ∀ t ∈ s.server.written, t.agent = agent → t.space = s.client.space →
    t.isTombstone = true → ∀ e ∈ s.held, e.agent = agent → t.createdAt ≤ e.createdAt

/-! ## Runs that keep to the newest word -/

variable {verify : Agent → String → Sig → Bool} {maxEntries : Nat} {agent : Agent}

/-- The server has seen no word of the agent that was not put through the client, and the agent's
newest word is served for as long as there is room for every agent. -/
structure Inv (maxEntries : Nat) (agent : Agent) (s : Bootstrapping Agent SpaceId Sig) : Prop where
  server : Server.Inv s.server
  noneBuried : Server.NoneBuried agent s.client.space s.server
  newestServed : (s.server.agentsOf s.client.space).length < maxEntries →
    Server.NewestServed agent s.client.space s.server
  pushed : ∀ info ∈ s.pushed, info ∈ s.server.written
  written : ∀ info ∈ s.server.written, info.agent = agent → info.space = s.client.space →
    info ∈ s.signed
  calls : ∀ call ∈ s.server.calls, ∀ info, call.newInfo = some info → info.agent = agent →
    info.space = s.client.space → info ∈ s.signed

omit [DecidableEq Sig] in
theorem inv_new (space : SpaceId) :
    Inv maxEntries agent (new space : Bootstrapping Agent SpaceId Sig) := by
  refine ⟨Server.inv_new, ?_, ?_, ?_, ?_, ?_⟩
  · rintro e ref ⟨hlink, _⟩
    simp [new, Server.new, SpaceMap.new] at hlink
  · intro _ n hn
    simp [new, Server.new] at hn
  · intro info hinfo
    simp [new] at hinfo
  · intro info hinfo
    simp [new, Server.new] at hinfo
  · intro call hcall
    simp [new, Server.new] at hcall

theorem Inv.serverStep {s : Bootstrapping Agent SpaceId Sig} (hinv : Inv maxEntries agent s)
    {event : ServerEvent Agent SpaceId Sig} {server : Server Agent SpaceId Sig}
    (hok : Server.Orderly agent s.client.space s.server event)
    (hstep : Server.Step verify maxEntries s.server event server)
    (hsigned : ∀ info, event = .putFinds info → info.agent = agent → info.space = s.client.space →
      info ∈ s.signed) : Inv maxEntries agent { s with server } := by
  refine ⟨hinv.server.step hstep, hinv.noneBuried.step hinv.server hok hstep, ?_, ?_, ?_, ?_⟩
  · intro hroom
    have hroom' := Nat.lt_of_le_of_lt (hstep.agentsOf_le s.client.space) hroom
    exact (hinv.newestServed hroom').step hinv.server hok hroom' hstep
  · exact fun info hinfo => hstep.written_mono (hinv.pushed info hinfo)
  · -- what is written was carried by a call
    cases hstep with
    | tick _ =>
        exact hinv.written
    | putFinds _ _ =>
        exact hinv.written
    | pruneFinds =>
        exact hinv.written
    | writes hcall _ =>
        intro info hinfo
        rcases Server.mem_written_cases hinfo with hold | ⟨hnew, _⟩
        · exact hinv.written info hold
        · exact hinv.calls _ hcall info hnew
  · -- what a call carries was put, pushed or replayed
    cases hstep with
    | tick _ =>
        exact hinv.calls
    | @putFinds info' _ _ _ =>
        intro call hcall info hinfo
        rcases Server.mem_calls_startUpdate hcall with hold | ⟨_, hnew, _⟩
        · exact hinv.calls call hold info hinfo
        · rw [hnew, Option.some.injEq] at hinfo
          exact hinfo ▸ hsigned info' rfl
    | pruneFinds =>
        intro call hcall info hinfo
        rcases Server.mem_calls_startUpdate hcall with hold | ⟨_, hnew, _⟩
        · exact hinv.calls call hold info hinfo
        · rw [hnew] at hinfo
          cases hinfo
    | writes _ _ =>
        exact fun call hcall => hinv.calls call (List.mem_of_mem_erase hcall)

omit [DecidableEq Sig] in
/-- A change of the client that keeps its space and grows what is signed. -/
theorem Inv.clientStep {s : Bootstrapping Agent SpaceId Sig} (hinv : Inv maxEntries agent s)
    {client : CoreBootstrap Agent SpaceId Sig} (hspace : client.space = s.client.space)
    {signed pushed : List (ParsedEntry Agent SpaceId Sig)} (hsigned : ∀ info ∈ s.signed, info ∈ signed)
    (hpushed : ∀ info ∈ pushed, info ∈ s.server.written) :
    Inv maxEntries agent { s with client, signed, pushed } := by
  refine ⟨hinv.server, ?_, ?_, hpushed, ?_, ?_⟩
  · rw [hspace]
    exact hinv.noneBuried
  · rw [hspace]
    exact hinv.newestServed
  · rw [hspace]
    exact fun info hinfo hagent hsp => hsigned info (hinv.written info hinfo hagent hsp)
  · rw [hspace]
    exact fun call hcall info hinfo hagent hsp =>
      hsigned info (hinv.calls call hcall info hinfo hagent hsp)

theorem Inv.step {s s' : Bootstrapping Agent SpaceId Sig} (hinv : Inv maxEntries agent s)
    (hstep : StepWhere verify maxEntries agent (Server.Orderly agent s.client.space) s s') :
    Inv maxEntries agent s' ∧ s'.client.space = s.client.space := by
  cases hstep with
  | put info =>
      have hspace := s.client.put_space info
      exact ⟨hinv.clientStep hspace (fun _ => List.mem_cons_of_mem _) hinv.pushed, hspace⟩
  | recv hrecv =>
      have hspace := CoreBootstrap.recv_space hrecv
      exact ⟨hinv.clientStep hspace (fun _ h => h) hinv.pushed, hspace⟩
  | pushSucceeds _ hwritten =>
      have hspace : s.client.pushed.space = s.client.space := rfl
      refine ⟨hinv.clientStep hspace (fun _ h => h) ?_, hspace⟩
      intro info hinfo
      rcases List.mem_cons.mp hinfo with rfl | hinfo
      · exact hwritten
      · exact hinv.pushed info hinfo
  | @pushFails info _ now =>
      have hspace := s.client.pushFailed_space now info
      exact ⟨hinv.clientStep hspace (fun _ h => h) hinv.pushed, hspace⟩
  | server hok hstep hsigned =>
      exact ⟨hinv.serverStep hok hstep hsigned, rfl⟩

theorem ReachableWhere.inv {space : SpaceId} {s : Bootstrapping Agent SpaceId Sig}
    (hrun : ReachableWhere verify maxEntries agent (Server.Orderly agent space) space s) :
    Inv maxEntries agent s ∧ s.client.space = space := by
  induction hrun with
  | start =>
      exact ⟨inv_new space, rfl⟩
  | step _ hstep ih =>
      rcases ih with ⟨hinv, hspace⟩
      rw [← hspace] at hstep
      rcases hinv.step hstep with ⟨hinv', hspace'⟩
      exact ⟨hinv', hspace'.trans hspace⟩

omit [DecidableEq Sig] in
/-- Once every push has succeeded, the newest info is the newest the server was given. -/
theorem Inv.served_of_newest {s : Bootstrapping Agent SpaceId Sig} (hinv : Inv maxEntries agent s)
    (hroom : (s.server.agentsOf s.client.space).length < maxEntries) (hall : s.AllPushed agent)
    {n : ParsedEntry Agent SpaceId Sig} (hn : s.IsNewestWord agent n)
    (htomb : n.isTombstone = false) (hlive : s.server.clock < n.expiresAt) :
    ∃ ref, Server.ServedAt n ref s.server := by
  rcases hn with ⟨⟨hsigned, hagent, hspace⟩, hnewest⟩
  have hwritten := hinv.pushed n (hall n ⟨hsigned, hagent, hspace⟩)
  refine hinv.newestServed hroom n hwritten hagent hspace htomb hlive ?_
  intro y hy hySpace hyAgent hne
  have hyAgent' := hyAgent.trans hagent
  have hySpace' := hySpace.trans hspace
  exact hnewest y ⟨hinv.written y hy hyAgent' hySpace', hyAgent', hySpace'⟩ hne

omit [DecidableEq Sig] in
theorem Inv.not_buried {s : Bootstrapping Agent SpaceId Sig} (hinv : Inv maxEntries agent s)
    {e t : ParsedEntry Agent SpaceId Sig} (he : e ∈ s.held) (hagent : e.agent = agent)
    (ht : Server.Tombstoned agent s.client.space s.server t) : t.createdAt ≤ e.createdAt := by
  have hspace := (hinv.server.of_mem_listed he).2.1
  have hlisted : e ∈ Server.listed s.server s.server e.space := hspace ▸ he
  rcases Server.mem_listed_self_iff.mp hlisted with ⟨ref, hserved⟩
  exact hinv.noneBuried e ref hserved hagent hspace t ht

/-- In a run whose server steps are orderly, the space follows the agent's newest word. -/
theorem followsNewestWord_of_orderly {space : SpaceId} {s : Bootstrapping Agent SpaceId Sig}
    (hrun : ReachableWhere verify maxEntries agent (Server.Orderly agent space) space s) :
    s.FollowsNewestWord maxEntries agent := by
  rcases hrun.inv with ⟨hinv, _⟩
  refine ⟨?_, ?_, ?_⟩
  · intro hroom hall n hn htomb hlive
    rcases hinv.served_of_newest hroom hall hn htomb hlive with ⟨ref, hlink, hmem⟩
    rw [hn.1.2.2] at hlink
    have hheld : s.held = s.server.spaceMap.readable ref := by
      simp [held, Server.listed, SpaceMap.listed, hlink]
    rw [hheld]
    refine ⟨hmem, ?_⟩
    intro e he hagent
    exact (s.server.spaceMap.onePerAgent_readable ref).eq_of_agent he hmem
      (hagent.trans hn.1.2.1.symm)
  · intro hall n hn htomb e he hagent
    have hstored := hinv.server.of_mem_listed he
    have hburied := hinv.not_buried he hagent
      ⟨hinv.pushed n (hall n hn.1), hn.1.2.1, hn.1.2.2, htomb⟩
    have hne : e ≠ n := by
      rintro rfl
      rw [hstored.2.2] at htomb
      cases htomb
    have hlt := hn.2 e ⟨hinv.written e hstored.1 hagent hstored.2.1, hagent, hstored.2.1⟩ hne
    omega
  · intro t ht htAgent htSpace htomb e he hagent
    exact hinv.not_buried he hagent ⟨ht, htAgent, htSpace, htomb⟩

end Bootstrapping

/-! ## A push, and a push that comes too late -/

open Bootstrapping

/-- A tombstone agent 1 puts after `loneInfo`. -/
def laterTombstone : ParsedEntry Nat Nat Unit :=
  { loneInfo with createdAt := 10, isTombstone := true, encoded := "gone" }

def tombstoneCall : UpdateCall Nat Nat Unit :=
  { space := 7, ref := 0, newInfo := some laterTombstone }

/-- Agent 1 puts an info and its push is on the way. -/
def firstPush : Bootstrapping Nat Nat Unit :=
  { new 7 with client := { CoreBootstrap.new 7 with pushing := some loneInfo }, signed := [loneInfo] }

/-- The info has been pushed. -/
def onePushed : Bootstrapping Nat Nat Unit :=
  { firstPush with
    client := CoreBootstrap.new 7
    server := loneFound.finishUpdate 32 loneCall 0 allParse
    pushed := [loneInfo] }

/-- The server once it has been given the tombstone, which found nothing to delete. -/
def tombstoneWritten : Server Nat Nat Unit :=
  (Server.new.startUpdate 7 (some laterTombstone)).finishUpdate 32 tombstoneCall 0 allParse

/-- The first push failed, so the info went behind the tombstone; both have now been pushed. -/
def bothPushed : Bootstrapping Nat Nat Unit :=
  { client := CoreBootstrap.new 7
    server := (tombstoneWritten.startUpdate 7 (some loneInfo)).finishUpdate 32 loneCall 0 allParse
    signed := [laterTombstone, loneInfo]
    pushed := [loneInfo, laterTombstone] }

theorem firstPush_reachable {ok : Server Nat Nat Unit → ServerEvent Nat Nat Unit → Prop} :
    ReachableWhere (fun _ _ _ => true) 32 1 ok 7 firstPush :=
  (ReachableWhere.start.step (.put loneInfo)).step (.recv rfl)

theorem onePushed_orderly :
    ReachableWhere (fun _ _ _ => true) 32 1 (Server.Orderly 1 7) 7 onePushed := by
  have hfound : ReachableWhere (fun _ _ _ => true) 32 1 (Server.Orderly 1 7) 7
      { firstPush with server := loneFound } := by
    have hfinds : Server.Step (fun _ _ _ => true) 32 firstPush.server (.putFinds loneInfo) loneFound :=
      .putFinds (Int.le_refl 0) rfl
    refine firstPush_reachable.step (.server ?_ hfinds ?_)
    · exact trivial
    · rintro info ⟨⟩ _ _
      exact List.mem_singleton.mpr rfl
  have hwritten : ReachableWhere (fun _ _ _ => true) 32 1 (Server.Orderly 1 7) 7
      { firstPush with server := loneFound.finishUpdate 32 loneCall 0 allParse } := by
    have hwrites : Server.Step (fun _ _ _ => true) 32 loneFound (.writes loneCall 0 allParse)
        (loneFound.finishUpdate 32 loneCall 0 allParse) :=
      .writes (by decide) (Int.le_refl 0)
    refine hfound.step (.server ?_ hwrites ?_)
    · refine ⟨?_, fun _ _ _ _ => rfl⟩
      rintro info ⟨⟩ _ _
      refine ⟨rfl, fun _ _ t ht => ?_⟩
      cases ht.1
    · rintro info ⟨⟩
  exact hwritten.step (.pushSucceeds rfl (by decide))

/-- A single info that reaches the server is followed. -/
theorem onePushed_follows : onePushed.FollowsNewestWord 32 1 ∧ onePushed.held = [loneInfo] :=
  ⟨followsNewestWord_of_orderly onePushed_orderly, by decide⟩

theorem reachable_served {s : Bootstrapping Nat Nat Unit} {info : ParsedEntry Nat Nat Unit}
    (h : ReachableWhere (fun _ _ _ => true) 32 1 (fun _ _ => True) 7 s) (hsigned : info ∈ s.signed)
    (hclock : 0 ≤ s.server.clock)
    (hvalid : checkBootPut (fun _ _ _ => true) 0 info.space info.agent info = .ok ())
    (call : UpdateCall Nat Nat Unit)
    (hcall : call ∈ (s.server.startUpdate info.space (some info)).calls) :
    ReachableWhere (fun _ _ _ => true) 32 1 (fun _ _ => True) 7
      { s with
        server := (s.server.startUpdate info.space (some info)).finishUpdate 32 call 0 allParse } := by
  have hfound : ReachableWhere (fun _ _ _ => true) 32 1 (fun _ _ => True) 7
      { s with server := s.server.startUpdate info.space (some info) } := by
    refine h.step (.server trivial (.putFinds hclock hvalid) ?_)
    rintro info' ⟨⟩ _ _
    exact hsigned
  refine hfound.step (.server trivial (.writes hcall hclock) ?_)
  rintro info' ⟨⟩

/-- The first push has failed and the tombstone is being pushed. -/
def tombstonePush : Bootstrapping Nat Nat Unit :=
  { firstPush with
    client := { space := 7, queue := [loneInfo], pushing := some laterTombstone }
    signed := [laterTombstone, loneInfo] }

/-- The tombstone has been pushed and the info is being pushed again. -/
def secondPush : Bootstrapping Nat Nat Unit :=
  { tombstonePush with
    client := { space := 7, queue := [], pushing := some loneInfo }
    server := tombstoneWritten
    pushed := [laterTombstone] }

theorem bothPushed_reachable :
    ReachableWhere (fun _ _ _ => true) 32 1 (fun _ _ => True) 7 bothPushed := by
  have htomb : ReachableWhere (fun _ _ _ => true) 32 1 (fun _ _ => True) 7 tombstonePush :=
    ((firstPush_reachable.step (.put laterTombstone)).step (.pushFails rfl 0)).step (.recv rfl)
  have hsecond : ReachableWhere (fun _ _ _ => true) 32 1 (fun _ _ => True) 7 secondPush :=
    ((reachable_served htomb List.mem_cons_self (Int.le_refl 0) rfl tombstoneCall (by decide)).step
      (.pushSucceeds rfl (by decide))).step (.recv rfl)
  exact (reachable_served hsecond (List.mem_cons_of_mem _ List.mem_cons_self) (Int.le_refl 0) rfl
    loneCall (by decide)).step (.pushSucceeds rfl (by decide))

/-- The info is pushed after the tombstone, and the server takes it for the agent's first. -/
theorem retried_info_outlives_tombstone :
    ReachableWhere (fun _ _ _ => true) 32 1 (fun _ _ => True) 7 bothPushed ∧
      bothPushed.AllPushed 1 ∧ bothPushed.IsNewestWord 1 laterTombstone ∧
      bothPushed.held = [loneInfo] ∧ ¬ bothPushed.FollowsNewestWord 32 1 := by
  have hsigned : ∀ info ∈ bothPushed.signed, info = laterTombstone ∨ info = loneInfo := by
    intro info hinfo
    simpa [bothPushed] using hinfo
  have hall : bothPushed.AllPushed 1 := by
    rintro info ⟨hinfo, _⟩
    rcases hsigned info hinfo with rfl | rfl
    · decide
    · decide
  have hnewest : bothPushed.IsNewestWord 1 laterTombstone := by
    refine ⟨⟨by decide, rfl, rfl⟩, ?_⟩
    rintro info ⟨hinfo, _⟩ hne
    rcases hsigned info hinfo with rfl | rfl
    · exact absurd rfl hne
    · decide
  refine ⟨bothPushed_reachable, hall, hnewest, by decide, ?_⟩
  intro hfollows
  exact hfollows.tombstone hall laterTombstone hnewest rfl loneInfo (by decide) rfl

end Bootstrap
end Kitsune2
