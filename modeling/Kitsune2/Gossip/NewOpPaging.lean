import Kitsune2.Core.MemOpStore
import Kitsune2.Gossip.State
import Kitsune2.Lib.Runs

/-!
# NewOpPaging — rounds that page through a node's new ops

A peer pages through a node's ops: each round goes on from the bookmark that the round before
returned.  A round queries the common arcs one after the other, and calls of `process_incoming_ops`
stamp and insert ops in between.  The clock never goes back.
-/

namespace Kitsune2
namespace Gossip

open Api Lib Dht Kitsune2.Core

/-! ## State -/

/-- `retrieve_new_op_ids` while it runs. -/
structure NewOpRound where
  newSince : Int
  maxNewBytes : Nat
  /-- The arcs that have been queried. -/
  queried : List DhtArc
  remaining : List DhtArc
  /-- The clock's reading of the query that waits for the store's lock. -/
  newStart : Option Int
  sendNewOps : List Bytes
  usedBytes : Nat
  sendNewBookmark : Int
  deriving DecidableEq

/-- What a round returned. -/
structure NewOps where
  maxNewBytes : Nat
  newOps : List Bytes
  usedBytes : Nat
  bookmark : Int
  deriving DecidableEq

/-- A call of `process_incoming_ops`: the ops without a timestamp yet, and the records. -/
structure IncomingCall where
  unstamped : List IncomingMemoryOp
  records : List MemoryOpRecord
  deriving DecidableEq

/-- The node's clock, store and calls, the peer's bookmark, and the rounds between the two. -/
structure Pager where
  now : Int
  opList : List MemoryOpRecord
  incoming : List IncomingCall
  newOpsBookmark : Option Int
  round : Option NewOpRound
  finished : List NewOps

/-- What the paging is about: the common arcs, where ops lie, and from when on the first round
asks. -/
structure PagerEnv where
  loc : LocCb
  commonArcSet : ArcSet
  firstSince : Int

namespace Pager

/-- An empty store, at some time. -/
def new (now : Int) : Pager where
  now := now
  opList := []
  incoming := []
  newOpsBookmark := none
  round := none
  finished := []

/-! ## Steps -/

variable (env : PagerEnv)

/-- The next op of a call gets its timestamp. -/
def stamp (s : Pager) (call : IncomingCall) : IncomingCall :=
  match call.unstamped with
  | [] => call
  | op :: ops => ⟨ops, call.records ++ [MemoryOpRecord.ofIncoming op s.now]⟩

/-- `retrieve_new_op_ids` up to its first query. -/
def beginRound (s : Pager) (maxNewBytes : UInt32) : NewOpRound where
  newSince := s.newOpsBookmark.getD env.firstSince
  maxNewBytes := maxNewBytes.toNat
  queried := []
  remaining := env.commonArcSet.asArcs
  newStart := none
  sendNewOps := []
  usedBytes := 0
  sendNewBookmark := s.now

/-- The answer to the query of one arc is added to what the round has. -/
def receive (r : NewOpRound) (arc : DhtArc) (rest : List DhtArc) (answer : List Bytes × Nat × Int) :
    NewOpRound :=
  { r with
    queried := r.queried ++ [arc]
    remaining := rest
    newStart := none
    sendNewOps := r.sendNewOps ++ answer.1
    usedBytes := wrapAddU32 r.usedBytes answer.2.1
    sendNewBookmark := min answer.2.2 r.sendNewBookmark }

/-- The query of the next arc, with the iteration order of the store. -/
def answer (order : List MemoryOpRecord) (r : NewOpRound) (arc : DhtArc) (newStart : Int) :
    List Bytes × Nat × Int :=
  Core.retrieveOpIdsBounded env.loc order arc r.newSince (subU32 r.maxNewBytes r.usedBytes) newStart

/-- `update_new_ops_bookmark`. -/
def updateBookmark (previous : Option Int) (updated : Int) : Option Int :=
  if (previous.map fun previous => decide (previous ≤ updated)).getD true then some updated
  else previous

end Pager

/-- What can happen next. -/
inductive PagerEvent where
  | tick (elapsed : Nat)
  | processIncomingOps (ops : List IncomingMemoryOp)
  | stamp (i : Nat)
  /-- The call takes the write lock and inserts its records. -/
  | insert (i : Nat)
  | beginRound (maxNewBytes : UInt32)
  /-- The next query reads the clock. -/
  | query
  /-- The query takes the read lock; `order` is the iteration order of the store. -/
  | read (order : List MemoryOpRecord)
  | finish

namespace Pager

variable (env : PagerEnv)

def step (s : Pager) : PagerEvent → Pager
  | .tick elapsed => { s with now := s.now + elapsed }
  | .processIncomingOps ops => { s with incoming := s.incoming ++ [⟨ops, []⟩] }
  -- a record is stamped before the store lock is taken, so inserts may overtake stamps
  | .stamp i =>
      match s.incoming[i]? with
      | none => s
      | some call => { s with incoming := s.incoming.set i (s.stamp call) }
  | .insert i =>
      match s.incoming[i]? with
      | some ⟨[], records⟩ =>
          { s with
            opList := insertRecords s.opList records
            incoming := s.incoming.set i ⟨[], []⟩ }
      | _ => s
  | .beginRound maxNewBytes =>
      match s.round with
      | none => { s with round := some (s.beginRound env maxNewBytes) }
      | some _ => s
  -- the bookmark of an arc is the time before the store is read
  | .query =>
      match s.round with
      | some r =>
          match r.newStart, r.remaining with
          | none, _ :: _ => { s with round := some { r with newStart := some s.now } }
          | _, _ => s
      | none => s
  | .read order =>
      match s.round with
      | some r =>
          match r.newStart, r.remaining with
          | some newStart, arc :: rest =>
              -- the store iterates a hash map: any order of the stored ops is possible
              if order.Perm s.opList then
                { s with round := some (receive r arc rest (answer env order r arc newStart)) }
              else s
          | _, _ => s
      | none => s
  | .finish =>
      match s.round with
      | some r =>
          match r.remaining with
          | [] =>
              { s with
                round := none
                finished := s.finished ++
                  [⟨r.maxNewBytes, r.sendNewOps, r.usedBytes, r.sendNewBookmark⟩]
                newOpsBookmark := updateBookmark s.newOpsBookmark r.sendNewBookmark }
          | _ :: _ => s
      | none => s

/-! ## A round by itself -/

section Alone

variable {env} {s : Pager} {host : Host}

/-- The queries of a round's arcs, with nothing in between. -/
def queries (order : List MemoryOpRecord) (arcs : List DhtArc) : List PagerEvent :=
  arcs.flatMap fun _ => [.query, .read order]

/-- A round with nothing in between. -/
def aloneRound (maxNewBytes : UInt32) (order : List MemoryOpRecord) (arcs : List DhtArc) :
    List PagerEvent :=
  .beginRound maxNewBytes :: queries order arcs ++ [.finish]

theorem queries_alone {r : NewOpRound} (arcs : List DhtArc)
    (hanswer : ∀ arc since limit, host.retrieveOpIdsBounded arc since limit =
      .ok (Core.retrieveOpIdsBounded env.loc s.opList arc since limit s.now))
    (hrest : r.remaining = arcs) (hstart : r.newStart = none) :
    ∃ r', (queries s.opList arcs).foldl (step env) { s with round := some r } =
        { s with round := some r' } ∧
      r'.remaining = [] ∧ r'.maxNewBytes = r.maxNewBytes ∧
      arcs.foldlM (fun (x : List Bytes × Nat × Int) arc => do
        let (newOps, used, newBookmark) ←
          host.retrieveOpIdsBounded arc r.newSince (subU32 r.maxNewBytes x.2.1)
        pure (x.1 ++ newOps, wrapAddU32 x.2.1 used, min newBookmark x.2.2))
        (r.sendNewOps, r.usedBytes, r.sendNewBookmark) =
      Except.ok (r'.sendNewOps, r'.usedBytes, r'.sendNewBookmark) := by
  induction arcs generalizing r with
  | nil => exact ⟨r, rfl, hrest, rfl, rfl⟩
  | cons arc arcs ih =>
      -- the query reads the clock and takes the lock at once
      have hread : [PagerEvent.query, .read s.opList].foldl (step env) { s with round := some r } =
          { s with round := some (receive r arc arcs (answer env s.opList r arc s.now)) } := by
        simp only [List.foldl_cons, List.foldl_nil, step, hstart, hrest, if_pos (List.Perm.refl _)]
        rfl
      rcases ih (r := receive r arc arcs (answer env s.opList r arc s.now)) rfl rfl with
        ⟨r', hrun, hdone, hlimit, hfold⟩
      refine ⟨r', ?_, hdone, hlimit, ?_⟩
      · show ([PagerEvent.query, .read s.opList] ++ queries s.opList arcs).foldl (step env) _ = _
        rw [List.foldl_append, hread, hrun]
      · rw [List.foldlM_cons, hanswer]
        exact hfold

/-- A round that nothing interrupts returns what `retrieve_new_op_ids` does. -/
theorem round_alone {maxNewBytes : UInt32} (hround : s.round = none) (hnow : host.now = s.now)
    (hanswer : ∀ arc since limit, host.retrieveOpIdsBounded arc since limit =
      .ok (Core.retrieveOpIdsBounded env.loc s.opList arc since limit s.now)) :
    ∃ newOps used bookmark,
      retrieveNewOpIds host env.commonArcSet (s.newOpsBookmark.getD env.firstSince)
        maxNewBytes.toNat = .ok (newOps, used, bookmark) ∧
      (aloneRound maxNewBytes s.opList env.commonArcSet.asArcs).foldl (step env) s =
        { s with
          finished := s.finished ++ [⟨maxNewBytes.toNat, newOps, used, bookmark⟩]
          newOpsBookmark := updateBookmark s.newOpsBookmark bookmark } := by
  rcases queries_alone (r := s.beginRound env maxNewBytes) env.commonArcSet.asArcs hanswer rfl rfl
    with ⟨r', hrun, hdone, hlimit, hfold⟩
  refine ⟨r'.sendNewOps, r'.usedBytes, r'.sendNewBookmark, ?_, ?_⟩
  · unfold retrieveNewOpIds
    rw [hnow]
    exact hfold
  · have hbegin : s.step env (.beginRound maxNewBytes) =
        { s with round := some (s.beginRound env maxNewBytes) } := by
      simp only [step, hround]
    -- the queries of a round on its own find the store as it was
    have hqueries : (.beginRound maxNewBytes :: queries s.opList env.commonArcSet.asArcs).foldl
        (step env) s = { s with round := some r' } := by
      rw [List.foldl_cons, hbegin, hrun]
    unfold aloneRound
    rw [List.foldl_append, hqueries]
    simp only [List.foldl_cons, List.foldl_nil, step, hdone, hlimit]
    rw [hround]
    rfl

end Alone

/-! ## The condition -/

/-- A record comes in time: it was not stamped before the bookmark that the peer has, nor, if the
round that runs has queried its arc already, before the bookmark that this round has come to. -/
def InTime (s : Pager) (op : MemoryOpRecord) : Prop :=
  ∀ arc ∈ env.commonArcSet.asArcs, arc.contains (env.loc op.opId) = true →
    env.firstSince ≤ op.storedAt →
    (∀ bookmark ∈ s.newOpsBookmark, bookmark ≤ op.storedAt) ∧
      ∀ r ∈ s.round, arc ∈ r.queried → r.sendNewBookmark ≤ op.storedAt

instance InTime.decidable (s : Pager) (op : MemoryOpRecord) : Decidable (s.InTime env op) :=
  inferInstanceAs (Decidable (∀ arc ∈ env.commonArcSet.asArcs,
    arc.contains (env.loc op.opId) = true → env.firstSince ≤ op.storedAt →
    (∀ bookmark ∈ s.newOpsBookmark, bookmark ≤ op.storedAt) ∧
      ∀ r ∈ s.round, arc ∈ r.queried → r.sendNewBookmark ≤ op.storedAt))

/-- Ops that are new to the store are inserted in time, and no size that a query adds up reaches
`2 ^ 32`. -/
def InOrder (s : Pager) : PagerEvent → Prop
  | .insert i =>
      match s.incoming[i]? with
      | some ⟨[], records⟩ =>
          ∀ op ∈ records, op.opId ∉ s.opList.map MemoryOpRecord.opId → s.InTime env op
      | _ => True
  | .read order =>
      match s.round with
      | some r =>
          match r.newStart, r.remaining with
          | some _, arc :: _ =>
              SizesFit (subU32 r.maxNewBytes r.usedBytes)
                (candidateOps env.loc order arc r.newSince) 0
          | _, _ => True
      | none => True
  | _ => True

instance InOrder.decidable (s : Pager) : ∀ e : PagerEvent, Decidable (s.InOrder env e)
  | .insert i =>
      match h : s.incoming[i]? with
      | some ⟨[], records⟩ =>
          decidable_of_iff
            (∀ op ∈ records, op.opId ∉ s.opList.map MemoryOpRecord.opId → s.InTime env op)
            (by simp only [InOrder, h])
      | some ⟨_ :: _, _⟩ => .isTrue (by simp only [InOrder, h])
      | none => .isTrue (by simp only [InOrder, h])
  | .read order =>
      match h : s.round with
      | none => .isTrue (by simp only [InOrder, h])
      | some r =>
          match hstart : r.newStart, hrest : r.remaining with
          | some _, arc :: _ =>
              decidable_of_iff
                (SizesFit (subU32 r.maxNewBytes r.usedBytes)
                  (candidateOps env.loc order arc r.newSince) 0)
                (by simp only [InOrder, h, hstart, hrest])
          | none, _ => .isTrue (by simp only [InOrder, h, hstart])
          | some _, [] => .isTrue (by simp only [InOrder, h, hstart, hrest])
  | .tick _ => .isTrue trivial
  | .processIncomingOps _ => .isTrue trivial
  | .stamp _ => .isTrue trivial
  | .beginRound _ => .isTrue trivial
  | .query => .isTrue trivial
  | .finish => .isTrue trivial

/-! ## The invariant -/

/-- The ids are of stored ops whose sizes add up to `usedBytes`, within the limit. -/
structure Accounted (opList : List MemoryOpRecord) (opIds : List Bytes)
    (usedBytes maxNewBytes : Nat) : Prop where
  stored : ∀ opId ∈ opIds, opId ∈ opList.map MemoryOpRecord.opId
  used : usedBytes = (opIds.map (opSize opList)).sum
  within : usedBytes ≤ maxNewBytes

/-- The op was returned by a round that ended. -/
def Returned (s : Pager) (opId : Bytes) : Prop :=
  ∃ round ∈ s.finished, opId ∈ round.newOps

/-- A round that runs: what it has not returned of the arcs it has queried is not before its
bookmark. -/
structure RoundOk (env : PagerEnv) (s : Pager) (r : NewOpRound) : Prop where
  since : r.newSince = s.newOpsBookmark.getD env.firstSince
  arcs : r.queried ++ r.remaining = env.commonArcSet.asArcs
  behind : r.sendNewBookmark ≤ s.now
  ahead : ∀ bookmark ∈ s.newOpsBookmark, bookmark ≤ r.sendNewBookmark
  start : ∀ newStart ∈ r.newStart, ∀ bookmark ∈ s.newOpsBookmark, bookmark ≤ newStart
  limit : r.maxNewBytes < 2 ^ 32
  accounted : Accounted s.opList r.sendNewOps r.usedBytes r.maxNewBytes
  covered : ∀ arc ∈ r.queried, ∀ op ∈ s.opList, arc.contains (env.loc op.opId) = true →
    env.firstSince ≤ op.storedAt →
    s.Returned op.opId ∨ op.opId ∈ r.sendNewOps ∨ r.sendNewBookmark ≤ op.storedAt

/-- What no round has returned is not before the peer's bookmark. -/
structure Covered (env : PagerEnv) (s : Pager) : Prop where
  unique : (s.opList.map MemoryOpRecord.opId).Nodup
  behind : ∀ bookmark ∈ s.newOpsBookmark, bookmark ≤ s.now
  last : s.newOpsBookmark = s.finished.getLast?.map NewOps.bookmark
  accounted : ∀ round ∈ s.finished,
    Accounted s.opList round.newOps round.usedBytes round.maxNewBytes
  covered : ∀ arc ∈ env.commonArcSet.asArcs, ∀ op ∈ s.opList,
    arc.contains (env.loc op.opId) = true → env.firstSince ≤ op.storedAt →
    s.Returned op.opId ∨ ∀ bookmark ∈ s.newOpsBookmark, bookmark ≤ op.storedAt
  round : ∀ r ∈ s.round, RoundOk env s r

variable {env : PagerEnv} {s s' : Pager}

theorem Accounted.mono {opList opList' : List MemoryOpRecord} {opIds : List Bytes}
    {usedBytes maxNewBytes : Nat} (h : Accounted opList opIds usedBytes maxNewBytes)
    (hsub : opList ⊆ opList') (hunique : (opList.map MemoryOpRecord.opId).Nodup)
    (hunique' : (opList'.map MemoryOpRecord.opId).Nodup) :
    Accounted opList' opIds usedBytes maxNewBytes := by
  refine ⟨?_, ?_, h.within⟩
  · intro opId hid
    rcases List.mem_map.mp (h.stored opId hid) with ⟨op, hop, rfl⟩
    exact List.mem_map.mpr ⟨op, hsub hop, rfl⟩
  · rw [h.used]
    refine congrArg List.sum (List.map_congr_left fun opId hid => ?_)
    rcases List.mem_map.mp (h.stored opId hid) with ⟨op, hop, rfl⟩
    rw [opSize_of_mem hunique hop, opSize_of_mem hunique' (hsub hop)]

/-! ### The clock and the store -/

theorem Covered.tick (hs : s.Covered env) (elapsed : Nat) :
    (s.step env (.tick elapsed)).Covered env := by
  have hnow : s.now ≤ s.now + elapsed := by omega
  refine ⟨hs.unique, ?_, hs.last, hs.accounted, hs.covered, ?_⟩
  · exact fun bookmark hb => (hs.behind bookmark hb).trans hnow
  · intro r hr
    have hok := hs.round r hr
    exact ⟨hok.since, hok.arcs, hok.behind.trans hnow, hok.ahead, hok.start, hok.limit,
      hok.accounted, hok.covered⟩

/-- The calls that have not inserted their ops do not matter. -/
theorem Covered.of_incoming (hs : s.Covered env) (incoming : List IncomingCall) :
    Covered env { s with incoming := incoming } := by
  refine ⟨hs.unique, hs.behind, hs.last, hs.accounted, hs.covered, ?_⟩
  intro r hr
  have hok := hs.round r hr
  exact ⟨hok.since, hok.arcs, hok.behind, hok.ahead, hok.start, hok.limit, hok.accounted,
    hok.covered⟩

theorem Covered.stamp (hs : s.Covered env) (i : Nat) : (s.step env (.stamp i)).Covered env := by
  simp only [step]
  split
  · exact hs
  · exact hs.of_incoming _

/-- Records that come in time are inserted. -/
theorem Covered.insertRecords {records : List MemoryOpRecord} (hs : s.Covered env)
    (htime : ∀ op ∈ records, op.opId ∉ s.opList.map MemoryOpRecord.opId → s.InTime env op) :
    Covered env { s with opList := Core.insertRecords s.opList records } := by
  have hsub := subset_insertRecords s.opList records
  have hunique := nodup_insertRecords hs.unique records
  -- what is stored now was stored before or comes in time
  have hnew : ∀ op ∈ Core.insertRecords s.opList records, op ∈ s.opList ∨ s.InTime env op := by
    intro op hop
    rcases mem_insertRecords hop with hold | ⟨hmem, hnew⟩
    · exact Or.inl hold
    · exact Or.inr (htime op hmem hnew)
  refine ⟨hunique, hs.behind, hs.last, ?_, ?_, ?_⟩
  · exact fun round hround => (hs.accounted round hround).mono hsub hs.unique hunique
  · intro arc harc op hop hcontains hsince
    rcases hnew op hop with hold | hintime
    · exact hs.covered arc harc op hold hcontains hsince
    · exact Or.inr (hintime arc harc hcontains hsince).1
  · intro r hr
    have hok := hs.round r hr
    refine ⟨hok.since, hok.arcs, hok.behind, hok.ahead, hok.start, hok.limit,
      hok.accounted.mono hsub hs.unique hunique, ?_⟩
    intro arc harc op hop hcontains hsince
    rcases hnew op hop with hold | hintime
    · exact hok.covered arc harc op hold hcontains hsince
    -- a queried arc is one of the common arcs
    · have hcommon : arc ∈ env.commonArcSet.asArcs := by
        rw [← hok.arcs]
        exact List.mem_append_left _ harc
      exact Or.inr (Or.inr ((hintime arc hcommon hcontains hsince).2 r hr harc))

theorem Covered.insert {i : Nat} (hs : s.Covered env) (horder : s.InOrder env (.insert i)) :
    (s.step env (.insert i)).Covered env := by
  simp only [step]
  split
  · rename_i records hi
    simp only [InOrder, hi] at horder
    exact (hs.insertRecords horder).of_incoming _
  · exact hs

/-! ### Rounds -/

theorem Covered.of_round {r : NewOpRound} (hs : s.Covered env) (hok : RoundOk env s r) :
    Covered env { s with round := some r } := by
  refine ⟨hs.unique, hs.behind, hs.last, hs.accounted, hs.covered, ?_⟩
  rintro r' ⟨⟩
  exact ⟨hok.since, hok.arcs, hok.behind, hok.ahead, hok.start, hok.limit, hok.accounted,
    hok.covered⟩

theorem Covered.beginRound (hs : s.Covered env) (maxNewBytes : UInt32) :
    (s.step env (.beginRound maxNewBytes)).Covered env := by
  simp only [step]
  split
  · refine hs.of_round ⟨rfl, rfl, le_refl _, hs.behind, nofun, maxNewBytes.toNat_lt, ?_, nofun⟩
    exact ⟨nofun, rfl, Nat.zero_le _⟩
  · exact hs

theorem Covered.query (hs : s.Covered env) : (s.step env .query).Covered env := by
  simp only [step]
  split
  · rename_i r hround
    have hok := hs.round r hround
    split
    · refine hs.of_round ⟨hok.since, hok.arcs, hok.behind, hok.ahead, ?_, hok.limit, hok.accounted,
        hok.covered⟩
      rintro newStart ⟨⟩
      exact hs.behind
    · exact hs
  · exact hs

/-- The answer for one arc: nothing before its bookmark is left out. -/
structure AnswersArc (env : PagerEnv) (s : Pager) (r : NewOpRound) (arc : DhtArc) (newStart : Int)
    (answer : List Bytes × Nat × Int) : Prop where
  stored : ∀ opId ∈ answer.1, opId ∈ s.opList.map MemoryOpRecord.opId
  used : answer.2.1 = (answer.1.map (opSize s.opList)).sum
  within : answer.2.1 ≤ r.maxNewBytes - r.usedBytes
  ahead : answer.2.2 = newStart ∨ r.newSince ≤ answer.2.2
  covered : ∀ op ∈ s.opList, arc.contains (env.loc op.opId) = true → r.newSince ≤ op.storedAt →
    op.opId ∈ answer.1 ∨ answer.2.2 ≤ op.storedAt

theorem answersArc {r : NewOpRound} {arc : DhtArc} {newStart : Int} {order : List MemoryOpRecord}
    (hunique : (s.opList.map MemoryOpRecord.opId).Nodup) (hlimit : r.maxNewBytes < 2 ^ 32)
    (hused : r.usedBytes ≤ r.maxNewBytes) (hperm : order.Perm s.opList)
    (hfit : SizesFit (subU32 r.maxNewBytes r.usedBytes)
      (candidateOps env.loc order arc r.newSince) 0) :
    AnswersArc env s r arc newStart (answer env order r arc newStart) := by
  have htaken := takeWithin_spec pairwise_candidateOps (Nat.zero_le _) hfit
  have hcandidate : ∀ op ∈ candidateOps env.loc order arc r.newSince,
      op ∈ s.opList ∧ r.newSince ≤ op.storedAt := by
    intro op hop
    rcases mem_candidateOps.mp hop with ⟨hmem, _, hsince⟩
    exact ⟨hperm.mem_iff.mp hmem, hsince⟩
  unfold answer Core.retrieveOpIdsBounded
  rw [subU32_of_le hlimit hused] at htaken ⊢
  generalize htake : takeWithin (r.maxNewBytes - r.usedBytes)
    (candidateOps env.loc order arc r.newSince) 0 = taken at htaken ⊢
  refine ⟨?_, ?_, htaken.within, ?_, ?_⟩
  · intro opId hid
    rcases List.mem_map.mp hid with ⟨op, hop, rfl⟩
    exact List.mem_map.mpr ⟨op, (hcandidate op (htaken.sub hop)).1, rfl⟩
  · rw [htaken.total, Nat.zero_add, List.map_map]
    refine congrArg List.sum (List.map_congr_left fun op hop => ?_)
    exact (opSize_of_mem hunique (hcandidate op (htaken.sub hop)).1).symm
  -- the bookmark is the time before the query, or the first op that was left out
  · show taken.2.2.getD newStart = newStart ∨ r.newSince ≤ taken.2.2.getD newStart
    cases hcut : taken.2.2 with
    | none => exact Or.inl rfl
    | some cut =>
        rcases htaken.source cut hcut with ⟨op, hop, rfl⟩
        exact Or.inr (hcandidate op hop).2
  · intro op hop hcontains hsince
    have hmem : op ∈ candidateOps env.loc order arc r.newSince :=
      mem_candidateOps.mpr ⟨hperm.mem_iff.mpr hop, hcontains, hsince⟩
    show op.opId ∈ taken.1.map MemoryOpRecord.opId ∨ taken.2.2.getD newStart ≤ op.storedAt
    cases hcut : taken.2.2 with
    | none => exact Or.inl (List.mem_map.mpr ⟨op, htaken.all hcut hmem, rfl⟩)
    | some cut =>
        rcases htaken.rest cut hcut op hmem with hin | hlate
        · exact Or.inl (List.mem_map.mpr ⟨op, hin, rfl⟩)
        · exact Or.inr hlate

/-- The round goes on with what the query of its next arc answers. -/
theorem RoundOk.receive {r : NewOpRound} {arc : DhtArc} {rest : List DhtArc} {newStart : Int}
    {found : List Bytes × Nat × Int} (hok : RoundOk env s r) (hs : s.Covered env)
    (hrest : r.remaining = arc :: rest) (hstart : r.newStart = some newStart)
    (hfound : AnswersArc env s r arc newStart found) :
    RoundOk env s (Pager.receive r arc rest found) := by
  have hwithin := hfound.within
  have hused := hok.accounted.within
  have hlimit := hok.limit
  have hcommon : arc ∈ env.commonArcSet.asArcs := by
    rw [← hok.arcs, hrest]
    exact List.mem_append_right _ List.mem_cons_self
  have hsum : wrapAddU32 r.usedBytes found.2.1 = r.usedBytes + found.2.1 :=
    Nat.mod_eq_of_lt (by omega)
  refine ⟨hok.since, ?_, ?_, ?_, nofun, hok.limit, ?_, ?_⟩
  · show (r.queried ++ [arc]) ++ rest = env.commonArcSet.asArcs
    rw [List.append_assoc, List.singleton_append, ← hrest]
    exact hok.arcs
  · exact (min_le_right _ _).trans hok.behind
  · intro bookmark hbookmark
    refine le_min ?_ (hok.ahead bookmark hbookmark)
    rcases hfound.ahead with heq | hsince
    · rw [heq]
      exact hok.start newStart hstart bookmark hbookmark
    · -- the round started from the peer's bookmark
      rw [hok.since, Option.mem_def.mp hbookmark] at hsince
      exact hsince
  · refine ⟨?_, ?_, ?_⟩
    · intro opId hid
      rcases List.mem_append.mp hid with hold | hnew
      · exact hok.accounted.stored opId hold
      · exact hfound.stored opId hnew
    · show wrapAddU32 r.usedBytes found.2.1 = _
      rw [hsum]
      show _ = ((r.sendNewOps ++ found.1).map (opSize s.opList)).sum
      rw [List.map_append, List.sum_append, ← hok.accounted.used, ← hfound.used]
    · show wrapAddU32 r.usedBytes found.2.1 ≤ r.maxNewBytes
      rw [hsum]
      omega
  · intro arc' harc' op hop hcontains hsince
    rcases List.mem_append.mp harc' with hold | hnew
    · rcases hok.covered arc' hold op hop hcontains hsince with hreturned | hsent | hlate
      · exact Or.inl hreturned
      · exact Or.inr (Or.inl (List.mem_append_left _ hsent))
      · exact Or.inr (Or.inr ((min_le_right _ _).trans hlate))
    · cases List.mem_singleton.mp hnew
      rcases hs.covered arc hcommon op hop hcontains hsince with hreturned | hbookmark
      · exact Or.inl hreturned
      · -- what earlier rounds left is not before this round's start
        have hstarted : r.newSince ≤ op.storedAt := by
          rw [hok.since]
          cases hkept : s.newOpsBookmark with
          | none => exact hsince
          | some bookmark => exact hbookmark bookmark hkept
        rcases hfound.covered op hop hcontains hstarted with hin | hlate
        · exact Or.inr (Or.inl (List.mem_append_right _ hin))
        · exact Or.inr (Or.inr ((min_le_left _ _).trans hlate))

theorem Covered.read {order : List MemoryOpRecord} (hs : s.Covered env)
    (horder : s.InOrder env (.read order)) : (s.step env (.read order)).Covered env := by
  simp only [step]
  split
  · rename_i r hround
    simp only [InOrder, hround] at horder
    have hok := hs.round r hround
    split
    · rename_i newStart arc rest hstart hrest
      simp only [hstart, hrest] at horder
      split
      · rename_i hperm
        refine hs.of_round (hok.receive hs hrest hstart ?_)
        exact answersArc hs.unique hok.limit hok.accounted.within hperm horder
      · exact hs
    · exact hs
  · exact hs

theorem updateBookmark_of_ahead {previous : Option Int} {updated : Int}
    (h : ∀ bookmark ∈ previous, bookmark ≤ updated) :
    updateBookmark previous updated = some updated := by
  unfold updateBookmark
  cases previous with
  | none => rfl
  | some bookmark =>
      have hle := h bookmark rfl
      simp only [Option.map_some, Option.getD_some, decide_eq_true hle, if_true]

/-- A round that has queried all arcs ends. -/
theorem Covered.finish (hs : s.Covered env) : (s.step env .finish).Covered env := by
  simp only [step]
  split
  · rename_i r hround
    have hok := hs.round r hround
    split
    · rename_i hrest
      rw [updateBookmark_of_ahead hok.ahead]
      -- no arc is left, so every common arc was queried
      have hqueried : r.queried = env.commonArcSet.asArcs := by
        rw [← hok.arcs, hrest, List.append_nil]
      refine ⟨hs.unique, ?_, ?_, ?_, ?_, nofun⟩
      · rintro bookmark ⟨⟩
        exact hok.behind
      · rw [List.getLast?_append, List.getLast?_singleton]
        rfl
      · intro round hmem
        rcases List.mem_append.mp hmem with hold | hnew
        · exact hs.accounted round hold
        · cases List.mem_singleton.mp hnew
          exact hok.accounted
      · intro arc harc op hop hcontains hsince
        rw [← hqueried] at harc
        rcases hok.covered arc harc op hop hcontains hsince with ⟨round, hmem, hid⟩ | hsent | hlate
        · exact Or.inl ⟨round, List.mem_append_left _ hmem, hid⟩
        · exact Or.inl ⟨_, List.mem_append_right _ (List.mem_singleton.mpr rfl), hsent⟩
        -- an op that came too late for the round is at or after its bookmark
        · refine Or.inr ?_
          rintro bookmark ⟨⟩
          exact hlate
    · exact hs
  · exact hs

/-! ## Runs -/

theorem step_covered (hs : s.Covered env) (e : PagerEvent) (horder : s.InOrder env e) :
    (s.step env e).Covered env := by
  cases e with
  | tick elapsed => exact hs.tick elapsed
  | processIncomingOps ops => exact hs.of_incoming _
  | stamp i => exact hs.stamp i
  | insert i => exact hs.insert horder
  | beginRound maxNewBytes => exact hs.beginRound maxNewBytes
  | query => exact hs.query
  | read order => exact hs.read horder
  | finish => exact hs.finish

theorem new_covered (now : Int) : (new now).Covered env :=
  ⟨List.nodup_nil, nofun, rfl, nofun, nofun, nofun⟩

/-- The state after a run. -/
def run (env : PagerEnv) (now : Int) (events : List PagerEvent) : Pager :=
  events.foldl (step env) (new now)

/-- In a run whose steps are in order, an op of the common arcs that is stored is returned by a round
or not before the bookmark of the last one, and every round's ids account for the bytes it reports. -/
theorem paging_misses_nothing (env : PagerEnv) (now : Int) (events : List PagerEvent)
    (horder : Along (step env) (InOrder env) (new now) events) :
    (∀ op ∈ (run env now events).opList,
      (∃ arc ∈ env.commonArcSet.asArcs, arc.contains (env.loc op.opId) = true) →
      env.firstSince ≤ op.storedAt →
      ∀ last ∈ (run env now events).finished.getLast?,
        (∃ round ∈ (run env now events).finished, op.opId ∈ round.newOps) ∨
          last.bookmark ≤ op.storedAt) ∧
    ∀ round ∈ (run env now events).finished,
      round.usedBytes = (round.newOps.map (opSize (run env now events).opList)).sum ∧
        round.usedBytes ≤ round.maxNewBytes := by
  have hcovered : (run env now events).Covered env :=
    horder.invariant (I := fun s => s.Covered env) (new_covered now)
      fun _ e hs hcond => step_covered hs e hcond
  constructor
  · rintro op hop ⟨arc, harc, hcontains⟩ hsince last hlast
    rcases hcovered.covered arc harc op hop hcontains hsince with hreturned | hbookmark
    · exact Or.inl hreturned
    · refine Or.inr (hbookmark last.bookmark ?_)
      rw [hcovered.last, Option.mem_def.mp hlast]
      rfl
  · intro round hround
    exact ⟨(hcovered.accounted round hround).used, (hcovered.accounted round hround).within⟩

/-- Ops are paged over the first sector, from time zero on. -/
def firstSectorPaging : PagerEnv where
  loc := fun _ => 0
  commonArcSet := ⟨{0}, ArcSet.zero_bounded⟩
  firstSince := 0

/-- An op of three bytes that is stored at this time. -/
def threeBytes (storedAt : Int) : MemoryOpRecord :=
  ⟨[1], 0, storedAt, [1, 2, 3]⟩

def wholeRound (order : List MemoryOpRecord) : List PagerEvent :=
  aloneRound 100 order firstSectorPaging.commonArcSet.asArcs

/-- The op is stamped and inserted between two rounds. -/
def promptStore : List PagerEvent :=
  [.tick 10] ++ wholeRound [] ++
    [.processIncomingOps [⟨[1], 0, [1, 2, 3]⟩], .stamp 0, .insert 0, .tick 10] ++
    wholeRound [threeBytes 10]

theorem promptStore_misses_nothing :
    Along (step firstSectorPaging) (InOrder firstSectorPaging) (new 0) promptStore ∧
      (∀ round ∈ (run firstSectorPaging 0 promptStore).finished,
        round.usedBytes ≤ round.maxNewBytes) ∧
      (run firstSectorPaging 0 promptStore).finished.map NewOps.newOps = [[], [[1]]] := by
  have horder : Along (step firstSectorPaging) (InOrder firstSectorPaging) (new 0) promptStore := by
    decide +kernel
  refine ⟨horder, fun round hround => ?_, by decide +kernel⟩
  exact ((paging_misses_nothing firstSectorPaging 0 promptStore horder).2 round hround).2

/-- The op is stamped before the first round and inserted after it: the second round starts from a
bookmark after the op's timestamp, and the op is never returned. -/
theorem late_insert_missed :
    ∃ (before round : List PagerEvent) (op : MemoryOpRecord) (last : NewOps),
      op ∈ (run firstSectorPaging 0 before).opList ∧
        (∃ arc ∈ firstSectorPaging.commonArcSet.asArcs,
          arc.contains (firstSectorPaging.loc op.opId) = true) ∧
        firstSectorPaging.firstSince ≤ op.storedAt ∧
        last ∈ (run firstSectorPaging 0 (before ++ round)).finished.getLast? ∧
        (∀ r ∈ (run firstSectorPaging 0 (before ++ round)).finished, op.opId ∉ r.newOps) ∧
        op.storedAt < last.bookmark := by
  refine ⟨[.processIncomingOps [⟨[1], 0, [1, 2, 3]⟩], .stamp 0, .tick 10] ++ wholeRound [] ++
    [.insert 0, .tick 10], wholeRound [threeBytes 0], threeBytes 0, ⟨100, [], 0, 20⟩, ?_⟩
  decide +kernel

end Pager

end Gossip
end Kitsune2
