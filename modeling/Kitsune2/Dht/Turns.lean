import Kitsune2.Dht.NamedSectors

/-!
# Turns — an exchange, one turn at a time

What a snapshot is answered with depends on its kind: a minimal one and the sectors of a disc with a
more detailed snapshot, which takes no budget, and details with a list of ids.  `Remains` follows an
exchange from the snapshot that is on its way, and says what the two nodes still list.
-/

namespace Kitsune2
namespace Dht

open Api Lib

/-! ## Answers by kind -/

/-- The differences that a comparison with a snapshot can report. -/
inductive DiffOf : DhtSnapshot → SnapshotDiff → Prop
  | identical {theirs : DhtSnapshot} : DiffOf theirs .identical
  | cannotCompare {theirs : DhtSnapshot} : DiffOf theirs .cannotCompare
  | discMismatch {top : Bytes} {boundary : Int} {rings : List Bytes} :
      DiffOf (.minimal top boundary rings) .discMismatch
  | ringMismatches {top : Bytes} {boundary : Int} {rings : List Bytes} {mismatched : List Nat} :
      DiffOf (.minimal top boundary rings) (.ringMismatches mismatched)
  | discSectorMismatches {hashes : Std.ExtTreeMap Nat Bytes} {boundary : Int} {sectors : List Nat} :
      DiffOf (.discSectors hashes boundary) (.discSectorMismatches sectors)
  | discSectorSliceMismatches {hashes : NestedHashes} {boundary : Int}
      {slices : Std.ExtTreeMap Nat (List Nat)} :
      DiffOf (.discSectorDetails hashes boundary) (.discSectorSliceMismatches slices)
  | ringSectorMismatches {hashes : NestedHashes} {boundary : Int}
      {sectors : Std.ExtTreeMap Nat (List Nat)} :
      DiffOf (.ringSectorDetails hashes boundary) (.ringSectorMismatches sectors)

theorem diffOf_compare (ours theirs : DhtSnapshot) : DiffOf theirs (ours.compare theirs) := by
  unfold DhtSnapshot.compare
  split
  · exact .identical
  split
  · split
    · exact .cannotCompare
    split
    · exact .discMismatch
    split
    · exact .cannotCompare
    · exact .ringMismatches
  · split
    · exact .cannotCompare
    · exact .discSectorMismatches
  · split
    · exact .cannotCompare
    · exact .discSectorSliceMismatches
  · split
    · exact .cannotCompare
    split
    · exact .cannotCompare
    · exact .ringSectorMismatches
  · exact .cannotCompare

namespace DhtState

/-- What a snapshot can be answered with; the answer to details is the last one if we have sent our
own before. -/
inductive AnswerTo (isFinal : Bool) : DhtSnapshot → DhtSnapshotNextAction → Prop
  | identical {theirs : DhtSnapshot} : AnswerTo isFinal theirs .identical
  | cannotCompare {theirs : DhtSnapshot} : AnswerTo isFinal theirs .cannotCompare
  | discSectors {top : Bytes} {boundary boundary' : Int} {rings : List Bytes}
      {hashes : Std.ExtTreeMap Nat Bytes} :
      AnswerTo isFinal (.minimal top boundary rings) (.newSnapshot (.discSectors hashes boundary'))
  | rings {top : Bytes} {boundary boundary' : Int} {rings : List Bytes} {hashes : NestedHashes} :
      AnswerTo isFinal (.minimal top boundary rings)
        (.newSnapshot (.ringSectorDetails hashes boundary'))
  | details {sectors : Std.ExtTreeMap Nat Bytes} {boundary boundary' : Int} {hashes : NestedHashes} :
      AnswerTo isFinal (.discSectors sectors boundary)
        (.newSnapshot (.discSectorDetails hashes boundary'))
  | listed {theirs ours : DhtSnapshot} {opIds : List Bytes} (hdetails : isDetails theirs = true)
      (hfinal : isFinal = false) : AnswerTo isFinal theirs (.newSnapshotAndHashList ours opIds)
  | finished {theirs : DhtSnapshot} {opIds : List Bytes} (hdetails : isDetails theirs = true)
      (hfinal : isFinal = true) : AnswerTo isFinal theirs (.hashList opIds)

variable {loc : LocCb} {d : DhtState} {arcSet : ArcSet} {theirs : DhtSnapshot}
  {prev : Option DhtSnapshot}
  {budget budget' : Int} {action : DhtSnapshotNextAction} {used : Nat}

theorem answerTo_finishList (isFinal : Bool) (ours : DhtSnapshot) (found : Collected)
    (hdetails : isDetails theirs = true) :
    AnswerTo isFinal theirs (finishList isFinal ours found).1 := by
  cases isFinal with
  | false => exact .listed hdetails rfl
  | true => exact .finished hdetails rfl

theorem handleSnapshot_answerTo
    (h : d.handleSnapshot loc theirs prev arcSet budget = .ok (action, used)) :
    AnswerTo ((prev.map isDetails).getD false) theirs action := by
  unfold handleSnapshot at h
  split at h
  · cases h
  rcases bind_eq_ok_iff.mp h with ⟨ours, -, h⟩
  -- the kind of the difference says which snapshot the answer carries
  have hdiff := diffOf_compare ours theirs
  generalize ours.compare theirs = diff at h hdiff
  cases hdiff with
  | identical =>
      cases h
      exact .identical
  | cannotCompare =>
      cases h
      exact .cannotCompare
  | discMismatch =>
      rcases bind_eq_ok_iff.mp h with ⟨s, hs, h⟩
      rcases snapshotDiscSectors_eq_ok hs with ⟨hashes, boundary', rfl, -⟩
      cases h
      exact .discSectors
  | ringMismatches =>
      rcases bind_eq_ok_iff.mp h with ⟨s, hs, h⟩
      rcases snapshotRingSectorDetails_eq_ok hs with ⟨hashes, boundary', rfl, -⟩
      cases h
      exact .rings
  | discSectorMismatches =>
      rcases bind_eq_ok_iff.mp h with ⟨s, hs, h⟩
      rcases snapshotDiscSectorDetails_eq_ok hs with ⟨hashes, boundary', rfl, -⟩
      cases h
      exact .details
  | @discSectorSliceMismatches hashes boundary =>
      have hdetails : isDetails (.discSectorDetails hashes boundary) = true := rfl
      rcases bind_eq_ok_iff.mp h with ⟨found, -, h⟩
      have hanswer := answerTo_finishList ((prev.map isDetails).getD false) ours found hdetails
      rw [Except.ok.inj h] at hanswer
      exact hanswer
  | @ringSectorMismatches hashes boundary =>
      have hdetails : isDetails (.ringSectorDetails hashes boundary) = true := rfl
      rcases bind_eq_ok_iff.mp h with ⟨found, -, h⟩
      have hanswer := answerTo_finishList ((prev.map isDetails).getD false) ours found hdetails
      rw [Except.ok.inj h] at hanswer
      exact hanswer

/-- Only a list takes data from the budget. -/
theorem handleSnapshot_budget (hdetails : isDetails theirs = false) (budget budget' : Int) :
    d.handleSnapshot loc theirs prev arcSet budget =
      d.handleSnapshot loc theirs prev arcSet budget' := by
  unfold handleSnapshot
  split
  · rfl
  refine congrArg (d.matchingSnapshot theirs prev arcSet >>= ·) ?_
  funext ours
  have hdiff := diffOf_compare ours theirs
  generalize ours.compare theirs = diff at hdiff
  cases hdiff with
  | discSectorSliceMismatches => cases hdetails
  | ringSectorMismatches => cases hdetails
  | _ => rfl

/-! ## What is left of an exchange -/

/-- From a snapshot that is on its way the exchange ends, and until then the node that handles it and
the other one list these ids. -/
def Remains (loc : LocCb) (arcSet : ArcSet) (snapshot : DhtSnapshot) (handler other : Party)
    (byHandler byOther : List Bytes) : Prop :=
  ∃ turns out, exchange loc arcSet turns snapshot handler other = .ok (some out) ∧
    out.fromHandler = byHandler ∧ out.fromOther = byOther

/-- What is left after a turn, by its outcome. -/
inductive Left (loc : LocCb) (arcSet : ArcSet) (handler other : Party)
    (byHandler byOther : List Bytes) : DhtSnapshotNextAction → Prop
  | identical (hhandler : byHandler = []) (hother : byOther = []) :
      Left loc arcSet handler other byHandler byOther .identical
  | cannotCompare (hhandler : byHandler = []) (hother : byOther = []) :
      Left loc arcSet handler other byHandler byOther .cannotCompare
  | hashList (hother : byOther = []) :
      Left loc arcSet handler other byHandler byOther (.hashList byHandler)
  | newSnapshot {answer : DhtSnapshot}
      (hrest : Remains loc arcSet answer other { handler with kept := keep answer } byOther
        byHandler) :
      Left loc arcSet handler other byHandler byOther (.newSnapshot answer)
  | newSnapshotAndHashList {answer : DhtSnapshot} {opIds rest : List Bytes}
      (hhandler : byHandler = opIds ++ rest)
      (hrest : Remains loc arcSet answer other handler byOther rest) :
      Left loc arcSet handler other byHandler byOther (.newSnapshotAndHashList answer opIds)

variable {snapshot : DhtSnapshot} {handler other : Party} {byHandler byOther : List Bytes}

/-- The next turn of an exchange. -/
theorem Remains.turn (h : Remains loc arcSet snapshot handler other byHandler byOther) :
    ∃ action used,
      handler.dht.handleSnapshot loc snapshot handler.kept arcSet handler.budget =
        .ok (action, used) ∧
      AnswerTo ((handler.kept.map isDetails).getD false) snapshot action ∧
      Left loc arcSet handler other byHandler byOther action := by
  rcases h with ⟨turns, out, hrun, rfl, rfl⟩
  cases turns with
  | zero => cases hrun
  | succ turns =>
      rcases bind_eq_ok_iff.mp hrun with ⟨⟨action, used⟩, hturn, hrest⟩
      refine ⟨action, used, hturn, handleSnapshot_answerTo hturn, ?_⟩
      cases action with
      | identical =>
          cases hrest
          exact .identical rfl rfl
      | cannotCompare =>
          cases hrest
          exact .cannotCompare rfl rfl
      | hashList opIds =>
          cases hrest
          exact .hashList rfl
      -- the exchange goes on with the parties exchanged
      | newSnapshot answer =>
          rcases bind_eq_ok_iff.mp hrest with ⟨rest, hnext, hout⟩
          cases rest with
          | none => cases hout
          | some rest =>
              cases hout
              exact .newSnapshot ⟨turns, rest, hnext, rfl, rfl⟩
      | newSnapshotAndHashList answer opIds =>
          rcases bind_eq_ok_iff.mp hrest with ⟨rest, hnext, hout⟩
          cases rest with
          | none => cases hout
          | some rest =>
              cases hout
              exact .newSnapshotAndHashList rfl ⟨turns, rest, hnext, rfl, rfl⟩

/-- An exchange that ends, from its start. -/
theorem remains_start {turns : Nat} {first second : Party} {out : Outcome}
    (h : startExchange loc arcSet turns first second = .ok (some out)) :
    ∃ minimal, first.dht.snapshotMinimal arcSet = .ok minimal ∧
      Remains loc arcSet minimal second first out.fromHandler out.fromOther := by
  rcases bind_eq_ok_iff.mp h with ⟨minimal, hminimal, hrun⟩
  exact ⟨minimal, hminimal, turns, out, hrun, rfl, rfl⟩

end DhtState

end Dht
end Kitsune2
