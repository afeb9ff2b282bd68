import Kitsune2.Gossip.RoundExchange

/-!
# RoundDelivery — a round requests what the nodes lack

The exchange lists every op that one node holds and the other one lacks, in the disc, or else in the
rings; so a round between two nodes with accurate DHTs ends with all of these requested from the node
that holds them.
-/

namespace Kitsune2
namespace Gossip

open Api Lib Dht

variable {Url : Type}

namespace RoundOfTwo

variable {loc : LocCb} {initiatorUrl acceptorUrl : Url} {a : Agenda} {out : DhtState.Outcome}
  {gI gA : K2Gossip Url} {p : StoredOp → Bool}

/-- Every op of the region that a node lacks has been requested from the node that holds it. -/
def Delivers (initiatorUrl acceptorUrl : Url) (a : Agenda) (p : StoredOp → Bool)
    (gI gA : K2Gossip Url) : Prop :=
  ∀ op, p op = true →
    (op ∈ a.initiatorDht.store.stored → op ∉ a.acceptorDht.store.stored →
      gA.Requested initiatorUrl op.opId) ∧
    (op ∈ a.acceptorDht.store.stored → op ∉ a.initiatorDht.store.stored →
      gI.Requested acceptorUrl op.opId)

theorem delivers_of_listsAll (h : DhtState.ListsAll p a.acceptorDht a.initiatorDht out)
    (hall : AllRequested initiatorUrl acceptorUrl out gI gA) :
    Delivers initiatorUrl acceptorUrl a p gI gA := by
  intro op hop
  refine ⟨?_, ?_⟩
  · intro hmem hnot
    exact hall.1 _ ((h op hop).2 hmem hnot)
  · intro hmem hnot
    exact hall.2 _ ((h op hop).1 hmem hnot)

/-- Where both nodes hold the same ops there is nothing to deliver. -/
theorem delivers_of_sameOn
    (h : Dht.SameOn p a.acceptorDht.store.stored a.initiatorDht.store.stored) :
    Delivers initiatorUrl acceptorUrl a p gI gA := by
  intro op hop
  refine ⟨?_, ?_⟩
  · intro hmem hnot
    exact absurd ((h op hop).mpr hmem) hnot
  · intro hmem hnot
    exact absurd ((h op hop).mp hmem) hnot

variable [DecidableEq Url]

/-- A round of two nodes with accurate DHTs, whose hashes tell different sets of ops apart and whose
budgets are larger than all data: once none of its messages is in flight, every op of the disc that
one node lacks has been requested, and so has every op of the rings, if none of the disc is
missing. -/
theorem round_delivers (loc : LocCb) {initiatorUrl acceptorUrl : Url} {a : Agenda} {host : Host}
    {session : Bytes} {tieBreaker : Nat} {initiator initiator' acceptor : K2Gossip Url}
    {m : InitiateMessage}
    (hinitiate : initiateGossip host session tieBreaker acceptorUrl initiator =
      (.ok (some m), initiator'))
    (hsingle : acceptor.initiatedWith initiatorUrl = none)
    (hslot : acceptor.acceptedRoundStates.lookup initiatorUrl = none) {n : Nat} {t t' : Int}
    (hpeers : DhtState.Peers loc n t t' a.arcSet a.acceptorDht a.initiatorDht) {budgetI budgetA : Nat}
    (hbudgetI : a.initiatorBudget = budgetI) (hbudgetA : a.acceptorBudget = budgetA)
    (hampleI : DhtState.Ample loc t a.arcSet budgetI a.initiatorDht)
    (hampleA : DhtState.Ample loc t a.arcSet budgetA a.acceptorDht)
    (hdisc : DiscTells loc DhtState.timeFactor t a.arcSet a.acceptorDht.store.stored
      a.initiatorDht.store.stored)
    (hrings : RingsTell loc DhtState.timeFactor t a.arcSet a.acceptorDht.store.stored
      a.initiatorDht.store.stored)
    (events : List (RoundEvent Url))
    (hrun : Along (step loc initiatorUrl acceptorUrl) (Carries initiatorUrl acceptorUrl a)
      (start initiator' acceptor m) events) :
    let s := events.foldl (step loc initiatorUrl acceptorUrl) (start initiator' acceptor m)
    s.toAcceptor = [] → s.toInitiator = [] →
      Delivers initiatorUrl acceptorUrl a (discRegion loc DhtState.timeFactor t a.arcSet) s.initiator
          s.acceptor ∧
        (SameOn (discRegion loc DhtState.timeFactor t a.arcSet) a.acceptorDht.store.stored
            a.initiatorDht.store.stored →
          ∀ slot ∈ slotsAt DhtState.timeFactor t,
            Delivers initiatorUrl acceptorUrl a (ringRegion loc a.arcSet slot) s.initiator
              s.acceptor) := by
  intro s hA hI
  have hs := hpeers.syncable
  have hweightI := hampleI.cells_lt a.acceptorDht a.initiatorDht
  have hweightA := hampleA.cells_lt a.acceptorDht a.initiatorDht
  rcases hs.exchange_ends budgetA budgetI 0 (lt_trans hweightA hampleA.fits)
    (lt_trans hweightI hampleI.fits) with ⟨out, hout, hresult⟩
  have hexchange : DhtState.startExchange loc a.arcSet 4 (a.acceptor none) (a.initiator none) =
      .ok (some out) := by
    unfold Agenda.acceptor Agenda.initiator
    rw [hbudgetI, hbudgetA]
    exact hout
  have hend : Carried loc initiatorUrl acceptorUrl a out session s :=
    hrun.invariant (carried_start hinitiate hsingle hslot hexchange) fun _ _ h hcarries =>
      h.step hcarries
  have hall := hend.of_quiet hA hI
  -- the hashes of the discs differ exactly if their ops do
  have hdiffers : Dht.DiscDiffers loc DhtState.timeFactor t a.arcSet a.acceptorDht.store.stored
      a.initiatorDht.store.stored ↔ ¬ SameOn (discRegion loc DhtState.timeFactor t a.arcSet)
        a.acceptorDht.store.stored a.initiatorDht.store.stored := by
    constructor
    · intro hne hsame
      exact hne (regionXor_of_sameOn (DhtState.nodup_stored hpeers.leftOnce)
        (DhtState.nodup_stored hpeers.rightOnce) hsame)
    · intro hnot heq
      exact hnot (hdisc.disc heq)
  refine ⟨?_, ?_⟩
  · by_cases hsame : SameOn (discRegion loc DhtState.timeFactor t a.arcSet)
      a.acceptorDht.store.stored a.initiatorDht.store.stored
    · exact delivers_of_sameOn hsame
    · exact delivers_of_listsAll (hresult.listsAll_disc hweightA hweightI hdisc
        (hdiffers.mpr hsame)) hall
  · intro hsame slot hslot
    exact delivers_of_listsAll (hresult.listsAll_ring hweightA hweightI hrings
      (fun hd => hdiffers.mp hd hsame) hslot) hall

/-! ## The op of one sector -/

/-- The op that the node that is ahead has stored. -/
def sectorOp : OpRecord := ⟨⟨[1], 5000000⟩, 3⟩

theorem behind_accurate : behindDht.Accurate (fun _ => 0) roundTime := by
  refine ⟨rfl, ?_, ?_⟩
  · simp [behindDht, DhtState.laidOutDht, DhtState.env]
  · intro i tp htp
    simp only [behindDht, DhtState.laidOutDht, DhtState.env, List.getElem?_map] at htp
    rcases Option.map_eq_some_iff.mp htp with ⟨j, hj, rfl⟩
    rcases List.getElem?_eq_some_iff.mp hj with ⟨_, hget⟩
    rw [List.getElem_range] at hget
    subst hget
    refine ⟨⟨rfl, rfl, rfl, rfl⟩, by decide, by decide, rfl, rfl, ?_⟩
    intro k
    have hnone : (optHash (fullXor (fun _ => 0) DhtState.timeFactor (sectorArc i) [] k)) = none := rfl
    split
    · exact hnone.symm ▸ Std.ExtTreeMap.getElem?_empty
    · exact Std.ExtTreeMap.getElem?_empty

/-- The node that is ahead has stored the op and informed its DHT of it. -/
theorem ahead_stored :
    Returns (DhtState.step (fun _ => 0) (.storeAndInform roundTime [sectorOp])) behindDht ()
      aheadDht := by
  have hreturns : ∃ d', Returns (DhtState.step (fun _ => 0) (.storeAndInform roundTime [sectorOp]))
      behindDht () d' := by
    refine behind_accurate.storeAndInform_returns roundTime rfl ?_ Nat.one_pos ?_ ?_
    · exact List.forall_mem_nil _
    · simp [sectorOp]
    · simp [behindDht, DhtState.laidOutDht, OpStore.ids, OpStore.empty]
  rcases hreturns with ⟨d', hret⟩
  have hstart : { behindDht with store := behindDht.store.processIncomingOps [sectorOp] } =
      DhtState.laidOutDht roundTime [sectorOp] := by
    rw [Dht.processIncomingOps_new [sectorOp] behindDht.store
      (by simp [behindDht, DhtState.laidOutDht, OpStore.ids, OpStore.empty])]
    rfl
  have hinform : Returns (DhtState.informOpsStored (fun _ => 0) ([sectorOp].map fun op => op.toStoredOp))
      { behindDht with store := behindDht.store.processIncomingOps [sectorOp] } () d' :=
    DhtState.returns_storeAndInform_iff.mp hret
  rw [hstart] at hinform
  have hsame : aheadDht = d' := congrArg Prod.snd hinform
  rw [hsame]
  exact hret

theorem sector_peers :
    DhtState.Peers (fun _ => 0) 1 roundTime roundTime firstSector behindDht aheadDht := by
  have hbehind : behindDht.store.opList = [] := rfl
  have hstored := behind_accurate.storeAndInform (by simp [sectorOp])
    (by simp [behindDht, DhtState.laidOutDht, OpStore.ids, OpStore.empty]) ahead_stored
  rcases hstored with ⟨hacc, hlist, hreliable⟩
  rw [hbehind, List.nil_append] at hlist
  refine ⟨behind_accurate, hacc, ⟨rfl, rfl⟩, List.forall_mem_nil _, ?_, by decide, rfl, hreliable rfl,
    List.nodup_nil, ?_, fun x hx => by cases hx⟩
  · intro op hop
    unfold OpStore.stored at hop
    rw [hlist] at hop
    cases List.mem_singleton.mp hop
    rfl
  · unfold OpStore.ids
    rw [hlist]
    exact List.nodup_singleton _

theorem ahead_opList : aheadDht.store.opList = [sectorOp] := by
  rcases behind_accurate.storeAndInform (by simp [sectorOp])
    (by simp [behindDht, DhtState.laidOutDht, OpStore.ids, OpStore.empty]) ahead_stored
    with ⟨-, hlist, -⟩
  exact hlist

theorem sectorOp_stored : sectorOp.toStoredOp ∈ aheadDht.store.stored := by
  unfold OpStore.stored
  rw [ahead_opList]
  exact List.mem_singleton_self _

/-- The op is told apart from nothing. -/
theorem tells_sectorOp (p : StoredOp → Bool) :
    Tells p behindDht.store.stored aheadDht.store.stored := by
  have hahead : aheadDht.store.stored = [sectorOp.toStoredOp] := congrArg (List.map _) ahead_opList
  rw [hahead]
  intro heq op hop
  by_cases hp : p sectorOp.toStoredOp = true
  · unfold regionXor at heq
    rw [List.filter_cons_of_pos hp] at heq
    exact absurd heq (by simp [sectorOp, behindDht, DhtState.laidOutDht, OpStore.empty, OpStore.stored])
  · constructor
    · intro hmem
      cases hmem
    · intro hmem
      rw [List.mem_singleton.mp hmem] at hop
      exact absurd hop hp

theorem ample_sectorOp {dht : Dht.DhtState}
    (hlist : dht.store.opList = [] ∨ dht.store.opList = [sectorOp]) :
    DhtState.Ample (fun _ => 0) roundTime firstSector (limitedConfig 10).maxGossipOpBytes dht := by
  have hbytes : ∀ c, Dht.cellBytes (fun _ => 0) dht.store c ≤ 3 := by
    intro c
    refine le_trans (DhtState.cellBytes_le c) ?_
    rcases hlist with hlist | hlist
    · rw [hlist]
      decide
    · rw [hlist]
      decide
  have hsum : ∀ cells : List Dht.Cell,
      DhtState.weightOf (fun _ => 0) dht.store cells ≤ cells.length * 3 := by
    intro cells
    have hle := List.sum_le_card_nsmul (cells.map (Dht.cellBytes (fun _ => 0) dht.store)) 3 (by
      intro x hx
      rcases List.mem_map.mp hx with ⟨c, _, rfl⟩
      exact hbytes c)
    simpa [DhtState.weightOf] using hle
  refine ⟨lt_of_le_of_lt (hsum _) ?_, lt_of_le_of_lt (hsum _) ?_, by decide⟩
  · decide +kernel
  · decide +kernel

/-- The node that is behind requests the op from the one that is ahead. -/
theorem round_delivers_sector :
    (sectorEnd (some [9]) behindDht behindDht).acceptor.Requested 1 sectorOp.opId := by
  have hahead : sectorAgenda.initiatorDht = aheadDht := by simp only [sectorAgenda]
  have hbehind : sectorAgenda.acceptorDht = behindDht := by simp only [sectorAgenda]
  have hdelivered := round_delivers (fun _ => 0) (a := sectorAgenda) sectorInitiate_sent rfl rfl
    (by rw [hahead, hbehind]; exact sector_peers) rfl rfl
    (by rw [hahead]; exact ample_sectorOp (Or.inr ahead_opList))
    (by rw [hbehind]; exact ample_sectorOp (Or.inl rfl))
    (by
      rw [hahead, hbehind]
      exact ⟨tells_sectorOp _, fun _ _ => tells_sectorOp _, fun _ _ _ _ => tells_sectorOp _⟩)
    (by
      rw [hahead, hbehind]
      exact ⟨fun _ _ => tells_sectorOp _, fun _ _ _ _ => tells_sectorOp _⟩)
    _ sectorRun_carries (by decide +kernel) (by decide +kernel)
  refine (hdelivered.1 sectorOp.toStoredOp (by decide +kernel)).1 ?_ ?_
  · rw [hahead]
    exact sectorOp_stored
  · rw [hbehind]
    exact List.not_mem_nil

end RoundOfTwo

end Gossip
end Kitsune2
