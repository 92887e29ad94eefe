import Setka.Dns.Containers

/-!
# `RemoveResolver` of an active request

`RemoveResolver` erases through three iterators of the request.  Those of `idMap` and of the time
map are links that hold in every run; the send list may hold a request twice, but the iterator of a
request always points to a cell of the list.

* `SendKept`            what holds of the send list in every run;
* `removeResolver_ok`   `RemoveResolver` of an active request removes it;
* `deref_of_cell`       a cell of a time map points to an active request.
-/

namespace Setka
namespace Tables

/-- The iterator of a request that waits to be sent points to a cell of the send list. -/
structure SendKept (tb : Tables) : Prop where
  kept : ∀ r ∈ tb.resolvers, ∀ c, sendCell r = some c → c ∈ tb.sendList
  nodes : (tb.sendList.map Cell.node).Nodup
  fresh : ∀ c ∈ tb.sendList, c.node < tb.nextNode

theorem sendKept_empty : SendKept {} where
  kept r hr := by cases hr
  nodes := .nil
  fresh c hc := by cases hc

variable {tb tb' : Tables} {x : ℕ} {r : Resolver}

theorem sendCell_val {c : Cell Unit ℕ} (h : sendCell r = some c) : c.val = r.addr := by
  obtain ⟨n, _, rfl⟩ := Option.map_eq_some_iff.mp h
  rfl

/-- the cell of a request that is not removed stays -/
theorem removeResolver_sendKept (hl : Linked tb) (hs : SendKept tb)
    (h : tb.removeResolver x = some (tb', some r)) : SendKept tb' := by
  have hp := (resolvers_perm hl.keys h)
  obtain ⟨_, sends, times, ids, he, _, _, htb⟩ := removeResolver_eq_some h
  have hsl : tb'.sendList = sends := by rw [htb]
  have hnode : tb'.nextNode = tb.nextNode := by
    rw [htb]
    exact setTimeMap_nextNode _ _ _
  have hsub : sends.Sublist tb.sendList := by
    unfold eraseSend at he
    split at he
    · cases he
      exact List.Sublist.refl _
    · exact Cell.eraseNode_sublist he
  refine ⟨fun r' hr' c hc => ?_, ?_, ?_⟩
  · have hmem := hs.kept r' (hp.mem_iff.mpr (List.mem_cons_of_mem _ hr')) c hc
    rw [hsl]
    unfold eraseSend at he
    split at he
    · cases he
      exact hmem
    · rename_i n hn
      have hrc : sendCell r = some ⟨n, (), r.addr⟩ := by
        unfold sendCell
        rw [hn]
        rfl
      have hr : r ∈ tb.resolvers := hp.mem_iff.mpr List.mem_cons_self
      rcases List.mem_cons.mp ((Cell.eraseNode_perm hs.nodes (hs.kept r hr _ hrc) he).mem_iff.mp
        hmem) with hcr | hc'
      · -- the two requests would have the same address
        have haddr := (hp.map Resolver.addr).nodup_iff.mp hl.addrs
        rw [List.map_cons, List.nodup_cons] at haddr
        have hval : r.addr = r'.addr := by
          rw [← sendCell_val hc, hcr]
        rw [hval] at haddr
        exact absurd (List.mem_map_of_mem hr') haddr.1
      · exact hc'
  · rw [hsl]
    exact hs.nodes.sublist (hsub.map Cell.node)
  · rw [hsl, hnode]
    exact fun c hc => hs.fresh c (hsub.subset hc)

theorem requeue_sendKept (hs : SendKept tb) (p : ℕ) : SendKept (tb.requeue p) := by
  refine ⟨fun r' hr' c hc => ?_, Cell.nodup_append_fresh hs.nodes hs.fresh (Nat.le_refl _),
    Cell.node_lt_append hs.fresh (Nat.le_succ _) (Nat.lt_succ_self _)⟩
  obtain ⟨r, hr, rfl⟩ := mem_requeue hr'
  split at hc
  · rename_i hp
    cases hc
    rw [← hp]
    exact List.mem_append_right _ List.mem_cons_self
  · exact List.mem_append_left _ (hs.kept r hr c hc)

/-- The head of the list leaves it, and its request is marked as sent. -/
theorem markSent_sendKept {c : Cell Unit ℕ} {rest : List (Cell Unit ℕ)} (hs : SendKept tb)
    (hc : tb.sendList = c :: rest) : SendKept (tb.markSent c.val) := by
  have htail : (tb.markSent c.val).sendList = rest := by
    unfold markSent
    rw [hc]
    rfl
  have hsub : rest.Sublist tb.sendList := by
    rw [hc]
    exact List.sublist_cons_self c rest
  refine ⟨fun r' hr' d hd => ?_, ?_, ?_⟩
  · obtain ⟨r, hr, rfl⟩ := mem_markSent hr'
    rw [htail]
    split at hd
    · cases hd
    · rename_i hp
      have hmem := hs.kept r hr d hd
      rw [hc] at hmem
      rcases List.mem_cons.mp hmem with rfl | hmem
      · exact absurd (sendCell_val hd).symm hp
      · exact hmem
  · rw [htail]
    exact hs.nodes.sublist (hsub.map Cell.node)
  · rw [htail]
    exact fun d hd => hs.fresh d (hsub.subset hd)

theorem setDns_sendKept (hs : SendKept tb) (p : ℕ) (a : Address) : SendKept (tb.setDns p a) := by
  refine { hs with kept := fun r' hr' c hc => ?_ }
  obtain ⟨r, hr, rfl⟩ := mem_modify hr'
  refine hs.kept r hr c ?_
  split at hc <;> exact hc

theorem Op.sendKept {C : Resolver → Prop} (h : Op C tb tb') (hl : Linked tb) (hs : SendKept tb) :
    SendKept tb' := by
  cases h with
  | removed x r tb' hr => exact removeResolver_sendKept hl hs hr
  | requeued r => exact requeue_sendKept hs r.addr
  | dnsSet p a => exact setDns_sendKept hs p a
  | sent c rest hc => exact markSent_sendKept hs hc
  | swapped => exact { hs with }

theorem Ops.sendKept {C : Resolver → Prop} (h : Ops C tb tb') (hl : Linked tb) (hs : SendKept tb) :
    Linked tb' ∧ SendKept tb' := by
  induction h with
  | refl => exact ⟨hl, hs⟩
  | tail _ hop ih => exact ⟨hop.linked ih.1, hop.sendKept ih.1 ih.2⟩

theorem register_sendKept (addr : ℕ) {q : Query} (id : UInt16) (curTime : UInt32)
    (hs : SendKept tb) (hx : tb.find q.hnr = none) :
    SendKept (tb.register addr q id curTime) := by
  refine ⟨fun r hr c hc => ?_,
    Cell.nodup_append_fresh hs.nodes hs.fresh (Nat.le_add_right _ 2),
    Cell.node_lt_append hs.fresh (Nat.le_add_right _ 3) (Nat.lt_succ_self _)⟩
  rcases List.mem_cons.mp ((register_resolvers addr id curTime hx).mem_iff.mp hr) with rfl | hr
  · cases hc
    exact List.mem_append_right _ List.mem_cons_self
  · exact List.mem_append_left _ (hs.kept r hr c hc)

/-! ## removal -/

/-- An active request is linked to a cell of its time map. -/
theorem cell_of_active (hl : Linked tb) (hr : r ∈ tb.resolvers) :
    ∃ c ∈ tb.timeMap r.timeMap, link c = timeLink r := by
  refine List.mem_map.mp ((hl.times r.timeMap).mem_iff.mpr (List.mem_map_of_mem ?_))
  exact List.mem_filter.mpr ⟨hr, decide_eq_true rfl⟩

/-- **`RemoveResolver` of an active request** erases through valid iterators only. -/
theorem removeResolver_ok (hl : Linked tb) (hs : SendKept tb) (hx : tb.find x = some r) :
    ∃ tb', tb.removeResolver x = some (tb', some r) := by
  have hr : r ∈ tb.resolvers := List.mem_map_of_mem (find_eq_some hx)
  obtain ⟨sends, hsends⟩ : ∃ sends, tb.eraseSend r = some sends := by
    unfold eraseSend
    split
    · exact ⟨_, rfl⟩
    · rename_i n hn
      refine Cell.eraseNode_of_mem (c := ⟨n, (), r.addr⟩) (hs.kept r hr _ ?_)
      unfold sendCell
      rw [hn]
      rfl
  obtain ⟨times, htimes⟩ : ∃ times,
      Cell.eraseNode (tb.timeMap r.timeMap) r.timeMapIter = some times := by
    obtain ⟨c, hc, hcr⟩ := cell_of_active hl hr
    have hnode : c.node = r.timeMapIter := congrArg Prod.fst hcr
    rw [← hnode]
    exact Cell.eraseNode_of_mem hc
  obtain ⟨ids, hids⟩ : ∃ ids, Cell.eraseNode tb.idMap r.idIter = some ids :=
    Cell.eraseNode_of_mem (hl.ids.mem_iff.mpr (List.mem_map_of_mem hr))
  unfold removeResolver
  rw [hx]
  dsimp only
  rw [hsends, htimes, hids]
  exact ⟨_, rfl⟩

/-- The object of an active request leads to the request. -/
theorem find_of_mem (hl : Linked tb) (hr : r ∈ tb.resolvers) : tb.find r.hnr = some r := by
  obtain ⟨e, he, rfl⟩ := List.mem_map.mp hr
  obtain ⟨r', hr'⟩ : ∃ r', tb.find e.2.hnr = some r' := by
    refine Option.isSome_iff_exists.mp ?_
    unfold find
    rw [Option.isSome_map, List.find?_isSome]
    exact ⟨e, he, beq_iff_eq.mpr (hl.owned e he).symm⟩
  have hmem := find_eq_some hr'
  have hfst : (e.2.hnr, r').1 = e.1 := hl.owned e he
  rw [hr', ← congrArg Prod.snd (List.inj_on_of_nodup_map hl.keys hmem he hfst)]

/-- A cell of a time map points to an active request, which is linked to this cell. -/
theorem deref_of_cell (hl : Linked tb) {m : TimeMap} {c : Cell UInt32 ℕ} (hc : c ∈ tb.timeMap m) :
    ∃ r, tb.deref c.val = some r ∧ tb.find r.hnr = some r ∧ r ∈ tb.resolvers ∧
      r.timeMap = m ∧ timeLink r = link c := by
  obtain ⟨r, hr, hrc⟩ := List.mem_map.mp ((hl.times m).mem_iff.mp (List.mem_map_of_mem hc))
  obtain ⟨hr, hm⟩ := List.mem_filter.mp hr
  have hval : r.addr = c.val := congrArg Prod.snd hrc
  obtain ⟨e, he, rfl⟩ := List.mem_map.mp hr
  refine ⟨e.2, ?_, find_of_mem hl hr, hr, of_decide_eq_true hm, hrc⟩
  obtain ⟨r', hr'⟩ : ∃ r', tb.deref c.val = some r' := by
    refine Option.isSome_iff_exists.mp ?_
    unfold deref
    rw [Option.isSome_map, List.find?_isSome]
    exact ⟨e, he, beq_iff_eq.mpr hval⟩
  obtain ⟨hmem, haddr⟩ := deref_eq_some hr'
  rw [hr', List.inj_on_of_nodup_map hl.addrs hmem hr (haddr.trans hval.symm)]

end Tables

namespace Sys

theorem sendKept {G : Sys → Action → Prop} {s : Sys} (hr : resolverSystem.Reach G s) (t : ℕ) :
    (s.threads t).tables.SendKept := by
  refine hr.invariant (I := fun s => ∀ t, (s.threads t).tables.SendKept) ?_ ?_ t
  · rintro s ⟨now, rfl⟩ t
    exact Tables.sendKept_empty
  · intro s act s' hr h _ hs t
    have hl := (stored hr).linked t
    have ht := ((sysMove hs).thread t).tables (C := fun _ => True) (locks hr).toCalls
      fun _ _ _ _ _ _ _ _ => trivial
    generalize (s'.threads t).tables = tb' at ht
    cases ht with
    | ops tb' hops => exact (hops.sendKept hl (h t)).2
    | emptied => exact Tables.sendKept_empty
    | registered q id hx _ _ => exact Tables.register_sendKept _ _ _ (h t) hx

end Sys
end Setka
