import Setka.Dns.LocalMoves

/-!
# The links between the containers

Four containers hold pointers to the requests that `resolversMap` owns.

* `Linked`     what `idMap` and the two time maps hold, in terms of the active requests;
* `SendLinked` the same for `sendList`;
* `Op.linked`, `Op.sendLinked`, `register_linked`, `register_sendLinked`   each operation on the
               tables keeps them; `sendList` only if no request is moved to the A record while it
               waits to be sent.

The contents of a container are given up to a permutation, as the image of the list of the active
requests.
-/

namespace Setka
namespace Tables

/-- the active requests -/
def resolvers (tb : Tables) : List Resolver := tb.resolversMap.map Prod.snd

/-- the cell of `idMap` a request is linked to -/
def idCell (r : Resolver) : Cell UInt16 ℕ := ⟨r.idIter, r.id, r.addr⟩

/-- node and value of the cell of a time map a request is linked to -/
def timeLink (r : Resolver) : ℕ × ℕ := (r.timeMapIter, r.addr)

/-- the cell of `sendList` a request is linked to, if it has not been sent -/
def sendCell (r : Resolver) : Option (Cell Unit ℕ) := r.sendIter.map (fun n => ⟨n, (), r.addr⟩)

def link (c : Cell UInt32 ℕ) : ℕ × ℕ := (c.node, c.val)

structure Linked (tb : Tables) : Prop where
  keys : (tb.resolversMap.map Prod.fst).Nodup
  owned : ∀ e ∈ tb.resolversMap, e.2.hnr = e.1
  addrs : (tb.resolvers.map Resolver.addr).Nodup
  ids : tb.idMap.Perm (tb.resolvers.map idCell)
  idNodes : (tb.idMap.map Cell.node).Nodup
  idFresh : ∀ c ∈ tb.idMap, c.node < tb.nextNode
  times : ∀ m, ((tb.timeMap m).map link).Perm
    ((tb.resolvers.filter (fun r => r.timeMap = m)).map timeLink)
  timeNodes : ∀ m, ((tb.timeMap m).map Cell.node).Nodup
  timeFresh : ∀ m, ∀ c ∈ tb.timeMap m, c.node < tb.nextNode
  sorted : ∀ m, Cell.SortedKeys (tb.timeMap m)

structure SendLinked (tb : Tables) : Prop where
  sends : tb.sendList.Perm (tb.resolvers.filterMap sendCell)
  sendNodes : (tb.sendList.map Cell.node).Nodup
  sendFresh : ∀ c ∈ tb.sendList, c.node < tb.nextNode

theorem linked_empty : Linked {} where
  keys := .nil
  owned e he := by cases he
  addrs := .nil
  ids := .nil
  idNodes := .nil
  idFresh c hc := by cases hc
  times m := by cases m <;> exact .nil
  timeNodes m := by cases m <;> exact .nil
  timeFresh m c hc := by cases m <;> cases hc
  sorted m := by cases m <;> exact .nil

theorem sendLinked_empty : SendLinked {} where
  sends := .nil
  sendNodes := .nil
  sendFresh c hc := by cases hc

/-! ## the time maps -/

@[simp] theorem setTimeMap_self (tb : Tables) (m : TimeMap) (l : List (Cell UInt32 ℕ)) :
    (tb.setTimeMap m l).timeMap m = l := by cases m <;> rfl

theorem setTimeMap_timeMap (tb : Tables) (m m' : TimeMap) (l : List (Cell UInt32 ℕ)) :
    (tb.setTimeMap m l).timeMap m' = if m' = m then l else tb.timeMap m' := by
  cases m <;> cases m' <;> rfl

@[simp] theorem setTimeMap_resolversMap (tb : Tables) (m : TimeMap) (l : List (Cell UInt32 ℕ)) :
    (tb.setTimeMap m l).resolversMap = tb.resolversMap := by cases m <;> rfl

@[simp] theorem setTimeMap_timeMap1 (tb : Tables) (m : TimeMap) (l : List (Cell UInt32 ℕ)) :
    (tb.setTimeMap m l).timeMap1 = tb.timeMap1 := by cases m <;> rfl

@[simp] theorem setTimeMap_nextNode (tb : Tables) (m : TimeMap) (l : List (Cell UInt32 ℕ)) :
    (tb.setTimeMap m l).nextNode = tb.nextNode := by cases m <;> rfl

/-! ## lookups -/

variable {tb tb' : Tables} {x : ℕ} {r : Resolver}

theorem find_eq_some (h : tb.find x = some r) : (x, r) ∈ tb.resolversMap := by
  unfold find at h
  obtain ⟨e, he, rfl⟩ := Option.map_eq_some_iff.mp h
  have hx : e.1 = x := by simpa using List.find?_some he
  rw [← hx]
  exact List.mem_of_find?_eq_some he

theorem find_eq_none : tb.find x = none ↔ x ∉ tb.resolversMap.map Prod.fst := by
  unfold find
  rw [Option.map_eq_none_iff, List.find?_eq_none]
  simp only [beq_iff_eq, List.mem_map, not_exists, not_and]

theorem find_empty (x : ℕ) : find {} x = none := rfl

theorem deref_eq_some (h : tb.deref x = some r) : r ∈ tb.resolvers ∧ r.addr = x := by
  refine ⟨?_, addr_of_deref h⟩
  unfold deref at h
  obtain ⟨e, he, rfl⟩ := Option.map_eq_some_iff.mp h
  exact List.mem_map_of_mem (List.mem_of_find?_eq_some he)

/-! ## removal -/

theorem removeResolver_eq_none (h : tb.removeResolver x = some (tb', none)) :
    tb' = tb ∧ tb.find x = none := by
  unfold removeResolver at h
  split at h
  · rename_i hx
    cases h
    exact ⟨rfl, hx⟩
  · obtain ⟨sl, _, h⟩ := Option.bind_eq_some_iff.mp h
    obtain ⟨tm, _, h⟩ := Option.bind_eq_some_iff.mp h
    obtain ⟨im, _, h⟩ := Option.bind_eq_some_iff.mp h
    cases h

theorem removeResolver_eq_some (h : tb.removeResolver x = some (tb', some r)) :
    tb.find x = some r ∧ ∃ sends times ids, tb.eraseSend r = some sends ∧
      Cell.eraseNode (tb.timeMap r.timeMap) r.timeMapIter = some times ∧
      Cell.eraseNode tb.idMap r.idIter = some ids ∧
      tb' = { tb.setTimeMap r.timeMap times with
              sendList := sends, idMap := ids
              resolversMap := tb.resolversMap.filter (fun e => e.1 ≠ x) } := by
  unfold removeResolver at h
  split at h
  · cases h
  · rename_i r0 hx
    obtain ⟨sl, hs, h⟩ := Option.bind_eq_some_iff.mp h
    obtain ⟨tm, ht, h⟩ := Option.bind_eq_some_iff.mp h
    obtain ⟨im, hi, h⟩ := Option.bind_eq_some_iff.mp h
    cases h
    exact ⟨hx, sl, tm, im, hs, ht, hi, rfl⟩

/-- With distinct keys, taking a key out of the owner map takes out one request. -/
theorem map_perm (hk : (tb.resolversMap.map Prod.fst).Nodup) (hx : tb.find x = some r) :
    tb.resolversMap.Perm ((x, r) :: tb.resolversMap.filter (fun e => e.1 ≠ x)) := by
  have hmem := find_eq_some hx
  generalize tb.resolversMap = l at hk hmem
  induction l with
  | nil => cases hmem
  | cons d l ih =>
    rw [List.map_cons, List.nodup_cons] at hk
    rcases List.mem_cons.mp hmem with rfl | hl
    · rw [List.filter_cons_of_neg (by simp), List.filter_eq_self.mpr]
      intro e he
      have hex : e.1 ≠ x := fun heq => hk.1 (List.mem_map.mpr ⟨e, he, heq⟩)
      simpa using hex
    · have hd : d.1 ≠ x := fun heq => hk.1 (heq ▸ List.mem_map_of_mem hl)
      rw [List.filter_cons_of_pos (by simpa using hd)]
      exact ((ih hk.2 hl).cons d).trans (List.Perm.swap _ _ _)

theorem resolvers_perm (hk : (tb.resolversMap.map Prod.fst).Nodup)
    (h : tb.removeResolver x = some (tb', some r)) : tb.resolvers.Perm (r :: tb'.resolvers) := by
  obtain ⟨hx, _, _, _, _, _, _, rfl⟩ := removeResolver_eq_some h
  exact (map_perm hk hx).map Prod.snd

/-- The request that is removed is the one the pointer points to. -/
theorem removed_of_deref {p : ℕ} {r' : Resolver} (hl : Linked tb) (hd : tb.deref p = some r)
    (h : tb.removeResolver r.hnr = some (tb', some r')) : r' = r := by
  have hr := (deref_eq_some hd).1
  obtain ⟨e, he, rfl⟩ := List.mem_map.mp hr
  have hx := find_eq_some (removeResolver_eq_some h).1
  rw [hl.owned e he] at hx
  exact congrArg Prod.snd (List.inj_on_of_nodup_map hl.keys hx he rfl)

theorem removeResolver_subset (h : tb.removeResolver x = some (tb', some r)) :
    tb'.resolvers ⊆ tb.resolvers := by
  obtain ⟨_, _, _, _, _, _, _, rfl⟩ := removeResolver_eq_some h
  exact (List.filter_sublist.map Prod.snd).subset

/-- No request of the object is left. -/
theorem removeResolver_hnr (hl : Linked tb) (h : tb.removeResolver x = some (tb', some r)) :
    ∀ r' ∈ tb'.resolvers, r'.hnr ≠ x := by
  obtain ⟨_, _, _, _, _, _, _, rfl⟩ := removeResolver_eq_some h
  intro r' hr'
  obtain ⟨e, he, rfl⟩ := List.mem_map.mp hr'
  obtain ⟨he, hx⟩ := List.mem_filter.mp he
  rw [hl.owned e he]
  exact of_decide_eq_true hx

theorem removeResolver_linked (hl : Linked tb) (h : tb.removeResolver x = some (tb', some r)) :
    Linked tb' := by
  have hp := resolvers_perm hl.keys h
  obtain ⟨hx, sends, times, ids, hs, ht, hi, htb⟩ := removeResolver_eq_some h
  have hmap : tb'.resolversMap = tb.resolversMap.filter (fun e => e.1 ≠ x) := by rw [htb]
  have hid : tb'.idMap = ids := by rw [htb]
  have hnode : tb'.nextNode = tb.nextNode := by
    rw [htb]
    exact setTimeMap_nextNode _ _ _
  have htm : ∀ m, tb'.timeMap m = if m = r.timeMap then times else tb.timeMap m := by
    intro m
    rw [htb]
    exact setTimeMap_timeMap _ _ _ _
  -- the erased cell of the time map is the one the request is linked to
  have hlink : ((tb.timeMap r.timeMap).map link).Perm (timeLink r ::
      (tb'.resolvers.filter (fun r' => r'.timeMap = r.timeMap)).map timeLink) := by
    refine (hl.times r.timeMap).trans ?_
    have := (hp.filter (fun r' => r'.timeMap = r.timeMap)).map timeLink
    rwa [List.filter_cons_of_pos (by simp), List.map_cons] at this
  obtain ⟨c, hc, hcr⟩ := List.mem_map.mp (hlink.mem_iff.mpr List.mem_cons_self)
  have hcn : c.node = r.timeMapIter := congrArg Prod.fst hcr
  have htimes : (tb.timeMap r.timeMap).Perm (c :: times) := by
    rw [← hcn] at ht
    exact Cell.eraseNode_perm (hl.timeNodes _) hc ht
  have hids : ids.Perm (tb'.resolvers.map idCell) :=
    Cell.eraseNode_rest (c := idCell r) hl.idNodes (hl.ids.trans (hp.map idCell)) hi
  refine ⟨?_, ?_, ?_, ?_, ?_, ?_, ?_, ?_, ?_, ?_⟩
  · rw [hmap]
    exact hl.keys.sublist (List.filter_sublist.map Prod.fst)
  · rw [hmap]
    exact fun e he => hl.owned e (List.mem_of_mem_filter he)
  · exact (List.nodup_cons.mp ((hp.map Resolver.addr).nodup_iff.mp hl.addrs)).2
  · rw [hid]
    exact hids
  · rw [hid]
    exact Cell.nodup_eraseNode hl.idNodes hi
  · rw [hid, hnode]
    exact fun d hd => hl.idFresh d (Cell.mem_of_mem_eraseNode hi hd)
  · intro m
    rw [htm]
    split
    · rename_i hm
      subst hm
      have := (htimes.map link).symm.trans hlink
      rw [List.map_cons, hcr] at this
      exact this.cons_inv
    · rename_i hm
      refine (hl.times m).trans ?_
      have := (hp.filter (fun r' => r'.timeMap = m)).map timeLink
      rwa [List.filter_cons_of_neg (by simpa using Ne.symm hm)] at this
  · intro m
    rw [htm]
    split
    · exact Cell.nodup_eraseNode (hl.timeNodes _) ht
    · exact hl.timeNodes m
  · intro m d hd
    rw [htm] at hd
    rw [hnode]
    split at hd
    · exact hl.timeFresh _ d (Cell.mem_of_mem_eraseNode ht hd)
    · exact hl.timeFresh m d hd
  · intro m
    rw [htm]
    split
    · exact Cell.pairwise_eraseNode (hl.sorted _) ht
    · exact hl.sorted m

/-! ## writing to one request -/

/-- Writing to the request a pointer points to replaces this request. -/
theorem modify_perm {f : Resolver → Resolver} (ha : (tb.resolvers.map Resolver.addr).Nodup)
    (hr : r ∈ tb.resolvers) :
    ∃ rest, tb.resolvers.Perm (r :: rest) ∧ (tb.modify r.addr f).resolvers.Perm (f r :: rest) := by
  have hmap : (tb.modify r.addr f).resolvers =
      tb.resolvers.map (fun r' => if r'.addr = r.addr then f r' else r') := by
    unfold resolvers modify
    rw [List.map_map, List.map_map]
    refine List.map_congr_left fun e _ => ?_
    dsimp only [Function.comp_apply]
    split <;> rfl
  have hp := List.perm_cons_erase hr
  have hn := (hp.map Resolver.addr).nodup_iff.mp ha
  rw [List.map_cons, List.nodup_cons] at hn
  refine ⟨_, hp, ?_⟩
  rw [hmap]
  refine (hp.map _).trans ?_
  rw [List.map_cons, if_pos rfl]
  refine List.Perm.cons _ (List.Perm.of_eq ?_)
  refine (List.map_congr_left fun r' hr' => ?_).trans (List.map_id _)
  have hne : r'.addr ≠ r.addr := fun heq => hn.1 (List.mem_map.mpr ⟨r', hr', heq⟩)
  rw [if_neg hne]
  rfl

theorem mem_modify {tb : Tables} {p : ℕ} {f : Resolver → Resolver} {r' : Resolver}
    (h : r' ∈ (tb.modify p f).resolvers) :
    ∃ r ∈ tb.resolvers, r' = if r.addr = p then f r else r := by
  obtain ⟨e', he', rfl⟩ := List.mem_map.mp h
  obtain ⟨e, he, rfl⟩ := List.mem_map.mp he'
  refine ⟨e.2, List.mem_map_of_mem he, ?_⟩
  split <;> rfl

theorem mem_requeue {tb : Tables} {p : ℕ} {r' : Resolver} (h : r' ∈ (tb.requeue p).resolvers) :
    ∃ r ∈ tb.resolvers, r' = if r.addr = p then
      { r with recordType := recordA, sendIter := some tb.nextNode } else r :=
  mem_modify (f := fun r => { r with recordType := recordA, sendIter := some tb.nextNode }) h

theorem mem_markSent {tb : Tables} {p : ℕ} {r' : Resolver} (h : r' ∈ (tb.markSent p).resolvers) :
    ∃ r ∈ tb.resolvers, r' = if r.addr = p then { r with sendIter := none } else r :=
  mem_modify (f := fun r => { r with sendIter := none }) h

/-- A write that keeps what the links consist of keeps every image of the active requests. -/
theorem modify_map {α : Type} (tb : Tables) (p : ℕ) {f : Resolver → Resolver} {g : Resolver → α}
    (hg : ∀ r, g (f r) = g r) : (tb.modify p f).resolvers.map g = tb.resolvers.map g := by
  unfold resolvers modify
  rw [List.map_map, List.map_map, List.map_map]
  refine List.map_congr_left fun e _ => ?_
  dsimp only [Function.comp_apply]
  split
  · exact hg e.2
  · rfl

theorem modify_keys (tb : Tables) (p : ℕ) (f : Resolver → Resolver) :
    (tb.modify p f).resolversMap.map Prod.fst = tb.resolversMap.map Prod.fst := by
  unfold modify
  rw [List.map_map]
  refine List.map_congr_left fun e _ => ?_
  dsimp only [Function.comp_apply]
  split <;> rfl

theorem modify_linked {p : ℕ} {f : Resolver → Resolver} (hl : Linked tb)
    (hf : ∀ r, idCell (f r) = idCell r ∧ timeLink (f r) = timeLink r ∧
      (f r).timeMap = r.timeMap ∧ (f r).hnr = r.hnr) : Linked (tb.modify p f) where
  keys := by
    rw [modify_keys]
    exact hl.keys
  owned e he := by
    obtain ⟨d, hd, rfl⟩ := List.mem_map.mp he
    split
    · exact (hf d.2).2.2.2.trans (hl.owned d hd)
    · exact hl.owned d hd
  addrs := by
    have h : (tb.modify p f).resolvers.map Resolver.addr = tb.resolvers.map Resolver.addr :=
      modify_map tb p fun r => congrArg Cell.val (hf r).1
    rw [h]
    exact hl.addrs
  ids := by
    rw [modify_map tb p fun r => (hf r).1]
    exact hl.ids
  idNodes := hl.idNodes
  idFresh := hl.idFresh
  times m := by
    have hm : ((tb.modify p f).resolvers.filter (fun r => r.timeMap = m)).map timeLink =
        (tb.resolvers.filter (fun r => r.timeMap = m)).map timeLink := by
      have h := congrArg (fun l => (l.filter (fun a => a.1 = m)).map Prod.snd)
        (modify_map tb p (f := f) (g := fun r => (r.timeMap, timeLink r))
          fun r => Prod.ext (hf r).2.2.1 (hf r).2.1)
      simpa [List.filter_map, Function.comp_def] using h
    rw [hm]
    exact hl.times m
  timeNodes := hl.timeNodes
  timeFresh := hl.timeFresh
  sorted := hl.sorted

/-! ## the operations of `run()` -/

theorem requeue_linked (hl : Linked tb) (p : ℕ) : Linked (tb.requeue p) := by
  have hm : Linked (tb.modify p
      (fun r => { r with recordType := recordA, sendIter := some tb.nextNode })) :=
    modify_linked hl fun r => ⟨rfl, rfl, rfl, rfl⟩
  exact { hm with
    idFresh := fun c hc => Nat.lt_succ_of_lt (hm.idFresh c hc)
    timeFresh := fun m c hc => Nat.lt_succ_of_lt (hm.timeFresh m c hc) }

theorem markSent_linked (hl : Linked tb) (p : ℕ) : Linked (tb.markSent p) := by
  have hm : Linked (tb.modify p (fun r => { r with sendIter := none })) :=
    modify_linked hl fun r => ⟨rfl, rfl, rfl, rfl⟩
  exact { hm with }

/-- **Every operation of `run()` keeps the links.** -/
theorem Op.linked {C : Resolver → Prop} (h : Op C tb tb') (hl : Linked tb) : Linked tb' := by
  cases h with
  | removed x r tb' hr => exact removeResolver_linked hl hr
  | requeued r => exact requeue_linked hl r.addr
  | dnsSet p a => exact modify_linked hl fun r => ⟨rfl, rfl, rfl, rfl⟩
  | sent c rest => exact markSent_linked hl c.val
  | swapped => exact { hl with }

theorem Ops.linked {C : Resolver → Prop} (h : Ops C tb tb') (hl : Linked tb) : Linked tb' := by
  induction h with
  | refl => exact hl
  | tail _ hop ih => exact hop.linked ih

/-! ## the send list -/

theorem eraseSend_rest {sends : List (Cell Unit ℕ)} {rest : List Resolver} (hs : SendLinked tb)
    (hp : tb.resolvers.Perm (r :: rest)) (h : tb.eraseSend r = some sends) :
    sends.Perm (rest.filterMap sendCell) ∧ sends.Sublist tb.sendList := by
  have hsend := hs.sends.trans (hp.filterMap sendCell)
  unfold eraseSend at h
  split at h
  · rename_i hi
    cases h
    have hc : sendCell r = none := by
      unfold sendCell
      rw [hi]
      rfl
    rw [List.filterMap_cons_none hc] at hsend
    exact ⟨hsend, List.Sublist.refl _⟩
  · rename_i n hi
    have hc : sendCell r = some ⟨n, (), r.addr⟩ := by
      unfold sendCell
      rw [hi]
      rfl
    rw [List.filterMap_cons_some hc] at hsend
    exact ⟨Cell.eraseNode_rest hs.sendNodes hsend h, Cell.eraseNode_sublist h⟩

theorem removeResolver_sendLinked (hl : Linked tb) (hs : SendLinked tb)
    (h : tb.removeResolver x = some (tb', some r)) : SendLinked tb' := by
  have hp := resolvers_perm hl.keys h
  obtain ⟨_, sends, times, ids, he, _, _, htb⟩ := removeResolver_eq_some h
  obtain ⟨hperm, hsub⟩ := eraseSend_rest hs hp he
  have hsl : tb'.sendList = sends := by rw [htb]
  have hnode : tb'.nextNode = tb.nextNode := by
    rw [htb]
    exact setTimeMap_nextNode _ _ _
  refine ⟨?_, ?_, ?_⟩
  · rw [hsl]
    exact hperm
  · rw [hsl]
    exact hs.sendNodes.sublist (hsub.map Cell.node)
  · rw [hsl, hnode]
    exact fun c hc => hs.sendFresh c (hsub.subset hc)

/-- A request that has been sent goes back to the end of the list. -/
theorem requeue_sendLinked (hl : Linked tb) (hs : SendLinked tb) (hr : tb.deref r.addr = some r)
    (hi : r.sendIter = none) : SendLinked (tb.requeue r.addr) := by
  let f (r : Resolver) : Resolver := { r with recordType := recordA, sendIter := some tb.nextNode }
  obtain ⟨rest, hp, hp'⟩ := modify_perm (f := f) hl.addrs (deref_eq_some hr).1
  have hc : sendCell r = none := by
    unfold sendCell
    rw [hi]
    rfl
  have hsend := hs.sends.trans (hp.filterMap sendCell)
  rw [List.filterMap_cons_none hc] at hsend
  refine ⟨?_, ?_, ?_⟩
  · refine (List.perm_append_singleton _ _).trans (List.Perm.trans ?_ (hp'.filterMap sendCell).symm)
    exact hsend.cons _
  · exact Cell.nodup_append_fresh hs.sendNodes hs.sendFresh (Nat.le_refl _)
  · exact Cell.node_lt_append hs.sendFresh (Nat.le_succ _) (Nat.lt_succ_self _)

/-- The head of the list leaves it, and its request is marked as sent. -/
theorem markSent_sendLinked {c : Cell Unit ℕ} {rest : List (Cell Unit ℕ)} (hl : Linked tb)
    (hs : SendLinked tb) (hc : tb.sendList = c :: rest) : SendLinked (tb.markSent c.val) := by
  have hmem : c ∈ tb.resolvers.filterMap sendCell := by
    refine hs.sends.mem_iff.mp ?_
    rw [hc]
    exact List.mem_cons_self
  obtain ⟨r, hr, hrc⟩ := List.mem_filterMap.mp hmem
  have hcr : c.val = r.addr := by
    obtain ⟨n, _, hn⟩ := Option.map_eq_some_iff.mp hrc
    rw [← hn]
  rw [hcr]
  obtain ⟨R, hp, hp'⟩ := modify_perm (f := fun r => { r with sendIter := none }) hl.addrs hr
  have hsend := hs.sends.trans (hp.filterMap sendCell)
  rw [List.filterMap_cons_some hrc, hc] at hsend
  have htail : (tb.markSent r.addr).sendList = rest := by
    unfold markSent
    rw [hc]
    rfl
  have hsub : rest.Sublist tb.sendList := by
    rw [hc]
    exact List.sublist_cons_self c rest
  refine ⟨?_, ?_, ?_⟩
  · rw [htail]
    refine hsend.cons_inv.trans ?_
    exact (hp'.filterMap sendCell).symm
  · rw [htail]
    exact hs.sendNodes.sublist (hsub.map Cell.node)
  · rw [htail]
    exact fun d hd => hs.sendFresh d (hsub.subset hd)

theorem setDns_sendLinked (hs : SendLinked tb) (p : ℕ) (a : Address) :
    SendLinked (tb.setDns p a) := by
  refine { hs with sends := hs.sends.trans (List.Perm.of_eq ?_) }
  have h := congrArg (List.filterMap id) (modify_map tb p
    (f := fun r => { r with dns := a }) (g := sendCell) fun _ => rfl)
  rw [List.filterMap_map, List.filterMap_map] at h
  exact h.symm

/-- **Every operation of `run()` keeps the send list linked,** if no request is moved to the A
record while it waits to be sent. -/
theorem Op.sendLinked (h : Op (fun r => r.sendIter = none) tb tb') (hl : Linked tb)
    (hs : SendLinked tb) : SendLinked tb' := by
  cases h with
  | removed x r tb' hr => exact removeResolver_sendLinked hl hs hr
  | requeued r hr hi => exact requeue_sendLinked hl hs hr hi
  | dnsSet p a => exact setDns_sendLinked hs p a
  | sent c rest hc => exact markSent_sendLinked hl hs hc
  | swapped => exact { hs with }

theorem Ops.sendLinked (h : Ops (fun r => r.sendIter = none) tb tb') (hl : Linked tb)
    (hs : SendLinked tb) : Linked tb' ∧ SendLinked tb' := by
  induction h with
  | refl => exact ⟨hl, hs⟩
  | tail _ hop ih => exact ⟨hop.linked ih.1, hop.sendLinked ih.1 ih.2⟩

/-! ## registration -/

section
variable (addr : ℕ) {q : Query} (id : UInt16) (curTime : UInt32)

theorem register_resolversMap (hx : tb.find q.hnr = none) :
    (tb.register addr q id curTime).resolversMap.Perm
      ((q.hnr, tb.newResolver addr q id curTime) :: tb.resolversMap) := by
  have hf : tb.resolversMap.filter (fun e => e.1 ≠ q.hnr) = tb.resolversMap := by
    refine List.filter_eq_self.mpr fun e he => ?_
    have hne : e.1 ≠ q.hnr := fun heq => find_eq_none.mp hx (List.mem_map.mpr ⟨e, he, heq⟩)
    simpa using hne
  unfold register
  dsimp only
  rw [hf]
  exact List.perm_orderedInsert _ _ _

theorem register_resolvers (hx : tb.find q.hnr = none) :
    (tb.register addr q id curTime).resolvers.Perm
      (tb.newResolver addr q id curTime :: tb.resolvers) :=
  (register_resolversMap addr id curTime hx).map Prod.snd

theorem register_timeMap (tb : Tables) (q : Query) (m : TimeMap) :
    (tb.register addr q id curTime).timeMap m =
    if m = tb.timeMapFor curTime q.timeoutMillis then
      Cell.insertUpper ⟨tb.nextNode + 1, curTime + q.timeoutMillis, addr⟩ (tb.timeMap m)
    else tb.timeMap m := by
  have h := setTimeMap_timeMap tb (tb.timeMapFor curTime q.timeoutMillis) m
    (Cell.insertUpper ⟨tb.nextNode + 1, curTime + q.timeoutMillis, addr⟩
      (tb.timeMap (tb.timeMapFor curTime q.timeoutMillis)))
  have hr : (tb.register addr q id curTime).timeMap m = (tb.setTimeMap
      (tb.timeMapFor curTime q.timeoutMillis) (Cell.insertUpper ⟨tb.nextNode + 1,
        curTime + q.timeoutMillis, addr⟩ (tb.timeMap
        (tb.timeMapFor curTime q.timeoutMillis)))).timeMap m := by
    cases m <;> rfl
  rw [hr, h]
  split
  · rename_i hm
    rw [hm]
  · rfl

/-- **A registration keeps the links,** if the object has no request and the record is new. -/
theorem register_linked (hl : Linked tb) (hx : tb.find q.hnr = none)
    (ha : ∀ r ∈ tb.resolvers, r.addr ≠ addr) : Linked (tb.register addr q id curTime) := by
  have hmap := register_resolversMap addr id curTime hx
  have hp := register_resolvers addr id curTime hx
  have hnode : (tb.register addr q id curTime).nextNode = tb.nextNode + 3 := rfl
  refine ⟨?_, ?_, ?_, ?_, ?_, ?_, ?_, ?_, ?_, ?_⟩
  · rw [(hmap.map Prod.fst).nodup_iff, List.map_cons, List.nodup_cons]
    exact ⟨find_eq_none.mp hx, hl.keys⟩
  · intro e he
    rcases List.mem_cons.mp (hmap.mem_iff.mp he) with rfl | he
    · rfl
    · exact hl.owned e he
  · rw [(hp.map Resolver.addr).nodup_iff, List.map_cons, List.nodup_cons]
    refine ⟨fun hmem => ?_, hl.addrs⟩
    obtain ⟨r, hr, hra⟩ := List.mem_map.mp hmem
    exact ha r hr hra
  · exact (Cell.insertUpper_perm _ _).trans
      ((hl.ids.cons _).trans (hp.map idCell).symm)
  · exact Cell.nodup_insertUpper hl.idNodes hl.idFresh (Nat.le_refl _)
  · rw [hnode]
    exact Cell.node_lt_insertUpper hl.idFresh (Nat.le_add_right _ 3)
      (Nat.lt_add_of_pos_right (by decide))
  · intro m
    have hf := (hp.filter (fun r => r.timeMap = m)).map timeLink
    rw [register_timeMap]
    split
    · rename_i hm
      have hr : decide ((tb.newResolver addr q id curTime).timeMap = m) = true :=
        decide_eq_true hm.symm
      rw [List.filter_cons_of_pos (p := fun (r : Resolver) => decide (r.timeMap = m)) hr] at hf
      refine ((Cell.insertUpper_perm _ _).map link).trans (List.Perm.trans ?_ hf.symm)
      exact (hl.times m).cons _
    · rename_i hm
      have hr : ¬ decide ((tb.newResolver addr q id curTime).timeMap = m) = true :=
        fun h => hm (of_decide_eq_true h).symm
      rw [List.filter_cons_of_neg (p := fun (r : Resolver) => decide (r.timeMap = m)) hr] at hf
      exact (hl.times m).trans hf.symm
  · intro m
    rw [register_timeMap]
    split
    · exact Cell.nodup_insertUpper (hl.timeNodes m) (hl.timeFresh m) (Nat.le_succ _)
    · exact hl.timeNodes m
  · intro m
    rw [register_timeMap, hnode]
    split
    · exact Cell.node_lt_insertUpper (hl.timeFresh m) (Nat.le_add_right _ 3)
        (Nat.lt_succ_of_lt (Nat.lt_succ_self _))
    · exact fun c hc => (hl.timeFresh m c hc).trans_le (Nat.le_add_right _ 3)
  · intro m
    rw [register_timeMap]
    split
    · exact Cell.pairwise_insertUpper _ _ (hl.sorted m)
    · exact hl.sorted m

theorem register_sendLinked (hs : SendLinked tb) (hx : tb.find q.hnr = none) :
    SendLinked (tb.register addr q id curTime) := by
  have hp := register_resolvers addr id curTime hx
  refine ⟨?_, ?_, ?_⟩
  · refine (List.perm_append_singleton _ _).trans (List.Perm.trans ?_ (hp.filterMap sendCell).symm)
    exact hs.sends.cons _
  · exact Cell.nodup_append_fresh hs.sendNodes hs.sendFresh (Nat.le_add_right _ 2)
  · exact Cell.node_lt_append hs.sendFresh (Nat.le_add_right _ 3) (Nat.lt_succ_self _)

end

/-! ## the cells of the time maps -/

theorem removeResolver_timeMap {o : Option Resolver} (h : tb.removeResolver x = some (tb', o)) :
    tb'.timeMap1 = tb.timeMap1 ∧ ∀ m, tb'.timeMap m ⊆ tb.timeMap m := by
  cases o with
  | none =>
    rw [(removeResolver_eq_none h).1]
    exact ⟨rfl, fun m => List.Subset.refl _⟩
  | some r =>
    obtain ⟨_, sends, times, ids, _, ht, _, rfl⟩ := removeResolver_eq_some h
    refine ⟨setTimeMap_timeMap1 _ _ _, fun m c hc => ?_⟩
    have hm : c ∈ (tb.setTimeMap r.timeMap times).timeMap m := hc
    rw [setTimeMap_timeMap] at hm
    split at hm
    · rename_i he
      subst he
      exact Cell.mem_of_mem_eraseNode ht hm
    · exact hm

/-! ## the records -/

/-- the addresses of the active requests -/
def addrs (tb : Tables) : List ℕ := tb.resolvers.map Resolver.addr

@[simp] theorem requeue_addrs (tb : Tables) (p : ℕ) : (tb.requeue p).addrs = tb.addrs :=
  modify_map tb p (f := fun r => { r with recordType := recordA, sendIter := some tb.nextNode })
    fun _ => rfl

@[simp] theorem markSent_addrs (tb : Tables) (p : ℕ) : (tb.markSent p).addrs = tb.addrs :=
  modify_map tb p (f := fun r => { r with sendIter := none }) fun _ => rfl

@[simp] theorem setDns_addrs (tb : Tables) (p : ℕ) (a : Address) :
    (tb.setDns p a).addrs = tb.addrs :=
  modify_map tb p (f := fun r => { r with dns := a }) fun _ => rfl

@[simp] theorem swapTimeMaps_addrs (tb : Tables) : tb.swapTimeMaps.addrs = tb.addrs := rfl

/-- `RemoveResolver` takes out one address. -/
theorem removeResolver_addrs (hk : (tb.resolversMap.map Prod.fst).Nodup)
    (h : tb.removeResolver x = some (tb', some r)) : tb.addrs.Perm (r.addr :: tb'.addrs) :=
  (resolvers_perm hk h).map Resolver.addr

/-- The operations on the tables make no new requests: `g` is any part of a request that they do
not write to. -/
theorem Op.map_subset {C : Resolver → Prop} {β : Type} {g : Resolver → β}
    (hg : ∀ r type iter a, g { r with recordType := type, sendIter := iter, dns := a } = g r)
    (h : Op C tb tb') : tb'.resolvers.map g ⊆ tb.resolvers.map g := by
  have hmod : ∀ p f, (∀ r, g (f r) = g r) →
      (tb.modify p f).resolvers.map g ⊆ tb.resolvers.map g := by
    intro p f hf
    rw [modify_map tb p hf]
    exact List.Subset.refl _
  cases h with
  | removed x r tb' hr => exact List.map_subset g (removeResolver_subset hr)
  | requeued r =>
    exact hmod r.addr (fun r => { r with recordType := recordA, sendIter := some tb.nextNode })
      fun r => hg r _ _ r.dns
  | dnsSet p a =>
    exact hmod p (fun r => { r with dns := a }) fun r => hg r r.recordType r.sendIter a
  | sent c rest =>
    exact hmod c.val (fun r => { r with sendIter := none }) fun r => hg r r.recordType none r.dns
  | swapped => exact List.Subset.refl _

theorem Ops.map_subset {C : Resolver → Prop} {β : Type} {g : Resolver → β}
    (hg : ∀ r type iter a, g { r with recordType := type, sendIter := iter, dns := a } = g r)
    (h : Ops C tb tb') : tb'.resolvers.map g ⊆ tb.resolvers.map g := by
  induction h with
  | refl => exact List.Subset.refl _
  | tail _ hop ih => exact List.Subset.trans (hop.map_subset hg) ih

theorem Ops.older {C : Resolver → Prop} {n : ℕ} (h : Ops C tb tb')
    (ho : ∀ r ∈ tb.resolvers, r.addr < n) : ∀ r ∈ tb'.resolvers, r.addr < n := by
  intro r hr
  have hsub := h.map_subset (g := Resolver.addr) fun _ _ _ _ => rfl
  obtain ⟨r', hr', ha⟩ := List.mem_map.mp (hsub (List.mem_map_of_mem hr))
  rw [← ha]
  exact ho r' hr'

/-! ## the keys -/

theorem Op.keys_subset {C : Resolver → Prop} (h : Op C tb tb') :
    tb'.resolversMap.map Prod.fst ⊆ tb.resolversMap.map Prod.fst := by
  cases h with
  | removed x r tb' hr =>
    obtain ⟨_, _, _, _, _, _, _, rfl⟩ := removeResolver_eq_some hr
    exact (List.filter_sublist.map Prod.fst).subset
  | requeued r =>
    unfold requeue
    rw [modify_keys]
    exact List.Subset.refl _
  | dnsSet p a =>
    unfold setDns
    rw [modify_keys]
    exact List.Subset.refl _
  | sent c rest =>
    unfold markSent
    rw [modify_keys]
    exact List.Subset.refl _
  | swapped => exact List.Subset.refl _

/-- The owner map stays empty. -/
theorem Ops.map_nonempty {C : Resolver → Prop} (h : Ops C tb tb') (hm : tb'.resolversMap ≠ []) :
    tb.resolversMap ≠ [] := by
  induction h with
  | refl => exact hm
  | tail _ hop ih =>
    refine ih fun hnil => hm ?_
    have hsub := hop.keys_subset
    rw [hnil] at hsub
    exact List.map_eq_nil_iff.mp (List.subset_nil.mp hsub)

/-- An object without a request gets none by a step of `run()`. -/
theorem Ops.find_none {C : Resolver → Prop} (h : Ops C tb tb') (hx : tb.find x = none) :
    tb'.find x = none := by
  induction h with
  | refl => exact hx
  | tail _ hop ih => exact find_eq_none.mpr fun hm => find_eq_none.mp ih (hop.keys_subset hm)

end Tables
end Setka
