import Setka.Dns.Ids
import Setka.Dns.Removal

/-!
# What `RemoveResolver` erases

For any tables, reachable or not, whose containers agree: `RemoveResolver` of an active object takes
its request out of every container and leaves everything else in its place and order, and it takes
back a registration.

* `WellFormed`      what the containers are by their types: maps have distinct ordered keys, the
                    records and the nodes of a container are distinct;
* `erased`          the tables without the entries of one request;
* `RemovesExactly`  what `RemoveResolver` of an object does, and what a registration followed by it
                    does;
* `removeResolver_exact`   all consistent tables.
-/

namespace Setka
namespace Tables

open Cell

/-- The maps have distinct keys in order, a pointer of `resolversMap` owns its record alone, and the
nodes of a container are distinct and older than the next one. -/
structure WellFormed (tb : Tables) : Prop where
  keys : (tb.resolversMap.map Prod.fst).Nodup
  addrs : (tb.resolvers.map Resolver.addr).Nodup
  ids : IdsApart tb
  sorted : ∀ m, SortedKeys (tb.timeMap m)
  idNodes : (tb.idMap.map Cell.node).Nodup
  timeNodes : ∀ m, ((tb.timeMap m).map Cell.node).Nodup
  sendNodes : (tb.sendList.map Cell.node).Nodup
  idFresh : ∀ c ∈ tb.idMap, c.node < tb.nextNode
  timeFresh : ∀ m, ∀ c ∈ tb.timeMap m, c.node < tb.nextNode
  sendFresh : ∀ c ∈ tb.sendList, c.node < tb.nextNode

theorem wellFormed_empty : WellFormed {} :=
  { linked_empty, sendLinked_empty with ids := ⟨.nil, .nil⟩ }

theorem consistent_empty : Consistent {} := linked_empty.consistent sendLinked_empty

/-- the tables without the entries of the request `r` of the object `x` -/
def erased (tb : Tables) (x : ℕ) (r : Resolver) : Tables :=
  { tb with
    resolversMap := tb.resolversMap.filter (fun e => e.1 ≠ x)
    idMap := tb.idMap.filter (fun c => c.val ≠ r.addr)
    resolversByTime1 := tb.resolversByTime1.filter (fun c => c.val ≠ r.addr)
    resolversByTime2 := tb.resolversByTime2.filter (fun c => c.val ≠ r.addr)
    sendList := tb.sendList.filter (fun c => c.val ≠ r.addr) }

variable {tb : Tables} {x : ℕ} {r r' : Resolver}

theorem timeMap_erased (tb : Tables) (x : ℕ) (r : Resolver) (m : TimeMap) :
    (tb.erased x r).timeMap m = (tb.timeMap m).filter (fun c => c.val ≠ r.addr) := by
  cases m <;> rfl

/-! ## the removal -/

/-- the cell of the request in the map it points to -/
theorem Consistent.timeCell (hc : tb.Consistent) (hr : r ∈ tb.resolvers) :
    ∃ c, (tb.timeMap r.timeMap).filter (fun c => c.val = r.addr) = [c] ∧
      c.node = r.timeMapIter := by
  have h := hc.time r hr r.timeMap
  rw [if_pos rfl] at h
  obtain ⟨c, hone, hlink⟩ := List.map_eq_singleton_iff.mp h
  exact ⟨c, hone, congrArg Prod.fst hlink⟩

theorem filter_ne_of_filter_nil {κ : Type} {l : List (Cell κ ℕ)} {a : ℕ}
    (h : l.filter (fun c => c.val = a) = []) : l.filter (fun c => c.val ≠ a) = l := by
  refine List.filter_eq_self.mpr fun c hc => ?_
  simpa using List.filter_eq_nil_iff.mp h c hc

theorem filter_ne_eq {κ : Type} (l : List (Cell κ ℕ)) (a : ℕ) :
    l.filter (fun c => !decide (c.val = a)) = l.filter (fun c => c.val ≠ a) := by
  simp only [ne_eq, decide_not]

/-- a filter that leaves the other time map as it is -/
theorem setTimeMap_filter {m : TimeMap} {p : Cell UInt32 ℕ → Bool}
    (h : ∀ m', m' ≠ m → (tb.timeMap m').filter p = tb.timeMap m') :
    tb.setTimeMap m ((tb.timeMap m).filter p) =
      { tb with resolversByTime1 := tb.resolversByTime1.filter p
                resolversByTime2 := tb.resolversByTime2.filter p } := by
  cases m with
  | byTime1 =>
    have h2 : tb.resolversByTime2.filter p = tb.resolversByTime2 := h .byTime2 nofun
    rw [h2]
    rfl
  | byTime2 =>
    have h1 : tb.resolversByTime1.filter p = tb.resolversByTime1 := h .byTime1 nofun
    rw [h1]
    rfl

/-- **`RemoveResolver` of an active object** takes its request out of every container. -/
theorem removeResolver_erased (hw : tb.WellFormed) (hc : tb.Consistent)
    (hx : tb.find x = some r) : tb.removeResolver x = some (tb.erased x r, some r) := by
  have hr : r ∈ tb.resolvers := List.mem_map_of_mem (find_eq_some hx)
  have hsend : tb.eraseSend r = some (tb.sendList.filter (fun c => c.val ≠ r.addr)) := by
    have h := hc.send r hr
    unfold eraseSend
    split
    · rename_i hn
      rw [hn] at h
      rw [filter_ne_of_filter_nil h]
    · rename_i n hn
      rw [hn] at h
      rw [eraseNode_eq_filter (c := ⟨n, (), r.addr⟩) hw.sendNodes h, filter_ne_eq]
  have htime : eraseNode (tb.timeMap r.timeMap) r.timeMapIter =
      some ((tb.timeMap r.timeMap).filter (fun c => c.val ≠ r.addr)) := by
    obtain ⟨c, hone, hnode⟩ := hc.timeCell hr
    rw [← hnode, eraseNode_eq_filter (hw.timeNodes _) hone, filter_ne_eq]
  have hother : ∀ m, m ≠ r.timeMap →
      (tb.timeMap m).filter (fun c => c.val ≠ r.addr) = tb.timeMap m := by
    intro m hm
    have h := hc.time r hr m
    rw [if_neg (Ne.symm hm)] at h
    exact filter_ne_of_filter_nil (List.map_eq_nil_iff.mp h)
  have hid : eraseNode tb.idMap r.idIter = some (tb.idMap.filter (fun c => c.val ≠ r.addr)) := by
    rw [eraseNode_eq_filter (c := ⟨r.idIter, r.id, r.addr⟩) hw.idNodes (hc.id r hr), filter_ne_eq]
  unfold removeResolver
  rw [hx]
  dsimp only
  rw [hsend, htime, hid]
  simp only [Option.bind_eq_bind, Option.bind_some, setTimeMap_filter hother]
  rfl

/-- The requests that are left. -/
theorem mem_erased (hw : tb.WellFormed) (hx : tb.find x = some r) :
    r' ∈ (tb.erased x r).resolvers ↔ r' ∈ tb.resolvers ∧ r'.addr ≠ r.addr := by
  have hp : tb.resolvers.Perm (r :: (tb.erased x r).resolvers) :=
    (map_perm hw.keys hx).map Prod.snd
  have hn := (hp.map Resolver.addr).nodup_iff.mp hw.addrs
  rw [List.map_cons, List.nodup_cons] at hn
  rw [hp.mem_iff, List.mem_cons]
  constructor
  · intro h
    exact ⟨.inr h, fun heq => hn.1 (heq ▸ List.mem_map_of_mem h)⟩
  · rintro ⟨rfl | h, hne⟩
    · exact absurd rfl hne
    · exact h

theorem erased_wellFormed (hw : tb.WellFormed) (x : ℕ) (r : Resolver) :
    (tb.erased x r).WellFormed where
  keys := hw.keys.sublist (List.filter_sublist.map Prod.fst)
  addrs := hw.addrs.sublist ((List.filter_sublist.map Prod.snd).map Resolver.addr)
  ids := hw.ids.of_sublist List.filter_sublist
  sorted m := by
    rw [timeMap_erased]
    exact (hw.sorted m).sublist List.filter_sublist
  idNodes := hw.idNodes.sublist (List.filter_sublist.map Cell.node)
  timeNodes m := by
    rw [timeMap_erased]
    exact (hw.timeNodes m).sublist (List.filter_sublist.map Cell.node)
  sendNodes := hw.sendNodes.sublist (List.filter_sublist.map Cell.node)
  idFresh c hc := hw.idFresh c (List.mem_of_mem_filter hc)
  timeFresh m c hc := by
    rw [timeMap_erased] at hc
    exact hw.timeFresh m c (List.mem_of_mem_filter hc)
  sendFresh c hc := hw.sendFresh c (List.mem_of_mem_filter hc)

/-- What is left of the other requests. -/
theorem filter_erased {κ : Type} (l : List (Cell κ ℕ)) {a b : ℕ} (h : b ≠ a) :
    (l.filter (fun c => c.val ≠ a)).filter (fun c => c.val = b) =
      l.filter (fun c => c.val = b) := by
  rw [List.filter_filter]
  refine List.filter_congr fun c _ => ?_
  by_cases hc : c.val = b
  · simp [hc, h]
  · simp [hc]

/-- the owner of an entry that is left -/
theorem owned_erased {κ : Type} {l : List (Cell κ ℕ)} (hw : tb.WellFormed)
    (hx : tb.find x = some r) (h : ∀ c ∈ l, ∃ r ∈ tb.resolvers, r.addr = c.val) :
    ∀ c ∈ l.filter (fun c => c.val ≠ r.addr),
      ∃ r' ∈ (tb.erased x r).resolvers, r'.addr = c.val := by
  intro c hc
  obtain ⟨hc, hne⟩ := List.mem_filter.mp hc
  obtain ⟨r', hr', hval⟩ := h c hc
  exact ⟨r', (mem_erased hw hx).mpr ⟨hr', hval ▸ of_decide_eq_true hne⟩, hval⟩

theorem erased_consistent (hw : tb.WellFormed) (hc : tb.Consistent) (hx : tb.find x = some r) :
    (tb.erased x r).Consistent where
  id r' hr' := by
    obtain ⟨hr, hne⟩ := (mem_erased hw hx).mp hr'
    exact (filter_erased tb.idMap hne).trans (hc.id r' hr)
  time r' hr' m := by
    obtain ⟨hr, hne⟩ := (mem_erased hw hx).mp hr'
    rw [timeMap_erased, filter_erased _ hne]
    exact hc.time r' hr m
  send r' hr' := by
    obtain ⟨hr, hne⟩ := (mem_erased hw hx).mp hr'
    exact (filter_erased tb.sendList hne).trans (hc.send r' hr)
  idOwned := owned_erased hw hx hc.idOwned
  timeOwned m := by
    rw [timeMap_erased]
    exact owned_erased hw hx (hc.timeOwned m)
  sendOwned := owned_erased hw hx hc.sendOwned

/-! ## the registration -/

section
variable {addr : ℕ} {q : Query} (id : UInt16) (curTime : UInt32)

theorem register_wellFormed (hw : tb.WellFormed) (hx : tb.find q.hnr = none)
    (hid : findFreeId tb.idMap = some id) (ha : ∀ r ∈ tb.resolvers, r.addr ≠ addr) :
    (tb.register addr q id curTime).WellFormed where
  keys := by
    rw [((register_resolversMap addr id curTime hx).map Prod.fst).nodup_iff, List.map_cons,
      List.nodup_cons]
    exact ⟨find_eq_none.mp hx, hw.keys⟩
  addrs := by
    rw [((register_resolvers addr id curTime hx).map Resolver.addr).nodup_iff, List.map_cons,
      List.nodup_cons]
    refine ⟨fun hmem => ?_, hw.addrs⟩
    obtain ⟨r, hr, hra⟩ := List.mem_map.mp hmem
    exact ha r hr hra
  ids := register_idsApart hw.ids hid
  sorted m := by
    rw [register_timeMap]
    split
    · exact pairwise_insertUpper _ _ (hw.sorted m)
    · exact hw.sorted m
  idNodes := nodup_insertUpper hw.idNodes hw.idFresh (Nat.le_refl _)
  timeNodes m := by
    rw [register_timeMap]
    split
    · exact nodup_insertUpper (hw.timeNodes m) (hw.timeFresh m) (Nat.le_succ _)
    · exact hw.timeNodes m
  sendNodes := nodup_append_fresh hw.sendNodes hw.sendFresh (Nat.le_add_right _ 2)
  idFresh := node_lt_insertUpper hw.idFresh (Nat.le_add_right _ 3)
    (Nat.lt_add_of_pos_right (by decide))
  timeFresh m := by
    rw [register_timeMap]
    split
    · exact node_lt_insertUpper (hw.timeFresh m) (Nat.le_add_right _ 3)
        (Nat.lt_succ_of_lt (Nat.lt_succ_self _))
    · exact fun c hc => (hw.timeFresh m c hc).trans_le (Nat.le_add_right _ 3)
  sendFresh := node_lt_append hw.sendFresh (Nat.le_add_right _ 3) (Nat.lt_succ_self _)

/-- No entry points to a new record. -/
theorem not_owned_new {κ : Type} {l : List (Cell κ ℕ)} (ha : ∀ r ∈ tb.resolvers, r.addr ≠ addr)
    (h : ∀ c ∈ l, ∃ r ∈ tb.resolvers, r.addr = c.val) :
    ∀ c ∈ l, decide (c.val = addr) = false := by
  intro c hc
  obtain ⟨r, hr, hval⟩ := h c hc
  exact decide_eq_false (hval ▸ ha r hr)

/-- the owner of an entry after a registration -/
theorem owned_register {κ : Type} {l l' : List (Cell κ ℕ)} (hx : tb.find q.hnr = none)
    (h : ∀ c ∈ l, ∃ r ∈ tb.resolvers, r.addr = c.val)
    (hl : ∀ c ∈ l', c.val = addr ∨ c ∈ l) :
    ∀ c ∈ l', ∃ r ∈ (tb.register addr q id curTime).resolvers, r.addr = c.val := by
  intro c hc
  have hp := register_resolvers addr id curTime hx
  rcases hl c hc with hval | hc
  · exact ⟨_, hp.mem_iff.mpr List.mem_cons_self, hval.symm⟩
  · obtain ⟨r, hr, hval⟩ := h c hc
    exact ⟨r, hp.mem_iff.mpr (List.mem_cons_of_mem _ hr), hval⟩

/-- **A registration keeps the containers in agreement.** -/
theorem register_consistent (hc : tb.Consistent) (hx : tb.find q.hnr = none)
    (ha : ∀ r ∈ tb.resolvers, r.addr ≠ addr) :
    (tb.register addr q id curTime).Consistent where
  id r hr := by
    rcases List.mem_cons.mp ((register_resolvers addr id curTime hx).mem_iff.mp hr) with rfl | hr
    · exact filter_insertUpper_only (decide_eq_true rfl) (not_owned_new ha hc.idOwned)
    · exact (filter_insertUpper (decide_eq_false (ha r hr).symm) tb.idMap).trans (hc.id r hr)
  time r hr m := by
    rw [register_timeMap]
    rcases List.mem_cons.mp ((register_resolvers addr id curTime hx).mem_iff.mp hr) with rfl | hr
    · have hnew : (tb.newResolver addr q id curTime).timeMap =
          tb.timeMapFor curTime q.timeoutMillis := rfl
      rw [hnew]
      by_cases hm : m = tb.timeMapFor curTime q.timeoutMillis
      · rw [if_pos hm, if_pos hm.symm]
        exact congrArg (List.map link)
          (filter_insertUpper_only (decide_eq_true rfl) (not_owned_new ha (hc.timeOwned m)))
      · rw [if_neg hm, if_neg (Ne.symm hm)]
        refine List.map_eq_nil_iff.mpr (List.filter_eq_nil_iff.mpr fun c hcm => ?_)
        show ¬ decide (c.val = addr) = true
        rw [not_owned_new ha (hc.timeOwned m) c hcm]
        exact Bool.false_ne_true
    · rw [← hc.time r hr m]
      split
      · exact congrArg (List.map link) (filter_insertUpper (decide_eq_false (ha r hr).symm) _)
      · rfl
  send r hr := by
    have happend : (tb.register addr q id curTime).sendList =
        tb.sendList ++ [⟨tb.nextNode + 2, (), addr⟩] := rfl
    rw [happend, List.filter_append]
    rcases List.mem_cons.mp ((register_resolvers addr id curTime hx).mem_iff.mp hr) with rfl | hr
    · have hnil : tb.sendList.filter (fun c => c.val = addr) = [] := by
        refine List.filter_eq_nil_iff.mpr fun c hcm => ?_
        simpa using not_owned_new ha hc.sendOwned c hcm
      have haddr : (tb.newResolver addr q id curTime).addr = addr := rfl
      rw [haddr, hnil, List.nil_append]
      exact List.filter_cons_of_pos (p := fun c : Cell Unit ℕ => c.val = addr) (decide_eq_true rfl)
    · have hnil : [(⟨tb.nextNode + 2, (), addr⟩ : Cell Unit ℕ)].filter
          (fun c => c.val = r.addr) = [] :=
        List.filter_cons_of_neg (by simpa using (ha r hr).symm)
      rw [hnil, List.append_nil]
      exact hc.send r hr
  idOwned := owned_register id curTime hx hc.idOwned fun c hcm =>
    (mem_insertUpper.mp hcm).imp_left (congrArg Cell.val)
  timeOwned m := by
    refine owned_register id curTime hx (hc.timeOwned m) fun c hcm => ?_
    rw [register_timeMap] at hcm
    split at hcm
    · exact (mem_insertUpper.mp hcm).imp_left (congrArg Cell.val)
    · exact .inr hcm
  sendOwned := owned_register id curTime hx hc.sendOwned fun c hcm =>
    (List.mem_append.mp hcm).symm.imp_left fun h => congrArg Cell.val (List.mem_singleton.mp h)

/-- the new request in `resolversMap` -/
theorem find_register (hw : tb.WellFormed) (hx : tb.find q.hnr = none)
    (hid : findFreeId tb.idMap = some id) (ha : ∀ r ∈ tb.resolvers, r.addr ≠ addr) :
    (tb.register addr q id curTime).find q.hnr = some (tb.newResolver addr q id curTime) := by
  have hmem := (register_resolversMap addr id curTime hx).mem_iff.mpr List.mem_cons_self
  exact congrArg (Option.map Prod.snd)
    (find?_of_nodup (register_wellFormed id curTime hw hx hid ha).keys hmem)

/-- Without the entries of the new request, the containers are as they were. -/
theorem erased_register (hc : tb.Consistent) (hx : tb.find q.hnr = none)
    (ha : ∀ r ∈ tb.resolvers, r.addr ≠ addr) :
    (tb.register addr q id curTime).erased q.hnr (tb.newResolver addr q id curTime) =
      { tb with nextNode := tb.nextNode + 3 } := by
  have hself : ∀ {κ : Type} {l : List (Cell κ ℕ)},
      (∀ c ∈ l, ∃ r ∈ tb.resolvers, r.addr = c.val) → l.filter (fun c => c.val ≠ addr) = l := by
    intro κ l h
    refine List.filter_eq_self.mpr fun c hcl => ?_
    simpa using not_owned_new ha h c hcl
  have hinsert : ∀ {κ : Type} [LT κ] [DecidableLT κ] (n : ℕ) (k : κ) (l : List (Cell κ ℕ)),
      (insertUpper ⟨n, k, addr⟩ l).filter (fun c => c.val ≠ addr) =
        l.filter (fun c => c.val ≠ addr) :=
    fun n k l => filter_insertUpper (by simp) l
  have htime : ∀ m, ((tb.register addr q id curTime).timeMap m).filter (fun c => c.val ≠ addr) =
      tb.timeMap m := by
    intro m
    rw [register_timeMap]
    split
    · exact (hinsert _ _ _).trans (hself (hc.timeOwned m))
    · exact hself (hc.timeOwned m)
  have hids : (tb.register addr q id curTime).idMap.filter (fun c => c.val ≠ addr) = tb.idMap :=
    (hinsert _ _ _).trans (hself hc.idOwned)
  have hsends : (tb.register addr q id curTime).sendList.filter (fun c => c.val ≠ addr) =
      tb.sendList := by
    have hnew : [(⟨tb.nextNode + 2, (), addr⟩ : Cell Unit ℕ)].filter (fun c => c.val ≠ addr) = [] :=
      List.filter_cons_of_neg (by simp)
    have happend : (tb.register addr q id curTime).sendList =
        tb.sendList ++ [⟨tb.nextNode + 2, (), addr⟩] := rfl
    rw [happend, List.filter_append, hnew, List.append_nil, hself hc.sendOwned]
  have hmap : (tb.register addr q id curTime).resolversMap.filter (fun e => e.1 ≠ q.hnr) =
      tb.resolversMap := by
    refine (filter_orderedInsert (by simp) _).trans ?_
    simp only [List.filter_filter, Bool.and_self]
    refine List.filter_eq_self.mpr fun e he => ?_
    have hne : e.1 ≠ q.hnr := fun heq => find_eq_none.mp hx (heq ▸ List.mem_map_of_mem he)
    simpa using hne
  have htime1 : (tb.register addr q id curTime).timeMap1 = tb.timeMap1 :=
    setTimeMap_timeMap1 _ _ _
  unfold erased
  have haddr : (tb.newResolver addr q id curTime).addr = addr := rfl
  rw [haddr, hmap, hids, hsends, htime1]
  have h1 := htime .byTime1
  have h2 := htime .byTime2
  dsimp only [timeMap] at h1 h2
  rw [h1, h2]
  rfl

end

/-! ## the result -/

/-- What `RemoveResolver` of an object does, and a registration before it. -/
structure RemovesExactly (tb : Tables) (x : ℕ) : Prop where
  active : ∀ r, tb.find x = some r → tb.removeResolver x = some (tb.erased x r, some r) ∧
    (tb.erased x r).WellFormed ∧ (tb.erased x r).Consistent
  inactive : tb.find x = none → tb.removeResolver x = some (tb, none)
  restores : tb.find x = none → ∀ addr q id curTime, q.hnr = x →
    (∀ r ∈ tb.resolvers, r.addr ≠ addr) → findFreeId tb.idMap = some id →
    (∀ r ∈ tb.resolvers, r.id ≠ id) ∧ (tb.register addr q id curTime).WellFormed ∧
    (tb.register addr q id curTime).Consistent ∧
    (tb.register addr q id curTime).removeResolver x =
      some ({ tb with nextNode := tb.nextNode + 3 }, some (tb.newResolver addr q id curTime))

/-- **`RemoveResolver` is exact,** for all tables whose containers agree. -/
theorem removeResolver_exact (hw : tb.WellFormed) (hc : tb.Consistent) (x : ℕ) :
    tb.RemovesExactly x where
  active r hx := ⟨removeResolver_erased hw hc hx, erased_wellFormed hw x r,
    erased_consistent hw hc hx⟩
  inactive hx := by
    unfold removeResolver
    rw [hx]
  restores hx addr q id curTime hq ha hid := by
    subst hq
    have hw' := register_wellFormed id curTime hw hx hid ha
    have hc' := register_consistent id curTime hc hx ha
    refine ⟨fun r hr heq => ?_, hw', hc', ?_⟩
    · have hcell : (⟨r.idIter, r.id, r.addr⟩ : Cell UInt16 ℕ) ∈ tb.idMap :=
        List.mem_of_mem_filter (hc.id r hr ▸ List.mem_singleton_self _)
      exact findFreeId_fresh hw.ids.sorted hid _ hcell heq
    · rw [removeResolver_erased hw' hc' (find_register id curTime hw hx hid ha),
        erased_register id curTime hc hx ha]

/-- The requests of the objects 1 and 2, with the same deadline. -/
def twoRequests : Tables := (register {} 0 (queryA 1) 0 5).register 1 (queryA 2) 1 5

/-- The request of the object 2 is removed, and that of the object 1 stays. -/
theorem removeResolver_exact_two : ∃ tb' r, twoRequests.removeResolver 2 = some (tb', some r) ∧
    tb'.Consistent ∧ tb'.resolversByTime1.map Cell.val = [0] := by
  have hw : (register {} 0 (queryA 1) 0 5).WellFormed :=
    register_wellFormed 0 5 wellFormed_empty rfl rfl nofun
  have hc : (register {} 0 (queryA 1) 0 5).Consistent :=
    register_consistent 0 5 consistent_empty rfl nofun
  have hnew : ∀ r ∈ (register {} 0 (queryA 1) 0 5).resolvers, r.addr ≠ 1 := by decide
  have hw' : twoRequests.WellFormed := register_wellFormed 1 5 hw rfl rfl hnew
  have hc' : twoRequests.Consistent := register_consistent 1 5 hc rfl hnew
  obtain ⟨hr, _, hleft⟩ := (removeResolver_exact hw' hc' 2).active _ rfl
  exact ⟨_, _, hr, hleft, by decide⟩

end Tables

namespace Sys

/-- The tables of every thread are well formed, in every state of every run. -/
theorem wellFormed {G : Sys → Action → Prop} {s : Sys} (hr : resolverSystem.Reach G s) (t : ℕ) :
    (s.threads t).tables.WellFormed :=
  { (stored hr).linked t with
    ids := idsApart hr t
    sendNodes := (sendKept hr t).nodes
    sendFresh := (sendKept hr t).fresh }

end Sys
end Setka
