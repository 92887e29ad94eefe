import Setka.Dns.Containers

/-!
# The ids of the active requests

`FindFreeId` takes the id before the first key, the one after the last key, or the first gap.

* `findFreeId_fresh`   the id is not in use;
* `findFreeId_exact`   and there is one unless all ids are in use;
* `IdsApart`           the keys of `idMap` are in order and distinct, in every run;
* `findId_of_mem`      so the id of an active request leads to this request.
-/

namespace Setka
namespace Tables

open Cell

/-! ## the free id -/

/-- A gap lies after the first key, and no key is in it. -/
theorem findGap_fresh {c : Cell UInt16 ℕ} {l : List (Cell UInt16 ℕ)} {id : UInt16}
    (hs : SortedKeys (c :: l)) (h : findGap (c :: l) = some id) :
    c.key < id ∧ ∀ d ∈ l, d.key ≠ id := by
  induction l generalizing c with
  | nil => cases h
  | cons d l ih =>
    obtain ⟨hc, hl⟩ := List.pairwise_cons.mp hs
    unfold findGap at h
    split at h
    · rename_i hgap
      cases h
      have hnat : (c.key + 1).toNat = c.key.toNat + 1 := by
        have := d.key.toNat_lt
        rw [UInt16.toNat_add]
        show (_ + 1) % _ = _
        omega
      refine ⟨?_, fun e he heq => ?_⟩
      · rw [UInt16.lt_iff_toNat_lt]
        omega
      · have hle := SortedKeys.head_le hl he
        rw [heq, UInt16.le_iff_toNat_le] at hle
        omega
    · obtain ⟨hd, hfresh⟩ := ih hl h
      have hcd := hc d List.mem_cons_self
      refine ⟨Std.lt_of_le_of_lt hcd hd, List.forall_mem_cons.mpr ⟨?_, hfresh⟩⟩
      rintro rfl
      exact Std.lt_irrefl hd

/-- the last cell, with one cell less in front of it -/
theorem getLastD_cons_cons (c e : Cell UInt16 ℕ) (l : List (Cell UInt16 ℕ)) :
    (c :: e :: l).getLastD c = (e :: l).getLastD e := by
  rw [List.getLastD_cons, List.getLastD_cons, List.getLastD_cons]

theorem le_getLastD {c : Cell UInt16 ℕ} {l : List (Cell UInt16 ℕ)} (hs : SortedKeys (c :: l)) :
    ∀ d ∈ c :: l, d.key ≤ ((c :: l).getLastD c).key := by
  induction l generalizing c with
  | nil =>
    intro d hd
    rw [List.mem_singleton.mp hd]
    exact Std.le_refl _
  | cons e l ih =>
    obtain ⟨hc, hl⟩ := List.pairwise_cons.mp hs
    rw [getLastD_cons_cons]
    refine List.forall_mem_cons.mpr ⟨?_, ih hl⟩
    exact Std.le_trans (hc e List.mem_cons_self) (ih hl e List.mem_cons_self)

/-- **`FindFreeId` gives an id that is not in use.** -/
theorem findFreeId_fresh {l : List (Cell UInt16 ℕ)} {id : UInt16} (hs : SortedKeys l)
    (h : findFreeId l = some id) : ∀ d ∈ l, d.key ≠ id := by
  unfold findFreeId at h
  split at h
  · exact nofun
  · rename_i c l
    split at h
    · rename_i hc
      cases h
      intro d hd heq
      have hle := hs.head_le hd
      have hpos : c.key.toNat ≠ 0 := fun h0 => hc (UInt16.toNat_inj.mp h0)
      have hsub : (c.key - 1).toNat = c.key.toNat - 1 := by
        have := c.key.toNat_lt
        rw [UInt16.toNat_sub]
        show (2 ^ 16 - 1 + _) % _ = _
        omega
      rw [heq, UInt16.le_iff_toNat_le] at hle
      omega
    · split at h
      · rename_i hlast
        cases h
        intro d hd heq
        have hle := le_getLastD hs d hd
        have hne : ((c :: l).getLastD c).key.toNat ≠ 0xffff :=
          fun h0 => hlast (UInt16.toNat_inj.mp h0)
        have hadd : (((c :: l).getLastD c).key + 1).toNat =
            ((c :: l).getLastD c).key.toNat + 1 := by
          have := ((c :: l).getLastD c).key.toNat_lt
          rw [UInt16.toNat_add]
          show (_ + 1) % _ = _
          omega
        rw [heq, UInt16.le_iff_toNat_le] at hle
        omega
      · obtain ⟨hc, hfresh⟩ := findGap_fresh hs h
        refine List.forall_mem_cons.mpr ⟨?_, hfresh⟩
        rintro rfl
        exact Std.lt_irrefl hc

/-- Where there is no gap, all ids from the first key to the last one are in use. -/
theorem findGap_full {c : Cell UInt16 ℕ} {l : List (Cell UInt16 ℕ)} (h : findGap (c :: l) = none)
    {id : UInt16} (hc : c.key ≤ id) (hlast : id ≤ ((c :: l).getLastD c).key) :
    ∃ d ∈ c :: l, d.key = id := by
  induction l generalizing c with
  | nil => exact ⟨c, List.mem_cons_self, Std.le_antisymm hc hlast⟩
  | cons e l ih =>
    unfold findGap at h
    split at h
    · cases h
    · rename_i hgap
      by_cases he : e.key ≤ id
      · rw [getLastD_cons_cons] at hlast
        obtain ⟨d, hd, hkey⟩ := ih h he hlast
        exact ⟨d, List.mem_cons_of_mem _ hd, hkey⟩
      · refine ⟨c, List.mem_cons_self, UInt16.toNat_inj.mp ?_⟩
        rw [UInt16.le_iff_toNat_le] at hc he
        omega

/-- **If `FindFreeId` throws, all ids are in use.** -/
theorem findFreeId_full {l : List (Cell UInt16 ℕ)} (h : findFreeId l = none) (id : UInt16) :
    ∃ d ∈ l, d.key = id := by
  unfold findFreeId at h
  split at h
  · cases h
  · rename_i c l
    split at h
    · cases h
    · rename_i hc
      split at h
      · cases h
      · rename_i hlast
        refine findGap_full h ?_ ?_
        · rw [not_not.mp hc, UInt16.le_iff_toNat_le]
          exact Nat.zero_le _
        · rw [not_not.mp hlast, UInt16.le_iff_toNat_le]
          exact Nat.le_of_lt_succ id.toNat_lt

/-- **`FindFreeId`** gives an id that is not in use, or throws if and only if all of them are. -/
theorem findFreeId_exact {l : List (Cell UInt16 ℕ)} (hs : SortedKeys l) :
    (∀ id, findFreeId l = some id → ∀ d ∈ l, d.key ≠ id) ∧
      (findFreeId l = none ↔ ∀ id : UInt16, ∃ d ∈ l, d.key = id) := by
  refine ⟨fun id h => findFreeId_fresh hs h, findFreeId_full, fun hall => ?_⟩
  cases h : findFreeId l with
  | none => rfl
  | some id =>
    obtain ⟨d, hd, hkey⟩ := hall id
    exact absurd hkey (findFreeId_fresh hs h d hd)

/-- the cells of three requests, with the first and the last id and a gap between them -/
def gappedIds : List (Cell UInt16 ℕ) := [⟨0, 0, 10⟩, ⟨1, 1, 11⟩, ⟨2, 0xffff, 12⟩]

theorem findFreeId_exact_gapped : findFreeId gappedIds = some 2 ∧ ∀ d ∈ gappedIds, d.key ≠ 2 := by
  have hs : SortedKeys gappedIds := by
    unfold SortedKeys
    decide
  exact ⟨rfl, (findFreeId_exact hs).1 2 rfl⟩

/-! ## the order of the ids -/

structure IdsApart (tb : Tables) : Prop where
  sorted : SortedKeys tb.idMap
  distinct : (tb.idMap.map Cell.key).Nodup

variable {tb tb' : Tables}

theorem IdsApart.of_sublist (h : IdsApart tb) (hsub : tb'.idMap.Sublist tb.idMap) : IdsApart tb' :=
  ⟨h.sorted.sublist hsub, h.distinct.sublist (hsub.map Cell.key)⟩

theorem Op.idMap {C : Resolver → Prop} (h : Op C tb tb') : tb'.idMap.Sublist tb.idMap := by
  cases h with
  | removed x r tb' hr =>
    obtain ⟨_, _, _, _, _, _, hids, rfl⟩ := removeResolver_eq_some hr
    exact eraseNode_sublist hids
  | _ => exact List.Sublist.refl _

theorem Ops.idMap {C : Resolver → Prop} (h : Ops C tb tb') : tb'.idMap.Sublist tb.idMap := by
  induction h with
  | refl => exact List.Sublist.refl _
  | tail _ hop ih => exact hop.idMap.trans ih

theorem register_idsApart {addr : ℕ} {q : Query} {id : UInt16} {curTime : UInt32}
    (h : IdsApart tb) (hid : findFreeId tb.idMap = some id) :
    IdsApart (tb.register addr q id curTime) where
  sorted := pairwise_insertUpper _ _ h.sorted
  distinct := by
    refine (((insertUpper_perm _ _).map Cell.key).nodup_iff).mpr
      (List.nodup_cons.mpr ⟨?_, h.distinct⟩)
    intro hmem
    obtain ⟨d, hd, heq⟩ := List.mem_map.mp hmem
    exact findFreeId_fresh h.sorted hid d hd heq

/-! ## from the id to the request -/

/-- `find?` gives the entry with a key that no other entry has. -/
theorem find?_of_nodup {α κ : Type} [DecidableEq κ] {l : List α} {f : α → κ} (h : (l.map f).Nodup)
    {a : α} (ha : a ∈ l) : l.find? (fun b => f b == f a) = some a := by
  cases hf : l.find? (fun b => f b == f a) with
  | none => exact absurd (List.find?_eq_none.mp hf a ha) (by simp)
  | some b =>
    have hb : f b = f a := by simpa using List.find?_some hf
    rw [List.inj_on_of_nodup_map h (List.mem_of_find?_eq_some hf) ha hb]

theorem deref_of_mem (hl : Linked tb) {r : Resolver} (hr : r ∈ tb.resolvers) :
    tb.deref r.addr = some r := by
  obtain ⟨e, he, rfl⟩ := List.mem_map.mp hr
  have haddrs : (tb.resolversMap.map fun e => e.2.addr).Nodup := by
    have h := hl.addrs
    unfold resolvers at h
    rw [List.map_map] at h
    exact h
  exact congrArg (Option.map Prod.snd) (find?_of_nodup haddrs he)

/-- The request that is moved to the A record, after it. -/
theorem deref_requeue (hl : Linked tb) {r : Resolver} (hr : r ∈ tb.resolvers) :
    (tb.requeue r.addr).deref r.addr =
      some { r with recordType := recordA, sendIter := some tb.nextNode } := by
  obtain ⟨rest, _, hp⟩ := modify_perm (f := fun r => { r with
    recordType := recordA, sendIter := some tb.nextNode }) hl.addrs hr
  exact deref_of_mem (requeue_linked hl r.addr) (hp.mem_iff.mpr List.mem_cons_self)

/-- **The id of an active request leads to this request.** -/
theorem findId_of_mem (hl : Linked tb) (hi : IdsApart tb) {r : Resolver} (hr : r ∈ tb.resolvers) :
    tb.findId r.id = some r.addr := by
  have hc : idCell r ∈ tb.idMap := hl.ids.mem_iff.mpr (List.mem_map_of_mem hr)
  exact congrArg (Option.map Cell.val) (find?_of_nodup hi.distinct hc)

end Tables

namespace Sys

/-- In every run the ids are in order and distinct. -/
theorem idsApart {G : Sys → Action → Prop} {s : Sys} (hr : resolverSystem.Reach G s) (t : ℕ) :
    (s.threads t).tables.IdsApart := by
  refine hr.invariant (I := fun s => ∀ t, (s.threads t).tables.IdsApart) ?_ ?_ t
  · rintro s ⟨now, rfl⟩ t
    exact ⟨.nil, .nil⟩
  · intro s act s' hr h _ hs t
    have ht := ((sysMove hs).thread t).tables (C := fun _ => True) (locks hr).toCalls
      fun _ _ _ _ _ _ _ _ => trivial
    generalize (s'.threads t).tables = tb' at ht
    cases ht with
    | ops tb' hops => exact (h t).of_sublist hops.idMap
    | emptied => exact ⟨.nil, .nil⟩
    | registered q id _ hid _ => exact Tables.register_idsApart (h t) hid

end Sys
end Setka
