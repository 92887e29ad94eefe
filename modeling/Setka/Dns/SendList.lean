import Setka.Dns.Removal

/-!
# How often a request is on the send list

A request is moved to the A record by any datagram with its id and its name, also before its AAAA
query has been sent; it is on `sendList` twice then, and its iterator points to the second node.

* `toSend`           how often a request is on the list;
* `toSend_removed`   a removal takes no node of another request off the list;
* `Ops.older_cells`  no request on the list is newer than the active ones were;
* `Sys.sends_older`  in every run, those on the list were registered before.
-/

namespace Setka
namespace Tables

/-- how often a request is on the send list -/
def toSend (tb : Tables) (p : ℕ) : ℕ := tb.sendList.countP (fun c => c.val = p)

variable {tb tb' : Tables} {x p : ℕ} {r : Resolver}

theorem removeResolver_eraseSend (h : tb.removeResolver x = some (tb', some r)) :
    tb.eraseSend r = some tb'.sendList := by
  obtain ⟨_, _, _, _, hs, _, _, rfl⟩ := removeResolver_eq_some h
  exact hs

theorem eraseSend_sublist {sends : List (Cell Unit ℕ)} (h : tb.eraseSend r = some sends) :
    sends.Sublist tb.sendList := by
  unfold eraseSend at h
  split at h
  · cases h
    exact List.Sublist.refl _
  · exact Cell.eraseNode_sublist h

/-- The requests on the list are not newer than the active ones. -/
theorem Op.older_cells {C : Resolver → Prop} {n : ℕ} (h : Op C tb tb')
    (hr : ∀ r ∈ tb.resolvers, r.addr < n) (hc : ∀ c ∈ tb.sendList, c.val < n) :
    ∀ c ∈ tb'.sendList, c.val < n := by
  cases h with
  | removed x r tb' h =>
    exact fun c hc' => hc c ((eraseSend_sublist (removeResolver_eraseSend h)).subset hc')
  | requeued r hd =>
    intro c hc'
    rcases List.mem_append.mp hc' with hc' | hc'
    · exact hc c hc'
    · rw [List.mem_singleton.mp hc']
      exact hr r (deref_eq_some hd).1
  | dnsSet | swapped => exact hc
  | sent => exact fun c hc' => hc c (List.mem_of_mem_tail hc')

theorem Ops.older_cells {C : Resolver → Prop} {n : ℕ} (h : Ops C tb tb')
    (hr : ∀ r ∈ tb.resolvers, r.addr < n) (hc : ∀ c ∈ tb.sendList, c.val < n) :
    ∀ c ∈ tb'.sendList, c.val < n := by
  induction h with
  | refl => exact hc
  | tail hops hop ih => exact hop.older_cells (Ops.older hops hr) ih

/-! ## how often a request is on the list -/

theorem toSend_append (tb tb' : Tables) (c : Cell Unit ℕ)
    (h : tb'.sendList = tb.sendList ++ [c]) (p : ℕ) :
    tb'.toSend p = tb.toSend p + if c.val = p then 1 else 0 := by
  unfold toSend
  rw [h, List.countP_append, List.countP_singleton]
  simp only [decide_eq_true_eq]

theorem toSend_markSent {c : Cell Unit ℕ} {rest : List (Cell Unit ℕ)}
    (h : tb.sendList = c :: rest) (p p' : ℕ) :
    tb.toSend p' = (tb.markSent p).toSend p' + if c.val = p' then 1 else 0 := by
  have hrest : (tb.markSent p).sendList = rest := by
    show tb.sendList.tail = rest
    rw [h]
    rfl
  unfold toSend
  rw [h, hrest, List.countP_cons]
  simp only [decide_eq_true_eq]

/-- A removal takes no node of another request off the list. -/
theorem toSend_removed (hs : SendKept tb) (h : tb.removeResolver x = some (tb', some r))
    (hp : r.addr ≠ p) : tb'.toSend p = tb.toSend p := by
  have hr : r ∈ tb.resolvers :=
    List.mem_map_of_mem (find_eq_some (removeResolver_eq_some h).1)
  have hsend := removeResolver_eraseSend h
  unfold eraseSend at hsend
  unfold toSend
  split at hsend
  · rw [Option.some.inj hsend]
  · rename_i n hn
    have hc : sendCell r = some ⟨n, (), r.addr⟩ := by
      unfold sendCell
      rw [hn]
      rfl
    have hperm := Cell.eraseNode_perm hs.nodes (hs.kept r hr _ hc) hsend
    rw [hperm.countP_eq, List.countP_cons, if_neg (by simpa using hp), Nat.add_zero]

end Tables

namespace Sys
variable {s : Sys}

/-- The requests on a send list were registered before, in every run. -/
theorem sends_older {G : Sys → Action → Prop} (hr : resolverSystem.Reach G s) (t : ℕ) :
    ∀ c ∈ (s.threads t).tables.sendList, c.val < s.nextCall := by
  refine hr.invariant (I := fun s => ∀ t, ∀ c ∈ (s.threads t).tables.sendList, c.val < s.nextCall)
    ?_ ?_ t
  · rintro s ⟨now, rfl⟩ t c hc
    cases hc
  · intro s act s' hr h _ hs t
    have hm := sysMove hs
    have hold : ∀ c ∈ (s.threads t).tables.sendList, c.val < s'.nextCall :=
      fun c hc => Nat.lt_of_lt_of_le (h t c hc) hm.nextCall_le
    have ht := (hm.thread t).tables (C := fun _ => True) (locks hr).toCalls
      fun _ _ _ _ _ _ _ _ => trivial
    generalize (s'.threads t).tables = tb' at ht
    cases ht with
    | ops tb' hops =>
      exact hops.older_cells
        (fun r hmem => Nat.lt_of_lt_of_le ((stored hr).older t r hmem) hm.nextCall_le) hold
    | emptied => exact nofun
    | registered q id _ _ hn =>
      intro c hc
      rcases List.mem_append.mp hc with hc | hc
      · exact hold c hc
      · obtain rfl := List.mem_singleton.mp hc
        rw [hn]
        exact Nat.lt_succ_self _

end Sys
end Setka
