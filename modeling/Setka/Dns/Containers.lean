import Setka.Dns.Locks

/-!
# The containers in every run

The links between the containers of every lookup thread, in every state of every run.

* `ThreadMove.tables`    what a step of the system can do to the tables of a thread;
* `stored`               `idMap` and the time maps are linked to the active requests in every run;
* `RequeuesSent`         the condition on a step under which `sendList` stays linked: a request that
                         is moved to the A record has been sent;
* `Consistent`           the whole property, container by container.
-/

namespace Setka
namespace Sys

variable {act : Action} {s s' : Sys} {u : ℕ} {T T' : LookupThread}

/-! ## what a step does to the tables -/

theorem registerIn_tables (T : LookupThread) (now addr : ℕ) (q : Query) (id : UInt16)
    (needStart : Bool) :
    (registerIn T now addr q id needStart).tables = T.tables.register addr q id (ticks now) := by
  cases needStart <;> rfl

/-- what a step of the system does to the tables of a thread; `C` is a condition on the requests
that are moved to the A record -/
inductive TablesMove (C : Resolver → Prop) (s s' : Sys) (tb : Tables) : Tables → Prop
  | ops (tb' : Tables) : Tables.Ops C tb tb' → TablesMove C s s' tb tb'
  | emptied : TablesMove C s s' tb {}
  | registered (q : Query) (id : UInt16) : tb.find q.hnr = none →
      Tables.findFreeId tb.idMap = some id → s'.nextCall = s.nextCall + 1 →
      TablesMove C s s' tb (tb.register s.nextCall q id (ticks s.now))

theorem ThreadMove.tables {C : Resolver → Prop} (h : ThreadMove act s s' u (s.threads u) T')
    (hc : Calls s)
    (hC : ∀ e d r, act = .run u e → (s.threads u).pc = .receive →
      (s.threads u).flags.read = true → e.recv = .datagram d →
      recvAction (s.threads u).tables d.buf d.size = some (.requeue r) → C r) :
    TablesMove C s s' (s.threads u).tables T'.tables := by
  cases h with
  | created | cleanedUp | joined => exact .emptied
  | registered a q needStart id hcall _ hid _ hs' =>
    rw [registerIn_tables]
    exact .registered q id (hc.absent a q u needStart hcall) hid (by rw [hs'])
  | cancelled a x tb r _ _ hr =>
    rw [cancelled_tables]
    exact .ops _ (.single (.removed x r tb hr))
  | cancelMiss a x tb _ _ hr =>
    show TablesMove C s s' _ (Sys.cancelled (s.threads u) tb).tables
    rw [cancelled_tables, (Tables.removeResolver_eq_none hr).1]
    exact .ops _ .refl
  | own e T' es _ _ hl hact _ =>
    exact .ops _ (hl.tables fun d r hpc hf hd hr => hC e d r hact hpc hf hd hr)
  | _ => exact .ops _ .refl

theorem Move.nextCall_le (h : Move act s s') : s.nextCall ≤ s'.nextCall := by
  cases h with
  | resolveRegister => exact Nat.le_succ _
  | _ => exact Nat.le_refl _

theorem Move.nextCall_eq (h : Move act s s')
    (hc : ∀ a q t b, s.calls a ≠ .resolveRegister q t b) : s'.nextCall = s.nextCall := by
  cases h with
  | resolveRegister a q t needStart id s hcall => exact absurd hcall (hc a q t needStart)
  | _ => rfl

/-! ## all runs -/

/-- the links that hold in every run, and the age of the requests -/
structure Stored (s : Sys) : Prop where
  linked : ∀ t, (s.threads t).tables.Linked
  older : ∀ t, ∀ r ∈ (s.threads t).tables.resolvers, r.addr < s.nextCall

theorem stored_init (now : ℕ) : Stored (Sys.init now) where
  linked _ := Tables.linked_empty
  older t r hr := by cases hr

theorem stored_step (hc : Calls s) (h : Stored s) (hm : Move act s s') : Stored s' := by
  have key : ∀ t, (s'.threads t).tables.Linked ∧
      ∀ r ∈ (s'.threads t).tables.resolvers, r.addr < s'.nextCall := by
    intro t
    have hl := h.linked t
    have hold : ∀ r ∈ (s.threads t).tables.resolvers, r.addr < s'.nextCall :=
      fun r hr => (h.older t r hr).trans_le hm.nextCall_le
    have ht := (hm.thread t).tables (C := fun _ => True) hc fun _ _ _ _ _ _ _ _ => trivial
    generalize (s'.threads t).tables = tb' at ht
    cases ht with
    | ops tb' hops => exact ⟨hops.linked hl, hops.older hold⟩
    | emptied => exact ⟨Tables.linked_empty, fun r hr => by cases hr⟩
    | registered q id hx _ hn =>
      refine ⟨Tables.register_linked _ _ _ hl hx fun r hr => (h.older t r hr).ne, fun r hr => ?_⟩
      rcases List.mem_cons.mp ((Tables.register_resolvers _ _ _ hx).mem_iff.mp hr) with rfl | hr
      · rw [hn]
        exact Nat.lt_succ_self _
      · exact hold r hr
  exact ⟨fun t => (key t).1, fun t => (key t).2⟩

theorem stored {G : Sys → Action → Prop} (hr : resolverSystem.Reach G s) : Stored s := by
  refine hr.invariant (I := Stored) ?_ ?_
  · rintro s ⟨now, rfl⟩
    exact stored_init now
  · intro s act s' hr h _ hs
    exact stored_step (locks hr).toCalls h (sysMove hs)

/-! ## the send list -/

/-- A request that a datagram moves to the A record has been sent. -/
def RequeuesSent (s : Sys) : Action → Prop
  | .run t e => match e.recv with
    | .datagram d => (s.threads t).pc = .receive → (s.threads t).flags.read = true →
      match recvAction (s.threads t).tables d.buf d.size with
      | some (.requeue r) => r.sendIter = none
      | _ => True
    | _ => True
  | _ => True

instance (s : Sys) (act : Action) : Decidable (RequeuesSent s act) := by
  unfold RequeuesSent
  repeat (split; try infer_instance)
  all_goals infer_instance

theorem RequeuesSent.sent (h : RequeuesSent s act) {e : Env} {d : Datagram} {r : Resolver}
    (hact : act = .run u e) (hpc : (s.threads u).pc = .receive)
    (hf : (s.threads u).flags.read = true) (hd : e.recv = .datagram d)
    (ha : recvAction (s.threads u).tables d.buf d.size = some (.requeue r)) :
    r.sendIter = none := by
  subst hact
  simp only [RequeuesSent, hd, ha] at h
  exact h hpc hf

theorem sendLinked (hr : resolverSystem.Reach RequeuesSent s) (t : ℕ) :
    (s.threads t).tables.SendLinked := by
  refine hr.invariant (I := fun s => ∀ t, (s.threads t).tables.SendLinked) ?_ ?_ t
  · rintro s ⟨now, rfl⟩ t
    exact Tables.sendLinked_empty
  · intro s act s' hr h hg hs t
    have hl := (stored hr).linked t
    have ht := ((sysMove hs).thread t).tables (locks hr).toCalls
      fun e d r hact hpc hf hd ha => hg.sent hact hpc hf hd ha
    generalize (s'.threads t).tables = tb' at ht
    cases ht with
    | ops tb' hops => exact (hops.sendLinked hl (h t)).2
    | emptied => exact Tables.sendLinked_empty
    | registered q id hx _ _ => exact Tables.register_sendLinked _ _ _ (h t) hx

end Sys

/-! ## container by container -/

namespace Tables

/-- Every active request is in `idMap` once, in one time map once and in the other not at all, and
in `sendList` once if it is still to be sent; no other request is in a container. -/
structure Consistent (tb : Tables) : Prop where
  id : ∀ r ∈ tb.resolvers, tb.idMap.filter (fun c => c.val = r.addr) = [⟨r.idIter, r.id, r.addr⟩]
  time : ∀ r ∈ tb.resolvers, ∀ m, ((tb.timeMap m).filter (fun c => c.val = r.addr)).map link =
    if r.timeMap = m then [(r.timeMapIter, r.addr)] else []
  send : ∀ r ∈ tb.resolvers, tb.sendList.filter (fun c => c.val = r.addr) =
    match r.sendIter with
    | none => []
    | some n => [⟨n, (), r.addr⟩]
  idOwned : ∀ c ∈ tb.idMap, ∃ r ∈ tb.resolvers, r.addr = c.val
  timeOwned : ∀ m, ∀ c ∈ tb.timeMap m, ∃ r ∈ tb.resolvers, r.addr = c.val
  sendOwned : ∀ c ∈ tb.sendList, ∃ r ∈ tb.resolvers, r.addr = c.val

/-- What a container holds of one request, if it holds the image of all requests. -/
theorem filter_image {α : Type} {l : List α} {g : Resolver → Option α} {v : α → ℕ}
    {R : List Resolver} {r : Resolver} (hn : (R.map Resolver.addr).Nodup) (hr : r ∈ R)
    (hv : ∀ r a, g r = some a → v a = r.addr) (hl : l.Perm (R.filterMap g)) :
    l.filter (fun a => v a = r.addr) = (g r).toList := by
  have hp := List.perm_cons_erase hr
  have hn' := (hp.map Resolver.addr).nodup_iff.mp hn
  rw [List.map_cons, List.nodup_cons] at hn'
  have hrest : ((R.erase r).filterMap g).filter (fun a => v a = r.addr) = [] := by
    refine List.filter_eq_nil_iff.mpr fun a ha hva => hn'.1 ?_
    obtain ⟨r', hr', hg⟩ := List.mem_filterMap.mp ha
    rw [← of_decide_eq_true hva, hv r' a hg]
    exact List.mem_map_of_mem hr'
  have hfl := (hl.trans (hp.filterMap g)).filter (fun a => v a = r.addr)
  cases hg : g r with
  | none =>
    rw [List.filterMap_cons_none hg, hrest] at hfl
    exact List.perm_nil.mp hfl
  | some a =>
    have hva : decide (v a = r.addr) = true := decide_eq_true (hv r a hg)
    rw [List.filterMap_cons_some hg, List.filter_cons_of_pos (p := fun a => v a = r.addr) hva,
      hrest] at hfl
    exact List.perm_singleton.mp hfl

theorem Linked.consistent {tb : Tables} (hl : Linked tb) (hs : SendLinked tb) :
    Consistent tb where
  id r hr := by
    refine filter_image (g := fun r => some (idCell r)) hl.addrs hr (fun r a h => ?_) ?_
    · rw [← Option.some.inj h]
      rfl
    · rw [List.filterMap_eq_map']
      exact hl.ids
  time r hr m := by
    have h := filter_image (l := (tb.timeMap m).map link) (v := Prod.snd) (r := r)
      (g := fun r => if r.timeMap = m then some (timeLink r) else none) hl.addrs hr ?_ ?_
    · rw [List.filter_map] at h
      refine h.trans ?_
      split <;> rfl
    · intro r a h
      split at h
      · rw [← Option.some.inj h]
        rfl
      · cases h
    · refine (hl.times m).trans (List.Perm.of_eq ?_)
      rw [← List.filterMap_eq_map', List.filterMap_filter]
      simp only [decide_eq_true_eq]
  send r hr := by
    have h := filter_image (v := Cell.val) hl.addrs hr (fun r a h => ?_) hs.sends
    · refine h.trans ?_
      unfold sendCell
      cases r.sendIter <;> rfl
    · obtain ⟨n, _, hn⟩ := Option.map_eq_some_iff.mp h
      rw [← hn]
  idOwned c hc := by
    obtain ⟨r, hr, rfl⟩ := List.mem_map.mp (hl.ids.mem_iff.mp hc)
    exact ⟨r, hr, rfl⟩
  timeOwned m c hc := by
    obtain ⟨r, hr, h⟩ := List.mem_map.mp ((hl.times m).mem_iff.mp (List.mem_map_of_mem hc))
    exact ⟨r, List.mem_of_mem_filter hr, congrArg Prod.snd h⟩
  sendOwned c hc := by
    obtain ⟨r, hr, h⟩ := List.mem_filterMap.mp (hs.sends.mem_iff.mp hc)
    obtain ⟨n, _, hn⟩ := Option.map_eq_some_iff.mp h
    exact ⟨r, hr, congrArg Cell.val hn⟩

end Tables

/-- **The containers agree in every run** in which only requests that have been sent are moved to
the A record. -/
theorem containers_consistent {s : Sys} (hr : resolverSystem.Reach Sys.RequeuesSent s) (t : ℕ) :
    (s.threads t).tables.Consistent :=
  ((Sys.stored hr).linked t).consistent (Sys.sendLinked hr t)

/-- a request for the host "a" -/
def queryA (x : ℕ) : Query := ⟨x, [97], 1000, Address.unset⟩

/-- a request for the host "a" at the server 127.0.0.1 -/
def queryServer (x : ℕ) : Query := ⟨x, [97], 1000, Ip.ofV4 0x7f000001, 53⟩

/-- the reply "name error" of this server for the id 0 and the host "a" -/
def nameError : Datagram :=
  .ofBytes [0, 0, 0x80, 3, 0, 0, 0, 0, 0, 0, 0, 0, 1, 97, 0] ⟨Ip.ofV4 0x7f000001, 53⟩ (by decide)

/-- A request is made, and its AAAA query is sent. -/
def sendFirst : List Action :=
  callSteps (.client 0) (.resolve (queryServer 1)) 2 ++ lookupSteps 0 10 ++
  .run 0 { wake := .ready false false false } :: lookupSteps 0 9 ++
  .run 0 { wake := .ready false true false } :: lookupSteps 0 9

/-- The thread waits, and receives the datagram. -/
def receives (d : Datagram) : List Action :=
  .run 0 { wake := .ready true false false } :: lookupSteps 0 3 ++
  [.run 0 { recv := .datagram d }]

set_option maxRecDepth 10000 in
/-- a request that has been sent, was moved to the A record and waits to be sent again -/
theorem containers_consistent_queued : ∃ s, resolverSystem.run Sys.RequeuesSent
      (sendFirst ++ receives nameError) (Sys.init 0) = some s ∧
    .requeued 0 nameError ∈ s.log ∧ (s.threads 0).tables.sendList ≠ [] ∧
    (s.threads 0).tables.Consistent := by
  obtain ⟨s, hs, hp⟩ := Machine.exists_run resolverSystem Sys.RequeuesSent
    (sendFirst ++ receives nameError) (Sys.init 0)
    (fun s => .requeued 0 nameError ∈ s.log ∧ (s.threads 0).tables.sendList ≠ []) (by decide)
  obtain ⟨hev, hsend⟩ := of_decide_eq_true hp
  have hr : resolverSystem.Reach Sys.RequeuesSent s := (reach_init _ 0).run hs
  exact ⟨s, hs, hev, hsend, containers_consistent hr 0⟩

/-! ## a request on the send list twice -/

/-- One request is registered; the reply comes before the query has been sent. -/
def earlyReply : List Action :=
  callSteps (.client 0) (.resolve (queryA 1)) 2 ++ lookupSteps 0 10 ++
  [.run 0 { wake := .ready true false false }] ++ lookupSteps 0 5 ++
  [.run 0 { recv := .datagram nameError }] ++ lookupSteps 0 3

set_option maxRecDepth 10000 in
theorem containers_inconsistent : ¬ ∀ s, Run s → ∀ t, (s.threads t).mutex = none →
    (s.threads t).tables.Consistent := by
  intro h
  obtain ⟨s, hs, hp⟩ := exists_run_reach (fun _ _ => True) earlyReply
    (fun s => (s.threads 0).mutex = none ∧ ∃ r ∈ (s.threads 0).tables.resolvers,
      1 < ((s.threads 0).tables.sendList.filter (fun c => c.val = r.addr)).length) 0 (by decide)
  obtain ⟨hm, r, hr, hlen⟩ := of_decide_eq_true hp
  rw [(h s hs 0 hm).send r hr] at hlen
  split at hlen <;> simp at hlen

end Setka
