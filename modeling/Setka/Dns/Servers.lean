import Setka.Dns.Events
import Setka.Dns.Removal

/-!
# The server a query is sent to

`resolve()` takes the server of a request as an argument, which may be left out.  The send loop puts
the system server in its place if the last quad of the address is zero, and tests the validity of
the address after that.

* `wantedServer`        the server that is meant: the one that was given if it is valid, or else the
                        system server;
* `Serves`              the send loop sends its first request to a server, or completes it with an
                        error if there is none;
* `ServerKnown`         what the record of a request says about the arguments of `resolve()`, in
                        every run;
* `serves_wanted_iff`   the server is the one that is meant if and only if the address that was
                        given is not a valid one with a last quad of zero.
-/

namespace Setka

/-! ## the choice -/

/-- the server that is meant by the argument of `resolve()`, if there is one -/
def wantedServer (dnsIP system : Address) : Option Address :=
  if dnsIP.host.isValid then some dnsIP
  else if system.host.isValid then some system
  else none

/-- a valid address that `get_v4() == 0` takes for one that was not given -/
def Address.MistakenForUnset (a : Address) : Prop := a.host.isValid = true ∧ a.host.getV4 = 0

instance (a : Address) : Decidable a.MistakenForUnset := inferInstanceAs (Decidable (_ ∧ _))

theorem Ip.isValid_of_getV4 {h : Ip} (hne : h.getV4 ≠ 0) : h.isValid = true := by
  unfold Ip.isValid
  split
  · exact bne_iff_ne.mpr hne
  · have hq : (h.q3 != 0) = true := bne_iff_ne.mpr hne
    rw [hq, Bool.true_or, Bool.true_or, Bool.true_or]

namespace LookupThread
variable {T : LookupThread} {r : Resolver}

/-- the server the send loop takes for a request, if its address is valid -/
def takenServer (T : LookupThread) (r : Resolver) : Option Address :=
  if (T.server r).host.isValid then some (T.server r) else none

/-- The send loop sends its first request `r` to the server, or removes it and completes it with an
error if there is no server. -/
def Serves (T : LookupThread) (r : Resolver) : Option Address → Prop
  | some a => ∀ e, ∃ T' es, T.sendStep e = some (T', es) ∧
      es = (if e.send = .sent then [.sent r.addr r.recordType a] else []) ∧
      r.addr ∈ T'.tables.addrs
  | none => ∀ e, ∃ T' r' ip, T.sendStep e = some (T', []) ∧
      T'.pc = .cbLock ⟨r', .error, ip, .send⟩ ∧ r'.addr = r.addr ∧ r.addr ∉ T'.tables.addrs

section
variable (hl : T.tables.Linked) (hs : T.tables.SendKept) {c : Cell Unit ℕ}
  {rest : List (Cell Unit ℕ)} (hc : T.tables.sendList = c :: rest)
  (hr : T.tables.deref c.val = some r)
include hc hr

/-- With a valid address the packet goes to the server that was taken. -/
theorem sendStep_valid (hv : (T.server r).host.isValid = true) (e : Env) :
    ∃ T' es, T.sendStep e = some (T', es) ∧
      es = (if e.send = .sent then [.sent r.addr r.recordType (T.server r)] else []) ∧
      r.addr ∈ T'.tables.addrs := by
  have hmem : r.addr ∈ (T.serverChosen r).tables.addrs := by
    have haddrs : (T.serverChosen r).tables.addrs = T.tables.addrs := Tables.setDns_addrs _ _ _
    rw [haddrs]
    exact List.mem_map_of_mem (Tables.deref_eq_some hr).1
  unfold sendStep
  rw [hc]
  show ∃ T' es, (T.tables.deref c.val).bind _ = _ ∧ _
  rw [hr, Option.bind_some, if_pos hv]
  cases e.send with
  | sent =>
    refine ⟨_, _, rfl, rfl, ?_⟩
    show r.addr ∈ ((T.serverChosen r).tables.markSent r.addr).addrs
    rw [Tables.markSent_addrs]
    exact hmem
  | notReady => exact ⟨_, _, rfl, rfl, hmem⟩
  | error => exact ⟨_, _, rfl, rfl, hmem⟩

include hl hs

/-- Without one the request is removed and completed with an error. -/
theorem sendStep_invalid (hv : (T.server r).host.isValid = false) (e : Env) :
    ∃ T' r' ip, T.sendStep e = some (T', []) ∧ T'.pc = .cbLock ⟨r', .error, ip, .send⟩ ∧
      r'.addr = r.addr ∧ r.addr ∉ T'.tables.addrs := by
  have hl' : (T.serverChosen r).tables.Linked :=
    (Tables.Op.dnsSet (C := fun _ => True) r.addr (T.server r)).linked hl
  have hs' := Tables.setDns_sendKept hs r.addr (T.server r)
  -- the record of the request, with the server that was taken
  obtain ⟨r', hr', haddr, hhnr⟩ : ∃ r' ∈ (T.serverChosen r).tables.resolvers,
      r'.addr = r.addr ∧ r'.hnr = r.hnr := by
    have hmap : (T.serverChosen r).tables.resolvers.map (fun r => (r.addr, r.hnr)) =
        T.tables.resolvers.map fun r => (r.addr, r.hnr) := Tables.modify_map _ _ fun _ => rfl
    have hmem : (r.addr, r.hnr) ∈ T.tables.resolvers.map fun r => (r.addr, r.hnr) :=
      List.mem_map_of_mem (Tables.deref_eq_some hr).1
    rw [← hmap] at hmem
    obtain ⟨r', hr', heq⟩ := List.mem_map.mp hmem
    exact ⟨r', hr', congrArg Prod.fst heq, congrArg Prod.snd heq⟩
  obtain ⟨tb, hrem⟩ := Tables.removeResolver_ok hl' hs' (Tables.find_of_mem hl' hr')
  have hgone := (Tables.removeResolver_addrs hl'.keys hrem).nodup_iff.mp hl'.addrs
  unfold sendStep
  rw [hc]
  show ∃ T' r' ip, (T.tables.deref c.val).bind _ = _ ∧ _
  rw [hr, Option.bind_some, hv, if_neg Bool.false_ne_true]
  unfold complete
  rw [← hhnr, hrem]
  refine ⟨_, r', _, rfl, rfl, haddr, ?_⟩
  rw [← haddr]
  exact (List.nodup_cons.mp hgone).1

/-- **The send loop serves its first request** as the test of its address says, and no other way. -/
theorem serves_iff {want : Option Address} : T.Serves r want ↔ T.takenServer r = want := by
  unfold takenServer
  cases hv : (T.server r).host.isValid with
  | true =>
    rw [if_pos rfl]
    constructor
    · intro h
      obtain ⟨T₁, es₁, h₁, hes₁, _⟩ := sendStep_valid hc hr hv {}
      cases want with
      | none =>
        obtain ⟨T₂, _, _, h₂, _⟩ := h {}
        cases h₁.symm.trans h₂
        cases hes₁
      | some a =>
        obtain ⟨T₂, es₂, h₂, hes₂, _⟩ := h {}
        cases h₁.symm.trans h₂
        have hev := List.cons.inj (hes₁.symm.trans hes₂)
        exact congrArg some (Event.sent.inj hev.1).2.2
    · rintro rfl
      exact sendStep_valid hc hr hv
  | false =>
    rw [if_neg Bool.false_ne_true]
    constructor
    · intro h
      obtain ⟨T₁, _, _, h₁, _, _, hgone⟩ := sendStep_invalid hl hs hc hr hv {}
      cases want with
      | none => rfl
      | some a =>
        obtain ⟨T₂, es₂, h₂, _, hmem⟩ := h {}
        cases h₁.symm.trans h₂
        exact absurd hmem hgone
    · rintro rfl
      exact sendStep_invalid hl hs hc hr hv

end

/-! ## one step of `run()` -/

variable {t now : ℕ} {e : Env} {T' : LookupThread} {es : List Event}

/-- The server of a request changes in the send loop only. -/
theorem LocalMove.dns_record (h : LocalMove t now e T T' es) (hl : T.tables.Linked) :
    ∀ r' ∈ T'.tables.resolvers, ∃ r ∈ T.tables.resolvers, r'.addr = r.addr ∧
      (r'.dns = r.dns ∨ (T.pc = .send ∧ r'.dns = T.server r)) := by
  -- what stays as it was
  have hsame : ∀ r' ∈ T.tables.resolvers, ∃ r ∈ T.tables.resolvers, r'.addr = r.addr ∧
      (r'.dns = r.dns ∨ (T.pc = .send ∧ r'.dns = T.server r)) :=
    fun r' hr' => ⟨r', hr', rfl, .inl rfl⟩
  have hchosen : ∀ r₁ c, T.pc = .send → T.tables.deref c = some r₁ →
      ∀ r' ∈ (T.serverChosen r₁).tables.resolvers, ∃ r ∈ T.tables.resolvers, r'.addr = r.addr ∧
        (r'.dns = r.dns ∨ (T.pc = .send ∧ r'.dns = T.server r)) := by
    intro r₁ c hpc hr₁ r' hr'
    obtain ⟨r, hr, rfl⟩ := Tables.mem_modify hr'
    refine ⟨r, hr, ?_⟩
    split
    · rename_i haddr
      have heq : r = r₁ :=
        List.inj_on_of_nodup_map hl.addrs hr (Tables.deref_eq_some hr₁).1 haddr
      exact ⟨rfl, .inr ⟨hpc, by rw [heq]⟩⟩
    · exact ⟨rfl, .inl rfl⟩
  have hrequeue : ∀ p, ∀ r' ∈ (T.tables.requeue p).resolvers, ∃ r ∈ T.tables.resolvers,
      r'.addr = r.addr ∧ (r'.dns = r.dns ∨ (T.pc = .send ∧ r'.dns = T.server r)) := by
    intro p r' hr'
    obtain ⟨r, hr, rfl⟩ := Tables.mem_requeue hr'
    refine ⟨r, hr, ?_⟩
    split <;> exact ⟨rfl, .inl rfl⟩
  cases h with
  | requeued d r mode => exact hrequeue r.addr
  | requeueFailed d r tb r' _ _ _ _ _ hrem =>
    exact fun r' hr' => hrequeue r.addr r' (Tables.removeResolver_subset hrem hr')
  | sent c rest r hpc _ hr =>
    intro r' hr'
    obtain ⟨r₁, hr₁, rfl⟩ := Tables.mem_markSent hr'
    obtain ⟨r₀, hr₀, h₀⟩ := hchosen r c.val hpc hr r₁ hr₁
    refine ⟨r₀, hr₀, ?_⟩
    split <;> exact h₀
  | sendNotReady c rest r hpc _ hr | sendError c rest r hpc _ hr => exact hchosen r c.val hpc hr
  | noServer c rest r tb r' hpc _ hr _ hrem =>
    exact fun r' hr' => hchosen r c.val hpc hr r' (Tables.removeResolver_subset hrem hr')
  | replied d r res tb r' _ _ _ _ hrem | wrapTimeout c rest r tb r' _ _ _ hrem
      | expireTimeout c rest r tb r' _ _ _ _ hrem | drainNext d x r rest tb r' _ _ hrem =>
    exact fun r' hr' => hsame r' (Tables.removeResolver_subset hrem hr')
  | _ => exact hsame

end LookupThread

/-- past `InitDNS` -/
def Pc.dnsKnown : Pc → Bool
  | .notStarted | .joinPrev | .initDNS => false
  | _ => true

theorem Site.resume_dnsKnown (s : Site) : s.resume.dnsKnown = true := by
  cases s <;> rfl

/-- The system server is looked up once. -/
theorem LookupThread.LocalMove.dns {t now : ℕ} {e : Env} {T T' : LookupThread} {es : List Event}
    (h : LookupThread.LocalMove t now e T T' es) (hpc : T.pc.dnsKnown = true) :
    T'.dns = T.dns ∧ T'.pc.dnsKnown = true := by
  cases h
  case initDNS h =>
    rw [h] at hpc
    cases hpc
  case cbRelock s _ _ => exact ⟨rfl, s.resume_dnsKnown⟩
  case wakeReady =>
    refine ⟨rfl, ?_⟩
    dsimp only
    split <;> rfl
  case sent => exact ⟨rfl, hpc⟩
  all_goals exact ⟨rfl, rfl⟩

/-! ## all runs -/

/-- The server in the record of a request is the argument of `resolve()`, or the system server if
the argument has a last quad of zero. -/
def ServerKnown (log : List Event) (T : LookupThread) (r : Resolver) : Prop :=
  ∃ q n b, .registered r.addr q n b ∈ log ∧ (r.dns = q.dnsIP ∨
    (q.dnsIP.host.getV4 = 0 ∧ r.dns = T.dns ∧ T.pc.dnsKnown = true))

theorem ServerKnown.mono {log log' : List Event} {T T' : LookupThread} {r : Resolver}
    (h : ServerKnown log T r) (hlog : ∀ ev ∈ log, ev ∈ log')
    (hT : T.pc.dnsKnown = true → T'.dns = T.dns ∧ T'.pc.dnsKnown = true) :
    ServerKnown log' T' r := by
  obtain ⟨q, n, b, hev, hdns⟩ := h
  refine ⟨q, n, b, hlog _ hev, hdns.imp_right fun ⟨hquad, hdns, hpc⟩ => ?_⟩
  obtain ⟨heq, hpc'⟩ := hT hpc
  exact ⟨hquad, hdns.trans heq.symm, hpc'⟩

/-- The server the send loop takes is known too. -/
theorem ServerKnown.taken {log : List Event} {T : LookupThread} {r : Resolver}
    (h : ServerKnown log T r) (hpc : T.pc.dnsKnown = true) (r' : Resolver)
    (haddr : r'.addr = r.addr) (hdns : r'.dns = T.server r) : ServerKnown log T r' := by
  obtain ⟨q, n, b, hev, hcase⟩ := h
  refine ⟨q, n, b, by rw [haddr]; exact hev, ?_⟩
  unfold LookupThread.server at hdns
  split at hdns
  · rename_i hquad
    rcases hcase with heq | ⟨hzero, _, _⟩
    · exact .inr ⟨by rw [← heq]; exact hquad, hdns, hpc⟩
    · exact .inr ⟨hzero, hdns, hpc⟩
  · rw [hdns]
    exact hcase

namespace Sys
variable {act : Action} {s s' : Sys}

theorem serverKnown_step (hst : Stored s) (hc : Calls s)
    (h : ∀ t, ∀ r ∈ (s.threads t).tables.resolvers, ServerKnown s.log (s.threads t) r)
    (hm : Move act s s') :
    ∀ t, ∀ r ∈ (s'.threads t).tables.resolvers, ServerKnown s'.log (s'.threads t) r := by
  intro t r hr
  have hold : ∀ {T' : LookupThread}, r ∈ (s.threads t).tables.resolvers →
      ((s.threads t).pc.dnsKnown = true → T'.dns = (s.threads t).dns ∧ T'.pc.dnsKnown = true) →
      ServerKnown s'.log T' r := fun hr hT => (h t r hr).mono (fun _ => hm.log_mono) hT
  have ht := hm.thread t
  generalize s'.threads t = T' at ht hr ⊢
  cases ht with
  | same | cancelWait | toldToQuit | startSending | popQueue => exact hold hr fun hk => ⟨rfl, hk⟩
  | created | cleanedUp | joined => cases hr
  | registered a q needStart id hcall _ _ _ hs' =>
    rw [registerIn_tables] at hr
    have hp := Tables.register_resolvers s.nextCall id (ticks s.now)
      (hc.absent a q t needStart hcall)
    rcases List.mem_cons.mp (hp.mem_iff.mp hr) with rfl | hr
    · refine ⟨q, s.now, s.runsCallbackOf a == some q.hnr, ?_, .inl rfl⟩
      rw [hs']
      exact List.mem_cons_self
    · refine hold hr fun hk => ?_
      cases needStart with
      | true =>
        rw [hc.regNew a q t hcall] at hk
        cases hk
      | false => exact ⟨rfl, hk⟩
  | cancelled a x tb r' _ _ hrem =>
    rw [cancelled_tables] at hr
    refine hold (Tables.removeResolver_subset hrem hr) fun hk => ⟨?_, ?_⟩
    · unfold Sys.cancelled
      split <;> rfl
    · rw [cancelled_pc]
      exact hk
  | cancelMiss a x tb _ _ hrem =>
    have hr' : r ∈ (Sys.cancelled (s.threads t) tb).tables.resolvers := hr
    rw [cancelled_tables, (Tables.removeResolver_eq_none hrem).1] at hr'
    refine hold hr' fun hk => ⟨?_, ?_⟩
    · show (Sys.cancelled (s.threads t) tb).dns = _
      unfold Sys.cancelled
      split <;> rfl
    · show (Sys.cancelled (s.threads t) tb).pc.dnsKnown = true
      rw [cancelled_pc]
      exact hk
  | joinedPrev hpc =>
    refine hold hr fun hk => ?_
    rw [hpc] at hk
    cases hk
  | openSocket | openFailed | queueEmpty | drainedOpen => exact hold hr fun _ => ⟨rfl, rfl⟩
  | own e T' es _ _ hl =>
    obtain ⟨r₀, hr₀, haddr, hdns⟩ := hl.dns_record (hst.linked t) r hr
    rcases hdns with hdns | ⟨hpc, hdns⟩
    · obtain ⟨q, n, b, hev, hcase⟩ := (h t r₀ hr₀).mono (fun _ => hm.log_mono) fun hk => hl.dns hk
      exact ⟨q, n, b, by rw [haddr]; exact hev, by rw [hdns]; exact hcase⟩
    · have hk : (s.threads t).pc.dnsKnown = true := by
        rw [hpc]
        rfl
      exact ((h t r₀ hr₀).taken hk r haddr hdns).mono (fun _ => hm.log_mono) fun hk => hl.dns hk

theorem serverKnown {G : Sys → Action → Prop} (hr : resolverSystem.Reach G s) :
    ∀ t, ∀ r ∈ (s.threads t).tables.resolvers, ServerKnown s.log (s.threads t) r := by
  refine hr.invariant
    (I := fun s => ∀ t, ∀ r ∈ (s.threads t).tables.resolvers, ServerKnown s.log (s.threads t) r)
    ?_ ?_
  · rintro s ⟨now, rfl⟩
    exact nofun
  · intro s act s' hr h _ hs
    exact serverKnown_step (stored hr) (locks hr).toCalls h (sysMove hs)

end Sys

/-- The two tests agree but for an address that is mistaken for one that was not given. -/
theorem taken_eq_wanted_iff {T : LookupThread} {r : Resolver} {dnsIP : Address}
    (h : r.dns = dnsIP ∨ (dnsIP.host.getV4 = 0 ∧ r.dns = T.dns)) :
    T.takenServer r = wantedServer dnsIP T.dns ↔ (dnsIP.MistakenForUnset → dnsIP = T.dns) := by
  have hserver : T.server r = if dnsIP.host.getV4 = 0 then T.dns else dnsIP := by
    unfold LookupThread.server
    rcases h with h | ⟨hzero, h⟩
    · rw [h]
    · rw [h, if_pos hzero]
      split <;> rfl
  unfold LookupThread.takenServer wantedServer
  rw [hserver]
  by_cases hzero : dnsIP.host.getV4 = 0
  · rw [if_pos hzero]
    by_cases hv : dnsIP.host.isValid = true
    · rw [if_pos hv]
      constructor
      · intro heq _
        split at heq
        · exact (Option.some.inj heq).symm
        · cases heq
      · intro heq
        rw [← heq ⟨hv, hzero⟩, if_pos hv]
    · rw [if_neg hv]
      exact iff_of_true rfl fun hm => absurd hm.1 hv
  · have hv := Ip.isValid_of_getV4 hzero
    rw [if_neg hzero, if_pos hv, if_pos hv]
    exact iff_of_true rfl fun hm => absurd hm.2 hzero

/-- **A query is sent to the server that is meant,** in every state of every run, if and only if the
address that was given is not a valid one with a last quad of zero, or is that of the system server
anyway.  The request is the one the send loop comes to next. -/
theorem serves_wanted_iff {s : Sys} (hs : Run s) {t n : ℕ} {q : Query} {b : Bool} {c : Cell Unit ℕ}
    {rest : List (Cell Unit ℕ)} {r : Resolver}
    (hc : (s.threads t).tables.sendList = c :: rest)
    (hr : (s.threads t).tables.deref c.val = some r) (hq : .registered r.addr q n b ∈ s.log) :
    (s.threads t).Serves r (wantedServer q.dnsIP (s.threads t).dns) ↔
      (q.dnsIP.MistakenForUnset → q.dnsIP = (s.threads t).dns) := by
  obtain ⟨q', n', b', hq', hdns⟩ := Sys.serverKnown hs t r (Tables.deref_eq_some hr).1
  obtain ⟨rfl, _⟩ := (Sys.numbered hs).unique r.addr q n b q' n' b' hq hq'
  rw [LookupThread.serves_iff ((Sys.stored hs).linked t) (Sys.sendKept hs t) hc hr]
  exact taken_eq_wanted_iff (hdns.imp_right fun h => ⟨h.1, h.2.1⟩)

/-- A request is made, and the lookup thread comes to the send loop. -/
def toSendLoop (q : Query) (system : Address) : List Action :=
  callSteps (.client 0) (.resolve q) 2 ++ .run 0 {} :: .run 0 { systemDns := system } ::
  lookupSteps 0 8 ++ .run 0 { wake := .ready false false false } :: lookupSteps 0 9 ++
  .run 0 { wake := .ready false true false } :: lookupSteps 0 5

/-- the state in which the thread 0 is to send its request -/
def AtSendLoop (s : Sys) (q : Query) (system : Address) : Prop :=
  s.log = [.registered 0 q 0 false] ∧ (s.threads 0).pc = .send ∧
    (s.threads 0).tables.sendList = [⟨2, (), 0⟩] ∧ (s.threads 0).dns = system ∧
    (((s.threads 0).tables.deref 0).any fun r => r.addr == 0 && r.dns == q.dnsIP) = true

instance (s : Sys) (q : Query) (system : Address) : Decidable (AtSendLoop s q system) :=
  inferInstanceAs (Decidable (_ ∧ _))

/-- the system server 10.0.0.1 -/
def systemServer : Address := ⟨Ip.ofV4 0x0a000001, 53⟩

/-- the host "a", with the server 127.0.0.1 -/
def queryLocal : Query := ⟨1, [97], 1000, Ip.ofV4 0x7f000001, 53⟩

/-- the host "a", with the server 2001:db8:: -/
def queryZeroQuad : Query := ⟨1, [97], 1000, ⟨0x20010db8, 0, 0, 0⟩, 53⟩

theorem AtSendLoop.record {s : Sys} {q : Query} {system : Address} (h : AtSendLoop s q system) :
    ∃ r, (s.threads 0).tables.deref 0 = some r ∧ r.addr = 0 ∧ r.dns = q.dnsIP := by
  obtain ⟨_, _, _, _, hr⟩ := h
  obtain ⟨r, hr, hfields⟩ := (Option.any_eq_true _ _).mp hr
  rw [Bool.and_eq_true, beq_iff_eq, beq_iff_eq] at hfields
  exact ⟨r, hr, hfields⟩

set_option maxRecDepth 10000 in
/-- The query to 127.0.0.1 goes there. -/
theorem serves_wanted_iff_local : ∃ s r, Run s ∧ AtSendLoop s queryLocal systemServer ∧
    (s.threads 0).Serves r (wantedServer queryLocal.dnsIP (s.threads 0).dns) := by
  obtain ⟨s, hs, hp⟩ := exists_run_reach (fun _ _ => True) (toSendLoop queryLocal systemServer)
    (fun s => AtSendLoop s queryLocal systemServer) 0 (by decide)
  have h : AtSendLoop s queryLocal systemServer := of_decide_eq_true hp
  obtain ⟨r, hr, haddr, _⟩ := h.record
  have hq : .registered r.addr queryLocal 0 false ∈ s.log := by
    rw [haddr, h.1]
    exact List.mem_singleton_self _
  refine ⟨s, r, hs, h, ?_⟩
  exact (serves_wanted_iff hs h.2.2.1 hr hq).mpr fun hm => absurd hm (by decide)

set_option maxRecDepth 10000 in
/-- The query to 2001:db8:: goes to the system server. -/
theorem serves_zeroQuad : ¬ ∀ s, Run s → ∀ t n q b c rest r,
    (s.threads t).tables.sendList = c :: rest → (s.threads t).tables.deref c.val = some r →
    .registered r.addr q n b ∈ s.log →
    (s.threads t).Serves r (wantedServer q.dnsIP (s.threads t).dns) := by
  intro hall
  obtain ⟨s, hs, hp⟩ := exists_run_reach (fun _ _ => True) (toSendLoop queryZeroQuad systemServer)
    (fun s => AtSendLoop s queryZeroQuad systemServer) 0 (by decide)
  have h : AtSendLoop s queryZeroQuad systemServer := of_decide_eq_true hp
  obtain ⟨r, hr, haddr, hdns⟩ := h.record
  have hq : .registered r.addr queryZeroQuad 0 false ∈ s.log := by
    rw [haddr, h.1]
    exact List.mem_singleton_self _
  have hserves := hall s hs 0 0 queryZeroQuad false _ _ r h.2.2.1 hr hq
  rw [LookupThread.serves_iff ((Sys.stored hs).linked 0) (Sys.sendKept hs 0) h.2.2.1 hr] at hserves
  have heq := (taken_eq_wanted_iff (.inl hdns)).mp hserves (by decide)
  rw [h.2.2.2.1] at heq
  exact absurd heq (by decide)

end Setka
