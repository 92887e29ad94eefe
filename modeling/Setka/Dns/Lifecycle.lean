import Setka.Lib.Monitor
import Setka.Dns.Replies
import Setka.Dns.SendList

/-!
# The life of a request

Seen from outside a request waits, with a number of queries to send, until it is answered, cancelled
or given up, and ends with its callback or with the `cancel()`.  This is an automaton that reads the
log; the containers, the mutexes and the threads are an implementation of it.

* `Stage`, `lifecycle`       the automaton of one request;
* `Follows`                  the tables of a thread agree with the stages of its requests;
* `Move.requests`            the steps of the system, as far as requests are concerned;
* `follows_lifecycle`        in every run the log of every request is accepted by its automaton, and
                             the stage of an active request is the one its record shows.
-/

namespace Setka

/-! ## the automaton -/

/-- the request an event is about -/
def Event.about : Event → Option ℕ
  | .registered k _ _ _ | .sent k _ _ | .requeued k _ | .replied k _ _ => some k
  | .entered k _ _ _ | .cancelled k => some k
  | .cancelReturned _ _ | .assertFailed | .badUnlock => none

/-- How far a request has come.  While it is active it asks for one record type and has a number of
queries to send. -/
inductive Stage where
  | unregistered
  | waiting (type : UInt16) (toSend : ℕ)
  | answered (result : DnsResult)
  | ended
deriving DecidableEq, Repr

namespace Stage

/-- the results a request is given up with -/
def givenUp (result : DnsResult) : Bool := result == .timeout || result == .error

/-- what an event about a request does to its stage -/
def next : Stage → Event → Option Stage
  | .unregistered, .registered _ _ _ _ => some (.waiting recordAAAA 1)
  | .waiting type (n + 1), .sent _ type' _ =>
    if type' = type then some (.waiting type n) else none
  | .waiting type n, .requeued _ _ =>
    if type = recordAAAA then some (.waiting recordA (n + 1)) else none
  | .waiting _ _, .replied _ _ result => some (.answered result)
  | .waiting _ _, .cancelled _ => some .ended
  | .waiting _ _, .entered _ _ result _ => if givenUp result then some .ended else none
  | .answered result, .entered _ _ result' _ => if result' = result then some .ended else none
  | _, _ => none

/-- the callback may be entered with this result -/
def EndsWith (result : DnsResult) : Stage → Prop
  | .waiting _ _ => givenUp result = true
  | .answered result' => result = result'
  | .unregistered | .ended => False

theorem EndsWith.next {q : Stage} {result : DnsResult} (h : q.EndsWith result) (k x now : ℕ) :
    q.next (.entered k x result now) = some .ended := by
  cases q with
  | waiting type n => cases n <;> exact if_pos h
  | answered result' => exact if_pos h
  | unregistered | ended => exact h.elim

/-- the steps of the automaton -/
inductive Move : Stage → Event → Stage → Prop
  | registered (k : ℕ) (q : Query) (n : ℕ) (b : Bool) :
      Move .unregistered (.registered k q n b) (.waiting recordAAAA 1)
  | sent (k : ℕ) (type : UInt16) (a : Address) (n : ℕ) :
      Move (.waiting type (n + 1)) (.sent k type a) (.waiting type n)
  | requeued (k : ℕ) (d : Datagram) (n : ℕ) :
      Move (.waiting recordAAAA n) (.requeued k d) (.waiting recordA (n + 1))
  | replied (k : ℕ) (d : Datagram) (result : DnsResult) (type : UInt16) (n : ℕ) :
      Move (.waiting type n) (.replied k d result) (.answered result)
  | cancelled (k : ℕ) (type : UInt16) (n : ℕ) : Move (.waiting type n) (.cancelled k) .ended
  | gaveUp (k x now : ℕ) (result : DnsResult) (type : UInt16) (n : ℕ) : givenUp result = true →
      Move (.waiting type n) (.entered k x result now) .ended
  | entered (k x now : ℕ) (result : DnsResult) :
      Move (.answered result) (.entered k x result now) .ended

/-- **The automaton takes no other step.** -/
theorem next_move {q q' : Stage} {ev : Event} (h : q.next ev = some q') : Move q ev q' := by
  unfold next at h
  split at h
  · cases h
    exact .registered _ _ _ _
  · split at h
    · rename_i ht
      cases h
      rw [ht]
      exact .sent _ _ _ _
    · cases h
  · split at h
    · rename_i ht
      cases h
      rw [ht]
      exact .requeued _ _ _
    · cases h
  · cases h
    exact .replied _ _ _ _ _
  · cases h
    exact .cancelled _ _ _
  · split at h
    · rename_i hg
      cases h
      exact .gaveUp _ _ _ _ _ _ hg
    · cases h
  · split at h
    · rename_i hr
      cases h
      rw [hr]
      exact .entered _ _ _ _
    · cases h
  · cases h

end Stage

/-- the automaton of the request `k` -/
def lifecycle (k : ℕ) : Monitor Event Stage where
  start := .unregistered
  next q ev := if ev.about = some k then q.next ev else some q

section
variable {es log : List Event} {ev : Event} {k : ℕ} {q : Stage}

theorem lifecycle_about (h : (lifecycle k).after log = some q) (hk : ev.about = some k) :
    (lifecycle k).after (ev :: log) = q.next ev :=
  (Monitor.after_cons h).trans (if_pos hk)

theorem lifecycle_quiet (h : ∀ ev ∈ es, ev.about ≠ some k) :
    (lifecycle k).after (es ++ log) = (lifecycle k).after log :=
  Monitor.after_quiet fun ev hev _ => if_neg (h ev hev)

theorem lifecycle_other {j : ℕ} (hj : ev.about = some j) (hne : j ≠ k) :
    (lifecycle k).after (ev :: log) = (lifecycle k).after log := by
  have hev : ∀ ev' ∈ [ev], ev'.about ≠ some k := by
    refine List.forall_mem_singleton.mpr ?_
    rw [hj]
    exact fun heq => hne (Option.some.inj heq)
  exact lifecycle_quiet hev

/-- An event changes the stage of the request it is about only. -/
theorem lifecycle_move {q' : Stage} (h : (lifecycle k).next q ev = some q') :
    (ev.about = some k ∧ q.Move ev q') ∨ (ev.about ≠ some k ∧ q' = q) := by
  unfold lifecycle at h
  dsimp only at h
  split at h
  · rename_i hk
    exact .inl ⟨hk, Stage.next_move h⟩
  · rename_i hk
    exact .inr ⟨hk, (Option.some.inj h).symm⟩

end

/-! ## the stages of the active requests -/

namespace Tables
variable {tb tb' : Tables} {x p : ℕ} {r : Resolver}

/-- The stage of every active request is the one its record and the send list show. -/
def Follows (log : List Event) (tb : Tables) : Prop := ∀ r ∈ tb.resolvers,
  (lifecycle r.addr).after log = some (.waiting r.recordType (tb.toSend r.addr))

section
variable {log es : List Event} (h : Follows log tb)
include h

theorem Follows.quiet (hes : ∀ ev ∈ es, ∀ r ∈ tb.resolvers, ev.about ≠ some r.addr) :
    Follows (es ++ log) tb := fun r hr =>
  (lifecycle_quiet fun ev hev => hes ev hev r hr).trans (h r hr)

theorem Follows.removed (hl : Linked tb) (hs : SendKept tb)
    (hr : tb.removeResolver x = some (tb', some r)) : Follows log tb' := by
  have hn := ((removeResolver_addrs hl.keys hr).nodup_iff.mp hl.addrs)
  intro r' hr'
  have hne : r.addr ≠ r'.addr := fun heq =>
    (List.nodup_cons.mp hn).1 (heq ▸ List.mem_map_of_mem hr')
  rw [toSend_removed hs hr hne]
  exact h r' (removeResolver_subset hr hr')

theorem Follows.setDns (p : ℕ) (a : Address) : Follows log (tb.setDns p a) := by
  intro r hr
  obtain ⟨r₀, h₀, rfl⟩ := mem_modify hr
  split <;> exact h r₀ h₀

/-- A request is moved to the A record. -/
theorem Follows.requeue (hl : Linked tb) (hr : tb.deref r.addr = some r)
    (htype : r.recordType = recordAAAA) (d : Datagram) :
    Follows (.requeued r.addr d :: log) (tb.requeue r.addr) := by
  intro r' hr'
  have hsend := toSend_append tb (tb.requeue r.addr) ⟨tb.nextNode, (), r.addr⟩ rfl
  obtain ⟨r₀, h₀, rfl⟩ := mem_requeue hr'
  by_cases ha : r₀.addr = r.addr
  · obtain rfl : r₀ = r := List.inj_on_of_nodup_map hl.addrs h₀ (deref_eq_some hr).1 ha
    rw [if_pos rfl]
    show (lifecycle r₀.addr).after _ = _
    rw [lifecycle_about (h r₀ h₀) rfl, htype]
    show _ = some (Stage.waiting recordA ((tb.requeue r₀.addr).toSend r₀.addr))
    rw [hsend, if_pos rfl]
    cases tb.toSend r₀.addr <;> rfl
  · rw [if_neg ha]
    refine (lifecycle_other rfl fun heq => ha heq.symm).trans ?_
    rw [hsend, if_neg fun heq => ha heq.symm]
    exact h r₀ h₀

/-- The query at the head of the list is sent. -/
theorem Follows.markSent {c : Cell Unit ℕ} {rest : List (Cell Unit ℕ)} (hl : Linked tb)
    (hlist : tb.sendList = c :: rest) (hr : r ∈ tb.resolvers) (hcr : c.val = r.addr)
    (a : Address) : Follows (.sent r.addr r.recordType a :: log) (tb.markSent r.addr) := by
  intro r' hr'
  obtain ⟨r₀, h₀, rfl⟩ := mem_markSent hr'
  have hsend := toSend_markSent hlist r.addr r₀.addr
  by_cases ha : r₀.addr = r.addr
  · obtain rfl : r₀ = r := List.inj_on_of_nodup_map hl.addrs h₀ hr ha
    rw [if_pos hcr] at hsend
    rw [if_pos rfl]
    show (lifecycle r₀.addr).after _ = some (.waiting r₀.recordType _)
    rw [lifecycle_about (h r₀ h₀) rfl, hsend]
    exact if_pos rfl
  · rw [if_neg fun heq => ha (heq.symm.trans hcr)] at hsend
    rw [if_neg ha]
    refine (lifecycle_other rfl fun heq => ha heq.symm).trans ?_
    rw [h r₀ h₀, hsend, add_zero]

end

end Tables

/-! ## one step of `run()` -/

/-- the callback that is about to be entered -/
def Pc.toEnter : Pc → Option Callback
  | .cbLock c | .cbEnter c => some c
  | _ => none

theorem Site.resume_toEnter (s : Site) : s.resume.toEnter = none := by
  cases s <;> rfl

namespace LookupThread
variable {t now : ℕ} {e : Env} {T T' : LookupThread} {es log : List Event}

/-- every request goes on to be accepted -/
def Accepts (es log : List Event) : Prop := ∀ k q, (lifecycle k).after log = some q →
  ∃ q', (lifecycle k).after (es ++ log) = some q'

theorem accepts_quiet (h : ∀ ev ∈ es, ev.about = none) : Accepts es log := fun k q hq =>
  ⟨q, (lifecycle_quiet fun ev hev => by rw [h ev hev]; exact nofun).trans hq⟩

theorem accepts_cons {ev : Event} {k : ℕ} {q : Stage} (hk : ev.about = some k)
    (h : (lifecycle k).after (ev :: log) = some q) : Accepts [ev] log := by
  intro j q' hq'
  by_cases hj : k = j
  · subst hj
    exact ⟨q, h⟩
  · exact ⟨q', (lifecycle_other hk hj).trans hq'⟩

theorem about_assert {b : Bool} : ∀ ev ∈ assert b, ev.about = none := by
  intro ev hev
  rw [mem_assert hev]
  rfl

/-- The tables and the callback that is about to be entered agree with the stages. -/
structure Following (log : List Event) (T : LookupThread) : Prop where
  tables : T.tables.Follows log
  callback : ∀ c, T.pc.toEnter = some c → c.resolver.addr ∉ T.tables.addrs ∧
    ∃ q, (lifecycle c.resolver.addr).after log = some q ∧ q.EndsWith c.result

/-- A step with no event about a request, which removes none. -/
theorem Following.quiet (h : Following log T) (hes : ∀ ev ∈ es, ev.about = none)
    (htb : T'.tables = T.tables) (hpc : T'.pc.toEnter = none ∨ T'.pc.toEnter = T.pc.toEnter) :
    Following (es ++ log) T' := by
  have hne : ∀ k, ∀ ev ∈ es, ev.about ≠ some k := fun k ev hev => by
    rw [hes ev hev]
    exact nofun
  refine ⟨?_, fun c hc => ?_⟩
  · rw [htb]
    exact h.tables.quiet fun ev hev r _ => hne _ ev hev
  · rcases hpc with hpc | hpc
    · rw [hpc] at hc
      cases hc
    · obtain ⟨hnot, q, hq, hends⟩ := h.callback c (hpc ▸ hc)
      exact ⟨htb ▸ hnot, q, (lifecycle_quiet (hne _)).trans hq, hends⟩

/-- A request is removed, to be completed. -/
theorem Following.completing {U : LookupThread} {tb tb' : Tables} {x : ℕ} {r : Resolver} {q : Stage}
    {result : DnsResult} {ip : Ip} {site : Site} (h : tb'.Follows log) (hl : tb.Linked)
    (hr : tb.removeResolver x = some (tb', some r))
    (hq : (lifecycle r.addr).after log = some q) (hends : q.EndsWith result) :
    Following log (U.completing tb' r result ip site) where
  tables := h
  callback c hc := by
    obtain rfl : (⟨r, result, ip, site⟩ : Callback) = c := Option.some.inj hc
    have hn := (Tables.removeResolver_addrs hl.keys hr).nodup_iff.mp hl.addrs
    exact ⟨(List.nodup_cons.mp hn).1, q, hq, hends⟩

/-- A request is removed and given up. -/
theorem Following.givingUp {U : LookupThread} {tb tb' : Tables} {x : ℕ} {r : Resolver}
    {result : DnsResult} {ip : Ip} {site : Site} (h : tb.Follows log) (hl : tb.Linked)
    (hs : tb.SendKept) (hr : tb.removeResolver x = some (tb', some r))
    (hres : Stage.givenUp result = true) : Following log (U.completing tb' r result ip site) := by
  have hmem : r ∈ tb.resolvers :=
    List.mem_map_of_mem (Tables.find_eq_some (Tables.removeResolver_eq_some hr).1)
  have hends : (Stage.waiting r.recordType (tb.toSend r.addr)).EndsWith result := hres
  exact .completing (h.removed hl hs hr) hl hr (h r hmem) hends

/-- A request is moved to the A record; an assertion may have failed before. -/
theorem Following.requeued (hf : Following log T) (hl : T.tables.Linked) {d : Datagram}
    {r : Resolver} (ha : recvAction T.tables d.buf d.size = some (.requeue r)) (b : Bool) :
    (T.tables.requeue r.addr).Follows (.requeued r.addr d :: assert b ++ log) ∧
      Accepts (.requeued r.addr d :: assert b) log := by
  have hr := Tables.deref_of_recvAction ha
  have htype : r.recordType = recordAAAA := by
    rcases recvAction_eq_some ha with h | ⟨_, _, r₁, _, _, _, _, _, _, _, _, h⟩
    · cases h
    · split at h
      · rename_i hc
        cases h
        exact hc.2
      · cases h
  have hq : T.tables.Follows (assert b ++ log) :=
    hf.tables.quiet fun ev hev r' _ => by rw [about_assert ev hev]; exact nofun
  have hnext : (lifecycle r.addr).after (.requeued r.addr d :: (assert b ++ log)) =
      some (.waiting recordA (T.tables.toSend r.addr + 1)) := by
    rw [lifecycle_about (hq r (Tables.deref_eq_some hr).1) rfl, htype]
    cases T.tables.toSend r.addr <;> rfl
  refine ⟨hq.requeue hl hr htype d, fun k q hk => ?_⟩
  have hassert : Accepts (assert b) log := accepts_quiet about_assert
  obtain ⟨q₁, hq₁⟩ := hassert k q hk
  exact accepts_cons rfl hnext k q₁ hq₁

/-- **A step of `run()` follows the automata.** -/
theorem LocalMove.following (h : LocalMove t now e T T' es) (hl : T.tables.Linked)
    (hs : T.tables.SendKept) (hf : Following log T) : Following (es ++ log) T' := by
  have hdns : ∀ r, (T.serverChosen r).tables.Follows log := fun r => hf.tables.setDns _ _
  have hop : ∀ r, Tables.Op (fun _ => True) T.tables (T.serverChosen r).tables :=
    fun _ => .dnsSet _ _
  cases h with
  | requeued d r mode _ _ _ ha => exact ⟨(hf.requeued hl ha _).1, nofun⟩
  | requeueFailed d r tb r' _ _ _ _ ha hr =>
    exact .givingUp (hf.requeued hl ha _).1 (Tables.requeue_linked hl _)
      (Tables.requeue_sendKept hs _) hr rfl
  | replied d r res tb r' _ _ _ ha hr =>
    obtain rfl := Tables.removed_of_deref hl (Tables.deref_of_complete ha) hr
    have hn := (Tables.removeResolver_addrs hl.keys hr).nodup_iff.mp hl.addrs
    have hnext : (lifecycle r'.addr).after (.replied r'.addr d res.result :: log) =
        some (.answered res.result) := by
      rw [lifecycle_about (hf.tables r' (Tables.deref_eq_some (Tables.deref_of_complete ha)).1) rfl]
      cases T.tables.toSend r'.addr <;> rfl
    refine .completing (fun r₂ h₂ => ?_) hl hr hnext rfl
    have hne : r'.addr ≠ r₂.addr := fun heq =>
      (List.nodup_cons.mp hn).1 (heq ▸ List.mem_map_of_mem h₂)
    exact (lifecycle_other rfl hne).trans (hf.tables.removed hl hs hr r₂ h₂)
  | sent c rest r hpc hlist hr =>
    have hmem : { r with dns := T.server r } ∈ (T.serverChosen r).tables.resolvers := by
      obtain ⟨rest', _, hp⟩ := Tables.modify_perm (f := fun r' => { r' with dns := T.server r })
        hl.addrs (Tables.deref_eq_some hr).1
      exact hp.mem_iff.mpr List.mem_cons_self
    refine ⟨(hdns r).markSent ((hop r).linked hl) hlist hmem (Tables.addr_of_deref hr).symm _, ?_⟩
    intro c' hc'
    have hc'' : T.pc.toEnter = some c' := hc'
    rw [hpc] at hc''
    cases hc''
  | sendNotReady c rest r | sendError c rest r => exact ⟨hdns r, nofun⟩
  | noServer c rest r tb r' _ _ _ _ hr =>
    exact .givingUp (hdns r) ((hop r).linked hl) ((hop r).sendKept hl hs) hr rfl
  | wrapTimeout c rest r tb r' _ _ _ hr | expireTimeout c rest r tb r' _ _ _ _ hr
      | drainNext d x r rest tb r' _ _ hr => exact .givingUp hf.tables hl hs hr rfl
  | swapped => exact ⟨hf.tables, nofun⟩
  | cbLock c hpc =>
    refine hf.quiet (fun ev hev => ?_) rfl (.inr (by rw [hpc]; rfl))
    split at hev
    · cases hev
    · rw [List.mem_singleton.mp hev]
      rfl
  | cbEnter c hpc =>
    obtain ⟨hnot, _⟩ := hf.callback c (by rw [hpc]; rfl)
    refine ⟨fun r hr => ?_, nofun⟩
    have hne : c.resolver.addr ≠ r.addr := fun heq => hnot (heq ▸ List.mem_map_of_mem hr)
    exact (lifecycle_other rfl hne).trans (hf.tables r hr)
  | cbRelock s => exact hf.quiet (List.forall_mem_nil _) rfl (.inl s.resume_toEnter)
  | wakeReady =>
    exact hf.quiet (List.forall_mem_nil _) rfl (.inl (by dsimp only; split <;> rfl))
  | receiveNothing | ignored | writable => exact hf.quiet about_assert rfl (.inl rfl)
  | _ => exact hf.quiet (List.forall_mem_nil _) rfl (.inl rfl)

/-- **A step of `run()` is accepted by the automata.** -/
theorem LocalMove.accepts (h : LocalMove t now e T T' es) (hl : T.tables.Linked)
    (hf : Following log T) : Accepts es log := by
  cases h with
  | requeued d r mode _ _ _ ha => exact (hf.requeued hl ha _).2
  | requeueFailed d r tb r' _ _ _ _ ha => exact (hf.requeued hl ha _).2
  | replied d r res tb r' _ _ _ ha =>
    have hq := hf.tables r (Tables.deref_eq_some (Tables.deref_of_complete ha)).1
    refine accepts_cons (q := .answered res.result) rfl ((lifecycle_about hq rfl).trans ?_)
    cases T.tables.toSend r.addr <;> rfl
  | sent c rest r _ hlist hr =>
    have hsend := Tables.toSend_markSent hlist r.addr r.addr
    rw [if_pos (Tables.addr_of_deref hr).symm] at hsend
    have hq := hf.tables r (Tables.deref_eq_some hr).1
    rw [hsend] at hq
    exact accepts_cons rfl ((lifecycle_about hq rfl).trans (if_pos rfl))
  | cbLock c =>
    refine accepts_quiet fun ev hev => ?_
    split at hev
    · cases hev
    · rw [List.mem_singleton.mp hev]
      rfl
  | cbEnter c hpc =>
    obtain ⟨_, q, hq, hends⟩ := hf.callback c (by rw [hpc]; rfl)
    exact accepts_cons rfl ((lifecycle_about hq rfl).trans (hends.next _ _ _))
  | receiveNothing | ignored | writable => exact accepts_quiet about_assert
  | _ => exact accepts_quiet (List.forall_mem_nil _)

/-- The events of a step are about the requests of the thread. -/
theorem LocalMove.about (h : LocalMove t now e T T' es) {ev : Event} (hev : ev ∈ es) {k : ℕ}
    (hk : ev.about = some k) : ∃ x, (x, k) ∈ T.unfinished := by
  have hactive : ∀ {r : Resolver}, T.tables.deref r.addr = some r → r.addr = k →
      ∃ x, (x, k) ∈ T.unfinished := by
    rintro r hr rfl
    exact ⟨r.hnr, List.mem_append_left _ (List.mem_map_of_mem (Tables.deref_eq_some hr).1)⟩
  have hassert : ∀ {b : Bool}, ev ∈ assert b → ∃ x, (x, k) ∈ T.unfinished := by
    intro b hev
    rw [about_assert ev hev] at hk
    cases hk
  cases h
  case requeued d r _ _ _ _ ha _ | requeueFailed d r _ _ _ _ _ _ ha _ =>
    rcases List.mem_cons.mp hev with rfl | hev
    · exact hactive (Tables.deref_of_recvAction ha) (Option.some.inj hk)
    · exact hassert hev
  case replied ha _ =>
    rw [List.mem_singleton.mp hev] at hk
    exact hactive (Tables.deref_of_complete ha) (Option.some.inj hk)
  case sent c rest r _ _ hr _ =>
    rw [List.mem_singleton.mp hev] at hk
    rw [← Tables.addr_of_deref hr] at hr
    exact hactive hr (Option.some.inj hk)
  case cbLock =>
    split at hev
    · cases hev
    · rw [List.mem_singleton.mp hev] at hk
      cases hk
  case cbEnter c hpc =>
    rw [List.mem_singleton.mp hev] at hk
    refine ⟨c.resolver.hnr, List.mem_append_right _ ?_⟩
    unfold running
    rw [hpc, ← Option.some.inj hk]
    exact List.mem_singleton_self _
  case receiveNothing | ignored | writable => exact hassert hev
  all_goals cases hev

end LookupThread

/-! ## one step of the system -/

namespace Sys
variable {act : Action} {s s' : Sys}

/-- A thread keeps its tables, or is emptied, and removes no request. -/
def Keeps (T T' : LookupThread) : Prop := (T'.tables = T.tables ∨ T'.tables = {}) ∧
  (T'.pc.toEnter = none ∨ T'.tables = T.tables ∧ T'.pc.toEnter = T.pc.toEnter)

theorem Keeps.refl (T : LookupThread) : Keeps T T := ⟨.inl rfl, .inr ⟨rfl, rfl⟩⟩

theorem Keeps.setThread {t : ℕ} {T : LookupThread} (h : Keeps (s.threads t) T) (u : ℕ) :
    Keeps (s.threads u) ((s.setThread t T).threads u) := by
  rw [threads_setThread]
  split
  · rename_i hu
    rw [hu]
    exact h
  · exact .refl _

/-- What a step of the system does to requests: it is a step of `run()`, registers one, cancels one,
or does nothing. -/
inductive RequestMove (act : Action) (s s' : Sys) : Prop
  | own (t : ℕ) (e : Env) (T : LookupThread) (es : List Event) :
      LookupThread.LocalMove t s.now e (s.threads t) T es → s'.log = es ++ s.log →
      s'.nextCall = s.nextCall → s'.threads = (s.setThread t T).threads → RequestMove act s s'
  | registers (a : Actor) (q : Query) (t : ℕ) (needStart : Bool) (id : UInt16) :
      s.calls a = .resolveRegister q t needStart →
      s'.log = .registered s.nextCall q s.now (s.runsCallbackOf a == some q.hnr) :: s.log →
      s'.nextCall = s.nextCall + 1 →
      s'.threads = (s.setThread t
        (registerIn (s.threads t) s.now s.nextCall q id needStart)).threads → RequestMove act s s'
  | cancels (x t : ℕ) (tb : Tables) (r : Resolver) :
      (s.threads t).tables.removeResolver x = some (tb, some r) →
      s'.log = .cancelReturned x s.nextCall :: .cancelled r.addr :: s.log →
      s'.nextCall = s.nextCall → s'.threads = (s.setThread t (cancelled (s.threads t) tb)).threads →
      RequestMove act s s'
  | quiet (es : List Event) : (∀ ev ∈ es, ev.about = none) → s'.log = es ++ s.log →
      s'.nextCall = s.nextCall → (∀ u, Keeps (s.threads u) (s'.threads u)) → RequestMove act s s'

theorem Move.requests (h : Move act s s') : RequestMove act s s' := by
  have hempty : ∀ {pc : Pc} (prev : Option ℕ) (T : LookupThread), pc.toEnter = none →
      Keeps T { pc := pc, prevThread := prev } := fun _ _ hpc => ⟨.inr rfl, .inl hpc⟩
  have hstay : ∀ {T T' : LookupThread}, T'.tables = T.tables →
      T'.pc.toEnter = none ∨ T'.pc.toEnter = T.pc.toEnter → Keeps T T' :=
    fun htb hpc => ⟨.inl htb, hpc.imp_right fun hpc => ⟨htb, hpc⟩⟩
  cases h with
  | tick | nameTooLong | callResolve | callCancel | callCleanUp | resolveLock | resolveBusy
      | resolveReuse | tooManyRequests | cancelLock | cleanUpNothing =>
    exact .quiet [] (List.forall_mem_nil _) rfl rfl fun _ => .refl _
  | cancelNothing a x =>
    exact .quiet [_] (List.forall_mem_singleton.mpr rfl) rfl rfl fun _ => .refl _
  | resolveFirst a q =>
    exact .quiet [] (List.forall_mem_nil _) rfl rfl fun u => (hempty none _ rfl).setThread u
  | resolveReplace a q t =>
    exact .quiet [] (List.forall_mem_nil _) rfl rfl fun u => (hempty (some t) _ rfl).setThread u
  | resolveRegister a q t needStart id s hc =>
    exact .registers a q t needStart id hc rfl rfl rfl
  | cancelDone a x t tb r s _ _ hr => exact .cancels x t tb r hr rfl rfl rfl
  | cancelMiss a x t tb s _ _ hr =>
    refine .quiet [] (List.forall_mem_nil _) rfl rfl fun u => Keeps.setThread (hstay ?_ ?_) u
    · exact (cancelled_tables _ _).trans (Tables.removeResolver_eq_none hr).1
    · exact .inr (congrArg Pc.toEnter (cancelled_pc _ _))
  | cancelWait a x t =>
    refine .quiet [_] (List.forall_mem_singleton.mpr rfl) rfl rfl fun u =>
      Keeps.setThread (hstay ?_ (.inr ?_)) u
    · rfl
    · rfl
  | cleanUpJoin a t =>
    refine .quiet (_ ++ _) (fun ev hev => ?_) (List.append_assoc _ _ _).symm rfl fun u =>
      (hempty none _ rfl).setThread u
    rcases List.mem_append.mp hev with hev | hev <;> exact LookupThread.about_assert ev hev
  | joinPrev t p e s hpc =>
    refine .quiet _ LookupThread.about_assert rfl rfl fun u => ?_
    rw [threads_setThread]
    split
    · rename_i hu
      rw [hu]
      exact hstay rfl (.inl rfl)
    · exact (hempty none _ rfl).setThread u
  | popStartSending t c e rest threads s _ _ _ _ hu =>
    refine .quiet [] (List.forall_mem_nil _) rfl rfl fun u => ?_
    show Keeps _ (threads u)
    rw [hu]
    exact hstay rfl (.inr rfl)
  | own t e T es s _ _ hl => exact .own t e T es hl rfl rfl rfl
  | cleanUpLock a t s | popNop t e rest s =>
    refine .quiet [] (List.forall_mem_nil _) rfl rfl fun u =>
      Keeps.setThread (hstay ?_ (.inr ?_)) u
    · rfl
    · rfl
  | noPrev | openSocket | openFailed | queueEmpty | drainedOpen =>
    refine .quiet [] (List.forall_mem_nil _) rfl rfl fun u =>
      Keeps.setThread (hstay ?_ (.inl ?_)) u
    · rfl
    · rfl

/-! ## all runs -/

/-- **The system refines the automata of its requests.** -/
structure Refines (s : Sys) : Prop where
  /-- nothing happens to a request that its automaton does not allow -/
  accepted : ∀ k, ∃ q, (lifecycle k).after s.log = some q
  fresh : ∀ k, s.nextCall ≤ k → (lifecycle k).after s.log = some .unregistered
  /-- the stage of an active request is the one its record and the send list show -/
  active : ∀ t, (s.threads t).tables.Follows s.log
  callback : ∀ t c, (s.threads t).pc.toEnter = some c →
    c.resolver.addr ∉ (s.threads t).tables.addrs ∧
    ∃ q, (lifecycle c.resolver.addr).after s.log = some q ∧ q.EndsWith c.result

theorem Refines.following (h : Refines s) (t : ℕ) : LookupThread.Following s.log (s.threads t) :=
  ⟨h.active t, h.callback t⟩

theorem refines_init (now : ℕ) : Refines (Sys.init now) where
  accepted k := ⟨.unregistered, rfl⟩
  fresh k _ := rfl
  active t r hr := by cases hr
  callback t c hc := by cases hc

section
variable (h : Refines s)
include h

/-- A step without an event about a request. -/
theorem refines_quiet {es : List Event} (hes : ∀ ev ∈ es, ev.about = none)
    (hlog : s'.log = es ++ s.log) (hn : s'.nextCall = s.nextCall)
    (hth : ∀ u, Keeps (s.threads u) (s'.threads u)) : Refines s' := by
  have hsame : ∀ k, (lifecycle k).after s'.log = (lifecycle k).after s.log := fun k => by
    rw [hlog]
    exact lifecycle_quiet fun ev hev => by rw [hes ev hev]; exact nofun
  refine ⟨fun k => ?_, fun k hk => ?_, fun t r hr => ?_, fun t c hc => ?_⟩
  · rw [hsame]
    exact h.accepted k
  · rw [hsame]
    exact h.fresh k (hn ▸ hk)
  · rw [hsame]
    rcases (hth t).1 with htb | htb
    · rw [htb] at hr ⊢
      exact h.active t r hr
    · rw [htb] at hr
      cases hr
  · rcases (hth t).2 with hpc | ⟨htb, hpc⟩
    · rw [hpc] at hc
      cases hc
    · rw [hsame, htb]
      exact h.callback t c (hpc ▸ hc)

/-- A step of one thread whose events are about its own requests. -/
theorem refines_own {t : ℕ} {T : LookupThread} {es : List Event} (hap : Apart s)
    (hlog : s'.log = es ++ s.log) (hn : s'.nextCall = s.nextCall)
    (hth : s'.threads = (s.setThread t T).threads)
    (habout : ∀ ev ∈ es, ∀ k, ev.about = some k → ∃ x, (x, k) ∈ (s.threads t).unfinished)
    (hacc : LookupThread.Accepts es s.log) (hf : LookupThread.Following (es ++ s.log) T) :
    Refines s' := by
  have hother : ∀ u k x, u ≠ t → (x, k) ∈ (s.threads u).unfinished →
      (lifecycle k).after s'.log = (lifecycle k).after s.log := by
    intro u k x hu hx
    rw [hlog]
    refine lifecycle_quiet fun ev hev hk => hu ?_
    obtain ⟨y, hy⟩ := habout ev hev k hk
    exact hap.apart u t x y k hx hy
  refine ⟨fun k => ?_, fun k hk => ?_, fun u r hr => ?_, fun u c hc => ?_⟩
  · obtain ⟨q, hq⟩ := h.accepted k
    rw [hlog]
    exact hacc k q hq
  · rw [hn] at hk
    rw [hlog, lifecycle_quiet fun ev hev hk' => ?_]
    · exact h.fresh k hk
    · obtain ⟨x, hx⟩ := habout ev hev k hk'
      exact absurd (hap.older t x k hx) (not_lt.mpr hk)
  · rw [hth, threads_setThread] at hr ⊢
    split at hr
    · rename_i hu
      rw [if_pos hu, hlog]
      exact hf.tables r hr
    · rename_i hu
      rw [if_neg hu, hother u r.addr r.hnr hu (List.mem_append_left _ (List.mem_map_of_mem hr))]
      exact h.active u r hr
  · rw [hth, threads_setThread] at hc ⊢
    split at hc
    · rename_i hu
      rw [if_pos hu, hlog]
      exact hf.callback c hc
    · rename_i hu
      rw [if_neg hu, hother u c.resolver.addr c.resolver.hnr hu ?_]
      · exact h.callback u c hc
      · refine List.mem_append_right _ ?_
        unfold LookupThread.running
        generalize (s.threads u).pc = pc at hc
        cases pc with
        | cbLock | cbEnter =>
          cases hc
          exact List.mem_singleton_self _
        | _ => cases hc

/-- A request is registered. -/
theorem refines_register (hst : Stored s) (hcalls : Calls s) {a : Actor} {q : Query} {t : ℕ}
    {needStart : Bool} {id : UInt16} (hc : s.calls a = .resolveRegister q t needStart)
    (hlog : s'.log = .registered s.nextCall q s.now (s.runsCallbackOf a == some q.hnr) :: s.log)
    (hn : s'.nextCall = s.nextCall + 1)
    (hth : s'.threads = (s.setThread t
      (registerIn (s.threads t) s.now s.nextCall q id needStart)).threads)
    (hsends : ∀ c ∈ (s.threads t).tables.sendList, c.val < s.nextCall) : Refines s' := by
  have hx := hcalls.absent a q t needStart hc
  have hother : ∀ k, k ≠ s.nextCall → (lifecycle k).after s'.log = (lifecycle k).after s.log := by
    intro k hk
    rw [hlog]
    exact lifecycle_other rfl fun heq => hk heq.symm
  have hnew : (lifecycle s.nextCall).after s'.log = some (.waiting recordAAAA 1) := by
    rw [hlog]
    exact lifecycle_about (h.fresh _ (Nat.le_refl _)) rfl
  have hsend : ∀ p, (registerIn (s.threads t) s.now s.nextCall q id needStart).tables.toSend p =
      (s.threads t).tables.toSend p + if s.nextCall = p then 1 else 0 := by
    intro p
    rw [registerIn_tables]
    exact Tables.toSend_append _ _ ⟨(s.threads t).tables.nextNode + 2, (), s.nextCall⟩ rfl p
  have hmem : ∀ r ∈ (registerIn (s.threads t) s.now s.nextCall q id needStart).tables.resolvers,
      r = (s.threads t).tables.newResolver s.nextCall q id (ticks s.now) ∨
        r ∈ (s.threads t).tables.resolvers := by
    intro r hr
    rw [registerIn_tables] at hr
    exact List.mem_cons.mp
      ((Tables.register_resolvers s.nextCall id (ticks s.now) hx).mem_iff.mp hr)
  have hpc : (registerIn (s.threads t) s.now s.nextCall q id needStart).pc.toEnter = none ∨
      (registerIn (s.threads t) s.now s.nextCall q id needStart).pc = (s.threads t).pc := by
    cases needStart with
    | true => exact .inl rfl
    | false => exact .inr rfl
  refine ⟨fun k => ?_, fun k hk => ?_, fun u r hr => ?_, fun u c hc => ?_⟩
  · by_cases hk : k = s.nextCall
    · rw [hk]
      exact ⟨_, hnew⟩
    · rw [hother k hk]
      exact h.accepted k
  · rw [hn] at hk
    rw [hother k (by omega)]
    exact h.fresh k (by omega)
  · rw [hth, threads_setThread] at hr ⊢
    split at hr
    · rename_i hu
      rw [if_pos hu, hsend]
      rcases hmem r hr with rfl | hr
      · -- no cell of the send list is of the new request
        have hzero : (s.threads t).tables.toSend s.nextCall = 0 :=
          List.countP_eq_zero.mpr fun c hc => by simpa using (hsends c hc).ne
        show (lifecycle s.nextCall).after s'.log = some (.waiting recordAAAA
          ((s.threads t).tables.toSend s.nextCall + if s.nextCall = s.nextCall then 1 else 0))
        rw [hnew, hzero, if_pos rfl]
      · have hlt := hst.older t r hr
        rw [hother r.addr hlt.ne, if_neg hlt.ne', add_zero]
        exact h.active t r hr
    · rename_i hu
      rw [if_neg hu, hother r.addr (hst.older u r hr).ne]
      exact h.active u r hr
  · rw [hth, threads_setThread] at hc ⊢
    split at hc
    · rename_i hu
      rw [if_pos hu]
      rcases hpc with hpc | hpc
      · rw [hpc] at hc
        cases hc
      · rw [hpc] at hc
        obtain ⟨hnot, hq⟩ := h.callback t c hc
        have hne : c.resolver.addr ≠ s.nextCall := by
          intro heq
          obtain ⟨q₀, hq₀, hends⟩ := hq
          rw [heq, h.fresh _ (Nat.le_refl _)] at hq₀
          cases hq₀
          exact hends
        refine ⟨fun hin => ?_, hother _ hne ▸ hq⟩
        obtain ⟨r, hr, hra⟩ := List.mem_map.mp hin
        rcases hmem r hr with rfl | hr
        · exact hne hra.symm
        · exact hnot (List.mem_map.mpr ⟨r, hr, hra⟩)
    · rename_i hu
      rw [if_neg hu]
      obtain ⟨hnot, q₀, hq₀, hends⟩ := h.callback u c hc
      have hne : c.resolver.addr ≠ s.nextCall := by
        intro heq
        rw [heq, h.fresh _ (Nat.le_refl _)] at hq₀
        cases hq₀
        exact hends
      rw [hother _ hne]
      exact ⟨hnot, q₀, hq₀, hends⟩

/-- A request is cancelled. -/
theorem refines_cancel (hst : Stored s) (hap : Apart s) {x t : ℕ}
    (hsend : (s.threads t).tables.SendKept) {tb : Tables} {r : Resolver}
    (hr : (s.threads t).tables.removeResolver x = some (tb, some r))
    (hlog : s'.log = [.cancelReturned x s.nextCall, .cancelled r.addr] ++ s.log)
    (hn : s'.nextCall = s.nextCall)
    (hth : s'.threads = (s.setThread t (cancelled (s.threads t) tb)).threads) : Refines s' := by
  have hl := hst.linked t
  have hmem : r ∈ (s.threads t).tables.resolvers :=
    List.mem_map_of_mem (Tables.find_eq_some (Tables.removeResolver_eq_some hr).1)
  have hperm := Tables.removeResolver_addrs hl.keys hr
  have hdistinct := List.nodup_cons.mp (hperm.nodup_iff.mp hl.addrs)
  have hother : ∀ k, k ≠ r.addr →
      (lifecycle k).after ([.cancelReturned x s.nextCall, .cancelled r.addr] ++ s.log) =
        (lifecycle k).after s.log := by
    intro k hk
    refine lifecycle_quiet fun ev hev heq => hk ?_
    rcases List.mem_cons.mp hev with rfl | hev
    · cases heq
    · rw [List.mem_singleton.mp hev] at heq
      exact (Option.some.inj heq).symm
  have hended : (lifecycle r.addr).after (.cancelled r.addr :: s.log) = some .ended := by
    rw [lifecycle_about (h.active t r hmem) rfl]
    cases (s.threads t).tables.toSend r.addr <;> rfl
  refine refines_own h hap hlog hn hth (fun ev hev k hk => ?_) (fun k q hq => ?_)
    ⟨?_, fun c hc => ?_⟩
  · rcases List.mem_cons.mp hev with rfl | hev
    · cases hk
    · rw [List.mem_singleton.mp hev] at hk
      refine ⟨r.hnr, List.mem_append_left _ ?_⟩
      rw [← Option.some.inj hk]
      exact List.mem_map_of_mem (f := Resolver.who) hmem
  · obtain ⟨q', hq'⟩ := LookupThread.accepts_cons (k := r.addr) rfl hended k q hq
    have hlast : ∀ ev ∈ [Event.cancelReturned x s.nextCall], ev.about ≠ some k :=
      List.forall_mem_singleton.mpr nofun
    exact ⟨q', (lifecycle_quiet hlast).trans hq'⟩
  · rw [cancelled_tables]
    intro r' hr'
    have hne : r'.addr ≠ r.addr := fun heq =>
      hdistinct.1 (heq ▸ List.mem_map_of_mem hr')
    rw [hother _ hne]
    exact (h.active t).removed hl hsend hr r' hr'
  · rw [cancelled_pc] at hc
    obtain ⟨hnot, hq⟩ := h.callback t c hc
    have hne : c.resolver.addr ≠ r.addr := fun heq => hnot (heq ▸ List.mem_map_of_mem hmem)
    rw [cancelled_tables, hother _ hne]
    exact ⟨fun hin => hnot (hperm.mem_iff.mpr (List.mem_cons_of_mem _ hin)), hq⟩

theorem refines_step (hst : Stored s) (hap : Apart s) (hcalls : Calls s)
    (hsend : ∀ t, (s.threads t).tables.SendKept)
    (hsends : ∀ t, ∀ c ∈ (s.threads t).tables.sendList, c.val < s.nextCall)
    (hm : Move act s s') : Refines s' := by
  cases hm.requests with
  | quiet es hes hlog hn hth => exact refines_quiet h hes hlog hn hth
  | registers a q t needStart id hc hlog hn hth =>
    exact refines_register h hst hcalls hc hlog hn hth (hsends t)
  | own t e T es hl hlog hn hth =>
    exact refines_own h hap hlog hn hth (fun ev hev k hk => hl.about hev hk)
      (hl.accepts (hst.linked t) (h.following t))
      (hl.following (hst.linked t) (hsend t) (h.following t))
  | cancels x t tb r hr hlog hn hth => exact refines_cancel h hst hap (hsend t) hr hlog hn hth

end

/-- **The system refines the automata of its requests,** in every run. -/
theorem refines {G : Sys → Action → Prop} (hr : resolverSystem.Reach G s) : Refines s := by
  refine hr.invariant (I := Refines) ?_ ?_
  · rintro s ⟨now, rfl⟩
    exact refines_init now
  · intro s act s' hr h _ hs
    exact refines_step h (stored hr) (apart hr) (locks hr).toCalls (sendKept hr)
      (sends_older hr) (sysMove hs)

end Sys

/-! ## what the automata say -/

/-- **Every request follows its automaton,** in every run: nothing happens to it that is not allowed
in its stage, and the stage of an active request is the one its record and the send list show. -/
theorem follows_lifecycle {s : Sys} (hr : Run s) :
    (∀ k, ∃ q, (lifecycle k).after s.log = some q) ∧
      ∀ t, (s.threads t).tables.Follows s.log := by
  have h := Sys.refines hr
  exact ⟨h.accepted, h.active⟩

set_option maxRecDepth 10000 in
/-- a request that has been moved to the A record -/
theorem follows_lifecycle_requeued : ∃ s, resolverSystem.run (fun _ _ => True)
      (sendFirst ++ receiveNoSuchName) (Sys.init 0) = some s ∧
    (lifecycle 0).after s.log = some (.waiting recordA 1) ∧
    (∀ k, ∃ q, (lifecycle k).after s.log = some q) ∧
      ∀ t, (s.threads t).tables.Follows s.log := by
  obtain ⟨s, hs, hp⟩ := Machine.exists_run resolverSystem (fun _ _ => True)
    (sendFirst ++ receiveNoSuchName) (Sys.init 0)
    (fun s => (lifecycle 0).after s.log = some (.waiting recordA 1)) (by decide)
  exact ⟨s, hs, of_decide_eq_true hp, follows_lifecycle ((reach_init _ 0).run hs)⟩

end Setka
