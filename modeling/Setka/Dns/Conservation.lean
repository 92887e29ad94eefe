import Setka.Lib.Tokens
import Setka.Dns.Events

/-!
# No request is lost, none is completed twice

The number of a request is a token.  It comes into the hands of a lookup thread with the
registration, stays there while the request is active and while its callback is about to be
entered, and leaves them when the callback is entered or `cancel()` returns `true`.

* `held`                   the tokens of a lookup thread;
* `ended`                  the tokens that have left the lookup threads, as the log says;
* `Move.transfer`          a step of the system moves tokens, and makes one for a registration;
* `conserved`              held and ended tokens together are the numbers of all requests;
* `request_in_one_place`   every request is in exactly one situation.
-/

namespace Setka

/-- the request whose callback is about to be entered -/
def Pc.entering : Pc → Option ℕ
  | .cbLock c | .cbEnter c => some c.resolver.addr
  | .cbRun _ | .cbRelock _ => none
  | .notStarted | .joinPrev | .initDNS | .openSocket => none
  | .loopHead | .lockMutex | .checkError | .receive | .checkWrite | .send | .sample => none
  | .wrap | .expire | .drain _ | .wait _ | .popQueue | .leave | .finished | .destroyed => none

theorem Site.resume_entering (s : Site) : s.resume.entering = none := by
  cases s <;> rfl

/-- the request whose callback an event enters -/
def Event.enters : Event → Option ℕ
  | .entered k _ _ _ => some k
  | .registered _ _ _ _ | .sent _ _ _ | .requeued _ _ | .replied _ _ _ => none
  | .cancelled _ | .cancelReturned _ _ | .assertFailed | .badUnlock => none

/-- the request that an event takes away from the lookup thread -/
def Event.cancels : Event → Option ℕ
  | .cancelled k => some k
  | .registered _ _ _ _ | .sent _ _ _ | .requeued _ _ | .replied _ _ _ => none
  | .entered _ _ _ _ | .cancelReturned _ _ | .assertFailed | .badUnlock => none

/-- the request that an event ends -/
def Event.ends (ev : Event) : Option ℕ := ev.enters.or ev.cancels

/-- the requests that have ended -/
def ended (log : List Event) : Multiset ℕ := log.filterMap Event.ends

theorem ended_append (es log : List Event) : ended (es ++ log) = ended es + ended log := by
  unfold ended
  rw [List.filterMap_append, Multiset.coe_add]

theorem assert_passed {b : Bool} (h : .assertFailed ∉ assert b) : b = true := by
  unfold assert at h
  split at h
  · assumption
  · exact absurd List.mem_cons_self h

@[simp] theorem ended_nil : ended [] = 0 := rfl

@[simp] theorem ended_assert (b : Bool) : ended (assert b) = 0 := by
  cases b <;> rfl

namespace LookupThread

/-- the requests a thread is responsible for -/
def held (T : LookupThread) : Multiset ℕ := (T.tables.addrs : Multiset ℕ) + T.pc.entering.toList

variable {t now : ℕ} {e : Env} {T T' : LookupThread} {es : List Event}

theorem held_of_not_entering (h : T.pc.entering = none) : T.held = T.tables.addrs := by
  unfold held
  rw [h]
  exact add_zero _

theorem held_eq (ht : T'.tables = T.tables) (hpc : T'.pc.entering = T.pc.entering) :
    T'.held = T.held := by
  unfold held
  rw [ht, hpc]

/-- A removed request goes from the tables into the callback. -/
theorem completing_held {tb tb' : Tables} {x : ℕ} {r : Resolver} {result : DnsResult} {ip : Ip}
    {site : Site} (hl : tb.Linked) (h : tb.removeResolver x = some (tb', some r)) :
    (T.completing tb' r result ip site).held = tb.addrs := by
  have hp := Tables.removeResolver_addrs hl.keys h
  refine Eq.trans ?_ (Multiset.coe_eq_coe.mpr hp).symm
  exact Multiset.add_comm _ _

/-- **A step of `run()` keeps the tokens,** but for the one whose callback is entered. -/
theorem LocalMove.held (h : LocalMove t now e T T' es) (hl : T.tables.Linked) :
    T'.held + ended es = T.held := by
  cases h with
  | requeueFailed d r tb r' hpc _ _ _ _ hr =>
    have hq := Tables.requeue_linked hl r.addr
    rw [completing_held hq hr, Tables.requeue_addrs, held_of_not_entering (by rw [hpc]; rfl)]
    show _ + ended (assert _) = _
    rw [ended_assert, add_zero]
  | noServer c rest r tb r' hpc _ _ _ hr =>
    have hop : Tables.Op (fun _ => True) T.tables (T.serverChosen r).tables := .dnsSet _ _
    have hq := hop.linked hl
    rw [completing_held hq hr, held_of_not_entering (by rw [hpc]; rfl)]
    show ((T.tables.setDns _ _).addrs : Multiset ℕ) + 0 = _
    rw [Tables.setDns_addrs, add_zero]
  | replied d r res tb r' hpc _ _ _ hr =>
    rw [completing_held hl hr, held_of_not_entering (by rw [hpc]; rfl)]
    exact add_zero _
  | wrapTimeout c rest r tb r' hpc _ _ hr =>
    rw [completing_held hl hr, held_of_not_entering (by rw [hpc]; rfl)]
    exact add_zero _
  | expireTimeout c rest r tb r' hpc _ _ _ hr =>
    rw [completing_held hl hr, held_of_not_entering (by rw [hpc]; rfl)]
    exact add_zero _
  | drainNext d x r rest tb r' hpc _ hr =>
    rw [completing_held hl hr, held_of_not_entering (by rw [hpc]; rfl)]
    exact add_zero _
  | cbLock c hpc =>
    unfold LookupThread.held
    rw [hpc]
    split <;> exact add_zero _
  | cbEnter c hpc =>
    unfold LookupThread.held
    rw [hpc]
    show (T.tables.addrs : Multiset ℕ) + 0 + ended [_] = _
    rw [add_zero]
    rfl
  | cbRelock s hpc =>
    rw [held_of_not_entering s.resume_entering, held_of_not_entering (by rw [hpc]; rfl)]
    exact add_zero _
  | wakeReady timeout f hpc =>
    rw [held_of_not_entering (by dsimp only; split <;> rfl),
      held_of_not_entering (by rw [hpc]; rfl)]
    exact add_zero _
  | requeued d r mode hpc =>
    rw [held_of_not_entering rfl, held_of_not_entering (by rw [hpc]; rfl)]
    show ((T.tables.requeue _).addrs : Multiset ℕ) + ended (assert _) = _
    rw [Tables.requeue_addrs, ended_assert, add_zero]
  | sent c rest r hpc =>
    have hpc' : T.pc.entering = none := by rw [hpc]; rfl
    rw [held_of_not_entering (T := T) hpc']
    show (((T.tables.setDns _ _).markSent _).addrs : Multiset ℕ) + T.pc.entering.toList + 0 = _
    rw [hpc', Tables.markSent_addrs, Tables.setDns_addrs, add_zero]
    exact add_zero _
  | sendNotReady c rest r hpc | sendError c rest r hpc =>
    rw [held_of_not_entering rfl, held_of_not_entering (by rw [hpc]; rfl)]
    show ((T.tables.setDns _ _).addrs : Multiset ℕ) + 0 = _
    rw [Tables.setDns_addrs, add_zero]
  | _ => simp [LookupThread.held, readCleared, Pc.entering, *]

end LookupThread
namespace Sys
variable {act : Action} {s s' : Sys}

/-- What a step does to the tokens: the thread `u` takes the tokens that are made and gives away
those of the requests that end. -/
structure Transfer (s s' : Sys) (u : ℕ) (given made : Multiset ℕ) : Prop where
  others : ∀ t, t ≠ u → (s'.threads t).held = (s.threads t).held
  hands : (s'.threads u).held + given = (s.threads u).held + made
  ended : ended s'.log = given + ended s.log
  numbers : Multiset.range s'.nextCall = Multiset.range s.nextCall + made

/-- a step that moves no token -/
theorem Transfer.idle (h : ∀ t, (s'.threads t).held = (s.threads t).held)
    (hl : Setka.ended s'.log = Setka.ended s.log) (hn : s'.nextCall = s.nextCall) :
    Transfer s s' 0 0 0 where
  others t _ := h t
  hands := by rw [h 0]
  ended := by rw [hl, zero_add]
  numbers := by rw [hn, add_zero]

theorem held_setThread (s : Sys) {t : ℕ} {T : LookupThread} (h : T.held = (s.threads t).held)
    (u : ℕ) : ((s.setThread t T).threads u).held = (s.threads u).held := by
  rw [threads_setThread]
  split
  · rename_i hu
    rw [hu, h]
  · rfl

/-- a step of one thread -/
theorem Transfer.own {t : ℕ} {T : LookupThread} {es : List Event}
    (ht : s'.threads = (s.setThread t T).threads) (hl : s'.log = es ++ s.log)
    (hn : s'.nextCall = s.nextCall) (h : T.held + Setka.ended es = (s.threads t).held) :
    Transfer s s' t (Setka.ended es) 0 where
  others u hu := by rw [ht, threads_setThread, if_neg hu]
  hands := by rw [ht, threads_setThread, if_pos rfl, h, add_zero]
  ended := by rw [hl, ended_append]
  numbers := by rw [hn, add_zero]

/-- A thread that has come to its end, and is destroyed without a failed assertion, has no
tokens. -/
theorem held_destroyed {t : ℕ} (hj : joinable (s.threads t) = true)
    (ha : .assertFailed ∉ assert ((s.threads t).tables.sendList.isEmpty &&
      (s.threads t).tables.resolversMap.isEmpty && (s.threads t).tables.resolversByTime1.isEmpty &&
      (s.threads t).tables.resolversByTime2.isEmpty && (s.threads t).tables.idMap.isEmpty)) :
    LookupThread.held { pc := .destroyed } = (s.threads t).held := by
  have hpc : (s.threads t).pc.entering = none := by
    unfold joinable at hj
    rw [Bool.or_eq_true, beq_iff_eq, beq_iff_eq] at hj
    rcases hj with hj | hj <;> rw [hj] <;> rfl
  have hm : (s.threads t).tables.resolversMap = [] := by
    have hb := assert_passed ha
    simp only [Bool.and_eq_true, List.isEmpty_iff] at hb
    exact hb.1.1.1.2
  rw [LookupThread.held_of_not_entering hpc]
  unfold Tables.addrs Tables.resolvers
  rw [hm]
  rfl

theorem held_fresh (hc : Calls s) {t : ℕ} (h : (s.threads t).pc = .notStarted) :
    (s.threads t).held = 0 := by
  rw [hc.fresh t h]
  rfl

theorem held_unborn (hc : Calls s) {t : ℕ} (h : s.nextThread ≤ t) : (s.threads t).held = 0 :=
  held_fresh hc (by_contra fun hpc => absurd (hc.born t hpc) (not_lt.mpr h))

theorem held_newThread (hc : Calls s) (prev : Option ℕ) (t : ℕ) :
    ((s.newThread prev).threads t).held = (s.threads t).held := by
  have hT : LookupThread.held { prevThread := prev } = (s.threads s.nextThread).held := by
    rw [held_unborn hc (Nat.le_refl _)]
    rfl
  exact held_setThread s hT t

theorem registerIn_held {T : LookupThread} {now addr : ℕ} {q : Query} {id : UInt16}
    {needStart : Bool} (hx : T.tables.find q.hnr = none)
    (hpc : needStart = true → T.pc.entering = none) :
    (registerIn T now addr q id needStart).held = T.held + {addr} := by
  have hp := (Tables.register_resolvers addr id (ticks now) hx).map Resolver.addr
  have hpc' : (registerIn T now addr q id needStart).pc.entering = T.pc.entering := by
    cases needStart with
    | true => exact (hpc rfl).symm
    | false => rfl
  unfold LookupThread.held
  rw [hpc', registerIn_tables, add_right_comm]
  refine congrArg (· + _) ?_
  refine (Multiset.coe_eq_coe.mpr hp).trans ?_
  exact Multiset.add_comm {addr} (T.tables.addrs : Multiset ℕ)

theorem cancelled_held (T : LookupThread) (tb : Tables) :
    (cancelled T tb).held = (tb.addrs : Multiset ℕ) + T.pc.entering.toList := by
  unfold cancelled LookupThread.held
  split <;> rfl

theorem cancelled_held_add {T : LookupThread} {tb : Tables} {x : ℕ} {r : Resolver}
    (hl : T.tables.Linked) (hr : T.tables.removeResolver x = some (tb, some r)) :
    (cancelled T tb).held + {r.addr} = T.held := by
  have hp := Multiset.coe_eq_coe.mpr (Tables.removeResolver_addrs hl.keys hr)
  rw [cancelled_held, add_right_comm]
  refine congrArg (· + _) (Eq.trans ?_ hp.symm)
  exact Multiset.add_comm (tb.addrs : Multiset ℕ) {r.addr}

/-- **Every step moves tokens,** up to the first failed assertion. -/
theorem Move.transfer (h : Move act s s') (hc : Calls s) (hl : ∀ t, (s.threads t).tables.Linked)
    (ha : .assertFailed ∉ s'.log) : ∃ u given made, Transfer s s' u given made := by
  cases h with
  | tick | nameTooLong | callResolve | callCancel | callCleanUp | resolveLock | resolveBusy
      | resolveReuse | tooManyRequests | cancelNothing | cancelLock | cleanUpNothing =>
    exact ⟨_, _, _, .idle (fun _ => rfl) rfl rfl⟩
  | resolveFirst a q => exact ⟨_, _, _, .idle (held_newThread hc none) rfl rfl⟩
  | resolveReplace a q t => exact ⟨_, _, _, .idle (held_newThread hc (some t)) rfl rfl⟩
  | resolveRegister a q t needStart id s hcall _ _ =>
    have hx := hc.absent a q t needStart hcall
    have hpc : needStart = true → (s.threads t).pc.entering = none := by
      rintro rfl
      rw [hc.regNew a q t hcall]
      rfl
    refine ⟨t, 0, {s.nextCall}, fun u hu => ?_, ?_, (zero_add _).symm, ?_⟩
    · show ((s.setThread t _).threads u).held = _
      rw [threads_setThread, if_neg hu]
    · show ((s.setThread t _).threads t).held + 0 = _
      rw [threads_setThread, if_pos rfl, registerIn_held hx hpc, add_zero]
    · show Multiset.range (s.nextCall + 1) = _
      rw [Multiset.range_succ, ← Multiset.singleton_add, add_comm]
  | cancelDone a x t tb r s hcall _ hr =>
    have hlog : (((s.setThread t (cancelled (s.threads t) tb)).addLog
        [.cancelReturned x s.nextCall, .cancelled r.addr]).returnFrom a).log =
        [.cancelReturned x s.nextCall, .cancelled r.addr] ++ s.log := rfl
    exact ⟨t, _, 0, .own rfl hlog rfl (cancelled_held_add (hl t) hr)⟩
  | cancelMiss a x t tb s hcall _ hr =>
    refine ⟨_, _, _, .idle (held_setThread s ?_) rfl rfl⟩
    show (cancelled (s.threads t) tb).held = _
    rw [cancelled_held, (Tables.removeResolver_eq_none hr).1]
    rfl
  | cleanUpJoin a t s hcall hj =>
    have hT := held_destroyed hj fun h => ha (List.mem_append_left _ h)
    refine ⟨_, _, _, .idle (held_setThread s hT) ?_ rfl⟩
    show ended (_ ++ (_ ++ s.log)) = _
    rw [ended_append, ended_append, ended_assert, ended_assert, zero_add, zero_add]
  | joinPrev t p e s hpc hp hj =>
    have hT := held_destroyed hj fun h => ha (List.mem_append_left _ h)
    have ht : (s.destroy p).threads t = s.threads t := by
      have hne : t ≠ p := (hc.prev t p hp).ne'
      show (s.setThread p _).threads t = _
      rw [threads_setThread, if_neg hne]
    refine ⟨_, _, _, .idle (fun u => ?_) ?_ rfl⟩
    · refine (held_setThread _ ?_ u).trans (held_setThread s hT u)
      rw [ht]
      refine LookupThread.held_eq rfl ?_
      rw [hpc]
      rfl
    · show ended (_ ++ s.log) = _
      rw [ended_append, ended_assert, zero_add]
  | popStartSending t c e rest threads s hpc hq hcur hw hu =>
    refine ⟨_, _, _, .idle (fun u => ?_) rfl rfl⟩
    show (threads u).held = _
    rw [hu]
    rfl
  | own t e T es s _ _ hm => exact ⟨_, _, _, .own rfl rfl rfl (hm.held (hl t))⟩
  | cancelWait a x t s | cleanUpLock a t s | popNop t e rest s =>
    exact ⟨_, _, _, .idle (held_setThread s (LookupThread.held_eq rfl rfl)) rfl rfl⟩
  | noPrev t e s hpc | openSocket t e s hpc | openFailed t e s hpc | queueEmpty t e s hpc
      | drainedOpen t e s hpc =>
    refine ⟨_, _, _, .idle (held_setThread s (LookupThread.held_eq rfl ?_)) rfl rfl⟩
    rw [hpc]
    rfl

/-- **The tokens of the threads and those that have ended are the numbers of all requests,** as
long as no assertion has failed. -/
theorem conserved {G : Sys → Action → Prop} (hr : resolverSystem.Reach G s)
    (ha : .assertFailed ∉ s.log) {S : Finset ℕ} (hS : ∀ t, t < s.nextThread → t ∈ S) :
    Tokens.total S (fun t => (s.threads t).held) + ended s.log = Multiset.range s.nextCall := by
  refine hr.invariant (I := fun s => .assertFailed ∉ s.log →
    ∀ S : Finset ℕ, (∀ t, t < s.nextThread → t ∈ S) →
      Tokens.total S (fun t => (s.threads t).held) + ended s.log = Multiset.range s.nextCall)
    ?_ ?_ ha S hS
  · rintro s ⟨now, rfl⟩ _ S _
    exact (add_zero _).trans (Finset.sum_eq_zero fun t _ => rfl)
  · intro s act s' hr ih _ hs ha S hS
    have hm := sysMove hs
    have hc := (locks hr).toCalls
    obtain ⟨u, given, made, hother, hhands, hended, hnum⟩ :=
      hm.transfer hc (stored hr).linked ha
    have hout : u ∉ S → (s'.threads u).held = (s.threads u).held := by
      intro hu
      have hle : s'.nextThread ≤ u := not_lt.mp fun hlt => hu (hS u hlt)
      rw [held_unborn hc (hm.nextThread_le.trans hle), held_unborn (calls_step hc hm) hle]
    have htotal : Tokens.total S (fun t => (s'.threads t).held) + given =
        Tokens.total S (fun t => (s.threads t).held) + made :=
      Tokens.total_transfer hout hother hhands
    have hS' : ∀ t, t < s.nextThread → t ∈ S := fun t ht => hS t (ht.trans_le hm.nextThread_le)
    rw [hended, ← add_assoc, htotal, add_right_comm,
      ih (fun h => ha (hm.log_mono h)) S hS', hnum]

end Sys

/-! ## the situations of a request -/

theorem count_ended (k : ℕ) (log : List Event) : (ended log).count k =
    log.countP (fun ev => ev.enters = some k) + log.countP (fun ev => ev.cancels = some k) := by
  unfold ended
  rw [Multiset.coe_count, List.count_filterMap]
  induction log with
  | nil => rfl
  | cons ev log ih =>
    have hev : (if ev.ends = some k then 1 else 0) =
        (if ev.enters = some k then 1 else 0) + if ev.cancels = some k then 1 else 0 := by
      cases ev <;> simp [Event.ends, Event.enters, Event.cancels]
    simp only [List.countP_cons, beq_iff_eq, decide_eq_true_eq] at ih ⊢
    omega

namespace Sys

/-- how often the request is in the `resolversMap` of a lookup thread -/
def registrations (s : Sys) (k : ℕ) : ℕ :=
  ∑ t ∈ Finset.range s.nextThread, (s.threads t).tables.addrs.count k

/-- how often `on_completed()` has been entered for the request, or is about to be by the
`CallCallback` in progress -/
def completions (s : Sys) (k : ℕ) : ℕ :=
  s.log.countP (fun ev => ev.enters = some k) +
    ∑ t ∈ Finset.range s.nextThread, if (s.threads t).pc.entering = some k then 1 else 0

/-- how often a `cancel()` has removed the request and returned `true` -/
def cancellations (s : Sys) (k : ℕ) : ℕ := s.log.countP (fun ev => ev.cancels = some k)

theorem count_held (T : LookupThread) (k : ℕ) : T.held.count k =
    T.tables.addrs.count k + if T.pc.entering = some k then 1 else 0 := by
  unfold LookupThread.held
  rw [Multiset.count_add, Multiset.coe_count, Multiset.coe_count]
  cases T.pc.entering with
  | none => rfl
  | some j => simp [List.count_singleton]

end Sys

/-- **Every request is in exactly one place,** once, in every run up to the first failed assertion:
active in one lookup thread, or completed, or cancelled. -/
theorem request_in_one_place {s : Sys} (hr : Run s) (ha : .assertFailed ∉ s.log) {k n : ℕ}
    {q : Query} {b : Bool} (hreg : .registered k q n b ∈ s.log) :
    s.registrations k + s.completions k + s.cancellations k = 1 := by
  have hk := (Sys.numbered hr).old k q n b hreg
  have h := congrArg (Multiset.count k) (Sys.conserved hr ha (S := Finset.range s.nextThread)
    fun t ht => Finset.mem_range.mpr ht)
  rw [Multiset.count_add, Tokens.count_total, count_ended,
    Multiset.count_eq_one_of_mem (Multiset.nodup_range _) (Multiset.mem_range.mpr hk)] at h
  simp only [Sys.count_held, Finset.sum_add_distrib] at h
  unfold Sys.registrations Sys.completions Sys.cancellations
  omega

set_option maxRecDepth 10000 in
/-- a request that has been cancelled -/
theorem request_in_one_place_cancelled : ∃ s, resolverSystem.run (fun _ _ => True)
      (callSteps (.client 0) (.resolve (queryA 1)) 2 ++ callSteps (.client 0) (.cancel 1) 2)
      (Sys.init 0) = some s ∧ .cancelled 0 ∈ s.log ∧
    s.registrations 0 + s.completions 0 + s.cancellations 0 = 1 := by
  obtain ⟨s, hs, hp⟩ := Machine.exists_run resolverSystem (fun _ _ => True)
    (callSteps (.client 0) (.resolve (queryA 1)) 2 ++ callSteps (.client 0) (.cancel 1) 2)
    (Sys.init 0) (fun s => .cancelled 0 ∈ s.log ∧ .assertFailed ∉ s.log ∧
      .registered 0 (queryA 1) 0 false ∈ s.log) (by decide)
  obtain ⟨hcan, ha, hreg⟩ := of_decide_eq_true hp
  exact ⟨s, hs, hcan, request_in_one_place ((reach_init _ 0).run hs) ha hreg⟩

end Setka
