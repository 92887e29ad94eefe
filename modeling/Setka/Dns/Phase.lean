import Setka.Lib.Traces
import Setka.Dns.Conservation
import Setka.Dns.Removal
import Setka.Dns.Timeouts
import Setka.Dns.Unfinished

/-!
# The two loops that time requests out

After the clock sample the thread is in the loop that drains `timeMap1` at a tick wrap, or in the
expiry loop, until the wait timeout is computed.  Its mutex is free while a callback runs, so the
other threads go on, and may register and cancel requests of this thread.

* `LoopStep`        what a step of `run()` does in one of the loops: one round removes the first
                    request of `timeMap1`, and nothing else;
* `LoopMove`        what a step of the system can do to a thread in one of the loops;
* `loop_progress`   the thread can take its next step, unless its callback is in a call or its mutex
                    is taken.
-/

namespace Setka

/-- in one of the loops that time requests out -/
def Pc.timesOut (pc : Pc) : Prop := pc.site = some .wrap ∨ pc.site = some .expire

namespace LookupThread

/-- Another thread has touched neither the tables nor what the loops go by. -/
structure Untouched (T T' : LookupThread) : Prop where
  tables : T'.tables = T.tables
  pc : T'.pc = T.pc
  curTime : T'.curTime = T.curTime
  lastTicks : T'.lastTicks = T.lastTicks
  first : T'.lastTicksInFirstHalf = T.lastTicksInFirstHalf

theorem Untouched.refl (T : LookupThread) : Untouched T T := ⟨rfl, rfl, rfl, rfl, rfl⟩

variable {t now : ℕ} {e : Env} {T T' : LookupThread} {es : List Event}

/-- A request that a step of `run()` ends is the one whose callback is entered. -/
theorem LocalMove.ends_mem (h : LocalMove t now e T T' es) {ev : Event} (hev : ev ∈ es) {k : ℕ}
    (hk : ev.ends = some k) : ∃ c, T.pc = .cbEnter c ∧ c.resolver.addr = k ∧
      ev = .entered k c.resolver.hnr c.result now := by
  cases h
  case cbEnter c hpc =>
    rw [List.mem_singleton.mp hev] at hk ⊢
    cases hk
    exact ⟨c, hpc, rfl, rfl⟩
  case cbLock =>
    split at hev
    · cases hev
    · rw [List.mem_singleton.mp hev] at hk
      cases hk
  case requeued | requeueFailed =>
    rcases List.mem_cons.mp hev with rfl | hev
    · cases hk
    · rw [mem_assert hev] at hk
      cases hk
  case replied | sent =>
    rw [List.mem_singleton.mp hev] at hk
    cases hk
  case receiveNothing | ignored | writable =>
    rw [mem_assert hev] at hk
    cases hk
  all_goals cases hev

theorem LocalMove.ends_unfinished (h : LocalMove t now e T T' es) {ev : Event} (hev : ev ∈ es)
    {k : ℕ} (hk : ev.ends = some k) : ∃ x, (x, k) ∈ T.unfinished := by
  obtain ⟨c, hpc, hck, _⟩ := h.ends_mem hev hk
  refine ⟨c.resolver.hnr, List.mem_append_right _ ?_⟩
  unfold running
  rw [hpc, ← hck]
  exact List.mem_singleton.mpr rfl

/-- the expiry loop has come to its end -/
def PhaseOver (T : LookupThread) : Prop := T.pc = .expire ∧ T.expired = none

/-- what a step of `run()` does in one of the loops -/
inductive LoopStep (t now : ℕ) (T : LookupThread) : LookupThread → List Event → Prop
  | swapped : T.pc = .wrap → T.tables.timeMap T.tables.timeMap1 = [] →
      LoopStep t now T
        { T with tables := T.tables.swapTimeMaps
                 lastTicksInFirstHalf := isFirstHalf (ticks T.curTime)
                 lastTicks := T.curTime, pc := .expire } []
  | timedOut (L : Site) (c : Cell UInt32 ℕ) (rest : List (Cell UInt32 ℕ)) (r : Resolver)
      (tb : Tables) : T.pc = L.resume → L = .wrap ∨ (L = .expire ∧ ¬ c.key > ticks T.curTime) →
      T.tables.timeMap T.tables.timeMap1 = c :: rest → r.addr = c.val →
      T.tables.removeResolver r.hnr = some (tb, some r) → tb.timeMap1 = T.tables.timeMap1 →
      tb.timeMap T.tables.timeMap1 = rest →
      LoopStep t now T (T.completing tb r .timeout (Ip.ofV4 0) L) []
  | cbLock (c : Callback) (es : List Event) : T.pc = .cbLock c → (∀ ev ∈ es, ev = .badUnlock) →
      LoopStep t now T
        { T with completedMutex := some (.lookup t), mutex := none, pc := .cbEnter c } es
  | cbEnter (c : Callback) : T.pc = .cbEnter c →
      LoopStep t now T { T with pc := .cbRun c }
        [.entered c.resolver.addr c.resolver.hnr c.result now]
  | cbReturn (c : Callback) : T.pc = .cbRun c →
      LoopStep t now T { T with completedMutex := none, pc := .cbRelock c.site } []
  | cbRelock (L : Site) : T.pc = .cbRelock L → L = .wrap ∨ L = .expire →
      LoopStep t now T { T with mutex := some (.lookup t), pc := L.resume } []
  | finished (T' : LookupThread) : T.PhaseOver → T'.pc.site = none → LoopStep t now T T' []

/-- **One round of a loop** removes the request of the first cell of `timeMap1`, and nothing
else. -/
theorem timeout_round {tb tb' : Tables} (hl : tb.Linked) {c : Cell UInt32 ℕ}
    {rest : List (Cell UInt32 ℕ)} {r r' : Resolver} (hc : tb.timeMap tb.timeMap1 = c :: rest)
    (hd : tb.deref c.val = some r) (hr : tb.removeResolver r.hnr = some (tb', some r')) :
    r' = r ∧ tb'.timeMap1 = tb.timeMap1 ∧ tb'.timeMap tb.timeMap1 = rest := by
  have hrr := Tables.removed_of_deref hl hd hr
  obtain ⟨r₀, hd₀, _, _, hm, hlink⟩ :=
    Tables.deref_of_cell hl (m := tb.timeMap1) (hc ▸ List.mem_cons_self)
  cases hd.symm.trans hd₀
  subst hrr
  obtain ⟨_, sends, times, ids, _, ht, _, rfl⟩ := Tables.removeResolver_eq_some hr
  have hnode : r'.timeMapIter = c.node := congrArg Prod.fst hlink
  rw [hm, hc, hnode] at ht
  have htimes : times = rest := by
    rw [Cell.eraseNode_eq_some ht, List.eraseP_cons_of_pos (by simp)]
  refine ⟨rfl, Tables.setTimeMap_timeMap1 _ _ _, ?_⟩
  show (tb.setTimeMap r'.timeMap times).timeMap tb.timeMap1 = rest
  rw [hm, Tables.setTimeMap_self, htimes]

/-- **What a step of `run()` does in one of the loops.** -/
theorem LocalMove.loop (h : LocalMove t now e T T' es) (hl : T.tables.Linked)
    (hpc : T.pc.timesOut) : LoopStep t now T T' es := by
  have hno : ∀ {pc : Pc}, T.pc = pc → ¬ pc.timesOut → LoopStep t now T T' es := by
    intro pc heq hn
    rw [heq] at hpc
    exact absurd hpc hn
  cases h with
  | swapped hw hnil => exact .swapped hw hnil
  | wrapTimeout c rest r tb r' hw hc hd hr =>
    obtain ⟨rfl, h1, hrest⟩ := timeout_round hl hc hd hr
    exact .timedOut .wrap c rest r' tb hw (.inl rfl) hc (Tables.addr_of_deref hd) hr h1 hrest
  | expireTimeout c rest r tb r' hx hc hk hd hr =>
    obtain ⟨rfl, h1, hrest⟩ := timeout_round hl hc hd hr
    exact .timedOut .expire c rest r' tb hx (.inr ⟨rfl, hk⟩) hc (Tables.addr_of_deref hd) hr h1
      hrest
  | noRequests hx hexp => exact .finished _ ⟨hx, hexp⟩ rfl
  | startWait timeout hx hexp => exact .finished _ ⟨hx, hexp⟩ rfl
  | cbLock c hc =>
    refine .cbLock c _ hc fun ev hev => ?_
    split at hev
    · cases hev
    · exact List.mem_singleton.mp hev
  | cbEnter c hc => exact .cbEnter c hc
  | cbReturn c hc => exact .cbReturn c hc
  | cbRelock L hc =>
    refine .cbRelock L hc ?_
    rw [hc] at hpc
    exact hpc.imp (fun h => Option.some.inj h) fun h => Option.some.inj h
  | initDNS hp | quit hp | nextRound hp | lock hp | socketError hp | noError hp | notReadable hp
      | receiveError hp | receiveNothing hp | ignored _ hp | requeued _ _ _ hp
      | requeueFailed _ _ _ _ hp | replied _ _ _ _ _ hp | writable hp | notWritable hp
      | allSent hp | sent _ _ _ hp | sendNotReady _ _ _ hp | sendError _ _ _ hp
      | noServer _ _ _ _ _ hp | sampledWrap hp | sampled hp | drained hp | drainedOpen hp
      | drainNext _ _ _ _ _ _ hp | wakeTimeout _ hp | wakeReady _ _ hp | left hp =>
    exact hno hp (by rintro (h | h) <;> cases h)

end LookupThread

namespace Sys
variable {act : Action} {s s' : Sys} {t : ℕ}

/-- what one step of the system can do to a thread in one of the loops -/
inductive LoopMove (act : Action) (s s' : Sys) (t : ℕ) : Prop
  /-- a step of another thread, which ends requests of other threads only -/
  | others (es : List Event) : (∀ e, act ≠ .run t e) →
      (s.threads t).Untouched (s'.threads t) → s'.log = es ++ s.log →
      (∀ ev ∈ es, ∀ k, ev.ends = some k → ∃ u x, u ≠ t ∧ (x, k) ∈ (s.threads u).unfinished) →
      LoopMove act s s' t
  | registered (a : Actor) (q : Query) (id : UInt16) : act = .api a →
      s.calls a = .resolveRegister q t false →
      Tables.findFreeId (s.threads t).tables.idMap = some id →
      s'.threads t = registerIn (s.threads t) s.now s.nextCall q id false → LoopMove act s s' t
  | cancelled (a : Actor) (x : ℕ) (tb : Tables) (r : Resolver) : act = .api a →
      s.calls a = .cancelRemove x t →
      (s.threads t).tables.removeResolver x = some (tb, some r) →
      s'.threads t = cancelled (s.threads t) tb →
      s'.log = [.cancelReturned x s.nextCall, .cancelled r.addr] ++ s.log → LoopMove act s s' t
  | own (e : Env) (es : List Event) : act = .run t e →
      LookupThread.LocalMove t s.now e (s.threads t) (s'.threads t) es →
      LookupThread.LoopStep t s.now (s.threads t) (s'.threads t) es →
      s'.log = es ++ s.log → LoopMove act s s' t

theorem untouched_setThread (s : Sys) {u t : ℕ} {T : LookupThread}
    (h : u = t → (s.threads t).Untouched T) :
    (s.threads t).Untouched ((s.setThread u T).threads t) := by
  rw [threads_setThread]
  split
  · rename_i hu
    exact h hu.symm
  · exact .refl _

theorem not_timesOut {u : ℕ} {pc : Pc} (hu : (s.threads u).pc = pc)
    (hpc : (s.threads t).pc.timesOut)
    (hs : ¬ pc.timesOut) : u ≠ t := by
  rintro rfl
  rw [hu] at hpc
  exact hs hpc

theorem joinable_ne {u : ℕ} (hj : joinable (s.threads u) = true)
    (hpc : (s.threads t).pc.timesOut) : u ≠ t := by
  unfold joinable at hj
  rw [Bool.or_eq_true, beq_iff_eq, beq_iff_eq] at hj
  rcases hj with hj | hj
  · exact not_timesOut hj hpc (by rintro (h | h) <;> cases h)
  · exact not_timesOut hj hpc (by rintro (h | h) <;> cases h)

/-- **What a step can do to a thread in one of the loops.** -/
theorem Move.loop (h : Move act s s') (hc : Calls s) (hlink : (s.threads t).tables.Linked)
    (hpc : (s.threads t).pc.timesOut) : LoopMove act s s' t := by
  have hassert : ∀ {b : Bool}, ∀ ev ∈ assert b, ∀ k, ev.ends ≠ some k := by
    intro b ev hev k
    rw [mem_assert hev]
    exact nofun
  have hne : ∀ {u : ℕ} {pc : Pc}, (s.threads u).pc = pc → ¬ pc.timesOut → u ≠ t :=
    fun hu hs => not_timesOut hu hpc hs
  have hborn : t < s.nextThread :=
    hc.born t fun h => absurd rfl (hne h (by rintro (h | h) <;> cases h))
  have hnil : ∀ ev ∈ ([] : List Event), ∀ k, ev.ends = some k →
      ∃ u x, u ≠ t ∧ (x, k) ∈ (s.threads u).unfinished := List.forall_mem_nil _
  have hapi : ∀ (a : Actor) (e : Env), Action.api a ≠ .run t e := fun _ _ => Action.noConfusion
  have hbegin : ∀ (a : Actor) (c : ApiCall) (e : Env), Action.call a c ≠ .run t e :=
    fun _ _ _ => Action.noConfusion
  have hrun : ∀ {u : ℕ} {e : Env}, u ≠ t → ∀ e', Action.run u e ≠ .run t e' := by
    rintro u e hu e' heq
    cases heq
    exact hu rfl
  cases h with
  | tick => exact .others [] (fun _ => Action.noConfusion) (.refl _) rfl hnil
  | nameTooLong | callResolve | callCancel | callCleanUp =>
    exact .others [] (hbegin _ _) (.refl _) rfl hnil
  | resolveLock | resolveBusy | resolveReuse | tooManyRequests | cancelLock | cleanUpNothing =>
    exact .others [] (hapi _) (.refl _) rfl hnil
  | cancelNothing a x =>
    refine .others [.cancelReturned x s.nextCall] (hapi _) (.refl _) rfl fun ev hev k hk => ?_
    rw [List.mem_singleton.mp hev] at hk
    cases hk
  | resolveFirst | resolveReplace =>
    refine .others [] (hapi _) (untouched_setThread s fun hu => ?_) rfl hnil
    exact absurd hu (hborn.ne')
  | resolveRegister a q u needStart id s hcall _ hid =>
    by_cases hu : u = t
    · subst hu
      cases needStart with
      | true =>
        have hnew := hc.regNew a q u hcall
        exact absurd rfl (hne hnew (by rintro (h | h) <;> cases h))
      | false => exact .registered a q id rfl hcall hid (Function.update_self _ _ _)
    · refine .others [_] (hapi _) (untouched_setThread s fun h => absurd h hu) rfl
        fun ev hev k hk => ?_
      rw [List.mem_singleton.mp hev] at hk
      cases hk
  | cancelDone a x u tb r s hcall _ hr =>
    by_cases hu : u = t
    · subst hu
      exact .cancelled a x tb r rfl hcall hr (Function.update_self _ _ _) rfl
    · refine .others [.cancelReturned x s.nextCall, .cancelled r.addr] (hapi _)
        (untouched_setThread s fun h => absurd h hu) rfl fun ev hev k hk => ?_
      rcases List.mem_cons.mp hev with rfl | hev
      · cases hk
      · rw [List.mem_singleton.mp hev] at hk
        cases hk
        have hmem : r ∈ (s.threads u).tables.resolvers :=
          List.mem_map_of_mem (Tables.find_eq_some (Tables.removeResolver_eq_some hr).1)
        exact ⟨u, r.hnr, hu, List.mem_append_left _ (List.mem_map_of_mem hmem)⟩
  | cancelMiss a x u tb s hcall _ hr =>
    refine .others [] (hapi _) (untouched_setThread s ?_) rfl hnil
    rintro rfl
    have htb := (Tables.removeResolver_eq_none hr).1
    exact ⟨(cancelled_tables _ _).trans htb, cancelled_pc _ _, cancelled_curTime _ _,
      cancelled_lastTicks _ _, cancelled_firstHalf _ _⟩
  | cancelWait a x u s =>
    refine .others [.cancelReturned x s.nextCall] (hapi _) (untouched_setThread s ?_) rfl
      fun ev hev k hk => ?_
    · rintro rfl
      exact ⟨rfl, rfl, rfl, rfl, rfl⟩
    · rw [List.mem_singleton.mp hev] at hk
      cases hk
  | cleanUpLock a u s =>
    refine .others [] (hapi _) (untouched_setThread s ?_) rfl hnil
    rintro rfl
    exact ⟨rfl, rfl, rfl, rfl, rfl⟩
  | cleanUpJoin a u s hcall hj =>
    refine .others _ (hapi _) (untouched_setThread s fun h => absurd h (joinable_ne hj hpc))
      (List.append_assoc _ _ _).symm fun ev hev k hk => ?_
    rcases List.mem_append.mp hev with hev | hev <;> exact absurd hk (hassert ev hev k)
  | noPrev u e s hu | openSocket u e s hu | openFailed u e s hu | queueEmpty u e s hu
      | popNop u e rest s hu | drainedOpen u e s hu =>
    have hut : u ≠ t := hne hu (by rintro (h | h) <;> cases h)
    exact .others [] (hrun hut) (untouched_setThread s fun h => absurd h hut) rfl hnil
  | joinPrev u p e s hu hp hj =>
    have hut : u ≠ t := hne hu (by rintro (h | h) <;> cases h)
    refine .others _ (hrun hut) ?_ rfl fun ev hev k hk => absurd hk (hassert ev hev k)
    have hd := untouched_setThread s (u := p) (t := t) (T := { pc := .destroyed })
      fun h => absurd h (joinable_ne hj hpc)
    rw [threads_setThread, if_neg fun h => hut h.symm]
    exact hd
  | popStartSending u c e rest threads s hu _ _ _ hth =>
    have hut : u ≠ t := hne hu (by rintro (h | h) <;> cases h)
    refine .others [] (hrun hut) ?_ rfl hnil
    show (s.threads t).Untouched (threads t)
    rw [hth t]
    exact ⟨rfl, rfl, rfl, rfl, rfl⟩
  | own u e T es s _ _ hl =>
    by_cases hu : u = t
    · subst hu
      have hT : (s.setThread u T).threads u = T := Function.update_self _ _ _
      refine .own e es rfl ?_ ?_ rfl
      · rw [hT]
        exact hl
      · rw [hT]
        exact hl.loop hlink hpc
    · refine .others es (hrun hu) (untouched_setThread s fun h => absurd h hu) rfl
        fun ev hev k hk => ?_
      obtain ⟨x, hx⟩ := hl.ends_unfinished hev hk
      exact ⟨u, x, hu, hx⟩

/-! ## progress -/

/-- A cell of `timeMap1` can be timed out. -/
theorem complete_ok {T : LookupThread} (hl : T.tables.Linked) (hs : T.tables.SendKept)
    {c : Cell UInt32 ℕ} (hc : c ∈ T.tables.timeMap T.tables.timeMap1) (res : DnsResult) (ip : Ip)
    (site : Site) :
    ∃ r T', T.tables.deref c.val = some r ∧ T.complete r.hnr res ip site = some T' := by
  obtain ⟨r, hd, hx, _⟩ := Tables.deref_of_cell hl hc
  obtain ⟨tb, htb⟩ := Tables.removeResolver_ok hl hs hx
  refine ⟨r, T.completing tb r res ip site, hd, ?_⟩
  unfold LookupThread.complete
  rw [htb]
  rfl

theorem ownStep_isSome {e : Env} (h : ((s.threads t).localStep t s.now e).isSome = true) :
    (s.ownStep t e).isSome = true := by
  obtain ⟨⟨T, es⟩, hT⟩ := Option.isSome_iff_exists.mp h
  unfold ownStep
  rw [hT]
  rfl

/-- the callback is in a call of the API, or another thread has the mutex -/
def WaitsForOthers (s : Sys) (t : ℕ) : Prop :=
  (∃ c, (s.threads t).pc = .cbRun c ∧ s.calls (.lookup t) ≠ .idle) ∨
  ∃ L, (s.threads t).pc = .cbRelock L ∧ (s.threads t).mutex ≠ none

/-- **The loops go on** until they are over, unless the thread has to wait. -/
theorem loop_progress (hr : Run s) (hpc : (s.threads t).pc.timesOut)
    (hover : ¬ (s.threads t).PhaseOver) (hwait : ¬ WaitsForOthers s t) (e : Env) :
    ∃ s', resolverSystem.step (.run t e) s = some s' := by
  have hl := (stored hr).linked t
  have hs := sendKept hr t
  have hown : s.runStep t e = s.ownStep t e →
      ((s.threads t).localStep t s.now e).isSome = true →
      ∃ s', resolverSystem.step (.run t e) s = some s' := by
    intro hrun h
    obtain ⟨s', hs'⟩ := Option.isSome_iff_exists.mp (ownStep_isSome h)
    exact ⟨s', hrun.trans hs'⟩
  cases hp : (s.threads t).pc with
  | wrap =>
    have hrun : s.runStep t e = s.ownStep t e := by
      unfold runStep
      rw [hp]
    cases hm : (s.threads t).tables.timeMap (s.threads t).tables.timeMap1 with
    | nil =>
      refine hown hrun ?_
      unfold LookupThread.localStep LookupThread.wrapStep
      rw [hp, hm]
      rfl
    | cons c rest =>
      obtain ⟨r, T', hd, hT'⟩ :=
        complete_ok hl hs (hm ▸ List.mem_cons_self) .timeout (Ip.ofV4 0) .wrap
      refine hown hrun ?_
      unfold LookupThread.localStep LookupThread.wrapStep
      rw [hp, hm]
      dsimp only
      rw [hd]
      show (do some (← (s.threads t).complete r.hnr .timeout (Ip.ofV4 0) .wrap, []) :
        Option (LookupThread × List Event)).isSome = true
      rw [hT']
      rfl
  | expire =>
    have hrun : s.runStep t e = s.ownStep t e := by
      unfold runStep
      rw [hp]
    obtain ⟨c, hc⟩ := Option.ne_none_iff_exists'.mp fun hn => hover ⟨hp, hn⟩
    obtain ⟨rest, hm, _⟩ := LookupThread.expired_eq_some hc
    obtain ⟨r, T', hd, hT'⟩ :=
      complete_ok hl hs (hm ▸ List.mem_cons_self) .timeout (Ip.ofV4 0) .expire
    refine hown hrun ?_
    unfold LookupThread.localStep LookupThread.expireStep
    rw [hp, hc]
    dsimp only
    rw [hd]
    show (do some (← (s.threads t).complete r.hnr .timeout (Ip.ofV4 0) .expire, []) :
      Option (LookupThread × List Event)).isSome = true
    rw [hT']
    rfl
  | cbLock c =>
    have hcm : (s.threads t).completedMutex = none := by
      rw [(locks hr).completed t, hp]
      rfl
    refine hown (by unfold runStep; rw [hp]) ?_
    unfold LookupThread.localStep
    rw [hp]
    dsimp only
    rw [if_pos hcm]
    rfl
  | cbEnter c =>
    refine hown (by unfold runStep; rw [hp]) ?_
    unfold LookupThread.localStep
    rw [hp]
    rfl
  | cbRun c =>
    have hidle : s.calls (.lookup t) = .idle := by_contra fun h => hwait (.inl ⟨c, hp, h⟩)
    refine hown (by unfold runStep; rw [hp]; exact if_pos hidle) ?_
    unfold LookupThread.localStep
    rw [hp]
    rfl
  | cbRelock L =>
    have hfree : (s.threads t).mutex = none := by_contra fun h => hwait (.inr ⟨L, hp, h⟩)
    refine hown (by unfold runStep; rw [hp]) ?_
    unfold LookupThread.localStep
    rw [hp]
    dsimp only
    rw [if_pos hfree]
    rfl
  | _ =>
    rw [hp] at hpc
    rcases hpc with h | h <;> cases h

end Sys
end Setka
