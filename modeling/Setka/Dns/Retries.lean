import Setka.Dns.Epochs

/-!
# Callbacks that start a new request on timeout

The two loops that time requests out run callbacks with the mutex free, so the map a loop takes
requests from may grow while the loop runs.  A request joins a loop if it is registered where the
loop will time it out: in `timeMap1` while this is drained, or in `timeMap1` with a deadline that is
not after the sample while the expiry loop runs.

* `TimesOut`, `Joins`         the rounds of a loop, and the requests that join it;
* `timesOut_finite`           a loop that finitely many requests join has finitely many rounds;
* `timeout_loop_finite_iff`   the other requests set aside, these are all such loops;
* `expire_loop_finite`        while the clock stays in the epoch of the sample, no retry with a
                              positive timeout joins the expiry loop;
* `retry_forever`             a retry that joins the drain each time.
-/

namespace Setka

namespace LookupThread

/-- the loop `L` times out a request of `timeMap1` with the deadline `key` -/
def takes (T : LookupThread) (L : Site) (key : UInt32) : Bool :=
  match L with
  | .wrap => true
  | .expire => !decide (key > ticks T.curTime)
  | .receive | .send | .drain _ => false

/-- the cells of the requests that the loop `L` has still to time out -/
def todo (T : LookupThread) (L : Site) : List (Cell UInt32 ℕ) :=
  (T.tables.timeMap T.tables.timeMap1).filter (fun c => T.takes L c.key)

variable {t now : ℕ} {T T' : LookupThread} {es : List Event} {L : Site}

theorem takes_eq (h : T'.curTime = T.curTime) (L : Site) (key : UInt32) :
    T'.takes L key = T.takes L key := by
  unfold takes
  rw [h]

theorem todo_eq (htb : T'.tables = T.tables) (hcur : T'.curTime = T.curTime) :
    T'.todo L = T.todo L := by
  unfold todo
  rw [htb]
  exact congrArg (List.filter · _) (funext fun c => takes_eq hcur L c.key)

theorem todo_length_le (h1 : T'.tables.timeMap1 = T.tables.timeMap1)
    (hcur : T'.curTime = T.curTime)
    (hsub : (T'.tables.timeMap T.tables.timeMap1).Sublist (T.tables.timeMap T.tables.timeMap1)) :
    (T'.todo L).length ≤ (T.todo L).length := by
  unfold todo
  rw [h1, show (fun c : Cell UInt32 ℕ => T'.takes L c.key) = fun c => T.takes L c.key from
    funext fun c => takes_eq hcur L c.key]
  exact (hsub.filter _).length_le

theorem site_of_resume (hL : L = .wrap ∨ L = .expire) : L.resume.site = some L := by
  rcases hL with rfl | rfl <;> rfl

/-- A round of the loop takes a request off its list. -/
theorem LoopStep.todo_lt (h : T.LoopStep t now T' es) (hsite : T.pc.site = some L)
    (hpc : T.pc = .wrap ∧ T.tables.timeMap T.tables.timeMap1 ≠ [] ∨
      T.pc = .expire ∧ T.expired ≠ none) : (T'.todo L).length < (T.todo L).length := by
  cases h with
  | timedOut K c rest r tb hK hor hc _ _ h1 hrest =>
    have hKL : K = L := by
      rw [hK, site_of_resume (hor.imp_right And.left)] at hsite
      exact Option.some.inj hsite
    subst hKL
    have htake : T.takes K c.key = true := by
      rcases hor with rfl | ⟨rfl, hkey⟩
      · rfl
      · unfold takes
        rw [decide_eq_false hkey]
        rfl
    have htodo : (T.todo K) = c :: rest.filter (fun c => T.takes K c.key) := by
      unfold todo
      rw [hc]
      exact List.filter_cons_of_pos htake
    have htodo' : (T.completing tb r .timeout (Ip.ofV4 0) K).todo K =
        rest.filter (fun c => T.takes K c.key) := by
      show (tb.timeMap tb.timeMap1).filter _ = _
      rw [h1, hrest]
      rfl
    rw [htodo, htodo', List.length_cons]
    exact Nat.lt_succ_self _
  | swapped hw hnil =>
    rcases hpc with ⟨_, hne⟩ | ⟨hx, _⟩
    · exact absurd hnil hne
    · rw [hx] at hw
      cases hw
  | finished T' ho =>
    rcases hpc with ⟨hw, _⟩ | ⟨_, hne⟩
    · have := hw.symm.trans ho.1
      cases this
    · exact absurd ho.2 hne
  | cbLock c es hc | cbEnter c hc | cbReturn c hc | cbRelock c hc =>
    rcases hpc with ⟨h, _⟩ | ⟨h, _⟩ <;> rw [hc] at h <;> cases h

/-- A step of `run()` puts nothing on the list of the loop, as long as it stays in the loop. -/
theorem LoopStep.todo_le (h : T.LoopStep t now T' es) (hsite : T'.pc.site = T.pc.site) :
    (T'.todo L).length ≤ (T.todo L).length := by
  cases h with
  | timedOut K c rest r tb hK hor hc _ hr h1 hrest =>
    refine todo_length_le h1 rfl ?_
    show (tb.timeMap T.tables.timeMap1).Sublist _
    rw [hrest, hc]
    exact List.sublist_cons_self c rest
  | swapped hw =>
    rw [hw] at hsite
    cases hsite
  | finished T' ho hno =>
    rw [hno, ho.1] at hsite
    cases hsite
  | cbLock | cbEnter | cbReturn | cbRelock =>
    exact Nat.le_of_eq (congrArg List.length (todo_eq rfl rfl))

end LookupThread

namespace Sys
variable {act : Action} {s s' : Sys} {t : ℕ} {L : Site}

/-- a round of one of the loops: the thread `t` times a request out -/
def TimesOut (s : Sys) (t : ℕ) (act : Action) : Prop :=
  act.isRun t = true ∧
  ((s.threads t).pc = .wrap ∧
      (s.threads t).tables.timeMap (s.threads t).tables.timeMap1 ≠ [] ∨
    (s.threads t).pc = .expire ∧ (s.threads t).expired ≠ none)

/-- `a` registers a request in the thread `t` that the loop `L` will time out -/
def Joins (s : Sys) (t : ℕ) (L : Site) (a : Actor) (act : Action) : Prop :=
  act = .api a ∧ ∃ q b, s.calls a = .resolveRegister q t b ∧
    Tables.findFreeId (s.threads t).tables.idMap ≠ none ∧
    (s.threads t).tables.timeMapFor (ticks s.now) q.timeoutMillis = (s.threads t).tables.timeMap1 ∧
    (s.threads t).takes L (ticks s.now + q.timeoutMillis) = true

theorem removeResolver_sublist {tb tb' : Tables} {x : ℕ} {r : Resolver}
    (h : tb.removeResolver x = some (tb', some r)) (m : TimeMap) :
    (tb'.timeMap m).Sublist (tb.timeMap m) := by
  obtain ⟨_, sends, times, ids, _, ht, _, rfl⟩ := Tables.removeResolver_eq_some h
  show ((tb.setTimeMap r.timeMap times).timeMap m).Sublist _
  rw [Tables.setTimeMap_timeMap]
  split
  · rename_i hm
    rw [hm]
    exact Cell.eraseNode_sublist ht
  · exact List.Sublist.refl _

/-- A registration puts at most one request on the list of a loop, and none if it does not join. -/
theorem registered_todo {T : LookupThread} {now addr : ℕ} {q : Query} {id : UInt16} :
    ((registerIn T now addr q id false).todo L).length ≤ (T.todo L).length ∨
    ((T.tables.timeMapFor (ticks now) q.timeoutMillis = T.tables.timeMap1 ∧
      T.takes L (ticks now + q.timeoutMillis) = true) ∧
      ((registerIn T now addr q id false).todo L).length ≤ (T.todo L).length + 1) := by
  have htodo : (registerIn T now addr q id false).todo L =
      ((T.tables.register addr q id (ticks now)).timeMap T.tables.timeMap1).filter
        (fun c => T.takes L c.key) := by
    unfold LookupThread.todo
    rw [registerIn_tables, show (T.tables.register addr q id (ticks now)).timeMap1 =
      T.tables.timeMap1 from Tables.setTimeMap_timeMap1 _ _ _]
    rfl
  rw [htodo, Tables.register_timeMap]
  unfold LookupThread.todo
  split
  · rename_i hm
    have hp := ((Cell.insertUpper_perm ⟨T.tables.nextNode + 1, ticks now + q.timeoutMillis, addr⟩
      (T.tables.timeMap T.tables.timeMap1)).filter (fun c => T.takes L c.key)).length_eq
    rw [hp]
    by_cases htake : T.takes L (ticks now + q.timeoutMillis) = true
    · rw [List.filter_cons_of_pos (p := fun c : Cell UInt32 ℕ => T.takes L c.key) htake]
      exact .inr ⟨⟨hm.symm, htake⟩, Nat.le_refl _⟩
    · rw [List.filter_cons_of_neg (p := fun c : Cell UInt32 ℕ => T.takes L c.key) htake]
      exact .inl (Nat.le_refl _)
  · exact .inl (Nat.le_refl _)

/-- **The list of a loop** shrinks with each round, and grows with the requests that join only. -/
theorem loopMove_todo (hmv : LoopMove act s s' t) (hsite : (s.threads t).pc.site = some L)
    (hsite' : (s'.threads t).pc.site = some L) :
    (s.TimesOut t act → ((s'.threads t).todo L).length < ((s.threads t).todo L).length) ∧
    (((s'.threads t).todo L).length ≤ ((s.threads t).todo L).length ∨
      ((∃ a, s.Joins t L a act) ∧
        ((s'.threads t).todo L).length ≤ ((s.threads t).todo L).length + 1)) := by
  have hno : (∀ e, act ≠ .run t e) → ¬ s.TimesOut t act := by
    rintro hact ⟨hrun, _⟩
    cases act with
    | run u e =>
      refine hact e ?_
      rw [beq_iff_eq.mp hrun]
    | _ => cases hrun
  cases hmv with
  | others es hact hu =>
    exact ⟨fun h => absurd h (hno hact),
      .inl (Nat.le_of_eq (congrArg List.length (LookupThread.todo_eq hu.tables hu.curTime)))⟩
  | registered a q id hact hcall hid hT =>
    refine ⟨fun h => absurd h (hno fun e he => ?_), ?_⟩
    · rw [hact] at he
      cases he
    · rw [hT]
      refine registered_todo.imp_right fun ⟨⟨hm, htake⟩, hle⟩ =>
        ⟨⟨a, hact, q, false, hcall, ?_, hm, htake⟩, hle⟩
      rw [hid]
      exact Option.some_ne_none id
  | cancelled a x tb r hact _ hr hT =>
    refine ⟨fun h => absurd h (hno fun e he => ?_), .inl ?_⟩
    · rw [hact] at he
      cases he
    · rw [hT]
      refine LookupThread.todo_length_le ?_ ?_ ?_
      · rw [cancelled_tables]
        exact (Tables.removeResolver_timeMap hr).1
      · exact cancelled_curTime _ _
      · rw [cancelled_tables]
        exact removeResolver_sublist hr _
  | own e es _ _ hstep =>
    exact ⟨fun h => hstep.todo_lt hsite h.2, .inl (hstep.todo_le (hsite'.trans hsite.symm))⟩

/-! ## the calls of a callback -/

/-- `on_completed()` is entered by the thread `t` -/
def Enters (s : Sys) (t : ℕ) (act : Action) : Prop :=
  act.isRun t = true ∧ ∃ c, (s.threads t).pc = .cbEnter c

theorem Move.returns {a : Actor} (h : Move (.api a) s s') {q : Query} {b : Bool}
    (hc : s.calls a = .resolveRegister q t b) : s'.calls a = .idle := by
  cases h with
  | tooManyRequests | resolveRegister => exact Function.update_self _ _ _
  | resolveFirst a q s h | resolveLock a q u s h | resolveBusy a q u s h | resolveReplace a q u s h
      | resolveReuse a q u s h | cancelNothing a x s h | cancelLock a x u s h
      | cancelDone a x u tb r s h | cancelMiss a x u tb s h | cancelWait a x u s h
      | cleanUpNothing a s h | cleanUpLock a u s h | cleanUpJoin a u s h =>
    rw [hc] at h
    cases h

/-- A call of a lookup thread begins with the call of `resolve()`. -/
theorem Move.begins (h : Move act s s') (hi : s.calls (.lookup t) = .idle)
    (hn : s'.calls (.lookup t) ≠ .idle) : ∃ q, act = .call (.lookup t) (.resolve q) := by
  cases h with
  | callResolve a q =>
    by_cases ha : a = .lookup t
    · exact ⟨q, by rw [ha]⟩
    · refine absurd hi ?_
      rwa [show (s.setCall a (.resolveLock q)).calls (.lookup t) = s.calls (.lookup t) from
        Function.update_of_ne (Ne.symm ha) _ _] at hn
  | _ => grind [Actor.isClient]

/-- A callback is entered after a round of the loop. -/
theorem loopMove_entering (hmv : LoopMove act s s' t) :
    (s.Enters t act → (s'.threads t).pc.entering = none ∧ (s.threads t).pc.entering ≠ none) ∧
    ((s.threads t).pc.entering = none → (s'.threads t).pc.entering ≠ none → s.TimesOut t act) := by
  cases hmv with
  | others es hact hu =>
    refine ⟨fun ⟨hrun, _⟩ => ?_, fun h h' => absurd (hu.pc ▸ h) h'⟩
    cases act with
    | run u e => exact absurd (by rw [beq_iff_eq.mp hrun]) (hact e)
    | _ => cases hrun
  | registered a q id hact _ _ hT =>
    have hpc : (s'.threads t).pc = (s.threads t).pc := by
      rw [hT]
      rfl
    refine ⟨fun ⟨hrun, _⟩ => ?_, fun h h' => absurd (hpc ▸ h) h'⟩
    rw [hact] at hrun
    cases hrun
  | cancelled a x tb r hact _ _ hT =>
    have hpc : (s'.threads t).pc = (s.threads t).pc := by
      rw [hT, cancelled_pc]
    refine ⟨fun ⟨hrun, _⟩ => ?_, fun h h' => absurd (hpc ▸ h) h'⟩
    rw [hact] at hrun
    cases hrun
  | own e es hact _ hstep =>
    have hrun : act.isRun t = true := by
      rw [hact]
      exact beq_self_eq_true t
    generalize s'.threads t = T at hstep
    refine ⟨fun ⟨_, c, hc⟩ => ?_, fun h h' => ⟨hrun, ?_⟩⟩
    · rw [hc]
      refine ⟨?_, Option.some_ne_none _⟩
      cases hstep with
      | cbEnter => rfl
      | timedOut L d rest r tb hL hor =>
        rcases hor with rfl | ⟨rfl, _⟩ <;> rw [hc] at hL <;> cases hL
      | finished T ho =>
        have := hc.symm.trans ho.1
        cases this
      | swapped h | cbLock _ _ h | cbReturn _ h | cbRelock _ h =>
        rw [hc] at h
        cases h
    · cases hstep with
      | timedOut L d rest r tb hL hor hd =>
        rcases hor with rfl | ⟨rfl, hkey⟩
        · refine .inl ⟨hL, ?_⟩
          rw [hd]
          exact List.cons_ne_nil _ _
        · refine .inr ⟨hL, ?_⟩
          unfold LookupThread.expired
          rw [hd]
          dsimp only
          rw [if_neg hkey]
          exact Option.some_ne_none _
      | cbLock c es hc =>
        rw [hc] at h
        cases h
      | cbEnter | cbReturn | swapped => exact absurd rfl h'
      | cbRelock L => exact absurd L.resume_entering h'
      | finished T ho hno =>
        refine absurd ?_ h'
        revert hno
        cases T.pc <;> first | exact fun _ => rfl | exact fun h => (by cases h)

end Sys

/-! ## infinite runs in a loop -/

section
variable (tr : resolverSystem.Trace) (hr : Run (tr.state 0)) {t : ℕ} {L : Site}
  (hL : L = .wrap ∨ L = .expire) (hin : ∀ n, ((tr.state n).threads t).pc.site = some L)
include hr hL hin

theorem trace_loopMove (n : ℕ) :
    Sys.LoopMove (tr.act n) (tr.state n) (tr.state (n + 1)) t := by
  have hn := tr.reach hr n
  refine (Sys.sysMove (tr.step n)).loop (Sys.locks hn).toCalls ((Sys.stored hn).linked t) ?_
  unfold Pc.timesOut
  rw [hin n]
  exact hL.imp (congrArg some) (congrArg some)

/-- A loop that finitely many requests join has finitely many rounds. -/
theorem timesOut_finite (hfin : {n | ∃ a, (tr.state n).Joins t L a (tr.act n)}.Finite) :
    {n | (tr.state n).TimesOut t (tr.act n)}.Finite := by
  classical
  have hacc : Account (fun n => (tr.state n).TimesOut t (tr.act n))
      (fun n => ∃ a, (tr.state n).Joins t L a (tr.act n))
      (fun n => (((tr.state n).threads t).todo L).length) := by
    constructor
    · intro n
      exact (Sys.loopMove_todo (trace_loopMove tr hr hL hin n) (hin n) (hin (n + 1))).1
    · intro n
      exact (Sys.loopMove_todo (trace_loopMove tr hr hL hin n) (hin n) (hin (n + 1))).2
  exact hacc.finite hfin

/-- Finitely many rounds enter finitely many callbacks. -/
theorem enters_finite (hfin : {n | (tr.state n).TimesOut t (tr.act n)}.Finite) :
    {n | (tr.state n).Enters t (tr.act n)}.Finite := by
  classical
  have hacc : Account (fun n => (tr.state n).Enters t (tr.act n))
      (fun n => (tr.state n).TimesOut t (tr.act n))
      (fun n => if ((tr.state n).threads t).pc.entering = none then 0 else 1) := by
    constructor
    · intro n hn
      obtain ⟨h', h⟩ := (Sys.loopMove_entering (trace_loopMove tr hr hL hin n)).1 hn
      rw [if_pos h', if_neg h]
      exact Nat.zero_lt_one
    · intro n
      by_cases h' : ((tr.state (n + 1)).threads t).pc.entering = none
      · rw [if_pos h']
        exact .inl (Nat.zero_le _)
      · by_cases h : ((tr.state n).threads t).pc.entering = none
        · rw [if_pos h, if_neg h']
          exact .inr ⟨(Sys.loopMove_entering (trace_loopMove tr hr hL hin n)).2 h h', Nat.le_refl _⟩
        · rw [if_neg h, if_neg h']
          exact .inl (Nat.le_refl _)
  exact hacc.finite hfin

end

/-- A lookup thread that starts finitely many calls of `resolve()` registers finitely many
requests. -/
theorem joins_finite (tr : resolverSystem.Trace) {t : ℕ} {L : Site}
    (hfin : {n | ∃ q, tr.act n = .call (.lookup t) (.resolve q)}.Finite) :
    {n | (tr.state n).Joins t L (.lookup t) (tr.act n)}.Finite := by
  classical
  have hacc : Account (fun n => (tr.state n).Joins t L (.lookup t) (tr.act n))
      (fun n => ∃ q, tr.act n = .call (.lookup t) (.resolve q))
      (fun n => if (tr.state n).calls (.lookup t) = .idle then 0 else 1) := by
    constructor
    · rintro n ⟨hact, q, b, hc, _⟩
      have hm := Sys.sysMove (tr.step n)
      rw [hact] at hm
      rw [if_pos (hm.returns hc), if_neg (by rw [hc]; exact Call.noConfusion)]
      exact Nat.zero_lt_one
    · intro n
      by_cases h' : (tr.state (n + 1)).calls (.lookup t) = .idle
      · rw [if_pos h']
        exact .inl (Nat.zero_le _)
      · by_cases h : (tr.state n).calls (.lookup t) = .idle
        · rw [if_pos h, if_neg h']
          exact .inr ⟨(Sys.sysMove (tr.step n)).begins h h', Nat.le_refl _⟩
        · rw [if_neg h, if_neg h']
          exact .inl (Nat.le_refl _)
  exact hacc.finite hfin

/-- Each call of `on_completed()` by the thread `t` starts at most one `resolve()`. -/
def OneRetry (tr : resolverSystem.Trace) (t : ℕ) : Prop :=
  ∀ i j, i < j → (∃ q, tr.act i = .call (.lookup t) (.resolve q)) →
    (∃ q, tr.act j = .call (.lookup t) (.resolve q)) →
    ∃ n, i < n ∧ n < j ∧ (tr.state n).Enters t (tr.act n)

/-! ## a retry that joins the drain each time -/

section
variable {s : Sys}

/-- the request that the callback starts again each time: its timeout is 1 ms -/
def retry : Query := timedQuery 1 1

/-- the actions of one round of the drain: the thread removes the request, its callback starts it
again, and 2 ms pass -/
def retryAction : ℕ → Action
  | 3 => .call (.lookup 0) (.resolve retry)
  | 4 | 5 | 6 => .api (.lookup 0)
  | 9 => .tick 2
  | _ => .run 0 {}

/-- tables with one request, which waits to be sent and has its deadline in `byTime1` -/
def soleRequest (r : Resolver) (sendNode nextNode : ℕ) (key : UInt32) : Tables where
  resolversByTime1 := [⟨r.timeMapIter, key, r.addr⟩]
  sendList := [⟨sendNode, (), r.addr⟩]
  resolversMap := [(r.hnr, r)]
  idMap := [⟨r.idIter, r.id, r.addr⟩]
  nextNode := nextNode

theorem soleRequest_remove {r : Resolver} {m n : ℕ} {key : UInt32} (ht : r.timeMap = .byTime1)
    (hs : r.sendIter = some m) : (soleRequest r m n key).removeResolver r.hnr =
      some ({ nextNode := n }, some r) := by
  simp [soleRequest, Tables.removeResolver, Tables.find, Tables.eraseSend, hs, ht, Cell.eraseNode,
    Tables.timeMap, Tables.setTimeMap]

theorem register_soleRequest {n addr : ℕ} {cur : UInt32} {q : Query} {id : UInt16}
    (h : ¬ cur + q.timeoutMillis < cur) :
    ({ nextNode := n } : Tables).register addr q id cur =
      soleRequest (({ nextNode := n } : Tables).newResolver addr q id cur) (n + 2) (n + 3)
        (cur + q.timeoutMillis) := by
  simp [soleRequest, Tables.register, Tables.newResolver, Tables.timeMapFor, h,
    Tables.setTimeMap, Cell.insertUpper, Tables.timeMap]

/-- the state of the thread 0, whose callback has made the call `call` -/
structure Retrying (s : Sys) (tb : Tables) (pc : Pc) (mutex completed : Option Actor) (call : Call)
    (dnsMutex : Option Actor) : Prop where
  thread : s.thread = some 0
  even : s.now % 2 = 0
  isExiting : (s.threads 0).isExiting = false
  tables : (s.threads 0).tables = tb
  pc : (s.threads 0).pc = pc
  mutex : (s.threads 0).mutex = mutex
  completed : (s.threads 0).completedMutex = completed
  call : s.calls (.lookup 0) = call
  dnsMutex : s.dnsMutex = dnsMutex

theorem setCall_self (s : Sys) (a : Actor) (c : Call) : (s.setCall a c).calls a = c := by
  simp

/-- a step of `run()` of the thread 0 -/
theorem Retrying.own {tb : Tables} {pc : Pc} {mutex completed dnsMutex : Option Actor}
    {call : Call} (h : Retrying s tb pc mutex completed call dnsMutex) {T : LookupThread}
    {es : List Event} (hl : (s.threads 0).localStep 0 s.now {} = some (T, es))
    (hrun : s.runStep 0 {} = s.ownStep 0 {}) (hT : T.isExiting = (s.threads 0).isExiting) :
    ∃ s', resolverSystem.step (.run 0 {}) s = some s' ∧
      Retrying s' T.tables T.pc T.mutex T.completedMutex call dnsMutex := by
  refine ⟨(s.setThread 0 T).addLog es, ?_, ⟨h.thread, h.even, hT.trans h.isExiting, rfl, rfl, rfl,
    rfl, h.call, h.dnsMutex⟩⟩
  show s.runStep 0 {} = _
  rw [hrun]
  unfold Sys.ownStep
  rw [hl]
  rfl

/-- the states of the drain, from a round to the next one -/
def RetryStage (i : ℕ) (s : Sys) : Prop :=
  ∃ (r : Resolver) (m n : ℕ) (key : UInt32),
    r.hnr = 1 ∧ r.timeMap = .byTime1 ∧ r.sendIter = some m ∧
    match i with
    | 0 | 9 => Retrying s (soleRequest r m n key) .wrap (some (.lookup 0)) none .idle none
    | 1 => Retrying s { nextNode := n } (.cbLock ⟨r, .timeout, Ip.ofV4 0, .wrap⟩) (some (.lookup 0))
        none .idle none
    | 2 => Retrying s { nextNode := n } (.cbEnter ⟨r, .timeout, Ip.ofV4 0, .wrap⟩) none
        (some (.lookup 0)) .idle none
    | 3 => Retrying s { nextNode := n } (.cbRun ⟨r, .timeout, Ip.ofV4 0, .wrap⟩) none
        (some (.lookup 0)) .idle none
    | 4 => Retrying s { nextNode := n } (.cbRun ⟨r, .timeout, Ip.ofV4 0, .wrap⟩) none
        (some (.lookup 0)) (.resolveLock retry) none
    | 5 => Retrying s { nextNode := n } (.cbRun ⟨r, .timeout, Ip.ofV4 0, .wrap⟩) none
        (some (.lookup 0)) (.resolveCheck retry 0) (some (.lookup 0))
    | 6 => Retrying s { nextNode := n } (.cbRun ⟨r, .timeout, Ip.ofV4 0, .wrap⟩) none
        (some (.lookup 0)) (.resolveRegister retry 0 false) (some (.lookup 0))
    | 7 => ∃ r', Retrying s (soleRequest r m n key) (.cbRun ⟨r', .timeout, Ip.ofV4 0, .wrap⟩) none
        (some (.lookup 0)) .idle none
    | _ => Retrying s (soleRequest r m n key) (.cbRelock .wrap) none none .idle none

theorem retry_removed (h : RetryStage 0 s) :
    ∃ s', resolverSystem.step (.run 0 {}) s = some s' ∧ RetryStage 1 s' := by
  obtain ⟨r, m, n, key, hx, ht, hm, h⟩ := h
  have hd : (soleRequest r m n key).deref r.addr = some r := by
    simp [soleRequest, Tables.deref]
  have hc : (s.threads 0).complete r.hnr .timeout (Ip.ofV4 0) .wrap =
      some ((s.threads 0).completing { nextNode := n } r .timeout (Ip.ofV4 0) .wrap) := by
    unfold LookupThread.complete
    rw [h.tables, soleRequest_remove ht hm]
    rfl
  have hw : (s.threads 0).wrapStep =
      some ((s.threads 0).completing { nextNode := n } r .timeout (Ip.ofV4 0) .wrap) := by
    unfold LookupThread.wrapStep
    rw [h.tables]
    show (do
      let r' ← (soleRequest r m n key).deref r.addr
      (s.threads 0).complete r'.hnr .timeout (Ip.ofV4 0) .wrap) = _
    rw [hd]
    exact hc
  have hl : (s.threads 0).localStep 0 s.now {} =
      some ((s.threads 0).completing { nextNode := n } r .timeout (Ip.ofV4 0) .wrap, []) := by
    unfold LookupThread.localStep
    rw [h.pc]
    dsimp only
    rw [hw]
    rfl
  obtain ⟨s', hs', h'⟩ := h.own hl (by unfold Sys.runStep; rw [h.pc]) rfl
  exact ⟨s', hs', r, m, n, key, hx, ht, hm, { h' with
    mutex := h'.mutex.trans h.mutex, completed := h'.completed.trans h.completed }⟩

theorem retry_locked (h : RetryStage 1 s) :
    ∃ s', resolverSystem.step (.run 0 {}) s = some s' ∧ RetryStage 2 s' := by
  obtain ⟨r, m, n, key, hx, ht, hm, h⟩ := h
  have hl : (s.threads 0).localStep 0 s.now {} = some ({ s.threads 0 with
      completedMutex := some (.lookup 0), mutex := none
      pc := .cbEnter ⟨r, .timeout, Ip.ofV4 0, .wrap⟩ }, []) := by
    unfold LookupThread.localStep
    rw [h.pc]
    dsimp only
    rw [if_pos h.completed, if_pos h.mutex]
  obtain ⟨s', hs', h'⟩ := h.own hl (by unfold Sys.runStep; rw [h.pc]) rfl
  exact ⟨s', hs', r, m, n, key, hx, ht, hm, { h' with tables := h'.tables.trans h.tables }⟩

theorem retry_entered (h : RetryStage 2 s) :
    ∃ s', resolverSystem.step (.run 0 {}) s = some s' ∧ RetryStage 3 s' := by
  obtain ⟨r, m, n, key, hx, ht, hm, h⟩ := h
  have hl : (s.threads 0).localStep 0 s.now {} = some ({ s.threads 0 with
      pc := .cbRun ⟨r, .timeout, Ip.ofV4 0, .wrap⟩ }, [.entered r.addr r.hnr .timeout s.now]) := by
    unfold LookupThread.localStep
    rw [h.pc]
  obtain ⟨s', hs', h'⟩ := h.own hl (by unfold Sys.runStep; rw [h.pc]) rfl
  exact ⟨s', hs', r, m, n, key, hx, ht, hm, { h' with
    tables := h'.tables.trans h.tables, mutex := h'.mutex.trans h.mutex
    completed := h'.completed.trans h.completed }⟩

theorem retry_called (h : RetryStage 3 s) : ∃ s',
    resolverSystem.step (.call (.lookup 0) (.resolve retry)) s = some s' ∧ RetryStage 4 s' := by
  obtain ⟨r, m, n, key, hx, ht, hm, h⟩ := h
  refine ⟨s.setCall (.lookup 0) (.resolveLock retry), ?_, r, m, n, key, hx, ht, hm,
    { h with call := setCall_self s _ _ }⟩
  show s.beginCall (.lookup 0) (.resolve retry) = _
  have hc : (s.runsCallbackOf (.lookup 0)).isSome = true := by
    unfold Sys.runsCallbackOf
    dsimp only
    rw [h.pc]
    rfl
  unfold Sys.beginCall
  rw [if_pos h.call]
  dsimp only
  rw [hc, Bool.or_true, if_pos rfl]
  rfl

theorem retry_resolveLock (h : RetryStage 4 s) :
    ∃ s', resolverSystem.step (.api (.lookup 0)) s = some s' ∧ RetryStage 5 s' := by
  obtain ⟨r, m, n, key, hx, ht, hm, h⟩ := h
  refine ⟨{ s with dnsMutex := some (.lookup 0) }.setCall (.lookup 0) (.resolveCheck retry 0), ?_,
    r, m, n, key, hx, ht, hm, { h with call := setCall_self _ _ _, dnsMutex := rfl }⟩
  show s.apiStep (.lookup 0) = _
  unfold Sys.apiStep
  rw [h.call]
  dsimp only
  unfold Sys.resolveLockStep
  rw [if_pos h.dnsMutex]
  dsimp only
  rw [h.thread]

theorem retry_resolveCheck (h : RetryStage 5 s) :
    ∃ s', resolverSystem.step (.api (.lookup 0)) s = some s' ∧ RetryStage 6 s' := by
  obtain ⟨r, m, n, key, hx, ht, hm, h⟩ := h
  refine ⟨s.setCall (.lookup 0) (.resolveRegister retry 0 false), ?_, r, m, n, key, hx, ht, hm,
    { h with call := setCall_self s _ _ }⟩
  show s.apiStep (.lookup 0) = _
  unfold Sys.apiStep
  rw [h.call]
  dsimp only
  unfold Sys.resolveCheckStep
  dsimp only
  rw [if_pos h.mutex, h.tables, h.isExiting]
  rfl

theorem retry_registered (h : RetryStage 6 s) :
    ∃ s', resolverSystem.step (.api (.lookup 0)) s = some s' ∧ RetryStage 7 s' := by
  obtain ⟨r, m, n, key, hx, ht, hm, h⟩ := h
  have hnw : ¬ ticks s.now + retry.timeoutMillis < ticks s.now := by
    refine (not_wraps_iff s.now retry.timeoutMillis).mpr ?_
    have heven := h.even
    show epoch (s.now + 1) = _
    unfold epoch
    omega
  have htb := @register_soleRequest n s.nextCall (ticks s.now) retry 0 hnw
  refine ⟨(s.registered (.lookup 0) retry 0 0 false).returnFrom (.lookup 0), ?_,
    ({ nextNode := n } : Tables).newResolver s.nextCall retry 0 (ticks s.now), n + 2, n + 3,
    ticks s.now + retry.timeoutMillis, rfl,
    if_neg hnw, rfl, r, h.thread, h.even, h.isExiting, ?_, h.pc, h.mutex, h.completed,
    setCall_self (s.registered (.lookup 0) retry 0 0 false) (.lookup 0) .idle, rfl⟩
  · show s.apiStep (.lookup 0) = _
    unfold Sys.apiStep
    rw [h.call]
    dsimp only
    unfold Sys.resolveRegisterStep
    dsimp only
    rw [if_pos h.mutex, h.tables]
    rfl
  · show ((s.threads 0).tables.register s.nextCall retry 0 (ticks s.now)) = _
    rw [h.tables]
    exact htb

theorem retry_returned (h : RetryStage 7 s) :
    ∃ s', resolverSystem.step (.run 0 {}) s = some s' ∧ RetryStage 8 s' := by
  obtain ⟨r, m, n, key, hx, ht, hm, r', h⟩ := h
  have hl : (s.threads 0).localStep 0 s.now {} = some ({ s.threads 0 with
      completedMutex := none, pc := .cbRelock .wrap }, []) := by
    unfold LookupThread.localStep
    rw [h.pc]
  have hrun : s.runStep 0 {} = s.ownStep 0 {} := by
    unfold Sys.runStep
    rw [h.pc]
    exact if_pos h.call
  obtain ⟨s', hs', h'⟩ := h.own hl hrun rfl
  exact ⟨s', hs', r, m, n, key, hx, ht, hm, { h' with
    tables := h'.tables.trans h.tables, mutex := h'.mutex.trans h.mutex }⟩

theorem retry_relocked (h : RetryStage 8 s) :
    ∃ s', resolverSystem.step (.run 0 {}) s = some s' ∧ RetryStage 9 s' := by
  obtain ⟨r, m, n, key, hx, ht, hm, h⟩ := h
  have hl : (s.threads 0).localStep 0 s.now {} = some ({ s.threads 0 with
      mutex := some (.lookup 0), pc := .wrap }, []) := by
    unfold LookupThread.localStep
    rw [h.pc]
    dsimp only
    rw [if_pos h.mutex]
    rfl
  obtain ⟨s', hs', h'⟩ := h.own hl (by unfold Sys.runStep; rw [h.pc]) rfl
  exact ⟨s', hs', r, m, n, key, hx, ht, hm, { h' with
    tables := h'.tables.trans h.tables, completed := h'.completed.trans h.completed }⟩

theorem retry_rested (h : RetryStage 9 s) :
    ∃ s', resolverSystem.step (.tick 2) s = some s' ∧ RetryStage 0 s' := by
  obtain ⟨r, m, n, key, hx, ht, hm, h⟩ := h
  have heven := h.even
  exact ⟨{ s with now := s.now + 2 }, rfl, r, m, n, key, hx, ht, hm,
    { h with even := by show (s.now + 2) % 2 = 0; omega }⟩

theorem retry_step {i : ℕ} (hi : i < 10) (h : RetryStage i s) :
    ∃ s', resolverSystem.step (retryAction i) s = some s' ∧ RetryStage ((i + 1) % 10) s' := by
  match i with
  | 0 => exact retry_removed h
  | 1 => exact retry_locked h
  | 2 => exact retry_entered h
  | 3 => exact retry_called h
  | 4 => exact retry_resolveLock h
  | 5 => exact retry_resolveCheck h
  | 6 => exact retry_registered h
  | 7 => exact retry_returned h
  | 8 => exact retry_relocked h
  | 9 => exact retry_rested h

/-- A request with a deadline before the wrap; the thread samples the clock after the wrap. -/
def drainRequest : List Action :=
  callSteps (.client 0) (.resolve (timedQuery 1 500)) 2 ++ lookupSteps 0 10 ++
  .tick 1100 :: .run 0 { wake := .ready false false false } :: lookupSteps 0 8

/-- the request of this run -/
def drainedResolver : Resolver :=
  ({} : Tables).newResolver 0 (timedQuery 1 500) 0 (ticks (2 ^ 32 - 1000))

set_option maxRecDepth 10000 in
theorem retry_start : ∃ s, Run s ∧ RetryStage 0 s := by
  obtain ⟨s, hs, hp⟩ := exists_run_reach (fun _ _ => True) drainRequest
    (fun s => (s.thread = some 0 ∧ s.now % 2 = 0 ∧ (s.threads 0).isExiting = false ∧
      (s.threads 0).tables = soleRequest drainedResolver 2 3 (ticks (2 ^ 32 - 500))) ∧
      (s.threads 0).pc = .wrap ∧ (s.threads 0).mutex = some (.lookup 0) ∧
      (s.threads 0).completedMutex = none ∧ s.calls (.lookup 0) = .idle ∧ s.dnsMutex = none)
    (2 ^ 32 - 1000) (by decide)
  obtain ⟨⟨h1, h2, h3, h4⟩, h5, h6, h7, h8, h9⟩ := of_decide_eq_true hp
  exact ⟨s, hs, drainedResolver, 2, 3, ticks (2 ^ 32 - 500), rfl, by decide, rfl,
    h1, h2, h3, h4, h5, h6, h7, h8, h9⟩

theorem retryStage_site {i : ℕ} (hi : i < 10) (h : RetryStage i s) :
    (s.threads 0).pc.site = some .wrap := by
  obtain ⟨r, m, n, key, _, _, _, h⟩ := h
  match i with
  | 0 | 1 | 2 | 3 | 4 | 5 | 6 | 8 | 9 =>
    rw [h.pc]
    rfl
  | 7 =>
    obtain ⟨r', h⟩ := h
    rw [h.pc]
    rfl

theorem retryStage_timesOut (h : RetryStage 0 s) : s.TimesOut 0 (retryAction 0) := by
  obtain ⟨r, m, n, key, _, _, _, h⟩ := h
  refine ⟨rfl, .inl ⟨h.pc, ?_⟩⟩
  rw [h.tables]
  exact List.cons_ne_nil _ _

theorem retryStage_enters (h : RetryStage 2 s) : s.Enters 0 (retryAction 2) := by
  obtain ⟨r, m, n, key, _, _, _, h⟩ := h
  exact ⟨rfl, _, h.pc⟩

theorem retryAction_call {i : ℕ} {q : Query} (h : retryAction i = .call (.lookup 0) (.resolve q)) :
    i = 3 ∧ q = retry := by
  unfold retryAction at h
  split at h <;> cases h
  exact ⟨rfl, rfl⟩

theorem retryAction_api {i : ℕ} {a : Actor} (h : retryAction i = .api a) : a = .lookup 0 := by
  unfold retryAction at h
  split at h <;> cases h <;> rfl

/-- an infinite run of retries, in which the clock goes on -/
theorem retry_trace : ∃ tr : resolverSystem.Trace, Run (tr.state 0) ∧
    (∀ n, ((tr.state n).threads 0).pc.site = some .wrap) ∧ OneRetry tr 0 ∧
    (∀ n q, tr.act n = .call (.lookup 0) (.resolve q) → 0 < q.timeoutMillis) ∧
    (∀ n a, (tr.state n).Joins 0 .wrap a (tr.act n) → a = .lookup 0) ∧
    (∀ b, ∃ n, b ≤ (tr.state n).now) ∧
    {n | (tr.state n).TimesOut 0 (tr.act n)}.Infinite := by
  obtain ⟨s, hr, hs⟩ := retry_start
  have hnext : ∀ n s, RetryStage (n % 10) s → ∃ s',
      resolverSystem.step (retryAction (n % 10)) s = some s' ∧ RetryStage ((n + 1) % 10) s' := by
    intro n s h
    have hstep := retry_step (Nat.mod_lt n (by decide)) h
    rwa [Nat.mod_add_mod] at hstep
  obtain ⟨tr, h0, hact, hst⟩ :=
    Machine.Trace.exists_of_stages (P := fun n s => RetryStage (n % 10) s) hs hnext
  have hact' : ∀ n, tr.act n = retryAction (n % 10) := fun n => by rw [hact]
  refine ⟨tr, h0 ▸ hr, fun n => retryStage_site (Nat.mod_lt n (by decide)) (hst n),
    ?_, ?_, ?_, ?_, ?_⟩
  · rintro i j hij ⟨q, hi⟩ ⟨q', hj⟩
    rw [hact'] at hi hj
    have hi3 := (retryAction_call hi).1
    have hj3 := (retryAction_call hj).1
    refine ⟨i + 9, by omega, by omega, ?_⟩
    have h2 : (i + 9) % 10 = 2 := by omega
    have hstage := hst (i + 9)
    rw [h2] at hstage
    rw [hact', h2]
    exact retryStage_enters hstage
  · intro n q hq
    rw [hact'] at hq
    rw [(retryAction_call hq).2]
    decide
  · rintro n a ⟨ha, _⟩
    rw [hact'] at ha
    exact retryAction_api ha
  · -- 2 ms pass in each round
    have hmono : ∀ n, (tr.state n).now ≤ (tr.state (n + 1)).now :=
      fun n => (Sys.sysMove (tr.step n)).now_le
    have hmono' : Monotone fun n => (tr.state n).now := monotone_nat_of_le_succ hmono
    have hround : ∀ k, 2 * k ≤ (tr.state (10 * k)).now := by
      intro k
      induction k with
      | zero => exact Nat.zero_le _
      | succ k ih =>
        have htick := tr.step (10 * k + 9)
        rw [hact', show (10 * k + 9) % 10 = 9 by omega] at htick
        have hnow : (tr.state (10 * k + 10)).now = (tr.state (10 * k + 9)).now + 2 := by
          rw [← Option.some.inj htick]
        have hle : (tr.state (10 * k)).now ≤ (tr.state (10 * k + 9)).now :=
          hmono' (Nat.le_add_right _ _)
        show 2 * (k + 1) ≤ (tr.state (10 * k + 10)).now
        omega
    intro b
    exact ⟨10 * b, (by omega : b ≤ 2 * b).trans (hround b)⟩
  · refine Set.infinite_of_injective_forall_mem (f := fun k : ℕ => 10 * k)
      (fun a b h => by dsimp only at h; omega) fun k => ?_
    have h0 : (10 * k) % 10 = 0 := Nat.mul_mod_right 10 k
    have hstage := hst (10 * k)
    rw [h0] at hstage
    show (tr.state (10 * k)).TimesOut 0 (tr.act (10 * k))
    rw [hact', h0]
    exact retryStage_timesOut hstage

end

/-! ## the rounds of a loop -/

/-- **The rounds of a loop.**  If each callback starts at most one request, and finitely many
requests of other threads join the loop, the loop performs finitely many rounds if and only if
finitely many requests of its callbacks join it. -/
theorem timeout_loop_finite_iff (tr : resolverSystem.Trace) (hr : Run (tr.state 0)) {t : ℕ}
    {L : Site} (hL : L = .wrap ∨ L = .expire)
    (hin : ∀ n, ((tr.state n).threads t).pc.site = some L) (hone : OneRetry tr t)
    (hothers : {n | ∃ a, a ≠ .lookup t ∧ (tr.state n).Joins t L a (tr.act n)}.Finite) :
    {n | (tr.state n).TimesOut t (tr.act n)}.Finite ↔
      {n | (tr.state n).Joins t L (.lookup t) (tr.act n)}.Finite := by
  classical
  constructor
  · intro hfin
    have hcalls : {n | ∃ q, tr.act n = .call (.lookup t) (.resolve q)}.Finite :=
      finite_of_count_le (fun n => count_le_of_between hone n) (enters_finite tr hr hL hin hfin)
    exact joins_finite tr hcalls
  · intro hfin
    refine timesOut_finite tr hr hL hin ((hfin.union hothers).subset ?_)
    rintro n ⟨a, ha⟩
    by_cases hat : a = .lookup t
    · exact .inl (hat ▸ ha)
    · exact .inr ⟨a, hat, ha⟩

/-- The retry that joins the drain each time: both sides are false. -/
theorem timeout_loop_finite_iff_retry : ∃ tr : resolverSystem.Trace,
    {n | (tr.state n).TimesOut 0 (tr.act n)}.Infinite ∧
    ({n | (tr.state n).TimesOut 0 (tr.act n)}.Finite ↔
      {n | (tr.state n).Joins 0 .wrap (.lookup 0) (tr.act n)}.Finite) := by
  obtain ⟨tr, hr, hin, hone, _, hjoin, _, hinf⟩ := retry_trace
  refine ⟨tr, hinf, timeout_loop_finite_iff tr hr (.inl rfl) hin hone ?_⟩
  refine Set.finite_empty.subset ?_
  rintro n ⟨a, ha, hja⟩
  exact absurd (hjoin n a hja) ha

/-- **A callback can keep the thread in the drain forever,** with one request with a positive
timeout each time, while no other thread does anything and the clock goes on. -/
theorem retry_forever : ¬ ∀ (tr : resolverSystem.Trace) (t : ℕ), Run (tr.state 0) →
    (∀ n, ((tr.state n).threads t).pc.site = some .wrap) → OneRetry tr t →
    (∀ n q, tr.act n = .call (.lookup t) (.resolve q) → 0 < q.timeoutMillis) →
    (∀ n a, (tr.state n).Joins t .wrap a (tr.act n) → a = .lookup t) →
    (∀ b, ∃ n, b ≤ (tr.state n).now) → {n | (tr.state n).TimesOut t (tr.act n)}.Finite := by
  intro h
  obtain ⟨tr, hr, hin, hone, hpos, hjoin, hclock, hinf⟩ := retry_trace
  exact hinf (h tr 0 hr hin hone hpos hjoin hclock)

/-! ## the expiry loop -/

namespace LookupThread
variable {t now : ℕ} {e : Env} {T T' : LookupThread} {es : List Event}

theorem LocalMove.curTime (h : LocalMove t now e T T' es) :
    T'.curTime = T.curTime ∨ T'.curTime = now := by
  cases h with
  | sampledWrap | sampled => exact .inr rfl
  | _ => exact .inl rfl

end LookupThread

namespace Sys

/-- The sample of a thread is not in the future. -/
theorem curTime_le {G : Sys → Action → Prop} {s : Sys} (hr : resolverSystem.Reach G s) (t : ℕ) :
    (s.threads t).curTime ≤ s.now := by
  refine hr.invariant (I := fun s => ∀ t, (s.threads t).curTime ≤ s.now) ?_ ?_ t
  · rintro s ⟨now, rfl⟩ t
    exact Nat.zero_le _
  · intro s act s' _ h _ hs t
    have hm := sysMove hs
    refine Nat.le_trans ?_ hm.now_le
    have ht := hm.thread t
    generalize s'.threads t = T' at ht
    cases ht with
    | created | cleanedUp | joined => exact Nat.zero_le _
    | registered a q needStart => cases needStart <;> exact h t
    | cancelled | cancelMiss => exact (cancelled_curTime _ _).trans_le (h t)
    | own e T' es _ _ hl =>
      rcases hl.curTime with hc | hc <;> rw [hc]
      exact h t
    | _ => exact h t

/-- While the clock stays in the epoch of the sample, a request with a positive timeout does not
join the expiry loop. -/
theorem not_joins_expire {s : Sys} {t : ℕ} {a : Actor} {act : Action}
    (hle : (s.threads t).curTime ≤ s.now) (hep : epoch s.now = epoch (s.threads t).curTime)
    (hpos : ∀ q b, s.calls a = .resolveRegister q t b → 0 < q.timeoutMillis) :
    ¬ s.Joins t .expire a act := by
  rintro ⟨_, q, b, hcall, _, hm, htake⟩
  have hq := hpos q b hcall
  have hsame : epoch (s.now + q.timeoutMillis.toNat) = epoch s.now := by
    refine (not_wraps_iff s.now q.timeoutMillis).mp fun hw => ?_
    unfold Tables.timeMapFor at hm
    rw [if_pos hw] at hm
    exact timeMap2_ne _ hm
  have hgt : ticks s.now + q.timeoutMillis > ticks (s.threads t).curTime := by
    rw [UInt32.lt_iff_toNat_lt] at hq
    rw [gt_iff_lt, UInt32.lt_iff_toNat_lt, key_toNat, ticks_toNat]
    change 0 < _ at hq
    unfold epoch at hsame hep
    omega
  unfold LookupThread.takes at htake
  dsimp only at htake
  rw [decide_eq_true hgt] at htake
  cases htake

end Sys

/-- **The expiry loop ends** if all requests that are registered while it runs have a positive
timeout, and the clock stays in the epoch of the sample. -/
theorem expire_loop_finite (tr : resolverSystem.Trace) (hr : Run (tr.state 0)) {t : ℕ}
    (hin : ∀ n, ((tr.state n).threads t).pc.site = some .expire)
    (hep : ∀ n, epoch (tr.state n).now = epoch ((tr.state n).threads t).curTime)
    (hpos : ∀ n a q b, (tr.state n).calls a = .resolveRegister q t b → 0 < q.timeoutMillis) :
    {n | (tr.state n).TimesOut t (tr.act n)}.Finite := by
  refine timesOut_finite tr hr (.inr rfl) hin (Set.finite_empty.subset ?_)
  rintro n ⟨a, ha⟩
  exact Sys.not_joins_expire (Sys.curTime_le (tr.reach hr n) t) (hep n) (hpos n a) ha

end Setka
