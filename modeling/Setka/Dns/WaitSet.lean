import Setka.Dns.Threads

/-!
# The wait set of a lookup thread

`run()` puts its socket into the wait set after `open()` and takes it out before it returns.  In
between the wait set is changed by `run()` itself, and by the messages of the queue, which call
`StartSending` on whatever `dns::thread` is, without a mutex.

* `Pc.inWaitSet`     where the socket is in the wait set;
* `WaitSetOwned`     what is promised;
* `wait_set_owned`   in every run a wait set is changed by its own thread only, and only while the
                     socket is in it.
-/

namespace Setka

/-- between `waitSet.add()` and `waitSet.remove()` -/
@[grind =]
def Pc.inWaitSet : Pc → Bool
  | .loopHead | .lockMutex | .checkError | .receive | .checkWrite | .send | .sample => true
  | .wrap | .expire | .drain .loopExit | .wait _ | .popQueue | .leave => true
  | .cbLock c | .cbEnter c | .cbRun c => !c.site.openFailed
  | .cbRelock s => !s.openFailed
  | .notStarted | .joinPrev | .initDNS | .openSocket => false
  | .drain .openFailed | .finished | .destroyed => false

theorem Site.resume_inWaitSet (s : Site) : s.resume.inWaitSet = !s.openFailed := by
  cases s with
  | drain d => cases d <;> rfl
  | _ => rfl

namespace LookupThread
variable {t now : ℕ} {e : Env} {T T' : LookupThread} {es : List Event}

/-- the socket is in the wait set -/
def inWaitSet (T : LookupThread) : Bool := T.waitMode.isSome

theorem LocalMove.inWaitSet (h : LocalMove t now e T T' es)
    (hd : T.pc = .drain .openFailed → T.tables.resolversMap ≠ [])
    (hw : T.inWaitSet = T.pc.inWaitSet) : T'.inWaitSet = T'.pc.inWaitSet := by
  unfold LookupThread.inWaitSet at *
  cases h
  case drainedOpen hpc hm => exact absurd hm (hd hpc)
  case cbRelock s hpc _ =>
    rw [hpc] at hw
    exact hw.trans s.resume_inWaitSet.symm
  case wakeReady hpc =>
    rw [hpc] at hw
    dsimp only
    split <;> exact hw
  case drainNext d _ _ _ _ _ hpc _ _ =>
    rw [hpc] at hw
    cases d <;> exact hw
  case requeued hpc _ _ _ hmode =>
    rw [hpc] at hw
    rw [hmode]
    dsimp only
    split
    · rfl
    · exact hw
  all_goals simp_all [Pc.inWaitSet, Site.openFailed, completing, readCleared,
    LookupThread.requeued, serverChosen, writeCleared]

end LookupThread

namespace Sys
variable {act : Action} {s s' : Sys} {t : ℕ}

@[simp] theorem cancelled_waitMode (T : LookupThread) (tb : Tables) :
    (cancelled T tb).waitMode = T.waitMode := by
  unfold cancelled
  split <;> rfl

theorem ThreadMove.inWaitSet {u : ℕ} {T' : LookupThread}
    (h : ThreadMove act s s' u (s.threads u) T') (hc : Calls s)
    (hw : (s.threads u).inWaitSet = (s.threads u).pc.inWaitSet) :
    T'.inWaitSet = T'.pc.inWaitSet := by
  unfold LookupThread.inWaitSet at *
  cases h with
  | same | cancelWait | toldToQuit => exact hw
  | created | cleanedUp | joined | openSocket => rfl
  | registered a q needStart id hcall =>
    cases needStart with
    | true =>
      rw [hc.regNew a q u hcall] at hw
      exact hw
    | false => exact hw
  | cancelled => rwa [cancelled_waitMode, cancelled_pc]
  | cancelMiss =>
    show (Sys.cancelled _ _).waitMode.isSome = (Sys.cancelled _ _).pc.inWaitSet
    rwa [cancelled_waitMode, cancelled_pc]
  | joinedPrev hpc | openFailed hpc | queueEmpty hpc | drainedOpen hpc =>
    rw [hpc] at hw
    exact hw
  | popQueue msg rest mode hpc _ hmode =>
    show mode.isSome = (s.threads u).pc.inWaitSet
    rw [hmode]
    split
    · rw [hpc]
      rfl
    · exact hw
  | startSending _ hmode =>
    rw [Option.isSome_iff_ne_none.mpr hmode] at hw
    exact hw
  | own e T' es hd _ hl => exact hl.inWaitSet hd hw

theorem inWaitSet {G : Sys → Action → Prop} (hr : resolverSystem.Reach G s) :
    ∀ t, (s.threads t).inWaitSet = (s.threads t).pc.inWaitSet := by
  refine hr.invariant (I := fun s => ∀ t, (s.threads t).inWaitSet = (s.threads t).pc.inWaitSet)
    ?_ ?_
  · rintro s ⟨now, rfl⟩ t
    rfl
  · intro s act s' hr h _ hs t
    exact ((sysMove hs).thread t).inWaitSet (locks hr).toCalls (h t)

/-! ## who changes a wait set -/

theorem waitMode_setThread {u : ℕ} {T : LookupThread}
    (h : u = t → T.waitMode = (s.threads t).waitMode) :
    ((s.setThread u T).threads t).waitMode = (s.threads t).waitMode := by
  rw [threads_setThread]
  split
  · rename_i hu
    exact h hu.symm
  · rfl

/-- A step of another thread leaves the wait set as it is. -/
theorem Move.waitMode (h : Move act s s') (hcur : RunsCurrent s) (hwakes : ∀ t, (s.threads t).Wakes)
    (hw : ∀ t, (s.threads t).inWaitSet = (s.threads t).pc.inWaitSet)
    (hborn : ∀ t, (s.threads t).pc ≠ .notStarted → t < s.nextThread)
    (hact : ∀ e, act ≠ .run t e) : (s'.threads t).waitMode = (s.threads t).waitMode := by
  -- the socket of a thread that is not in its loop is not in the wait set
  have hout : (s.threads t).pc.inWaitSet = false → (s.threads t).waitMode = none := by
    intro hpc
    have hin := hw t
    rw [hpc] at hin
    exact Option.isNone_iff_eq_none.mp (by simpa [LookupThread.inWaitSet] using hin)
  have hjoined : ∀ {u : ℕ}, joinable (s.threads u) = true → u = t →
      none = (s.threads t).waitMode := by
    rintro u hj rfl
    unfold joinable at hj
    rw [Bool.or_eq_true, beq_iff_eq, beq_iff_eq] at hj
    rcases hj with hj | hj <;> exact (hout (by rw [hj]; rfl)).symm
  have hnew : s.nextThread = t → none = (s.threads t).waitMode := by
    intro hn
    refine (hout ?_).symm
    by_contra hin
    exact (hborn t fun hpc => hin (by rw [hpc]; rfl)).ne hn.symm
  have hrun : ∀ {u : ℕ} {e : Env} {P : Prop}, act = .run u e → u = t → P := by
    rintro u e P rfl rfl
    exact absurd rfl (hact e)
  cases h with
  | tick | nameTooLong | callResolve | callCancel | callCleanUp | resolveLock | resolveBusy
      | resolveReuse | tooManyRequests | cancelNothing | cancelLock | cleanUpNothing => rfl
  | resolveFirst | resolveReplace => exact waitMode_setThread hnew
  | resolveRegister a q u needStart =>
    refine waitMode_setThread ?_
    rintro rfl
    cases needStart <;> rfl
  | cancelDone | cancelMiss =>
    refine waitMode_setThread ?_
    rintro rfl
    exact cancelled_waitMode _ _
  | cancelWait | cleanUpLock =>
    refine waitMode_setThread ?_
    rintro rfl
    rfl
  | cleanUpJoin a u s _ hj => exact waitMode_setThread (hjoined hj)
  | joinPrev u p e s _ _ hj =>
    refine (waitMode_setThread (hrun rfl)).trans ?_
    exact waitMode_setThread (hjoined hj)
  | noPrev | openSocket | openFailed | queueEmpty | popNop | drainedOpen | own =>
    exact waitMode_setThread (hrun rfl)
  | popStartSending u c e rest threads s hpc _ hc _ hth =>
    -- a thread that reads its queue is `dns::thread`
    have hu := hcur u ((hwakes u).stays (by rw [hpc]; rfl))
    obtain rfl := Option.some.inj (hc.symm.trans hu)
    show (threads t).waitMode = _
    rw [hth t]
    exact if_neg fun htc => hrun rfl htc.symm

/-- The thread can read its queue. -/
theorem popQueueStep_ok (hcur : s.thread = some t) (hw : (s.threads t).waitMode ≠ none) :
    ∃ s', popQueueStep t s = some s' := by
  unfold popQueueStep
  dsimp only
  split
  · exact ⟨_, rfl⟩
  · exact ⟨_, rfl⟩
  · rename_i rest _
    have hw' : ((s.setThread t { s.threads t with queue := rest }).threads t).waitMode ≠ none := by
      rw [threads_setThread, if_pos rfl]
      exact hw
    rw [hcur]
    exact ⟨_, if_neg hw'⟩

end Sys

/-- what is promised about the wait sets -/
structure WaitSetOwned (s : Sys) : Prop where
  inside : ∀ t, (s.threads t).inWaitSet = (s.threads t).pc.inWaitSet
  /-- a message is read by the thread whose wait set `StartSending` changes -/
  messages : ∀ t, (s.threads t).pc = .popQueue → s.thread = some t
  /-- nothing a message does is undefined -/
  pops : ∀ t e, (s.threads t).pc = .popQueue → ∃ s', resolverSystem.step (.run t e) s = some s'
  /-- a wait set is changed by `run()` of its own thread only -/
  own : ∀ act s', resolverSystem.step act s = some s' → ∀ t,
    (s'.threads t).waitMode ≠ (s.threads t).waitMode → ∃ e, act = .run t e

/-- **Every wait set belongs to its thread,** in every run: nobody else changes it, and
`StartSending` is called for the thread that runs it, while its socket is in the wait set. -/
theorem wait_set_owned {s : Sys} (hr : Run s) : WaitSetOwned s := by
  obtain ⟨hcur, hwakes⟩ := Sys.wakes hr
  have hin := Sys.inWaitSet hr
  have hmsg : ∀ t, (s.threads t).pc = .popQueue → s.thread = some t :=
    fun t hpc => hcur t ((hwakes t).stays (by rw [hpc]; rfl))
  refine ⟨hin, hmsg, fun t e hpc => ?_, fun act s' hs t hne => ?_⟩
  · have hw : (s.threads t).waitMode ≠ none := by
      have hsome := hin t
      rw [hpc] at hsome
      exact Option.isSome_iff_ne_none.mp hsome
    obtain ⟨s', hs'⟩ := Sys.popQueueStep_ok (hmsg t hpc) hw
    refine ⟨s', Eq.trans ?_ hs'⟩
    show s.runStep t e = _
    unfold Sys.runStep
    rw [hpc]
  · by_contra hact
    exact hne ((Sys.sysMove hs).waitMode hcur hwakes hin (Sys.locks hr).born
      fun e he => hact ⟨e, he⟩)

set_option maxRecDepth 10000 in
/-- a thread that is about to call `StartSending` -/
theorem wait_set_owned_message : ∃ s, resolverSystem.run (fun _ _ => True)
      (callSteps (.client 0) (.resolve (queryA 1)) 2 ++ lookupSteps 0 10 ++
        [.run 0 { wake := .ready false false false }]) (Sys.init 0) = some s ∧
    (s.threads 0).pc = .popQueue ∧ (s.threads 0).queue = [.startSending] ∧ WaitSetOwned s := by
  obtain ⟨s, hs, hp⟩ := Machine.exists_run resolverSystem (fun _ _ => True)
    (callSteps (.client 0) (.resolve (queryA 1)) 2 ++ lookupSteps 0 10 ++
      [.run 0 { wake := .ready false false false }]) (Sys.init 0)
    (fun s => (s.threads 0).pc = .popQueue ∧ (s.threads 0).queue = [.startSending]) (by decide)
  obtain ⟨hpc, hq⟩ := of_decide_eq_true hp
  exact ⟨s, hs, hpc, hq, wait_set_owned ((reach_init _ 0).run hs)⟩

end Setka
