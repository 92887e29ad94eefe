import Setka.Dns.Ownership
import Setka.Dns.Phase
import Setka.Dns.WaitSet

/-!
# Progress

A step that is not possible in the model waits for another thread, or its behaviour is undefined.

* `ReadsOutside`, `WakesFor`   the outcomes of the calls to the operating system that are not
                        defined, or do not happen;
* `localStep_ok`        what a step of `run()` needs to be defined;
* `runStep_ok`, `apiStep_ok`   a thread that does not wait takes its next step, whatever the
                        operating system answers;
* `run_stuck_iff`       exactly when the next step of `run()` is not possible;
* `system_progress`     some thread goes on as long as one has something to do.
-/

namespace Setka

/-- started, and not at the end of `run()` -/
def Pc.running : Pc → Bool
  | .notStarted | .finished | .destroyed => false
  | .joinPrev | .initDNS | .openSocket => true
  | .loopHead | .lockMutex | .checkError | .receive | .checkWrite | .send | .sample => true
  | .wrap | .expire | .drain _ | .cbLock _ | .cbEnter _ | .cbRun _ | .cbRelock _ => true
  | .wait _ | .popQueue | .leave => true

namespace LookupThread
variable {T : LookupThread} {t now : ℕ} {e : Env}

/-- A datagram is received that is parsed outside of the receive buffer. -/
def ReadsOutside (T : LookupThread) (e : Env) : Prop := T.pc = .receive ∧ T.flags.read = true ∧
  ∃ d, e.recv = .datagram d ∧ recvAction T.tables d.buf d.size = none

/-- `wait()` returns for a reason: without an event only if the queue is empty, and ready for
writing only if the socket is waited for so. -/
def WakesFor (T : LookupThread) (e : Env) : Prop := ∃ T', T.wakeStep e.wake = some T'

/-- There are outcomes with which a step is defined. -/
theorem exists_wakesFor (T : LookupThread) : ∃ e, ¬ T.ReadsOutside e ∧ T.WakesFor e := by
  by_cases hq : T.queue = []
  · exact ⟨{ wake := .timeout }, nofun, _, if_pos hq⟩
  · have hne : T.queue.isEmpty = false := by simpa using hq
    refine ⟨{ wake := .ready false false false }, nofun, ?_⟩
    unfold WakesFor wakeStep
    dsimp only
    rw [hne]
    exact ⟨_, rfl⟩

section
variable (hl : T.tables.Linked) (hs : T.tables.SendKept)
include hl hs

/-- An active request can be completed. -/
theorem complete_some {r : Resolver} (hr : r ∈ T.tables.resolvers) (res : DnsResult) (ip : Ip)
    (site : Site) : ∃ T', T.complete r.hnr res ip site = some T' := by
  obtain ⟨tb, htb⟩ := Tables.removeResolver_ok hl hs (Tables.find_of_mem hl hr)
  refine ⟨T.completing tb r res ip site, ?_⟩
  unfold complete
  rw [htb]
  rfl

theorem receiveStep_ok (hpc : T.pc = .receive) (hread : ¬ T.ReadsOutside e) :
    ∃ p, T.receiveStep e = some p := by
  unfold receiveStep
  split
  · rename_i hf
    split
    · exact ⟨_, rfl⟩
    · exact ⟨_, rfl⟩
    · rename_i d hd
      obtain ⟨a, ha⟩ := Option.ne_none_iff_exists'.mp fun ha => hread ⟨hpc, hf, d, hd, ha⟩
      rw [ha]
      cases a with
      | ignore => exact ⟨_, rfl⟩
      | requeue r =>
        have hr := (Tables.deref_eq_some (Tables.deref_of_recvAction ha)).1
        have hd := Tables.deref_requeue hl hr
        obtain ⟨T', hT'⟩ := complete_some (T := T.readCleared.requeued r)
          (Tables.requeue_linked hl _) (Tables.requeue_sendKept hs _) (Tables.deref_eq_some hd).1
          .error ⟨0, 0, 0, 0⟩ .receive
        have hfall : ∃ T₂, T.readCleared.fallback r e.changeOk = some T₂ := by
          unfold fallback
          split
          · split
            · exact ⟨_, rfl⟩
            · exact ⟨T', hT'⟩
          · exact ⟨_, rfl⟩
        obtain ⟨T₂, hT₂⟩ := hfall
        refine ⟨(T₂, .requeued r.addr d :: assert (r.sendIter = none)), ?_⟩
        show (T.readCleared.fallback r e.changeOk).bind _ = _
        rw [hT₂]
        rfl
      | complete r res =>
        have hr := (Tables.deref_eq_some (Tables.deref_of_complete ha)).1
        obtain ⟨T', hT'⟩ := complete_some (T := T.readCleared) hl hs hr res.result res.host .receive
        refine ⟨(T', [.replied r.addr d res.result]), ?_⟩
        show (T.readCleared.complete r.hnr res.result res.host .receive).bind _ = _
        rw [hT']
        rfl
  · exact ⟨_, rfl⟩

/-- The send loop needs the requests of the send list to be active. -/
theorem sendStep_ok (hsend : T.tables.SendLinked) : ∃ p, T.sendStep e = some p := by
  unfold sendStep
  split
  · exact ⟨_, rfl⟩
  · rename_i c rest hlist
    obtain ⟨r, hr, hrc⟩ := List.mem_filterMap.mp (hsend.sends.mem_iff.mp
      (hlist ▸ List.mem_cons_self : c ∈ T.tables.sendList))
    have hd : T.tables.deref c.val = some r := by
      rw [Tables.sendCell_val hrc]
      exact Tables.deref_of_mem hl hr
    rw [hd]
    simp only [Option.bind_eq_bind, Option.bind_some]
    split
    · split <;> exact ⟨_, rfl⟩
    · have hop : Tables.Op (fun _ => True) T.tables (T.serverChosen r).tables := .dnsSet _ _
      have hmem : { r with dns := T.server r } ∈ (T.serverChosen r).tables.resolvers := by
        obtain ⟨_, _, hp⟩ := Tables.modify_perm (f := fun r' => { r' with dns := T.server r })
          hl.addrs hr
        exact hp.mem_iff.mpr List.mem_cons_self
      obtain ⟨T', hT'⟩ := complete_some (T := T.serverChosen r) (hop.linked hl)
        (hop.sendKept hl hs) hmem .error (Ip.ofV4 0) .send
      refine ⟨(T', []), ?_⟩
      show ((T.serverChosen r).complete r.hnr .error (Ip.ofV4 0) .send).bind _ = _
      rw [hT']
      rfl

theorem wrapStep_ok : ∃ T', T.wrapStep = some T' := by
  unfold wrapStep
  split
  · exact ⟨_, rfl⟩
  · rename_i c rest hc
    obtain ⟨r, T', hd, hT'⟩ := Sys.complete_ok hl hs (hc ▸ List.mem_cons_self) .timeout (Ip.ofV4 0)
      .wrap
    rw [hd]
    exact ⟨T', hT'⟩

/-- The wait timeout needs a deadline before the next wrap. -/
theorem expireStep_ok (hdue : T.AtWait → T.DueBeforeWrap) (hpc : T.pc = .expire) :
    ∃ T', T.expireStep = some T' := by
  unfold expireStep
  cases hx : T.expired with
  | none =>
    show ∃ T', T.afterExpire = some T'
    unfold afterExpire
    split
    · exact ⟨_, rfl⟩
    · rename_i hm
      have hne := (dueBeforeWrap_iff hl).mp (hdue ⟨hpc, hx, hm⟩)
      obtain ⟨c, rest, hc⟩ := List.exists_cons_of_ne_nil hne
      unfold waitTimeout
      rw [hc]
      exact ⟨_, rfl⟩
  | some c =>
    obtain ⟨rest, hc, _⟩ := expired_eq_some hx
    obtain ⟨r, T', hd, hT'⟩ := Sys.complete_ok hl hs (hc ▸ List.mem_cons_self) .timeout (Ip.ofV4 0)
      .expire
    show ∃ T', (T.tables.deref c.val).bind _ = some T'
    rw [hd]
    exact ⟨T', hT'⟩

theorem drainStep_ok (d : Drain) : ∃ T', T.drainStep d = some T' := by
  unfold drainStep
  split
  · cases d <;> exact ⟨_, rfl⟩
  · rename_i x rest hm
    have hx : x ∈ T.tables.resolversMap := hm ▸ List.mem_cons_self
    rw [← hl.owned x hx]
    exact complete_some hl hs (List.mem_map_of_mem hx) _ _ _

/-- **A step of `run()` is defined** where it waits for no mutex. -/
theorem localStep_ok (hsend : T.tables.SendLinked) (hdue : T.AtWait → T.DueBeforeWrap)
    (hread : ¬ T.ReadsOutside e) (hwake : T.WakesFor e)
    (hmutex : T.wants t = some (.mutex t) → T.mutex = none)
    (hcompleted : T.wants t = some (.completedMutex t) → T.completedMutex = none)
    (hrun : T.pc.running = true) (hjoin : T.pc ≠ .joinPrev) (hopen : T.pc ≠ .openSocket)
    (hqueue : T.pc ≠ .popQueue) : (T.localStep t now e).isSome = true := by
  unfold wants at hmutex hcompleted
  unfold localStep
  cases hpc : T.pc with
  | joinPrev => exact absurd hpc hjoin
  | openSocket => exact absurd hpc hopen
  | popQueue => exact absurd hpc hqueue
  | notStarted | finished | destroyed =>
    rw [hpc] at hrun
    cases hrun
  | lockMutex | cbRelock site =>
    rw [hpc] at hmutex
    dsimp only
    rw [if_pos (hmutex rfl)]
    rfl
  | cbLock c =>
    rw [hpc] at hcompleted
    dsimp only
    rw [if_pos (hcompleted rfl)]
    rfl
  | checkError | checkWrite =>
    dsimp only
    split <;> rfl
  | receive =>
    obtain ⟨p, hp⟩ := receiveStep_ok hl hs hpc hread
    exact Option.isSome_iff_exists.mpr ⟨p, hp⟩
  | send =>
    obtain ⟨p, hp⟩ := sendStep_ok (e := e) hl hs hsend
    exact Option.isSome_iff_exists.mpr ⟨p, hp⟩
  | wrap =>
    obtain ⟨T', hT'⟩ := wrapStep_ok hl hs
    dsimp only
    rw [hT']
    rfl
  | expire =>
    obtain ⟨T', hT'⟩ := expireStep_ok hl hs hdue hpc
    dsimp only
    rw [hT']
    rfl
  | drain d =>
    obtain ⟨T', hT'⟩ := drainStep_ok hl hs d
    dsimp only
    rw [hT']
    rfl
  | wait timeout =>
    obtain ⟨T', hT'⟩ := hwake
    dsimp only
    rw [hT']
    rfl
  | initDNS | loopHead | sample | cbEnter | cbRun | leave => rfl

end

end LookupThread

namespace Sys
variable {s : Sys} {a : Actor} {t : ℕ} {e : Env}

/-- A thread that waits for nobody finds what it needs free. -/
theorem free_of_wants (h : ∀ b, ¬ s.WaitsFor a b) {res : Resource} (hw : s.wants a = some res) :
    s.holder res = none := by
  cases hb : s.holder res with
  | none => rfl
  | some b => exact absurd ⟨res, hw, hb⟩ (h b)

theorem joinable_of_holder (h : s.holder (.termination t) = none) :
    joinable (s.threads t) = true := by
  unfold holder at h
  dsimp only at h
  split at h
  · assumption
  · cases h

/-- **A lookup thread that does not wait takes its next step,** whatever the operating system
answers. -/
theorem runStep_ok (hr : resolverSystem.Reach RequeuesSent s)
    (hrun : (s.threads t).pc.running = true) (hidle : s.calls (.lookup t) = .idle)
    (hwait : ∀ b, ¬ s.WaitsFor (.lookup t) b)
    (hdue : (s.threads t).AtWait → (s.threads t).DueBeforeWrap)
    (hread : ¬ (s.threads t).ReadsOutside e) (hwake : (s.threads t).WakesFor e) :
    ∃ s', s.runStep t e = some s' := by
  have hwants : ∀ res, (s.threads t).wants t = some res → s.holder res = none := by
    intro res hres
    refine free_of_wants hwait ?_
    unfold wants
    rw [if_neg (not_not.mpr hidle)]
    exact hres
  -- a step that touches the thread only
  have hown : (s.threads t).pc ≠ .joinPrev → (s.threads t).pc ≠ .openSocket →
      (s.threads t).pc ≠ .popQueue → ∃ s', s.ownStep t e = some s' := by
    intro hjoin hopen hqueue
    refine Option.isSome_iff_exists.mp (ownStep_isSome ?_)
    exact LookupThread.localStep_ok ((stored hr).linked t) (sendKept hr t) (sendLinked hr t) hdue
      hread hwake (hwants _) (hwants _) hrun hjoin hopen hqueue
  unfold runStep
  split
  · rename_i hpc
    unfold joinPrevStep
    dsimp only
    split
    · exact ⟨_, rfl⟩
    · rename_i p hp
      have hj : joinable (s.threads p) = true := by
        refine joinable_of_holder (hwants _ ?_)
        unfold LookupThread.wants
        rw [hpc, hp]
        rfl
      exact ⟨_, if_pos hj⟩
  · rename_i hpc
    have hfree : s.dnsMutex = none := by
      refine hwants .dnsMutex ?_
      unfold LookupThread.wants
      rw [hpc]
    unfold openSocketStep
    dsimp only
    rw [if_pos hfree]
    split <;> exact ⟨_, rfl⟩
  · rename_i hpc
    obtain ⟨hcur, hwakes⟩ := wakes hr
    refine popQueueStep_ok (hcur t ((hwakes t).stays (by rw [hpc]; rfl))) ?_
    have hin := inWaitSet hr t
    rw [hpc] at hin
    exact Option.isSome_iff_ne_none.mp hin
  · rename_i c hpc
    rw [if_pos hidle]
    exact hown (by rw [hpc]; exact nofun) (by rw [hpc]; exact nofun) (by rw [hpc]; exact nofun)
  · rename_i hpc
    obtain ⟨s', hs'⟩ :=
      hown (by rw [hpc]; exact nofun) (by rw [hpc]; exact nofun) (by rw [hpc]; exact nofun)
    split
    · rw [hs']
      exact ⟨_, rfl⟩
    · exact ⟨s', hs'⟩
  · rename_i hjoin hopen hqueue _ _
    exact hown hjoin hopen hqueue

theorem ownStep_eq_none (h : (s.threads t).localStep t s.now e = none) : s.ownStep t e = none := by
  unfold ownStep
  rw [h]
  rfl

/-- A thread that waits takes no step. -/
theorem runStep_of_waits {b : Actor} (hidle : s.calls (.lookup t) = .idle)
    (h : s.WaitsFor (.lookup t) b) : s.runStep t e = none := by
  rcases h.cases with ⟨res, hres, _⟩ | ⟨_, u, res, heq, hres, hb⟩
  · rw [hidle] at hres
    cases hres
  · cases heq
    unfold LookupThread.wants at hres
    unfold runStep
    cases hpc : (s.threads t).pc with
    | openSocket =>
      rw [hpc] at hres
      cases hres
      refine if_neg fun hfree => ?_
      rw [show s.dnsMutex = some b from hb] at hfree
      cases hfree
    | joinPrev =>
      rw [hpc] at hres
      obtain ⟨p, hp, rfl⟩ := Option.map_eq_some_iff.mp hres
      dsimp only
      unfold joinPrevStep
      dsimp only
      rw [hp]
      refine if_neg fun hj => ?_
      unfold holder at hb
      dsimp only at hb
      rw [if_pos hj] at hb
      cases hb
    | lockMutex | cbRelock site =>
      rw [hpc] at hres
      cases hres
      refine ownStep_eq_none ?_
      unfold LookupThread.localStep
      rw [hpc]
      refine if_neg fun hfree => ?_
      rw [show (s.threads t).mutex = some b from hb] at hfree
      cases hfree
    | cbLock c =>
      rw [hpc] at hres
      cases hres
      refine ownStep_eq_none ?_
      unfold LookupThread.localStep
      rw [hpc]
      refine if_neg fun hfree => ?_
      rw [show (s.threads t).completedMutex = some b from hb] at hfree
      cases hfree
    | _ =>
      rw [hpc] at hres
      cases hres

/-- The first deadline of an empty `timeMap1` is read. -/
theorem runStep_of_not_due (hl : (s.threads t).tables.Linked) (hw : (s.threads t).AtWait)
    (hdue : ¬ (s.threads t).DueBeforeWrap) : s.runStep t e = none := by
  obtain ⟨hpc, hexp, hmap⟩ := hw
  have hnil : (s.threads t).tables.timeMap (s.threads t).tables.timeMap1 = [] := by
    by_contra hne
    exact hdue ((LookupThread.dueBeforeWrap_iff hl).mpr hne)
  have hwait : LookupThread.waitTimeout (s.threads t).tables (s.threads t).curTime = none := by
    unfold LookupThread.waitTimeout
    rw [hnil]
  unfold runStep
  rw [hpc]
  refine ownStep_eq_none ?_
  unfold LookupThread.localStep LookupThread.expireStep LookupThread.afterExpire
  rw [hpc, hexp, hwait, if_neg hmap]
  rfl

theorem runStep_of_readsOutside (h : (s.threads t).ReadsOutside e) : s.runStep t e = none := by
  obtain ⟨hpc, hf, d, hd, ha⟩ := h
  unfold runStep
  rw [hpc]
  refine ownStep_eq_none ?_
  unfold LookupThread.localStep LookupThread.receiveStep
  rw [hpc]
  dsimp only
  rw [if_pos hf, hd]
  dsimp only
  rw [ha]
  rfl

theorem cancelIn_ok {T : LookupThread} (hl : T.tables.Linked) (hs : T.tables.SendKept) (x : ℕ) :
    ∃ p, cancelIn T x = some p := by
  have hrem : ∃ p, T.tables.removeResolver x = some p := by
    cases hx : T.tables.find x with
    | none =>
      unfold Tables.removeResolver
      rw [hx]
      exact ⟨_, rfl⟩
    | some r =>
      obtain ⟨tb, htb⟩ := Tables.removeResolver_ok hl hs hx
      exact ⟨_, htb⟩
  obtain ⟨⟨tb, r⟩, hrem⟩ := hrem
  unfold cancelIn
  rw [hrem]
  show ∃ p, (if tb.resolversMap = [] then _ else _) = some p
  split <;> exact ⟨_, rfl⟩

/-- **A call of the API that does not wait takes its next step.** -/
theorem apiStep_ok {G : Sys → Action → Prop} (hr : resolverSystem.Reach G s)
    (hcall : s.calls a ≠ .idle) (hwait : ∀ b, ¬ s.WaitsFor a b) : ∃ s', s.apiStep a = some s' := by
  have hfree : ∀ res, (s.calls a).wants = some res → s.holder res = none := by
    intro res hres
    refine free_of_wants hwait ?_
    unfold wants
    rw [if_pos hcall]
    exact hres
  unfold apiStep
  cases hc : s.calls a with
  | idle => exact absurd hc hcall
  | resolveLock q =>
    have hd : s.dnsMutex = none := hfree .dnsMutex (by rw [hc]; rfl)
    dsimp only
    unfold resolveLockStep
    rw [if_pos hd]
    dsimp only
    split <;> exact ⟨_, rfl⟩
  | resolveCheck q t =>
    have hm : (s.threads t).mutex = none := hfree (.mutex t) (by rw [hc]; rfl)
    dsimp only
    unfold resolveCheckStep
    dsimp only
    rw [if_pos hm]
    split
    · exact ⟨_, rfl⟩
    · split <;> exact ⟨_, rfl⟩
  | resolveRegister q t needStart =>
    have hm : (s.threads t).mutex = none := hfree (.mutex t) (by rw [hc]; rfl)
    dsimp only
    unfold resolveRegisterStep
    dsimp only
    rw [if_pos hm]
    split <;> exact ⟨_, rfl⟩
  | cancelLock x =>
    have hd : s.dnsMutex = none := hfree .dnsMutex (by rw [hc]; rfl)
    dsimp only
    unfold cancelLockStep
    rw [if_pos hd]
    split <;> exact ⟨_, rfl⟩
  | cancelRemove x t =>
    have hm : (s.threads t).mutex = none := hfree (.mutex t) (by rw [hc]; rfl)
    dsimp only
    unfold cancelRemoveStep
    rw [if_pos hm]
    obtain ⟨⟨T, r⟩, hT⟩ := cancelIn_ok ((stored hr).linked t) (sendKept hr t) x
    show ∃ s', (cancelIn (s.threads t) x).bind _ = some s'
    rw [hT]
    cases r <;> exact ⟨_, rfl⟩
  | cancelWait x t =>
    have hm : (s.threads t).completedMutex = none :=
      hfree (.completedMutex t) (by rw [hc]; rfl)
    dsimp only
    unfold cancelWaitStep
    rw [if_pos hm]
    exact ⟨_, rfl⟩
  | cleanUpLock =>
    have hd : s.dnsMutex = none := hfree .dnsMutex (by rw [hc]; rfl)
    dsimp only
    unfold cleanUpLockStep
    rw [if_pos hd]
    split <;> exact ⟨_, rfl⟩
  | cleanUpJoin t =>
    have hj := joinable_of_holder (hfree (.termination t) (by rw [hc]; rfl))
    dsimp only
    unfold cleanUpJoinStep
    rw [if_pos hj]
    exact ⟨_, rfl⟩

/-! ## the system -/

/-- the condition on the steps: nobody waits for a lookup thread that has still to take
`dns::mutex`, a request that is moved to the A record has been sent, and `socket.open()` fails only
when no request is left -/
abbrev Orderly (s : Sys) (act : Action) : Prop :=
  AvoidsDeadlock s act ∧ RequeuesSent s act ∧ FailsIdle s act

/-- in a call of the API, or in `run()` -/
def Active (s : Sys) (a : Actor) : Prop :=
  s.calls a ≠ .idle ∨ ∃ t, a = .lookup t ∧ (s.threads t).pc.running = true

/-- The next step of the call, or of `run()`, is possible, whatever the operating system answers. -/
def GoesOn (s : Sys) (a : Actor) : Prop :=
  (s.calls a ≠ .idle ∧ ∃ s', resolverSystem.step (.api a) s = some s') ∨
  (s.calls a = .idle ∧ ∃ t, a = .lookup t ∧ (s.threads t).pc.running = true ∧
    (∃ e, ¬ (s.threads t).ReadsOutside e ∧ (s.threads t).WakesFor e) ∧
    ∀ e, ¬ (s.threads t).ReadsOutside e → (s.threads t).WakesFor e →
      ∃ s', resolverSystem.step (.run t e) s = some s')

/-- **An active thread that does not wait goes on.** -/
theorem goesOn_of_not_waits (hr : resolverSystem.Reach RequeuesSent s) (ha : s.Active a)
    (hwait : ∀ b, ¬ s.WaitsFor a b)
    (hdue : ∀ t, (s.threads t).AtWait → (s.threads t).DueBeforeWrap) : s.GoesOn a := by
  by_cases hcall : s.calls a = .idle
  · obtain ⟨t, rfl, hrun⟩ := ha.resolve_left (not_not.mpr hcall)
    exact .inr ⟨hcall, t, rfl, hrun, (s.threads t).exists_wakesFor,
      fun e => runStep_ok hr hrun hcall hwait (hdue t)⟩
  · exact .inl ⟨hcall, apiStep_ok hr hcall hwait⟩

theorem running_of_inCallback {pc : Pc} (h : pc.inCallback = true) : pc.running = true := by
  cases pc with
  | cbEnter | cbRun => rfl
  | _ => cases h

theorem running_of_openFailed {pc : Pc} (h : pc.openFailed = true) : pc.running = true := by
  cases pc with
  | drain | cbLock | cbEnter | cbRun | cbRelock => rfl
  | _ => cases h

theorem running_of_loopLocked {pc : Pc} (h : pc.loopLocked = true) : pc.running = true := by
  cases pc with
  | notStarted | finished | destroyed => cases h
  | _ => rfl

/-- What is waited for is held by a thread that is active itself. -/
theorem active_of_waitsFor {b : Actor} (hL : Locks s) (hU : Unblocked s) (hD : DrainsIdle s)
    (hO : Owned s) (h : s.WaitsFor a b) : s.Active b := by
  have hcalls : ∀ {c : Actor} {t : ℕ}, (s.calls c).onThread = some t → s.Active c := by
    intro c t hon
    refine .inl fun hidle => ?_
    rw [hidle] at hon
    cases hon
  -- a thread is joined while it is `dns::thread`, or before it has been destroyed
  have hjoin : ∀ {t : ℕ}, s.wants a = some (.termination t) → (s.threads t).pc ≠ .destroyed := by
    intro t hw
    unfold wants at hw
    split at hw
    · cases hc : s.calls a with
      | cleanUpJoin u =>
        rw [hc] at hw
        cases hw
        exact (hL.newest t (hL.of_onThread (by rw [hc]; rfl)).2).2
      | _ =>
        rw [hc] at hw
        cases hw
    · cases a with
      | client n => cases hw
      | lookup u =>
        rcases LookupThread.wants_cases hw with ⟨_, h | ⟨p, hp, h⟩⟩ | ⟨_, _, h, _⟩ | ⟨_, h⟩
        · cases h
        · cases h
          exact (hO.prev u t hp).2.2
        · cases h
        · cases h
  obtain ⟨res, hw, hb⟩ := h
  cases res with
  | dnsMutex =>
    rcases hU.holds b hb with hon | ⟨t, rfl, hf⟩
    · obtain ⟨t, ht⟩ := Option.ne_none_iff_exists'.mp hon
      exact hcalls ht
    · exact .inr ⟨t, rfl, running_of_openFailed hf⟩
  | mutex t =>
    rcases hL.owner t b hb with hwait | ⟨rfl, hl | hf | hf⟩
    · exact hcalls (Call.onThread_of_waitsIn hwait).1
    · exact .inr ⟨t, rfl, running_of_loopLocked hl⟩
    · exact .inr ⟨t, rfl, running_of_openFailed hf⟩
    · exact absurd hb (hD.finished t hf)
  | completedMutex t =>
    have hcm := hL.completed t
    rw [show (s.threads t).completedMutex = some b from hb] at hcm
    split at hcm
    · rename_i hi
      exact .inr ⟨t, Option.some.inj hcm, running_of_inCallback hi⟩
    · cases hcm
  | termination t =>
    unfold holder at hb
    dsimp only at hb
    split at hb
    · cases hb
    · rename_i hj
      refine .inr ⟨t, (Option.some.inj hb).symm, ?_⟩
      have hne := hjoin hw
      unfold joinable at hj
      generalize (s.threads t).pc = pc at hj hne ⊢
      cases pc with
      | notStarted | finished => exact absurd rfl hj
      | destroyed => exact absurd rfl hne
      | _ => rfl

end Sys

/-- **When `run()` does not go on:** in every run in which a request that is moved to the A record
has been sent, if and only if it waits for another thread, is about to read the first deadline of an
empty `timeMap1`, or parses a datagram outside of its buffer. -/
theorem run_stuck_iff {s : Sys} (hr : resolverSystem.Reach Sys.RequeuesSent s) {t : ℕ} {e : Env}
    (hrun : (s.threads t).pc.running = true) (hidle : s.calls (.lookup t) = .idle)
    (hwake : (s.threads t).WakesFor e) : resolverSystem.step (.run t e) s = none ↔
      (∃ b, s.WaitsFor (.lookup t) b) ∨
        ((s.threads t).AtWait ∧ ¬ (s.threads t).DueBeforeWrap) ∨ (s.threads t).ReadsOutside e := by
  constructor
  · intro hnone
    by_contra hno
    obtain ⟨hwait, hno⟩ := not_or.mp hno
    obtain ⟨hdue, hread⟩ := not_or.mp hno
    obtain ⟨s', hs'⟩ := Sys.runStep_ok hr hrun hidle (fun b hb => hwait ⟨b, hb⟩)
      (fun hw => by_contra fun hd => hdue ⟨hw, hd⟩) hread hwake
    rw [show s.runStep t e = none from hnone] at hs'
    cases hs'
  · rintro (⟨b, hb⟩ | ⟨hw, hdue⟩ | hread)
    · exact Sys.runStep_of_waits hidle hb
    · exact Sys.runStep_of_not_due ((Sys.stored hr).linked t) hw hdue
    · exact Sys.runStep_of_readsOutside hread

set_option maxRecDepth 10000 in
/-- a thread that opens its socket while a client is in `resolve()` -/
theorem run_stuck_iff_open : ∃ s, resolverSystem.run Sys.RequeuesSent
      (callSteps (.client 0) (.resolve (queryA 1)) 2 ++ lookupSteps 0 2 ++
        callSteps (.client 0) (.resolve (queryA 2)) 1) (Sys.init 0) = some s ∧
    s.WaitsFor (.lookup 0) (.client 0) ∧
    (resolverSystem.step (.run 0 { wake := .ready false false false }) s = none ↔
      (∃ b, s.WaitsFor (.lookup 0) b) ∨
        ((s.threads 0).AtWait ∧ ¬ (s.threads 0).DueBeforeWrap) ∨
          (s.threads 0).ReadsOutside { wake := .ready false false false }) := by
  obtain ⟨s, hs, hp⟩ := Machine.exists_run resolverSystem Sys.RequeuesSent
    (callSteps (.client 0) (.resolve (queryA 1)) 2 ++ lookupSteps 0 2 ++
      callSteps (.client 0) (.resolve (queryA 2)) 1) (Sys.init 0)
    (fun s => (s.wants (.lookup 0) = some .dnsMutex ∧ s.dnsMutex = some (.client 0)) ∧
      (s.threads 0).pc.running = true ∧ s.calls (.lookup 0) = .idle ∧
      (s.threads 0).wakeStep (.ready false false false) ≠ none) (by decide)
  obtain ⟨⟨hw, hd⟩, hrun, hidle, hwake⟩ := of_decide_eq_true hp
  refine ⟨s, hs, ⟨.dnsMutex, hw, hd⟩, ?_⟩
  exact run_stuck_iff ((reach_init _ 0).run hs) hrun hidle (Option.ne_none_iff_exists'.mp hwake)

/-- **The system goes on** as long as a call of the API or a lookup thread is not at its end, in
every orderly run, unless a thread is about to read the first deadline of an empty `timeMap1`. -/
theorem system_progress {s : Sys} (hr : resolverSystem.Reach Sys.Orderly s)
    (hdue : ∀ t, (s.threads t).AtWait → (s.threads t).DueBeforeWrap) (hact : ∃ a, s.Active a) :
    ∃ a, s.GoesOn a := by
  have hsent := hr.mono fun _ _ hg => hg.2.1
  have hL := Sys.locks hr
  have hU := Sys.unblocked (hr.mono fun _ _ hg => hg.1)
  have hD := Sys.drainsIdle (hr.mono fun _ _ hg => hg.2.2)
  by_contra hno
  -- then every active thread waits for an active one
  refine no_trap s.rank (fun _ _ _ hab hbc => Sys.rank_lt hL hU hab hbc) hact fun a ha => ?_
  obtain ⟨b, hab⟩ : ∃ b, s.WaitsFor a b := by
    by_contra hwait
    exact hno ⟨a, Sys.goesOn_of_not_waits hsent ha (fun b hb => hwait ⟨b, hb⟩) hdue⟩
  exact ⟨b, Sys.active_of_waitsFor hL hU hD (Sys.owned hr) hab, hab⟩

set_option maxRecDepth 10000 in
/-- a client that waits for the `resolve()` of a callback -/
theorem system_progress_nested : ∃ s, resolverSystem.run Sys.Orderly resolveInCallback
      (Sys.init 0) = some s ∧ s.WaitsFor (.client 0) (.lookup 0) ∧ ∃ a, s.GoesOn a := by
  obtain ⟨s, hs, hp⟩ := Machine.exists_run resolverSystem Sys.Orderly resolveInCallback
    (Sys.init 0) (fun s => (s.wants (.client 0) = some .dnsMutex ∧
      s.dnsMutex = some (.lookup 0)) ∧ s.calls (.client 0) ≠ .idle ∧ s.nextThread = 1 ∧
      (s.threads 0).pc ≠ .expire) (by decide)
  obtain ⟨⟨hw, hd⟩, hcall, hnext, hpc⟩ := of_decide_eq_true hp
  have hr := (reach_init Sys.Orderly 0).run hs
  refine ⟨s, hs, ⟨.dnsMutex, hw, hd⟩, system_progress hr (fun t ht => ?_) ⟨.client 0, .inl hcall⟩⟩
  -- no other thread has been created
  have hlt := (Sys.locks hr).born t (by rw [ht.1]; exact nofun)
  rw [hnext] at hlt
  obtain rfl : t = 0 := by omega
  exact absurd ht.1 hpc

end Setka
