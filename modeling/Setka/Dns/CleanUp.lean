import Setka.Lib.Traces
import Setka.Dns.Progress

/-!
# `clean_up()` returns

`clean_up()` sets the quit flag, posts a message and joins the lookup thread with `dns::mutex` held.
The thread may be anywhere in its loop, with requests to send, to time out and to drain.

* `stepsLeft`          a bound on the steps of `run()` once the quit flag is set;
* `LocalMove.stepsLeft`   every step of `run()` lowers it;
* `clean_up_returns`   while `clean_up()` waits, the thread goes on, and takes so many steps at
                       most.
-/

namespace Setka

/-- the steps left where the code goes on after a callback -/
def Site.stepsLeft : Site → ℕ
  | .receive => 9
  | .send => 8
  | .wrap => 6
  | .expire => 5
  | .drain _ => 2

/-- The steps to the end of `run()` with the quit flag set, for a thread without requests. -/
def Pc.stepsLeft : Pc → ℕ
  | .notStarted | .joinPrev | .initDNS | .openSocket => 0
  | .lockMutex => 13
  | .checkError => 12
  | .receive => 11
  | .checkWrite => 9
  | .send => 8
  | .sample => 7
  | .wrap => 6
  | .expire => 5
  | .wait _ => 4
  | .popQueue => 3
  | .loopHead => 2
  | .drain _ => 2
  | .cbLock c => c.site.stepsLeft + 4
  | .cbEnter c => c.site.stepsLeft + 3
  | .cbRun c => c.site.stepsLeft + 2
  | .cbRelock s => s.stepsLeft + 1
  | .leave => 1
  | .finished | .destroyed => 0

theorem Site.resume_stepsLeft (s : Site) : s.resume.stepsLeft = s.stepsLeft := by
  cases s <;> rfl

/-- a step of `run()` of the thread `t` -/
def Action.ofThread (t : ℕ) : Action → Bool
  | .run u _ => u == t
  | _ => false

/-- a step of the call of `a` -/
def Action.ofCall (a : Actor) : Action → Bool
  | .api b => b == a
  | _ => false

namespace Tables
variable {tb tb' : Tables} {x p : ℕ} {r : Resolver}

theorem removeResolver_length (hl : Linked tb) (h : tb.removeResolver x = some (tb', some r)) :
    tb'.resolversMap.length + 1 = tb.resolversMap.length := by
  have hp := (resolvers_perm hl.keys h).length_eq
  unfold resolvers at hp
  rw [List.length_map, List.length_cons, List.length_map] at hp
  exact hp.symm

theorem requeue_length (tb : Tables) (p : ℕ) :
    (tb.requeue p).resolversMap.length = tb.resolversMap.length := List.length_map _

theorem markSent_length (tb : Tables) (p : ℕ) :
    (tb.markSent p).resolversMap.length = tb.resolversMap.length := List.length_map _

theorem setDns_length (tb : Tables) (p : ℕ) (a : Address) :
    (tb.setDns p a).resolversMap.length = tb.resolversMap.length := List.length_map _

end Tables

namespace LookupThread
variable {t now : ℕ} {e : Env} {T T' : LookupThread} {es : List Event}

/-- how many steps the thread may still take, once the quit flag is set -/
def stepsLeft (T : LookupThread) : ℕ := T.pc.stepsLeft + 5 * T.tables.resolversMap.length +
  T.tables.sendList.length + T.queue.length

/-- a step to another place -/
theorem stepsLeft_goto (hmap : T'.tables.resolversMap.length = T.tables.resolversMap.length)
    (hsend : T'.tables.sendList.length = T.tables.sendList.length) (hqueue : T'.queue = T.queue)
    (hpc : T'.pc.stepsLeft < T.pc.stepsLeft) : T'.stepsLeft < T.stepsLeft := by
  unfold stepsLeft
  rw [hmap, hsend, hqueue]
  omega

/-- a message is taken from the queue -/
theorem stepsLeft_pop {msg : Msg} {rest : List Msg} (htb : T'.tables = T.tables)
    (hpc : T'.pc = T.pc) (hq : T.queue = msg :: rest) (hq' : T'.queue = rest) :
    T'.stepsLeft < T.stepsLeft := by
  unfold stepsLeft
  rw [htb, hpc, hq, hq', List.length_cons]
  omega

theorem LocalMove.quitFlag (h : LocalMove t now e T T' es) : T'.quitFlag = T.quitFlag := by
  cases h <;> rfl

/-- **Every step of `run()` lowers the bound.** -/
theorem LocalMove.stepsLeft (h : LocalMove t now e T T' es) (hl : T.tables.Linked)
    (hq : T.quitFlag = true) (ho : T.pc.opened = true) : T'.stepsLeft < T.stepsLeft := by
  -- a request is removed, to be completed
  have hremoved : ∀ {U : LookupThread} {tb tb' : Tables} {x : ℕ} {r : Resolver} {res : DnsResult}
      {ip : Ip} {site : Site} {k : ℕ}, tb.Linked → tb.removeResolver x = some (tb', some r) →
      tb.resolversMap.length = T.tables.resolversMap.length →
      tb.sendList.length ≤ T.tables.sendList.length + k → U.queue = T.queue →
      site.stepsLeft + k ≤ T.pc.stepsLeft →
      (U.completing tb' r res ip site).stepsLeft < T.stepsLeft := by
    intro U tb tb' x r res ip site k hlink hr hmap hsend hqueue hpc
    have hlen := Tables.removeResolver_length hlink hr
    have hle := (Tables.removeResolver_sendList hr).length_le
    show site.stepsLeft + 4 + 5 * tb'.resolversMap.length + tb'.sendList.length + U.queue.length <
      T.pc.stepsLeft + 5 * T.tables.resolversMap.length + T.tables.sendList.length + T.queue.length
    rw [hqueue]
    omega
  cases h with
  | initDNS hpc =>
    rw [hpc] at ho
    cases ho
  | nextRound _ hquit =>
    rw [hq] at hquit
    cases hquit
  | requeued d r mode hpc =>
    show 9 + 5 * (T.tables.requeue r.addr).resolversMap.length +
      (T.tables.sendList ++ [_]).length + T.queue.length < _
    unfold LookupThread.stepsLeft
    rw [Tables.requeue_length, List.length_append, hpc]
    show _ + (_ + 1) + _ < 11 + _ + _ + _
    omega
  | requeueFailed d r tb r' hpc _ _ _ _ hr =>
    refine hremoved (k := 1) (Tables.requeue_linked hl _) hr (Tables.requeue_length _ _) ?_ rfl ?_
    · exact (List.length_append).le
    · rw [hpc]
      decide
  | replied d r res tb r' hpc _ _ _ hr =>
    refine hremoved (k := 0) hl hr rfl (Nat.le_refl _) rfl ?_
    rw [hpc]
    decide
  | sent c rest r hpc hlist =>
    have hmap : ((T.serverChosen r).tables.markSent r.addr).resolversMap.length =
        T.tables.resolversMap.length :=
      (Tables.markSent_length _ _).trans (Tables.setDns_length _ _ _)
    show T.pc.stepsLeft + 5 * ((T.serverChosen r).tables.markSent r.addr).resolversMap.length +
      T.tables.sendList.tail.length + T.queue.length < _
    unfold LookupThread.stepsLeft
    rw [hmap, hlist]
    show _ + rest.length + _ < _ + (rest.length + 1) + _
    omega
  | sendNotReady c rest r hpc =>
    exact stepsLeft_goto (Tables.setDns_length _ _ _) rfl rfl (by simp [hpc, Pc.stepsLeft])
  | sendError c rest r hpc =>
    exact stepsLeft_goto (Tables.setDns_length _ _ _) rfl rfl (by simp [hpc, Pc.stepsLeft])
  | noServer c rest r tb r' hpc _ _ _ hr =>
    have hop : Tables.Op (fun _ => True) T.tables (T.serverChosen r).tables := .dnsSet _ _
    refine hremoved (k := 0) (hop.linked hl) hr (Tables.setDns_length _ _ _) (Nat.le_refl _) rfl ?_
    rw [hpc]
    decide
  | swapped hpc => exact stepsLeft_goto rfl rfl rfl (by simp [hpc, Pc.stepsLeft])
  | wrapTimeout c rest r tb r' hpc _ _ hr =>
    exact hremoved (k := 0) hl hr rfl (Nat.le_refl _) rfl (by rw [hpc]; decide)
  | expireTimeout c rest r tb r' hpc _ _ _ hr =>
    exact hremoved (k := 0) hl hr rfl (Nat.le_refl _) rfl (by rw [hpc]; decide)
  | drainNext d x r rest tb r' hpc _ hr =>
    refine hremoved (k := 0) hl hr rfl (Nat.le_refl _) rfl ?_
    rw [hpc]
    exact Nat.le_refl 2
  | cbLock c hpc | cbEnter c hpc | cbReturn c hpc =>
    refine stepsLeft_goto rfl rfl rfl ?_
    rw [hpc]
    exact Nat.lt_succ_self _
  | cbRelock site hpc =>
    refine stepsLeft_goto rfl rfl rfl ?_
    rw [hpc, site.resume_stepsLeft]
    exact Nat.lt_succ_self _
  | wakeTimeout _ hpc => exact stepsLeft_goto rfl rfl rfl (by simp [hpc, Pc.stepsLeft])
  | wakeReady _ _ hpc =>
    refine stepsLeft_goto rfl rfl rfl ?_
    rw [hpc]
    dsimp only
    split <;> simp [Pc.stepsLeft]
  | quit hpc | lock hpc | socketError hpc | noError hpc | notReadable hpc | receiveError hpc
      | receiveNothing hpc | ignored _ hpc | writable hpc | notWritable hpc | allSent hpc
      | sampledWrap hpc | sampled hpc | noRequests hpc | startWait _ hpc | drained hpc
      | drainedOpen hpc | left hpc =>
    exact stepsLeft_goto rfl rfl rfl (by simp [hpc, Pc.stepsLeft])

end LookupThread

namespace Sys
variable {act : Action} {s s' : Sys} {a : Actor} {t : ℕ}

/-! ## the thread `clean_up()` waits for -/

/-- `clean_up()` has set the quit flag of the thread it waits for. -/
def Quits (s : Sys) : Prop := ∀ a t, s.calls a = .cleanUpJoin t → (s.threads t).quitFlag = true

theorem quits_step (hL : Locks s) (h : Quits s) (hm : Move act s s') : Quits s' := by
  have holder := hL.holder
  have newest := hL.newest
  have prev := hL.prev
  have born := hL.born
  unfold Quits at *
  clear hL
  cases hm
  case own hl =>
    have := hl.quitFlag
    grind
  all_goals grind [registerIn, cancelled]

theorem quits {G : Sys → Action → Prop} (hr : resolverSystem.Reach G s) : Quits s := by
  refine hr.invariant (I := Quits) ?_ ?_
  · rintro s ⟨now, rfl⟩
    exact nofun
  · intro s act s' hr h _ hs
    exact quits_step (locks hr) h (sysMove hs)

/-- The call of `a` goes on only by its own steps. -/
theorem Move.joining (hm : Move act s s') (hc : s.calls a = .cleanUpJoin t)
    (ha : act.ofCall a = false) : s'.calls a = .cleanUpJoin t := by
  cases hm <;> grind [Action.ofCall]

section
variable (hlink : (s.threads t).tables.Linked) (hopen : (s.threads t).pc.opened = true)
  (hquit : (s.threads t).quitFlag = true)
include hlink hopen hquit

/-- No step raises the bound of a thread that is joined. -/
theorem Move.stepsLeft_le (hm : Move act s s') (hL : Locks s) (hc : s.calls a = .cleanUpJoin t) :
    (s'.threads t).stepsLeft ≤ (s.threads t).stepsLeft := by
  obtain ⟨hd, hcur⟩ := hL.of_onThread (a := a) (t := t) (by rw [hc]; rfl)
  -- no other call holds `dns::mutex`
  have hcall : ∀ {b : Actor}, (s.calls b).onThread ≠ none → b = a :=
    fun hb => hL.eq_of_onThread hb (by rw [hc]; exact nofun)
  have hne : ∀ {b : Actor} {c : Call}, s.calls b = c → c.onThread ≠ none → c ≠ .cleanUpJoin t →
      False := by
    rintro b c rfl hon hcall'
    rw [hcall hon] at hcall'
    exact hcall' hc
  have hth := hm.thread t
  generalize s'.threads t = T' at hth ⊢
  cases hth with
  | same | startSending => exact Nat.le_refl _
  | created prev hnew =>
    have hlt := hL.lt_of_thread hcur
    exact absurd hnew hlt.ne
  | registered b q needStart id hb => exact (hne hb nofun nofun).elim
  | cancelled b x tb r hb => exact (hne hb nofun nofun).elim
  | cancelMiss b x tb hb => exact (hne hb nofun nofun).elim
  | cancelWait b x hb => exact (hne hb nofun nofun).elim
  | toldToQuit b _ hfree =>
    rw [hd] at hfree
    cases hfree
  | cleanedUp | joined => exact Nat.zero_le _
  | joinedPrev hpc | openSocket hpc | openFailed hpc =>
    rw [hpc] at hopen
    cases hopen
  | queueEmpty hpc | drainedOpen hpc =>
    refine Nat.le_of_lt (LookupThread.stepsLeft_goto rfl rfl rfl ?_)
    simp [hpc, Pc.stepsLeft]
  | popQueue msg rest mode hpc hq => exact Nat.le_of_lt (LookupThread.stepsLeft_pop rfl rfl hq rfl)
  | own e T' es _ _ hl => exact (hl.stepsLeft hlink hquit hopen).le

/-- A step of the thread itself lowers the bound. -/
theorem Move.stepsLeft_lt {e : Env} (hm : Move (.run t e) s s') :
    (s'.threads t).stepsLeft < (s.threads t).stepsLeft := by
  have hset : ∀ (T : LookupThread), T.stepsLeft < (s.threads t).stepsLeft →
      ((s.setThread t T).threads t).stepsLeft < (s.threads t).stepsLeft := by
    intro T hlt
    rw [threads_setThread, if_pos rfl]
    exact hlt
  cases hm with
  | noPrev _ _ _ hpc | joinPrev _ _ _ _ hpc | openSocket _ _ _ hpc | openFailed _ _ _ hpc =>
    rw [hpc] at hopen
    cases hopen
  | queueEmpty _ _ _ hpc | drainedOpen _ _ _ hpc =>
    refine hset _ (LookupThread.stepsLeft_goto rfl rfl rfl ?_)
    simp [hpc, Pc.stepsLeft]
  | popNop _ _ rest _ hpc hq => exact hset _ (LookupThread.stepsLeft_pop rfl rfl hq rfl)
  | popStartSending _ c _ rest threads _ hpc hq _ _ hth =>
    show (threads t).stepsLeft < _
    refine LookupThread.stepsLeft_pop ?_ ?_ hq ?_
    · rw [hth t]
    · rw [hth t]
    · rw [hth t]
      exact if_pos rfl
  | own _ e T es _ _ _ hl => exact hset T (hl.stepsLeft hlink hquit hopen)

end

/-- The thread that `clean_up()` waits for goes on, until it can be joined. -/
theorem goesOn_of_joining (hr : resolverSystem.Reach Orderly s) (hc : s.calls a = .cleanUpJoin t)
    (hdue : (s.threads t).AtWait → (s.threads t).DueBeforeWrap) :
    s.GoesOn a ∨ s.GoesOn (.lookup t) := by
  have hL := locks hr
  have hU := unblocked (hr.mono fun _ _ hg => hg.1)
  obtain ⟨hd, hcur⟩ := hL.of_onThread (a := a) (t := t) (by rw [hc]; rfl)
  obtain ⟨hopen, hlock⟩ := hU.joins a t hc
  by_cases hj : joinable (s.threads t) = true
  · refine .inl (.inl ⟨by rw [hc]; exact nofun, ?_⟩)
    show ∃ s', s.apiStep a = some s'
    unfold apiStep
    rw [hc]
    exact ⟨_, if_pos hj⟩
  · have hrun : (s.threads t).pc.running = true := by
      have hne := (hL.newest t hcur).2
      unfold joinable at hj
      generalize (s.threads t).pc = pc at hj hne ⊢
      cases pc with
      | notStarted | finished => exact absurd rfl hj
      | destroyed => exact absurd rfl hne
      | _ => rfl
    have hlookup := hL.not_lookup (a := a) (by rw [hc]; exact nofun) (by rw [hc]; rfl) t
    have hidle := idle_of_held hL hd hlookup hlock
    refine .inr (.inr ⟨hidle, t, rfl, hrun, (s.threads t).exists_wakesFor, fun e => ?_⟩)
    exact runStep_ok (hr.mono fun _ _ hg => hg.2.1) hrun hidle
      (fun b => not_waits_join hL hU hc) hdue

end Sys

/-- **`clean_up()` returns:** in every orderly run, while it waits for the lookup thread, it can
return or the thread can take its next step, and the thread takes at most as many steps as its
requests, messages and place in the loop say. -/
theorem clean_up_returns {s s' : Sys} (hr : resolverSystem.Reach Sys.Orderly s) {a : Actor} {t : ℕ}
    (hc : s.calls a = .cleanUpJoin t) {as : List Action}
    (h : resolverSystem.Steps (fun s act => Sys.Orderly s act ∧ act.ofCall a = false) s as s')
    (hdue : (s'.threads t).AtWait → (s'.threads t).DueBeforeWrap) :
    as.countP (Action.ofThread t) + (s'.threads t).stepsLeft ≤ (s.threads t).stepsLeft ∧
      s'.calls a = .cleanUpJoin t ∧ (s'.GoesOn a ∨ s'.GoesOn (.lookup t)) := by
  have hrun := h.countP_add_le
    (I := fun s => resolverSystem.Reach Sys.Orderly s ∧ s.calls a = .cleanUpJoin t)
    (p := Action.ofThread t) (fun s => (s.threads t).stepsLeft) ?_ ⟨hr, hc⟩
  · obtain ⟨⟨hr', hc'⟩, hle⟩ := hrun
    exact ⟨hle, hc', Sys.goesOn_of_joining hr' hc' hdue⟩
  · rintro s act s' ⟨hr, hc⟩ ⟨hg, hact⟩ hs
    have hm := Sys.sysMove hs
    have hlink := (Sys.stored hr).linked t
    have hopen := ((Sys.unblocked (hr.mono fun _ _ hg => hg.1)).joins a t hc).1
    have hquit := Sys.quits hr a t hc
    refine ⟨⟨.step hr hg hs, hm.joining hc hact⟩, ?_⟩
    split
    · rename_i hthread
      cases act with
      | run u e =>
        obtain rfl : u = t := beq_iff_eq.mp hthread
        have hlt := Sys.Move.stepsLeft_lt hlink hopen hquit hm
        omega
      | _ => cases hthread
    · rw [Nat.zero_add]
      exact Sys.Move.stepsLeft_le hlink hopen hquit hm (Sys.locks hr) hc

/-- A request is made, and `clean_up()` is called while the thread waits for the reply. -/
def cleanUpWaiting : List Action :=
  callSteps (.client 0) (.resolve (queryA 1)) 2 ++ lookupSteps 0 10 ++
  callSteps (.client 1) .cleanUp 1

/-- The thread is woken, reads its queue and ends. -/
def endWoken : List Action :=
  .run 0 { wake := .ready false false false } :: lookupSteps 0 5

set_option maxRecDepth 10000 in
/-- The thread takes six of twelve steps, and `clean_up()` can return. -/
theorem clean_up_returns_woken : ∃ s s', resolverSystem.run Sys.Orderly cleanUpWaiting
      (Sys.init 0) = some s ∧ resolverSystem.run
        (fun s act => Sys.Orderly s act ∧ act.ofCall (.client 1) = false) endWoken s = some s' ∧
    (s.threads 0).stepsLeft = 12 ∧
    (endWoken.countP (Action.ofThread 0) + (s'.threads 0).stepsLeft ≤ (s.threads 0).stepsLeft ∧
      s'.calls (.client 1) = .cleanUpJoin 0 ∧
      (s'.GoesOn (.client 1) ∨ s'.GoesOn (.lookup 0))) := by
  obtain ⟨s, hs, hp⟩ := Machine.exists_run resolverSystem Sys.Orderly cleanUpWaiting (Sys.init 0)
    (fun s => s.calls (.client 1) = .cleanUpJoin 0 ∧ (s.threads 0).stepsLeft = 12 ∧
      (resolverSystem.run (fun s act => Sys.Orderly s act ∧ act.ofCall (.client 1) = false)
        endWoken s).any (fun s => (s.threads 0).pc = .finished)) (by decide)
  obtain ⟨hc, hleft, hrun⟩ := of_decide_eq_true hp
  obtain ⟨s', hs', hpc⟩ := Machine.exists_run resolverSystem _ endWoken s _ hrun
  refine ⟨s, s', hs, hs', hleft, ?_⟩
  refine clean_up_returns ((reach_init _ 0).run hs) hc (.of_run hs') fun hw => ?_
  rw [hw.1] at hpc
  cases hpc

end Setka
