import Setka.Dns.Links
import Setka.Dns.Moves

/-!
# Who holds which mutex

The owner of every mutex is determined by the program counters, in every state of every run.

* `LocalMove.mutex_move`, `LocalMove.completed_move`   what one step of `run()` does to the two
                          mutexes of its thread;
* `Locks`                 the invariant;
* `locks`                 it holds in every reachable state;
* `dnsHeld`               who holds `dns::mutex`.

A thread whose `socket.open()` has failed is an exception: it holds `dns::mutex` while it drains,
and it may or may not own its own mutex, as `CallCallback` unlocks a mutex that was not locked.
-/

namespace Setka

/-! ## program counters -/

/-- the lookup thread an API call that holds `dns::mutex` works on -/
@[grind =]
def Call.onThread : Call → Option ℕ
  | .idle | .resolveLock _ | .cancelLock _ | .cleanUpLock => none
  | .resolveCheck _ t | .resolveRegister _ t _ => some t
  | .cancelRemove _ t | .cancelWait _ t => some t
  | .cleanUpJoin t => some t

/-- a call of `resolve()` -/
@[grind =]
def Call.isResolve : Call → Bool
  | .resolveLock _ | .resolveCheck _ _ | .resolveRegister _ _ _ => true
  | .idle | .cancelLock _ | .cancelRemove _ _ | .cancelWait _ _ => false
  | .cleanUpLock | .cleanUpJoin _ => false

/-- the thread that a call of `resolve()` has created and not yet started -/
@[grind =]
def Call.starts : Call → Option ℕ
  | .resolveRegister _ t true => some t
  | .resolveRegister _ _ false | .idle | .resolveLock _ | .resolveCheck _ _ => none
  | .cancelLock _ | .cancelRemove _ _ | .cancelWait _ _ | .cleanUpLock | .cleanUpJoin _ => none

/-- the thread for whose `completedMutex` a call of `cancel()` waits -/
@[grind =]
def Call.waitsIn : Call → Option ℕ
  | .cancelWait _ t => some t
  | .idle | .resolveLock _ | .resolveCheck _ _ | .resolveRegister _ _ _ => none
  | .cancelLock _ | .cancelRemove _ _ | .cleanUpLock | .cleanUpJoin _ => none

/-- a callback made by `RemoveAllResolvers` after a failed `open()` -/
@[grind =]
def Site.openFailed : Site → Bool
  | .drain .openFailed => true
  | .drain .loopExit | .receive | .send | .wrap | .expire => false

/-- inside `RemoveAllResolvers` after a failed `open()` -/
@[grind =]
def Pc.openFailed : Pc → Bool
  | .drain .openFailed => true
  | .cbLock c | .cbEnter c | .cbRun c => c.site.openFailed
  | .cbRelock s => s.openFailed
  | .notStarted | .joinPrev | .initDNS | .openSocket => false
  | .loopHead | .lockMutex | .checkError | .receive | .checkWrite | .send | .sample => false
  | .wrap | .expire | .drain .loopExit => false
  | .wait _ | .popQueue | .leave | .finished | .destroyed => false

/-- inside the guard of `this->mutex` of the main loop, outside a callback -/
@[grind =]
def Pc.loopLocked : Pc → Bool
  | .checkError | .receive | .checkWrite | .send | .sample | .wrap | .expire => true
  | .drain .loopExit => true
  | .cbLock c => !c.site.openFailed
  | .drain .openFailed | .cbEnter _ | .cbRun _ | .cbRelock _ => false
  | .notStarted | .joinPrev | .initDNS | .openSocket => false
  | .loopHead | .lockMutex | .wait _ | .popQueue | .leave | .finished | .destroyed => false

/-- past `socket.open()` -/
@[grind =]
def Pc.opened : Pc → Bool
  | .notStarted | .joinPrev | .initDNS | .openSocket => false
  | .loopHead | .lockMutex | .checkError | .receive | .checkWrite | .send | .sample => true
  | .wrap | .expire | .drain _ | .cbLock _ | .cbEnter _ | .cbRun _ | .cbRelock _ => true
  | .wait _ | .popQueue | .leave | .finished | .destroyed => true

/-- inside `on_completed()`, or about to enter it with `completedMutex` locked -/
@[grind =]
def Pc.inCallback : Pc → Bool
  | .cbEnter _ | .cbRun _ => true
  | .cbLock _ | .cbRelock _ => false
  | .notStarted | .joinPrev | .initDNS | .openSocket => false
  | .loopHead | .lockMutex | .checkError | .receive | .checkWrite | .send | .sample => false
  | .wrap | .expire | .drain _ => false
  | .wait _ | .popQueue | .leave | .finished | .destroyed => false

@[grind →]
theorem Call.onThread_of_starts {c : Call} {t : ℕ} (h : c.starts = some t) :
    c.onThread = some t := by
  cases c with
  | resolveRegister q u needStart =>
    cases needStart with
    | true => exact h
    | false => cases h
  | _ => cases h

@[grind →]
theorem Call.onThread_of_waitsIn {c : Call} {t : ℕ} (h : c.waitsIn = some t) :
    c.onThread = some t ∧ c.isResolve = false := by
  cases c with
  | cancelWait x u => exact ⟨h, rfl⟩
  | _ => cases h

theorem Site.resume_openFailed (s : Site) : s.resume.openFailed = s.openFailed := by
  cases s with
  | drain d => cases d <;> rfl
  | _ => rfl

theorem Site.resume_loopLocked (s : Site) : s.resume.loopLocked = !s.openFailed := by
  cases s with
  | drain d => cases d <;> rfl
  | _ => rfl

theorem Site.resume_inCallback (s : Site) : s.resume.inCallback = false := by
  cases s <;> rfl

namespace LookupThread
variable {t now : ℕ} {e : Env} {T T' : LookupThread} {es : List Event}

/-- A step neither enters nor leaves the drain after a failed `open()`, but for its end. -/
theorem LocalMove.openFailed (h : LocalMove t now e T T' es)
    (hd : T.pc = .drain .openFailed → T.tables.resolversMap ≠ []) :
    T'.pc.openFailed = T.pc.openFailed := by
  cases h
  case drainedOpen hpc hm => exact absurd hm (hd hpc)
  case drainNext d _ _ _ _ _ hpc _ _ =>
    rw [hpc]
    cases d <;> rfl
  case cbRelock s hpc _ =>
    rw [hpc]
    exact s.resume_openFailed
  case wakeReady hpc =>
    rw [hpc]
    dsimp only
    split <;> rfl
  all_goals simp [*, completing, writeCleared, serverChosen, Pc.openFailed, Site.openFailed]

/-- what a step does to `this->mutex` -/
theorem LocalMove.mutex_move (h : LocalMove t now e T T' es)
    (hd : T.pc = .drain .openFailed → T.tables.resolversMap ≠ []) :
    (T'.mutex = T.mutex ∧ T'.pc.loopLocked = T.pc.loopLocked) ∨
    (T'.mutex = none ∧ T'.pc.loopLocked = false ∧
      (T.pc.loopLocked = true ∨ T.pc.openFailed = true)) ∨
    (T.mutex = none ∧ T'.mutex = some (.lookup t) ∧ T.pc.loopLocked = false ∧
      (T'.pc.loopLocked = true ∨ T'.pc.openFailed = true)) := by
  cases h
  case drainedOpen hpc hm => exact absurd hm (hd hpc)
  case drainNext d _ _ _ _ _ hpc _ _ =>
    refine .inl ⟨rfl, ?_⟩
    rw [hpc]
    cases d <;> rfl
  case cbLock c hpc _ =>
    refine .inr (.inl ⟨rfl, rfl, ?_⟩)
    rw [hpc]
    cases hs : c.site.openFailed <;> simp [Pc.loopLocked, Pc.openFailed, hs]
  case cbRelock s hpc hm =>
    refine .inr (.inr ⟨hm, rfl, by rw [hpc]; rfl, ?_⟩)
    rw [s.resume_loopLocked, s.resume_openFailed]
    cases s.openFailed <;> simp
  case wakeReady hpc =>
    refine .inl ⟨rfl, ?_⟩
    rw [hpc]
    dsimp only
    split <;> rfl
  all_goals simp [*, completing, readCleared, writeCleared, LookupThread.requeued, serverChosen,
    Pc.loopLocked, Site.openFailed]

/-- what a step does to `completedMutex` -/
theorem LocalMove.completed_move (h : LocalMove t now e T T' es) :
    (T'.completedMutex = T.completedMutex ∧ T'.pc.inCallback = T.pc.inCallback) ∨
    (T.completedMutex = none ∧ T'.completedMutex = some (.lookup t) ∧ T.pc.inCallback = false ∧
      T'.pc.inCallback = true) ∨
    (T'.completedMutex = none ∧ T.pc.inCallback = true ∧ T'.pc.inCallback = false) := by
  cases h
  case cbRelock s hpc hm =>
    refine .inl ⟨rfl, ?_⟩
    rw [hpc]
    exact s.resume_inCallback
  case wakeReady hpc =>
    refine .inl ⟨rfl, ?_⟩
    rw [hpc]
    dsimp only
    split <;> rfl
  all_goals simp [*, completing, readCleared, writeCleared, LookupThread.requeued, serverChosen,
    Pc.inCallback]

/-- A thread that takes a step has been started and has not come to its end. -/
theorem LocalMove.started (h : LocalMove t now e T T' es) : T.pc ≠ .notStarted ∧
    T.pc ≠ .finished ∧ T.pc ≠ .destroyed ∧ T'.pc ≠ .notStarted ∧ T'.pc ≠ .destroyed := by
  cases h
  case wakeReady hpc =>
    dsimp only
    split <;> simp [hpc]
  case cbRelock s hpc _ => cases s <;> simp [hpc, Site.resume]
  all_goals simp [*, completing, writeCleared, serverChosen]

theorem LocalMove.prevThread (h : LocalMove t now e T T' es) : T'.prevThread = T.prevThread := by
  cases h <;> rfl

end LookupThread

namespace Sys
variable {act : Action} {s s' : Sys}

/-! ## the API calls in progress -/

/-- The API calls in progress, the program counters and `dns::mutex` fit together. -/
structure Calls (s : Sys) : Prop where
  born : ∀ t, (s.threads t).pc ≠ .notStarted → t < s.nextThread
  newest : ∀ t, s.thread = some t → t + 1 = s.nextThread ∧ (s.threads t).pc ≠ .destroyed
  prev : ∀ t p, (s.threads t).prevThread = some p → p < t
  holder : ∀ a, (s.calls a).onThread ≠ none →
    s.dnsMutex = some a ∧ s.thread = (s.calls a).onThread
  drain : ∀ t, (s.threads t).pc.openFailed = true →
    s.dnsMutex = some (.lookup t) ∧ (s.calls (.lookup t)).onThread = none
  nested : ∀ t, s.calls (.lookup t) ≠ .idle →
    (s.calls (.lookup t)).isResolve = true ∧ ∃ c, (s.threads t).pc = .cbRun c
  regNew : ∀ a q t, s.calls a = .resolveRegister q t true → (s.threads t).pc = .notStarted
  regOld : ∀ a q t, s.calls a = .resolveRegister q t false → (s.threads t).pc ≠ .notStarted
  starting : ∀ t, s.thread = some t → (s.threads t).pc = .notStarted →
    s.dnsMutex ≠ none ∧ ∀ a, s.dnsMutex = some a → (s.calls a).starts = some t
  fresh : ∀ t, (s.threads t).pc = .notStarted →
    s.threads t = { prevThread := (s.threads t).prevThread }
  absent : ∀ a q t b, s.calls a = .resolveRegister q t b → (s.threads t).tables.find q.hnr = none

theorem calls_init (now : ℕ) : Calls (Sys.init now) where
  born t h := absurd rfl h
  newest t h := by cases h
  prev t p h := by cases h
  holder a h := absurd rfl h
  drain t h := by cases h
  nested t h := absurd rfl h
  regNew a q t h := by cases h
  regOld a q t h := by cases h
  starting t h := by cases h
  fresh t h := rfl
  absent a q t b h := by cases h

theorem Calls.of_onThread (h : Calls s) {a : Actor} {t : ℕ} (ha : (s.calls a).onThread = some t) :
    s.dnsMutex = some a ∧ s.thread = some t := by
  obtain ⟨hd, hcur⟩ := h.holder a (by rw [ha]; exact Option.some_ne_none t)
  exact ⟨hd, hcur.trans ha⟩

theorem Calls.lt_of_thread (h : Calls s) {t : ℕ} (hcur : s.thread = some t) : t < s.nextThread :=
  (h.newest t hcur).1 ▸ Nat.lt_succ_self t

theorem Calls.lt_of_onThread (h : Calls s) {a : Actor} {t : ℕ}
    (ha : (s.calls a).onThread = some t) : t < s.nextThread :=
  h.lt_of_thread (h.of_onThread ha).2

/-- A lookup thread makes calls in a callback only. -/
theorem Calls.idle_of_pc (h : Calls s) {t : ℕ} (hpc : ∀ c, (s.threads t).pc ≠ .cbRun c) :
    s.calls (.lookup t) = .idle := by
  by_contra hne
  obtain ⟨_, c, hc⟩ := h.nested t hne
  exact hpc c hc

/-- `cancel()` and `clean_up()` are calls of client threads. -/
theorem Calls.not_lookup (h : Calls s) {a : Actor} (hidle : s.calls a ≠ .idle)
    (hres : (s.calls a).isResolve = false) (t : ℕ) : a ≠ .lookup t := by
  rintro rfl
  rw [(h.nested t hidle).1] at hres
  cases hres

/-- Only one API call holds `dns::mutex`. -/
theorem Calls.eq_of_onThread (h : Calls s) {a b : Actor} (ha : (s.calls a).onThread ≠ none)
    (hb : (s.calls b).onThread ≠ none) : a = b :=
  Option.some.inj ((h.holder a ha).1.symm.trans (h.holder b hb).1)

theorem runsCallbackOf_isSome {t : ℕ} (h : (s.runsCallbackOf (.lookup t)).isSome = true) :
    ∃ c, (s.threads t).pc = .cbRun c := by
  unfold runsCallbackOf at h
  dsimp only at h
  split at h
  · rename_i c hc
    exact ⟨c, hc⟩
  · cases h

section
variable (h : Calls s) (hm : Move act s s')
include h hm

theorem born_step : ∀ t, (s'.threads t).pc ≠ .notStarted → t < s'.nextThread := by
  intro t hne
  refine Nat.lt_of_lt_of_le ?_ hm.nextThread_le
  have hth := hm.thread t
  generalize s'.threads t = T' at hth hne
  cases hth with
  | same => exact h.born t hne
  | created => exact absurd rfl hne
  | registered a q b id hcall => exact h.lt_of_onThread (by rw [hcall]; rfl)
  | cancelled a x tb r hcall => exact h.lt_of_onThread (by rw [hcall]; rfl)
  | cancelMiss a x tb hcall => exact h.lt_of_onThread (by rw [hcall]; rfl)
  | cancelWait a x hcall => exact h.lt_of_onThread (by rw [hcall]; rfl)
  | cleanedUp a hcall => exact h.lt_of_onThread (by rw [hcall]; rfl)
  | toldToQuit a _ _ hcur => exact h.lt_of_thread hcur
  | startSending hcur => exact h.lt_of_thread hcur
  | joined u hpc hprev =>
    exact (h.prev u t hprev).trans (h.born u (by simp [hpc]))
  | joinedPrev hpc | openSocket hpc | openFailed hpc | queueEmpty hpc | popQueue _ _ _ hpc
      | drainedOpen hpc => exact h.born t (by simp [hpc])
  | own e T' es _ _ hl => exact h.born t hl.started.1

theorem newest_step : ∀ t, s'.thread = some t →
    t + 1 = s'.nextThread ∧ (s'.threads t).pc ≠ .destroyed := by
  have born := h.born
  have newest := h.newest
  have prev := h.prev
  have holder := h.holder
  clear h
  cases hm
  case own hl =>
    have := hl.started
    grind
  all_goals grind [registerIn, cancelled]

theorem prev_step : ∀ t p, (s'.threads t).prevThread = some p → p < t := by
  have newest := h.newest
  have prev := h.prev
  have holder := h.holder
  clear h
  cases hm
  case own hl =>
    have := hl.prevThread
    grind
  all_goals grind [registerIn, cancelled]

theorem holder_step : ∀ a, (s'.calls a).onThread ≠ none →
    s'.dnsMutex = some a ∧ s'.thread = (s'.calls a).onThread := by
  have holder := h.holder
  have drain := h.drain
  have nested := h.nested
  clear h
  cases hm
  all_goals grind

theorem drain_step : ∀ t, (s'.threads t).pc.openFailed = true →
    s'.dnsMutex = some (.lookup t) ∧ (s'.calls (.lookup t)).onThread = none := by
  have holder := h.holder
  have drain := h.drain
  have nested := h.nested
  clear h
  cases hm
  case own hd _ hl =>
    have := hl.openFailed hd
    grind
  all_goals grind [registerIn, cancelled]

theorem nested_step : ∀ t, s'.calls (.lookup t) ≠ .idle →
    (s'.calls (.lookup t)).isResolve = true ∧ ∃ c, (s'.threads t).pc = .cbRun c := by
  intro t hne
  -- the callback lasts as long as the call
  have hkept : s.calls (.lookup t) ≠ .idle → ∃ c, (s'.threads t).pc = .cbRun c := by
    intro hcalls
    obtain ⟨_, c, hc⟩ := h.nested t hcalls
    refine ⟨c, ?_⟩
    have hth := hm.thread t
    generalize s'.threads t = T' at hth ⊢
    cases hth with
    | same | cancelWait | toldToQuit | startSending | popQueue => exact hc
    | created _ ht =>
      have hlt := h.born t (by rw [hc]; exact nofun)
      exact absurd ht (Nat.ne_of_lt hlt)
    | registered a q b id hcall =>
      cases b with
      | true =>
        have hnew := h.regNew a q t hcall
        rw [hc] at hnew
        cases hnew
      | false => exact hc
    | cancelled | cancelMiss => exact (cancelled_pc _ _).trans hc
    | cleanedUp _ _ hj | joined _ _ _ hj =>
      unfold joinable at hj
      rw [hc] at hj
      cases hj
    | joinedPrev hpc | openSocket hpc | openFailed hpc | queueEmpty hpc | drainedOpen hpc =>
      rw [hc] at hpc
      cases hpc
    | own e T' es _ hidle => exact absurd (hidle c hc) hcalls
  have hcall := hm.call (.lookup t)
  generalize hold : s.calls (.lookup t) = c at hcall hkept
  generalize s'.calls (.lookup t) = c' at hcall hne ⊢
  cases hcall with
  | same => exact ⟨hold ▸ (h.nested t (hold ▸ hne)).1, hkept hne⟩
  | resolve q hcb hth =>
    obtain ⟨c, hc⟩ := runsCallbackOf_isSome hcb
    exact ⟨rfl, c, hth ▸ hc⟩
  | cancel _ hclient | cleanUp hclient => cases hclient
  | creates c q prev hc => exact ⟨rfl, hkept (by rcases hc with rfl | ⟨_, rfl⟩ <;> exact nofun)⟩
  | checks | reuses => exact ⟨rfl, hkept nofun⟩
  | removes | waits | joins =>
    exact absurd rfl (h.not_lookup (by rw [hold]; exact nofun) (by rw [hold]; rfl) t)
  | returns => exact absurd rfl hne

omit hm in
/-- Nobody else registers a request while `a` is in `resolve()`. -/
theorem not_registered {a b : Actor} {q q' : Query} {t u : ℕ} {ns ns' : Bool} {id : UInt16}
    (ha : s.calls a = .resolveRegister q t ns) (ha' : s'.calls a ≠ .idle)
    (hb : s.calls b = .resolveRegister q' u ns')
    (hs' : s' = (s.registered b q' u id ns').returnFrom b) : False := by
  obtain rfl := h.eq_of_onThread (a := a) (b := b) (by rw [ha]; exact nofun)
    (by rw [hb]; exact nofun)
  refine ha' ?_
  rw [hs']
  exact Function.update_self _ _ _

theorem regNew_step : ∀ a q t, s'.calls a = .resolveRegister q t true →
    (s'.threads t).pc = .notStarted := by
  intro a q t ha'
  have hcall := hm.call a
  rw [ha'] at hcall
  generalize ha : s.calls a = c at hcall
  cases hcall with
  | creates c q prev _ hnew => rw [hnew]
  | same =>
    have hns := h.regNew a q t ha
    obtain ⟨hd, hcur⟩ := h.of_onThread (a := a) (t := t) (by rw [ha]; rfl)
    have hth := hm.thread t
    generalize s'.threads t = T' at hth ⊢
    cases hth with
    | same | cancelWait | toldToQuit | startSending | popQueue => exact hns
    | created => rfl
    | registered b q' ns id hb _ _ _ hs' =>
      exact (not_registered h ha (by rw [ha']; exact nofun) hb hs').elim
    | cancelled | cancelMiss => exact (cancelled_pc _ _).trans hns
    | cleanedUp b hb =>
      obtain rfl := h.eq_of_onThread (a := a) (b := b) (by rw [ha]; exact nofun)
        (by rw [hb]; exact nofun)
      rw [ha] at hb
      cases hb
    | joined u hpc hprev =>
      -- the thread is the newest one
      have hu := h.born u (by rw [hpc]; exact nofun)
      have hlt := h.prev u t hprev
      have hlast := (h.newest t hcur).1
      omega
    | joinedPrev hpc | openSocket hpc | openFailed hpc | queueEmpty hpc | drainedOpen hpc =>
      rw [hns] at hpc
      cases hpc
    | own _ _ _ _ _ hl => exact absurd hns hl.started.1

theorem regOld_step : ∀ a q t, s'.calls a = .resolveRegister q t false →
    (s'.threads t).pc ≠ .notStarted := by
  intro a q t ha'
  have hcall := hm.call a
  rw [ha'] at hcall
  generalize ha : s.calls a = c at hcall
  cases hcall with
  | reuses _ _ _ hexit hth =>
    intro hns
    rw [hth] at hns
    rw [h.fresh t hns] at hexit
    cases hexit
  | same =>
    have hne := h.regOld a q t ha
    have hth := hm.thread t
    generalize s'.threads t = T' at hth ⊢
    cases hth with
    | same | cancelWait | toldToQuit | startSending | popQueue => exact hne
    | created _ ht =>
      have hlt := h.lt_of_onThread (a := a) (t := t) (by rw [ha]; rfl)
      exact absurd ht (Nat.ne_of_lt hlt)
    | registered b q' ns =>
      cases ns with
      | true => exact nofun
      | false => exact hne
    | cancelled | cancelMiss => exact fun hns => hne ((cancelled_pc _ _).symm.trans hns)
    | cleanedUp | joined | joinedPrev | openSocket | openFailed | queueEmpty | drainedOpen =>
      exact nofun
    | own _ _ _ _ _ hl => exact hl.started.2.2.2.1

theorem starting_step : ∀ t, s'.thread = some t → (s'.threads t).pc = .notStarted →
    s'.dnsMutex ≠ none ∧ ∀ a, s'.dnsMutex = some a → (s'.calls a).starts = some t := by
  have holder := h.holder
  have newest := h.newest
  have born := h.born
  have prev := h.prev
  have regNew := h.regNew
  have starting := h.starting
  have drain := h.drain
  have fresh := h.fresh
  clear h
  cases hm
  case own hl =>
    have := hl.started
    grind
  case tooManyRequests a q t needStart hc hmu hid =>
    -- a new thread has no ids, so that there is a free one
    have hnew : (s.threads t).pc = .notStarted → False := by
      intro hpc
      rw [fresh t hpc] at hid
      cases hid
    grind
  all_goals grind [registerIn, cancelled, joinable]

theorem fresh_step : ∀ t, (s'.threads t).pc = .notStarted →
    s'.threads t = { prevThread := (s'.threads t).prevThread } := by
  intro t hns
  -- only the call that has created a thread works on it before it is started
  have hstarts : ∀ a, (s.threads t).pc = .notStarted → (s.calls a).onThread = some t →
      (s.calls a).starts = some t := by
    intro a hpc ha
    obtain ⟨hd, hcur⟩ := h.of_onThread ha
    exact (h.starting t hcur hpc).2 a hd
  have hth := hm.thread t
  generalize s'.threads t = T' at hth hns ⊢
  cases hth with
  | same => exact h.fresh t hns
  | created => rfl
  | registered a q b id hcall =>
    cases b with
    | true => cases hns
    | false => exact absurd hns (h.regOld a q t hcall)
  | cancelled a x tb r hcall =>
    rw [cancelled_pc] at hns
    have ha := hstarts a hns (by rw [hcall]; rfl)
    rw [hcall] at ha
    cases ha
  | cancelMiss a x tb hcall =>
    have ha := hstarts a ((cancelled_pc _ _).symm.trans hns) (by rw [hcall]; rfl)
    rw [hcall] at ha
    cases ha
  | cancelWait a x hcall =>
    have ha := hstarts a hns (by rw [hcall]; rfl)
    rw [hcall] at ha
    cases ha
  | toldToQuit a _ hd hcur => exact absurd hd (h.starting t hcur hns).1
  | startSending _ hmode =>
    rw [h.fresh t hns] at hmode
    exact absurd rfl hmode
  | popQueue _ _ _ hpc =>
    have hns' : (s.threads t).pc = .notStarted := hns
    rw [hpc] at hns'
    cases hns'
  | own e T' es _ _ hl => exact absurd hns hl.started.2.2.2.1
  | cleanedUp | joined | joinedPrev | openSocket | openFailed | queueEmpty | drainedOpen =>
    cases hns

theorem absent_step : ∀ a q t b, s'.calls a = .resolveRegister q t b →
    (s'.threads t).tables.find q.hnr = none := by
  intro a q t b ha'
  have hcall := hm.call a
  rw [ha'] at hcall
  generalize ha : s.calls a = c at hcall
  cases hcall with
  | creates c q prev _ hnew =>
    rw [hnew]
    exact Tables.find_empty q.hnr
  | reuses _ _ hfind _ hth =>
    rw [hth]
    exact hfind
  | same =>
    have hfind := h.absent a q t b ha
    have hother : ∀ b x, s.calls b ≠ .cancelRemove x t := by
      intro b x hb
      obtain rfl := h.eq_of_onThread (a := a) (b := b) (by rw [ha]; exact nofun)
        (by rw [hb]; exact nofun)
      rw [ha] at hb
      cases hb
    have hth := hm.thread t
    generalize s'.threads t = T' at hth ⊢
    cases hth with
    | registered b' q' ns id hb _ _ _ hs' =>
      exact (not_registered h ha (by rw [ha']; exact nofun) hb hs').elim
    | cancelled b x tb r hb | cancelMiss b x tb hb => exact absurd hb (hother b x)
    | created | cleanedUp | joined => rfl
    | own _ _ _ _ _ hl =>
      have hops := hl.tables (C := fun _ => True) fun _ _ _ _ _ _ => trivial
      exact hops.find_none hfind
    | _ => exact hfind

theorem calls_step : Calls s' where
  born := born_step h hm
  newest := newest_step h hm
  prev := prev_step h hm
  holder := holder_step h hm
  drain := drain_step h hm
  nested := nested_step h hm
  regNew := regNew_step h hm
  regOld := regOld_step h hm
  starting := starting_step h hm
  fresh := fresh_step h hm
  absent := absent_step h hm

end

/-! ## the mutexes of the lookup threads -/

/-- The owner of each mutex of a lookup thread is determined by the program counters. -/
structure Mutexes (s : Sys) : Prop where
  locked : ∀ t, (s.threads t).pc.loopLocked = true → (s.threads t).mutex = some (.lookup t)
  waits : ∀ a t, (s.calls a).waitsIn = some t → (s.threads t).mutex = some a
  owner : ∀ t a, (s.threads t).mutex = some a → (s.calls a).waitsIn = some t ∨
    (a = .lookup t ∧ ((s.threads t).pc.loopLocked = true ∨ (s.threads t).pc.openFailed = true ∨
      (s.threads t).pc = .finished))
  completed : ∀ t, (s.threads t).completedMutex =
    if (s.threads t).pc.inCallback then some (.lookup t) else none

theorem mutexes_init (now : ℕ) : Mutexes (Sys.init now) where
  locked t h := by cases h
  waits a t h := by cases h
  owner t a h := by cases h
  completed t := rfl

section
variable (hc : Calls s) (h : Mutexes s) (hm : Move act s s')
include hc h hm

theorem locked_step : ∀ t, (s'.threads t).pc.loopLocked = true →
    (s'.threads t).mutex = some (.lookup t) := by
  intro t hloop
  -- nobody else takes the mutex of a thread that holds it
  have htaken : (s.threads t).pc.loopLocked = true → (s.threads t).mutex ≠ none := by
    intro hl hnone
    rw [h.locked t hl] at hnone
    cases hnone
  have hth := hm.thread t
  generalize s'.threads t = T' at hth hloop ⊢
  cases hth with
  | same | toldToQuit | startSending => exact h.locked t hloop
  | registered a q b id hcall hmu =>
    cases b with
    | true => cases hloop
    | false => exact absurd hmu (htaken hloop)
  | cancelled a x tb r _ hmu =>
    rw [cancelled_pc] at hloop
    exact absurd hmu (htaken hloop)
  | cancelMiss a x tb _ hmu =>
    dsimp only at hloop
    rw [cancelled_pc] at hloop
    exact absurd hmu (htaken hloop)
  | cancelWait a x hcall =>
    have hown : (s.threads t).mutex = some a := h.waits a t (by rw [hcall]; rfl)
    rw [h.locked t hloop] at hown
    have hclient := hc.not_lookup (by rw [hcall]; exact nofun) (by rw [hcall]; rfl) t
    exact absurd (Option.some.inj hown).symm hclient
  | popQueue _ _ _ hpc =>
    have hloop' : (s.threads t).pc.loopLocked = true := hloop
    rw [hpc] at hloop'
    cases hloop'
  | own e T' es hd _ hl =>
    rcases hl.mutex_move hd with ⟨hmu, hpc⟩ | ⟨_, hpc, _⟩ | ⟨_, hmu, _⟩
    · rw [hmu]
      exact h.locked t (hpc ▸ hloop)
    · rw [hpc] at hloop
      cases hloop
    · exact hmu
  | created | cleanedUp | joined | joinedPrev | openSocket | openFailed | queueEmpty
      | drainedOpen => cases hloop

theorem waits_step : ∀ a t, (s'.calls a).waitsIn = some t →
    (s'.threads t).mutex = some a := by
  have holder := hc.holder
  have drain := hc.drain
  have nested := hc.nested
  have newest := hc.newest
  have born := hc.born
  have prev := hc.prev
  have locked := h.locked
  have waits := h.waits
  clear h hc
  cases hm
  case own hd _ hl =>
    have := hl.mutex_move hd
    grind
  all_goals grind [registerIn, cancelled]

theorem owner_step : ∀ t a, (s'.threads t).mutex = some a → (s'.calls a).waitsIn = some t ∨
    (a = .lookup t ∧ ((s'.threads t).pc.loopLocked = true ∨ (s'.threads t).pc.openFailed = true ∨
      (s'.threads t).pc = .finished)) := by
  have holder := hc.holder
  have nested := hc.nested
  have regNew := hc.regNew
  have drain := hc.drain
  have locked := h.locked
  have waits := h.waits
  have owner := h.owner
  clear h hc
  cases hm
  case own hd _ hl =>
    have := hl.mutex_move hd
    have := hl.openFailed hd
    have := hl.started
    grind
  all_goals grind [registerIn, cancelled]

theorem completed_step : ∀ t, (s'.threads t).completedMutex =
    if (s'.threads t).pc.inCallback then some (.lookup t) else none := by
  intro t
  have hcomp := h.completed t
  have hth := hm.thread t
  generalize s'.threads t = T' at hth ⊢
  cases hth with
  | same | cancelWait | toldToQuit | startSending | popQueue => exact hcomp
  | created | cleanedUp | joined => rfl
  | registered a q b id hcall =>
    cases b with
    | true =>
      rw [hc.regNew a q t hcall] at hcomp
      exact hcomp
    | false => exact hcomp
  | cancelled => rw [cancelled_completedMutex, cancelled_pc, hcomp]
  | cancelMiss =>
    show (cancelled _ _).completedMutex = if (cancelled _ _).pc.inCallback then _ else _
    rw [cancelled_completedMutex, cancelled_pc, hcomp]
  | joinedPrev hpc | openSocket hpc | openFailed hpc | queueEmpty hpc | drainedOpen hpc =>
    rw [hpc] at hcomp
    exact hcomp
  | own e T' es _ _ hl =>
    rcases hl.completed_move with ⟨hmu, hpc⟩ | ⟨_, hmu, _, hpc⟩ | ⟨hmu, _, hpc⟩
    · rw [hmu, hpc]
      exact hcomp
    · rw [hmu, hpc]
      rfl
    · rw [hmu, hpc]
      rfl

end

/-- **Who holds which mutex,** in every state of every run. -/
structure Locks (s : Sys) : Prop extends Calls s, Mutexes s

theorem locks {G : Sys → Action → Prop} (hr : resolverSystem.Reach G s) : Locks s := by
  refine hr.invariant (I := Locks) ?_ ?_
  · rintro s ⟨now, rfl⟩
    exact { calls_init now, mutexes_init now with }
  · intro s act s' _ h _ hs
    have hm := sysMove hs
    exact {
      calls_step h.toCalls hm with
      locked := locked_step h.toCalls h.toMutexes hm
      waits := waits_step h.toCalls h.toMutexes hm
      owner := owner_step h.toCalls h.toMutexes hm
      completed := completed_step h.toCalls h.toMutexes hm }

/-! ## the holder of `dns::mutex` -/

/-- `dns::mutex` is held by an API call, or by a thread that drains after a failed `open()`. -/
def DnsHeld (s : Sys) : Prop := ∀ a, s.dnsMutex = some a → (s.calls a).onThread ≠ none ∨
  ∃ t, a = .lookup t ∧ (s.threads t).pc.openFailed = true

theorem dnsHeld_step (hL : Locks s) (holds : DnsHeld s) (hm : Move act s s') : DnsHeld s' := by
  have holder := hL.holder
  have drain := hL.drain
  unfold DnsHeld at holds ⊢
  clear hL
  cases hm
  case own hd _ hl =>
    have := hl.openFailed hd
    grind
  all_goals grind [registerIn, cancelled, joinable]

theorem dnsHeld {G : Sys → Action → Prop} (hr : resolverSystem.Reach G s) : DnsHeld s := by
  refine hr.invariant (I := DnsHeld) ?_ ?_
  · rintro s ⟨now, rfl⟩
    exact nofun
  · intro s act s' hr h _ hs
    exact dnsHeld_step (locks hr) h (sysMove hs)

end Sys
end Setka
