import Setka.Dns.Deadlock

/-!
# What the lookup thread unlocks

`CallCallback` unlocks `this->mutex`, calls the user code and locks it again.  It is reached from
the main loop, which holds the mutex, and from `RemoveAllResolvers` after a failed `socket.open()`,
which holds `dns::mutex` instead.

* `OwnsItsMutexes`      what is meant: the mutex that is unlocked is held, nothing but
                        `completedMutex` is held in a callback, and nothing at all after `run()`;
* `FailsIdle`           the condition on a step: when `socket.open()` fails, no request is left;
* `owns_its_mutexes`    under it, the property holds in every state of every run;
* `failed_open_unlocks` without it, a mutex is unlocked that is not held.
-/

namespace Setka

/-- `run()` returns from its last step, or from the drain after a failed `open()`. -/
theorem LookupThread.LocalMove.returns {t now : ℕ} {e : Env} {T T' : LookupThread}
    {es : List Event} (h : LookupThread.LocalMove t now e T T' es) (hpc : T'.pc = .finished) :
    (T.pc = .leave ∧ T'.mutex = T.mutex) ∨ T.pc = .drain .openFailed := by
  cases h
  case left h => exact .inl ⟨h, rfl⟩
  case drainedOpen h _ => exact .inr h
  case cbRelock s _ _ => cases s <;> cases hpc
  case wakeReady =>
    dsimp only at hpc
    split at hpc <;> cases hpc
  case sent h _ _ _ =>
    have hpc' : T.pc = .finished := hpc
    rw [h] at hpc'
    cases hpc'
  all_goals cases hpc

namespace Sys

variable {act : Action} {s s' : Sys}

/-! ## the property -/

/-- no mutex of a lookup thread but `completedMutex` of `t` is held by `t` -/
def HoldsNoOther (s : Sys) (t : ℕ) : Prop :=
  ∀ u, (s.threads u).mutex ≠ some (.lookup t) ∧
    ((s.threads u).completedMutex = some (.lookup t) → u = t)

structure OwnsItsMutexes (s : Sys) : Prop where
  /-- the next step unlocks `this->mutex` -/
  unlocks : ∀ t c, (s.threads t).pc = .cbLock c → (s.threads t).mutex = some (.lookup t)
  /-- `dns::mutex` is taken by a `resolve()` of the callback only -/
  callback : ∀ t c, (s.threads t).pc = .cbRun c → s.HoldsNoOther t ∧
    (s.dnsMutex = some (.lookup t) → (s.calls (.lookup t)).onThread ≠ none)
  returned : ∀ t, (s.threads t).pc = .finished → s.HoldsNoOther t ∧
    s.dnsMutex ≠ some (.lookup t) ∧ (s.threads t).completedMutex ≠ some (.lookup t)

/-! ## the condition -/

/-- When `socket.open()` fails, all requests have been cancelled. -/
def FailsIdle (s : Sys) : Action → Prop
  | .run t e => (s.threads t).pc = .openSocket → e.openOk = false →
    (s.threads t).tables.resolversMap = []
  | _ => True

instance (s : Sys) (act : Action) : Decidable (FailsIdle s act) := by
  apply @Action.casesOn _ act <;> intros <;> dsimp only [FailsIdle] <;> infer_instance

/-- A thread that drains after a failed `open()` has done so itself. -/
theorem Move.of_openSocket (h : Move act s s') {t : ℕ} (hpc : (s.threads t).pc = .openSocket)
    (hpc' : (s'.threads t).pc = .drain .openFailed) : ∃ e, act = .run t e ∧ e.openOk = false := by
  cases h
  case openFailed u e ho _ _ =>
    by_cases hu : t = u
    · exact ⟨e, by rw [hu], ho⟩
    · grind
  case own hl =>
    have := hl.openFailed
    grind
  all_goals grind [registerIn, cancelled]

/-! ## the invariant -/

/-- A drain after a failed `open()` has nothing to do, and no thread keeps its mutex. -/
structure DrainsIdle (s : Sys) : Prop where
  drains : ∀ t, (s.threads t).pc.openFailed = true → (s.threads t).pc = .drain .openFailed ∧
    (s.threads t).tables.resolversMap = [] ∧ (s.threads t).mutex ≠ some (.lookup t)
  finished : ∀ t, (s.threads t).pc = .finished → (s.threads t).mutex ≠ some (.lookup t)

/-- Outside the main loop a thread does not own its mutex. -/
theorem Locks.not_owner (hL : Locks s) {t : ℕ} (hpc : ∀ c, (s.threads t).pc ≠ .cbRun c)
    (hl : (s.threads t).pc.loopLocked = false) (ho : (s.threads t).pc.openFailed = false)
    (hf : (s.threads t).pc ≠ .finished) : (s.threads t).mutex ≠ some (.lookup t) := by
  intro hmu
  rcases hL.owner t _ hmu with hw | ⟨_, hl' | ho' | hf'⟩
  · rw [hL.idle_of_pc hpc] at hw
    cases hw
  · rw [hl] at hl'
    cases hl'
  · rw [ho] at ho'
    cases ho'
  · exact hf hf'

section
variable (hL : Locks s) (h : DrainsIdle s) (hm : Move act s s')
include hL h hm

theorem drains_idle_step (hg : FailsIdle s act) : ∀ t, (s'.threads t).pc.openFailed = true →
    (s'.threads t).pc = .drain .openFailed ∧ (s'.threads t).tables.resolversMap = [] ∧
      (s'.threads t).mutex ≠ some (.lookup t) := by
  intro t ht
  -- a thread that drains holds `dns::mutex`, so that no API call works on it
  have hfree : ∀ a, (s.calls a).onThread = some t → (s.threads t).pc.openFailed = false := by
    intro a ha
    by_contra ho
    obtain ⟨hd, hon⟩ := hL.drain t (by simpa using ho)
    have hd' := (hL.of_onThread ha).1
    rw [hd] at hd'
    rw [Option.some.inj hd', ha] at hon
    cases hon
  -- the socket has just failed to open
  have hfailed : (s.threads t).pc = .openSocket → (s'.threads t).pc = .drain .openFailed →
      (s.threads t).tables.resolversMap = [] ∧ (s.threads t).mutex ≠ some (.lookup t) := by
    intro hpc hpc'
    obtain ⟨e, rfl, ho⟩ := hm.of_openSocket hpc hpc'
    refine ⟨hg hpc ho, hL.not_owner ?_ ?_ ?_ ?_⟩
    all_goals simp [hpc, Pc.loopLocked, Pc.openFailed]
  have hold := h.drains t
  have hth := hm.thread t
  generalize s'.threads t = T' at hth ht hfailed ⊢
  cases hth with
  | same | toldToQuit | startSending => exact hold ht
  | registered a q b id hcall =>
    cases b with
    | true => cases ht
    | false =>
      have hno := hfree a (by rw [hcall]; rfl)
      exact absurd ht (by show ¬ (s.threads t).pc.openFailed = true; rw [hno]; exact nofun)
  | cancelled a x tb r hcall =>
    have hno := hfree a (by rw [hcall]; rfl)
    rw [cancelled_pc, hno] at ht
    cases ht
  | cancelMiss a x tb hcall =>
    have hno := hfree a (by rw [hcall]; rfl)
    have ht' : (cancelled (s.threads t) tb).pc.openFailed = true := ht
    rw [cancelled_pc, hno] at ht'
    cases ht'
  | cancelWait a x hcall =>
    have hno := hfree a (by rw [hcall]; rfl)
    have ht' : (s.threads t).pc.openFailed = true := ht
    rw [hno] at ht'
    cases ht'
  | popQueue _ _ _ hpc =>
    have ht' : (s.threads t).pc.openFailed = true := ht
    rw [hpc] at ht'
    cases ht'
  | openFailed hpc => exact ⟨rfl, hfailed hpc rfl⟩
  | own e T' es hd _ hl =>
    obtain ⟨hpc, hnil, _⟩ := hold ((hl.openFailed hd).symm.trans ht)
    exact absurd hnil (hd hpc)
  | created | cleanedUp | joined | joinedPrev | openSocket | queueEmpty | drainedOpen => cases ht

theorem finished_step : ∀ t, (s'.threads t).pc = .finished →
    (s'.threads t).mutex ≠ some (.lookup t) := by
  intro t ht
  have hold := h.finished t
  have hth := hm.thread t
  generalize s'.threads t = T' at hth ht ⊢
  cases hth with
  | same | toldToQuit | startSending => exact hold ht
  | registered a q b id hcall =>
    cases b with
    | true => cases ht
    | false => exact hold ht
  | cancelled a x tb r =>
    rw [cancelled_pc] at ht
    rw [cancelled_mutex]
    exact hold ht
  | cancelMiss a x tb hcall =>
    intro heq
    have hclient := hL.not_lookup (by rw [hcall]; exact nofun) (by rw [hcall]; rfl) t
    exact absurd (Option.some.inj heq) hclient
  | cancelWait => exact (Option.some_ne_none _).symm
  | popQueue _ _ _ hpc =>
    have ht' : (s.threads t).pc = .finished := ht
    rw [hpc] at ht'
    cases ht'
  | drainedOpen hpc => exact (h.drains t (by rw [hpc]; rfl)).2.2
  | own e T' es hd _ hl =>
    rcases hl.returns ht with ⟨hpc, hmu⟩ | hpc
    · rw [hmu]
      refine hL.not_owner ?_ ?_ ?_ ?_
      all_goals simp [hpc, Pc.loopLocked, Pc.openFailed]
    · exact absurd (h.drains t (by rw [hpc]; rfl)).2.1 (hd hpc)
  | created | cleanedUp | joined | joinedPrev | openSocket | openFailed | queueEmpty => cases ht

end

theorem drainsIdle (hr : resolverSystem.Reach FailsIdle s) : DrainsIdle s := by
  refine hr.invariant (I := DrainsIdle) ?_ ?_
  · rintro s ⟨now, rfl⟩
    exact ⟨nofun, nofun⟩
  · intro s act s' hr h hg hs
    have hL := locks hr
    have hm := sysMove hs
    exact ⟨drains_idle_step hL h hm hg, finished_step hL h hm⟩

/-! ## the result -/

/-- No lookup thread holds a mutex of another one, nor its own outside of the main loop. -/
theorem holdsNoOther (hL : Locks s) {t : ℕ} (hloop : (s.threads t).pc.loopLocked = false)
    (ho : (s.threads t).pc.openFailed = false)
    (hf : (s.threads t).pc = .finished → (s.threads t).mutex ≠ some (.lookup t)) :
    s.HoldsNoOther t := by
  intro u
  constructor
  · intro hmu
    rcases hL.owner u _ hmu with hw | ⟨heq, hpc⟩
    · obtain ⟨hon, hres⟩ := Call.onThread_of_waitsIn hw
      refine absurd rfl (hL.not_lookup ?_ hres t)
      intro hidle
      rw [hidle] at hon
      cases hon
    · cases heq
      rcases hpc with hpc | hpc | hpc
      · rw [hloop] at hpc
        cases hpc
      · rw [ho] at hpc
        cases hpc
      · exact hf hpc hmu
  · intro hcm
    rw [hL.completed u] at hcm
    split at hcm
    · cases hcm
      rfl
    · cases hcm

end Sys

/-- **The lookup thread owns the mutexes it unlocks,** holds no other in a callback and none after
`run()`, in every run in which `socket.open()` fails only when no request is left. -/
theorem owns_its_mutexes {s : Sys} (hr : resolverSystem.Reach Sys.FailsIdle s) :
    s.OwnsItsMutexes := by
  have hL := Sys.locks hr
  have h := Sys.drainsIdle hr
  have hnotFailed : ∀ t, (s.threads t).pc ≠ .drain .openFailed →
      (s.threads t).pc.openFailed = false := by
    intro t hne
    by_contra ho
    exact hne (h.drains t (by simpa using ho)).1
  refine ⟨fun t c hpc => ?_, fun t c hpc => ?_, fun t hpc => ?_⟩
  · have ho := hnotFailed t (by rw [hpc]; exact nofun)
    refine hL.locked t ?_
    rw [hpc] at ho ⊢
    show (!c.site.openFailed) = true
    rw [show c.site.openFailed = false from ho]
    rfl
  · have ho := hnotFailed t (by rw [hpc]; exact nofun)
    refine ⟨Sys.holdsNoOther hL (by rw [hpc]; rfl) ho (by rw [hpc]; exact nofun), fun hd => ?_⟩
    refine (Sys.dnsHeld hr _ hd).resolve_right ?_
    rintro ⟨u, heq, hu⟩
    cases heq
    rw [ho] at hu
    cases hu
  · have ho := hnotFailed t (by rw [hpc]; exact nofun)
    refine ⟨Sys.holdsNoOther hL (by rw [hpc]; rfl) ho (h.finished t), fun hd => ?_, ?_⟩
    · rcases Sys.dnsHeld hr _ hd with hon | ⟨u, heq, hu⟩
      · refine hon ?_
        rw [hL.idle_of_pc fun c => by rw [hpc]; exact nofun]
        rfl
      · cases heq
        rw [ho] at hu
        cases hu
    · rw [hL.completed t, hpc]
      exact nofun

set_option maxRecDepth 10000 in
/-- a callback after an error of the socket -/
theorem owns_its_mutexes_callback : ∃ s, resolverSystem.run Sys.FailsIdle runCallback
      (Sys.init 0) = some s ∧ (s.threads 0).completedMutex = some (.lookup 0) ∧
    s.OwnsItsMutexes := by
  obtain ⟨s, hs, hp⟩ := Machine.exists_run resolverSystem Sys.FailsIdle runCallback (Sys.init 0)
    (fun s => (s.threads 0).completedMutex = some (.lookup 0)) (by decide)
  exact ⟨s, hs, of_decide_eq_true hp, owns_its_mutexes ((reach_init _ 0).run hs)⟩

/-- A request is made, the socket cannot be opened, and the thread reports the error and ends. -/
def openFails : List Action :=
  callSteps (.client 0) (.resolve (queryA 1)) 2 ++ lookupSteps 0 2 ++
  .run 0 { openOk := false } :: lookupSteps 0 6

set_option maxRecDepth 10000 in
/-- The thread has unlocked a mutex it did not hold, and leaves it locked. -/
theorem failed_open_unlocks : ¬ ∀ s, Run s → s.OwnsItsMutexes := by
  intro h
  obtain ⟨s, hs, hp⟩ := exists_run_reach (fun _ _ => True) openFails
    (fun s => .badUnlock ∈ s.log ∧ (s.threads 0).pc = .finished ∧
      (s.threads 0).mutex = some (.lookup 0)) 0 (by decide)
  obtain ⟨_, hpc, hmu⟩ := of_decide_eq_true hp
  exact ((h s hs).returned 0 hpc).1 0 |>.1 hmu

end Setka
