import Setka.Dns.Containers

/-!
# Deadlocks

A thread waits for a mutex, or for the end of a lookup thread.  `dns::mutex` is held by `cancel()`
while it waits for a callback to return, by `clean_up()` while it waits for the lookup thread to
end, and by a lookup thread that reports its requests after a failed `socket.open()`; a callback
that calls `resolve()`, and a thread that opens its socket, need the same mutex.

* `Resource`, `wants`, `holder`   what a thread waits for, and who can end this;
* `Deadlocked`            a set of threads that wait for each other;
* `AvoidsDeadlock`        the condition on the steps: nobody waits for a lookup thread that has
                          still to take `dns::mutex`, with this mutex held;
* `Unblocked`             the invariant;
* `no_deadlock`           with the condition no run comes to a deadlock: along two successive
                          waits the rank decreases;
* `cancel_deadlocks`      `cancel()` against a `resolve()` in a callback.
-/

namespace Setka

/-! ## waiting -/

/-- what a thread can wait for: a mutex, or the end of a lookup thread -/
inductive Resource where
  | dnsMutex
  | mutex (t : ℕ)
  | completedMutex (t : ℕ)
  | termination (t : ℕ)
deriving DecidableEq, Repr

/-- what an API call takes next, if this may block -/
def Call.wants : Call → Option Resource
  | .resolveLock _ | .cancelLock _ | .cleanUpLock => some .dnsMutex
  | .resolveCheck _ t | .resolveRegister _ t _ | .cancelRemove _ t => some (.mutex t)
  | .cancelWait _ t => some (.completedMutex t)
  | .cleanUpJoin t => some (.termination t)
  | .idle => none

/-- what `run()` takes next, if this may block -/
def LookupThread.wants (t : ℕ) (T : LookupThread) : Option Resource :=
  match T.pc with
  | .openSocket => some .dnsMutex
  | .lockMutex | .cbRelock _ => some (.mutex t)
  | .cbLock _ => some (.completedMutex t)
  | .joinPrev => T.prevThread.map .termination
  | _ => none

namespace Sys

/-- what a thread takes next: in its API call, or in `run()` -/
def wants (s : Sys) (a : Actor) : Option Resource :=
  if s.calls a ≠ .idle then (s.calls a).wants
  else match a with
    | .client _ => none
    | .lookup t => (s.threads t).wants t

/-- the thread that has to act before a resource is free -/
def holder (s : Sys) : Resource → Option Actor
  | .dnsMutex => s.dnsMutex
  | .mutex t => (s.threads t).mutex
  | .completedMutex t => (s.threads t).completedMutex
  | .termination t => if joinable (s.threads t) then none else some (.lookup t)

/-- `a` waits for a mutex held by `b`, or for the end of `b` -/
def WaitsFor (s : Sys) (a b : Actor) : Prop := ∃ res, s.wants a = some res ∧ s.holder res = some b

/-- There is a set of threads each of which waits for a thread of the set. -/
def Deadlocked (s : Sys) : Prop :=
  ∃ S : Set Actor, S.Nonempty ∧ ∀ a ∈ S, ∃ b ∈ S, s.WaitsFor a b

end Sys

/-! ## the condition -/

theorem Pc.of_not_opened {pc : Pc} (h : pc.opened = false) :
    pc.loopLocked = false ∧ pc.openFailed = false ∧ pc.inCallback = false := by
  cases pc with
  | notStarted | joinPrev | initDNS | openSocket => exact ⟨rfl, rfl, rfl⟩
  | _ => cases h

/-- in `CallCallback`, after `this->mutex` has been left -/
@[grind =]
def Pc.unlocked : Pc → Bool
  | .cbEnter _ | .cbRun _ | .cbRelock _ => true
  | .notStarted | .joinPrev | .initDNS | .openSocket => false
  | .loopHead | .lockMutex | .checkError | .receive | .checkWrite | .send | .sample => false
  | .wrap | .expire | .drain _ | .cbLock _ => false
  | .wait _ | .popQueue | .leave | .finished | .destroyed => false

/-- a call of `resolve()` that waits for `dns::mutex` -/
@[grind =]
def Call.isResolveLock : Call → Bool
  | .resolveLock _ => true
  | .idle | .resolveCheck _ _ | .resolveRegister _ _ _ => false
  | .cancelLock _ | .cancelRemove _ _ | .cancelWait _ _ | .cleanUpLock | .cleanUpJoin _ => false

namespace LookupThread
variable {t now : ℕ} {e : Env} {T T' : LookupThread} {es : List Event}

/-- `run()` waits to open its socket or for the thread before it, for its mutex, or for
`completedMutex`. -/
theorem wants_cases {res : Resource} (h : T.wants t = some res) :
    (T.pc.opened = false ∧ (res = .dnsMutex ∨ ∃ p, T.prevThread = some p ∧ res = .termination p)) ∨
    (T.pc.loopLocked = false ∧ T.pc.inCallback = false ∧ res = .mutex t ∧ T.pc ≠ .finished ∧
      (T.pc.openFailed = true → T.pc.unlocked = true)) ∨
    (T.pc.inCallback = false ∧ res = .completedMutex t) := by
  unfold wants at h
  split at h
  · rename_i hpc
    cases h
    exact .inl ⟨by rw [hpc]; rfl, .inl rfl⟩
  · rename_i hpc
    cases h
    rw [hpc]
    exact .inr (.inl ⟨rfl, rfl, rfl, nofun, nofun⟩)
  · rename_i hpc
    cases h
    rw [hpc]
    exact .inr (.inl ⟨rfl, rfl, rfl, nofun, fun _ => rfl⟩)
  · rename_i hpc
    cases h
    rw [hpc]
    exact .inr (.inr ⟨rfl, rfl⟩)
  · rename_i hpc
    obtain ⟨p, hp, rfl⟩ := Option.map_eq_some_iff.mp h
    exact .inl ⟨by rw [hpc]; rfl, .inr ⟨p, hp, rfl⟩⟩
  · cases h

theorem LocalMove.opened (h : LocalMove t now e T T' es) (ho : T.pc.opened = true) :
    T'.pc.opened = true := by
  cases h
  case initDNS hpc =>
    rw [hpc] at ho
    cases ho
  case cbRelock s _ _ => cases s <;> rfl
  case wakeReady => dsimp only; split <;> rfl
  case sent => exact ho
  all_goals rfl

theorem LocalMove.unlocked (h : LocalMove t now e T T' es) (hu : T'.pc.unlocked = true) :
    T'.mutex = none ∨ (T'.mutex = T.mutex ∧ T.pc.unlocked = true) := by
  cases h
  case cbLock => exact .inl rfl
  case cbEnter hpc | cbReturn hpc =>
    rw [hpc]
    exact .inr ⟨rfl, rfl⟩
  case cbRelock s _ _ => cases s <;> cases hu
  case wakeReady => dsimp only at hu; split at hu <;> cases hu
  case sent hpc _ _ _ =>
    have hu' : T.pc.unlocked = true := hu
    rw [hpc] at hu'
    cases hu'
  all_goals cases hu

end LookupThread

namespace Sys

/-- `dns::mutex` is held until the lookup thread `t` has left its callback -/
def heldFor (s : Sys) (t : ℕ) : Bool :=
  match s.dnsMutex with
  | none => false
  | some a => a == .lookup t || match s.calls a with
    | .cancelWait _ u => u == t
    | .cleanUpJoin _ => true
    | _ => false

/-- A callback calls `resolve()` only while `dns::mutex` is not held until it returns; `cancel()`
waits for a callback, and `clean_up()` for the end of the thread, only if no `resolve()` of a
callback waits for `dns::mutex`; and `clean_up()` finds the socket opened. -/
def AvoidsDeadlock (s : Sys) : Action → Prop
  | .call (.lookup t) (.resolve q) => q.hostName.length ≤ 253 → s.heldFor t = false
  | .api a => match s.calls a with
    | .cancelRemove x t =>
      (s.threads t).tables.find x = none → (s.calls (.lookup t)).isResolveLock = false
    | .cleanUpLock => ∀ t ∈ s.thread,
      (s.threads t).pc.opened = true ∧ (s.calls (.lookup t)).isResolveLock = false
    | _ => True
  | _ => True

instance (s : Sys) (act : Action) : Decidable (AvoidsDeadlock s act) := by
  unfold AvoidsDeadlock
  repeat (split; try infer_instance)
  all_goals infer_instance

/-! ## the invariant -/

structure Unblocked (s : Sys) : Prop where
  holds : ∀ a, s.dnsMutex = some a → (s.calls a).onThread ≠ none ∨
    ∃ t, a = .lookup t ∧ (s.threads t).pc.openFailed = true
  unlocked : ∀ t, (s.threads t).pc.unlocked = true → (s.threads t).mutex ≠ some (.lookup t)
  cancels : ∀ a x t, s.calls a = .cancelWait x t → (s.calls (.lookup t)).isResolveLock = false
  joins : ∀ a t, s.calls a = .cleanUpJoin t →
    (s.threads t).pc.opened = true ∧ (s.calls (.lookup t)).isResolveLock = false
  drains : ∀ t, (s.threads t).pc.openFailed = true → s.calls (.lookup t) = .idle

theorem unblocked_init (now : ℕ) : Unblocked (Sys.init now) where
  holds a h := by cases h
  unlocked t h := by cases h
  cancels a x t h := by cases h
  joins a t h := by cases h
  drains t h := by cases h

variable {act : Action} {s s' : Sys}

section
variable (hL : Locks s) (h : Unblocked s) (hm : Move act s s')
include hL h hm

theorem unlocked_step : ∀ t, (s'.threads t).pc.unlocked = true →
    (s'.threads t).mutex ≠ some (.lookup t) := by
  intro t hu
  have hold := h.unlocked t
  have hth := hm.thread t
  generalize s'.threads t = T' at hth hu ⊢
  cases hth with
  | same | toldToQuit | startSending => exact hold hu
  | registered a q b id hcall =>
    cases b with
    | true => cases hu
    | false => exact hold hu
  | cancelled a x tb r hcall hmu =>
    rw [cancelled_mutex, hmu]
    exact (Option.some_ne_none _).symm
  | cancelMiss a x tb hcall =>
    intro heq
    have hclient := hL.not_lookup (by rw [hcall]; exact nofun) (by rw [hcall]; rfl) t
    exact absurd (Option.some.inj heq) hclient
  | cancelWait => exact (Option.some_ne_none _).symm
  | popQueue _ _ _ hpc =>
    have hu' : (s.threads t).pc.unlocked = true := hu
    rw [hpc] at hu'
    cases hu'
  | own e T' es _ _ hl =>
    rcases hl.unlocked hu with hnone | ⟨hmu, hu'⟩
    · rw [hnone]
      exact (Option.some_ne_none _).symm
    · rw [hmu]
      exact hold hu'
  | created | cleanedUp | joined | joinedPrev | openSocket | openFailed | queueEmpty
      | drainedOpen => cases hu

variable (hg : AvoidsDeadlock s act)
include hg

theorem cancels_step : ∀ a x t, s'.calls a = .cancelWait x t →
    (s'.calls (.lookup t)).isResolveLock = false := by
  have holder := hL.holder
  have cancels := h.cancels
  unfold AvoidsDeadlock heldFor at hg
  clear hL h
  cases hm
  case cancelMiss hr =>
    have := (Tables.removeResolver_eq_none hr).2
    grind
  all_goals grind

theorem joins_step : ∀ a t, s'.calls a = .cleanUpJoin t →
    (s'.threads t).pc.opened = true ∧ (s'.calls (.lookup t)).isResolveLock = false := by
  have holder := hL.holder
  have newest := hL.newest
  have joins := h.joins
  unfold AvoidsDeadlock heldFor at hg
  clear hL h
  cases hm
  case own hl =>
    have := hl.opened
    grind
  all_goals grind [registerIn, cancelled]

theorem drains_step : ∀ t, (s'.threads t).pc.openFailed = true → s'.calls (.lookup t) = .idle := by
  have drain := hL.drain
  have nested := hL.nested
  have drains := h.drains
  unfold AvoidsDeadlock heldFor at hg
  clear hL h
  cases hm
  case own hd _ hl =>
    have := hl.openFailed hd
    grind
  all_goals grind [registerIn, cancelled, Actor.isClient]

end

theorem unblocked (hr : resolverSystem.Reach AvoidsDeadlock s) : Unblocked s := by
  refine hr.invariant (I := Unblocked) ?_ ?_
  · rintro s ⟨now, rfl⟩
    exact unblocked_init now
  · intro s act s' hr h hg hs
    have hL := locks hr
    have hm := sysMove hs
    exact {
      holds := dnsHeld_step hL h.holds hm
      unlocked := unlocked_step hL h hm
      cancels := cancels_step hL h hm hg
      joins := joins_step hL h hm hg
      drains := drains_step hL h hm hg }

/-! ## who waits for whom -/

variable {a b c : Actor} {t : ℕ}

/-- A thread waits in its API call, or in `run()`. -/
theorem WaitsFor.cases (h : s.WaitsFor a b) :
    (∃ res, (s.calls a).wants = some res ∧ s.holder res = some b) ∨
    (s.calls a = .idle ∧ ∃ t res, a = .lookup t ∧ (s.threads t).wants t = some res ∧
      s.holder res = some b) := by
  obtain ⟨res, hw, hb⟩ := h
  unfold wants at hw
  split at hw
  · exact .inl ⟨res, hw, hb⟩
  · rename_i hc
    cases a with
    | client n => cases hw
    | lookup t => exact .inr ⟨not_not.mp hc, t, res, rfl, hw, hb⟩

section
variable (hL : Locks s) (h : Unblocked s)
include hL

/-- `run()` never waits for `completedMutex`. -/
theorem run_waits (hc : s.calls (.lookup t) = .idle) (hw : s.WaitsFor (.lookup t) b) :
    ((s.threads t).pc.opened = false ∧ (s.dnsMutex = some b ∨
      ∃ p, (s.threads t).prevThread = some p ∧ b = .lookup p)) ∨
    ((s.threads t).pc.loopLocked = false ∧ (s.threads t).pc.inCallback = false ∧
      (s.threads t).mutex = some b ∧ (s.threads t).pc ≠ .finished ∧
      ((s.threads t).pc.openFailed = true → (s.threads t).pc.unlocked = true)) := by
  rcases hw.cases with ⟨res, hres, _⟩ | ⟨_, _, res, heq, hres, hb⟩
  · rw [hc] at hres
    cases hres
  · cases heq
    rcases LookupThread.wants_cases hres with
      ⟨ho, rfl | ⟨p, hp, rfl⟩⟩ | ⟨hl, hi, rfl, hf⟩ | ⟨hi, rfl⟩
    · exact .inl ⟨ho, .inl hb⟩
    · unfold holder at hb
      dsimp only at hb
      split at hb
      · cases hb
      · exact .inl ⟨ho, .inr ⟨p, hp, (Option.some.inj hb).symm⟩⟩
    · exact .inr ⟨hl, hi, hb, hf⟩
    · have hfree := hL.completed t
      rw [hi] at hfree
      have hb' : (s.threads t).completedMutex = some b := hb
      rw [hfree] at hb'
      cases hb'

/-- While another thread holds `dns::mutex`, a callback is in no call but at its start. -/
theorem idle_of_held (hd : s.dnsMutex = some a) (hne : a ≠ .lookup t)
    (hr : (s.calls (.lookup t)).isResolveLock = false) : s.calls (.lookup t) = .idle := by
  by_contra hc
  have hres := (hL.nested t hc).1
  have hon : (s.calls (.lookup t)).onThread = none := by
    by_contra hon
    have := (hL.holder _ hon).1
    rw [hd] at this
    exact hne (Option.some.inj this)
  cases hcall : s.calls (.lookup t) with
  | resolveLock =>
    rw [hcall] at hr
    cases hr
  | resolveCheck | resolveRegister =>
    rw [hcall] at hon
    cases hon
  | idle => exact hc hcall
  | _ =>
    rw [hcall] at hres
    cases hres

theorem not_waits_loopLocked (hl : (s.threads t).pc.loopLocked = true) :
    ¬ s.WaitsFor (.lookup t) b := by
  intro hw
  have hidle : s.calls (.lookup t) = .idle := by
    refine hL.idle_of_pc fun c hc => ?_
    rw [hc] at hl
    cases hl
  rcases run_waits hL hidle hw with ⟨ho, _⟩ | ⟨hl', _⟩
  · rw [(Pc.of_not_opened ho).1] at hl
    cases hl
  · rw [hl] at hl'
    cases hl'

theorem not_waits_finished (hf : (s.threads t).pc = .finished) : ¬ s.WaitsFor (.lookup t) b := by
  intro hw
  have hidle : s.calls (.lookup t) = .idle := by
    refine hL.idle_of_pc fun c hc => ?_
    rw [hf] at hc
    cases hc
  rcases run_waits hL hidle hw with ⟨ho, _⟩ | ⟨_, _, _, hne, _⟩
  · rw [hf] at ho
    cases ho
  · exact hne hf

include h

theorem not_waits_openFailed (hf : (s.threads t).pc.openFailed = true) :
    ¬ s.WaitsFor (.lookup t) b := by
  intro hw
  rcases run_waits hL (h.drains t hf) hw with ⟨ho, _⟩ | ⟨hl, _, hm, hne, hu⟩
  · rw [(Pc.of_not_opened ho).2.1] at hf
    cases hf
  · -- its own mutex is left, and nobody else can have locked it
    rcases hL.owner t b hm with hwait | ⟨rfl, _⟩
    · obtain ⟨hon, _⟩ := Call.onThread_of_waitsIn hwait
      have hd := (hL.holder b (by rw [hon]; exact nofun)).1
      rw [(hL.drain t hf).1] at hd
      rw [← Option.some.inj hd, (hL.drain t hf).2] at hon
      cases hon
    · exact h.unlocked t (hu hf) hm

/-- The owner of the mutex of a lookup thread does not wait, but for `completedMutex`. -/
theorem owner_waits (hm : (s.threads t).mutex = some b) (hw : s.WaitsFor b c) :
    (s.calls b).waitsIn = some t := by
  rcases hL.owner t b hm with hwait | ⟨rfl, hl | hf | hf⟩
  · exact hwait
  · exact absurd hw (not_waits_loopLocked hL hl)
  · exact absurd hw (not_waits_openFailed hL h hf)
  · exact absurd hw (not_waits_finished hL hf)

/-- A callback that a `cancel()` waits for does not wait. -/
theorem not_waits_cancel {x : ℕ} (hc : s.calls a = .cancelWait x t)
    (hi : (s.threads t).pc.inCallback = true) : ¬ s.WaitsFor (.lookup t) b := by
  intro hw
  have hd := (hL.holder a (by rw [hc]; exact nofun)).1
  have hne := hL.not_lookup (a := a) (by rw [hc]; exact nofun) (by rw [hc]; rfl) t
  rcases run_waits hL (idle_of_held hL hd hne (h.cancels a x t hc)) hw with ⟨ho, _⟩ | ⟨_, hi', _⟩
  · rw [(Pc.of_not_opened ho).2.2] at hi
    cases hi
  · rw [hi] at hi'
    cases hi'

/-- A thread that `clean_up()` waits for does not wait. -/
theorem not_waits_join (hc : s.calls a = .cleanUpJoin t) : ¬ s.WaitsFor (.lookup t) b := by
  intro hw
  have hd := (hL.holder a (by rw [hc]; exact nofun)).1
  obtain ⟨ho, hr⟩ := h.joins a t hc
  have hne := hL.not_lookup (a := a) (by rw [hc]; exact nofun) (by rw [hc]; rfl) t
  rcases run_waits hL (idle_of_held hL hd hne hr) hw with ⟨ho', _⟩ | ⟨hl, _, hm, hf, _⟩
  · rw [ho] at ho'
    cases ho'
  · rcases hL.owner t b hm with hwait | ⟨rfl, hl' | hof | hf'⟩
    · -- a `cancel()` would hold `dns::mutex` too
      obtain ⟨hon, _⟩ := Call.onThread_of_waitsIn hwait
      have hd' := (hL.holder b (by rw [hon]; exact nofun)).1
      rw [hd] at hd'
      rw [← Option.some.inj hd', hc] at hwait
      cases hwait
    · rw [hl] at hl'
      cases hl'
    · rw [(hL.drain t hof).1] at hd
      exact hne (Option.some.inj hd).symm
    · exact hf hf'

/-- The owner of `dns::mutex` waits in its call, or not at all. -/
theorem dnsMutex_waits (hd : s.dnsMutex = some b) (hw : s.WaitsFor b c) : s.calls b ≠ .idle := by
  intro hidle
  rcases h.holds b hd with hon | ⟨t, rfl, hf⟩
  · rw [hidle] at hon
    exact hon rfl
  · exact not_waits_openFailed hL h hf hw

end

/-! ## no deadlock -/

/-- A wait for the owner of `dns::mutex` comes before its own wait, and a lookup thread that has not
opened its socket yet comes after all these, in the order of creation. -/
def rank (s : Sys) (a : Actor) : ℕ :=
  if (s.calls a).onThread ≠ none then 0
  else match a with
    | .client _ => 1
    | .lookup t => if (s.threads t).pc.opened then 1 else t + 2

theorem rank_le (s : Sys) (t : ℕ) :
    s.rank (.lookup t) ≤ if (s.threads t).pc.opened then 1 else t + 2 := by
  unfold rank
  split
  · exact Nat.zero_le _
  · exact Nat.le_refl _

theorem rank_pos (h : (s.calls a).onThread = none) : 0 < s.rank a := by
  unfold rank
  rw [if_neg (not_not.mpr h)]
  cases a with
  | client n => exact Nat.zero_lt_one
  | lookup t =>
    dsimp only
    split <;> omega

section
variable (hL : Locks s) (h : Unblocked s)
include hL h

/-- a wait in a call that holds `dns::mutex` is the last one -/
theorem call_waits {res : Resource} (hon : (s.calls a).onThread ≠ none)
    (hw : (s.calls a).wants = some res) (hb : s.holder res = some b) : ¬ s.WaitsFor b c := by
  intro hbc
  have hd := (hL.holder a hon).1
  have hmutex : ∀ t, res = .mutex t → (s.calls a).waitsIn = none → False := by
    rintro t rfl hnone
    have hwait := owner_waits hL h hb hbc
    obtain ⟨honb, _⟩ := Call.onThread_of_waitsIn hwait
    have hdb := (hL.holder b (by rw [honb]; exact nofun)).1
    rw [hd] at hdb
    rw [← Option.some.inj hdb, hnone] at hwait
    cases hwait
  cases hcall : s.calls a with
  | idle | resolveLock | cancelLock | cleanUpLock =>
    rw [hcall] at hon
    exact hon rfl
  | resolveCheck q t | resolveRegister q t | cancelRemove x t =>
    rw [hcall] at hw hmutex
    exact hmutex t (Option.some.inj hw).symm rfl
  | cancelWait x t =>
    rw [hcall] at hw
    obtain rfl := Option.some.inj hw
    have hcm := hL.completed t
    have hb' : (s.threads t).completedMutex = some b := hb
    rw [hb'] at hcm
    split at hcm
    · rename_i hi
      rw [Option.some.inj hcm] at hbc
      exact not_waits_cancel hL h hcall hi hbc
    · cases hcm
  | cleanUpJoin t =>
    rw [hcall] at hw
    obtain rfl := Option.some.inj hw
    unfold holder at hb
    dsimp only at hb
    split at hb
    · cases hb
    · rw [← Option.some.inj hb] at hbc
      exact not_waits_join hL h hcall hbc

/-- **Along two successive waits the rank decreases.** -/
theorem rank_lt (hab : s.WaitsFor a b) (hbc : s.WaitsFor b c) : s.rank b < s.rank a := by
  -- the owner of `dns::mutex` waits with rank 0
  have hdns : s.dnsMutex = some b → s.rank b = 0 := by
    intro hd
    have hne := dnsMutex_waits hL h hd hbc
    rcases h.holds b hd with hon | ⟨t, rfl, hf⟩
    · exact if_pos hon
    · exact absurd hbc (not_waits_openFailed hL h hf)
  rcases hab.cases with ⟨res, hres, hb⟩ | ⟨hidle, t, _, rfl, _⟩
  · by_cases hon : (s.calls a).onThread = none
    · have hd : s.dnsMutex = some b := by
        cases hcall : s.calls a with
        | resolveLock | cancelLock | cleanUpLock =>
          rw [hcall] at hres
          rw [← Option.some.inj hres] at hb
          exact hb
        | idle =>
          rw [hcall] at hres
          cases hres
        | _ =>
          rw [hcall] at hon
          cases hon
      rw [hdns hd]
      exact rank_pos hon
    · exact absurd hbc (call_waits hL h hon hres hb)
  · have hon : (s.calls (.lookup t)).onThread = none := by
      rw [hidle]
      rfl
    rcases run_waits hL hidle hab with ⟨ho, hd | ⟨p, hp, rfl⟩⟩ | ⟨_, hi, hm, _⟩
    · rw [hdns hd]
      exact rank_pos hon
    · have hrank : s.rank (.lookup t) = t + 2 := by
        unfold rank
        rw [if_neg (not_not.mpr hon)]
        dsimp only
        rw [ho]
        rfl
      have hlt := hL.prev t p hp
      have hle := rank_le s p
      rw [hrank]
      split at hle <;> omega
    · -- a `cancel()` that waits for `completedMutex`, which is free
      have hwait := owner_waits hL h hm hbc
      have hcm := hL.completed t
      rw [hi] at hcm
      cases hcall : s.calls b with
      | cancelWait x u =>
        rw [hcall] at hwait
        obtain rfl := Option.some.inj hwait
        rcases hbc.cases with ⟨res, hres, hc⟩ | ⟨hb, _⟩
        · rw [hcall] at hres
          rw [← Option.some.inj hres] at hc
          have hc' : (s.threads u).completedMutex = some c := hc
          rw [hcm] at hc'
          cases hc'
        · rw [hcall] at hb
          cases hb
      | _ =>
        rw [hcall] at hwait
        cases hwait

end
end Sys

/-- **No deadlock** in every run in which nobody waits, with `dns::mutex` held, for a lookup thread
that has still to take `dns::mutex`. -/
theorem no_deadlock {s : Sys} (hr : resolverSystem.Reach Sys.AvoidsDeadlock s) :
    ¬ s.Deadlocked := by
  rintro ⟨S, hne, hS⟩
  exact no_trap s.rank
    (fun _ _ _ hab hbc => Sys.rank_lt (Sys.locks hr) (Sys.unblocked hr) hab hbc) hne hS

/-- The thread gets a request and an error of the socket, and runs the callback of the request. -/
def runCallback : List Action :=
  callSteps (.client 0) (.resolve (queryA 1)) 2 ++ lookupSteps 0 10 ++
  .run 0 { wake := .ready false false true } :: lookupSteps 0 8

/-- The callback is in `resolve()`, and a client thread waits to make a request. -/
def resolveInCallback : List Action :=
  runCallback ++ callSteps (.lookup 0) (.resolve (queryA 2)) 1 ++
  [.call (.client 0) (.resolve (queryA 3))]

set_option maxRecDepth 10000 in
theorem no_deadlock_nested : ∃ s, resolverSystem.run Sys.AvoidsDeadlock resolveInCallback
      (Sys.init 0) = some s ∧ s.WaitsFor (.client 0) (.lookup 0) ∧ ¬ s.Deadlocked := by
  obtain ⟨s, hs, hp⟩ := Machine.exists_run resolverSystem Sys.AvoidsDeadlock resolveInCallback
    (Sys.init 0)
    (fun s => s.wants (.client 0) = some .dnsMutex ∧ s.dnsMutex = some (.lookup 0)) (by decide)
  obtain ⟨hw, hd⟩ := of_decide_eq_true hp
  exact ⟨s, hs, ⟨.dnsMutex, hw, hd⟩, no_deadlock ((reach_init _ 0).run hs)⟩

/-- `cancel()` waits for the callback, and the callback calls `resolve()`. -/
def cancelInCallback : List Action :=
  runCallback ++ callSteps (.client 1) (.cancel 1) 2 ++ [.call (.lookup 0) (.resolve (queryA 2))]

set_option maxRecDepth 10000 in
theorem cancel_deadlocks : ¬ ∀ s, Run s → ¬ s.Deadlocked := by
  intro h
  obtain ⟨s, hs, hp⟩ := exists_run_reach (fun _ _ => True) cancelInCallback
    (fun s => (s.wants (.client 1) = some (.completedMutex 0) ∧
        (s.threads 0).completedMutex = some (.lookup 0)) ∧
      s.wants (.lookup 0) = some .dnsMutex ∧ s.dnsMutex = some (.client 1)) 0 (by decide)
  obtain ⟨⟨hw, hc⟩, hw', hd⟩ := of_decide_eq_true hp
  refine h s hs ⟨{.client 1, .lookup 0}, ⟨_, Set.mem_insert _ _⟩, ?_⟩
  rintro a (rfl | rfl)
  · exact ⟨.lookup 0, Set.mem_insert_of_mem _ rfl, .completedMutex 0, hw, hc⟩
  · exact ⟨.client 1, Set.mem_insert _ _, .dnsMutex, hw', hd⟩

end Setka
