import Setka.Dns.Threads

/-!
# What the mutexes guard

`LookupThread::mutex` protects the members of the thread object that other threads use: the
containers and `isExiting`.  Two places use them without it: a failed `open()` sets `isExiting` and
drains the requests under `dns::mutex`, and the destructor runs after a join.

* `Action.actor`      the thread of the program that takes a step;
* `Uses`              the steps that use those members of a lookup thread object;
* `Move.unused`       the other steps leave them as they are;
* `members_guarded`   no two threads of the program can take such steps for one object at the same
                      time.

`quitFlag`, `queue` and `completedMutex` are not among the members: `run()` uses them outside of
the guard.
-/

namespace Setka

/-- the thread of the program that takes a step -/
def Action.actor : Action → Option Actor
  | .tick _ => none
  | .call a _ | .api a => some a
  | .run t _ => some (.lookup t)

/-- the lookup thread object whose members the next step of an API call uses -/
@[grind =]
def Call.uses : Call → Option ℕ
  | .resolveCheck _ t | .resolveRegister _ t _ | .cancelRemove _ t | .cleanUpJoin t => some t
  | .idle | .resolveLock _ | .cancelLock _ | .cancelWait _ _ | .cleanUpLock => none

/-- The next step of `run()` uses the members of its own object. -/
@[grind =]
def Pc.uses : Pc → Bool
  | .openSocket | .checkError | .receive | .checkWrite | .send | .wrap | .expire | .drain _ => true
  | .notStarted | .joinPrev | .initDNS | .loopHead | .lockMutex | .sample => false
  | .cbLock _ | .cbEnter _ | .cbRun _ | .cbRelock _ => false
  | .wait _ | .popQueue | .leave | .finished | .destroyed => false

theorem Call.onThread_of_uses {c : Call} {t : ℕ} (h : c.uses = some t) : c.onThread = some t := by
  cases c with
  | resolveCheck | resolveRegister | cancelRemove | cleanUpJoin => exact h
  | _ => cases h

theorem LookupThread.LocalMove.unused {t now : ℕ} {e : Env} {T T' : LookupThread} {es : List Event}
    (h : LocalMove t now e T T' es) (hpc : T.pc.uses = false) :
    T'.tables = T.tables ∧ T'.isExiting = T.isExiting := by
  cases h <;> first | exact ⟨rfl, rfl⟩ | simp_all [Pc.uses]

namespace Sys

/-- The step uses the containers or `isExiting` of the lookup thread object `u`. -/
def Uses (s : Sys) : Action → ℕ → Prop
  | .api a, u => (s.calls a).uses = some u
  | .run t _, u => (u = t ∧ (s.threads t).pc.uses = true) ∨
      ((s.threads t).pc = .joinPrev ∧ (s.threads t).prevThread = some u)
  | .tick _, _ | .call _ _, _ => False

variable {act : Action} {s s' : Sys} {a : Actor} {u : ℕ}

/-! ## the guard of a step -/

/-- A call of the API works on `dns::thread`, with `dns::mutex` held, and with the mutex of the
thread unless it has ended. -/
theorem Move.api_guard (hc : Calls s) (h : Move (.api a) s s') (hu : s.Uses (.api a) u) :
    (s.dnsMutex = some a ∧ s.thread = some u) ∧
      ((s.threads u).mutex = none ∨ joinable (s.threads u) = true) := by
  have hu' : (s.calls a).uses = some u := hu
  refine ⟨hc.of_onThread (Call.onThread_of_uses hu'), ?_⟩
  cases h
  all_goals grind

/-- `run()` uses the members of its own object with its mutex or `dns::mutex` held, or in the step
that takes `dns::mutex`. -/
theorem Move.run_guard {t : ℕ} {e : Env} (hL : Locks s) (h : Move (.run t e) s s')
    (hpc : (s.threads t).pc.uses = true) : (s.threads t).mutex = some (.lookup t) ∨
      s.dnsMutex = none ∨ s.dnsMutex = some (.lookup t) := by
  have hlocked : (s.threads t).pc.loopLocked = true → (s.threads t).mutex = some (.lookup t) :=
    hL.locked t
  cases hp : (s.threads t).pc with
  | openSocket =>
    refine .inr (.inl ?_)
    cases h with
    | openSocket _ _ _ _ hd | openFailed _ _ _ _ hd => exact hd
    | own _ _ T es _ hdrain hcb hl => cases hl <;> simp_all
    | _ => simp_all
  | drain d =>
    cases d with
    | openFailed => exact .inr (.inr (hL.drain t (by rw [hp]; rfl)).1)
    | loopExit => exact .inl (hlocked (by rw [hp]; rfl))
  | checkError | receive | checkWrite | send | wrap | expire =>
    exact .inl (hlocked (by rw [hp]; rfl))
  | _ =>
    rw [hp] at hpc
    cases hpc

/-- The object that `run()` destroys has come to its end. -/
theorem Move.join_guard {t : ℕ} {e : Env} (h : Move (.run t e) s s')
    (hpc : (s.threads t).pc = .joinPrev) (hp : (s.threads t).prevThread = some u) :
    joinable (s.threads u) = true := by
  cases h with
  | joinPrev _ p _ _ _ hp' hj =>
    cases hp.symm.trans hp'
    exact hj
  | own _ _ T es _ _ _ hl => exact absurd hpc hl.started_pc
  | _ => simp_all

theorem not_uses_of_joinable {T : LookupThread} (h : joinable T = true) : T.pc.uses = false := by
  grind [joinable]

/-! ## two steps -/

/-- A call of the API and `run()` of another thread. -/
theorem api_run_apart (hL : Locks s) (ho : Owned s) {t : ℕ} {e : Env} {s₁ s₂ : Sys}
    (h₁ : Move (.api a) s s₁) (h₂ : Move (.run t e) s s₂) (hu₁ : s.Uses (.api a) u)
    (hu₂ : s.Uses (.run t e) u) : a = .lookup t := by
  obtain ⟨⟨hd, hcur⟩, hfree⟩ := h₁.api_guard hL.toCalls hu₁
  rcases hu₂ with ⟨rfl, hpc⟩ | ⟨hpc, hp⟩
  · rcases h₂.run_guard hL hpc with hm | hm | hm
    · rcases hfree with hfree | hj
      · rw [hfree] at hm
        cases hm
      · rw [not_uses_of_joinable hj] at hpc
        cases hpc
    · rw [hd] at hm
      cases hm
    · exact Option.some.inj (hd.symm.trans hm)
  · -- the previous thread is not `dns::thread`
    have hcur' := (ho.prev t u hp).1
    exact absurd (Option.some.inj (hcur.symm.trans hcur')) (hL.prev t u hp).ne

/-- `run()` of two threads. -/
theorem run_run_apart (ho : Owned s) {t t' : ℕ} {e e' : Env} {s₁ s₂ : Sys}
    (h₁ : Move (.run t e) s s₁) (h₂ : Move (.run t' e') s s₂) (hu₁ : s.Uses (.run t e) u)
    (hu₂ : s.Uses (.run t' e') u) : t = t' := by
  -- an object that is destroyed has come to its end
  have hend : ∀ {t : ℕ} {e : Env} {s₁ : Sys}, Move (.run t e) s s₁ →
      (s.threads t).pc = .joinPrev → (s.threads t).prevThread = some u →
      (s.threads u).pc.uses ≠ true := by
    intro t e s₁ h hpc hp
    rw [not_uses_of_joinable (h.join_guard hpc hp)]
    exact Bool.false_ne_true
  rcases hu₁ with ⟨hu, hpc⟩ | ⟨hpc, hp⟩ <;> rcases hu₂ with ⟨hu', hpc'⟩ | ⟨hpc', hp'⟩
  · exact hu.symm.trans hu'
  · exact absurd (hu ▸ hpc) (hend h₂ hpc' hp')
  · exact absurd (hu' ▸ hpc') (hend h₁ hpc hp)
  · exact Option.some.inj ((ho.prev t u hp).1.symm.trans (ho.prev t' u hp').1)

/-! ## the other steps -/

/-- **A step that does not use the members of an object leaves them as they are.** -/
theorem Move.unused (h : Move act s s') (hc : Calls s) (hu : ¬ s.Uses act u) :
    (s'.threads u).tables = (s.threads u).tables ∧
      (s'.threads u).isExiting = (s.threads u).isExiting := by
  have born := hc.born
  have fresh := hc.fresh
  clear hc
  cases h
  case own t e T es _ _ hl =>
    rw [threads_setThread]
    split
    · rename_i ht
      refine ht ▸ hl.unused ?_
      by_contra hpc
      exact hu (.inl ⟨ht, by simpa using hpc⟩)
    · exact ⟨rfl, rfl⟩
  all_goals
    simp only [Uses] at hu
    grind

end Sys

/-- what the mutexes guard -/
structure MembersGuarded (s : Sys) : Prop where
  /-- only one thread can use the containers and `isExiting` of an object -/
  exclusive : ∀ act₁ act₂ s₁ s₂ a b u, resolverSystem.step act₁ s = some s₁ →
    resolverSystem.step act₂ s = some s₂ → act₁.actor = some a → act₂.actor = some b →
    s.Uses act₁ u → s.Uses act₂ u → a = b
  /-- and no other step changes them -/
  unused : ∀ act s', resolverSystem.step act s = some s' → ∀ u, ¬ s.Uses act u →
    (s'.threads u).tables = (s.threads u).tables ∧
      (s'.threads u).isExiting = (s.threads u).isExiting

/-- **No data race on the members that the mutex protects,** in every run. -/
theorem members_guarded {s : Sys} (hr : Run s) : MembersGuarded s where
  exclusive act₁ act₂ s₁ s₂ a b u hs₁ hs₂ ha hb hu₁ hu₂ := by
    have hL := Sys.locks hr
    have ho := Sys.owned hr
    have h₁ := Sys.sysMove hs₁
    have h₂ := Sys.sysMove hs₂
    cases act₁ with
    | tick | call => exact hu₁.elim
    | api c =>
      cases ha
      cases act₂ with
      | tick | call => exact hu₂.elim
      | api d =>
        cases hb
        refine hL.eq_of_onThread ?_ ?_
        · rw [Call.onThread_of_uses hu₁]
          exact Option.some_ne_none u
        · rw [Call.onThread_of_uses hu₂]
          exact Option.some_ne_none u
      | run t e =>
        cases hb
        exact Sys.api_run_apart hL ho h₁ h₂ hu₁ hu₂
    | run t e =>
      cases ha
      cases act₂ with
      | tick | call => exact hu₂.elim
      | api d =>
        cases hb
        exact (Sys.api_run_apart hL ho h₂ h₁ hu₂ hu₁).symm
      | run t' e' =>
        cases hb
        exact congrArg Actor.lookup (Sys.run_run_apart ho h₁ h₂ hu₁ hu₂)
  unused act s' hs u hu := (Sys.sysMove hs).unused (Sys.locks hr).toCalls hu

/-- The lookup thread is in its main loop when a client comes to the check of `resolve()`. -/
def checksDuringLoop : List Action :=
  callSteps (.client 0) (.resolve (queryA 1)) 2 ++ lookupSteps 0 6 ++
  callSteps (.client 1) (.resolve (queryA 2)) 1

set_option maxRecDepth 10000 in
/-- two threads with a next step for the same object -/
theorem members_guarded_check : ∃ s, resolverSystem.run (fun _ _ => True) checksDuringLoop
      (Sys.init 0) = some s ∧ s.Uses (.api (.client 1)) 0 ∧ s.Uses (.run 0 {}) 0 ∧
    MembersGuarded s := by
  obtain ⟨s, hs, hp⟩ := Machine.exists_run resolverSystem (fun _ _ => True) checksDuringLoop
    (Sys.init 0) (fun s => (s.calls (.client 1)).uses = some 0 ∧ (s.threads 0).pc.uses = true)
    (by decide)
  obtain ⟨hcall, hpc⟩ := of_decide_eq_true hp
  exact ⟨s, hs, hcall, .inl ⟨rfl, hpc⟩, members_guarded ((reach_init _ 0).run hs)⟩

end Setka
