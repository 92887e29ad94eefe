import Setka.Dns.Containers

/-!
# Requests and the life of their thread

A request is served if its thread is on its way into the main loop or in it, without the quit flag,
or drains its requests.  `resolve()` decides from `isExiting` alone whether the thread goes on;
`cancel()` sets `quitFlag` and leaves `isExiting` as it is.

* `ServesThread`       the invariant of one thread;
* `RegistersInTime`    the condition on a registration in an existing thread;
* `requests_served`    in every run whose registrations meet it, the current thread serves its
                       requests;
* `request_stranded`   without it, a request is left in a thread that has come to its end.
-/

namespace Setka

/-- a call of `clean_up()` -/
@[grind =]
def Call.isCleanUp : Call → Bool
  | .cleanUpLock | .cleanUpJoin _ => true
  | .idle | .resolveLock _ | .resolveCheck _ _ | .resolveRegister _ _ _ => false
  | .cancelLock _ | .cancelRemove _ _ | .cancelWait _ _ => false

/-- a callback made by `RemoveAllResolvers` -/
@[grind =]
def Site.removesAll : Site → Bool
  | .drain _ => true
  | .receive | .send | .wrap | .expire => false

/-- inside `RemoveAllResolvers` -/
@[grind =]
def Pc.removesAll : Pc → Bool
  | .drain _ => true
  | .cbLock c | .cbEnter c | .cbRun c => c.site.removesAll
  | .cbRelock s => s.removesAll
  | .notStarted | .joinPrev | .initDNS | .openSocket => false
  | .loopHead | .lockMutex | .checkError | .receive | .checkWrite | .send | .sample => false
  | .wrap | .expire | .wait _ | .popQueue | .leave | .finished | .destroyed => false

/-- started, and neither at its end nor on the way to it -/
@[grind =]
def Pc.goesOn : Pc → Bool
  | .notStarted | .leave | .finished | .destroyed => false
  | .joinPrev | .initDNS | .openSocket => true
  | .loopHead | .lockMutex | .checkError | .receive | .checkWrite | .send | .sample => true
  | .wrap | .expire | .wait _ | .popQueue => true
  | .drain _ | .cbLock _ | .cbEnter _ | .cbRun _ | .cbRelock _ => true

theorem Site.resume_removesAll (s : Site) : s.resume.removesAll = s.removesAll := by
  cases s <;> rfl

theorem Site.resume_goesOn (s : Site) : s.resume.goesOn = true := by
  cases s <;> rfl

namespace LookupThread

/-- the thread serves its requests: it drains them, or it goes on without the quit flag -/
@[grind =]
def serves (T : LookupThread) : Bool := T.pc.removesAll || (T.pc.goesOn && !T.quitFlag)

structure ServesThread (T : LookupThread) : Prop where
  serves : T.tables.resolversMap ≠ [] → T.serves = true
  exits : T.pc.removesAll = true ∨ T.pc = .leave ∨ T.pc = .finished →
    T.isExiting = true ∨ T.quitFlag = true

variable {t now : ℕ} {e : Env} {T T' : LookupThread} {es : List Event}

attribute [local grind =] Site.resume_removesAll Site.resume_goesOn completing readCleared
  writeCleared serverChosen LookupThread.requeued 

theorem ServesThread.serves_local (hs : ServesThread T) (h : LocalMove t now e T T' es)
    (hm : T'.tables.resolversMap ≠ []) : T'.serves = true := by
  have hops := h.tables (C := fun _ => True) fun _ _ _ _ _ _ => trivial
  have hsv := hs.serves (hops.map_nonempty hm)
  clear hs hops
  cases h <;> grind

theorem ServesThread.exits_local (hs : ServesThread T) (h : LocalMove t now e T T' es) :
    T'.pc.removesAll = true ∨ T'.pc = .leave ∨ T'.pc = .finished →
      T'.isExiting = true ∨ T'.quitFlag = true := by
  have hex := hs.exits
  clear hs
  cases h
  case cbRelock s hpc _ =>
    have := s.resume_goesOn
    grind
  all_goals grind

theorem ServesThread.local (hs : ServesThread T) (h : LocalMove t now e T T' es) :
    ServesThread T' :=
  ⟨hs.serves_local h, hs.exits_local h⟩

end LookupThread

namespace Sys
variable {act : Action} {s s' : Sys} {u : ℕ} {T T' : LookupThread}

/-- A registration in an existing thread comes while the thread drains its requests, or while
neither of its two flags is set. -/
def RegistersInTime (s : Sys) : Action → Prop
  | .api a => match s.calls a with
    | .resolveRegister _ t false => (s.threads t).pc.removesAll = true ∨
      ((s.threads t).quitFlag = false ∧ (s.threads t).isExiting = false)
    | _ => True
  | _ => True

instance (s : Sys) (act : Action) : Decidable (RegistersInTime s act) := by
  apply @Action.casesOn _ act <;> intros <;> dsimp only [RegistersInTime] <;> try infer_instance
  generalize s.calls _ = c
  apply @Call.casesOn _ c <;> intros <;> try infer_instance
  rename Bool => b
  exact b.casesOn inferInstance inferInstance

theorem cancelled_serves (hs : T.ServesThread) {x : ℕ} {tb : Tables} {r : Option Resolver}
    (hr : T.tables.removeResolver x = some (tb, r)) : (cancelled T tb).ServesThread := by
  have hmap : tb.resolversMap ≠ [] → T.tables.resolversMap ≠ [] := by
    intro htb
    cases r with
    | none =>
      rw [(Tables.removeResolver_eq_none hr).1] at htb
      exact htb
    | some r =>
      have hop : Tables.Op (fun _ => True) T.tables tb := .removed x r tb hr
      exact Tables.Ops.map_nonempty (.single hop) htb
  obtain ⟨serves, exits⟩ := hs
  unfold cancelled
  constructor <;> split <;> grind

/-- a new thread is on its way into the loop; in an existing thread, the condition holds -/
theorem registered_serves {now addr : ℕ} {q : Query} {id : UInt16} {needStart : Bool}
    (hs : T.ServesThread)
    (hnew : needStart = true → T = { prevThread := T.prevThread })
    (hold : needStart = false → T.pc ≠ .notStarted ∧ T.pc ≠ .destroyed ∧
      (T.pc.removesAll = true ∨ (T.quitFlag = false ∧ T.isExiting = false))) :
    (registerIn T now addr q id needStart).ServesThread := by
  obtain ⟨serves, exits⟩ := hs
  cases needStart with
  | true =>
    rw [hnew rfl]
    exact ⟨fun _ => rfl, fun h => by simp [registerIn, Pc.removesAll] at h⟩
  | false =>
    obtain ⟨hn, hd, hg⟩ := hold rfl
    have hgo : T.pc.removesAll = true ∨ (T.pc.goesOn = true ∧ T.quitFlag = false) := by
      rcases hg with hg | ⟨hq, he⟩
      · exact .inl hg
      · have hgo : T.pc.goesOn = true := by
          cases hpc : T.pc <;> grind
        exact .inr ⟨hgo, hq⟩
    refine ⟨fun _ => ?_, exits⟩
    show (T.pc.removesAll || (T.pc.goesOn && !T.quitFlag)) = true
    rcases hgo with hg | ⟨hg, hq⟩ <;> simp [*]

/-! ## `clean_up()` is not called -/

theorem noCleanUp_step (h : ∀ a, (s.calls a).isCleanUp = false) (hm : Move act s s')
    (hact : act.noCleanUp) : ∀ a, (s'.calls a).isCleanUp = false := by
  cases hm
  case callCleanUp => exact hact.elim
  all_goals grind

theorem ThreadMove.serves (h : ThreadMove act s s' u (s.threads u) T') (hc : Calls s)
    (hs : (s.threads u).ServesThread) (hcl : ∀ a, (s.calls a).isCleanUp = false)
    (hg : RegistersInTime s act) : T'.ServesThread := by
  obtain ⟨serves, exits⟩ := hs
  cases h with
  | same => exact ⟨serves, exits⟩
  | created prev _ => exact ⟨fun h => absurd rfl h, fun h => by simp [Pc.removesAll] at h⟩
  | cleanedUp | joined => exact ⟨fun h => absurd rfl h, fun h => by simp [Pc.removesAll] at h⟩
  | registered a q needStart id hcall _ _ hact _ =>
    refine registered_serves ⟨serves, exits⟩ (fun hn => ?_) (fun hn => ?_)
    · subst hn
      exact hc.fresh u (hc.regNew a q u hcall)
    · subst hn
      have hth : s.thread = some u := (hc.holder a (by simp [hcall, Call.onThread])).2.trans
        (by simp [hcall, Call.onThread])
      exact ⟨hc.regOld a q u hcall, (hc.newest u hth).2,
        by simpa [RegistersInTime, hact, hcall] using hg⟩
  | cancelled a x tb r _ _ hr => exact cancelled_serves ⟨serves, exits⟩ hr
  | cancelMiss a x tb _ _ hr =>
    obtain ⟨h1, h2⟩ := cancelled_serves ⟨serves, exits⟩ hr
    exact ⟨h1, h2⟩
  | toldToQuit a hcall =>
    have := hcl a
    rw [hcall] at this
    cases this
  | own e T' es _ _ hl => exact LookupThread.ServesThread.local ⟨serves, exits⟩ hl
  | _ => constructor <;> grind [LookupThread.startSending]

end Sys

/-- **Requests are served** by their thread, in every run without `clean_up()` whose registrations
come in time. -/
theorem requests_served {s : Sys} (hr : resolverSystem.Reach
      (fun s act => act.noCleanUp ∧ Sys.RegistersInTime s act) s) {t : ℕ}
    (hm : (s.threads t).tables.resolversMap ≠ []) : (s.threads t).pc.removesAll = true ∨
      ((s.threads t).pc.goesOn = true ∧ (s.threads t).quitFlag = false) := by
  have hI := hr.invariant (I := fun s => (∀ a, (s.calls a).isCleanUp = false) ∧
      ∀ t, (s.threads t).ServesThread) ?_ ?_
  · simpa [LookupThread.serves] using (hI.2 t).serves hm
  · rintro s ⟨now, rfl⟩
    exact ⟨fun _ => rfl, fun _ => ⟨fun h => absurd rfl h, fun h => by
      simp [Sys.init, Pc.removesAll] at h⟩⟩
  · intro s act s' hr ⟨hcl, hs⟩ ⟨hact, hg⟩ hstep
    have hm := Sys.sysMove hstep
    exact ⟨Sys.noCleanUp_step hcl hm hact,
      fun u => (hm.thread u).serves (Sys.locks hr).toCalls (hs u) hcl hg⟩

set_option maxRecDepth 10000 in
/-- two requests in one thread -/
theorem requests_served_waiting : ∃ s, resolverSystem.run
      (fun s act => act.noCleanUp ∧ Sys.RegistersInTime s act)
      (callSteps (.client 0) (.resolve (queryA 1)) 2 ++ lookupSteps 0 10 ++
        callSteps (.client 1) (.resolve (queryA 2)) 3) (Sys.init 0) = some s ∧
    ((s.threads 0).pc.removesAll = true ∨
      ((s.threads 0).pc.goesOn = true ∧ (s.threads 0).quitFlag = false)) := by
  obtain ⟨s, hs, hp⟩ := Machine.exists_run resolverSystem
    (fun s act => act.noCleanUp ∧ Sys.RegistersInTime s act)
    (callSteps (.client 0) (.resolve (queryA 1)) 2 ++ lookupSteps 0 10 ++
      callSteps (.client 1) (.resolve (queryA 2)) 3) (Sys.init 0)
    (fun s => (s.threads 0).tables.resolversMap ≠ []) (by decide)
  exact ⟨s, hs, requests_served ((reach_init _ 0).run hs) (of_decide_eq_true hp)⟩

/-- The only request is cancelled before the thread has entered its loop, and another one is
registered. -/
def cancelAndResolve : List Action :=
  callSteps (.client 0) (.resolve (queryA 1)) 2 ++ callSteps (.client 0) (.cancel 1) 2 ++
  callSteps (.client 0) (.resolve (queryA 1)) 3 ++ lookupSteps 0 5

set_option maxRecDepth 10000 in
theorem request_stranded : ¬ ∀ s, RunNoCleanUp s → ∀ t, s.thread = some t →
    (s.threads t).tables.resolversMap ≠ [] → (s.threads t).pc.removesAll = true ∨
      ((s.threads t).pc.goesOn = true ∧ (s.threads t).quitFlag = false) := by
  intro h
  obtain ⟨s, hs, hp⟩ := exists_run_reach (fun _ a => a.noCleanUp) cancelAndResolve
    (fun s => s.thread = some 0 ∧ (s.threads 0).tables.resolversMap ≠ [] ∧
      (s.threads 0).pc = .finished) 0 (by decide)
  obtain ⟨ht, hm, hpc⟩ := of_decide_eq_true hp
  have := h s hs 0 ht hm
  rw [hpc] at this
  simp [Pc.removesAll, Pc.goesOn] at this

end Setka
