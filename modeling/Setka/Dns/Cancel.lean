import Setka.Dns.Stranding
import Setka.Dns.Unfinished

/-!
# What `cancel()` promises

`cancel()` looks at `dns::thread` only.  If it finds a request of the object, it removes it and does
not wait for a callback that is still running; if it finds none, it waits until `completedMutex` of
this thread is free.

* `CancelsAll`           the condition on a `cancel()`: the requests it does not remove and does not
                         wait for are of other objects;
* `Silent`               the invariant: where the requests of a cancelled object can be;
* `cancel_silences`      in every run whose cancels meet the condition, no callback of an old
                         request is running or entered after `cancel()` has returned;
* `callback_after_cancel`   without it, there is one.
-/

namespace Setka

namespace LookupThread
variable {t now : ℕ} {e : Env} {T T' : LookupThread} {es : List Event}

theorem LocalMove.cancelReturned_not_mem (h : LocalMove t now e T T' es) {x b : ℕ} :
    .cancelReturned x b ∉ es := by
  cases h
  case cbLock => split <;> simp
  all_goals simp [not_mem_assert]

end LookupThread

namespace Sys
variable {act : Action} {s s' : Sys} {u : ℕ} {T T' : LookupThread}

/-- the request was registered from a callback of the same object -/
def isNested (s : Sys) (k : ℕ) : Bool :=
  s.log.any (fun ev => match ev with
    | .registered j _ _ true => j == k
    | _ => false)

theorem Move.isNested_mono (h : Move act s s') {k : ℕ} (hk : s.isNested k = true) :
    s'.isNested k = true := by
  obtain ⟨es, hes, _⟩ := h.log_grows
  unfold isNested at hk ⊢
  rw [hes, List.any_append, hk, Bool.or_true]

/-! ## the condition and the promise -/

/-- No request of the object of a `cancel()` is unfinished in another lookup thread; and if the
`cancel()` finds a request, no callback of the object is in progress.  Requests registered from a
callback of the object do not count. -/
def CancelsAll (s : Sys) : Action → Prop
  | .api a => match s.calls a with
    | .cancelRemove x t =>
      (∀ u < s.nextThread, u ≠ t → ∀ p ∈ (s.threads u).unfinished, p.1 = x →
        s.isNested p.2 = true) ∧
      ((s.threads t).tables.find x ≠ none → ∀ p ∈ (s.threads t).running, p.1 = x →
        s.isNested p.2 = true)
    | _ => True
  | _ => True

instance (s : Sys) (act : Action) : Decidable (CancelsAll s act) := by
  apply @Action.casesOn _ act <;> intros <;> dsimp only [CancelsAll] <;> try infer_instance
  generalize s.calls _ = c
  apply @Call.casesOn _ c <;> intros <;> infer_instance

/-- What `cancel()` promises: after it has returned, `on_completed()` of the object is neither
running nor entered for a request registered before, unless this request was registered from a
callback of the object. -/
structure CancelSilences (s : Sys) : Prop where
  notRunning : ∀ x b t c, .cancelReturned x b ∈ s.log → (s.threads t).pc = .cbRun c →
    c.resolver.hnr = x → c.resolver.addr < b → s.isNested c.resolver.addr = true
  notEntered : ∀ x b k res n newer older, s.log = newer ++ .cancelReturned x b :: older →
    .entered k x res n ∈ newer → k < b → s.isNested k = true

/-! ## the invariant -/

/-- the unfinished requests of `x` in the thread `t` are later than the first `b` ones, or nested -/
def Quiet (s : Sys) (t x b : ℕ) : Prop :=
  ∀ k, (x, k) ∈ (s.threads t).unfinished → b ≤ k ∨ s.isNested k = true

/-- the event `newer` is not the callback of an old request of an object whose `cancel()` returned
with the event `older` -/
def InOrder (s : Sys) (newer older : Event) : Prop :=
  ∀ x b k res n, newer = .entered k x res n → older = .cancelReturned x b →
    b ≤ k ∨ s.isNested k = true

structure Silent (s : Sys) : Prop where
  old : ∀ x b, .cancelReturned x b ∈ s.log → b ≤ s.nextCall
  quiet : ∀ x b, .cancelReturned x b ∈ s.log → ∀ t, s.Quiet t x b
  order : s.log.Pairwise s.InOrder
  waiting : ∀ a x t, s.calls a = .cancelWait x t →
    (∀ u, u ≠ t → s.Quiet u x s.nextCall) ∧ ∀ k, (x, k) ∉ (s.threads t).active

/-- Registered requests are newer, so that what is quiet stays quiet. -/
theorem Quiet.step {t x b : ℕ} (h : s.Quiet t x b) (hm : Move act s s') (hc : Calls s)
    (hb : b ≤ s.nextCall) : s'.Quiet t x b := by
  intro k hk
  have hold : (x, k) ∈ (s.threads t).unfinished → b ≤ k ∨ s'.isNested k = true :=
    fun hk => (h k hk).imp_right hm.isNested_mono
  rcases (hm.thread t).unfinished hc with ⟨_, hsub⟩ | ⟨a, q, needStart, _, _, hsub⟩
  · exact hold (hsub hk)
  · rcases List.mem_cons.mp (hsub hk) with heq | hk
    · rw [(Prod.mk.inj heq).2]
      exact .inl hb
    · exact hold hk

theorem quiet_fresh (hc : Calls s) {t x b : ℕ} (h : s.nextThread ≤ t) : s.Quiet t x b := by
  have hpc : (s.threads t).pc = .notStarted :=
    by_contra fun hpc => absurd (hc.born t hpc) (not_lt.mpr h)
  intro k hk
  rw [hc.fresh t hpc] at hk
  cases hk

/-- the condition on a `cancel()`, for the other threads -/
theorem CancelsAll.quiet {a : Actor} {x t : ℕ} (hg : CancelsAll s act) (hact : act = .api a)
    (hcall : s.calls a = .cancelRemove x t) (hc : Calls s) (b : ℕ) (hu : u ≠ t) :
    s.Quiet u x b := by
  rw [hact] at hg
  unfold CancelsAll at hg
  dsimp only at hg
  rw [hcall] at hg
  intro k hmem
  by_cases hlt : u < s.nextThread
  · exact .inr (hg.1 u hlt hu _ hmem rfl)
  · exact quiet_fresh hc (not_lt.mp hlt) k hmem

/-! ## the steps of `cancel()` -/

variable {a : Actor} {x b t : ℕ}

/-- where a `cancel()` waits, and where it has just begun to -/
theorem Move.cancelWait_cases (h : Move act s s') (hw : s'.calls a = .cancelWait x t) :
    s.calls a = .cancelWait x t ∨ (act = .api a ∧ s.calls a = .cancelRemove x t ∧
      (s.threads t).tables.find x = none ∧ s'.nextCall = s.nextCall) := by
  cases h
  case cancelMiss a' x' t' tb hcall _ hr =>
    have := (Tables.removeResolver_eq_none hr).2
    grind
  all_goals grind

/-- how a `cancel()` returns -/
theorem Move.cancelReturned_cases (h : Move act s s') (hev : .cancelReturned x b ∈ s'.log) :
    .cancelReturned x b ∈ s.log ∨ (b = s.nextCall ∧ s'.nextCall = s.nextCall ∧ ∃ a, act = .api a ∧
      ((s.calls a = .cancelLock x ∧ s.thread = none) ∨
      (∃ t tb r, s.calls a = .cancelRemove x t ∧
        (s.threads t).tables.removeResolver x = some (tb, some r) ∧
        s'.threads = (s.setThread t (cancelled (s.threads t) tb)).threads) ∨
      ∃ t, s.calls a = .cancelWait x t ∧ (s.threads t).completedMutex = none)) := by
  cases h
  case cancelNothing a x' hcall _ ht =>
    rcases List.mem_cons.mp hev with hev | hev
    · cases hev
      exact .inr ⟨rfl, rfl, a, rfl, .inl ⟨hcall, ht⟩⟩
    · exact .inl hev
  case cancelDone a x' t tb r hcall _ hr =>
    rcases List.mem_cons.mp hev with hev | hev
    · cases hev
      exact .inr ⟨rfl, rfl, a, rfl, .inr (.inl ⟨t, tb, r, hcall, hr, rfl⟩)⟩
    · have hev' : .cancelReturned x b ∈ Event.cancelled r.addr :: s.log := hev
      rcases List.mem_cons.mp hev' with hev | hev
      · cases hev
      · exact .inl hev
  case cancelWait a x' t hcall hcm =>
    rcases List.mem_cons.mp hev with hev | hev
    · cases hev
      exact .inr ⟨rfl, rfl, a, rfl, .inr (.inr ⟨t, hcall, hcm⟩)⟩
    · exact .inl hev
  case own hl =>
    rcases List.mem_append.mp hev with hev | hev
    · exact absurd hev hl.cancelReturned_not_mem
    · exact .inl hev
  all_goals exact .inl (by simpa [not_mem_assert] using hev)

/-- While a `cancel()` waits for `completedMutex`, the thread is not on its way into a callback. -/
theorem Locks.not_cbLock (h : Locks s) (hw : s.calls a = .cancelWait x t) (c : Callback) :
    (s.threads t).pc ≠ .cbLock c := by
  intro hpc
  have hmutex := h.waits a t (by rw [hw]; rfl)
  have hholder := h.holder a (by rw [hw]; exact nofun)
  cases hs : c.site.openFailed with
  | true =>
    obtain ⟨hd, hn⟩ := h.drain t (by rw [hpc]; exact hs)
    rw [hholder.1] at hd
    rw [← Option.some.inj hd, hw] at hn
    cases hn
  | false =>
    have hl := h.locked t (by rw [hpc]; simp [Pc.loopLocked, hs])
    rw [hmutex] at hl
    have hclient := h.not_lookup (by rw [hw]; exact nofun) (by rw [hw]; rfl) t
    exact absurd (Option.some.inj hl) hclient

theorem order_step (h : Silent s) (hm : Move act s s') : s'.log.Pairwise s'.InOrder := by
  obtain ⟨es, hes, hent⟩ := hm.log_grows
  rw [hes, List.pairwise_append]
  refine ⟨?_, ?_, ?_⟩
  · refine List.pairwise_of_forall_mem_list fun ev₁ h₁ ev₂ h₂ x b k res n he₁ he₂ => ?_
    rw [he₁] at h₁
    rw [(hent k x res n h₁).1, List.mem_singleton, he₂] at h₂
    cases h₂
  · exact h.order.imp fun ho x b k res n he₁ he₂ =>
      (ho x b k res n he₁ he₂).imp_right hm.isNested_mono
  · intro ev₁ h₁ ev₂ h₂ x b k res n he₁ he₂
    rw [he₁] at h₁
    rw [he₂] at h₂
    obtain ⟨_, t, c, hpc, rfl, rfl, _, _⟩ := hent k x res n h₁
    have hmem : (c.resolver.hnr, c.resolver.addr) ∈ (s.threads t).unfinished := by
      refine List.mem_append_right _ ?_
      unfold LookupThread.running
      rw [hpc]
      exact List.mem_singleton_self _
    exact (h.quiet _ b h₂ t _ hmem).imp_right hm.isNested_mono

section
variable (h : Silent s) (hk : Locks s)
include h hk

/-- Where a `cancel()` of `x` returns after a wait, no request of `x` is left in its thread. -/
theorem Silent.quiet_wait (hw : s.calls a = .cancelWait x t)
    (hcm : (s.threads t).completedMutex = none) (u : ℕ) : s.Quiet u x s.nextCall := by
  obtain ⟨hother, hact⟩ := h.waiting a x t hw
  by_cases hu : u = t
  · subst hu
    intro k hmem
    rcases List.mem_append.mp hmem with hmem | hmem
    · exact absurd hmem (hact k)
    · have hc := hk.completed u
      rw [hcm] at hc
      have hnot := hk.not_cbLock hw
      unfold LookupThread.running at hmem
      cases hpc : (s.threads u).pc with
      | cbLock c => exact absurd hpc (hnot c)
      | cbEnter c | cbRun c =>
        rw [hpc] at hc
        cases hc
      | _ =>
        rw [hpc] at hmem
        cases hmem
  · exact hother u hu

variable (hm : Move act s s')
include hm

theorem quiet_step (hst : Stored s) (hnew : s.thread = none → s.nextThread = 0)
    (hg : CancelsAll s act) :
    ∀ x b, .cancelReturned x b ∈ s'.log → ∀ t, s'.Quiet t x b := by
  intro x b hev u
  rcases hm.cancelReturned_cases hev with hev | ⟨hb, hn, a, hact, hcase⟩
  · exact (h.quiet x b hev u).step hm hk.toCalls (h.old x b hev)
  · rw [hb]
    rcases hcase with ⟨_, ht⟩ | ⟨t, tb, r, hcall, hr, ht⟩ | ⟨t, hcall, hcm⟩
    · refine (quiet_fresh hk.toCalls ?_).step hm hk.toCalls (Nat.le_refl _)
      rw [hnew ht]
      exact Nat.zero_le u
    · by_cases hu : u = t
      · subst hu
        have hT : s'.threads u = cancelled (s.threads u) tb := by
          rw [ht, threads_setThread, if_pos rfl]
        intro k hmem
        unfold LookupThread.unfinished LookupThread.active LookupThread.running at hmem
        rw [hT, cancelled_tables, cancelled_pc] at hmem
        rcases List.mem_append.mp hmem with hmem | hmem
        · obtain ⟨r', hr', heq⟩ := List.mem_map.mp hmem
          have hne := Tables.removeResolver_hnr (hst.linked u) hr r' hr'
          exact absurd (congrArg Prod.fst heq) hne
        · rw [hact] at hg
          unfold CancelsAll at hg
          dsimp only at hg
          rw [hcall] at hg
          have hfind := (Tables.removeResolver_eq_some hr).1
          exact .inr (hm.isNested_mono (hg.2 (by rw [hfind]; exact nofun) _ hmem rfl))
      · exact (hg.quiet hact hcall hk.toCalls _ hu).step hm hk.toCalls (Nat.le_refl _)
    · exact (h.quiet_wait hk hcall hcm u).step hm hk.toCalls (Nat.le_refl _)

theorem waiting_step (hst : Stored s) (hg : CancelsAll s act) :
    ∀ a x t, s'.calls a = .cancelWait x t →
      (∀ u, u ≠ t → s'.Quiet u x s'.nextCall) ∧ ∀ k, (x, k) ∉ (s'.threads t).active := by
  intro a x t hw
  have hsub : ∀ c, s.calls a = c → c.onThread ≠ none → c.isResolve = false →
      s'.nextCall = s.nextCall ∧ (s'.threads t).active ⊆ (s.threads t).active := by
    -- `dns::mutex` is held, so that nothing is registered
    rintro c rfl hon hres
    have hnone : ∀ a' q t b, s.calls a' ≠ .resolveRegister q t b := by
      intro a' q t b hcall
      have ha := (hk.holder a hon).1
      have ha' := (hk.holder a' (by rw [hcall]; exact nofun)).1
      rw [ha] at ha'
      rw [Option.some.inj ha', hcall] at hres
      cases hres
    refine ⟨hm.nextCall_eq hnone, ?_⟩
    rcases (hm.thread t).unfinished hk.toCalls with ⟨hact, _⟩ | ⟨a', q, b, hcall, _⟩
    · exact hact
    · exact absurd hcall (hnone a' q t b)
  rcases hm.cancelWait_cases hw with hcall | ⟨hact, hcall, hfind, _⟩
  · obtain ⟨hn, hact⟩ := hsub _ hcall nofun rfl
    obtain ⟨hother, hnot⟩ := h.waiting a x t hcall
    rw [hn]
    exact ⟨fun u hu => (hother u hu).step hm hk.toCalls (Nat.le_refl _),
      fun k hmem => hnot k (hact hmem)⟩
  · obtain ⟨hn, hsub⟩ := hsub _ hcall nofun rfl
    rw [hn]
    refine ⟨fun u hu => (hg.quiet hact hcall hk.toCalls _ hu).step hm hk.toCalls (Nat.le_refl _),
      fun k hmem => ?_⟩
    obtain ⟨r, hr, heq⟩ := List.mem_map.mp (hsub hmem)
    obtain ⟨e, he, rfl⟩ := List.mem_map.mp hr
    refine Tables.find_eq_none.mp hfind (List.mem_map.mpr ⟨e, he, ?_⟩)
    exact ((hst.linked t).owned e he).symm.trans (congrArg Prod.fst heq)

theorem silent_step (hst : Stored s) (hnew : s.thread = none → s.nextThread = 0)
    (hg : CancelsAll s act) : Silent s' where
  old x b hev := by
    rcases hm.cancelReturned_cases hev with hev | ⟨hb, hn, _⟩
    · exact (h.old x b hev).trans hm.nextCall_le
    · rw [hb, hn]
  quiet := quiet_step h hk hm hst hnew hg
  order := order_step h hm
  waiting := waiting_step h hk hm hst hg

end

/-- Without `clean_up()` there is a current thread as soon as there is any. -/
theorem thread_none_step (h : s.thread = none → s.nextThread = 0)
    (hcl : ∀ a, (s.calls a).isCleanUp = false) (hm : Move act s s') :
    s'.thread = none → s'.nextThread = 0 := by
  cases hm
  case cleanUpJoin a t hcall _ =>
    have := hcl a
    rw [hcall] at this
    cases this
  all_goals grind

/-- the conditions of a run in which `cancel()` keeps its promise -/
abbrev CancelsRight (s : Sys) (act : Action) : Prop := act.noCleanUp ∧ CancelsAll s act

theorem silent (hr : resolverSystem.Reach CancelsRight s) : Silent s := by
  refine (hr.invariant (I := fun s => Silent s ∧ (s.thread = none → s.nextThread = 0) ∧
    ∀ a, (s.calls a).isCleanUp = false) ?_ ?_).1
  · rintro s ⟨now, rfl⟩
    exact ⟨⟨nofun, nofun, .nil, nofun⟩, fun _ => rfl, fun _ => rfl⟩
  · intro s act s' hr ⟨h, hnew, hcl⟩ ⟨hact, hg⟩ hs
    have hm := sysMove hs
    exact ⟨silent_step h (locks hr) hm (stored hr) hnew hg, thread_none_step hnew hcl hm,
      noCleanUp_step hcl hm hact⟩

end Sys
/-- **`cancel()` keeps its promise** in every run without `clean_up()` in which a `cancel()` looks
at the only lookup thread that has requests of its object, and removes none while a callback of the
object is in progress. -/
theorem cancel_silences {s : Sys} (hr : resolverSystem.Reach Sys.CancelsRight s) :
    s.CancelSilences where
  notRunning x b t c hev hpc hx hlt := by
    have hmem : (x, c.resolver.addr) ∈ (s.threads t).unfinished := by
      refine List.mem_append_right _ ?_
      unfold LookupThread.running
      rw [hpc, ← hx]
      exact List.mem_singleton_self _
    exact ((Sys.silent hr).quiet x b hev t _ hmem).resolve_left (not_le.mpr hlt)
  notEntered x b k res n newer older hlog hev hlt := by
    have ho := (Sys.silent hr).order
    rw [hlog, List.pairwise_append] at ho
    exact (ho.2.2 _ hev _ List.mem_cons_self x b k res n rfl rfl).resolve_left (not_le.mpr hlt)

set_option maxRecDepth 10000 in
/-- a request that is cancelled while it waits for its reply -/
theorem cancel_silences_waiting : ∃ s, resolverSystem.run Sys.CancelsRight
      (callSteps (.client 0) (.resolve (queryA 1)) 2 ++ lookupSteps 0 10 ++
        callSteps (.client 0) (.cancel 1) 2) (Sys.init 0) = some s ∧
    .cancelReturned 1 1 ∈ s.log ∧ s.CancelSilences := by
  obtain ⟨s, hs, hp⟩ := Machine.exists_run resolverSystem Sys.CancelsRight
    (callSteps (.client 0) (.resolve (queryA 1)) 2 ++ lookupSteps 0 10 ++
      callSteps (.client 0) (.cancel 1) 2) (Sys.init 0)
    (fun s => .cancelReturned 1 1 ∈ s.log) (by decide)
  exact ⟨s, hs, of_decide_eq_true hp, cancel_silences ((reach_init _ 0).run hs)⟩

/-- The thread drains two requests after a socket error.  While it runs the callback of the first
one, a third one gets a new thread, and the second one is cancelled there. -/
def cancelInNewThread : List Action :=
  callSteps (.client 0) (.resolve (queryA 1)) 2 ++ callSteps (.client 0) (.resolve (queryA 2)) 3 ++
  lookupSteps 0 10 ++ .run 0 { wake := .ready false false true } :: lookupSteps 0 8 ++
  callSteps (.client 1) (.resolve (queryA 3)) 3 ++ callSteps (.client 1) (.cancel 2) 3 ++
  lookupSteps 0 5

set_option maxRecDepth 10000 in
theorem callback_after_cancel : ¬ ∀ s, RunNoCleanUp s → s.CancelSilences := by
  intro h
  obtain ⟨s, hs, hp⟩ := exists_run_reach (fun _ a => a.noCleanUp) cancelInNewThread
    (fun s => .cancelReturned 2 3 ∈ s.log ∧ s.isNested 1 = false ∧
      ∃ c ∈ (s.threads 0).pc.callback.toList, (s.threads 0).pc = .cbRun c ∧ c.resolver.hnr = 2 ∧
        c.resolver.addr = 1) 0 (by decide)
  obtain ⟨hev, hn, c, _, hpc, hx, ha⟩ := of_decide_eq_true hp
  have hnest := (h s hs).notRunning 2 3 0 c hev hpc hx (by rw [ha]; decide)
  rw [ha, hn] at hnest
  cases hnest

end Setka
