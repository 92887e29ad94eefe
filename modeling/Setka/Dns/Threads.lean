import Mathlib.Data.Finset.Card
import Setka.Dns.Deadlock
import Setka.Dns.WakeUp

/-!
# The lookup thread objects

`resolve()` replaces a `dns::thread` that is exiting by a new object, which owns the old one until
it has joined it; `clean_up()` destroys `dns::thread`.

* `Owned`            every object is destroyed, is `dns::thread` or is owned by it;
* `Move.destroyed`   no step touches a destroyed object;
* `thread_objects`   in every run, no object is lost or used after its end, and two at most are
                     alive.
-/

namespace Setka

theorem LookupThread.LocalMove.started_pc {t now : ℕ} {e : Env} {T T' : LookupThread}
    {es : List Event} (h : LocalMove t now e T T' es) : T.pc ≠ .joinPrev := by
  cases h <;> simp [*]

namespace Sys
variable {act : Action} {s s' : Sys}

/-- A thread in its loop is `dns::thread`, and the messages it waits for are on their way. -/
theorem wakes {G : Sys → Action → Prop} (hr : resolverSystem.Reach G s) :
    RunsCurrent s ∧ ∀ t, (s.threads t).Wakes := by
  refine hr.invariant (I := fun s => RunsCurrent s ∧ ∀ t, (s.threads t).Wakes) ?_ ?_
  · rintro s ⟨now, rfl⟩
    exact ⟨nofun, fun _ => ⟨nofun, nofun, fun _ => rfl⟩⟩
  · intro s act s' hr ⟨hcur, hw⟩ _ hs
    have hm := sysMove hs
    have hc := (locks hr).toCalls
    exact ⟨runsCurrent_step hcur hc hm,
      fun u => (hm.thread u).wakes hc (hw u) ((stored hr).linked u) (hcur u)⟩

/-- **Who owns the lookup thread objects.** -/
structure Owned (s : Sys) : Prop where
  /-- no object is lost -/
  owner : ∀ t, t < s.nextThread → (s.threads t).pc = .destroyed ∨ s.thread = some t ∨
    ∃ c, s.thread = some c ∧ (s.threads c).prevThread = some t
  /-- only `dns::thread` owns another object, until it has joined it -/
  prev : ∀ t p, (s.threads t).prevThread = some p → s.thread = some t ∧
    ((s.threads t).pc = .notStarted ∨ (s.threads t).pc = .joinPrev) ∧
    (s.threads p).pc ≠ .destroyed

theorem owned_init (now : ℕ) : Owned (Sys.init now) where
  owner t h := absurd h (Nat.not_lt_zero t)
  prev t p h := by cases h

section
variable (hL : Locks s) (hw : ∀ t, (s.threads t).Wakes) (h : Owned s) (hm : Move act s s')
include hL hw h hm

theorem owner_kept : ∀ t, t < s'.nextThread → (s'.threads t).pc = .destroyed ∨
    s'.thread = some t ∨ ∃ c, s'.thread = some c ∧ (s'.threads c).prevThread = some t := by
  have newest := hL.newest
  have holder := hL.holder
  have starting := hL.starting
  have born := hL.born
  have owner := h.owner
  have prev := h.prev
  have stays := fun t => (hw t).stays
  clear hL hw h
  cases hm
  case own hl =>
    have := hl.started
    have := hl.prevThread
    grind
  all_goals grind [registerIn, cancelled, joinable]

theorem prev_kept : ∀ t p, (s'.threads t).prevThread = some p → s'.thread = some t ∧
    ((s'.threads t).pc = .notStarted ∨ (s'.threads t).pc = .joinPrev) ∧
    (s'.threads p).pc ≠ .destroyed := by
  have newest := hL.newest
  have holder := hL.holder
  have starting := hL.starting
  have born := hL.born
  have lt := hL.prev
  have owner := h.owner
  have prev := h.prev
  have stays := fun t => (hw t).stays
  clear hL hw h
  cases hm
  case own hl =>
    have := hl.started
    have := hl.started_pc
    have := hl.prevThread
    grind
  all_goals grind [registerIn, cancelled, joinable]

end

theorem owned {G : Sys → Action → Prop} (hr : resolverSystem.Reach G s) : Owned s := by
  refine hr.invariant (I := Owned) ?_ ?_
  · rintro s ⟨now, rfl⟩
    exact owned_init now
  · intro s act s' hr h _ hs
    have hm := sysMove hs
    exact ⟨owner_kept (locks hr) (wakes hr).2 h hm, prev_kept (locks hr) (wakes hr).2 h hm⟩

/-! ## what is alive -/

/-- the lookup thread objects that have been created and not yet destroyed -/
def alive (s : Sys) : Finset ℕ :=
  (Finset.range s.nextThread).filter (fun t => (s.threads t).pc ≠ .destroyed)

/-- A thread that is alive is `dns::thread` or the one before it. -/
theorem Owned.alive_subset (h : Owned s) : ∃ c p, s.alive ⊆ {c, p} := by
  -- without a `dns::thread` nothing is alive
  refine ⟨s.thread.getD 0, ((s.threads (s.thread.getD 0)).prevThread).getD 0, fun t ht => ?_⟩
  obtain ⟨hlt, hpc⟩ := Finset.mem_filter.mp ht
  rcases h.owner t (Finset.mem_range.mp hlt) with hd | hcur | ⟨c, hcur, hp⟩
  · exact absurd hd hpc
  · rw [hcur]
    exact Finset.mem_insert_self _ _
  · rw [hcur]
    show t ∈ ({c, ((s.threads c).prevThread).getD 0} : Finset ℕ)
    rw [hp]
    exact Finset.mem_insert_of_mem (Finset.mem_singleton_self t)

/-- No step touches a destroyed object. -/
theorem Move.destroyed (h : Move act s s') (hc : Calls s) (ho : Owned s) {t : ℕ}
    (ht : t < s.nextThread) (hd : (s.threads t).pc = .destroyed) :
    s'.threads t = s.threads t := by
  -- `dns::thread` is alive, and an API call works on nothing else
  have hcur : s.thread ≠ some t := fun hcur => (hc.newest t hcur).2 hd
  have hcall : ∀ a, (s.calls a).onThread ≠ some t := fun a ha => hcur (hc.of_onThread ha).2
  have hth := h.thread t
  generalize s'.threads t = T' at hth ⊢
  cases hth with
  | same => rfl
  | created prev hnew => exact absurd hnew ht.ne
  | registered a q b id ha | cancelled a x tb r ha | cancelMiss a x tb ha | cancelWait a x ha
      | cleanedUp a ha => exact absurd (by rw [ha]; rfl) (hcall a)
  | toldToQuit a _ _ h | startSending h => exact absurd h hcur
  | joined u _ hp => exact absurd hd (ho.prev u t hp).2.2
  | joinedPrev hpc | openSocket hpc | openFailed hpc | queueEmpty hpc | popQueue _ _ _ hpc
      | drainedOpen hpc =>
    rw [hd] at hpc
    cases hpc
  | own e T' es _ _ hl => exact absurd hd hl.started.2.2.1

end Sys

/-- what is promised about the lookup thread objects -/
structure ThreadObjects (s : Sys) : Prop where
  /-- every object that was created is destroyed, is `dns::thread`, or is owned by it -/
  owner : ∀ t, t < s.nextThread → (s.threads t).pc = .destroyed ∨ s.thread = some t ∨
    ∃ c, s.thread = some c ∧ (s.threads c).prevThread = some t
  /-- the object that `dns::thread` owns is exiting, and owns no other -/
  prev : ∀ t p, (s.threads t).prevThread = some p → s.thread = some t ∧
    (s.threads p).isExiting = true ∧ (s.threads p).prevThread = none ∧
    (s.threads p).pc ≠ .destroyed
  two : s.alive.card ≤ 2
  /-- no step touches a destroyed object -/
  destroyed : ∀ act s', resolverSystem.step act s = some s' → ∀ t, t < s.nextThread →
    (s.threads t).pc = .destroyed → s'.threads t = s.threads t

/-- **No lookup thread object is lost, or used after its end,** in every run, and two at most are
alive at any time. -/
theorem thread_objects {s : Sys} (hr : Run s) : ThreadObjects s := by
  have hL := Sys.locks hr
  have h := Sys.owned hr
  refine ⟨h.owner, fun t p hp => ?_, ?_, fun act s' hs t ht hd => ?_⟩
  · obtain ⟨hcur, _, hpc⟩ := h.prev t p hp
    have hne : s.thread ≠ some p := by
      rw [hcur]
      exact fun heq => (hL.prev t p hp).ne (Option.some.inj heq).symm
    refine ⟨hcur, ?_, ?_, hpc⟩
    · by_contra he
      exact hne ((Sys.wakes hr).1 p (by simpa using he))
    · cases hpp : (s.threads p).prevThread with
      | none => rfl
      | some p' => exact absurd (h.prev p p' hpp).1 hne
  · obtain ⟨c, p, hsub⟩ := h.alive_subset
    exact (Finset.card_le_card hsub).trans Finset.card_le_two
  · exact (Sys.sysMove hs).destroyed hL.toCalls h ht hd

/-- The thread reports an error of the socket, and the callback makes a new request. -/
def replacedInCallback : List Action :=
  runCallback ++ callSteps (.lookup 0) (.resolve (queryA 2)) 3

set_option maxRecDepth 10000 in
/-- a new `dns::thread`, and the old one in its callback -/
theorem thread_objects_replaced : ∃ s, resolverSystem.run (fun _ _ => True) replacedInCallback
      (Sys.init 0) = some s ∧ s.alive = {0, 1} ∧ (s.threads 1).prevThread = some 0 ∧
    ThreadObjects s := by
  obtain ⟨s, hs, hp⟩ := Machine.exists_run resolverSystem (fun _ _ => True) replacedInCallback
    (Sys.init 0) (fun s => s.alive = {0, 1} ∧ (s.threads 1).prevThread = some 0) (by decide)
  obtain ⟨halive, hprev⟩ := of_decide_eq_true hp
  exact ⟨s, hs, halive, hprev, thread_objects ((reach_init _ 0).run hs)⟩

end Setka
