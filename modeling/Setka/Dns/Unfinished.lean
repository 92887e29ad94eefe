import Setka.Dns.Events

/-!
# The requests a lookup thread has not done with

The active requests of a thread and the one whose callback is in progress, each as the object and
the number of the request.  A step only takes requests away, but for a registration.

* `unfinished`               the requests of a thread;
* `ThreadMove.unfinished`    what a step does to them;
* `Apart`                    no two threads have the same request.
-/

namespace Setka

/-- the callback of a `CallCallback` in progress -/
def Pc.callback : Pc → Option Callback
  | .cbLock c | .cbEnter c | .cbRun c => some c
  | .cbRelock _ => none
  | .notStarted | .joinPrev | .initDNS | .openSocket => none
  | .loopHead | .lockMutex | .checkError | .receive | .checkWrite | .send | .sample => none
  | .wrap | .expire | .drain _ | .wait _ | .popQueue | .leave | .finished | .destroyed => none

theorem Site.resume_callback (s : Site) : s.resume.callback = none := by
  cases s <;> rfl

/-- the object and the number of a request -/
def Resolver.who (r : Resolver) : ℕ × ℕ := (r.hnr, r.addr)

namespace LookupThread

/-- the active requests -/
def active (T : LookupThread) : List (ℕ × ℕ) := T.tables.resolvers.map Resolver.who

/-- the request whose callback is in progress -/
def running (T : LookupThread) : List (ℕ × ℕ) := (T.pc.callback.map (·.resolver.who)).toList

/-- the requests a thread has not done with -/
def unfinished (T : LookupThread) : List (ℕ × ℕ) := T.active ++ T.running

variable {t now : ℕ} {e : Env} {T T' : LookupThread} {es : List Event}

theorem LocalMove.active_subset (h : LocalMove t now e T T' es) : T'.active ⊆ T.active :=
  (h.tables (C := fun _ => True) fun _ _ _ _ _ _ => trivial).map_subset fun _ _ _ _ => rfl

theorem completing_running {U : LookupThread} {tb tb' : Tables} {x : ℕ} {r : Resolver}
    {result : DnsResult} {ip : Ip} {site : Site} (hop : Tables.Ops (fun _ => True) T.tables tb)
    (h : tb.removeResolver x = some (tb', some r)) :
    (U.completing tb' r result ip site).running ⊆ T.active := by
  have hr : r ∈ tb.resolvers :=
    List.mem_map_of_mem (Tables.find_eq_some (Tables.removeResolver_eq_some h).1)
  have hsub := hop.map_subset (g := Resolver.who) fun _ _ _ _ => rfl
  intro p hp
  rw [List.mem_singleton.mp hp]
  exact hsub (List.mem_map_of_mem hr)

/-- A callback in progress is of a request that was active. -/
theorem LocalMove.running_subset (h : LocalMove t now e T T' es) :
    T'.running ⊆ T.unfinished := by
  have hact : T.active ⊆ T.unfinished := List.subset_append_left _ _
  have hsame : ∀ {T' : LookupThread}, T'.pc.callback = none ∨ T'.pc.callback = T.pc.callback →
      T'.running ⊆ T.unfinished := by
    intro T' hpc
    refine List.Subset.trans ?_ (List.subset_append_right _ _)
    unfold running
    rcases hpc with hpc | hpc
    · rw [hpc]
      exact List.nil_subset _
    · rw [hpc]
      exact List.Subset.refl _
  cases h with
  | requeueFailed d r tb r' _ _ _ _ ha hr =>
    have hop := Tables.Op.requeued (C := fun _ => True) r (Tables.deref_of_recvAction ha) trivial
    exact List.Subset.trans (completing_running (.single hop) hr) hact
  | noServer c rest r tb r' _ _ _ _ hr =>
    have hop : Tables.Op (fun _ => True) T.tables (T.serverChosen r).tables := .dnsSet _ _
    exact List.Subset.trans (completing_running (.single hop) hr) hact
  | replied d r res tb r' _ _ _ _ hr | wrapTimeout c rest r tb r' _ _ _ hr
      | expireTimeout c rest r tb r' _ _ _ _ hr | drainNext d x r rest tb r' _ _ hr =>
    exact List.Subset.trans (completing_running .refl hr) hact
  | cbLock c hpc | cbEnter c hpc =>
    refine hsame (.inr ?_)
    rw [hpc]
    rfl
  | cbRelock s => exact hsame (.inl s.resume_callback)
  | wakeReady => exact hsame (.inl (by dsimp only; split <;> rfl))
  | sent => exact hsame (.inr rfl)
  | _ => exact hsame (.inl rfl)

end LookupThread

namespace Sys
variable {act : Action} {s s' : Sys} {u : ℕ} {T' : LookupThread}

/-- The unfinished requests of a thread come from those it had, or from a registration. -/
theorem ThreadMove.unfinished (h : ThreadMove act s s' u (s.threads u) T') (hc : Calls s) :
    (T'.active ⊆ (s.threads u).active ∧ T'.unfinished ⊆ (s.threads u).unfinished) ∨
    ∃ a q needStart, s.calls a = .resolveRegister q u needStart ∧ s'.nextCall = s.nextCall + 1 ∧
      T'.unfinished ⊆ (q.hnr, s.nextCall) :: (s.threads u).unfinished := by
  have hold : ∀ {T' : LookupThread}, T'.active ⊆ (s.threads u).active →
      T'.running ⊆ (s.threads u).unfinished →
      T'.active ⊆ (s.threads u).active ∧ T'.unfinished ⊆ (s.threads u).unfinished :=
    fun hact hrun => ⟨hact, List.append_subset.mpr
      ⟨List.Subset.trans hact (List.subset_append_left _ _), hrun⟩⟩
  have hsame : ∀ {T' : LookupThread}, T'.tables = (s.threads u).tables →
      T'.pc.callback = none ∨ T'.pc = (s.threads u).pc →
      T'.active ⊆ (s.threads u).active ∧ T'.unfinished ⊆ (s.threads u).unfinished := by
    intro T' ht hpc
    have hact : T'.active = (s.threads u).active := by
      unfold LookupThread.active
      rw [ht]
    refine hold (hact ▸ List.Subset.refl _) (List.Subset.trans ?_ (List.subset_append_right _ _))
    unfold LookupThread.running
    rcases hpc with hpc | hpc
    · rw [hpc]
      exact List.nil_subset _
    · rw [hpc]
      exact List.Subset.refl _
  cases h with
  | created | cleanedUp | joined =>
    exact .inl ⟨List.nil_subset _, List.nil_subset _⟩
  | registered a q needStart id hcall _ _ _ hs' =>
    refine .inr ⟨a, q, needStart, hcall, by rw [hs'], ?_⟩
    have hp := Tables.register_resolvers s.nextCall id (ticks s.now)
      (hc.absent a q u needStart hcall)
    have hrun : (registerIn (s.threads u) s.now s.nextCall q id needStart).running ⊆
        (s.threads u).running := by
      cases needStart with
      | true => exact List.nil_subset _
      | false => exact List.Subset.refl _
    refine List.append_subset.mpr ⟨?_, ?_⟩
    · unfold LookupThread.active
      rw [registerIn_tables]
      exact List.Subset.trans (hp.map Resolver.who).subset
        (List.cons_subset_cons _ (List.subset_append_left _ _))
    · exact List.Subset.trans hrun (List.subset_cons_of_subset _ (List.subset_append_right _ _))
  | cancelled a x tb r _ _ hr =>
    have hop : Tables.Op (fun _ => True) (s.threads u).tables tb := .removed x r tb hr
    refine .inl (hold ?_ ?_)
    · unfold LookupThread.active
      rw [cancelled_tables]
      exact hop.map_subset fun _ _ _ _ => rfl
    · unfold LookupThread.running
      rw [cancelled_pc]
      exact List.subset_append_right _ _
  | cancelMiss a x tb _ _ hr =>
    refine .inl (hsame ?_ (.inr ?_))
    · exact (cancelled_tables _ tb).trans (Tables.removeResolver_eq_none hr).1
    · exact cancelled_pc _ tb
  | own e T' es _ _ hl => exact .inl (hold hl.active_subset hl.running_subset)
  | joinedPrev | openSocket | openFailed | queueEmpty | drainedOpen =>
    exact .inl (hsame rfl (.inl rfl))
  | _ => exact .inl (hsame rfl (.inr rfl))

/-- The requests of the threads have numbers of their own. -/
structure Apart (s : Sys) : Prop where
  older : ∀ t x k, (x, k) ∈ (s.threads t).unfinished → k < s.nextCall
  apart : ∀ t u x y k, (x, k) ∈ (s.threads t).unfinished → (y, k) ∈ (s.threads u).unfinished → t = u

theorem apart {G : Sys → Action → Prop} (hr : resolverSystem.Reach G s) : Apart s := by
  refine hr.invariant (I := Apart) ?_ ?_
  · rintro s ⟨now, rfl⟩
    exact ⟨nofun, nofun⟩
  · intro s act s' hr ⟨older, apart⟩ _ hs
    have hm := sysMove hs
    have hc := (locks hr).toCalls
    have hold : ∀ t x k, (x, k) ∈ (s'.threads t).unfinished → (x, k) ∈ (s.threads t).unfinished ∨
        (k = s.nextCall ∧ s'.nextCall = s.nextCall + 1 ∧ s.thread = some t) := by
      intro t x k hk
      rcases (hm.thread t).unfinished hc with ⟨_, hsub⟩ | ⟨a, q, needStart, hcall, hn, hsub⟩
      · exact .inl (hsub hk)
      · rcases List.mem_cons.mp (hsub hk) with heq | hk
        · have ht := (hc.holder a (by rw [hcall]; exact nofun)).2
          rw [hcall] at ht
          exact .inr ⟨(Prod.mk.inj heq).2, hn, ht⟩
        · exact .inl hk
    refine ⟨fun t x k hk => ?_, fun t u x y k ht hu => ?_⟩
    · rcases hold t x k hk with hk | ⟨hk, hn, _⟩
      · exact (older t x k hk).trans_le hm.nextCall_le
      · omega
    · rcases hold t x k ht with ht | ⟨hk, _, ht⟩
      · rcases hold u y k hu with hu | ⟨hk, _, _⟩
        · exact apart t u x y k ht hu
        · exact absurd (older t x k ht) (by omega)
      · rcases hold u y k hu with hu | ⟨_, _, hu⟩
        · exact absurd (older u y k hu) (by omega)
        · rw [ht] at hu
          exact Option.some.inj hu

end Sys
end Setka
