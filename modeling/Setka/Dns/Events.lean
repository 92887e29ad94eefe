import Setka.Dns.Containers

/-!
# What a step adds to the log

The log only grows.  A request is registered under its own number, once; a callback is entered by
the `CallCallback` of the thread that has removed the request.
-/

namespace Setka

/-- an event of a call of the API, or of a join -/
def Event.ofApi : Event → Bool
  | .registered _ _ _ _ | .cancelled _ | .cancelReturned _ _ | .assertFailed => true
  | .sent _ _ _ | .requeued _ _ | .replied _ _ _ | .entered _ _ _ _ | .badUnlock => false

theorem mem_assert {b : Bool} {ev : Event} (h : ev ∈ assert b) : ev = .assertFailed := by
  unfold assert at h
  split at h
  · cases h
  · exact List.mem_singleton.mp h

theorem not_mem_assert {b : Bool} {ev : Event} (h : ev ≠ .assertFailed) : ev ∉ assert b :=
  fun hev => h (mem_assert hev)

namespace LookupThread
variable {t now : ℕ} {e : Env} {T T' : LookupThread} {es : List Event}

theorem LocalMove.registered_not_mem (h : LocalMove t now e T T' es) {k n : ℕ} {q : Query}
    {b : Bool} : .registered k q n b ∉ es := by
  cases h
  case cbLock => split <;> simp
  all_goals simp [not_mem_assert]

theorem LocalMove.entered_mem (h : LocalMove t now e T T' es) {k x n : ℕ} {res : DnsResult}
    (hev : .entered k x res n ∈ es) : ∃ c, T.pc = .cbEnter c ∧ es = [.entered k x res n] ∧
      k = c.resolver.addr ∧ x = c.resolver.hnr ∧ res = c.result ∧ n = now := by
  cases h
  case cbEnter c hpc =>
    cases List.mem_singleton.mp hev
    exact ⟨c, hpc, rfl, rfl, rfl, rfl, rfl⟩
  case cbLock => split at hev <;> simp at hev
  all_goals simp [not_mem_assert] at hev

end LookupThread

namespace Sys
variable {act : Action} {s s' : Sys}

/-- The log grows, by the events of `run()` or by those of the API. -/
theorem Move.log_cases (h : Move act s s') : ∃ es, s'.log = es ++ s.log ∧
    ((∃ t e T', act = .run t e ∧ LookupThread.LocalMove t s.now e (s.threads t) T' es ∧
      s' = (s.setThread t T').addLog es) ∨ ∀ ev ∈ es, ev.ofApi = true) := by
  have hassert : ∀ {b : Bool}, ∀ ev ∈ assert b, ev.ofApi = true := by
    intro b ev hev
    rw [mem_assert hev]
    rfl
  cases h
  case own t e T es _ _ hl => exact ⟨es, rfl, .inl ⟨t, e, T, rfl, hl, rfl⟩⟩
  case cleanUpJoin =>
    refine ⟨_, (List.append_assoc _ _ _).symm, .inr fun ev hev => ?_⟩
    rcases List.mem_append.mp hev with hev | hev <;> exact hassert ev hev
  case joinPrev => exact ⟨_, rfl, .inr hassert⟩
  case resolveRegister | cancelNothing | cancelWait =>
    exact ⟨_, rfl, .inr (List.forall_mem_singleton.mpr rfl)⟩
  case cancelDone =>
    exact ⟨_, rfl, .inr (List.forall_mem_cons.mpr ⟨rfl, List.forall_mem_singleton.mpr rfl⟩)⟩
  all_goals exact ⟨[], rfl, .inr (List.forall_mem_nil _)⟩

/-- A callback that is entered is the only event of its step. -/
theorem Move.log_grows (h : Move act s s') : ∃ es, s'.log = es ++ s.log ∧
    ∀ k x res n, .entered k x res n ∈ es → es = [.entered k x res n] ∧
      ∃ t c, (s.threads t).pc = .cbEnter c ∧ k = c.resolver.addr ∧ x = c.resolver.hnr ∧
        res = c.result ∧ n = s.now := by
  obtain ⟨es, hlog, ⟨t, e, T', _, hl, _⟩ | hapi⟩ := h.log_cases
  · refine ⟨es, hlog, fun k x res n hev => ?_⟩
    obtain ⟨c, hpc, hes, hc⟩ := hl.entered_mem hev
    exact ⟨hes, t, c, hpc, hc⟩
  · exact ⟨es, hlog, fun k x res n hev => absurd (hapi _ hev) nofun⟩

theorem Move.log_mono (h : Move act s s') {ev : Event} (hev : ev ∈ s.log) : ev ∈ s'.log := by
  obtain ⟨es, hes, _⟩ := h.log_grows
  rw [hes]
  exact List.mem_append_right es hev

theorem Move.now_le (h : Move act s s') : s.now ≤ s'.now := by
  cases h
  case tick ms => exact Nat.le_add_right _ _
  all_goals exact Nat.le_refl _

/-- A new request has the next number. -/
theorem Move.registered_mem (h : Move act s s') {k n : ℕ} {q : Query} {b : Bool}
    (hev : .registered k q n b ∈ s'.log) : .registered k q n b ∈ s.log ∨
      ∃ a t needStart, act = .api a ∧ s.calls a = .resolveRegister q t needStart ∧
        k = s.nextCall ∧ n = s.now ∧ b = (s.runsCallbackOf a == some q.hnr) ∧
        s'.nextCall = s.nextCall + 1 := by
  cases h
  case resolveRegister a q t needStart id hc _ _ =>
    rcases List.mem_cons.mp hev with hev | hev
    · cases hev
      exact .inr ⟨a, t, needStart, rfl, hc, rfl, rfl, rfl, rfl⟩
    · exact .inl hev
  case own hl =>
    rcases List.mem_append.mp hev with hev | hev
    · exact absurd hev hl.registered_not_mem
    · exact .inl hev
  all_goals exact .inl (by simpa [not_mem_assert] using hev)

theorem Move.entered_mem (h : Move act s s') {k x n : ℕ} {res : DnsResult}
    (hev : .entered k x res n ∈ s'.log) : .entered k x res n ∈ s.log ∨
      ∃ t c, (s.threads t).pc = .cbEnter c ∧ k = c.resolver.addr ∧ x = c.resolver.hnr ∧
        res = c.result ∧ n = s.now := by
  obtain ⟨es, hes, hent⟩ := h.log_grows
  rw [hes] at hev
  exact (List.mem_append.mp hev).symm.imp_right fun hev => (hent k x res n hev).2

/-- The requests are numbered in the order of their registration. -/
structure Numbered (s : Sys) : Prop where
  old : ∀ k q n b, .registered k q n b ∈ s.log → k < s.nextCall
  unique : ∀ k q n b q' n' b', .registered k q n b ∈ s.log → .registered k q' n' b' ∈ s.log →
    q = q' ∧ n = n'

theorem numbered {G : Sys → Action → Prop} (hr : resolverSystem.Reach G s) : Numbered s := by
  refine hr.invariant (I := Numbered) ?_ ?_
  · rintro s ⟨now, rfl⟩
    exact ⟨nofun, nofun⟩
  · rintro s act s' _ ⟨old, unique⟩ _ hs
    have hm := sysMove hs
    refine ⟨fun k q n b hev => ?_, fun k q n b q' n' b' h h' => ?_⟩
    · rcases hm.registered_mem hev with hev | ⟨a, t, ns, _, _, hk, _, _, hn⟩
      · exact (old k q n b hev).trans_le hm.nextCall_le
      · omega
    · rcases hm.registered_mem h with h | ⟨a, t, ns, hact, hc, hk, hn, _, _⟩
      · rcases hm.registered_mem h' with h' | ⟨_, _, _, _, _, hk', _, _, _⟩
        · exact unique k q n b q' n' b' h h'
        · exact absurd (old k q n b h) (by omega)
      · rcases hm.registered_mem h' with h' | ⟨a', t', ns', hact', hc', _, hn', _, _⟩
        · exact absurd (old k q' n' b' h') (by omega)
        · rw [hact] at hact'
          cases hact'
          rw [hc] at hc'
          cases hc'
          exact ⟨rfl, hn.trans hn'.symm⟩

end Sys
end Setka
