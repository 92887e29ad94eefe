import Mathlib.Algebra.Group.Nat.Defs
import Setka.Dns.Events

/-!
# The tick counter and the two time maps

`get_ticks_ms()` is the unwrapped clock modulo 2^32.  An epoch is a stretch of the unwrapped clock
between two wraps.  The thread notices a wrap when a sample of the clock lies in the first half of
the tick values and the sample before it in the second half.

* `SampledInTime`   the clock is sampled often enough;
* `Clock`           the samples a thread keeps: in every run that samples often enough, the thread
                    notices every wrap, and takes none for two.
-/

namespace Setka

/-- the number of tick wraps before the time `now` -/
def epoch (now : ℕ) : ℕ := now / 2 ^ 32

theorem ticks_toNat (now : ℕ) : (ticks now).toNat = now % 2 ^ 32 := by
  simp [ticks]

theorem isFirstHalf_ticks (now : ℕ) :
    isFirstHalf (ticks now) = true ↔ now % 2 ^ 32 < 2 ^ 31 - 1 := by
  unfold isFirstHalf
  rw [decide_eq_true_iff, UInt32.lt_iff_toNat_lt, ticks_toNat]
  exact Iff.rfl

theorem key_toNat (now : ℕ) (timeout : UInt32) :
    (ticks now + timeout).toNat = (now + timeout.toNat) % 2 ^ 32 := by
  rw [UInt32.toNat_add, ticks_toNat]
  omega

/-- The sum of `resolve()` wraps around if and only if the deadline is in the next epoch. -/
theorem wraps_iff (now : ℕ) (timeout : UInt32) :
    ticks now + timeout < ticks now ↔ epoch (now + timeout.toNat) = epoch now + 1 := by
  have ht := timeout.toNat_lt
  rw [UInt32.lt_iff_toNat_lt, key_toNat, ticks_toNat]
  unfold epoch
  omega

theorem not_wraps_iff (now : ℕ) (timeout : UInt32) :
    ¬ ticks now + timeout < ticks now ↔ epoch (now + timeout.toNat) = epoch now := by
  have ht := timeout.toNat_lt
  rw [UInt32.lt_iff_toNat_lt, key_toNat, ticks_toNat]
  unfold epoch
  omega

/-- a first-half sample after a second-half sample -/
theorem epoch_wrapped {last now : ℕ} (hle : last ≤ now) (hgap : now < last + 2 ^ 31)
    (hnow : isFirstHalf (ticks now) = true) (hlast : isFirstHalf (ticks last) = false) :
    epoch now = epoch last + 1 := by
  rw [isFirstHalf_ticks] at hnow
  rw [← Bool.not_eq_true, isFirstHalf_ticks] at hlast
  unfold epoch
  omega

theorem epoch_same {last now : ℕ} (hle : last ≤ now) (hgap : now < last + 2 ^ 31)
    (h : ¬ (isFirstHalf (ticks now) = true ∧ isFirstHalf (ticks last) = false)) :
    epoch now = epoch last := by
  rw [isFirstHalf_ticks, ← Bool.not_eq_true, isFirstHalf_ticks] at h
  unfold epoch
  omega

/-! ## the samples of a thread -/

/-- the loop of callbacks a thread is in -/
@[grind =]
def Pc.site : Pc → Option Site
  | .send => some .send
  | .wrap => some .wrap
  | .expire => some .expire
  | .drain d => some (.drain d)
  | .cbLock c | .cbEnter c | .cbRun c => some c.site
  | .cbRelock s => some s
  | .notStarted | .joinPrev | .initDNS | .openSocket => none
  | .loopHead | .lockMutex | .checkError | .receive | .checkWrite | .sample => none
  | .wait _ | .popQueue | .leave | .finished | .destroyed => none

theorem Site.resume_site {s s' : Site} (h : s.resume.site = some s') : s' = s := by
  cases s with
  | receive => cases h
  | _ => exact (Option.some.inj h).symm

namespace LookupThread

/-- `lastTicksInFirstHalf` describes the sample `lastTicks`; while the requests of the old epoch are
timed out, the sample `curTime` is in the next epoch -/
structure Clock (now : ℕ) (T : LookupThread) : Prop where
  last_le : T.lastTicks ≤ now
  cur_le : T.curTime ≤ now
  first : T.lastTicksInFirstHalf = isFirstHalf (ticks T.lastTicks)
  wrap : T.pc.site = some .wrap → epoch T.curTime = epoch T.lastTicks + 1
  expire : T.pc.site = some .expire → T.curTime = T.lastTicks

variable {t now : ℕ} {e : Env} {T T' : LookupThread} {es : List Event}

theorem Clock.mono {now' : ℕ} (h : Clock now T) (hle : now ≤ now') : Clock now' T :=
  { h with last_le := h.last_le.trans hle, cur_le := h.cur_le.trans hle }

theorem Clock.local (hc : Clock now T) (h : LocalMove t now e T T' es)
    (hs : T.pc = .sample → now < T.lastTicks + 2 ^ 31) : Clock now T' := by
  obtain ⟨hlast, hcur, hfirst, hwrap, hexp⟩ := hc
  cases h
  case sampledWrap hpc hnow hl =>
    rw [hfirst] at hl
    exact ⟨hlast, Nat.le_refl _, hfirst, fun _ => epoch_wrapped hlast (hs hpc) hnow hl, nofun⟩
  case sampled =>
    exact ⟨Nat.le_refl _, Nat.le_refl _, rfl, nofun, fun _ => rfl⟩
  case swapped =>
    exact ⟨hcur, hcur, rfl, nofun, fun _ => rfl⟩
  case cbRelock s hpc _ =>
    refine ⟨hlast, hcur, hfirst, fun h => hwrap ?_, fun h => hexp ?_⟩
    · rw [hpc, Site.resume_site h]
      rfl
    · rw [hpc, Site.resume_site h]
      rfl
  all_goals
    refine ⟨hlast, hcur, hfirst, ?_, ?_⟩
    · grind [completing, readCleared, writeCleared, serverChosen, LookupThread.requeued]
    · grind [completing, readCleared, writeCleared, serverChosen, LookupThread.requeued]

end LookupThread

namespace Sys
variable {act : Action} {s s' : Sys} {u : ℕ} {T' : LookupThread}

/-- Two successive samples of the clock are less than half a wrap cycle apart. -/
def SampledInTime (s : Sys) : Action → Prop
  | .run t _ => (s.threads t).pc = .sample → s.now < (s.threads t).lastTicks + 2 ^ 31
  | _ => True

instance (s : Sys) (act : Action) : Decidable (SampledInTime s act) := by
  apply @Action.casesOn _ act <;> intros <;> dsimp only [SampledInTime] <;> infer_instance

theorem ThreadMove.clock (h : ThreadMove act s s' u (s.threads u) T') (hc : Calls s)
    (hcl : (s.threads u).Clock s.now) (hle : s.now ≤ s'.now) (hg : SampledInTime s act) :
    T'.Clock s'.now := by
  have hnone : ∀ T : LookupThread, T.lastTicks = 0 → T.curTime = 0 →
      T.lastTicksInFirstHalf = true → T.pc.site = none → T.Clock s'.now := by
    intro T h1 h2 h3 h4
    refine ⟨by omega, by omega, by rw [h1, h3]; rfl, fun h => ?_, fun h => ?_⟩
    · rw [h4] at h
      cases h
    · rw [h4] at h
      cases h
  cases h with
  | created | cleanedUp | joined => exact hnone _ rfl rfl rfl rfl
  | registered a q needStart id hcall _ _ _ _ =>
    cases needStart with
    | true =>
      rw [hc.fresh u (hc.regNew a q u hcall)]
      exact ⟨hle, Nat.zero_le _, rfl, nofun, nofun⟩
    | false =>
      obtain ⟨hlast, hcur, hfirst, hwrap, hexp⟩ := hcl.mono hle
      exact ⟨hlast, hcur, hfirst, hwrap, hexp⟩
  | own e T' es _ _ hl hact hs' =>
    refine (hcl.local hl fun hpc => ?_).mono hle
    rw [hact] at hg
    exact hg hpc
  | cancelled =>
    obtain ⟨hlast, hcur, hfirst, hwrap, hexp⟩ := hcl.mono hle
    unfold Sys.cancelled
    split <;> exact ⟨hlast, hcur, hfirst, hwrap, hexp⟩
  | cancelMiss =>
    obtain ⟨hlast, hcur, hfirst, hwrap, hexp⟩ := hcl.mono hle
    unfold Sys.cancelled
    split <;> exact ⟨hlast, hcur, hfirst, hwrap, hexp⟩
  | joinedPrev | openSocket | openFailed | queueEmpty | drainedOpen =>
    obtain ⟨hlast, hcur, hfirst, _, _⟩ := hcl.mono hle
    exact ⟨hlast, hcur, hfirst, nofun, nofun⟩
  | _ =>
    obtain ⟨hlast, hcur, hfirst, hwrap, hexp⟩ := hcl.mono hle
    exact ⟨hlast, hcur, hfirst, hwrap, hexp⟩

/-- **Every wrap is noticed** by every thread, in runs that sample the clock often enough. -/
theorem clock {G : Sys → Action → Prop} (hG : ∀ s act, G s act → SampledInTime s act)
    (hr : resolverSystem.Reach G s) (t : ℕ) : (s.threads t).Clock s.now := by
  refine hr.invariant (I := fun s => ∀ t, (s.threads t).Clock s.now) ?_ ?_ t
  · rintro s ⟨now, rfl⟩ t
    exact ⟨Nat.zero_le _, Nat.zero_le _, rfl, nofun, nofun⟩
  · intro s act s' hr h hg hs u
    have hm := sysMove hs
    exact (hm.thread u).clock (locks hr).toCalls (h u) hm.now_le (hG s act hg)

end Sys
end Setka
