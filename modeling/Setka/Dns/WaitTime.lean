import Setka.Dns.Overdue

/-!
# The wait timeout

When the expiry loop of an iteration is over, the thread waits at most until the first deadline of
`timeMap1`.  There is none if the deadlines of all active requests lie behind the wrap of the tick
counter that comes next: the requests are in `timeMap2` then.

* `Due`, `WaitRight`   a deadline before the wrap, and a wait timeout that is right;
* `waitRight_of_ne`    the first deadline of `timeMap1` bounds the time to every other one;
* `wait_bounded`       with a deadline before the wrap the wait timeout is right, and only then.
-/

namespace Setka

namespace LookupThread
variable {T : LookupThread}

theorem min_toNat (a b : UInt32) : (min a b).toNat = min a.toNat b.toNat := by
  show (if a ≤ b then a else b : UInt32).toNat = _
  split
  · rename_i hle
    rw [UInt32.le_iff_toNat_le] at hle
    exact (Nat.min_eq_left hle).symm
  · rename_i hle
    rw [UInt32.le_iff_toNat_le] at hle
    exact (Nat.min_eq_right (Nat.le_of_not_le hle)).symm

/-- The wait timeout is the time to the first deadline, clamped. -/
theorem waitTimeout_toNat {c : Cell UInt32 ℕ} {rest : List (Cell UInt32 ℕ)}
    (hc : T.tables.timeMap T.tables.timeMap1 = c :: rest) (hk : T.curTime % 2 ^ 32 < c.key.toNat) :
    ∃ w, waitTimeout T.tables T.curTime = some w ∧
      w.toNat = min (c.key.toNat - T.curTime % 2 ^ 32) 0x3fffffff := by
  have hle : ticks T.curTime ≤ c.key := by
    rw [UInt32.le_iff_toNat_le, ticks_toNat]
    exact hk.le
  refine ⟨min (c.key - ticks T.curTime) 0x3fffffff, ?_, ?_⟩
  · unfold waitTimeout
    rw [hc]
  · rw [min_toNat, UInt32.toNat_sub_of_le _ _ hle, ticks_toNat]
    rfl

end LookupThread

namespace Sys
variable {s : Sys} {t : ℕ}

/-- The deadline of an active request, the clock at its registration and its timeout, lies before
the wrap of the tick counter that comes after the sample. -/
def Due (s : Sys) (t : ℕ) : Prop :=
  ∃ r ∈ (s.threads t).tables.resolvers, ∃ D, s.Deadline r.addr D ∧
    epoch D ≤ epoch (s.threads t).curTime

/-- The wait timeout is that of a real entry, positive, at most 2^30 and not longer than the time
from the sample to the deadline of any active request. -/
def WaitRight (s : Sys) (t : ℕ) : Prop :=
  (s.threads t).tables.timeMap (s.threads t).tables.timeMap1 ≠ [] ∧
    ∃ w, LookupThread.waitTimeout (s.threads t).tables (s.threads t).curTime = some w ∧
      0 < w ∧ w.toNat ≤ 2 ^ 30 ∧
      ∀ r ∈ (s.threads t).tables.resolvers, ∀ D, s.Deadline r.addr D →
        (s.threads t).curTime + w.toNat ≤ D

theorem Deadline.unique (hn : Numbered s) {k D D' : ℕ} (h : s.Deadline k D)
    (h' : s.Deadline k D') : D = D' := by
  obtain ⟨q, n, b, hreg, rfl⟩ := h
  obtain ⟨q', n', b', hreg', rfl⟩ := h'
  obtain ⟨rfl, rfl⟩ := hn.unique k q n b q' n' b' hreg hreg'
  rfl

section
variable (hr : resolverSystem.Reach SampledInTime s)
include hr

/-- The key of the cell of a request is its deadline modulo 2^32, which does not lie before the
epoch of its map. -/
theorem cell_of_deadline {r : Resolver} (hmem : r ∈ (s.threads t).tables.resolvers) {D : ℕ}
    (hD : s.Deadline r.addr D) : ∃ c ∈ (s.threads t).tables.timeMap r.timeMap,
      c.key.toNat = D % 2 ^ 32 ∧ (s.threads t).slot r.timeMap ≤ epoch D := by
  obtain ⟨c, hc, hv⟩ := LookupThread.exists_cell ((stored hr).linked t) hmem
  obtain ⟨D', hD', hk, hle⟩ := inTime hr t r.timeMap c hc
  rw [hv] at hD'
  obtain rfl := hD'.unique (numbered hr) hD
  exact ⟨c, hc, hk, hle⟩

variable (hw : (s.threads t).AtWait)
include hw

/-- At the wait, the epoch of `timeMap1` is that of the sample. -/
theorem slot_timeMap1 :
    (s.threads t).slot (s.threads t).tables.timeMap1 = epoch (s.threads t).curTime := by
  rw [(clock (fun _ _ hg => hg) hr t).expire (by rw [hw.1]; rfl)]
  unfold LookupThread.slot
  rw [if_pos rfl, Nat.add_zero]

theorem slot_timeMap2 {m : TimeMap} (hm : m ≠ (s.threads t).tables.timeMap1) :
    (s.threads t).slot m = epoch (s.threads t).curTime + 1 := by
  rw [(clock (fun _ _ hg => hg) hr t).expire (by rw [hw.1]; rfl)]
  unfold LookupThread.slot
  rw [if_neg hm]

/-- The first deadline of `timeMap1` bounds the time to every other deadline. -/
theorem waitRight_of_ne
    (hne : (s.threads t).tables.timeMap (s.threads t).tables.timeMap1 ≠ []) : s.WaitRight t := by
  have hsorted := ((stored hr).linked t).sorted
  obtain ⟨c, rest, hc⟩ := List.exists_cons_of_ne_nil hne
  have hk : (s.threads t).curTime % 2 ^ 32 < c.key.toNat :=
    LookupThread.lt_key_of_not_expired hsorted hw.2.1 (hc ▸ List.mem_cons_self)
  obtain ⟨w, hwait, hval⟩ := LookupThread.waitTimeout_toNat hc hk
  refine ⟨hne, w, hwait, ?_, by omega, fun r hmem D hD => ?_⟩
  · rw [UInt32.lt_iff_toNat_lt, hval]
    show 0 < _
    omega
  · obtain ⟨d, hd, hkey, hslot⟩ := cell_of_deadline hr hmem hD
    have hlt := c.key.toNat_lt
    by_cases hm : r.timeMap = (s.threads t).tables.timeMap1
    · -- a deadline of the epoch of the sample: the first one is not later
      rw [hm] at hd hslot
      rw [slot_timeMap1 hr hw] at hslot
      have hle := (hc ▸ hsorted (s.threads t).tables.timeMap1).head_le (hc ▸ hd)
      rw [UInt32.le_iff_toNat_le] at hle
      unfold epoch at hslot
      omega
    · -- a deadline behind the wrap
      rw [slot_timeMap2 hr hw hm] at hslot
      unfold epoch at hslot
      omega

theorem ne_nil_of_due (hdue : s.Due t) :
    (s.threads t).tables.timeMap (s.threads t).tables.timeMap1 ≠ [] := by
  obtain ⟨r, hmem, D, hD, hle⟩ := hdue
  obtain ⟨c, hc, _, hslot⟩ := cell_of_deadline hr hmem hD
  have hm : r.timeMap = (s.threads t).tables.timeMap1 := by
    by_contra hm
    rw [slot_timeMap2 hr hw hm] at hslot
    omega
  rw [hm] at hc
  exact List.ne_nil_of_mem hc

end

theorem due_of_ne_nil
    (hr : resolverSystem.Reach (fun s act => SampledInTime s act ∧ RegistersNoticed s act) s)
    (hw : (s.threads t).AtWait)
    (hne : (s.threads t).tables.timeMap (s.threads t).tables.timeMap1 ≠ []) : s.Due t := by
  have hsampled := hr.mono (H := SampledInTime) fun _ _ hg => hg.1
  have hl := (stored hr).linked t
  obtain ⟨r, hmem, hm⟩ := (LookupThread.dueBeforeWrap_iff hl).mpr hne
  obtain ⟨c, hc, haddr⟩ := LookupThread.exists_cell hl hmem
  obtain ⟨D, hD, hslot⟩ := slot_eq hr t _ c hc
  rw [hm, slot_timeMap1 hsampled hw] at hslot
  exact ⟨r, hmem, D, haddr ▸ hD, hslot.ge⟩

end Sys

/-- **The wait timeout,** in every run that samples the clock often enough: it is that of a real
entry, positive, at most 2^30 and not longer than the time to any deadline whenever some deadline
lies before the next wrap; and only then, if no request is registered between a wrap and its
notice. -/
theorem wait_bounded {s : Sys} (hr : resolverSystem.Reach Sys.SampledInTime s) {t : ℕ}
    (hw : (s.threads t).AtWait) : (s.Due t → s.WaitRight t) ∧
      (resolverSystem.Reach (fun s act => Sys.SampledInTime s act ∧ Sys.RegistersNoticed s act) s →
        (s.WaitRight t ↔ s.Due t)) := by
  have hright : s.Due t → s.WaitRight t := fun hdue =>
    Sys.waitRight_of_ne hr hw (Sys.ne_nil_of_due hr hw hdue)
  exact ⟨hright, fun hr' => ⟨fun h => Sys.due_of_ne_nil hr' hw h.1, hright⟩⟩

/-- A request is made, and the thread comes to its first wait. -/
def waitFirst : List Action :=
  callSteps (.client 0) (.resolve (timedQuery 1 1000)) 2 ++ lookupSteps 0 9

set_option maxRecDepth 10000 in
/-- a request that waits for its reply -/
theorem wait_bounded_first : ∃ s, resolverSystem.run (fun s act => Sys.SampledInTime s act ∧
      Sys.RegistersNoticed s act) waitFirst (Sys.init 0) = some s ∧
    (s.threads 0).AtWait ∧ s.WaitRight 0 ∧ (s.WaitRight 0 ↔ s.Due 0) := by
  obtain ⟨s, hs, hp⟩ := Machine.exists_run resolverSystem (fun s act => Sys.SampledInTime s act ∧
      Sys.RegistersNoticed s act) waitFirst (Sys.init 0)
    (fun s => (s.threads 0).AtWait ∧ .registered 0 (timedQuery 1 1000) 0 false ∈ s.log ∧
      epoch 1000 ≤ epoch (s.threads 0).curTime ∧
      ∃ r ∈ (s.threads 0).tables.resolvers, r.addr = 0) (by decide)
  obtain ⟨hw, hreg, hle, r, hmem, haddr⟩ := of_decide_eq_true hp
  have hr := (reach_init (fun s act => Sys.SampledInTime s act ∧ Sys.RegistersNoticed s act) 0).run
    hs
  have hdue : s.Due 0 := ⟨r, hmem, 1000, haddr ▸ ⟨_, _, _, hreg, rfl⟩, hle⟩
  have h := wait_bounded (hr.mono fun _ _ hg => hg.1) hw
  exact ⟨s, hs, hw, h.1 hdue, h.2 hr⟩

set_option maxRecDepth 10000 in
/-- The only request has its deadline after the wrap, and `timeMap1` is empty. -/
theorem wait_unbounded : ¬ ∀ s, Run s → ∀ t, (s.threads t).AtWait → s.WaitRight t := by
  intro h
  obtain ⟨s, hs, hp⟩ := exists_run_reach (fun _ _ => True) waitFirst
    (fun s => (s.threads 0).AtWait ∧
      (s.threads 0).tables.timeMap (s.threads 0).tables.timeMap1 = [])
    (2 ^ 32 - 100) (by decide)
  obtain ⟨hw, hnil⟩ := of_decide_eq_true hp
  exact (h s hs 0 hw).1 hnil

end Setka
