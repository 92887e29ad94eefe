import Setka.Dns.Timeouts

/-!
# Timeouts that come too late

A request that is registered before the thread has noticed a wrap may time out too early.  None
times out too late: the time map it is put into never stands for an epoch behind its deadline.

* `Move.cells`     the cells of the time maps are old ones, or that of a new request;
* `every_cell`     what holds of a new cell holds of every cell;
* `InTime`         the deadline of a cell does not lie before the epoch of its map;
* `slot_eq`        it lies in this epoch, if the thread has noticed each wrap before a registration;
* `not_overdue`    when the expiry loop is over, no deadline has been passed at the sample.
-/

namespace Setka

namespace LookupThread
variable {T : LookupThread}

theorem slot_le (T : LookupThread) (m : TimeMap) : T.slot m ≤ epoch T.lastTicks + 1 := by
  unfold slot
  split <;> omega

/-- When the expiry loop is over, the keys of `timeMap1` lie behind the sample. -/
theorem lt_key_of_not_expired (hs : ∀ m, Cell.SortedKeys (T.tables.timeMap m))
    (hx : T.expired = none) {c : Cell UInt32 ℕ} (hc : c ∈ T.tables.timeMap T.tables.timeMap1) :
    T.curTime % 2 ^ 32 < c.key.toNat := by
  unfold expired at hx
  cases hm : T.tables.timeMap T.tables.timeMap1 with
  | nil =>
    rw [hm] at hc
    cases hc
  | cons d rest =>
    rw [hm] at hx
    dsimp only at hx
    have hsorted := hs T.tables.timeMap1
    rw [hm] at hsorted hc
    have hle := hsorted.head_le hc
    rw [UInt32.le_iff_toNat_le] at hle
    split at hx
    · rename_i hgt
      rw [gt_iff_lt, UInt32.lt_iff_toNat_lt, ticks_toNat] at hgt
      omega
    · cases hx

/-- the cell of a request -/
theorem exists_cell (hl : T.tables.Linked) {r : Resolver} (hr : r ∈ T.tables.resolvers) :
    ∃ c ∈ T.tables.timeMap r.timeMap, c.val = r.addr := by
  have hmem : Tables.timeLink r ∈ (T.tables.timeMap r.timeMap).map Tables.link := by
    refine (hl.times r.timeMap).mem_iff.mpr (List.mem_map_of_mem ?_)
    exact List.mem_filter.mpr ⟨hr, decide_eq_true rfl⟩
  obtain ⟨c, hc, hlink⟩ := List.mem_map.mp hmem
  exact ⟨c, hc, congrArg Prod.snd hlink⟩

end LookupThread

namespace Sys
variable {act : Action} {s s' : Sys} {t : ℕ} {m : TimeMap} {c : Cell UInt32 ℕ}

/-- A registration in an existing thread comes after the thread has noticed the last wrap. -/
def RegistersNoticed (s : Sys) : Action → Prop
  | .api a => match s.calls a with
    | .resolveRegister _ t false => epoch s.now = epoch (s.threads t).lastTicks
    | _ => True
  | _ => True

instance (s : Sys) (act : Action) : Decidable (RegistersNoticed s act) := by
  apply @Action.casesOn _ act <;> intros <;> dsimp only [RegistersNoticed] <;> try infer_instance
  generalize s.calls _ = c
  apply @Call.casesOn _ c <;> intros <;> try infer_instance
  rename Bool => b
  exact b.casesOn inferInstance inferInstance

/-- `c` is the cell of a request with the deadline `D`, in a map of the epoch `n` or of one before
its own. -/
def CellInTime (s : Sys) (n : ℕ) (c : Cell UInt32 ℕ) : Prop :=
  ∃ D, s.Deadline c.val D ∧ c.key.toNat = D % 2 ^ 32 ∧ n ≤ epoch D

/-- The cells are old ones, in a map of the same epoch, or that of the request that is registered;
whether the thread has noticed the last wrap does not matter, unless the epoch is to be exact. -/
theorem Move.cells (hm : Move act s s') (hc : Calls s) (hcl : (s.threads t).Clock s.now)
    (hs : SampledInTime s act) (hcm : c ∈ (s'.threads t).tables.timeMap m) :
    (c ∈ (s.threads t).tables.timeMap m ∧ (s'.threads t).slot m = (s.threads t).slot m) ∨
      ∃ D, s'.Deadline c.val D ∧ c.key.toNat = D % 2 ^ 32 ∧ (s'.threads t).slot m ≤ epoch D ∧
        (RegistersNoticed s act → (s'.threads t).slot m = epoch D) := by
  have hrem : ∀ {tb : Tables} {x : ℕ} {r : Option Resolver},
      (s.threads t).tables.removeResolver x = some (tb, r) → (s'.threads t).tables = tb →
      (s'.threads t).lastTicks = (s.threads t).lastTicks →
      c ∈ (s.threads t).tables.timeMap m ∧ (s'.threads t).slot m = (s.threads t).slot m := by
    intro tb x r hr htb hl
    obtain ⟨h1, h2⟩ := Tables.removeResolver_timeMap hr
    refine ⟨h2 m (htb ▸ hcm), ?_⟩
    unfold LookupThread.slot
    rw [htb, hl, h1]
  have ht := hm.thread t
  generalize hT' : s'.threads t = T' at ht hcm hrem ⊢
  cases ht with
  | created | cleanedUp | joined => cases m <;> cases hcm
  | registered a q needStart id hcall _ _ hact hs' =>
    have hnew : needStart = true → (s.threads t).tables = {} := by
      rintro rfl
      rw [hc.fresh t (hc.regNew a q t hcall)]
    rcases registerIn_cells hnew hcm with hold | ⟨hv, hk, hslot⟩
    · exact .inl hold
    · refine .inr ⟨s.now + q.timeoutMillis.toNat, ⟨q, s.now,
        (s.runsCallbackOf a == some q.hnr), ?_, rfl⟩, by rw [hk, key_toNat], ?_, fun hg => ?_⟩
      · rw [hv, hs']
        exact List.mem_cons_self
      · by_cases hnotice : needStart = true ∨ epoch s.now = epoch (s.threads t).lastTicks
        · exact (hslot hnotice).le
        · -- the map is of the epoch of the last sample, or of the next one
          obtain ⟨hno, hne⟩ := not_or.mp hnotice
          rw [Bool.not_eq_true] at hno
          subst hno
          have hle := LookupThread.slot_le
            (registerIn (s.threads t) s.now s.nextCall q id false) m
          have hsame : (registerIn (s.threads t) s.now s.nextCall q id false).lastTicks =
              (s.threads t).lastTicks := rfl
          have hlast := hcl.last_le
          rw [hsame] at hle
          unfold epoch at hle hne ⊢
          omega
      · refine hslot ?_
        cases needStart with
        | true => exact .inl rfl
        | false =>
          rw [hact] at hg
          unfold RegistersNoticed at hg
          dsimp only at hg
          rw [hcall] at hg
          exact .inr hg
  | own e T' es _ _ hl hact _ =>
    exact .inl (hl.cells hcl (fun hpc => by rw [hact] at hs; exact hs hpc) hcm)
  | cancelled a x tb r _ _ hr =>
    exact .inl (hrem hr (cancelled_tables _ _) (cancelled_lastTicks _ _))
  | cancelMiss a x tb _ _ hr =>
    exact .inl (hrem hr (cancelled_tables _ _) (cancelled_lastTicks _ _))
  | _ => exact .inl ⟨hcm, rfl⟩

/-- No cell is in a map of an epoch behind its deadline. -/
def InTime (s : Sys) : Prop :=
  ∀ t m, ∀ c ∈ (s.threads t).tables.timeMap m, s.CellInTime ((s.threads t).slot m) c

/-- What holds of a new cell, its deadline and the epoch of its map holds of every cell. -/
theorem every_cell {G : Sys → Action → Prop} (hG : ∀ s act, G s act → SampledInTime s act)
    {P : ℕ → Cell UInt32 ℕ → ℕ → Prop}
    (hnew : ∀ {s act}, G s act → ∀ {n c D}, c.key.toNat = D % 2 ^ 32 → n ≤ epoch D →
      (RegistersNoticed s act → n = epoch D) → P n c D)
    (hr : resolverSystem.Reach G s) : ∀ t m, ∀ c ∈ (s.threads t).tables.timeMap m,
      ∃ D, s.Deadline c.val D ∧ P ((s.threads t).slot m) c D := by
  refine hr.invariant (I := fun s => ∀ t m, ∀ c ∈ (s.threads t).tables.timeMap m,
    ∃ D, s.Deadline c.val D ∧ P ((s.threads t).slot m) c D) ?_ ?_
  · rintro s ⟨now, rfl⟩ t m c hc
    cases m <;> cases hc
  · intro s act s' hr h hg hs t m c hcm
    have hm := sysMove hs
    rcases hm.cells (locks hr).toCalls (clock hG hr t) (hG s act hg) hcm with
      ⟨hold, hslot⟩ | ⟨D, hD, hk, hle, heq⟩
    · obtain ⟨D, hD, hP⟩ := h t m c hold
      exact ⟨D, hm.deadline hD, hslot ▸ hP⟩
    · exact ⟨D, hD, hnew hg hk hle heq⟩

theorem inTime (hr : resolverSystem.Reach SampledInTime s) : InTime s :=
  every_cell (P := fun n c D => c.key.toNat = D % 2 ^ 32 ∧ n ≤ epoch D) (fun _ _ hg => hg)
    (fun _ _ _ _ hk hle _ => ⟨hk, hle⟩) hr

/-- Every cell is in the map of the epoch of its deadline, if no request is registered between a
wrap and its notice. -/
theorem slot_eq (hr : resolverSystem.Reach (fun s act => SampledInTime s act ∧
      RegistersNoticed s act) s) :
    ∀ t m, ∀ c ∈ (s.threads t).tables.timeMap m,
      ∃ D, s.Deadline c.val D ∧ (s.threads t).slot m = epoch D :=
  every_cell (P := fun n _ D => n = epoch D) (fun _ _ hg => hg.1)
    (fun hg _ _ _ _ _ heq => heq hg.2) hr

end Sys

/-- **No timeout comes too late,** in every run that samples the clock often enough: whenever the
expiry loop is over, the deadlines of the active requests lie behind the sample of the iteration. -/
theorem not_overdue {s : Sys} (hr : resolverSystem.Reach Sys.SampledInTime s) {t : ℕ}
    (hw : (s.threads t).AtWait) {r : Resolver} (hmem : r ∈ (s.threads t).tables.resolvers)
    {q : Query} {n : ℕ} {b : Bool} (hreg : .registered r.addr q n b ∈ s.log) :
    (s.threads t).curTime < n + q.timeoutMillis.toNat := by
  have hl := (Sys.stored hr).linked t
  obtain ⟨c, hc, hv⟩ := LookupThread.exists_cell hl hmem
  obtain ⟨D, ⟨q', n', b', hreg', rfl⟩, hk, hle⟩ := Sys.inTime hr t r.timeMap c hc
  rw [hv] at hreg'
  obtain ⟨rfl, rfl⟩ := (Sys.numbered hr).unique r.addr q n b q' n' b' hreg hreg'
  have hexp := (Sys.clock (fun _ _ hg => hg) hr t).expire (by rw [hw.1]; rfl)
  unfold LookupThread.slot at hle
  rw [← hexp] at hle
  by_cases hm : r.timeMap = (s.threads t).tables.timeMap1
  · have hkey := LookupThread.lt_key_of_not_expired hl.sorted hw.2.1 (hm ▸ hc)
    rw [hk] at hkey
    unfold epoch at hle
    omega
  · rw [if_neg hm] at hle
    unfold epoch at hle
    omega

/-- One request has its deadline before the wrap of the tick counter, one behind it; the thread
wakes up after the wrap. -/
def acrossWrap : List Action :=
  callSteps (.client 0) (.resolve (timedQuery 1 500)) 2 ++
    callSteps (.client 0) (.resolve (timedQuery 2 2000)) 3 ++ lookupSteps 0 10 ++
    .tick 1100 :: .run 0 { wake := .ready false false false } :: lookupSteps 0 14

set_option maxRecDepth 10000 in
theorem not_overdue_wrap : ∃ s, resolverSystem.run Sys.SampledInTime acrossWrap
      (Sys.init (2 ^ 32 - 1000)) = some s ∧
    .entered 0 1 .timeout (2 ^ 32 + 100) ∈ s.log ∧
    (s.threads 0).curTime < 2 ^ 32 - 1000 + (timedQuery 2 2000).timeoutMillis.toNat := by
  obtain ⟨s, hs, hp⟩ := Machine.exists_run resolverSystem Sys.SampledInTime acrossWrap
    (Sys.init (2 ^ 32 - 1000))
    (fun s => .entered 0 1 .timeout (2 ^ 32 + 100) ∈ s.log ∧ (s.threads 0).AtWait ∧
      .registered 1 (timedQuery 2 2000) (2 ^ 32 - 1000) false ∈ s.log ∧
      ∃ r ∈ (s.threads 0).tables.resolvers, r.addr = 1) (by decide)
  obtain ⟨hent, hw, hreg, r, hr, haddr⟩ := of_decide_eq_true hp
  rw [← haddr] at hreg
  exact ⟨s, hs, hent, not_overdue ((reach_init _ _).run hs) hw hr hreg⟩

end Setka
