import Mathlib.Algebra.Ring.Int.Defs
import Setka.Dns.Clock

/-!
# Timeouts

`resolve()` puts a request into `timeMap1`, or into `timeMap2` if the sum of its clock sample and
the timeout wraps around.  The thread reads `timeMap1` as the deadlines of the current epoch.

* `RegistersInEpoch`    the condition on a registration in an existing thread: the thread has
                        noticed the last wrap;
* `Deadlines`           the deadlines on the unwrapped clock: what the cells of the time maps say
                        about them, and what is known when a request times out;
* `timeout_not_early`   in every run whose registrations meet the condition, no timeout comes too
                        early;
* `AtWait`              the place where the wait timeout is computed.
-/

namespace Setka

namespace LookupThread

/-- the epoch in which the deadlines of a time map lie -/
def slot (T : LookupThread) (m : TimeMap) : ℕ :=
  epoch T.lastTicks + if m = T.tables.timeMap1 then 0 else 1

variable {t now : ℕ} {e : Env} {T T' : LookupThread} {es : List Event}

/-- A step of `run()` adds no cell to a time map, and leaves the epoch of a map that has cells. -/
theorem LocalMove.cells (h : LocalMove t now e T T' es) (hc : Clock now T)
    (hs : T.pc = .sample → now < T.lastTicks + 2 ^ 31) {m : TimeMap} {c : Cell UInt32 ℕ}
    (hm : c ∈ T'.tables.timeMap m) : c ∈ T.tables.timeMap m ∧ T'.slot m = T.slot m := by
  have hrem : ∀ (tb : Tables) {tb' : Tables} {x : ℕ} {r : Option Resolver},
      tb.timeMap1 = T.tables.timeMap1 →
      (∀ m, tb.timeMap m = T.tables.timeMap m) → tb.removeResolver x = some (tb', r) →
      c ∈ tb'.timeMap m → T'.tables = tb' → T'.lastTicks = T.lastTicks →
      c ∈ T.tables.timeMap m ∧ T'.slot m = T.slot m := by
    intro tb tb' x r h1 h2 hr hcm htb hl
    obtain ⟨h3, h4⟩ := Tables.removeResolver_timeMap hr
    refine ⟨h2 m ▸ h4 m hcm, ?_⟩
    unfold slot
    rw [htb, hl, h3, h1]
  cases h
  case requeueFailed r _ _ _ _ _ _ _ hr =>
    exact hrem (T.tables.requeue r.addr) rfl (fun _ => rfl) hr hm rfl rfl
  case noServer r _ _ _ _ _ _ hr =>
    exact hrem (T.serverChosen r).tables rfl (fun _ => rfl) hr hm rfl rfl
  case replied hr => exact hrem _ rfl (fun _ => rfl) hr hm rfl rfl
  case wrapTimeout hr => exact hrem _ rfl (fun _ => rfl) hr hm rfl rfl
  case expireTimeout hr => exact hrem _ rfl (fun _ => rfl) hr hm rfl rfl
  case drainNext hr => exact hrem _ rfl (fun _ => rfl) hr hm rfl rfl
  case sampled hpc hn =>
    rw [hc.first] at hn
    refine ⟨hm, ?_⟩
    unfold slot
    rw [epoch_same hc.last_le (hs hpc) hn]
  case swapped hpc hnil =>
    -- the map that has a cell is the one that becomes `timeMap1`
    have hne : m ≠ T.tables.timeMap1 := by
      rintro rfl
      rw [show (T.tables.swapTimeMaps).timeMap T.tables.timeMap1 =
        T.tables.timeMap T.tables.timeMap1 from rfl, hnil] at hm
      cases hm
    have heq : m = T.tables.swapTimeMaps.timeMap1 := by
      show m = T.tables.timeMap1.other
      cases m <;> cases hm1 : T.tables.timeMap1 <;> simp_all [TimeMap.other]
    have hw := hc.wrap (by rw [hpc]; rfl)
    refine ⟨hm, ?_⟩
    show epoch T.curTime + _ = epoch T.lastTicks + _
    rw [if_pos heq, if_neg hne, hw]
  all_goals exact ⟨hm, rfl⟩

/-- A request that times out is linked to a cell of `timeMap1`: any cell at a wrap, one with a
deadline that has come otherwise. -/
theorem LocalMove.timeout_cell (h : LocalMove t now e T T' es) (hl : T.tables.Linked)
    {c : Callback} (hpc : T'.pc = .cbLock c) (hres : c.result = .timeout) :
    ∃ d ∈ T.tables.timeMap T.tables.timeMap1, d.val = c.resolver.addr ∧
      (T.pc = .wrap ∨ T.pc = .expire ∧ ¬ d.key > ticks T.curTime) := by
  cases h
  case wrapTimeout d rest r tb r' hw hd hdr hr =>
    cases hpc
    have he := Tables.removed_of_deref hl hdr hr
    refine ⟨d, hd ▸ List.mem_cons_self, ?_, .inl hw⟩
    rw [he, Tables.addr_of_deref hdr]
  case expireTimeout d rest r tb r' hw hd hk hdr hr =>
    cases hpc
    have he := Tables.removed_of_deref hl hdr hr
    refine ⟨d, hd ▸ List.mem_cons_self, ?_, .inr ⟨hw, hk⟩⟩
    rw [he, Tables.addr_of_deref hdr]
  case replied ha _ =>
    cases hpc
    rcases recvAction_eq_some ha with h | ⟨_, _, _, _, _, _, _, _, _, _, hp, ha⟩
    · cases h
    · split at ha
      · cases ha
      · cases ha
        have hres' : _ = DnsResult.timeout := hres
        rcases parseReplyFromDNS_result hp with ⟨h, _⟩ | h | h <;> rw [h] at hres' <;> cases hres'
  case cbRelock s _ _ => cases s <;> cases hpc
  case wakeReady =>
    dsimp only at hpc
    split at hpc <;> cases hpc
  all_goals first | cases hpc; cases hres | simp_all [writeCleared, serverChosen]

theorem LocalMove.cbEnter_pc (h : LocalMove t now e T T' es) {c : Callback}
    (hpc : T'.pc = .cbEnter c) : T.pc = .cbLock c := by
  cases h
  case cbLock h _ =>
    cases hpc
    exact h
  case cbRelock s _ _ => cases s <;> cases hpc
  case wakeReady =>
    dsimp only at hpc
    split at hpc <;> cases hpc
  all_goals simp_all [completing, writeCleared, serverChosen]

end LookupThread
namespace Sys
variable {act : Action} {s s' : Sys} {u : ℕ} {T' : LookupThread}

/-- The cell of a new request is in the time map of the epoch of its deadline, if the thread has
noticed the last wrap. -/
theorem registerIn_cells {T : LookupThread} {now addr : ℕ} {q : Query} {id : UInt16}
    {needStart : Bool} (hnew : needStart = true → T.tables = {}) {m : TimeMap} {c : Cell UInt32 ℕ}
    (hm : c ∈ (registerIn T now addr q id needStart).tables.timeMap m) :
    (c ∈ T.tables.timeMap m ∧ (registerIn T now addr q id needStart).slot m = T.slot m) ∨
    (c.val = addr ∧ c.key = ticks now + q.timeoutMillis ∧
      (needStart = true ∨ epoch now = epoch T.lastTicks →
        (registerIn T now addr q id needStart).slot m = epoch (now + q.timeoutMillis.toNat))) := by
  have h1 : (registerIn T now addr q id needStart).tables.timeMap1 = T.tables.timeMap1 := by
    rw [registerIn_tables]
    exact Tables.setTimeMap_timeMap1 _ _ _
  have hold : c ∈ T.tables.timeMap m →
      c ∈ T.tables.timeMap m ∧ (registerIn T now addr q id needStart).slot m = T.slot m := by
    intro hc
    refine ⟨hc, ?_⟩
    cases needStart with
    | true =>
      rw [hnew rfl] at hc
      cases m <;> cases hc
    | false =>
      unfold LookupThread.slot
      rw [h1]
      rfl
  rw [registerIn_tables, Tables.register_timeMap] at hm
  split at hm
  · rename_i hmap
    rcases Cell.mem_insertUpper.mp hm with rfl | hc
    · refine .inr ⟨rfl, rfl, fun hepoch => ?_⟩
      have hl : epoch (registerIn T now addr q id needStart).lastTicks = epoch now := by
        cases needStart with
        | true => rfl
        | false => exact (hepoch.resolve_left nofun).symm
      unfold LookupThread.slot
      rw [h1, hl, hmap]
      unfold Tables.timeMapFor
      split
      · rename_i hw
        have hne : T.tables.timeMap2 ≠ T.tables.timeMap1 := by
          unfold Tables.timeMap2
          cases T.tables.timeMap1 <;> nofun
        rw [if_neg hne, (wraps_iff now q.timeoutMillis).mp hw]
      · rename_i hw
        rw [if_pos rfl, (not_wraps_iff now q.timeoutMillis).mp hw]
        rfl
    · exact .inl (hold hc)
  · exact .inl (hold hm)

/-! ## the deadlines -/

/-- `D` is the deadline of the request `k` on the unwrapped clock -/
def Deadline (s : Sys) (k D : ℕ) : Prop :=
  ∃ q n b, .registered k q n b ∈ s.log ∧ n + q.timeoutMillis.toNat = D

theorem Move.deadline (h : Move act s s') {k D : ℕ} (hd : s.Deadline k D) : s'.Deadline k D := by
  obtain ⟨q, n, b, hev, hD⟩ := hd
  exact ⟨q, n, b, h.log_mono hev, hD⟩

/-- A registration in an existing thread comes after the thread has noticed the last wrap, or has
the timeout zero. -/
def RegistersInEpoch (s : Sys) : Action → Prop
  | .api a => match s.calls a with
    | .resolveRegister q t false =>
      epoch s.now = epoch (s.threads t).lastTicks ∨ q.timeoutMillis = 0
    | _ => True
  | _ => True

instance (s : Sys) (act : Action) : Decidable (RegistersInEpoch s act) := by
  apply @Action.casesOn _ act <;> intros <;> dsimp only [RegistersInEpoch] <;> try infer_instance
  generalize s.calls _ = c
  apply @Call.casesOn _ c <;> intros <;> try infer_instance
  rename Bool => b
  exact b.casesOn inferInstance inferInstance

structure Deadlines (s : Sys) : Prop where
  cells : ∀ t m, ∀ c ∈ (s.threads t).tables.timeMap m, ∃ D, s.Deadline c.val D ∧
    c.key.toNat = D % 2 ^ 32 ∧ (D ≤ s.now ∨ epoch D = (s.threads t).slot m)
  pending : ∀ t c, (s.threads t).pc = .cbLock c ∨ (s.threads t).pc = .cbEnter c →
    c.result = .timeout → ∃ D ≤ s.now, s.Deadline c.resolver.addr D
  entered : ∀ k x n, .entered k x .timeout n ∈ s.log → ∃ D ≤ n, s.Deadline k D

theorem deadlines_cells (h : Deadlines s) (hm : Move act s s') (hc : Calls s)
    (hcl : ∀ t, (s.threads t).Clock s.now) (hs : SampledInTime s act)
    (hg : RegistersInEpoch s act) (t : ℕ) (m : TimeMap) :
    ∀ c ∈ (s'.threads t).tables.timeMap m, ∃ D, s'.Deadline c.val D ∧
      c.key.toNat = D % 2 ^ 32 ∧ (D ≤ s'.now ∨ epoch D = (s'.threads t).slot m) := by
  intro c hcm
  have hkeep : c ∈ (s.threads t).tables.timeMap m → (s'.threads t).slot m = (s.threads t).slot m →
      ∃ D, s'.Deadline c.val D ∧ c.key.toNat = D % 2 ^ 32 ∧
        (D ≤ s'.now ∨ epoch D = (s'.threads t).slot m) := by
    intro hmem hslot
    obtain ⟨D, hD, hk, hor⟩ := h.cells t m c hmem
    refine ⟨D, hm.deadline hD, hk, ?_⟩
    rw [hslot]
    exact hor.imp_left fun hle => hle.trans hm.now_le
  have hrem : ∀ {tb : Tables} {x : ℕ} {r : Option Resolver},
      (s.threads t).tables.removeResolver x = some (tb, r) → (s'.threads t).tables = tb →
      (s'.threads t).lastTicks = (s.threads t).lastTicks →
      ∃ D, s'.Deadline c.val D ∧ c.key.toNat = D % 2 ^ 32 ∧
        (D ≤ s'.now ∨ epoch D = (s'.threads t).slot m) := by
    intro tb x r hr htb hl
    obtain ⟨h1, h2⟩ := Tables.removeResolver_timeMap hr
    refine hkeep (h2 m (htb ▸ hcm)) ?_
    unfold LookupThread.slot
    rw [htb, hl, h1]
  have ht := hm.thread t
  generalize hT' : s'.threads t = T' at ht hcm hkeep
  cases ht with
  | created | cleanedUp | joined => cases m <;> cases hcm
  | registered a q needStart id hcall _ _ hact hs' =>
    have hnew : needStart = true → (s.threads t).tables = {} := by
      rintro rfl
      rw [hc.fresh t (hc.regNew a q t hcall)]
    rcases registerIn_cells hnew hcm with ⟨hmem, hslot⟩ | ⟨hv, hk, hslot⟩
    · exact hkeep hmem hslot
    · have hD : s'.Deadline c.val (s.now + q.timeoutMillis.toNat) := by
        refine ⟨q, s.now, (s.runsCallbackOf a == some q.hnr), ?_, rfl⟩
        rw [hv, hs']
        exact List.mem_cons_self
      refine ⟨_, hD, by rw [hk, key_toNat], ?_⟩
      cases needStart with
      | true => exact .inr (hslot (.inl rfl)).symm
      | false =>
        rw [hact] at hg
        unfold RegistersInEpoch at hg
        dsimp only at hg
        rw [hcall] at hg
        rcases hg with hg | hg
        · exact .inr (hslot (.inr hg)).symm
        · refine .inl ?_
          rw [hg]
          exact hm.now_le
  | own e T' es _ _ hl hact _ =>
    obtain ⟨hmem, hslot⟩ := hl.cells (hcl t) (fun hpc => by rw [hact] at hs; exact hs hpc) hcm
    exact hkeep hmem hslot
  | cancelled a x tb r _ _ hr =>
    rw [← hT']
    refine hrem hr ?_ ?_ <;> rw [hT']
    · exact cancelled_tables (s.threads t) tb
    · exact cancelled_lastTicks (s.threads t) tb
  | cancelMiss a x tb _ _ hr =>
    rw [← hT']
    refine hrem hr ?_ ?_ <;> rw [hT']
    · exact cancelled_tables (s.threads t) tb
    · exact cancelled_lastTicks (s.threads t) tb
  | _ => exact hkeep hcm rfl

/-- A request that is about to be timed out has reached its deadline. -/
theorem deadlines_pending (h : Deadlines s) (hm : Move act s s') (hst : Stored s)
    (hcl : ∀ t, (s.threads t).Clock s.now) (t : ℕ) (c : Callback)
    (hpc : (s'.threads t).pc = .cbLock c ∨ (s'.threads t).pc = .cbEnter c)
    (hres : c.result = .timeout) : ∃ D ≤ s'.now, s'.Deadline c.resolver.addr D := by
  have hkeep : (s.threads t).pc = .cbLock c ∨ (s.threads t).pc = .cbEnter c →
      ∃ D ≤ s'.now, s'.Deadline c.resolver.addr D := by
    intro hold
    obtain ⟨D, hle, hD⟩ := h.pending t c hold hres
    exact ⟨D, hle.trans hm.now_le, hm.deadline hD⟩
  have ht := hm.thread t
  generalize s'.threads t = T' at ht hpc
  cases ht with
  | own e T' es _ _ hl hact _ =>
    rcases hpc with hpc | hpc
    · obtain ⟨d, hd, hv, hor⟩ := hl.timeout_cell (hst.linked t) hpc hres
      obtain ⟨D, hD, hk, hle⟩ := h.cells t _ d hd
      refine ⟨D, ?_, hv ▸ hm.deadline hD⟩
      refine (hle.elim id fun hslot => ?_).trans hm.now_le
      have hcur := (hcl t).cur_le
      unfold LookupThread.slot at hslot
      rw [if_pos rfl] at hslot
      rcases hor with hw | ⟨hx, hkey⟩
      · -- at a wrap the deadline is in the epoch before the sample
        have hwrap := (hcl t).wrap (by rw [hw]; rfl)
        unfold epoch at hslot hwrap
        omega
      · have hexp := (hcl t).expire (by rw [hx]; rfl)
        have hkey' := UInt32.not_lt.mp hkey
        rw [UInt32.le_iff_toNat_le, hk, ticks_toNat] at hkey'
        rw [hexp] at hkey' hcur
        unfold epoch at hslot
        omega
    · exact hkeep (.inl (hl.cbEnter_pc hpc))
  | registered a q needStart => cases needStart <;> simp_all [registerIn]
  | cancelled a x tb r =>
    rw [cancelled_pc] at hpc
    exact hkeep hpc
  | cancelMiss a x tb =>
    dsimp only at hpc
    rw [cancelled_pc] at hpc
    exact hkeep hpc
  | created | cleanedUp | joined | joinedPrev | openSocket | openFailed | queueEmpty
      | drainedOpen => rcases hpc with hpc | hpc <;> cases hpc
  | _ => exact hkeep hpc

theorem deadlines_entered (h : Deadlines s) (hm : Move act s s') {k x n : ℕ}
    (hev : .entered k x .timeout n ∈ s'.log) : ∃ D ≤ n, s'.Deadline k D := by
  rcases hm.entered_mem hev with hev | ⟨t, c, hpc, rfl, rfl, hres, rfl⟩
  · obtain ⟨D, hle, hD⟩ := h.entered k x n hev
    exact ⟨D, hle, hm.deadline hD⟩
  · obtain ⟨D, hle, hD⟩ := h.pending t c (.inr hpc) hres.symm
    exact ⟨D, hle, hm.deadline hD⟩

/-- the conditions of a run without an early timeout -/
abbrev TimesRight (s : Sys) (act : Action) : Prop := SampledInTime s act ∧ RegistersInEpoch s act

theorem deadlines (hr : resolverSystem.Reach TimesRight s) : Deadlines s := by
  refine hr.invariant (I := Deadlines) ?_ ?_
  · rintro s ⟨now, rfl⟩
    refine ⟨fun t m c hc => ?_, fun t c hpc => ?_, nofun⟩
    · cases m <;> cases hc
    · rcases hpc with hpc | hpc <;> cases hpc
  · intro s act s' hr h hg hs
    have hm := sysMove hs
    have hcl := clock (fun _ _ hg => hg.1) hr
    exact ⟨deadlines_cells h hm (locks hr).toCalls hcl hg.1 hg.2,
      deadlines_pending h hm (stored hr) hcl, fun k x n => deadlines_entered h hm⟩

end Sys

/-- **No timeout comes too early,** in every run that samples the clock often enough, and in which
no request is registered between a wrap and its notice. -/
theorem timeout_not_early {s : Sys} (hr : resolverSystem.Reach Sys.TimesRight s) {k x n n' : ℕ}
    {q : Query} {b : Bool} (hreg : .registered k q n b ∈ s.log)
    (hent : .entered k x .timeout n' ∈ s.log) : n + q.timeoutMillis.toNat ≤ n' := by
  obtain ⟨D, hle, q', n₁, b', hreg', rfl⟩ := (Sys.deadlines hr).entered k x n' hent
  obtain ⟨rfl, rfl⟩ := (Sys.numbered hr).unique k q n b q' n₁ b' hreg hreg'
  exact hle

/-- a request for the host "a" with a timeout -/
def timedQuery (x : ℕ) (timeout : UInt32) : Query := ⟨x, [97], timeout, Address.unset⟩

/-- the thread wakes up, takes the clock sample and enters the callback of a timeout -/
def wakeAndExpire : List Action :=
  .run 0 { wake := .ready false false false } :: lookupSteps 0 11

set_option maxRecDepth 10000 in
/-- a request with a timeout of 500 ms that times out after 600 ms -/
theorem timeout_not_early_600 : ∃ s, resolverSystem.run Sys.TimesRight
      (callSteps (.client 0) (.resolve (timedQuery 1 500)) 2 ++ lookupSteps 0 10 ++
        .tick 600 :: wakeAndExpire) (Sys.init 0) = some s ∧
    .entered 0 1 .timeout 600 ∈ s.log ∧ 0 + (timedQuery 1 500).timeoutMillis.toNat ≤ 600 := by
  obtain ⟨s, hs, hp⟩ := Machine.exists_run resolverSystem Sys.TimesRight
    (callSteps (.client 0) (.resolve (timedQuery 1 500)) 2 ++ lookupSteps 0 10 ++
      .tick 600 :: wakeAndExpire) (Sys.init 0)
    (fun s => .registered 0 (timedQuery 1 500) 0 false ∈ s.log ∧ .entered 0 1 .timeout 600 ∈ s.log)
    (by decide)
  obtain ⟨hreg, hent⟩ := of_decide_eq_true hp
  exact ⟨s, hs, hent, timeout_not_early ((reach_init _ 0).run hs) hreg hent⟩

/-- The clock wraps while the thread waits; a request is registered before the thread has noticed
it. -/
def wrapUnnoticed : List Action :=
  callSteps (.client 0) (.resolve (timedQuery 1 500)) 2 ++ lookupSteps 0 10 ++
  .tick 1100 :: callSteps (.client 1) (.resolve (timedQuery 2 10000)) 3 ++ wakeAndExpire

set_option maxRecDepth 10000 in
theorem timeout_early : ¬ ∀ s, resolverSystem.Reach Sys.SampledInTime s → ∀ k x n n' q b,
    .registered k q n b ∈ s.log → .entered k x .timeout n' ∈ s.log →
    n + q.timeoutMillis.toNat ≤ n' := by
  intro h
  obtain ⟨s, hs, hp⟩ := exists_run_reach Sys.SampledInTime wrapUnnoticed
    (fun s => .registered 1 (timedQuery 2 10000) (2 ^ 32 + 100) false ∈ s.log ∧
      .entered 1 2 .timeout (2 ^ 32 + 100) ∈ s.log) (2 ^ 32 - 1000) (by decide)
  obtain ⟨hreg, hent⟩ := of_decide_eq_true hp
  exact absurd (h s hs 1 2 _ _ _ _ hreg hent) (by decide)

/-! ## the end of an iteration -/

namespace LookupThread

/-- the expiry loop is over, and a request is active: the wait timeout is computed next -/
def AtWait (T : LookupThread) : Prop :=
  T.pc = .expire ∧ T.expired = none ∧ T.tables.resolversMap ≠ []

instance (T : LookupThread) : Decidable T.AtWait := inferInstanceAs (Decidable (_ ∧ _ ∧ _))

/-- an active request is in the time map of the current epoch -/
def DueBeforeWrap (T : LookupThread) : Prop :=
  ∃ r ∈ T.tables.resolvers, r.timeMap = T.tables.timeMap1

variable {T : LookupThread}

theorem dueBeforeWrap_iff (hl : T.tables.Linked) :
    T.DueBeforeWrap ↔ T.tables.timeMap T.tables.timeMap1 ≠ [] := by
  have hp := hl.times T.tables.timeMap1
  constructor
  · rintro ⟨r, hr, hm⟩ hnil
    rw [hnil] at hp
    have hmem : r ∈ T.tables.resolvers.filter (fun r => r.timeMap = T.tables.timeMap1) :=
      List.mem_filter.mpr ⟨hr, decide_eq_true hm⟩
    exact absurd (hp.mem_iff.mpr (List.mem_map_of_mem hmem)) List.not_mem_nil
  · intro hne
    obtain ⟨c, hc⟩ := List.exists_mem_of_ne_nil _ hne
    obtain ⟨r, hr, _⟩ := List.mem_map.mp (hp.mem_iff.mp (List.mem_map_of_mem hc))
    obtain ⟨hr, hm⟩ := List.mem_filter.mp hr
    exact ⟨r, hr, of_decide_eq_true hm⟩

end LookupThread

end Setka
