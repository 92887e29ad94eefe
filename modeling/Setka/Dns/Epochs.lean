import Setka.Dns.Phase

/-!
# The swap and the expiry loop, against the unwrapped clock

The thread takes a new clock sample, drains `timeMap1` and swaps the time maps if it notices a tick
wrap, and times out the requests of `timeMap1` whose deadline has come.  Until the expiry loop is
over, callbacks run and other threads go on, but no request is registered in this thread.

* `HasEpoch`            the deadlines in `timeMap1` lie in the epoch of the last sample, those in
                        `timeMap2` in the next one;
* `rank`                the steps the thread has still to take;
* `Phase`, `Fate`       what holds of the thread, and of a request, until the expiry loop is over;
* `phase_times_out`     the requests whose deadline has come time out, each once; the others stay.
-/

namespace Setka

/-- the request that an event times out -/
def Event.timesOut : Event → Option ℕ
  | .entered k _ res _ => if res = .timeout then some k else none
  | .registered _ _ _ _ | .sent _ _ _ | .requeued _ _ | .replied _ _ _ => none
  | .cancelled _ | .cancelReturned _ _ | .assertFailed | .badUnlock => none

/-- a step of `run()` of the thread `t` -/
def Action.isRun (t : ℕ) : Action → Bool
  | .run u _ => u == t
  | .tick _ | .call _ _ | .api _ => false

/-! ## the steps to come -/

def Site.rank : Site → ℕ
  | .wrap => 1
  | .receive | .send | .expire | .drain _ => 0

def Pc.rank : Pc → ℕ
  | .cbLock c => c.site.rank + 4
  | .cbEnter c => c.site.rank + 3
  | .cbRun c => c.site.rank + 2
  | .cbRelock L => L.rank + 1
  | .wrap => 1
  | .notStarted | .joinPrev | .initDNS | .openSocket => 0
  | .loopHead | .lockMutex | .checkError | .receive | .checkWrite | .send | .sample => 0
  | .expire | .drain _ | .wait _ | .popQueue | .leave | .finished | .destroyed => 0

theorem Site.resume_rank {L : Site} (h : L = .wrap ∨ L = .expire) : L.resume.rank = L.rank := by
  rcases h with rfl | rfl <;> rfl

namespace LookupThread

/-- a bound on the steps of `run()` until the expiry loop is over -/
def rank (T : LookupThread) : ℕ := 5 * T.tables.resolvers.length + T.pc.rank

variable {t now : ℕ} {T T' : LookupThread} {es : List Event}

theorem LoopStep.rank_lt (h : LoopStep t now T T' es) (hl : T.tables.Linked)
    (hover : ¬ T.PhaseOver) : T'.rank < T.rank := by
  unfold LookupThread.rank
  cases h with
  | swapped hw =>
    rw [hw]
    exact Nat.lt_succ_self _
  | timedOut L c rest r tb hpc hL _ _ hr =>
    have hlen := (Tables.resolvers_perm hl.keys hr).length_eq
    rw [List.length_cons] at hlen
    rw [hpc, Site.resume_rank (hL.imp_right And.left), hlen]
    show 5 * tb.resolvers.length + (L.rank + 4) < _
    omega
  | cbLock c es hpc | cbEnter c hpc | cbReturn c hpc =>
    rw [hpc]
    exact Nat.lt_succ_self _
  | cbRelock L hpc hL =>
    rw [hpc]
    show _ + L.resume.rank < _ + (L.rank + 1)
    rw [Site.resume_rank hL]
    exact Nat.lt_succ_self _
  | finished T' ho => exact absurd ho hover

theorem Untouched.rank_eq (h : T.Untouched T') : T'.rank = T.rank := by
  unfold LookupThread.rank
  rw [h.tables, h.pc]

end LookupThread

namespace Sys
variable {act : Action} {s s₁ s' s'' : Sys} {t n k D : ℕ}

/-- Until the expiry loop of the thread `t` is over, no request is registered in it. -/
def InPhase (t : ℕ) (s : Sys) (act : Action) : Prop :=
  ¬ (s.threads t).PhaseOver ∧ match act with
    | .api a => match s.calls a with
      | .resolveRegister _ u _ => u ≠ t
      | _ => True
    | _ => True

instance (T : LookupThread) : Decidable T.PhaseOver := inferInstanceAs (Decidable (_ ∧ _))

instance (t : ℕ) (s : Sys) (act : Action) : Decidable (InPhase t s act) := by
  refine @instDecidableAnd _ _ _ ?_
  apply @Action.casesOn _ act <;> intros <;> dsimp only <;> try infer_instance
  generalize s.calls _ = c
  apply @Call.casesOn _ c <;> intros <;> infer_instance

theorem InPhase.not_registered (h : InPhase t s act) {a : Actor} {q : Query} {b : Bool}
    (hact : act = .api a) : s.calls a ≠ .resolveRegister q t b := by
  intro hcall
  subst hact
  have hno := h.2
  dsimp only at hno
  rw [hcall] at hno
  exact hno rfl

theorem cancelled_rank_le {T : LookupThread} {tb : Tables} {x : ℕ} {r : Resolver}
    (hl : T.tables.Linked) (hr : T.tables.removeResolver x = some (tb, some r)) :
    (cancelled T tb).rank ≤ T.rank := by
  have hlen := (Tables.resolvers_perm hl.keys hr).length_eq
  rw [List.length_cons] at hlen
  unfold LookupThread.rank
  rw [cancelled_tables, cancelled_pc, hlen]
  omega

/-! ## the epoch of a state -/

/-- the key of the cell is the deadline of its request, which lies in the epoch `n` -/
def DueIn (s : Sys) (n : ℕ) (c : Cell UInt32 ℕ) : Prop :=
  ∃ D, s.Deadline c.val D ∧ c.key.toNat = D % 2 ^ 32 ∧ epoch D = n

/-- the deadline a registration gives to the request `k` -/
def deadlineOf (k : ℕ) : Event → Option ℕ
  | .registered j q m _ => if j = k then some (m + q.timeoutMillis.toNat) else none
  | _ => none

theorem deadline_iff : s.Deadline k D ↔ ∃ ev ∈ s.log, deadlineOf k ev = some D := by
  constructor
  · rintro ⟨q, m, b, hev, rfl⟩
    exact ⟨_, hev, if_pos rfl⟩
  · rintro ⟨ev, hev, hk⟩
    unfold deadlineOf at hk
    split at hk
    · split at hk
      · rename_i hj
        cases hk
        subst hj
        exact ⟨_, _, _, hev, rfl⟩
      · cases hk
    · cases hk

instance (s : Sys) (n : ℕ) (c : Cell UInt32 ℕ) : Decidable (s.DueIn n c) :=
  decidable_of_iff (∃ ev ∈ s.log, (deadlineOf c.val ev).any
      (fun D => c.key.toNat = D % 2 ^ 32 ∧ epoch D = n) = true) <| by
    unfold DueIn
    simp only [deadline_iff, Option.any_eq_true, decide_eq_true_eq]
    grind

/-- The last sample lies in the epoch `n`, and so do the deadlines in `timeMap1`; those in
`timeMap2` lie in the next one. -/
structure HasEpoch (s : Sys) (t n : ℕ) : Prop where
  last : epoch (s.threads t).lastTicks = n
  first : (s.threads t).lastTicksInFirstHalf = isFirstHalf (ticks (s.threads t).lastTicks)
  map1 : ∀ c ∈ (s.threads t).tables.timeMap (s.threads t).tables.timeMap1, s.DueIn n c
  map2 : ∀ c ∈ (s.threads t).tables.timeMap (s.threads t).tables.timeMap2, s.DueIn (n + 1) c

/-! ## the thread -/

/-- the thread between the sample in the state `s` and the end of the expiry loop -/
structure Phase (s : Sys) (t n : ℕ) (T : LookupThread) : Prop where
  timesOut : T.pc.timesOut
  curTime : T.curTime = s.now
  cells : ∀ m, T.tables.timeMap m ⊆ (s.threads t).tables.timeMap m
  resolvers : T.tables.resolvers ⊆ (s.threads t).tables.resolvers
  wrap : T.pc.site = some .wrap →
    epoch s.now = n + 1 ∧ T.tables.timeMap1 = (s.threads t).tables.timeMap1
  expire : T.pc.site = some .expire →
    T.lastTicks = s.now ∧ T.lastTicksInFirstHalf = isFirstHalf (ticks s.now) ∧
    ((epoch s.now = n ∧ T.tables.timeMap1 = (s.threads t).tables.timeMap1) ∨
      (epoch s.now = n + 1 ∧ T.tables.timeMap1 = (s.threads t).tables.timeMap2 ∧
        T.tables.timeMap T.tables.timeMap2 = []))

theorem sample_step {e : Env} (hpc : (s.threads t).pc = .sample)
    (hs : resolverSystem.step (.run t e) s = some s₁) :
    s₁ = s.setThread t ((s.threads t).sampleStep s.now) := by
  have h : s.runStep t e = some s₁ := hs
  unfold runStep at h
  rw [hpc] at h
  unfold ownStep LookupThread.localStep at h
  rw [hpc] at h
  exact (Option.some.inj h).symm

/-- The thread sees the wrap if and only if there is one. -/
theorem phase_sampled (he : s.HasEpoch t n) (hle : (s.threads t).lastTicks ≤ s.now)
    (hlt : s.now < (s.threads t).lastTicks + (2 ^ 31 - 1)) :
    Phase s t n ((s.threads t).sampleStep s.now) := by
  have hgap : s.now < (s.threads t).lastTicks + 2 ^ 31 := by omega
  have hfirst := he.first
  have hlast := he.last
  unfold LookupThread.sampleStep
  split
  · rename_i h
    rw [Bool.and_eq_true, Bool.not_eq_true', hfirst] at h
    have hep := epoch_wrapped hle hgap h.1 h.2
    rw [hlast] at hep
    exact ⟨.inl rfl, rfl, fun _ => List.Subset.refl _, List.Subset.refl _, fun _ => ⟨hep, rfl⟩,
      fun h => by cases h⟩
  · rename_i h
    rw [Bool.and_eq_true, Bool.not_eq_true', hfirst] at h
    have hep := epoch_same hle hgap h
    rw [hlast] at hep
    exact ⟨.inr rfl, rfl, fun _ => List.Subset.refl _, List.Subset.refl _, fun h => (by cases h),
      fun _ => ⟨rfl, rfl, .inl ⟨hep, rfl⟩⟩⟩

theorem other_other (m : TimeMap) : m.other.other = m := by
  cases m <;> rfl

section
variable {T T' : LookupThread}

/-- what leaves the thread in the phase: the loop does not change, requests may go -/
theorem Phase.keep (h : Phase s t n T) (hsite : T'.pc.site = T.pc.site)
    (hcur : T'.curTime = T.curTime) (hlast : T'.lastTicks = T.lastTicks)
    (hfirst : T'.lastTicksInFirstHalf = T.lastTicksInFirstHalf)
    (h1 : T'.tables.timeMap1 = T.tables.timeMap1)
    (hcells : ∀ m, T'.tables.timeMap m ⊆ T.tables.timeMap m)
    (hres : T'.tables.resolvers ⊆ T.tables.resolvers) : Phase s t n T' := by
  obtain ⟨htimes, hc, hcl, hr, hwrap, hexp⟩ := h
  refine ⟨?_, hcur.trans hc, fun m => List.Subset.trans (hcells m) (hcl m),
    List.Subset.trans hres hr, fun hs => ?_, fun hs => ?_⟩
  · unfold Pc.timesOut
    rw [hsite]
    exact htimes
  · rw [h1]
    exact hwrap (hsite ▸ hs)
  · obtain ⟨hl, hf, hor⟩ := hexp (hsite ▸ hs)
    refine ⟨hlast.trans hl, hfirst.trans hf, ?_⟩
    rw [h1]
    refine hor.imp_right fun ⟨hep, hm, hnil⟩ => ⟨hep, hm, List.subset_nil.mp ?_⟩
    have hsub := hcells T.tables.timeMap2
    rw [hnil] at hsub
    unfold Tables.timeMap2
    rw [h1]
    exact hsub

theorem Phase.removed (h : Phase s t n T) {tb : Tables} {x : ℕ} {r : Resolver}
    (hr : T.tables.removeResolver x = some (tb, some r)) (htb : T'.tables = tb)
    (hsite : T'.pc.site = T.pc.site) (hcur : T'.curTime = T.curTime)
    (hlast : T'.lastTicks = T.lastTicks)
    (hfirst : T'.lastTicksInFirstHalf = T.lastTicksInFirstHalf) : Phase s t n T' := by
  subst htb
  obtain ⟨h1, hcells⟩ := Tables.removeResolver_timeMap hr
  exact h.keep hsite hcur hlast hfirst h1 hcells (Tables.removeResolver_subset hr)

theorem Phase.loopStep (h : Phase s t n T) {now : ℕ} {es : List Event}
    (hs : T.LoopStep t now T' es) (hover : ¬ T.PhaseOver) : Phase s t n T' := by
  have hrefl : ∀ m, T.tables.timeMap m ⊆ T.tables.timeMap m := fun _ => List.Subset.refl _
  cases hs with
  | swapped hw hnil =>
    obtain ⟨hep, h1⟩ := h.wrap (by rw [hw]; rfl)
    refine ⟨.inr rfl, h.curTime, h.cells, h.resolvers, fun hs => (by cases hs), fun _ => ?_⟩
    refine ⟨h.curTime, by rw [← h.curTime], .inr ⟨hep, ?_, ?_⟩⟩
    · show T.tables.timeMap1.other = _
      rw [h1]
      rfl
    · show T.tables.timeMap T.tables.timeMap1.other.other = []
      rw [other_other, hnil]
  | timedOut L c rest r tb hpc hL _ _ hr =>
    refine h.removed hr rfl ?_ rfl rfl rfl
    rw [hpc]
    rcases hL with rfl | ⟨rfl, _⟩ <;> rfl
  | cbLock c es hpc | cbEnter c hpc | cbReturn c hpc =>
    exact h.keep (by rw [hpc]; rfl) rfl rfl rfl rfl hrefl (List.Subset.refl _)
  | cbRelock L hpc hL =>
    refine h.keep ?_ rfl rfl rfl rfl hrefl (List.Subset.refl _)
    rw [hpc]
    rcases hL with rfl | rfl <;> rfl
  | finished T' ho => exact absurd ho hover

end

theorem phase_step (h : Phase s t n (s'.threads t)) (hm : LoopMove act s' s'' t)
    (hg : InPhase t s' act) : Phase s t n (s''.threads t) := by
  cases hm with
  | others es hact hu hlog =>
    refine h.keep (by rw [hu.pc]) hu.curTime hu.lastTicks hu.first (by rw [hu.tables]) ?_ ?_
    · rw [hu.tables]
      exact fun _ => List.Subset.refl _
    · rw [hu.tables]
      exact List.Subset.refl _
  | registered a q id hact hcall => exact absurd hcall (hg.not_registered hact)
  | cancelled a x tb r _ _ hr hT =>
    rw [hT]
    exact h.removed hr (cancelled_tables _ _) (by rw [cancelled_pc]) (cancelled_curTime _ _)
      (cancelled_lastTicks _ _) (cancelled_firstHalf _ _)
  | own e es _ _ hstep =>
    exact h.loopStep hstep hg.1

/-! ## the deadlines -/

theorem deadline_unique (hn : Numbered s) {D' : ℕ} (h : s.Deadline k D) (h' : s.Deadline k D') :
    D = D' := by
  obtain ⟨q, m, b, hev, rfl⟩ := h
  obtain ⟨q', m', b', hev', rfl⟩ := h'
  obtain ⟨rfl, rfl⟩ := hn.unique k q m b q' m' b' hev hev'
  rfl

theorem HasEpoch.due (he : s.HasEpoch t n) (hn : Numbered s) {m : TimeMap} {c : Cell UInt32 ℕ}
    (hc : c ∈ (s.threads t).tables.timeMap m) (hD : s.Deadline c.val D) :
    c.key.toNat = D % 2 ^ 32 ∧ ((m = (s.threads t).tables.timeMap1 ∧ epoch D = n) ∨
      (m = (s.threads t).tables.timeMap2 ∧ epoch D = n + 1)) := by
  by_cases hm : m = (s.threads t).tables.timeMap1
  · rw [hm] at hc
    obtain ⟨D', hD', hk, hep⟩ := he.map1 c hc
    cases deadline_unique hn hD hD'
    exact ⟨hk, .inl ⟨hm, hep⟩⟩
  · have hm2 : m = (s.threads t).tables.timeMap2 := by
      unfold Tables.timeMap2
      revert hm
      cases m <;> cases (s.threads t).tables.timeMap1 <;> simp [TimeMap.other]
    rw [hm2] at hc
    obtain ⟨D', hD', hk, hep⟩ := he.map2 c hc
    cases deadline_unique hn hD hD'
    exact ⟨hk, .inr ⟨hm2, hep⟩⟩

theorem timeMap2_ne (tb : Tables) : tb.timeMap2 ≠ tb.timeMap1 := by
  unfold Tables.timeMap2
  cases tb.timeMap1 <;> exact nofun

section
variable {T : LookupThread} (h : Phase s t n T) (he : s.HasEpoch t n) (hn : Numbered s)
include h he hn

/-- A request that is timed out has reached its deadline. -/
theorem Phase.due {c : Cell UInt32 ℕ} (hc : c ∈ T.tables.timeMap T.tables.timeMap1)
    (hL : T.pc.site = some .wrap ∨ (T.pc.site = some .expire ∧ ¬ c.key > ticks T.curTime))
    (hD : s.Deadline c.val D) : D ≤ s.now := by
  obtain ⟨hk, hor⟩ := he.due hn (h.cells _ hc) hD
  rcases hL with hw | ⟨hx, hkey⟩
  · obtain ⟨hep, h1⟩ := h.wrap hw
    rw [h1] at hor
    rcases hor with ⟨_, hD⟩ | ⟨hm, _⟩
    · unfold epoch at hD hep
      omega
    · exact absurd hm.symm (timeMap2_ne _)
  · have hepD : epoch D = epoch s.now := by
      obtain ⟨_, _, ⟨hep, h1⟩ | ⟨hep, h1, _⟩⟩ := h.expire hx
      · rw [h1] at hor
        rcases hor with ⟨_, hD⟩ | ⟨hm, _⟩
        · rw [hD, hep]
        · exact absurd hm.symm (timeMap2_ne _)
      · rw [h1] at hor
        rcases hor with ⟨hm, _⟩ | ⟨_, hD⟩
        · exact absurd hm (timeMap2_ne _)
        · rw [hD, hep]
    have hle := UInt32.not_lt.mp hkey
    rw [UInt32.le_iff_toNat_le, hk, h.curTime, ticks_toNat] at hle
    unfold epoch at hepD
    omega

/-- After the expiry loop the deadlines that are left have not come. -/
theorem Phase.not_due (ho : T.PhaseOver) (hs : ∀ m, Cell.SortedKeys (T.tables.timeMap m))
    {m : TimeMap} {c : Cell UInt32 ℕ} (hc : c ∈ T.tables.timeMap m) (hD : s.Deadline c.val D) :
    s.now < D := by
  obtain ⟨hk, hor⟩ := he.due hn (h.cells _ hc) hD
  obtain ⟨_, _, hexp⟩ := h.expire (by rw [ho.1]; rfl)
  have hkey : m = T.tables.timeMap1 → s.now % 2 ^ 32 < D % 2 ^ 32 := by
    rintro rfl
    have hx := ho.2
    unfold LookupThread.expired at hx
    split at hx
    · rename_i hnil
      rw [hnil] at hc
      cases hc
    · rename_i d rest hd
      split at hx
      · rename_i hgt
        have hle := (hd ▸ hs T.tables.timeMap1).head_le (hd ▸ hc)
        rw [UInt32.le_iff_toNat_le] at hle
        rw [gt_iff_lt, UInt32.lt_iff_toNat_lt, h.curTime, ticks_toNat] at hgt
        omega
      · cases hx
  rcases hexp with ⟨hep, h1⟩ | ⟨hep, h1, hnil⟩
  · rw [h1] at hkey
    rcases hor with ⟨hm, hD⟩ | ⟨_, hD⟩
    · have := hkey hm
      unfold epoch at hD hep
      omega
    · unfold epoch at hD hep
      omega
  · rw [h1] at hkey
    rcases hor with ⟨hm, _⟩ | ⟨hm, hD⟩
    · have h2 : T.tables.timeMap2 = m := by
        rw [hm]
        unfold Tables.timeMap2
        rw [h1]
        exact other_other _
      rw [← h2, hnil] at hc
      cases hc
    · have := hkey hm
      unfold epoch at hD hep
      omega

end

/-! ## a request -/

/-- how often the callback of the request has been entered with the result `timeout` -/
def timeouts (s : Sys) (k : ℕ) : ℕ := s.log.countP (fun ev => ev.timesOut = some k)

/-- the request `k` with the deadline `D` between the sample in the state `s` and the end of the
expiry loop -/
structure Fate (s : Sys) (t k D : ℕ) (s' : Sys) : Prop where
  apart : ∀ u, u ≠ t → ∀ x, (x, k) ∉ (s'.threads u).unfinished
  old : k < s'.nextCall
  once : (s'.threads t).held.count k + s'.timeouts k + s'.cancellations k =
    1 + s.timeouts k + s.cancellations k
  entering : ∀ c, (s'.threads t).pc = .cbLock c ∨ (s'.threads t).pc = .cbEnter c →
    c.result = .timeout ∧ (c.resolver.addr = k → D ≤ s.now)
  due : s.timeouts k < s'.timeouts k → D ≤ s.now

theorem enters_of_timesOut {ev : Event} (h : ev.timesOut = some k) : ev.enters = some k := by
  cases ev with
  | entered j x res m =>
    have h' : (if res = .timeout then some j else none) = some k := h
    split at h'
    · exact h'
    · cases h'
  | _ => cases h

theorem ends_of_enters {ev : Event} (h : ev.enters = some k) : ev.ends = some k := by
  unfold Event.ends
  rw [h]
  rfl

theorem ends_of_cancels {ev : Event} (h : ev.cancels = some k) : ev.ends = some k := by
  cases ev with
  | cancelled => exact h
  | _ => cases h

/-- The callbacks that are entered are those of timeouts. -/
theorem count_ended_timeouts {es : List Event}
    (h : ∀ ev ∈ es, ev.enters = some k → ev.timesOut = some k) :
    (ended es).count k = es.countP (fun ev => ev.timesOut = some k) +
      es.countP (fun ev => ev.cancels = some k) := by
  rw [count_ended]
  refine congrArg (· + _) (List.countP_congr fun ev hev => ?_)
  rw [decide_eq_true_iff, decide_eq_true_iff]
  exact ⟨h ev hev, enters_of_timesOut⟩

/-- A callback that is about to be entered is that of a timeout, after the deadline. -/
theorem entering_step (hf : Fate s t k D s') (h : Phase s t n (s'.threads t))
    (he : s.HasEpoch t n) (hn : Numbered s) (hD : s.Deadline k D) {T : LookupThread}
    {es : List Event} {now : ℕ} (hs : (s'.threads t).LoopStep t now T es) {c : Callback}
    (hpc : T.pc = .cbLock c ∨ T.pc = .cbEnter c) :
    c.result = .timeout ∧ (c.resolver.addr = k → D ≤ s.now) := by
  cases hs with
  | timedOut L d rest r tb hL hor hd hv =>
    rcases hpc with hpc | hpc <;> cases hpc
    refine ⟨rfl, fun hk => ?_⟩
    have hk' : d.val = k := hv.symm.trans hk
    refine h.due he hn (hd ▸ List.mem_cons_self) ?_ (hk' ▸ hD)
    rcases hor with rfl | ⟨rfl, hkey⟩
    · exact .inl (by rw [hL]; rfl)
    · exact .inr ⟨by rw [hL]; rfl, hkey⟩
  | cbLock d es hd =>
    rcases hpc with hpc | hpc <;> cases hpc
    exact hf.entering c (.inl hd)
  | cbRelock L hL hor =>
    rcases hor with rfl | rfl <;> rcases hpc with hpc | hpc <;> cases hpc
  | finished T' ho hsite =>
    rcases hpc with hpc | hpc <;> rw [hpc] at hsite <;> cases hsite
  | _ => rcases hpc with hpc | hpc <;> cases hpc

/-! ## one step -/

section
variable {es : List Event}

theorem timeouts_of_log (hlog : s''.log = es ++ s'.log) :
    s''.timeouts k = es.countP (fun ev => ev.timesOut = some k) + s'.timeouts k := by
  unfold timeouts
  rw [hlog, List.countP_append]

theorem cancellations_of_log (hlog : s''.log = es ++ s'.log) :
    s''.cancellations k = es.countP (fun ev => ev.cancels = some k) + s'.cancellations k := by
  unfold cancellations
  rw [hlog, List.countP_append]

/-- Events that do not end a request count neither as its timeout nor as its cancellation. -/
theorem countP_of_not_ends (hes : ∀ ev ∈ es, ev.ends ≠ some k) :
    es.countP (fun ev => ev.timesOut = some k) = 0 ∧
      es.countP (fun ev => ev.cancels = some k) = 0 := by
  rw [List.countP_eq_zero, List.countP_eq_zero]
  refine ⟨fun ev hev h => ?_, fun ev hev h => ?_⟩
  · exact hes ev hev (ends_of_enters (enters_of_timesOut (of_decide_eq_true h)))
  · exact hes ev hev (ends_of_cancels (of_decide_eq_true h))

theorem countP_cancelled (x j a k : ℕ) : [Event.cancelReturned x j, .cancelled a].countP
    (fun ev => ev.cancels = some k) = if k = a then 1 else 0 := by
  by_cases hk : k = a
  · rw [if_pos hk, hk]
    simp [Event.cancels]
  · rw [if_neg hk]
    simp [Event.cancels, Ne.symm hk]

end

/-- No other thread comes to hold the request. -/
theorem Fate.apart_step (hf : Fate s t k D s') (hm : Move act s' s'') (hc : Calls s') :
    ∀ u, u ≠ t → ∀ x, (x, k) ∉ (s''.threads u).unfinished := by
  intro u hu x hx
  rcases (hm.thread u).unfinished hc with ⟨_, hsub⟩ | ⟨_, _, _, _, _, hsub⟩
  · exact hf.apart u hu x (hsub hx)
  · rcases List.mem_cons.mp (hsub hx) with heq | hx
    · exact absurd (Prod.mk.inj heq).2 hf.old.ne
    · exact hf.apart u hu x hx

/-- An event of the thread that ends the request is its timeout, after the deadline. -/
theorem Fate.own_ends (hf : Fate s t k D s') {e : Env} {T : LookupThread} {es : List Event}
    (hl : LookupThread.LocalMove t s'.now e (s'.threads t) T es) :
    ∀ ev ∈ es, ev.ends = some k → ev.timesOut = some k ∧ D ≤ s.now := by
  intro ev hev hk
  obtain ⟨c, hpc, hck, rfl⟩ := hl.ends_mem hev hk
  obtain ⟨hres, hdue⟩ := hf.entering c (.inr hpc)
  refine ⟨?_, hdue hck⟩
  unfold Event.timesOut
  rw [hres]
  rfl

theorem fate_step (hf : Fate s t k D s') (h : Phase s t n (s'.threads t)) (he : s.HasEpoch t n)
    (hn : Numbered s) (hD : s.Deadline k D) (hm : Move act s' s'') (hc : Calls s')
    (hl : (s'.threads t).tables.Linked) (hmv : LoopMove act s' s'' t) (hg : InPhase t s' act) :
    Fate s t k D s'' := by
  have hapart := hf.apart_step hm hc
  have hold := hf.old.trans_le hm.nextCall_le
  have honce := hf.once
  cases hmv with
  | others es hact hu hlog hes =>
    have ht := timeouts_of_log (k := k) hlog
    have hcan := cancellations_of_log (k := k) hlog
    obtain ⟨h0, h1⟩ := countP_of_not_ends (k := k) fun ev hev hk => by
      obtain ⟨u, x, hut, hx⟩ := hes ev hev k hk
      exact hf.apart u hut x hx
    rw [h0, zero_add] at ht
    rw [h1, zero_add] at hcan
    refine ⟨hapart, hold, ?_, ?_, ?_⟩
    · rw [LookupThread.held_eq hu.tables (by rw [hu.pc]), ht, hcan]
      exact honce
    · rw [hu.pc]
      exact hf.entering
    · rw [ht]
      exact hf.due
  | registered a q id hact hcall => exact absurd hcall (hg.not_registered hact)
  | cancelled a x tb r _ _ hr hT hlog =>
    have ht := timeouts_of_log (k := k) hlog
    have hcan := cancellations_of_log (k := k) hlog
    have hheld := congrArg (Multiset.count k) (cancelled_held_add hl hr)
    rw [Multiset.count_add, Multiset.count_singleton] at hheld
    have hzero : [Event.cancelReturned x s'.nextCall, .cancelled r.addr].countP
        (fun ev => ev.timesOut = some k) = 0 := rfl
    rw [countP_cancelled] at hcan
    rw [hzero, zero_add] at ht
    refine ⟨hapart, hold, ?_, ?_, ?_⟩
    · rw [hT]
      omega
    · rw [hT, cancelled_pc]
      exact hf.entering
    · rw [ht]
      exact hf.due
  | own e es hact hl' hstep hlog =>
    have ht := timeouts_of_log (k := k) hlog
    have hcan := cancellations_of_log (k := k) hlog
    have hends := hf.own_ends hl'
    have hheld := congrArg (Multiset.count k) (hl'.held hl)
    rw [Multiset.count_add, count_ended_timeouts fun ev hev hk =>
      (hends ev hev (ends_of_enters hk)).1] at hheld
    refine ⟨hapart, hold, ?_, ?_, fun hlt => ?_⟩
    · omega
    · exact fun c => entering_step hf h he hn hD hstep
    · by_cases hev : ∃ ev ∈ es, ev.timesOut = some k
      · obtain ⟨ev, hev, hk⟩ := hev
        exact (hends ev hev (ends_of_enters (enters_of_timesOut hk))).2
      · refine hf.due (hlt.trans_le ?_)
        have h0 : es.countP (fun ev => ev.timesOut = some k) = 0 :=
          List.countP_eq_zero.mpr fun ev hev' hk => hev ⟨ev, hev', of_decide_eq_true hk⟩
        rw [ht, h0, zero_add]

/-! ## the whole phase -/

theorem loopMove_rank (hmv : LoopMove act s s' t) (hl : (s.threads t).tables.Linked)
    (hg : InPhase t s act) :
    (if act.isRun t then 1 else 0) + (s'.threads t).rank ≤ (s.threads t).rank := by
  cases hmv with
  | others es hact hu =>
    rw [hu.rank_eq]
    have hno : act.isRun t = false := by
      cases act with
      | run u e =>
        refine beq_eq_false_iff_ne.mpr ?_
        rintro rfl
        exact hact e rfl
      | _ => rfl
    rw [hno, if_neg Bool.false_ne_true, zero_add]
  | registered a q id hact hcall => exact absurd hcall (hg.not_registered hact)
  | cancelled a x tb r hact _ hr hT =>
    rw [hT, hact, show (Action.api a).isRun t = false from rfl, if_neg Bool.false_ne_true, zero_add]
    exact cancelled_rank_le hl hr
  | own e es hact _ hstep =>
    have hlt := hstep.rank_lt hl hg.1
    split <;> omega

/-- what a run from the sample keeps -/
theorem phase_run {as : List Action} (hr : Run s) (hr₁ : Run s₁) (he : s.HasEpoch t n)
    (h₁ : Phase s t n (s₁.threads t)) (hrun : resolverSystem.Steps (InPhase t) s₁ as s') :
    Phase s t n (s'.threads t) ∧
    as.countP (Action.isRun t) + (s'.threads t).rank ≤ (s₁.threads t).rank ∧
    ∀ k D, s.Deadline k D → Fate s t k D s₁ → Fate s t k D s' := by
  induction hrun with
  | nil => exact ⟨h₁, by rw [List.countP_nil, zero_add], fun _ _ _ h => h⟩
  | @snoc as act s' s'' hrun hg hstep ih =>
    obtain ⟨hph, hrank, hfate⟩ := ih
    have hr' : Run s' := hrun.reach (fun _ _ _ => trivial) hr₁
    have hm := sysMove hstep
    have hc := (locks hr').toCalls
    have hl := (stored hr').linked t
    have hmv := hm.loop hc hl hph.timesOut
    refine ⟨phase_step hph hmv hg, ?_, fun k D hD hf => ?_⟩
    · have hle := loopMove_rank hmv hl hg
      rw [List.countP_append, List.countP_singleton]
      omega
    · exact fate_step (hfate k D hD hf) hph he (numbered hr) hD hm hc hl hmv hg

theorem steps_log_mono {G : Sys → Action → Prop} {as : List Action}
    (h : resolverSystem.Steps G s as s') {ev : Event} (hev : ev ∈ s.log) : ev ∈ s'.log := by
  induction h with
  | nil => exact hev
  | snoc _ _ hstep ih => exact (sysMove hstep).log_mono ih

instance (s : Sys) (t n : ℕ) : Decidable (s.HasEpoch t n) :=
  decidable_of_iff (_ ∧ _ ∧ _ ∧ _)
    ⟨fun h => ⟨h.1, h.2.1, h.2.2.1, h.2.2.2⟩, fun h => ⟨h.last, h.first, h.map1, h.map2⟩⟩

theorem sampleStep_rank_le (T : LookupThread) (now : ℕ) :
    (T.sampleStep now).rank ≤ 5 * T.tables.resolvers.length + 1 := by
  unfold LookupThread.sampleStep
  split
  · exact Nat.le_refl _
  · exact Nat.le_succ _

/-- After the expiry loop the request is active, or it has timed out, or it has been cancelled. -/
theorem Fate.outcome {r : Resolver} (hf : Fate s t r.addr D s') (h : Phase s t n (s'.threads t))
    (he : s.HasEpoch t n) (hn : Numbered s) (ho : (s'.threads t).PhaseOver)
    (hl : (s.threads t).tables.Linked) (hl' : (s'.threads t).tables.Linked)
    (hmem : r ∈ (s.threads t).tables.resolvers) (hD : s.Deadline r.addr D)
    (hcan : s'.cancellations r.addr = s.cancellations r.addr) :
    s'.timeouts r.addr = s.timeouts r.addr + (if D ≤ s.now then 1 else 0) ∧
      (r ∈ (s'.threads t).tables.resolvers ↔ s.now < D) := by
  have honce := hf.once
  rw [LookupThread.held_of_not_entering (by rw [ho.1]; rfl), Multiset.coe_count, hcan] at honce
  have hactive : r.addr ∈ (s'.threads t).tables.addrs → s.now < D ∧
      r ∈ (s'.threads t).tables.resolvers := by
    intro ha
    obtain ⟨r', hr', haddr⟩ := List.mem_map.mp ha
    obtain ⟨c, hc, hlink⟩ := Tables.cell_of_active hl' hr'
    have hval : c.val = r.addr := (congrArg Prod.snd hlink).trans haddr
    refine ⟨h.not_due he hn ho hl'.sorted hc (hval ▸ hD), ?_⟩
    rw [← List.inj_on_of_nodup_map hl.addrs (h.resolvers hr') hmem haddr]
    exact hr'
  have hle : (s'.threads t).tables.addrs.count r.addr ≤ 1 :=
    List.nodup_iff_count_le_one.mp hl'.addrs r.addr
  by_cases hdue : D ≤ s.now
  · have hnot : r.addr ∉ (s'.threads t).tables.addrs :=
      fun ha => absurd (hactive ha).1 (not_lt.mpr hdue)
    rw [List.count_eq_zero_of_not_mem hnot] at honce
    rw [if_pos hdue]
    refine ⟨by omega, fun hr => absurd (List.mem_map_of_mem hr) hnot,
      fun hlt => absurd hdue (not_le.mpr hlt)⟩
  · have hsame : ¬ s.timeouts r.addr < s'.timeouts r.addr := fun hlt => hdue (hf.due hlt)
    have hmem' : r.addr ∈ (s'.threads t).tables.addrs :=
      List.count_pos_iff.mp (by omega)
    rw [if_neg hdue]
    exact ⟨by omega, fun _ => not_le.mp hdue, fun _ => (hactive hmem').2⟩

theorem fate_sampled {e : Env} (hr : Run s) (hpc : (s.threads t).pc = .sample) {r : Resolver}
    (hmem : r ∈ (s.threads t).tables.resolvers)
    (hs : resolverSystem.step (.run t e) s = some s₁) : Fate s t r.addr D s₁ := by
  have hl := (stored hr).linked t
  obtain rfl := sample_step hpc hs
  have hother : ∀ u, u ≠ t → (s.setThread t ((s.threads t).sampleStep s.now)).threads u =
      s.threads u := fun u hu => Function.update_of_ne hu _ _
  have hself : (s.setThread t ((s.threads t).sampleStep s.now)).threads t =
      (s.threads t).sampleStep s.now := Function.update_self _ _ _
  have hpc' : ((s.threads t).sampleStep s.now).pc = .wrap ∨
      ((s.threads t).sampleStep s.now).pc = .expire := by
    unfold LookupThread.sampleStep
    split
    · exact .inl rfl
    · exact .inr rfl
  have htb : ((s.threads t).sampleStep s.now).tables = (s.threads t).tables := by
    unfold LookupThread.sampleStep
    split <;> rfl
  refine ⟨fun u hu x hx => ?_, (stored hr).older t r hmem, ?_, ?_, fun h => absurd h (lt_irrefl _)⟩
  · rw [hother u hu] at hx
    exact hu ((apart hr).apart u t x r.hnr r.addr hx
      (List.mem_append_left _ (List.mem_map_of_mem hmem)))
  · rw [hself,
      LookupThread.held_of_not_entering (by rcases hpc' with h | h <;> rw [h] <;> rfl), htb]
    have hone : Multiset.count r.addr ((s.threads t).tables.addrs : Multiset ℕ) = 1 :=
      Multiset.count_eq_one_of_mem (Multiset.coe_nodup.mpr hl.addrs)
        (Multiset.mem_coe.mpr (List.mem_map_of_mem hmem))
    rw [hone]
    rfl
  · rw [hself]
    intro c hc
    rcases hpc' with h | h <;> rw [h] at hc <;> rcases hc with hc | hc <;> cases hc

/-- the epoch after the expiry loop -/
theorem Phase.hasEpoch (h : Phase s t n (s'.threads t)) (he : s.HasEpoch t n)
    (ho : (s'.threads t).PhaseOver) (hlog : ∀ ev ∈ s.log, ev ∈ s'.log) :
    s'.HasEpoch t (epoch s.now) := by
  have hmono : ∀ {m : ℕ} {c : Cell UInt32 ℕ}, s.DueIn m c → s'.DueIn m c := by
    rintro m c ⟨D, ⟨q, j, b, hev, hD⟩, hk, hep⟩
    exact ⟨D, ⟨q, j, b, hlog _ hev, hD⟩, hk, hep⟩
  obtain ⟨hlast, hfirst, hexp⟩ := h.expire (by rw [ho.1]; rfl)
  refine ⟨by rw [hlast], by rw [hfirst, hlast], fun c hc => ?_, fun c hc => ?_⟩
  · have hc' := h.cells _ hc
    rcases hexp with ⟨hep, h1⟩ | ⟨hep, h1, _⟩
    · rw [h1] at hc'
      rw [hep]
      exact hmono (he.map1 c hc')
    · rw [h1] at hc'
      rw [hep]
      exact hmono (he.map2 c hc')
  · have hc' := h.cells _ hc
    rcases hexp with ⟨hep, h1⟩ | ⟨hep, _, hnil⟩
    · unfold Tables.timeMap2 at hc'
      rw [h1] at hc'
      rw [hep]
      exact hmono (he.map2 c hc')
    · rw [hnil] at hc
      cases hc

end Sys

/-- **The swap and the expiry loop** time out exactly the requests whose deadline has come, each
once, and leave the others registered; the state after them has the epoch of the sample.  The thread
takes a bounded number of steps, and can take the next one unless it has to wait for another
thread. -/
theorem phase_times_out {s s₁ s' : Sys} {t n : ℕ} {e : Env} {as : List Action} (hr : Run s)
    (hpc : (s.threads t).pc = .sample) (he : s.HasEpoch t n)
    (hle : (s.threads t).lastTicks ≤ s.now)
    (hlt : s.now < (s.threads t).lastTicks + (2 ^ 31 - 1))
    (hsample : resolverSystem.step (.run t e) s = some s₁)
    (hrun : resolverSystem.Steps (Sys.InPhase t) s₁ as s') :
    as.countP (Action.isRun t) ≤ 5 * (s.threads t).tables.resolvers.length + 1 ∧
    (¬ (s'.threads t).PhaseOver → ¬ s'.WaitsForOthers t →
      ∃ s'', resolverSystem.step (.run t {}) s' = some s'') ∧
    ((s'.threads t).PhaseOver → s'.HasEpoch t (epoch s.now) ∧
      ∀ r ∈ (s.threads t).tables.resolvers, ∀ D, s.Deadline r.addr D →
        s'.cancellations r.addr = s.cancellations r.addr →
        s'.timeouts r.addr = s.timeouts r.addr + (if D ≤ s.now then 1 else 0) ∧
        (r ∈ (s'.threads t).tables.resolvers ↔ s.now < D)) := by
  have hr₁ : Run s₁ := .step hr trivial hsample
  have hm : Sys.Move (.run t e) s s₁ := Sys.sysMove hsample
  have hr' : Run s' := hrun.reach (fun _ _ _ => trivial) hr₁
  have hT : s₁.threads t = (s.threads t).sampleStep s.now := by
    rw [Sys.sample_step hpc hsample]
    exact Function.update_self _ _ _
  have h₁ : Sys.Phase s t n (s₁.threads t) := by
    rw [hT]
    exact Sys.phase_sampled he hle hlt
  obtain ⟨hph, hrank, hfate⟩ := Sys.phase_run hr hr₁ he h₁ hrun
  refine ⟨?_, fun ho hw => Sys.loop_progress hr' hph.timesOut ho hw {}, fun ho => ⟨?_, ?_⟩⟩
  · have hle := Sys.sampleStep_rank_le (s.threads t) s.now
    rw [← hT] at hle
    omega
  · exact hph.hasEpoch he ho fun ev hev =>
      Sys.steps_log_mono hrun (hm.log_mono hev)
  · intro r hmem D hD hcan
    have hf := hfate r.addr D hD (Sys.fate_sampled hr hpc hmem hsample)
    exact hf.outcome hph he (Sys.numbered hr) ho ((Sys.stored hr).linked t)
      ((Sys.stored hr').linked t) hmem hD hcan

/-- Four requests, two of them with the same deadline before the wrap, one with a deadline after the
wrap that has come at the sample, and one with a later deadline. -/
def fourRequests : List Action :=
  callSteps (.client 0) (.resolve (timedQuery 1 500)) 2 ++
  callSteps (.client 1) (.resolve (timedQuery 2 500)) 3 ++
  callSteps (.client 2) (.resolve (timedQuery 3 1200)) 3 ++
  callSteps (.client 3) (.resolve (timedQuery 4 1900)) 3 ++
  lookupSteps 0 10 ++ .tick 1300 :: .run 0 { wake := .ready false false false } :: lookupSteps 0 7

set_option maxRecDepth 10000 in
/-- a wrap with four requests, three of which time out -/
theorem phase_times_out_wrap : ∃ s s₁ s',
    resolverSystem.run (fun _ _ => True) fourRequests (Sys.init (2 ^ 32 - 1000)) = some s ∧
    resolverSystem.step (.run 0 {}) s = some s₁ ∧
    resolverSystem.run (Sys.InPhase 0) (lookupSteps 0 16) s₁ = some s' ∧
    (s.threads 0).tables.addrs = [0, 1, 2, 3] ∧ (s'.threads 0).PhaseOver ∧ s'.HasEpoch 0 1 ∧
    ∀ r ∈ (s.threads 0).tables.resolvers, ∀ D, s.Deadline r.addr D →
      s'.cancellations r.addr = s.cancellations r.addr →
      s'.timeouts r.addr = s.timeouts r.addr + (if D ≤ 2 ^ 32 + 300 then 1 else 0) ∧
      (r ∈ (s'.threads 0).tables.resolvers ↔ 2 ^ 32 + 300 < D) := by
  obtain ⟨s, hs, hp⟩ := Machine.exists_run resolverSystem (fun _ _ => True) fourRequests
    (Sys.init (2 ^ 32 - 1000)) (fun s => (s.threads 0).pc = .sample ∧ s.HasEpoch 0 0 ∧
      (s.threads 0).lastTicks = 2 ^ 32 - 1000 ∧ s.now = 2 ^ 32 + 300 ∧
      (s.threads 0).tables.addrs = [0, 1, 2, 3] ∧
      (resolverSystem.run (Sys.InPhase 0) (.run 0 {} :: lookupSteps 0 16) s).any
        (fun s' => decide (s'.threads 0).PhaseOver) = true) (by decide)
  obtain ⟨hpc, he, hlast, hnow, haddrs, hrun⟩ := of_decide_eq_true hp
  obtain ⟨s', hs', ho⟩ := Machine.exists_run resolverSystem (Sys.InPhase 0)
    (.run 0 {} :: lookupSteps 0 16) s _ hrun
  unfold Machine.run at hs'
  have hg : Sys.InPhase 0 s (.run 0 {}) := by
    refine ⟨fun h => ?_, trivial⟩
    rw [h.1] at hpc
    cases hpc
  rw [if_pos hg] at hs'
  obtain ⟨s₁, hs₁, hs'⟩ := Option.bind_eq_some_iff.mp hs'
  have h := phase_times_out ((reach_init _ _).run hs) hpc he (by omega) (by omega) hs₁ (.of_run hs')
  obtain ⟨hep, hreq⟩ := h.2.2 (of_decide_eq_true ho)
  rw [hnow] at hep hreq
  exact ⟨s, s₁, s', hs, hs₁, hs', haddrs, of_decide_eq_true ho, hep, hreq⟩

end Setka
