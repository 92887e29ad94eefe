import Setka.Dns.Conservation
import Setka.Dns.Lifecycle

/-!
# What can happen to a request

The consequences of `follows_lifecycle`.

* `request_traffic`     how many queries, fallbacks, replies and ends a request has;
* `events_in_order`     what has happened before each of its events.
-/

namespace Setka

/-! ## how much happens to a request -/

namespace Event

def isQuery : Event → Bool
  | .sent _ _ _ => true
  | _ => false

/-- a query for the AAAA record -/
def isFirstQuery : Event → Bool
  | .sent _ type _ => type == recordAAAA
  | _ => false

/-- a move to the A record -/
def isFallback : Event → Bool
  | .requeued _ _ => true
  | _ => false

/-- a reply that completes a request -/
def isReply : Event → Bool
  | .replied _ _ _ => true
  | _ => false

/-- the callback of a request, or a `cancel()` that returns `true` -/
def isEnd : Event → Bool
  | .entered _ _ _ _ | .cancelled _ => true
  | _ => false

end Event

/-- how often an event of the kind `p` has happened to the request `k` -/
def happened (p : Event → Bool) (k : ℕ) (log : List Event) : ℕ :=
  log.countP (fun ev => ev.about = some k && p ev)

namespace Stage

/-- the queries that may still be sent -/
def queriesLeft : Stage → ℕ
  | .unregistered => 2
  | .waiting type n => if type = recordAAAA then n + 1 else n
  | .answered _ | .ended => 0

/-- the AAAA queries that may still be sent -/
def firstLeft : Stage → ℕ
  | .unregistered => 1
  | .waiting type n => if type = recordAAAA then n else 0
  | .answered _ | .ended => 0

def fallbacksLeft : Stage → ℕ
  | .unregistered => 1
  | .waiting type _ => if type = recordAAAA then 1 else 0
  | .answered _ | .ended => 0

def repliesLeft : Stage → ℕ
  | .unregistered | .waiting _ _ => 1
  | .answered _ | .ended => 0

def endsLeft : Stage → ℕ
  | .unregistered | .waiting _ _ | .answered _ => 1
  | .ended => 0

end Stage

theorem recordA_ne : recordA ≠ recordAAAA := by decide

/-- What the stages have left of the events of a kind bounds them. -/
theorem happened_le {log : List Event} {k : ℕ} {q : Stage} {p : Event → Bool} (left : Stage → ℕ)
    (hstep : ∀ q ev q', Stage.Move q ev q' → (if p ev then 1 else 0) + left q' ≤ left q)
    (h : (lifecycle k).after log = some q) : happened p k log ≤ left .unregistered := by
  have hle : happened p k log + left q ≤ left .unregistered := by
    refine Monitor.countP_add_le left (fun q ev q' hq => ?_) h
    rcases lifecycle_move hq with ⟨hk, hm⟩ | ⟨hk, rfl⟩
    · rw [hk]
      simpa using hstep q ev q' hm
    · simp [hk]
  omega

/-- how much happens to the request `k` -/
structure Traffic (k : ℕ) (log : List Event) : Prop where
  queries : happened Event.isQuery k log ≤ 2
  first : happened Event.isFirstQuery k log ≤ 1
  fallbacks : happened Event.isFallback k log ≤ 1
  replies : happened Event.isReply k log ≤ 1
  ends : happened Event.isEnd k log ≤ 1

/-- **The traffic of a request,** in every run: at most two queries, of which one is for the AAAA
record, at most one fallback and one reply that counts; and it ends at most once. -/
theorem request_traffic {s : Sys} (hr : Run s) (k : ℕ) : Traffic k s.log := by
  obtain ⟨q, hq⟩ := (Sys.refines hr).accepted k
  constructor
  · refine happened_le Stage.queriesLeft (fun q ev q' hm => ?_) hq
    cases hm with
    | sent _ type _ n =>
      by_cases ht : type = recordAAAA
      · simp [Stage.queriesLeft, Event.isQuery, ht, Nat.add_comm]
      · simp [Stage.queriesLeft, Event.isQuery, ht, Nat.add_comm]
    | _ => simp [Stage.queriesLeft, Event.isQuery, recordA_ne]
  · refine happened_le Stage.firstLeft (fun q ev q' hm => ?_) hq
    cases hm with
    | sent _ type _ n =>
      by_cases ht : type = recordAAAA
      · simp [Stage.firstLeft, Event.isFirstQuery, ht, Nat.add_comm]
      · simp [Stage.firstLeft, Event.isFirstQuery, ht]
    | _ => simp [Stage.firstLeft, Event.isFirstQuery, recordA_ne]
  · refine happened_le Stage.fallbacksLeft (fun q ev q' hm => ?_) hq
    cases hm <;> simp [Stage.fallbacksLeft, Event.isFallback, recordA_ne]
  · refine happened_le Stage.repliesLeft (fun q ev q' hm => ?_) hq
    cases hm <;> simp [Stage.repliesLeft, Event.isReply]
  · refine happened_le Stage.endsLeft (fun q ev q' hm => ?_) hq
    cases hm <;> simp [Stage.endsLeft, Event.isEnd]

set_option maxRecDepth 10000 in
/-- a request that has sent both queries and is answered -/
theorem request_traffic_both : ∃ s, resolverSystem.run (fun _ _ => True) lateCopy (Sys.init 0) =
      some s ∧ happened Event.isQuery 0 s.log = 2 ∧ happened Event.isReply 0 s.log = 1 ∧
    Traffic 0 s.log := by
  obtain ⟨s, hs, hp⟩ := Machine.exists_run resolverSystem (fun _ _ => True) lateCopy (Sys.init 0)
    (fun s => happened Event.isQuery 0 s.log = 2 ∧ happened Event.isReply 0 s.log = 1) (by decide)
  obtain ⟨hquery, hreply⟩ := of_decide_eq_true hp
  exact ⟨s, hs, hquery, hreply, request_traffic ((reach_init _ 0).run hs) 0⟩

/-! ## what has happened before -/

/-- what has happened to a request before one of its events -/
structure InOrder (ev : Event) (older : List Event) : Prop where
  /-- it has been registered -/
  begun : ∀ k, ev.about = some k → (∃ q n b, ev = .registered k q n b) ∨
    ∃ q n b, .registered k q n b ∈ older
  /-- it has not ended -/
  alive : ∀ k, ev.about = some k → ∀ ev' ∈ older, ev'.ends ≠ some k
  /-- an A query comes after a datagram that asked for it -/
  moved : ∀ k a, ev = .sent k recordA a → ∃ d, .requeued k d ∈ older
  /-- a callback reports the result of a datagram, or gives the request up -/
  reports : ∀ k x result now, ev = .entered k x result now → Stage.givenUp result = false →
    ∃ d, .replied k d result ∈ older

theorem about_of_ends {k : ℕ} {ev : Event} (h : ev.ends = some k) : ev.about = some k := by
  cases ev with
  | entered j x result now => exact h
  | cancelled j => exact h
  | _ => cases h

section
variable {log : List Event} {k : ℕ} {q : Stage} (h : (lifecycle k).after log = some q)
include h

theorem registered_of_stage (hq : q ≠ .unregistered) : ∃ q n b, .registered k q n b ∈ log := by
  have hmem : ∃ ev ∈ log, ∃ q n b, ev = .registered k q n b := by
    refine Monitor.mem_older (· ≠ .unregistered) (fun h => h rfl) ?_ h hq
    intro q ev q' hq hne
    rcases lifecycle_move hq with ⟨hk, hm⟩ | ⟨_, rfl⟩
    · cases hm with
      | registered j q n b => exact .inr ⟨q, n, b, by rw [Option.some.inj hk]⟩
      | _ => exact .inl nofun
    · exact .inl hne
  obtain ⟨_, hev, q₀, n, b, rfl⟩ := hmem
  exact ⟨q₀, n, b, hev⟩

theorem requeued_of_stage {n : ℕ} (hq : q = .waiting recordA n) : ∃ d, .requeued k d ∈ log := by
  have hmem : ∃ ev ∈ log, ∃ d, ev = .requeued k d := by
    refine Monitor.mem_older (fun q => ∃ n, q = .waiting recordA n) ?_ ?_ h ⟨n, hq⟩
    · rintro ⟨n, hn⟩
      cases hn
    · rintro q ev q' hq ⟨n, rfl⟩
      rcases lifecycle_move hq with ⟨hk, hm⟩ | ⟨_, rfl⟩
      · cases hm with
        | requeued j d n => exact .inr ⟨d, by rw [Option.some.inj hk]⟩
        | sent j type a n => exact .inl ⟨n + 1, rfl⟩
      · exact .inl ⟨n, rfl⟩
  obtain ⟨_, hev, d, rfl⟩ := hmem
  exact ⟨d, hev⟩

theorem replied_of_stage {result : DnsResult} (hq : q = .answered result) :
    ∃ d, .replied k d result ∈ log := by
  have hmem : ∃ ev ∈ log, ∃ d, ev = .replied k d result := by
    refine Monitor.mem_older (· = .answered result) (fun h => by cases h) ?_ h hq
    rintro q ev q' hq rfl
    rcases lifecycle_move hq with ⟨hk, hm⟩ | ⟨_, rfl⟩
    · cases hm with
      | replied j d => exact .inr ⟨d, by rw [Option.some.inj hk]⟩
    · exact .inl rfl
  obtain ⟨_, hev, d, rfl⟩ := hmem
  exact ⟨d, hev⟩

theorem ended_of_mem {ev : Event} (hev : ev.ends = some k) (hmem : ev ∈ log) : q = .ended := by
  refine Monitor.mark_of_mem (· = .ended) (fun q q' hq => ?_)
    (fun q ev q' hq hm => ?_) h hmem
  · rcases lifecycle_move hq with ⟨_, hm⟩ | ⟨hk, _⟩
    · cases hm with
      | cancelled | gaveUp | entered => rfl
      | _ => cases hev
    · exact absurd (about_of_ends hev) hk
  · subst hq
    rcases lifecycle_move hm with ⟨_, hm⟩ | ⟨_, rfl⟩
    · cases hm
    · rfl

end

/-- **The events of every request are in order,** in every run. -/
theorem events_in_order {s : Sys} (hr : Run s) : History.Always InOrder s.log := by
  intro newer ev older hlog
  -- the stage of the request before and after the event
  have hstage : ∀ k, ev.about = some k → ∃ q q', (lifecycle k).after older = some q ∧
      Stage.Move q ev q' := by
    intro k hk
    obtain ⟨q₂, hq₂⟩ := (Sys.refines hr).accepted k
    rw [hlog] at hq₂
    obtain ⟨q', hq'⟩ := Monitor.after_append hq₂
    obtain ⟨q, hq, hnext⟩ := Monitor.after_cons_some hq'
    rcases lifecycle_move hnext with ⟨_, hm⟩ | ⟨hne, _⟩
    · exact ⟨q, q', hq, hm⟩
    · exact absurd hk hne
  constructor
  · intro k hk
    obtain ⟨q, q', hq, hm⟩ := hstage k hk
    cases hm with
    | registered j q₀ n b => exact .inl ⟨q₀, n, b, by rw [Option.some.inj hk]⟩
    | _ => exact .inr (registered_of_stage hq nofun)
  · intro k hk ev' hev' hends
    obtain ⟨q, q', hq, hm⟩ := hstage k hk
    cases ended_of_mem hq hends hev'
    cases hm
  · rintro k a rfl
    obtain ⟨q, q', hq, hm⟩ := hstage k rfl
    cases hm with
    | sent j type a n => exact requeued_of_stage hq rfl
  · rintro k x result now rfl hres
    obtain ⟨q, q', hq, hm⟩ := hstage k rfl
    cases hm with
    | gaveUp j x n res type m hg =>
      rw [hres] at hg
      cases hg
    | entered => exact replied_of_stage hq rfl

set_option maxRecDepth 10000 in
/-- an A query, and a reply to it -/
theorem events_in_order_both : ∃ s, resolverSystem.run (fun _ _ => True) lateCopy (Sys.init 0) =
      some s ∧ .sent 0 recordA ⟨Ip.ofV4 0x7f000001, 53⟩ ∈ s.log ∧
    History.Always InOrder s.log := by
  obtain ⟨s, hs, hp⟩ := Machine.exists_run resolverSystem (fun _ _ => True) lateCopy (Sys.init 0)
    (fun s => .sent 0 recordA ⟨Ip.ofV4 0x7f000001, 53⟩ ∈ s.log) (by decide)
  exact ⟨s, hs, of_decide_eq_true hp, events_in_order ((reach_init _ 0).run hs)⟩

end Setka
