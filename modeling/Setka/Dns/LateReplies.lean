import Setka.Dns.Lifecycle

/-!
# Late and repeated replies

The thread takes a datagram for a reply by its id and its host name.  Whether it is one to the query
sent last depends on what the network delivers, and when.

* `sentTypes`, `receivedFor`   the queries of a request, and the datagrams received for it;
* `RepliesInTurn`      a datagram repeats the question of a query that was sent, and is the first
                       one to do so;
* `expects_iff`        then it is a reply to the query sent last, and only then;
* `replies_answer`     if every datagram comes in turn, only replies to the query sent last complete
                       a request or move it to the A record;
* `late_reply_completes`   a second copy of the AAAA reply completes the request.
-/

namespace Setka

open Span History

/-! ## queries and datagrams -/

namespace Event

/-- the type of a query that was sent for the request `k` -/
def queryType (k : ℕ) : Event → Option UInt16
  | .sent j type _ => if j = k then some type else none
  | _ => none

/-- a datagram that was received for the request `k` -/
def datagram (k : ℕ) : Event → Option Datagram
  | .requeued j d | .replied j d _ => if j = k then some d else none
  | _ => none

variable {k : ℕ} {ev : Event}

theorem queryType_other (h : ev.about ≠ some k) : ev.queryType k = none := by
  cases ev with
  | sent j type a => exact if_neg fun hj => h (congrArg some hj)
  | _ => rfl

theorem datagram_other (h : ev.about ≠ some k) : ev.datagram k = none := by
  cases ev with
  | requeued j d | replied j d res => exact if_neg fun hj => h (congrArg some hj)
  | _ => rfl

end Event

/-- the types of the queries that were sent for a request, the newest first -/
def sentTypes (log : List Event) (k : ℕ) : List UInt16 := log.filterMap (Event.queryType k)

/-- the datagrams that were received for a request, the newest first -/
def receivedFor (log : List Event) (k : ℕ) : List Datagram := log.filterMap (Event.datagram k)

section
variable {log : List Event} {ev : Event} {k : ℕ} {type : UInt16} {a : Address}

theorem sentTypes_sent : sentTypes (.sent k type a :: log) k = type :: sentTypes log k :=
  List.filterMap_cons_some (if_pos rfl)

theorem receivedFor_requeued {d : Datagram} :
    receivedFor (.requeued k d :: log) k = d :: receivedFor log k :=
  List.filterMap_cons_some (if_pos rfl)

theorem sentTypes_append (newer older : List Event) :
    sentTypes (newer ++ older) k = sentTypes newer k ++ sentTypes older k := List.filterMap_append

theorem receivedFor_append (newer older : List Event) :
    receivedFor (newer ++ older) k = receivedFor newer k ++ receivedFor older k :=
  List.filterMap_append

theorem sentTypes_other (h : ev.about ≠ some k) : sentTypes (ev :: log) k = sentTypes log k :=
  List.filterMap_cons_none (Event.queryType_other h)

theorem receivedFor_other (h : ev.about ≠ some k) :
    receivedFor (ev :: log) k = receivedFor log k :=
  List.filterMap_cons_none (Event.datagram_other h)

/-- The query sent last is the newest one. -/
theorem head?_sentTypes (log : List Event) (k : ℕ) : (sentTypes log k).head? = lastSent log k := by
  induction log with
  | nil => rfl
  | cons ev log ih =>
    cases ev with
    | sent j type a =>
      show _ = if j = k then _ else _
      by_cases hj : j = k
      · rw [hj, sentTypes_sent, if_pos rfl]
        rfl
      · have hother : (Event.sent j type a).about ≠ some k := fun h => hj (Option.some.inj h)
        rw [sentTypes_other hother, if_neg hj]
        exact ih
    | _ => exact ih

end

/-- The datagram repeats the question of a query that was sent for the request, and is the first one
to do so.  A second reply to the AAAA query does no harm as long as the A query is not sent, unless
it says "not found". -/
def RepliesInTurn (log : List Event) (r : Resolver) (d : Datagram) : Prop :=
  ∃ type ∈ sentTypes log r.addr, d.Asks r.hostName type ∧
    ((∀ d' ∈ receivedFor log r.addr, ¬ d'.Asks r.hostName type) ∨
      (recordA ∉ sentTypes log r.addr ∧ header d.buf ≠ some .notFound))

instance (log : List Event) (r : Resolver) (d : Datagram) : Decidable (RepliesInTurn log r d) :=
  inferInstanceAs (Decidable (∃ type ∈ sentTypes log r.addr, _))

/-- A datagram has one question. -/
theorem Datagram.Asks.type_eq {d : Datagram} {name : Bytes} {type type' : UInt16}
    (h : d.Asks name type) (h' : d.Asks name type') : type = type' :=
  Option.some.inj ((deserialize16be_at h.2.right.left).symm.trans
    (deserialize16be_at h'.2.right.left))

/-! ## what the automaton of a request says about them -/

section
variable {log : List Event} {k : ℕ}

/-- Before a request is moved, only AAAA queries were sent, and nothing was received for it. -/
theorem first_stage {q : Stage} (h : (lifecycle k).after log = some q)
    (hq : q = .unregistered ∨ ∃ n, q = .waiting recordAAAA n) :
    (∀ type ∈ sentTypes log k, type = recordAAAA) ∧ receivedFor log k = [] := by
  induction log generalizing q with
  | nil => exact ⟨nofun, rfl⟩
  | cons ev log ih =>
    obtain ⟨q₀, hq₀, hnext⟩ := Monitor.after_cons_some h
    rcases lifecycle_move hnext with ⟨hk, hm⟩ | ⟨hk, rfl⟩
    · cases hm with
      | registered => exact ih hq₀ (.inl rfl)
      | sent j type a n =>
        obtain ⟨m, hm⟩ := hq.resolve_left nofun
        obtain ⟨rfl, _⟩ := Stage.waiting.inj hm
        obtain ⟨hsent, hrec⟩ := ih hq₀ (.inr ⟨_, rfl⟩)
        cases Option.some.inj hk
        rw [sentTypes_sent]
        exact ⟨List.forall_mem_cons.mpr ⟨rfl, hsent⟩, hrec⟩
      | requeued =>
        obtain ⟨m, hm⟩ := hq.resolve_left nofun
        exact absurd (Stage.waiting.inj hm).1 (by decide)
      | replied | cancelled | gaveUp | entered =>
        obtain ⟨m, hm⟩ := hq.resolve_left nofun
        cases hm
    · rw [sentTypes_other hk, receivedFor_other hk]
      exact ih hq₀ hq

/-- After a request was moved, only A queries were sent, and nothing was received for it. -/
theorem second_stage {n : ℕ} (h : (lifecycle k).after log = some (.waiting recordA n)) :
    ∃ newer d older, log = newer ++ .requeued k d :: older ∧
      (∃ m, (lifecycle k).after older = some (.waiting recordAAAA m)) ∧
      (∀ type ∈ sentTypes newer k, type = recordA) ∧ receivedFor newer k = [] := by
  induction log generalizing n with
  | nil => cases h
  | cons ev log ih =>
    obtain ⟨q₀, hq₀, hnext⟩ := Monitor.after_cons_some h
    generalize hq : Stage.waiting recordA n = q at hnext
    rcases lifecycle_move hnext with ⟨hk, hm⟩ | ⟨hk, rfl⟩
    · cases hm with
      | sent j type a n =>
        obtain ⟨rfl, _⟩ := Stage.waiting.inj hq
        obtain ⟨newer, d, older, rfl, hold, hsent, hrec⟩ := ih hq₀
        refine ⟨_ :: newer, d, older, rfl, hold, ?_, hrec⟩
        cases Option.some.inj hk
        rw [sentTypes_sent]
        exact List.forall_mem_cons.mpr ⟨rfl, hsent⟩
      | requeued j d m =>
        cases Option.some.inj hk
        exact ⟨[], d, log, rfl, ⟨m, hq₀⟩, nofun, rfl⟩
      | registered => exact absurd (Stage.waiting.inj hq).1 (by decide)
      | replied | cancelled | gaveUp | entered => cases hq
    · subst hq
      obtain ⟨newer, d, older, rfl, hold, hsent, hrec⟩ := ih hq₀
      refine ⟨ev :: newer, d, older, rfl, hold, ?_, ?_⟩
      · rw [sentTypes_other hk]
        exact hsent
      · rw [receivedFor_other hk]
        exact hrec

end

namespace Resolver
variable {r : Resolver}

theorem queried_of_sent (h : r.sendIter = none) : r.queried = some r.recordType := by
  unfold queried
  rw [h]

theorem sent_of_queried (h : r.queried = some recordA) : r.sendIter = none := by
  unfold queried at h
  split at h
  · assumption
  · split at h <;> cases h

end Resolver

section
variable {tb : Tables} {d : Datagram} {r : Resolver} (h : matchedRequest tb d = some r)
include h

theorem matchedRequest_eq_some : ∃ id p q, 13 ≤ d.size ∧ deserialize16be d.buf 0 = some id ∧
    tb.findId id = some p ∧ tb.deref p = some r ∧
    parseHostNameFromDNSPacket d.buf 12 bufSize = some (r.hostName, q) := by
  unfold matchedRequest at h
  obtain ⟨hsize, h⟩ := Option.ite_none_left_eq_some.mp h
  obtain ⟨id, hid, h⟩ := Option.bind_eq_some_iff.mp h
  obtain ⟨p, hp, h⟩ := Option.bind_eq_some_iff.mp h
  obtain ⟨r', hr', h⟩ := Option.bind_eq_some_iff.mp h
  obtain ⟨⟨host, q⟩, hhost, h⟩ := Option.bind_eq_some_iff.mp h
  obtain ⟨hname, hsome⟩ := Option.ite_none_right_eq_some.mp h
  obtain rfl := Option.some.inj hsome
  exact ⟨id, p, q, Nat.not_lt.mp hsize, hid, hp, hr', hname ▸ hhost⟩

theorem mem_of_matchedRequest : r ∈ tb.resolvers := by
  obtain ⟨_, _, _, _, _, _, hr, _⟩ := matchedRequest_eq_some h
  exact (Tables.deref_eq_some hr).1

/-- A datagram that is taken for a reply is parsed. -/
theorem recvAction_of_matchedRequest {a : RecvAction}
    (ha : recvAction tb d.buf d.size = some a) :
    ∃ res, 13 ≤ d.size ∧ parseReplyFromDNS r d.buf d.size = some res ∧
      a = if res.result = .notFound ∧ r.recordType = recordAAAA then .requeue r
        else .complete r res := by
  obtain ⟨id, p, q, hsize, hid, hp, hr, hhost⟩ := matchedRequest_eq_some h
  unfold recvAction at ha
  rw [if_neg (Nat.not_lt.mpr hsize), hid, Option.bind_eq_bind, Option.bind_some, hp] at ha
  dsimp only at ha
  rw [hr, Option.bind_eq_bind, Option.bind_some, hhost, Option.bind_eq_bind, Option.bind_some,
    if_neg (not_not.mpr rfl)] at ha
  obtain ⟨res, hres, ha⟩ := Option.bind_eq_some_iff.mp ha
  refine ⟨res, hsize, hres, ?_⟩
  split at ha
  · rename_i hc
    rw [if_pos hc]
    exact (Option.some.inj ha).symm
  · rename_i hc
    rw [if_neg hc]
    exact (Option.some.inj ha).symm

end

/-! ## the condition -/

namespace Sys
variable {act : Action} {s s' : Sys} {t : ℕ} {r : Resolver} {d : Datagram}

/-- A received datagram that is taken for a reply comes in turn. -/
def DeliversInTurn (s : Sys) : Action → Prop
  | .run t e => match e.recv with
    | .datagram d => (s.threads t).pc = .receive → (s.threads t).flags.read = true →
      ∀ r ∈ matchedRequest (s.threads t).tables d, RepliesInTurn s.log r d
    | _ => True
  | _ => True

instance (s : Sys) (act : Action) : Decidable (DeliversInTurn s act) := by
  apply @Action.casesOn _ act <;> intros <;> dsimp only [DeliversInTurn] <;> try infer_instance
  generalize Env.recv _ = v
  apply @Recv.casesOn _ v <;> intros <;> infer_instance

section
variable (hr : resolverSystem.Reach AnswersQuery s)
include hr

/-- The datagram that has moved a request answered its AAAA query. -/
theorem moved_by (hmem : r ∈ (s.threads t).tables.resolvers) (htype : r.recordType = recordA) :
    ∃ d types types', receivedFor s.log r.addr = [d] ∧ d.Asks r.hostName recordAAAA ∧
      sentTypes s.log r.addr = types ++ recordAAAA :: types' ∧
      (∀ type ∈ types, type = recordA) ∧ ∀ type ∈ types', type = recordAAAA := by
  have hstage := (refines hr).active t r hmem
  rw [htype] at hstage
  obtain ⟨newer, d, older, hlog, ⟨m, hfirst⟩, hsent, hrec⟩ := second_stage hstage
  obtain ⟨hsent', hrec'⟩ := first_stage hfirst (.inr ⟨m, rfl⟩)
  obtain ⟨type, hlast, q, n, b, hreg, hasks⟩ := (replying hr).ok newer _ older hlog
  rw [← head?_sentTypes] at hlast
  obtain ⟨types', htypes⟩ := List.head?_eq_some_iff.mp hlast
  obtain rfl := hsent' type (htypes ▸ List.mem_cons_self)
  -- the name of the question is that of the record
  obtain ⟨q', n', b', hreg', hname⟩ := ((replying hr).tracked t r hmem).name
  have hreg₀ : .registered r.addr q n b ∈ s.log := by
    rw [hlog]
    exact List.mem_append_right _ (List.mem_cons_of_mem _ hreg)
  obtain ⟨rfl, _⟩ := (numbered hr).unique r.addr q n b q' n' b' hreg₀ hreg'
  refine ⟨d, sentTypes newer r.addr, types', ?_, hname ▸ hasks, ?_, hsent, fun type' h => ?_⟩
  · rw [hlog, receivedFor_append, receivedFor_requeued, hrec, hrec', List.nil_append]
  · rw [hlog, sentTypes_append]
    exact congrArg _ htypes
  · exact hsent' type' (htypes ▸ List.mem_cons_of_mem _ h)

theorem head?_sentTypes_queried (hmem : r ∈ (s.threads t).tables.resolvers) :
    (sentTypes s.log r.addr).head? = r.queried :=
  (head?_sentTypes _ _).trans ((replying hr).tracked t r hmem).last

/-- before the request is moved: only AAAA queries were sent -/
theorem expects_iff_first (hmem : r ∈ (s.threads t).tables.resolvers)
    (htype : r.recordType = recordAAAA) : RepliesInTurn s.log r d ↔ r.Expects d := by
  have hlast := head?_sentTypes_queried hr hmem
  have hstage := (refines hr).active t r hmem
  rw [htype] at hstage
  obtain ⟨hsent, hrec⟩ := first_stage hstage (.inr ⟨_, rfl⟩)
  constructor
  · rintro ⟨type, htypes, hasks, _⟩
    obtain rfl := hsent type htypes
    obtain ⟨type', types, heq⟩ := List.exists_cons_of_ne_nil (List.ne_nil_of_mem htypes)
    obtain rfl := hsent type' (heq ▸ List.mem_cons_self)
    rw [heq] at hlast
    exact ⟨⟨recordAAAA, hlast.symm, hasks⟩, fun _ hA => absurd (htype.symm.trans hA) (by decide)⟩
  · rintro ⟨⟨type, hq, hasks⟩, _⟩
    refine ⟨type, List.mem_of_mem_head? (hlast.trans hq), hasks, .inl ?_⟩
    rw [hrec]
    exact nofun

/-- after the request was moved: the AAAA query was answered by `d'` -/
theorem expects_iff_moved (hmem : r ∈ (s.threads t).tables.resolvers)
    (htype : r.recordType = recordA) : RepliesInTurn s.log r d ↔ r.Expects d := by
  have hlast := head?_sentTypes_queried hr hmem
  obtain ⟨d', types, types', hrec, hasks', hsent, hA, hAAAA⟩ := moved_by hr hmem htype
  have hne : recordA ≠ recordAAAA := by decide
  have hold : ∀ type ∈ recordAAAA :: types', type = recordAAAA :=
    List.forall_mem_cons.mpr ⟨rfl, hAAAA⟩
  rw [hsent] at hlast
  unfold RepliesInTurn
  rw [hrec, hsent]
  simp only [List.forall_mem_singleton]
  cases types with
  | nil =>
    -- the A query is still to be sent
    have hq : some recordAAAA = r.queried := hlast
    constructor
    · rintro ⟨type, htypes, hasks, hfirst | ⟨_, hnf⟩⟩
      · exact absurd (hold type htypes ▸ hasks') hfirst
      · exact ⟨⟨recordAAAA, hq.symm, hold type htypes ▸ hasks⟩, fun h => absurd h hnf⟩
    · rintro ⟨⟨type, htype', hasks⟩, hnf⟩
      obtain rfl := Option.some.inj (hq.trans htype')
      refine ⟨recordAAAA, List.mem_cons_self, hasks, .inr ⟨fun h => hne (hold _ h), fun h => ?_⟩⟩
      rw [Resolver.queried_of_sent (hnf h htype), htype] at hq
      exact hne (Option.some.inj hq).symm
  | cons type₁ types =>
    obtain rfl := hA type₁ List.mem_cons_self
    have hq : some recordA = r.queried := hlast
    constructor
    · rintro ⟨type, htypes, hasks, hturn⟩
      have htype' : type = recordA := by
        refine (List.mem_append.mp htypes).elim (hA type) fun h => ?_
        -- the AAAA query was answered before
        rcases hturn with hfirst | ⟨hnone, _⟩
        · exact absurd (hold type h ▸ hasks') hfirst
        · exact absurd List.mem_cons_self hnone
      exact ⟨⟨recordA, hq.symm, htype' ▸ hasks⟩, fun _ _ => Resolver.sent_of_queried hq.symm⟩
    · rintro ⟨⟨type, htype', hasks⟩, _⟩
      obtain rfl := Option.some.inj (hq.trans htype')
      exact ⟨recordA, List.mem_cons_self, hasks, .inl fun h => hne (h.type_eq hasks')⟩

/-- **A datagram comes in turn if and only if it is a reply to the query sent last,** and to the A
query if the request has been moved to it and the datagram says "not found". -/
theorem expects_iff (hmem : r ∈ (s.threads t).tables.resolvers) :
    RepliesInTurn s.log r d ↔ r.Expects d :=
  ((replying hr).tracked t r hmem).types.elim (expects_iff_first hr hmem)
    (expects_iff_moved hr hmem)

theorem deliversInTurn_iff : DeliversInTurn s act ↔ AnswersQuery s act := by
  unfold DeliversInTurn AnswersQuery
  cases act with
  | run t e =>
    dsimp only
    cases e.recv with
    | datagram d =>
      exact forall_congr' fun _ => forall_congr' fun _ => forall_congr' fun r =>
        forall_congr' fun hm => expects_iff hr (mem_of_matchedRequest hm)
    | _ => exact Iff.rfl
  | _ => exact Iff.rfl

end

theorem reach_answersQuery (hr : resolverSystem.Reach DeliversInTurn s) :
    resolverSystem.Reach AnswersQuery s := by
  induction hr with
  | init hs => exact .init hs
  | step _ hg hs ih => exact .step ih ((deliversInTurn_iff ih).mp hg) hs

/-! ## what a datagram does -/

theorem expects_of_answersLast (hn : Numbered s) (htr : Tracked s.log r) {type : UInt16}
    (h : AnswersLast s.log r.addr d type) : r.queried = some type ∧ d.Asks r.hostName type := by
  obtain ⟨hlast, q, n, b, hreg, hasks⟩ := h
  obtain ⟨q', n', b', hreg', hname⟩ := htr.name
  obtain ⟨rfl, _⟩ := hn.unique r.addr q n b q' n' b' hreg hreg'
  exact ⟨htr.last.symm.trans hlast, hname ▸ hasks⟩

/-- What a datagram that is taken for a reply adds to the log. -/
theorem receive_log {e : Env} (hpc : (s.threads t).pc = .receive)
    (hf : (s.threads t).flags.read = true) (hd : e.recv = .datagram d)
    (hm : matchedRequest (s.threads t).tables d = some r) (hs : s.runStep t e = some s') :
    (∃ b, s'.log = .requeued r.addr d :: (assert b ++ s.log) ∧ r.recordType = recordAAAA) ∨
      ∃ res, s'.log = .replied r.addr d res :: s.log ∧
        (header d.buf = some .notFound → res = .notFound) := by
  obtain ⟨T, es, hT, hlog⟩ := runStep_receive hpc hs
  unfold LookupThread.receiveStep at hT
  rw [if_pos hf, hd] at hT
  obtain ⟨a, ha, hT⟩ := Option.bind_eq_some_iff.mp hT
  obtain ⟨res, hsize, hres, rfl⟩ := recvAction_of_matchedRequest hm ha
  split at hT
  case h_1 heq => split at heq <;> cases heq
  case h_2 heq =>
    split at heq
    case isFalse => cases heq
    case isTrue hc =>
      cases heq
      obtain ⟨T', _, hT⟩ := Option.bind_eq_some_iff.mp hT
      cases hT
      exact .inl ⟨_, hlog, hc.2⟩
  case h_3 heq =>
    split at heq
    case isTrue => cases heq
    case isFalse =>
      cases heq
      obtain ⟨T', _, hT⟩ := Option.bind_eq_some_iff.mp hT
      cases hT
      refine .inr ⟨_, hlog, fun hnf => ?_⟩
      rw [parseReplyFromDNS_eq (by omega), hnf] at hres
      cases hres
      rfl

theorem always_eventOk_iff (hr : resolverSystem.Reach AnswersQuery s)
    (hs : resolverSystem.step act s = some s') : Always EventOk s'.log ↔ AnswersQuery s act := by
  refine ⟨fun hok => ?_, fun hg => (replying (.step hr hg hs)).ok⟩
  cases act with
  | run t e =>
    unfold AnswersQuery
    dsimp only
    cases hd : e.recv with
    | datagram d =>
      intro hpc hf r hm
      have htr := (replying hr).tracked t r (mem_of_matchedRequest hm)
      rcases receive_log hpc hf hd hm hs with ⟨b, hlog, hAAAA⟩ | ⟨res, hlog, hres⟩
      · obtain ⟨type, hlast, q, n, b', hreg, hasks⟩ := hok [] _ _ hlog
        have hans : AnswersLast s.log r.addr d type := by
          refine ⟨?_, q, n, b', ?_, hasks⟩
          · rwa [lastSent_append fun _ _ => not_mem_assert nofun] at hlast
          · exact (List.mem_append.mp hreg).resolve_left (not_mem_assert nofun)
        obtain ⟨hq, hasks'⟩ := expects_of_answersLast (numbered hr) htr hans
        exact ⟨⟨type, hq, hasks'⟩, fun _ hA => absurd (hAAAA.symm.trans hA) (by decide)⟩
      · obtain ⟨type, hans, hA⟩ := hok [] _ _ hlog
        obtain ⟨hq, hasks⟩ := expects_of_answersLast (numbered hr) htr hans
        refine ⟨⟨type, hq, hasks⟩, fun hnf _ => ?_⟩
        rw [hA (hres hnf)] at hq
        exact Resolver.sent_of_queried hq
    | _ => trivial
  | _ => trivial

end Sys

/-- **Only replies to the query sent last count,** and "not found" is the answer to an A query, in
every run to which the network delivers replies in turn; and the next step keeps this if and only if
it delivers one in turn too. -/
theorem replies_answer {s : Sys} (hr : resolverSystem.Reach Sys.DeliversInTurn s) :
    Always EventOk s.log ∧ ∀ act s', resolverSystem.step act s = some s' →
      (Always EventOk s'.log ↔ Sys.DeliversInTurn s act) := by
  have hr' := Sys.reach_answersQuery hr
  refine ⟨(Sys.replying hr').ok, fun act s' hs => ?_⟩
  exact (Sys.always_eventOk_iff hr' hs).trans (Sys.deliversInTurn_iff hr').symm

set_option maxRecDepth 10000 in
/-- a request that is moved to the A record -/
theorem replies_answer_requeued : ∃ s, resolverSystem.run Sys.DeliversInTurn
      (sendFirst ++ receiveNoSuchName) (Sys.init 0) = some s ∧
    .requeued 0 noSuchName ∈ s.log ∧ Always EventOk s.log := by
  obtain ⟨s, hs, hp⟩ := Machine.exists_run resolverSystem Sys.DeliversInTurn
    (sendFirst ++ receiveNoSuchName) (Sys.init 0)
    (fun s => .requeued 0 noSuchName ∈ s.log) (by decide)
  exact ⟨s, hs, of_decide_eq_true hp, (replies_answer ((reach_init _ 0).run hs)).1⟩

set_option maxRecDepth 10000 in
theorem late_reply_completes : ¬ ∀ s, Run s → Always EventOk s.log := by
  intro h
  obtain ⟨s, hs, hp⟩ := exists_run_reach (fun _ _ => True) lateCopy
    (fun s => s.log = .replied 0 noSuchName .notFound :: s.log.tail ∧
      s.log.tail = .sent 0 recordA ⟨Ip.ofV4 0x7f000001, 53⟩ :: s.log.tail.tail ∧
      ∀ ev ∈ s.log.tail, ∀ q ∈ ev.query.toList, ¬ noSuchName.Asks q.hostName recordA) 0 (by decide)
  obtain ⟨hlog, hsent, hasks⟩ := of_decide_eq_true hp
  obtain ⟨type, ⟨hlast, q, n, b, hev, ha⟩, _⟩ := h s hs [] _ _ hlog
  have htype : recordA = type := by
    rw [hsent] at hlast
    exact Option.some.inj hlast
  rw [← htype] at ha
  exact hasks _ hev q (List.mem_singleton_self q) ha

end Setka
