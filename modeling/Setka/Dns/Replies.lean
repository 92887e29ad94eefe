import Setka.Lib.History
import Setka.Dns.Query
import Setka.Dns.Unfinished

/-!
# Which query a reply answers

A request asks for its AAAA record and, if there is none, for its A record, with the same id.  The
receive step takes a datagram for a reply as soon as the id and the host name fit.

* `matchedRequest`      the request a datagram is taken for;
* `Asks`                the question section of a datagram;
* `queried`             the type of the query that was sent last, as the record of a request shows
                        it;
* `Tracked`             the invariant: the log agrees with the record;
* `EventOk`             only replies to the query sent last complete a request or move it to the A
                        record, and `not_found` is the answer to an A query;
* `AnswersQuery`        a received datagram that is taken for a reply is one to the query sent last;
* `Replying`            what holds in every run whose datagrams meet it.
-/

namespace Setka

open Span History

/-! ## datagrams -/

/-- the question section of the datagram is one question, with this name and type, of class IN -/
def Datagram.Asks (d : Datagram) (name : Bytes) (type : UInt16) : Prop :=
  At d.bytes 4 (serialize16be 1) ∧ At d.bytes 12 (question name type)

instance (d : Datagram) (name : Bytes) (type : UInt16) : Decidable (d.Asks name type) :=
  inferInstanceAs (Decidable (_ ∧ _))

/-- the active request a datagram is taken for: the id is that of the request, and so is the host
name -/
def matchedRequest (tb : Tables) (d : Datagram) : Option Resolver :=
  if d.size < 13 then none
  else do
    let id ← deserialize16be d.buf 0
    let p ← tb.findId id
    let r ← tb.deref p
    let (host, _) ← parseHostNameFromDNSPacket d.buf 12 bufSize
    if host = r.hostName then some r else none

theorem matchedRequest_of_recvAction {tb : Tables} {d : Datagram} {a : RecvAction}
    (h : recvAction tb d.buf d.size = some a) (hne : a ≠ .ignore) :
    ∃ r res, matchedRequest tb d = some r ∧ tb.deref r.addr = some r ∧
      parseReplyFromDNS r d.buf d.size = some res ∧
      a = if res.result = .notFound ∧ r.recordType = recordAAAA then .requeue r
        else .complete r res := by
  rcases recvAction_eq_some h with h | ⟨id, p, r, q, res, hsize, hid, hp, hr, hhost, hres, ha⟩
  · exact absurd h hne
  · refine ⟨r, res, ?_, ?_, hres, ha⟩
    · unfold matchedRequest
      rw [if_neg (not_lt.mpr hsize), hid]
      show (tb.findId id).bind _ = _
      rw [hp]
      show (tb.deref p).bind _ = _
      rw [hr]
      show (parseHostNameFromDNSPacket d.buf 12 bufSize).bind _ = _
      rw [hhost]
      exact if_pos rfl
    · rw [Tables.addr_of_deref hr]
      exact hr

namespace Resolver

/-- the type of the query that was sent last, if one was sent: a request for the A record that is
still to be sent comes after the AAAA query -/
def queried (r : Resolver) : Option UInt16 :=
  match r.sendIter with
  | none => some r.recordType
  | some _ => if r.recordType = recordA then some recordAAAA else none

/-- The datagram is a reply to the query sent last; and if it says "not found" to a request for the
A record, this query has been sent. -/
def Expects (r : Resolver) (d : Datagram) : Prop :=
  (∃ type ∈ r.queried, d.Asks r.hostName type) ∧
    (header d.buf = some .notFound → r.recordType = recordA → r.sendIter = none)

instance (r : Resolver) (d : Datagram) : Decidable (r.Expects d) :=
  inferInstanceAs (Decidable (_ ∧ _))

end Resolver

/-! ## the log -/

/-- the arguments of a registered request -/
def Event.query : Event → Option Query
  | .registered _ q _ _ => some q
  | _ => none

/-- the type of the query last sent for a request -/
def lastSent : List Event → ℕ → Option UInt16
  | [], _ => none
  | .sent j type _ :: older, k => if j = k then some type else lastSent older k
  | _ :: older, k => lastSent older k

theorem lastSent_append {es log : List Event} {k : ℕ} (h : ∀ type a, .sent k type a ∉ es) :
    lastSent (es ++ log) k = lastSent log k := by
  induction es with
  | nil => rfl
  | cons ev es ih =>
    have hes := ih fun type a hmem => h type a (List.mem_cons_of_mem _ hmem)
    cases ev with
    | sent j type a =>
      have hne : j ≠ k := by
        rintro rfl
        exact h type a List.mem_cons_self
      show (if j = k then _ else lastSent (es ++ log) k) = _
      rw [if_neg hne, hes]
    | _ => exact hes

/-- `d` is a reply to the query of this type, which was the last one sent for the request `k` -/
def AnswersLast (log : List Event) (k : ℕ) (d : Datagram) (type : UInt16) : Prop :=
  lastSent log k = some type ∧ ∃ q n b, .registered k q n b ∈ log ∧ d.Asks q.hostName type

/-- A datagram completes a request, or moves it to the A record, as a reply to the query last sent;
"not found" is the answer to an A query, and reported as such only. -/
def EventOk : Event → List Event → Prop
  | .replied k d res, older => ∃ type, AnswersLast older k d type ∧
    (res = .notFound → type = recordA)
  | .requeued k d, older => ∃ type, AnswersLast older k d type
  | .entered k _ .notFound _, older => ∃ newer d older',
    older = newer ++ .replied k d .notFound :: older' ∧ AnswersLast older' k d recordA
  | _, _ => True

/-- the log agrees with the record of an active request -/
structure Tracked (log : List Event) (r : Resolver) : Prop where
  types : r.recordType = recordAAAA ∨ r.recordType = recordA
  last : lastSent log r.addr = r.queried
  name : ∃ q n b, .registered r.addr q n b ∈ log ∧ q.hostName = r.hostName

theorem Tracked.append {log es : List Event} {r : Resolver} (h : Tracked log r)
    (hes : ∀ type a, .sent r.addr type a ∉ es) : Tracked (es ++ log) r where
  types := h.types
  last := (lastSent_append hes).trans h.last
  name := by
    obtain ⟨q, n, b, hev, hq⟩ := h.name
    exact ⟨q, n, b, List.mem_append_right es hev, hq⟩

theorem Tracked.answersLast {log : List Event} {r : Resolver} {d : Datagram} {type : UInt16}
    (h : Tracked log r) (ht : r.queried = some type) (ha : d.Asks r.hostName type) :
    AnswersLast log r.addr d type := by
  obtain ⟨q, n, b, hev, hq⟩ := h.name
  rw [← hq] at ha
  exact ⟨h.last.trans ht, q, n, b, hev, ha⟩

/-- a choice of the server changes nothing the log is about -/
theorem Tracked.setDns {log : List Event} {r : Resolver} (h : Tracked log r) (a : Address) :
    Tracked log { r with dns := a } :=
  ⟨h.types, h.last, h.name⟩

namespace LookupThread
variable {t now : ℕ} {e : Env} {T T' : LookupThread} {es log : List Event}

/-- A query that is sent is the only event of its step. -/
theorem LocalMove.sent_mem (h : LocalMove t now e T T' es) {k : ℕ} {type : UInt16} {a : Address}
    (hev : .sent k type a ∈ es) : ∃ r, T.tables.deref r.addr = some r ∧
      es = [.sent r.addr r.recordType a] ∧ k = r.addr ∧
      T'.tables = (T.serverChosen r).tables.markSent r.addr := by
  cases h
  case sent c rest r _ _ hr _ =>
    cases List.mem_singleton.mp hev
    refine ⟨r, ?_, rfl, rfl, rfl⟩
    rw [Tables.addr_of_deref hr]
    exact hr
  case cbLock => split at hev <;> simp at hev
  all_goals simp [not_mem_assert] at hev

/-- The log goes on to agree with the records, if only requests that have been sent are moved to the
A record. -/
theorem LocalMove.tracked (h : LocalMove t now e T T' es) (hl : T.tables.Linked)
    (htr : ∀ r ∈ T.tables.resolvers, Tracked log r)
    (hreq : ∀ d r, T.pc = .receive → T.flags.read = true → e.recv = .datagram d →
      recvAction T.tables d.buf d.size = some (.requeue r) →
      r.recordType = recordAAAA ∧ r.sendIter = none) :
    ∀ r ∈ T'.tables.resolvers, Tracked (es ++ log) r := by
  -- the record that the pointer of an operation points to
  have hsame : ∀ {r r' : Resolver}, T.tables.deref r.addr = some r → r' ∈ T.tables.resolvers →
      r'.addr = r.addr → r' = r := fun hr hr' ha =>
    List.inj_on_of_nodup_map hl.addrs hr' (Tables.deref_eq_some hr).1 ha
  by_cases hsent : ∃ k type a, .sent k type a ∈ es
  · obtain ⟨k, type, a, hev⟩ := hsent
    obtain ⟨r, hr, rfl, _, htb⟩ := h.sent_mem hev
    rw [htb]
    intro r₂ h₂
    obtain ⟨r₁, h₁, rfl⟩ := Tables.mem_markSent h₂
    obtain ⟨r₀, h₀, rfl⟩ := Tables.mem_modify h₁
    by_cases ha : r₀.addr = r.addr
    · obtain rfl := hsame hr h₀ ha
      rw [if_pos rfl, if_pos rfl]
      obtain ⟨types, _, q, n, b, hreg, hq⟩ := htr r₀ h₀
      exact ⟨types, if_pos rfl, q, n, b, List.mem_cons_of_mem _ hreg, hq⟩
    · rw [if_neg ha, if_neg ha]
      exact (htr r₀ h₀).append fun type' a' hmem =>
        ha (Event.sent.inj (List.mem_singleton.mp hmem)).1
  · have hold : ∀ r ∈ T.tables.resolvers, Tracked (es ++ log) r := fun r hr =>
      (htr r hr).append fun type a hmem => hsent ⟨r.addr, type, a, hmem⟩
    have hserver : ∀ r₁, ∀ r ∈ (T.serverChosen r₁).tables.resolvers, Tracked (es ++ log) r := by
      intro r₁ r hr
      obtain ⟨r₀, h₀, rfl⟩ := Tables.mem_modify hr
      split
      · exact (hold r₀ h₀).setDns _
      · exact hold r₀ h₀
    have hrequeue : ∀ d r₁, T.pc = .receive → T.flags.read = true → e.recv = .datagram d →
        recvAction T.tables d.buf d.size = some (.requeue r₁) →
        ∀ r ∈ (T.tables.requeue r₁.addr).resolvers, Tracked (es ++ log) r := by
      intro d r₁ hpc hf hd ha r hr
      obtain ⟨htype, hiter⟩ := hreq d r₁ hpc hf hd ha
      obtain ⟨r₀, h₀, rfl⟩ := Tables.mem_requeue hr
      split
      · rename_i haddr
        obtain rfl := hsame (Tables.deref_of_recvAction ha) h₀ haddr
        obtain ⟨_, last, name⟩ := hold r₀ h₀
        refine ⟨.inr rfl, last.trans ?_, name⟩
        show r₀.queried = some recordAAAA
        unfold Resolver.queried
        rw [hiter, htype]
      · exact hold r₀ h₀
    cases h with
    | requeued d r mode hpc hf hd ha => exact hrequeue d r hpc hf hd ha
    | requeueFailed d r tb r' hpc hf hd _ ha hr =>
      exact fun r hmem => hrequeue d _ hpc hf hd ha r (Tables.removeResolver_subset hr hmem)
    | sent c rest r => exact absurd ⟨_, _, _, List.mem_singleton_self _⟩ hsent
    | sendNotReady c rest r | sendError c rest r => exact hserver r
    | noServer c rest r tb r' _ _ _ _ hr =>
      exact fun r₁ hmem => hserver r r₁ (Tables.removeResolver_subset hr hmem)
    | replied d r res tb r' _ _ _ _ hr | wrapTimeout c rest r tb r' _ _ _ hr
        | expireTimeout c rest r tb r' _ _ _ _ hr | drainNext d x r rest tb r' _ _ hr =>
      exact fun r hmem => hold r (Tables.removeResolver_subset hr hmem)
    | _ => exact hold

/-- A callback with the result "not found" is that of a reply. -/
theorem LocalMove.notFound_replied (h : LocalMove t now e T T' es) (hl : T.tables.Linked)
    {c : Callback} (hpc : T'.pc = .cbLock c) (hres : c.result = .notFound) :
    ∃ d, .replied c.resolver.addr d .notFound ∈ es := by
  cases h
  case replied d r res tb r' _ _ _ ha hr =>
    cases hpc
    obtain ⟨r₁, _, _, hr₁, _, ha₁⟩ := matchedRequest_of_recvAction ha nofun
    split at ha₁
    · cases ha₁
    · cases ha₁
      rw [Tables.removed_of_deref hl hr₁ hr]
      rw [show res.result = .notFound from hres]
      exact ⟨d, List.mem_singleton_self _⟩
  case cbRelock s _ _ => cases s <;> cases hpc
  case wakeReady =>
    dsimp only at hpc
    split at hpc <;> cases hpc
  all_goals first | cases hpc; cases hres | simp_all [writeCleared, serverChosen]

/-- **The events of a step are as they should be,** if the datagram it receives is. -/
theorem LocalMove.eventOk (h : LocalMove t now e T T' es)
    (htr : ∀ r ∈ T.tables.resolvers, Tracked log r)
    (hexp : ∀ d r, T.pc = .receive → T.flags.read = true → e.recv = .datagram d →
      matchedRequest T.tables d = some r → r.Expects d)
    (hpend : ∀ c, T.pc = .cbEnter c → c.result = .notFound →
      ∃ d, .replied c.resolver.addr d .notFound ∈ log)
    (hok : Always EventOk log) : Always EventOk (es ++ log) := by
  have hassert : ∀ b, Always EventOk (assert b ++ log) := by
    intro b
    refine hok.append fun ev hev older => ?_
    rw [mem_assert hev]
    trivial
  have hrequeued : ∀ d r b, T.pc = .receive → T.flags.read = true → e.recv = .datagram d →
      recvAction T.tables d.buf d.size = some (.requeue r) →
      Always EventOk (.requeued r.addr d :: assert b ++ log) := by
    intro d r b hpc hf hd ha
    obtain ⟨r₁, _, hm, hr, _, ha₁⟩ := matchedRequest_of_recvAction ha nofun
    obtain rfl : r = r₁ := by
      split at ha₁ <;> cases ha₁
      rfl
    obtain ⟨⟨type, htype, hasks⟩, _⟩ := hexp d r hpc hf hd hm
    have htr' : Tracked (assert b ++ log) r := (htr r (Tables.deref_eq_some hr).1).append
      fun _ _ => not_mem_assert nofun
    exact (hassert b).cons ⟨type, htr'.answersLast htype hasks⟩
  cases h
  case requeued d r _ hpc hf hd ha _ => exact hrequeued d r _ hpc hf hd ha
  case requeueFailed d r _ _ hpc hf hd _ ha _ => exact hrequeued d r _ hpc hf hd ha
  case replied d r res tb r' hpc hf hd ha _ =>
    obtain ⟨r₁, res₁, hm, hr, hres, ha₁⟩ := matchedRequest_of_recvAction ha nofun
    split at ha₁
    · cases ha₁
    · rename_i hnot
      cases ha₁
      have htrk := htr r (Tables.deref_eq_some hr).1
      obtain ⟨⟨type, htype, hasks⟩, hsent⟩ := hexp d r hpc hf hd hm
      refine hok.cons ⟨type, htrk.answersLast htype hasks, fun hnf => ?_⟩
      -- "not found" to an AAAA query is no completion, so that the query was for the A record
      have hA : r.recordType = recordA := htrk.types.resolve_left fun hAAAA => hnot ⟨hnf, hAAAA⟩
      have hhead : header d.buf = some .notFound := by
        rcases parseReplyFromDNS_result hres with ⟨_, hhead⟩ | hok | herr
        · exact hhead
        · rw [hok] at hnf
          cases hnf
        · rw [herr] at hnf
          cases hnf
      have hq : r.queried = some r.recordType := by
        unfold Resolver.queried
        rw [hsent hhead hA]
      rw [hq, hA] at htype
      exact (Option.some.inj htype).symm
  case cbEnter c hpc =>
    refine hok.cons ?_
    cases hres : c.result with
    | notFound =>
      obtain ⟨d, hev⟩ := hpend c hpc hres
      obtain ⟨newer, older, hlog, type, hans, htype⟩ := hok.of_mem hev
      rw [htype rfl] at hans
      exact ⟨newer, d, older, hlog, hans⟩
    | _ => trivial
  case sent => exact hok.cons trivial
  case cbLock =>
    refine hok.append fun ev hev older => ?_
    split at hev
    · cases hev
    · rw [List.mem_singleton.mp hev]
      trivial
  case receiveNothing | ignored | writable => exact hassert _
  all_goals exact hok

/-- A callback in progress was in progress, or its request has just been removed. -/
theorem LocalMove.callback_cases (h : LocalMove t now e T T' es) {c : Callback}
    (hc : T'.pc.callback = some c) : T.pc.callback = some c ∨ T'.pc = .cbLock c := by
  cases h
  case cbLock hpc _ | cbEnter hpc =>
    rw [hpc]
    exact .inl hc
  case cbRelock s _ _ =>
    have hc' : s.resume.callback = some c := hc
    rw [s.resume_callback] at hc'
    cases hc'
  case wakeReady =>
    dsimp only at hc
    split at hc <;> cases hc
  case sent => exact .inl hc
  case requeueFailed | replied | noServer | wrapTimeout | expireTimeout | drainNext =>
    exact .inr (congrArg Pc.cbLock (Option.some.inj hc))
  all_goals cases hc

end LookupThread

theorem lastSent_eq_none {log : List Event} {k : ℕ} (h : ∀ type a, .sent k type a ∉ log) :
    lastSent log k = none := by
  have hnone : lastSent (log ++ []) k = lastSent [] k := lastSent_append h
  rw [List.append_nil] at hnone
  exact hnone

namespace Sys
variable {act : Action} {s s' : Sys} {u : ℕ} {T' : LookupThread}

/-! ## the condition -/

/-- A received datagram that is taken for a reply is one to the query sent last. -/
def AnswersQuery (s : Sys) : Action → Prop
  | .run t e => match e.recv with
    | .datagram d => (s.threads t).pc = .receive → (s.threads t).flags.read = true →
      ∀ r ∈ matchedRequest (s.threads t).tables d, r.Expects d
    | _ => True
  | _ => True

instance (s : Sys) (act : Action) : Decidable (AnswersQuery s act) := by
  apply @Action.casesOn _ act <;> intros <;> dsimp only [AnswersQuery] <;> try infer_instance
  generalize Env.recv _ = v
  apply @Recv.casesOn _ v <;> intros <;> infer_instance

theorem AnswersQuery.expects {t : ℕ} {e : Env} (h : AnswersQuery s (.run t e)) {d : Datagram}
    {r : Resolver} (hpc : (s.threads t).pc = .receive) (hf : (s.threads t).flags.read = true)
    (hd : e.recv = .datagram d) (hm : matchedRequest (s.threads t).tables d = some r) :
    r.Expects d := by
  simp only [AnswersQuery, hd] at h
  exact h hpc hf r hm

/-- Only a request whose AAAA query has been sent is moved to the A record. -/
theorem AnswersQuery.requeues {t : ℕ} {e : Env} (h : AnswersQuery s (.run t e)) {d : Datagram}
    {r : Resolver} (hpc : (s.threads t).pc = .receive) (hf : (s.threads t).flags.read = true)
    (hd : e.recv = .datagram d)
    (ha : recvAction (s.threads t).tables d.buf d.size = some (.requeue r)) :
    r.recordType = recordAAAA ∧ r.sendIter = none := by
  obtain ⟨r₁, res, hm, _, _, ha₁⟩ := matchedRequest_of_recvAction ha nofun
  split at ha₁
  case isFalse => cases ha₁
  case isTrue hc =>
    cases ha₁
    obtain ⟨⟨type, htype, _⟩, _⟩ := h.expects hpc hf hd hm
    refine ⟨hc.2, ?_⟩
    unfold Resolver.queried at htype
    rw [hc.2] at htype
    cases hs : r.sendIter with
    | none => rfl
    | some n =>
      rw [hs] at htype
      cases htype

/-! ## the invariant -/

structure Replying (s : Sys) : Prop where
  ok : Always EventOk s.log
  tracked : ∀ t, ∀ r ∈ (s.threads t).tables.resolvers, Tracked s.log r
  pending : ∀ t c, (s.threads t).pc.callback = some c → c.result = .notFound →
    ∃ d, .replied c.resolver.addr d .notFound ∈ s.log
  old : ∀ k type a, .sent k type a ∈ s.log → k < s.nextCall

/-- The callback in progress in a thread is new by a step of `run()` only. -/
theorem ThreadMove.callback_cases (h : ThreadMove act s s' u (s.threads u) T') {c : Callback}
    (hc : T'.pc.callback = some c) : (s.threads u).pc.callback = some c ∨
      ∃ e es, LookupThread.LocalMove u s.now e (s.threads u) T' es ∧
        s' = (s.setThread u T').addLog es ∧ T'.pc = .cbLock c := by
  cases h with
  | registered a q needStart =>
    cases needStart with
    | true => cases hc
    | false => exact .inl hc
  | cancelled a x tb =>
    rw [cancelled_pc] at hc
    exact .inl hc
  | cancelMiss a x tb =>
    have hc' : (Sys.cancelled (s.threads u) tb).pc.callback = some c := hc
    rw [cancelled_pc] at hc'
    exact .inl hc'
  | own e T' es _ _ hl _ hs' =>
    exact (hl.callback_cases hc).imp_right fun hpc => ⟨e, es, hl, hs', hpc⟩
  | same | cancelWait | toldToQuit | startSending | popQueue => exact .inl hc
  | created | cleanedUp | joined | joinedPrev | openSocket | openFailed | queueEmpty
      | drainedOpen => cases hc

section
variable (h : Replying s) (hm : Move act s s')
include h hm

theorem ok_step (hg : AnswersQuery s act) : Always EventOk s'.log := by
  obtain ⟨es, hlog, ⟨t, e, T', rfl, hl, _⟩ | hapi⟩ := hm.log_cases
  · rw [hlog]
    refine hl.eventOk (h.tracked t) (fun d r hpc hf hd hm => hg.expects hpc hf hd hm)
      (fun c hpc => h.pending t c ?_) h.ok
    rw [hpc]
    rfl
  · rw [hlog]
    refine h.ok.append fun ev hev older => ?_
    have hev := hapi ev hev
    cases ev with
    | sent | requeued | replied | entered => cases hev
    | _ => trivial

variable (hst : Stored s)
include hst

theorem tracked_step (hap : Apart s) (hc : Calls s) (hg : AnswersQuery s act) :
    ∀ t, ∀ r ∈ (s'.threads t).tables.resolvers, Tracked s'.log r := by
  -- a step of `run()`
  have hown : ∀ t e T' es, act = .run t e →
      LookupThread.LocalMove t s.now e (s.threads t) T' es → s' = (s.setThread t T').addLog es →
      ∀ u, ∀ r ∈ (s'.threads u).tables.resolvers, Tracked s'.log r := by
    rintro t e T' es rfl hl rfl u r hr
    rw [threads_setThread] at hr
    split at hr
    · exact hl.tracked (hst.linked t) (h.tracked t)
        (fun d r hpc hf hd ha => hg.requeues hpc hf hd ha) r hr
    · rename_i hu
      refine (h.tracked u r hr).append fun type a hev => hu ?_
      -- the request that is sent is one of `t`
      obtain ⟨r₁, hr₁, _, heq, _⟩ := hl.sent_mem hev
      refine hap.apart u t r.hnr r₁.hnr r.addr (List.mem_append_left _ (List.mem_map_of_mem hr)) ?_
      rw [heq]
      exact List.mem_append_left _ (List.mem_map_of_mem (Tables.deref_eq_some hr₁).1)
  obtain ⟨es, hlog, ⟨t, e, T', hact, hl, hs'⟩ | hapi⟩ := hm.log_cases
  · exact hown t e T' es hact hl hs'
  · intro u r hr
    have hold : r ∈ (s.threads u).tables.resolvers → Tracked s'.log r := by
      intro hr
      rw [hlog]
      exact (h.tracked u r hr).append fun type a hev => absurd (hapi _ hev) nofun
    have ht := hm.thread u
    generalize hT : s'.threads u = T' at ht hr
    cases ht with
    | created | cleanedUp | joined => cases hr
    | registered a q needStart id hcall _ _ _ hs' =>
      rw [registerIn_tables] at hr
      have hp := Tables.register_resolvers s.nextCall id (ticks s.now)
        (hc.absent a q u needStart hcall)
      rcases List.mem_cons.mp (hp.mem_iff.mp hr) with rfl | hr
      · refine ⟨.inl rfl, ?_, q, s.now, s.runsCallbackOf a == some q.hnr, ?_, rfl⟩
        · rw [hlog, lastSent_append fun type a hev => absurd (hapi _ hev) nofun]
          exact lastSent_eq_none fun type a hev => absurd (h.old _ type a hev) (Nat.lt_irrefl _)
        · rw [hs']
          exact List.mem_cons_self
      · exact hold hr
    | cancelled a x tb r' _ _ hrem =>
      rw [cancelled_tables] at hr
      exact hold (Tables.removeResolver_subset hrem hr)
    | cancelMiss a x tb _ _ hrem =>
      have hr' : r ∈ (Sys.cancelled (s.threads u) tb).tables.resolvers := hr
      rw [cancelled_tables, (Tables.removeResolver_eq_none hrem).1] at hr'
      exact hold hr'
    | own e T' es _ _ hl hact hs' => exact hown u e T' es hact hl hs' u r (hT ▸ hr)
    | _ => exact hold hr

theorem replying_step (hap : Apart s) (hc : Calls s) (hg : AnswersQuery s act) : Replying s' where
  ok := ok_step h hm hg
  tracked := tracked_step h hm hst hap hc hg
  pending t c hcb hres := by
    rcases (hm.thread t).callback_cases hcb with hcb | ⟨e, es, hl, hs', hpc⟩
    · obtain ⟨d, hev⟩ := h.pending t c hcb hres
      exact ⟨d, hm.log_mono hev⟩
    · obtain ⟨d, hev⟩ := hl.notFound_replied (hst.linked t) hpc hres
      rw [hs']
      exact ⟨d, List.mem_append_left _ hev⟩
  old k type a hev := by
    obtain ⟨es, hlog, hcase⟩ := hm.log_cases
    rw [hlog] at hev
    rcases List.mem_append.mp hev with hev | hev
    · rcases hcase with ⟨t, e, T', _, hl, _⟩ | hapi
      · obtain ⟨r, hr, _, rfl, _⟩ := hl.sent_mem hev
        exact (hst.older t r (Tables.deref_eq_some hr).1).trans_le hm.nextCall_le
      · exact absurd (hapi _ hev) nofun
    · exact (h.old k type a hev).trans_le hm.nextCall_le

end

theorem replying (hr : resolverSystem.Reach AnswersQuery s) : Replying s := by
  refine hr.invariant (I := Replying) ?_ ?_
  · rintro s ⟨now, rfl⟩
    exact ⟨.nil, nofun, nofun, nofun⟩
  · intro s act s' hr h hg hs
    exact replying_step h (sysMove hs) (stored hr) (apart hr) (locks hr).toCalls hg

end Sys

/-- the reply "name error" of the server to the AAAA query with id 0 for the host "a" -/
def noSuchName : Datagram :=
  .ofBytes [0, 0, 0x81, 0x83, 0, 1, 0, 0, 0, 0, 0, 0, 1, 97, 0, 0, 28, 0, 1]
    ⟨Ip.ofV4 0x7f000001, 53⟩ (by decide)

/-- The thread waits, and receives the reply to the AAAA query. -/
def receiveNoSuchName : List Action := receives noSuchName

/-- The A query has been sent too when a second copy of the reply to the AAAA query comes. -/
def lateCopy : List Action :=
  sendFirst ++ receiveNoSuchName ++ lookupSteps 0 3 ++
  .run 0 { wake := .ready false true false } :: lookupSteps 0 9 ++ receiveNoSuchName

end Setka
