import Setka.Dns.Answers
import Setka.Dns.Replies

/-!
# From the AAAA to the A record

What `run()` does with a well-formed reply to an AAAA query.

* `ShortNames`        host names have at most 253 bytes, in every run;
* `fallsBack_step`    a step of `run()` moves a request to the A record if and only if the receive
                      step says so, and the change of the wait set does not fail;
* `fallsBack_iff`     so it does for a reply without answers, and for no other one;
* `cname_completes`   an answer section with a CNAME record alone completes the request.
-/

namespace Setka

/-! ## the length of the host names -/

/-- the arguments of a `resolve()` in progress -/
def Call.query : Call → Option Query
  | .resolveLock q | .resolveCheck q _ | .resolveRegister q _ _ => some q
  | .idle | .cancelLock _ | .cancelRemove _ _ | .cancelWait _ _ | .cleanUpLock
  | .cleanUpJoin _ => none

namespace Sys
variable {act : Action} {s s' : Sys}

structure ShortNames (s : Sys) : Prop where
  calls : ∀ a q, (s.calls a).query = some q → q.hostName.length ≤ 253
  active : ∀ t, ∀ r ∈ (s.threads t).tables.resolvers, r.hostName.length ≤ 253

theorem shortCalls_step (h : ShortNames s) (hm : Move act s s') :
    ∀ a q, (s'.calls a).query = some q → q.hostName.length ≤ 253 := by
  have hcalls := h.calls
  cases hm
  all_goals grind [Call.query]

theorem shortNames_step (h : ShortNames s) (hc : Calls s) (hm : Move act s s') : ShortNames s' where
  calls := shortCalls_step h hm
  active t r hr := by
    have hsub : ∀ {tb : Tables}, Tables.Ops (fun _ => True) (s.threads t).tables tb →
        r ∈ tb.resolvers → r.hostName.length ≤ 253 := by
      intro tb hops hr
      have hnames := hops.map_subset (g := Resolver.hostName) fun _ _ _ _ => rfl
      obtain ⟨r₀, hr₀, heq⟩ := List.mem_map.mp (hnames (List.mem_map_of_mem hr))
      rw [← heq]
      exact h.active t r₀ hr₀
    have ht := hm.thread t
    generalize s'.threads t = T' at ht hr
    cases ht with
    | created | cleanedUp | joined => cases hr
    | registered a q needStart id hcall =>
      rw [registerIn_tables] at hr
      have hp := Tables.register_resolvers s.nextCall id (ticks s.now)
        (hc.absent a q t needStart hcall)
      rcases List.mem_cons.mp (hp.mem_iff.mp hr) with rfl | hr
      · exact h.calls a q (by rw [hcall]; rfl)
      · exact h.active t r hr
    | cancelled a x tb r' _ _ hrem =>
      rw [cancelled_tables] at hr
      exact h.active t r (Tables.removeResolver_subset hrem hr)
    | cancelMiss a x tb _ _ hrem =>
      have hr' : r ∈ (Sys.cancelled (s.threads t) tb).tables.resolvers := hr
      rw [cancelled_tables, (Tables.removeResolver_eq_none hrem).1] at hr'
      exact h.active t r hr'
    | own e T' es _ _ hl => exact hsub (hl.tables fun _ _ _ _ _ _ => trivial) hr
    | _ => exact h.active t r hr

theorem shortNames {G : Sys → Action → Prop} (hr : resolverSystem.Reach G s) : ShortNames s := by
  refine hr.invariant (I := ShortNames) ?_ ?_
  · rintro s ⟨now, rfl⟩
    exact ⟨nofun, nofun⟩
  · intro s act s' hr h _ hs
    exact shortNames_step h (locks hr).toCalls (sysMove hs)

end Sys

/-! ## one step -/

namespace LookupThread
variable {t now : ℕ} {e : Env} {T : LookupThread} {d : Datagram} {r : Resolver}

/-- the request `r` is not completed, asks for the A record and waits to be sent once -/
def FallsBack (r : Resolver) (T : LookupThread) : Prop :=
  T.pc = .checkWrite ∧ (∃ r' ∈ T.tables.resolvers, r'.addr = r.addr ∧ r'.recordType = recordA) ∧
    (T.tables.sendList.filter (fun c => c.val = r.addr)).length = 1

theorem requeued_length : (T.requeued r).tables.sendList.length = 1 ↔ T.tables.sendList = [] := by
  show (T.tables.sendList ++ [_]).length = 1 ↔ _
  rw [List.length_append, List.length_singleton, Nat.add_eq_right, List.length_eq_zero_iff]

/-- The fallback succeeds if the change of the wait set does, or is not needed. -/
theorem fallback_of_change {changeOk : Bool} (h : changeOk = true ∨ T.tables.sendList ≠ []) :
    ∃ mode, T.fallback r changeOk =
      some { T.requeued r with waitMode := mode, pc := .checkWrite } := by
  unfold fallback
  by_cases hnil : T.tables.sendList = []
  · rw [if_pos (requeued_length.mpr hnil), if_pos (h.resolve_right (not_not.mpr hnil))]
    exact ⟨some .readWrite, rfl⟩
  · rw [if_neg (requeued_length.not.mpr hnil)]
    exact ⟨T.waitMode, rfl⟩

theorem fallsBack_requeued {mode : Option WaitMode} (hr : r ∈ T.tables.resolvers)
    (hs : ∀ c ∈ T.tables.sendList, c.val ≠ r.addr) :
    FallsBack r { T.requeued r with waitMode := mode, pc := .checkWrite } := by
  refine ⟨rfl,
    ⟨{ r with recordType := recordA, sendIter := some T.tables.nextNode }, ?_, rfl, rfl⟩, ?_⟩
  · obtain ⟨x, hx, rfl⟩ := List.mem_map.mp hr
    refine List.mem_map.mpr ⟨_, List.mem_map_of_mem hx, ?_⟩
    rw [if_pos rfl]
  · show ((T.tables.sendList ++ [_]).filter _).length = 1
    rw [List.filter_append, List.filter_eq_nil_iff.mpr fun c hc => by simpa using hs c hc]
    simp

/-- A step that leaves the requests as they are does not fall back. -/
theorem not_fallsBack {T' : LookupThread} (hl : T.tables.Linked) (hr : r ∈ T.tables.resolvers)
    (htype : r.recordType = recordAAAA) (hT : T'.tables.resolvers = T.tables.resolvers) :
    ¬ FallsBack r T' := by
  rintro ⟨_, ⟨r', hr', ha, hA⟩, _⟩
  rw [hT] at hr'
  rw [List.inj_on_of_nodup_map hl.addrs hr' hr ha, htype] at hA
  cases hA

/-- The request that is moved to the A record is the one the receive step names. -/
theorem fallsBack_eq {r₁ : Resolver} (mode : Option WaitMode) (hl : T.tables.Linked)
    (hr : r ∈ T.tables.resolvers) (htype : r.recordType = recordAAAA)
    (hr₁ : T.tables.deref r₁.addr = some r₁)
    (h : FallsBack r { T.requeued r₁ with waitMode := mode, pc := .checkWrite }) : r₁ = r := by
  obtain ⟨_, ⟨r', hr', ha, hA⟩, _⟩ := h
  obtain ⟨r₀, hr₀, heq⟩ := Tables.mem_requeue hr'
  by_cases haddr : r₀.addr = r₁.addr
  · rw [if_pos haddr] at heq
    rw [heq] at ha
    have h₁ : r₁.addr = r.addr := haddr.symm.trans ha
    exact List.inj_on_of_nodup_map hl.addrs (Tables.deref_eq_some hr₁).1 hr h₁
  · rw [if_neg haddr] at heq
    rw [heq] at ha hA
    rw [List.inj_on_of_nodup_map hl.addrs hr₀ hr ha, htype] at hA
    cases hA

/-- **A step of `run()` moves a request to the A record** if and only if the receive step says so,
and the change of the wait set does not fail. -/
theorem fallsBack_step (hl : T.tables.Linked) (hpc : T.pc = .receive) (hf : T.flags.read = true)
    (hd : e.recv = .datagram d) (hr : r ∈ T.tables.resolvers) (htype : r.recordType = recordAAAA)
    (hs : ∀ c ∈ T.tables.sendList, c.val ≠ r.addr) :
    (∃ T' es, T.localStep t now e = some (T', es) ∧ FallsBack r T') ↔
      recvAction T.tables d.buf d.size = some (.requeue r) ∧
        (e.changeOk = true ∨ T.tables.sendList ≠ []) := by
  unfold localStep receiveStep
  rw [hpc]
  dsimp only
  rw [if_pos hf, hd]
  dsimp only
  constructor
  · rintro ⟨T', es, h, hfb⟩
    obtain ⟨a, ha, h⟩ := Option.bind_eq_some_iff.mp h
    cases a with
    | ignore =>
      cases h
      exact absurd hfb (not_fallsBack hl hr htype rfl)
    | requeue r₁ =>
      obtain ⟨T₂, h₂, h⟩ := Option.bind_eq_some_iff.mp h
      cases h
      have hr₁ := Tables.deref_of_recvAction ha
      unfold fallback at h₂
      split at h₂
      · split at h₂
        · rename_i hchange
          cases h₂
          rw [fallsBack_eq (some .readWrite) hl hr htype hr₁ hfb] at ha
          exact ⟨ha, .inl hchange⟩
        · obtain ⟨tb, r', _, rfl⟩ := complete_eq_some h₂
          cases hfb.1
      · rename_i hlen
        cases h₂
        rw [fallsBack_eq T.waitMode hl hr htype hr₁ hfb] at ha
        exact ⟨ha, .inr (requeued_length.not.mp hlen)⟩
    | complete r₁ res =>
      obtain ⟨T₂, h₂, h⟩ := Option.bind_eq_some_iff.mp h
      cases h
      obtain ⟨tb, r', _, rfl⟩ := complete_eq_some h₂
      cases hfb.1
  · rintro ⟨ha, hchange⟩
    obtain ⟨mode, hmode⟩ := fallback_of_change (T := T.readCleared) (r := r) hchange
    refine ⟨{ T.readCleared.requeued r with waitMode := mode, pc := .checkWrite },
      .requeued r.addr d :: assert (r.sendIter = none), ?_,
      fallsBack_requeued (T := T.readCleared) hr hs⟩
    rw [ha]
    show (T.readCleared.fallback r e.changeOk).bind _ = _
    rw [hmode]
    rfl

end LookupThread

/-! ## the system -/

/-- The thread `t` is about to receive `reply`, a well-formed reply to the AAAA query of `r`, which
has been sent. -/
structure Sys.Receives (s : Sys) (t : ℕ) (e : Env) (r : Resolver) (reply : Reply) : Prop where
  pc : (s.threads t).pc = .receive
  readable : (s.threads t).flags.read = true
  datagram : ∃ d, e.recv = .datagram d ∧ d.bytes = reply.encode
  active : r ∈ (s.threads t).tables.resolvers
  type : r.recordType = recordAAAA
  sent : ∀ c ∈ (s.threads t).tables.sendList, c.val ≠ r.addr
  question : reply.id = r.id ∧ reply.name = r.hostName ∧ reply.type = recordAAAA

/-- **A reply to an AAAA query moves its request to the A record** if and only if it has no answers
at all, the host name has no empty label, and the change of the wait set does not fail. -/
theorem fallsBack_iff {s : Sys} (hr : Run s) {t : ℕ} {e : Env} {r : Resolver} {reply : Reply}
    (h : s.Receives t e r reply) :
    (∃ s', Sys.step (.run t e) s = some s' ∧ (s'.threads t).FallsBack r) ↔
      reply.answers = [] ∧ (r.hostName = [] ∨ NoEmptyLabel r.hostName) ∧
        (e.changeOk = true ∨ (s.threads t).tables.sendList ≠ []) := by
  obtain ⟨d, hd, hbytes⟩ := h.datagram
  obtain ⟨hid, hname, _⟩ := h.question
  have hl := (Sys.stored hr).linked t
  have hlen : r.hostName.length < 256 :=
    ((Sys.shortNames hr).active t r h.active).trans_lt (by decide)
  have hstep : (∃ T' es, (s.threads t).localStep t s.now e = some (T', es) ∧ T'.FallsBack r) ↔ _ :=
    LookupThread.fallsBack_step hl h.pc h.readable hd h.active h.type h.sent
  rw [recvAction_reply_iff hbytes hl (Sys.idsApart hr t) h.active hid hname hlen] at hstep
  have hrun : ∀ s', Sys.step (.run t e) s = some s' ↔ s.ownStep t e = some s' := by
    intro s'
    show s.runStep t e = some s' ↔ _
    unfold Sys.runStep
    rw [h.pc]
  constructor
  · rintro ⟨s', hs', hfb⟩
    obtain ⟨⟨T', es⟩, hT, heq⟩ := Option.bind_eq_some_iff.mp ((hrun s').mp hs')
    rw [← Option.some.inj heq, Sys.threads_setThread, if_pos rfl] at hfb
    obtain ⟨⟨hnil, hn, _⟩, hchange⟩ := hstep.mp ⟨T', es, hT, hfb⟩
    exact ⟨hnil, hn, hchange⟩
  · rintro ⟨hnil, hn, hchange⟩
    obtain ⟨T', es, hT, hfb⟩ := hstep.mpr ⟨⟨hnil, hn, h.type⟩, hchange⟩
    refine ⟨(s.setThread t T').addLog es, (hrun _).mpr ?_, ?_⟩
    · unfold Sys.ownStep
      rw [hT]
      rfl
    · rw [Sys.threads_setThread, if_pos rfl]
      exact hfb

/-- The thread has sent the AAAA query, and is told that the socket can be read. -/
def sendAndWake : List Action :=
  sendFirst ++ .run 0 { wake := .ready true false false } :: lookupSteps 0 3

/-- the state is one in which the reply can come -/
def Sys.awaitsReply (s : Sys) : Bool :=
  (s.threads 0).pc = .receive ∧ (s.threads 0).flags.read = true ∧
    ∃ r ∈ (s.threads 0).tables.resolvers, r.recordType = recordAAAA ∧
      (∀ c ∈ (s.threads 0).tables.sendList, c.val ≠ r.addr) ∧ r.id = 0 ∧ r.hostName = [97]

theorem Sys.receives_of_awaitsReply {s : Sys} (h : s.awaitsReply = true) {answers : List Record}
    {hn : answers.length < 65536} {d : Datagram} (hd : d.bytes = (replyTo answers hn).encode) :
    ∃ r, s.Receives 0 { recv := .datagram d } r (replyTo answers hn) ∧ r.hostName = [97] := by
  obtain ⟨hpc, hf, r, hr, htype, hs, hid, hname⟩ := of_decide_eq_true h
  exact ⟨r, ⟨hpc, hf, ⟨d, rfl, hd⟩, hr, htype, hs, hid.symm, hname.symm, rfl⟩, hname⟩

set_option maxRecDepth 10000 in
/-- a reply without answers -/
theorem fallsBack_iff_empty : ∃ s d r,
    resolverSystem.run (fun _ _ => True) sendAndWake (Sys.init 0) =
      some s ∧ ∃ s', Sys.step (.run 0 { recv := .datagram d }) s = some s' ∧
        (s'.threads 0).FallsBack r := by
  obtain ⟨s, hs, hp⟩ := Machine.exists_run resolverSystem (fun _ _ => True) sendAndWake (Sys.init 0)
    (fun s => s.awaitsReply) (by decide)
  let reply := replyTo [] (by decide)
  let d := Datagram.ofBytes reply.encode Address.unset (by decide)
  obtain ⟨r, hrec, hname⟩ :=
    Sys.receives_of_awaitsReply hp (Datagram.ofBytes_bytes reply.encode _ _)
  refine ⟨s, d, r, hs, (fallsBack_iff ((reach_init _ 0).run hs) hrec).mpr ⟨rfl, .inr ?_, .inl rfl⟩⟩
  rw [hname]
  decide

set_option maxRecDepth 10000 in
/-- A name with an alias and without an AAAA record: the request is completed with an error. -/
theorem cname_completes : ¬ ∀ s, Run s → ∀ t e r reply, s.Receives t e r reply →
    (∀ a ∈ reply.answers, a.type ≠ recordAAAA) →
    ∃ s', Sys.step (.run t e) s = some s' ∧ (s'.threads t).FallsBack r := by
  intro h
  let reply := replyTo [cname] (by decide)
  let d := Datagram.ofBytes reply.encode Address.unset (by decide)
  obtain ⟨s, hs, hp⟩ := exists_run_reach (fun _ _ => True) sendAndWake
    (fun s => s.awaitsReply ∧ ∀ s' ∈ Sys.step (.run 0 { recv := .datagram d }) s,
      (s'.threads 0).pc ≠ .checkWrite) 0 (by decide)
  obtain ⟨hwait, hstep⟩ := of_decide_eq_true hp
  obtain ⟨r, hrec, _⟩ := Sys.receives_of_awaitsReply hwait (Datagram.ofBytes_bytes reply.encode _ _)
  obtain ⟨s', hs', hfb⟩ := h s hs 0 _ r reply hrec (List.forall_mem_singleton.mpr (by decide))
  exact hstep s' hs' hfb.1

end Setka
