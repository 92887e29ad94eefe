import Setka.Dns.Zone

/-!
# The results of lookups

The name servers, seen as a zone, and the resolver together: what `on_completed()` is called with,
in every run in which the datagrams that are taken for replies come from servers of the zone.

* `FromZone`            the condition on a received datagram: if it is taken for a reply, it is a
                        reply of the zone to some query, maybe a late, a repeated or another one's;
* `Resolver.Known`      what is known of an active request in such runs;
* `lookups`             the invariant of the active requests and of the callbacks in progress;
* `found_address`       an address that is reported is one the zone has for the name;
* `answers_lookup`      if the replies are to the queries sent last, the result is `Zone.lookup`.
-/

namespace Setka

/-- a result that needs no reply -/
def DnsResult.IsFailure (result : DnsResult) : Prop := result = .timeout ∨ result = .error

/-- The log has the registration of an active request; and a request for the A record is one for a
name with the property `φ`. -/
structure Resolver.Known (φ : Bytes → Prop) (log : List Event) (r : Resolver) : Prop where
  types : r.recordType = recordAAAA ∨ r.recordType = recordA
  name : ∃ q now nested, .registered r.addr q now nested ∈ log ∧ q.hostName = r.hostName
  fellBack : r.recordType = recordA → φ r.hostName

/-- what a callback reports: a failure, or a result with the property `ψ` -/
def Callback.Reports (ψ : Bytes → ParseResult → Prop) (log : List Event) (c : Callback) : Prop :=
  ∃ q now nested, .registered c.resolver.addr q now nested ∈ log ∧
    (c.result.IsFailure ∨ ψ q.hostName ⟨c.result, c.ip⟩)

section
variable {φ : Bytes → Prop} {ψ : Bytes → ParseResult → Prop} {log es : List Event}

theorem Resolver.Known.append {r : Resolver} (h : r.Known φ log) : r.Known φ (es ++ log) where
  types := h.types
  name := by
    obtain ⟨q, now, nested, hev, hq⟩ := h.name
    exact ⟨q, now, nested, List.mem_append_right es hev, hq⟩
  fellBack := h.fellBack

/-- the server and the send list are not what is known -/
theorem Resolver.Known.written {r : Resolver} (h : r.Known φ log) (iter : Option ℕ) (a : Address) :
    Known φ log { r with sendIter := iter, dns := a } :=
  ⟨h.types, h.name, h.fellBack⟩

theorem Callback.Reports.append {c : Callback} (h : c.Reports ψ log) :
    c.Reports ψ (es ++ log) := by
  obtain ⟨q, now, nested, hev, hc⟩ := h
  exact ⟨q, now, nested, List.mem_append_right es hev, hc⟩

/-- The result of a known request is the result for the name it was registered with. -/
theorem Resolver.Known.reports {r : Resolver} {result : DnsResult} {ip : Ip} (site : Site)
    (h : r.Known φ log) (hres : result.IsFailure ∨ ψ r.hostName ⟨result, ip⟩) :
    Callback.Reports ψ log ⟨r, result, ip, site⟩ := by
  obtain ⟨q, now, nested, hev, hq⟩ := h.name
  exact ⟨q, now, nested, hev, hq ▸ hres⟩

/-! ## one change of the tables -/

theorem Tables.Op.known {C : Resolver → Prop} {tb tb' : Tables} (h : Op C tb tb')
    (haddr : tb.addrs.Nodup) (hC : ∀ r, C r → φ r.hostName)
    (hk : ∀ r ∈ tb.resolvers, r.Known φ log) : ∀ r ∈ tb'.resolvers, r.Known φ log := by
  intro r hr
  cases h with
  | removed x r' _ hrem => exact hk r (removeResolver_subset hrem hr)
  | requeued r' hr' hCr =>
    obtain ⟨r₀, h₀, rfl⟩ := mem_requeue hr
    split
    · rename_i ha
      obtain rfl := List.inj_on_of_nodup_map haddr h₀ (deref_eq_some hr').1 ha
      exact ⟨.inr rfl, (hk r₀ h₀).name, fun _ => hC r₀ hCr⟩
    · exact hk r₀ h₀
  | dnsSet p a =>
    obtain ⟨r₀, h₀, rfl⟩ := mem_modify hr
    split
    · exact (hk r₀ h₀).written _ a
    · exact hk r₀ h₀
  | sent c rest =>
    obtain ⟨r₀, h₀, rfl⟩ := mem_markSent hr
    split
    · exact (hk r₀ h₀).written none _
    · exact hk r₀ h₀
  | swapped => exact hk r hr

theorem Tables.Ops.known {C : Resolver → Prop} {tb tb' : Tables} (h : Ops C tb tb')
    (hl : tb.Linked) (hC : ∀ r, C r → φ r.hostName) (hk : ∀ r ∈ tb.resolvers, r.Known φ log) :
    ∀ r ∈ tb'.resolvers, r.Known φ log := by
  induction h with
  | refl => exact hk
  | tail hops hop ih => exact hop.known (Tables.Ops.linked hops hl).addrs hC ih

end

/-! ## one step of `run()` -/

namespace LookupThread
variable {φ : Bytes → Prop} {ψ : Bytes → ParseResult → Prop} {log : List Event}
  {t now : ℕ} {e : Env} {T T' : LookupThread} {es : List Event}

/-- A callback is of a request that was active; its result is a failure or that of a reply. -/
theorem LocalMove.reports (h : LocalMove t now e T T' es) (hl : T.tables.Linked)
    (hreq : ∀ d r, T.pc = .receive → T.flags.read = true → e.recv = .datagram d →
      recvAction T.tables d.buf d.size = some (.requeue r) → φ r.hostName)
    (hrep : ∀ d r res, T.pc = .receive → T.flags.read = true → e.recv = .datagram d →
      recvAction T.tables d.buf d.size = some (.complete r res) → r.Known φ log →
      ψ r.hostName res)
    (hk : ∀ r ∈ T.tables.resolvers, r.Known φ log) {c : Callback} (hpc : T'.pc = .cbLock c) :
    c.Reports ψ log := by
  -- a request that is given up, by an operation on the tables after other ones
  have hgiven : ∀ {tb tb' : Tables} {x : ℕ} {r : Resolver} {result : DnsResult} {ip : Ip}
      {site : Site}, Tables.Ops (fun r => φ r.hostName) T.tables tb →
      tb.removeResolver x = some (tb', some r) → result.IsFailure →
      Callback.Reports ψ log ⟨r, result, ip, site⟩ := by
    intro tb tb' x r result ip site hops hrem hres
    have hr : r ∈ tb.resolvers :=
      List.mem_map_of_mem (Tables.find_eq_some (Tables.removeResolver_eq_some hrem).1)
    exact (hops.known hl (fun _ hr => hr) hk r hr).reports site (.inl hres)
  cases h with
  | requeueFailed d r tb r' hpcr hf hd _ ha hrem =>
    cases hpc
    exact hgiven (.single (.requeued r (Tables.deref_of_recvAction ha) (hreq d r hpcr hf hd ha)))
      hrem (.inr rfl)
  | replied d r res tb r' hpcr hf hd ha hrem =>
    cases hpc
    have hr := Tables.deref_of_complete ha
    rw [Tables.removed_of_deref hl hr hrem]
    have hkr := hk r (Tables.deref_eq_some hr).1
    exact hkr.reports .receive (.inr (hrep d r res hpcr hf hd ha hkr))
  | noServer c' rest r tb r' _ _ _ _ hrem =>
    cases hpc
    exact hgiven (.single (.dnsSet r.addr (T.server r))) hrem (.inr rfl)
  | wrapTimeout c' rest r tb r' _ _ _ hrem | expireTimeout c' rest r tb r' _ _ _ _ hrem =>
    cases hpc
    exact hgiven .refl hrem (.inl rfl)
  | drainNext d x r rest tb r' _ _ hrem =>
    cases hpc
    exact hgiven .refl hrem (.inr rfl)
  | cbRelock s => cases s <;> cases hpc
  | wakeReady =>
    dsimp only at hpc
    split at hpc <;> cases hpc
  | sent _ _ _ hsend => cases hsend.symm.trans hpc
  | _ => cases hpc

end LookupThread

/-! ## every run -/

namespace Sys
variable {φ : Bytes → Prop} {ψ : Bytes → ParseResult → Prop} {s s' : Sys} {act : Action}

structure Lookups (φ : Bytes → Prop) (ψ : Bytes → ParseResult → Prop) (s : Sys) : Prop where
  known : ∀ t, ∀ r ∈ (s.threads t).tables.resolvers, r.Known φ s.log
  reports : ∀ t c, (s.threads t).pc.callback = some c → c.Reports ψ s.log

/-- A new callback in progress in a thread is one of its own steps. -/
theorem ThreadMove.callback_run {u : ℕ} {T' : LookupThread}
    (h : ThreadMove act s s' u (s.threads u) T') {c : Callback} (hc : T'.pc.callback = some c)
    (hnew : (s.threads u).pc.callback ≠ some c) :
    ∃ e es, act = .run u e ∧ LookupThread.LocalMove u s.now e (s.threads u) T' es ∧
      T'.pc = .cbLock c := by
  cases h with
  | registered a q needStart =>
    cases needStart with
    | true => cases hc
    | false => exact absurd hc hnew
  | cancelled a x tb =>
    rw [cancelled_pc] at hc
    exact absurd hc hnew
  | cancelMiss a x tb =>
    have hpc : (Sys.cancelled (s.threads u) tb).pc = (s.threads u).pc := cancelled_pc _ tb
    exact absurd (hpc ▸ hc) hnew
  | own e T' es _ _ hl hact _ => exact ⟨e, es, hact, hl, (hl.callback_cases hc).resolve_left hnew⟩
  | same | cancelWait | toldToQuit | startSending | popQueue => exact absurd hc hnew
  | created | cleanedUp | joined | joinedPrev | openSocket | openFailed | queueEmpty
      | drainedOpen => cases hc

theorem lookups_step (h : Lookups φ ψ s) (hm : Move act s s') (hst : Stored s) (hc : Calls s)
    (hreq : ∀ t e d r, act = .run t e → (s.threads t).pc = .receive →
      (s.threads t).flags.read = true → e.recv = .datagram d →
      recvAction (s.threads t).tables d.buf d.size = some (.requeue r) → φ r.hostName)
    (hrep : ∀ t e d r res, act = .run t e → (s.threads t).pc = .receive →
      (s.threads t).flags.read = true → e.recv = .datagram d →
      recvAction (s.threads t).tables d.buf d.size = some (.complete r res) → r.Known φ s.log →
      ψ r.hostName res) : Lookups φ ψ s' where
  known t r hr := by
    have hold : ∀ {tb : Tables}, Tables.Ops (fun r => φ r.hostName) (s.threads t).tables tb →
        r ∈ tb.resolvers → r.Known φ s'.log := by
      intro tb hops hr
      obtain ⟨es, hlog, _⟩ := hm.log_grows
      rw [hlog]
      exact (hops.known (hst.linked t) (fun _ hr => hr) (h.known t) r hr).append
    have ht := hm.thread t
    generalize s'.threads t = T' at ht hr
    cases ht with
    | created | cleanedUp | joined => cases hr
    | registered a q needStart id hcall _ _ _ hs' =>
      rw [registerIn_tables] at hr
      have hp := Tables.register_resolvers s.nextCall id (ticks s.now)
        (hc.absent a q t needStart hcall)
      rcases List.mem_cons.mp (hp.mem_iff.mp hr) with rfl | hr
      · refine ⟨.inl rfl, ⟨q, s.now, s.runsCallbackOf a == some q.hnr, ?_, rfl⟩, nofun⟩
        rw [hs']
        exact List.mem_cons_self
      · exact hold .refl hr
    | cancelled a x tb r' _ _ hrem =>
      rw [cancelled_tables] at hr
      exact hold (.single (.removed x r' tb hrem)) hr
    | cancelMiss a x tb _ _ hrem =>
      have hr' : r ∈ (Sys.cancelled (s.threads t) tb).tables.resolvers := hr
      rw [cancelled_tables, (Tables.removeResolver_eq_none hrem).1] at hr'
      exact hold .refl hr'
    | own e T' es _ _ hl hact _ =>
      exact hold (hl.tables fun d r hpc hf hd ha => hreq t e d r hact hpc hf hd ha) hr
    | _ => exact hold .refl hr
  reports t c hcb := by
    have hreports : c.Reports ψ s.log := by
      by_cases hold : (s.threads t).pc.callback = some c
      · exact h.reports t c hold
      · obtain ⟨e, es, hact, hl, hpc⟩ := (hm.thread t).callback_run hcb hold
        exact hl.reports (hst.linked t) (fun d r => hreq t e d r hact)
          (fun d r res => hrep t e d r res hact) (h.known t) hpc
    obtain ⟨es, hlog, _⟩ := hm.log_grows
    rw [hlog]
    exact hreports.append

/-- **The rule for lookups.**  What holds of every reply that is taken holds of every result that
is reported, if no request is moved to the A record without `φ`. -/
theorem lookups {G : Sys → Action → Prop}
    (hreq : ∀ s t e d r, G s (.run t e) → (s.threads t).pc = .receive →
      (s.threads t).flags.read = true → e.recv = .datagram d →
      recvAction (s.threads t).tables d.buf d.size = some (.requeue r) → φ r.hostName)
    (hrep : ∀ s t e d r res, G s (.run t e) → (s.threads t).pc = .receive →
      (s.threads t).flags.read = true → e.recv = .datagram d →
      recvAction (s.threads t).tables d.buf d.size = some (.complete r res) → r.Known φ s.log →
      ψ r.hostName res) (hr : resolverSystem.Reach G s) : Lookups φ ψ s := by
  refine hr.invariant (I := Lookups φ ψ) ?_ ?_
  · rintro s ⟨now, rfl⟩
    refine ⟨fun t r hr => ?_, nofun⟩
    cases hr
  · intro s act s' hr h hg hs
    refine lookups_step h (sysMove hs) (stored hr) (locks hr).toCalls ?_ ?_
    · rintro t e d r rfl
      exact hreq s t e d r hg
    · rintro t e d r res rfl
      exact hrep s t e d r res hg

/-! ## the servers of a zone -/

/-- A received datagram that is taken for a reply comes from a server of the zone. -/
def FromZone (zone : Zone) (s : Sys) : Action → Prop
  | .run t e => ∀ d, e.recv = .datagram d → (s.threads t).pc = .receive →
      (s.threads t).flags.read = true → ∀ r ∈ matchedRequest (s.threads t).tables d,
      ∃ name type, ProperName name ∧ zone.Replies d name type
  | _ => True

section
variable {zone : Zone} {t : ℕ} {e : Env} {d : Datagram} (hg : FromZone zone s (.run t e))
  (hpc : (s.threads t).pc = .receive) (hf : (s.threads t).flags.read = true)
  (hd : e.recv = .datagram d)
include hg hpc hf hd

/-- A datagram that is taken for a reply is one for the name of the request. -/
theorem FromZone.replies {r : Resolver} (hm : matchedRequest (s.threads t).tables d = some r) :
    ProperName r.hostName ∧ ∃ type, zone.Replies d r.hostName type := by
  obtain ⟨name, type, hn, hz⟩ := hg d hd hpc hf r hm
  rw [hz.hostName_eq hn hm]
  exact ⟨hn, type, hz⟩

/-- The result of a reply is what the request reads in it. -/
theorem FromZone.completes {r : Resolver} {res : ParseResult}
    (ha : recvAction (s.threads t).tables d.buf d.size = some (.complete r res))
    (htype : r.recordType = recordAAAA ∨ r.recordType = recordA) :
    matchedRequest (s.threads t).tables d = some r ∧ ∃ type, zone.Replies d r.hostName type ∧
      res = zone.read r.hostName type r.recordType ∧
      ¬ (res.result = .notFound ∧ r.recordType = recordAAAA) := by
  obtain ⟨r₁, res₁, hm, _, hres, ha₁⟩ := matchedRequest_of_recvAction ha nofun
  split at ha₁
  · cases ha₁
  · rename_i hnot
    cases ha₁
    obtain ⟨hn, type, hz⟩ := hg.replies hpc hf hd hm
    rw [hz.parse hn rfl htype] at hres
    exact ⟨hm, type, hz, (Option.some.inj hres).symm, hnot⟩

variable (hq : AnswersQuery s (.run t e))
include hq

end
end Sys

/-- **An address that is reported is one of the name,** even if the replies are late, repeated, or
replies to queries of other requests. -/
theorem found_address {zone : Zone} {s : Sys} (hr : resolverSystem.Reach (Sys.FromZone zone) s)
    {t : ℕ} {c : Callback} (hc : (s.threads t).pc.callback = some c) (hok : c.result = .ok) :
    ∃ q now nested, .registered c.resolver.addr q now nested ∈ s.log ∧
      ∃ type, (type = recordAAAA ∨ type = recordA) ∧
        zone.answer q.hostName type = ⟨.ok, c.ip⟩ := by
  have hl : Sys.Lookups (fun _ => True) (fun name res => res.result = .ok →
      ∃ type, (type = recordAAAA ∨ type = recordA) ∧ zone.answer name type = res) s := by
    refine Sys.lookups (fun _ _ _ _ _ _ _ _ _ _ => trivial) ?_ hr
    intro s t e d r res hg hpc hf hd ha hk hok
    obtain ⟨_, type, _, rfl, _⟩ := hg.completes hpc hf hd ha hk.types
    obtain rfl := Zone.type_eq_of_read_ok hok
    exact ⟨_, hk.types, Zone.read_self.symm⟩
  obtain ⟨q, now, nested, hev, hfail | hres⟩ := hl.reports t c hc
  · rcases hfail with h | h <;> cases hok.symm.trans h
  · exact ⟨q, now, nested, hev, hok ▸ hres hok⟩

/-! ## a host without an IPv6 address -/

/-- the zone in which the host "a" is an alias with the address 127.0.0.1 -/
def zoneA : Zone where
  answers name type :=
    if name = [97] then some (if type = recordA then [aliasRecord, loopback] else []) else none
  usual name type recs hrecs a ha := by
    split at hrecs
    · cases hrecs
      split at ha
      · rcases List.mem_pair.mp ha with rfl | rfl
        · exact ⟨.inr ⟨rfl, by decide⟩, nofun, nofun⟩
        · exact ⟨.inl ⟨rfl, nofun⟩, fun _ => rfl, nofun⟩
      · cases ha
    · cases hrecs

/-- the datagram with a reply in it -/
def Reply.datagram (reply : Reply) (h : reply.encode.length ≤ bufSize) : Datagram :=
  .ofBytes reply.encode Address.unset h

def noAddress : Datagram := (replyTo [] (by decide)).datagram (by decide)

def hasAddress : Datagram := aliasReply.datagram (by decide)

/-- the only datagrams received are those two -/
def RepliesOfA (_ : Sys) : Action → Prop
  | .run _ e => match e.recv with
    | .datagram d => d = noAddress ∨ d = hasAddress
    | _ => True
  | _ => True

instance (s : Sys) (act : Action) : Decidable (RepliesOfA s act) := by
  apply @Action.casesOn _ act <;> intros <;> dsimp only [RepliesOfA] <;> try infer_instance
  generalize Env.recv _ = v
  apply @Recv.casesOn _ v <;> intros <;> infer_instance

theorem RepliesOfA.fromZone {s : Sys} {act : Action} (h : RepliesOfA s act) :
    Sys.FromZone zoneA s act := by
  cases act with
  | run t e =>
    intro d hd _ _ r _
    have hd' : d = noAddress ∨ d = hasAddress := by simpa only [RepliesOfA, hd] using h
    have hn : ProperName [97] := ⟨by decide, by decide⟩
    rcases hd' with rfl | rfl
    · exact ⟨_, recordAAAA, hn, .records _ (Datagram.ofBytes_bytes _ _ _) rfl rfl rfl⟩
    · exact ⟨_, recordA, hn, .records _ (Datagram.ofBytes_bytes _ _ _) rfl rfl rfl⟩
  | _ => trivial

/-- Both queries are sent and answered. -/
def lookupA : List Action :=
  sendFirst ++ receives noAddress ++ lookupSteps 0 3 ++
  .run 0 { wake := .ready false true false } :: lookupSteps 0 9 ++ receives hasAddress

set_option maxRecDepth 10000 in
theorem reach_lookupA : ∃ (s : Sys) (c : Callback),
    resolverSystem.Reach (fun s act => RepliesOfA s act ∧ Sys.AnswersQuery s act) s ∧
    (s.threads 0).pc.callback = some c ∧ c.result = .ok ∧ c.ip = Ip.ofV4 0x7f000001 := by
  obtain ⟨s, hr, hp⟩ := exists_run_reach
    (fun s act => RepliesOfA s act ∧ Sys.AnswersQuery s act) lookupA
    (fun s => ∃ c ∈ (s.threads 0).pc.callback, c.result = .ok ∧ c.ip = Ip.ofV4 0x7f000001) 0
    (by decide)
  obtain ⟨c, hc, hres⟩ := of_decide_eq_true hp
  exact ⟨s, c, hr, hc, hres⟩

theorem found_address_ipv4 : ∃ (s : Sys) (c : Callback), (s.threads 0).pc.callback = some c ∧
    c.ip = Ip.ofV4 0x7f000001 ∧ ∃ q now nested, .registered c.resolver.addr q now nested ∈ s.log ∧
      ∃ type, (type = recordAAAA ∨ type = recordA) ∧
        zoneA.answer q.hostName type = ⟨.ok, c.ip⟩ := by
  obtain ⟨s, c, hr, hc, hok, hip⟩ := reach_lookupA
  exact ⟨s, c, hc, hip, found_address (hr.mono fun _ _ hg => hg.1.fromZone) hc hok⟩

end Setka
