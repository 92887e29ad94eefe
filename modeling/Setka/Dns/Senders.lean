import Setka.Dns.Ids
import Setka.Dns.Replies
import Setka.Dns.StaleBytes

/-!
# Who sent a datagram

`run()` takes the sender's address from `recieve()` and does not look at it.  A datagram is taken
for a reply by the id and the host name.

* `Datagram.Names`      the id and the host name are those of the request;
* `receive_names`       a datagram does something to a request it names, or to none, whoever sent
                        it;
* `forged_reply_moves`  a reply that does not come from the server moves a request to the A record.
-/

namespace Setka

open History

/-- The datagram has the id and the host name of the request. -/
def Datagram.Names (d : Datagram) (r : Resolver) : Prop :=
  13 ≤ d.size ∧ deserialize16be d.buf 0 = some r.id ∧
    ∃ q, parseHostNameFromDNSPacket d.buf 12 bufSize = some (r.hostName, q)

/-- the same datagram from another sender -/
def Datagram.sentFrom (d : Datagram) (a : Address) : Datagram := { d with sender := a }

namespace Tables
variable {tb tb' : Tables} {r r' : Resolver}

/-- The request an id leads to has this id. -/
theorem id_of_findId (hl : Linked tb) {id : UInt16} {p : ℕ} (hp : tb.findId id = some p)
    (hr : tb.deref p = some r) : r.id = id := by
  obtain ⟨c, hc, rfl⟩ := Option.map_eq_some_iff.mp hp
  have hkey : c.key = id := by simpa using List.find?_some hc
  obtain ⟨r₀, h₀, rfl⟩ := List.mem_map.mp (hl.ids.mem_iff.mp (List.mem_of_find?_eq_some hc))
  obtain ⟨hmem, haddr⟩ := deref_eq_some hr
  rw [← hkey, List.inj_on_of_nodup_map hl.addrs hmem h₀ haddr]
  rfl

/-- The other requests stay. -/
theorem mem_removeResolver {x : ℕ} (hl : Linked tb) (h : tb.removeResolver x = some (tb', some r))
    (hr' : r' ∈ tb.resolvers) (hne : r'.addr ≠ r.addr) : r' ∈ tb'.resolvers := by
  rcases List.mem_cons.mp ((resolvers_perm hl.keys h).mem_iff.mp hr') with rfl | hmem
  · exact absurd rfl hne
  · exact hmem

theorem mem_modify_of_ne {p : ℕ} {f : Resolver → Resolver} (hr' : r' ∈ tb.resolvers)
    (hne : r'.addr ≠ p) : r' ∈ (tb.modify p f).resolvers := by
  obtain ⟨e, he, rfl⟩ := List.mem_map.mp hr'
  refine List.mem_map.mpr ⟨e, List.mem_map.mpr ⟨e, he, if_neg hne⟩, rfl⟩

end Tables

/-- What is not ignored names a request. -/
theorem names_of_recvAction {tb : Tables} {d : Datagram} {a : RecvAction} (hl : tb.Linked)
    (h : recvAction tb d.buf d.size = some a) (hne : a ≠ .ignore) :
    ∃ r ∈ tb.resolvers, tb.deref r.addr = some r ∧ d.Names r ∧
      (a = .requeue r ∨ ∃ res, a = .complete r res) := by
  rcases recvAction_eq_some h with h | ⟨id, p, r, q, res, hsize, hid, hp, hr, hhost, _, ha⟩
  · exact absurd h hne
  · obtain ⟨hmem, rfl⟩ := Tables.deref_eq_some hr
    refine ⟨r, hmem, hr, ⟨hsize, Tables.id_of_findId hl hp hr ▸ hid, q, hhost⟩, ?_⟩
    split at ha
    · exact .inl ha
    · exact .inr ⟨res, ha⟩

namespace LookupThread

/-- A datagram leaves the thread as it is, but for the read flag, or does something to a request it
names and to no other. -/
def Takes (d : Datagram) (T T' : LookupThread) : Prop :=
  T' = { T.readCleared with pc := .checkWrite } ∨
    ∃ r ∈ T.tables.resolvers, d.Names r ∧
      ∀ r' ∈ T.tables.resolvers, r'.addr ≠ r.addr → r' ∈ T'.tables.resolvers

theorem receiveStep_takes {T T' : LookupThread} {e : Env} {es : List Event} {d : Datagram}
    (hl : T.tables.Linked) (hf : T.flags.read = true) (hd : e.recv = .datagram d)
    (h : T.receiveStep e = some (T', es)) : Takes d T T' := by
  unfold receiveStep at h
  rw [if_pos hf, hd] at h
  obtain ⟨a, ha, h⟩ := Option.bind_eq_some_iff.mp h
  cases a with
  | ignore =>
    cases h
    exact .inl rfl
  | requeue r =>
    obtain ⟨T₂, h₂, h⟩ := Option.bind_eq_some_iff.mp h
    cases h
    obtain ⟨r₁, hr, hderef, hnames, heq | ⟨_, heq⟩⟩ := names_of_recvAction hl ha nofun
    case inr => cases heq
    cases heq
    refine .inr ⟨r, hr, hnames, fun r' hr' hne => ?_⟩
    have hstays : r' ∈ (T.tables.modify r.addr fun r => { r with
        recordType := recordA, sendIter := some T.tables.nextNode }).resolvers :=
      Tables.mem_modify_of_ne hr' hne
    rcases fallback_eq_some h₂ with rfl | ⟨_, tb, r₂, hrem, rfl⟩
    · exact hstays
    · have hl' := Tables.requeue_linked hl r.addr
      -- the request that is removed is the one that has just been moved
      obtain rfl := Tables.removed_of_deref hl' (Tables.deref_requeue hl hr) hrem
      exact Tables.mem_removeResolver hl' hrem hstays hne
  | complete r res =>
    obtain ⟨T₂, h₂, h⟩ := Option.bind_eq_some_iff.mp h
    cases h
    obtain ⟨r₁, hr, hderef, hnames, heq | ⟨_, heq⟩⟩ := names_of_recvAction hl ha nofun
    case inl => cases heq
    cases heq
    refine .inr ⟨r, hr, hnames, fun r' hr' hne => ?_⟩
    obtain ⟨tb, r₂, hrem, rfl⟩ := complete_eq_some h₂
    obtain rfl := Tables.removed_of_deref hl hderef hrem
    exact Tables.mem_removeResolver hl hrem hr' hne

end LookupThread

/-- **A datagram completes or moves a request that it names, or none, whoever sent it.** -/
theorem receive_names {s s' : Sys} (hr : Run s) {t : ℕ} {e : Env} {d : Datagram}
    (hpc : (s.threads t).pc = .receive) (hf : (s.threads t).flags.read = true)
    (hd : e.recv = .datagram d) (hs : Sys.step (.run t e) s = some s') :
    (s.threads t).Takes d (s'.threads t) ∧ ∀ a : Address, ∃ s'',
      Sys.step (.run t { e with recv := .datagram (d.sentFrom a) }) s = some s'' ∧
        s''.threads = s'.threads := by
  have hrun : ∀ e', Sys.step (.run t e') s = s.ownStep t e' := by
    intro e'
    show s.runStep t e' = _
    unfold Sys.runStep
    rw [hpc]
  have hlocal : ∀ e', (s.threads t).localStep t s.now e' = (s.threads t).receiveStep e' := by
    intro e'
    unfold LookupThread.localStep
    rw [hpc]
  rw [hrun] at hs
  obtain ⟨⟨T', es⟩, hT, heq⟩ := Option.bind_eq_some_iff.mp hs
  rw [hlocal] at hT
  cases heq
  constructor
  · rw [Sys.threads_setThread, if_pos rfl]
    exact LookupThread.receiveStep_takes ((Sys.stored hr).linked t) hf hd hT
  · intro a
    have hcongr := LookupThread.receiveStep_congr (e := e)
      (show recvAction (s.threads t).tables (d.sentFrom a).buf (d.sentFrom a).size =
        recvAction (s.threads t).tables d.buf d.size from rfl)
    have he : { e with recv := .datagram d } = e := by rw [← hd]
    rw [he, hT] at hcongr
    obtain ⟨⟨T₂, es₂⟩, hT₂, hfst⟩ := Option.map_eq_some_iff.mp hcongr
    obtain rfl : T₂ = T' := hfst
    refine ⟨(s.setThread t T₂).addLog es₂, ?_, rfl⟩
    rw [hrun]
    unfold Sys.ownStep
    rw [hlocal, hT₂]
    rfl

set_option maxRecDepth 10000 in
theorem receive_names_noSuchName : ∃ s s', resolverSystem.run (fun _ _ => True)
      (sendFirst ++ .run 0 { wake := .ready true false false } :: lookupSteps 0 3) (Sys.init 0) =
        some s ∧ Sys.step (.run 0 { recv := .datagram noSuchName }) s = some s' ∧
      (s.threads 0).Takes noSuchName (s'.threads 0) := by
  obtain ⟨s, hs, hp⟩ := Machine.exists_run resolverSystem (fun _ _ => True)
    (sendFirst ++ .run 0 { wake := .ready true false false } :: lookupSteps 0 3) (Sys.init 0)
    (fun s => (s.threads 0).pc = .receive ∧ (s.threads 0).flags.read = true ∧
      (Sys.step (.run 0 { recv := .datagram noSuchName }) s).isSome) (by decide)
  obtain ⟨hpc, hf, hstep⟩ := of_decide_eq_true hp
  obtain ⟨s', hs'⟩ := Option.isSome_iff_exists.mp hstep
  exact ⟨s, s', hs, hs', (receive_names ((reach_init _ 0).run hs) hpc hf rfl hs').1⟩

/-- the server the last query for a request was sent to -/
def lastServer : List Event → ℕ → Option Address
  | [], _ => none
  | .sent j _ a :: older, k => if j = k then some a else lastServer older k
  | _ :: older, k => lastServer older k

/-- A datagram that completes or moves a request comes from the server of its last query. -/
def FromServer : Event → List Event → Prop
  | .replied k d _, older => lastServer older k = some d.sender
  | .requeued k d, older => lastServer older k = some d.sender
  | _, _ => True

/-- the same reply from a host that no query was sent to -/
def forgedReply : Datagram := noSuchName.sentFrom ⟨Ip.ofV4 0x0a000005, 4000⟩

set_option maxRecDepth 10000 in
/-- a reply from 10.0.0.5, after a query to 127.0.0.1 -/
theorem forged_reply_moves : ¬ ∀ s, Run s → Always FromServer s.log := by
  intro h
  obtain ⟨s, hs, hp⟩ := exists_run_reach (fun _ _ => True) (sendFirst ++ receives forgedReply)
    (fun s => s.log = .requeued 0 forgedReply :: s.log.tail ∧
      lastServer s.log.tail 0 = some ⟨Ip.ofV4 0x7f000001, 53⟩) 0 (by decide)
  obtain ⟨hlog, hserver⟩ := of_decide_eq_true hp
  have hfrom : lastServer s.log.tail 0 = some forgedReply.sender := h s hs [] _ _ hlog
  rw [hserver] at hfrom
  exact absurd hfrom (by decide)

end Setka
