import Mathlib.Logic.Relation
import Setka.Dns.Thread

/-!
# What one step of `run()` can do

`LocalMove t now e T T' es` lists the steps of `localStep` one by one, each with its guard and the
thread after it; `localMove` says that `localStep` takes no other step.  The invariants are proved
by cases on it.
-/

namespace Setka
namespace LookupThread

/-- the thread after `RemoveResolver` of the request `r` and on its way into `CallCallback` -/
def completing (T : LookupThread) (tb : Tables) (r : Resolver) (result : DnsResult) (ip : Ip)
    (site : Site) : LookupThread :=
  { T with tables := tb, pc := .cbLock ⟨r, result, ip, site⟩ }

theorem complete_eq_some {T T' : LookupThread} {x : ℕ} {result : DnsResult} {ip : Ip} {site : Site}
    (h : T.complete x result ip site = some T') :
    ∃ tb r, T.tables.removeResolver x = some (tb, some r) ∧
      T' = T.completing tb r result ip site := by
  unfold complete at h
  obtain ⟨⟨tb, o⟩, hr, h⟩ := Option.bind_eq_some_iff.mp h
  obtain ⟨r, ho, h⟩ := Option.bind_eq_some_iff.mp h
  cases ho
  exact ⟨tb, r, hr, (Option.some.inj h).symm⟩

inductive LocalMove (t now : ℕ) (e : Env) (T : LookupThread) : LookupThread → List Event → Prop
  | initDNS : T.pc = .initDNS →
      LocalMove t now e T { T with dns := e.systemDns, pc := .openSocket } []
  | quit : T.pc = .loopHead → T.quitFlag = true → LocalMove t now e T { T with pc := .leave } []
  | nextRound : T.pc = .loopHead → T.quitFlag = false →
      LocalMove t now e T { T with pc := .lockMutex } []
  | lock : T.pc = .lockMutex → T.mutex = none →
      LocalMove t now e T { T with mutex := some (.lookup t), pc := .checkError } []
  | socketError : T.pc = .checkError →
      LocalMove t now e T { T with isExiting := true, pc := .drain .loopExit } []
  | noError : T.pc = .checkError → LocalMove t now e T { T with pc := .receive } []
  | notReadable : T.pc = .receive → T.flags.read = false →
      LocalMove t now e T { T with pc := .checkWrite } []
  | receiveError : T.pc = .receive →
      LocalMove t now e T { T.readCleared with isExiting := true, pc := .drain .loopExit } []
  | receiveNothing : T.pc = .receive →
      LocalMove t now e T { T.readCleared with pc := .checkWrite } (assert false)
  | ignored (d : Datagram) : T.pc = .receive → T.flags.read = true → e.recv = .datagram d →
      recvAction T.tables d.buf d.size = some .ignore →
      LocalMove t now e T { T.readCleared with pc := .checkWrite } (assert (d.size ≠ 0))
  | requeued (d : Datagram) (r : Resolver) (mode : Option WaitMode) : T.pc = .receive →
      T.flags.read = true → e.recv = .datagram d →
      recvAction T.tables d.buf d.size = some (.requeue r) →
      mode = (if (T.tables.requeue r.addr).sendList.length = 1 then some .readWrite
        else T.waitMode) →
      LocalMove t now e T { T.readCleared.requeued r with waitMode := mode, pc := .checkWrite }
        (.requeued r.addr d :: assert (r.sendIter = none))
  | requeueFailed (d : Datagram) (r : Resolver) (tb : Tables) (r' : Resolver) : T.pc = .receive →
      T.flags.read = true → e.recv = .datagram d → e.changeOk = false →
      recvAction T.tables d.buf d.size = some (.requeue r) →
      (T.tables.requeue r.addr).removeResolver r.hnr = some (tb, some r') →
      LocalMove t now e T
        ((T.readCleared.requeued r).completing tb r' .error ⟨0, 0, 0, 0⟩ .receive)
        (.requeued r.addr d :: assert (r.sendIter = none))
  | replied (d : Datagram) (r : Resolver) (res : ParseResult) (tb : Tables) (r' : Resolver) :
      T.pc = .receive → T.flags.read = true → e.recv = .datagram d →
      recvAction T.tables d.buf d.size = some (.complete r res) →
      T.tables.removeResolver r.hnr = some (tb, some r') →
      LocalMove t now e T (T.readCleared.completing tb r' res.result res.host .receive)
        [.replied r.addr d res.result]
  | writable : T.pc = .checkWrite → T.flags.write = true →
      LocalMove t now e T { T with pc := .send } (assert (!T.tables.sendList.isEmpty))
  | notWritable : T.pc = .checkWrite → T.flags.write = false →
      LocalMove t now e T { T with pc := .sample } []
  | allSent : T.pc = .send → T.tables.sendList = [] →
      LocalMove t now e T { T with waitMode := some .read, pc := .sample } []
  | sent (c : Cell Unit ℕ) (rest : List (Cell Unit ℕ)) (r : Resolver) : T.pc = .send →
      T.tables.sendList = c :: rest → T.tables.deref c.val = some r →
      (T.server r).host.isValid = true →
      LocalMove t now e T
        { (T.serverChosen r).writeCleared with
          tables := (T.serverChosen r).tables.markSent r.addr }
        [.sent r.addr r.recordType (T.server r)]
  | sendNotReady (c : Cell Unit ℕ) (rest : List (Cell Unit ℕ)) (r : Resolver) : T.pc = .send →
      T.tables.sendList = c :: rest → T.tables.deref c.val = some r →
      (T.server r).host.isValid = true →
      LocalMove t now e T { (T.serverChosen r).writeCleared with pc := .sample } []
  | sendError (c : Cell Unit ℕ) (rest : List (Cell Unit ℕ)) (r : Resolver) : T.pc = .send →
      T.tables.sendList = c :: rest → T.tables.deref c.val = some r →
      (T.server r).host.isValid = true →
      LocalMove t now e T
        { (T.serverChosen r).writeCleared with isExiting := true, pc := .drain .loopExit } []
  | noServer (c : Cell Unit ℕ) (rest : List (Cell Unit ℕ)) (r : Resolver) (tb : Tables)
      (r' : Resolver) : T.pc = .send → T.tables.sendList = c :: rest →
      T.tables.deref c.val = some r → (T.server r).host.isValid = false →
      (T.serverChosen r).tables.removeResolver r.hnr = some (tb, some r') →
      LocalMove t now e T ((T.serverChosen r).completing tb r' .error (Ip.ofV4 0) .send) []
  | sampledWrap : T.pc = .sample → isFirstHalf (ticks now) = true → T.lastTicksInFirstHalf = false →
      LocalMove t now e T { T with curTime := now, pc := .wrap } []
  | sampled : T.pc = .sample →
      ¬ (isFirstHalf (ticks now) = true ∧ T.lastTicksInFirstHalf = false) →
      LocalMove t now e T
        { T with curTime := now, lastTicksInFirstHalf := isFirstHalf (ticks now), lastTicks := now,
                 pc := .expire } []
  | swapped : T.pc = .wrap → T.tables.timeMap T.tables.timeMap1 = [] →
      LocalMove t now e T
        { T with tables := T.tables.swapTimeMaps
                 lastTicksInFirstHalf := isFirstHalf (ticks T.curTime)
                 lastTicks := T.curTime, pc := .expire } []
  | wrapTimeout (c : Cell UInt32 ℕ) (rest : List (Cell UInt32 ℕ)) (r : Resolver) (tb : Tables)
      (r' : Resolver) : T.pc = .wrap → T.tables.timeMap T.tables.timeMap1 = c :: rest →
      T.tables.deref c.val = some r → T.tables.removeResolver r.hnr = some (tb, some r') →
      LocalMove t now e T (T.completing tb r' .timeout (Ip.ofV4 0) .wrap) []
  | expireTimeout (c : Cell UInt32 ℕ) (rest : List (Cell UInt32 ℕ)) (r : Resolver) (tb : Tables)
      (r' : Resolver) : T.pc = .expire → T.tables.timeMap T.tables.timeMap1 = c :: rest →
      ¬ c.key > ticks T.curTime →
      T.tables.deref c.val = some r → T.tables.removeResolver r.hnr = some (tb, some r') →
      LocalMove t now e T (T.completing tb r' .timeout (Ip.ofV4 0) .expire) []
  | noRequests : T.pc = .expire → T.expired = none → T.tables.resolversMap = [] →
      LocalMove t now e T { T with isExiting := true, mutex := none, pc := .leave } []
  | startWait (timeout : UInt32) : T.pc = .expire → T.expired = none →
      T.tables.resolversMap ≠ [] → waitTimeout T.tables T.curTime = some timeout →
      LocalMove t now e T { T with mutex := none, pc := .wait timeout } []
  | drained : T.pc = .drain .loopExit → T.tables.resolversMap = [] →
      LocalMove t now e T { T with mutex := none, pc := .leave } []
  | drainedOpen : T.pc = .drain .openFailed → T.tables.resolversMap = [] →
      LocalMove t now e T { T with pc := .finished } []
  | drainNext (d : Drain) (x : ℕ) (r : Resolver) (rest : List (ℕ × Resolver)) (tb : Tables)
      (r' : Resolver) : T.pc = .drain d → T.tables.resolversMap = (x, r) :: rest →
      T.tables.removeResolver x = some (tb, some r') →
      LocalMove t now e T (T.completing tb r' .error ⟨0, 0, 0, 0⟩ (.drain d)) []
  | cbLock (c : Callback) : T.pc = .cbLock c → T.completedMutex = none →
      LocalMove t now e T
        { T with completedMutex := some (.lookup t), mutex := none, pc := .cbEnter c }
        (if T.mutex = some (.lookup t) then [] else [.badUnlock])
  | cbEnter (c : Callback) : T.pc = .cbEnter c →
      LocalMove t now e T { T with pc := .cbRun c }
        [.entered c.resolver.addr c.resolver.hnr c.result now]
  | cbReturn (c : Callback) : T.pc = .cbRun c →
      LocalMove t now e T { T with completedMutex := none, pc := .cbRelock c.site } []
  | cbRelock (s : Site) : T.pc = .cbRelock s → T.mutex = none →
      LocalMove t now e T { T with mutex := some (.lookup t), pc := s.resume } []
  | wakeTimeout (timeout : UInt32) : T.pc = .wait timeout → T.queue = [] →
      LocalMove t now e T { T with pc := .loopHead } []
  | wakeReady (timeout : UInt32) (f : Ready) : T.pc = .wait timeout →
      LocalMove t now e T { T with flags := f, pc := if T.queue = [] then .loopHead else .popQueue }
        []
  | left : T.pc = .leave → LocalMove t now e T { T with waitMode := none, pc := .finished } []

/-! ## the sub-steps -/

variable {t now : ℕ} {e : Env} {T T' : LookupThread} {es : List Event}

theorem fallback_eq_some {r : Resolver} {changeOk : Bool} (h : T.fallback r changeOk = some T') :
    T' = { T.requeued r with
           waitMode := if (T.tables.requeue r.addr).sendList.length = 1 then some .readWrite
             else T.waitMode
           pc := .checkWrite } ∨
    changeOk = false ∧
    ∃ tb r', (T.tables.requeue r.addr).removeResolver r.hnr = some (tb, some r') ∧
      T' = (T.requeued r).completing tb r' .error ⟨0, 0, 0, 0⟩ .receive := by
  unfold fallback at h
  split at h
  case isFalse hl =>
    have hl' : ¬ (T.tables.requeue r.addr).sendList.length = 1 := hl
    rw [if_neg hl']
    exact .inl (Option.some.inj h).symm
  case isTrue hl =>
    have hl' : (T.tables.requeue r.addr).sendList.length = 1 := hl
    rw [if_pos hl']
    split at h
    · exact .inl (Option.some.inj h).symm
    · rename_i hc
      exact .inr ⟨by simpa using hc, complete_eq_some h⟩

theorem receiveStep_move (hpc : T.pc = .receive) (h : T.receiveStep e = some (T', es)) :
    LocalMove t now e T T' es := by
  unfold receiveStep at h
  split at h
  case isFalse hr =>
    cases h
    exact .notReadable hpc (by simpa using hr)
  case isTrue hr =>
    split at h
    · cases h
      exact .receiveError hpc
    · cases h
      exact .receiveNothing hpc
    · rename_i d hd
      obtain ⟨a, ha, h⟩ := Option.bind_eq_some_iff.mp h
      cases a with
      | ignore =>
        cases h
        exact .ignored d hpc hr hd ha
      | requeue r =>
        obtain ⟨T2, h2, h⟩ := Option.bind_eq_some_iff.mp h
        cases h
        rcases fallback_eq_some h2 with rfl | ⟨hc, tb, r', hr', rfl⟩
        · exact .requeued d r _ hpc hr hd ha rfl
        · exact .requeueFailed d r tb r' hpc hr hd hc ha hr'
      | complete r res =>
        obtain ⟨T2, h2, h⟩ := Option.bind_eq_some_iff.mp h
        cases h
        obtain ⟨tb, r', hr', rfl⟩ := complete_eq_some h2
        exact .replied d r res tb r' hpc hr hd ha hr'

theorem sendStep_move (hpc : T.pc = .send) (h : T.sendStep e = some (T', es)) :
    LocalMove t now e T T' es := by
  unfold sendStep at h
  split at h
  case h_1 hl =>
    cases h
    exact .allSent hpc hl
  case h_2 c rest hl =>
    obtain ⟨r, hr, h⟩ := Option.bind_eq_some_iff.mp h
    split at h
    case isTrue hv =>
      split at h
      · cases h
        exact .sent c rest r hpc hl hr hv
      · cases h
        exact .sendNotReady c rest r hpc hl hr hv
      · cases h
        exact .sendError c rest r hpc hl hr hv
    case isFalse hv =>
      obtain ⟨T2, h2, h⟩ := Option.bind_eq_some_iff.mp h
      cases h
      obtain ⟨tb, r', hr', rfl⟩ := complete_eq_some h2
      exact .noServer c rest r tb r' hpc hl hr (by simpa using hv) hr'

theorem sampleStep_move (hpc : T.pc = .sample) : LocalMove t now e T (T.sampleStep now) [] := by
  unfold sampleStep
  split
  · rename_i h
    rw [Bool.and_eq_true, Bool.not_eq_true'] at h
    exact .sampledWrap hpc h.1 h.2
  · rename_i h
    rw [Bool.and_eq_true, Bool.not_eq_true'] at h
    exact .sampled hpc h

theorem wrapStep_move (hpc : T.pc = .wrap) (h : T.wrapStep = some T') :
    LocalMove t now e T T' [] := by
  unfold wrapStep at h
  split at h
  case h_1 hl =>
    cases h
    exact .swapped hpc hl
  case h_2 c rest hl =>
    obtain ⟨r, hr, h⟩ := Option.bind_eq_some_iff.mp h
    obtain ⟨tb, r', hr', rfl⟩ := complete_eq_some h
    exact .wrapTimeout c rest r tb r' hpc hl hr hr'

theorem expired_eq_some {c : Cell UInt32 ℕ} (h : T.expired = some c) :
    ∃ rest, T.tables.timeMap T.tables.timeMap1 = c :: rest ∧ ¬ c.key > ticks T.curTime := by
  unfold expired at h
  split at h
  · cases h
  · rename_i d rest hl
    split at h
    · cases h
    · rename_i hk
      cases h
      exact ⟨rest, hl, hk⟩

theorem expireStep_move (hpc : T.pc = .expire) (h : T.expireStep = some T') :
    LocalMove t now e T T' [] := by
  unfold expireStep at h
  split at h
  case h_1 hx =>
    unfold afterExpire at h
    split at h
    · rename_i hm
      cases h
      exact .noRequests hpc hx hm
    · rename_i hm
      obtain ⟨w, hw, h⟩ := Option.bind_eq_some_iff.mp h
      cases h
      exact .startWait w hpc hx hm hw
  case h_2 c hx =>
    obtain ⟨rest, hl, hk⟩ := expired_eq_some hx
    obtain ⟨r, hr, h⟩ := Option.bind_eq_some_iff.mp h
    obtain ⟨tb, r', hr', rfl⟩ := complete_eq_some h
    exact .expireTimeout c rest r tb r' hpc hl hk hr hr'

theorem drainStep_move {d : Drain} (hpc : T.pc = .drain d) (h : T.drainStep d = some T') :
    LocalMove t now e T T' [] := by
  unfold drainStep at h
  split at h
  case h_1 hm =>
    cases d with
    | loopExit =>
      cases h
      exact .drained hpc hm
    | openFailed =>
      cases h
      exact .drainedOpen hpc hm
  case h_2 x rest hm =>
    obtain ⟨tb, r', hr', rfl⟩ := complete_eq_some h
    exact .drainNext d x.1 x.2 rest tb r' hpc hm hr'

theorem wakeStep_move {timeout : UInt32} (hpc : T.pc = .wait timeout)
    (h : T.wakeStep e.wake = some T') : LocalMove t now e T T' [] := by
  unfold wakeStep at h
  split at h
  · split at h
    · rename_i hq
      cases h
      exact .wakeTimeout timeout hpc hq
    · cases h
  · split at h
    · cases h
      exact .wakeReady timeout _ hpc
    · cases h

/-- **`localStep` does nothing but the moves.** -/
theorem localMove (h : T.localStep t now e = some (T', es)) : LocalMove t now e T T' es := by
  unfold localStep at h
  cases hpc : T.pc with
  | initDNS =>
    rw [hpc] at h
    cases h
    exact .initDNS hpc
  | loopHead =>
    rw [hpc] at h
    cases h
    split
    · rename_i hq
      exact .quit hpc hq
    · rename_i hq
      exact .nextRound hpc (by simpa using hq)
  | lockMutex =>
    rw [hpc] at h
    dsimp only at h
    split at h
    · rename_i hm
      cases h
      exact .lock hpc hm
    · cases h
  | checkError =>
    rw [hpc] at h
    dsimp only at h
    split at h
    · cases h
      exact .socketError hpc
    · cases h
      exact .noError hpc
  | receive =>
    rw [hpc] at h
    exact receiveStep_move hpc h
  | checkWrite =>
    rw [hpc] at h
    dsimp only at h
    split at h
    · rename_i hf
      cases h
      exact .writable hpc hf
    · rename_i hf
      cases h
      exact .notWritable hpc (by simpa using hf)
  | send =>
    rw [hpc] at h
    exact sendStep_move hpc h
  | sample =>
    rw [hpc] at h
    cases h
    exact sampleStep_move hpc
  | wrap =>
    rw [hpc] at h
    obtain ⟨T2, h2, h⟩ := Option.bind_eq_some_iff.mp h
    cases h
    exact wrapStep_move hpc h2
  | expire =>
    rw [hpc] at h
    obtain ⟨T2, h2, h⟩ := Option.bind_eq_some_iff.mp h
    cases h
    exact expireStep_move hpc h2
  | drain d =>
    rw [hpc] at h
    obtain ⟨T2, h2, h⟩ := Option.bind_eq_some_iff.mp h
    cases h
    exact drainStep_move hpc h2
  | cbLock c =>
    rw [hpc] at h
    dsimp only at h
    split at h
    · rename_i hm
      cases h
      exact .cbLock c hpc hm
    · cases h
  | cbEnter c =>
    rw [hpc] at h
    cases h
    exact .cbEnter c hpc
  | cbRun c =>
    rw [hpc] at h
    cases h
    exact .cbReturn c hpc
  | cbRelock s =>
    rw [hpc] at h
    dsimp only at h
    split at h
    · rename_i hm
      cases h
      exact .cbRelock s hpc hm
    · cases h
  | wait timeout =>
    rw [hpc] at h
    obtain ⟨T2, h2, h⟩ := Option.bind_eq_some_iff.mp h
    cases h
    exact wakeStep_move hpc h2
  | leave =>
    rw [hpc] at h
    cases h
    exact .left hpc
  | notStarted | joinPrev | openSocket | popQueue | finished | destroyed =>
    rw [hpc] at h
    cases h

theorem LocalMove.of_drainedOpen (hpc : T.pc = .drain .openFailed) (hm : T.tables.resolversMap = [])
    (h : LocalMove t now e T T' es) : T' = { T with pc := .finished } ∧ es = [] := by
  cases h
  case drainedOpen => exact ⟨rfl, rfl⟩
  case drainNext hr _ =>
    rw [hm] at hr
    cases hr
  all_goals
    rename_i h1
    simp_all

end LookupThread

/-! ## the tables -/

namespace Tables

/-- One change of the tables by `run()`; `C` is a condition on the requests that are moved from the
AAAA to the A record. -/
inductive Op (C : Resolver → Prop) (tb : Tables) : Tables → Prop
  | removed (x : ℕ) (r : Resolver) (tb' : Tables) : tb.removeResolver x = some (tb', some r) →
      Op C tb tb'
  | requeued (r : Resolver) : tb.deref r.addr = some r → C r → Op C tb (tb.requeue r.addr)
  | dnsSet (p : ℕ) (a : Address) : Op C tb (tb.setDns p a)
  | sent (c : Cell Unit ℕ) (rest : List (Cell Unit ℕ)) : tb.sendList = c :: rest →
      Op C tb (tb.markSent c.val)
  | swapped : tb.timeMap tb.timeMap1 = [] → Op C tb tb.swapTimeMaps

/-- the changes of the tables by one step of `run()` -/
abbrev Ops (C : Resolver → Prop) : Tables → Tables → Prop := Relation.ReflTransGen (Op C)

theorem addr_of_deref {tb : Tables} {p : ℕ} {r : Resolver} (h : tb.deref p = some r) :
    r.addr = p := by
  unfold deref at h
  obtain ⟨e, he, rfl⟩ := Option.map_eq_some_iff.mp h
  simpa using List.find?_some he

theorem deref_of_recvAction {tb : Tables} {buf : Bytes} {size : ℕ} {r : Resolver}
    (h : recvAction tb buf size = some (.requeue r)) : tb.deref r.addr = some r := by
  rcases recvAction_eq_some h with h | ⟨id, p, r', q, res, _, _, _, hr, _, _, ha⟩
  · cases h
  · split at ha
    · cases ha
      rw [addr_of_deref hr]
      exact hr
    · cases ha

theorem deref_of_complete {tb : Tables} {buf : Bytes} {size : ℕ} {r : Resolver} {res : ParseResult}
    (h : recvAction tb buf size = some (.complete r res)) : tb.deref r.addr = some r := by
  rcases recvAction_eq_some h with h | ⟨_, p, r', _, _, _, _, _, hr, _, _, ha⟩
  · cases h
  · split at ha
    · cases ha
    · cases ha
      rw [addr_of_deref hr]
      exact hr

end Tables

/-- **The changes of the tables by one step of `run()`.** -/
theorem LookupThread.LocalMove.tables {t now : ℕ} {e : Env} {T T' : LookupThread}
    {es : List Event} {C : Resolver → Prop} (h : LocalMove t now e T T' es)
    (hC : ∀ d r, T.pc = .receive → T.flags.read = true → e.recv = .datagram d →
      recvAction T.tables d.buf d.size = some (.requeue r) → C r) :
    Tables.Ops C T.tables T'.tables := by
  cases h with
  | requeued d r mode hpc hf hd ha =>
    exact .single (.requeued r (Tables.deref_of_recvAction ha) (hC d r hpc hf hd ha))
  | requeueFailed d r tb r' hpc hf hd _ ha hr =>
    have hq := Tables.Op.requeued r (Tables.deref_of_recvAction ha) (hC d r hpc hf hd ha)
    exact (Relation.ReflTransGen.single hq).tail (.removed r.hnr r' tb hr)
  | replied d r res tb r' _ _ _ _ hr => exact .single (.removed r.hnr r' tb hr)
  | sent c rest r _ hl hr =>
    have hs : Tables.Op C (T.serverChosen r).tables _ := .sent c rest hl
    rw [← Tables.addr_of_deref hr] at hs
    exact (Relation.ReflTransGen.single (.dnsSet r.addr (T.server r))).tail hs
  | sendNotReady c rest r => exact .single (.dnsSet r.addr (T.server r))
  | sendError c rest r => exact .single (.dnsSet r.addr (T.server r))
  | noServer c rest r tb r' _ _ _ _ hr =>
    exact (Relation.ReflTransGen.single (.dnsSet r.addr (T.server r))).tail
      (.removed r.hnr r' tb hr)
  | swapped _ hm => exact .single (.swapped hm)
  | wrapTimeout c rest r tb r' _ _ _ hr => exact .single (.removed r.hnr r' tb hr)
  | expireTimeout c rest r tb r' _ _ _ _ hr => exact .single (.removed r.hnr r' tb hr)
  | drainNext d x r rest tb r' _ _ hr => exact .single (.removed x r' tb hr)
  | _ => exact .refl

end Setka
