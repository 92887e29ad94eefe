import Mathlib.Logic.Function.Basic
import Setka.Dns.Receive
import Setka.Net.NonBlocking

/-!
# The lookup thread

`LookupThread` is the state of one lookup thread object, with the program counter of its `run()`.
`localStep` is one step of `run()` that touches this thread only; the steps that touch
`dns::mutex`, `dns::thread` or another thread are in `Setka.Dns.System`.

A step is a maximal piece of code that no other thread can look into: everything done under
`this->mutex` without a callback or a blocking call in between.  `CallCallback` is four steps, as
it takes `completedMutex`, leaves `this->mutex`, runs user code, and takes `this->mutex` again.

`Event` is a log of what happened, kept for the statements only.  A failed `ASSERT` is an event,
and the code goes on as the release build does.
-/

namespace Setka

/-! ## ticks -/

/-- `utki::get_ticks_ms()` at the time `now` of the unwrapped millisecond clock -/
def ticks (now : ℕ) : UInt32 := UInt32.ofNat now

/-- `curTime < (uint32_t(-1) / 2)` -/
def isFirstHalf (curTime : UInt32) : Bool := curTime < 0x7fffffff

/-! ## the state of a lookup thread -/

/-- a thread of the program: a client thread or a lookup thread -/
inductive Actor where
  | client (n : ℕ)
  | lookup (t : ℕ)
deriving DecidableEq, Repr

def Actor.isClient : Actor → Bool
  | .client _ => true
  | .lookup _ => false

/-- the two places that call `RemoveAllResolvers`: the failed `socket.open()`, and the exits of the
main loop -/
inductive Drain where
  | openFailed
  | loopExit
deriving DecidableEq, Repr

/-- the places that call `CallCallback` -/
inductive Site where
  | receive
  | send
  | wrap
  | expire
  | drain (d : Drain)
deriving DecidableEq, Repr

/-- a `CallCallback` in progress: the removed request, the arguments of `on_completed()`, the caller
-/
structure Callback where
  resolver : Resolver
  result : DnsResult
  ip : Ip
  site : Site
deriving DecidableEq, Repr

/-- the program counter of `run()` -/
inductive Pc where
  | notStarted
  | joinPrev
  | initDNS
  | openSocket
  | loopHead
  | lockMutex
  | checkError
  | receive
  | checkWrite
  | send
  | sample
  | wrap
  | expire
  | drain (d : Drain)
  | cbLock (c : Callback)
  | cbEnter (c : Callback)
  | cbRun (c : Callback)
  | cbRelock (s : Site)
  | wait (timeout : UInt32)
  | popQueue
  | leave
  | finished
  | destroyed
deriving DecidableEq, Repr

/-- where the code goes on after a callback -/
def Site.resume : Site → Pc
  | .receive => .checkWrite
  | .send => .send
  | .wrap => .wrap
  | .expire => .expire
  | .drain d => .drain d

/-- what the socket is waited for while it is in the wait set -/
inductive WaitMode where
  | read
  | readWrite
deriving DecidableEq, Repr

/-- a message of the thread's queue -/
inductive Msg where
  | startSending
  | nop
deriving DecidableEq, Repr

structure LookupThread where
  tables : Tables := {}
  pc : Pc := .notStarted
  quitFlag : Bool := false
  queue : List Msg := []
  mutex : Option Actor := none
  completedMutex : Option Actor := none
  prevThread : Option ℕ := none
  isExiting : Bool := true
  lastTicksInFirstHalf : Bool := true
  /-- the unwrapped time of the clock sample `lastTicksInFirstHalf` describes -/
  lastTicks : ℕ := 0
  dns : Address := Address.unset
  flags : Ready := {}
  waitMode : Option WaitMode := none
  /-- the unwrapped time of the sample `curTime` of the current iteration -/
  curTime : ℕ := 0
deriving DecidableEq

/-! ## what the environment decides -/

inductive Recv where
  | datagram (d : Datagram)
  | nothing
  | error

inductive SendResult where
  | sent
  | notReady
  | error
deriving DecidableEq, Repr

inductive Wake where
  | timeout
  | ready (read write error : Bool)
deriving DecidableEq, Repr

/-- the outcomes of the calls a step of `run()` makes to the operating system and to opros -/
structure Env where
  openOk : Bool := true
  systemDns : Address := Address.unset
  recv : Recv := .nothing
  changeOk : Bool := true
  send : SendResult := .sent
  wake : Wake := .timeout

/-! ## the log -/

inductive Event where
  /-- `resolve()` returns normally: request number, arguments, time, called from a callback of the
  same object -/
  | registered (k : ℕ) (q : Query) (now : ℕ) (nested : Bool)
  | sent (k : ℕ) (type : UInt16) (dest : Address)
  | requeued (k : ℕ) (d : Datagram)
  | replied (k : ℕ) (d : Datagram) (result : DnsResult)
  | entered (k x : ℕ) (result : DnsResult) (now : ℕ)
  | cancelled (k : ℕ)
  /-- `cancel()` on `x` returns; `calls` requests were registered before -/
  | cancelReturned (x calls : ℕ)
  | assertFailed
  | badUnlock
deriving DecidableEq

/-- the event of an `ASSERT` -/
def assert (b : Bool) : List Event := if b then [] else [.assertFailed]

/-! ## the steps -/

namespace LookupThread

/-- `RemoveResolver` of the request of `x`, then `CallCallback` with its result -/
def complete (T : LookupThread) (x : ℕ) (result : DnsResult) (ip : Ip) (site : Site) :
    Option LookupThread := do
  let (tb, r) ← T.tables.removeResolver x
  let r ← r
  some { T with tables := tb, pc := .cbLock ⟨r, result, ip, site⟩ }

/-- `StartSending`: `waitSet.change(socket, {read, write})` -/
def startSending (T : LookupThread) : LookupThread := { T with waitMode := some .readWrite }

def requeued (T : LookupThread) (r : Resolver) : LookupThread :=
  { T with tables := T.tables.requeue r.addr }

/-- the fallback to the A record; `changeOk = false` is an exception of `waitSet.change()` -/
def fallback (T : LookupThread) (r : Resolver) (changeOk : Bool) : Option LookupThread :=
  if (T.requeued r).tables.sendList.length = 1 then
    if changeOk then some { (T.requeued r).startSending with pc := .checkWrite }
    else (T.requeued r).complete r.hnr .error ⟨0, 0, 0, 0⟩ .receive
  else some { T.requeued r with pc := .checkWrite }

/-- `readiness_flags.clear(read)`, at the head of `recieve()` -/
def readCleared (T : LookupThread) : LookupThread :=
  { T with flags := { T.flags with read := false } }

/-- `readiness_flags.clear(write)`, at the head of `send()` -/
def writeCleared (T : LookupThread) : LookupThread :=
  { T with flags := { T.flags with write := false } }

/-- the receive part of the loop body -/
def receiveStep (T : LookupThread) (e : Env) : Option (LookupThread × List Event) :=
  if T.flags.read then
    match e.recv with
    | .error => some ({ T.readCleared with isExiting := true, pc := .drain .loopExit }, [])
    | .nothing => some ({ T.readCleared with pc := .checkWrite }, assert false)
    | .datagram d => do
      match ← recvAction T.tables d.buf d.size with
      | .ignore => some ({ T.readCleared with pc := .checkWrite }, assert (d.size ≠ 0))
      | .requeue r => do
        let T' ← T.readCleared.fallback r e.changeOk
        some (T', .requeued r.addr d :: assert (r.sendIter = none))
      | .complete r res => do
        let T' ← T.readCleared.complete r.hnr res.result res.host .receive
        some (T', [.replied r.addr d res.result])
  else some ({ T with pc := .checkWrite }, [])

/-- the server a query is sent to: `r->dns`, or the system server if its last quad is zero -/
def server (T : LookupThread) (r : Resolver) : Address :=
  if r.dns.host.getV4 = 0 then T.dns else r.dns

def serverChosen (T : LookupThread) (r : Resolver) : LookupThread :=
  { T with tables := T.tables.setDns r.addr (T.server r) }

/-- one round of the send loop -/
def sendStep (T : LookupThread) (e : Env) : Option (LookupThread × List Event) :=
  match T.tables.sendList with
  | [] => some ({ T with waitMode := some .read, pc := .sample }, [])
  | c :: _ => do
    let r ← T.tables.deref c.val
    if (T.server r).host.isValid then
      let T' := (T.serverChosen r).writeCleared
      match e.send with
      | .sent => some ({ T' with tables := T'.tables.markSent r.addr },
          [.sent r.addr r.recordType (T.server r)])
      | .notReady => some ({ T' with pc := .sample }, [])
      | .error => some ({ T' with isExiting := true, pc := .drain .loopExit }, [])
    else do
      let T' ← (T.serverChosen r).complete r.hnr .error (Ip.ofV4 0) .send
      some (T', [])

/-- the clock sample and the test for a tick wrap -/
def sampleStep (T : LookupThread) (now : ℕ) : LookupThread :=
  if isFirstHalf (ticks now) && !T.lastTicksInFirstHalf then { T with curTime := now, pc := .wrap }
  else { T with curTime := now, lastTicksInFirstHalf := isFirstHalf (ticks now), lastTicks := now,
                pc := .expire }

/-- one round of the loop that times out all requests of `timeMap1`, and the swap after it -/
def wrapStep (T : LookupThread) : Option LookupThread :=
  match T.tables.timeMap T.tables.timeMap1 with
  | [] => some { T with
      tables := T.tables.swapTimeMaps, lastTicksInFirstHalf := isFirstHalf (ticks T.curTime),
      lastTicks := T.curTime, pc := .expire }
  | c :: _ => do
    let r ← T.tables.deref c.val
    T.complete r.hnr .timeout (Ip.ofV4 0) .wrap

/-- `timeMap1->begin()->first - curTime`, clamped; `none` if `timeMap1` is empty -/
def waitTimeout (tb : Tables) (curTime : ℕ) : Option UInt32 :=
  match tb.timeMap tb.timeMap1 with
  | [] => none
  | c :: _ => some (min (c.key - ticks curTime) 0x3fffffff)

/-- after the expiry loop: leave the main loop, or compute the wait timeout -/
def afterExpire (T : LookupThread) : Option LookupThread :=
  if T.tables.resolversMap = [] then
    some { T with isExiting := true, mutex := none, pc := .leave }
  else do
    let timeout ← waitTimeout T.tables T.curTime
    some { T with mutex := none, pc := .wait timeout }

/-- the first request of `timeMap1`, if its deadline has come -/
def expired (T : LookupThread) : Option (Cell UInt32 ℕ) :=
  match T.tables.timeMap T.tables.timeMap1 with
  | [] => none
  | c :: _ => if c.key > ticks T.curTime then none else some c

/-- one round of the expiry loop, and what follows it -/
def expireStep (T : LookupThread) : Option LookupThread :=
  match T.expired with
  | none => T.afterExpire
  | some c => do
    let r ← T.tables.deref c.val
    T.complete r.hnr .timeout (Ip.ofV4 0) .expire

/-- one round of `RemoveAllResolvers`, called from the main loop or after a failed `open()` -/
def drainStep (T : LookupThread) (d : Drain) : Option LookupThread :=
  match T.tables.resolversMap with
  | [] => match d with
    | .loopExit => some { T with mutex := none, pc := .leave }
    | .openFailed => some { T with pc := .finished }
  | e :: _ => T.complete e.1 .error ⟨0, 0, 0, 0⟩ (.drain d)

/-- `waitSet.wait(timeout)` returns -/
def wakeStep (T : LookupThread) (w : Wake) : Option LookupThread :=
  match w with
  | .timeout => if T.queue = [] then some { T with pc := .loopHead } else none
  | .ready rd wr er =>
    if (rd || wr || er || !T.queue.isEmpty) && (!wr || T.waitMode == some .readWrite) then
      some { T with
        flags := ⟨T.flags.read || rd, T.flags.write || wr, T.flags.error || er⟩
        pc := if T.queue = [] then .loopHead else .popQueue }
    else none

/-- one step of `run()` of the thread `t` that touches this thread only -/
def localStep (t now : ℕ) (e : Env) (T : LookupThread) : Option (LookupThread × List Event) :=
  match T.pc with
  | .initDNS => some ({ T with dns := e.systemDns, pc := .openSocket }, [])
  | .loopHead => some ({ T with pc := if T.quitFlag then .leave else .lockMutex }, [])
  | .lockMutex =>
    if T.mutex = none then some ({ T with mutex := some (.lookup t), pc := .checkError }, [])
    else none
  | .checkError =>
    if T.flags.error then some ({ T with isExiting := true, pc := .drain .loopExit }, [])
    else some ({ T with pc := .receive }, [])
  | .receive => T.receiveStep e
  | .checkWrite =>
    if T.flags.write then some ({ T with pc := .send }, assert (!T.tables.sendList.isEmpty))
    else some ({ T with pc := .sample }, [])
  | .send => T.sendStep e
  | .sample => some (T.sampleStep now, [])
  | .wrap => do some (← T.wrapStep, [])
  | .expire => do some (← T.expireStep, [])
  | .drain d => do some (← T.drainStep d, [])
  | .cbLock c =>
    if T.completedMutex = none then
      some ({ T with completedMutex := some (.lookup t), mutex := none, pc := .cbEnter c },
        if T.mutex = some (.lookup t) then [] else [.badUnlock])
    else none
  | .cbEnter c =>
    some ({ T with pc := .cbRun c }, [.entered c.resolver.addr c.resolver.hnr c.result now])
  | .cbRun c => some ({ T with completedMutex := none, pc := .cbRelock c.site }, [])
  | .cbRelock s =>
    if T.mutex = none then some ({ T with mutex := some (.lookup t), pc := s.resume }, []) else none
  | .wait _ => do some (← T.wakeStep e.wake, [])
  | .leave => some ({ T with waitMode := none, pc := .finished }, [])
  | _ => none

end LookupThread

end Setka
