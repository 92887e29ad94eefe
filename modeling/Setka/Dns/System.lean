import Setka.Lib.Machine
import Setka.Dns.Thread

/-!
# The resolver as a system of threads

Any number of client threads call `resolve()`, `cancel()` and `clean_up()`; lookup threads run
`LookupThread::run()`, and their callbacks may call `resolve()`.  `dns::mutex`, `dns::thread` and
the lookup thread objects are shared.  One step of the system is

* `tick ms`       time passes;
* `call a c`      the thread `a` calls a function of the API;
* `api a`         the call of `a` takes its next step;
* `run t e`       `run()` of the lookup thread `t` takes its next step, with the outcomes `e` of
                  the calls it makes to the operating system.

`step` gives `none` for a step that is not possible now (it waits for a mutex, say) and for
undefined behaviour.
-/

namespace Setka

/-- a function of the API with its arguments -/
inductive ApiCall where
  | resolve (q : Query)
  | cancel (x : ℕ)
  | cleanUp
deriving DecidableEq, Repr

/-- Where a thread is in its API call.  `resolveLock`, `cancelLock` and `cleanUpLock` wait for
`dns::mutex`; the others hold it, and wait for the mutex of the lookup thread `t`, for its
`completedMutex`, or for its end. -/
inductive Call where
  | idle
  | resolveLock (q : Query)
  | resolveCheck (q : Query) (t : ℕ)
  | resolveRegister (q : Query) (t : ℕ) (needStart : Bool)
  | cancelLock (x : ℕ)
  | cancelRemove (x t : ℕ)
  | cancelWait (x t : ℕ)
  | cleanUpLock
  | cleanUpJoin (t : ℕ)
deriving DecidableEq, Repr

structure Sys where
  /-- the unwrapped millisecond clock -/
  now : ℕ
  /-- `dns::mutex` -/
  dnsMutex : Option Actor
  /-- `dns::thread` -/
  thread : Option ℕ
  threads : ℕ → LookupThread
  /-- the identity of the next lookup thread object -/
  nextThread : ℕ
  calls : Actor → Call
  /-- the number of requests registered so far, and the address of the next one -/
  nextCall : ℕ
  /-- what happened, the newest event first -/
  log : List Event

namespace Sys

/-- nothing has been called yet; the clock may have any value -/
def init (now : ℕ) : Sys where
  now := now
  dnsMutex := none
  thread := none
  threads := fun _ => {}
  nextThread := 0
  calls := fun _ => .idle
  nextCall := 0
  log := []

abbrev setThread (s : Sys) (t : ℕ) (T : LookupThread) : Sys :=
  { s with threads := Function.update s.threads t T }

abbrev setCall (s : Sys) (a : Actor) (c : Call) : Sys :=
  { s with calls := Function.update s.calls a c }

abbrev addLog (s : Sys) (es : List Event) : Sys := { s with log := es ++ s.log }

/-- leave `dns::mutex` and return from the API call -/
abbrev returnFrom (s : Sys) (a : Actor) : Sys := { s.setCall a .idle with dnsMutex := none }

/-- `std::make_unique<dns::LookupThread>()`, which becomes `dns::thread` -/
abbrev newThread (s : Sys) (prev : Option ℕ) : Sys :=
  { s.setThread s.nextThread { prevThread := prev } with
    thread := some s.nextThread
    nextThread := s.nextThread + 1 }

/-- `~LookupThread()` -/
abbrev destroy (s : Sys) (t : ℕ) : Sys :=
  let tb := (s.threads t).tables
  (s.setThread t { pc := .destroyed }).addLog
    (assert (tb.sendList.isEmpty && tb.resolversMap.isEmpty && tb.resolversByTime1.isEmpty &&
      tb.resolversByTime2.isEmpty && tb.idMap.isEmpty))

/-! ## the steps of the API -/

/-- The object whose callback the lookup thread `a` is running. -/
def runsCallbackOf (s : Sys) : Actor → Option ℕ
  | .client _ => none
  | .lookup t => match (s.threads t).pc with
    | .cbRun c => some c.resolver.hnr
    | _ => none

/-- A thread starts an API call.  Lookup threads do so only in a callback, and call `resolve()`
only. -/
def beginCall (a : Actor) (c : ApiCall) (s : Sys) : Option Sys :=
  if s.calls a = .idle then
    match c with
    | .resolve q =>
      if a.isClient || (s.runsCallbackOf a).isSome then
        if 253 < q.hostName.length then some s
        else some (s.setCall a (.resolveLock q))
      else none
    | .cancel x => if a.isClient then some (s.setCall a (.cancelLock x)) else none
    | .cleanUp => if a.isClient then some (s.setCall a .cleanUpLock) else none
  else none

/-- `resolve()` holds `dns::mutex`: create the thread, or go on to check the one there is -/
def resolveLockStep (a : Actor) (q : Query) (s : Sys) : Option Sys :=
  if s.dnsMutex = none then
    let s := { s with dnsMutex := some a }
    match s.thread with
    | none => some (s.newThread none |>.setCall a (.resolveRegister q s.nextThread true))
    | some t => some (s.setCall a (.resolveCheck q t))
  else none

/-- the check under the first guard of the thread's mutex -/
def resolveCheckStep (a : Actor) (q : Query) (t : ℕ) (s : Sys) : Option Sys :=
  let T := s.threads t
  if T.mutex = none then
    if (T.tables.find q.hnr).isSome then some (s.returnFrom a)
    else if T.isExiting then
      some (s.newThread (some t) |>.setCall a (.resolveRegister q s.nextThread true))
    else some (s.setCall a (.resolveRegister q t false))
  else none

/-- The lookup thread after the registration: request, `StartSending` message, start. -/
def registerIn (T : LookupThread) (now addr : ℕ) (q : Query) (id : UInt16) (needStart : Bool) :
    LookupThread :=
  let tb := T.tables.register addr q id (ticks now)
  let queue := if tb.sendList.length = 1 then T.queue ++ [.startSending] else T.queue
  let T := { T with tables := tb, queue := queue }
  if needStart then
    { T with lastTicksInFirstHalf := isFirstHalf (ticks now), lastTicks := now, pc := .joinPrev,
             isExiting := false }
  else T

/-- The registration under the second guard of the thread's mutex.  It throws only for want of an id
here; the other calls that may throw are in `Setka.Dns.Registration`. -/
def resolveRegisterStep (a : Actor) (q : Query) (t : ℕ) (needStart : Bool) (s : Sys) : Option Sys :=
  let T := s.threads t
  if T.mutex = none then
    match Tables.findFreeId T.tables.idMap with
    | none => some (s.returnFrom a)
    | some id =>
      let s' := (s.setThread t (registerIn T s.now s.nextCall q id needStart)).addLog
        [.registered s.nextCall q s.now (s.runsCallbackOf a == some q.hnr)]
      some ({ s' with nextCall := s.nextCall + 1 }.returnFrom a)
  else none

def cancelLockStep (a : Actor) (x : ℕ) (s : Sys) : Option Sys :=
  if s.dnsMutex = none then
    match s.thread with
    | none => some ((s.addLog [.cancelReturned x s.nextCall]).setCall a .idle)
    | some t => some ({ s with dnsMutex := some a }.setCall a (.cancelRemove x t))
  else none

/-- `RemoveResolver(this)`, and the quit flag if no request is left -/
def cancelIn (T : LookupThread) (x : ℕ) : Option (LookupThread × Option Resolver) := do
  let (tb, r) ← T.tables.removeResolver x
  let T := { T with tables := tb }
  if tb.resolversMap = [] then some ({ T with quitFlag := true, queue := T.queue ++ [Msg.nop] }, r)
  else some (T, r)

def cancelRemoveStep (a : Actor) (x t : ℕ) (s : Sys) : Option Sys :=
  if (s.threads t).mutex = none then do
    let (T, r) ← cancelIn (s.threads t) x
    match r with
    | some r => some (((s.setThread t T).addLog
        [.cancelReturned x s.nextCall, .cancelled r.addr]).returnFrom a)
    | none => some ((s.setThread t { T with mutex := some a }).setCall a (.cancelWait x t))
  else none

/-- `completedMutex` is locked and unlocked, all guards are left -/
def cancelWaitStep (a : Actor) (x t : ℕ) (s : Sys) : Option Sys :=
  if (s.threads t).completedMutex = none then
    some (((s.setThread t { s.threads t with mutex := none }).addLog
      [.cancelReturned x s.nextCall]).returnFrom a)
  else none

def cleanUpLockStep (a : Actor) (s : Sys) : Option Sys :=
  if s.dnsMutex = none then
    match s.thread with
    | none => some (s.setCall a .idle)
    | some t =>
      let T := s.threads t
      some ({ s.setThread t { T with quitFlag := true, queue := T.queue ++ [Msg.nop] } with
        dnsMutex := some a }.setCall a (.cleanUpJoin t))
  else none

/-- a thread that was never started can be joined at once -/
def joinable (T : LookupThread) : Bool := T.pc == .finished || T.pc == .notStarted

def cleanUpJoinStep (a : Actor) (t : ℕ) (s : Sys) : Option Sys :=
  if joinable (s.threads t) then
    let noRequests := assert (s.threads t).tables.resolversMap.isEmpty
    some ({ (s.addLog noRequests).destroy t with thread := none }.returnFrom a)
  else none

def apiStep (a : Actor) (s : Sys) : Option Sys :=
  match s.calls a with
  | .idle => none
  | .resolveLock q => resolveLockStep a q s
  | .resolveCheck q t => resolveCheckStep a q t s
  | .resolveRegister q t needStart => resolveRegisterStep a q t needStart s
  | .cancelLock x => cancelLockStep a x s
  | .cancelRemove x t => cancelRemoveStep a x t s
  | .cancelWait x t => cancelWaitStep a x t s
  | .cleanUpLock => cleanUpLockStep a s
  | .cleanUpJoin t => cleanUpJoinStep a t s

/-! ## the steps of `run()` -/

/-- join and destroy the previous thread -/
def joinPrevStep (t : ℕ) (s : Sys) : Option Sys :=
  let T := s.threads t
  match T.prevThread with
  | none => some (s.setThread t { T with pc := .initDNS })
  | some p =>
    if joinable (s.threads p) then
      some ((s.destroy p).setThread t { T with prevThread := none, pc := .initDNS })
    else none

/-- open the socket under `dns::mutex`; on failure `dns::mutex` is kept while all requests are
reported -/
def openSocketStep (t : ℕ) (openOk : Bool) (s : Sys) : Option Sys :=
  let T := s.threads t
  if s.dnsMutex = none then
    if openOk then some (s.setThread t { T with waitMode := some .read, pc := .loopHead })
    else some { s.setThread t { T with isExiting := true, pc := .drain .openFailed } with
      dnsMutex := some (.lookup t) }
  else none

/-- Pop one message of the queue and run it; `StartSending` is called on `dns::thread`. -/
def popQueueStep (t : ℕ) (s : Sys) : Option Sys :=
  let T := s.threads t
  match T.queue with
  | [] => some (s.setThread t { T with pc := .loopHead })
  | .nop :: rest => some (s.setThread t { T with queue := rest })
  | .startSending :: rest =>
    let s := s.setThread t { T with queue := rest }
    match s.thread with
    | none => none
    | some c =>
      if (s.threads c).waitMode = none then none
      else some (s.setThread c (s.threads c).startSending)

/-- a step that touches the thread `t` only -/
def ownStep (t : ℕ) (e : Env) (s : Sys) : Option Sys := do
  let (T, es) ← (s.threads t).localStep t s.now e
  some ((s.setThread t T).addLog es)

def runStep (t : ℕ) (e : Env) (s : Sys) : Option Sys :=
  match (s.threads t).pc with
  | .joinPrev => joinPrevStep t s
  | .openSocket => openSocketStep t e.openOk s
  | .popQueue => popQueueStep t s
  | .cbRun _ => if s.calls (.lookup t) = .idle then ownStep t e s else none
  | .drain .openFailed =>
    if (s.threads t).tables.resolversMap = [] then
      (ownStep t e s).map (fun s => { s with dnsMutex := none })
    else ownStep t e s
  | _ => ownStep t e s

end Sys

/-! ## the system -/

inductive Action where
  | tick (ms : ℕ)
  | call (a : Actor) (c : ApiCall)
  | api (a : Actor)
  | run (t : ℕ) (e : Env)

def Sys.step : Action → Sys → Option Sys
  | .tick ms, s => some { s with now := s.now + ms }
  | .call a c, s => s.beginCall a c
  | .api a, s => s.apiStep a
  | .run t e, s => s.runStep t e

def resolverSystem : Machine Sys Action where
  init s := ∃ now, s = Sys.init now
  step := Sys.step

/-- A list of actions that runs from the start to a state with the property `p`. -/
theorem exists_run_reach (G : Sys → Action → Prop) [∀ s a, Decidable (G s a)] (as : List Action)
    (p : Sys → Bool) (now : ℕ) (h : (resolverSystem.run G as (Sys.init now)).any p = true) :
    ∃ s, resolverSystem.Reach G s ∧ p s = true :=
  Machine.exists_reach G as p ⟨now, rfl⟩ h

theorem reach_init (G : Sys → Action → Prop) (now : ℕ) : resolverSystem.Reach G (Sys.init now) :=
  .init ⟨now, rfl⟩

/-- `clean_up()` is not called -/
def Action.noCleanUp : Action → Prop
  | .call _ .cleanUp => False
  | _ => True

instance (a : Action) : Decidable a.noCleanUp := by
  unfold Action.noCleanUp
  split <;> infer_instance

/-- the thread `a` calls a function and takes `n` steps in it -/
def callSteps (a : Actor) (c : ApiCall) (n : ℕ) : List Action :=
  .call a c :: List.replicate n (.api a)

/-- `n` steps of `run()` in which the calls of the lookup thread return normally -/
def lookupSteps (t n : ℕ) : List Action := List.replicate n (.run t {})

/-- runs of the whole system -/
abbrev Run : Sys → Prop := resolverSystem.Reach (fun _ _ => True)

/-- runs in which `clean_up()` is not called -/
abbrev RunNoCleanUp : Sys → Prop := resolverSystem.Reach (fun _ a => a.noCleanUp)

end Setka
