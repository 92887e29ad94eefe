import Setka.Lib.Effects
import Setka.Dns.System

/-!
# The registration of a request, call by call

The part of `resolve()` under the second guard of the thread's mutex, with the calls that may throw
and the three handlers that take back what was done.  `Setka.Dns.System` has the same part as one
step in which nothing throws.

* `Registering`   the thread object and the local `r`, which is null once it is moved into
                  `resolversMap`;
* `register`      the registration; `fail` is the call that throws.

Following a null `r`, or erasing through an iterator to no node, is `Thrown.undefined`.
-/

namespace Setka

/-- a call of the registration that may throw -/
inductive Failure where
  | idMapInsert
  | timeMapInsert
  | sendListPush
  | resolversMapInsert
  | queuePush
  | threadStart
deriving DecidableEq, Repr

inductive Thrown where
  | tooManyRequests
  | failed (p : Failure)
  | undefined
deriving DecidableEq, Repr

structure Registering where
  T : LookupThread
  r : Option Resolver
deriving DecidableEq

namespace Registering

abbrev Prog (α : Type) := EStateM Thrown Registering α

/-- `r->` -/
def request : Prog Resolver := do
  match (← get).r with
  | some r => return r
  | none => throw .undefined

def setRequest (f : Resolver → Resolver) : Prog Unit := modify fun s => { s with r := s.r.map f }

def tables : Prog Tables := do return (← get).T.tables

def setTables (tb : Tables) : Prog Unit := modify fun s => { s with T := { s.T with tables := tb } }

def mayThrow (fail : Option Failure) (p : Failure) : Prog Unit :=
  if fail = some p then throw (.failed p) else pure ()

end Registering

/-! ## the insertions -/

namespace Tables

def withId (tb : Tables) (id : UInt16) (addr : ℕ) : Tables :=
  { tb with
    idMap := Cell.insertUpper ⟨tb.nextNode, id, addr⟩ tb.idMap
    nextNode := tb.nextNode + 1 }

def withTime (tb : Tables) (m : TimeMap) (endTime : UInt32) (addr : ℕ) : Tables :=
  { tb.setTimeMap m (Cell.insertUpper ⟨tb.nextNode, endTime, addr⟩ (tb.timeMap m)) with
    nextNode := tb.nextNode + 1 }

def withSend (tb : Tables) (addr : ℕ) : Tables :=
  { tb with
    sendList := tb.sendList ++ [⟨tb.nextNode, (), addr⟩]
    nextNode := tb.nextNode + 1 }

/-- `resolversMap[x] = r` -/
def withOwner (tb : Tables) (x : ℕ) (r : Resolver) : Tables :=
  { tb with
    resolversMap := (tb.resolversMap.filter (fun e => e.1 ≠ x)).orderedInsert
      (fun a b => a.1 < b.1) (x, r) }

end Tables

namespace Registering
variable (fail : Option Failure) (q : Query) (now : ℕ)

/-- `FindFreeId` and `idMap.insert()`, which keeps the node of a key that is there -/
def insertId : Prog Unit := do
  let tb ← tables
  match Tables.findFreeId tb.idMap with
  | none => throw .tooManyRequests
  | some id =>
    setRequest fun r => { r with id := id }
    mayThrow fail .idMapInsert
    let r ← request
    match tb.idMap.find? (fun c => c.key == id) with
    | some c => setRequest fun r => { r with idIter := c.node }
    | none => do
      setTables (tb.withId id r.addr)
      setRequest fun r => { r with idIter := tb.nextNode }

/-- the choice of the time map -/
def chooseTimeMap : Prog Unit := do
  let tb ← tables
  setRequest fun r => { r with timeMap := tb.timeMapFor (ticks now) q.timeoutMillis }

def insertTime : Prog Unit := do
  mayThrow fail .timeMapInsert
  let tb ← tables
  let r ← request
  setTables (tb.withTime r.timeMap (ticks now + q.timeoutMillis) r.addr)
  setRequest fun r => { r with timeMapIter := tb.nextNode }

def pushSend : Prog Unit := do
  mayThrow fail .sendListPush
  let tb ← tables
  let r ← request
  setTables (tb.withSend r.addr)

/-- `r->sendIter = --sendList.end()` -/
def takeSendIter : Prog Unit := do
  let tb ← tables
  setRequest fun r => { r with sendIter := tb.sendList.getLast?.map Cell.node }

/-- `resolversMap[this] = std::move(r)` -/
def own : Prog Unit := do
  mayThrow fail .resolversMapInsert
  let tb ← tables
  let r ← request
  setTables (tb.withOwner q.hnr r)
  modify fun s => { s with r := none }

/-- the message for the lookup thread, if the request is the only one to send -/
def post : Prog Unit := do
  let tb ← tables
  if tb.sendList.length = 1 then do
    mayThrow fail .queuePush
    modify fun s => { s with T := { s.T with queue := s.T.queue ++ [.startSending] } }
  else pure ()

/-- a new thread is started -/
def start (needStart : Bool) : Prog Unit :=
  if needStart then do
    modify fun s => { s with T := { s.T with
      lastTicksInFirstHalf := isFirstHalf (ticks now), lastTicks := now } }
    mayThrow fail .threadStart
    modify fun s => { s with T := { s.T with pc := .joinPrev, isExiting := false } }
  else pure ()

/-- the body of the third `try` -/
def publish (needStart : Bool) : Prog Unit := do
  own fail q
  post fail
  start fail now needStart

/-! ## the handlers -/

/-- `idMap.erase(r->idIter)` -/
def eraseId : Prog Unit := do
  let r ← request
  let tb ← tables
  match Cell.eraseNode tb.idMap r.idIter with
  | some ids => setTables { tb with idMap := ids }
  | none => throw .undefined

/-- `r->timeMap->erase(r->timeMapIter)` -/
def eraseTime : Prog Unit := do
  let r ← request
  let tb ← tables
  match Cell.eraseNode (tb.timeMap r.timeMap) r.timeMapIter with
  | some times => setTables (tb.setTimeMap r.timeMap times)
  | none => throw .undefined

/-- `sendList.pop_back()` -/
def popSend : Prog Unit := do
  let tb ← tables
  if tb.sendList = [] then throw .undefined
  else setTables { tb with sendList := tb.sendList.dropLast }

/-- `resolversMap.erase(this)` -/
def eraseOwner : Prog Unit := do
  let tb ← tables
  setTables { tb with resolversMap := tb.resolversMap.filter (fun e => e.1 ≠ q.hnr) }

def undoTime (e : Thrown) : Prog Unit := do
  eraseId
  throw e

def undoSend (e : Thrown) : Prog Unit := do
  eraseTime
  eraseId
  throw e

def undoPublish (e : Thrown) : Prog Unit := do
  eraseOwner q
  popSend
  eraseTime
  eraseId
  throw e

/-- `resolve()` from the second guard on -/
def register (needStart : Bool) : Prog Unit := do
  insertId fail
  chooseTimeMap q now
  tryCatch (insertTime fail q now) undoTime
  tryCatch (pushSend fail) undoSend
  takeSendIter
  tryCatch (publish fail q now needStart) (undoPublish q)

/-- the local `r` at the second guard; the members that are not set hold anything -/
def newRequest (addr : ℕ) (q : Query) (rest : Resolver) : Resolver :=
  { rest with
    addr := addr, hnr := q.hnr, hostName := q.hostName, recordType := recordAAAA, dns := q.dnsIP }

end Registering

end Setka
