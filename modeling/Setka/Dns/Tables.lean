import Setka.Lib.Cells
import Setka.Dns.Reply

/-!
# The containers of the lookup thread

`resolversMap` owns the active requests; `idMap`, the two time maps and `sendList` hold pointers to
them.  Each operation of the source on these containers is a function on `Tables`:

* `findFreeId`, `register`   `FindFreeId` and the registration part of `resolve()`;
* `removeResolver`           `RemoveResolver`;
* `requeue`                  the fallback from the AAAA to the A record;
* `markSent`, `setDns`       the send loop;
* `swapTimeMaps`             the swap at a tick wrap.

Erasing through an iterator to no node of the container, and following a pointer to no active
request, is undefined behaviour: `none`.
-/

namespace Setka

structure Tables where
  resolversByTime1 : List (Cell UInt32 ℕ) := []
  resolversByTime2 : List (Cell UInt32 ℕ) := []
  /-- the map `timeMap1` points to; `timeMap2` points to the other one -/
  timeMap1 : TimeMap := .byTime1
  sendList : List (Cell Unit ℕ) := []
  /-- in the order of the keys, the pointers to the dns_resolver objects -/
  resolversMap : List (ℕ × Resolver) := []
  idMap : List (Cell UInt16 ℕ) := []
  /-- the next unused node identity -/
  nextNode : ℕ := 0
deriving DecidableEq

namespace Tables

def timeMap2 (tb : Tables) : TimeMap := tb.timeMap1.other

/-- the multimap a pointer to a time map points to -/
def timeMap (tb : Tables) : TimeMap → List (Cell UInt32 ℕ)
  | .byTime1 => tb.resolversByTime1
  | .byTime2 => tb.resolversByTime2

def setTimeMap (tb : Tables) (m : TimeMap) (l : List (Cell UInt32 ℕ)) : Tables :=
  match m with
  | .byTime1 => { tb with resolversByTime1 := l }
  | .byTime2 => { tb with resolversByTime2 := l }

/-! ## lookups -/

/-- `resolversMap.find(x)` -/
def find (tb : Tables) (x : ℕ) : Option Resolver :=
  (tb.resolversMap.find? (fun e => e.1 == x)).map Prod.snd

/-- the record a `Resolver*` points to, if it is alive -/
def deref (tb : Tables) (p : ℕ) : Option Resolver :=
  (tb.resolversMap.find? (fun e => e.2.addr == p)).map Prod.snd

/-- `idMap.find(id)` -/
def findId (tb : Tables) (id : UInt16) : Option ℕ :=
  (tb.idMap.find? (fun c => c.key == id)).map Cell.val

/-- write to the record a pointer points to -/
def modify (tb : Tables) (p : ℕ) (f : Resolver → Resolver) : Tables :=
  { tb with
    resolversMap := tb.resolversMap.map (fun e => if e.2.addr = p then (e.1, f e.2) else e) }

/-! ## ids -/

/-- the gap search of `FindFreeId`: `i1` walks one cell behind `i2` -/
def findGap : List (Cell UInt16 ℕ) → Option UInt16
  | i1 :: i2 :: rest =>
    if (i2.key.toNat : ℤ) - i1.key.toNat > 1 then some (i1.key + 1) else findGap (i2 :: rest)
  | _ => none

/-- `FindFreeId`; `none` is the exception `too_many_requests` -/
def findFreeId (idMap : List (Cell UInt16 ℕ)) : Option UInt16 :=
  match idMap with
  | [] => some 0
  | c :: rest =>
    if c.key ≠ 0 then some (c.key - 1)
    else if ((c :: rest).getLastD c).key ≠ 0xffff then some (((c :: rest).getLastD c).key + 1)
    else findGap (c :: rest)

/-! ## registration and removal -/

/-- the time map `resolve()` chooses for a request made at `curTime` -/
def timeMapFor (tb : Tables) (curTime timeoutMillis : UInt32) : TimeMap :=
  if curTime + timeoutMillis < curTime then tb.timeMap2 else tb.timeMap1

/-- the record `resolve()` fills in -/
def newResolver (tb : Tables) (addr : ℕ) (q : Query) (id : UInt16) (curTime : UInt32) :
    Resolver where
  addr := addr
  hnr := q.hnr
  hostName := q.hostName
  recordType := recordAAAA
  timeMap := tb.timeMapFor curTime q.timeoutMillis
  timeMapIter := tb.nextNode + 1
  id := id
  idIter := tb.nextNode
  sendIter := some (tb.nextNode + 2)
  dns := q.dnsIP

/-- the registration part of `resolve()`: id map, time map, send list, owner map -/
def register (tb : Tables) (addr : ℕ) (q : Query) (id : UInt16) (curTime : UInt32) : Tables :=
  let r := tb.newResolver addr q id curTime
  let tb' := tb.setTimeMap r.timeMap
    (Cell.insertUpper ⟨r.timeMapIter, curTime + q.timeoutMillis, addr⟩ (tb.timeMap r.timeMap))
  { tb' with
    idMap := Cell.insertUpper ⟨r.idIter, id, addr⟩ tb.idMap
    sendList := tb.sendList ++ [⟨tb.nextNode + 2, (), addr⟩]
    resolversMap := (tb.resolversMap.filter (fun e => e.1 ≠ q.hnr)).orderedInsert
      (fun a b => a.1 < b.1) (q.hnr, r)
    nextNode := tb.nextNode + 3 }

/-- `if(r->sendIter != end()) sendList.erase(r->sendIter)` -/
def eraseSend (tb : Tables) (r : Resolver) : Option (List (Cell Unit ℕ)) :=
  match r.sendIter with
  | none => some tb.sendList
  | some n => Cell.eraseNode tb.sendList n

/-- `RemoveResolver`: the tables after it and the removed request, if there was one -/
def removeResolver (tb : Tables) (x : ℕ) : Option (Tables × Option Resolver) :=
  match tb.find x with
  | none => some (tb, none)
  | some r => do
    let sendList ← tb.eraseSend r
    let times ← Cell.eraseNode (tb.timeMap r.timeMap) r.timeMapIter
    let idMap ← Cell.eraseNode tb.idMap r.idIter
    some ({ tb.setTimeMap r.timeMap times with
            sendList := sendList
            idMap := idMap
            resolversMap := tb.resolversMap.filter (fun e => e.1 ≠ x) }, some r)

/-! ## the steps of the lookup loop -/

/-- no AAAA record: ask for the A record, `recordType = A` and back to the send list -/
def requeue (tb : Tables) (p : ℕ) : Tables :=
  { tb.modify p (fun r => { r with recordType := recordA, sendIter := some tb.nextNode }) with
    sendList := tb.sendList ++ [⟨tb.nextNode, (), p⟩]
    nextNode := tb.nextNode + 1 }

/-- `r->sendIter = sendList.end(); sendList.pop_front()` -/
def markSent (tb : Tables) (p : ℕ) : Tables :=
  { tb.modify p (fun r => { r with sendIter := none }) with sendList := tb.sendList.tail }

def setDns (tb : Tables) (p : ℕ) (a : Address) : Tables :=
  tb.modify p (fun r => { r with dns := a })

/-- `std::swap(timeMap1, timeMap2)` -/
def swapTimeMaps (tb : Tables) : Tables := { tb with timeMap1 := tb.timeMap2 }

end Tables

end Setka
