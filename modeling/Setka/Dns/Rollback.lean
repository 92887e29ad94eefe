import Setka.Dns.Ids
import Setka.Dns.Registration
import Setka.Dns.SendList

/-!
# What a failed registration leaves behind

* `Registrable`          what holds of the tables when `resolve()` registers a request, in every
                         run;
* `register_returns`     without a failure the registration is the step of `Setka.Dns.System`;
* `KeepsEntries`         when the registration throws, the containers hold what they held;
* `register_keeps_iff`   it does so if and only if the failure is not behind the move of the request
                         into `resolversMap`.
-/

namespace Setka
namespace Tables

/-- some container holds a pointer to the request at `addr` -/
def Refers (tb : Tables) (addr : ℕ) : Prop :=
  (∃ c ∈ tb.idMap, c.val = addr) ∨ (∃ m, ∃ c ∈ tb.timeMap m, c.val = addr) ∨
    (∃ c ∈ tb.sendList, c.val = addr) ∨ ∃ e ∈ tb.resolversMap, e.2.addr = addr

/-- the same entries in all containers; the identities of nodes that are gone are not used again -/
def SameEntries (tb tb' : Tables) : Prop := tb' = { tb with nextNode := tb'.nextNode }

/-- The object `x` has no request, `idMap` is in order, the identities of new nodes and the address
of the new request are not in use. -/
structure Registrable (tb : Tables) (addr x : ℕ) : Prop where
  absent : tb.find x = none
  idSorted : Cell.SortedKeys tb.idMap
  idFresh : ∀ c ∈ tb.idMap, c.node < tb.nextNode
  timeFresh : ∀ m, ∀ c ∈ tb.timeMap m, c.node < tb.nextNode
  notReferred : ¬ tb.Refers addr

variable {tb tb' : Tables} {addr x : ℕ} {id : UInt16} {m : TimeMap} {endTime : UInt32}

theorem Registrable.idMap_find? (h : tb.Registrable addr x) (hid : findFreeId tb.idMap = some id) :
    tb.idMap.find? (fun c => c.key == id) = none := by
  rw [List.find?_eq_none]
  intro c hc
  rw [beq_iff_eq]
  exact findFreeId_fresh h.idSorted hid c hc

theorem Registrable.filter_absent (h : tb.Registrable addr x) :
    tb.resolversMap.filter (fun e => e.1 ≠ x) = tb.resolversMap := by
  refine List.filter_eq_self.mpr fun e he => decide_eq_true ?_
  rintro rfl
  exact find_eq_none.mp h.absent (List.mem_map_of_mem he)

theorem withTime_timeMap (tb : Tables) (m : TimeMap) (endTime : UInt32) (addr : ℕ) :
    (tb.withTime m endTime addr).timeMap m =
      Cell.insertUpper ⟨tb.nextNode, endTime, addr⟩ (tb.timeMap m) := by
  cases m <;> rfl

end Tables

namespace Registering
variable {fail : Option Failure} {q : Query} {now addr : ℕ} {T : LookupThread} {r rest : Resolver}
  {id : UInt16} {needStart : Bool} {p : Failure}

/-! ## the insertions -/

theorem tables_bind {α : Type} (f : Tables → Prog α) (s : Registering) :
    (tables >>= f) s = f s.T.tables s := rfl

theorem request_bind {α : Type} (f : Resolver → Prog α) :
    (request >>= f) ⟨T, some r⟩ = f r ⟨T, some r⟩ := rfl

theorem setRequest_bind {α : Type} (g : Resolver → Resolver) (f : Unit → Prog α) :
    (setRequest g >>= f) ⟨T, some r⟩ = f () ⟨T, some (g r)⟩ := rfl

theorem mayThrow_ne (h : fail ≠ some p) : mayThrow fail p = pure () := if_neg h

theorem mayThrow_eq : mayThrow (some p) p = throw (.failed p) := if_pos rfl

section
variable (fail q now T r)

theorem insertId_exhausted (hid : Tables.findFreeId T.tables.idMap = none) :
    insertId fail ⟨T, some r⟩ = .error .tooManyRequests ⟨T, some r⟩ := by
  unfold insertId
  rw [tables_bind]
  dsimp only
  rw [hid]
  rfl

theorem insertId_failed (hid : Tables.findFreeId T.tables.idMap = some id) :
    insertId (some .idMapInsert) ⟨T, some r⟩ =
      .error (.failed .idMapInsert) ⟨T, some { r with id := id }⟩ := by
  unfold insertId
  rw [mayThrow_eq, tables_bind]
  dsimp only
  rw [hid]
  rfl

theorem insertId_ok (hid : Tables.findFreeId T.tables.idMap = some id)
    (hfree : T.tables.idMap.find? (fun c => c.key == id) = none) (h : fail ≠ some .idMapInsert) :
    insertId fail ⟨T, some r⟩ = .ok () ⟨{ T with tables := T.tables.withId id r.addr },
      some { r with id := id, idIter := T.tables.nextNode }⟩ := by
  unfold insertId
  rw [mayThrow_ne h, tables_bind]
  dsimp only
  rw [hid]
  dsimp only
  rw [setRequest_bind, pure_bind, request_bind, hfree]
  rfl

theorem chooseTimeMap_ok : chooseTimeMap q now ⟨T, some r⟩ = .ok () ⟨T,
    some { r with timeMap := T.tables.timeMapFor (ticks now) q.timeoutMillis }⟩ := rfl

theorem insertTime_failed : insertTime (some .timeMapInsert) q now ⟨T, some r⟩ =
    .error (.failed .timeMapInsert) ⟨T, some r⟩ := rfl

theorem insertTime_ok (h : fail ≠ some .timeMapInsert) : insertTime fail q now ⟨T, some r⟩ =
    .ok () ⟨{ T with
      tables := T.tables.withTime r.timeMap (ticks now + q.timeoutMillis) r.addr },
      some { r with timeMapIter := T.tables.nextNode }⟩ := by
  unfold insertTime
  rw [mayThrow_ne h]
  rfl

theorem pushSend_failed : pushSend (some .sendListPush) ⟨T, some r⟩ =
    .error (.failed .sendListPush) ⟨T, some r⟩ := rfl

theorem pushSend_ok (h : fail ≠ some .sendListPush) : pushSend fail ⟨T, some r⟩ =
    .ok () ⟨{ T with tables := T.tables.withSend r.addr }, some r⟩ := by
  unfold pushSend
  rw [mayThrow_ne h]
  rfl

theorem own_ok (h : fail ≠ some .resolversMapInsert) : own fail q ⟨T, some r⟩ =
    .ok () ⟨{ T with tables := T.tables.withOwner q.hnr r }, none⟩ := by
  unfold own
  rw [mayThrow_ne h]
  rfl

end

/-! ## the handlers -/

theorem eraseId_undo {c : Cell UInt16 ℕ} {ids : List (Cell UInt16 ℕ)}
    (h : T.tables.idMap = Cell.insertUpper c ids) (hc : c.node = r.idIter)
    (hfresh : ∀ d ∈ ids, d.node ≠ c.node) : eraseId ⟨T, some r⟩ =
      .ok () ⟨{ T with tables := { T.tables with idMap := ids } }, some r⟩ := by
  have herase : Cell.eraseNode T.tables.idMap r.idIter = some ids := by
    rw [h, ← hc]
    exact Cell.eraseNode_insertUpper hfresh
  unfold eraseId
  rw [request_bind, tables_bind]
  dsimp only
  rw [herase]
  rfl

theorem eraseTime_undo {c : Cell UInt32 ℕ} {times : List (Cell UInt32 ℕ)}
    (h : T.tables.timeMap r.timeMap = Cell.insertUpper c times) (hc : c.node = r.timeMapIter)
    (hfresh : ∀ d ∈ times, d.node ≠ c.node) : eraseTime ⟨T, some r⟩ =
      .ok () ⟨{ T with tables := T.tables.setTimeMap r.timeMap times }, some r⟩ := by
  have herase : Cell.eraseNode (T.tables.timeMap r.timeMap) r.timeMapIter = some times := by
    rw [h, ← hc]
    exact Cell.eraseNode_insertUpper hfresh
  unfold eraseTime
  rw [request_bind, tables_bind]
  dsimp only
  rw [herase]
  rfl

theorem popSend_undo {o : Option Resolver} {c : Cell Unit ℕ} {sends : List (Cell Unit ℕ)}
    (h : T.tables.sendList = sends ++ [c]) : popSend ⟨T, o⟩ =
      .ok () ⟨{ T with tables := { T.tables with sendList := sends } }, o⟩ := by
  unfold popSend
  show (if T.tables.sendList = [] then throw .undefined
    else setTables { T.tables with sendList := T.tables.sendList.dropLast } : Prog Unit) _ = _
  rw [h, if_neg (List.append_ne_nil_of_right_ne_nil sends (List.cons_ne_nil c [])),
    List.dropLast_concat]
  rfl

theorem eraseOwner_ok (o : Option Resolver) : eraseOwner q ⟨T, o⟩ = .ok () ⟨{ T with tables :=
    { T.tables with
      resolversMap := T.tables.resolversMap.filter (fun e => e.1 ≠ q.hnr) } }, o⟩ := rfl

theorem eraseTime_null : eraseTime ⟨T, none⟩ = .error .undefined ⟨T, none⟩ := rfl

/-- **The third handler on a null `r`** follows it. -/
theorem undoPublish_null {e : Thrown} {c : Cell Unit ℕ} {sends : List (Cell Unit ℕ)}
    (h : T.tables.sendList = sends ++ [c]) :
    ∃ s, undoPublish q e ⟨T, none⟩ = .error .undefined s := by
  have hpop := popSend_undo (o := none) (T := { T with tables :=
    { T.tables with resolversMap := T.tables.resolversMap.filter (fun e => e.1 ≠ q.hnr) } }) h
  exact ⟨_, (EStateM.bind_of_ok (eraseOwner_ok none)).trans
    ((EStateM.bind_of_ok hpop).trans (EStateM.bind_of_error eraseTime_null))⟩

/-! ## the message and the start -/

theorem post_failed {o : Option Resolver} (h : T.tables.sendList.length = 1) :
    post (some .queuePush) ⟨T, o⟩ = .error (.failed .queuePush) ⟨T, o⟩ := by
  unfold post
  show (if T.tables.sendList.length = 1 then _ else _ : Prog Unit) _ = _
  rw [if_pos h]
  rfl

variable (fail) in
theorem post_ok {o : Option Resolver}
    (h : fail = some .queuePush → T.tables.sendList.length ≠ 1) : post fail ⟨T, o⟩ =
      .ok () ⟨{ T with
        queue := if T.tables.sendList.length = 1 then T.queue ++ [.startSending]
          else T.queue }, o⟩ := by
  unfold post
  show (if T.tables.sendList.length = 1 then _ else _ : Prog Unit) _ = _
  split
  · rename_i hone
    rw [mayThrow_ne fun hfail => h hfail hone]
    rfl
  · rfl

variable (now) in
theorem start_failed {o : Option Resolver} :
    ∃ U, start (some .threadStart) now true ⟨T, o⟩ = .error (.failed .threadStart) ⟨U, o⟩ ∧
      U.tables = T.tables := ⟨_, rfl, rfl⟩

/-- the thread object after the start, if there was one -/
def started (T : LookupThread) (now : ℕ) (needStart : Bool) : LookupThread :=
  if needStart then
    { T with lastTicksInFirstHalf := isFirstHalf (ticks now), lastTicks := now, pc := .joinPrev,
             isExiting := false }
  else T

theorem start_ok {o : Option Resolver} (h : fail = some .threadStart → needStart = false) :
    start fail now needStart ⟨T, o⟩ = .ok () ⟨started T now needStart, o⟩ := by
  unfold start
  cases needStart with
  | false => rfl
  | true =>
    rw [mayThrow_ne fun hfail => absurd (h hfail) (by decide)]
    rfl

theorem publish_notOwned (o : Option Resolver) :
    publish (some .resolversMapInsert) q now needStart ⟨T, o⟩ =
      .error (.failed .resolversMapInsert) ⟨T, o⟩ := rfl

variable (fail q now needStart) in
/-- A failure behind the move leaves a null `r`. -/
theorem publish_late (hlate : (fail = some .queuePush ∧ T.tables.sendList.length = 1) ∨
      (fail = some .threadStart ∧ needStart = true)) :
    ∃ U p, publish fail q now needStart ⟨T, some r⟩ = .error (.failed p) ⟨U, none⟩ ∧
      U.tables.sendList = T.tables.sendList := by
  unfold publish
  rcases hlate with ⟨rfl, hone⟩ | ⟨rfl, rfl⟩
  · refine ⟨{ T with tables := T.tables.withOwner q.hnr r }, .queuePush, ?_, rfl⟩
    rw [EStateM.bind_of_ok (own_ok _ q T r (by decide))]
    exact EStateM.bind_of_error
      (post_failed (T := { T with tables := T.tables.withOwner q.hnr r }) hone)
  · have hpost := post_ok (some .threadStart) (o := none)
      (T := { T with tables := T.tables.withOwner q.hnr r }) nofun
    obtain ⟨U, hstart, htables⟩ := start_failed now (o := none) (T := { T with
      tables := T.tables.withOwner q.hnr r
      queue := if T.tables.sendList.length = 1 then T.queue ++ [.startSending] else T.queue })
    refine ⟨U, .threadStart, ?_, by rw [htables]; rfl⟩
    rw [EStateM.bind_of_ok (own_ok _ q T r (by decide)), EStateM.bind_of_ok hpost]
    exact hstart

theorem publish_ok (h : fail ≠ some .resolversMapInsert)
    (hpost : fail = some .queuePush → T.tables.sendList.length ≠ 1)
    (hstart : fail = some .threadStart → needStart = false) :
    publish fail q now needStart ⟨T, some r⟩ = .ok () ⟨started { T with
      tables := T.tables.withOwner q.hnr r
      queue := if T.tables.sendList.length = 1 then T.queue ++ [.startSending] else T.queue }
        now needStart, none⟩ := by
  unfold publish
  rw [EStateM.bind_of_ok (own_ok _ q T r h),
    EStateM.bind_of_ok (post_ok fail (T := { T with tables := T.tables.withOwner q.hnr r }) hpost)]
  exact start_ok hstart

/-! ## the state in front of each call -/

section
variable (T r id q now)

/-- the request with its id and its time map -/
def timedRequest : Resolver :=
  { r with
    id := id, idIter := T.tables.nextNode
    timeMap := T.tables.timeMapFor (ticks now) q.timeoutMillis }

/-- the tables with the id -/
def idTables : Tables := T.tables.withId id r.addr

/-- the tables with the id and the deadline -/
def timeTables : Tables :=
  (idTables T r id).withTime (T.tables.timeMapFor (ticks now) q.timeoutMillis)
    (ticks now + q.timeoutMillis) r.addr

/-- the request in front of the third `try` -/
def sentRequest : Resolver :=
  { timedRequest q now T r id with
    timeMapIter := T.tables.nextNode + 1, sendIter := some (T.tables.nextNode + 2) }

end

section
variable (hreg : T.tables.Registrable r.addr q.hnr)
  (hid : Tables.findFreeId T.tables.idMap = some id)
include hreg

theorem idFresh : ∀ d ∈ T.tables.idMap, d.node ≠ T.tables.nextNode :=
  fun d hd => Nat.ne_of_lt (hreg.idFresh d hd)

theorem timeFresh (m : TimeMap) : ∀ d ∈ (idTables T r id).timeMap m,
    d.node ≠ T.tables.nextNode + 1 := by
  intro d hd
  have hlt : d.node < T.tables.nextNode := hreg.timeFresh m d (by cases m <;> exact hd)
  omega

variable (id) in
/-- what the two handlers that take back the deadline and the id leave -/
theorem undo_time_id {tb : Tables} {r' : Resolver} {e : Thrown} {n : ℕ}
    (htb : tb = { timeTables q now T r id with nextNode := n })
    (hr : r'.timeMap = T.tables.timeMapFor (ticks now) q.timeoutMillis)
    (hti : r'.timeMapIter = T.tables.nextNode + 1) (hii : r'.idIter = T.tables.nextNode) :
    (do eraseTime; eraseId; throw e : Prog Unit) ⟨{ T with tables := tb }, some r'⟩ =
      .error e ⟨{ T with tables := { T.tables with nextNode := n } }, some r'⟩ := by
  have htime : tb.timeMap r'.timeMap = Cell.insertUpper
      ⟨T.tables.nextNode + 1, ticks now + q.timeoutMillis, r.addr⟩
      ((idTables T r id).timeMap r'.timeMap) := by
    rw [htb, hr]
    exact Tables.withTime_timeMap (idTables T r id) _ _ _
  rw [EStateM.bind_of_ok (eraseTime_undo (T := { T with tables := tb }) htime hti.symm
    (timeFresh hreg _))]
  have hid' : (tb.setTimeMap r'.timeMap ((idTables T r id).timeMap r'.timeMap)).idMap =
      Cell.insertUpper ⟨T.tables.nextNode, id, r.addr⟩ T.tables.idMap := by
    rw [htb]
    unfold timeTables Tables.withTime
    cases r'.timeMap <;> cases T.tables.timeMapFor (ticks now) q.timeoutMillis <;> rfl
  rw [EStateM.bind_of_ok (eraseId_undo
    (T := { T with tables := tb.setTimeMap r'.timeMap ((idTables T r id).timeMap r'.timeMap) })
    hid' hii.symm (idFresh hreg))]
  have htables : ({ tb.setTimeMap r'.timeMap ((idTables T r id).timeMap r'.timeMap) with
      idMap := T.tables.idMap } : Tables) = { T.tables with nextNode := n } := by
    rw [htb, hr]
    unfold timeTables Tables.withTime
    cases T.tables.timeMapFor (ticks now) q.timeoutMillis <;> rfl
  show EStateM.Result.error e _ = _
  rw [← htables]

include hid

theorem register_toTime (h : fail ≠ some .idMapInsert) :
    register fail q now needStart ⟨T, some r⟩ = (do
      tryCatch (insertTime fail q now) undoTime
      tryCatch (pushSend fail) undoSend
      takeSendIter
      tryCatch (publish fail q now needStart) (undoPublish q) : Prog Unit)
        ⟨{ T with tables := idTables T r id }, some (timedRequest q now T r id)⟩ := by
  unfold register
  rw [EStateM.bind_of_ok (insertId_ok fail T r hid (hreg.idMap_find? hid) h),
    EStateM.bind_of_ok (chooseTimeMap_ok q now _ _)]
  rfl

variable (now needStart) in
/-- The deadline is not inserted: the id is taken out again. -/
theorem register_timeMapInsert : ∃ o, register (some .timeMapInsert) q now needStart ⟨T, some r⟩ =
    .error (.failed .timeMapInsert)
      ⟨{ T with tables := { T.tables with nextNode := T.tables.nextNode + 1 } }, o⟩ := by
  refine ⟨some (timedRequest q now T r id), ?_⟩
  rw [register_toTime hreg hid (by decide)]
  refine EStateM.bind_of_error ?_
  rw [EStateM.tryCatch_of_error (insertTime_failed q now _ _)]
  unfold undoTime
  rw [EStateM.bind_of_ok (eraseId_undo rfl rfl (idFresh hreg))]
  rfl

theorem register_toSend (h1 : fail ≠ some .idMapInsert) (h2 : fail ≠ some .timeMapInsert) :
    register fail q now needStart ⟨T, some r⟩ = (do
      tryCatch (pushSend fail) undoSend
      takeSendIter
      tryCatch (publish fail q now needStart) (undoPublish q) : Prog Unit)
        ⟨{ T with tables := timeTables q now T r id },
          some { timedRequest q now T r id with timeMapIter := T.tables.nextNode + 1 }⟩ := by
  rw [register_toTime hreg hid h1,
    EStateM.bind_of_ok (EStateM.tryCatch_of_ok (insertTime_ok fail q now _ _ h2))]
  rfl

variable (now needStart) in
/-- The request is not put on the send list: the deadline and the id are taken out again. -/
theorem register_sendListPush : ∃ o, register (some .sendListPush) q now needStart ⟨T, some r⟩ =
    .error (.failed .sendListPush)
      ⟨{ T with tables := { T.tables with nextNode := T.tables.nextNode + 2 } }, o⟩ := by
  refine ⟨some { timedRequest q now T r id with timeMapIter := T.tables.nextNode + 1 }, ?_⟩
  rw [register_toSend hreg hid (by decide) (by decide)]
  refine EStateM.bind_of_error ?_
  rw [EStateM.tryCatch_of_error (pushSend_failed _ _)]
  exact undo_time_id id hreg rfl rfl rfl rfl

/-- the state in front of the third `try` -/
theorem register_toPublish (h1 : fail ≠ some .idMapInsert) (h2 : fail ≠ some .timeMapInsert)
    (h3 : fail ≠ some .sendListPush) : register fail q now needStart ⟨T, some r⟩ =
      (tryCatch (publish fail q now needStart) (undoPublish q) : Prog Unit)
        ⟨{ T with tables := (timeTables q now T r id).withSend r.addr },
          some (sentRequest q now T r id)⟩ := by
  have hiter : ∀ (U : LookupThread) (u : Resolver),
      takeSendIter ⟨U, some u⟩ = .ok () ⟨U, some { u with
        sendIter := U.tables.sendList.getLast?.map Cell.node }⟩ := fun _ _ => rfl
  rw [register_toSend hreg hid h1 h2,
    EStateM.bind_of_ok (EStateM.tryCatch_of_ok (pushSend_ok fail _ _ h3)),
    EStateM.bind_of_ok (hiter _ _)]
  unfold Tables.withSend
  simp only [List.getLast?_concat]
  rfl

variable (now needStart) in
/-- The request is not put into `resolversMap`: everything is taken back. -/
theorem register_resolversMapInsert :
    ∃ o, register (some .resolversMapInsert) q now needStart ⟨T, some r⟩ =
      .error (.failed .resolversMapInsert)
        ⟨{ T with tables := { T.tables with nextNode := T.tables.nextNode + 3 } }, o⟩ := by
  refine ⟨some (sentRequest q now T r id), ?_⟩
  rw [register_toPublish hreg hid (by decide) (by decide) (by decide),
    EStateM.tryCatch_of_error (publish_notOwned _)]
  have hmap : (timeTables q now T r id).resolversMap = T.tables.resolversMap :=
    Tables.setTimeMap_resolversMap _ _ _
  have hfilter : (timeTables q now T r id).resolversMap.filter (fun e => e.1 ≠ q.hnr) =
      (timeTables q now T r id).resolversMap := by
    rw [hmap]
    exact hreg.filter_absent
  have hpop := popSend_undo (c := ⟨T.tables.nextNode + 2, (), r.addr⟩)
    (o := some (sentRequest q now T r id)) (T := { T with tables :=
      { (timeTables q now T r id).withSend r.addr with
        resolversMap :=
          (timeTables q now T r id).resolversMap.filter (fun e => e.1 ≠ q.hnr) } }) rfl
  unfold undoPublish
  refine (EStateM.bind_of_ok (eraseOwner_ok _)).trans ((EStateM.bind_of_ok hpop).trans ?_)
  refine undo_time_id id hreg ?_ rfl rfl rfl
  rw [hfilter]
  rfl

omit hreg hid in
theorem timeTables_sendList : (timeTables q now T r id).sendList = T.tables.sendList := by
  unfold timeTables Tables.withTime
  cases T.tables.timeMapFor (ticks now) q.timeoutMillis <;> rfl

omit hreg hid in
theorem length_withSend : ((timeTables q now T r id).withSend r.addr).sendList.length = 1 ↔
    T.tables.sendList = [] := by
  unfold Tables.withSend
  rw [List.length_append, timeTables_sendList, ← List.length_eq_zero_iff]
  exact Nat.add_eq_right

variable (now needStart) in
/-- Behind the move into `resolversMap` the handler follows a null pointer. -/
theorem register_late (hlate : (fail = some .queuePush ∧ T.tables.sendList = []) ∨
      (fail = some .threadStart ∧ needStart = true)) :
    ∃ s, register fail q now needStart ⟨T, some r⟩ = .error .undefined s := by
  have hne : fail ≠ some .idMapInsert ∧ fail ≠ some .timeMapInsert ∧ fail ≠ some .sendListPush := by
    rcases hlate with ⟨rfl, -⟩ | ⟨rfl, -⟩ <;> decide
  rw [register_toPublish hreg hid hne.1 hne.2.1 hne.2.2]
  obtain ⟨U, p, hpublish, hsends⟩ := publish_late fail q now needStart
    (r := sentRequest q now T r id)
    (T := { T with tables := (timeTables q now T r id).withSend r.addr })
    (hlate.imp_left fun h => ⟨h.1, length_withSend.mpr h.2⟩)
  rw [EStateM.tryCatch_of_error hpublish]
  exact undoPublish_null hsends

end

/-- **Without a failure** the registration is one step. -/
theorem register_returns (hreg : T.tables.Registrable addr q.hnr)
    (hid : Tables.findFreeId T.tables.idMap = some id) (h1 : fail ≠ some .idMapInsert)
    (h2 : fail ≠ some .timeMapInsert) (h3 : fail ≠ some .sendListPush)
    (h4 : fail ≠ some .resolversMapInsert)
    (hearly : ¬ ((fail = some .queuePush ∧ T.tables.sendList = []) ∨
      (fail = some .threadStart ∧ needStart = true))) :
    register fail q now needStart ⟨T, some (newRequest addr q rest)⟩ =
      .ok () ⟨Sys.registerIn T now addr q id needStart, none⟩ := by
  obtain ⟨hqueue, hstart⟩ := not_or.mp hearly
  rw [register_toPublish (r := newRequest addr q rest) hreg hid h1 h2 h3,
    EStateM.tryCatch_of_ok (publish_ok h4 (fun hf hone => hqueue ⟨hf, length_withSend.mp hone⟩)
      fun hf => Bool.eq_false_iff.mpr fun hn => hstart ⟨hf, hn⟩)]
  have htables : ((timeTables q now T (newRequest addr q rest) id).withSend addr).withOwner q.hnr
      (sentRequest q now T (newRequest addr q rest) id) =
        T.tables.register addr q id (ticks now) := by
    unfold timeTables sentRequest timedRequest Tables.withTime Tables.register Tables.newResolver
    cases T.tables.timeMapFor (ticks now) q.timeoutMillis <;> rfl
  unfold Sys.registerIn
  rw [← htables]
  cases needStart <;> rfl

/-! ## all failures -/

/-- When the registration throws, the containers of the thread hold what they held, none of them
points to the request at `addr`, and nothing undefined was done. -/
def KeepsEntries (T : LookupThread) (addr : ℕ) : EStateM.Result Thrown Registering Unit → Prop
  | .ok _ _ => True
  | .error e s =>
    e ≠ .undefined ∧ T.tables.SameEntries s.T.tables ∧ ¬ s.T.tables.Refers addr

/-- the failures behind the move of the request into `resolversMap` -/
def FailsLate (T : LookupThread) (fail : Option Failure) (needStart : Bool) : Prop :=
  Tables.findFreeId T.tables.idMap ≠ none ∧
    ((fail = some .queuePush ∧ T.tables.sendList = []) ∨
      (fail = some .threadStart ∧ needStart = true))

instance (T : LookupThread) (fail : Option Failure) (needStart : Bool) :
    Decidable (FailsLate T fail needStart) := by
  unfold FailsLate
  infer_instance

/-- A failed registration that leaves other node identities only. -/
theorem keepsEntries_error {x n : ℕ} {e : Thrown} {o : Option Resolver}
    (hreg : T.tables.Registrable addr x) (he : e ≠ .undefined) : KeepsEntries T addr
      (.error e ⟨{ T with tables := { T.tables with nextNode := n } }, o⟩) :=
  ⟨he, rfl, hreg.notReferred⟩

end Registering

theorem registrable_empty {addr x : ℕ} : Tables.Registrable {} addr x where
  absent := rfl
  idSorted := .nil
  idFresh := nofun
  timeFresh m c hc := by cases m <;> cases hc
  notReferred := by
    rintro (⟨c, hc, -⟩ | ⟨m, c, hc, -⟩ | ⟨c, hc, -⟩ | ⟨e, he, -⟩)
    · cases hc
    · cases m <;> cases hc
    · cases hc
    · cases he

open Registering in
/-- **A registration that throws** takes everything back if and only if the failure is not behind
the move of the request into `resolversMap`. -/
theorem register_keeps_iff {T : LookupThread} {addr : ℕ} {q : Query}
    (hreg : T.tables.Registrable addr q.hnr) (rest : Resolver) (fail : Option Failure) (now : ℕ)
    (needStart : Bool) :
    KeepsEntries T addr (register fail q now needStart ⟨T, some (newRequest addr q rest)⟩) ↔
      ¬ FailsLate T fail needStart := by
  cases hid : Tables.findFreeId T.tables.idMap with
  | none =>
    refine iff_of_true ?_ fun h => h.1 hid
    have hfail : register fail q now needStart ⟨T, some (newRequest addr q rest)⟩ =
        .error .tooManyRequests ⟨T, some (newRequest addr q rest)⟩ :=
      EStateM.bind_of_error (insertId_exhausted fail T _ hid)
    rw [hfail]
    exact keepsEntries_error hreg (by decide)
  | some id =>
    by_cases hlate : (fail = some .queuePush ∧ T.tables.sendList = []) ∨
        (fail = some .threadStart ∧ needStart = true)
    · -- the null pointer
      obtain ⟨s, hs⟩ := register_late now needStart (r := newRequest addr q rest) hreg hid hlate
      rw [hs]
      exact iff_of_false (fun h => h.1 rfl) fun h => h ⟨by rw [hid]; exact nofun, hlate⟩
    · refine iff_of_true ?_ fun h => hlate h.2
      by_cases h1 : fail = some .idMapInsert
      · have hfail :
          register (some .idMapInsert) q now needStart ⟨T, some (newRequest addr q rest)⟩ =
            .error (.failed .idMapInsert) ⟨T, some { newRequest addr q rest with id := id }⟩ :=
          EStateM.bind_of_error (insertId_failed T _ hid)
        rw [h1, hfail]
        exact keepsEntries_error hreg (by decide)
      by_cases h2 : fail = some .timeMapInsert
      · obtain ⟨o, ho⟩ := register_timeMapInsert now needStart
          (r := newRequest addr q rest) hreg hid
        rw [h2, ho]
        exact keepsEntries_error hreg (by decide)
      by_cases h3 : fail = some .sendListPush
      · obtain ⟨o, ho⟩ := register_sendListPush now needStart
          (r := newRequest addr q rest) hreg hid
        rw [h3, ho]
        exact keepsEntries_error hreg (by decide)
      by_cases h4 : fail = some .resolversMapInsert
      · obtain ⟨o, ho⟩ := register_resolversMapInsert now needStart
          (r := newRequest addr q rest) hreg hid
        rw [h4, ho]
        exact keepsEntries_error hreg (by decide)
      · rw [register_returns hreg hid h1 h2 h3 h4 hlate]
        trivial

set_option maxRecDepth 10000 in
/-- a registration in the tables of a new thread whose send list cannot grow -/
theorem register_keeps_iff_sendList :
    Registering.KeepsEntries {} 0 (Registering.register (some .sendListPush)
    ⟨1, [97], 1000, Address.unset⟩ 0 true
    ⟨{}, some (Registering.newRequest 0 ⟨1, [97], 1000, Address.unset⟩
      ⟨0, 0, [], 0, .byTime1, 0, 0, 0, none, Address.unset⟩)⟩) :=
  (register_keeps_iff registrable_empty _ _ _ _).mpr (by decide)

/-- The message to the lookup thread cannot be queued: the handler follows the null pointer. -/
theorem register_queuePush_undefined : ¬ ∀ (T : LookupThread) (addr : ℕ) (q : Query),
    T.tables.Registrable addr q.hnr → ∀ (rest : Resolver) (fail : Option Failure) (now : ℕ)
      (needStart : Bool), Registering.KeepsEntries T addr
        (Registering.register fail q now needStart
          ⟨T, some (Registering.newRequest addr q rest)⟩) := by
  intro h
  exact (h {} 0 ⟨1, [97], 1000, Address.unset⟩ registrable_empty
    ⟨0, 0, [], 0, .byTime1, 0, 0, 0, none, Address.unset⟩ (some .queuePush) 0 true).1 rfl

/-! ## the states of the system -/

namespace Tables
variable {tb tb' : Tables}

/-- A pointer to a request is older than the next one. -/
theorem not_refers {n : ℕ} (hl : Linked tb) (ho : ∀ r ∈ tb.resolvers, r.addr < n)
    (hs : ∀ c ∈ tb.sendList, c.val < n) : ¬ tb.Refers n := by
  rintro (⟨c, hc, rfl⟩ | ⟨m, c, hc, rfl⟩ | ⟨c, hc, rfl⟩ | ⟨e, he, rfl⟩)
  · obtain ⟨r, hr, rfl⟩ := List.mem_map.mp (hl.ids.mem_iff.mp hc)
    exact Nat.lt_irrefl _ (ho r hr)
  · obtain ⟨r, hr, heq⟩ := List.mem_map.mp ((hl.times m).mem_iff.mp (List.mem_map_of_mem hc))
    have hval : r.addr = c.val := congrArg Prod.snd heq
    exact Nat.lt_irrefl _ (hval ▸ ho r (List.mem_of_mem_filter hr))
  · exact Nat.lt_irrefl _ (hs c hc)
  · exact Nat.lt_irrefl _ (ho e.2 (List.mem_map_of_mem he))

end Tables

namespace Sys
variable {s : Sys}

/-- **In every run** the tables are ready for the request that `resolve()` registers. -/
theorem registrable {a : Actor} {q : Query} {t : ℕ} {needStart : Bool} (hr : Run s)
    (hc : s.calls a = .resolveRegister q t needStart) :
    (s.threads t).tables.Registrable s.nextCall q.hnr where
  absent := (locks hr).absent a q t needStart hc
  idSorted := (idsApart hr t).sorted
  idFresh := ((stored hr).linked t).idFresh
  timeFresh := ((stored hr).linked t).timeFresh
  notReferred := Tables.not_refers ((stored hr).linked t) ((stored hr).older t) (sends_older hr t)

end Sys

end Setka
