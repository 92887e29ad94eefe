import Setka.Lib.BufferWriter
import Setka.Dns.Query

/-!
# Writing the query packet

`LookupThread::SendRequestToDNS` fills a buffer of 512 bytes through a pointer and hands
`packetSize` bytes of it to the socket; `packetSize` is computed from the length of the host name
before the labels are written.

* `sendRequestToDNS`    the function up to `socket.send()`, with its `ASSERT`s;
* `sendRequestToDNS_eq`     what it writes for every host name, and when an `ASSERT` fails;
* `writesPacket_iff`    it fills the packet it announced if and only if the host name is neither
                        empty nor ends with a dot;
* `parse_writtenName_iff`   `ParseHostNameFromDNSPacket` reads the name back, up to the zero byte
                        after it, if and only if it is empty or has no empty label.
-/

namespace Setka

open BufferWriter

/-! ## the function -/

/-- the size of the buffer the packet is written to -/
def sendBufSize : ℕ := 512

def packetSize (r : Resolver) : ℕ :=
  2 + 2 + 2 + 2 + 2 + 2 + (r.hostName.length + 2) + 2 + 2

/-- `hostName.find('.', pos)`, or the length of the name if there is no dot -/
def findDot (hostName : Bytes) (pos : ℕ) : ℕ := pos + (hostName.drop pos).findIdx (· == dot)

/-- The loop that writes the labels, from the position `oldDotPos` on.  Every round goes on by at
least one byte. -/
def writeLabels (hostName : Bytes) : ℕ → ℕ → BufferWriter UInt8 Unit
  | 0, _ => throw .overrun
  | fuel + 1, oldDotPos =>
    if oldDotPos < hostName.length then do
      let dotPos := findDot hostName oldDotPos
      check fun _ => dotPos ≤ 0xff
      let labelLength := dotPos - oldDotPos
      check fun _ => labelLength ≤ 0xff
      store (UInt8.ofNat labelLength)
      storeAll ((hostName.drop oldDotPos).take labelLength)
      check fun b => b.p ≤ b.cells.length
      writeLabels hostName fuel (dotPos + 1)
    else pure ()

/-- the header, the domain name, the type and the class -/
def writeRequest (r : Resolver) : BufferWriter UInt8 Unit := do
  storeAll (serialize16be r.id)
  storeAll (serialize16be 0x100)
  storeAll (serialize16be 1)
  storeAll (serialize16be 0)
  storeAll (serialize16be 0)
  storeAll (serialize16be 0)
  writeLabels r.hostName (r.hostName.length + 1) 0
  store 0
  storeAll (serialize16be r.recordType)
  storeAll (serialize16be 1)

/-- `SendRequestToDNS` up to `socket.send()`; the result is the span that `send()` gets -/
def sendRequestToDNS (r : Resolver) : BufferWriter UInt8 (List (Option UInt8)) := do
  check fun b => packetSize r ≤ b.cells.length
  writeRequest r
  check fun b => b.p ≤ b.cells.length
  check fun b => b.p = packetSize r
  return (← get).cells.take (packetSize r)

/-- the buffer of the function, not written yet -/
def sendBuf : Buffer UInt8 := written sendBufSize []

/-! ## what is written -/

section
variable {n : ℕ} {hostName : Bytes}

theorem findDot_eq (hostName : Bytes) (pos : ℕ) :
    findDot hostName pos = pos + ((hostName.drop pos).takeWhile (· ≠ dot)).length := by
  have hidx : (hostName.drop pos).findIdx (· == dot) =
      ((hostName.drop pos).takeWhile (· ≠ dot)).length := by
    rw [List.takeWhile_eq_take_findIdx_not, List.length_take,
      Nat.min_eq_left List.findIdx_le_length]
    refine congrArg (fun f => (hostName.drop pos).findIdx f) (funext fun b => ?_)
    exact Bool.eq_iff_iff.mpr (by simp)
  rw [← hidx]
  rfl

theorem findDot_le (pos : ℕ) (h : pos ≤ hostName.length) :
    findDot hostName pos ≤ hostName.length := by
  have hidx : (hostName.drop pos).findIdx (· == dot) ≤ (hostName.drop pos).length :=
    List.findIdx_le_length
  rw [List.length_drop] at hidx
  unfold findDot
  omega

/-- The pointer stays in the buffer. -/
theorem appends_inBuffer : Appends n (check fun b : Buffer UInt8 => b.p ≤ b.cells.length) [] := by
  refine appends_check fun zs hz => decide_eq_true ?_
  rw [written_length hz]
  exact hz

theorem appends_bound {a k : ℕ} (h : a ≤ k) :
    Appends n (check fun _ : Buffer UInt8 => a ≤ k) [] :=
  appends_check fun _ _ => decide_eq_true h

/-- **The loop over the labels** writes each label behind its length. -/
theorem appends_writeLabels (hlen : hostName.length ≤ 253) {fuel pos : ℕ}
    (h : hostName.length ≤ fuel + pos) : Appends n (writeLabels hostName (fuel + 1) pos)
      ((hostLabelsLoop fuel (hostName.drop pos)).flatMap encodeLabel) := by
  induction fuel generalizing pos with
  | zero =>
    unfold writeLabels
    rw [if_neg (by omega)]
    exact appends_pure
  | succ fuel ih =>
    unfold writeLabels
    by_cases hpos : pos < hostName.length
    · have hne : hostName.drop pos ≠ [] := by
        intro hnil
        have := List.drop_eq_nil_iff.mp hnil
        omega
      have hdot := findDot_le pos hpos.le
      have hlabel : findDot hostName pos - pos =
          ((hostName.drop pos).takeWhile (· ≠ dot)).length := by
        rw [findDot_eq, Nat.add_sub_cancel_left]
      have htake : (hostName.drop pos).take (findDot hostName pos - pos) =
          (hostName.drop pos).takeWhile (· ≠ dot) := by
        rw [hlabel]
        exact List.prefix_iff_eq_take.mp (List.takeWhile_prefix _) |>.symm
      have hrest : (hostName.drop pos).drop (((hostName.drop pos).takeWhile (· ≠ dot)).length + 1) =
          hostName.drop (findDot hostName pos + 1) := by
        rw [List.drop_drop, findDot_eq, Nat.add_assoc]
      have hge : pos ≤ findDot hostName pos := Nat.le_add_right _ _
      rw [if_pos hpos]
      unfold hostLabelsLoop
      rw [if_neg hne]
      dsimp only
      rw [htake, hlabel, hrest, List.flatMap_cons]
      exact (appends_bound (by omega)).seq ((appends_bound (by omega)).seq
        ((appends_store _).seq ((appends_storeAll _).seq (appends_inBuffer.seq (ih (by omega))))))
    · have hnil : hostName.drop pos = [] := List.drop_eq_nil_of_le (by omega)
      rw [if_neg hpos, hnil]
      exact appends_pure

theorem appends_writeRequest {r : Resolver} (hlen : r.hostName.length ≤ 253) :
    Appends n (writeRequest r) (requestPacket r) := by
  have hlabels : Appends n (writeLabels r.hostName (r.hostName.length + 1) 0)
      ((hostLabels r.hostName).flatMap encodeLabel) := appends_writeLabels hlen (Nat.le_refl _)
  have hname : requestPacket r = serialize16be r.id ++ (serialize16be 0x100 ++ (serialize16be 1 ++
      (serialize16be 0 ++ (serialize16be 0 ++ (serialize16be 0 ++
        ((hostLabels r.hostName).flatMap encodeLabel ++ ([0] ++ (serialize16be r.recordType ++
          serialize16be 1)))))))) := by
    unfold requestPacket question encodeHostName
    rw [List.append_assoc ((hostLabels r.hostName).flatMap encodeLabel)]
  have hnum : ∀ x : UInt16, Appends n (storeAll (serialize16be x)) (serialize16be x) :=
    fun x => appends_storeAll _
  rw [hname]
  exact (hnum _).seq ((hnum _).seq ((hnum _).seq ((hnum _).seq ((hnum _).seq ((hnum _).seq
    (hlabels.seq ((appends_store 0).seq ((hnum _).seq (hnum _)))))))))

end

/-! ## how long it is -/

/-- the host name ends with a dot -/
def EndsWithDot (name : Bytes) : Prop := name.getLast? = some dot

instance (name : Bytes) : Decidable (EndsWithDot name) := inferInstanceAs (Decidable (_ = _))

theorem endsWithDot_cons {label rest : Bytes} (h : rest ≠ []) :
    EndsWithDot (label ++ dot :: rest) ↔ EndsWithDot rest := by
  unfold EndsWithDot
  rw [List.getLast?_append_cons, List.getLast?_cons_of_ne_nil h]

/-- The labels take one byte more than the host name, unless it ends with a dot. -/
theorem length_labels {name : Bytes} (hne : name ≠ []) :
    ((hostLabels name).flatMap encodeLabel).length =
      name.length + if EndsWithDot name then 0 else 1 := by
  induction hn : name.length using Nat.strong_induction_on generalizing name with
  | _ n ih =>
    rcases hostName_cases name with rfl | ⟨hdot, _, hl⟩ | ⟨label, rest, _, rfl, hl⟩
    · exact absurd rfl hne
    · have hend : ¬ EndsWithDot name := fun h => hdot (List.mem_of_getLast? h)
      rw [hl, if_neg hend, ← hn]
      show (UInt8.ofNat name.length :: name ++ []).length = _
      rw [List.append_nil]
      rfl
    · rw [List.length_append, List.length_cons] at hn
      rw [hl, List.flatMap_cons, List.length_append]
      show label.length + 1 + ((hostLabels rest).flatMap encodeLabel).length = _
      by_cases hrest : rest = []
      · subst hrest
        have hend : EndsWithDot (label ++ [dot]) := List.getLast?_concat
        rw [if_pos hend, ← hn]
        rfl
      · rw [ih rest.length (by omega) hrest rfl, if_congr (endsWithDot_cons hrest) rfl rfl]
        omega

theorem length_encodeHostName {name : Bytes} :
    (encodeHostName name).length = name.length + 2 ↔ name ≠ [] ∧ ¬ EndsWithDot name := by
  unfold encodeHostName
  rw [List.length_append, List.length_singleton]
  by_cases hne : name = []
  · subst hne
    exact iff_of_false (by decide) fun h => h.1 rfl
  · rw [length_labels hne]
    by_cases hend : EndsWithDot name
    · rw [if_pos hend]
      exact iff_of_false (by omega) fun h => h.2 hend
    · rw [if_neg hend]
      exact iff_of_true rfl ⟨hne, hend⟩

theorem length_requestPacket (r : Resolver) :
    (requestPacket r).length = 16 + (encodeHostName r.hostName).length := by
  unfold requestPacket question
  simp only [List.length_append]
  show 2 + (2 + (2 + (2 + (2 + (2 + ((encodeHostName r.hostName).length + (2 + 2))))))) = _
  omega

theorem requestPacket_le {r : Resolver} (hlen : r.hostName.length ≤ 253) :
    (requestPacket r).length ≤ packetSize r ∧ packetSize r ≤ sendBufSize := by
  have hname : (encodeHostName r.hostName).length ≤ r.hostName.length + 2 := by
    unfold encodeHostName
    rw [List.length_append, List.length_singleton]
    by_cases hne : r.hostName = []
    · rw [hne]
      decide
    · rw [length_labels hne]
      split <;> omega
  rw [length_requestPacket]
  unfold packetSize sendBufSize
  omega

/-! ## the run -/

section
variable {r : Resolver}

/-- **What `SendRequestToDNS` does.**  The bytes of the request stand at the start of the buffer; an
`ASSERT` fails if they are fewer than announced. -/
theorem sendRequestToDNS_eq (hlen : r.hostName.length ≤ 253) : sendRequestToDNS r sendBuf =
    .ok ((written sendBufSize (requestPacket r)).cells.take (packetSize r))
      { written sendBufSize (requestPacket r) with
        failed := (requestPacket r).length ≠ packetSize r } := by
  obtain ⟨hle, hsize⟩ := requestPacket_le hlen
  have hfirst : Appends sendBufSize (check fun b : Buffer UInt8 => packetSize r ≤ b.cells.length)
      [] := by
    refine appends_check fun zs hz => decide_eq_true ?_
    rw [written_length hz]
    exact hsize
  have hstart := hfirst.start (Nat.zero_le _)
  have hwrite := (appends_writeRequest hlen).start (hle.trans hsize)
  have hin := appends_inBuffer (requestPacket r) (hle.trans hsize)
  rw [List.append_nil] at hin
  show (check _ >>= fun _ => writeRequest r >>= fun _ => check _ >>= fun _ => _)
    (written sendBufSize []) = _
  rw [EStateM.bind_of_ok hstart, EStateM.bind_of_ok hwrite,
    EStateM.bind_of_ok hin]
  show EStateM.Result.ok _ { written sendBufSize (requestPacket r) with
    failed := false || !decide ((requestPacket r).length = packetSize r) } = _
  rw [Bool.false_or, ← decide_not]

end

/-! ## the packet that was announced -/

/-- Exactly `packetSize` bytes are written from the start of the buffer on, they are what the socket
gets, and no `ASSERT` fails. -/
def WritesPacket (r : Resolver) : Prop := ∃ bytes : Bytes, bytes.length = packetSize r ∧
  sendRequestToDNS r sendBuf = .ok (bytes.map some) (written sendBufSize bytes)

/-- The bytes of such a packet are the request. -/
theorem sendRequestToDNS_packet {r : Resolver} (hlen : r.hostName.length ≤ 253)
    (h : (requestPacket r).length = packetSize r) : sendRequestToDNS r sendBuf =
      .ok ((requestPacket r).map some) (written sendBufSize (requestPacket r)) := by
  rw [sendRequestToDNS_eq hlen, ← h, written_take, decide_eq_false (not_not.mpr rfl)]
  rfl

theorem writesPacket_iff_length {r : Resolver} (hlen : r.hostName.length ≤ 253) :
    WritesPacket r ↔ (encodeHostName r.hostName).length = r.hostName.length + 2 := by
  have hsize : (requestPacket r).length = packetSize r ↔
      (encodeHostName r.hostName).length = r.hostName.length + 2 := by
    rw [length_requestPacket]
    unfold packetSize
    omega
  rw [← hsize]
  constructor
  · rintro ⟨bytes, _, hrun⟩
    rw [sendRequestToDNS_eq hlen] at hrun
    have hfailed := congrArg (fun res => res.state.failed) hrun
    exact not_not.mp (of_decide_eq_false hfailed)
  · intro h
    exact ⟨requestPacket r, h, sendRequestToDNS_packet hlen h⟩

/-- **The packet is the one that was announced** if and only if the host name is not empty and does
not end with a dot. -/
theorem writesPacket_iff {r : Resolver} (hlen : r.hostName.length ≤ 253) :
    WritesPacket r ↔ r.hostName ≠ [] ∧ ¬ EndsWithDot r.hostName :=
  (writesPacket_iff_length hlen).trans length_encodeHostName

/-- the request for a host name -/
def requestFor (hostName : Bytes) : Resolver where
  addr := 0
  hnr := 0
  hostName := hostName
  recordType := recordAAAA
  timeMap := .byTime1
  timeMapIter := 0
  id := 0
  idIter := 0
  sendIter := none
  dns := Address.unset

/-- the packet for "a.b" -/
theorem writesPacket_iff_ab : (requestFor [97, dot, 98]).hostName.length ≤ 253 ∧
    WritesPacket (requestFor [97, dot, 98]) :=
  ⟨by decide, (writesPacket_iff (by decide)).mpr (by decide)⟩

/-- For "a." the packet is one byte short of `packetSize`. -/
theorem writesPacket_rooted : ¬ ∀ r : Resolver, r.hostName.length ≤ 253 → WritesPacket r := by
  intro h
  have hlength := (writesPacket_iff_length (by decide)).mp (h (requestFor [97, dot]) (by decide))
  exact absurd hlength (by decide)

/-- The last byte that the socket gets for such a name was never written. -/
theorem sendRequestToDNS_unwritten {r : Resolver} (hlen : r.hostName.length ≤ 253)
    (h : r.hostName = [] ∨ EndsWithDot r.hostName) :
    ∃ b, sendRequestToDNS r sendBuf = .ok ((requestPacket r).map some ++ [none]) b := by
  have hshort : (encodeHostName r.hostName).length = r.hostName.length + 1 := by
    unfold encodeHostName
    rw [List.length_append, List.length_singleton]
    rcases h with h | h
    · rw [h]
      rfl
    · have hne : r.hostName ≠ [] := by
        intro hnil
        rw [hnil] at h
        cases h
      rw [length_labels hne, if_pos h]
  have hsize : packetSize r = (requestPacket r).length + 1 := by
    rw [length_requestPacket, hshort]
    unfold packetSize
    omega
  have hbuf := (requestPacket_le hlen).2
  refine ⟨_, (sendRequestToDNS_eq hlen).trans (congrArg (EStateM.Result.ok · _) ?_)⟩
  show ((requestPacket r).map some ++ List.replicate _ none).take _ = _
  rw [hsize, List.take_append, List.length_map, List.take_of_length_le
    (by rw [List.length_map]; omega), Nat.add_sub_cancel_left, List.take_replicate,
    Nat.min_eq_left (by omega)]
  rfl

/-! ## reading the name back -/

/-- the loop over the labels and the zero byte after it -/
theorem appends_hostName {n : ℕ} {hostName : Bytes} (hlen : hostName.length ≤ 253) :
    Appends n (do writeLabels hostName (hostName.length + 1) 0; store 0)
      (encodeHostName hostName) :=
  (appends_writeLabels hlen (Nat.le_refl _)).seq (appends_store 0)

/-- **The name that was written is read back**, and the pointer is left behind its zero byte, if and
only if the name is empty or has no empty label.  Whatever stands before and after it does not
matter. -/
theorem parse_writtenName_iff {name : Bytes} (hlen : name.length ≤ 253) (before rest : Bytes) :
    parseHostNameFromDNSPacket (before ++ (encodeHostName name ++ rest)) before.length
      (before ++ (encodeHostName name ++ rest)).length =
        some (name, before.length + (encodeHostName name).length) ↔
      name = [] ∨ NoEmptyLabel name := by
  have hat : Span.At (before ++ (encodeHostName name ++ rest)) before.length
      (encodeHostName name) := Span.at_append before (encodeHostName name) rest
  have hstop : before.length + (encodeHostName name).length ≤
      (before ++ (encodeHostName name ++ rest)).length := by
    rw [List.length_append, List.length_append]
    omega
  have hlt : name.length < 256 := by omega
  constructor
  · intro h
    exact (parse_encodeHostName_iff hlt hat hstop).mp ⟨_, h⟩
  · intro h
    have hread : readableLabels name = hostLabels name := by
      rcases h with rfl | h
      · rfl
      · obtain ⟨hall, _⟩ := hostLabels_of_noEmptyLabel h
        exact List.takeWhile_eq_self_iff.mpr fun l hl => decide_eq_true (hall l hl)
    obtain ⟨q, hq⟩ := (parse_encodeHostName_iff hlt hat hstop).mpr h
    rw [parse_encodeHostName hlt hat hstop] at hq ⊢
    have hname := (Prod.mk.inj (Option.some.inj hq)).1
    rw [hname, hread]
    refine congrArg (fun q => some (name, q)) ?_
    show _ = before.length + ((hostLabels name).flatMap encodeLabel ++ [0]).length
    rw [List.length_append, List.length_singleton, Nat.add_assoc]

/-- The name "a" is read back in front of two more bytes. -/
theorem parse_writtenName_iff_a :
    parseHostNameFromDNSPacket ([] ++ (encodeHostName [97] ++ [1, 2])) 0 5 = some ([97], 3) :=
  (parse_writtenName_iff (by decide) [] [1, 2]).mpr (Or.inr (by decide))

end Setka
