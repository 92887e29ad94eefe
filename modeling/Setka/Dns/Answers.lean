import Setka.Dns.Ids
import Setka.Dns.Query

/-!
# Well-formed replies

A reply of a server: the header, the question of the query, the answer records, and whatever comes
after them.

* `DomainName`, `Record`, `Reply`   the format; what makes them well-formed are fields of theirs;
* `header_reply`        what the header of a reply is read as;
* `recvAction_reply_iff`   the replies that move a request to the A record.
-/

namespace Setka

open Span Tables

/-! ## the format -/

def serialize32be (x : UInt32) : Bytes :=
  serialize16be (UInt16.ofNat (x.toNat / 65536)) ++ serialize16be (UInt16.ofNat x.toNat)

/-- a domain name: labels, and at their end a zero byte or a pointer to another name -/
structure DomainName where
  labels : List Bytes
  pointer : Option UInt16
  labels_length : ∀ l ∈ labels, 1 ≤ l.length ∧ l.length ≤ 63
  pointer_lt : ∀ p ∈ pointer, p.toNat < 0x4000

def DomainName.encode (name : DomainName) : Bytes :=
  name.labels.flatMap encodeLabel ++
    match name.pointer with
    | none => [0]
    | some p => serialize16be (0xc000 ||| p)

/-- the name that is a pointer only -/
def DomainName.ofPointer (p : UInt16) (h : p.toNat < 0x4000) : DomainName :=
  ⟨[], some p, nofun, fun _ hp => Option.mem_some_iff.mp hp ▸ h⟩

/-- a resource record of class IN -/
structure Record where
  owner : DomainName
  type : UInt16
  ttl : UInt32
  data : Bytes
  data_length : data.length < 65536

def Record.encode (rec : Record) : Bytes :=
  rec.owner.encode ++ (serialize16be rec.type ++ (serialize16be 1 ++ (serialize32be rec.ttl ++
    (serialize16be (UInt16.ofNat rec.data.length) ++ rec.data))))

/-- A reply without an error.  `rest` are the authority and the additional records. -/
structure Reply where
  id : UInt16
  flags : UInt16
  name : Bytes
  type : UInt16
  answers : List Record
  authorities : UInt16
  additionals : UInt16
  rest : Bytes
  is_response : flags &&& 0x8000 ≠ 0
  no_error : flags &&& 0xf = 0
  answers_length : answers.length < 65536

def Reply.encode (reply : Reply) : Bytes :=
  serialize16be reply.id ++ (serialize16be reply.flags ++ (serialize16be 1 ++
    (serialize16be (UInt16.ofNat reply.answers.length) ++ (serialize16be reply.authorities ++
      (serialize16be reply.additionals ++ (question reply.name reply.type ++
        (reply.answers.flatMap Record.encode ++ reply.rest)))))))

/-- the record "CNAME" with a pointer to the question as its owner -/
def cname : Record where
  owner := .ofPointer 12 (by decide)
  type := 5
  ttl := 60
  data := [1, 98, 0]
  data_length := by decide

/-- a reply to the AAAA query with id 0 for the host "a" -/
def replyTo (answers : List Record) (h : answers.length < 65536) : Reply where
  id := 0
  flags := 0x8180
  name := [97]
  type := recordAAAA
  answers := answers
  authorities := 0
  additionals := 0
  rest := []
  is_response := by decide
  no_error := by decide
  answers_length := h

/-! ## reading a reply -/

section
variable {mem : Bytes} {reply : Reply} (hat : At mem 0 reply.encode)
include hat

theorem at_question : At mem 12 (question reply.name reply.type) :=
  hat.right.right.right.right.right.right.left

/-- **The header of a reply** says "not found" if and only if there are no answers. -/
theorem header_reply : header mem = some (if reply.answers = [] then .notFound
    else .answers (UInt16.ofNat reply.answers.length)) := by
  have hflags : deserialize16be mem 2 = some reply.flags := deserialize16be_at hat.right.left
  have hquestions : deserialize16be mem 4 = some 1 := deserialize16be_at hat.right.right.left
  have hanswers : deserialize16be mem 6 = some (UInt16.ofNat reply.answers.length) :=
    deserialize16be_at hat.right.right.right.left
  have hzero : UInt16.ofNat reply.answers.length = 0 ↔ reply.answers = [] := by
    rw [← UInt16.toNat_inj, UInt16.toNat_ofNat', Nat.mod_eq_of_lt reply.answers_length]
    exact List.length_eq_zero_iff
  unfold header
  rw [hflags]
  show (if reply.flags &&& 0x8000 = 0 then _ else if reply.flags &&& 0xf ≠ 0 then _ else _) = _
  rw [if_neg reply.is_response, if_neg (not_not.mpr reply.no_error), hquestions]
  show (deserialize16be mem 6).bind (fun n =>
    if n = 0 then some Header.notFound else some (.answers n)) = _
  rw [hanswers]
  show (if UInt16.ofNat reply.answers.length = 0 then _ else _) = _
  by_cases hnil : reply.answers = []
  · rw [if_pos (hzero.mpr hnil), if_pos hnil]
  · rw [if_neg (hzero.not.mpr hnil), if_neg hnil]

end

section
variable {d : Datagram} {reply : Reply} (h : d.bytes = reply.encode)
include h

theorem at_reply : At d.buf 0 reply.encode := by
  have hat : At (d.buf.take d.size) 0 reply.encode := by
    rw [← h]
    exact List.prefix_refl _
  exact hat.of_take

/-- The name of a question lies in the buffer. -/
theorem question_le : 12 + (encodeHostName reply.name).length ≤ bufSize ∧ 13 ≤ d.size := by
  have hlen : reply.encode.length ≤ d.size := by
    rw [← h]
    unfold Datagram.bytes
    rw [List.length_take]
    exact Nat.min_le_left _ _
  have hsum : reply.encode.length = 12 + ((encodeHostName reply.name).length + 4 +
      (reply.answers.flatMap Record.encode ++ reply.rest).length) := by
    unfold Reply.encode question
    rw [List.length_append, List.length_append, List.length_append, List.length_append,
      List.length_append, List.length_append, List.length_append, List.length_append]
    show 2 + (2 + (2 + (2 + (2 + (2 + (_ + 4 + _)))))) = _
    omega
  have hsize := d.size_le
  omega

variable {tb : Tables} {r : Resolver} (hl : Linked tb) (hi : IdsApart tb) (hr : r ∈ tb.resolvers)
  (hid : reply.id = r.id) (hname : reply.name = r.hostName) (hlen : r.hostName.length < 256)
include hl hi hr hid hname hlen

/-- **What moves a request to the A record:** a reply without answers, if the host name can be read
back. -/
theorem recvAction_reply_iff : recvAction tb d.buf d.size = some (.requeue r) ↔
    reply.answers = [] ∧ (r.hostName = [] ∨ NoEmptyLabel r.hostName) ∧
      r.recordType = recordAAAA := by
  obtain ⟨hstop, hsize⟩ := question_le h
  have hparse := parse_encodeHostName_iff (hname ▸ hlen) (at_question (at_reply h)).left hstop
  rw [hname] at hparse
  have hhead := header_reply (at_reply h)
  constructor
  · intro ha
    rcases recvAction_eq_some ha with ha | ⟨id, p, r', q, res, _, _, _, hr', hhost, hres, ha⟩
    · cases ha
    · split at ha
      case isFalse => cases ha
      case isTrue hc =>
        cases ha
        refine ⟨?_, hparse.mp ⟨q, hhost⟩, hc.2⟩
        have hnf : header d.buf = some .notFound := by
          rcases parseReplyFromDNS_result hres with ⟨_, hnf⟩ | hok | herr
          · exact hnf
          · rw [hok] at hc
            cases hc.1
          · rw [herr] at hc
            cases hc.1
        rw [hhead] at hnf
        by_contra hne
        rw [if_neg hne] at hnf
        cases hnf
  · rintro ⟨hnil, hn, htype⟩
    obtain ⟨q, hq⟩ := hparse.mpr hn
    rw [if_pos hnil] at hhead
    have hid' : deserialize16be d.buf 0 = some r.id := by
      rw [← hid]
      exact deserialize16be_at (at_reply h).left
    have hres : parseReplyFromDNS r d.buf d.size = some { result := .notFound } := by
      rw [parseReplyFromDNS_eq (by omega), hhead]
      rfl
    unfold recvAction
    rw [if_neg (Nat.not_lt.mpr hsize), hid', Option.bind_eq_bind, Option.bind_some]
    dsimp only
    rw [findId_of_mem hl hi hr]
    show (tb.deref r.addr).bind _ = _
    rw [deref_of_mem hl hr]
    show (parseHostNameFromDNSPacket d.buf 12 bufSize).bind _ = _
    rw [hq]
    show (if r.hostName ≠ r.hostName then _ else _) = _
    rw [if_neg (not_not.mpr rfl), hres]
    exact if_pos ⟨rfl, htype⟩

end

end Setka
