import Setka.Dns.FirstAnswer
import Setka.Dns.Replies

/-!
# What a name server says

A zone is what the name servers say about every name and record type.  It knows nothing of
requests, ids and packets.

* `answerIn`           what the records of an answer section say about a type;
* `Zone.answer`        the answer to one query;
* `Zone.lookup`        what a lookup is for: the IPv6 address of a name and, if the name has none,
                       its IPv4 address;
* `Zone.read`          what a request makes of a reply to a query for another type;
* `Zone.Replies`       the datagrams a server of the zone replies with;
* `Zone.Replies.parse`   `ParseReplyFromDNS` reads such a datagram as `Zone.read` says.
-/

namespace Setka

open Span

/-! ## the answer of a zone -/

/-- The parser can step over the owner name, and an address has the length of its type. -/
structure Record.Usual (rec : Record) : Prop where
  owner : rec.owner.Skippable
  lengthA : rec.type = recordA → rec.data.length = 4
  lengthAAAA : rec.type = recordAAAA → rec.data.length = 16

/-- what the records of an answer section say: the address in the first one of the type, "not
found" if there are no records at all -/
def answerIn (type : UInt16) (recs : List Record) : ParseResult :=
  if recs = [] then { result := .notFound }
  else match recs.find? (fun a => a.type == type) with
    | some a => ⟨.ok, addressOf type a.data⟩
    | none => { result := .dnsError }

/-- What the servers say about a name and a record type; `none` is the error "no such name". -/
structure Zone where
  answers : Bytes → UInt16 → Option (List Record)
  usual : ∀ name type, ∀ recs ∈ answers name type, ∀ a ∈ recs, a.Usual

namespace Zone

def answer (zone : Zone) (name : Bytes) (type : UInt16) : ParseResult :=
  match zone.answers name type with
  | none => { result := .notFound }
  | some recs => answerIn type recs

/-- the AAAA record of a name, and its A record if there is none -/
def lookup (zone : Zone) (name : Bytes) : ParseResult :=
  if (zone.answer name recordAAAA).result = .notFound then zone.answer name recordA
  else zone.answer name recordAAAA

/-- What a request for the type `wanted` reads in a reply to a query for `type`: the question is
looked at only if there are records. -/
def read (zone : Zone) (name : Bytes) (type wanted : UInt16) : ParseResult :=
  if (zone.answer name type).result = .notFound ∨ type = wanted then zone.answer name type
  else { result := .dnsError }

end Zone

theorem answerIn_notFound {type : UInt16} {recs : List Record} :
    (answerIn type recs).result = .notFound ↔ recs = [] := by
  unfold answerIn
  by_cases hnil : recs = []
  · rw [if_pos hnil]
    exact iff_of_true rfl hnil
  · rw [if_neg hnil]
    refine iff_of_false (fun h => ?_) hnil
    split at h <;> cases h

/-- There is one answer "not found". -/
theorem Zone.answer_notFound {zone : Zone} {name : Bytes} {type : UInt16}
    (h : (zone.answer name type).result = .notFound) :
    zone.answer name type = { result := .notFound } := by
  unfold Zone.answer at h ⊢
  cases hrecs : zone.answers name type with
  | none => rfl
  | some recs =>
    rw [hrecs] at h
    rw [answerIn_notFound.mp h]
    rfl

section
variable {zone : Zone} {name : Bytes} {type wanted : UInt16}

theorem Zone.read_self : zone.read name type type = zone.answer name type :=
  if_pos (.inr rfl)

/-- Only the reply to a query for the type gives an address. -/
theorem Zone.type_eq_of_read_ok (h : (zone.read name type wanted).result = .ok) :
    type = wanted := by
  unfold Zone.read at h
  split at h
  · rename_i hc
    refine hc.resolve_left fun hnot => ?_
    cases h.symm.trans hnot
  · cases h

end

/-! ## the walk over the answers -/

section
variable {mem tail : Bytes} {p size : ℕ} {type : UInt16} {recs : List Record}

/-- Without a record of the type the walk comes to the end of the answers. -/
theorem parseAnswers_noRecord (hskip : ∀ a ∈ recs, a.owner.Skippable)
    (hnone : ∀ a ∈ recs, a.type ≠ type) (hat : At mem p (recs.flatMap Record.encode ++ tail))
    (hsize : p + (recs.flatMap Record.encode).length ≤ size) :
    parseAnswers type mem size recs.length p = some { result := .dnsError } := by
  induction recs generalizing p with
  | nil => rfl
  | cons a recs ih =>
    obtain ⟨howner, hskip⟩ := List.forall_mem_cons.mp hskip
    obtain ⟨hne, hnone⟩ := List.forall_mem_cons.mp hnone
    rw [List.flatMap_cons, List.length_append] at hsize
    rw [List.flatMap_cons, List.append_assoc] at hat
    rw [List.length_cons, parseAnswers_record howner hat (by omega), if_neg hne]
    exact ih hskip hnone hat.right (by omega)

/-- **The walk reads an answer section** as what its records say. -/
theorem parseAnswers_answerIn (htype : type = recordA ∨ type = recordAAAA) (hne : recs ≠ [])
    (husual : ∀ a ∈ recs, a.Usual) (hat : At mem p (recs.flatMap Record.encode ++ tail))
    (hsize : p + (recs.flatMap Record.encode).length ≤ size) :
    parseAnswers type mem size recs.length p = some (answerIn type recs) := by
  have hskip : ∀ a ∈ recs, a.owner.Skippable := fun a ha => (husual a ha).owner
  unfold answerIn
  rw [if_neg hne]
  cases hfind : recs.find? (fun a => a.type == type) with
  | none =>
    rw [List.find?_eq_none] at hfind
    exact parseAnswers_noRecord hskip (fun a ha heq => hfind a ha (beq_iff_eq.mpr heq)) hat hsize
  | some a =>
    obtain ⟨ha, before, after, rfl, hbefore⟩ := List.find?_eq_some_iff_append.mp hfind
    have hrec : a.type = type := beq_iff_eq.mp ha
    have hlengths := husual a (List.mem_append_right _ List.mem_cons_self)
    have hdata : type = recordA ∧ a.data.length = 4 ∨ type = recordAAAA ∧ a.data.length = 16 :=
      htype.imp (fun h => ⟨h, hlengths.lengthA (hrec.trans h)⟩)
        fun h => ⟨h, hlengths.lengthAAAA (hrec.trans h)⟩
    obtain ⟨q, hq, hwalk⟩ := parseAnswers_records hskip
      (fun b hb heq => by simpa [heq] using hbefore b hb) hrec hat hsize
    rw [hwalk, answerHost_data hq hdata]

end

/-! ## the replies of a server -/

/-- A reply with the error "no such name".  `rest` are the authority and the additional records. -/
structure NameError where
  id : UInt16
  flags : UInt16
  name : Bytes
  type : UInt16
  authorities : UInt16
  additionals : UInt16
  rest : Bytes
  is_response : flags &&& 0x8000 ≠ 0
  name_error : flags &&& 0xf = 3

def NameError.encode (err : NameError) : Bytes :=
  serialize16be err.id ++ (serialize16be err.flags ++ (serialize16be 1 ++
    (serialize16be 0 ++ (serialize16be err.authorities ++
      (serialize16be err.additionals ++ (question err.name err.type ++ err.rest))))))

theorem header_nameError {mem : Bytes} {err : NameError} (hat : At mem 0 err.encode) :
    header mem = some .notFound := by
  have hflags : deserialize16be mem 2 = some err.flags := deserialize16be_at hat.right.left
  unfold header
  rw [hflags]
  show (if err.flags &&& 0x8000 = 0 then _ else if err.flags &&& 0xf ≠ 0 then
    if err.flags &&& 0xf = 3 then _ else _ else _) = _
  rw [if_neg err.is_response, if_pos (err.name_error.trans_ne (by decide)), if_pos err.name_error]

/-- a name a query can ask for: no empty label, and a length that `resolve()` accepts -/
structure ProperName (name : Bytes) : Prop where
  labels : NoEmptyLabel name
  length_le : name.length ≤ 253

/-- The datagram is what a server of the zone replies to a query for the name and the type. -/
inductive Zone.Replies (zone : Zone) (d : Datagram) (name : Bytes) (type : UInt16) : Prop
  | records (reply : Reply) : d.bytes = reply.encode → reply.name = name → reply.type = type →
      zone.answers name type = some reply.answers → zone.Replies d name type
  | nameError (err : NameError) : d.bytes = err.encode → err.name = name → err.type = type →
      zone.answers name type = none → zone.Replies d name type

namespace Zone.Replies
variable {zone : Zone} {d : Datagram} {name : Bytes} {type : UInt16}

theorem at_bytes {xs : Bytes} (h : d.bytes = xs) : At d.bytes 0 xs := by
  rw [h]
  exact List.prefix_refl _

theorem at_buf {xs : Bytes} (h : d.bytes = xs) : At d.buf 0 xs :=
  (at_bytes h).of_take

/-- What is found in the received bytes ends in them. -/
theorem end_le {p : ℕ} {xs : Bytes} (h : At d.bytes p xs) (hne : xs ≠ []) :
    p + xs.length ≤ d.size := by
  have hle := h.length_le
  have hpos := List.length_pos_iff.mpr hne
  unfold Datagram.bytes at hle
  rw [List.length_drop, List.length_take, d.buf_length, Nat.min_eq_left d.size_le] at hle
  omega

theorem question_ne_nil : question name type ≠ [] := by
  unfold question
  exact List.append_ne_nil_of_right_ne_nil _ (List.cons_ne_nil _ _)

/-- The question comes back. -/
theorem at_question (h : zone.Replies d name type) : At d.bytes 12 (question name type) := by
  cases h with
  | records reply hb hn ht => exact hn ▸ ht ▸ Setka.at_question (at_bytes hb)
  | nameError err hb hn ht =>
    exact hn ▸ ht ▸ (at_bytes hb).right.right.right.right.right.right.left

/-- The header says "not found" if and only if the zone does. -/
theorem header_eq (h : zone.Replies d name type) :
    header d.buf = some .notFound ↔ (zone.answer name type).result = .notFound := by
  cases h with
  | records reply hb _ _ hz =>
    rw [header_reply (at_buf hb)]
    unfold Zone.answer
    rw [hz]
    refine Iff.trans ?_ answerIn_notFound.symm
    by_cases hnil : reply.answers = []
    · rw [if_pos hnil]
      exact iff_of_true rfl hnil
    · rw [if_neg hnil]
      exact iff_of_false nofun hnil
  | nameError err hb _ _ hz =>
    rw [header_nameError (at_buf hb)]
    unfold Zone.answer
    rw [hz]
    exact iff_of_true rfl rfl

theorem encodes_ne_nil {recs : List Record} (hne : recs ≠ []) :
    recs.flatMap Record.encode ≠ [] := by
  obtain ⟨a, rest, rfl⟩ := List.exists_cons_of_ne_nil hne
  have hpos := a.owner.encode_pos
  rw [← List.length_pos_iff, List.flatMap_cons, List.length_append, a.encode_length]
  omega

section
variable (hn : ProperName name)
include hn

/-- The name of the question is read back, with either end of the buffer. -/
theorem parse_name (h : zone.Replies d name type) {stop : ℕ} (hstop : d.size ≤ stop) :
    parseHostNameFromDNSPacket d.buf 12 stop =
      some (name, 12 + (encodeHostName name).length) := by
  have hname : At d.bytes 12 (encodeHostName name) := h.at_question.left
  have hle := end_le hname (List.append_ne_nil_of_right_ne_nil _ (List.cons_ne_nil _ _))
  exact parse_noEmptyLabel (hn.length_le.trans_lt (by decide)) hn.labels hname.of_take (by omega)

/-- The datagram is taken for a reply of requests for its name only. -/
theorem hostName_eq (h : zone.Replies d name type) {tb : Tables} {r : Resolver}
    (hm : matchedRequest tb d = some r) : r.hostName = name := by
  unfold matchedRequest at hm
  split at hm
  · cases hm
  · obtain ⟨id, _, hm⟩ := Option.bind_eq_some_iff.mp hm
    obtain ⟨p, _, hm⟩ := Option.bind_eq_some_iff.mp hm
    obtain ⟨r', _, hm⟩ := Option.bind_eq_some_iff.mp hm
    rw [h.parse_name hn d.size_le] at hm
    dsimp only [Option.bind_eq_bind, Option.bind_some] at hm
    split at hm
    · rename_i heq
      cases hm
      exact heq.symm
    · cases hm

/-- **What `ParseReplyFromDNS` makes of a reply of the zone.** -/
theorem parse (h : zone.Replies d name type) {r : Resolver} (hr : r.hostName = name)
    (htype : r.recordType = recordAAAA ∨ r.recordType = recordA) :
    parseReplyFromDNS r d.buf d.size = some (zone.read name type r.recordType) := by
  have hat : At d.buf 12 (question name type) := h.at_question.of_take
  have hsize := end_le h.at_question question_ne_nil
  unfold Zone.read
  rw [parseReplyFromDNS_eq (by omega)]
  by_cases hnot : (zone.answer name type).result = .notFound
  · rw [h.header_eq.mpr hnot, if_pos (.inl hnot), Zone.answer_notFound hnot]
    rfl
  · cases h with
    | nameError err hb hn' ht hz =>
      exact absurd ((nameError err hb hn' ht hz).header_eq.mp (header_nameError (at_buf hb))) hnot
    | records reply hb hn' ht hz =>
      have hanswer : zone.answer name type = answerIn type reply.answers := by
        unfold Zone.answer
        rw [hz]
      rw [hanswer] at hnot ⊢
      have hne : reply.answers ≠ [] := fun hnil => hnot (answerIn_notFound.mpr hnil)
      have hcount : (UInt16.ofNat reply.answers.length).toNat = reply.answers.length := by
        rw [UInt16.toNat_ofNat']
        exact Nat.mod_eq_of_lt reply.answers_length
      have hparse := (records reply hb hn' ht hz).parse_name hn (Nat.le_refl _)
      rw [← hr] at hparse
      rw [header_reply (at_buf hb), if_neg hne, Option.bind_some]
      show parseBody r d.buf d.size _ = _
      rw [parseBody_eq hparse, hr, deserialize16be_at hat.right.left, Option.bind_some]
      by_cases heq : type = r.recordType
      · have hcls : deserialize16be d.buf (12 + (encodeHostName name).length + 2) = some 1 :=
          deserialize16be_at hat.right.right
        have hrecords : At d.bytes (12 + (question reply.name reply.type).length)
            (reply.answers.flatMap Record.encode ++ reply.rest) :=
          (at_bytes hb).right.right.right.right.right.right.right
        have hlen : (question reply.name reply.type).length = (encodeHostName name).length + 4 := by
          rw [hn']
          unfold question
          rw [List.length_append]
          rfl
        rw [hlen, ← Nat.add_assoc] at hrecords
        rw [if_neg (not_not.mpr heq), hcls, Option.bind_some, if_neg (not_not.mpr rfl),
          if_pos (.inr heq), hcount, ← heq]
        refine parseAnswers_answerIn (heq ▸ htype.symm) hne (zone.usual name type _ hz)
          hrecords.of_take ?_
        exact end_le hrecords.left (encodes_ne_nil hne)
      · rw [if_pos heq, if_neg (not_or.mpr ⟨hnot, heq⟩)]

end
end Zone.Replies
end Setka
