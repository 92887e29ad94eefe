import Setka.Dns.Packet

/-!
# The query packet in the eyes of a server

The message format of RFC 1035, which the code cites for its buffers, as a decoder of its own.  A
length byte from 1 to 63 starts a label, the two top bits 11 start a compression pointer, 01 and 10
are reserved, and zero ends a name.  `ParseHostNameFromDNSPacket` takes every byte but zero for the
length of a label.

* `Message.decode`      the header, as many questions as it announces, and what is left over;
* `decode_requestPacket_iff`   for a host name without an empty label, the decoder reads the one
                        question that was meant if and only if no label is longer than 63 bytes.
-/

namespace Setka

/-! ## the decoder -/

structure Question where
  name : List Bytes
  type : UInt16
  cls : UInt16
deriving DecidableEq, Repr

structure Message where
  id : UInt16
  flags : UInt16
  questions : List Question
  answers : UInt16
  authorities : UInt16
  additionals : UInt16
  /-- the bytes after the questions -/
  rest : Bytes
deriving DecidableEq, Repr

/-- The labels of a name, and the position after the name.  Every step takes a unit of `fuel`; a
pointer ends the name, and its labels go on at the offset it gives. -/
def readName (msg : Bytes) : ℕ → ℕ → Option (List Bytes × ℕ)
  | 0, _ => none
  | fuel + 1, p => do
    let len ← msg[p]?
    if len = 0 then some ([], p + 1)
    else if len < 64 then do
      let label ← readBytes msg (p + 1) len.toNat
      let (labels, q) ← readName msg fuel (p + 1 + len.toNat)
      some (label :: labels, q)
    else if len < 192 then none
    else do
      let low ← msg[p + 1]?
      let (labels, _) ← readName msg fuel ((len.toNat - 192) * 256 + low.toNat)
      some (labels, p + 2)

/-- A name that ends visits no byte of the message twice. -/
def Question.read (msg : Bytes) (p : ℕ) : Option (Question × ℕ) := do
  let (name, p) ← readName msg (msg.length + 1) p
  let type ← deserialize16be msg p
  let cls ← deserialize16be msg (p + 2)
  some (⟨name, type, cls⟩, p + 4)

def readQuestions (msg : Bytes) : ℕ → ℕ → Option (List Question × ℕ)
  | 0, p => some ([], p)
  | n + 1, p => do
    let (q, p) ← Question.read msg p
    let (qs, p) ← readQuestions msg n p
    some (q :: qs, p)

def Message.decode (msg : Bytes) : Option Message := do
  let id ← deserialize16be msg 0
  let flags ← deserialize16be msg 2
  let count ← deserialize16be msg 4
  let answers ← deserialize16be msg 6
  let authorities ← deserialize16be msg 8
  let additionals ← deserialize16be msg 10
  let (questions, p) ← readQuestions msg count.toNat 12
  some ⟨id, flags, questions, answers, authorities, additionals, msg.drop p⟩

/-! ## names -/

section
open Span
variable {msg tail : Bytes} {labels : List Bytes} {p fuel : ℕ}

/-- the labels a server can read -/
def ShortLabels (labels : List Bytes) : Prop := ∀ l ∈ labels, l ≠ [] ∧ l.length ≤ 63

theorem readName_succ : readName msg (fuel + 1) p = msg[p]?.bind fun len =>
    if len = 0 then some ([], p + 1)
    else if len < 64 then (readBytes msg (p + 1) len.toNat).bind fun label =>
      (readName msg fuel (p + 1 + len.toNat)).bind fun (labels, q) => some (label :: labels, q)
    else if len < 192 then none
    else msg[p + 1]?.bind fun low =>
      (readName msg fuel ((len.toNat - 192) * 256 + low.toNat)).bind fun (labels, _) =>
        some (labels, p + 2) := rfl

/-- the length byte of a label -/
theorem toNat_length {label : Bytes} (h : label.length < 256) :
    (UInt8.ofNat label.length).toNat = label.length := by
  rw [UInt8.toNat_ofNat']
  omega

theorem length_ne_zero {label : Bytes} (hne : label ≠ []) (h : label.length < 256) :
    UInt8.ofNat label.length ≠ 0 := by
  intro hz
  have hlen := toNat_length h
  rw [hz] at hlen
  exact hne (List.eq_nil_of_length_eq_zero hlen.symm)

/-- Short labels are read one after another. -/
theorem readName_short (h : ShortLabels labels)
    (hat : At msg p (labels.flatMap encodeLabel ++ 0 :: tail)) (hfuel : labels.length < fuel) :
    readName msg fuel p = some (labels, p + (labels.flatMap encodeLabel).length + 1) := by
  induction labels generalizing p fuel with
  | nil =>
    obtain ⟨fuel, rfl⟩ := Nat.exists_eq_succ_of_ne_zero hfuel.ne'
    rw [readName_succ, hat.head]
    rfl
  | cons label labels ih =>
    obtain ⟨fuel, rfl⟩ := Nat.exists_eq_succ_of_ne_zero (Nat.ne_of_gt (Nat.zero_lt_of_lt hfuel))
    obtain ⟨⟨hne, hshort⟩, hrest⟩ := List.forall_mem_cons.mp h
    rw [List.flatMap_cons, List.append_assoc] at hat
    have hlen := toNat_length (show label.length < 256 by omega)
    have hlt : UInt8.ofNat label.length < 64 := by
      rw [UInt8.lt_iff_toNat_lt, hlen]
      exact Nat.lt_succ_of_le hshort
    have hlabel : At msg (p + 1) label := hat.tail.left
    have hmem : p + 1 + label.length ≤ msg.length := by
      have := hat.left.le
      omega
    have hread : readBytes msg (p + 1) label.length = some label := by
      unfold readBytes
      rw [if_pos hmem, hlabel.take]
    have hnext : p + 1 + label.length = p + (encodeLabel label).length := by
      show p + 1 + label.length = p + (label.length + 1)
      omega
    rw [readName_succ, hat.head, Option.bind_some, if_neg (length_ne_zero hne (by omega)),
      if_pos hlt, hlen, hread, Option.bind_some, hnext,
      ih hrest hat.right (Nat.lt_of_succ_lt_succ hfuel), Option.bind_some, List.flatMap_cons,
      List.length_append, Nat.add_assoc p]

/-- **Behind a long label** the name ends early, if it is read at all: what is taken for a pointer
has two bytes. -/
theorem readName_long (h : ∀ l ∈ labels, l ≠ [] ∧ l.length < 256)
    (hlong : ∃ l ∈ labels, 63 < l.length) (hat : At msg p (labels.flatMap encodeLabel ++ tail))
    {names : List Bytes} {q : ℕ} (hread : readName msg fuel p = some (names, q)) :
    q < p + (labels.flatMap encodeLabel).length := by
  induction labels generalizing p fuel names q with
  | nil =>
    obtain ⟨l, hl, _⟩ := hlong
    exact absurd hl List.not_mem_nil
  | cons label labels ih =>
    cases fuel with
    | zero => cases hread
    | succ fuel =>
      obtain ⟨⟨hne, hlt⟩, hrest⟩ := List.forall_mem_cons.mp h
      rw [List.flatMap_cons, List.append_assoc] at hat
      have hlen := toNat_length hlt
      have hstep : (encodeLabel label).length = label.length + 1 := rfl
      rw [List.flatMap_cons, List.length_append]
      rw [readName_succ, hat.head, Option.bind_some, if_neg (length_ne_zero hne hlt)] at hread
      split at hread
      · rename_i h64
        rw [UInt8.lt_iff_toNat_lt, hlen] at h64
        have h63 : label.length < 64 := h64
        have hlong' : ∃ l ∈ labels, 63 < l.length := by
          obtain ⟨l, hl, hl63⟩ := hlong
          rcases List.mem_cons.mp hl with rfl | hl
          · omega
          · exact ⟨l, hl, hl63⟩
        obtain ⟨label', _, hread⟩ := Option.bind_eq_some_iff.mp hread
        obtain ⟨⟨names', q'⟩, hname, hread⟩ := Option.bind_eq_some_iff.mp hread
        cases hread
        rw [hlen, show p + 1 + label.length = p + (encodeLabel label).length by omega] at hname
        have := ih hrest hlong' hat.right hname
        omega
      · split at hread
        · cases hread
        · rename_i h192
          rw [UInt8.lt_iff_toNat_lt, hlen] at h192
          have h191 : ¬ label.length < 192 := h192
          obtain ⟨low, _, hread⟩ := Option.bind_eq_some_iff.mp hread
          obtain ⟨⟨names', q'⟩, _, hread⟩ := Option.bind_eq_some_iff.mp hread
          cases hread
          omega

end

/-! ## the packet -/

/-- the bytes that the socket gets, if all of them were written -/
def sentPacket (r : Resolver) : Option Bytes :=
  match sendRequestToDNS r sendBuf with
  | .ok span _ => span.mapM id
  | .error _ _ => none

theorem mapM_map_some (bytes : Bytes) : (bytes.map some).mapM id = some bytes := by
  induction bytes with
  | nil => rfl
  | cons b bytes ih =>
    rw [List.map_cons, List.mapM_cons, ih]
    rfl

/-- Without an empty label, the labels that are written are the parts between the dots. -/
theorem hostLabels_eq_splitOn {name : Bytes} (h : NoEmptyLabel name) :
    hostLabels name = name.splitOn dot := by
  induction hn : name.length using Nat.strong_induction_on generalizing name with
  | _ n ih =>
    rcases hostName_cases name with rfl | ⟨hdot, _, hl⟩ | ⟨label, rest, hdot, rfl, hl⟩
    · exact absurd List.mem_cons_self h
    · rw [hl, List.splitOn_eq_singleton hdot]
    · rw [List.length_append, List.length_cons] at hn
      rw [hl, List.splitOn_append_cons_self_of_not_mem hdot,
        ih rest.length (by omega) ((noEmptyLabel_cons hdot).mp h).2 rfl]

theorem not_endsWithDot {name : Bytes} (h : NoEmptyLabel name) : ¬ EndsWithDot name := by
  induction hn : name.length using Nat.strong_induction_on generalizing name with
  | _ n ih =>
    rcases hostName_cases name with rfl | ⟨hdot, _, _⟩ | ⟨label, rest, hdot, rfl, _⟩
    · exact absurd List.mem_cons_self h
    · exact fun hend => hdot (List.mem_of_getLast? hend)
    · have hrest := ((noEmptyLabel_cons hdot).mp h).2
      have hne : rest ≠ [] := by
        rintro rfl
        exact hrest List.mem_cons_self
      rw [List.length_append, List.length_cons] at hn
      rw [endsWithDot_cons hne]
      exact ih rest.length (by omega) hrest rfl

/-- A name without an empty label is announced with the right length. -/
theorem length_of_noEmptyLabel {name : Bytes} (h : NoEmptyLabel name) :
    (encodeHostName name).length = name.length + 2 := by
  rw [length_encodeHostName]
  refine ⟨?_, not_endsWithDot h⟩
  rintro rfl
  exact h List.mem_cons_self

theorem sentPacket_eq {r : Resolver} (hlen : r.hostName.length ≤ 253)
    (h : NoEmptyLabel r.hostName) : sentPacket r = some (requestPacket r) := by
  have hsize : (requestPacket r).length = packetSize r := by
    rw [length_requestPacket, length_of_noEmptyLabel h]
    unfold packetSize
    omega
  unfold sentPacket
  rw [sendRequestToDNS_packet hlen hsize]
  exact mapM_map_some _

section
open Span
variable {r : Resolver}

/-- The header of the packet announces one question. -/
theorem decode_requestPacket (r : Resolver) : Message.decode (requestPacket r) =
    (Question.read (requestPacket r) 12).map fun (q, p) =>
      ⟨r.id, 0x100, [q], 0, 0, 0, (requestPacket r).drop p⟩ := by
  have hat : At (requestPacket r) 0 (requestPacket r) := List.prefix_rfl
  have hid : deserialize16be (requestPacket r) 0 = some r.id := deserialize16be_at hat.left
  have hflags : deserialize16be (requestPacket r) 2 = some 0x100 :=
    deserialize16be_at hat.right.left
  have hquestions : deserialize16be (requestPacket r) 4 = some 1 :=
    deserialize16be_at hat.right.right.left
  have hanswers : deserialize16be (requestPacket r) 6 = some 0 :=
    deserialize16be_at hat.right.right.right.left
  have hauthorities : deserialize16be (requestPacket r) 8 = some 0 :=
    deserialize16be_at hat.right.right.right.right.left
  have hadditionals : deserialize16be (requestPacket r) 10 = some 0 :=
    deserialize16be_at hat.right.right.right.right.right.left
  unfold Message.decode
  rw [hid, hflags, hquestions, hanswers, hauthorities, hadditionals]
  show (do
    let (questions, p) ← readQuestions (requestPacket r) 1 12
    some (Message.mk r.id 0x100 questions 0 0 0 ((requestPacket r).drop p))) = _
  unfold readQuestions
  cases Question.read (requestPacket r) 12 with
  | none => rfl
  | some res => rfl

theorem at_question_name (r : Resolver) : At (requestPacket r) 12
    ((hostLabels r.hostName).flatMap encodeLabel ++
      0 :: (serialize16be r.recordType ++ serialize16be 1)) := by
  have hat : At (requestPacket r) 0 (requestPacket r) := List.prefix_rfl
  have hname : question r.hostName r.recordType = (hostLabels r.hostName).flatMap encodeLabel ++
      0 :: (serialize16be r.recordType ++ serialize16be 1) := by
    unfold question encodeHostName
    rw [List.append_assoc]
    rfl
  rw [← hname]
  exact hat.right.right.right.right.right.right

/-- a server reads the question that was meant, and nothing else -/
def ReadByServer (r : Resolver) : Prop := ∃ msg, (sentPacket r).bind Message.decode = some msg ∧
  msg.questions = [⟨r.hostName.splitOn dot, r.recordType, 1⟩] ∧ msg.rest = []

theorem readByServer_eq (hlen : r.hostName.length ≤ 253) (h : NoEmptyLabel r.hostName) :
    ReadByServer r ↔ ∃ q, Question.read (requestPacket r) 12 =
      some (⟨r.hostName.splitOn dot, r.recordType, 1⟩, q) ∧ (requestPacket r).length ≤ q := by
  unfold ReadByServer
  rw [sentPacket_eq hlen h, Option.bind_some, decode_requestPacket]
  constructor
  · rintro ⟨msg, hmsg, hquestions, hrest⟩
    obtain ⟨⟨q, p⟩, hread, rfl⟩ := Option.map_eq_some_iff.mp hmsg
    rw [← (List.cons.inj hquestions).1]
    exact ⟨p, hread, List.drop_eq_nil_iff.mp hrest⟩
  · rintro ⟨q, hread, hq⟩
    rw [hread]
    exact ⟨_, rfl, rfl, List.drop_eq_nil_iff.mpr hq⟩

/-- **A server reads the question** of a host name without an empty label if and only if no label
is longer than 63 bytes. -/
theorem readByServer_iff (hlen : r.hostName.length ≤ 253) (h : NoEmptyLabel r.hostName) :
    ReadByServer r ↔ ∀ l ∈ r.hostName.splitOn dot, l.length ≤ 63 := by
  have hlabels := hostLabels_eq_splitOn h
  have hne := (hostLabels_of_noEmptyLabel h).1
  have hat := at_question_name r
  have hsize : (requestPacket r).length =
      12 + ((hostLabels r.hostName).flatMap encodeLabel).length + 1 + 4 := by
    rw [length_requestPacket]
    show 16 + ((hostLabels r.hostName).flatMap encodeLabel ++ [0]).length = _
    rw [List.length_append, List.length_singleton]
    omega
  rw [readByServer_eq hlen h, ← hlabels]
  constructor
  · rintro ⟨q, hread, hq⟩ l hl
    by_contra hlong
    obtain ⟨⟨names, p⟩, hname, hread⟩ := Option.bind_eq_some_iff.mp hread
    obtain ⟨type, _, hread⟩ := Option.bind_eq_some_iff.mp hread
    obtain ⟨cls, _, hread⟩ := Option.bind_eq_some_iff.mp hread
    have hq4 : p + 4 = q := (Prod.mk.inj (Option.some.inj hread)).2
    have hall : ∀ l ∈ hostLabels r.hostName, l ≠ [] ∧ l.length < 256 := by
      intro l hl
      have := hostLabels_length l hl
      exact ⟨hne l hl, by omega⟩
    have hearly := readName_long hall ⟨l, hl, not_le.mp hlong⟩ hat hname
    omega
  · intro hshort
    have hfuel : (hostLabels r.hostName).length < (requestPacket r).length + 1 := by
      have := length_le_labels (hostLabels r.hostName)
      omega
    have hread := readName_short (fun l hl => ⟨hne l hl, hshort l hl⟩) hat hfuel
    have htype := deserialize16be_at hat.right.tail.left
    have hcls : deserialize16be (requestPacket r)
        (12 + ((hostLabels r.hostName).flatMap encodeLabel).length + 1 + 2) = some 1 :=
      deserialize16be_at hat.right.tail.right
    refine ⟨_, ?_, hsize.le⟩
    unfold Question.read
    rw [hread]
    show ((deserialize16be _ _).bind fun type => (deserialize16be _ _).bind fun cls => _) = _
    rw [htype, hcls]
    rfl

/-- The question for "a.b" is read. -/
theorem readByServer_iff_ab : ReadByServer (requestFor [97, dot, 98]) :=
  (readByServer_iff (by decide) (by decide)).mpr (by decide)

set_option maxRecDepth 10000 in
/-- A label of 64 bytes is not read. -/
theorem readByServer_long : ¬ ∀ r : Resolver, r.hostName.length ≤ 253 →
    NoEmptyLabel r.hostName → ReadByServer r := by
  intro hall
  have hone : (List.replicate 64 97 : Bytes).splitOn dot = [List.replicate 64 97] :=
    List.splitOn_eq_singleton (by decide)
  have hempty : NoEmptyLabel (List.replicate 64 97) := by
    unfold NoEmptyLabel
    rw [hone]
    decide
  have hread := hall (requestFor (List.replicate 64 97)) (by decide) hempty
  obtain ⟨q, hread, _⟩ := (readByServer_eq (by decide) hempty).mp hread
  have hnone : Question.read (requestPacket (requestFor (List.replicate 64 97))) 12 = none := by
    decide
  rw [hnone] at hread
  cases hread

end

end Setka
