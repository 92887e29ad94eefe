import Setka.Dns.Reads
import Setka.Dns.Thread

/-!
# The bytes behind a received datagram

The host name of a datagram is parsed up to the end of the receive buffer, and the question is
compared without a look at the number of the bytes received: what an earlier datagram has left in
the buffer can decide what becomes of a request.

* `requestOf`           the request with the id of the datagram;
* `NameOpen`            the datagram ends inside the host name, and the name can go on to that of
                        the request;
* `QuestionOpen`        the datagram ends inside the type or the class, which are right so far;
* `dependsOnBytes_iff`  without the one and the other, and only then, the bytes received decide;
* `stale_bytes_decide`  a name error without the end of the host name.
-/

namespace Setka

open Span

/-! ## the condition -/

/-- the request with the id of the datagram -/
def requestOf (tb : Tables) (bytes : Bytes) : Option Resolver := do
  let id ← deserialize16be bytes 0
  let p ← tb.findId id
  tb.deref p

/-- The bytes end before the host name does, and there is room in the buffer for the rest of a name
that is the one of the request; if this is the empty name, for the rest of any name. -/
def NameOpen (hostName bytes : Bytes) : Prop :=
  ∃ labels, labels ≠ [] ∧ Readable labels ∧ bytes.drop 12 <+: labels.flatMap encodeLabel ∧
    12 + (labels.flatMap encodeLabel).length < bufSize ∧ (hostName = [] ∨ hostName = dotted labels)

/-- The bytes end inside a field of the question, with the question of the request up to there and
the field inside the buffer. -/
def QuestionOpen (r : Resolver) (bytes : Bytes) : Prop :=
  ∃ k e f, header bytes = some (.answers k) ∧
    NameEnds bytes 12 bytes.length r.hostName e ∧
    bytes.drop e <+: serialize16be r.recordType ++ serialize16be 1 ∧
    (f = e ∨ f = e + 2) ∧ f ≤ bytes.length ∧ bytes.length < f + 2 ∧ f + 2 ≤ bufSize

/-- Whatever the buffer holds behind the bytes received, the receive step does the same. -/
def DependsOnBytes (tb : Tables) (d : Datagram) : Prop :=
  ∀ d' : Datagram, d'.bytes = d.bytes → recvAction tb d'.buf d'.size = recvAction tb d.buf d.size

/-! ## datagrams with the same bytes -/

theorem Datagram.bytes_length (d : Datagram) : d.bytes.length = d.size := by
  unfold bytes
  rw [List.length_take, d.buf_length]
  exact Nat.min_eq_left d.size_le

section
variable {d d' : Datagram} (hb : d'.bytes = d.bytes)
include hb

theorem Datagram.size_eq : d'.size = d.size := by
  rw [← bytes_length, hb, bytes_length]

theorem Datagram.agree : Agree d.size d'.buf d.buf := by
  have hbytes : d'.buf.take d'.size = d.buf.take d.size := hb
  rw [size_eq hb] at hbytes
  exact hbytes

end

theorem Datagram.agree_bytes (d : Datagram) : Agree d.size d.buf d.bytes := by
  unfold Agree bytes
  rw [List.take_take, Nat.min_self]

/-- a datagram with the same bytes and, in the buffer, `l` and then copies of `c` -/
theorem Datagram.exists_refill (d : Datagram) {l : Bytes} (c : UInt8) (h : d.bytes <+: l) :
    ∃ d' : Datagram, d'.bytes = d.bytes ∧
      d'.buf = (l ++ List.replicate bufSize c).take bufSize := by
  have hlen : ((l ++ List.replicate bufSize c).take bufSize).length = bufSize := by
    rw [List.length_take, List.length_append, List.length_replicate]
    omega
  refine ⟨⟨_, d.size, d.sender, hlen, d.size_le⟩, ?_, rfl⟩
  show ((l ++ List.replicate bufSize c).take bufSize).take d.size = d.bytes
  rw [List.take_take, Nat.min_eq_left d.size_le]
  have hpre : d.bytes <+: l ++ List.replicate bufSize c := h.trans (List.prefix_append _ _)
  rw [← d.bytes_length]
  exact (List.prefix_iff_eq_take.mp hpre).symm

/-! ## the receive step, after the request is known -/

/-- the receive step from the host name on -/
def recvFor (r : Resolver) (buf : Bytes) (size : ℕ) : Option RecvAction := do
  let (host, _) ← parseHostNameFromDNSPacket buf 12 bufSize
  if host ≠ r.hostName then some .ignore
  else do
    let res ← parseReplyFromDNS r buf size
    if res.result = .notFound ∧ r.recordType = recordAAAA then some (.requeue r)
    else some (.complete r res)

section
variable {tb : Tables} {d d' : Datagram} {r : Resolver}

theorem recvAction_eq (h : 13 ≤ d.size) : recvAction tb d.buf d.size =
    (deserialize16be d.bytes 0).bind fun id =>
      match tb.findId id with
      | none => some .ignore
      | some p => (tb.deref p).bind fun r => recvFor r d.buf d.size := by
  rw [← deserialize16be_congr d.agree_bytes (show 0 + 2 ≤ d.size by omega)]
  unfold recvAction
  rw [if_neg (Nat.not_lt.mpr h)]
  rfl

theorem recvAction_of_requestOf (h : 13 ≤ d.size) (hr : requestOf tb d.bytes = some r) :
    recvAction tb d.buf d.size = recvFor r d.buf d.size := by
  obtain ⟨id, hid, hr⟩ := Option.bind_eq_some_iff.mp hr
  obtain ⟨p, hp, hr⟩ := Option.bind_eq_some_iff.mp hr
  rw [recvAction_eq h, hid, Option.bind_some, hp]
  dsimp only
  rw [hr, Option.bind_some]

/-- The requests with the id of the datagram decide. -/
theorem recvAction_congr (h : 13 ≤ d.size) (hb : d'.bytes = d.bytes)
    (hr : ∀ r, requestOf tb d.bytes = some r → recvFor r d'.buf d'.size = recvFor r d.buf d.size) :
    recvAction tb d'.buf d'.size = recvAction tb d.buf d.size := by
  rw [recvAction_eq h, recvAction_eq (h.trans_eq (Datagram.size_eq hb).symm), hb]
  refine Option.bind_congr fun id hid => ?_
  split
  · rfl
  · rename_i p hp
    refine Option.bind_congr fun r hr' => hr r ?_
    unfold requestOf
    rw [hid]
    show (tb.findId id).bind _ = some r
    rw [hp]
    exact hr'

end

/-! ## the host name -/

section
variable {r : Resolver} {buf host : Bytes} {size q : ℕ}

theorem recvFor_ignore (h : parseHostNameFromDNSPacket buf 12 bufSize = some (host, q))
    (hne : host ≠ r.hostName) : recvFor r buf size = some .ignore := by
  unfold recvFor
  rw [h]
  exact if_pos hne

theorem recvFor_match (h : parseHostNameFromDNSPacket buf 12 bufSize = some (r.hostName, q)) :
    recvFor r buf size = (parseReplyFromDNS r buf size).bind fun res =>
      if res.result = .notFound ∧ r.recordType = recordAAAA then some (.requeue r)
      else some (.complete r res) := by
  unfold recvFor
  rw [h]
  exact if_neg (not_not.mpr rfl)

theorem recvFor_ne_ignore (h : parseHostNameFromDNSPacket buf 12 bufSize = some (r.hostName, q)) :
    recvFor r buf size ≠ some .ignore := by
  rw [recvFor_match h]
  intro hi
  obtain ⟨res, _, hi⟩ := Option.bind_eq_some_iff.mp hi
  split at hi <;> cases hi

end

section
variable {d d' : Datagram} {r : Resolver}

/-- The host name of the request is found in the whole buffer if and only if it is found in the
bytes received. -/
theorem host_iff {x y : Bytes} {q₁ q₂ : ℕ} (h : 13 ≤ d.size) (hn : ¬ NameOpen r.hostName d.bytes)
    (h₁ : parseHostNameFromDNSPacket d.buf 12 d.size = some (x, q₁))
    (h₂ : parseHostNameFromDNSPacket d.buf 12 bufSize = some (y, q₂)) :
    y = r.hostName ↔ x = r.hostName := by
  rcases parseHostName_stop (by omega) d.size_le h₁ h₂ with
    rfl | ⟨rfl, labels, hnil, hrd, hat, hcut, hroom, rfl⟩
  · exact Iff.rfl
  · have hopen : r.hostName = [] ∨ r.hostName = dotted labels → NameOpen r.hostName d.bytes :=
      fun hname => ⟨labels, hnil, hrd, hat.drop_take_prefix hcut, hroom, hname⟩
    exact ⟨fun h => absurd (hopen (.inr h.symm)) hn, fun h => absurd (hopen (.inl h.symm)) hn⟩

/-- The receive step, where the bytes received decide about the host name. -/
theorem recvFor_eq (h : 13 ≤ d.size) (hn : ¬ NameOpen r.hostName d.bytes) {x : Bytes} {q : ℕ}
    (hx : parseHostNameFromDNSPacket d.bytes 12 d.size = some (x, q)) : recvFor r d.buf d.size =
      if x ≠ r.hostName then some .ignore
      else (parseReplyFromDNS r d.buf d.size).bind fun res =>
        if res.result = .notFound ∧ r.recordType = recordAAAA then some (.requeue r)
        else some (.complete r res) := by
  have hlen := d.bytes_length
  rw [← parseHostName_congr d.agree_bytes (by rw [d.buf_length]; exact d.size_le) hlen.ge
    (Nat.le_refl _) (show 12 ≤ d.size by omega)] at hx
  obtain ⟨y, q₂, hy, _⟩ := parseHostName_total d.buf_length.ge (show 12 ≤ bufSize by decide)
  have hiff := host_iff h hn hx hy
  by_cases hname : x = r.hostName
  · rw [hiff.mpr hname] at hy
    rw [if_neg (not_not.mpr hname), recvFor_match hy]
  · rw [if_pos hname, recvFor_ignore hy (hiff.not.mpr hname)]

/-- What the buffer holds can make the host name another one. -/
theorem nameOpen_differs (h : 13 ≤ d.size) (hn : NameOpen r.hostName d.bytes) :
    ∃ d₁ d₂ : Datagram, d₁.bytes = d.bytes ∧ d₂.bytes = d.bytes ∧
      recvFor r d₁.buf d₁.size ≠ recvFor r d₂.buf d₂.size := by
  obtain ⟨labels, hnil, hrd, hpre, hroom, hname⟩ := hn
  have hlen : (d.bytes.take 12).length = 12 := by
    rw [List.length_take, d.bytes_length]
    omega
  have hbytes : d.bytes <+: d.bytes.take 12 ++ labels.flatMap encodeLabel := prefix_take_append hpre
  have hat : ∀ c : UInt8, At (d.bytes.take 12 ++ labels.flatMap encodeLabel ++
      List.replicate bufSize c) 12 (labels.flatMap encodeLabel ++ [c]) := by
    intro c
    have hcat := at_append (d.bytes.take 12) (labels.flatMap encodeLabel ++ [c])
      (List.replicate (bufSize - 1) c)
    rw [hlen] at hcat
    rw [List.append_assoc]
    rw [List.append_assoc] at hcat
    exact hcat
  obtain ⟨d₁, hb₁, hbuf₁⟩ := d.exists_refill 0 hbytes
  obtain ⟨d₂, hb₂, hbuf₂⟩ := d.exists_refill 255 hbytes
  have hat₁ : At d₁.buf 12 (labels.flatMap encodeLabel ++ 0 :: []) := by
    rw [hbuf₁]
    refine (hat 0).in_take ?_
    rw [List.length_append]
    exact hroom
  have hhost₁ := parseHostName_labels hrd hat₁ hroom
  have hat₂ : At d₂.buf 12 (labels.flatMap encodeLabel) := by
    rw [hbuf₂]
    exact (hat 255).left.in_take hroom.le
  obtain ⟨y, q, hhost₂, _⟩ := parseHostName_total d₂.buf_length.ge (show 12 ≤ bufSize by decide)
  have hy : y = [] := by
    refine parseHostName_noZero hrd hat₂ hroom.le (fun i hi => ?_) hhost₂
    rw [hbuf₂]
    intro hz
    have hlt : i < bufSize := (List.getElem?_eq_some_iff.mp hz).1.trans_le (List.length_take_le _ _)
    have hmem : (0 : UInt8) ∈ List.replicate bufSize (255 : UInt8) := by
      rw [List.getElem?_take, if_pos hlt] at hz
      rw [List.getElem?_append_right (by rw [List.length_append, hlen]; exact hi)] at hz
      exact List.mem_of_getElem? hz
    cases List.eq_of_mem_replicate hmem
  have hne := dotted_ne_nil hrd hnil
  refine ⟨d₁, d₂, hb₁, hb₂, ?_⟩
  rw [hy] at hhost₂
  rcases hname with hname | hname
  · rw [recvFor_ignore hhost₁ (hname ▸ hne)]
    rw [← hname] at hhost₂
    exact (recvFor_ne_ignore hhost₂).symm
  · rw [recvFor_ignore hhost₂ (hname ▸ hne.symm)]
    rw [← hname] at hhost₁
    exact recvFor_ne_ignore hhost₁

end

/-! ## the question -/

/-- A comparison of a field, and what comes after it, if the field is not open. -/
theorem field_congr {α : Type} {mem mem' : Bytes} {n p : ℕ} {x : UInt16} {E K K' : Option α}
    (h : Agree n mem mem') (hm : mem.length = bufSize) (hm' : mem'.length = bufSize)
    (hopen : n < p + 2 → p + 2 ≤ bufSize → ¬ ((mem.take n).drop p <+: serialize16be x))
    (hK : p + 2 ≤ n → At mem p (serialize16be x) → K = K') :
    ((deserialize16be mem p).bind fun v => if v ≠ x then E else K) =
      (deserialize16be mem' p).bind fun v => if v ≠ x then E else K' := by
  by_cases hn : p + 2 ≤ n
  · rw [← deserialize16be_congr h hn]
    refine Option.bind_congr fun v hv => ?_
    split
    · rfl
    · rename_i hx
      rw [not_not.mp hx] at hv
      exact hK hn (deserialize16be_iff.mp hv)
  · by_cases hbuf : p + 2 ≤ bufSize
    · have hne : ∀ {m : Bytes} {v : UInt16}, m.take n = mem.take n → deserialize16be m p = some v →
          v ≠ x := by
        rintro m v htake hv rfl
        have hat := deserialize16be_iff.mp hv
        refine hopen (by omega) hbuf ?_
        rw [← htake]
        exact hat.drop_take_prefix (show n ≤ p + 2 by omega)
      obtain ⟨v, hv⟩ := deserialize16be_total (hm ▸ hbuf)
      obtain ⟨v', hv'⟩ := deserialize16be_total (hm' ▸ hbuf)
      rw [hv, hv', Option.bind_some, Option.bind_some, if_pos (hne rfl hv), if_pos (hne h.symm hv')]
    · rw [deserialize16be_eq_none (by omega), deserialize16be_eq_none (by omega)]
      rfl

section
variable {d d' : Datagram} {r : Resolver} (hb : d'.bytes = d.bytes) (h : 12 ≤ d.size)
include hb h

theorem parseBody_congr {k : UInt16} (hk : header d.bytes = some (.answers k))
    (ho : ¬ QuestionOpen r d.bytes) :
    parseBody r d.buf d.size k = parseBody r d'.buf d'.size k := by
  have hagree := (Datagram.agree hb).symm
  have hm : d.size ≤ d.buf.length := d.size_le.trans_eq d.buf_length.symm
  have hm' : d.size ≤ d'.buf.length := d.size_le.trans_eq d'.buf_length.symm
  unfold parseBody
  rw [Datagram.size_eq hb, ← parseHostName_congr hagree hm hm' (Nat.le_refl _) h]
  refine Option.bind_congr fun ⟨host, e⟩ he => ?_
  obtain ⟨_, _, heq, hle⟩ := parseHostName_total hm h
  rw [he] at heq
  obtain ⟨rfl, rfl⟩ := Prod.mk.inj (Option.some.inj heq)
  dsimp only
  split
  · rfl
  · rename_i hname
    have hbytes := d.bytes_length
    rw [parseHostName_congr d.agree_bytes hm hbytes.ge (Nat.le_refl _) h, ← not_not.mp hname,
      ← hbytes, parseHostName_iff (Nat.le_refl _) (h.trans_eq hbytes.symm)] at he
    refine field_congr hagree d.buf_length d'.buf_length (fun hn hbuf hpre => ho ?_)
      fun hn hat => ?_
    · exact ⟨k, e, e, hk, he, hpre.trans (List.prefix_append _ _), .inl rfl, by omega, by omega,
        hbuf⟩
    · refine field_congr hagree d.buf_length d'.buf_length (fun hn' hbuf hpre => ho ?_)
        fun hn' _ => ?_
      · have htype : At d.bytes e (serialize16be r.recordType) := hat.in_take hn
        refine ⟨k, e, e + 2, hk, he, ?_, .inr rfl, by omega, by omega, hbuf⟩
        obtain ⟨rest, hrest⟩ := htype
        rw [← List.drop_drop, ← Datagram.bytes, ← hrest] at hpre
        rw [← hrest]
        exact (List.prefix_append_right_inj _).mpr hpre
      · exact parseAnswers_congr hagree hm hm' (Nat.le_refl _) hn'

theorem parseReplyFromDNS_congr (ho : ¬ QuestionOpen r d.bytes) :
    parseReplyFromDNS r d.buf d.size = parseReplyFromDNS r d'.buf d'.size := by
  have hsize := Datagram.size_eq hb
  rw [parseReplyFromDNS_eq h, parseReplyFromDNS_eq (h.trans_eq hsize.symm),
    ← header_congr (Datagram.agree hb).symm h]
  refine Option.bind_congr fun hd hhd => ?_
  cases hd with
  | error => rfl
  | notFound => rfl
  | answers k =>
    rw [header_congr d.agree_bytes h] at hhd
    exact parseBody_congr hb h hhd ho

end

/-! ## what the buffer can hold after an open question -/

/-- Without a zero byte the loop over a name goes on past the end of the memory. -/
theorem skipDomainName_past {stop p : ℕ} {l : Bytes} (h : stop < p) (hz : ∀ b ∈ l, b ≠ 0) :
    skipDomainName stop l p = none := by
  induction l generalizing p with
  | nil => exact if_neg h.ne'
  | cons b l ih =>
    obtain ⟨hb, hl⟩ := List.forall_mem_cons.mp hz
    unfold skipDomainName
    rw [if_neg h.ne', if_neg hb]
    exact ih (by omega) hl

theorem parseAnswers_past {type : UInt16} {mem : Bytes} {size p count : ℕ} (h : size < p)
    (hc : count ≠ 0) (hone : ∀ b ∈ mem.drop p, b = 1) :
    parseAnswers type mem size count p = none := by
  obtain ⟨count, rfl⟩ := Nat.exists_eq_succ_of_ne_zero hc
  have hskip : skipOwnerName mem size p = none := by
    have hnone : skipDomainName size (mem.drop p) p = none := by
      refine skipDomainName_past h fun b hb => ?_
      rw [hone b hb]
      decide
    unfold skipOwnerName
    cases hm : mem[p]? with
    | none => rfl
    | some b =>
      have hmem : b ∈ mem.drop p := by
        have hat := At.singleton hm
        exact hat.subset List.mem_cons_self
      rw [hone b hmem, hnone]
      rfl
  unfold parseAnswers
  rw [if_neg h.ne', hskip]
  rfl

/-- If the answers begin behind the reply, in memory that holds nothing but 1, the parser reads on
past the end of the memory. -/
theorem parseBody_past {r : Resolver} {mem : Bytes} {size e : ℕ} {k : UInt16}
    (hhost : parseHostNameFromDNSPacket mem 12 size = some (r.hostName, e)) (hk : k ≠ 0)
    (htype : deserialize16be mem e = some r.recordType)
    (hcls : e + 4 ≤ mem.length → deserialize16be mem (e + 2) = some 1) (hpast : size < e + 4)
    (hone : ∀ b ∈ mem.drop (e + 4), b = 1) : parseBody r mem size k = none := by
  rw [parseBody_eq hhost, htype, Option.bind_some, if_neg (not_not.mpr rfl)]
  by_cases hroom : e + 4 ≤ mem.length
  · rw [hcls hroom, Option.bind_some, if_neg (not_not.mpr rfl)]
    exact parseAnswers_past hpast (fun hzero => hk (UInt16.toNat_inj.mp hzero)) hone
  · rw [deserialize16be_eq_none (by omega)]
    rfl

/-- The host name that is found in the bytes received is found in every buffer with these bytes. -/
theorem Datagram.parseHostName_eq {d d' : Datagram} (hb : d'.bytes = d.bytes) (h : 12 ≤ d.size) :
    parseHostNameFromDNSPacket d'.buf 12 d'.size =
      parseHostNameFromDNSPacket d.bytes 12 d.bytes.length := by
  rw [parseHostName_congr d'.agree_bytes (d'.size_le.trans_eq d'.buf_length.symm)
    d'.bytes_length.ge (Nat.le_refl _) (h.trans_eq (Datagram.size_eq hb).symm), hb,
    Datagram.size_eq hb, d.bytes_length]

/-- a datagram with the same bytes and another byte behind them -/
theorem Datagram.exists_set (d : Datagram) {i : ℕ} (h : d.size ≤ i) (b : UInt8) :
    ∃ d' : Datagram, d'.bytes = d.bytes ∧ d'.buf = d.buf.set i b := by
  refine ⟨⟨d.buf.set i b, d.size, d.sender, ?_, d.size_le⟩, ?_, rfl⟩
  · rw [List.length_set]
    exact d.buf_length
  · show (d.buf.set i b).take d.size = d.buf.take d.size
    rw [List.take_set, List.set_eq_of_length_le]
    exact (List.length_take_le _ _).trans h

/-- A datagram with the same bytes and, behind them, another number in a field that is not wholly
received. -/
theorem Datagram.exists_wrong (d : Datagram) {f : ℕ} {x : UInt16} (h : d.size ≤ f + 1)
    (hat : At d.buf f (serialize16be x)) :
    ∃ d' : Datagram, d'.bytes = d.bytes ∧ ∃ v, deserialize16be d'.buf f = some v ∧ v ≠ x := by
  have hlo : d.buf[f + 1]? = some (UInt8.ofNat x.toNat) := hat.tail.head
  have hlt : f + 1 < d.buf.length := (List.getElem?_eq_some_iff.mp hlo).1
  obtain ⟨d', hb, hbuf⟩ := d.exists_set h (UInt8.ofNat x.toNat + 1)
  have hroom : f + 2 ≤ d'.buf.length := by
    rw [d'.buf_length, ← d.buf_length]
    exact hlt
  obtain ⟨v, hv⟩ := deserialize16be_total hroom
  refine ⟨d', hb, v, hv, ?_⟩
  rintro rfl
  have hlo' : d'.buf[f + 1]? = some (UInt8.ofNat v.toNat) := (deserialize16be_iff.mp hv).tail.head
  rw [hbuf, List.getElem?_set_self hlt] at hlo'
  have hsum := congrArg UInt8.toNat (Option.some.inj hlo')
  rw [UInt8.toNat_add] at hsum
  have := (UInt8.ofNat v.toNat).toNat_lt
  change (_ + 1) % 2 ^ 8 = _ at hsum
  omega

section
variable {d : Datagram} {r : Resolver} (h : 13 ≤ d.size)
include h

/-- The receive step up to the question, which the bytes received decide. -/
theorem recvFor_question (hn : ¬ NameOpen r.hostName d.bytes) {k : UInt16} {e : ℕ}
    (hk : header d.bytes = some (.answers k))
    (he : parseHostNameFromDNSPacket d.bytes 12 d.bytes.length = some (r.hostName, e)) :
    recvFor r d.buf d.size = (parseBody r d.buf d.size k).bind fun res =>
      if res.result = .notFound ∧ r.recordType = recordAAAA then some (.requeue r)
      else some (.complete r res) := by
  have hbytes := d.bytes_length
  rw [hbytes] at he
  rw [recvFor_eq h hn he, if_neg (not_not.mpr rfl), parseReplyFromDNS_eq (by omega),
    header_congr d.agree_bytes (by omega), hk]
  rfl

/-- What the buffer holds can make the fields of the question right or wrong. -/
theorem questionOpen_differs (hn : ¬ NameOpen r.hostName d.bytes) (hq : QuestionOpen r d.bytes) :
    ∃ d₁ d₂ : Datagram, d₁.bytes = d.bytes ∧ d₂.bytes = d.bytes ∧
      recvFor r d₁.buf d₁.size ≠ recvFor r d₂.buf d₂.size := by
  obtain ⟨k, e, f, hk, he, hpre, hf, hfn, hnf, hroom⟩ := hq
  have hbytes := d.bytes_length
  rw [← parseHostName_iff (Nat.le_refl _) (show 12 ≤ d.bytes.length by omega)] at he
  have hlen : (d.bytes.take e).length = e := by
    rw [List.length_take]
    omega
  obtain ⟨d₁, hb₁, hbuf₁⟩ := d.exists_refill 1 (prefix_take_append hpre)
  have hsize₁ := Datagram.size_eq hb₁
  have hat : At (d.bytes.take e ++ (serialize16be r.recordType ++ serialize16be 1) ++
      List.replicate bufSize 1) e (serialize16be r.recordType ++ serialize16be 1) := by
    have hcat := at_append (d.bytes.take e) (serialize16be r.recordType ++ serialize16be 1)
      (List.replicate bufSize (1 : UInt8))
    rw [hlen] at hcat
    rw [List.append_assoc]
    exact hcat
  have hhost : ∀ {d' : Datagram}, d'.bytes = d.bytes →
      parseHostNameFromDNSPacket d'.buf 12 d'.size = some (r.hostName, e) :=
    fun hb => (Datagram.parseHostName_eq hb (by omega)).trans he
  have htype : deserialize16be d₁.buf e = some r.recordType := by
    rw [hbuf₁]
    exact deserialize16be_at (hat.left.in_take (show e + 2 ≤ bufSize by omega))
  have hdrop : d₁.buf.drop (e + 4) =
      (List.replicate bufSize (1 : UInt8)).take (bufSize - (e + 4)) := by
    rw [hbuf₁, List.drop_take]
    refine congrArg _ (List.drop_left' ?_)
    rw [List.length_append, hlen]
    rfl
  have hbody₁ : parseBody r d₁.buf d₁.size k = none := by
    refine parseBody_past (hhost hb₁) (ne_zero_of_header hk) htype (fun hcls => ?_) (by omega)
      fun b hb => ?_
    · rw [d₁.buf_length] at hcls
      rw [hbuf₁]
      exact deserialize16be_at (hat.right.in_take hcls)
    · rw [hdrop] at hb
      exact List.eq_of_mem_replicate (List.mem_of_mem_take hb)
  have hwrong : ∃ d₂ : Datagram, d₂.bytes = d.bytes ∧
      parseBody r d₂.buf d₂.size k = some { result := .dnsError } := by
    have hd₁ : d₁.size ≤ f + 1 := by omega
    rcases hf with rfl | rfl
    · obtain ⟨d₂, hb₂, v, hv, hne⟩ := d₁.exists_wrong hd₁ (deserialize16be_iff.mp htype)
      refine ⟨d₂, hb₂.trans hb₁, ?_⟩
      rw [parseBody_eq (hhost (hb₂.trans hb₁)), hv, Option.bind_some, if_pos hne]
    · have hcls : At d₁.buf (e + 2) (serialize16be 1) := by
        rw [hbuf₁]
        exact hat.right.in_take hroom
      obtain ⟨d₂, hb₂, v, hv, hne⟩ := d₁.exists_wrong hd₁ hcls
      have htype₂ : deserialize16be d₂.buf e = some r.recordType := by
        rw [deserialize16be_congr (Datagram.agree hb₂) (show e + 2 ≤ d₁.size by omega)]
        exact htype
      refine ⟨d₂, hb₂.trans hb₁, ?_⟩
      rw [parseBody_eq (hhost (hb₂.trans hb₁)), htype₂, Option.bind_some, if_neg (not_not.mpr rfl),
        hv, Option.bind_some, if_pos hne]
  obtain ⟨d₂, hb₂, hbody₂⟩ := hwrong
  have hstep : ∀ {d' : Datagram}, d'.bytes = d.bytes → recvFor r d'.buf d'.size =
      (parseBody r d'.buf d'.size k).bind fun res =>
        if res.result = .notFound ∧ r.recordType = recordAAAA then some (.requeue r)
        else some (.complete r res) := by
    intro d' hb
    rw [← hb] at hn hk he
    exact recvFor_question (h.trans_eq (Datagram.size_eq hb).symm) hn hk he
  refine ⟨d₁, d₂, hb₁, hb₂, ?_⟩
  rw [hstep hb₁, hstep hb₂, hbody₁, hbody₂, Option.bind_none, Option.bind_some]
  split <;> exact nofun

end

/-! ## the result -/

/-- **The bytes received decide** about a datagram if and only if, for the request with its id,
neither the host name nor the question goes on behind them. -/
theorem dependsOnBytes_iff (tb : Tables) (d : Datagram) (h : 13 ≤ d.size) : DependsOnBytes tb d ↔
    ∀ r, requestOf tb d.bytes = some r →
      ¬ NameOpen r.hostName d.bytes ∧ ¬ QuestionOpen r d.bytes := by
  constructor
  · intro hdep r hr
    have hsame : ∀ d' : Datagram, d'.bytes = d.bytes →
        recvFor r d'.buf d'.size = recvFor r d.buf d.size := by
      intro d' hb
      have heq := hdep d' hb
      rw [recvAction_of_requestOf h hr,
        recvAction_of_requestOf (h.trans_eq (Datagram.size_eq hb).symm) (hb ▸ hr)] at heq
      exact heq
    have hn : ¬ NameOpen r.hostName d.bytes := by
      intro hn
      obtain ⟨d₁, d₂, hb₁, hb₂, hne⟩ := nameOpen_differs h hn
      exact hne ((hsame d₁ hb₁).trans (hsame d₂ hb₂).symm)
    refine ⟨hn, fun hq => ?_⟩
    obtain ⟨d₁, d₂, hb₁, hb₂, hne⟩ := questionOpen_differs h hn hq
    exact hne ((hsame d₁ hb₁).trans (hsame d₂ hb₂).symm)
  · intro hclosed d' hb
    refine recvAction_congr h hb fun r hr => ?_
    obtain ⟨hn, hq⟩ := hclosed r hr
    have hm : d.size ≤ d.bytes.length := d.bytes_length.ge
    obtain ⟨x, q, hx, _⟩ := parseHostName_total hm (show 12 ≤ d.size by omega)
    have hsize := Datagram.size_eq hb
    have hx' : parseHostNameFromDNSPacket d'.bytes 12 d'.size = some (x, q) := by
      rw [hb, hsize]
      exact hx
    rw [recvFor_eq h hn hx, recvFor_eq (h.trans_eq hsize.symm) (hb ▸ hn) hx',
      parseReplyFromDNS_congr hb (by omega) hq]

/-- The same action leaves the thread in the same state. -/
theorem LookupThread.receiveStep_congr {T : LookupThread} {e : Env} {d d' : Datagram}
    (h : recvAction T.tables d'.buf d'.size = recvAction T.tables d.buf d.size) :
    (T.receiveStep { e with recv := .datagram d' }).map Prod.fst =
      (T.receiveStep { e with recv := .datagram d }).map Prod.fst := by
  unfold receiveStep
  split
  · dsimp only
    rw [h]
    cases recvAction T.tables d.buf d.size with
    | none => rfl
    | some a =>
      cases a with
      | ignore => rfl
      | requeue r =>
        show ((T.readCleared.fallback r e.changeOk).bind _).map _ =
          ((T.readCleared.fallback r e.changeOk).bind _).map _
        cases T.readCleared.fallback r e.changeOk <;> rfl
      | complete r res =>
        show ((T.readCleared.complete r.hnr res.result res.host .receive).bind _).map _ =
          ((T.readCleared.complete r.hnr res.result res.host .receive).bind _).map _
        cases T.readCleared.complete r.hnr res.result res.host .receive <;> rfl
  · rfl

/-- A name that is received to its end is not open. -/
theorem not_nameOpen {hostName bytes : Bytes} {labels : List Bytes} (hrd : Readable labels)
    (hat : At bytes 12 (labels.flatMap encodeLabel ++ [0])) : ¬ NameOpen hostName bytes := by
  rintro ⟨labels', _, hrd', hpre, _, _⟩
  have hlen := hpre.length_le
  obtain ⟨rest, hrest⟩ := hpre
  have hlong : 12 + (labels.flatMap encodeLabel).length < bytes.length := by
    have hle := hat.length_le
    rw [List.length_drop, List.length_append, List.length_singleton] at hle
    omega
  rw [List.length_drop] at hlen
  have hmem : At (bytes ++ (rest ++ [0])) 12 (labels'.flatMap encodeLabel ++ 0 :: []) := by
    have hdrop : (bytes ++ (rest ++ [0])).drop 12 = labels'.flatMap encodeLabel ++ [0] := by
      rw [List.drop_append_of_le_length (by omega), ← List.append_assoc, hrest]
    exact hdrop.symm ▸ List.prefix_refl _
  have hmem' : At (bytes ++ (rest ++ [0])) 12 (labels.flatMap encodeLabel ++ 0 :: []) := by
    unfold At
    rw [List.drop_append_of_le_length (by omega)]
    exact hat.trans (List.prefix_append _ _)
  have hp : parseHostNameFromDNSPacket (bytes ++ (rest ++ [0])) 12 _ = _ :=
    parseHostName_labels hrd' hmem (Nat.lt_add_of_pos_right (Nat.succ_pos bytes.length))
  rw [parseHostName_labels hrd hmem' (by omega)] at hp
  have := (Prod.mk.inj (Option.some.inj hp)).2
  omega

/-- the tables with a request for the host "a" -/
def oneRequest : Tables := ({} : Tables).register 0 ⟨1, [97], 1000, Address.unset⟩ 0 0

/-- a name error for the host "a", with the question of the AAAA query -/
def noHostA : Bytes := [0, 0, 0x81, 0x83, 0, 1, 0, 0, 0, 0, 0, 0, 1, 97, 0, 0, 28, 0, 1]

theorem dependsOnBytes_iff_noHostA :
    DependsOnBytes oneRequest (.ofBytes noHostA Address.unset (by decide)) := by
  refine (dependsOnBytes_iff oneRequest (.ofBytes noHostA Address.unset (by decide))
    (by decide)).mpr
    fun r _ => ?_
  rw [Datagram.ofBytes_bytes]
  have hrd : Readable [[97]] := by decide
  refine ⟨not_nameOpen hrd (by decide), ?_⟩
  rintro ⟨k, e, f, hk, _⟩
  have hnot : header noHostA = some .notFound := by decide
  rw [hnot] at hk
  cases hk

/-- the datagram ends behind the "a" -/
def cutNoHostA (c : UInt8) : Datagram where
  buf := noHostA.take 14 ++ List.replicate 498 c
  size := 14
  sender := Address.unset
  buf_length := by
    rw [List.length_append, List.length_replicate]
    rfl
  size_le := by decide

set_option maxRecDepth 10000 in
/-- **With a zero byte in the buffer the request is moved to the A record,** with another byte the
datagram is ignored. -/
theorem stale_bytes_decide : ¬ ∀ (tb : Tables) (d d' : Datagram), 13 ≤ d.size → d'.size = d.size →
    Agree d.size d'.buf d.buf → recvAction tb d'.buf d'.size = recvAction tb d.buf d.size := by
  intro h
  have heq := h oneRequest (cutNoHostA 0) (cutNoHostA 255) (by decide) rfl (by decide)
  exact absurd heq (by decide)

end Setka
