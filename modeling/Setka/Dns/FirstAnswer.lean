import Setka.Dns.Answers

/-!
# The answer in a reply

`ParseReplyFromDNS` walks through the records of the answer section to the first one of the type
that was asked for.

* `Skippable`           the owner names the walk steps over;
* `skipOwnerName_encode`, `parseAnswers_record`   one step of the walk;
* `parseAnswers_records`   the walk over the records before the first one of the type;
* `parseReply_firstAnswer`   a reply with a record of the type gives the address in the first one.
-/

namespace Setka

open Span

/-! ## the format -/

/-- the number with these bytes, the first one the highest -/
def ofBytesBE (bytes : Bytes) : ℕ := bytes.foldl (fun n b => n * 256 + b.toNat) 0

/-- the address that the data of a record of this type hold -/
def addressOf (type : UInt16) (data : Bytes) : Ip :=
  let quad := fun i => UInt32.ofNat (ofBytesBE ((data.drop i).take 4))
  if type = recordA then Ip.ofV4 (quad 0) else ⟨quad 0, quad 4, quad 8, quad 12⟩

/-- a pointer and nothing else, or labels without a zero byte in them and no pointer -/
def DomainName.Skippable (name : DomainName) : Prop :=
  (name.labels = [] ∧ name.pointer ≠ none) ∨ (name.pointer = none ∧ ∀ l ∈ name.labels, 0 ∉ l)

/-! ## the owner name -/

section
variable {mem tail : Bytes} {p size : ℕ}

theorem skipDomainName_at {xs : Bytes} (hat : At mem p (xs ++ 0 :: tail)) (hz : 0 ∉ xs)
    (hsize : p + xs.length < size) : skipDomainName size (mem.drop p) p = some (p + xs.length) := by
  induction xs generalizing p with
  | nil =>
    obtain ⟨rest, hrest⟩ := hat
    rw [← hrest]
    show (if p = size then _ else if (0 : UInt8) = 0 then some p else _) = _
    rw [if_neg (show ¬ p = size from Nat.ne_of_lt hsize), if_pos rfl]
    rfl
  | cons x xs ih =>
    obtain ⟨hx, hxs⟩ := not_or.mp (List.mem_cons.not.mp hz)
    rw [List.length_cons] at hsize
    have hih := ih hat.tail hxs (by omega)
    obtain ⟨rest, hrest⟩ := hat
    have hdrop : mem.drop (p + 1) = (xs ++ 0 :: tail) ++ rest := by
      rw [← List.drop_drop, ← hrest]
      rfl
    rw [hdrop] at hih
    rw [← hrest]
    show (if p = size then _ else if x = 0 then _ else
      skipDomainName size ((xs ++ 0 :: tail) ++ rest) (p + 1)) = _
    rw [if_neg (show ¬ p = size by omega), if_neg (Ne.symm hx), hih, List.length_cons]
    exact congrArg some (by omega)

/-- The labels of a name begin with a length below 64. -/
theorem head_labels {labels : List Bytes} (h : ∀ l ∈ labels, 1 ≤ l.length ∧ l.length ≤ 63) :
    ∃ (b : UInt8) (rest : Bytes), labels.flatMap encodeLabel ++ [0] = b :: rest ∧ b >>> 6 = 0 := by
  cases labels with
  | nil => exact ⟨0, [], rfl, rfl⟩
  | cons l labels =>
    refine ⟨UInt8.ofNat l.length, _, rfl, ?_⟩
    have hl := (h l List.mem_cons_self).2
    rw [← UInt8.toNat_inj, UInt8.toNat_shiftRight, UInt8.toNat_ofNat', Nat.shiftRight_eq_div_pow]
    show l.length % 256 / 64 = 0
    omega

theorem zero_not_mem_labels {labels : List Bytes} (h : ∀ l ∈ labels, 1 ≤ l.length ∧ l.length ≤ 63)
    (hz : ∀ l ∈ labels, 0 ∉ l) : 0 ∉ labels.flatMap encodeLabel := by
  intro hmem
  obtain ⟨l, hl, hmem⟩ := List.mem_flatMap.mp hmem
  rcases List.mem_cons.mp hmem with hlen | hmem
  · have hn := congrArg UInt8.toNat hlen
    rw [UInt8.toNat_ofNat'] at hn
    have hb := h l hl
    change 0 = l.length % 256 at hn
    omega
  · exact hz l hl hmem

/-- The two high bits of a pointer are set. -/
theorem pointer_head (q : UInt16) : UInt8.ofNat ((0xc000 ||| q).toNat / 256) >>> 6 ≠ 0 := by
  have hle : 0xc000 ≤ (0xc000 ||| q).toNat := by
    rw [UInt16.toNat_or]
    exact Nat.left_le_or
  have hlt := (0xc000 ||| q).toNat_lt
  intro h
  have hn := congrArg UInt8.toNat h
  rw [UInt8.toNat_shiftRight, UInt8.toNat_ofNat', Nat.shiftRight_eq_div_pow] at hn
  change (0xc000 ||| q).toNat / 256 % 256 / 64 = 0 at hn
  omega

/-- **The walk steps over an owner name.** -/
theorem skipOwnerName_encode {name : DomainName} (h : name.Skippable)
    (hat : At mem p name.encode) (hsize : p + name.encode.length ≤ size) :
    skipOwnerName mem size p = some (some (p + name.encode.length)) := by
  rcases h with ⟨hl, hp⟩ | ⟨hp, hz⟩
  · obtain ⟨q, hq⟩ := Option.ne_none_iff_exists'.mp hp
    have henc : name.encode = serialize16be (0xc000 ||| q) := by
      unfold DomainName.encode
      rw [hl, hq]
      rfl
    rw [henc] at hat ⊢
    unfold skipOwnerName
    rw [hat.head]
    exact if_neg (pointer_head q)
  · have henc : name.encode = name.labels.flatMap encodeLabel ++ [0] := by
      unfold DomainName.encode
      rw [hp]
    obtain ⟨b, rest, hb, hhead⟩ := head_labels name.labels_length
    have hget : mem[p]? = some b := by
      rw [henc, hb] at hat
      exact hat.head
    rw [henc, List.length_append, List.length_singleton] at hsize
    have hskip : skipDomainName size (mem.drop p) p =
        some (p + (name.labels.flatMap encodeLabel).length) := by
      rw [henc] at hat
      exact skipDomainName_at hat (zero_not_mem_labels name.labels_length hz) (by omega)
    unfold skipOwnerName
    rw [hget]
    show (if b >>> 6 = 0 then (skipDomainName size (mem.drop p) p).bind _ else _) = _
    rw [if_pos hhead, hskip, Option.bind_some, if_neg (by omega), henc, List.length_append]
    rfl

/-! ## the records -/

theorem Record.encode_length (rec : Record) :
    rec.encode.length = rec.owner.encode.length + 10 + rec.data.length := by
  unfold encode serialize32be
  rw [List.length_append, List.length_append, List.length_append, List.length_append,
    List.length_append, List.length_append]
  show _ + (2 + (2 + (2 + 2 + (2 + _)))) = _
  omega

theorem DomainName.encode_pos (name : DomainName) : 0 < name.encode.length := by
  unfold encode
  rw [List.length_append]
  cases name.pointer <;> exact Nat.add_pos_right _ (Nat.succ_pos _)

/-- **One record of the walk.** -/
theorem parseAnswers_record {rec : Record} {type : UInt16} {count : ℕ} (h : rec.owner.Skippable)
    (hat : At mem p (rec.encode ++ tail)) (hsize : p + rec.encode.length ≤ size) :
    parseAnswers type mem size (count + 1) p =
      if rec.type = type then
        answerHost type mem (p + rec.owner.encode.length + 10) rec.data.length
      else parseAnswers type mem size count (p + rec.encode.length) := by
  have hlen := rec.encode_length
  have hpos := rec.owner.encode_pos
  have hrec := hat.left
  have hdata := rec.data_length
  have htype : deserialize16be mem (p + rec.owner.encode.length) = some rec.type :=
    deserialize16be_at hrec.right.left
  have hcount : deserialize16be mem (p + rec.owner.encode.length + 8) =
      some (UInt16.ofNat rec.data.length) :=
    deserialize16be_at hrec.right.right.right.right.left
  have hnum : (UInt16.ofNat rec.data.length).toNat = rec.data.length := by
    rw [UInt16.toNat_ofNat']
    exact Nat.mod_eq_of_lt hdata
  have hskip := skipOwnerName_encode h hrec.left
    (show p + rec.owner.encode.length ≤ size by omega)
  rw [parseAnswers, if_neg (show ¬ p = size by omega), hskip]
  show (if size < p + rec.owner.encode.length + 2 then _ else
    (deserialize16be mem (p + rec.owner.encode.length)).bind _) = _
  rw [if_neg (by omega), htype, Option.bind_some, if_neg (by omega), if_neg (by omega),
    if_neg (by omega)]
  show (deserialize16be mem (p + rec.owner.encode.length + 8)).bind _ = _
  rw [hcount, Option.bind_some, hnum, if_neg (by omega), hlen, ← Nat.add_assoc, ← Nat.add_assoc]

/-- **The walk stops at the first record of the type.** -/
theorem parseAnswers_records {before after : List Record} {rec : Record} {type : UInt16}
    (hskip : ∀ a ∈ before ++ rec :: after, a.owner.Skippable)
    (hbefore : ∀ a ∈ before, a.type ≠ type)
    (htype : rec.type = type)
    (hat : At mem p ((before ++ rec :: after).flatMap Record.encode ++ tail))
    (hsize : p + ((before ++ rec :: after).flatMap Record.encode).length ≤ size) :
    ∃ q, At mem q rec.data ∧ parseAnswers type mem size
      (before ++ rec :: after).length p = answerHost type mem q rec.data.length := by
  induction before generalizing p with
  | nil =>
    rw [List.nil_append, List.flatMap_cons, List.length_append] at hsize
    rw [List.nil_append, List.flatMap_cons, List.append_assoc] at hat
    have howner := hskip rec List.mem_cons_self
    refine ⟨p + rec.owner.encode.length + 10, hat.left.right.right.right.right.right, ?_⟩
    rw [List.nil_append, List.length_cons, parseAnswers_record howner hat (by omega), if_pos htype]
  | cons a before ih =>
    obtain ⟨ha, hbefore⟩ := List.forall_mem_cons.mp hbefore
    obtain ⟨howner, hskip⟩ := List.forall_mem_cons.mp hskip
    rw [List.cons_append, List.flatMap_cons, List.length_append] at hsize
    rw [List.cons_append, List.flatMap_cons, List.append_assoc] at hat
    rw [List.cons_append, List.length_cons, parseAnswers_record howner hat (by omega), if_neg ha]
    exact ih hskip hbefore hat.right (by omega)

end

/-! ## the address -/

theorem deserialize32be_at {mem : Bytes} {p : ℕ} {data : Bytes} {i : ℕ} (hat : At mem p data)
    (h : i + 4 ≤ data.length) :
    deserialize32be mem (p + i) = some (UInt32.ofNat (ofBytesBE ((data.drop i).take 4))) := by
  have hdrop : At mem (p + i) (data.drop i) := by
    have hsplit : At mem p (data.take i ++ data.drop i) := (List.take_append_drop i data).symm ▸ hat
    have hlen : (data.take i).length = i := by
      rw [List.length_take]
      omega
    have hright := hsplit.right
    rw [hlen] at hright
    exact hright
  obtain ⟨a, b, c, d, rest, hdata⟩ : ∃ a b c d rest, data.drop i = a :: b :: c :: d :: rest := by
    have hlen : 4 ≤ (data.drop i).length := by
      rw [List.length_drop]
      omega
    match data.drop i, hlen with
    | a :: b :: c :: d :: rest, _ => exact ⟨a, b, c, d, rest, rfl⟩
  rw [hdata] at hdrop ⊢
  unfold deserialize32be deserialize16be
  rw [hdrop.head, hdrop.tail.head, hdrop.tail.tail.head, hdrop.tail.tail.tail.head]
  show some (UInt32.ofNat ((UInt16.ofNat (a.toNat * 256 + b.toNat)).toNat * 65536 +
    (UInt16.ofNat (c.toNat * 256 + d.toNat)).toNat)) =
    some (UInt32.ofNat ((((0 * 256 + a.toNat) * 256 + b.toNat) * 256 + c.toNat) * 256 + d.toNat))
  have ha := a.toNat_lt
  have hb := b.toNat_lt
  have hc := c.toNat_lt
  have hd := d.toNat_lt
  rw [UInt16.toNat_ofNat', UInt16.toNat_ofNat', Nat.mod_eq_of_lt (by omega),
    Nat.mod_eq_of_lt (by omega)]
  exact congrArg (fun n => some (UInt32.ofNat n)) (by omega)

/-- A record of the type with data of the right length gives its address. -/
theorem answerHost_data {mem data : Bytes} {p : ℕ} {type : UInt16} (hat : At mem p data)
    (htype : type = recordA ∧ data.length = 4 ∨ type = recordAAAA ∧ data.length = 16) :
    answerHost type mem p data.length = some ⟨.ok, addressOf type data⟩ := by
  rcases htype with ⟨rfl, hlen⟩ | ⟨rfl, hlen⟩
  · have h0 : deserialize32be mem p = _ :=
      deserialize32be_at hat (show 0 + 4 ≤ data.length by omega)
    unfold answerHost addressOf
    rw [if_pos rfl, if_neg (by omega), h0]
    rfl
  · have h0 : deserialize32be mem p = _ :=
      deserialize32be_at hat (show 0 + 4 ≤ data.length by omega)
    unfold answerHost addressOf
    rw [if_neg (by decide), if_pos rfl, if_neg (by omega), h0,
      deserialize32be_at hat (show 4 + 4 ≤ data.length by omega),
      deserialize32be_at hat (show 8 + 4 ≤ data.length by omega),
      deserialize32be_at hat (show 12 + 4 ≤ data.length by omega)]
    rfl

/-! ## the result -/

/-- A name without an empty label is read to the end of the question's name. -/
theorem parse_noEmptyLabel {mem name : Bytes} {p stop : ℕ} (hlen : name.length < 256)
    (hn : NoEmptyLabel name) (hat : At mem p (encodeHostName name))
    (hstop : p + (encodeHostName name).length ≤ stop) :
    parseHostNameFromDNSPacket mem p stop = some (name, p + (encodeHostName name).length) := by
  obtain ⟨hall, hdot⟩ := hostLabels_of_noEmptyLabel hn
  have hlabels : readableLabels name = hostLabels name :=
    List.takeWhile_eq_self_iff.mpr fun l hl => decide_eq_true (hall l hl)
  rw [parse_encodeHostName hlen hat hstop, hlabels, hdot, encodeHostName, List.length_append]
  rfl

/-- **The first answer:** a reply to a query for an A or an AAAA record with a record of this type
gives the address in the first one. -/
theorem parseReply_firstAnswer (r : Resolver) (reply : Reply) (before after : List Record)
    (rec : Record) (hkind : r.recordType = recordA ∨ r.recordType = recordAAAA)
    (hlen : r.hostName.length ≤ 253) (hlabels : NoEmptyLabel r.hostName)
    (hname : reply.name = r.hostName) (htype : reply.type = r.recordType)
    (hanswers : reply.answers = before ++ rec :: after)
    (howner : ∀ a ∈ reply.answers, a.owner.Skippable)
    (hdata : ∀ a ∈ reply.answers,
      (a.type = recordA → a.data.length = 4) ∧ (a.type = recordAAAA → a.data.length = 16))
    (hbefore : ∀ a ∈ before, a.type ≠ r.recordType) (hrec : rec.type = r.recordType) :
    parseReplyFromDNS r reply.encode reply.encode.length =
      some ⟨.ok, addressOf rec.type rec.data⟩ := by
  have hat : At reply.encode 0 reply.encode := List.prefix_refl _
  have hbody : At reply.encode 12 (question reply.name reply.type ++
      (reply.answers.flatMap Record.encode ++ reply.rest)) :=
    hat.right.right.right.right.right.right
  have hsize : 12 + ((question reply.name reply.type).length +
      ((reply.answers.flatMap Record.encode).length + reply.rest.length)) ≤
      reply.encode.length := by
    have hle := hbody.length_le
    rw [List.length_append, List.length_append, List.length_drop] at hle
    have hpos : 0 < (question reply.name reply.type).length := by
      unfold question
      rw [List.length_append]
      exact Nat.add_pos_right _ (Nat.succ_pos _)
    omega
  have hquestion : (question reply.name reply.type).length =
      (encodeHostName reply.name).length + 4 := by
    unfold question
    rw [List.length_append]
    rfl
  have hmem : rec ∈ reply.answers := hanswers ▸ List.mem_append_right before List.mem_cons_self
  have hkind' : rec.type = recordA ∧ rec.data.length = 4 ∨
      rec.type = recordAAAA ∧ rec.data.length = 16 := by
    obtain ⟨hA, hAAAA⟩ := hdata rec hmem
    rcases hkind with h | h
    · exact .inl ⟨hrec.trans h, hA (hrec.trans h)⟩
    · exact .inr ⟨hrec.trans h, hAAAA (hrec.trans h)⟩
  have hheader := header_reply hat
  rw [if_neg (List.ne_nil_of_mem hmem)] at hheader
  have hcount : (UInt16.ofNat reply.answers.length).toNat = reply.answers.length := by
    rw [UInt16.toNat_ofNat']
    exact Nat.mod_eq_of_lt reply.answers_length
  rw [hname, htype] at hbody hquestion hsize
  have hparse := parse_noEmptyLabel (hlen.trans_lt (by decide)) hlabels hbody.left.left
    (show 12 + (encodeHostName r.hostName).length ≤ reply.encode.length by omega)
  have hfields := hbody.left.right
  have hclass :
      deserialize16be reply.encode (12 + (encodeHostName r.hostName).length + 2) = some 1 :=
    deserialize16be_at hfields.right
  have hrecords := hbody.right
  rw [hquestion, ← Nat.add_assoc, hanswers] at hrecords
  rw [hanswers] at howner hsize
  obtain ⟨q, hq, hwalk⟩ := parseAnswers_records howner hbefore hrec hrecords
    (show _ + _ ≤ reply.encode.length by omega)
  rw [parseReplyFromDNS_eq (by omega), hheader, Option.bind_some]
  show parseBody r reply.encode reply.encode.length _ = _
  rw [parseBody_eq hparse, deserialize16be_at hfields.left, Option.bind_some,
    if_neg (not_not.mpr rfl), hclass, Option.bind_some,
    if_neg (not_not.mpr rfl), hcount, hanswers, hwalk, ← hrec, answerHost_data hq hkind']

/-- a request for the A record of the host "a" -/
def requestA : Resolver :=
  { ({} : Tables).newResolver 0 ⟨1, [97], 1000, Address.unset⟩ 0 0 with recordType := recordA }

/-- the record "CNAME" of the host "a" -/
def aliasRecord : Record := { cname with owner := ⟨[[97]], none, by decide, nofun⟩ }

/-- the address 127.0.0.1, with a pointer to the question as its owner -/
def loopback : Record :=
  { cname with type := recordA, data := [127, 0, 0, 1], data_length := by decide }

/-- an alias and then an address -/
def aliasReply : Reply :=
  { replyTo [aliasRecord, loopback] (by decide) with type := recordA }

theorem parseReply_firstAnswer_alias :
    parseReplyFromDNS requestA aliasReply.encode aliasReply.encode.length =
      some ⟨.ok, Ip.ofV4 0x7f000001⟩ := by
  refine parseReply_firstAnswer requestA aliasReply [aliasRecord] [] loopback (.inl rfl) (by decide)
    (by decide) rfl rfl rfl ?_ ?_ (by decide) rfl
  · exact List.forall_mem_cons.mpr ⟨.inr ⟨rfl, by decide⟩,
      List.forall_mem_singleton.mpr (.inl ⟨rfl, nofun⟩)⟩
  · exact List.forall_mem_cons.mpr ⟨by decide, List.forall_mem_singleton.mpr (by decide)⟩

end Setka
