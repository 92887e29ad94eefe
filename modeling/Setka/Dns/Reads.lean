import Setka.Dns.Query

/-!
# What the parsers read

`ParseHostNameFromDNSPacket` reads nothing outside of its range, and the loop through the answers
reads nothing outside of the reply, if it starts inside.

* `parseHostName_congr`, `parseAnswers_congr`   so they give the same in two memories that agree
                          there;
* `parseHostName_total`   a host name in a range inside the memory is read to an end;
* `parseHostName_iff`     what it is read as: `NameEnds`;
* `parseHostName_cases`   a host name that is not empty comes from labels with a zero byte after
                          them;
* `parseHostName_stop`    what a longer range changes.
-/

namespace Setka

open Span

/-! ## numbers -/

theorem deserialize16be_total {mem : Bytes} {p : ℕ} (h : p + 2 ≤ mem.length) :
    ∃ x, deserialize16be mem p = some x := by
  unfold deserialize16be
  rw [List.getElem?_eq_getElem (show p < mem.length by omega),
    List.getElem?_eq_getElem (show p + 1 < mem.length by omega)]
  exact ⟨_, rfl⟩

theorem deserialize16be_eq_none {mem : Bytes} {p : ℕ} (h : mem.length < p + 2) :
    deserialize16be mem p = none := by
  unfold deserialize16be
  rw [List.getElem?_eq_none (show mem.length ≤ p + 1 by omega)]
  cases mem[p]? <;> rfl

section
variable {mem mem' : Bytes} {n p k : ℕ} (h : Agree n mem mem')
include h

theorem deserialize16be_congr (hp : p + 2 ≤ n) :
    deserialize16be mem p = deserialize16be mem' p := by
  unfold deserialize16be
  rw [h.getElem? (show p < n by omega), h.getElem? (show p + 1 < n by omega)]

theorem deserialize32be_congr (hp : p + 4 ≤ n) :
    deserialize32be mem p = deserialize32be mem' p := by
  unfold deserialize32be
  rw [deserialize16be_congr h (by omega), deserialize16be_congr h (show p + 2 + 2 ≤ n by omega)]

theorem header_congr (hn : 12 ≤ n) : header mem = header mem' := by
  unfold header
  rw [deserialize16be_congr h (show 2 + 2 ≤ n by omega),
    deserialize16be_congr h (show 4 + 2 ≤ n by omega),
    deserialize16be_congr h (show 6 + 2 ≤ n by omega)]

variable (hm : n ≤ mem.length) (hm' : n ≤ mem'.length)
include hm hm'

theorem readBytes_congr (hp : p + k ≤ n) : readBytes mem p k = readBytes mem' p k := by
  unfold readBytes
  rw [if_pos (by omega), if_pos (by omega), h.slice hp]

/-! ## the host name -/

theorem parseHostNameLoop_congr {stop fuel : ℕ} {host : Bytes} (hs : stop ≤ n) (hp : p ≤ stop) :
    parseHostNameLoop mem stop fuel p host = parseHostNameLoop mem' stop fuel p host := by
  induction fuel generalizing p host with
  | zero => rfl
  | succ fuel ih =>
    rw [parseHostNameLoop_succ, parseHostNameLoop_succ]
    split
    · rfl
    · rw [h.getElem? (show p < n by omega)]
      refine Option.bind_congr fun len _ => ?_
      split
      · rfl
      · split
        · rfl
        · rw [readBytes_congr h hm hm' (show p + 1 + len.toNat ≤ n by omega)]
          exact Option.bind_congr fun label _ => ih (by omega)

theorem parseHostName_congr {stop : ℕ} (hs : stop ≤ n) (hp : p ≤ stop) :
    parseHostNameFromDNSPacket mem p stop = parseHostNameFromDNSPacket mem' p stop :=
  parseHostNameLoop_congr h hm hm' hs hp

/-! ## the answers -/

theorem skipDomainName_congr {stop : ℕ} (hs : stop ≤ n) (hp : p ≤ stop) :
    skipDomainName stop (mem.drop p) p = skipDomainName stop (mem'.drop p) p := by
  induction hk : stop - p generalizing p with
  | zero =>
    have hstop : ∀ l : Bytes, skipDomainName stop l p = some p := by
      intro l
      have heq : p = stop := by omega
      cases l with
      | nil => exact if_pos heq
      | cons b l => exact if_pos heq
    rw [hstop, hstop]
  | succ k ih =>
    have hne : ¬ p = stop := by omega
    have hp1 : p < mem.length := by omega
    have hp2 : p < mem'.length := by omega
    have hb : mem[p] = mem'[p] := by
      have hget := h.getElem? (show p < n by omega)
      rw [List.getElem?_eq_getElem hp1, List.getElem?_eq_getElem hp2] at hget
      exact Option.some.inj hget
    rw [List.drop_eq_getElem_cons hp1, List.drop_eq_getElem_cons hp2, hb]
    unfold skipDomainName
    rw [if_neg hne, if_neg hne]
    split
    · rfl
    · exact ih (by omega) (by omega)

theorem skipOwnerName_congr {size : ℕ} (hs : size ≤ n) (hp : p < size) :
    skipOwnerName mem size p = skipOwnerName mem' size p := by
  unfold skipOwnerName
  rw [h.getElem? (show p < n by omega), skipDomainName_congr h hm hm' hs hp.le]

omit hm hm' in
theorem answerHost_congr {type : UInt16} (hp : p + k ≤ n) :
    answerHost type mem p k = answerHost type mem' p k := by
  unfold answerHost
  split
  · split
    · rfl
    · rw [deserialize32be_congr h (by omega)]
  · split
    · split
      · rfl
      · rw [deserialize32be_congr h (show p + 4 ≤ n by omega),
          deserialize32be_congr h (show p + 4 + 4 ≤ n by omega),
          deserialize32be_congr h (show p + 8 + 4 ≤ n by omega),
          deserialize32be_congr h (show p + 12 + 4 ≤ n by omega)]
    · rfl

/-- **The loop through the answers reads the reply only.** -/
theorem parseAnswers_congr {type : UInt16} {size count : ℕ} (hs : size ≤ n) (hp : p ≤ size) :
    parseAnswers type mem size count p = parseAnswers type mem' size count p := by
  induction count generalizing p with
  | zero => rfl
  | succ count ih =>
    unfold parseAnswers
    split
    · rfl
    · rename_i hne
      rw [skipOwnerName_congr h hm hm' hs (by omega)]
      refine Option.bind_congr fun o _ => ?_
      cases o with
      | none => rfl
      | some q =>
        dsimp only
        split
        · rfl
        · rw [deserialize16be_congr h (show q + 2 ≤ n by omega)]
          refine Option.bind_congr fun t _ => ?_
          split
          · rfl
          · split
            · rfl
            · split
              · rfl
              · rw [deserialize16be_congr h (show q + 8 + 2 ≤ n by omega)]
                refine Option.bind_congr fun len _ => ?_
                split
                · rfl
                · split
                  · exact answerHost_congr h (by omega)
                  · exact ih (by omega)

end

/-! ## reading a host name to its end -/

section
variable {mem : Bytes} {p stop : ℕ}

theorem parseHostNameLoop_total (hs : stop ≤ mem.length) {fuel : ℕ} {host : Bytes} (hp : p ≤ stop)
    (hfuel : stop - p < fuel) :
    ∃ h q, parseHostNameLoop mem stop fuel p host = some (h, q) ∧ q ≤ stop := by
  induction fuel generalizing p host with
  | zero => exact absurd hfuel (Nat.not_lt_zero _)
  | succ fuel ih =>
    rw [parseHostNameLoop_succ]
    split
    · exact ⟨_, _, rfl, hp⟩
    · rw [List.getElem?_eq_getElem (show p < mem.length by omega), Option.bind_some]
      split
      · exact ⟨_, _, rfl, by omega⟩
      · split
        · exact ⟨_, _, rfl, by omega⟩
        · unfold readBytes
          rw [if_pos (by omega)]
          exact ih (by omega) (by omega)

/-- A host name in a range inside the memory is read to an end. -/
theorem parseHostName_total (hs : stop ≤ mem.length) (hp : p ≤ stop) :
    ∃ h q, parseHostNameFromDNSPacket mem p stop = some (h, q) ∧ q ≤ stop :=
  parseHostNameLoop_total hs hp (Nat.lt_succ_self _)

theorem at_of_readBytes {k : ℕ} {label : Bytes} (h : readBytes mem p k = some label) :
    At mem p label ∧ label.length = k := by
  unfold readBytes at h
  split at h
  · rw [← Option.some.inj h, List.length_take, List.length_drop]
    exact ⟨List.take_prefix _ _, by omega⟩
  · cases h

/-- the readable labels stand at `p`, with the zero byte after them inside the range -/
def NameAt (mem : Bytes) (p stop : ℕ) (labels : List Bytes) : Prop :=
  Readable labels ∧ At mem p (labels.flatMap encodeLabel ++ [0]) ∧
    p + (labels.flatMap encodeLabel).length < stop

/-- The readable labels stand at `p`, and the range ends right after them, or inside of the label
after them. -/
def NameCut (mem : Bytes) (p stop : ℕ) (labels : List Bytes) (q : ℕ) : Prop :=
  Readable labels ∧ At mem p (labels.flatMap encodeLabel) ∧
    ((p + (labels.flatMap encodeLabel).length = stop ∧ q = stop) ∨
      ∃ len : UInt8, len ≠ 0 ∧ q = p + (labels.flatMap encodeLabel).length + 1 ∧ q ≤ stop ∧
        mem[p + (labels.flatMap encodeLabel).length]? = some len ∧ stop < q + len.toNat)

/-- The name at `p` is read as `host`, up to the position `q`: it is whole, or it is cut by the end
of the range and read as the empty name. -/
def NameEnds (mem : Bytes) (p stop : ℕ) (host : Bytes) (q : ℕ) : Prop :=
  ∃ labels, (NameAt mem p stop labels ∧ host = dotted labels ∧
    q = p + (labels.flatMap encodeLabel).length + 1) ∨ (host = [] ∧ NameCut mem p stop labels q)

theorem parseHostNameLoop_cases {fuel q : ℕ} {host host' : Bytes}
    (h : parseHostNameLoop mem stop fuel p host = some (host', q)) (hp : p ≤ stop) :
    ∃ labels, (NameAt mem p stop labels ∧ host' = labels.foldl addLabel host ∧
      q = p + (labels.flatMap encodeLabel).length + 1) ∨
      (host' = [] ∧ NameCut mem p stop labels q) := by
  induction fuel generalizing p host with
  | zero => cases h
  | succ fuel ih =>
    have hnil : Readable [] := nofun
    have hat : At mem p [] := List.nil_prefix
    rw [parseHostNameLoop_succ] at h
    split at h
    · rename_i heq
      cases h
      exact ⟨[], .inr ⟨rfl, hnil, hat, .inl ⟨heq, heq⟩⟩⟩
    · rename_i hne
      obtain ⟨len, hlen, h⟩ := Option.bind_eq_some_iff.mp h
      split at h
      · rename_i hzero
        cases h
        rw [hzero] at hlen
        refine ⟨[], .inl ⟨⟨hnil, At.singleton hlen, ?_⟩, rfl, rfl⟩⟩
        show p + 0 < stop
        omega
      · rename_i hnz
        split at h
        · rename_i hcut
          cases h
          exact ⟨[], .inr ⟨rfl, hnil, hat, .inr ⟨len, hnz, rfl, by omega, hlen, hcut⟩⟩⟩
        · obtain ⟨label, hread, h⟩ := Option.bind_eq_some_iff.mp h
          obtain ⟨hlabel, hl⟩ := at_of_readBytes hread
          have hreadable : label ≠ [] ∧ label.length < 256 := by
            refine ⟨?_, hl ▸ len.toNat_lt⟩
            rintro rfl
            exact hnz (UInt8.toNat_inj.mp hl.symm)
          have hhead : At mem p (encodeLabel label) := by
            unfold encodeLabel
            rw [hl, UInt8.ofNat_toNat]
            exact (At.singleton hlen).append hlabel
          have hsize : (encodeLabel label).length = 1 + len.toNat := by
            rw [← hl, Nat.add_comm]
            rfl
          have hstep : ∀ labels : List Bytes, p + ((label :: labels).flatMap encodeLabel).length =
              p + 1 + len.toNat + (labels.flatMap encodeLabel).length := by
            intro labels
            rw [List.flatMap_cons, List.length_append, hsize]
            omega
          have happend : ∀ {labels : List Bytes} {tail : Bytes},
              At mem (p + 1 + len.toNat) (labels.flatMap encodeLabel ++ tail) →
              At mem p ((label :: labels).flatMap encodeLabel ++ tail) := by
            intro labels tail hrest
            rw [List.flatMap_cons, List.append_assoc]
            refine hhead.append ?_
            rw [hsize, ← Nat.add_assoc]
            exact hrest
          obtain ⟨labels, h⟩ := ih h (by omega)
          refine ⟨label :: labels, h.imp ?_ ?_⟩
          · rintro ⟨⟨hrd, hrest, hlt⟩, rfl, rfl⟩
            exact ⟨⟨List.forall_mem_cons.mpr ⟨hreadable, hrd⟩, happend hrest,
              (hstep labels).trans_lt hlt⟩, rfl, congrArg (· + 1) (hstep labels).symm⟩
          · rintro ⟨hhost, hrd, hrest, hend⟩
            rw [← List.append_nil (labels.flatMap encodeLabel)] at hrest
            have hat' := happend hrest
            rw [List.append_nil] at hat'
            refine ⟨hhost, List.forall_mem_cons.mpr ⟨hreadable, hrd⟩, hat', ?_⟩
            rw [hstep]
            exact hend

/-- **What the host name of a range is read as,** and where. -/
theorem parseHostName_iff {host : Bytes} {q : ℕ} (hs : stop ≤ mem.length) (hp : p ≤ stop) :
    parseHostNameFromDNSPacket mem p stop = some (host, q) ↔ NameEnds mem p stop host q := by
  constructor
  · intro h
    obtain ⟨labels, hends⟩ := parseHostNameLoop_cases h hp
    refine ⟨labels, hends.imp_left ?_⟩
    rintro ⟨hat, rfl, rfl⟩
    exact ⟨hat, foldl_addLabel_nil hat.1, rfl⟩
  · rintro ⟨labels, ⟨⟨hrd, hat, hlt⟩, rfl, rfl⟩ | ⟨rfl, hrd, hat, hend⟩⟩
    · exact parseHostName_labels hrd hat hlt
    · have hcount := length_le_labels labels
      have hle : p + (labels.flatMap encodeLabel).length ≤ stop := by
        rcases hend with ⟨h, _⟩ | ⟨_, _, _, _, _, _⟩ <;> omega
      rw [← List.append_nil (labels.flatMap encodeLabel)] at hat
      unfold parseHostNameFromDNSPacket
      rw [show stop - p + 1 = stop - p - labels.length + 1 + labels.length by omega,
        parseHostNameLoop_labels hrd hat hle, parseHostNameLoop_succ]
      rcases hend with ⟨heq, rfl⟩ | ⟨len, hnz, rfl, hq, hlen, hcut⟩
      · rw [if_pos heq, heq]
      · rw [if_neg (by omega), hlen, Option.bind_some, if_neg hnz, if_pos hcut]

/-- **A host name comes from its labels.** -/
theorem parseHostName_cases {host : Bytes} {q : ℕ} (hp : p ≤ stop)
    (h : parseHostNameFromDNSPacket mem p stop = some (host, q)) :
    host = [] ∨ ∃ labels, Readable labels ∧ At mem p (labels.flatMap encodeLabel ++ [0]) ∧
      p + (labels.flatMap encodeLabel).length < stop ∧ host = dotted labels := by
  obtain ⟨labels, ⟨⟨hrd, hat, hlt⟩, rfl, _⟩ | ⟨rfl, _⟩⟩ := parseHostNameLoop_cases h hp
  · exact .inr ⟨labels, hrd, hat, hlt, foldl_addLabel_nil hrd⟩
  · exact .inl rfl

/-- Without a zero byte there is no host name. -/
theorem parseHostNameLoop_noZero {fuel : ℕ} {host : Bytes} {res : Bytes × ℕ}
    (h : parseHostNameLoop mem stop fuel p host = some res)
    (hz : ∀ i, p ≤ i → mem[i]? ≠ some 0) : res.1 = [] := by
  induction fuel generalizing p host with
  | zero => cases h
  | succ fuel ih =>
    rw [parseHostNameLoop_succ] at h
    split at h
    · cases h
      rfl
    · obtain ⟨len, hlen, h⟩ := Option.bind_eq_some_iff.mp h
      split at h
      · rename_i hzero
        rw [hzero] at hlen
        exact absurd hlen (hz p (Nat.le_refl p))
      · split at h
        · cases h
          rfl
        · obtain ⟨label, _, h⟩ := Option.bind_eq_some_iff.mp h
          exact ih h fun i hi => hz i (by omega)

theorem parseHostName_noZero {labels : List Bytes} {res : Bytes × ℕ} (hrd : Readable labels)
    (hat : At mem p (labels.flatMap encodeLabel))
    (hs : p + (labels.flatMap encodeLabel).length ≤ stop)
    (hz : ∀ i, p + (labels.flatMap encodeLabel).length ≤ i → mem[i]? ≠ some 0)
    (h : parseHostNameFromDNSPacket mem p stop = some res) : res.1 = [] := by
  have hcount := length_le_labels labels
  unfold parseHostNameFromDNSPacket at h
  rw [← List.append_nil (labels.flatMap encodeLabel)] at hat
  rw [show stop - p + 1 = stop - p - labels.length + 1 + labels.length by omega,
    parseHostNameLoop_labels hrd hat hs] at h
  exact parseHostNameLoop_noZero h hz

/-- **A longer range** changes the host name only if the shorter one ends inside the name. -/
theorem parseHostName_stop {n : ℕ} {x y : Bytes} {q₁ q₂ : ℕ} (hp : p ≤ n) (hn : n ≤ stop)
    (h₁ : parseHostNameFromDNSPacket mem p n = some (x, q₁))
    (h₂ : parseHostNameFromDNSPacket mem p stop = some (y, q₂)) :
    x = y ∨ (x = [] ∧ ∃ labels, labels ≠ [] ∧ Readable labels ∧
      At mem p (labels.flatMap encodeLabel) ∧ n ≤ p + (labels.flatMap encodeLabel).length ∧
      p + (labels.flatMap encodeLabel).length < stop ∧ y = dotted labels) := by
  rcases parseHostName_cases hp h₁ with rfl | ⟨labels, hrd, hat, hlt, rfl⟩
  · rcases parseHostName_cases (hp.trans hn) h₂ with rfl | ⟨labels, hrd, hat, hlt, rfl⟩
    · exact .inl rfl
    · by_cases hcut : p + (labels.flatMap encodeLabel).length < n
      · rw [parseHostName_labels hrd hat hcut] at h₁
        exact .inl (Prod.mk.inj (Option.some.inj h₁)).1.symm
      · by_cases hnil : labels = []
        · rw [hnil]
          exact .inl rfl
        · exact .inr ⟨rfl, labels, hnil, hrd, hat.left, by omega, hlt, rfl⟩
  · rw [parseHostName_labels hrd hat (hlt.trans_le hn)] at h₂
    exact .inl (Prod.mk.inj (Option.some.inj h₂)).1

end

end Setka
