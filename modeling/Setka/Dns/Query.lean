import Mathlib.Data.List.TakeWhile
import Setka.Lib.Span
import Setka.Dns.Receive

/-!
# The query packet

`LookupThread::SendRequestToDNS` writes the host name label by label; `ParseHostNameFromDNSPacket`
reads the labels of a reply back.

* `encodeHostName`, `question`, `requestPacket`   what is sent;
* `dotted`              the host name that a list of labels gives;
* `parseHostName_labels`   reading back labels that are not empty;
* `parse_encodeHostName_iff`   the host name is read back if and only if it has no empty label.
-/

namespace Setka

/-! ## writing -/

def serialize16be (x : UInt16) : Bytes := [UInt8.ofNat (x.toNat / 256), UInt8.ofNat x.toNat]

/-- The loop over the host name: a label ends at the next dot or at the end of the name.  Every
round goes on by at least one byte. -/
def hostLabelsLoop : ℕ → Bytes → List Bytes
  | 0, _ => []
  | fuel + 1, name =>
    if name = [] then []
    else
      let label := name.takeWhile (· ≠ dot)
      label :: hostLabelsLoop fuel (name.drop (label.length + 1))

def hostLabels (hostName : Bytes) : List Bytes := hostLabelsLoop hostName.length hostName

/-- the length byte and the bytes of a label -/
def encodeLabel (label : Bytes) : Bytes := UInt8.ofNat label.length :: label

/-- the domain name of a question -/
def encodeHostName (hostName : Bytes) : Bytes := (hostLabels hostName).flatMap encodeLabel ++ [0]

/-- the question section: name, type and class -/
def question (hostName : Bytes) (type : UInt16) : Bytes :=
  encodeHostName hostName ++ (serialize16be type ++ serialize16be 1)

/-- the bytes `SendRequestToDNS` writes -/
def requestPacket (r : Resolver) : Bytes :=
  serialize16be r.id ++ (serialize16be 0x100 ++ (serialize16be 1 ++ (serialize16be 0 ++
    (serialize16be 0 ++ (serialize16be 0 ++ question r.hostName r.recordType)))))

/-! ## reading -/

open Span

theorem deserialize16be_at {mem : Bytes} {p : ℕ} {x : UInt16} (h : At mem p (serialize16be x)) :
    deserialize16be mem p = some x := by
  have hhi : (UInt8.ofNat (x.toNat / 256)).toNat = x.toNat / 256 := by
    have := x.toNat_lt
    rw [UInt8.toNat_ofNat']
    omega
  have hlo : (UInt8.ofNat x.toNat).toNat = x.toNat % 256 := by
    rw [UInt8.toNat_ofNat']
  unfold deserialize16be
  rw [h.head, h.tail.head]
  show some (UInt16.ofNat _) = _
  rw [hhi, hlo, Nat.div_add_mod', UInt16.ofNat_toNat]

/-- A number is read where its two bytes stand. -/
theorem deserialize16be_iff {mem : Bytes} {p : ℕ} {x : UInt16} :
    deserialize16be mem p = some x ↔ At mem p (serialize16be x) := by
  refine ⟨fun h => ?_, deserialize16be_at⟩
  obtain ⟨hi, hhi, h⟩ := Option.bind_eq_some_iff.mp h
  obtain ⟨lo, hlo, h⟩ := Option.bind_eq_some_iff.mp h
  have hx : x.toNat = hi.toNat * 256 + lo.toNat := by
    have h1 := hi.toNat_lt
    have h2 := lo.toNat_lt
    rw [← Option.some.inj h, UInt16.toNat_ofNat']
    omega
  have hs : serialize16be x = [hi] ++ [lo] := by
    have h2 := lo.toNat_lt
    unfold serialize16be
    rw [hx, show (hi.toNat * 256 + lo.toNat) / 256 = hi.toNat by omega, UInt8.ofNat_toNat]
    refine congrArg (fun b => [hi] ++ [b]) (UInt8.toNat_inj.mp ?_)
    rw [UInt8.toNat_ofNat']
    omega
  rw [hs]
  exact (At.singleton hhi).append (At.singleton hlo)

/-- the host name with these labels -/
def dotted : List Bytes → Bytes
  | [] => []
  | label :: labels => label ++ labels.flatMap (dot :: ·)

/-- labels that a length byte can announce; the length zero ends a name -/
def Readable (labels : List Bytes) : Prop := ∀ l ∈ labels, l ≠ [] ∧ l.length < 256

instance (labels : List Bytes) : Decidable (Readable labels) :=
  inferInstanceAs (Decidable (∀ l ∈ labels, _))

theorem dotted_ne_nil {labels : List Bytes} (h : Readable labels) (hne : labels ≠ []) :
    dotted labels ≠ [] := by
  obtain ⟨label, labels, rfl⟩ := List.exists_cons_of_ne_nil hne
  exact List.append_ne_nil_of_left_ne_nil (h label List.mem_cons_self).1 _

/-- a label after the host name so far -/
def addLabel (host label : Bytes) : Bytes := (if host ≠ [] then host ++ [dot] else host) ++ label

theorem addLabel_ne_nil {host label : Bytes} (h : label ≠ []) : addLabel host label ≠ [] :=
  List.append_ne_nil_of_right_ne_nil _ h

theorem foldl_addLabel {host : Bytes} (h : host ≠ []) (labels : List Bytes) :
    labels.foldl addLabel host = host ++ labels.flatMap (dot :: ·) := by
  induction labels generalizing host with
  | nil => exact (List.append_nil host).symm
  | cons label labels ih =>
    have hadd : addLabel host label = host ++ dot :: label := by
      unfold addLabel
      rw [if_pos h, List.append_assoc]
      rfl
    rw [List.foldl_cons, hadd, ih (List.append_ne_nil_of_left_ne_nil h _), List.append_assoc]
    rfl

theorem foldl_addLabel_nil {labels : List Bytes} (h : Readable labels) :
    labels.foldl addLabel [] = dotted labels := by
  cases labels with
  | nil => rfl
  | cons label labels =>
    rw [List.foldl_cons]
    exact foldl_addLabel (addLabel_ne_nil (h label List.mem_cons_self).1) labels

theorem length_le_labels (labels : List Bytes) :
    labels.length ≤ (labels.flatMap encodeLabel).length := by
  induction labels with
  | nil => exact Nat.le_refl 0
  | cons l labels ih =>
    rw [List.flatMap_cons, List.length_append]
    show labels.length + 1 ≤ l.length + 1 + _
    omega

section
variable {mem : Bytes} {p stop fuel : ℕ} {host tail : Bytes}

/-- one round of the loop of `ParseHostNameFromDNSPacket` -/
theorem parseHostNameLoop_succ : parseHostNameLoop mem stop (fuel + 1) p host =
    if p = stop then some ([], p)
    else mem[p]?.bind fun len =>
      if len = 0 then some (host, p + 1)
      else if stop < p + 1 + len.toNat then some ([], p + 1)
      else (readBytes mem (p + 1) len.toNat).bind fun label =>
        parseHostNameLoop mem stop fuel (p + 1 + len.toNat) (addLabel host label) := by
  cases host <;> rfl

theorem parseHostNameLoop_end (hp : p < stop) (hat : At mem p (0 :: tail)) :
    parseHostNameLoop mem stop (fuel + 1) p host = some (host, p + 1) := by
  rw [parseHostNameLoop_succ, if_neg hp.ne, hat.head]
  rfl

theorem parseHostNameLoop_label {label : Bytes} (hl : label ≠ [] ∧ label.length < 256)
    (hat : At mem p (encodeLabel label ++ tail)) (hstop : p + (encodeLabel label).length ≤ stop) :
    parseHostNameLoop mem stop (fuel + 1) p host = parseHostNameLoop mem stop fuel
      (p + (encodeLabel label).length) (addLabel host label) := by
  have hlen : (encodeLabel label).length = label.length + 1 := rfl
  have hpos : 0 < label.length := List.length_pos_of_ne_nil hl.1
  have hn : (UInt8.ofNat label.length).toNat = label.length := by
    rw [UInt8.toNat_ofNat']
    omega
  have hne : UInt8.ofNat label.length ≠ 0 := by
    intro h
    rw [h] at hn
    exact absurd hn.symm hpos.ne'
  have hlabel : At mem (p + 1) label := hat.tail.left
  have hmem : p + 1 + label.length ≤ mem.length := by
    have := hat.left.le
    omega
  have hread : readBytes mem (p + 1) label.length = some label := by
    unfold readBytes
    rw [if_pos hmem, hlabel.take]
  rw [parseHostNameLoop_succ, if_neg (show ¬ p = stop by omega), hat.head, Option.bind_some,
    if_neg hne, hn, if_neg (show ¬ stop < p + 1 + label.length by omega), hread, Option.bind_some,
    hlen, Nat.add_right_comm p 1, Nat.add_assoc p]

/-- The loop of `ParseHostNameFromDNSPacket` goes through the labels. -/
theorem parseHostNameLoop_labels {labels : List Bytes} (h : Readable labels)
    (hat : At mem p (labels.flatMap encodeLabel ++ tail))
    (hstop : p + (labels.flatMap encodeLabel).length ≤ stop) :
    parseHostNameLoop mem stop (fuel + labels.length) p host = parseHostNameLoop mem stop fuel
      (p + (labels.flatMap encodeLabel).length) (labels.foldl addLabel host) := by
  induction labels generalizing p host with
  | nil => rfl
  | cons label labels ih =>
    obtain ⟨hl, hrest⟩ := List.forall_mem_cons.mp h
    rw [List.flatMap_cons, List.length_append] at hstop
    rw [List.flatMap_cons, List.append_assoc] at hat
    rw [List.length_cons, ← Nat.add_assoc, parseHostNameLoop_label hl hat (by omega),
      ih hrest hat.right (by omega), List.flatMap_cons, List.length_append, Nat.add_assoc]
    rfl

theorem parseHostName_labels {labels : List Bytes} (h : Readable labels)
    (hat : At mem p (labels.flatMap encodeLabel ++ 0 :: tail))
    (hstop : p + (labels.flatMap encodeLabel).length < stop) :
    parseHostNameFromDNSPacket mem p stop =
      some (dotted labels, p + (labels.flatMap encodeLabel).length + 1) := by
  have hcount := length_le_labels labels
  unfold parseHostNameFromDNSPacket
  rw [show stop - p + 1 = stop - p - labels.length + 1 + labels.length by omega,
    parseHostNameLoop_labels h hat hstop.le, parseHostNameLoop_end hstop hat.right,
    foldl_addLabel_nil h]

end

/-! ## the host name of a request -/

/-- More rounds than bytes change nothing. -/
theorem hostLabelsLoop_eq {name : Bytes} {fuel fuel' : ℕ} (h : name.length ≤ fuel)
    (h' : name.length ≤ fuel') : hostLabelsLoop fuel name = hostLabelsLoop fuel' name := by
  induction fuel generalizing name fuel' with
  | zero =>
    rw [List.length_eq_zero_iff.mp (Nat.le_zero.mp h)]
    cases fuel' <;> rfl
  | succ fuel ih =>
    cases fuel' with
    | zero =>
      rw [List.length_eq_zero_iff.mp (Nat.le_zero.mp h')]
      rfl
    | succ fuel' =>
      unfold hostLabelsLoop
      split
      · rfl
      · refine congrArg _ (ih ?_ ?_) <;> rw [List.length_drop] <;> omega

theorem hostLabels_cons {name label rest : Bytes} (hne : name ≠ [])
    (hl : name.takeWhile (· ≠ dot) = label) (hr : name.drop (label.length + 1) = rest) :
    hostLabels name = label :: hostLabels rest := by
  have hpos := List.length_pos_of_ne_nil hne
  have hlen : rest.length ≤ name.length - 1 := by
    rw [← hr, List.length_drop]
    omega
  have hloop : hostLabels name = hostLabelsLoop (name.length - 1 + 1) name := by
    rw [Nat.sub_add_cancel hpos]
    rfl
  rw [hloop]
  unfold hostLabelsLoop
  rw [if_neg hne]
  dsimp only
  rw [hl, hr, hostLabelsLoop_eq hlen (Nat.le_refl _)]
  rfl

/-- **Cases of a host name:** empty, one label, or a label with a dot after it. -/
theorem hostName_cases (name : Bytes) : name = [] ∨
    (dot ∉ name ∧ name ≠ [] ∧ hostLabels name = [name]) ∨
    ∃ label rest, dot ∉ label ∧ name = label ++ dot :: rest ∧
      hostLabels name = label :: hostLabels rest := by
  have htake : ∀ {l : Bytes}, dot ∉ l → ∀ b ∈ l, decide (b ≠ dot) = true :=
    fun h b hb => decide_eq_true fun heq => h (heq ▸ hb)
  by_cases hnil : name = []
  · exact .inl hnil
  · by_cases h : dot ∈ name
    · obtain ⟨label, rest, rfl, hl⟩ := List.eq_append_cons_of_mem h
      refine .inr (.inr ⟨label, rest, hl, rfl, hostLabels_cons hnil ?_ ?_⟩)
      · rw [List.takeWhile_append_of_pos (htake hl), List.takeWhile_cons_of_neg (by simp),
          List.append_nil]
      · rw [← List.drop_drop, List.drop_left]
        rfl
    · refine .inr (.inl ⟨h, hnil, ?_⟩)
      have hrest : name.drop (name.length + 1) = [] := List.drop_eq_nil_of_le (Nat.le_succ _)
      rw [hostLabels_cons hnil (List.takeWhile_eq_self_iff.mpr (htake h)) hrest]
      rfl

/-- no label is empty: no leading, trailing or doubled dot -/
def NoEmptyLabel (name : Bytes) : Prop := [] ∉ name.splitOn dot

instance (name : Bytes) : Decidable (NoEmptyLabel name) := inferInstanceAs (Decidable (¬ _))

theorem noEmptyLabel_cons {label rest : Bytes} (h : dot ∉ label) :
    NoEmptyLabel (label ++ dot :: rest) ↔ label ≠ [] ∧ NoEmptyLabel rest := by
  unfold NoEmptyLabel
  rw [List.splitOn_append_cons_self_of_not_mem h, List.mem_cons, not_or, ne_comm]

theorem flatMap_dot {labels : List Bytes} (h : labels ≠ []) :
    labels.flatMap (dot :: ·) = dot :: dotted labels := by
  cases labels with
  | nil => exact absurd rfl h
  | cons label labels => rfl

/-- A host name without an empty label is the one its labels give. -/
theorem hostLabels_of_noEmptyLabel {name : Bytes} (h : NoEmptyLabel name) :
    (∀ l ∈ hostLabels name, l ≠ []) ∧ dotted (hostLabels name) = name := by
  have key : (∀ l ∈ hostLabels name, l ≠ []) ∧ dotted (hostLabels name) = name ∧
      hostLabels name ≠ [] := by
    induction hn : name.length using Nat.strong_induction_on generalizing name with
    | _ n ih =>
      rcases hostName_cases name with rfl | ⟨_, hne, hl⟩ | ⟨label, rest, hdot, rfl, hl⟩
      · exact absurd List.mem_cons_self h
      · rw [hl]
        refine ⟨fun l hmem => ?_, List.append_nil _, List.cons_ne_nil _ _⟩
        rw [List.mem_singleton.mp hmem]
        exact hne
      · obtain ⟨hlabel, hrest⟩ := (noEmptyLabel_cons hdot).mp h
        rw [List.length_append, List.length_cons] at hn
        obtain ⟨h1, h2, h3⟩ := ih rest.length (by omega) hrest rfl
        rw [hl]
        refine ⟨List.forall_mem_cons.mpr ⟨hlabel, h1⟩, ?_, List.cons_ne_nil _ _⟩
        show label ++ (hostLabels rest).flatMap (dot :: ·) = _
        rw [flatMap_dot h3, h2]
  exact ⟨key.1, key.2.1⟩

/-- the labels before the first empty one -/
def readableLabels (name : Bytes) : List Bytes := (hostLabels name).takeWhile (· ≠ [])

/-- Of a host name with an empty label, a part is lost. -/
theorem readableLabels_lt {name : Bytes} (hne : name ≠ []) (h : ¬ NoEmptyLabel name) :
    (dotted (readableLabels name)).length < name.length := by
  induction hn : name.length using Nat.strong_induction_on generalizing name with
  | _ n ih =>
    rcases hostName_cases name with rfl | ⟨hdot, _, hl⟩ | ⟨label, rest, hdot, rfl, hl⟩
    · exact absurd rfl hne
    · refine absurd ?_ h
      unfold NoEmptyLabel
      rw [List.splitOn_eq_singleton hdot]
      simpa using hne
    · unfold readableLabels
      rw [List.length_append, List.length_cons] at hn
      rw [hl]
      by_cases hlabel : label = []
      · rw [List.takeWhile_cons_of_neg (by simpa using hlabel)]
        exact hn ▸ Nat.succ_pos _
      · rw [List.takeWhile_cons_of_pos (by simpa using hlabel)]
        show (label ++ (readableLabels rest).flatMap (dot :: ·)).length < n
        rw [List.length_append]
        by_cases hr : readableLabels rest = []
        · rw [hr]
          show label.length + 0 < n
          omega
        · rw [flatMap_dot hr, List.length_cons]
          have hrest : rest ≠ [] := by
            rintro rfl
            exact hr rfl
          have hbad : ¬ NoEmptyLabel rest := fun hg =>
            h ((noEmptyLabel_cons hdot).mpr ⟨hlabel, hg⟩)
          have := ih rest.length (by omega) hrest hbad rfl
          omega

theorem hostLabels_length {name : Bytes} : ∀ l ∈ hostLabels name, l.length ≤ name.length := by
  induction hn : name.length using Nat.strong_induction_on generalizing name with
  | _ n ih =>
    rcases hostName_cases name with rfl | ⟨_, _, hl⟩ | ⟨label, rest, _, rfl, hl⟩
    · exact nofun
    · intro l hmem
      rw [hl, List.mem_singleton] at hmem
      rw [hmem, hn]
    · intro l hmem
      rw [List.length_append, List.length_cons] at hn
      rw [hl] at hmem
      rcases List.mem_cons.mp hmem with rfl | hmem
      · omega
      · have := ih rest.length (by omega) rfl l hmem
        omega

/-- The name of a question is made of the readable labels and a zero byte, with more after it if a
label is empty. -/
theorem encodeHostName_eq (name : Bytes) : ∃ tail,
    encodeHostName name = (readableLabels name).flatMap encodeLabel ++ 0 :: tail := by
  have hsplit : hostLabels name = readableLabels name ++ (hostLabels name).dropWhile (· ≠ []) :=
    List.takeWhile_append_dropWhile.symm
  unfold encodeHostName
  rw [hsplit, List.flatMap_append, List.append_assoc]
  cases hd : (hostLabels name).dropWhile (· ≠ []) with
  | nil => exact ⟨[], rfl⟩
  | cons label labels =>
    have hlabel : label = [] := by
      have hhead := List.head?_dropWhile_not (fun l => decide (l ≠ [])) (hostLabels name)
      rw [hd] at hhead
      simpa using hhead
    rw [hlabel]
    exact ⟨_, rfl⟩

section
variable {mem name : Bytes} {p stop : ℕ}

theorem parse_encodeHostName (hlen : name.length < 256) (hat : At mem p (encodeHostName name))
    (hstop : p + (encodeHostName name).length ≤ stop) : parseHostNameFromDNSPacket mem p stop =
      some (dotted (readableLabels name),
        p + ((readableLabels name).flatMap encodeLabel).length + 1) := by
  obtain ⟨tail, heq⟩ := encodeHostName_eq name
  rw [heq] at hat hstop
  rw [List.length_append, List.length_cons] at hstop
  refine parseHostName_labels (fun l hl => ?_) hat (by omega)
  have hmem := List.takeWhile_subset _ hl
  have hne := List.mem_takeWhile_imp hl
  exact ⟨of_decide_eq_true hne, (hostLabels_length l hmem).trans_lt hlen⟩

/-- **A host name is read back** from its question if and only if it is empty or has no empty
label. -/
theorem parse_encodeHostName_iff (hlen : name.length < 256) (hat : At mem p (encodeHostName name))
    (hstop : p + (encodeHostName name).length ≤ stop) :
    (∃ q, parseHostNameFromDNSPacket mem p stop = some (name, q)) ↔
      name = [] ∨ NoEmptyLabel name := by
  rw [parse_encodeHostName hlen hat hstop]
  constructor
  · rintro ⟨q, hq⟩
    by_contra hcon
    obtain ⟨hne, hbad⟩ := not_or.mp hcon
    have hlt := readableLabels_lt hne hbad
    rw [(Prod.mk.inj (Option.some.inj hq)).1] at hlt
    exact hlt.false
  · intro h
    refine ⟨_, congrArg some (Prod.ext ?_ rfl)⟩
    rcases h with rfl | h
    · rfl
    · obtain ⟨hall, hdot⟩ := hostLabels_of_noEmptyLabel h
      unfold readableLabels
      rw [List.takeWhile_eq_self_iff.mpr fun l hl => decide_eq_true (hall l hl), hdot]

end

end Setka
