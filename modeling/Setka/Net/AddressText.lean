import Mathlib.Algebra.Group.Nat.Defs
import Mathlib.Data.Fin.VecNotation
import Setka.Lib.Digits
import Setka.Lib.NetworkOrder
import Setka.Net.Address

/-!
# IP addresses as text

`address::ip::to_string` and `address::ip::parse`.  `inet_pton` is not part of the repository: it is
a parameter, with what is promised of it as hypotheses.

* `ReadsDotted`, `ReadsGroups`   what is used of `inet_pton`;
* `parse_toString`      what is read back: an IPv6 address with its quads in the opposite order;
* `parse_toString_iff`  printing and parsing give the address back if and only if it is IPv4, or
                        symmetric.
-/

namespace Setka

/-- `inet_pton`: the bytes of the address in network order, or a result other than 1 -/
structure InetPton where
  v4 : List Char → Option (Fin 4 → UInt8)
  v6 : List Char → Option (Fin 16 → UInt8)

/-- `ntohl` of the four bytes of an `in_addr` -/
def ntohl (a : Fin 4 → UInt8) : UInt32 :=
  UInt32.ofNat ((((a 0).toNat * 256 + (a 1).toNat) * 256 + (a 2).toNat) * 256 + (a 3).toNat)

/-- the loop of `is_ip_v4_string` -/
def isIpV4String : List Char → Bool
  | [] => false
  | c :: rest => if c = '.' then true else if c = ':' then false else isIpV4String rest

namespace Ip

/-- `address::ip(uint16_t a0, .., uint16_t a7)` -/
def ofGroups (a0 a1 a2 a3 a4 a5 a6 a7 : UInt16) : Ip where
  q0 := a0.toUInt32 <<< 16 ||| a1.toUInt32
  q1 := a2.toUInt32 <<< 16 ||| a3.toUInt32
  q2 := a4.toUInt32 <<< 16 ||| a5.toUInt32
  q3 := a6.toUInt32 <<< 16 ||| a7.toUInt32

/-- `address::ip(uint8_t a0, .., uint8_t a15)` -/
def ofBytes (a : Fin 16 → UInt8) : Ip :=
  ofGroups ((a 0).toUInt16 <<< 8 ||| (a 1).toUInt16) ((a 2).toUInt16 <<< 8 ||| (a 3).toUInt16)
    ((a 4).toUInt16 <<< 8 ||| (a 5).toUInt16) ((a 6).toUInt16 <<< 8 ||| (a 7).toUInt16)
    ((a 8).toUInt16 <<< 8 ||| (a 9).toUInt16) ((a 10).toUInt16 <<< 8 ||| (a 11).toUInt16)
    ((a 12).toUInt16 <<< 8 ||| (a 13).toUInt16) ((a 14).toUInt16 <<< 8 ||| (a 15).toUInt16)

/-! ## parsing -/

/-- `ip::parse_v4`; `none` is the exception "bad IP address format" -/
def parseV4 (net : InetPton) (str : List Char) : Option Ip :=
  (net.v4 str).map fun a => ofV4 (ntohl a)

def parseV6 (net : InetPton) (str : List Char) : Option Ip := (net.v6 str).map ofBytes

def parse (net : InetPton) (str : List Char) : Option Ip :=
  if isIpV4String str then parseV4 net str else parseV6 net str

/-! ## printing -/

def quad (h : Ip) : ℕ → UInt32
  | 0 => h.q0
  | 1 => h.q1
  | 2 => h.q2
  | _ => h.q3

/-- the loops of `to_string`: the items from `i - 1` down to 0, with a separator after each but the
last -/
def printLoop (item : ℕ → List Char) (sep : Char) : ℕ → List Char
  | 0 => []
  | 1 => item 0
  | i + 2 => item (i + 1) ++ sep :: printLoop item sep (i + 1)

/-- `ip::to_string` -/
def toString (h : Ip) : List Char :=
  if h.isV4 then
    printLoop (fun i => Nat.toDigits 10 (h.getV4 >>> UInt32.ofNat (8 * i) &&& 0xff).toNat) '.' 4
  else
    printLoop (fun i => Nat.toDigits 16
      (h.quad (i * 2 / 4) >>> UInt32.ofNat (16 * (i % 2)) &&& 0xffff).toNat) ':' 8

end Ip

/-! ## what is promised of `inet_pton` -/

/-- the standard text of an IPv4 address: its bytes in decimal, with dots between them -/
def dottedText (a : Fin 4 → UInt8) : List Char :=
  ['.'].intercalate (List.ofFn fun i => Nat.toDigits 10 (a i).toNat)

/-- the text of an IPv6 address as eight hexadecimal groups, with colons between them -/
def groupText (g : Fin 8 → UInt16) : List Char :=
  [':'].intercalate (List.ofFn fun i => Nat.toDigits 16 (g i).toNat)

/-- the bytes of eight groups in network order -/
def groupBytes (g : Fin 8 → UInt16) (i : Fin 16) : UInt8 :=
  let group := (g ⟨i / 2, by omega⟩).toNat
  if i.val % 2 = 0 then UInt8.ofNat (group / 256) else UInt8.ofNat group

namespace InetPton

def ReadsDotted (net : InetPton) : Prop := ∀ a, net.v4 (dottedText a) = some a

def ReadsGroups (net : InetPton) : Prop := ∀ g, net.v6 (groupText g) = some (groupBytes g)

end InetPton

/-! ## numbers and their parts -/

section
variable {x : UInt32} {i : ℕ}

theorem byte_of_quad (h : i < 4) :
    (x >>> UInt32.ofNat (8 * i) &&& 0xff).toNat = x.toNat / 2 ^ (8 * i) % 2 ^ 8 := by
  rw [UInt32.toNat_and, UInt32.toNat_shiftRight, UInt32.toNat_ofNat',
    Nat.mod_eq_of_lt (show 8 * i < 2 ^ 32 by omega), Nat.mod_eq_of_lt (show 8 * i < 32 by omega),
    Nat.shiftRight_eq_div_pow]
  exact Nat.and_two_pow_sub_one_eq_mod _ 8

theorem group_of_quad (h : i < 2) :
    (x >>> UInt32.ofNat (16 * i) &&& 0xffff).toNat = x.toNat / 2 ^ (16 * i) % 2 ^ 16 := by
  rw [UInt32.toNat_and, UInt32.toNat_shiftRight, UInt32.toNat_ofNat',
    Nat.mod_eq_of_lt (show 16 * i < 2 ^ 32 by omega), Nat.mod_eq_of_lt (show 16 * i < 32 by omega),
    Nat.shiftRight_eq_div_pow]
  exact Nat.and_two_pow_sub_one_eq_mod _ 16

end

theorem quad_of_groups (a b : UInt16) :
    (a.toUInt32 <<< 16 ||| b.toUInt32).toNat = a.toNat * 2 ^ 16 + b.toNat := by
  have ha := a.toNat_lt
  have hb := b.toNat_lt
  rw [UInt32.toNat_or, UInt32.toNat_shiftLeft, UInt16.toNat_toUInt32, UInt16.toNat_toUInt32]
  show a.toNat <<< 16 % 2 ^ 32 ||| b.toNat = _
  rw [Nat.shiftLeft_eq, Nat.mod_eq_of_lt (by omega), ← Nat.shiftLeft_eq,
    Nat.shiftLeft_add_eq_or_of_lt hb]

theorem group_of_bytes (a b : UInt8) :
    (a.toUInt16 <<< 8 ||| b.toUInt16).toNat = a.toNat * 2 ^ 8 + b.toNat := by
  have ha := a.toNat_lt
  have hb := b.toNat_lt
  rw [UInt16.toNat_or, UInt16.toNat_shiftLeft, UInt8.toNat_toUInt16, UInt8.toNat_toUInt16]
  show a.toNat <<< 8 % 2 ^ 16 ||| b.toNat = _
  rw [Nat.shiftLeft_eq, Nat.mod_eq_of_lt (by omega), ← Nat.shiftLeft_eq,
    Nat.shiftLeft_add_eq_or_of_lt hb]

/-- A group is put together again from its bytes. -/
theorem group_bytes (x : UInt16) : (UInt8.ofNat (x.toNat / 256)).toUInt16 <<< 8 |||
    (UInt8.ofNat x.toNat).toUInt16 = x := by
  have hx := x.toNat_lt
  rw [← UInt16.toNat_inj, group_of_bytes, UInt8.toNat_ofNat', UInt8.toNat_ofNat']
  omega

/-- the high and the low group of a quad -/
def highGroup (x : UInt32) : UInt16 := UInt16.ofNat (x.toNat / 65536)

def lowGroup (x : UInt32) : UInt16 := UInt16.ofNat x.toNat

theorem quad_groups (x : UInt32) : (highGroup x).toUInt32 <<< 16 ||| (lowGroup x).toUInt32 = x := by
  have hx := x.toNat_lt
  rw [← UInt32.toNat_inj, quad_of_groups]
  unfold highGroup lowGroup
  rw [UInt16.toNat_ofNat', UInt16.toNat_ofNat']
  omega

theorem ntohl_eq (a : Fin 4 → UInt8) : ntohl a = Word.wordBE a := by
  have hlt := (Word.wordBE a).toNat_lt
  rw [Word.toNat_wordBE] at hlt
  rw [← UInt32.toNat_inj, Word.toNat_wordBE]
  exact UInt32.toNat_ofNat_of_lt' hlt

/-! ## what is read back -/

namespace Ip

theorem ofBytes_groupBytes (g : Fin 8 → UInt16) :
    ofBytes (groupBytes g) = ofGroups (g 0) (g 1) (g 2) (g 3) (g 4) (g 5) (g 6) (g 7) := by
  let pair := fun i => (UInt8.ofNat ((g i).toNat / 256)).toUInt16 <<< 8 |||
    (UInt8.ofNat (g i).toNat).toUInt16
  have hpair : ∀ i, pair i = g i := fun i => group_bytes (g i)
  show ofGroups (pair 0) (pair 1) (pair 2) (pair 3) (pair 4) (pair 5) (pair 6) (pair 7) = _
  rw [hpair, hpair, hpair, hpair, hpair, hpair, hpair, hpair]

theorem printLoop_four (item : ℕ → List Char) (sep : Char) : printLoop item sep 4 =
    [sep].intercalate [item 3, item 2, item 1, item 0] := by
  show item 3 ++ sep :: (item 2 ++ sep :: (item 1 ++ sep :: item 0)) = _
  simp [List.intercalate]

theorem printLoop_eight (item : ℕ → List Char) (sep : Char) : printLoop item sep 8 =
    [sep].intercalate [item 7, item 6, item 5, item 4, item 3, item 2, item 1, item 0] := by
  show item 7 ++ sep :: (item 6 ++ sep :: (item 5 ++ sep :: (item 4 ++ sep :: (item 3 ++ sep ::
    (item 2 ++ sep :: (item 1 ++ sep :: item 0)))))) = _
  simp [List.intercalate]

/-- the bytes of an IPv4 address in network order -/
def v4Bytes (h : Ip) (i : Fin 4) : UInt8 := UInt8.ofNat (h.getV4.toNat / 2 ^ (8 * (3 - i.val)))

theorem toString_v4 {h : Ip} (hv : h.isV4 = true) : h.toString = dottedText h.v4Bytes := by
  have hitem : ∀ i : Fin 4, (h.getV4 >>> UInt32.ofNat (8 * (3 - i.val)) &&& 0xff).toNat =
      (h.v4Bytes i).toNat := by
    intro i
    rw [byte_of_quad (show 3 - i.val < 4 by omega)]
    unfold v4Bytes
    rw [UInt8.toNat_ofNat']
  have h0 : (h.getV4 >>> UInt32.ofNat (8 * 3) &&& 0xff).toNat = _ := hitem 0
  have h1 : (h.getV4 >>> UInt32.ofNat (8 * 2) &&& 0xff).toNat = _ := hitem 1
  have h2 : (h.getV4 >>> UInt32.ofNat (8 * 1) &&& 0xff).toNat = _ := hitem 2
  have h3 : (h.getV4 >>> UInt32.ofNat (8 * 0) &&& 0xff).toNat = _ := hitem 3
  unfold toString
  rw [if_pos hv, printLoop_four, h0, h1, h2, h3]
  rfl

theorem v4Bytes_eq (h : Ip) : h.v4Bytes = Word.bytesBE h.getV4 := by
  funext i
  rw [← UInt8.toNat_inj, Word.toNat_bytesBE]
  unfold v4Bytes
  rw [UInt8.toNat_ofNat']

theorem ntohl_v4Bytes (h : Ip) : ntohl h.v4Bytes = h.getV4 := by
  rw [ntohl_eq, v4Bytes_eq, Word.wordBE_bytesBE]

/-- the groups in the order they are printed in -/
def printedGroups (h : Ip) : Fin 8 → UInt16 :=
  ![highGroup h.q3, lowGroup h.q3, highGroup h.q2, lowGroup h.q2, highGroup h.q1, lowGroup h.q1,
    highGroup h.q0, lowGroup h.q0]

theorem toString_v6 {h : Ip} (hv : h.isV4 = false) : h.toString = groupText h.printedGroups := by
  have hhigh : ∀ x : UInt32,
      (x >>> UInt32.ofNat (16 * 1) &&& 0xffff).toNat = (highGroup x).toNat := by
    intro x
    calc (x >>> UInt32.ofNat (16 * 1) &&& 0xffff).toNat
        = x.toNat / 65536 % 2 ^ 16 := group_of_quad (by omega)
      _ = (highGroup x).toNat := UInt16.toNat_ofNat'.symm
  have hlow : ∀ x : UInt32,
      (x >>> UInt32.ofNat (16 * 0) &&& 0xffff).toNat = (lowGroup x).toNat := by
    intro x
    calc (x >>> UInt32.ofNat (16 * 0) &&& 0xffff).toNat
        = x.toNat / 2 ^ 0 % 2 ^ 16 := group_of_quad (by omega)
      _ = x.toNat % 2 ^ 16 := by rw [Nat.pow_zero, Nat.div_one]
      _ = (lowGroup x).toNat := UInt16.toNat_ofNat'.symm
  unfold toString
  rw [if_neg (by rw [hv]; exact Bool.false_ne_true), printLoop_eight]
  show [':'].intercalate [Nat.toDigits 16 (h.q3 >>> UInt32.ofNat (16 * 1) &&& 0xffff).toNat,
    Nat.toDigits 16 (h.q3 >>> UInt32.ofNat (16 * 0) &&& 0xffff).toNat,
    Nat.toDigits 16 (h.q2 >>> UInt32.ofNat (16 * 1) &&& 0xffff).toNat,
    Nat.toDigits 16 (h.q2 >>> UInt32.ofNat (16 * 0) &&& 0xffff).toNat,
    Nat.toDigits 16 (h.q1 >>> UInt32.ofNat (16 * 1) &&& 0xffff).toNat,
    Nat.toDigits 16 (h.q1 >>> UInt32.ofNat (16 * 0) &&& 0xffff).toNat,
    Nat.toDigits 16 (h.q0 >>> UInt32.ofNat (16 * 1) &&& 0xffff).toNat,
    Nat.toDigits 16 (h.q0 >>> UInt32.ofNat (16 * 0) &&& 0xffff).toNat] = _
  rw [hhigh, hlow, hhigh, hlow, hhigh, hlow, hhigh, hlow]
  rfl

/-! ## which of the two parsers is called -/

theorem isIpV4String_append {pre rest : List Char} (hdot : '.' ∉ pre) (hcolon : ':' ∉ pre) :
    isIpV4String (pre ++ rest) = isIpV4String rest := by
  induction pre with
  | nil => rfl
  | cons c pre ih =>
    obtain ⟨hd, hdot⟩ := not_or.mp (List.mem_cons.not.mp hdot)
    obtain ⟨hc, hcolon⟩ := not_or.mp (List.mem_cons.not.mp hcolon)
    show (if c = '.' then true else if c = ':' then false else isIpV4String (pre ++ rest)) = _
    rw [if_neg (Ne.symm hd), if_neg (Ne.symm hc), ih hdot hcolon]

/-- No digit is a separator. -/
theorem not_mem_toDigits {b n : ℕ} (hb : 1 < b) (hb16 : b ≤ 16) :
    '.' ∉ Nat.toDigits b n ∧ ':' ∉ Nat.toDigits b n := by
  have hall : ∀ d < 16, '.' ≠ Nat.digitChar d ∧ ':' ≠ Nat.digitChar d := by decide
  constructor <;> intro h <;> obtain ⟨d, hd, heq⟩ := Digits.mem_toDigits hb h
  · exact (hall d (by omega)).1 heq
  · exact (hall d (by omega)).2 heq

theorem isIpV4String_dotted (a : Fin 4 → UInt8) : isIpV4String (dottedText a) = true := by
  obtain ⟨hdot, hcolon⟩ := not_mem_toDigits (n := (a 0).toNat) (show 1 < 10 by decide) (by decide)
  have hsplit : ∃ rest, dottedText a = Nat.toDigits 10 (a 0).toNat ++ '.' :: rest := by
    unfold dottedText
    simp only [List.ofFn_succ, List.intercalate]
    exact ⟨_, rfl⟩
  obtain ⟨rest, hrest⟩ := hsplit
  rw [hrest, isIpV4String_append hdot hcolon]
  rfl

theorem isIpV4String_groups (g : Fin 8 → UInt16) : isIpV4String (groupText g) = false := by
  obtain ⟨hdot, hcolon⟩ := not_mem_toDigits (n := (g 0).toNat) (show 1 < 16 by decide) (by decide)
  have hsplit : ∃ rest, groupText g = Nat.toDigits 16 (g 0).toNat ++ ':' :: rest := by
    unfold groupText
    simp only [List.ofFn_succ, List.intercalate]
    exact ⟨_, rfl⟩
  obtain ⟨rest, hrest⟩ := hsplit
  rw [hrest, isIpV4String_append hdot hcolon]
  rfl

theorem ofV4_getV4 {h : Ip} (hv : h.isV4 = true) : ofV4 h.getV4 = h := by
  obtain ⟨q0, q1, q2, q3⟩ := h
  unfold isV4 at hv
  rw [Bool.and_eq_true, Bool.and_eq_true, beq_iff_eq, beq_iff_eq, beq_iff_eq] at hv
  obtain ⟨⟨h2, h1⟩, h0⟩ := hv
  subst h0 h1 h2
  rfl

section
variable {net : InetPton}

theorem parse_dottedText (h4 : net.ReadsDotted) (a : Fin 4 → UInt8) :
    parse net (dottedText a) = some (ofV4 (ntohl a)) := by
  unfold parse parseV4
  rw [if_pos (isIpV4String_dotted a), h4, Option.map_some]

theorem parse_groupText (h6 : net.ReadsGroups) (g : Fin 8 → UInt16) :
    parse net (groupText g) = some (ofBytes (groupBytes g)) := by
  unfold parse parseV6
  rw [isIpV4String_groups, if_neg Bool.false_ne_true, h6, Option.map_some]

/-- **What is read back:** an IPv4 address as it was, an IPv6 address with its quads in the opposite
order. -/
theorem parse_toString (h4 : net.ReadsDotted) (h6 : net.ReadsGroups) (h : Ip) :
    parse net h.toString = some (if h.isV4 then h else ⟨h.q3, h.q2, h.q1, h.q0⟩) := by
  cases hv : h.isV4 with
  | true => rw [toString_v4 hv, parse_dottedText h4, if_pos rfl, ntohl_v4Bytes, ofV4_getV4 hv]
  | false =>
    rw [toString_v6 hv, parse_groupText h6, if_neg Bool.false_ne_true, ofBytes_groupBytes]
    show some (Ip.mk ((highGroup h.q3).toUInt32 <<< 16 ||| (lowGroup h.q3).toUInt32)
      ((highGroup h.q2).toUInt32 <<< 16 ||| (lowGroup h.q2).toUInt32)
      ((highGroup h.q1).toUInt32 <<< 16 ||| (lowGroup h.q1).toUInt32)
      ((highGroup h.q0).toUInt32 <<< 16 ||| (lowGroup h.q0).toUInt32)) = _
    rw [quad_groups, quad_groups, quad_groups, quad_groups]

end

end Ip

/-! ## an `inet_pton` that reads the standard texts -/

namespace InetPton

/-- the number below `k` whose text in the base `b` this is -/
def number (b k : ℕ) (text : List Char) : Option ℕ :=
  (List.range k).find? fun n => Nat.toDigits b n == text

theorem number_toDigits {b k n : ℕ} (hb : 1 < b) (hb16 : b ≤ 16) (hn : n < k) :
    number b k (Nat.toDigits b n) = some n := by
  unfold number
  rw [List.find?_range_eq_some]
  refine ⟨beq_self_eq_true _, List.mem_range.mpr hn, ?_⟩
  intro m hm
  have hne : Nat.toDigits b m ≠ Nat.toDigits b n := by
    intro heq
    exact absurd (Digits.toDigits_inj hb hb16 heq) (by omega)
  rw [Bool.not_eq_true']
  exact beq_false_of_ne hne

def byte (text : List Char) : Option UInt8 := (number 10 256 text).map UInt8.ofNat

def group (text : List Char) : Option UInt16 := (number 16 65536 text).map UInt16.ofNat

theorem byte_toDigits (x : UInt8) : byte (Nat.toDigits 10 x.toNat) = some x := by
  unfold byte
  rw [number_toDigits (by decide) (by decide) x.toNat_lt, Option.map_some, UInt8.ofNat_toNat]

theorem group_toDigits (x : UInt16) : group (Nat.toDigits 16 x.toNat) = some x := by
  unfold group
  rw [number_toDigits (by decide) (by decide) x.toNat_lt, Option.map_some, UInt16.ofNat_toNat]

/-- `inet_pton` on four decimal bytes, and on eight hexadecimal groups -/
def standard : InetPton where
  v4 text :=
    match (text.splitOn '.').map byte with
    | [some a, some b, some c, some d] => some ![a, b, c, d]
    | _ => none
  v6 text :=
    match (text.splitOn ':').map group with
    | [some a, some b, some c, some d, some e, some f, some g, some h] =>
      some (groupBytes ![a, b, c, d, e, f, g, h])
    | _ => none

theorem standard_dotted : standard.ReadsDotted := by
  intro a
  have hsplit : (dottedText a).splitOn '.' = List.ofFn fun i => Nat.toDigits 10 (a i).toNat := by
    refine List.splitOn_intercalate '.' ?_ (by simp)
    intro text hmem
    obtain ⟨i, rfl⟩ := List.mem_ofFn.mp hmem
    exact (Ip.not_mem_toDigits (by decide) (by decide)).1
  have hbytes : ((dottedText a).splitOn '.').map byte = List.ofFn fun i => some (a i) := by
    rw [hsplit, List.map_ofFn]
    simp only [Function.comp_def, byte_toDigits]
  unfold standard
  simp only [hbytes, List.ofFn_succ, List.ofFn_zero]
  refine congrArg some (funext fun i => ?_)
  match i with
  | 0 | 1 | 2 | 3 => rfl

theorem standard_groups : standard.ReadsGroups := by
  intro g
  have hsplit : (groupText g).splitOn ':' = List.ofFn fun i => Nat.toDigits 16 (g i).toNat := by
    refine List.splitOn_intercalate ':' ?_ (by simp)
    intro text hmem
    obtain ⟨i, rfl⟩ := List.mem_ofFn.mp hmem
    exact (Ip.not_mem_toDigits (by decide) (by decide)).2
  have hgroups : ((groupText g).splitOn ':').map group = List.ofFn fun i => some (g i) := by
    rw [hsplit, List.map_ofFn]
    simp only [Function.comp_def, group_toDigits]
  unfold standard
  simp only [hgroups, List.ofFn_succ, List.ofFn_zero]
  refine congrArg (fun g => some (groupBytes g)) (funext fun i => ?_)
  match i with
  | 0 | 1 | 2 | 3 | 4 | 5 | 6 | 7 => rfl

end InetPton

/-- **Printing and parsing** give an address back if and only if it is an IPv4 address, or its quads
are the same from both ends. -/
theorem parse_toString_iff {net : InetPton} (h4 : net.ReadsDotted) (h6 : net.ReadsGroups) (h : Ip) :
    Ip.parse net h.toString = some h ↔ h.isV4 = true ∨ (h.q0 = h.q3 ∧ h.q1 = h.q2) := by
  rw [Ip.parse_toString h4 h6, Option.some_inj]
  obtain ⟨q0, q1, q2, q3⟩ := h
  cases hv : Ip.isV4 ⟨q0, q1, q2, q3⟩ with
  | true => exact iff_of_true (if_pos rfl) (Or.inl rfl)
  | false =>
    rw [if_neg Bool.false_ne_true, Ip.mk.injEq]
    constructor
    · rintro ⟨h03, h12, -, -⟩
      exact Or.inr ⟨h03.symm, h12.symm⟩
    · intro h
      obtain ⟨h03, h12⟩ := h.resolve_left Bool.false_ne_true
      exact ⟨h03.symm, h12.symm, h12, h03⟩

/-- The address `ff:0:0:0:0:0:ff:0` reads the same from both ends. -/
theorem parse_toString_iff_symmetric :
    Ip.parse .standard (Ip.toString ⟨0xff0000, 0, 0, 0xff0000⟩) = some ⟨0xff0000, 0, 0, 0xff0000⟩ :=
  (parse_toString_iff InetPton.standard_dotted InetPton.standard_groups
    ⟨0xff0000, 0, 0, 0xff0000⟩).mpr (Or.inr ⟨rfl, rfl⟩)

/-- The address `0:1:0:0:0:0:0:0` comes back as `0:0:0:0:0:0:0:1`. -/
theorem parse_toString_reversed : ¬ ∀ net : InetPton, net.ReadsDotted → net.ReadsGroups →
    ∀ h : Ip, Ip.parse net h.toString = some h := by
  intro hall
  have hback := hall .standard InetPton.standard_dotted InetPton.standard_groups ⟨1, 0, 0, 0⟩
  rw [Ip.parse_toString InetPton.standard_dotted InetPton.standard_groups] at hback
  exact absurd (Option.some_inj.mp hback) (by decide)

end Setka
