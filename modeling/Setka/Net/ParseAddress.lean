import Mathlib.Data.List.TakeWhile
import Mathlib.Tactic.Ring
import Setka.Net.AddressText

/-!
# Addresses with a port as text

The constructor `address(const char*)`.

* `readHost`, `parsePort`, `Address.ofStr`   the constructor: a pointer into the text is a `Cursor`,
                     reading or writing outside of the text or of a local buffer is a `Fault`;
* `PortPart`, `Accepts`   the texts that are accepted, and what they stand for;
* `Address.ofStr_iff`     the constructor accepts these and no other, and has no fault but the
                     exception.
-/

namespace Setka

/-- the null character -/
def nul : Char := '\x00'

/-- a null-terminated string -/
structure CStr where
  chars : List Char
  noNul : nul ∉ chars

/-- how the constructor ends other than by a return: the exception "bad IP address format", an
access outside of the memory, a failed `ASSERT` -/
inductive Fault where
  | badFormat
  | outside
  | assertion
deriving DecidableEq, Repr

/-- `const char* str`: the characters before the pointer, the last one first, and those from it on
-/
structure Cursor where
  before : List Char
  after : List Char
deriving DecidableEq, Repr

namespace Cursor

/-- `*str` -/
def get (str : Cursor) : Char := str.after.headD nul

/-- `++str` -/
def next : Cursor → Except Fault Cursor
  | ⟨before, c :: after⟩ => .ok ⟨c :: before, after⟩
  | ⟨_, []⟩ => .error .outside

end Cursor

/-! ## the host -/

section
variable {n : ℕ} (stops fails : Char → Bool)

/-- `*dst = c` -/
def store (buf : Vector Char n) (dst : ℕ) (c : Char) : Except Fault (Vector Char n) :=
  if dst < n then .ok (buf.setIfInBounds dst c) else .error .outside

/-- the text at the start of a buffer, as `inet_pton` reads it -/
def textOf (buf : Vector Char n) : Except Fault (List Char) :=
  if nul ∈ buf.toList then .ok (buf.toList.takeWhile (· != nul)) else .error .outside

/-- the copy loops: up to the first character at which `stops`; on a character that `fails`, or when
the next one would not be in the buffer, the exception -/
def copyHost (buf : Vector Char n) (dst : ℕ) (before : List Char) :
    List Char → Except Fault (Vector Char n × ℕ × Cursor)
  | [] =>
    if stops nul then .ok (buf, dst, ⟨before, []⟩)
    else if fails nul || !decide (dst + 1 < n) then .error .badFormat
    -- `++str` steps over the null character
    else .error .outside
  | c :: after =>
    if stops c then .ok (buf, dst, ⟨before, c :: after⟩)
    else if fails c || !decide (dst + 1 < n) then .error .badFormat
    else do
      let buf ← store buf dst c
      copyHost buf (dst + 1) (c :: before) after

/-- the copy loop, the null character after the copy, and the parser of the host -/
def readHost (buf : Vector Char n) (parse : List Char → Option Ip) (str : Cursor) :
    Except Fault (Ip × Cursor) := do
  let (buf, dst, str) ← copyHost stops fails buf 0 str.before str.after
  if ¬ dst < n then .error .assertion
  let buf ← store buf dst nul
  let text ← textOf buf
  match parse text with
  | some host => .ok (host, str)
  | none => .error .badFormat

end

/-! ## the port -/

/-- the end of the port number, five digits at most -/
def skipDigits (i : ℕ) (before : List Char) : List Char → Cursor
  | [] => ⟨before, []⟩
  | c :: after =>
    if c.isDigit && decide (i < 5) then skipDigits (i + 1) (c :: before) after
    else ⟨before, c :: after⟩

/-- `pow` after the inner loop -/
def powTen : ℕ → UInt32
  | 0 => 1
  | j + 1 => powTen j * 10

/-- the loop from the last digit back to the colon, over the characters from the pointer backwards
-/
def sumPort (i : ℕ) (port : UInt32) : List Char → Except Fault UInt32
  | [] => .error .outside
  | c :: before =>
    if c = ':' then .ok port
    else if ¬ c.isDigit then .error .assertion
    else sumPort (i + 1) (port + UInt32.ofNat (c.toNat - '0'.toNat) * powTen i) before

/-- the constructor behind the colon -/
def portNumber (str : Cursor) : Except Fault UInt16 :=
  let str := skipDigits 0 str.before str.after
  if str.get.isDigit then .error .badFormat
  else do
    let port ← sumPort 0 0 str.before
    if port > 0xffff then .error .badFormat else .ok port.toUInt16

/-- the constructor from "parse port" on -/
def parsePort (host : Ip) (str : Cursor) : Except Fault Address :=
  if str.get ≠ ':' then
    if str.get = nul then .ok ⟨host, 0⟩ else .error .badFormat
  else do
    let str ← str.next
    let port ← portNumber str
    .ok ⟨host, port⟩

/-- `address(const char* str)`; the local buffers hold anything at first -/
def Address.ofStr (net : InetPton) (buf6 : Vector Char (4 * 6 + 6 + (3 * 4 + 3) + 1))
    (buf4 : Vector Char (3 * 4 + 3 + 1)) (s : CStr) : Except Fault Address :=
  let str : Cursor := ⟨[], s.chars⟩
  if str.get = nul then .error .badFormat
  else if str.get = '[' then do
    let str ← str.next
    let (host, str) ← readHost (· == ']') (· == nul) buf6 (Ip.parseV6 net) str
    let str ← str.next
    parsePort host str
  else if isIpV4String str.after then do
    let (host, str) ← readHost (fun c => c == ':' || c == nul) (fun _ => false) buf4
      (Ip.parseV4 net) str
    parsePort host str
  else
    match Ip.parseV6 net s.chars with
    | some host => .ok ⟨host, 0⟩
    | none => .error .badFormat

/-! ## the texts that are accepted -/

/-- a port part: nothing, or a colon and the longest run of digits, five at most, that follows -/
inductive PortPart : List Char → UInt16 → Prop where
  | nothing : PortPart [] 0
  | number {digits rest : List Char} (hdigits : ∀ c ∈ digits, c.isDigit = true)
      (hrest : ∀ c ∈ rest.head?, c.isDigit = false) (hlen : digits.length ≤ 5)
      (hval : Nat.ofDigitChars 10 digits 0 ≤ 65535) :
      PortPart (':' :: (digits ++ rest)) (UInt16.ofNat (Nat.ofDigitChars 10 digits 0))

/-- a dot, with no colon before it -/
def DotFirst (s : List Char) : Prop := ∃ pre rest, s = pre ++ '.' :: rest ∧ ':' ∉ pre

inductive Accepts (net : InetPton) : List Char → Address → Prop where
  | bracketed {X R : List Char} {a : Address} (hfree : ']' ∉ X) (hlen : X.length ≤ 45)
      (hhost : Ip.parseV6 net X = some a.host) (hport : PortPart R a.port) :
      Accepts net ('[' :: (X ++ ']' :: R)) a
  | dotted {X R : List Char} {a : Address} (hfirst : (X ++ R).head? ≠ some '[')
      (hdot : DotFirst (X ++ R)) (hfree : ':' ∉ X) (hcolon : R = [] ∨ R.head? = some ':')
      (hlen : X.length ≤ 15) (hhost : Ip.parseV4 net X = some a.host) (hport : PortPart R a.port) :
      Accepts net (X ++ R) a
  | plain {s : List Char} {host : Ip} (hne : s ≠ []) (hfirst : s.head? ≠ some '[')
      (hdot : ¬ DotFirst s) (hhost : Ip.parseV6 net s = some host) : Accepts net s ⟨host, 0⟩

/-! ## the copy -/

section
variable {n : ℕ} {stops fails : Char → Bool} {buf : Vector Char n} {dst : ℕ}
  {before X R : List Char} {parse : List Char → Option Ip}

/-- the buffer after the characters `X` were stored from `dst` on -/
def storeAll (buf : Vector Char n) (dst : ℕ) : List Char → Vector Char n
  | [] => buf
  | c :: X => storeAll (buf.setIfInBounds dst c) (dst + 1) X

theorem take_storeAll (h : dst + X.length ≤ n) :
    (storeAll buf dst X).toList.take (dst + X.length) = buf.toList.take dst ++ X := by
  induction X generalizing buf dst with
  | nil => rw [List.append_nil]; rfl
  | cons c X ih =>
    rw [List.length_cons] at h ⊢
    have hlen : dst < buf.toList.length := by rw [Vector.length_toList]; omega
    have hset : (buf.setIfInBounds dst c).toList.take (dst + 1) = buf.toList.take dst ++ [c] := by
      rw [Vector.toList_setIfInBounds, List.take_succ_eq_append_getElem (by rwa [List.length_set]),
        List.getElem_set_self, List.take_set_of_le (Nat.le_refl dst)]
    have htake : (storeAll (buf.setIfInBounds dst c) (dst + 1) X).toList.take
        (dst + 1 + X.length) = (buf.setIfInBounds dst c).toList.take (dst + 1) ++ X :=
      ih (by omega)
    rw [hset, List.append_assoc, List.singleton_append] at htake
    rw [← htake, show dst + (X.length + 1) = dst + 1 + X.length by omega]
    rfl

/-- The text in a buffer is what was stored before the null character. -/
theorem textOf_storeAll (hX : nul ∉ X) (h : X.length < n) :
    textOf ((storeAll buf 0 X).setIfInBounds X.length nul) = .ok X := by
  have htake : (storeAll buf 0 X).toList.take (0 + X.length) = buf.toList.take 0 ++ X :=
    take_storeAll (by omega)
  rw [Nat.zero_add, List.take_zero, List.nil_append] at htake
  have hlen : X.length < (storeAll buf 0 X).toList.length := by rwa [Vector.length_toList]
  have hlist : ((storeAll buf 0 X).setIfInBounds X.length nul).toList =
      X ++ nul :: (storeAll buf 0 X).toList.drop (X.length + 1) := by
    rw [Vector.toList_setIfInBounds, List.set_eq_take_append_cons_drop, if_pos hlen, htake]
  have hpos : ∀ c ∈ X, (c != nul) = true := by
    intro c hc
    exact bne_iff_ne.mpr fun heq => hX (heq ▸ hc)
  unfold textOf
  rw [hlist, if_pos (List.mem_append_right X List.mem_cons_self), List.takeWhile_append_of_pos hpos,
    List.takeWhile_cons_of_neg (by simp), List.append_nil]

/-- The loop copies the characters at which it does not stop, if the buffer has a place for each and
one more. -/
theorem copyHost_append (hX : ∀ c ∈ X, stops c = false ∧ fails c = false) (hdst : dst < n) :
    copyHost stops fails buf dst before (X ++ R) =
      if dst + X.length < n then
        copyHost stops fails (storeAll buf dst X) (dst + X.length) (X.reverse ++ before) R
      else .error .badFormat := by
  induction X generalizing buf dst before with
  | nil => exact (if_pos hdst).symm
  | cons c X ih =>
    obtain ⟨hstop, hfail⟩ := hX c List.mem_cons_self
    have hrest : ∀ d ∈ X, stops d = false ∧ fails d = false :=
      fun d hd => hX d (List.mem_cons_of_mem c hd)
    rw [List.cons_append, copyHost, hstop, if_neg Bool.false_ne_true, hfail, Bool.false_or,
      List.length_cons]
    by_cases hroom : dst + 1 < n
    · rw [decide_eq_true hroom, if_neg (by decide)]
      unfold store
      rw [if_pos hdst]
      show copyHost stops fails (buf.setIfInBounds dst c) (dst + 1) (c :: before) (X ++ R) = _
      rw [ih hrest hroom, show dst + 1 + X.length = dst + (X.length + 1) by omega,
        List.reverse_cons, List.append_assoc]
      rfl
    · rw [decide_eq_false hroom, if_pos (by decide), if_neg (by omega)]

/-- What the loop copies is the text for `inet_pton`. -/
theorem readHost_append (hX : ∀ c ∈ X, stops c = false ∧ fails c = false) (hn : 0 < n)
    (hnul : nul ∉ X) (hR : stops (R.headD nul) = true) :
    readHost stops fails buf parse ⟨before, X ++ R⟩ =
      if X.length < n then
        match parse X with
        | some host => .ok (host, ⟨X.reverse ++ before, R⟩)
        | none => .error .badFormat
      else .error .badFormat := by
  unfold readHost
  rw [copyHost_append hX hn, Nat.zero_add]
  by_cases hroom : X.length < n
  · have hstop : copyHost stops fails (storeAll buf 0 X) X.length (X.reverse ++ before) R =
        .ok (storeAll buf 0 X, X.length, ⟨X.reverse ++ before, R⟩) := by
      cases R <;> exact if_pos hR
    rw [if_pos hroom, if_pos hroom, hstop]
    unfold store
    simp only [bind, Except.bind, hroom, not_true_eq_false, ↓reduceIte,
      textOf_storeAll hnul hroom]
  · rw [if_neg hroom, if_neg hroom]
    rfl

/-- Without a character at which the loop stops the exception is thrown. -/
theorem readHost_unended (hX : ∀ c ∈ X, stops c = false ∧ fails c = false) (hn : 0 < n)
    (hstop : stops nul = false) (hfail : fails nul = true) :
    readHost stops fails buf parse ⟨before, X⟩ = .error .badFormat := by
  have hend : copyHost stops fails buf 0 before (X ++ []) = _ := copyHost_append hX hn
  rw [List.append_nil] at hend
  unfold readHost
  rw [hend]
  by_cases hroom : 0 + X.length < n
  · rw [if_pos hroom, copyHost, hstop, if_neg Bool.false_ne_true, hfail, Bool.true_or, if_pos rfl]
    rfl
  · rw [if_neg hroom]
    rfl

end

/-! ## the port number -/

theorem skipDigits_append {i : ℕ} {before digits rest : List Char}
    (hdigits : ∀ c ∈ digits, c.isDigit = true) (hlen : i + digits.length ≤ 5) :
    skipDigits i before (digits ++ rest) =
      skipDigits (i + digits.length) (digits.reverse ++ before) rest := by
  induction digits generalizing i before with
  | nil => rfl
  | cons c digits ih =>
    rw [List.length_cons] at hlen
    have hc := hdigits c List.mem_cons_self
    rw [List.cons_append, skipDigits, hc, decide_eq_true (show i < 5 by omega), if_pos (by decide),
      ih (fun d hd => hdigits d (List.mem_cons_of_mem c hd)) (by omega), List.length_cons,
      show i + 1 + digits.length = i + (digits.length + 1) by omega, List.reverse_cons,
      List.append_assoc]
    rfl

/-- The loop stops behind the last digit. -/
theorem skipDigits_rest {i : ℕ} {before rest : List Char}
    (hrest : ∀ c ∈ rest.head?, c.isDigit = false) : skipDigits i before rest = ⟨before, rest⟩ := by
  cases rest with
  | nil => rfl
  | cons c rest =>
    rw [skipDigits, hrest c rfl, Bool.false_and, if_neg Bool.false_ne_true]

/-- The loop stops at the sixth digit. -/
theorem skipDigits_five {c : Char} {before rest : List Char} :
    skipDigits 5 before (c :: rest) = ⟨before, c :: rest⟩ := by
  rw [skipDigits, show decide (5 < 5) = false from rfl, Bool.and_false, if_neg Bool.false_ne_true]

theorem powTen_eq (i : ℕ) : powTen i = UInt32.ofNat (10 ^ i) := by
  induction i with
  | zero => rfl
  | succ i ih => rw [powTen, ih, Nat.pow_succ, UInt32.ofNat_mul]; rfl

/-- The sum from the last digit back to the colon is the value of the digits. -/
theorem sumPort_digits {i port : ℕ} {digits rest : List Char}
    (hdigits : ∀ c ∈ digits, c.isDigit = true) :
    sumPort i (UInt32.ofNat port) (digits ++ ':' :: rest) =
      .ok (UInt32.ofNat (port + 10 ^ i * Nat.ofDigitChars 10 digits.reverse 0)) := by
  induction digits generalizing i port with
  | nil => exact if_pos rfl
  | cons c digits ih =>
    have hc := hdigits c List.mem_cons_self
    have hcolon : c ≠ ':' := by
      intro heq
      rw [heq] at hc
      exact absurd hc (by decide)
    have hsum : UInt32.ofNat port + UInt32.ofNat (c.toNat - '0'.toNat) * powTen i =
        UInt32.ofNat (port + (c.toNat - '0'.toNat) * 10 ^ i) := by
      rw [powTen_eq, UInt32.ofNat_add, UInt32.ofNat_mul]
    have hval : Nat.ofDigitChars 10 (c :: digits).reverse 0 =
        10 * Nat.ofDigitChars 10 digits.reverse 0 + (c.toNat - '0'.toNat) := by
      rw [List.reverse_cons, Nat.ofDigitChars_append, Nat.ofDigitChars_cons, Nat.ofDigitChars_nil]
    rw [List.cons_append, sumPort, if_neg hcolon, if_neg (not_not_intro hc), hsum,
      ih fun d hd => hdigits d (List.mem_cons_of_mem c hd), hval]
    congr 2
    ring

section
variable {host : Ip} {before digits rest : List Char}

theorem portNumber_digits (hdigits : ∀ c ∈ digits, c.isDigit = true)
    (hrest : ∀ c ∈ rest.head?, c.isDigit = false) (hlen : digits.length ≤ 5) :
    portNumber ⟨':' :: before, digits ++ rest⟩ =
      if Nat.ofDigitChars 10 digits 0 ≤ 65535 then
        .ok (UInt16.ofNat (Nat.ofDigitChars 10 digits 0))
      else .error .badFormat := by
  have hskip : skipDigits 0 (':' :: before) (digits ++ rest) =
      ⟨digits.reverse ++ ':' :: before, rest⟩ := by
    rw [skipDigits_append hdigits (by omega), skipDigits_rest hrest]
  have hend : Cursor.get ⟨digits.reverse ++ ':' :: before, rest⟩ = rest.headD nul := rfl
  have hnodigit : (rest.headD nul).isDigit = false := by
    cases rest with
    | nil => rfl
    | cons c rest => exact hrest c rfl
  have hsum : sumPort 0 0 (digits.reverse ++ ':' :: before) =
      .ok (UInt32.ofNat (Nat.ofDigitChars 10 digits 0)) := by
    have h : sumPort 0 (UInt32.ofNat 0) (digits.reverse ++ ':' :: before) = _ :=
      sumPort_digits fun c hc => hdigits c (List.mem_reverse.mp hc)
    rwa [List.reverse_reverse, Nat.pow_zero, Nat.one_mul, Nat.zero_add] at h
  have hlt : Nat.ofDigitChars 10 digits 0 < 2 ^ 32 :=
    calc Nat.ofDigitChars 10 digits 0 < 10 ^ digits.length := Digits.ofDigitChars_lt hdigits
      _ ≤ 10 ^ 5 := Nat.pow_le_pow_right (by decide) hlen
      _ ≤ 2 ^ 32 := by decide
  have hgt : UInt32.ofNat (Nat.ofDigitChars 10 digits 0) > 0xffff ↔
      ¬ Nat.ofDigitChars 10 digits 0 ≤ 65535 := by
    rw [gt_iff_lt, UInt32.lt_iff_toNat_lt, UInt32.toNat_ofNat', Nat.mod_eq_of_lt hlt]
    exact Nat.not_le.symm
  have hport : (UInt32.ofNat (Nat.ofDigitChars 10 digits 0)).toUInt16 =
      UInt16.ofNat (Nat.ofDigitChars 10 digits 0) := by
    rw [← UInt16.toNat_inj, UInt32.toNat_toUInt16, UInt32.toNat_ofNat', UInt16.toNat_ofNat',
      Nat.mod_eq_of_lt hlt]
  unfold portNumber
  simp only [hskip, hend, hnodigit, hsum, Bool.false_eq_true, ↓reduceIte, bind, Except.bind, hgt,
    hport]
  by_cases h : Nat.ofDigitChars 10 digits 0 ≤ 65535
  · rw [if_neg (not_not_intro h), if_pos h]
  · rw [if_pos h, if_neg h]

theorem portNumber_long (hdigits : ∀ c ∈ digits, c.isDigit = true) (hlen : 5 < digits.length) :
    portNumber ⟨before, digits ++ rest⟩ = .error .badFormat := by
  have hfive : (digits.take 5).length = 5 := List.length_take_of_le (by omega)
  obtain ⟨c, more, hmore⟩ : ∃ c more, digits.drop 5 = c :: more := by
    cases hdrop : digits.drop 5 with
    | nil => exact absurd (List.drop_eq_nil_iff.mp hdrop) (by omega)
    | cons c more => exact ⟨c, more, rfl⟩
  have hsplit : digits ++ rest = digits.take 5 ++ c :: (more ++ rest) := by
    rw [← List.cons_append, ← hmore, ← List.append_assoc, List.take_append_drop]
  have hskip : skipDigits 0 before (digits ++ rest) =
      ⟨(digits.take 5).reverse ++ before, c :: (more ++ rest)⟩ := by
    rw [hsplit, skipDigits_append (fun d hd => hdigits d (List.mem_of_mem_take hd)) (by omega),
      hfive,
      skipDigits_five]
  have hc : c.isDigit = true :=
    hdigits c (List.mem_of_mem_drop (i := 5) (hmore ▸ List.mem_cons_self))
  unfold portNumber
  simp only [hskip]
  exact if_pos hc

/-- A port part is read as what it stands for. -/
theorem parsePort_of_portPart {R : List Char} {port : UInt16} (h : PortPart R port) :
    parsePort host ⟨before, R⟩ = .ok ⟨host, port⟩ := by
  cases h with
  | nothing => rfl
  | number hdigits hrest hlen hval =>
    have hcolon : ∀ t, parsePort host ⟨before, ':' :: t⟩ =
        portNumber ⟨':' :: before, t⟩ >>= fun port => .ok ⟨host, port⟩ := fun _ => rfl
    rw [hcolon, portNumber_digits hdigits hrest hlen, if_pos hval]
    rfl

/-- Any other text is refused. -/
theorem parsePort_cases {R : List Char} (hnul : nul ∉ R) :
    parsePort host ⟨before, R⟩ = .error .badFormat ∨
      ∃ port, parsePort host ⟨before, R⟩ = .ok ⟨host, port⟩ ∧ PortPart R port := by
  cases R with
  | nil => exact Or.inr ⟨0, rfl, .nothing⟩
  | cons c R =>
    by_cases hc : c = ':'
    · subst hc
      have hcolon : parsePort host ⟨before, ':' :: R⟩ =
          portNumber ⟨':' :: before, R⟩ >>= fun port => .ok ⟨host, port⟩ := rfl
      have hdigits : ∀ c ∈ R.takeWhile Char.isDigit, c.isDigit = true :=
        fun c hc => List.mem_takeWhile_imp hc
      have hrest : ∀ c ∈ (R.dropWhile Char.isDigit).head?, c.isDigit = false := by
        intro c hc
        have hall := List.head?_dropWhile_not Char.isDigit R
        rw [hc] at hall
        exact hall
      rw [hcolon, ← List.takeWhile_append_dropWhile (p := Char.isDigit) (l := R)]
      by_cases hlen : (R.takeWhile Char.isDigit).length ≤ 5
      · rw [portNumber_digits hdigits hrest hlen]
        by_cases hval : Nat.ofDigitChars 10 (R.takeWhile Char.isDigit) 0 ≤ 65535
        · rw [if_pos hval]
          exact Or.inr ⟨_, rfl, .number hdigits hrest hlen hval⟩
        · rw [if_neg hval]
          exact Or.inl rfl
      · rw [portNumber_long hdigits (by omega)]
        exact Or.inl rfl
    · left
      unfold parsePort
      have hget : Cursor.get ⟨before, c :: R⟩ = c := rfl
      have hne : c ≠ nul := by
        rintro rfl
        exact hnul List.mem_cons_self
      rw [hget, if_pos hc, if_neg hne]

end

/-! ## the constructor -/

theorem isIpV4String_iff {s : List Char} : isIpV4String s = true ↔ DotFirst s := by
  constructor
  · intro h
    induction s with
    | nil => exact absurd h Bool.false_ne_true
    | cons c s ih =>
      unfold isIpV4String at h
      split at h
      · rename_i hc
        subst hc
        exact ⟨[], s, rfl, List.not_mem_nil⟩
      · split at h
        · exact absurd h Bool.false_ne_true
        · rename_i hcolon
          obtain ⟨pre, rest, rfl, hpre⟩ := ih h
          refine ⟨c :: pre, rest, rfl, fun hmem => ?_⟩
          rcases List.mem_cons.mp hmem with heq | hmem
          · exact hcolon heq.symm
          · exact hpre hmem
  · rintro ⟨pre, rest, rfl, hpre⟩
    induction pre with
    | nil => rfl
    | cons c pre ih =>
      obtain ⟨hc, hpre⟩ := not_or.mp (List.mem_cons.not.mp hpre)
      show (if c = '.' then true else if c = ':' then false
        else isIpV4String (pre ++ '.' :: rest)) = true
      rw [if_neg (Ne.symm hc), ih hpre, ite_self]

namespace Address

section
variable {net : InetPton} {buf6 : Vector Char (4 * 6 + 6 + (3 * 4 + 3) + 1)}
  {buf4 : Vector Char (3 * 4 + 3 + 1)} {s : CStr} {a : Address} {X R : List Char}

/-- The constructor on an address in brackets. -/
theorem ofStr_bracketed (hs : s.chars = '[' :: (X ++ ']' :: R)) (hfree : ']' ∉ X) :
    ofStr net buf6 buf4 s =
      if X.length < 46 then
        match Ip.parseV6 net X with
        | some host => parsePort host ⟨']' :: (X.reverse ++ ['[']), R⟩
        | none => .error .badFormat
      else .error .badFormat := by
  have hnul : nul ∉ X := fun h =>
    s.noNul (hs ▸ List.mem_cons_of_mem _ (List.mem_append_left _ h))
  have hX : ∀ c ∈ X, (c == ']') = false ∧ (c == nul) = false := fun c hc =>
    ⟨beq_false_of_ne fun heq => hfree (heq ▸ hc), beq_false_of_ne fun heq => hnul (heq ▸ hc)⟩
  have hread : readHost (· == ']') (· == nul) buf6 (Ip.parseV6 net) ⟨['['], X ++ ']' :: R⟩ = _ :=
    readHost_append hX (by decide) hnul rfl
  unfold ofStr
  rw [hs]
  show (readHost (· == ']') (· == nul) buf6 (Ip.parseV6 net) ⟨['['], X ++ ']' :: R⟩ >>=
    fun p => p.2.next >>= fun str => parsePort p.1 str) = _
  rw [hread]
  by_cases hlen : X.length < 46
  · rw [if_pos hlen, if_pos hlen]
    cases Ip.parseV6 net X <;> rfl
  · rw [if_neg hlen, if_neg hlen]
    rfl

theorem get_ne_nul (hne : s.chars ≠ []) : Cursor.get ⟨[], s.chars⟩ ≠ nul := by
  obtain ⟨c, rest, hs⟩ := List.exists_cons_of_ne_nil hne
  intro hget
  have hc : c = nul := by rw [hs] at hget; exact hget
  exact s.noNul (by rw [hs, hc]; exact List.mem_cons_self)

theorem get_ne_bracket (hfirst : s.chars.head? ≠ some '[') : Cursor.get ⟨[], s.chars⟩ ≠ '[' := by
  intro hget
  cases hs : s.chars with
  | nil => rw [hs] at hget; exact absurd hget (by decide)
  | cons c rest =>
    rw [hs] at hget hfirst
    exact hfirst (congrArg some hget)

/-- The constructor on an IPv4 address. -/
theorem ofStr_dotted (hs : s.chars = X ++ R) (hfirst : s.chars.head? ≠ some '[')
    (hdot : DotFirst s.chars) (hfree : ':' ∉ X) (hcolon : R = [] ∨ R.head? = some ':') :
    ofStr net buf6 buf4 s =
      if X.length < 16 then
        match Ip.parseV4 net X with
        | some host => parsePort host ⟨X.reverse, R⟩
        | none => .error .badFormat
      else .error .badFormat := by
  have hne : s.chars ≠ [] := by
    obtain ⟨pre, rest, heq, -⟩ := hdot
    rw [heq]
    exact List.append_ne_nil_of_right_ne_nil pre (List.cons_ne_nil _ _)
  have hnul : nul ∉ X := fun h => s.noNul (hs ▸ List.mem_append_left R h)
  have hX : ∀ c ∈ X, (c == ':' || c == nul) = false ∧ false = false := by
    intro c hc
    refine ⟨Bool.or_eq_false_iff.mpr ⟨beq_false_of_ne fun heq => hfree (heq ▸ hc), ?_⟩, rfl⟩
    exact beq_false_of_ne fun heq => hnul (heq ▸ hc)
  have hR : (R.headD nul == ':' || R.headD nul == nul) = true := by
    rcases hcolon with rfl | hhead
    · rfl
    · rw [List.headD_eq_head?_getD, hhead]
      rfl
  have hread : readHost (fun c => c == ':' || c == nul) (fun _ => false) buf4 (Ip.parseV4 net)
      ⟨[], X ++ R⟩ = _ := readHost_append hX (by decide) hnul hR
  unfold ofStr
  simp only [get_ne_nul hne, get_ne_bracket hfirst, isIpV4String_iff.mpr hdot, ↓reduceIte]
  rw [hs, hread, List.append_nil]
  by_cases hlen : X.length < 16
  · rw [if_pos hlen, if_pos hlen]
    cases Ip.parseV4 net X <;> rfl
  · rw [if_neg hlen, if_neg hlen]
    rfl

/-- The constructor on an IPv6 address without a port. -/
theorem ofStr_plain (hne : s.chars ≠ []) (hfirst : s.chars.head? ≠ some '[')
    (hdot : ¬ DotFirst s.chars) :
    ofStr net buf6 buf4 s =
      match Ip.parseV6 net s.chars with
      | some host => .ok ⟨host, 0⟩
      | none => .error .badFormat := by
  unfold ofStr
  simp only [get_ne_nul hne, get_ne_bracket hfirst, mt isIpV4String_iff.mp hdot, ↓reduceIte,
    Bool.false_eq_true]

/-- The constructor on an address in brackets that are not closed. -/
theorem ofStr_unended (hs : s.chars = '[' :: X) (hfree : ']' ∉ X) :
    ofStr net buf6 buf4 s = .error .badFormat := by
  have hX : ∀ c ∈ X, (c == ']') = false ∧ (c == nul) = false := by
    intro c hc
    refine ⟨beq_false_of_ne fun heq => hfree (heq ▸ hc), beq_false_of_ne fun heq => ?_⟩
    exact s.noNul (hs ▸ List.mem_cons_of_mem _ (heq ▸ hc))
  have hread : readHost (· == ']') (· == nul) buf6 (Ip.parseV6 net) ⟨['['], X⟩ = _ :=
    readHost_unended hX (by decide) rfl rfl
  unfold ofStr
  rw [hs]
  show (readHost (· == ']') (· == nul) buf6 (Ip.parseV6 net) ⟨['['], X⟩ >>=
    fun p => p.2.next >>= fun str => parsePort p.1 str) = _
  rw [hread]
  rfl

/-- What is accepted is read as what it stands for. -/
theorem ofStr_of_accepts (h : Accepts net s.chars a) : ofStr net buf6 buf4 s = .ok a := by
  generalize hs : s.chars = chars at h
  cases h with
  | bracketed hfree hlen hhost hport =>
    rw [ofStr_bracketed hs hfree, if_pos (by omega), hhost]
    exact parsePort_of_portPart hport
  | dotted hfirst hdot hfree hcolon hlen hhost hport =>
    rw [ofStr_dotted hs (hs ▸ hfirst) (hs ▸ hdot) hfree hcolon, if_pos (by omega), hhost]
    exact parsePort_of_portPart hport
  | plain hne hfirst hdot hhost =>
    rw [ofStr_plain (hs ▸ hne) (hs ▸ hfirst) (hs ▸ hdot), hs, hhost]

/-- A text is cut before its first colon. -/
theorem cut_colon (text : List Char) :
    ∃ X R, text = X ++ R ∧ ':' ∉ X ∧ (R = [] ∨ R.head? = some ':') := by
  by_cases h : ':' ∈ text
  · obtain ⟨X, R, hs, hfree⟩ := List.eq_append_cons_of_mem h
    exact ⟨X, ':' :: R, hs, hfree, Or.inr rfl⟩
  · exact ⟨text, [], (List.append_nil text).symm, h, Or.inl rfl⟩

/-- The constructor throws the exception, or its text is accepted. -/
theorem ofStr_cases : ofStr net buf6 buf4 s = .error .badFormat ∨
    ∃ a, ofStr net buf6 buf4 s = .ok a ∧ Accepts net s.chars a := by
  by_cases hne : s.chars = []
  · left
    unfold ofStr
    rw [hne]
    rfl
  · by_cases hfirst : s.chars.head? = some '['
    · obtain ⟨X, hs⟩ := List.head?_eq_some_iff.mp hfirst
      by_cases hend : ']' ∈ X
      · obtain ⟨X, R, rfl, hfree⟩ := List.eq_append_cons_of_mem hend
        have hnul : nul ∉ R := fun h => s.noNul (hs ▸ List.mem_cons_of_mem _
          (List.mem_append_right X (List.mem_cons_of_mem _ h)))
        rw [ofStr_bracketed hs hfree]
        by_cases hlen : X.length < 46
        · rw [if_pos hlen]
          cases hhost : Ip.parseV6 net X with
          | none => exact Or.inl rfl
          | some host =>
            rcases @parsePort_cases host (']' :: (X.reverse ++ ['['])) R hnul with
              hbad | ⟨port, hok, hport⟩
            · exact Or.inl hbad
            · exact Or.inr ⟨_, hok, hs ▸ .bracketed hfree (by omega) hhost hport⟩
        · rw [if_neg hlen]
          exact Or.inl rfl
      · exact Or.inl (ofStr_unended hs hend)
    · by_cases hdot : DotFirst s.chars
      · obtain ⟨X, R, hs, hfree, hcolon⟩ := cut_colon s.chars
        have hnul : nul ∉ R := fun h => s.noNul (hs ▸ List.mem_append_right X h)
        rw [ofStr_dotted hs hfirst hdot hfree hcolon]
        by_cases hlen : X.length < 16
        · rw [if_pos hlen]
          cases hhost : Ip.parseV4 net X with
          | none => exact Or.inl rfl
          | some host =>
            rcases @parsePort_cases host X.reverse R hnul with
              hbad | ⟨port, hok, hport⟩
            · exact Or.inl hbad
            · refine Or.inr ⟨_, hok, ?_⟩
              rw [hs] at hfirst hdot ⊢
              exact .dotted hfirst hdot hfree hcolon (by omega) hhost hport
        · rw [if_neg hlen]
          exact Or.inl rfl
      · rw [ofStr_plain hne hfirst hdot]
        cases hhost : Ip.parseV6 net s.chars with
        | none => exact Or.inl rfl
        | some host => exact Or.inr ⟨_, rfl, .plain hne hfirst hdot hhost⟩

end

/-- **The constructor from text** accepts the three kinds of text and no other, each as what it
stands for, and never leaves its buffers. -/
theorem ofStr_iff (net : InetPton) (buf6 : Vector Char (4 * 6 + 6 + (3 * 4 + 3) + 1))
    (buf4 : Vector Char (3 * 4 + 3 + 1)) (s : CStr) (a : Address) :
    (ofStr net buf6 buf4 s = .ok a ↔ Accepts net s.chars a) ∧
      ∀ fault, ofStr net buf6 buf4 s = .error fault → fault = .badFormat := by
  rcases @ofStr_cases net buf6 buf4 s with hbad | ⟨b, hok, hb⟩
  · refine ⟨⟨fun h => ?_, fun h => ofStr_of_accepts h⟩, fun fault h => ?_⟩
    · rw [hbad] at h
      cases h
    · rw [hbad] at h
      exact (Except.error.inj h).symm
  · refine ⟨⟨fun h => ?_, fun h => ofStr_of_accepts h⟩, fun fault h => ?_⟩
    · rw [hok] at h
      exact Except.ok.inj h ▸ hb
    · rw [hok] at h
      cases h

example :
    ofStr .standard (.replicate _ 'x') (.replicate _ 'x') ⟨"127.0.0.1:80.".toList, by decide⟩ =
    .ok ⟨Ip.ofV4 0x7f000001, 80⟩ := by decide

end Address

end Setka
