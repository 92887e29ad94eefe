import Setka.Dns.Resolver

/-!
# Parsing a DNS reply

`ParseHostNameFromDNSPacket` and `LookupThread::ParseReplyFromDNS`.  `mem` is the array the reply
lies in, a pointer into it is an index, and reading outside `mem` gives `none` (undefined
behaviour).  The span that is parsed is the first `size` bytes of `mem`; nothing keeps the code
from reading the bytes of `mem` after the span.
-/

namespace Setka

/-! ## reading memory -/

def deserialize16be (mem : Bytes) (p : ℕ) : Option UInt16 := do
  let hi ← mem[p]?
  let lo ← mem[p + 1]?
  some (UInt16.ofNat (hi.toNat * 256 + lo.toNat))

def deserialize32be (mem : Bytes) (p : ℕ) : Option UInt32 := do
  let hi ← deserialize16be mem p
  let lo ← deserialize16be mem (p + 2)
  some (UInt32.ofNat (hi.toNat * 65536 + lo.toNat))

/-- `n` bytes from `p` on -/
def readBytes (mem : Bytes) (p n : ℕ) : Option Bytes :=
  if p + n ≤ mem.length then some ((mem.drop p).take n) else none

/-! ## the host name -/

def dot : UInt8 := 46

/-- the loop of `ParseHostNameFromDNSPacket`, for at most `fuel` labels -/
def parseHostNameLoop (mem : Bytes) (stop : ℕ) : ℕ → ℕ → Bytes → Option (Bytes × ℕ)
  | 0, _, _ => none
  | fuel + 1, p, host =>
    if p = stop then some ([], p)
    else do
      let len ← mem[p]?
      if len = 0 then some (host, p + 1)
      else
        let host := if host.length ≠ 0 then host ++ [dot] else host
        if stop < p + 1 + len.toNat then some ([], p + 1)
        else do
          let label ← readBytes mem (p + 1) len.toNat
          parseHostNameLoop mem stop fuel (p + 1 + len.toNat) (host ++ label)

/-- `ParseHostNameFromDNSPacket(p, end)`: the host name (empty on failure) and the position where
`p` is left.  Every label takes at least one byte, so `stop - p + 1` rounds are enough. -/
def parseHostNameFromDNSPacket (mem : Bytes) (p stop : ℕ) : Option (Bytes × ℕ) :=
  parseHostNameLoop mem stop (stop - p + 1) p []

/-! ## the reply -/

structure ParseResult where
  result : DnsResult
  host : Ip := ⟨0, 0, 0, 0⟩
deriving DecidableEq, Repr

/-- `for(; p != buf.end() && *p != 0; ++p)`, over the memory from `p` on -/
def skipDomainName (stop : ℕ) : Bytes → ℕ → Option ℕ
  | [], p => if p = stop then some p else none
  | b :: rest, p =>
    if p = stop then some p
    else if b = 0 then some p
    else skipDomainName stop rest (p + 1)

/-- the owner name at the head of an answer record; `none` inside stands for the "unexpected end of
packet" return -/
def skipOwnerName (mem : Bytes) (size p : ℕ) : Option (Option ℕ) := do
  let b ← mem[p]?
  if b >>> 6 = 0 then do
    let p ← skipDomainName size (mem.drop p) p
    if p = size then some none else some (some (p + 1))
  else some (some (p + 2))

/-- the address in the first record of the wanted type -/
def answerHost (recordType : UInt16) (mem : Bytes) (p dataLen : ℕ) : Option ParseResult :=
  if recordType = recordA then
    if dataLen < 4 then some ⟨.dnsError, ⟨0, 0, 0, 0⟩⟩
    else do
      let h ← deserialize32be mem p
      some ⟨.ok, Ip.ofV4 h⟩
  else if recordType = recordAAAA then
    if dataLen < 16 then some ⟨.dnsError, ⟨0, 0, 0, 0⟩⟩
    else do
      let a ← deserialize32be mem p
      let b ← deserialize32be mem (p + 4)
      let c ← deserialize32be mem (p + 8)
      let d ← deserialize32be mem (p + 12)
      some ⟨.ok, ⟨a, b, c, d⟩⟩
  else some ⟨.ok, ⟨0, 0, 0, 0⟩⟩

/-- the loop through the answers, `n` of them left -/
def parseAnswers (recordType : UInt16) (mem : Bytes) (size : ℕ) : ℕ → ℕ → Option ParseResult
  | 0, _ => some { result := .dnsError }
  | n + 1, p =>
    if p = size then some { result := .dnsError }
    else do
      match ← skipOwnerName mem size p with
      | none => some { result := .dnsError }
      | some p =>
        if size < p + 2 then some { result := .dnsError }
        else do
          let type ← deserialize16be mem p
          if size < p + 4 then some { result := .dnsError }
          else if size < p + 8 then some { result := .dnsError }
          else if size < p + 10 then some { result := .dnsError }
          else do
            let dataLen ← deserialize16be mem (p + 8)
            if size < p + 10 + dataLen.toNat then some { result := .dnsError }
            else if type = recordType then answerHost recordType mem (p + 10) dataLen.toNat
            else parseAnswers recordType mem size n (p + 10 + dataLen.toNat)

/-- `LookupThread::ParseReplyFromDNS` -/
def parseReplyFromDNS (r : Resolver) (mem : Bytes) (size : ℕ) : Option ParseResult :=
  if size < 12 then some { result := .dnsError }
  else do
    let flags ← deserialize16be mem 2
    if flags &&& 0x8000 = 0 then some { result := .dnsError }
    else if flags &&& 0xf ≠ 0 then
      if flags &&& 0xf = 3 then some { result := .notFound } else some { result := .dnsError }
    else do
      let numQuestions ← deserialize16be mem 4
      if numQuestions ≠ 1 then some { result := .dnsError }
      else do
        let numAnswers ← deserialize16be mem 6
        if numAnswers = 0 then some { result := .notFound }
        else do
          let (host, p) ← parseHostNameFromDNSPacket mem 12 size
          if r.hostName ≠ host then some { result := .dnsError }
          else do
            let type ← deserialize16be mem p
            if type ≠ r.recordType then some { result := .dnsError }
            else do
              let cls ← deserialize16be mem (p + 2)
              if cls ≠ 1 then some { result := .dnsError }
              else parseAnswers r.recordType mem size numAnswers.toNat (p + 4)

/-! ## header and body -/

/-- what the flags and the counts of a reply say -/
inductive Header where
  | error
  | notFound
  | answers (n : UInt16)
deriving DecidableEq, Repr

/-- the part of `ParseReplyFromDNS` up to the number of answers -/
def header (mem : Bytes) : Option Header := do
  let flags ← deserialize16be mem 2
  if flags &&& 0x8000 = 0 then some .error
  else if flags &&& 0xf ≠ 0 then
    if flags &&& 0xf = 3 then some .notFound else some .error
  else do
    let numQuestions ← deserialize16be mem 4
    if numQuestions ≠ 1 then some .error
    else do
      let numAnswers ← deserialize16be mem 6
      if numAnswers = 0 then some .notFound else some (.answers numAnswers)

/-- the part of `ParseReplyFromDNS` from the question on -/
def parseBody (r : Resolver) (mem : Bytes) (size : ℕ) (numAnswers : UInt16) :
    Option ParseResult := do
  let (host, p) ← parseHostNameFromDNSPacket mem 12 size
  if r.hostName ≠ host then some { result := .dnsError }
  else do
    let type ← deserialize16be mem p
    if type ≠ r.recordType then some { result := .dnsError }
    else do
      let cls ← deserialize16be mem (p + 2)
      if cls ≠ 1 then some { result := .dnsError }
      else parseAnswers r.recordType mem size numAnswers.toNat (p + 4)

/-- what a header leads to -/
def Header.parse (r : Resolver) (mem : Bytes) (size : ℕ) : Header → Option ParseResult
  | .error => some { result := .dnsError }
  | .notFound => some { result := .notFound }
  | .answers n => parseBody r mem size n

theorem parseReplyFromDNS_eq {r : Resolver} {mem : Bytes} {size : ℕ} (h : 12 ≤ size) :
    parseReplyFromDNS r mem size = (header mem).bind (Header.parse r mem size) := by
  unfold parseReplyFromDNS header
  rw [if_neg (Nat.not_lt.mpr h)]
  cases deserialize16be mem 2 with
  | none => rfl
  | some flags =>
    show (if flags &&& 0x8000 = 0 then _ else if flags &&& 0xf ≠ 0 then _ else _) =
      Option.bind (if flags &&& 0x8000 = 0 then _ else if flags &&& 0xf ≠ 0 then _ else _) _
    split
    · rfl
    · split
      · split <;> rfl
      · cases deserialize16be mem 4 with
        | none => rfl
        | some numQuestions =>
          show (if numQuestions ≠ 1 then _ else _) =
            Option.bind (if numQuestions ≠ 1 then _ else _) _
          split
          · rfl
          · cases deserialize16be mem 6 with
            | none => rfl
            | some numAnswers =>
              show (if numAnswers = 0 then _ else _) =
                Option.bind (if numAnswers = 0 then _ else _) _
              split <;> rfl

theorem ne_zero_of_header {mem : Bytes} {k : UInt16} (h : header mem = some (.answers k)) :
    k ≠ 0 := by
  obtain ⟨flags, _, h⟩ := Option.bind_eq_some_iff.mp h
  split at h
  · cases h
  · split at h
    · split at h <;> cases h
    · obtain ⟨questions, _, h⟩ := Option.bind_eq_some_iff.mp h
      split at h
      · cases h
      · obtain ⟨answers, _, h⟩ := Option.bind_eq_some_iff.mp h
        split at h
        · cases h
        · rename_i hne
          cases h
          exact hne

/-- from the question on, if the host name is the one of the request -/
theorem parseBody_eq {r : Resolver} {mem : Bytes} {size e : ℕ} {k : UInt16}
    (h : parseHostNameFromDNSPacket mem 12 size = some (r.hostName, e)) : parseBody r mem size k =
      (deserialize16be mem e).bind fun type =>
        if type ≠ r.recordType then some { result := .dnsError }
        else (deserialize16be mem (e + 2)).bind fun cls =>
          if cls ≠ 1 then some { result := .dnsError }
          else parseAnswers r.recordType mem size k.toNat (e + 4) := by
  unfold parseBody
  rw [h]
  exact if_neg (fun hne => hne rfl)

/-! ## the results -/

theorem answerHost_result {recordType : UInt16} {mem : Bytes} {p dataLen : ℕ} {res : ParseResult}
    (h : answerHost recordType mem p dataLen = some res) :
    res.result = .ok ∨ res.result = .dnsError := by
  unfold answerHost at h
  split at h
  · split at h
    · cases h
      exact .inr rfl
    · obtain ⟨a, _, h⟩ := Option.bind_eq_some_iff.mp h
      cases h
      exact .inl rfl
  · split at h
    · split at h
      · cases h
        exact .inr rfl
      · obtain ⟨a, _, h⟩ := Option.bind_eq_some_iff.mp h
        obtain ⟨b, _, h⟩ := Option.bind_eq_some_iff.mp h
        obtain ⟨c, _, h⟩ := Option.bind_eq_some_iff.mp h
        obtain ⟨d, _, h⟩ := Option.bind_eq_some_iff.mp h
        cases h
        exact .inl rfl
    · cases h
      exact .inl rfl

/-- The answers give an address or an error, never "not found". -/
theorem parseAnswers_result {recordType : UInt16} {mem : Bytes} {size n p : ℕ} {res : ParseResult}
    (h : parseAnswers recordType mem size n p = some res) :
    res.result = .ok ∨ res.result = .dnsError := by
  have herr : ∀ {r : ParseResult}, some { result := .dnsError } = some r →
      r.result = .ok ∨ r.result = .dnsError := by
    intro r hr
    cases hr
    exact .inr rfl
  induction n generalizing p with
  | zero => exact herr h
  | succ n ih =>
    unfold parseAnswers at h
    split at h
    · exact herr h
    · obtain ⟨o, _, h⟩ := Option.bind_eq_some_iff.mp h
      cases o with
      | none => exact herr h
      | some q =>
        dsimp only at h
        split at h
        · exact herr h
        · obtain ⟨type, _, h⟩ := Option.bind_eq_some_iff.mp h
          split at h
          · exact herr h
          · split at h
            · exact herr h
            · split at h
              · exact herr h
              · obtain ⟨dataLen, _, h⟩ := Option.bind_eq_some_iff.mp h
                split at h
                · exact herr h
                · split at h
                  · exact answerHost_result h
                  · exact ih h

theorem parseBody_result {r : Resolver} {mem : Bytes} {size : ℕ} {n : UInt16} {res : ParseResult}
    (h : parseBody r mem size n = some res) : res.result = .ok ∨ res.result = .dnsError := by
  have herr : some { result := .dnsError } = some res →
      res.result = .ok ∨ res.result = .dnsError := by
    intro hr
    rw [← Option.some.inj hr]
    exact .inr rfl
  obtain ⟨⟨host, p⟩, _, h⟩ := Option.bind_eq_some_iff.mp h
  dsimp only at h
  split at h
  · exact herr h
  · obtain ⟨type, _, h⟩ := Option.bind_eq_some_iff.mp h
    split at h
    · exact herr h
    · obtain ⟨cls, _, h⟩ := Option.bind_eq_some_iff.mp h
      split at h
      · exact herr h
      · exact parseAnswers_result h

/-- A reply gives "not found" for its header only. -/
theorem parseReplyFromDNS_result {r : Resolver} {mem : Bytes} {size : ℕ} {res : ParseResult}
    (h : parseReplyFromDNS r mem size = some res) :
    (res.result = .notFound ∧ header mem = some .notFound) ∨
      res.result = .ok ∨ res.result = .dnsError := by
  by_cases hsize : 12 ≤ size
  · rw [parseReplyFromDNS_eq hsize] at h
    obtain ⟨hd, hh, h⟩ := Option.bind_eq_some_iff.mp h
    cases hd with
    | error =>
      cases h
      exact .inr (.inr rfl)
    | notFound =>
      cases h
      exact .inl ⟨rfl, hh⟩
    | answers n => exact .inr (parseBody_result h)
  · unfold parseReplyFromDNS at h
    rw [if_pos (Nat.not_le.mp hsize)] at h
    cases h
    exact .inr (.inr rfl)

end Setka
