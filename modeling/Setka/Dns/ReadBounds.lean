import Setka.Dns.Reads

/-!
# Reads outside of a reply

`ParseReplyFromDNS` checks the length of a reply before each field it reads, except for the type and
the class of the question.  The memory is the span and nothing else: a read outside of it gives
`none`.

* `parseAnswers_total`    the loop through the answers stays inside;
* `QuestionCut`           the span ends inside the type or the class;
* `reads_inside_iff`      these are the only spans outside of which something is read;
* `cut_reply_reads_outside`   a reply that ends with the host name.
-/

namespace Setka

open Span

section
variable {mem : Bytes} {size p : ℕ} (hs : size ≤ mem.length)
include hs

theorem skipDomainName_total (hp : p ≤ size) : ∃ q, skipDomainName size (mem.drop p) p = some q ∧
    p ≤ q ∧ q ≤ size := by
  induction hk : size - p generalizing p with
  | zero =>
    have heq : p = size := by omega
    refine ⟨p, ?_, Nat.le_refl p, hp⟩
    cases mem.drop p <;> exact if_pos heq
  | succ k ih =>
    have hlt : p < mem.length := by omega
    rw [List.drop_eq_getElem_cons hlt]
    unfold skipDomainName
    rw [if_neg (show ¬ p = size by omega)]
    split
    · exact ⟨p, rfl, Nat.le_refl p, hp⟩
    · obtain ⟨q, hq, hle, hqs⟩ := ih (show p + 1 ≤ size by omega) (by omega)
      exact ⟨q, hq, by omega, hqs⟩

theorem skipOwnerName_total (hp : p < size) : ∃ o, skipOwnerName mem size p = some o := by
  unfold skipOwnerName
  rw [List.getElem?_eq_getElem (show p < mem.length by omega)]
  show ∃ o, (if mem[p] >>> 6 = 0 then (skipDomainName size (mem.drop p) p).bind _ else _) = some o
  split
  · obtain ⟨q, hq, _⟩ := skipDomainName_total hs hp.le
    rw [hq, Option.bind_some]
    split <;> exact ⟨_, rfl⟩
  · exact ⟨_, rfl⟩

theorem deserialize32be_total (h : p + 4 ≤ size) : ∃ x, deserialize32be mem p = some x := by
  obtain ⟨hi, hhi⟩ := deserialize16be_total (show p + 2 ≤ mem.length by omega)
  obtain ⟨lo, hlo⟩ := deserialize16be_total (show p + 2 + 2 ≤ mem.length by omega)
  unfold deserialize32be
  rw [hhi, hlo]
  exact ⟨_, rfl⟩

theorem answerHost_total {type : UInt16} {k : ℕ} (h : p + k ≤ size) :
    ∃ res, answerHost type mem p k = some res := by
  unfold answerHost
  split
  · split
    · exact ⟨_, rfl⟩
    · obtain ⟨a, ha⟩ := deserialize32be_total hs (show p + 4 ≤ size by omega)
      rw [ha]
      exact ⟨_, rfl⟩
  · split
    · split
      · exact ⟨_, rfl⟩
      · obtain ⟨a, ha⟩ := deserialize32be_total hs (show p + 4 ≤ size by omega)
        obtain ⟨b, hb⟩ := deserialize32be_total hs (show p + 4 + 4 ≤ size by omega)
        obtain ⟨c, hc⟩ := deserialize32be_total hs (show p + 8 + 4 ≤ size by omega)
        obtain ⟨d, hd⟩ := deserialize32be_total hs (show p + 12 + 4 ≤ size by omega)
        rw [ha, hb, hc, hd]
        exact ⟨_, rfl⟩
    · exact ⟨_, rfl⟩

/-- **The loop through the answers reads nothing outside of the reply.** -/
theorem parseAnswers_total {type : UInt16} {count : ℕ} (hp : p ≤ size) :
    ∃ res, parseAnswers type mem size count p = some res := by
  induction count generalizing p with
  | zero => exact ⟨_, rfl⟩
  | succ count ih =>
    unfold parseAnswers
    split
    · exact ⟨_, rfl⟩
    · obtain ⟨o, ho⟩ := skipOwnerName_total hs (show p < size by omega)
      rw [ho]
      cases o with
      | none => exact ⟨_, rfl⟩
      | some q =>
        show ∃ res, (if size < q + 2 then _ else (deserialize16be mem q).bind _) = some res
        split
        · exact ⟨_, rfl⟩
        · obtain ⟨t, ht⟩ := deserialize16be_total (show q + 2 ≤ mem.length by omega)
          rw [ht, Option.bind_some]
          split
          · exact ⟨_, rfl⟩
          · split
            · exact ⟨_, rfl⟩
            · split
              · exact ⟨_, rfl⟩
              · obtain ⟨len, hlen⟩ := deserialize16be_total (show q + 8 + 2 ≤ mem.length by omega)
                show ∃ res, (deserialize16be mem (q + 8)).bind _ = some res
                rw [hlen, Option.bind_some]
                split
                · exact ⟨_, rfl⟩
                · split
                  · exact answerHost_total hs (by omega)
                  · exact ih (by omega)

end

/-! ## the result -/

/-- The reply passes for one to the request up to the question, and ends inside the type, or, if
this is right, inside the class. -/
def QuestionCut (r : Resolver) (buf : Bytes) : Prop :=
  12 ≤ buf.length ∧
  ∃ k e, header buf = some (.answers k) ∧ NameEnds buf 12 buf.length r.hostName e ∧
    (buf.length < e + 2 ∨ (At buf e (serialize16be r.recordType) ∧ buf.length < e + 4))

theorem header_total {mem : Bytes} (h : 12 ≤ mem.length) : ∃ hd, header mem = some hd := by
  obtain ⟨flags, hflags⟩ := deserialize16be_total (show 2 + 2 ≤ mem.length by omega)
  obtain ⟨questions, hquestions⟩ := deserialize16be_total (show 4 + 2 ≤ mem.length by omega)
  obtain ⟨answers, hanswers⟩ := deserialize16be_total (show 6 + 2 ≤ mem.length by omega)
  unfold header
  rw [hflags, hquestions, hanswers]
  show ∃ hd, (if flags &&& 0x8000 = 0 then _ else if flags &&& 0xf ≠ 0 then _ else
    if questions ≠ 1 then _ else if answers = 0 then _ else _) = some hd
  split
  · exact ⟨_, rfl⟩
  · split
    · split <;> exact ⟨_, rfl⟩
    · split
      · exact ⟨_, rfl⟩
      · split <;> exact ⟨_, rfl⟩

/-- the fields of the question, after the host name of the request -/
theorem parseBody_total_iff {r : Resolver} {buf : Bytes} {k : UInt16} {e : ℕ}
    (h : parseHostNameFromDNSPacket buf 12 buf.length = some (r.hostName, e)) :
    (∃ res, parseBody r buf buf.length k = some res) ↔
      ¬ (buf.length < e + 2 ∨ (At buf e (serialize16be r.recordType) ∧ buf.length < e + 4)) := by
  rw [parseBody_eq h]
  by_cases htype : buf.length < e + 2
  · rw [deserialize16be_eq_none htype]
    exact iff_of_false nofun (not_not.mpr (.inl htype))
  · obtain ⟨type, ht⟩ := deserialize16be_total (Nat.not_lt.mp htype)
    rw [ht, Option.bind_some]
    by_cases hright : type = r.recordType
    · rw [hright] at ht
      rw [if_neg (not_not.mpr hright)]
      by_cases hcls : buf.length < e + 4
      · rw [deserialize16be_eq_none (show buf.length < e + 2 + 2 from hcls)]
        exact iff_of_false nofun (not_not.mpr (.inr ⟨deserialize16be_iff.mp ht, hcls⟩))
      · refine iff_of_true ?_ (not_or.mpr ⟨htype, fun hcut => hcls hcut.2⟩)
        obtain ⟨cls, hc⟩ :=
          deserialize16be_total (show e + 2 + 2 ≤ buf.length from Nat.not_lt.mp hcls)
        rw [hc, Option.bind_some]
        split
        · exact ⟨_, rfl⟩
        · exact parseAnswers_total (Nat.le_refl _) (Nat.not_lt.mp hcls)
    · rw [if_pos hright]
      refine iff_of_true ⟨_, rfl⟩ (not_or.mpr ⟨htype, fun hcut => hright ?_⟩)
      rw [deserialize16be_at hcut.1] at ht
      exact (Option.some.inj ht).symm

/-- **`ParseReplyFromDNS` stays inside of the span** if and only if the span does not end inside the
question of the request. -/
theorem reads_inside_iff (r : Resolver) (buf : Bytes) :
    (∃ res, parseReplyFromDNS r buf buf.length = some res) ↔ ¬ QuestionCut r buf := by
  by_cases h : 12 ≤ buf.length
  · obtain ⟨hd, hhd⟩ := header_total h
    rw [parseReplyFromDNS_eq h, hhd, Option.bind_some]
    have hnot : (∀ k, hd ≠ .answers k) → ¬ QuestionCut r buf := by
      rintro hne ⟨_, k, _, hk, _⟩
      rw [hhd] at hk
      exact hne k (Option.some.inj hk)
    cases hd with
    | error => exact iff_of_true ⟨_, rfl⟩ (hnot nofun)
    | notFound => exact iff_of_true ⟨_, rfl⟩ (hnot nofun)
    | answers k =>
      show (∃ res, parseBody r buf buf.length k = some res) ↔ _
      have hiff : ∀ {host e}, _ ↔ NameEnds buf 12 buf.length host e :=
        parseHostName_iff (Nat.le_refl _) h
      obtain ⟨host, e, hparse, _⟩ := parseHostName_total (Nat.le_refl buf.length) h
      by_cases hname : r.hostName = host
      · rw [← hname] at hparse
        rw [parseBody_total_iff hparse]
        refine not_congr ⟨fun hcut => ⟨h, k, e, hhd, hiff.mp hparse, hcut⟩, ?_⟩
        rintro ⟨_, _, e', _, hends, hcut⟩
        rw [← hiff, hparse] at hends
        obtain rfl := (Prod.mk.inj (Option.some.inj hends)).2
        exact hcut
      · refine iff_of_true ?_ ?_
        · unfold parseBody
          rw [hparse]
          exact ⟨_, if_pos hname⟩
        · rintro ⟨_, _, e', _, hends, _⟩
          rw [← hiff, hparse] at hends
          exact hname (Prod.mk.inj (Option.some.inj hends)).1.symm
  · unfold parseReplyFromDNS
    rw [if_pos (Nat.not_le.mp h)]
    exact iff_of_true ⟨_, rfl⟩ fun hcut => h hcut.1

/-- a reply to the AAAA query for the host "a", with one answer, that ends with the host name -/
def cutReply : Bytes := [0, 0, 0x81, 0x80, 0, 1, 0, 1, 0, 0, 0, 0, 1, 97, 0]

theorem cut_reply_reads_outside :
    ¬ ∀ (r : Resolver) (buf : Bytes), ∃ res, parseReplyFromDNS r buf buf.length = some res := by
  intro h
  obtain ⟨res, hres⟩ :=
    h (({} : Tables).newResolver 0 ⟨1, [97], 1000, Address.unset⟩ 0 0) cutReply
  have hnone : parseReplyFromDNS (({} : Tables).newResolver 0 ⟨1, [97], 1000, Address.unset⟩ 0 0)
      cutReply cutReply.length = none := by decide
  rw [hnone] at hres
  cases hres

end Setka
