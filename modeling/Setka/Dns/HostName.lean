import Setka.Dns.Reads

/-!
# The range of a host name

`ParseHostNameFromDNSPacket` reads its range and nothing else, and a host name that is not empty
says how far it has read.

* `parseHostNameLoop_append`   what stands in front of a memory moves the positions only;
* `dotted_length`       the dots of a host name and the lengths of its labels;
* `parseHostName_range`   every range of every memory.
-/

namespace Setka

open Span

/-! ## a memory in front of the range -/

section
variable {before mem : Bytes} {p stop : ℕ}

theorem getElem?_before (before mem : Bytes) (p : ℕ) :
    (before ++ mem)[before.length + p]? = mem[p]? := by
  rw [List.getElem?_append_right (Nat.le_add_right _ _), Nat.add_sub_cancel_left]

theorem readBytes_append (before mem : Bytes) (p n : ℕ) :
    readBytes (before ++ mem) (before.length + p) n = readBytes mem p n := by
  unfold readBytes
  rw [← List.drop_drop, List.drop_left, List.length_append]
  by_cases h : p + n ≤ mem.length
  · rw [if_pos h, if_pos (by omega)]
  · rw [if_neg h, if_neg (by omega)]

/-- **What stands in front of a memory** moves the positions only. -/
theorem parseHostNameLoop_append {fuel : ℕ} {host : Bytes} :
    parseHostNameLoop (before ++ mem) (before.length + stop) fuel (before.length + p) host =
      (parseHostNameLoop mem stop fuel p host).map fun r => (r.1, before.length + r.2) := by
  induction fuel generalizing p host with
  | zero => rfl
  | succ fuel ih =>
    rw [parseHostNameLoop_succ, parseHostNameLoop_succ, getElem?_before]
    by_cases hend : p = stop
    · rw [if_pos hend, if_pos (congrArg _ hend)]
      rfl
    · rw [if_neg hend, if_neg (by omega), Option.map_bind]
      refine Option.bind_congr fun len _ => ?_
      dsimp only [Function.comp_apply]
      split
      · rfl
      · rw [Nat.add_assoc before.length p 1, readBytes_append, Nat.add_assoc before.length (p + 1)]
        by_cases hcut : stop < p + 1 + len.toNat
        · rw [if_pos hcut, if_pos (by omega)]
          rfl
        · rw [if_neg hcut, if_neg (by omega), Option.map_bind]
          refine Option.bind_congr fun label _ => ?_
          exact ih

end

/-! ## the length of a host name -/

/-- A dot stands for each length byte but the first one. -/
theorem dotted_length {labels : List Bytes} (h : labels ≠ []) :
    (dotted labels).length + 1 = (labels.flatMap encodeLabel).length := by
  have hdots : (labels.flatMap (dot :: ·)).length = (labels.flatMap encodeLabel).length := by
    rw [List.length_flatMap, List.length_flatMap]
    rfl
  rw [← hdots, flatMap_dot h]
  rfl

/-! ## the result -/

/-- **`ParseHostNameFromDNSPacket`** reads nothing outside of its range: with the range alone it
gives the same.  It leaves `p` inside, and after a host name that is not empty two more bytes have
been read than it has, the last of them the zero byte. -/
theorem parseHostName_range (before range after : Bytes) : ∃ host n,
    parseHostNameFromDNSPacket range 0 range.length = some (host, n) ∧
    parseHostNameFromDNSPacket (before ++ (range ++ after)) before.length
      (before.length + range.length) = some (host, before.length + n) ∧
    n ≤ range.length ∧
    (host ≠ [] → n = host.length + 2 ∧ range[n - 1]? = some 0) := by
  obtain ⟨host, n, hparse, hn⟩ := parseHostName_total (Nat.le_refl range.length) (Nat.zero_le _)
  refine ⟨host, n, hparse, ?_, hn, fun hne => ?_⟩
  · have hagree : Agree range.length (range ++ after) range := by
      unfold Agree
      rw [List.take_left, List.take_length]
    have hafter : parseHostNameFromDNSPacket (range ++ after) 0 range.length = some (host, n) := by
      rw [parseHostName_congr hagree (by rw [List.length_append]; omega) (Nat.le_refl _)
        (Nat.le_refl _) (Nat.zero_le _), hparse]
    have happend := @parseHostNameLoop_append before (range ++ after) 0 range.length
      (range.length - 0 + 1) []
    unfold parseHostNameFromDNSPacket at hafter ⊢
    rw [hafter] at happend
    rw [Nat.add_sub_cancel_left]
    exact happend
  · rw [parseHostName_iff (Nat.le_refl _) (Nat.zero_le _)] at hparse
    obtain ⟨labels, ⟨⟨_, hat, _⟩, rfl, rfl⟩ | ⟨hnil, _⟩⟩ := hparse
    · have hlabels : labels ≠ [] := by
        rintro rfl
        exact hne rfl
      refine ⟨by rw [← dotted_length hlabels, Nat.zero_add], ?_⟩
      exact hat.right.head
    · exact absurd hnil hne

/-- The name "a" with its length and its zero byte. -/
example : parseHostNameFromDNSPacket ([7] ++ ([1, 97, 0] ++ [9])) 1 4 = some ([97], 4) := by decide

end Setka
