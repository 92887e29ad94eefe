import Setka.Dns.FirstAnswer

/-!
# The owner names the answer loop steps over

The loop through the answers looks at the first byte of an owner name only.  With two high bits that
are zero it goes on to the first zero byte, or else it steps over two bytes.

* `SteppedOver`         the condition: no labels, or labels without a zero byte and, if there is a
                        pointer after them, one whose low byte is zero;
* `skipOwnerName_labels`   a name with labels is stepped over if its only zero byte is the last one;
* `skipOwnerName_iff`   the loop leaves `p` at the end of a name if and only if it is `SteppedOver`;
* `skips_past_pointer`  a label in front of a pointer.
-/

namespace Setka

open Span

/-! ## the condition -/

/-- no labels, or labels without a zero byte, and a low byte of zero in the pointer after them -/
def DomainName.SteppedOver (name : DomainName) : Prop :=
  name.labels = [] ∨ ((∀ l ∈ name.labels, 0 ∉ l) ∧ ∀ q ∈ name.pointer, q.toNat % 256 = 0)

/-- The last byte of the name is the only one that is zero. -/
def DomainName.EndsInZero (name : DomainName) : Prop :=
  ∃ xs, name.encode = xs ++ [0] ∧ 0 ∉ xs

section
variable {name : DomainName}

theorem zero_not_mem_labels_iff :
    0 ∉ name.labels.flatMap encodeLabel ↔ ∀ l ∈ name.labels, 0 ∉ l := by
  constructor
  · intro h l hl hz
    exact h (List.mem_flatMap.mpr ⟨l, hl, List.mem_cons_of_mem _ hz⟩)
  · exact zero_not_mem_labels name.labels_length

theorem pointer_low_eq_zero (q : UInt16) :
    UInt8.ofNat (0xc000 ||| q).toNat = 0 ↔ q.toNat % 256 = 0 := by
  have hmod : (0xc000 ||| q).toNat % 256 = q.toNat % 256 := by
    rw [UInt16.toNat_or]
    show (0xc000 ||| q.toNat) % 2 ^ 8 = _
    rw [Nat.or_mod_two_pow]
    exact Nat.zero_or _
  rw [← UInt8.toNat_inj, UInt8.toNat_ofNat']
  show (0xc000 ||| q).toNat % 256 = 0 ↔ _
  rw [hmod]

theorem endsInZero_iff : name.EndsInZero ↔
    (∀ l ∈ name.labels, 0 ∉ l) ∧ ∀ q ∈ name.pointer, q.toNat % 256 = 0 := by
  rw [← zero_not_mem_labels_iff]
  unfold DomainName.EndsInZero DomainName.encode
  cases name.pointer with
  | none =>
    constructor
    · rintro ⟨xs, hxs, hz⟩
      rw [List.append_cancel_right hxs]
      exact ⟨hz, fun q hq => absurd hq (Option.not_mem_none q)⟩
    · intro h
      exact ⟨_, rfl, h.1⟩
  | some q =>
    have hsplit : name.labels.flatMap encodeLabel ++ serialize16be (0xc000 ||| q) =
        (name.labels.flatMap encodeLabel ++ [UInt8.ofNat ((0xc000 ||| q).toNat / 256)]) ++
          [UInt8.ofNat (0xc000 ||| q).toNat] := by
      rw [List.append_assoc]
      rfl
    have hhead : (0 : UInt8) ≠ UInt8.ofNat ((0xc000 ||| q).toNat / 256) := by
      intro h
      exact pointer_head q (by rw [← h]; rfl)
    constructor
    · rintro ⟨xs, hxs, hz⟩
      rw [hsplit] at hxs
      obtain ⟨rfl, hlow⟩ := List.append_inj' hxs rfl
      refine ⟨fun hmem => hz (List.mem_append_left _ hmem), fun q' hq' => ?_⟩
      rw [← Option.mem_some_iff.mp hq']
      exact (pointer_low_eq_zero q).mp (List.singleton_inj.mp hlow)
    · rintro ⟨hz, hlow⟩
      rw [(pointer_low_eq_zero q).mpr (hlow q rfl)] at hsplit
      refine ⟨_, hsplit, fun hmem => ?_⟩
      rcases List.mem_append.mp hmem with hmem | hmem
      · exact hz hmem
      · exact hhead (List.mem_singleton.mp hmem)

end

/-! ## the walk to the first zero byte -/

section
variable {mem : Bytes} {p q size : ℕ} {name : DomainName}

/-- The walk ends at the first zero byte, unless it comes to the end of the reply. -/
theorem skipDomainName_eq_some {l : Bytes} (h : skipDomainName size l p = some q)
    (hq : q ≠ size) : ∃ xs rest, l = xs ++ 0 :: rest ∧ 0 ∉ xs ∧ q = p + xs.length := by
  induction l generalizing p with
  | nil =>
    unfold skipDomainName at h
    split at h
    · rename_i hp
      cases h
      exact absurd hp hq
    · cases h
  | cons b l ih =>
    unfold skipDomainName at h
    split at h
    · rename_i hp
      cases h
      exact absurd hp hq
    · split at h
      · rename_i hb
        cases h
        exact ⟨[], l, by rw [hb]; rfl, nofun, rfl⟩
      · rename_i hb
        obtain ⟨xs, rest, rfl, hz, rfl⟩ := ih h
        refine ⟨b :: xs, rest, rfl, List.mem_cons.not.mpr (not_or.mpr ⟨Ne.symm hb, hz⟩), ?_⟩
        rw [List.length_cons]
        omega

/-- The first byte of a name with labels is a length below 64. -/
theorem head_of_labels (h : name.labels ≠ []) :
    ∃ (b : UInt8) (rest : Bytes), name.encode = b :: rest ∧ b >>> 6 = 0 := by
  obtain ⟨b, rest, hhead, hb⟩ := head_labels name.labels_length
  unfold DomainName.encode
  cases hl : name.labels with
  | nil => exact absurd hl h
  | cons l labels =>
    rw [hl] at hhead
    cases hhead
    exact ⟨_, _, rfl, hb⟩

/-- **A name with labels** is stepped over if and only if its only zero byte is the last one. -/
theorem skipOwnerName_labels (hl : name.labels ≠ []) (hat : At mem p name.encode)
    (hsize : p + name.encode.length ≤ size) :
    skipOwnerName mem size p = some (some (p + name.encode.length)) ↔ name.EndsInZero := by
  obtain ⟨b, rest, hhead, hb⟩ := head_of_labels hl
  have hget : mem[p]? = some b := by
    rw [hhead] at hat
    exact hat.head
  have hwalk : skipOwnerName mem size p = (skipDomainName size (mem.drop p) p).bind
      fun q => if q = size then some none else some (some (q + 1)) := by
    unfold skipOwnerName
    rw [hget]
    exact if_pos hb
  rw [hwalk]
  constructor
  · intro h
    obtain ⟨q, hq, h⟩ := Option.bind_eq_some_iff.mp h
    split at h
    · cases h
    · rename_i hne
      obtain ⟨xs, rest, hdrop, hz, rfl⟩ := skipDomainName_eq_some hq hne
      have hlen : name.encode.length = (xs ++ [0]).length := by
        have hend := Option.some.inj (Option.some.inj h)
        rw [List.length_append, List.length_singleton]
        omega
      refine ⟨xs, ?_, hz⟩
      calc name.encode = (xs ++ 0 :: rest).take (xs ++ [0]).length := by
            rw [← hdrop, ← hlen, hat.take]
        _ = xs ++ [0] := by rw [List.append_cons xs 0 rest, List.take_left]
  · rintro ⟨xs, henc, hz⟩
    rw [henc, List.length_append, List.length_singleton] at hsize ⊢
    rw [henc] at hat
    rw [skipDomainName_at hat hz (by omega), Option.bind_some, if_neg (by omega)]
    rfl

/-! ## the result -/

/-- **The loop leaves `p` at the end of an owner name** if and only if it is `SteppedOver`. -/
theorem skipOwnerName_iff (hat : At mem p name.encode) (hsize : p + name.encode.length ≤ size) :
    skipOwnerName mem size p = some (some (p + name.encode.length)) ↔ name.SteppedOver := by
  unfold DomainName.SteppedOver
  by_cases hl : name.labels = []
  · refine iff_of_true (skipOwnerName_encode ?_ hat hsize) (.inl hl)
    cases hp : name.pointer with
    | none => exact .inr ⟨hp, by rw [hl]; exact nofun⟩
    | some q => exact .inl ⟨hl, by rw [hp]; exact nofun⟩
  · rw [skipOwnerName_labels hl hat hsize, endsInZero_iff, or_iff_right hl]

end

/-- The owner of `aliasRecord` is the name "a", with a zero byte at its end. -/
theorem skipOwnerName_iff_whole : skipOwnerName [1, 97, 0, 0, 1] 5 0 = some (some 3) :=
  have hat : At [1, 97, 0, 0, 1] 0 aliasRecord.owner.encode := by decide
  (skipOwnerName_iff hat (by decide)).mpr
    (.inr ⟨by decide, fun q hq => absurd hq (Option.not_mem_none q)⟩)

/-- the label "b" in front of a pointer to the question -/
def labelAndPointer : DomainName where
  labels := [[98]]
  pointer := some 12
  labels_length := by decide
  pointer_lt q hq := by
    rw [← Option.mem_some_iff.mp hq]
    decide

/-- Behind a label in front of a pointer, `p` is left inside of the type of the record. -/
theorem skips_past_pointer : ¬ ∀ (mem : Bytes) (p size : ℕ) (name : DomainName),
    At mem p name.encode → p + name.encode.length ≤ size → size ≤ mem.length →
    skipOwnerName mem size p = some (some (p + name.encode.length)) := by
  intro h
  have hskip := h [1, 98, 0xc0, 12, 0, 1] 0 6 labelAndPointer (by decide) (by decide) (by decide)
  have hpast : skipOwnerName [1, 98, 0xc0, 12, 0, 1] 6 0 = some (some 5) := rfl
  rw [hpast] at hskip
  exact absurd hskip (by decide)

end Setka
