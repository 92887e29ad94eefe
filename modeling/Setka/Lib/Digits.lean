import Mathlib.Algebra.Group.Nat.Defs
import Mathlib.Tactic.Common

/-!
# Numbers as text

`Nat.toDigits b n` is the number `n` in the base `b`, without leading zeros.

* `mem_toDigits`    its characters are digits of the base;
* `toDigits_inj`    different numbers give different texts;
* `ofDigitChars_lt`  a number has no more digits than its text.
-/

namespace Digits
variable {b n m : ℕ} {c : Char}

theorem mem_toDigits (hb : 1 < b) (h : c ∈ Nat.toDigits b n) : ∃ d < b, c = d.digitChar := by
  induction n using Nat.strongRecOn with
  | ind n ih =>
    by_cases hn : n < b
    · rw [Nat.toDigits_of_lt_base hn] at h
      exact ⟨n, hn, List.mem_singleton.mp h⟩
    · rw [Nat.toDigits_of_base_le hb (Nat.not_lt.mp hn)] at h
      rcases List.mem_append.mp h with h | h
      · exact ih (n / b) (Nat.div_lt_self (by omega) hb) h
      · exact ⟨n % b, Nat.mod_lt n (by omega), List.mem_singleton.mp h⟩

theorem digitChar_inj {d e : ℕ} (hd : d < 16) (he : e < 16) (h : d.digitChar = e.digitChar) :
    d = e := by
  have hall : ∀ d < 16, ∀ e < 16, d.digitChar = e.digitChar → d = e := by decide
  exact hall d hd e he h

/-- A text with one digit is that of a number below the base only. -/
theorem toDigits_ne_of_lt (hb : 1 < b) (hn : n < b) (hm : b ≤ m) :
    Nat.toDigits b n ≠ Nat.toDigits b m := by
  rw [Nat.toDigits_of_lt_base hn, Nat.toDigits_of_base_le hb hm]
  intro h
  have hlen := congrArg List.length h
  have hpos := Nat.length_toDigits_pos (b := b) (n := m / b)
  rw [List.length_append, List.length_singleton, List.length_singleton] at hlen
  omega

theorem toDigits_inj (hb : 1 < b) (hb16 : b ≤ 16) (h : Nat.toDigits b n = Nat.toDigits b m) :
    n = m := by
  induction n using Nat.strongRecOn generalizing m with
  | ind n ih =>
    by_cases hn : n < b <;> by_cases hm : m < b
    · rw [Nat.toDigits_of_lt_base hn, Nat.toDigits_of_lt_base hm] at h
      exact digitChar_inj (by omega) (by omega) (List.singleton_inj.mp h)
    · exact absurd h (toDigits_ne_of_lt hb hn (Nat.not_lt.mp hm))
    · exact absurd h.symm (toDigits_ne_of_lt hb hm (Nat.not_lt.mp hn))
    · rw [Nat.toDigits_of_base_le hb (Nat.not_lt.mp hn),
        Nat.toDigits_of_base_le hb (Nat.not_lt.mp hm)] at h
      obtain ⟨hinit, hlast⟩ := List.append_inj' h rfl
      have hdiv := ih (n / b) (Nat.div_lt_self (by omega) hb) hinit
      have hlt : ∀ k, k % b < 16 := fun k => Nat.lt_of_lt_of_le (Nat.mod_lt k (by omega)) hb16
      have hmod := digitChar_inj (hlt n) (hlt m) (List.singleton_inj.mp hlast)
      rw [← Nat.div_add_mod n b, hdiv, hmod, Nat.div_add_mod]

theorem ofDigitChars_lt {digits : List Char} (h : ∀ c ∈ digits, c.isDigit = true) :
    Nat.ofDigitChars 10 digits 0 < 10 ^ digits.length := by
  induction digits with
  | nil => exact Nat.one_pos
  | cons c digits ih =>
    have hc := (Char.isDigit_iff_toNat.mp (h c List.mem_cons_self)).2
    have hrest := ih fun d hd => h d (List.mem_cons_of_mem c hd)
    have hdigit : c.toNat - '0'.toNat ≤ 9 := Nat.sub_le_of_le_add hc
    have hmul := Nat.mul_le_mul_left (10 ^ digits.length) hdigit
    rw [Nat.ofDigitChars_cons, Nat.ofDigitChars_eq_ofDigitChars_zero, List.length_cons,
      Nat.pow_succ,      Nat.mul_zero, Nat.zero_add]
    omega

end Digits
