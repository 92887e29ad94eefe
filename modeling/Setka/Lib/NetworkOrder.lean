import Mathlib.Algebra.Group.Nat.Defs
import Mathlib.Data.Fin.Rev
import Mathlib.Data.Fin.VecNotation

/-!
# Network order

Words of 32 bits and their bytes, the highest first, as they are sent through a network.

* `bytesBE`, `wordBE`   from a word to its bytes and back, `wordBE_shifts` for the usual expression;
* `NetworkOrder`        a machine: how a word lies in its memory, and its conversions to the order
                        of the network and back, which invert each other;
* `bigEndian`, `littleEndian`   the two usual machines;
* `toBytes`, `toWords`  an array of words in the memory of a machine, as in a union.
-/

namespace Word

/-! ## words and bytes -/

def bytesBE (x : UInt32) : Fin 4 → UInt8 :=
  ![(x >>> 24).toUInt8, (x >>> 16).toUInt8, (x >>> 8).toUInt8, x.toUInt8]

def push (x : UInt32) (c : UInt8) : UInt32 := x <<< 8 ||| c.toUInt32

def wordBE (b : Fin 4 → UInt8) : UInt32 := Fin.foldl 4 (fun x i => push x (b i)) 0

theorem wordBE_push (b : Fin 4 → UInt8) :
    wordBE b = push (push (push (push 0 (b 0)) (b 1)) (b 2)) (b 3) := rfl

theorem toNat_push {x : UInt32} (c : UInt8) (hx : x.toNat < 2 ^ 24) :
    (push x c).toNat = x.toNat * 2 ^ 8 + c.toNat := by
  have hc := c.toNat_lt
  unfold push
  rw [UInt32.toNat_or, UInt32.toNat_shiftLeft, UInt8.toNat_toUInt32]
  change x.toNat <<< 8 % 2 ^ 32 ||| c.toNat = _
  rw [Nat.shiftLeft_eq, Nat.mod_eq_of_lt (by omega), ← Nat.shiftLeft_eq,
    Nat.shiftLeft_add_eq_or_of_lt hc]

/-- The bytes do not overlap, so the word is their sum. -/
theorem toNat_wordBE (b : Fin 4 → UInt8) : (wordBE b).toNat =
    (((b 0).toNat * 2 ^ 8 + (b 1).toNat) * 2 ^ 8 + (b 2).toNat) * 2 ^ 8 + (b 3).toNat := by
  have h0 := (b 0).toNat_lt
  have h1 := (b 1).toNat_lt
  have h2 := (b 2).toNat_lt
  have e0 : (push 0 (b 0)).toNat = (b 0).toNat := by
    rw [toNat_push _ (by decide)]
    exact Nat.zero_add _
  have e1 : (push (push 0 (b 0)) (b 1)).toNat = (b 0).toNat * 2 ^ 8 + (b 1).toNat := by
    rw [toNat_push _ (by omega), e0]
  have e2 : (push (push (push 0 (b 0)) (b 1)) (b 2)).toNat =
      ((b 0).toNat * 2 ^ 8 + (b 1).toNat) * 2 ^ 8 + (b 2).toNat := by
    rw [toNat_push _ (by omega), e1]
  rw [wordBE_push, toNat_push _ (by omega), e2]

/-- a word put together from its bytes in one expression -/
theorem wordBE_shifts (b : Fin 4 → UInt8) : (b 0).toUInt32 <<< 24 ||| (b 1).toUInt32 <<< 16 |||
    (b 2).toUInt32 <<< 8 ||| (b 3).toUInt32 = wordBE b := by
  have h16 : ∀ x : UInt32, x <<< 8 <<< 8 = x <<< 16 := fun x =>
    (UInt32.shiftLeft_add (by decide) (by decide) (by decide)).symm
  have h24 : ∀ x : UInt32, x <<< 8 <<< 16 = x <<< 24 := fun x =>
    (UInt32.shiftLeft_add (by decide) (by decide) (by decide)).symm
  rw [wordBE_push]
  unfold push
  rw [UInt32.zero_shiftLeft, UInt32.zero_or, UInt32.shiftLeft_or, UInt32.shiftLeft_or,
    UInt32.shiftLeft_or, h16, h16, h24]

theorem toNat_bytesBE (x : UInt32) (i : Fin 4) :
    (bytesBE x i).toNat = x.toNat / 2 ^ (8 * (3 - i.val)) % 256 := by
  have hbyte : ∀ k : UInt32, k.toNat < 32 →
      (x >>> k).toUInt8.toNat = x.toNat / 2 ^ k.toNat % 256 := by
    intro k hk
    rw [UInt32.toNat_toUInt8, UInt32.toNat_shiftRight, Nat.mod_eq_of_lt hk,
      Nat.shiftRight_eq_div_pow]
  match i with
  | 0 => exact hbyte 24 (by decide)
  | 1 => exact hbyte 16 (by decide)
  | 2 => exact hbyte 8 (by decide)
  | 3 =>
    change x.toUInt8.toNat = x.toNat / 1 % 256
    rw [UInt32.toNat_toUInt8, Nat.div_one]

theorem wordBE_bytesBE (x : UInt32) : wordBE (bytesBE x) = x := by
  have hx := x.toNat_lt
  rw [← UInt32.toNat_inj, toNat_wordBE, toNat_bytesBE, toNat_bytesBE, toNat_bytesBE, toNat_bytesBE]
  change ((x.toNat / 2 ^ 24 % 256 * 256 + x.toNat / 2 ^ 16 % 256) * 256 +
    x.toNat / 2 ^ 8 % 256) * 256 + x.toNat / 2 ^ 0 % 256 = x.toNat
  omega

theorem bytesBE_wordBE (b : Fin 4 → UInt8) : bytesBE (wordBE b) = b := by
  have h0 := (b 0).toNat_lt
  have h1 := (b 1).toNat_lt
  have h2 := (b 2).toNat_lt
  have h3 := (b 3).toNat_lt
  funext i
  rw [← UInt8.toNat_inj, toNat_bytesBE, toNat_wordBE]
  match i with
  | 0 => change _ / 2 ^ 24 % 256 = _; omega
  | 1 => change _ / 2 ^ 16 % 256 = _; omega
  | 2 => change _ / 2 ^ 8 % 256 = _; omega
  | 3 => change _ / 2 ^ 0 % 256 = _; omega

/-- the word with its bytes in the opposite order -/
def swap (x : UInt32) : UInt32 := wordBE fun i => bytesBE x i.rev

theorem bytesBE_swap (x : UInt32) (i : Fin 4) : bytesBE (swap x) i = bytesBE x i.rev :=
  congrFun (bytesBE_wordBE _) i

theorem swap_swap (x : UInt32) : swap (swap x) = x := by
  have hback : (fun i : Fin 4 => bytesBE (swap x) i.rev) = bytesBE x := by
    funext i
    rw [bytesBE_swap, Fin.rev_rev]
  unfold swap at hback ⊢
  rw [hback, wordBE_bytesBE]

def swapShort (x : UInt16) : UInt16 := UInt16.ofNat (x.toNat % 256 * 256 + x.toNat / 256)

theorem toNat_swapShort (x : UInt16) :
    (swapShort x).toNat = x.toNat % 256 * 256 + x.toNat / 256 := by
  have hx := x.toNat_lt
  exact UInt16.toNat_ofNat_of_lt' (by change _ < 2 ^ 16; omega)

theorem swapShort_swapShort (x : UInt16) : swapShort (swapShort x) = x := by
  have hx := x.toNat_lt
  rw [← UInt16.toNat_inj, toNat_swapShort, toNat_swapShort]
  omega

/-- Arrays are equal if they are equal block by block. -/
theorem blocks_ext {α : Type} {m n : ℕ} {a b : Vector α (m * n)}
    (hab : ∀ k j, a.get (Fin.mkDivMod k j) = b.get (Fin.mkDivMod k j)) : a = b := by
  refine Vector.ext fun i hi => ?_
  let p : Fin (m * n) := ⟨i, hi⟩
  have hp : a.get p = b.get p := by
    rw [← Fin.divNat_mkDivMod_modNat p]
    exact hab p.divNat p.modNat
  exact hp

end Word

/-! ## machines -/

/-- A machine: what lies in memory for a word, and the conversions between its own order and the
order of the network. -/
structure NetworkOrder where
  store : UInt32 → Fin 4 → UInt8
  load : (Fin 4 → UInt8) → UInt32
  htonl : UInt32 → UInt32
  ntohl : UInt32 → UInt32
  htons : UInt16 → UInt16
  ntohs : UInt16 → UInt16
  load_store : ∀ x, load (store x) = x
  store_htonl : ∀ x, store (htonl x) = Word.bytesBE x
  ntohl_htonl : ∀ x, ntohl (htonl x) = x
  ntohs_htons : ∀ x, ntohs (htons x) = x

namespace NetworkOrder
open Word

/-- Bytes that came from the network are read as the word they stand for. -/
theorem ntohl_load (net : NetworkOrder) (b : Fin 4 → UInt8) :
    net.ntohl (net.load b) = wordBE b := by
  have hload : net.load b = net.htonl (wordBE b) :=
    calc net.load b = net.load (net.store (net.htonl (wordBE b))) := by
          rw [net.store_htonl, bytesBE_wordBE]
      _ = net.htonl (wordBE b) := net.load_store _
  rw [hload, net.ntohl_htonl]

def bigEndian : NetworkOrder where
  store := bytesBE
  load := wordBE
  htonl x := x
  ntohl x := x
  htons x := x
  ntohs x := x
  load_store := wordBE_bytesBE
  store_htonl _ := rfl
  ntohl_htonl _ := rfl
  ntohs_htons _ := rfl

def littleEndian : NetworkOrder where
  store x i := bytesBE x i.rev
  load b := wordBE fun i => b i.rev
  htonl := swap
  ntohl := swap
  htons := swapShort
  ntohs := swapShort
  load_store x := by
    simp only [Fin.rev_rev]
    exact wordBE_bytesBE x
  store_htonl x := by
    funext i
    rw [bytesBE_swap, Fin.rev_rev]
  ntohl_htonl := swap_swap
  ntohs_htons := swapShort_swapShort

/-! ## arrays of words in memory -/

section
variable {n : ℕ} (net : NetworkOrder)

/-- the bytes of an array of words -/
def toBytes (w : Vector UInt32 n) : Vector UInt8 (n * 4) :=
  Vector.ofFn fun i => net.store (w.get i.divNat) i.modNat

/-- the array of words at these bytes -/
def toWords (b : Vector UInt8 (n * 4)) : Vector UInt32 n :=
  Vector.ofFn fun k => net.load fun j => b.get (Fin.mkDivMod k j)

theorem get_toBytes (w : Vector UInt32 n) (k : Fin n) (j : Fin 4) :
    (net.toBytes w).get (Fin.mkDivMod k j) = net.store (w.get k) j := by
  calc (net.toBytes w).get (Fin.mkDivMod k j)
      = net.store (w.get (Fin.mkDivMod k j).divNat) (Fin.mkDivMod k j).modNat :=
        Vector.getElem_ofFn _
    _ = net.store (w.get k) j := by rw [Fin.divNat_mkDivMod, Fin.modNat_mkDivMod]

theorem toWords_toBytes (w : Vector UInt32 n) : net.toWords (net.toBytes w) = w := by
  refine Vector.ext fun i hi => ?_
  calc (net.toWords (net.toBytes w))[i]
      = net.load fun j => (net.toBytes w).get (Fin.mkDivMod ⟨i, hi⟩ j) := Vector.getElem_ofFn _
    _ = w[i] := by
      rw [funext (net.get_toBytes w ⟨i, hi⟩), net.load_store]
      rfl

end
end NetworkOrder
