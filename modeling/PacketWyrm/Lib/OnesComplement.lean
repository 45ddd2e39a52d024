import Mathlib.Algebra.GroupWithZero.Nat
import Mathlib.Data.Nat.Notation
import Mathlib.Tactic.Common
import Mathlib.Algebra.Group.Nat.Even
import Mathlib.Algebra.BigOperators.Group.List.Basic

/-!
# One's-complement sums

Sums of 16-bit words in which a carry out of the top is added back in at the bottom.  Such a
sum is the plain sum modulo 65535, where a sum that is not zero is never represented by zero.
So adders of any width that fold their carries at the end compute it, and words verify when
their plain sum is a positive multiple of 65535.

## Main definitions

* `onesAdd`, `onesSum` — end-around carry, one word at a time.
* `carry` — one fold of a wide sum, `onesRep` — what folding leaves.
* `netWord`, `netWords` — bytes as words in network order.

## Main results

* `toNat_onesSum` — the sum of words is the fold of their plain sum.
* `carry_carry` — two folds are enough.
* `onesSum_eq_iff`, `onesSum_of_complement` — which words verify.
-/

namespace PacketWyrm.Lib

/-! ## Folding -/

/-- The carries of a wide sum, added in once. -/
def carry (n : ℕ) : ℕ := n % 65536 + n / 65536

/-- What is left of a sum when all carries are added in. -/
def onesRep (n : ℕ) : ℕ := if n = 0 then 0 else (n - 1) % 65535 + 1

theorem onesRep_of_le {n : ℕ} (h : n ≤ 65535) : onesRep n = n := by
  rw [onesRep]
  split <;> omega

theorem onesRep_carry (n : ℕ) : onesRep (carry n) = onesRep n := by
  rw [onesRep, onesRep, carry]
  split <;> split <;> omega

theorem onesRep_add (m n : ℕ) : onesRep (onesRep m + n) = onesRep (m + n) := by
  simp only [onesRep]
  split <;> split <;> split <;> omega

/-- Two folds are enough for a sum of a thousand words. -/
theorem carry_carry {n : ℕ} (h : n < 2 ^ 26) : carry (carry n) = onesRep n := by
  rw [← onesRep_carry, ← onesRep_carry (carry n), onesRep_of_le]
  rw [carry, carry]
  omega

theorem onesRep_mod (n : ℕ) : onesRep n % 65535 = n % 65535 := by
  rw [onesRep]
  split <;> omega

theorem onesRep_le (n : ℕ) : onesRep n ≤ 65535 := by
  rw [onesRep]
  split <;> omega

theorem onesRep_eq_iff {n : ℕ} : onesRep n = 65535 ↔ n ≠ 0 ∧ n % 65535 = 0 := by
  rw [onesRep]
  split <;> omega

/-! ## Words -/

/-- Addition with the carry added back in. -/
def onesAdd (x y : BitVec 16) : BitVec 16 := BitVec.ofNat 16 (carry (x.toNat + y.toNat))

/-- The one's-complement sum of words. -/
def onesSum (l : List (BitVec 16)) : BitVec 16 := l.foldl onesAdd 0

/-- The plain sum of words. -/
def wordTotal (l : List (BitVec 16)) : ℕ := (l.map BitVec.toNat).sum

@[simp] theorem wordTotal_nil : wordTotal [] = 0 := rfl

@[simp] theorem wordTotal_cons (x : BitVec 16) (l : List (BitVec 16)) :
    wordTotal (x :: l) = x.toNat + wordTotal l := by
  rw [wordTotal, List.map_cons, List.sum_cons, wordTotal]

@[simp] theorem wordTotal_append (l l' : List (BitVec 16)) :
    wordTotal (l ++ l') = wordTotal l + wordTotal l' := by
  rw [wordTotal, List.map_append, List.sum_append, wordTotal, wordTotal]

theorem wordTotal_le (l : List (BitVec 16)) : wordTotal l ≤ l.length * 65535 := by
  induction l with
  | nil => exact Nat.zero_le _
  | cons x l ih =>
    have hx : x.toNat < 65536 := x.isLt
    rw [wordTotal_cons, List.length_cons, Nat.succ_mul]
    omega

theorem toNat_onesAdd (x y : BitVec 16) : (onesAdd x y).toNat = onesRep (x.toNat + y.toNat) := by
  have hx : x.toNat < 65536 := x.isLt
  have hy : y.toNat < 65536 := y.isLt
  have hcarry : carry (x.toNat + y.toNat) ≤ 65535 := by
    rw [carry]
    omega
  rw [onesAdd, BitVec.toNat_ofNat, ← onesRep_carry, onesRep_of_le hcarry]
  omega

/-- **The sum of words is the fold of their plain sum.** -/
theorem toNat_onesSum (l : List (BitVec 16)) : (onesSum l).toNat = onesRep (wordTotal l) := by
  have hfrom : ∀ s : BitVec 16, (l.foldl onesAdd s).toNat = onesRep (s.toNat + wordTotal l) := by
    induction l with
    | nil =>
      intro s
      have hs : s.toNat ≤ 65535 := by
        have : s.toNat < 65536 := s.isLt
        omega
      rw [List.foldl_nil, wordTotal_nil, Nat.add_zero, onesRep_of_le hs]
    | cons x l ih =>
      intro s
      rw [List.foldl_cons, ih, toNat_onesAdd, onesRep_add, wordTotal_cons, Nat.add_assoc]
  rw [onesSum, hfrom 0]
  simp

/-- **Words verify** when their plain sum is a positive multiple of 65535. -/
theorem onesSum_eq_iff {l : List (BitVec 16)} :
    onesSum l = 0xFFFF#16 ↔ wordTotal l ≠ 0 ∧ wordTotal l % 65535 = 0 := by
  rw [← onesRep_eq_iff, ← toNat_onesSum]
  exact ⟨fun h => by rw [h]; rfl, fun h => BitVec.eq_of_toNat_eq h⟩

/-- **A checksum verifies** when it is the complement of the sum of the other words. -/
theorem onesSum_of_complement {l : List (BitVec 16)} {rest c : ℕ} (hl : wordTotal l = rest + c)
    (hc : c = 65535 - onesRep rest) : onesSum l = 0xFFFF#16 := by
  rw [onesSum_eq_iff, hl, hc, onesRep]
  split <;> omega

/-! ## Bytes -/

/-- Two bytes as a word. -/
def netWord (a b : BitVec 8) : BitVec 16 := a ++ b

/-- The words of bytes in network order; a last single byte is padded with zero. -/
def netWords : List (BitVec 8) → List (BitVec 16)
  | [] => []
  | [b] => [netWord b 0#8]
  | a :: b :: l => netWord a b :: netWords l

theorem toNat_append_eq {n m : ℕ} (x : BitVec n) (y : BitVec m) :
    (x ++ y).toNat = x.toNat * 2 ^ m + y.toNat := by
  rw [BitVec.toNat_append, ← Nat.shiftLeft_add_eq_or_of_lt y.isLt, Nat.shiftLeft_eq]

theorem toNat_netWord (a b : BitVec 8) : (netWord a b).toNat = a.toNat * 256 + b.toNat :=
  toNat_append_eq a b

theorem netWords_append {l : List (BitVec 8)} (h : l.length % 2 = 0) (l' : List (BitVec 8)) :
    netWords (l ++ l') = netWords l ++ netWords l' := by
  induction l using netWords.induct with
  | case1 => rfl
  | case2 b => simp at h
  | case3 a b l ih =>
    rw [List.cons_append, List.cons_append, netWords, netWords, List.cons_append, ih]
    simp only [List.length_cons] at h
    omega

@[simp] theorem netWords_nil : netWords [] = [] := rfl

@[simp] theorem netWords_cons_cons (a b : BitVec 8) (l : List (BitVec 8)) :
    netWords (a :: b :: l) = netWord a b :: netWords l := rfl

/-- Zero bytes add nothing. -/
theorem wordTotal_netWords_zeros (n : ℕ) : wordTotal (netWords (List.replicate n 0#8)) = 0 := by
  have hall : ∀ l : List (BitVec 8), (∀ b ∈ l, b = 0#8) → wordTotal (netWords l) = 0 := by
    intro l
    induction l using netWords.induct with
    | case1 => simp
    | case2 b =>
      intro h
      rw [h b (by simp)]
      rfl
    | case3 a b l ih =>
      intro h
      rw [netWords_cons_cons, wordTotal_cons, h a (by simp), h b (by simp),
        ih fun c hc => h c (by simp [hc])]
      rfl
  exact hall _ fun b hb => (List.mem_replicate.mp hb).2

end PacketWyrm.Lib
