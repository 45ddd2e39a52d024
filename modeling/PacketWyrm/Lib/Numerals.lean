import Mathlib.Algebra.GroupWithZero.Nat
import Mathlib.Data.Nat.Log
import Mathlib.Tactic.Common

/-!
# Numbers as texts

The text of a number in a base up to sixteen, as `%u`, `%x` and their padded forms print it, and the
integers that a binary floating-point number can hold: how an integer is rounded to a significand of
53 bits, and which decimal a shortest printer gives for the result.

## Main definitions

* `digit`, `numeral` — the text of a number; `padded` — with zeros in front.
* `roundDouble` — the double nearest to an integer.
* `shortest` — the integer that is printed for a double.

## Main results

* `numeral_induction` — a numeral, digit by digit.
* `shortest_roundDouble` — below `2 ^ 53`, an integer is printed as it is.
-/

namespace PacketWyrm.Lib

/-! ## Digits -/

/-- The character of a digit, lower case. -/
def digit (d : ℕ) : BitVec 8 := BitVec.ofNat 8 (Nat.digitChar d).toNat

/-- The text of a number. -/
def numeral (b n : ℕ) : List (BitVec 8) :=
  (Nat.toDigits b n).map fun c => BitVec.ofNat 8 c.toNat

/-- The text of a number, with zeros in front up to `w` characters. -/
def padded (w b n : ℕ) : List (BitVec 8) :=
  List.replicate (w - (numeral b n).length) 0x30 ++ numeral b n

variable {b : ℕ}

theorem numeral_of_lt {n : ℕ} (h : n < b) : numeral b n = [digit n] := by
  rw [numeral, Nat.toDigits_of_lt_base h]
  rfl

theorem numeral_of_le (hb : 1 < b) {n : ℕ} (h : b ≤ n) :
    numeral b n = numeral b (n / b) ++ [digit (n % b)] := by
  rw [numeral, Nat.toDigits_of_base_le hb h, List.map_append]
  rfl

/-- **A numeral, digit by digit**: the last digit is the remainder, the ones before it are the
numeral of the quotient. -/
theorem numeral_induction (hb : 1 < b) {P : ℕ → List (BitVec 8) → Prop}
    (one : ∀ d < b, P d [digit d])
    (snoc : ∀ n d, 0 < n → d < b → P n (numeral b n) → P (n * b + d) (numeral b n ++ [digit d]))
    (n : ℕ) : P n (numeral b n) := by
  induction n using Nat.strong_induction_on with
  | _ n ih =>
    by_cases hn : n < b
    · rw [numeral_of_lt hn]
      exact one n hn
    · have hle : b ≤ n := Nat.not_lt.mp hn
      have hpos : 0 < n / b := Nat.div_pos hle (by omega)
      have hlast := snoc (n / b) (n % b) hpos (Nat.mod_lt n (by omega))
        (ih (n / b) (Nat.div_lt_self (by omega) hb))
      rw [Nat.div_add_mod'] at hlast
      rw [numeral_of_le hb hle]
      exact hlast

/-- A numeral is made of digits. -/
theorem exists_digit_of_mem (hb : 1 < b) {n : ℕ} {c : BitVec 8} (h : c ∈ numeral b n) :
    ∃ d < b, c = digit d := by
  refine numeral_induction hb (P := fun _ l => c ∈ l → ∃ d < b, c = digit d) ?_ ?_ n h
  · intro d hd hc
    exact ⟨d, hd, List.mem_singleton.mp hc⟩
  · intro n d _ hd ih hc
    rcases List.mem_append.mp hc with hc | hc
    · exact ih hc
    · exact ⟨d, hd, List.mem_singleton.mp hc⟩

theorem numeral_ne_nil (hb : 1 < b) (n : ℕ) : numeral b n ≠ [] :=
  numeral_induction hb (P := fun _ l => l ≠ []) (fun _ _ => List.cons_ne_nil _ _)
    (fun _ _ _ _ _ => List.concat_ne_nil _ _) n

theorem exists_digit_of_mem_padded (hb : 1 < b) {w n : ℕ} {c : BitVec 8} (h : c ∈ padded w b n) :
    ∃ d < b, c = digit d := by
  rcases List.mem_append.mp h with h | h
  · exact ⟨0, by omega, List.eq_of_mem_replicate h⟩
  · exact exists_digit_of_mem hb h

/-- A number below a power of the base has at most so many digits. -/
theorem length_numeral_le (hb : 1 < b) {n k : ℕ} (hk : 0 < k) (h : n < b ^ k) :
    (numeral b n).length ≤ k := by
  rw [numeral, List.length_map]
  exact (Nat.length_toDigits_le_iff hb hk).mpr h

theorem length_padded_le (hb : 1 < b) {w n k : ℕ} (hk : 0 < k) (hw : w ≤ k) (h : n < b ^ k) :
    (padded w b n).length ≤ k := by
  have := length_numeral_le hb hk h
  rw [padded, List.length_append, List.length_replicate]
  omega

/-! ## Integers as doubles -/

/-- An integer rounded to 53 binary digits, to the nearest one and to the even one of two. -/
def roundDouble (n : ℕ) : ℕ :=
  let ulp := 2 ^ (n.log2 + 1 - 53)
  let q := n / ulp
  let r := n % ulp
  if 2 * r < ulp ∨ (2 * r = ulp ∧ q % 2 = 0) then q * ulp else (q + 1) * ulp

/-- The shortest decimal that is read as the double `x`: with zeros from the place `e` on, `e` as
high as possible, and of two such the one closer to `x`, or the even one. -/
def shortest (x : ℕ) : ℕ → ℕ
  | 0 => x
  | e + 1 =>
    let unit := 10 ^ (e + 1)
    let lo := x / unit * unit
    let hi := lo + unit
    if 0 < lo ∧ roundDouble lo = x then
      if roundDouble hi = x ∧ (hi - x < x - lo ∨ (hi - x = x - lo ∧ x / unit % 2 = 1)) then hi
      else lo
    else if roundDouble hi = x then hi
    else shortest x e

/-- Integers of 53 binary digits are doubles. -/
theorem roundDouble_of_lt {n : ℕ} (h : n < 2 ^ 53) : roundDouble n = n := by
  have hlog : n.log2 + 1 - 53 = 0 := by
    by_cases hn : n = 0
    · rw [hn]
      rfl
    · have := (Nat.log2_lt hn).mpr h
      omega
  rw [roundDouble, hlog]
  simp [Nat.mod_one]

/-- The others are not rounded below. -/
theorem le_roundDouble {n : ℕ} (h : 2 ^ 53 ≤ n) : 2 ^ 53 ≤ roundDouble n := by
  have hn : n ≠ 0 := by
    have := Nat.two_pow_pos 53
    omega
  have hlog : 53 ≤ n.log2 := (Nat.le_log2 hn).mpr h
  have hpow : 2 ^ n.log2 = 2 ^ 52 * 2 ^ (n.log2 + 1 - 53) := by
    rw [← Nat.pow_add]
    congr 1
    omega
  have hq : 2 ^ 52 ≤ n / 2 ^ (n.log2 + 1 - 53) := by
    rw [Nat.le_div_iff_mul_le (Nat.two_pow_pos _), ← hpow]
    exact Nat.log2_self_le hn
  have hfull : 2 ^ 53 ≤ 2 ^ 52 * 2 ^ (n.log2 + 1 - 53) := by
    rw [← hpow]
    exact Nat.pow_le_pow_right (by decide) hlog
  have hmul : 2 ^ 52 * 2 ^ (n.log2 + 1 - 53) ≤
      n / 2 ^ (n.log2 + 1 - 53) * 2 ^ (n.log2 + 1 - 53) := Nat.mul_le_mul_right _ hq
  rw [roundDouble]
  split_ifs
  · omega
  · rw [Nat.add_mul]
    omega

/-- Only the integer itself is read as a small double. -/
theorem eq_of_roundDouble_eq {n x : ℕ} (hx : x < 2 ^ 53) (h : roundDouble n = x) : n = x := by
  by_cases hn : n < 2 ^ 53
  · rw [← h, roundDouble_of_lt hn]
  · have := le_roundDouble (Nat.not_lt.mp hn)
    omega

theorem shortest_of_lt {x : ℕ} (h : x < 2 ^ 53) (e : ℕ) : shortest x e = x := by
  induction e with
  | zero => rfl
  | succ e ih =>
    rw [shortest]
    split_ifs with hlo hhi hhi
    · exact eq_of_roundDouble_eq h hhi.1
    · exact eq_of_roundDouble_eq h hlo.2
    · exact eq_of_roundDouble_eq h hhi
    · exact ih

/-- **Small integers are printed as they are.** -/
theorem shortest_roundDouble {n : ℕ} (h : n < 2 ^ 53) (e : ℕ) : shortest (roundDouble n) e = n := by
  rw [roundDouble_of_lt h, shortest_of_lt h]

example : shortest (roundDouble (2 ^ 53 + 1)) 20 = 2 ^ 53 := by decide +kernel

example : shortest (roundDouble (2 ^ 63)) 20 = 9223372036854776000 := by decide +kernel

end PacketWyrm.Lib
