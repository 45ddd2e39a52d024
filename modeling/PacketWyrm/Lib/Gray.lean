import Mathlib.Data.BitVec
import Mathlib.Tactic.Common

/-!
# Gray codes

The code of a count that changes in one bit at each step.  A register that is sampled while it
changes may show each bit as it was or as it will be; of a Gray coded counter that is still the
code of the count before or of the one after.

## Main definitions

* `gray x` — the binary-reflected code.
* `mix m x y` — the bits of `y` where `m` has ones, and of `x` elsewhere.

## Main results

* `exists_gray_succ` — the next code differs in one bit.
* `mix_gray_succ` — a sample in between is one of the two.
-/

namespace PacketWyrm.Lib

variable {w : ℕ}

/-- The binary-reflected Gray code. -/
def gray (x : BitVec w) : BitVec w := x ^^^ (x >>> 1)

/-- A sample whose bit is the new one where `m` says so. -/
def mix (m x y : BitVec w) : BitVec w := (x &&& ~~~m) ||| (y &&& m)

theorem getLsbD_gray (x : BitVec w) (i : ℕ) :
    (gray x).getLsbD i = (x.getLsbD i ^^ x.getLsbD (i + 1)) := by
  rw [gray, BitVec.getLsbD_xor, BitVec.getLsbD_ushiftRight, Nat.add_comm]

theorem getLsbD_mix (m x y : BitVec w) {i : ℕ} (hi : i < w) :
    (mix m x y).getLsbD i = if m.getLsbD i then y.getLsbD i else x.getLsbD i := by
  rw [mix, BitVec.getLsbD_or, BitVec.getLsbD_and, BitVec.getLsbD_and, BitVec.getLsbD_not]
  cases m.getLsbD i <;> simp [hi]

@[simp] theorem mix_self (m x : BitVec w) : mix m x x = x := by
  apply BitVec.eq_of_getLsbD_eq
  intro i hi
  rw [getLsbD_mix m x x hi, ite_self]

/-- **A count flips a run of its low bits**: those up to the lowest zero. -/
theorem exists_flip_run (hw : 0 < w) (x : BitVec w) :
    ∃ p < w, ∀ i < w, (x + 1).getLsbD i = (x.getLsbD i ^^ decide (i ≤ p)) := by
  have hbit : ∀ i < w, (x + 1).getLsbD i = (x.getLsbD i ^^ decide (∀ j < i, x.getLsbD j)) := by
    intro i hi
    rw [show (1 : BitVec w) = 1#w from rfl, BitVec.getLsbD_add hi]
    cases i with
    | zero => simp [hw]
    | succ i => simp [BitVec.carry_succ_one i x hw, Nat.lt_succ_iff]
  refine ⟨Nat.findGreatest (fun i => ∀ j < i, x.getLsbD j) (w - 1), ?_, ?_⟩
  · have hle := Nat.findGreatest_le (P := fun i => ∀ j < i, x.getLsbD j) (w - 1)
    omega
  · intro i hi
    rw [hbit i hi]
    congr 2
    apply propext
    constructor
    · intro h
      exact Nat.le_findGreatest (show i ≤ w - 1 by omega) h
    · intro hle j hj
      have hrun := Nat.findGreatest_spec (P := fun i => ∀ j < i, x.getLsbD j) (Nat.zero_le (w - 1))
        fun j hj => absurd hj (Nat.not_lt_zero j)
      exact hrun j (hj.trans_le hle)

/-- **The next code differs in one bit**: the last one of the run that the count flips. -/
theorem exists_gray_succ (hw : 0 < w) (x : BitVec w) :
    ∃ p < w, ∀ i < w, (gray (x + 1)).getLsbD i = ((gray x).getLsbD i ^^ decide (i = p)) := by
  obtain ⟨p, hp, hflip⟩ := exists_flip_run hw x
  refine ⟨p, hp, ?_⟩
  intro i hi
  rw [getLsbD_gray, getLsbD_gray, hflip i hi]
  have hend : (decide (i ≤ p) ^^ decide (i + 1 ≤ p)) = decide (i = p) := by
    rcases Nat.lt_trichotomy i p with hlt | heq | hgt
    · simp [show i ≤ p by omega, show i + 1 ≤ p by omega, hlt.ne]
    · simp [heq]
    · simp [show ¬ i ≤ p by omega, show ¬ i + 1 ≤ p by omega, hgt.ne']
  rw [← hend]
  by_cases hlast : i + 1 < w
  · rw [hflip (i + 1) hlast]
    rw [Bool.xor_assoc, Bool.xor_assoc, Bool.xor_left_comm (decide (i ≤ p))]
  · rw [BitVec.getLsbD_of_ge (x + 1) (i + 1) (by omega), BitVec.getLsbD_of_ge x (i + 1) (by omega),
      decide_eq_false (show ¬ i + 1 ≤ p by omega)]
    simp

/-- **A sample while the counter steps shows the count before or the one after.** -/
theorem mix_gray_succ (m x : BitVec w) :
    mix m (gray x) (gray (x + 1)) = gray x ∨ mix m (gray x) (gray (x + 1)) = gray (x + 1) := by
  cases Nat.eq_zero_or_pos w with
  | inl hw =>
    subst hw
    exact .inl (Subsingleton.elim _ _)
  | inr hw =>
    obtain ⟨p, -, hone⟩ := exists_gray_succ hw x
    -- the bits but `p` are the same in both, so `p` decides
    cases hm : m.getLsbD p with
    | false =>
      left
      apply BitVec.eq_of_getLsbD_eq
      intro i hi
      rw [getLsbD_mix m _ _ hi, hone i hi]
      by_cases hip : i = p
      · simp [hip, hm]
      · simp [hip]
    | true =>
      right
      apply BitVec.eq_of_getLsbD_eq
      intro i hi
      rw [getLsbD_mix m _ _ hi, hone i hi]
      by_cases hip : i = p
      · simp [hip, hm]
      · simp [hip]

end PacketWyrm.Lib
