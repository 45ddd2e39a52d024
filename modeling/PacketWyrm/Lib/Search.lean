import Mathlib.Data.List.Basic
import Mathlib.Data.List.Infix

/-!
# The first occurrence of a pattern

A text that arrives in parts is searched for a pattern after each part.  What was searched before
need not be searched again, but for an end that is one element shorter than the pattern: an
occurrence may have begun there.

## Main definitions

* `findAt pat l` — where the pattern occurs first.

## Main results

* `findAt_eq_some_iff`, `findAt_eq_none_iff` — the first occurrence, and no occurrence.
* `findAt_append_of_some` — an occurrence stays the first one when more arrives.
* `findAt_append_of_none` — only the end has to be searched again.
-/

namespace PacketWyrm.Lib

variable {α : Type}

/-- A prefix that ends before the text goes on. -/
theorem prefix_append_iff {pat l r : List α} {k : ℕ} (h : k + pat.length ≤ l.length) :
    pat <+: (l ++ r).drop k ↔ pat <+: l.drop k := by
  rw [List.drop_append_of_le_length (by omega)]
  constructor
  · intro hpat
    apply List.prefix_of_prefix_length_le hpat (List.prefix_append _ _)
    rw [List.length_drop]
    omega
  · intro hpat
    exact hpat.trans (List.prefix_append _ _)

variable [DecidableEq α]

/-- Where the pattern occurs first. -/
def findAt (pat : List α) : List α → Option ℕ
  | [] => if pat <+: [] then some 0 else none
  | b :: r => if pat <+: b :: r then some 0 else (findAt pat r).map (· + 1)

theorem findAt_eq_some_iff {pat l : List α} {k : ℕ} :
    findAt pat l = some k ↔ k ≤ l.length ∧ pat <+: l.drop k ∧ ∀ j < k, ¬pat <+: l.drop j := by
  induction l generalizing k with
  | nil =>
    rw [findAt]
    by_cases h : pat <+: []
    · rw [if_pos h]
      constructor
      · rintro ⟨⟩
        exact ⟨le_rfl, h, fun j hj => absurd hj (Nat.not_lt_zero j)⟩
      · rintro ⟨hk, -⟩
        rw [Nat.le_zero.mp hk]
    · rw [if_neg h]
      constructor
      · rintro ⟨⟩
      · rintro ⟨-, hpat, -⟩
        rw [List.drop_nil] at hpat
        exact absurd hpat h
  | cons b r ih =>
    rw [findAt]
    by_cases h : pat <+: b :: r
    · rw [if_pos h]
      constructor
      · rintro ⟨⟩
        exact ⟨Nat.zero_le _, h, fun j hj => absurd hj (Nat.not_lt_zero j)⟩
      · rintro ⟨-, -, hfirst⟩
        cases k with
        | zero => rfl
        | succ k => exact absurd h (hfirst 0 (Nat.succ_pos k))
    · rw [if_neg h, Option.map_eq_some_iff]
      constructor
      · rintro ⟨k', hk', rfl⟩
        obtain ⟨hle, hpat, hfirst⟩ := ih.mp hk'
        refine ⟨Nat.succ_le_succ hle, hpat, ?_⟩
        intro j hj
        cases j with
        | zero => exact h
        | succ j => exact hfirst j (Nat.lt_of_succ_lt_succ hj)
      · rintro ⟨hle, hpat, hfirst⟩
        cases k with
        | zero => exact absurd hpat h
        | succ k =>
          refine ⟨k, ih.mpr ⟨Nat.le_of_succ_le_succ hle, hpat, ?_⟩, rfl⟩
          intro j hj
          exact hfirst (j + 1) (Nat.succ_lt_succ hj)

theorem findAt_eq_none_iff {pat l : List α} : findAt pat l = none ↔ ∀ k, ¬pat <+: l.drop k := by
  induction l with
  | nil =>
    rw [findAt]
    simp
  | cons b r ih =>
    rw [findAt]
    by_cases h : pat <+: b :: r
    · rw [if_pos h]
      constructor
      · rintro ⟨⟩
      · intro hnone
        exact absurd h (hnone 0)
    · rw [if_neg h, Option.map_eq_none_iff, ih]
      constructor
      · intro hnone k
        cases k with
        | zero => exact h
        | succ k => exact hnone k
      · intro hnone k
        exact hnone (k + 1)

/-- **An occurrence stays the first one** when more arrives. -/
theorem findAt_append_of_some {pat l : List α} {k : ℕ} (h : findAt pat l = some k) (r : List α) :
    findAt pat (l ++ r) = some k := by
  obtain ⟨hle, hpat, hfirst⟩ := findAt_eq_some_iff.mp h
  have hlen : k + pat.length ≤ l.length := by
    have := hpat.length_le
    rw [List.length_drop] at this
    omega
  rw [findAt_eq_some_iff]
  refine ⟨?_, (prefix_append_iff hlen).mpr hpat, ?_⟩
  · rw [List.length_append]
    omega
  · intro j hj hpatj
    exact hfirst j hj ((prefix_append_iff (by omega)).mp hpatj)

/-- **Only the end has to be searched again**: where `l` has no occurrence, one in `l ++ r` begins
in the last elements of `l`, one fewer than the pattern has, or later. -/
theorem findAt_append_of_none {pat l : List α} (h : findAt pat l = none) (r : List α) {n : ℕ}
    (hn : n + pat.length ≤ l.length + 1) (hl : n ≤ l.length) :
    findAt pat (l ++ r) = (findAt pat ((l ++ r).drop n)).map (n + ·) := by
  rw [findAt_eq_none_iff] at h
  have hbefore : ∀ j < n, ¬pat <+: (l ++ r).drop j := by
    intro j hj hpat
    exact h j ((prefix_append_iff (by omega)).mp hpat)
  cases hf : findAt pat ((l ++ r).drop n) with
  | none =>
    rw [Option.map_none, findAt_eq_none_iff]
    rw [findAt_eq_none_iff] at hf
    intro k hpat
    by_cases hk : k < n
    · exact hbefore k hk hpat
    · apply hf (k - n)
      rw [List.drop_drop, Nat.add_sub_cancel' (not_lt.mp hk)]
      exact hpat
  | some k =>
    obtain ⟨hle, hpat, hfirst⟩ := findAt_eq_some_iff.mp hf
    rw [Option.map_some, findAt_eq_some_iff]
    rw [List.length_drop] at hle
    rw [List.drop_drop] at hpat
    refine ⟨?_, hpat, ?_⟩
    · rw [List.length_append] at hle ⊢
      omega
    · intro j hj
      by_cases hjn : j < n
      · exact hbefore j hjn
      · have hlater := hfirst (j - n) (by omega)
        rw [List.drop_drop, Nat.add_sub_cancel' (not_lt.mp hjn)] at hlater
        exact hlater

end PacketWyrm.Lib
