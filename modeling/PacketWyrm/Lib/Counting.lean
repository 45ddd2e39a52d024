import Mathlib.Algebra.BigOperators.Group.Finset.Basic
import Mathlib.Data.BitVec
import Mathlib.Data.List.Nodup
import Mathlib.Data.List.Range
import Mathlib.Tactic.Common

/-!
# Counting in lists

How many elements of a list have a property, as the properties change, and as the
elements are put into classes.

## Main results

* `countP_add_countP` — counts add up as their properties do.
* `sum_countP_class` — the counts of the classes add up.
* `sum_ofNat_range` — also in a counter of fixed width.
-/

namespace PacketWyrm.Lib

/-- A count changes as its elements do. -/
theorem countP_add_countP {α : Type*} {p q p' q' : α → Bool} {l : List α}
    (h : ∀ x ∈ l, (p x).toNat + (q x).toNat = (p' x).toNat + (q' x).toNat) :
    l.countP p + l.countP q = l.countP p' + l.countP q' := by
  induction l with
  | nil => rfl
  | cons x l ih =>
    have hx := h x List.mem_cons_self
    have hl := ih fun y hy => h y (List.mem_cons_of_mem _ hy)
    simp only [List.countP_cons]
    cases hp : p x <;> cases hq : q x <;> cases hp' : p' x <;> cases hq' : q' x <;>
      simp_all <;> omega

/-- At most one place is granted. -/
theorem countP_range_eq {n s : ℕ} (hs : s < n) (c : Bool) :
    (List.range n).countP (fun t => decide (t = s) && c) = c.toNat := by
  cases c with
  | false => simp
  | true =>
    have hcount : (List.range n).count s = 1 :=
      List.count_eq_one_of_mem List.nodup_range (List.mem_range.mpr hs)
    simp only [Bool.and_true, Bool.toNat_true]
    rw [← hcount, List.count]
    apply List.countP_congr
    intro t _
    simp

/-- The counts of the first `n` classes add up. -/
theorem sum_countP_class {α : Type*} (p : α → Bool) (g : α → ℕ) (l : List α) (n : ℕ) :
    ∑ b ∈ Finset.range n, l.countP (fun x => p x && decide (g x = b)) =
      l.countP fun x => p x && decide (g x < n) := by
  induction n with
  | zero => simp
  | succ n ih =>
    have hsplit : l.countP (fun x => p x && decide (g x < n)) +
        l.countP (fun x => p x && decide (g x = n)) =
          l.countP (fun x => p x && decide (g x < n + 1)) + l.countP fun _ => false := by
      apply countP_add_countP
      intro x _
      by_cases hlt : g x < n
      · simp [hlt, hlt.ne, Nat.lt_succ_of_lt hlt]
      · by_cases heq : g x = n
        · simp [heq]
        · have hgt : ¬ g x < n + 1 := by omega
          simp [hlt, heq, hgt]
    have hnone : l.countP (fun _ => false) = 0 := by simp
    rw [Finset.sum_range_succ, ih, hsplit, hnone, Nat.add_zero]

/-- Counters of fixed width add up to the sum in that width. -/
theorem sum_ofNat_range (w : ℕ) (c : ℕ → ℕ) (n : ℕ) :
    ((List.range n).map fun b => BitVec.ofNat w (c b)).sum =
      BitVec.ofNat w (∑ b ∈ Finset.range n, c b) := by
  induction n with
  | zero => simp
  | succ n ih =>
    rw [List.range_succ, List.map_append, List.sum_append, ih, Finset.sum_range_succ,
      BitVec.ofNat_add]
    simp

end PacketWyrm.Lib
