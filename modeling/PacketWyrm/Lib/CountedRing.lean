import Mathlib.Data.List.Basic
import Mathlib.Data.Nat.ModEq
import Mathlib.Tactic.Common
import Mathlib.Algebra.GroupWithZero.Nat

/-!
# Rings with a count

A ring of `n` slots with the place of the next write, the place of the next read and the number of
slots in use.  What is in use is a list: a push appends to it and a pop takes its head.

## Main results

* `CountedRing.Holds.push`, `CountedRing.Holds.pop` — the operations on the list.
* `CountedRing.push_full`, `CountedRing.pop_nil` — when there is none.
-/

namespace PacketWyrm.Lib

variable {α : Type} {n : ℕ}

/-- A ring of `n` slots; those not in use hold anything. -/
structure CountedRing (α : Type) (n : ℕ) where
  slots : ℕ → α
  head : ℕ
  tail : ℕ
  count : ℕ

namespace CountedRing

/-- An empty ring. -/
def empty (x : α) : CountedRing α n := ⟨fun _ => x, 0, 0, 0⟩

/-- Write at the head, unless the ring is full. -/
def push (r : CountedRing α n) (x : α) : Option (CountedRing α n) :=
  if r.count < n then
    some {
      slots := Function.update r.slots r.head x
      head := (r.head + 1) % n
      tail := r.tail
      count := r.count + 1 }
  else none

/-- Read at the tail, unless the ring is empty. -/
def pop (r : CountedRing α n) : Option (α × CountedRing α n) :=
  if 0 < r.count then
    some (r.slots r.tail, { r with tail := (r.tail + 1) % n, count := r.count - 1 })
  else none

/-- The list is what is in use, the oldest first. -/
structure Holds (r : CountedRing α n) (l : List α) : Prop where
  count : r.count = l.length
  le : l.length ≤ n
  head : r.head = (r.tail + l.length) % n
  slots : ∀ i (hi : i < l.length), r.slots ((r.tail + i) % n) = l[i]
  tail : r.tail % n = r.tail

theorem holds_empty (x : α) (n : ℕ) : (empty x : CountedRing α n).Holds [] where
  count := rfl
  le := Nat.zero_le n
  head := (Nat.zero_mod n).symm
  slots i hi := absurd hi (Nat.not_lt_zero i)
  tail := Nat.zero_mod n

variable {r : CountedRing α n} {l : List α}

/-- Places less than a round apart are different. -/
theorem slot_ne {t i j : ℕ} (hij : i < j) (hj : j < n) : (t + i) % n ≠ (t + j) % n := by
  intro h
  have hmod : i ≡ j [MOD n] := Nat.ModEq.add_left_cancel' t h
  rw [Nat.ModEq, Nat.mod_eq_of_lt (hij.trans hj), Nat.mod_eq_of_lt hj] at hmod
  omega

/-- **A push appends**, while there is room. -/
theorem Holds.push (h : r.Holds l) (hroom : l.length < n) (x : α) :
    ∃ r', r.push x = some r' ∧ r'.Holds (l ++ [x]) := by
  refine ⟨_, if_pos (h.count ▸ hroom), ?_, ?_, ?_, ?_, h.tail⟩
  · rw [List.length_append, List.length_singleton, h.count]
  · rw [List.length_append, List.length_singleton]
    exact hroom
  · rw [List.length_append, List.length_singleton, ← Nat.add_assoc, h.head, Nat.mod_add_mod]
  · intro i hi
    rw [List.length_append, List.length_singleton] at hi
    dsimp only
    rcases Nat.lt_succ_iff_lt_or_eq.mp hi with hlt | rfl
    · rw [Function.update_of_ne (h.head ▸ slot_ne hlt hroom), List.getElem_append_left hlt]
      exact h.slots i hlt
    · rw [← h.head, Function.update_self, List.getElem_append_right le_rfl]
      simp

/-- **A pop takes the oldest.** -/
theorem Holds.pop {x : α} (h : r.Holds (x :: l)) : ∃ r', r.pop = some (x, r') ∧ r'.Holds l := by
  have hpos : 0 < r.count := by
    rw [h.count]
    exact Nat.succ_pos _
  have hfirst : r.slots r.tail = x := by
    have hslot := h.slots 0 (Nat.succ_pos _)
    rwa [Nat.add_zero, h.tail] at hslot
  refine ⟨{ r with tail := (r.tail + 1) % n, count := r.count - 1 }, ?_, ?_, ?_, ?_, ?_, ?_⟩
  · rw [CountedRing.pop, if_pos hpos, hfirst]
  · dsimp only
    rw [h.count, List.length_cons, Nat.add_sub_cancel]
  · exact (Nat.le_succ _).trans h.le
  · dsimp only
    rw [h.head, List.length_cons, Nat.mod_add_mod, Nat.add_assoc, Nat.add_comm 1]
  · intro i hi
    have hslot := h.slots (i + 1) (Nat.succ_lt_succ hi)
    dsimp only
    rw [Nat.mod_add_mod, Nat.add_assoc, Nat.add_comm 1]
    exact hslot
  · exact Nat.mod_mod _ _

theorem push_full (h : r.Holds l) (hfull : ¬l.length < n) (x : α) : r.push x = none :=
  if_neg (h.count ▸ hfull)

theorem pop_nil (h : r.Holds []) : r.pop = none :=
  if_neg (h.count ▸ Nat.lt_irrefl 0)

end CountedRing

end PacketWyrm.Lib
