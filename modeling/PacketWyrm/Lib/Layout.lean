import Mathlib.Algebra.GroupWithZero.Nat
import Mathlib.Data.List.Basic
import Mathlib.Tactic.Common

/-!
# Runs of elements at positions of a memory

A memory, seen as a function of the position, holds a list from some position
on.  A record laid out in memory is a list of fields one after the other, and
what the memory holds can be read off field by field.

## Main definitions

* `Holds w o l` — the elements of `l` stand in `w` from position `o` on.
* `offset L i` — where field `i` of a record starts.

## Main results

* `holds_append` — two runs one after the other.
* `Holds.field` — each field of a record stands at its offset.
-/

namespace PacketWyrm.Lib

variable {α : Type*} {w w' : ℕ → α} {o : ℕ}

/-- The elements of `l` stand in `w` from position `o` on. -/
def Holds (w : ℕ → α) (o : ℕ) (l : List α) : Prop :=
  ∀ (i : ℕ) (h : i < l.length), w (o + i) = l.get ⟨i, h⟩

@[simp] theorem holds_nil : Holds w o [] := by
  intro i h
  simp at h

@[simp] theorem holds_cons {a : α} {l : List α} :
    Holds w o (a :: l) ↔ w o = a ∧ Holds w (o + 1) l := by
  constructor
  · intro h
    refine ⟨h 0 (by simp), ?_⟩
    intro i hi
    rw [Nat.add_assoc, Nat.add_comm 1]
    exact h (i + 1) (by simpa using hi)
  · intro h i hi
    cases i with
    | zero => exact h.1
    | succ i =>
      rw [← Nat.add_assoc, Nat.add_right_comm]
      exact h.2 i (by simpa using hi)

theorem holds_append {l m : List α} :
    Holds w o (l ++ m) ↔ Holds w o l ∧ Holds w (o + l.length) m := by
  induction l generalizing o with
  | nil => simp
  | cons a l ih =>
    rw [List.cons_append, holds_cons, holds_cons, ih, List.length_cons, and_assoc,
      Nat.add_assoc, Nat.add_comm 1]

/-- A list is held by its own elements. -/
theorem holds_getD (l : List α) (d : α) : Holds (fun i => l.getD i d) 0 l := by
  intro i hi
  simp [hi]

/-- Only the positions of the run matter. -/
theorem Holds.congr {l : List α} (h : Holds w o l)
    (hw : ∀ i, o ≤ i → i < o + l.length → w' i = w i) : Holds w' o l := by
  intro i hi
  rw [hw (o + i) (by omega) (by omega)]
  exact h i hi

/-- Where field `i` of a record starts. -/
def offset (L : List (List α)) (i : ℕ) : ℕ := ((L.take i).map List.length).sum

/-- **Each field of a record stands at its offset.** -/
theorem Holds.field {L : List (List α)} (h : Holds w o L.flatten) {i : ℕ} {l : List α}
    (hl : L[i]? = some l) : Holds w (o + offset L i) l := by
  induction L generalizing o i with
  | nil => simp at hl
  | cons m L ih =>
    rw [List.flatten_cons, holds_append] at h
    cases i with
    | zero =>
      obtain rfl : m = l := by simpa using hl
      exact h.1
    | succ i =>
      have hrest := ih h.2 (i := i) (by simpa using hl)
      simpa [offset, Nat.add_assoc] using hrest

end PacketWyrm.Lib
