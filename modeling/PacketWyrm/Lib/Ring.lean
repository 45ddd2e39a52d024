import Mathlib.Data.List.Basic
import Mathlib.Data.Nat.ModEq
import Mathlib.Tactic.Common

/-!
# Ring buffers

A memory of `2 ^ aw` words that is used as a ring, with pointers that have one
bit more than an address, so that a full ring differs from an empty one.  What
stands in the ring from a pointer on is a list.

## Main definitions

* `ringSlot p k` — the address `k` places after the pointer `p`.
* `RingAt mem p l` — the list `l` stands in the ring from `p` on.

## Main results

* `RingAt.push` — writing behind the list appends to it, while there is room.
* `RingAt.head`, `RingAt.tail` — reading at the pointer and moving it.
-/

namespace PacketWyrm.Lib

variable {aw : ℕ} {α : Type}

/-- The address `k` places after a pointer. -/
def ringSlot (p : BitVec (aw + 1)) (k : ℕ) : BitVec aw := BitVec.ofNat aw (p.toNat + k)

/-- The pointer `k` places on has that address in its low bits. -/
theorem setWidth_advance (p : BitVec (aw + 1)) (k : ℕ) :
    (p + BitVec.ofNat (aw + 1) k).setWidth aw = ringSlot p k := by
  apply BitVec.eq_of_toNat_eq
  have hdvd : 2 ^ aw ∣ 2 ^ (aw + 1) := ⟨2, Nat.pow_succ 2 aw⟩
  rw [ringSlot, BitVec.toNat_setWidth, BitVec.toNat_add, BitVec.toNat_ofNat, BitVec.toNat_ofNat,
    Nat.mod_mod_of_dvd _ hdvd, Nat.add_mod, Nat.mod_mod_of_dvd _ hdvd, ← Nat.add_mod]

theorem setWidth_eq_ringSlot (p : BitVec (aw + 1)) : p.setWidth aw = ringSlot p 0 := by
  rw [← setWidth_advance]
  simp

/-- Places less than a round apart have different addresses. -/
theorem ringSlot_ne {p : BitVec (aw + 1)} {i j : ℕ} (hij : i < j) (hj : j < 2 ^ aw) :
    ringSlot p i ≠ ringSlot p j := by
  intro h
  have hnat := congrArg BitVec.toNat h
  rw [ringSlot, ringSlot, BitVec.toNat_ofNat, BitVec.toNat_ofNat] at hnat
  have hmod : Nat.ModEq (2 ^ aw) i j := Nat.ModEq.add_left_cancel' p.toNat hnat
  rw [Nat.ModEq, Nat.mod_eq_of_lt (hij.trans hj), Nat.mod_eq_of_lt hj] at hmod
  omega

/-- The next pointer is one place on. -/
theorem ringSlot_succ (p : BitVec (aw + 1)) (k : ℕ) : ringSlot (p + 1) k = ringSlot p (k + 1) := by
  rw [← setWidth_advance, ← setWidth_advance, BitVec.add_assoc, Nat.add_comm k, BitVec.ofNat_add]
  rfl

/-- A pointer that moves on is nearer to what is behind it. -/
theorem advance_succ (p : BitVec (aw + 1)) (k : ℕ) :
    p + BitVec.ofNat (aw + 1) (k + 1) = p + 1 + BitVec.ofNat (aw + 1) k := by
  rw [Nat.add_comm k, BitVec.ofNat_add, ← BitVec.add_assoc]
  rfl

/-- A place further on is one more place from the pointer. -/
theorem succ_advance (p : BitVec (aw + 1)) (k : ℕ) :
    p + BitVec.ofNat (aw + 1) k + 1 = p + BitVec.ofNat (aw + 1) (k + 1) := by
  rw [BitVec.ofNat_add, BitVec.add_assoc]
  rfl

/-- The list `l` stands in the ring from the pointer `p` on. -/
def RingAt (mem : BitVec aw → α) (p : BitVec (aw + 1)) (l : List α) : Prop :=
  ∀ k x, l[k]? = some x → mem (ringSlot p k) = x

namespace RingAt

variable {mem : BitVec aw → α} {p : BitVec (aw + 1)} {l m : List α} {x : α}

theorem nil : RingAt mem p [] := by simp [RingAt]

/-- A part of the list from its beginning stands there too. -/
theorem of_append (h : RingAt mem p (l ++ m)) : RingAt mem p l := by
  intro k x hk
  apply h
  rw [List.getElem?_append_left (List.getElem?_eq_some_iff.mp hk).1]
  exact hk

/-- What is read at the pointer is the first element. -/
theorem head (h : RingAt mem p (x :: l)) : mem (p.setWidth aw) = x := by
  rw [setWidth_eq_ringSlot]
  exact h 0 x rfl

/-- Behind the next pointer stands the rest. -/
theorem tail (h : RingAt mem p (x :: l)) : RingAt mem (p + 1) l := by
  intro k y hk
  rw [ringSlot_succ]
  exact h (k + 1) y hk

/-- **Writing behind the list appends to it**, while there is room. -/
theorem push (h : RingAt mem p l) (hroom : l.length < 2 ^ aw) (x : α) :
    RingAt (Function.update mem (ringSlot p l.length) x) p (l ++ [x]) := by
  intro k y hk
  by_cases hlt : k < l.length
  · rw [List.getElem?_append_left hlt] at hk
    rw [Function.update_of_ne (ringSlot_ne hlt hroom)]
    exact h k y hk
  · rw [List.getElem?_append_right (by omega), List.getElem?_singleton] at hk
    split at hk
    · have hkl : k = l.length := by omega
      rw [hkl, Function.update_self]
      exact Option.some.inj hk
    · cases hk

end RingAt

/-! ## Distances -/

section Distance

variable {k : ℕ} (h : k ≤ 2 ^ aw)

include h

theorem toNat_ofNat_ring : (BitVec.ofNat (aw + 1) k).toNat = k := by
  rw [BitVec.toNat_ofNat, Nat.pow_succ, Nat.mod_eq_of_lt]
  have := Nat.two_pow_pos aw
  omega

/-- A pointer is where it was only when it did not move. -/
theorem eq_advance_iff (p : BitVec (aw + 1)) : p = p + BitVec.ofNat (aw + 1) k ↔ k = 0 := by
  constructor
  · intro hp
    have hz : BitVec.ofNat (aw + 1) k = 0 := by
      have hsub := congrArg (fun q => q - p) hp
      simp only [BitVec.sub_self, BitVec.add_comm p, BitVec.add_sub_cancel] at hsub
      exact hsub.symm
    rw [← toNat_ofNat_ring h, hz]
    rfl
  · intro hk
    simp [hk]

/-- The ring is full when the pointers are a round apart. -/
theorem advance_sub_eq_depth_iff (p : BitVec (aw + 1)) :
    p + BitVec.ofNat (aw + 1) k - p = BitVec.ofNat (aw + 1) (2 ^ aw) ↔ k = 2 ^ aw := by
  have hsub : p + BitVec.ofNat (aw + 1) k - p = BitVec.ofNat (aw + 1) k := by
    rw [BitVec.add_comm p, BitVec.add_sub_cancel]
  rw [hsub]
  constructor
  · intro heq
    have hnat := congrArg BitVec.toNat heq
    rw [toNat_ofNat_ring h, toNat_ofNat_ring (Nat.le_refl _)] at hnat
    exact hnat
  · intro hk
    rw [hk]

end Distance

end PacketWyrm.Lib
