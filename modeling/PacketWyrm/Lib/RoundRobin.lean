import Mathlib.Data.List.Range
import Mathlib.Tactic.Common

/-!
# Round robin

A grant goes to the first of the requests from a pointer on, around a circle of `n`
places, and the pointer moves behind it.  A request that is not granted comes nearer to
the pointer, so it waits for at most as many grants as there are places before it.

## Main definitions

* `rrPick n rr req` — the first request from `rr` on.
* `rrDist n rr s` — how many places stand before `s`.

## Main results

* `rrPick_eq_some` — no request is nearer than the one that is granted.
* `rrDist_next` — the others come nearer.
-/

namespace PacketWyrm.Lib

/-- The first request from `rr` on. -/
def rrPick (n rr : ℕ) (req : ℕ → Bool) : Option ℕ :=
  ((List.range n).map fun k => (rr + k) % n).find? req

/-- How many places stand before `s`. -/
def rrDist (n rr s : ℕ) : ℕ := if rr ≤ s then s - rr else s + n - rr

section Pick

variable {n rr s t : ℕ} {req : ℕ → Bool}

theorem rrDist_lt (hs : s < n) : rrDist n rr s < n := by
  rw [rrDist]
  split_ifs <;> omega

/-- The place `k` places on. -/
theorem rrDist_add_mod (hrr : rr < n) {k : ℕ} (hk : k < n) : rrDist n rr ((rr + k) % n) = k := by
  rw [rrDist]
  by_cases hlt : rr + k < n
  · rw [Nat.mod_eq_of_lt hlt]
    split_ifs <;> omega
  · rw [Nat.mod_eq_sub_mod (by omega), Nat.mod_eq_of_lt (by omega)]
    split_ifs <;> omega

theorem add_rrDist_mod (hrr : rr < n) (hs : s < n) : (rr + rrDist n rr s) % n = s := by
  rw [rrDist]
  split_ifs with hle
  · rw [Nat.mod_eq_of_lt (by omega)]
    omega
  · rw [Nat.mod_eq_sub_mod (by omega), Nat.mod_eq_of_lt (by omega)]
    omega

/-- **No request is nearer than the one that is granted.** -/
theorem rrPick_eq_some (hrr : rr < n) (h : rrPick n rr req = some s) :
    s < n ∧ req s = true ∧ ∀ t < n, req t = true → rrDist n rr s ≤ rrDist n rr t := by
  rw [rrPick, List.find?_map, Option.map_eq_some_iff] at h
  obtain ⟨k, hk, rfl⟩ := h
  rw [List.find?_range_eq_some] at hk
  obtain ⟨hreq, hkn, hbefore⟩ := hk
  rw [List.mem_range] at hkn
  refine ⟨Nat.mod_lt _ (by omega), hreq, ?_⟩
  intro t ht hreqt
  rw [rrDist_add_mod hrr hkn]
  by_contra hlt
  have hnot := hbefore (rrDist n rr t) (by omega)
  simp only [Function.comp_apply, add_rrDist_mod hrr ht, hreqt] at hnot
  simp at hnot

theorem rrPick_eq_none (hrr : rr < n) (h : rrPick n rr req = none) (ht : t < n) :
    req t = false := by
  rw [rrPick, List.find?_eq_none] at h
  have hmem : t ∈ (List.range n).map fun k => (rr + k) % n := by
    rw [List.mem_map]
    exact ⟨rrDist n rr t, List.mem_range.mpr (rrDist_lt ht), add_rrDist_mod hrr ht⟩
  simpa using h t hmem

/-- **The requests that are not granted come nearer**: the pointer moves behind the grant. -/
theorem rrDist_next (hs : s < n) (ht : t < n) (hne : t ≠ s) (hrr : rr < n)
    (hle : rrDist n rr s ≤ rrDist n rr t) :
    rrDist n ((s + 1) % n) t + 1 ≤ rrDist n rr t := by
  by_cases hlast : s + 1 = n
  · rw [hlast, Nat.mod_self]
    simp only [rrDist] at hle ⊢
    split_ifs at hle ⊢ <;> omega
  · rw [Nat.mod_eq_of_lt (by omega)]
    simp only [rrDist] at hle ⊢
    split_ifs at hle ⊢ <;> omega

end Pick

end PacketWyrm.Lib
