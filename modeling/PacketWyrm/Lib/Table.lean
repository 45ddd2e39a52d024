import Mathlib.Algebra.GroupWithZero.Nat
import Mathlib.Logic.Function.Basic
import Mathlib.Data.List.Nodup
import Mathlib.Data.List.OfFn
import Mathlib.Tactic.Common

/-!
# Tables written entry by entry

A table is a function from indices to rows.  Writing a list of entries is a
fold of single updates; when the entries have distinct indices, reading an
index back gives the one entry written there.  A machine that holds several
tables is written by a loop of its own: such a loop is cut down to the table it
writes, and there it is a list of entries.

## Main results

* `foldl_component`, `foldl_view` — a loop cut down to a part of the state.
* `writeAll_of_mem`, `writeAll_zipIdx` — what is read back.
* `writeAll_rel` — two tables that receive the same entries stay related.
-/

namespace PacketWyrm.Lib

variable {ι ν α σ τ : Type}

/-! ## Loops on a part of the state -/

/-- **A loop on one component.**  When every step of a loop acts on the
component `get` alone, as `g` does, so does the whole loop. -/
theorem foldl_component (get : σ → τ) (set : σ → τ → σ) {f : σ → α → σ} {g : τ → α → τ}
    {l : List α} (hget : ∀ s t, get (set s t) = t) (hset : ∀ s t u, set (set s t) u = set s u)
    (hself : ∀ s, set s (get s) = s) (hstep : ∀ a ∈ l, ∀ s, f s a = set s (g (get s) a)) (s : σ) :
    l.foldl f s = set s (l.foldl g (get s)) := by
  induction l generalizing s with
  | nil => exact (hself s).symm
  | cons a as ih =>
    have htail : ∀ b ∈ as, ∀ s, f s b = set s (g (get s) b) := by
      intro b hb
      exact hstep b (List.mem_cons_of_mem _ hb)
    rw [List.foldl_cons, List.foldl_cons, ih htail, hstep a List.mem_cons_self, hget, hset]

/-- **A loop seen through a function.**  When every step of a loop looks like
`g` through `view`, so does the whole loop. -/
theorem foldl_view (view : σ → τ) {f : σ → α → σ} {g : τ → α → τ} {l : List α}
    (hstep : ∀ a ∈ l, ∀ s, view (f s a) = g (view s) a) (s : σ) :
    view (l.foldl f s) = l.foldl g (view s) := by
  induction l generalizing s with
  | nil => rfl
  | cons a as ih =>
    have htail : ∀ b ∈ as, ∀ s, view (f s b) = g (view s) b := by
      intro b hb
      exact hstep b (List.mem_cons_of_mem _ hb)
    rw [List.foldl_cons, List.foldl_cons, ih htail, hstep a List.mem_cons_self]

/-! ## Tables -/

variable [DecidableEq ι]

/-- Write the row `row x` at index `idx x`, for every entry of the list. -/
def writeAll (idx : α → ι) (row : α → ν) (l : List α) (t : ι → ν) : ι → ν :=
  l.foldl (fun t x => Function.update t (idx x) (row x)) t

variable {idx : α → ι} {row : α → ν}

@[simp] theorem writeAll_nil (t : ι → ν) : writeAll idx row [] t = t := rfl

@[simp] theorem writeAll_cons (x : α) (l : List α) (t : ι → ν) :
    writeAll idx row (x :: l) t = writeAll idx row l (Function.update t (idx x) (row x)) := rfl

/-- An index no entry has keeps its row. -/
theorem writeAll_of_not_mem {l : List α} {i : ι} (h : ∀ x ∈ l, idx x ≠ i) (t : ι → ν) :
    writeAll idx row l t i = t i := by
  induction l generalizing t with
  | nil => rfl
  | cons x xs ih =>
    rw [writeAll_cons, ih fun y hy => h y (List.mem_cons_of_mem _ hy),
      Function.update_of_ne (h x List.mem_cons_self).symm]

/-- With distinct indices, every entry is read back where it was written. -/
theorem writeAll_of_mem {l : List α} (hnd : (l.map idx).Nodup) {x : α} (hx : x ∈ l) (t : ι → ν) :
    writeAll idx row l t (idx x) = row x := by
  induction l generalizing t with
  | nil => simp at hx
  | cons y ys ih =>
    rw [List.map_cons, List.nodup_cons] at hnd
    rw [writeAll_cons]
    rcases List.mem_cons.mp hx with rfl | hx
    · have hne : ∀ z ∈ ys, idx z ≠ idx x := fun z hz he => hnd.1 (he ▸ List.mem_map_of_mem hz)
      rw [writeAll_of_not_mem hne, Function.update_self]
    · exact ih hnd.2 hx _

/-- An index that every one of its entries gives the same row has this row. -/
theorem writeAll_of_forall {l : List α} {i : ι} {r : ν} (hi : ∃ x ∈ l, idx x = i)
    (hrow : ∀ x ∈ l, idx x = i → row x = r) (t : ι → ν) : writeAll idx row l t i = r := by
  induction l generalizing t with
  | nil => simp at hi
  | cons y ys ih =>
    have htail : ∀ x ∈ ys, idx x = i → row x = r := by
      intro x hx
      exact hrow x (List.mem_cons_of_mem _ hx)
    rw [writeAll_cons]
    by_cases hys : ∃ x ∈ ys, idx x = i
    · exact ih hys htail _
    · have hne : ∀ x ∈ ys, idx x ≠ i := fun x hx h => hys ⟨x, hx, h⟩
      obtain ⟨x, hx, rfl⟩ := hi
      have hxy : x = y := by
        rcases List.mem_cons.mp hx with h | h
        · exact h
        · exact absurd rfl (hne x h)
      rw [writeAll_of_not_mem hne, hxy, Function.update_self]
      exact hrow y List.mem_cons_self (by rw [hxy])

/-- Two tables that receive the same entries stay related, index by index. -/
theorem writeAll_rel {R : ν → ν → Prop} (hrefl : ∀ r, R r r) (l : List α) {t t' : ι → ν}
    (h : ∀ i, R (t i) (t' i)) (i : ι) : R (writeAll idx row l t i) (writeAll idx row l t' i) := by
  induction l generalizing t t' with
  | nil => exact h i
  | cons x xs ih =>
    rw [writeAll_cons, writeAll_cons]
    apply ih
    intro j
    by_cases hj : j = idx x
    · rw [hj, Function.update_self, Function.update_self]
      exact hrefl _
    · rw [Function.update_of_ne hj, Function.update_of_ne hj]
      exact h j

/-- An entry with the position of a row is the list's element there. -/
theorem getElem?_of_mem_zipIdx {n : ℕ} [NeZero n] {l : List α} (hl : l.length ≤ n) {i : Fin n}
    {x : α × ℕ} (hx : x ∈ l.zipIdx) (hxi : Fin.ofNat n x.2 = i) : l[i.val]? = some x.1 := by
  rw [List.mem_zipIdx_iff_getElem?] at hx
  have hlt : x.2 < l.length := (List.getElem?_eq_some_iff.mp hx).1
  have hval : x.2 = i.val := by
    have := congrArg Fin.val hxi
    simpa [Nat.mod_eq_of_lt (show x.2 < n by omega)] using this
  rwa [hval] at hx

/-- Entries written at their list positions: the table holds the list up to its
end, and its own rows after it. -/
theorem writeAll_zipIdx {n : ℕ} [NeZero n] {l : List α} (hl : l.length ≤ n) (t : Fin n → ν)
    (i : Fin n) :
    writeAll (fun x : α × ℕ => Fin.ofNat n x.2) (fun x => row x.1) l.zipIdx t i =
      (l[i.val]?.map row).getD (t i) := by
  by_cases hi : i.val < l.length
  · have hget : l[i.val]? = some l[i.val] := List.getElem?_eq_getElem hi
    rw [hget]
    apply writeAll_of_forall
    · refine ⟨(l[i.val], i.val), ?_, ?_⟩
      · rw [List.mem_zipIdx_iff_getElem?]
        exact hget
      · exact Fin.ofNat_val_eq_self i
    · intro x hx hxi
      have hx := getElem?_of_mem_zipIdx hl hx hxi
      rw [hget] at hx
      exact congrArg row (Option.some.inj hx).symm
  · rw [List.getElem?_eq_none (by omega)]
    apply writeAll_of_not_mem
    intro x hx hxi
    exact hi (List.getElem?_eq_some_iff.mp (getElem?_of_mem_zipIdx hl hx hxi)).1

/-- A pass over all indices that writes a row or leaves the index alone. -/
theorem foldl_update_option {l : List ι} (f : ι → Option ν) (hnd : l.Nodup) (t : ι → ν) (i : ι) :
    l.foldl (fun t j => (f j).elim t (Function.update t j)) t i =
      if i ∈ l then (f i).getD (t i) else t i := by
  induction l generalizing t with
  | nil => simp
  | cons j js ih =>
    rw [List.nodup_cons] at hnd
    rw [List.foldl_cons, ih hnd.2]
    by_cases hij : i = j
    · subst hij
      rw [if_neg hnd.1, if_pos List.mem_cons_self]
      cases hf : f i with
      | none => rfl
      | some r => simp
    · have hmem : i ∈ j :: js ↔ i ∈ js := by simp [hij]
      have hframe : (f j).elim t (Function.update t j) i = t i := by
        cases f j with
        | none => rfl
        | some r => exact Function.update_of_ne hij r t
      simp only [hmem, hframe]

/-- A table filled from the front of a list, with a default row after its end. -/
theorem ofFn_getElem?_getD {n : ℕ} (row : α → ν) (d : ν) {l : List α} (h : l.length ≤ n) :
    List.ofFn (fun i : Fin n => (l[i.val]?.map row).getD d) =
      l.map row ++ List.replicate (n - l.length) d := by
  apply List.ext_getElem
  · simp
    omega
  · intro i h₁ h₂
    rw [List.getElem_ofFn]
    by_cases hi : i < l.length
    · rw [List.getElem_append_left (by simpa using hi)]
      simp [hi]
    · rw [List.getElem_append_right (by simpa using hi)]
      simp [hi]

end PacketWyrm.Lib
