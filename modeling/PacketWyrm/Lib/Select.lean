import Mathlib.Data.List.FinRange
import Mathlib.Data.List.Forall2
import Mathlib.Order.Defs.LinearOrder
import Mathlib.Tactic.Common

/-!
# Priority selection

From a table of candidates, the matching one of best (lowest) priority, ties to
the earliest.  Hardware computes it in parallel, every candidate being compared
with all the others; a reader thinks of it as a choice from a list.

## Main definitions

* `firstBest prio l` — the earliest element of `l` of lowest priority.
* `select` — its result, among the candidates that pass a test.
* `selectFold` — the parallel form: each row wins when no other matching row
  beats it, and the rows are merged in one pass.

## Main results

* `firstBest_eq_some_iff` — what the choice is, by position.
* `selectFold_eq` — the parallel form makes the same choice.
-/

namespace PacketWyrm.Lib

variable {α β γ π : Type} [LinearOrder π]

/-- The earliest element of lowest priority. -/
def firstBest (prio : α → π) : List α → Option α
  | [] => none
  | x :: xs =>
    match firstBest prio xs with
    | none => some x
    | some y => if prio y < prio x then some y else some x

variable {prio : α → π}

@[simp] theorem firstBest_eq_none_iff {l : List α} : firstBest prio l = none ↔ l = [] := by
  cases l with
  | nil => simp [firstBest]
  | cons x xs =>
    simp only [firstBest, reduceCtorEq, iff_false]
    split
    · simp
    · split <;> simp

/-- **What the choice is**: strictly better than every candidate before it, and
no worse than any after it. -/
theorem firstBest_eq_some_iff {l : List α} {x : α} :
    firstBest prio l = some x ↔
      ∃ pre post, l = pre ++ x :: post ∧ (∀ y ∈ pre, prio x < prio y) ∧
        ∀ y ∈ post, prio x ≤ prio y := by
  induction l generalizing x with
  | nil => simp [firstBest]
  | cons a as ih =>
    rw [firstBest]
    constructor
    · cases hb : firstBest prio as with
      | none =>
        rintro h
        obtain rfl : a = x := by simpa using h
        obtain rfl : as = [] := firstBest_eq_none_iff.mp hb
        exact ⟨[], [], by simp⟩
      | some y =>
        obtain ⟨pre, post, rfl, hpre, hpost⟩ := ih.mp hb
        by_cases hlt : prio y < prio a
        · intro h
          obtain rfl : y = x := by simpa [hlt] using h
          refine ⟨a :: pre, post, rfl, ?_, hpost⟩
          simpa using ⟨hlt, hpre⟩
        · intro h
          obtain rfl : a = x := by simpa [hlt] using h
          refine ⟨[], pre ++ y :: post, rfl, by simp, fun z hz => ?_⟩
          have hay : prio a ≤ prio y := not_lt.mp hlt
          simp only [List.mem_append, List.mem_cons] at hz
          rcases hz with hz | rfl | hz
          · exact hay.trans (hpre z hz).le
          · exact hay
          · exact hay.trans (hpost z hz)
    · rintro ⟨pre, post, hl, hpre, hpost⟩
      cases pre with
      | nil =>
        obtain ⟨rfl, rfl⟩ : a = x ∧ as = post := by simpa using hl
        cases hb : firstBest prio as with
        | none => rfl
        | some y =>
          obtain ⟨pre', post', rfl, -, -⟩ := ih.mp hb
          simp [not_lt.mpr (hpost y (by simp))]
      | cons b pre =>
        obtain ⟨rfl, rfl⟩ : a = b ∧ as = pre ++ x :: post := by simpa using hl
        rw [ih.mpr ⟨pre, post, rfl, fun y hy => hpre y (by simp [hy]), hpost⟩]
        simp [hpre a (by simp)]

theorem mem_of_firstBest {l : List α} {x : α} (h : firstBest prio l = some x) : x ∈ l := by
  obtain ⟨pre, post, rfl, -, -⟩ := firstBest_eq_some_iff.mp h
  simp

/-- **What holds of the choice**: a property holds of whatever is chosen exactly
when every candidate without it comes second to one that has it. -/
theorem forall_firstBest_iff {P : α → Prop} {l : List α} :
    (∀ x, firstBest prio l = some x → P x) ↔
      ∀ pre x post, l = pre ++ x :: post → ¬P x →
        ∃ y, P y ∧ ((y ∈ pre ∧ prio y ≤ prio x) ∨ (y ∈ post ∧ prio y < prio x)) := by
  constructor
  · intro h pre x post hl hx
    obtain ⟨w, hw⟩ : ∃ w, firstBest prio l = some w := by
      rw [← Option.ne_none_iff_exists', ne_eq, firstBest_eq_none_iff, hl]
      simp
    have hPw := h w hw
    obtain ⟨pre', post', hl', hpre, hpost⟩ := firstBest_eq_some_iff.mp hw
    refine ⟨w, hPw, ?_⟩
    rcases List.append_eq_append_iff.mp (hl.symm.trans hl') with ⟨t, rfl, ht⟩ | ⟨t, rfl, ht⟩
    · cases t with
      | nil =>
        obtain ⟨rfl, -⟩ := List.cons.inj ht
        exact absurd hPw hx
      | cons z t =>
        obtain ⟨rfl, rfl⟩ := List.cons.inj ht
        exact .inr ⟨by simp, hpre x (by simp)⟩
    · cases t with
      | nil =>
        obtain ⟨rfl, -⟩ := List.cons.inj ht
        exact absurd hPw hx
      | cons z t =>
        obtain ⟨rfl, rfl⟩ := List.cons.inj ht
        exact .inl ⟨by simp, hpost x (by simp)⟩
  · intro h x hx
    obtain ⟨pre, post, hl, hpre, hpost⟩ := firstBest_eq_some_iff.mp hx
    by_contra hP
    obtain ⟨y, -, ⟨hy, hle⟩ | ⟨hy, hlt⟩⟩ := h pre x post hl hP
    · exact absurd (hpre y hy) (not_lt.mpr hle)
    · exact absurd (hpost y hy) (not_le.mpr hlt)

/-- The choice does not depend on how candidates are represented. -/
theorem firstBest_map (g : γ → α) (l : List γ) :
    firstBest prio (l.map g) = (firstBest (fun c => prio (g c)) l).map g := by
  induction l with
  | nil => rfl
  | cons c cs ih =>
    rw [List.map_cons, firstBest, firstBest, ih]
    cases firstBest (fun c => prio (g c)) cs with
    | none => rfl
    | some d => by_cases h : prio (g d) < prio (g c) <;> simp [h]

/-- The result of the choice among the candidates that pass the test. -/
def select (prio : α → π) (hit : α → Bool) (res : α → β) (l : List α) : Option β :=
  (firstBest prio (l.filter hit)).map res

/-- Candidates that agree in test, priority and result are chosen alike. -/
theorem select_eq_of_forall₂ {prio' : γ → π} {hit : α → Bool} {hit' : γ → Bool}
    {res : α → β} {res' : γ → β} {l : List α} {l' : List γ}
    (h : List.Forall₂ (fun x y => hit x = hit' y ∧ prio x = prio' y ∧ res x = res' y) l l') :
    select prio hit res l = select prio' hit' res' l' := by
  have key : ∀ {δ : Type} (pr : δ → π) (ht : δ → Bool) (rs : δ → β) (k : List δ),
      select pr ht rs k =
        select (fun t : Bool × π × β => t.2.1) (fun t => t.1) (fun t => t.2.2)
          (k.map fun x => (ht x, pr x, rs x)) := by
    intro δ pr ht rs k
    rw [select, select, List.filter_map, firstBest_map, Option.map_map]
    rfl
  rw [key, key prio']
  congr 1
  induction h with
  | nil => rfl
  | cons hxy _ ih => rw [List.map_cons, List.map_cons, hxy.1, hxy.2.1, hxy.2.2, ih]

/-! ## The parallel form -/

section Parallel

variable {n : ℕ} (prio) (row : Fin n → α) (hit : α → Bool)

/-- Some other matching row has a better priority, or the same and a lower
index. -/
def beaten (i : Fin n) : Bool :=
  (List.finRange n).any fun j =>
    decide (j ≠ i) && hit (row j) &&
      (decide (prio (row j) < prio (row i)) ||
        (decide (prio (row j) = prio (row i)) && decide (j < i)))

/-- One pass over the rows, keeping the result of each matching row that is not
beaten. -/
def selectFold (res : α → β) (dflt : β) : β :=
  (List.finRange n).foldl
    (fun acc i => if hit (row i) && !beaten prio row hit i then res (row i) else acc) dflt

variable {prio row hit}

private theorem foldl_none {p : γ → Bool} {res : γ → β} {dflt : β} {l : List γ}
    (h : ∀ y ∈ l, p y = false) :
    l.foldl (fun acc y => if p y then res y else acc) dflt = dflt := by
  induction l with
  | nil => rfl
  | cons y ys ih =>
    rw [List.foldl_cons, h y (by simp)]
    exact ih fun z hz => h z (by simp [hz])

private theorem foldl_last_of_unique {p : γ → Bool} {res : γ → β} {dflt : β} {l : List γ} {x : γ}
    (hx : x ∈ l) (hp : p x = true) (huniq : ∀ y ∈ l, p y = true → y = x) :
    l.foldl (fun acc y => if p y then res y else acc) dflt = res x := by
  induction l generalizing dflt with
  | nil => simp at hx
  | cons y ys ih =>
    rw [List.foldl_cons]
    by_cases hxs : x ∈ ys
    · exact ih hxs fun z hz => huniq z (by simp [hz])
    · obtain rfl : x = y := by simpa [hxs] using hx
      rw [if_pos hp]
      refine foldl_none fun z hz => ?_
      cases hpz : p z with
      | false => rfl
      | true => exact absurd (huniq z (by simp [hz]) hpz ▸ hz) hxs

/-- A row is not beaten when every other matching row is worse, or equal and
later. -/
theorem beaten_eq_false_iff {i : Fin n} :
    beaten prio row hit i = false ↔
      ∀ j, j ≠ i → hit (row j) = true →
        prio (row i) < prio (row j) ∨ (prio (row i) = prio (row j) ∧ i < j) := by
  rw [beaten, List.any_eq_false]
  refine forall_congr' fun j => ?_
  simp only [List.mem_finRange, forall_const, Bool.and_eq_true, decide_eq_true_eq,
    Bool.or_eq_true, not_and, not_or, and_imp]
  refine forall_congr' fun hj => forall_congr' fun _ => ?_
  constructor
  · rintro ⟨h₁, h₂⟩
    rcases lt_or_eq_of_le (not_lt.mp h₁) with h | h
    · exact .inl h
    · exact .inr ⟨h, lt_of_le_of_ne (not_lt.mp (h₂ h.symm)) (Ne.symm hj)⟩
  · rintro (h | ⟨h, hij⟩)
    · exact ⟨not_lt.mpr h.le, fun he => absurd he h.ne'⟩
    · exact ⟨not_lt.mpr h.le, fun _ => not_lt.mpr hij.le⟩

/-- At most one matching row is not beaten. -/
theorem eq_of_not_beaten {i j : Fin n} (hi : hit (row i) = true) (hj : hit (row j) = true)
    (hbi : beaten prio row hit i = false) (hbj : beaten prio row hit j = false) : i = j := by
  by_contra hij
  rcases beaten_eq_false_iff.mp hbi j (Ne.symm hij) hj with h | ⟨h, hlt⟩
  · rcases beaten_eq_false_iff.mp hbj i hij hi with h' | ⟨h', -⟩
    · exact absurd (h.trans h') (lt_irrefl _)
    · exact absurd h' h.ne'
  · rcases beaten_eq_false_iff.mp hbj i hij hi with h' | ⟨-, hlt'⟩
    · exact absurd h h'.ne'
    · exact absurd (hlt.trans hlt') (lt_irrefl _)

/-- The earliest best matching index is not beaten. -/
theorem not_beaten_of_firstBest {i : Fin n}
    (h : firstBest (fun i => prio (row i)) ((List.finRange n).filter fun i => hit (row i)) =
      some i) :
    hit (row i) = true ∧ beaten prio row hit i = false := by
  obtain ⟨pre, post, hl, hpre, hpost⟩ := firstBest_eq_some_iff.mp h
  have hmem : ∀ j, hit (row j) = true → j ∈ pre ++ i :: post := by
    intro j hj
    rw [← hl]
    simp [hj]
  have hsorted : (pre ++ i :: post).Pairwise (· < ·) := by
    rw [← hl]
    exact (List.pairwise_lt_finRange n).filter _
  have hi : i ∈ (List.finRange n).filter fun i => hit (row i) := by simp [hl]
  refine ⟨by simpa using hi, beaten_eq_false_iff.mpr fun j hj hh => ?_⟩
  rcases List.mem_append.mp (hmem j hh) with hp | hp
  · exact .inl (hpre j hp)
  · rcases List.mem_cons.mp hp with rfl | hp
    · exact absurd rfl hj
    · rcases lt_or_eq_of_le (hpost j hp) with hlt | heq
      · exact .inl hlt
      · refine .inr ⟨heq, ?_⟩
        have := (List.pairwise_append.mp hsorted).2.1
        exact (List.pairwise_cons.mp this).1 j hp

/-- **The parallel form makes the list's choice.** -/
theorem selectFold_eq (res : α → β) (dflt : β) :
    selectFold prio row hit res dflt =
      (select prio hit res (List.ofFn row)).getD dflt := by
  have hcand : (List.ofFn row).filter hit =
      ((List.finRange n).filter fun i => hit (row i)).map row := by
    rw [List.ofFn_eq_map, List.filter_map]
    rfl
  rw [select, hcand, firstBest_map, selectFold]
  cases hb : firstBest (fun i => prio (row i))
      ((List.finRange n).filter fun i => hit (row i)) with
  | none =>
    have hnil := firstBest_eq_none_iff.mp hb
    refine foldl_none fun i hi => ?_
    have : hit (row i) = false := by
      have := List.filter_eq_nil_iff.mp hnil i hi
      simpa using this
    simp [this]
  | some i =>
    obtain ⟨hhit, hnb⟩ := not_beaten_of_firstBest hb
    refine (foldl_last_of_unique (p := fun i => hit (row i) && !beaten prio row hit i)
      (List.mem_finRange i) (by simp [hhit, hnb]) ?_).trans ?_
    · intro j _ hj
      simp only [Bool.and_eq_true, Bool.not_eq_true'] at hj
      exact eq_of_not_beaten hj.1 hhit hj.2 hnb
    · simp

end Parallel

end PacketWyrm.Lib
