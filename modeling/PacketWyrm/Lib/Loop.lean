import Mathlib.Data.List.Basic
import Mathlib.Data.List.Forall2
import Mathlib.Tactic.Common

/-!
# Loops that may stop with an error

A C function that walks an array and returns early on the first failure is, as
a Lean function, a walk in `Except`.  This module has the two shapes such a
function takes, and the rules that reason about a walk that ran to its end.

## Main definitions

* `forIdx f k l` — check every element of `l`, with its index, counting from `k`.
* `List.foldlM` (from core) — thread a state through the elements.

## Main results

* `forIdx_eq_ok_iff` — the walk succeeds exactly when every check does.
* `foldlM_ok_induction` — an invariant kept by every step holds at the end.
* `foldlM_ok_simulation` — two walks over one list stay related.
-/

namespace PacketWyrm.Lib

variable {ε α β γ σ τ : Type}

/-! ## Sequencing -/

/-- A sequence of two computations succeeds when both of them do. -/
@[simp] theorem bind_eq_ok_iff {x : Except ε α} {f : α → Except ε β} {b : β} :
    x >>= f = .ok b ↔ ∃ a, x = .ok a ∧ f a = .ok b := by
  cases x with
  | error e => simp [bind, Except.bind]
  | ok a => simp [bind, Except.bind]

/-- A guard: stop with `e` when the condition holds. -/
def failIf (c : Bool) (e : ε) : Except ε Unit :=
  if c then .error e else .ok ()

@[simp] theorem failIf_eq_ok_iff {c : Bool} {e : ε} {u : Unit} :
    failIf c e = .ok u ↔ c = false := by
  cases c <;> simp [failIf]

/-- A value that may be missing, with the error to stop with when it is. -/
def orFail (x : Option α) (e : ε) : Except ε α :=
  match x with
  | some a => .ok a
  | none => .error e

@[simp] theorem orFail_eq_ok_iff {x : Option α} {e : ε} {a : α} :
    orFail x e = .ok a ↔ x = some a := by
  cases x <;> simp [orFail]

@[simp] theorem mapError_eq_ok_iff {x : Except ε α} {f : ε → σ} {a : α} :
    x.mapError f = .ok a ↔ x = .ok a := by
  cases x <;> simp [Except.mapError]

/-- The computation succeeds with a value that passes the test. -/
def okAnd (x : Except ε α) (P : α → Bool) : Bool :=
  match x with
  | .ok a => P a
  | .error _ => false

theorem exists_of_okAnd {x : Except ε α} {P : α → Bool} (h : okAnd x P = true) :
    ∃ a, x = .ok a ∧ P a = true := by
  cases x with
  | error e => simp [okAnd] at h
  | ok a => exact ⟨a, rfl, h⟩

/-- The computation fails with `e`. -/
def failsWith [BEq ε] (x : Except ε α) (e : ε) : Bool :=
  match x with
  | .ok _ => false
  | .error e' => e' == e

theorem eq_error_of_failsWith [BEq ε] [LawfulBEq ε] {x : Except ε α} {e : ε}
    (h : failsWith x e = true) : x = .error e := by
  cases x with
  | error e' => rw [beq_iff_eq.mp h]
  | ok a => simp [failsWith] at h

/-! ## Checking every element -/

/-- Run the check `f` on every element of the list with its index, the first
element having index `k`; the first failure ends the walk. -/
def forIdx (f : ℕ → α → Except ε Unit) : ℕ → List α → Except ε Unit
  | _, [] => .ok ()
  | k, x :: xs => do
    f k x
    forIdx f (k + 1) xs

/-- The walk succeeds exactly when the check succeeds at every position. -/
theorem forIdx_eq_ok_iff {f : ℕ → α → Except ε Unit} {k : ℕ} {l : List α} {u : Unit} :
    forIdx f k l = .ok u ↔ ∀ i x, l[i]? = some x → f (k + i) x = .ok () := by
  induction l generalizing k with
  | nil => simp [forIdx]
  | cons y ys ih =>
    rw [forIdx, bind_eq_ok_iff]
    constructor
    · rintro ⟨⟨⟩, hy, hys⟩ i x hx
      cases i with
      | zero =>
        obtain rfl : y = x := by simpa using hx
        exact hy
      | succ i =>
        have := ih.mp hys i x (by simpa using hx)
        rwa [show k + (i + 1) = k + 1 + i by omega]
    · intro h
      refine ⟨(), by simpa using h 0 y (by simp), ih.mpr fun i x hx => ?_⟩
      have := h (i + 1) x (by simpa using hx)
      rwa [show k + (i + 1) = k + 1 + i by omega] at this

/-- A check whose outcome does not depend on the index is one of every member. -/
theorem forIdx_eq_ok_iff_forall {f : ℕ → α → Except ε Unit} {P : α → Prop} {k : ℕ}
    {l : List α} {u : Unit} (h : ∀ i x, x ∈ l → (f i x = .ok () ↔ P x)) :
    forIdx f k l = .ok u ↔ ∀ x ∈ l, P x := by
  rw [forIdx_eq_ok_iff]
  constructor
  · intro H x hx
    obtain ⟨i, hi⟩ := List.mem_iff_getElem?.mp hx
    exact (h (k + i) x hx).mp (H i x hi)
  · intro H i x hx
    have hm : x ∈ l := List.mem_of_getElem? hx
    exact (h (k + i) x hm).mpr (H x hm)

/-- Every pair of positions is a position with one of the elements after it. -/
theorem pairwise_iff_drop {l : List α} {R : α → α → Prop} :
    l.Pairwise R ↔ ∀ i x, l[i]? = some x → ∀ y ∈ l.drop (i + 1), R x y := by
  induction l with
  | nil => simp
  | cons x xs ih =>
    rw [List.pairwise_cons, ih]
    constructor
    · rintro ⟨h₀, h⟩ i y hy z hz
      cases i with
      | zero =>
        obtain rfl : x = y := by simpa using hy
        exact h₀ z (by simpa using hz)
      | succ i => exact h i y (by simpa using hy) z (by simpa using hz)
    · intro h
      refine ⟨fun y hy => h 0 x (by simp) y (by simpa using hy), fun i y hy z hz => ?_⟩
      exact h (i + 1) y (by simpa using hy) z (by simpa using hz)

/-- The nested walk that compares every element with those after it. -/
theorem forIdx_pairs_eq_ok_iff {g : ℕ → α → α → Except ε Unit} {R : α → α → Prop}
    {l : List α} {u : Unit} (h : ∀ j x y, g j x y = .ok () ↔ R x y) :
    forIdx (fun i x => forIdx (fun j y => g j x y) (i + 1) (l.drop (i + 1))) 0 l = .ok u ↔
      l.Pairwise R := by
  rw [forIdx_eq_ok_iff, pairwise_iff_drop]
  refine forall_congr' fun i => forall_congr' fun x => forall_congr' fun _ => ?_
  rw [Nat.zero_add]
  exact forIdx_eq_ok_iff_forall fun j y _ => h j x y

/-! ## Threading a state -/

/-- **The loop rule.**  A property of the state and of the elements consumed so
far that every successful step extends holds when the walk ends. -/
theorem foldlM_ok_induction {f : σ → α → Except ε σ} {P : List α → σ → Prop}
    {l : List α} {s t : σ} (h : l.foldlM f s = .ok t) (h₀ : P [] s)
    (step : ∀ pre x post s t, l = pre ++ x :: post → P pre s → f s x = .ok t →
      P (pre ++ [x]) t) : P l t := by
  suffices H : ∀ pre rest s, l = pre ++ rest → P pre s → rest.foldlM f s = .ok t → P l t from
    H [] l s rfl h₀ h
  intro pre rest
  induction rest generalizing pre with
  | nil =>
    intro s hl hs ht
    obtain rfl : s = t := by simpa [pure, Except.pure] using ht
    simpa [hl] using hs
  | cons x xs ih =>
    intro s hl hs ht
    rw [List.foldlM_cons, bind_eq_ok_iff] at ht
    obtain ⟨u, hu, hxs⟩ := ht
    exact ih (pre ++ [x]) u (by simp [hl]) (step pre x xs s u hl hs hu) hxs

/-- The loop rule for a property of the state alone. -/
theorem foldlM_ok_invariant {f : σ → α → Except ε σ} {P : σ → Prop}
    {l : List α} {s t : σ} (h : l.foldlM f s = .ok t) (h₀ : P s)
    (step : ∀ x ∈ l, ∀ s t, P s → f s x = .ok t → P t) : P t := by
  refine foldlM_ok_induction (P := fun _ s => P s) h h₀ ?_
  intro pre x post s t hl hs ht
  exact step x (by simp [hl]) s t hs ht

/-- A property that a state has if the next one does holds from the start. -/
theorem foldlM_ok_backward {f : σ → α → Except ε σ} {G : σ → Prop}
    (hback : ∀ {x s s'}, f s x = .ok s' → G s' → G s) {l : List α} {s s' : σ}
    (h : l.foldlM f s = .ok s') (hG : G s') : G s := by
  induction l generalizing s with
  | nil =>
    obtain rfl : s = s' := Except.ok.inj h
    exact hG
  | cons x l ih =>
    obtain ⟨s₁, h₁, h⟩ := bind_eq_ok_iff.mp h
    exact hback h₁ (ih h)

/-- **Two walks over one list stay related** when every step does, as long as
the first one keeps `G`, which a state has if a later one does. -/
theorem foldlM_ok_simulation {δ : Type} {f : σ → α → Except ε σ} {g : τ → α → Except δ τ}
    {R : σ → τ → Prop} {G : σ → Prop} (hback : ∀ {x s s'}, f s x = .ok s' → G s' → G s)
    (hstep : ∀ {x s s' t}, R s t → f s x = .ok s' → G s' → ∃ t', g t x = .ok t' ∧ R s' t')
    {l : List α} {s s' : σ} {t : τ} (h : l.foldlM f s = .ok s') (hG : G s') (hR : R s t) :
    ∃ t', l.foldlM g t = .ok t' ∧ R s' t' := by
  induction l generalizing s t with
  | nil =>
    obtain rfl : s = s' := Except.ok.inj h
    exact ⟨t, rfl, hR⟩
  | cons x l ih =>
    obtain ⟨s₁, h₁, h⟩ := bind_eq_ok_iff.mp h
    obtain ⟨t₁, ht₁, hR₁⟩ := hstep hR h₁ (foldlM_ok_backward hback h hG)
    obtain ⟨t', ht', hR'⟩ := ih h hR₁
    exact ⟨t', bind_eq_ok_iff.mpr ⟨t₁, ht₁, ht'⟩, hR'⟩

/-- A change of the state that commutes with every step commutes with the walk. -/
theorem foldlM_map_state (g : σ → τ) {f : σ → α → Except ε σ} {f' : τ → α → Except ε τ}
    (step : ∀ s x, f' (g s) x = (f s x).map g) (l : List α) (s : σ) :
    l.foldlM f' (g s) = (l.foldlM f s).map g := by
  induction l generalizing s with
  | nil => rfl
  | cons x xs ih =>
    rw [List.foldlM_cons, List.foldlM_cons, step]
    cases f s x with
    | error e => rfl
    | ok t => exact ih t

/-- Numbering the elements for the error messages does not change what a
successful walk computes. -/
theorem foldlM_zipIdx_mapError_eq_ok_iff {f : σ → α → Except ε σ} {g : ℕ → α → ε → τ}
    {l : List α} {k : ℕ} {s t : σ} :
    (l.zipIdx k).foldlM (fun s x => (f s x.1).mapError (g x.2 x.1)) s = .ok t ↔
      l.foldlM f s = .ok t := by
  induction l generalizing k s with
  | nil => simp [pure, Except.pure]
  | cons x xs ih =>
    rw [List.zipIdx_cons, List.foldlM_cons, List.foldlM_cons]
    simp only [bind_eq_ok_iff, mapError_eq_ok_iff, ih]

/-- Every result of a successful map comes from an element. -/
theorem mapM_eq_ok_iff {f : α → Except ε β} {l : List α} {l' : List β} :
    l.mapM f = .ok l' ↔ List.Forall₂ (fun x y => f x = .ok y) l l' := by
  induction l generalizing l' with
  | nil =>
    rw [List.mapM_nil, List.forall₂_nil_left_iff]
    simp [pure, Except.pure, eq_comm]
  | cons x xs ih =>
    rw [List.mapM_cons, bind_eq_ok_iff, List.forall₂_cons_left_iff]
    simp only [bind_eq_ok_iff, ih]
    constructor
    · rintro ⟨y, hy, ys, hys, h⟩
      obtain rfl : y :: ys = l' := by simpa [pure, Except.pure] using h
      exact ⟨y, ys, hy, hys, rfl⟩
    · rintro ⟨y, ys, hy, hys, rfl⟩
      exact ⟨y, hy, ys, hys, rfl⟩

theorem exists_mapM_ok_iff {f : α → Except ε β} {l : List α} :
    (∃ l', l.mapM f = .ok l') ↔ ∀ x ∈ l, ∃ y, f x = .ok y := by
  induction l with
  | nil => simp [pure, Except.pure]
  | cons x xs ih =>
    rw [List.mapM_cons, List.forall_mem_cons, ← ih]
    cases f x <;> cases xs.mapM f <;> simp [bind, Except.bind, pure, Except.pure]

/-- When the steps can only fail with `e`, so can the map. -/
theorem mapM_ok_or_error {f : α → Except ε β} {l : List α} {e : ε}
    (h : ∀ x ∈ l, (∃ y, f x = .ok y) ∨ f x = .error e) :
    (∃ l', l.mapM f = .ok l') ∨ l.mapM f = .error e := by
  induction l with
  | nil => exact .inl ⟨[], rfl⟩
  | cons x xs ih =>
    rw [List.mapM_cons]
    rcases h x List.mem_cons_self with ⟨y, hy⟩ | hx
    · rcases ih fun z hz => h z (List.mem_cons_of_mem _ hz) with ⟨ys, hys⟩ | hxs
      · exact .inl ⟨y :: ys, by rw [hy, hys]; rfl⟩
      · exact .inr (by rw [hy, hxs]; rfl)
    · exact .inr (by rw [hx]; rfl)

theorem map_eq_map_of_forall₂ {f : α → γ} {g : β → γ} {l : List α} {l' : List β}
    (h : List.Forall₂ (fun x y => g y = f x) l l') : l'.map g = l.map f := by
  induction h with
  | nil => rfl
  | cons hxy _ ih => rw [List.map_cons, List.map_cons, hxy, ih]

theorem exists_left_of_forall₂ {R : α → β → Prop} {l : List α} {l' : List β}
    (h : List.Forall₂ R l l') {y : β} (hy : y ∈ l') : ∃ x ∈ l, R x y := by
  induction h with
  | nil => simp at hy
  | cons hxy _ ih =>
    rcases List.mem_cons.mp hy with rfl | hy
    · exact ⟨_, List.mem_cons_self, hxy⟩
    · obtain ⟨x, hx, hr⟩ := ih hy
      exact ⟨x, List.mem_cons_of_mem _ hx, hr⟩

theorem exists_right_of_forall₂ {R : α → β → Prop} {l : List α} {l' : List β}
    (h : List.Forall₂ R l l') {x : α} (hx : x ∈ l) : ∃ y ∈ l', R x y :=
  exists_left_of_forall₂ h.flip hx

/-- Two lists related to a third, and what the relations give together. -/
theorem exists_forall₂_of_step {δ : Type} {A : α → β → Prop} {B : α → γ → Prop}
    {C : γ → δ → Prop} {D : β → δ → Prop} {l : List α} {m : List β} {l' : List γ}
    (hA : List.Forall₂ A l m) (hB : List.Forall₂ B l l')
    (h : ∀ x ∈ l, ∀ y x', A x y → B x x' → ∃ y', C x' y' ∧ D y y') :
    ∃ m', List.Forall₂ C l' m' ∧ List.Forall₂ D m m' := by
  induction hA generalizing l' with
  | nil =>
    cases hB
    exact ⟨[], .nil, .nil⟩
  | cons hxy _ ih =>
    cases hB with
    | cons hxx' hB =>
      obtain ⟨y', hC, hD⟩ := h _ (by simp) _ _ hxy hxx'
      obtain ⟨m', hCs, hDs⟩ := ih hB fun x hx => h x (by simp [hx])
      exact ⟨y' :: m', .cons hC hCs, .cons hD hDs⟩

end PacketWyrm.Lib
