import Mathlib.Data.List.Basic
import Mathlib.Tactic.Common

/-!
# Clocked machines

A synchronous circuit is a step function on its registers: one call for each
clock edge, with the inputs of the cycle.  A run is a fold of the step over the
cycles.  What holds in every reachable state is kept by one step, and a circuit
refines another machine when one step keeps them related.

## Main results

* `run_invariant` — an invariant of the step is one of every run.
* `run_simulation` — related machines stay related.
* `outputs_filterMap` — cycles in which nothing is taken do not count.
* `outputs_transduce`, `outputs_drain` — a machine that turns one stream into another.
* `outputs_cascade` — a machine behind another one.
* `Follows.simulation` — and they give the same outputs, while the inputs keep to
  a protocol.
-/

namespace PacketWyrm.Lib

variable {σ τ ι κ : Type}

/-- The state after the cycles with these inputs. -/
def run (step : σ → ι → σ) (s : σ) (l : List ι) : σ := l.foldl step s

section Run

variable (step : σ → ι → σ) (s : σ)

@[simp] theorem run_nil : run step s [] = s := rfl

@[simp] theorem run_cons (i : ι) (l : List ι) : run step s (i :: l) = run step (step s i) l := rfl

theorem run_append (l m : List ι) : run step s (l ++ m) = run step (run step s l) m :=
  List.foldl_append

theorem run_concat (l : List ι) (i : ι) : run step s (l ++ [i]) = step (run step s l) i := by
  rw [run_append, run_cons, run_nil]

end Run

/-- **An invariant of the step is one of every run**; the step may rely on what
the inputs are known to satisfy. -/
theorem run_invariant {step : σ → ι → σ} {I : σ → Prop} {A : ι → Prop}
    (hstep : ∀ s i, A i → I s → I (step s i)) {s : σ} (h : I s) {l : List ι}
    (hl : ∀ i ∈ l, A i) : I (run step s l) := by
  induction l generalizing s with
  | nil => exact h
  | cons i l ih =>
    exact ih (hstep s i (hl i List.mem_cons_self) h) fun j hj => hl j (List.mem_cons_of_mem _ hj)

/-- **Related machines stay related** when one step keeps them so. -/
theorem run_simulation {step : σ → ι → σ} {step' : τ → ι → τ} {R : σ → τ → Prop}
    (hstep : ∀ s t i, R s t → R (step s i) (step' t i)) {s : σ} {t : τ} (h : R s t)
    (l : List ι) : R (run step s l) (run step' t l) := by
  induction l generalizing s t with
  | nil => exact h
  | cons i l ih => exact ih (hstep s t i h)

/-! ## Outputs -/

/-- What the cycles put out, one after the other. -/
def outputs (out : σ → ι → Option κ) (step : σ → ι → σ) (s : σ) : List ι → List κ
  | [] => []
  | i :: l => (out s i).toList ++ outputs out step (step s i) l

section Outputs

variable (out : σ → ι → Option κ) (step : σ → ι → σ) (s : σ)

@[simp] theorem outputs_nil : outputs out step s [] = [] := rfl

@[simp] theorem outputs_cons (i : ι) (l : List ι) :
    outputs out step s (i :: l) = (out s i).toList ++ outputs out step (step s i) l := rfl

theorem outputs_append (l m : List ι) :
    outputs out step s (l ++ m) = outputs out step s l ++ outputs out step (run step s l) m := by
  induction l generalizing s with
  | nil => rfl
  | cons i l ih => rw [List.cons_append, outputs_cons, ih, outputs_cons, List.append_assoc, run_cons]

end Outputs

/-- **Cycles in which nothing is taken do not count.**  A machine that moves with
what it takes puts out what it does when it takes one thing after the other. -/
theorem outputs_filterMap {α : Type} {step : σ → ι → σ} {out : σ → ι → Option κ}
    {step' : σ → α → σ} {out' : σ → α → κ} {take : ι → Option α}
    (hstep : ∀ s i, step s i = (take i).elim s (step' s))
    (hout : ∀ s i, out s i = (take i).map (out' s)) (s : σ) (l : List ι) :
    outputs out step s l = outputs (fun s a => some (out' s a)) step' s (l.filterMap take) := by
  induction l generalizing s with
  | nil => rfl
  | cons i l ih =>
    rw [outputs_cons, hstep, hout, ih]
    cases h : take i with
    | none => rw [List.filterMap_cons_none h]; rfl
    | some a => rw [List.filterMap_cons_some h]; rfl

/-! ## Streams -/

section Stream

variable {α : Type} {take : σ → ι → Option α} {out : σ → ι → Option κ} {step : σ → ι → σ}
  {R : σ → List α → List κ → Prop}

/-- **A machine that turns one stream into another.**  `R s l m` says that from `s` on it still
has `l` to take and `m` to put out; one step keeps this, and so does a run. -/
theorem outputs_transduce
    (hstep : ∀ s i l m, R s ((take s i).toList ++ l) m →
      ∃ m', m = (out s i).toList ++ m' ∧ R (step s i) l m')
    {s : σ} {ins : List ι} {l : List α} {m : List κ} (h : R s (outputs take step s ins ++ l) m) :
    ∃ m', m = outputs out step s ins ++ m' ∧ R (run step s ins) l m' := by
  induction ins generalizing s m with
  | nil => exact ⟨m, rfl, h⟩
  | cons i ins ih =>
    rw [outputs_cons, List.append_assoc] at h
    obtain ⟨m₁, rfl, h₁⟩ := hstep _ _ _ _ h
    obtain ⟨m₂, rfl, h₂⟩ := ih h₁
    exact ⟨m₂, by rw [outputs_cons, List.append_assoc], h₂⟩

/-- **The machine drains**: with nothing more to take it puts out one thing in every cycle
in which the other side is ready, until it has put out all. -/
theorem outputs_drain
    (hstep : ∀ s i l m, R s ((take s i).toList ++ l) m →
      ∃ m', m = (out s i).toList ++ m' ∧ R (step s i) l m')
    {quiet : ι → Prop} {ready : ι → Bool} (hquiet : ∀ s i, quiet i → take s i = none)
    (hlive : ∀ s i m, R s [] m → m ≠ [] → ready i → (out s i).isSome)
    {s : σ} {ins : List ι} {m : List κ} (h : R s [] m) (hins : ∀ i ∈ ins, quiet i)
    (hready : m.length ≤ ins.countP ready) : outputs out step s ins = m := by
  induction ins generalizing s m with
  | nil =>
    rw [List.countP_nil, Nat.le_zero] at hready
    rw [outputs_nil, List.eq_nil_of_length_eq_zero hready]
  | cons i ins ih =>
    have hnone := hquiet s i (hins i List.mem_cons_self)
    obtain ⟨m', rfl, h'⟩ := hstep s i [] m (by rw [hnone]; exact h)
    rw [outputs_cons, ih h' fun j hj => hins j (List.mem_cons_of_mem _ hj)]
    rw [List.length_append, List.countP_cons] at hready
    cases hout : out s i with
    | some x =>
      rw [hout, Option.toList_some, List.length_singleton] at hready
      split at hready <;> omega
    | none =>
      rw [hout] at h hready
      cases m' with
      | nil => exact Nat.zero_le _
      | cons x m' =>
        -- the other side was not ready, or a beat would have been put out
        have hnot : ¬ ready i = true := by
          intro hi
          have hsome := hlive s i _ h (List.cons_ne_nil _ _) hi
          rw [hout] at hsome
          cases hsome
        rw [if_neg hnot] at hready
        simpa using hready

end Stream

/-! ## Cascades -/

/-- What a machine shows in each cycle. -/
def trace (out : σ → ι → κ) (step : σ → ι → σ) (s : σ) : List ι → List κ
  | [] => []
  | i :: l => out s i :: trace out step (step s i) l

section Trace

variable (out : σ → ι → κ) (step : σ → ι → σ) (s : σ)

@[simp] theorem trace_nil : trace out step s [] = [] := rfl

@[simp] theorem trace_cons (i : ι) (l : List ι) :
    trace out step s (i :: l) = out s i :: trace out step (step s i) l := rfl

theorem trace_append (l m : List ι) :
    trace out step s (l ++ m) = trace out step s l ++ trace out step (run step s l) m := by
  induction l generalizing s with
  | nil => rfl
  | cons i l ih => rw [List.cons_append, trace_cons, ih, trace_cons, List.cons_append, run_cons]

theorem trace_concat (l : List ι) (i : ι) :
    trace out step s (l ++ [i]) = trace out step s l ++ [out (run step s l) i] := by
  rw [trace_append, trace_cons, trace_nil]

@[simp] theorem length_trace (l : List ι) : (trace out step s l).length = l.length := by
  induction l generalizing s with
  | nil => rfl
  | cons i l ih => rw [trace_cons, List.length_cons, ih, List.length_cons]

theorem take_trace (l : List ι) (n : ℕ) :
    (trace out step s l).take n = trace out step s (l.take n) := by
  induction l generalizing s n with
  | nil => rw [trace_nil, List.take_nil, List.take_nil, trace_nil]
  | cons i l ih =>
    cases n with
    | zero => rfl
    | succ n => rw [trace_cons, List.take_succ_cons, ih, List.take_succ_cons, trace_cons]

/-- What is shown is shown in a reached state. -/
theorem exists_of_mem_trace {x : κ} {l : List ι} (hx : x ∈ trace out step s l) :
    ∃ pre i post, l = pre ++ i :: post ∧ x = out (run step s pre) i := by
  induction l generalizing s with
  | nil => cases hx
  | cons i l ih =>
    rw [trace_cons, List.mem_cons] at hx
    cases hx with
    | inl h => exact ⟨[], i, l, rfl, h⟩
    | inr h =>
      obtain ⟨pre, j, post, rfl, hj⟩ := ih (step s i) h
      exact ⟨i :: pre, j, post, rfl, hj⟩

end Trace

/-- A machine behind another one: its input in a cycle is what the first one shows. -/
def cascade {ν : Type} (out : σ → ι → ν) (step : σ → ι → σ) (step' : τ → ν → τ) (s : σ × τ)
    (i : ι) : σ × τ :=
  (step s.1 i, step' s.2 (out s.1 i))

section Cascade

variable {ν : Type} (out : σ → ι → ν) (step : σ → ι → σ) (step' : τ → ν → τ)
  (out' : τ → ν → Option κ) (s : σ) (t : τ) (l : List ι)

/-- Each machine of a cascade runs on its own inputs. -/
theorem run_cascade :
    run (cascade out step step') (s, t) l = (run step s l, run step' t (trace out step s l)) := by
  induction l generalizing s t with
  | nil => rfl
  | cons i l ih => exact ih (step s i) (step' t (out s i))

/-- **A cascade puts out what its second machine does** on what the first one shows. -/
theorem outputs_cascade :
    outputs (fun (s : σ × τ) i => out' s.2 (out s.1 i)) (cascade out step step') (s, t) l =
      outputs out' step' t (trace out step s l) := by
  induction l generalizing s t with
  | nil => rfl
  | cons i l ih =>
    rw [outputs_cons, trace_cons, outputs_cons]
    exact congrArg _ (ih (step s i) (step' t (out s i)))

end Cascade

/-! ## Protocols -/

/-- The cycles keep to a protocol: `allow` says which inputs may come in a phase,
`next` which phase follows. -/
def Follows {φ : Type} (allow : φ → ι → Prop) (next : φ → ι → φ) : φ → List ι → Prop
  | _, [] => True
  | p, i :: l => allow p i ∧ Follows allow next (next p i) l

section Protocol

variable {φ : Type} {allow : φ → ι → Prop} {next : φ → ι → φ}

theorem Follows.append {p : φ} {l m : List ι} (hl : Follows allow next p l)
    (hm : Follows allow next (run next p l) m) : Follows allow next p (l ++ m) := by
  induction l generalizing p with
  | nil => exact hm
  | cons i l ih => exact ⟨hl.1, ih hl.2 hm⟩

theorem Follows.left {p : φ} {l m : List ι} (h : Follows allow next p (l ++ m)) :
    Follows allow next p l := by
  induction l generalizing p with
  | nil => trivial
  | cons i l ih => exact ⟨h.1, ih h.2⟩

theorem Follows.right {p : φ} {l m : List ι} (h : Follows allow next p (l ++ m)) :
    Follows allow next (run next p l) m := by
  induction l generalizing p with
  | nil => exact h
  | cons i l ih => exact ih h.2

/-- **An invariant of the steps that the protocol allows** is one of every run that keeps
to it. -/
theorem Follows.invariant {I : φ → Prop} (hstep : ∀ p i, allow p i → I p → I (next p i)) {p : φ}
    {l : List ι} (hl : Follows allow next p l) (h : I p) : I (run next p l) := by
  induction l generalizing p with
  | nil => exact h
  | cons i l ih => exact ih hl.2 (hstep p i hl.1 h)

/-- Every run keeps to a protocol that allows what an invariant guarantees. -/
theorem Follows.of_invariant {I : φ → Prop} {A : ι → Prop}
    (hstep : ∀ p i, A i → I p → allow p i ∧ I (next p i)) {p : φ} (h : I p) {l : List ι}
    (hl : ∀ i ∈ l, A i) : Follows allow next p l := by
  induction l generalizing p with
  | nil => trivial
  | cons i l ih =>
    obtain ⟨hallow, hnext⟩ := hstep p i (hl i List.mem_cons_self) h
    exact ⟨hallow, ih hnext fun j hj => hl j (List.mem_cons_of_mem _ hj)⟩

instance Follows.decidable [∀ p i, Decidable (allow p i)] (p : φ) :
    (l : List ι) → Decidable (Follows allow next p l)
  | [] => isTrue trivial
  | i :: l =>
    have : Decidable (Follows allow next (next p i) l) := Follows.decidable (next p i) l
    inferInstanceAs (Decidable (_ ∧ _))

/-- **Related machines stay related and give the same outputs** while the inputs
keep to the protocol. -/
theorem Follows.simulation {step : σ → ι → σ} {step' : τ → ι → τ} {out : σ → ι → Option κ}
    {out' : τ → ι → Option κ} {R : φ → σ → τ → Prop}
    (hstep : ∀ p s t i, allow p i → R p s t →
      R (next p i) (step s i) (step' t i) ∧ out s i = out' t i)
    {p : φ} {s : σ} {t : τ} {l : List ι} (hl : Follows allow next p l) (h : R p s t) :
    R (run next p l) (run step s l) (run step' t l) ∧
      outputs out step s l = outputs out' step' t l := by
  induction l generalizing p s t with
  | nil => exact ⟨h, rfl⟩
  | cons i l ih =>
    obtain ⟨hnext, hout⟩ := hstep p s t i hl.1 h
    obtain ⟨hrun, houts⟩ := ih hl.2 hnext
    refine ⟨hrun, ?_⟩
    rw [outputs_cons, outputs_cons, hout, houts]

end Protocol

end PacketWyrm.Lib
