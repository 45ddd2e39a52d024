import PacketWyrm.Lib.Clocked
import Mathlib.Logic.Function.Basic

/-!
# Threads over shared state

Threads run sequential programs whose only effects are atomic operations on a shared
state.  A run is a list of events in any order: the environment moves, a thread calls a
program, a thread does its next operation.

## Main definitions

* `Prog` — a sequential program, a tree of operations.
* `Threads.step` — one event.
* `Threads.Pending` — a call that is going to return.

## Main results

* `Threads.Pending.op` — where the next operation of a pending call is done, and that the
  call is pending with the rest of its program from there on.
-/

namespace PacketWyrm.Lib

/-- A sequential program: operations of `ω`, each with an answer of `ρ`, and a result. -/
inductive Prog (ω ρ α : Type) where
  /-- The program has returned. -/
  | ret (a : α)
  /-- It does an operation and goes on with the answer. -/
  | op (o : ω) (next : ρ → Prog ω ρ α)

namespace Prog

variable {ω ρ α β : Type}

/-- One program after the other. -/
def bind : Prog ω ρ α → (α → Prog ω ρ β) → Prog ω ρ β
  | .ret a, f => f a
  | .op o next, f => .op o fun r => (next r).bind f

instance : Monad (Prog ω ρ) where
  pure := .ret
  bind := Prog.bind

/-- The program of one operation. -/
def perform (o : ω) : Prog ω ρ ρ := .op o .ret

@[simp] theorem perform_bind (o : ω) (f : ρ → Prog ω ρ α) : perform o >>= f = .op o f := rfl

/-- What a program has returned. -/
def result : Prog ω ρ α → Option α
  | .ret a => some a
  | .op _ _ => none

@[simp] theorem result_ret (a : α) : (ret a : Prog ω ρ α).result = some a := rfl

@[simp] theorem result_op (o : ω) (f : ρ → Prog ω ρ α) : (op o f).result = none := rfl

end Prog

/-- What happens next. -/
inductive ThreadEvent (κ ε ω ρ α : Type) where
  /-- The environment moves. -/
  | env (e : ε)
  /-- A thread that is in no call calls a program. -/
  | call (k : κ) (p : Prog ω ρ α)
  /-- A thread does its next operation. -/
  | move (k : κ)

/-- The event is a call of this thread. -/
def ThreadEvent.calls {κ ε ω ρ α : Type} (k : κ) : ThreadEvent κ ε ω ρ α → Prop
  | .call k' _ => k' = k
  | _ => False

instance {κ ε ω ρ α : Type} [DecidableEq κ] (k : κ) :
    (e : ThreadEvent κ ε ω ρ α) → Decidable (e.calls k)
  | .call k' _ => inferInstanceAs (Decidable (k' = k))
  | .env _ => inferInstanceAs (Decidable False)
  | .move _ => inferInstanceAs (Decidable False)

/-- The shared state and what each thread has still to do. -/
structure Threads (κ σ ω ρ α : Type) where
  shared : σ
  prog : κ → Prog ω ρ α

namespace Threads

variable {κ σ ε ω ρ α : Type} [DecidableEq κ]

section Step

variable (exec : ω → σ → ρ × σ) (env : ε → σ → σ) (s : Threads κ σ ω ρ α)

/-- One event. -/
def step : ThreadEvent κ ε ω ρ α → Threads κ σ ω ρ α
  | .env e => { s with shared := env e s.shared }
  | .call k p => if (s.prog k).result.isSome then { s with prog := Function.update s.prog k p } else s
  | .move k =>
    match s.prog k with
    | .ret _ => s
    | .op o next =>
      { shared := (exec o s.shared).2
        prog := Function.update s.prog k (next (exec o s.shared).1) }

@[simp] theorem step_env (e : ε) :
    s.step exec env (.env e) = { s with shared := env e s.shared } := rfl

@[simp] theorem step_call_shared (k : κ) (p : Prog ω ρ α) :
    (s.step exec env (.call k p)).shared = s.shared := by
  simp only [step]
  split <;> rfl

theorem step_call_prog {k : κ} (h : (s.prog k).result.isSome) (p : Prog ω ρ α) :
    (s.step exec env (.call k p)).prog k = p := by
  simp only [step, if_pos h, Function.update_self]

theorem step_move_ret {k : κ} {a : α} (h : s.prog k = .ret a) :
    s.step exec env (.move k) = s := by
  simp only [step, h]

theorem step_move_op {k : κ} {o : ω} {next : ρ → Prog ω ρ α} (h : s.prog k = .op o next) :
    s.step exec env (.move k) =
      { shared := (exec o s.shared).2
        prog := Function.update s.prog k (next (exec o s.shared).1) } := by
  simp only [step, h]

/-- A thread moves the shared state by an operation or not at all. -/
theorem step_move_shared (k : κ) :
    (s.step exec env (.move k)).shared = s.shared ∨
      ∃ o, (s.step exec env (.move k)).shared = (exec o s.shared).2 := by
  cases h : s.prog k with
  | ret a => exact .inl (by rw [step_move_ret exec env s h])
  | op o next => exact .inr ⟨o, by rw [step_move_op exec env s h]⟩

/-- A thread in a call keeps its program until it moves. -/
theorem step_prog_of_ne {k : κ} {e : ThreadEvent κ ε ω ρ α} (hcall : ¬ e.calls k)
    (hmove : e ≠ .move k) : (s.step exec env e).prog k = s.prog k := by
  cases e with
  | env e => rfl
  | call k' p =>
    have hk : k ≠ k' := fun h => hcall h.symm
    simp only [step]
    split
    · exact Function.update_of_ne hk _ _
    · rfl
  | move k' =>
    have hk : k ≠ k' := fun h => hmove (by rw [h])
    cases h : s.prog k' with
    | ret a => rw [step_move_ret exec env s h]
    | op o next =>
      rw [step_move_op exec env s h]
      exact Function.update_of_ne hk _ _

end Step

/-- A call of thread `k` that has `p` still to do and returns `a` within the events. -/
structure Pending (exec : ω → σ → ρ × σ) (env : ε → σ → σ) (k : κ) (a : α)
    (s : Threads κ σ ω ρ α) (p : Prog ω ρ α) (l : List (ThreadEvent κ ε ω ρ α)) : Prop where
  /-- What is still to do. -/
  prog_eq : s.prog k = p
  /-- It is one call. -/
  no_call : ∀ e ∈ l, ¬ e.calls k
  /-- It returns. -/
  returns : ((run (step exec env) s l).prog k).result = some a

namespace Pending

variable {exec : ω → σ → ρ × σ} {env : ε → σ → σ} {k : κ} {a : α} {s : Threads κ σ ω ρ α}
  {l : List (ThreadEvent κ ε ω ρ α)}

/-- What has been returned stays. -/
theorem eq_of_ret {b : α} (h : Pending exec env k a s (.ret b) l) : b = a := by
  have hstep : ∀ (t : Threads κ σ ω ρ α) (e : ThreadEvent κ ε ω ρ α), ¬ e.calls k →
      t.prog k = .ret b → (t.step exec env e).prog k = .ret b := by
    intro t e he ht
    by_cases hmove : e = .move k
    · rw [hmove, step_move_ret exec env t ht, ht]
    · rw [step_prog_of_ne exec env t he hmove, ht]
  have hkeep := run_invariant (I := fun t : Threads κ σ ω ρ α => t.prog k = .ret b) hstep
    h.prog_eq h.no_call
  have hret := h.returns
  rw [hkeep, Prog.result_ret] at hret
  exact Option.some.inj hret

/-- **The next operation of a pending call**: the thread moves at some point, the shared
state there gives the answer, and the rest of the call is pending. -/
theorem op {o : ω} {next : ρ → Prog ω ρ α} (h : Pending exec env k a s (.op o next) l) :
    ∃ before after, l = before ++ .move k :: after ∧
      let t := run (step exec env) s before
      (t.step exec env (.move k)).shared = (exec o t.shared).2 ∧
      Pending exec env k a (t.step exec env (.move k)) (next (exec o t.shared).1) after := by
  induction l generalizing s with
  | nil =>
    have hret := h.returns
    rw [run_nil, h.prog_eq] at hret
    cases hret
  | cons e l ih =>
    have hrest : ∀ e' ∈ l, ¬ e'.calls k := fun e' he' => h.no_call e' (List.mem_cons_of_mem _ he')
    by_cases hmove : e = .move k
    · subst hmove
      have hstep := step_move_op exec env s h.prog_eq
      refine ⟨[], l, rfl, by rw [run_nil, hstep], ?_, hrest, h.returns⟩
      rw [run_nil, hstep]
      exact Function.update_self ..
    · have hprog : (s.step exec env e).prog k = .op o next := by
        rw [step_prog_of_ne exec env s (h.no_call e List.mem_cons_self) hmove, h.prog_eq]
      obtain ⟨before, after, rfl, hshared, hpend⟩ := ih ⟨hprog, hrest, h.returns⟩
      exact ⟨e :: before, after, rfl, hshared, hpend⟩

end Pending

end Threads

end PacketWyrm.Lib
