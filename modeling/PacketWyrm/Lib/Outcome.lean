import Mathlib.Tactic.Common

/-!
# Programs that change a state and may stop

A driver routine reads and writes the state of a device, and returns early when an access fails.
As a Lean function it is a state transformer in `Except`.  One judgment serves both partial and
total correctness: `Post E Q` asks for `Q` of the result and the state when there is a result,
and for `E` when there is none.  With `E := False` the routine must not fail; with `E := True`
nothing is said about a failure; and with `E` a property of the environment it says when the
routine can fail.

## Main definitions

* `Act` — a routine.
* `Post` — what is asked of the outcome of a routine.

## Main results

* `Post.bind` — routines in sequence.
* `Post.ite_throw` — an early return.
* `exists_of_post` — a routine that must not fail has a result.
-/

namespace PacketWyrm.Lib

variable {σ ε α β : Type} {E : Prop}

/-- A routine over the state `σ`. -/
abbrev Act (σ ε α : Type) := StateT σ (Except ε) α

/-- What is asked of an outcome: `Q` of a result, `E` of a failure. -/
def Post (E : Prop) (Q : α → σ → Prop) : Except ε (α × σ) → Prop
  | .ok (a, s) => Q a s
  | .error _ => E

theorem post_pure {Q : α → σ → Prop} {a : α} {s : σ} (h : Q a s) :
    Post E Q ((pure a : Act σ ε α) s) := h

theorem post_throw {Q : α → σ → Prop} {e : ε} {s : σ} (h : E) :
    Post E Q ((throw e : Act σ ε α) s) := h

/-- **Routines in sequence**: what the first one leaves is what the second one starts from. -/
theorem Post.bind {x : Act σ ε α} {f : α → Act σ ε β} {Q : α → σ → Prop} {R : β → σ → Prop}
    {s : σ} (h : Post E Q (x s)) (hf : ∀ a s', Q a s' → Post E R (f a s')) :
    Post E R ((x >>= f) s) := by
  have hbind : (x >>= f) s = x s >>= fun p => f p.1 p.2 := rfl
  rw [hbind]
  cases hx : x s with
  | error e =>
    rw [hx] at h
    exact h
  | ok p =>
    rw [hx] at h
    exact hf p.1 p.2 h

/-- Less may be asked. -/
theorem Post.mono {r : Except ε (α × σ)} {Q R : α → σ → Prop} (h : Post E Q r)
    (hQR : ∀ a s, Q a s → R a s) : Post E R r := by
  cases r with
  | error e => exact h
  | ok p => exact hQR p.1 p.2 h

/-- Two branches. -/
theorem Post.ite {c : Prop} [Decidable c] {x y : Act σ ε α} {Q : α → σ → Prop} {s : σ}
    (h : c → Post E Q (x s)) (h' : ¬c → Post E Q (y s)) :
    Post E Q ((if c then x else y : Act σ ε α) s) := by
  by_cases hc : c
  · rw [if_pos hc]
    exact h hc
  · rw [if_neg hc]
    exact h' hc

/-- An early return, and what follows when it is not taken. -/
theorem Post.ite_throw {c : Prop} [Decidable c] {e : ε} {x : Act σ ε α} {Q : α → σ → Prop} {s : σ}
    (hE : c → E) (h : ¬c → Post E Q (x s)) :
    Post E Q ((if c then throw e else x : Act σ ε α) s) :=
  Post.ite (fun hc => post_throw (hE hc)) h

/-- What is asked holds of a result that is there. -/
theorem Post.of_eq_ok {r : Except ε (α × σ)} {Q : α → σ → Prop} {a : α} {s : σ} (h : Post E Q r)
    (hr : r = .ok (a, s)) : Q a s := by
  rw [hr] at h
  exact h

/-- A routine that must not fail has a result. -/
theorem exists_of_post {r : Except ε (α × σ)} {Q : α → σ → Prop} (h : Post False Q r) :
    ∃ a s, r = .ok (a, s) ∧ Q a s := by
  cases r with
  | error e => exact absurd h id
  | ok p => exact ⟨p.1, p.2, rfl, h⟩

end PacketWyrm.Lib
