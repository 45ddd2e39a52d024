import PacketWyrm.Lib.Clocked

/-!
# Channels with a handshake

The sending side of a channel with `valid` and `ready`.  What is offered goes over in a cycle in
which both are high, and until then an offer stands: it is neither withdrawn nor changed.  The
rule is built into the sender here, so that there is no sender that breaks it.

## Main definitions

* `Sender` — what is still to go over, and whether the first of it is on offer.
* `Sender.offer`, `Sender.step` — a cycle, with the sender's choice to make an offer.

## Main results

* `Sender.todo_eq` — what goes over is the first of what is still to go.
* `Sender.offer_of_stood` — an offer that was not taken is there in the next cycle.
-/

namespace PacketWyrm.Lib

/-- The sending side of a channel. -/
structure Sender (α : Type) where
  todo : List α
  offering : Bool := false
  deriving Repr

namespace Sender

variable {α : Type} (s : Sender α) (go ready : Bool)

/-- What is offered in a cycle: an offer that was made stands, and `go` makes one. -/
def offer : Option α := if s.offering || go then s.todo.head? else none

/-- What goes over. -/
def sent : Option α := if ready then s.offer go else none

/-- One cycle. -/
def step : Sender α :=
  match s.offer go with
  | none => s
  | some _ => if ready then { todo := s.todo.tail } else { s with offering := true }

variable {s go ready} {a : α} {l : List α}

/-- What is offered is the first. -/
theorem todo_of_offer (h : s.offer go = some a) : s.todo = a :: s.todo.tail := by
  rw [offer] at h
  split at h
  · exact (List.cons_head?_tail h).symm
  · cases h

/-- Who wants to offer has an offer to make, unless all has gone over. -/
theorem offer_true (h : s.todo = a :: l) : s.offer true = some a := by
  rw [offer, Bool.or_true, if_pos rfl, h, List.head?_cons]

/-- An offer that stands. -/
theorem offer_of_offering (hoff : s.offering = true) (h : s.todo = a :: l) (go : Bool) :
    s.offer go = some a := by
  rw [offer, hoff, Bool.true_or, if_pos rfl, h, List.head?_cons]

theorem step_of_none (h : s.offer go = none) (ready : Bool) : s.step go ready = s := by
  rw [step, h]

theorem step_of_ready (h : s.offer go = some a) : s.step go true = { todo := s.todo.tail } := by
  rw [step, h]
  rfl

theorem step_of_wait (h : s.offer go = some a) :
    s.step go false = { s with offering := true } := by
  rw [step, h]
  rfl

/-- Nothing goes over while the other side is not ready. -/
theorem todo_step_false : (s.step go false).todo = s.todo := by
  cases h : s.offer go with
  | none => rw [step_of_none h]
  | some a => rw [step_of_wait h]

/-- **What goes over is the first of what is still to go.** -/
theorem todo_eq : s.todo = (s.sent go ready).toList ++ (s.step go ready).todo := by
  cases ready with
  | false => rw [todo_step_false]; rfl
  | true =>
    cases h : s.offer go with
    | none => rw [step_of_none h, sent, if_pos rfl, h]; rfl
    | some a => rw [step_of_ready h, sent, if_pos rfl, h, todo_of_offer h]; rfl

/-- **An offer that was not taken is there in the next cycle.** -/
theorem offer_of_stood (h : s.offer go = some a) (go' : Bool) :
    (s.step go false).offer go' = some a := by
  have htodo : s.todo = a :: s.todo.tail := todo_of_offer h
  rw [step_of_wait h]
  exact offer_of_offering (s := { s with offering := true }) rfl htodo go'

end Sender

end PacketWyrm.Lib
