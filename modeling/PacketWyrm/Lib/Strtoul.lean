import Mathlib.Algebra.GroupWithZero.Nat
import Mathlib.Data.List.TakeWhile

/-!
# Decimal numbers as the C library reads them

`strtoul` in base 10 on a 64-bit machine: leading white space, an optional sign, the longest run
of digits.  A number behind a minus sign is negated in the unsigned type, a number that does not
fit gives the greatest one, and without a digit nothing is consumed and the value is 0.

## Main definitions

* `strtoul` — the value, the text that is left, and whether the number was out of range.
* `IsNumeral` — white space, a sign and digits.

## Main results

* `strtoul_numeral` — a numeral is read up to its last digit.
* `strtoul_rest_iff` — what is read to its end: a numeral, or the empty text.
-/

namespace PacketWyrm.Lib

/-- `isspace` in the C locale. -/
def isSpace (b : BitVec 8) : Bool := b == 0x20 || (0x09 ≤ b.toNat && b.toNat ≤ 0x0D)

/-- `isdigit`. -/
def isDigit (b : BitVec 8) : Bool := 0x30 ≤ b.toNat && b.toNat ≤ 0x39

/-- The number that some digits make. -/
def decimal (ds : List (BitVec 8)) : ℕ := ds.foldl (fun n b => 10 * n + (b.toNat - 0x30)) 0

/-- The sign of a number. -/
inductive Sign where
  | none
  | plus
  | minus
  deriving DecidableEq

namespace Sign

def text : Sign → List (BitVec 8)
  | none => []
  | plus => [0x2B]
  | minus => [0x2D]

/-- The signed number, in the unsigned type. -/
def value : Sign → ℕ → ℕ
  | minus, n => (2 ^ 64 - n) % 2 ^ 64
  | _, n => n

/-- The sign that a text begins with. -/
def read : List (BitVec 8) → Sign
  | b :: _ => if b = 0x2B then plus else if b = 0x2D then minus else none
  | [] => none

end Sign

/-- What `strtoul` makes of a text. -/
structure Strtoul where
  value : ℕ
  /-- the text from `*endptr` on -/
  rest : List (BitVec 8)
  /-- `errno` is `ERANGE` -/
  erange : Bool
  deriving DecidableEq

/-- `strtoul` and `strtoull` in base 10. -/
def strtoul (s : List (BitVec 8)) : Strtoul :=
  let t := s.dropWhile isSpace
  let sign := Sign.read t
  let u := t.drop sign.text.length
  let ds := u.takeWhile isDigit
  let rest := u.dropWhile isDigit
  if ds = [] then { value := 0, rest := s, erange := false }
  else if 2 ^ 64 ≤ decimal ds then { value := 2 ^ 64 - 1, rest, erange := true }
  else { value := sign.value (decimal ds), rest, erange := false }

/-- White space, a sign, and at least one digit. -/
structure IsNumeral (blanks : List (BitVec 8)) (sign : Sign) (ds : List (BitVec 8)) : Prop where
  blanks : ∀ b ∈ blanks, isSpace b = true
  digits : ∀ b ∈ ds, isDigit b = true
  ne_nil : ds ≠ []

/-! ## Reading a numeral -/

theorem not_isSpace_of_isDigit {b : BitVec 8} (h : isDigit b = true) : isSpace b = false := by
  simp only [isDigit, Bool.and_eq_true, decide_eq_true_eq] at h
  have hne : b ≠ 0x20 := by
    rintro rfl
    simp at h
  simp only [isSpace, Bool.or_eq_false_iff, beq_eq_false_iff_ne, Bool.and_eq_false_iff,
    decide_eq_false_iff_not]
  exact ⟨hne, Or.inr (by omega)⟩

theorem sign_ne_of_isDigit {b : BitVec 8} (h : isDigit b = true) : b ≠ 0x2B ∧ b ≠ 0x2D := by
  constructor <;>
  · rintro rfl
    revert h
    decide

theorem Sign.read_cons_of_isDigit {b : BitVec 8} (h : isDigit b = true) (r : List (BitVec 8)) :
    Sign.read (b :: r) = .none := by
  obtain ⟨hplus, hminus⟩ := sign_ne_of_isDigit h
  rw [Sign.read, if_neg hplus, if_neg hminus]

theorem Sign.read_text (sign : Sign) {b : BitVec 8} (h : isDigit b = true) (r : List (BitVec 8)) :
    Sign.read (sign.text ++ b :: r) = sign := by
  cases sign with
  | none => exact Sign.read_cons_of_isDigit h r
  | plus => rfl
  | minus => rfl

/-- White space ends where the sign or the first digit stands. -/
theorem dropWhile_isSpace_numeral {blanks ds : List (BitVec 8)} {sign : Sign}
    (h : IsNumeral blanks sign ds) (r : List (BitVec 8)) :
    (blanks ++ (sign.text ++ (ds ++ r))).dropWhile isSpace = sign.text ++ (ds ++ r) := by
  rw [List.dropWhile_append_of_pos h.blanks]
  obtain ⟨d, ds', rfl⟩ := List.exists_cons_of_ne_nil h.ne_nil
  have hd := not_isSpace_of_isDigit (h.digits d List.mem_cons_self)
  cases sign with
  | none => simp [Sign.text, hd]
  | plus => rfl
  | minus => rfl

/-- **A numeral is read up to its last digit.** -/
theorem strtoul_numeral {blanks ds r : List (BitVec 8)} {sign : Sign}
    (h : IsNumeral blanks sign ds) (hr : ∀ b ∈ r.head?, isDigit b = false) :
    strtoul (blanks ++ (sign.text ++ (ds ++ r))) =
      if 2 ^ 64 ≤ decimal ds then { value := 2 ^ 64 - 1, rest := r, erange := true }
      else { value := sign.value (decimal ds), rest := r, erange := false } := by
  have hsign : Sign.read (sign.text ++ (ds ++ r)) = sign := by
    obtain ⟨d, ds', rfl⟩ := List.exists_cons_of_ne_nil h.ne_nil
    exact Sign.read_text sign (h.digits d List.mem_cons_self) (ds' ++ r)
  have hstop : r.takeWhile isDigit = [] ∧ r.dropWhile isDigit = r := by
    cases r with
    | nil => exact ⟨rfl, rfl⟩
    | cons b r =>
      have hb := hr b rfl
      simp [hb]
  have htake : (ds ++ r).takeWhile isDigit = ds := by
    rw [List.takeWhile_append_of_pos h.digits, hstop.1, List.append_nil]
  have hdrop : (ds ++ r).dropWhile isDigit = r := by
    rw [List.dropWhile_append_of_pos h.digits, hstop.2]
  simp only [strtoul, dropWhile_isSpace_numeral h, hsign, List.drop_left, htake, hdrop]
  rw [if_neg h.ne_nil]

/-- What `strtoul` consumed, when it consumed anything. -/
theorem exists_numeral_of_rest {s : List (BitVec 8)} (h : (strtoul s).rest ≠ s) :
    ∃ blanks sign ds, IsNumeral blanks sign ds ∧
      s = blanks ++ (sign.text ++ (ds ++ (strtoul s).rest)) := by
  set t := s.dropWhile isSpace with ht
  set u := t.drop (Sign.read t).text.length with hu
  have hne : u.takeWhile isDigit ≠ [] := by
    intro hnil
    apply h
    simp only [strtoul, ← ht, ← hu, hnil, if_pos]
  have hrest : (strtoul s).rest = u.dropWhile isDigit := by
    simp only [strtoul, ← ht, ← hu]
    rw [if_neg hne]
    split <;> rfl
  have hsign : t = (Sign.read t).text ++ u := by
    rw [hu]
    match t with
    | [] => rfl
    | b :: r =>
      rw [Sign.read]
      split
      · next hb =>
        subst hb
        rfl
      · split
        · next hb =>
          subst hb
          rfl
        · rfl
  refine ⟨s.takeWhile isSpace, Sign.read t, u.takeWhile isDigit, ⟨?_, ?_, hne⟩, ?_⟩
  · intro b hb
    exact List.mem_takeWhile_imp hb
  · intro b hb
    exact List.mem_takeWhile_imp hb
  · rw [hrest, List.takeWhile_append_dropWhile, ← hsign, ht, List.takeWhile_append_dropWhile]

/-- **What is read to its end**: nothing at all, or a numeral. -/
theorem strtoul_rest_iff {s : List (BitVec 8)} :
    (strtoul s).rest = [] ↔
      s = [] ∨ ∃ blanks sign ds, IsNumeral blanks sign ds ∧ s = blanks ++ (sign.text ++ ds) := by
  constructor
  · intro h
    by_cases hs : s = []
    · exact Or.inl hs
    · obtain ⟨blanks, sign, ds, hnum, heq⟩ := exists_numeral_of_rest (s := s) (by
        rw [h]
        exact fun e => hs e.symm)
      rw [h, List.append_nil] at heq
      exact Or.inr ⟨blanks, sign, ds, hnum, heq⟩
  · rintro (rfl | ⟨blanks, sign, ds, hnum, rfl⟩)
    · rfl
    · have := strtoul_numeral (r := []) hnum (by simp)
      rw [List.append_nil] at this
      rw [this]
      split <;> rfl

end PacketWyrm.Lib
