import Mathlib.Data.Fintype.Basic
import Mathlib.Data.List.FinRange
import Mathlib.Tactic.Common

/-!
# Wide vectors, seen as bits and as words

A register wider than the bus is written and compared word by word, and a bank
of one-bit comparators is read as one vector.  Here a wide vector and the
family of its pieces are two views of one value.

## Main definitions

* `ofBits f` — the vector whose bit `i` is `f i`.
* `packWords w` — the vector whose word `i` is `w i`, word 0 least significant.
* `wordAt x i` — word `i` of a vector.
* `putSlice x o v` — assign to a slice.

## Main results

* `wordAt_packWords`, `packWords_wordAt` — the two views are inverse.
* `packWords_and`, `packWords_inj` — packing commutes with masking, and two
  packed families are equal exactly when their words are.
* `ofBits_and_eq_iff` — "every cared-for bit is set" as one vector comparison.
-/

namespace PacketWyrm.Lib

variable {n m k : ℕ}

/-! ## Superimposing pieces -/

/-- The bitwise or of a list of vectors. -/
def orAll (l : List (BitVec n)) : BitVec n := l.foldr (· ||| ·) 0

theorem getLsbD_orAll (l : List (BitVec n)) (b : ℕ) :
    (orAll l).getLsbD b = l.any (fun x => x.getLsbD b) := by
  induction l with
  | nil => simp [orAll]
  | cons x xs ih =>
    rw [List.any_cons, ← ih]
    exact BitVec.getLsbD_or

/-- Differences that are gathered are zero when each of them is. -/
theorem foldl_or_eq_zero_iff {α : Type} (f : α → BitVec n) {l : List α} {d : BitVec n} :
    l.foldl (fun d i => d ||| f i) d = 0 ↔ d = 0 ∧ ∀ i ∈ l, f i = 0 := by
  induction l generalizing d with
  | nil => simp
  | cons i l ih =>
    rw [List.foldl_cons, ih, List.forall_mem_cons, ← and_assoc]
    exact and_congr_left fun _ => BitVec.or_eq_zero_iff

/-- `x` placed at bit `off` of a wider vector. -/
def placeAt (n : ℕ) (off : ℕ) (x : BitVec k) : BitVec n := x.setWidth n <<< off

theorem getLsbD_placeAt {off b : ℕ} (x : BitVec k) (hb : b < n) :
    (placeAt n off x).getLsbD b = (decide (off ≤ b) && x.getLsbD (b - off)) := by
  by_cases h : off ≤ b
  · have h' : ¬b < off := by omega
    simp [placeAt, hb, h, h']
  · simp [placeAt, h, show b < off by omega]

/-! ## Bits -/

/-- The vector whose bit `i` is `f i`. -/
def ofBits (f : Fin n → Bool) : BitVec n :=
  orAll ((List.finRange n).map fun i : Fin n => placeAt n i (BitVec.ofBool (f i)))

theorem getLsbD_ofBits (f : Fin n → Bool) (i : Fin n) :
    (ofBits f).getLsbD i = f i := by
  rw [ofBits, getLsbD_orAll, List.any_map, Bool.eq_iff_iff, List.any_eq_true]
  constructor
  · rintro ⟨j, -, hj⟩
    simp only [Function.comp_apply, getLsbD_placeAt _ i.isLt, Bool.and_eq_true,
      decide_eq_true_eq, BitVec.getLsbD_ofBool] at hj
    obtain rfl : j = i := Fin.ext (by omega)
    exact hj.2.2
  · intro hi
    refine ⟨i, List.mem_finRange i, ?_⟩
    rw [Function.comp_apply, getLsbD_placeAt _ i.isLt]
    simp [hi]

/-- A vector masked by `care` is `care` itself exactly when every bit that
`care` selects is set. -/
theorem ofBits_and_eq_iff (f : Fin n → Bool) (care : BitVec n) :
    ofBits f &&& care = care ↔ ∀ i : Fin n, care.getLsbD i = true → f i = true := by
  constructor
  · intro h i hi
    have hb : (ofBits f &&& care).getLsbD i = care.getLsbD i := by rw [h]
    rw [BitVec.getLsbD_and, getLsbD_ofBits, hi, Bool.and_true] at hb
    exact hb
  · intro h
    apply BitVec.eq_of_getLsbD_eq
    intro b hb
    rw [BitVec.getLsbD_and, show b = ((⟨b, hb⟩ : Fin n) : ℕ) from rfl, getLsbD_ofBits]
    cases hc : care.getLsbD b with
    | false => exact Bool.and_false _
    | true => rw [h ⟨b, hb⟩ hc, Bool.and_true]

/-- Comparing under a mask of the low `w` bits is comparing the low `w` bits. -/
theorem and_lowMask_beq {w : ℕ} (x y : BitVec n) (hw : w ≤ n) :
    (x &&& (BitVec.allOnes w).setWidth n == y &&& (BitVec.allOnes w).setWidth n) =
      (x.setWidth w == y.setWidth w) := by
  rw [Bool.eq_iff_iff, beq_iff_eq, beq_iff_eq]
  constructor
  · intro h
    apply BitVec.eq_of_getLsbD_eq
    intro i hi
    have hbit := congrArg (fun v => v.getLsbD i) h
    simpa [hi, show i < n by omega] using hbit
  · intro h
    apply BitVec.eq_of_getLsbD_eq
    intro i hi
    have hbit := congrArg (fun v => v.getLsbD i) h
    by_cases hiw : i < w
    · simpa [hi, hiw] using hbit
    · simp [hi, hiw]

/-- The bits of a field of `w` bits cut out of `x` and moved to bit `off`. -/
theorem getLsbD_field {w : ℕ} (x : BitVec n) (off : ℕ) {b : ℕ} (hb : b < n) :
    ((x &&& (BitVec.allOnes w).setWidth n) <<< off).getLsbD b =
      (decide (off ≤ b ∧ b < off + w) && x.getLsbD (b - off)) := by
  by_cases hoff : off ≤ b
  · have hlt : b - off < n := by omega
    by_cases hw : b < off + w
    · simp [hb, hoff, hlt, hw, show ¬b < off by omega, show b - off < w by omega]
    · simp [hb, hw, show ¬b - off < w by omega]
  · simp [hoff, show b < off by omega]

/-- Concatenations are equal exactly when their parts are. -/
theorem append_eq_append_iff {x x' : BitVec n} {y y' : BitVec m} :
    x ++ y = x' ++ y' ↔ x = x' ∧ y = y' := by
  constructor
  · intro h
    constructor
    · rw [← BitVec.extractLsb'_append_eq_left (a := x) (b := y), h,
        BitVec.extractLsb'_append_eq_left]
    · rw [← BitVec.setWidth_append_eq_right (a := x) (b := y), h,
        BitVec.setWidth_append_eq_right]
  · rintro ⟨rfl, rfl⟩
    rfl

/-! ## Words -/

/-- Word `i` of a vector of `n` words of `m` bits. -/
def wordAt (x : BitVec (n * m)) (i : Fin n) : BitVec m :=
  x.extractLsb' (i * m) m

/-- The vector with the words `w`, word 0 in the least significant bits. -/
def packWords (w : Fin n → BitVec m) : BitVec (n * m) :=
  orAll ((List.finRange n).map fun i : Fin n => placeAt (n * m) (i * m) (w i))

private theorem word_bit_lt {i : Fin n} {b : ℕ} (hb : b < m) : i * m + b < n * m := by
  calc i * m + b < i * m + m := by omega
    _ = (i + 1) * m := by rw [Nat.add_one_mul]
    _ ≤ n * m := Nat.mul_le_mul_right m i.isLt

/-- Bits of different words are in different places. -/
private theorem word_bit_inj {i j : Fin n} {b c : ℕ} (hb : b < m) (hc : c < m)
    (h : i * m + b = j * m + c) : i = j := by
  have hdiv : ∀ (i : Fin n) {b : ℕ}, b < m → (i * m + b) / m = i := by
    intro i b hb
    rw [Nat.mul_comm, Nat.mul_add_div (by omega), Nat.div_eq_of_lt hb, Nat.add_zero]
  apply Fin.ext
  rw [← hdiv i hb, h, hdiv j hc]

@[simp] theorem wordAt_packWords (w : Fin n → BitVec m) (i : Fin n) :
    wordAt (packWords w) i = w i := by
  apply BitVec.eq_of_getLsbD_eq
  intro b hb
  rw [wordAt, BitVec.getLsbD_extractLsb', packWords, getLsbD_orAll, List.any_map,
    Bool.eq_iff_iff]
  simp only [hb, decide_true, Bool.true_and, List.any_eq_true, Function.comp_apply,
    getLsbD_placeAt _ (word_bit_lt hb), Bool.and_eq_true, decide_eq_true_eq]
  constructor
  · rintro ⟨j, -, hle, hj⟩
    have hlt : i * m + b - j * m < m := by
      by_contra hge
      rw [BitVec.getLsbD_of_ge _ _ (by omega)] at hj
      exact absurd hj (by simp)
    obtain rfl : i = j := word_bit_inj hb hlt (by omega)
    simpa using hj
  · intro hi
    exact ⟨i, List.mem_finRange i, by omega, by simpa using hi⟩

/-- A vector is determined by its words. -/
theorem eq_of_wordAt_eq {x y : BitVec (n * m)} (h : ∀ i, wordAt x i = wordAt y i) : x = y := by
  apply BitVec.eq_of_getLsbD_eq
  intro b hb
  have hm : 0 < m := Nat.pos_of_ne_zero fun h0 => by simp [h0] at hb
  have hq : b / m < n := Nat.div_lt_of_lt_mul (by rwa [Nat.mul_comm])
  have hbit := congrArg (fun v => v.getLsbD (b % m)) (h ⟨b / m, hq⟩)
  have hpos : b / m * m + b % m = b := by rw [Nat.mul_comm]; exact Nat.div_add_mod b m
  simpa [wordAt, Nat.mod_lt b hm, hpos] using hbit

@[simp] theorem wordAt_and (x y : BitVec (n * m)) (i : Fin n) :
    wordAt (x &&& y) i = wordAt x i &&& wordAt y i := by
  simp [wordAt, BitVec.extractLsb'_and]

theorem packWords_and (v w : Fin n → BitVec m) :
    packWords v &&& packWords w = packWords fun i => v i &&& w i :=
  eq_of_wordAt_eq fun i => by simp

/-- The vector with word `i` replaced. -/
def setWord (x : BitVec (n * m)) (i : Fin n) (v : BitVec m) : BitVec (n * m) :=
  packWords (Function.update (wordAt x) i v)

@[simp] theorem wordAt_setWord (x : BitVec (n * m)) (i : Fin n) (v : BitVec m) :
    wordAt (setWord x i v) = Function.update (wordAt x) i v := by
  funext j
  exact wordAt_packWords _ j

/-- Writing every word leaves nothing of the old vector. -/
theorem foldl_setWord (w : Fin n → BitVec m) (x : BitVec (n * m)) :
    (List.finRange n).foldl (fun x i => setWord x i (w i)) x = packWords w := by
  -- a word that has been written stays as it is
  have hkeep : ∀ (l : List (Fin n)) (x : BitVec (n * m)) (j : Fin n),
      wordAt x j = w j ∨ j ∈ l → wordAt (l.foldl (fun x i => setWord x i (w i)) x) j = w j := by
    intro l
    induction l with
    | nil =>
      intro x j hj
      simpa using hj
    | cons i is ih =>
      intro x j hj
      apply ih
      rw [wordAt_setWord]
      by_cases hji : j = i
      · left
        rw [hji, Function.update_self]
      · rw [Function.update_of_ne hji]
        rcases hj with hj | hj
        · exact Or.inl hj
        · exact Or.inr (List.mem_of_ne_of_mem hji hj)
  apply eq_of_wordAt_eq
  intro j
  rw [wordAt_packWords]
  exact hkeep _ x j (Or.inr (List.mem_finRange j))

theorem packWords_inj {v w : Fin n → BitVec m} : packWords v = packWords w ↔ v = w := by
  constructor
  · intro h
    funext i
    simpa using congrArg (fun x => wordAt x i) h
  · rintro rfl
    rfl

/-! ## Slices -/

/-- Assign to the bits of `x` from bit `o` on. -/
def putSlice (x : BitVec n) (o : ℕ) (v : BitVec k) : BitVec n :=
  ofBits fun i : Fin n =>
    if o ≤ i.val ∧ i.val < o + k then v.getLsbD (i.val - o) else x.getLsbD i.val

theorem getLsbD_putSlice (x : BitVec n) (o : ℕ) (v : BitVec k) {b : ℕ} (hb : b < n) :
    (putSlice x o v).getLsbD b =
      if o ≤ b ∧ b < o + k then v.getLsbD (b - o) else x.getLsbD b :=
  getLsbD_ofBits _ (⟨b, hb⟩ : Fin n)

/-- A slice that was assigned reads back. -/
theorem extractLsb'_putSlice_self (x : BitVec n) {o : ℕ} (v : BitVec k) (h : o + k ≤ n) :
    (putSlice x o v).extractLsb' o k = v := by
  apply BitVec.eq_of_getLsbD_eq
  intro b hb
  rw [BitVec.getLsbD_extractLsb', getLsbD_putSlice _ _ _ (by omega), if_pos (by omega),
    Nat.add_sub_cancel_left]
  simp [hb]

/-- The bits outside it stay. -/
theorem extractLsb'_putSlice_of_disjoint (x : BitVec n) {o a w : ℕ} (v : BitVec k)
    (h : a + w ≤ o ∨ o + k ≤ a) :
    (putSlice x o v).extractLsb' a w = x.extractLsb' a w := by
  apply BitVec.eq_of_getLsbD_eq
  intro b hb
  rw [BitVec.getLsbD_extractLsb', BitVec.getLsbD_extractLsb']
  by_cases hn : a + b < n
  · rw [getLsbD_putSlice _ _ _ hn, if_neg (by omega)]
  · rw [BitVec.getLsbD_of_ge _ _ (by omega), BitVec.getLsbD_of_ge _ _ (by omega)]

end PacketWyrm.Lib
