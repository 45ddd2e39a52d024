import Mathlib.Data.List.Chain
import Mathlib.Tactic.Common

/-!
# Double-quoted scalars

What a YAML reader makes of the text between two double quotes.  A backslash and a quote are
written behind a backslash.  White space that has a line break in it is folded: the blanks in it
are dropped, and its first break becomes a space, or nothing when another break follows; the
breaks U+2028 and U+2029 are kept.  A line must not look like the marker of a document.  Texts
that are not UTF-8, or have characters that do not print, are not read at all.

Only the two escapes that `escape` writes are described here.

## Main definitions

* `readable` — what a reader takes in.
* `escape`, `unescape` — the escapes of a backslash and a quote.
* `pieces`, `foldText` — line breaks and what becomes of them.
* `quotedValue` — the content of a double-quoted scalar.
* `Unfolded` — a text whose breaks all stay.

## Main results

* `unescape_escape` — escapes are undone.
* `foldText_eq_iff` — what is read is the text itself just when its breaks all stay.
* `eq_of_foldText_solid` — a content without breaks and spaces is the text itself.
-/

namespace PacketWyrm.Lib

/-! ## Characters -/

/-- Code points that may stand in a text. -/
def printable (c : ℕ) : Bool :=
  c = 0x09 || c = 0x0A || c = 0x0D || (0x20 ≤ c && c ≤ 0x7E) || c = 0x85 ||
    (0xA0 ≤ c && c ≤ 0xD7FF) || (0xE000 ≤ c && c ≤ 0xFFFD) ||
    (0x10000 ≤ c && c ≤ 0x10FFFF)

/-- A byte that goes on with a code point. -/
def continues (b : BitVec 8) : Bool := 0x80 ≤ b.toNat && b.toNat < 0xC0

/-- The bytes of the code point that a text begins with, if it may stand there. -/
def codeLength (a : BitVec 8) (r : List (BitVec 8)) : Option ℕ :=
  let b := r.getD 0 0
  let b' := r.getD 1 0
  let b'' := r.getD 2 0
  if a.toNat < 0x80 then if printable a.toNat then some 1 else none
  else if 0xC0 ≤ a.toNat ∧ a.toNat < 0xE0 then
    let c := a.toNat % 32 * 64 + b.toNat % 64
    if continues b ∧ 0x80 ≤ c ∧ printable c then some 2 else none
  else if 0xE0 ≤ a.toNat ∧ a.toNat < 0xF0 then
    let c := (a.toNat % 16 * 64 + b.toNat % 64) * 64 + b'.toNat % 64
    if continues b ∧ continues b' ∧ 0x800 ≤ c ∧ printable c then some 3 else none
  else if 0xF0 ≤ a.toNat ∧ a.toNat < 0xF8 then
    let c := ((a.toNat % 8 * 64 + b.toNat % 64) * 64 + b'.toNat % 64) * 64 + b''.toNat % 64
    if continues b ∧ continues b' ∧ continues b'' ∧ 0x10000 ≤ c ∧ printable c then some 4 else none
  else none

/-- The rest of a text, when `n` bytes of it still belong to a code point. -/
def readableFrom : ℕ → List (BitVec 8) → Bool
  | _, [] => true
  | 0, a :: r =>
    match codeLength a r with
    | some w => readableFrom (w - 1) r
    | none => false
  | n + 1, _ :: r => readableFrom n r

/-- UTF-8, without overlong forms, and printable. -/
def readable (t : List (BitVec 8)) : Bool := readableFrom 0 t

theorem ne_zero_of_continues {b : BitVec 8} (h : continues b = true) : b ≠ 0 := by
  rintro rfl
  cases h

/-- A code point is not the null character, and none of its other bytes is zero. -/
theorem codeLength_some {a : BitVec 8} {r : List (BitVec 8)} {w : ℕ} (h : codeLength a r = some w) :
    a ≠ 0 ∧ ∀ i < w - 1, r.getD i 0 ≠ 0 := by
  have ha : a ≠ 0 := by
    rintro rfl
    cases h
  refine ⟨ha, ?_⟩
  rw [codeLength] at h
  dsimp only at h
  split_ifs at h with h₁ h₁' h₂ h₂' h₃ h₃' h₄ h₄' <;> obtain rfl := Option.some.inj h
  · intro i hi
    exact absurd hi (Nat.not_lt_zero i)
  · intro i hi
    obtain rfl : i = 0 := by omega
    exact ne_zero_of_continues h₂'.1
  · intro i hi
    obtain rfl | rfl : i = 0 ∨ i = 1 := by omega
    · exact ne_zero_of_continues h₃'.1
    · exact ne_zero_of_continues h₃'.2.1
  · intro i hi
    obtain rfl | rfl | rfl : i = 0 ∨ i = 1 ∨ i = 2 := by omega
    · exact ne_zero_of_continues h₄'.1
    · exact ne_zero_of_continues h₄'.2.1
    · exact ne_zero_of_continues h₄'.2.2.1

theorem zero_notMem_of_readableFrom {n : ℕ} {t : List (BitVec 8)} (h : readableFrom n t = true)
    (hn : ∀ i < n, i < t.length → t.getD i 0 ≠ 0) : 0 ∉ t := by
  induction t generalizing n with
  | nil => exact List.not_mem_nil
  | cons a r ih =>
    cases n with
    | zero =>
      rw [readableFrom] at h
      cases hw : codeLength a r with
      | none =>
        rw [hw] at h
        cases h
      | some w =>
        rw [hw] at h
        obtain ⟨ha, hr⟩ := codeLength_some hw
        exact List.not_mem_cons_of_ne_of_not_mem (Ne.symm ha) (ih h fun i hi _ => hr i hi)
    | succ n =>
      have ha : a ≠ 0 := hn 0 (Nat.succ_pos n) (Nat.succ_pos _)
      refine List.not_mem_cons_of_ne_of_not_mem (Ne.symm ha) (ih h fun i hi hir => ?_)
      exact hn (i + 1) (Nat.succ_lt_succ hi) (Nat.succ_lt_succ hir)

/-- The null character does not print. -/
theorem zero_notMem_of_readable {t : List (BitVec 8)} (h : readable t = true) : 0 ∉ t :=
  zero_notMem_of_readableFrom h fun i hi => absurd hi (Nat.not_lt_zero i)

/-! ## Escapes -/

/-- A backslash. -/
def backslash : BitVec 8 := 0x5C

/-- A double quote. -/
def quote : BitVec 8 := 0x22

/-- Backslashes and quotes behind a backslash. -/
def escape (s : List (BitVec 8)) : List (BitVec 8) :=
  s.flatMap fun b => if b = backslash ∨ b = quote then [backslash, b] else [b]

/-- The text that `escape` has written; `behind` a backslash or not. -/
def unescapeFrom : Bool → List (BitVec 8) → Option (List (BitVec 8))
  | false, [] => some []
  | true, [] => none
  | true, b :: r =>
    if b = backslash ∨ b = quote then (unescapeFrom false r).map (b :: ·) else none
  | false, b :: r =>
    if b = backslash then unescapeFrom true r
    else if b = quote then none
    else (unescapeFrom false r).map (b :: ·)

/-- The text that `escape` has written. -/
def unescape (t : List (BitVec 8)) : Option (List (BitVec 8)) := unescapeFrom false t

/-- **Escapes are undone.** -/
theorem unescape_escape (s : List (BitVec 8)) : unescape (escape s) = some s := by
  rw [unescape]
  induction s with
  | nil => rfl
  | cons b s ih =>
    rw [escape, List.flatMap_cons, ← escape]
    by_cases hb : b = backslash ∨ b = quote
    · rw [if_pos hb, List.cons_append, List.cons_append, List.nil_append, unescapeFrom, if_pos rfl,
        unescapeFrom, if_pos hb, ih]
      rfl
    · rw [if_neg hb, List.cons_append, List.nil_append, unescapeFrom, if_neg fun h => hb (.inl h),
        if_neg fun h => hb (.inr h), ih]
      rfl

/-! ## Line breaks -/

/-- The line breaks. -/
inductive Break where
  | lf
  | cr
  | crlf
  | nel
  | ls
  | ps
  deriving DecidableEq

/-- A break as it is written. -/
def Break.raw : Break → List (BitVec 8)
  | lf => [0x0A]
  | cr => [0x0D]
  | crlf => [0x0D, 0x0A]
  | nel => [0xC2, 0x85]
  | ls => [0xE2, 0x80, 0xA8]
  | ps => [0xE2, 0x80, 0xA9]

/-- A break as it is kept. -/
def Break.copy : Break → List (BitVec 8)
  | ls => [0xE2, 0x80, 0xA8]
  | ps => [0xE2, 0x80, 0xA9]
  | _ => [0x0A]

/-- A text in pieces. -/
inductive Piece where
  | char (b : BitVec 8)
  | blank (b : BitVec 8)
  | brk (k : Break)
  deriving DecidableEq

/-- A piece as it is written. -/
def Piece.raw : Piece → List (BitVec 8)
  | char b => [b]
  | blank b => [b]
  | brk k => k.raw

/-- The piece that a text begins with. -/
def headPiece (a : BitVec 8) (r : List (BitVec 8)) : Piece :=
  if a = 0x20 ∨ a = 0x09 then .blank a
  else if a = 0x0A then .brk .lf
  else if a = 0x0D then if r.take 1 = [0x0A] then .brk .crlf else .brk .cr
  else if a = 0xC2 ∧ r.take 1 = [0x85] then .brk .nel
  else if a = 0xE2 ∧ r.take 2 = [0x80, 0xA8] then .brk .ls
  else if a = 0xE2 ∧ r.take 2 = [0x80, 0xA9] then .brk .ps
  else .char a

/-- The pieces of a text, when its first `n` bytes belong to a piece already. -/
def piecesFrom : ℕ → List (BitVec 8) → List Piece
  | _, [] => []
  | 0, a :: r => headPiece a r :: piecesFrom ((headPiece a r).raw.length - 1) r
  | n + 1, _ :: r => piecesFrom n r

/-- The pieces of a text. -/
def pieces (s : List (BitVec 8)) : List Piece := piecesFrom 0 s

/-- The text of pieces. -/
def rawText (P : List Piece) : List (BitVec 8) := P.flatMap Piece.raw

theorem raw_headPiece (a : BitVec 8) (r : List (BitVec 8)) :
    (headPiece a r).raw ++ r.drop ((headPiece a r).raw.length - 1) = a :: r := by
  rw [headPiece]
  split_ifs with h₁ h₂ h₃ h₄ h₅ h₆ h₇
  · rfl
  · rw [h₂]
    rfl
  · rw [h₃, ← List.take_append_drop 1 r, h₄]
    rfl
  · rw [h₃]
    rfl
  · rw [h₅.1, ← List.take_append_drop 1 r, h₅.2]
    rfl
  · rw [h₆.1, ← List.take_append_drop 2 r, h₆.2]
    rfl
  · rw [h₇.1, ← List.take_append_drop 2 r, h₇.2]
    rfl
  · rfl

theorem rawText_piecesFrom (n : ℕ) (s : List (BitVec 8)) :
    rawText (piecesFrom n s) = s.drop n := by
  induction s generalizing n with
  | nil => cases n <;> rfl
  | cons a r ih =>
    cases n with
    | zero =>
      rw [piecesFrom, rawText, List.flatMap_cons, ← rawText, ih]
      exact raw_headPiece a r
    | succ n => exact ih n

/-- No byte is lost. -/
theorem rawText_pieces (s : List (BitVec 8)) : rawText (pieces s) = s := rawText_piecesFrom 0 s

/-! ## Folding -/

/-- White space so far: the blanks of a line, or the first break, the breaks behind it, and
whether a line has just begun. -/
inductive White where
  | blanks (l : List (BitVec 8))
  | lines (first : Break) (more : List (BitVec 8)) (atStart : Bool)

/-- What white space becomes. -/
def White.value : White → List (BitVec 8)
  | blanks l => l
  | lines first more _ =>
    if first.copy = [0x0A] then if more = [] then [0x20] else more else first.copy ++ more

/-- A blank. -/
def White.blank : White → BitVec 8 → White
  | blanks l, b => blanks (l ++ [b])
  | lines first more _, _ => lines first more false

/-- A break. -/
def White.brk : White → Break → White
  | blanks _, k => lines k [] true
  | lines first more _, k => lines first (more ++ k.copy) true

/-- At the beginning of a line behind the first one. -/
def White.atStart : White → Bool
  | blanks _ => false
  | lines _ _ a => a

/-- White space. -/
def Piece.isWhite : Piece → Bool
  | char _ => false
  | _ => true

/-- The marker of a document. -/
def documentMark : List Piece → Bool
  | .char a :: .char b :: .char c :: p :: _ =>
    a = b && b = c && (a = 0x2D || a = 0x2E) && p.isWhite
  | _ => false

/-- The content of the pieces that follow white space. -/
def foldFrom : White → List Piece → Option (List (BitVec 8))
  | w, [] => some w.value
  | w, .blank b :: P => foldFrom (w.blank b) P
  | w, .brk k :: P => foldFrom (w.brk k) P
  | w, .char b :: P =>
    if w.atStart && documentMark (.char b :: P) then none
    else (foldFrom (.blanks []) P).map fun out => w.value ++ b :: out

/-- What is read of a text between quotes, its escapes undone. -/
def foldText (s : List (BitVec 8)) : Option (List (BitVec 8)) :=
  if readable s then foldFrom (.blanks []) (pieces s) else none

/-- The content of a double-quoted scalar. -/
def quotedValue (t : List (BitVec 8)) : Option (List (BitVec 8)) := (unescape t).bind foldText

theorem quotedValue_escape (s : List (BitVec 8)) : quotedValue (escape s) = foldText s := by
  rw [quotedValue, unescape_escape]
  rfl

/-! ## Texts that stay as they are -/

/-- What may stand behind a piece in a text whose breaks all stay. -/
def MayFollow : Piece → Piece → Prop
  | .brk _, .blank _ => False
  | .blank _, .brk _ => False
  | .char _, .brk k => k = .ls ∨ k = .ps
  | .brk _, .brk k => k = .ls ∨ k = .ps ∨ k = .lf
  | _, _ => True

instance : DecidableRel MayFollow
  | .char _, .char _ => .isTrue trivial
  | .char _, .blank _ => .isTrue trivial
  | .char _, .brk _ => inferInstanceAs (Decidable (_ ∨ _))
  | .blank _, .char _ => .isTrue trivial
  | .blank _, .blank _ => .isTrue trivial
  | .blank _, .brk _ => .isFalse id
  | .brk _, .char _ => .isTrue trivial
  | .brk _, .blank _ => .isFalse id
  | .brk _, .brk _ => inferInstanceAs (Decidable (_ ∨ _ ∨ _))

/-- A text whose breaks all stay: breaks stand between characters, and begin with U+2028 or
U+2029, behind which there may be line feeds. -/
def Unfolded (s : List (BitVec 8)) : Prop := List.IsChain MayFollow (.char quote :: pieces s)

instance (s : List (BitVec 8)) : Decidable (Unfolded s) :=
  inferInstanceAs (Decidable (List.IsChain _ _))

/-- A text that has the marker of a document behind one of its breaks. -/
def Marked (s : List (BitVec 8)) : Prop :=
  ∃ k P, (.brk k :: P) <:+ pieces s ∧ documentMark P = true

/-- A text that is not read between quotes. -/
def Refused (s : List (BitVec 8)) : Prop := readable s = false ∨ Marked s

theorem Break.length_copy_le (k : Break) : k.copy.length ≤ k.raw.length := by
  cases k <;> decide

theorem White.length_value_blank_le (w : White) (b : BitVec 8) :
    (w.blank b).value.length ≤ w.value.length + 1 := by
  cases w with
  | blanks l => rw [blank, value, value, List.length_append, List.length_singleton]
  | lines first more a => exact Nat.le_succ _

theorem White.length_value_brk_blanks_le (l : List (BitVec 8)) (k : Break) :
    ((blanks l).brk k).value.length ≤ k.raw.length := by
  rw [brk]
  cases k <;> decide

theorem White.value_lines_nil {first : Break} (h : first.copy = [0x0A]) (a : Bool) :
    (lines first [] a).value = [0x20] := by
  rw [value, if_pos h, if_pos rfl]

theorem White.value_lines_cons {first : Break} {more : List (BitVec 8)} (h : first.copy = [0x0A])
    (hmore : more ≠ []) (a : Bool) : (lines first more a).value = more := by
  rw [value, if_pos h, if_neg hmore]

theorem White.value_lines_kept {first : Break} (h : first.copy ≠ [0x0A])
    (more : List (BitVec 8)) (a : Bool) : (lines first more a).value = first.copy ++ more := by
  rw [value, if_neg h]

theorem Break.copy_ne_nil (k : Break) : k.copy ≠ [] := by
  cases k <;> decide

/-- A further break is added, or takes the place of the space. -/
theorem White.value_brk_lines (first : Break) (more : List (BitVec 8)) (a : Bool) (k : Break) :
    ((lines first more a).brk k).value = (lines first more a).value ++ k.copy ∨
      (lines first more a).value.length = 1 ∧ ((lines first more a).brk k).value = k.copy := by
  have hne : more ++ k.copy ≠ [] := fun hnil => k.copy_ne_nil (List.append_eq_nil_iff.mp hnil).2
  by_cases hfold : first.copy = [0x0A]
  · by_cases hmore : more = []
    · subst hmore
      right
      rw [brk, value_lines_nil hfold, value_lines_cons hfold hne]
      exact ⟨rfl, rfl⟩
    · left
      rw [brk, value_lines_cons hfold hmore, value_lines_cons hfold hne]
  · left
    rw [brk, value_lines_kept hfold, value_lines_kept hfold, List.append_assoc]

theorem White.length_value_brk_le (w : White) (k : Break) :
    (w.brk k).value.length ≤ w.value.length + k.raw.length := by
  have hcopy := k.length_copy_le
  cases w with
  | blanks l =>
    have hle := length_value_brk_blanks_le l k
    omega
  | lines first more a =>
    rcases value_brk_lines first more a k with h | ⟨_, h⟩
    · rw [h, List.length_append]
      omega
    · rw [h]
      omega

/-- What is read is no longer than what is written. -/
theorem length_le_of_foldFrom {w : White} {P : List Piece} {out : List (BitVec 8)}
    (h : foldFrom w P = some out) : out.length ≤ w.value.length + (rawText P).length := by
  induction P generalizing w out with
  | nil =>
    obtain rfl := Option.some.inj h
    exact Nat.le_add_right _ _
  | cons p P ih =>
    rw [rawText, List.flatMap_cons, ← rawText, List.length_append]
    cases p with
    | blank b =>
      have hle := ih (w := w.blank b) h
      have hstep := w.length_value_blank_le b
      simp only [Piece.raw, List.length_singleton]
      omega
    | brk k =>
      have hle := ih (w := w.brk k) h
      have hstep := w.length_value_brk_le k
      simp only [Piece.raw]
      omega
    | char b =>
      rw [foldFrom] at h
      split at h
      · cases h
      · obtain ⟨rest, hrest, rfl⟩ := Option.map_eq_some_iff.mp h
        have hle := ih hrest
        simp only [Piece.raw, List.length_append, List.length_cons, White.value,
          List.length_nil] at hle ⊢
        omega

/-! ### White space that does not stay -/

/-- White space that stands for the text `pre` has become something else. -/
def White.Lost (w : White) (pre : List (BitVec 8)) : Prop :=
  w.value.length ≤ pre.length ∧ w.value ≠ pre

theorem White.Lost.of_length_lt {w : White} {pre : List (BitVec 8)}
    (h : w.value.length < pre.length) : w.Lost pre :=
  ⟨h.le, fun heq => absurd (congrArg List.length heq) h.ne⟩

theorem White.Lost.blank {w : White} {pre : List (BitVec 8)} (h : w.Lost pre) (b : BitVec 8) :
    (w.blank b).Lost (pre ++ [b]) := by
  cases w with
  | blanks l =>
    refine ⟨?_, fun heq => h.2 (List.append_inj_left' heq rfl)⟩
    have hle := h.1
    simp only [White.blank, value, List.length_append] at hle ⊢
    omega
  | lines first more a =>
    apply of_length_lt
    rw [List.length_append]
    exact Nat.lt_succ_of_le h.1

theorem White.Lost.brk {w : White} {pre : List (BitVec 8)} (h : w.Lost pre) (k : Break) :
    (w.brk k).Lost (pre ++ k.raw) := by
  have hle := h.1
  have hcopy := k.length_copy_le
  cases w with
  | blanks l =>
    have hpos : 0 < pre.length := by
      refine Nat.pos_of_ne_zero fun hzero => h.2 ?_
      rw [List.length_eq_zero_iff.mp hzero]
      exact List.length_eq_zero_iff.mp (by omega)
    have hbrk := length_value_brk_blanks_le l k
    apply of_length_lt
    rw [List.length_append]
    omega
  | lines first more a =>
    rcases value_brk_lines first more a k with hcat | ⟨hone, hcat⟩
    · rw [Lost, hcat, List.length_append, List.length_append]
      refine ⟨by omega, fun heq => h.2 ?_⟩
      have hlen := congrArg List.length heq
      rw [List.length_append, List.length_append] at hlen
      exact (List.append_inj heq (by omega)).1
    · apply of_length_lt
      rw [hcat, List.length_append]
      omega

/-- **What is lost does not come back.** -/
theorem foldFrom_ne_of_lost {w : White} {P : List Piece} {out pre : List (BitVec 8)}
    (hlost : w.Lost pre) (h : foldFrom w P = some out) : out ≠ pre ++ rawText P := by
  induction P generalizing w out pre with
  | nil =>
    obtain rfl := Option.some.inj h
    rw [rawText, List.flatMap_nil, List.append_nil]
    exact hlost.2
  | cons p P ih =>
    rw [rawText, List.flatMap_cons, ← rawText]
    cases p with
    | blank b =>
      rw [← List.append_assoc]
      exact ih (hlost.blank b) h
    | brk k =>
      rw [← List.append_assoc]
      exact ih (hlost.brk k) h
    | char b =>
      rw [foldFrom] at h
      split at h
      · cases h
      · obtain ⟨rest, hrest, rfl⟩ := Option.map_eq_some_iff.mp h
        intro heq
        have hrestle := length_le_of_foldFrom hrest
        have hle := hlost.1
        have hlen := congrArg List.length heq
        have hnil : (White.blanks []).value.length = 0 := rfl
        simp only [Piece.raw, List.length_append, List.length_cons, List.length_nil] at hlen
        exact hlost.2 (List.append_inj heq (by omega)).1

/-! ### White space that stays -/

/-- White space that stays as it is, behind the piece `p`. -/
inductive White.Kept : White → Piece → Prop
  | char (b : BitVec 8) : Kept (blanks []) (.char b)
  | blank (l : List (BitVec 8)) (b : BitVec 8) : l ≠ [] → Kept (blanks l) (.blank b)
  | brk (f : Break) (m : List (BitVec 8)) (k : Break) :
    f.copy ≠ [0x0A] → Kept (lines f m true) (.brk k)

/-- **What is read is what is written** just when every piece may follow the one before it. -/
theorem foldFrom_eq_iff {w : White} {p : Piece} {P : List Piece} {out : List (BitVec 8)}
    (hkept : w.Kept p) (h : foldFrom w P = some out) :
    out = w.value ++ rawText P ↔ List.IsChain MayFollow (p :: P) := by
  induction P generalizing w p out with
  | nil =>
    obtain rfl := Option.some.inj h
    simp [rawText]
  | cons q P ih =>
    rw [rawText, List.flatMap_cons, ← rawText, List.isChain_cons_cons, ← List.append_assoc]
    cases q with
    | char b =>
      have hmay : MayFollow p (.char b) := by cases p <;> trivial
      rw [foldFrom] at h
      split at h
      · cases h
      · obtain ⟨rest, hrest, rfl⟩ := Option.map_eq_some_iff.mp h
        rw [← ih (.char b) hrest, List.append_assoc, List.append_right_inj]
        simp [Piece.raw, White.value, hmay]
    | blank b =>
      cases hkept with
      | char c =>
        rw [← ih (.blank [b] b (by simp)) h]
        simp [MayFollow, White.value, Piece.raw]
      | blank l c hl =>
        rw [← ih (.blank (l ++ [b]) b (by simp)) h]
        simp [MayFollow, White.value, Piece.raw]
      | brk f m k hf =>
        have hlost : ((White.lines f m true).blank b).Lost
            ((White.lines f m true).value ++ [b]) := by
          apply White.Lost.of_length_lt
          rw [List.length_append]
          exact Nat.lt_succ_of_le (le_of_eq rfl)
        exact iff_of_false (foldFrom_ne_of_lost hlost h) fun hc => hc.1
    | brk k =>
      cases hkept with
      | char c =>
        have hvalue : (White.blanks ([] : List (BitVec 8))).value = [] := rfl
        rw [hvalue, List.nil_append]
        by_cases hk : k = .ls ∨ k = .ps
        · have hcopy : k.copy ≠ [0x0A] := by rcases hk with rfl | rfl <;> decide
          have hraw : (White.lines k [] true).value = k.raw := by rcases hk with rfl | rfl <;> rfl
          rw [← ih (.brk k [] k hcopy) h, hraw]
          exact (and_iff_right hk).symm
        · have hlost : (White.lines k [] true).Lost k.raw := by
            cases k <;> first | exact absurd (by decide) hk | (constructor <;> decide)
          exact iff_of_false (foldFrom_ne_of_lost hlost h) fun hc => hk hc.1
      | blank l c hl =>
        have hlost : ((White.blanks l).brk k).Lost ((White.blanks l).value ++ k.raw) := by
          have hpos := List.length_pos_iff.mpr hl
          apply White.Lost.of_length_lt
          rw [List.length_append]
          have hbrk := White.length_value_brk_blanks_le l k
          have hvalue : (White.blanks l).value.length = l.length := rfl
          omega
        exact iff_of_false (foldFrom_ne_of_lost hlost h) fun hc => hc.1
      | brk f m c hf =>
        have hvalue : ((White.lines f m true).brk k).value =
            (White.lines f m true).value ++ k.copy := by
          rw [White.brk, White.value_lines_kept hf, White.value_lines_kept hf, List.append_assoc]
        by_cases hk : k = .ls ∨ k = .ps ∨ k = .lf
        · have hraw : k.copy = k.raw := by rcases hk with rfl | rfl | rfl <;> rfl
          rw [← ih (.brk f (m ++ k.copy) k hf) h]
          rw [White.brk] at hvalue
          rw [hvalue, hraw]
          exact (and_iff_right hk).symm
        · have hne : k.copy ≠ k.raw := by
            cases k <;> first | exact absurd (by decide) hk | decide
          have hlost : ((White.lines f m true).brk k).Lost
              ((White.lines f m true).value ++ k.raw) := by
            rw [White.Lost, hvalue, List.length_append, List.length_append]
            exact ⟨Nat.add_le_add_left k.length_copy_le _,
              fun heq => hne (List.append_cancel_left heq)⟩
          exact iff_of_false (foldFrom_ne_of_lost hlost h) fun hc => hk hc.1

theorem foldFrom_of_foldText {s out : List (BitVec 8)} (h : foldText s = some out) :
    readable s = true ∧ foldFrom (.blanks []) (pieces s) = some out := by
  rw [foldText] at h
  split at h
  · exact ⟨‹_›, h⟩
  · cases h

/-- **What is read is the text** just when its breaks all stay. -/
theorem foldText_eq_iff {s out : List (BitVec 8)} (h : foldText s = some out) :
    out = s ↔ Unfolded s := by
  have hiff := foldFrom_eq_iff (.char quote) (foldFrom_of_foldText h).2
  rw [rawText_pieces] at hiff
  exact hiff

theorem length_le_of_foldText {s out : List (BitVec 8)} (h : foldText s = some out) :
    out.length ≤ s.length := by
  have hle := length_le_of_foldFrom (foldFrom_of_foldText h).2
  rw [rawText_pieces] at hle
  exact hle.trans (le_of_eq (Nat.zero_add _))

/-! ### The bytes that are read -/

/-- A byte that white space with a break in it leaves. -/
def LeftByFold (b : BitVec 8) : Prop := b = 0x20 ∨ b = 0x0A ∨ b = 0xE2

instance (b : BitVec 8) : Decidable (LeftByFold b) :=
  inferInstanceAs (Decidable (_ ∨ _ ∨ _))

theorem Break.exists_mem_copy (k : Break) : ∃ b ∈ k.copy, LeftByFold b := by
  cases k with
  | ls => exact ⟨0xE2, by decide, .inr (.inr rfl)⟩
  | ps => exact ⟨0xE2, by decide, .inr (.inr rfl)⟩
  | _ => exact ⟨0x0A, by decide, .inr (.inl rfl)⟩

theorem White.exists_mem_value_brk (w : White) (k : Break) :
    ∃ b ∈ (w.brk k).value, LeftByFold b := by
  cases w with
  | blanks l =>
    by_cases hk : k.copy = [0x0A]
    · rw [brk, value_lines_nil hk]
      exact ⟨0x20, by decide, .inl rfl⟩
    · rw [brk, value_lines_kept hk, List.append_nil]
      exact k.exists_mem_copy
  | lines first more a =>
    obtain ⟨b, hb, hleft⟩ := k.exists_mem_copy
    refine ⟨b, ?_, hleft⟩
    rcases value_brk_lines first more a k with h | ⟨_, h⟩
    · rw [h]
      exact List.mem_append_right _ hb
    · rw [h]
      exact hb

theorem exists_mem_of_foldFrom {w : White} {P : List Piece} {out : List (BitVec 8)}
    (hw : ∃ b ∈ w.value, LeftByFold b) (h : foldFrom w P = some out) : ∃ b ∈ out, LeftByFold b := by
  induction P generalizing w out with
  | nil =>
    obtain rfl := Option.some.inj h
    exact hw
  | cons p P ih =>
    cases p with
    | blank b =>
      refine ih (w := w.blank b) ?_ h
      cases w with
      | blanks l =>
        obtain ⟨c, hc, hleft⟩ := hw
        exact ⟨c, List.mem_append_left _ hc, hleft⟩
      | lines first more a => exact hw
    | brk k => exact ih (w.exists_mem_value_brk k) h
    | char b =>
      rw [foldFrom] at h
      split at h
      · cases h
      · obtain ⟨rest, _, rfl⟩ := Option.map_eq_some_iff.mp h
        obtain ⟨c, hc, hleft⟩ := hw
        exact ⟨c, List.mem_append_left _ hc, hleft⟩

theorem eq_of_foldFrom_solid {l : List (BitVec 8)} {P : List Piece} {out : List (BitVec 8)}
    (h : foldFrom (.blanks l) P = some out) (hout : ∀ b ∈ out, ¬LeftByFold b) :
    out = l ++ rawText P := by
  induction P generalizing l out with
  | nil =>
    obtain rfl := Option.some.inj h
    exact (List.append_nil l).symm
  | cons p P ih =>
    rw [rawText, List.flatMap_cons, ← rawText, ← List.append_assoc]
    cases p with
    | blank b => exact ih h hout
    | brk k =>
      obtain ⟨b, hb, hleft⟩ := exists_mem_of_foldFrom (White.exists_mem_value_brk (.blanks l) k) h
      exact absurd hleft (hout b hb)
    | char b =>
      rw [foldFrom] at h
      split at h
      · cases h
      · obtain ⟨rest, hrest, rfl⟩ := Option.map_eq_some_iff.mp h
        have hrestOut := ih hrest fun c hc =>
          hout c (List.mem_append_right _ (List.mem_cons_of_mem _ hc))
        rw [hrestOut, List.append_assoc]
        rfl

/-- **A content without breaks and spaces** is the text itself. -/
theorem eq_of_foldText_solid {s out : List (BitVec 8)} (h : foldText s = some out)
    (hout : ∀ b ∈ out, ¬LeftByFold b) : out = s := by
  rw [eq_of_foldFrom_solid (foldFrom_of_foldText h).2 hout, rawText_pieces]
  rfl

theorem White.zero_notMem_value_brk {w : White} (hw : 0 ∉ w.value) (k : Break) :
    0 ∉ (w.brk k).value := by
  have hcopy : 0 ∉ k.copy := by cases k <;> decide
  cases w with
  | blanks l =>
    rw [brk]
    cases k <;> decide
  | lines first more a =>
    rcases value_brk_lines first more a k with h | ⟨_, h⟩
    · rw [h, List.mem_append]
      exact fun hmem => hmem.elim hw hcopy
    · rw [h]
      exact hcopy

theorem zero_notMem_of_foldFrom {w : White} {P : List Piece} {out : List (BitVec 8)}
    (hw : 0 ∉ w.value) (hP : 0 ∉ rawText P) (h : foldFrom w P = some out) : 0 ∉ out := by
  induction P generalizing w out with
  | nil =>
    obtain rfl := Option.some.inj h
    exact hw
  | cons p P ih =>
    rw [rawText, List.flatMap_cons, ← rawText, List.mem_append, not_or] at hP
    cases p with
    | blank b =>
      refine ih (w := w.blank b) ?_ hP.2 h
      cases w with
      | blanks l =>
        rw [White.blank, White.value, List.mem_append]
        exact fun hmem => hmem.elim hw hP.1
      | lines first more a => exact hw
    | brk k => exact ih (White.zero_notMem_value_brk hw k) hP.2 h
    | char b =>
      rw [foldFrom] at h
      split at h
      · cases h
      · obtain ⟨rest, hrest, rfl⟩ := Option.map_eq_some_iff.mp h
        have hrestOut := ih List.not_mem_nil hP.2 hrest
        rw [List.mem_append, List.mem_cons]
        rintro (hmem | rfl | hmem)
        · exact hw hmem
        · exact hP.1 (List.mem_singleton_self 0)
        · exact hrestOut hmem

/-- No null character comes in. -/
theorem zero_notMem_of_foldText {s out : List (BitVec 8)} (h : foldText s = some out) :
    0 ∉ out := by
  obtain ⟨hreadable, hfold⟩ := foldFrom_of_foldText h
  refine zero_notMem_of_foldFrom List.not_mem_nil ?_ hfold
  rw [rawText_pieces]
  exact zero_notMem_of_readable hreadable

/-! ### Texts that are not read -/

theorem foldFrom_eq_none_iff {w : White} {P : List Piece} :
    foldFrom w P = none ↔ (w.atStart = true ∧ documentMark P = true) ∨
      ∃ k Q, (.brk k :: Q) <:+ P ∧ documentMark Q = true := by
  induction P generalizing w with
  | nil => simp [foldFrom, documentMark]
  | cons p P ih =>
    cases p with
    | blank b =>
      have hblank : (w.blank b).atStart = false := by cases w <;> rfl
      simp [foldFrom, ih, documentMark, List.suffix_cons_iff, hblank]
    | brk k =>
      have hbrk : (w.brk k).atStart = true := by cases w <;> rfl
      simp only [foldFrom, ih, hbrk, documentMark, List.suffix_cons_iff, true_and, and_false,
        false_or, List.cons.injEq, Piece.brk.injEq, Bool.false_eq_true]
      constructor
      · rintro (h | ⟨k', Q, hQ, hmark⟩)
        · exact ⟨k, P, .inl ⟨rfl, rfl⟩, h⟩
        · exact ⟨k', Q, .inr hQ, hmark⟩
      · rintro ⟨k', Q, ⟨rfl, rfl⟩ | hQ, hmark⟩
        · exact .inl hmark
        · exact .inr ⟨k', Q, hQ, hmark⟩
    | char b =>
      rw [foldFrom]
      by_cases hmark : w.atStart = true ∧ documentMark (.char b :: P) = true
      · simp [hmark]
      · have hstart : (White.blanks ([] : List (BitVec 8))).atStart = false := rfl
        rw [if_neg (by simpa using hmark), Option.map_eq_none_iff, ih, hstart]
        simp only [hmark, List.suffix_cons_iff, List.cons.injEq, reduceCtorEq, false_and, false_or,
          Bool.false_eq_true]

/-- **A text is not read** when it has characters that do not print or a marker. -/
theorem foldText_eq_none_iff {s : List (BitVec 8)} : foldText s = none ↔ Refused s := by
  rw [foldText, Refused, Marked]
  by_cases h : readable s = true
  · rw [if_pos h, foldFrom_eq_none_iff]
    simp [h, White.atStart]
  · rw [if_neg h]
    simp [h]

end PacketWyrm.Lib
