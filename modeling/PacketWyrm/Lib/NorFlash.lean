import Mathlib.Data.List.GetD
import Mathlib.Logic.Function.Basic
import Mathlib.Tactic.Common

/-!
# NOR flash

A serial NOR flash keeps bytes.  Erasing a sector sets all of its bytes to `0xFF`; programming
can only clear bits, so the new byte is the old one and the data; and a program command that runs
over the end of its page goes on at the start of the page.  Both need the write enable latch, and
while one of them is carried out the device answers nothing but its status.

## Main definitions

* `NorGeometry` — the sizes of pages, sectors and the device.
* `eraseSector`, `programPage` — what the two commands do to the contents.
* `blank`, `splice` — the contents with a range erased, and with a range replaced.
* `NorDevice` — a device, `NorDevice.exec` — one transaction with it.

## Main results

* `programPage_eq` — within a page, programming is byte by byte.
* `programPage_of_erased` — over erased bytes it is a replacement.
* `splice_splice` — pieces that follow each other are one replacement.
* `splice_blank_head`, `splice_blank_tail` — what was read before an erase and is put back.
-/

namespace PacketWyrm.Lib

/-- Pages are parts of sectors, and sectors are parts of the device. -/
structure NorGeometry where
  page : ℕ
  sector : ℕ
  size : ℕ
  page_pos : 0 < page
  sector_pos : 0 < sector

/-- The contents by address. -/
abbrev NorMem := ℕ → BitVec 8

/-- An erased byte. -/
def erased : BitVec 8 := 0xFF

/-! ## Contents -/

section Contents

variable (G : NorGeometry) (m : NorMem)

/-- The sector of address `a` erased. -/
def eraseSector (a : ℕ) : NorMem :=
  fun x => if x / G.sector = a / G.sector then erased else m x

/-- The contents with the addresses from `lo` up to `hi` erased. -/
def blank (lo hi : ℕ) : NorMem := fun x => if lo ≤ x ∧ x < hi then erased else m x

/-- The address behind `a` in its page. -/
def NorGeometry.nextInPage (a : ℕ) : ℕ := a / G.page * G.page + (a + 1) % G.page

/-- Data programmed from address `a` on. -/
def programPage : List (BitVec 8) → ℕ → NorMem → NorMem
  | [], _, m => m
  | d :: ds, a, m => programPage ds (G.nextInPage a) (Function.update m a (m a &&& d))

/-- The bytes of a range. -/
def bytesFrom (a n : ℕ) : List (BitVec 8) := (List.range n).map fun i => m (a + i)

/-- The contents with the bytes from `a` on replaced. -/
def splice (a : ℕ) (l : List (BitVec 8)) : NorMem :=
  fun x => if a ≤ x ∧ x < a + l.length then l.getD (x - a) 0 else m x

@[simp] theorem length_bytesFrom (a n : ℕ) : (bytesFrom m a n).length = n := by
  simp [bytesFrom]

@[simp] theorem bytesFrom_zero (a : ℕ) : bytesFrom m a 0 = [] := rfl

theorem getD_bytesFrom {a n i : ℕ} (hi : i < n) : (bytesFrom m a n).getD i 0 = m (a + i) := by
  rw [List.getD_eq_getElem _ _ (by simpa using hi)]
  simp [bytesFrom]

@[simp] theorem splice_nil (a : ℕ) : splice m a [] = m := by
  funext x
  rw [splice, if_neg]
  rw [List.length_nil]
  omega

/-- **Pieces that follow each other** are one replacement. -/
theorem splice_splice (a : ℕ) (l l' : List (BitVec 8)) :
    splice (splice m a l) (a + l.length) l' = splice m a (l ++ l') := by
  funext x
  simp only [splice, List.length_append]
  by_cases hlow : x < a
  · rw [if_neg (by omega), if_neg (by omega), if_neg (by omega)]
  · by_cases hmid : x < a + l.length
    · rw [if_neg (by omega), if_pos (by omega), if_pos (by omega),
        List.getD_append _ _ _ _ (by omega)]
    · by_cases hhigh : x < a + l.length + l'.length
      · rw [if_pos (by omega), if_pos (by omega), List.getD_append_right _ _ _ _ (by omega)]
        congr 1
        omega
      · rw [if_neg (by omega), if_neg (by omega), if_neg (by omega)]

theorem bytesFrom_append (a n k : ℕ) :
    bytesFrom m a n ++ bytesFrom m (a + n) k = bytesFrom m a (n + k) := by
  rw [bytesFrom, bytesFrom, bytesFrom, List.range_add, List.map_append, List.map_map]
  congr 1
  apply List.map_congr_left
  intro i _
  exact congrArg m (Nat.add_assoc a n i)

theorem bytesFrom_congr {m' : NorMem} {a n : ℕ} (h : ∀ x, a ≤ x → x < a + n → m' x = m x) :
    bytesFrom m' a n = bytesFrom m a n := by
  apply List.map_congr_left
  intro i hi
  rw [List.mem_range] at hi
  exact h (a + i) (by omega) (by omega)

/-- A part of a range. -/
theorem take_drop_bytesFrom (a n p k : ℕ) :
    ((bytesFrom m a n).drop p).take k = bytesFrom m (a + p) (min k (n - p)) := by
  apply List.ext_getElem
  · simp
  · intro i _ _
    simp [bytesFrom, Nat.add_assoc]

theorem bytesFrom_splice (a : ℕ) (l : List (BitVec 8)) :
    bytesFrom (splice m a l) a l.length = l := by
  apply List.ext_getElem (length_bytesFrom _ _ _)
  intro i hi hi'
  rw [← List.getD_eq_getElem _ 0 hi, getD_bytesFrom _ hi', splice, if_pos (by omega),
    Nat.add_sub_cancel_left, List.getD_eq_getElem _ _ hi']

/-! ### Erased ranges -/

/-- The sector at a sector address. -/
theorem eraseSector_eq_blank {a : ℕ} (ha : a % G.sector = 0) :
    eraseSector G m a = blank m a (a + G.sector) := by
  funext x
  have hdiv := Nat.div_add_mod a G.sector
  have hx : x / G.sector = a / G.sector ↔ a ≤ x ∧ x < a + G.sector := by
    rw [Nat.div_eq_iff G.sector_pos, Nat.mul_comm]
    have := G.sector_pos
    omega
  simp only [eraseSector, blank, hx]

theorem blank_blank {lo mid hi : ℕ} (_ : lo ≤ mid) (_ : mid ≤ hi) :
    blank (blank m lo mid) mid hi = blank m lo hi := by
  funext x
  simp only [blank]
  split_ifs <;> first | rfl | omega

theorem blank_of_le {lo hi : ℕ} (h : hi ≤ lo) : blank m lo hi = m := by
  funext x
  rw [blank, if_neg (by omega)]

/-- Bytes of the memory that are put back over an erased range. -/
theorem splice_blank_bytesFrom (lo hi a n x : ℕ) :
    splice (blank m lo hi) a (bytesFrom m a n) x =
      if a ≤ x ∧ x < a + n then m x else blank m lo hi x := by
  simp only [splice, length_bytesFrom]
  by_cases hx : a ≤ x ∧ x < a + n
  · rw [if_pos hx, if_pos hx, getD_bytesFrom m (by omega)]
    congr 1
    omega
  · rw [if_neg hx, if_neg hx]

/-- **The front of what was erased is put back.** -/
theorem splice_blank_head {lo hi n : ℕ} (_ : lo + n ≤ hi) :
    splice (blank m lo hi) lo (bytesFrom m lo n) = blank m (lo + n) hi := by
  funext x
  rw [splice_blank_bytesFrom, blank, blank]
  split_ifs <;> first | rfl | omega

/-- **The end of what was erased is put back.** -/
theorem splice_blank_tail {lo mid n : ℕ} (_ : lo ≤ mid) :
    splice (blank m lo (mid + n)) mid (bytesFrom m mid n) = blank m lo mid := by
  funext x
  rw [splice_blank_bytesFrom, blank, blank]
  split_ifs <;> first | rfl | omega

/-- Replacing what was erased is replacing. -/
theorem splice_blank (a : ℕ) (l : List (BitVec 8)) :
    splice (blank m a (a + l.length)) a l = splice m a l := by
  funext x
  simp only [splice, blank]
  split_ifs <;> rfl

variable {m}

/-- Within its page, an address is followed by the next one. -/
theorem NorGeometry.nextInPage_eq {a : ℕ} (h : a % G.page + 1 < G.page) :
    G.nextInPage a = a + 1 := by
  have hdiv := Nat.div_add_mod' a G.page
  have hmod : (a + 1) % G.page = a % G.page + 1 := by
    rw [Nat.add_mod, Nat.mod_eq_of_lt (show 1 < G.page by omega), Nat.mod_eq_of_lt h]
  rw [NorGeometry.nextInPage, hmod]
  omega

/-- **Programming within a page** is byte by byte: every byte keeps the bits that the data has. -/
theorem programPage_eq {l : List (BitVec 8)} {a : ℕ} (h : a % G.page + l.length ≤ G.page) (x : ℕ) :
    programPage G l a m x = if a ≤ x ∧ x < a + l.length then m x &&& l.getD (x - a) 0 else m x := by
  induction l generalizing a m with
  | nil =>
    rw [if_neg (by rw [List.length_nil]; omega)]
    rfl
  | cons d l ih =>
    rw [List.length_cons] at h
    rw [programPage, List.length_cons]
    by_cases hnil : l = []
    · subst hnil
      rw [programPage]
      by_cases hx : x = a
      · subst hx
        rw [Function.update_self, if_pos (by rw [List.length_nil]; omega), Nat.sub_self]
        rfl
      · rw [Function.update_of_ne hx, if_neg (by rw [List.length_nil]; omega)]
    · have hpos : 0 < l.length := List.length_pos_iff.mpr hnil
      have hnext : G.nextInPage a = a + 1 := G.nextInPage_eq (by omega)
      have hmod : (a + 1) % G.page = a % G.page + 1 := by
        rw [Nat.add_mod, Nat.mod_eq_of_lt (show 1 < G.page by omega), Nat.mod_eq_of_lt (by omega)]
      rw [hnext, ih (by rw [hmod]; omega)]
      by_cases hx : x = a
      · subst hx
        rw [if_neg (by omega), Function.update_self, if_pos (by omega), Nat.sub_self]
        rfl
      · rw [Function.update_of_ne hx]
        by_cases hin : a + 1 ≤ x ∧ x < a + 1 + l.length
        · obtain ⟨i, hi⟩ : ∃ i, x - a = i + 1 := ⟨x - a - 1, by omega⟩
          rw [if_pos hin, if_pos (by omega), hi, show x - (a + 1) = i by omega]
          rfl
        · rw [if_neg hin, if_neg (by omega)]

/-- **Over erased bytes, programming is a replacement.** -/
theorem programPage_of_erased {l : List (BitVec 8)} {a : ℕ} (h : a % G.page + l.length ≤ G.page)
    (hm : ∀ x, a ≤ x → x < a + l.length → m x = erased) : programPage G l a m = splice m a l := by
  funext x
  rw [programPage_eq G h, splice]
  split
  · rename_i hx
    have hones : erased = BitVec.allOnes 8 := rfl
    rw [hm x hx.1 hx.2, hones, BitVec.allOnes_and]
  · rfl

end Contents

/-! ## The device -/

/-- A flash device.  `busy` status reads will still find a write in progress; `writes` counts
the erase and program commands begun, and `programs` has address and length of the latter. -/
structure NorDevice where
  mem : NorMem
  wel : Bool
  busy : ℕ
  writes : ℕ
  programs : List (ℕ × ℕ)

/-- A 24-bit address, most significant byte first. -/
def norAddress (b₂ b₁ b₀ : BitVec 8) : ℕ := (b₂ ++ b₁ ++ b₀).toNat

namespace NorDevice

variable (G : NorGeometry) (busyFor : ℕ → ℕ)

/-- A write has begun; `busyFor` says how long each of them takes. -/
def begin (d : NorDevice) (mem : NorMem) : NorDevice :=
  { d with mem, wel := false, busy := busyFor d.writes, writes := d.writes + 1 }

/-- One transaction: the bytes sent, and the bytes received meanwhile. -/
def exec (d : NorDevice) (tx : List (BitVec 8)) : List (BitVec 8) × NorDevice :=
  let silent := List.replicate tx.length erased
  match tx with
  | 0x05 :: rest =>
    let wip : BitVec 8 := if d.busy = 0 then 0 else 1
    (erased :: List.replicate rest.length wip, { d with busy := d.busy - 1 })
  | 0x06 :: _ => if d.busy = 0 then (silent, { d with wel := true }) else (silent, d)
  | 0x03 :: b₂ :: b₁ :: b₀ :: rest =>
    if d.busy = 0 then
      (List.replicate 4 erased ++
        (List.range rest.length).map (fun i => d.mem ((norAddress b₂ b₁ b₀ + i) % G.size)), d)
    else (silent, d)
  | 0xD8 :: b₂ :: b₁ :: b₀ :: _ =>
    if d.busy = 0 ∧ d.wel = true then
      (silent, d.begin busyFor (eraseSector G d.mem (norAddress b₂ b₁ b₀)))
    else (silent, d)
  | 0x02 :: b₂ :: b₁ :: b₀ :: data =>
    if d.busy = 0 ∧ d.wel = true then
      let a := norAddress b₂ b₁ b₀
      (silent, { d.begin busyFor (programPage G data a d.mem) with
        programs := d.programs ++ [(a, data.length)] })
    else (silent, d)
  | _ => (silent, d)

/-- As many bytes are received as are sent. -/
theorem length_exec (d : NorDevice) (tx : List (BitVec 8)) :
    (d.exec G busyFor tx).1.length = tx.length := by
  unfold exec
  dsimp only
  split
  · simp
  · split <;> simp
  · split
    · simp [Nat.add_comm]
    · simp
  · split <;> simp
  · split <;> simp
  · simp

/-- The status says whether a write is going on, and the device gets on with it. -/
theorem exec_status (d : NorDevice) :
    d.exec G busyFor [0x05, 0] =
      ([erased, if d.busy = 0 then 0 else 1], { d with busy := d.busy - 1 }) := rfl

variable {d : NorDevice}

theorem exec_wren (h : d.busy = 0) :
    (d.exec G busyFor [0x06]).2 = { d with wel := true } :=
  congrArg Prod.snd (if_pos h)

theorem exec_read (h : d.busy = 0) (b₂ b₁ b₀ : BitVec 8) (rest : List (BitVec 8)) :
    d.exec G busyFor (0x03 :: b₂ :: b₁ :: b₀ :: rest) =
      (List.replicate 4 erased ++
        (List.range rest.length).map (fun i => d.mem ((norAddress b₂ b₁ b₀ + i) % G.size)), d) :=
  if_pos h

theorem exec_erase (h : d.busy = 0) (hwel : d.wel = true) (b₂ b₁ b₀ : BitVec 8) :
    (d.exec G busyFor [0xD8, b₂, b₁, b₀]).2 =
      d.begin busyFor (eraseSector G d.mem (norAddress b₂ b₁ b₀)) :=
  congrArg Prod.snd (if_pos ⟨h, hwel⟩)

theorem exec_program (h : d.busy = 0) (hwel : d.wel = true) (b₂ b₁ b₀ : BitVec 8)
    (data : List (BitVec 8)) :
    (d.exec G busyFor (0x02 :: b₂ :: b₁ :: b₀ :: data)).2 =
      { d.begin busyFor (programPage G data (norAddress b₂ b₁ b₀) d.mem) with
        programs := d.programs ++ [(norAddress b₂ b₁ b₀, data.length)] } :=
  congrArg Prod.snd (if_pos ⟨h, hwel⟩)

end NorDevice

end PacketWyrm.Lib
