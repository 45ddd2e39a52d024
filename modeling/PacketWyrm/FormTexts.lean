import PacketWyrm.FlowForm

/-!
# The texts of the form are read back

Every scalar that the form sends is a text that the daemon's readers of scalars take for what it
stands for: decimal and hexadecimal numbers, MAC addresses and words.

## Main results

* `pwParseU64_numeral`, `pwParseU64_hexText` — numbers.
* `pwParseMac_jsMac` — MAC addresses.
* `pwYamlMapGet_toYaml` — a member of an object is the pair of the tree.
* `reqField_of_lookup`, `optField_of_lookup` — a field whose text is read back.
-/

namespace PacketWyrm

open Lib

/-! ## Digits -/

/-- A character of a number. -/
def IsDigitChar (c : Byte) : Prop := ∃ d < 16, c = digit d

theorem digit_plain : ∀ d < 16, digit d ≠ 0 ∧ digit d ≠ 0x5F ∧ digit d ≠ 0x2D ∧ digit d ≠ 0x2B ∧
    digit d ≠ 0x78 ∧ digit d ≠ 0x58 ∧ digit d ≠ 0x3A ∧ isSpace (digit d) = false ∧
    isHexDigit (digit d) = true := by decide

theorem digitValue_ten : ∀ d < 10, digitValue 10 (digit d) = some d := by decide

theorem digitValue_sixteen : ∀ d < 16, digitValue 16 (digit d) = some d := by decide

theorem isDigitChar_of_mem {b : ℕ} (hb : 1 < b) (h16 : b ≤ 16) {w n : ℕ} :
    ∀ c ∈ padded w b n, IsDigitChar c := by
  intro c hc
  obtain ⟨d, hd, rfl⟩ := exists_digit_of_mem_padded hb hc
  exact ⟨d, by omega, rfl⟩

theorem padded_zero (b n : ℕ) : padded 0 b n = numeral b n := by
  rw [padded, Nat.zero_sub, List.replicate_zero, List.nil_append]

theorem digitsValue_append {b acc v : ℕ} {l : List Byte} (h : digitsValue b acc l = some v)
    (r : List Byte) : digitsValue b acc (l ++ r) = digitsValue b v r := by
  induction l generalizing acc with
  | nil =>
    cases h
    rfl
  | cons c l ih =>
    rw [digitsValue, Option.bind_eq_some_iff] at h
    obtain ⟨d, hd, h⟩ := h
    rw [List.cons_append, digitsValue, hd, Option.bind_some, ih h]

/-- The value of a numeral. -/
theorem digitsValue_numeral {b : ℕ} (hb : 1 < b)
    (hval : ∀ d < b, digitValue b (digit d) = some d) (n : ℕ) :
    digitsValue b 0 (numeral b n) = some n := by
  refine numeral_induction hb (P := fun n l => digitsValue b 0 l = some n) ?_ ?_ n
  · intro d hd
    rw [digitsValue, hval d hd, Option.bind_some, digitsValue, Nat.zero_mul, Nat.zero_add]
  · intro n d _ hd ih
    rw [digitsValue_append ih, digitsValue, hval d hd, Option.bind_some, digitsValue]

/-- Zeros in front do not count. -/
theorem digitsValue_padded {b : ℕ} (hb : 1 < b)
    (hval : ∀ d < b, digitValue b (digit d) = some d) (w n : ℕ) :
    digitsValue b 0 (padded w b n) = some n := by
  have hzeros : ∀ k, digitsValue b 0 (List.replicate k 0x30) = some 0 := by
    intro k
    induction k with
    | zero => rfl
    | succ k ih =>
      rw [List.replicate_succ, digitsValue]
      have hzero : digitValue b 0x30 = some 0 := hval 0 (by omega)
      rw [hzero, Option.bind_some, Nat.zero_mul, ih]
  rw [padded, digitsValue_append (hzeros _), digitsValue_numeral hb hval]

/-! ## Numbers -/

/-- Nothing is skipped in front of a digit. -/
theorem dropWhile_of_digit {l : List Byte} (h : ∀ c ∈ l, IsDigitChar c) (p : Byte → Bool)
    (hp : ∀ d < 16, p (digit d) = false) : l.dropWhile p = l := by
  cases l with
  | nil => rfl
  | cons c l =>
    obtain ⟨d, hd, rfl⟩ := h c List.mem_cons_self
    rw [List.dropWhile_cons_of_neg]
    rw [hp d hd]
    exact Bool.false_ne_true

theorem filter_underscore {l : List Byte} (h : ∀ c ∈ l, IsDigitChar c) :
    l.filter (· != 0x5F) = l := by
  rw [List.filter_eq_self]
  intro c hc
  obtain ⟨d, hd, rfl⟩ := h c hc
  exact bne_iff_ne.mpr (digit_plain d hd).2.1

theorem head_ne_of_digit {l : List Byte} (h : ∀ c ∈ l, IsDigitChar c) {b : Byte}
    (hb : ∀ d < 16, digit d ≠ b) : l.head? ≠ some b := by
  intro hhead
  obtain ⟨d, hd, hc⟩ := h b (List.mem_of_head? hhead)
  exact hb d hd hc.symm

theorem take_ne_of_digit {l : List Byte} (h : ∀ c ∈ l, IsDigitChar c) {a b : Byte}
    (hb : ∀ d < 16, digit d ≠ b) : l.take 2 ≠ [a, b] := by
  intro htake
  have hmem : b ∈ l.take 2 := by rw [htake]; simp
  obtain ⟨d, hd, hc⟩ := h b (List.mem_of_mem_take hmem)
  exact hb d hd hc.symm

theorem isDigitChar_numeral (n : ℕ) : ∀ c ∈ numeral 10 n, IsDigitChar c := by
  rw [← padded_zero]
  exact isDigitChar_of_mem (by decide) (by decide)

theorem strtoull_numeral (n : ℕ) :
    strtoull 10 (numeral 10 n) = if 2 ^ 64 ≤ n then none else some n := by
  have hdigits := isDigitChar_numeral n
  have hminus := head_ne_of_digit hdigits fun d hd => (digit_plain d hd).2.2.1
  have hplus := head_ne_of_digit hdigits fun d hd => (digit_plain d hd).2.2.2.1
  have hspace := dropWhile_of_digit hdigits
    (fun b => b == 0x20 || (0x09 ≤ b.toNat && b.toNat ≤ 0x0D)) (by decide)
  have hsign : ¬((numeral 10 n).head? = some 0x2D ∨ (numeral 10 n).head? = some 0x2B) :=
    not_or.mpr ⟨hminus, hplus⟩
  have hneg : ((numeral 10 n).head? == some 0x2D) = false := beq_eq_false_iff_ne.mpr hminus
  have hkeep : ¬(10 = 16 ∧ ((numeral 10 n).take 2 = ascii "0x" ∨
      (numeral 10 n).take 2 = ascii "0X") ∧
      (((numeral 10 n).drop 2).head?.bind (digitValue 16)).isSome = true) := fun h =>
    absurd h.1 (by decide)
  rw [strtoull, hspace, hneg, if_neg hsign, if_neg hkeep,
    if_neg (numeral_ne_nil (by decide) n), digitsValue_numeral (by decide) digitValue_ten]
  rfl

/-- The text of a number is all that is looked at, unless it is too long. -/
theorem pwParseU64_numeral_eq (n : ℕ) : pwParseU64 (numeral 10 n) =
    if 63 < (numeral 10 n).length then none else strtoull 10 (numeral 10 n) := by
  have hdigits := isDigitChar_numeral n
  have hne := numeral_ne_nil (b := 10) (by decide) n
  have hminus := head_ne_of_digit hdigits fun d hd => (digit_plain d hd).2.2.1
  have hplus := head_ne_of_digit hdigits fun d hd => (digit_plain d hd).2.2.2.1
  have hx : (numeral 10 n).take 2 ≠ ascii "0x" :=
    take_ne_of_digit hdigits fun d hd => (digit_plain d hd).2.2.2.2.1
  have hX : (numeral 10 n).take 2 ≠ ascii "0X" :=
    take_ne_of_digit hdigits fun d hd => (digit_plain d hd).2.2.2.2.2.1
  have hblank := dropWhile_of_digit hdigits (fun b => b == 0x20 || b == 0x09) (by decide)
  have hsign : ¬((numeral 10 n).head? = some 0x2D ∨ (numeral 10 n).head? = some 0x2B) :=
    not_or.mpr ⟨hminus, hplus⟩
  have hbase : ¬((numeral 10 n).take 2 = ascii "0x" ∨ (numeral 10 n).take 2 = ascii "0X") :=
    not_or.mpr ⟨hx, hX⟩
  rw [pwParseU64, filter_underscore hdigits, hblank, if_neg hsign, if_neg hbase]
  by_cases hlong : 63 < (numeral 10 n).length
  · rw [if_pos (.inr hlong), if_pos hlong]
  · rw [if_neg (not_or.mpr ⟨hne, hlong⟩), if_neg hlong]

/-- **A decimal number is read back.** -/
theorem pwParseU64_numeral {n : ℕ} (hn : n < 2 ^ 64) : pwParseU64 (numeral 10 n) = some n := by
  have hlen : (numeral 10 n).length ≤ 20 :=
    length_numeral_le (by decide) (by decide) (lt_trans hn (by decide))
  rw [pwParseU64_numeral_eq, if_neg (by omega), strtoull_numeral, if_neg (Nat.not_le.mpr hn)]

/-- A number of more than 64 bits is not read. -/
theorem pwParseU64_numeral_of_le {n : ℕ} (hn : 2 ^ 64 ≤ n) : pwParseU64 (numeral 10 n) = none := by
  rw [pwParseU64_numeral_eq, strtoull_numeral, if_pos hn, ite_self]

/-- **A hexadecimal number is read back.** -/
theorem pwParseU64_hexText {w n : ℕ} (hw : w ≤ 16) (hn : n < 2 ^ 64) :
    pwParseU64 (hexText w n) = some n := by
  have hdigits : ∀ c ∈ padded w 16 n, IsDigitChar c :=
    isDigitChar_of_mem (by decide) (by decide)
  have hlen : (padded w 16 n).length ≤ 16 :=
    length_padded_le (by decide) (by decide) hw (lt_of_lt_of_eq hn (by decide))
  have hne : padded w 16 n ≠ [] := by
    rw [padded]
    exact List.append_ne_nil_of_right_ne_nil _ (numeral_ne_nil (by decide) n)
  have hfilter : (hexText w n).filter (· != 0x5F) = hexText w n := by
    rw [hexText, List.filter_append, filter_underscore hdigits]
    rfl
  have hroom : ¬(hexText w n = [] ∨ 63 < (hexText w n).length) := by
    have htwo : (ascii "0x").length = 2 := by decide
    rw [hexText, List.length_append, htwo]
    simp only [not_or, List.append_eq_nil_iff, hne, and_false, not_false_eq_true, true_and]
    omega
  have hfirst : (((padded w 16 n).head?).bind (digitValue 16)).isSome = true := by
    obtain ⟨c, l, hcl⟩ := List.exists_cons_of_ne_nil hne
    obtain ⟨d, hd, hc⟩ := hdigits c (by rw [hcl]; exact List.mem_cons_self)
    rw [hcl, List.head?_cons, Option.bind_some, hc]
    exact (digit_plain d hd).2.2.2.2.2.2.2.2
  have hstrtoull : strtoull 16 (hexText w n) = some n := by
    have hdrop : (hexText w n).dropWhile
        (fun b => b == 0x20 || (0x09 ≤ b.toNat && b.toNat ≤ 0x0D)) = hexText w n := rfl
    have htake : (hexText w n).take 2 = ascii "0x" := rfl
    have hrest : (hexText w n).drop 2 = padded w 16 n := rfl
    have hneg : ((hexText w n).head? == some 0x2D) = false := rfl
    have hsign : ¬((hexText w n).head? = some 0x2D ∨ (hexText w n).head? = some 0x2B) := by
      rw [hexText, ascii]
      simp
    have hskip : 16 = 16 ∧ ((hexText w n).take 2 = ascii "0x" ∨
        (hexText w n).take 2 = ascii "0X") ∧
        (((hexText w n).drop 2).head?.bind (digitValue 16)).isSome = true :=
      ⟨rfl, .inl htake, by rw [hrest]; exact hfirst⟩
    rw [strtoull, hdrop, hneg, if_neg hsign, if_pos hskip, hrest, if_neg hne,
      digitsValue_padded (by decide) digitValue_sixteen, Option.bind_some,
      if_neg (Nat.not_le.mpr hn)]
    rfl
  rw [pwParseU64, hfilter, if_neg hroom]
  exact hstrtoull

/-! ## Fields of numbers -/

section Numbers

variable {s : List Byte}

theorem u8_of_parse {x : BitVec 8} (h : pwParseU64 s = some x.toNat) : u8 s = some x := by
  have hle : x.toNat ≤ 0xFF := Nat.le_of_lt_succ x.isLt
  rw [u8, pwParseU8, h, Option.filter_some, if_pos (decide_eq_true hle), Option.map_some,
    BitVec.ofNat_toNat, BitVec.setWidth_eq]

theorem u16_of_parse {x : BitVec 16} (h : pwParseU64 s = some x.toNat) : u16 s = some x := by
  have hle : x.toNat ≤ 0xFFFF := Nat.le_of_lt_succ x.isLt
  rw [u16, pwParseU16, h, Option.filter_some, if_pos (decide_eq_true hle), Option.map_some,
    BitVec.ofNat_toNat, BitVec.setWidth_eq]

theorem u32_of_parse {x : BitVec 32} (h : pwParseU64 s = some x.toNat) : u32 s = some x := by
  have hle : x.toNat ≤ 0xFFFFFFFF := Nat.le_of_lt_succ x.isLt
  rw [u32, pwParseU32, h, Option.filter_some, if_pos (decide_eq_true hle), Option.map_some,
    BitVec.ofNat_toNat, BitVec.setWidth_eq]

theorem u64_of_parse {x : BitVec 64} (h : pwParseU64 s = some x.toNat) : u64 s = some x := by
  rw [u64, h, Option.map_some, BitVec.ofNat_toNat, BitVec.setWidth_eq]

end Numbers

/-- A small number is itself. -/
theorem ofJson_of_lt {n : ℕ} (h : n < 2 ^ 53) : JsValue.ofJson n = .num n := by
  have hsign : (n : ℤ).sign * (roundDouble (n : ℤ).natAbs : ℕ) = n := by
    rw [Int.natAbs_natCast, roundDouble_of_lt h]
    cases n with
    | zero => rfl
    | succ n => rw [Int.sign_natCast_of_ne_zero (Nat.succ_ne_zero n), Int.one_mul]
  rw [JsValue.ofJson, hsign]

/-- A small number is written as it is. -/
theorem toYaml_ofJson {n : ℕ} (h : n < 2 ^ 53) :
    (JsValue.ofJson n).toYaml = .scalar (numeral 10 n) := by
  rw [ofJson_of_lt h, JsValue.toYaml, numberToString, if_neg (by omega), List.nil_append,
    Int.natAbs_natCast, shortest_of_lt h]

/-- A number below zero is not read. -/
theorem pwParseU64_neg {n : ℤ} (h : n < 0) : pwParseU64 (numberToString n) = none := by
  have hminus : numberToString n = 0x2D :: numeral 10 (shortest n.natAbs 20) := by
    rw [numberToString, if_pos h]
    rfl
  rw [pwParseU64, hminus]
  split_ifs
  · rfl
  · rfl

/-! ## MAC addresses -/

theorem padded_byte : ∀ n < 256, padded 2 16 n = [digit (n / 16), digit (n % 16)] := by
  decide +kernel

/-- `%x` reads a byte of two digits. -/
theorem scanHex_byte {a c : ℕ} (ha : a < 16) (hc : c < 16) {r : List Byte}
    (hr : r = [] ∨ r.head? = some 0x3A) :
    scanHex (digit a :: digit c :: r) = some (16 * a + c, r) := by
  have hskip : (digit a :: digit c :: r).dropWhile isSpace = digit a :: digit c :: r := by
    rw [List.dropWhile_cons_of_neg]
    simp [(digit_plain a ha).2.2.2.2.2.2.2.1]
  have hsign : Sign.read (digit a :: digit c :: r) = .none := by
    rw [Sign.read, if_neg (digit_plain a ha).2.2.2.1, if_neg (digit_plain a ha).2.2.1]
  have hx : ¬((digit c :: r).head? = some 0x78 ∨ (digit c :: r).head? = some 0x58) := by
    rw [List.head?_cons, Option.some.injEq, Option.some.injEq, not_or]
    exact ⟨(digit_plain c hc).2.2.2.2.1, (digit_plain c hc).2.2.2.2.2.1⟩
  have hhex {d : ℕ} (hd : d < 16) : isHexDigit (digit d) = true :=
    (digit_plain d hd).2.2.2.2.2.2.2.2
  have hval {d : ℕ} (hd : d < 16) : (digitValue 16 (digit d)).getD 0 = d := by
    rw [digitValue_sixteen d hd]
    rfl
  have hstop : r.takeWhile isHexDigit = [] ∧ r.dropWhile isHexDigit = r := by
    cases r with
    | nil => exact ⟨rfl, rfl⟩
    | cons b r =>
      have hb : b = 0x3A := by simpa using hr
      subst hb
      exact ⟨rfl, rfl⟩
  -- The body is what is behind a first zero.
  obtain ⟨ds, hbody, hvalue, hds⟩ : ∃ ds, hexBody (digit a :: digit c :: r) = ds ++ r ∧
      hexValue ds = 16 * a + c ∧ ds ≠ [] ∧ ∀ b ∈ ds, isHexDigit b = true := by
    by_cases hzero : a = 0
    · subst hzero
      refine ⟨[digit c], ?_, ?_, by simp, by simp [hhex hc]⟩
      · have hfirst : (digit 0 :: digit c :: r).head? = some 0x30 := rfl
        rw [hexBody, if_pos hfirst, List.tail_cons, if_neg hx]
        rfl
      · simp [hexValue, hval hc]
    · have hne : ∀ a < 16, a ≠ 0 → digit a ≠ 0x30 := by decide
      refine ⟨[digit a, digit c], ?_, ?_, by simp, by simp [hhex ha, hhex hc]⟩
      · rw [hexBody, if_neg (by simpa using hne a ha hzero)]
        rfl
      · simp [hexValue, hval ha, hval hc]
  have htake : (ds ++ r).takeWhile isHexDigit = ds := by
    rw [List.takeWhile_append_of_pos hds.2, hstop.1, List.append_nil]
  have hdrop : (ds ++ r).dropWhile isHexDigit = r := by
    rw [List.dropWhile_append_of_pos hds.2, hstop.2]
  rw [scanHex]
  simp only [hskip, hsign, Sign.text, List.length_nil, List.drop_zero, hbody, htake, hdrop, hvalue]
  rw [if_neg (by simp [hds.1]), if_neg (by omega), Sign.value, Nat.mod_eq_of_lt (by omega)]
  all_goals simp

/-- A byte of an address is read. -/
theorem scanHex_padded (b : Byte) {r : List Byte} (hr : r = [] ∨ r.head? = some 0x3A) :
    scanHex (padded 2 16 b.toNat ++ r) = some (b.toNat, r) := by
  have hlt := b.isLt
  rw [padded_byte b.toNat hlt]
  have := scanHex_byte (a := b.toNat / 16) (c := b.toNat % 16) (by omega) (by omega) hr
  rw [Nat.div_add_mod] at this
  exact this

/-- The bytes behind the first one. -/
theorem scanColonHex_padded (bs : List Byte) :
    scanColonHex bs.length (bs.flatMap fun b => 0x3A :: padded 2 16 b.toNat) =
      some (bs.map BitVec.toNat, []) := by
  induction bs with
  | nil => rfl
  | cons b bs ih =>
    have hr : (bs.flatMap fun b => 0x3A :: padded 2 16 b.toNat) = [] ∨
        (bs.flatMap fun b => 0x3A :: padded 2 16 b.toNat).head? = some (0x3A : Byte) := by
      cases bs with
      | nil => exact .inl rfl
      | cons b' bs => exact .inr rfl
    rw [List.flatMap_cons, List.length_cons, scanColonHex, List.cons_append, List.head?_cons,
      if_pos rfl, List.tail_cons, scanHex_padded b hr, Option.bind_some]
    simp only [ih]
    rfl

/-- The address that the bytes make. -/
theorem ofNat_macBytes (m : BitVec 48) :
    BitVec.ofNat 48 (((macBytes m).map BitVec.toNat).foldl (fun n o => n * 256 + o) 0) = m := by
  apply BitVec.eq_of_toNat_eq
  have hlt := m.isLt
  simp only [macBytes, List.map_cons, List.map_nil, List.foldl_cons, List.foldl_nil,
    BitVec.extractLsb'_toNat, BitVec.toNat_ofNat, Nat.shiftRight_eq_div_pow]
  omega

/-- The text of an address. -/
def macText (m : BitVec 48) : List Byte :=
  [0x3A].intercalate ((macBytes m).map fun b => padded 2 16 b.toNat)

/-- **A MAC address is read back.** -/
theorem pwParseMac_macText (m : BitVec 48) : pwParseMac (macText m) = some m := by
  have htext : macText m = padded 2 16 (m.extractLsb' 40 8).toNat ++
      ((macBytes m).tail.flatMap fun b => 0x3A :: padded 2 16 b.toNat) := by
    simp [macText, macBytes, List.intercalate]
  have hcolon : ((macBytes m).tail.flatMap fun b => 0x3A :: padded 2 16 b.toNat) = [] ∨
      ((macBytes m).tail.flatMap fun b => 0x3A :: padded 2 16 b.toNat).head? = some (0x3A : Byte) :=
    .inr rfl
  have hall : ∀ o ∈ (m.extractLsb' 40 8).toNat :: (macBytes m).tail.map BitVec.toNat, o ≤ 0xFF := by
    intro o ho
    have ho : o ∈ (macBytes m).map BitVec.toNat := ho
    obtain ⟨b, -, rfl⟩ := List.mem_map.mp ho
    exact Nat.le_of_lt_succ b.isLt
  rw [pwParseMac, htext, scanHex_padded _ hcolon, Option.bind_some]
  have htail := scanColonHex_padded (macBytes m).tail
  have hfive : (macBytes m).tail.length = 5 := rfl
  rw [hfive] at htail
  simp only [htail, Option.bind_some]
  rw [if_pos ⟨trivial, hall⟩]
  exact congrArg some (ofNat_macBytes m)

/-! ## Members and fields -/

/-- A string of characters that are bytes, and not null. -/
def Plain (s : String) : Prop := ∀ c ∈ s.toList, 0 < c.toNat ∧ c.toNat < 128

instance (s : String) : Decidable (Plain s) := List.decidableBAll _ _

/-- Plain characters are told apart by their bytes. -/
theorem ofNat_char_injective {c d : Char} (hc : c.toNat < 128) (hd : d.toNat < 128)
    (h : BitVec.ofNat 8 c.toNat = BitVec.ofNat 8 d.toNat) : c = d := by
  have h := congrArg BitVec.toNat h
  rw [BitVec.toNat_ofNat, BitVec.toNat_ofNat, Nat.mod_eq_of_lt (by omega),
    Nat.mod_eq_of_lt (by omega)] at h
  exact Char.toNat_inj.mp h

theorem ascii_injective {s t : String} (hs : Plain s) (ht : Plain t) (h : ascii s = ascii t) :
    s = t := by
  apply String.toList_inj.mp
  rw [Plain] at hs ht
  rw [ascii, ascii] at h
  generalize s.toList = l at hs h
  generalize t.toList = l' at ht h
  induction l generalizing l' with
  | nil => exact (List.map_eq_nil_iff.mp h.symm).symm
  | cons c l ih =>
    cases l' with
    | nil => cases h
    | cons d l' =>
      rw [List.map_cons, List.map_cons, List.cons.injEq] at h
      rw [List.forall_mem_cons] at hs ht
      rw [ofNat_char_injective hs.1.2 ht.1.2 h.1, ih hs.2 l' ht.2 h.2]

theorem null_notMem_ascii {s : String} (hs : Plain s) : 0 ∉ ascii s := by
  intro h
  obtain ⟨c, hc, h0⟩ := List.mem_map.mp h
  have := hs c hc
  have h0 := congrArg BitVec.toNat h0
  rw [BitVec.toNat_ofNat] at h0
  change c.toNat % 2 ^ 8 = 0 at h0
  omega

theorem cString_ascii {s : String} (hs : Plain s) : cString (ascii s) = ascii s :=
  cString_of_notMem (null_notMem_ascii hs)

/-- The keys of an object are plain. -/
def PlainKeys (o : JsObject) : Prop := ∀ kv ∈ o, Plain kv.1

@[simp] theorem plainKeys_nil : PlainKeys [] := fun _ h => absurd h List.not_mem_nil

@[simp] theorem plainKeys_cons {k : String} {v : JsValue} {o : JsObject} :
    PlainKeys ((k, v) :: o) ↔ Plain k ∧ PlainKeys o := List.forall_mem_cons

@[simp] theorem plainKeys_append {o o' : JsObject} :
    PlainKeys (o ++ o') ↔ PlainKeys o ∧ PlainKeys o' := List.forall_mem_append

theorem plainKeys_memberIf (c : Bool) {k : String} (hk : Plain k) (v : JsValue) :
    PlainKeys (memberIf c k v) := by
  cases c with
  | false => exact plainKeys_nil
  | true => exact plainKeys_cons.mpr ⟨hk, plainKeys_nil⟩

/-- **A member of an object is the pair of the tree.** -/
theorem pwYamlMapGet_toYaml {o : JsObject} (ho : PlainKeys o) {key : String} (hkey : Plain key) :
    pwYamlMapGet (JsValue.obj o).toYaml (ascii key) = (o.lookup key).map JsValue.toYaml := by
  rw [JsValue.toYaml, pwYamlMapGet]
  induction o with
  | nil => rfl
  | cons kv o ih =>
    obtain ⟨k, v⟩ := kv
    rw [plainKeys_cons] at ho
    rw [membersToYaml, List.find?_cons, cString_ascii ho.1, List.lookup_cons]
    by_cases hk : key = k
    · subst hk
      simp
    · have hne : (ascii k == ascii key) = false :=
        beq_eq_false_iff_ne.mpr fun h => hk (ascii_injective ho.1 hkey h).symm
      have hne' : (key == k) = false := beq_eq_false_iff_ne.mpr hk
      rw [hne, hne']
      exact ih ho.2

/-- The text of a value is read as `a`. -/
def Reads {α : Type} (v : JsValue) (p : List Byte → Option α) (a : α) : Prop :=
  ∃ s, v.toYaml = .scalar s ∧ 0 ∉ s ∧ p s = some a

section Fields

variable {α : Type} {o : JsObject} (ho : PlainKeys o) {key : String} (hkey : Plain key)
  (path : String) {p : List Byte → Option α} {v : JsValue} {a : α}

include ho hkey

theorem getScalar_of_lookup {s : List Byte} (hv : o.lookup key = some v)
    (hs : v.toYaml = .scalar s) (hnull : 0 ∉ s) (required : Bool) :
    getScalar (JsValue.obj o).toYaml key path required = .ok (some s) := by
  rw [getScalar, pwYamlMapGet_toYaml ho hkey, hv, Option.map_some, hs]
  dsimp only
  rw [cString_of_notMem hnull]

theorem getScalar_of_missing (hv : o.lookup key = none) :
    getScalar (JsValue.obj o).toYaml key path false = .ok none := by
  rw [getScalar, pwYamlMapGet_toYaml ho hkey, hv]
  rfl

/-- A required field whose text is read back. -/
theorem reqField_of_lookup (hv : o.lookup key = some v) (h : Reads v p a) (e : PwFailure) :
    reqField (JsValue.obj o).toYaml key path p e = .ok a := by
  obtain ⟨s, hs, hnull, hp⟩ := h
  rw [reqField, getScalar_of_lookup ho hkey path hv hs hnull]
  exact orFail_eq_ok_iff.mpr hp

/-- An optional field whose text is read back, when it is there. -/
theorem optField_of_lookup {c : Bool} (hv : o.lookup key = if c then some v else none)
    (h : c = true → Reads v p a) (dflt : α) (e : PwFailure) :
    optField (JsValue.obj o).toYaml key path p dflt e = .ok (if c then a else dflt) := by
  cases c with
  | false =>
    rw [optField, getScalar_of_missing ho hkey path hv]
    rfl
  | true =>
    obtain ⟨s, hs, hnull, hp⟩ := h rfl
    rw [optField, getScalar_of_lookup ho hkey path hv hs hnull]
    exact orFail_eq_ok_iff.mpr hp

end Fields

/-! ## Values that are read back -/

theorem null_notMem_of_digits {l : List Byte} (h : ∀ c ∈ l, IsDigitChar c) : 0 ∉ l := by
  intro h0
  obtain ⟨d, hd, hc⟩ := h 0 h0
  exact (digit_plain d hd).1 hc.symm

theorem null_notMem_numeral (n : ℕ) : 0 ∉ numeral 10 n :=
  null_notMem_of_digits (isDigitChar_numeral n)

theorem null_notMem_hexText (w n : ℕ) : 0 ∉ hexText w n := by
  rw [hexText, List.mem_append, not_or]
  exact ⟨by decide, null_notMem_of_digits (isDigitChar_of_mem (by decide) (by decide))⟩

/-- A small number is read by what reads its text. -/
theorem reads_ofJson {α : Type} {p : List Byte → Option α} {a : α} {n : ℕ} (hn : n < 2 ^ 53)
    (h : pwParseU64 (numeral 10 n) = some n → p (numeral 10 n) = some a) :
    Reads (.ofJson n) p a :=
  ⟨numeral 10 n, toYaml_ofJson hn, null_notMem_numeral n,
    h (pwParseU64_numeral (lt_trans hn (by decide)))⟩

theorem reads_u8 (x : BitVec 8) : Reads (.ofJson x.toNat) u8 x :=
  reads_ofJson (lt_trans x.isLt (by decide)) u8_of_parse

theorem reads_u16 (x : BitVec 16) : Reads (.ofJson x.toNat) u16 x :=
  reads_ofJson (lt_trans x.isLt (by decide)) u16_of_parse

/-- A hexadecimal text is read by what reads its number. -/
theorem reads_hexText {α : Type} {p : List Byte → Option α} {a : α} {w n : ℕ} (hw : w ≤ 16)
    (hn : n < 2 ^ 64) (h : pwParseU64 (hexText w n) = some n → p (hexText w n) = some a) :
    Reads (.str (hexText w n)) p a :=
  ⟨hexText w n, rfl, null_notMem_hexText w n, h (pwParseU64_hexText hw hn)⟩

theorem reads_bool (b : Bool) : Reads (.bool b) pwParseBool b := by
  cases b with
  | false => exact ⟨ascii "false", rfl, by decide, by decide⟩
  | true => exact ⟨ascii "true", rfl, by decide, by decide⟩

/-- A text of plain characters is read by what reads it. -/
theorem reads_lit {α : Type} {p : List Byte → Option α} {a : α} {s : String} (hs : Plain s)
    (h : p (ascii s) = some a) : Reads (.lit s) p a :=
  ⟨ascii s, rfl, null_notMem_ascii hs, h⟩

theorem null_notMem_macText (m : BitVec 48) : 0 ∉ macText m := by
  have hbyte (n : ℕ) : 0#8 ∉ padded 2 16 n :=
    null_notMem_of_digits (isDigitChar_of_mem (by decide) (by decide))
  simp [macText, macBytes, List.intercalate, hbyte]

theorem reads_macText (m : BitVec 48) : Reads (.str (macText m)) pwParseMac m :=
  ⟨macText m, rfl, null_notMem_macText m, pwParseMac_macText m⟩

/-- What is relied on of the C library: an address that was written is read back, an IPv6 address
has colons, and no text has a null character. -/
structure Inet.Lawful (inet : Inet) : Prop where
  pton4 : ∀ a, inet.pton4 (inet.ntop4 a) = some a
  pton6 : ∀ a, inet.pton6 (inet.ntop6 a) = some a
  colon : ∀ a, 0x3A ∈ inet.ntop6 a
  null4 : ∀ a, 0 ∉ inet.ntop4 a
  null6 : ∀ a, 0 ∉ inet.ntop6 a

theorem Inet.Lawful.reads4 {inet : Inet} (h : inet.Lawful) (a : BitVec 32) :
    Reads (.str (inet.ntop4 a)) inet.pton4 a :=
  ⟨inet.ntop4 a, rfl, h.null4 a, h.pton4 a⟩

theorem Inet.Lawful.reads6 {inet : Inet} (h : inet.Lawful) (a : BitVec 128) :
    Reads (.str (inet.ntop6 a)) inet.pton6 a :=
  ⟨inet.ntop6 a, rfl, h.null6 a, h.pton6 a⟩

/-! ## Numbers with a sign -/

/-- The text that a signed number is sent as. -/
def signedText (n : ℤ) : List Byte := numberToString (n.sign * roundDouble n.natAbs)

theorem toYaml_signed (n : ℤ) : (JsValue.ofJson n).toYaml = .scalar (signedText n) := by
  rw [JsValue.ofJson, JsValue.toYaml, signedText]

theorem null_notMem_numberToString (n : ℤ) : 0 ∉ numberToString n := by
  rw [numberToString, List.mem_append, not_or]
  refine ⟨?_, null_notMem_numeral _⟩
  split <;> decide

theorem signedText_natCast (n : ℕ) :
    signedText n = numeral 10 (shortest (roundDouble n) 20) := by
  have hsign : (n : ℤ).sign * (roundDouble n : ℕ) = (roundDouble n : ℕ) := by
    cases n with
    | zero => rfl
    | succ n => rw [Int.sign_natCast_of_ne_zero (Nat.succ_ne_zero n), Int.one_mul]
  rw [signedText, Int.natAbs_natCast, hsign, numberToString, if_neg (by omega), List.nil_append,
    Int.natAbs_natCast]

/-- A number that is not zero is not rounded to zero. -/
theorem roundDouble_pos {n : ℕ} (h : 0 < n) : 0 < roundDouble n := by
  by_cases hlt : n < 2 ^ 53
  · rwa [roundDouble_of_lt hlt]
  · exact lt_of_lt_of_le (by decide) (le_roundDouble (Nat.not_lt.mp hlt))

theorem pwParseU64_signedText_neg {n : ℤ} (h : n < 0) : pwParseU64 (signedText n) = none := by
  rw [signedText, Int.sign_eq_neg_one_of_neg h]
  apply pwParseU64_neg
  have hpos := roundDouble_pos (Int.natAbs_pos.mpr (ne_of_lt h))
  omega

/-- **A signed number of 32 bits** is read back when it is not below zero. -/
theorem u32_signedText (x : BitVec 32) :
    u32 (signedText x.toInt) = if x.toNat < 2 ^ 31 then some x else none := by
  by_cases h : x.toNat < 2 ^ 31
  · rw [if_pos h, BitVec.toInt_eq_toNat_of_lt (by omega), signedText_natCast,
      shortest_roundDouble (by omega)]
    exact u32_of_parse (pwParseU64_numeral (by omega))
  · have hneg : x.toInt < 0 := BitVec.toInt_neg_iff.mpr (by omega)
    rw [if_neg h, u32, pwParseU32, pwParseU64_signedText_neg hneg]
    rfl

/-- **A signed number of 64 bits** is read back when it is not below zero and printed as it is. -/
theorem u64_signedText_iff (x : BitVec 64) : u64 (signedText x.toInt) = some x ↔
    x.toNat < 2 ^ 63 ∧ shortest (roundDouble x.toNat) 20 = x.toNat := by
  by_cases h : x.toNat < 2 ^ 63
  · rw [BitVec.toInt_eq_toNat_of_lt (by omega), signedText_natCast]
    by_cases hlt : shortest (roundDouble x.toNat) 20 < 2 ^ 64
    · rw [u64, pwParseU64_numeral hlt, Option.map_some, Option.some.injEq]
      constructor
      · intro heq
        have heq := congrArg BitVec.toNat heq
        rw [BitVec.toNat_ofNat, Nat.mod_eq_of_lt hlt] at heq
        exact ⟨h, heq⟩
      · rintro ⟨-, heq⟩
        rw [heq, BitVec.ofNat_toNat, BitVec.setWidth_eq]
    · rw [u64, pwParseU64_numeral_of_le (Nat.not_lt.mp hlt), Option.map_none]
      constructor
      · intro hnone
        cases hnone
      · rintro ⟨-, heq⟩
        omega
  · have hneg : x.toInt < 0 := BitVec.toInt_neg_iff.mpr (by omega)
    rw [u64, pwParseU64_signedText_neg hneg]
    constructor
    · intro hnone
      cases hnone
    · rintro ⟨hle, -⟩
      exact absurd hle h

/-! ## Texts -/

/-- A text with something else in it than digits stays a text. -/
theorem scalar_str {s : List Byte} {b : Byte} (hb : b ∈ s) (hminus : b ≠ 0x2D)
    (hdigit : isDigit b = false) : scalar (some (.str s)) = .str s := by
  have hno : isDecimal s = false := by
    rw [isDecimal, Bool.and_eq_false_iff]
    right
    rw [List.all_eq_false]
    refine ⟨b, ?_, by simp [hdigit]⟩
    split
    · cases s with
      | nil => exact hb
      | cons c s =>
        rename_i hhead
        cases hhead
        exact (List.mem_cons.mp hb).resolve_left hminus
    · exact hb
  change (if isDecimal s = true then _ else _) = _
  rw [hno]
  rfl

theorem scalar_hexText (w n : ℕ) : scalar (some (.str (hexText w n))) = .str (hexText w n) :=
  scalar_str (b := 0x78) (List.mem_append_left _ (by decide)) (by decide) (by decide)

end PacketWyrm
