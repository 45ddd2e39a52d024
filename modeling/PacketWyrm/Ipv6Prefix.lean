import PacketWyrm.EnvConfig
import PacketWyrm.ParserAxis
import PacketWyrm.RowWire
import PacketWyrm.Lib.Strtoul

/-!
# IPv6 prefixes

The prefix lengths of a configuration: behind the slash of an address of a forward rule, and in
the match block of a flow.  Both are read with `strtoul` and become a mask of leading ones, from
which the form of the web interface reads the length back.  The reader of addresses,
`inet_pton`, is a parameter.

## Main definitions

* `pwV6PrefixMask`, `v6PrefixLen` — a mask from its length, and the length from the mask.
* `pwParseIpv6Cidr`, `matchIpv6Prefix` — the two places.
* `IsPrefixText` — the text of a prefix length; `IsLenient` — what `strtoul` takes besides.

## Main results

* `LeadingOnes.pwV6PrefixMask`, `v6PrefixLen_pwV6PrefixMask` — the mask.
* `prefix_grammar_iff` — exactly when the two places take their grammar and nothing else.
-/

namespace PacketWyrm

open Lib

/-! ## Masks -/

/-- A byte of `pw_v6_prefix_mask`: the part of the prefix that falls on the byte. -/
def v6MaskByte (pfx : ℕ) (i : ℕ) : Byte :=
  let lo := i * 8
  let hi := lo + 8
  let bits := if hi ≤ pfx then 8 else if lo < pfx then pfx - lo else 0
  if bits = 0 then 0 else BitVec.ofNat 8 (0xFF <<< (8 - bits))

/-- `pw_v6_prefix_mask`. -/
def pwV6PrefixMask (pfx : ℕ) : BitVec 128 := be128 (v6MaskByte pfx) 0

/-- The loop on the byte that ends the ones: eight rounds shift all of it out. -/
def onesOf : ℕ → Byte → ℕ
  | 0, _ => 0
  | rounds + 1, b => if b.msb then onesOf rounds (b <<< 1) + 1 else 0

/-- The loop over the bytes. -/
def prefixLenOf : List Byte → ℕ
  | [] => 0
  | b :: r => if b = 0xFF then 8 + prefixLenOf r else onesOf 8 b

/-- `v6_prefix_len`. -/
def v6PrefixLen (m : BitVec 128) : ℕ := prefixLenOf (beBytes 16 m)

/-- `n` leading ones, and zeros behind them. -/
def LeadingOnes (n : ℕ) (m : BitVec 128) : Prop := ∀ k < 128, m.getMsbD k = decide (k < n)

/-- The ones of a byte. -/
theorem getMsbD_shifted : ∀ bits ≤ 8, 0 < bits → ∀ j < 8,
    (BitVec.ofNat 8 (0xFF <<< (8 - bits))).getMsbD j = decide (j < bits) := by decide

theorem getMsbD_v6MaskByte (pfx i : ℕ) {j : ℕ} (hj : j < 8) :
    (v6MaskByte pfx i).getMsbD j = decide (i * 8 + j < pfx) := by
  rw [v6MaskByte]
  by_cases hhi : i * 8 + 8 ≤ pfx
  · rw [if_pos hhi, if_neg (by decide), getMsbD_shifted 8 le_rfl (by decide) j hj]
    exact decide_eq_decide.mpr (by omega)
  · rw [if_neg hhi]
    by_cases hlo : i * 8 < pfx
    · rw [if_pos hlo, if_neg (by omega), getMsbD_shifted _ (by omega) (by omega) j hj]
      exact decide_eq_decide.mpr (by omega)
    · rw [if_neg hlo, if_pos rfl, decide_eq_false (by omega)]
      exact BitVec.getMsbD_zero

/-- The bits of two halves. -/
theorem getMsbD_halves {n : ℕ} {f : ℕ → Bool} {x y : BitVec n} (hx : ∀ k < n, x.getMsbD k = f k)
    (hy : ∀ k < n, y.getMsbD k = f (n + k)) : ∀ k < n + n, (x ++ y).getMsbD k = f k := by
  intro k hk
  rw [BitVec.getMsbD_append]
  by_cases hlt : k < n
  · rw [if_neg (by omega), hx k hlt]
  · rw [if_pos (by omega), hy (k - n) (by omega)]
    congr 1
    omega

/-- The bits of sixteen bytes. -/
theorem getMsbD_be128 {w : Window} {f : ℕ → Bool}
    (h : ∀ i < 16, ∀ j < 8, (w i).getMsbD j = f (i * 8 + j)) :
    ∀ k < 128, (be128 w 0).getMsbD k = f k := by
  have h₈ : ∀ i < 16, ∀ k < 8, (w i).getMsbD k = f (8 * i + k) := by
    intro i hi k hk
    rw [h i hi k hk, Nat.mul_comm]
  have h₁₆ : ∀ i < 15, ∀ k < 16, (be16 w i).getMsbD k = f (8 * i + k) := by
    intro i hi
    apply getMsbD_halves (h₈ i (by omega))
    intro k hk
    rw [h₈ (i + 1) (by omega) k hk]
    congr 1
    omega
  have h₃₂ : ∀ i < 13, ∀ k < 32, (be32 w i).getMsbD k = f (8 * i + k) := by
    intro i hi
    apply getMsbD_halves (h₁₆ i (by omega))
    intro k hk
    rw [h₁₆ (i + 2) (by omega) k hk]
    congr 1
    omega
  have h₆₄ : ∀ i < 9, ∀ k < 64, (be64 w i).getMsbD k = f (8 * i + k) := by
    intro i hi
    apply getMsbD_halves (h₃₂ i (by omega))
    intro k hk
    rw [h₃₂ (i + 4) (by omega) k hk]
    congr 1
    omega
  intro k hk
  have h₁₂₈ : (be128 w 0).getMsbD k = f (8 * 0 + k) := by
    apply getMsbD_halves (f := fun k => f (8 * 0 + k)) (h₆₄ 0 (by omega)) _ k hk
    intro k hk
    rw [h₆₄ (0 + 8) (by omega) k hk]
    congr 1
    omega
  rw [h₁₂₈, Nat.mul_zero, Nat.zero_add]

/-- **The mask has as many leading ones as the prefix is long.** -/
theorem leadingOnes_pwV6PrefixMask (pfx : ℕ) : LeadingOnes pfx (pwV6PrefixMask pfx) :=
  getMsbD_be128 fun i _ _ hj => getMsbD_v6MaskByte pfx i hj

/-- The byte at which the loop over the bytes stops. -/
theorem onesOf_shifted : ∀ bits < 8, onesOf 8
    (if bits = 0 then 0 else BitVec.ofNat 8 (0xFF <<< (8 - bits))) = bits := by decide

theorem v6MaskByte_of_le {pfx i : ℕ} (h : i * 8 + 8 ≤ pfx) : v6MaskByte pfx i = 0xFF := by
  rw [v6MaskByte]
  rw [if_pos h]
  rfl

theorem v6MaskByte_ne {pfx i : ℕ} (h : pfx < i * 8 + 8) : v6MaskByte pfx i ≠ 0xFF := by
  intro heq
  have hbit := getMsbD_v6MaskByte pfx i (show 7 < 8 by decide)
  rw [heq, decide_eq_false (by omega)] at hbit
  exact absurd hbit (by decide)

theorem onesOf_v6MaskByte {pfx i : ℕ} (h : pfx < i * 8 + 8) :
    onesOf 8 (v6MaskByte pfx i) = pfx - i * 8 := by
  have hhi : ¬i * 8 + 8 ≤ pfx := by omega
  rw [v6MaskByte, if_neg hhi]
  by_cases hlo : i * 8 < pfx
  · rw [if_pos hlo]
    exact onesOf_shifted (pfx - i * 8) (by omega)
  · rw [if_neg hlo, if_pos rfl, Nat.sub_eq_zero_of_le (by omega)]
    decide

/-- The loop over the bytes counts what is left of the prefix. -/
theorem prefixLenOf_v6MaskByte (pfx n i : ℕ) :
    prefixLenOf ((List.range' i n).map (v6MaskByte pfx)) = min (pfx - i * 8) (n * 8) := by
  induction n generalizing i with
  | zero => simp [prefixLenOf]
  | succ n ih =>
    rw [List.range'_succ, List.map_cons, prefixLenOf]
    by_cases h : i * 8 + 8 ≤ pfx
    · rw [if_pos (v6MaskByte_of_le h), ih]
      omega
    · rw [if_neg (v6MaskByte_ne (by omega)), onesOf_v6MaskByte (by omega)]
      omega

/-- The bytes of sixteen bytes. -/
theorem beBytes_be128 (w : Window) : beBytes 16 (be128 w 0) = (List.range' 0 16).map w := by
  rw [beBytes, List.range_eq_range']
  apply List.map_congr_left
  intro i hi
  have hi : i < 16 := by
    rw [List.mem_range'_1] at hi
    omega
  have hbits := getMsbD_be128 (w := w) (f := fun k => (w (k / 8)).getMsbD (k % 8)) (by
    intro i _ j hj
    rw [show (i * 8 + j) / 8 = i by omega, show (i * 8 + j) % 8 = j by omega])
  apply BitVec.eq_of_getMsbD_eq
  intro j hj
  have hbit := hbits (i * 8 + j) (by omega)
  rw [show (i * 8 + j) / 8 = i by omega, show (i * 8 + j) % 8 = j by omega] at hbit
  rw [← hbit, BitVec.getMsbD_eq_getLsbD, BitVec.getMsbD_eq_getLsbD, BitVec.getLsbD_extractLsb',
    decide_eq_true hj, decide_eq_true (by omega), decide_eq_true (by omega)]
  simp only [Bool.true_and]
  congr 1
  omega

/-- **The length is read back from the mask.** -/
theorem v6PrefixLen_pwV6PrefixMask {pfx : ℕ} (h : pfx ≤ 128) :
    v6PrefixLen (pwV6PrefixMask pfx) = pfx := by
  rw [v6PrefixLen, pwV6PrefixMask, beBytes_be128, prefixLenOf_v6MaskByte]
  omega

/-! ## The two places -/

/-- The reader of IPv6 addresses: `inet_pton` for `AF_INET6`.  An address has no slash, and at
most `INET6_ADDRSTRLEN - 1` characters. -/
structure InetPton6 where
  read : List Byte → Option (BitVec 128)
  read_nil : read [] = none
  slash_notMem : ∀ s, (read s).isSome → 0x2F ∉ s
  length_le : ∀ s, (read s).isSome → s.length ≤ 45

/-- A prefix length: `strtoul`, then the check that the text is at its end and the number is at
most 128. -/
def strtoulPrefix (t : List Byte) : Option ℕ :=
  let q := strtoul t
  if q.rest ≠ [] ∨ 128 < q.value then none else some q.value

/-- `pw_parse_ipv6_cidr`. -/
def pwParseIpv6Cidr (inet : InetPton6) (s : List Byte) : Option (BitVec 128 × BitVec 128) :=
  let a := s.takeWhile (· != 0x2F)
  match s.dropWhile (· != 0x2F) with
  | [] => (inet.read s).map fun addr => (addr, pwV6PrefixMask 128)
  | _ :: t =>
    if a = [] ∨ 64 ≤ a.length then none
    else (strtoulPrefix t).bind fun pfx =>
      (inet.read a).map fun addr => (addr, pwV6PrefixMask pfx)

/-- `ipv6_dst_prefix` and `ipv6_src_prefix` of the match block: the mask that the scalar stands
for.  `present` says that the flow has an IPv6 header. -/
def matchIpv6Prefix (name : String) (present : Bool) (mp : String) (s : List Byte) :
    Except PwFailure (BitVec 128) := do
  failIf (!present) (diag .inval mp (name ++ " requires an ipv6 flow"))
  let pfx ← orFail (strtoulPrefix s) (diag .parse mp (name ++ " must be 0..128"))
  pure (pwV6PrefixMask pfx)

/-- `ipv6_dst_prefix`. -/
def matchIpv6DstPrefix := matchIpv6Prefix "ipv6_dst_prefix"

/-- `ipv6_src_prefix`. -/
def matchIpv6SrcPrefix := matchIpv6Prefix "ipv6_src_prefix"

/-! ## The grammar -/

/-- The text of the prefix length `n`: digits. -/
structure IsPrefixText (t : List Byte) (n : ℕ) : Prop where
  ne_nil : t ≠ []
  digits : ∀ b ∈ t, isDigit b = true
  value : decimal t = n
  le : n ≤ 128

/-- An address with the prefix length `n`, which is 128 when nothing is said. -/
def IsCidrText (inet : InetPton6) (s : List Byte) (addr : BitVec 128) (n : ℕ) : Prop :=
  (inet.read s = some addr ∧ n = 128) ∨
    ∃ a t, s = a ++ 0x2F :: t ∧ inet.read a = some addr ∧ IsPrefixText t n

/-- What is taken besides: no text at all, and a number behind white space or a sign that is at
most 128 as an unsigned number of 64 bits. -/
def IsLenient (t : List Byte) : Prop :=
  t = [] ∨ ∃ blanks sign ds, IsNumeral blanks sign ds ∧ t = blanks ++ (sign.text ++ ds) ∧
    (blanks ≠ [] ∨ sign ≠ .none) ∧ decimal ds < 2 ^ 64 ∧ sign.value (decimal ds) ≤ 128

theorem IsPrefixText.strtoul {t : List Byte} {n : ℕ} (h : IsPrefixText t n) :
    strtoul t = { value := n, rest := [], erange := false } := by
  have hnum : IsNumeral [] .none t := ⟨by simp, h.digits, h.ne_nil⟩
  have hread := strtoul_numeral (r := []) hnum (by simp)
  have hle := h.le
  rw [List.append_nil, h.value, if_neg (by omega)] at hread
  exact hread

theorem IsPrefixText.strtoulPrefix {t : List Byte} {n : ℕ} (h : IsPrefixText t n) :
    strtoulPrefix t = some n := by
  have hle := h.le
  simp [PacketWyrm.strtoulPrefix, h.strtoul, hle]

/-- A digit stands at the head of a prefix length, and a lenient text has none there. -/
theorem IsPrefixText.not_lenient {t : List Byte} {n : ℕ} (h : IsPrefixText t n) :
    ¬IsLenient t := by
  rintro (rfl | ⟨blanks, sign, ds, hnum, rfl, hor, -, -⟩)
  · exact h.ne_nil rfl
  · cases blanks with
    | cons b blanks =>
      have hdigit := h.digits b (by simp)
      have hspace := hnum.blanks b List.mem_cons_self
      rw [not_isSpace_of_isDigit hdigit] at hspace
      cases hspace
    | nil =>
      cases sign with
      | none => simp at hor
      | plus => exact absurd (h.digits 0x2B (by simp [Sign.text])) (by decide)
      | minus => exact absurd (h.digits 0x2D (by simp [Sign.text])) (by decide)

/-- **What `strtoulPrefix` takes**: a prefix length, or a lenient text. -/
theorem prefixText_or_lenient {t : List Byte} {n : ℕ} (h : strtoulPrefix t = some n) :
    IsPrefixText t n ∨ IsLenient t := by
  simp only [strtoulPrefix, Option.ite_none_left_eq_some, not_or, Decidable.not_not,
    Option.some.injEq] at h
  obtain ⟨⟨hrest, hle⟩, hn⟩ := h
  rcases strtoul_rest_iff.mp hrest with rfl | ⟨blanks, sign, ds, hnum, rfl⟩
  · exact Or.inr (Or.inl rfl)
  have hread := strtoul_numeral (r := []) hnum (by simp)
  rw [List.append_nil] at hread
  rw [hread] at hle hn
  by_cases hlarge : 2 ^ 64 ≤ decimal ds
  · rw [if_pos hlarge] at hle
    exact absurd hle (by decide)
  · rw [if_neg hlarge] at hle hn
    dsimp only at hle hn
    by_cases hplain : blanks = [] ∧ sign = .none
    · obtain ⟨rfl, rfl⟩ := hplain
      exact Or.inl ⟨hnum.ne_nil, hnum.digits, hn, by omega⟩
    · refine Or.inr (Or.inr ⟨blanks, sign, ds, hnum, rfl, ?_, by omega, by omega⟩)
      rw [not_and_or] at hplain
      exact hplain

/-- A lenient text is taken. -/
theorem IsLenient.strtoulPrefix {t : List Byte} (h : IsLenient t) :
    ∃ n, strtoulPrefix t = some n := by
  rcases h with rfl | ⟨blanks, sign, ds, hnum, rfl, -, hlt, hle⟩
  · exact ⟨0, by decide⟩
  · have hread := strtoul_numeral (r := []) hnum (by simp)
    rw [List.append_nil, if_neg (by omega)] at hread
    refine ⟨sign.value (decimal ds), ?_⟩
    rw [PacketWyrm.strtoulPrefix, hread]
    simp [hle]

theorem strtoulPrefix_le {t : List Byte} {n : ℕ} (h : strtoulPrefix t = some n) : n ≤ 128 := by
  simp only [strtoulPrefix, Option.ite_none_left_eq_some, not_or, Option.some.injEq] at h
  omega

/-! ## Where the grammar is kept -/

/-- The address parser takes an address with its prefix length, and makes the mask of it, from
which the length is read back. -/
structure CidrExact (inet : InetPton6) (s : List Byte) : Prop where
  sound : ∀ addr m, pwParseIpv6Cidr inet s = some (addr, m) →
    ∃ n, IsCidrText inet s addr n ∧ LeadingOnes n m ∧ v6PrefixLen m = n
  complete : ∀ addr n, IsCidrText inet s addr n → ∃ m, pwParseIpv6Cidr inet s = some (addr, m)

/-- The match block takes a prefix length, and makes the mask of it. -/
structure PrefixExact (f : List Byte → Except PwFailure (BitVec 128)) (s : List Byte) : Prop where
  sound : ∀ m, f s = .ok m → ∃ n, IsPrefixText s n ∧ LeadingOnes n m ∧ v6PrefixLen m = n
  complete : ∀ n, IsPrefixText s n → ∃ m, f s = .ok m

theorem splitSlash {a t : List Byte} (ha : 0x2F ∉ a) :
    (a ++ 0x2F :: t).takeWhile (· != 0x2F) = a ∧
      (a ++ 0x2F :: t).dropWhile (· != 0x2F) = 0x2F :: t := by
  have hall : ∀ b ∈ a, (b != 0x2F) = true := by
    intro b hb
    rw [bne_iff_ne]
    rintro rfl
    exact ha hb
  constructor
  · rw [List.takeWhile_append_of_pos hall]
    simp
  · rw [List.dropWhile_append_of_pos hall]
    simp

/-- An address without a slash. -/
theorem pwParseIpv6Cidr_of_notMem (inet : InetPton6) {s : List Byte} (h : 0x2F ∉ s) :
    pwParseIpv6Cidr inet s = (inet.read s).map fun addr => (addr, pwV6PrefixMask 128) := by
  have hnil : s.dropWhile (· != 0x2F) = [] := by
    rw [List.dropWhile_eq_nil_iff]
    intro b hb
    rw [bne_iff_ne]
    rintro rfl
    exact h hb
  rw [pwParseIpv6Cidr, hnil]

/-- An address with a slash. -/
theorem pwParseIpv6Cidr_slash {inet : InetPton6} {a t : List Byte} (ha : 0x2F ∉ a)
    {addr m : BitVec 128} :
    pwParseIpv6Cidr inet (a ++ 0x2F :: t) = some (addr, m) ↔
      a ≠ [] ∧ inet.read a = some addr ∧ ∃ n, strtoulPrefix t = some n ∧ m = pwV6PrefixMask n := by
  obtain ⟨htake, hdrop⟩ := splitSlash (t := t) ha
  simp only [pwParseIpv6Cidr, htake, hdrop, Option.ite_none_left_eq_some, Option.bind_eq_some_iff,
    Option.map_eq_some_iff, Prod.mk.injEq, not_or, not_le]
  constructor
  · rintro ⟨⟨hne, -⟩, n, hn, b, hb, rfl, rfl⟩
    exact ⟨hne, hb, n, hn, rfl⟩
  · rintro ⟨hne, hb, n, hn, rfl⟩
    have hlen := inet.length_le a (by simp [hb])
    exact ⟨⟨hne, by omega⟩, n, hn, addr, hb, rfl, rfl⟩

theorem cidrExact_iff (inet : InetPton6) (s : List Byte) :
    CidrExact inet s ↔
      ¬∃ a t, s = a ++ 0x2F :: t ∧ (inet.read a).isSome ∧ IsLenient t := by
  constructor
  · rintro h ⟨a, t, rfl, hsome, hlen⟩
    -- the lenient text is taken, and no prefix length stands there
    have ha := inet.slash_notMem a hsome
    obtain ⟨addr, haddr⟩ := Option.isSome_iff_exists.mp hsome
    obtain ⟨n, hn⟩ := hlen.strtoulPrefix
    have hne : a ≠ [] := by
      rintro rfl
      rw [inet.read_nil] at haddr
      cases haddr
    obtain ⟨n', htext, -⟩ := h.sound addr (pwV6PrefixMask n)
      ((pwParseIpv6Cidr_slash ha).mpr ⟨hne, haddr, n, hn, rfl⟩)
    rcases htext with ⟨hread, -⟩ | ⟨a', t', heq, hread, hpfx⟩
    · exact inet.slash_notMem _ (by rw [hread]; rfl) (by simp)
    · have ha' := inet.slash_notMem a' (by rw [hread]; rfl)
      have hsplit := (splitSlash (t := t) ha).2
      rw [heq, (splitSlash ha').2] at hsplit
      rw [(List.cons.inj hsplit).2] at hpfx
      exact hpfx.not_lenient hlen
  · intro h
    by_cases hslash : 0x2F ∈ s
    · obtain ⟨a, t, rfl, ha⟩ := List.eq_append_cons_of_mem hslash
      constructor
      · intro addr m hm
        obtain ⟨-, hread, n, hn, rfl⟩ := (pwParseIpv6Cidr_slash ha).mp hm
        rcases prefixText_or_lenient hn with hpfx | hlen
        · exact ⟨n, Or.inr ⟨a, t, rfl, hread, hpfx⟩, leadingOnes_pwV6PrefixMask n,
            v6PrefixLen_pwV6PrefixMask hpfx.le⟩
        · exact absurd ⟨a, t, rfl, by rw [hread]; rfl, hlen⟩ h
      · rintro addr n (⟨hread, -⟩ | ⟨a', t', heq, hread, hpfx⟩)
        · exact absurd hslash (inet.slash_notMem _ (by rw [hread]; rfl))
        · have ha' := inet.slash_notMem a' (by rw [hread]; rfl)
          have hne : a' ≠ [] := by
            rintro rfl
            rw [inet.read_nil] at hread
            cases hread
          rw [heq]
          exact ⟨_, (pwParseIpv6Cidr_slash ha').mpr ⟨hne, hread, n, hpfx.strtoulPrefix, rfl⟩⟩
    · have hparse := pwParseIpv6Cidr_of_notMem inet hslash
      constructor
      · intro addr m hm
        rw [hparse, Option.map_eq_some_iff] at hm
        obtain ⟨b, hread, hm⟩ := hm
        obtain ⟨rfl, rfl⟩ := Prod.mk.inj hm
        exact ⟨128, Or.inl ⟨hread, rfl⟩, leadingOnes_pwV6PrefixMask 128,
          v6PrefixLen_pwV6PrefixMask le_rfl⟩
      · rintro addr n (⟨hread, -⟩ | ⟨a, t, rfl, -⟩)
        · exact ⟨_, by rw [hparse, hread]; rfl⟩
        · exact absurd (by simp) hslash

theorem matchIpv6Prefix_eq_ok_iff {name : String} {present : Bool} {mp : String} {s : List Byte}
    {m : BitVec 128} :
    matchIpv6Prefix name present mp s = .ok m ↔
      present = true ∧ ∃ n, strtoulPrefix s = some n ∧ m = pwV6PrefixMask n := by
  simp only [matchIpv6Prefix, bind_eq_ok_iff, failIf_eq_ok_iff, orFail_eq_ok_iff, exists_const,
    pure, Except.pure, Except.ok.injEq, Bool.not_eq_false', eq_comm (a := m)]

theorem prefixExact_iff (name : String) (present : Bool) (mp : String) (s : List Byte) :
    PrefixExact (matchIpv6Prefix name present mp) s ↔
      (present = true → ¬IsLenient s) ∧ (present = false → ¬∃ n, IsPrefixText s n) := by
  constructor
  · intro h
    refine ⟨?_, ?_⟩
    · intro hpresent hlen
      obtain ⟨n, hn⟩ := hlen.strtoulPrefix
      obtain ⟨n', hpfx, -⟩ := h.sound _ (matchIpv6Prefix_eq_ok_iff.mpr ⟨hpresent, n, hn, rfl⟩)
      exact hpfx.not_lenient hlen
    · rintro habsent ⟨n, hpfx⟩
      obtain ⟨m, hm⟩ := h.complete n hpfx
      rw [(matchIpv6Prefix_eq_ok_iff.mp hm).1] at habsent
      cases habsent
  · rintro ⟨hlenient, habsent⟩
    constructor
    · intro m hm
      obtain ⟨hpresent, n, hn, rfl⟩ := matchIpv6Prefix_eq_ok_iff.mp hm
      have hpfx := (prefixText_or_lenient hn).resolve_right (hlenient hpresent)
      exact ⟨n, hpfx, leadingOnes_pwV6PrefixMask n, v6PrefixLen_pwV6PrefixMask hpfx.le⟩
    · intro n hpfx
      have hpresent : present = true := by
        rw [← Bool.not_eq_false]
        exact fun h => habsent h ⟨n, hpfx⟩
      exact ⟨_, matchIpv6Prefix_eq_ok_iff.mpr ⟨hpresent, n, hpfx.strtoulPrefix, rfl⟩⟩

/-- **Where the grammar is kept.**  The address parser keeps it unless a lenient text stands behind
the slash of an address.  The match block of an IPv6 flow keeps it unless the scalar is a lenient
text; the match block of another flow takes no prefix length at all. -/
theorem prefix_grammar_iff (inet : InetPton6) :
    (∀ s, CidrExact inet s ↔
      ¬∃ a t, s = a ++ 0x2F :: t ∧ (inet.read a).isSome ∧ IsLenient t) ∧
    ∀ f ∈ [matchIpv6DstPrefix, matchIpv6SrcPrefix], ∀ present mp s,
      PrefixExact (f present mp) s ↔
        (present = true → ¬IsLenient s) ∧ (present = false → ¬∃ n, IsPrefixText s n) := by
  refine ⟨cidrExact_iff inet, ?_⟩
  intro f hmem present mp s
  rw [List.mem_pair] at hmem
  rcases hmem with rfl | rfl
  · exact prefixExact_iff _ present mp s
  · exact prefixExact_iff _ present mp s

/-- A reader that knows the address `::`. -/
def unspecifiedReader : InetPton6 where
  read s := if s = ascii "::" then some 0 else none
  read_nil := by decide
  slash_notMem s h := by
    by_cases hs : s = ascii "::"
    · rw [hs]
      decide
    · rw [if_neg hs] at h
      cases h
  length_le s h := by
    by_cases hs : s = ascii "::"
    · rw [hs]
      decide
    · rw [if_neg hs] at h
      cases h

theorem isPrefixText_64 : IsPrefixText (ascii "64") 64 :=
  ⟨by decide, by decide, by decide, by decide⟩

/-- `::/64` is taken, with 64 leading ones, and nothing else is made of it. -/
theorem prefix_grammar_sample :
    CidrExact unspecifiedReader (ascii "::/64") ∧
      PrefixExact (matchIpv6DstPrefix true "flows[0].match") (ascii "64") := by
  obtain ⟨hcidr, hmatch⟩ := prefix_grammar_iff unspecifiedReader
  constructor
  · rw [hcidr]
    rintro ⟨a, t, heq, hsome, hlen⟩
    have ha := unspecifiedReader.slash_notMem a hsome
    have hsplit := (splitSlash (t := ascii "64") (a := ascii "::") (by decide)).2
    have hsplit' := (splitSlash (t := t) ha).2
    rw [← heq] at hsplit'
    have ht := (List.cons.inj (hsplit'.symm.trans hsplit)).2
    rw [ht] at hlen
    exact isPrefixText_64.not_lenient hlen
  · rw [hmatch _ List.mem_cons_self]
    exact ⟨fun _ => isPrefixText_64.not_lenient, by simp⟩

/-- **An empty prefix length is taken**: `::/` is the address with a mask of zeros, and so is an
empty scalar in a match block. -/
theorem empty_prefix_taken :
    ¬CidrExact unspecifiedReader (ascii "::/") ∧
      pwParseIpv6Cidr unspecifiedReader (ascii "::/") = some (0, pwV6PrefixMask 0) ∧
      ¬PrefixExact (matchIpv6DstPrefix true "flows[0].match") [] ∧
      matchIpv6DstPrefix true "flows[0].match" [] = .ok (pwV6PrefixMask 0) := by
  refine ⟨?_, by decide +kernel, ?_, rfl⟩
  · rw [cidrExact_iff]
    intro h
    exact h ⟨ascii "::", [], rfl, by decide, Or.inl rfl⟩
  · rw [matchIpv6DstPrefix, prefixExact_iff]
    rintro ⟨h, -⟩
    exact h rfl (Or.inl rfl)

end PacketWyrm
