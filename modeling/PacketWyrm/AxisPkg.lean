import PacketWyrm.RowWire
import PacketWyrm.ParserAxis
import PacketWyrm.Lib.Layout

/-!
# The decoded flow row

`pw_axis_pkg`: the row of the flow table as the generator reads it.  The decoder
picks each field out of the bytes of the row by position; the compiler's struct
and these positions are two hand-written tables, and here they meet.

## Main definitions

* `PwFlowRow` — `pw_flow_row_t`.
* `pwDecodeFlowRow` — the row of the table's bytes.
* `pwFrameBytes` — length of a row's frame with a given payload.

## Main results

* `decode_byte` — decoding the bytes of a compiled row gives its fields back,
  each cut to the width the generator keeps.
-/

namespace PacketWyrm

open Lib

/-! ## Reads of several bytes -/

/-- Six bytes, the first one most significant. -/
def be48 (row : Window) (i : ℕ) : BitVec 48 := be16 row i ++ be32 row (i + 2)

/-- Two bytes, the first one least significant. -/
def le16 (row : Window) (i : ℕ) : BitVec 16 := row (i + 1) ++ row i

/-- Four bytes, the first one least significant. -/
def le32 (row : Window) (i : ℕ) : BitVec 32 := le16 row (i + 2) ++ le16 row i

/-- Twelve bytes, the first one least significant. -/
def le96 (row : Window) (i : ℕ) : BitVec 96 := le32 row (i + 8) ++ le32 row (i + 4) ++ le32 row i

/-- Two halves of a word, shifted together. -/
theorem shiftLeft_or_halves {n : ℕ} (x y : BitVec n) :
    x.setWidth (n + n) <<< n ||| y.setWidth (n + n) = x ++ y := by
  apply BitVec.eq_of_getLsbD_eq
  intro b hb
  rw [BitVec.getLsbD_append, BitVec.getLsbD_or, BitVec.getLsbD_shiftLeft, BitVec.getLsbD_setWidth,
    BitVec.getLsbD_setWidth]
  by_cases hlt : b < n
  · simp [hlt, hb]
  · have hy : y.getLsbD b = false := BitVec.getLsbD_of_ge _ _ (by omega)
    simp [hlt, hb, hy, show b - n < n + n by omega]

section Reads

variable {row : Window} {o n : ℕ} {x : BitVec n}

/-- Byte `i` of a number that stands most significant byte first. -/
theorem Lib.Holds.beByte {k : ℕ} (h : Holds row o (beBytes k x)) (i : ℕ) (hi : i < k) :
    row (o + i) = x.extractLsb' (8 * (k - 1 - i)) 8 := by
  have hlen : i < (beBytes k x).length := by simpa [beBytes] using hi
  rw [h i hlen]
  simp [beBytes]

/-- Byte `i` of a number that stands least significant byte first. -/
theorem Lib.Holds.leByte {k : ℕ} (h : Holds row o (leBytes k x)) (i : ℕ) (hi : i < k) :
    row (o + i) = x.extractLsb' (8 * i) 8 := by
  have hlen : i < (leBytes k x).length := by simpa [leBytes] using hi
  rw [h i hlen]
  simp [leBytes]

theorem be16_piece {s : ℕ} (h₀ : row o = x.extractLsb' (s + 8) 8)
    (h₁ : row (o + 1) = x.extractLsb' s 8) : be16 row o = x.extractLsb' s 16 := by
  rw [be16, h₀, h₁]
  exact BitVec.extractLsb'_append_extractLsb'_eq_extractLsb' rfl

theorem be32_piece {s : ℕ} (h₀ : be16 row o = x.extractLsb' (s + 16) 16)
    (h₁ : be16 row (o + 2) = x.extractLsb' s 16) : be32 row o = x.extractLsb' s 32 := by
  rw [be32, h₀, h₁]
  exact BitVec.extractLsb'_append_extractLsb'_eq_extractLsb' rfl

theorem be64_piece {s : ℕ} (h₀ : be32 row o = x.extractLsb' (s + 32) 32)
    (h₁ : be32 row (o + 4) = x.extractLsb' s 32) : be64 row o = x.extractLsb' s 64 := by
  rw [be64, h₀, h₁]
  exact BitVec.extractLsb'_append_extractLsb'_eq_extractLsb' rfl

/-- Bytes `i` and `i + 1` of a big-endian number. -/
theorem Lib.Holds.be16_at {k : ℕ} (h : Holds row o (beBytes k x)) (i : ℕ) (hi : i + 2 ≤ k) :
    be16 row (o + i) = x.extractLsb' (8 * (k - 2 - i)) 16 := by
  apply be16_piece
  · rw [h.beByte i (by omega), show 8 * (k - 2 - i) + 8 = 8 * (k - 1 - i) by omega]
  · rw [Nat.add_assoc, h.beByte (i + 1) (by omega), show k - 1 - (i + 1) = k - 2 - i by omega]

/-- Four bytes of a big-endian number. -/
theorem Lib.Holds.be32_at {k : ℕ} (h : Holds row o (beBytes k x)) (i : ℕ) (hi : i + 4 ≤ k) :
    be32 row (o + i) = x.extractLsb' (8 * (k - 4 - i)) 32 := by
  apply be32_piece
  · rw [h.be16_at i (by omega), show 8 * (k - 4 - i) + 16 = 8 * (k - 2 - i) by omega]
  · rw [Nat.add_assoc, h.be16_at (i + 2) (by omega), show k - 2 - (i + 2) = k - 4 - i by omega]

/-- Eight bytes of a big-endian number. -/
theorem Lib.Holds.be64_at {k : ℕ} (h : Holds row o (beBytes k x)) (i : ℕ) (hi : i + 8 ≤ k) :
    be64 row (o + i) = x.extractLsb' (8 * (k - 8 - i)) 64 := by
  apply be64_piece
  · rw [h.be32_at i (by omega), show 8 * (k - 8 - i) + 32 = 8 * (k - 4 - i) by omega]
  · rw [Nat.add_assoc, h.be32_at (i + 4) (by omega), show k - 4 - (i + 4) = k - 8 - i by omega]

theorem be16_of_holds {x : BitVec 16} (h : Holds row o (beBytes 2 x)) : be16 row o = x := by
  rw [← Nat.add_zero o, h.be16_at 0 (by omega), BitVec.extractLsb'_eq_self]

theorem be32_of_holds {x : BitVec 32} (h : Holds row o (beBytes 4 x)) : be32 row o = x := by
  rw [← Nat.add_zero o, h.be32_at 0 (by omega), BitVec.extractLsb'_eq_self]

theorem be48_of_holds {x : BitVec 48} (h : Holds row o (beBytes 6 x)) : be48 row o = x := by
  have h₀ : be16 row o = x.extractLsb' 32 16 := h.be16_at 0 (by omega)
  have h₁ : be32 row (o + 2) = x.extractLsb' 0 32 := h.be32_at 2 (by omega)
  rw [be48, h₀, h₁]
  exact (BitVec.extractLsb'_append_extractLsb'_eq_extractLsb' rfl).trans BitVec.extractLsb'_eq_self

theorem be64_of_holds {x : BitVec 64} (h : Holds row o (beBytes 8 x)) : be64 row o = x := by
  rw [← Nat.add_zero o, h.be64_at 0 (by omega), BitVec.extractLsb'_eq_self]

theorem be128_of_holds {x : BitVec 128} (h : Holds row o (beBytes 16 x)) : be128 row o = x := by
  have h₀ : be64 row o = x.extractLsb' 64 64 := h.be64_at 0 (by omega)
  have h₁ : be64 row (o + 8) = x.extractLsb' 0 64 := h.be64_at 8 (by omega)
  rw [be128, h₀, h₁]
  exact (BitVec.extractLsb'_append_extractLsb'_eq_extractLsb' rfl).trans BitVec.extractLsb'_eq_self

/-- Bytes `i` and `i + 1` of a little-endian number. -/
theorem Lib.Holds.le16_at {k : ℕ} (h : Holds row o (leBytes k x)) (i : ℕ) (hi : i + 2 ≤ k) :
    le16 row (o + i) = x.extractLsb' (8 * i) 16 := by
  rw [le16, Nat.add_assoc, h.leByte i (by omega), h.leByte (i + 1) (by omega)]
  exact BitVec.extractLsb'_append_extractLsb'_eq_extractLsb' rfl

/-- Four bytes of a little-endian number. -/
theorem Lib.Holds.le32_at {k : ℕ} (h : Holds row o (leBytes k x)) (i : ℕ) (hi : i + 4 ≤ k) :
    le32 row (o + i) = x.extractLsb' (8 * i) 32 := by
  rw [le32, Nat.add_assoc, h.le16_at i (by omega), h.le16_at (i + 2) (by omega)]
  exact BitVec.extractLsb'_append_extractLsb'_eq_extractLsb' (by omega)

theorem le16_of_holds {x : BitVec 16} (h : Holds row o (leBytes 2 x)) : le16 row o = x := by
  rw [← Nat.add_zero o, h.le16_at 0 (by omega), BitVec.extractLsb'_eq_self]

theorem le32_of_holds {x : BitVec 32} (h : Holds row o (leBytes 4 x)) : le32 row o = x := by
  rw [← Nat.add_zero o, h.le32_at 0 (by omega), BitVec.extractLsb'_eq_self]

theorem le96_of_holds {x : BitVec 96} (h : Holds row o (leBytes 12 x)) : le96 row o = x := by
  have h₀ : le32 row o = x.extractLsb' 0 32 := h.le32_at 0 (by omega)
  have h₁ : le32 row (o + 4) = x.extractLsb' 32 32 := h.le32_at 4 (by omega)
  have h₂ : le32 row (o + 8) = x.extractLsb' 64 32 := h.le32_at 8 (by omega)
  have h₃ : x.extractLsb' 64 32 ++ x.extractLsb' 32 32 = x.extractLsb' 32 64 :=
    BitVec.extractLsb'_append_extractLsb'_eq_extractLsb' rfl
  rw [le96, h₀, h₁, h₂, h₃]
  exact (BitVec.extractLsb'_append_extractLsb'_eq_extractLsb' rfl).trans BitVec.extractLsb'_eq_self

end Reads

/-! ## The row -/

/-- `pw_flow_row_t`. -/
structure PwFlowRow where
  valid : Bool
  egress : BitVec 4
  flowId : BitVec 32
  tokensFp : BitVec 32
  burst : BitVec 16
  srcMac : BitVec 48
  dstMac : BitVec 48
  vlanEn : Bool
  vlanId : BitVec 12
  srcIpv4 : BitVec 32
  dstIpv4 : BitVec 32
  udpSp : BitVec 16
  udpDp : BitVec 16
  dscp : Byte
  ttl : Byte
  frameLenMin : BitVec 16
  frameLenMax : BitVec 16
  frameLenStep : BitVec 16
  sipMod : BitVec 2
  sipMask : BitVec 32
  dipMod : BitVec 2
  dipMask : BitVec 32
  sipMaskHi : BitVec 96
  dipMaskHi : BitVec 96
  l4Proto : Byte
  tcpFlags : Byte
  spMod : BitVec 2
  spMask : BitVec 16
  dpMod : BitVec 2
  dpMask : BitVec 16
  smacMod : BitVec 2
  smacMask : BitVec 48
  dmacMod : BitVec 2
  dmacMask : BitVec 48
  vlanMod : BitVec 2
  vlanMask : BitVec 16
  isV6 : Bool
  ipv6Src : BitVec 128
  ipv6Dst : BitVec 128
  encapType : BitVec 2
  outerV6 : Bool
  rxTunneled : Bool
  outerTtl : Byte
  outerDscp : Byte
  outerSrcIpv4 : BitVec 32
  outerDstIpv4 : BitVec 32
  outerIpv6Src : BitVec 128
  outerIpv6Dst : BitVec 128
  innerSrcMac : BitVec 48
  innerDstMac : BitVec 48
  frameTemplate : BitVec 2
  l2Ethertype : BitVec 16
  deriving DecidableEq, Repr

/-- The L4 protocol of a row is TCP or UDP. -/
def normL4Proto (b : Byte) : Byte := if b = 6#8 then 6#8 else 17#8

/-- `pw_decode_flow_row`.  No field is read from byte 29, the row's `pcp`. -/
def pwDecodeFlowRow (row : Window) : PwFlowRow where
  valid := (row 0 &&& row 90).getLsbD 0
  egress := (row 1).setWidth 4
  flowId := le32 row 2
  tokensFp := le32 row 75
  burst := le16 row 79
  srcMac := be48 row 20
  dstMac := be48 row 14
  vlanEn := (row 26).getLsbD 0
  vlanId := (row 28).setWidth 4 ++ row 27
  srcIpv4 := le32 row 31
  dstIpv4 := le32 row 35
  udpSp := le16 row 41
  udpDp := le16 row 43
  dscp := row 39
  ttl := row 40
  frameLenMin := le16 row 45
  frameLenMax := le16 row 47
  frameLenStep := le16 row 49
  sipMod := (row 92).setWidth 2
  sipMask := le32 row 93
  dipMod := (row 97).setWidth 2
  dipMask := le32 row 98
  spMod := (row 102).setWidth 2
  spMask := le16 row 103
  dpMod := (row 105).setWidth 2
  dpMask := le16 row 106
  smacMod := (row 140).setWidth 2
  smacMask := be48 row 141
  dmacMod := (row 147).setWidth 2
  dmacMask := be48 row 148
  vlanMod := (row 154).setWidth 2
  vlanMask := le16 row 155
  isV6 := row 30 == 6
  ipv6Src := be128 row 108
  ipv6Dst := be128 row 124
  encapType := (row 157).setWidth 2
  outerV6 := row 158 == 6
  rxTunneled := (row 159).getLsbD 0
  outerTtl := row 160
  outerDscp := row 161
  outerSrcIpv4 := le32 row 162
  outerDstIpv4 := le32 row 166
  outerIpv6Src := be128 row 170
  outerIpv6Dst := be128 row 186
  innerDstMac := be48 row 202
  innerSrcMac := be48 row 208
  sipMaskHi := le96 row 214
  dipMaskHi := le96 row 226
  l4Proto := normL4Proto (row 238)
  tcpFlags := row 239
  frameTemplate := (row 240).setWidth 2
  l2Ethertype := le16 row 242

/-- `pw_frame_bytes`: the length of a row's frame with `payload` bytes after its
last header. -/
def pwFrameBytes (r : PwFlowRow) (payload : ℕ) : ℕ :=
  let l2 := 14 + (if r.vlanEn then 4 else 0)
  let ip := if r.isV6 then 40 else 20
  if r.frameTemplate = 3#2 then l2 + payload
  else if r.frameTemplate = 2#2 then l2 + ip + payload
  else
    let inner := ip + (if r.l4Proto = 6#8 then 20 else 8) + payload
    let encHdr := if r.encapType = 2#2 then 4 else if r.encapType = 3#2 then 16 else 0
    if r.encapType = 0#2 then l2 + inner
    else l2 + (if r.outerV6 then 40 else 20) + encHdr + inner

/-! ## Decoding a compiled row -/

namespace PwfpgaFlowConfig

variable (r : PwfpgaFlowConfig)

/-- The sizes of the struct's fields, in memory order. -/
def fieldSizes : List ℕ :=
  [1, 1, 4, 4, 4, 6, 6, 1, 2, 1, 1, 4, 4, 1, 1, 2, 2, 2, 2, 2, 8, 8, 4, 4, 4, 2, 2, 1, 4, 1, 1, 1,
    1, 1, 4, 1, 4, 1, 2, 1, 2, 16, 16, 1, 6, 1, 6, 1, 2, 1, 1, 1, 1, 1, 4, 4, 16, 16, 6, 6, 12, 12,
    1, 1, 1, 1, 2]

theorem map_length_fields : r.fields.map List.length = fieldSizes := by
  simp [fields, leBytes, beBytes, fieldSizes]

/-- A field of the struct stands at the sum of the sizes before it. -/
theorem holds_field {i o : ℕ} {l : List Byte} (hl : r.fields[i]? = some l)
    (ho : (fieldSizes.take i).sum = o) : Holds r.byte o l := by
  have h : Holds r.byte 0 r.bytes := holds_getD r.bytes 0
  have hoff : offset r.fields i = o := by
    rw [offset, List.map_take, map_length_fields, ho]
  rw [← hoff, ← Nat.zero_add (offset _ _)]
  exact h.field hl

/-- What the generator keeps of a compiled row. -/
def decoded : PwFlowRow where
  valid := (r.enable &&& r.txEnable).getLsbD 0
  egress := r.egressLocalPort.setWidth 4
  flowId := r.globalFlowId
  tokensFp := r.tokensPerTickFp
  burst := r.burstBytes
  srcMac := r.srcMac
  dstMac := r.dstMac
  vlanEn := r.vlanEnable.getLsbD 0
  vlanId := r.vlanId.setWidth 12
  srcIpv4 := r.srcIpv4
  dstIpv4 := r.dstIpv4
  udpSp := r.udpSrcPort
  udpDp := r.udpDstPort
  dscp := r.dscp
  ttl := r.ttl
  frameLenMin := r.frameLenMin
  frameLenMax := r.frameLenMax
  frameLenStep := r.frameLenStep
  sipMod := r.srcIpv4Mod.setWidth 2
  sipMask := r.srcIpv4Mask
  dipMod := r.dstIpv4Mod.setWidth 2
  dipMask := r.dstIpv4Mask
  spMod := r.udpSrcMod.setWidth 2
  spMask := r.udpSrcMask
  dpMod := r.udpDstMod.setWidth 2
  dpMask := r.udpDstMask
  smacMod := r.srcMacMod.setWidth 2
  smacMask := r.srcMacMask
  dmacMod := r.dstMacMod.setWidth 2
  dmacMask := r.dstMacMask
  vlanMod := r.vlanMod.setWidth 2
  vlanMask := r.vlanMask
  isV6 := r.ipVersion == 6
  ipv6Src := r.ipv6Src
  ipv6Dst := r.ipv6Dst
  encapType := r.encapType.setWidth 2
  outerV6 := r.outerIpVersion == 6
  rxTunneled := r.rxExpect.getLsbD 0
  outerTtl := r.outerTtl
  outerDscp := r.outerDscp
  outerSrcIpv4 := r.outerSrcIpv4
  outerDstIpv4 := r.outerDstIpv4
  outerIpv6Src := r.outerIpv6Src
  outerIpv6Dst := r.outerIpv6Dst
  innerDstMac := r.innerDstMac
  innerSrcMac := r.innerSrcMac
  sipMaskHi := r.srcIpv6MaskHi
  dipMaskHi := r.dstIpv6MaskHi
  l4Proto := normL4Proto r.l4Proto
  tcpFlags := r.tcpFlags
  frameTemplate := r.frameTemplate.setWidth 2
  l2Ethertype := r.l2Ethertype

/-- **Decoding the bytes of a compiled row gives its fields back.** -/
theorem decode_byte : pwDecodeFlowRow r.byte = r.decoded := by
  -- each read is at the offset of the struct field with the given number
  have byteAt (i o : ℕ) {b : Byte} (hl : r.fields[i]? = some [b])
      (ho : (fieldSizes.take i).sum = o) : r.byte o = b := (holds_cons.mp (r.holds_field hl ho)).1
  have le16At (i o : ℕ) {x : BitVec 16} (hl : r.fields[i]? = some (leBytes 2 x))
      (ho : (fieldSizes.take i).sum = o) : le16 r.byte o = x := le16_of_holds (r.holds_field hl ho)
  have le32At (i o : ℕ) {x : BitVec 32} (hl : r.fields[i]? = some (leBytes 4 x))
      (ho : (fieldSizes.take i).sum = o) : le32 r.byte o = x := le32_of_holds (r.holds_field hl ho)
  have le96At (i o : ℕ) {x : BitVec 96} (hl : r.fields[i]? = some (leBytes 12 x))
      (ho : (fieldSizes.take i).sum = o) : le96 r.byte o = x := le96_of_holds (r.holds_field hl ho)
  have be48At (i o : ℕ) {x : BitVec 48} (hl : r.fields[i]? = some (beBytes 6 x))
      (ho : (fieldSizes.take i).sum = o) : be48 r.byte o = x := be48_of_holds (r.holds_field hl ho)
  have be128At (i o : ℕ) {x : BitVec 128} (hl : r.fields[i]? = some (beBytes 16 x))
      (ho : (fieldSizes.take i).sum = o) : be128 r.byte o = x := be128_of_holds (r.holds_field hl ho)
  have vlanAt : (r.byte 28).setWidth 4 ++ r.byte 27 = r.vlanId.setWidth 12 := by
    have h : Holds r.byte 27 (leBytes 2 r.vlanId) := r.holds_field (i := 8) rfl rfl
    rw [h.leByte 1 (by omega), show (27 : ℕ) = 27 + 0 from rfl, h.leByte 0 (by omega)]
    ext b hb
    simp only [BitVec.getElem_append, BitVec.getElem_setWidth, BitVec.getLsbD_extractLsb',
      BitVec.getElem_extractLsb']
    split
    · simp
    · simp only [show b - 8 < 8 by omega, decide_true, Bool.true_and]
      congr 1
      omega
  rw [pwDecodeFlowRow, decoded, PwFlowRow.mk.injEq]
  exact ⟨by rw [byteAt 0 0 rfl rfl, byteAt 31 90 rfl rfl], by rw [byteAt 1 1 rfl rfl],
    le32At 2 2 rfl rfl, le32At 24 75 rfl rfl, le16At 25 79 rfl rfl, be48At 6 20 rfl rfl,
    be48At 5 14 rfl rfl, by rw [byteAt 7 26 rfl rfl], vlanAt, le32At 11 31 rfl rfl,
    le32At 12 35 rfl rfl, le16At 15 41 rfl rfl, le16At 16 43 rfl rfl, byteAt 13 39 rfl rfl,
    byteAt 14 40 rfl rfl, le16At 17 45 rfl rfl, le16At 18 47 rfl rfl, le16At 19 49 rfl rfl,
    by rw [byteAt 33 92 rfl rfl], le32At 34 93 rfl rfl, by rw [byteAt 35 97 rfl rfl],
    le32At 36 98 rfl rfl, le96At 60 214 rfl rfl, le96At 61 226 rfl rfl,
    by rw [byteAt 62 238 rfl rfl], byteAt 63 239 rfl rfl, by rw [byteAt 37 102 rfl rfl],
    le16At 38 103 rfl rfl, by rw [byteAt 39 105 rfl rfl], le16At 40 106 rfl rfl,
    by rw [byteAt 43 140 rfl rfl], be48At 44 141 rfl rfl, by rw [byteAt 45 147 rfl rfl],
    be48At 46 148 rfl rfl, by rw [byteAt 47 154 rfl rfl], le16At 48 155 rfl rfl,
    by rw [byteAt 10 30 rfl rfl], be128At 41 108 rfl rfl, be128At 42 124 rfl rfl,
    by rw [byteAt 49 157 rfl rfl], by rw [byteAt 50 158 rfl rfl], by rw [byteAt 51 159 rfl rfl],
    byteAt 52 160 rfl rfl, byteAt 53 161 rfl rfl, le32At 54 162 rfl rfl, le32At 55 166 rfl rfl,
    be128At 56 170 rfl rfl, be128At 57 186 rfl rfl, be48At 59 208 rfl rfl, be48At 58 202 rfl rfl,
    by rw [byteAt 64 240 rfl rfl], le16At 66 242 rfl rfl⟩

end PwfpgaFlowConfig

end PacketWyrm
