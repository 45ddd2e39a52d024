import PacketWyrm.FrameLengths
import PacketWyrm.TestStamps
import PacketWyrm.Lib.OnesComplement

/-!
# Checksums of generated frames

The checksums of a frame are put together from sums that are taken in different places: an IPv4
header is summed up as a whole, an L4 segment in two halves that the builder folds, and the time
stamp of a test frame is added behind the generator.  Each of these folds keeps the
one's-complement sum, so what leaves the stamper verifies over the bytes that are sent.

## Main definitions

* `wireFrame` — the frame of a row as it leaves the stamper.
* `OnWire` — the headers of such a frame, with its final L4 checksum.
* `L4Verifies` — the L4 checksum of a frame verifies.

## Main results

* `onesSum_ipv4Header` — an IPv4 header of the generator verifies.
* `onWire_wireFrame` — what leaves the stamper, for every template.
* `l4Verifies_of_onWire` — its L4 checksum verifies.
-/

namespace PacketWyrm

open Lib

/-! ## Words of a frame -/

/-- Bytes `o` to `o + n` of a frame. -/
def slice (frame : List Byte) (o n : ℕ) : List Byte := (frame.drop o).take n

theorem slice_of_holds {frame l : List Byte} {o : ℕ} (h : Holds (frameByte frame) o l)
    (hlen : o + l.length ≤ frame.length) : slice frame o l.length = l := by
  apply List.ext_getElem?
  intro i
  rw [slice, List.getElem?_take]
  by_cases hi : i < l.length
  · have hbyte := h i hi
    rw [frameByte, List.getD_eq_getElem?_getD, List.getElem?_eq_getElem (by omega)] at hbyte
    rw [if_pos hi, List.getElem?_drop, List.getElem?_eq_getElem (by omega),
      List.getElem?_eq_getElem hi]
    exact congrArg some hbyte
  · rw [if_neg hi, List.getElem?_eq_none (by omega)]

/-- The words of bytes that a function gives. -/
theorem netWords_map_range (g : ℕ → Byte) (k : ℕ) :
    netWords ((List.range (2 * k)).map g) =
      (List.range k).map fun i => netWord (g (2 * i)) (g (2 * i + 1)) := by
  induction k with
  | zero => rfl
  | succ k ih =>
    rw [show 2 * (k + 1) = 2 * k + 1 + 1 by omega, List.range_succ, List.range_succ,
      List.append_assoc, List.map_append, netWords_append (by simp), ih, List.range_succ]
    simp only [List.map_append, List.map_cons, List.map_nil, List.cons_append, List.nil_append,
      netWords_cons_cons, netWords_nil]

/-- The words of a number, most significant first. -/
theorem netWords_beBytes {n : ℕ} (k : ℕ) (x : BitVec n) :
    netWords (beBytes (2 * k) x) =
      (List.range k).map fun i => x.extractLsb' (16 * (k - 1 - i)) 16 := by
  rw [beBytes, netWords_map_range]
  refine List.map_congr_left fun i hi => ?_
  rw [List.mem_range] at hi
  have h₁ : 8 * (2 * k - 1 - 2 * i) = 16 * (k - 1 - i) + 8 := by omega
  have h₂ : 8 * (2 * k - 1 - (2 * i + 1)) = 16 * (k - 1 - i) := by omega
  rw [h₁, h₂]
  exact BitVec.extractLsb'_append_extractLsb'_eq_extractLsb' rfl

@[simp] theorem netWords_beBytes_two (x : BitVec 16) : netWords (beBytes 2 x) = [x] := by
  rw [netWords_beBytes 1 x]
  simp [BitVec.extractLsb'_eq_self]

@[simp] theorem netWords_beBytes_four (x : BitVec 32) :
    netWords (beBytes 4 x) = [x.extractLsb' 16 16, x.extractLsb' 0 16] := netWords_beBytes 2 x

@[simp] theorem netWords_beBytes_eight (x : BitVec 64) :
    netWords (beBytes 8 x) = [x.extractLsb' 48 16, x.extractLsb' 32 16, x.extractLsb' 16 16,
      x.extractLsb' 0 16] := netWords_beBytes 4 x

/-! ## The IPv4 header -/

theorem toNat_carry32 (s : BitVec 32) : (carry32 s).toNat = carry s.toNat := by
  have hhi : ((s.extractLsb' 16 16).setWidth 32).toNat = s.toNat / 65536 := by
    rw [BitVec.toNat_setWidth, BitVec.extractLsb'_toNat, Nat.shiftRight_eq_div_pow]
    have : s.toNat < 2 ^ 32 := s.isLt
    omega
  have hlo : ((s.setWidth 16).setWidth 32).toNat = s.toNat % 65536 := by
    rw [BitVec.toNat_setWidth, BitVec.toNat_setWidth]
    omega
  have hlt : s.toNat < 2 ^ 32 := s.isLt
  rw [carry32, BitVec.toNat_add, hhi, hlo, carry]
  omega

/-- The words of an IPv4 header but the checksum, added up. -/
def ipv4Total (tot : BitVec 16) (sip dip : BitVec 32) (dscp ttl proto : Byte) : ℕ :=
  wordTotal [netWord 0x45 (dscp.setWidth 6 ++ 0#2), tot, netWord 0x40 0x00, netWord ttl proto,
    sip.extractLsb' 16 16, sip.extractLsb' 0 16, dip.extractLsb' 16 16, dip.extractLsb' 0 16]

/-- **The checksum of an IPv4 header** is the complement of the sum of its other words. -/
theorem toNat_ipCsum16 (tot : BitVec 16) (sip dip : BitVec 32) (dscp ttl proto : Byte) :
    (ipCsum16 tot sip dip dscp ttl proto).toNat =
      65535 - onesRep (ipv4Total tot sip dip dscp ttl proto) := by
  have hpad (x : BitVec 16) : (0#16 ++ x).toNat = x.toNat := by
    rw [BitVec.toNat_append]
    simp
  have htos : (0#16 ++ 0x45#8 ++ dscp.setWidth 6 ++ 0#2).toNat =
      (netWord 0x45 (dscp.setWidth 6 ++ 0#2)).toNat := by
    simp only [netWord, toNat_append_eq, BitVec.toNat_ofNat, BitVec.ofNat_eq_ofNat]
    omega
  have httl : (0#16 ++ ttl ++ proto).toNat = (netWord ttl proto).toNat := by
    rw [netWord, BitVec.toNat_append, BitVec.toNat_append, BitVec.toNat_append]
    simp
  have hlow (x : BitVec 32) : x.setWidth 16 = x.extractLsb' 0 16 :=
    BitVec.setWidth_eq_extractLsb' (by decide)
  have hle : ipv4Total tot sip dip dscp ttl proto ≤ 8 * 65535 := wordTotal_le _
  simp only [ipCsum16, BitVec.toNat_not, BitVec.toNat_setWidth, toNat_carry32]
  have hfold {n : ℕ} (hn : n = ipv4Total tot sip dip dscp ttl proto) :
      2 ^ 16 - 1 - carry (carry n) % 2 ^ 16 =
        65535 - onesRep (ipv4Total tot sip dip dscp ttl proto) := by
    have hrep := onesRep_le (ipv4Total tot sip dip dscp ttl proto)
    rw [hn, carry_carry (by omega), Nat.mod_eq_of_lt (by omega)]
    rfl
  apply hfold
  simp only [ipv4Total, wordTotal_cons, wordTotal_nil] at hle ⊢
  have hconst : (0x4000 : BitVec 32).toNat = (netWord 0x40 0x00).toNat := rfl
  simp only [BitVec.toNat_add, hpad, htos, httl, hlow, hconst, Nat.mod_add_mod]
  rw [Nat.mod_eq_of_lt (by omega)]
  omega

/-- The words of an IPv4 header, added up. -/
theorem wordTotal_ipv4Header (dscp : Byte) (tot : ℕ) (ttl proto : Byte) (csum : BitVec 16)
    (src dst : BitVec 32) :
    wordTotal (netWords (ipv4Header dscp tot ttl proto csum src dst)) =
      ipv4Total (BitVec.ofNat 16 tot) src dst dscp ttl proto + csum.toNat := by
  have hver : wordTotal (netWords [0x45, dscp.setWidth 6 ++ 0#2]) =
      (netWord 0x45 (dscp.setWidth 6 ++ 0#2)).toNat := Nat.add_zero _
  have hzero : (netWord 0x00 0x00).toNat = 0 := rfl
  rw [ipv4Header, netWords_append (by simp), netWords_append (by simp),
    netWords_append (by simp), netWords_append (by simp), netWords_append (by simp)]
  simp only [netWords_beBytes_two, netWords_beBytes_four, netWords_cons_cons, netWords_nil,
    wordTotal_append, wordTotal_cons, wordTotal_nil, ipv4Total, hver, hzero]
  omega

/-- **An IPv4 header of the generator verifies.** -/
theorem onesSum_ipv4Header (dscp : Byte) (tot : ℕ) (ttl proto : Byte) (src dst : BitVec 32) :
    onesSum (netWords (ipv4Header dscp tot ttl proto
      (ipCsum16 (BitVec.ofNat 16 tot) src dst dscp ttl proto) src dst)) = 0xFFFF#16 :=
  onesSum_of_complement (wordTotal_ipv4Header dscp tot ttl proto _ src dst)
    (toNat_ipCsum16 (BitVec.ofNat 16 tot) src dst dscp ttl proto)

/-! ## The L4 checksum -/

/-- One fold of a 25-bit sum. -/
theorem toNat_fold25 (s : BitVec 25) :
    ((s.setWidth 16).setWidth 25 + (s.extractLsb' 16 9).setWidth 25).toNat = carry s.toNat := by
  have hlt : s.toNat < 2 ^ 25 := s.isLt
  have hlo : ((s.setWidth 16).setWidth 25).toNat = s.toNat % 65536 := by
    rw [BitVec.toNat_setWidth, BitVec.toNat_setWidth]
    omega
  have hhi : ((s.extractLsb' 16 9).setWidth 25).toNat = s.toNat / 65536 := by
    rw [BitVec.toNat_setWidth, BitVec.extractLsb'_toNat, Nat.shiftRight_eq_div_pow]
    omega
  rw [BitVec.toNat_add, hlo, hhi, carry]
  omega

/-- **The partial checksum** is the complement of the two half sums. -/
theorem toNat_l4Fold (psa psb : BitVec 24) :
    (l4Fold psa psb).toNat = 65535 - onesRep (psa.toNat + psb.toNat) := by
  have hsum : (psa.setWidth 25 + psb.setWidth 25).toNat = psa.toNat + psb.toNat := by
    rw [BitVec.toNat_add, BitVec.toNat_setWidth, BitVec.toNat_setWidth]
    omega
  have hrep := onesRep_le (psa.toNat + psb.toNat)
  simp only [l4Fold, BitVec.toNat_not, BitVec.toNat_setWidth, toNat_fold25]
  rw [hsum, carry_carry (by omega), Nat.mod_eq_of_lt (by omega)]

section Segment

variable (r : PwFlowRow) (seq ts : BitVec 64) (g : GenFields) (payLen : BitVec 12)

/-- The addresses of the inner IP header. -/
def addressBytes : List Byte :=
  if r.isV6 then beBytes 16 g.v6src ++ beBytes 16 g.v6dst else beBytes 4 g.sip ++ beBytes 4 g.dip

theorem length_addressBytes : (addressBytes r g).length = if r.isV6 then 32 else 8 := by
  rw [addressBytes]
  split <;> simp

/-- The L4 header before the checksum. -/
def l4Pre : List Byte :=
  beBytes 2 g.sp ++ beBytes 2 g.dp ++
    if r.l4Proto = 6#8 then
      beBytes 4 (seq.setWidth 32) ++ [0x00, 0x00, 0x00, 0x00] ++ [0x50, r.tcpFlags, 0xFF, 0xFF]
    else beBytes 2 (BitVec.ofNat 16 (r.l4Hl + payLen.toNat))

/-- The L4 header behind the checksum. -/
def l4Post : List Byte := if r.l4Proto = 6#8 then [0x00, 0x00] else []

theorem length_l4Pre : (l4Pre r seq g payLen).length = if r.l4Proto = 6#8 then 16 else 6 := by
  rw [l4Pre]
  split <;> simp

/-- The L4 header with the checksum `c`. -/
def l4Header (c : BitVec 16) : List Byte := l4Pre r seq g payLen ++ beBytes 2 c ++ l4Post r

theorem length_l4Header (c : BitVec 16) : (l4Header r seq g payLen c).length = r.l4Hl := by
  rw [l4Header, List.length_append, List.length_append, length_l4Pre, length_beBytes, l4Post,
    PwFlowRow.l4Hl]
  split <;> rfl

theorem l4Layer_eq : l4Layer r seq g payLen =
    l4Header r seq g payLen (if r.covered then l4Fold g.psa g.psb else 0) := by
  rw [l4Layer, l4Header, l4Pre, l4Post, PwFlowRow.covered]
  by_cases h : r.l4Proto = 6#8
  · simp [h]
  · cases hv6 : r.isV6
    · simp [h, beBytes, List.range_succ]
    · simp [h]

/-- The test header without its time stamp. -/
def testPre : List Byte :=
  beBytes 4 testHdrMagic ++ [0x00, 0x01, 0x00, 0x00] ++ beBytes 4 r.flowId ++ beBytes 8 seq

theorem length_testPre : (testPre r seq).length = 20 := by
  simp [testPre]

theorem testHeader_eq :
    testHeader r seq ts = testPre r seq ++ beBytes 8 ts ++ [0x00, 0x00, 0x00, 0x00] := rfl

/-- Words added one after the other. -/
theorem toNat_foldl_add (l : List (BitVec 16)) (s : BitVec 24)
    (h : s.toNat + l.length * 65535 < 2 ^ 24) :
    (l.foldl (fun s w => s + w.setWidth 24) s).toNat = s.toNat + wordTotal l := by
  induction l generalizing s with
  | nil => rfl
  | cons w l ih =>
    have hw : w.toNat < 65536 := w.isLt
    rw [List.length_cons, Nat.succ_mul] at h
    have hstep : (s + w.setWidth 24).toNat = s.toNat + w.toNat := by
      rw [BitVec.toNat_add, BitVec.toNat_setWidth]
      omega
    rw [List.foldl_cons, ih _ (by omega), hstep, wordTotal_cons, Nat.add_assoc]

/-- A word and those that are added to it. -/
theorem toNat_foldl_word (w : BitVec 16) (l : List (BitVec 16)) (h : l.length < 255) :
    (l.foldl (fun s w => s + w.setWidth 24) (w.setWidth 24)).toNat = wordTotal (w :: l) := by
  have hw : w.toNat < 65536 := w.isLt
  have hext : (w.setWidth 24).toNat = w.toNat := by
    rw [BitVec.toNat_setWidth]
    omega
  rw [toNat_foldl_add l _ (by omega), hext, wordTotal_cons]

/-- The words of an address, in either order. -/
theorem wordTotal_address (x : BitVec 128) :
    wordTotal ((List.range 8).map fun w => x.extractLsb' (w * 16) 16) =
      wordTotal (netWords (beBytes 16 x)) := by
  rw [netWords_beBytes 8 x]
  simp only [List.range_succ, List.range_zero, List.nil_append, List.map_append, List.map_cons,
    List.map_nil, wordTotal_append, wordTotal_cons, wordTotal_nil, Nat.reduceSub, Nat.reduceMul]
  omega

/-- The half sum over the addresses. -/
theorem toNat_l4PsumA :
    (l4PsumA r.isV6 g.sip g.dip g.v6src g.v6dst).toNat =
      wordTotal (netWords (addressBytes r g)) := by
  rw [l4PsumA, addressBytes]
  cases r.isV6 with
  | true =>
    have hle := wordTotal_le ((List.range 8).map fun w => g.v6src.extractLsb' (w * 16) 16)
    rw [List.length_map, List.length_range] at hle
    have hsrc := toNat_foldl_add ((List.range 8).map fun w => g.v6src.extractLsb' (w * 16) 16) 0
      (by simp)
    have hdst := toNat_foldl_add ((List.range 8).map fun w => g.v6dst.extractLsb' (w * 16) 16)
      (((List.range 8).map fun w => g.v6src.extractLsb' (w * 16) 16).foldl
        (fun s w => s + w.setWidth 24) 0) (by
          rw [hsrc, List.length_map, List.length_range]
          simp
          omega)
    rw [hsrc, List.foldl_map, List.foldl_map] at hdst
    rw [if_pos rfl, if_pos rfl]
    refine hdst.trans ?_
    rw [wordTotal_address, wordTotal_address, netWords_append (by simp), wordTotal_append]
    simp
  | false =>
    have hlow (x : BitVec 32) : x.setWidth 16 = x.extractLsb' 0 16 :=
      BitVec.setWidth_eq_extractLsb' (by decide)
    rw [if_neg (by decide), if_neg (by decide), netWords_append (by simp), netWords_beBytes_four,
      netWords_beBytes_four, hlow, hlow]
    exact toNat_foldl_word (g.sip.extractLsb' 16 16)
      [g.sip.extractLsb' 0 16, g.dip.extractLsb' 16 16, g.dip.extractLsb' 0 16] (by simp)

theorem wordTotal_l4Pre :
    wordTotal (netWords (l4Pre r seq g payLen)) = g.sp.toNat + g.dp.toNat +
      if r.l4Proto = 6#8 then
        (seq.extractLsb' 16 16).toNat + (seq.extractLsb' 0 16).toNat +
          (netWord 0x50 r.tcpFlags).toNat + 65535
      else (BitVec.ofNat 16 (r.l4Hl + payLen.toNat)).toNat := by
  rw [l4Pre, netWords_append (by simp), netWords_append (by simp), wordTotal_append,
    wordTotal_append, netWords_beBytes_two, netWords_beBytes_two]
  by_cases h : r.l4Proto = 6#8
  · have hhi : (seq.setWidth 32).extractLsb' 16 16 = seq.extractLsb' 16 16 := by
      apply BitVec.eq_of_toNat_eq
      simp only [BitVec.extractLsb'_toNat, BitVec.toNat_setWidth, Nat.shiftRight_eq_div_pow]
      omega
    have hlo : (seq.setWidth 32).extractLsb' 0 16 = seq.extractLsb' 0 16 := by
      apply BitVec.eq_of_toNat_eq
      simp only [BitVec.extractLsb'_toNat, BitVec.toNat_setWidth, Nat.shiftRight_zero]
      omega
    have hzero : (netWord 0x00 0x00).toNat = 0 := rfl
    have hwindow : (netWord 0xFF 0xFF).toNat = 65535 := rfl
    rw [if_pos h, if_pos h, netWords_append (by simp), netWords_append (by simp),
      netWords_beBytes_four, hhi, hlo]
    simp only [netWords_cons_cons, netWords_nil, wordTotal_append, wordTotal_cons, wordTotal_nil,
      hzero, hwindow]
    omega
  · rw [if_neg h, if_neg h, netWords_beBytes_two]
    simp only [wordTotal_cons, wordTotal_nil, Nat.add_zero]

theorem wordTotal_testPre :
    wordTotal (netWords (testPre r seq)) = 0xA502 + 0x7E57 + 1 +
      ((r.flowId.extractLsb' 16 16).toNat + (r.flowId.extractLsb' 0 16).toNat) +
      ((seq.extractLsb' 48 16).toNat + (seq.extractLsb' 32 16).toNat +
        (seq.extractLsb' 16 16).toNat + (seq.extractLsb' 0 16).toNat) := by
  have hzero : (netWord 0x00 0x00).toNat = 0 := rfl
  have hver : (netWord 0x00 0x01).toNat = 1 := rfl
  have hhi : (testHdrMagic.extractLsb' 16 16).toNat = 0xA502 := by decide
  have hlo : (testHdrMagic.extractLsb' 0 16).toNat = 0x7E57 := by decide
  rw [testPre, netWords_append (by simp), netWords_append (by simp), netWords_append (by simp)]
  simp only [netWords_beBytes_four, netWords_beBytes_eight, netWords_cons_cons, netWords_nil,
    wordTotal_append, wordTotal_cons, wordTotal_nil, hzero, hver, hhi, hlo]
  omega

/-- The words of the test header but the time stamp, as the half sum adds them. -/
theorem toNat_testSum :
    ((testHdrMagic.extractLsb' 16 16).setWidth 24 + (testHdrMagic.setWidth 16).setWidth 24 +
        0x000001 + (r.flowId.extractLsb' 16 16).setWidth 24 + (r.flowId.setWidth 16).setWidth 24 +
        (seq.extractLsb' 48 16).setWidth 24 + (seq.extractLsb' 32 16).setWidth 24 +
        (seq.extractLsb' 16 16).setWidth 24 + (seq.setWidth 16).setWidth 24).toNat =
      wordTotal (netWords (testPre r seq)) := by
  have hlow32 (x : BitVec 32) : x.setWidth 16 = x.extractLsb' 0 16 :=
    BitVec.setWidth_eq_extractLsb' (by decide)
  have hlow64 (x : BitVec 64) : x.setWidth 16 = x.extractLsb' 0 16 :=
    BitVec.setWidth_eq_extractLsb' (by decide)
  have hsum := toNat_foldl_word (testHdrMagic.extractLsb' 16 16)
    [testHdrMagic.extractLsb' 0 16, 1, r.flowId.extractLsb' 16 16, r.flowId.extractLsb' 0 16,
      seq.extractLsb' 48 16, seq.extractLsb' 32 16, seq.extractLsb' 16 16,
      seq.extractLsb' 0 16] (by simp)
  have hhi : (testHdrMagic.extractLsb' 16 16).toNat = 0xA502 := by decide
  have hlo : (testHdrMagic.extractLsb' 0 16).toNat = 0x7E57 := by decide
  have hver : (1 : BitVec 16).toNat = 1 := rfl
  rw [wordTotal_testPre, hlow32, hlow32, hlow64]
  refine Eq.trans ?_ (hsum.trans ?_)
  · rfl
  · simp only [wordTotal_cons, wordTotal_nil, hhi, hlo, hver]
    omega

/-- The half sum of a frame without a test header: protocol and length, and the L4 header. -/
theorem toNat_l4PsumB_false :
    (l4PsumB (r.l4ProtoByte == 6#8) g.sp g.dp (BitVec.ofNat 16 (r.l4Hl + payLen.toNat)) r.flowId seq
        r.tcpFlags false).toNat =
      (BitVec.ofNat 16 (r.l4Hl + payLen.toNat)).toNat + r.l4ProtoByte.toNat +
        wordTotal (netWords (l4Pre r seq g payLen)) := by
  have hlow (x : BitVec 64) : x.setWidth 16 = x.extractLsb' 0 16 :=
    BitVec.setWidth_eq_extractLsb' (by decide)
  rw [wordTotal_l4Pre, l4PsumB, PwFlowRow.l4ProtoByte, if_neg (by decide)]
  generalize BitVec.ofNat 16 (r.l4Hl + payLen.toNat) = l4Len
  by_cases h : r.l4Proto = 6#8
  · have hports := toNat_foldl_word l4Len [6, g.sp, g.dp] (by simp)
    have hfields := toNat_foldl_word (seq.extractLsb' 16 16)
      [seq.extractLsb' 0 16, 0x5000#16 ||| r.tcpFlags.setWidth 16, 0xFFFF] (by simp)
    have hflags : 0x5000#16 ||| r.tcpFlags.setWidth 16 = netWord 0x50 r.tcpFlags := by
      rw [netWord, BitVec.append_def]
      rfl
    have hsix : (6 : BitVec 16).toNat = 6 := rfl
    have hproto : (6#8).toNat = 6 := rfl
    have hwindow : (0xFFFF : BitVec 16).toNat = 65535 := rfl
    rw [if_pos h, if_pos h, if_pos (by decide), if_pos (by decide), hlow]
    simp only [wordTotal_cons, wordTotal_nil, hflags, hsix, hwindow] at hports hfields
    refine (BitVec.toNat_add_of_lt ?_).trans ?_
    · refine lt_of_eq_of_lt (congrArg₂ _ hports hfields) ?_
      omega
    · refine (congrArg₂ _ hports hfields).trans ?_
      omega
  · have hsum := toNat_foldl_word l4Len [17, g.sp, g.dp, l4Len] (by simp)
    have hseventeen : (17 : BitVec 16).toNat = 17 := rfl
    have hproto : (17#8).toNat = 17 := rfl
    rw [if_neg h, if_neg h, if_neg (by decide), if_neg (by decide)]
    refine hsum.trans ?_
    simp only [wordTotal_cons, wordTotal_nil, hseventeen, hproto]
    omega

/-- The half sum over protocol and length, the L4 header and the test header. -/
theorem toNat_l4PsumB (addTest : Bool) :
    (l4PsumB (r.l4ProtoByte == 6#8) g.sp g.dp (BitVec.ofNat 16 (r.l4Hl + payLen.toNat)) r.flowId seq
        r.tcpFlags addTest).toNat =
      (BitVec.ofNat 16 (r.l4Hl + payLen.toNat)).toNat + r.l4ProtoByte.toNat +
        wordTotal (netWords (l4Pre r seq g payLen)) +
        if addTest then wordTotal (netWords (testPre r seq)) else 0 := by
  have hheader := toNat_l4PsumB_false r seq g payLen
  cases addTest with
  | false => exact hheader
  | true =>
    have htest := toNat_testSum r seq
    have hpre := wordTotal_l4Pre r seq g payLen
    have htestPre := wordTotal_testPre r seq
    refine (BitVec.toNat_add_of_lt ?_).trans (congrArg₂ _ hheader htest)
    refine lt_of_eq_of_lt (congrArg₂ _ hheader htest) ?_
    rw [hpre, htestPre]
    split <;> omega

theorem wordTotal_l4Header (c : BitVec 16) :
    wordTotal (netWords (l4Header r seq g payLen c)) =
      wordTotal (netWords (l4Pre r seq g payLen)) + c.toNat := by
  have hpre : (l4Pre r seq g payLen).length % 2 = 0 := by
    rw [length_l4Pre]
    split <;> rfl
  have hpost : wordTotal (netWords (l4Post r)) = 0 := by
    rw [l4Post]
    split <;> rfl
  have hboth : (l4Pre r seq g payLen ++ beBytes 2 c).length % 2 = 0 := by
    rw [List.length_append, length_beBytes]
    omega
  rw [l4Header, netWords_append hboth, netWords_append hpre, netWords_beBytes_two, wordTotal_append,
    wordTotal_append, hpost, wordTotal_cons, wordTotal_nil]
  omega

theorem wordTotal_testHeader :
    wordTotal (netWords (testHeader r seq ts)) =
      wordTotal (netWords (testPre r seq)) + (tsAddendOf ts).toNat := by
  have hlen := length_testPre r seq
  have hzero : wordTotal (netWords [0x00, 0x00, 0x00, 0x00]) = 0 := rfl
  rw [testHeader_eq, netWords_append (by rw [List.length_append, hlen, length_beBytes]),
    netWords_append (by rw [hlen]), netWords_beBytes_eight, wordTotal_append, wordTotal_append, hzero,
    toNat_tsAddendOf]
  simp only [wordTotal_cons, wordTotal_nil]
  omega

theorem psa_precompute :
    (precompute r seq payLen).psa.toNat =
      wordTotal (netWords (addressBytes r (precompute r seq payLen))) := by
  rw [← toNat_l4PsumA]
  rfl

theorem psb_precompute :
    (precompute r seq payLen).psb.toNat =
      (BitVec.ofNat 16 (r.l4Hl + payLen.toNat)).toNat + r.l4ProtoByte.toNat +
        wordTotal (netWords (l4Pre r seq (precompute r seq payLen) payLen)) +
        if (r.frameTemplate == 0#2) = true then wordTotal (netWords (testPre r seq)) else 0 := by
  rw [← toNat_l4PsumB]
  rfl

end Segment

/-! ## The frame behind the stamper -/

/-- The frame of a row as it leaves the stamper, at `ts`: only test frames are marked for it. -/
def wireFrame (r : PwFlowRow) (seq tsBuilt : BitVec 64) (len : BitVec 16) (ts : BitVec 64) :
    List Byte :=
  if r.frameTemplate = 0#2 then stampedFrame r ts (genFrame r seq tsBuilt len)
  else genFrame r seq tsBuilt len

theorem length_wireFrame (r : PwFlowRow) (seq tsBuilt : BitVec 64) (len : BitVec 16)
    (ts : BitVec 64) :
    (wireFrame r seq tsBuilt len ts).length = (genFrame r seq tsBuilt len).length := by
  rw [wireFrame]
  split
  · exact length_stampedFrame _ _ _
  · rfl

/-- The L4 checksum of a frame that leaves the stamper. -/
def wireCsum (r : PwFlowRow) (ts : BitVec 64) (g : GenFields) : BitVec 16 :=
  if r.frameTemplate = 0#2 then
    finalizeCsum (l4Fold g.psa g.psb) (tsAddendOf ts) (r.l4Proto != 6#8)
  else l4Fold g.psa g.psb

/-- A byte of the stamped frame. -/
theorem frameByte_stampedFrame {r : PwFlowRow} {frame : List Byte} (ts : BitVec 64)
    (hlen : r.tsOff + 8 ≤ frame.length) (i : ℕ) :
    frameByte (stampedFrame r ts frame) i =
      let c := finalizeCsum (be16 (frameByte frame) r.csumOff) (tsAddendOf ts) (r.l4Proto != 6#8)
      if r.tsOff ≤ i ∧ i < r.tsOff + 8 then ts.extractLsb' ((7 - (i - r.tsOff)) * 8) 8
      else if r.covered = true ∧ i = r.csumOff then c.extractLsb' 8 8
      else if r.covered = true ∧ i = r.csumOff + 1 then c.extractLsb' 0 8
      else frameByte frame i := by
  have hlt := csumOff_add_lt r
  dsimp only
  by_cases hi : i < frame.length
  · rw [frameByte, stampedFrame, List.getD_eq_getElem?_getD, List.getElem?_mapIdx,
      List.getElem?_eq_getElem hi]
    simp [frameByte, List.getD_eq_getElem?_getD, hi]
  · rw [if_neg (by omega), if_neg (by omega), if_neg (by omega), frameByte, frameByte,
      List.getD_eq_getElem?_getD, List.getD_eq_getElem?_getD,
      List.getElem?_eq_none (by rw [length_stampedFrame]; omega), List.getElem?_eq_none (by omega)]

/-- The headers of a frame that leaves the stamper. -/
structure OnWire (r : PwFlowRow) (seq ts : BitVec 64) (g : GenFields) (payLen : BitVec 12)
    (frame : List Byte) : Prop where
  link : Holds (frameByte frame) r.etOff (linkLayer r g payLen)
  ip : r.frameTemplate ≠ 3#2 → Holds (frameByte frame) r.ipOff (ipLayer r g payLen)
  l4 : r.frameTemplate ≠ 3#2 → r.frameTemplate ≠ 2#2 → r.covered = true →
    Holds (frameByte frame) r.l4Off
      (l4Header r seq g payLen (wireCsum r ts g))
  test : r.frameTemplate = 0#2 →
    Holds (frameByte frame) (r.l4Off + r.l4Hl) (testHeader r seq ts)
  zero : ∀ i, r.minLen ≤ i → frameByte frame i = 0

section Wire

variable {r : PwFlowRow} {seq tsBuilt : BitVec 64} {len : BitVec 16}

/-- After the headers a generated frame is zero. -/
theorem frameByte_genFrame_of_le (hraw : r.RawPlain)
    (heff : (effLen r.frameLenMin r.frameLenMax len).toNat < 4096) {i : ℕ} (hi : r.minLen ≤ i) :
    frameByte (genFrame r seq tsBuilt len) i = 0 := by
  rw [frameByte_genFrame hraw heff, List.getD_eq_getElem?_getD, List.getElem?_eq_none]
  · rfl
  · rw [length_header hraw]
    exact hi

/-- A raw frame passes the stamper as it is. -/
theorem onWire_of_raw (hraw : r.RawPlain)
    (heff : (effLen r.frameLenMin r.frameLenMax len).toNat < 4096) (h0 : r.frameTemplate ≠ 0#2)
    (ts : BitVec 64) :
    OnWire r seq ts (precompute r seq (r.payLen len)) (r.payLen len)
      (genFrame r seq tsBuilt len) := by
  have H : HoldsHeaders (frameByte (genFrame r seq tsBuilt len)) r seq tsBuilt
      (precompute r seq (r.payLen len)) (r.payLen len) := holdsHeaders_genFrame hraw heff
  refine ⟨H.link, H.ip, ?_, fun h => absurd h h0, fun i => frameByte_genFrame_of_le hraw heff⟩
  intro h3 h2 hcov
  have hl4 := H.l4 h3 h2
  rw [l4Layer_eq, if_pos hcov] at hl4
  rw [wireCsum, if_neg h0]
  exact hl4

/-- The stamper leaves what is neither the checksum nor the time stamp. -/
theorem frameByte_stampedFrame_of_ne {frame : List Byte} {ts : BitVec 64}
    (hlen : r.tsOff + 8 ≤ frame.length) {i : ℕ} (hcsum : i < r.csumOff ∨ r.csumOff + 2 ≤ i)
    (hts : i < r.tsOff ∨ r.tsOff + 8 ≤ i) :
    frameByte (stampedFrame r ts frame) i = frameByte frame i := by
  rw [frameByte_stampedFrame ts hlen]
  dsimp only
  rw [if_neg (by omega), if_neg (by omega), if_neg (by omega)]

/-- The checksum field of a stamped frame. -/
theorem holds_csum_stampedFrame {frame : List Byte} (ts : BitVec 64)
    (hlen : r.tsOff + 8 ≤ frame.length) (hcov : r.covered = true) :
    Holds (frameByte (stampedFrame r ts frame)) r.csumOff
      (beBytes 2 (finalizeCsum (be16 (frameByte frame) r.csumOff) (tsAddendOf ts)
        (r.l4Proto != 6#8))) := by
  have hlt := csumOff_add_lt r
  intro i hi
  rw [length_beBytes] at hi
  rw [frameByte_stampedFrame ts hlen]
  dsimp only
  rw [if_neg (by omega)]
  obtain rfl | rfl : i = 0 ∨ i = 1 := by omega
  · rw [if_pos ⟨hcov, rfl⟩]
    rfl
  · rw [if_neg (by omega), if_pos ⟨hcov, rfl⟩]
    rfl

/-- The time stamp of a stamped frame. -/
theorem holds_ts_stampedFrame {frame : List Byte} {ts : BitVec 64}
    (hlen : r.tsOff + 8 ≤ frame.length) :
    Holds (frameByte (stampedFrame r ts frame)) r.tsOff (beBytes 8 ts) := by
  intro i hi
  rw [length_beBytes] at hi
  rw [frameByte_stampedFrame ts hlen]
  dsimp only
  rw [if_pos (by omega)]
  simp only [beBytes, List.get_eq_getElem, List.getElem_map, List.getElem_range]
  congr 1
  omega

/-- **A stamped frame** has its time stamp, and its final checksum. -/
theorem onWire_stampedFrame {g : GenFields} {payLen : BitVec 12} {frame : List Byte}
    (h0 : r.frameTemplate = 0#2) (H : HoldsHeaders (frameByte frame) r seq tsBuilt g payLen)
    (hlen : r.tsOff + 8 ≤ frame.length) (hzero : ∀ i, r.minLen ≤ i → frameByte frame i = 0)
    (ts : BitVec 64) : OnWire r seq ts g payLen (stampedFrame r ts frame) := by
  have h3 : r.frameTemplate ≠ 3#2 := by rw [h0]; decide
  have h2 : r.frameTemplate ≠ 2#2 := by rw [h0]; decide
  have hlt := csumOff_add_lt r
  have hcsum : r.csumOff = r.l4Off + if r.l4Proto = 6#8 then 16 else 6 := rfl
  have hcsumLe : r.csumOff + 2 ≤ r.l4Off + r.l4Hl := by
    rw [hcsum, PwFlowRow.l4Hl]
    split <;> omega
  have hts : r.tsOff = r.l4Off + r.l4Hl + 20 := rfl
  have hip : r.l4Off = r.ipOff + r.ipHl := rfl
  have hmin : r.minLen = r.l4Off + r.l4Hl + 32 := by
    rw [PwFlowRow.minLen, ← l4Off_add_l4Hl h3 h2, h0]
    rfl
  refine ⟨?_, ?_, ?_, ?_, ?_⟩
  · refine H.link.congr fun i _ hi => frameByte_stampedFrame_of_ne hlen ?_ ?_
    · rw [etOff_add_length_linkLayer] at hi
      omega
    · rw [etOff_add_length_linkLayer] at hi
      omega
  · intro _
    refine (H.ip h3).congr fun i _ hi => frameByte_stampedFrame_of_ne hlen ?_ ?_
    · rw [length_ipLayer] at hi
      omega
    · rw [length_ipLayer] at hi
      omega
  · intro _ _ hcov
    have hl4 := H.l4 h3 h2
    rw [l4Layer_eq, if_pos hcov, l4Header, holds_append, holds_append, List.length_append,
      length_beBytes, length_l4Pre, ← Nat.add_assoc, ← hcsum] at hl4
    have hbuilt := be16_of_holds hl4.1.2
    have hnew := holds_csum_stampedFrame ts hlen hcov
    rw [hbuilt] at hnew
    rw [wireCsum, if_pos h0, l4Header, holds_append, holds_append, List.length_append,
      length_beBytes, length_l4Pre, ← Nat.add_assoc, ← hcsum]
    refine ⟨⟨?_, hnew⟩, ?_⟩
    · refine hl4.1.1.congr fun i _ hi => frameByte_stampedFrame_of_ne hlen ?_ ?_
      · rw [length_l4Pre] at hi
        omega
      · rw [length_l4Pre] at hi
        omega
    · have hpost : (l4Post r).length + (r.csumOff + 2) = r.l4Off + r.l4Hl := by
        rw [l4Post, hcsum, PwFlowRow.l4Hl]
        by_cases htcp : r.l4Proto = 6#8
        · simp only [if_pos htcp, List.length_cons, List.length_nil]
          omega
        · simp only [if_neg htcp, List.length_nil]
          omega
      refine hl4.2.congr fun i hi hi' => frameByte_stampedFrame_of_ne hlen ?_ ?_ <;> omega
  · intro _
    have htest := H.test h0
    rw [testHeader_eq, holds_append, holds_append, List.length_append, length_beBytes,
      length_testPre, ← Nat.add_assoc, ← hts] at htest
    rw [testHeader_eq, holds_append, holds_append, List.length_append, length_beBytes,
      length_testPre,
      ← Nat.add_assoc, ← hts]
    refine ⟨⟨?_, holds_ts_stampedFrame hlen⟩, ?_⟩
    · refine htest.1.1.congr fun i hi hi' => frameByte_stampedFrame_of_ne hlen ?_ ?_
      · omega
      · rw [length_testPre] at hi'
        omega
    · refine htest.2.congr fun i hi hi' => frameByte_stampedFrame_of_ne hlen ?_ ?_ <;> omega
  · intro i hi
    rw [frameByte_stampedFrame_of_ne hlen (by omega) (by omega)]
    exact hzero i hi

/-- **What leaves the stamper**, for every template. -/
theorem onWire_wireFrame (hraw : r.RawPlain)
    (heff : (effLen r.frameLenMin r.frameLenMax len).toNat < 4096) (ts : BitVec 64) :
    OnWire r seq ts (precompute r seq (r.payLen len)) (r.payLen len)
      (wireFrame r seq tsBuilt len ts) := by
  rw [wireFrame]
  by_cases h0 : r.frameTemplate = 0#2
  · rw [if_pos h0]
    exact onWire_stampedFrame h0 (holdsHeaders_genFrame hraw heff) (tsOff_add_le_length h0 heff)
      (fun i => frameByte_genFrame_of_le hraw heff) ts
  · rw [if_neg h0]
    exact onWire_of_raw hraw heff h0 ts

/-! ## Verification -/

/-- The pseudo header of the segment at `l4Off`, read from the frame. -/
def pseudoHeader (frame : List Byte) (ipOff l4Off : ℕ) (v6 : Bool) : List (BitVec 16) :=
  let len := BitVec.ofNat 16 (frame.length - l4Off)
  if v6 then
    netWords (slice frame (ipOff + 8) 32) ++ [0, len, 0, netWord 0 (frameByte frame (ipOff + 6))]
  else netWords (slice frame (ipOff + 12) 8) ++ [netWord 0 (frameByte frame (ipOff + 9)), len]

/-- The L4 checksum of the segment at `l4Off` verifies. -/
def L4Verifies (frame : List Byte) (ipOff l4Off : ℕ) (v6 : Bool) : Prop :=
  onesSum (pseudoHeader frame ipOff l4Off v6 ++ netWords (frame.drop l4Off)) = 0xFFFF#16

/-- What a list of bytes and zeros after it add up to. -/
theorem wordTotal_drop {frame l : List Byte} {o : ℕ} (hl : l.length % 2 = 0)
    (h : Holds (frameByte frame) o l) (hlen : o + l.length ≤ frame.length)
    (hzero : ∀ i, o + l.length ≤ i → frameByte frame i = 0) :
    wordTotal (netWords (frame.drop o)) = wordTotal (netWords l) := by
  have hdrop : frame.drop o = l ++ List.replicate (frame.length - (o + l.length)) 0#8 := by
    have hslice := slice_of_holds h hlen
    rw [slice] at hslice
    rw [← List.take_append_drop l.length (frame.drop o), hslice, List.drop_drop]
    congr 1
    apply List.eq_replicate_iff.mpr
    refine ⟨by rw [List.length_drop], ?_⟩
    intro b hb
    obtain ⟨i, hi, rfl⟩ := List.getElem_of_mem hb
    have hbyte := hzero (o + l.length + i) (by omega)
    rw [frameByte, List.getD_eq_getElem?_getD, List.getElem?_eq_getElem] at hbyte
    · rw [List.getElem_drop]
      exact hbyte
  rw [hdrop, netWords_append hl, wordTotal_append, wordTotal_netWords_zeros, Nat.add_zero]

/-- The addresses of the inner IP header, where the pseudo header reads them. -/
theorem address_of_holds {w : Window} {o : ℕ} {g : GenFields} {payLen : BitVec 12}
    (h : Holds w o (ipLayer r g payLen)) :
    Holds w (o + if r.isV6 then 8 else 12) (addressBytes r g) := by
  rw [ipLayer] at h
  rw [addressBytes]
  cases hv6 : r.isV6 with
  | true =>
    simp only [hv6, if_true, ipv6Header, holds_append, List.length_append, length_beBytes,
      List.length_cons, List.length_nil, Nat.reduceAdd] at h ⊢
    exact ⟨h.1.2, h.2⟩
  | false =>
    simp only [hv6, Bool.false_eq_true, if_false, ipv4Header, holds_append, List.length_append,
      length_beBytes, List.length_cons, List.length_nil, Nat.reduceAdd] at h ⊢
    exact ⟨h.1.2, h.2⟩

/-- The words of the pseudo header, added up. -/
theorem wordTotal_pseudoHeader {frame : List Byte} {g : GenFields} {payLen : BitVec 12}
    (h : Holds (frameByte frame) r.ipOff (ipLayer r g payLen))
    (hlen : r.l4Off + (r.l4Hl + payLen.toNat) = frame.length) :
    wordTotal (pseudoHeader frame r.ipOff r.l4Off r.isV6) =
      wordTotal (netWords (addressBytes r g)) + r.l4ProtoByte.toNat +
        (BitVec.ofNat 16 (r.l4Hl + payLen.toNat)).toNat := by
  have haddr := address_of_holds h
  have hproto := innerProto_of_holds h
  have hal := length_addressBytes r g
  have hoff : r.l4Off = r.ipOff + r.ipHl := rfl
  have hseg : frame.length - r.l4Off = r.l4Hl + payLen.toNat := by omega
  have hword : (netWord 0 r.l4ProtoByte).toNat = r.l4ProtoByte.toNat := by
    rw [toNat_netWord]
    simp
  rw [PwFlowRow.ipHl] at hoff
  rw [pseudoHeader, hseg]
  cases hv6 : r.isV6 with
  | true =>
    simp only [hv6, if_true] at haddr hproto hal hoff ⊢
    have hslice := slice_of_holds haddr (by omega)
    rw [hal] at hslice
    rw [hslice, hproto, wordTotal_append]
    have hzero : (0 : BitVec 16).toNat = 0 := rfl
    simp only [wordTotal_cons, wordTotal_nil, hword, hzero]
    omega
  | false =>
    simp only [hv6, Bool.false_eq_true, if_false] at haddr hproto hal hoff ⊢
    have hslice := slice_of_holds haddr (by omega)
    rw [hal] at hslice
    rw [hslice, hproto, wordTotal_append]
    simp only [wordTotal_cons, wordTotal_nil, hword]
    omega

/-- The words of the segment, added up. -/
theorem wordTotal_segment {frame : List Byte} {g : GenFields} {payLen : BitVec 12}
    {ts : BitVec 64} (H : OnWire r seq ts g payLen frame) (h3 : r.frameTemplate ≠ 3#2)
    (h2 : r.frameTemplate ≠ 2#2) (hcov : r.covered = true)
    (hlen : r.minLen ≤ frame.length) :
    wordTotal (netWords (frame.drop r.l4Off)) =
      wordTotal (netWords (l4Pre r seq g payLen)) + (wireCsum r ts g).toNat +
        if r.frameTemplate = 0#2 then
          wordTotal (netWords (testPre r seq)) + (tsAddendOf ts).toNat
        else 0 := by
  have hhdr := length_l4Header r seq g payLen (wireCsum r ts g)
  have heven : r.l4Hl % 2 = 0 := by
    rw [PwFlowRow.l4Hl]
    split <;> rfl
  have hl4 := H.l4 h3 h2 hcov
  have hoff := l4Off_add_l4Hl h3 h2
  by_cases h0 : r.frameTemplate = 0#2
  · have hmin : r.minLen = r.l4Off + (r.l4Hl + 32) := by
      rw [PwFlowRow.minLen, ← hoff, h0, Nat.add_assoc]
      rfl
    have hboth : Holds (frameByte frame) r.l4Off
        (l4Header r seq g payLen (wireCsum r ts g) ++ testHeader r seq ts) := by
      rw [holds_append, hhdr]
      exact ⟨hl4, H.test h0⟩
    have hblen : (l4Header r seq g payLen (wireCsum r ts g) ++ testHeader r seq ts).length =
        r.l4Hl + 32 := by
      rw [List.length_append, hhdr, length_testHeader]
    rw [wordTotal_drop (by rw [hblen]; omega) hboth (by rw [hblen]; omega)
      (fun i hi => H.zero i (by rw [hblen] at hi; omega)),
      netWords_append (by rw [hhdr]; exact heven),
      wordTotal_append, wordTotal_l4Header, wordTotal_testHeader, if_pos h0]
  · have hmin : r.minLen = r.l4Off + r.l4Hl := by
      rw [PwFlowRow.minLen, ← hoff, payFloor, if_neg h0]
      rfl
    rw [wordTotal_drop (by rw [hhdr]; exact heven) hl4 (by rw [hhdr]; omega)
      (fun i hi => H.zero i (by rw [hhdr] at hi; omega)), wordTotal_l4Header, if_neg h0]
    rfl

/-- **The L4 checksum of a frame verifies.** -/
theorem l4Verifies_of_onWire {frame : List Byte} {payLen : BitVec 12} {ts : BitVec 64}
    (H : OnWire r seq ts (precompute r seq payLen) payLen frame) (h3 : r.frameTemplate ≠ 3#2)
    (h2 : r.frameTemplate ≠ 2#2) (hcov : r.covered = true)
    (hlen : r.l4Off + (r.l4Hl + payLen.toNat) = frame.length) (hmin : r.minLen ≤ frame.length) :
    L4Verifies frame r.ipOff r.l4Off r.isV6 := by
  have hpsa := psa_precompute r seq payLen
  have hpsb := psb_precompute r seq payLen
  have hpseudo := wordTotal_pseudoHeader (H.ip h3) hlen
  have hsegment := wordTotal_segment H h3 h2 hcov hmin
  generalize precompute r seq payLen = g at hpsa hpsb hpseudo hsegment
  have hproto : 0 < r.l4ProtoByte.toNat := by
    rw [PwFlowRow.l4ProtoByte]
    split <;> decide
  have hfold := toNat_l4Fold g.psa g.psb
  rw [L4Verifies]
  by_cases h0 : r.frameTemplate = 0#2
  · -- the stamper adds the time stamp to the partial sum
    have hts : (tsAddendOf ts).toNat ≤ 4 * 65535 := by
      rw [toNat_tsAddendOf]
      omega
    have hfinal := (finalizeCsum_spec (l4Fold g.psa g.psb) hts (r.l4Proto != 6#8)).1
    have hmod := onesRep_mod (g.psa.toNat + g.psb.toNat)
    have hle := onesRep_le (g.psa.toNat + g.psb.toNat)
    rw [BitVec.toNat_not, hfold] at hfinal
    simp only [h0, beq_self_eq_true, if_true] at hpsb hsegment
    rw [wireCsum, if_pos h0] at hsegment
    rw [onesSum_eq_iff, wordTotal_append, hpseudo, hsegment]
    omega
  · have hnot : (r.frameTemplate == 0#2) = false := beq_eq_false_iff_ne.mpr h0
    rw [hnot] at hpsb
    rw [if_neg (by simp)] at hpsb
    rw [if_neg h0, wireCsum, if_neg h0] at hsegment
    refine onesSum_of_complement ?_ hfold
    rw [wordTotal_append, hpseudo, hsegment]
    omega

end Wire

end PacketWyrm
