import Mathlib.Data.List.GetD
import PacketWyrm.Checksums
import PacketWyrm.FramePreview

/-!
# The headers of a preview

The preview and the frame builder are two programs for one format: the one works on the
configuration, the other on the compiled row.  Piece by piece, what the preview puts into its
buffer is what the builder lays out for a row in which the defaults of the preview stand in the
place of zeros.

## Main definitions

* `PwFlowRow.shown` — the row with these defaults.
* `Preview.Shows` — the bytes that a preview shows.

## Main results

* `pvMod48_eq`, `pvMod128_eq` — the modifiers of both programs agree.
* `RowOf.pvOuter_eq`, `RowOf.pvIp_eq`, `RowOf.pvL4_eq`, `RowOf.pvTest_eq` — so do the headers.
* `preview_l2raw`, `preview_l3raw`, `preview_l4` — what a preview shows.
-/

namespace PacketWyrm

open Lib

/-! ## Modifiers -/

section Modifiers

variable (mode : PwFieldMode) (seq : BitVec 32)

theorem setWidth_setWidth_seq : (seq.setWidth 64).setWidth 32 = seq := by
  rw [BitVec.setWidth_setWidth_of_le seq (by decide), BitVec.setWidth_eq]

theorem pvMod32_eq (base mask : BitVec 32) :
    pvMod32 mode base mask seq = modified mode mask (stream32 mode (seq.setWidth 64)) base := by
  rw [pvMod32, modified, stream32, setWidth_setWidth_seq]
  rfl

theorem pvMod16_eq (base mask : BitVec 16) :
    pvMod16 mode base mask seq = modified mode mask (stream16 mode (seq.setWidth 64)) base := by
  have hlow : (seq.setWidth 64).setWidth 16 = seq.setWidth 16 :=
    BitVec.setWidth_setWidth_of_le seq (by decide)
  rw [pvMod16, modified, stream16, setWidth_setWidth_seq, hlow]
  rfl

theorem pvMod48_eq (base : BitVec 48) (mask : BitVec 64) :
    (pvMod48 mode (base.setWidth 64) mask (seq.setWidth 64)).setWidth 48 =
      modified mode (mask.setWidth 48) (stream48 mode (seq.setWidth 64)) base := by
  have hbase : (base.setWidth 64).setWidth 48 = base := by
    rw [BitVec.setWidth_setWidth_of_le base (by decide), BitVec.setWidth_eq]
  have hlow (x : BitVec 64) : (x &&& 0xFFFFFFFFFFFF).setWidth 48 = x.setWidth 48 := by
    have hones : (0xFFFFFFFFFFFF : BitVec 64).setWidth 48 = BitVec.allOnes 48 := by decide
    rw [BitVec.setWidth_and, hones, BitVec.and_allOnes]
  have hhigh : ((seq.setWidth 64) >>> 32).setWidth 32 = (seq.setWidth 64).extractLsb' 32 32 := by
    apply BitVec.eq_of_toNat_eq
    simp
  have hwords (x y : BitVec 32) : x.setWidth 64 <<< 32 ||| y.setWidth 64 = x ++ y :=
    shiftLeft_or_halves x y
  rw [pvMod48, modified, stream48]
  by_cases hstatic : mode = .static
  · rw [if_pos hstatic, if_pos hstatic, hbase]
  · rw [if_neg hstatic, if_neg hstatic, BitVec.setWidth_or, BitVec.setWidth_and,
      BitVec.setWidth_and, BitVec.setWidth_not (by decide), hbase]
    by_cases hrandom : mode = .random
    · rw [if_pos hrandom, if_pos hrandom, hlow, hwords, hhigh]
      rfl
    · rw [if_neg hrandom, if_neg hrandom, hlow]

/-- The four lanes of an address. -/
theorem lanes_append (x : BitVec 128) :
    x.extractLsb' 96 32 ++ x.extractLsb' 64 32 ++ x.extractLsb' 32 32 ++ x.extractLsb' 0 32 =
      x := by
  rw [BitVec.extractLsb'_append_extractLsb'_eq_extractLsb' (show 96 = 64 + 32 from rfl),
    BitVec.extractLsb'_append_extractLsb'_eq_extractLsb' (show 64 = 32 + 32 from rfl),
    BitVec.extractLsb'_append_extractLsb'_eq_extractLsb' (show 32 = 0 + 32 from rfl)]
  exact BitVec.extractLsb'_eq_self

theorem pvMod128_eq (base mask : BitVec 128) (salt : BitVec 32) :
    pvMod128 mode base mask seq salt =
      modified mode mask (stream128 mode (seq.setWidth 64) salt) base := by
  simp only [pvMod128, pvLane, Nat.reduceMul]
  rw [modified, stream128, rot128]
  by_cases hstatic : mode = .static
  · simp only [if_pos hstatic]
    exact lanes_append base
  · simp only [if_neg hstatic, code_eq_two_iff, setWidth_setWidth_seq]
    conv_rhs => rw [← lanes_append base, ← lanes_append mask]
    rw [BitVec.not_append, BitVec.not_append, BitVec.not_append, BitVec.and_append,
      BitVec.and_append, BitVec.and_append, BitVec.and_append, BitVec.and_append,
      BitVec.and_append, BitVec.or_append, BitVec.or_append, BitVec.or_append]
    rfl

/-- A sequence number below `2 ^ 32` in eight bytes. -/
theorem beBytes_eight_setWidth : beBytes 8 (seq.setWidth 64) = [0, 0, 0, 0] ++ beBytes 4 seq := by
  have hlow (k : ℕ) : (seq.setWidth 64).extractLsb' k 8 = seq.extractLsb' k 8 := by
    apply BitVec.eq_of_toNat_eq
    rw [BitVec.extractLsb'_toNat, BitVec.extractLsb'_toNat, BitVec.toNat_setWidth_of_le (by decide)]
  have hhigh {k : ℕ} (hk : 32 ≤ k) : seq.extractLsb' k 8 = 0 := by
    have hlt : seq.toNat < 2 ^ k :=
      Nat.lt_of_lt_of_le seq.isLt (Nat.pow_le_pow_right (by decide) hk)
    apply BitVec.eq_of_toNat_eq
    rw [BitVec.extractLsb'_toNat, Nat.shiftRight_eq_div_pow, Nat.div_eq_of_lt hlt]
    rfl
  simp only [beBytes, List.range_succ, List.range_zero, List.nil_append, List.map_append,
    List.map_cons, List.map_nil, Nat.reduceSub, Nat.reduceMul, hlow, hhigh (by decide : 32 ≤ 56),
    hhigh (by decide : 32 ≤ 48), hhigh (by decide : 32 ≤ 40), hhigh (Nat.le_refl 32)]
  rfl

end Modifiers

/-! ## Headers -/

section Headers

variable (f : PwFlow) (seq : BitVec 32)

theorem and_low12 (x : BitVec 16) : x &&& 0x0FFF = 0#4 ++ x.setWidth 12 := by
  apply BitVec.eq_of_getLsbD_eq
  intro i hi
  rw [show (0x0FFF : BitVec 16) = (BitVec.allOnes 12).setWidth 16 by decide, BitVec.getLsbD_append,
    BitVec.getLsbD_and, BitVec.getLsbD_setWidth, BitVec.getLsbD_allOnes, BitVec.getLsbD_setWidth]
  by_cases hlt : i < 12 <;> simp [hlt, hi]

/-- The tag with its priority. -/
theorem tci_eq (pcp : Byte) (vlan : BitVec 12) :
    ((pcp &&& 7).setWidth 16 <<< 13) ||| ((0#4 ++ vlan) &&& 0x0FFF) =
      pcp.setWidth 3 ++ 0#1 ++ vlan := by
  apply BitVec.eq_of_getLsbD_eq
  intro i hi
  rw [and_low12, BitVec.setWidth_append_eq_right, BitVec.getLsbD_or, BitVec.getLsbD_shiftLeft,
    show (7 : BitVec 8) = (BitVec.allOnes 3).setWidth 8 by decide]
  simp only [BitVec.getLsbD_append, BitVec.getLsbD_setWidth, BitVec.getLsbD_and,
    BitVec.getLsbD_allOnes]
  by_cases h12 : i < 12
  · simp [h12, hi, show i < 13 by omega]
  · by_cases h13 : i < 13
    · obtain rfl : i = 12 := by omega
      simp
    · simp [h12, h13, hi, show ¬i - 12 < 1 by omega, show i - 13 < 16 by omega,
        show i - 13 < 8 by omega, show i - 12 - 1 = i - 13 by omega]
      exact Bool.and_comm _ _

/-- The addresses and the tag of a preview. -/
theorem pvEth_eq :
    pvEth f seq =
      beBytes 6 (f.dstMacAt (seq.setWidth 64)) ++ beBytes 6 (f.srcMacAt (seq.setWidth 64)) ++
        if f.l2.vlanSet then
          [0x81, 0x00] ++ beBytes 2 (f.l2.pcp.setWidth 3 ++ 0#1 ++ f.vlanAt (seq.setWidth 64))
        else [] := by
  have hvlan : pvMod16 f.mod.vlan.mode (f.l2.vlan &&& 0x0FFF)
      ((f.mod.vlan.mask &&& 0x0FFF).setWidth 16) seq &&& 0x0FFF =
        0#4 ++ f.vlanAt (seq.setWidth 64) := by
    rw [and_low12, and_low12, pvMod16_eq, ← mod16_code, vlan_code]
    rfl
  simp only [pvEth, pvMod48_eq, hvlan, tci_eq]
  rfl

theorem pvIpv6_eq {ip : PwFlowIpv6} (hdscp : ip.dscp.toNat ≤ 63) (plen : ℕ) (next : Byte)
    (src dst : BitVec 128) :
    pvIpv6 ip plen next src dst =
      ipv6Header ip.dscp plen next (orDefault ip.hopLimit 64) src dst := by
  have hall : ∀ d : Byte, d.toNat ≤ 63 →
      0x60#8 ||| d >>> 2 = 0x6#4 ++ (d.setWidth 6 ++ 0#2 : Byte).extractLsb' 4 4 ∧
        (d &&& 3) <<< 6 = (d.setWidth 6 ++ 0#2 : Byte).setWidth 4 ++ 0x0#4 := by
    decide +kernel
  rw [pvIpv6, ipv6Header, (hall _ hdscp).1, (hall _ hdscp).2]

theorem pvIpv4With_eq (ip : PwFlowIpv4) (plen : ℕ) (proto : Byte) (src dst : BitVec 32)
    (csum : BitVec 16) :
    pvIpv4With ip plen proto src dst csum =
      ipv4Header ip.dscp (20 + plen) (orDefault ip.ttl 64) proto csum src dst := by
  have hall : ∀ d : Byte, d <<< 2 = d.setWidth 6 ++ 0#2 := by decide +kernel
  rw [pvIpv4With, ipv4Header, hall]

/-- The checksum routine on an IPv4 header. -/
theorem onesCsum_ipv4Header (dscp : Byte) (tot : ℕ) (ttl proto : Byte) (src dst : BitVec 32) :
    onesCsum (ipv4Header dscp tot ttl proto 0 src dst) 0 =
      ipCsum16 (BitVec.ofNat 16 tot) src dst dscp ttl proto := by
  have htotal := wordTotal_ipv4Header dscp tot ttl proto 0 src dst
  have hle : ipv4Total (BitVec.ofNat 16 tot) src dst dscp ttl proto ≤ 8 * 65535 := wordTotal_le _
  have hrep := onesRep_le (ipv4Total (BitVec.ofNat 16 tot) src dst dscp ttl proto)
  have hzero : (0 : BitVec 32).toNat = 0 := rfl
  have hcsum : (0 : BitVec 16).toNat = 0 := rfl
  apply BitVec.eq_of_toNat_eq
  rw [toNat_ipCsum16, onesCsum, BitVec.toNat_not, BitVec.toNat_ofNat, htotal, hzero, hcsum,
    Nat.zero_add, Nat.add_zero, foldCarry_eq, Nat.mod_eq_of_lt (by omega : _ < 2 ^ 32),
    Nat.mod_eq_of_lt (by omega)]

theorem pvIpv4_eq (ip : PwFlowIpv4) (plen : ℕ) (proto : Byte) (src dst : BitVec 32) :
    pvIpv4 ip plen proto src dst =
      ipv4Header ip.dscp (20 + plen) (orDefault ip.ttl 64) proto
        (ipCsum16 (BitVec.ofNat 16 (20 + plen)) src dst ip.dscp (orDefault ip.ttl 64) proto)
        src dst := by
  rw [pvIpv4, pvIpv4With_eq, pvIpv4With_eq, onesCsum_ipv4Header]

end Headers

/-! ## The row that a preview shows -/

/-- The row with the defaults of the preview in the place of zeros. -/
def PwFlowRow.shown (r : PwFlowRow) : PwFlowRow :=
  { r with
    ttl := orDefault r.ttl 64, outerTtl := orDefault r.outerTtl 64
    tcpFlags := orDefault r.tcpFlags 2 }

theorem pvTunLen_eq_tunnelLen (f : PwFlow) : pvTunLen f = f.tunnelLen := by
  cases ht : f.encap.type <;> simp only [pvTunLen, PwFlow.tunnelLen, ht]

namespace RowOf

variable {f : PwFlow} {r : PwFlowRow} (hr : RowOf f r) (hf : f.Parsed)
  (hraw : f.traffic.frameTemplate ≠ .test → f.encap.present = false) (seq : BitVec 32)
  (payLen : BitVec 12)

include hr

theorem pvInnerEt_eq : pvInnerEt f = r.innerEt := by
  rw [pvInnerEt, PwFlowRow.innerEt, hr.isV6]
  rfl

theorem pvTunLen_eq (hp : f.encap.present = true) : pvTunLen f = encapHdrLen r.encapType := by
  rw [hr.encapHdrLen_eq hp, pvTunLen_eq_tunnelLen]

/-- The tunnel header. -/
theorem pvTunnel_eq (hp : f.encap.present = true) :
    (match f.encap.type with
      | .gre => [0, 0] ++ beBytes 2 (pvInnerEt f)
      | .etherip =>
        [0x30, 0x00] ++
          beBytes 6 (if f.encap.innerMacSet then f.encap.innerDstMac else f.l2.dstMac) ++
          beBytes 6 (if f.encap.innerMacSet then f.encap.innerSrcMac else f.l2.srcMac) ++
          beBytes 2 (pvInnerEt f)
      | _ => []) = tunnelHeader r.shown := by
  have htype : r.shown.encapType = f.encap.type.code.setWidth 2 := by
    refine hr.encapType.trans ?_
    rw [PwFlowEncap.kind, if_pos hp]
  have het : pvInnerEt f = r.shown.innerEt := hr.pvInnerEt_eq
  obtain ⟨hsrc, hdst⟩ := hr.innerMac hp
  have hsrc' : r.shown.innerSrcMac = _ := hsrc
  have hdst' : r.shown.innerDstMac = _ := hdst
  rw [tunnelHeader, htype, het, hsrc', hdst']
  cases f.encap.type <;> rfl

include hf

/-- The outer IP header, with its EtherType. -/
theorem pvOuterIp_eq (hp : f.encap.present = true) (payLen : BitVec 12) :
    (if f.encap.outerIpv6.present then
      [0x86, 0xDD] ++ pvIpv6 f.encap.outerIpv6 (encapHdrLen r.encapType + r.ipHl + r.l4Hl +
        payLen.toNat) f.tunnelProto f.encap.outerIpv6.src f.encap.outerIpv6.dst
    else
      [0x08, 0x00] ++ pvIpv4 f.encap.outerIpv4 (encapHdrLen r.encapType + r.ipHl + r.l4Hl +
        payLen.toNat) f.tunnelProto f.encap.outerIpv4.src f.encap.outerIpv4.dst) =
      outerHeader r.shown (precompute r.shown (seq.setWidth 64) payLen) payLen := by
  have hproto := hr.encapProto_eq hf hp
  have hv6 : r.shown.outerV6 = f.encap.outerIpv6.present := hr.outerV6 hp
  rw [outerHeader, hv6]
  cases ho : f.encap.outerIpv6.present with
  | true =>
    obtain ⟨hsrc, hdst, httl, hdscp⟩ := hr.outerIpv6 hp ho
    rw [if_pos rfl, if_pos rfl, pvIpv6_eq hf.outerDscp6, ← hsrc, ← hdst, ← httl, ← hdscp, ← hproto]
    rfl
  | false =>
    obtain ⟨hsrc, hdst, httl, hdscp⟩ := hr.outerIpv4 hp ho
    have hsum : 20 + (encapHdrLen r.encapType + r.ipHl + r.l4Hl + payLen.toNat) =
        20 + encapHdrLen r.encapType + r.ipHl + r.l4Hl + payLen.toNat := by omega
    have hocsum : (precompute r.shown (seq.setWidth 64) payLen).ocsum =
        ipCsum16 (BitVec.ofNat 16 (20 + (encapHdrLen r.encapType + r.ipHl + r.l4Hl + payLen.toNat)))
          r.outerSrcIpv4 r.outerDstIpv4 r.outerDscp (orDefault r.outerTtl 64)
          (encapProto r.encapType r.isV6) := by
      rw [hsum]
      rfl
    rw [if_neg (by decide), if_neg (by decide), pvIpv4_eq, hocsum, ← hsrc, ← hdst, ← httl,
      ← hdscp, ← hproto]
    rfl

/-- Everything before the inner IP header of a tunnel. -/
theorem pvOuter_eq (hp : f.encap.present = true) :
    pvOuter f (encapHdrLen r.encapType + r.ipHl + r.l4Hl + payLen.toNat) =
      linkLayer r.shown (precompute r.shown (seq.setWidth 64) payLen) payLen := by
  have h0 : r.shown.encapType ≠ 0#2 := by
    refine mt (hr.encapType_eq_zero_iff hf).mp ?_
    rw [hp]
    decide
  have hne := hf.encapType hp
  rw [linkLayer, if_pos h0, ← hr.pvOuterIp_eq hf seq hp payLen, ← hr.pvTunnel_eq hp, pvOuter,
    PwFlow.tunnelProto]
  cases ht : f.encap.type with
  | none => exact absurd ht hne
  | ipip => rfl
  | gre => rfl
  | etherip => rfl

/-- The EtherType of a frame without a tunnel. -/
theorem pvPlain_eq (hp : f.encap.present = false) :
    beBytes 2 (if f.traffic.frameTemplate = .l2raw ∧ f.l2.ethertype ≠ 0 then f.l2.ethertype
        else pvInnerEt f) =
      linkLayer r.shown (precompute r.shown (seq.setWidth 64) payLen) payLen := by
  have h0 : ¬r.shown.encapType ≠ 0#2 := not_not.mpr ((hr.encapType_eq_zero_iff hf).mpr hp)
  have h3 : r.frameTemplate = 3#2 ↔ f.traffic.frameTemplate = .l2raw := hr.template_eq_iff .l2raw
  have het : r.shown.etOut = if r.frameTemplate = 3#2 ∧ r.l2Ethertype ≠ 0#16 then r.l2Ethertype
      else r.innerEt := rfl
  rw [linkLayer, if_neg h0, het, hr.pvInnerEt_eq, hr.l2Ethertype]
  simp only [h3]
  rfl

/-- The inner IP header of a frame with an L4 header. -/
theorem pvIp_eq (h3raw : f.traffic.frameTemplate ≠ .l3raw) :
    pvIp f seq (r.l4Hl + payLen.toNat) =
      ipLayer r.shown (precompute r.shown (seq.setWidth 64) payLen) payLen := by
  have h2 : ¬r.shown.frameTemplate = 2#2 := mt (hr.template_eq_iff .l3raw).mp h3raw
  have hproto : (if f.udp.l4Proto = 6 then 6 else 17 : Byte) = r.shown.l4ProtoByte := by
    rw [← hr.l4Proto]
    rfl
  have hv6 : r.shown.isV6 = f.ipv6.present := hr.isV6
  have hhl : r.shown.l4Hl = r.l4Hl := rfl
  rw [pvIp, if_neg h3raw, hproto, ipLayer, if_neg h2, hv6, hhl]
  cases h6 : f.ipv6.present with
  | true =>
    obtain ⟨-, -, httl, hdscp⟩ := hr.ipv6 h6
    have hsrc : (precompute r.shown (seq.setWidth 64) payLen).v6src = _ :=
      hr.v6src_eq (seq.setWidth 64) payLen hf h6
    have hdst : (precompute r.shown (seq.setWidth 64) payLen).v6dst = _ :=
      hr.v6dst_eq (seq.setWidth 64) payLen hf h6
    rw [if_pos rfl, if_pos rfl, pvIpv6_eq hf.dscp6, pvV6Src, pvV6Dst, pvMod128_eq, pvMod128_eq,
      ← httl, ← hdscp, hsrc, hdst]
    rfl
  | false =>
    obtain ⟨-, -, httl, hdscp⟩ := hr.ipv4 h6
    have hsrc : (precompute r.shown (seq.setWidth 64) payLen).sip = _ :=
      hr.sip_eq (seq.setWidth 64) payLen h6
    have hdst : (precompute r.shown (seq.setWidth 64) payLen).dip = _ :=
      hr.dip_eq (seq.setWidth 64) payLen h6
    have hcsum : (precompute r.shown (seq.setWidth 64) payLen).csum =
        ipCsum16 (BitVec.ofNat 16 (20 + (r.l4Hl + payLen.toNat)))
          (f.srcIpv4At (seq.setWidth 64)) (f.dstIpv4At (seq.setWidth 64)) r.dscp
          (orDefault r.ttl 64) r.shown.l4ProtoByte := by
      rw [← hsrc, ← hdst, ← Nat.add_assoc]
      simp only [precompute, if_neg h2]
      rfl
    rw [if_neg (by decide), if_neg (by decide), pvIpv4_eq, pvSip, pvDip, pvMod32_eq, pvMod32_eq,
      ← httl, ← hdscp, hcsum, hsrc, hdst]
    rfl

omit hf in
/-- The L4 header without its checksum. -/
theorem pvL4_eq :
    pvL4 f seq (r.l4Hl + payLen.toNat) =
      l4Header r.shown (seq.setWidth 64) (precompute r.shown (seq.setWidth 64) payLen) payLen
        0 := by
  have hsp : (precompute r.shown (seq.setWidth 64) payLen).sp = _ :=
    hr.sp_eq (seq.setWidth 64) payLen
  have hdp : (precompute r.shown (seq.setWidth 64) payLen).dp = _ :=
    hr.dp_eq (seq.setWidth 64) payLen
  have hl4 : r.shown.l4Proto = f.udp.l4Proto := hr.l4Proto
  have hflags : r.shown.tcpFlags = orDefault f.udp.tcpFlags 2 := by
    rw [← hr.tcpFlags]
    rfl
  rw [pvL4, l4Header, l4Pre, l4Post, hsp, hdp, hl4, pvMod16_eq, pvMod16_eq, hflags,
    setWidth_setWidth_seq]
  by_cases htcp : f.udp.l4Proto = 6#8
  · simp only [htcp]
    rfl
  · have hn : ¬f.udp.l4Proto = 6 := htcp
    simp only [htcp, hn]
    rfl

omit hf in
/-- The test header without its time stamp. -/
theorem pvTest_eq : pvTest f seq = testHeader r.shown (seq.setWidth 64) 0 := by
  have hid : r.shown.flowId = f.id := hr.flowId
  have hmagic : beBytes 4 testHdrMagic = [0xA5, 0x02, 0x7E, 0x57] := by decide
  have hrest : List.replicate 12 (0 : Byte) = beBytes 8 (0 : BitVec 64) ++ [0, 0, 0, 0] := by decide
  rw [pvTest, testHeader, hid, hmagic, beBytes_eight_setWidth, hrest]
  simp only [List.append_assoc]

end RowOf

/-! ## The frame in the buffer -/

theorem put_of_le {cap : ℕ} {out bytes : List Byte} (h : out.length + bytes.length ≤ cap) :
    put cap out bytes = some (out ++ bytes) := if_pos h

theorem length_inBuffer {cap : ℕ} {out : List Byte} (h : out.length ≤ cap) :
    (inBuffer cap out).length = cap := by
  rw [inBuffer, List.length_append, List.length_replicate]
  omega

theorem getD_inBuffer (cap : ℕ) (out : List Byte) (i : ℕ) :
    (inBuffer cap out).getD i 0 = out.getD i 0 := by
  rw [inBuffer]
  by_cases hi : i < out.length
  · rw [List.getD_append _ _ _ _ hi]
  · rw [List.getD_append_right _ _ _ _ (by omega), List.getD_eq_default out _ (by omega),
      List.getD_eq_getElem?_getD, List.getElem?_replicate]
    split <;> rfl

@[simp] theorem length_wbe16 (buf : List Byte) (o : ℕ) (v : BitVec 16) :
    (wbe16 buf o v).length = buf.length := by
  rw [wbe16, List.length_set, List.length_set]

/-- Other bytes are left as they are. -/
theorem getD_wbe16 (buf : List Byte) {o i : ℕ} (v : BitVec 16) (h : i < o ∨ o + 2 ≤ i) :
    (wbe16 buf o v).getD i 0 = buf.getD i 0 := by
  rw [wbe16, List.getD_eq_getElem?_getD, List.getElem?_set_ne (by omega),
    List.getElem?_set_ne (by omega), List.getD_eq_getElem?_getD]

/-- The frame shows the buffer up to its length; behind it there is nothing to see. -/
theorem frameByte_frame {v : Preview} {out : List Byte} (hle : out.length ≤ v.len) {i : ℕ}
    (h : v.buf.getD i 0 = out.getD i 0) : frameByte v.frame i = out.getD i 0 := by
  rw [frameByte, Preview.frame]
  by_cases hi : i < v.len
  · rw [List.getD_eq_getElem?_getD, List.getElem?_take_of_lt hi, ← List.getD_eq_getElem?_getD, h]
  · have htake : (v.buf.take v.len).length ≤ i := by
      rw [List.length_take]
      omega
    rw [List.getD_eq_default _ _ htake, List.getD_eq_default _ _ (by omega)]

/-- Bytes of the same list at other places than those where two lists differ. -/
theorem getD_append_swap (a b : List Byte) {x y : List Byte} (hxy : x.length = y.length) {i : ℕ}
    (hi : i < a.length ∨ a.length + x.length ≤ i) :
    (a ++ x ++ b).getD i 0 = (a ++ y ++ b).getD i 0 := by
  have hlen : (a ++ x).length = (a ++ y).length := by
    rw [List.length_append, List.length_append, hxy]
  rcases hi with hi | hi
  · rw [List.append_assoc, List.append_assoc, List.getD_append _ _ _ _ hi,
      List.getD_append _ _ _ _ hi]
  · have hle : (a ++ x).length ≤ i := by rwa [List.length_append]
    rw [List.getD_append_right _ _ _ _ hle, List.getD_append_right _ _ _ _ (hlen ▸ hle), hlen]

/-! ## Previews -/

namespace PwFlow

variable (f : PwFlow)

/-- The length of the shortest frames of a flow. -/
def sentLen : ℕ := max f.traffic.lenLo.toNat (pwFlowMinLegalFrame f)

/-- Where the L4 checksum stands. -/
def csumOff : ℕ := f.l4Off + if f.udp.l4Proto = 6 then 16 else 6

/-- The bytes that a preview does not promise: the L4 checksum, and the time stamp of a test
header. -/
def Exempt (i : ℕ) : Prop :=
  (f.traffic.frameTemplate ≠ .l2raw ∧ f.traffic.frameTemplate ≠ .l3raw ∧
      f.csumOff ≤ i ∧ i < f.csumOff + 2) ∨
    (f.traffic.frameTemplate = .test ∧
      f.l4Off + f.l4Len + 20 ≤ i ∧ i < f.l4Off + f.l4Len + 28)

end PwFlow

theorem length_pvEth (f : PwFlow) (seq : BitVec 32) : (pvEth f seq).length = f.etOff := by
  simp only [pvEth, PwFlow.etOff, List.length_append, length_beBytes]
  split <;> rfl

@[simp] theorem length_pvIpv6 (ip : PwFlowIpv6) (plen : ℕ) (next : Byte) (src dst : BitVec 128) :
    (pvIpv6 ip plen next src dst).length = 40 := by
  simp [pvIpv6]

@[simp] theorem length_pvIpv4 (ip : PwFlowIpv4) (plen : ℕ) (proto : Byte) (src dst : BitVec 32) :
    (pvIpv4 ip plen proto src dst).length = 20 := by
  simp [pvIpv4, pvIpv4With]

theorem length_pvIp (f : PwFlow) (seq : BitVec 32) (n : ℕ) :
    (pvIp f seq n).length = if f.ipv6.present then 40 else 20 := by
  simp only [pvIp]
  split <;> simp

theorem length_pvL4 (f : PwFlow) (seq : BitVec 32) (n : ℕ) : (pvL4 f seq n).length = f.l4Len := by
  have hproto : f.l4Len = if f.udp.l4Proto = 6 then 20 else 8 := rfl
  rw [hproto, pvL4]
  split <;> simp

theorem length_pvTest (f : PwFlow) (seq : BitVec 32) : (pvTest f seq).length = 32 := by
  simp [pvTest]

theorem length_pvOuter (f : PwFlow) (n : ℕ) :
    (pvOuter f n).length = 2 + (if f.encap.outerIpv6.present then 40 else 20) + pvTunLen f := by
  rw [pvOuter, pvTunLen, List.length_append]
  congr 1
  · split <;> simp
  · cases f.encap.type <;> simp

/-- What stands between the addresses and the inner IP header of a preview. -/
def pvLink (f : PwFlow) (oPl : ℕ) : List Byte :=
  if f.encap.present then pvOuter f oPl else beBytes 2 (pvInnerEt f)

theorem before_eq (f : PwFlow) :
    f.etOff + (if f.encap.present then 2 + (if f.encap.outerIpv6.present then 40 else 20) +
      pvTunLen f else 2) = f.ipOff := by
  rw [pvTunLen_eq_tunnelLen, PwFlow.ipOff, PwFlow.tunnelOff]
  split <;> omega

theorem length_pvLink (f : PwFlow) (n : ℕ) : f.etOff + (pvLink f n).length = f.ipOff := by
  rw [← before_eq, pvLink]
  split
  · rw [length_pvOuter]
  · rw [length_beBytes]

/-- The bytes up to the end of the inner IP header. -/
theorem length_pvIpEnd (f : PwFlow) (seq : BitVec 32) (n m : ℕ) :
    (pvEth f seq ++ pvLink f n ++ pvIp f seq m).length = f.l4Off := by
  rw [List.length_append, List.length_append, length_pvEth, length_pvLink, length_pvIp,
    PwFlow.l4Off]

/-- The shortest frame of a preview. -/
theorem minFrame_eq {f : PwFlow} (h2 : f.traffic.frameTemplate ≠ .l2raw)
    (hraw : f.traffic.frameTemplate ≠ .test → f.encap.present = false) :
    f.l4Off + (if f.traffic.frameTemplate = .l3raw then 0 else f.l4Len) +
        (if f.traffic.frameTemplate = .test then 32 else 0) = pwFlowMinLegalFrame f := by
  rw [PwFlow.l4Off, PwFlow.ipOff, PwFlow.tunnelOff, PwFlow.etOff, PwFlow.tunnelLen, PwFlow.l4Len,
    pwFlowMinLegalFrame]
  cases ht : f.traffic.frameTemplate with
  | l2raw => exact absurd ht h2
  | l3raw =>
    have hp := hraw (by rw [ht]; decide)
    simp [hp]
    omega
  | l4raw =>
    have hp := hraw (by rw [ht]; decide)
    simp [hp]
    omega
  | test =>
    cases hp : f.encap.present with
    | false =>
      simp
      omega
    | true =>
      cases f.encap.type <;> simp <;> omega

/-- A preview shows the bytes `out`, and zeros behind them. -/
structure Preview.Shows (v : Preview) (f : PwFlow) (out : List Byte) : Prop where
  length : v.frame.length = f.sentLen
  byte : ∀ i, ¬f.Exempt i → frameByte v.frame i = out.getD i 0

theorem Preview.shows_of_buf {f : PwFlow} {v : Preview} {out : List Byte} {cap : ℕ}
    (hlen : v.len = f.sentLen) (hbuf : v.buf.length = cap) (hcap : f.sentLen ≤ cap)
    (hout : out.length ≤ f.sentLen)
    (h : ∀ i, ¬f.Exempt i → v.buf.getD i 0 = out.getD i 0) : v.Shows f out := by
  constructor
  · rw [Preview.frame, List.length_take, hbuf, hlen]
    exact Nat.min_eq_left hcap
  · intro i hi
    exact frameByte_frame (hlen ▸ hout) (h i hi)

theorem frameLen_eq (t : PwFlowTraffic) :
    (if t.frameLenFixedSet then t.frameLenFixed.toNat else t.frameLenMin.toNat) = t.lenLo.toNat :=
  (apply_ite BitVec.toNat _ _ _).symm

section Preview

variable {f : PwFlow} (hf : f.Parsed)
  (hraw : f.traffic.frameTemplate ≠ .test → f.encap.present = false) {cap : ℕ}
  (hcap : f.sentLen ≤ cap) (seq : BitVec 32)

include hf hcap

omit hcap in
/-- The length is one that can be shown. -/
theorem lenLo_ok (hlen : f.traffic.lenLo.toNat ≤ cap) :
    ¬(f.traffic.lenLo.toNat < 14 ∨ 9100 < f.traffic.lenLo.toNat ∨ cap < f.traffic.lenLo.toNat) := by
  have hlo := hf.lenLo
  have hle := hf.lenLe
  have hhi := hf.lenHi
  omega

/-- A raw L2 frame. -/
theorem preview_l2raw (h2 : f.traffic.frameTemplate = .l2raw) :
    ∃ v, pwFlowBuildPreview f seq cap = some v ∧
      v.Shows f (pvEth f seq ++
        beBytes 2 (if f.l2.ethertype ≠ 0 then f.l2.ethertype else pvInnerEt f)) := by
  have heth := length_pvEth f seq
  have hmin : pwFlowMinLegalFrame f = f.etOff + 2 := by
    rw [pwFlowMinLegalFrame, PwFlow.etOff, h2]
    dsimp only
    omega
  have hoff : f.etOff ≤ 16 := by
    rw [PwFlow.etOff]
    split <;> decide
  have hlo := hf.lenLo
  have hlen : f.traffic.lenLo.toNat = f.sentLen := by
    rw [PwFlow.sentLen]
    omega
  have hput : put cap [] (pvEth f seq) = some (pvEth f seq) := put_of_le (by simp; omega)
  have het (et : BitVec 16) :
      put cap (pvEth f seq) (beBytes 2 et) = some (pvEth f seq ++ beBytes 2 et) :=
    put_of_le (by rw [heth, length_beBytes]; omega)
  simp only [pwFlowBuildPreview, frameLen_eq,
    if_neg (lenLo_ok hf (hlen ▸ hcap)), hput, Option.bind_eq_bind, Option.bind_some, if_pos h2, het]
  refine ⟨_, rfl, ?_⟩
  have hout : (pvEth f seq ++
      beBytes 2 (if f.l2.ethertype ≠ 0 then f.l2.ethertype else pvInnerEt f)).length ≤
        f.sentLen := by
    rw [List.length_append, heth, length_beBytes]
    omega
  refine Preview.shows_of_buf hlen (length_inBuffer (by omega)) hcap hout ?_
  intro i _
  exact getD_inBuffer _ _ i

/-- Length of the L4 header that the template has. -/
def PwFlow.tmplL4Len (f : PwFlow) : ℕ :=
  if f.traffic.frameTemplate = .l3raw then 0 else f.l4Len

include hraw

/-- The headers of a preview up to the inner IP header, when the frame has one, and everything
behind them. -/
theorem pwFlowBuildPreview_eq (h2 : f.traffic.frameTemplate ≠ .l2raw) :
    pwFlowBuildPreview f seq cap =
      let pay := f.sentLen - f.l4Off - f.tmplL4Len
      let out := pvEth f seq ++
        pvLink f (pvTunLen f + (if f.ipv6.present then 40 else 20) + f.tmplL4Len + pay) ++
        pvIp f seq (f.tmplL4Len + pay)
      if f.traffic.frameTemplate = .l3raw then
        some { len := f.sentLen, built := out.length, buf := inBuffer cap out }
      else
        let out := out ++ pvL4 f seq (f.tmplL4Len + pay) ++
          if f.traffic.frameTemplate = .test then pvTest f seq else []
        let buf := inBuffer cap out
        let c := onesCsum ((buf.drop f.l4Off).take (f.sentLen - f.l4Off))
          (pvPseudo f seq (f.tmplL4Len + pay))
        some { len := f.sentLen, built := out.length, buf := wbe16 buf f.csumOff c } := by
  have hlo : f.traffic.lenLo.toNat ≤ f.sentLen := Nat.le_max_left _ _
  have hmin : pwFlowMinLegalFrame f ≤ f.sentLen := Nat.le_max_right _ _
  have hframe : f.l4Off + f.tmplL4Len + (if f.traffic.frameTemplate = .test then 32 else 0) =
      pwFlowMinLegalFrame f := minFrame_eq h2 hraw
  have heth := length_pvEth f seq
  have hl4Off : f.ipOff + (if f.ipv6.present then 40 else 20) = f.l4Off := rfl
  have hltmpl : (if f.traffic.frameTemplate = .l3raw then 0
      else if f.udp.l4Proto = 6 then 20 else 8) = f.tmplL4Len := rfl
  have hlink (n : ℕ) : (pvEth f seq ++ pvLink f n).length = f.ipOff := by
    rw [List.length_append, heth, length_pvLink]
  have hip := length_pvIpEnd f seq
  have hputEth : put cap [] (pvEth f seq) = some (pvEth f seq) := by
    have := length_pvLink f 0
    rw [put_of_le (by rw [List.length_nil, heth]; omega), List.nil_append]
  have hputLink (n : ℕ) :
      put cap (pvEth f seq) (pvLink f n) = some (pvEth f seq ++ pvLink f n) := by
    refine put_of_le ?_
    rw [← List.length_append, hlink]
    omega
  have hputIp (n m : ℕ) : put cap (pvEth f seq ++ pvLink f n) (pvIp f seq m) =
      some (pvEth f seq ++ pvLink f n ++ pvIp f seq m) := by
    refine put_of_le ?_
    rw [← List.length_append, hip]
    omega
  have hlen : (if f.traffic.lenLo.toNat < pwFlowMinLegalFrame f then pwFlowMinLegalFrame f
      else f.traffic.lenLo.toNat) = f.sentLen := by
    rw [PwFlow.sentLen]
    split <;> omega
  have hsub : f.sentLen - f.ipOff - (if f.ipv6.present then 40 else 20) = f.sentLen - f.l4Off := by
    rw [Nat.sub_sub, hl4Off]
  have hne : (f.traffic.frameTemplate != .l2raw) = true := by simpa using h2
  simp only [pwFlowBuildPreview, frameLen_eq, if_neg (lenLo_ok hf (hlo.trans hcap)), hputEth,
    Option.bind_eq_bind, Option.bind_some, if_neg h2, hne, Bool.and_true, heth, before_eq, hl4Off,
    hltmpl, hframe, hlen, if_neg (Nat.not_lt.mpr hcap), hsub, ← pvLink.eq_1, hputLink, hputIp]
  by_cases h3 : f.traffic.frameTemplate = .l3raw
  · have hzero : f.tmplL4Len = 0 := if_pos h3
    simp only [if_pos h3, hzero, Nat.zero_add]
  · have hl4 : f.tmplL4Len = f.l4Len := if_neg h3
    have hputL4 (n m k : ℕ) :
        put cap (pvEth f seq ++ pvLink f n ++ pvIp f seq m) (pvL4 f seq k) =
          some (pvEth f seq ++ pvLink f n ++ pvIp f seq m ++ pvL4 f seq k) := by
      refine put_of_le ?_
      rw [hip, length_pvL4, ← hl4]
      omega
    have happ (l : List Byte) : (if f.traffic.frameTemplate = .test then l ++ pvTest f seq else l) =
        l ++ if f.traffic.frameTemplate = .test then pvTest f seq else [] := by
      split
      · rfl
      · rw [List.append_nil]
    have hcsum : (if f.udp.l4Proto = 6 then f.l4Off + 16 else f.l4Off + 6) = f.csumOff := by
      rw [PwFlow.csumOff]
      split <;> rfl
    simp only [if_neg h3, hputL4, Option.bind_some, happ, hip, hcsum]

/-- A raw IP frame. -/
theorem preview_l3raw (h3 : f.traffic.frameTemplate = .l3raw) :
    ∃ v, pwFlowBuildPreview f seq cap = some v ∧
      ∃ n m, v.Shows f (pvEth f seq ++ pvLink f n ++ pvIp f seq m) := by
  have h2 : f.traffic.frameTemplate ≠ .l2raw := by
    rw [h3]
    decide
  have hmin : pwFlowMinLegalFrame f ≤ f.sentLen := Nat.le_max_right _ _
  have hframe := minFrame_eq h2 hraw
  rw [pwFlowBuildPreview_eq hf hraw hcap seq h2]
  dsimp only
  rw [if_pos h3]
  have hout (n m : ℕ) : (pvEth f seq ++ pvLink f n ++ pvIp f seq m).length ≤ f.sentLen := by
    rw [length_pvIpEnd]
    omega
  exact ⟨_, rfl, _, _, Preview.shows_of_buf rfl (length_inBuffer ((hout _ _).trans hcap)) hcap
    (hout _ _) fun i _ => getD_inBuffer _ _ i⟩

/-- A frame with an L4 header. -/
theorem preview_l4 (h2 : f.traffic.frameTemplate ≠ .l2raw)
    (h3 : f.traffic.frameTemplate ≠ .l3raw) :
    ∃ v, pwFlowBuildPreview f seq cap = some v ∧
      v.Shows f (pvEth f seq ++
        pvLink f (pvTunLen f + (if f.ipv6.present then 40 else 20) + f.l4Len +
          (f.sentLen - f.l4Off - f.l4Len)) ++
        pvIp f seq (f.l4Len + (f.sentLen - f.l4Off - f.l4Len)) ++
        pvL4 f seq (f.l4Len + (f.sentLen - f.l4Off - f.l4Len)) ++
        if f.traffic.frameTemplate = .test then pvTest f seq else []) := by
  have hmin : pwFlowMinLegalFrame f ≤ f.sentLen := Nat.le_max_right _ _
  have hframe := minFrame_eq h2 hraw
  have hl4 : f.tmplL4Len = f.l4Len := if_neg h3
  rw [if_neg h3] at hframe
  rw [pwFlowBuildPreview_eq hf hraw hcap seq h2]
  dsimp only
  rw [if_neg h3, hl4]
  refine ⟨_, rfl, ?_⟩
  have hout (n m k : ℕ) : (pvEth f seq ++ pvLink f n ++ pvIp f seq m ++ pvL4 f seq k ++
      if f.traffic.frameTemplate = .test then pvTest f seq else []).length ≤ f.sentLen := by
    have htest : (if f.traffic.frameTemplate = .test then pvTest f seq else []).length =
        if f.traffic.frameTemplate = .test then 32 else 0 := by
      rw [apply_ite List.length, length_pvTest]
      rfl
    rw [List.length_append, List.length_append, length_pvIpEnd, length_pvL4, htest]
    omega
  have hbuf (n m k : ℕ) := length_inBuffer ((hout n m k).trans hcap)
  refine Preview.shows_of_buf rfl ((length_wbe16 _ _ _).trans (hbuf _ _ _)) hcap (hout _ _ _) ?_
  intro i hi
  have hplace : i < f.csumOff ∨ f.csumOff + 2 ≤ i := by
    by_contra hin
    exact hi (.inl ⟨h2, h3, by omega, by omega⟩)
  dsimp only
  rw [getD_wbe16 _ _ hplace, getD_inBuffer]

end Preview

end PacketWyrm
