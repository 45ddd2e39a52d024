import PacketWyrm.FlowGen
import PacketWyrm.TxRows

/-!
# The configured header fields on the wire

A configured value goes through the compiled row, the decoder of the row and the
frame builder before it is a field of a frame.  Here the frame is read back by
the layout of the protocols, and compared with the configuration.

The schema promises the priority of a tag too.  No stage after the compiled row
looks at it, so it is always sent as zero; everything else arrives.

## Main definitions

* `modified` — a field with its modifier applied to the masked bits.
* `Carries` — the frame has the configured value in every header field.

## Main results

* `getLsbD_modified` — a modifier changes masked bits only.
* `sent_genFrame` — every frame built from a flow's row has the flow's fields.
* `configured_fields_on_wire_iff` — which compiled flows have all their fields
  on the wire.
-/

namespace PacketWyrm

open Lib

/-! ## Modifiers -/

/-- A field after its modifier: the masked bits come from the stream. -/
def modified {n : ℕ} (mode : PwFieldMode) (mask stream base : BitVec n) : BitVec n :=
  if mode = .static then base else (base &&& ~~~mask) ||| (stream &&& mask)

/-- **A modifier changes exactly the masked bits.** -/
theorem getLsbD_modified {n : ℕ} (mode : PwFieldMode) (mask stream base : BitVec n) (b : ℕ) :
    (modified mode mask stream base).getLsbD b =
      if mode ≠ .static ∧ mask.getLsbD b = true then stream.getLsbD b else base.getLsbD b := by
  by_cases hm : mode = .static
  · simp [modified, hm]
  · by_cases hb : b < n
    · rw [modified, if_neg hm, BitVec.getLsbD_or, BitVec.getLsbD_and, BitVec.getLsbD_and,
        BitVec.getLsbD_not]
      generalize mask.getLsbD b = k
      generalize base.getLsbD b = x
      generalize stream.getLsbD b = y
      cases k <;> simp [hm, hb]
    · have hge : n ≤ b := Nat.le_of_not_lt hb
      simp [BitVec.getLsbD_of_ge _ _ hge]

/-- The stream of a 16-bit field: the sequence number, or its scrambled bits. -/
def stream16 (mode : PwFieldMode) (seq : BitVec 64) : BitVec 16 :=
  if mode = .random then (scramble (seq.setWidth 32) >>> 3).setWidth 16 else seq.setWidth 16

/-- The stream of an IPv4 address. -/
def stream32 (mode : PwFieldMode) (seq : BitVec 64) : BitVec 32 :=
  if mode = .random then scramble (seq.setWidth 32) else seq.setWidth 32

/-- The stream of a MAC address. -/
def stream48 (mode : PwFieldMode) (seq : BitVec 64) : BitVec 48 :=
  if mode = .random then
    (scramble (seq.extractLsb' 32 32) ++ scramble (seq.setWidth 32)).setWidth 48
  else seq.setWidth 48

/-- The stream of an IPv6 address. -/
def stream128 (mode : PwFieldMode) (seq : BitVec 64) (salt : BitVec 32) : BitVec 128 :=
  rot128 (mode.code.setWidth 2) seq salt

section Modifiers

variable (mode : PwFieldMode) (seq : BitVec 64)

theorem code_eq_zero_iff : mode.code.setWidth 2 = 0#2 ↔ mode = .static := by
  cases mode <;> decide

theorem code_eq_two_iff : mode.code.setWidth 2 = 2#2 ↔ mode = .random := by
  cases mode <;> decide

theorem blend_code {n : ℕ} (base mask rot : BitVec n) :
    blend (mode.code.setWidth 2) base mask rot = modified mode mask rot base := by
  rw [blend, modified]
  simp only [code_eq_zero_iff]

theorem mod16_code (base mask : BitVec 16) :
    mod16 (mode.code.setWidth 2) base mask seq = modified mode mask (stream16 mode seq) base := by
  rw [mod16, blend_code, stream16]
  simp only [code_eq_two_iff]

theorem mod32_code (base mask : BitVec 32) :
    mod32 (mode.code.setWidth 2) base mask seq = modified mode mask (stream32 mode seq) base := by
  rw [mod32, blend_code, stream32]
  simp only [code_eq_two_iff]

theorem mod48_code (base mask : BitVec 48) :
    mod48 (mode.code.setWidth 2) base mask seq = modified mode mask (stream48 mode seq) base := by
  rw [mod48, blend_code, stream48]
  simp only [code_eq_two_iff]

/-- The tag's id is modified in 16 bits and cut to 12. -/
theorem vlan_code (vlan : BitVec 16) (mask : BitVec 64) :
    (mod16 (mode.code.setWidth 2) (0#4 ++ vlan.setWidth 12) ((mask &&& 0x0FFF).setWidth 16)
        seq).setWidth 12 =
      modified mode (mask.setWidth 12) ((stream16 mode seq).setWidth 12) (vlan.setWidth 12) := by
  rw [mod16_code]
  apply BitVec.eq_of_getLsbD_eq
  intro b hb
  rw [BitVec.getLsbD_setWidth, getLsbD_modified, getLsbD_modified]
  have hmask : ((mask &&& 0x0FFF).setWidth 16).getLsbD b = (mask.setWidth 12).getLsbD b := by
    rw [show (0x0FFF : BitVec 64) = (BitVec.allOnes 12).setWidth 64 by decide,
      BitVec.getLsbD_setWidth, BitVec.getLsbD_setWidth, BitVec.getLsbD_and,
      BitVec.getLsbD_setWidth, BitVec.getLsbD_allOnes]
    simp only [hb, show b < 16 by omega, show b < 64 by omega, decide_true, Bool.true_and,
      Bool.and_true]
  rw [hmask, BitVec.getLsbD_append]
  simp only [hb, decide_true, Bool.true_and, BitVec.getLsbD_setWidth, if_true]

end Modifiers

/-! ## The fields of a flow -/

namespace PwFlow

variable (f : PwFlow) (seq : BitVec 64)

/-- The destination MAC of the frame with sequence number `seq`. -/
def dstMacAt : BitVec 48 :=
  modified f.mod.dstMac.mode (f.mod.dstMac.mask.setWidth 48) (stream48 f.mod.dstMac.mode seq)
    f.l2.dstMac

/-- The source MAC. -/
def srcMacAt : BitVec 48 :=
  modified f.mod.srcMac.mode (f.mod.srcMac.mask.setWidth 48) (stream48 f.mod.srcMac.mode seq)
    f.l2.srcMac

/-- The VLAN id. -/
def vlanAt : BitVec 12 :=
  modified f.mod.vlan.mode (f.mod.vlan.mask.setWidth 12)
    ((stream16 f.mod.vlan.mode seq).setWidth 12) (f.l2.vlan.setWidth 12)

/-- The source address of an IPv4 flow. -/
def srcIpv4At : BitVec 32 :=
  modified f.mod.srcIpv4.mode (f.mod.srcIpv4.mask.setWidth 32) (stream32 f.mod.srcIpv4.mode seq)
    f.ipv4.src

/-- The destination address of an IPv4 flow. -/
def dstIpv4At : BitVec 32 :=
  modified f.mod.dstIpv4.mode (f.mod.dstIpv4.mask.setWidth 32) (stream32 f.mod.dstIpv4.mode seq)
    f.ipv4.dst

/-- The source address of an IPv6 flow. -/
def srcIpv6At : BitVec 128 :=
  modified f.mod.srcIpv4.mode f.mod.srcIpv6Mask (stream128 f.mod.srcIpv4.mode seq saltSip)
    f.ipv6.src

/-- The destination address of an IPv6 flow. -/
def dstIpv6At : BitVec 128 :=
  modified f.mod.dstIpv4.mode f.mod.dstIpv6Mask (stream128 f.mod.dstIpv4.mode seq saltDip)
    f.ipv6.dst

/-- The L4 source port. -/
def srcPortAt : BitVec 16 :=
  modified f.mod.udpSrc.mode (f.mod.udpSrc.mask.setWidth 16) (stream16 f.mod.udpSrc.mode seq)
    f.udp.srcPort

/-- The L4 destination port. -/
def dstPortAt : BitVec 16 :=
  modified f.mod.udpDst.mode (f.mod.udpDst.mask.setWidth 16) (stream16 f.mod.udpDst.mode seq)
    f.udp.dstPort

/-- The EtherType of an address family. -/
def familyEt (v6 : Bool) : BitVec 16 := if v6 then 0x86DD#16 else 0x0800#16

/-- The EtherType of the frame: that of the outermost IP header, or the one set
for a raw L2 frame. -/
def etAt : BitVec 16 :=
  if f.encap.present then familyEt f.encap.outerIpv6.present
  else if f.traffic.frameTemplate = .l2raw ∧ f.l2.ethertype ≠ 0 then f.l2.ethertype
  else familyEt f.ipv6.present

/-- The protocol number that announces the tunnel. -/
def tunnelProto : Byte :=
  match f.encap.type with
  | .gre => 47
  | .etherip => 97
  | _ => if f.ipv6.present then 41 else 4

/-- Length of the tunnel header. -/
def tunnelLen : ℕ :=
  match f.encap.type with
  | .gre => 4
  | .etherip => 16
  | _ => 0

/-- Where the EtherType stands. -/
def etOff : ℕ := 12 + if f.l2.vlanSet then 4 else 0

/-- Where the tunnel header stands. -/
def tunnelOff : ℕ := f.etOff + 2 + if f.encap.outerIpv6.present then 40 else 20

/-- Where the inner IP header stands. -/
def ipOff : ℕ := if f.encap.present then f.tunnelOff + f.tunnelLen else f.etOff + 2

/-- Where the L4 header stands. -/
def l4Off : ℕ := f.ipOff + if f.ipv6.present then 40 else 20

/-- Length of the flow's L4 header. -/
def l4Len : ℕ := if f.udp.l4Proto = 6#8 then 20 else 8

end PwFlow

/-! ## Reading the frame -/

/-- An IPv4 header at `o` with the given fields. -/
structure CarriesIpv4 (w : Window) (o : ℕ) (ip : PwFlowIpv4) (proto : Byte) : Prop where
  version : w o = 0x45#8
  dscp : w (o + 1) >>> 2 = ip.dscp
  ttl : w (o + 8) = ip.ttl
  proto : w (o + 9) = proto
  src : be32 w (o + 12) = ip.src
  dst : be32 w (o + 16) = ip.dst

/-- An IPv6 header at `o` with the given fields. -/
structure CarriesIpv6 (w : Window) (o : ℕ) (ip : PwFlowIpv6) (proto : Byte) : Prop where
  version : (w o).extractLsb' 4 4 = 6#4
  dscp : ((w o).setWidth 4 ++ (w (o + 1)).extractLsb' 4 4) >>> 2 = ip.dscp
  proto : w (o + 6) = proto
  hopLimit : w (o + 7) = ip.hopLimit
  src : be128 w (o + 8) = ip.src
  dst : be128 w (o + 24) = ip.dst

/-- A header of the family that is configured. -/
def CarriesIp (w : Window) (o : ℕ) (v4 : PwFlowIpv4) (v6 : PwFlowIpv6) (proto : Byte) : Prop :=
  if v6.present then CarriesIpv6 w o v6 proto else CarriesIpv4 w o v4 proto

/-- The header of the flow's tunnel at `o`. -/
def PwFlow.CarriesTunnel (f : PwFlow) (w : Window) (o : ℕ) : Prop :=
  match f.encap.type with
  | .gre => be16 w o = 0 ∧ be16 w (o + 2) = PwFlow.familyEt f.ipv6.present
  | .etherip =>
    be16 w o = 0x3000 ∧
      be48 w (o + 2) = (if f.encap.innerMacSet then f.encap.innerDstMac else f.l2.dstMac) ∧
      be48 w (o + 8) = (if f.encap.innerMacSet then f.encap.innerSrcMac else f.l2.srcMac) ∧
      be16 w (o + 14) = PwFlow.familyEt f.ipv6.present
  | _ => True

/-- **The frame carries the configured header fields**, each with its modifier
applied, as far as the template has them, and is long enough for them. -/
structure Carries (f : PwFlow) (seq : BitVec 64) (frame : List Byte) : Prop where
  dstMac : be48 (frameByte frame) 0 = f.dstMacAt seq
  srcMac : be48 (frameByte frame) 6 = f.srcMacAt seq
  tag : f.l2.vlanSet = true → be16 (frameByte frame) 12 = 0x8100 ∧
    be16 (frameByte frame) 14 = f.l2.pcp.setWidth 3 ++ 0#1 ++ f.vlanAt seq
  ethertype : be16 (frameByte frame) f.etOff = f.etAt
  outer : f.encap.present = true →
    CarriesIp (frameByte frame) (f.etOff + 2) f.encap.outerIpv4 f.encap.outerIpv6 f.tunnelProto
  tunnel : f.encap.present = true → f.CarriesTunnel (frameByte frame) f.tunnelOff
  ip : f.traffic.frameTemplate ≠ .l2raw →
    CarriesIp (frameByte frame) f.ipOff
      { f.ipv4 with src := f.srcIpv4At seq, dst := f.dstIpv4At seq }
      { f.ipv6 with src := f.srcIpv6At seq, dst := f.dstIpv6At seq } f.udp.l4Proto
  l4 : f.traffic.frameTemplate ≠ .l2raw → f.traffic.frameTemplate ≠ .l3raw →
    be16 (frameByte frame) f.l4Off = f.srcPortAt seq ∧
      be16 (frameByte frame) (f.l4Off + 2) = f.dstPortAt seq ∧
      (f.udp.l4Proto = 6 → frameByte frame (f.l4Off + 13) = f.udp.tcpFlags)
  fits : pwFlowMinLegalFrame f ≤ frame.length

/-! ## From the row to the flow -/

/-- Only test frames have a tunnel. -/
theorem template_eq_test {f : PwFlow}
    (hraw : f.traffic.frameTemplate ≠ .test → f.encap.present = false)
    (hp : f.encap.present = true) : f.traffic.frameTemplate = .test := by
  by_contra hne
  rw [hraw hne] at hp
  cases hp

namespace RowOf

variable {f : PwFlow} {r : PwFlowRow} (hr : RowOf f r)

include hr

theorem template_eq_iff (t : PwFrameTemplate) :
    r.frameTemplate = t.code.setWidth 2 ↔ f.traffic.frameTemplate = t := by
  rw [hr.frameTemplate]
  cases f.traffic.frameTemplate <;> cases t <;> decide

theorem encapType_eq_zero_iff (hf : f.Parsed) :
    r.encapType = 0#2 ↔ f.encap.present = false := by
  rw [hr.encapType, PwFlowEncap.kind]
  cases hp : f.encap.present with
  | false => simp [PwEncapKind.code]
  | true =>
    have hne := hf.encapType hp
    cases ht : f.encap.type <;> simp_all [PwEncapKind.code]

theorem encapType_ne_zero (hf : f.Parsed) (hp : f.encap.present = true) : r.encapType ≠ 0#2 := by
  rw [Ne, hr.encapType_eq_zero_iff hf, hp]
  decide

theorem encapHdrLen_eq (hp : f.encap.present = true) : encapHdrLen r.encapType = f.tunnelLen := by
  rw [hr.encapType, PwFlowEncap.kind, if_pos hp, PwFlow.tunnelLen]
  cases f.encap.type <;> rfl

theorem rawPlain (hraw : f.traffic.frameTemplate ≠ .test → f.encap.present = false)
    (hf : f.Parsed) : r.RawPlain := by
  intro h
  apply (hr.encapType_eq_zero_iff hf).mpr
  apply hraw
  intro ht
  rw [hr.frameTemplate, ht] at h
  revert h
  decide

theorem etOff_eq : r.etOff = f.etOff := by
  rw [PwFlowRow.etOff, PwFlow.etOff, hr.vlanEn]

theorem tunnelOff_eq (hp : f.encap.present = true) : r.tunnelOff = f.tunnelOff := by
  rw [PwFlowRow.tunnelOff, PwFlow.tunnelOff, hr.etOff_eq, hr.outerV6 hp]

theorem ipOff_eq (hf : f.Parsed) : r.ipOff = f.ipOff := by
  rw [PwFlowRow.ipOff, PwFlow.ipOff]
  cases hp : f.encap.present with
  | false =>
    rw [if_pos ((hr.encapType_eq_zero_iff hf).mpr hp), if_neg (by simp), hr.etOff_eq]
  | true =>
    have h0 := hr.encapType_ne_zero hf hp
    rw [if_neg h0, if_pos rfl, hr.tunnelOff_eq hp, hr.encapHdrLen_eq hp]

theorem l4Off_eq (hf : f.Parsed) : r.l4Off = f.l4Off := by
  rw [PwFlowRow.l4Off, PwFlow.l4Off, hr.ipOff_eq hf, PwFlowRow.ipHl, hr.isV6]

/-- **The compiler and the generator agree on the smallest frame.** -/
theorem minLen_eq (hraw : f.traffic.frameTemplate ≠ .test → f.encap.present = false)
    (hf : f.Parsed) : r.minLen = pwFlowMinLegalFrame f := by
  have henc := hr.encapType_eq_zero_iff hf
  have hhdr : f.encap.present = true →
      (if r.encapType = 2#2 then 4 else if r.encapType = 3#2 then 16 else 0) = f.tunnelLen :=
    hr.encapHdrLen_eq
  rw [PwFlowRow.minLen, payFloor, pwFrameBytes, pwFlowMinLegalFrame]
  have ht := hr.frameTemplate
  cases hp : f.encap.present with
  | false =>
    rw [hp] at henc
    have h0 := henc.mpr rfl
    cases htm : f.traffic.frameTemplate <;> rw [htm] at ht <;>
      simp [ht, PwFrameTemplate.code, h0, hr.vlanEn, hr.isV6, hr.l4Proto] <;> omega
  | true =>
    have h0 := hr.encapType_ne_zero hf hp
    have htest := template_eq_test hraw hp
    rw [htest] at ht
    have hlen := hhdr hp
    rw [PwFlow.tunnelLen] at hlen
    cases htype : f.encap.type <;> rw [htype] at hlen <;>
      simp [ht, PwFrameTemplate.code, h0, htest, hr.vlanEn, hr.isV6, hr.l4Proto, hr.outerV6 hp,
        hlen] <;> omega

/-- The swept length lies in the configured range. -/
theorem effLen_range (hf : f.Parsed) (cur : BitVec 16) :
    60 ≤ (effLen r.frameLenMin r.frameLenMax cur).toNat ∧
      (effLen r.frameLenMin r.frameLenMax cur).toNat ≤ 1518 := by
  have h60 := hf.lenLo
  have hle := hf.lenLe
  have h1518 := hf.lenHi
  rw [hr.frameLenMin, hr.frameLenMax, effLen]
  simp only [BitVec.lt_def]
  split <;> omega

/-! ### The modified fields -/

variable (seq : BitVec 64) (payLen : BitVec 12)

theorem dmac_eq : (precompute r seq payLen).dmac = f.dstMacAt seq := by
  rw [precompute, hr.dmac.1, hr.dmac.2, hr.dstMac]
  exact mod48_code _ _ _ _

theorem smac_eq : (precompute r seq payLen).smac = f.srcMacAt seq := by
  rw [precompute, hr.smac.1, hr.smac.2, hr.srcMac]
  exact mod48_code _ _ _ _

theorem vlan_eq : (precompute r seq payLen).vlan = f.vlanAt seq := by
  rw [precompute, hr.vlanMod.1, hr.vlanMod.2, hr.vlanId]
  exact vlan_code _ _ _ _

theorem sp_eq : (precompute r seq payLen).sp = f.srcPortAt seq := by
  rw [precompute, hr.sp.1, hr.sp.2, hr.udpSp]
  exact mod16_code _ _ _ _

theorem dp_eq : (precompute r seq payLen).dp = f.dstPortAt seq := by
  rw [precompute, hr.dp.1, hr.dp.2, hr.udpDp]
  exact mod16_code _ _ _ _

theorem sip_eq (h6 : f.ipv6.present = false) :
    (precompute r seq payLen).sip = f.srcIpv4At seq := by
  rw [precompute, hr.sip.1, hr.sip.2, (hr.ipv4 h6).1]
  exact mod32_code _ _ _ _

theorem dip_eq (h6 : f.ipv6.present = false) :
    (precompute r seq payLen).dip = f.dstIpv4At seq := by
  rw [precompute, hr.dip.1, hr.dip.2, (hr.ipv4 h6).2.1]
  exact mod32_code _ _ _ _

omit hr in
/-- The two parts of an IPv6 mask put together again. -/
theorem mask_append (m : BitVec 128) :
    m.extractLsb' 32 96 ++ ((m.setWidth 32).setWidth 64).setWidth 32 = m := by
  have hlow : ((m.setWidth 32).setWidth 64).setWidth 32 = m.extractLsb' 0 32 := by
    rw [← BitVec.setWidth_eq_extractLsb' (by decide)]
    simp
  rw [hlow]
  exact (BitVec.extractLsb'_append_extractLsb'_eq_extractLsb' rfl).trans
    BitVec.extractLsb'_eq_self

theorem v6src_eq (hf : f.Parsed) (h6 : f.ipv6.present = true) :
    (precompute r seq payLen).v6src = f.srcIpv6At seq := by
  rw [precompute, hr.sip.1, hr.sip.2, hr.sipHi h6, (hr.ipv6 h6).1, hf.srcMask h6, mask_append]
  exact blend_code _ _ _ _

theorem v6dst_eq (hf : f.Parsed) (h6 : f.ipv6.present = true) :
    (precompute r seq payLen).v6dst = f.dstIpv6At seq := by
  rw [precompute, hr.dip.1, hr.dip.2, hr.dipHi h6, (hr.ipv6 h6).2.1, hf.dstMask h6, mask_append]
  exact blend_code _ _ _ _

end RowOf

/-! ## The frame of a flow -/

/-- The DSCP is the top six bits of its byte. -/
theorem tos_shift {d : Byte} (h : d.toNat ≤ 63) : (d.setWidth 6 ++ 0#2 : BitVec 8) >>> 2 = d := by
  apply BitVec.eq_of_toNat_eq
  rw [BitVec.toNat_ushiftRight, BitVec.toNat_append, BitVec.toNat_setWidth]
  simp [Nat.shiftLeft_eq, Nat.shiftRight_eq_div_pow]
  omega

section Frame

variable {f : PwFlow} {r : PwFlowRow} {w : Window} {seq ts : BitVec 64} {payLen : BitVec 12}

/-- An IP header of either family. -/
theorem carriesIp_of_holds {o : ℕ} {v4 : PwFlowIpv4} {v6 : PwFlowIpv6} {proto : Byte}
    (h4 : v6.present = false → v4.dscp.toNat ≤ 63 ∧
      ∃ tot csum, Holds w o (ipv4Header v4.dscp tot v4.ttl proto csum v4.src v4.dst))
    (h6 : v6.present = true → v6.dscp.toNat ≤ 63 ∧
      ∃ plen, Holds w o (ipv6Header v6.dscp plen proto v6.hopLimit v6.src v6.dst)) :
    CarriesIp w o v4 v6 proto := by
  rw [CarriesIp]
  cases hv : v6.present with
  | false =>
    obtain ⟨hd, tot, csum, h⟩ := h4 hv
    have hread := readsIpv4_of_holds h
    rw [if_neg (by simp)]
    refine ⟨hread.version, ?_, hread.ttl, hread.proto, hread.src, hread.dst⟩
    rw [hread.tos, tos_shift hd]
  | true =>
    obtain ⟨hd, plen, h⟩ := h6 hv
    have hread := readsIpv6_of_holds h
    rw [if_pos rfl]
    refine ⟨hread.version, ?_, hread.next, hread.hop, hread.src, hread.dst⟩
    rw [hread.tc, tos_shift hd]

variable (hr : RowOf f r)

include hr

/-- The protocol of the outer header says what is in the tunnel. -/
theorem RowOf.encapProto_eq (hf : f.Parsed) (hp : f.encap.present = true) :
    encapProto r.encapType r.isV6 = f.tunnelProto := by
  rw [hr.encapType, PwFlowEncap.kind, if_pos hp, hr.isV6, PwFlow.tunnelProto]
  have hne := hf.encapType hp
  cases ht : f.encap.type with
  | none => exact absurd ht hne
  | ipip => rfl
  | gre => rfl
  | etherip => rfl

theorem carriesOuter_of_holds (hf : f.Parsed) (hp : f.encap.present = true) {g : GenFields}
    (h : Holds w r.etOff (outerHeader r g payLen)) :
    be16 w f.etOff = f.etAt ∧
      CarriesIp w (f.etOff + 2) f.encap.outerIpv4 f.encap.outerIpv6 f.tunnelProto := by
  rw [outerHeader, hr.etOff_eq, hr.encapProto_eq hf hp, hr.outerV6 hp] at h
  rw [PwFlow.etAt, if_pos hp, PwFlow.familyEt]
  cases ho : f.encap.outerIpv6.present with
  | false =>
    rw [ho, if_neg (by simp), holds_append, length_beBytes] at h
    obtain ⟨hsrc, hdst, httl, hdscp⟩ := hr.outerIpv4 hp ho
    rw [hsrc, hdst, httl, hdscp] at h
    refine ⟨be16_of_holds h.1, carriesIp_of_holds (fun _ => ⟨hf.outerDscp4, _, _, h.2⟩) ?_⟩
    rw [ho]
    simp
  | true =>
    rw [ho, if_pos rfl, holds_append, length_beBytes] at h
    obtain ⟨hsrc, hdst, httl, hdscp⟩ := hr.outerIpv6 hp ho
    rw [hsrc, hdst, httl, hdscp] at h
    refine ⟨be16_of_holds h.1, carriesIp_of_holds ?_ (fun _ => ⟨hf.outerDscp6, _, h.2⟩)⟩
    rw [ho]
    simp

theorem carriesTunnel_of_holds (hp : f.encap.present = true) {o : ℕ}
    (h : Holds w o (tunnelHeader r)) : f.CarriesTunnel w o := by
  have het : r.innerEt = PwFlow.familyEt f.ipv6.present := by
    rw [PwFlowRow.innerEt, hr.isV6, PwFlow.familyEt]
  rw [tunnelHeader, hr.encapType, PwFlowEncap.kind, if_pos hp, het] at h
  rw [PwFlow.CarriesTunnel]
  cases ht : f.encap.type with
  | none => trivial
  | ipip => trivial
  | gre =>
    rw [ht, if_pos (by decide), holds_append, List.length_cons, List.length_singleton] at h
    simp only [holds_cons] at h
    refine ⟨?_, be16_of_holds h.2⟩
    rw [be16, h.1.1, h.1.2.1]
    rfl
  | etherip =>
    obtain ⟨hsrc, hdst⟩ := hr.innerMac hp
    rw [ht, if_neg (by decide), if_pos (by decide), hsrc, hdst] at h
    simp only [holds_append, holds_cons, List.length_append, length_beBytes, List.length_cons,
      List.length_nil, Nat.reduceAdd] at h
    refine ⟨?_, be48_of_holds h.1.1.2, be48_of_holds h.1.2, be16_of_holds h.2⟩
    rw [be16, h.1.1.1.1, h.1.1.1.2.1]
    rfl

/-- What stands between the addresses and the inner IP header. -/
theorem carriesLink_of_holds (hf : f.Parsed) {g : GenFields}
    (h : Holds w r.etOff (linkLayer r g payLen)) :
    be16 w f.etOff = f.etAt ∧
      (f.encap.present = true →
        CarriesIp w (f.etOff + 2) f.encap.outerIpv4 f.encap.outerIpv6 f.tunnelProto ∧
          f.CarriesTunnel w f.tunnelOff) := by
  have henc := hr.encapType_eq_zero_iff hf
  rw [linkLayer] at h
  cases hp : f.encap.present with
  | true =>
    have h0 := hr.encapType_ne_zero hf hp
    rw [if_pos h0, holds_append, length_outerHeader, ← Nat.add_assoc] at h
    have houter := carriesOuter_of_holds hr hf hp h.1
    refine ⟨houter.1, fun _ => ⟨houter.2, ?_⟩⟩
    rw [← hr.tunnelOff_eq hp]
    exact carriesTunnel_of_holds hr hp h.2
  | false =>
    have h0 := henc.mpr hp
    rw [if_neg (by simp [h0]), hr.etOff_eq] at h
    refine ⟨?_, by simp⟩
    have htmpl : r.frameTemplate = 3#2 ↔ f.traffic.frameTemplate = .l2raw :=
      hr.template_eq_iff .l2raw
    rw [be16_of_holds h, PwFlow.etAt, if_neg (by simp [hp]), PwFlowRow.etOut, hr.l2Ethertype,
      PwFlowRow.innerEt, hr.isV6, PwFlow.familyEt]
    simp only [htmpl]
    rfl

theorem carriesInner_of_holds (hf : f.Parsed)
    (h : Holds w r.ipOff (ipLayer r (precompute r seq payLen) payLen)) :
    CarriesIp w f.ipOff { f.ipv4 with src := f.srcIpv4At seq, dst := f.dstIpv4At seq }
      { f.ipv6 with src := f.srcIpv6At seq, dst := f.dstIpv6At seq } f.udp.l4Proto := by
  have hproto : r.l4ProtoByte = f.udp.l4Proto := by
    rw [PwFlowRow.l4ProtoByte, hr.l4Proto]
    rcases hf.l4Proto with h | h <;> rw [h] <;> rfl
  rw [ipLayer, hr.ipOff_eq hf, hproto, hr.isV6] at h
  apply carriesIp_of_holds
  · intro h6
    rw [if_neg (by simpa using h6), hr.sip_eq seq payLen h6, hr.dip_eq seq payLen h6,
      (hr.ipv4 h6).2.2.1, (hr.ipv4 h6).2.2.2] at h
    exact ⟨hf.dscp4, _, _, h⟩
  · intro h6
    rw [if_pos h6, hr.v6src_eq seq payLen hf h6, hr.v6dst_eq seq payLen hf h6,
      (hr.ipv6 h6).2.2.1, (hr.ipv6 h6).2.2.2] at h
    exact ⟨hf.dscp6, _, h⟩

/-- What a frame of the flow is: it has the fields of `Carries`, but for the
priority, which is zero, and zeros after the headers of a raw frame. -/
structure Sent (f : PwFlow) (seq : BitVec 64) (frame : List Byte) : Prop where
  dstMac : be48 (frameByte frame) 0 = f.dstMacAt seq
  srcMac : be48 (frameByte frame) 6 = f.srcMacAt seq
  tag : f.l2.vlanSet = true →
    be16 (frameByte frame) 12 = 0x8100#16 ∧ be16 (frameByte frame) 14 = 0x0#4 ++ f.vlanAt seq
  ethertype : be16 (frameByte frame) f.etOff = f.etAt
  outer : f.encap.present = true →
    CarriesIp (frameByte frame) (f.etOff + 2) f.encap.outerIpv4 f.encap.outerIpv6 f.tunnelProto
  tunnel : f.encap.present = true → f.CarriesTunnel (frameByte frame) f.tunnelOff
  ip : f.traffic.frameTemplate ≠ .l2raw →
    CarriesIp (frameByte frame) f.ipOff
      { f.ipv4 with src := f.srcIpv4At seq, dst := f.dstIpv4At seq }
      { f.ipv6 with src := f.srcIpv6At seq, dst := f.dstIpv6At seq } f.udp.l4Proto
  l4 : f.traffic.frameTemplate ≠ .l2raw → f.traffic.frameTemplate ≠ .l3raw →
    be16 (frameByte frame) f.l4Off = f.srcPortAt seq ∧
      be16 (frameByte frame) (f.l4Off + 2) = f.dstPortAt seq ∧
      (f.udp.l4Proto = 6 → frameByte frame (f.l4Off + 13) = f.udp.tcpFlags)
  rawL2 : f.traffic.frameTemplate = .l2raw → ∀ i, f.etOff + 2 ≤ i → frameByte frame i = 0
  rawL3 : f.traffic.frameTemplate = .l3raw → ∀ i, f.l4Off ≤ i → frameByte frame i = 0
  afterHdr : ∀ i, hdrBytes ≤ i → frameByte frame i = 0
  fits : pwFlowMinLegalFrame f ≤ frame.length
  lenLo : 60 ≤ frame.length
  lenHi : frame.length ≤ 1518

/-- **Every frame built from a flow's row is a frame of the flow.** -/
theorem sent_genFrame (hf : f.Parsed)
    (hraw : f.traffic.frameTemplate ≠ .test → f.encap.present = false) (cur : BitVec 16) :
    Sent f seq (genFrame r seq ts cur) := by
  have hplain := hr.rawPlain hraw hf
  obtain ⟨hlo, hhi⟩ := hr.effLen_range hf cur
  have heff : (effLen r.frameLenMin r.frameLenMax cur).toNat < 4096 := by omega
  have hlen : (genFrame r seq ts cur).length =
      max (effLen r.frameLenMin r.frameLenMax cur).toNat r.minLen := length_genFrame hplain heff
  have hmin : r.minLen ≤ 166 := by
    have hovh := pwFrameBytes_le r
    have hfloor := payFloor_toNat_le r.frameTemplate
    rw [PwFlowRow.minLen]
    omega
  have H : HoldsHeaders (frameByte (genFrame r seq ts cur)) r seq ts
      (precompute r seq (r.payLen cur)) (r.payLen cur) := holdsHeaders_genFrame hplain heff
  have hzero : ∀ i, r.minLen ≤ i → frameByte (genFrame r seq ts cur) i = 0 := by
    intro i hi
    rw [frameByte_genFrame hplain heff, List.getD_eq_getElem?_getD, List.getElem?_eq_none]
    · rfl
    · rw [length_header hplain]
      exact hi
  obtain ⟨hdmac, hsmac, htag⟩ := ethLayer_of_holds H.eth
  rw [hr.dmac_eq] at hdmac
  rw [hr.smac_eq] at hsmac
  rw [hr.vlanEn, hr.vlan_eq] at htag
  obtain ⟨het, hlink⟩ := carriesLink_of_holds hr hf H.link
  refine
    { dstMac := hdmac, srcMac := hsmac, tag := htag, ethertype := het
      outer := fun hp => (hlink hp).1, tunnel := fun hp => (hlink hp).2
      ip := ?_, l4 := ?_, rawL2 := ?_, rawL3 := ?_, afterHdr := ?_, fits := ?_, lenLo := ?_
      lenHi := ?_ }
  · intro h2
    exact carriesInner_of_holds hr hf (H.ip (mt (hr.template_eq_iff .l2raw).mp h2))
  · intro h2 h3
    have hl4 := l4Layer_of_holds (H.l4 (mt (hr.template_eq_iff .l2raw).mp h2)
      (mt (hr.template_eq_iff .l3raw).mp h3))
    rw [hr.l4Off_eq hf, hr.sp_eq, hr.dp_eq, hr.l4Proto, hr.tcpFlags] at hl4
    exact hl4
  · intro h2 i hi
    apply hzero
    rw [hr.minLen_eq hraw hf, pwFlowMinLegalFrame, h2]
    rw [PwFlow.etOff] at hi
    dsimp only
    omega
  · intro h3 i hi
    apply hzero
    have hp : f.encap.present = false := hraw (by simp [h3])
    rw [hr.minLen_eq hraw hf, pwFlowMinLegalFrame, h3]
    rw [PwFlow.l4Off, PwFlow.ipOff, if_neg (by simp [hp]), PwFlow.etOff] at hi
    dsimp only
    omega
  · intro i hi
    apply hzero
    rw [hdrBytes] at hi
    omega
  · rw [hlen, hr.minLen_eq hraw hf]
    exact Nat.le_max_right _ _
  · omega
  · omega

omit hr in
/-- A priority of three bits is zero when its field is. -/
theorem pcp_eq_zero_iff (hf : f.Parsed) :
    f.l2.pcp = 0 ↔ (0x0#4 : BitVec 4) = f.l2.pcp.setWidth 3 ++ 0#1 := by
  have hlt : f.l2.pcp.toNat ≤ 7 := hf.pcp
  constructor
  · intro h
    rw [h]
    rfl
  · intro h
    have hnat := congrArg BitVec.toNat h
    rw [BitVec.toNat_append, BitVec.toNat_setWidth] at hnat
    apply BitVec.eq_of_toNat_eq
    simp [Nat.shiftLeft_eq] at hnat ⊢
    omega

omit hr in
/-- **A frame of the flow carries the flow's header fields exactly when the tag
is not asked for a priority.** -/
theorem Sent.carries_iff {frame : List Byte} (H : Sent f seq frame) (hf : f.Parsed) :
    Carries f seq frame ↔ (f.l2.vlanSet = true → f.l2.pcp = 0) := by
  constructor
  · intro hc hv
    have hwire := (hc.tag hv).2
    rw [(H.tag hv).2, append_eq_append_iff] at hwire
    exact (pcp_eq_zero_iff hf).mpr hwire.1
  · intro hpcp
    refine ⟨H.dstMac, H.srcMac, ?_, H.ethertype, H.outer, H.tunnel, H.ip, H.l4, H.fits⟩
    intro hv
    rw [← (pcp_eq_zero_iff hf).mp (hpcp hv)]
    exact H.tag hv

end Frame

/-- What the parser leaves in every flow of a configuration. -/
def PwConfig.Parsed (cfg : PwConfig) : Prop := ∀ f ∈ cfg.flows, f.Parsed

theorem PwFlow.Parsed.singleton {f : PwFlow} (hf : f.Parsed) {cfg : PwConfig}
    (hcfg : cfg.flows = [f]) : cfg.Parsed := by
  intro g hg
  rw [hcfg, List.mem_singleton] at hg
  rwa [hg]

theorem parsed_sampleHeaderConfig : sampleHeaderConfig.Parsed := by
  intro f hf
  simp only [sampleHeaderConfig, List.mem_cons, List.not_mem_nil, or_false] at hf
  rcases hf with rfl | rfl <;> exact parsed_sampleHeaderFlow _ _

/-- The row that a flow of a compiled configuration is sent from. -/
theorem exists_rowOf_of_compile {cfg : PwConfig} {p : PwProgram} (hcfg : cfg.Parsed)
    (h : pwFlowCompile cfg = .ok p) {i : ℕ} {f : PwFlow} (hf : cfg.flows[i]? = some f) :
    f.Parsed ∧ (f.traffic.frameTemplate ≠ .test → f.encap.present = false) ∧
      ∃ m row, p.flowMeta[i]? = some m ∧ p.txRowOf m = some row ∧
        RowOf f (pwDecodeFlowRow row.byte) := by
  obtain ⟨m, egress, same, hm, hrow⟩ := exists_txRow_of_compile h hf
  have hmem : f ∈ cfg.flows := List.mem_of_getElem? hf
  have hvalid := (pwFlowCompile_spec h).1.flow f hmem
  refine ⟨hcfg f hmem, fun ht => (hvalid.raw ht).2.2, m, _, hm, hrow, ?_⟩
  rw [PwfpgaFlowConfig.decode_byte]
  exact rowOf_txRow (hcfg f hmem) egress m.txLocalFlowId same

/-- **Every configured header field reaches the wire, but for the priority.**
In a configuration that is parsed and compiles, the frames that the generator
builds from a flow's row carry the flow's header fields, for every sequence
number, time stamp and length of the sweep, exactly when the flow is untagged or
its priority is 0. -/
theorem configured_fields_on_wire_iff {cfg : PwConfig} {p : PwProgram} (hcfg : cfg.Parsed)
    (h : pwFlowCompile cfg = .ok p) {i : ℕ} {f : PwFlow} (hf : cfg.flows[i]? = some f) :
    ∃ m row, p.flowMeta[i]? = some m ∧ p.txRowOf m = some row ∧
      ∀ (seq ts : BitVec 64) (cur : BitVec 16),
        Carries f seq (genFrame (pwDecodeFlowRow row.byte) seq ts cur) ↔
          (f.l2.vlanSet = true → f.l2.pcp = 0) := by
  obtain ⟨hparsed, hraw, m, row, hm, hrow, hr⟩ := exists_rowOf_of_compile hcfg h hf
  refine ⟨m, row, hm, hrow, ?_⟩
  intro seq ts cur
  exact (sent_genFrame hr hparsed hraw cur).carries_iff hparsed

theorem configured_fields_on_wire_sample :
    ∃ p m row, pwFlowCompile sampleHeaderConfig = .ok p ∧ p.flowMeta[0]? = some m ∧
      p.txRowOf m = some row ∧ ∀ (seq ts : BitVec 64) (cur : BitVec 16),
        Carries (sampleHeaderFlow 1 0x0A000002) seq
          (genFrame (pwDecodeFlowRow row.byte) seq ts cur) := by
  obtain ⟨p, hp, -⟩ := exists_of_okAnd
    (show okAnd (pwFlowCompile sampleHeaderConfig) (fun _ => true) = true by decide +kernel)
  obtain ⟨m, row, hm, hrow, hwire⟩ := configured_fields_on_wire_iff parsed_sampleHeaderConfig hp
    (i := 0) (f := sampleHeaderFlow 1 0x0A000002) rfl
  exact ⟨p, m, row, hp, hm, hrow, fun seq ts cur => (hwire seq ts cur).mpr (by decide)⟩

/-- A sample flow with VLAN 100 and priority 5. -/
def sampleTaggedFlow : PwFlow :=
  { sampleHeaderFlow 1 0x0A000002 with
    l2 := { srcMac := 0x020000000001, dstMac := 0x020000000002, vlanSet := true, vlan := 100
            pcp := 5 } }

/-- A configuration with that flow alone. -/
def sampleTaggedConfig : PwConfig := { cards := [sampleCard], flows := [sampleTaggedFlow] }

theorem parsed_sampleTaggedFlow : sampleTaggedFlow.Parsed := by
  constructor <;>
    simp [sampleTaggedFlow, sampleHeaderFlow, PwFlowTraffic.lenLo, PwFlowTraffic.lenHi]

theorem parsed_sampleTaggedConfig : sampleTaggedConfig.Parsed :=
  parsed_sampleTaggedFlow.singleton rfl

/-- **The priority is lost.**  A flow with VLAN 100 and priority 5 is sent with
priority 0. -/
theorem priority_not_sent :
    sampleTaggedConfig.Parsed ∧ ∃ p m row, pwFlowCompile sampleTaggedConfig = .ok p ∧
      p.flowMeta[0]? = some m ∧ p.txRowOf m = some row ∧
      be16 (frameByte (genFrame (pwDecodeFlowRow row.byte) 0 0 0)) 14 = 100 ∧
      ¬Carries sampleTaggedFlow 0 (genFrame (pwDecodeFlowRow row.byte) 0 0 0) := by
  have hflow := parsed_sampleTaggedFlow
  obtain ⟨p, hp, -⟩ := exists_of_okAnd
    (show okAnd (pwFlowCompile sampleTaggedConfig) (fun _ => true) = true by decide +kernel)
  obtain ⟨m, egress, same, hm, hrow⟩ := exists_txRow_of_compile hp
    (i := 0) (f := sampleTaggedFlow) rfl
  have hsent : Sent sampleTaggedFlow 0 (genFrame _ 0 0 0) :=
    sent_genFrame (rowOf_txRow hflow egress m.txLocalFlowId same) hflow (fun _ => rfl) 0
  refine ⟨parsed_sampleTaggedConfig, p, m, _, hp, hm, hrow, ?_, ?_⟩ <;>
    rw [PwfpgaFlowConfig.decode_byte]
  · exact (hsent.tag rfl).2
  · rw [hsent.carries_iff hflow]
    decide

end PacketWyrm
