import PacketWyrm.Config

/-!
# The transmit row of a flow

`struct pwfpga_flow_config`, the row of the flow table, and the part of
`compile_one_flow` that fills it: addresses and modifiers are copied, the rate
becomes a token rate in Q16.16 bytes per cycle, and the burst a cap in bytes.

## Main definitions

* `PwfpgaFlowConfig` — the row.
* `pwFlowMinLegalFrame` — the shortest frame the generator emits for a flow.
* `txRow` — the row of a flow.
-/

namespace PacketWyrm

/-! ## Codes of the enumerations -/

/-- `enum pwfpga_field_mod`. -/
def PwFieldMode.code : PwFieldMode → Byte
  | .static => 0
  | .increment => 1
  | .random => 2

/-- `enum pwfpga_encap_type`. -/
def PwEncapKind.code : PwEncapKind → Byte
  | .none => 0
  | .ipip => 1
  | .gre => 2
  | .etherip => 3

/-- `enum pwfpga_rx_expect`. -/
def PwRxExpect.code : PwRxExpect → Byte
  | .inner => 0
  | .tunneled => 1

/-- `enum pwfpga_frame_template`. -/
def PwFrameTemplate.code : PwFrameTemplate → Byte
  | .test => 0
  | .l4raw => 1
  | .l3raw => 2
  | .l2raw => 3

/-- `enum pwfpga_payload_mode`. -/
def PwPayloadMode.code : PwPayloadMode → Byte
  | .zero => 0
  | .increment => 1
  | .prbs => 2
  | .random => 3

/-- The byte of a flag. -/
def flagByte (b : Bool) : Byte := if b then 1 else 0

/-! ## The row -/

/-- `struct pwfpga_flow_config`, all-zero by default.  Addresses have byte 0
most significant; `srcIpv6MaskHi` and `dstIpv6MaskHi` are bits 127 to 32 of the
address mask. -/
structure PwfpgaFlowConfig where
  enable : Byte := 0
  egressLocalPort : Byte := 0
  globalFlowId : BitVec 32 := 0
  localFlowId : BitVec 32 := 0
  logicalIfId : BitVec 32 := 0
  dstMac : BitVec 48 := 0
  srcMac : BitVec 48 := 0
  vlanEnable : Byte := 0
  vlanId : BitVec 16 := 0
  pcp : Byte := 0
  ipVersion : Byte := 0
  srcIpv4 : BitVec 32 := 0
  dstIpv4 : BitVec 32 := 0
  dscp : Byte := 0
  ttl : Byte := 0
  udpSrcPort : BitVec 16 := 0
  udpDstPort : BitVec 16 := 0
  frameLenMin : BitVec 16 := 0
  frameLenMax : BitVec 16 := 0
  frameLenStep : BitVec 16 := 0
  rateBps : BitVec 64 := 0
  ratePps : BitVec 64 := 0
  burstSize : BitVec 32 := 0
  burstGapTicks : BitVec 32 := 0
  tokensPerTickFp : BitVec 32 := 0
  burstBytes : BitVec 16 := 0
  payloadMode : Byte := 0
  payloadSeed : BitVec 32 := 0
  insertSequence : Byte := 0
  insertTimestamp : Byte := 0
  txEnable : Byte := 0
  rxCheckEnable : Byte := 0
  srcIpv4Mod : Byte := 0
  srcIpv4Mask : BitVec 32 := 0
  dstIpv4Mod : Byte := 0
  dstIpv4Mask : BitVec 32 := 0
  udpSrcMod : Byte := 0
  udpSrcMask : BitVec 16 := 0
  udpDstMod : Byte := 0
  udpDstMask : BitVec 16 := 0
  ipv6Src : BitVec 128 := 0
  ipv6Dst : BitVec 128 := 0
  srcMacMod : Byte := 0
  srcMacMask : BitVec 48 := 0
  dstMacMod : Byte := 0
  dstMacMask : BitVec 48 := 0
  vlanMod : Byte := 0
  vlanMask : BitVec 16 := 0
  encapType : Byte := 0
  outerIpVersion : Byte := 0
  rxExpect : Byte := 0
  outerTtl : Byte := 0
  outerDscp : Byte := 0
  outerSrcIpv4 : BitVec 32 := 0
  outerDstIpv4 : BitVec 32 := 0
  outerIpv6Src : BitVec 128 := 0
  outerIpv6Dst : BitVec 128 := 0
  innerDstMac : BitVec 48 := 0
  innerSrcMac : BitVec 48 := 0
  srcIpv6MaskHi : BitVec 96 := 0
  dstIpv6MaskHi : BitVec 96 := 0
  l4Proto : Byte := 0
  tcpFlags : Byte := 0
  frameTemplate : Byte := 0
  l2Ethertype : BitVec 16 := 0
  deriving DecidableEq, Repr

/-! ## Lengths, rate and burst -/

/-- `pw_flow_min_legal_frame`: Ethernet, tag, tunnel, inner IP, L4 and the
32-byte test header, as far as the template has them. -/
def pwFlowMinLegalFrame (f : PwFlow) : ℕ :=
  let l := 14 + (if f.l2.vlanSet then 4 else 0)
  let innerIp := if f.ipv6.present then 40 else 20
  match f.traffic.frameTemplate with
  | .l2raw => l
  | .l3raw => l + innerIp
  | t =>
    let outer :=
      if f.encap.present then
        (if f.encap.outerIpv6.present then 40 else 20) +
          (match f.encap.type with
            | .gre => 4
            | .etherip => 16
            | _ => 0)
      else 0
    let l4 := if f.udp.l4Proto = 6 then 20 else 8
    l + outer + innerIp + l4 + (if t = .test then 32 else 0)

/-- `PWFPGA_DATA_PLANE_CLOCK_HZ`. -/
def dataPlaneClockHz : ℕ := 156250000

/-- The rate in bits per second; a packet rate counts the minimum frame, and
saturates at 64 bits. -/
def effRateBps (f : PwFlow) : ℕ :=
  let t := f.traffic
  if t.rateBps = 0 ∧ t.ratePps ≠ 0 then
    let flen := if t.frameLenFixedSet then t.frameLenFixed.toNat else t.frameLenMin.toNat
    let pr := t.ratePps.toNat * max flen (pwFlowMinLegalFrame f) * 8
    min pr (2 ^ 64 - 1)
  else t.rateBps.toNat

/-- Q16.16 bytes per data-plane cycle, clamped to 32 bits. -/
def tokensPerTickFp (f : PwFlow) : BitVec 32 :=
  BitVec.ofNat 32 (min (effRateBps f * 65536 / (dataPlaneClockHz * 8)) 0xFFFFFFFF)

/-- The bucket's cap: `burst_size` frames of the largest length, at least one
frame, clamped to 16 bits. -/
def burstBytes (f : PwFlow) (frameLenMax : BitVec 16) : BitVec 16 :=
  let flen := if frameLenMax = 0 then 1518 else frameLenMax.toNat
  let flen := max flen (pwFlowMinLegalFrame f)
  let bsz := if f.traffic.burstSize = 0 then 1 else f.traffic.burstSize.toNat
  BitVec.ofNat 16 (min (max (bsz * flen) flen) 0xFFFF)

/-! ## Filling the row -/

/-- Lengths of the row: a fixed length is a sweep of one. -/
def PwfpgaFlowConfig.withLengths (row : PwfpgaFlowConfig) (t : PwFlowTraffic) :
    PwfpgaFlowConfig :=
  if t.frameLenFixedSet then
    { row with frameLenMin := t.frameLenFixed, frameLenMax := t.frameLenFixed, frameLenStep := 1 }
  else
    { row with
      frameLenMin := t.frameLenMin
      frameLenMax := t.frameLenMax
      frameLenStep := if t.frameLenStep = 0 then 1 else t.frameLenStep }

/-- The inner addresses, hop limit and DSCP. -/
def PwfpgaFlowConfig.withInnerIp (row : PwfpgaFlowConfig) (f : PwFlow) : PwfpgaFlowConfig :=
  if f.ipv6.present then
    { row with
      ipVersion := 6, ipv6Src := f.ipv6.src, ipv6Dst := f.ipv6.dst
      ttl := f.ipv6.hopLimit, dscp := f.ipv6.dscp }
  else
    { row with
      ipVersion := 4, srcIpv4 := f.ipv4.src, dstIpv4 := f.ipv4.dst
      ttl := f.ipv4.ttl, dscp := f.ipv4.dscp }

/-- The tunnel: outer addresses, and the inner Ethernet addresses, which are
the flow's own unless set. -/
def PwfpgaFlowConfig.withEncap (row : PwfpgaFlowConfig) (f : PwFlow) : PwfpgaFlowConfig :=
  if f.encap.present then
    let row := { row with encapType := f.encap.type.code, rxExpect := f.rxExpect.code }
    let row :=
      if f.encap.outerIpv6.present then
        { row with
          outerIpVersion := 6
          outerIpv6Src := f.encap.outerIpv6.src, outerIpv6Dst := f.encap.outerIpv6.dst
          outerTtl := f.encap.outerIpv6.hopLimit, outerDscp := f.encap.outerIpv6.dscp }
      else
        { row with
          outerIpVersion := 4
          outerSrcIpv4 := f.encap.outerIpv4.src, outerDstIpv4 := f.encap.outerIpv4.dst
          outerTtl := f.encap.outerIpv4.ttl, outerDscp := f.encap.outerIpv4.dscp }
    { row with
      innerSrcMac := if f.encap.innerMacSet then f.encap.innerSrcMac else f.l2.srcMac
      innerDstMac := if f.encap.innerMacSet then f.encap.innerDstMac else f.l2.dstMac }
  else row

/-- The field modifiers.  The high address mask is filled for IPv6 flows only. -/
def PwfpgaFlowConfig.withModifiers (row : PwfpgaFlowConfig) (f : PwFlow) : PwfpgaFlowConfig :=
  { row with
    srcIpv4Mod := f.mod.srcIpv4.mode.code, srcIpv4Mask := f.mod.srcIpv4.mask.setWidth 32
    dstIpv4Mod := f.mod.dstIpv4.mode.code, dstIpv4Mask := f.mod.dstIpv4.mask.setWidth 32
    srcIpv6MaskHi := if f.ipv6.present then f.mod.srcIpv6Mask.extractLsb' 32 96 else 0
    dstIpv6MaskHi := if f.ipv6.present then f.mod.dstIpv6Mask.extractLsb' 32 96 else 0
    udpSrcMod := f.mod.udpSrc.mode.code, udpSrcMask := f.mod.udpSrc.mask.setWidth 16
    udpDstMod := f.mod.udpDst.mode.code, udpDstMask := f.mod.udpDst.mask.setWidth 16
    srcMacMod := f.mod.srcMac.mode.code, srcMacMask := f.mod.srcMac.mask.setWidth 48
    dstMacMod := f.mod.dstMac.mode.code, dstMacMask := f.mod.dstMac.mask.setWidth 48
    vlanMod := f.mod.vlan.mode.code, vlanMask := (f.mod.vlan.mask &&& 0x0FFF).setWidth 16 }

/-- The row of a flow in slot `lfid` of its transmit card. -/
def txRow (f : PwFlow) (egress : BitVec 8) (lfid : BitVec 32) (sameCard : Bool) :
    PwfpgaFlowConfig :=
  let base : PwfpgaFlowConfig :=
    { enable := 1, egressLocalPort := egress, globalFlowId := f.id, localFlowId := lfid
      logicalIfId := f.logicalIfId, srcMac := f.l2.srcMac, dstMac := f.l2.dstMac
      vlanEnable := flagByte f.l2.vlanSet, vlanId := f.l2.vlan, pcp := f.l2.pcp
      udpSrcPort := f.udp.srcPort, udpDstPort := f.udp.dstPort
      l4Proto := if f.udp.l4Proto = 0 then 17 else f.udp.l4Proto, tcpFlags := f.udp.tcpFlags
      frameTemplate := f.traffic.frameTemplate.code, l2Ethertype := f.l2.ethertype
      rateBps := f.traffic.rateBps, ratePps := f.traffic.ratePps
      burstSize := f.traffic.burstSize, burstGapTicks := f.traffic.burstGapTicks
      tokensPerTickFp := tokensPerTickFp f
      payloadMode := f.traffic.payloadMode.code, payloadSeed := f.traffic.payloadSeed
      insertSequence := flagByte f.traffic.insertSequence
      insertTimestamp := flagByte f.traffic.insertTimestamp
      txEnable := 1, rxCheckEnable := flagByte (sameCard && !f.background) }
  let row := (((base.withInnerIp f).withEncap f).withModifiers f).withLengths f.traffic
  { row with burstBytes := burstBytes f row.frameLenMax }

/-- The copy of a cross-card flow's row that goes to its receive card. -/
def rxRow (tx : PwfpgaFlowConfig) (rxPort : BitVec 8) (lfid : BitVec 32) : PwfpgaFlowConfig :=
  { tx with localFlowId := lfid, egressLocalPort := rxPort, txEnable := 0, rxCheckEnable := 1 }

end PacketWyrm
