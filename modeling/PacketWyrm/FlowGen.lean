import PacketWyrm.AxisPkg

/-!
# The frame builder of the flow generator

`pw_flow_gen_multi`: from the decoded row of a flow and the flow's sequence
number, the modified header fields and checksums are computed, and the headers
are laid out one after the other.  The builder writes them into a cleared buffer
at a running offset, so they are modelled as lists put end to end; what is left
of the frame up to its length is sent as zeros.

## Main definitions

* `mod16`, `mod32`, `mod48`, `mod128` — the field modifiers.
* `precompute` — modified fields and checksums.
* `build` — the headers and the length of the frame.
* `genFrame` — the frame of a row, for a sequence number, a time stamp and the
  current length of the sweep.

## Main results

* `length_layers` — the headers are as long as `pw_frame_bytes` says.
* `length_genFrame` — the length of a frame.
* `holds_genFrame` — the headers stand in the frame one after the other.
-/

namespace PacketWyrm

open Lib

/-! ## Field modifiers -/

/-- `scramble`: one step of a 32-bit xorshift. -/
def scramble (x : BitVec 32) : BitVec 32 :=
  let v := x ^^^ (x <<< 13)
  let v := v ^^^ (v >>> 17)
  v ^^^ (v <<< 5)

/-- The field with its masked bits taken from `rot`, unless the mode is static. -/
def blend {n : ℕ} (mode : BitVec 2) (base mask rot : BitVec n) : BitVec n :=
  if mode = 0#2 then base else (base &&& ~~~mask) ||| (rot &&& mask)

/-- `mod32`. -/
def mod32 (mode : BitVec 2) (base mask : BitVec 32) (seq : BitVec 64) : BitVec 32 :=
  blend mode base mask (if mode = 2#2 then scramble (seq.setWidth 32) else seq.setWidth 32)

/-- `mod16`. -/
def mod16 (mode : BitVec 2) (base mask : BitVec 16) (seq : BitVec 64) : BitVec 16 :=
  blend mode base mask
    (if mode = 2#2 then (scramble (seq.setWidth 32) >>> 3).setWidth 16 else seq.setWidth 16)

/-- `mod48`. -/
def mod48 (mode : BitVec 2) (base mask : BitVec 48) (seq : BitVec 64) : BitVec 48 :=
  let rnd := scramble (seq.extractLsb' 32 32) ++ scramble (seq.setWidth 32)
  blend mode base mask (if mode = 2#2 then rnd.setWidth 48 else seq.setWidth 48)

/-- `lsalt`: what a lane of an address adds to the random stream. -/
def laneSalt : ℕ → BitVec 32
  | 0 => 0
  | 1 => 0x9E3779B1
  | 2 => 0x85EBCA77
  | _ => 0xC2B2AE3D

/-- `loff`: where a lane of an address starts counting. -/
def laneOff : ℕ → BitVec 32
  | 0 => 0
  | 1 => 0x10000000
  | 2 => 0x20000000
  | _ => 0x30000000

/-- The 128 bits that an address modifier draws from, 32 bits a lane. -/
def rot128 (mode : BitVec 2) (seq : BitVec 64) (fieldSalt : BitVec 32) : BitVec 128 :=
  let rot (l : ℕ) : BitVec 32 :=
    if mode = 2#2 then scramble (seq.setWidth 32 ^^^ fieldSalt ^^^ laneSalt l)
    else seq.setWidth 32 + laneOff l
  rot 3 ++ rot 2 ++ rot 1 ++ rot 0

/-- `mod128`: the lanes are blended side by side. -/
def mod128 (mode : BitVec 2) (base mask : BitVec 128) (seq : BitVec 64)
    (fieldSalt : BitVec 32) : BitVec 128 :=
  blend mode base mask (rot128 mode seq fieldSalt)

/-- `SALT_SIP`. -/
def saltSip : BitVec 32 := 0

/-- `SALT_DIP`. -/
def saltDip : BitVec 32 := 0x5A5A5A5A

/-! ## Checksums -/

/-- One end-around carry of a 32-bit sum. -/
def carry32 (s : BitVec 32) : BitVec 32 :=
  (s.extractLsb' 16 16).setWidth 32 + (s.setWidth 16).setWidth 32

/-- `ip_csum16`: the checksum of an IPv4 header without options. -/
def ipCsum16 (tot : BitVec 16) (sip dip : BitVec 32) (dscp ttl proto : Byte) : BitVec 16 :=
  let s : BitVec 32 :=
    (0#16 ++ 0x45#8 ++ dscp.setWidth 6 ++ 0#2) + (0#16 ++ tot) + 0x4000 + (0#16 ++ ttl ++ proto) +
      (0#16 ++ sip.extractLsb' 16 16) + (0#16 ++ sip.setWidth 16) +
      (0#16 ++ dip.extractLsb' 16 16) + (0#16 ++ dip.setWidth 16)
  ~~~((carry32 (carry32 s)).setWidth 16)

/-- `ip_csum16_o`: the same over the outer header. -/
def ipCsum16O (tot : BitVec 16) (sip dip : BitVec 32) (dscp ttl proto : Byte) : BitVec 16 :=
  ipCsum16 tot sip dip dscp ttl proto

/-- `l4_psum_a`: the addresses of the pseudo header. -/
def l4PsumA (isV6 : Bool) (sip dip : BitVec 32) (v6src v6dst : BitVec 128) : BitVec 24 :=
  if isV6 then
    let add (s : BitVec 24) (a : BitVec 128) : BitVec 24 :=
      (List.range 8).foldl (fun s w => s + (a.extractLsb' (w * 16) 16).setWidth 24) s
    add (add 0 v6src) v6dst
  else
    (sip.extractLsb' 16 16).setWidth 24 + (sip.setWidth 16).setWidth 24 +
      (dip.extractLsb' 16 16).setWidth 24 + (dip.setWidth 16).setWidth 24

/-- `l4_psum_b`: protocol and length, the L4 header, and the test header up to
the time stamp. -/
def l4PsumB (isTcp : Bool) (sport dport l4Len : BitVec 16) (flowId : BitVec 32) (seq : BitVec 64)
    (tcpFlags : Byte) (addTest : Bool) : BitVec 24 :=
  let s := l4Len.setWidth 24 + (if isTcp then 6 else 17) + sport.setWidth 24 + dport.setWidth 24
  let s :=
    if isTcp then
      s + ((seq.extractLsb' 16 16).setWidth 24 + (seq.setWidth 16).setWidth 24 +
        (0x5000#16 ||| tcpFlags.setWidth 16).setWidth 24 + 0x00FFFF)
    else s + l4Len.setWidth 24
  if addTest then
    s + ((testHdrMagic.extractLsb' 16 16).setWidth 24 + (testHdrMagic.setWidth 16).setWidth 24 +
      0x000001 + (flowId.extractLsb' 16 16).setWidth 24 + (flowId.setWidth 16).setWidth 24 +
      (seq.extractLsb' 48 16).setWidth 24 + (seq.extractLsb' 32 16).setWidth 24 +
      (seq.extractLsb' 16 16).setWidth 24 + (seq.setWidth 16).setWidth 24)
  else s

/-- `l4_fold`: both half sums, folded and complemented. -/
def l4Fold (psa psb : BitVec 24) : BitVec 16 :=
  let s : BitVec 25 := psa.setWidth 25 + psb.setWidth 25
  let s : BitVec 25 := (s.setWidth 16).setWidth 25 + (s.extractLsb' 16 9).setWidth 25
  let s : BitVec 25 := (s.setWidth 16).setWidth 25 + (s.extractLsb' 16 9).setWidth 25
  ~~~(s.setWidth 16)

/-! ## Precomputed fields -/

/-- `encap_hdr_len`. -/
def encapHdrLen (et : BitVec 2) : ℕ := if et = 2#2 then 4 else if et = 3#2 then 16 else 0

/-- `encap_proto`. -/
def encapProto (et : BitVec 2) (innerV6 : Bool) : Byte :=
  if et = 1#2 then (if innerV6 then 41#8 else 4#8) else if et = 2#2 then 47#8 else if et = 3#2 then 97#8
  else 17#8

/-- Length of the inner IP header. -/
def PwFlowRow.ipHl (r : PwFlowRow) : ℕ := if r.isV6 then 40 else 20

/-- `l4hl`: length of the L4 header. -/
def PwFlowRow.l4Hl (r : PwFlowRow) : ℕ := if r.l4Proto = 6#8 then 20 else 8

/-- `l4proto`: the protocol byte of the inner IP header. -/
def PwFlowRow.l4ProtoByte (r : PwFlowRow) : Byte := if r.l4Proto = 6#8 then 6#8 else 17#8

/-- The registers of the precompute stage. -/
structure GenFields where
  sip : BitVec 32
  dip : BitVec 32
  v6src : BitVec 128
  v6dst : BitVec 128
  smac : BitVec 48
  dmac : BitVec 48
  vlan : BitVec 12
  sp : BitVec 16
  dp : BitVec 16
  csum : BitVec 16
  ocsum : BitVec 16
  psa : BitVec 24
  psb : BitVec 24
  deriving DecidableEq, Repr

/-- The precompute stage. -/
def precompute (r : PwFlowRow) (seq : BitVec 64) (payLen : BitVec 12) : GenFields :=
  let sip := mod32 r.sipMod r.srcIpv4 r.sipMask seq
  let dip := mod32 r.dipMod r.dstIpv4 r.dipMask seq
  let v6src := mod128 r.sipMod r.ipv6Src (r.sipMaskHi ++ r.sipMask) seq saltSip
  let v6dst := mod128 r.dipMod r.ipv6Dst (r.dipMaskHi ++ r.dipMask) seq saltDip
  let sp := mod16 r.spMod r.udpSp r.spMask seq
  let dp := mod16 r.dpMod r.udpDp r.dpMask seq
  let ipTot : BitVec 16 :=
    if r.frameTemplate = 2#2 then BitVec.ofNat 16 (20 + payLen.toNat)
    else BitVec.ofNat 16 (20 + r.l4Hl + payLen.toNat)
  let outerTot : BitVec 16 :=
    BitVec.ofNat 16 (20 + encapHdrLen r.encapType + r.ipHl + r.l4Hl + payLen.toNat)
  { sip, dip, v6src, v6dst, sp, dp
    smac := mod48 r.smacMod r.srcMac r.smacMask seq
    dmac := mod48 r.dmacMod r.dstMac r.dmacMask seq
    vlan := (mod16 r.vlanMod (0#4 ++ r.vlanId) r.vlanMask seq).setWidth 12
    csum := ipCsum16 ipTot sip dip r.dscp r.ttl r.l4ProtoByte
    psa := l4PsumA r.isV6 sip dip v6src v6dst
    psb := l4PsumB (r.l4ProtoByte == 6#8) sp dp (BitVec.ofNat 16 (r.l4Hl + payLen.toNat)) r.flowId seq
      r.tcpFlags (r.frameTemplate == 0#2)
    ocsum := ipCsum16O outerTot r.outerSrcIpv4 r.outerDstIpv4 r.outerDscp r.outerTtl
      (encapProto r.encapType r.isV6) }

/-! ## Headers -/

/-- The tag.  Priority and drop eligibility are written as zero. -/
def vlanTag (vlan : BitVec 12) : List Byte :=
  [0x81, 0x00, 0x0#4 ++ vlan.extractLsb' 8 4, vlan.setWidth 8]

/-- A 40-byte IPv6 header with flow label 0. -/
def ipv6Header (dscp : Byte) (plen : ℕ) (next hop : Byte) (src dst : BitVec 128) : List Byte :=
  let tos : Byte := dscp.setWidth 6 ++ 0#2
  [0x6#4 ++ tos.extractLsb' 4 4, tos.setWidth 4 ++ 0x0#4, 0x00, 0x00] ++
    beBytes 2 (BitVec.ofNat 16 plen) ++ [next, hop] ++ beBytes 16 src ++ beBytes 16 dst

/-- A 20-byte IPv4 header, not to be fragmented. -/
def ipv4Header (dscp : Byte) (tot : ℕ) (ttl proto : Byte) (csum : BitVec 16)
    (src dst : BitVec 32) : List Byte :=
  [0x45, dscp.setWidth 6 ++ 0#2] ++ beBytes 2 (BitVec.ofNat 16 tot) ++
    [0x00, 0x00, 0x40, 0x00, ttl, proto] ++ beBytes 2 csum ++ beBytes 4 src ++ beBytes 4 dst

section Headers

variable (r : PwFlowRow) (seq ts : BitVec 64) (g : GenFields) (payLen : BitVec 12)

/-- `inner_et`. -/
def PwFlowRow.innerEt : BitVec 16 := if r.isV6 then 0x86DD#16 else 0x0800#16

/-- `et_out`: the EtherType of a frame without a tunnel. -/
def PwFlowRow.etOut : BitVec 16 :=
  if r.frameTemplate = 3#2 ∧ r.l2Ethertype ≠ 0#16 then r.l2Ethertype else r.innerEt

/-- The addresses and the tag. -/
def ethLayer : List Byte :=
  beBytes 6 g.dmac ++ beBytes 6 g.smac ++ (if r.vlanEn then vlanTag g.vlan else [])

/-- The outer IP header of a tunnel, with its EtherType. -/
def outerHeader : List Byte :=
  let oProto := encapProto r.encapType r.isV6
  let oPl := encapHdrLen r.encapType + r.ipHl + r.l4Hl + payLen.toNat
  if r.outerV6 then
    beBytes 2 0x86DD#16 ++
      ipv6Header r.outerDscp oPl oProto r.outerTtl r.outerIpv6Src r.outerIpv6Dst
  else
    beBytes 2 0x0800#16 ++
      ipv4Header r.outerDscp (20 + oPl) r.outerTtl oProto g.ocsum r.outerSrcIpv4 r.outerDstIpv4

/-- GRE, or EtherIP with the inner Ethernet header; nothing for IP in IP. -/
def tunnelHeader : List Byte :=
  if r.encapType = 2#2 then [0x00, 0x00] ++ beBytes 2 r.innerEt
  else if r.encapType = 3#2 then
    [0x30, 0x00] ++ beBytes 6 r.innerDstMac ++ beBytes 6 r.innerSrcMac ++ beBytes 2 r.innerEt
  else []

/-- What stands between the addresses and the inner IP header. -/
def linkLayer : List Byte :=
  if r.encapType ≠ 0#2 then outerHeader r g payLen ++ tunnelHeader r else beBytes 2 r.etOut

/-- The inner IP header; without an L4 header it carries the payload alone. -/
def ipLayer : List Byte :=
  let ipPl := if r.frameTemplate = 2#2 then payLen.toNat else r.l4Hl + payLen.toNat
  if r.isV6 then ipv6Header r.dscp ipPl r.l4ProtoByte r.ttl g.v6src g.v6dst
  else ipv4Header r.dscp (20 + ipPl) r.ttl r.l4ProtoByte g.csum g.sip g.dip

/-- The L4 header.  A UDP checksum is sent over IPv6 only. -/
def l4Layer : List Byte :=
  let ucsum := l4Fold g.psa g.psb
  beBytes 2 g.sp ++ beBytes 2 g.dp ++
    (if r.l4Proto = 6#8 then
      beBytes 4 (seq.setWidth 32) ++ [0x00, 0x00, 0x00, 0x00] ++ [0x50, r.tcpFlags, 0xFF, 0xFF] ++
        beBytes 2 ucsum ++ [0x00, 0x00]
    else
      beBytes 2 (BitVec.ofNat 16 (r.l4Hl + payLen.toNat)) ++
        (if r.isV6 then beBytes 2 ucsum else [0x00, 0x00]))

/-- The test header; its last four bytes are left as cleared. -/
def testHeader : List Byte :=
  beBytes 4 testHdrMagic ++ [0x00, 0x01, 0x00, 0x00] ++ beBytes 4 r.flowId ++ beBytes 8 seq ++
    beBytes 8 ts ++ [0x00, 0x00, 0x00, 0x00]

/-- The headers that the template has, without the test header. -/
def layers : List Byte :=
  let l2 := ethLayer r g ++ linkLayer r g payLen
  if r.frameTemplate = 3#2 then l2
  else if r.frameTemplate = 2#2 then l2 ++ ipLayer r g payLen
  else l2 ++ ipLayer r g payLen ++ l4Layer r seq g payLen

/-- A frame in the buffer: the headers, and the length it is sent with. -/
structure BuiltFrame where
  header : List Byte
  frameLen : BitVec 12

/-- `build`. -/
def build : BuiltFrame :=
  let off := layers r seq g payLen
  { header := if r.frameTemplate = 0#2 then off ++ testHeader r seq ts else off
    frameLen := BitVec.ofNat 12 (off.length + payLen.toNat) }

end Headers

/-- The bytes sent: those of the buffer, then zeros up to the length. -/
def BuiltFrame.bytes (b : BuiltFrame) : List Byte :=
  (List.range b.frameLen.toNat).map fun i => b.header.getD i 0

/-! ## Length -/

/-- `eff_len_a`: the length of the sweep, or its minimum when outside. -/
def effLen (lenMin lenMax cur : BitVec 16) : BitVec 16 :=
  if cur < lenMin ∨ lenMax < cur then lenMin else cur

/-- `floor_pk`: the test header is part of the payload. -/
def payFloor (tmpl : BitVec 2) : BitVec 12 := if tmpl = 0#2 then 32#12 else 0#12

/-- `paylen_a`: what the headers leave of the length. -/
def payLenOf (tmpl : BitVec 2) (ovh : BitVec 12) (eff : BitVec 16) : BitVec 12 :=
  if ovh.setWidth 16 + (payFloor tmpl).setWidth 16 < eff then (eff - ovh.setWidth 16).setWidth 12
  else payFloor tmpl

/-- The payload length of a row's next frame, through its scheduling descriptor. -/
def PwFlowRow.payLen (r : PwFlowRow) (cur : BitVec 16) : BitVec 12 :=
  payLenOf r.frameTemplate (BitVec.ofNat 12 (pwFrameBytes r 0))
    (effLen r.frameLenMin r.frameLenMax cur)

/-- The frame of a row. -/
def genFrame (r : PwFlowRow) (seq ts : BitVec 64) (cur : BitVec 16) : List Byte :=
  (build r seq ts (precompute r seq (r.payLen cur)) (r.payLen cur)).bytes

/-! ## Lengths of the headers -/

@[simp] theorem length_beBytes {n : ℕ} (k : ℕ) (x : BitVec n) : (beBytes k x).length = k := by
  simp [beBytes]

@[simp] theorem length_vlanTag (vlan : BitVec 12) : (vlanTag vlan).length = 4 := rfl

@[simp] theorem length_ipv6Header (dscp : Byte) (plen : ℕ) (next hop : Byte) (src dst : BitVec 128) :
    (ipv6Header dscp plen next hop src dst).length = 40 := by
  simp [ipv6Header]

@[simp] theorem length_ipv4Header (dscp : Byte) (tot : ℕ) (ttl proto : Byte) (csum : BitVec 16)
    (src dst : BitVec 32) : (ipv4Header dscp tot ttl proto csum src dst).length = 20 := by
  simp [ipv4Header]

section Length

variable (r : PwFlowRow) (seq ts : BitVec 64) (g : GenFields) (payLen : BitVec 12)

theorem length_ethLayer : (ethLayer r g).length = 12 + (if r.vlanEn then 4 else 0) := by
  simp only [ethLayer, List.length_append, length_beBytes]
  split <;> simp

theorem length_outerHeader :
    (outerHeader r g payLen).length = 2 + (if r.outerV6 then 40 else 20) := by
  simp only [outerHeader]
  split <;> simp

theorem length_tunnelHeader : (tunnelHeader r).length = encapHdrLen r.encapType := by
  simp only [tunnelHeader, encapHdrLen]
  split
  · simp
  · split <;> simp

theorem length_linkLayer :
    (linkLayer r g payLen).length =
      2 + if r.encapType = 0#2 then 0
        else (if r.outerV6 then 40 else 20) + encapHdrLen r.encapType := by
  by_cases h : r.encapType = 0#2
  · simp [linkLayer, h]
  · rw [linkLayer, if_pos h, if_neg h, List.length_append, length_outerHeader,
      length_tunnelHeader, Nat.add_assoc]

theorem length_ipLayer : (ipLayer r g payLen).length = r.ipHl := by
  simp only [ipLayer, PwFlowRow.ipHl]
  split <;> simp

theorem length_l4Layer : (l4Layer r seq g payLen).length = r.l4Hl := by
  simp only [l4Layer, PwFlowRow.l4Hl]
  split
  · simp
  · split <;> simp

@[simp] theorem length_testHeader : (testHeader r seq ts).length = 32 := by
  simp [testHeader]

/-- A row of a raw L2 or L3 frame has no tunnel. -/
def PwFlowRow.RawPlain : Prop := r.frameTemplate = 2#2 ∨ r.frameTemplate = 3#2 → r.encapType = 0#2

/-- **The headers are as long as `pw_frame_bytes` says.** -/
theorem length_layers (hraw : r.RawPlain) :
    (layers r seq g payLen).length = pwFrameBytes r 0 := by
  have hlink := length_linkLayer r g payLen
  have heth := length_ethLayer r g
  simp only [layers, pwFrameBytes]
  by_cases h3 : r.frameTemplate = 3#2
  · rw [hraw (Or.inr h3), if_pos rfl] at hlink
    rw [if_pos h3, if_pos h3, List.length_append]
    omega
  · by_cases h2 : r.frameTemplate = 2#2
    · rw [hraw (Or.inl h2), if_pos rfl] at hlink
      rw [if_neg h3, if_neg h3, if_pos h2, if_pos h2, List.length_append, List.length_append,
        length_ipLayer, PwFlowRow.ipHl]
      omega
    · rw [if_neg h3, if_neg h3, if_neg h2, if_neg h2, List.length_append, List.length_append,
        List.length_append, length_ipLayer, length_l4Layer, PwFlowRow.ipHl, PwFlowRow.l4Hl]
      by_cases h0 : r.encapType = 0#2
      · rw [if_pos h0] at hlink ⊢
        omega
      · rw [if_neg h0, encapHdrLen] at hlink
        rw [if_neg h0]
        omega

/-- The longest headers are those of an EtherIP tunnel over IPv6, with TCP over
IPv6 in a tagged frame. -/
theorem pwFrameBytes_le : pwFrameBytes r 0 ≤ 134 := by
  simp only [pwFrameBytes]
  split_ifs <;> omega

end Length

/-! ## The frame on the wire -/

section Frame

variable {r : PwFlowRow} {seq ts : BitVec 64} {cur : BitVec 16}

/-- The smallest frame of a row. -/
def PwFlowRow.minLen (r : PwFlowRow) : ℕ := pwFrameBytes r 0 + (payFloor r.frameTemplate).toNat

theorem payFloor_toNat_le (tmpl : BitVec 2) : (payFloor tmpl).toNat ≤ 32 := by
  rw [payFloor]
  split <;> decide

/-- Payload and headers make up the length, or the smallest frame. -/
theorem payLen_add (heff : (effLen r.frameLenMin r.frameLenMax cur).toNat < 4096) :
    pwFrameBytes r 0 + (r.payLen cur).toNat =
      max (effLen r.frameLenMin r.frameLenMax cur).toNat r.minLen := by
  have hovh := pwFrameBytes_le r
  have hfloor := payFloor_toNat_le r.frameTemplate
  rw [PwFlowRow.payLen, payLenOf, PwFlowRow.minLen]
  generalize effLen r.frameLenMin r.frameLenMax cur = eff at heff ⊢
  generalize payFloor r.frameTemplate = floor at hfloor ⊢
  generalize pwFrameBytes r 0 = ovh at hovh ⊢
  have hovh16 : ((BitVec.ofNat 12 ovh).setWidth 16).toNat = ovh := by
    rw [BitVec.toNat_setWidth, BitVec.toNat_ofNat]
    omega
  have hsum : ((BitVec.ofNat 12 ovh).setWidth 16 + floor.setWidth 16).toNat = ovh + floor.toNat := by
    rw [BitVec.toNat_add, hovh16, BitVec.toNat_setWidth]
    omega
  split
  · rename_i hlt
    rw [BitVec.lt_def, hsum] at hlt
    rw [BitVec.toNat_setWidth, BitVec.toNat_sub, hovh16]
    omega
  · rename_i hlt
    rw [BitVec.lt_def, hsum] at hlt
    omega

/-- **The length of a frame** is that of the sweep, and at least the smallest
frame of the row. -/
theorem length_genFrame (hraw : r.RawPlain)
    (heff : (effLen r.frameLenMin r.frameLenMax cur).toNat < 4096) :
    (genFrame r seq ts cur).length =
      max (effLen r.frameLenMin r.frameLenMax cur).toNat r.minLen := by
  have hovh := pwFrameBytes_le r
  have hfloor := payFloor_toNat_le r.frameTemplate
  have hsum := payLen_add (r := r) heff
  rw [genFrame, BuiltFrame.bytes, List.length_map, List.length_range, build,
    length_layers _ _ _ _ hraw, BitVec.toNat_ofNat, hsum, PwFlowRow.minLen]
  omega

/-- The headers, with the test header, are the smallest frame. -/
theorem length_header (hraw : r.RawPlain) {g : GenFields} {payLen : BitVec 12} :
    (build r seq ts g payLen).header.length = r.minLen := by
  rw [build, PwFlowRow.minLen, payFloor]
  by_cases h0 : r.frameTemplate = 0#2
  · rw [if_pos h0, if_pos h0, List.length_append, length_layers _ _ _ _ hraw, length_testHeader]
    rfl
  · rw [if_neg h0, if_neg h0, length_layers _ _ _ _ hraw]
    rfl

/-- Byte `i` of a frame, and zero after its end. -/
def frameByte (frame : List Byte) : Window := fun i => frame.getD i 0

/-- Byte `i` of a frame is that of its headers, or zero. -/
theorem frameByte_genFrame (hraw : r.RawPlain)
    (heff : (effLen r.frameLenMin r.frameLenMax cur).toNat < 4096) (i : ℕ) :
    frameByte (genFrame r seq ts cur) i =
      (build r seq ts (precompute r seq (r.payLen cur)) (r.payLen cur)).header.getD i 0 := by
  have hle : r.minLen ≤ (genFrame r seq ts cur).length := by
    rw [length_genFrame hraw heff]
    exact Nat.le_max_right _ _
  rw [frameByte]
  by_cases hi : i < (genFrame r seq ts cur).length
  · rw [List.getD_eq_getElem?_getD, List.getElem?_eq_getElem hi]
    simp [genFrame, BuiltFrame.bytes]
  · rw [List.getD_eq_getElem?_getD, List.getD_eq_getElem?_getD,
      List.getElem?_eq_none (by omega), List.getElem?_eq_none]
    rw [length_header hraw]
    omega

/-- **The headers stand in the frame one after the other.** -/
theorem holds_genFrame (hraw : r.RawPlain)
    (heff : (effLen r.frameLenMin r.frameLenMax cur).toNat < 4096) :
    Holds (frameByte (genFrame r seq ts cur)) 0
      (build r seq ts (precompute r seq (r.payLen cur)) (r.payLen cur)).header := by
  refine (holds_getD _ 0).congr ?_
  intro i _ _
  exact frameByte_genFrame hraw heff i

/-- Where the EtherType of a row's frames stands. -/
def PwFlowRow.etOff (r : PwFlowRow) : ℕ := 12 + if r.vlanEn then 4 else 0

/-- Where the tunnel header stands. -/
def PwFlowRow.tunnelOff (r : PwFlowRow) : ℕ := r.etOff + 2 + if r.outerV6 then 40 else 20

/-- Where the inner IP header stands. -/
def PwFlowRow.ipOff (r : PwFlowRow) : ℕ :=
  if r.encapType = 0#2 then r.etOff + 2 else r.tunnelOff + encapHdrLen r.encapType

/-- Where the L4 header stands. -/
def PwFlowRow.l4Off (r : PwFlowRow) : ℕ := r.ipOff + r.ipHl

theorem etOff_add_length_linkLayer (r : PwFlowRow) (g : GenFields) (payLen : BitVec 12) :
    r.etOff + (linkLayer r g payLen).length = r.ipOff := by
  rw [length_linkLayer, PwFlowRow.ipOff, PwFlowRow.tunnelOff]
  split <;> omega

/-- A window that holds the headers of a row. -/
structure HoldsHeaders (w : Window) (r : PwFlowRow) (seq ts : BitVec 64) (g : GenFields)
    (payLen : BitVec 12) : Prop where
  eth : Holds w 0 (ethLayer r g)
  link : Holds w r.etOff (linkLayer r g payLen)
  ip : r.frameTemplate ≠ 3#2 → Holds w r.ipOff (ipLayer r g payLen)
  l4 : r.frameTemplate ≠ 3#2 → r.frameTemplate ≠ 2#2 → Holds w r.l4Off (l4Layer r seq g payLen)
  test : r.frameTemplate = 0#2 → Holds w (r.l4Off + r.l4Hl) (testHeader r seq ts)

theorem holdsHeaders_of_holds {w : Window} {g : GenFields} {payLen : BitVec 12}
    (h : Holds w 0 (build r seq ts g payLen).header) : HoldsHeaders w r seq ts g payLen := by
  have heth : 0 + (ethLayer r g).length = r.etOff := by
    rw [length_ethLayer, PwFlowRow.etOff, Nat.zero_add]
  have hlink := etOff_add_length_linkLayer r g payLen
  have hip : r.ipOff + (ipLayer r g payLen).length = r.l4Off := by
    rw [length_ipLayer, PwFlowRow.l4Off]
  have hl4 : r.l4Off + (l4Layer r seq g payLen).length = r.l4Off + r.l4Hl := by
    rw [length_l4Layer]
  rw [build] at h
  by_cases h3 : r.frameTemplate = 3#2
  · simp only [layers, h3, holds_append, heth, reduceIte, BitVec.reduceEq] at h
    exact ⟨h.1, h.2, fun hn => absurd h3 hn, fun hn => absurd h3 hn, by simp [h3]⟩
  · by_cases h2 : r.frameTemplate = 2#2
    · simp only [layers, h2, holds_append, List.length_append, ← Nat.add_assoc, heth, hlink,
        reduceIte, BitVec.reduceEq] at h
      exact ⟨h.1.1, h.1.2, fun _ => h.2, fun _ hn => absurd h2 hn, by simp [h2]⟩
    · by_cases h0 : r.frameTemplate = 0#2
      · simp only [layers, h0, holds_append, List.length_append, ← Nat.add_assoc, heth, hlink, hip,
          hl4, reduceIte, BitVec.reduceEq] at h
        exact ⟨h.1.1.1.1, h.1.1.1.2, fun _ => h.1.1.2, fun _ _ => h.1.2, fun _ => h.2⟩
      · simp only [layers, h0, h2, h3, holds_append, List.length_append, ← Nat.add_assoc, heth,
          hlink, hip, reduceIte] at h
        exact ⟨h.1.1.1, h.1.1.2, fun _ => h.1.2, fun _ _ => h.2, fun h' => absurd h' h0⟩

/-- **A generated frame holds the headers of its row.** -/
theorem holdsHeaders_genFrame (hraw : r.RawPlain)
    (heff : (effLen r.frameLenMin r.frameLenMax cur).toNat < 4096) :
    HoldsHeaders (frameByte (genFrame r seq ts cur)) r seq ts
      (precompute r seq (r.payLen cur)) (r.payLen cur) :=
  holdsHeaders_of_holds (holds_genFrame hraw heff)

end Frame

/-! ## Reading headers back -/

section Read

variable {w : Window} {o : ℕ}

/-- The fields of an IPv4 header in a window. -/
structure ReadsIpv4 (w : Window) (o : ℕ) (dscp ttl proto : Byte) (src dst : BitVec 32) : Prop where
  version : w o = 0x45#8
  tos : w (o + 1) = dscp.setWidth 6 ++ 0#2
  ttl : w (o + 8) = ttl
  proto : w (o + 9) = proto
  src : be32 w (o + 12) = src
  dst : be32 w (o + 16) = dst

theorem readsIpv4_of_holds {dscp ttl proto : Byte} {tot : ℕ} {csum : BitVec 16}
    {src dst : BitVec 32} (h : Holds w o (ipv4Header dscp tot ttl proto csum src dst)) :
    ReadsIpv4 w o dscp ttl proto src dst := by
  simp only [ipv4Header, holds_append, holds_cons, List.length_append, length_beBytes,
    List.length_cons, List.length_nil, Nat.reduceAdd, Nat.add_assoc] at h
  exact ⟨h.1.1.1.1.1.1, h.1.1.1.1.1.2.1, h.1.1.1.2.2.2.2.2.1, h.1.1.1.2.2.2.2.2.2.1,
    be32_of_holds h.1.2, be32_of_holds h.2⟩

/-- The fields of an IPv6 header in a window. -/
structure ReadsIpv6 (w : Window) (o : ℕ) (dscp hop next : Byte) (src dst : BitVec 128) :
    Prop where
  version : (w o).extractLsb' 4 4 = 6#4
  tc : (w o).setWidth 4 ++ (w (o + 1)).extractLsb' 4 4 = dscp.setWidth 6 ++ 0#2
  next : w (o + 6) = next
  hop : w (o + 7) = hop
  src : be128 w (o + 8) = src
  dst : be128 w (o + 24) = dst

theorem readsIpv6_of_holds {dscp hop next : Byte} {plen : ℕ} {src dst : BitVec 128}
    (h : Holds w o (ipv6Header dscp plen next hop src dst)) :
    ReadsIpv6 w o dscp hop next src dst := by
  simp only [ipv6Header, holds_append, holds_cons, List.length_append, length_beBytes,
    List.length_cons, List.length_nil, Nat.reduceAdd, Nat.add_assoc] at h
  refine ⟨?_, ?_, h.1.1.2.1, h.1.1.2.2.1, be128_of_holds h.1.2, be128_of_holds h.2⟩
  · rw [h.1.1.1.1.1]
    exact BitVec.extractLsb'_append_eq_left
  · rw [h.1.1.1.1.1, h.1.1.1.1.2.1, BitVec.extractLsb'_append_eq_left,
      BitVec.setWidth_append_eq_right, BitVec.setWidth_eq_extractLsb' (by decide)]
    exact (BitVec.extractLsb'_append_extractLsb'_eq_extractLsb' rfl).trans
      BitVec.extractLsb'_eq_self

/-- The ports of an L4 header, and the flags of a TCP one. -/
theorem l4Layer_of_holds {r : PwFlowRow} {seq : BitVec 64} {g : GenFields} {payLen : BitVec 12}
    (h : Holds w o (l4Layer r seq g payLen)) :
    be16 w o = g.sp ∧ be16 w (o + 2) = g.dp ∧ (r.l4Proto = 6#8 → w (o + 13) = r.tcpFlags) := by
  rw [l4Layer, holds_append, holds_append, length_beBytes, List.length_append, length_beBytes,
    length_beBytes] at h
  refine ⟨be16_of_holds h.1.1, be16_of_holds h.1.2, ?_⟩
  intro hp
  have htcp := h.2
  simp only [hp, if_true, holds_append, holds_cons, List.length_append, length_beBytes,
    List.length_cons, List.length_nil, Nat.reduceAdd, Nat.add_assoc] at htcp
  exact htcp.1.1.2.2.1

/-- The addresses, and the tag of a tagged frame. -/
theorem ethLayer_of_holds {r : PwFlowRow} {g : GenFields} (h : Holds w 0 (ethLayer r g)) :
    be48 w 0 = g.dmac ∧ be48 w 6 = g.smac ∧
      (r.vlanEn = true → be16 w 12 = 0x8100#16 ∧ be16 w 14 = 0x0#4 ++ g.vlan) := by
  rw [ethLayer, holds_append, holds_append, length_beBytes, List.length_append, length_beBytes,
    length_beBytes] at h
  refine ⟨be48_of_holds h.1.1, be48_of_holds h.1.2, ?_⟩
  intro hv
  have htag := h.2
  simp only [hv, if_true, vlanTag, holds_cons, Nat.reduceAdd, Nat.zero_add] at htag
  constructor
  · rw [be16, htag.1, htag.2.1]
    rfl
  · rw [be16, htag.2.2.1, htag.2.2.2.1, BitVec.append_assoc]
    have : g.vlan.extractLsb' 8 4 ++ g.vlan.setWidth 8 = g.vlan := by
      rw [BitVec.setWidth_eq_extractLsb' (by decide)]
      exact (BitVec.extractLsb'_append_extractLsb'_eq_extractLsb' rfl).trans
        BitVec.extractLsb'_eq_self
    rw [this]
    rfl

end Read

end PacketWyrm
