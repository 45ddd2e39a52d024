import PacketWyrm.FlowGen
import PacketWyrm.TxRows
import PacketWyrm.Lib.OnesComplement

/-!
# The frame preview

`pw_flow_build_preview` builds the frame of a flow in software, from the configuration and not
from the compiled row, so that a user can look at what the generator will send.  Bytes are put
behind each other into a cleared buffer; the time stamp is left zero and the L4 checksum is
taken over the frame without it.

## Main definitions

* `onesCsum` — the checksum routine.
* `pvMod16`, `pvMod32`, `pvMod48`, `pvMod128` — the field modifiers.
* `pwFlowBuildPreview` — the preview of a frame.

## Main results

* `foldCarry_eq` — the checksum loop ends in the one's-complement sum.
-/

namespace PacketWyrm

open Lib

/-! ## Checksums -/

/-- The loop of `ones_csum`: fold until nothing is carried. -/
def foldCarry (sum : ℕ) : ℕ := if sum < 65536 then sum else foldCarry (carry sum)
termination_by sum
decreasing_by
  rw [carry]
  omega

/-- `ones_csum`, with a 32-bit sum. -/
def onesCsum (p : List Byte) (sum : BitVec 32) : BitVec 16 :=
  ~~~(BitVec.ofNat 16 (foldCarry ((sum.toNat + wordTotal (netWords p)) % 2 ^ 32)))

/-- The loop ends in the one's-complement sum. -/
theorem foldCarry_eq (sum : ℕ) : foldCarry sum = onesRep sum := by
  induction sum using foldCarry.induct with
  | case1 sum hlt => rw [foldCarry, if_pos hlt, onesRep_of_le (by omega)]
  | case2 sum hge ih => rw [foldCarry, if_neg hge, ih, onesRep_carry]

/-! ## Modifiers -/

/-- `pv_scramble`. -/
def pvScramble (x : BitVec 32) : BitVec 32 :=
  let x := x ^^^ (x <<< 13)
  let x := x ^^^ (x >>> 17)
  x ^^^ (x <<< 5)

/-- `pv_mod32`. -/
def pvMod32 (mode : PwFieldMode) (base mask seq : BitVec 32) : BitVec 32 :=
  if mode = .static then base
  else
    let rot := if mode = .random then pvScramble seq else seq
    (base &&& ~~~mask) ||| (rot &&& mask)

/-- `pv_mod16`. -/
def pvMod16 (mode : PwFieldMode) (base mask : BitVec 16) (seq : BitVec 32) : BitVec 16 :=
  if mode = .static then base
  else
    let rot := if mode = .random then (pvScramble seq >>> 3).setWidth 16 else seq.setWidth 16
    (base &&& ~~~mask) ||| (rot &&& mask)

/-- `pv_mod48`, in 64 bits. -/
def pvMod48 (mode : PwFieldMode) (base mask seq : BitVec 64) : BitVec 64 :=
  if mode = .static then base
  else
    let rnd := (pvScramble ((seq >>> 32).setWidth 32)).setWidth 64 <<< 32 |||
      (pvScramble (seq.setWidth 32)).setWidth 64
    let rot := if mode = .random then rnd &&& 0xFFFFFFFFFFFF else seq &&& 0xFFFFFFFFFFFF
    (base &&& ~~~mask) ||| (rot &&& mask)

/-- Lane `l` of `pv_mod128`. -/
def pvLane (mode : PwFieldMode) (base mask : BitVec 128) (seq fieldSalt : BitVec 32) (l : ℕ) :
    BitVec 32 :=
  let b := base.extractLsb' (32 * l) 32
  let m := mask.extractLsb' (32 * l) 32
  if mode = .static then b
  else
    let rot :=
      if mode = .random then pvScramble (seq ^^^ fieldSalt ^^^ laneSalt l) else seq + laneOff l
    (b &&& ~~~m) ||| (rot &&& m)

/-- `pv_mod128`: lane 0 is the last four bytes. -/
def pvMod128 (mode : PwFieldMode) (base mask : BitVec 128) (seq fieldSalt : BitVec 32) :
    BitVec 128 :=
  pvLane mode base mask seq fieldSalt 3 ++ pvLane mode base mask seq fieldSalt 2 ++
    pvLane mode base mask seq fieldSalt 1 ++ pvLane mode base mask seq fieldSalt 0

/-! ## Headers -/

/-- A byte of the configuration with its default for 0. -/
def orDefault (b dflt : Byte) : Byte := if b ≠ 0 then b else dflt

/-- An IPv6 header. -/
def pvIpv6 (ip : PwFlowIpv6) (plen : ℕ) (next : Byte) (src dst : BitVec 128) : List Byte :=
  [0x60#8 ||| ip.dscp >>> 2, (ip.dscp &&& 3) <<< 6, 0, 0] ++ beBytes 2 (BitVec.ofNat 16 plen) ++
    [next, orDefault ip.hopLimit 64] ++ beBytes 16 src ++ beBytes 16 dst

/-- An IPv4 header with the checksum `csum`. -/
def pvIpv4With (ip : PwFlowIpv4) (plen : ℕ) (proto : Byte) (src dst : BitVec 32)
    (csum : BitVec 16) : List Byte :=
  ([0x45, ip.dscp <<< 2] : List Byte) ++ beBytes 2 (BitVec.ofNat 16 (20 + plen)) ++
    [0, 0, 0x40, 0, orDefault ip.ttl 64, proto] ++ beBytes 2 csum ++ beBytes 4 src ++ beBytes 4 dst

/-- An IPv4 header: the checksum is that of the header with a zero in its place. -/
def pvIpv4 (ip : PwFlowIpv4) (plen : ℕ) (proto : Byte) (src dst : BitVec 32) : List Byte :=
  pvIpv4With ip plen proto src dst (onesCsum (pvIpv4With ip plen proto src dst 0) 0)

/-! ## The preview -/

/-- `PUT`, byte by byte: no byte goes behind the end of the buffer. -/
def put (cap : ℕ) (out bytes : List Byte) : Option (List Byte) :=
  if out.length + bytes.length ≤ cap then some (out ++ bytes) else none

/-- The cleared buffer with the bytes put into it. -/
def inBuffer (cap : ℕ) (out : List Byte) : List Byte := out ++ List.replicate (cap - out.length) 0

/-- `wbe16` into the buffer. -/
def wbe16 (buf : List Byte) (o : ℕ) (v : BitVec 16) : List Byte :=
  (buf.set o (v.extractLsb' 8 8)).set (o + 1) (v.setWidth 8)

/-- What `pw_flow_build_preview` returns: the length, `*built`, and the buffer. -/
structure Preview where
  len : ℕ
  built : ℕ
  buf : List Byte
  deriving DecidableEq, Repr

/-- The frame in the buffer. -/
def Preview.frame (v : Preview) : List Byte := v.buf.take v.len

section Preview

variable (f : PwFlow) (seq : BitVec 32)

/-- The addresses and the tag. -/
def pvEth : List Byte :=
  let effDmac := (pvMod48 f.mod.dstMac.mode (f.l2.dstMac.setWidth 64) f.mod.dstMac.mask
    (seq.setWidth 64)).setWidth 48
  let effSmac := (pvMod48 f.mod.srcMac.mode (f.l2.srcMac.setWidth 64) f.mod.srcMac.mask
    (seq.setWidth 64)).setWidth 48
  let effVlan := pvMod16 f.mod.vlan.mode (f.l2.vlan &&& 0x0FFF)
    ((f.mod.vlan.mask &&& 0x0FFF).setWidth 16) seq &&& 0x0FFF
  let tci : BitVec 16 := ((f.l2.pcp &&& 7).setWidth 16 <<< 13) ||| (effVlan &&& 0x0FFF)
  beBytes 6 effDmac ++ beBytes 6 effSmac ++
    if f.l2.vlanSet then [0x81, 0x00] ++ beBytes 2 tci else []

/-- `inner_et`. -/
def pvInnerEt : BitVec 16 := if f.ipv6.present then 0x86DD else 0x0800

/-- `tun_len + inner_eth`. -/
def pvTunLen : ℕ :=
  match f.encap.type with
  | .gre => 4
  | .etherip => 2 + 14
  | _ => 0

/-- The outer IP header and the tunnel header, with `oPl` bytes behind the outer header. -/
def pvOuter (oPl : ℕ) : List Byte :=
  let oproto : Byte :=
    match f.encap.type with
    | .ipip => if f.ipv6.present then 41 else 4
    | .gre => 47
    | _ => 97
  let outer :=
    if f.encap.outerIpv6.present then
      [0x86, 0xDD] ++
        pvIpv6 f.encap.outerIpv6 oPl oproto f.encap.outerIpv6.src f.encap.outerIpv6.dst
    else
      [0x08, 0x00] ++
        pvIpv4 f.encap.outerIpv4 oPl oproto f.encap.outerIpv4.src f.encap.outerIpv4.dst
  outer ++
    match f.encap.type with
    | .gre => [0, 0] ++ beBytes 2 (pvInnerEt f)
    | .etherip =>
      [0x30, 0x00] ++
        beBytes 6 (if f.encap.innerMacSet then f.encap.innerDstMac else f.l2.dstMac) ++
        beBytes 6 (if f.encap.innerMacSet then f.encap.innerSrcMac else f.l2.srcMac) ++
        beBytes 2 (pvInnerEt f)
    | _ => []

/-- `eff_v6src`. -/
def pvV6Src : BitVec 128 := pvMod128 f.mod.srcIpv4.mode f.ipv6.src f.mod.srcIpv6Mask seq 0

/-- `eff_v6dst`. -/
def pvV6Dst : BitVec 128 :=
  pvMod128 f.mod.dstIpv4.mode f.ipv6.dst f.mod.dstIpv6Mask seq 0x5A5A5A5A

/-- `eff_sip`. -/
def pvSip : BitVec 32 :=
  pvMod32 f.mod.srcIpv4.mode f.ipv4.src (f.mod.srcIpv4.mask.setWidth 32) seq

/-- `eff_dip`. -/
def pvDip : BitVec 32 :=
  pvMod32 f.mod.dstIpv4.mode f.ipv4.dst (f.mod.dstIpv4.mask.setWidth 32) seq

/-- The inner IP header.  A raw IP frame is given the protocol number for experiments. -/
def pvIp (ipPl : ℕ) : List Byte :=
  let proto : Byte :=
    if f.traffic.frameTemplate = .l3raw then 0xFD else if f.udp.l4Proto = 6 then 6 else 17
  if f.ipv6.present then pvIpv6 f.ipv6 ipPl proto (pvV6Src f seq) (pvV6Dst f seq)
  else pvIpv4 f.ipv4 ipPl proto (pvSip f seq) (pvDip f seq)

/-- The L4 header, with a zero checksum. -/
def pvL4 (l4Len : ℕ) : List Byte :=
  let effSp := pvMod16 f.mod.udpSrc.mode f.udp.srcPort (f.mod.udpSrc.mask.setWidth 16) seq
  let effDp := pvMod16 f.mod.udpDst.mode f.udp.dstPort (f.mod.udpDst.mask.setWidth 16) seq
  beBytes 2 effSp ++ beBytes 2 effDp ++
    if f.udp.l4Proto = 6 then
      beBytes 4 seq ++ [0, 0, 0, 0] ++ [0x50, orDefault f.udp.tcpFlags 0x02] ++
        [0xFF, 0xFF, 0, 0, 0, 0]
    else beBytes 2 (BitVec.ofNat 16 l4Len) ++ [0, 0]

/-- The test header; the time stamp is left zero. -/
def pvTest : List Byte :=
  [0xA5, 0x02, 0x7E, 0x57] ++ [0x00, 0x01, 0, 0] ++ beBytes 4 f.id ++ [0, 0, 0, 0] ++
    beBytes 4 seq ++ List.replicate 12 0

/-- The pseudo header's part of the L4 checksum. -/
def pvPseudo (l4Len : ℕ) : BitVec 32 :=
  BitVec.ofNat 32 ((if f.udp.l4Proto = 6 then 6 else 17) + l4Len +
    if f.ipv6.present then
      wordTotal (netWords (beBytes 16 (pvV6Src f seq) ++ beBytes 16 (pvV6Dst f seq)))
    else wordTotal (netWords (beBytes 4 (pvSip f seq) ++ beBytes 4 (pvDip f seq))))

/-- `pw_flow_build_preview`, into a buffer of `cap` bytes. -/
def pwFlowBuildPreview (cap : ℕ) : Option Preview :=
  let tmpl := f.traffic.frameTemplate
  let frameLen :=
    if f.traffic.frameLenFixedSet then f.traffic.frameLenFixed.toNat
    else f.traffic.frameLenMin.toNat
  let encap := f.encap.present && tmpl != .l2raw
  if frameLen < 14 ∨ 9100 < frameLen ∨ cap < frameLen then none
  else do
    let out ← put cap [] (pvEth f seq)
    if tmpl = .l2raw then
      let et := if f.l2.ethertype ≠ 0 then f.l2.ethertype else pvInnerEt f
      let out ← put cap out (beBytes 2 et)
      some { len := frameLen, built := out.length, buf := inBuffer cap out }
    else
      let l4hl := if tmpl = .l3raw then 0 else if f.udp.l4Proto = 6 then 20 else 8
      let before := out.length +
        if encap then 2 + (if f.encap.outerIpv6.present then 40 else 20) + pvTunLen f else 2
      let innerIphl := if f.ipv6.present then 40 else 20
      let minFrame := before + innerIphl + l4hl + if tmpl = .test then 32 else 0
      let frameLen := if frameLen < minFrame then minFrame else frameLen
      if cap < frameLen then none
      else
        let innerPayload := frameLen - before - innerIphl - l4hl
        let l4Len := l4hl + innerPayload
        let ipPl := if tmpl = .l3raw then innerPayload else l4Len
        let oPl := pvTunLen f + innerIphl + l4hl + innerPayload
        let out ← put cap out (if encap then pvOuter f oPl else beBytes 2 (pvInnerEt f))
        let out ← put cap out (pvIp f seq ipPl)
        if tmpl = .l3raw then
          some { len := frameLen, built := out.length, buf := inBuffer cap out }
        else
          let l4 := out.length
          let out ← put cap out (pvL4 f seq l4Len)
          -- the test header is stored without a check: there is room up to the frame's end
          let out := if tmpl = .test then out ++ pvTest f seq else out
          let buf := inBuffer cap out
          let c := onesCsum ((buf.drop l4).take (frameLen - l4)) (pvPseudo f seq l4Len)
          some { len := frameLen, built := out.length
                 buf := wbe16 buf (if f.udp.l4Proto = 6 then l4 + 16 else l4 + 6) c }

end Preview

end PacketWyrm
