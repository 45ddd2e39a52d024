import PacketWyrm.AxisStream
import PacketWyrm.AxisPkg
import PacketWyrm.Lib.Clocked

/-!
# The transmit stamper

`pw_ts_insert` stands between the transmit arbiter and the MAC.  It passes every
beat on in the cycle it comes, and in the frames that are marked as test frames
it writes the time of departure over the time stamp and adds it to the L4
checksum.  Where these fields stand is worked out from the headers as they stream
past: each register holds what has been seen of the frame so far.

## Main definitions

* `TsLayout` — what the positions depend on, and the positions.
* `TsInsert` — the registers, `TsInsert.accept` — what an accepted beat does.
* `TsInsert.out` — the beat that is passed on.
* `layoutOf` — the layout that a frame's own bytes say.
* `stampBeats` — a stamped frame.
-/

namespace PacketWyrm

open Lib

/-! ## Positions -/

/-- `enc_of_proto`: the tunnel that the outer IP protocol names. -/
def encOfProto (p : Byte) : BitVec 2 :=
  if p = 4#8 ∨ p = 41#8 then 1#2 else if p = 47#8 then 2#2 else if p = 97#8 then 3#2 else 0#2

/-- `enc_hdr_len`. -/
def encHdrLen (et : BitVec 2) : ℕ := if et = 2#2 then 4 else if et = 3#2 then 16 else 0

/-- What the positions depend on. -/
@[ext] structure TsLayout where
  vlan : Bool
  outerV6 : Bool
  encap : BitVec 2
  innerV6 : Bool
  tcp : Bool
  deriving DecidableEq, Repr

namespace TsLayout

variable (L : TsLayout)

/-- `o3`: the outer L3 header. -/
def o3 : ℕ := 14 + if L.vlan then 4 else 0

/-- `proto_pos`. -/
def protoPos : ℕ := L.o3 + if L.outerV6 then 6 else 9

/-- `enc_start`. -/
def encStart : ℕ := L.o3 + if L.outerV6 then 40 else 20

/-- `gre_pos`: the high byte of the protocol type. -/
def grePos : ℕ := L.encStart + 2

/-- `eip_pos`: the high byte of the inner EtherType. -/
def eipPos : ℕ := L.encStart + 14

/-- `inner_l3_start`. -/
def innerL3Start : ℕ := if L.encap = 0#2 then L.o3 else L.encStart + encHdrLen L.encap

/-- `inner_proto_pos`. -/
def innerProtoPos : ℕ := L.innerL3Start + if L.innerV6 then 6 else 9

/-- `inner_udp_c`: the L4 header. -/
def innerUdp : ℕ :=
  if L.encap = 0#2 then L.o3 + if L.outerV6 then 40 else 20
  else (L.o3 + if L.outerV6 then 40 else 20) + encHdrLen L.encap + if L.innerV6 then 40 else 20

/-- `l4hl_c`. -/
def l4Hl : ℕ := if L.tcp then 20 else 8

/-- `magic_off_c`. -/
def magicOff : ℕ := L.innerUdp + L.l4Hl

/-- `ts_off_c`: after magic, version, flow and sequence number. -/
def tsOff : ℕ := L.innerUdp + L.l4Hl + 20

/-- `csum_off_c`. -/
def csumOff : ℕ := L.innerUdp + if L.tcp then 16 else 6

end TsLayout

/-- `inner_v6_c`: the family that the tunnel header names, or that of the frame. -/
def innerV6Of (encap : BitVec 2) (outerV6 : Bool) (oProto greHi eipHi : Byte) : Bool :=
  if encap = 0#2 then outerV6
  else if encap = 1#2 then oProto == 41#8
  else if encap = 2#2 then greHi == 0x86#8
  else eipHi == 0x86#8

/-! ## The checksum -/

/-- `ts_addend`: the four words of a time stamp. -/
def tsAddendOf (ts : BitVec 64) : BitVec 19 :=
  (ts.extractLsb' 48 16).setWidth 19 + (ts.extractLsb' 32 16).setWidth 19 +
    (ts.extractLsb' 16 16).setWidth 19 + (ts.extractLsb' 0 16).setWidth 19

/-- One fold of a 20-bit sum. -/
def fold20 (s : BitVec 20) : BitVec 20 :=
  (s.extractLsb' 0 16).setWidth 20 + (s.extractLsb' 16 4).setWidth 20

/-- `finalize_csum`. -/
def finalizeCsum (c0 : BitVec 16) (addend : BitVec 19) (udpZeroRule : Bool) : BitVec 16 :=
  let s : BitVec 20 := (~~~c0).setWidth 20 + addend.setWidth 20
  let f : BitVec 16 := ~~~((fold20 (fold20 s)).extractLsb' 0 16)
  if udpZeroRule && f == 0 then 0xFFFF else f

/-! ## The registers -/

/-- `MAGIC`. -/
def tsMagic : BitVec 32 := 0xA5027E57

/-- A beat that is taken, with the time and the marker beside it. -/
structure TsBeat where
  tsNow : BitVec 64
  beat : Beat
  tuser : Bool

/-- The inputs of a cycle. -/
structure TsInsertIn where
  tsNow : BitVec 64
  beat : Beat
  tuser : Bool
  tvalid : Bool
  tready : Bool

/-- `acc`: the beat that is taken in a cycle.  `s_tready` is `m_tready`. -/
def TsInsertIn.acc (i : TsInsertIn) : Option TsBeat :=
  if i.tvalid && i.tready then some { tsNow := i.tsNow, beat := i.beat, tuser := i.tuser } else none

/-- The registers.  Positions are below 160, so nothing depends on their width. -/
structure TsInsert where
  beat : ℕ
  vlanQ : Bool
  outerV6Q : Bool
  innerV6Q : Bool
  isGen : Bool
  mb : ℕ → Byte
  magicOk : Bool
  tsLat : BitVec 64
  tsAddend : BitVec 19
  csumBeatQ : ℕ
  csumLaneQ : ℕ
  magicOffQ : ℕ
  tsOffQ : ℕ
  oProtoQ : Byte
  greHiQ : Byte
  eipHiQ : Byte
  innerL4ProtoQ : Byte
  innerTcpQ : Bool

namespace TsInsert

/-- The wires that are decoded from the registers. -/
def layout (s : TsInsert) : TsLayout :=
  let encap := encOfProto s.oProtoQ
  { vlan := s.vlanQ
    outerV6 := s.outerV6Q
    encap := encap
    innerV6 := innerV6Of encap s.outerV6Q s.oProtoQ s.greHiQ s.eipHiQ
    tcp := (if encap = 0#2 then s.oProtoQ else s.innerL4ProtoQ) == 6#8 }

/-- `base`: the first byte of the beat. -/
def base (s : TsInsert) : ℕ := s.beat % 512 * 8

/-- A byte is captured when it is in the beat. -/
def capture (s : TsInsert) (b : Beat) (pos : ℕ) (old : Byte) : Byte :=
  if s.base ≤ pos ∧ pos < s.base + 8 then b.lane (pos - s.base) else old

/-- `stamp_ok`. -/
def stampOk (s : TsInsert) : Bool := s.isGen && (s.innerV6Q || s.magicOk)

/-- `fix_csum`. -/
def fixCsum (s : TsInsert) : Bool := s.isGen && (s.innerV6Q || s.innerTcpQ)

/-- `csum_here`. -/
def csumHere (s : TsInsert) : Bool := s.fixCsum && s.beat == s.csumBeatQ

/-- `cnew`: the checksum of the beat's lanes, finalised. -/
def cnew (s : TsInsert) (b : Beat) : BitVec 16 :=
  let c0Hi := if s.csumLaneQ < 8 then b.lane s.csumLaneQ else 0#8
  let c0Lo := if s.csumLaneQ + 1 < 8 then b.lane (s.csumLaneQ + 1) else 0#8
  finalizeCsum (c0Hi ++ c0Lo) s.tsAddend (!s.innerTcpQ)

/-- A lane of `m_tdata`; the checksum is written last. -/
def outLane (s : TsInsert) (b : Beat) (l : ℕ) : Byte :=
  let bi := s.base + l
  if s.csumHere && l == s.csumLaneQ + 1 then (s.cnew b).extractLsb' 0 8
  else if s.csumHere && l == s.csumLaneQ then (s.cnew b).extractLsb' 8 8
  else if s.stampOk && decide (s.tsOffQ ≤ bi ∧ bi < s.tsOffQ + 8) then
    s.tsLat.extractLsb' ((7 - (bi - s.tsOffQ)) * 8) 8
  else b.lane l

/-- The beat that is passed on. -/
def out (s : TsInsert) (b : Beat) : Beat :=
  { tdata := lanes (s.outLane b), tkeep := b.tkeep, tlast := b.tlast }

/-- An accepted beat. -/
def accept (s : TsInsert) (a : TsBeat) : TsInsert :=
  let L := s.layout
  let b := a.beat
  let isVlan := b.lane 4 == 0x81#8 && b.lane 5 == 0x00#8
  { beat := if b.tlast then 0 else (s.beat + 1) % 4096
    vlanQ := if s.beat = 0 then false else if s.beat = 1 then isVlan else s.vlanQ
    outerV6Q :=
      if s.beat = 0 then false
      else if s.beat = 1 && !isVlan then b.lane 4 == 0x86#8 && b.lane 5 == 0xDD#8
      else if s.beat = 2 && s.vlanQ then b.lane 0 == 0x86#8 && b.lane 1 == 0xDD#8
      else s.outerV6Q
    innerV6Q := L.innerV6
    isGen := if s.beat = 0 then a.tuser else s.isGen
    mb := fun k => s.capture b (s.magicOffQ + k) (s.mb k)
    magicOk :=
      if s.beat = (s.magicOffQ + 3) / 8 + 1 then s.mb 0 ++ s.mb 1 ++ s.mb 2 ++ s.mb 3 == tsMagic
      else if s.beat = 0 then false
      else s.magicOk
    tsLat := if s.beat = 0 then a.tsNow else s.tsLat
    tsAddend := if s.beat = 0 then tsAddendOf a.tsNow else s.tsAddend
    csumBeatQ := L.csumOff / 8
    csumLaneQ := L.csumOff % 8
    magicOffQ := L.magicOff
    tsOffQ := L.tsOff
    oProtoQ := s.capture b L.protoPos (if s.beat = 0 then 17#8 else s.oProtoQ)
    greHiQ := s.capture b L.grePos (if s.beat = 0 then 0#8 else s.greHiQ)
    eipHiQ := s.capture b L.eipPos (if s.beat = 0 then 0#8 else s.eipHiQ)
    innerL4ProtoQ := s.capture b L.innerProtoPos s.innerL4ProtoQ
    innerTcpQ := L.tcp }

/-- One clock edge: the registers move with an accepted beat only. -/
def step (s : TsInsert) (i : TsInsertIn) : TsInsert := i.acc.elim s s.accept

/-- The beat that the MAC takes in a cycle. -/
def sent (s : TsInsert) (i : TsInsertIn) : Option Beat := i.acc.map fun a => s.out a.beat

/-- The registers after a reset, as far as anything depends on them. -/
structure Reset (s : TsInsert) : Prop where
  beat : s.beat = 0
  csumBeatQ : s.csumBeatQ = 7
  tsOffQ : s.tsOffQ = 62

end TsInsert

/-! ## What a frame says itself -/

/-- The bytes of a frame, by its beats. -/
def beatsByte (l : List Beat) : Window := fun i => (l.getD (i / 8) {}).lane (i % 8)

/-- The layout that a frame's bytes say. -/
def layoutOf (w : Window) : TsLayout :=
  let vlan := w 12 == 0x81#8 && w 13 == 0x00#8
  let o3 := 14 + if vlan then 4 else 0
  let outerV6 := w (o3 - 2) == 0x86#8 && w (o3 - 1) == 0xDD#8
  let proto := w (o3 + if outerV6 then 6 else 9)
  let encap := encOfProto proto
  let encStart := o3 + if outerV6 then 40 else 20
  let innerV6 := innerV6Of encap outerV6 proto (w (encStart + 2)) (w (encStart + 14))
  let innerProto :=
    if encap = 0#2 then proto else w (encStart + encHdrLen encap + if innerV6 then 6 else 9)
  { vlan, outerV6, encap, innerV6, tcp := innerProto == 6#8 }

/-- The magic number stands where the layout has it. -/
def hasMagic (L : TsLayout) (w : Window) : Bool :=
  w L.magicOff ++ w (L.magicOff + 1) ++ w (L.magicOff + 2) ++ w (L.magicOff + 3) == tsMagic

/-- A byte of a stamped frame: the checksum, where it covers the time stamp, the time
stamp, and the rest as it was. -/
def stampByte (L : TsLayout) (ts : BitVec 64) (w : Window) (i : ℕ) : Byte :=
  let c := finalizeCsum (w L.csumOff ++ w (L.csumOff + 1)) (tsAddendOf ts) (!L.tcp)
  if (L.innerV6 || L.tcp) && i == L.csumOff + 1 then c.extractLsb' 0 8
  else if (L.innerV6 || L.tcp) && i == L.csumOff then c.extractLsb' 8 8
  else if (L.innerV6 || hasMagic L w) && decide (L.tsOff ≤ i ∧ i < L.tsOff + 8) then
    ts.extractLsb' ((7 - (i - L.tsOff)) * 8) 8
  else w i

/-- A beat of a stamped frame. -/
def stampBeat (L : TsLayout) (ts : BitVec 64) (w : Window) (j : ℕ) (b : Beat) : Beat :=
  { b with tdata := lanes fun l => stampByte L ts w (8 * j + l) }

/-- A stamped frame, from its own bytes and the time of its first beat alone. -/
def stampBeats (ts : BitVec 64) (l : List Beat) : List Beat :=
  l.mapIdx (stampBeat (layoutOf (beatsByte l)) ts (beatsByte l))

end PacketWyrm
