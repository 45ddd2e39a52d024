import PacketWyrm.FlowRow

/-!
# The flow table row in memory

`struct pwfpga_flow_config` is packed, so the order of its fields and their
sizes fix the byte a field starts at.  Integers are little-endian; the address
arrays are in network order, most significant byte first.

## Main definitions

* `PwfpgaFlowConfig.bytes` — the 244 bytes of the row.
* `PwfpgaFlowConfig.word` — the 32-bit words the host copies to the card.
-/

namespace PacketWyrm

/-- The low `n` bytes of an integer, least significant first. -/
def leBytes {w : ℕ} (n : ℕ) (x : BitVec w) : List Byte :=
  (List.range n).map fun i => x.extractLsb' (8 * i) 8

/-- The low `n` bytes, most significant first. -/
def beBytes {w : ℕ} (n : ℕ) (x : BitVec w) : List Byte :=
  (List.range n).map fun i => x.extractLsb' (8 * (n - 1 - i)) 8

namespace PwfpgaFlowConfig

/-- The fields in memory order.  `reserved0` and `reserved_ft` stay zero: the
row is zeroed before it is filled. -/
def fields (r : PwfpgaFlowConfig) : List (List Byte) :=
  [[r.enable], [r.egressLocalPort],
    leBytes 4 r.globalFlowId, leBytes 4 r.localFlowId, leBytes 4 r.logicalIfId,
    beBytes 6 r.dstMac, beBytes 6 r.srcMac,
    [r.vlanEnable], leBytes 2 r.vlanId, [r.pcp],
    [r.ipVersion], leBytes 4 r.srcIpv4, leBytes 4 r.dstIpv4, [r.dscp], [r.ttl],
    leBytes 2 r.udpSrcPort, leBytes 2 r.udpDstPort,
    leBytes 2 r.frameLenMin, leBytes 2 r.frameLenMax, leBytes 2 r.frameLenStep,
    leBytes 8 r.rateBps, leBytes 8 r.ratePps, leBytes 4 r.burstSize, leBytes 4 r.burstGapTicks,
    leBytes 4 r.tokensPerTickFp, leBytes 2 r.burstBytes, [0, 0],
    [r.payloadMode], leBytes 4 r.payloadSeed, [r.insertSequence], [r.insertTimestamp],
    [r.txEnable], [r.rxCheckEnable],
    [r.srcIpv4Mod], leBytes 4 r.srcIpv4Mask, [r.dstIpv4Mod], leBytes 4 r.dstIpv4Mask,
    [r.udpSrcMod], leBytes 2 r.udpSrcMask, [r.udpDstMod], leBytes 2 r.udpDstMask,
    beBytes 16 r.ipv6Src, beBytes 16 r.ipv6Dst,
    [r.srcMacMod], beBytes 6 r.srcMacMask, [r.dstMacMod], beBytes 6 r.dstMacMask,
    [r.vlanMod], leBytes 2 r.vlanMask,
    [r.encapType], [r.outerIpVersion], [r.rxExpect], [r.outerTtl], [r.outerDscp],
    leBytes 4 r.outerSrcIpv4, leBytes 4 r.outerDstIpv4,
    beBytes 16 r.outerIpv6Src, beBytes 16 r.outerIpv6Dst,
    beBytes 6 r.innerDstMac, beBytes 6 r.innerSrcMac,
    leBytes 12 r.srcIpv6MaskHi, leBytes 12 r.dstIpv6MaskHi,
    [r.l4Proto], [r.tcpFlags], [r.frameTemplate], [0], leBytes 2 r.l2Ethertype]

/-- The row as it lies in memory. -/
def bytes (r : PwfpgaFlowConfig) : List Byte := r.fields.flatten

/-- `sizeof(struct pwfpga_flow_config)`. -/
theorem length_bytes (r : PwfpgaFlowConfig) : r.bytes.length = 244 := by
  simp [bytes, fields, leBytes, beBytes]

/-- Byte `k` of the row's slot in the flow table; the slot is longer than the
row. -/
def byte (r : PwfpgaFlowConfig) (k : ℕ) : Byte := r.bytes.getD k 0

/-- Word `j`, as `bar_copy_words` reads it on a little-endian host. -/
def word (r : PwfpgaFlowConfig) (j : ℕ) : BitVec 32 :=
  r.byte (4 * j + 3) ++ r.byte (4 * j + 2) ++ r.byte (4 * j + 1) ++ r.byte (4 * j)

end PwfpgaFlowConfig

end PacketWyrm
