import PacketWyrm.Checksums

/-!
# Checksums on the wire

Every frame of a compiled flow has valid checksums when it leaves the stamper.  What a receiver
asks of UDP over IPv6 is more: there a checksum of zero says that there is none, so it has to be
sent as all ones.  The stamper does so in the checksums that it finalises, which are those of
test frames.  The checksum of a raw L4 frame is final when the generator has folded it, and is
sent as it is folded.

## Main definitions

* `ChecksumsVerify` — all checksums of a flow's frame verify.
* `udpV6Total` — the words under the checksum of a raw UDP frame over IPv6.

## Main results

* `RowOf.checksumsVerify` — the checksums of every frame.
* `checksums_on_wire` — the same, for every compiled flow.
* `udp_v6_checksum_nonzero_iff` — when the checksum of UDP over IPv6 is not zero.
-/

namespace PacketWyrm

open Lib

/-! ## What leaves the stamper -/

section Stamper

variable {r : PwFlowRow} {seq tsBuilt : BitVec 64} {len : BitVec 16}

/-- **The stamper sends the wire frame**: of the frames of a row those of the test template are
marked, and the time is that of the first beat. -/
theorem TsInsert.Between.passed_wireFrame {s : TsInsert} (hs : s.Between)
    (heff : (effLen r.frameLenMin r.frameLenMax len).toNat < 4096)
    (hlen : 0 < (genFrame r seq tsBuilt len).length) {l : List TsBeat}
    (hbeats : l.map TsBeat.beat = axisBeats (genFrame r seq tsBuilt len))
    (huser : ∀ a ∈ l, a.tuser = (r.frameTemplate == 0#2)) :
    s.passed l = axisBeats (wireFrame r seq tsBuilt len ((l.head?.map TsBeat.tsNow).getD 0)) ∧
      (run TsInsert.accept s l).Between := by
  by_cases h0 : r.frameTemplate = 0#2
  · have hok : (TxFrame.test r seq tsBuilt len l).Ok := by
      refine ⟨h0, heff, hbeats, ?_⟩
      intro a ha
      rw [huser a ha, h0]
      rfl
    rw [wireFrame, if_pos h0]
    exact hs.passed_frame hok
  · have hok : (TxFrame.other l).Ok := by
      refine ⟨framed_of_axisBeats hlen hbeats, ?_⟩
      intro a ha
      rw [huser a ha, beq_eq_false_iff_ne]
      exact h0
    rw [wireFrame, if_neg h0, ← hbeats]
    exact hs.passed_frame hok

end Stamper

/-! ## The checksums of a flow's frames -/

/-- Every checksum of a frame verifies: that of each IPv4 header, and that of TCP, and of UDP
over IPv6, over the pseudo header and the whole segment. -/
structure ChecksumsVerify (f : PwFlow) (frame : List Byte) : Prop where
  outer : f.encap.present = true → f.encap.outerIpv6.present = false →
    onesSum (netWords (slice frame (f.etOff + 2) 20)) = 0xFFFF#16
  ip : f.traffic.frameTemplate ≠ .l2raw → f.ipv6.present = false →
    onesSum (netWords (slice frame f.ipOff 20)) = 0xFFFF#16
  l4 : f.traffic.frameTemplate ≠ .l2raw → f.traffic.frameTemplate ≠ .l3raw →
    f.udp.l4Proto = 6#8 ∨ f.ipv6.present = true →
    L4Verifies frame f.ipOff f.l4Off f.ipv6.present

/-- An IPv4 header of the generator that stands in a frame. -/
theorem onesSum_slice_of_holds {frame : List Byte} {o tot : ℕ} {dscp ttl proto : Byte}
    {src dst : BitVec 32}
    (h : Holds (frameByte frame) o (ipv4Header dscp tot ttl proto
      (ipCsum16 (BitVec.ofNat 16 tot) src dst dscp ttl proto) src dst))
    (hlen : o + 20 ≤ frame.length) : onesSum (netWords (slice frame o 20)) = 0xFFFF#16 := by
  have hsize : (ipv4Header dscp tot ttl proto
      (ipCsum16 (BitVec.ofNat 16 tot) src dst dscp ttl proto) src dst).length = 20 := by
    simp [ipv4Header]
  have hslice := slice_of_holds h (by rwa [hsize])
  rw [hsize] at hslice
  rw [hslice]
  exact onesSum_ipv4Header dscp tot ttl proto src dst

namespace RowOf

variable {f : PwFlow} {r : PwFlowRow} (hr : RowOf f r) (hf : f.Parsed)
  (hraw : f.traffic.frameTemplate ≠ .test → f.encap.present = false)

include hr hf hraw

variable (seq tsBuilt : BitVec 64) (len : BitVec 16) (ts : BitVec 64)

/-- The headers of a flow's frame behind the stamper. -/
theorem onWire : OnWire r seq ts (precompute r seq (r.payLen len)) (r.payLen len)
    (wireFrame r seq tsBuilt len ts) := by
  have heff := (hr.effLen_range hf len).2
  exact onWire_wireFrame (hr.rawPlain hraw hf) (by omega) ts

/-- Headers and payload make up the frame, which has room for the shortest one. -/
theorem length_wire :
    (wireFrame r seq tsBuilt len ts).length = pwFrameBytes r 0 + (r.payLen len).toNat ∧
      r.minLen ≤ (wireFrame r seq tsBuilt len ts).length := by
  rw [length_wireFrame]
  constructor
  · exact (hr.frameBytes_add_payLen hf hraw seq tsBuilt len).symm
  · rw [hr.length_genFrame_eq hf hraw, hr.minLen_eq hraw hf]
    exact Nat.le_max_right _ _

/-- The outer header of a tunnel over IPv4. -/
theorem outerVerifies (hp : f.encap.present = true) (h4 : f.encap.outerIpv6.present = false) :
    onesSum (netWords (slice (wireFrame r seq tsBuilt len ts) (f.etOff + 2) 20)) = 0xFFFF#16 := by
  have hlen := (hr.length_wire hf hraw seq tsBuilt len ts).1
  have h0 := hr.encapType_ne_zero hf hp
  have ht : r.frameTemplate = 0#2 := (hr.template_eq_iff .test).mpr (template_eq_test hraw hp)
  have hv6 : r.outerV6 = false := by rw [hr.outerV6 hp, h4]
  have hoff := l4Off_add_l4Hl (r := r) (by rw [ht]; decide) (by rw [ht]; decide)
  rw [PwFlowRow.l4Off, PwFlowRow.ipOff, if_neg h0, PwFlowRow.tunnelOff, hv6] at hoff
  simp only [Bool.false_eq_true, if_false] at hoff
  have houter := outerIp_of_holds h0 (hr.onWire hf hraw seq tsBuilt len ts).link
  rw [hv6, if_neg (by decide)] at houter
  have hsum : 20 + (encapHdrLen r.encapType + r.ipHl + r.l4Hl + (r.payLen len).toNat) =
      20 + encapHdrLen r.encapType + r.ipHl + r.l4Hl + (r.payLen len).toNat := by omega
  rw [hsum] at houter
  rw [← hr.etOff_eq]
  exact onesSum_slice_of_holds houter (by omega)

/-- The inner header over IPv4. -/
theorem innerVerifies (h2raw : f.traffic.frameTemplate ≠ .l2raw) (h4 : f.ipv6.present = false) :
    onesSum (netWords (slice (wireFrame r seq tsBuilt len ts) f.ipOff 20)) = 0xFFFF#16 := by
  have hlen := (hr.length_wire hf hraw seq tsBuilt len ts).1
  have h3 : r.frameTemplate ≠ 3#2 := mt (hr.template_eq_iff .l2raw).mp h2raw
  have hip := (hr.onWire hf hraw seq tsBuilt len ts).ip h3
  have hv6 : r.isV6 = false := by rw [hr.isV6, h4]
  have hl4 : r.l4Off = r.ipOff + 20 := by rw [PwFlowRow.l4Off, PwFlowRow.ipHl, hv6]; rfl
  rw [ipLayer, hv6, if_neg (by decide)] at hip
  rw [← hr.ipOff_eq hf]
  by_cases h2 : r.frameTemplate = 2#2
  · have hoff := l4Off_of_l3raw (hr.rawPlain hraw hf) h2
    simp only [if_pos h2, precompute] at hip
    exact onesSum_slice_of_holds hip (by omega)
  · have hoff := l4Off_add_l4Hl h3 h2
    have hsum : 20 + (r.l4Hl + (r.payLen len).toNat) = 20 + r.l4Hl + (r.payLen len).toNat := by
      omega
    simp only [if_neg h2, precompute, hsum] at hip
    exact onesSum_slice_of_holds hip (by omega)

omit hf hraw in
theorem covered_iff : r.covered = true ↔ f.udp.l4Proto = 6#8 ∨ f.ipv6.present = true := by
  rw [PwFlowRow.covered, hr.isV6, hr.l4Proto, Bool.or_eq_true, beq_iff_eq, or_comm]

/-- The L4 checksum, where there is one. -/
theorem segmentVerifies (h2raw : f.traffic.frameTemplate ≠ .l2raw)
    (h3raw : f.traffic.frameTemplate ≠ .l3raw)
    (hcov : f.udp.l4Proto = 6#8 ∨ f.ipv6.present = true) :
    L4Verifies (wireFrame r seq tsBuilt len ts) f.ipOff f.l4Off f.ipv6.present := by
  have hlen := (hr.length_wire hf hraw seq tsBuilt len ts).1
  have h3 : r.frameTemplate ≠ 3#2 := mt (hr.template_eq_iff .l2raw).mp h2raw
  have h2 : r.frameTemplate ≠ 2#2 := mt (hr.template_eq_iff .l3raw).mp h3raw
  have hoff := l4Off_add_l4Hl h3 h2
  rw [← hr.ipOff_eq hf, ← hr.l4Off_eq hf, ← hr.isV6]
  exact l4Verifies_of_onWire (hr.onWire hf hraw seq tsBuilt len ts) h3 h2
    (hr.covered_iff.mpr hcov) (by omega) (hr.length_wire hf hraw seq tsBuilt len ts).2

/-- **Every checksum of a flow's frame verifies.** -/
theorem checksumsVerify : ChecksumsVerify f (wireFrame r seq tsBuilt len ts) :=
  { outer := hr.outerVerifies hf hraw seq tsBuilt len ts
    ip := hr.innerVerifies hf hraw seq tsBuilt len ts
    l4 := hr.segmentVerifies hf hraw seq tsBuilt len ts }

/-- A frame is long enough to be one. -/
theorem length_genFrame_pos : 0 < (genFrame r seq tsBuilt len).length := by
  have heff := (hr.effLen_range hf len).1
  rw [hr.length_genFrame_eq hf hraw]
  omega

/-- The stamper sends the wire frame of a flow. -/
theorem passed_wireFrame {s : TsInsert} (hs : s.Between) {l : List TsBeat}
    (hbeats : l.map TsBeat.beat = axisBeats (genFrame r seq tsBuilt len))
    (huser : ∀ a ∈ l, a.tuser = (r.frameTemplate == 0#2)) :
    s.passed l = axisBeats (wireFrame r seq tsBuilt len ((l.head?.map TsBeat.tsNow).getD 0)) ∧
      (run TsInsert.accept s l).Between := by
  have heff := (hr.effLen_range hf len).2
  exact hs.passed_wireFrame (by omega) (hr.length_genFrame_pos hf hraw seq tsBuilt len) hbeats huser

end RowOf

/-- **Checksums on the wire.**  For every flow of a parsed configuration that compiles, every
sequence number and every swept length, the stamper sends the wire frame of the beats that the
generator builds, and at whatever time it is stamped, each of its IPv4 headers, and each TCP
segment and UDP datagram over IPv6, sums up to all ones. -/
theorem checksums_on_wire {cfg : PwConfig} {p : PwProgram} (hcfg : cfg.Parsed)
    (h : pwFlowCompile cfg = .ok p) {i : ℕ} {f : PwFlow} (hf : cfg.flows[i]? = some f) :
    ∃ m row r, p.flowMeta[i]? = some m ∧ p.txRowOf m = some row ∧ r = pwDecodeFlowRow row.byte ∧
      ∀ seq tsBuilt len,
        (∀ (s : TsInsert) (l : List TsBeat), s.Between →
          l.map TsBeat.beat = axisBeats (genFrame r seq tsBuilt len) →
          (∀ a ∈ l, a.tuser = (r.frameTemplate == 0#2)) →
          s.passed l =
              axisBeats (wireFrame r seq tsBuilt len ((l.head?.map TsBeat.tsNow).getD 0)) ∧
            (run TsInsert.accept s l).Between) ∧
        ∀ ts, ChecksumsVerify f (wireFrame r seq tsBuilt len ts) := by
  obtain ⟨hparsed, hraw, m, row, hm, hrow, hr⟩ := exists_rowOf_of_compile hcfg h hf
  refine ⟨m, row, _, hm, hrow, rfl, ?_⟩
  intro seq tsBuilt len
  constructor
  · intro s l hs hbeats huser
    exact hr.passed_wireFrame hparsed hraw seq tsBuilt len hs hbeats huser
  · intro ts
    exact hr.checksumsVerify hparsed hraw seq tsBuilt len ts

/-- The IPv4 header of a sample flow. -/
theorem checksums_on_wire_sample :
    ∃ p m row, pwFlowCompile sampleHeaderConfig = .ok p ∧ p.flowMeta[0]? = some m ∧
      p.txRowOf m = some row ∧ ∀ seq tsBuilt len ts,
        onesSum (netWords (slice (wireFrame (pwDecodeFlowRow row.byte) seq tsBuilt len ts)
          (sampleHeaderFlow 1 0x0A000002).ipOff 20)) = 0xFFFF#16 := by
  obtain ⟨p, hp, -⟩ := exists_of_okAnd
    (show okAnd (pwFlowCompile sampleHeaderConfig) (fun _ => true) = true by decide +kernel)
  obtain ⟨m, row, r, hm, hrow, rfl, hwire⟩ := checksums_on_wire
    parsed_sampleHeaderConfig hp (i := 0) (f := sampleHeaderFlow 1 0x0A000002) rfl
  refine ⟨p, m, row, hp, hm, hrow, ?_⟩
  intro seq tsBuilt len ts
  exact ((hwire seq tsBuilt len).2 ts).ip (by decide) (by decide)

/-! ## UDP over IPv6 -/

/-- The length of a flow's UDP datagrams when the sweep stands at `len`. -/
def PwFlow.udpLenAt (f : PwFlow) (len : BitVec 16) : ℕ :=
  max (effLen f.traffic.lenLo f.traffic.lenHi len).toNat (pwFlowMinLegalFrame f) - f.l4Off

/-- The words under the UDP checksum of a raw L4 frame over IPv6, the checksum left out, added
up: the addresses, the ports, the protocol and twice the length. -/
def PwFlow.udpV6Total (f : PwFlow) (seq : BitVec 64) (len : BitVec 16) : ℕ :=
  wordTotal (netWords (beBytes 16 (f.srcIpv6At seq) ++ beBytes 16 (f.dstIpv6At seq))) +
    (f.srcPortAt seq).toNat + (f.dstPortAt seq).toNat + 17 + 2 * f.udpLenAt len

namespace RowOf

variable {f : PwFlow} {r : PwFlowRow} (hr : RowOf f r) (hf : f.Parsed)
  (hraw : f.traffic.frameTemplate ≠ .test → f.encap.present = false)

include hr hf hraw

variable (seq tsBuilt : BitVec 64) (len : BitVec 16) (ts : BitVec 64)

/-- The datagram reaches to the end of the frame. -/
theorem l4Hl_add_payLen (h3 : r.frameTemplate ≠ 3#2) (h2 : r.frameTemplate ≠ 2#2) :
    r.l4Hl + (r.payLen len).toNat = f.udpLenAt len := by
  have hbytes := hr.frameBytes_add_payLen hf hraw 0 0 len
  have hoff := l4Off_add_l4Hl h3 h2
  rw [hr.length_genFrame_eq hf hraw, hr.frameLenMin, hr.frameLenMax] at hbytes
  rw [PwFlow.udpLenAt, ← hr.l4Off_eq hf]
  omega

theorem udpLenAt_lt : f.udpLenAt len < 65536 := by
  have hlt := hr.length_genFrame_lt hf hraw 0 0 len
  rw [hr.length_genFrame_eq hf hraw, hr.frameLenMin, hr.frameLenMax] at hlt
  rw [PwFlow.udpLenAt]
  omega

/-- The half sums of a raw UDP frame over IPv6. -/
theorem psum_eq_udpV6Total (h6 : f.ipv6.present = true) (hudp : f.udp.l4Proto = 17#8)
    (ht : f.traffic.frameTemplate = .l4raw) :
    (precompute r seq (r.payLen len)).psa.toNat + (precompute r seq (r.payLen len)).psb.toNat =
      f.udpV6Total seq len := by
  have h1 : r.frameTemplate = 1#2 := (hr.template_eq_iff .l4raw).mpr ht
  have hseg := hr.l4Hl_add_payLen hf hraw len (by rw [h1]; decide) (by rw [h1]; decide)
  have hlt := hr.udpLenAt_lt hf hraw len
  have hproto : r.l4Proto = 17#8 := by rw [hr.l4Proto, hudp]
  have hbyte : r.l4ProtoByte.toNat = 17 := by
    rw [PwFlowRow.l4ProtoByte, hproto]
    rfl
  have hv6 : r.isV6 = true := by rw [hr.isV6, h6]
  have htest : ¬(r.frameTemplate == 0#2) = true := by
    rw [h1]
    decide
  have haddr : addressBytes r (precompute r seq (r.payLen len)) =
      beBytes 16 (f.srcIpv6At seq) ++ beBytes 16 (f.dstIpv6At seq) := by
    rw [addressBytes, if_pos hv6, hr.v6src_eq seq _ hf h6, hr.v6dst_eq seq _ hf h6]
  rw [psa_precompute, psb_precompute, if_neg htest, haddr, wordTotal_l4Pre,
    if_neg (by rw [hproto]; decide), hr.sp_eq, hr.dp_eq, hbyte, hseg, BitVec.toNat_ofNat,
    Nat.mod_eq_of_lt hlt, PwFlow.udpV6Total]
  omega

/-- The checksum field of a UDP frame over IPv6. -/
theorem udpCsum_wireFrame (h6 : f.ipv6.present = true) (hudp : f.udp.l4Proto = 17#8)
    (h2raw : f.traffic.frameTemplate ≠ .l2raw) (h3raw : f.traffic.frameTemplate ≠ .l3raw) :
    be16 (frameByte (wireFrame r seq tsBuilt len ts)) (f.l4Off + 6) =
      wireCsum r ts (precompute r seq (r.payLen len)) := by
  have h3 : r.frameTemplate ≠ 3#2 := mt (hr.template_eq_iff .l2raw).mp h2raw
  have h2 : r.frameTemplate ≠ 2#2 := mt (hr.template_eq_iff .l3raw).mp h3raw
  have hl4 := (hr.onWire hf hraw seq tsBuilt len ts).l4 h3 h2 (hr.covered_iff.mpr (.inr h6))
  rw [l4Header, holds_append, holds_append, length_l4Pre, if_neg (by
    rw [hr.l4Proto, hudp]
    decide)] at hl4
  rw [← hr.l4Off_eq hf]
  exact be16_of_holds hl4.1.2

/-- **When the checksum of UDP over IPv6 is not zero.** -/
theorem udpCsum_ne_zero_iff (h6 : f.ipv6.present = true) (hudp : f.udp.l4Proto = 17#8)
    (ht : f.traffic.frameTemplate = .test ∨ f.traffic.frameTemplate = .l4raw) :
    be16 (frameByte (wireFrame r seq tsBuilt len ts)) (f.l4Off + 6) ≠ 0 ↔
      f.traffic.frameTemplate = .test ∨ f.udpV6Total seq len % 65535 ≠ 0 := by
  have h2raw : f.traffic.frameTemplate ≠ .l2raw := by rcases ht with ht | ht <;> simp [ht]
  have h3raw : f.traffic.frameTemplate ≠ .l3raw := by rcases ht with ht | ht <;> simp [ht]
  rw [hr.udpCsum_wireFrame hf hraw seq tsBuilt len ts h6 hudp h2raw h3raw, wireCsum]
  rcases ht with ht | ht
  · -- the stamper finalises the checksum and never leaves it zero
    have h0 : r.frameTemplate = 0#2 := (hr.template_eq_iff .test).mpr ht
    have hts : (tsAddendOf ts).toNat ≤ 4 * 65535 := by
      rw [toNat_tsAddendOf]
      omega
    have hne : (r.l4Proto != 6#8) = true := by
      rw [hr.l4Proto, hudp]
      rfl
    rw [if_pos h0, hne]
    exact iff_of_true ((finalizeCsum_spec _ hts true).2 rfl) (.inl ht)
  · have h0 : r.frameTemplate ≠ 0#2 := by
      rw [(hr.template_eq_iff .l4raw).mpr ht]
      decide
    have hfold := toNat_l4Fold (precompute r seq (r.payLen len)).psa
      (precompute r seq (r.payLen len)).psb
    rw [hr.psum_eq_udpV6Total hf hraw seq len h6 hudp ht] at hfold
    have hpos : f.udpV6Total seq len ≠ 0 := by
      rw [PwFlow.udpV6Total]
      omega
    have hle := onesRep_le (f.udpV6Total seq len)
    have hiff := onesRep_eq_iff (n := f.udpV6Total seq len)
    rw [if_neg h0, Ne, ← BitVec.toNat_inj, hfold, ht]
    simp only [reduceCtorEq, false_or, BitVec.toNat_ofNat, Nat.zero_mod, BitVec.ofNat_eq_ofNat]
    omega

end RowOf

/-- **When UDP over IPv6 is sent without a zero checksum.**  For every UDP flow over IPv6 of a
parsed configuration that compiles, with a test header or a raw L4 frame, every sequence number,
swept length and time stamp: the checksum field of the frame that leaves the stamper is not zero
exactly when the flow has a test header, or the words under the checksum do not add up to a
multiple of 65535. -/
theorem udp_v6_checksum_nonzero_iff {cfg : PwConfig} {p : PwProgram} (hcfg : cfg.Parsed)
    (h : pwFlowCompile cfg = .ok p) {i : ℕ} {f : PwFlow} (hf : cfg.flows[i]? = some f)
    (h6 : f.ipv6.present = true) (hudp : f.udp.l4Proto = 17#8)
    (ht : f.traffic.frameTemplate = .test ∨ f.traffic.frameTemplate = .l4raw) :
    ∃ m row r, p.flowMeta[i]? = some m ∧ p.txRowOf m = some row ∧ r = pwDecodeFlowRow row.byte ∧
      ∀ seq tsBuilt len,
        (∀ (s : TsInsert) (l : List TsBeat), s.Between →
          l.map TsBeat.beat = axisBeats (genFrame r seq tsBuilt len) →
          (∀ a ∈ l, a.tuser = (r.frameTemplate == 0#2)) →
          s.passed l =
            axisBeats (wireFrame r seq tsBuilt len ((l.head?.map TsBeat.tsNow).getD 0))) ∧
        ∀ ts, be16 (frameByte (wireFrame r seq tsBuilt len ts)) (f.l4Off + 6) ≠ 0 ↔
          f.traffic.frameTemplate = .test ∨ f.udpV6Total seq len % 65535 ≠ 0 := by
  obtain ⟨hparsed, hraw, m, row, hm, hrow, hr⟩ := exists_rowOf_of_compile hcfg h hf
  refine ⟨m, row, _, hm, hrow, rfl, ?_⟩
  intro seq tsBuilt len
  constructor
  · intro s l hs hbeats huser
    exact (hr.passed_wireFrame hparsed hraw seq tsBuilt len hs hbeats huser).1
  · intro ts
    exact hr.udpCsum_ne_zero_iff hparsed hraw seq tsBuilt len ts h6 hudp ht

/-- A raw UDP flow over IPv6 from port 0 to port 1. -/
def sampleRawV6Flow (dstPort : BitVec 16) : PwFlow :=
  { id := 1, txGlobalPort := 0, rxGlobalPort := 1
    l2 := { srcMac := 0x020000000001, dstMac := 0x020000000002 }
    ipv6 := { present := true, src := 0x20010DB8000000000000000000000001
              dst := 0x20010DB8000000000000000000000002, hopLimit := 64 }
    udp := { srcPort := 4000, dstPort, l4Proto := 17, tcpFlags := 2 }
    traffic :=
      { frameTemplate := .l4raw, frameLenFixedSet := true, frameLenFixed := 128, ratePps := 1000
        burstSize := 1 }
    matchUdpDstMask := 0xFFFF, matchIpv4DstMask := 0xFFFFFFFF, classifyHeader := true }

/-- A configuration with that flow alone. -/
def sampleRawV6Config (dstPort : BitVec 16) : PwConfig :=
  { cards := [sampleCard], flows := [sampleRawV6Flow dstPort] }

theorem parsed_sampleRawV6Config (dstPort : BitVec 16) : (sampleRawV6Config dstPort).Parsed := by
  have hflow : (sampleRawV6Flow dstPort).Parsed := by
    constructor <;> simp [sampleRawV6Flow, PwFlowTraffic.lenLo, PwFlowTraffic.lenHi]
  exact hflow.singleton rfl

/-- To port 5000 the checksum is not zero. -/
theorem udp_v6_checksum_nonzero_sample :
    ∃ p m row, pwFlowCompile (sampleRawV6Config 5000) = .ok p ∧ p.flowMeta[0]? = some m ∧
      p.txRowOf m = some row ∧ ∀ tsBuilt ts,
        be16 (frameByte (wireFrame (pwDecodeFlowRow row.byte) 0 tsBuilt 128 ts)) 60 ≠ 0 := by
  obtain ⟨p, hp, -⟩ := exists_of_okAnd
    (show okAnd (pwFlowCompile (sampleRawV6Config 5000)) (fun _ => true) = true by decide +kernel)
  obtain ⟨m, row, r, hm, hrow, rfl, hwire⟩ := udp_v6_checksum_nonzero_iff
    (parsed_sampleRawV6Config 5000) hp (i := 0) (f := sampleRawV6Flow 5000) rfl rfl rfl (.inr rfl)
  refine ⟨p, m, row, hp, hm, hrow, ?_⟩
  intro tsBuilt ts
  exact ((hwire 0 tsBuilt 128).2 ts).mpr (.inr (by decide +kernel))

/-- **A zero checksum is sent.**  Between these addresses, from port 4000 to port 37957, the words
of a frame of 128 bytes add up to 65535. -/
theorem zero_udp_v6_checksum :
    (sampleRawV6Config 37957).Parsed ∧ ∃ p m row,
      pwFlowCompile (sampleRawV6Config 37957) = .ok p ∧ p.flowMeta[0]? = some m ∧
      p.txRowOf m = some row ∧
        be16 (frameByte (wireFrame (pwDecodeFlowRow row.byte) 0 0 128 0)) 60 = 0 := by
  have hparsed := parsed_sampleRawV6Config 37957
  obtain ⟨p, hp, -⟩ := exists_of_okAnd
    (show okAnd (pwFlowCompile (sampleRawV6Config 37957)) (fun _ => true) = true by decide +kernel)
  obtain ⟨hflow, hraw, m, row, hm, hrow, hr⟩ := exists_rowOf_of_compile hparsed hp
    (i := 0) (f := sampleRawV6Flow 37957) rfl
  refine ⟨hparsed, p, m, row, hp, hm, hrow, ?_⟩
  by_contra hne
  have hiff := hr.udpCsum_ne_zero_iff hflow hraw 0 0 128 0 rfl rfl (.inr rfl)
  exact absurd (hiff.mp hne) (by decide +kernel)

end PacketWyrm
