import PacketWyrm.HeaderFields

/-!
# Lengths of generated frames

The compiler, the flow table and the frame builder each add up the headers of a frame.  They
agree, so the shortest frame of a flow is the one the compiler counts with, and every length
field of a frame says how many bytes follow it.

## Main definitions

* `IpLength` — an IP header says how long the frame is.
* `LengthFields` — all length fields of a flow's frame do.

## Main results

* `RowOf.frameBytes_eq` — the flow table counts like the compiler.
* `RowOf.lengthFields` — the length fields of every frame.
* `min_legal_frame_agrees` — both, for every compiled flow.
-/

namespace PacketWyrm

open Lib

/-! ## Length fields -/

/-- The length field of the IP header at `o` says how long the frame is: the total length of
IPv4 counts from the header, the payload length of IPv6 from behind it. -/
def IpLength (frame : List Byte) (o : ℕ) (v6 : Bool) : Prop :=
  if v6 then o + 40 + (be16 (frameByte frame) (o + 4)).toNat = frame.length
  else o + (be16 (frameByte frame) (o + 2)).toNat = frame.length

/-- Every length field of the headers says how long the frame is. -/
structure LengthFields (f : PwFlow) (frame : List Byte) : Prop where
  outer : f.encap.present = true → IpLength frame (f.etOff + 2) f.encap.outerIpv6.present
  ip : f.traffic.frameTemplate ≠ .l2raw → IpLength frame f.ipOff f.ipv6.present
  udp : f.traffic.frameTemplate ≠ .l2raw → f.traffic.frameTemplate ≠ .l3raw →
    f.udp.l4Proto ≠ 6#8 → f.l4Off + (be16 (frameByte frame) (f.l4Off + 4)).toNat = frame.length

section Read

variable {w : Window} {o : ℕ}

theorem tot_of_holds {dscp ttl proto : Byte} {tot : ℕ} {csum : BitVec 16} {src dst : BitVec 32}
    (h : Holds w o (ipv4Header dscp tot ttl proto csum src dst)) :
    be16 w (o + 2) = BitVec.ofNat 16 tot := by
  simp only [ipv4Header, holds_append, List.length_append, length_beBytes, List.length_cons,
    List.length_nil, Nat.reduceAdd] at h
  exact be16_of_holds h.1.1.1.1.2

theorem plen_of_holds {dscp hop next : Byte} {plen : ℕ} {src dst : BitVec 128}
    (h : Holds w o (ipv6Header dscp plen next hop src dst)) :
    be16 w (o + 4) = BitVec.ofNat 16 plen := by
  simp only [ipv6Header, holds_append, List.length_append, length_beBytes, List.length_cons,
    List.length_nil, Nat.reduceAdd] at h
  exact be16_of_holds h.1.1.1.2

theorem udpLen_of_holds {r : PwFlowRow} {seq : BitVec 64} {g : GenFields} {payLen : BitVec 12}
    (hudp : r.l4Proto ≠ 6#8) (h : Holds w o (l4Layer r seq g payLen)) :
    be16 w (o + 4) = BitVec.ofNat 16 (r.l4Hl + payLen.toNat) := by
  simp only [l4Layer, if_neg hudp, holds_append, List.length_append, length_beBytes,
    Nat.reduceAdd] at h
  exact be16_of_holds h.2.1

/-- The outer IP header of a tunnel follows its EtherType. -/
theorem outerIp_of_holds {r : PwFlowRow} {g : GenFields} {payLen : BitVec 12}
    (h0 : r.encapType ≠ 0#2) (h : Holds w o (linkLayer r g payLen)) :
    Holds w (o + 2)
      (if r.outerV6 then
        ipv6Header r.outerDscp (encapHdrLen r.encapType + r.ipHl + r.l4Hl + payLen.toNat)
          (encapProto r.encapType r.isV6) r.outerTtl r.outerIpv6Src r.outerIpv6Dst
      else
        ipv4Header r.outerDscp (20 + (encapHdrLen r.encapType + r.ipHl + r.l4Hl + payLen.toNat))
          r.outerTtl (encapProto r.encapType r.isV6) g.ocsum r.outerSrcIpv4 r.outerDstIpv4) := by
  rw [linkLayer, if_pos h0, holds_append, outerHeader] at h
  have houter := h.1
  cases h6 : r.outerV6 with
  | true =>
    rw [if_pos h6, holds_append, length_beBytes] at houter
    exact houter.2
  | false =>
    rw [if_neg (by simp [h6]), holds_append, length_beBytes] at houter
    exact houter.2

end Read

/-! ## What stands before the payload -/

section Offsets

variable {r : PwFlowRow}

/-- The payload of a frame with an L4 header follows it. -/
theorem l4Off_add_l4Hl (h3 : r.frameTemplate ≠ 3#2) (h2 : r.frameTemplate ≠ 2#2) :
    r.l4Off + r.l4Hl = pwFrameBytes r 0 := by
  simp only [pwFrameBytes, if_neg h3, if_neg h2, PwFlowRow.l4Off, PwFlowRow.l4Hl, PwFlowRow.ipOff,
    PwFlowRow.ipHl, PwFlowRow.tunnelOff, PwFlowRow.etOff, encapHdrLen]
  by_cases h0 : r.encapType = 0#2
  · rw [if_pos h0, if_pos h0]
    omega
  · rw [if_neg h0, if_neg h0]
    omega

/-- The payload of a raw IP frame follows the IP header. -/
theorem l4Off_of_l3raw (hraw : r.RawPlain) (h2 : r.frameTemplate = 2#2) :
    r.l4Off = pwFrameBytes r 0 := by
  have h3 : r.frameTemplate ≠ 3#2 := by
    rw [h2]
    decide
  simp only [pwFrameBytes, if_neg h3, if_pos h2, PwFlowRow.l4Off, PwFlowRow.ipOff, PwFlowRow.ipHl,
    PwFlowRow.etOff, if_pos (hraw (.inl h2))]
  omega

/-- The payload comes on top of the headers. -/
theorem pwFrameBytes_add (r : PwFlowRow) (payload : ℕ) :
    pwFrameBytes r payload = pwFrameBytes r 0 + payload := by
  simp only [pwFrameBytes]
  split_ifs <;> omega

end Offsets

/-! ## Frames of a row -/

namespace RowOf

variable {f : PwFlow} {r : PwFlowRow} (hr : RowOf f r) (hf : f.Parsed)
  (hraw : f.traffic.frameTemplate ≠ .test → f.encap.present = false)

include hr hf hraw

/-- **The flow table counts like the compiler.** -/
theorem frameBytes_eq :
    pwFrameBytes r (if r.frameTemplate = 0#2 then 32 else 0) = pwFlowMinLegalFrame f := by
  rw [← hr.minLen_eq hraw hf, PwFlowRow.minLen, payFloor, pwFrameBytes_add]
  split <;> rfl

variable (seq ts : BitVec 64) (cur : BitVec 16)

/-- Headers and payload make up the frame. -/
theorem frameBytes_add_payLen :
    pwFrameBytes r 0 + (r.payLen cur).toNat = (genFrame r seq ts cur).length := by
  have heff : (effLen r.frameLenMin r.frameLenMax cur).toNat < 4096 := by
    have := (hr.effLen_range hf cur).2
    omega
  rw [length_genFrame (hr.rawPlain hraw hf) heff, payLen_add heff]

/-- **The length of a frame** is the swept one, and at least what the compiler counts with. -/
theorem length_genFrame_eq :
    (genFrame r seq ts cur).length =
      max (effLen r.frameLenMin r.frameLenMax cur).toNat (pwFlowMinLegalFrame f) := by
  have heff : (effLen r.frameLenMin r.frameLenMax cur).toNat < 4096 := by
    have := (hr.effLen_range hf cur).2
    omega
  rw [length_genFrame (hr.rawPlain hraw hf) heff, hr.minLen_eq hraw hf]

/-- A frame is short enough for its length fields. -/
theorem length_genFrame_lt : (genFrame r seq ts cur).length < 65536 := by
  have heff := (hr.effLen_range hf cur).2
  have hovh := pwFrameBytes_le r
  have hfloor := payFloor_toNat_le r.frameTemplate
  rw [hr.length_genFrame_eq hf hraw, ← hr.minLen_eq hraw hf, PwFlowRow.minLen]
  omega

/-- The IP header at `o` of a frame, with `n` bytes of the frame behind it. -/
theorem ipLength_of_holds {o n : ℕ} {v6 : Bool} {dscp ttl proto : Byte} {csum : BitVec 16}
    {src dst : BitVec 32} {src6 dst6 : BitVec 128}
    (hlen : o + (if v6 then 40 else 20) + n = (genFrame r seq ts cur).length)
    (h : Holds (frameByte (genFrame r seq ts cur)) o
      (if v6 then ipv6Header dscp n proto ttl src6 dst6
        else ipv4Header dscp (20 + n) ttl proto csum src dst)) :
    IpLength (genFrame r seq ts cur) o v6 := by
  have hlt := hr.length_genFrame_lt hf hraw seq ts cur
  cases v6 with
  | true =>
    simp only [if_true] at h hlen
    rw [IpLength, if_pos rfl, plen_of_holds h, BitVec.toNat_ofNat]
    omega
  | false =>
    simp only [Bool.false_eq_true, if_false] at h hlen
    rw [IpLength, if_neg (by simp), tot_of_holds h, BitVec.toNat_ofNat]
    omega

/-- A frame has the headers of its row. -/
theorem holdsHeaders : HoldsHeaders (frameByte (genFrame r seq ts cur)) r seq ts
    (precompute r seq (r.payLen cur)) (r.payLen cur) := by
  have heff := (hr.effLen_range hf cur).2
  exact holdsHeaders_genFrame (hr.rawPlain hraw hf) (by omega)

/-- The outer header of a tunnel.  Only test frames have one, so all of their headers follow. -/
theorem outerLength (hp : f.encap.present = true) :
    IpLength (genFrame r seq ts cur) (f.etOff + 2) f.encap.outerIpv6.present := by
  have hlen := hr.frameBytes_add_payLen hf hraw seq ts cur
  have hlink := (hr.holdsHeaders hf hraw seq ts cur).link
  have h0 := hr.encapType_ne_zero hf hp
  have ht : r.frameTemplate = 0#2 := (hr.template_eq_iff .test).mpr (template_eq_test hraw hp)
  have hoff := l4Off_add_l4Hl (r := r) (by rw [ht]; decide) (by rw [ht]; decide)
  rw [PwFlowRow.l4Off, PwFlowRow.ipOff, if_neg h0, PwFlowRow.tunnelOff] at hoff
  rw [← hr.etOff_eq, ← hr.outerV6 hp]
  have hbehind : r.etOff + 2 + (if r.outerV6 then 40 else 20) + (encapHdrLen r.encapType + r.ipHl +
      r.l4Hl + (r.payLen cur).toNat) = (genFrame r seq ts cur).length := by omega
  exact hr.ipLength_of_holds hf hraw seq ts cur hbehind (outerIp_of_holds h0 hlink)

/-- The inner IP header, with or without an L4 header behind it. -/
theorem innerLength (h2raw : f.traffic.frameTemplate ≠ .l2raw) :
    IpLength (genFrame r seq ts cur) f.ipOff f.ipv6.present := by
  have hlen := hr.frameBytes_add_payLen hf hraw seq ts cur
  have h3 : r.frameTemplate ≠ 3#2 := mt (hr.template_eq_iff .l2raw).mp h2raw
  have hip := (hr.holdsHeaders hf hraw seq ts cur).ip h3
  have hbehind : r.ipOff + (if r.isV6 then 40 else 20) +
      (if r.frameTemplate = 2#2 then (r.payLen cur).toNat else r.l4Hl + (r.payLen cur).toNat) =
        (genFrame r seq ts cur).length := by
    by_cases h2 : r.frameTemplate = 2#2
    · have hoff := l4Off_of_l3raw (hr.rawPlain hraw hf) h2
      rw [PwFlowRow.l4Off, PwFlowRow.ipHl] at hoff
      rw [if_pos h2]
      omega
    · have hoff := l4Off_add_l4Hl h3 h2
      rw [PwFlowRow.l4Off, PwFlowRow.ipHl] at hoff
      rw [if_neg h2]
      omega
  rw [← hr.ipOff_eq hf, ← hr.isV6]
  exact hr.ipLength_of_holds hf hraw seq ts cur hbehind hip

/-- The UDP header. -/
theorem udpLength (h2raw : f.traffic.frameTemplate ≠ .l2raw)
    (h3raw : f.traffic.frameTemplate ≠ .l3raw) (hudp : f.udp.l4Proto ≠ 6#8) :
    f.l4Off + (be16 (frameByte (genFrame r seq ts cur)) (f.l4Off + 4)).toNat =
      (genFrame r seq ts cur).length := by
  have hlen := hr.frameBytes_add_payLen hf hraw seq ts cur
  have hlt := hr.length_genFrame_lt hf hraw seq ts cur
  have h3 : r.frameTemplate ≠ 3#2 := mt (hr.template_eq_iff .l2raw).mp h2raw
  have h2 : r.frameTemplate ≠ 2#2 := mt (hr.template_eq_iff .l3raw).mp h3raw
  have hl4 := (hr.holdsHeaders hf hraw seq ts cur).l4 h3 h2
  have hoff := l4Off_add_l4Hl h3 h2
  rw [← hr.l4Off_eq hf, udpLen_of_holds (by rwa [hr.l4Proto]) hl4, BitVec.toNat_ofNat]
  omega

/-- **Every length field of a frame says how many bytes follow it.** -/
theorem lengthFields : LengthFields f (genFrame r seq ts cur) :=
  { outer := hr.outerLength hf hraw seq ts cur
    ip := hr.innerLength hf hraw seq ts cur
    udp := hr.udpLength hf hraw seq ts cur }

end RowOf

/-! ## Compiled flows -/

/-- **The shortest legal frame.**  For every flow of a parsed configuration that compiles, the
compiler's shortest frame is the one that the flow table computes from the decoded row, and it
is as long as the headers, the tunnel and the test header that the generator lays out.  Every
frame has the swept length, or that shortest one, and its length fields say how long it is. -/
theorem min_legal_frame_agrees {cfg : PwConfig} {p : PwProgram} (hcfg : cfg.Parsed)
    (h : pwFlowCompile cfg = .ok p) {i : ℕ} {f : PwFlow} (hf : cfg.flows[i]? = some f) :
    ∃ m row r, p.flowMeta[i]? = some m ∧ p.txRowOf m = some row ∧ r = pwDecodeFlowRow row.byte ∧
      pwFrameBytes r (if r.frameTemplate = 0#2 then 32 else 0) = pwFlowMinLegalFrame f ∧
      (∀ seq ts g payLen, (build r seq ts g payLen).header.length = pwFlowMinLegalFrame f) ∧
      ∀ seq ts cur, (genFrame r seq ts cur).length =
          max (effLen r.frameLenMin r.frameLenMax cur).toNat (pwFlowMinLegalFrame f) ∧
        LengthFields f (genFrame r seq ts cur) := by
  obtain ⟨hparsed, hraw, m, row, hm, hrow, hr⟩ := exists_rowOf_of_compile hcfg h hf
  refine ⟨m, row, _, hm, hrow, rfl, ?_⟩
  refine ⟨hr.frameBytes_eq hparsed hraw, ?_, ?_⟩
  · intro seq ts g payLen
    rw [length_header (hr.rawPlain hraw hparsed), hr.minLen_eq hraw hparsed]
  · intro seq ts cur
    exact ⟨hr.length_genFrame_eq hparsed hraw seq ts cur, hr.lengthFields hparsed hraw seq ts cur⟩

/-- A sample flow of 128 bytes over a shortest frame of 74. -/
theorem min_legal_frame_agrees_sample :
    ∃ p m row, pwFlowCompile sampleHeaderConfig = .ok p ∧ p.flowMeta[0]? = some m ∧
      p.txRowOf m = some row ∧ pwFlowMinLegalFrame (sampleHeaderFlow 1 0x0A000002) = 74 ∧
      ∀ seq ts cur, LengthFields (sampleHeaderFlow 1 0x0A000002)
        (genFrame (pwDecodeFlowRow row.byte) seq ts cur) := by
  obtain ⟨p, hp, -⟩ := exists_of_okAnd
    (show okAnd (pwFlowCompile sampleHeaderConfig) (fun _ => true) = true by decide +kernel)
  obtain ⟨m, row, r, hm, hrow, rfl, -, -, hlen⟩ := min_legal_frame_agrees
    parsed_sampleHeaderConfig hp (i := 0) (f := sampleHeaderFlow 1 0x0A000002) rfl
  exact ⟨p, m, row, hp, hm, hrow, by decide, fun seq ts cur => (hlen seq ts cur).2⟩

end PacketWyrm
