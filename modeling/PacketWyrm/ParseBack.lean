import PacketWyrm.HeaderFields

/-!
# Generated frames in the parser

The parser descends through the headers that the generator wrote and finds the
fields that were put there: the tag, the EtherType of the outermost IP header,
and the addresses and ports of the innermost one.  After the headers of a raw
frame there are zeros, and the parser reads these as fields too.

One frame does not come back: a raw L2 frame without a tag whose EtherType is
that of a tag.  The parser takes the first zeros of its payload for the tag.

## Main definitions

* `PwFlow.FakesTag` — the flow sends frames that look tagged and are not.
* `KeyOf f seq k` — the fields of the key `k` that a classifier of headers reads
  are those of the flow's frame.

## Main results

* `keyOf_parseFrame` — a frame of a flow parses to a key of the flow.
* `not_keyValid_of_fakesTag` — a frame that fakes a tag has no key.
-/

namespace PacketWyrm

open Lib

/-- A raw L2 frame without a tag that has the EtherType of one. -/
def PwFlow.FakesTag (f : PwFlow) : Prop :=
  f.traffic.frameTemplate = .l2raw ∧ f.l2.vlanSet = false ∧ f.l2.ethertype = 0x8100

instance (f : PwFlow) : Decidable f.FakesTag :=
  inferInstanceAs (Decidable (_ ∧ _ ∧ _))

/-! ## Reads of zeros -/

section Zeros

variable {w : Window} {o : ℕ} (h : ∀ i, o ≤ i → w i = 0)

include h

theorem be16_zero {i : ℕ} (hi : o ≤ i) : be16 w i = 0 := by
  rw [be16, h i hi, h (i + 1) (by omega)]
  rfl

theorem be32_zero {i : ℕ} (hi : o ≤ i) : be32 w i = 0 := by
  rw [be32, be16_zero h hi, be16_zero h (by omega)]
  rfl

theorem be128_zero {i : ℕ} (hi : o ≤ i) : be128 w i = 0 := by
  rw [be128, be64, be64, be32_zero h hi, be32_zero h (by omega), be32_zero h (by omega),
    be32_zero h (by omega)]
  rfl

end Zeros

/-- The id of a tag is the low part of its two bytes. -/
theorem tagVid_eq (w : Window) (i : ℕ) : tagVid w i = (be16 w i).setWidth 12 := by
  rw [tagVid, be16]
  ext b hb
  simp only [BitVec.getElem_append, BitVec.getElem_setWidth, BitVec.getLsbD_append]
  by_cases h8 : b < 8 <;> simp [h8]

/-! ## Stage A -/

section Sent

variable {f : PwFlow} {seq : BitVec 64} {frame : List Byte} (H : Sent f seq frame)

theorem familyEt_cases (v6 : Bool) :
    PwFlow.familyEt v6 = 0x0800#16 ∨ PwFlow.familyEt v6 = 0x86DD#16 := by
  cases v6
  · exact Or.inl rfl
  · exact Or.inr rfl

/-- The EtherType of a frame is that of an address family, or set by hand. -/
theorem PwFlow.etAt_cases (f : PwFlow) :
    (f.etAt = 0x0800#16 ∨ f.etAt = 0x86DD#16) ∨
      f.traffic.frameTemplate = .l2raw ∧ f.etAt = f.l2.ethertype := by
  rw [PwFlow.etAt]
  split
  · exact Or.inl (familyEt_cases _)
  · split
    · rename_i h
      exact Or.inr ⟨h.1, rfl⟩
    · exact Or.inl (familyEt_cases _)

include H

/-- The L2 fields of a frame of the flow. -/
theorem Sent.parseL2 (hno : ¬f.FakesTag) (port : BitVec 4) :
    parseL2 port (frameByte frame) frame.length =
      ({ ingressPort := port, vlanValid := f.l2.vlanSet
         vlanId := if f.l2.vlanSet then f.vlanAt seq else 0, ethertype := f.etAt },
        f.etOff + 2) := by
  have hlen := H.lenLo
  have het := H.ethertype
  rw [PacketWyrm.parseL2]
  cases hv : f.l2.vlanSet with
  | true =>
    obtain ⟨h12, h14⟩ := H.tag hv
    have hoff : f.etOff = 16 := by simp [PwFlow.etOff, hv]
    rw [hoff] at het ⊢
    have hvid : tagVid (frameByte frame) 14 = f.vlanAt seq := by
      rw [tagVid_eq, h14, BitVec.setWidth_append_eq_right]
    have h18 : 18 ≤ frame.length := by omega
    simp [h12, hvid, het, h18]
  | false =>
    have hoff : f.etOff = 12 := by simp [PwFlow.etOff, hv]
    rw [hoff] at het ⊢
    -- neither one tag nor two
    have h1 : f.etAt ≠ 0x8100 := by
      intro h
      rcases f.etAt_cases with het | ⟨h2, het⟩
      · rw [h] at het
        revert het
        decide
      · exact hno ⟨h2, hv, het ▸ h⟩
    have h2 : ¬((f.etAt = 0x88A8 ∨ f.etAt = 0x9100) ∧ 22 ≤ frame.length ∧
        be16 (frameByte frame) 16 = 0x8100) := by
      intro h
      obtain ⟨htag, -, h16⟩ := h
      rcases f.etAt_cases with het | ⟨h2, -⟩
      · rcases het with het | het <;> rw [het] at htag <;> revert htag <;> decide
      · have hz := H.rawL2 h2
        rw [hoff] at hz
        rw [be16_zero hz (by omega)] at h16
        exact absurd h16 (by decide)
    rw [het, if_neg h2, if_neg (fun h => h1 h.1)]
    simp

/-- The smallest frame has room for the inner IP header, and for the ports after
it where the template has them. -/
theorem Sent.l4Off_le (hraw : f.traffic.frameTemplate ≠ .test → f.encap.present = false)
    (h2 : f.traffic.frameTemplate ≠ .l2raw) :
    f.l4Off ≤ frame.length ∧
      (f.traffic.frameTemplate ≠ .l3raw → f.l4Off + 8 ≤ frame.length) := by
  have hfits := H.fits
  have hl4 : 8 ≤ if f.udp.l4Proto = 6#8 then 20 else 8 := by split <;> decide
  rw [PwFlow.l4Off, PwFlow.ipOff, PwFlow.tunnelOff, PwFlow.tunnelLen, PwFlow.etOff]
  rw [pwFlowMinLegalFrame] at hfits
  cases hp : f.encap.present with
  | false =>
    cases ht : f.traffic.frameTemplate <;> rw [ht] at hfits <;>
      simp [hp] at hfits ⊢ <;> first | exact absurd ht h2 | omega
  | true =>
    have ht := template_eq_test hraw hp
    rw [ht] at hfits
    cases htype : f.encap.type <;> simp [hp, htype] at hfits ⊢ <;> omega

/-- The outer header of a tunnel, as the parser reads it. -/
theorem Sent.outerProto (hraw : f.traffic.frameTemplate ≠ .test → f.encap.present = false)
    (hp : f.encap.present = true) :
    outerProto (frameByte frame) frame.length (f.etOff + 2) (f.etAt == 0x0800) (f.etAt == 0x86DD) =
      (f.tunnelProto, if f.encap.outerIpv6.present then 40 else 20) := by
  have h2 : f.traffic.frameTemplate ≠ .l2raw := by
    rw [template_eq_test hraw hp]
    decide
  have hroom := (H.l4Off_le hraw h2).1
  have het : f.etAt = PwFlow.familyEt f.encap.outerIpv6.present := by rw [PwFlow.etAt, if_pos hp]
  rw [PwFlow.l4Off, PwFlow.ipOff, if_pos hp, PwFlow.tunnelOff] at hroom
  have houter := H.outer hp
  rw [CarriesIp] at houter
  rw [het, PacketWyrm.outerProto]
  cases ho : f.encap.outerIpv6.present with
  | true =>
    rw [ho, if_pos rfl] at houter
    rw [ho] at hroom
    have h40 : f.etOff + 2 + 40 ≤ frame.length := by simp at hroom; omega
    simp [PwFlow.familyEt, h40, houter.proto]
  | false =>
    rw [ho, if_neg (by simp)] at houter
    rw [ho] at hroom
    have h20 : f.etOff + 2 + 20 ≤ frame.length := by simp at hroom; omega
    simp [PwFlow.familyEt, h20, houter.proto, houter.version]

end Sent

/-- Without a tunnel protocol the outer header is the effective one. -/
theorem descend_of_none {hdr : Window} {flen l3Off : ℕ} {et : BitVec 16}
    (h : Encap.ofProto (outerProto hdr flen l3Off (et == 0x0800) (et == 0x86DD)).1 = .none) :
    descend hdr flen l3Off et =
      { effOff := l3Off, innerV4 := et == 0x0800, innerV6 := et == 0x86DD } := by
  rw [descend]
  generalize outerProto hdr flen l3Off (et == 0x0800) (et == 0x86DD) = o at h ⊢
  obtain ⟨oProto, oHlen⟩ := o
  simp only at h ⊢
  rw [if_neg (by simp [h])]

/-- The family of the effective header is IPv6. -/
def PwFlow.keyV6 (f : PwFlow) : Bool :=
  if f.traffic.frameTemplate = .l2raw then f.etAt == 0x86DD else f.ipv6.present

/-- The family of the effective header is IPv4. -/
def PwFlow.keyV4 (f : PwFlow) : Bool :=
  if f.traffic.frameTemplate = .l2raw then f.etAt == 0x0800 else !f.ipv6.present

section Sent

variable {f : PwFlow} {seq : BitVec 64} {frame : List Byte} (H : Sent f seq frame)

include H

/-- The parser descends into the tunnel of the flow. -/
theorem Sent.descend_encap (hf : f.Parsed)
    (hraw : f.traffic.frameTemplate ≠ .test → f.encap.present = false)
    (hp : f.encap.present = true) :
    descend (frameByte frame) frame.length (f.etOff + 2) f.etAt =
      { effOff := f.ipOff, innerV4 := !f.ipv6.present, innerV6 := f.ipv6.present } := by
  have h2 : f.traffic.frameTemplate ≠ .l2raw := by
    rw [template_eq_test hraw hp]
    decide
  have hroom := (H.l4Off_le hraw h2).1
  have hoff : f.ipOff = f.tunnelOff + f.tunnelLen := by rw [PwFlow.ipOff, if_pos hp]
  have hle : f.tunnelOff + f.tunnelLen ≤ frame.length := by
    rw [PwFlow.l4Off, hoff] at hroom
    omega
  have hv : f.etAt = 0x0800#16 ∨ f.etAt = 0x86DD#16 := by
    rw [PwFlow.etAt, if_pos hp]
    exact familyEt_cases _
  have hhlen : 20 ≤ if f.encap.outerIpv6.present = true then 40 else 20 := by split <;> decide
  have htun := H.tunnel hp
  have hne := hf.encapType hp
  rw [PwFlow.CarriesTunnel] at htun
  rw [descend, H.outerProto hraw hp, hoff]
  simp only
  rw [← PwFlow.tunnelOff]
  cases ht : f.encap.type with
  | none => exact absurd ht hne
  | ipip =>
    have hproto : f.tunnelProto = if f.ipv6.present then 41 else 4 := by rw [PwFlow.tunnelProto, ht]
    have hlen0 : f.tunnelLen = 0 := by rw [PwFlow.tunnelLen, ht]
    rw [hlen0] at hle
    rw [hproto, hlen0]
    cases f.ipv6.present <;> simp [Encap.ofProto, Encap.hlen, hhlen, hv] <;> omega
  | gre =>
    rw [ht] at htun
    obtain ⟨hzero, het⟩ := htun
    have hproto : f.tunnelProto = 47 := by rw [PwFlow.tunnelProto, ht]
    have hlen4 : f.tunnelLen = 4 := by rw [PwFlow.tunnelLen, ht]
    rw [hlen4] at hle
    have hflag : greFlagged (frameByte frame) f.tunnelOff = false := by
      have hbytes := append_eq_append_iff.mp
        (show frameByte frame f.tunnelOff ++ frameByte frame (f.tunnelOff + 1) = 0#8 ++ 0#8 from
          hzero)
      rw [greFlagged, hbytes.1, hbytes.2]
      decide
    rw [hproto, hlen4]
    cases h6 : f.ipv6.present <;> rw [h6] at het <;>
      simp [Encap.ofProto, Encap.hlen, hhlen, hv, hle, hflag, het, PwFlow.familyEt]
  | etherip =>
    rw [ht] at htun
    obtain ⟨-, -, -, het⟩ := htun
    have hproto : f.tunnelProto = 97 := by rw [PwFlow.tunnelProto, ht]
    have hlen16 : f.tunnelLen = 16 := by rw [PwFlow.tunnelLen, ht]
    rw [hlen16] at hle
    rw [hproto, hlen16]
    cases h6 : f.ipv6.present <;> rw [h6] at het <;>
      simp [Encap.ofProto, Encap.hlen, hhlen, hv, hle, het, PwFlow.familyEt]

/-- The parser finds the inner header of the flow. -/
theorem Sent.descend (hf : f.Parsed)
    (hraw : f.traffic.frameTemplate ≠ .test → f.encap.present = false) :
    descend (frameByte frame) frame.length (f.etOff + 2) f.etAt =
      { effOff := f.ipOff, innerV4 := f.keyV4, innerV6 := f.keyV6 } := by
  cases hp : f.encap.present with
  | true =>
    have h2 : f.traffic.frameTemplate ≠ .l2raw := by
      rw [template_eq_test hraw hp]
      decide
    rw [H.descend_encap hf hraw hp, PwFlow.keyV4, PwFlow.keyV6, if_neg h2, if_neg h2]
  | false =>
    have hoff : f.ipOff = f.etOff + 2 := by rw [PwFlow.ipOff, if_neg (by simp [hp])]
    by_cases h2 : f.traffic.frameTemplate = .l2raw
    · -- zeros are no tunnel protocol
      have hz := H.rawL2 h2
      rw [descend_of_none, hoff, PwFlow.keyV4, PwFlow.keyV6, if_pos h2, if_pos h2]
      rw [PacketWyrm.outerProto]
      split
      · rw [hz _ (by omega)]
        rfl
      · split
        · rw [hz _ (by omega)]
          rfl
        · rfl
    · -- neither is UDP or TCP
      have het : f.etAt = PwFlow.familyEt f.ipv6.present := by
        rw [PwFlow.etAt, if_neg (by simp [hp]), if_neg (by simp [h2])]
      have hl4 : Encap.ofProto f.udp.l4Proto = .none := by
        rcases hf.l4Proto with h | h <;> rw [h] <;> decide
      have hip := H.ip h2
      rw [hoff, CarriesIp] at hip
      have hplain : Encap.ofProto (PacketWyrm.outerProto (frameByte frame) frame.length
          (f.etOff + 2) (f.etAt == 0x0800) (f.etAt == 0x86DD)).1 = .none := by
        rw [PacketWyrm.outerProto, het]
        cases h6 : f.ipv6.present with
        | true =>
          rw [if_pos h6] at hip
          split
          · rw [hip.proto, hl4]
          · simp [PwFlow.familyEt, Encap.ofProto]
        | false =>
          rw [if_neg (by simp [h6])] at hip
          rw [if_neg (by simp [PwFlow.familyEt])]
          split
          · rw [hip.proto, hl4]
          · decide
      rw [descend_of_none hplain, hoff, PwFlow.keyV4, PwFlow.keyV6, if_neg h2, if_neg h2, het]
      cases f.ipv6.present <;> rfl

end Sent

/-! ## The key -/

namespace PwFlow

variable (f : PwFlow)

/-- The template has an L4 header. -/
def hasL4 : Bool := f.traffic.frameTemplate == .test || f.traffic.frameTemplate == .l4raw

/-- The protocol of the effective header. -/
def keyProto : Byte := if f.traffic.frameTemplate = .l2raw then 0 else f.udp.l4Proto

/-- The source port that the parser reads. -/
def keySrcPort (seq : BitVec 64) : BitVec 16 := if f.hasL4 then f.srcPortAt seq else 0

/-- The destination port that the parser reads. -/
def keyDstPort (seq : BitVec 64) : BitVec 16 := if f.hasL4 then f.dstPortAt seq else 0

/-- The source address that the parser reads, in the bits of either family. -/
def keySrc (seq : BitVec 64) : BitVec 128 :=
  if f.traffic.frameTemplate = .l2raw then 0
  else if f.ipv6.present then f.srcIpv6At seq else 0#96 ++ f.srcIpv4At seq

/-- The destination address that the parser reads. -/
def keyDst (seq : BitVec 64) : BitVec 128 :=
  if f.traffic.frameTemplate = .l2raw then 0
  else if f.ipv6.present then f.dstIpv6At seq else 0#96 ++ f.dstIpv4At seq

end PwFlow

/-- The fields of a key that the hash is made of are those of the flow's frame
with sequence number `seq`. -/
structure KeyOf (f : PwFlow) (seq : BitVec 64) (k : PwMatchKey) : Prop where
  ethertype : k.ethertype = f.etAt
  vlanId : k.vlanId = if f.l2.vlanSet then f.vlanAt seq else 0
  innerVlanValid : k.innerVlanValid = false
  l3Proto : k.l3Proto = f.keyProto
  src : (if k.isIpv6 then k.ipv6Src else 0#96 ++ k.ipv4Src) = f.keySrc seq
  dst : (if k.isIpv6 then k.ipv6Dst else 0#96 ++ k.ipv4Dst) = f.keyDst seq
  l4Src : k.l4Src = f.keySrcPort seq
  l4Dst : k.l4Dst = f.keyDstPort seq

/-- The key after stage A. -/
def PwFlow.keyA (f : PwFlow) (seq : BitVec 64) (port : BitVec 4) : PwMatchKey :=
  { ingressPort := port, vlanValid := f.l2.vlanSet
    vlanId := if f.l2.vlanSet then f.vlanAt seq else 0, ethertype := f.etAt
    isArp := f.etAt == 0x0806, isIpv4 := f.keyV4, isIpv6 := f.keyV6 }

section Sent

variable {f : PwFlow} {seq : BitVec 64} {frame : List Byte} (H : Sent f seq frame)

include H

theorem Sent.flen : (BitVec.ofNat 16 frame.length).toNat = frame.length := by
  have := H.lenHi
  rw [BitVec.toNat_ofNat]
  omega

/-- The ports after the effective header. -/
theorem Sent.parsePorts (hraw : f.traffic.frameTemplate ≠ .test → f.encap.present = false)
    (h2 : f.traffic.frameTemplate ≠ .l2raw) {k : PwMatchKey}
    (hk : k.isUdp = true ∨ k.isTcp = true) (hnone : k.withPorts 0 0 = k) :
    parsePorts k (frameByte frame) frame.length f.l4Off =
      k.withPorts (f.keySrcPort seq) (f.keyDstPort seq) := by
  obtain ⟨-, hroom⟩ := H.l4Off_le hraw h2
  rw [PacketWyrm.parsePorts, PwFlow.keySrcPort, PwFlow.keyDstPort]
  by_cases h3 : f.traffic.frameTemplate = .l3raw
  · -- zeros, read or not
    have hl4 : f.hasL4 = false := by simp [PwFlow.hasL4, h3]
    have hz := H.rawL3 h3
    have h0 : be16 (frameByte frame) f.l4Off = 0 := be16_zero hz (Nat.le_refl _)
    have h1 : be16 (frameByte frame) (f.l4Off + 2) = 0 := be16_zero hz (Nat.le_add_right _ _)
    simp only [hl4, Bool.false_eq_true, if_false, h0, h1]
    split
    · rfl
    · exact hnone.symm
  · have hl4 : f.hasL4 = true := by
      cases ht : f.traffic.frameTemplate <;> simp_all [PwFlow.hasL4]
    obtain ⟨hs, hd, -⟩ := H.l4 h2 h3
    have := hroom h3
    rw [hl4, if_pos rfl, if_pos rfl, if_pos ⟨hk, by omega⟩, hs, hd]

/-- The registers of stage A for a frame of the flow. -/
theorem Sent.stageA (hf : f.Parsed)
    (hraw : f.traffic.frameTemplate ≠ .test → f.encap.present = false) (hno : ¬f.FakesTag)
    (port : BitVec 4) :
    stageA true port (frameByte frame) (BitVec.ofNat 16 frame.length) =
      { key := f.keyA seq port, valid := true, effOff := BitVec.ofNat 16 f.ipOff
        innerV4 := f.keyV4, innerV6 := f.keyV6, flen := BitVec.ofNat 16 frame.length
        hdr := frameByte frame } := by
  have hlen := H.lenLo
  rw [PacketWyrm.stageA, H.flen, if_pos ⟨rfl, by omega⟩, H.parseL2 hno port]
  simp only
  rw [H.descend hf hraw]
  rfl

omit H in
/-- Zeros read as an IPv6 header. -/
theorem parseV6_zeros {w : Window} {eff : ℕ} (hz : ∀ i, eff ≤ i → w i = 0) (k : PwMatchKey)
    (flen : ℕ) :
    (parseV6 k w flen eff).1 =
      { k with l3Proto := 0, ipv6Src := 0, ipv6Dst := 0, isTcp := false, isUdp := false
               isIcmp6 := false } := by
  rw [parseV6, hz _ (by omega), be128_zero hz (by omega), be128_zero hz (by omega)]
  simp [PacketWyrm.parsePorts]

omit H in
/-- Zeros read as an IPv4 header, of length 0. -/
theorem parseV4_zeros {w : Window} {eff : ℕ} (hz : ∀ i, eff ≤ i → w i = 0) (k : PwMatchKey)
    (flen : ℕ) :
    (parseV4 k w flen eff).1 =
      { k with l3Proto := 0, ipv4Src := 0, ipv4Dst := 0, isIcmp := false, isTcp := false
               isUdp := false, isOspf := false } := by
  rw [parseV4, hz (eff + 9) (by omega), hz eff (Nat.le_refl _), be32_zero hz (by omega),
    be32_zero hz (by omega)]
  simp

/-- The inner header of an IPv6 flow. -/
theorem Sent.parseV6 (hf : f.Parsed)
    (hraw : f.traffic.frameTemplate ≠ .test → f.encap.present = false)
    (h2 : f.traffic.frameTemplate ≠ .l2raw) (h6 : f.ipv6.present = true) {k : PwMatchKey}
    (hnone : k.withPorts 0 0 = k) :
    (parseV6 k (frameByte frame) frame.length f.ipOff).1 =
      { k.withPorts (f.keySrcPort seq) (f.keyDstPort seq) with
        l3Proto := f.udp.l4Proto, ipv6Src := f.srcIpv6At seq, ipv6Dst := f.dstIpv6At seq
        isTcp := f.udp.l4Proto == 6, isUdp := f.udp.l4Proto == 17
        isIcmp6 := f.udp.l4Proto == 58 } := by
  have hip := H.ip h2
  rw [CarriesIp, if_pos h6] at hip
  have hoff : f.l4Off = f.ipOff + 40 := by rw [PwFlow.l4Off, if_pos h6]
  rw [PacketWyrm.parseV6, hip.proto, hip.src, hip.dst, ← hoff]
  apply H.parsePorts hraw h2
  · rcases hf.l4Proto with h | h <;> simp [h]
  · rw [← hnone]
    rfl

/-- The inner header of an IPv4 flow. -/
theorem Sent.parseV4 (hf : f.Parsed)
    (hraw : f.traffic.frameTemplate ≠ .test → f.encap.present = false)
    (h2 : f.traffic.frameTemplate ≠ .l2raw) (h6 : f.ipv6.present = false) {k : PwMatchKey}
    (hnone : k.withPorts 0 0 = k) :
    (parseV4 k (frameByte frame) frame.length f.ipOff).1 =
      { k.withPorts (f.keySrcPort seq) (f.keyDstPort seq) with
        l3Proto := f.udp.l4Proto, ipv4Src := f.srcIpv4At seq, ipv4Dst := f.dstIpv4At seq
        isIcmp := f.udp.l4Proto == 1, isTcp := f.udp.l4Proto == 6, isUdp := f.udp.l4Proto == 17
        isOspf := f.udp.l4Proto == 89 } := by
  have hip := H.ip h2
  rw [CarriesIp, if_neg (by simp [h6])] at hip
  have hoff : f.l4Off = f.ipOff + 20 := by rw [PwFlow.l4Off, if_neg (by simp [h6])]
  rw [PacketWyrm.parseV4, hip.proto, hip.src, hip.dst, hip.version]
  have hihl : ((0x45#8 : BitVec 8).setWidth 4).toNat * 4 = 20 := by decide
  rw [hihl, if_pos (Nat.le_refl 20), ← hoff]
  apply H.parsePorts hraw h2
  · rcases hf.l4Proto with h | h <;> simp [h]
  · rw [← hnone]
    rfl

/-- The effective header is in the frame. -/
theorem Sent.ipOff_le (hraw : f.traffic.frameTemplate ≠ .test → f.encap.present = false) :
    (f.keyV6 = true → f.ipOff + 40 ≤ frame.length) ∧
      (f.keyV4 = true → f.ipOff + 20 ≤ frame.length) ∧ f.ipOff < 2 ^ 16 := by
  have hlo := H.lenLo
  have hhi := H.lenHi
  rw [PwFlow.keyV6, PwFlow.keyV4]
  by_cases h2 : f.traffic.frameTemplate = .l2raw
  · have hp : f.encap.present = false := hraw (by simp [h2])
    have hoff : f.ipOff ≤ 18 := by
      rw [PwFlow.ipOff, if_neg (by simp [hp]), PwFlow.etOff]
      split <;> omega
    exact ⟨fun _ => by omega, fun _ => by omega, by omega⟩
  · have hroom := (H.l4Off_le hraw h2).1
    rw [PwFlow.l4Off] at hroom
    rw [if_neg h2, if_neg h2]
    refine ⟨?_, ?_, by omega⟩
    · intro h6
      rw [if_pos h6] at hroom
      exact hroom
    · intro h4
      rw [if_neg (by simpa using h4)] at hroom
      exact hroom

/-- **Stage A2 gives a frame of the flow a key of the flow.** -/
theorem Sent.stageA2 (hf : f.Parsed)
    (hraw : f.traffic.frameTemplate ≠ .test → f.encap.present = false) (het : f.etAt ≠ 0)
    (port : BitVec 4) {a : StageA}
    (ha : a =
      { key := f.keyA seq port, valid := true, effOff := BitVec.ofNat 16 f.ipOff
        innerV4 := f.keyV4, innerV6 := f.keyV6, flen := BitVec.ofNat 16 frame.length
        hdr := frameByte frame }) :
    (stageA2 a).valid = true ∧ KeyOf f seq (stageA2 a).key := by
  obtain ⟨hroom6, hroom4, hsmall⟩ := H.ipOff_le hraw
  have heff : (BitVec.ofNat 16 f.ipOff).toNat = f.ipOff := by
    rw [BitVec.toNat_ofNat, Nat.mod_eq_of_lt hsmall]
  rw [ha]
  simp only [PacketWyrm.stageA2, if_true, heff, H.flen]
  by_cases h2 : f.traffic.frameTemplate = .l2raw
  · -- whatever header the EtherType announces is read as zeros
    have hp : f.encap.present = false := hraw (by simp [h2])
    have hz : ∀ i, f.ipOff ≤ i → frameByte frame i = 0 := by
      rw [PwFlow.ipOff, if_neg (by simp [hp])]
      exact H.rawL2 h2
    have hl4 : f.hasL4 = false := by simp [PwFlow.hasL4, h2]
    by_cases h6 : f.keyV6 = true
    · rw [if_pos ⟨h6, hroom6 h6⟩]
      refine ⟨rfl, ?_⟩
      rw [parseV6_zeros hz]
      constructor <;> simp [PwFlow.keyA, PwFlow.keyProto, PwFlow.keySrc, PwFlow.keyDst,
        PwFlow.keySrcPort, PwFlow.keyDstPort, h2, hl4, h6]
    · rw [if_neg (fun h => h6 h.1)]
      by_cases h4 : f.keyV4 = true
      · rw [if_pos ⟨h4, hroom4 h4⟩]
        refine ⟨rfl, ?_⟩
        rw [parseV4_zeros hz]
        constructor <;> simp [PwFlow.keyA, PwFlow.keyProto, PwFlow.keySrc, PwFlow.keyDst,
          PwFlow.keySrcPort, PwFlow.keyDstPort, h2, hl4, h6]
      · rw [if_neg (fun h => h4 h.1)]
        refine ⟨by simpa [PwFlow.keyA] using het, ?_⟩
        constructor <;> simp [PwFlow.keyA, PwFlow.keyProto, PwFlow.keySrc, PwFlow.keyDst,
          PwFlow.keySrcPort, PwFlow.keyDstPort, h2, hl4, h6]
  · cases h6 : f.ipv6.present with
    | true =>
      have hv6 : f.keyV6 = true := by rw [PwFlow.keyV6, if_neg h2, h6]
      rw [if_pos ⟨hv6, hroom6 hv6⟩]
      refine ⟨rfl, ?_⟩
      rw [H.parseV6 hf hraw h2 h6 rfl]
      constructor <;> simp [PwFlow.keyA, PwMatchKey.withPorts, PwFlow.keyProto, PwFlow.keySrc,
        PwFlow.keyDst, h2, h6, hv6]
    | false =>
      have hv6 : f.keyV6 = false := by rw [PwFlow.keyV6, if_neg h2, h6]
      have hv4 : f.keyV4 = true := by rw [PwFlow.keyV4, if_neg h2, h6]; rfl
      rw [if_neg (by simp [hv6]), if_pos ⟨hv4, hroom4 hv4⟩]
      refine ⟨rfl, ?_⟩
      rw [H.parseV4 hf hraw h2 h6 rfl]
      constructor <;> simp [PwFlow.keyA, PwMatchKey.withPorts, PwFlow.keyProto, PwFlow.keySrc,
        PwFlow.keyDst, h2, h6, hv6]

omit H in
/-- Stage B reads the test header, and no field of `KeyOf`. -/
theorem KeyOf.stageB {a : StageA2} (h : KeyOf f seq a.key) : KeyOf f seq (stageB a).key := by
  rw [PacketWyrm.stageB]
  cases a.testElig
  · exact h
  · exact ⟨h.ethertype, h.vlanId, h.innerVlanValid, h.l3Proto, h.src, h.dst, h.l4Src, h.l4Dst⟩

/-- The window holds the frame's own bytes, up to its end or that of the frame. -/
theorem Sent.capture_sameBytes (old : Window) :
    SameBytes (BitVec.ofNat 16 frame.length).toNat (capture old frame) (frameByte frame) := by
  have hhi := H.lenHi
  intro i hi
  rw [H.flen] at hi
  rw [capture]
  split
  · have hidx : i + 2 ^ 16 * ((frame.length - 1 - i) / 2 ^ 16) = i := by omega
    rw [hidx, frameByte, List.getD_eq_getElem?_getD, List.getElem?_eq_getElem hi]
    rfl
  · rename_i hout
    exact (H.afterHdr i (by omega)).symm

/-- What the parser says of a frame of the flow, whatever came before. -/
theorem Sent.parseFrame (old : Window) (port : BitVec 4) :
    parseFrame old ⟨port, frame⟩ =
      { parserOut port (frameByte frame) (BitVec.ofNat 16 frame.length) with
        window := capture old frame } :=
  parserOut_congr (H.capture_sameBytes old) port

/-- **A frame of a flow parses to a key of the flow.** -/
theorem keyOf_parseFrame (hf : f.Parsed)
    (hraw : f.traffic.frameTemplate ≠ .test → f.encap.present = false) (hno : ¬f.FakesTag)
    (het : f.etAt ≠ 0) (old : Window) (port : BitVec 4) :
    (parseFrame old ⟨port, frame⟩).keyValid = true ∧
      KeyOf f seq (parseFrame old ⟨port, frame⟩).key := by
  obtain ⟨hvalid, hkey⟩ := H.stageA2 hf hraw het port (H.stageA hf hraw hno port)
  rw [H.parseFrame old port]
  exact ⟨hvalid, hkey.stageB⟩

/-- **A frame that fakes a tag has no key.**  The EtherType after the tag is
read from the zeros of its payload. -/
theorem not_keyValid_of_fakesTag
    (hraw : f.traffic.frameTemplate ≠ .test → f.encap.present = false) (hfake : f.FakesTag)
    (old : Window) (port : BitVec 4) :
    (parseFrame old ⟨port, frame⟩).keyValid = false := by
  obtain ⟨h2, hv, hset⟩ := hfake
  have hp : f.encap.present = false := hraw (by simp [h2])
  have hlen := H.lenLo
  have hz := H.rawL2 h2
  have h12 := H.ethertype
  have hoff : f.etOff = 12 := by simp [PwFlow.etOff, hv]
  have het : f.etAt = 0x8100 := by simp [PwFlow.etAt, hp, h2, hset]
  rw [hoff] at hz
  rw [hoff, het] at h12
  have h16 : be16 (frameByte frame) 16 = 0 := be16_zero hz (by omega)
  have hl2 : PacketWyrm.parseL2 port (frameByte frame) frame.length =
      ({ ingressPort := port, vlanValid := true, vlanId := tagVid (frameByte frame) 14
         ethertype := 0 }, 18) := by
    have h18 : 18 ≤ frame.length := by omega
    simp [PacketWyrm.parseL2, h12, h16, h18]
  have hnone : PacketWyrm.descend (frameByte frame) frame.length 18 0 =
      { effOff := 18, innerV4 := false, innerV6 := false } :=
    descend_of_none (by simp [PacketWyrm.outerProto, Encap.ofProto])
  have hA : (stageA2 (PacketWyrm.stageA true port (frameByte frame)
      (BitVec.ofNat 16 frame.length))).valid = false := by
    rw [PacketWyrm.stageA, H.flen, if_pos ⟨rfl, by omega⟩, hl2]
    simp only [hnone]
    simp [PacketWyrm.stageA2]
  rw [H.parseFrame old port]
  exact hA

end Sent

end PacketWyrm
