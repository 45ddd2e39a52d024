import PacketWyrm.ParseBack

/-!
# Generated test frames parse back

A frame of the test template carries the test header right after its L4 header.
The parser recomputes where that is from the bytes of the frame: through the
tag, the tunnel and the inner headers.  The deepest stack still leaves room for
the test header in the captured window.

## Main definitions

* `InnerOf` — a key has the inner addresses, ports and protocol of a frame.
* `TestKeyOf` — and the test header's flow, sequence number and time stamp.

## Main results

* `stageA2_of_test` — the parser finds the test header.
* `test_frame_parses_back` — every test frame of every compiled flow.
-/

namespace PacketWyrm

open Lib

/-! ## The test header in the frame -/

/-- The fields of a test header in a window. -/
structure ReadsTest (w : Window) (o : ℕ) (flowId : BitVec 32) (seq ts : BitVec 64) : Prop where
  magic : be32 w o = testHdrMagic
  flowId : be32 w (o + 8) = flowId
  seq : be64 w (o + 12) = seq
  ts : be64 w (o + 20) = ts

theorem readsTest_of_holds {w : Window} {o : ℕ} {r : PwFlowRow} {seq ts : BitVec 64}
    (h : Holds w o (testHeader r seq ts)) : ReadsTest w o r.flowId seq ts := by
  simp only [testHeader, holds_append, holds_cons, List.length_append, length_beBytes,
    List.length_cons, List.length_nil, Nat.reduceAdd] at h
  exact ⟨be32_of_holds h.1.1.1.1.1, be32_of_holds h.1.1.1.2, be64_of_holds h.1.1.2,
    be64_of_holds h.1.2⟩

/-- **A generated test frame has its test header after the L4 header.** -/
theorem readsTest_genFrame {f : PwFlow} {r : PwFlowRow} (hr : RowOf f r) (hf : f.Parsed)
    (ht : f.traffic.frameTemplate = .test) (seq ts : BitVec 64) (cur : BitVec 16) :
    ReadsTest (frameByte (genFrame r seq ts cur)) (f.l4Off + f.l4Len) f.id seq ts := by
  have hplain := hr.rawPlain (fun h => absurd ht h) hf
  obtain ⟨hlo, hhi⟩ := hr.effLen_range hf cur
  have H : HoldsHeaders (frameByte (genFrame r seq ts cur)) r seq ts
      (precompute r seq (r.payLen cur)) (r.payLen cur) :=
    holdsHeaders_genFrame hplain (by omega)
  have htest := readsTest_of_holds (H.test ((hr.template_eq_iff .test).mpr ht))
  have hl4 : r.l4Hl = f.l4Len := by rw [PwFlowRow.l4Hl, PwFlow.l4Len, hr.l4Proto]
  rw [hr.l4Off_eq hf, hl4, hr.flowId] at htest
  exact htest

/-! ## The test header in the parser -/

/-- The inner header fields of a key are those of the flow's frame with sequence
number `seq`. -/
structure InnerOf (f : PwFlow) (seq : BitVec 64) (k : PwMatchKey) : Prop where
  isIpv4 : k.isIpv4 = !f.ipv6.present
  isIpv6 : k.isIpv6 = f.ipv6.present
  ipv4 : f.ipv6.present = false → k.ipv4Src = f.srcIpv4At seq ∧ k.ipv4Dst = f.dstIpv4At seq
  ipv6 : f.ipv6.present = true → k.ipv6Src = f.srcIpv6At seq ∧ k.ipv6Dst = f.dstIpv6At seq
  proto : k.l3Proto = f.udp.l4Proto
  l4Src : k.l4Src = f.srcPortAt seq
  l4Dst : k.l4Dst = f.dstPortAt seq

/-- The key is that of the flow's test frame with this sequence number and time
stamp. -/
structure TestKeyOf (f : PwFlow) (seq ts : BitVec 64) (k : PwMatchKey) : Prop
    extends InnerOf f seq k where
  isTest : k.isTest = true
  flowId : k.testFlowId = f.id
  sequence : k.testSequence = seq
  txTimestamp : k.testTxTimestamp = ts

section Sent

variable {f : PwFlow} {seq : BitVec 64} {frame : List Byte} (H : Sent f seq frame)

/-- **The deepest headers leave room for the test header in the window.** -/
theorem PwFlow.testEnd_le (f : PwFlow) : f.l4Off + f.l4Len + 32 ≤ hdrBytes := by
  rw [PwFlow.l4Off, PwFlow.ipOff, PwFlow.tunnelOff, PwFlow.tunnelLen, PwFlow.etOff, PwFlow.l4Len,
    hdrBytes]
  cases f.encap.type <;> simp only <;> split_ifs <;> omega

include H

/-- A test frame has room for the test header. -/
theorem Sent.testEnd_le (ht : f.traffic.frameTemplate = .test) :
    f.l4Off + f.l4Len + 32 ≤ frame.length := by
  have hfits := H.fits
  rw [pwFlowMinLegalFrame, ht] at hfits
  rw [PwFlow.l4Off, PwFlow.ipOff, PwFlow.tunnelOff, PwFlow.tunnelLen, PwFlow.etOff, PwFlow.l4Len]
  cases hp : f.encap.present with
  | false =>
    simp [hp] at hfits ⊢
    omega
  | true => cases htype : f.encap.type <;> simp [hp, htype] at hfits ⊢ <;> omega

/-- The payload after the L4 header of a test frame. -/
theorem Sent.parsePayload (hf : f.Parsed) (ht : f.traffic.frameTemplate = .test) {k : PwMatchKey}
    (htcp : k.isTcp = (f.udp.l4Proto == 6)) (hudp : k.isUdp = (f.udp.l4Proto == 17)) :
    parsePayload k frame.length f.l4Off = (f.l4Off + f.l4Len, true) := by
  have hroom := H.testEnd_le ht
  have hwin := f.testEnd_le
  have hlen : (if k.isTcp then 20 else 8) = f.l4Len := by
    rw [htcp, PwFlow.l4Len]
    simp
  have hproto : k.isUdp = true ∨ k.isTcp = true := by
    rw [htcp, hudp]
    rcases hf.l4Proto with h | h <;> simp [h]
  rw [PacketWyrm.parsePayload, hlen, if_pos ⟨hproto, by omega⟩]
  simp [hroom, hwin]

/-- **Stage A2 finds the inner fields and the test header of a test frame.** -/
theorem stageA2_of_test (hf : f.Parsed) (ht : f.traffic.frameTemplate = .test)
    (port : BitVec 4) {a : StageA}
    (ha : a =
      { key := f.keyA seq port, valid := true, effOff := BitVec.ofNat 16 f.ipOff
        innerV4 := f.keyV4, innerV6 := f.keyV6, flen := BitVec.ofNat 16 frame.length
        hdr := frameByte frame }) :
    (stageA2 a).valid = true ∧ InnerOf f seq (stageA2 a).key ∧ (stageA2 a).testElig = true ∧
      (stageA2 a).payOff = BitVec.ofNat 16 (f.l4Off + f.l4Len) ∧
      (stageA2 a).hdr = frameByte frame := by
  have hraw : f.traffic.frameTemplate ≠ .test → f.encap.present = false := fun h => absurd ht h
  have h2 : f.traffic.frameTemplate ≠ .l2raw := by simp [ht]
  have hl4 : f.hasL4 = true := by simp [PwFlow.hasL4, ht]
  have hsp : f.keySrcPort seq = f.srcPortAt seq := by rw [PwFlow.keySrcPort, if_pos hl4]
  have hdp : f.keyDstPort seq = f.dstPortAt seq := by rw [PwFlow.keyDstPort, if_pos hl4]
  obtain ⟨hroom6, hroom4, hsmall⟩ := H.ipOff_le hraw
  have heff : (BitVec.ofNat 16 f.ipOff).toNat = f.ipOff := by
    rw [BitVec.toNat_ofNat, Nat.mod_eq_of_lt hsmall]
  have hip := H.ip h2
  rw [CarriesIp] at hip
  rw [ha]
  simp only [PacketWyrm.stageA2, if_true, heff, H.flen]
  cases h6 : f.ipv6.present with
  | true =>
    have hv6 : f.keyV6 = true := by rw [PwFlow.keyV6, if_neg h2, h6]
    have hv4 : f.keyV4 = false := by rw [PwFlow.keyV4, if_neg h2, h6]; rfl
    have hoff : f.l4Off = f.ipOff + 40 := by rw [PwFlow.l4Off, if_pos h6]
    rw [if_pos h6] at hip
    have hpay : (PacketWyrm.parseV6 (f.keyA seq port) (frameByte frame) frame.length f.ipOff).2 =
        (f.l4Off + f.l4Len, true) := by
      rw [PacketWyrm.parseV6, hip.proto, ← hoff]
      exact H.parsePayload hf ht rfl rfl
    rw [if_pos ⟨hv6, hroom6 hv6⟩]
    refine ⟨rfl, ?_, by rw [hpay], by rw [hpay], rfl⟩
    rw [H.parseV6 hf hraw h2 h6 rfl]
    constructor <;> simp [PwFlow.keyA, PwMatchKey.withPorts, h6, hv6, hv4, hsp, hdp]
  | false =>
    have hv6 : f.keyV6 = false := by rw [PwFlow.keyV6, if_neg h2, h6]
    have hv4 : f.keyV4 = true := by rw [PwFlow.keyV4, if_neg h2, h6]; rfl
    have hoff : f.l4Off = f.ipOff + 20 := by rw [PwFlow.l4Off, if_neg (by simp [h6])]
    rw [if_neg (by simp [h6])] at hip
    have hpay : (PacketWyrm.parseV4 (f.keyA seq port) (frameByte frame) frame.length f.ipOff).2 =
        (f.l4Off + f.l4Len, true) := by
      rw [PacketWyrm.parseV4, hip.proto, hip.version]
      have hihl : ((0x45#8 : BitVec 8).setWidth 4).toNat * 4 = 20 := by decide
      rw [hihl, if_pos (Nat.le_refl 20), ← hoff]
      exact H.parsePayload hf ht rfl rfl
    rw [if_neg (by simp [hv6]), if_pos ⟨hv4, hroom4 hv4⟩]
    refine ⟨rfl, ?_, by rw [hpay], by rw [hpay], rfl⟩
    rw [H.parseV4 hf hraw h2 h6 rfl]
    constructor <;> simp [PwFlow.keyA, PwMatchKey.withPorts, h6, hv6, hv4, hsp, hdp]

/-- **A test frame parses to its test key**, whatever came before. -/
theorem testKeyOf_of_sent (hf : f.Parsed) (ht : f.traffic.frameTemplate = .test) {ts : BitVec 64}
    (htest : ReadsTest (frameByte frame) (f.l4Off + f.l4Len) f.id seq ts) (old : Window)
    (port : BitVec 4) :
    (parseFrame old ⟨port, frame⟩).keyValid = true ∧
      TestKeyOf f seq ts (parseFrame old ⟨port, frame⟩).key := by
  have hraw : f.traffic.frameTemplate ≠ .test → f.encap.present = false := fun h => absurd ht h
  have hno : ¬f.FakesTag := by simp [PwFlow.FakesTag, ht]
  have hsmall : f.l4Off + f.l4Len < 2 ^ 16 := by
    have := f.testEnd_le
    rw [hdrBytes] at this
    omega
  have hpo : (BitVec.ofNat 16 (f.l4Off + f.l4Len)).toNat = f.l4Off + f.l4Len := by
    rw [BitVec.toNat_ofNat, Nat.mod_eq_of_lt hsmall]
  obtain ⟨hvalid, hinner, helig, hpay, hhdr⟩ :=
    stageA2_of_test H hf ht port (H.stageA hf hraw hno port)
  rw [H.parseFrame old port, parserOut, stageB, if_pos helig, hpay, hhdr, hpo]
  refine ⟨hvalid, ?_⟩
  exact
    { isIpv4 := hinner.isIpv4, isIpv6 := hinner.isIpv6, ipv4 := hinner.ipv4, ipv6 := hinner.ipv6
      proto := hinner.proto, l4Src := hinner.l4Src, l4Dst := hinner.l4Dst
      isTest := beq_iff_eq.mpr htest.magic, flowId := htest.flowId, sequence := htest.seq
      txTimestamp := htest.ts }

end Sent

/-! ## Compiled flows -/

/-- **Generated test frames parse back to what was sent.**  In a configuration
that is parsed and compiles, the frames that the generator builds from the row of
a flow of the test template parse as test frames with the flow's id, for every
sequence number, time stamp and length of the sweep, with that sequence number
and time stamp and with the inner addresses, ports and protocol of the flow after
its modifiers. -/
theorem test_frame_parses_back {cfg : PwConfig} {p : PwProgram} (hcfg : cfg.Parsed)
    (h : pwFlowCompile cfg = .ok p) {i : ℕ} {f : PwFlow} (hf : cfg.flows[i]? = some f)
    (ht : f.traffic.frameTemplate = .test) :
    ∃ m row, p.flowMeta[i]? = some m ∧ p.txRowOf m = some row ∧
      ∀ (old : Window) (port : BitVec 4) (seq ts : BitVec 64) (cur : BitVec 16),
        (parseFrame old ⟨port, genFrame (pwDecodeFlowRow row.byte) seq ts cur⟩).keyValid = true ∧
          TestKeyOf f seq ts
            (parseFrame old ⟨port, genFrame (pwDecodeFlowRow row.byte) seq ts cur⟩).key := by
  obtain ⟨hparsed, hraw, m, row, hm, hrow, hr⟩ := exists_rowOf_of_compile hcfg h hf
  refine ⟨m, row, hm, hrow, ?_⟩
  intro old port seq ts cur
  have hsent : Sent f seq (genFrame _ seq ts cur) := sent_genFrame hr hparsed hraw cur
  exact testKeyOf_of_sent hsent hparsed ht (readsTest_genFrame hr hparsed ht seq ts cur) old port

theorem test_frame_parses_back_sample :
    ∃ p m row, pwFlowCompile sampleHeaderConfig = .ok p ∧ p.flowMeta[0]? = some m ∧
      p.txRowOf m = some row ∧
      TestKeyOf (sampleHeaderFlow 1 0x0A000002) 7 9
        (parseFrame (fun _ => 0) ⟨1, genFrame (pwDecodeFlowRow row.byte) 7 9 128⟩).key := by
  obtain ⟨p, hp, -⟩ := exists_of_okAnd
    (show okAnd (pwFlowCompile sampleHeaderConfig) (fun _ => true) = true by decide +kernel)
  obtain ⟨m, row, hm, hrow, hback⟩ := test_frame_parses_back parsed_sampleHeaderConfig hp
    (i := 0) (f := sampleHeaderFlow 1 0x0A000002) rfl rfl
  exact ⟨p, m, row, hp, hm, hrow, (hback (fun _ => 0) 1 7 9 128).2⟩

end PacketWyrm
