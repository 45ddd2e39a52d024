import PacketWyrm.StampLaw
import PacketWyrm.FlowGenMulti

/-!
# Stamped test frames

Of every flow row, tagged or not, tunnelled or not, over either family and with
either L4 header, the test frames that the generator builds say their layout in
the bytes that the stamper reads.  So the stamper writes the time stamp and the
checksum where the generator has put them.

## Main definitions

* `PwFlowRow.tsLayout` — the layout of a row's test frames.
* `stampedFrame` — a test frame with the time of its departure.
* `TxFrame` — a frame on its way to the MAC.

## Main results

* `says_genFrame` — a test frame says its layout.
* `ts_insert_law` — the stream behind the stamper.
-/

namespace PacketWyrm

open Lib

/-! ## The layout of a row's frames -/

namespace PwFlowRow

variable (r : PwFlowRow)

/-- The layout of a row's test frames. -/
def tsLayout : TsLayout :=
  { vlan := r.vlanEn
    outerV6 := if r.encapType = 0#2 then r.isV6 else r.outerV6
    encap := r.encapType
    innerV6 := r.isV6
    tcp := r.l4Proto == 6#8 }

/-- Where the time stamp of a row's test frames stands. -/
def tsOff : ℕ := r.l4Off + r.l4Hl + 20

/-- Where the L4 checksum stands. -/
def csumOff : ℕ := r.l4Off + if r.l4Proto = 6#8 then 16 else 6

/-- The L4 checksum is over the time stamp too: of UDP over IPv4 there is none. -/
def covered : Bool := r.isV6 || r.l4Proto == 6#8

theorem outerV6_of_plain (h : r.encapType = 0#2) : r.tsLayout.outerV6 = r.isV6 := by
  rw [tsLayout, if_pos h]

theorem outerV6_of_tunnel (h : r.encapType ≠ 0#2) : r.tsLayout.outerV6 = r.outerV6 := by
  rw [tsLayout, if_neg h]

theorem o3_tsLayout : r.tsLayout.o3 = r.etOff + 2 := by
  show 14 + (if r.vlanEn then 4 else 0) = 12 + (if r.vlanEn then 4 else 0) + 2
  omega

theorem encStart_tsLayout (h : r.encapType ≠ 0#2) : r.tsLayout.encStart = r.tunnelOff := by
  rw [TsLayout.encStart, o3_tsLayout, tunnelOff, outerV6_of_tunnel r h]

theorem innerL3Start_tsLayout : r.tsLayout.innerL3Start = r.ipOff := by
  rw [TsLayout.innerL3Start, ipOff]
  by_cases h : r.encapType = 0#2
  · rw [if_pos h, if_pos (by exact h), o3_tsLayout]
  · rw [if_neg h, if_neg (by exact h), encStart_tsLayout r h]
    rfl

theorem innerUdp_tsLayout : r.tsLayout.innerUdp = r.l4Off := by
  have hl3 := r.innerL3Start_tsLayout
  rw [TsLayout.innerL3Start] at hl3
  rw [TsLayout.innerUdp, l4Off, ← hl3, ipHl]
  by_cases h : r.encapType = 0#2
  · have henc : r.tsLayout.encap = 0#2 := h
    rw [if_pos henc, if_pos henc, outerV6_of_plain r h]
  · have henc : ¬r.tsLayout.encap = 0#2 := h
    rw [if_neg henc, if_neg henc]
    rfl

theorem l4Hl_tsLayout : r.tsLayout.l4Hl = r.l4Hl := by
  rw [TsLayout.l4Hl, l4Hl, tsLayout]
  simp only [beq_iff_eq]

theorem magicOff_tsLayout : r.tsLayout.magicOff = r.l4Off + r.l4Hl := by
  rw [TsLayout.magicOff, innerUdp_tsLayout, l4Hl_tsLayout]

theorem tsOff_tsLayout : r.tsLayout.tsOff = r.tsOff := by
  rw [TsLayout.tsOff, innerUdp_tsLayout, l4Hl_tsLayout, tsOff]

theorem csumOff_tsLayout : r.tsLayout.csumOff = r.csumOff := by
  rw [TsLayout.csumOff, innerUdp_tsLayout, csumOff, tsLayout]
  simp only [beq_iff_eq]

end PwFlowRow

/-! ## What a test frame says -/

section Says

variable {r : PwFlowRow} {w : Window} {o : ℕ}

theorem encOfProto_encapProto {et : BitVec 2} (h : et ≠ 0#2) (v6 : Bool) :
    encOfProto (encapProto et v6) = et := by
  have hall : ∀ (et : BitVec 2) (v6 : Bool), et ≠ 0#2 → encOfProto (encapProto et v6) = et := by
    decide
  exact hall et v6 h

theorem encapProto_eq_41 (v6 : Bool) : (encapProto 1#2 v6 == 41#8) = v6 := by
  cases v6 <;> rfl

/-- The high byte of the inner EtherType. -/
theorem innerEt_hi (r : PwFlowRow) : (r.innerEt.extractLsb' 8 8 == 0x86#8) = r.isV6 := by
  rw [PwFlowRow.innerEt]
  cases r.isV6 <;> rfl

theorem encOfProto_l4ProtoByte (r : PwFlowRow) : encOfProto r.l4ProtoByte = 0#2 := by
  rw [PwFlowRow.l4ProtoByte]
  split <;> rfl

theorem l4ProtoByte_eq_6 (r : PwFlowRow) : (r.l4ProtoByte == 6#8) = (r.l4Proto == 6#8) := by
  rw [PwFlowRow.l4ProtoByte]
  by_cases h : r.l4Proto = 6#8
  · rw [if_pos h, h]
  · rw [if_neg h, beq_eq_false_iff_ne.mpr h]
    rfl

/-- The bytes of a two-byte field. -/
theorem bytes_of_be16 {x : BitVec 16} (h : be16 w o = x) :
    w o = x.extractLsb' 8 8 ∧ w (o + 1) = x.extractLsb' 0 8 := by
  rw [← h, be16]
  exact ⟨BitVec.extractLsb'_append_eq_left.symm, BitVec.extractLsb'_append_eq_right.symm⟩

variable {g : GenFields} {payLen : BitVec 12}

/-- The EtherType of a frame is that of its outermost IP header. -/
theorem etherType_of_holds (h0 : r.frameTemplate = 0#2)
    (h : Holds w r.etOff (linkLayer r g payLen)) :
    be16 w r.etOff = if r.tsLayout.outerV6 then 0x86DD#16 else 0x0800#16 := by
  rw [linkLayer] at h
  by_cases henc : r.encapType = 0#2
  · rw [if_neg (by simp [henc])] at h
    rw [r.outerV6_of_plain henc, be16_of_holds h, PwFlowRow.etOut, if_neg (by simp [h0]),
      PwFlowRow.innerEt]
  · rw [if_pos henc, holds_append, outerHeader] at h
    have houter := h.1
    rw [r.outerV6_of_tunnel henc]
    cases hv6 : r.outerV6 with
    | true =>
      simp only [hv6, if_true, holds_append] at houter
      exact be16_of_holds houter.1
    | false =>
      simp only [hv6, Bool.false_eq_true, if_false, holds_append] at houter
      exact be16_of_holds houter.1

/-- The protocol byte of the outer header of a tunnel. -/
theorem outerProto_of_holds (henc : r.encapType ≠ 0#2)
    (h : Holds w r.etOff (linkLayer r g payLen)) :
    w (r.etOff + 2 + if r.outerV6 then 6 else 9) = encapProto r.encapType r.isV6 := by
  rw [linkLayer, if_pos henc, holds_append, outerHeader] at h
  have houter := h.1
  cases hv6 : r.outerV6 with
  | true =>
    simp only [hv6, if_true, holds_append, length_beBytes] at houter
    exact (readsIpv6_of_holds houter.2).next
  | false =>
    simp only [hv6, Bool.false_eq_true, if_false, holds_append, length_beBytes] at houter
    exact (readsIpv4_of_holds houter.2).proto

/-- The protocol byte of the inner header. -/
theorem innerProto_of_holds (h : Holds w r.ipOff (ipLayer r g payLen)) :
    w (r.ipOff + if r.isV6 then 6 else 9) = r.l4ProtoByte := by
  rw [ipLayer] at h
  cases hv6 : r.isV6 with
  | true =>
    simp only [hv6, if_true] at h
    exact (readsIpv6_of_holds h).next
  | false =>
    simp only [hv6, Bool.false_eq_true, if_false] at h
    exact (readsIpv4_of_holds h).proto

/-- The tunnel header names the inner family. -/
theorem tunnel_of_holds (h : Holds w r.etOff (linkLayer r g payLen)) :
    (r.encapType = 2#2 → w (r.tunnelOff + 2) = r.innerEt.extractLsb' 8 8) ∧
      (r.encapType = 3#2 → w (r.tunnelOff + 14) = r.innerEt.extractLsb' 8 8) := by
  have htunnel : r.encapType ≠ 0#2 → Holds w r.tunnelOff (tunnelHeader r) := by
    intro henc
    rw [linkLayer, if_pos henc, holds_append, length_outerHeader, ← Nat.add_assoc] at h
    exact h.2
  constructor
  · intro h2
    have ht := htunnel (by rw [h2]; decide)
    rw [tunnelHeader, if_pos h2, holds_append] at ht
    exact ht.2.beByte 0 (by decide)
  · intro h3
    have ht := htunnel (by rw [h3]; decide)
    rw [tunnelHeader, if_neg (by rw [h3]; decide), if_pos h3, holds_append] at ht
    simp only [List.length_append, length_beBytes, List.length_cons, List.length_nil,
      Nat.reduceAdd] at ht
    exact ht.2.beByte 0 (by decide)

/-- **The headers of a test frame say its layout.** -/
theorem says_of_holdsHeaders {seq ts : BitVec 64} (h0 : r.frameTemplate = 0#2)
    (h : HoldsHeaders w r seq ts g payLen) : Says w r.tsLayout := by
  have het := etherType_of_holds h0 h.link
  have hip := innerProto_of_holds (h.ip (by rw [h0]; decide))
  have ho3 := r.o3_tsLayout
  constructor
  case vlan =>
    show r.vlanEn = _
    cases hv : r.vlanEn with
    | true =>
      obtain ⟨ha, hb⟩ := bytes_of_be16 ((ethLayer_of_holds h.eth).2.2 hv).1
      rw [ha, hb]
      rfl
    | false =>
      have hoff : r.etOff = 12 := by rw [PwFlowRow.etOff, hv]; rfl
      rw [hoff] at het
      cases hv6 : r.tsLayout.outerV6 with
      | true =>
        rw [hv6] at het
        obtain ⟨ha, -⟩ := bytes_of_be16 het
        rw [ha]
        rfl
      | false =>
        rw [hv6] at het
        obtain ⟨ha, -⟩ := bytes_of_be16 het
        rw [ha]
        rfl
  case outerV6 =>
    have h2 : r.tsLayout.o3 - 2 = r.etOff := by omega
    have h1 : r.tsLayout.o3 - 1 = r.etOff + 1 := by omega
    rw [h2, h1]
    cases hv6 : r.tsLayout.outerV6 with
    | true =>
      rw [hv6] at het
      obtain ⟨ha, hb⟩ := bytes_of_be16 het
      rw [ha, hb]
      rfl
    | false =>
      rw [hv6] at het
      obtain ⟨ha, -⟩ := bytes_of_be16 het
      rw [ha]
      rfl
  case encap =>
    show r.encapType = _
    rw [TsLayout.protoPos, ho3]
    by_cases henc : r.encapType = 0#2
    · have hoff : r.ipOff = r.etOff + 2 := by rw [PwFlowRow.ipOff, if_pos henc]
      rw [r.outerV6_of_plain henc, ← hoff, hip, encOfProto_l4ProtoByte, henc]
    · rw [r.outerV6_of_tunnel henc, outerProto_of_holds henc h.link, encOfProto_encapProto henc]
  case innerV6 =>
    show r.isV6 = innerV6Of r.encapType _ _ _ _
    rw [innerV6Of]
    by_cases henc : r.encapType = 0#2
    · rw [if_pos henc, r.outerV6_of_plain henc]
    · rw [if_neg henc, TsLayout.grePos, TsLayout.eipPos, r.encStart_tsLayout henc]
      by_cases h1 : r.encapType = 1#2
      · rw [if_pos h1, TsLayout.protoPos, ho3, r.outerV6_of_tunnel henc,
          outerProto_of_holds henc h.link, h1, encapProto_eq_41]
      · rw [if_neg h1]
        by_cases h2 : r.encapType = 2#2
        · rw [if_pos h2, (tunnel_of_holds h.link).1 h2, innerEt_hi]
        · have h3 : r.encapType = 3#2 := by
            have hall : ∀ e : BitVec 2, e ≠ 0#2 → e ≠ 1#2 → e ≠ 2#2 → e = 3#2 := by decide
            exact hall _ henc h1 h2
          rw [if_neg h2, (tunnel_of_holds h.link).2 h3, innerEt_hi]
  case tcp =>
    show (r.l4Proto == 6#8) = _
    have hinner : w r.tsLayout.innerProtoPos = r.l4ProtoByte := by
      rw [TsLayout.innerProtoPos, r.innerL3Start_tsLayout]
      exact hip
    by_cases henc : r.encapType = 0#2
    · have hpos : r.tsLayout.innerProtoPos = r.tsLayout.protoPos := by
        rw [TsLayout.innerProtoPos, TsLayout.innerL3Start, TsLayout.protoPos,
          r.outerV6_of_plain henc, if_pos (by exact henc)]
        rfl
      rw [if_pos (by exact henc), ← hpos, hinner, l4ProtoByte_eq_6]
    · rw [if_neg (by exact henc), hinner, l4ProtoByte_eq_6]

end Says

/-! ## The stamped frame -/

/-- A test frame that departs at `ts`: the time stamp is written, and the checksum, where
it covers the time stamp, is finalised. -/
def stampedFrame (r : PwFlowRow) (ts : BitVec 64) (frame : List Byte) : List Byte :=
  let c := finalizeCsum (be16 (frameByte frame) r.csumOff) (tsAddendOf ts) (r.l4Proto != 6#8)
  frame.mapIdx fun i b =>
    if r.tsOff ≤ i ∧ i < r.tsOff + 8 then ts.extractLsb' ((7 - (i - r.tsOff)) * 8) 8
    else if r.covered = true ∧ i = r.csumOff then c.extractLsb' 8 8
    else if r.covered = true ∧ i = r.csumOff + 1 then c.extractLsb' 0 8
    else b

theorem length_stampedFrame (r : PwFlowRow) (ts : BitVec 64) (frame : List Byte) :
    (stampedFrame r ts frame).length = frame.length := by
  rw [stampedFrame, List.length_mapIdx]

/-- The checksum stands before the time stamp. -/
theorem csumOff_add_lt (r : PwFlowRow) : r.csumOff + 1 < r.tsOff := by
  rw [PwFlowRow.csumOff, PwFlowRow.tsOff, PwFlowRow.l4Hl]
  split <;> omega

/-- A byte of the stamped frame. -/
theorem getD_stampedFrame {r : PwFlowRow} {frame : List Byte} (ts : BitVec 64)
    (hmagic : hasMagic r.tsLayout (frameByte frame) = true)
    (hlen : r.tsOff + 8 ≤ frame.length) (i : ℕ) :
    (stampedFrame r ts frame).getD i 0 = stampByte r.tsLayout ts (frameByte frame) i := by
  have hlt := csumOff_add_lt r
  have hcov : (r.tsLayout.innerV6 || r.tsLayout.tcp) = r.covered := rfl
  have htcp : (!r.tsLayout.tcp) = (r.l4Proto != 6#8) := rfl
  have hbyte (h : i < frame.length) : frameByte frame i = frame.get ⟨i, h⟩ := by
    simp [frameByte, List.getD_eq_getElem?_getD, h]
  simp only [stampByte, hmagic, hcov, htcp, r.csumOff_tsLayout, r.tsOff_tsLayout, Bool.or_true,
    Bool.true_and, decide_eq_true_eq, Bool.and_eq_true, beq_iff_eq]
  by_cases hi : i < frame.length
  · rw [stampedFrame, List.getD_eq_getElem?_getD, List.getElem?_mapIdx,
      List.getElem?_eq_getElem hi, hbyte hi]
    simp only [Option.map_some, Option.getD_some, List.get_eq_getElem]
    by_cases hts : r.tsOff ≤ i ∧ i < r.tsOff + 8
    · rw [if_pos hts, if_neg (by omega), if_neg (by omega), if_pos hts]
    · rw [if_neg hts, if_neg hts]
      by_cases hlo : r.covered = true ∧ i = r.csumOff + 1
      · rw [if_neg (by omega), if_pos hlo, if_pos hlo]
        rfl
      · rw [if_neg hlo, if_neg hlo]
        rfl
  · rw [if_neg (by omega), if_neg (by omega), if_neg (by omega), frameByte,
      List.getD_eq_getElem?_getD, List.getD_eq_getElem?_getD,
      List.getElem?_eq_none (by rw [length_stampedFrame]; omega),
      List.getElem?_eq_none (by omega)]

/-- The bytes of a frame, by its beats. -/
theorem beatsByte_axisBeats (frame : List Byte) : beatsByte (axisBeats frame) = frameByte frame := by
  funext i
  rw [beatsByte, frameByte]
  by_cases hi : i / 8 < (frame.length + 7) / 8
  · have hbeat : (axisBeats frame).getD (i / 8) {} = axisBeat frame (8 * (i / 8)) := by
      simp [axisBeats, List.getD_eq_getElem?_getD, hi]
    rw [hbeat, Beat.lane, axisBeat, extractLsb'_lanes _ (Nat.mod_lt _ (by decide)),
      Nat.div_add_mod]
  · have hbeat : (axisBeats frame).getD (i / 8) {} = {} := by
      rw [List.getD_eq_getElem?_getD, List.getElem?_eq_none (by rw [length_axisBeats]; omega)]
      rfl
    have hnone : frame.getD i 0 = 0#8 := by
      rw [List.getD_eq_getElem?_getD, List.getElem?_eq_none (by omega)]
      rfl
    rw [hbeat, hnone]
    exact BitVec.extractLsb'_zero

section Stamped

variable {r : PwFlowRow} {seq tsBuilt : BitVec 64} {len : BitVec 16}

/-- A test frame has its test header whole. -/
theorem tsOff_add_le_length (h0 : r.frameTemplate = 0#2)
    (heff : (effLen r.frameLenMin r.frameLenMax len).toNat < 4096) :
    r.tsOff + 8 ≤ (genFrame r seq tsBuilt len).length := by
  have hraw : r.RawPlain := by
    intro h
    rw [h0] at h
    exact absurd h (by decide)
  have hlayers := length_layers r seq (precompute r seq 0) 0 hraw
  have heth := length_ethLayer r (precompute r seq 0)
  have hlink := etOff_add_length_linkLayer r (precompute r seq 0) 0
  simp only [layers, h0, BitVec.reduceEq, if_false, List.length_append, length_ipLayer,
    length_l4Layer] at hlayers
  have hfloor : (payFloor r.frameTemplate).toNat = 32 := by
    rw [h0]
    rfl
  rw [length_genFrame hraw heff, PwFlowRow.minLen, hfloor, PwFlowRow.tsOff, PwFlowRow.l4Off]
  rw [PwFlowRow.etOff] at hlink
  omega

/-- **The stamper writes what is to be written**, for every row. -/
theorem stampBeats_axisBeats (h0 : r.frameTemplate = 0#2)
    (heff : (effLen r.frameLenMin r.frameLenMax len).toNat < 4096) (ts : BitVec 64) :
    stampBeats ts (axisBeats (genFrame r seq tsBuilt len)) =
      axisBeats (stampedFrame r ts (genFrame r seq tsBuilt len)) := by
  have hraw : r.RawPlain := by
    intro h
    rw [h0] at h
    exact absurd h (by decide)
  have hholds : HoldsHeaders (frameByte (genFrame r seq tsBuilt len)) r seq tsBuilt
      (precompute r seq (r.payLen len)) (r.payLen len) := holdsHeaders_genFrame hraw heff
  have hlen : r.tsOff + 8 ≤ (genFrame r seq tsBuilt len).length := tsOff_add_le_length h0 heff
  have hlayout : layoutOf (frameByte (genFrame r seq tsBuilt len)) = r.tsLayout :=
    (says_layoutOf _).unique (says_of_holdsHeaders h0 hholds)
  have hmagic : hasMagic r.tsLayout (frameByte (genFrame r seq tsBuilt len)) = true := by
    have htest := hholds.test h0
    rw [testHeader, holds_append, holds_append, holds_append, holds_append, holds_append] at htest
    have hbytes := htest.1.1.1.1.1
    have hfirst := hbytes.beByte 0 (by decide)
    rw [Nat.add_zero] at hfirst
    rw [hasMagic, r.magicOff_tsLayout, hfirst, hbytes.beByte 1 (by decide),
      hbytes.beByte 2 (by decide), hbytes.beByte 3 (by decide)]
    decide
  have hbyte := getD_stampedFrame ts hmagic hlen
  rw [stampBeats, beatsByte_axisBeats, hlayout]
  generalize genFrame r seq tsBuilt len = frame at hbyte ⊢
  have hbeat (j : ℕ) : stampBeat r.tsLayout ts (frameByte frame) j (axisBeat frame (8 * j)) =
      axisBeat (stampedFrame r ts frame) (8 * j) := by
    rw [stampBeat, axisBeat, axisBeat, length_stampedFrame]
    congr 1
    apply lanes_congr
    intro l _
    exact (hbyte (8 * j + l)).symm
  apply List.ext_getElem?
  intro j
  rw [List.getElem?_mapIdx, axisBeats, axisBeats, length_stampedFrame, List.getElem?_map,
    List.getElem?_map, Option.map_map]
  by_cases hj : j < (frame.length + 7) / 8
  · rw [List.getElem?_range hj, Option.map_some, Option.map_some, ← hbeat j]
    rfl
  · rw [List.getElem?_eq_none (by rw [List.length_range]; omega)]
    rfl

end Stamped

/-! ## The stream -/

/-- A frame on its way to the MAC, as its beats are taken: a test frame of a row, which
the arbiter marks, or any other frame. -/
inductive TxFrame
  | test (r : PwFlowRow) (seq tsBuilt : BitVec 64) (len : BitVec 16) (l : List TsBeat)
  | other (l : List TsBeat)

namespace TxFrame

/-- The beats of a frame, with the time at which each is taken. -/
def beats : TxFrame → List TsBeat
  | test _ _ _ _ l => l
  | other l => l

/-- The beats are those of the frame, and the marker says what it is. -/
def Ok : TxFrame → Prop
  | test r seq tsBuilt len l =>
    r.frameTemplate = 0#2 ∧ (effLen r.frameLenMin r.frameLenMax len).toNat < 4096 ∧
      l.map TsBeat.beat = axisBeats (genFrame r seq tsBuilt len) ∧ ∀ a ∈ l, a.tuser = true
  | other l => Framed l ∧ ∀ a ∈ l, a.tuser = false

/-- The frame behind the stamper.  The time stamp is sampled with the first beat. -/
def departs : TxFrame → List Beat
  | test r seq tsBuilt len l =>
    axisBeats (stampedFrame r ((l.head?.map TsBeat.tsNow).getD 0) (genFrame r seq tsBuilt len))
  | other l => l.map TsBeat.beat

end TxFrame

/-- Beats of which the last one is marked are a frame. -/
theorem framed_of_tlast {l : List TsBeat} (hne : l ≠ [])
    (h : ∀ j a, l[j]? = some a → a.beat.tlast = decide (j + 1 = l.length)) : Framed l := by
  induction l with
  | nil => exact hne rfl
  | cons a l ih =>
    have ha := h 0 a rfl
    cases l with
    | nil => exact ha
    | cons b l =>
      refine ⟨?_, ih (by simp) ?_⟩
      · rw [ha]
        simp
      · intro j c hj
        rw [h (j + 1) c hj, List.length_cons (a := a), decide_eq_decide]
        omega

/-- The beats of a test frame. -/
theorem framed_of_axisBeats {l : List TsBeat} {frame : List Byte} (hlen : 0 < frame.length)
    (h : l.map TsBeat.beat = axisBeats frame) : Framed l := by
  have hl : l.length = (frame.length + 7) / 8 := by
    rw [← length_axisBeats, ← h, List.length_map]
  apply framed_of_tlast
  · intro hnil
    rw [hnil, List.length_nil] at hl
    omega
  · intro j a hj
    have hjl : j < l.length := (List.getElem?_eq_some_iff.mp hj).1
    have hbeat : (axisBeats frame)[j]? = some a.beat := by
      rw [← h, List.getElem?_map, hj]
      rfl
    rw [axisBeats, List.getElem?_map, List.getElem?_range (by omega)] at hbeat
    rw [← Option.some.inj hbeat]
    show decide (frame.length ≤ 8 * j + 8) = decide (j + 1 = l.length)
    rw [decide_eq_decide]
    omega

/-- A frame between others. -/
theorem TsInsert.Between.passed_frame {s : TsInsert} (h : s.Between) {f : TxFrame} (hf : f.Ok) :
    s.passed f.beats = f.departs ∧ (run TsInsert.accept s f.beats).Between := by
  cases f with
  | other l => exact h.passed_other hf.1 hf.2
  | test r seq tsBuilt len l =>
    obtain ⟨h0, heff, hbeats, huser⟩ := hf
    have hlen : r.tsOff + 8 ≤ (genFrame r seq tsBuilt len).length := tsOff_add_le_length h0 heff
    have hframed := framed_of_axisBeats (by omega) hbeats
    have hl : l.length ≤ 512 := by
      have hbits : (genFrame r seq tsBuilt len).length < 4096 := by
        rw [genFrame, BuiltFrame.bytes, List.length_map, List.length_range]
        exact BitVec.isLt _
      rw [← List.length_map TsBeat.beat, hbeats, length_axisBeats]
      omega
    cases l with
    | nil => cases hframed
    | cons a l =>
      obtain ⟨hpassed, hbetween⟩ := h.passed_marked hframed (huser a List.mem_cons_self) hl
      refine ⟨?_, hbetween⟩
      rw [hbeats, stampBeats_axisBeats h0 heff] at hpassed
      exact hpassed

/-- Frames one after the other. -/
theorem TsInsert.Between.passed_frames {s : TsInsert} (h : s.Between) {frames : List TxFrame}
    (hok : ∀ f ∈ frames, f.Ok) :
    s.passed (frames.flatMap TxFrame.beats) = frames.flatMap TxFrame.departs := by
  induction frames generalizing s with
  | nil => rfl
  | cons f frames ih =>
    obtain ⟨hpassed, hbetween⟩ := h.passed_frame (hok f List.mem_cons_self)
    rw [List.flatMap_cons, List.flatMap_cons, TsInsert.passed_append, hpassed,
      ih hbetween fun g hg => hok g (List.mem_cons_of_mem f hg)]

theorem TsInsert.length_passed (s : TsInsert) (l : List TsBeat) :
    (s.passed l).length = l.length := by
  induction l generalizing s with
  | nil => rfl
  | cons a l ih => rw [TsInsert.passed_cons, List.length_cons, List.length_cons, ih]

/-- **The stream behind the stamper.**  For every sequence of frames, marked or not, with
any pattern of stalls: what has been passed on of the beats taken so far is the frames
as they were, with the time stamp of each test frame replaced by the time that was
sampled for it, and its checksum finalised where it covers the time stamp.  A checksum
that is finalised makes the partial sum that it stands for and the words of the time
stamp a multiple of 65535, and is not zero over UDP. -/
theorem ts_insert_law {s : TsInsert} (hs : s.Reset) {frames : List TxFrame}
    (hok : ∀ f ∈ frames, f.Ok) {ins : List TsInsertIn}
    (hins : ins.filterMap TsInsertIn.acc <+: frames.flatMap TxFrame.beats) :
    outputs TsInsert.sent TsInsert.step s ins =
        (frames.flatMap TxFrame.departs).take (ins.filterMap TsInsertIn.acc).length ∧
      ∀ (c0 : BitVec 16) (ts : BitVec 64) (udp : Bool),
        ((finalizeCsum c0 (tsAddendOf ts) udp).toNat + (~~~c0).toNat +
            ((ts.extractLsb' 48 16).toNat + (ts.extractLsb' 32 16).toNat +
              (ts.extractLsb' 16 16).toNat + (ts.extractLsb' 0 16).toNat)) % 65535 = 0 ∧
          (udp = true → finalizeCsum c0 (tsAddendOf ts) udp ≠ 0) := by
  constructor
  · obtain ⟨rest, hrest⟩ := hins
    have hsent : outputs TsInsert.sent TsInsert.step s ins =
        s.passed (ins.filterMap TsInsertIn.acc) :=
      outputs_filterMap (fun _ _ => rfl) (fun _ _ => rfl) s ins
    have hall := hs.between.passed_frames hok
    rw [← hrest, TsInsert.passed_append] at hall
    rw [hsent, ← hall, ← TsInsert.length_passed s, List.take_left]
  · intro c0 ts udp
    have hadd := toNat_tsAddendOf ts
    have hle : (tsAddendOf ts).toNat ≤ 4 * 65535 := by omega
    rw [← hadd]
    exact finalizeCsum_spec c0 hle udp

/-- The stamper after a reset. -/
def sampleTsInsert : TsInsert :=
  { beat := 0, vlanQ := false, outerV6Q := false, innerV6Q := false, isGen := false
    mb := fun _ => 0, magicOk := false, tsLat := 0, tsAddend := 0, csumBeatQ := 7, csumLaneQ := 4
    magicOffQ := 42, tsOffQ := 62, oProtoQ := 17, greHiQ := 0, eipHiQ := 0, innerL4ProtoQ := 17
    innerTcpQ := false }

/-- A short frame of another port, and a test frame of a row. -/
def sampleTxFrames : List TxFrame :=
  [.other [{ tsNow := 5, beat := { tdata := 7, tkeep := 1, tlast := true }, tuser := false }],
    .test sampleGenRow 0 0 128 ((axisBeats (genFrame sampleGenRow 0 0 128)).map fun b =>
      { tsNow := 9, beat := b, tuser := true })]

/-- The beats of the frames behind one another, after a cycle in which the MAC stalls. -/
def sampleTsIns : List TsInsertIn :=
  { tsNow := 4, beat := {}, tuser := false, tvalid := true, tready := false } ::
    (sampleTxFrames.flatMap TxFrame.beats).map fun a =>
      { tsNow := a.tsNow, beat := a.beat, tuser := a.tuser, tvalid := true, tready := true }

theorem ts_insert_law_sample :
    outputs TsInsert.sent TsInsert.step sampleTsInsert sampleTsIns =
      ({ tdata := 7, tkeep := 1, tlast := true } : Beat) ::
        axisBeats (stampedFrame sampleGenRow 9 (genFrame sampleGenRow 0 0 128)) := by
  have hok : ∀ f ∈ sampleTxFrames, f.Ok := by
    intro f hf
    rw [sampleTxFrames, List.mem_cons, List.mem_singleton] at hf
    rcases hf with rfl | rfl
    · exact ⟨rfl, by simp⟩
    · refine ⟨by decide +kernel, by decide +kernel, ?_, by simp⟩
      rw [List.map_map]
      exact List.map_id _
  have hacc : sampleTsIns.filterMap TsInsertIn.acc = sampleTxFrames.flatMap TxFrame.beats := by
    rw [sampleTsIns, List.filterMap_cons_none rfl, List.filterMap_map]
    exact List.filterMap_some
  have hins : sampleTsIns.filterMap TsInsertIn.acc <+: sampleTxFrames.flatMap TxFrame.beats := by
    rw [hacc]
  have hlaw := (ts_insert_law (s := sampleTsInsert) ⟨rfl, rfl, rfl⟩ hok hins).1
  have hlen : (sampleTxFrames.flatMap TxFrame.departs).length ≤
      (sampleTsIns.filterMap TsInsertIn.acc).length := by
    rw [hacc]
    decide +kernel
  rw [hlaw, List.take_of_length_le hlen]
  decide +kernel

end PacketWyrm
