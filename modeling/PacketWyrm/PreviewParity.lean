import PacketWyrm.PreviewHeaders

/-!
# The preview and the generator

For a compiled flow, the preview of a frame and the frame that the generator builds for the same
sequence number are compared byte by byte, but for the L4 checksum and the time stamp.  They
differ in the priority of a tag, which the generator never sends; in the protocol number of a raw
IP frame; and where the configuration asks for a zero that the preview takes for an unset value.
Everything else is the same.

## Main definitions

* `SameFrame` — equal bytes, but for those that a preview does not promise.
* `PwFlow.Previewable` — the flow asks for none of these.

## Main results

* `preview_parity_iff` — which compiled flows are previewed as they are sent.
-/

namespace PacketWyrm

open Lib

/-- The same frame, but for the bytes that a preview does not promise. -/
def SameFrame (f : PwFlow) (a b : List Byte) : Prop :=
  a.length = b.length ∧ ∀ i, ¬f.Exempt i → frameByte a i = frameByte b i

namespace PwFlow

variable (f : PwFlow)

/-- The hop limit of the inner IP header. -/
def innerTtl : Byte := if f.ipv6.present then f.ipv6.hopLimit else f.ipv4.ttl

/-- The hop limit of the outer IP header. -/
def outerTtl : Byte :=
  if f.encap.outerIpv6.present then f.encap.outerIpv6.hopLimit else f.encap.outerIpv4.ttl

/-- The flow asks for nothing that preview and generator treat differently. -/
structure Previewable : Prop where
  pcp : f.l2.vlanSet = true → f.l2.pcp = 0
  template : f.traffic.frameTemplate ≠ .l3raw
  ttl : f.traffic.frameTemplate ≠ .l2raw → f.innerTtl ≠ 0
  outerTtl : f.encap.present = true → f.outerTtl ≠ 0
  flags : f.traffic.frameTemplate ≠ .l2raw → f.udp.l4Proto = 6 → f.udp.tcpFlags ≠ 0

end PwFlow

/-! ## Reading one byte -/

theorem orDefault_eq_iff {b d : Byte} (hd : d ≠ 0) : orDefault b d = b ↔ b ≠ 0 := by
  rw [orDefault]
  split
  · rename_i h
    exact iff_of_true rfl h
  · rename_i h
    rw [not_not.mp h]
    exact iff_of_false hd (not_not.mpr rfl)

/-- A tag without a priority. -/
theorem beBytes_tci (vlan : BitVec 12) :
    [0x81, 0x00] ++ beBytes 2 ((0 : Byte).setWidth 3 ++ 0#1 ++ vlan) = vlanTag vlan := by
  have hhigh : ((0 : Byte).setWidth 3 ++ 0#1 ++ vlan).extractLsb' 8 8 =
      0x0#4 ++ vlan.extractLsb' 8 4 := by
    apply BitVec.eq_of_getLsbD_eq
    intro i hi
    simp only [BitVec.getLsbD_extractLsb', BitVec.getLsbD_append]
    by_cases h4 : i < 4
    · simp [h4, hi, show 8 + i < 12 by omega]
    · simp [h4, show ¬8 + i < 12 by omega]
  have hlow : ((0 : Byte).setWidth 3 ++ 0#1 ++ vlan).extractLsb' 0 8 = vlan.setWidth 8 := by
    apply BitVec.eq_of_getLsbD_eq
    intro i hi
    rw [BitVec.getLsbD_extractLsb', BitVec.getLsbD_append, BitVec.getLsbD_setWidth, Nat.zero_add,
      if_pos (by omega)]
  rw [vlanTag, ← hhigh, ← hlow]
  rfl

section Read

variable {w : Window} {o : ℕ} {r : PwFlowRow} {g : GenFields} {payLen : BitVec 12}

/-- The hop limit of the inner IP header. -/
theorem ttl_of_holds (h : Holds w o (ipLayer r g payLen)) :
    w (o + if r.isV6 then 7 else 8) = r.ttl := by
  rw [ipLayer] at h
  cases h6 : r.isV6 with
  | true =>
    rw [if_pos h6] at h
    exact (readsIpv6_of_holds h).hop
  | false =>
    rw [if_neg (by simp [h6])] at h
    exact (readsIpv4_of_holds h).ttl

/-- The hop limit of the outer IP header. -/
theorem outerTtl_of_holds (h0 : r.encapType ≠ 0#2) (h : Holds w o (linkLayer r g payLen)) :
    w (o + 2 + if r.outerV6 then 7 else 8) = r.outerTtl := by
  have houter := outerIp_of_holds h0 h
  cases h6 : r.outerV6 with
  | true =>
    rw [if_pos h6] at houter
    exact (readsIpv6_of_holds houter).hop
  | false =>
    rw [if_neg (by simp [h6])] at houter
    exact (readsIpv4_of_holds houter).ttl

/-- The flags of a TCP header. -/
theorem flags_of_holds {seq : BitVec 64} {c : BitVec 16} (htcp : r.l4Proto = 6#8)
    (h : Holds w o (l4Header r seq g payLen c)) : w (o + 13) = r.tcpFlags := by
  simp only [l4Header, l4Pre, if_pos htcp, holds_append, holds_cons, List.length_append,
    length_beBytes, List.length_cons, List.length_nil, Nat.reduceAdd, Nat.add_assoc] at h
  exact h.1.1.2.2.2.1

end Read

namespace RowOf

variable {f : PwFlow} {r : PwFlowRow} (hr : RowOf f r) (hf : f.Parsed)
  (hraw : f.traffic.frameTemplate ≠ .test → f.encap.present = false) (seq : BitVec 32)
  (payLen : BitVec 12)

include hr

theorem ttl_eq : r.ttl = f.innerTtl := by
  rw [PwFlow.innerTtl]
  cases h6 : f.ipv6.present with
  | true => exact (hr.ipv6 h6).2.2.1
  | false => exact (hr.ipv4 h6).2.2.1

theorem outerTtl_eq (hp : f.encap.present = true) : r.outerTtl = f.outerTtl := by
  rw [PwFlow.outerTtl]
  cases h6 : f.encap.outerIpv6.present with
  | true => exact (hr.outerIpv6 hp h6).2.2.1
  | false => exact (hr.outerIpv4 hp h6).2.2.1

theorem l4Hl_eq : r.l4Hl = f.l4Len := by
  rw [PwFlowRow.l4Hl, PwFlow.l4Len, hr.l4Proto]

/-! ### A row that is shown as it is -/

/-- The addresses and a tag without a priority. -/
theorem pvEth_eq_ethLayer (hpcp : f.l2.vlanSet = true → f.l2.pcp = 0) :
    pvEth f seq = ethLayer r (precompute r (seq.setWidth 64) payLen) := by
  rw [pvEth_eq, ethLayer, hr.dmac_eq, hr.smac_eq, hr.vlan_eq, hr.vlanEn]
  cases hv : f.l2.vlanSet with
  | false => rfl
  | true =>
    rw [hpcp hv, if_pos rfl, if_pos rfl, beBytes_tci]

end RowOf

section Shown

variable {r : PwFlowRow} (s : BitVec 64) (payLen : BitVec 12)

/-- The link layer, when the outer hop limit is not zero. -/
theorem linkLayer_shown (h : r.encapType ≠ 0#2 → r.outerTtl ≠ 0) :
    linkLayer r.shown (precompute r.shown s payLen) payLen =
      linkLayer r (precompute r s payLen) payLen := by
  by_cases h0 : r.encapType = 0#2
  · have h0' : ¬r.shown.encapType ≠ 0#2 := not_not.mpr h0
    rw [linkLayer, linkLayer, if_neg h0', if_neg (not_not.mpr h0)]
    rfl
  · have httl : r.shown.outerTtl = r.outerTtl := (orDefault_eq_iff (by decide)).mpr (h h0)
    have h0' : r.shown.encapType ≠ 0#2 := h0
    have hcsum : (precompute r.shown s payLen).ocsum = (precompute r s payLen).ocsum := by
      simp only [precompute, httl]
      rfl
    rw [linkLayer, linkLayer, if_pos h0', if_pos h0, outerHeader, outerHeader, httl, hcsum]
    rfl

/-- The inner IP header, when its hop limit is not zero. -/
theorem ipLayer_shown (h : r.ttl ≠ 0) :
    ipLayer r.shown (precompute r.shown s payLen) payLen =
      ipLayer r (precompute r s payLen) payLen := by
  have httl : r.shown.ttl = r.ttl := (orDefault_eq_iff (by decide)).mpr h
  have hcsum : (precompute r.shown s payLen).csum = (precompute r s payLen).csum := by
    simp only [precompute, httl]
    rfl
  rw [ipLayer, ipLayer, httl, hcsum]
  rfl

/-- The L4 header, when a TCP one has flags. -/
theorem l4Header_shown (h : r.l4Proto = 6#8 → r.tcpFlags ≠ 0) (c : BitVec 16) :
    l4Header r.shown s (precompute r.shown s payLen) payLen c =
      l4Header r s (precompute r s payLen) payLen c := by
  have hproto : r.shown.l4Proto = r.l4Proto := rfl
  rw [l4Header, l4Header, l4Pre, l4Pre, l4Post, l4Post, hproto]
  by_cases htcp : r.l4Proto = 6#8
  · have hflags : r.shown.tcpFlags = r.tcpFlags := (orDefault_eq_iff (by decide)).mpr (h htcp)
    rw [hflags]
    rfl
  · simp only [if_neg htcp]
    rfl

end Shown

/-! ## Comparing the frames -/

section Swap

variable {r : PwFlowRow} {s : BitVec 64} {g : GenFields} {p : BitVec 12} {x rest : List Byte}
  {o i : ℕ}

/-- Two L4 headers at `o` differ in their checksum. -/
theorem getD_l4Header_swap {c c' : BitVec 16} (hx : x.length = o)
    (hi : i < o + (if r.l4Proto = 6#8 then 16 else 6) ∨
      o + (if r.l4Proto = 6#8 then 16 else 6) + 2 ≤ i) :
    (x ++ l4Header r s g p c ++ rest).getD i 0 = (x ++ l4Header r s g p c' ++ rest).getD i 0 := by
  have hshape (c : BitVec 16) : x ++ l4Header r s g p c ++ rest =
      (x ++ l4Pre r s g p) ++ beBytes 2 c ++ (l4Post r ++ rest) := by
    rw [l4Header]
    simp only [List.append_assoc]
  rw [hshape, hshape]
  apply getD_append_swap
  · rw [length_beBytes, length_beBytes]
  · rw [List.length_append, hx, length_l4Pre, length_beBytes]
    exact hi

/-- Two test headers at `o` differ in their time stamp. -/
theorem getD_testHeader_swap {ts ts' : BitVec 64} (hx : x.length = o)
    (hi : i < o + 20 ∨ o + 28 ≤ i) :
    (x ++ testHeader r s ts).getD i 0 = (x ++ testHeader r s ts').getD i 0 := by
  have hshape (ts : BitVec 64) : x ++ testHeader r s ts =
      (x ++ testPre r s) ++ beBytes 8 ts ++ [0x00, 0x00, 0x00, 0x00] := by
    rw [testHeader_eq]
    simp only [List.append_assoc]
  rw [hshape, hshape]
  apply getD_append_swap
  · rw [length_beBytes, length_beBytes]
  · rw [List.length_append, hx, length_testPre, length_beBytes]
    exact hi

end Swap

/-- The inner IP header stands between the EtherType and the L4 header. -/
theorem PwFlow.etOff_add_le (f : PwFlow) : f.etOff + 2 ≤ f.ipOff ∧ f.ipOff + 20 ≤ f.l4Off := by
  rw [PwFlow.l4Off, PwFlow.ipOff, PwFlow.tunnelOff]
  constructor
  · split <;> omega
  · have hhl : 20 ≤ if f.ipv6.present then 40 else 20 := by split <;> decide
    omega

/-- The pieces of a list stand in it one after the other. -/
theorem holds_pieces {out a b : List Byte} (hout : out = a ++ b) :
    Holds (fun i => out.getD i 0) 0 a ∧ Holds (fun i => out.getD i 0) a.length b := by
  subst hout
  have hall := holds_getD (a ++ b) 0
  rw [holds_append, Nat.zero_add] at hall
  exact hall

theorem PwFlow.not_exempt_of_lt {f : PwFlow} {i : ℕ} (h : i < f.l4Off + 6) : ¬f.Exempt i := by
  have hl4 : 6 ≤ if f.udp.l4Proto = 6 then 16 else 6 := by split <;> decide
  rw [PwFlow.Exempt, PwFlow.csumOff]
  rintro (⟨-, -, hle, -⟩ | ⟨-, hle, -⟩) <;> omega

theorem PwFlow.not_exempt_flags {f : PwFlow} (htcp : f.udp.l4Proto = 6) :
    ¬f.Exempt (f.l4Off + 13) := by
  have hl4 : f.l4Len = 20 := if_pos htcp
  rw [PwFlow.Exempt, PwFlow.csumOff, if_pos htcp, hl4]
  rintro (⟨-, -, hle, -⟩ | ⟨-, hle, -⟩) <;> omega

namespace RowOf

variable {f : PwFlow} {r : PwFlowRow} (hr : RowOf f r) (hf : f.Parsed)
  (hraw : f.traffic.frameTemplate ≠ .test → f.encap.present = false) (seq : BitVec 32)
  (ts : BitVec 64)

include hr hf hraw

/-- The generator sends as many bytes as the preview shows. -/
theorem length_genFrame_lenLo :
    (genFrame r (seq.setWidth 64) ts f.traffic.lenLo).length = f.sentLen := by
  have heff : effLen r.frameLenMin r.frameLenMax f.traffic.lenLo = f.traffic.lenLo := by
    have hle := hf.lenLe
    rw [hr.frameLenMin, hr.frameLenMax, effLen, if_neg]
    rw [BitVec.lt_def, BitVec.lt_def]
    omega
  rw [hr.length_genFrame_eq hf hraw, heff, PwFlow.sentLen]

/-- The payload of both frames. -/
theorem payLen_lenLo (h2 : f.traffic.frameTemplate ≠ .l2raw)
    (h3 : f.traffic.frameTemplate ≠ .l3raw) :
    f.sentLen - f.l4Off - f.l4Len = (r.payLen f.traffic.lenLo).toNat := by
  have hadd := hr.frameBytes_add_payLen hf hraw ((0 : BitVec 32).setWidth 64) 0 f.traffic.lenLo
  rw [hr.length_genFrame_lenLo hf hraw 0 0,
    ← l4Off_add_l4Hl (mt (hr.template_eq_iff .l2raw).mp h2) (mt (hr.template_eq_iff .l3raw).mp h3),
    hr.l4Off_eq hf, hr.l4Hl_eq] at hadd
  omega

/-- A preview is the frame sent when it shows the headers that the generator lays out. -/
theorem sameFrame_iff {v : Preview} {out : List Byte} (hv : v.Shows f out) :
    SameFrame f v.frame (genFrame r (seq.setWidth 64) ts f.traffic.lenLo) ↔
      ∀ i, ¬f.Exempt i →
        out.getD i 0 = frameByte (genFrame r (seq.setWidth 64) ts f.traffic.lenLo) i := by
  rw [SameFrame, hv.length, hr.length_genFrame_lenLo hf hraw seq ts]
  constructor
  · rintro ⟨-, h⟩ i hi
    rw [← h i hi, hv.byte i hi]
  · intro h
    refine ⟨rfl, ?_⟩
    intro i hi
    rw [hv.byte i hi, h i hi]

/-- The tag of both frames. -/
theorem pcp_of_agree {out rest : List Byte} (hout : out = pvEth f seq ++ rest)
    (h : ∀ i, ¬f.Exempt i →
      out.getD i 0 = frameByte (genFrame r (seq.setWidth 64) ts f.traffic.lenLo) i)
    (hv : f.l2.vlanSet = true) : f.l2.pcp = 0 := by
  have heth := (hr.holdsHeaders hf hraw (seq.setWidth 64) ts f.traffic.lenLo).eth
  have hsent := ((ethLayer_of_holds heth).2.2 (hr.vlanEn.trans hv)).2
  rw [hr.vlan_eq] at hsent
  have hl4 := f.etOff_add_le
  have het : 12 ≤ f.etOff := Nat.le_add_right _ _
  have hshown := (holds_pieces hout).1
  rw [pvEth_eq, if_pos hv] at hshown
  simp only [holds_append, List.length_append, length_beBytes, List.length_cons, List.length_nil,
    Nat.reduceAdd] at hshown
  have htci := be16_of_holds hshown.2.2
  have hbytes : be16 (fun i => out.getD i 0) 14 =
      be16 (frameByte (genFrame r (seq.setWidth 64) ts f.traffic.lenLo)) 14 := by
    rw [be16, be16, h 14 (PwFlow.not_exempt_of_lt (by omega)),
      h 15 (PwFlow.not_exempt_of_lt (by omega))]
  rw [htci, hsent, append_eq_append_iff] at hbytes
  exact (pcp_eq_zero_iff hf).mpr hbytes.1.symm

/-- A raw IP frame is sent with the number of the L4 protocol. -/
theorem not_agree_l3raw (h3 : f.traffic.frameTemplate = .l3raw) {out : List Byte} {n m : ℕ}
    (hout : out = pvEth f seq ++ pvLink f n ++ pvIp f seq m) :
    ¬∀ i, ¬f.Exempt i →
      out.getD i 0 = frameByte (genFrame r (seq.setWidth 64) ts f.traffic.lenLo) i := by
  intro h
  have h2raw : f.traffic.frameTemplate ≠ .l2raw := by
    rw [h3]
    decide
  have hsent : Sent f (seq.setWidth 64) (genFrame r (seq.setWidth 64) ts f.traffic.lenLo) :=
    sent_genFrame hr hf hraw f.traffic.lenLo
  have hip := hsent.ip h2raw
  have hoff := f.etOff_add_le
  have hshown := (holds_pieces hout).2
  rw [List.length_append, length_pvEth, length_pvLink, pvIp, if_pos h3] at hshown
  have hproto : f.udp.l4Proto ≠ 0xFD := by
    rcases hf.l4Proto with hl4 | hl4 <;> rw [hl4] <;> decide
  rw [CarriesIp] at hip
  cases h6 : f.ipv6.present with
  | true =>
    rw [if_pos h6, pvIpv6_eq hf.dscp6] at hshown
    rw [if_pos h6] at hip
    apply hproto
    rw [← hip.proto, ← h _ (PwFlow.not_exempt_of_lt (by omega))]
    exact (readsIpv6_of_holds hshown).next
  | false =>
    rw [if_neg (by simp [h6]), pvIpv4_eq] at hshown
    rw [if_neg (by simp [h6])] at hip
    apply hproto
    rw [← hip.proto, ← h _ (PwFlow.not_exempt_of_lt (by omega))]
    exact (readsIpv4_of_holds hshown).proto

/-- A raw L2 frame. -/
theorem agree_l2raw_iff (h2 : f.traffic.frameTemplate = .l2raw) {out : List Byte}
    (hout : out = pvEth f seq ++
      beBytes 2 (if f.l2.ethertype ≠ 0 then f.l2.ethertype else pvInnerEt f)) :
    (∀ i, ¬f.Exempt i →
        out.getD i 0 = frameByte (genFrame r (seq.setWidth 64) ts f.traffic.lenLo) i) ↔
      f.Previewable := by
  have hp : f.encap.present = false := hraw (by rw [h2]; decide)
  have h0 : r.encapType = 0#2 := (hr.encapType_eq_zero_iff hf).mpr hp
  have h3 : r.frameTemplate = 3#2 := (hr.template_eq_iff .l2raw).mpr h2
  constructor
  · intro h
    refine ⟨hr.pcp_of_agree hf hraw seq ts hout h, ?_, ?_, ?_, ?_⟩ <;> simp [h2, hp]
  · intro hf' i _
    have heff := (hr.effLen_range hf f.traffic.lenLo).2
    have hlink := hr.pvPlain_eq hf seq (r.payLen f.traffic.lenLo) hp
    rw [linkLayer_shown _ _ (fun h => absurd h0 h)] at hlink
    simp only [h2, true_and] at hlink
    rw [hout, hlink, hr.pvEth_eq_ethLayer seq (r.payLen f.traffic.lenLo) hf'.pcp,
      frameByte_genFrame (hr.rawPlain hraw hf) (by omega), build, layers, h3]
    rfl

omit hraw in
/-- Where the headers of a preview stand. -/
theorem holds_shown {out rest : List Byte} {g : GenFields} {p : BitVec 12}
    (hout : out = pvEth f seq ++ linkLayer r.shown g p ++ ipLayer r.shown g p ++
      l4Header r.shown (seq.setWidth 64) g p 0 ++ rest) :
    Holds (fun i => out.getD i 0) f.etOff (linkLayer r.shown g p) ∧
      Holds (fun i => out.getD i 0) f.ipOff (ipLayer r.shown g p) ∧
      Holds (fun i => out.getD i 0) f.l4Off (l4Header r.shown (seq.setWidth 64) g p 0) := by
  have hlink : r.etOff + (linkLayer r.shown g p).length = r.ipOff :=
    etOff_add_length_linkLayer r.shown g p
  have hip : r.ipOff + (ipLayer r.shown g p).length = r.l4Off := by
    rw [length_ipLayer]
    rfl
  rw [hr.etOff_eq, hr.ipOff_eq hf] at hlink
  rw [hr.ipOff_eq hf, hr.l4Off_eq hf] at hip
  have hall := (holds_pieces hout).1
  simp only [holds_append, List.length_append, Nat.zero_add, length_pvEth, hlink, hip] at hall
  exact ⟨hall.1.1.2, hall.1.2, hall.2⟩

/-- Where the frame agrees with the preview, no default is shown. -/
theorem previewable_of_agree (h2 : f.traffic.frameTemplate ≠ .l2raw)
    (h3 : f.traffic.frameTemplate ≠ .l3raw) {out rest : List Byte} {g : GenFields} {p : BitVec 12}
    (hout : out = pvEth f seq ++ linkLayer r.shown g p ++ ipLayer r.shown g p ++
      l4Header r.shown (seq.setWidth 64) g p 0 ++ rest)
    (h : ∀ i, ¬f.Exempt i →
      out.getD i 0 = frameByte (genFrame r (seq.setWidth 64) ts f.traffic.lenLo) i) :
    f.Previewable := by
  have H := hr.holdsHeaders hf hraw (seq.setWidth 64) ts f.traffic.lenLo
  have hr2 : r.frameTemplate ≠ 2#2 := mt (hr.template_eq_iff .l3raw).mp h3
  have hr3 : r.frameTemplate ≠ 3#2 := mt (hr.template_eq_iff .l2raw).mp h2
  have hoff := f.etOff_add_le
  obtain ⟨hlink, hip, hl4⟩ := hr.holds_shown hf seq hout
  refine ⟨hr.pcp_of_agree hf hraw seq ts (by simpa only [List.append_assoc] using hout) h, h3,
    ?_, ?_, ?_⟩
  · intro _
    have hsent := ttl_of_holds (H.ip hr3)
    have hshown : out.getD (f.ipOff + if r.isV6 then 7 else 8) 0 = orDefault r.ttl 64 :=
      ttl_of_holds hip
    have hlt : (if r.isV6 then 7 else 8) < 9 := by split <;> decide
    rw [hr.ipOff_eq hf, ← h _ (PwFlow.not_exempt_of_lt (by omega)), hshown,
      orDefault_eq_iff (by decide), hr.ttl_eq] at hsent
    exact hsent
  · intro hp
    have h0 := hr.encapType_ne_zero hf hp
    have hsent := outerTtl_of_holds h0 H.link
    have hshown : out.getD (f.etOff + 2 + if r.outerV6 then 7 else 8) 0 = orDefault r.outerTtl 64 :=
      outerTtl_of_holds (r := r.shown) h0 hlink
    have hlt : (if r.outerV6 then 7 else 8) < 9 := by split <;> decide
    rw [hr.etOff_eq, ← h _ (PwFlow.not_exempt_of_lt (by omega)), hshown,
      orDefault_eq_iff (by decide), hr.outerTtl_eq hp] at hsent
    exact hsent
  · intro _ htcp
    have htcp' : r.l4Proto = 6#8 := hr.l4Proto.trans htcp
    have hl4' := H.l4 hr3 hr2
    rw [l4Layer_eq] at hl4'
    have hsent := flags_of_holds htcp' hl4'
    have hshown : out.getD (f.l4Off + 13) 0 = orDefault r.tcpFlags 2 :=
      flags_of_holds (r := r.shown) htcp' hl4
    rw [hr.l4Off_eq hf, ← h _ (PwFlow.not_exempt_flags htcp), hshown, orDefault_eq_iff (by decide),
      hr.tcpFlags] at hsent
    exact hsent

/-- Where no default is shown, the frame agrees with the preview. -/
theorem agree_of_previewable (h2 : f.traffic.frameTemplate ≠ .l2raw)
    (h3 : f.traffic.frameTemplate ≠ .l3raw) (hpv : f.Previewable) {p : BitVec 12}
    (hp : p = r.payLen f.traffic.lenLo) {i : ℕ} (hi : ¬f.Exempt i) :
    (pvEth f seq ++ linkLayer r.shown (precompute r.shown (seq.setWidth 64) p) p ++
      ipLayer r.shown (precompute r.shown (seq.setWidth 64) p) p ++
      l4Header r.shown (seq.setWidth 64) (precompute r.shown (seq.setWidth 64) p) p 0 ++
        if f.traffic.frameTemplate = .test then testHeader r.shown (seq.setWidth 64) 0
        else []).getD i 0 =
      frameByte (genFrame r (seq.setWidth 64) ts f.traffic.lenLo) i := by
  have heff := (hr.effLen_range hf f.traffic.lenLo).2
  have hr0 : r.frameTemplate = 0#2 ↔ f.traffic.frameTemplate = .test := hr.template_eq_iff .test
  have hr2 : r.frameTemplate ≠ 2#2 := mt (hr.template_eq_iff .l3raw).mp h3
  have hr3 : r.frameTemplate ≠ 3#2 := mt (hr.template_eq_iff .l2raw).mp h2
  have hlink : r.encapType ≠ 0#2 → r.outerTtl ≠ 0 := by
    intro h0
    have hp : f.encap.present = true := by
      by_contra hne
      exact h0 ((hr.encapType_eq_zero_iff hf).mpr (by simpa using hne))
    rw [hr.outerTtl_eq hp]
    exact hpv.outerTtl hp
  have httl : r.ttl ≠ 0 := by
    rw [hr.ttl_eq]
    exact hpv.ttl h2
  have hflags : r.l4Proto = 6#8 → r.tcpFlags ≠ 0 := by
    rw [hr.l4Proto, hr.tcpFlags]
    exact hpv.flags h2
  have htest : testHeader r.shown (seq.setWidth 64) 0 = testHeader r (seq.setWidth 64) 0 := rfl
  rw [hr.pvEth_eq_ethLayer seq p hpv.pcp, linkLayer_shown _ _ hlink, ipLayer_shown _ _ httl,
    l4Header_shown _ _ hflags, htest, frameByte_genFrame (hr.rawPlain hraw hf) (by omega), ← hp,
    build, layers, if_neg hr3, if_neg hr2, l4Layer_eq]
  generalize hg : precompute r (seq.setWidth 64) p = g
  have hlen : (ethLayer r g ++ linkLayer r g p ++ ipLayer r g p).length = f.l4Off := by
    have hsum := etOff_add_length_linkLayer r g p
    have heth : (ethLayer r g).length = r.etOff := length_ethLayer r g
    rw [List.length_append, List.length_append, heth, hsum, length_ipLayer, ← hr.l4Off_eq hf,
      PwFlowRow.l4Off]
  have hcsum : i < f.csumOff ∨ f.csumOff + 2 ≤ i := by
    by_contra hin
    exact hi (.inl ⟨h2, h3, by omega, by omega⟩)
  rw [getD_l4Header_swap hlen (by rw [hr.l4Proto]; exact hcsum)]
  by_cases ht : f.traffic.frameTemplate = .test
  · have hts : i < f.l4Off + f.l4Len + 20 ∨ f.l4Off + f.l4Len + 28 ≤ i := by
      by_contra hin
      exact hi (.inr ⟨ht, by omega, by omega⟩)
    rw [if_pos ht, if_pos (hr0.mpr ht)]
    refine getD_testHeader_swap ?_ hts
    rw [List.length_append, hlen, length_l4Header, hr.l4Hl_eq]
  · rw [if_neg ht, if_neg (mt hr0.mp ht), List.append_nil]

/-- What the preview of a frame with an L4 header shows, in terms of the row. -/
theorem shows_l4 {cap : ℕ} (hcap : f.sentLen ≤ cap) (h2 : f.traffic.frameTemplate ≠ .l2raw)
    (h3 : f.traffic.frameTemplate ≠ .l3raw) {p : BitVec 12}
    (hp : p = r.payLen f.traffic.lenLo) :
    ∃ v, pwFlowBuildPreview f seq cap = some v ∧ v.Shows f
      (pvEth f seq ++ linkLayer r.shown (precompute r.shown (seq.setWidth 64) p) p ++
        ipLayer r.shown (precompute r.shown (seq.setWidth 64) p) p ++
        l4Header r.shown (seq.setWidth 64) (precompute r.shown (seq.setWidth 64) p) p 0 ++
        if f.traffic.frameTemplate = .test then testHeader r.shown (seq.setWidth 64) 0
        else []) := by
  obtain ⟨v, hv, hshows⟩ := preview_l4 hf hraw hcap seq h2 h3
  refine ⟨v, hv, ?_⟩
  have hlink : pvLink f (pvTunLen f + (if f.ipv6.present then 40 else 20) + f.l4Len + p.toNat) =
      linkLayer r.shown (precompute r.shown (seq.setWidth 64) p) p := by
    rw [pvLink]
    cases hen : f.encap.present with
    | true =>
      rw [if_pos rfl, ← hr.pvOuter_eq hf seq p hen, hr.pvTunLen_eq hen, PwFlowRow.ipHl, hr.isV6,
        hr.l4Hl_eq]
    | false =>
      rw [if_neg (by decide), ← hr.pvPlain_eq hf seq p hen, if_neg (fun h => h2 h.1)]
  rw [hr.payLen_lenLo hf hraw h2 h3, ← hp, hlink, ← hr.l4Hl_eq, hr.pvIp_eq hf seq p h3,
    hr.pvL4_eq seq p, hr.pvTest_eq seq] at hshows
  exact hshows

/-- **The preview is the frame sent** exactly for the flows that ask for nothing special. -/
theorem preview_iff {cap : ℕ} (hcap : f.sentLen ≤ cap) :
    ∃ v, pwFlowBuildPreview f seq cap = some v ∧
      ∀ ts, SameFrame f v.frame (genFrame r (seq.setWidth 64) ts f.traffic.lenLo) ↔
        f.Previewable := by
  by_cases h2 : f.traffic.frameTemplate = .l2raw
  · obtain ⟨v, hv, hshows⟩ := preview_l2raw hf hcap seq h2
    refine ⟨v, hv, fun ts => ?_⟩
    rw [hr.sameFrame_iff hf hraw seq ts hshows]
    exact hr.agree_l2raw_iff hf hraw seq ts h2 rfl
  · by_cases h3 : f.traffic.frameTemplate = .l3raw
    · obtain ⟨v, hv, n, m, hshows⟩ := preview_l3raw hf hraw hcap seq h3
      refine ⟨v, hv, fun ts => ?_⟩
      rw [hr.sameFrame_iff hf hraw seq ts hshows]
      exact iff_of_false (hr.not_agree_l3raw hf hraw seq ts h3 rfl) (fun hpv => hpv.template h3)
    · obtain ⟨v, hv, hshows⟩ := hr.shows_l4 hf hraw seq hcap h2 h3 rfl
      refine ⟨v, hv, fun ts => ?_⟩
      rw [hr.sameFrame_iff hf hraw seq ts hshows]
      exact ⟨hr.previewable_of_agree hf hraw seq ts h2 h3 rfl,
        fun hpv i hi => hr.agree_of_previewable hf hraw seq ts h2 h3 hpv rfl hi⟩

end RowOf

/-! ## Compiled flows -/

/-- **The preview is what the generator sends.**  For every flow of a parsed configuration that
compiles, and every sequence number below `2 ^ 32`, the preview into a buffer that holds the
frame succeeds.  It is the frame that the generator builds from the flow's row at the shortest
length, but for the L4 checksum and the time stamp, exactly when the flow is not tagged with a
priority, is not a raw IP flow, and sets no hop limit and no TCP flags of its headers to zero. -/
theorem preview_parity_iff {cfg : PwConfig} {p : PwProgram} (hcfg : cfg.Parsed)
    (h : pwFlowCompile cfg = .ok p) {i : ℕ} {f : PwFlow} (hf : cfg.flows[i]? = some f) {cap : ℕ}
    (hcap : f.sentLen ≤ cap) :
    ∃ m row, p.flowMeta[i]? = some m ∧ p.txRowOf m = some row ∧
      ∀ seq : BitVec 32, ∃ v, pwFlowBuildPreview f seq cap = some v ∧
        ∀ ts, SameFrame f v.frame
            (genFrame (pwDecodeFlowRow row.byte) (seq.setWidth 64) ts f.traffic.lenLo) ↔
          f.Previewable := by
  obtain ⟨hparsed, hraw, m, row, hm, hrow, hr⟩ := exists_rowOf_of_compile hcfg h hf
  exact ⟨m, row, hm, hrow, fun seq => hr.preview_iff hparsed hraw seq hcap⟩

/-- A sample flow that is previewed as it is sent. -/
theorem preview_parity_sample :
    ∃ p m row, pwFlowCompile sampleHeaderConfig = .ok p ∧ p.flowMeta[0]? = some m ∧
      p.txRowOf m = some row ∧
      ∃ v, pwFlowBuildPreview (sampleHeaderFlow 1 0x0A000002) 7 9200 = some v ∧
        SameFrame (sampleHeaderFlow 1 0x0A000002) v.frame
          (genFrame (pwDecodeFlowRow row.byte) ((7 : BitVec 32).setWidth 64) 0
            (sampleHeaderFlow 1 0x0A000002).traffic.lenLo) := by
  obtain ⟨p, hp, -⟩ := exists_of_okAnd
    (show okAnd (pwFlowCompile sampleHeaderConfig) (fun _ => true) = true by decide +kernel)
  obtain ⟨m, row, hm, hrow, hpv⟩ := preview_parity_iff parsed_sampleHeaderConfig hp
    (i := 0) rfl (by decide : (sampleHeaderFlow 1 0x0A000002).sentLen ≤ 9200)
  obtain ⟨v, hv, hsame⟩ := hpv 7
  refine ⟨p, m, row, hp, hm, hrow, v, hv, (hsame 0).mpr ?_⟩
  constructor <;> decide

/-- **A preview shows a priority that is not sent.**  No frame of the flow with VLAN 100 and
priority 5 is the one that its preview shows. -/
theorem preview_shows_priority :
    sampleTaggedConfig.Parsed ∧ ∃ p m row v, pwFlowCompile sampleTaggedConfig = .ok p ∧
      p.flowMeta[0]? = some m ∧ p.txRowOf m = some row ∧
      pwFlowBuildPreview sampleTaggedFlow 7 9200 = some v ∧
      ∀ ts, ¬SameFrame sampleTaggedFlow v.frame
        (genFrame (pwDecodeFlowRow row.byte) ((7 : BitVec 32).setWidth 64) ts
          sampleTaggedFlow.traffic.lenLo) := by
  obtain ⟨p, hp, -⟩ := exists_of_okAnd
    (show okAnd (pwFlowCompile sampleTaggedConfig) (fun _ => true) = true by decide +kernel)
  obtain ⟨hparsed, hraw, m, row, hm, hrow, hr⟩ := exists_rowOf_of_compile
    parsed_sampleTaggedConfig hp (i := 0) (f := sampleTaggedFlow) rfl
  obtain ⟨v, hv, hsame⟩ := hr.preview_iff hparsed hraw 7
    (by decide : sampleTaggedFlow.sentLen ≤ 9200)
  refine ⟨parsed_sampleTaggedConfig, p, m, row, v, hp, hm, hrow, hv, fun ts h => ?_⟩
  exact absurd (((hsame ts).mp h).pcp rfl) (by decide)

end PacketWyrm
