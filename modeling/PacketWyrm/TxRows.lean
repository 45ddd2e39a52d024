import PacketWyrm.Compile
import PacketWyrm.AxisPkg

/-!
# The transmit row of a compiled flow

Every flow of a compiled configuration has a row on the card it transmits from,
in the slot its record names, and rows that are in place stay in place.  What
the generator decodes from that row says again what the configuration said.

## Main definitions

* `PwProgram.txRowOf` — the row a flow's record points at.
* `PwFlow.Parsed` — the ranges that the configuration parser enforces.
* `RowOf f r` — the decoded row `r` says what the flow `f` says.

## Main results

* `exists_txRow_of_compile` — the row of every flow is in its place.
* `rowOf_txRow` — a compiled row, decoded, says what the flow says.
-/

namespace PacketWyrm

open Lib

/-! ## Where the row is -/

/-- The row that a flow's record points at. -/
def PwProgram.txRowOf (p : PwProgram) (m : PwFlowMeta) : Option PwfpgaFlowConfig :=
  (cardSlot p m.txCardId).bind fun cp => cp.flowRows[m.txLocalFlowId.toNat]?

/-- The row in a slot of a card. -/
def PwProgram.rowAt (p : PwProgram) (c : BitVec 16) (lfid : BitVec 32) :
    Option PwfpgaFlowConfig :=
  (cardSlot p c).bind fun cp => cp.flowRows[lfid.toNat]?

/-- The rows of the flows seen so far are in their places. -/
def TxPlaced (l : List PwFlow) (p : PwProgram) : Prop :=
  ∀ x ∈ l.zip p.flowMeta, ∃ egress same,
    p.txRowOf x.2 = some (txRow x.1 egress x.2.txLocalFlowId same)

section OneFlow

variable {cfg : PwConfig} {out out' : PwProgram} {f : PwFlow}

/-- A flow only appends rows. -/
theorem FlowPlan.flowRows_delta (P : FlowPlan cfg out f) (hfits : P.Fits) {c : BitVec 16}
    {cp : PwCardProgram} (hc : cardSlot out c = some cp) :
    ∃ rows, (P.delta c cp).flowRows = cp.flowRows ++ rows := by
  rcases P.delta_cases hfits hc with ⟨-, -, hsame⟩ | ⟨row, hadd⟩
  · exact ⟨[], by rw [hsame, List.append_nil]⟩
  · exact ⟨[row], by rw [hadd.eq]⟩

/-- Rows in place stay in place. -/
theorem rowAt_mono (P : FlowPlan cfg out f) (hfits : P.Fits)
    (hslot : ∀ c, cardSlot out' c = (cardSlot out c).map (P.delta c)) {c : BitVec 16}
    {lfid : BitVec 32} {row : PwfpgaFlowConfig} (h : out.rowAt c lfid = some row) :
    out'.rowAt c lfid = some row := by
  rw [PwProgram.rowAt, Option.bind_eq_some_iff] at h
  obtain ⟨cp, hcp, hrow⟩ := h
  obtain ⟨rows, hrows⟩ := P.flowRows_delta hfits hcp
  have hlt : lfid.toNat < cp.flowRows.length := (List.getElem?_eq_some_iff.mp hrow).1
  rw [PwProgram.rowAt, hslot, hcp, Option.map_some, Option.bind_some, hrows,
    List.getElem?_append_left hlt, hrow]

/-- The new flow's row is in its place. -/
theorem txRowOf_flowMeta (P : FlowPlan cfg out f) (hfits : P.Fits)
    (hslot : ∀ c, cardSlot out' c = (cardSlot out c).map (P.delta c)) :
    out'.txRowOf P.flowMeta = some (txRow f P.tx.localPortId P.txLfid P.sameCard) := by
  have hcard : cardSlot out P.flowMeta.txCardId = some P.txCp := P.txCp_eq
  rcases P.delta_cases hfits hcard with ⟨hne, -, -⟩ | ⟨row, hadd⟩
  · exact absurd rfl hne
  · have hrow : row = txRow f P.tx.localPortId P.txLfid P.sameCard := by
      rcases hadd.row_eq with ⟨-, h⟩ | ⟨h, -⟩
      · exact h
      · exact absurd rfl h
    have hnat : P.flowMeta.txLocalFlowId.toNat = P.txCp.flowRows.length :=
      toNat_ofNat_length hadd.free
    rw [PwProgram.txRowOf, hslot, hcard, Option.map_some, Option.bind_some, hadd.eq, hnat]
    simp [hrow]

end OneFlow

/-- **The flow pass puts every row in its place.** -/
theorem txPlaced_flows {cfg : PwConfig} {mid : PwProgram} {l : List PwFlow}
    (h : l.foldlM (compileOneFlow cfg) (initProgram cfg) = .ok mid) :
    l.length = mid.flowMeta.length ∧ TxPlaced l mid := by
  refine foldlM_ok_induction (P := fun pre q => pre.length = q.flowMeta.length ∧ TxPlaced pre q)
    h ⟨rfl, by simp [TxPlaced]⟩ ?_
  intro pre f post q q' _ ih hstep
  obtain ⟨hlen, hplaced⟩ := ih
  obtain ⟨P, hfits, hw, hmeta⟩ := compileOneFlow_spec hstep
  refine ⟨by simp [hmeta, hlen], ?_⟩
  intro x hx
  rw [hmeta, List.zip_append hlen, List.mem_append] at hx
  rcases hx with hx | hx
  · obtain ⟨egress, same, hrow⟩ := hplaced x hx
    exact ⟨egress, same, rowAt_mono P hfits hw.slot hrow⟩
  · obtain rfl : x = (f, P.flowMeta) := by simpa using hx
    exact ⟨P.tx.localPortId, P.sameCard, txRowOf_flowMeta P hfits hw.slot⟩

/-- The passes after the flows keep every row. -/
theorem CompileStages.rowAt {cfg : PwConfig} {p : PwProgram} (S : CompileStages cfg p)
    {c : BitVec 16} {lfid : BitVec 32} {row : PwfpgaFlowConfig}
    (h : S.afterFlows.rowAt c lfid = some row) : p.rowAt c lfid = some row := by
  rw [PwProgram.rowAt, Option.bind_eq_some_iff] at h
  obtain ⟨cp, hcp, hget⟩ := h
  have hidMem : c ∈ p.perCard.map PwCardProgram.cardId := by
    rw [S.cardIds, ← cardIds_initProgram, ← cardIds_compileFlows S.flows,
      ← cardId_of_cardSlot cp hcp]
    exact List.mem_map_of_mem (List.mem_of_find?_eq_some hcp)
  obtain ⟨cp', hcp'⟩ := exists_cardSlot_of_mem hidMem
  obtain ⟨T⟩ := S.trace (List.mem_of_find?_eq_some hcp')
  have hsame : T.afterFlows = cp := by
    have := T.flows_eq
    rw [cardId_of_cardSlot cp' hcp', hcp] at this
    exact (Option.some.inj this).symm
  rw [PwProgram.rowAt, hcp', Option.bind_some, T.flowRows_eq, hsame, hget]

/-- **Every flow of a compiled configuration has its row in place.** -/
theorem exists_txRow_of_compile {cfg : PwConfig} {p : PwProgram} (h : pwFlowCompile cfg = .ok p)
    {i : ℕ} {f : PwFlow} (hf : cfg.flows[i]? = some f) :
    ∃ m egress same, p.flowMeta[i]? = some m ∧
      p.txRowOf m = some (txRow f egress m.txLocalFlowId same) := by
  obtain ⟨S⟩ := pwFlowCompile_eq_ok_iff.mp h
  have hmeta : p.flowMeta = S.afterFlows.flowMeta := S.metas.trans S.rules.metas
  obtain ⟨hlen, hplaced⟩ := txPlaced_flows S.flows
  have hi : i < cfg.flows.length := (List.getElem?_eq_some_iff.mp hf).1
  obtain ⟨m, hm⟩ : ∃ m, S.afterFlows.flowMeta[i]? = some m :=
    ⟨_, List.getElem?_eq_getElem (hlen ▸ hi)⟩
  have hmem : (f, m) ∈ cfg.flows.zip S.afterFlows.flowMeta := by
    apply List.mem_of_getElem? (i := i)
    rw [List.getElem?_zip_eq_some]
    exact ⟨hf, hm⟩
  obtain ⟨egress, same, hrow⟩ := hplaced _ hmem
  exact ⟨m, egress, same, hmeta ▸ hm, S.rowAt hrow⟩

/-! ## What a parsed flow is -/

/-- The shortest length of the sweep. -/
def PwFlowTraffic.lenLo (t : PwFlowTraffic) : BitVec 16 :=
  if t.frameLenFixedSet then t.frameLenFixed else t.frameLenMin

/-- The longest length of the sweep. -/
def PwFlowTraffic.lenHi (t : PwFlowTraffic) : BitVec 16 :=
  if t.frameLenFixedSet then t.frameLenFixed else t.frameLenMax

/-- The ranges that `parse_flow` enforces on the fields it reads: one address
family within the tunnel and one around it, UDP or TCP, and numbers that fit
the header fields they are meant for.  The low word of an IPv6 modifier's mask
is kept twice. -/
structure PwFlow.Parsed (f : PwFlow) : Prop where
  vlan : f.l2.vlan.toNat < 4095
  pcp : f.l2.pcp.toNat ≤ 7
  family : f.ipv4.present = !f.ipv6.present
  dscp4 : f.ipv4.dscp.toNat ≤ 63
  dscp6 : f.ipv6.dscp.toNat ≤ 63
  encapType : f.encap.present = true → f.encap.type ≠ .none
  outerFamily : f.encap.present = true → f.encap.outerIpv4.present = !f.encap.outerIpv6.present
  outerDscp4 : f.encap.outerIpv4.dscp.toNat ≤ 63
  outerDscp6 : f.encap.outerIpv6.dscp.toNat ≤ 63
  l4Proto : f.udp.l4Proto = 6#8 ∨ f.udp.l4Proto = 17#8
  lenLo : 60 ≤ f.traffic.lenLo.toNat
  lenLe : f.traffic.lenLo.toNat ≤ f.traffic.lenHi.toNat
  lenHi : f.traffic.lenHi.toNat ≤ 1518
  step : f.traffic.frameLenFixedSet = false → f.traffic.frameLenStep ≠ 0
  srcMask : f.ipv6.present = true →
    f.mod.srcIpv4.mask = (f.mod.srcIpv6Mask.setWidth 32).setWidth 64
  dstMask : f.ipv6.present = true →
    f.mod.dstIpv4.mask = (f.mod.dstIpv6Mask.setWidth 32).setWidth 64

theorem parsed_sampleHeaderFlow (id dst : BitVec 32) : (sampleHeaderFlow id dst).Parsed := by
  constructor <;> simp [sampleHeaderFlow, PwFlowTraffic.lenLo, PwFlowTraffic.lenHi]

/-! ## What the decoded row says -/

/-- The code of the tunnel that a flow uses. -/
def PwFlowEncap.kind (e : PwFlowEncap) : PwEncapKind := if e.present then e.type else .none

/-- The decoded row `r` says what the flow `f` says. -/
structure RowOf (f : PwFlow) (r : PwFlowRow) : Prop where
  flowId : r.flowId = f.id
  srcMac : r.srcMac = f.l2.srcMac
  dstMac : r.dstMac = f.l2.dstMac
  vlanEn : r.vlanEn = f.l2.vlanSet
  vlanId : r.vlanId = f.l2.vlan.setWidth 12
  isV6 : r.isV6 = f.ipv6.present
  ipv4 : f.ipv6.present = false →
    r.srcIpv4 = f.ipv4.src ∧ r.dstIpv4 = f.ipv4.dst ∧ r.ttl = f.ipv4.ttl ∧ r.dscp = f.ipv4.dscp
  ipv6 : f.ipv6.present = true →
    r.ipv6Src = f.ipv6.src ∧ r.ipv6Dst = f.ipv6.dst ∧ r.ttl = f.ipv6.hopLimit ∧
      r.dscp = f.ipv6.dscp
  udpSp : r.udpSp = f.udp.srcPort
  udpDp : r.udpDp = f.udp.dstPort
  l4Proto : r.l4Proto = f.udp.l4Proto
  tcpFlags : r.tcpFlags = f.udp.tcpFlags
  frameTemplate : r.frameTemplate = f.traffic.frameTemplate.code.setWidth 2
  l2Ethertype : r.l2Ethertype = f.l2.ethertype
  encapType : r.encapType = f.encap.kind.code.setWidth 2
  outerV6 : f.encap.present = true → r.outerV6 = f.encap.outerIpv6.present
  outerIpv4 : f.encap.present = true → f.encap.outerIpv6.present = false →
    r.outerSrcIpv4 = f.encap.outerIpv4.src ∧ r.outerDstIpv4 = f.encap.outerIpv4.dst ∧
      r.outerTtl = f.encap.outerIpv4.ttl ∧ r.outerDscp = f.encap.outerIpv4.dscp
  outerIpv6 : f.encap.present = true → f.encap.outerIpv6.present = true →
    r.outerIpv6Src = f.encap.outerIpv6.src ∧ r.outerIpv6Dst = f.encap.outerIpv6.dst ∧
      r.outerTtl = f.encap.outerIpv6.hopLimit ∧ r.outerDscp = f.encap.outerIpv6.dscp
  innerMac : f.encap.present = true →
    r.innerSrcMac = (if f.encap.innerMacSet then f.encap.innerSrcMac else f.l2.srcMac) ∧
      r.innerDstMac = if f.encap.innerMacSet then f.encap.innerDstMac else f.l2.dstMac
  sip : r.sipMod = f.mod.srcIpv4.mode.code.setWidth 2 ∧
    r.sipMask = f.mod.srcIpv4.mask.setWidth 32
  dip : r.dipMod = f.mod.dstIpv4.mode.code.setWidth 2 ∧
    r.dipMask = f.mod.dstIpv4.mask.setWidth 32
  sipHi : f.ipv6.present = true → r.sipMaskHi = f.mod.srcIpv6Mask.extractLsb' 32 96
  dipHi : f.ipv6.present = true → r.dipMaskHi = f.mod.dstIpv6Mask.extractLsb' 32 96
  sp : r.spMod = f.mod.udpSrc.mode.code.setWidth 2 ∧ r.spMask = f.mod.udpSrc.mask.setWidth 16
  dp : r.dpMod = f.mod.udpDst.mode.code.setWidth 2 ∧ r.dpMask = f.mod.udpDst.mask.setWidth 16
  smac : r.smacMod = f.mod.srcMac.mode.code.setWidth 2 ∧
    r.smacMask = f.mod.srcMac.mask.setWidth 48
  dmac : r.dmacMod = f.mod.dstMac.mode.code.setWidth 2 ∧
    r.dmacMask = f.mod.dstMac.mask.setWidth 48
  vlanMod : r.vlanMod = f.mod.vlan.mode.code.setWidth 2 ∧
    r.vlanMask = (f.mod.vlan.mask &&& 0x0FFF).setWidth 16
  frameLenMin : r.frameLenMin = f.traffic.lenLo
  frameLenMax : r.frameLenMax = f.traffic.lenHi

namespace PwfpgaFlowConfig

variable (row : PwfpgaFlowConfig) (f : PwFlow)

theorem withLengths_eq (t : PwFlowTraffic) :
    row.withLengths t =
      { row with
        frameLenMin := t.lenLo, frameLenMax := t.lenHi
        frameLenStep := if t.frameLenFixedSet then 1
          else if t.frameLenStep = 0 then 1 else t.frameLenStep } := by
  rw [withLengths, PwFlowTraffic.lenLo, PwFlowTraffic.lenHi]
  split <;> rfl

theorem withInnerIp_eq :
    row.withInnerIp f =
      { row with
        ipVersion := if f.ipv6.present then 6 else 4
        ipv6Src := if f.ipv6.present then f.ipv6.src else row.ipv6Src
        ipv6Dst := if f.ipv6.present then f.ipv6.dst else row.ipv6Dst
        srcIpv4 := if f.ipv6.present then row.srcIpv4 else f.ipv4.src
        dstIpv4 := if f.ipv6.present then row.dstIpv4 else f.ipv4.dst
        ttl := if f.ipv6.present then f.ipv6.hopLimit else f.ipv4.ttl
        dscp := if f.ipv6.present then f.ipv6.dscp else f.ipv4.dscp } := by
  rw [withInnerIp]
  split <;> rfl

theorem withEncap_eq :
    row.withEncap f =
      { row with
        encapType := if f.encap.present then f.encap.type.code else row.encapType
        rxExpect := if f.encap.present then f.rxExpect.code else row.rxExpect
        outerIpVersion := if f.encap.present then
          if f.encap.outerIpv6.present then 6 else 4 else row.outerIpVersion
        outerIpv6Src := if f.encap.present && f.encap.outerIpv6.present then
          f.encap.outerIpv6.src else row.outerIpv6Src
        outerIpv6Dst := if f.encap.present && f.encap.outerIpv6.present then
          f.encap.outerIpv6.dst else row.outerIpv6Dst
        outerSrcIpv4 := if f.encap.present && !f.encap.outerIpv6.present then
          f.encap.outerIpv4.src else row.outerSrcIpv4
        outerDstIpv4 := if f.encap.present && !f.encap.outerIpv6.present then
          f.encap.outerIpv4.dst else row.outerDstIpv4
        outerTtl := if f.encap.present then
          if f.encap.outerIpv6.present then f.encap.outerIpv6.hopLimit else f.encap.outerIpv4.ttl
          else row.outerTtl
        outerDscp := if f.encap.present then
          if f.encap.outerIpv6.present then f.encap.outerIpv6.dscp else f.encap.outerIpv4.dscp
          else row.outerDscp
        innerSrcMac := if f.encap.present then
          if f.encap.innerMacSet then f.encap.innerSrcMac else f.l2.srcMac else row.innerSrcMac
        innerDstMac := if f.encap.present then
          if f.encap.innerMacSet then f.encap.innerDstMac else f.l2.dstMac
          else row.innerDstMac } := by
  simp only [withEncap]
  cases f.encap.present <;> cases f.encap.outerIpv6.present <;> rfl

end PwfpgaFlowConfig

theorem normL4Proto_eq {b : Byte} (h : b = 6#8 ∨ b = 17#8) : normL4Proto b = b := by
  rcases h with rfl | rfl <;> rfl

/-- **A compiled row, decoded, says what the flow says.** -/
theorem rowOf_txRow {f : PwFlow} (hf : f.Parsed) (egress : BitVec 8) (lfid : BitVec 32)
    (same : Bool) : RowOf f (txRow f egress lfid same).decoded := by
  have hproto : normL4Proto (if f.udp.l4Proto = 0 then 17 else f.udp.l4Proto) = f.udp.l4Proto := by
    have h0 : f.udp.l4Proto ≠ 0 := by
      rcases hf.l4Proto with h | h <;> rw [h] <;> decide
    rw [if_neg h0, normL4Proto_eq hf.l4Proto]
  have hvlan : (flagByte f.l2.vlanSet).getLsbD 0 = f.l2.vlanSet := by
    cases f.l2.vlanSet <;> rfl
  have hencap : (if f.encap.present = true then f.encap.type.code else 0).setWidth 2 =
      f.encap.kind.code.setWidth 2 := by
    rw [PwFlowEncap.kind]
    split <;> rfl
  simp only [txRow, PwfpgaFlowConfig.withModifiers, PwfpgaFlowConfig.withLengths_eq,
    PwfpgaFlowConfig.withInnerIp_eq, PwfpgaFlowConfig.withEncap_eq, PwfpgaFlowConfig.decoded]
  exact
    { flowId := rfl, srcMac := rfl, dstMac := rfl, vlanEn := hvlan, vlanId := rfl
      isV6 := by dsimp only; cases f.ipv6.present <;> rfl
      ipv4 := fun h => by simp [h]
      ipv6 := fun h => by simp [h]
      udpSp := rfl, udpDp := rfl, l4Proto := hproto, tcpFlags := rfl, frameTemplate := rfl
      l2Ethertype := rfl, encapType := hencap
      outerV6 := fun h => by dsimp only; rw [if_pos h]; cases f.encap.outerIpv6.present <;> rfl
      outerIpv4 := fun h h' => by simp [h, h']
      outerIpv6 := fun h h' => by simp [h, h']
      innerMac := fun h => by simp [h]
      sip := ⟨rfl, rfl⟩, dip := ⟨rfl, rfl⟩
      sipHi := fun h => if_pos h
      dipHi := fun h => if_pos h
      sp := ⟨rfl, rfl⟩, dp := ⟨rfl, rfl⟩, smac := ⟨rfl, rfl⟩, dmac := ⟨rfl, rfl⟩
      vlanMod := ⟨rfl, rfl⟩, frameLenMin := rfl, frameLenMax := rfl }

end PacketWyrm
