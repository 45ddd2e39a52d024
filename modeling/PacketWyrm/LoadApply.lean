import PacketWyrm.FlowReplace
import PacketWyrm.FormFlow
import PacketWyrm.HeaderFields

/-!
# Load current, then Apply

A flow of a running configuration is loaded into the form of the web interface and applied again.
What the form does not carry comes back as the parser's default, without a word: the logical
interface, the priority of the VLAN tag, the DSCP of the inner header, the bursts, the payload's
seed, and what a static modifier or an unused pair of inner addresses says.

## Main definitions

* `loadApply` — the flow that is parsed in the end.
* `Reapplies` — it compiles to the same row and the same receive entries.
* `Carried` — what the form carries of a flow.

## Main results

* `reapplies_iff` — exactly the flows that the form carries whole round-trip.
-/

namespace PacketWyrm

open Lib

/-! ## The property -/

/-- Load current, then Apply: the flow as the daemon parses it again.  `id` is the number that a new
flow of the form would have. -/
def loadApply (inet : Inet) (id : ℤ) (idx : ℕ) (name : List Byte) (f : PwFlow) :
    Except PwFailure PwFlow :=
  parseFlow inet idx (some (JsValue.obj (flowObj (flowFromJson id
    (flowToFormJson inet name f)))).toYaml)

/-- The receive entries of a flow's record: those of its card that name its slot. -/
def PwProgram.rxEntriesOf (p : PwProgram) (m : PwFlowMeta) :
    Option (List PwFlowidMapEntry × List PwFcHashEntry) :=
  if m.rxSlotValid then
    (cardSlot p m.rxCardId).map fun cp =>
      (cp.mapEntries.filter fun e => e.localFlowId == m.rxLocalFlowId,
        cp.hashEntries.filter fun e => e.localFlowId == m.rxLocalFlowId)
  else none

/-- Flow `i` has the same record, row and receive entries in two programs. -/
def SameFlow (p p' : PwProgram) (i : ℕ) : Prop :=
  ∃ m, p.flowMeta[i]? = some m ∧ p'.flowMeta[i]? = some m ∧ p'.txRowOf m = p.txRowOf m ∧
    p'.rxEntriesOf m = p.rxEntriesOf m

/-- **Load current, then Apply, is the identity** for flow `i`: the flow is parsed again, and the
configuration with it in its place compiles to the same row and receive entries. -/
def Reapplies (inet : Inet) (id : ℤ) (name : List Byte) (cfg : PwConfig) (p : PwProgram) (i : ℕ)
    (f : PwFlow) : Prop :=
  ∃ f' p', loadApply inet id i name f = .ok f' ∧
    pwFlowCompile { cfg with flows := cfg.flows.set i f' } = .ok p' ∧ SameFlow p p' i

/-! ## What the form carries -/

/-- **What the form carries of a flow**, and of a row nothing else is left: a number and a rate that
JavaScript hands back as they are, and the default in every setting that the form has no field
for. -/
structure Carried (f : PwFlow) : Prop where
  id : f.id.toNat < 2 ^ 31
  logicalIfId : f.logicalIfId = 0
  pcp : f.l2.pcp = 0
  ttl : (if f.ipv6.present then f.ipv6.hopLimit else f.ipv4.ttl) ≠ 0
  dscp : (if f.ipv6.present then f.ipv6.dscp else f.ipv4.dscp) = 0
  rate_lt : f.traffic.rate.toNat < 2 ^ 63
  rate : shortest (roundDouble f.traffic.rate.toNat) 20 = f.traffic.rate.toNat
  burstSize : f.traffic.burstSize = 1
  burstGapTicks : f.traffic.burstGapTicks = 0
  payloadSeed : f.traffic.payloadSeed = 0
  srcIp : f.mod.srcIpv4.mode = .static →
    f.mod.srcIpv4.mask.setWidth 32 = 0 ∧ f.mod.srcIpv6Mask = 0
  dstIp : f.mod.dstIpv4.mode = .static →
    f.mod.dstIpv4.mask.setWidth 32 = 0 ∧ f.mod.dstIpv6Mask = 0
  udpSrc : f.mod.udpSrc.mode = .static → f.mod.udpSrc.mask.setWidth 16 = 0
  udpDst : f.mod.udpDst.mode = .static → f.mod.udpDst.mask.setWidth 16 = 0
  srcMac : f.mod.srcMac.mode = .static → f.mod.srcMac.mask.setWidth 48 = 0
  dstMac : f.mod.dstMac.mode = .static → f.mod.dstMac.mask.setWidth 48 = 0
  vlan : f.mod.vlan.mode = .static → (f.mod.vlan.mask &&& 0x0FFF).setWidth 16 = 0
  innerMac : f.encap.present = true → f.encap.type ≠ .etherip → f.encap.innerMacSet = true →
    f.encap.innerSrcMac = f.l2.srcMac ∧ f.encap.innerDstMac = f.l2.dstMac

/-! ## The row of a flow that comes back -/

theorem mode_reapplied (x : PwFieldMod) : x.reapplied.mode = x.mode := by
  obtain ⟨mode, mask⟩ := x
  cases mode <;> rfl

theorem reapplied_of_ne {x : PwFieldMod} (h : x.mode ≠ .static) : x.reapplied = x := by
  rw [PwFieldMod.reapplied, PwFieldMod.active, if_pos (bne_iff_ne.mpr h)]

theorem reapplied_of_static {x : PwFieldMod} (h : x.mode = .static) : x.reapplied = {} := by
  rw [PwFieldMod.reapplied, PwFieldMod.active, h]
  rfl

/-- The bits of a mask that the row takes come back, if a static modifier has none of them. -/
theorem mask_reapplied {w : ℕ} (g : BitVec 64 → BitVec w) (hzero : g 0 = 0) {x : PwFieldMod} :
    g x.reapplied.mask = g x.mask ↔ (x.mode = .static → g x.mask = 0) := by
  by_cases h : x.mode = .static
  · rw [reapplied_of_static h]
    exact ⟨fun heq _ => heq.symm.trans hzero, fun hz => hzero.trans (hz h).symm⟩
  · rw [reapplied_of_ne h]
    exact ⟨fun _ h' => absurd h' h, fun _ => rfl⟩

/-- What a row says of the settings that the form may lose. -/
structure RowFields (f : PwFlow) (r : PwfpgaFlowConfig) : Prop where
  logicalIfId : r.logicalIfId = f.logicalIfId
  pcp : r.pcp = f.l2.pcp
  ttl : r.ttl = if f.ipv6.present then f.ipv6.hopLimit else f.ipv4.ttl
  dscp : r.dscp = if f.ipv6.present then f.ipv6.dscp else f.ipv4.dscp
  rateBps : r.rateBps = f.traffic.rateBps
  ratePps : r.ratePps = f.traffic.ratePps
  burstSize : r.burstSize = f.traffic.burstSize
  burstGapTicks : r.burstGapTicks = f.traffic.burstGapTicks
  payloadSeed : r.payloadSeed = f.traffic.payloadSeed
  srcIp : r.srcIpv4Mask = f.mod.srcIpv4.mask.setWidth 32
  srcIpHi : r.srcIpv6MaskHi =
    if f.ipv6.present then f.mod.srcIpv6Mask.extractLsb' 32 96 else 0
  dstIp : r.dstIpv4Mask = f.mod.dstIpv4.mask.setWidth 32
  dstIpHi : r.dstIpv6MaskHi =
    if f.ipv6.present then f.mod.dstIpv6Mask.extractLsb' 32 96 else 0
  udpSrc : r.udpSrcMask = f.mod.udpSrc.mask.setWidth 16
  udpDst : r.udpDstMask = f.mod.udpDst.mask.setWidth 16
  srcMac : r.srcMacMask = f.mod.srcMac.mask.setWidth 48
  dstMac : r.dstMacMask = f.mod.dstMac.mask.setWidth 48
  vlan : r.vlanMask = (f.mod.vlan.mask &&& 0x0FFF).setWidth 16
  innerSrcMac : f.encap.present = true →
    r.innerSrcMac = if f.encap.innerMacSet then f.encap.innerSrcMac else f.l2.srcMac
  innerDstMac : f.encap.present = true →
    r.innerDstMac = if f.encap.innerMacSet then f.encap.innerDstMac else f.l2.dstMac

theorem rowFields_txRow (f : PwFlow) (egress : BitVec 8) (lfid : BitVec 32) (same : Bool) :
    RowFields f (txRow f egress lfid same) := by
  simp only [txRow, PwfpgaFlowConfig.withModifiers, PwfpgaFlowConfig.withLengths_eq,
    PwfpgaFlowConfig.withInnerIp_eq, PwfpgaFlowConfig.withEncap_eq]
  exact
    { logicalIfId := rfl, pcp := rfl, ttl := rfl, dscp := rfl, rateBps := rfl, ratePps := rfl
      burstSize := rfl, burstGapTicks := rfl, payloadSeed := rfl, srcIp := rfl, srcIpHi := rfl
      dstIp := rfl, dstIpHi := rfl, udpSrc := rfl, udpDst := rfl, srcMac := rfl, dstMac := rfl
      vlan := rfl, innerSrcMac := fun h => if_pos h, innerDstMac := fun h => if_pos h }

/-- An address of 128 bits without bits in its two parts. -/
theorem eq_zero_of_parts {x : BitVec 128} (hlo : x.setWidth 32 = 0)
    (hhi : x.extractLsb' 32 96 = 0) : x = 0 := by
  apply BitVec.eq_of_getLsbD_eq
  intro k hk
  rw [BitVec.ofNat_eq_ofNat, BitVec.getLsbD_zero]
  by_cases hlt : k < 32
  · have := congrArg (fun y => y.getLsbD k) hlo
    simpa [hlt] using this
  · have := congrArg (fun y => y.getLsbD (k - 32)) hhi
    rw [BitVec.getLsbD_extractLsb', decide_eq_true (by omega), Bool.true_and,
      Nat.add_sub_cancel' (by omega)] at this
    simpa using this

/-- The two masks of an address come back exactly if a static modifier has none. -/
theorem addressMask_reapplied {v6 : Bool} {x : PwFieldMod} {mask16 : BitVec 128}
    (h : AddressModWritten v6 x mask16) :
    (x.reapplied.mask.setWidth 32 = x.mask.setWidth 32 ∧
      (if v6 then (if x.active then mask16 else 0).extractLsb' 32 96 else 0) =
        if v6 then mask16.extractLsb' 32 96 else 0) ↔
      (x.mode = .static → x.mask.setWidth 32 = 0 ∧ mask16 = 0) := by
  by_cases hs : x.mode = .static
  · have hactive : x.active = false := by rw [PwFieldMod.active, hs]; rfl
    rw [reapplied_of_static hs, hactive, if_neg Bool.false_ne_true]
    cases v6 with
    | false =>
      obtain ⟨-, rfl⟩ := h
      exact ⟨fun heq _ => ⟨heq.1.symm, rfl⟩, fun hz => ⟨(hz hs).1.symm, rfl⟩⟩
    | true =>
      have hlow : x.mask.setWidth 32 = mask16.setWidth 32 := by
        have heq : x.mask = (mask16.setWidth 32).setWidth 64 := h
        rw [heq, BitVec.setWidth_setWidth_of_le _ (by decide), BitVec.setWidth_eq]
      constructor
      · rintro ⟨hlo, hhi⟩ -
        exact ⟨hlo.symm, eq_zero_of_parts (hlow.symm.trans hlo.symm) hhi.symm⟩
      · intro hz
        obtain ⟨hlo, rfl⟩ := hz hs
        exact ⟨hlo.symm, rfl⟩
  · have hactive : x.active = true := bne_iff_ne.mpr hs
    rw [reapplied_of_ne hs, hactive, if_pos rfl]
    exact ⟨fun _ h' => absurd h' hs, fun _ => ⟨rfl, rfl⟩⟩

/-- The inner addresses of a row come back exactly if only EtherIP has its own. -/
theorem innerMac_reapplied (e : PwFlowEncap) (src dst : BitVec 48) :
    ((if e.reapplied.innerMacSet then e.reapplied.innerSrcMac else src) =
        (if e.innerMacSet then e.innerSrcMac else src) ∧
      (if e.reapplied.innerMacSet then e.reapplied.innerDstMac else dst) =
        if e.innerMacSet then e.innerDstMac else dst) ↔
      (e.type ≠ .etherip → e.innerMacSet = true → e.innerSrcMac = src ∧ e.innerDstMac = dst) := by
  rw [PwFlowEncap.reapplied]
  by_cases ht : e.type = .etherip
  · cases hset : e.innerMacSet <;> simp [ht]
  · have hb : (e.type == .etherip) = false := beq_eq_false_iff_ne.mpr ht
    cases hset : e.innerMacSet with
    | false => simp [hb]
    | true => simp [hb, ht, eq_comm]

/-- A rate that is read back as it is is not zero. -/
theorem rate_ne_zero {t : PwFlowTraffic} (ht : t.Written) : t.rate ≠ 0 := by
  rw [PwFlowTraffic.rate, PwFlowTraffic.inPackets]
  by_cases hpps : t.ratePps = 0
  · rw [hpps, bne_self_eq_false, if_neg Bool.false_ne_true]
    exact fun hbps => ht.rate.mp hbps hpps
  · rw [if_pos (bne_iff_ne.mpr hpps)]
    exact hpps

theorem formTtl_getD_iff (ttl : BitVec 8) : (formTtl ttl).getD 64 = ttl ↔ ttl ≠ 0 := by
  rw [formTtl]
  by_cases h : ttl = 0
  · rw [if_pos h, h]
    decide
  · rw [if_neg h]
    exact iff_of_true rfl h

theorem PwFlowIpv4.reapplied_eq {x : PwFlowIpv4} (httl : x.ttl ≠ 0) (hdscp : x.dscp = 0) :
    x.reapplied = x := by
  rw [PwFlowIpv4.reapplied, (formTtl_getD_iff _).mpr httl, ← hdscp]

theorem PwFlowIpv6.reapplied_eq {x : PwFlowIpv6} (httl : x.hopLimit ≠ 0) (hdscp : x.dscp = 0) :
    x.reapplied = x := by
  rw [PwFlowIpv6.reapplied, (formTtl_getD_iff _).mpr httl, ← hdscp]

/-- The rate comes back exactly if it is read as it is. -/
theorem rate_reapplied_iff {t : PwFlowTraffic} (ht : t.Written) (v : BitVec 64) :
    ((t.reapplied v).rateBps = t.rateBps ∧ (t.reapplied v).ratePps = t.ratePps) ↔ v = t.rate := by
  rw [PwFlowTraffic.reapplied, PwFlowTraffic.rate]
  cases hp : t.inPackets with
  | true =>
    have hbps : t.rateBps = 0 := ht.rate.mpr (bne_iff_ne.mp hp)
    rw [if_pos rfl, if_pos rfl, if_pos rfl, hbps]
    exact and_iff_right rfl
  | false =>
    have hpps : t.ratePps = 0 := bne_eq_false_iff_eq.mp hp
    rw [if_neg Bool.false_ne_true, if_neg Bool.false_ne_true, if_neg Bool.false_ne_true, hpps]
    exact and_iff_left rfl

/-- The hop limit and the DSCP of the header that is in use. -/
theorem header_reapplied (f : PwFlow) (v : BitVec 64) :
    (if (f.reapplied v).ipv6.present then (f.reapplied v).ipv6.hopLimit
        else (f.reapplied v).ipv4.ttl) =
      (formTtl (if f.ipv6.present then f.ipv6.hopLimit else f.ipv4.ttl)).getD 64 ∧
    (if (f.reapplied v).ipv6.present then (f.reapplied v).ipv6.dscp
        else (f.reapplied v).ipv4.dscp) = 0 := by
  rw [present_reapplied, PwFlow.reapplied]
  cases f.ipv6.present with
  | false => exact ⟨rfl, rfl⟩
  | true => exact ⟨rfl, rfl⟩

/-! ## What is compiled alike -/

theorem relaxAddrWord_reapplied (v6 : Bool) (x : PwFieldMod) (full : BitVec 128) (set : Bool)
    (matchMask : BitVec 128) (w : ℕ) (m : BitVec 32) :
    relaxAddrWord v6 x.reapplied (if x.active then full else 0) set matchMask w m =
      relaxAddrWord v6 x full set matchMask w m := by
  by_cases h : x.mode = .static
  · have hactive : x.active = false := by rw [PwFieldMod.active, h]; rfl
    have hgone : ({} : PwFieldMod).active = false := rfl
    simp only [relaxAddrWord, reapplied_of_static h, hactive, hgone, Bool.false_eq_true, if_false]
  · have hactive : x.active = true := bne_iff_ne.mpr h
    rw [reapplied_of_ne h, hactive, if_pos rfl]

/-- What an active modifier does with its mask. -/
theorem ite_active_reapplied {α : Type} (x : PwFieldMod) (g : BitVec 64 → α) (d : α) :
    (if x.reapplied.active then g x.reapplied.mask else d) = if x.active then g x.mask else d := by
  by_cases h : x.mode = .static
  · have hactive : x.active = false := by rw [PwFieldMod.active, h]; rfl
    rw [reapplied_of_static h, hactive]
    rfl
  · rw [reapplied_of_ne h]

theorem relaxPorts_reapplied {f f' : PwFlow} (hmod : f'.mod = f.mod.reapplied)
    (hmatch : f'.matchUdpDstMask = f.matchUdpDstMask) (m : BitVec 32) :
    relaxPorts f' m = relaxPorts f m := by
  have hdst (m : BitVec 32) := ite_active_reapplied f.mod.udpDst
    (fun k => m &&& ~~~(k.setWidth 32 &&& 0xFFFF)) m
  have hsrc (m : BitVec 32) := ite_active_reapplied f.mod.udpSrc
    (fun k => m &&& ~~~((k.setWidth 32 &&& 0xFFFF) <<< 16)) m
  rw [relaxPorts, relaxPorts, hmod, hmatch, PwFlowModifiers.reapplied]
  simp only [hdst, hsrc]

theorem relaxVlan_reapplied {f f' : PwFlow} (hmod : f'.mod = f.mod.reapplied) (m : BitVec 32) :
    relaxVlan f' m = relaxVlan f m := by
  rw [relaxVlan, relaxVlan, hmod, PwFlowModifiers.reapplied]
  exact ite_active_reapplied f.mod.vlan
    (fun k => m &&& ~~~((k.setWidth 32 &&& 0x0FFF) <<< 16)) m

/-- The modifiers of a row come back when static ones leave nothing in it. -/
theorem withModifiers_reapplied {f f' : PwFlow} (hf : f.Written) (hc : Carried f)
    (hmod : f'.mod = f.mod.reapplied) (hv6 : f'.ipv6.present = f.ipv6.present)
    (row : PwfpgaFlowConfig) : row.withModifiers f' = row.withModifiers f := by
  obtain ⟨hsrc, hsrcHi⟩ := (addressMask_reapplied hf.mod.src).mpr hc.srcIp
  obtain ⟨hdst, hdstHi⟩ := (addressMask_reapplied hf.mod.dst).mpr hc.dstIp
  have hsp := (mask_reapplied (BitVec.setWidth 16) rfl).mpr hc.udpSrc
  have hdp := (mask_reapplied (BitVec.setWidth 16) rfl).mpr hc.udpDst
  have hsm := (mask_reapplied (BitVec.setWidth 48) rfl).mpr hc.srcMac
  have hdm := (mask_reapplied (BitVec.setWidth 48) rfl).mpr hc.dstMac
  have hvl := (mask_reapplied (fun x => (x &&& 0x0FFF).setWidth 16) rfl).mpr hc.vlan
  rw [PwfpgaFlowConfig.withModifiers, PwfpgaFlowConfig.withModifiers, hmod, hv6,
    PwFlowModifiers.reapplied]
  dsimp only
  rw [hsrc, hsrcHi, hdst, hdstHi, hsp, hdp, hsm, hdm, hvl]
  simp only [mode_reapplied]

/-- The tunnel of a row comes back when only EtherIP has inner addresses of its own. -/
theorem withEncap_reapplied {f f' : PwFlow} (hc : Carried f)
    (hencap : f'.encap = f.encap.reapplied) (hl2 : f'.l2 = f.l2)
    (hrx : f.encap.present = true → f'.rxExpect = f.rxExpect) (row : PwfpgaFlowConfig) :
    row.withEncap f' = row.withEncap f := by
  have hpresent : f'.encap.present = f.encap.present := by rw [hencap]; rfl
  rw [PwfpgaFlowConfig.withEncap, PwfpgaFlowConfig.withEncap, hpresent]
  by_cases hp : f.encap.present = true
  · obtain ⟨hsrc, hdst⟩ := (innerMac_reapplied f.encap f.l2.srcMac f.l2.dstMac).mpr
      (hc.innerMac hp)
    rw [if_pos hp, if_pos hp, hrx hp, hl2, hencap]
    dsimp only
    rw [hsrc, hdst]
    rfl
  · rw [if_neg hp, if_neg hp]

/-! ## What the form carries of a flow -/

section Row

variable {f : PwFlow} (hf : f.Written)

include hf

/-- **A flow whose row comes back is one that the form carries.** -/
theorem carried_of_row {v : BitVec 64} (hv : u64 (signedText f.traffic.rate.toInt) = some v)
    (hid : f.id.toNat < 2 ^ 31) {egress egress' : BitVec 8} {lfid lfid' : BitVec 32}
    {same same' : Bool}
    (h : txRow (f.reapplied v) egress' lfid' same' = txRow f egress lfid same) : Carried f := by
  have A := rowFields_txRow (f.reapplied v) egress' lfid' same'
  have B := rowFields_txRow f egress lfid same
  rw [h] at A
  have hheader := header_reapplied f v
  have httl := (A.ttl.symm.trans B.ttl).symm.trans hheader.1
  have hdscp := (A.dscp.symm.trans B.dscp).symm.trans hheader.2
  have hrate : v = f.traffic.rate := (rate_reapplied_iff hf.traffic v).mp
    ⟨A.rateBps.symm.trans B.rateBps, A.ratePps.symm.trans B.ratePps⟩
  rw [hrate] at hv
  have hprint := (u64_signedText_iff _).mp hv
  have hsrcHi := A.srcIpHi.symm.trans B.srcIpHi
  have hdstHi := A.dstIpHi.symm.trans B.dstIpHi
  rw [present_reapplied] at hsrcHi hdstHi
  have hinner (hp : f.encap.present = true) := (innerMac_reapplied f.encap f.l2.srcMac
    f.l2.dstMac).mp ⟨(A.innerSrcMac hp).symm.trans (B.innerSrcMac hp),
      (A.innerDstMac hp).symm.trans (B.innerDstMac hp)⟩
  exact {
    id := hid
    logicalIfId := (A.logicalIfId.symm.trans B.logicalIfId).symm
    pcp := (A.pcp.symm.trans B.pcp).symm
    ttl := (formTtl_getD_iff _).mp httl.symm
    dscp := hdscp
    rate_lt := hprint.1, rate := hprint.2
    burstSize := (A.burstSize.symm.trans B.burstSize).symm
    burstGapTicks := (A.burstGapTicks.symm.trans B.burstGapTicks).symm
    payloadSeed := (A.payloadSeed.symm.trans B.payloadSeed).symm
    srcIp := (addressMask_reapplied hf.mod.src).mp ⟨A.srcIp.symm.trans B.srcIp, hsrcHi⟩
    dstIp := (addressMask_reapplied hf.mod.dst).mp ⟨A.dstIp.symm.trans B.dstIp, hdstHi⟩
    udpSrc := (mask_reapplied (BitVec.setWidth 16) rfl).mp (A.udpSrc.symm.trans B.udpSrc)
    udpDst := (mask_reapplied (BitVec.setWidth 16) rfl).mp (A.udpDst.symm.trans B.udpDst)
    srcMac := (mask_reapplied (BitVec.setWidth 48) rfl).mp (A.srcMac.symm.trans B.srcMac)
    dstMac := (mask_reapplied (BitVec.setWidth 48) rfl).mp (A.dstMac.symm.trans B.dstMac)
    vlan := (mask_reapplied (fun x => (x &&& 0x0FFF).setWidth 16) rfl).mp
      (A.vlan.symm.trans B.vlan)
    innerMac := hinner }

/-- What is lost of a flow that the form carries: the masks of static modifiers, inner addresses
that only EtherIP has, and the receive side of a tunnel that is not there. -/
theorem reapplied_of_carried (hc : Carried f) : f.reapplied f.traffic.rate =
    { f with
      mod := f.mod.reapplied, encap := f.encap.reapplied
      rxExpect := if f.encap.present then f.rxExpect else .inner } := by
  have hl2 : f.l2.reapplied = f.l2 := by
    have hvlan : (if f.l2.vlanSet = true then f.l2.vlan else 0) = f.l2.vlan := by
      cases hset : f.l2.vlanSet with
      | false => exact (hf.l2.untagged hset).symm
      | true => rfl
    rw [PwFlowL2.reapplied, hvlan, ← hc.pcp]
  have httl := hc.ttl
  have hdscp := hc.dscp
  have h4 : (if f.ipv6.present = true then f.ipv4 else f.ipv4.reapplied) = f.ipv4 := by
    cases hv6 : f.ipv6.present with
    | true => rfl
    | false =>
      rw [hv6] at httl hdscp
      exact PwFlowIpv4.reapplied_eq httl hdscp
  have h6 : (if f.ipv6.present = true then f.ipv6.reapplied else f.ipv6) = f.ipv6 := by
    cases hv6 : f.ipv6.present with
    | false => rfl
    | true =>
      rw [hv6] at httl hdscp
      exact PwFlowIpv6.reapplied_eq httl hdscp
  have htraffic : f.traffic.reapplied f.traffic.rate = f.traffic := by
    have hrate := (rate_reapplied_iff hf.traffic f.traffic.rate).mpr rfl
    have hbps : (if f.traffic.inPackets = true then 0 else f.traffic.rate) = f.traffic.rateBps :=
      hrate.1
    have hpps : (if f.traffic.inPackets = true then f.traffic.rate else 0) = f.traffic.ratePps :=
      hrate.2
    have hseed : f.traffic.burstGapTicks = f.traffic.payloadSeed :=
      hc.burstGapTicks.trans hc.payloadSeed.symm
    rw [PwFlowTraffic.reapplied, hbps, hpps, ← hc.burstSize, ← hc.burstGapTicks]
    exact congrArg (fun seed => ({ f.traffic with payloadSeed := seed } : PwFlowTraffic)) hseed
  rw [PwFlow.reapplied, hl2, h4, h6, htraffic, ← hc.logicalIfId]

/-- **What the form carries is compiled alike.** -/
theorem compilesAlike_of_carried (hc : Carried f) :
    CompilesAlike f (f.reapplied f.traffic.rate) := by
  have heq := reapplied_of_carried hf hc
  generalize f.reapplied f.traffic.rate = f' at heq
  have hmod : f'.mod = f.mod.reapplied := by rw [heq]
  have hencap : f'.encap = f.encap.reapplied := by rw [heq]
  have hl2 : f'.l2 = f.l2 := by rw [heq]
  have hv6 : f'.ipv6.present = f.ipv6.present := by rw [heq]
  have hrx : f.encap.present = true → f'.rxExpect = f.rxExpect := fun hp => by
    rw [heq]
    exact if_pos hp
  have hports := relaxPorts_reapplied hmod (by rw [heq])
  have hvlan := relaxVlan_reapplied hmod
  have hmods := withModifiers_reapplied hf hc hmod hv6
  have htunnel := withEncap_reapplied hc hencap hl2 hrx
  refine ⟨by rw [heq], by rw [heq], by rw [heq], by rw [heq], by rw [heq], ?_, by rw [heq]; rfl, ?_⟩
  · intro egress lfid same
    rw [txRow, txRow, hmods, htunnel, heq]
    rfl
  · intro mask
    simp only [pwFcRelaxMask, hports, hvlan]
    rw [heq]
    simp only [PwFlowModifiers.reapplied, relaxAddrWord_reapplied]

end Row

/-! ## The claim of the form -/

section RoundTrip

variable {inet : Inet} (hinet : inet.Lawful) {node : Option PwYamlNode} {cfg : PwConfig}
  {p : PwProgram} {i : ℕ} {f : PwFlow} (hparse : parseFlow inet i node = .ok f)
  (hcompile : pwFlowCompile cfg = .ok p) (hi : cfg.flows[i]? = some f)
  (hfixed : f.traffic.frameLenFixedSet = true) (id : ℤ) (name : List Byte)

/-- A flow of a compiled configuration is valid. -/
theorem valid_of_compile {cfg : PwConfig} {p : PwProgram} (h : pwFlowCompile cfg = .ok p) {i : ℕ}
    {f : PwFlow} (hi : cfg.flows[i]? = some f) : f.Valid cfg := by
  obtain ⟨S⟩ := pwFlowCompile_eq_ok_iff.mp h
  exact S.valid.flow f (List.mem_of_getElem? hi)

include hinet hparse hcompile hi hfixed

/-- **What comes back** when a flow is loaded and applied. -/
theorem loadApply_eq_ok_iff {f' : PwFlow} : loadApply inet id i name f = .ok f' ↔
    f.id.toNat < 2 ^ 31 ∧ ∃ v, u64 (signedText f.traffic.rate.toInt) = some v ∧ v ≠ 0 ∧
      f' = f.reapplied v := by
  have hf := written_of_parseFlow hparse
  have hraw := (valid_of_compile hcompile hi).raw
  have hmeas : f.traffic.frameTemplate ≠ .test → f.meas = {} := fun ht => by
    have hany := (hraw ht).1
    rw [PwFlowMeas.any, Bool.or_eq_false_iff, Bool.or_eq_false_iff] at hany
    obtain ⟨⟨hloss, hlat⟩, hjit⟩ := hany
    exact congr (congrArg₂ PwFlowMeas.mk hloss hlat) hjit
  rw [loadApply, flowFromJson_flowToFormJson,
    flowObj_form name f hinet hf hfixed fun ht => (hraw ht).2.1]
  exact parseFlow_form name f hinet hf hfixed hmeas i

/-- A flow that round-trips is one that the form carries. -/
theorem carried_of_reapplies (h : Reapplies inet id name cfg p i f) : Carried f := by
  obtain ⟨f', p', hload, hcompile', m, hm, hm', hrow, -⟩ := h
  obtain ⟨hid, v, hv, -, rfl⟩ :=
    (loadApply_eq_ok_iff hinet hparse hcompile hi hfixed id name).mp hload
  have hlt : i < cfg.flows.length := (List.getElem?_eq_some_iff.mp hi).1
  obtain ⟨m₁, egress, same, hm₁, hrow₁⟩ := exists_txRow_of_compile hcompile hi
  obtain ⟨m₂, egress', same', hm₂, hrow₂⟩ := exists_txRow_of_compile hcompile'
    (List.getElem?_set_self hlt)
  rw [hm] at hm₁
  rw [hm'] at hm₂
  obtain rfl := Option.some.inj hm₁
  obtain rfl := Option.some.inj hm₂
  rw [hrow₁, hrow₂] at hrow
  exact carried_of_row (written_of_parseFlow hparse) hv hid (Option.some.inj hrow)

/-- A flow that the form carries round-trips. -/
theorem reapplies_of_carried (hc : Carried f) : Reapplies inet id name cfg p i f := by
  have hf := written_of_parseFlow hparse
  have hvalid := valid_of_compile hcompile hi
  have halike := compilesAlike_of_carried hf hc
  have heq := reapplied_of_carried hf hc
  have hvalid' : (f.reapplied f.traffic.rate).Valid cfg := by
    rw [heq]
    exact ⟨hvalid.tx, hvalid.rx, hvalid.logicalIf, hvalid.frameLen, hvalid.rate, hvalid.raw,
      hvalid.background⟩
  obtain ⟨m, _, _, hm, -⟩ := exists_txRow_of_compile hcompile hi
  refine ⟨f.reapplied f.traffic.rate, p, ?_, pwFlowCompile_set halike hi hcompile hvalid', m, hm,
    hm, rfl, rfl⟩
  exact (loadApply_eq_ok_iff hinet hparse hcompile hi hfixed id name).mpr ⟨hc.id, f.traffic.rate,
    (u64_signedText_iff _).mpr ⟨hc.rate_lt, hc.rate⟩, rate_ne_zero hf.traffic, rfl⟩

/-- **Load current, then Apply, is the identity exactly for the flows that the form carries.** -/
theorem reapplies_iff : Reapplies inet id name cfg p i f ↔ Carried f :=
  ⟨carried_of_reapplies hinet hparse hcompile hi hfixed id name,
    reapplies_of_carried hinet hparse hcompile hi hfixed id name⟩

end RoundTrip

/-! ## Addresses in the sample -/

/-- The bytes of an IPv4 address. -/
def quadBytes (a : BitVec 32) : List Byte :=
  [a.extractLsb' 24 8, a.extractLsb' 16 8, a.extractLsb' 8 8, a.extractLsb' 0 8]

/-- Addresses as texts: an IPv4 address in dotted decimal; an IPv6 address, which the sample has
none of, as one group of digits behind a colon. -/
def quadInet : Inet where
  ntop4 a := [0x2E].intercalate ((quadBytes a).map fun b => numeral 10 b.toNat)
  pton4 s :=
    let parts := s.splitOn 0x2E
    if parts.length = 4 ∧ [] ∉ parts then
      (parts.mapM (digitsValue 10 0)).bind fun ns =>
        if ∀ n ∈ ns, n ≤ 255 then some (BitVec.ofNat 32 (ns.foldl (fun n o => n * 256 + o) 0))
        else none
    else none
  ntop6 a := 0x3A :: padded 32 16 a.toNat
  pton6 s :=
    if s.head? = some 0x3A then (digitsValue 16 0 s.tail).map (BitVec.ofNat 128) else none

theorem ofNat_quadBytes (a : BitVec 32) :
    BitVec.ofNat 32 (((quadBytes a).map BitVec.toNat).foldl (fun n o => n * 256 + o) 0) = a := by
  apply BitVec.eq_of_toNat_eq
  have hlt := a.isLt
  simp only [quadBytes, List.map_cons, List.map_nil, List.foldl_cons, List.foldl_nil,
    BitVec.extractLsb'_toNat, BitVec.toNat_ofNat, Nat.shiftRight_eq_div_pow]
  omega

theorem lawful_quadInet : quadInet.Lawful := by
  have hdot (n : ℕ) : 0x2E ∉ numeral 10 n := by
    intro h
    obtain ⟨d, hd, hc⟩ := isDigitChar_numeral n _ h
    have hne : ∀ d < 16, digit d ≠ 0x2E := by decide
    exact hne d hd hc.symm
  have hsplit (a : BitVec 32) : (quadInet.ntop4 a).splitOn 0x2E =
      (quadBytes a).map fun b => numeral 10 b.toNat := by
    apply List.splitOn_intercalate
    · intro l hl
      obtain ⟨b, -, rfl⟩ := List.mem_map.mp hl
      exact hdot _
    · exact List.cons_ne_nil _ _
  constructor
  · intro a
    have hvalues : ((quadBytes a).map fun b => numeral 10 b.toNat).mapM (digitsValue 10 0) =
        some ((quadBytes a).map BitVec.toNat) := by
      simp [quadBytes, digitsValue_numeral (by decide) digitValue_ten]
    have hparts : ((quadBytes a).map fun b => numeral 10 b.toNat).length = 4 ∧
        [] ∉ (quadBytes a).map fun b => numeral 10 b.toNat := by
      refine ⟨rfl, fun h => ?_⟩
      obtain ⟨b, -, hb⟩ := List.mem_map.mp h
      exact numeral_ne_nil (by decide) _ hb
    have hsmall : ∀ n ∈ (quadBytes a).map BitVec.toNat, n ≤ 255 := by
      intro n hn
      obtain ⟨b, -, rfl⟩ := List.mem_map.mp hn
      exact Nat.le_of_lt_succ b.isLt
    have hread : quadInet.pton4 (quadInet.ntop4 a) =
        some (BitVec.ofNat 32 (((quadBytes a).map BitVec.toNat).foldl
          (fun n o => n * 256 + o) 0)) := by
      simp only [quadInet] at hsplit ⊢
      rw [hsplit, if_pos hparts, hvalues, Option.bind_some, if_pos hsmall]
    rw [hread, ofNat_quadBytes]
  · intro a
    have hread : quadInet.pton6 (quadInet.ntop6 a) = some (BitVec.ofNat 128 a.toNat) := by
      simp only [quadInet]
      rw [List.head?_cons, if_pos rfl, List.tail_cons,
        digitsValue_padded (by decide) digitValue_sixteen]
      rfl
    rw [hread, BitVec.ofNat_toNat, BitVec.setWidth_eq]
  · intro a
    exact List.mem_cons_self
  · intro a
    have hbyte (n : ℕ) : 0#8 ∉ numeral 10 n := null_notMem_numeral n
    simp [quadInet, quadBytes, List.intercalate, hbyte]
  · intro a h
    rcases List.mem_cons.mp h with h | h
    · exact absurd h (by decide)
    · exact null_notMem_of_digits (isDigitChar_of_mem (by decide) (by decide)) h

/-! ## The sample -/

/-- The tree of a flow: UDP over IPv4, known by its header. -/
def sampleTree (tag : JsObject) : PwYamlNode :=
  (JsValue.obj [("id", .num 1), ("tx_global_port", .num 0), ("rx_global_port", .num 1),
    ("l2", .obj ([("src_mac", .lit "02:00:00:00:00:01"), ("dst_mac", .lit "02:00:00:00:00:02")] ++
      tag)),
    ("ipv4", .obj [("src", .lit "10.0.0.1"), ("dst", .lit "10.0.0.2")]),
    ("udp", .obj [("src_port", .num 4000), ("dst_port", .num 5000)]),
    ("traffic", .obj [("frame_len", .num 128), ("rate_pps", .num 1000)]),
    ("classify", .lit "header")]).toYaml

theorem parseFlow_sampleTree :
    parseFlow quadInet 0 (some (sampleTree [])) = .ok (sampleHeaderFlow 1 0x0A000002) := by
  decide +kernel

theorem parseFlow_taggedTree :
    parseFlow quadInet 0 (some (sampleTree [("vlan", .num 100), ("pcp", .num 5)])) =
      .ok sampleTaggedFlow := by
  decide +kernel

/-- What the form carries of the sample is all of it. -/
theorem reapplies_sample : ∃ p, pwFlowCompile sampleHeaderConfig = .ok p ∧
    (Reapplies quadInet 3 (ascii "voice") sampleHeaderConfig p 0 (sampleHeaderFlow 1 0x0A000002) ↔
      Carried (sampleHeaderFlow 1 0x0A000002)) := by
  obtain ⟨p, hp, -⟩ := exists_of_okAnd
    (show okAnd (pwFlowCompile sampleHeaderConfig) (fun _ => true) = true by decide +kernel)
  exact ⟨p, hp, reapplies_iff lawful_quadInet parseFlow_sampleTree hp rfl rfl 3 (ascii "voice")⟩

/-- **The priority of a VLAN tag is lost.** -/
theorem pcp_lost : quadInet.Lawful ∧ sampleTaggedConfig.flows[0]? = some sampleTaggedFlow ∧
    sampleTaggedFlow.traffic.frameLenFixedSet = true ∧
    parseFlow quadInet 0 (some (sampleTree [("vlan", .num 100), ("pcp", .num 5)])) =
      .ok sampleTaggedFlow ∧
    ∃ p, pwFlowCompile sampleTaggedConfig = .ok p ∧
      ¬Reapplies quadInet 3 (ascii "voice") sampleTaggedConfig p 0 sampleTaggedFlow := by
  obtain ⟨p, hp, -⟩ := exists_of_okAnd
    (show okAnd (pwFlowCompile sampleTaggedConfig) (fun _ => true) = true by decide +kernel)
  refine ⟨lawful_quadInet, rfl, rfl, parseFlow_taggedTree, p, hp, fun h => ?_⟩
  have hc := carried_of_reapplies lawful_quadInet parseFlow_taggedTree hp rfl rfl 3
    (ascii "voice") h
  exact absurd hc.pcp (by decide)

end PacketWyrm
