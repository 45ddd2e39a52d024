import PacketWyrm.FlowParse
import PacketWyrm.TxRows

/-!
# What the parser of a flow establishes

`parse_flow` leaves nothing in the record that the mapping does not speak of: a family, a tunnel, a
VLAN tag or a prefix that is not there is all-zero, and what is there is in its range.

## Main definitions

* `PwFlow.Written` — the shape of a flow that was parsed.

## Main results

* `written_of_parseFlow` — every flow that is parsed has it.
* `PwFlow.Written.parsed` — with it, the ranges that the compiled row relies on.
-/

namespace PacketWyrm

open Lib

/-! ## The shape -/

/-- One family is there, and nothing is left of the other. -/
def OneFamily (v4 : PwFlowIpv4) (v6 : PwFlowIpv6) : Prop :=
  (v4.present = true ∧ v4.dscp.toNat ≤ 63 ∧ v6 = {}) ∨
    (v6.present = true ∧ v6.dscp.toNat ≤ 63 ∧ v4 = {})

structure PwFlowL2.Written (l2 : PwFlowL2) : Prop where
  vlan : l2.vlan.toNat < 4095
  untagged : l2.vlanSet = false → l2.vlan = 0
  pcp : l2.pcp.toNat ≤ 7

structure PwFlowEncap.Written (e : PwFlowEncap) : Prop where
  absent : e.present = false → e = {}
  type : e.present = true → e.type ≠ .none
  outer : e.present = true → OneFamily e.outerIpv4 e.outerIpv6
  inner : e.innerMacSet = false → e.innerSrcMac = 0 ∧ e.innerDstMac = 0

def PwFlowUdp.Written (u : PwFlowUdp) : Prop :=
  u.l4Proto = 6 ∨ (u.l4Proto = 17 ∧ u.tcpFlags = 2)

structure PwFlowTraffic.Written (t : PwFlowTraffic) : Prop where
  lenLo : 60 ≤ t.lenLo.toNat
  lenLe : t.lenLo.toNat ≤ t.lenHi.toNat
  lenHi : t.lenHi.toNat ≤ 1518
  step : t.frameLenFixedSet = false → t.frameLenStep ≠ 0
  fixed : t.frameLenFixedSet = true →
    t.frameLenMin = 0 ∧ t.frameLenMax = 0 ∧ t.frameLenStep = 0
  rate : t.rateBps = 0 ↔ t.ratePps ≠ 0

/-- A mask of a modifier has up to 48 bits. -/
def PwFieldMod.Written (x : PwFieldMod) : Prop := x.mask.toNat ≤ 0xFFFFFFFFFFFF

/-- The mask of an address: that of the family in use. -/
def AddressModWritten (v6 : Bool) (x : PwFieldMod) (mask16 : BitVec 128) : Prop :=
  if v6 then x.mask = (mask16.setWidth 32).setWidth 64 else x.Written ∧ mask16 = 0

structure PwFlowModifiers.Written (v6 : Bool) (m : PwFlowModifiers) : Prop where
  src : AddressModWritten v6 m.srcIpv4 m.srcIpv6Mask
  dst : AddressModWritten v6 m.dstIpv4 m.dstIpv6Mask
  udpSrc : m.udpSrc.Written
  udpDst : m.udpDst.Written
  srcMac : m.srcMac.Written
  dstMac : m.dstMac.Written
  vlan : m.vlan.Written

/-- A prefix that is set is one of an IPv6 flow. -/
def PrefixWritten (v6 set : Bool) (mask : BitVec 128) : Prop :=
  if set then v6 = true ∧ ∃ n ≤ 128, mask = pwV6PrefixMask n else mask = 0

/-- **The shape of a flow that was parsed.** -/
structure PwFlow.Written (f : PwFlow) : Prop where
  l2 : f.l2.Written
  family : OneFamily f.ipv4 f.ipv6
  encap : f.encap.Written
  udp : f.udp.Written
  traffic : f.traffic.Written
  mod : f.mod.Written f.ipv6.present
  matchDst : PrefixWritten f.ipv6.present f.matchIpv6DstSet f.matchIpv6DstMask
  matchSrc : PrefixWritten f.ipv6.present f.matchIpv6SrcSet f.matchIpv6SrcMask

/-! ## The blocks -/

/-- What an optional field can be: its default, or what its text is read as. -/
theorem optField_eq_ok {α : Type} {m : PwYamlNode} {key path : String}
    {p : List Byte → Option α} {dflt a : α} {e : PwFailure}
    (h : optField m key path p dflt e = .ok a) : a = dflt ∨ ∃ s, p s = some a := by
  rw [optField, bind_eq_ok_iff] at h
  obtain ⟨s, -, h⟩ := h
  cases s with
  | none => exact .inl (Except.ok.inj h).symm
  | some s => exact .inr ⟨s, orFail_eq_ok_iff.mp h⟩

/-- An optional field keeps what the default and the reader keep. -/
theorem optField_induction {α : Type} {m : PwYamlNode} {key path : String}
    {p : List Byte → Option α} {dflt a : α} {e : PwFailure} {P : α → Prop}
    (h : optField m key path p dflt e = .ok a) (hd : P dflt) (hp : ∀ s b, p s = some b → P b) :
    P a := by
  rcases optField_eq_ok h with rfl | ⟨s, hs⟩
  · exact hd
  · exact hp s a hs

theorem written_parseFlowL2 {m : PwYamlNode} {path : String} {l2 : PwFlowL2}
    (h : parseFlowL2 m path = .ok l2) : l2.Written := by
  rw [parseFlowL2] at h
  split at h
  · obtain rfl := Except.ok.inj h
    exact ⟨by decide, fun _ => rfl, by decide⟩
  · simp only [bind_eq_ok_iff, failIf_eq_ok_iff] at h
    obtain ⟨_, -, srcMac, -, dstMac, -, vlan, hvlan, pcp, -, _, hpcp, et, -, h⟩ := h
    obtain rfl := Except.ok.inj h
    have hlt : (vlan.getD 0).toNat < 4095 := by
      refine optField_induction (P := fun v => (v.getD 0).toNat < 4095) hvlan (by decide) ?_
      intro s v hs
      obtain ⟨w, hw, rfl⟩ := Option.map_eq_some_iff.mp hs
      exact of_decide_eq_true (Option.filter_eq_some_iff.mp hw).2
    refine ⟨hlt, ?_, by simpa using hpcp⟩
    intro hset
    rw [Option.isSome_eq_false_iff, Option.isNone_iff_eq_none] at hset
    simp [hset]

section Addresses

variable {inet : Inet} {m : PwYamlNode} {path : String}

theorem parseIpv4Block_present {v4 : PwFlowIpv4} (h : parseIpv4Block inet m path = .ok v4) :
    v4.present = true ∧ v4.dscp.toNat ≤ 63 := by
  simp only [parseIpv4Block, bind_eq_ok_iff] at h
  obtain ⟨_, -, src, -, dst, -, ttl, -, dscp, hdscp, h⟩ := h
  obtain rfl := Except.ok.inj h
  refine ⟨rfl, ?_⟩
  refine optField_induction (P := fun d => d.toNat ≤ 63) hdscp (by decide) ?_
  intro s d hs
  exact of_decide_eq_true (Option.filter_eq_some_iff.mp hs).2

theorem parseIpv6Block_present {v6 : PwFlowIpv6} (h : parseIpv6Block inet m path = .ok v6) :
    v6.present = true ∧ v6.dscp.toNat ≤ 63 := by
  simp only [parseIpv6Block, bind_eq_ok_iff] at h
  obtain ⟨_, -, src, -, dst, -, hop, -, dscp, hdscp, h⟩ := h
  obtain rfl := Except.ok.inj h
  refine ⟨rfl, ?_⟩
  refine optField_induction (P := fun d => d.toNat ≤ 63) hdscp (by decide) ?_
  intro s d hs
  exact of_decide_eq_true (Option.filter_eq_some_iff.mp hs).2

theorem oneFamily_parseIpEndpoint {v : PwFlowIpv4 × PwFlowIpv6}
    (h : parseIpEndpoint inet m path = .ok v) : OneFamily v.1 v.2 := by
  simp only [parseIpEndpoint, bind_eq_ok_iff] at h
  obtain ⟨_, -, h⟩ := h
  split at h
  · rw [bind_eq_ok_iff] at h
    obtain ⟨v6, h6, h⟩ := h
    obtain rfl := Except.ok.inj h
    obtain ⟨hpresent, hdscp⟩ := parseIpv6Block_present h6
    exact .inr ⟨hpresent, hdscp, rfl⟩
  · rw [bind_eq_ok_iff] at h
    obtain ⟨v4, h4, h⟩ := h
    obtain rfl := Except.ok.inj h
    obtain ⟨hpresent, hdscp⟩ := parseIpv4Block_present h4
    exact .inl ⟨hpresent, hdscp, rfl⟩
  · cases h

theorem written_parseEncap {e : PwFlowEncap} (h : parseEncap inet m path = .ok e) : e.Written := by
  rw [parseEncap] at h
  split at h
  · obtain rfl := Except.ok.inj h
    exact ⟨fun _ => rfl, fun h => absurd h (by decide), fun h => absurd h (by decide),
      fun _ => ⟨rfl, rfl⟩⟩
  · simp only [bind_eq_ok_iff] at h
    obtain ⟨_, -, type, htype, _, -, _, -, outer, houter, inner, -, h⟩ := h
    obtain rfl := Except.ok.inj h
    refine ⟨fun habsent => absurd habsent Bool.true_eq_false.mp, fun _ => ?_,
      fun _ => oneFamily_parseIpEndpoint houter, fun hset => ?_⟩
    · rw [reqField, bind_eq_ok_iff] at htype
      obtain ⟨s, -, htype⟩ := htype
      rw [orFail_eq_ok_iff, keyword, Option.map_eq_some_iff] at htype
      obtain ⟨kv, hkv, rfl⟩ := htype
      have hmem := List.mem_of_find?_eq_some hkv
      have hall : ∀ kv ∈ encapWords, kv.2 ≠ .none := by decide
      exact hall kv hmem
    · rw [Option.isSome_eq_false_iff, Option.isNone_iff_eq_none] at hset
      rw [hset]
      exact ⟨rfl, rfl⟩

end Addresses

theorem written_parseFlowL4 {m : PwYamlNode} {path : String} {u : PwFlowUdp}
    (h : parseFlowL4 m path = .ok u) : u.Written := by
  simp only [parseFlowL4, bind_eq_ok_iff] at h
  obtain ⟨_, -, _, -, _, -, src, -, dst, -, h⟩ := h
  split at h
  · rw [bind_eq_ok_iff] at h
    obtain ⟨flags, -, h⟩ := h
    obtain rfl := Except.ok.inj h
    exact .inl rfl
  · obtain rfl := Except.ok.inj h
    exact .inr ⟨rfl, rfl⟩

section Traffic

variable {m : PwYamlNode} {path : String} {t : PwFlowTraffic}

theorem fixed_parseLengths (h : parseLengths m path = .ok t) (hfixed : t.frameLenFixedSet = true) :
    t.frameLenMin = 0 ∧ t.frameLenMax = 0 ∧ t.frameLenStep = 0 := by
  rw [parseLengths, bind_eq_ok_iff] at h
  obtain ⟨fixed, -, h⟩ := h
  cases fixed with
  | some len =>
    obtain rfl := Except.ok.inj h
    exact ⟨rfl, rfl, rfl⟩
  | none =>
    simp only [bind_eq_ok_iff] at h
    obtain ⟨lo, -, hi, -, step, -, h⟩ := h
    obtain rfl := Except.ok.inj h
    cases hfixed

theorem checkLengths_eq_ok {u : Unit} (h : checkLengths m path t = .ok u) :
    60 ≤ t.lenLo.toNat ∧ t.lenHi.toNat ≤ 1518 ∧ t.lenLo.toNat ≤ t.lenHi.toNat ∧
      (t.frameLenFixedSet = false → t.frameLenStep ≠ 0) := by
  simp only [checkLengths, bind_eq_ok_iff, failIf_eq_ok_iff, Bool.or_eq_false_iff,
    decide_eq_false_iff_not, not_lt, Bool.and_eq_false_iff, beq_eq_false_iff_ne] at h
  obtain ⟨_, -, _, ⟨hlo, hhi⟩, _, hle, hstep⟩ := h
  refine ⟨hlo, hhi, hle, fun hset => ?_⟩
  rw [hset] at hstep
  simpa using hstep

theorem one_rate_iff {bps pps : BitVec 64} :
    ((bps == 0) == (pps == 0)) = false ↔ (bps = 0 ↔ pps ≠ 0) := by
  rw [beq_eq_false_iff_ne, ne_eq, Bool.eq_iff_iff, beq_iff_eq, beq_iff_eq]
  tauto

theorem written_parseTraffic (h : parseTraffic m path = .ok t) : t.Written := by
  simp only [parseTraffic, bind_eq_ok_iff] at h
  obtain ⟨_, -, tr, -, lens, hlens, bps, -, pps, -, _, hcheck, _, hrate, size, -, gap, -, mode, -,
    seed, -, seq, -, ts, -, template, -, h⟩ := h
  obtain rfl := Except.ok.inj h
  obtain ⟨hlo, hhi, hle, hstep⟩ := checkLengths_eq_ok hcheck
  have hfixed : lens.frameLenFixedSet = true → _ := fixed_parseLengths hlens
  refine ⟨hlo, hle, hhi, hstep, hfixed, ?_⟩
  exact one_rate_iff.mp (failIf_eq_ok_iff.mp hrate)

end Traffic

section Modifiers

variable {inet : Inet} {m : PwYamlNode} {key path : String} {v6 : Bool}

theorem written_parseFieldMod {x : PwFieldMod} (h : parseFieldMod m key path = .ok x) :
    x.Written := by
  rw [parseFieldMod] at h
  split at h
  · obtain rfl := Except.ok.inj h
    exact (by decide : (0#64).toNat ≤ 0xFFFFFFFFFFFF)
  · simp only [bind_eq_ok_iff] at h
    obtain ⟨_, -, mode, -, mask, hmask, h⟩ := h
    obtain rfl := Except.ok.inj h
    refine optField_induction (P := fun d => d.toNat ≤ 0xFFFFFFFFFFFF) hmask (by decide) ?_
    intro s d hs
    exact of_decide_eq_true (Option.filter_eq_some_iff.mp hs).2

theorem written_parseIpv6FieldMod {x : PwFieldMod × BitVec 128}
    (h : parseIpv6FieldMod inet m key path = .ok x) : AddressModWritten true x.1 x.2 := by
  rw [parseIpv6FieldMod] at h
  split at h
  · obtain rfl := Except.ok.inj h
    rfl
  · simp only [bind_eq_ok_iff] at h
    obtain ⟨_, -, mode, -, mask, -, h⟩ := h
    obtain rfl := Except.ok.inj h
    rfl

theorem written_parseModifiers {x : PwFlowModifiers}
    (h : parseModifiers inet m path v6 = .ok x) : x.Written v6 := by
  have hzero : PwFieldMod.Written {} := (by decide : (0#64).toNat ≤ 0xFFFFFFFFFFFF)
  rw [parseModifiers] at h
  split at h
  · obtain rfl := Except.ok.inj h
    have haddr : AddressModWritten v6 {} 0 := by
      cases v6 with
      | false => exact ⟨hzero, rfl⟩
      | true => rfl
    exact ⟨haddr, haddr, hzero, hzero, hzero, hzero, hzero⟩
  · simp only [bind_eq_ok_iff] at h
    obtain ⟨_, -, a, ha, sp, hsp, dp, hdp, sm, hsm, dm, hdm, vl, hvl, h⟩ := h
    obtain rfl := Except.ok.inj h
    have haddr : AddressModWritten v6 a.srcIpv4 a.srcIpv6Mask ∧
        AddressModWritten v6 a.dstIpv4 a.dstIpv6Mask := by
      rw [parseAddressMods] at ha
      cases v6 with
      | true =>
        simp only [if_true, bind_eq_ok_iff] at ha
        obtain ⟨s, hs, d, hd, ha⟩ := ha
        obtain rfl := Except.ok.inj ha
        exact ⟨written_parseIpv6FieldMod hs, written_parseIpv6FieldMod hd⟩
      | false =>
        simp only [Bool.false_eq_true, if_false, bind_eq_ok_iff] at ha
        obtain ⟨s, hs, d, hd, ha⟩ := ha
        obtain rfl := Except.ok.inj ha
        exact ⟨⟨written_parseFieldMod hs, rfl⟩, written_parseFieldMod hd, rfl⟩
    exact ⟨haddr.1, haddr.2, written_parseFieldMod hsp, written_parseFieldMod hdp,
      written_parseFieldMod hsm, written_parseFieldMod hdm, written_parseFieldMod hvl⟩

theorem written_parsePrefix {x : Option (BitVec 128)} (h : parsePrefix m key path v6 = .ok x) :
    PrefixWritten v6 x.isSome (x.getD 0) := by
  rw [parsePrefix, bind_eq_ok_iff] at h
  obtain ⟨s, -, h⟩ := h
  cases s with
  | none =>
    obtain rfl := Except.ok.inj h
    rfl
  | some s =>
    dsimp only at h
    obtain ⟨mask, hmask, rfl⟩ : ∃ mask, matchIpv6Prefix key v6 path s = .ok mask ∧
        some mask = x := by
      cases hm : matchIpv6Prefix key v6 path s with
      | error e => rw [hm] at h; cases h
      | ok mask => exact ⟨mask, rfl, by rw [hm] at h; exact Except.ok.inj h⟩
    simp only [matchIpv6Prefix, bind_eq_ok_iff, failIf_eq_ok_iff, orFail_eq_ok_iff] at hmask
    obtain ⟨_, hv6, n, hn, hmask⟩ := hmask
    exact ⟨by simpa using hv6, n, strtoulPrefix_le hn, (Except.ok.inj hmask).symm⟩

theorem written_parseMatch {x : FlowMatch} (h : parseMatch m path v6 = .ok x) :
    PrefixWritten v6 x.ipv6Dst.isSome (x.ipv6Dst.getD 0) ∧
      PrefixWritten v6 x.ipv6Src.isSome (x.ipv6Src.getD 0) := by
  rw [parseMatch] at h
  split at h
  · obtain rfl := Except.ok.inj h
    exact ⟨rfl, rfl⟩
  · simp only [bind_eq_ok_iff] at h
    obtain ⟨_, -, udp, -, v4, -, dst, hdst, src, hsrc, h⟩ := h
    obtain rfl := Except.ok.inj h
    exact ⟨written_parsePrefix hdst, written_parsePrefix hsrc⟩

end Modifiers

/-! ## The flow -/

/-- **A flow that is parsed has this shape.** -/
theorem written_of_parseFlow {inet : Inet} {idx : ℕ} {m : Option PwYamlNode} {f : PwFlow}
    (h : parseFlow inet idx m = .ok f) : f.Written := by
  simp only [parseFlow, bind_eq_ok_iff] at h
  obtain ⟨_, -, id, -, name, -, tx, -, rx, -, lif, -, l2, hl2, ip, hip, encap, hencap, rxe, -,
    udp, hudp, traffic, htraffic, meas, -, mod, hmod, bg, -, mt, hmt, cls, -, h⟩ := h
  obtain rfl := Except.ok.inj h
  exact ⟨written_parseFlowL2 hl2, oneFamily_parseIpEndpoint hip, written_parseEncap hencap,
    written_parseFlowL4 hudp, written_parseTraffic htraffic, written_parseModifiers hmod,
    (written_parseMatch hmt).1, (written_parseMatch hmt).2⟩

theorem OneFamily.family {v4 : PwFlowIpv4} {v6 : PwFlowIpv6} (h : OneFamily v4 v6) :
    v4.present = !v6.present := by
  rcases h with ⟨h4, -, rfl⟩ | ⟨h6, -, rfl⟩
  · exact h4
  · rw [h6]
    rfl

theorem OneFamily.dscp {v4 : PwFlowIpv4} {v6 : PwFlowIpv6} (h : OneFamily v4 v6) :
    v4.dscp.toNat ≤ 63 ∧ v6.dscp.toNat ≤ 63 := by
  rcases h with ⟨-, hle, rfl⟩ | ⟨-, hle, rfl⟩
  · exact ⟨hle, by decide⟩
  · exact ⟨by decide, hle⟩

/-- **A flow that was parsed is in the ranges that the compiled row relies on.** -/
theorem PwFlow.Written.parsed {f : PwFlow} (h : f.Written) : f.Parsed := by
  have hdscp : f.encap.outerIpv4.dscp.toNat ≤ 63 ∧ f.encap.outerIpv6.dscp.toNat ≤ 63 := by
    cases hp : f.encap.present with
    | true => exact (h.encap.outer hp).dscp
    | false =>
      rw [h.encap.absent hp]
      decide
  have hsrc := h.mod.src
  have hdst := h.mod.dst
  exact {
    vlan := h.l2.vlan, pcp := h.l2.pcp, family := h.family.family
    dscp4 := h.family.dscp.1, dscp6 := h.family.dscp.2
    encapType := h.encap.type, outerFamily := fun hp => (h.encap.outer hp).family
    outerDscp4 := hdscp.1, outerDscp6 := hdscp.2
    l4Proto := h.udp.imp_right And.left
    lenLo := h.traffic.lenLo, lenLe := h.traffic.lenLe, lenHi := h.traffic.lenHi
    step := h.traffic.step
    srcMask := fun hv6 => by rwa [hv6] at hsrc
    dstMask := fun hv6 => by rwa [hv6] at hdst }

end PacketWyrm
