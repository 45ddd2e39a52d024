import PacketWyrm.Rules

/-!
# Punt and forward rules as the configuration states them

The rules of a card read field by field, with no comparators: which frames an
interface punts, which frames a forward takes, and which of the rules that
apply decides.  The compiled comparators and rules have the same meaning.

## Main definitions

* `PuntTest` — one protocol an interface punts, as a test of the key.
* `DirectRule`, `directRules cfg c` — the rules of card `c`, in emission order.
* `directResult` — the decision of the best rule that applies.

## Main results

* `matches_puntSpec`, `matches_forwardSpec` — the comparators of a rule say
  what its fields say.
* `compiled_rules_direct` — the compiled card decides as the configuration does.
-/

namespace PacketWyrm

open Lib

/-! ## Direct evaluation -/

/-- The key came in on the port and, where a VLAN is asked for, carries it. -/
def onPort (port : BitVec 8) (vlan : BitVec 16) (k : PwMatchKey) : Bool :=
  k.ingressPort == port.setWidth 4 && (vlan == 0 || k.vlanId == vlan.setWidth 12)

/-- A test of a frame by its key and its captured window. -/
abbrev FrameTest := PwMatchKey → Window → BitVec 16 → Bool

/-- The protocols of an interface's punt flags with their priorities, in the
order their rules are emitted. -/
def puntTests (p : PwPuntFlags) : List (FrameTest × BitVec 8) :=
  let ip4 (k : PwMatchKey) (proto : BitVec 8) := k.ethertype == 0x0800 && k.l3Proto == proto
  let ip6 (k : PwMatchKey) (proto : BitVec 8) := k.ethertype == 0x86DD && k.l3Proto == proto
  (if p.arp then [(fun k _ _ => k.ethertype == 0x0806, 20)] else []) ++
  (if p.ipv6Nd then [(fun k _ _ => ip6 k 58, 20)] else []) ++
  (if p.lldp then [(fun k _ _ => k.ethertype == 0x88CC, 20)] else []) ++
  (if p.icmp then [(fun k _ _ => ip4 k 1, 25)] else []) ++
  (if p.bgp then
    [(fun k _ _ => ip4 k 6 && k.l4Dst == 179, 30),
     (fun k _ _ => ip4 k 6 && k.l4Src == 179, 30)] else []) ++
  (if p.ospf then [(fun k _ _ => ip4 k 89, 30)] else []) ++
  (if p.ospf && p.ipv6Nd then [(fun k _ _ => ip6 k 89, 30)] else []) ++
  (if p.bgp && p.ipv6Nd then
    [(fun k _ _ => ip6 k 6 && k.l4Dst == 179, 30),
     (fun k _ _ => ip6 k 6 && k.l4Src == 179, 30)] else []) ++
  (if p.isIs then
    [(fun _ win base => byteAt win base == 0xFE && byteAt win (base + 1) == 0xFE, 30)] else [])

/-- The fields of a forward; 0 leaves a field out, and an address match asks
for an IPv6 frame. -/
def forwardTest (port : BitVec 8) (fr : PwForwardRule) (k : PwMatchKey) : Bool :=
  onPort port fr.vlan k &&
  (fr.ethertype == 0 || k.ethertype == fr.ethertype) &&
  (fr.ipProto == 0 || k.l3Proto == fr.ipProto) &&
  (fr.udpDst == 0 || k.l4Dst == fr.udpDst) &&
  (!(fr.ipv6DstSet || fr.ipv6SrcSet) || k.isIpv6) &&
  (!fr.ipv6DstSet || k.ipv6Dst &&& fr.ipv6DstMask == fr.ipv6Dst &&& fr.ipv6DstMask) &&
  (!fr.ipv6SrcSet || k.ipv6Src &&& fr.ipv6SrcMask == fr.ipv6Src &&& fr.ipv6SrcMask)

/-- A configured rule: the frames it applies to, its priority, and what it
decides for them. -/
structure DirectRule where
  applies : FrameTest
  priority : BitVec 8
  result : PwClassResult

/-- The rules of an interface on card `c`: one for each protocol it punts. -/
def lifRules (cfg : PwConfig) (c : BitVec 16) (l : PwLogicalIf) : List DirectRule :=
  match pwConfigResolvePort cfg l.globalPort with
  | some ref =>
    if c = ref.cardId then
      (puntTests l.punt).map fun (test, prio) =>
        { applies := fun k win base => onPort ref.localPortId l.vlan k && test k win base
          priority := prio
          result := { hit := true, action := .puntToHost, logicalIfId := l.id } }
    else []
  | none => []

/-- The rule of a forward on card `c`. -/
def fwdRules (cfg : PwConfig) (c : BitVec 16) (fr : PwForwardRule) : List DirectRule :=
  match pwConfigResolvePort cfg fr.ingressPort, pwConfigResolvePort cfg fr.egressPort with
  | some ing, some egr =>
    if c = ing.cardId then
      [{ applies := fun k _ _ => forwardTest ing.localPortId fr k
         priority := fr.priority
         result :=
          { hit := true, action := .forwardPort, egressPort := egr.localPortId.setWidth 4 } }]
    else []
  | _, _ => []

/-- **The configured rules of a card in emission order.** -/
def directRules (cfg : PwConfig) (c : BitVec 16) : List DirectRule :=
  cfg.logicalIf.flatMap (lifRules cfg c) ++ cfg.forwards.flatMap (fwdRules cfg c)

/-- The decision for a frame: that of the best rule that applies, the first
among equals, and none when no rule applies. -/
def directResult (cfg : PwConfig) (c : BitVec 16) (k : PwMatchKey) (win : Window)
    (base : BitVec 16) : PwClassResult :=
  (select (fun r : DirectRule => r.priority.toNat) (fun r => r.applies k win base)
    DirectRule.result (directRules cfg c)).getD {}

/-! ## Comparators and fields -/

section Lanes

variable (k : PwMatchKey)

theorem ingress_cmp (v : BitVec 8) :
    (PwFcCmp.row ⟨.ingress, 0xF, v.setWidth 32⟩).matches k =
      (k.ingressPort == v.setWidth 4) := by
  have h := and_lowMask_beq (w := 4) (0#28 ++ k.ingressPort) (v.setWidth 32) (by decide)
  rw [BitVec.setWidth_append_eq_right, BitVec.setWidth_setWidth_of_le _ (by decide)] at h
  exact h

theorem vlan_cmp (v : BitVec 16) :
    (PwFcCmp.row ⟨.vlan, 0x0FFF, v.setWidth 32⟩).matches k = (k.vlanId == v.setWidth 12) := by
  have h := and_lowMask_beq (w := 12) (0#19 ++ bit k.innerVlanValid ++ k.vlanId)
    (v.setWidth 32) (by decide)
  rw [BitVec.setWidth_append_eq_right, BitVec.setWidth_setWidth_of_le _ (by decide)] at h
  exact h

/-- A comparator over a 16-bit lane. -/
private theorem half_cmp (x v : BitVec 16) :
    (0#16 ++ x &&& 0xFFFF#32 == v.setWidth 32 &&& 0xFFFF#32) = (x == v) := by
  have h := and_lowMask_beq (w := 16) (0#16 ++ x) (v.setWidth 32) (by decide)
  rw [BitVec.setWidth_append_eq_right, BitVec.setWidth_setWidth_of_le _ (by decide),
    BitVec.setWidth_eq] at h
  exact h

theorem ethertype_cmp (v : BitVec 16) :
    (PwFcCmp.row ⟨.ethertype, 0xFFFF, v.setWidth 32⟩).matches k = (k.ethertype == v) :=
  half_cmp k.ethertype v

theorem l4Dst_cmp (v : BitVec 16) :
    (PwFcCmp.row ⟨.l4Dst, 0xFFFF, v.setWidth 32⟩).matches k = (k.l4Dst == v) :=
  half_cmp k.l4Dst v

theorem l4Src_cmp (v : BitVec 16) :
    (PwFcCmp.row ⟨.l4Src, 0xFFFF, v.setWidth 32⟩).matches k = (k.l4Src == v) :=
  half_cmp k.l4Src v

theorem l3Proto_cmp (v : BitVec 8) :
    (PwFcCmp.row ⟨.l3Proto, 0xFF, v.setWidth 32⟩).matches k = (k.l3Proto == v) := by
  have h := and_lowMask_beq (w := 8) (0#24 ++ k.l3Proto) (v.setWidth 32) (by decide)
  rw [BitVec.setWidth_append_eq_right, BitVec.setWidth_setWidth_of_le _ (by decide),
    BitVec.setWidth_eq] at h
  exact h

/-- The flag comparator reads bit 3 of its lane. -/
theorem isIpv6_cmp :
    (PwFcCmp.row ⟨.flags, fcFlagIsIpv6, fcFlagIsIpv6⟩).matches k = k.isIpv6 := by
  have hbit : (flagsLane k).getLsbD 3 = k.isIpv6 := by
    simp only [flagsLane, BitVec.getLsbD_append]
    simp [bit]
  have hand : flagsLane k &&& BitVec.twoPow 32 3 = if k.isIpv6 then BitVec.twoPow 32 3 else 0 := by
    rw [BitVec.and_twoPow, hbit]
    rfl
  change (flagsLane k &&& BitVec.twoPow 32 3 == _) = _
  rw [hand]
  cases k.isIpv6 <;> decide

/-- A word of an address is compared under its mask, also where an empty mask
leaves the comparator out. -/
theorem all_optCmp_word {src : PwfpgaFcSrc} {lane : BitVec 32}
    (hlane : srcLane k (src.code.setWidth 5) = lane) (a m : BitVec 32) :
    (optCmp (m != 0) ⟨src, m, a &&& m⟩).all (fun c => c.row.matches k) =
      (lane &&& m == a &&& m) := by
  subst hlane
  by_cases hm : m = 0
  · simp [optCmp, hm]
  · rw [optCmp, if_pos (bne_iff_ne.mpr hm)]
    simp [PwFcCmp.row, CmpRow.matches, BitVec.and_assoc]

end Lanes

/-- **Splitting an address over comparators loses nothing**: the words of a
masked address agree exactly when the masked addresses do. -/
theorem words_beq (x a m : BitVec 128) :
    ((ipv6MaskWord x 3 &&& ipv6MaskWord m 3 == ipv6MaskWord a 3 &&& ipv6MaskWord m 3) &&
      (ipv6MaskWord x 2 &&& ipv6MaskWord m 2 == ipv6MaskWord a 2 &&& ipv6MaskWord m 2) &&
      (ipv6MaskWord x 1 &&& ipv6MaskWord m 1 == ipv6MaskWord a 1 &&& ipv6MaskWord m 1) &&
      (ipv6MaskWord x 0 &&& ipv6MaskWord m 0 == ipv6MaskWord a 0 &&& ipv6MaskWord m 0)) =
      (x &&& m == a &&& m) := by
  rw [Bool.eq_iff_iff]
  simp only [Bool.and_eq_true, beq_iff_eq, ipv6MaskWord, ← BitVec.extractLsb'_and]
  constructor
  · rintro ⟨⟨⟨h3, h2⟩, h1⟩, h0⟩
    apply eq_of_wordAt_eq (n := 4) (m := 32)
    intro i
    match i with
    | 0 => exact h0
    | 1 => exact h1
    | 2 => exact h2
    | 3 => exact h3
  · intro h
    simp [h]

theorem all_ipv6Cmps (k : PwMatchKey) {x : BitVec 128} (a m : BitVec 128)
    (s3 s2 s1 s0 : PwfpgaFcSrc)
    (h3 : srcLane k (s3.code.setWidth 5) = ipv6MaskWord x 3)
    (h2 : srcLane k (s2.code.setWidth 5) = ipv6MaskWord x 2)
    (h1 : srcLane k (s1.code.setWidth 5) = ipv6MaskWord x 1)
    (h0 : srcLane k (s0.code.setWidth 5) = ipv6MaskWord x 0) :
    (ipv6Cmps a m [s3, s2, s1, s0]).all (fun c => c.row.matches k) = (x &&& m == a &&& m) := by
  rw [← words_beq]
  simp only [ipv6Cmps, List.zip_cons_cons, List.zip_nil_left, List.flatMap_cons, List.flatMap_nil,
    List.append_nil, List.all_append, all_optCmp_word k h3, all_optCmp_word k h2,
    all_optCmp_word k h1, all_optCmp_word k h0, Bool.and_assoc]

/-- Comparing the upper two of four bytes. -/
private theorem upper_bytes_eq_iff (a b c d v w : BitVec 8) :
    (a ++ b ++ c ++ d) &&& (BitVec.allOnes 8 ++ BitVec.allOnes 8 ++ 0#8 ++ 0#8) =
      (v ++ w ++ 0#8 ++ 0#8) &&& (BitVec.allOnes 8 ++ BitVec.allOnes 8 ++ 0#8 ++ 0#8) ↔
    a = v ∧ b = w := by
  simp only [BitVec.and_append, append_eq_append_iff, BitVec.and_allOnes, BitVec.and_zero,
    and_true]

/-- The window comparator of IS-IS compares the first two bytes. -/
theorem isIs_udf (win : Window) (base : BitVec 16) :
    (PwFcUdf.row ⟨0, 0xFFFF0000, 0xFEFE0000⟩).matches win base =
      (byteAt win base == 0xFE && byteAt win (base + 1) == 0xFE) := by
  have hext : sliceExt win (base + 0#16) = sliceExt win base := by rw [BitVec.add_zero]
  change (sliceExt win (base + 0#16) &&& _ == _) = _
  rw [Bool.eq_iff_iff, Bool.and_eq_true, beq_iff_eq, beq_iff_eq, beq_iff_eq, hext]
  exact upper_bytes_eq_iff _ _ _ _ 0xFE 0xFE

/-! ## Rules and their direct meaning -/

theorem all_optCmp (c : Bool) (x : PwFcCmp) (f : PwFcCmp → Bool) :
    (optCmp c x).all f = (!c || f x) := by
  cases c <;> simp [optCmp]

/-- **The comparators of a forward say what its fields say.** -/
theorem matches_forwardSpec (ing egr : PwPortRef) (fr : PwForwardRule) (k : PwMatchKey)
    (win : Window) (base : BitVec 16) :
    (forwardSpec ing egr fr).matches k win base = forwardTest ing.localPortId fr k := by
  have hdst := all_ipv6Cmps k (x := k.ipv6Dst) fr.ipv6Dst fr.ipv6DstMask .ipv6Dst3 .ipv6Dst2
    .ipv6Dst1 .ipv6Dst0 rfl rfl rfl rfl
  have hsrc := all_ipv6Cmps k (x := k.ipv6Src) fr.ipv6Src fr.ipv6SrcMask .ipv6Src3 .ipv6Src2
    .ipv6Src1 .ipv6Src0 rfl rfl rfl rfl
  simp only [RuleSpec.matches, forwardSpec, forwardCmps, List.all_append, List.all_cons,
    List.all_nil, all_optCmp, ingress_cmp, vlan_cmp, ethertype_cmp, l3Proto_cmp, l4Dst_cmp,
    isIpv6_cmp, forwardTest, onPort]
  cases fr.ipv6DstSet <;> cases fr.ipv6SrcSet <;> simp [hdst, hsrc, bne]

/-- What a punt line matches, its fields read directly. -/
def PuntPattern.test (p : PuntPattern) : FrameTest := fun k win base =>
  (p.eth == 0 || k.ethertype == p.eth) && (p.l3p == 0 || k.l3Proto == p.l3p) &&
  (p.l4port == 0 || (PwFcCmp.row ⟨p.l4lane, 0xFFFF, p.l4port.setWidth 32⟩).matches k) &&
  (puntUdfs p).all (fun u => u.row.matches win base)

theorem matches_puntSpec (ref : PwPortRef) (l : PwLogicalIf) (p : PuntPattern) (k : PwMatchKey)
    (win : Window) (base : BitVec 16) :
    (puntSpec ref l p).matches k win base =
      (onPort ref.localPortId l.vlan k && p.test k win base) := by
  simp only [RuleSpec.matches, puntSpec, puntCmps, List.all_append, List.all_cons,
    List.all_nil, all_optCmp, ingress_cmp, vlan_cmp, ethertype_cmp, l3Proto_cmp, onPort,
    PuntPattern.test]
  simp [bne, Bool.and_assoc]

/-- A punt line and a protocol say the same. -/
def PuntPattern.Means (p : PuntPattern) (t : FrameTest × BitVec 8) : Prop :=
  p.prio = t.2 ∧ ∀ k win base, p.test k win base = t.1 k win base

private theorem forall₂_ite {α β : Type} {R : α → β → Prop} {l : List α} {l' : List β}
    (c : Bool) (h : List.Forall₂ R l l') :
    List.Forall₂ R (if c then l else []) (if c then l' else []) := by
  cases c
  · exact .nil
  · exact h

/-- **The punt lines and the protocols agree**, one by one and in order. -/
theorem forall₂_puntPatterns (p : PwPuntFlags) :
    List.Forall₂ PuntPattern.Means (puntPatterns p) (puntTests p) := by
  have one : ∀ {x : PuntPattern} {t : FrameTest × BitVec 8}, x.Means t →
      List.Forall₂ PuntPattern.Means [x] [t] := fun h => .cons h .nil
  have two : ∀ {x y : PuntPattern} {t u : FrameTest × BitVec 8}, x.Means t → y.Means u →
      List.Forall₂ PuntPattern.Means [x, y] [t, u] := fun h h' => .cons h (one h')
  refine List.rel_append (List.rel_append (List.rel_append (List.rel_append (List.rel_append
    (List.rel_append (List.rel_append (List.rel_append
      (forall₂_ite _ (one ⟨rfl, fun k win base => ?_⟩))
      (forall₂_ite _ (one ⟨rfl, fun k win base => ?_⟩)))
      (forall₂_ite _ (one ⟨rfl, fun k win base => ?_⟩)))
      (forall₂_ite _ (one ⟨rfl, fun k win base => ?_⟩)))
      (forall₂_ite _ (two ⟨rfl, fun k win base => ?_⟩ ⟨rfl, fun k win base => ?_⟩)))
      (forall₂_ite _ (one ⟨rfl, fun k win base => ?_⟩)))
      (forall₂_ite _ (one ⟨rfl, fun k win base => ?_⟩)))
      (forall₂_ite _ (two ⟨rfl, fun k win base => ?_⟩ ⟨rfl, fun k win base => ?_⟩)))
      (forall₂_ite _ (one ⟨rfl, fun k win base => ?_⟩))
  · simp [PuntPattern.test, puntUdfs]
  · simp [PuntPattern.test, puntUdfs]
  · simp [PuntPattern.test, puntUdfs]
  · simp [PuntPattern.test, puntUdfs]
  · rw [PuntPattern.test, l4Dst_cmp]
    simp [puntUdfs]
  · rw [PuntPattern.test, l4Src_cmp]
    simp [puntUdfs]
  · simp [PuntPattern.test, puntUdfs]
  · simp [PuntPattern.test, puntUdfs]
  · rw [PuntPattern.test, l4Dst_cmp]
    simp [puntUdfs]
  · rw [PuntPattern.test, l4Src_cmp]
    simp [puntUdfs]
  · refine Eq.trans ?_ (isIs_udf win base)
    simp [PuntPattern.test, puntUdfs]

/-! ## The compiled card -/

/-- A rule of the compiler and a configured rule say the same. -/
def RuleSpec.Means (s : RuleSpec) (r : DirectRule) : Prop :=
  (∀ k win base, s.matches k win base = r.applies k win base) ∧ s.priority = r.priority ∧
    s.result = r.result

theorem forall₂_lifSpecs (cfg : PwConfig) (c : BitVec 16) (l : PwLogicalIf) :
    List.Forall₂ RuleSpec.Means (lifSpecs cfg c l) (lifRules cfg c l) := by
  rw [lifSpecs, lifRules]
  cases pwConfigResolvePort cfg l.globalPort with
  | none => exact .nil
  | some ref =>
    by_cases hc : c = ref.cardId
    · simp only [hc, if_true, List.forall₂_map_left_iff, List.forall₂_map_right_iff]
      refine (forall₂_puntPatterns l.punt).imp fun p t ht => ⟨fun k win base => ?_, ht.1, rfl⟩
      rw [matches_puntSpec, ht.2]
    · simp only [hc, if_false]
      exact .nil

theorem forall₂_fwdSpecs (cfg : PwConfig) (c : BitVec 16) (fr : PwForwardRule) :
    List.Forall₂ RuleSpec.Means (fwdSpecs cfg c fr) (fwdRules cfg c fr) := by
  rw [fwdSpecs, fwdRules]
  cases pwConfigResolvePort cfg fr.ingressPort with
  | none => exact .nil
  | some ing =>
    cases pwConfigResolvePort cfg fr.egressPort with
    | none => exact .nil
    | some egr =>
      by_cases hc : c = ing.cardId
      · simp only [hc, if_true]
        exact .cons ⟨fun k win base => matches_forwardSpec ing egr fr k win base, rfl, rfl⟩ .nil
      · simp only [hc, if_false]
        exact .nil

private theorem forall₂_flatMap {α β γ : Type} {R : α → β → Prop} {f : γ → List α}
    {g : γ → List β} (h : ∀ x, List.Forall₂ R (f x) (g x)) (l : List γ) :
    List.Forall₂ R (l.flatMap f) (l.flatMap g) := by
  induction l with
  | nil => exact .nil
  | cons x xs ih => exact List.rel_append (h x) ih

theorem forall₂_ruleSpecs (cfg : PwConfig) (c : BitVec 16) :
    List.Forall₂ RuleSpec.Means (ruleSpecs cfg c) (directRules cfg c) :=
  List.rel_append (forall₂_flatMap (forall₂_lifSpecs cfg c) _)
    (forall₂_flatMap (forall₂_fwdSpecs cfg c) _)

/-- The flow pass leaves comparators and rules empty. -/
theorem noRules_afterFlows {cfg : PwConfig} {mid : PwProgram}
    (h : cfg.flows.foldlM (compileOneFlow cfg) (initProgram cfg) = .ok mid) {c : BitVec 16}
    {cp : PwCardProgram} (hcp : cardSlot mid c = some cp) :
    cp.fcCmps = [] ∧ cp.fcUdfs = [] ∧ cp.fcRules = [] := by
  refine foldlM_ok_invariant (P := fun q => ∀ c cp, cardSlot q c = some cp →
    cp.fcCmps = [] ∧ cp.fcUdfs = [] ∧ cp.fcRules = []) h ?_ ?_ c cp hcp
  · intro c cp hcp
    obtain ⟨x, -, rfl⟩ := List.mem_map.mp (List.mem_of_find?_eq_some hcp)
    exact ⟨rfl, rfl, rfl⟩
  · intro f _ s t hs ht c cp hcp
    obtain ⟨P, hfits, hw, -⟩ := compileOneFlow_spec ht
    rw [hw.slot] at hcp
    obtain ⟨cp₀, hcp₀, rfl⟩ := Option.map_eq_some_iff.mp hcp
    rcases P.delta_cases hfits hcp₀ with ⟨-, -, heq⟩ | ⟨row, hadds⟩
    · rw [heq]
      exact hs c cp₀ hcp₀
    · rw [hadds.eq]
      exact hs c cp₀ hcp₀

/-- The invariant of the rule passes holds of every compiled card. -/
theorem rulesOk_of_compile {cfg : PwConfig} {p : PwProgram} (h : pwFlowCompile cfg = .ok p)
    {cp : PwCardProgram} (hcp : cp ∈ p.perCard) : RulesOk cp (ruleSpecs cfg cp.cardId) := by
  obtain ⟨-, -, mid, hmid, -, htrace⟩ := pwFlowCompile_spec h
  obtain ⟨T⟩ := htrace cp hcp
  obtain ⟨hc, hu, hr⟩ := noRules_afterFlows hmid T.flows_eq
  have hok := appendSpecs_rulesOk T.rules_eq (rulesOk_empty hc hu hr)
  obtain ⟨hcmps, hudfs, hrules⟩ := T.rules_final
  refine ⟨⟨hcmps ▸ hok.fits.cmps, hudfs ▸ hok.fits.udfs⟩, hrules ▸ hok.rules, ?_⟩
  rw [hrules]
  refine hok.each.imp fun s r hsr => ⟨?_, hsr.eq⟩
  rw [hcmps, hudfs]
  exact hsr.covers

/-- A card whose rules are the compiled ones decides as the configuration does. -/
theorem result_eq_directResult {cfg : PwConfig} {cp : PwCardProgram}
    (H : RulesOk cp (ruleSpecs cfg cp.cardId)) (k : PwMatchKey) (win : Window)
    (base : BitVec 16) :
    cp.fieldTables.result k win base = directResult cfg cp.cardId k win base := by
  rw [result_eq_select H, directResult]
  congr 1
  refine select_eq_of_forall₂ ((forall₂_ruleSpecs cfg cp.cardId).imp fun s r hsr => ?_)
  exact ⟨hsr.1 k win base, by rw [hsr.2.1], hsr.2.2⟩

/-- **Compiled rules mean what the configuration says.**  On every card, for
every key and every captured window, the comparators and rules decide as the
configured punts and forwards do when they are read field by field. -/
theorem compiled_rules_direct {cfg : PwConfig} {p : PwProgram} (h : pwFlowCompile cfg = .ok p)
    {cp : PwCardProgram} (hcp : cp ∈ p.perCard) (k : PwMatchKey) (win : Window)
    (base : BitVec 16) :
    cp.fieldTables.result k win base = directResult cfg cp.cardId k win base :=
  result_eq_directResult (rulesOk_of_compile h hcp) k win base

/-- Two interfaces that share comparators, and a forward of an IPv6 prefix. -/
def sampleRulesConfig : PwConfig :=
  { cards := [sampleCard]
    logicalIf :=
      [{ id := 1, name := "p0", globalPort := 0, punt := { arp := true, isIs := true } },
       { id := 2, name := "p1.100", globalPort := 1, vlan := 100
         punt := { arp := true, bgp := true } }]
    forwards :=
      [{ ingressPort := 0, egressPort := 1, priority := 10, ipv6DstSet := true
         ipv6Dst := 0x20010DB8000000000000000000000000
         ipv6DstMask := 0xFFFFFFFFFFFFFFFF0000000000000000 }] }

theorem compiled_rules_direct_sample :
    ∃ p cp, pwFlowCompile sampleRulesConfig = .ok p ∧ cp ∈ p.perCard ∧ cp.fcRules.length = 6 ∧
      cp.fieldTables.result { valid := true, ingressPort := 1, ethertype := 0x0806, vlanId := 100 }
        (fun _ => 0) 0 =
        directResult sampleRulesConfig cp.cardId
          { valid := true, ingressPort := 1, ethertype := 0x0806, vlanId := 100 } (fun _ => 0) 0 ∧
      directResult sampleRulesConfig 0
        { valid := true, ingressPort := 1, ethertype := 0x0806, vlanId := 100 } (fun _ => 0) 0 =
        { hit := true, action := .puntToHost, logicalIfId := 2 } := by
  obtain ⟨p, hp, hcheck⟩ := exists_of_okAnd
    (show okAnd (pwFlowCompile sampleRulesConfig)
      (fun p => p.perCard.any fun cp => cp.fcRules.length == 6) = true by decide +kernel)
  obtain ⟨cp, hcp, hlen⟩ := List.any_eq_true.mp hcheck
  exact ⟨p, cp, hp, hcp, by simpa using hlen, compiled_rules_direct hp hcp _ _ _, by decide +kernel⟩

end PacketWyrm
