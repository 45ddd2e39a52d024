import PacketWyrm.Config
import PacketWyrm.Lib.Keyed

/-!
# Static validation

`validate.c`: duplicates, dangling references and contradictory settings, in
the order the source checks them, each with the path and the text it reports.

## Main definitions

* `pwConfigValidate` — the checks.
* `ValidConfig` — what they establish, free of the order they are made in.

## Main results

* `pwConfigValidate_eq_ok_iff` — validation accepts exactly the valid
  configurations.
-/

namespace PacketWyrm

open Lib

/-- `PW_TAP_IFNAME_MAX`. -/
def tapIfnameMax : ℕ := 16

/-! ## The checks -/

/-- Two cards with one id, or with one PCI address. -/
def checkCardDuplicates (cards : List PwCard) : Except PwFailure Unit :=
  forIdx (fun i ci =>
    forIdx (fun j cj => do
      failIf (ci.id == cj.id) (diag .dupCardId s!"cards[{j}].id" "duplicate card id")
      failIf (ci.pci == cj.pci) (diag .dupCardId s!"cards[{j}].pci" "duplicate PCI BDF"))
    (i + 1) (cards.drop (i + 1)))
  0 cards

/-- Port `pi` of card `i` against every port that comes after it. -/
def checkGlobalPort (cards : List PwCard) (i pi : ℕ) (p : PwCardPort) : Except PwFailure Unit :=
  forIdx (fun j cj =>
    let first := if j = i then pi + 1 else 0
    forIdx (fun pj q =>
      failIf (p.globalPort == q.globalPort)
        (diag .dupGlobalPort s!"cards[{j}].ports[{pj}].global_port" "duplicate global_port"))
    first (cj.ports.drop first))
  i (cards.drop i)

/-- Two ports of card `i` with one local port number. -/
def checkLocalPorts (i : ℕ) (c : PwCard) : Except PwFailure Unit :=
  forIdx (fun pi p =>
    forIdx (fun pj q =>
      failIf (p.localPort == q.localPort)
        (diag .dupGlobalPort s!"cards[{i}].ports[{pj}].local_port"
          "duplicate local_port within card"))
    (pi + 1) (c.ports.drop (pi + 1)))
  0 c.ports

/-- Global ports across all cards, then local ports within each. -/
def checkPorts (cards : List PwCard) : Except PwFailure Unit :=
  forIdx (fun i ci => do
    forIdx (fun pi p => checkGlobalPort cards i pi p) 0 ci.ports
    checkLocalPorts i ci)
  0 cards

/-- Interface `i`: a usable TAP name, no namespace, an id and a name of its
own, and a port that exists. -/
def checkLogicalIf (cfg : PwConfig) (i : ℕ) (l : PwLogicalIf) : Except PwFailure Unit := do
  failIf (tapIfnameMax ≤ l.name.utf8ByteSize)
    (diag .inval s!"logical_interfaces[{i}].name"
      "logical_if name too long for a TAP device (max 15 chars)")
  failIf (l.netns != "")
    (diag .inval s!"logical_interfaces[{i}].netns"
      ("logical_if netns is not yet supported (TAP stays in the daemon's "
        ++ "namespace); move the TAP externally or omit netns"))
  forIdx (fun j m => do
    failIf (l.id == m.id)
      (diag .dupLogicalIf s!"logical_interfaces[{j}].id" "duplicate logical_if id")
    failIf (l.name == m.name)
      (diag .dupLogicalIf s!"logical_interfaces[{j}].name" "duplicate logical_if name"))
    (i + 1) (cfg.logicalIf.drop (i + 1))
  failIf (pwConfigResolvePort cfg l.globalPort).isNone
    (diag .unknownGlobalPort s!"logical_interfaces[{i}].global_port"
      "global_port is not declared in any card")

/-- The references of flow `i`. -/
def checkFlowRefs (cfg : PwConfig) (i : ℕ) (f : PwFlow) : Except PwFailure Unit := do
  failIf (pwConfigResolvePort cfg f.txGlobalPort).isNone
    (diag .unknownGlobalPort s!"flows[{i}].tx_global_port"
      "tx_global_port is not declared in any card")
  failIf (pwConfigResolvePort cfg f.rxGlobalPort).isNone
    (diag .unknownGlobalPort s!"flows[{i}].rx_global_port"
      "rx_global_port is not declared in any card")
  failIf (f.logicalIfId != 0 && (pwConfigLogicalIfById cfg f.logicalIfId).isNone)
    (diag .unknownLogicalIf s!"flows[{i}].logical_if_id" "logical_if_id is not declared")

/-- A range of frame lengths is set when its maximum is. -/
def PwFlowTraffic.hasRange (t : PwFlowTraffic) : Bool := t.frameLenMax != 0

/-- One frame length or a range, one rate. -/
def checkFlowTraffic (i : ℕ) (t : PwFlowTraffic) : Except PwFailure Unit := do
  failIf (t.frameLenFixedSet && t.hasRange)
    (diag .inval s!"flows[{i}].traffic.frame_len*"
      "set either frame_len or frame_len_min/max/step, not both")
  failIf (!t.frameLenFixedSet && !t.hasRange)
    (diag .missingField s!"flows[{i}].traffic" "frame_len or frame_len_min/max required")
  failIf (t.rateBps == 0 && t.ratePps == 0)
    (diag .missingField s!"flows[{i}].traffic" "rate_bps or rate_pps required")
  failIf (t.rateBps != 0 && t.ratePps != 0)
    (diag .inval s!"flows[{i}].traffic" "set either rate_bps or rate_pps, not both")

/-- Some measurement is requested. -/
def PwFlowMeas.any (m : PwFlowMeas) : Bool := m.loss || m.latency || m.jitter

/-- A raw template carries no test header, so it can be neither measured nor
mapped by flow id, and it cannot be tunnelled. -/
def checkFlowTemplate (i : ℕ) (f : PwFlow) : Except PwFailure Unit := do
  let raw := f.traffic.frameTemplate != .test
  failIf (raw && f.meas.any)
    (diag .inval s!"flows[{i}].measurements"
      ("raw frame templates (raw/ip/eth) carry no test "
        ++ "header -- loss/latency/jitter cannot be measured; remove measurements"))
  failIf (raw && !f.classifyHeader)
    (diag .inval s!"flows[{i}].classify"
      ("raw frame templates (raw/ip/eth) have no test-header "
        ++ "flow_id -- set classify: header"))
  failIf (raw && f.encap.present)
    (diag .inval s!"flows[{i}].encap"
      "encapsulation is not supported with a raw frame template")
  failIf (f.background && f.meas.any)
    (diag .inval s!"flows[{i}].measurements"
      ("background flows are TX-only and cannot request "
        ++ "measurements (loss/latency/jitter); remove measurements or background"))

/-- Everything checked about flow `i`. -/
def checkFlow (cfg : PwConfig) (i : ℕ) (f : PwFlow) : Except PwFailure Unit := do
  forIdx (fun j g =>
    failIf (f.id == g.id) (diag .dupFlowId s!"flows[{j}].id" "duplicate flow id"))
    (i + 1) (cfg.flows.drop (i + 1))
  checkFlowRefs cfg i f
  checkFlowTraffic i f.traffic
  checkFlowTemplate i f

/-- Both ports of a forward exist, on one card. -/
def checkForward (cfg : PwConfig) (i : ℕ) (fr : PwForwardRule) : Except PwFailure Unit := do
  let ing ← orFail (pwConfigResolvePort cfg fr.ingressPort)
    (diag .unknownGlobalPort s!"forwards[{i}].ingress_port"
      "ingress_port does not resolve to a card port")
  let egr ← orFail (pwConfigResolvePort cfg fr.egressPort)
    (diag .unknownGlobalPort s!"forwards[{i}].egress_port"
      "egress_port does not resolve to a card port")
  failIf (ing.cardId != egr.cardId)
    (diag .inval s!"forwards[{i}]" "ingress and egress ports must be on the same card")

/-- `pw_config_validate`. -/
def pwConfigValidate (cfg : PwConfig) : Except PwFailure Unit := do
  checkCardDuplicates cfg.cards
  checkPorts cfg.cards
  forIdx (checkLogicalIf cfg) 0 cfg.logicalIf
  forIdx (checkFlow cfg) 0 cfg.flows
  forIdx (checkForward cfg) 0 cfg.forwards

/-! ## What validation establishes -/

/-- The settings of one flow that validation accepts. -/
structure PwFlow.Valid (cfg : PwConfig) (f : PwFlow) : Prop where
  tx : (pwConfigResolvePort cfg f.txGlobalPort).isSome
  rx : (pwConfigResolvePort cfg f.rxGlobalPort).isSome
  logicalIf : f.logicalIfId ≠ 0 → (pwConfigLogicalIfById cfg f.logicalIfId).isSome
  frameLen : f.traffic.frameLenFixedSet = true ↔ f.traffic.hasRange = false
  rate : f.traffic.rateBps = 0 ↔ f.traffic.ratePps ≠ 0
  raw : f.traffic.frameTemplate ≠ .test →
    f.meas.any = false ∧ f.classifyHeader = true ∧ f.encap.present = false
  background : f.background = true → f.meas.any = false

/-- The settings of one interface that validation accepts. -/
structure PwLogicalIf.Valid (cfg : PwConfig) (l : PwLogicalIf) : Prop where
  name : l.name.utf8ByteSize < tapIfnameMax
  netns : l.netns = ""
  port : (pwConfigResolvePort cfg l.globalPort).isSome

/-- The ports of a forward exist on one card. -/
def PwForwardRule.Valid (cfg : PwConfig) (fr : PwForwardRule) : Prop :=
  ∃ ing egr, pwConfigResolvePort cfg fr.ingressPort = some ing ∧
    pwConfigResolvePort cfg fr.egressPort = some egr ∧ ing.cardId = egr.cardId

/-- **What a validated configuration is.** -/
structure ValidConfig (cfg : PwConfig) : Prop where
  cards : cfg.cards.Pairwise fun c d => c.id ≠ d.id ∧ c.pci ≠ d.pci
  globalPorts : (cfg.cards.flatMap PwCard.ports).Pairwise fun p q => p.globalPort ≠ q.globalPort
  localPorts : ∀ c ∈ cfg.cards, c.ports.Pairwise fun p q => p.localPort ≠ q.localPort
  lifs : cfg.logicalIf.Pairwise fun l m => l.id ≠ m.id ∧ l.name ≠ m.name
  lif : ∀ l ∈ cfg.logicalIf, l.Valid cfg
  flows : cfg.flows.Pairwise fun f g => f.id ≠ g.id
  flow : ∀ f ∈ cfg.flows, f.Valid cfg
  forwards : ∀ fr ∈ cfg.forwards, fr.Valid cfg

theorem checkCardDuplicates_eq_ok_iff {cards : List PwCard} {u : Unit} :
    checkCardDuplicates cards = .ok u ↔
      cards.Pairwise fun c d => c.id ≠ d.id ∧ c.pci ≠ d.pci :=
  forIdx_pairs_eq_ok_iff fun _ _ _ => by simp

theorem checkLocalPorts_eq_ok_iff {i : ℕ} {c : PwCard} {u : Unit} :
    checkLocalPorts i c = .ok u ↔ c.ports.Pairwise fun p q => p.localPort ≠ q.localPort :=
  forIdx_pairs_eq_ok_iff fun _ _ _ => by simp

/-- The walk for port `pi` of card `i` compares it with the later ports of its
own card and with every port of a later card. -/
theorem checkGlobalPort_eq_ok_iff {cards : List PwCard} {i pi : ℕ} {c : PwCard}
    {p : PwCardPort} {u : Unit} (hc : cards[i]? = some c) :
    checkGlobalPort cards i pi p = .ok u ↔
      (∀ q ∈ c.ports.drop (pi + 1), p.globalPort ≠ q.globalPort) ∧
      ∀ d ∈ cards.drop (i + 1), ∀ q ∈ d.ports, p.globalPort ≠ q.globalPort := by
  obtain ⟨hi, rfl⟩ := List.getElem?_eq_some_iff.mp hc
  rw [checkGlobalPort, List.drop_eq_getElem_cons hi, forIdx, bind_eq_ok_iff]
  simp only [if_true]
  constructor
  · rintro ⟨⟨⟩, hown, hlater⟩
    refine ⟨(forIdx_eq_ok_iff_forall fun _ q _ => by simp).mp hown, fun d hd => ?_⟩
    obtain ⟨j, hj⟩ := List.mem_iff_getElem?.mp hd
    have := forIdx_eq_ok_iff.mp hlater j d hj
    rw [if_neg (by omega)] at this
    exact (forIdx_eq_ok_iff_forall fun _ q _ => by simp).mp this
  · rintro ⟨hown, hlater⟩
    refine ⟨(), (forIdx_eq_ok_iff_forall fun _ q _ => by simp).mpr hown, ?_⟩
    refine forIdx_eq_ok_iff.mpr fun j d hj => ?_
    rw [if_neg (by omega)]
    exact (forIdx_eq_ok_iff_forall fun _ q _ => by simp).mpr
      (hlater d (List.mem_of_getElem? hj))

theorem checkPorts_eq_ok_iff {cards : List PwCard} {u : Unit} :
    checkPorts cards = .ok u ↔
      ((cards.flatMap PwCard.ports).Pairwise fun p q => p.globalPort ≠ q.globalPort) ∧
      ∀ c ∈ cards, c.ports.Pairwise fun p q => p.localPort ≠ q.localPort := by
  rw [checkPorts, forIdx_eq_ok_iff, List.pairwise_flatMap]
  have key : ∀ i c, cards[i]? = some c →
      ((forIdx (fun pi p => checkGlobalPort cards i pi p) 0 c.ports = .ok ()) ↔
        (c.ports.Pairwise fun p q => p.globalPort ≠ q.globalPort) ∧
        ∀ d ∈ cards.drop (i + 1), ∀ p ∈ c.ports, ∀ q ∈ d.ports,
          p.globalPort ≠ q.globalPort) := by
    intro i c hc
    rw [forIdx_eq_ok_iff, pairwise_iff_drop]
    constructor
    · intro h
      refine ⟨fun pi p hp => ?_, fun d hd p hp => ?_⟩
      · have := (checkGlobalPort_eq_ok_iff hc).mp (h pi p hp)
        simpa using this.1
      · obtain ⟨pi, hpi⟩ := List.mem_iff_getElem?.mp hp
        exact ((checkGlobalPort_eq_ok_iff hc).mp (h pi p hpi)).2 d hd
    · rintro ⟨hown, hlater⟩ pi p hp
      refine (checkGlobalPort_eq_ok_iff hc).mpr ⟨by simpa using hown pi p hp, fun d hd => ?_⟩
      exact hlater d hd p (List.mem_of_getElem? hp)
  simp only [bind_eq_ok_iff, Nat.zero_add, checkLocalPorts_eq_ok_iff]
  constructor
  · intro h
    refine ⟨⟨fun c hc => ?_, pairwise_iff_drop.mpr fun i c hc => ?_⟩, fun c hc => ?_⟩
    · obtain ⟨i, hi⟩ := List.mem_iff_getElem?.mp hc
      obtain ⟨⟨⟩, hg, -⟩ := h i c hi
      exact ((key i c hi).mp hg).1
    · obtain ⟨⟨⟩, hg, -⟩ := h i c hc
      exact fun d hd p hp q hq => ((key i c hc).mp hg).2 d hd p hp q hq
    · obtain ⟨i, hi⟩ := List.mem_iff_getElem?.mp hc
      obtain ⟨⟨⟩, -, hl⟩ := h i c hi
      exact hl
  · rintro ⟨⟨hown, hlater⟩, hlocal⟩ i c hc
    have hm : c ∈ cards := List.mem_of_getElem? hc
    refine ⟨(), (key i c hc).mpr ⟨hown c hm, fun d hd p hp q hq => ?_⟩, hlocal c hm⟩
    exact pairwise_iff_drop.mp hlater i c hc d hd p hp q hq

theorem checkFlowRefs_eq_ok_iff {cfg : PwConfig} {i : ℕ} {f : PwFlow} {u : Unit} :
    checkFlowRefs cfg i f = .ok u ↔
      (pwConfigResolvePort cfg f.txGlobalPort).isSome ∧
      (pwConfigResolvePort cfg f.rxGlobalPort).isSome ∧
      (f.logicalIfId ≠ 0 → (pwConfigLogicalIfById cfg f.logicalIfId).isSome) := by
  simp [checkFlowRefs, Option.isSome_iff_ne_none]

theorem checkFlowTraffic_eq_ok_iff {i : ℕ} {t : PwFlowTraffic} {u : Unit} :
    checkFlowTraffic i t = .ok u ↔
      (t.frameLenFixedSet = true ↔ t.hasRange = false) ∧ (t.rateBps = 0 ↔ t.ratePps ≠ 0) := by
  simp only [checkFlowTraffic, bind_eq_ok_iff, failIf_eq_ok_iff]
  generalize t.frameLenFixedSet = fixed
  generalize t.hasRange = range
  generalize t.rateBps = bps
  generalize t.ratePps = pps
  cases fixed <;> cases range <;> simp <;> tauto

theorem checkFlowTemplate_eq_ok_iff {i : ℕ} {f : PwFlow} {u : Unit} :
    checkFlowTemplate i f = .ok u ↔
      (f.traffic.frameTemplate ≠ .test →
        f.meas.any = false ∧ f.classifyHeader = true ∧ f.encap.present = false) ∧
      (f.background = true → f.meas.any = false) := by
  simp only [checkFlowTemplate, bind_eq_ok_iff, failIf_eq_ok_iff]
  by_cases hr : f.traffic.frameTemplate = .test <;> simp [hr, and_assoc]

/-- What the checks of one flow say of its settings; the comparison with the
later flows is the other half of `checkFlow`. -/
theorem PwFlow.valid_iff {cfg : PwConfig} {i : ℕ} {f : PwFlow} :
    f.Valid cfg ↔ checkFlowRefs cfg i f = .ok () ∧ checkFlowTraffic i f.traffic = .ok () ∧
      checkFlowTemplate i f = .ok () := by
  rw [checkFlowRefs_eq_ok_iff, checkFlowTraffic_eq_ok_iff, checkFlowTemplate_eq_ok_iff]
  constructor
  · rintro ⟨h₁, h₂, h₃, h₄, h₅, h₆, h₇⟩
    exact ⟨⟨h₁, h₂, h₃⟩, ⟨h₄, h₅⟩, h₆, h₇⟩
  · rintro ⟨⟨h₁, h₂, h₃⟩, ⟨h₄, h₅⟩, h₆, h₇⟩
    exact ⟨h₁, h₂, h₃, h₄, h₅, h₆, h₇⟩

theorem checkFlows_eq_ok_iff {cfg : PwConfig} {u : Unit} :
    forIdx (checkFlow cfg) 0 cfg.flows = .ok u ↔
      (cfg.flows.Pairwise fun f g => f.id ≠ g.id) ∧ ∀ f ∈ cfg.flows, f.Valid cfg := by
  have later : ∀ (i : ℕ) (f : PwFlow),
      (forIdx (fun j g => failIf (f.id == g.id)
        (diag .dupFlowId s!"flows[{j}].id" "duplicate flow id"))
        (i + 1) (cfg.flows.drop (i + 1)) = .ok ()) ↔
      ∀ g ∈ cfg.flows.drop (i + 1), f.id ≠ g.id :=
    fun i f => forIdx_eq_ok_iff_forall fun _ g _ => by simp
  rw [forIdx_eq_ok_iff, pairwise_iff_drop]
  simp only [checkFlow, bind_eq_ok_iff, Nat.zero_add]
  constructor
  · intro h
    refine ⟨fun i f hf => ?_, fun f hf => ?_⟩
    · obtain ⟨⟨⟩, hd, -⟩ := h i f hf
      exact (later i f).mp hd
    · obtain ⟨i, hi⟩ := List.mem_iff_getElem?.mp hf
      obtain ⟨⟨⟩, -, ⟨⟩, hr, ⟨⟩, ht, hm⟩ := h i f hi
      exact PwFlow.valid_iff.mpr ⟨hr, ht, hm⟩
  · rintro ⟨hd, hv⟩ i f hf
    obtain ⟨hr, ht, hm⟩ := (PwFlow.valid_iff (i := i)).mp (hv f (List.mem_of_getElem? hf))
    exact ⟨(), (later i f).mpr (hd i f hf), (), hr, (), ht, hm⟩

theorem checkLogicalIfs_eq_ok_iff {cfg : PwConfig} {u : Unit} :
    forIdx (checkLogicalIf cfg) 0 cfg.logicalIf = .ok u ↔
      (cfg.logicalIf.Pairwise fun l m => l.id ≠ m.id ∧ l.name ≠ m.name) ∧
      ∀ l ∈ cfg.logicalIf, l.Valid cfg := by
  have one : ∀ (i : ℕ) (l : PwLogicalIf), checkLogicalIf cfg i l = .ok () ↔
      (∀ m ∈ cfg.logicalIf.drop (i + 1), l.id ≠ m.id ∧ l.name ≠ m.name) ∧ l.Valid cfg := by
    intro i l
    simp only [checkLogicalIf, bind_eq_ok_iff, failIf_eq_ok_iff]
    constructor
    · rintro ⟨⟨⟩, hn, ⟨⟩, hns, ⟨⟩, hd, hp⟩
      refine ⟨(forIdx_eq_ok_iff_forall fun _ m _ => by simp).mp hd, ?_, ?_, ?_⟩
      · simpa using hn
      · simpa using hns
      · simpa [Option.isSome_iff_ne_none] using hp
    · rintro ⟨hd, hn, hns, hp⟩
      refine ⟨(), by simpa using hn, (), by simpa using hns, (), ?_, ?_⟩
      · exact (forIdx_eq_ok_iff_forall fun _ m _ => by simp).mpr hd
      · simpa [Option.isSome_iff_ne_none] using hp
  rw [forIdx_eq_ok_iff, pairwise_iff_drop]
  simp only [Nat.zero_add, one]
  constructor
  · intro h
    refine ⟨fun i l hl => (h i l hl).1, fun l hl => ?_⟩
    obtain ⟨i, hi⟩ := List.mem_iff_getElem?.mp hl
    exact (h i l hi).2
  · rintro ⟨hd, hv⟩ i l hl
    exact ⟨hd i l hl, hv l (List.mem_of_getElem? hl)⟩

theorem checkForwards_eq_ok_iff {cfg : PwConfig} {u : Unit} :
    forIdx (checkForward cfg) 0 cfg.forwards = .ok u ↔ ∀ fr ∈ cfg.forwards, fr.Valid cfg :=
  forIdx_eq_ok_iff_forall fun i fr _ => by simp [checkForward, PwForwardRule.Valid]

/-- **Validation accepts exactly the valid configurations.** -/
theorem pwConfigValidate_eq_ok_iff {cfg : PwConfig} {u : Unit} :
    pwConfigValidate cfg = .ok u ↔ ValidConfig cfg := by
  rw [pwConfigValidate]
  simp only [bind_eq_ok_iff]
  constructor
  · rintro ⟨⟨⟩, hc, ⟨⟩, hp, ⟨⟩, hl, ⟨⟩, hf, hfr⟩
    obtain ⟨hg, hlp⟩ := checkPorts_eq_ok_iff.mp hp
    obtain ⟨hld, hlv⟩ := checkLogicalIfs_eq_ok_iff.mp hl
    obtain ⟨hfd, hfv⟩ := checkFlows_eq_ok_iff.mp hf
    exact ⟨checkCardDuplicates_eq_ok_iff.mp hc, hg, hlp, hld, hlv, hfd, hfv, checkForwards_eq_ok_iff.mp hfr⟩
  · rintro ⟨hc, hg, hlp, hld, hlv, hfd, hfv, hfr⟩
    exact ⟨(), checkCardDuplicates_eq_ok_iff.mpr hc, (), checkPorts_eq_ok_iff.mpr ⟨hg, hlp⟩,
      (), checkLogicalIfs_eq_ok_iff.mpr ⟨hld, hlv⟩, (), checkFlows_eq_ok_iff.mpr ⟨hfd, hfv⟩,
      checkForwards_eq_ok_iff.mpr hfr⟩

/-- A port is known by its card and its local number. -/
theorem ValidConfig.globalPort_inj {cfg : PwConfig} (hv : ValidConfig cfg)
    {gp gp' : BitVec 16} {ref ref' : PwPortRef} (h : pwConfigResolvePort cfg gp = some ref)
    (h' : pwConfigResolvePort cfg gp' = some ref') (hcard : ref.cardId = ref'.cardId)
    (hport : ref.localPortId = ref'.localPortId) : gp = gp' := by
  obtain ⟨c, hc, hid, p, hp, hgp, hlp, -⟩ := exists_of_resolvePort h
  obtain ⟨c', hc', hid', p', hp', hgp', hlp', -⟩ := exists_of_resolvePort h'
  obtain rfl : c = c' := eq_of_pairwise_key_ne PwCard.id
    (hv.cards.imp fun h => h.1) hc hc' (by rw [hid, hid', hcard])
  obtain rfl : p = p' := eq_of_pairwise_key_ne PwCardPort.localPort
    (hv.localPorts c hc) hp hp' (by rw [hlp, hlp', hport])
  exact hgp.symm.trans hgp'

end PacketWyrm
