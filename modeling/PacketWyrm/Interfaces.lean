import PacketWyrm.DirectRules
import PacketWyrm.ParserAxis

/-!
# Logical interfaces on one port

Every TAP stands for one port and one VLAN.  A rule of an interface compares
the ingress port and, for an interface with a VLAN, the VLAN id; an interface
without a VLAN compares nothing, so its rules take tagged frames too, and a
tagged frame reaches it unless a better rule takes the frame first.

## Main definitions

* `OwnsFrame` — the interface configured for a frame's port and VLAN.
* `Isolated` — a punted frame reaches the interface that owns it.
* `Strays` — the comparators of an interface take frames it does not own.

## Main results

* `punt_isolated_iff` — exactly when a frame is isolated.
* `tagged_frame_strays` — a frame that is not.
-/

namespace PacketWyrm

open Lib

/-! ## Ownership -/

/-- The interface is configured for exactly the ingress port and the VLAN of
the frame, VLAN 0 meaning untagged. -/
def OwnsFrame (cfg : PwConfig) (c : BitVec 16) (l : PwLogicalIf) (k : PwMatchKey) : Prop :=
  ∃ ref, pwConfigResolvePort cfg l.globalPort = some ref ∧ ref.cardId = c ∧
    ref.localPortId.toNat = k.ingressPort.toNat ∧
    if l.vlan = 0 then k.vlanValid = false
    else k.vlanValid = true ∧ k.vlanId.toNat = l.vlan.toNat

/-- A frame that is punted carries the id of the interface that owns it, and no
other interface does. -/
def Isolated (cfg : PwConfig) (c : BitVec 16) (k : PwMatchKey) (r : PwClassResult) : Prop :=
  r.hit = true → r.action = .puntToHost →
    ∃ l ∈ cfg.logicalIf, l.id = r.logicalIfId ∧ OwnsFrame cfg c l k ∧
      ∀ m ∈ cfg.logicalIf, OwnsFrame cfg c m k → m = l

/-- The comparators of the interface take frames that it does not own: it has
no VLAN and the frame is tagged, or its VLAN or port does not fit the
comparator. -/
def Strays (cfg : PwConfig) (c : BitVec 16) (l : PwLogicalIf) (k : PwMatchKey) : Prop :=
  ∃ ref, pwConfigResolvePort cfg l.globalPort = some ref ∧ ref.cardId = c ∧
    (l.vlan = 0 ∧ k.vlanValid = true ∨ 2 ^ 12 ≤ l.vlan.toNat ∨ 2 ^ 4 ≤ ref.localPortId.toNat)

/-- A rule of an interface that strays. -/
def StrayRule (cfg : PwConfig) (c : BitVec 16) (k : PwMatchKey) (r : DirectRule) : Prop :=
  ∃ l ∈ cfg.logicalIf, r ∈ lifRules cfg c l ∧ Strays cfg c l k

theorem not_owns_of_strays {cfg : PwConfig} {c : BitVec 16} {l : PwLogicalIf} {k : PwMatchKey}
    (hs : Strays cfg c l k) : ¬OwnsFrame cfg c l k := by
  rintro ⟨ref, href, -, hport, hvlan⟩
  obtain ⟨ref', href', -, hstray⟩ := hs
  obtain rfl : ref = ref' := Option.some.inj (href.symm.trans href')
  rcases hstray with ⟨h0, hv⟩ | hwide | hwide
  · rw [if_pos h0, hv] at hvlan
    cases hvlan
  · have hne : l.vlan ≠ 0 := by
      rintro h0
      rw [h0] at hwide
      simp at hwide
    rw [if_neg hne] at hvlan
    have := k.vlanId.isLt
    omega
  · have := k.ingressPort.isLt
    omega

/-- Distinct ports and VLANs leave a frame at most one owner. -/
theorem eq_of_owns {cfg : PwConfig} (hv : ValidConfig cfg)
    (hlifs : cfg.logicalIf.Pairwise fun l m => (l.globalPort, l.vlan) ≠ (m.globalPort, m.vlan))
    {c : BitVec 16} {k : PwMatchKey} {l m : PwLogicalIf} (hl : l ∈ cfg.logicalIf)
    (hm : m ∈ cfg.logicalIf) (hol : OwnsFrame cfg c l k) (hom : OwnsFrame cfg c m k) : m = l := by
  obtain ⟨ref, href, hcard, hport, hvlan⟩ := hol
  obtain ⟨ref', href', hcard', hport', hvlan'⟩ := hom
  have hgp : m.globalPort = l.globalPort := by
    refine hv.globalPort_inj href' href (hcard'.trans hcard.symm) ?_
    exact BitVec.eq_of_toNat_eq (hport'.trans hport.symm)
  have hvid : m.vlan = l.vlan := by
    by_cases h0 : l.vlan = 0
    · rw [if_pos h0] at hvlan
      by_contra hne
      rw [if_neg (fun h => hne (h.trans h0.symm)), hvlan] at hvlan'
      exact absurd hvlan'.1 (by simp)
    · rw [if_neg h0] at hvlan
      by_cases h0' : m.vlan = 0
      · rw [if_pos h0', hvlan.1] at hvlan'
        cases hvlan'
      · rw [if_neg h0'] at hvlan'
        exact BitVec.eq_of_toNat_eq (hvlan'.2.symm.trans hvlan.2)
  exact eq_of_pairwise_key_ne _ hlifs hm hl (by rw [hgp, hvid])

/-! ## Which interface a rule punts to -/

/-- The rules of an interface punt to it, and take only frames of its port and,
where it has one, of its VLAN. -/
theorem lifRules_spec {cfg : PwConfig} {c : BitVec 16} {l : PwLogicalIf} {r : DirectRule}
    (h : r ∈ lifRules cfg c l) :
    r.result = { hit := true, action := .puntToHost, logicalIfId := l.id } ∧
      ∃ ref, pwConfigResolvePort cfg l.globalPort = some ref ∧ ref.cardId = c ∧
        ∀ k win base, r.applies k win base = true → onPort ref.localPortId l.vlan k = true := by
  rw [lifRules] at h
  cases href : pwConfigResolvePort cfg l.globalPort with
  | none => simp [href] at h
  | some ref =>
    by_cases hc : c = ref.cardId
    · simp only [href, hc, if_true, List.mem_map] at h
      obtain ⟨⟨test, prio⟩, -, rfl⟩ := h
      refine ⟨rfl, ref, rfl, hc.symm, fun k win base happ => ?_⟩
      exact (Bool.and_eq_true_iff.mp happ).1
    · simp [href, hc] at h

theorem fwdRules_spec {cfg : PwConfig} {c : BitVec 16} {fr : PwForwardRule} {r : DirectRule}
    (h : r ∈ fwdRules cfg c fr) : r.result.action = .forwardPort := by
  rw [fwdRules] at h
  split at h
  · split at h
    · obtain rfl := List.mem_singleton.mp h
      rfl
    · simp at h
  · simp at h

/-- A rule of the card either forwards or belongs to an interface. -/
theorem directRules_cases {cfg : PwConfig} {c : BitVec 16} {r : DirectRule}
    (h : r ∈ directRules cfg c) :
    (∃ l ∈ cfg.logicalIf, r ∈ lifRules cfg c l) ∨ r.result.action = .forwardPort := by
  rcases List.mem_append.mp h with h | h
  · exact .inl (List.mem_flatMap.mp h)
  · obtain ⟨fr, -, hr⟩ := List.mem_flatMap.mp h
    exact .inr (fwdRules_spec hr)

/-- An interface owns the frames its rules take, unless it strays. -/
theorem owns_of_applies {cfg : PwConfig} {c : BitVec 16} {l : PwLogicalIf} {r : DirectRule}
    {k : PwMatchKey} {win : Window} {base : BitVec 16} (hr : r ∈ lifRules cfg c l)
    (happ : r.applies k win base = true) (htag : k.vlanValid = false → k.vlanId = 0)
    (hs : ¬Strays cfg c l k) : OwnsFrame cfg c l k := by
  obtain ⟨-, ref, href, hcard, hport⟩ := lifRules_spec hr
  have hport := hport k win base happ
  simp only [onPort, Bool.and_eq_true, beq_iff_eq, Bool.or_eq_true] at hport
  obtain ⟨hin, hvlan⟩ := hport
  have hfit : ¬(l.vlan = 0 ∧ k.vlanValid = true ∨ 2 ^ 12 ≤ l.vlan.toNat ∨
      2 ^ 4 ≤ ref.localPortId.toNat) := fun h => hs ⟨ref, href, hcard, h⟩
  simp only [not_or, not_and, Bool.not_eq_true, not_le] at hfit
  obtain ⟨hfit₀, hfit₁, hfit₂⟩ := hfit
  refine ⟨ref, href, hcard, ?_, ?_⟩
  · rw [hin, BitVec.toNat_setWidth, Nat.mod_eq_of_lt hfit₂]
  · by_cases h0 : l.vlan = 0
    · rw [if_pos h0]
      exact hfit₀ h0
    · rw [if_neg h0]
      have hid : k.vlanId = l.vlan.setWidth 12 := hvlan.resolve_left h0
      have hnat : k.vlanId.toNat = l.vlan.toNat := by
        rw [hid, BitVec.toNat_setWidth, Nat.mod_eq_of_lt hfit₁]
      refine ⟨?_, hnat⟩
      by_contra htag'
      rw [htag (by simpa using htag')] at hnat
      exact h0 (BitVec.eq_of_toNat_eq hnat.symm)

/-- The rules of the card that apply to a frame, in order. -/
def applying (cfg : PwConfig) (c : BitVec 16) (k : PwMatchKey) (win : Window)
    (base : BitVec 16) : List DirectRule :=
  (directRules cfg c).filter fun r => r.applies k win base

/-- A frame is isolated exactly when the rule that decides does not stray. -/
theorem isolated_iff_winner {cfg : PwConfig} (hv : ValidConfig cfg)
    (hlifs : cfg.logicalIf.Pairwise fun l m => (l.globalPort, l.vlan) ≠ (m.globalPort, m.vlan))
    {c : BitVec 16} {k : PwMatchKey} {win : Window} {base : BitVec 16}
    (htag : k.vlanValid = false → k.vlanId = 0) :
    Isolated cfg c k (directResult cfg c k win base) ↔
      ∀ w, firstBest (fun r : DirectRule => r.priority.toNat) (applying cfg c k win base) = some w →
        ¬StrayRule cfg c k w := by
  have hres : directResult cfg c k win base =
      ((firstBest (fun r : DirectRule => r.priority.toNat)
        (applying cfg c k win base)).map DirectRule.result).getD {} := rfl
  rw [hres]
  cases hw : firstBest (fun r : DirectRule => r.priority.toNat) (applying cfg c k win base) with
  | none => simp [Isolated]
  | some w =>
    obtain ⟨hmem, happ⟩ := List.mem_filter.mp (mem_of_firstBest hw)
    simp only [Option.map_some, Option.getD_some, Option.some.injEq, forall_eq']
    constructor
    · rintro hiso ⟨l, hl, hrl, hs⟩
      obtain ⟨hr, -⟩ := lifRules_spec hrl
      rw [hr] at hiso
      obtain ⟨m, hm, hid, hown, -⟩ := hiso rfl rfl
      obtain rfl : m = l := eq_of_pairwise_key_ne PwLogicalIf.id
        (hv.lifs.imp fun h => h.1) hm hl hid
      exact not_owns_of_strays hs hown
    · intro hns _ hpunt
      rcases directRules_cases hmem with ⟨l, hl, hrl⟩ | hfwd
      · have hown := owns_of_applies hrl happ htag fun hs => hns ⟨l, hl, hrl, hs⟩
        refine ⟨l, hl, by rw [(lifRules_spec hrl).1], hown, fun m hm hom => ?_⟩
        exact eq_of_owns hv hlifs hl hm hown hom
      · rw [hfwd] at hpunt
        cases hpunt

/-- **When interfaces are isolated.**  Whatever frame arrives, it is isolated
exactly when every rule of a straying interface that applies to it comes second
to an applying rule that does not stray. -/
theorem punt_isolated_iff {cfg : PwConfig} {p : PwProgram} (h : pwFlowCompile cfg = .ok p)
    (hlifs : cfg.logicalIf.Pairwise fun l m => (l.globalPort, l.vlan) ≠ (m.globalPort, m.vlan))
    {cp : PwCardProgram} (hcp : cp ∈ p.perCard) (old : Window) (f : RxFrame) :
    let o := parseFrame old f
    Isolated cfg cp.cardId o.key (cp.fieldTables.result o.key o.window o.base) ↔
      ∀ pre r post, applying cfg cp.cardId o.key o.window o.base = pre ++ r :: post →
        StrayRule cfg cp.cardId o.key r →
        ∃ s, ¬StrayRule cfg cp.cardId o.key s ∧
          ((s ∈ pre ∧ s.priority.toNat ≤ r.priority.toNat) ∨
            (s ∈ post ∧ s.priority.toNat < r.priority.toNat)) := by
  intro o
  obtain ⟨hv, -⟩ := pwFlowCompile_spec h
  have htag : o.key.vlanValid = false → o.key.vlanId = 0 := vlanId_of_untagged
  rw [result_eq_directResult (rulesOk_of_compile h hcp), isolated_iff_winner hv hlifs htag,
    forall_firstBest_iff]
  simp only [not_not]

/-- An untagged and a tagged interface on one port, the untagged one first. -/
def sampleVlanConfig : PwConfig :=
  { cards := [sampleCard]
    logicalIf :=
      [{ id := 1, name := "p0", globalPort := 0, punt := { arp := true } },
       { id := 2, name := "p0.100", globalPort := 0, vlan := 100, punt := { arp := true } }] }

/-- An ARP frame on port 0, with the bytes between the MAC addresses and the
EtherType as given. -/
def sampleArpFrame (tag : List Byte) : RxFrame :=
  { port := 0, bytes := List.replicate 12 0xFF ++ tag ++ [0x08, 0x06] ++ List.replicate 46 0 }

theorem punt_isolated_untagged :
    ∃ p cp, pwFlowCompile sampleVlanConfig = .ok p ∧ cp ∈ p.perCard ∧
      Isolated sampleVlanConfig cp.cardId (parseFrame (fun _ => 0) (sampleArpFrame [])).key
        (cp.fieldTables.result (parseFrame (fun _ => 0) (sampleArpFrame [])).key
          (parseFrame (fun _ => 0) (sampleArpFrame [])).window
          (parseFrame (fun _ => 0) (sampleArpFrame [])).base) := by
  obtain ⟨p, hp, hcheck⟩ := exists_of_okAnd
    (show okAnd (pwFlowCompile sampleVlanConfig)
      (fun p => p.perCard.any fun cp => cp.cardId == 0) = true by decide +kernel)
  obtain ⟨cp, hcp, -⟩ := List.any_eq_true.mp hcheck
  refine ⟨p, cp, hp, hcp, (punt_isolated_iff hp (by decide) hcp _ _).mpr ?_⟩
  rintro pre r post - ⟨l, hl, -, ref, href, -, hstray⟩
  have hnot : (parseFrame (fun _ => 0) (sampleArpFrame [])).key.vlanValid = false := by
    decide +kernel
  have hvlan : ∀ l ∈ sampleVlanConfig.logicalIf, l.vlan.toNat < 2 ^ 12 := by decide
  have hgp : ∀ l ∈ sampleVlanConfig.logicalIf,
      pwConfigResolvePort sampleVlanConfig l.globalPort = some ⟨0, 0, 0⟩ := by decide
  obtain rfl := Option.some.inj (href.symm.trans (hgp l hl))
  have := hvlan l hl
  rw [hnot] at hstray
  simp at hstray
  omega

/-- **A tagged frame strays.**  The frame carries VLAN 100, and the interface of
VLAN 100 punts it, but it reaches the untagged interface listed before. -/
theorem tagged_frame_strays :
    ∃ p cp, pwFlowCompile sampleVlanConfig = .ok p ∧ cp ∈ p.perCard ∧
      (sampleVlanConfig.logicalIf.Pairwise fun l m =>
        (l.globalPort, l.vlan) ≠ (m.globalPort, m.vlan)) ∧
      let o := parseFrame (fun _ => 0) (sampleArpFrame [0x81, 0x00, 0x00, 0x64])
      o.keyValid = true ∧ o.key.vlanValid = true ∧ o.key.vlanId = 100 ∧
      cp.fieldTables.result o.key o.window o.base =
        { hit := true, action := .puntToHost, logicalIfId := 1 } ∧
      ¬Isolated sampleVlanConfig cp.cardId o.key
        (cp.fieldTables.result o.key o.window o.base) := by
  obtain ⟨p, hp, hcheck⟩ := exists_of_okAnd
    (show okAnd (pwFlowCompile sampleVlanConfig)
      (fun p => p.perCard.any fun cp =>
        let o := parseFrame (fun _ => 0) (sampleArpFrame [0x81, 0x00, 0x00, 0x64])
        decide (cp.fieldTables.result o.key o.window o.base =
          { hit := true, action := .puntToHost, logicalIfId := 1 })) = true by decide +kernel)
  obtain ⟨cp, hcp, hres⟩ := List.any_eq_true.mp hcheck
  have hres := of_decide_eq_true hres
  refine ⟨p, cp, hp, hcp, by decide, by decide +kernel, by decide +kernel, by decide +kernel,
    hres, fun hiso => ?_⟩
  rw [hres] at hiso
  obtain ⟨l, hl, hid, ⟨ref, -, -, -, hvlan⟩, -⟩ := hiso rfl rfl
  have huntagged : ∀ l ∈ sampleVlanConfig.logicalIf, l.id = 1 → l.vlan = 0 := by decide
  rw [if_pos (huntagged l hl hid)] at hvlan
  exact absurd hvlan (by decide +kernel)

end PacketWyrm
