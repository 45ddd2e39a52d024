import PacketWyrm.RxSlots
import PacketWyrm.RxChecker

/-!
# Counts and the receive port

A flow is received on one port of its receive card.  The two ports of a card
classify by the same tables, and neither the flow-id map nor the hash table
looks at the ingress port: a frame of the flow that arrives on the other port is
counted there, and the merged readout of the flow's slot adds it in.

## Main definitions

* `CountsOnlyPort` — the readout of a slot is that of one port, and a frame on
  the other port changes nothing of it.
* `FlowOn` — a measured flow with its record, its receive card and port.

## Main results

* `slotOf_eq_some_iff` — which frames a card counts for a flow.
* `counts_only_port_iff` — exactly when the readout is that of the receive port.
* `other_port_counted` — a misdelivered frame that is counted.
-/

namespace PacketWyrm

open Lib

variable {lfw : ℕ}

/-- In the run `l` the readout of a slot is at any time that of the checker of
`port`, and a frame on the other port leaves it alone. -/
def CountsOnlyPort (P : RxProgram lfw) (slot : ℕ) (port : Fin 2) (l : List RxArrival) : Prop :=
  (∀ pre a post, l = pre ++ a :: post → a.port ≠ port →
    ((CardRx.init.run P (pre ++ [a])).merged slot) = (CardRx.init.run P pre).merged slot) ∧
  ∀ pre post, l = pre ++ post →
    (CardRx.init.run P pre).merged slot = ((CardRx.init.run P pre).recs port slot).readout

/-- A measured flow of a compiled program: its record, its receive card, and the
port of the card that its `rx_global_port` names. -/
structure FlowOn (cfg : PwConfig) (p : PwProgram) (x : PwFlow × PwFlowMeta) (cp : PwCardProgram)
    (port : Fin 2) : Prop where
  mem : x ∈ cfg.flows.zip p.flowMeta
  measured : x.1.background = false
  card : cp ∈ p.perCard
  rx : ∃ ref, pwConfigResolvePort cfg x.1.rxGlobalPort = some ref ∧
    ref.cardId = cp.cardId ∧ ref.localPortId.toNat = port

section Flow

variable {cfg : PwConfig} {p : PwProgram} {x : PwFlow × PwFlowMeta} {cp : PwCardProgram}
  {port : Fin 2} (hp : pwFlowCompile cfg = .ok p) (hx : FlowOn cfg p x cp port)

include hp hx in
/-- The flow is among those its receive card receives. -/
theorem FlowOn.mem_received : x ∈ received cfg.flows p.flowMeta cp.cardId := by
  obtain ⟨-, -, mid, hflows, hmeta, -⟩ := pwFlowCompile_spec hp
  refine PacketWyrm.mem_received.mpr ⟨hx.mem, hx.measured, ?_⟩
  obtain ⟨ref, href, hcard, -⟩ := hx.rx
  have hmem := hx.mem
  rw [hmeta] at hmem
  obtain ⟨ref', href', hcard'⟩ := rxCardId_flows hflows x hmem
  obtain rfl := Option.some.inj (href.symm.trans href')
  rw [← hcard', hcard]

/-- The programming of a card by a program, with its latency corrections. -/
def rxProgram (lfw : ℕ) (cp : PwCardProgram) (latCorr : ℕ → BitVec 64) (numFlows : ℕ) :
    RxProgram lfw :=
  { tables := cp.tables lfw, latCorr, numFlows }

variable {numFlows : ℕ} (hrows : cp.flowRows.length ≤ numFlows) (hwidth : numFlows ≤ 2 ^ lfw)

include hp hx hrows hwidth in
/-- **Which frames a card counts for a flow**: on either port, those that parse
to a key of the flow. -/
theorem slotOf_eq_some_iff (latCorr : ℕ → BitVec 64) (old : Window) (f : RxFrame) :
    (rxProgram lfw cp latCorr numFlows).slotOf (parseFrame old f) =
        some x.2.rxLocalFlowId.toNat ↔
      (parseFrame (fun _ => 0) f).keyValid = true ∧
        OwnKey (received cfg.flows p.flowMeta cp.cardId) (packWords cp.hashMask) x.1
          (parseFrame (fun _ => 0) f).key := by
  have H := compiledRx_of_compile hp hx.card
  have hrules := rulesOk_of_compile hp hx.card
  have hmem := hx.mem_received hp
  have hslot := H.slots x hmem
  rw [RxProgram.slotOf_eq_some, parseFrame_congr old (fun _ => 0) f,
    ← testRx_iff_ownKey H hrules (hrows.trans hwidth) hmem _ (capture old f.bytes)
      (parseFrame (fun _ => 0) f).base]
  constructor
  · intro h
    obtain ⟨hkv, hhit, hact, hlfid, -⟩ := h
    exact ⟨hkv, hhit, hact, BitVec.eq_of_toNat_eq hlfid⟩
  · intro h
    obtain ⟨hkv, hhit, hact, hlfid⟩ := h
    exact ⟨hkv, hhit, hact, congrArg BitVec.toNat hlfid, hslot.trans_le hrows⟩

/-- **The readout is that of the receive port exactly when no frame of the flow
arrives on the other port.** -/
theorem counts_only_port_iff (hp : pwFlowCompile cfg = .ok p) (hx : FlowOn cfg p x cp port)
    (hrows : cp.flowRows.length ≤ numFlows) (hwidth : numFlows ≤ 2 ^ lfw)
    (latCorr : ℕ → BitVec 64) (l : List RxArrival) :
    CountsOnlyPort (rxProgram lfw cp latCorr numFlows) x.2.rxLocalFlowId.toNat port l ↔
      ∀ a ∈ l, a.port ≠ port → (parseFrame (fun _ => 0) a.frame).keyValid = true →
        ¬OwnKey (received cfg.flows p.flowMeta cp.cardId) (packWords cp.hashMask) x.1
          (parseFrame (fun _ => 0) a.frame).key := by
  have hslot := slotOf_eq_some_iff hp hx hrows hwidth latCorr
  constructor
  · intro h a ha hport hkv hown
    obtain ⟨pre, post, rfl⟩ := List.append_of_mem ha
    have hsame := h.1 pre a post rfl hport
    rw [CardRx.run_concat] at hsame
    have hcount := CardRx.rx_merged_frame (rxProgram lfw cp latCorr numFlows)
      (CardRx.init.run (rxProgram lfw cp latCorr numFlows) pre) a
      ((hslot _ _).mpr ⟨hkv, hown⟩)
    rw [hsame] at hcount
    simp at hcount
  · intro h
    have hno : ∀ a ∈ l, a.port ≠ port → ∀ old, (rxProgram lfw cp latCorr numFlows).slotOf
        (parseFrame old a.frame) ≠ some x.2.rxLocalFlowId.toNat := by
      intro a ha hport old hs
      obtain ⟨hkv, hown⟩ := (hslot old a.frame).mp hs
      exact h a ha hport hkv hown
    refine ⟨?_, ?_⟩
    · intro pre a post hl hport
      rw [CardRx.run_concat]
      exact CardRx.merged_frame_of_ne _ _ _ (hno a (by simp [hl]) hport _)
    · intro pre post hl
      -- the other port's record is still blank
      have hblank : ∀ q, q ≠ port →
          (CardRx.init.run (rxProgram lfw cp latCorr numFlows) pre).recs q
            x.2.rxLocalFlowId.toNat = {} := by
        intro q hq
        rw [CardRx.recs_run_of_ne]
        · rfl
        · intro a ha hport old
          exact hno a (by simp [hl, ha]) (hport ▸ hq) old
      have hother : (1 - port : Fin 2) ≠ port := by omega
      rw [CardRx.merged]
      exact merged_of_blank hother (hblank _ hother)

end Flow

/-! ## A frame on the wrong port -/

/-- A frame with the headers of the first sample flow, on the given port. -/
def sampleArrival (port : Fin 2) : RxArrival :=
  { port, wireTs := 0
    bytes :=
      [0x02, 0x00, 0x00, 0x00, 0x00, 0x02, 0x02, 0x00, 0x00, 0x00, 0x00, 0x01, 0x08, 0x00,
        0x45, 0x00, 0x00, 0x2E, 0x00, 0x00, 0x00, 0x00, 0x40, 0x11, 0x00, 0x00,
        0x0A, 0x00, 0x00, 0x01, 0x0A, 0x00, 0x00, 0x02,
        0x0F, 0xA0, 0x13, 0x88, 0x00, 0x1A, 0x00, 0x00] ++ List.replicate 18 0 }

/-- The first sample flow and its card, as compiled, with what `check` says of
them. -/
theorem exists_sampleFlowOn (check : PwFlow × PwFlowMeta → PwCardProgram → Bool)
    (h : okAnd (pwFlowCompile sampleHeaderConfig) (fun p =>
      p.perCard.any fun cp => cp.cardId == 0 && decide (cp.flowRows.length ≤ 32) &&
        (sampleHeaderConfig.flows.zip p.flowMeta).any fun x =>
          x.1 == sampleHeaderFlow 1 0x0A000002 && check x cp) = true) :
    ∃ p x cp, pwFlowCompile sampleHeaderConfig = .ok p ∧ FlowOn sampleHeaderConfig p x cp 1 ∧
      cp.flowRows.length ≤ 32 ∧ check x cp = true := by
  obtain ⟨p, hp, hcheck⟩ := exists_of_okAnd h
  obtain ⟨cp, hcp, hcheck⟩ := List.any_eq_true.mp hcheck
  simp only [Bool.and_eq_true, beq_iff_eq, decide_eq_true_eq, List.any_eq_true] at hcheck
  obtain ⟨⟨hid, hrows⟩, x, hx, hflow, hcheck⟩ := hcheck
  refine ⟨p, x, cp, hp, ⟨hx, by rw [hflow]; rfl, hcp, ?_⟩, hrows, hcheck⟩
  rw [hflow, hid]
  exact ⟨{ cardId := 0, localPortId := 1, globalPortId := 1 }, rfl, rfl, rfl⟩

theorem counts_only_port_sample :
    ∃ p x cp, pwFlowCompile sampleHeaderConfig = .ok p ∧ FlowOn sampleHeaderConfig p x cp 1 ∧
      CountsOnlyPort (rxProgram 5 cp (fun _ => 0) 32) x.2.rxLocalFlowId.toNat 1
        [sampleArrival 1, sampleArrival 1] := by
  obtain ⟨p, x, cp, hp, hx, hrows, -⟩ := exists_sampleFlowOn (fun _ _ => true)
    (by decide +kernel)
  refine ⟨p, x, cp, hp, hx, (counts_only_port_iff hp hx hrows (by decide) _ _).mpr ?_⟩
  intro a ha hport
  simp only [List.mem_cons, List.not_mem_nil, or_false, or_self] at ha
  rw [ha] at hport
  exact absurd rfl hport

/-- **A misdelivered frame is counted.**  The flow is received on port 1, and a
frame with its headers on port 0 shows in its readout. -/
theorem other_port_counted :
    ∃ p x cp, pwFlowCompile sampleHeaderConfig = .ok p ∧ FlowOn sampleHeaderConfig p x cp 1 ∧
      cp.flowRows.length ≤ 32 ∧
      ((CardRx.init.run (rxProgram 5 cp (fun _ => 0) 32) [sampleArrival 0]).merged
        x.2.rxLocalFlowId.toNat).rx = 1 ∧
      ¬CountsOnlyPort (rxProgram 5 cp (fun _ => 0) 32) x.2.rxLocalFlowId.toNat 1
        [sampleArrival 0] := by
  obtain ⟨p, x, cp, hp, hx, hrows, hcount⟩ := exists_sampleFlowOn
    (fun x cp => ((CardRx.init.run (rxProgram 5 cp (fun _ => 0) 32)
      [sampleArrival 0]).merged x.2.rxLocalFlowId.toNat).rx == 1) (by decide +kernel)
  rw [beq_iff_eq] at hcount
  refine ⟨p, x, cp, hp, hx, hrows, hcount, ?_⟩
  intro h
  have hsame := h.1 [] (sampleArrival 0) [] rfl (by decide)
  rw [List.nil_append] at hsame
  rw [hsame, CardRx.run_nil, CardRx.merged, rx_mergePorts] at hcount
  exact absurd (show (0 : BitVec 64) + 0 = 1 from hcount) (by decide)

end PacketWyrm
