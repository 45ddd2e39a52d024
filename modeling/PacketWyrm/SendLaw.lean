import PacketWyrm.FrameLengths
import PacketWyrm.TokenLaw

/-!
# Which flows can transmit

The compiler turns the rate of a flow into tokens per cycle, rounded down to a multiple of
`2 ^ (-16)` bytes, and its burst into the capacity of its bucket.  The capacity always covers
the cost of a frame.  A bucket that gets any tokens at all holds that cost after finitely many
cycles, but a rate below 19074 bits per second is rounded to nothing.

## Main definitions

* `offeredBps` — the rate that a flow asks for.
* `CanSend` — a descriptor with which a slot becomes eligible again and again.

## Main results

* `exists_iterate_accrue` — a bucket fills.
* `cost_le_cap` — the capacity covers the cost of every frame.
* `can_send_iff` — which compiled flows can transmit.
-/

namespace PacketWyrm

open Lib

/-! ## Buckets fill -/

/-- A slot with this descriptor can send: its bucket gets tokens, it has room for what a frame
costs, and from any count of tokens it comes to hold as much.  A frame costs the same at every
length of the sweep. -/
structure CanSend (d : PwFlowSched) : Prop where
  rate : d.tokensFp ≠ 0
  room : d.cost ≤ d.cap
  fills : ∀ tokens, ∃ n, d.cost ≤ (fun t => accrue t d.tokensFp d.cap)^[n] tokens

/-- After `n` cycles a bucket has `n` times the rate, or is full. -/
theorem le_iterate_accrue (rate cap tokens : BitVec 32) (n : ℕ) :
    min (n * rate.toNat) cap.toNat ≤
      ((fun t => accrue t rate cap)^[n] tokens).toNat := by
  induction n with
  | zero => simp
  | succ n ih =>
    rw [Function.iterate_succ_apply', toNat_accrue, Nat.succ_mul]
    omega

/-- **A bucket that gets tokens fills.** -/
theorem exists_iterate_accrue {rate cap cost : BitVec 32} (hrate : rate ≠ 0) (hroom : cost ≤ cap)
    (tokens : BitVec 32) : ∃ n, cost ≤ (fun t => accrue t rate cap)^[n] tokens := by
  refine ⟨cost.toNat, ?_⟩
  have hpos : 0 < rate.toNat := by
    rw [Nat.pos_iff_ne_zero]
    exact fun h => hrate (BitVec.eq_of_toNat_eq h)
  have hle : cost.toNat ≤ cost.toNat * rate.toNat := Nat.le_mul_of_pos_right _ hpos
  have hfill := le_iterate_accrue rate cap tokens cost.toNat
  rw [BitVec.le_def] at hroom ⊢
  omega

theorem canSend_iff {d : PwFlowSched} (hroom : d.cost ≤ d.cap) : CanSend d ↔ d.tokensFp ≠ 0 :=
  ⟨CanSend.rate, fun h => ⟨h, hroom, exists_iterate_accrue h hroom⟩⟩

/-! ## Rates and bursts -/

/-- The rate that a flow asks for, in bits per second at its shortest frame. -/
def offeredBps (f : PwFlow) : ℕ :=
  if f.traffic.rateBps ≠ 0 then f.traffic.rateBps.toNat
  else f.traffic.ratePps.toNat * max f.traffic.lenLo.toNat (pwFlowMinLegalFrame f) * 8

theorem effRateBps_eq (f : PwFlow) : effRateBps f = min (offeredBps f) (2 ^ 64 - 1) := by
  have hbps : f.traffic.rateBps.toNat < 2 ^ 64 := f.traffic.rateBps.isLt
  have hlen : (if f.traffic.frameLenFixedSet then f.traffic.frameLenFixed.toNat
      else f.traffic.frameLenMin.toNat) = f.traffic.lenLo.toNat := by
    rw [PwFlowTraffic.lenLo]
    split <;> rfl
  simp only [effRateBps, offeredBps, hlen]
  by_cases hb : f.traffic.rateBps = 0
  · by_cases hp : f.traffic.ratePps = 0
    · simp [hb, hp]
    · rw [if_pos ⟨hb, hp⟩, if_neg (by simp [hb])]
  · rw [if_neg fun h => hb h.1, if_pos hb]
    omega

/-- **A rate is rounded to nothing below 19074 bits per second.** -/
theorem tokensPerTickFp_ne_zero_iff (f : PwFlow) :
    tokensPerTickFp f ≠ 0 ↔ 19074 ≤ offeredBps f := by
  have hnat : (tokensPerTickFp f).toNat =
      min (min (offeredBps f) (2 ^ 64 - 1) * 65536 / 1250000000) 0xFFFFFFFF := by
    rw [tokensPerTickFp, effRateBps_eq, BitVec.toNat_ofNat, dataPlaneClockHz]
    omega
  have hzero : tokensPerTickFp f ≠ 0 ↔ (tokensPerTickFp f).toNat ≠ 0 :=
    not_congr ⟨fun h => by rw [h]; rfl, fun h => BitVec.eq_of_toNat_eq h⟩
  rw [hzero, hnat]
  omega

/-- The bucket of a flow holds a frame of any length of the sweep. -/
theorem le_burstBytes (f : PwFlow) (hi : BitVec 16) (hhi : hi.toNat ≤ 1518)
    (hmin : pwFlowMinLegalFrame f ≤ 65535) :
    max hi.toNat (pwFlowMinLegalFrame f) ≤ (burstBytes f hi).toNat := by
  simp only [burstBytes]
  have hflen : hi.toNat ≤ if hi = 0 then 1518 else hi.toNat := by
    split <;> omega
  have hflen' : (if hi = 0 then 1518 else hi.toNat) ≤ 1518 := by
    split <;> omega
  generalize (if hi = 0 then 1518 else hi.toNat) = flen at hflen hflen'
  generalize (if f.traffic.burstSize = 0 then 1 else f.traffic.burstSize.toNat) = bsz
  generalize hcap : bsz * max flen (pwFlowMinLegalFrame f) = cap
  rw [BitVec.toNat_ofNat]
  omega

/-! ## Compiled flows -/

section Row

variable {f : PwFlow} (hf : f.Parsed)
  (hraw : f.traffic.frameTemplate ≠ .test → f.encap.present = false)
  (egress : BitVec 8) (lfid : BitVec 32) (same : Bool)

theorem tokensFp_txRow : (txRow f egress lfid same).decoded.tokensFp = tokensPerTickFp f := by
  simp only [txRow, PwfpgaFlowConfig.withModifiers, PwfpgaFlowConfig.withLengths_eq,
    PwfpgaFlowConfig.withInnerIp_eq, PwfpgaFlowConfig.withEncap_eq, PwfpgaFlowConfig.decoded]

theorem burst_txRow :
    (txRow f egress lfid same).decoded.burst = burstBytes f f.traffic.lenHi := by
  simp only [txRow, PwfpgaFlowConfig.withModifiers, PwfpgaFlowConfig.withLengths_eq,
    PwfpgaFlowConfig.withInnerIp_eq, PwfpgaFlowConfig.withEncap_eq, PwfpgaFlowConfig.decoded]

include hf hraw

/-- **The capacity covers the cost of every frame.** -/
theorem cost_le_cap : (schedOf (txRow f egress lfid same).decoded).cost ≤
    (schedOf (txRow f egress lfid same).decoded).cap := by
  have hr := rowOf_txRow hf egress lfid same
  have hburst := burst_txRow (f := f) egress lfid same
  generalize (txRow f egress lfid same).decoded = r at hr hburst ⊢
  have hmin : pwFlowMinLegalFrame f ≤ 166 := by
    have hovh := pwFrameBytes_le r
    have hfloor := payFloor_toNat_le r.frameTemplate
    rw [← hr.minLen_eq hraw hf, PwFlowRow.minLen]
    omega
  have hle := le_burstBytes f f.traffic.lenHi hf.lenHi (by omega)
  have hlo := hf.lenLe
  have hcost : (schedOf r).cost =
      BitVec.ofNat 16 (max f.traffic.lenLo.toNat (pwFlowMinLegalFrame f)) ++ 0#16 := by
    simp only [schedOf, hr.frameBytes_eq hf hraw, hr.frameLenMin]
    congr 2
    split <;> omega
  have hcap : (schedOf r).cap = burstBytes f f.traffic.lenHi ++ 0#16 := by rw [← hburst]; rfl
  rw [hcost, hcap, BitVec.le_def, BitVec.toNat_append, BitVec.toNat_append, BitVec.toNat_ofNat,
    Nat.shiftLeft_eq, Nat.shiftLeft_eq]
  simp only [BitVec.toNat_ofNat, Nat.zero_mod, Nat.or_zero]
  omega

/-- A row can send when its flow asks for enough. -/
theorem canSend_txRow_iff :
    CanSend (schedOf (txRow f egress lfid same).decoded) ↔ 19074 ≤ offeredBps f := by
  rw [canSend_iff (cost_le_cap hf hraw egress lfid same), ← tokensPerTickFp_ne_zero_iff,
    ← tokensFp_txRow egress lfid same]
  rfl

end Row

/-- **Which flows can transmit.**  Every flow of a parsed configuration that compiles can
transmit exactly when it asks for at least 19074 bits per second. -/
theorem can_send_iff {cfg : PwConfig} {p : PwProgram} (hcfg : cfg.Parsed)
    (h : pwFlowCompile cfg = .ok p) {i : ℕ} {f : PwFlow} (hf : cfg.flows[i]? = some f) :
    ∃ m row, p.flowMeta[i]? = some m ∧ p.txRowOf m = some row ∧
      (CanSend (schedOf (pwDecodeFlowRow row.byte)) ↔ 19074 ≤ offeredBps f) := by
  obtain ⟨m, egress, same, hm, hrow⟩ := exists_txRow_of_compile h hf
  have hmem : f ∈ cfg.flows := List.mem_of_getElem? hf
  have hraw : f.traffic.frameTemplate ≠ .test → f.encap.present = false :=
    fun ht => (((pwFlowCompile_spec h).1.flow f hmem).raw ht).2.2
  refine ⟨m, _, hm, hrow, ?_⟩
  rw [PwfpgaFlowConfig.decode_byte]
  exact canSend_txRow_iff (hcfg f hmem) hraw egress m.txLocalFlowId same

theorem can_send_sample :
    ∃ p m row, pwFlowCompile sampleHeaderConfig = .ok p ∧ p.flowMeta[0]? = some m ∧
      p.txRowOf m = some row ∧ CanSend (schedOf (pwDecodeFlowRow row.byte)) := by
  obtain ⟨p, hp, -⟩ := exists_of_okAnd
    (show okAnd (pwFlowCompile sampleHeaderConfig) (fun _ => true) = true by decide +kernel)
  obtain ⟨m, row, hm, hrow, hsend⟩ := can_send_iff parsed_sampleHeaderConfig hp
    (i := 0) (f := sampleHeaderFlow 1 0x0A000002) rfl
  exact ⟨p, m, row, hp, hm, hrow, hsend.mpr (by decide)⟩

/-- A sample flow of 10 kilobits per second. -/
def sampleSlowFlow : PwFlow :=
  { sampleHeaderFlow 1 0x0A000002 with
    traffic := { (sampleHeaderFlow 1 0x0A000002).traffic with rateBps := 10000, ratePps := 0 } }

/-- A configuration with that flow alone. -/
def sampleSlowConfig : PwConfig := { cards := [sampleCard], flows := [sampleSlowFlow] }

/-- **A slow flow never sends.**  The flow is accepted, and its bucket stays empty. -/
theorem slow_flow_never_sends :
    sampleSlowConfig.Parsed ∧ sampleSlowFlow.traffic.rateBps ≠ 0 ∧
      ∃ p m row, pwFlowCompile sampleSlowConfig = .ok p ∧ p.flowMeta[0]? = some m ∧
        p.txRowOf m = some row ∧ (schedOf (pwDecodeFlowRow row.byte)).tokensFp = 0 ∧
        ¬ CanSend (schedOf (pwDecodeFlowRow row.byte)) := by
  have hflow : sampleSlowFlow.Parsed := by
    constructor <;>
      simp [sampleSlowFlow, sampleHeaderFlow, PwFlowTraffic.lenLo, PwFlowTraffic.lenHi]
  have hparsed : sampleSlowConfig.Parsed := hflow.singleton rfl
  obtain ⟨p, hp, -⟩ := exists_of_okAnd
    (show okAnd (pwFlowCompile sampleSlowConfig) (fun _ => true) = true by decide +kernel)
  obtain ⟨m, egress, same, hm, hrow⟩ := exists_txRow_of_compile hp
    (i := 0) (f := sampleSlowFlow) rfl
  refine ⟨hparsed, by decide, p, m, _, hp, hm, hrow, ?_⟩
  rw [PwfpgaFlowConfig.decode_byte]
  constructor
  · exact (tokensFp_txRow egress m.txLocalFlowId same).trans (by decide)
  · rw [canSend_txRow_iff hflow (fun _ => rfl) egress m.txLocalFlowId same]
    decide

end PacketWyrm
