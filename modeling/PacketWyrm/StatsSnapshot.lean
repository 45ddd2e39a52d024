import PacketWyrm.CheckerBram
import PacketWyrm.FlowStats
import PacketWyrm.Lib.Bits

/-!
# The statistics snapshot

`pw_stats_snapshot` with what feeds it.  On a trigger it walks over the flows, one address a
cycle; the checkers of both ports answer one cycle later, the merge over the ports and the
transmit counters of the slot stand in registers one cycle after that, and there the walk
takes them into the row of the flow.  The host reads the rows word by word as
`struct pw_flow_stats`.

## Main definitions

* `StatsSnapshot` — the walk and the shadow rows, `rdData` — the read multiplexer.
* `SnapSys` — the snapshot behind the checkers and the merge.
* `barFlowStatsRead` — the host's read of a slot.

## Main results

* `exists_walk` — a walk that goes on began at the last trigger.
* `SnapSys.row_of_walk` — what the walk takes for a flow.
* `snapshot_rows_whole` — when a walk ends every row is of one flow and one cycle.
-/

namespace PacketWyrm

open Lib

/-! ## Rows -/

/-- `PORT_STRIDE` and `FLOW_STRIDE`. -/
def snapStride : ℕ := 128

/-- `FLOW_BASE`. -/
def snapFlowBase : ℕ := 256

/-- A shadow row. -/
abbrev SnapRow := BitVec (128 * 8)

/-- `put_u64`. -/
def putU64 (row : SnapRow) (off : ℕ) (v : BitVec 64) : SnapRow := putSlice row (off * 8) v

/-- `put_u32` and `put_u32_port`. -/
def putU32 (row : SnapRow) (off : ℕ) (v : BitVec 32) : SnapRow := putSlice row (off * 8) v

/-- The counters of a port. -/
structure PortCounters where
  rxFrames : BitVec 48 := 0
  rxBytes : BitVec 48 := 0
  rxFcsErr : BitVec 48 := 0
  portDrops : BitVec 32 := 0
  txFrames : BitVec 48 := 0
  txBytes : BitVec 48 := 0
  linkUpCnt : BitVec 32 := 0
  linkDownCnt : BitVec 32 := 0
  blockLockLoss : BitVec 32 := 0
  rxUnmatched : BitVec 32 := 0
  lastUnmatchedCtx : BitVec 32 := 0
  lastUnmatchedFid : BitVec 32 := 0

/-- The row of a port. -/
def portRow (c : PortCounters) : SnapRow :=
  let pr : SnapRow := 0
  let pr := putU64 pr 0 (c.rxFrames.setWidth 64)
  let pr := putU64 pr 8 (c.rxBytes.setWidth 64)
  let pr := putU64 pr 16 (c.rxFcsErr.setWidth 64)
  let pr := putU32 pr 24 c.portDrops
  let pr := putU64 pr 48 (c.txFrames.setWidth 64)
  let pr := putU64 pr 56 (c.txBytes.setWidth 64)
  let pr := putU32 pr 64 c.linkUpCnt
  let pr := putU32 pr 68 c.linkDownCnt
  let pr := putU32 pr 72 c.blockLockLoss
  let pr := putU32 pr 76 c.rxUnmatched
  let pr := putU32 pr 80 c.lastUnmatchedCtx
  putU32 pr 84 c.lastUnmatchedFid

/-- What the snapshot takes for a flow: the merged record and the transmit counters. -/
structure FlowRecord where
  rx : FlowReadout := {}
  tx : BitVec 48 := 0
  txBytes : BitVec 64 := 0

/-- The row of a flow. -/
def flowRow (r : FlowRecord) : SnapRow :=
  let fr : SnapRow := 0
  let fr := putU64 fr 0 (r.tx.setWidth 64)
  let fr := putU64 fr 8 r.txBytes
  let fr := putU64 fr 16 r.rx.rx
  let fr := putU64 fr 24 r.rx.rxBytes
  let fr := putU64 fr 32 r.rx.lastSeq
  let fr := putU64 fr 48 r.rx.lost
  let fr := putU64 fr 56 r.rx.dup
  let fr := putU64 fr 64 r.rx.ooo
  let fr := putU32 fr 80 (r.rx.minLat.setWidth 32)
  let fr := putU32 fr 84 (r.rx.maxLat.setWidth 32)
  let fr := putU64 fr 88 r.rx.sumLat
  let fr := putU64 fr 96 r.rx.samples
  let fr := putU32 fr 104 r.rx.jitMin
  let fr := putU32 fr 108 r.rx.jitMax
  putU64 fr 112 r.rx.jitSum

/-! ## The walk -/

/-- `FLOW_RD_LAT`. -/
def flowRdLat : ℕ := 2

/-- The registers of the snapshot. -/
structure StatsSnapshot where
  walking : Bool := false
  wcnt : BitVec 16 := 0
  shadowPort : ℕ → SnapRow := fun _ => 0
  shadowFlow : ℕ → SnapRow := fun _ => 0

namespace StatsSnapshot

variable (numFlows : ℕ) (s : StatsSnapshot)

/-- `flow_rd_addr_o`. -/
def flowRdAddr (aw : ℕ) : BitVec aw :=
  if s.walking && decide (s.wcnt.toNat < numFlows) then s.wcnt.setWidth aw else 0

/-- One clock edge, with the record that arrives. -/
def step (trigger : Bool) (ports : ℕ → PortCounters) (r : FlowRecord) : StatsSnapshot :=
  if trigger then
    { s with walking := true, wcnt := 0, shadowPort := fun p => portRow (ports p) }
  else if s.walking then
    { s with
      shadowFlow :=
        if flowRdLat ≤ s.wcnt.toNat then
          Function.update s.shadowFlow (s.wcnt.toNat - flowRdLat) (flowRow r)
        else s.shadowFlow
      walking := decide (s.wcnt ≠ BitVec.ofNat 16 (numFlows - 1 + flowRdLat))
      wcnt := s.wcnt + 1 }
  else s

/-- The read multiplexer. -/
def rdData (numPorts : ℕ) (rdAddr : BitVec 16) : BitVec 32 :=
  let off := (rdAddr &&& 0xFFFC#16).toNat
  if off < snapFlowBase then
    let portIdx := off / snapStride
    let portOff := off - portIdx * snapStride
    if portIdx < numPorts ∧ portOff + 4 ≤ snapStride then
      (s.shadowPort portIdx).extractLsb' (portOff * 8) 32
    else 0
  else
    let flowIdx := (off - snapFlowBase) / snapStride
    let flowOff := (off - snapFlowBase) - flowIdx * snapStride
    if flowIdx < numFlows ∧ flowOff + 4 ≤ snapStride then
      (s.shadowFlow flowIdx).extractLsb' (flowOff * 8) 32
    else 0

end StatsSnapshot

/-! ## What feeds it -/

/-- The inputs of a cycle: the trigger, the inputs of the checkers, and the transmit
counters of the generators. -/
structure SnapIn (aw : ℕ) where
  trigger : Bool
  port : Fin 2 → CheckerIn aw
  genTxCount : Fin 2 → BitVec aw → BitVec 48
  genTxBytes : Fin 2 → BitVec aw → BitVec 64
  ports : ℕ → PortCounters

/-- The transmit counters of a slot, over the ports. -/
def SnapIn.txOf {aw : ℕ} (i : SnapIn aw) (a : BitVec aw) : BitVec 48 :=
  (List.finRange 2).foldl (fun acc p => acc + i.genTxCount p a) 0

/-- The transmit bytes of a slot, over the ports. -/
def SnapIn.txBytesOf {aw : ℕ} (i : SnapIn aw) (a : BitVec aw) : BitVec 64 :=
  (List.finRange 2).foldl (fun acc p => acc + i.genTxBytes p a) 0

/-- The checkers, the registered merge and the snapshot. -/
structure SnapSys (aw : ℕ) where
  chk : Fin 2 → CheckerBram aw
  flowRdAddrD1 : BitVec aw
  flow : FlowRecord
  snap : StatsSnapshot

namespace SnapSys

variable {aw : ℕ} (numFlows : ℕ) (s : SnapSys aw)

/-- One clock edge: the checkers read at the address of the walk, the merge takes what they
read in the cycle before, the snapshot what was merged. -/
def step (i : SnapIn aw) : SnapSys aw :=
  { chk := fun p => (s.chk p).step numFlows
      { i.port p with rdAddr := s.snap.flowRdAddr numFlows aw, rdEn := true }
    flowRdAddrD1 := s.snap.flowRdAddr numFlows aw
    flow :=
      { rx := mergePorts fun p => (s.chk p).bRd
        tx := i.txOf s.flowRdAddrD1
        txBytes := i.txBytesOf s.flowRdAddrD1 }
    snap := s.snap.step numFlows i.trigger i.ports s.flow }

end SnapSys

/-! ## The host -/

/-- `struct bar_ctx`, as far as a bound is checked. -/
structure BarCtx where
  csrOff : ℕ
  size : ℕ

/-- `csr_range_ok`, in 64 bits. -/
def BarCtx.csrRangeOk (c : BarCtx) (off len : ℕ) : Bool :=
  let e := (c.csrOff + off + len) % 2 ^ 64
  decide (off ≤ e ∧ e ≤ c.size)

/-- `PWFPGA_WIN_STATS_SNAPSHOT`. -/
def pwfpgaWinStatsSnapshot : ℕ := 0xC000

/-- `PWFPGA_FLOW_STATS_SLOTS`. -/
def pwfpgaFlowStatsSlots : ℕ := (0x3FF4 - snapFlowBase) / snapStride

/-- A 64-bit field of a struct that was copied word by word. -/
def u64At (w : ℕ → BitVec 32) (off : ℕ) : BitVec 64 := w (off / 4 + 1) ++ w (off / 4)

/-- `struct pw_flow_stats` from its words (`bar_copy_words_out`). -/
def pwFlowStatsOfWords (w : ℕ → BitVec 32) : PwFlowStats :=
  { txFrames := u64At w 0, txBytes := u64At w 8, rxFrames := u64At w 16, rxBytes := u64At w 24
    lastSequence := u64At w 32, sequenceGapCount := u64At w 40
    lostPacketsEstimated := u64At w 48, duplicateCount := u64At w 56
    outOfOrderCount := u64At w 64, latePacketCount := u64At w 72
    minLatency := w (80 / 4), maxLatency := w (84 / 4), sumLatency := u64At w 88
    sampleCount := u64At w 96, jitterMin := w (104 / 4), jitterMax := w (108 / 4)
    jitterSum := u64At w 112 }

/-- The size of `struct pw_flow_stats`. -/
def pwFlowStatsSize : ℕ := 120

/-- `bar_flow_stats_read`, on what the registers read. -/
def barFlowStatsRead (c : BarCtx) (read32 : ℕ → BitVec 32) (lfid : BitVec 32) :
    Except PwStatus PwFlowStats :=
  if pwfpgaFlowStatsSlots ≤ lfid.toNat then .error .outOfRange
  else
    let base := pwfpgaWinStatsSnapshot + snapFlowBase + lfid.toNat * snapStride
    if c.csrRangeOk base pwFlowStatsSize then
      .ok (pwFlowStatsOfWords fun k => read32 (base + 4 * k))
    else .error .outOfRange

/-- A register read in the stats window. -/
def StatsSnapshot.read32 (s : StatsSnapshot) (numFlows : ℕ) (addr : ℕ) : BitVec 32 :=
  s.rdData numFlows 2 (BitVec.ofNat 16 addr - BitVec.ofNat 16 pwfpgaWinStatsSnapshot)

/-! ## A row is the struct -/

/-- The struct of a flow. -/
def flowStatsOf (r : FlowRecord) : PwFlowStats :=
  { txFrames := r.tx.setWidth 64, txBytes := r.txBytes, rxFrames := r.rx.rx
    rxBytes := r.rx.rxBytes, lastSequence := r.rx.lastSeq, sequenceGapCount := 0
    lostPacketsEstimated := r.rx.lost, duplicateCount := r.rx.dup, outOfOrderCount := r.rx.ooo
    latePacketCount := 0, minLatency := r.rx.minLat.setWidth 32
    maxLatency := r.rx.maxLat.setWidth 32, sumLatency := r.rx.sumLat
    sampleCount := r.rx.samples, jitterMin := r.rx.jitMin, jitterMax := r.rx.jitMax
    jitterSum := r.rx.jitSum }

/-- Two words of a row are a 64-bit field. -/
theorem u64At_row (row : SnapRow) (off : ℕ) :
    u64At (fun k => row.extractLsb' (32 * k) 32) off = row.extractLsb' (32 * (off / 4)) 64 :=
  BitVec.extractLsb'_append_extractLsb'_eq_extractLsb' (by omega)

/-- **The fields of a row stand at the offsets of the struct.** -/
theorem pwFlowStatsOfWords_flowRow (r : FlowRecord) :
    pwFlowStatsOfWords (fun k => (flowRow r).extractLsb' (32 * k) 32) = flowStatsOf r := by
  rw [pwFlowStatsOfWords, flowStatsOf, PwFlowStats.mk.injEq]
  simp only [u64At_row, Nat.reduceDiv, Nat.reduceMul]
  simp (disch := omega) only [flowRow, putU64, putU32, Nat.reduceMul,
    extractLsb'_putSlice_of_disjoint, extractLsb'_putSlice_self]
  simp

theorem pwFlowStatsOfWords_congr {w w' : ℕ → BitVec 32} (h : ∀ k < 30, w k = w' k) :
    pwFlowStatsOfWords w = pwFlowStatsOfWords w' := by
  rw [pwFlowStatsOfWords, pwFlowStatsOfWords, PwFlowStats.mk.injEq]
  simp (disch := omega) only [u64At, Nat.reduceDiv, Nat.reduceAdd, h, and_self]

/-- Masking the low bits of an aligned address. -/
theorem and_mask_aligned {off : ℕ} (halign : off % 4 = 0) :
    BitVec.ofNat 16 off &&& 0xFFFC#16 = BitVec.ofNat 16 off := by
  have hmask : ∀ b : Fin 16, (0xFFFC#16).getLsbD b = decide (2 ≤ b.val) := by decide
  apply BitVec.eq_of_getLsbD_eq
  intro b hb
  rw [BitVec.getLsbD_and, hmask ⟨b, hb⟩, BitVec.getLsbD_ofNat]
  by_cases h2 : 2 ≤ b
  · simp [h2]
  · have hbit : off.testBit b = false := by
      have hoff : off = 2 ^ 2 * (off / 4) := by omega
      rw [hoff, Nat.testBit_two_pow_mul]
      simp [h2]
    simp [h2, hbit]

/-- **The read multiplexer gives the words of the row.** -/
theorem StatsSnapshot.read32_flow (s : StatsSnapshot) {numFlows lfid k : ℕ}
    (hf : lfid < numFlows) (hslot : lfid < pwfpgaFlowStatsSlots) (hk : k < 30) :
    s.read32 numFlows (pwfpgaWinStatsSnapshot + snapFlowBase + lfid * snapStride + 4 * k) =
      (s.shadowFlow lfid).extractLsb' (32 * k) 32 := by
  have hslot' : lfid < 125 := hslot
  have haddr : BitVec.ofNat 16 (pwfpgaWinStatsSnapshot + snapFlowBase + lfid * snapStride + 4 * k) -
      BitVec.ofNat 16 pwfpgaWinStatsSnapshot = BitVec.ofNat 16 (256 + lfid * 128 + 4 * k) := by
    rw [Nat.add_assoc, Nat.add_assoc, ← Nat.add_assoc snapFlowBase, BitVec.ofNat_add,
      BitVec.add_comm, BitVec.add_sub_cancel]
    rfl
  have hoff : (BitVec.ofNat 16 (256 + lfid * 128 + 4 * k) &&& 0xFFFC#16).toNat =
      256 + lfid * 128 + 4 * k := by
    rw [and_mask_aligned (by omega), BitVec.toNat_ofNat]
    omega
  have hidx : (256 + lfid * 128 + 4 * k - snapFlowBase) / snapStride = lfid := by
    simp only [snapFlowBase, snapStride]
    omega
  have hrest : 256 + lfid * 128 + 4 * k - snapFlowBase - lfid * snapStride = 4 * k := by
    simp only [snapFlowBase, snapStride]
    omega
  rw [StatsSnapshot.read32, haddr, StatsSnapshot.rdData]
  simp only [hoff, hidx, hrest]
  rw [if_neg (by simp only [snapFlowBase]; omega),
    if_pos ⟨hf, by simp only [snapStride]; omega⟩, show 4 * k * 8 = 32 * k by omega]

/-- The host refuses a slot: it is beyond the window or beyond the mapping. -/
def BarCtx.refuses (c : BarCtx) (lfid : ℕ) : Bool :=
  decide (pwfpgaFlowStatsSlots ≤ lfid) ||
    !c.csrRangeOk (pwfpgaWinStatsSnapshot + snapFlowBase + lfid * snapStride) pwFlowStatsSize

/-- **The host reads exactly the row of the slot**, unless it refuses the slot. -/
theorem barFlowStatsRead_eq (c : BarCtx) (s : StatsSnapshot) {numFlows : ℕ} {lfid : BitVec 32}
    (hf : lfid.toNat < numFlows) {r : FlowRecord} (hrow : s.shadowFlow lfid.toNat = flowRow r) :
    barFlowStatsRead c (s.read32 numFlows) lfid =
      if c.refuses lfid.toNat then .error .outOfRange else .ok (flowStatsOf r) := by
  rw [barFlowStatsRead, BarCtx.refuses]
  by_cases hslot : pwfpgaFlowStatsSlots ≤ lfid.toNat
  · simp [hslot]
  · rw [if_neg hslot]
    cases hr : c.csrRangeOk (pwfpgaWinStatsSnapshot + snapFlowBase + lfid.toNat * snapStride)
        pwFlowStatsSize with
    | false => simp [hr]
    | true =>
      have hwords : pwFlowStatsOfWords (fun k => s.read32 numFlows
          (pwfpgaWinStatsSnapshot + snapFlowBase + lfid.toNat * snapStride + 4 * k)) =
            flowStatsOf r := by
        rw [← pwFlowStatsOfWords_flowRow, ← hrow]
        apply pwFlowStatsOfWords_congr
        intro k hk
        exact s.read32_flow hf (Nat.lt_of_not_le hslot) hk
      simp [hr, hslot, hwords]

/-! ## What the walk takes -/

theorem CheckerBram.bRd_step {aw : ℕ} (numFlows : ℕ) (c : CheckerBram aw) (i : CheckerIn aw) :
    (c.step numFlows i).bRd = c.mem i.rdAddr := by
  simp only [CheckerBram.step]
  split_ifs <;> rfl

namespace SnapSys

variable {aw numFlows : ℕ} {s : SnapSys aw} {i : SnapIn aw} {k : ℕ}

/-- The walk is at its cycle `k`. -/
structure At (s : SnapSys aw) (k : ℕ) : Prop where
  walking : s.snap.walking = true
  wcnt : s.snap.wcnt.toNat = k

/-- The walk goes on until the last row is taken. -/
theorem At.step (h : s.At k) (hF : numFlows + 2 < 2 ^ 16) (hk : k + 1 ≤ numFlows + 1)
    (hi : i.trigger = false) : (s.step numFlows i).At (k + 1) := by
  have hwcnt := h.wcnt
  have hne : s.snap.wcnt ≠ BitVec.ofNat 16 (numFlows - 1 + flowRdLat) := by
    intro heq
    have hnat := congrArg BitVec.toNat heq
    rw [hwcnt, BitVec.toNat_ofNat, flowRdLat] at hnat
    omega
  refine ⟨?_, ?_⟩
  · simp [SnapSys.step, StatsSnapshot.step, hi, h.walking, hne]
  · have hnext : (s.step numFlows i).snap.wcnt = s.snap.wcnt + 1 := by
      simp [SnapSys.step, StatsSnapshot.step, hi, h.walking]
    rw [hnext, BitVec.toNat_add, hwcnt]
    exact Nat.mod_eq_of_lt (show k + 1 < 2 ^ 16 by omega)

/-- The address of the walk. -/
theorem At.flowRdAddr (h : s.At k) (hk : k < numFlows) :
    s.snap.flowRdAddr numFlows aw = BitVec.ofNat aw k := by
  rw [StatsSnapshot.flowRdAddr, h.walking, h.wcnt, if_pos (by simp [hk])]
  apply BitVec.eq_of_toNat_eq
  rw [BitVec.toNat_setWidth, BitVec.toNat_ofNat, h.wcnt]

/-- The walk takes the record that arrives. -/
theorem At.shadowFlow_step (h : s.At (k + 2)) (hi : i.trigger = false) :
    (s.step numFlows i).snap.shadowFlow k = flowRow s.flow := by
  have hle : flowRdLat ≤ s.snap.wcnt.toNat := by
    rw [h.wcnt, flowRdLat]
    omega
  have hrow : s.snap.wcnt.toNat - flowRdLat = k := by
    rw [h.wcnt, flowRdLat]
    omega
  simp [SnapSys.step, StatsSnapshot.step, hi, h.walking, hle, hrow]

/-- What row `k` is to be: the merged records of the flow in the cycle of its address, and
the transmit counters of the slot one cycle later. -/
def takenRecord (s : SnapSys aw) (i : SnapIn aw) (k : ℕ) : FlowRecord :=
  { rx := mergePorts fun p => (s.chk p).mem (BitVec.ofNat aw k)
    tx := i.txOf (BitVec.ofNat aw k)
    txBytes := i.txBytesOf (BitVec.ofNat aw k) }

/-- **Three cycles of the walk**: the address, the merge, and the row. -/
theorem At.row (h : s.At k) (hF : numFlows + 2 < 2 ^ 16) (hk : k < numFlows)
    {i₀ i₁ i₂ : SnapIn aw} (h₀ : i₀.trigger = false) (h₁ : i₁.trigger = false)
    (h₂ : i₂.trigger = false) :
    (((s.step numFlows i₀).step numFlows i₁).step numFlows i₂).snap.shadowFlow k =
      flowRow (s.takenRecord i₁ k) := by
  have hat₁ : (s.step numFlows i₀).At (k + 1) := h.step hF (by omega) h₀
  have hat₂ : ((s.step numFlows i₀).step numFlows i₁).At (k + 2) := hat₁.step hF (by omega) h₁
  have haddr : (s.step numFlows i₀).flowRdAddrD1 = BitVec.ofNat aw k := h.flowRdAddr hk
  have hread : ∀ p, ((s.step numFlows i₀).chk p).bRd = (s.chk p).mem (BitVec.ofNat aw k) := by
    intro p
    rw [← h.flowRdAddr hk]
    exact CheckerBram.bRd_step _ _ _
  have hflow : ((s.step numFlows i₀).step numFlows i₁).flow = s.takenRecord i₁ k := by
    rw [takenRecord, ← funext hread, ← haddr]
    rfl
  rw [hat₂.shadowFlow_step h₂, hflow]

/-- The walk is past row `k`, or over. -/
def Past (numFlows : ℕ) (s : SnapSys aw) (k : ℕ) : Prop :=
  s.snap.walking = true → k + 3 ≤ s.snap.wcnt.toNat ∧ s.snap.wcnt.toNat ≤ numFlows + 1

theorem At.past (h : s.At (k + 2)) (hF : numFlows + 2 < 2 ^ 16) (hk : k < numFlows)
    (hi : i.trigger = false) : (s.step numFlows i).Past numFlows k := by
  intro hw
  by_cases hlast : k + 2 = numFlows + 1
  · have hend : s.snap.wcnt = BitVec.ofNat 16 (numFlows - 1 + flowRdLat) := by
      apply BitVec.eq_of_toNat_eq
      rw [h.wcnt, BitVec.toNat_ofNat, flowRdLat]
      omega
    simp [SnapSys.step, StatsSnapshot.step, hi, h.walking, hend] at hw
  · have hnext := h.step hF (by omega) hi
    rw [hnext.wcnt]
    omega

/-- A row that the walk is past stays, also when the walk is over. -/
theorem Past.step (h : s.Past numFlows k) (hF : numFlows + 2 < 2 ^ 16)
    (hi : i.trigger = false) :
    (s.step numFlows i).Past numFlows k ∧
      (s.step numFlows i).snap.shadowFlow k = s.snap.shadowFlow k := by
  cases hw : s.snap.walking with
  | false =>
    have hsnap : (s.step numFlows i).snap = s.snap := by
      simp [SnapSys.step, StatsSnapshot.step, hi, hw]
    refine ⟨?_, by rw [hsnap]⟩
    intro hw'
    rw [hsnap, hw] at hw'
    cases hw'
  | true =>
    obtain ⟨hlow, hhigh⟩ := h hw
    refine ⟨?_, ?_⟩
    · intro hw'
      have hne : s.snap.wcnt.toNat ≠ numFlows + 1 := by
        intro heq
        have hend : s.snap.wcnt = BitVec.ofNat 16 (numFlows - 1 + flowRdLat) := by
          apply BitVec.eq_of_toNat_eq
          rw [heq, BitVec.toNat_ofNat, flowRdLat]
          omega
        simp [SnapSys.step, StatsSnapshot.step, hi, hw, hend] at hw'
      have hat : s.At s.snap.wcnt.toNat := ⟨hw, rfl⟩
      have hnext := hat.step hF (by omega) hi
      rw [hnext.wcnt]
      omega
    · have hle : flowRdLat ≤ s.snap.wcnt.toNat := by
        rw [flowRdLat]
        omega
      have hrow : k ≠ s.snap.wcnt.toNat - flowRdLat := by
        rw [flowRdLat]
        omega
      simp [SnapSys.step, StatsSnapshot.step, hi, hw, hle, Function.update_of_ne hrow]

theorem Past.run (h : s.Past numFlows k) (hF : numFlows + 2 < 2 ^ 16) {l : List (SnapIn aw)}
    (hl : ∀ i ∈ l, i.trigger = false) :
    (Lib.run (SnapSys.step numFlows) s l).snap.shadowFlow k = s.snap.shadowFlow k := by
  induction l generalizing s with
  | nil => rfl
  | cons i l ih =>
    obtain ⟨hpast, hrow⟩ := h.step hF (hl i List.mem_cons_self)
    rw [run_cons, ih hpast fun j hj => hl j (List.mem_cons_of_mem _ hj), hrow]

theorem At.run (h : s.At 0) (hF : numFlows + 2 < 2 ^ 16) {l : List (SnapIn aw)}
    (hl : ∀ i ∈ l, i.trigger = false) (hlen : l.length ≤ numFlows + 1) :
    (Lib.run (SnapSys.step numFlows) s l).At l.length := by
  induction l using List.reverseRecOn with
  | nil => exact h
  | append_singleton l i ih =>
    rw [List.length_append, List.length_singleton] at hlen ⊢
    rw [run_concat]
    exact (ih (fun j hj => hl j (List.mem_append_left _ hj)) (by omega)).step hF (by omega)
      (hl i (by simp))

/-- **A row of a walk**: it is taken in its own cycles of the walk, and stays. -/
theorem row_of_walk (h : s.At 0) (hF : numFlows + 2 < 2 ^ 16) {l : List (SnapIn aw)}
    (hl : ∀ i ∈ l, i.trigger = false) (hlen : numFlows + 2 ≤ l.length) (hk : k < numFlows) :
    ∃ i, l[k + 1]? = some i ∧
      (Lib.run (SnapSys.step numFlows) s l).snap.shadowFlow k =
        flowRow ((Lib.run (SnapSys.step numFlows) s (l.take k)).takenRecord i k) := by
  obtain ⟨i₀, i₁, i₂, rest, hsplit⟩ : ∃ i₀ i₁ i₂ rest, l.drop k = i₀ :: i₁ :: i₂ :: rest := by
    refine ⟨l.get ⟨k, by omega⟩, l.get ⟨k + 1, by omega⟩, l.get ⟨k + 2, by omega⟩,
      l.drop (k + 3), ?_⟩
    rw [List.drop_eq_getElem_cons (by omega), List.drop_eq_getElem_cons (by omega),
      List.drop_eq_getElem_cons (by omega)]
    rfl
  have hmem : ∀ i ∈ l.drop k, i.trigger = false := fun i hi => hl i (List.mem_of_mem_drop hi)
  rw [hsplit] at hmem
  have h₀ : i₀.trigger = false := hmem i₀ (by simp)
  have h₁ : i₁.trigger = false := hmem i₁ (by simp)
  have h₂ : i₂.trigger = false := hmem i₂ (by simp)
  have hlen' : (l.take k).length = k := by
    rw [List.length_take]
    omega
  have hat : (Lib.run (SnapSys.step numFlows) s (l.take k)).At k := by
    have := h.run hF (fun i hi => hl i (List.mem_of_mem_take hi))
      (show (l.take k).length ≤ numFlows + 1 by omega)
    rwa [hlen'] at this
  refine ⟨i₁, ?_, ?_⟩
  · have hget : (l.drop k)[1]? = some i₁ := by rw [hsplit]; rfl
    rwa [List.getElem?_drop] at hget
  · have hat₂ := (hat.step hF (by omega) h₀).step hF (by omega) h₁
    rw [← hat.row hF hk h₀ h₁ h₂]
    conv_lhs => rw [← List.take_append_drop k l, hsplit, run_append, run_cons, run_cons, run_cons]
    exact (hat₂.past hF hk h₂).run hF fun i hi => hmem i (by simp [hi])

/-- **A walk that goes on began at the last trigger.** -/
theorem exists_walk {s₀ : SnapSys aw} (hidle : s₀.snap.walking = false) (hpos : 0 < numFlows)
    (hF : numFlows + 2 < 2 ^ 16) {ins : List (SnapIn aw)}
    (hw : (Lib.run (SnapSys.step numFlows) s₀ ins).snap.walking = true) :
    ∃ pre trig walk, ins = pre ++ trig :: walk ∧ trig.trigger = true ∧
      (∀ i ∈ walk, i.trigger = false) ∧ walk.length ≤ numFlows + 1 ∧
      (Lib.run (SnapSys.step numFlows) s₀ ins).snap.wcnt.toNat = walk.length := by
  induction ins using List.reverseRecOn with
  | nil =>
    rw [run_nil, hidle] at hw
    cases hw
  | append_singleton ins i ih =>
    rw [run_concat] at hw ⊢
    cases hi : i.trigger with
    | true =>
      refine ⟨ins, i, [], rfl, hi, by simp, by simp, ?_⟩
      simp [SnapSys.step, StatsSnapshot.step, hi]
    | false =>
      have hbefore : (Lib.run (SnapSys.step numFlows) s₀ ins).snap.walking = true := by
        cases hw' : (Lib.run (SnapSys.step numFlows) s₀ ins).snap.walking with
        | true => rfl
        | false => simp [SnapSys.step, StatsSnapshot.step, hi, hw'] at hw
      obtain ⟨pre, trig, walk, hins, htrig, hwalk, hle, hcnt⟩ := ih hbefore
      have hlt : walk.length ≠ numFlows + 1 := by
        intro heq
        have hend : (Lib.run (SnapSys.step numFlows) s₀ ins).snap.wcnt =
            BitVec.ofNat 16 (numFlows - 1 + flowRdLat) := by
          apply BitVec.eq_of_toNat_eq
          rw [hcnt, heq, BitVec.toNat_ofNat, flowRdLat]
          omega
        simp [SnapSys.step, StatsSnapshot.step, hi, hbefore, hend] at hw
      have hat : (Lib.run (SnapSys.step numFlows) s₀ ins).At walk.length := ⟨hbefore, hcnt⟩
      refine ⟨pre, trig, walk ++ [i], by simp [hins], htrig, ?_, ?_, ?_⟩
      · intro j hj
        rw [List.mem_append, List.mem_singleton] at hj
        rcases hj with hj | rfl
        · exact hwalk j hj
        · exact hi
      · rw [List.length_append, List.length_singleton]
        omega
      · rw [(hat.step hF (by omega) hi).wcnt, List.length_append, List.length_singleton]

end SnapSys

/-- **The rows of a snapshot are never mixed.**  When a walk ends, in any run with any
triggers and any traffic, the last trigger before it began it, and until the next trigger
row `k` holds the records of flow `k` as all of them were in cycle `k` of this walk with the
transmit counters of slot `k` as they were one cycle later; the host reads exactly this. -/
theorem snapshot_rows_whole {numFlows aw : ℕ} (hpos : 0 < numFlows) (hF : numFlows + 2 < 2 ^ 16)
    {s₀ : SnapSys aw} (hidle : s₀.snap.walking = false) (ins : List (SnapIn aw)) (i : SnapIn aw)
    (hwalk : (run (SnapSys.step numFlows) s₀ ins).snap.walking = true)
    (hend : (run (SnapSys.step numFlows) s₀ (ins ++ [i])).snap.walking = false) :
    ∃ pre trig walk, ins ++ [i] = pre ++ trig :: walk ∧ trig.trigger = true ∧
      (∀ j ∈ walk, j.trigger = false) ∧ walk.length = numFlows + 2 ∧
      ∀ after : List (SnapIn aw), (∀ j ∈ after, j.trigger = false) → ∀ k < numFlows,
        ∃ j, walk[k + 1]? = some j ∧
          let s := run (SnapSys.step numFlows) s₀ (ins ++ [i] ++ after)
          let r := (run (SnapSys.step numFlows) s₀ (pre ++ trig :: walk.take k)).takenRecord j k
          s.snap.shadowFlow k = flowRow r ∧
          ∀ (c : BarCtx) (lfid : BitVec 32), lfid.toNat = k →
            barFlowStatsRead c (s.snap.read32 numFlows) lfid =
              if c.refuses k then .error .outOfRange else .ok (flowStatsOf r) := by
  obtain ⟨pre, trig, walk, hins, htrig, hquiet, hle, hcnt⟩ :=
    SnapSys.exists_walk hidle hpos hF hwalk
  rw [run_concat] at hend
  -- the walk ends with its last cycle, and not with a trigger
  have hi : i.trigger = false := by
    cases hi : i.trigger with
    | false => rfl
    | true => simp [SnapSys.step, StatsSnapshot.step, hi] at hend
  have hlen : walk.length = numFlows + 1 := by
    by_contra hne
    have hat : (run (SnapSys.step numFlows) s₀ ins).At walk.length := ⟨hwalk, hcnt⟩
    rw [(hat.step hF (by omega) hi).walking] at hend
    cases hend
  have hquiet' : ∀ j ∈ walk ++ [i], j.trigger = false := by
    intro j hj
    rw [List.mem_append, List.mem_singleton] at hj
    rcases hj with hj | rfl
    · exact hquiet j hj
    · exact hi
  refine ⟨pre, trig, walk ++ [i], by simp [hins], htrig, hquiet', by simp [hlen], ?_⟩
  intro after hafter k hk
  have hat : (run (SnapSys.step numFlows) s₀ (pre ++ [trig])).At 0 := by
    rw [run_concat]
    refine ⟨?_, ?_⟩
    · simp [SnapSys.step, StatsSnapshot.step, htrig]
    · simp [SnapSys.step, StatsSnapshot.step, htrig]
  have hall : ∀ j ∈ walk ++ [i] ++ after, j.trigger = false := by
    intro j hj
    rw [List.mem_append] at hj
    rcases hj with hj | hj
    · exact hquiet' j hj
    · exact hafter j hj
  obtain ⟨j, hj, hrow⟩ := SnapSys.row_of_walk hat hF hall (by simp only [List.length_append, hlen]; simp) hk
  have hsplit : ins ++ [i] ++ after = pre ++ [trig] ++ (walk ++ [i] ++ after) := by simp [hins]
  have hshort : k + 1 < (walk ++ [i]).length := by
    rw [List.length_append, List.length_singleton]
    omega
  have htake : pre ++ trig :: (walk ++ [i]).take k =
      pre ++ [trig] ++ (walk ++ [i] ++ after).take k := by
    have hpre : (walk ++ [i] ++ after).take k = (walk ++ [i]).take k :=
      List.take_append_of_le_length (by omega)
    rw [hpre, List.append_assoc, List.singleton_append]
  refine ⟨j, ?_, ?_⟩
  · rwa [List.getElem?_append_left hshort] at hj
  · have hrow' : (run (SnapSys.step numFlows) s₀ (ins ++ [i] ++ after)).snap.shadowFlow k =
        flowRow ((run (SnapSys.step numFlows) s₀ (pre ++ trig :: (walk ++ [i]).take k)).takenRecord
          j k) := by
      rw [hsplit, htake, run_append, run_append _ _ (pre ++ [trig])]
      exact hrow
    refine ⟨hrow', ?_⟩
    rintro c lfid rfl
    exact barFlowStatsRead_eq c _ hk hrow'

/-- A cycle with a trigger or without, and no traffic. -/
def sampleSnapIn (trigger : Bool) : SnapIn 1 :=
  { trigger, port := fun _ => sampleCheckerIdle, genTxCount := fun _ _ => 3
    genTxBytes := fun _ _ => 192, ports := fun _ => {} }

/-- Two flows, just out of reset. -/
def sampleSnapSys : SnapSys 1 :=
  { chk := fun _ => sampleChecker, flowRdAddrD1 := 0, flow := {}, snap := {} }

/-- A trigger that restarts a walk: the rows are of the second walk. -/
theorem snapshot_rows_whole_restart :
    ∃ pre trig walk, [true, false, true, false, false, false, false].map sampleSnapIn =
        pre ++ trig :: walk ∧ trig.trigger = true ∧ walk.length = 4 ∧
      ∃ r, (run (SnapSys.step 2) sampleSnapSys
        ([true, false, true, false, false, false, false].map sampleSnapIn)).snap.shadowFlow 1 =
          flowRow r := by
  have hwalk : (run (SnapSys.step 2) sampleSnapSys
      ([true, false, true, false, false, false].map sampleSnapIn)).snap.walking = true := by
    decide +kernel
  have hend : (run (SnapSys.step 2) sampleSnapSys
      ([true, false, true, false, false, false].map sampleSnapIn ++
        [sampleSnapIn false])).snap.walking = false := by
    decide +kernel
  obtain ⟨pre, trig, walk, hins, htrig, -, hlen, hrows⟩ :=
    snapshot_rows_whole (by decide) (by decide) rfl _ _ hwalk hend
  obtain ⟨j, -, hrow, -⟩ := hrows [] (by simp) 1 (by decide)
  exact ⟨pre, trig, walk, hins, htrig, hlen, _, hrow⟩

end PacketWyrm
