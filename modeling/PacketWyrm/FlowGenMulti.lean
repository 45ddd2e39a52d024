import PacketWyrm.FlowTable
import PacketWyrm.FlowGen
import PacketWyrm.AxisStream
import PacketWyrm.TxRows

/-!
# The multi-flow generator

`pw_flow_gen_multi` clock by clock, for a configuration that stands still: the
rows of the flow table, from which the scheduling descriptors follow.  Token
buckets fill in every cycle.  A round-robin pick over the eligible slots goes
through two register stages, in which the row is fetched and the fields of the
next frame are computed; a launch starts the frame, spends its tokens and moves
the slot's sequence number and length on.

## Main definitions

* `FlowGenMulti` — the registers, `FlowGenMulti.step` — one clock edge.
* `FlowGenMulti.launch` — whether a frame starts.
* `FlowGenMulti.beat` — what stands on the stream.
-/

namespace PacketWyrm

open Lib

/-- The inputs of a cycle. -/
structure FlowGenIn where
  timestamp : BitVec 64
  statsClear : Bool
  tready : Bool

/-- The registers, for `N` slots. -/
structure FlowGenMulti (N : ℕ) where
  -- per slot
  sequenceQ : Fin N → BitVec 64
  tokensQ : Fin N → BitVec 32
  txCount : Fin N → BitVec 48
  txBytes : Fin N → BitVec 64
  curLen : Fin N → BitVec 16
  mineQ : Fin N → Bool
  costQ : Fin N → BitVec 32
  capQ : Fin N → BitVec 32
  eligibleQ : Fin N → Bool
  tokReadyQ : Fin N → Bool
  -- the pick
  rrPtr : Fin N
  pickQ : Fin N
  pickValidQ : Bool
  -- stage A: the row comes from the output register of the table
  pickL : Fin N
  pvalidL : Bool
  rowL : PwFlowRow
  seqL : BitVec 64
  effLenL : BitVec 16
  paylenL : BitVec 12
  -- stage B
  pickQq : Fin N
  pickValidQq : Bool
  rowQq : PwFlowRow
  seqQq : BitVec 64
  fieldsQ : GenFields
  paylenQ : BitVec 12
  effLenQq : BitVec 16
  -- the frame in flight
  fb : BuiltFrame
  sel : Fin N
  active : Bool
  frameStampable : Bool
  byteOff : BitVec 12

/-- `mine`: the slot is enabled and drives this port. -/
def PwFlowSched.mine (port : BitVec 4) (d : PwFlowSched) : Bool := d.valid && d.egress == port

/-- A bucket takes a cycle's tokens, up to its cap. -/
def accrue (tokens rate cap : BitVec 32) : BitVec 32 :=
  let sum : BitVec 33 := tokens.setWidth 33 + rate.setWidth 33
  if cap.setWidth 33 < sum then cap else sum.setWidth 32

/-- The length after `eff` in a sweep. -/
def nextLen (d : PwFlowSched) (eff : BitVec 16) : BitVec 16 :=
  let nl : BitVec 17 := eff.setWidth 17 + d.lenStep.setWidth 17
  if d.lenMax.setWidth 17 < nl then d.lenMin else nl.setWidth 16

namespace FlowGenMulti

variable {N : ℕ} (port : BitVec 4) (rows : Fin N → PwFlowRow)

/-- `eligible`: the bucket holds a frame's cost, or the slot is being sent. -/
def eligible (s : FlowGenMulti N) (k : Fin N) : Bool :=
  s.mineQ k && (decide (s.costQ k ≤ s.tokensQ k) || (s.active && k == s.sel))

/-- `pick`: the loop runs down, so the slot nearest after `rrPtr` is assigned last. -/
def pick (s : FlowGenMulti N) : Option (Fin N) :=
  (List.finRange N).foldr
    (fun i acc => if s.eligibleQ (s.rrPtr + i) then some (s.rrPtr + i) else acc) none

/-- `start`. -/
def start (s : FlowGenMulti N) : Bool := !s.active && s.pickValidQq

/-- The picked slot's frame starts. -/
def launch (s : FlowGenMulti N) : Bool := s.start && s.tokReadyQ s.pickQq

/-- `last`. -/
def last (s : FlowGenMulti N) : Bool := s.active && decide (s.fb.frameLen - s.byteOff ≤ 8)

/-- The frame's last beat is taken. -/
def finish (s : FlowGenMulti N) (i : FlowGenIn) : Bool := s.active && i.tready && s.last

/-- `accv - cost`: what a launch leaves in the bucket. -/
def spend (s : FlowGenMulti N) : BitVec 32 :=
  accrue (s.tokensQ s.pickQq) s.rowQq.tokensFp (s.capQ s.pickQq) - s.costQ s.pickQq

/-- The stream: bytes of the buffer, then zeros, up to the frame's length. -/
def beat (s : FlowGenMulti N) : Beat :=
  let gb (k : ℕ) : BitVec 12 := s.byteOff + BitVec.ofNat 12 k
  { tdata := lanes fun k => if gb k < s.fb.frameLen then s.fb.header.getD (gb k).toNat 0 else 0
    tkeep := ofBits fun k : Fin 8 => decide (gb k < s.fb.frameLen)
    tlast := s.last }

/-- One clock edge.  A frame is laid into the buffer in every cycle of `start`,
also when it does not start yet. -/
def step [NeZero N] (s : FlowGenMulti N) (i : FlowGenIn) : FlowGenMulti N :=
  let sched (k : Fin N) := schedOf (rows k)
  let effLenA := effLen (sched s.pickQ).lenMin (sched s.pickQ).lenMax (s.curLen s.pickQ)
  { sequenceQ :=
      if s.launch then Function.update s.sequenceQ s.pickQq (s.seqQq + 1) else s.sequenceQ
    tokensQ := fun k =>
      if s.launch && k == s.pickQq then s.spend
      else if s.mineQ k then accrue (s.tokensQ k) (sched k).tokensFp (s.capQ k)
      else 0
    txCount := fun k =>
      if i.statsClear then 0
      else if s.finish i && k == s.sel then s.txCount k + 1
      else s.txCount k
    txBytes := fun k =>
      if i.statsClear then 0
      else if s.finish i && k == s.sel then s.txBytes k + s.fb.frameLen.setWidth 64
      else s.txBytes k
    curLen :=
      if s.launch then Function.update s.curLen s.pickQq (nextLen (sched s.pickQq) s.effLenQq)
      else s.curLen
    mineQ := fun k => (sched k).mine port
    costQ := fun k => (sched k).cost
    capQ := fun k => (sched k).cap
    eligibleQ := s.eligible
    tokReadyQ := fun k => decide (s.costQ k ≤ s.tokensQ k)
    rrPtr := if s.launch then s.pickQq + 1 else s.rrPtr
    pickQ := s.pick.getD 0
    pickValidQ := s.pick.isSome
    pickL := s.pickQ
    pvalidL := s.pickValidQ
    rowL := rows s.pickQ
    seqL := s.sequenceQ s.pickQ
    effLenL := effLenA
    paylenL := payLenOf (sched s.pickQ).frameTemplate (sched s.pickQ).ovh effLenA
    pickQq := s.pickL
    pickValidQq := s.pvalidL
    rowQq := s.rowL
    seqQq := s.seqL
    fieldsQ := precompute s.rowL s.seqL s.paylenL
    paylenQ := s.paylenL
    effLenQq := s.effLenL
    fb := if s.start then build s.rowQq s.seqQq i.timestamp s.fieldsQ s.paylenQ else s.fb
    sel := if s.launch then s.pickQq else s.sel
    active := if s.launch then true else if s.finish i then false else s.active
    frameStampable := if s.launch then s.rowQq.frameTemplate == 0#2 else s.frameStampable
    byteOff :=
      if s.launch then 0
      else if s.active && i.tready && !s.last then s.byteOff + 8
      else s.byteOff }

/-- The registers that a reset settles, as far as anything depends on them. -/
structure Reset (s : FlowGenMulti N) : Prop where
  sequenceQ : ∀ k, s.sequenceQ k = 0
  tokensQ : ∀ k, s.tokensQ k = 0
  curLen : ∀ k, s.curLen k = 0
  mineQ : ∀ k, s.mineQ k = false
  eligibleQ : ∀ k, s.eligibleQ k = false
  pickValidQ : s.pickValidQ = false
  pvalidL : s.pvalidL = false
  pickValidQq : s.pickValidQq = false
  active : s.active = false

/-! ## What a run shows -/

/-- A frame that starts. -/
structure Launch (N : ℕ) where
  slot : Fin N
  seq : BitVec 64
  len : BitVec 16
  ts : BitVec 64

/-- The frame that starts in a cycle. -/
def launched (s : FlowGenMulti N) (i : FlowGenIn) : Option (Launch N) :=
  if s.launch then some { slot := s.pickQq, seq := s.seqQq, len := s.effLenQq, ts := i.timestamp }
  else none

/-- The beat that is taken in a cycle. -/
def sent (s : FlowGenMulti N) (i : FlowGenIn) : Option Beat :=
  if s.active && i.tready then some s.beat else none

/-! ## The pick -/

/-- What is picked is eligible. -/
theorem eligibleQ_of_pick {s : FlowGenMulti N} {k : Fin N} (h : s.pick = some k) :
    s.eligibleQ k = true := by
  rw [pick] at h
  generalize List.finRange N = l at h
  induction l with
  | nil => cases h
  | cons i l ih =>
    rw [List.foldr_cons] at h
    split at h
    · rename_i helig
      rw [← Option.some.inj h]
      exact helig
    · exact ih h

/-! ## Which slots go through the pipeline -/

/-- Only slots of this port are marked, eligible, or picked. -/
structure Mine (s : FlowGenMulti N) : Prop where
  mineQ : ∀ k, s.mineQ k = true → (schedOf (rows k)).mine port = true
  eligibleQ : ∀ k, s.eligibleQ k = true → s.mineQ k = true
  pickQ : s.pickValidQ = true → s.mineQ s.pickQ = true
  pickL : s.pvalidL = true → s.mineQ s.pickL = true
  pickQq : s.pickValidQq = true → s.mineQ s.pickQq = true

variable {port rows} {s : FlowGenMulti N}

theorem Reset.mine (h : s.Reset) : s.Mine port rows :=
  { mineQ := by
      intro k hk
      rw [h.mineQ k] at hk
      cases hk
    eligibleQ := by
      intro k hk
      rw [h.eligibleQ k] at hk
      cases hk
    pickQ := by
      intro hv
      rw [h.pickValidQ] at hv
      cases hv
    pickL := by
      intro hv
      rw [h.pvalidL] at hv
      cases hv
    pickQq := by
      intro hv
      rw [h.pickValidQq] at hv
      cases hv }

/-- A slot stays marked while the configuration stands still. -/
theorem Mine.step [NeZero N] (h : s.Mine port rows) (i : FlowGenIn) :
    (s.step port rows i).Mine port rows := by
  constructor
  · intro k hk
    exact hk
  · intro k hk
    have hel : s.eligible k = true := hk
    rw [eligible, Bool.and_eq_true] at hel
    exact h.mineQ k hel.1
  · intro hv
    have hsome : s.pick.isSome = true := hv
    obtain ⟨k, hk⟩ := Option.isSome_iff_exists.mp hsome
    have hpick : (s.step port rows i).pickQ = k := by
      show s.pick.getD 0 = k
      rw [hk]
      rfl
    rw [hpick]
    exact h.mineQ k (h.eligibleQ k (eligibleQ_of_pick hk))
  · intro hv
    exact h.mineQ _ (h.pickQ hv)
  · intro hv
    exact h.mineQ _ (h.pickL hv)

/-- A launch is of a slot of this port. -/
theorem Mine.of_launch (h : s.Mine port rows) (hl : s.launch = true) : s.mineQ s.pickQq = true := by
  rw [launch, start, Bool.and_eq_true, Bool.and_eq_true] at hl
  exact h.pickQq hl.1.2

end FlowGenMulti

/-- The row of a flow on port 0, at half a frame a cycle. -/
def sampleGenRow : PwFlowRow :=
  { (txRow (sampleHeaderFlow 1 0x0A000002) 0 0 true).decoded with tokensFp := 0x400000 }

/-- A generator of two slots after a reset. -/
def sampleGen : FlowGenMulti 2 :=
  { sequenceQ := fun _ => 0, tokensQ := fun _ => 0, txCount := fun _ => 0, txBytes := fun _ => 0
    curLen := fun _ => 0, mineQ := fun _ => false, costQ := fun _ => 0, capQ := fun _ => 0
    eligibleQ := fun _ => false, tokReadyQ := fun _ => false, rrPtr := 0, pickQ := 0
    pickValidQ := false, pickL := 0, pvalidL := false, rowL := sampleGenRow, seqL := 0
    effLenL := 0, paylenL := 0, pickQq := 0, pickValidQq := false, rowQq := sampleGenRow
    seqQq := 0, fieldsQ := precompute sampleGenRow 0 0, paylenQ := 0, effLenQq := 0
    fb := { header := [], frameLen := 0 }, sel := 0, active := false, frameStampable := false
    byteOff := 0 }

theorem reset_sampleGen : sampleGen.Reset :=
  { sequenceQ := fun _ => rfl, tokensQ := fun _ => rfl, curLen := fun _ => rfl
    mineQ := fun _ => rfl, eligibleQ := fun _ => rfl, pickValidQ := rfl, pvalidL := rfl
    pickValidQq := rfl, active := rfl }

/-- Cycles with a ready output. -/
def sampleGenIns (n : ℕ) : List FlowGenIn :=
  List.replicate n { timestamp := 7, statsClear := false, tready := true }

end PacketWyrm
