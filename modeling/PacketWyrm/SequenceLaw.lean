import PacketWyrm.FlowGenMulti

/-!
# Sequence numbers, lengths and frames of the generator

The sequence number and the length of a frame are read two stages before its
launch and moved on at the launch, so a launch has to see what the one before it
has written.  It does: a frame has at least two beats, and the pipeline is two
stages deep.

## Main definitions

* `sweepLen` — the lengths of a flow's frames.
* `FlowGenMulti.Fresh` — what the pipeline holds of the slots' state.
* `FlowGenMulti.pending` — the beats of the frame in flight that are still to come.

## Main results

* `FlowGenMulti.Fresh.step` — the stages are fresh when they are used.
* `generator_law` — each slot counts 0, 1, 2, … and sweeps its lengths, and the
  stream is the frames that were launched, one whole after the other.
-/

namespace PacketWyrm

open Lib

/-! ## Lengths -/

/-- The range that the configuration parser enforces on a row's lengths. -/
structure PwFlowRow.LenOk (r : PwFlowRow) : Prop where
  le : r.frameLenMin.toNat ≤ r.frameLenMax.toNat
  max : r.frameLenMax.toNat ≤ 1518

/-- The length of a flow's frame `n`: from the minimum in steps up to the maximum,
and from the minimum again. -/
def sweepLen (r : PwFlowRow) : ℕ → ℕ
  | 0 => r.frameLenMin.toNat
  | n + 1 =>
    if r.frameLenMax.toNat < sweepLen r n + r.frameLenStep.toNat then r.frameLenMin.toNat
    else sweepLen r n + r.frameLenStep.toNat

/-- **A sweep stays in its range.** -/
theorem sweepLen_range {r : PwFlowRow} (h : r.LenOk) (n : ℕ) :
    r.frameLenMin.toNat ≤ sweepLen r n ∧ sweepLen r n ≤ r.frameLenMax.toNat := by
  have hle := h.le
  induction n with
  | zero => exact ⟨Nat.le_refl _, hle⟩
  | succ n ih =>
    rw [sweepLen]
    split
    · exact ⟨Nat.le_refl _, hle⟩
    · omega

/-- The length that is used is in the range. -/
theorem effLen_mem {lo hi : BitVec 16} (h : lo.toNat ≤ hi.toNat) (cur : BitVec 16) :
    lo.toNat ≤ (effLen lo hi cur).toNat ∧ (effLen lo hi cur).toNat ≤ hi.toNat := by
  simp only [effLen, BitVec.lt_def]
  split
  · exact ⟨Nat.le_refl _, h⟩
  · omega

/-- A length in the range is used as it is. -/
theorem effLen_of_mem {lo hi cur : BitVec 16} (h : lo.toNat ≤ cur.toNat ∧ cur.toNat ≤ hi.toNat) :
    effLen lo hi cur = cur := by
  simp only [effLen, BitVec.lt_def]
  rw [if_neg]
  omega

/-- The next length of a sweep, as a number. -/
theorem toNat_nextLen (r : PwFlowRow) (eff : BitVec 16) :
    (nextLen (schedOf r) eff).toNat =
      if r.frameLenMax.toNat < eff.toNat + r.frameLenStep.toNat then r.frameLenMin.toNat
      else eff.toNat + r.frameLenStep.toNat := by
  have hsum : (eff.setWidth 17 + r.frameLenStep.setWidth 17).toNat =
      eff.toNat + r.frameLenStep.toNat := by
    rw [BitVec.toNat_add, BitVec.toNat_setWidth, BitVec.toNat_setWidth]
    omega
  have hmax : (r.frameLenMax.setWidth 17).toNat = r.frameLenMax.toNat := by
    rw [BitVec.toNat_setWidth]
    omega
  simp only [nextLen, schedOf, BitVec.lt_def, hsum, hmax]
  split
  · rfl
  · rw [BitVec.toNat_setWidth, hsum]
    omega

/-! ## The frame that is built -/

/-- The headers take between 14 and 134 bytes. -/
theorem length_layers_range (r : PwFlowRow) (seq : BitVec 64) (g : GenFields)
    (payLen : BitVec 12) :
    14 ≤ (layers r seq g payLen).length ∧ (layers r seq g payLen).length ≤ 134 := by
  have heth := length_ethLayer r g
  have hlink := length_linkLayer r g payLen
  have hip := length_ipLayer r g payLen
  have hl4 := length_l4Layer r seq g payLen
  have hencap : encapHdrLen r.encapType ≤ 16 := by
    rw [encapHdrLen]
    split_ifs <;> omega
  have hiphl : r.ipHl ≤ 40 := by
    rw [PwFlowRow.ipHl]
    split_ifs <;> omega
  have hl4hl : r.l4Hl ≤ 20 := by
    rw [PwFlowRow.l4Hl]
    split_ifs <;> omega
  simp only [layers]
  split_ifs <;> simp only [List.length_append] <;> split_ifs at heth hlink <;> omega

/-- A payload is no longer than the frame. -/
theorem payLenOf_le (tmpl : BitVec 2) (ovh : BitVec 12) (eff : BitVec 16) :
    (payLenOf tmpl ovh eff).toNat ≤ max eff.toNat 32 := by
  have hfloor := payFloor_toNat_le tmpl
  rw [payLenOf]
  split
  · rename_i hlt
    rw [BitVec.lt_def, BitVec.toNat_add, BitVec.toNat_setWidth, BitVec.toNat_setWidth] at hlt
    have hovh : ovh.toNat < 4096 := ovh.isLt
    rw [BitVec.toNat_setWidth, BitVec.toNat_sub, BitVec.toNat_setWidth]
    omega
  · omega

/-- The length of a frame with a payload of at most 1518 bytes. -/
theorem frameLen_build (r : PwFlowRow) (seq ts : BitVec 64) (g : GenFields) {payLen : BitVec 12}
    (h : payLen.toNat ≤ 1518) :
    14 ≤ (build r seq ts g payLen).frameLen.toNat ∧
      (build r seq ts g payLen).frameLen.toNat ≤ 1652 := by
  have hrange := length_layers_range r seq g payLen
  rw [build, BitVec.toNat_ofNat]
  omega

namespace FlowGenMulti

variable {N : ℕ} {port : BitVec 4} {rows : Fin N → PwFlowRow} {s : FlowGenMulti N}

/-- `eff_len_a` for a slot. -/
def slotLen (rows : Fin N → PwFlowRow) (s : FlowGenMulti N) (k : Fin N) : BitVec 16 :=
  effLen (rows k).frameLenMin (rows k).frameLenMax (s.curLen k)

/-- `paylen_a` for a length of a slot. -/
def slotPay (rows : Fin N → PwFlowRow) (k : Fin N) (len : BitVec 16) : BitVec 12 :=
  payLenOf (rows k).frameTemplate (BitVec.ofNat 12 (pwFrameBytes (rows k) 0)) len

/-- What the stages hold of the picked slots.  Stage A may be older than a launch of
the cycle before, which shows as a frame at its first beat; stage B, which is used
when no frame is in flight, is not. -/
structure Fresh (port : BitVec 4) (rows : Fin N → PwFlowRow) (s : FlowGenMulti N) : Prop where
  mine : s.Mine port rows
  rowL : s.pvalidL = true → s.rowL = rows s.pickL ∧ s.paylenL = slotPay rows s.pickL s.effLenL
  freshL : s.pvalidL = true → ¬(s.active = true ∧ s.byteOff = 0) →
    s.seqL = s.sequenceQ s.pickL ∧ s.effLenL = slotLen rows s s.pickL
  rowQq : s.pickValidQq = true → s.rowQq = rows s.pickQq ∧
    s.paylenQ = slotPay rows s.pickQq s.effLenQq ∧
    s.fieldsQ = precompute s.rowQq s.seqQq s.paylenQ
  freshQq : s.pickValidQq = true → s.active = false →
    s.seqQq = s.sequenceQ s.pickQq ∧ s.effLenQq = slotLen rows s s.pickQq
  frame : s.active = true → 14 ≤ s.fb.frameLen.toNat ∧ s.fb.frameLen.toNat ≤ 1652 ∧
    s.byteOff.toNat % 8 = 0 ∧ s.byteOff.toNat < s.fb.frameLen.toNat

theorem Reset.fresh (h : s.Reset) : s.Fresh port rows := by
  constructor
  · exact h.mine
  · simp [h.pvalidL]
  · simp [h.pvalidL]
  · simp [h.pickValidQq]
  · simp [h.pickValidQq]
  · simp [h.active]

/-- The last beat, by the numbers. -/
theorem last_eq (h : s.byteOff.toNat ≤ s.fb.frameLen.toNat) :
    s.last = (s.active && decide (s.fb.frameLen.toNat ≤ s.byteOff.toNat + 8)) := by
  have hsub : (s.fb.frameLen - s.byteOff).toNat = s.fb.frameLen.toNat - s.byteOff.toNat :=
    BitVec.toNat_sub_of_le (BitVec.le_def.mpr h)
  have hle : s.fb.frameLen - s.byteOff ≤ 8 ↔ s.fb.frameLen.toNat ≤ s.byteOff.toNat + 8 := by
    rw [BitVec.le_def, hsub]
    show _ ≤ 8 ↔ _
    omega
  simp only [last, hle]

section Launch

variable (h : s.Fresh port rows) (hl : s.launch = true)

include hl

theorem not_active_of_launch : s.active = false ∧ s.pickValidQq = true ∧ s.start = true := by
  rw [launch, Bool.and_eq_true] at hl
  have hstart := hl.1
  rw [start, Bool.and_eq_true, Bool.not_eq_true'] at hstart
  exact ⟨hstart.1, hstart.2, hl.1⟩

include h

/-- What a launch uses is what its slot holds. -/
theorem Fresh.of_launch :
    s.seqQq = s.sequenceQ s.pickQq ∧ s.effLenQq = slotLen rows s s.pickQq := by
  obtain ⟨hact, hvalid, -⟩ := not_active_of_launch hl
  exact h.freshQq hvalid hact

variable (hrows : ∀ k, (schedOf (rows k)).mine port = true → (rows k).LenOk)

include hrows

theorem Fresh.lenOk : (rows s.pickQq).LenOk :=
  hrows _ (h.mine.mineQ _ (h.mine.of_launch hl))

/-- The length of a launch is in its slot's range. -/
theorem Fresh.effLenQq_mem :
    (rows s.pickQq).frameLenMin.toNat ≤ s.effLenQq.toNat ∧
      s.effLenQq.toNat ≤ (rows s.pickQq).frameLenMax.toNat := by
  rw [(h.of_launch hl).2]
  exact effLen_mem (h.lenOk hl hrows).le _

/-- The frame that a launch builds. -/
theorem Fresh.build_eq (ts : BitVec 64) :
    (build s.rowQq s.seqQq ts s.fieldsQ s.paylenQ).bytes =
      genFrame (rows s.pickQq) s.seqQq ts s.effLenQq := by
  obtain ⟨-, hvalid, -⟩ := not_active_of_launch hl
  obtain ⟨hrow, hpay, hfields⟩ := h.rowQq hvalid
  have hlen : (rows s.pickQq).payLen s.effLenQq = s.paylenQ := by
    rw [PwFlowRow.payLen, effLen_of_mem (h.effLenQq_mem hl hrows), hpay]
    rfl
  rw [genFrame, hlen, hfields, hrow]

theorem Fresh.frameLen_build (ts : BitVec 64) :
    14 ≤ (build s.rowQq s.seqQq ts s.fieldsQ s.paylenQ).frameLen.toNat ∧
      (build s.rowQq s.seqQq ts s.fieldsQ s.paylenQ).frameLen.toNat ≤ 1652 := by
  obtain ⟨-, hvalid, -⟩ := not_active_of_launch hl
  obtain ⟨-, hpay, -⟩ := h.rowQq hvalid
  apply PacketWyrm.frameLen_build
  rw [hpay]
  have hle := payLenOf_le (rows s.pickQq).frameTemplate
    (BitVec.ofNat 12 (pwFrameBytes (rows s.pickQq) 0)) s.effLenQq
  have hmem := h.effLenQq_mem hl hrows
  have hmax := (h.lenOk hl hrows).max
  exact hle.trans (by omega)

end Launch

/-- The end of a beat that is not the last is inside the frame. -/
theorem Fresh.byteOff_add (h : s.Fresh port rows) (ha : s.active = true)
    (hlast : s.last = false) :
    s.byteOff.toNat + 8 < s.fb.frameLen.toNat ∧ (s.byteOff + 8).toNat = s.byteOff.toNat + 8 := by
  obtain ⟨-, hle, -, hlt⟩ := h.frame ha
  rw [last_eq hlt.le, ha, Bool.true_and, decide_eq_false_iff_not] at hlast
  have hsum : (s.byteOff + 8).toNat = (s.byteOff.toNat + 8) % 4096 := BitVec.toNat_add _ _
  omega

/-- A frame does not end with its first beat. -/
theorem Fresh.not_finish_of_zero (h : s.Fresh port rows) (ha : s.active = true)
    (hoff : s.byteOff = 0) (i : FlowGenIn) : s.finish i = false := by
  obtain ⟨hmin, -, -, hlt⟩ := h.frame ha
  have hzero : s.byteOff.toNat = 0 := by
    rw [hoff]
    rfl
  have hlast : s.last = false := by
    rw [last_eq hlt.le, ha, Bool.true_and, decide_eq_false_iff_not]
    omega
  rw [finish, hlast, Bool.and_false]

section Step

variable [NeZero N] (port rows) (i : FlowGenIn)

/-- Without a launch the slots keep their numbers and lengths. -/
theorem step_of_not_launch (hl : s.launch = false) :
    (s.step port rows i).sequenceQ = s.sequenceQ ∧ (s.step port rows i).curLen = s.curLen := by
  simp [step, hl]

/-- A launch starts its frame at the first beat. -/
theorem step_of_launch (hl : s.launch = true) :
    (s.step port rows i).active = true ∧ (s.step port rows i).byteOff = 0 ∧
      (s.step port rows i).fb = build s.rowQq s.seqQq i.timestamp s.fieldsQ s.paylenQ := by
  have hstart := (not_active_of_launch hl).2.2
  simp [step, hl, hstart]

/-- The generator is free after a cycle that finishes a frame or has none. -/
theorem active_step_of_not_launch (hl : s.launch = false) :
    (s.step port rows i).active = (s.active && !s.finish i) := by
  cases hfin : s.finish i <;> simp [step, hl, hfin]

/-- A frame in flight stays in the buffer. -/
theorem fb_step_of_active (ha : s.active = true) :
    s.launch = false ∧ (s.step port rows i).fb = s.fb := by
  have hstart : s.start = false := by simp [start, ha]
  constructor
  · rw [launch, hstart, Bool.false_and]
  · simp [step, hstart]

/-- A frame in flight moves on by a beat when one is taken. -/
theorem byteOff_step_of_active (ha : s.active = true) :
    (s.step port rows i).byteOff =
      if i.tready = true ∧ s.last = false then s.byteOff + 8 else s.byteOff := by
  have hl := (fb_step_of_active port rows i ha).1
  simp [step, hl, ha]

variable {port rows}

/-- **The stages stay fresh.** -/
theorem Fresh.step (h : s.Fresh port rows)
    (hrows : ∀ k, (schedOf (rows k)).mine port = true → (rows k).LenOk) (i : FlowGenIn) :
    (s.step port rows i).Fresh port rows := by
  constructor
  case mine => exact h.mine.step i
  case rowL =>
    intro _
    exact ⟨rfl, rfl⟩
  case freshL =>
    intro _ hfirst
    -- a launch would show as a frame at its first beat
    have hl : s.launch = false := by
      rw [Bool.eq_false_iff]
      intro hl
      obtain ⟨ha, hoff, -⟩ := step_of_launch port rows i hl
      exact hfirst ⟨ha, hoff⟩
    obtain ⟨hseq, hlen⟩ := step_of_not_launch port rows i hl
    rw [slotLen, hseq, hlen]
    exact ⟨rfl, rfl⟩
  case rowQq =>
    intro hv
    obtain ⟨hrow, hpay⟩ := h.rowL hv
    exact ⟨hrow, hpay, rfl⟩
  case freshQq =>
    intro hv hact
    have hl : s.launch = false := by
      rw [Bool.eq_false_iff]
      intro hl
      rw [(step_of_launch port rows i hl).1] at hact
      cases hact
    -- the frame that ends here, if any, is past its first beat
    have hfirst : ¬(s.active = true ∧ s.byteOff = 0) := by
      intro hf
      rw [active_step_of_not_launch port rows i hl, hf.1, h.not_finish_of_zero hf.1 hf.2 i] at hact
      cases hact
    obtain ⟨hseq, hlen⟩ := step_of_not_launch port rows i hl
    rw [slotLen, hseq, hlen]
    exact h.freshL hv hfirst
  case frame =>
    intro hact
    by_cases hl : s.launch = true
    · obtain ⟨-, hoff, hfb⟩ := step_of_launch port rows i hl
      have hlen := h.frameLen_build hl hrows i.timestamp
      rw [hoff, hfb]
      refine ⟨hlen.1, hlen.2, rfl, ?_⟩
      exact Nat.lt_of_lt_of_le (by decide) hlen.1
    · have hl' : s.launch = false := by simpa using hl
      rw [active_step_of_not_launch port rows i hl', Bool.and_eq_true] at hact
      obtain ⟨hmin, hmax, hmod, hlt⟩ := h.frame hact.1
      rw [(fb_step_of_active port rows i hact.1).2, byteOff_step_of_active port rows i hact.1]
      split
      · rename_i htake
        obtain ⟨hin, hsum⟩ := h.byteOff_add hact.1 htake.2
        rw [hsum]
        exact ⟨hmin, hmax, by omega, hin⟩
      · exact ⟨hmin, hmax, hmod, hlt⟩

end Step

/-! ## The stream -/

/-- The beats of the frame in flight that are still to come. -/
def pending (s : FlowGenMulti N) : List Beat :=
  if s.active then (axisBeats s.fb.bytes).drop (s.byteOff.toNat / 8) else []

/-- The beats of a frame that starts. -/
def Launch.beats (rows : Fin N → PwFlowRow) (x : Launch N) : List Beat :=
  axisBeats (genFrame (rows x.slot) x.seq x.ts x.len)

theorem length_bytes (b : BuiltFrame) : b.bytes.length = b.frameLen.toNat := by
  rw [BuiltFrame.bytes, List.length_map, List.length_range]

theorem getD_bytes (b : BuiltFrame) (i : ℕ) :
    b.bytes.getD i 0 = if i < b.frameLen.toNat then b.header.getD i 0 else 0 := by
  split
  · rename_i hi
    simp [BuiltFrame.bytes, List.getD_eq_getElem?_getD, hi]
  · rename_i hi
    rw [List.getD_eq_getElem?_getD, List.getElem?_eq_none (by rw [length_bytes]; omega)]
    rfl

/-- What stands on the stream is the frame's beat. -/
theorem Fresh.beat_eq (h : s.Fresh port rows) (ha : s.active = true) :
    s.beat = axisBeat s.fb.bytes s.byteOff.toNat := by
  obtain ⟨-, hmax, -, hlt⟩ := h.frame ha
  have hgb (k : ℕ) (hk : k < 8) :
      (s.byteOff + BitVec.ofNat 12 k).toNat = s.byteOff.toNat + k := by
    rw [BitVec.toNat_add, BitVec.toNat_ofNat]
    omega
  rw [beat, axisBeat, last_eq hlt.le, length_bytes, ha, Bool.true_and]
  congr 1
  · apply lanes_congr
    intro k hk
    simp only [BitVec.lt_def]
    rw [hgb k hk, getD_bytes]
  · congr 1
    funext k
    simp only [BitVec.lt_def]
    rw [hgb k k.isLt]

/-- **A cycle sends the next beat of the frame in flight**, and a launch puts a whole
frame behind it. -/
theorem Fresh.pending_step [NeZero N] (h : s.Fresh port rows)
    (hrows : ∀ k, (schedOf (rows k)).mine port = true → (rows k).LenOk) (i : FlowGenIn) :
    (s.sent i).toList ++ (s.step port rows i).pending =
      s.pending ++ (s.launched i).toList.flatMap (Launch.beats rows) := by
  by_cases hl : s.launch = true
  · obtain ⟨ha, -, -⟩ := not_active_of_launch hl
    obtain ⟨ha', hoff, hfb⟩ := step_of_launch port rows i hl
    have hframe := h.build_eq hl hrows i.timestamp
    simp [sent, pending, launched, Launch.beats, ha, ha', hoff, hfb, hl, hframe]
  · have hl' : s.launch = false := by simpa using hl
    have hact := active_step_of_not_launch port rows i hl'
    rw [launched, if_neg hl, Option.toList_none, List.flatMap_nil, List.append_nil]
    by_cases ha : s.active = true
    · obtain ⟨-, hmax, hmod, hlt⟩ := h.frame ha
      have hoff := byteOff_step_of_active port rows i ha
      have hfb := (fb_step_of_active port rows i ha).2
      have hoff8 : 8 * (s.byteOff.toNat / 8) = s.byteOff.toNat := by omega
      rw [sent, pending, pending, hact, hfb, hoff, ha, Bool.true_and, Bool.true_and, if_pos rfl]
      cases htr : i.tready with
      | false => simp [finish, htr]
      | true =>
        have hhead : (axisBeats s.fb.bytes).drop (s.byteOff.toNat / 8) =
            s.beat :: (axisBeats s.fb.bytes).drop (s.byteOff.toNat / 8 + 1) := by
          rw [h.beat_eq ha, drop_axisBeats (by rw [length_bytes]; omega), hoff8]
        rw [hhead]
        cases hlast : s.last with
        | false =>
          obtain ⟨-, hsum⟩ := h.byteOff_add ha hlast
          have hdiv : (s.byteOff.toNat + 8) / 8 = s.byteOff.toNat / 8 + 1 := by omega
          have hmore : s.finish i = false := by rw [finish, hlast, Bool.and_false]
          rw [hmore, Bool.not_false, if_pos rfl, if_pos rfl, if_pos ⟨rfl, rfl⟩, hsum, hdiv]
          rfl
        | true =>
          have hend : s.fb.bytes.length ≤ 8 * (s.byteOff.toNat / 8) + 8 := by
            rw [last_eq hlt.le, ha, Bool.true_and, decide_eq_true_iff] at hlast
            rw [length_bytes]
            omega
          rw [drop_axisBeats_of_last hend]
          simp [finish, ha, htr, hlast]
    · have ha' : s.active = false := by simpa using ha
      simp [sent, pending, hact, ha']

/-- **The stream of a run is the frames that were launched**, up to the beats of the
last one that are still to come. -/
theorem Fresh.stream [NeZero N] (h : s.Fresh port rows)
    (hrows : ∀ k, (schedOf (rows k)).mine port = true → (rows k).LenOk) (l : List FlowGenIn) :
    outputs sent (FlowGenMulti.step port rows) s l ++
        (run (FlowGenMulti.step port rows) s l).pending =
      s.pending ++ (outputs launched (FlowGenMulti.step port rows) s l).flatMap
        (Launch.beats rows) := by
  induction l generalizing s with
  | nil => simp
  | cons i l ih =>
    rw [outputs_cons, outputs_cons, run_cons, List.append_assoc, ih (h.step hrows i),
      ← List.append_assoc, h.pending_step hrows i, List.flatMap_append, List.append_assoc]

/-! ## Numbers and lengths -/

/-- A slot is at frame `n`: its sequence number and its length are that frame's. -/
structure SlotAt (port : BitVec 4) (rows : Fin N → PwFlowRow) (s : FlowGenMulti N) (k : Fin N)
    (n : ℕ) : Prop where
  seq : s.sequenceQ k = BitVec.ofNat 64 n
  len : (schedOf (rows k)).mine port = true → (slotLen rows s k).toNat = sweepLen (rows k) n

theorem Reset.slotAt (h : s.Reset) (k : Fin N) : s.SlotAt port rows k 0 := by
  constructor
  · exact h.sequenceQ k
  · intro _
    rw [slotLen, h.curLen k, effLen, sweepLen]
    split
    · rfl
    · rename_i hmem
      rw [not_or, BitVec.lt_def] at hmem
      have hzero : (0 : BitVec 16).toNat = 0 := rfl
      omega

/-- A cycle without a launch of the slot leaves it where it is. -/
theorem SlotAt.step_other [NeZero N] {k : Fin N} {n : ℕ} (h : s.SlotAt port rows k n)
    (i : FlowGenIn) (hk : ¬(s.launch = true ∧ s.pickQq = k)) :
    (s.step port rows i).SlotAt port rows k n := by
  have hstep : (s.step port rows i).sequenceQ k = s.sequenceQ k ∧
      (s.step port rows i).curLen k = s.curLen k := by
    by_cases hl : s.launch = true
    · have hne : k ≠ s.pickQq := fun hkq => hk ⟨hl, hkq.symm⟩
      simp [step, hl, hne]
    · simp [step, hl]
  constructor
  · rw [hstep.1, h.seq]
  · intro hm
    rw [slotLen, hstep.2]
    exact h.len hm

/-- **A launch of the slot is its frame `n`**, and the slot goes on to the next. -/
theorem SlotAt.step_launch [NeZero N] {n : ℕ} (h : s.SlotAt port rows s.pickQq n)
    (hf : s.Fresh port rows)
    (hrows : ∀ k, (schedOf (rows k)).mine port = true → (rows k).LenOk) (i : FlowGenIn)
    (hl : s.launch = true) :
    s.seqQq = BitVec.ofNat 64 n ∧ s.effLenQq.toNat = sweepLen (rows s.pickQq) n ∧
      (s.step port rows i).SlotAt port rows s.pickQq (n + 1) := by
  obtain ⟨hseq, hlen⟩ := hf.of_launch hl
  have hmine := hf.mine.mineQ _ (hf.mine.of_launch hl)
  have heff : s.effLenQq.toNat = sweepLen (rows s.pickQq) n := by
    rw [hlen]
    exact h.len hmine
  have hseqn : s.seqQq = BitVec.ofNat 64 n := by
    rw [hseq]
    exact h.seq
  refine ⟨hseqn, heff, ?_⟩
  constructor
  · have hnext : (s.step port rows i).sequenceQ s.pickQq = s.seqQq + 1 := by simp [step, hl]
    rw [hnext, hseqn, BitVec.ofNat_add]
    rfl
  · intro _
    have hnext : (s.step port rows i).curLen s.pickQq =
        nextLen (schedOf (rows s.pickQq)) s.effLenQq := by simp [step, hl]
    have hsweep : (nextLen (schedOf (rows s.pickQq)) s.effLenQq).toNat =
        sweepLen (rows s.pickQq) (n + 1) := by
      rw [toNat_nextLen, heff, sweepLen]
    have hrange := sweepLen_range (hf.lenOk hl hrows) (n + 1)
    rw [slotLen, hnext, effLen_of_mem, hsweep]
    rw [hsweep]
    exact hrange

/-- The launches of a slot in a run, from frame `n` on. -/
theorem SlotAt.launches [NeZero N] {k : Fin N} {n : ℕ} (h : s.SlotAt port rows k n)
    (hf : s.Fresh port rows)
    (hrows : ∀ k, (schedOf (rows k)).mine port = true → (rows k).LenOk) (l : List FlowGenIn) :
    ∃ m, ((outputs launched (FlowGenMulti.step port rows) s l).filter fun x => x.slot = k).map
        (fun x => (x.seq, x.len.toNat)) =
      (List.range' n m).map fun j => (BitVec.ofNat 64 j, sweepLen (rows k) j) := by
  induction l generalizing s n with
  | nil => exact ⟨0, rfl⟩
  | cons i l ih =>
    rw [outputs_cons, List.filter_append, List.map_append, launched]
    by_cases hk : s.launch = true ∧ s.pickQq = k
    · obtain ⟨hl, hk⟩ := hk
      subst hk
      obtain ⟨hseq, hlen, hnext⟩ := h.step_launch hf hrows i hl
      obtain ⟨m, hm⟩ := ih hnext (hf.step hrows i)
      refine ⟨m + 1, ?_⟩
      rw [hm, List.range'_succ, List.map_cons]
      simp [hl, hseq, hlen]
    · obtain ⟨m, hm⟩ := ih (h.step_other i hk) (hf.step hrows i)
      refine ⟨m, ?_⟩
      rw [hm]
      by_cases hl : s.launch = true
      · have hne : s.pickQq ≠ k := fun hkq => hk ⟨hl, hkq⟩
        simp [hl, hne]
      · simp [hl]

end FlowGenMulti

/-- The rows that are compiled from a parsed configuration keep to the range. -/
theorem lenOk_txRow {f : PwFlow} (hf : f.Parsed) (egress : BitVec 8) (lfid : BitVec 32)
    (same : Bool) : (txRow f egress lfid same).decoded.LenOk := by
  have hrow := rowOf_txRow hf egress lfid same
  constructor
  · rw [hrow.frameLenMin, hrow.frameLenMax]
    exact hf.lenLe
  · rw [hrow.frameLenMax]
    exact hf.lenHi

/-- **The sequence and length law of the generator.**  From a reset, with rows as the
configuration parser admits them, whatever is picked and however the output stalls:
the frames of a slot are numbered 0, 1, 2, … and have the lengths of its sweep, which
stays in the row's range; and the stream is the frames that were launched, each
whole before the next, up to the rest of the frame in flight. -/
theorem generator_law {N : ℕ} [NeZero N] {port : BitVec 4} {rows : Fin N → PwFlowRow}
    (hrows : ∀ k, (schedOf (rows k)).mine port = true → (rows k).LenOk) {s : FlowGenMulti N}
    (hs : s.Reset) (l : List FlowGenIn) :
    (∀ k, ∃ n, ((outputs FlowGenMulti.launched (FlowGenMulti.step port rows) s l).filter
          fun x => x.slot = k).map (fun x => (x.seq, x.len.toNat)) =
        (List.range n).map fun j => (BitVec.ofNat 64 j, sweepLen (rows k) j)) ∧
    (∀ k, (schedOf (rows k)).mine port = true → ∀ n,
      (rows k).frameLenMin.toNat ≤ sweepLen (rows k) n ∧
        sweepLen (rows k) n ≤ (rows k).frameLenMax.toNat) ∧
    outputs FlowGenMulti.sent (FlowGenMulti.step port rows) s l ++
        (run (FlowGenMulti.step port rows) s l).pending =
      (outputs FlowGenMulti.launched (FlowGenMulti.step port rows) s l).flatMap fun x =>
        axisBeats (genFrame (rows x.slot) x.seq x.ts x.len) := by
  have hf : s.Fresh port rows := hs.fresh
  refine ⟨?_, ?_, ?_⟩
  · intro k
    obtain ⟨n, hn⟩ := (hs.slotAt k).launches hf hrows l
    refine ⟨n, ?_⟩
    rw [hn, List.range_eq_range']
  · intro k hk n
    exact sweepLen_range (hrows k hk) n
  · have hstream := hf.stream hrows l
    have hnone : s.pending = [] := by simp [FlowGenMulti.pending, hs.active]
    rw [hnone, List.nil_append] at hstream
    exact hstream

theorem lenOk_sampleGenRow : sampleGenRow.LenOk := by
  constructor
  · decide +kernel
  · decide +kernel

/-- The first frame is launched in the eighth cycle, and its beats are what is sent. -/
theorem generator_law_sample :
    (outputs FlowGenMulti.launched (FlowGenMulti.step 0 fun _ => sampleGenRow) sampleGen
        (sampleGenIns 8)).map (fun x => (x.slot, x.seq, x.len)) = [(0, 0, 128)] ∧
      outputs FlowGenMulti.sent (FlowGenMulti.step 0 fun _ => sampleGenRow) sampleGen
          (sampleGenIns 20) ++
          (run (FlowGenMulti.step 0 fun _ => sampleGenRow) sampleGen (sampleGenIns 20)).pending =
        (outputs FlowGenMulti.launched (FlowGenMulti.step 0 fun _ => sampleGenRow) sampleGen
          (sampleGenIns 20)).flatMap fun x =>
            axisBeats (genFrame sampleGenRow x.seq x.ts x.len) := by
  have hrows : ∀ k : Fin 2, (schedOf ((fun _ => sampleGenRow) k)).mine 0 = true →
      ((fun _ => sampleGenRow) k).LenOk :=
    fun _ _ => lenOk_sampleGenRow
  exact ⟨by decide +kernel, (generator_law hrows reset_sampleGen (sampleGenIns 20)).2.2⟩

end PacketWyrm
