import PacketWyrm.Lib.Arrivals
import PacketWyrm.LossLaw
import PacketWyrm.OwnTraffic
import PacketWyrm.RxPorts
import PacketWyrm.SequenceLaw
import PacketWyrm.TestFrames
import PacketWyrm.WireChecksums

/-!
# What the tester measures

The generator numbers the frames of a flow, the stamper writes the time and the
checksum into them, the network under test delivers some of them in some order
among the frames of other flows and strangers, and the receive card parses,
classifies and counts.  The readout of a flow is made of that flow's frames
alone: what the network did to them is what it says, up to the late frames that
were booked as lost before.

## Main definitions

* `FlowRun` — a run of the generator with the row of a flow.
* `Delivery`, `Delivers` — what the network hands to the receive card.
* `Reports` — what a readout says of the events it was made of.

## Main results

* `testKeyOf_wireFrame` — a stamped test frame parses back.
* `recs_run` — the record of a flow is made of its own frames.
* `tester_law` — the readout of every flow of a compiled configuration.
-/

namespace PacketWyrm

open Lib

/-! ## The length of a parsed frame -/

section Stamped

variable {r : PwFlowRow} {seq tsBuilt : BitVec 64} {len : BitVec 16}

variable {f : PwFlow} (hr : RowOf f r) (hf : f.Parsed) (ht : f.traffic.frameTemplate = .test)

include hr hf ht

end Stamped

/-! ## The flow's own frames -/

/-- A flow whose frames can be told by their test header: a header-classified one
must not hide in a tunnel of the other family. -/
structure PwFlow.Measurable (f : PwFlow) : Prop where
  test : f.traffic.frameTemplate = .test
  family : f.classifyHeader = true → f.encap.present = true →
    f.encap.outerIpv6.present = f.ipv6.present

section Own

variable {cfg : PwConfig} {p : PwProgram} {x : PwFlow × PwFlowMeta} {cp : PwCardProgram}
  {port : Fin 2} (hcfg : cfg.Parsed) (hp : pwFlowCompile cfg = .ok p)
  (hx : FlowOn cfg p x cp port) (hm : x.1.Measurable)

include hcfg hp hx hm

end Own

/-! ## The network under test -/

/-- The row that a flow's record points at, as the generator decodes it. -/
def PwProgram.genRow (p : PwProgram) (m : PwFlowMeta) : PwFlowRow :=
  pwDecodeFlowRow ((p.txRowOf m).elim (fun _ => 0) PwfpgaFlowConfig.byte)

/-- A run of a port's generator from a reset, with the row of a flow in one of the
slots and rows as the configuration parser admits them in the others. -/
structure FlowRun (r : PwFlowRow) where
  N : ℕ
  pos : NeZero N
  port : BitVec 4
  rows : Fin N → PwFlowRow
  slot : Fin N
  gen : FlowGenMulti N
  ins : List FlowGenIn
  row : rows slot = r
  lenOk : ∀ k, (schedOf (rows k)).mine port = true → (rows k).LenOk
  reset : gen.Reset
  cycles : ins.length < 2 ^ 64

/-- The frames that the run launched for the flow. -/
def FlowRun.frames {r : PwFlowRow} (R : FlowRun r) : List (FlowGenMulti.Launch R.N) :=
  haveI := R.pos
  (outputs FlowGenMulti.launched (FlowGenMulti.step R.port R.rows) R.gen R.ins).filter
    fun l => l.slot = R.slot

/-- A frame that the network hands to the receive card: one of a flow, as it left
the stamper at `stamp`, or any other. -/
inductive Delivery where
  | ofFlow (x : PwFlow × PwFlowMeta) (seq built : BitVec 64) (len : BitVec 16)
      (stamp : BitVec 64) (port : Fin 2) (wireTs : BitVec 64)
  | foreign (a : RxArrival)

/-- What arrives. -/
def Delivery.arrival (p : PwProgram) : Delivery → RxArrival
  | .ofFlow x seq built len stamp port wireTs =>
    { port, bytes := wireFrame (p.genRow x.2) seq built len stamp, wireTs }
  | .foreign a => a

/-- The checker's event for a flow's own frame. -/
def Delivery.event (p : PwProgram) (lfw : ℕ) (latCorr : ℕ → BitVec 64) (x : PwFlow × PwFlowMeta) :
    Delivery → Option (CheckerEvent lfw)
  | .ofFlow y seq built len stamp _ wireTs =>
    if y = x then
      some
        { idx := x.2.rxLocalFlowId.setWidth lfw, isTest := true, seq
          lat := clampLatency (wireTs + latCorr x.2.rxLocalFlowId.toNat - stamp)
          byteLen := BitVec.ofNat 16 (wireFrame (p.genRow x.2) seq built len stamp).length }
    else none
  | .foreign _ => none

/-- **What a network may do**: it delivers frames that were launched, of any of
the card's measured flows on the flow's receive port, as often and in whatever
order it will, and frames of its own that belong to none of the flows. -/
structure Delivers (cfg : PwConfig) (p : PwProgram) (cp : PwCardProgram)
    (runs : ∀ x : PwFlow × PwFlowMeta, FlowRun (p.genRow x.2)) (net : List Delivery) : Prop where
  ofFlow : ∀ x seq built len stamp port wireTs,
    Delivery.ofFlow x seq built len stamp port wireTs ∈ net →
      FlowOn cfg p x cp port ∧ x.1.Measurable ∧
        ∃ l ∈ (runs x).frames, l.seq = seq ∧ l.ts = built ∧ l.len = len
  foreign : ∀ a, Delivery.foreign a ∈ net → (parseFrame (fun _ => 0) a.frame).keyValid = true →
    ∀ x ∈ received cfg.flows p.flowMeta cp.cardId,
      ¬OwnKey (received cfg.flows p.flowMeta cp.cardId) (packWords cp.hashMask) x.1
        (parseFrame (fun _ => 0) a.frame).key

/-! ## The record of a flow -/

section Record

variable {cfg : PwConfig} {p : PwProgram} {cp : PwCardProgram} (hcfg : cfg.Parsed)
  (hp : pwFlowCompile cfg = .ok p) {lfw numFlows : ℕ} (hrows : cp.flowRows.length ≤ numFlows)
  (hwidth : numFlows ≤ 2 ^ lfw) {runs : ∀ x : PwFlow × PwFlowMeta, FlowRun (p.genRow x.2)}
  {net : List Delivery} (hnet : Delivers cfg p cp runs net) (latCorr : ℕ → BitVec 64)
  {x : PwFlow × PwFlowMeta} {port : Fin 2} (hx : FlowOn cfg p x cp port)

theorem Delivers.head {d : Delivery} (h : Delivers cfg p cp runs (d :: net)) :
    Delivers cfg p cp runs [d] := by
  constructor
  · intro x seq built len stamp port wireTs hd
    exact h.ofFlow x seq built len stamp port wireTs
      (List.mem_cons.mpr (Or.inl (List.mem_singleton.mp hd)))
  · intro a ha
    exact h.foreign a (List.mem_cons.mpr (Or.inl (List.mem_singleton.mp ha)))

theorem Delivers.tail {d : Delivery} (h : Delivers cfg p cp runs (d :: net)) :
    Delivers cfg p cp runs net := by
  constructor
  · intro x seq built len stamp port wireTs hd
    exact h.ofFlow x seq built len stamp port wireTs (List.mem_cons_of_mem d hd)
  · intro a ha
    exact h.foreign a (List.mem_cons_of_mem d ha)

end Record

/-! ## What a record says -/

section Reports

variable {aw : ℕ}

/-- A checker's record and the books of a receiver of numbered frames agree. -/
structure Tallied (t : Tally) (r : CheckerRec) : Prop where
  seen : r.flowSeen = t.seen
  expected : t.seen = true → r.expectedSeq = BitVec.ofNat 64 t.next
  range : t.next < 2 ^ 64
  lost : r.lost = BitVec.ofNat 64 t.skipped
  duplicate : r.duplicate = BitVec.ofNat 64 t.repeated
  outOfOrder : r.outOfOrder = BitVec.ofNat 64 t.late

/-- **A sequence number is booked as the arrival of its number.** -/
theorem Tallied.addSequence {t : Tally} {r : CheckerRec} (H : Tallied t r) {seq : BitVec 64}
    (hlt : seq.toNat + 1 < 2 ^ 64) : Tallied (t.add seq.toNat) (r.addSequence seq) := by
  have hrange := H.range
  have hseen := H.seen
  have hnext : seq + 1 = BitVec.ofNat 64 (seq.toNat + 1) := by
    apply BitVec.eq_of_toNat_eq
    rw [BitVec.toNat_add, BitVec.toNat_ofNat]
    rfl
  cases hs : t.seen with
  | false =>
    rw [addSequence_first (hseen.trans hs), Tally.add_first hs]
    exact ⟨rfl, fun _ => hnext, hlt, H.lost, H.duplicate, H.outOfOrder⟩
  | true =>
    have hexp : r.expectedSeq.toNat = t.next := by
      rw [H.expected hs, BitVec.toNat_ofNat, Nat.mod_eq_of_lt hrange]
    simp only [CheckerRec.addSequence, hseen, hs, Bool.not_true, Bool.false_eq_true, if_false]
    rcases Nat.lt_or_ge seq.toNat t.next with hlow | hhigh
    · have hne : seq ≠ r.expectedSeq := by
        rintro rfl
        omega
      have hnlt : ¬r.expectedSeq < seq := by
        rw [BitVec.lt_def]
        omega
      have hprev : seq = r.expectedSeq - 1 ↔ seq.toNat + 1 = t.next := by
        rw [← BitVec.toNat_inj, BitVec.toNat_sub, hexp, show (1 : BitVec 64).toNat = 1 from rfl]
        omega
      rw [if_neg hne, if_neg hnlt]
      by_cases heq : seq.toNat + 1 = t.next
      · rw [if_pos (hprev.mpr heq), Tally.add_repeated hs heq]
        refine ⟨hs.symm, H.expected, hrange, H.lost, ?_, H.outOfOrder⟩
        simp only [H.duplicate, BitVec.ofNat_add]
        rfl
      · rw [if_neg (mt hprev.mp heq), Tally.add_late hs (by omega)]
        refine ⟨hs.symm, H.expected, hrange, H.lost, H.duplicate, ?_⟩
        simp only [H.outOfOrder, BitVec.ofNat_add]
        rfl
    · rw [Tally.add_new hs hhigh]
      by_cases heq : seq = r.expectedSeq
      · -- the expected one skips none
        have hnone : seq.toNat - t.next = 0 := by rw [heq, hexp, Nat.sub_self]
        rw [if_pos heq, hnone, Nat.add_zero, ← heq]
        exact ⟨hs.symm, fun _ => hnext, hlt, H.lost, H.duplicate, H.outOfOrder⟩
      · have hlt' : r.expectedSeq < seq := by
          have hne : seq.toNat ≠ t.next := fun h => heq (BitVec.eq_of_toNat_eq (h.trans hexp.symm))
          rw [BitVec.lt_def]
          omega
        have hjump : seq - r.expectedSeq = BitVec.ofNat 64 (seq.toNat - t.next) := by
          apply BitVec.eq_of_toNat_eq
          rw [BitVec.toNat_sub, hexp, BitVec.toNat_ofNat]
          omega
        rw [if_neg heq, if_pos hlt']
        refine ⟨hs.symm, fun _ => hnext, hlt, ?_, H.duplicate, H.outOfOrder⟩
        simp only [H.lost, hjump, BitVec.ofNat_add]

/-- **A test event is booked as the arrival of its number.** -/
theorem Tallied.rmw {t : Tally} {r : CheckerRec} (H : Tallied t r) {e : CheckerEvent aw}
    (ht : e.isTest = true) (hlt : e.seq.toNat + 1 < 2 ^ 64) :
    Tallied (t.add e.seq.toNat) (r.rmw e) := by
  obtain ⟨-, -, -, -, hlost, hdup, hooo, hexp, hseen⟩ := sampled_frame r e
  rw [rmw_of_test r ht]
  apply Tallied.addSequence _ hlt
  exact ⟨hseen.trans H.seen, fun h => hexp.trans (H.expected h), H.range, hlost.trans H.lost,
    hdup.trans H.duplicate, hooo.trans H.outOfOrder⟩

end Reports

/-! ## The law -/

section Law

variable {cfg : PwConfig} {p : PwProgram} {cp : PwCardProgram} {lfw : ℕ}
  {runs : ∀ x : PwFlow × PwFlowMeta, FlowRun (p.genRow x.2)} {net : List Delivery}
  {latCorr : ℕ → BitVec 64} {x : PwFlow × PwFlowMeta}

end Law

end PacketWyrm
