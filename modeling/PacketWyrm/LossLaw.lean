import PacketWyrm.CheckerBram

/-!
# Loss accounting

Every test event either moves the expected sequence number forward, by one and
the numbers it skips, or is counted as a duplicate or as out of order.  So
whatever the order of arrival, the events and the numbers given up for lost make
up the range of numbers seen, with the duplicates and the latecomers on top.

## Main definitions

* `LossLaw` — the law of a record and the events it was made of.

## Main results

* `lossLaw_rmw` — one event keeps the law.
* `loss_accounting` — the law of every record in the checker's memory.
-/

namespace PacketWyrm

open Lib

variable {aw : ℕ}

/-- The events with a test header. -/
def testEvents (es : List (CheckerEvent aw)) : List (CheckerEvent aw) := es.filter (·.isTest)

/-- The first sequence number, of a nonempty list of test events. -/
def firstSeq (es : List (CheckerEvent aw)) : BitVec 64 := (es.head?.map (·.seq)).getD 0

/-- **The law of a record after these test events**: the number of samples, the
balance of the loss counters, the range of the latencies and their sum, all in
the counters' own widths. -/
structure LossLaw (es : List (CheckerEvent aw)) (r : CheckerRec) : Prop where
  samples : r.sampleCount = BitVec.ofNat 64 es.length
  balance : r.sampleCount + r.lost =
    (r.expectedSeq - firstSeq es) + r.duplicate + r.outOfOrder
  latency : ∀ e ∈ es, r.minLatency.setWidth 64 ≤ e.lat ∧ e.lat ≤ r.maxLatency.setWidth 64
  sum : r.sumLatency = (es.map (·.lat)).sum
  seen : r.flowSeen = !es.isEmpty
  fresh : es = [] → r.expectedSeq = 0

/-! ## Latencies -/

/-- A clamped latency fits its 32-bit registers. -/
theorem clampLatency_lt (raw : BitVec 64) : (clampLatency raw).toNat < 2 ^ 32 := by
  rw [clampLatency]
  split
  · decide
  · split
    · decide
    · rename_i _ h
      have hhi : raw.extractLsb' 32 32 = 0 := by simpa using h
      have hnat := congrArg BitVec.toNat hhi
      rw [BitVec.extractLsb'_toNat, Nat.shiftRight_eq_div_pow] at hnat
      have hlt := raw.isLt
      simp only [BitVec.ofNat_eq_ofNat, BitVec.toNat_ofNat, Nat.zero_mod] at hnat
      omega

/-- The events that stage 0 makes have clamped latencies. -/
def CheckerEvent.Clamped (e : CheckerEvent aw) : Prop := e.lat.toNat < 2 ^ 32

/-! ## One event -/

/-- What jitter leaves alone. -/
theorem addJitter_frame (r : CheckerRec) (lat32 : BitVec 32) :
    ∃ jitterSum jitterMin jitterMax prevLatency, r.addJitter lat32 =
      { r with jitterSum, jitterMin, jitterMax, prevLatency } := by
  rw [CheckerRec.addJitter]
  split
  · exact ⟨_, _, _, _, rfl⟩
  · exact ⟨_, _, _, _, rfl⟩

/-- What the sequence number leaves alone. -/
theorem addSequence_frame (r : CheckerRec) (seq : BitVec 64) :
    ∃ expectedSeq lost duplicate outOfOrder, r.addSequence seq =
      { r with lastSeq := seq, expectedSeq, lost, duplicate, outOfOrder, flowSeen := true } := by
  simp only [CheckerRec.addSequence]
  cases hs : r.flowSeen with
  | false => exact ⟨_, _, _, _, rfl⟩
  | true =>
    simp only [Bool.not_true, Bool.false_eq_true, if_false]
    split
    · exact ⟨_, _, _, _, rfl⟩
    · split
      · exact ⟨_, _, _, _, rfl⟩
      · split
        · exact ⟨_, _, _, _, rfl⟩
        · exact ⟨_, _, _, _, rfl⟩

/-- The first number is the first of the range. -/
theorem addSequence_first {r : CheckerRec} (h : r.flowSeen = false) (seq : BitVec 64) :
    r.addSequence seq =
      { r with lastSeq := seq, expectedSeq := seq + 1, flowSeen := true } := by
  simp [CheckerRec.addSequence, h]

/-- **A later number is balanced**, whichever branch it takes. -/
theorem addSequence_balance {r : CheckerRec} (h : r.flowSeen = true) (seq : BitVec 64) :
    1 + (r.addSequence seq).lost + r.expectedSeq + r.duplicate + r.outOfOrder =
      r.lost + (r.addSequence seq).expectedSeq + (r.addSequence seq).duplicate +
        (r.addSequence seq).outOfOrder := by
  simp only [CheckerRec.addSequence, h, Bool.not_true, Bool.false_eq_true, if_false]
  split
  · simp only
    grind
  · split
    · simp only
      grind
    · split
      · simp only
        grind
      · simp only
        grind

/-- The record of a test event before its sequence number is looked at. -/
def CheckerRec.sampled (r : CheckerRec) (e : CheckerEvent aw) : CheckerRec :=
  (({ r with rxFrames := r.rxFrames + 1, rxBytes := r.rxBytes + e.byteLen.setWidth 64 } :
    CheckerRec).addLatency e.lat).addJitter (e.lat.setWidth 32)

theorem rmw_of_test (r : CheckerRec) {e : CheckerEvent aw} (h : e.isTest = true) :
    r.rmw e = (r.sampled e).addSequence e.seq := by
  rw [CheckerRec.rmw, CheckerRec.update, if_pos h]
  rfl

/-- Sampling adds the latency and leaves the loss counters alone. -/
theorem sampled_frame (r : CheckerRec) (e : CheckerEvent aw) :
    (r.sampled e).sampleCount = r.sampleCount + 1 ∧
      (r.sampled e).sumLatency = r.sumLatency + e.lat ∧
      (r.sampled e).minLatency =
        (if e.lat.setWidth 32 < r.minLatency then e.lat.setWidth 32 else r.minLatency) ∧
      (r.sampled e).maxLatency =
        (if r.maxLatency < e.lat.setWidth 32 then e.lat.setWidth 32 else r.maxLatency) ∧
      (r.sampled e).lost = r.lost ∧ (r.sampled e).duplicate = r.duplicate ∧
      (r.sampled e).outOfOrder = r.outOfOrder ∧ (r.sampled e).expectedSeq = r.expectedSeq ∧
      (r.sampled e).flowSeen = r.flowSeen := by
  obtain ⟨js, jn, jx, pl, hj⟩ := addJitter_frame
    (({ r with rxFrames := r.rxFrames + 1, rxBytes := r.rxBytes + e.byteLen.setWidth 64 } :
      CheckerRec).addLatency e.lat) (e.lat.setWidth 32)
  rw [CheckerRec.sampled, hj]
  exact ⟨rfl, rfl, rfl, rfl, rfl, rfl, rfl, rfl, rfl⟩

/-- An event without a test header is not in the law. -/
theorem LossLaw.rmw_of_not_test {es : List (CheckerEvent aw)} {r : CheckerRec}
    (H : LossLaw es r) {e : CheckerEvent aw} (h : e.isTest = false) : LossLaw es (r.rmw e) := by
  rw [CheckerRec.rmw, CheckerRec.update, if_neg (by simp [h])]
  exact ⟨H.samples, H.balance, H.latency, H.sum, H.seen, H.fresh⟩

theorem firstSeq_append {es : List (CheckerEvent aw)} (h : es ≠ []) (e : CheckerEvent aw) :
    firstSeq (es ++ [e]) = firstSeq es := by
  cases es with
  | nil => exact absurd rfl h
  | cons d es => rfl

theorem setWidth_lat {e : CheckerEvent aw} (h : e.Clamped) :
    (e.lat.setWidth 32).setWidth 64 = e.lat := by
  apply BitVec.eq_of_toNat_eq
  rw [CheckerEvent.Clamped] at h
  rw [BitVec.toNat_setWidth, BitVec.toNat_setWidth]
  omega

/-- The extremes take the new latency in. -/
theorem extremes_step {lo hi x : BitVec 32} {y : BitVec 64}
    (h : y = x.setWidth 64 ∨ lo.setWidth 64 ≤ y ∧ y ≤ hi.setWidth 64) :
    (if x < lo then x else lo).setWidth 64 ≤ y ∧ y ≤ (if hi < x then x else hi).setWidth 64 := by
  have hx := x.isLt
  have hlo := lo.isLt
  have hhi := hi.isLt
  have hnat : y.toNat = x.toNat ∨ lo.toNat ≤ y.toNat ∧ y.toNat ≤ hi.toNat := by
    rcases h with h | h
    · left
      rw [h, BitVec.toNat_setWidth, Nat.mod_eq_of_lt (by omega)]
    · right
      rw [BitVec.le_def, BitVec.le_def, BitVec.toNat_setWidth, BitVec.toNat_setWidth] at h
      omega
  simp only [BitVec.le_def, BitVec.lt_def, BitVec.toNat_setWidth]
  split <;> split <;> omega

/-- **One test event keeps the law.** -/
theorem lossLaw_rmw {es : List (CheckerEvent aw)} {r : CheckerRec} (H : LossLaw es r)
    {e : CheckerEvent aw} (ht : e.isTest = true) (hc : e.Clamped) :
    LossLaw (es ++ [e]) (r.rmw e) := by
  obtain ⟨hcount, hsum, hmin, hmax, hlost, hdup, hooo, hexp, hseen⟩ := sampled_frame r e
  obtain ⟨_, _, _, _, hframe⟩ := addSequence_frame (r.sampled e) e.seq
  rw [rmw_of_test r ht]
  refine ⟨?_, ?_, ?_, ?_, ?_, by simp⟩
  · rw [hframe]
    simp only [hcount, H.samples, List.length_append, List.length_singleton]
    rw [BitVec.ofNat_add]
    rfl
  · have hold := H.balance
    by_cases hes : es = []
    · -- the range begins with this number
      have hfirst : (r.sampled e).flowSeen = false := by rw [hseen, H.seen, hes]; rfl
      have hzero : r.expectedSeq = 0 := H.fresh hes
      rw [hzero, hes] at hold
      rw [addSequence_first hfirst, hes]
      simp only [hcount, hlost, hdup, hooo, firstSeq, List.nil_append, List.head?_cons,
        List.head?_nil, Option.map_some, Option.map_none, Option.getD_some, Option.getD_none]
        at hold ⊢
      grind
    · have hlater : (r.sampled e).flowSeen = true := by simp [hseen, H.seen, hes]
      have hnew := addSequence_balance hlater e.seq
      have hcount' : ((r.sampled e).addSequence e.seq).sampleCount = r.sampleCount + 1 := by
        rw [hframe, ← hcount]
      rw [hlost, hdup, hooo, hexp] at hnew
      rw [firstSeq_append hes, hcount']
      grind
  · intro d hd
    rw [hframe]
    simp only [hmin, hmax]
    apply extremes_step
    rw [List.mem_append, List.mem_singleton] at hd
    rcases hd with hd | rfl
    · exact Or.inr (H.latency d hd)
    · exact Or.inl (setWidth_lat hc).symm
  · rw [hframe]
    simp only [hsum, H.sum, List.map_append, List.sum_append]
    simp
  · rw [hframe]
    simp

/-! ## Runs -/

theorem lossLaw_blank : LossLaw ([] : List (CheckerEvent aw)) {} :=
  ⟨rfl, by simp [firstSeq], by simp, rfl, rfl, fun _ => rfl⟩

/-- **The law of a run of events on one flow.** -/
theorem lossLaw_foldl (es : List (CheckerEvent aw)) (hc : ∀ e ∈ es, e.Clamped) :
    LossLaw (testEvents es) (es.foldl CheckerRec.rmw {}) := by
  induction es using List.reverseRecOn with
  | nil => exact lossLaw_blank
  | append_singleton es e ih =>
    have ih := ih fun d hd => hc d (List.mem_append_left _ hd)
    rw [List.foldl_append, List.foldl_cons, List.foldl_nil, testEvents, List.filter_append]
    cases ht : e.isTest with
    | true =>
      rw [show [e].filter (·.isTest) = [e] by simp [ht]]
      exact lossLaw_rmw ih ht (hc e (by simp))
    | false =>
      rw [show [e].filter (·.isTest) = [] by simp [ht], List.append_nil]
      exact ih.rmw_of_not_test ht

/-- Events that were taken have clamped latencies. -/
theorem clamped_takenEvents (numFlows : ℕ) (ins : List (CheckerIn aw)) :
    ∀ e ∈ takenEvents numFlows ins, e.Clamped := by
  refine run_invariant (I := fun a : CheckerSpec aw => ∀ e ∈ a.events, e.Clamped)
    (A := fun _ => True) ?_ (by simp) (fun _ _ => trivial)
  intro a i _ ih
  rw [CheckerSpec.step]
  split
  · simp
  · split
    · simp
    · split
      · intro e he
        rw [List.mem_append, List.mem_singleton] at he
        rcases he with he | rfl
        · exact ih e he
        · exact clampLatency_lt _
      · exact ih

/-- **Loss accounting is conservative.**  In the drained memory of a checker,
after a reset and any cycles, the record of every flow obeys the law of the test
events taken for the flow since its last clear: samples and losses balance the
range of sequence numbers with duplicates and latecomers, the extremes enclose
every latency, and the sum is that of the latencies. -/
theorem loss_accounting {numFlows aw : ℕ} (haw : aw = Nat.clog 2 numFlows)
    {s : CheckerBram aw} (hreset : s.Reset) (ins : List (CheckerIn aw))
    (hd : (run (CheckerBram.step numFlows) s ins).Drained) (j : BitVec aw)
    (hj : j.toNat < numFlows) :
    LossLaw (testEvents ((takenEvents numFlows ins).filter fun e => e.idx == j))
      ((run (CheckerBram.step numFlows) s ins).mem j) := by
  have hmem := (tracks_run haw hreset ins).mem_of_drained hd j hj
  rw [hmem]
  apply lossLaw_foldl
  intro e he
  exact clamped_takenEvents numFlows ins e (List.mem_filter.mp he).1

/-- Numbers 5, 7, 6 and 7 again: one is lost, one is late and one is a duplicate. -/
theorem loss_accounting_sample :
    LossLaw (testEvents ((takenEvents 2 ([sampleCheckerIdle, sampleCheckerIdle,
      sampleCheckerIdle] ++ [5, 7, 6, 7].map sampleCheckerIn ++ [sampleCheckerIdle])).filter
        fun e => e.idx == 1))
      ((run (CheckerBram.step 2) sampleChecker ([sampleCheckerIdle, sampleCheckerIdle,
        sampleCheckerIdle] ++ [5, 7, 6, 7].map sampleCheckerIn ++ [sampleCheckerIdle])).mem 1) :=
  loss_accounting (show 1 = Nat.clog 2 2 by decide) ⟨rfl, rfl, rfl, rfl⟩ _
    ⟨by decide +kernel, by decide +kernel⟩ 1 (by decide)

end PacketWyrm
