import PacketWyrm.LatHistogram
import PacketWyrm.LossLaw
import Mathlib.Algebra.BigOperators.Group.Finset.Sigma

/-!
# Histogram and checkers

The checkers of `pw_data_plane_axis` and the latency histogram behind them.  A checker
counts a sample in its flow's record and hands it on to the histogram, where it arrives two
cycles after its frame.  One clear pulse starts a walk in each of them: the checkers' over
the flows, the histogram's over all buckets of all flows, and while the longer one goes on
a sample is counted by its checker only.

## Main definitions

* `DpStats` — the checkers, their histogram taps and the histogram.
* `Calm` — no sample comes where one counts it and the other does not.

## Main results

* `dpTracks_step` — one edge keeps the samples and the histogram's events together.
* `histogram_agrees` — in a calm run the two counts agree.
* `cleared_histogram_misses_sample` — a clear with traffic makes them differ.
-/

namespace PacketWyrm

open Lib

variable {aw : ℕ}

/-! ## The bucket of a sample -/

/-- `log2_bucket`. -/
def log2Bucket (x : BitVec 64) : ℕ :=
  (List.range 64).foldl (fun b i => if x.getLsbD i then i else b) 0

/-- `s1_bucket`: cut to the buckets there are, and to the width of the register. -/
def s1Bucket (numBuckets : ℕ) (lat : BitVec 64) : ℕ :=
  (if numBuckets ≤ log2Bucket lat then numBuckets - 1 else log2Bucket lat) %
    2 ^ Nat.clog 2 numBuckets

theorem log2_add_bit {v n : ℕ} (hv : v < 2 ^ n) : Nat.log 2 (v + 2 ^ n) = n :=
  Nat.log_eq_of_pow_le_of_lt_pow (by omega) (by rw [Nat.pow_succ]; omega)

/-- The bits below `n` give the power of two of what they make up. -/
theorem foldl_log2Bucket (x : BitVec 64) (n : ℕ) :
    (List.range n).foldl (fun b i => if x.getLsbD i then i else b) 0 =
      Nat.log 2 (x.toNat % 2 ^ n) := by
  induction n with
  | zero => simp [Nat.mod_one]
  | succ n ih =>
    rw [List.range_succ, List.foldl_append, ih, List.foldl_cons, List.foldl_nil,
      Nat.mod_pow_succ, ← BitVec.testBit_toNat, Nat.testBit_eq_decide_div_mod_eq]
    rcases Nat.mod_two_eq_zero_or_one (x.toNat / 2 ^ n) with hbit | hbit
    · simp [hbit]
    · simp [hbit, log2_add_bit (Nat.mod_lt x.toNat (Nat.two_pow_pos n))]

theorem log2Bucket_eq (x : BitVec 64) : log2Bucket x = Nat.log 2 x.toNat := by
  rw [log2Bucket, foldl_log2Bucket, Nat.mod_eq_of_lt x.isLt]

/-- **The bucket of a sample** is the power of two of its latency; the last bucket takes
what is beyond. -/
theorem s1Bucket_eq {numBuckets : ℕ} (h : 0 < numBuckets) (lat : BitVec 64) :
    s1Bucket numBuckets lat = min (Nat.log 2 lat.toNat) (numBuckets - 1) := by
  have hpow : numBuckets ≤ 2 ^ Nat.clog 2 numBuckets := Nat.le_pow_clog (by decide) _
  rw [s1Bucket, log2Bucket_eq]
  split_ifs with hle
  · rw [Nat.mod_eq_of_lt (by omega)]
    omega
  · rw [Nat.mod_eq_of_lt (by omega)]
    omega

/-! ## The circuit -/

/-- The histogram event that a checker registers for the sample it counts. -/
def CheckerBram.histEvent (numBuckets : ℕ) (c : CheckerBram aw) : Option HistEvent :=
  if !c.clearing && c.s1Valid && c.s1.isTest then
    some { flow := c.s1.idx.setWidth 16, bucket := BitVec.ofNat 16 (s1Bucket numBuckets c.s1.lat) }
  else none

/-- The inputs of a cycle: the clear pulse and the inputs of each port's checker. -/
structure DpIn (aw : ℕ) where
  clear : Bool
  port : ℕ → CheckerIn aw
  histRdAddr : ℕ

/-- The checkers share the clear pulse. -/
def DpIn.checker (i : DpIn aw) (p : ℕ) : CheckerIn aw := { i.port p with clear := i.clear }

/-- The checkers, what they hand on, and the histogram. -/
structure DpStats (aw : ℕ) where
  chk : ℕ → CheckerBram aw
  histEv : ℕ → Option HistEvent
  hist : LatHistogram

namespace DpStats

variable (P : HistParams) (s : DpStats aw)

/-- One clock edge. -/
def step (i : DpIn aw) : DpStats aw :=
  { chk := fun p => (s.chk p).step P.numFlows (i.checker p)
    histEv := fun p => (s.chk p).histEvent P.numBuckets
    hist := s.hist.step P { clear := i.clear, ev := s.histEv, rdAddr := i.histRdAddr } }

/-- The registers that a reset settles. -/
structure Reset (s : DpStats aw) : Prop where
  chk : ∀ p, (s.chk p).Reset
  histEv : ∀ p, s.histEv p = none
  hist : s.hist.Reset

/-- Both walks have ended and nothing is on its way. -/
structure Drained (s : DpStats aw) : Prop where
  chk : ∀ p < P.nEv, (s.chk p).Drained
  histEv : ∀ p < P.nEv, s.histEv p = none
  hist : s.hist.Drained P

end DpStats

/-- `flow_samples`: the merge over the ports. -/
def flowSamples (P : HistParams) (recs : ℕ → CheckerRec) : BitVec 64 :=
  (List.range P.nEv).foldl (fun samp p => samp + (recs p).sampleCount) 0

/-! ## The inputs -/

/-- The frames of one port are at least two cycles for each port apart. -/
def DpAllowed (P : HistParams) (gap : ℕ → ℕ) (i : DpIn aw) : Prop :=
  ∀ p < P.nEv, (i.checker p).eventTake P.numFlows = true → 2 * P.nEv ≤ gap p

instance (P : HistParams) (gap : ℕ → ℕ) (i : DpIn aw) : Decidable (DpAllowed P gap i) :=
  inferInstanceAs (Decidable (∀ p < P.nEv, (i.checker p).eventTake P.numFlows = true →
    2 * P.nEv ≤ gap p))

/-- The cycles since the last frame of each port. -/
def dpGap (P : HistParams) (gap : ℕ → ℕ) (i : DpIn aw) (p : ℕ) : ℕ :=
  if (i.checker p).eventTake P.numFlows then 1 else gap p + 1

/-- **The frames are spaced as the MAC allows.** -/
def DpSpaced (P : HistParams) (ins : List (DpIn aw)) : Prop :=
  Follows (DpAllowed P) (dpGap P) (fun _ => 2 * P.nEv) ins

/-- The checker of a port takes a sample. -/
def DpStats.takesSample (P : HistParams) (s : DpStats aw) (i : DpIn aw) (p : ℕ) : Bool :=
  !(s.chk p).clearing && !i.clear && (i.checker p).eventTake P.numFlows && (i.port p).key.isTest

/-- **No sample comes where one counts it and the other does not**: none is taken while the
histogram's walk has three or more cycles to go, and none is on its way when a clear
comes in the last cycle of this walk. -/
structure Calm (P : HistParams) (s : DpStats aw) (i : DpIn aw) : Prop where
  walk : s.hist.state = .clear → s.hist.clrAddr + 3 ≤ P.depth →
    ∀ p < P.nEv, s.takesSample P i p = false
  last : s.hist.state = .clear → s.hist.clrAddr + 1 = P.depth → i.clear = true →
    ∀ p < P.nEv, (s.chk p).histEvent P.numBuckets = none

instance (P : HistParams) (s : DpStats aw) (i : DpIn aw) : Decidable (Calm P s i) :=
  decidable_of_iff
    ((s.hist.state = .clear → s.hist.clrAddr + 3 ≤ P.depth →
      ∀ p < P.nEv, s.takesSample P i p = false) ∧
      (s.hist.state = .clear → s.hist.clrAddr + 1 = P.depth → i.clear = true →
        ∀ p < P.nEv, (s.chk p).histEvent P.numBuckets = none))
    ⟨fun h => ⟨h.1, h.2⟩, fun h => ⟨h.walk, h.last⟩⟩

/-! ## Samples -/

/-- The samples of a flow and a bucket among the events of a checker. -/
def countSamples (numBuckets : ℕ) (l : List (CheckerEvent aw)) (f b : ℕ) : ℕ :=
  l.countP fun e =>
    (e.isTest && decide (e.idx.toNat = f)) && decide (s1Bucket numBuckets e.lat = b)

/-- An event for a flow that exists. -/
def CheckerEvent.Known (P : HistParams) (e : CheckerEvent aw) : Prop :=
  e.idx.toNat < P.numFlows ∧ e.idx.toNat < 2 ^ 16

theorem s1Bucket_lt {numBuckets : ℕ} (h : 0 < numBuckets) (lat : BitVec 64) :
    s1Bucket numBuckets lat < numBuckets ∧ s1Bucket numBuckets lat < 2 ^ 16 := by
  have hlog : Nat.log 2 lat.toNat < 64 := Nat.log_lt_of_lt_pow' (by decide) lat.isLt
  rw [s1Bucket_eq h]
  omega

section Samples

variable {P : HistParams} {c : CheckerBram aw} {a : CheckerSpec aw} {i : CheckerIn aw}

/-- An event that is taken is for a flow that exists. -/
theorem known_event (hn : P.numFlows ≤ 2 ^ aw) (h16 : P.numFlows ≤ 2 ^ 16)
    (ht : i.eventTake P.numFlows = true) : i.event.Known P := by
  rw [CheckerIn.eventTake, Bool.and_eq_true, decide_eq_true_eq] at ht
  have hlt := ht.2
  have hidx : i.event.idx.toNat = i.result.localFlowId.toNat := by
    rw [CheckerIn.event, BitVec.toNat_setWidth]
    exact Nat.mod_eq_of_lt (hlt.trans_le hn)
  rw [CheckerEvent.Known, hidx]
  exact ⟨hlt, hlt.trans_le h16⟩

theorem known_step (hn : P.numFlows ≤ 2 ^ aw) (h16 : P.numFlows ≤ 2 ^ 16)
    (h : ∀ e ∈ a.events, e.Known P) :
    ∀ e ∈ (a.step P.numFlows i).events, e.Known P := by
  rw [CheckerSpec.step]
  split_ifs with hsweep hclear ht
  · simp
  · simp
  · intro e he
    rw [List.mem_append, List.mem_singleton] at he
    rcases he with he | rfl
    · exact h e he
    · exact known_event hn h16 ht
  · exact h

/-- What a checker hands on for a known event. -/
theorem histEvent_of_s1 (hc : c.clearing = false) (hv : c.s1Valid = true) (hk : c.s1.Known P)
    (f b : ℕ) :
    countBucket (c.histEvent P.numBuckets).toList f b = countSamples P.numBuckets [c.s1] f b := by
  have hflow : (c.s1.idx.setWidth 16).toNat = c.s1.idx.toNat := by
    rw [BitVec.toNat_setWidth]
    exact Nat.mod_eq_of_lt hk.2
  have hbucket : (BitVec.ofNat 16 (s1Bucket P.numBuckets c.s1.lat)).toNat =
      s1Bucket P.numBuckets c.s1.lat := by
    rw [BitVec.toNat_ofNat]
    exact Nat.mod_eq_of_lt (s1Bucket_lt P.numBuckets_pos _).2
  rw [CheckerBram.histEvent, hc, hv]
  cases ht : c.s1.isTest with
  | false => simp [countBucket, countSamples, ht]
  | true => simp [countBucket, countSamples, ht, hflow, hbucket]

theorem histEvent_known (hk : c.clearing = false → c.s1Valid = true → c.s1.Known P) :
    ∀ e ∈ c.histEvent P.numBuckets,
      e.flow.toNat < P.numFlows ∧ e.bucket.toNat < P.numBuckets := by
  intro e he
  rw [CheckerBram.histEvent, Option.mem_def] at he
  split_ifs at he with hif
  obtain rfl := Option.some.inj he
  simp only [Bool.and_eq_true, Bool.not_eq_true'] at hif
  obtain ⟨hflow, hflow'⟩ := hk hif.1.1 hif.1.2
  obtain ⟨hbucket, hbucket'⟩ := s1Bucket_lt P.numBuckets_pos c.s1.lat
  refine ⟨?_, ?_⟩
  · rw [BitVec.toNat_setWidth, Nat.mod_eq_of_lt hflow']
    exact hflow
  · rw [BitVec.toNat_ofNat, Nat.mod_eq_of_lt hbucket']
    exact hbucket

/-- The event in stage 1 is one of the events taken. -/
theorem s1_known (h : Tracks P.numFlows c a) (hk : ∀ e ∈ a.events, e.Known P)
    (hc : c.clearing = false) (hv : c.s1Valid = true) : c.s1.Known P := by
  rw [Tracks, if_neg (by simp [hc])] at h
  obtain ⟨done, hdone, -⟩ := h.mem
  apply hk
  rw [hdone, hv]
  simp

theorem histEvent_eq_none_of_s1Valid (hv : c.s1Valid = false) (numBuckets : ℕ) :
    c.histEvent numBuckets = none := by
  simp [CheckerBram.histEvent, hv]

/-- **A cycle without a clear**: the checker hands on the sample that it took. -/
theorem countSamples_step (hn : P.numFlows ≤ 2 ^ aw) (h16 : P.numFlows ≤ 2 ^ 16)
    (h : Tracks P.numFlows c a) (hclear : i.clear = false) (f b : ℕ) :
    countSamples P.numBuckets (a.step P.numFlows i).events f b =
      countSamples P.numBuckets a.events f b +
        countBucket ((c.step P.numFlows i).histEvent P.numBuckets).toList f b := by
  rw [Tracks] at h
  cases hc : c.clearing with
  | true =>
    rw [hc, if_pos rfl] at h
    have hv : (c.step P.numFlows i).s1Valid = false := by
      simp only [CheckerBram.step, hc, hclear]
      split_ifs <;> simp_all
    have hsweep : a.sweep ≠ 0 := Nat.ne_of_gt h.sweep_pos
    rw [CheckerSpec.step, if_pos hsweep, h.events, histEvent_eq_none_of_s1Valid hv]
    rfl
  | false =>
    rw [hc, if_neg (by simp)] at h
    have hc' : (c.step P.numFlows i).clearing = false := by simp [CheckerBram.step, hclear, hc]
    have hs1 : (c.step P.numFlows i).s1 = i.event := by simp [CheckerBram.step, hclear, hc]
    have hv : (c.step P.numFlows i).s1Valid = i.eventTake P.numFlows := by
      simp [CheckerBram.step, hclear, hc]
    rw [CheckerSpec.step, if_neg (by simp [h.sweep]), if_neg (by simp [hclear])]
    cases ht : i.eventTake P.numFlows with
    | false =>
      rw [if_neg (by simp), histEvent_eq_none_of_s1Valid (hv.trans ht)]
      rfl
    | true =>
      rw [if_pos rfl, histEvent_of_s1 hc' (hv.trans ht) (hs1 ▸ known_event hn h16 ht), hs1]
      exact List.countP_append

/-- **A clear** makes a checker forget its samples and hand on none. -/
theorem clear_step (hclear : i.clear = true) :
    (a.step P.numFlows i).events = [] ∧
      (c.step P.numFlows i).histEvent P.numBuckets = none := by
  have hv : (c.step P.numFlows i).s1Valid = false := by
    simp only [CheckerBram.step, hclear]
    split_ifs <;> simp_all
  refine ⟨?_, histEvent_eq_none_of_s1Valid hv _⟩
  rw [CheckerSpec.step]
  split_ifs <;> rfl

/-- A checker hands on what it took in the cycle before. -/
theorem take_of_histEvent (h : (c.step P.numFlows i).histEvent P.numBuckets ≠ none) :
    c.clearing = false ∧ i.clear = false ∧ i.eventTake P.numFlows = true ∧
      i.key.isTest = true := by
  rw [CheckerBram.histEvent] at h
  split_ifs at h with hif
  · simp only [Bool.and_eq_true, Bool.not_eq_true'] at hif
    obtain ⟨⟨hc', hv⟩, ht⟩ := hif
    cases hclear : i.clear with
    | true =>
      simp only [CheckerBram.step, hclear] at hv
      split_ifs at hv
      simp_all
    | false =>
      cases hc : c.clearing with
      | true =>
        simp only [CheckerBram.step, hclear, hc] at hv
        split_ifs at hv
      | false =>
        refine ⟨rfl, rfl, ?_, ?_⟩
        · simpa [CheckerBram.step, hclear, hc] using hv
        · simpa [CheckerBram.step, hclear, hc, CheckerIn.event] using ht
  · exact absurd rfl h

end Samples

/-! ## The events on their way -/

/-- The cycles since a port's last frame, those since the last event that the histogram got
from it, and the two registers between. -/
structure TapSpaced (n gap hgap : ℕ) (q₁ q₂ : Option HistEvent) : Prop where
  first : q₁ ≠ none → gap ≤ 1 ∧ q₂ = none ∧ 2 * n ≤ hgap + 1
  second : q₂ ≠ none → gap ≤ 2 ∧ 2 * n ≤ hgap
  empty : q₁ = none → q₂ = none → gap ≤ hgap + 2

/-- **The histogram's events are as far apart as the frames.** -/
theorem TapSpaced.step {n gap hgap : ℕ} {q₁ q₂ q : Option HistEvent} {take : Bool} (hn : 0 < n)
    (h : TapSpaced n gap hgap q₁ q₂) (htake : take = true → 2 * n ≤ gap)
    (hq : q ≠ none → take = true) :
    TapSpaced n (if take then 1 else gap + 1) (if q₂.isSome then 1 else hgap + 1) q q₁ := by
  refine ⟨?_, ?_, ?_⟩
  · intro hne
    have ht := hq hne
    have hgap := htake ht
    have hq₁ : q₁ = none := by
      by_contra hne₁
      have := (h.first hne₁).1
      omega
    refine ⟨by simp [ht], hq₁, ?_⟩
    cases hq₂ : q₂ with
    | none =>
      have := h.empty hq₁ hq₂
      simp only [Option.isSome_none, Bool.false_eq_true, if_false]
      omega
    | some e =>
      have := (h.second (by simp [hq₂])).1
      simp only [Option.isSome_some, if_true]
      omega
  · intro hne
    obtain ⟨hgap, hq₂, hhgap⟩ := h.first hne
    refine ⟨?_, ?_⟩
    · split_ifs <;> omega
    · simp only [hq₂, Option.isSome_none, Bool.false_eq_true, if_false]
      omega
  · intro _ hq₁
    cases hq₂ : q₂ with
    | none =>
      have := h.empty hq₁ hq₂
      simp only [Option.isSome_none, Bool.false_eq_true, if_false]
      split_ifs <;> omega
    | some e =>
      have := (h.second (by simp [hq₂])).1
      simp only [Option.isSome_some, if_true]
      split_ifs <;> omega

/-- The events of a cycle, port by port. -/
theorem countBucket_filterMap (ev : ℕ → Option HistEvent) (n f b : ℕ) :
    countBucket ((List.range n).filterMap ev) f b =
      ∑ p ∈ Finset.range n, countBucket (ev p).toList f b := by
  induction n with
  | zero => rfl
  | succ n ih =>
    rw [List.range_succ, List.filterMap_append, countBucket, List.countP_append,
      Finset.sum_range_succ, ← ih]
    rfl

/-- The samples that are still on their way to the histogram. -/
def DpStats.onTheWay (P : HistParams) (s : DpStats aw) (f b : ℕ) : ℕ :=
  ∑ p ∈ Finset.range P.nEv, countBucket ((s.chk p).histEvent P.numBuckets).toList f b +
    ∑ p ∈ Finset.range P.nEv, countBucket (s.histEv p).toList f b

/-- **How the samples and the histogram's events belong together.**  Without a walk of the
histogram they differ by what is on its way; a walk lets the checkers have only samples
that arrive when it is over. -/
def Agree (P : HistParams) (s : DpStats aw) (a : ℕ → CheckerSpec aw) (h : HistSpec) : Prop :=
  if h.sweep = 0 then
    ∀ f b, ∑ p ∈ Finset.range P.nEv, countSamples P.numBuckets (a p).events f b =
      countBucket h.events f b + s.onTheWay P f b
  else
    ∀ p < P.nEv, ∀ f b, countSamples P.numBuckets (a p).events f b =
      if h.sweep = 1 then countBucket ((s.chk p).histEvent P.numBuckets).toList f b else 0

/-- The checkers and the histogram with what they have counted. -/
structure DpTracks (P : HistParams) (gap : ℕ → ℕ) (s : DpStats aw) (a : ℕ → CheckerSpec aw)
    (hgap : ℕ → ℕ) (h : HistSpec) : Prop where
  chk : ∀ p < P.nEv, Tracks P.numFlows (s.chk p) (a p)
  known : ∀ p < P.nEv, ∀ e ∈ (a p).events, e.Known P
  tapKnown : ∀ p < P.nEv, ∀ e ∈ s.histEv p,
    e.flow.toNat < P.numFlows ∧ e.bucket.toNat < P.numBuckets
  hist : HistTracks P hgap s.hist h
  spaced : ∀ p < P.nEv, TapSpaced P.nEv (gap p) (hgap p)
    ((s.chk p).histEvent P.numBuckets) (s.histEv p)
  agree : Agree P s a h

/-- The histogram's inputs of a cycle. -/
def DpStats.histIn (s : DpStats aw) (i : DpIn aw) : HistIn :=
  { clear := i.clear, ev := s.histEv, rdAddr := i.histRdAddr }

section Step

variable {P : HistParams} {gap hgap : ℕ → ℕ} {s : DpStats aw} {a : ℕ → CheckerSpec aw}
  {h : HistSpec} {i : DpIn aw}

/-- The walk of the histogram, as its registers show it. -/
theorem HistTracks.walk (ht : HistTracks P hgap s.hist h) (hsweep : h.sweep ≠ 0) :
    s.hist.state = .clear ∧ s.hist.clrAddr + h.sweep = P.depth := by
  rcases ht with ht | ht
  · exact ⟨ht.state, ht.sweep⟩
  · exact absurd ht.sweep hsweep

/-- A cycle without a clear and without a walk. -/
theorem Agree.step_live (hn : P.numFlows ≤ 2 ^ aw) (h16 : P.numFlows ≤ 2 ^ 16)
    (ht : DpTracks P gap s a hgap h) (hsweep : h.sweep = 0) (hclear : i.clear = false) :
    Agree P (s.step P i) (fun p => (a p).step P.numFlows (i.checker p))
      (h.step P (s.histIn i)) := by
  have hagree := ht.agree
  rw [Agree, if_pos hsweep] at hagree
  have hspec : h.step P (s.histIn i) =
      { h with events := h.events ++ (List.range P.nEv).filterMap s.histEv } := by
    rw [HistSpec.step, if_neg (by simp [hsweep])]
    exact if_neg (by simp [DpStats.histIn, hclear])
  rw [Agree, hspec, if_pos hsweep]
  intro f b
  have hsum : ∑ p ∈ Finset.range P.nEv,
      countSamples P.numBuckets ((a p).step P.numFlows (i.checker p)).events f b =
        ∑ p ∈ Finset.range P.nEv, countSamples P.numBuckets (a p).events f b +
        ∑ p ∈ Finset.range P.nEv,
          countBucket (((s.step P i).chk p).histEvent P.numBuckets).toList f b := by
    rw [← Finset.sum_add_distrib]
    apply Finset.sum_congr rfl
    intro p hp
    exact countSamples_step hn h16 (ht.chk p (Finset.mem_range.mp hp)) hclear f b
  have hcount : countBucket (h.events ++ (List.range P.nEv).filterMap s.histEv) f b =
      countBucket h.events f b + ∑ p ∈ Finset.range P.nEv, countBucket (s.histEv p).toList f b := by
    rw [← countBucket_filterMap]
    exact List.countP_append
  have hway : (s.step P i).onTheWay P f b =
      ∑ p ∈ Finset.range P.nEv,
        countBucket (((s.step P i).chk p).histEvent P.numBuckets).toList f b +
      ∑ p ∈ Finset.range P.nEv, countBucket ((s.chk p).histEvent P.numBuckets).toList f b := rfl
  have hold := hagree f b
  rw [DpStats.onTheWay] at hold
  rw [hsum, hcount, hway]
  omega

/-- A clear while the histogram does not walk. -/
theorem Agree.step_clear (hsweep : h.sweep = 0) (hclear : i.clear = true) :
    Agree P (s.step P i) (fun p => (a p).step P.numFlows (i.checker p))
      (h.step P (s.histIn i)) := by
  have hspec : h.step P (s.histIn i) = { sweep := P.depth, events := [] } := by
    rw [HistSpec.step, if_neg (by simp [hsweep])]
    exact if_pos (by simp [DpStats.histIn, hclear])
  rw [Agree, hspec, if_neg (Nat.ne_of_gt P.depth_pos)]
  intro p _ f b
  obtain ⟨hev, htap⟩ :=
    clear_step (P := P) (c := s.chk p) (a := a p) (i := i.checker p) hclear
  have htap' : ((s.step P i).chk p).histEvent P.numBuckets = none := htap
  rw [hev, htap']
  split_ifs <;> rfl

/-- A cycle of the histogram's walk. -/
theorem Agree.step_walk (hn : P.numFlows ≤ 2 ^ aw) (h16 : P.numFlows ≤ 2 ^ 16)
    (ht : DpTracks P gap s a hgap h) (hcalm : Calm P s i) (hsweep : h.sweep ≠ 0) :
    Agree P (s.step P i) (fun p => (a p).step P.numFlows (i.checker p))
      (h.step P (s.histIn i)) := by
  obtain ⟨hstate, hclr⟩ := ht.hist.walk hsweep
  have hagree := ht.agree
  rw [Agree, if_neg hsweep] at hagree
  have hspec : h.step P (s.histIn i) = { sweep := h.sweep - 1, events := [] } := by
    rw [HistSpec.step, if_pos hsweep]
  -- what each checker has after the cycle
  have hone : ∀ p < P.nEv, ∀ f b,
      countSamples P.numBuckets ((a p).step P.numFlows (i.checker p)).events f b =
        (if i.clear then 0 else countSamples P.numBuckets (a p).events f b) +
          countBucket (((s.step P i).chk p).histEvent P.numBuckets).toList f b := by
    intro p hp f b
    cases hclear : i.clear with
    | false => exact countSamples_step hn h16 (ht.chk p hp) hclear f b
    | true =>
      obtain ⟨hev, htap⟩ :=
        clear_step (P := P) (c := s.chk p) (a := a p) (i := i.checker p) hclear
      have htap' : ((s.step P i).chk p).histEvent P.numBuckets = none := htap
      rw [hev, htap']
      rfl
  rw [Agree, hspec]
  by_cases hlast : h.sweep = 1
  · -- the walk ends: what the checkers took in its last two cycles is on its way
    rw [if_pos (show h.sweep - 1 = 0 by omega)]
    intro f b
    have hterm : ∀ p ∈ Finset.range P.nEv,
        countSamples P.numBuckets ((a p).step P.numFlows (i.checker p)).events f b =
          countBucket (((s.step P i).chk p).histEvent P.numBuckets).toList f b +
            countBucket ((s.chk p).histEvent P.numBuckets).toList f b := by
      intro p hp
      have hp' := Finset.mem_range.mp hp
      rw [hone p hp' f b, hagree p hp' f b, if_pos hlast, Nat.add_comm]
      congr 1
      cases hclear : i.clear with
      | false => rfl
      | true =>
        rw [hcalm.last hstate (by omega) hclear p hp']
        rfl
    rw [Finset.sum_congr rfl hterm, Finset.sum_add_distrib]
    show _ = 0 + (_ + _)
    rw [Nat.zero_add]
    rfl
  · rw [if_neg (show h.sweep - 1 ≠ 0 by omega)]
    intro p hp f b
    have hold : (if i.clear then 0 else countSamples P.numBuckets (a p).events f b) = 0 := by
      rw [hagree p hp f b, if_neg hlast, ite_self]
    rw [hone p hp f b, hold, Nat.zero_add]
    by_cases htwo : h.sweep = 2
    · rw [if_pos (show h.sweep - 1 = 1 by omega)]
    · rw [if_neg (show h.sweep - 1 ≠ 1 by omega)]
      -- three or more cycles to go: the checker took no sample
      have hnone : ((s.step P i).chk p).histEvent P.numBuckets = none := by
        by_contra hne
        obtain ⟨hc, hclear, htake, htest⟩ := take_of_histEvent hne
        have hclear' : i.clear = false := hclear
        have htest' : (i.port p).key.isTest = true := htest
        have hfalse := hcalm.walk hstate (by omega) p hp
        simp [DpStats.takesSample, hc, hclear', htake, htest'] at hfalse
      rw [hnone]
      rfl

/-- **One clock edge keeps the samples and the histogram's events together.** -/
theorem dpTracks_step (hn : P.numFlows ≤ 2 ^ aw) (h16 : P.numFlows ≤ 2 ^ 16)
    (ht : DpTracks P gap s a hgap h) (hi : DpAllowed P gap i) (hcalm : Calm P s i) :
    DpTracks P (dpGap P gap i) (s.step P i) (fun p => (a p).step P.numFlows (i.checker p))
      (histGap hgap (s.histIn i)) (h.step P (s.histIn i)) := by
  have hallowed : HistAllowed P hgap (s.histIn i) := by
    intro p hp e he
    exact ⟨((ht.spaced p hp).second (by simp [show s.histEv p = some e from he])).2,
      ht.tapKnown p hp e he⟩
  refine ⟨?_, ?_, ?_, histTracks_step ht.hist hallowed, ?_, ?_⟩
  · intro p hp
    exact tracks_step hn _ _ _ (ht.chk p hp)
  · intro p hp
    exact known_step hn h16 (ht.known p hp)
  · intro p hp
    exact histEvent_known (s1_known (ht.chk p hp) (ht.known p hp))
  · intro p hp
    refine (ht.spaced p hp).step P.nEv_pos (hi p hp) ?_
    intro hne
    exact (take_of_histEvent hne).2.2.1
  · by_cases hsweep : h.sweep = 0
    · cases hclear : i.clear with
      | false => exact Agree.step_live hn h16 ht hsweep hclear
      | true => exact Agree.step_clear hsweep hclear
    · exact Agree.step_walk hn h16 ht hcalm hsweep

end Step

/-! ## Runs -/

/-- After a reset both walk. -/
theorem dpTracks_reset {P : HistParams} {s : DpStats aw} (hs : s.Reset) :
    DpTracks P (fun _ => 2 * P.nEv) s (fun _ => { sweep := P.numFlows + 1, events := [] })
      (fun _ => 2 * P.nEv) { sweep := P.depth, events := [] } := by
  have htap : ∀ p, (s.chk p).histEvent P.numBuckets = none := by
    intro p
    exact histEvent_eq_none_of_s1Valid (hs.chk p).s1Valid _
  refine ⟨fun p _ => tracks_reset (hs.chk p), by simp, by simp [hs.histEv],
    histTracks_reset hs.hist _, ?_, ?_⟩
  · intro p _
    exact ⟨by simp [htap], by simp [hs.histEv], fun _ _ => Nat.le_add_right _ _⟩
  · rw [Agree, if_neg (Nat.ne_of_gt P.depth_pos)]
    intro p _ f b
    rw [htap]
    split_ifs <;> rfl

/-- The events that the checker of a port took since its last clear. -/
def portEvents (P : HistParams) (ins : List (DpIn aw)) (p : ℕ) : List (CheckerEvent aw) :=
  takenEvents P.numFlows (ins.map (·.checker p))

/-- **A calm run keeps the samples and the histogram's events together.** -/
theorem dpTracks_run {P : HistParams} (hn : P.numFlows ≤ 2 ^ aw) (h16 : P.numFlows ≤ 2 ^ 16)
    {gap hgap : ℕ → ℕ} {s : DpStats aw} {a : ℕ → CheckerSpec aw} {h : HistSpec}
    (ht : DpTracks P gap s a hgap h) {ins : List (DpIn aw)}
    (hspaced : Follows (DpAllowed P) (dpGap P) gap ins)
    (hcalm : Follows (Calm P) (DpStats.step P) s ins) :
    ∃ hgap' h', DpTracks P (run (dpGap P) gap ins) (run (DpStats.step P) s ins)
      (fun p => run (CheckerSpec.step P.numFlows) (a p) (ins.map (·.checker p))) hgap' h' := by
  induction ins generalizing gap hgap s a h with
  | nil => exact ⟨hgap, h, ht⟩
  | cons i ins ih => exact ih (dpTracks_step hn h16 ht hspaced.1 hcalm.1) hspaced.2 hcalm.2

/-- The samples of a flow that a checker's events have. -/
def countFlowSamples (l : List (CheckerEvent aw)) (f : ℕ) : ℕ :=
  l.countP fun e => e.isTest && decide (e.idx.toNat = f)

theorem sum_countSamples {n : ℕ} (hn : 0 < n) (l : List (CheckerEvent aw)) (f : ℕ) :
    ∑ b ∈ Finset.range n, countSamples n l f b = countFlowSamples l f := by
  refine (sum_countP_class _ (fun e : CheckerEvent aw => s1Bucket n e.lat) l n).trans ?_
  apply List.countP_congr
  intro e _
  simp [(s1Bucket_lt hn e.lat).1]

/-- The sample count of a flow's record. -/
theorem sampleCount_recordOf {l : List (CheckerEvent aw)} (hl : ∀ e ∈ l, e.Clamped)
    (j : BitVec aw) :
    (recordOf l j).sampleCount = BitVec.ofNat 64 (countFlowSamples l j.toNat) := by
  have hlaw := lossLaw_foldl (l.filter fun e => e.idx == j) fun e he =>
    hl e (List.mem_of_mem_filter he)
  rw [recordOf, hlaw.samples, testEvents, List.filter_filter, ← List.countP_eq_length_filter,
    countFlowSamples]
  congr 1
  apply List.countP_congr
  intro e _
  simp [BitVec.toNat_inj]

theorem foldl_add_ofNat (recs : ℕ → CheckerRec) (c : ℕ → ℕ) (n : ℕ)
    (h : ∀ p < n, (recs p).sampleCount = BitVec.ofNat 64 (c p)) :
    (List.range n).foldl (fun samp p => samp + (recs p).sampleCount) 0 =
      BitVec.ofNat 64 (∑ p ∈ Finset.range n, c p) := by
  induction n with
  | zero => rfl
  | succ n ih =>
    rw [List.range_succ, List.foldl_append, ih fun p hp => h p (Nat.lt_succ_of_lt hp),
      List.foldl_cons, List.foldl_nil, h n (Nat.lt_succ_self n), Finset.sum_range_succ,
      BitVec.ofNat_add]

/-- When all is drained nothing is on its way. -/
theorem DpStats.Drained.onTheWay_eq_zero {P : HistParams} {s : DpStats aw} (hd : s.Drained P)
    (f b : ℕ) : s.onTheWay P f b = 0 := by
  have hfirst : ∀ p ∈ Finset.range P.nEv,
      countBucket ((s.chk p).histEvent P.numBuckets).toList f b = 0 := by
    intro p hp
    rw [histEvent_eq_none_of_s1Valid (hd.chk p (Finset.mem_range.mp hp)).2]
    rfl
  have hsecond : ∀ p ∈ Finset.range P.nEv, countBucket (s.histEv p).toList f b = 0 := by
    intro p hp
    rw [hd.histEv p (Finset.mem_range.mp hp)]
    rfl
  rw [DpStats.onTheWay, Finset.sum_eq_zero hfirst, Finset.sum_eq_zero hsecond,
    Nat.add_zero]

/-- **Histogram and checkers agree** in every calm run: once drained, the buckets of a flow
add up to the merged sample count, and each bucket is the number of the samples whose
clamped latency has its power of two. -/
theorem histogram_agrees (P : HistParams) (haw : aw = Nat.clog 2 P.numFlows)
    (h16 : P.numFlows ≤ 2 ^ 16) {s : DpStats aw} (hreset : s.Reset) (ins : List (DpIn aw))
    (hspaced : DpSpaced P ins) (hcalm : Follows (Calm P) (DpStats.step P) s ins)
    (hd : (run (DpStats.step P) s ins).Drained P) {f : ℕ} (hf : f < P.numFlows) :
    ((List.range P.numBuckets).map fun b =>
      (run (DpStats.step P) s ins).hist.mem (f * P.numBuckets + b)).sum =
        flowSamples P (fun p => ((run (DpStats.step P) s ins).chk p).mem (BitVec.ofNat aw f)) ∧
    ∀ b < P.numBuckets, (run (DpStats.step P) s ins).hist.mem (f * P.numBuckets + b) =
      BitVec.ofNat 64 (∑ p ∈ Finset.range P.nEv, (portEvents P ins p).countP fun e =>
        (e.isTest && decide (e.idx.toNat = f)) &&
          decide (min (Nat.log 2 e.lat.toNat) (P.numBuckets - 1) = b)) := by
  have hn : P.numFlows ≤ 2 ^ aw := haw ▸ Nat.le_pow_clog (by decide) _
  obtain ⟨hgap, h, ht⟩ := dpTracks_run hn h16 (dpTracks_reset hreset) hspaced hcalm
  have hsweep : h.sweep = 0 := by
    rcases ht.hist with hw | hw
    · exact absurd (hd.hist.1.symm.trans hw.state) (by simp)
    · exact hw.sweep
  -- nothing is on its way
  have hcount : ∀ b, countBucket h.events f b =
      ∑ p ∈ Finset.range P.nEv, countSamples P.numBuckets (portEvents P ins p) f b := by
    intro b
    have hagree := ht.agree
    rw [Agree, if_pos hsweep] at hagree
    rw [← Nat.add_zero (countBucket _ _ _), ← hd.onTheWay_eq_zero f b]
    exact (hagree f b).symm
  refine ⟨?_, ?_⟩
  · have hsum : ∑ b ∈ Finset.range P.numBuckets, countBucket h.events f b =
        ∑ p ∈ Finset.range P.nEv, countFlowSamples (portEvents P ins p) f := by
      rw [Finset.sum_congr rfl fun b _ => hcount b, Finset.sum_comm]
      exact Finset.sum_congr rfl fun p _ => sum_countSamples P.numBuckets_pos _ f
    have hfl : (BitVec.ofNat aw f).toNat = f := by
      rw [BitVec.toNat_ofNat]
      exact Nat.mod_eq_of_lt (hf.trans_le hn)
    rw [ht.hist.sum_of_drained hd.hist hf, hsum, flowSamples, foldl_add_ofNat]
    intro p hp
    rw [(ht.chk p hp).mem_of_drained (hd.chk p hp) _ (hfl.symm ▸ hf)]
    refine (sampleCount_recordOf (clamped_takenEvents P.numFlows (ins.map (·.checker p))) _).trans ?_
    rw [hfl]
    rfl
  · intro b hb
    rw [ht.hist.cell_of_drained hd.hist hf hb, hcount b]
    congr 1
    apply Finset.sum_congr rfl
    intro p _
    apply List.countP_congr
    intro e _
    rw [s1Bucket_eq P.numBuckets_pos]

/-! ## Clears with traffic -/

/-- Two ports with the given numbers of flows and buckets. -/
def sampleDp (flows buckets : ℕ) (hf : 0 < flows) (hb : 0 < buckets) : HistParams :=
  { numFlows := flows, numBuckets := buckets, nEv := 2, numFlows_pos := hf, numBuckets_pos := hb
    nEv_pos := Nat.two_pos }

/-- A cycle with a clear pulse or not, and with a test frame of flow 1 on port 0 or not. -/
def sampleDpIn (aw : ℕ) (clear valid : Bool) : DpIn aw :=
  { clear
    port := fun p =>
      { clear := false, timestamp := 50, latCorrection := 0
        key := { isTest := true, testSequence := 0, testTxTimestamp := 10 }
        result := { hit := true, action := .testRx, localFlowId := 1 }
        eventValid := valid && decide (p = 0), byteLen := 64, rdAddr := 0, rdEn := false }
    histRdAddr := 0 }

/-- The registers after a reset. -/
def sampleDpStats (aw : ℕ) : DpStats aw :=
  { chk := fun _ =>
      { mem := fun _ => {}, aRd := {}, bRd := {}, clearing := true, clearIdx := 0, s1Valid := false
        s1 := {}, s2We := false, s2Idx := 0, s2Rec := {}, rdValid := false }
    histEv := fun _ => none
    hist := { mem := fun _ => 0, doutA := 0, doutB := 0, hv := fun _ => false, ha := fun _ => 0
              rr := 0, state := .clear, clrAddr := 0, engAddr := 0 } }

theorem sampleDpStats_reset (aw : ℕ) : (sampleDpStats aw).Reset :=
  ⟨fun _ => ⟨rfl, rfl, rfl, rfl⟩, fun _ => rfl, ⟨rfl, rfl, rfl⟩⟩

/-- The walk after the reset, a clear, and a test frame `wait` cycles later. -/
def sampleDpRun (aw depth wait after : ℕ) : List (DpIn aw) :=
  List.replicate depth (sampleDpIn aw false false) ++ [sampleDpIn aw true false] ++
    List.replicate wait (sampleDpIn aw false false) ++ [sampleDpIn aw false true] ++
      List.replicate after (sampleDpIn aw false false)

/-- Two flows with two buckets: a frame that comes when the walks are over is one sample
and one event. -/
theorem histogram_agrees_sample :
    (run (DpStats.step (sampleDp 2 2 (by decide) (by decide))) (sampleDpStats 1)
      (sampleDpRun 1 4 4 5)).hist.mem (1 * 2 + 1) = 1 := by
  have hspaced : DpSpaced (sampleDp 2 2 (by decide) (by decide)) (sampleDpRun 1 4 4 5) := by
    rw [DpSpaced]
    decide +kernel
  have hdrained : (run (DpStats.step (sampleDp 2 2 (by decide) (by decide))) (sampleDpStats 1)
      (sampleDpRun 1 4 4 5)).Drained (sampleDp 2 2 (by decide) (by decide)) := by
    refine ⟨?_, by decide +kernel, ?_⟩
    · simp only [CheckerBram.Drained]
      decide +kernel
    · rw [LatHistogram.Drained]
      decide +kernel
  have h := (histogram_agrees (sampleDp 2 2 (by decide) (by decide)) (show 1 = Nat.clog 2 2 by decide)
    (by decide) (sampleDpStats_reset 1) _ hspaced (by decide +kernel) hdrained
      (show 1 < 2 by decide)).2 1 (by decide)
  exact h.trans (by decide +kernel)

/-- **A clear while a test runs makes the two counts differ.**  In a data plane of sixteen
flows a test frame comes eighteen cycles after a clear pulse: the checkers have walked over
their flows and take its sample, the histogram still walks over its buckets and drops it. -/
theorem cleared_histogram_misses_sample :
    ¬ ∀ ins : List (DpIn 4), DpSpaced (sampleDp 16 16 (by decide) (by decide)) ins →
      (run (DpStats.step (sampleDp 16 16 (by decide) (by decide))) (sampleDpStats 4) ins).Drained
        (sampleDp 16 16 (by decide) (by decide)) → ∀ f < 16,
      ((List.range 16).map fun b =>
        (run (DpStats.step (sampleDp 16 16 (by decide) (by decide))) (sampleDpStats 4)
          ins).hist.mem (f * 16 + b)).sum =
        flowSamples (sampleDp 16 16 (by decide) (by decide)) fun p =>
          ((run (DpStats.step (sampleDp 16 16 (by decide) (by decide))) (sampleDpStats 4)
            ins).chk p).mem (BitVec.ofNat 4 f) := by
  intro hall
  have hspaced : DpSpaced (sampleDp 16 16 (by decide) (by decide)) (sampleDpRun 4 256 17 238) := by
    rw [DpSpaced]
    decide +kernel
  have hdrained : (run (DpStats.step (sampleDp 16 16 (by decide) (by decide))) (sampleDpStats 4)
      (sampleDpRun 4 256 17 238)).Drained (sampleDp 16 16 (by decide) (by decide)) := by
    refine ⟨?_, by decide +kernel, ?_⟩
    · simp only [CheckerBram.Drained]
      decide +kernel
    · rw [LatHistogram.Drained]
      decide +kernel
  have hne : ¬ ((List.range 16).map fun b =>
      (run (DpStats.step (sampleDp 16 16 (by decide) (by decide))) (sampleDpStats 4)
        (sampleDpRun 4 256 17 238)).hist.mem (1 * 16 + b)).sum =
      flowSamples (sampleDp 16 16 (by decide) (by decide)) fun p =>
        ((run (DpStats.step (sampleDp 16 16 (by decide) (by decide))) (sampleDpStats 4)
          (sampleDpRun 4 256 17 238)).chk p).mem (BitVec.ofNat 4 1) := by
    decide +kernel
  exact hne (hall _ hspaced hdrained 1 (by decide))

end PacketWyrm
