import Mathlib.Data.Nat.Log
import PacketWyrm.RxChecker
import PacketWyrm.Lib.Clocked

/-!
# The checker's record memory

`pw_test_rx_checker_bram`, clock by clock.  An event reads its flow's record in
one cycle and writes the updated record in the next; an event for the same flow
right behind it would read the old record and takes the one just written from a
bypass register instead.  A clear walks over the memory and drops the events
that arrive meanwhile.

## Main definitions

* `CheckerBram` — the registers, `CheckerBram.step` — one clock edge.
* `CheckerSpec` — the purpose: the events taken since the last clear.
* `recordOf` — the record of a flow after these events.

## Main results

* `tracks_step` — one edge keeps the memory and the events together.
* `checker_refines_events` — the drained memory is the fold of the events.
-/

namespace PacketWyrm

open Lib

variable {aw : ℕ}

/-! ## The circuit -/

/-- The inputs of a cycle. -/
structure CheckerIn (aw : ℕ) where
  clear : Bool
  timestamp : BitVec 64
  latCorrection : BitVec 64
  key : PwMatchKey
  result : PwClassResult
  eventValid : Bool
  byteLen : BitVec 16
  rdAddr : BitVec aw
  rdEn : Bool

/-- An event between the stages. -/
structure CheckerEvent (aw : ℕ) where
  idx : BitVec aw := 0
  isTest : Bool := false
  seq : BitVec 64 := 0
  lat : BitVec 64 := 0
  byteLen : BitVec 16 := 0
  deriving DecidableEq

/-- `event_take`. -/
def CheckerIn.eventTake (numFlows : ℕ) (i : CheckerIn aw) : Bool :=
  i.eventValid && i.result.hit && decide (i.result.action = .testRx) &&
    decide (i.result.localFlowId.toNat < numFlows)

/-- What stage 0 registers of an event. -/
def CheckerIn.event (i : CheckerIn aw) : CheckerEvent aw :=
  { idx := i.result.localFlowId.setWidth aw, isTest := i.key.isTest, seq := i.key.testSequence
    lat := clampLatency (i.timestamp + i.latCorrection - i.key.testTxTimestamp)
    byteLen := i.byteLen }

/-- The update that stage 1 makes for an event. -/
def CheckerRec.rmw (r : CheckerRec) (e : CheckerEvent aw) : CheckerRec :=
  r.update { isTest := e.isTest, testSequence := e.seq } e.lat e.byteLen

/-- The registers and the memory. -/
structure CheckerBram (aw : ℕ) where
  mem : BitVec aw → CheckerRec
  aRd : CheckerRec
  bRd : CheckerRec
  clearing : Bool
  clearIdx : BitVec (aw + 1)
  s1Valid : Bool
  s1 : CheckerEvent aw
  s2We : Bool
  s2Idx : BitVec aw
  s2Rec : CheckerRec
  rdValid : Bool

namespace CheckerBram

/-- The record that stage 1 updates: the one read, or the one just written. -/
def source (s : CheckerBram aw) : CheckerRec :=
  if s.s2We && s.s2Idx == s.s1.idx then s.s2Rec else s.aRd

/-- `a_we`, `a_waddr` and `a_wdata`. -/
def write (numFlows : ℕ) (s : CheckerBram aw) : Option (BitVec aw × CheckerRec) :=
  if s.clearing then
    if s.clearIdx.toNat < numFlows then some (s.clearIdx.setWidth aw, {}) else none
  else if s.s1Valid then some (s.s1.idx, s.source.rmw s.s1)
  else none

/-- The data bus is all zeros when nothing is written. -/
def wdata (numFlows : ℕ) (s : CheckerBram aw) : CheckerRec :=
  match s.write numFlows with
  | some (_, r) => r
  | none => { minLatency := 0, jitterMin := 0 }

/-- The memory after the edge. -/
def nextMem (numFlows : ℕ) (s : CheckerBram aw) : BitVec aw → CheckerRec :=
  match s.write numFlows with
  | some (a, r) => Function.update s.mem a r
  | none => s.mem

/-- One clock edge. -/
def step (numFlows : ℕ) (s : CheckerBram aw) (i : CheckerIn aw) : CheckerBram aw :=
  let s' :=
    { s with
      mem := s.nextMem numFlows
      aRd := s.mem (i.result.localFlowId.setWidth aw), bRd := s.mem i.rdAddr
      s2We := !s.clearing && s.s1Valid, s2Idx := s.s1.idx, s2Rec := s.wdata numFlows
      rdValid := i.rdEn }
  if i.clear && !s.clearing then { s' with s1Valid := false, clearing := true, clearIdx := 0 }
  else if s.clearing then
    if s.clearIdx.toNat = numFlows then { s' with s1Valid := false, clearing := false }
    else { s' with s1Valid := false, clearIdx := s.clearIdx + 1 }
  else { s' with s1Valid := i.eventTake numFlows, s1 := i.event }

/-- The registers that a reset settles. -/
structure Reset (s : CheckerBram aw) : Prop where
  s1Valid : s.s1Valid = false
  clearing : s.clearing = true
  clearIdx : s.clearIdx = 0
  s2We : s.s2We = false

end CheckerBram

/-! ## The purpose -/

/-- How long the sweep still takes, and the events taken since the last clear. -/
structure CheckerSpec (aw : ℕ) where
  sweep : ℕ
  events : List (CheckerEvent aw)

/-- One cycle: a sweep drops the event, a clear starts a sweep and forgets the
events before it. -/
def CheckerSpec.step (numFlows : ℕ) (a : CheckerSpec aw) (i : CheckerIn aw) : CheckerSpec aw :=
  if a.sweep ≠ 0 then { sweep := a.sweep - 1, events := [] }
  else if i.clear then { sweep := numFlows + 1, events := [] }
  else if i.eventTake numFlows then { a with events := a.events ++ [i.event] }
  else a

/-- The events taken since the last clear, after a reset and these cycles. -/
def takenEvents (numFlows : ℕ) (ins : List (CheckerIn aw)) : List (CheckerEvent aw) :=
  (run (CheckerSpec.step numFlows) { sweep := numFlows + 1, events := [] } ins).events

/-- The record of flow `j` after the events. -/
def recordOf (es : List (CheckerEvent aw)) (j : BitVec aw) : CheckerRec :=
  (es.filter fun e => e.idx == j).foldl CheckerRec.rmw {}

theorem recordOf_append_self (es : List (CheckerEvent aw)) (e : CheckerEvent aw) :
    recordOf (es ++ [e]) e.idx = (recordOf es e.idx).rmw e := by
  simp [recordOf, List.filter_append]

theorem recordOf_append_of_ne (es : List (CheckerEvent aw)) {e : CheckerEvent aw} {j : BitVec aw}
    (h : j ≠ e.idx) : recordOf (es ++ [e]) j = recordOf es j := by
  simp [recordOf, List.filter_append, Ne.symm h]

/-! ## Refinement -/

section Refine

variable {numFlows : ℕ}

/-- Events that are in the memory, and the one that is not there yet. -/
structure Live (numFlows : ℕ) (s : CheckerBram aw) (a : CheckerSpec aw) : Prop where
  sweep : a.sweep = 0
  source : s.s1Valid = true → s.source = s.mem s.s1.idx
  mem : ∃ done, a.events = done ++ (if s.s1Valid then [s.s1] else []) ∧
    ∀ j : BitVec aw, j.toNat < numFlows → s.mem j = recordOf done j

/-- A sweep that has cleared the records below its index. -/
structure Sweeping (numFlows : ℕ) (s : CheckerBram aw) (a : CheckerSpec aw) : Prop where
  s1Valid : s.s1Valid = false
  sweep : s.clearIdx.toNat + a.sweep = numFlows + 1
  sweep_pos : 0 < a.sweep
  events : a.events = []
  mem : ∀ j : BitVec aw, j.toNat < s.clearIdx.toNat → s.mem j = {}

/-- **How the memory and the events belong together.** -/
def Tracks (numFlows : ℕ) (s : CheckerBram aw) (a : CheckerSpec aw) : Prop :=
  if s.clearing then Sweeping numFlows s a else Live numFlows s a

theorem tracks_reset {s : CheckerBram aw} (h : s.Reset) :
    Tracks numFlows s { sweep := numFlows + 1, events := [] } := by
  rw [Tracks, if_pos h.clearing]
  refine ⟨h.s1Valid, ?_, Nat.succ_pos _, rfl, ?_⟩
  · simp [h.clearIdx]
  · simp [h.clearIdx]

/-- The memory after an edge without a sweep holds the pending event too. -/
theorem Live.mem_next {s : CheckerBram aw} {a : CheckerSpec aw} (hc : s.clearing = false)
    (h : Live numFlows s a) (j : BitVec aw) (hj : j.toNat < numFlows) :
    s.nextMem numFlows j = recordOf a.events j := by
  obtain ⟨done, hdone, hmem⟩ := h.mem
  rw [hdone, CheckerBram.nextMem, CheckerBram.write, if_neg (by simp [hc])]
  cases hv : s.s1Valid with
  | false => simpa using hmem j hj
  | true =>
    simp only [if_true]
    by_cases hji : j = s.s1.idx
    · subst hji
      rw [Function.update_self, h.source hv, hmem _ hj, recordOf_append_self]
    · rw [Function.update_of_ne hji, hmem j hj, recordOf_append_of_ne _ hji]

/-- What stage 1 will update is what the memory holds after the edge: the word
just read, or the word just written to the same place. -/
theorem source_next {s : CheckerBram aw} (hc : s.clearing = false) (i : CheckerIn aw)
    (hclear : i.clear = false) :
    (s.step numFlows i).source = s.nextMem numFlows i.event.idx := by
  rw [CheckerBram.step, CheckerBram.source, CheckerBram.wdata, CheckerBram.nextMem,
    CheckerBram.write, hc, hclear]
  cases hv : s.s1Valid with
  | false => simp [CheckerIn.event]
  | true =>
    by_cases hidx : s.s1.idx = i.result.localFlowId.setWidth aw
    · simp [CheckerIn.event, hidx]
    · simp [CheckerIn.event, hidx, Function.update_of_ne (Ne.symm hidx)]

/-- An edge without a sweep. -/
theorem tracks_step_live {s : CheckerBram aw} {a : CheckerSpec aw} (hc : s.clearing = false)
    (h : Live numFlows s a) (i : CheckerIn aw) :
    Tracks numFlows (s.step numFlows i) (a.step numFlows i) := by
  cases hclear : i.clear with
  | true =>
    -- the clear begins
    have hs : (s.step numFlows i).clearing = true := by simp [CheckerBram.step, hclear, hc]
    have ha : a.step numFlows i = { sweep := numFlows + 1, events := [] } := by
      simp [CheckerSpec.step, h.sweep, hclear]
    rw [Tracks, if_pos hs, ha]
    refine ⟨?_, ?_, Nat.succ_pos _, rfl, ?_⟩ <;> simp [CheckerBram.step, hclear, hc]
  | false =>
    have hs : (s.step numFlows i).clearing = false := by simp [CheckerBram.step, hclear, hc]
    have hmem : (s.step numFlows i).mem = s.nextMem numFlows := by
      simp [CheckerBram.step, hclear, hc]
    have hs1 : (s.step numFlows i).s1 = i.event := by simp [CheckerBram.step, hclear, hc]
    have hv : (s.step numFlows i).s1Valid = i.eventTake numFlows := by
      simp [CheckerBram.step, hclear, hc]
    rw [Tracks, if_neg (by simp [hs])]
    refine ⟨?_, ?_, a.events, ?_, ?_⟩
    · rw [CheckerSpec.step]
      split_ifs <;> simp_all [h.sweep]
    · intro _
      rw [hmem, hs1, source_next hc i hclear]
    · rw [hv, hs1, CheckerSpec.step, if_neg (by simp [h.sweep]), if_neg (by simp [hclear])]
      split <;> simp
    · rw [hmem]
      exact h.mem_next hc

/-- An edge of a sweep. -/
theorem tracks_step_sweeping (hn : numFlows ≤ 2 ^ aw) {s : CheckerBram aw} {a : CheckerSpec aw}
    (hc : s.clearing = true) (h : Sweeping numFlows s a) (i : CheckerIn aw) :
    Tracks numFlows (s.step numFlows i) (a.step numFlows i) := by
  have hsum := h.sweep
  have hpos := h.sweep_pos
  have ha : a.step numFlows i = { sweep := a.sweep - 1, events := [] } := by
    rw [CheckerSpec.step, if_pos (by omega)]
  rw [ha]
  by_cases hlast : s.clearIdx.toNat = numFlows
  · -- every record is blank, and the sweep ends
    have hs : (s.step numFlows i).clearing = false := by simp [CheckerBram.step, hc, hlast]
    have hmem : (s.step numFlows i).mem = s.mem := by
      simp [CheckerBram.step, CheckerBram.nextMem, CheckerBram.write, hc, hlast]
    have hv : (s.step numFlows i).s1Valid = false := by simp [CheckerBram.step, hc, hlast]
    rw [Tracks, if_neg (by simp [hs])]
    refine ⟨by simp only; omega, by simp [hv], [], by simp [hv], ?_⟩
    intro j hj
    rw [hmem]
    exact h.mem j (by omega)
  · have hlt : s.clearIdx.toNat < numFlows := by omega
    have hs : (s.step numFlows i).clearing = true := by simp [CheckerBram.step, hc, hlast]
    have hmem : (s.step numFlows i).mem =
        Function.update s.mem (s.clearIdx.setWidth aw) {} := by
      simp [CheckerBram.step, CheckerBram.nextMem, CheckerBram.write, hc, hlast, hlt]
    have hidx : (s.step numFlows i).clearIdx.toNat = s.clearIdx.toNat + 1 := by
      have hnext : (s.step numFlows i).clearIdx = s.clearIdx + 1 := by
        simp [CheckerBram.step, hc, hlast]
      have hone : (1 : BitVec (aw + 1)).toNat = 1 := by simp
      rw [hnext, BitVec.toNat_add, hone, Nat.mod_eq_of_lt (by rw [Nat.pow_succ]; omega)]
    rw [Tracks, if_pos hs]
    refine ⟨by simp [CheckerBram.step, hc, hlast], ?_, by simp only; omega, rfl, ?_⟩
    · rw [hidx]
      simp only
      omega
    · intro j hj
      rw [hmem]
      by_cases hj' : j = s.clearIdx.setWidth aw
      · rw [hj', Function.update_self]
      · rw [Function.update_of_ne hj']
        apply h.mem
        rw [hidx] at hj
        have hne : j.toNat ≠ s.clearIdx.toNat := by
          intro heq
          apply hj'
          apply BitVec.eq_of_toNat_eq
          rw [BitVec.toNat_setWidth, Nat.mod_eq_of_lt (by omega), heq]
        omega

/-- **One clock edge keeps the memory and the events together.** -/
theorem tracks_step (hn : numFlows ≤ 2 ^ aw) (s : CheckerBram aw) (a : CheckerSpec aw)
    (i : CheckerIn aw) (h : Tracks numFlows s a) :
    Tracks numFlows (s.step numFlows i) (a.step numFlows i) := by
  rw [Tracks] at h
  cases hc : s.clearing with
  | true =>
    rw [hc, if_pos rfl] at h
    exact tracks_step_sweeping hn hc h i
  | false =>
    rw [hc, if_neg (by simp)] at h
    exact tracks_step_live hc h i

/-- A cycle without an event and without a clear. -/
def CheckerIn.Quiet (numFlows : ℕ) (i : CheckerIn aw) : Prop :=
  i.clear = false ∧ i.eventTake numFlows = false

/-- The pipeline is empty and no sweep is going on. -/
def CheckerBram.Drained (s : CheckerBram aw) : Prop := s.clearing = false ∧ s.s1Valid = false

/-- A drained memory holds every event. -/
theorem Tracks.mem_of_drained {s : CheckerBram aw} {a : CheckerSpec aw}
    (h : Tracks numFlows s a) (hd : s.Drained) (j : BitVec aw) (hj : j.toNat < numFlows) :
    s.mem j = recordOf a.events j := by
  rw [Tracks, if_neg (by simp [hd.1])] at h
  obtain ⟨done, hdone, hmem⟩ := h.mem
  rw [hdone, hd.2, if_neg (by simp), List.append_nil]
  exact hmem j hj

theorem Tracks.sweep_le {s : CheckerBram aw} {a : CheckerSpec aw} (h : Tracks numFlows s a) :
    a.sweep ≤ numFlows + 1 ∧ (a.sweep ≠ 0 → a.events = []) ∧
      s.clearing = decide (a.sweep ≠ 0) := by
  rw [Tracks] at h
  cases hc : s.clearing with
  | true =>
    rw [hc, if_pos rfl] at h
    have hsum := h.sweep
    have hpos := h.sweep_pos
    exact ⟨by omega, fun _ => h.events, (decide_eq_true (by omega)).symm⟩
  | false =>
    rw [hc, if_neg (by simp)] at h
    exact ⟨by rw [h.sweep]; omega, fun hne => absurd h.sweep hne, by simp [h.sweep]⟩

/-- Quiet cycles only let the sweep go on. -/
theorem CheckerSpec.run_quiet {a : CheckerSpec aw} (ha : a.sweep ≠ 0 → a.events = [])
    {quiet : List (CheckerIn aw)} (hq : ∀ i ∈ quiet, i.Quiet numFlows) :
    run (CheckerSpec.step numFlows) a quiet =
      { sweep := a.sweep - quiet.length, events := a.events } := by
  induction quiet generalizing a with
  | nil => rfl
  | cons i quiet ih =>
    obtain ⟨hclear, htake⟩ := hq i List.mem_cons_self
    have hstep : a.step numFlows i = { sweep := a.sweep - 1, events := a.events } := by
      rw [CheckerSpec.step]
      by_cases hs : a.sweep = 0
      · cases a
        simp_all
      · rw [if_pos hs, ha hs]
    rw [run_cons, hstep, ih _ fun j hj => hq j (List.mem_cons_of_mem _ hj)]
    · simp only [List.length_cons, CheckerSpec.mk.injEq, and_true]
      omega
    · intro hne
      apply ha
      simp only at hne
      omega

theorem s1Valid_step_of_quiet (s : CheckerBram aw) {i : CheckerIn aw} (hq : i.Quiet numFlows) :
    (s.step numFlows i).s1Valid = false := by
  obtain ⟨hclear, htake⟩ := hq
  simp only [CheckerBram.step, hclear, htake]
  split_ifs <;> rfl

end Refine

/-- **A run keeps the memory and the events together.** -/
theorem tracks_run {numFlows aw : ℕ} (haw : aw = Nat.clog 2 numFlows) {s : CheckerBram aw}
    (hreset : s.Reset) (ins : List (CheckerIn aw)) :
    Tracks numFlows (run (CheckerBram.step numFlows) s ins)
      (run (CheckerSpec.step numFlows) { sweep := numFlows + 1, events := [] } ins) := by
  have hn : numFlows ≤ 2 ^ aw := haw ▸ Nat.le_pow_clog (by decide) _
  exact run_simulation (tracks_step hn) (tracks_reset hreset) ins

/-- **The checker's memory refines the events.**  After a reset and any cycles,
a drained memory holds for every flow the fold of the update over the events
taken for it since the last clear, in their order; and a quiet spell longer than
a sweep drains it, without a change to these events. -/
theorem checker_refines_events {numFlows aw : ℕ} (haw : aw = Nat.clog 2 numFlows)
    {s : CheckerBram aw} (hreset : s.Reset) (ins : List (CheckerIn aw)) :
    ((run (CheckerBram.step numFlows) s ins).Drained →
      ∀ j : BitVec aw, j.toNat < numFlows →
        (run (CheckerBram.step numFlows) s ins).mem j = recordOf (takenEvents numFlows ins) j) ∧
    ∀ quiet : List (CheckerIn aw), (∀ i ∈ quiet, i.Quiet numFlows) →
      numFlows + 1 ≤ quiet.length →
        (run (CheckerBram.step numFlows) s (ins ++ quiet)).Drained ∧
        ∀ j : BitVec aw, j.toNat < numFlows →
          (run (CheckerBram.step numFlows) s (ins ++ quiet)).mem j =
            recordOf (takenEvents numFlows ins) j := by
  have htracks := tracks_run haw hreset
  refine ⟨(htracks ins).mem_of_drained, ?_⟩
  intro quiet hq hlen
  obtain ⟨hle, hempty, -⟩ := (htracks ins).sweep_le
  have hspec := CheckerSpec.run_quiet hempty hq
  have hafter := htracks (ins ++ quiet)
  rw [run_append (CheckerSpec.step numFlows), hspec] at hafter
  have hdrained : (run (CheckerBram.step numFlows) s (ins ++ quiet)).Drained := by
    refine ⟨?_, ?_⟩
    · rw [hafter.sweep_le.2.2]
      simp only [ne_eq, decide_not, Bool.not_eq_false', decide_eq_true_eq]
      omega
    · obtain ⟨l, i, rfl⟩ : ∃ l i, quiet = l ++ [i] := by
        rcases List.eq_nil_or_concat quiet with h | ⟨l, i, h⟩
        · rw [h] at hlen
          simp at hlen
        · exact ⟨l, i, by simpa using h⟩
      rw [← List.append_assoc, run_concat]
      exact s1Valid_step_of_quiet _ (hq i (by simp))
  refine ⟨hdrained, ?_⟩
  intro j hj
  exact hafter.mem_of_drained hdrained j hj

/-- A cycle with a test frame for slot 1. -/
def sampleCheckerIn (seq : BitVec 64) : CheckerIn 1 :=
  { clear := false, timestamp := 50, latCorrection := 0
    key := { isTest := true, testSequence := seq, testTxTimestamp := 10 }
    result := { hit := true, action := .testRx, localFlowId := 1 }
    eventValid := true, byteLen := 64, rdAddr := 0, rdEn := false }

/-- A cycle without a frame. -/
def sampleCheckerIdle : CheckerIn 1 := { sampleCheckerIn 0 with eventValid := false }

/-- A checker of two slots after a reset, with all-zero memory. -/
def sampleChecker : CheckerBram 1 :=
  { mem := fun _ => { minLatency := 0, jitterMin := 0 }, aRd := {}, bRd := {}, clearing := true
    clearIdx := 0, s1Valid := false, s1 := {}, s2We := false, s2Idx := 0, s2Rec := {}
    rdValid := false }

/-- Two frames back to back, after the sweep: both are counted. -/
theorem checker_refines_events_sample :
    ((run (CheckerBram.step 2) sampleChecker
      ([sampleCheckerIdle, sampleCheckerIdle, sampleCheckerIdle, sampleCheckerIn 0,
        sampleCheckerIn 1] ++ List.replicate 3 sampleCheckerIdle)).mem 1).rxFrames = 2 := by
  have hquiet : ∀ i ∈ List.replicate 3 sampleCheckerIdle, i.Quiet 2 := by
    intro i hi
    rw [List.eq_of_mem_replicate hi]
    exact ⟨rfl, rfl⟩
  have hreset : sampleChecker.Reset := ⟨rfl, rfl, rfl, rfl⟩
  have h := (checker_refines_events (show 1 = Nat.clog 2 2 by decide) hreset
    [sampleCheckerIdle, sampleCheckerIdle, sampleCheckerIdle, sampleCheckerIn 0,
      sampleCheckerIn 1]).2 _ hquiet (by decide)
  rw [h.2 1 (by decide)]
  decide +kernel

end PacketWyrm
