import Mathlib.Data.Int.Notation
import PacketWyrm.Compile

/-!
# The `flow.stats` reply and the verdict of a test run

The daemon's `build_flow_stats` reads each flow's counters and packs them into
an object; the client's `cmd_test_run` reads the objects back and decides.  The
daemon knows which flows are measured, the client has to see it in the reply.

Fields of the reply that only label a flow (its name and ports, whether it is
enabled, the live clock offset) are left out; nothing of the verdict reads them.

## Main definitions

* `buildFlowStats` — the reply.
* `cmdTestRun` — the exit code of the client, 0 for PASS.
* `Clean` — the counters of a flow that passed.

## Main results

* `cmdTestRun_eq_zero_iff` — which flows decide.
* `verdict_by_measured_iff` — exactly when only measured flows do.
* `background_flow_fails_run` — a run that a background flow fails.
-/

namespace PacketWyrm

open Lib

/-! ## Counters -/

/-- `struct pw_flow_stats`. -/
structure PwFlowStats where
  txFrames : BitVec 64 := 0
  txBytes : BitVec 64 := 0
  rxFrames : BitVec 64 := 0
  rxBytes : BitVec 64 := 0
  lastSequence : BitVec 64 := 0
  sequenceGapCount : BitVec 64 := 0
  lostPacketsEstimated : BitVec 64 := 0
  duplicateCount : BitVec 64 := 0
  outOfOrderCount : BitVec 64 := 0
  latePacketCount : BitVec 64 := 0
  minLatency : BitVec 32 := 0
  maxLatency : BitVec 32 := 0
  sumLatency : BitVec 64 := 0
  sampleCount : BitVec 64 := 0
  jitterMin : BitVec 32 := 0
  jitterMax : BitVec 32 := 0
  jitterSum : BitVec 64 := 0
  deriving DecidableEq, Repr

/-- `struct card_runtime`: an open card, the result of its snapshot, and what
`flow_stats_read` gives for a slot, with its success. -/
structure CardRuntime where
  isOpen : Bool
  snapshotOk : Bool
  flowStatsRead : BitVec 32 → PwFlowStats × Bool

/-- `MAX_CARDS`. -/
def maxCards : ℕ := 16

/-- `snap_ok[ci]`, for a card that has an entry there. -/
def snapOk (ci : ℕ) (c : CardRuntime) : Bool := if ci < maxCards then c.snapshotOk else true

/-- The counters of a slot, read from the card with the given id; they stay 0
when the card cannot be read. -/
def readSlot (cfg : PwConfig) (cards : List CardRuntime) (cardId : BitVec 16)
    (lfid : BitVec 32) : PwFlowStats × Bool :=
  match cfg.cards.findIdx? (fun c => c.id == cardId) with
  | none => ({}, false)
  | some ci =>
    match cards[ci]? with
    | none => ({}, false)
    | some c =>
      if c.isOpen then
        let (stats, ok) := c.flowStatsRead lfid
        (stats, snapOk ci c && ok)
      else ({}, false)

/-! ## The reply -/

/-- A JSON value, as far as the reply has them. -/
inductive JsonValue where
  | int (v : ℤ)
  | bool (b : Bool)
  | string (s : String)
  deriving DecidableEq, Repr

/-- A JSON object. -/
abbrev JsonObject := List (String × JsonValue)

/-- `json_object_object_get_ex`. -/
def JsonObject.get (o : JsonObject) (key : String) : Option JsonValue := o.lookup key

/-- `json_object_get_int64`. -/
def JsonValue.getInt64 : JsonValue → ℤ
  | .int v => v
  | .bool b => if b then 1 else 0
  | .string s => s.toInt?.getD 0

/-- `json_object_new_int64((int64_t) v)`. -/
def jsonInt64 (v : BitVec 64) : JsonValue := .int v.toInt

/-- `sum / count`, 0 without samples. -/
def average (sum count : BitVec 64) : BitVec 64 := if count = 0 then 0 else sum / count

/-- The latency fields, present only when latency is valid. -/
def latencyFields (rs : PwFlowStats) (xcard : Bool) : JsonObject :=
  let sampled := decide (rs.sampleCount ≠ 0)
  [("min_latency", .int (if sampled then rs.minLatency.toNat else 0)),
   ("max_latency", .int rs.maxLatency.toNat),
   ("avg_latency", jsonInt64 (average rs.sumLatency rs.sampleCount)),
   ("sample_count", jsonInt64 rs.sampleCount),
   ("jitter_min", .int (if sampled then rs.jitterMin.toNat else 0)),
   ("jitter_max", .int rs.jitterMax.toNat),
   ("jitter_avg", jsonInt64 (average rs.jitterSum rs.sampleCount)),
   ("latency_method", .string (if xcard then "gpio-corrected" else "same-card"))]

/-- The object of one flow.  The receive slot of a background flow is not read,
its counters stay 0, but they are reported like any other flow's. -/
def flowObject (cfg : PwConfig) (cards : List CardRuntime) (m : PwFlowMeta) : JsonObject :=
  let (rs, rxOk) :=
    if m.rxSlotValid then readSlot cfg cards m.rxCardId m.rxLocalFlowId else ({}, true)
  let (ts, txOk) := readSlot cfg cards m.txCardId m.txLocalFlowId
  let readOk := rxOk && txOk
  let xcard := m.txCardId != m.rxCardId
  let latOk := readOk && m.rxSlotValid && (m.latencyValid || xcard)
  [("id", .int m.globalFlowId.toNat),
   ("tx_card_id", .int m.txCardId.toNat),
   ("rx_card_id", .int m.rxCardId.toNat),
   ("read_ok", .bool readOk),
   ("tx_frames", jsonInt64 ts.txFrames),
   ("tx_bytes", jsonInt64 ts.txBytes),
   ("rx_frames", jsonInt64 rs.rxFrames),
   ("rx_bytes", jsonInt64 rs.rxBytes),
   ("lost", jsonInt64 rs.lostPacketsEstimated),
   ("duplicate", jsonInt64 rs.duplicateCount),
   ("out_of_order", jsonInt64 rs.outOfOrderCount),
   ("seq_gap", jsonInt64 rs.sequenceGapCount),
   ("last_seq", jsonInt64 rs.lastSequence),
   ("latency_valid", .bool latOk)] ++
  (if latOk then latencyFields rs xcard else [])

/-- `build_flow_stats`: the `flows` array, of one flow when a filter is given. -/
def buildFlowStats (cfg : PwConfig) (prog : PwProgram) (cards : List CardRuntime)
    (filterFlowId : ℤ) : List JsonObject :=
  (prog.flowMeta.filter fun m =>
    !(decide (0 ≤ filterFlowId) && m.globalFlowId.toInt != filterFlowId)).map
    (flowObject cfg cards)

/-! ## The verdict -/

/-- The verdict printed for one flow. -/
inductive FlowVerdict where
  | txOnly
  | noRx
  | fail
  | pass
  deriving DecidableEq, Repr

/-- An integer field, 0 when it is absent. -/
def JsonObject.getInt (o : JsonObject) (key : String) : ℤ :=
  match o.get key with
  | some v => v.getInt64
  | none => 0

/-- The client's view of one flow: measured when both receive fields are there. -/
def flowVerdict (f : JsonObject) : FlowVerdict :=
  let isMeasured := (f.get "rx_frames").isSome && (f.get "rx_card_id").isSome
  if !isMeasured then .txOnly
  else if f.getInt "rx_frames" = 0 then .noRx
  else if f.getInt "lost" ≠ 0 ∨ f.getInt "duplicate" ≠ 0 ∨ f.getInt "out_of_order" ≠ 0 then .fail
  else .pass

/-- Count one flow: `measured` and `failed`. -/
def tally (counts : ℕ × ℕ) (f : JsonObject) : ℕ × ℕ :=
  match flowVerdict f with
  | .txOnly => counts
  | .noRx => (counts.1 + 1, counts.2 + 1)
  | .fail => (counts.1 + 1, counts.2 + 1)
  | .pass => (counts.1 + 1, counts.2)

/-- The counts over the whole reply. -/
def countVerdicts (flows : List JsonObject) : ℕ × ℕ := flows.foldl tally (0, 0)

/-- `cmd_test_run` once it has the reply: its exit code. -/
def cmdTestRun (flows : List JsonObject) : ℕ := if (countVerdicts flows).2 ≠ 0 then 1 else 0

/-! ## Which flows decide -/

/-- The counters of a flow that the run received in order and complete. -/
def Clean (cfg : PwConfig) (cards : List CardRuntime) (m : PwFlowMeta) : Prop :=
  let rs := (readSlot cfg cards m.rxCardId m.rxLocalFlowId).1
  0 < rs.rxFrames.toNat ∧ rs.lostPacketsEstimated = 0 ∧ rs.duplicateCount = 0 ∧
    rs.outOfOrderCount = 0

theorem toInt_eq_zero_iff {v : BitVec 64} : v.toInt = 0 ↔ v = 0 := by
  constructor
  · intro h
    exact BitVec.eq_of_toInt_eq (h.trans rfl)
  · rintro rfl
    rfl

/-- The counters a flow is reported with. -/
def reported (cfg : PwConfig) (cards : List CardRuntime) (m : PwFlowMeta) : PwFlowStats :=
  if m.rxSlotValid then (readSlot cfg cards m.rxCardId m.rxLocalFlowId).1 else {}

section Reply

variable (cfg : PwConfig) (cards : List CardRuntime) (m : PwFlowMeta)

theorem get_rxFrames :
    (flowObject cfg cards m).get "rx_frames" = some (jsonInt64 (reported cfg cards m).rxFrames) := by
  cases h : m.rxSlotValid <;> simp [flowObject, reported, h, JsonObject.get, List.lookup_cons]

theorem get_rxCardId :
    (flowObject cfg cards m).get "rx_card_id" = some (.int m.rxCardId.toNat) := by
  simp [flowObject, JsonObject.get, List.lookup_cons]

theorem get_lost :
    (flowObject cfg cards m).get "lost" =
      some (jsonInt64 (reported cfg cards m).lostPacketsEstimated) := by
  cases h : m.rxSlotValid <;> simp [flowObject, reported, h, JsonObject.get, List.lookup_cons]

theorem get_duplicate :
    (flowObject cfg cards m).get "duplicate" =
      some (jsonInt64 (reported cfg cards m).duplicateCount) := by
  cases h : m.rxSlotValid <;> simp [flowObject, reported, h, JsonObject.get, List.lookup_cons]

theorem get_outOfOrder :
    (flowObject cfg cards m).get "out_of_order" =
      some (jsonInt64 (reported cfg cards m).outOfOrderCount) := by
  cases h : m.rxSlotValid <;> simp [flowObject, reported, h, JsonObject.get, List.lookup_cons]

/-- **Every flow looks measured to the client.** -/
theorem flowVerdict_flowObject :
    flowVerdict (flowObject cfg cards m) =
      let rs := reported cfg cards m
      if rs.rxFrames = 0 then .noRx
      else if rs.lostPacketsEstimated ≠ 0 ∨ rs.duplicateCount ≠ 0 ∨ rs.outOfOrderCount ≠ 0 then
        .fail
      else .pass := by
  have hint : ∀ v : BitVec 64, (jsonInt64 v).getInt64 = v.toInt := fun _ => rfl
  simp only [flowVerdict, JsonObject.getInt, get_rxFrames, get_rxCardId, get_lost, get_duplicate,
    get_outOfOrder, hint, Option.isSome_some, Bool.and_self, Bool.not_true, Bool.false_eq_true,
    if_false, toInt_eq_zero_iff, ne_eq]

end Reply

/-- A flow passes exactly when it has a slot and its counters are clean. -/
theorem flowVerdict_eq_pass_iff (cfg : PwConfig) (cards : List CardRuntime) (m : PwFlowMeta) :
    flowVerdict (flowObject cfg cards m) = .pass ↔ m.rxSlotValid = true ∧ Clean cfg cards m := by
  have hpos : ∀ v : BitVec 64, 0 < v.toNat ↔ v ≠ 0 := by
    intro v
    rw [Nat.pos_iff_ne_zero, ne_eq, ne_eq, ← BitVec.toNat_inj]
    rfl
  rw [flowVerdict_flowObject]
  cases hv : m.rxSlotValid with
  | false => simp [reported, hv]
  | true =>
    simp only [reported, hv, if_true, Clean, hpos, true_and]
    generalize (readSlot cfg cards m.rxCardId m.rxLocalFlowId).1 = rs
    by_cases hrx : rs.rxFrames = 0
    · simp [hrx]
    · by_cases hbad : rs.lostPacketsEstimated ≠ 0 ∨ rs.duplicateCount ≠ 0 ∨ rs.outOfOrderCount ≠ 0
      · rw [if_neg hrx, if_pos hbad]
        refine iff_of_false (by simp) ?_
        rintro ⟨-, hl, hd, ho⟩
        rcases hbad with h | h | h
        · exact h hl
        · exact h hd
        · exact h ho
      · rw [if_neg hrx, if_neg hbad]
        simp only [not_or, not_not] at hbad
        exact iff_of_true rfl ⟨hrx, hbad⟩

/-- The failures counted over a list of flows. -/
theorem foldl_tally_eq_zero_iff (flows : List JsonObject) (counts : ℕ × ℕ) :
    (flows.foldl tally counts).2 = 0 ↔
      counts.2 = 0 ∧ ∀ f ∈ flows, flowVerdict f = .txOnly ∨ flowVerdict f = .pass := by
  induction flows generalizing counts with
  | nil => simp
  | cons f flows ih =>
    rw [List.foldl_cons, ih, tally]
    cases hv : flowVerdict f <;> simp [hv]

/-- The run passes exactly when no flow fails. -/
theorem cmdTestRun_eq_zero_iff {flows : List JsonObject} :
    cmdTestRun flows = 0 ↔ ∀ f ∈ flows, flowVerdict f = .txOnly ∨ flowVerdict f = .pass := by
  have h := foldl_tally_eq_zero_iff flows (0, 0)
  simp only [true_and] at h
  rw [← h, cmdTestRun, countVerdicts]
  by_cases hz : (flows.foldl tally (0, 0)).2 = 0
  · simp [hz]
  · simp [hz]

/-- **Which flows decide**: all of them, background flows too. -/
theorem run_passes_iff (cfg : PwConfig) (prog : PwProgram) (cards : List CardRuntime) :
    cmdTestRun (buildFlowStats cfg prog cards (-1)) = 0 ↔
      ∀ m ∈ prog.flowMeta, m.rxSlotValid = true ∧ Clean cfg cards m := by
  have hall : prog.flowMeta.filter (fun m =>
      !(decide ((0 : ℤ) ≤ -1) && m.globalFlowId.toInt != -1)) = prog.flowMeta := by
    simp
  rw [cmdTestRun_eq_zero_iff, buildFlowStats, hall]
  simp only [List.forall_mem_map, ← flowVerdict_eq_pass_iff]
  refine forall_congr' fun m => forall_congr' fun _ => or_iff_right ?_
  rw [flowVerdict_flowObject]
  dsimp only
  split
  · simp
  · split
    · simp
    · simp

/-! ## The verdict and the measured flows -/

/-- The run passes exactly when every measured flow is clean, and leaving out
background flows does not change the verdict. -/
def DecidedByMeasured (cfg : PwConfig) (prog : PwProgram) (cards : List CardRuntime) : Prop :=
  (cmdTestRun (buildFlowStats cfg prog cards (-1)) = 0 ↔
    ∀ m ∈ prog.flowMeta, m.rxSlotValid = true → Clean cfg cards m) ∧
  ∀ keep : PwFlowMeta → Bool,
    cmdTestRun (buildFlowStats cfg
      { prog with flowMeta := prog.flowMeta.filter fun m => m.rxSlotValid || keep m } cards (-1)) =
    cmdTestRun (buildFlowStats cfg prog cards (-1))

theorem cmdTestRun_cases (flows : List JsonObject) : cmdTestRun flows = 0 ∨ cmdTestRun flows = 1 := by
  rw [cmdTestRun]
  split
  · exact .inr rfl
  · exact .inl rfl

theorem all_measured_iff {cfg : PwConfig} {p : PwProgram} (h : pwFlowCompile cfg = .ok p) :
    (∀ m ∈ p.flowMeta, m.rxSlotValid = true) ↔ ∀ f ∈ cfg.flows, f.background = false := by
  obtain ⟨-, -, mid, hflows, hmeta, -⟩ := pwFlowCompile_spec h
  have hmap := rxSlotValid_compileFlows hflows
  rw [← hmeta] at hmap
  calc (∀ m ∈ p.flowMeta, m.rxSlotValid = true)
      ↔ ∀ b ∈ p.flowMeta.map PwFlowMeta.rxSlotValid, b = true := by simp
    _ ↔ ∀ b ∈ cfg.flows.map (fun f => !f.background), b = true := by rw [hmap]
    _ ↔ ∀ f ∈ cfg.flows, f.background = false := by simp

/-- **When only measured flows decide**: without background flows, or when a
measured flow fails the run by itself. -/
theorem verdict_by_measured_iff {cfg : PwConfig} {p : PwProgram} (h : pwFlowCompile cfg = .ok p)
    (cards : List CardRuntime) :
    DecidedByMeasured cfg p cards ↔
      (∀ f ∈ cfg.flows, f.background = false) ∨
        ∃ m ∈ p.flowMeta, m.rxSlotValid = true ∧ ¬Clean cfg cards m := by
  rw [← all_measured_iff h, DecidedByMeasured, run_passes_iff]
  constructor
  · rintro ⟨hpass, -⟩
    by_cases hclean : ∀ m ∈ p.flowMeta, m.rxSlotValid = true → Clean cfg cards m
    · exact .inl fun m hm => (hpass.mpr hclean m hm).1
    · push Not at hclean
      exact .inr hclean
  · rintro (hall | ⟨m, hm, hv, hbad⟩)
    · refine ⟨forall_congr' fun m => forall_congr' fun hm => ?_, fun keep => ?_⟩
      · simp [hall m hm]
      · rw [List.filter_eq_self.mpr fun m hm => by simp [hall m hm]]
    · -- The failing flow is there with and without the background flows.
      have hfail : ∀ q : PwProgram, m ∈ q.flowMeta →
          cmdTestRun (buildFlowStats cfg q cards (-1)) = 1 := by
        intro q hq
        refine (cmdTestRun_cases _).resolve_left fun h0 => hbad ?_
        exact ((run_passes_iff cfg q cards).mp h0 m hq).2
      refine ⟨iff_of_false (fun h => hbad (h m hm).2) fun h => hbad (h m hm hv), fun keep => ?_⟩
      rw [hfail p hm, hfail _ (List.mem_filter.mpr ⟨hm, by simp [hv]⟩)]

/-- A card whose every slot has received all it sent. -/
def sampleRuntime : CardRuntime :=
  { isOpen := true, snapshotOk := true
    flowStatsRead := fun _ => ({ txFrames := 5, rxFrames := 5 }, true) }

theorem verdict_by_measured_sample :
    ∃ p, pwFlowCompile sampleHeaderConfig = .ok p ∧
      DecidedByMeasured sampleHeaderConfig p [sampleRuntime] ∧
      cmdTestRun (buildFlowStats sampleHeaderConfig p [sampleRuntime] (-1)) = 0 := by
  obtain ⟨p, hp, hrun⟩ := exists_of_okAnd
    (show okAnd (pwFlowCompile sampleHeaderConfig) (fun p =>
      cmdTestRun (buildFlowStats sampleHeaderConfig p [sampleRuntime] (-1)) == 0) = true by
      decide +kernel)
  exact ⟨p, hp, (verdict_by_measured_iff hp _).mpr (.inl (by decide)), by simpa using hrun⟩

/-- A measured flow and a background flow. -/
def sampleMixedConfig : PwConfig :=
  { cards := [sampleCard]
    flows :=
      [sampleHeaderFlow 1 0x0A000002, { sampleHeaderFlow 2 0x0A000003 with background := true }] }

/-- **A background flow fails the run.**  The measured flow is clean, yet the
exit code is 1; without the background flow it is 0. -/
theorem background_flow_fails_run :
    ∃ p, pwFlowCompile sampleMixedConfig = .ok p ∧
      (∀ m ∈ p.flowMeta, m.rxSlotValid = true → Clean sampleMixedConfig [sampleRuntime] m) ∧
      cmdTestRun (buildFlowStats sampleMixedConfig p [sampleRuntime] (-1)) = 1 ∧
      cmdTestRun (buildFlowStats sampleMixedConfig
        { p with flowMeta := p.flowMeta.filter PwFlowMeta.rxSlotValid } [sampleRuntime] (-1)) = 0 ∧
      ¬DecidedByMeasured sampleMixedConfig p [sampleRuntime] := by
  obtain ⟨p, hp, hrun⟩ := exists_of_okAnd
    (show okAnd (pwFlowCompile sampleMixedConfig) (fun p =>
      p.flowMeta.all (fun m => m.rxCardId == 0) &&
      cmdTestRun (buildFlowStats sampleMixedConfig p [sampleRuntime] (-1)) == 1 &&
      cmdTestRun (buildFlowStats sampleMixedConfig
        { p with flowMeta := p.flowMeta.filter PwFlowMeta.rxSlotValid } [sampleRuntime] (-1)) == 0)
      = true by decide +kernel)
  simp only [Bool.and_eq_true, beq_iff_eq, List.all_eq_true] at hrun
  obtain ⟨⟨hcard, hfail⟩, hpass⟩ := hrun
  have hclean : ∀ m ∈ p.flowMeta, m.rxSlotValid = true →
      Clean sampleMixedConfig [sampleRuntime] m := by
    intro m hm _
    have hread : readSlot sampleMixedConfig [sampleRuntime] 0 m.rxLocalFlowId =
        ({ txFrames := 5, rxFrames := 5 }, true) := rfl
    rw [Clean, hcard m hm, hread]
    decide
  refine ⟨p, hp, hclean, hfail, hpass, fun hdec => ?_⟩
  rw [hdec.1.mpr hclean] at hfail
  cases hfail

end PacketWyrm
