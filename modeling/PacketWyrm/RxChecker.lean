import PacketWyrm.ParserAxis
import PacketWyrm.Classify

/-!
# The receive checkers and their merged readout

`pw_test_rx_checker_bram`, one for each port, and the merge of
`pw_data_plane_axis`.  A checker keeps a record for every slot and updates it
for every frame that is classified as test traffic for the slot; the pipeline
with its bypass makes an update atomic.  The readout of a slot merges the
records of the two ports: counters are added, the last sequence number is or-ed,
minima and maxima are compared.

## Main definitions

* `CheckerRec` — a record, `CheckerRec.update` — the update for a frame.
* `CardRx` — the parsers' windows and the checkers of a card; `CardRx.frame` —
  one received frame.
* `merged` — the readout of a slot.

## Main results

* `merged_of_blank` — a port without frames for the slot does not show.
* `CardRx.rx_merged_frame` — a frame for the slot adds one to the merged count.
-/

namespace PacketWyrm

/-! ## Records -/

/-- A record of the checker; `blank_rec` by default. -/
structure CheckerRec where
  expectedSeq : BitVec 64 := 0#64
  lastSeq : BitVec 64 := 0#64
  lost : BitVec 64 := 0#64
  duplicate : BitVec 64 := 0#64
  outOfOrder : BitVec 64 := 0#64
  rxFrames : BitVec 64 := 0#64
  sumLatency : BitVec 64 := 0#64
  sampleCount : BitVec 64 := 0#64
  jitterSum : BitVec 64 := 0#64
  minLatency : BitVec 32 := 0xFFFFFFFF#32
  maxLatency : BitVec 32 := 0#32
  jitterMin : BitVec 32 := 0xFFFFFFFF#32
  jitterMax : BitVec 32 := 0#32
  prevLatency : BitVec 32 := 0#32
  flowSeen : Bool := false
  rxBytes : BitVec 64 := 0#64
  deriving DecidableEq, Repr

/-- The corrected latency, clamped to 32 bits; a negative one reads as 0. -/
def clampLatency (raw : BitVec 64) : BitVec 64 :=
  if raw.msb then 0
  else if raw.extractLsb' 32 32 ≠ 0 then 0xFFFFFFFF
  else raw

/-- Latency and its extremes. -/
def CheckerRec.addLatency (r : CheckerRec) (lat : BitVec 64) : CheckerRec :=
  let lat32 := lat.setWidth 32
  { r with
    sumLatency := r.sumLatency + lat
    sampleCount := r.sampleCount + 1
    minLatency := if lat32 < r.minLatency then lat32 else r.minLatency
    maxLatency := if r.maxLatency < lat32 then lat32 else r.maxLatency }

/-- Jitter, once a sample came before. -/
def CheckerRec.addJitter (r : CheckerRec) (lat32 : BitVec 32) : CheckerRec :=
  if r.flowSeen then
    let jd := if r.prevLatency ≤ lat32 then lat32 - r.prevLatency else r.prevLatency - lat32
    { r with
      jitterSum := r.jitterSum + jd.setWidth 64
      jitterMin := if jd < r.jitterMin then jd else r.jitterMin
      jitterMax := if r.jitterMax < jd then jd else r.jitterMax
      prevLatency := lat32 }
  else { r with prevLatency := lat32 }

/-- The sequence number against the expected one. -/
def CheckerRec.addSequence (r : CheckerRec) (seq : BitVec 64) : CheckerRec :=
  let r := { r with lastSeq := seq }
  if !r.flowSeen then { r with expectedSeq := seq + 1, flowSeen := true }
  else if seq = r.expectedSeq then { r with expectedSeq := r.expectedSeq + 1 }
  else if r.expectedSeq < seq then
    { r with lost := r.lost + (seq - r.expectedSeq), expectedSeq := seq + 1 }
  else if seq = r.expectedSeq - 1 then { r with duplicate := r.duplicate + 1 }
  else { r with outOfOrder := r.outOfOrder + 1 }

/-- The update for a frame: every frame counts, only a frame with a test header
has a sequence number and a latency. -/
def CheckerRec.update (r : CheckerRec) (k : PwMatchKey) (lat : BitVec 64) (len : BitVec 16) :
    CheckerRec :=
  let r := { r with rxFrames := r.rxFrames + 1, rxBytes := r.rxBytes + len.setWidth 64 }
  if k.isTest then
    ((r.addLatency lat).addJitter (lat.setWidth 32)).addSequence k.testSequence
  else r

theorem rxFrames_addJitter (r : CheckerRec) (lat32 : BitVec 32) :
    (r.addJitter lat32).rxFrames = r.rxFrames := by
  rw [CheckerRec.addJitter]
  split <;> rfl

theorem rxFrames_addSequence (r : CheckerRec) (seq : BitVec 64) :
    (r.addSequence seq).rxFrames = r.rxFrames := by
  simp only [CheckerRec.addSequence]
  split
  · rfl
  · split
    · rfl
    · split
      · rfl
      · split <;> rfl

/-- Every update counts one frame. -/
theorem CheckerRec.rxFrames_update (r : CheckerRec) (k : PwMatchKey) (lat : BitVec 64)
    (len : BitVec 16) : (r.update k lat len).rxFrames = r.rxFrames + 1 := by
  simp only [CheckerRec.update]
  split
  · rw [rxFrames_addSequence, rxFrames_addJitter]
    rfl
  · rfl

/-! ## The readout -/

/-- The receive fields of a flow's readout. -/
structure FlowReadout where
  rx : BitVec 64 := 0#64
  rxBytes : BitVec 64 := 0#64
  lost : BitVec 64 := 0#64
  dup : BitVec 64 := 0#64
  ooo : BitVec 64 := 0#64
  lastSeq : BitVec 64 := 0#64
  minLat : BitVec 64 := BitVec.allOnes 64
  maxLat : BitVec 64 := 0#64
  sumLat : BitVec 64 := 0#64
  samples : BitVec 64 := 0#64
  jitMin : BitVec 32 := BitVec.allOnes 32
  jitMax : BitVec 32 := 0#32
  jitSum : BitVec 64 := 0#64
  deriving DecidableEq, Repr

/-- The fields a checker's read port gives. -/
def CheckerRec.readout (r : CheckerRec) : FlowReadout :=
  { rx := r.rxFrames, rxBytes := r.rxBytes, lost := r.lost, dup := r.duplicate
    ooo := r.outOfOrder, lastSeq := r.lastSeq
    minLat := r.minLatency.setWidth 64, maxLat := r.maxLatency.setWidth 64
    sumLat := r.sumLatency, samples := r.sampleCount
    jitMin := r.jitterMin, jitMax := r.jitterMax, jitSum := r.jitterSum }

/-- Merge one port into the sums. -/
def FlowReadout.merge (a r : FlowReadout) : FlowReadout :=
  { rx := a.rx + r.rx, rxBytes := a.rxBytes + r.rxBytes, lost := a.lost + r.lost
    dup := a.dup + r.dup, ooo := a.ooo + r.ooo, lastSeq := a.lastSeq ||| r.lastSeq
    minLat := if r.minLat < a.minLat then r.minLat else a.minLat
    maxLat := if a.maxLat < r.maxLat then r.maxLat else a.maxLat
    sumLat := a.sumLat + r.sumLat, samples := a.samples + r.samples
    jitMin := if r.jitMin < a.jitMin then r.jitMin else a.jitMin
    jitMax := if a.jitMax < r.jitMax then r.jitMax else a.jitMax
    jitSum := a.jitSum + r.jitSum }

/-- The merge over the ports, from the sums' initial values. -/
def mergePorts (recs : Fin 2 → CheckerRec) : FlowReadout :=
  (List.finRange 2).foldl (fun a p => a.merge (recs p).readout) {}

theorem mergePorts_eq (recs : Fin 2 → CheckerRec) :
    mergePorts recs = ((({} : FlowReadout).merge (recs 0).readout).merge (recs 1).readout) := rfl

section Neutral

variable {w : ℕ} {x y : BitVec w}

theorem minOf_left (h : x ≤ y) : (if x < y then x else y) = x := by
  split
  · rfl
  · rename_i hlt
    apply BitVec.eq_of_toNat_eq
    rw [BitVec.lt_def] at hlt
    rw [BitVec.le_def] at h
    omega

theorem minOf_right (h : x ≤ y) : (if y < x then y else x) = x := by
  rw [if_neg]
  rw [BitVec.lt_def]
  rw [BitVec.le_def] at h
  omega

theorem zero_maxOf (x : BitVec w) : (if 0#w < x then x else 0#w) = x := by
  split
  · rfl
  · rename_i hlt
    rw [BitVec.lt_def] at hlt
    apply BitVec.eq_of_toNat_eq
    rw [BitVec.toNat_ofNat, Nat.zero_mod] at hlt ⊢
    omega

theorem maxOf_zero (x : BitVec w) : (if x < 0#w then 0#w else x) = x := by
  rw [if_neg]
  rw [BitVec.lt_def]
  simp

theorem le_allOnes (x : BitVec w) : x ≤ BitVec.allOnes w := by
  have := x.isLt
  rw [BitVec.le_def, BitVec.toNat_allOnes]
  omega

/-- Latencies in 64 bits stay below the seed of a blank record. -/
theorem latency_le_blank (x : BitVec 32) : x.setWidth 64 ≤ (0xFFFFFFFF#32).setWidth 64 := by
  have := x.isLt
  rw [BitVec.le_def, BitVec.toNat_setWidth, BitVec.toNat_setWidth]
  simp only [BitVec.toNat_ofNat]
  omega

end Neutral

/-- The initial values are neutral. -/
theorem FlowReadout.init_merge (r : CheckerRec) :
    ({} : FlowReadout).merge r.readout = r.readout := by
  simp only [FlowReadout.merge, CheckerRec.readout, BitVec.zero_add, BitVec.zero_or,
    FlowReadout.mk.injEq, true_and, and_true]
  exact ⟨minOf_left (le_allOnes _), zero_maxOf _, minOf_left (le_allOnes _), zero_maxOf _⟩

theorem FlowReadout.merge_blank (r : CheckerRec) :
    r.readout.merge ({} : CheckerRec).readout = r.readout := by
  have hzero : (0#32).setWidth 64 = 0#64 := rfl
  have hjit : r.jitterMin ≤ 0xFFFFFFFF#32 := le_allOnes r.jitterMin
  simp only [FlowReadout.merge, CheckerRec.readout, BitVec.add_zero, BitVec.or_zero, hzero,
    maxOf_zero, minOf_right (latency_le_blank r.minLatency), minOf_right hjit]

theorem FlowReadout.blank_merge (r : CheckerRec) :
    ({} : CheckerRec).readout.merge r.readout = r.readout := by
  have hzero : (0#32).setWidth 64 = 0#64 := rfl
  have hjit : r.jitterMin ≤ 0xFFFFFFFF#32 := le_allOnes r.jitterMin
  simp only [FlowReadout.merge, CheckerRec.readout, BitVec.zero_add, BitVec.zero_or, hzero,
    zero_maxOf, minOf_left (latency_le_blank r.minLatency), minOf_left hjit]

/-- A blank record is neutral: the merge is the other port's own record. -/
theorem merged_of_blank {recs : Fin 2 → CheckerRec} {p q : Fin 2} (hpq : q ≠ p)
    (h : recs q = {}) : mergePorts recs = (recs p).readout := by
  have hcases : (p = 0 ∧ q = 1) ∨ (p = 1 ∧ q = 0) := by omega
  rw [mergePorts_eq, FlowReadout.init_merge]
  rcases hcases with ⟨rfl, rfl⟩ | ⟨rfl, rfl⟩
  · rw [h, FlowReadout.merge_blank]
  · rw [h, FlowReadout.blank_merge]

/-- The merged frame count is the sum of the ports'. -/
theorem rx_mergePorts (recs : Fin 2 → CheckerRec) :
    (mergePorts recs).rx = (recs 0).rxFrames + (recs 1).rxFrames := by
  rw [mergePorts_eq, FlowReadout.init_merge]
  rfl

/-! ## A card's receive side -/

/-- A frame as it arrives: its port, its bytes and its wire timestamp. -/
structure RxArrival where
  port : Fin 2
  bytes : List Byte
  wireTs : BitVec 64

/-- The frame as the port's parser sees it. -/
def RxArrival.frame (a : RxArrival) : RxFrame := { port := BitVec.ofNat 4 a.port, bytes := a.bytes }

/-- The parsers' windows and the checkers' records, by slot. -/
structure CardRx where
  win : Fin 2 → Window
  recs : Fin 2 → ℕ → CheckerRec

/-- Cleared checkers, before the first frame. -/
def CardRx.init : CardRx := { win := fun _ _ => 0, recs := fun _ _ => {} }

/-- The programming that the receive side works with: the tables, the latency
correction of each slot, and the number of checker slots. -/
structure RxProgram (lfw : ℕ) where
  tables : CardTables lfw
  latCorr : ℕ → BitVec 64
  numFlows : ℕ

variable {lfw : ℕ} (P : RxProgram lfw)

/-- `chk_ev` and `event_take`: the slot that a parsed frame updates. -/
def RxProgram.slotOf (o : ParserOut) : Option ℕ :=
  let e := P.tables.eff o.key o.window o.base
  if o.keyValid && e.hit && decide (e.action = .testRx) && decide (e.localFlowId.toNat < P.numFlows)
  then some e.localFlowId.toNat
  else none

theorem RxProgram.slotOf_eq_some {o : ParserOut} {i : ℕ} :
    P.slotOf o = some i ↔ o.keyValid = true ∧ (P.tables.eff o.key o.window o.base).hit = true ∧
      (P.tables.eff o.key o.window o.base).action = .testRx ∧
      (P.tables.eff o.key o.window o.base).localFlowId.toNat = i ∧ i < P.numFlows := by
  simp only [RxProgram.slotOf, Option.ite_none_right_eq_some, Bool.and_eq_true,
    decide_eq_true_eq, Option.some.injEq]
  constructor
  · intro h
    obtain ⟨⟨⟨⟨hkv, hhit⟩, hact⟩, hlt⟩, rfl⟩ := h
    exact ⟨hkv, hhit, hact, rfl, hlt⟩
  · intro h
    obtain ⟨hkv, hhit, hact, rfl, hlt⟩ := h
    exact ⟨⟨⟨⟨hkv, hhit⟩, hact⟩, hlt⟩, rfl⟩

/-- One frame: the port's window takes its bytes, and the port's checker updates
the slot it is classified to. -/
def CardRx.frame (s : CardRx) (a : RxArrival) : CardRx :=
  let o := parseFrame (s.win a.port) a.frame
  { win := Function.update s.win a.port o.window
    recs :=
      match P.slotOf o with
      | some i =>
        let lat := clampLatency (a.wireTs + P.latCorr i - o.key.testTxTimestamp)
        Function.update s.recs a.port
          (Function.update (s.recs a.port) i ((s.recs a.port i).update o.key lat o.frameLen))
      | none => s.recs }

/-- A sequence of frames. -/
def CardRx.run (s : CardRx) (l : List RxArrival) : CardRx := l.foldl (CardRx.frame P) s

/-- The merged readout of a slot. -/
def CardRx.merged (s : CardRx) (i : ℕ) : FlowReadout := mergePorts fun p => s.recs p i

/-- What a frame does to the record of a slot: the frame is the slot's, and the
port's record counts one more; or the records of the slot stay. -/
theorem CardRx.recs_frame (s : CardRx) (a : RxArrival) (i : ℕ) :
    (P.slotOf (parseFrame (s.win a.port) a.frame) = some i ∧
      (∀ p, p ≠ a.port → (s.frame P a).recs p i = s.recs p i) ∧
      ((s.frame P a).recs a.port i).rxFrames = (s.recs a.port i).rxFrames + 1) ∨
    (P.slotOf (parseFrame (s.win a.port) a.frame) ≠ some i ∧
      ∀ p, (s.frame P a).recs p i = s.recs p i) := by
  cases hslot : P.slotOf (parseFrame (s.win a.port) a.frame) with
  | none =>
    refine Or.inr ⟨by simp, ?_⟩
    intro p
    simp only [CardRx.frame, hslot]
  | some j =>
    by_cases hji : j = i
    · subst hji
      refine Or.inl ⟨rfl, ?_, ?_⟩
      · intro p hp
        simp only [CardRx.frame, hslot, Function.update_of_ne hp]
      · simp only [CardRx.frame, hslot, Function.update_self]
        exact CheckerRec.rxFrames_update _ _ _ _
    · refine Or.inr ⟨by simpa using hji, ?_⟩
      intro p
      simp only [CardRx.frame, hslot]
      by_cases hp : p = a.port
      · rw [hp, Function.update_self, Function.update_of_ne (Ne.symm hji)]
      · rw [Function.update_of_ne hp]

/-- **A frame for the slot adds one to the merged count**, on whatever port it
arrives. -/
theorem CardRx.rx_merged_frame (s : CardRx) (a : RxArrival) {i : ℕ}
    (h : P.slotOf (parseFrame (s.win a.port) a.frame) = some i) :
    ((s.frame P a).merged i).rx = (s.merged i).rx + 1 := by
  rcases s.recs_frame P a i with ⟨-, hother, hcount⟩ | ⟨hno, -⟩
  · rw [CardRx.merged, CardRx.merged, rx_mergePorts, rx_mergePorts]
    have hcases : a.port = 0 ∨ a.port = 1 := by omega
    rcases hcases with hp | hp
    · rw [hp] at hcount
      rw [hcount, hother 1 (by rw [hp]; decide)]
      rw [BitVec.add_assoc, BitVec.add_assoc, BitVec.add_comm 1]
    · rw [hp] at hcount
      rw [hcount, hother 0 (by rw [hp]; decide), BitVec.add_assoc]
  · exact absurd h hno

/-- A frame that is not the slot's leaves the slot's readout alone. -/
theorem CardRx.merged_frame_of_ne (s : CardRx) (a : RxArrival) {i : ℕ}
    (h : P.slotOf (parseFrame (s.win a.port) a.frame) ≠ some i) :
    (s.frame P a).merged i = s.merged i := by
  rcases s.recs_frame P a i with ⟨hyes, -, -⟩ | ⟨-, hsame⟩
  · exact absurd hyes h
  · rw [CardRx.merged, CardRx.merged]
    congr 1
    funext p
    exact hsame p

/-! ## Runs -/

@[simp] theorem CardRx.run_nil (s : CardRx) : s.run P [] = s := rfl

@[simp] theorem CardRx.run_cons (s : CardRx) (a : RxArrival) (l : List RxArrival) :
    s.run P (a :: l) = (s.frame P a).run P l := rfl

theorem CardRx.run_concat (s : CardRx) (l : List RxArrival) (a : RxArrival) :
    s.run P (l ++ [a]) = (s.run P l).frame P a := by
  simp [CardRx.run]

/-- A port on which no frame is the slot's keeps the slot's record. -/
theorem CardRx.recs_run_of_ne {q : Fin 2} {i : ℕ} {l : List RxArrival} (s : CardRx)
    (h : ∀ a ∈ l, a.port = q → ∀ old, P.slotOf (parseFrame old a.frame) ≠ some i) :
    (s.run P l).recs q i = s.recs q i := by
  induction l generalizing s with
  | nil => rfl
  | cons a l ih =>
    have hhead : (s.frame P a).recs q i = s.recs q i := by
      rcases s.recs_frame P a i with ⟨hyes, hother, -⟩ | ⟨-, hsame⟩
      · apply hother
        intro hq
        exact h a List.mem_cons_self hq.symm _ hyes
      · exact hsame q
    rw [CardRx.run_cons, ih _ fun b hb => h b (List.mem_cons_of_mem _ hb), hhead]

end PacketWyrm
