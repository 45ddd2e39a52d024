import PacketWyrm.AxisPkg
import PacketWyrm.Programming
import PacketWyrm.Lib.Clocked
import Mathlib.Data.Nat.Log

/-!
# The flow table

`pw_flow_table_bram` clock by clock.  The host's words go into a staging memory;
a commit starts a walk that reads one word a cycle, gathers the words of a row,
decodes the row and writes it, with its scheduling descriptor, into the table that
the generators read.  A word that was not written since the reset reads as zero.

Memories are functions of the address; the table's copies for the ports are
written alike and are modelled as one.

## Main definitions

* `PwFlowSched` — the scheduling descriptor, `schedOf` — how a row gives it.
* `FlowTable` — registers and memories, `FlowTable.step` — one clock edge.

## Main results

* `FlowTable.walkAt_step` — what the walk has done after a number of cycles.
* `FlowTable.Idle.run`, `FlowTable.walkAt_run` — the host's writes, and the walk.
-/

namespace PacketWyrm

open Lib

/-- `pw_flow_sched_t`. -/
structure PwFlowSched where
  valid : Bool := false
  egress : BitVec 4 := 0
  tokensFp : BitVec 32 := 0
  cap : BitVec 32 := 0
  cost : BitVec 32 := 0
  lenMin : BitVec 16 := 0
  lenMax : BitVec 16 := 0
  lenStep : BitVec 16 := 0
  ovh : BitVec 12 := 0
  frameTemplate : BitVec 2 := 0
  deriving DecidableEq, Repr

/-- The descriptor of a decoded row: a frame costs the smallest legal length of the
flow, or the configured minimum when that is larger. -/
def schedOf (r : PwFlowRow) : PwFlowSched :=
  let testPl := if r.frameTemplate = 0#2 then 32 else 0
  let minLegal := pwFrameBytes r testPl
  let cfgMin := r.frameLenMin.toNat
  let costB := if cfgMin > minLegal then cfgMin else minLegal
  { valid := r.valid, egress := r.egress, tokensFp := r.tokensFp
    cap := r.burst ++ 0#16, cost := BitVec.ofNat 16 costB ++ 0#16
    lenMin := r.frameLenMin, lenMax := r.frameLenMax, lenStep := r.frameLenStep
    ovh := BitVec.ofNat 12 (pwFrameBytes r 0), frameTemplate := r.frameTemplate }

/-- A cycle: a bus write, and the address of the read port. -/
structure FlowTableIn where
  wr : Option CsrWrite
  rdAddr : ℕ

/-- The registers and memories, for `depth` rows of 64 words. -/
structure FlowTable where
  stg : ℕ → BitVec 32
  wordWritten : ℕ → Bool
  commitReq : Bool
  walking : Bool
  rdPtr : ℕ
  stgQ : BitVec 32
  wwQ : Bool
  rdPtrD : ℕ
  rdVldD : Bool
  rowAcc : ℕ → BitVec 32
  rowDone : Bool
  rowIdx : ℕ
  sched : ℕ → PwFlowSched
  mem : ℕ → PwFlowRow
  rdQ : PwFlowRow

/-- `is_row`. -/
def CsrWrite.isRow (depth : ℕ) (w : CsrWrite) : Bool :=
  decide (winFlowTable ≤ w.addr ∧ w.addr - winFlowTable < depth * 256)

/-- `wword`: the word of the staging memory. -/
def CsrWrite.wword (w : CsrWrite) : ℕ := (w.addr - winFlowTable) / 4

/-- `is_commit_reg`, with the bit that asks for a commit. -/
def CsrWrite.isCommit (w : CsrWrite) : Bool :=
  decide (w.addr = winFlowTable + 0x3FFC) && w.data.getLsbD 0

/-- Byte `k` of the gathered row. -/
def rowFlat (acc : ℕ → BitVec 32) : Window := fun k => (acc (k / 4)).extractLsb' (8 * (k % 4)) 8

namespace FlowTable

variable (depth : ℕ)

/-- `wrow`. -/
def wrow (s : FlowTable) : PwFlowRow := pwDecodeFlowRow (rowFlat s.rowAcc)

/-- The host's side: a word is staged, a commit is latched. -/
def stage (s : FlowTable) (wr : Option CsrWrite) : FlowTable :=
  match wr with
  | none => s
  | some w =>
    { s with
      stg := if w.isRow depth then Function.update s.stg w.wword w.data else s.stg
      wordWritten :=
        if w.isRow depth then Function.update s.wordWritten w.wword true else s.wordWritten
      commitReq := s.commitReq || w.isCommit }

/-- One clock edge.  The request of a commit is cleared when its walk starts. -/
def step (s : FlowTable) (i : FlowTableIn) : FlowTable :=
  { s.stage depth i.wr with
    commitReq := if !s.walking && s.commitReq then false else (s.stage depth i.wr).commitReq
    walking := if s.walking then decide (s.rdPtr ≠ depth * 64) else s.commitReq
    rdPtr :=
      if s.walking then (if s.rdPtr = depth * 64 then s.rdPtr else s.rdPtr + 1)
      else if s.commitReq then 0
      else s.rdPtr
    stgQ := s.stg (s.rdPtr % 2 ^ Nat.clog 2 (depth * 64))
    wwQ := s.wordWritten (s.rdPtr % 2 ^ Nat.clog 2 (depth * 64))
    rdPtrD := s.rdPtr
    rdVldD := s.walking && decide (s.rdPtr < depth * 64)
    rowAcc :=
      if s.rdVldD then
        Function.update s.rowAcc (s.rdPtrD % 64) (if s.wwQ then s.stgQ else 0)
      else s.rowAcc
    rowDone := s.rdVldD && decide (s.rdPtrD % 64 = 63)
    rowIdx := if s.rdVldD && decide (s.rdPtrD % 64 = 63) then s.rdPtrD / 64 else s.rowIdx
    sched := if s.rowDone then Function.update s.sched s.rowIdx (schedOf s.wrow) else s.sched
    mem := if s.rowDone then Function.update s.mem s.rowIdx s.wrow else s.mem
    rdQ := s.mem i.rdAddr }

/-- No commit is pending and no walk is under way. -/
structure Idle (s : FlowTable) : Prop where
  commitReq : s.commitReq = false
  walking : s.walking = false
  rdVldD : s.rdVldD = false
  rowDone : s.rowDone = false

/-- What the walk reads for a staged word. -/
def staged (s : FlowTable) (j : ℕ) : BitVec 32 := if s.wordWritten j then s.stg j else 0

end FlowTable

/-- A cycle in which the host leaves the flow table alone. -/
def FlowTableIn.Quiet (depth : ℕ) (i : FlowTableIn) : Prop :=
  ∀ w, i.wr = some w → w.isRow depth = false ∧ w.isCommit = false

/-! ## Decoding the gathered words -/

/-- The decoder reads the first 244 bytes of a row. -/
theorem pwDecodeFlowRow_congr {w w' : Window} (h : ∀ k < 244, w k = w' k) :
    pwDecodeFlowRow w = pwDecodeFlowRow w' := by
  have hcut : ∀ v : Window, pwDecodeFlowRow v = pwDecodeFlowRow fun k => if k < 244 then v k else 0 :=
    fun _ => rfl
  rw [hcut w, hcut w']
  congr 1
  funext k
  split
  · rename_i hk
    exact h k hk
  · rfl

/-- Byte `m` of four bytes put together. -/
theorem extractLsb'_four_bytes (b₃ b₂ b₁ b₀ : Byte) {m : ℕ} (hm : m < 4) :
    (b₃ ++ b₂ ++ b₁ ++ b₀).extractLsb' (8 * m) 8 =
      if m = 0 then b₀ else if m = 1 then b₁ else if m = 2 then b₂ else b₃ := by
  ext i hi
  simp only [BitVec.getElem_extractLsb', BitVec.getLsbD_append]
  obtain rfl | rfl | rfl | rfl : m = 0 ∨ m = 1 ∨ m = 2 ∨ m = 3 := by omega
  · simp [hi]
  · simp [hi]
  · have h1 : ¬16 + i < 8 := by omega
    have h2 : ¬16 + i - 8 < 8 := by omega
    have h3 : 16 + i - 8 - 8 = i := by omega
    simp [hi, h1, h2, h3]
  · have h1 : ¬24 + i < 8 := by omega
    have h2 : ¬24 + i - 8 < 8 := by omega
    have h3 : ¬24 + i - 8 - 8 < 8 := by omega
    have h4 : 24 + i - 8 - 8 - 8 = i := by omega
    simp [hi, h1, h2, h3, h4]

/-- The bytes of a row's words are the bytes of the row. -/
theorem rowFlat_word (c : PwfpgaFlowConfig) (k : ℕ) : rowFlat c.word k = c.byte k := by
  have hlt : k % 4 < 4 := Nat.mod_lt _ (by decide)
  have hk : c.byte k = c.byte (4 * (k / 4) + k % 4) := by rw [Nat.div_add_mod]
  rw [rowFlat, PwfpgaFlowConfig.word, extractLsb'_four_bytes _ _ _ _ hlt, hk]
  obtain h | h | h | h : k % 4 = 0 ∨ k % 4 = 1 ∨ k % 4 = 2 ∨ k % 4 = 3 := by omega
  · simp [h]
  · simp [h]
  · simp [h]
  · simp [h]

/-- Row `r` of the staged words. -/
def decodeAt (word : ℕ → BitVec 32) (r : ℕ) : PwFlowRow :=
  pwDecodeFlowRow (rowFlat fun j => word (64 * r + j))

/-- The words of a struct decode to its fields. -/
theorem decodeAt_eq {word : ℕ → BitVec 32} {r : ℕ} {c : PwfpgaFlowConfig}
    (h : ∀ j < 61, word (64 * r + j) = c.word j) : decodeAt word r = c.decoded := by
  rw [← c.decode_byte]
  apply pwDecodeFlowRow_congr
  intro k hk
  rw [← rowFlat_word, rowFlat, rowFlat, h (k / 4) (by omega)]

/-! ## The walk -/

namespace FlowTable

variable {depth : ℕ}

/-- What the walk has done `j` edges after its start: the pointer is at word `j`,
the word before is in the read register, the words before that are gathered, and
the rows that are complete are in the table. -/
structure WalkAt (depth : ℕ) (word : ℕ → BitVec 32) (j : ℕ) (s : FlowTable) : Prop where
  staged : ∀ k < depth * 64, s.staged k = word k
  commitReq : s.commitReq = false
  walking : s.walking = decide (j ≤ depth * 64)
  rdPtr : s.rdPtr = min j (depth * 64)
  rdVldD : s.rdVldD = decide (1 ≤ j ∧ j ≤ depth * 64)
  read : 1 ≤ j → j ≤ depth * 64 →
    s.rdPtrD = j - 1 ∧ (if s.wwQ then s.stgQ else 0) = word (j - 1)
  gathered : j ≤ depth * 64 + 1 → ∀ k, k + 2 ≤ j → k / 64 = (j - 2) / 64 →
    s.rowAcc (k % 64) = word k
  rowDone : s.rowDone = decide (2 ≤ j ∧ j ≤ depth * 64 + 1 ∧ (j - 2) % 64 = 63)
  rowIdx : s.rowDone = true → s.rowIdx = (j - 2) / 64
  rows : ∀ r < depth, 64 * r + 66 ≤ j →
    s.mem r = decodeAt word r ∧ s.sched r = schedOf (decodeAt word r)

/-- A quiet cycle stages nothing. -/
theorem stage_quiet (s : FlowTable) {i : FlowTableIn} (hi : i.Quiet depth) :
    s.stage depth i.wr = s := by
  cases hw : i.wr with
  | none => rfl
  | some w =>
    obtain ⟨hrow, hcommit⟩ := hi w hw
    simp [stage, hrow, hcommit]

/-- A row that is complete decodes to the staged row. -/
theorem WalkAt.wrow_eq {word : ℕ → BitVec 32} {j : ℕ} {s : FlowTable} (h : WalkAt depth word j s)
    {r : ℕ} (hr : r < depth) (hj : j = 64 * r + 65) : s.wrow = decodeAt word r := by
  apply pwDecodeFlowRow_congr
  intro k hk
  rw [rowFlat, rowFlat]
  have hacc := h.gathered (by omega) (64 * r + k / 4) (by omega) (by omega)
  rw [show (64 * r + k / 4) % 64 = k / 4 by omega] at hacc
  rw [hacc]

/-- **The walk goes on** in a quiet cycle. -/
theorem walkAt_step {word : ℕ → BitVec 32} {j : ℕ} {s : FlowTable} (h : WalkAt depth word j s)
    {i : FlowTableIn} (hi : i.Quiet depth) : WalkAt depth word (j + 1) (s.step depth i) := by
  have hstage := s.stage_quiet hi
  have hptr := h.rdPtr
  constructor
  case staged =>
    intro k hk
    rw [← h.staged k hk]
    simp only [FlowTable.staged, step, hstage]
  case commitReq =>
    simp [step, hstage, h.commitReq]
  case walking =>
    simp only [step, h.walking, h.commitReq, hptr]
    rw [Bool.eq_iff_iff]
    by_cases hj : j ≤ depth * 64
    · simp only [hj, decide_true, if_true, decide_eq_true_eq]
      omega
    · simp only [hj, decide_false, Bool.false_eq_true, if_false, decide_eq_true_eq, false_iff]
      omega
  case rdPtr =>
    simp only [step, h.walking, h.commitReq, hptr]
    by_cases hj : j ≤ depth * 64
    · simp [hj]
      split <;> omega
    · simp [hj]
      omega
  case rdVldD =>
    simp only [step, h.walking, hptr]
    rw [← Bool.decide_and, decide_eq_decide]
    omega
  case read =>
    intro _ hle
    have hj : s.rdPtr = j := by omega
    have hmod : s.rdPtr % 2 ^ Nat.clog 2 (depth * 64) = j := by
      rw [hj]
      apply Nat.mod_eq_of_lt
      exact Nat.lt_of_lt_of_le (by omega) (Nat.le_pow_clog (by decide) _)
    refine ⟨hj, ?_⟩
    show (if s.wordWritten (s.rdPtr % _) then s.stg (s.rdPtr % _) else 0) = word j
    rw [hmod]
    exact h.staged j (by omega)
  case gathered =>
    intro hle k hk hblock
    have hvld : s.rdVldD = true := by
      rw [h.rdVldD]
      simp only [decide_eq_true_eq]
      omega
    obtain ⟨hptrD, hword⟩ := h.read (by omega) (by omega)
    simp only [step, hvld, if_true, hptrD, hword]
    by_cases hlast : k = j - 1
    · rw [hlast, Function.update_self]
    · rw [Function.update_of_ne (by omega)]
      exact h.gathered (by omega) k (by omega) (by omega)
  case rowDone =>
    simp only [step, h.rdVldD]
    rw [Bool.eq_iff_iff]
    simp only [Bool.and_eq_true, decide_eq_true_eq]
    constructor
    · intro hd
      have := (h.read hd.1.1 hd.1.2).1
      omega
    · intro hd
      have := (h.read (by omega) (by omega)).1
      omega
  case rowIdx =>
    intro hd
    have hd' : (s.rdVldD && decide (s.rdPtrD % 64 = 63)) = true := hd
    simp only [step, hd', if_true]
    rw [h.rdVldD, Bool.and_eq_true, decide_eq_true_eq] at hd'
    have := (h.read hd'.1.1 hd'.1.2).1
    omega
  case rows =>
    intro r hr hj
    by_cases hdone : s.rowDone = true
    · have hidx := h.rowIdx hdone
      have hwhen := h.rowDone
      rw [hdone, eq_comm, decide_eq_true_eq] at hwhen
      simp only [step, hdone, if_true]
      by_cases hrow : 64 * r + 66 ≤ j
      · have hne : r ≠ s.rowIdx := by omega
        rw [Function.update_of_ne hne, Function.update_of_ne hne]
        exact h.rows r hr hrow
      · have heq : s.rowIdx = r := by omega
        rw [heq, Function.update_self, Function.update_self, h.wrow_eq hr (by omega)]
        exact ⟨rfl, rfl⟩
    · have hwhen := h.rowDone
      rw [Bool.not_eq_true] at hdone
      rw [hdone, eq_comm, decide_eq_false_iff_not] at hwhen
      simp only [step, hdone, Bool.false_eq_true, if_false]
      exact h.rows r hr (by omega)

/-- Quiet cycles carry the walk on. -/
theorem walkAt_run {word : ℕ → BitVec 32} {j : ℕ} {s : FlowTable} (h : WalkAt depth word j s)
    {l : List FlowTableIn} (hl : ∀ i ∈ l, i.Quiet depth) :
    WalkAt depth word (j + l.length) (run (step depth) s l) := by
  induction l generalizing j s with
  | nil => exact h
  | cons i l ih =>
    have hnext := ih (walkAt_step h (hl i List.mem_cons_self)) fun m hm =>
      hl m (List.mem_cons_of_mem _ hm)
    rw [List.length_cons, show j + (l.length + 1) = j + 1 + l.length by omega]
    exact hnext

/-! ## Staging -/

/-- Without a commit an idle table stays idle, and the words go into the staging
memory. -/
theorem Idle.step (depth : ℕ) {s : FlowTable} (h : s.Idle) {i : FlowTableIn}
    (hi : ∀ w, i.wr = some w → w.isCommit = false) :
    (s.step depth i).Idle ∧ (s.step depth i).stg = (s.stage depth i.wr).stg ∧
      (s.step depth i).wordWritten = (s.stage depth i.wr).wordWritten := by
  have hreq : (s.stage depth i.wr).commitReq = false := by
    cases hw : i.wr with
    | none => exact h.commitReq
    | some w => simp [stage, h.commitReq, hi w hw]
  refine ⟨⟨?_, ?_, ?_, ?_⟩, rfl, rfl⟩
  · simp [FlowTable.step, h.walking, h.commitReq, hreq]
  · simp [FlowTable.step, h.walking, h.commitReq]
  · simp [FlowTable.step, h.walking]
  · simp [FlowTable.step, h.rdVldD]

/-- **What the host staged**, over any number of cycles without a commit. -/
theorem Idle.run (depth : ℕ) {s : FlowTable} (h : s.Idle) {l : List FlowTableIn}
    (hl : ∀ w ∈ l.filterMap FlowTableIn.wr, w.isCommit = false) :
    (Lib.run (FlowTable.step depth) s l).Idle ∧
    (Lib.run (FlowTable.step depth) s l).stg =
      writeAll CsrWrite.wword CsrWrite.data
        ((l.filterMap FlowTableIn.wr).filter (CsrWrite.isRow depth)) s.stg ∧
    (Lib.run (FlowTable.step depth) s l).wordWritten =
      writeAll CsrWrite.wword (fun _ => true)
        ((l.filterMap FlowTableIn.wr).filter (CsrWrite.isRow depth)) s.wordWritten := by
  induction l generalizing s with
  | nil => exact ⟨h, rfl, rfl⟩
  | cons i l ih =>
    cases hw : i.wr with
    | none =>
      have hi : ∀ w, i.wr = some w → w.isCommit = false := by simp [hw]
      obtain ⟨hidle, hstg, hww⟩ := h.step depth hi
      rw [hw] at hstg hww
      rw [List.filterMap_cons_none hw] at hl ⊢
      obtain ⟨h1, h2, h3⟩ := ih hidle hl
      rw [run_cons, h2, h3, hstg, hww]
      exact ⟨h1, rfl, rfl⟩
    | some w =>
      rw [List.filterMap_cons_some hw] at hl ⊢
      have hi : ∀ v, i.wr = some v → v.isCommit = false := by
        intro v hv
        rw [hw] at hv
        exact hl v (by simp [Option.some.inj hv])
      obtain ⟨hidle, hstg, hww⟩ := h.step depth hi
      rw [hw] at hstg hww
      obtain ⟨h1, h2, h3⟩ := ih hidle fun v hv => hl v (List.mem_cons_of_mem _ hv)
      rw [run_cons, h2, h3, hstg, hww, List.filter_cons]
      refine ⟨h1, ?_, ?_⟩
      · cases hrow : w.isRow depth with
        | false => simp [stage, hrow]
        | true => simp [stage, hrow]
      · cases hrow : w.isRow depth with
        | false => simp [stage, hrow]
        | true => simp [stage, hrow]

/-- The cycle after a commit starts the walk over what is staged. -/
theorem walkAt_start {s : FlowTable} (hreq : s.commitReq = true) (hwalk : s.walking = false)
    (hvld : s.rdVldD = false) {i : FlowTableIn} (hi : i.Quiet depth) :
    WalkAt depth s.staged 0 (s.step depth i) := by
  have hstage := s.stage_quiet hi
  constructor
  case staged =>
    intro k _
    simp only [FlowTable.staged, FlowTable.step, hstage]
  case commitReq => simp [FlowTable.step, hwalk, hreq]
  case walking => simp [FlowTable.step, hwalk, hreq]
  case rdPtr => simp [FlowTable.step, hwalk, hreq]
  case rdVldD => simp [FlowTable.step, hwalk]
  case read =>
    intro h
    omega
  case gathered =>
    intro _ k hk
    omega
  case rowDone => simp [FlowTable.step, hvld]
  case rowIdx => simp [FlowTable.step, hvld]
  case rows =>
    intro r _ hr
    omega

end FlowTable

end PacketWyrm
