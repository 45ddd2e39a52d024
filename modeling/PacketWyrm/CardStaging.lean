import PacketWyrm.Reprogram
import PacketWyrm.RowRoundTrip
import PacketWyrm.DirectRules
import PacketWyrm.CsrWindows

/-!
# Staging programs on a card

A card as the host writes it: the windows of the classifier, and the flow table, whose
staged words become rows at a commit (the host waits until the commit's walk has ended).
Every write may fail; the writes after it are issued all the same, and the first status is
reported.

## Main definitions

* `CardState.write` — one bus write.
* `stageCard` — the soft reset and the tables of a program, with the faults of its writes.
* `CardHolds` — the card holds the tables of a program.

## Main results

* `CardHolds.eff_eq` — such a card classifies as the program's own tables do.
* `stageCard_holds` — a program that is staged without a fault on a card without further
  rules.
* `stageCard_rule` — what staging with any faults leaves of a rule.
-/

namespace PacketWyrm

open Lib CsrState

variable {lfw : ℕ}

/-! ## Cards -/

/-- The windows of the classifier, the staged words of the flow table and its rows. -/
structure CardState (lfw : ℕ) where
  csr : CsrState lfw
  staged : ℕ → BitVec 32
  rows : ℕ → PwFlowRow

namespace CardState

variable (depth : ℕ) (c : CardState lfw)

/-- The staged words after a write. -/
def stage (w : CsrWrite) : ℕ → BitVec 32 :=
  if w.isRow depth then Function.update c.staged w.wword w.data else c.staged

/-- One write; a commit decodes the staged rows. -/
def write (w : CsrWrite) : CardState lfw :=
  { csr := c.csr.write w
    staged := c.stage depth w
    rows := fun r =>
      if w.isCommit && decide (r < depth) then decodeAt (c.stage depth w) r else c.rows r }

/-- A list of writes. -/
def run (ws : List CsrWrite) : CardState lfw := ws.foldl (write depth) c

@[simp] theorem run_nil : c.run depth [] = c := rfl

@[simp] theorem run_cons (w : CsrWrite) (ws : List CsrWrite) :
    c.run depth (w :: ws) = (c.write depth w).run depth ws := rfl

theorem run_append (ws ws' : List CsrWrite) :
    c.run depth (ws ++ ws') = (c.run depth ws).run depth ws' :=
  List.foldl_append

theorem csr_run (ws : List CsrWrite) : (c.run depth ws).csr = c.csr.run ws := by
  induction ws generalizing c with
  | nil => rfl
  | cons w ws ih => exact ih (c.write depth w)

theorem staged_run (ws : List CsrWrite) :
    (c.run depth ws).staged =
      writeAll CsrWrite.wword CsrWrite.data (ws.filter (CsrWrite.isRow depth)) c.staged := by
  induction ws generalizing c with
  | nil => rfl
  | cons w ws ih =>
    rw [run_cons, ih, List.filter_cons, write, stage]
    split <;> rfl

/-- Rows change at a commit only. -/
theorem rows_run_of_not_isCommit {ws : List CsrWrite} (h : ∀ w ∈ ws, w.isCommit = false) :
    (c.run depth ws).rows = c.rows := by
  induction ws generalizing c with
  | nil => rfl
  | cons w ws ih =>
    rw [run_cons, ih _ fun w' hw' => h w' (List.mem_cons_of_mem _ hw')]
    funext r
    simp [write, h w List.mem_cons_self]

end CardState

/-! ## The writes of a program -/

/-- The write commits row `i` of the rules. -/
def CsrWrite.CommitsRule (w : CsrWrite) (i : Fin 32) : Prop :=
  (winFcRule ≤ w.addr ∧ w.addr < winFcRule + 0x400) ∧ (w.addr - winFcRule) % 16 = 8 ∧
    Fin.ofNat 32 ((w.addr - winFcRule) / 16) = i

instance (w : CsrWrite) (i : Fin 32) : Decidable (w.CommitsRule i) :=
  inferInstanceAs (Decidable (_ ∧ _ ∧ _))

theorem RuleWindow.table_write {w : RuleWindow} {off : ℕ} {d : BitVec 32} {i : Fin 32}
    (h : ¬(off % 16 = 8 ∧ Fin.ofNat 32 (off / 16) = i)) : (w.write off d).table i = w.table i := by
  rw [RuleWindow.write]
  split
  · rfl
  · rfl
  · rename_i hoff
    apply Function.update_of_ne
    intro hi
    exact h ⟨hoff, hi.symm⟩
  · rfl

theorem rule_write_eq (s : CsrState lfw) (w : CsrWrite) :
    (s.write w).rule =
      if 0x2200 ≤ w.addr ∧ w.addr < 0x2600 then s.rule.write (w.addr - 0x2200) w.data
      else s.rule := by
  by_cases hwin : 0x2200 ≤ w.addr ∧ w.addr < 0x2600
  · rw [CsrState.write, if_neg (by omega), if_neg (by omega), if_neg (by omega), if_pos hwin,
      if_pos hwin]
  · rw [CsrState.write, if_neg hwin, if_neg hwin]
    repeat' split
    all_goals rfl

/-- A rule changes only when it is committed. -/
theorem rule_write {s : CsrState lfw} {w : CsrWrite} {i : Fin 32} (h : ¬w.CommitsRule i) :
    (s.write w).tables.field.rule i = s.tables.field.rule i := by
  rw [CsrState.tables, CsrState.tables]
  dsimp only
  rw [rule_write_eq]
  split
  · rename_i hwin
    apply RuleWindow.table_write
    rintro ⟨hoff, hi⟩
    apply h
    rw [CsrWrite.CommitsRule, winFcRule]
    exact ⟨by omega, hoff, hi⟩
  · rfl

theorem rule_run {s : CsrState lfw} {ws : List CsrWrite} {i : Fin 32}
    (h : ∀ w ∈ ws, ¬w.CommitsRule i) : (s.run ws).tables.field.rule i = s.tables.field.rule i := by
  induction ws generalizing s with
  | nil => rfl
  | cons w ws ih =>
    exact (ih fun w' hw' => h w' (List.mem_cons_of_mem _ hw')).trans
      (rule_write (h w List.mem_cons_self))

/-- The writes of a program after its flow rows. -/
def tableWrites (cp : PwCardProgram) : List CsrWrite :=
  mapWrites cp.mapEntries ++ cmpWrites cp.fcCmps ++ udfWrites cp.fcUdfs ++ ruleWrites cp.fcRules ++
    hashWrites cp

theorem programWrites_eq (n : Option ℕ) (cp : PwCardProgram) :
    programWrites n cp = flowWrites n cp.flowRows ++ tableWrites cp := by
  simp only [programWrites, tableWrites, List.append_assoc]

theorem CsrWindow.Has.lookupRange {off : ℕ} (h : CsrWindow.fcHash.Has off) :
    0x2F00 ≤ off ∧ off < 0x5000 := by
  have hle := h.le
  have hlt := h.lt
  rw [CsrWindow.first, winFcHash] at hle
  rw [CsrWindow.past] at hlt
  omega

/-- Where the writes of a program go. -/
theorem addr_of_mem_tableWrites {cp : PwCardProgram} (h : Accepted cp) {w : CsrWrite}
    (hw : w ∈ tableWrites cp) :
    w.addr < 0x2200 ∨ w ∈ ruleWrites cp.fcRules ∧ w.addr < 0x2400 ∨
      0x2F00 ≤ w.addr ∧ w.addr < 0x5000 := by
  simp only [tableWrites, hashWrites, List.mem_append] at hw
  rcases hw with (((hw | hw) | hw) | hw) | hw | hw
  · have hlt := (has_of_mem_mapWrites h.map hw).lt
    rw [CsrWindow.past] at hlt
    omega
  · have hlt := (has_of_mem_cmpWrites h.cmps hw).lt
    rw [CsrWindow.past, winFcCmp, numCmp] at hlt
    omega
  · have hlt := (has_of_mem_udfWrites h.udfs hw).lt
    rw [CsrWindow.past, winFcUdf, numUdf] at hlt
    omega
  · have hlt := (has_of_mem_ruleWrites hw).lt
    rw [CsrWindow.past, winFcRule, numRule] at hlt
    exact Or.inr (Or.inl ⟨hw, by omega⟩)
  · exact Or.inr (Or.inr (has_of_mem_hashClearWrites hw).lookupRange)
  · split at hw
    · cases hw
    · simp only [List.mem_append, List.mem_singleton] at hw
      rcases hw with (hw | rfl) | hw
      · have hle := (has_of_mem_hashMaskWrites hw).le
        have hlt := (has_of_mem_hashMaskWrites hw).lt
        rw [CsrWindow.first, winHashMask] at hle
        rw [CsrWindow.past, winHashMask, hashKeyWords] at hlt
        omega
      · exact Or.inr (Or.inr (by simp [regHashSeed]))
      · exact Or.inr (Or.inr (has_of_mem_hashEntryWrites h.hash hw).lookupRange)

theorem le_addr_of_mem_flowWrites {n : Option ℕ} {rows : List PwfpgaFlowConfig} {w : CsrWrite}
    (hw : w ∈ flowWrites n rows) : 0x6000 ≤ w.addr := by
  simp only [flowWrites, barFlowWrite, barFlowCommit, winFlowTable, List.mem_append,
    List.mem_flatMap, List.mem_map, List.mem_singleton] at hw
  rcases hw with ⟨r, -, j, -, rfl⟩ | rfl
  · dsimp only
    omega
  · decide

/-- **A program commits its own rules only.** -/
theorem lt_of_commitsRule {n : Option ℕ} {cp : PwCardProgram} (h : Accepted cp) {w : CsrWrite}
    (hw : w ∈ programWrites n cp) {i : Fin 32} (hc : w.CommitsRule i) :
    i.val < cp.fcRules.length := by
  rw [CsrWrite.CommitsRule, winFcRule] at hc
  obtain ⟨haddr, hoff, hi⟩ := hc
  have hmem : w ∈ ruleWrites cp.fcRules := by
    rw [programWrites_eq, List.mem_append] at hw
    rcases hw with hw | hw
    · have := le_addr_of_mem_flowWrites hw
      omega
    · rcases addr_of_mem_tableWrites h hw with hw | hw | hw
      · omega
      · exact hw.1
      · omega
  obtain ⟨x, hx, hwx⟩ := mem_inWindow hmem
  rw [hwx, winFcRule, Nat.add_sub_cancel_left] at hoff hi
  obtain ⟨j, -, hx⟩ := List.mem_flatMap.mp hx
  have hj := j.isLt
  cases hrule : cp.fcRules[j.val]? with
  | none =>
    rw [hrule, List.mem_singleton] at hx
    rw [hx] at hoff
    omega
  | some r =>
    have hlt : j.val < cp.fcRules.length := (List.getElem?_eq_some_iff.mp hrule).1
    have hij : i.val = x.1 / 16 := by
      rw [← hi, Fin.val_ofNat, Nat.mod_eq_of_lt]
      rw [hrule] at hx
      simp only [List.mem_cons, List.not_mem_nil, or_false] at hx
      rcases hx with rfl | rfl | rfl <;> dsimp only <;> omega
    rw [hrule] at hx
    simp only [List.mem_cons, List.not_mem_nil, or_false] at hx
    rcases hx with rfl | rfl | rfl
    · omega
    · omega
    · dsimp only at hij
      omega

/-! ## Writes that may fail -/

/-- The status with which the backend fails each write, where it does. -/
abbrev Faults := ℕ → Option PwStatus

/-- The writes that are performed. -/
def performed (faults : Faults) (ws : List CsrWrite) : List CsrWrite :=
  (ws.zipIdx.filter fun x => (faults x.2).isNone).map Prod.fst

/-- The first status that is not `PW_OK`. -/
def firstFault (faults : Faults) (ws : List CsrWrite) : Option PwStatus :=
  ws.zipIdx.findSome? fun x => faults x.2

theorem mem_of_mem_performed {faults : Faults} {ws : List CsrWrite} {w : CsrWrite}
    (h : w ∈ performed faults ws) : w ∈ ws := by
  obtain ⟨x, hx, rfl⟩ := List.mem_map.mp h
  exact List.fst_mem_of_mem_zipIdx (List.mem_filter.mp hx).1

theorem performed_of_firstFault {faults : Faults} {ws : List CsrWrite}
    (h : firstFault faults ws = none) : performed faults ws = ws := by
  rw [firstFault, List.findSome?_eq_none_iff] at h
  rw [performed, List.filter_eq_self.mpr]
  · exact List.zipIdx_map_fst 0 ws
  · intro x hx
    rw [h x hx]
    rfl

/-- One card of `program_backends_diag`: the soft reset, then the tables, unless they are
refused.  The first failure is reported. -/
def stageCard (depth : ℕ) (faults : Faults) (cp : PwCardProgram) (c : CardState lfw) :
    CardState lfw × Option PwFailure :=
  match pwProgramCardTablesDiag (some depth) cp with
  | .error f => (c, ((faults 0).map bare).or (some f))
  | .ok ws =>
    (c.run depth (performed (fun j => faults (j + 1)) ws),
      ((faults 0).or (firstFault (fun j => faults (j + 1)) ws)).map bare)

/-! ## Cards that hold a program -/

/-- The rules of a program look only at comparators that it writes. -/
def PwCardProgram.SelfContained (cp : PwCardProgram) : Prop :=
  ∀ r ∈ cp.fcRules, ∀ i : Fin 14, r.care.getLsbD i = true → cp.Writes i

/-- **The card holds the tables of the program**: its rules and no others, its map and hash
entries, and its flow rows. -/
structure CardHolds (depth : ℕ) (cp : PwCardProgram) (c : CardState lfw) : Prop where
  rule : ∀ i : Fin 32, cp.fcRules.length ≤ i → c.csr.tables.field.rule i = {}
  programmed : ∃ t, Programmed cp t c.csr.tables
  rows : ∀ r < depth, c.rows r = (cp.flowRows.getD r {}).decoded

theorem PwCardProgram.SelfContained.cleanFor {cp : PwCardProgram} (h : cp.SelfContained)
    {t : CardTables lfw} (hrule : ∀ i : Fin 32, cp.fcRules.length ≤ i → t.field.rule i = {}) :
    CleanFor cp t where
  rule := hrule
  cmp r hr i hi hlen := by
    have hbit : r.care.getLsbD i = true := by
      have := i.isLt
      simpa [PwFcRule.row, show i.val < 14 by omega] using hi
    exact absurd (h r hr ⟨i, by omega⟩ hbit) ((PwCardProgram.not_writes_cmp i).mpr hlen)
  udf r hr i hi hlen := by
    have hbit : r.care.getLsbD (12 + i) = true := by
      have := i.isLt
      simpa [PwFcRule.row, show 12 + i.val < 14 by omega] using hi
    exact absurd (h r hr ⟨12 + i, by omega⟩ hbit) ((PwCardProgram.not_writes_udf i).mpr hlen)

/-- **A card that holds a program classifies as the program's own tables do.** -/
theorem CardHolds.eff_eq (hlfw : lfw ≤ 31) {depth : ℕ} {cp : PwCardProgram} {c : CardState lfw}
    (h : CardHolds depth cp c) (hself : cp.SelfContained) (k : PwMatchKey) (win : Window)
    (base : BitVec 16) : c.csr.tables.eff k win base = (cp.tables lfw).eff k win base := by
  obtain ⟨t, ht⟩ := h.programmed
  have hrule : ∀ i : Fin 32, cp.fcRules.length ≤ i → t.field.rule i = {} := by
    intro i hi
    rw [← h.rule i hi, ht.rule, getD_of_length_le hi]
  exact ht.eff_eq (hself.cleanFor hrule) (programmed_tables cp hlfw) (cleanFor_init cp) k win base

/-- The rows that a program stages and commits. -/
theorem rows_run_programWrites {depth : ℕ} (hdepth : depth ≤ flowTableRows) (cp : PwCardProgram)
    (h : Accepted cp) (c : CardState lfw) {r : ℕ} (hr : r < depth) :
    (c.run depth (programWrites (some depth) cp)).rows r = (cp.flowRows.getD r {}).decoded := by
  set nflows := min (max cp.flowRows.length depth) flowTableRows with hn
  have hflow : flowWrites (some depth) cp.flowRows =
      rowWrites nflows cp.flowRows ++ [⟨winFlowTable + 0x3FFC, 1⟩] := rfl
  have htail : ∀ w ∈ tableWrites cp, w.isCommit = false := by
    intro w hw
    have hne : w.addr ≠ winFlowTable + 0x3FFC := by
      rw [winFlowTable]
      rcases addr_of_mem_tableWrites h hw with hw | hw | hw <;> omega
    rw [CsrWrite.isCommit, decide_eq_false hne, Bool.false_and]
  rw [programWrites_eq, hflow, CardState.run_append, CardState.run_append,
    CardState.rows_run_of_not_isCommit _ _ htail]
  -- the commit decodes the words that were staged
  have hcommit : CsrWrite.isCommit ⟨winFlowTable + 0x3FFC, 1⟩ = true := by decide
  rw [CardState.run_cons, CardState.run_nil, CardState.write]
  dsimp only
  rw [hcommit, Bool.true_and, if_pos (decide_eq_true hr)]
  apply decodeAt_eq
  intro j hj
  have hne : 64 * r + j ≠ CsrWrite.wword ⟨winFlowTable + 0x3FFC, 1⟩ := by
    rw [CsrWrite.wword]
    dsimp only
    rw [flowTableRows] at hdepth
    omega
  have hstaged : (c.run depth (rowWrites nflows cp.flowRows)).staged (64 * r + j) =
      (cp.flowRows.getD r {}).word j := by
    rw [CardState.staged_run, writeAll_rowWrites _ (by omega) hr hj]
  rw [CardState.stage]
  split
  · rw [Function.update_of_ne hne, hstaged]
  · exact hstaged

/-- **A program that is staged without a fault** is held by a card without further rules. -/
theorem stageCard_holds {depth : ℕ} (hdepth : depth ≤ flowTableRows) {faults : Faults}
    {cp : PwCardProgram} {c : CardState lfw} (hok : (stageCard depth faults cp c).2 = none)
    (hrule : ∀ i : Fin 32, cp.fcRules.length ≤ i → c.csr.tables.field.rule i = {}) :
    CardHolds depth cp (stageCard depth faults cp c).1 := by
  rw [stageCard] at hok ⊢
  cases hprog : pwProgramCardTablesDiag (some depth) cp with
  | error f =>
    rw [hprog] at hok
    cases hf : faults 0 <;> rw [hf] at hok <;> cases hok
  | ok ws =>
    rw [hprog] at hok
    obtain ⟨hacc, rfl⟩ := accepted_of_program hprog
    have hnone := Option.map_eq_none_iff.mp hok
    rw [Option.or_eq_none_iff] at hnone
    dsimp only
    rw [performed_of_firstFault hnone.2]
    have hprogrammed := run_programWrites c.csr (some depth) hacc
    refine ⟨?_, ⟨c.csr.tables, ?_⟩, fun r hr => rows_run_programWrites hdepth cp hacc c hr⟩
    · intro i hi
      rw [CardState.csr_run, hprogrammed.rule, getD_of_length_le hi]
      exact hrule i hi
    · rw [CardState.csr_run]
      exact hprogrammed

/-- The writes that staging performs on a card. -/
def stageWrites (depth : ℕ) (faults : Faults) (cp : PwCardProgram) : List CsrWrite :=
  match pwProgramCardTablesDiag (some depth) cp with
  | .error _ => []
  | .ok ws => performed (fun j => faults (j + 1)) ws

/-- **What staging leaves of a rule**: all of it, unless it is committed. -/
theorem stageCard_rule {depth : ℕ} {faults : Faults} {cp : PwCardProgram} {c : CardState lfw}
    {i : Fin 32} (h : ∀ w ∈ stageWrites depth faults cp, ¬w.CommitsRule i) :
    (stageCard depth faults cp c).1.csr.tables.field.rule i = c.csr.tables.field.rule i := by
  rw [stageWrites] at h
  rw [stageCard]
  cases hprog : pwProgramCardTablesDiag (some depth) cp with
  | error f => rfl
  | ok ws =>
    rw [hprog] at h
    dsimp only
    rw [CardState.csr_run]
    exact rule_run h

/-- A program commits no rule past its own. -/
theorem not_commitsRule_of_le {depth : ℕ} {faults : Faults} {cp : PwCardProgram} {i : Fin 32}
    (hi : cp.fcRules.length ≤ i) : ∀ w ∈ stageWrites depth faults cp, ¬w.CommitsRule i := by
  intro w hw hc
  rw [stageWrites] at hw
  cases hprog : pwProgramCardTablesDiag (some depth) cp with
  | error f =>
    rw [hprog] at hw
    cases hw
  | ok ws =>
    rw [hprog] at hw
    obtain ⟨hacc, rfl⟩ := accepted_of_program hprog
    have hlt := lt_of_commitsRule hacc (mem_of_mem_performed hw) hc
    omega

/-- The rules of a compiled program look only at its own comparators. -/
theorem selfContained_of_compile {cfg : PwConfig} {p : PwProgram} (h : pwFlowCompile cfg = .ok p)
    {cp : PwCardProgram} (hcp : cp ∈ p.perCard) : cp.SelfContained := by
  intro r hr i hi
  have hok := rulesOk_of_compile h hcp
  obtain ⟨hlen, hget⟩ := List.forall₂_iff_get.mp hok.each
  obtain ⟨j, hj, rfl⟩ := List.mem_iff_get.mp hr
  have hfor := hget j.val (by omega) j.isLt
  rw [PwCardProgram.Writes]
  rcases hfor.covers.bit i hi with ⟨hlt, c, -, hc⟩ | ⟨hle, hlt, u, -, hu⟩
  · rw [numCmp] at hlt
    rw [if_pos hlt]
    exact (List.getElem?_eq_some_iff.mp hc).1
  · rw [numCmp] at hle hu
    rw [if_neg (Nat.not_lt.mpr hle)]
    exact (List.getElem?_eq_some_iff.mp hu).1

end PacketWyrm
