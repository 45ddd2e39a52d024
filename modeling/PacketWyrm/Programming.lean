import PacketWyrm.CsrFull
import PacketWyrm.RowWire
import PacketWyrm.Tables
import PacketWyrm.Lib.Loop

/-!
# Programming a card

`pw_program_card_tables_diag` over the BAR backend: the checks made before
anything is written, and then the list of bus writes.  Every write of the BAR
backend succeeds, so the worst status is the first check's that fails.

## Main definitions

* `programWrites` — the writes, in their order.
* `pwProgramCardTablesDiag` — the checks, then the writes.
* `Accepted` — what the checks establish.

## Main results

* `run_programWrites` — the committed state after programming, from any state:
  the flow-id map is the program's; comparators, window comparators and rules
  are the program's as far as it has them, and the old ones after that; the
  buckets are the program's or invalid.
-/

namespace PacketWyrm

open Lib CsrState

/-! ## The writes -/

/-- `bar_flow_write`: the row's 61 words into its 256-byte slot. -/
def barFlowWrite (r : ℕ) (f : PwfpgaFlowConfig) : List CsrWrite :=
  (List.range 61).map fun j => ⟨winFlowTable + r * 256 + 4 * j, f.word j⟩

/-- `bar_flow_commit`. -/
def barFlowCommit : List CsrWrite := [⟨winFlowTable + 0x3FFC, 1⟩]

/-- `PWFPGA_FLOWID_MAP_VALID`, and `PWFPGA_HASH_CTRL_VALID`. -/
def ctrlValid : BitVec 32 := 0x80000000

/-- The configured rows, then zero rows up to the card's capacity. -/
def flowWrites (numLocalFlows : Option ℕ) (rows : List PwfpgaFlowConfig) : List CsrWrite :=
  let nflows := min (max rows.length (numLocalFlows.getD 0)) flowTableRows
  (List.range nflows).flatMap (fun r => barFlowWrite r (rows.getD r {})) ++ barFlowCommit

/-- Invalidate the whole flow-id map, then write the entries. -/
def mapWrites (entries : List PwFlowidMapEntry) : List CsrWrite :=
  inWindow winFlowidMap
    ((List.finRange 256).map (fun i => (i.val * 4, 0)) ++
      entries.map fun m => (m.flowId.toNat * 4, ctrlValid ||| m.localFlowId))

/-- The configured comparators, three words each. -/
def cmpWrites (cmps : List PwFcCmp) : List CsrWrite :=
  inWindow winFcCmp
    (cmps.zipIdx.flatMap fun x =>
      [(x.2 * 16 + 0, x.1.src.code.setWidth 32), (x.2 * 16 + 4, x.1.mask),
        (x.2 * 16 + 8, x.1.value)])

/-- The configured window comparators, three words each. -/
def udfWrites (udfs : List PwFcUdf) : List CsrWrite :=
  inWindow winFcUdf
    (udfs.zipIdx.flatMap fun x =>
      [(x.2 * 16 + 0, x.1.offset.setWidth 32), (x.2 * 16 + 4, x.1.mask),
        (x.2 * 16 + 8, x.1.value)])

/-- `PWFPGA_FC_RULE_W0` of a configured rule. -/
def PwFcRule.word0 (r : PwFcRule) : BitVec 32 :=
  (r.care.setWidth 32 &&& 0x3FFF#32) ||| ((r.action.code.setWidth 32 &&& 0x7#32) <<< 14) |||
    ((r.egress.setWidth 32 &&& 0xF#32) <<< 17) ||| ((r.priority.setWidth 32 &&& 0xFF#32) <<< 21) |||
    (1#32 <<< 31)

/-- A configured rule has all of its three words written; of an unused rule
only the first word is. -/
def ruleWrites (rules : List PwFcRule) : List CsrWrite :=
  inWindow winFcRule
    ((List.finRange 32).flatMap fun i =>
      match rules[i.val]? with
      | some r =>
        [(i.val * 16 + 0, r.word0), (i.val * 16 + 4, r.localFlowId),
          (i.val * 16 + 8, r.logicalIfId)]
      | none => [(i.val * 16 + 0, 0)])

/-- Invalidate every bucket. -/
def hashClearWrites : List CsrWrite :=
  inWindow winFcHash ((List.finRange 128).map fun b => (b.val * 64 + 0x2C, 0))

/-- The key mask's eleven words. -/
def hashMaskWrites (mask : KeyWords) : List CsrWrite :=
  inWindow winHashMask ((List.finRange 11).map fun w => (w.val * 4, mask w))

/-- The entries: eleven key words and the control word each. -/
def hashEntryWrites (entries : List PwFcHashEntry) : List CsrWrite :=
  inWindow winFcHash
    (entries.flatMap fun e =>
      (List.finRange 11).map (fun w => (e.index.toNat * 64 + w.val * 4, e.keyWord w)) ++
        [(e.index.toNat * 64 + 0x2C, ctrlValid ||| e.localFlowId)])

/-- Mask and seed are written only with entries. -/
def hashWrites (cp : PwCardProgram) : List CsrWrite :=
  hashClearWrites ++
    (if cp.hashEntries.isEmpty then []
      else
        hashMaskWrites cp.hashMask ++ [⟨regHashSeed, cp.hashSeed⟩] ++
          hashEntryWrites cp.hashEntries)

/-- The writes of a program, in their order. -/
def programWrites (numLocalFlows : Option ℕ) (cp : PwCardProgram) : List CsrWrite :=
  flowWrites numLocalFlows cp.flowRows ++ mapWrites cp.mapEntries ++ cmpWrites cp.fcCmps ++
    udfWrites cp.fcUdfs ++ ruleWrites cp.fcRules ++ hashWrites cp

/-! ## The checks -/

/-- Capacities and indices, checked before any write. -/
def checkCapacities (cp : PwCardProgram) : Except PwFailure Unit := do
  failIf (cp.flowRows.length > flowTableRows) (bare .inval)
  failIf (cp.fcCmps.length > numCmp) (bare .inval)
  failIf (cp.fcUdfs.length > numUdf) (bare .inval)
  failIf (cp.fcRules.length > numRule) (bare .inval)
  failIf (cp.hashEntries.length > hashDepth) (bare .inval)
  failIf (cp.mapEntries.any fun m => m.flowId.toNat ≥ flowidMapDepth) (bare .inval)
  failIf (cp.hashEntries.any fun e => e.index.toNat ≥ hashDepth) (bare .inval)

/-- The card's own number of flow slots, where `card_info` reports one. -/
def checkNumLocalFlows (numLocalFlows : Option ℕ) (cp : PwCardProgram) : Except PwFailure Unit :=
  match numLocalFlows with
  | none => pure ()
  | some n =>
    failIf (n ≠ 0 && decide (cp.flowRows.length > n))
      (diag .noResources s!"card{cp.cardId.toNat}"
        (s!"{cp.flowRows.length} flow rows requested but device supports {n} " ++
          "(num_local_flows); reduce measured flows or mark some background"))

/-- `pw_program_card_tables_diag`: the writes it issues, or why it refuses.
`numLocalFlows` is what `card_info` reports, when it does; 0 is no report. -/
def pwProgramCardTablesDiag (numLocalFlows : Option ℕ) (cp : PwCardProgram) :
    Except PwFailure (List CsrWrite) := do
  checkCapacities cp
  checkNumLocalFlows numLocalFlows cp
  pure (programWrites numLocalFlows cp)

/-- What the checks establish about an accepted program. -/
structure Accepted (cp : PwCardProgram) : Prop where
  cmps : cp.fcCmps.length ≤ 12
  udfs : cp.fcUdfs.length ≤ 2
  rules : cp.fcRules.length ≤ 32
  map : ∀ m ∈ cp.mapEntries, m.flowId.toNat < 256
  hash : ∀ e ∈ cp.hashEntries, e.index.toNat < 128

theorem accepted_of_program {n : Option ℕ} {cp : PwCardProgram} {ws : List CsrWrite}
    (h : pwProgramCardTablesDiag n cp = .ok ws) : Accepted cp ∧ ws = programWrites n cp := by
  simp only [pwProgramCardTablesDiag, checkCapacities, bind_eq_ok_iff, failIf_eq_ok_iff,
    exists_const] at h
  obtain ⟨⟨-, hcmps, hudfs, hrules, -, hmap, hhash⟩, _, -, hws⟩ := h
  refine ⟨⟨?_, ?_, ?_, ?_, ?_⟩, ?_⟩
  · simpa [numCmp] using hcmps
  · simpa [numUdf] using hudfs
  · simpa [numRule] using hrules
  · simpa [flowidMapDepth] using hmap
  · simpa [hashDepth] using hhash
  · simpa [pure, Except.pure, eq_comm] using hws

/-! ## What the writes do -/

section Effects

variable {lfw : ℕ} (s : CsrState lfw)

/-- The flow table lies past the classifier's windows. -/
theorem run_flowWrites (n : Option ℕ) (rows : List PwfpgaFlowConfig) :
    s.run (flowWrites n rows) = s := by
  apply CsrState.run_of_ge
  intro w hw
  simp only [flowWrites, barFlowWrite, barFlowCommit, winFlowTable, List.mem_append,
    List.mem_flatMap, List.mem_map, List.mem_singleton] at hw
  rcases hw with ⟨r, -, j, -, rfl⟩ | rfl
  · show 0x5000 ≤ 0x6000 + r * 256 + 4 * j
    omega
  · decide

/-- Entry writes into the map's window, as entries of the map. -/
theorem foldl_map_write {α : Type} (idx : α → ℕ) (data : α → BitVec 32) (l : List α)
    (m : FlowidMap lfw) :
    (l.map fun x => (idx x * 4, data x)).foldl (fun m x => m.write x.1 x.2) m =
      writeAll (fun x => Fin.ofNat 256 (idx x)) (fun x => .ofData lfw (data x)) l m := by
  rw [List.foldl_map, writeAll]
  congr 1
  funext m x
  rw [FlowidMap.write, Nat.mul_div_cancel _ (by decide)]

/-- The map after its writes is the program's, whatever was there. -/
theorem run_mapWrites {entries : List PwFlowidMapEntry}
    (h : ∀ m ∈ entries, m.flowId.toNat < 256) :
    s.run (mapWrites entries) =
      { s with
        map := writeAll (fun m => Fin.ofNat 256 m.flowId.toNat)
          (fun m => .ofData lfw (ctrlValid ||| m.localFlowId)) entries (fun _ => {}) } := by
  rw [mapWrites, run_map]
  · congr 1
    rw [List.foldl_append, foldl_map_write, foldl_map_write]
    congr 1
    -- the clearing loop reaches every entry
    funext i
    apply writeAll_of_forall
    · exact ⟨i, List.mem_finRange i, Fin.ofNat_val_eq_self i⟩
    · intro j _ _
      simp [MapEntry.ofData]
  · intro x hx
    simp only [List.mem_append, List.mem_map] at hx
    rcases hx with ⟨i, -, rfl⟩ | ⟨m, hm, rfl⟩
    · have := i.isLt
      dsimp only
      omega
    · have := h m hm
      dsimp only
      omega

/-- Three words commit a comparator. -/
theorem CmpWindow.write_row (c : CmpWindow) (r : PwFcCmp) {i : ℕ} (hi : i < 12) :
    (((c.write (i * 16 + 0) (r.src.code.setWidth 32)).write (i * 16 + 4) r.mask).write
        (i * 16 + 8) r.value).table = Function.update c.table (Fin.ofNat 12 i) r.row := by
  have h₀ : (i * 16 + 0) % 16 = 0 := by omega
  have h₄ : (i * 16 + 4) % 16 = 4 := by omega
  have h₈ : (i * 16 + 8) % 16 = 8 := by omega
  have hidx : (⟨(i * 16 + 8) / 16, by omega⟩ : Fin 12) = Fin.ofNat 12 i := by
    apply Fin.ext
    simp only [Fin.ofNat]
    omega
  simp only [CmpWindow.write, h₀, h₄, h₈]
  rw [dif_pos (by omega), hidx]
  simp [PwFcCmp.row]

/-- The positions of a list that fits. -/
theorem snd_lt_of_mem_zipIdx {α : Type} {l : List α} {n : ℕ} (hl : l.length ≤ n) {x : α × ℕ}
    (hx : x ∈ l.zipIdx) : x.2 < n := by
  rw [List.mem_zipIdx_iff_getElem?] at hx
  have := (List.getElem?_eq_some_iff.mp hx).1
  omega

/-- The words of the rows of a list that fits stay within the rows. -/
theorem offset_lt_of_mem_rows {α : Type} {l : List α} {n : ℕ} (hl : l.length ≤ n)
    {v₀ v₄ v₈ : α × ℕ → BitVec 32} {w : ℕ × BitVec 32}
    (hw : w ∈ l.zipIdx.flatMap fun x =>
      [(x.2 * 16 + 0, v₀ x), (x.2 * 16 + 4, v₄ x), (x.2 * 16 + 8, v₈ x)]) :
    w.1 + 4 ≤ n * 16 := by
  simp only [List.mem_flatMap, List.mem_cons, List.not_mem_nil, or_false] at hw
  obtain ⟨x, hx, hw⟩ := hw
  have := snd_lt_of_mem_zipIdx hl hx
  rcases hw with rfl | rfl | rfl <;> dsimp only <;> omega

/-- The comparators after their writes: the program's, and then the old ones. -/
theorem run_cmpWrites {cmps : List PwFcCmp} (h : cmps.length ≤ 12) :
    ∃ c : CmpWindow, s.run (cmpWrites cmps) = { s with cmp := c } ∧
      ∀ i : Fin 12, c.table i = (cmps[i.val]?.map PwFcCmp.row).getD (s.cmp.table i) := by
  refine ⟨_, run_cmp ?_ s, ?_⟩
  · intro w hw
    have := offset_lt_of_mem_rows h hw
    omega
  · intro i
    rw [← writeAll_zipIdx h, List.foldl_flatMap]
    apply congrFun
    apply foldl_view CmpWindow.table
    intro x hx c
    exact c.write_row x.1 (snd_lt_of_mem_zipIdx h hx)

/-- Three words commit a window comparator. -/
theorem UdfWindow.write_row (u : UdfWindow) (r : PwFcUdf) (i : ℕ) :
    (((u.write (i * 16 + 0) (r.offset.setWidth 32)).write (i * 16 + 4) r.mask).write
        (i * 16 + 8) r.value).table = Function.update u.table (Fin.ofNat 2 i) r.row := by
  have h₀ : (i * 16 + 0) % 16 = 0 := by omega
  have h₄ : (i * 16 + 4) % 16 = 4 := by omega
  have h₈ : (i * 16 + 8) % 16 = 8 := by omega
  have hdiv : (i * 16 + 8) / 16 = i := by omega
  simp only [UdfWindow.write, h₀, h₄, h₈, hdiv]
  simp [PwFcUdf.row]

/-- The window comparators after their writes, likewise. -/
theorem run_udfWrites {udfs : List PwFcUdf} (h : udfs.length ≤ 2) :
    ∃ u : UdfWindow, s.run (udfWrites udfs) = { s with udf := u } ∧
      ∀ i : Fin 2, u.table i = (udfs[i.val]?.map PwFcUdf.row).getD (s.udf.table i) := by
  refine ⟨_, run_udf ?_ s, ?_⟩
  · intro w hw
    have := offset_lt_of_mem_rows h hw
    omega
  · intro i
    rw [← writeAll_zipIdx h, List.foldl_flatMap]
    apply congrFun
    apply foldl_view UdfWindow.table
    intro x _ u
    exact u.write_row x.1 x.2

/-- The first word of a rule, bit by bit. -/
theorem PwFcRule.getLsbD_word0 (r : PwFcRule) {b : ℕ} (hb : b < 32) :
    r.word0.getLsbD b =
      ((decide (b < 14) && r.care.getLsbD b) ||
        (decide (14 ≤ b ∧ b < 17) && r.action.code.getLsbD (b - 14)) ||
        (decide (17 ≤ b ∧ b < 21) && r.egress.getLsbD (b - 17)) ||
        (decide (21 ≤ b ∧ b < 29) && r.priority.getLsbD (b - 21)) || decide (b = 31)) := by
  have hcare : 0x3FFF#32 = (BitVec.allOnes 14).setWidth 32 := rfl
  have haction : 0x7#32 = (BitVec.allOnes 3).setWidth 32 := rfl
  have hegress : 0xF#32 = (BitVec.allOnes 4).setWidth 32 := rfl
  have hprio : 0xFF#32 = (BitVec.allOnes 8).setWidth 32 := rfl
  have henable : (1#32 <<< 31).getLsbD b = decide (b = 31) := by
    rw [BitVec.getLsbD_shiftLeft]
    by_cases h31 : b = 31
    · simp [h31]
    · simp [h31, show b < 31 by omega]
  have hcare₀ : (r.care.setWidth 32 &&& 0x3FFF#32).getLsbD b =
      (decide (b < 14) && r.care.getLsbD b) := by
    rw [← BitVec.shiftLeft_zero (r.care.setWidth 32 &&& 0x3FFF#32), hcare, getLsbD_field _ _ hb]
    simp [hb]
  rw [word0, haction, hegress, hprio]
  simp only [BitVec.getLsbD_or, hcare₀, getLsbD_field _ _ hb, henable, BitVec.getLsbD_setWidth,
    Nat.sub_lt_of_lt hb, decide_true, Bool.true_and]

/-- The first word of a rule, field by field. -/
theorem PwFcRule.word0_fields (r : PwFcRule) :
    r.word0.extractLsb' 0 14 = r.care.setWidth 14 ∧ r.word0.extractLsb' 14 3 = r.action.code ∧
      r.word0.extractLsb' 17 4 = r.egress.setWidth 4 ∧
      r.word0.extractLsb' 21 8 = r.priority ∧ r.word0.getLsbD 31 = true := by
  refine ⟨?_, ?_, ?_, ?_, ?_⟩
  · apply BitVec.eq_of_getLsbD_eq
    intro b hb
    rw [BitVec.getLsbD_extractLsb', r.getLsbD_word0 (by omega)]
    simp [hb, show ¬14 ≤ b by omega, show ¬17 ≤ b by omega, show ¬21 ≤ b by omega,
      show b ≠ 31 by omega]
  · apply BitVec.eq_of_getLsbD_eq
    intro b hb
    rw [BitVec.getLsbD_extractLsb', r.getLsbD_word0 (by omega)]
    simp [hb, show 14 + b < 17 by omega, show ¬17 ≤ 14 + b by omega, show ¬21 ≤ 14 + b by omega,
      show 14 + b ≠ 31 by omega]
  · apply BitVec.eq_of_getLsbD_eq
    intro b hb
    rw [BitVec.getLsbD_extractLsb', r.getLsbD_word0 (by omega)]
    simp [hb, show ¬17 + b < 14 by omega, show 17 + b < 21 by omega, show ¬21 ≤ 17 + b by omega,
      show 17 + b ≠ 31 by omega]
  · apply BitVec.eq_of_getLsbD_eq
    intro b hb
    rw [BitVec.getLsbD_extractLsb', r.getLsbD_word0 (by omega)]
    simp [hb, show ¬21 + b < 14 by omega, show ¬21 + b < 17 by omega, show ¬21 + b < 21 by omega, show 21 + b < 29 by omega,
      show 21 + b ≠ 31 by omega]
  · rw [r.getLsbD_word0 (by omega)]
    simp

/-- Three words commit a configured rule. -/
theorem RuleWindow.write_row (w : RuleWindow) (r : PwFcRule) (i : ℕ) :
    (((w.write (i * 16 + 0) r.word0).write (i * 16 + 4) r.localFlowId).write
        (i * 16 + 8) r.logicalIfId).table = Function.update w.table (Fin.ofNat 32 i) r.row := by
  have h₀ : (i * 16 + 0) % 16 = 0 := by omega
  have h₄ : (i * 16 + 4) % 16 = 4 := by omega
  have h₈ : (i * 16 + 8) % 16 = 8 := by omega
  have hdiv : (i * 16 + 8) / 16 = i := by omega
  obtain ⟨hcare, haction, hegress, hprio, henable⟩ := r.word0_fields
  simp only [RuleWindow.write, h₀, h₄, h₈, hdiv, hcare, haction, hegress, hprio, henable]
  simp [PwFcRule.row]

/-- The first word alone commits nothing. -/
theorem RuleWindow.write_word0 (w : RuleWindow) (i : ℕ) (d : BitVec 32) :
    (w.write (i * 16 + 0) d).table = w.table := by
  have h₀ : (i * 16 + 0) % 16 = 0 := by omega
  simp only [RuleWindow.write, h₀]

/-- The rules after their writes: the program's, and then the old ones, since
nothing commits the row of an unused rule. -/
theorem run_ruleWrites (rules : List PwFcRule) :
    ∃ w : RuleWindow, s.run (ruleWrites rules) = { s with rule := w } ∧
      ∀ i : Fin 32, w.table i = (rules[i.val]?.map PwFcRule.row).getD (s.rule.table i) := by
  refine ⟨_, run_rule ?_ s, ?_⟩
  · intro w hw
    rw [List.mem_flatMap] at hw
    obtain ⟨i, -, hw⟩ := hw
    have := i.isLt
    cases hr : rules[i.val]? with
    | none =>
      simp only [hr, List.mem_singleton] at hw
      subst hw
      dsimp only
      omega
    | some r =>
      simp only [hr, List.mem_cons, List.not_mem_nil, or_false] at hw
      rcases hw with rfl | rfl | rfl <;> dsimp only <;> omega
  · intro i
    have hpass := foldl_update_option (fun j : Fin 32 => rules[j.val]?.map PwFcRule.row)
      (List.nodup_finRange 32) s.rule.table i
    rw [if_pos (List.mem_finRange i)] at hpass
    rw [← hpass, List.foldl_flatMap]
    apply congrFun
    apply foldl_view RuleWindow.table
    intro j _ w
    cases hr : rules[j.val]? with
    | none => exact w.write_word0 j 0
    | some r =>
      have hrow := w.write_row r j
      rw [Fin.ofNat_val_eq_self] at hrow
      exact hrow

/-! ### The hash table -/

/-- A bucket's control word commits the staged key. -/
theorem HashWindow.write_ctrl (k : HashWindow lfw) (i : ℕ) (d : BitVec 32) :
    k.write (i * 64 + 0x2C) d =
      { k with
        table :=
          { k.table with
            bucket := Function.update k.table.bucket (Fin.ofNat 128 i)
              (.ofCtrl lfw k.accKey d) } } := by
  have hdiv : (i * 64 + 0x2C) / 64 = i := by omega
  rw [HashWindow.write, dif_neg (by omega), if_pos (by omega), hdiv]

/-- A key word is staged. -/
theorem HashWindow.write_key (k : HashWindow lfw) (i : ℕ) (w : Fin 11) (d : BitVec 32) :
    k.write (i * 64 + w * 4) d = { k with accKey := setWord k.accKey w d } := by
  have hw := w.isLt
  have hidx : (⟨(i * 64 + w.val * 4) % 64 / 4, by omega⟩ : Fin 11) = w := by
    apply Fin.ext
    dsimp only
    omega
  rw [HashWindow.write, dif_pos (by omega), hidx]

/-- Clearing buckets: each of them becomes invalid, and the staged key stays. -/
theorem HashWindow.foldl_clear (l : List (Fin 128)) (k : HashWindow lfw) :
    l.foldl (fun k b => k.write (b * 64 + 0x2C) 0) k =
      { k with
        table :=
          { k.table with
            bucket := writeAll id (fun _ => .ofCtrl lfw k.accKey 0) l k.table.bucket } } := by
  induction l generalizing k with
  | nil => rfl
  | cons b bs ih =>
    rw [List.foldl_cons, HashWindow.write_ctrl, ih, Fin.ofNat_val_eq_self]
    rfl

/-- The clearing loop leaves no valid bucket. -/
theorem run_hashClearWrites :
    s.run hashClearWrites =
      { s with
        hash :=
          { s.hash with
            table := { s.hash.table with bucket := fun _ => .ofCtrl lfw s.hash.accKey 0 } } } := by
  have hall : writeAll id (fun _ => .ofCtrl lfw s.hash.accKey 0) (List.finRange 128)
      s.hash.table.bucket = fun _ => .ofCtrl lfw s.hash.accKey 0 := by
    funext b
    apply writeAll_of_forall
    · exact ⟨b, List.mem_finRange b, rfl⟩
    · intro _ _ _
      rfl
  rw [hashClearWrites, run_hash]
  · rw [List.foldl_map, HashWindow.foldl_clear, hall]
  · intro x hx
    rw [List.mem_map] at hx
    obtain ⟨b, -, rfl⟩ := hx
    have := b.isLt
    dsimp only
    omega

/-- The eleven mask words make up the mask. -/
theorem run_hashMaskWrites (mask : KeyWords) :
    s.run (hashMaskWrites mask) =
      { s with
        hash := { s.hash with table := { s.hash.table with mask := packWords mask } } } := by
  rw [hashMaskWrites, run_hashMask]
  · rw [List.foldl_map, foldl_component (fun k : HashWindow lfw => k.table.mask)
      (fun k m => { k with table := { k.table with mask := m } })
      (fun _ _ => rfl) (fun _ _ _ => rfl) (fun _ => rfl) (g := fun m w => setWord m w (mask w)),
      foldl_setWord]
    intro w _ k
    have hw := w.isLt
    have hidx : (⟨w.val * 4 / 4, by omega⟩ : Fin 11) = w := Fin.ext (by dsimp only; omega)
    rw [HashWindow.writeMask, dif_pos (by omega), hidx]
  · intro x hx
    rw [List.mem_map] at hx
    obtain ⟨w, -, rfl⟩ := hx
    have := w.isLt
    dsimp only
    omega

/-- The bucket an entry's control word commits. -/
def PwFcHashEntry.written (lfw : ℕ) (e : PwFcHashEntry) : HashBucket lfw :=
  .ofCtrl lfw (packWords e.keyWord) (ctrlValid ||| e.localFlowId)

/-- An entry's twelve words commit its bucket, whatever key was staged. -/
theorem HashWindow.write_entry (k : HashWindow lfw) (e : PwFcHashEntry) :
    ((List.finRange 11).map (fun w => (e.index.toNat * 64 + w.val * 4, e.keyWord w)) ++
        [(e.index.toNat * 64 + 0x2C, ctrlValid ||| e.localFlowId)]).foldl
          (fun k x => k.write x.1 x.2) k =
      { accKey := packWords e.keyWord
        table :=
          { k.table with
            bucket := Function.update k.table.bucket (Fin.ofNat 128 e.index.toNat)
              (e.written lfw) } } := by
  rw [List.foldl_append, List.foldl_map]
  have hkey : (List.finRange 11).foldl
      (fun k w => HashWindow.write k (e.index.toNat * 64 + w.val * 4) (e.keyWord w)) k =
      { k with accKey := packWords e.keyWord } := by
    rw [foldl_component HashWindow.accKey (fun k a => { k with accKey := a })
      (fun _ _ => rfl) (fun _ _ _ => rfl) (fun _ => rfl)
      (g := fun a w => setWord a w (e.keyWord w)), foldl_setWord]
    intro w _ k
    exact k.write_key _ w _
  rw [hkey, List.foldl_cons, List.foldl_nil, HashWindow.write_ctrl]
  rfl

/-- The entries' writes put every entry into its bucket. -/
theorem run_hashEntryWrites {entries : List PwFcHashEntry}
    (h : ∀ e ∈ entries, e.index.toNat < 128) :
    ∃ k : HashWindow lfw, s.run (hashEntryWrites entries) = { s with hash := k } ∧
      k.table =
        { s.hash.table with
          bucket := writeAll (fun e => Fin.ofNat 128 e.index.toNat) (PwFcHashEntry.written lfw)
            entries s.hash.table.bucket } := by
  refine ⟨_, run_hash ?_ s, ?_⟩
  · intro x hx
    rw [List.mem_flatMap] at hx
    obtain ⟨e, he, hx⟩ := hx
    have := h e he
    rw [List.mem_append, List.mem_map, List.mem_singleton] at hx
    rcases hx with ⟨w, -, rfl⟩ | rfl
    · have := w.isLt
      dsimp only
      omega
    · dsimp only
      omega
  · rw [List.foldl_flatMap]
    simp only [HashWindow.write_entry]
    rw [foldl_view HashWindow.table (g := fun t e =>
      { t with
        bucket := Function.update t.bucket (Fin.ofNat 128 e.index.toNat) (e.written lfw) })
      (fun _ _ _ => rfl)]
    exact foldl_component HashTables.bucket (fun t b => { t with bucket := b })
      (g := fun b (e : PwFcHashEntry) =>
        Function.update b (Fin.ofNat 128 e.index.toNat) (e.written lfw))
      (fun _ _ => rfl) (fun _ _ _ => rfl) (fun _ => rfl) (fun _ _ _ => rfl) _

/-- The hash table after its writes: the entries in their buckets and every
other bucket invalid; mask and seed are the program's when it has an entry. -/
theorem run_hashWrites {cp : PwCardProgram} (h : ∀ e ∈ cp.hashEntries, e.index.toNat < 128) :
    ∃ k : HashWindow lfw, s.run (hashWrites cp) = { s with hash := k } ∧
      k.table =
        { seed := if cp.hashEntries.isEmpty then s.hash.table.seed else cp.hashSeed
          mask := if cp.hashEntries.isEmpty then s.hash.table.mask else packWords cp.hashMask
          bucket := writeAll (fun e => Fin.ofNat 128 e.index.toNat) (PwFcHashEntry.written lfw)
            cp.hashEntries (fun _ => .ofCtrl lfw s.hash.accKey 0) } := by
  rw [hashWrites, CsrState.run_append, run_hashClearWrites]
  cases he : cp.hashEntries.isEmpty with
  | true =>
    refine ⟨_, rfl, ?_⟩
    rw [List.isEmpty_iff.mp he]
    rfl
  | false =>
    rw [if_neg (by simp), CsrState.run_append, CsrState.run_append, run_hashMaskWrites]
    obtain ⟨k, hk, htable⟩ := run_hashEntryWrites _ h
    exact ⟨k, hk, htable⟩

/-! ### The whole program -/

/-- The committed tables `t'` after `cp` was programmed over the tables `t`:
what the program writes, and what it leaves. -/
structure Programmed (cp : PwCardProgram) (t t' : CardTables lfw) : Prop where
  map : t'.map =
    writeAll (fun m => Fin.ofNat 256 m.flowId.toNat)
      (fun m => .ofData lfw (ctrlValid ||| m.localFlowId)) cp.mapEntries (fun _ => {})
  cmp : ∀ i : Fin 12,
    t'.field.cmp i = (cp.fcCmps[i.val]?.map PwFcCmp.row).getD (t.field.cmp i)
  udf : ∀ i : Fin 2,
    t'.field.udf i = (cp.fcUdfs[i.val]?.map PwFcUdf.row).getD (t.field.udf i)
  rule : ∀ i : Fin 32,
    t'.field.rule i = (cp.fcRules[i.val]?.map PwFcRule.row).getD (t.field.rule i)
  hash : ∃ key : HashKey, t'.hash =
    { seed := if cp.hashEntries.isEmpty then t.hash.seed else cp.hashSeed
      mask := if cp.hashEntries.isEmpty then t.hash.mask else packWords cp.hashMask
      bucket := writeAll (fun e => Fin.ofNat 128 e.index.toNat) (PwFcHashEntry.written lfw)
        cp.hashEntries (fun _ => .ofCtrl lfw key 0) }

/-- **What programming a card does**, from any state. -/
theorem run_programWrites (n : Option ℕ) {cp : PwCardProgram} (h : Accepted cp) :
    Programmed cp s.tables (s.run (programWrites n cp)).tables := by
  rw [programWrites]
  simp only [CsrState.run_append]
  rw [run_flowWrites, run_mapWrites _ h.map]
  obtain ⟨c, hc, hcmp⟩ := run_cmpWrites
    { s with
      map := writeAll (fun m => Fin.ofNat 256 m.flowId.toNat)
        (fun m => .ofData lfw (ctrlValid ||| m.localFlowId)) cp.mapEntries (fun _ => {}) } h.cmps
  rw [hc]
  obtain ⟨u, hu, hudf⟩ := run_udfWrites { s with cmp := c, map := _ } h.udfs
  rw [hu]
  obtain ⟨w, hw, hrule⟩ := run_ruleWrites { s with cmp := c, map := _, udf := u } cp.fcRules
  rw [hw]
  obtain ⟨k, hk, hhash⟩ := run_hashWrites { s with cmp := c, map := _, udf := u, rule := w } h.hash
  rw [hk]
  exact ⟨rfl, hcmp, hudf, hrule, _, hhash⟩

end Effects

end PacketWyrm
