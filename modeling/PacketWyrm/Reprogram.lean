import PacketWyrm.Programming

/-!
# Reprogramming a card

A card is programmed again and again without a reset in between.  What the last
program leaves of the earlier ones is what its writes do not reach: the rows of
rules, comparators and window comparators past its own.  The comparators are
harmless, since only a rule's care mask refers to one.  The rules are not: the
programmer clears the first word of an unused rule and never writes the word
that commits the row, so the rule of an earlier program stays enabled.

## Main definitions

* `programAll` — a sequence of programs, each accepted and written.
* `Supersedes` — the last program has a rule wherever an earlier one has, and its
  rules look at no comparator that only an earlier program wrote.

## Main results

* `eff_of_supersedes` — a card programmed last with a program that supersedes the
  earlier ones classifies by the program's own tables.
* `reprogram_no_residue` — so it classifies as if programmed once, from reset.
* `rule_eq_alone_iff` — the committed rules are those of the last program alone
  exactly when no earlier program has more rules.
-/

namespace PacketWyrm

open Lib CsrState

variable {lfw : ℕ}

/-! ## Sequences of programs -/

/-- Program a card again and again. -/
def programAll (n : Option ℕ) (ps : List PwCardProgram) (s : CsrState lfw) :
    Except PwFailure (CsrState lfw) :=
  ps.foldlM (fun s cp => do
    let ws ← pwProgramCardTablesDiag n cp
    pure (s.run ws)) s

/-- One program of the sequence. -/
theorem programmed_of_step {n : Option ℕ} {cp : PwCardProgram} {s s' : CsrState lfw}
    (h : (do let ws ← pwProgramCardTablesDiag n cp; pure (s.run ws)) = Except.ok s') :
    Accepted cp ∧ Programmed cp s.tables s'.tables := by
  rw [bind_eq_ok_iff] at h
  obtain ⟨ws, hws, hs⟩ := h
  obtain ⟨hacc, rfl⟩ := accepted_of_program hws
  obtain rfl : s.run (programWrites n cp) = s' := by simpa [pure, Except.pure] using hs
  exact ⟨hacc, run_programWrites s n hacc⟩

theorem programAll_append {n : Option ℕ} {ps : List PwCardProgram} {cp : PwCardProgram}
    {s s' : CsrState lfw} (h : programAll n (ps ++ [cp]) s = .ok s') :
    ∃ t, programAll n ps s = .ok t ∧ Accepted cp ∧ Programmed cp t.tables s'.tables := by
  rw [programAll, List.foldlM_append, bind_eq_ok_iff] at h
  obtain ⟨t, ht, hs⟩ := h
  rw [List.foldlM_cons, bind_eq_ok_iff] at hs
  obtain ⟨u, hu, hs⟩ := hs
  obtain rfl : u = s' := by simpa [pure, Except.pure] using hs
  exact ⟨t, ht, programmed_of_step hu⟩

/-- Every program of a run that went through was accepted. -/
theorem accepted_of_mem {n : Option ℕ} {ps : List PwCardProgram} {cp : PwCardProgram}
    {s s' : CsrState lfw} (h : programAll n ps s = .ok s') (hcp : cp ∈ ps) : Accepted cp := by
  refine (foldlM_ok_induction (P := fun pre _ => ∀ p ∈ pre, Accepted p) h (by simp) ?_) cp hcp
  intro pre q post u u' _ ih hstep p hp
  rw [List.mem_append, List.mem_singleton] at hp
  rcases hp with hp | rfl
  · exact ih p hp
  · exact (programmed_of_step hstep).1

/-! ## What a run leaves alone -/

/-- A part of the tables that no program of the run changes is as it was. -/
theorem frame_of_programAll {ν : Type} (view : CardTables lfw → ν) {n : Option ℕ}
    {ps : List PwCardProgram} {s s' : CsrState lfw} (h : programAll n ps s = .ok s')
    (hstep : ∀ p ∈ ps, ∀ t t' : CardTables lfw, Programmed p t t' → view t' = view t) :
    view s'.tables = view s.tables := by
  refine foldlM_ok_invariant (P := fun u => view u.tables = view s.tables) h rfl ?_
  intro p hp u u' hu hstep'
  rw [hstep p hp _ _ (programmed_of_step hstep').2, hu]

/-- A slot past the end of a program's list keeps its row. -/
theorem getD_of_length_le {α ν : Type} {l : List α} {i : ℕ} (h : l.length ≤ i) (row : α → ν)
    (d : ν) : (l[i]?.map row).getD d = d := by
  rw [List.getElem?_eq_none h]
  rfl

/-! ## Classification by the last program -/

/-- The program writes the comparator that a care mask's bit refers to. -/
def PwCardProgram.Writes (cp : PwCardProgram) (i : Fin 14) : Prop :=
  if i.val < 12 then i.val < cp.fcCmps.length else i.val - 12 < cp.fcUdfs.length

theorem PwCardProgram.not_writes_cmp {cp : PwCardProgram} (i : Fin 12) :
    ¬cp.Writes ⟨i, by omega⟩ ↔ cp.fcCmps.length ≤ i := by
  simp [PwCardProgram.Writes]

theorem PwCardProgram.not_writes_udf {cp : PwCardProgram} (i : Fin 2) :
    ¬cp.Writes ⟨12 + i, by omega⟩ ↔ cp.fcUdfs.length ≤ i := by
  have h12 : ¬12 + i.val < 12 := by omega
  simp [PwCardProgram.Writes, h12]

/-- Tables in which no rule is left past those of `q`, and no comparator is left
that a rule of `q` looks at and `q` does not write. -/
structure CleanFor (q : PwCardProgram) (t : CardTables lfw) : Prop where
  rule : ∀ i : Fin 32, q.fcRules.length ≤ i → t.field.rule i = {}
  cmp : ∀ r ∈ q.fcRules, ∀ i : Fin 12, r.row.care.getLsbD i = true →
    q.fcCmps.length ≤ i → t.field.cmp i = {}
  udf : ∀ r ∈ q.fcRules, ∀ i : Fin 2, r.row.care.getLsbD (12 + i) = true →
    q.fcUdfs.length ≤ i → t.field.udf i = {}

theorem cleanFor_init (q : PwCardProgram) : CleanFor q (.init : CardTables lfw) :=
  ⟨fun _ _ => rfl, fun _ _ _ _ _ => rfl, fun _ _ _ _ _ => rfl⟩

section LastProgram

variable {q : PwCardProgram} {t u t' u' : CardTables lfw}

/-- The rules are the program's, and disabled after its last. -/
theorem Programmed.rule_eq (ht : Programmed q t t') (hct : CleanFor q t) (i : Fin 32) :
    t'.field.rule i = (q.fcRules[i.val]?.map PwFcRule.row).getD {} := by
  rw [ht.rule]
  by_cases hi : i.val < q.fcRules.length
  · rw [List.getElem?_eq_getElem hi]
    rfl
  · rw [getD_of_length_le (by omega), getD_of_length_le (by omega), hct.rule i (by omega)]

/-- A rule of the program sees the same comparators wherever it is programmed. -/
theorem Programmed.cmatch_eq (ht : Programmed q t t') (hct : CleanFor q t)
    (hu : Programmed q u u') (hcu : CleanFor q u) {r : PwFcRule} (hr : r ∈ q.fcRules)
    {k : PwMatchKey} {win : Window} {base : BitVec 16} {i : Fin 14}
    (hi : r.row.care.getLsbD i = true) :
    t'.field.cmatch k win base i = u'.field.cmatch k win base i := by
  by_cases h12 : i.val < 12
  · have hcmp : t'.field.cmp ⟨i, h12⟩ = u'.field.cmp ⟨i, h12⟩ := by
      rw [ht.cmp, hu.cmp]
      by_cases hlt : i.val < q.fcCmps.length
      · rw [List.getElem?_eq_getElem hlt]
        rfl
      · rw [getD_of_length_le (by dsimp only; omega), getD_of_length_le (by dsimp only; omega),
          hct.cmp r hr ⟨i, h12⟩ hi (by dsimp only; omega),
          hcu.cmp r hr ⟨i, h12⟩ hi (by dsimp only; omega)]
    rw [FieldTables.cmatch, FieldTables.cmatch, dif_pos h12, dif_pos h12, hcmp]
  · have hilt := i.isLt
    have hudf : t'.field.udf ⟨i - 12, by omega⟩ = u'.field.udf ⟨i - 12, by omega⟩ := by
      rw [ht.udf, hu.udf]
      have hcare : r.row.care.getLsbD (12 + (i.val - 12)) = true := by
        rwa [show 12 + (i.val - 12) = i.val by omega]
      by_cases hlt : i.val - 12 < q.fcUdfs.length
      · rw [List.getElem?_eq_getElem hlt]
        rfl
      · rw [getD_of_length_le (by dsimp only; omega), getD_of_length_le (by dsimp only; omega),
          hct.udf r hr ⟨i - 12, by omega⟩ hcare (by dsimp only; omega),
          hcu.udf r hr ⟨i - 12, by omega⟩ hcare (by dsimp only; omega)]
    rw [FieldTables.cmatch, FieldTables.cmatch, dif_neg h12, dif_neg h12, hudf]

/-- So the rules decide the same. -/
theorem Programmed.result_eq (ht : Programmed q t t') (hct : CleanFor q t)
    (hu : Programmed q u u') (hcu : CleanFor q u) (k : PwMatchKey) (win : Window)
    (base : BitVec 16) : t'.field.result k win base = u'.field.result k win base := by
  have hrule : t'.field.rule = u'.field.rule := by
    funext i
    rw [ht.rule_eq hct, hu.rule_eq hcu]
  rw [FieldTables.result_eq, FieldTables.result_eq, hrule]
  congr 1
  apply select_eq_of_forall₂
  rw [List.forall₂_same]
  intro row hrow
  refine ⟨?_, rfl, rfl⟩
  obtain ⟨i, rfl⟩ := List.mem_ofFn.mp hrow
  rw [Bool.eq_iff_iff, RuleRow.hit_eq_true_iff, RuleRow.hit_eq_true_iff, hu.rule_eq hcu]
  -- only a rule of the program is enabled
  cases hget : q.fcRules[i.val]? with
  | none => simp
  | some r =>
    have hr : r ∈ q.fcRules := List.mem_of_getElem? hget
    apply and_congr_right
    intro _
    apply forall_congr'
    intro j
    apply imp_congr_right
    intro hj
    rw [ht.cmatch_eq hct hu hcu hr hj]

/-- Two buckets that answer every lookup alike. -/
def HashBucket.Agree (b b' : HashBucket lfw) : Prop :=
  b.valid = b'.valid ∧ (b.valid = true → b = b')

theorem HashBucket.Agree.answer_eq {b b' : HashBucket lfw} (h : b.Agree b') (mkey : HashKey) :
    (if b.valid && b.key == mkey then some b.lfid else none) =
      if b'.valid && b'.key == mkey then some b'.lfid else none := by
  cases hv : b'.valid with
  | false =>
    rw [h.1, hv]
    rfl
  | true =>
    have hb : b = b' := h.2 (h.1.trans hv)
    rw [hb, hv]

/-- So the hash table answers the same. -/
theorem Programmed.lookup_eq (ht : Programmed q t t') (hu : Programmed q u u')
    (k : PwMatchKey) : t'.hash.lookup k = u'.hash.lookup k := by
  obtain ⟨key, hth⟩ := ht.hash
  obtain ⟨key', huh⟩ := hu.hash
  have hbucket : ∀ b, (t'.hash.bucket b).Agree (u'.hash.bucket b) := by
    rw [hth, huh]
    apply writeAll_rel
    · intro b
      exact ⟨rfl, fun _ => rfl⟩
    · intro b
      exact ⟨rfl, fun h => by simp [HashBucket.ofCtrl] at h⟩
  cases hq : q.hashEntries with
  | nil =>
    -- no bucket is valid
    have hinvalid : ∀ b, (t'.hash.bucket b).valid = false := by
      intro b
      rw [hth, hq]
      simp [HashBucket.ofCtrl]
    have hinvalid' : ∀ b, (u'.hash.bucket b).valid = false := by
      intro b
      rw [← (hbucket b).1, hinvalid]
    simp [HashTables.lookup, hinvalid, hinvalid']
  | cons e es =>
    have hseed : t'.hash.seed = u'.hash.seed := by simp [hth, huh, hq]
    have hmask : t'.hash.mask = u'.hash.mask := by simp [hth, huh, hq]
    simp only [HashTables.lookup, HashTables.index, hseed, hmask]
    exact (hbucket _).answer_eq _

/-- **The last program alone decides**, over any tables that are clean for it. -/
theorem Programmed.eff_eq (ht : Programmed q t t') (hct : CleanFor q t)
    (hu : Programmed q u u') (hcu : CleanFor q u) (k : PwMatchKey) (win : Window)
    (base : BitVec 16) : t'.eff k win base = u'.eff k win base := by
  rw [CardTables.eff, CardTables.eff, ht.map, hu.map, ht.lookup_eq hu,
    ht.result_eq hct hu hcu]

end LastProgram

/-- The tables of a program are what programming it over an empty card commits,
when a slot number and the valid bit do not overlap. -/
theorem programmed_tables (q : PwCardProgram) (hlfw : lfw ≤ 31) :
    Programmed q .init (q.tables lfw) := by
  have hvalid : ∀ x : BitVec 32, (ctrlValid ||| x).getLsbD 31 = true := by
    intro x
    simp [ctrlValid]
  have hlfid : ∀ x : BitVec 32, (ctrlValid ||| x).setWidth lfw = x.setWidth lfw := by
    intro x
    apply BitVec.eq_of_getLsbD_eq
    intro b hb
    have hbit : ctrlValid.getLsbD b = false := by
      rw [ctrlValid, show (0x80000000 : BitVec 32) = BitVec.twoPow 32 31 from rfl,
        BitVec.getLsbD_twoPow]
      simp
      omega
    simp [hb, hbit]
  refine ⟨?_, fun _ => rfl, fun _ => rfl, fun _ => rfl, 0, ?_⟩
  · simp only [PwCardProgram.tables, PwCardProgram.mapTable, MapEntry.ofData, hvalid, hlfid]
    rfl
  · have hrow : PwFcHashEntry.written lfw = PwFcHashEntry.bucket lfw := by
      funext e
      simp only [PwFcHashEntry.written, PwFcHashEntry.bucket, HashBucket.ofCtrl, hvalid, hlfid]
    have hempty : HashBucket.ofCtrl lfw 0 0 = {} := by simp [HashBucket.ofCtrl]
    rw [hrow, hempty]
    simp only [PwCardProgram.tables, PwCardProgram.hashTables]
    cases hq : q.hashEntries with
    | nil => rfl
    | cons e es => rfl

/-! ## Runs -/

/-- What makes the last program of a run the only one that decides: no earlier
program has more rules, and no rule of the last program looks at a comparator
that an earlier program wrote and the last one does not. -/
structure Supersedes (q : PwCardProgram) (ps : List PwCardProgram) : Prop where
  rules : ∀ p ∈ ps, p.fcRules.length ≤ q.fcRules.length
  cares : ∀ r ∈ q.fcRules, ∀ i : Fin 14, r.care.getLsbD i = true →
    q.Writes i ∨ ∀ p ∈ ps, ¬p.Writes i

section Runs

variable {n : Option ℕ} {ps : List PwCardProgram} {q : PwCardProgram} {s t : CsrState lfw}

/-- **The run invariant.**  Over an empty card, a run of programs that `q` supersedes
leaves the tables clean for `q`. -/
theorem cleanFor_of_supersedes (hs : s.IsReset) (h : programAll n ps s = .ok t) (hq : Supersedes q ps) :
    CleanFor q t.tables := by
  have hcare : ∀ r ∈ q.fcRules, ∀ i : Fin 14, r.row.care.getLsbD i = true → ¬q.Writes i →
      ∀ p ∈ ps, ¬p.Writes i := by
    intro r hr i hi hw
    have hbit : r.care.getLsbD i = true := by simpa [PwFcRule.row, i.isLt] using hi
    exact (hq.cares r hr i hbit).resolve_left hw
  refine ⟨?_, ?_, ?_⟩
  · intro i hi
    have hframe := frame_of_programAll (fun t => t.field.rule i) h fun p hp t t' hpt => by
      have := hq.rules p hp
      rw [hpt.rule, getD_of_length_le (by omega)]
    rw [hframe, hs]
    rfl
  · intro r hr i hi hlen
    have hnot := hcare r hr ⟨i, by omega⟩ hi ((PwCardProgram.not_writes_cmp i).mpr hlen)
    have hframe := frame_of_programAll (fun t => t.field.cmp i) h fun p hp t t' hpt => by
      rw [hpt.cmp, getD_of_length_le ((PwCardProgram.not_writes_cmp i).mp (hnot p hp))]
    rw [hframe, hs]
    rfl
  · intro r hr i hi hlen
    have hnot := hcare r hr ⟨12 + i, by omega⟩ hi ((PwCardProgram.not_writes_udf i).mpr hlen)
    have hframe := frame_of_programAll (fun t => t.field.udf i) h fun p hp t t' hpt => by
      rw [hpt.udf, getD_of_length_le ((PwCardProgram.not_writes_udf i).mp (hnot p hp))]
    rw [hframe, hs]
    rfl

/-- **A card programmed last with a program that supersedes the earlier ones
classifies by the program's own tables.** -/
theorem eff_of_supersedes (hlfw : lfw ≤ 31) (hs : s.IsReset)
    (h : programAll n (ps ++ [q]) s = .ok t) (hq : Supersedes q ps) (k : PwMatchKey) (win : Window)
    (base : BitVec 16) : t.tables.eff k win base = (q.tables lfw).eff k win base := by
  obtain ⟨u, hu, -, hprog⟩ := programAll_append h
  exact hprog.eff_eq (cleanFor_of_supersedes hs hu hq) (programmed_tables q hlfw)
    (cleanFor_init q) k win base

/-- **No residue.**  After a run from reset whose last program supersedes the
earlier ones, the card classifies every key as it does when the last program
alone is programmed from reset. -/
theorem reprogram_no_residue {s' t' : CsrState lfw} (hs : s.IsReset) (hs' : s'.IsReset)
    (h : programAll n (ps ++ [q]) s = .ok t) (halone : programAll n [q] s' = .ok t')
    (hq : Supersedes q ps) (k : PwMatchKey) (win : Window) (base : BitVec 16) :
    t.tables.eff k win base = t'.tables.eff k win base := by
  obtain ⟨u, hu, -, hprog⟩ := programAll_append h
  obtain ⟨u', hu', -, hprog'⟩ := programAll_append
    (show programAll n ([] ++ [q]) s' = .ok t' from halone)
  obtain rfl : s' = u' := Except.ok.inj hu'
  refine hprog.eff_eq (cleanFor_of_supersedes hs hu hq) hprog' ?_ k win base
  rw [hs']
  exact cleanFor_init q

/-- An enabled rule that the following programs do not reach stays. -/
theorem enable_of_longer {p : PwCardProgram} (h : programAll n ps s = .ok t) (hp : p ∈ ps)
    {i : Fin 32} (hi : i.val < p.fcRules.length) : (t.tables.field.rule i).enable = true := by
  -- from the step that programs `p` on, the slot is enabled: a step writes an
  -- enabled rule or leaves the slot alone
  refine (foldlM_ok_induction (P := fun pre u => p ∈ pre → (u.tables.field.rule i).enable = true)
    h (by simp) ?_) hp
  intro pre q post u u' _ ih hstep hmem
  have hq := (programmed_of_step hstep).2
  rw [hq.rule]
  cases hget : q.fcRules[i.val]? with
  | some r => rfl
  | none =>
    rw [List.getElem?_eq_none_iff] at hget
    have hpre : p ∈ pre := by
      rw [List.mem_append, List.mem_singleton] at hmem
      rcases hmem with hmem | rfl
      · exact hmem
      · omega
    exact ih hpre

/-- **The committed rules are those of the last program alone exactly when no
earlier program has more rules.** -/
theorem rule_eq_alone_iff (hs : s.IsReset) (h : programAll n (ps ++ [q]) s = .ok t) :
    (∀ i : Fin 32, t.tables.field.rule i = (q.fcRules[i.val]?.map PwFcRule.row).getD {}) ↔
      ∀ p ∈ ps, p.fcRules.length ≤ q.fcRules.length := by
  obtain ⟨u, hu, hacc, hprog⟩ := programAll_append h
  constructor
  · intro hrule p hp
    by_contra hlt
    have hacc' : Accepted p := accepted_of_mem hu hp
    have hi : q.fcRules.length < 32 := by
      have := hacc'.rules
      omega
    have hen := enable_of_longer h (List.mem_append_left [q] hp) (i := ⟨_, hi⟩) (by dsimp only; omega)
    rw [hrule, getD_of_length_le (by dsimp only; omega)] at hen
    exact absurd hen (by simp)
  · intro hle i
    rw [hprog.rule]
    by_cases hi : i.val < q.fcRules.length
    · rw [List.getElem?_eq_getElem hi]
      rfl
    · have hframe := frame_of_programAll (fun t => t.field.rule i) hu fun p hp t t' hpt => by
        have := hle p hp
        rw [hpt.rule, getD_of_length_le (by omega)]
      rw [getD_of_length_le (by omega), getD_of_length_le (by omega), hframe, hs]
      rfl

end Runs

/-! ## A run that leaves a rule behind -/

/-- The state at configuration, with empty staging registers. -/
def CsrState.reset : CsrState lfw :=
  { map := fun _ => {}
    cmp := { accSrc := 0, accMask := 0, table := fun _ => {} }
    udf := { accOffset := 0, accMask := 0, table := fun _ => {} }
    rule :=
      { accCare := 0, accAction := 0, accEgress := 0, accPrio := 0, accEnable := false
        accLfid := 0, table := fun _ => {} }
    hash := { accKey := 0, table := .init } }

theorem CsrState.isReset_reset : (CsrState.reset : CsrState lfw).IsReset := rfl

/-- Punt every frame to the host. -/
def puntAllProgram : PwCardProgram :=
  { cardId := 0
    fcRules :=
      [{ care := 0, action := .puntToHost, egress := 0, localFlowId := 0, logicalIfId := 1
         priority := 0 }] }

/-- The same rule for another logical interface. -/
def puntOtherProgram : PwCardProgram :=
  { cardId := 0
    fcRules :=
      [{ care := 0, action := .puntToHost, egress := 0, localFlowId := 0, logicalIfId := 2
         priority := 0 }] }

/-- Nothing at all. -/
def emptyProgram : PwCardProgram := { cardId := 0 }

theorem reprogram_no_residue_punt :
    ∃ s t : CsrState 5,
      programAll none [puntAllProgram, emptyProgram, puntOtherProgram] .reset = .ok s ∧
        programAll none [puntOtherProgram] .reset = .ok t ∧
        Supersedes puntOtherProgram [puntAllProgram, emptyProgram] ∧
        s.tables.eff {} (fun _ => 0) 0 = t.tables.eff {} (fun _ => 0) 0 := by
  have hcov : Supersedes puntOtherProgram [puntAllProgram, emptyProgram] :=
    ⟨by decide, by simp [puntOtherProgram]⟩
  exact ⟨_, _, rfl, rfl, hcov,
    reprogram_no_residue (n := none) isReset_reset isReset_reset rfl rfl hcov {} (fun _ => 0) 0⟩

/-- A program without rules does not remove the rules of the one before. -/
theorem stale_rule_punts :
    ¬∀ (lfw : ℕ) (n : Option ℕ) (ps : List PwCardProgram) (q : PwCardProgram)
      (s s' t t' : CsrState lfw), s.IsReset → s'.IsReset →
      programAll n (ps ++ [q]) s = .ok t → programAll n [q] s' = .ok t' →
      ∀ (k : PwMatchKey) (win : Window) (base : BitVec 16),
        t.tables.eff k win base = t'.tables.eff k win base := by
  intro h
  have heq := h 5 none [puntAllProgram] emptyProgram .reset .reset _ _ isReset_reset isReset_reset
    rfl rfl {} (fun _ => 0) 0
  exact absurd heq (by decide +kernel)

end PacketWyrm
