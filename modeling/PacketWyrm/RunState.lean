import PacketWyrm.SlotAllocation
import PacketWyrm.CardStaging

/-!
# The run state of the flows

The daemon keeps the run state of a flow in the enable flags of the row that the flow
sends with.  A compiled program has them set; the daemon clears them in memory before a
program is staged, and sets them when the operator starts the flow.

## Main definitions

* `findTxRow`, `stageFlowRunState`, `setFlowEnable` — as the daemon has them.

## Main results

* `runStaged_stageFlowRunState` — which rows the staging of a run state changes.
* `idle_stageFlowRunState` — no row of a compiled program that is staged idle sends.
-/

namespace PacketWyrm

open Lib

/-! ## Rows of a program -/

/-- `find_tx_row`: the card and the row that a flow sends with. -/
def findTxRow (p : PwProgram) (globalFlowId : BitVec 32) : Option (ℕ × ℕ) :=
  (p.flowMeta.find? fun m => m.globalFlowId == globalFlowId).bind fun m =>
    p.perCard.zipIdx.findSome? fun x =>
      if x.1.cardId == m.txCardId then
        (x.1.flowRows.findIdx? fun row => row.localFlowId == m.txLocalFlowId).map fun r => (x.2, r)
      else none

/-- The row with its enable flags set or cleared. -/
def PwfpgaFlowConfig.withRun (running : Bool) (row : PwfpgaFlowConfig) : PwfpgaFlowConfig :=
  { row with enable := flagByte running, txEnable := flagByte running }

namespace PwProgram

variable (p : PwProgram)

/-- Write a row of a card. -/
def setRow (ci r : ℕ) (f : PwfpgaFlowConfig → PwfpgaFlowConfig) : PwProgram :=
  { p with perCard := p.perCard.modify ci fun cp => { cp with flowRows := cp.flowRows.modify r f } }

/-- A row of a card. -/
def rowView (ci r : ℕ) : Option PwfpgaFlowConfig := p.perCard[ci]?.bind fun cp => cp.flowRows[r]?

/-- What `find_tx_row` looks at. -/
def slots : List (BitVec 16 × List (BitVec 32)) :=
  p.perCard.map fun cp => (cp.cardId, cp.flowRows.map PwfpgaFlowConfig.localFlowId)

/-- The cards without their flow rows. -/
def others : List PwCardProgram := p.perCard.map fun cp => { cp with flowRows := [] }

end PwProgram

/-- `stage_flow_run_state`. -/
def stageFlowRunState (p : PwProgram) (running : Bool) : PwProgram :=
  p.flowMeta.foldl (fun q m =>
    match findTxRow q m.globalFlowId with
    | some (ci, r) => q.setRow ci r (.withRun running)
    | none => q) p

/-- `set_flow_enable`: the row goes to the card with its flags changed, and then, if it is
to persist, into the program.  The commit is left out when the row could not be written. -/
def setFlowEnable {lfw : ℕ} (depth : ℕ) (isOpen : ℕ → Bool) (faults : Faults) (p : PwProgram)
    (cards : ℕ → CardState lfw) (globalFlowId : BitVec 32) (enable persist : Bool) :
    PwProgram × (ℕ → CardState lfw) × Option PwStatus :=
  match findTxRow p globalFlowId with
  | none => (p, cards, some .inval)
  | some (ci, r) =>
    if !isOpen ci then (p, cards, some .noCard)
    else
      let tmp := ((p.rowView ci r).getD {}).withRun enable
      let ws := barFlowWrite r tmp
      let ws' := if (firstFault faults ws).isSome then ws else ws ++ barFlowCommit
      let cards := Function.update cards ci ((cards ci).run depth (performed faults ws'))
      match firstFault faults ws' with
      | some e => (p, cards, some e)
      | none => (if persist then p.setRow ci r fun _ => tmp else p, cards, none)

/-- What is written is not a part of the classifier. -/
theorem csr_setFlowEnable {lfw : ℕ} (depth : ℕ) (isOpen : ℕ → Bool) (faults : Faults) (p : PwProgram)
    (cards : ℕ → CardState lfw) (globalFlowId : BitVec 32) (enable persist : Bool) (ci : ℕ) :
    ((setFlowEnable depth isOpen faults p cards globalFlowId enable persist).2.1 ci).csr =
      (cards ci).csr := by
  rw [setFlowEnable]
  split
  · rfl
  · rename_i ci' r _
    split
    · rfl
    · have hcard : ∀ ws, (∀ w ∈ ws, 0x5000 ≤ w.addr) →
          ((Function.update cards ci' ((cards ci').run depth (performed faults ws))) ci).csr =
            (cards ci).csr := by
        intro ws hws
        rw [Function.update_apply]
        split
        · rename_i heq
          rw [CardState.csr_run, heq]
          exact CsrState.run_of_ge (fun w hw => hws w (mem_of_mem_performed hw)) _
        · rfl
      have hge : ∀ tmp, ∀ w ∈ barFlowWrite r tmp ++ barFlowCommit, 0x5000 ≤ w.addr := by
        intro tmp w hw
        simp only [barFlowWrite, barFlowCommit, winFlowTable, List.mem_append, List.mem_map,
          List.mem_singleton] at hw
        rcases hw with ⟨j, -, rfl⟩ | rfl
        · dsimp only
          omega
        · decide
      dsimp only
      split
      · apply hcard
        intro w hw
        split at hw
        · exact hge _ w (List.mem_append_left _ hw)
        · exact hge _ w hw
      · apply hcard
        intro w hw
        split at hw
        · exact hge _ w (List.mem_append_left _ hw)
        · exact hge _ w hw

/-! ## Staging a run state -/

section Staging

variable {p q : PwProgram} {ci r : ℕ} {f : PwfpgaFlowConfig → PwfpgaFlowConfig}

theorem rowView_setRow (p : PwProgram) (ci r : ℕ) (f : PwfpgaFlowConfig → PwfpgaFlowConfig)
    (ci' r' : ℕ) :
    (p.setRow ci r f).rowView ci' r' =
      if ci = ci' ∧ r = r' then (p.rowView ci' r').map f else p.rowView ci' r' := by
  simp only [PwProgram.rowView, PwProgram.setRow, List.getElem?_modify]
  cases p.perCard[ci']? with
  | none => simp
  | some cp =>
    by_cases hci : ci = ci'
    · simp only [hci, if_true, Option.map_eq_map, Option.map_some, Option.bind_some,
        List.getElem?_modify, true_and]
      cases cp.flowRows[r']? with
      | none => simp
      | some row => by_cases hr : r = r' <;> simp [hr]
    · simp [hci]

theorem slots_setRow (hf : ∀ row, (f row).localFlowId = row.localFlowId) :
    (p.setRow ci r f).slots = p.slots := by
  apply List.ext_getElem?
  intro i
  simp only [PwProgram.slots, PwProgram.setRow, List.getElem?_map, List.getElem?_modify]
  cases p.perCard[i]? with
  | none => rfl
  | some cp =>
    by_cases hi : ci = i
    · have hrows : (cp.flowRows.modify r f).map PwfpgaFlowConfig.localFlowId =
          cp.flowRows.map PwfpgaFlowConfig.localFlowId := by
        apply List.ext_getElem?
        intro j
        simp only [List.getElem?_map, List.getElem?_modify]
        cases cp.flowRows[j]? with
        | none => rfl
        | some row => by_cases hj : r = j <;> simp [hj, hf]
      simp [hi, hrows]
    · simp [hi]

theorem others_setRow : (p.setRow ci r f).others = p.others := by
  apply List.ext_getElem?
  intro i
  simp only [PwProgram.others, PwProgram.setRow, List.getElem?_map, List.getElem?_modify]
  cases p.perCard[i]? with
  | none => rfl
  | some cp => by_cases hi : ci = i <;> simp [hi]

/-- The search sees the records, the cards and the slots. -/
theorem findTxRow_congr (hmeta : p.flowMeta = q.flowMeta) (hslots : p.slots = q.slots)
    (gid : BitVec 32) : findTxRow p gid = findTxRow q gid := by
  have hsearch : ∀ (p : PwProgram) (m : PwFlowMeta),
      (p.perCard.zipIdx.findSome? fun x =>
        if x.1.cardId == m.txCardId then
          (x.1.flowRows.findIdx? fun row => row.localFlowId == m.txLocalFlowId).map fun r =>
            (x.2, r)
        else none) =
      p.slots.zipIdx.findSome? fun x =>
        if x.1.1 == m.txCardId then
          (x.1.2.findIdx? fun lfid => lfid == m.txLocalFlowId).map fun r => (x.2, r)
        else none := by
    intro p m
    rw [PwProgram.slots, List.zipIdx_map, List.findSome?_map]
    simp only [Function.comp_def, Prod.map, List.findIdx?_map, id]
  simp only [findTxRow, hmeta, hsearch, hslots]

@[simp] theorem localFlowId_withRun (running : Bool) (row : PwfpgaFlowConfig) :
    (row.withRun running).localFlowId = row.localFlowId := rfl

@[simp] theorem withRun_withRun (running : Bool) (row : PwfpgaFlowConfig) :
    (row.withRun running).withRun running = row.withRun running := rfl

/-- What the staging of a run state has done after some of the flows. -/
structure RunStaged (p : PwProgram) (running : Bool) (done : List PwFlowMeta) (q : PwProgram) :
    Prop where
  metas : q.flowMeta = p.flowMeta
  slots : q.slots = p.slots
  others : q.others = p.others
  rows : ∀ ci r, q.rowView ci r =
    if ∃ m ∈ done, findTxRow p m.globalFlowId = some (ci, r) then
      (p.rowView ci r).map (.withRun running)
    else p.rowView ci r

theorem RunStaged.step {running : Bool} {done : List PwFlowMeta} (h : RunStaged p running done q)
    (m : PwFlowMeta) :
    RunStaged p running (done ++ [m])
      (match findTxRow q m.globalFlowId with
        | some (ci, r) => q.setRow ci r (.withRun running)
        | none => q) := by
  have hfind : findTxRow q m.globalFlowId = findTxRow p m.globalFlowId :=
    findTxRow_congr h.metas h.slots _
  rw [hfind]
  cases hm : findTxRow p m.globalFlowId with
  | none =>
    refine ⟨h.metas, h.slots, h.others, ?_⟩
    intro ci r
    rw [h.rows]
    have hiff : (∃ m' ∈ done ++ [m], findTxRow p m'.globalFlowId = some (ci, r)) ↔
        ∃ m' ∈ done, findTxRow p m'.globalFlowId = some (ci, r) := by
      simp [or_and_right, exists_or, hm]
    simp only [hiff]
  | some x =>
    obtain ⟨ci, r⟩ := x
    refine ⟨h.metas, ?_, ?_, ?_⟩
    · rw [slots_setRow (localFlowId_withRun running), h.slots]
    · rw [others_setRow, h.others]
    · intro ci' r'
      have hiff : (∃ m' ∈ done ++ [m], findTxRow p m'.globalFlowId = some (ci', r')) ↔
          (∃ m' ∈ done, findTxRow p m'.globalFlowId = some (ci', r')) ∨ ci = ci' ∧ r = r' := by
        simp [or_and_right, exists_or, hm]
      rw [rowView_setRow, h.rows]
      by_cases hhere : ci = ci' ∧ r = r'
      · rw [if_pos hhere, if_pos (hiff.mpr (Or.inr hhere))]
        split
        · rw [Option.map_map]
          rfl
        · rfl
      · rw [if_neg hhere]
        simp only [hiff, hhere, or_false]

/-- **Which rows the staging of a run state changes.** -/
theorem runStaged_stageFlowRunState (p : PwProgram) (running : Bool) :
    RunStaged p running p.flowMeta (stageFlowRunState p running) := by
  have hfold : ∀ (done rest : List PwFlowMeta) (q : PwProgram), RunStaged p running done q →
      RunStaged p running (done ++ rest) (rest.foldl (fun q m =>
        match findTxRow q m.globalFlowId with
        | some (ci, r) => q.setRow ci r (.withRun running)
        | none => q) q) := by
    intro done rest
    induction rest generalizing done with
    | nil =>
      intro q h
      rw [List.append_nil]
      exact h
    | cons m rest ih =>
      intro q h
      have hnext := ih (done ++ [m]) _ (h.step m)
      rwa [List.append_assoc] at hnext
  exact hfold [] p.flowMeta p ⟨rfl, rfl, rfl, by simp⟩

end Staging

/-! ## Compiled programs that are staged idle -/

section Idle

variable {cfg : PwConfig} {p : PwProgram}

/-- A row that sends is the row of a flow's record. -/
theorem sends_of_flows {mid : PwProgram} {l : List PwFlow}
    (h : l.foldlM (compileOneFlow cfg) (initProgram cfg) = .ok mid) {c : BitVec 16}
    {cp : PwCardProgram} (hc : cardSlot mid c = some cp) (i : ℕ) (row : PwfpgaFlowConfig)
    (hrow : cp.flowRows[i]? = some row) :
    row.txEnable = 0 ∨ ∃ m ∈ mid.flowMeta, m.txCardId = c ∧ m.txLocalFlowId.toNat = i := by
  refine foldlM_ok_invariant (P := fun q => ∀ c cp, cardSlot q c = some cp →
    ∀ (i : ℕ) (row : PwfpgaFlowConfig), cp.flowRows[i]? = some row →
      row.txEnable = 0 ∨ ∃ m ∈ q.flowMeta, m.txCardId = c ∧ m.txLocalFlowId.toNat = i)
    h ?_ ?_ c cp hc i row hrow
  · intro c cp hc
    obtain ⟨card, -, rfl⟩ := List.mem_map.mp (List.mem_of_find?_eq_some hc)
    simp
  · intro f _ q q' ih hstep c cp' hc i row hrow
    obtain ⟨P, hfits, hw, hmeta⟩ := compileOneFlow_spec hstep
    rw [hw.slot] at hc
    obtain ⟨cp, hcp, rfl⟩ := Option.map_eq_some_iff.mp hc
    have hold : ∀ (i : ℕ) (row : PwfpgaFlowConfig), cp.flowRows[i]? = some row →
        row.txEnable = 0 ∨ ∃ m ∈ q'.flowMeta, m.txCardId = c ∧ m.txLocalFlowId.toNat = i := by
      intro i row hrow
      refine (ih c cp hcp i row hrow).imp_right ?_
      rintro ⟨m, hm, hcard⟩
      exact ⟨m, by rw [hmeta]; exact List.mem_append_left _ hm, hcard⟩
    rcases P.delta_cases hfits hcp with ⟨-, -, hsame⟩ | ⟨new, hadd⟩
    · rw [hsame] at hrow
      exact hold i row hrow
    · rw [hadd.eq] at hrow
      by_cases hi : i < cp.flowRows.length
      · rw [List.getElem?_append_left hi] at hrow
        exact hold i row hrow
      · rw [List.getElem?_append_right (by omega), List.getElem?_singleton] at hrow
        split at hrow
        · obtain rfl := Option.some.inj hrow
          rcases hadd.row_eq with ⟨htx, -⟩ | ⟨-, -, -, hrx⟩
          · -- the transmit row, which the new record points at
            have hcard : P.txCp = cp := by
              have := P.txCp_eq
              rw [← htx, hcp] at this
              exact (Option.some.inj this).symm
            refine Or.inr ⟨P.flowMeta, by rw [hmeta]; simp, htx.symm, ?_⟩
            have hnat : P.flowMeta.txLocalFlowId.toNat = cp.flowRows.length := by
              rw [← hcard] at hadd ⊢
              exact toNat_ofNat_length hadd.free
            omega
          · rw [hrx]
            exact Or.inl rfl
        · cases hrow

theorem globalFlowIds_flows {mid : PwProgram} {l : List PwFlow}
    (h : l.foldlM (compileOneFlow cfg) (initProgram cfg) = .ok mid) :
    mid.flowMeta.map PwFlowMeta.globalFlowId = l.map PwFlow.id := by
  refine foldlM_ok_induction (P := fun pre q =>
    q.flowMeta.map PwFlowMeta.globalFlowId = pre.map PwFlow.id) h rfl ?_
  intro pre f post q q' _ ih hstep
  obtain ⟨P, -, -, hmeta⟩ := compileOneFlow_spec hstep
  rw [hmeta, List.map_append, List.map_append, ih]
  rfl

/-- The search finds the row that a record points at. -/
theorem findTxRow_of_compile (h : pwFlowCompile cfg = .ok p) {m : PwFlowMeta}
    (hm : m ∈ p.flowMeta) {ci i : ℕ} {cp : PwCardProgram} (hcp : p.perCard[ci]? = some cp)
    (hcard : m.txCardId = cp.cardId) (hslot : m.txLocalFlowId.toNat = i)
    (hi : i < cp.flowRows.length) : findTxRow p m.globalFlowId = some (ci, i) := by
  obtain ⟨S⟩ := pwFlowCompile_eq_ok_iff.mp h
  have hmeta : p.flowMeta = S.afterFlows.flowMeta := S.metas.trans S.rules.metas
  have hnodup : (p.flowMeta.map PwFlowMeta.globalFlowId).Nodup := by
    rw [hmeta, globalFlowIds_flows S.flows]
    exact List.pairwise_map.mpr S.valid.flows
  have hids : (p.perCard.map PwCardProgram.cardId).Nodup := by
    rw [S.cardIds]
    exact nodup_cardIds S.valid
  have hfind : (p.flowMeta.find? fun m' => m'.globalFlowId == m.globalFlowId) = some m :=
    (find?_eq_some_iff_mem hnodup).mpr ⟨hm, rfl⟩
  rw [findTxRow, hfind, Option.bind_some]
  have hlt : ci < p.perCard.length := (List.getElem?_eq_some_iff.mp hcp).1
  have hget : p.perCard[ci] = cp := (List.getElem?_eq_some_iff.mp hcp).2
  have hsplit : p.perCard = p.perCard.take ci ++ cp :: p.perCard.drop (ci + 1) := by
    rw [← hget, List.getElem_cons_drop, List.take_append_drop]
  rw [List.findSome?_eq_some_iff]
  refine ⟨(p.perCard.take ci).zipIdx, (cp, ci), (p.perCard.drop (ci + 1)).zipIdx (ci + 1),
    ?_, ?_, ?_⟩
  · conv_lhs => rw [hsplit]
    rw [List.zipIdx_append, List.zipIdx_cons, List.length_take_of_le hlt.le, Nat.zero_add]
  · -- rows are numbered, so the slot is found in its own place
    have hnumbered : ∀ (j : ℕ) (row : PwfpgaFlowConfig), cp.flowRows[j]? = some row →
        row.localFlowId.toNat = j := by
      obtain ⟨T⟩ := S.trace (List.mem_of_getElem? hcp)
      intro j row hrow
      rw [T.flowRows_eq] at hrow
      exact rowsNumbered_flows S.flows T.flows_eq j row hrow
    have hidx : (cp.flowRows.findIdx? fun row => row.localFlowId == m.txLocalFlowId) = some i := by
      rw [List.findIdx?_eq_some_iff_getElem]
      refine ⟨hi, ?_, ?_⟩
      · rw [beq_iff_eq]
        apply BitVec.eq_of_toNat_eq
        rw [hnumbered i _ (List.getElem?_eq_getElem hi), hslot]
      · intro j hj heq
        rw [beq_iff_eq] at heq
        have hnum := hnumbered j _ (List.getElem?_eq_getElem (by omega))
        rw [heq, hslot] at hnum
        omega
    rw [if_pos (by rw [hcard, beq_iff_eq]), hidx]
    rfl
  · intro x hx
    obtain ⟨j, hj, hxj⟩ := List.mem_iff_getElem.mp (List.fst_mem_of_mem_zipIdx hx)
    rw [if_neg]
    rw [beq_iff_eq, hcard, ← hxj, List.getElem_take]
    rw [List.length_take] at hj
    intro heq
    have hpair := List.pairwise_iff_getElem.mp hids j ci (by simp; omega) (by simpa using hlt)
      (by omega)
    rw [List.getElem_map, List.getElem_map, hget] at hpair
    exact hpair heq

/-- **No row of a compiled program that is staged idle sends.** -/
theorem idle_stageFlowRunState (h : pwFlowCompile cfg = .ok p) {cp : PwCardProgram}
    (hcp : cp ∈ (stageFlowRunState p false).perCard) {row : PwfpgaFlowConfig}
    (hrow : row ∈ cp.flowRows) : row.decoded.valid = false := by
  have hvalid : row.txEnable = 0 → row.decoded.valid = false := by
    intro h0
    simp [PwfpgaFlowConfig.decoded, h0]
  obtain ⟨ci, hci⟩ := List.mem_iff_getElem?.mp hcp
  obtain ⟨i, hi⟩ := List.mem_iff_getElem?.mp hrow
  have hview : (stageFlowRunState p false).rowView ci i = some row := by
    rw [PwProgram.rowView, hci, Option.bind_some, hi]
  have hstaged := (runStaged_stageFlowRunState p false).rows ci i
  rw [hview] at hstaged
  split at hstaged
  · obtain ⟨row', -, rfl⟩ := Option.map_eq_some_iff.mp hstaged.symm
    exact hvalid rfl
  · rename_i hnone
    -- a row that is not staged belongs to no record
    obtain ⟨cp', hcp', hrow'⟩ := Option.bind_eq_some_iff.mp hstaged.symm
    obtain ⟨S⟩ := pwFlowCompile_eq_ok_iff.mp h
    obtain ⟨T⟩ := S.trace (List.mem_of_getElem? hcp')
    have hlt : i < cp'.flowRows.length := (List.getElem?_eq_some_iff.mp hrow').1
    rw [T.flowRows_eq] at hrow'
    rcases sends_of_flows S.flows T.flows_eq i row hrow' with h0 | ⟨m, hm, hcard, hslot⟩
    · exact hvalid h0
    · have hmem : m ∈ p.flowMeta := by rwa [S.metas.trans S.rules.metas]
      exact absurd ⟨m, hmem, findTxRow_of_compile h hmem hcp' hcard hslot hlt⟩ hnone

end Idle

end PacketWyrm
