import PacketWyrm.FlowRequests

/-!
# The run state over a session

What the daemon reports of its flows, and what the cards do.

## Main results

* `flow_session_law` — in every session, each settled row of a card is the daemon's.
* `reply_tells_truth` — what a reply that reports success says holds, whatever failed before.
* `unfinished_write_commits` — a row that was not committed comes with the next commit.
-/

namespace PacketWyrm

open Lib CsrState

variable {lfw : ℕ}

/-! ## Which rows send -/

section Sends

/-- The flags of a compiled transmit row. -/
theorem flags_txRow (f : PwFlow) (egress : BitVec 8) (lfid : BitVec 32) (same : Bool) :
    (txRow f egress lfid same).enable = 1 ∧ (txRow f egress lfid same).txEnable = 1 := by
  simp only [txRow, PwfpgaFlowConfig.withModifiers, PwfpgaFlowConfig.withLengths_eq,
    PwfpgaFlowConfig.withInnerIp_eq, PwfpgaFlowConfig.withEncap_eq, and_self]

/-- What is decoded of the flags. -/
theorem valid_decoded (row : PwfpgaFlowConfig) :
    row.decoded.valid = (row.enable &&& row.txEnable).getLsbD 0 := rfl

/-- A row sends if it is enabled to. -/
def PwfpgaFlowConfig.FlagsAgree (row : PwfpgaFlowConfig) : Prop :=
  (row.enable &&& row.txEnable).getLsbD 0 = (row.txEnable != 0)

theorem flagsAgree_withRun (running : Bool) (row : PwfpgaFlowConfig) :
    (row.withRun running).FlagsAgree := by
  have hflags : (flagByte running &&& flagByte running).getLsbD 0 = (flagByte running != 0) := by
    cases running <;> decide
  exact hflags

theorem flagsAgree_flows {cfg : PwConfig} {mid : PwProgram} {l : List PwFlow}
    (h : l.foldlM (compileOneFlow cfg) (initProgram cfg) = .ok mid) {c : BitVec 16}
    {cp : PwCardProgram} (hc : cardSlot mid c = some cp) :
    ∀ row ∈ cp.flowRows, row.FlagsAgree := by
  refine foldlM_ok_invariant (P := fun q => ∀ c cp, cardSlot q c = some cp →
    ∀ row ∈ cp.flowRows, row.FlagsAgree) h ?_ ?_ c cp hc
  · intro c cp hc
    obtain ⟨card, -, rfl⟩ := List.mem_map.mp (List.mem_of_find?_eq_some hc)
    simp
  · intro f _ q q' ih hstep c cp' hc row hrow
    obtain ⟨P, hfits, hw, -⟩ := compileOneFlow_spec hstep
    rw [hw.slot] at hc
    obtain ⟨cp, hcp, rfl⟩ := Option.map_eq_some_iff.mp hc
    rcases P.delta_cases hfits hcp with ⟨-, -, hsame⟩ | ⟨new, hadd⟩
    · rw [hsame] at hrow
      exact ih c cp hcp row hrow
    · rw [hadd.eq, List.mem_append, List.mem_singleton] at hrow
      rcases hrow with hold | rfl
      · exact ih c cp hcp row hold
      · rw [PwfpgaFlowConfig.FlagsAgree]
        rcases hadd.row_eq with ⟨-, heq⟩ | ⟨-, -, -, heq⟩
        · obtain ⟨hen, htx⟩ := flags_txRow f P.tx.localPortId P.txLfid P.sameCard
          rw [heq, hen, htx]
          decide
        · rw [heq, rxRow]
          simp

/-- What is reported of the flow of a row. -/
theorem flowEnabled_of_findTxRow {p : PwProgram} {gid : BitVec 32} {ci r : ℕ}
    {row : PwfpgaFlowConfig} (hfind : findTxRow p gid = some (ci, r))
    (hrow : p.rowView ci r = some row) : flowEnabled p gid = (row.txEnable != 0) := by
  rw [flowEnabled, hfind]
  dsimp only
  rw [hrow, Option.getD_some]

theorem OwnProgram.flagsAgree {d : PwDaemon lfw} (h : OwnProgram d) {ci r : ℕ}
    {row : PwfpgaFlowConfig} (hrow : d.prog.rowView ci r = some row) : row.FlagsAgree := by
  obtain ⟨compiled, hcompile, hrun⟩ := h
  rcases hrun.rows ci r with heq | ⟨-, running, heq⟩
  · rw [heq, PwProgram.rowView, Option.bind_eq_some_iff] at hrow
    obtain ⟨cp, hcp, hrow⟩ := hrow
    obtain ⟨S⟩ := pwFlowCompile_eq_ok_iff.mp hcompile
    obtain ⟨T⟩ := S.trace (List.mem_of_getElem? hcp)
    rw [T.flowRows_eq] at hrow
    exact flagsAgree_flows S.flows T.flows_eq row (List.mem_of_getElem? hrow)
  · rw [hrow] at heq
    obtain ⟨row', -, rfl⟩ := Option.map_eq_some_iff.mp heq.symm
    exact flagsAgree_withRun running row'

/-- **The rows that send are those of the flows that are reported as enabled.** -/
theorem OwnProgram.sends_iff {d : PwDaemon lfw} (h : OwnProgram d) (ci r : ℕ) :
    ((d.prog.rowView ci r).getD {}).decoded.valid = true ↔
      ∃ gid, findTxRow d.prog gid = some (ci, r) ∧ flowEnabled d.prog gid = true := by
  constructor
  · intro hvalid
    cases hrow : d.prog.rowView ci r with
    | none =>
      rw [hrow] at hvalid
      cases hvalid
    | some row =>
      rw [hrow, Option.getD_some] at hvalid
      have hflags := h.flagsAgree hrow
      obtain ⟨compiled, hcompile, hrun⟩ := h
      have htx : ∃ m ∈ compiled.flowMeta, findTxRow compiled m.globalFlowId = some (ci, r) := by
        by_contra hnone
        -- then it is a row that also an idle program has
        have hstaged := (runStaged_stageFlowRunState compiled false).rows ci r
        rw [if_neg hnone, ← (hrun.rows ci r).resolve_right fun h => hnone h.1, hrow,
          PwProgram.rowView, Option.bind_eq_some_iff] at hstaged
        obtain ⟨cp, hcp, hget⟩ := hstaged
        rw [idle_stageFlowRunState hcompile (List.mem_of_getElem? hcp)
          (List.mem_of_getElem? hget)] at hvalid
        cases hvalid
      obtain ⟨m, -, hfind⟩ := htx
      rw [← findTxRow_congr hrun.metas hrun.slots] at hfind
      refine ⟨m.globalFlowId, hfind, ?_⟩
      rw [flowEnabled_of_findTxRow hfind hrow, ← hflags, ← valid_decoded]
      exact hvalid
  · rintro ⟨gid, hfind, henabled⟩
    obtain ⟨-, -, row, hrow⟩ := exists_of_findTxRow hfind
    rw [flowEnabled_of_findTxRow hfind hrow] at henabled
    rw [hrow, Option.getD_some, valid_decoded, h.flagsAgree hrow]
    exact henabled

end Sends

/-! ## The law of a session -/

/-- What holds after a session. -/
structure SessionLaw (env : LoadEnv) (d : PwDaemon lfw) (log : List Attempt) : Prop where
  /-- The daemon has the program of its configuration, but for the run state of its flows. -/
  program : ∃ compiled, pwFlowCompile d.cfg = .ok compiled ∧ RunOf compiled d.prog
  /-- A settled row of an open card is the daemon's row. -/
  rows : ∀ ci r, env.isOpen ci = true → ci < d.prog.perCard.length → r < env.depth →
    settled log ci r = true → (d.cards ci).rows r = ((d.prog.rowView ci r).getD {}).decoded
  /-- So it sends exactly if it is the row of a flow that is reported as enabled. -/
  sends : ∀ ci r, env.isOpen ci = true → ci < d.prog.perCard.length → r < env.depth →
    settled log ci r = true →
      (((d.cards ci).rows r).valid = true ↔
        ∃ gid, findTxRow d.prog gid = some (ci, r) ∧ flowEnabled d.prog gid = true)

theorem SessionLaw.of_inStep {env : LoadEnv} {d : PwDaemon lfw} {log : List Attempt}
    (hown : OwnProgram d) (hstep : InStep env d (settled log)) : SessionLaw env d log where
  program := hown
  rows ci r hopen hci hr hb := (hstep ci r hopen hci hr hb).rows
  sends ci r hopen hci hr hb := by
    rw [(hstep ci r hopen hci hr hb).rows]
    exact hown.sends_iff ci r

/-- **What the daemon reports is what the cards do**, for every session of requests with any
faults: on each row whose last attempt went well. -/
theorem flow_session_law (lfw : ℕ) (parse : String → Except PwFailure PwConfig) {env : LoadEnv}
    (hdepth : env.depth ≤ flowTableRows) (faults : ℕ → Faults) {cfg : PwConfig} {p : PwProgram}
    (hcompile : pwFlowCompile cfg = .ok p) (autostart : Bool)
    (l : List (FlowRequest × RequestFaults)) :
    SessionLaw env (sessionOf lfw parse env faults cfg p autostart l).1
      (sessionOf lfw parse env faults cfg p autostart l).2 := by
  have hown : OwnProgram (startSession lfw env faults cfg p autostart).1 := by
    refine ⟨p, hcompile, ?_⟩
    cases autostart with
    | true => exact .refl p
    | false => exact .stageFlowRunState p false
  have hstart : InStep env (startSession lfw env faults cfg p autostart).1
      (settled (startSession lfw env faults cfg p autostart).2) :=
    inStep_stage hdepth faults (fun _ => .reset) rfl fun _ _ => false
  refine .of_inStep (hown.run l) ?_
  intro ci r hopen hci hr hb
  rw [sessionOf, settled, settledFrom_append] at hb
  exact hstart.run hdepth l ci r hopen hci hr hb

/-! ## What a reply says -/

section Replies

variable {parse : String → Except PwFailure PwConfig} {env : LoadEnv} {d : PwDaemon lfw}
  {gid gid' : BitVec 32} {on : Bool} {faults : Faults}

/-- The flow is started or stopped, in the daemon's view and on its card. -/
def FlowIs (env : LoadEnv) (d : PwDaemon lfw) (gid : BitVec 32) (on : Bool) : Prop :=
  flowEnabled d.prog gid = on ∧ ∃ ci r, ∃ row : PwfpgaFlowConfig,
    findTxRow d.prog gid = some (ci, r) ∧ env.isOpen ci = true ∧
    d.prog.rowView ci r = some (row.withRun on) ∧
    (r < env.depth → RowHeld (row.withRun on) (d.cards ci) r ∧ ((d.cards ci).rows r).valid = on)

theorem txEnable_withRun (on : Bool) (row : PwfpgaFlowConfig) :
    ((row.withRun on).txEnable != 0) = on := by
  have hbyte : (flagByte on != 0) = on := by cases on <;> decide
  exact hbyte

theorem RowHeld.valid {c : CardState lfw} {r : ℕ} {row : PwfpgaFlowConfig}
    (h : RowHeld (row.withRun on) c r) : (c.rows r).valid = on := by
  rw [h.rows, valid_decoded, flagsAgree_withRun on row, txEnable_withRun]

/-- From the row alone. -/
theorem FlowIs.of_row {ci r : ℕ} (row : PwfpgaFlowConfig)
    (hfind : findTxRow d.prog gid = some (ci, r)) (hopen : env.isOpen ci = true)
    (hrow : d.prog.rowView ci r = some (row.withRun on))
    (hheld : r < env.depth → RowHeld (row.withRun on) (d.cards ci) r) : FlowIs env d gid on := by
  refine ⟨?_, ci, r, row, hfind, hopen, hrow, fun hr => ⟨hheld hr, (hheld hr).valid⟩⟩
  rw [flowEnabled_of_findTxRow hfind hrow, txEnable_withRun]

/-- A search is not changed by a run state. -/
theorem findTxRow_setRow {p : PwProgram} {ci r : ℕ} (running : Bool) (gid : BitVec 32) :
    findTxRow (p.setRow ci r (.withRun running)) gid = findTxRow p gid :=
  findTxRow_congr (p := p.setRow ci r (.withRun running)) (q := p) rfl
    (slots_setRow (localFlowId_withRun running)) gid

/-- The same for a further flow leaves the first one so. -/
theorem FlowIs.after (h : FlowIs env d gid on)
    (hok : (setFlow env d faults gid' on).2.1 = none) :
    FlowIs env (setFlow env d faults gid' on).1 gid on := by
  obtain ⟨-, ci, r, row, hfind, hopen, hrow, hheld⟩ := h
  have hci := (exists_of_findTxRow hfind).2.1
  have hview : (setFlow env d faults gid' on).1.prog.rowView ci r = some (row.withRun on) ∧
      findTxRow (setFlow env d faults gid' on).1.prog gid = some (ci, r) ∧
      settledFrom true (setFlow env d faults gid' on).2.2 ci r = true ∧
      (setFlow env d faults gid' on).1.prog.perCard.length = d.prog.perCard.length := by
    rcases setFlow_cases env d faults gid' on with
      ⟨e, heq⟩ | ⟨ci', r', row', -, -, hrow', ⟨e, ws, -, heq⟩ | heq⟩
    · rw [heq] at hok
      cases hok
    · rw [heq] at hok
      cases hok
    · rw [heq]
      refine ⟨?_, (findTxRow_setRow on gid).trans hfind, ?_, length_perCard_setRow _ _ _ _⟩
      · dsimp only
        rw [rowView_setRow, hrow]
        split <;> rfl
      · rw [settledFrom_cons, settledFrom_nil, Attempt.ok, ite_self]
  obtain ⟨hrow', hfind', hsettled, hlen⟩ := hview
  refine .of_row row hfind' hopen hrow' ?_
  intro hr
  have hstep : InStep env d fun ci' r' => decide (ci' = ci ∧ r' = r) := by
    intro ci' r' _ _ _ hb
    obtain ⟨rfl, rfl⟩ := of_decide_eq_true hb
    rw [hrow, Option.getD_some]
    exact (hheld hr).1
  have hnext := hstep.setFlow faults gid' on ci r hopen (by rw [hlen]; exact hci) hr
    (by simpa using hsettled)
  rwa [hrow', Option.getD_some] at hnext

/-- The counters do not touch what is reported. -/
theorem FlowIs.clearStats (hdepth : env.depth ≤ flowTableRows) (h : FlowIs env d gid on)
    (clear : ℕ → Option PwStatus) : FlowIs env (clearStats env d clear) gid on := by
  obtain ⟨-, ci, r, row, hfind, hopen, hrow, hheld⟩ := h
  refine .of_row row hfind hopen hrow ?_
  intro hr
  have hstep : InStep env d fun ci' r' => decide (ci' = ci ∧ r' = r) := by
    intro ci' r' _ _ _ hb
    obtain ⟨rfl, rfl⟩ := of_decide_eq_true hb
    rw [hrow, Option.getD_some]
    exact (hheld hr).1
  have hnext := hstep.clearStats hdepth clear ci r hopen (exists_of_findTxRow hfind).2.1 hr
    (by simp)
  have hview : (PacketWyrm.clearStats env d clear).prog.rowView ci r = some (row.withRun on) := hrow
  rwa [hview, Option.getD_some] at hnext

end Replies

section Unfinished

variable {env : LoadEnv} {d : PwDaemon lfw} {gid gid' : BitVec 32} {faults faults' : Faults}
  {ci r r' : ℕ} {row : PwfpgaFlowConfig}

/-- Only the commit fails: the words are staged, and the daemon keeps its row. -/
theorem setFlow_of_commit_fault (hfind : findTxRow d.prog gid = some (ci, r))
    (hopen : env.isOpen ci = true) (hrow : d.prog.rowView ci r = some row) (on : Bool)
    (hwords : ∀ j < 61, faults j = none) {e : PwStatus} (hcommit : faults 61 = some e) :
    setFlow env d faults gid on =
      (d.onCard env ci (barFlowWrite r (row.withRun on)), some e, [.row ci r false]) := by
  have hlen : (barFlowWrite r (row.withRun on)).length = 61 := by
    rw [barFlowWrite, List.length_map, List.length_range]
  have hnone : ∀ x ∈ (barFlowWrite r (row.withRun on)).zipIdx, faults x.2 = none := by
    intro x hx
    have hlt := List.snd_lt_of_mem_zipIdx hx
    exact hwords x.2 (by omega)
  have hfirst : firstFault faults (barFlowWrite r (row.withRun on)) = none :=
    List.findSome?_eq_none_iff.mpr hnone
  have hlast : (barFlowWrite r (row.withRun on) ++ barFlowCommit).zipIdx =
      (barFlowWrite r (row.withRun on)).zipIdx ++ [(⟨winFlowTable + 0x3FFC, 1⟩, 61)] := by
    rw [List.zipIdx_append, hlen]
    rfl
  have hall : firstFault faults (barFlowWrite r (row.withRun on) ++ barFlowCommit) = some e := by
    rw [firstFault, hlast, List.findSome?_append, ← firstFault, hfirst, Option.none_or]
    simp [hcommit]
  have hdone : performed faults (barFlowWrite r (row.withRun on) ++ barFlowCommit) =
      barFlowWrite r (row.withRun on) := by
    have hwritten := performed_of_firstFault hfirst
    rw [performed] at hwritten ⊢
    rw [hlast, List.filter_append, List.map_append, hwritten]
    simp [hcommit]
  rw [setFlow, setFlowEnable, hfind]
  dsimp only
  rw [hopen, hrow, Option.getD_some, hfirst]
  simp only [Bool.not_true, Bool.false_eq_true, if_false, Option.isSome_none, hall, hdone]
  rfl

/-- **A row that was not committed comes with the next commit**: the request fails and the card goes
on as before; the next request for another flow of the card makes the change, while the daemon
reports what it did. -/
theorem unfinished_write_commits (hfind : findTxRow d.prog gid = some (ci, r))
    (hfind' : findTxRow d.prog gid' = some (ci, r')) (hne : r ≠ r') (hopen : env.isOpen ci = true)
    (hr : r < env.depth) (on on' : Bool) (hwords : ∀ j < 61, faults j = none) {e : PwStatus}
    (hcommit : faults 61 = some e)
    (hok : (setFlow env (setFlow env d faults gid on).1 faults' gid' on').2.1 = none) :
    (setFlow env d faults gid on).2.1 = some e ∧
    (((setFlow env d faults gid on).1.cards ci).rows = (d.cards ci).rows) ∧
    ((((setFlow env (setFlow env d faults gid on).1 faults' gid' on').1.cards ci).rows r).valid =
      on) ∧
    flowEnabled (setFlow env (setFlow env d faults gid on).1 faults' gid' on').1.prog gid =
      flowEnabled d.prog gid := by
  obtain ⟨-, -, row, hrow⟩ := exists_of_findTxRow hfind
  have hfirst := setFlow_of_commit_fault hfind hopen hrow on hwords hcommit
  rw [hfirst] at hok ⊢
  dsimp only at hok ⊢
  refine ⟨rfl, ?_, ?_⟩
  · rw [PwDaemon.onCard]
    dsimp only
    rw [Function.update_self]
    apply CardState.rows_run_of_not_isCommit
    intro w hw
    obtain ⟨j, hj, rfl⟩ := List.mem_map.mp hw
    have haddr : ¬winFlowTable + r * 256 + 4 * j = winFlowTable + 0x3FFC := by
      rw [List.mem_range] at hj
      omega
    simp [CsrWrite.isCommit, haddr]
  · rcases setFlow_cases env (d.onCard env ci (barFlowWrite r (row.withRun on))) faults' gid' on'
      with
      ⟨e', heq⟩ | ⟨ci₁, r₁, row', hfind₁, -, hrow', ⟨e', ws, -, heq⟩ | heq⟩
    · rw [heq] at hok
      cases hok
    · rw [heq] at hok
      cases hok
    · obtain ⟨rfl, rfl⟩ := Prod.mk.inj (Option.some.inj (hfind₁.symm.trans hfind'))
      rw [heq]
      refine ⟨?_, ?_⟩
      · have hheld : RowHeld (row.withRun on)
            (((d.onCard env ci₁ (barFlowWrite r (row.withRun on))).onCard env ci₁
              (barFlowWrite r₁ (row'.withRun on') ++ barFlowCommit)).cards ci₁) r := by
          simp only [PwDaemon.onCard, Function.update_self]
          rw [CardState.run_append]
          apply RowHeld.of_commit hr
          intro j hj
          rw [staged_run_of_ne _ j hj, staged_run_barFlowWrite _ _ hr hj]
          intro w hw _
          exact wword_barFlowWrite_ne hne (List.mem_append_left _ hw)
        exact hheld.valid
      · have hview : (d.prog.setRow ci₁ r₁ (.withRun on')).rowView ci₁ r = some row := by
          rw [rowView_setRow, if_neg fun h => hne h.2.symm, hrow]
        rw [flowEnabled_of_findTxRow hfind hrow]
        exact flowEnabled_of_findTxRow ((findTxRow_setRow on' gid).trans hfind) hview

end Unfinished

/-! ## Two flows on one card -/

/-- The commit of the first flow's row fails. -/
def sampleCommitFault : Faults := fun j => if j = 61 then some .io else none

/-- Both flows are started, and then the second one is to stop. -/
def sampleRequests : List (FlowRequest × RequestFaults) :=
  [(.testSet true, {}), (.flowSet false (some 2), { enable := fun _ => sampleCommitFault })]

/-- The daemon after the start of both flows. -/
def sampleStarted : PwDaemon 5 :=
  (sessionOf 5 (fun _ => .ok {}) sampleLoadEnv (fun _ _ => none) sampleHeaderConfig
    (samplePrograms sampleHeaderConfig) false [(.testSet true, {})]).1

theorem flow_session_law_sample :
    SessionLaw sampleLoadEnv
      (sessionOf 5 (fun _ => .ok {}) sampleLoadEnv (fun _ _ => none) sampleHeaderConfig
        (samplePrograms sampleHeaderConfig) false sampleRequests).1
      (sessionOf 5 (fun _ => .ok {}) sampleLoadEnv (fun _ _ => none) sampleHeaderConfig
        (samplePrograms sampleHeaderConfig) false sampleRequests).2 ∧
    ((List.range 2).map fun r => settled
      (sessionOf 5 (fun _ => .ok {}) sampleLoadEnv (fun _ _ => none) sampleHeaderConfig
        (samplePrograms sampleHeaderConfig) false sampleRequests).2 0 r) = [true, false] :=
  ⟨flow_session_law 5 _ (by decide) _ (compile_samplePrograms (by decide +kernel)) _ _,
    by decide +kernel⟩

theorem unfinished_write_commits_sample :
    (((setFlow sampleLoadEnv (setFlow sampleLoadEnv sampleStarted sampleCommitFault 1 false).1
      (fun _ => none) 2 true).1.cards 0).rows 0).valid = false ∧
    flowEnabled (setFlow sampleLoadEnv (setFlow sampleLoadEnv sampleStarted sampleCommitFault 1
      false).1 (fun _ => none) 2 true).1.prog 1 = true := by
  have hfind : findTxRow sampleStarted.prog 1 = some (0, 0) := by decide +kernel
  have hfind' : findTxRow sampleStarted.prog 2 = some (0, 1) := by decide +kernel
  have hwords : ∀ j < 61, sampleCommitFault j = none := by decide
  have hok : (setFlow sampleLoadEnv (setFlow sampleLoadEnv sampleStarted sampleCommitFault 1
      false).1 (fun _ => none) 2 true).2.1 = none := by decide +kernel
  obtain ⟨-, -, hvalid, henabled⟩ := unfinished_write_commits hfind hfind' (by decide)
    (by decide) (by decide) false true hwords (e := .io) (by decide) hok
  refine ⟨hvalid, henabled.trans ?_⟩
  decide +kernel

end PacketWyrm
