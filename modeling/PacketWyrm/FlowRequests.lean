import PacketWyrm.ConfigLoad

/-!
# Sessions of control requests

What the daemon says of a flow and what its card does.  The requests that change what the
flows do come one after the other, each with faults of its own: they write single rows of the
flow table, each followed by a commit of the whole table, or they stage all of a program.

A commit takes every staged word, also those that an earlier request left behind when it
failed; so the daemon keeps no promise for such a row until it is written again.

## Main definitions

* `handleFlowRequest` — `flow.start`, `flow.stop`, `test.start`, `test.stop`, `test.arm`,
  `stats.clear` and `config.load`, with what was tried on the cards.
* `runRequests` — a session.
* `settled` — the last attempt on a row went well.

## Main results

* `setFlow_cases` — what the start or the stop of a flow may do.
* `InStep.run` — the settled rows of the open cards stay the daemon's.
* `OwnProgram.run` — the daemon stays with the program of its configuration.
-/

namespace PacketWyrm

open Lib CsrState

variable {lfw : ℕ}

/-! ## Requests -/

/-- `flow_enabled`: what is reported of a flow. -/
def flowEnabled (p : PwProgram) (globalFlowId : BitVec 32) : Bool :=
  match findTxRow p globalFlowId with
  | none => false
  | some (ci, r) => ((p.rowView ci r).getD {}).txEnable != 0

/-- `flow.start` and `flow.stop`, which may lack the id; `test.start` and `test.stop`; and the
others. -/
inductive FlowRequest where
  | flowSet (start : Bool) (id : Option (BitVec 32))
  | testSet (start : Bool)
  | testArm
  | statsClear
  | configLoad (yaml : Option String)

/-- What a client gets back. -/
inductive FlowReply where
  | error (message : String)
  | flow (id : BitVec 32) (enable : Bool) (status : String)
  | counted (action : String) (changed failed : ℕ) (programmed : Option Bool)
  | load (reply : LoadReply)
  deriving DecidableEq

/-- The faults of the writes of a request: also for each flow that is started or stopped, and
for each card whose counters are cleared. -/
structure RequestFaults extends LoadFaults where
  enable : ℕ → Faults := fun _ _ => none
  clear : ℕ → Option PwStatus := fun _ => none

/-- What was tried on the cards: the write of a row, or the staging of a card. -/
inductive Attempt where
  | row (ci r : ℕ) (ok : Bool)
  | card (ci : ℕ) (ok : Bool)
  deriving DecidableEq

/-- The attempt is about a row. -/
def Attempt.touches : Attempt → ℕ → ℕ → Bool
  | row ci r _, ci', r' => ci == ci' && r == r'
  | card ci _, ci', _ => ci == ci'

/-- The attempt went well. -/
def Attempt.ok : Attempt → Bool
  | row _ _ ok => ok
  | card _ ok => ok

/-- The outcome of the last attempt on a row, or `b` if there was none. -/
def settledFrom (b : Bool) (log : List Attempt) (ci r : ℕ) : Bool :=
  log.foldl (fun b a => if a.touches ci r then a.ok else b) b

/-- The last attempt on a row went well. -/
def settled (log : List Attempt) (ci r : ℕ) : Bool := settledFrom false log ci r

/-- `PWFPGA_REG_STATS_CLEAR`. -/
def regStatsClear : ℕ := 0xFFF8

/-- `pw_strerror` of a status that may be `PW_OK`. -/
def strerror : Option PwStatus → String
  | none => "ok"
  | some e => e.strerror

section Handlers

variable (env : LoadEnv) (d : PwDaemon lfw)

/-- One flow is started or stopped for good. -/
def setFlow (faults : Faults) (globalFlowId : BitVec 32) (enable : Bool) :
    PwDaemon lfw × Option PwStatus × List Attempt :=
  let x := setFlowEnable env.depth env.isOpen faults d.prog d.cards globalFlowId enable true
  ({ d with prog := x.1, cards := x.2.1 }, x.2.2,
    match findTxRow d.prog globalFlowId with
    | some (ci, r) => if env.isOpen ci then [.row ci r x.2.2.isNone] else []
    | none => [])

/-- Every flow is started or stopped for good, whatever happens to the others. -/
def setFlows (faults : ℕ → Faults) (enable : Bool) :
    List (PwFlowMeta × ℕ) → PwDaemon lfw → PwDaemon lfw × List (Option PwStatus) × List Attempt
  | [], d => (d, [], [])
  | x :: l, d =>
    let y := setFlow env d (faults x.2) x.1.globalFlowId enable
    let z := setFlows faults enable l y.1
    (z.1, y.2.1 :: z.2.1, y.2.2 ++ z.2.2)

/-- The counters of the cards are cleared. -/
def clearStats (clear : ℕ → Option PwStatus) : PwDaemon lfw :=
  { d with
    cards := fun ci =>
      if decide (ci < d.cfg.cards.length) && env.isOpen ci && (clear ci).isNone then
        (d.cards ci).write env.depth ⟨regStatsClear, 1⟩
      else d.cards ci }

/-- How many cards were cleared. -/
def clearedCards (clear : ℕ → Option PwStatus) : ℕ :=
  (List.range d.cfg.cards.length).countP fun ci => env.isOpen ci && (clear ci).isNone

/-- How many were not. -/
def unclearedCards (clear : ℕ → Option PwStatus) : ℕ :=
  (List.range d.cfg.cards.length).countP fun ci => env.isOpen ci && (clear ci).isSome

/-- The attempts of a staging. -/
def stageLog (faults : ℕ → Faults) (prog : PwProgram) (cards : ℕ → CardState lfw) : List Attempt :=
  prog.perCard.zipIdx.filterMap fun x =>
    if env.isOpen x.2 then
      some (.card x.2 (stageCard env.depth (faults x.2) x.1 (cards x.2)).2.isNone)
    else none

variable (parse : String → Except PwFailure PwConfig)

/-- The attempts of a load.  The writes that stop the flows are left out, since a staging of
every card comes after them. -/
def loadLog (faults : LoadFaults) (yaml : Option String) : List Attempt :=
  match prepareLoad parse d yaml with
  | .error _ => []
  | .ok (_, _, newProg) =>
    let new := stageLog env faults.stage newProg (quiesce env faults d)
    match (stageNew env faults d newProg).2 with
    | some _ => new ++ stageLog env faults.rollback d.prog (stageNew env faults d newProg).1
    | none => new

/-- The part of `handle_client` that serves these requests. -/
def handleFlowRequest (faults : RequestFaults) :
    FlowRequest → PwDaemon lfw × FlowReply × List Attempt
  | .flowSet _ none => (d, .error "missing id", [])
  | .flowSet start (some id) =>
    let x := setFlow env d (faults.enable 0) id start
    (x.1, .flow id start (strerror x.2.1), x.2.2)
  | .testSet start =>
    let x := setFlows env faults.enable start d.prog.flowMeta.zipIdx d
    let changed := x.2.1.countP Option.isNone
    let failed := x.2.1.countP Option.isSome
    (if start && failed == 0 then clearStats env x.1 faults.clear else x.1,
      .counted (if start then "test.start" else "test.stop") changed failed none, x.2.2)
  | .testArm =>
    let x := programBackendsDiag env faults.stage d.prog d.cards
    let d' := { d with cards := x.1 }
    let log := stageLog env faults.stage d.prog d.cards
    match x.2 with
    | some _ => (d', .counted "test.arm" 0 1 (some false), log)
    | none =>
      (clearStats env d' faults.clear,
        .counted "test.arm" (clearedCards env d' faults.clear) (unclearedCards env d' faults.clear)
          (some true), log)
  | .statsClear =>
    (clearStats env d faults.clear,
      .counted "stats.clear" (clearedCards env d faults.clear) (unclearedCards env d faults.clear)
        none, [])
  | .configLoad yaml =>
    let x := doConfigLoad parse env faults.toLoadFaults d yaml
    (x.1, .load x.2, loadLog env d parse faults.toLoadFaults yaml)

end Handlers

/-- A session: requests one after the other. -/
def runRequests (parse : String → Except PwFailure PwConfig) (env : LoadEnv) :
    PwDaemon lfw → List (FlowRequest × RequestFaults) → PwDaemon lfw × List Attempt
  | d, [] => (d, [])
  | d, x :: l =>
    let y := handleFlowRequest env d parse x.2 x.1
    let z := runRequests parse env y.1 l
    (z.1, y.2.2 ++ z.2)

/-- The start of the daemon: the flows are idle unless it is told to send at once. -/
def startSession (lfw : ℕ) (env : LoadEnv) (faults : ℕ → Faults) (cfg : PwConfig) (p : PwProgram)
    (autostart : Bool) : PwDaemon lfw × List Attempt :=
  let prog := if autostart then p else stageFlowRunState p false
  ({ cfg, prog, cards := (programBackendsDiag env faults prog fun _ => .reset).1 },
    stageLog env faults prog fun _ => (.reset : CardState lfw))

/-- The daemon after its start and a session. -/
def sessionOf (lfw : ℕ) (parse : String → Except PwFailure PwConfig) (env : LoadEnv)
    (faults : ℕ → Faults) (cfg : PwConfig) (p : PwProgram) (autostart : Bool)
    (l : List (FlowRequest × RequestFaults)) : PwDaemon lfw × List Attempt :=
  let s := startSession lfw env faults cfg p autostart
  let z := runRequests parse env s.1 l
  (z.1, s.2 ++ z.2)

@[simp] theorem settledFrom_nil (b : Bool) (ci r : ℕ) : settledFrom b [] ci r = b := rfl

@[simp] theorem settledFrom_cons (b : Bool) (a : Attempt) (log : List Attempt) (ci r : ℕ) :
    settledFrom b (a :: log) ci r =
      settledFrom (if a.touches ci r then a.ok else b) log ci r := rfl

theorem settledFrom_append (b : Bool) (log log' : List Attempt) (ci r : ℕ) :
    settledFrom b (log ++ log') ci r = settledFrom (settledFrom b log ci r) log' ci r :=
  List.foldl_append

/-! ## Rows on a card -/

/-- The row is staged and in the table. -/
structure RowHeld (row : PwfpgaFlowConfig) (c : CardState lfw) (r : ℕ) : Prop where
  staged : ∀ j < 61, c.staged (64 * r + j) = row.word j
  rows : c.rows r = row.decoded

section Rows

variable {depth : ℕ} {row : PwfpgaFlowConfig} {c : CardState lfw} {r : ℕ}

/-- The staged words of a row stay when others are staged. -/
theorem staged_write_of_ne {w : CsrWrite}
    (hw : w.isRow depth = true → ∀ j < 61, w.wword ≠ 64 * r + j) :
    ∀ j < 61, c.stage depth w (64 * r + j) = c.staged (64 * r + j) := by
  intro j hj
  rw [CardState.stage]
  split
  · rename_i hrow
    exact Function.update_of_ne (Ne.symm (hw hrow j hj)) _ _
  · rfl

theorem staged_run_of_ne {ws : List CsrWrite}
    (hws : ∀ w ∈ ws, w.isRow depth = true → ∀ j < 61, w.wword ≠ 64 * r + j) :
    ∀ j < 61, (c.run depth ws).staged (64 * r + j) = c.staged (64 * r + j) := by
  induction ws generalizing c with
  | nil => exact fun _ _ => rfl
  | cons w ws ih =>
    intro j hj
    rw [CardState.run_cons, ih (fun w' hw' => hws w' (List.mem_cons_of_mem _ hw')) j hj]
    exact staged_write_of_ne (hws w List.mem_cons_self) j hj

/-- A write elsewhere, or a commit. -/
theorem RowHeld.write (h : RowHeld row c r) {w : CsrWrite}
    (hw : w.isRow depth = true → ∀ j < 61, w.wword ≠ 64 * r + j) :
    RowHeld row (c.write depth w) r := by
  have hstaged : ∀ j < 61, c.stage depth w (64 * r + j) = row.word j :=
    fun j hj => (staged_write_of_ne hw j hj).trans (h.staged j hj)
  refine ⟨hstaged, ?_⟩
  rw [CardState.write]
  dsimp only
  split
  · exact decodeAt_eq hstaged
  · exact h.rows

theorem RowHeld.run (h : RowHeld row c r) {ws : List CsrWrite}
    (hws : ∀ w ∈ ws, w.isRow depth = true → ∀ j < 61, w.wword ≠ 64 * r + j) :
    RowHeld row (c.run depth ws) r := by
  induction ws generalizing c with
  | nil => exact h
  | cons w ws ih =>
    exact ih (h.write (hws w List.mem_cons_self)) fun w' hw' => hws w' (List.mem_cons_of_mem _ hw')

/-- The words of another row, and the commit. -/
theorem wword_barFlowWrite_ne {r' : ℕ} (hne : r ≠ r') {tmp : PwfpgaFlowConfig} {w : CsrWrite}
    (hw : w ∈ barFlowWrite r' tmp ++ barFlowCommit) : ∀ j < 61, w.wword ≠ 64 * r + j := by
  intro j hj
  rw [CsrWrite.wword]
  simp only [barFlowWrite, barFlowCommit, List.mem_append, List.mem_map, List.mem_range,
    List.mem_singleton] at hw
  rcases hw with ⟨j', hj', rfl⟩ | rfl
  · dsimp only
    omega
  · dsimp only
    omega

/-- The words of a row are staged. -/
theorem staged_run_barFlowWrite (c : CardState lfw) (row : PwfpgaFlowConfig) (hr : r < depth)
    {j : ℕ} (hj : j < 61) :
    (c.run depth (barFlowWrite r row)).staged (64 * r + j) = row.word j := by
  rw [CardState.staged_run]
  apply writeAll_of_forall
  · refine ⟨⟨winFlowTable + r * 256 + 4 * j, row.word j⟩, ?_, ?_⟩
    · rw [List.mem_filter, barFlowWrite, List.mem_map]
      refine ⟨⟨j, List.mem_range.mpr hj, rfl⟩, ?_⟩
      simp only [CsrWrite.isRow, decide_eq_true_eq]
      omega
    · rw [CsrWrite.wword]
      dsimp only
      omega
  · intro w hw hidx
    obtain ⟨j', hj', rfl⟩ := List.mem_map.mp (List.mem_filter.mp hw).1
    rw [List.mem_range] at hj'
    rw [CsrWrite.wword] at hidx
    dsimp only at hidx
    have hjj : j' = j := by omega
    rw [hjj]

/-- A commit brings what is staged. -/
theorem RowHeld.of_commit (hr : r < depth)
    (hstaged : ∀ j < 61, c.staged (64 * r + j) = row.word j) :
    RowHeld row (c.run depth barFlowCommit) r := by
  have hcommit : CsrWrite.isCommit ⟨winFlowTable + 0x3FFC, 1⟩ = true := by decide
  have hkept : ∀ j < 61, c.stage depth ⟨winFlowTable + 0x3FFC, 1⟩ (64 * r + j) = row.word j := by
    intro j hj
    rw [CardState.stage]
    split
    · have hne : 64 * r + j ≠ CsrWrite.wword ⟨winFlowTable + 0x3FFC, 1⟩ := by
        rw [CsrWrite.wword]
        dsimp only
        omega
      rw [Function.update_of_ne hne, hstaged j hj]
    · exact hstaged j hj
  refine ⟨hkept, ?_⟩
  rw [barFlowCommit, CardState.run_cons, CardState.run_nil, CardState.write]
  dsimp only
  rw [hcommit, Bool.true_and, if_pos (decide_eq_true hr)]
  exact decodeAt_eq hkept

end Rows

/-- **A card that is staged without a fault holds its rows.** -/
theorem RowHeld.of_stageCard {depth : ℕ} (hdepth : depth ≤ flowTableRows) {faults : Faults}
    {cp : PwCardProgram} {c : CardState lfw} (hok : (stageCard depth faults cp c).2 = none) {r : ℕ}
    (hr : r < depth) : RowHeld (cp.flowRows.getD r {}) (stageCard depth faults cp c).1 r := by
  rw [stageCard] at hok ⊢
  cases hprog : pwProgramCardTablesDiag (some depth) cp with
  | error f =>
    rw [hprog] at hok
    cases hf : faults 0 <;> rw [hf] at hok <;> cases hok
  | ok ws =>
    rw [hprog] at hok
    obtain ⟨hacc, rfl⟩ := accepted_of_program hprog
    have hnone := Option.map_eq_none_iff.mp hok
    rw [Option.or_eq_none_iff] at hnone
    dsimp only
    set nflows := min (max cp.flowRows.length depth) flowTableRows with hn
    have hflow : flowWrites (some depth) cp.flowRows =
        rowWrites nflows cp.flowRows ++ barFlowCommit := rfl
    rw [performed_of_firstFault hnone.2, programWrites_eq, hflow, CardState.run_append,
      CardState.run_append]
    apply RowHeld.run
    · apply RowHeld.of_commit hr
      intro j hj
      rw [CardState.staged_run, writeAll_rowWrites _ (by omega) hr hj]
    · intro w hw hrow
      rw [CsrWrite.isRow, decide_eq_true_eq, winFlowTable] at hrow
      rcases addr_of_mem_tableWrites hacc hw with hw | hw | hw <;> omega

/-! ## One row of the program -/

section Program

variable {p q : PwProgram} {ci r : ℕ} {gid : BitVec 32}

/-- The search ends at a row, for a flow of the program. -/
theorem exists_of_findTxRow (h : findTxRow p gid = some (ci, r)) :
    (∃ m ∈ p.flowMeta, m.globalFlowId = gid) ∧ ci < p.perCard.length ∧
      ∃ row, p.rowView ci r = some row := by
  rw [findTxRow, Option.bind_eq_some_iff] at h
  obtain ⟨m, hm, hcard⟩ := h
  refine ⟨⟨m, List.mem_of_find?_eq_some hm, by simpa using List.find?_some hm⟩, ?_⟩
  obtain ⟨x, hx, hrow⟩ := List.exists_of_findSome?_eq_some hcard
  split at hrow
  · obtain ⟨r', hr', heq⟩ := Option.map_eq_some_iff.mp hrow
    obtain ⟨rfl, rfl⟩ := Prod.mk.inj heq
    rw [List.mem_zipIdx_iff_getElem?] at hx
    have hlt := (List.findIdx?_eq_some_iff_getElem.mp hr').1
    refine ⟨(List.getElem?_eq_some_iff.mp hx).1, x.1.flowRows[r'], ?_⟩
    rw [PwProgram.rowView, hx, Option.bind_some, List.getElem?_eq_getElem hlt]
  · cases hrow

/-- A row is written with what its value becomes. -/
theorem setRow_congr {row : PwfpgaFlowConfig} {f g : PwfpgaFlowConfig → PwfpgaFlowConfig}
    (h : p.rowView ci r = some row) (hfg : f row = g row) : p.setRow ci r f = p.setRow ci r g := by
  rw [PwProgram.setRow, PwProgram.setRow]
  congr 1
  apply List.ext_getElem?
  intro i
  rw [List.getElem?_modify, List.getElem?_modify]
  split
  · rename_i hi
    subst hi
    rw [PwProgram.rowView] at h
    cases hcp : p.perCard[ci]? with
    | none => rfl
    | some cp =>
      rw [hcp, Option.bind_some] at h
      have hrows : cp.flowRows.modify r f = cp.flowRows.modify r g := by
        apply List.ext_getElem?
        intro j
        rw [List.getElem?_modify, List.getElem?_modify]
        split
        · rename_i hj
          subst hj
          rw [h]
          exact congrArg some hfg
        · rfl
      exact congrArg (fun rows => some { cp with flowRows := rows }) hrows
  · rfl

/-- **The program is a compiled one, up to the run state of its flows.** -/
structure RunOf (compiled p : PwProgram) : Prop where
  metas : p.flowMeta = compiled.flowMeta
  slots : p.slots = compiled.slots
  others : p.others = compiled.others
  rows : ∀ ci r, p.rowView ci r = compiled.rowView ci r ∨
    (∃ m ∈ compiled.flowMeta, findTxRow compiled m.globalFlowId = some (ci, r)) ∧
      ∃ running, p.rowView ci r = (compiled.rowView ci r).map (.withRun running)

theorem RunOf.refl (p : PwProgram) : RunOf p p := ⟨rfl, rfl, rfl, fun _ _ => .inl rfl⟩

theorem RunOf.stageFlowRunState (p : PwProgram) (running : Bool) :
    RunOf p (stageFlowRunState p running) := by
  have h := runStaged_stageFlowRunState p running
  refine ⟨h.metas, h.slots, h.others, ?_⟩
  intro ci r
  rw [h.rows]
  split
  · rename_i htx
    exact .inr ⟨htx, running, rfl⟩
  · exact .inl rfl

theorem RunOf.setRow (h : RunOf q p) (hrow : findTxRow p gid = some (ci, r)) (running : Bool) :
    RunOf q (p.setRow ci r (.withRun running)) := by
  refine ⟨h.metas, ?_, ?_, ?_⟩
  · rw [slots_setRow (localFlowId_withRun running), h.slots]
  · rw [others_setRow, h.others]
  · intro ci' r'
    rw [rowView_setRow]
    split
    · rename_i heq
      obtain ⟨rfl, rfl⟩ := heq
      obtain ⟨⟨m, hm, rfl⟩, -⟩ := exists_of_findTxRow hrow
      rw [h.metas] at hm
      rw [findTxRow_congr h.metas h.slots] at hrow
      refine .inr ⟨⟨m, hm, hrow⟩, running, ?_⟩
      rcases h.rows ci r with heq | ⟨-, running', heq⟩
      · rw [heq]
      · rw [heq, Option.map_map]
        rfl
    · exact h.rows ci' r'

/-- The cards of the program are those of the compiled one. -/
theorem RunOf.length_perCard (h : RunOf q p) : p.perCard.length = q.perCard.length := by
  have hlen := congrArg List.length h.others
  rwa [PwProgram.others, PwProgram.others, List.length_map, List.length_map] at hlen

end Program

/-! ## One flow is started or stopped -/

/-- The card after some writes. -/
def PwDaemon.onCard (d : PwDaemon lfw) (env : LoadEnv) (ci : ℕ) (ws : List CsrWrite) :
    PwDaemon lfw :=
  { d with cards := Function.update d.cards ci ((d.cards ci).run env.depth ws) }

/-- **What the start or the stop of a flow may do**: nothing, to an unknown flow or a closed card;
some of the writes, with a fault; or all of them, and then the daemon knows. -/
theorem setFlow_cases (env : LoadEnv) (d : PwDaemon lfw) (faults : Faults) (gid : BitVec 32)
    (enable : Bool) :
    (∃ e, setFlow env d faults gid enable = (d, some e, [])) ∨
    ∃ ci r row, findTxRow d.prog gid = some (ci, r) ∧ env.isOpen ci = true ∧
      d.prog.rowView ci r = some row ∧
      ((∃ e ws, (∀ w ∈ ws, w ∈ barFlowWrite r (row.withRun enable) ++ barFlowCommit) ∧
        setFlow env d faults gid enable = (d.onCard env ci ws, some e, [.row ci r false])) ∨
      setFlow env d faults gid enable =
        ({ d.onCard env ci (barFlowWrite r (row.withRun enable) ++ barFlowCommit) with
          prog := d.prog.setRow ci r (.withRun enable) }, none, [.row ci r true])) := by
  rw [setFlow, setFlowEnable]
  cases hfind : findTxRow d.prog gid with
  | none => exact .inl ⟨.inval, rfl⟩
  | some x =>
    obtain ⟨ci, r⟩ := x
    dsimp only
    cases hopen : env.isOpen ci with
    | false => exact .inl ⟨.noCard, rfl⟩
    | true =>
      obtain ⟨-, -, row, hrow⟩ := exists_of_findTxRow hfind
      refine .inr ⟨ci, r, row, rfl, hopen, hrow, ?_⟩
      rw [hrow, Option.getD_some]
      simp only [Bool.not_true, Bool.false_eq_true, if_false]
      cases hfault : firstFault faults (if (firstFault faults (barFlowWrite r
          (row.withRun enable))).isSome = true then barFlowWrite r (row.withRun enable)
          else barFlowWrite r (row.withRun enable) ++ barFlowCommit) with
      | some e =>
        refine .inl ⟨e, _, ?_, rfl⟩
        intro w hw
        have hmem := mem_of_mem_performed hw
        split at hmem
        · exact List.mem_append_left _ hmem
        · exact hmem
      | none =>
        right
        rw [performed_of_firstFault hfault]
        cases hwrite : firstFault faults (barFlowWrite r (row.withRun enable)) with
        | some e =>
          rw [hwrite, Option.isSome_some, if_pos rfl, hwrite] at hfault
          cases hfault
        | none =>
          dsimp only [Option.isSome_none]
          rw [if_neg Bool.false_ne_true]
          have hprog : d.prog.setRow ci r (fun _ => row.withRun enable) =
              d.prog.setRow ci r (.withRun enable) := setRow_congr hrow rfl
          rw [← hprog]
          rfl

/-! ## Settled rows -/

/-- **The settled rows of the open cards are the daemon's.** -/
def InStep (env : LoadEnv) (d : PwDaemon lfw) (b : ℕ → ℕ → Bool) : Prop :=
  ∀ ci r, env.isOpen ci = true → ci < d.prog.perCard.length → r < env.depth → b ci r = true →
    RowHeld ((d.prog.rowView ci r).getD {}) (d.cards ci) r

section InStep

variable {env : LoadEnv} {d : PwDaemon lfw} {b : ℕ → ℕ → Bool}

theorem length_perCard_setRow (p : PwProgram) (ci r : ℕ)
    (f : PwfpgaFlowConfig → PwfpgaFlowConfig) :
    (p.setRow ci r f).perCard.length = p.perCard.length := by
  rw [PwProgram.setRow, List.length_modify]

/-- The start or the stop of one flow. -/
theorem InStep.setFlow (h : InStep env d b) (faults : Faults) (gid : BitVec 32) (enable : Bool) :
    InStep env (setFlow env d faults gid enable).1 fun ci r =>
      settledFrom (b ci r) (setFlow env d faults gid enable).2.2 ci r := by
  have hother : ∀ {ci₀ r₀ : ℕ} {row : PwfpgaFlowConfig} {ws : List CsrWrite},
      (∀ w ∈ ws, w ∈ barFlowWrite r₀ row ++ barFlowCommit) → ∀ {ci r : ℕ}, ¬(ci₀ = ci ∧ r₀ = r) →
      env.isOpen ci = true → ci < d.prog.perCard.length → r < env.depth → b ci r = true →
      RowHeld ((d.prog.rowView ci r).getD {}) ((d.onCard env ci₀ ws).cards ci) r := by
    intro ci₀ r₀ row ws hws ci r hne hopen hci hr hb
    have hheld := h ci r hopen hci hr hb
    rw [PwDaemon.onCard]
    dsimp only
    by_cases hcard : ci₀ = ci
    · subst hcard
      rw [Function.update_self]
      apply hheld.run
      intro w hw _
      exact wword_barFlowWrite_ne (fun heq => hne ⟨rfl, heq.symm⟩) (hws w hw)
    · rw [Function.update_of_ne (Ne.symm hcard)]
      exact hheld
  rcases setFlow_cases env d faults gid enable with
    ⟨e, heq⟩ | ⟨ci₀, r₀, row, -, -, hrow, ⟨e, ws, hws, heq⟩ | heq⟩
  · rw [heq]
    exact h
  · -- the row itself is not settled any more
    rw [heq]
    intro ci r hopen hci hr hb
    have hne : ¬(ci₀ = ci ∧ r₀ = r) := by
      rintro ⟨rfl, rfl⟩
      simp [Attempt.touches, Attempt.ok] at hb
    have hold : b ci r = true := by
      simpa [Attempt.touches, Attempt.ok, hne] using hb
    exact hother hws hne hopen hci hr hold
  · rw [heq]
    intro ci r hopen hci hr hb
    dsimp only at hci ⊢
    rw [length_perCard_setRow] at hci
    rw [rowView_setRow]
    by_cases hsame : ci₀ = ci ∧ r₀ = r
    · obtain ⟨rfl, rfl⟩ := hsame
      rw [if_pos ⟨rfl, rfl⟩, hrow, Option.map_some, Option.getD_some, PwDaemon.onCard]
      dsimp only
      rw [Function.update_self, CardState.run_append]
      exact .of_commit hr fun j hj => staged_run_barFlowWrite _ _ hr hj
    · have hold : b ci r = true := by
        simpa [Attempt.touches, Attempt.ok, hsame] using hb
      rw [if_neg hsame]
      exact hother (fun w hw => hw) hsame hopen hci hr hold

theorem InStep.setFlows (h : InStep env d b) (faults : ℕ → Faults) (enable : Bool)
    (l : List (PwFlowMeta × ℕ)) :
    InStep env (setFlows env faults enable l d).1 fun ci r =>
      settledFrom (b ci r) (setFlows env faults enable l d).2.2 ci r := by
  induction l generalizing d b with
  | nil => exact h
  | cons x l ih =>
    have hnext := ih (h.setFlow (faults x.2) x.1.globalFlowId enable)
    simp only [PacketWyrm.setFlows, settledFrom_append]
    exact hnext

theorem InStep.clearStats (hdepth : env.depth ≤ flowTableRows) (h : InStep env d b)
    (clear : ℕ → Option PwStatus) : InStep env (clearStats env d clear) b := by
  intro ci r hopen hci hr hb
  have hheld := h ci r hopen hci hr hb
  rw [PacketWyrm.clearStats]
  dsimp only
  split
  · apply hheld.write
    intro hrow
    -- the register is behind the flow table
    rw [CsrWrite.isRow, decide_eq_true_eq, winFlowTable, regStatsClear] at hrow
    rw [flowTableRows] at hdepth
    dsimp only at hrow
    omega
  · exact hheld

/-- The outcome of a staging, card by card. -/
theorem settledFrom_stageLog_aux (isOpen : ℕ → Bool) (res : PwCardProgram → ℕ → Bool) (b : Bool)
    (l : List PwCardProgram) (k : ℕ) {ci r : ℕ} (hopen : isOpen ci = true) :
    settledFrom b ((l.zipIdx k).filterMap fun x =>
        if isOpen x.2 then some (.card x.2 (res x.1 x.2)) else none) ci r =
      if k ≤ ci then ((l[ci - k]?).map fun cp => res cp ci).getD b else b := by
  induction l generalizing k b with
  | nil => simp
  | cons cp l ih =>
    have hhead : settledFrom b (((cp :: l).zipIdx k).filterMap fun x =>
          if isOpen x.2 then some (.card x.2 (res x.1 x.2)) else none) ci r =
        settledFrom (if k = ci then res cp ci else b) ((l.zipIdx (k + 1)).filterMap fun x =>
          if isOpen x.2 then some (.card x.2 (res x.1 x.2)) else none) ci r := by
      rw [List.zipIdx_cons, List.filterMap_cons]
      dsimp only
      by_cases hk : k = ci
      · subst hk
        rw [if_pos hopen, if_pos rfl, settledFrom_cons, Attempt.touches, beq_self_eq_true,
          if_pos rfl]
        rfl
      · rw [if_neg hk]
        cases hopenk : isOpen k with
        | false => rfl
        | true =>
          rw [if_pos rfl, settledFrom_cons, Attempt.touches, beq_eq_false_iff_ne.mpr hk,
            if_neg Bool.false_ne_true]
    rw [hhead, ih]
    by_cases hk : k = ci
    · subst hk
      simp
    · rw [if_neg hk]
      by_cases hle : k ≤ ci
      · have hsub : ci - k = ci - (k + 1) + 1 := by omega
        rw [if_pos hle, if_pos (by omega), hsub, List.getElem?_cons_succ]
      · rw [if_neg hle, if_neg (by omega)]

theorem settledFrom_stageLog {faults : ℕ → Faults} {prog : PwProgram} {cards : ℕ → CardState lfw}
    {b : Bool} {ci r : ℕ} {cp : PwCardProgram} (hopen : env.isOpen ci = true)
    (hcp : prog.perCard[ci]? = some cp) :
    settledFrom b (stageLog env faults prog cards) ci r =
      (stageCard env.depth (faults ci) cp (cards ci)).2.isNone := by
  have haux := settledFrom_stageLog_aux env.isOpen
    (fun cp ci => (stageCard env.depth (faults ci) cp (cards ci)).2.isNone) b prog.perCard 0
    (r := r) hopen
  rw [stageLog, haux, if_pos (Nat.zero_le ci), Nat.sub_zero, hcp]
  rfl

/-- The staging of all cards; what was there before does not matter. -/
theorem inStep_stage (hdepth : env.depth ≤ flowTableRows) (faults : ℕ → Faults)
    (cards : ℕ → CardState lfw)
    (hcards : d.cards = (programBackendsDiag env faults d.prog cards).1) (b : ℕ → ℕ → Bool) :
    InStep env d fun ci r => settledFrom (b ci r) (stageLog env faults d.prog cards) ci r := by
  intro ci r hopen hci hr hb
  have hcp : d.prog.perCard[ci]? = some d.prog.perCard[ci] := List.getElem?_eq_getElem hci
  dsimp only at hb
  rw [settledFrom_stageLog hopen hcp, Option.isNone_iff_eq_none] at hb
  rw [hcards, card_programBackendsDiag hopen hcp, PwProgram.rowView, hcp, Option.bind_some,
    ← List.getD_eq_getElem?_getD]
  exact .of_stageCard hdepth hb hr

end InStep

/-! ## Requests and sessions -/

/-- The daemon has the program of its configuration. -/
def OwnProgram (d : PwDaemon lfw) : Prop :=
  ∃ compiled, pwFlowCompile d.cfg = .ok compiled ∧ RunOf compiled d.prog

section Requests

variable {parse : String → Except PwFailure PwConfig} {env : LoadEnv} {d : PwDaemon lfw}
  {b : ℕ → ℕ → Bool}

theorem InStep.configLoad (hdepth : env.depth ≤ flowTableRows) (h : InStep env d b)
    (faults : LoadFaults) (yaml : Option String) :
    InStep env (doConfigLoad parse env faults d yaml).1 fun ci r =>
      settledFrom (b ci r) (loadLog env d parse faults yaml) ci r := by
  rw [doConfigLoad, loadLog]
  cases prepareLoad parse d yaml with
  | error e => exact h
  | ok x =>
    obtain ⟨text, newCfg, newProg⟩ := x
    dsimp only
    cases hstage : (stageNew env faults d newProg).2 with
    | some f =>
      dsimp only
      simp only [settledFrom_append]
      exact inStep_stage hdepth faults.rollback (stageNew env faults d newProg).1 rfl _
    | none => exact inStep_stage hdepth faults.stage (quiesce env faults d) rfl b

/-- **A request keeps the settled rows.** -/
theorem InStep.handle (parse : String → Except PwFailure PwConfig)
    (hdepth : env.depth ≤ flowTableRows) (h : InStep env d b) (faults : RequestFaults)
    (req : FlowRequest) :
    InStep env (handleFlowRequest env d parse faults req).1 fun ci r =>
      settledFrom (b ci r) (handleFlowRequest env d parse faults req).2.2 ci r := by
  cases req with
  | flowSet start id =>
    cases id with
    | none => exact h
    | some id => exact h.setFlow (faults.enable 0) id start
  | testSet start =>
    have hset := h.setFlows faults.enable start d.prog.flowMeta.zipIdx
    rw [handleFlowRequest]
    dsimp only
    split
    · exact hset.clearStats hdepth faults.clear
    · exact hset
  | testArm =>
    have hstage : InStep env
        { d with cards := (programBackendsDiag env faults.stage d.prog d.cards).1 } fun ci r =>
          settledFrom (b ci r) (stageLog env faults.stage d.prog d.cards) ci r :=
      inStep_stage hdepth faults.stage d.cards rfl b
    rw [handleFlowRequest]
    cases (programBackendsDiag env faults.stage d.prog d.cards).2 with
    | some f => exact hstage
    | none => exact hstage.clearStats hdepth faults.clear
  | statsClear => exact h.clearStats hdepth faults.clear
  | configLoad yaml => exact h.configLoad hdepth faults.toLoadFaults yaml

theorem InStep.run (hdepth : env.depth ≤ flowTableRows) (h : InStep env d b)
    (l : List (FlowRequest × RequestFaults)) :
    InStep env (runRequests parse env d l).1 fun ci r =>
      settledFrom (b ci r) (runRequests parse env d l).2 ci r := by
  induction l generalizing d b with
  | nil => exact h
  | cons x l ih =>
    have hnext := ih (h.handle parse hdepth x.2 x.1)
    simp only [runRequests, settledFrom_append]
    exact hnext

theorem OwnProgram.setFlow (h : OwnProgram d) (faults : Faults) (gid : BitVec 32)
    (enable : Bool) : OwnProgram (setFlow env d faults gid enable).1 := by
  obtain ⟨compiled, hcompile, hrun⟩ := h
  rcases setFlow_cases env d faults gid enable with
    ⟨e, heq⟩ | ⟨ci, r, row, hfind, -, -, ⟨e, ws, -, heq⟩ | heq⟩
  · rw [heq]
    exact ⟨compiled, hcompile, hrun⟩
  · rw [heq]
    exact ⟨compiled, hcompile, hrun⟩
  · rw [heq]
    exact ⟨compiled, hcompile, hrun.setRow hfind enable⟩

theorem OwnProgram.setFlows (h : OwnProgram d) (faults : ℕ → Faults) (enable : Bool)
    (l : List (PwFlowMeta × ℕ)) : OwnProgram (setFlows env faults enable l d).1 := by
  induction l generalizing d with
  | nil => exact h
  | cons x l ih => exact ih (h.setFlow (faults x.2) x.1.globalFlowId enable)

/-- **A request leaves the daemon with the program of its configuration.** -/
theorem OwnProgram.handle (h : OwnProgram d) (faults : RequestFaults) (req : FlowRequest) :
    OwnProgram (handleFlowRequest env d parse faults req).1 := by
  cases req with
  | flowSet start id =>
    cases id with
    | none => exact h
    | some id => exact h.setFlow (faults.enable 0) id start
  | testSet start =>
    have hset := @OwnProgram.setFlows _ env _ h faults.enable start d.prog.flowMeta.zipIdx
    rw [handleFlowRequest]
    dsimp only
    split
    · exact hset
    · exact hset
  | testArm =>
    rw [handleFlowRequest]
    cases (programBackendsDiag env faults.stage d.prog d.cards).2 with
    | some f => exact h
    | none => exact h
  | statsClear => exact h
  | configLoad yaml =>
    rw [handleFlowRequest, doConfigLoad]
    cases hprep : prepareLoad parse d yaml with
    | error e => exact h
    | ok x =>
      obtain ⟨text, newCfg, newProg⟩ := x
      dsimp only
      cases (stageNew env faults.toLoadFaults d newProg).2 with
      | some f => exact h
      | none =>
        obtain ⟨-, compiled, -, -, -, hcompile, rfl⟩ := prepareLoad_eq_ok hprep
        exact ⟨compiled, hcompile, .stageFlowRunState compiled false⟩

theorem OwnProgram.run (h : OwnProgram d) (l : List (FlowRequest × RequestFaults)) :
    OwnProgram (runRequests parse env d l).1 := by
  induction l generalizing d with
  | nil => exact h
  | cons x l ih => exact ih (h.handle x.2 x.1)

end Requests

end PacketWyrm
