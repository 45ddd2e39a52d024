import PacketWyrm.RunState

/-!
# Loading a configuration

The control request `config.load` of the daemon.  The payload is parsed, merged onto the
running environment, validated and compiled; then the flows of the running program are
stopped and the new program is staged on every open card.  If a card fails, the running
program is staged again.

The parser of the payload is a parameter.

## Main definitions

* `prepareLoad` — everything before the cards are touched.
* `doConfigLoad` — the whole request, with the faults of the cards' writes.
* `Running` — every open card holds the daemon's program.

## Main results

* `config_load_atomic` — what a load leaves behind, on every way out.
* `Running.load`, `running_startup` — running daemons.
* `stale_forward_survives_load` — a load that leaves a rule of the old program.
-/

namespace PacketWyrm

open Lib CsrState

variable {lfw : ℕ}

/-! ## The request -/

/-- `pw_strerror`. -/
def PwStatus.strerror : PwStatus → String
  | inval => "invalid argument"
  | parse => "parse error"
  | dupCardId => "duplicate card_id"
  | dupGlobalPort => "duplicate global_port_id"
  | dupLogicalIf => "duplicate logical_if_id"
  | dupFlowId => "duplicate global_flow_id"
  | unknownCard => "unknown card"
  | unknownGlobalPort => "unknown global_port_id"
  | unknownLogicalIf => "unknown logical_if_id"
  | missingField => "required field missing"
  | outOfRange => "value out of range"
  | noCard => "no card with that PCI BDF"
  | noResources => "out of resources (memory or table slot)"
  | backend => "backend error"
  | io => "I/O error"
  | notImplemented => "not implemented"

/-- Why a load is refused before the cards are touched. -/
inductive LoadError where
  | missingYaml
  | parse (f : PwFailure)
  | topology
  | validate (f : PwFailure)
  | compile (f : PwFailure)
  deriving DecidableEq

/-- A failure with its field, as a reply has it. -/
def PwFailure.text (f : PwFailure) (stage : String) : String :=
  let path := (f.diag.map PwDiag.path).getD ""
  let message := (f.diag.map PwDiag.message).getD ""
  s!"{stage}: {f.status.strerror} at {path}: {message}"

/-- The text of the reply. -/
def LoadError.text : LoadError → String
  | missingYaml => "missing yaml"
  | parse f => f.text "parse"
  | topology => "topology change (cards / logical_ifs) requires restart"
  | validate f => f.text "validate"
  | compile f => f.text "compile"

/-- The text of a load that failed to stage. -/
def stageText (f : PwFailure) (rollback : Option PwFailure) : String :=
  let message := (f.diag.map PwDiag.message).getD ""
  let detail := if message = "" then f.status.strerror else message
  match rollback with
  | none => s!"stage failed ({detail}); rolled back, previous config still running"
  | some g =>
    s!"stage failed ({f.status.strerror}) AND rollback failed ({g.status.strerror}); " ++
      "device may be OUT OF SYNC -- re-arm (test.arm) or restart the daemon"

/-- The reply: the number of flows and of classifier rules, or an error. -/
inductive LoadReply where
  | ok (nFlows nClassifierRows : ℕ)
  | error (message : String)
  deriving DecidableEq

/-- `same_topology`. -/
def sameTopology (a b : PwConfig) : Bool :=
  a.cards.length == b.cards.length && a.logicalIf.length == b.logicalIf.length &&
  ((a.cards.zip b.cards).all fun x =>
    x.1.id == x.2.id && x.1.pci == x.2.pci && x.1.ports.length == x.2.ports.length &&
      (x.1.ports.zip x.2.ports).all fun y =>
        y.1.localPort == y.2.localPort && y.1.globalPort == y.2.globalPort) &&
  (a.logicalIf.zip b.logicalIf).all fun x =>
    x.1.id == x.2.id && x.1.globalPort == x.2.globalPort && x.1.vlan == x.2.vlan &&
      x.1.name == x.2.name && x.1.mac == x.2.mac

/-- The daemon's view, and the cards. -/
structure PwDaemon (lfw : ℕ) where
  cfg : PwConfig
  prog : PwProgram
  testYaml : Option String := none
  cards : ℕ → CardState lfw

/-- The rows of the cards' flow tables, and the cards that are open. -/
structure LoadEnv where
  depth : ℕ
  isOpen : ℕ → Bool

/-- The faults of the writes: for each flow that is stopped, and for each card in the
staging and in the rollback. -/
structure LoadFaults where
  quiesce : ℕ → Faults := fun _ _ => none
  stage : ℕ → Faults := fun _ _ => none
  rollback : ℕ → Faults := fun _ _ => none

/-- `program_backends_diag`: every open card is staged, and the first failure reported. -/
def programBackendsDiag (env : LoadEnv) (faults : ℕ → Faults) (prog : PwProgram)
    (cards : ℕ → CardState lfw) : (ℕ → CardState lfw) × Option PwFailure :=
  (fun ci =>
      match prog.perCard[ci]? with
      | some cp => if env.isOpen ci then (stageCard env.depth (faults ci) cp (cards ci)).1 else cards ci
      | none => cards ci,
    prog.perCard.zipIdx.findSome? fun x =>
      if env.isOpen x.2 then (stageCard env.depth (faults x.2) x.1 (cards x.2)).2 else none)

section Request

variable (parse : String → Except PwFailure PwConfig) (env : LoadEnv) (faults : LoadFaults)
  (d : PwDaemon lfw) (yaml : Option String)

/-- Parse, check the topology, merge, validate, compile, and stage every flow idle in
memory. -/
def prepareLoad : Except LoadError (String × PwConfig × PwProgram) := do
  let text ← yaml.elim (.error .missingYaml) .ok
  let payload ← (parse text).mapError .parse
  if !payload.cards.isEmpty && !sameTopology d.cfg payload then .error .topology
  else
    let newCfg := { d.cfg with flows := payload.flows, forwards := payload.forwards }
    (pwConfigValidate newCfg).mapError .validate
    let newProg ← (pwFlowCompile newCfg).mapError .compile
    pure (text, newCfg, stageFlowRunState newProg false)

/-- The flows of the running program are stopped on the cards. -/
def quiesce : ℕ → CardState lfw :=
  d.prog.flowMeta.zipIdx.foldl (fun cards x =>
    (setFlowEnable env.depth env.isOpen (faults.quiesce x.2) d.prog cards x.1.globalFlowId false
      false).2.1) d.cards

/-- The cards after the new program was staged. -/
def stageNew (newProg : PwProgram) : (ℕ → CardState lfw) × Option PwFailure :=
  programBackendsDiag env faults.stage newProg (quiesce env faults d)

/-- The cards after the running program was staged again. -/
def stageOld (newProg : PwProgram) : (ℕ → CardState lfw) × Option PwFailure :=
  programBackendsDiag env faults.rollback d.prog (stageNew env faults d newProg).1

/-- `do_config_load`. -/
def doConfigLoad : PwDaemon lfw × LoadReply :=
  match prepareLoad parse d yaml with
  | .error e => (d, .error e.text)
  | .ok (text, newCfg, newProg) =>
    match (stageNew env faults d newProg).2 with
    | some f =>
      ({ d with cards := (stageOld env faults d newProg).1 },
        .error (stageText f (stageOld env faults d newProg).2))
    | none =>
      ({ cfg := newCfg, prog := newProg, testYaml := some text
         cards := (stageNew env faults d newProg).1 },
        .ok newCfg.flows.length (newProg.perCard.map fun cp => cp.fcRules.length).sum)

end Request

/-! ## Running daemons -/

/-- The card behaves as the program: it classifies as the program's tables do, and its flow
rows are the program's. -/
def CardRuns (depth : ℕ) (cp : PwCardProgram) (c : CardState lfw) : Prop :=
  (∀ k win base, c.csr.tables.eff k win base = (cp.tables lfw).eff k win base) ∧
    ∀ r < depth, c.rows r = (cp.flowRows.getD r {}).decoded

/-- Every open card holds its part of the program. -/
def AllHold (env : LoadEnv) (prog : PwProgram) (cards : ℕ → CardState lfw) : Prop :=
  ∀ ci cp, env.isOpen ci = true → prog.perCard[ci]? = some cp → CardHolds env.depth cp (cards ci)

/-- What the compiler gives of every card of a program. -/
structure PwProgram.Sound (cfg : PwConfig) (prog : PwProgram) : Prop where
  ids : prog.perCard.map PwCardProgram.cardId = cfg.cards.map PwCard.id
  rules : ∀ cp ∈ prog.perCard, cp.fcRules.length ≤ 32
  selfContained : ∀ cp ∈ prog.perCard, cp.SelfContained

/-- **A running daemon**: every open card holds the daemon's program. -/
structure Running (env : LoadEnv) (d : PwDaemon lfw) : Prop where
  sound : d.prog.Sound d.cfg
  holds : AllHold env d.prog d.cards

/-- No rule of a card's program gets lost in the number of rules of another one. -/
def RulesGrow (env : LoadEnv) (old new : PwProgram) : Prop :=
  ∀ ci cp cp', env.isOpen ci = true → old.perCard[ci]? = some cp → new.perCard[ci]? = some cp' →
    cp.fcRules.length ≤ cp'.fcRules.length

/-- No write that the staging of the new program performs commits a rule past those of the
old one. -/
def StageClean (env : LoadEnv) (faults : LoadFaults) (old new : PwProgram) : Prop :=
  ∀ ci cp cp', env.isOpen ci = true → old.perCard[ci]? = some cp → new.perCard[ci]? = some cp' →
    ∀ i : Fin 32, cp.fcRules.length ≤ i →
      ∀ w ∈ stageWrites env.depth (faults.stage ci) cp', ¬w.CommitsRule i

/-- A program with no more rules than the old one stages cleanly, whatever fails. -/
theorem stageClean_of_le {env : LoadEnv} {faults : LoadFaults} {old new : PwProgram}
    (h : RulesGrow env new old) : StageClean env faults old new := by
  intro ci cp cp' hopen hcp hcp' i hi
  exact not_commitsRule_of_le (le_trans (h ci cp' cp hopen hcp' hcp) hi)

section Programs

variable {cfg : PwConfig} {p : PwProgram}

/-- Staging a run state changes nothing of a card but its flow rows. -/
theorem getElem?_stageFlowRunState {running : Bool} {ci : ℕ} {cp : PwCardProgram}
    (h : (stageFlowRunState p running).perCard[ci]? = some cp) :
    ∃ cp₀, p.perCard[ci]? = some cp₀ ∧ cp = { cp₀ with flowRows := cp.flowRows } := by
  have hothers := congrArg (fun l => l[ci]?) (runStaged_stageFlowRunState p running).others
  simp only [PwProgram.others, List.getElem?_map, h, Option.map_some] at hothers
  obtain ⟨cp₀, hcp₀, heq⟩ := Option.map_eq_some_iff.mp hothers.symm
  refine ⟨cp₀, hcp₀, ?_⟩
  obtain ⟨id, rows, map, cmps, udfs, rules, seed, mask, hash⟩ := cp
  obtain ⟨id', rows', map', cmps', udfs', rules', seed', mask', hash'⟩ := cp₀
  simp only [PwCardProgram.mk.injEq] at heq ⊢
  tauto

/-- A compiled program is sound, whatever its run state. -/
theorem sound_of_compile (h : pwFlowCompile cfg = .ok p) (running : Bool) :
    (stageFlowRunState p running).Sound cfg := by
  have hmem : ∀ cp ∈ (stageFlowRunState p running).perCard,
      ∃ cp₀ ∈ p.perCard, cp = { cp₀ with flowRows := cp.flowRows } := by
    intro cp hcp
    obtain ⟨ci, hci⟩ := List.mem_iff_getElem?.mp hcp
    obtain ⟨cp₀, hcp₀, heq⟩ := getElem?_stageFlowRunState hci
    exact ⟨cp₀, List.mem_of_getElem? hcp₀, heq⟩
  refine ⟨?_, ?_, ?_⟩
  · have hids := congrArg (List.map PwCardProgram.cardId) (runStaged_stageFlowRunState p running).others
    rw [PwProgram.others, PwProgram.others, List.map_map, List.map_map] at hids
    exact hids.trans (pwFlowCompile_spec h).2.1
  · intro cp hcp
    obtain ⟨cp₀, hcp₀, heq⟩ := hmem cp hcp
    rw [heq]
    exact (rulesOk_of_compile h hcp₀).rules
  · intro cp hcp
    obtain ⟨cp₀, hcp₀, heq⟩ := hmem cp hcp
    rw [heq]
    intro r hr i hi
    exact selfContained_of_compile h hcp₀ r hr i hi

end Programs

section Cards

variable {env : LoadEnv} {prog : PwProgram} {cards : ℕ → CardState lfw}

theorem AllHold.runs (hlfw : lfw ≤ 31) {cfg : PwConfig} (h : AllHold env prog cards)
    (hs : prog.Sound cfg) {ci : ℕ} {cp : PwCardProgram} (hopen : env.isOpen ci = true)
    (hcp : prog.perCard[ci]? = some cp) : CardRuns env.depth cp (cards ci) := by
  have hhold := h ci cp hopen hcp
  exact ⟨hhold.eff_eq hlfw (hs.selfContained cp (List.mem_of_getElem? hcp)), hhold.rows⟩

/-- A card after the cards were staged. -/
theorem card_programBackendsDiag {faults : ℕ → Faults} {ci : ℕ} {cp : PwCardProgram}
    (hopen : env.isOpen ci = true) (hcp : prog.perCard[ci]? = some cp) :
    (programBackendsDiag env faults prog cards).1 ci =
      (stageCard env.depth (faults ci) cp (cards ci)).1 := by
  simp only [programBackendsDiag, hcp, hopen, if_true]

theorem stageCard_of_programBackendsDiag {faults : ℕ → Faults} {ci : ℕ} {cp : PwCardProgram}
    (hok : (programBackendsDiag env faults prog cards).2 = none) (hopen : env.isOpen ci = true)
    (hcp : prog.perCard[ci]? = some cp) :
    (stageCard env.depth (faults ci) cp (cards ci)).2 = none := by
  rw [programBackendsDiag, List.findSome?_eq_none_iff] at hok
  have hmem : (cp, ci) ∈ prog.perCard.zipIdx := by
    rw [List.mem_zipIdx_iff_getElem?]
    exact hcp
  have hcard := hok _ hmem
  rwa [if_pos hopen] at hcard

/-- **A program that is staged without a failure** is held by cards without further rules. -/
theorem allHold_programBackendsDiag (hdepth : env.depth ≤ flowTableRows) {faults : ℕ → Faults}
    (hok : (programBackendsDiag env faults prog cards).2 = none)
    (hrule : ∀ ci cp, env.isOpen ci = true → prog.perCard[ci]? = some cp →
      ∀ i : Fin 32, cp.fcRules.length ≤ i → (cards ci).csr.tables.field.rule i = {}) :
    AllHold env prog (programBackendsDiag env faults prog cards).1 := by
  intro ci cp hopen hcp
  rw [card_programBackendsDiag hopen hcp]
  exact stageCard_holds hdepth (stageCard_of_programBackendsDiag hok hopen hcp)
    (hrule ci cp hopen hcp)

/-- Stopping the flows leaves the classifier alone. -/
theorem csr_quiesce (env : LoadEnv) (faults : LoadFaults) (d : PwDaemon lfw) (ci : ℕ) :
    (quiesce env faults d ci).csr = (d.cards ci).csr := by
  have hfold : ∀ (l : List (PwFlowMeta × ℕ)) (cards : ℕ → CardState lfw),
      (l.foldl (fun cards x =>
        (setFlowEnable env.depth env.isOpen (faults.quiesce x.2) d.prog cards x.1.globalFlowId false
          false).2.1) cards ci).csr = (cards ci).csr := by
    intro l
    induction l with
    | nil =>
      intro cards
      rfl
    | cons x l ih =>
      intro cards
      rw [List.foldl_cons, ih, csr_setFlowEnable]
  exact hfold _ _

end Cards

/-! ## The ways out of a load -/

section Load

variable {parse : String → Except PwFailure PwConfig} {env : LoadEnv} {faults : LoadFaults}
  {d : PwDaemon lfw} {yaml : Option String} {text : String} {newCfg : PwConfig} {newProg : PwProgram}

/-- What a load has when it comes to stage. -/
theorem prepareLoad_eq_ok (h : prepareLoad parse d yaml = .ok (text, newCfg, newProg)) :
    ∃ payload compiled, yaml = some text ∧ parse text = .ok payload ∧
      newCfg = { d.cfg with flows := payload.flows, forwards := payload.forwards } ∧
      pwFlowCompile newCfg = .ok compiled ∧ newProg = stageFlowRunState compiled false := by
  rw [prepareLoad, bind_eq_ok_iff] at h
  obtain ⟨text', hyaml, h⟩ := h
  cases yaml with
  | none => cases hyaml
  | some text'' =>
    obtain rfl : text'' = text' := Except.ok.inj hyaml
    rw [bind_eq_ok_iff] at h
    obtain ⟨payload, hparse, h⟩ := h
    rw [mapError_eq_ok_iff] at hparse
    split at h
    · cases h
    · simp only [bind_eq_ok_iff, mapError_eq_ok_iff] at h
      obtain ⟨-, -, compiled, hcompile, h⟩ := h
      obtain ⟨rfl, rfl, rfl⟩ := Prod.mk.inj (Except.ok.inj h) |>.imp id Prod.mk.inj
      exact ⟨payload, compiled, rfl, hparse, rfl, hcompile, rfl⟩

theorem sound_of_prepareLoad (h : prepareLoad parse d yaml = .ok (text, newCfg, newProg)) :
    newProg.Sound newCfg := by
  obtain ⟨-, compiled, -, -, -, hcompile, rfl⟩ := prepareLoad_eq_ok h
  exact sound_of_compile hcompile false

/-- The new program has the cards of the old one. -/
theorem length_perCard_of_prepareLoad (hs : d.prog.Sound d.cfg)
    (h : prepareLoad parse d yaml = .ok (text, newCfg, newProg)) :
    newProg.perCard.length = d.prog.perCard.length := by
  have hnew := congrArg List.length (sound_of_prepareLoad h).ids
  have hold := congrArg List.length hs.ids
  obtain ⟨payload, -, -, -, hcfg, -, -⟩ := prepareLoad_eq_ok h
  rw [hcfg] at hnew
  simp only [List.length_map] at hnew hold
  omega

/-- The rules past those of the running program, after the staging. -/
theorem rule_stageNew (hrun : Running env d)
    (h : prepareLoad parse d yaml = .ok (text, newCfg, newProg))
    (hclean : StageClean env faults d.prog newProg) {ci : ℕ} {cp : PwCardProgram}
    (hopen : env.isOpen ci = true) (hcp : d.prog.perCard[ci]? = some cp) {i : Fin 32}
    (hi : cp.fcRules.length ≤ i) :
    ((stageNew env faults d newProg).1 ci).csr.tables.field.rule i = {} := by
  have hlt : ci < newProg.perCard.length := by
    rw [length_perCard_of_prepareLoad hrun.sound h]
    exact (List.getElem?_eq_some_iff.mp hcp).1
  have hcp' := List.getElem?_eq_getElem hlt
  rw [stageNew, card_programBackendsDiag hopen hcp',
    stageCard_rule (hclean ci cp _ hopen hcp hcp' i hi), csr_quiesce]
  exact (hrun.holds ci cp hopen hcp).rule i hi

/-- **A rollback restores the running program.** -/
theorem allHold_stageOld (hdepth : env.depth ≤ flowTableRows) (hrun : Running env d)
    (h : prepareLoad parse d yaml = .ok (text, newCfg, newProg))
    (hok : (stageOld env faults d newProg).2 = none)
    (hclean : StageClean env faults d.prog newProg) :
    AllHold env d.prog (stageOld env faults d newProg).1 := by
  apply allHold_programBackendsDiag hdepth hok
  intro ci cp hopen hcp i hi
  exact rule_stageNew hrun h hclean hopen hcp hi

/-- A rule that the old program has and the new one has not stays in its place. -/
theorem rule_stageNew_of_fewer (faults : LoadFaults) (hrun : Running env d) {ci : ℕ} {cp cp' : PwCardProgram}
    (hopen : env.isOpen ci = true) (hcp : d.prog.perCard[ci]? = some cp)
    (hcp' : newProg.perCard[ci]? = some cp') (hfewer : cp'.fcRules.length < cp.fcRules.length) :
    ∃ i : Fin 32, cp'.fcRules.length ≤ i ∧
      (((stageNew env faults d newProg).1 ci).csr.tables.field.rule i).enable = true := by
  have hrules := hrun.sound.rules cp (List.mem_of_getElem? hcp)
  refine ⟨⟨cp'.fcRules.length, by omega⟩, le_refl _, ?_⟩
  obtain ⟨t, ht⟩ := (hrun.holds ci cp hopen hcp).programmed
  rw [stageNew, card_programBackendsDiag hopen hcp',
    stageCard_rule (not_commitsRule_of_le (le_refl _)), csr_quiesce, ht.rule,
    List.getElem?_eq_getElem hfewer]
  rfl

/-- **The cards hold the new program exactly when no card has fewer rules than before.** -/
theorem allHold_stageNew_iff (hdepth : env.depth ≤ flowTableRows) (hrun : Running env d)
    (h : prepareLoad parse d yaml = .ok (text, newCfg, newProg))
    (hok : (stageNew env faults d newProg).2 = none) :
    AllHold env newProg (stageNew env faults d newProg).1 ↔ RulesGrow env d.prog newProg := by
  constructor
  · intro hall ci cp cp' hopen hcp hcp'
    by_contra hlt
    obtain ⟨i, hi, henable⟩ := rule_stageNew_of_fewer faults hrun hopen hcp hcp'
      (Nat.not_le.mp hlt)
    rw [(hall ci cp' hopen hcp').rule i hi] at henable
    cases henable
  · intro hgrow
    apply allHold_programBackendsDiag hdepth hok
    intro ci cp' hopen hcp' i hi
    have hlt : ci < d.prog.perCard.length := by
      rw [← length_perCard_of_prepareLoad hrun.sound h]
      exact (List.getElem?_eq_some_iff.mp hcp').1
    have hcp := List.getElem?_eq_getElem hlt
    rw [csr_quiesce]
    exact (hrun.holds ci _ hopen hcp).rule i (le_trans (hgrow ci _ cp' hopen hcp hcp') hi)

/-- **Daemons stay running**: through a load that rolls back or succeeds, on the condition. -/
theorem Running.load (hdepth : env.depth ≤ flowTableRows) (hrun : Running env d)
    (hback : ∀ text newCfg newProg f, prepareLoad parse d yaml = .ok (text, newCfg, newProg) →
      (stageNew env faults d newProg).2 = some f →
        (stageOld env faults d newProg).2 = none ∧ StageClean env faults d.prog newProg)
    (hgrow : ∀ text newCfg newProg, prepareLoad parse d yaml = .ok (text, newCfg, newProg) →
      (stageNew env faults d newProg).2 = none → RulesGrow env d.prog newProg) :
    Running env (doConfigLoad parse env faults d yaml).1 := by
  rw [doConfigLoad]
  cases hprep : prepareLoad parse d yaml with
  | error e => exact hrun
  | ok x =>
    obtain ⟨text, newCfg, newProg⟩ := x
    dsimp only
    cases hstage : (stageNew env faults d newProg).2 with
    | some f =>
      obtain ⟨hok, hclean⟩ := hback text newCfg newProg f hprep hstage
      exact ⟨hrun.sound, allHold_stageOld hdepth hrun hprep hok hclean⟩
    | none =>
      exact ⟨sound_of_prepareLoad hprep, (allHold_stageNew_iff hdepth hrun hprep hstage).mpr
        (hgrow text newCfg newProg hprep hstage)⟩

end Load

/-- A card after its configuration. -/
def CardState.reset : CardState lfw :=
  { csr := .reset, staged := fun _ => 0, rows := decodeAt fun _ => 0 }

/-- The daemon after its start with a compiled configuration, on cards that were reset. -/
def startDaemon (lfw : ℕ) (env : LoadEnv) (cfg : PwConfig) (p : PwProgram) (autostart : Bool) :
    PwDaemon lfw :=
  { cfg, prog := stageFlowRunState p autostart
    cards :=
      (programBackendsDiag env (fun _ _ => none) (stageFlowRunState p autostart) fun _ => .reset).1 }

/-- **A daemon that has started is running.** -/
theorem running_startup {env : LoadEnv} (hdepth : env.depth ≤ flowTableRows) {cfg : PwConfig}
    {p : PwProgram} (h : pwFlowCompile cfg = .ok p) {autostart : Bool}
    (hok : (programBackendsDiag env (fun _ _ => none) (stageFlowRunState p autostart)
      fun _ => (.reset : CardState lfw)).2 = none) :
    Running env (startDaemon lfw env cfg p autostart) := by
  refine ⟨sound_of_compile h autostart, allHold_programBackendsDiag hdepth hok ?_⟩
  intro ci cp _ _ i _
  rfl

/-- What a load leaves behind. -/
structure LoadLaw (parse : String → Except PwFailure PwConfig) (env : LoadEnv) (faults : LoadFaults)
    (d : PwDaemon lfw) (yaml : Option String) : Prop where
  /-- A load that fails leaves the daemon's view alone. -/
  view : ∀ message, (doConfigLoad parse env faults d yaml).2 = .error message →
    (doConfigLoad parse env faults d yaml).1.cfg = d.cfg ∧
    (doConfigLoad parse env faults d yaml).1.prog = d.prog ∧
    (doConfigLoad parse env faults d yaml).1.testYaml = d.testYaml
  /-- One that fails before it stages leaves the cards alone too, and they run the program
  as it was. -/
  refused : ∀ e, prepareLoad parse d yaml = .error e →
    (doConfigLoad parse env faults d yaml).1.cards = d.cards ∧
    ∀ ci cp, env.isOpen ci = true → d.prog.perCard[ci]? = some cp →
      CardRuns env.depth cp ((doConfigLoad parse env faults d yaml).1.cards ci)
  /-- After one that fails to stage and rolls back, the cards run the program as it was, if
  no rule past those of the program was committed. -/
  restored : ∀ text newCfg newProg f, prepareLoad parse d yaml = .ok (text, newCfg, newProg) →
    (stageNew env faults d newProg).2 = some f → (stageOld env faults d newProg).2 = none →
    StageClean env faults d.prog newProg →
    ∀ ci cp, env.isOpen ci = true → d.prog.perCard[ci]? = some cp →
      CardRuns env.depth cp ((doConfigLoad parse env faults d yaml).1.cards ci)
  /-- After one that succeeds, the daemon has the new program with every flow idle, and the
  cards hold it exactly if none has fewer rules than before. -/
  loaded : ∀ text newCfg newProg, prepareLoad parse d yaml = .ok (text, newCfg, newProg) →
    (stageNew env faults d newProg).2 = none →
    (doConfigLoad parse env faults d yaml).1.cfg = newCfg ∧
    (doConfigLoad parse env faults d yaml).1.prog = newProg ∧
    (doConfigLoad parse env faults d yaml).1.testYaml = some text ∧
    (∀ cp ∈ newProg.perCard, ∀ row ∈ cp.flowRows, row.decoded.valid = false) ∧
    (AllHold env newProg (doConfigLoad parse env faults d yaml).1.cards ↔
      RulesGrow env d.prog newProg) ∧
    (RulesGrow env d.prog newProg →
      ∀ ci cp, env.isOpen ci = true → newProg.perCard[ci]? = some cp →
        CardRuns env.depth cp ((doConfigLoad parse env faults d yaml).1.cards ci))

/-- **A load is atomic**, as far as rules are concerned on the condition that no card is
left with rules past those of the program it is to run: for every running daemon, payload
and pattern of faults. -/
theorem config_load_atomic (hlfw : lfw ≤ 31) (parse : String → Except PwFailure PwConfig)
    {env : LoadEnv} (hdepth : env.depth ≤ flowTableRows) (faults : LoadFaults) {d : PwDaemon lfw}
    (hrun : Running env d) (yaml : Option String) : LoadLaw parse env faults d yaml where
  view message hreply := by
    rw [doConfigLoad] at hreply ⊢
    split
    · exact ⟨rfl, rfl, rfl⟩
    · rename_i hprep
      rw [hprep] at hreply
      dsimp only at hreply ⊢
      split
      · exact ⟨rfl, rfl, rfl⟩
      · rename_i hstage
        rw [hstage] at hreply
        cases hreply
  refused e hprep := by
    have hcards : (doConfigLoad parse env faults d yaml).1.cards = d.cards := by
      rw [doConfigLoad, hprep]
    refine ⟨hcards, ?_⟩
    intro ci cp hopen hcp
    rw [hcards]
    exact hrun.holds.runs hlfw hrun.sound hopen hcp
  restored text newCfg newProg f hprep hstage hok hclean ci cp hopen hcp := by
    have hcards : (doConfigLoad parse env faults d yaml).1.cards =
        (stageOld env faults d newProg).1 := by
      simp only [doConfigLoad, hprep, hstage]
    rw [hcards]
    exact (allHold_stageOld hdepth hrun hprep hok hclean).runs hlfw hrun.sound hopen hcp
  loaded text newCfg newProg hprep hstage := by
    have hload : (doConfigLoad parse env faults d yaml).1 =
        { cfg := newCfg, prog := newProg, testYaml := some text
          cards := (stageNew env faults d newProg).1 } := by
      simp only [doConfigLoad, hprep, hstage]
    have hiff := allHold_stageNew_iff hdepth hrun hprep hstage
    rw [hload]
    refine ⟨rfl, rfl, rfl, ?_, hiff, ?_⟩
    · obtain ⟨-, compiled, -, -, -, hcompile, rfl⟩ := prepareLoad_eq_ok hprep
      intro cp hcp row hrow
      exact idle_stageFlowRunState hcompile hcp hrow
    · intro hgrow ci cp hopen hcp
      exact (hiff.mpr hgrow).runs hlfw (sound_of_prepareLoad hprep) hopen hcp

/-! ## Loads of forward rules

One card of eight flow rows, with and without a forward from port 0 to port 1. -/

def sampleLoadEnv : LoadEnv := { depth := 8, isOpen := fun ci => ci == 0 }

def samplePlainConfig : PwConfig := { cards := [sampleCard] }

def sampleForwardConfig : PwConfig :=
  { samplePlainConfig with forwards := [{ ingressPort := 0, egressPort := 1, priority := 40 }] }

/-- The program of a configuration that compiles. -/
def samplePrograms (cfg : PwConfig) : PwProgram := (pwFlowCompile cfg).toOption.getD {}

theorem compile_samplePrograms {cfg : PwConfig}
    (h : okAnd (pwFlowCompile cfg) (fun _ => true) = true) :
    pwFlowCompile cfg = .ok (samplePrograms cfg) := by
  obtain ⟨p, hp, -⟩ := exists_of_okAnd h
  rw [samplePrograms, hp]
  rfl

/-- A load that adds the forward. -/
theorem config_load_atomic_sample :
    LoadLaw (fun _ => .ok { forwards := sampleForwardConfig.forwards }) sampleLoadEnv {}
      (startDaemon 5 sampleLoadEnv samplePlainConfig (samplePrograms samplePlainConfig) false)
      (some "forwards:\n  - ingress_port: 0\n    egress_port: 1\n") ∧
    (doConfigLoad (fun _ => .ok { forwards := sampleForwardConfig.forwards }) sampleLoadEnv {}
      (startDaemon 5 sampleLoadEnv samplePlainConfig (samplePrograms samplePlainConfig) false)
      (some "forwards:\n  - ingress_port: 0\n    egress_port: 1\n")).2 = .ok 0 1 := by
  refine ⟨config_load_atomic (by decide) _ (by decide) _ ?_ _, by decide +kernel⟩
  exact running_startup (by decide) (compile_samplePrograms (by decide +kernel)) (by decide +kernel)

/-- **A load leaves a rule of the old program.**  The new configuration has no forward; the
load succeeds, and the card still forwards. -/
theorem stale_forward_survives_load :
    Running sampleLoadEnv (startDaemon 5 sampleLoadEnv sampleForwardConfig
      (samplePrograms sampleForwardConfig) false) ∧
    (doConfigLoad (fun _ => .ok {}) sampleLoadEnv {}
      (startDaemon 5 sampleLoadEnv sampleForwardConfig (samplePrograms sampleForwardConfig) false)
      (some "forwards: []")).2 = .ok 0 0 ∧
    ((doConfigLoad (fun _ => .ok {}) sampleLoadEnv {}
      (startDaemon 5 sampleLoadEnv sampleForwardConfig (samplePrograms sampleForwardConfig) false)
      (some "forwards: []")).1.cards 0).csr.tables.eff { valid := true } (fun _ => 0) 0 =
      { hit := true, action := .forwardPort, egressPort := 1 } ∧
    ((samplePrograms samplePlainConfig).perCard.map fun cp =>
      (cp.tables 5).eff { valid := true } (fun _ => 0) 0) = [{}] := by
  refine ⟨?_, by decide +kernel, by decide +kernel, by decide +kernel⟩
  exact running_startup (by decide) (compile_samplePrograms (by decide +kernel)) (by decide +kernel)

end PacketWyrm
