import PacketWyrm.TxRows

/-!
# One flow in the place of another

Two flows that say the same to the compiler can stand in each other's place: the program is the
same.  What the compiler looks at is the number, the ports, how the flow is received, its row, its
key, and what it takes from the key mask.

## Main definitions

* `CompilesAlike` — all that the compiler looks at is the same.

## Main results

* `pwFlowCompile_set` — the program with one flow replaced by such another.
-/

namespace PacketWyrm

open Lib

/-- All that the compiler looks at in a flow is the same. -/
structure CompilesAlike (f f' : PwFlow) : Prop where
  id : f'.id = f.id
  tx : f'.txGlobalPort = f.txGlobalPort
  rx : f'.rxGlobalPort = f.rxGlobalPort
  background : f'.background = f.background
  classifyHeader : f'.classifyHeader = f.classifyHeader
  row : ∀ egress lfid same, txRow f' egress lfid same = txRow f egress lfid same
  key : pwFcHashWords f' = pwFcHashWords f
  relax : ∀ mask, pwFcRelaxMask mask f' = pwFcRelaxMask mask f

/-- An element of a list, and the list with another one in its place. -/
theorem exists_split_of_getElem? {α : Type} {l : List α} {i : ℕ} {a : α} (h : l[i]? = some a) :
    ∃ pre post, l = pre ++ a :: post ∧ ∀ b, l.set i b = pre ++ b :: post := by
  obtain ⟨hi, rfl⟩ := List.getElem?_eq_some_iff.mp h
  have hset (b : α) : l.set i b = l.take i ++ b :: l.drop (i + 1) := by
    rw [List.set_eq_take_append_cons_drop, if_pos hi]
  refine ⟨l.take i, l.drop (i + 1), ?_, hset⟩
  rw [← hset, List.set_getElem_self]

section Replace

variable {cfg : PwConfig} {f f' : PwFlow} (h : CompilesAlike f f')

include h

theorem compileOneFlow_congr (out : PwProgram) :
    compileOneFlow cfg out f' = compileOneFlow cfg out f := by
  have hside (out : PwProgram) (rx : PwPortRef) (lfid : BitVec 32) (same : Bool)
      (row : PwfpgaFlowConfig) :
      compileRxSide out f' rx lfid same row = compileRxSide out f rx lfid same row := by
    simp only [compileRxSide, compileHeaderClassify, h.key, h.classifyHeader, h.id]
  simp only [compileOneFlow, h.tx, h.rx, h.background, h.id, h.row, hside]

theorem relaxesCard_congr (c : BitVec 16) : relaxesCard cfg c f' = relaxesCard cfg c f := by
  rw [relaxesCard, relaxesCard, h.classifyHeader, h.rx]

variable {i : ℕ} (hi : cfg.flows[i]? = some f)

include hi

theorem cardHashMask_set (c : BitVec 16) :
    cardHashMask { cfg with flows := cfg.flows.set i f' } c = cardHashMask cfg c := by
  obtain ⟨pre, post, hsplit, hset⟩ := exists_split_of_getElem? hi
  have hcfg (l : List PwFlow) : cardHashMask { cfg with flows := l } c =
      (l.filter (relaxesCard cfg c)).foldl pwFcRelaxMask (fun _ => 0xFFFFFFFF) := rfl
  rw [hcfg, hset f', cardHashMask, hsplit, List.filter_append, List.filter_append,
    List.filter_cons, List.filter_cons, relaxesCard_congr h]
  split
  · rw [List.foldl_append, List.foldl_append, List.foldl_cons, List.foldl_cons, h.relax]
  · rfl

theorem hashPostPass_set (cp : PwCardProgram) :
    hashPostPass { cfg with flows := cfg.flows.set i f' } cp = hashPostPass cfg cp := by
  rw [hashPostPass, hashPostPass, cardHashMask_set h hi]

theorem compileFlows_set (out : PwProgram) :
    (cfg.flows.set i f').foldlM (compileOneFlow cfg) out =
      cfg.flows.foldlM (compileOneFlow cfg) out := by
  obtain ⟨pre, post, hsplit, hset⟩ := exists_split_of_getElem? hi
  rw [hset f', hsplit, List.foldlM_append, List.foldlM_append]
  congr 1
  funext mid
  rw [List.foldlM_cons, List.foldlM_cons, compileOneFlow_congr h]

/-- A configuration stays valid. -/
theorem ValidConfig.set (hv : ValidConfig cfg) (hf' : f'.Valid cfg) :
    ValidConfig { cfg with flows := cfg.flows.set i f' } := by
  obtain ⟨pre, post, hsplit, hset⟩ := exists_split_of_getElem? hi
  have hids : (cfg.flows.set i f').map PwFlow.id = cfg.flows.map PwFlow.id := by
    rw [hset f', hsplit, List.map_append, List.map_append, List.map_cons, List.map_cons, h.id]
  have hflows : (cfg.flows.set i f').Pairwise fun f g => f.id ≠ g.id := by
    have := List.pairwise_map.mpr hv.flows
    rw [← hids] at this
    exact List.pairwise_map.mp this
  have hflow : ∀ g ∈ cfg.flows.set i f', g.Valid cfg := by
    intro g hg
    rcases List.mem_or_eq_of_mem_set hg with hg | rfl
    · exact hv.flow g hg
    · exact hf'
  exact {
    cards := hv.cards, globalPorts := hv.globalPorts, localPorts := hv.localPorts
    lifs := hv.lifs
    lif := fun l hl => ⟨(hv.lif l hl).name, (hv.lif l hl).netns, (hv.lif l hl).port⟩
    flows := hflows
    flow := fun g hg => ⟨(hflow g hg).tx, (hflow g hg).rx, (hflow g hg).logicalIf,
      (hflow g hg).frameLen, (hflow g hg).rate, (hflow g hg).raw, (hflow g hg).background⟩
    forwards := hv.forwards }

/-- **One flow in the place of another that says the same.** -/
theorem pwFlowCompile_set {p : PwProgram} (hp : pwFlowCompile cfg = .ok p)
    (hf' : f'.Valid cfg) :
    pwFlowCompile { cfg with flows := cfg.flows.set i f' } = .ok p := by
  obtain ⟨S⟩ := pwFlowCompile_eq_ok_iff.mp hp
  refine pwFlowCompile_eq_ok_iff.mpr ⟨?_⟩
  exact {
    afterFlows := S.afterFlows, afterPunt := S.afterPunt, afterRules := S.afterRules
    valid := S.valid.set h hi hf'
    flows := (compileFlows_set h hi _).trans S.flows
    punt := S.punt, forwards := S.forwards
    hash := S.hash.imp fun x y hxy => (hashPostPass_set h hi x).trans hxy
    metas := S.metas }

end Replace

end PacketWyrm
