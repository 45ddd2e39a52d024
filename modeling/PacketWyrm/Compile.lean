import PacketWyrm.FlowCompiler

/-!
# What the compiler's passes do to a card

Every pass of the compiler works on the cards one update at a time.  Here each
pass is described by its effect on a single card, and the whole compiler by the
steps that a card goes through, so that later results are about one card.

## Main definitions

* `flowDelta` — what one flow adds to a card.
* `RuleSpec`, `appendSpec` — a rule as the list of its comparators, and its
  addition to a card.
* `ruleSpecs cfg c` — the rules of card `c` in emission order.

## Main results

* `compileOneFlow_spec`, `compileRules_spec` — the passes, card by card.
* `pwFlowCompile_spec` — the compiler, card by card.
-/

namespace PacketWyrm

open Lib

/-! ## Cards of a program -/

theorem cardSlot_onCard {p : PwProgram} {id : BitVec 16} {f : PwCardProgram → PwCardProgram}
    (hf : ∀ cp, cp.cardId = id → (f cp).cardId = id) (c : BitVec 16) :
    cardSlot (p.onCard id f) c = if c = id then (cardSlot p c).map f else cardSlot p c :=
  find?_modifyKey hf c p.perCard

theorem cardIds_onCard {p : PwProgram} {id : BitVec 16} {f : PwCardProgram → PwCardProgram}
    (hf : ∀ cp, cp.cardId = id → (f cp).cardId = id) :
    (p.onCard id f).perCard.map PwCardProgram.cardId = p.perCard.map PwCardProgram.cardId :=
  map_key_modifyKey hf p.perCard

@[simp] theorem flowMeta_onCard {p : PwProgram} {id : BitVec 16}
    {f : PwCardProgram → PwCardProgram} : (p.onCard id f).flowMeta = p.flowMeta := rfl

theorem cardId_of_cardSlot {p : PwProgram} {c : BitVec 16} (cp : PwCardProgram)
    (h : cardSlot p c = some cp) : cp.cardId = c := by
  simpa using List.find?_some h

theorem exists_cardSlot_of_mem {p : PwProgram} {c : BitVec 16}
    (h : c ∈ p.perCard.map PwCardProgram.cardId) : ∃ cp, cardSlot p c = some cp := by
  obtain ⟨cp, hcp, hid⟩ := List.mem_map.mp h
  rw [← Option.isSome_iff_exists, cardSlot, List.find?_isSome]
  exact ⟨cp, hcp, by simpa using hid⟩

@[simp] theorem cardSlot_withMeta (p : PwProgram) (m : List PwFlowMeta) (c : BitVec 16) :
    cardSlot { p with flowMeta := m } c = cardSlot p c := rfl

/-- `out'` is `out` with the program of every card `c` transformed by `g c`. -/
structure CardWise (out out' : PwProgram) (g : BitVec 16 → PwCardProgram → PwCardProgram) :
    Prop where
  slot : ∀ c, cardSlot out' c = (cardSlot out c).map (g c)
  ids : out'.perCard.map PwCardProgram.cardId = out.perCard.map PwCardProgram.cardId

namespace CardWise

variable {p q r : PwProgram} {g h : BitVec 16 → PwCardProgram → PwCardProgram}

theorem refl (p : PwProgram) : CardWise p p (fun _ cp => cp) :=
  ⟨fun c => by simp, rfl⟩

theorem trans (hpq : CardWise p q g) (hqr : CardWise q r h) :
    CardWise p r (fun c cp => h c (g c cp)) := by
  refine ⟨fun c => ?_, hqr.ids.trans hpq.ids⟩
  rw [hqr.slot, hpq.slot, Option.map_map]
  rfl

theorem onCard {id : BitVec 16} {f : PwCardProgram → PwCardProgram}
    (hf : ∀ cp, cp.cardId = id → (f cp).cardId = id) :
    CardWise p (p.onCard id f) (fun c cp => if c = id then f cp else cp) := by
  refine ⟨fun c => ?_, cardIds_onCard hf⟩
  rw [cardSlot_onCard hf]
  by_cases hc : c = id
  · simp [hc]
  · simp [hc]

theorem congr (hp : CardWise p q g) (hg : ∀ c cp, cardSlot p c = some cp → g c cp = h c cp) :
    CardWise p q h := by
  refine ⟨fun c => ?_, hp.ids⟩
  rw [hp.slot]
  cases hc : cardSlot p c with
  | none => rfl
  | some cp => simp [hg c cp hc]

/-- Storing a new program of a card, read and changed outside. -/
theorem replace {id : BitVec 16} {cp cp' : PwCardProgram} {f : PwCardProgram → PwCardProgram}
    (hslot : cardSlot p id = some cp) (hcp : cp' = f cp) (hid : cp'.cardId = id) :
    CardWise p (p.onCard id (fun _ => cp')) (fun c cp => if c = id then f cp else cp) := by
  refine (onCard (f := fun _ => cp') fun _ _ => hid).congr fun c x hx => ?_
  by_cases hc : c = id
  · rw [hc, hslot] at hx
    obtain rfl := Option.some.inj hx
    simp [hc, hcp]
  · simp [hc]

theorem withMeta (hp : CardWise p q g) (m : List PwFlowMeta) :
    CardWise p { q with flowMeta := m } g :=
  ⟨hp.slot, hp.ids⟩

end CardWise

/-! ## Flows -/

/-- What the receive side of a flow adds to card `c`. -/
def rxDelta (f : PwFlow) (rx : PwPortRef) (rxLfid : BitVec 32) (sameCard : Bool)
    (row : PwfpgaFlowConfig) (c : BitVec 16) (cp : PwCardProgram) : PwCardProgram :=
  if c = rx.cardId then
    { cp with
      flowRows := cp.flowRows ++ (if sameCard then [] else [rxRow row rx.localPortId rxLfid])
      mapEntries := cp.mapEntries ++
        (if f.classifyHeader then [] else [{ flowId := f.id, localFlowId := rxLfid }])
      hashEntries := cp.hashEntries ++
        (if f.classifyHeader then
          [{ index := 0, keyWord := pwFcHashWords f, localFlowId := rxLfid }] else []) }
  else cp

/-- What a flow adds to card `c`, given its resolved ports and slots: a
transmit row on its own card, and the receive side unless it is a background
flow. -/
def flowDelta (f : PwFlow) (tx rx : PwPortRef) (txLfid rxLfid : BitVec 32) (c : BitVec 16)
    (cp : PwCardProgram) : PwCardProgram :=
  let sameCard := tx.cardId == rx.cardId
  let row := txRow f tx.localPortId txLfid sameCard
  let cp := if c = tx.cardId then appendFlow cp row else cp
  if f.background then cp else rxDelta f rx rxLfid sameCard row c cp

/-- The resolved ports and the slots of a flow, as the compiler derives them
from the program it extends. -/
structure FlowPlan (cfg : PwConfig) (out : PwProgram) (f : PwFlow) where
  tx : PwPortRef
  rx : PwPortRef
  txCp : PwCardProgram
  rxCp : PwCardProgram
  tx_eq : pwConfigResolvePort cfg f.txGlobalPort = some tx
  rx_eq : pwConfigResolvePort cfg f.rxGlobalPort = some rx
  txCp_eq : cardSlot out tx.cardId = some txCp
  rxCp_eq : cardSlot out rx.cardId = some rxCp

namespace FlowPlan

variable {cfg : PwConfig} {out : PwProgram} {f : PwFlow} (P : FlowPlan cfg out f)

/-- Transmit and receive port are on one card. -/
def sameCard : Bool := P.tx.cardId == P.rx.cardId

/-- The flow's transmit slot. -/
def txLfid : BitVec 32 := BitVec.ofNat 32 P.txCp.flowRows.length

/-- The flow's receive slot. -/
def rxLfid : BitVec 32 :=
  if P.sameCard || f.background then P.txLfid else BitVec.ofNat 32 P.rxCp.flowRows.length

/-- The record kept for the flow. -/
def flowMeta : PwFlowMeta :=
  { globalFlowId := f.id, txCardId := P.tx.cardId, rxCardId := P.rx.cardId
    txLocalFlowId := P.txLfid, rxLocalFlowId := P.rxLfid
    latencyValid := P.sameCard && !f.background, rxSlotValid := !f.background }

/-- The capacity checks that stand between a plan and the extended program. -/
structure Fits : Prop where
  txRows : P.txCp.flowRows.length < flowTableRows
  rxRows : P.sameCard = false → f.background = false → P.rxCp.flowRows.length < flowTableRows
  flowId : f.background = false → f.classifyHeader = false → f.id.toNat < flowidMapDepth
  hash : f.background = false → f.classifyHeader = true → P.rxCp.hashEntries.length < hashDepth

/-- What the flow adds to card `c`. -/
def delta (c : BitVec 16) (cp : PwCardProgram) : PwCardProgram :=
  flowDelta f P.tx P.rx P.txLfid P.rxLfid c cp

end FlowPlan

section OneFlow

variable {cfg : PwConfig} {out out' : PwProgram} {f : PwFlow}

/-- The receive side of a flow: what it does to each card. -/
theorem compileRxSide_spec {rx : PwPortRef} {rxLfid : BitVec 32} {sameCard : Bool}
    {row : PwfpgaFlowConfig} (h : compileRxSide out f rx rxLfid sameCard row = .ok out') :
    CardWise out out' (rxDelta f rx rxLfid sameCard row) ∧ out'.flowMeta = out.flowMeta ∧
      (f.classifyHeader = false → f.id.toNat < flowidMapDepth) ∧
      (f.classifyHeader = true →
        ∀ cp, cardSlot out rx.cardId = some cp → cp.hashEntries.length < hashDepth) := by
  simp only [compileRxSide, bind_eq_ok_iff, orFail_eq_ok_iff] at h
  obtain ⟨rxCp, hslot, h⟩ := h
  -- The program once the receive card's copy of the row is appended.
  set mid := if sameCard then out
    else out.onCard rx.cardId (fun cp => appendFlow cp (rxRow row rx.localPortId rxLfid)) with hmid
  have hrows : CardWise out mid (fun c cp =>
      if c = rx.cardId then
        { cp with
          flowRows := cp.flowRows ++ (if sameCard then [] else [rxRow row rx.localPortId rxLfid]) }
      else cp) := by
    cases sameCard with
    | true => exact (CardWise.refl out).congr fun c cp _ => by simp
    | false =>
      exact (CardWise.onCard (f := fun cp => appendFlow cp _) fun _ h => h).congr
        fun c cp _ => by simp [appendFlow]
  have hmeta : mid.flowMeta = out.flowMeta := by
    rw [hmid]
    split <;> rfl
  cases hh : f.classifyHeader with
  | true =>
    simp only [hh, if_true, bind_eq_ok_iff, compileHeaderClassify, appendHashEntry] at h
    obtain ⟨cp, hcp, h⟩ := h
    split at hcp
    · cases hcp
    · rename_i hlen
      obtain rfl := Except.ok.inj hcp
      obtain rfl := Except.ok.inj h
      have hentry : CardWise mid (mid.onCard rx.cardId (fun _ => { rxCp with
          hashEntries := rxCp.hashEntries ++
            [{ index := 0, keyWord := pwFcHashWords f, localFlowId := rxLfid }] }))
          (fun c cp => if c = rx.cardId then { cp with
            hashEntries := cp.hashEntries ++
              [{ index := 0, keyWord := pwFcHashWords f, localFlowId := rxLfid }] } else cp) := by
        refine CardWise.replace (f := fun cp => { cp with hashEntries := cp.hashEntries ++ _ })
          hslot rfl ?_
        exact cardId_of_cardSlot rxCp hslot
      refine ⟨(hrows.trans hentry).congr fun c cp _ => ?_, hmeta, by simp, fun _ cp hc => ?_⟩
      · by_cases hcr : c = rx.cardId <;> simp [rxDelta, hcr, hh]
      · have hmid' := hrows.slot rx.cardId
        rw [hslot, hc, Option.map_some, if_pos rfl] at hmid'
        obtain rfl := Option.some.inj hmid'
        simpa using hlen
  | false =>
    simp only [hh, Bool.false_eq_true, if_false, bind_eq_ok_iff, failIf_eq_ok_iff] at h
    obtain ⟨-, hid, h⟩ := h
    obtain rfl := Except.ok.inj h
    refine ⟨(hrows.trans (CardWise.onCard (f := fun cp => appendMap cp f.id rxLfid)
      fun _ h => h)).congr ?_, hmeta, by simpa using hid, by simp⟩
    intro c cp _
    by_cases hcr : c = rx.cardId
    · simp [rxDelta, hcr, hh, appendMap]
    · simp [rxDelta, hcr]

/-- **One flow, card by card.**  A flow compiles along a plan that fits, every
card is extended by its share of the flow, and the flow's record is added. -/
theorem compileOneFlow_spec (h : compileOneFlow cfg out f = .ok out') :
    ∃ P : FlowPlan cfg out f, P.Fits ∧ CardWise out out' P.delta ∧
      out'.flowMeta = out.flowMeta ++ [P.flowMeta] := by
  simp only [compileOneFlow, bind_eq_ok_iff, orFail_eq_ok_iff, failIf_eq_ok_iff] at h
  obtain ⟨tx, htx, rx, hrx, txCp, htxCp, rxCp, hrxCp, -, hcap, -, hcap', h⟩ := h
  have hrows : CardWise out (out.onCard tx.cardId (fun cp => appendFlow cp
      (txRow f tx.localPortId (BitVec.ofNat 32 txCp.flowRows.length) (tx.cardId == rx.cardId)))) _ :=
    CardWise.onCard fun _ h => h
  let P : FlowPlan cfg out f := ⟨tx, rx, txCp, rxCp, htx, hrx, htxCp, hrxCp⟩
  refine ⟨P, ?_⟩
  cases hb : f.background with
  | true =>
    rw [hb, if_pos rfl] at h
    obtain rfl := Except.ok.inj h
    refine ⟨⟨by simpa using hcap, fun _ h => ?_, fun h => ?_, fun h => ?_⟩, ?_, ?_⟩
    iterate 3 exact absurd (hb.symm.trans h) (by simp)
    · refine (hrows.withMeta _).congr fun c cp _ => ?_
      simp [FlowPlan.delta, flowDelta, hb, P, FlowPlan.txLfid]
    · simp [P, FlowPlan.flowMeta, FlowPlan.txLfid, FlowPlan.rxLfid, FlowPlan.sameCard, hb]
  | false =>
    rw [hb, if_neg (by simp)] at h
    obtain ⟨hrx, hm, hid, hlen⟩ := compileRxSide_spec h
    refine ⟨⟨by simpa using hcap, ?_, fun _ => hid, fun _ hh => ?_⟩, ?_, ?_⟩
    · intro hs _
      have hs' : (tx.cardId == rx.cardId) = false := hs
      simpa [hb, hs'] using hcap'
    · have hslot := (hrows.withMeta (out.flowMeta ++ [P.flowMeta])).slot rx.cardId
      rw [hrxCp, Option.map_some] at hslot
      have := hlen hh _ hslot
      split at this
      · exact this
      · exact this
    · refine ((hrows.withMeta _).trans hrx).congr fun c cp _ => ?_
      simp [FlowPlan.delta, flowDelta, hb, P, FlowPlan.txLfid, FlowPlan.rxLfid, FlowPlan.sameCard]
    · rw [hm]
      simp [P, FlowPlan.flowMeta, FlowPlan.txLfid, FlowPlan.rxLfid, FlowPlan.sameCard, hb]

theorem compileRxSide_total {rx : PwPortRef} {cp : PwCardProgram}
    (hslot : cardSlot out rx.cardId = some cp)
    (hid : f.classifyHeader = false → f.id.toNat < flowidMapDepth)
    (hhash : f.classifyHeader = true → cp.hashEntries.length < hashDepth) (rxLfid : BitVec 32)
    (sameCard : Bool) (row : PwfpgaFlowConfig) :
    ∃ out', compileRxSide out f rx rxLfid sameCard row = .ok out' := by
  simp only [compileRxSide, bind_eq_ok_iff, orFail_eq_ok_iff]
  -- The receive card, whether or not the flow's row was copied to it.
  obtain ⟨cp', hcp', hlen⟩ : ∃ cp', cardSlot (if sameCard then out
      else out.onCard rx.cardId (fun cp => appendFlow cp (rxRow row rx.localPortId rxLfid)))
      rx.cardId = some cp' ∧ cp'.hashEntries = cp.hashEntries := by
    cases sameCard with
    | true => exact ⟨cp, hslot, rfl⟩
    | false =>
      refine ⟨appendFlow cp (rxRow row rx.localPortId rxLfid), ?_, rfl⟩
      rw [if_neg (by simp), cardSlot_onCard (f := fun cp => appendFlow cp _) fun _ h => h,
        if_pos rfl, hslot]
      rfl
  cases hh : f.classifyHeader with
  | true =>
    have hroom : ¬hashDepth ≤ cp'.hashEntries.length := by
      rw [hlen]
      exact Nat.not_le.mpr (hhash hh)
    simp only [if_true, bind_eq_ok_iff, compileHeaderClassify, appendHashEntry]
    exact ⟨_, cp', hcp', _, if_neg hroom, rfl⟩
  | false =>
    have hroom : ¬flowidMapDepth ≤ f.id.toNat := Nat.not_le.mpr (hid hh)
    simp only [Bool.false_eq_true, if_false, bind_eq_ok_iff, failIf_eq_ok_iff]
    exact ⟨_, cp', hcp', (), decide_eq_false hroom, rfl⟩

/-- A plan that fits is carried out. -/
theorem compileOneFlow_total (P : FlowPlan cfg out f) (hfits : P.Fits) :
    ∃ out', compileOneFlow cfg out f = .ok out' := by
  have hcap : decide (flowTableRows ≤ P.txCp.flowRows.length) = false := by
    simpa using hfits.txRows
  have hcap' : (!(P.tx.cardId == P.rx.cardId) && !f.background &&
      decide (flowTableRows ≤ P.rxCp.flowRows.length)) = false := by
    cases hs : P.sameCard with
    | true =>
      have hs' : (P.tx.cardId == P.rx.cardId) = true := hs
      simp [hs']
    | false =>
      cases hb : f.background with
      | true => simp
      | false => simpa using fun _ => hfits.rxRows hs hb
  have hrx : ∀ row m, ∃ cp, cardSlot { out.onCard P.tx.cardId (fun cp => appendFlow cp row) with
      flowMeta := m } P.rx.cardId = some cp ∧ cp.hashEntries = P.rxCp.hashEntries := by
    intro row m
    rw [cardSlot_withMeta, cardSlot_onCard (f := fun cp => appendFlow cp row) fun _ h => h,
      P.rxCp_eq]
    split
    · exact ⟨appendFlow P.rxCp row, rfl, rfl⟩
    · exact ⟨P.rxCp, rfl, rfl⟩
  cases hb : f.background with
  | true =>
    simp only [compileOneFlow, bind_eq_ok_iff, orFail_eq_ok_iff, failIf_eq_ok_iff]
    exact ⟨_, P.tx, P.tx_eq, P.rx, P.rx_eq, P.txCp, P.txCp_eq, P.rxCp, P.rxCp_eq, (), hcap, (),
      hcap', by rw [hb, if_pos rfl]⟩
  | false =>
    obtain ⟨cp, hcp, hlen⟩ := hrx _ _
    obtain ⟨out', hout⟩ := compileRxSide_total hcp (hfits.flowId hb)
      (fun hh => hlen ▸ hfits.hash hb hh) _ _ _
    simp only [compileOneFlow, bind_eq_ok_iff, orFail_eq_ok_iff, failIf_eq_ok_iff]
    refine ⟨out', P.tx, P.tx_eq, P.rx, P.rx_eq, P.txCp, P.txCp_eq, P.rxCp, P.rxCp_eq, (), hcap, (),
      hcap', ?_⟩
    rw [hb, if_neg (by simp)]
    exact hout

/-- A flow has one plan. -/
theorem FlowPlan.eq (P Q : FlowPlan cfg out f) : P = Q := by
  obtain ⟨tx, rx, txCp, rxCp, htx, hrx, htxCp, hrxCp⟩ := P
  obtain ⟨tx', rx', txCp', rxCp', htx', hrx', htxCp', hrxCp'⟩ := Q
  obtain rfl := Option.some.inj (htx.symm.trans htx')
  obtain rfl := Option.some.inj (hrx.symm.trans hrx')
  obtain rfl := Option.some.inj (htxCp.symm.trans htxCp')
  obtain rfl := Option.some.inj (hrxCp.symm.trans hrxCp')
  rfl

/-- The flow-id map entry of a measured flow that is not header-classified. -/
def mapShare (f : PwFlow) (lfid : BitVec 32) : List PwFlowidMapEntry :=
  if f.background || f.classifyHeader then [] else [{ flowId := f.id, localFlowId := lfid }]

/-- The hash entry of a measured, header-classified flow. -/
def hashShare (f : PwFlow) (lfid : BitVec 32) : List PwFcHashEntry :=
  if !f.background && f.classifyHeader then
    [{ index := 0, keyWord := pwFcHashWords f, localFlowId := lfid }] else []

/-- The card gets a row of the flow, and its classification when the flow is
received here; both use the slot that is next on the card. -/
structure FlowPlan.Adds (P : FlowPlan cfg out f) (c : BitVec 16) (cp cp' : PwCardProgram)
    (row : PwfpgaFlowConfig) : Prop where
  free : cp.flowRows.length < flowTableRows
  row_eq : (c = P.tx.cardId ∧ row = txRow f P.tx.localPortId P.txLfid P.sameCard) ∨
    (c ≠ P.tx.cardId ∧ c = P.rx.cardId ∧ f.background = false ∧
      row = rxRow (txRow f P.tx.localPortId P.txLfid P.sameCard) P.rx.localPortId P.rxLfid)
  slot_eq : row.localFlowId = BitVec.ofNat 32 cp.flowRows.length
  eq : cp' = { cp with
    flowRows := cp.flowRows ++ [row]
    mapEntries := cp.mapEntries ++
      (if c = P.rx.cardId then mapShare f (BitVec.ofNat 32 cp.flowRows.length) else [])
    hashEntries := cp.hashEntries ++
      (if c = P.rx.cardId then hashShare f (BitVec.ofNat 32 cp.flowRows.length) else []) }

theorem localFlowId_txRow (f : PwFlow) (egress : BitVec 8) (lfid : BitVec 32) (same : Bool) :
    (txRow f egress lfid same).localFlowId = lfid := by
  simp only [txRow, PwfpgaFlowConfig.withInnerIp, PwfpgaFlowConfig.withEncap,
    PwfpgaFlowConfig.withModifiers, PwfpgaFlowConfig.withLengths]
  split <;> split <;> split <;> (try split) <;> rfl

/-- **What a flow does to a card**: nothing, or one row with the classification
that belongs to it. -/
theorem FlowPlan.delta_cases (P : FlowPlan cfg out f) (hfits : P.Fits) {c : BitVec 16}
    {cp : PwCardProgram} (hc : cardSlot out c = some cp) :
    (c ≠ P.tx.cardId ∧ (c = P.rx.cardId → f.background = true) ∧ P.delta c cp = cp) ∨
      ∃ row, P.Adds c cp (P.delta c cp) row := by
  by_cases ht : c = P.tx.cardId
  · -- The transmit card, which may be the receive card too.
    obtain rfl : P.txCp = cp := by
      have := P.txCp_eq
      rw [← ht, hc] at this
      exact (Option.some.inj this).symm
    refine .inr ⟨_, hfits.txRows, .inl ⟨ht, rfl⟩, localFlowId_txRow _ _ _ _, ?_⟩
    by_cases hr : c = P.rx.cardId
    · have hs : P.sameCard = true := by simp [FlowPlan.sameCard, ← ht, ← hr]
      have hlfid : P.rxLfid = P.txLfid := by simp [FlowPlan.rxLfid, hs]
      have hs' : (P.tx.cardId == P.rx.cardId) = true := hs
      cases hb : f.background <;> cases hh : f.classifyHeader <;>
        simp [FlowPlan.delta, flowDelta, rxDelta, ← ht, ← hr, hb, hh, hs, hlfid, appendFlow,
          mapShare, hashShare, FlowPlan.txLfid]
    · have hne : ¬P.tx.cardId = P.rx.cardId := ht ▸ hr
      cases hb : f.background <;>
        simp [FlowPlan.delta, flowDelta, rxDelta, ht, hne, hb, appendFlow, FlowPlan.sameCard]
  · by_cases hr : c = P.rx.cardId
    · cases hb : f.background with
      | true => exact .inl ⟨ht, fun _ => rfl, by simp [FlowPlan.delta, flowDelta, ht, hb]⟩
      | false =>
        obtain rfl : P.rxCp = cp := by
          have := P.rxCp_eq
          rw [← hr, hc] at this
          exact (Option.some.inj this).symm
        have hne : ¬P.rx.cardId = P.tx.cardId := hr ▸ ht
        have hs : P.sameCard = false := by simpa [FlowPlan.sameCard] using Ne.symm hne
        have hlfid : P.rxLfid = BitVec.ofNat 32 P.rxCp.flowRows.length := by
          simp [FlowPlan.rxLfid, hs, hb]
        have hs' : (P.tx.cardId == P.rx.cardId) = false := hs
        refine .inr ⟨_, hfits.rxRows hs hb, .inr ⟨ht, hr, hb, rfl⟩, hlfid, ?_⟩
        cases hh : f.classifyHeader <;>
          simp [FlowPlan.delta, flowDelta, rxDelta, hr, hne, hb, hh, hs, hs', mapShare, hashShare,
            hlfid]
    · refine .inl ⟨ht, fun h => absurd h hr, ?_⟩
      cases hb : f.background <;> simp [FlowPlan.delta, flowDelta, rxDelta, ht, hr, hb]

end OneFlow

/-! ## Rules -/

/-- A rule as the comparators it asks for and what it decides. -/
structure RuleSpec where
  cmps : List PwFcCmp
  udfs : List PwFcUdf
  action : PwAction
  egress : BitVec 8
  logicalIfId : BitVec 32
  priority : BitVec 8

/-- The comparators of a rule, then the rule. -/
def appendSpec (cp : PwCardProgram) (s : RuleSpec) : Except PwFailure PwCardProgram := do
  let t ← s.cmps.foldlM careCmp (cp, 0)
  let (cp, care) ← s.udfs.foldlM careUdf t
  appendFcRule cp
    { care, action := s.action, egress := s.egress, localFlowId := 0
      logicalIfId := s.logicalIfId, priority := s.priority }

/-- The rule of one punt line. -/
def puntSpec (ref : PwPortRef) (l : PwLogicalIf) (p : PuntPattern) : RuleSpec :=
  { cmps := puntCmps ref l p, udfs := puntUdfs p, action := .puntToHost, egress := 0
    logicalIfId := l.id, priority := p.prio }

/-- The rule of one forward. -/
def forwardSpec (ing egr : PwPortRef) (fr : PwForwardRule) : RuleSpec :=
  { cmps := forwardCmps ing fr, udfs := [], action := .forwardPort, egress := egr.localPortId
    logicalIfId := 0, priority := fr.priority }

/-- The rules of an interface on card `c`. -/
def lifSpecs (cfg : PwConfig) (c : BitVec 16) (l : PwLogicalIf) : List RuleSpec :=
  match pwConfigResolvePort cfg l.globalPort with
  | some ref => if c = ref.cardId then (puntPatterns l.punt).map (puntSpec ref l) else []
  | none => []

/-- The rule of a forward on card `c`. -/
def fwdSpecs (cfg : PwConfig) (c : BitVec 16) (fr : PwForwardRule) : List RuleSpec :=
  match pwConfigResolvePort cfg fr.ingressPort, pwConfigResolvePort cfg fr.egressPort with
  | some ing, some egr => if c = ing.cardId then [forwardSpec ing egr fr] else []
  | _, _ => []

/-- **The rules of a card in emission order**: interfaces, then forwards. -/
def ruleSpecs (cfg : PwConfig) (c : BitVec 16) : List RuleSpec :=
  cfg.logicalIf.flatMap (lifSpecs cfg c) ++ cfg.forwards.flatMap (fwdSpecs cfg c)

/-- The rules of `cp` with everything else of `d`. -/
def PwCardProgram.rulesOnto (cp d : PwCardProgram) : PwCardProgram :=
  { d with fcCmps := cp.fcCmps, fcUdfs := cp.fcUdfs, fcRules := cp.fcRules }

section Frame

variable (d : PwCardProgram)

private theorem careCmp_rulesOnto (t : PwCardProgram × BitVec 16) (c : PwFcCmp) :
    careCmp (t.1.rulesOnto d, t.2) c =
      (careCmp t c).map fun t => (t.1.rulesOnto d, t.2) := by
  simp only [careCmp, appendFcCmp, PwCardProgram.rulesOnto]
  cases t.1.fcCmps.idxOf? c with
  | some i => rfl
  | none => by_cases h : numCmp ≤ t.1.fcCmps.length <;> simp [h] <;> rfl

private theorem careUdf_rulesOnto (t : PwCardProgram × BitVec 16) (u : PwFcUdf) :
    careUdf (t.1.rulesOnto d, t.2) u =
      (careUdf t u).map fun t => (t.1.rulesOnto d, t.2) := by
  simp only [careUdf, appendFcUdf, PwCardProgram.rulesOnto]
  cases t.1.fcUdfs.idxOf? u with
  | some i => rfl
  | none => by_cases h : numUdf ≤ t.1.fcUdfs.length <;> simp [h] <;> rfl

/-- **Adding a rule reads and writes the comparators and the rules only.** -/
theorem appendSpec_rulesOnto (cp : PwCardProgram) (s : RuleSpec) :
    appendSpec (cp.rulesOnto d) s = (appendSpec cp s).map fun cp => cp.rulesOnto d := by
  simp only [appendSpec]
  rw [foldlM_map_state (fun t : PwCardProgram × BitVec 16 => (t.1.rulesOnto d, t.2))
    (careCmp_rulesOnto d) s.cmps (cp, 0)]
  cases s.cmps.foldlM careCmp (cp, 0) with
  | error e => rfl
  | ok t =>
    simp only [Except.map, bind, Except.bind]
    rw [foldlM_map_state (fun t : PwCardProgram × BitVec 16 => (t.1.rulesOnto d, t.2))
      (careUdf_rulesOnto d) s.udfs t]
    cases s.udfs.foldlM careUdf t with
    | error e => rfl
    | ok t =>
      simp only [Except.map, appendFcRule, PwCardProgram.rulesOnto]
      by_cases h : numRule ≤ t.1.fcRules.length <;> simp [h]

theorem appendSpecs_rulesOnto (cp : PwCardProgram) (l : List RuleSpec) :
    l.foldlM appendSpec (cp.rulesOnto d) =
      (l.foldlM appendSpec cp).map fun cp => cp.rulesOnto d :=
  foldlM_map_state (fun cp : PwCardProgram => cp.rulesOnto d) (appendSpec_rulesOnto d) l cp

end Frame

/-- A card keeps everything but its comparators and rules. -/
theorem appendSpecs_frame {cp cp' : PwCardProgram} {l : List RuleSpec}
    (h : l.foldlM appendSpec cp = .ok cp') : cp' = cp'.rulesOnto cp := by
  have hcp := appendSpecs_rulesOnto cp cp l
  rw [show cp.rulesOnto cp = cp from rfl, h] at hcp
  exact Except.ok.inj hcp

/-- Every card `c` has gone through the rules `specs c`. -/
structure RuleWise (out out' : PwProgram) (specs : BitVec 16 → List RuleSpec) : Prop where
  slot : ∀ c cp, cardSlot out c = some cp →
    ∃ cp', cardSlot out' c = some cp' ∧ (specs c).foldlM appendSpec cp = .ok cp'
  ids : out'.perCard.map PwCardProgram.cardId = out.perCard.map PwCardProgram.cardId
  metas : out'.flowMeta = out.flowMeta

namespace RuleWise

variable {p q r : PwProgram} {s t : BitVec 16 → List RuleSpec}

theorem refl (p : PwProgram) : RuleWise p p (fun _ => []) :=
  ⟨fun _ cp h => ⟨cp, h, rfl⟩, rfl, rfl⟩

theorem trans (hpq : RuleWise p q s) (hqr : RuleWise q r t) :
    RuleWise p r (fun c => s c ++ t c) := by
  refine ⟨fun c cp hc => ?_, hqr.ids.trans hpq.ids, hqr.metas.trans hpq.metas⟩
  obtain ⟨cp₁, h₁, hs⟩ := hpq.slot c cp hc
  obtain ⟨cp₂, h₂, ht⟩ := hqr.slot c cp₁ h₁
  refine ⟨cp₂, h₂, ?_⟩
  rw [List.foldlM_append, bind_eq_ok_iff]
  exact ⟨cp₁, hs, ht⟩

/-- Rules added to one card only. -/
theorem onCard {id : BitVec 16} {cp cp' : PwCardProgram} {l : List RuleSpec}
    (hslot : cardSlot p id = some cp) (h : l.foldlM appendSpec cp = .ok cp') :
    RuleWise p (p.onCard id (fun _ => cp')) (fun c => if c = id then l else []) := by
  have hid : cp'.cardId = id := by
    rw [appendSpecs_frame h]
    exact cardId_of_cardSlot cp hslot
  refine ⟨fun c x hx => ?_, cardIds_onCard fun _ _ => hid, rfl⟩
  rw [cardSlot_onCard fun _ _ => hid]
  by_cases hc : c = id
  · rw [hc, hslot] at hx
    obtain rfl := Option.some.inj hx
    exact ⟨cp', by simp [hc, hslot], by simpa [hc] using h⟩
  · exact ⟨x, by simp [hc, hx], by simp [hc]; rfl⟩

theorem congr (h : RuleWise p q s) (hs : ∀ c, s c = t c) : RuleWise p q t := by
  obtain rfl : s = t := funext hs
  exact h

/-- The card before the rules. -/
theorem before (h : RuleWise p q s) {c : BitVec 16} {y : PwCardProgram}
    (hy : cardSlot q c = some y) :
    ∃ x, cardSlot p c = some x ∧ (s c).foldlM appendSpec x = .ok y := by
  have hmem : c ∈ p.perCard.map PwCardProgram.cardId := by
    rw [← h.ids, ← cardId_of_cardSlot y hy]
    exact List.mem_map_of_mem (List.mem_of_find?_eq_some hy)
  obtain ⟨x, hx⟩ := exists_cardSlot_of_mem hmem
  obtain ⟨y', hy', hfold⟩ := h.slot c x hx
  obtain rfl := Option.some.inj (hy.symm.trans hy')
  exact ⟨x, hx, hfold⟩

end RuleWise

section RulePasses

variable {cfg : PwConfig} {out out' : PwProgram}

theorem compilePuntIf_eq_ok_iff {l : PwLogicalIf} :
    compilePuntIf cfg out l = .ok out' ↔
      ∃ ref cp cp', pwConfigResolvePort cfg l.globalPort = some ref ∧
        cardSlot out ref.cardId = some cp ∧
        ((puntPatterns l.punt).map (puntSpec ref l)).foldlM appendSpec cp = .ok cp' ∧
        out' = out.onCard ref.cardId (fun _ => cp') := by
  simp only [compilePuntIf, bind_eq_ok_iff, orFail_eq_ok_iff, List.foldlM_map]
  constructor
  · rintro ⟨ref, href, cp, hcp, cp', hcp', h⟩
    exact ⟨ref, cp, cp', href, hcp, hcp', (Except.ok.inj h).symm⟩
  · rintro ⟨ref, cp, cp', href, hcp, hcp', rfl⟩
    exact ⟨ref, href, cp, hcp, cp', hcp', rfl⟩

theorem compileForward_eq_ok_iff {fr : PwForwardRule} :
    compileForward cfg out fr = .ok out' ↔
      ∃ ing egr cp cp', pwConfigResolvePort cfg fr.ingressPort = some ing ∧
        pwConfigResolvePort cfg fr.egressPort = some egr ∧ ing.cardId = egr.cardId ∧
        cardSlot out ing.cardId = some cp ∧
        [forwardSpec ing egr fr].foldlM appendSpec cp = .ok cp' ∧
        out' = out.onCard ing.cardId (fun _ => cp') := by
  simp only [compileForward, bind_eq_ok_iff, orFail_eq_ok_iff, failIf_eq_ok_iff,
    List.foldlM_cons, List.foldlM_nil, appendSpec, forwardSpec]
  constructor
  · rintro ⟨ing, hing, egr, hegr, -, hsame, cp, hcp, ⟨cp₁, care⟩, hcmps, cp', hrule, h⟩
    exact ⟨ing, egr, cp, cp', hing, hegr, by simpa using hsame, hcp,
      ⟨cp', ⟨_, hcmps, _, rfl, hrule⟩, rfl⟩, (Except.ok.inj h).symm⟩
  · rintro ⟨ing, egr, cp, cp', hing, hegr, hsame, hcp, ⟨_, ⟨t, hcmps, t', ht', hrule⟩, h⟩, rfl⟩
    obtain rfl := Except.ok.inj h
    obtain rfl := Except.ok.inj ht'
    exact ⟨ing, hing, egr, hegr, (), by simpa using hsame, cp, hcp, t, hcmps, _, hrule, rfl⟩

theorem compilePuntIf_spec {l : PwLogicalIf} (h : compilePuntIf cfg out l = .ok out') :
    RuleWise out out' (fun c => lifSpecs cfg c l) := by
  obtain ⟨ref, cp, cp', href, hcp, hfold, rfl⟩ := compilePuntIf_eq_ok_iff.mp h
  exact (RuleWise.onCard hcp hfold).congr fun c => by simp [lifSpecs, href]

theorem compileForward_spec {fr : PwForwardRule} (h : compileForward cfg out fr = .ok out') :
    RuleWise out out' (fun c => fwdSpecs cfg c fr) := by
  obtain ⟨ing, egr, cp, cp', hing, hegr, -, hcp, hfold, rfl⟩ := compileForward_eq_ok_iff.mp h
  exact (RuleWise.onCard hcp hfold).congr fun c => by simp [fwdSpecs, hing, hegr]

/-- A pass over a list of items is the sum of what it does for each of them. -/
private theorem ruleWise_foldlM {α : Type} {step : PwProgram → α → Except PwFailure PwProgram}
    (specs : BitVec 16 → α → List RuleSpec)
    (hstep : ∀ out out' x, step out x = .ok out' → RuleWise out out' (fun c => specs c x))
    {l : List α} (h : l.foldlM step out = .ok out') :
    RuleWise out out' (fun c => l.flatMap (specs c)) := by
  refine foldlM_ok_induction (P := fun pre q => RuleWise out q fun c => pre.flatMap (specs c)) h
    (RuleWise.refl out) ?_
  intro pre x post s t _ hs ht
  exact (hs.trans (hstep s t x ht)).congr fun c => by simp

/-- **The rule passes, card by card.** -/
theorem compileRules_spec {mid : PwProgram} (hp : compilePuntRules cfg out = .ok mid)
    (hf : compileForwardRules cfg mid = .ok out') : RuleWise out out' (ruleSpecs cfg) :=
  (ruleWise_foldlM (lifSpecs cfg) (fun _ _ _ h => compilePuntIf_spec h) hp).trans
    (ruleWise_foldlM (fwdSpecs cfg) (fun _ _ _ h => compileForward_spec h) hf)

end RulePasses

/-! ## The compiler -/

/-- The program before the first flow: an empty card for every card. -/
def initProgram (cfg : PwConfig) : PwProgram :=
  { perCard := cfg.cards.map fun c => { cardId := c.id } }

/-- The three stages a card of the final program has gone through. -/
structure CardTrace (cfg : PwConfig) (flows : PwProgram) (cp : PwCardProgram) where
  afterFlows : PwCardProgram
  afterRules : PwCardProgram
  flows_eq : cardSlot flows cp.cardId = some afterFlows
  rules_eq : (ruleSpecs cfg cp.cardId).foldlM appendSpec afterFlows = .ok afterRules
  hash_eq : hashPostPass cfg afterRules = .ok cp

/-- **What the post-pass does to a card**: nothing without entries, and else it masks the keys,
finds no two alike, and places them by a seed. -/
theorem hashPostPass_cases {cfg : PwConfig} {cp cp' : PwCardProgram}
    (h : hashPostPass cfg cp = .ok cp') :
    (cp.hashEntries = [] ∧ cp' = cp) ∨
      ∃ seed placed,
        findDuplicate []
          (cp.hashEntries.map (PwFcHashEntry.masked (cardHashMask cfg cp.cardId))) = none ∧
        seedSearch (cp.hashEntries.map (PwFcHashEntry.masked (cardHashMask cfg cp.cardId))) 0
          4096 = some (seed, placed) ∧
        cp' = { cp with hashSeed := seed, hashMask := cardHashMask cfg cp.cardId
                        hashEntries := placed } := by
  simp only [hashPostPass] at h
  split at h
  · rename_i hempty
    exact .inl ⟨List.isEmpty_iff.mp hempty, (Except.ok.inj h).symm⟩
  · split at h
    · cases h
    · rename_i hdup
      split at h
      · rename_i seed placed hseed
        exact .inr ⟨seed, placed, hdup, hseed, (Except.ok.inj h).symm⟩
      · cases h

/-- The post-pass keeps everything of a card but its hash table. -/
theorem hashPostPass_frame {cfg : PwConfig} {cp cp' : PwCardProgram}
    (h : hashPostPass cfg cp = .ok cp') :
    cp' = { cp with hashSeed := cp'.hashSeed, hashMask := cp'.hashMask
                    hashEntries := cp'.hashEntries } := by
  obtain ⟨-, rfl⟩ | ⟨seed, placed, -, -, rfl⟩ := hashPostPass_cases h
  · rfl
  · rfl

namespace CardTrace

variable {cfg : PwConfig} {mid : PwProgram} {cp : PwCardProgram} (T : CardTrace cfg mid cp)

theorem flowRows_eq : cp.flowRows = T.afterFlows.flowRows := by
  have h₁ := congrArg PwCardProgram.flowRows (hashPostPass_frame T.hash_eq)
  have h₂ := congrArg PwCardProgram.flowRows (appendSpecs_frame T.rules_eq)
  exact h₁.trans h₂

theorem mapEntries_eq : cp.mapEntries = T.afterFlows.mapEntries := by
  have h₁ := congrArg PwCardProgram.mapEntries (hashPostPass_frame T.hash_eq)
  have h₂ := congrArg PwCardProgram.mapEntries (appendSpecs_frame T.rules_eq)
  exact h₁.trans h₂

/-- The entries the post-pass starts from are those of the flow pass. -/
theorem hashEntries_eq : T.afterRules.hashEntries = T.afterFlows.hashEntries := by
  have h := congrArg PwCardProgram.hashEntries (appendSpecs_frame T.rules_eq)
  exact h

theorem cardId_eq : T.afterRules.cardId = cp.cardId := by
  have h := congrArg PwCardProgram.cardId (hashPostPass_frame T.hash_eq)
  exact h.symm

/-- The comparators and rules are final before the post-pass. -/
theorem rules_final : cp.fcCmps = T.afterRules.fcCmps ∧ cp.fcUdfs = T.afterRules.fcUdfs ∧
    cp.fcRules = T.afterRules.fcRules := by
  have h₁ := congrArg PwCardProgram.fcCmps (hashPostPass_frame T.hash_eq)
  have h₂ := congrArg PwCardProgram.fcUdfs (hashPostPass_frame T.hash_eq)
  have h₃ := congrArg PwCardProgram.fcRules (hashPostPass_frame T.hash_eq)
  exact ⟨h₁, h₂, h₃⟩

end CardTrace

theorem cardIds_initProgram (cfg : PwConfig) :
    (initProgram cfg).perCard.map PwCardProgram.cardId = cfg.cards.map PwCard.id := by
  simp [initProgram]

theorem compileFlows_eq_ok_iff {cfg : PwConfig} {out out' : PwProgram} :
    compileFlows cfg out = .ok out' ↔ cfg.flows.foldlM (compileOneFlow cfg) out = .ok out' :=
  foldlM_zipIdx_mapError_eq_ok_iff (g := blameFlow)

theorem cardIds_compileFlows {cfg : PwConfig} {out out' : PwProgram} {l : List PwFlow}
    (h : l.foldlM (compileOneFlow cfg) out = .ok out') :
    out'.perCard.map PwCardProgram.cardId = out.perCard.map PwCardProgram.cardId := by
  refine foldlM_ok_invariant
    (P := fun q => q.perCard.map PwCardProgram.cardId = out.perCard.map PwCardProgram.cardId) h
    rfl ?_
  intro f _ s t hs ht
  obtain ⟨P, -, hw, -⟩ := compileOneFlow_spec ht
  exact hw.ids.trans hs

/-- Each flow has a record, which says whether it is measured. -/
theorem rxSlotValid_compileFlows {cfg : PwConfig} {mid : PwProgram} {l : List PwFlow}
    (h : l.foldlM (compileOneFlow cfg) (initProgram cfg) = .ok mid) :
    mid.flowMeta.map PwFlowMeta.rxSlotValid = l.map fun f => !f.background := by
  refine foldlM_ok_induction (P := fun pre q =>
    q.flowMeta.map PwFlowMeta.rxSlotValid = pre.map fun f => !f.background) h rfl ?_
  intro pre f post q q₁ _ hq hq₁
  obtain ⟨P, -, -, hmeta⟩ := compileOneFlow_spec hq₁
  rw [hmeta, List.map_append, List.map_append, hq]
  rfl

/-! ## Slots -/

/-- The classification of a card points at rows of the card. -/
structure SlotsInRange (cp : PwCardProgram) : Prop where
  rows : cp.flowRows.length ≤ flowTableRows
  hash : ∀ e ∈ cp.hashEntries, e.localFlowId.toNat < cp.flowRows.length
  map : ∀ m ∈ cp.mapEntries, m.localFlowId.toNat < cp.flowRows.length

theorem toNat_ofNat_length {l : List PwfpgaFlowConfig} (h : l.length < flowTableRows) :
    (BitVec.ofNat 32 l.length).toNat = l.length := by
  have : l.length < 64 := h
  rw [BitVec.toNat_ofNat]
  omega

theorem mem_mapShare {f : PwFlow} {lfid : BitVec 32} {m : PwFlowidMapEntry}
    (h : m ∈ mapShare f lfid) : m.localFlowId = lfid := by
  rw [mapShare] at h
  split at h
  · simp at h
  · rw [List.mem_singleton.mp h]

theorem mem_hashShare {f : PwFlow} {lfid : BitVec 32} {e : PwFcHashEntry}
    (h : e ∈ hashShare f lfid) : e.localFlowId = lfid := by
  rw [hashShare] at h
  split at h
  · rw [List.mem_singleton.mp h]
  · simp at h

private theorem mem_of_mem_ite {α : Type} {c : Prop} [Decidable c] {l : List α} {x : α}
    (h : x ∈ if c then l else []) : x ∈ l := by
  split at h
  · exact h
  · simp at h

theorem slotsInRange_delta {cfg : PwConfig} {out : PwProgram} {f : PwFlow}
    (P : FlowPlan cfg out f) (hfits : P.Fits) {c : BitVec 16} {cp : PwCardProgram}
    (hc : cardSlot out c = some cp) (H : SlotsInRange cp) : SlotsInRange (P.delta c cp) := by
  rcases P.delta_cases hfits hc with ⟨-, -, hsame⟩ | ⟨row, hadd⟩
  · rwa [hsame]
  · have hfree := hadd.free
    have hnew : (BitVec.ofNat 32 cp.flowRows.length).toNat < cp.flowRows.length + 1 := by
      rw [toNat_ofNat_length hfree]
      exact Nat.lt_succ_self _
    rw [hadd.eq]
    refine ⟨by simpa using Nat.succ_le_of_lt hfree, fun e he => ?_, fun m hm => ?_⟩
    · simp only [List.length_append, List.length_singleton]
      rcases List.mem_append.mp he with he | he
      · exact Nat.lt_succ_of_lt (H.hash e he)
      · rw [mem_hashShare (mem_of_mem_ite he)]
        exact hnew
    · simp only [List.length_append, List.length_singleton]
      rcases List.mem_append.mp hm with hm | hm
      · exact Nat.lt_succ_of_lt (H.map m hm)
      · rw [mem_mapShare (mem_of_mem_ite hm)]
        exact hnew

/-- **The flow pass keeps slots in range.** -/
theorem slotsInRange_flows {cfg : PwConfig} {mid : PwProgram} {l : List PwFlow}
    (h : l.foldlM (compileOneFlow cfg) (initProgram cfg) = .ok mid) {c : BitVec 16}
    {cp : PwCardProgram} (hc : cardSlot mid c = some cp) : SlotsInRange cp := by
  refine foldlM_ok_invariant (P := fun q => ∀ c cp, cardSlot q c = some cp → SlotsInRange cp)
    h ?_ ?_ c cp hc
  · intro c cp hc
    obtain ⟨card, -, rfl⟩ := List.mem_map.mp (List.mem_of_find?_eq_some hc)
    exact ⟨by simp, by simp, by simp⟩
  · intro f _ s t hs ht c cp' hc
    obtain ⟨P, hfits, hw, -⟩ := compileOneFlow_spec ht
    rw [hw.slot] at hc
    obtain ⟨cp, hcp, rfl⟩ := Option.map_eq_some_iff.mp hc
    exact slotsInRange_delta P hfits hcp (hs c cp hcp)

theorem nodup_cardIds {cfg : PwConfig} (h : ValidConfig cfg) : (cfg.cards.map PwCard.id).Nodup :=
  List.pairwise_map.mpr (h.cards.imp fun h => h.1)

/-- The stages of the compiler. -/
structure CompileStages (cfg : PwConfig) (p : PwProgram) where
  afterFlows : PwProgram
  afterPunt : PwProgram
  afterRules : PwProgram
  valid : ValidConfig cfg
  flows : cfg.flows.foldlM (compileOneFlow cfg) (initProgram cfg) = .ok afterFlows
  punt : compilePuntRules cfg afterFlows = .ok afterPunt
  forwards : compileForwardRules cfg afterPunt = .ok afterRules
  hash : List.Forall₂ (fun x y => hashPostPass cfg x = .ok y) afterRules.perCard p.perCard
  metas : p.flowMeta = afterRules.flowMeta

/-- A configuration compiles exactly when all stages succeed. -/
theorem pwFlowCompile_eq_ok_iff {cfg : PwConfig} {p : PwProgram} :
    pwFlowCompile cfg = .ok p ↔ Nonempty (CompileStages cfg p) := by
  simp only [pwFlowCompile, bind_eq_ok_iff, mapError_eq_ok_iff]
  constructor
  · rintro ⟨⟨⟩, hv, mid, hmid, afterPunt, hpunt, afterFwd, hfwd, perCard, hhash, h⟩
    obtain rfl := Except.ok.inj h
    exact ⟨mid, afterPunt, afterFwd, pwConfigValidate_eq_ok_iff.mp hv,
      compileFlows_eq_ok_iff.mp hmid, hpunt, hfwd, mapM_eq_ok_iff.mp hhash, rfl⟩
  · rintro ⟨S⟩
    refine ⟨(), pwConfigValidate_eq_ok_iff.mpr S.valid, S.afterFlows,
      compileFlows_eq_ok_iff.mpr S.flows, S.afterPunt, S.punt, S.afterRules, S.forwards, p.perCard,
      mapM_eq_ok_iff.mpr S.hash, ?_⟩
    rw [← S.metas]
    rfl

namespace CompileStages

variable {cfg : PwConfig} {p : PwProgram} (S : CompileStages cfg p)

theorem rules : RuleWise S.afterFlows S.afterRules (ruleSpecs cfg) :=
  compileRules_spec S.punt S.forwards

theorem cardIds_afterFlows :
    S.afterFlows.perCard.map PwCardProgram.cardId = cfg.cards.map PwCard.id :=
  (cardIds_compileFlows S.flows).trans (cardIds_initProgram cfg)

theorem cardIds_afterRules :
    S.afterRules.perCard.map PwCardProgram.cardId = cfg.cards.map PwCard.id :=
  S.rules.ids.trans S.cardIds_afterFlows

theorem nodup_afterRules : (S.afterRules.perCard.map PwCardProgram.cardId).Nodup := by
  rw [S.cardIds_afterRules]
  exact nodup_cardIds S.valid

include S in
theorem cardIds : p.perCard.map PwCardProgram.cardId = cfg.cards.map PwCard.id := by
  refine (map_eq_map_of_forall₂ (S.hash.imp fun x y hxy => ?_)).trans S.cardIds_afterRules
  rw [hashPostPass_frame hxy]

/-- The trace of a card of the final program. -/
theorem trace {cp : PwCardProgram} (hcp : cp ∈ p.perCard) :
    Nonempty (CardTrace cfg S.afterFlows cp) := by
  -- The card before the post-pass, and the one before the rules.
  obtain ⟨x, hx, hpost⟩ := exists_left_of_forall₂ S.hash hcp
  have hid : x.cardId = cp.cardId := by rw [hashPostPass_frame hpost]
  have hslot : cardSlot S.afterRules cp.cardId = some x :=
    (find?_eq_some_iff_mem S.nodup_afterRules).mpr ⟨hx, hid⟩
  obtain ⟨y, hy, hfold⟩ := S.rules.before hslot
  exact ⟨⟨y, x, hy, hfold, hpost⟩⟩

end CompileStages

/-- **The compiler, card by card.**  A configuration that compiles is valid, the
cards of the program are those of the configuration, and each has gone through
the flows, its rules and the hash post-pass. -/
theorem pwFlowCompile_spec {cfg : PwConfig} {p : PwProgram} (h : pwFlowCompile cfg = .ok p) :
    ValidConfig cfg ∧ p.perCard.map PwCardProgram.cardId = cfg.cards.map PwCard.id ∧
    ∃ mid, cfg.flows.foldlM (compileOneFlow cfg) (initProgram cfg) = .ok mid ∧
      p.flowMeta = mid.flowMeta ∧ ∀ cp ∈ p.perCard, Nonempty (CardTrace cfg mid cp) := by
  obtain ⟨S⟩ := pwFlowCompile_eq_ok_iff.mp h
  exact ⟨S.valid, S.cardIds, S.afterFlows, S.flows, S.metas.trans S.rules.metas,
    fun cp hcp => S.trace hcp⟩

/-- The card of a port that resolves has a program at every stage. -/
theorem exists_cardSlot_of_resolve (cfg : PwConfig) {q : PwProgram}
    (hids : q.perCard.map PwCardProgram.cardId = cfg.cards.map PwCard.id) {gp : BitVec 16}
    {ref : PwPortRef} (h : pwConfigResolvePort cfg gp = some ref) :
    ∃ cp, cardSlot q ref.cardId = some cp := by
  obtain ⟨c, hc, hid, -⟩ := exists_of_resolvePort h
  have hmem : ref.cardId ∈ q.perCard.map PwCardProgram.cardId := by
    rw [hids, ← hid]
    exact List.mem_map_of_mem hc
  exact exists_cardSlot_of_mem hmem

end PacketWyrm
