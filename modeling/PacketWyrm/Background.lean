import PacketWyrm.KeyMask

/-!
# Adding a background flow

A background flow only transmits: it takes one row on its own card, and the
slots that follow it move up by one.  Nothing else of any card should depend on
it, but the hash post-pass lets every header-classified flow relax the key mask
of its receive card, background or not.

The program with the flow and the one without it are compared pass by pass.

## Main definitions

* `shiftLfid pos` — the renumbering: slots from `pos` on move up by one.
* `SameRx` — two programs of a card that classify alike, up to renumbering.
* `Transparent` — adding the flow compiles and changes no classification.

## Main results

* `flowSim_foldlM`, `ruleSim_of_rules`, `hashPostPass_renumber` — the passes.
* `background_transparent_iff` — exactly when the flow is transparent.
* `background_flow_rejected` — a flow that is not.
-/

namespace PacketWyrm

open Lib

/-! ## Renumbering -/

/-- Slots from `pos` on move up by one. -/
def shiftLfid (pos : ℕ) (i : BitVec 32) : BitVec 32 := if i.toNat < pos then i else i + 1

/-- A hash entry with its slot renumbered. -/
def PwFcHashEntry.renumber (ρ : BitVec 32 → BitVec 32) (e : PwFcHashEntry) : PwFcHashEntry :=
  { e with localFlowId := ρ e.localFlowId }

/-- A map entry with its slot renumbered. -/
def PwFlowidMapEntry.renumber (ρ : BitVec 32 → BitVec 32) (m : PwFlowidMapEntry) :
    PwFlowidMapEntry :=
  { m with localFlowId := ρ m.localFlowId }

/-- The two programs of a card classify alike, the slots of the second being
those of the first renumbered by `ρ`. -/
structure SameRx (ρ : BitVec 32 → BitVec 32) (cp cp' : PwCardProgram) : Prop where
  cardId : cp'.cardId = cp.cardId
  cmps : cp'.fcCmps = cp.fcCmps
  udfs : cp'.fcUdfs = cp.fcUdfs
  rules : cp'.fcRules = cp.fcRules
  seed : cp'.hashSeed = cp.hashSeed
  mask : cp'.hashMask = cp.hashMask
  hash : cp'.hashEntries = cp.hashEntries.map (PwFcHashEntry.renumber ρ)
  map : cp'.mapEntries = cp.mapEntries.map (PwFlowidMapEntry.renumber ρ)

/-- The renumbering of card `c` when a row is inserted at `pos` of card `tx`. -/
def cardShift (tx : BitVec 16) (pos : ℕ) (c : BitVec 16) : BitVec 32 → BitVec 32 :=
  if c = tx then shiftLfid pos else id

theorem shiftLfid_of_lt {pos : ℕ} {i : BitVec 32} (h : i.toNat < pos) : shiftLfid pos i = i :=
  if_pos h

theorem shiftLfid_ofNat {pos n : ℕ} (hn : n < flowTableRows) (h : pos ≤ n) :
    shiftLfid pos (BitVec.ofNat 32 n) = BitVec.ofNat 32 (n + 1) := by
  have hn' : n < 64 := hn
  have hval : (BitVec.ofNat 32 n).toNat = n := by
    rw [BitVec.toNat_ofNat]
    omega
  rw [shiftLfid, if_neg (by omega)]
  apply BitVec.eq_of_toNat_eq
  rw [BitVec.toNat_add, hval, BitVec.toNat_ofNat]
  rfl

/-! ## The flow pass -/

/-- The card of the program with the flow, beside that of the program without:
the flow's card has one row more. -/
structure CardSim (tx : BitVec 16) (pos : ℕ) (c : BitVec 16) (cp cp' : PwCardProgram) : Prop where
  same : SameRx (cardShift tx pos c) cp cp'
  rows : cp'.flowRows.length = cp.flowRows.length + if c = tx then 1 else 0
  pos_le : c = tx → pos ≤ cp.flowRows.length

/-- The two programs side by side. -/
structure FlowSim (tx : BitVec 16) (pos : ℕ) (q q' : PwProgram) : Prop where
  slot : ∀ c cp, cardSlot q c = some cp → ∃ cp', cardSlot q' c = some cp' ∧ CardSim tx pos c cp cp'
  ids : q'.perCard.map PwCardProgram.cardId = q.perCard.map PwCardProgram.cardId

/-- The flow's card has a row to spare. -/
def RowSpare (tx : BitVec 16) (q : PwProgram) : Prop :=
  ∀ cp, cardSlot q tx = some cp → cp.flowRows.length < flowTableRows

section FlowPass

variable {cfg : PwConfig} {tx : BitVec 16} {pos : ℕ} {q q₁ q' : PwProgram} {g : PwFlow}

/-- Rows are only added. -/
theorem length_le_delta (P : FlowPlan cfg q g) (hfits : P.Fits) {c : BitVec 16}
    {cp : PwCardProgram} (hc : cardSlot q c = some cp) :
    cp.flowRows.length ≤ (P.delta c cp).flowRows.length := by
  rcases P.delta_cases hfits hc with ⟨-, -, hsame⟩ | ⟨row, hadd⟩
  · exact Nat.le_of_eq (by rw [hsame])
  · rw [hadd.eq]
    simp

theorem rowSpare_of_step (h : compileOneFlow cfg q g = .ok q₁) (hs : RowSpare tx q₁) :
    RowSpare tx q := by
  intro cp hcp
  obtain ⟨P, hfits, hw, -⟩ := compileOneFlow_spec h
  have hslot := hw.slot tx
  rw [hcp, Option.map_some] at hslot
  exact Nat.lt_of_le_of_lt (length_le_delta P hfits hcp) (hs _ hslot)

/-- What a flow adds to a card keeps the two programs of the card side by side,
when the slots that are next on the card are. -/
theorem CardSim.adds {c : BitVec 16} {cp cp' cp₁ cp₁' : PwCardProgram}
    (row row' : PwfpgaFlowConfig) (isRx : Bool) (H : CardSim tx pos c cp cp')
    (hfree : cp.flowRows.length < flowTableRows)
    (hcp : cp₁ = { cp with
      flowRows := cp.flowRows ++ [row]
      mapEntries := cp.mapEntries ++
        (if isRx then mapShare g (BitVec.ofNat 32 cp.flowRows.length) else [])
      hashEntries := cp.hashEntries ++
        (if isRx then hashShare g (BitVec.ofNat 32 cp.flowRows.length) else []) })
    (hcp' : cp₁' = { cp' with
      flowRows := cp'.flowRows ++ [row']
      mapEntries := cp'.mapEntries ++
        (if isRx then mapShare g (BitVec.ofNat 32 cp'.flowRows.length) else [])
      hashEntries := cp'.hashEntries ++
        (if isRx then hashShare g (BitVec.ofNat 32 cp'.flowRows.length) else []) }) :
    CardSim tx pos c cp₁ cp₁' := by
  have hnext : BitVec.ofNat 32 cp'.flowRows.length =
      cardShift tx pos c (BitVec.ofNat 32 cp.flowRows.length) := by
    rw [H.rows, cardShift]
    by_cases hc : c = tx
    · rw [if_pos hc, if_pos hc, shiftLfid_ofNat hfree (H.pos_le hc)]
    · rw [if_neg hc, if_neg hc]
      rfl
  subst hcp hcp'
  refine ⟨⟨H.same.cardId, H.same.cmps, H.same.udfs, H.same.rules, H.same.seed, H.same.mask, ?_, ?_⟩,
    ?_, fun hc => ?_⟩
  · simp only [H.same.hash, hnext, List.map_append, List.append_cancel_left_eq]
    cases isRx with
    | false => rfl
    | true =>
      simp only [if_true, hashShare]
      split <;> rfl
  · simp only [H.same.map, hnext, List.map_append, List.append_cancel_left_eq]
    cases isRx with
    | false => rfl
    | true =>
      simp only [if_true, mapShare]
      split <;> rfl
  · simp only [List.length_append, List.length_singleton, H.rows]
    omega
  · have := H.pos_le hc
    simp only [List.length_append, List.length_singleton]
    omega

/-- The card that gets a row has room for it in the program with the flow too. -/
theorem CardSim.free {P : FlowPlan cfg q g} {c : BitVec 16} {cp cp' : PwCardProgram}
    {row : PwfpgaFlowConfig} (H : CardSim tx pos c cp cp') (hadd : P.Adds c cp (P.delta c cp) row)
    (hspare : c = tx → (P.delta c cp).flowRows.length < flowTableRows) :
    cp'.flowRows.length < flowTableRows := by
  rw [H.rows]
  by_cases hc : c = tx
  · have := hspare hc
    rw [hadd.eq] at this
    simpa [hc] using this
  · simpa [hc] using hadd.free

/-- **One flow**, compiled beside the added row. -/
theorem flowSim_step (H : FlowSim tx pos q q') (h : compileOneFlow cfg q g = .ok q₁)
    (hspare : RowSpare tx q₁) :
    ∃ q₁', compileOneFlow cfg q' g = .ok q₁' ∧ FlowSim tx pos q₁ q₁' := by
  obtain ⟨P, hfits, hw, -⟩ := compileOneFlow_spec h
  obtain ⟨txCp', htxCp', htx⟩ := H.slot _ _ P.txCp_eq
  obtain ⟨rxCp', hrxCp', hrx⟩ := H.slot _ _ P.rxCp_eq
  -- The plan in the other program has the same ports.
  let P' : FlowPlan cfg q' g := ⟨P.tx, P.rx, txCp', rxCp', P.tx_eq, P.rx_eq, htxCp', hrxCp'⟩
  have hroom : ∀ {c cp}, cardSlot q c = some cp → c = tx →
      (P.delta c cp).flowRows.length < flowTableRows := by
    rintro c cp hcp rfl
    refine hspare _ ?_
    rw [hw.slot, hcp]
    rfl
  have hfits' : P'.Fits := by
    refine ⟨?_, fun hs hb => ?_, hfits.flowId, fun hb hh => ?_⟩
    · rcases P.delta_cases hfits P.txCp_eq with ⟨hne, -⟩ | ⟨row, hadd⟩
      · exact absurd rfl hne
      · exact htx.free hadd (hroom P.txCp_eq)
    · rcases P.delta_cases hfits P.rxCp_eq with ⟨-, hbg, -⟩ | ⟨row, hadd⟩
      · exact absurd (hbg rfl) (by simp [hb])
      · exact hrx.free hadd (hroom P.rxCp_eq)
    · have := hfits.hash hb hh
      change rxCp'.hashEntries.length < hashDepth
      rwa [hrx.same.hash, List.length_map]
  obtain ⟨q₁', hq₁'⟩ := compileOneFlow_total P' hfits'
  obtain ⟨P'', -, hw', -⟩ := compileOneFlow_spec hq₁'
  obtain rfl : P'' = P' := FlowPlan.eq _ _
  refine ⟨q₁', hq₁', fun c cp₁ hc => ?_, hw'.ids.trans (H.ids.trans hw.ids.symm)⟩
  rw [hw.slot] at hc
  obtain ⟨cp, hcp, rfl⟩ := Option.map_eq_some_iff.mp hc
  obtain ⟨cp', hcp', hsim⟩ := H.slot c cp hcp
  refine ⟨P'.delta c cp', by rw [hw'.slot, hcp']; rfl, ?_⟩
  rcases P.delta_cases hfits hcp with ⟨hne, hbg, heq⟩ | ⟨row, hadd⟩
  · rcases P'.delta_cases hfits' hcp' with ⟨-, -, heq'⟩ | ⟨row', hadd'⟩
    · rw [heq, heq']
      exact hsim
    · rcases hadd'.row_eq with ⟨h, -⟩ | ⟨-, h, hb, -⟩
      · exact absurd h hne
      · exact absurd (hbg h) (by simp [hb])
  · rcases P'.delta_cases hfits' hcp' with ⟨hne, hbg, -⟩ | ⟨row', hadd'⟩
    · rcases hadd.row_eq with ⟨h, -⟩ | ⟨-, h, hb, -⟩
      · exact absurd h hne
      · exact absurd (hbg h) (by simp [hb])
    · refine CardSim.adds (g := g) row row' (decide (c = P.rx.cardId)) hsim hadd.free ?_ ?_
      · simp only [decide_eq_true_eq]
        exact hadd.eq
      · simp only [decide_eq_true_eq]
        exact hadd'.eq

/-- **All flows that follow.** -/
theorem flowSim_foldlM {l : List PwFlow} (H : FlowSim tx pos q q')
    (h : l.foldlM (compileOneFlow cfg) q = .ok q₁) (hspare : RowSpare tx q₁) :
    ∃ q₁', l.foldlM (compileOneFlow cfg) q' = .ok q₁' ∧ FlowSim tx pos q₁ q₁' := by
  refine foldlM_ok_simulation (R := FlowSim tx pos) (G := RowSpare tx) ?_ ?_ h hspare H
  · intro g s s' h hs
    exact rowSpare_of_step h hs
  · intro g s s' t H h hs
    exact flowSim_step H h hs

/-- **The added flow itself**: compiled where the slots are in range, it adds a
row to its own card and nothing else. -/
theorem flowSim_added (hslots : ∀ c cp, cardSlot q c = some cp → SlotsInRange cp)
    (P : FlowPlan cfg q g) (hbg : g.background = true)
    (hfree : P.txCp.flowRows.length < flowTableRows) :
    ∃ q', compileOneFlow cfg q g = .ok q' ∧
      FlowSim P.tx.cardId P.txCp.flowRows.length q q' := by
  have hfits : P.Fits := ⟨hfree, by simp [hbg], by simp [hbg], by simp [hbg]⟩
  obtain ⟨q', hq'⟩ := compileOneFlow_total P hfits
  obtain ⟨P', -, hw, -⟩ := compileOneFlow_spec hq'
  obtain rfl : P' = P := FlowPlan.eq _ _
  refine ⟨q', hq', fun c cp hcp => ⟨P'.delta c cp, by rw [hw.slot, hcp]; rfl, ?_⟩, hw.ids⟩
  have hdelta : P'.delta c cp = if c = P'.tx.cardId then
      appendFlow cp (txRow g P'.tx.localPortId P'.txLfid (P'.tx.cardId == P'.rx.cardId)) else cp := by
    simp [FlowPlan.delta, flowDelta, hbg]
  rw [hdelta]
  by_cases hc : c = P'.tx.cardId
  · obtain rfl : P'.txCp = cp := by
      have := P'.txCp_eq
      rw [← hc, hcp] at this
      exact (Option.some.inj this).symm
    have hr := hslots c _ hcp
    rw [if_pos hc]
    refine ⟨⟨rfl, rfl, rfl, rfl, rfl, rfl, ?_, ?_⟩, by simp [appendFlow, hc], fun _ => Nat.le_refl _⟩
    · rw [cardShift, if_pos hc]
      refine (List.map_id' _).symm.trans (List.map_congr_left fun e he => ?_)
      rw [PwFcHashEntry.renumber, shiftLfid_of_lt (hr.hash e he)]
    · rw [cardShift, if_pos hc]
      refine (List.map_id' _).symm.trans (List.map_congr_left fun m hm => ?_)
      rw [PwFlowidMapEntry.renumber, shiftLfid_of_lt (hr.map m hm)]
  · rw [if_neg hc]
    refine ⟨⟨rfl, rfl, rfl, rfl, rfl, rfl, ?_, ?_⟩, by simp [hc], fun h => absurd h hc⟩
    · rw [cardShift, if_neg hc]
      exact (List.map_id' _).symm
    · rw [cardShift, if_neg hc]
      exact (List.map_id' _).symm

end FlowPass

/-! ## The rule passes -/

/-- Two programs whose cards have the same comparators and rules. -/
def RuleSim (q q' : PwProgram) : Prop :=
  ∀ c cp, cardSlot q c = some cp →
    ∃ cp', cardSlot q' c = some cp' ∧ cp' = cp.rulesOnto cp'

/-- Rules added to a card of one program are added to that of the other. -/
theorem ruleSim_onCard {q q' : PwProgram} (H : RuleSim q q') {id : BitVec 16}
    {cp cp₁ : PwCardProgram} {l : List RuleSpec} (hcp : cardSlot q id = some cp)
    (h : l.foldlM appendSpec cp = .ok cp₁) :
    ∃ cp' cp₁', cardSlot q' id = some cp' ∧ l.foldlM appendSpec cp' = .ok cp₁' ∧
      RuleSim (q.onCard id (fun _ => cp₁)) (q'.onCard id (fun _ => cp₁')) := by
  obtain ⟨cp', hcp', heq⟩ := H id cp hcp
  have hfold : l.foldlM appendSpec cp' = .ok (cp₁.rulesOnto cp') := by
    rw [heq, appendSpecs_rulesOnto, h, ← heq]
    rfl
  have hid : cp₁.cardId = id := by
    rw [appendSpecs_frame h]
    exact cardId_of_cardSlot cp hcp
  have hid' : (cp₁.rulesOnto cp').cardId = id := cardId_of_cardSlot cp' hcp'
  refine ⟨cp', cp₁.rulesOnto cp', hcp', hfold, fun c x hx => ?_⟩
  rw [cardSlot_onCard fun _ _ => hid] at hx
  rw [cardSlot_onCard fun _ _ => hid']
  by_cases hc : c = id
  · rw [if_pos hc, hc, hcp] at hx
    obtain rfl := Option.some.inj hx
    exact ⟨cp₁.rulesOnto cp', by rw [if_pos hc, hc, hcp']; rfl, rfl⟩
  · rw [if_neg hc] at hx
    obtain ⟨x', hx', heq'⟩ := H c x hx
    exact ⟨x', by rw [if_neg hc, hx'], heq'⟩

/-- **Both rule passes succeed on both programs**, with the same rules. -/
theorem ruleSim_of_rules {cfg : PwConfig} {q q₁ q₂ q' : PwProgram} (H : RuleSim q q')
    (hp : compilePuntRules cfg q = .ok q₁) (hf : compileForwardRules cfg q₁ = .ok q₂) :
    ∃ q₁' q₂', compilePuntRules cfg q' = .ok q₁' ∧ compileForwardRules cfg q₁' = .ok q₂' ∧
      RuleSim q₂ q₂' := by
  obtain ⟨q₁', hq₁', H₁⟩ := foldlM_ok_simulation (R := RuleSim) (G := fun _ => True)
    (g := compilePuntIf cfg) (fun _ _ => trivial) (fun {l s s' t} H h _ => by
      obtain ⟨ref, cp, cp₁, href, hcp, hfold, rfl⟩ := compilePuntIf_eq_ok_iff.mp h
      obtain ⟨cp', cp₁', hcp', hfold', hsim⟩ := ruleSim_onCard H hcp hfold
      exact ⟨_, compilePuntIf_eq_ok_iff.mpr ⟨ref, cp', cp₁', href, hcp', hfold', rfl⟩, hsim⟩)
    hp trivial H
  obtain ⟨q₂', hq₂', H₂⟩ := foldlM_ok_simulation (R := RuleSim) (G := fun _ => True)
    (g := compileForward cfg) (fun _ _ => trivial) (fun {l s s' t} H h _ => by
      obtain ⟨ing, egr, cp, cp₁, hing, hegr, hsame, hcp, hfold, rfl⟩ :=
        compileForward_eq_ok_iff.mp h
      obtain ⟨cp', cp₁', hcp', hfold', hsim⟩ := ruleSim_onCard H hcp hfold
      exact ⟨_, compileForward_eq_ok_iff.mpr
        ⟨ing, egr, cp', cp₁', hing, hegr, hsame, hcp', hfold', rfl⟩, hsim⟩)
    hf trivial H₁
  exact ⟨q₁', q₂', hq₁', hq₂', H₂⟩

/-! ## The hash post-pass -/

section PostPass

variable (ρ : BitVec 32 → BitVec 32)

theorem find?_renumber (l : List PwFcHashEntry) (w : KeyWords) :
    (l.map (PwFcHashEntry.renumber ρ)).find? (fun d => keyEq w d.keyWord) =
      (l.find? fun d => keyEq w d.keyWord).map (PwFcHashEntry.renumber ρ) := by
  rw [List.find?_map]
  rfl

/-- The duplicate check looks at keys only. -/
theorem findDuplicate_renumber (seen l : List PwFcHashEntry) :
    findDuplicate (seen.map (PwFcHashEntry.renumber ρ)) (l.map (PwFcHashEntry.renumber ρ)) =
      (findDuplicate seen l).map (Prod.map (PwFcHashEntry.renumber ρ)
        (PwFcHashEntry.renumber ρ)) := by
  induction l generalizing seen with
  | nil => rfl
  | cons e l ih =>
    simp only [List.map_cons, findDuplicate]
    rw [show (e.renumber ρ).keyWord = e.keyWord from rfl, find?_renumber]
    cases seen.find? (fun d => keyEq e.keyWord d.keyWord) with
    | some d => rfl
    | none =>
      have := ih (seen ++ [e])
      rwa [List.map_append] at this

/-- Keys are placed without regard to their slots. -/
theorem placeAll_renumber (seed : BitVec 32) (used : List (BitVec 16)) (l : List PwFcHashEntry) :
    placeAll seed used (l.map (PwFcHashEntry.renumber ρ)) =
      (placeAll seed used l).map (List.map (PwFcHashEntry.renumber ρ)) := by
  induction l generalizing used with
  | nil => rfl
  | cons e l ih =>
    simp only [List.map_cons, placeAll]
    rw [show (e.renumber ρ).keyWord = e.keyWord from rfl]
    split
    · rfl
    · rw [ih]
      cases placeAll seed (pwFcHashIndex e.keyWord seed :: used) l <;> rfl

theorem seedSearch_renumber (l : List PwFcHashEntry) (attempt left : ℕ) :
    seedSearch (l.map (PwFcHashEntry.renumber ρ)) attempt left =
      (seedSearch l attempt left).map (Prod.map id (List.map (PwFcHashEntry.renumber ρ))) := by
  induction left generalizing attempt with
  | zero => rfl
  | succ left ih =>
    simp only [seedSearch]
    rw [placeAll_renumber]
    cases placeAll (attemptSeed attempt) [] l with
    | some placed => rfl
    | none => exact ih (attempt + 1)

/-- The mask of a card that has entries. -/
theorem hashMask_of_postPass {cfg : PwConfig} {cp cp₁ : PwCardProgram}
    (h : hashPostPass cfg cp = .ok cp₁) (hne : cp.hashEntries ≠ []) :
    cp₁.hashMask = cardHashMask cfg cp.cardId := by
  simp only [hashPostPass, List.isEmpty_iff, hne, if_false] at h
  split at h
  · cases h
  · split at h
    · obtain rfl := Except.ok.inj h
      rfl
    · cases h

/-- **The post-pass commutes with renumbering**, as long as the mask of a card
with entries is the same. -/
theorem hashPostPass_renumber {cfg cfg' : PwConfig} {cp cp' cp₁ : PwCardProgram}
    (H : SameRx ρ cp cp') (h : hashPostPass cfg cp = .ok cp₁)
    (hmask : cp.hashEntries ≠ [] → cardHashMask cfg' cp.cardId = cardHashMask cfg cp.cardId) :
    ∃ cp₁', hashPostPass cfg' cp' = .ok cp₁' ∧ SameRx ρ cp₁ cp₁' := by
  by_cases hne : cp.hashEntries = []
  · have hne' : cp'.hashEntries = [] := by rw [H.hash, hne, List.map_nil]
    simp only [hashPostPass, hne, List.isEmpty_nil, if_true] at h
    obtain rfl := Except.ok.inj h
    exact ⟨cp', by simp [hashPostPass, hne'], H⟩
  · have hne' : cp'.hashEntries ≠ [] := by simpa [H.hash] using hne
    have hentries : cp'.hashEntries.map (PwFcHashEntry.masked (cardHashMask cfg' cp'.cardId)) =
        (cp.hashEntries.map (PwFcHashEntry.masked (cardHashMask cfg cp.cardId))).map
          (PwFcHashEntry.renumber ρ) := by
      rw [H.hash, H.cardId, hmask hne, List.map_map, List.map_map]
      rfl
    have hdup := findDuplicate_renumber ρ []
      (cp.hashEntries.map (PwFcHashEntry.masked (cardHashMask cfg cp.cardId)))
    rw [List.map_nil] at hdup
    simp only [hashPostPass, List.isEmpty_iff, hne, hne', if_false] at h ⊢
    rw [hentries, hdup, seedSearch_renumber]
    split at h
    · cases h
    · rename_i hnone
      split at h
      · rename_i seed placed hseed
        obtain rfl := Except.ok.inj h
        rw [hnone, hseed]
        refine ⟨_, rfl, H.cardId, H.cmps, H.udfs, H.rules, rfl, ?_, rfl, H.map⟩
        change cardHashMask cfg' cp'.cardId = cardHashMask cfg cp.cardId
        rw [H.cardId, hmask hne]
      · cases h

end PostPass

/-! ## Which cards have entries -/

/-- A measured, header-classified flow received on card `c`. -/
def measuredHeader (cfg : PwConfig) (c : BitVec 16) (g : PwFlow) : Bool :=
  !g.background && relaxesCard cfg c g

/-- The entries of a card have the keys of the flows that ask for one there. -/
theorem keyWords_compileFlows {cfg : PwConfig} {l : List PwFlow} {mid : PwProgram}
    (h : l.foldlM (compileOneFlow cfg) (initProgram cfg) = .ok mid) {c : BitVec 16}
    {cp : PwCardProgram} (hcp : cardSlot mid c = some cp) :
    cp.hashEntries.map PwFcHashEntry.keyWord =
      (l.filter (measuredHeader cfg c)).map pwFcHashWords := by
  refine foldlM_ok_induction (P := fun pre q => ∀ c cp, cardSlot q c = some cp →
    cp.hashEntries.map PwFcHashEntry.keyWord =
      (pre.filter (measuredHeader cfg c)).map pwFcHashWords) h ?_ ?_ c cp hcp
  · intro c cp hcp
    obtain ⟨x, -, rfl⟩ := List.mem_map.mp (List.mem_of_find?_eq_some hcp)
    simp
  · intro pre g post q q₁ _ ih hq c cp₁ hcp₁
    obtain ⟨P, hfits, hw, -⟩ := compileOneFlow_spec hq
    rw [hw.slot] at hcp₁
    obtain ⟨cp, hcp, rfl⟩ := Option.map_eq_some_iff.mp hcp₁
    have hmeasured : measuredHeader cfg c g =
        (!g.background && g.classifyHeader && (P.rx.cardId == c)) := by
      rw [measuredHeader, relaxesCard, P.rx_eq, Bool.and_assoc]
    rw [List.filter_append, List.map_append, ← ih c cp hcp]
    rcases P.delta_cases hfits hcp with ⟨-, hbg, heq⟩ | ⟨row, hadd⟩
    · have hnot : measuredHeader cfg c g = false := by
        by_cases hr : c = P.rx.cardId
        · simp [hmeasured, hbg hr]
        · simp [hmeasured, Ne.symm hr]
      simp [heq, hnot]
    · rw [hadd.eq]
      by_cases hr : c = P.rx.cardId
      · subst hr
        cases hb : g.background <;> cases hh : g.classifyHeader <;>
          simp [hmeasured, hashShare, hb, hh]
      · simp [hmeasured, hr, Ne.symm hr]

/-- A card has hash entries exactly when a flow asks for one there. -/
theorem hashEntries_ne_nil_iff {cfg : PwConfig} {l : List PwFlow} {mid : PwProgram}
    (h : l.foldlM (compileOneFlow cfg) (initProgram cfg) = .ok mid) {c : BitVec 16}
    {cp : PwCardProgram} (hcp : cardSlot mid c = some cp) :
    cp.hashEntries ≠ [] ↔ ∃ g ∈ l, measuredHeader cfg c g = true := by
  have hnil : cp.hashEntries = [] ↔ l.filter (measuredHeader cfg c) = [] := by
    rw [← List.map_eq_nil_iff (f := PwFcHashEntry.keyWord), keyWords_compileFlows h hcp,
      List.map_eq_nil_iff]
  rw [Ne, hnil, List.filter_eq_nil_iff]
  simp

/-! ## Transparency -/

/-- The configuration compiles, and each card classifies as in `p`, up to slots
that move up by one behind a row that was inserted. -/
def Transparent (p : PwProgram) (cfg' : PwConfig) : Prop :=
  ∃ p' tx pos, pwFlowCompile cfg' = .ok p' ∧
    List.Forall₂ (fun cp cp' => SameRx (cardShift tx pos cp.cardId) cp cp') p.perCard p'.perCard

section Main

variable {cfg : PwConfig} {pre post : List PwFlow} {f : PwFlow} {p : PwProgram}

/-- Each bit of the key that the flow clears is cleared by another
header-classified flow of its receive card, or no measured flow of that card is
header-classified. -/
def RelaxesNothing (cfg : PwConfig) (others : List PwFlow) (f : PwFlow) : Prop :=
  f.classifyHeader = true → ∀ rx, pwConfigResolvePort cfg f.rxGlobalPort = some rx →
    (∃ g ∈ others, measuredHeader cfg rx.cardId g = true) →
    ∀ (i : Fin 11) (b : ℕ), b < 32 → (keptBits f i).getLsbD b = false →
      ∃ g ∈ others, relaxesCard cfg rx.cardId g = true ∧ (keptBits g i).getLsbD b = false

/-- The mask of a card with entries does not change. -/
theorem cardHashMask_eq_of_relaxesNothing (h : RelaxesNothing cfg (pre ++ post) f) {c : BitVec 16}
    (hex : ∃ g ∈ pre ++ post, measuredHeader cfg c g = true) :
    cardHashMask { cfg with flows := pre ++ f :: post } c =
      cardHashMask { cfg with flows := pre ++ post } c := by
  rw [cardHashMask_insert]
  split
  · rename_i hrelax
    rw [relaxesCard, Bool.and_eq_true] at hrelax
    obtain ⟨hh, hrx⟩ := hrelax
    cases href : pwConfigResolvePort cfg f.rxGlobalPort with
    | none => simp [href] at hrx
    | some rx =>
      obtain rfl : rx.cardId = c := by simpa [href] using hrx
      exact (relax_cardHashMask_eq_iff _ _ _).mpr (h hh rx href hex)
  · rfl

/-- The two programs before the post-pass, card by card. -/
theorem sameRx_afterRules {tx : BitVec 16} {pos : ℕ} {mid mid' q₂ q₂' : PwProgram}
    {specs specs' : BitVec 16 → List RuleSpec} (H : FlowSim tx pos mid mid')
    (hr : RuleWise mid q₂ specs) (hr' : RuleWise mid' q₂' specs') (hsim : RuleSim q₂ q₂')
    (hnodup : (q₂.perCard.map PwCardProgram.cardId).Nodup) :
    List.Forall₂ (fun cp cp' => SameRx (cardShift tx pos cp.cardId) cp cp')
      q₂.perCard q₂'.perCard := by
  refine forall₂_of_find? PwCardProgram.cardId
    (hr'.ids.trans (H.ids.trans hr.ids.symm)) hnodup fun c cp₂ hcp₂ => ?_
  have hid : cp₂.cardId = c := cardId_of_cardSlot cp₂ hcp₂
  obtain ⟨cp₂', hcp₂', heq⟩ := hsim c cp₂ hcp₂
  refine ⟨cp₂', hcp₂', ?_⟩
  -- The card before the rules, in both programs.
  obtain ⟨x, hx, hfold⟩ := hr.before hcp₂
  obtain ⟨x', hx', hcs⟩ := H.slot c x hx
  obtain ⟨y', hy', hfold'⟩ := hr'.slot c x' hx'
  obtain rfl := Option.some.inj (hcp₂'.symm.trans hy')
  have hframe := appendSpecs_frame hfold
  have hframe' := appendSpecs_frame hfold'
  have hs := hcs.same
  rw [hid]
  refine ⟨?_, ?_, ?_, ?_, ?_, ?_, ?_, ?_⟩
  · rw [hframe, hframe']
    exact hs.cardId
  · rw [heq]
    rfl
  · rw [heq]
    rfl
  · rw [heq]
    rfl
  · rw [hframe, hframe']
    exact hs.seed
  · rw [hframe, hframe']
    exact hs.mask
  · rw [hframe, hframe']
    exact hs.hash
  · rw [hframe, hframe']
    exact hs.map

/-- **A flow that relaxes nothing is transparent.** -/
theorem transparent_of_relaxesNothing
    (S : CompileStages { cfg with flows := pre ++ post } p)
    (hv : ValidConfig { cfg with flows := pre ++ f :: post }) (hbg : f.background = true)
    (hspare : ∀ tx, pwConfigResolvePort cfg f.txGlobalPort = some tx →
      RowSpare tx.cardId S.afterFlows)
    (h : RelaxesNothing cfg (pre ++ post) f) :
    Transparent p { cfg with flows := pre ++ f :: post } := by
  -- The flow pass up to the added flow, the flow itself, and the rest.
  have hflows := S.flows
  simp only [List.foldlM_append, bind_eq_ok_iff] at hflows
  obtain ⟨q, hpre, hpost⟩ := hflows
  have hids : q.perCard.map PwCardProgram.cardId = cfg.cards.map PwCard.id :=
    (cardIds_compileFlows hpre).trans (cardIds_initProgram _)
  have hf := hv.flow f (by simp)
  obtain ⟨tx, htx⟩ := Option.isSome_iff_exists.mp hf.tx
  obtain ⟨rx, hrx⟩ := Option.isSome_iff_exists.mp hf.rx
  obtain ⟨txCp, htxCp⟩ := exists_cardSlot_of_resolve cfg hids htx
  obtain ⟨rxCp, hrxCp⟩ := exists_cardSlot_of_resolve cfg hids hrx
  let P : FlowPlan cfg q f := ⟨tx, rx, txCp, rxCp, htx, hrx, htxCp, hrxCp⟩
  have hspare' : RowSpare tx.cardId S.afterFlows := hspare tx htx
  have hfree : txCp.flowRows.length < flowTableRows :=
    foldlM_ok_backward (G := RowSpare tx.cardId) (fun h hs => rowSpare_of_step h hs) hpost hspare'
      txCp htxCp
  obtain ⟨q', hq', hsim⟩ := flowSim_added (fun c cp hc => slotsInRange_flows hpre hc) P hbg hfree
  obtain ⟨mid', hmid', hsim'⟩ := flowSim_foldlM hsim hpost hspare'
  have hflows' : (pre ++ f :: post).foldlM (compileOneFlow cfg) (initProgram cfg) = .ok mid' := by
    rw [List.foldlM_append, bind_eq_ok_iff]
    exact ⟨q, hpre, bind_eq_ok_iff.mpr ⟨q', hq', hmid'⟩⟩
  -- The rules.
  have hrule : RuleSim S.afterFlows mid' := by
    intro c cp hcp
    obtain ⟨cp', hcp', hcs⟩ := hsim'.slot c cp hcp
    refine ⟨cp', hcp', ?_⟩
    rw [PwCardProgram.rulesOnto, ← hcs.same.cmps, ← hcs.same.udfs, ← hcs.same.rules]
  obtain ⟨q₁', q₂', hq₁', hq₂', hrule'⟩ := ruleSim_of_rules hrule S.punt S.forwards
  have hwise' : RuleWise mid' q₂' (ruleSpecs cfg) := compileRules_spec hq₁' hq₂'
  have hcards := sameRx_afterRules hsim' S.rules hwise' hrule' S.nodup_afterRules
  -- The post-pass.
  obtain ⟨perCard, hhash, hsame⟩ := exists_forall₂_of_step
    (C := fun x y => hashPostPass { cfg with flows := pre ++ f :: post } x = .ok y)
    (D := fun cp cp' => SameRx (cardShift tx.cardId txCp.flowRows.length cp.cardId) cp cp')
    S.hash hcards (by
      intro x hx y x' hy hxx'
      have hid : y.cardId = x.cardId := by rw [hashPostPass_frame hy]
      rw [hid]
      refine hashPostPass_renumber _ hxx' hy fun hne => ?_
      refine cardHashMask_eq_of_relaxesNothing h ?_
      have hslot : cardSlot S.afterRules x.cardId = some x :=
        (find?_eq_some_iff_mem S.nodup_afterRules).mpr ⟨hx, rfl⟩
      obtain ⟨w, hw, hfold⟩ := S.rules.before hslot
      have hentries : x.hashEntries = w.hashEntries := by
        rw [appendSpecs_frame hfold]
        rfl
      exact (hashEntries_ne_nil_iff S.flows hw).mp (hentries ▸ hne))
  refine ⟨{ q₂' with perCard }, tx.cardId, txCp.flowRows.length,
    pwFlowCompile_eq_ok_iff.mpr ⟨⟨mid', q₁', q₂', hv, hflows', hq₁', hq₂', hhash, rfl⟩⟩, hsame⟩

/-- The mask of a card of the final program that has entries. -/
theorem hashMask_of_compile {cfg : PwConfig} (S : CompileStages cfg p) {cp : PwCardProgram}
    (hcp : cp ∈ p.perCard) (hex : ∃ g ∈ cfg.flows, measuredHeader cfg cp.cardId g = true) :
    cp.hashMask = cardHashMask cfg cp.cardId := by
  obtain ⟨T⟩ := S.trace hcp
  have hne := (hashEntries_ne_nil_iff S.flows T.flows_eq).mpr hex
  rw [← T.hashEntries_eq] at hne
  rw [hashMask_of_postPass T.hash_eq hne, T.cardId_eq]

/-- **When a background flow is transparent.**  Added anywhere among the flows,
valid and with a row to spare on its card, it compiles and leaves every card's
classification alone exactly when it relaxes nothing. -/
theorem background_transparent_iff (cfg : PwConfig) (pre post : List PwFlow) (f : PwFlow)
    (h : pwFlowCompile { cfg with flows := pre ++ post } = .ok p)
    (hvalid : pwConfigValidate { cfg with flows := pre ++ f :: post } = .ok ())
    (hbg : f.background = true)
    (hspare : ∀ tx cp, pwConfigResolvePort cfg f.txGlobalPort = some tx → cp ∈ p.perCard →
      cp.cardId = tx.cardId → cp.flowRows.length < flowTableRows) :
    Transparent p { cfg with flows := pre ++ f :: post } ↔ RelaxesNothing cfg (pre ++ post) f := by
  obtain ⟨S⟩ := pwFlowCompile_eq_ok_iff.mp h
  constructor
  · rintro ⟨p', tx, pos, hp', hsame⟩ hh rx hrx ⟨g, hg, hmeas⟩
    obtain ⟨S'⟩ := pwFlowCompile_eq_ok_iff.mp hp'
    -- The receive card in both programs.
    obtain ⟨cp, hcp⟩ := exists_cardSlot_of_resolve cfg S.cardIds hrx
    have hid := cardId_of_cardSlot cp hcp
    obtain ⟨cp', hcp', hsim⟩ := exists_right_of_forall₂ hsame (List.mem_of_find?_eq_some hcp)
    have hmask := hashMask_of_compile S (List.mem_of_find?_eq_some hcp)
      ⟨g, hg, by rw [hid]; exact hmeas⟩
    have hmask' := hashMask_of_compile S' hcp'
      ⟨g, by simp at hg ⊢; tauto, by rw [hsim.cardId, hid]; exact hmeas⟩
    rw [hsim.cardId, hsim.mask, hmask, hid, cardHashMask_insert, if_pos] at hmask'
    · exact (relax_cardHashMask_eq_iff _ _ _).mp hmask'.symm
    · simp [relaxesCard, hh, hrx]
  · refine transparent_of_relaxesNothing S (pwConfigValidate_eq_ok_iff.mp hvalid) hbg ?_
    intro tx htx w hw
    obtain ⟨cp, hcp⟩ := exists_cardSlot_of_resolve cfg S.cardIds htx
    have hid := cardId_of_cardSlot cp hcp
    have hmem := List.mem_of_find?_eq_some hcp
    obtain ⟨T⟩ := S.trace hmem
    have hflows := T.flows_eq
    rw [hid, hw] at hflows
    rw [Option.some.inj hflows, ← T.flowRows_eq]
    exact hspare tx cp htx hmem hid

end Main

/-- A background flow that would be classified by its header, with the given
modifier of its destination address. -/
def sampleBackgroundFlow (mod : PwFieldMod) : PwFlow :=
  { sampleHeaderFlow 9 0x0A000009 with background := true, mod := { dstIpv4 := mod } }

/-- Without modifiers the flow relaxes nothing. -/
theorem background_transparent_sample :
    ∃ p, pwFlowCompile sampleHeaderConfig = .ok p ∧
      Transparent p
        { sampleHeaderConfig with flows := sampleHeaderConfig.flows ++ [sampleBackgroundFlow {}] } := by
  obtain ⟨p, hp, hrows⟩ := exists_of_okAnd
    (show okAnd (pwFlowCompile sampleHeaderConfig)
      (fun p => p.perCard.all fun cp => decide (cp.flowRows.length < flowTableRows)) = true by
      decide +kernel)
  refine ⟨p, hp, (background_transparent_iff sampleHeaderConfig sampleHeaderConfig.flows []
    (sampleBackgroundFlow {}) ?_ ?_ rfl ?_).mpr ?_⟩
  · rw [List.append_nil]
    exact hp
  · decide +kernel
  · intro tx cp _ hcp _
    exact of_decide_eq_true (List.all_eq_true.mp hrows cp hcp)
  · intro _ rx _ _ i b hb hclear
    have hfull : ∀ i, keptBits (sampleBackgroundFlow {}) i = BitVec.allOnes 32 := by decide +kernel
    rw [hfull, BitVec.getLsbD_allOnes] at hclear
    simp [hb] at hclear

/-- **A background flow that gets the others rejected.**  It varies the last
byte of its own destination address, the byte that tells the two measured flows
apart. -/
theorem background_flow_rejected :
    ∃ p, pwFlowCompile sampleHeaderConfig = .ok p ∧
      (∀ cp ∈ p.perCard, cp.flowRows.length < flowTableRows) ∧
      let f := sampleBackgroundFlow { mode := .random, mask := 0xFF }
      let cfg' := { sampleHeaderConfig with flows := sampleHeaderConfig.flows ++ [f] }
      f.background = true ∧ pwConfigValidate cfg' = .ok () ∧
      (∃ e, pwFlowCompile cfg' = .error e) ∧ ¬Transparent p cfg' := by
  obtain ⟨p, hp, hrows⟩ := exists_of_okAnd
    (show okAnd (pwFlowCompile sampleHeaderConfig)
      (fun p => p.perCard.all fun cp => decide (cp.flowRows.length < flowTableRows)) = true by
      decide +kernel)
  have herr : pwFlowCompile { sampleHeaderConfig with flows := sampleHeaderConfig.flows ++
      [sampleBackgroundFlow { mode := .random, mask := 0xFF }] } =
      .error (diag .inval "card[0].hash"
        ("header-classify flows in slots 0 and 1 are indistinguishable under the hash key mask (a "
          ++ "field that separates them is randomized by a modifier or cleared by match); make "
          ++ "them differ in a non-randomized field, or use classify: map")) :=
    eq_error_of_failsWith (by decide +kernel)
  refine ⟨p, hp, fun cp hcp => of_decide_eq_true (List.all_eq_true.mp hrows cp hcp), rfl,
    by decide +kernel, ⟨_, herr⟩, ?_⟩
  rintro ⟨p', -, -, hp', -⟩
  rw [hp'] at herr
  cases herr

end PacketWyrm
