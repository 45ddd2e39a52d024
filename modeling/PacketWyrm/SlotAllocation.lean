import PacketWyrm.RxSlots
import PacketWyrm.TxRows

/-!
# Slots of flows

Transmit and receive slots are drawn from one counter of each card, the number
of its rows.  A flow writes its id into every row it takes, so two flows that
claim one slot would have one id; that gives the distinctness of slots across
the ways in which flows take them.

## Main definitions

* `SlotAllocation` — what the slots of a program guarantee.

## Main results

* `rxPlaced_flows` — the row in a measured flow's receive slot is the flow's.
* `rowsNumbered_flows` — row `i` of a card has slot `i`.
* `slot_allocation` — the slots of every compiled program.
-/

namespace PacketWyrm

open Lib

/-- The slots that the entries of a card name, of either kind. -/
def PwCardProgram.entrySlots (cp : PwCardProgram) : List (BitVec 32) :=
  cp.mapEntries.map PwFlowidMapEntry.localFlowId ++ cp.hashEntries.map PwFcHashEntry.localFlowId

/-- The entry of a measured flow on its receive card: one entry of either kind
names the flow's slot, and it is the flow's own. -/
structure OwnEntry (cp : PwCardProgram) (f : PwFlow) (lfid : BitVec 32) : Prop where
  once : cp.entrySlots.count lfid = 1
  mapOnce : (cp.mapEntries.map PwFlowidMapEntry.flowId).count f.id =
    if f.classifyHeader then 0 else 1
  map : f.classifyHeader = false → { flowId := f.id, localFlowId := lfid } ∈ cp.mapEntries
  hash : f.classifyHeader = true → ∃ e ∈ cp.hashEntries, e.localFlowId = lfid ∧
    e.keyWord = fun i => pwFcHashWords f i &&& cp.hashMask i

/-- **The slots of a program**: rows are numbered in order, every flow has its
transmit row, no slot serves two flows, and the entries name the slots of the
flows that are received. -/
structure SlotAllocation (flows : List PwFlow) (p : PwProgram) : Prop where
  metas : flows.length = p.flowMeta.length
  numbered : ∀ cp ∈ p.perCard, ∀ (i : ℕ) (row : PwfpgaFlowConfig),
    cp.flowRows[i]? = some row → row.localFlowId.toNat = i
  txRow : ∀ x ∈ flows.zip p.flowMeta, ∃ row, p.txRowOf x.2 = some row ∧
    row.globalFlowId = x.1.id
  rxDistinct : ∀ (i j : ℕ) (x y : PwFlow × PwFlowMeta),
    (flows.zip p.flowMeta)[i]? = some x → (flows.zip p.flowMeta)[j]? = some y → i ≠ j →
    x.1.background = false → y.1.background = false → x.2.rxCardId = y.2.rxCardId →
      x.2.rxLocalFlowId ≠ y.2.rxLocalFlowId
  background : ∀ x ∈ flows.zip p.flowMeta, ∀ y ∈ flows.zip p.flowMeta,
    x.1.background = true → y.2.rxSlotValid = true → x.2.txCardId = y.2.rxCardId →
      x.2.txLocalFlowId ≠ y.2.rxLocalFlowId
  entry : ∀ x ∈ flows.zip p.flowMeta, x.1.background = false →
    ∃ cp, cardSlot p x.2.rxCardId = some cp ∧ OwnEntry cp x.1 x.2.rxLocalFlowId
  inRange : ∀ cp ∈ p.perCard, cp.flowRows.length ≤ flowTableRows ∧
    ∀ s ∈ cp.entrySlots, s.toNat < cp.flowRows.length ∧ s.toNat < flowTableRows

/-! ## Rows carry their flow and their slot -/

theorem globalFlowId_txRow (f : PwFlow) (egress : BitVec 8) (lfid : BitVec 32) (same : Bool) :
    (PacketWyrm.txRow f egress lfid same).globalFlowId = f.id := by
  simp only [PacketWyrm.txRow, PwfpgaFlowConfig.withInnerIp, PwfpgaFlowConfig.withEncap,
    PwfpgaFlowConfig.withModifiers, PwfpgaFlowConfig.withLengths]
  split <;> split <;> split <;> (try split) <;> rfl

section OneFlow

variable {cfg : PwConfig} {out out' : PwProgram} {f : PwFlow}

/-- Every row that a flow adds carries the flow's id. -/
theorem FlowPlan.Adds.globalFlowId {P : FlowPlan cfg out f} {c : BitVec 16}
    {cp cp' : PwCardProgram} {row : PwfpgaFlowConfig} (h : P.Adds c cp cp' row) :
    row.globalFlowId = f.id := by
  rcases h.row_eq with ⟨-, hrow⟩ | ⟨-, -, -, hrow⟩
  · rw [hrow, globalFlowId_txRow]
  · rw [hrow]
    exact globalFlowId_txRow _ _ _ _

/-- The row in the receive slot of a new, measured flow carries its id. -/
theorem rowAt_rxLfid (P : FlowPlan cfg out f) (hfits : P.Fits)
    (hslot : ∀ c, cardSlot out' c = (cardSlot out c).map (P.delta c))
    (hb : f.background = false) :
    ∃ row, out'.rowAt P.rx.cardId P.rxLfid = some row ∧ row.globalFlowId = f.id := by
  have hcard : cardSlot out P.rx.cardId = some P.rxCp := P.rxCp_eq
  rcases P.delta_cases hfits hcard with ⟨-, hbg, -⟩ | ⟨row, hadd⟩
  · rw [hbg rfl] at hb
    cases hb
  · have hnat : P.rxLfid.toNat = P.rxCp.flowRows.length := by
      rw [P.rxLfid_eq hb hcard, toNat_ofNat_length hadd.free]
    refine ⟨row, ?_, hadd.globalFlowId⟩
    rw [PwProgram.rowAt, hslot, hcard, Option.map_some, Option.bind_some, hadd.eq, hnat]
    simp

/-- A flow keeps rows numbered. -/
theorem FlowPlan.numbered_delta (P : FlowPlan cfg out f) (hfits : P.Fits) {c : BitVec 16}
    {cp : PwCardProgram} (hc : cardSlot out c = some cp)
    (H : ∀ (i : ℕ) (row : PwfpgaFlowConfig), cp.flowRows[i]? = some row →
      row.localFlowId.toNat = i)
    (i : ℕ) (row : PwfpgaFlowConfig) (hrow : (P.delta c cp).flowRows[i]? = some row) :
    row.localFlowId.toNat = i := by
  rcases P.delta_cases hfits hc with ⟨-, -, hsame⟩ | ⟨new, hadd⟩
  · rw [hsame] at hrow
    exact H i row hrow
  · rw [hadd.eq] at hrow
    by_cases hi : i < cp.flowRows.length
    · rw [List.getElem?_append_left hi] at hrow
      exact H i row hrow
    · rw [List.getElem?_append_right (by omega), List.getElem?_singleton] at hrow
      split at hrow
      · obtain rfl := Option.some.inj hrow
        rw [hadd.slot_eq, toNat_ofNat_length hadd.free]
        omega
      · cases hrow

end OneFlow

/-- **The flow pass numbers the rows of every card.** -/
theorem rowsNumbered_flows {cfg : PwConfig} {mid : PwProgram} {l : List PwFlow}
    (h : l.foldlM (compileOneFlow cfg) (initProgram cfg) = .ok mid) {c : BitVec 16}
    {cp : PwCardProgram} (hc : cardSlot mid c = some cp) (i : ℕ) (row : PwfpgaFlowConfig)
    (hrow : cp.flowRows[i]? = some row) : row.localFlowId.toNat = i := by
  refine foldlM_ok_invariant (P := fun q => ∀ c cp, cardSlot q c = some cp →
    ∀ (i : ℕ) (row : PwfpgaFlowConfig), cp.flowRows[i]? = some row → row.localFlowId.toNat = i)
    h ?_ ?_ c cp hc i row hrow
  · intro c cp hc
    obtain ⟨card, -, rfl⟩ := List.mem_map.mp (List.mem_of_find?_eq_some hc)
    simp
  · intro f _ q q' ih hstep c cp' hc
    obtain ⟨P, hfits, hw, -⟩ := compileOneFlow_spec hstep
    rw [hw.slot] at hc
    obtain ⟨cp, hcp, rfl⟩ := Option.map_eq_some_iff.mp hc
    exact P.numbered_delta hfits hcp (ih c cp hcp)

/-- **The flow pass puts every measured flow's id in its receive slot**, and
records which flows have one. -/
theorem rxPlaced_flows {cfg : PwConfig} {mid : PwProgram} {l : List PwFlow}
    (h : l.foldlM (compileOneFlow cfg) (initProgram cfg) = .ok mid) :
    l.length = mid.flowMeta.length ∧ ∀ x ∈ l.zip mid.flowMeta,
      x.2.rxSlotValid = !x.1.background ∧ (x.1.background = false →
        ∃ row, mid.rowAt x.2.rxCardId x.2.rxLocalFlowId = some row ∧
          row.globalFlowId = x.1.id) := by
  refine foldlM_ok_induction (P := fun pre q => pre.length = q.flowMeta.length ∧
    ∀ x ∈ pre.zip q.flowMeta, x.2.rxSlotValid = !x.1.background ∧ (x.1.background = false →
      ∃ row, q.rowAt x.2.rxCardId x.2.rxLocalFlowId = some row ∧ row.globalFlowId = x.1.id))
    h ⟨rfl, by simp⟩ ?_
  intro pre f post q q' _ ih hstep
  obtain ⟨hlen, hplaced⟩ := ih
  obtain ⟨P, hfits, hw, hmeta⟩ := compileOneFlow_spec hstep
  refine ⟨by simp [hmeta, hlen], ?_⟩
  intro x hx
  rw [hmeta, List.zip_append hlen, List.mem_append] at hx
  rcases hx with hx | hx
  · obtain ⟨hvalid, hrow⟩ := hplaced x hx
    refine ⟨hvalid, ?_⟩
    intro hb
    obtain ⟨row, hrow, hid⟩ := hrow hb
    exact ⟨row, rowAt_mono P hfits hw.slot hrow, hid⟩
  · obtain rfl : x = (f, P.flowMeta) := by simpa using hx
    exact ⟨rfl, rowAt_rxLfid P hfits hw.slot⟩

/-! ## Entries -/

section Entries

variable {rx : List (PwFlow × PwFlowMeta)} (hrx : ∀ x ∈ rx, x.1.background = false)

include hrx

/-- **One entry for each flow**: the slots that the entries name are those of
the flows, each once. -/
theorem entrySlots_perm :
    ((rx.flatMap fun x => mapShare x.1 x.2.rxLocalFlowId).map PwFlowidMapEntry.localFlowId ++
      (rx.flatMap fun x => hashShare x.1 x.2.rxLocalFlowId).map
        PwFcHashEntry.localFlowId).Perm (rx.map fun x => x.2.rxLocalFlowId) := by
  induction rx with
  | nil => exact List.Perm.nil
  | cons x rx ih =>
    have hb := hrx x (by simp)
    have ih := ih fun y hy => hrx y (by simp [hy])
    simp only [List.flatMap_cons, List.map_append, List.map_cons]
    cases hh : x.1.classifyHeader with
    | false =>
      simp only [mapShare, hashShare, hb, hh, Bool.false_or, Bool.false_eq_true, if_false,
        Bool.and_false, List.map_cons, List.map_nil, List.nil_append, List.cons_append]
      exact ih.cons _
    | true =>
      simp only [mapShare, hashShare, hb, hh, Bool.or_true, if_true, Bool.not_false,
        Bool.and_true, List.map_cons, List.map_nil, List.nil_append, List.cons_append]
      exact List.perm_middle.trans (ih.cons _)

/-- The ids in the flow-id map are those of the flows that use it. -/
theorem mapIds_eq :
    (rx.flatMap fun x => mapShare x.1 x.2.rxLocalFlowId).map PwFlowidMapEntry.flowId =
      (rx.filter fun x => !x.1.classifyHeader).map fun x => x.1.id := by
  induction rx with
  | nil => rfl
  | cons x rx ih =>
    have hb := hrx x (by simp)
    have ih := ih fun y hy => hrx y (by simp [hy])
    rw [List.flatMap_cons, List.map_append, ih]
    cases hh : x.1.classifyHeader <;> simp [mapShare, hb, hh]

end Entries

/-! ## Compiled programs -/

section Compiled

variable {cfg : PwConfig} {p : PwProgram} (h : pwFlowCompile cfg = .ok p)

include h

/-- The slots that a compiled card's entries name, and the ids in its map. -/
theorem entries_of_compile {cp : PwCardProgram} (hcp : cp ∈ p.perCard) :
    cp.entrySlots.Perm
        ((received cfg.flows p.flowMeta cp.cardId).map fun x => x.2.rxLocalFlowId) ∧
      cp.mapEntries.map PwFlowidMapEntry.flowId =
        ((received cfg.flows p.flowMeta cp.cardId).filter fun x => !x.1.classifyHeader).map
          fun x => x.1.id := by
  obtain ⟨-, -, mid, hflows, hmeta, htrace⟩ := pwFlowCompile_spec h
  obtain ⟨T⟩ := htrace cp hcp
  obtain ⟨-, hshare⟩ := rxShare_flows hflows
  rw [hmeta]
  have H := hshare _ _ T.flows_eq
  have hb : ∀ x ∈ received cfg.flows mid.flowMeta cp.cardId, x.1.background = false :=
    fun x hx => (mem_received.mp hx).2.1
  -- the post-pass keeps the slots of the hash entries
  have hslots : cp.hashEntries.map PwFcHashEntry.localFlowId =
      T.afterFlows.hashEntries.map PwFcHashEntry.localFlowId := by
    rw [← T.hashEntries_eq]
    exact map_eq_map_of_forall₂ ((hashPostPass_entries T.hash_eq).imp fun _ _ h => h.1)
  refine ⟨?_, ?_⟩
  · rw [PwCardProgram.entrySlots, hslots, T.mapEntries_eq, H.map, H.hash]
    exact entrySlots_perm hb
  · rw [T.mapEntries_eq, H.map, mapIds_eq hb]

/-- The ids of the flows that a card receives are distinct. -/
theorem received_ids_nodup (c : BitVec 16) :
    ((received cfg.flows p.flowMeta c).map fun x => x.1.id).Nodup := by
  obtain ⟨S⟩ := pwFlowCompile_eq_ok_iff.mp h
  have hlen : cfg.flows.length = p.flowMeta.length := by
    rw [S.metas.trans S.rules.metas]
    exact (rxShare_flows S.flows).1
  have hfst : (cfg.flows.zip p.flowMeta).map Prod.fst = cfg.flows :=
    List.map_fst_zip (Nat.le_of_eq hlen)
  have hpw := S.valid.flows
  rw [← hfst, List.pairwise_map] at hpw
  exact List.pairwise_map.mpr (hpw.filter _)

/-- **The entry of a measured flow on its receive card.** -/
theorem ownEntry_of_compile {x : PwFlow × PwFlowMeta} (hx : x ∈ cfg.flows.zip p.flowMeta)
    (hb : x.1.background = false) {cp : PwCardProgram}
    (hcp : cardSlot p x.2.rxCardId = some cp) : OwnEntry cp x.1 x.2.rxLocalFlowId := by
  have hmem : cp ∈ p.perCard := List.mem_of_find?_eq_some hcp
  have hrx : x ∈ received cfg.flows p.flowMeta cp.cardId :=
    mem_received.mpr ⟨hx, hb, (cardId_of_cardSlot cp hcp).symm⟩
  have H := compiledRx_of_compile h hmem
  obtain ⟨hperm, hids⟩ := entries_of_compile h hmem
  have hnd := received_ids_nodup h cp.cardId
  have hslots :
      ((received cfg.flows p.flowMeta cp.cardId).map fun y => y.2.rxLocalFlowId).Nodup :=
    List.Nodup.map_on (fun y hy z hz hyz => H.slot_inj y hy z hz hyz) (List.Nodup.of_map _ hnd)
  refine ⟨?_, ?_, ?_, H.hash x hrx⟩
  · rw [hperm.count_eq]
    exact List.count_eq_one_of_mem hslots (List.mem_map_of_mem hrx)
  · rw [hids]
    cases hh : x.1.classifyHeader with
    | true =>
      apply List.count_eq_zero_of_not_mem
      intro hin
      obtain ⟨y, hy, hid⟩ := List.mem_map.mp hin
      obtain ⟨hyrx, hyh⟩ := List.mem_filter.mp hy
      rw [H.id_inj y hyrx x hrx hid, hh] at hyh
      cases hyh
    | false =>
      apply List.count_eq_one_of_mem
      · exact hnd.sublist (List.filter_sublist.map _)
      · exact List.mem_map.mpr ⟨x, List.mem_filter.mpr ⟨hrx, by simp [hh]⟩, rfl⟩
  · intro hh
    exact (H.map _).mpr ⟨x, hrx, hh, rfl⟩

end Compiled

/-- Flows at different places are told apart by their ids. -/
theorem eq_index_of_id {cfg : PwConfig} (hvalid : ValidConfig cfg) {metas : List PwFlowMeta}
    {i j : ℕ} {x y : PwFlow × PwFlowMeta} (hi : (cfg.flows.zip metas)[i]? = some x)
    (hj : (cfg.flows.zip metas)[j]? = some y) (hid : x.1.id = y.1.id) : i = j := by
  rw [List.getElem?_zip_eq_some] at hi hj
  obtain ⟨hilt, hix⟩ := List.getElem?_eq_some_iff.mp hi.1
  obtain ⟨hjlt, hjy⟩ := List.getElem?_eq_some_iff.mp hj.1
  have hpw := List.pairwise_iff_getElem.mp hvalid.flows
  rcases Nat.lt_trichotomy i j with hlt | heq | hgt
  · exact absurd (by rw [hix, hjy, hid]) (hpw i j hilt hjlt hlt)
  · exact heq
  · exact absurd (by rw [hix, hjy, hid]) (hpw j i hjlt hilt hgt)

/-- **Slot allocation is injective and complete.**  In every program that the
compiler produces, row `i` of a card has slot `i`; every flow's transmit row
carries its id; measured flows received on one card have distinct slots, none of
which is the transmit slot of a background flow there; each of them has exactly
one entry, which names its slot; and no entry names a slot beyond the card's rows
or the table. -/
theorem slot_allocation {cfg : PwConfig} {p : PwProgram} (h : pwFlowCompile cfg = .ok p) :
    SlotAllocation cfg.flows p := by
  obtain ⟨S⟩ := pwFlowCompile_eq_ok_iff.mp h
  have hmeta : p.flowMeta = S.afterFlows.flowMeta := S.metas.trans S.rules.metas
  obtain ⟨hlen, hplaced⟩ := rxPlaced_flows S.flows
  rw [← hmeta] at hlen hplaced
  -- every flow's transmit row, and every measured flow's receive row
  have htx : ∀ x ∈ cfg.flows.zip p.flowMeta, ∃ row, p.txRowOf x.2 = some row ∧
      row.globalFlowId = x.1.id := by
    intro x hx
    obtain ⟨i, hi⟩ := List.mem_iff_getElem?.mp hx
    rw [List.getElem?_zip_eq_some] at hi
    obtain ⟨m, egress, same, hm, hrow⟩ := exists_txRow_of_compile h hi.1
    obtain rfl := Option.some.inj (hi.2.symm.trans hm)
    exact ⟨_, hrow, globalFlowId_txRow _ _ _ _⟩
  refine
    { metas := hlen, numbered := ?_, txRow := htx, rxDistinct := ?_, background := ?_
      entry := ?_, inRange := ?_ }
  · intro cp hcp i row hrow
    obtain ⟨T⟩ := S.trace hcp
    rw [T.flowRows_eq] at hrow
    exact rowsNumbered_flows S.flows T.flows_eq i row hrow
  · intro i j x y hi hj hij hbx hby hcard hslot
    obtain ⟨rowx, hrowx, hidx⟩ := (hplaced x (List.mem_of_getElem? hi)).2 hbx
    obtain ⟨rowy, hrowy, hidy⟩ := (hplaced y (List.mem_of_getElem? hj)).2 hby
    rw [hcard, hslot, hrowy] at hrowx
    obtain rfl := Option.some.inj hrowx
    exact hij (eq_index_of_id S.valid hi hj (hidx.symm.trans hidy))
  · intro x hx y hy hbx hvy hcard hslot
    have hby : y.1.background = false := by
      rw [(hplaced y hy).1] at hvy
      simpa using hvy
    obtain ⟨rowx, hrowx, hidx⟩ := htx x hx
    obtain ⟨rowy, hrowy, hidy⟩ := (hplaced y hy).2 hby
    have hrowy' : p.rowAt y.2.rxCardId y.2.rxLocalFlowId = some rowy := S.rowAt hrowy
    have hrowx' : p.rowAt x.2.txCardId x.2.txLocalFlowId = some rowx := hrowx
    rw [hcard, hslot, hrowy'] at hrowx'
    obtain rfl := Option.some.inj hrowx'
    obtain ⟨i, hi⟩ := List.mem_iff_getElem?.mp hx
    obtain ⟨j, hj⟩ := List.mem_iff_getElem?.mp hy
    obtain rfl := eq_index_of_id S.valid hi hj (hidx.symm.trans hidy)
    obtain rfl := Option.some.inj (hi.symm.trans hj)
    rw [hbx] at hby
    cases hby
  · intro x hx hb
    obtain ⟨ref, href, hcard⟩ := rxCardId_flows S.flows x (hmeta ▸ hx)
    obtain ⟨cp, hcp⟩ := exists_cardSlot_of_resolve cfg S.cardIds href
    rw [hcard] at hcp
    exact ⟨cp, hcp, ownEntry_of_compile h hx hb hcp⟩
  · intro cp hcp
    have H := slotsInRange_of_compile h hcp
    refine ⟨H.rows, ?_⟩
    intro s hs
    have hlt : s.toNat < cp.flowRows.length := by
      rw [PwCardProgram.entrySlots, List.mem_append] at hs
      rcases hs with hs | hs
      · obtain ⟨m, hm, rfl⟩ := List.mem_map.mp hs
        exact H.map m hm
      · obtain ⟨e, he, rfl⟩ := List.mem_map.mp hs
        exact H.hash e he
    exact ⟨hlt, hlt.trans_le H.rows⟩

theorem slot_allocation_sample :
    ∃ p, pwFlowCompile sampleHeaderConfig = .ok p ∧
      SlotAllocation sampleHeaderConfig.flows p := by
  obtain ⟨p, hp, -⟩ := exists_of_okAnd
    (show okAnd (pwFlowCompile sampleHeaderConfig) (fun _ => true) = true by decide +kernel)
  exact ⟨p, hp, slot_allocation hp⟩

end PacketWyrm
