import PacketWyrm.HashTable
import PacketWyrm.DirectRules

/-!
# Receive slots

The compiler gives every flow a slot on its receive card and points the card's
flow-id map or hash table at it.  Slots are row numbers, so two flows of one
card never share one, and what a lookup answers names the flow it stands for.

## Main definitions

* `received` — the measured flows of a card with their records.
* `RxShare` — a card's map and hash entries are those of the flows it receives.
* `OwnKey` — a parsed key that belongs to a flow.

## Main results

* `rxShare_flows` — the flow pass keeps `RxShare` for every card.
* `testRx_iff_ownKey` — a frame is test traffic for the slot of a flow exactly
  when its key belongs to the flow.
-/

namespace PacketWyrm

open Lib

/-! ## The flows of a card -/

/-- The measured flows that card `c` receives, with their records. -/
def received (flows : List PwFlow) (metas : List PwFlowMeta) (c : BitVec 16) :
    List (PwFlow × PwFlowMeta) :=
  (flows.zip metas).filter fun x => !x.1.background && x.2.rxCardId == c

theorem mem_received {flows : List PwFlow} {metas : List PwFlowMeta} {c : BitVec 16}
    {x : PwFlow × PwFlowMeta} :
    x ∈ received flows metas c ↔
      x ∈ flows.zip metas ∧ x.1.background = false ∧ x.2.rxCardId = c := by
  simp [received]

theorem received_append {flows : List PwFlow} {metas : List PwFlowMeta}
    (hlen : flows.length = metas.length) (f : PwFlow) (m : PwFlowMeta) (c : BitVec 16) :
    received (flows ++ [f]) (metas ++ [m]) c =
      received flows metas c ++ (if f.background = false ∧ m.rxCardId = c then [(f, m)] else []) := by
  rw [received, List.zip_append hlen, List.filter_append]
  congr 1
  by_cases h : f.background = false ∧ m.rxCardId = c
  · simp [h]
  · rw [if_neg h]
    simpa using h

/-- A card's classification is that of the flows it receives, each with a slot
of its own among the card's rows. -/
structure RxShare (rx : List (PwFlow × PwFlowMeta)) (cp : PwCardProgram) : Prop where
  map : cp.mapEntries = rx.flatMap fun x => mapShare x.1 x.2.rxLocalFlowId
  hash : cp.hashEntries = rx.flatMap fun x => hashShare x.1 x.2.rxLocalFlowId
  slots : ∀ x ∈ rx, x.2.rxLocalFlowId.toNat < cp.flowRows.length
  nodup : rx.Pairwise fun x y => x.2.rxLocalFlowId ≠ y.2.rxLocalFlowId
  flowIds : ∀ x ∈ rx, x.1.classifyHeader = false → x.1.id.toNat < flowidMapDepth

section Delta

variable {cfg : PwConfig} {out : PwProgram} {f : PwFlow}

/-- On its receive card a flow has the next slot. -/
theorem FlowPlan.rxLfid_eq (P : FlowPlan cfg out f) (hb : f.background = false)
    {cp : PwCardProgram} (hc : cardSlot out P.rx.cardId = some cp) :
    P.rxLfid = BitVec.ofNat 32 cp.flowRows.length := by
  have hrx : P.rxCp = cp := Option.some.inj (P.rxCp_eq.symm.trans hc)
  by_cases hs : P.tx.cardId = P.rx.cardId
  · have htx : P.txCp = cp := by
      have := P.txCp_eq
      rw [hs, hc] at this
      exact (Option.some.inj this).symm
    simp [FlowPlan.rxLfid, FlowPlan.sameCard, FlowPlan.txLfid, hs, htx]
  · simp [FlowPlan.rxLfid, FlowPlan.sameCard, hs, hb, hrx]

/-- **One flow keeps the shares**: it joins the flows of its receive card, and
those of no other card. -/
theorem rxShare_delta (P : FlowPlan cfg out f) (hfits : P.Fits) {c : BitVec 16}
    {cp : PwCardProgram} (hc : cardSlot out c = some cp) {rx : List (PwFlow × PwFlowMeta)}
    (H : RxShare rx cp) :
    RxShare (rx ++ if f.background = false ∧ P.flowMeta.rxCardId = c then [(f, P.flowMeta)]
      else []) (P.delta c cp) := by
  rcases P.delta_cases hfits hc with ⟨-, hbg, hsame⟩ | ⟨row, hadd⟩
  · rw [hsame, if_neg, List.append_nil]
    · exact H
    · intro h
      have := hbg h.2.symm
      rw [h.1] at this
      cases this
  · have hlen : (P.delta c cp).flowRows.length = cp.flowRows.length + 1 := by
      rw [hadd.eq]
      simp
    by_cases hmine : f.background = false ∧ P.rx.cardId = c
    · -- the flow is received here
      have hlfid : P.rxLfid = BitVec.ofNat 32 cp.flowRows.length :=
        P.rxLfid_eq hmine.1 (hmine.2 ▸ hc)
      have hnat : P.rxLfid.toNat = cp.flowRows.length := by
        rw [hlfid, toNat_ofNat_length hadd.free]
      rw [if_pos (show _ ∧ P.flowMeta.rxCardId = c from hmine)]
      refine ⟨?_, ?_, ?_, ?_, ?_⟩
      · rw [hadd.eq, List.flatMap_append, ← H.map]
        dsimp only
        rw [if_pos hmine.2.symm, ← hlfid]
        simp [FlowPlan.flowMeta]
      · rw [hadd.eq, List.flatMap_append, ← H.hash]
        dsimp only
        rw [if_pos hmine.2.symm, ← hlfid]
        simp [FlowPlan.flowMeta]
      · intro x hx
        rw [List.mem_append, List.mem_singleton] at hx
        rw [hlen]
        rcases hx with hx | rfl
        · exact Nat.lt_succ_of_lt (H.slots x hx)
        · show P.rxLfid.toNat < _
          omega
      · rw [List.pairwise_append]
        refine ⟨H.nodup, List.pairwise_singleton _ _, ?_⟩
        intro x hx y hy hxy
        rw [List.mem_singleton] at hy
        have hlt := H.slots x hx
        rw [hxy, hy] at hlt
        change P.rxLfid.toNat < _ at hlt
        omega
      · intro x hx hh
        rw [List.mem_append, List.mem_singleton] at hx
        rcases hx with hx | rfl
        · exact H.flowIds x hx hh
        · exact hfits.flowId hmine.1 hh
    · -- only a row is added
      rw [if_neg (show ¬(_ ∧ P.flowMeta.rxCardId = c) from hmine), List.append_nil]
      have hnone : ∀ {α : Type} (share : PwFlow → BitVec 32 → List α),
          (f.background = true → share f (BitVec.ofNat 32 cp.flowRows.length) = []) →
          (if c = P.rx.cardId then share f (BitVec.ofNat 32 cp.flowRows.length) else []) = [] := by
        intro α share hshare
        split
        · rename_i hcr
          apply hshare
          cases hb : f.background with
          | true => rfl
          | false => exact absurd ⟨hb, hcr.symm⟩ hmine
        · rfl
      refine ⟨?_, ?_, ?_, H.nodup, H.flowIds⟩
      · rw [hadd.eq, ← H.map]
        simp only
        rw [hnone mapShare (fun hb => by simp [mapShare, hb]), List.append_nil]
      · rw [hadd.eq, ← H.hash]
        simp only
        rw [hnone hashShare (fun hb => by simp [hashShare, hb]), List.append_nil]
      · intro x hx
        rw [hlen]
        exact Nat.lt_succ_of_lt (H.slots x hx)

end Delta

/-- **The flow pass keeps the shares of every card.** -/
theorem rxShare_flows {cfg : PwConfig} {mid : PwProgram} {l : List PwFlow}
    (h : l.foldlM (compileOneFlow cfg) (initProgram cfg) = .ok mid) :
    l.length = mid.flowMeta.length ∧ ∀ c cp, cardSlot mid c = some cp →
      RxShare (received l mid.flowMeta c) cp := by
  refine foldlM_ok_induction (P := fun pre q => pre.length = q.flowMeta.length ∧
    ∀ c cp, cardSlot q c = some cp → RxShare (received pre q.flowMeta c) cp) h ?_ ?_
  · refine ⟨rfl, ?_⟩
    intro c cp hc
    obtain ⟨card, -, rfl⟩ := List.mem_map.mp (List.mem_of_find?_eq_some hc)
    exact ⟨rfl, rfl, by simp [received], List.Pairwise.nil, by simp [received]⟩
  · intro pre f post q q' _ ih hstep
    obtain ⟨hlen, hshare⟩ := ih
    obtain ⟨P, hfits, hw, hmeta⟩ := compileOneFlow_spec hstep
    rw [hmeta]
    refine ⟨by simp [hlen], ?_⟩
    intro c cp' hc
    rw [hw.slot] at hc
    obtain ⟨cp, hcp, rfl⟩ := Option.map_eq_some_iff.mp hc
    rw [received_append hlen]
    exact rxShare_delta P hfits hcp (hshare c cp hcp)

/-- The record of a flow names the card its receive port is on. -/
theorem rxCardId_flows {cfg : PwConfig} {mid : PwProgram} {l : List PwFlow}
    (h : l.foldlM (compileOneFlow cfg) (initProgram cfg) = .ok mid) :
    ∀ x ∈ l.zip mid.flowMeta, ∃ ref, pwConfigResolvePort cfg x.1.rxGlobalPort = some ref ∧
      ref.cardId = x.2.rxCardId := by
  refine (foldlM_ok_induction (P := fun pre q => pre.length = q.flowMeta.length ∧
    ∀ x ∈ pre.zip q.flowMeta, ∃ ref, pwConfigResolvePort cfg x.1.rxGlobalPort = some ref ∧
      ref.cardId = x.2.rxCardId) h ⟨rfl, by simp⟩ ?_).2
  intro pre f post q q' _ ih hstep
  obtain ⟨P, -, -, hmeta⟩ := compileOneFlow_spec hstep
  rw [hmeta]
  refine ⟨by simp [ih.1], ?_⟩
  intro x hx
  rw [List.zip_append ih.1, List.mem_append] at hx
  rcases hx with hx | hx
  · exact ih.2 x hx
  · obtain rfl : x = (f, P.flowMeta) := by simpa using hx
    exact ⟨P.rx, P.rx_eq, rfl⟩

/-! ## The classification of a compiled card -/

/-- The entries of a compiled card, by the flows it receives. -/
structure CompiledRx (rx : List (PwFlow × PwFlowMeta)) (cp : PwCardProgram) : Prop where
  sound : SoundHashTable cp
  slotsInRange : SlotsInRange cp
  slots : ∀ x ∈ rx, x.2.rxLocalFlowId.toNat < cp.flowRows.length
  slot_inj : ∀ x ∈ rx, ∀ y ∈ rx, x.2.rxLocalFlowId = y.2.rxLocalFlowId → x = y
  id_inj : ∀ x ∈ rx, ∀ y ∈ rx, x.1.id = y.1.id → x = y
  flowIds : ∀ x ∈ rx, x.1.classifyHeader = false → x.1.id.toNat < flowidMapDepth
  map : ∀ m, m ∈ cp.mapEntries ↔ ∃ x ∈ rx, x.1.classifyHeader = false ∧
    m = { flowId := x.1.id, localFlowId := x.2.rxLocalFlowId }
  hash : ∀ x ∈ rx, x.1.classifyHeader = true → ∃ e ∈ cp.hashEntries,
    e.localFlowId = x.2.rxLocalFlowId ∧
      e.keyWord = fun i => pwFcHashWords x.1 i &&& cp.hashMask i
  hash_only : ∀ e ∈ cp.hashEntries, ∃ x ∈ rx, x.1.classifyHeader = true ∧
    e.localFlowId = x.2.rxLocalFlowId ∧
      e.keyWord = fun i => pwFcHashWords x.1 i &&& cp.hashMask i

theorem mem_mapShare_iff {f : PwFlow} (hb : f.background = false) {lfid : BitVec 32}
    {m : PwFlowidMapEntry} :
    m ∈ mapShare f lfid ↔
      f.classifyHeader = false ∧ m = { flowId := f.id, localFlowId := lfid } := by
  cases hh : f.classifyHeader <;> simp [mapShare, hb, hh]

theorem mem_hashShare_iff {f : PwFlow} (hb : f.background = false) (lfid : BitVec 32)
    {e : PwFcHashEntry} :
    e ∈ hashShare f lfid ↔ f.classifyHeader = true ∧
      e = { index := 0, keyWord := pwFcHashWords f, localFlowId := lfid } := by
  cases hh : f.classifyHeader <;> simp [hashShare, hb, hh]

/-- **The entries of every compiled card are those of the flows it receives.** -/
theorem compiledRx_of_compile {cfg : PwConfig} {p : PwProgram} (h : pwFlowCompile cfg = .ok p)
    {cp : PwCardProgram} (hcp : cp ∈ p.perCard) :
    CompiledRx (received cfg.flows p.flowMeta cp.cardId) cp := by
  obtain ⟨hvalid, -, mid, hflows, hmeta, htrace⟩ := pwFlowCompile_spec h
  obtain ⟨T⟩ := htrace cp hcp
  obtain ⟨hlen, hshare⟩ := rxShare_flows hflows
  rw [hmeta]
  set rx := received cfg.flows mid.flowMeta cp.cardId with hrx
  have H : RxShare rx T.afterFlows := hshare _ _ T.flows_eq
  have hbg : ∀ x ∈ rx, x.1.background = false := fun x hx => (mem_received.mp hx).2.1
  have hentries := hashPostPass_entries T.hash_eq
  rw [T.hashEntries_eq, H.hash] at hentries
  refine
    { sound := soundHashTable_of_postPass T.hash_eq
      slotsInRange := slotsInRange_of_compile h hcp
      slots := ?_, slot_inj := ?_, id_inj := ?_, flowIds := H.flowIds
      map := ?_, hash := ?_, hash_only := ?_ }
  · rw [T.flowRows_eq]
    exact H.slots
  · intro x hx y hy hxy
    exact eq_of_pairwise_key_ne (fun x => x.2.rxLocalFlowId) H.nodup hx hy hxy
  · intro x hx y hy hxy
    have hzip : (cfg.flows.zip mid.flowMeta).Pairwise fun x y => x.1.id ≠ y.1.id := by
      have hfst : (cfg.flows.zip mid.flowMeta).map Prod.fst = cfg.flows :=
        List.map_fst_zip (Nat.le_of_eq hlen)
      have hpw := hvalid.flows
      rw [← hfst] at hpw
      rwa [List.pairwise_map] at hpw
    exact eq_of_pairwise_key_ne (fun x => x.1.id) hzip (mem_received.mp hx).1
      (mem_received.mp hy).1 hxy
  · intro m
    rw [T.mapEntries_eq, H.map, List.mem_flatMap]
    constructor
    · intro hm
      obtain ⟨x, hx, hm⟩ := hm
      exact ⟨x, hx, (mem_mapShare_iff (hbg x hx)).mp hm⟩
    · intro hm
      obtain ⟨x, hx, hm⟩ := hm
      exact ⟨x, hx, (mem_mapShare_iff (hbg x hx)).mpr hm⟩
  · intro x hx hh
    have hd := (mem_hashShare_iff (hbg x hx) x.2.rxLocalFlowId).mpr ⟨hh, rfl⟩
    obtain ⟨e, he, hlfid, hkey⟩ := exists_right_of_forall₂ hentries
      (List.mem_flatMap.mpr ⟨x, hx, hd⟩)
    exact ⟨e, he, hlfid, hkey⟩
  · intro e he
    obtain ⟨d, hd, hlfid, hkey⟩ := exists_left_of_forall₂ hentries he
    obtain ⟨x, hx, hd⟩ := List.mem_flatMap.mp hd
    obtain ⟨hh, rfl⟩ := (mem_hashShare_iff (hbg x hx) _).mp hd
    exact ⟨x, hx, hh, hlfid, hkey⟩

/-! ## Lookups -/

/-- No rule of a configuration makes test traffic of a frame. -/
theorem action_directResult_ne (cfg : PwConfig) (c : BitVec 16) (k : PwMatchKey) (win : Window)
    (base : BitVec 16) : (directResult cfg c k win base).action ≠ .testRx := by
  have hrule : ∀ r ∈ directRules cfg c, r.result.action ≠ .testRx := by
    intro r hr
    rw [directRules, List.mem_append, List.mem_flatMap, List.mem_flatMap] at hr
    rcases hr with ⟨l, -, hr⟩ | ⟨fr, -, hr⟩
    · rw [lifRules] at hr
      split at hr
      · split at hr
        · obtain ⟨t, -, rfl⟩ := List.mem_map.mp hr
          simp
        · simp at hr
      · simp at hr
    · rw [fwdRules] at hr
      split at hr
      · split at hr
        · rw [List.mem_singleton] at hr
          rw [hr]
          simp
        · simp at hr
      · simp at hr
  rw [directResult, select]
  cases hbest : firstBest (fun r : DirectRule => r.priority.toNat)
      ((directRules cfg c).filter fun r => r.applies k win base) with
  | none => simp
  | some r =>
    have hmem := mem_of_firstBest hbest
    exact hrule r (List.mem_filter.mp hmem).1

section CompiledRx

variable {rx : List (PwFlow × PwFlowMeta)} {cp : PwCardProgram} {lfw : ℕ}

/-- **The flow-id map of a card**: a test frame with the id of a flow that the
card receives and that is not header-classified. -/
theorem CompiledRx.map_lookup_iff (H : CompiledRx rx cp) {k : PwMatchKey} {lfid : BitVec lfw} :
    (cp.mapTable lfw).lookup k = some lfid ↔
      k.isTest = true ∧ ∃ x ∈ rx, x.1.classifyHeader = false ∧ x.1.id = k.testFlowId ∧
        x.2.rxLocalFlowId.setWidth lfw = lfid := by
  have hid : ∀ m ∈ cp.mapEntries, m.flowId.toNat < 256 := by
    intro m hm
    obtain ⟨x, hx, hh, rfl⟩ := (H.map m).mp hm
    exact H.flowIds x hx hh
  have hentry : ∀ m ∈ cp.mapEntries, cp.mapTable lfw (Fin.ofNat 256 m.flowId.toNat) = m.row lfw := by
    intro m hm
    apply writeAll_of_forall ⟨m, hm, rfl⟩
    intro m' hm' heq
    have hval := congrArg Fin.val heq
    have h₁ := hid m hm
    have h₂ := hid m' hm'
    simp only [Fin.ofNat, Nat.mod_eq_of_lt h₁, Nat.mod_eq_of_lt h₂] at hval
    obtain ⟨x, hx, -, rfl⟩ := (H.map m).mp hm
    obtain ⟨y, hy, -, rfl⟩ := (H.map m').mp hm'
    rw [H.id_inj y hy x hx (BitVec.eq_of_toNat_eq hval)]
  simp only [FlowidMap.lookup, Option.ite_none_right_eq_some, Bool.and_eq_true,
    decide_eq_true_eq, Option.some.injEq]
  constructor
  · intro h
    obtain ⟨⟨⟨htest, hlt⟩, hvalid⟩, hlfid⟩ := h
    have hmem : ∃ m ∈ cp.mapEntries, Fin.ofNat 256 m.flowId.toNat =
        (⟨k.testFlowId.toNat % 256, Nat.mod_lt _ (by decide)⟩ : Fin 256) := by
      by_contra hno
      rw [PwCardProgram.mapTable, writeAll_of_not_mem fun m hm hi => hno ⟨m, hm, hi⟩] at hvalid
      simp at hvalid
    obtain ⟨m, hm, hidx⟩ := hmem
    rw [← hidx, hentry m hm] at hlfid
    have hval := congrArg Fin.val hidx
    have hm256 := hid m hm
    simp only [Fin.ofNat, Nat.mod_eq_of_lt hlt, Nat.mod_eq_of_lt hm256] at hval
    obtain ⟨x, hx, hh, rfl⟩ := (H.map m).mp hm
    exact ⟨htest, x, hx, hh, BitVec.eq_of_toNat_eq hval, hlfid⟩
  · intro h
    obtain ⟨htest, x, hx, hh, hxid, hlfid⟩ := h
    have hm := (H.map _).mpr ⟨x, hx, hh, rfl⟩
    have hlt := H.flowIds x hx hh
    have hidx : (⟨k.testFlowId.toNat % 256, Nat.mod_lt _ (by decide)⟩ : Fin 256) =
        Fin.ofNat 256 x.1.id.toNat := by rw [← hxid]; rfl
    rw [hidx, hentry _ hm]
    refine ⟨⟨⟨htest, ?_⟩, rfl⟩, hlfid⟩
    rw [← hxid]
    exact hlt

/-- **The hash table of a card**: a key that under the mask is that of a
header-classified flow the card receives. -/
theorem CompiledRx.hash_lookup_iff (H : CompiledRx rx cp) {k : PwMatchKey} {lfid : BitVec lfw} :
    (cp.hashTables lfw).lookup k = some lfid ↔
      ∃ x ∈ rx, x.1.classifyHeader = true ∧
        packWords (pwFcHashWords x.1) &&& packWords cp.hashMask =
          assemble k &&& packWords cp.hashMask ∧ x.2.rxLocalFlowId.setWidth lfw = lfid := by
  rw [lookup_eq_some_iff H.sound]
  constructor
  · intro h
    obtain ⟨e, he, hkey, hlfid⟩ := h
    obtain ⟨x, hx, hh, hslot, hword⟩ := H.hash_only e he
    refine ⟨x, hx, hh, ?_, hslot ▸ hlfid⟩
    rw [packWords_and, ← hword, hkey]
  · intro h
    obtain ⟨x, hx, hh, hkey, hlfid⟩ := h
    obtain ⟨e, he, hslot, hword⟩ := H.hash x hx hh
    refine ⟨e, he, ?_, by rw [hslot, hlfid]⟩
    rw [hword, ← packWords_and, hkey]

/-- A key that belongs to a flow of the card: the flow's id in a test header,
or for a header-classified flow its header fields under the card's mask, where
no test header names another flow of the card. -/
def OwnKey (rx : List (PwFlow × PwFlowMeta)) (mask : HashKey) (f : PwFlow) (k : PwMatchKey) :
    Prop :=
  if f.classifyHeader then
    (¬(k.isTest = true ∧ ∃ x ∈ rx, x.1.classifyHeader = false ∧ x.1.id = k.testFlowId)) ∧
      packWords (pwFcHashWords f) &&& mask = assemble k &&& mask
  else k.isTest = true ∧ f.id = k.testFlowId

/-- A slot among the card's rows survives the slot register. -/
theorem setWidth_slot {s : BitVec 32} (h : s.toNat < 2 ^ lfw) :
    (s.setWidth lfw).setWidth 32 = s := by
  apply BitVec.eq_of_toNat_eq
  rw [BitVec.toNat_setWidth, BitVec.toNat_setWidth, Nat.mod_eq_of_lt h, Nat.mod_eq_of_lt s.isLt]

/-- A key that belongs to a flow answers with the flow's slot. -/
theorem CompiledRx.lookup_of_ownKey (H : CompiledRx rx cp) (lfw : ℕ) {x : PwFlow × PwFlowMeta}
    (hx : x ∈ rx) {k : PwMatchKey} (hk : OwnKey rx (packWords cp.hashMask) x.1 k) :
    (cp.mapTable lfw).lookup k = some (x.2.rxLocalFlowId.setWidth lfw) ∨
      (cp.mapTable lfw).lookup k = none ∧
        (cp.hashTables lfw).lookup k = some (x.2.rxLocalFlowId.setWidth lfw) := by
  cases hh : x.1.classifyHeader with
  | false =>
    rw [OwnKey, if_neg (by simp [hh])] at hk
    exact Or.inl (H.map_lookup_iff.mpr ⟨hk.1, x, hx, hh, hk.2, rfl⟩)
  | true =>
    rw [OwnKey, if_pos hh] at hk
    refine Or.inr ⟨?_, H.hash_lookup_iff.mpr ⟨x, hx, hh, hk.2, rfl⟩⟩
    rw [Option.eq_none_iff_forall_ne_some]
    intro l hl
    obtain ⟨htest, y, hy, hyh, hyid, -⟩ := H.map_lookup_iff.mp hl
    exact hk.1 ⟨htest, y, hy, hyh, hyid⟩

/-- The flow whose slot is answered owns the key. -/
theorem CompiledRx.ownKey_of_lookup (H : CompiledRx rx cp) (hfit : cp.flowRows.length ≤ 2 ^ lfw)
    {x : PwFlow × PwFlowMeta} (hx : x ∈ rx) {k : PwMatchKey} {l : BitVec lfw}
    (hl : (cp.mapTable lfw).lookup k = some l ∨
      (cp.mapTable lfw).lookup k = none ∧ (cp.hashTables lfw).lookup k = some l)
    (hslot : l.setWidth 32 = x.2.rxLocalFlowId) : OwnKey rx (packWords cp.hashMask) x.1 k := by
  have hsame : ∀ y ∈ rx, y.2.rxLocalFlowId.setWidth lfw = l → y = x := by
    intro y hy hyl
    apply H.slot_inj y hy x hx
    rw [← hslot, ← hyl, setWidth_slot ((H.slots y hy).trans_le hfit)]
  rcases hl with hm | ⟨hm, hh⟩
  · obtain ⟨htest, y, hy, hyh, hyid, hyl⟩ := H.map_lookup_iff.mp hm
    obtain rfl := hsame y hy hyl
    rw [OwnKey, if_neg (by simp [hyh])]
    exact ⟨htest, hyid⟩
  · obtain ⟨y, hy, hyh, hkey, hyl⟩ := H.hash_lookup_iff.mp hh
    obtain rfl := hsame y hy hyl
    rw [OwnKey, if_pos hyh]
    refine ⟨?_, hkey⟩
    intro hno
    obtain ⟨htest, z, hz, hzh, hzid⟩ := hno
    rw [H.map_lookup_iff.mpr ⟨htest, z, hz, hzh, hzid, rfl⟩] at hm
    cases hm

/-- **A frame is test traffic for the slot of a flow exactly when its key belongs
to the flow**, on a card with a slot register wide enough for its rows. -/
theorem testRx_iff_ownKey {cfg : PwConfig} (H : CompiledRx rx cp)
    (hrules : RulesOk cp (ruleSpecs cfg cp.cardId)) (hfit : cp.flowRows.length ≤ 2 ^ lfw)
    {x : PwFlow × PwFlowMeta} (hx : x ∈ rx) (k : PwMatchKey) (win : Window) (base : BitVec 16) :
    (((cp.tables lfw).eff k win base).hit = true ∧
      ((cp.tables lfw).eff k win base).action = .testRx ∧
      ((cp.tables lfw).eff k win base).localFlowId = x.2.rxLocalFlowId) ↔
      OwnKey rx (packWords cp.hashMask) x.1 k := by
  have hx32 := setWidth_slot ((H.slots x hx).trans_le hfit)
  simp only [CardTables.eff, PwCardProgram.tables]
  constructor
  · intro h
    cases hm : (cp.mapTable lfw).lookup k with
    | some l =>
      rw [hm] at h
      exact H.ownKey_of_lookup hfit hx (Or.inl hm) h.2.2
    | none =>
      rw [hm] at h
      cases hh : (cp.hashTables lfw).lookup k with
      | some l =>
        rw [hh] at h
        exact H.ownKey_of_lookup hfit hx (Or.inr ⟨hm, hh⟩) h.2.2
      | none =>
        rw [hh] at h
        dsimp only at h
        rw [result_eq_directResult hrules] at h
        exact absurd h.2.1 (action_directResult_ne cfg _ k win base)
  · intro hk
    rcases H.lookup_of_ownKey lfw hx hk with hm | ⟨hm, hh⟩
    · rw [hm]
      exact ⟨rfl, rfl, hx32⟩
    · rw [hm, hh]
      exact ⟨rfl, rfl, hx32⟩

end CompiledRx

end PacketWyrm
