import PacketWyrm.FlowTable
import PacketWyrm.HeaderFields

/-!
# Rows through the flow table

The host writes the structs of its rows word by word, commits, and waits; the
table then delivers, for every slot that was written, the fields of its struct.
The writes may come with any spacing, and the table may hold anything before.

## Main definitions

* `PwfpgaFlowConfig.Fits` — the narrow fields hold values in their range.
* `PwfpgaFlowConfig.Lossless` — a decoded row has lost nothing of them.

## Main results

* `flow_table_round_trip` — what the table delivers after the walk.
-/

namespace PacketWyrm

open Lib

/-! ## Narrow fields -/

/-- The fields that the decoder cuts hold values that fit. -/
structure PwfpgaFlowConfig.Fits (c : PwfpgaFlowConfig) : Prop where
  egress : c.egressLocalPort.toNat < 16
  vlanId : c.vlanId.toNat < 4096
  srcIpv4Mod : c.srcIpv4Mod.toNat < 4
  dstIpv4Mod : c.dstIpv4Mod.toNat < 4
  udpSrcMod : c.udpSrcMod.toNat < 4
  udpDstMod : c.udpDstMod.toNat < 4
  srcMacMod : c.srcMacMod.toNat < 4
  dstMacMod : c.dstMacMod.toNat < 4
  vlanMod : c.vlanMod.toNat < 4
  encapType : c.encapType.toNat < 4
  frameTemplate : c.frameTemplate.toNat < 4
  l4Proto : c.l4Proto = 6#8 ∨ c.l4Proto = 17#8

/-- The decoded row has the values of the fields that are cut. -/
structure PwfpgaFlowConfig.Lossless (c : PwfpgaFlowConfig) (r : PwFlowRow) : Prop where
  egress : r.egress.setWidth 8 = c.egressLocalPort
  vlanId : r.vlanId.setWidth 16 = c.vlanId
  sipMod : r.sipMod.setWidth 8 = c.srcIpv4Mod
  dipMod : r.dipMod.setWidth 8 = c.dstIpv4Mod
  spMod : r.spMod.setWidth 8 = c.udpSrcMod
  dpMod : r.dpMod.setWidth 8 = c.udpDstMod
  smacMod : r.smacMod.setWidth 8 = c.srcMacMod
  dmacMod : r.dmacMod.setWidth 8 = c.dstMacMod
  vlanMod : r.vlanMod.setWidth 8 = c.vlanMod
  encapType : r.encapType.setWidth 8 = c.encapType
  frameTemplate : r.frameTemplate.setWidth 8 = c.frameTemplate
  l4Proto : r.l4Proto = c.l4Proto

theorem setWidth_setWidth_of_lt {n m : ℕ} {x : BitVec n} (h : x.toNat < 2 ^ m) :
    (x.setWidth m).setWidth n = x := by
  apply BitVec.eq_of_toNat_eq
  rw [BitVec.toNat_setWidth, BitVec.toNat_setWidth, Nat.mod_eq_of_lt h, Nat.mod_eq_of_lt x.isLt]

theorem PwfpgaFlowConfig.Fits.lossless {c : PwfpgaFlowConfig} (h : c.Fits) :
    c.Lossless c.decoded :=
  { egress := setWidth_setWidth_of_lt h.egress
    vlanId := setWidth_setWidth_of_lt h.vlanId
    sipMod := setWidth_setWidth_of_lt h.srcIpv4Mod
    dipMod := setWidth_setWidth_of_lt h.dstIpv4Mod
    spMod := setWidth_setWidth_of_lt h.udpSrcMod
    dpMod := setWidth_setWidth_of_lt h.udpDstMod
    smacMod := setWidth_setWidth_of_lt h.srcMacMod
    dmacMod := setWidth_setWidth_of_lt h.dstMacMod
    vlanMod := setWidth_setWidth_of_lt h.vlanMod
    encapType := setWidth_setWidth_of_lt h.encapType
    frameTemplate := setWidth_setWidth_of_lt h.frameTemplate
    l4Proto := normL4Proto_eq h.l4Proto }

/-- **The compiler's rows fit**: its enumerations have at most four members, and
the parser bounds the VLAN and the ports. -/
theorem txRow_fits {f : PwFlow} (hf : f.Parsed) {egress : BitVec 8} (he : egress.toNat < 2)
    (lfid : BitVec 32) (same : Bool) : (txRow f egress lfid same).Fits := by
  have hmode : ∀ m : PwFieldMode, m.code.toNat < 4 := by
    intro m
    cases m <;> decide
  have hproto : (if f.udp.l4Proto = 0 then 17 else f.udp.l4Proto) = f.udp.l4Proto := by
    rw [if_neg]
    rcases hf.l4Proto with h | h <;> rw [h] <;> decide
  have hencap : (if f.encap.present = true then f.encap.type.code else 0).toNat < 4 := by
    split
    · cases f.encap.type <;> decide
    · decide
  have htmpl : f.traffic.frameTemplate.code.toNat < 4 := by
    cases f.traffic.frameTemplate <;> decide
  have hvlan := hf.vlan
  simp only [txRow, PwfpgaFlowConfig.withModifiers, PwfpgaFlowConfig.withLengths_eq,
    PwfpgaFlowConfig.withInnerIp_eq, PwfpgaFlowConfig.withEncap_eq]
  exact
    { egress := by dsimp only; omega
      vlanId := by dsimp only; omega
      srcIpv4Mod := hmode _, dstIpv4Mod := hmode _, udpSrcMod := hmode _, udpDstMod := hmode _
      srcMacMod := hmode _, dstMacMod := hmode _, vlanMod := hmode _
      encapType := hencap, frameTemplate := htmpl
      l4Proto := by
        dsimp only
        rw [hproto]
        exact hf.l4Proto }

/-! ## What the host stages -/

section Staging

variable {depth nflows : ℕ} {rows : List PwfpgaFlowConfig}

/-- The words of the first `nflows` slots. -/
def rowWrites (nflows : ℕ) (rows : List PwfpgaFlowConfig) : List CsrWrite :=
  (List.range nflows).flatMap fun r => barFlowWrite r (rows.getD r {})

theorem mem_rowWrites {w : CsrWrite} :
    w ∈ rowWrites nflows rows ↔
      ∃ r < nflows, ∃ j < 61,
        w = ⟨winFlowTable + r * 256 + 4 * j, (rows.getD r {}).word j⟩ := by
  simp only [rowWrites, barFlowWrite, List.mem_flatMap, List.mem_range, List.mem_map]
  constructor
  · rintro ⟨r, hr, j, hj, rfl⟩
    exact ⟨r, hr, j, hj, rfl⟩
  · rintro ⟨r, hr, j, hj, rfl⟩
    exact ⟨r, hr, j, hj, rfl⟩

/-- No word of a row is the commit register. -/
theorem not_isCommit_of_mem_rowWrites {w : CsrWrite} (hw : w ∈ rowWrites nflows rows) :
    w.isCommit = false := by
  obtain ⟨r, -, j, hj, rfl⟩ := mem_rowWrites.mp hw
  have hne : ¬winFlowTable + r * 256 + 4 * j = winFlowTable + 0x3FFC := by omega
  simp [CsrWrite.isCommit, hne]

/-- After the writes, word `j` of a slot is word `j` of its row. -/
theorem writeAll_rowWrites {ν : Type} (val : CsrWrite → ν) {r j : ℕ} (hr : r < nflows)
    (hrd : r < depth) (hj : j < 61) (t : ℕ → ν) :
    writeAll CsrWrite.wword val ((rowWrites nflows rows).filter (CsrWrite.isRow depth)) t
        (64 * r + j) =
      val ⟨winFlowTable + r * 256 + 4 * j, (rows.getD r {}).word j⟩ := by
  have hword : ∀ r' j', j' < 61 →
      CsrWrite.wword ⟨winFlowTable + r' * 256 + 4 * j', (rows.getD r' {}).word j'⟩ =
        64 * r' + j' := by
    intro r' j' _
    rw [CsrWrite.wword]
    dsimp only
    omega
  apply writeAll_of_forall
  · refine ⟨⟨winFlowTable + r * 256 + 4 * j, (rows.getD r {}).word j⟩, ?_, hword r j hj⟩
    rw [List.mem_filter]
    refine ⟨mem_rowWrites.mpr ⟨r, hr, j, hj, rfl⟩, ?_⟩
    simp only [CsrWrite.isRow, decide_eq_true_eq]
    omega
  · intro w hw hidx
    obtain ⟨r', -, j', hj', rfl⟩ := mem_rowWrites.mp (List.mem_filter.mp hw).1
    rw [hword r' j' hj'] at hidx
    have hr' : r' = r := by omega
    have hj'' : j' = j := by omega
    rw [hr', hj'']

end Staging

/-! ## The round trip -/

/-- The cycles that deliver the host's writes: the rows, then the commit. -/
theorem split_flowWrites {n : Option ℕ} {rows : List PwfpgaFlowConfig} {ins : List FlowTableIn}
    (h : ins.filterMap FlowTableIn.wr = flowWrites n rows) :
    ∃ pre c post, ins = pre ++ c :: post ∧
      pre.filterMap FlowTableIn.wr =
        rowWrites (min (max rows.length (n.getD 0)) flowTableRows) rows ∧
      c.wr = some ⟨winFlowTable + 0x3FFC, 1⟩ ∧ ∀ i ∈ post, i.wr = none := by
  rw [flowWrites, barFlowCommit] at h
  obtain ⟨l₁, l₂, rfl, h₁, h₂⟩ := List.filterMap_eq_append_iff.mp h
  obtain ⟨m₁, c, post, rfl, hm, hc, hpost⟩ := List.filterMap_eq_cons_iff.mp h₂
  refine ⟨l₁ ++ m₁, c, post, by simp, ?_, hc, ?_⟩
  · rw [List.filterMap_append, h₁, List.filterMap_eq_nil_iff.mpr hm, List.append_nil]
    rfl
  · exact List.filterMap_eq_nil_iff.mp hpost

/-- **Rows come out of the table as the host put them in.**  From any idle table,
whatever it holds, for every spacing of the writes: once the walk has had its
cycles, every slot that was written delivers the fields of its struct, and its
descriptor is the one of that row. -/
theorem flow_table_round_trip {depth : ℕ} {n : Option ℕ} {rows : List PwfpgaFlowConfig}
    {s : FlowTable} (hs : s.Idle) {ins quiet : List FlowTableIn}
    (hins : ins.filterMap FlowTableIn.wr = flowWrites n rows)
    (hquiet : ∀ i ∈ quiet, i.Quiet depth) (hlen : depth * 64 + 3 ≤ quiet.length)
    {r : ℕ} (hrd : r < depth) (hr : r < min (max rows.length (n.getD 0)) flowTableRows) :
    (run (FlowTable.step depth) s (ins ++ quiet)).mem r = (rows.getD r {}).decoded ∧
    (run (FlowTable.step depth) s (ins ++ quiet)).sched r = schedOf (rows.getD r {}).decoded ∧
    (∀ i, i.rdAddr = r →
      ((run (FlowTable.step depth) s (ins ++ quiet)).step depth i).rdQ =
        (rows.getD r {}).decoded) ∧
    ((rows.getD r {}).Fits → (rows.getD r {}).Lossless (rows.getD r {}).decoded) := by
  obtain ⟨pre, c, post, rfl, hpre, hc, hpost⟩ := split_flowWrites hins
  obtain ⟨hidle, hstg, hww⟩ := hs.run depth (l := pre) (by
    intro w hw
    rw [hpre] at hw
    exact not_isCommit_of_mem_rowWrites hw)
  rw [hpre] at hstg hww
  -- the state after the commit, and what the walk will read
  set t := run (FlowTable.step depth) s (pre ++ [c]) with ht
  have hstep : t = (run (FlowTable.step depth) s pre).step depth c := by rw [ht, run_concat]
  have hreq : t.commitReq = true := by
    simp [hstep, FlowTable.step, FlowTable.stage, hc, hidle.commitReq, hidle.walking,
      CsrWrite.isCommit]
  have hstaged : ∀ j < 61, t.staged (64 * r + j) = (rows.getD r {}).word j := by
    intro j hj
    have hne : 64 * r + j ≠ CsrWrite.wword ⟨winFlowTable + 0x3FFC, 1⟩ := by
      rw [CsrWrite.wword]
      dsimp only
      omega
    have hstg' : t.stg (64 * r + j) = (rows.getD r {}).word j := by
      rw [hstep]
      simp only [FlowTable.step, FlowTable.stage, hc]
      split
      · rw [Function.update_of_ne hne, hstg, writeAll_rowWrites _ hr hrd hj]
      · rw [hstg, writeAll_rowWrites _ hr hrd hj]
    have hww' : t.wordWritten (64 * r + j) = true := by
      rw [hstep]
      simp only [FlowTable.step, FlowTable.stage, hc]
      split
      · rw [Function.update_of_ne hne, hww, writeAll_rowWrites _ hr hrd hj]
      · rw [hww, writeAll_rowWrites _ hr hrd hj]
    rw [FlowTable.staged, hww', if_pos rfl, hstg']
  -- the rest of the run is quiet
  have hrest : ∀ i ∈ post ++ quiet, i.Quiet depth := by
    intro i hi w hw
    rcases List.mem_append.mp hi with h | h
    · rw [hpost i h] at hw
      cases hw
    · exact hquiet i h w hw
  have hrun : run (FlowTable.step depth) s (pre ++ c :: post ++ quiet) =
      run (FlowTable.step depth) t (post ++ quiet) := by
    rw [ht, ← run_append]
    simp
  have hwalk : ∃ j, 64 * r + 66 ≤ j ∧ FlowTable.WalkAt depth t.staged j
      (run (FlowTable.step depth) t (post ++ quiet)) := by
    cases hl : post ++ quiet with
    | nil =>
      have := congrArg List.length hl
      simp only [List.length_append, List.length_nil] at this
      omega
    | cons i l =>
      rw [hl] at hrest
      have hstart := FlowTable.walkAt_start hreq (by
        simp [hstep, FlowTable.step, hidle.walking, hidle.commitReq]) (by
        simp [hstep, FlowTable.step, hidle.walking]) (hrest i List.mem_cons_self)
      have hgo := FlowTable.walkAt_run hstart fun m hm => hrest m (List.mem_cons_of_mem _ hm)
      refine ⟨_, ?_, hgo⟩
      have := congrArg List.length hl
      simp only [List.length_append, List.length_cons] at this
      omega
  obtain ⟨j, hj, hat⟩ := hwalk
  obtain ⟨hmem, hsched⟩ := hat.rows r hrd hj
  rw [decodeAt_eq hstaged] at hmem hsched
  rw [hrun]
  refine ⟨hmem, hsched, ?_, PwfpgaFlowConfig.Fits.lossless⟩
  intro i hi
  show (run (FlowTable.step depth) t (post ++ quiet)).mem i.rdAddr = _
  rw [hi, hmem]

/-- The compiled row of a flow to port 1. -/
def sampleTxRow : PwfpgaFlowConfig := txRow (sampleHeaderFlow 1 0x0A000002) 1 0 true

/-- An idle table of two rows with arbitrary contents. -/
def sampleFlowTable : FlowTable :=
  let old := { sampleTxRow with udpDstPort := 9 }.decoded
  { stg := fun _ => 0xDEADBEEF, wordWritten := fun _ => true, commitReq := false
    walking := false, rdPtr := 7, stgQ := 0, wwQ := false, rdPtrD := 3, rdVldD := false
    rowAcc := fun _ => 5, rowDone := false, rowIdx := 1, sched := fun _ => {}, mem := fun _ => old
    rdQ := old }

/-- The row of the flow is delivered, with its narrow fields as they were. -/
theorem flow_table_round_trip_sample :
    (run (FlowTable.step 2) sampleFlowTable
        ((flowWrites none [sampleTxRow]).map (fun w => { wr := some w, rdAddr := 1 }) ++
          List.replicate 131 { wr := none, rdAddr := 0 })).mem 0 = sampleTxRow.decoded ∧
      sampleTxRow.Lossless sampleTxRow.decoded := by
  have hins : ((flowWrites none [sampleTxRow]).map
      (fun w => ({ wr := some w, rdAddr := 1 } : FlowTableIn))).filterMap FlowTableIn.wr =
      flowWrites none [sampleTxRow] := by
    rw [List.filterMap_map]
    exact List.filterMap_some
  have hquiet : ∀ i ∈ List.replicate 131 ({ wr := none, rdAddr := 0 } : FlowTableIn),
      i.Quiet 2 := by
    intro i hi w hw
    rw [List.eq_of_mem_replicate hi] at hw
    cases hw
  have hrow : [sampleTxRow].getD 0 {} = sampleTxRow := rfl
  have hlen : 2 * 64 + 3 ≤ (List.replicate 131 ({ wr := none, rdAddr := 0 } : FlowTableIn)).length := by
    rw [List.length_replicate]
  have h := flow_table_round_trip (s := sampleFlowTable) ⟨rfl, rfl, rfl, rfl⟩ hins hquiet
    hlen (r := 0) (by decide) (by decide)
  rw [hrow] at h
  exact ⟨h.1, h.2.2.2 (txRow_fits (parsed_sampleHeaderFlow 1 0x0A000002) (by decide) 0 true)⟩

end PacketWyrm
