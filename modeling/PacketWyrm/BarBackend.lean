import PacketWyrm.CsrWindows
import PacketWyrm.StatsSnapshot

/-!
# The BAR backend

The accesses that the backend makes in the mapped BAR.  Offsets are computed in the machine's own
words: a row's offset in 64 bits, with the range check on it, and the offsets of the table writes in
32 bits.  A load or a store at an offset is recorded together with the window that the code
addresses there, so that an offset that wraps would be seen outside its window.

## Main definitions

* `MappedBar` — a BAR as `bar_backend_attach` accepts it.
* `MappedBar.barFlowWrite`, `MappedBar.barFlowStatsRead`, `MappedBar.barFlowHistRead` — the row
  accessors.
* `MappedBar.pwProgramCardTablesDiag` — the programming of a card over this backend.

## Main results

* `MappedBar.result_barFlowStatsRead` — the machine's words compute what numbers do.
* `csr_window_confinement` — every access is inside its window and inside the BAR, at the offset
  that exact arithmetic gives.
-/

namespace PacketWyrm

open Lib

/-! ## The mapped BAR -/

/-- `csr_range_ok`. -/
def csrRangeOk (csrOff : BitVec 32) (size off len : BitVec 64) : Bool :=
  let last := csrOff.setWidth 64 + off + len
  decide (off ≤ last) && decide (last ≤ size)

/-- `struct bar_ctx`: the size of the mapping, and where the register window starts in it.  The
identity block is mapped, or `bar_backend_attach` fails. -/
structure MappedBar where
  size : BitVec 64
  csrOff : BitVec 32
  identity : csrRangeOk csrOff size 0 0x28 = true

/-- `PWFPGA_CSR_DMA_OFFSET`. -/
def csrDmaOffset : ℕ := 0x10000

/-- The probe of `bar_backend_attach`: a large BAR may have the registers in its upper half.  `bar`
is the word at an offset of the mapping. -/
def probeCsrOff (size : BitVec 64) (bar : ℕ → BitVec 32) : BitVec 32 :=
  if csrDmaOffset + 0x1000 ≤ size.toNat ∧ bar csrDmaOffset >>> 16 = 0xA502 ∧ bar 0 >>> 16 ≠ 0xA502
  then BitVec.ofNat 32 csrDmaOffset
  else 0

/-- `bar_backend_attach`, up to the slow path: `dmaUp` is whether that came up, which a bitstream
with DMA needs. -/
def barBackendAttach (size : BitVec 64) (bar : ℕ → BitVec 32) (dmaUp : Bool) :
    Except PwStatus MappedBar :=
  let csrOff := probeCsrOff size bar
  if h : csrRangeOk csrOff size 0 0x28 = true then
    if (bar (csrOff.toNat + 0x10)).getLsbD 0 && !dmaUp then .error .backend
    else .ok { size, csrOff, identity := h }
  else .error .outOfRange

/-- A load, or a store with its word, at an offset of the register window. -/
structure CsrAccess where
  window : CsrWindow
  off : ℕ
  store : Option (BitVec 32) := none
  deriving DecidableEq, Repr

/-- What a call returns, and the accesses it made. -/
structure BarCall (α : Type) where
  result : Except PwStatus α
  accesses : List CsrAccess

/-- A call that returns before any access. -/
def BarCall.refuse {α : Type} (s : PwStatus) : BarCall α := { result := .error s, accesses := [] }

/-- `bar_copy_words`.  All sizes are whole words, and the tail is never taken. -/
def barCopyWords (w : CsrWindow) (dst : BitVec 32) (src : List (BitVec 32)) : List CsrAccess :=
  src.zipIdx.map fun x => { window := w, off := dst.toNat + 4 * x.2, store := some x.1 }

/-- The loads of `bar_copy_words_out`. -/
def barCopyWordsOut (w : CsrWindow) (src : BitVec 32) (n : ℕ) : List CsrAccess :=
  (List.range n).map fun j => { window := w, off := src.toNat + 4 * j }

namespace MappedBar

variable (c : MappedBar) (bar : ℕ → BitVec 32)

/-- `csr_range_ok` of a mapping. -/
def rangeOk (off len : BitVec 64) : Bool := csrRangeOk c.csrOff c.size off len

/-- A word that `bar_copy_words_out` loads. -/
def word (src : BitVec 32) (k : ℕ) : BitVec 32 := bar (c.csrOff.toNat + (src.toNat + 4 * k))

/-- `bar_write32`, to a register of the window. -/
def barWrite32 (w : CsrWindow) (off v : BitVec 32) : BarCall Unit :=
  if c.rangeOk (off.setWidth 64) 4 then
    { result := .ok (), accesses := [{ window := w, off := off.toNat, store := some v }] }
  else .refuse .outOfRange

/-- `bar_flow_write`; no row is a null pointer. -/
def barFlowWrite (row : BitVec 32) (f : Option PwfpgaFlowConfig) : BarCall Unit :=
  match f with
  | none => .refuse .inval
  | some f =>
    let base : BitVec 64 := BitVec.ofNat 64 winFlowTable + row.setWidth 64 * 256
    if BitVec.ofNat 64 (winFlowTable + 0x3FFC) < base + 244 then .refuse .outOfRange
    else if c.rangeOk base 244 then
      { result := .ok ()
        accesses := barCopyWords .flowTable (base.setWidth 32) ((List.range 61).map f.word) }
    else .refuse .outOfRange

/-- `bar_flow_commit`: the store, and the load that posts it. -/
def barFlowCommit : BarCall Unit :=
  let off := winFlowTable + 0x3FFC
  if c.rangeOk (BitVec.ofNat 64 off) 4 then
    { result := .ok ()
      accesses := [{ window := .flowTable, off, store := some 1 }, { window := .flowTable, off }] }
  else .refuse .outOfRange

/-- `bar_flow_stats_read`; `out` says that there is a place for the counters. -/
def barFlowStatsRead (lfid : BitVec 32) (out : Bool) : BarCall PwFlowStats :=
  if !out then .refuse .inval
  else if pwfpgaFlowStatsSlots ≤ lfid.toNat then .refuse .outOfRange
  else
    let base : BitVec 64 := BitVec.ofNat 64 (pwfpgaWinStatsSnapshot + snapFlowBase) +
      lfid.setWidth 64 * BitVec.ofNat 64 snapStride
    if c.rangeOk base (BitVec.ofNat 64 pwFlowStatsSize) then
      { result := .ok (pwFlowStatsOfWords fun k => c.word bar (base.setWidth 32) k)
        accesses := barCopyWordsOut .statsSnapshot (base.setWidth 32) (pwFlowStatsSize / 4) }
    else .refuse .outOfRange

/-- `PWFPGA_FLOW_HIST_SLOTS`: slots of 128 bytes between the window and the next one. -/
def flowHistSlots : ℕ := (0xC000 - 0xA000) / 128

/-- `bar_flow_hist_read`: at most as many buckets as a slot has, two words each. -/
def barFlowHistRead (lfid : BitVec 32) (buckets : Bool) (nBuckets : BitVec 64) :
    BarCall (List (BitVec 32)) :=
  if !buckets then .refuse .inval
  else if flowHistSlots ≤ lfid.toNat then .refuse .outOfRange
  else
    let base : BitVec 64 := BitVec.ofNat 64 0xA000 + lfid.setWidth 64 * 128
    let cap : BitVec 64 := 128 / 8
    let n := if cap < nBuckets then cap else nBuckets
    if c.rangeOk base (n * 8) then
      { result := .ok ((List.range (2 * n.toNat)).map (c.word bar (base.setWidth 32)))
        accesses := barCopyWordsOut .histogram (base.setWidth 32) (2 * n.toNat) }
    else .refuse .outOfRange

/-! ## Programming a card -/

/-- `bar_card_info`: the nine identity registers, without a check of their own. -/
def cardInfoAccesses : List CsrAccess :=
  (List.range 9).map fun j => { window := .identity, off := 4 * j }

/-- The number of flow slots that `bar_card_info` reports, 16 bits of its register. -/
def numLocalFlows : ℕ := ((bar (c.csrOff.toNat + 0x18)).setWidth 16).toNat

end MappedBar

/-- A call of the backend by `pw_program_card_tables_diag`. -/
inductive BackendCall where
  | flowWrite (row : BitVec 32) (f : PwfpgaFlowConfig)
  | flowCommit
  | write32 (w : CsrWindow) (off v : BitVec 32)

/-- Table writes: the offset is computed in 32 bits. -/
def write32Calls (w : CsrWindow) (l : List CsrWrite) : List BackendCall :=
  l.map fun x => .write32 w (BitVec.ofNat 32 x.addr) x.data

/-- The flow rows, for a card that reports `n` flow slots, and the commit. -/
def flowCalls (n : ℕ) (rows : List PwfpgaFlowConfig) : List BackendCall :=
  (List.range (min (max rows.length n) flowTableRows)).map
      (fun r => .flowWrite (BitVec.ofNat 32 r) (rows.getD r {})) ++ [.flowCommit]

/-- The hash table: every bucket invalidated, and then the entries, if there are any. -/
def hashCalls (cp : PwCardProgram) : List BackendCall :=
  write32Calls .fcHash hashClearWrites ++
    (if cp.hashEntries.isEmpty then []
      else
        write32Calls .hashMask (hashMaskWrites cp.hashMask) ++
          write32Calls .hashSeed [⟨regHashSeed, cp.hashSeed⟩] ++
          write32Calls .fcHash (hashEntryWrites cp.hashEntries))

/-- The calls of `pw_program_card_tables_diag`, for a card that reports `n` flow slots. -/
def programCalls (n : ℕ) (cp : PwCardProgram) : List BackendCall :=
  flowCalls n cp.flowRows ++ write32Calls .flowidMap (mapWrites cp.mapEntries) ++
    write32Calls .fcCmp (cmpWrites cp.fcCmps) ++ write32Calls .fcUdf (udfWrites cp.fcUdfs) ++
    write32Calls .fcRule (ruleWrites cp.fcRules) ++ hashCalls cp

namespace MappedBar

variable (c : MappedBar) (bar : ℕ → BitVec 32)

/-- A call of this backend. -/
def call : BackendCall → BarCall Unit
  | .flowWrite row f => c.barFlowWrite row (some f)
  | .flowCommit => c.barFlowCommit
  | .write32 w off v => c.barWrite32 w off v

/-- The first status that is not `PW_OK`, as the macro `CHK` keeps it. -/
def worst (calls : List BackendCall) : Option PwStatus :=
  calls.findSome? fun x =>
    match (c.call x).result with
    | .ok _ => none
    | .error s => some s

/-- `pw_program_card_tables_diag` over this backend. -/
def pwProgramCardTablesDiag (cp : PwCardProgram) : Except PwFailure Unit × List CsrAccess :=
  match checkCapacities cp with
  | .error f => (.error f, [])
  | .ok _ =>
    match checkNumLocalFlows (some (c.numLocalFlows bar)) cp with
    | .error f => (.error f, cardInfoAccesses)
    | .ok _ =>
      let calls := programCalls (c.numLocalFlows bar) cp
      ((c.worst calls).elim (.ok ()) fun s => .error (bare s),
        cardInfoAccesses ++ calls.flatMap fun x => (c.call x).accesses)

end MappedBar

/-! ## Confinement -/

/-- An access inside its window and inside the BAR. -/
structure CsrAccess.Confined (c : MappedBar) (a : CsrAccess) : Prop where
  has : a.window.Has a.off
  mapped : c.csrOff.toNat + a.off + 4 ≤ c.size.toNat

/-- **The range check is right where the exact offset is far from 2^64.** -/
theorem MappedBar.mapped_of_rangeOk {c : MappedBar} {off len : BitVec 64}
    (h : c.rangeOk off len = true) (hfar : off.toNat + len.toNat ≤ 2 ^ 62) :
    c.csrOff.toNat + off.toNat + len.toNat ≤ c.size.toNat := by
  simp only [MappedBar.rangeOk, csrRangeOk, Bool.and_eq_true, decide_eq_true_eq] at h
  have hlast := h.2
  have hcsr := c.csrOff.isLt
  rw [BitVec.le_def, BitVec.toNat_add, BitVec.toNat_add, BitVec.toNat_setWidth] at hlast
  omega

theorem MappedBar.identity_mapped (c : MappedBar) : c.csrOff.toNat + 0x28 ≤ c.size.toNat :=
  c.mapped_of_rangeOk c.identity (by decide)

/-- A call keeps to the slot of `len` bytes at `base`: it returns before any access, or it accesses
words of the slot from the first one on, all of them inside the window and inside the BAR. -/
def BarCall.KeepsTo {α : Type} (c : MappedBar) (r : BarCall α) (w : CsrWindow) (base len : ℕ) :
    Prop :=
  (∃ s, r.result = .error s ∧ r.accesses = []) ∨
    (∃ n, 4 * n ≤ len ∧ r.accesses.map CsrAccess.off = (List.range n).map (base + 4 * ·)) ∧
      ∀ a ∈ r.accesses, a.window = w ∧ a.Confined c

theorem BarCall.keepsTo_refuse {α : Type} {c : MappedBar} {s : PwStatus} {w : CsrWindow}
    {base len : ℕ} : (BarCall.refuse s : BarCall α).KeepsTo c w base len :=
  Or.inl ⟨s, rfl, rfl⟩

theorem off_barCopyWords (w : CsrWindow) (dst : BitVec 32) (src : List (BitVec 32)) :
    (barCopyWords w dst src).map CsrAccess.off =
      (List.range src.length).map (dst.toNat + 4 * ·) := by
  rw [List.range_eq_range', ← List.zipIdx_map_snd 0 src, List.map_map, barCopyWords, List.map_map]
  rfl

theorem off_barCopyWordsOut (w : CsrWindow) (src : BitVec 32) (n : ℕ) :
    (barCopyWordsOut w src n).map CsrAccess.off = (List.range n).map (src.toNat + 4 * ·) := by
  rw [barCopyWordsOut, List.map_map]
  rfl

/-- A copy of `n` words at an offset that fits into 32 bits. -/
theorem BarCall.keepsTo_copy {α : Type} {c : MappedBar} {r : BarCall α} {w : CsrWindow}
    {off size : BitVec 64} {base len n : ℕ} (hbase : off.toNat = base) (hfirst : w.first ≤ base)
    (hpast : base + 4 * n ≤ w.past) (hsize : size.toNat = 4 * n) (hlen : 4 * n ≤ len)
    (hok : c.rangeOk off size = true) (hw : ∀ a ∈ r.accesses, a.window = w)
    (hoff : r.accesses.map CsrAccess.off =
      (List.range n).map ((off.setWidth 32).toNat + 4 * ·)) :
    r.KeepsTo c w base len := by
  have hend := w.past_le
  -- no bit of the offset is lost
  have hcast : (off.setWidth 32).toNat = base := by
    rw [BitVec.toNat_setWidth, hbase, Nat.mod_eq_of_lt (by omega)]
  rw [hcast] at hoff
  have hmapped := c.mapped_of_rangeOk hok (by omega)
  refine Or.inr ⟨⟨n, hlen, hoff⟩, ?_⟩
  intro a ha
  have hmem : a.off ∈ (List.range n).map (base + 4 * ·) := by
    rw [← hoff]
    exact List.mem_map_of_mem ha
  obtain ⟨j, hj, hoffj⟩ := List.mem_map.mp hmem
  rw [List.mem_range] at hj
  refine ⟨hw a ha, ⟨?_, ?_⟩, ?_⟩
  · rw [hw a ha]
    omega
  · rw [hw a ha]
    omega
  · omega

theorem window_barCopyWords {w : CsrWindow} {dst : BitVec 32} {src : List (BitVec 32)} :
    ∀ a ∈ barCopyWords w dst src, a.window = w := by
  intro a ha
  obtain ⟨x, -, rfl⟩ := List.mem_map.mp ha
  rfl

theorem window_barCopyWordsOut {w : CsrWindow} {src : BitVec 32} {n : ℕ} :
    ∀ a ∈ barCopyWordsOut w src n, a.window = w := by
  intro a ha
  obtain ⟨j, -, rfl⟩ := List.mem_map.mp ha
  rfl

/-- The exact offset of a slot whose index has 32 bits. -/
theorem toNat_slot {first stride : ℕ} (hfirst : first < 2 ^ 32) (hstride : stride < 2 ^ 16)
    (i : BitVec 32) :
    (BitVec.ofNat 64 first + i.setWidth 64 * BitVec.ofNat 64 stride).toNat =
      first + i.toNat * stride := by
  have hmul : i.toNat * stride ≤ 2 ^ 32 * 2 ^ 16 := Nat.mul_le_mul i.isLt.le hstride.le
  have hi := i.isLt
  rw [BitVec.toNat_add, BitVec.toNat_mul, BitVec.toNat_setWidth, BitVec.toNat_ofNat,
    BitVec.toNat_ofNat, Nat.mod_eq_of_lt (a := i.toNat) (by omega),
    Nat.mod_eq_of_lt (a := first) (by omega), Nat.mod_eq_of_lt (a := stride) (by omega),
    Nat.mod_eq_of_lt (a := i.toNat * stride) (by omega), Nat.mod_eq_of_lt (by omega)]

namespace MappedBar

variable (c : MappedBar) (bar : ℕ → BitVec 32)

theorem toNat_rowBase (row : BitVec 32) :
    (BitVec.ofNat 64 winFlowTable + row.setWidth 64 * 256).toNat =
      winFlowTable + row.toNat * 256 :=
  toNat_slot (by decide) (by decide) row

/-- A row that is not refused ends before the commit register. -/
theorem row_le_of_not_lt {row : BitVec 32} (h : ¬BitVec.ofNat 64 (winFlowTable + 0x3FFC) <
    BitVec.ofNat 64 winFlowTable + row.setWidth 64 * 256 + 244) :
    winFlowTable + row.toNat * 256 + 244 ≤ 0x9FFC := by
  have hrow := row.isLt
  have hend : (BitVec.ofNat 64 winFlowTable + row.setWidth 64 * 256 + 244).toNat =
      winFlowTable + row.toNat * 256 + 244 := by
    rw [BitVec.toNat_add, toNat_rowBase, Nat.mod_eq_of_lt]
    · rfl
    · change 0x6000 + row.toNat * 256 + 244 < 2 ^ 64
      omega
  rw [BitVec.lt_def, not_lt, hend] at h
  exact h

/-- **A flow row is written into its own slot**, below the commit register, or not at all. -/
theorem keepsTo_barFlowWrite (row : BitVec 32) (f : Option PwfpgaFlowConfig) :
    (c.barFlowWrite row f).KeepsTo c .flowTable (winFlowTable + row.toNat * 256) 244 := by
  cases f with
  | none => exact BarCall.keepsTo_refuse
  | some f =>
    unfold barFlowWrite
    dsimp only
    generalize hws : (List.range 61).map f.word = ws
    have hlen : ws.length = 61 := by
      rw [← hws, List.length_map, List.length_range]
    split_ifs with hcommit hok
    · exact BarCall.keepsTo_refuse
    · have hle := row_le_of_not_lt hcommit
      apply BarCall.keepsTo_copy (n := 61) (toNat_rowBase row) (Nat.le_add_right _ _) _ rfl le_rfl
        hok window_barCopyWords
      · rw [off_barCopyWords, hlen]
      · rw [CsrWindow.past]
        omega
    · exact BarCall.keepsTo_refuse

theorem toNat_statsBase (lfid : BitVec 32) :
    (BitVec.ofNat 64 (pwfpgaWinStatsSnapshot + snapFlowBase) +
      lfid.setWidth 64 * BitVec.ofNat 64 snapStride).toNat =
      pwfpgaWinStatsSnapshot + snapFlowBase + lfid.toNat * snapStride :=
  toNat_slot (by decide) (by decide) lfid

/-- A slot that is not refused ends before the control registers. -/
theorem statsSlot_le {lfid : BitVec 32} (h : lfid.toNat < pwfpgaFlowStatsSlots) :
    pwfpgaWinStatsSnapshot + snapFlowBase + lfid.toNat * snapStride + pwFlowStatsSize ≤ 0xFFF4 := by
  rw [pwfpgaFlowStatsSlots, snapFlowBase, snapStride] at h
  rw [pwfpgaWinStatsSnapshot, snapFlowBase, snapStride, pwFlowStatsSize]
  omega

/-- **The counters of a flow are read from their own slot**, or not at all. -/
theorem keepsTo_barFlowStatsRead (lfid : BitVec 32) (out : Bool) :
    (c.barFlowStatsRead bar lfid out).KeepsTo c .statsSnapshot
      (pwfpgaWinStatsSnapshot + snapFlowBase + lfid.toNat * snapStride) pwFlowStatsSize := by
  rw [barFlowStatsRead]
  dsimp only
  split_ifs with hout hlfid hok
  · exact BarCall.keepsTo_refuse
  · exact BarCall.keepsTo_refuse
  · have hle := statsSlot_le (not_le.mp hlfid)
    rw [pwFlowStatsSize] at hle
    apply BarCall.keepsTo_copy (n := 30) (toNat_statsBase lfid) _ _ rfl le_rfl hok
      window_barCopyWordsOut
    · rw [off_barCopyWordsOut]
      rfl
    · rw [CsrWindow.first, pwfpgaWinStatsSnapshot]
      omega
    · rw [CsrWindow.past]
      omega
  · exact BarCall.keepsTo_refuse

/-- The mapping, as the read of the counters is described with numbers for words. -/
def toCtx : BarCtx := { csrOff := c.csrOff.toNat, size := c.size.toNat }

theorem rangeOk_eq (off len : BitVec 64) :
    c.rangeOk off len = c.toCtx.csrRangeOk off.toNat len.toNat := by
  have hcsr := c.csrOff.isLt
  have hlast : (c.csrOff.setWidth 64 + off + len).toNat =
      (c.csrOff.toNat + off.toNat + len.toNat) % 2 ^ 64 := by
    rw [BitVec.toNat_add, BitVec.toNat_add, BitVec.toNat_setWidth,
      Nat.mod_eq_of_lt (a := c.csrOff.toNat) (by omega), Nat.mod_add_mod]
  simp only [rangeOk, csrRangeOk, BarCtx.csrRangeOk, toCtx, BitVec.le_def, hlast]
  exact (Bool.decide_and _ _).symm

/-- **The machine's words lose nothing**: the read returns what the description with numbers
returns. -/
theorem result_barFlowStatsRead (lfid : BitVec 32) :
    (c.barFlowStatsRead bar lfid true).result =
      PacketWyrm.barFlowStatsRead c.toCtx (fun off => bar (c.csrOff.toNat + off)) lfid := by
  rw [barFlowStatsRead, PacketWyrm.barFlowStatsRead, if_neg (by decide)]
  by_cases hlfid : pwfpgaFlowStatsSlots ≤ lfid.toNat
  · rw [if_pos hlfid, if_pos hlfid]
    rfl
  · have hle := statsSlot_le (not_le.mp hlfid)
    rw [if_neg hlfid, if_neg hlfid]
    dsimp only
    rw [c.rangeOk_eq, toNat_statsBase, BitVec.toNat_ofNat,
      Nat.mod_eq_of_lt (a := pwFlowStatsSize) (by decide)]
    split
    · simp only [word, BitVec.toNat_setWidth, toNat_statsBase]
      rw [Nat.mod_eq_of_lt (by omega)]
    · rfl

/-- **The buckets of a flow are read from their own slot**, or not at all. -/
theorem keepsTo_barFlowHistRead (lfid : BitVec 32) (buckets : Bool) (nBuckets : BitVec 64) :
    (c.barFlowHistRead bar lfid buckets nBuckets).KeepsTo c .histogram
      (0xA000 + lfid.toNat * 128) 128 := by
  have hslot : (BitVec.ofNat 64 0xA000 + lfid.setWidth 64 * 128).toNat =
      0xA000 + lfid.toNat * 128 := toNat_slot (by decide) (by decide) lfid
  rw [barFlowHistRead]
  dsimp only
  set n : BitVec 64 := if 128 / 8 < nBuckets then 128 / 8 else nBuckets with hn
  have hcap : n.toNat ≤ 16 := by
    rw [hn]
    split
    · decide
    · next h =>
      rw [BitVec.lt_def, not_lt] at h
      exact h
  split_ifs with hout hlfid hok
  · exact BarCall.keepsTo_refuse
  · exact BarCall.keepsTo_refuse
  · rw [flowHistSlots, not_le] at hlfid
    have hsize : (n * 8).toNat = 4 * (2 * n.toNat) := by
      have hmul := BitVec.toNat_mul n 8
      rw [hmul, Nat.mod_eq_of_lt]
      · change n.toNat * 8 = 4 * (2 * n.toNat)
        omega
      · change n.toNat * 8 < 2 ^ 64
        omega
    apply BarCall.keepsTo_copy (n := 2 * n.toNat) hslot _ _ hsize _ hok window_barCopyWordsOut
    · rw [off_barCopyWordsOut]
    · rw [CsrWindow.first]
      omega
    · rw [CsrWindow.past]
      omega
    · omega
  · exact BarCall.keepsTo_refuse

/-! ## Confinement of a program -/

/-- The stores among some accesses, as writes. -/
def stores (l : List CsrAccess) : List CsrWrite :=
  l.filterMap fun a => a.store.map fun v => ⟨a.off, v⟩

end MappedBar

/-- The writes that a call is for, at exact offsets. -/
def BackendCall.writes : BackendCall → List CsrWrite
  | .flowWrite row f => PacketWyrm.barFlowWrite row.toNat f
  | .flowCommit => PacketWyrm.barFlowCommit
  | .write32 _ off v => [⟨off.toNat, v⟩]

/-- A table write goes to its window. -/
def BackendCall.InWindow : BackendCall → Prop
  | .write32 w off _ => w.Has off.toNat
  | _ => True

namespace MappedBar

variable (c : MappedBar) (bar : ℕ → BitVec 32)

theorem confined_call {x : BackendCall} (h : x.InWindow) :
    ∀ a ∈ (c.call x).accesses, a.Confined c := by
  intro a ha
  cases x with
  | flowWrite row f =>
    rcases c.keepsTo_barFlowWrite row (some f) with ⟨s, -, hnil⟩ | ⟨-, hin⟩
    · rw [call, hnil] at ha
      cases ha
    · exact (hin a ha).2
  | flowCommit =>
    rw [call, barFlowCommit] at ha
    split at ha
    · next hok =>
      have hmapped := c.mapped_of_rangeOk hok (by decide)
      simp only [List.mem_cons, List.not_mem_nil, or_false] at ha
      rcases ha with rfl | rfl
      · exact ⟨⟨by decide, by decide⟩, hmapped⟩
      · exact ⟨⟨by decide, by decide⟩, hmapped⟩
    · cases ha
  | write32 w off v =>
    rw [call, barWrite32] at ha
    split at ha
    · next hok =>
      have hoff := off.isLt
      have hwide : (off.setWidth 64).toNat = off.toNat := by
        rw [BitVec.toNat_setWidth, Nat.mod_eq_of_lt (by omega)]
      have hmapped := c.mapped_of_rangeOk hok (by
        rw [hwide]
        change off.toNat + 4 ≤ 2 ^ 62
        omega)
      rw [hwide] at hmapped
      rw [List.mem_singleton] at ha
      subst ha
      exact ⟨h, hmapped⟩
    · cases ha

theorem stores_barCopyWords (w : CsrWindow) (dst : BitVec 32) (src : List (BitVec 32)) :
    stores (barCopyWords w dst src) = src.zipIdx.map fun x => ⟨dst.toNat + 4 * x.2, x.1⟩ := by
  rw [stores, barCopyWords, List.filterMap_map, ← List.filterMap_eq_map]
  rfl

theorem zipIdx_map_range {α : Type} (f : ℕ → α) (n : ℕ) :
    ((List.range n).map f).zipIdx = (List.range n).map fun j => (f j, j) := by
  apply List.ext_getElem
  · simp
  · intro i h h'
    simp

/-- **A call stores what it is for, at the exact offsets**, or it refuses and stores nothing. -/
theorem stores_call (x : BackendCall) : stores (c.call x).accesses = x.writes ∨
    stores (c.call x).accesses = [] := by
  cases x with
  | flowWrite row f =>
    rw [call]
    unfold barFlowWrite
    dsimp only
    split_ifs with hcommit hok
    · exact Or.inr rfl
    · have hle := row_le_of_not_lt hcommit
      refine Or.inl ?_
      rw [stores_barCopyWords, zipIdx_map_range, List.map_map, BitVec.toNat_setWidth,
        toNat_rowBase, Nat.mod_eq_of_lt (by omega)]
      rfl
    · exact Or.inr rfl
  | flowCommit =>
    rw [call, barFlowCommit]
    split
    · exact Or.inl rfl
    · exact Or.inr rfl
  | write32 w off v =>
    rw [call, barWrite32]
    split
    · exact Or.inl rfl
    · exact Or.inr rfl

/-- The stores of some calls are among the writes that the calls are for, in their order. -/
theorem stores_calls (l : List BackendCall) :
    (stores (l.flatMap fun x => (c.call x).accesses)).Sublist (l.flatMap BackendCall.writes) := by
  induction l with
  | nil => exact List.Sublist.refl []
  | cons x l ih =>
    rw [List.flatMap_cons, List.flatMap_cons, stores, List.filterMap_append]
    apply List.Sublist.append _ ih
    rcases c.stores_call x with h | h
    · rw [stores] at h
      rw [h]
    · rw [stores] at h
      rw [h]
      exact List.nil_sublist _

end MappedBar

/-- Table writes whose offsets fit into 32 bits. -/
theorem writes_write32Calls {w : CsrWindow} {l : List CsrWrite} (h : ∀ x ∈ l, w.Has x.addr) :
    (write32Calls w l).flatMap BackendCall.writes = l := by
  induction l with
  | nil => rfl
  | cons x l ih =>
    have hx := (h x List.mem_cons_self).lt
    have hend := w.past_le
    have ih := ih fun y hy => h y (List.mem_cons_of_mem _ hy)
    rw [write32Calls, List.map_cons, List.flatMap_cons, BackendCall.writes, BitVec.toNat_ofNat,
      Nat.mod_eq_of_lt (by omega), ← write32Calls, ih]
    rfl

theorem inWindow_write32Calls {w : CsrWindow} {l : List CsrWrite} (h : ∀ x ∈ l, w.Has x.addr) :
    ∀ x ∈ write32Calls w l, x.InWindow := by
  intro x hx
  obtain ⟨y, hy, rfl⟩ := List.mem_map.mp hx
  have hhas := h y hy
  have hlt := hhas.lt
  have hend := w.past_le
  rw [BackendCall.InWindow, BitVec.toNat_ofNat, Nat.mod_eq_of_lt (by omega)]
  exact hhas

theorem has_hashSeed {seed : BitVec 32} :
    ∀ x ∈ [(⟨regHashSeed, seed⟩ : CsrWrite)], CsrWindow.hashSeed.Has x.addr := by
  intro x hx
  rw [List.mem_singleton] at hx
  subst hx
  exact ⟨le_rfl, by simp [regHashSeed, CsrWindow.past]⟩

theorem inWindow_flowCalls {n : ℕ} {rows : List PwfpgaFlowConfig} :
    ∀ x ∈ flowCalls n rows, x.InWindow := by
  intro x hx
  rw [flowCalls, List.mem_append, List.mem_map, List.mem_singleton] at hx
  rcases hx with ⟨r, -, rfl⟩ | rfl
  · trivial
  · trivial

theorem inWindow_hashCalls {cp : PwCardProgram} (h : Accepted cp) :
    ∀ x ∈ hashCalls cp, x.InWindow := by
  intro x hx
  rw [hashCalls, List.mem_append] at hx
  rcases hx with hx | hx
  · exact inWindow_write32Calls (fun _ => has_of_mem_hashClearWrites) x hx
  · split at hx
    · cases hx
    · simp only [List.mem_append] at hx
      rcases hx with (hx | hx) | hx
      · exact inWindow_write32Calls (fun _ => has_of_mem_hashMaskWrites) x hx
      · exact inWindow_write32Calls has_hashSeed x hx
      · exact inWindow_write32Calls (fun _ => has_of_mem_hashEntryWrites h.hash) x hx

/-- **The calls of an accepted program** go to their windows. -/
theorem inWindow_programCalls {n : ℕ} {cp : PwCardProgram} (h : Accepted cp) :
    ∀ x ∈ programCalls n cp, x.InWindow := by
  intro x hx
  simp only [programCalls, List.mem_append] at hx
  rcases hx with ((((hx | hx) | hx) | hx) | hx) | hx
  · exact inWindow_flowCalls x hx
  · exact inWindow_write32Calls (fun _ => has_of_mem_mapWrites h.map) x hx
  · exact inWindow_write32Calls (fun _ => has_of_mem_cmpWrites h.cmps) x hx
  · exact inWindow_write32Calls (fun _ => has_of_mem_udfWrites h.udfs) x hx
  · exact inWindow_write32Calls (fun _ => has_of_mem_ruleWrites) x hx
  · exact inWindow_hashCalls h x hx

/-- The row indices of a program fit into 32 bits. -/
theorem writes_flowCalls (n : ℕ) (rows : List PwfpgaFlowConfig) :
    (flowCalls n rows).flatMap BackendCall.writes = flowWrites (some n) rows := by
  rw [flowCalls, List.flatMap_append, List.flatMap_singleton, List.flatMap_map]
  refine congrArg (· ++ PacketWyrm.barFlowCommit) (List.flatMap_congr ?_)
  intro r hr
  rw [List.mem_range] at hr
  have hlt : r < flowTableRows := lt_of_lt_of_le hr (min_le_right _ _)
  rw [flowTableRows] at hlt
  rw [BackendCall.writes, BitVec.toNat_ofNat, Nat.mod_eq_of_lt (by omega)]

theorem writes_hashCalls {cp : PwCardProgram} (h : Accepted cp) :
    (hashCalls cp).flatMap BackendCall.writes = hashWrites cp := by
  rw [hashCalls, hashWrites, List.flatMap_append,
    writes_write32Calls fun _ => has_of_mem_hashClearWrites]
  split
  · rfl
  · rw [List.flatMap_append, List.flatMap_append,
      writes_write32Calls fun _ => has_of_mem_hashMaskWrites, writes_write32Calls has_hashSeed,
      writes_write32Calls fun _ => has_of_mem_hashEntryWrites h.hash]

/-- **The calls of an accepted program are for its writes.** -/
theorem writes_programCalls {n : ℕ} {cp : PwCardProgram} (h : Accepted cp) :
    (programCalls n cp).flatMap BackendCall.writes = programWrites (some n) cp := by
  rw [programCalls, programWrites, List.flatMap_append, List.flatMap_append, List.flatMap_append,
    List.flatMap_append, List.flatMap_append, writes_flowCalls, writes_hashCalls h,
    writes_write32Calls fun _ => has_of_mem_mapWrites h.map,
    writes_write32Calls fun _ => has_of_mem_cmpWrites h.cmps,
    writes_write32Calls fun _ => has_of_mem_udfWrites h.udfs,
    writes_write32Calls fun _ => has_of_mem_ruleWrites]

theorem accepted_of_checkCapacities {cp : PwCardProgram} {u : Unit}
    (h : checkCapacities cp = .ok u) : Accepted cp := by
  have hprog : pwProgramCardTablesDiag none cp = .ok (programWrites none cp) := by
    rw [pwProgramCardTablesDiag, h]
    rfl
  exact (accepted_of_program hprog).1

/-- The accesses of a program that is not refused at once: loads of the identity block, and then
accesses of table windows whose stores are writes of the program at their exact offsets. -/
structure KeepsToTables (c : MappedBar) (bar : ℕ → BitVec 32) (cp : PwCardProgram)
    (l : List CsrAccess) : Prop where
  confined : ∀ a ∈ l, a.Confined c
  parts : ∃ tables, l = MappedBar.cardInfoAccesses ++ tables ∧
    (∀ a ∈ tables, a.window ≠ .identity) ∧
    (MappedBar.stores tables).Sublist (programWrites (some (c.numLocalFlows bar)) cp)

namespace MappedBar

variable (c : MappedBar) (bar : ℕ → BitVec 32)

theorem confined_cardInfo : ∀ a ∈ cardInfoAccesses, a.Confined c := by
  intro a ha
  obtain ⟨j, hj, rfl⟩ := List.mem_map.mp ha
  rw [List.mem_range] at hj
  have hmapped := c.identity_mapped
  refine ⟨⟨Nat.zero_le _, ?_⟩, ?_⟩
  · change 4 * j + 4 ≤ 0x28
    omega
  · change c.csrOff.toNat + 4 * j + 4 ≤ c.size.toNat
    omega

/-- The windows that the calls of a program address. -/
theorem window_call {x : BackendCall} (h : ∀ w off v, x = .write32 w off v → w ≠ .identity) :
    ∀ a ∈ (c.call x).accesses, a.window ≠ .identity := by
  intro a ha
  cases x with
  | flowWrite row f =>
    rcases c.keepsTo_barFlowWrite row (some f) with ⟨s, -, hnil⟩ | ⟨-, hin⟩
    · rw [call, hnil] at ha
      cases ha
    · rw [(hin a ha).1]
      decide
  | flowCommit =>
    rw [call, barFlowCommit] at ha
    split at ha
    · simp only [List.mem_cons, List.not_mem_nil, or_false] at ha
      rcases ha with rfl | rfl <;> decide
    · cases ha
  | write32 w off v =>
    rw [call, barWrite32] at ha
    split at ha
    · rw [List.mem_singleton] at ha
      subst ha
      exact h w off v rfl
    · cases ha

end MappedBar

/-- The identity block is not written. -/
theorem window_programCalls {n : ℕ} {cp : PwCardProgram} {x : BackendCall}
    (h : x ∈ programCalls n cp) : ∀ w off v, x = .write32 w off v → w ≠ .identity := by
  rintro w off v rfl
  have hmem : ∀ {w' : CsrWindow} {l : List CsrWrite},
      BackendCall.write32 w off v ∈ write32Calls w' l → w = w' := by
    intro w' l hx
    obtain ⟨y, -, hy⟩ := List.mem_map.mp hx
    injection hy with hw
    exact hw.symm
  simp only [programCalls, flowCalls, hashCalls, List.mem_append, List.mem_map,
    List.mem_singleton, reduceCtorEq, and_false, exists_false, or_false, false_or] at h
  rcases h with ((((hx | hx) | hx) | hx) | hx | hx)
  · rw [hmem hx]
    decide
  · rw [hmem hx]
    decide
  · rw [hmem hx]
    decide
  · rw [hmem hx]
    decide
  · rw [hmem hx]
    decide
  · split at hx
    · cases hx
    · simp only [List.mem_append] at hx
      rcases hx with (hx | hx) | hx
      · rw [hmem hx]
        decide
      · rw [hmem hx]
        decide
      · rw [hmem hx]
        decide

/-- **What programming a card accesses**: nothing, if a count or an index is out of range;
otherwise the identity block, and then the windows of the tables, each table its own. -/
theorem keepsToTables_program (c : MappedBar) (bar : ℕ → BitVec 32) (cp : PwCardProgram) :
    (∃ f, c.pwProgramCardTablesDiag bar cp = (.error f, [])) ∨
      KeepsToTables c bar cp (c.pwProgramCardTablesDiag bar cp).2 := by
  rw [MappedBar.pwProgramCardTablesDiag]
  cases hcap : checkCapacities cp with
  | error f => exact Or.inl ⟨f, rfl⟩
  | ok u =>
    have hacc := accepted_of_checkCapacities hcap
    dsimp only
    cases hnum : checkNumLocalFlows (some (c.numLocalFlows bar)) cp with
    | error f =>
      refine Or.inr ⟨c.confined_cardInfo, [], (List.append_nil _).symm, by simp, ?_⟩
      exact List.nil_sublist _
    | ok u' =>
      refine Or.inr ⟨?_, _, rfl, ?_, ?_⟩
      · intro a ha
        rcases List.mem_append.mp ha with ha | ha
        · exact c.confined_cardInfo a ha
        · obtain ⟨x, hx, ha⟩ := List.mem_flatMap.mp ha
          exact c.confined_call (inWindow_programCalls hacc x hx) a ha
      · intro a ha
        obtain ⟨x, hx, ha⟩ := List.mem_flatMap.mp ha
        exact c.window_call (window_programCalls hx) a ha
      · rw [← writes_programCalls hacc]
        exact c.stores_calls _

/-- **Confinement to the windows.**  A flow row, the counters of a flow and its buckets are accessed
in their own slots; a program is refused before any access, or it accesses the identity block and
the windows of its tables, each write in its own window.  All of it is inside the BAR, and at the
offsets of exact arithmetic. -/
theorem csr_window_confinement (c : MappedBar) (bar : ℕ → BitVec 32) :
    (∀ row f, (c.barFlowWrite row f).KeepsTo c .flowTable (winFlowTable + row.toNat * 256) 244) ∧
    (∀ lfid out, (c.barFlowStatsRead bar lfid out).KeepsTo c .statsSnapshot
      (pwfpgaWinStatsSnapshot + snapFlowBase + lfid.toNat * snapStride) pwFlowStatsSize) ∧
    (∀ lfid buckets nBuckets, (c.barFlowHistRead bar lfid buckets nBuckets).KeepsTo c .histogram
      (0xA000 + lfid.toNat * 128) 128) ∧
    ∀ cp, (∃ f, c.pwProgramCardTablesDiag bar cp = (.error f, [])) ∨
      KeepsToTables c bar cp (c.pwProgramCardTablesDiag bar cp).2 :=
  ⟨c.keepsTo_barFlowWrite, c.keepsTo_barFlowStatsRead bar, c.keepsTo_barFlowHistRead bar,
    keepsToTables_program c bar⟩

/-- A register window of 64 KB. -/
def sampleBar : MappedBar := { size := 0x10000, csrOff := 0, identity := by decide }

/-- **Refused after an access**: a card that reports one flow slot refuses a program with two flow
rows, and by then its identity block has been read, which is in no table's window. -/
theorem identity_read_before_refusal :
    ∃ f, sampleBar.pwProgramCardTablesDiag (fun _ => 1)
        { cardId := 0, flowRows := [{}, {}] } = (.error f, MappedBar.cardInfoAccesses) ∧
      MappedBar.cardInfoAccesses ≠ [] ∧
      ∀ a ∈ MappedBar.cardInfoAccesses, ∀ w : CsrWindow, w ≠ .identity → ¬w.Has a.off := by
  refine ⟨_, rfl, by decide, ?_⟩
  intro a ha w hw hhas
  have hid := (sampleBar.confined_cardInfo a ha).has
  have hwin : a.window = .identity := by
    obtain ⟨j, -, rfl⟩ := List.mem_map.mp ha
    rfl
  rw [hwin] at hid
  exact hw (CsrWindow.eq_of_has hhas hid)

end PacketWyrm
