import PacketWyrm.LatCorrection
import PacketWyrm.Lib.Handshake

/-!
# The register file's write channel

`pw_csr_full` cycle by cycle, on its AXI-Lite write channels.  An address and a data word arrive
on channels of their own, in either order and with any delay; the machine takes the address
first, then the word, and gives one response.  A write stages a word or sends a pulse to the
table behind a window, which takes the row one cycle later, and a word of the hash key passes a
register of its own on the way to the staged key.

`CsrState.write` and `CorrRegs.write` say what one write does once all of this has settled.
Here the machine is related to them by draining it: what its pulses and its registers still
hold is applied at once.

## Main definitions

* `CsrPulses` — the registers that a write drives for one cycle.
* `CsrWritePort` — the machine; `CsrWritePort.accept` — the write of a cycle.
* `CsrFile` — the registers as one write leaves them; `CsrWritePort.settled` — drained.
* `WriteBus` — the machine with a master on its channels.

## Main results

* `CsrWritePort.settled_step` — a cycle applies the write that it takes, or nothing.
* `WriteBus.Tracks.step` — and the writes that it takes are the ones that the master sends.
* `csr_write_port_law` — each write is applied once and in order, and has arrived in the tables
  by the time its response is taken.
* `error_events_kept` — no error is lost to an acknowledgement of an earlier one.
-/

namespace PacketWyrm

open Lib

variable {lfw : ℕ}

/-! ## Staging and committing -/

/-- What a comparator's word stages. -/
def CmpWindow.stage (w : CmpWindow) (off : ℕ) (d : BitVec 32) : CmpWindow :=
  match off % 16 with
  | 0 => { w with accSrc := d.setWidth 5 }
  | 4 => { w with accMask := d }
  | _ => w

/-- `cmp_wr_en_o` and the row with it. -/
def CmpWindow.commit (w : CmpWindow) (off : ℕ) (d : BitVec 32) : Option (ℕ × CmpRow) :=
  if off % 16 = 8 then some (off / 16, { src := w.accSrc, mask := w.accMask, value := d })
  else none

/-- The classifier takes the row.  It has rows for 12 of the 16 indices. -/
def CmpWindow.land (w : CmpWindow) : Option (ℕ × CmpRow) → CmpWindow
  | some (i, r) =>
    if h : i < 12 then { w with table := Function.update w.table ⟨i, h⟩ r } else w
  | none => w

/-- What a window comparator's word stages. -/
def UdfWindow.stage (w : UdfWindow) (off : ℕ) (d : BitVec 32) : UdfWindow :=
  match off % 16 with
  | 0 => { w with accOffset := d.setWidth 16 }
  | 4 => { w with accMask := d }
  | _ => w

/-- `udf_wr_en_o` and the row with it. -/
def UdfWindow.commit (w : UdfWindow) (off : ℕ) (d : BitVec 32) : Option (Fin 2 × UdfRow) :=
  if off % 16 = 8 then
    some (Fin.ofNat 2 (off / 16), { offset := w.accOffset, mask := w.accMask, value := d })
  else none

/-- The classifier takes the row. -/
def UdfWindow.land (w : UdfWindow) : Option (Fin 2 × UdfRow) → UdfWindow
  | some (i, r) => { w with table := Function.update w.table i r }
  | none => w

/-- What a rule's word stages. -/
def RuleWindow.stage (w : RuleWindow) (off : ℕ) (d : BitVec 32) : RuleWindow :=
  match off % 16 with
  | 0 =>
    { w with
      accCare := d.extractLsb' 0 14, accAction := d.extractLsb' 14 3
      accEgress := d.extractLsb' 17 4, accPrio := d.extractLsb' 21 8
      accEnable := d.getLsbD 31 }
  | 4 => { w with accLfid := d }
  | _ => w

/-- `rule_wr_en_o` and the row with it. -/
def RuleWindow.commit (w : RuleWindow) (off : ℕ) (d : BitVec 32) : Option (Fin 32 × RuleRow) :=
  if off % 16 = 8 then
    some (Fin.ofNat 32 (off / 16),
      { care := w.accCare, action := .ofCode w.accAction, egress := w.accEgress
        lfid := w.accLfid, lif := d, prio := w.accPrio, enable := w.accEnable })
  else none

/-- The classifier takes the row. -/
def RuleWindow.land (w : RuleWindow) : Option (Fin 32 × RuleRow) → RuleWindow
  | some (i, r) => { w with table := Function.update w.table i r }
  | none => w

theorem HashWindow.word_lt {off : ℕ} (h : off % 64 ≤ 0x28) : off % 64 / 4 < 11 := by omega

/-- `hk_wr_q`, `hk_word_q` and `hk_data_q`: a word of the key on its way. -/
def HashWindow.keyWord (off : ℕ) (d : BitVec 32) : Option (Fin 11 × BitVec 32) :=
  if h : off % 64 ≤ 0x28 then some (⟨off % 64 / 4, word_lt h⟩, d) else none

/-- `hash_wr_en_o` and the bucket with it: the key as it is staged now. -/
def HashWindow.commit (w : HashWindow lfw) (off : ℕ) (d : BitVec 32) :
    Option (Fin 128 × HashBucket lfw) :=
  if off % 64 = 0x2C then some (Fin.ofNat 128 (off / 64), .ofCtrl lfw w.accKey d) else none

/-- The staged key takes its word and the table its bucket. -/
def HashWindow.land (w : HashWindow lfw) (hk : Option (Fin 11 × BitVec 32))
    (wr : Option (Fin 128 × HashBucket lfw)) : HashWindow lfw :=
  { accKey := hk.elim w.accKey fun x => setWord w.accKey x.1 x.2
    table := wr.elim w.table fun x =>
      { w.table with bucket := Function.update w.table.bucket x.1 x.2 } }

@[simp] theorem CmpWindow.land_none (w : CmpWindow) : w.land none = w := rfl

@[simp] theorem UdfWindow.land_none (w : UdfWindow) : w.land none = w := rfl

@[simp] theorem RuleWindow.land_none (w : RuleWindow) : w.land none = w := rfl

@[simp] theorem HashWindow.land_none (w : HashWindow lfw) : w.land none none = w := rfl

section Windows

variable (off : ℕ) (d : BitVec 32)

theorem CmpWindow.land_stage (w : CmpWindow) :
    (w.stage off d).land (w.commit off d) = w.write off d := by
  unfold write
  split <;> simp_all [stage, commit, land]

theorem UdfWindow.land_stage (w : UdfWindow) :
    (w.stage off d).land (w.commit off d) = w.write off d := by
  unfold write
  split <;> simp_all [stage, commit, land]

theorem RuleWindow.land_stage (w : RuleWindow) :
    (w.stage off d).land (w.commit off d) = w.write off d := by
  unfold write
  split <;> simp_all [stage, commit, land]

theorem HashWindow.land_keyWord (w : HashWindow lfw) :
    w.land (keyWord off d) (w.commit off d) = w.write off d := by
  unfold keyWord commit write land
  by_cases hkey : off % 64 ≤ 0x28
  · rw [dif_pos hkey, if_neg (by omega), dif_pos hkey]
    rfl
  · rw [dif_neg hkey, dif_neg hkey]
    split <;> rfl

/-! A row that lands leaves the accumulators, so it does not change what the next word commits. -/

theorem CmpWindow.commit_land (w : CmpWindow) (p : Option (ℕ × CmpRow)) :
    (w.land p).commit off d = w.commit off d := by
  cases p with
  | none => rfl
  | some x =>
    dsimp only [land]
    split <;> rfl

theorem UdfWindow.commit_land (w : UdfWindow) (p : Option (Fin 2 × UdfRow)) :
    (w.land p).commit off d = w.commit off d := by
  cases p <;> rfl

theorem RuleWindow.commit_land (w : RuleWindow) (p : Option (Fin 32 × RuleRow)) :
    (w.land p).commit off d = w.commit off d := by
  cases p <;> rfl

end Windows

attribute [ext] CsrState

namespace CsrState

variable (s : CsrState lfw) (w : CsrWrite)

/-- What a write stages at once: accumulators, the key mask and the seed. -/
def stage : CsrState lfw :=
  { s with
    cmp := if 0x2000 ≤ w.addr ∧ w.addr < 0x2100 then s.cmp.stage (w.addr - 0x2000) w.data else s.cmp
    udf := if 0x2100 ≤ w.addr ∧ w.addr < 0x2200 then s.udf.stage (w.addr - 0x2100) w.data else s.udf
    rule :=
      if 0x2200 ≤ w.addr ∧ w.addr < 0x2600 then s.rule.stage (w.addr - 0x2200) w.data else s.rule
    hash :=
      if w.addr = 0x2FFC then s.hash.writeSeed w.data
      else if 0x2F00 ≤ w.addr ∧ w.addr < 0x2F30 then s.hash.writeMask (w.addr - 0x2F00) w.data
      else s.hash }

/-! The windows are disjoint, so each of them has its own condition. -/

theorem write_map :
    (s.write w).map =
      if 0x0400 ≤ w.addr ∧ w.addr < 0x0800 then s.map.write (w.addr - 0x0400) w.data
      else s.map := by
  unfold write
  split_ifs <;> dsimp only

theorem write_cmp :
    (s.write w).cmp =
      if 0x2000 ≤ w.addr ∧ w.addr < 0x2100 then s.cmp.write (w.addr - 0x2000) w.data
      else s.cmp := by
  unfold write
  split_ifs <;> first | omega | dsimp only

theorem write_udf :
    (s.write w).udf =
      if 0x2100 ≤ w.addr ∧ w.addr < 0x2200 then s.udf.write (w.addr - 0x2100) w.data
      else s.udf := by
  unfold write
  split_ifs <;> first | omega | dsimp only

theorem write_rule :
    (s.write w).rule =
      if 0x2200 ≤ w.addr ∧ w.addr < 0x2600 then s.rule.write (w.addr - 0x2200) w.data
      else s.rule := by
  unfold write
  split_ifs <;> first | omega | dsimp only

theorem write_hash :
    (s.write w).hash =
      if w.addr = 0x2FFC then s.hash.writeSeed w.data
      else if 0x2F00 ≤ w.addr ∧ w.addr < 0x2F30 then s.hash.writeMask (w.addr - 0x2F00) w.data
      else if 0x3000 ≤ w.addr ∧ w.addr < 0x5000 then s.hash.write (w.addr - 0x3000) w.data
      else s.hash := by
  unfold write
  split_ifs <;> first | omega | dsimp only

end CsrState

/-- `map_wr_en_o` and the entry with it. -/
def mapCommit (lfw : ℕ) (w : CsrWrite) : Option (Fin 256 × MapEntry lfw) :=
  if 0x0400 ≤ w.addr ∧ w.addr < 0x0800 then
    some (Fin.ofNat 256 ((w.addr - 0x0400) / 4), .ofData lfw w.data)
  else none

/-- `STATS_TRIGGER_ADDR`. -/
def statsTriggerAddr : ℕ := 0xFFFC

/-- `STATS_CLEAR_ADDR`. -/
def statsClearAddr : ℕ := 0xFFF8

/-- `DP_RESET_ADDR`. -/
def dpResetAddr : ℕ := 0xFFF4

/-- `REG_REBOOT`. -/
def regReboot : ℕ := 0x0120

/-- `REBOOT_MAGIC`. -/
def rebootMagic : BitVec 32 := 0x52424F54

/-- `PUNT_POP_ADDR`. -/
def puntPopAddr : ℕ := 0x100C

/-- The registers that a write drives for one cycle. -/
structure CsrPulses (lfw : ℕ) where
  /-- `wr_en`, `wr_addr` and `wr_data`. -/
  wr : Option CsrWrite := none
  snapshotTrigger : Bool := false
  statsClear : Bool := false
  dpSoftRst : Bool := false
  icapReboot : Bool := false
  puntPop : Bool := false
  latCorrWr : Option (ℕ × BitVec 64) := none
  mapWr : Option (Fin 256 × MapEntry lfw) := none
  cmpWr : Option (ℕ × CmpRow) := none
  udfWr : Option (Fin 2 × UdfRow) := none
  ruleWr : Option (Fin 32 × RuleRow) := none
  hk : Option (Fin 11 × BitVec 32) := none
  hashWr : Option (Fin 128 × HashBucket lfw) := none

/-- The word of a correction that waits for the other one. -/
def CorrRegs.stage (numFlows : ℕ) (c : CorrRegs) (w : CsrWrite) : CorrRegs :=
  { c with
    loShadow :=
      if CorrRegs.hits numFlows w && !(CorrRegs.off w).testBit 2 then w.data else c.loShadow }

namespace CsrPulses

/-- What a write drives, from the accumulators as they stand. -/
def ofWrite (numFlows : ℕ) (s : CsrState lfw) (c : CorrRegs) (w : CsrWrite) : CsrPulses lfw where
  wr := some w
  snapshotTrigger := w.addr = statsTriggerAddr && w.data.getLsbD 0
  statsClear := w.addr = statsClearAddr && w.data.getLsbD 0
  dpSoftRst := w.addr = dpResetAddr && w.data.getLsbD 0
  icapReboot := w.addr = regReboot && w.data = rebootMagic
  puntPop := w.addr = puntPopAddr && w.data.getLsbD 0
  latCorrWr := c.commit numFlows w
  mapWr := mapCommit lfw w
  cmpWr :=
    if 0x2000 ≤ w.addr ∧ w.addr < 0x2100 then s.cmp.commit (w.addr - 0x2000) w.data else none
  udfWr :=
    if 0x2100 ≤ w.addr ∧ w.addr < 0x2200 then s.udf.commit (w.addr - 0x2100) w.data else none
  ruleWr :=
    if 0x2200 ≤ w.addr ∧ w.addr < 0x2600 then s.rule.commit (w.addr - 0x2200) w.data else none
  hk :=
    if 0x3000 ≤ w.addr ∧ w.addr < 0x5000 then HashWindow.keyWord (w.addr - 0x3000) w.data else none
  hashWr :=
    if 0x3000 ≤ w.addr ∧ w.addr < 0x5000 then s.hash.commit (w.addr - 0x3000) w.data else none

variable (p : CsrPulses lfw)

/-- The tables behind the windows take what the pulses bring. -/
def land (s : CsrState lfw) : CsrState lfw where
  map := p.mapWr.elim s.map fun x => Function.update s.map x.1 x.2
  cmp := s.cmp.land p.cmpWr
  udf := s.udf.land p.udfWr
  rule := s.rule.land p.ruleWr
  hash := s.hash.land p.hk p.hashWr

/-- The correction table takes a correction. -/
def landCorr (c : CorrRegs) : CorrRegs :=
  { c with
    latCorrTable := p.latCorrWr.elim c.latCorrTable fun x =>
      Function.update c.latCorrTable x.1 x.2 }

@[simp] theorem land_none (s : CsrState lfw) : ({} : CsrPulses lfw).land s = s := rfl

@[simp] theorem landCorr_none (c : CorrRegs) : ({} : CsrPulses lfw).landCorr c = c := rfl

/-- **A write in two halves**: what it stages and what its pulses bring is what one write does. -/
theorem land_stage (numFlows : ℕ) (s : CsrState lfw) (c : CorrRegs) (w : CsrWrite) :
    (ofWrite numFlows s c w).land (s.stage w) = s.write w := by
  ext1
  · dsimp only [land, ofWrite, CsrState.stage, mapCommit]
    rw [CsrState.write_map]
    split <;> rfl
  · dsimp only [land, ofWrite, CsrState.stage]
    rw [CsrState.write_cmp]
    split
    · exact CmpWindow.land_stage _ _ _
    · rfl
  · dsimp only [land, ofWrite, CsrState.stage]
    rw [CsrState.write_udf]
    split
    · exact UdfWindow.land_stage _ _ _
    · rfl
  · dsimp only [land, ofWrite, CsrState.stage]
    rw [CsrState.write_rule]
    split
    · exact RuleWindow.land_stage _ _ _
    · rfl
  · dsimp only [land, ofWrite, CsrState.stage]
    rw [CsrState.write_hash]
    by_cases hbucket : 0x3000 ≤ w.addr ∧ w.addr < 0x5000
    · rw [if_pos hbucket, if_pos hbucket, if_neg (by omega), if_neg (by omega),
        if_neg (by omega), if_neg (by omega), if_pos hbucket]
      exact HashWindow.land_keyWord _ _ _
    · rw [if_neg hbucket, if_neg hbucket, if_neg hbucket]
      exact HashWindow.land_none _

theorem landCorr_stage (numFlows : ℕ) (s : CsrState lfw) (c : CorrRegs) (w : CsrWrite) :
    (ofWrite numFlows s c w).landCorr (c.stage numFlows w) = c.write numFlows w := by
  dsimp only [landCorr, ofWrite, CorrRegs.stage, CorrRegs.write]
  cases c.commit numFlows w <;> rfl

/-- **A write looks at the accumulators alone**, and these are what they will be once no word of
a key is on its way. -/
theorem ofWrite_land (numFlows : ℕ) (h : p.hk = none) (s : CsrState lfw) (c : CorrRegs)
    (w : CsrWrite) : ofWrite numFlows (p.land s) (p.landCorr c) w = ofWrite numFlows s c w := by
  have hkey : (s.hash.land none p.hashWr).accKey = s.hash.accKey := rfl
  have hhash (off : ℕ) (d : BitVec 32) :
      (s.hash.land none p.hashWr).commit off d = s.hash.commit off d := by
    rw [HashWindow.commit, hkey, HashWindow.commit]
  have hcorr : (p.landCorr c).commit numFlows w = c.commit numFlows w := rfl
  simp only [ofWrite, land, h, hcorr, hhash, CmpWindow.commit_land, UdfWindow.commit_land,
    RuleWindow.commit_land]

end CsrPulses

/-! ## The machine -/

/-- The registers as one write leaves them. -/
@[ext]
structure CsrFile (lfw : ℕ) where
  windows : CsrState lfw
  corr : CorrRegs
  globalControl : BitVec 32
  gpioSyncCtrl : BitVec 32
  sfpI2cDriveLow : BitVec 4

/-- `REG_GLOBAL_CONTROL`. -/
def regGlobalControl : ℕ := 0x0100

/-- `REG_ERROR_STATUS`. -/
def regErrorStatus : ℕ := 0x0110

/-- `REG_GPIO_SYNC_CTRL`. -/
def regGpioSyncCtrl : ℕ := 0x0130

/-- `REG_SFP_I2C`. -/
def regSfpI2c : ℕ := 0x0150

/-- One write. -/
def CsrFile.write (numFlows : ℕ) (f : CsrFile lfw) (w : CsrWrite) : CsrFile lfw where
  windows := f.windows.write w
  corr := f.corr.write numFlows w
  globalControl := if w.addr = regGlobalControl then w.data else f.globalControl
  gpioSyncCtrl := if w.addr = regGpioSyncCtrl then w.data else f.gpioSyncCtrl
  sfpI2cDriveLow := if w.addr = regSfpI2c then w.data.setWidth 4 else f.sfpI2cDriveLow

/-- What the master drives in a cycle, and the errors that are raised in it. -/
structure CsrWriteIn where
  aw : Option (BitVec 16)
  w : Option (BitVec 32)
  bready : Bool
  errorStatusSet : BitVec 32

/-- The write side of `pw_csr_full`, and the tables that its pulses go to. -/
structure CsrWritePort (lfw : ℕ) extends CsrFile lfw where
  awready : Bool := false
  wready : Bool := false
  bvalid : Bool := false
  awCaptured : Bool := false
  awaddr : BitVec 16 := 0
  errorStatus : BitVec 32 := 0
  pulses : CsrPulses lfw := {}

namespace CsrWritePort

variable (numFlows : ℕ) (s : CsrWritePort lfw) (i : CsrWriteIn)

/-- The write that is taken in a cycle: the address is there and the word is, and the last
response has gone. -/
def accept : Option CsrWrite :=
  if s.awCaptured && !s.bvalid then i.w.map fun d => ⟨s.awaddr.toNat, d⟩ else none

/-- The registers after a cycle: the tables take last cycle's pulses, and the write is staged. -/
def file : CsrFile lfw :=
  match s.accept i with
  | none =>
    { s.toCsrFile with
      windows := s.pulses.land s.windows, corr := s.pulses.landCorr s.corr }
  | some w =>
    { windows := (s.pulses.land s.windows).stage w
      corr := (s.pulses.landCorr s.corr).stage numFlows w
      globalControl := if w.addr = regGlobalControl then w.data else s.globalControl
      gpioSyncCtrl := if w.addr = regGpioSyncCtrl then w.data else s.gpioSyncCtrl
      sfpI2cDriveLow := if w.addr = regSfpI2c then w.data.setWidth 4 else s.sfpI2cDriveLow }

/-- `err_w1c`: the bits that the write of the cycle acknowledges. -/
def errW1c : BitVec 32 :=
  match s.accept i with
  | some w => if w.addr = regErrorStatus then w.data else 0
  | none => 0

/-- One cycle. -/
def step : CsrWritePort lfw where
  toCsrFile := s.file numFlows i
  awready := !s.awCaptured && i.aw.isSome
  awCaptured := (s.awCaptured || i.aw.isSome) && (s.accept i).isNone
  awaddr := if s.awCaptured then s.awaddr else i.aw.getD s.awaddr
  wready := (s.accept i).isSome
  bvalid := (s.accept i).isSome || s.bvalid && !i.bready
  -- a bit that is raised and acknowledged at once stays
  errorStatus := s.errorStatus &&& ~~~ s.errW1c i ||| i.errorStatusSet
  pulses := (s.accept i).elim {} (.ofWrite numFlows s.windows s.corr)

/-- The registers once the pulses have landed. -/
def settled : CsrFile lfw :=
  { s.toCsrFile with windows := s.pulses.land s.windows, corr := s.pulses.landCorr s.corr }

/-- A response is due while something is on its way. -/
def Answering : Prop := s.bvalid = false → s.pulses = {}

variable {numFlows s i}

theorem accept_of_bvalid (h : s.bvalid = true) : s.accept i = none := by
  rw [accept, h]
  simp

theorem accept_eq_some {w : CsrWrite} (h : s.accept i = some w) :
    s.awCaptured = true ∧ s.bvalid = false ∧ ∃ d, i.w = some d ∧ w = ⟨s.awaddr.toNat, d⟩ := by
  rw [accept] at h
  split at h
  · rename_i hcond
    obtain ⟨d, hd, rfl⟩ := Option.map_eq_some_iff.mp h
    simp only [Bool.and_eq_true, Bool.not_eq_true'] at hcond
    exact ⟨hcond.1, hcond.2, d, hd, rfl⟩
  · cases h

theorem Answering.step (_ : s.Answering) : (s.step numFlows i).Answering := by
  intro hb
  dsimp only [CsrWritePort.step] at hb ⊢
  rw [Bool.or_eq_false_iff, Option.isSome_eq_false_iff, Option.isNone_iff_eq_none] at hb
  rw [hb.1]
  rfl

theorem settled_of_idle (h : s.pulses = {}) : s.settled = s.toCsrFile := by
  rw [settled, h, CsrPulses.land_none, CsrPulses.landCorr_none]

/-- Once the response has gone, the registers are what they settle to. -/
theorem Answering.settled_eq (h : s.Answering) (hb : s.bvalid = false) :
    s.settled = s.toCsrFile :=
  settled_of_idle (h hb)

/-- **The key register has drained before the next write**, so that a bucket that is committed
has its whole key. -/
theorem Answering.drained (h : s.Answering) {w : CsrWrite} (ha : s.accept i = some w) :
    s.pulses.hk = none := by
  rw [h (accept_eq_some ha).2.1]

theorem pulses_step : (s.step numFlows i).pulses =
    (s.accept i).elim {} (.ofWrite numFlows s.windows s.corr) := rfl

theorem toCsrFile_step : (s.step numFlows i).toCsrFile = s.file numFlows i := rfl

theorem file_of_none (ha : s.accept i = none) : s.file numFlows i = s.settled := by
  rw [file, ha, settled]

/-- **A cycle applies the write that it takes, or nothing.** -/
theorem settled_step (h : s.Answering) :
    (s.step numFlows i).settled = (s.accept i).elim s.settled (s.settled.write numFlows) := by
  cases ha : s.accept i with
  | none =>
    have hidle : (s.step numFlows i).pulses = {} := by rw [pulses_step, ha, Option.elim_none]
    rw [settled_of_idle hidle, toCsrFile_step, file_of_none ha, Option.elim_none]
  | some w =>
    have hpulses : (s.step numFlows i).pulses =
        .ofWrite numFlows s.settled.windows s.settled.corr w := by
      rw [pulses_step, ha, Option.elim_some]
      exact (CsrPulses.ofWrite_land s.pulses numFlows (h.drained ha) s.windows s.corr w).symm
    have hfile : (s.step numFlows i).toCsrFile =
        { s.settled.write numFlows w with
          windows := s.settled.windows.stage w, corr := s.settled.corr.stage numFlows w } := by
      rw [toCsrFile_step, file, ha]
      rfl
    rw [settled, hfile, hpulses, Option.elim_some]
    dsimp only
    rw [CsrPulses.land_stage, CsrPulses.landCorr_stage]
    rfl

end CsrWritePort

/-! ## The channels -/

/-- What a master asks for: an address and a word. -/
abbrev WriteRequest := BitVec 16 × BitVec 32

/-- The write that a request is. -/
def WriteRequest.write (r : WriteRequest) : CsrWrite := ⟨r.1.toNat, r.2⟩

/-- What is left open in a cycle: which offers the master makes, whether it takes a response,
and which errors are raised. -/
structure WriteCycle where
  goAw : Bool
  goW : Bool
  bready : Bool
  errorStatusSet : BitVec 32

/-- Nothing waits for the master. -/
def WriteCycle.Willing (c : WriteCycle) : Prop :=
  c.goAw = true ∧ c.goW = true ∧ c.bready = true

/-- The machine with a master on its channels. -/
structure WriteBus (lfw : ℕ) where
  aw : Sender (BitVec 16)
  w : Sender (BitVec 32)
  port : CsrWritePort lfw

namespace WriteBus

variable (numFlows : ℕ) (b : WriteBus lfw) (c : WriteCycle)

/-- What the master drives. -/
def drive : CsrWriteIn where
  aw := b.aw.offer c.goAw
  w := b.w.offer c.goW
  bready := c.bready
  errorStatusSet := c.errorStatusSet

/-- One cycle. -/
def step : WriteBus lfw where
  aw := b.aw.step c.goAw b.port.awready
  w := b.w.step c.goW b.port.wready
  port := b.port.step numFlows (b.drive c)

/-- The write that is taken. -/
def applied : Option CsrWrite := b.port.accept (b.drive c)

/-- The strobe that the windows see. -/
def strobe (_ : WriteCycle) : Option CsrWrite := b.port.pulses.wr

/-- A response is taken. -/
def answered : Option Unit := if b.port.bvalid && c.bready then some () else none

/-- The bus with requests to come. -/
def start (reqs : List WriteRequest) (port : CsrWritePort lfw) : WriteBus lfw where
  aw := { todo := reqs.map Prod.fst }
  w := { todo := reqs.map Prod.snd }
  port := port

/-- The address channel, with the addresses of the writes that are still to be applied. -/
inductive AwAt (addrs : List (BitVec 16)) : Prop
  /-- No address has been taken. -/
  | idle (hcap : b.port.awCaptured = false) (hready : b.port.awready = false)
      (htodo : b.aw.todo = addrs)
  /-- The first one has been taken and goes over in this cycle. -/
  | shown (hcap : b.port.awCaptured = true) (hready : b.port.awready = true)
      (hoff : b.aw.offering = true) (htodo : b.aw.todo = addrs)
      (hhead : addrs = b.port.awaddr :: addrs.tail)
  /-- It has gone over. -/
  | held (hcap : b.port.awCaptured = true) (hready : b.port.awready = false)
      (htodo : addrs = b.port.awaddr :: b.aw.todo)

/-- The data channel, with the words of the writes that are still to be applied. -/
inductive WAt (words : List (BitVec 32)) : Prop
  /-- The words of the applied writes have gone over. -/
  | free (hready : b.port.wready = false) (htodo : b.w.todo = words)
  /-- The last one goes over in this cycle. -/
  | shown (d : BitVec 32) (hready : b.port.wready = true) (hvalid : b.port.bvalid = true)
      (hoff : b.w.offering = true) (htodo : b.w.todo = d :: words)

/-- The requests that are still to be applied. -/
structure Tracks (rest : List WriteRequest) : Prop where
  aw : b.AwAt (rest.map Prod.fst)
  w : b.WAt (rest.map Prod.snd)

variable {numFlows b c} {addrs : List (BitVec 16)} {words : List (BitVec 32)}

theorem port_step : (b.step numFlows c).port = b.port.step numFlows (b.drive c) := rfl

theorem awCaptured_step : (b.step numFlows c).port.awCaptured =
    ((b.port.awCaptured || (b.aw.offer c.goAw).isSome) && (b.applied c).isNone) := rfl

theorem awready_step : (b.step numFlows c).port.awready =
    (!b.port.awCaptured && (b.aw.offer c.goAw).isSome) := rfl

theorem awaddr_step : (b.step numFlows c).port.awaddr =
    if b.port.awCaptured then b.port.awaddr else (b.aw.offer c.goAw).getD b.port.awaddr := rfl

theorem wready_step : (b.step numFlows c).port.wready = (b.applied c).isSome := rfl

theorem bvalid_step : (b.step numFlows c).port.bvalid =
    ((b.applied c).isSome || b.port.bvalid && !c.bready) := rfl

theorem aw_step : (b.step numFlows c).aw = b.aw.step c.goAw b.port.awready := rfl

theorem w_step : (b.step numFlows c).w = b.w.step c.goW b.port.wready := rfl

variable (numFlows)

/-- The address channel in a cycle in which no write is applied. -/
theorem AwAt.wait (h : b.AwAt addrs) (ha : b.applied c = none) :
    (b.step numFlows c).AwAt addrs := by
  rcases h with ⟨hcap, hready, htodo⟩ | ⟨hcap, hready, hoff, htodo, hhead⟩ | ⟨hcap, hready, htodo⟩
  · cases hoff : b.aw.offer c.goAw with
    | none =>
      refine .idle ?_ ?_ ?_
      · rw [awCaptured_step, hcap, hoff]; rfl
      · rw [awready_step, hcap, hoff]; rfl
      · rw [aw_step, Sender.step_of_none hoff, htodo]
    | some a =>
      have hfirst := Sender.todo_of_offer hoff
      refine .shown ?_ ?_ ?_ ?_ ?_
      · rw [awCaptured_step, hoff, ha, hcap]; rfl
      · rw [awready_step, hcap, hoff]; rfl
      · rw [aw_step, hready, Sender.step_of_wait hoff]
      · rw [aw_step, hready, Sender.todo_step_false, htodo]
      · rw [awaddr_step, hcap, hoff, ← htodo]
        exact hfirst
  · have hoffer : b.aw.offer c.goAw = some b.port.awaddr :=
      Sender.offer_of_offering hoff (htodo.trans hhead) c.goAw
    refine .held ?_ ?_ ?_
    · rw [awCaptured_step, hcap, ha]; rfl
    · rw [awready_step, hcap]; rfl
    · rw [awaddr_step, hcap, if_pos rfl, aw_step, hready, Sender.step_of_ready hoffer, htodo]
      exact hhead
  · refine .held ?_ ?_ ?_
    · rw [awCaptured_step, hcap, ha]; rfl
    · rw [awready_step, hcap]; rfl
    · rw [awaddr_step, hcap, if_pos rfl, aw_step, hready, Sender.todo_step_false]
      exact htodo

/-- The address channel in a cycle in which a write is applied. -/
theorem AwAt.apply (h : b.AwAt addrs) {w : CsrWrite} (ha : b.applied c = some w) :
    addrs = b.port.awaddr :: addrs.tail ∧ (b.step numFlows c).AwAt addrs.tail := by
  have hcap' : (b.step numFlows c).port.awCaptured = false := by
    rw [awCaptured_step, ha, Option.isNone_some, Bool.and_false]
  have hready' (hcap : b.port.awCaptured = true) : (b.step numFlows c).port.awready = false := by
    rw [awready_step, hcap]; rfl
  rcases h with ⟨hcap, -, -⟩ | ⟨hcap, hready, hoff, htodo, hhead⟩ | ⟨hcap, hready, htodo⟩
  · rw [(CsrWritePort.accept_eq_some ha).1] at hcap
    cases hcap
  · have hoffer : b.aw.offer c.goAw = some b.port.awaddr :=
      Sender.offer_of_offering hoff (htodo.trans hhead) c.goAw
    refine ⟨hhead, .idle hcap' (hready' hcap) ?_⟩
    rw [aw_step, hready, Sender.step_of_ready hoffer, htodo]
  · subst htodo
    refine ⟨rfl, .idle hcap' (hready' hcap) ?_⟩
    rw [aw_step, hready, Sender.todo_step_false, List.tail_cons]

/-- The data channel in a cycle in which no write is applied. -/
theorem WAt.wait (h : b.WAt words) (ha : b.applied c = none) : (b.step numFlows c).WAt words := by
  have hready' : (b.step numFlows c).port.wready = false := by rw [wready_step, ha]; rfl
  rcases h with ⟨hready, htodo⟩ | ⟨d, hready, -, hoff, htodo⟩
  · refine .free hready' ?_
    rw [w_step, hready, Sender.todo_step_false, htodo]
  · refine .free hready' ?_
    rw [w_step, hready, Sender.step_of_ready (Sender.offer_of_offering hoff htodo c.goW), htodo,
      List.tail_cons]

/-- The data channel in a cycle in which a write is applied. -/
theorem WAt.apply (h : b.WAt words) {w : CsrWrite} (ha : b.applied c = some w) :
    words = w.data :: words.tail ∧ (b.step numFlows c).WAt words.tail := by
  obtain ⟨-, hfree, d, hd, rfl⟩ := CsrWritePort.accept_eq_some ha
  rcases h with ⟨hready, htodo⟩ | ⟨d', -, hvalid, -, -⟩
  · have hfirst := Sender.todo_of_offer hd
    rw [htodo] at hfirst
    refine ⟨hfirst, .shown d ?_ ?_ ?_ ?_⟩
    · rw [wready_step, ha]; rfl
    · rw [bvalid_step, ha]; rfl
    · rw [w_step, hready, Sender.step_of_wait hd]
    · rw [w_step, hready, Sender.todo_step_false, htodo]
      exact hfirst
  · rw [hfree] at hvalid
    cases hvalid

theorem Tracks.wait {rest : List WriteRequest} (h : b.Tracks rest) (ha : b.applied c = none) :
    (b.step numFlows c).Tracks rest :=
  ⟨h.aw.wait numFlows ha, h.w.wait numFlows ha⟩

/-- **A write that is taken is the next one that the master sends.** -/
theorem Tracks.apply {rest : List WriteRequest} (h : b.Tracks rest) {w : CsrWrite}
    (ha : b.applied c = some w) :
    ∃ r rest', rest = r :: rest' ∧ w = r.write ∧ (b.step numFlows c).Tracks rest' := by
  obtain ⟨haddr, haw⟩ := h.aw.apply numFlows ha
  obtain ⟨hdata, hw⟩ := h.w.apply numFlows ha
  obtain ⟨-, -, d, -, rfl⟩ := CsrWritePort.accept_eq_some ha
  cases rest with
  | nil => cases haddr
  | cons r rest =>
    rw [List.map_cons, List.cons.injEq] at haddr hdata
    refine ⟨r, rest, rfl, ?_, haw, hw⟩
    rw [WriteRequest.write, haddr.1, hdata.1]

/-- Before the first cycle nothing has been applied. -/
theorem Tracks.start (reqs : List WriteRequest) (f : CsrFile lfw) :
    (WriteBus.start reqs { f with }).Tracks reqs :=
  ⟨.idle rfl rfl rfl, .free rfl rfl⟩

/-- Two cycles in which nothing waits for the master are enough for a write. -/
theorem Tracks.applied_of_willing {r : WriteRequest} {rest : List WriteRequest}
    (h : b.Tracks (r :: rest)) {c c' : WriteCycle} (hc : c.Willing) (hc' : c'.Willing)
    (ha : b.applied c = none) : (b.step numFlows c).applied c' ≠ none := by
  have hvalid : (b.step numFlows c).port.bvalid = false := by
    rw [bvalid_step, ha, hc.2.2]
    exact Bool.and_false _
  have hcap : (b.step numFlows c).port.awCaptured = true := by
    rcases h.aw with ⟨-, -, htodo⟩ | ⟨hcap, -, -, -, -⟩ | ⟨hcap, -, -⟩
    · rw [awCaptured_step, hc.1, Sender.offer_true htodo, ha]
      simp
    · rw [awCaptured_step, hcap, ha]; rfl
    · rw [awCaptured_step, hcap, ha]; rfl
  have hword : ((b.step numFlows c).drive c').w = some r.2 := by
    rcases h.w.wait numFlows ha with ⟨-, htodo⟩ | ⟨d, -, hshown, -, -⟩
    · rw [drive, hc'.2.1]
      exact Sender.offer_true htodo
    · rw [hvalid] at hshown
      cases hshown
  rw [applied, CsrWritePort.accept, hcap, hvalid, hword]
  exact Option.some_ne_none _

/-! ### Runs -/

section Runs

variable (b)

/-- The bus after some cycles. -/
def run (cycles : List WriteCycle) : WriteBus lfw := Lib.run (step numFlows) b cycles

/-- The writes that are applied in them. -/
def writes (cycles : List WriteCycle) : List CsrWrite :=
  outputs applied (step numFlows) b cycles

/-- The strobes that the windows see in them. -/
def strobes (cycles : List WriteCycle) : List CsrWrite :=
  outputs strobe (step numFlows) b cycles

/-- The responses that are taken in them. -/
def responses (cycles : List WriteCycle) : List Unit :=
  outputs answered (step numFlows) b cycles

variable {numFlows b} {rest : List WriteRequest} (cycles : List WriteCycle)

theorem run_cons (c : WriteCycle) :
    b.run numFlows (c :: cycles) = (b.step numFlows c).run numFlows cycles := rfl

theorem writes_cons (c : WriteCycle) :
    b.writes numFlows (c :: cycles) =
      (b.applied c).toList ++ (b.step numFlows c).writes numFlows cycles := rfl

theorem writes_append (more : List WriteCycle) :
    b.writes numFlows (cycles ++ more) =
      b.writes numFlows cycles ++ (b.run numFlows cycles).writes numFlows more :=
  outputs_append _ _ _ _ _

theorem strobes_cons (c : WriteCycle) :
    b.strobes numFlows (c :: cycles) =
      b.port.pulses.wr.toList ++ (b.step numFlows c).strobes numFlows cycles := rfl

theorem responses_cons (c : WriteCycle) :
    b.responses numFlows (c :: cycles) =
      (b.answered c).toList ++ (b.step numFlows c).responses numFlows cycles := rfl

variable (numFlows)

/-- What is applied and what is left are the requests. -/
theorem Tracks.writes_append (h : b.Tracks rest) :
    ∃ rest', rest.map WriteRequest.write =
        b.writes numFlows cycles ++ rest'.map WriteRequest.write ∧
      (b.run numFlows cycles).Tracks rest' := by
  induction cycles generalizing b rest with
  | nil => exact ⟨rest, rfl, h⟩
  | cons c cycles ih =>
    rw [writes_cons, run_cons]
    cases ha : b.applied c with
    | none => exact ih (h.wait numFlows ha)
    | some w =>
      obtain ⟨r, rest₁, rfl, rfl, h₁⟩ := h.apply numFlows ha
      obtain ⟨rest₂, hrest, h₂⟩ := ih h₁
      exact ⟨rest₂, by rw [List.map_cons, hrest]; rfl, h₂⟩

/-- **Nothing starves**: two cycles for each request are enough for all of them. -/
theorem Tracks.writes_of_willing (h : b.Tracks rest) {cycles : List WriteCycle}
    (hwill : ∀ c ∈ cycles, c.Willing) (hlen : 2 * rest.length ≤ cycles.length) :
    b.writes numFlows cycles = rest.map WriteRequest.write := by
  induction rest generalizing b cycles with
  | nil =>
    obtain ⟨rest', hrest, -⟩ := h.writes_append numFlows cycles
    exact (List.append_eq_nil_iff.mp hrest.symm).1
  | cons r rest ih =>
    match cycles, hwill, hlen with
    | c :: c' :: cycles, hwill, hlen =>
      simp only [List.length_cons] at hlen
      have hwill' := fun x hx => hwill x (List.mem_cons_of_mem _ hx)
      rw [writes_cons]
      cases ha : b.applied c with
      | some w =>
        obtain ⟨_, _, heq, rfl, h₁⟩ := h.apply numFlows ha
        cases heq
        rw [ih h₁ hwill' (by rw [List.length_cons]; omega)]
        rfl
      | none =>
        have hne := h.applied_of_willing numFlows (hwill c List.mem_cons_self)
          (hwill' c' List.mem_cons_self) ha
        obtain ⟨w, hw⟩ := Option.ne_none_iff_exists'.mp hne
        obtain ⟨_, _, heq, rfl, h₂⟩ := (h.wait numFlows ha).apply numFlows hw
        cases heq
        rw [writes_cons, hw, ih h₂ (fun x hx => hwill' x (List.mem_cons_of_mem _ hx)) (by omega)]
        rfl

/-- What is applied has settled in the registers. -/
theorem settled_run (h : b.port.Answering) :
    (b.run numFlows cycles).port.Answering ∧
      (b.run numFlows cycles).port.settled =
        (b.writes numFlows cycles).foldl (CsrFile.write numFlows) b.port.settled := by
  induction cycles generalizing b with
  | nil => exact ⟨h, rfl⟩
  | cons c cycles ih =>
    obtain ⟨hend, hfile⟩ := ih (b := b.step numFlows c) h.step
    refine ⟨hend, ?_⟩
    rw [run_cons, hfile, writes_cons, port_step, CsrWritePort.settled_step h, List.foldl_append]
    rw [applied]
    cases b.port.accept (b.drive c) <;> rfl

/-- Each write has its strobe, one cycle later. -/
theorem strobes_append :
    b.strobes numFlows cycles ++ (b.run numFlows cycles).port.pulses.wr.toList =
      b.port.pulses.wr.toList ++ b.writes numFlows cycles := by
  induction cycles generalizing b with
  | nil => exact (List.append_nil _).symm
  | cons c cycles ih =>
    have hnext : (b.step numFlows c).port.pulses.wr = b.applied c := by
      rw [port_step, CsrWritePort.pulses_step, applied]
      cases b.port.accept (b.drive c) <;> rfl
    rw [strobes_cons, run_cons, List.append_assoc, ih, hnext, writes_cons]

/-- Each write has its response. -/
theorem length_responses :
    (b.responses numFlows cycles).length + (b.run numFlows cycles).port.bvalid.toNat =
      b.port.bvalid.toNat + (b.writes numFlows cycles).length := by
  induction cycles generalizing b with
  | nil => exact Nat.add_comm _ _
  | cons c cycles ih =>
    have hnext : (b.answered c).toList.length + (b.step numFlows c).port.bvalid.toNat =
        b.port.bvalid.toNat + (b.applied c).toList.length := by
      rw [bvalid_step, answered, applied]
      cases hb : b.port.bvalid with
      | true =>
        rw [CsrWritePort.accept_of_bvalid hb]
        cases c.bready <;> rfl
      | false => cases b.port.accept (b.drive c) <;> rfl
    have hrest := ih (b := b.step numFlows c)
    rw [responses_cons, run_cons, writes_cons, List.length_append, List.length_append]
    omega

end Runs

/-! ### Errors -/

/-- A write that is applied in these cycles acknowledges error `j`. -/
def Acknowledged (numFlows : ℕ) (b : WriteBus lfw) (cycles : List WriteCycle) (j : ℕ) : Prop :=
  ∃ w ∈ b.writes numFlows cycles, w.addr = regErrorStatus ∧ w.data.getLsbD j = true

variable {j : ℕ}

theorem acknowledged_cons (cycles : List WriteCycle) :
    b.Acknowledged numFlows (c :: cycles) j ↔
      (b.port.errW1c (b.drive c)).getLsbD j = true ∨
        (b.step numFlows c).Acknowledged numFlows cycles j := by
  have hnow : (b.port.errW1c (b.drive c)).getLsbD j = true ↔
      ∃ w ∈ (b.applied c).toList, w.addr = regErrorStatus ∧ w.data.getLsbD j = true := by
    rw [CsrWritePort.errW1c, applied]
    cases b.port.accept (b.drive c) with
    | none => simp
    | some w => by_cases haddr : w.addr = regErrorStatus <;> simp [haddr]
  rw [hnow]
  simp only [Acknowledged, writes_cons, List.mem_append, or_and_right, exists_or]

theorem errorStatus_step :
    (b.step numFlows c).port.errorStatus.getLsbD j = true ↔
      b.port.errorStatus.getLsbD j = true ∧ ¬ (b.port.errW1c (b.drive c)).getLsbD j = true ∨
        c.errorStatusSet.getLsbD j = true := by
  have hstep : (b.step numFlows c).port.errorStatus =
      b.port.errorStatus &&& ~~~ b.port.errW1c (b.drive c) ||| c.errorStatusSet := rfl
  rw [hstep]
  by_cases hj : j < 32
  · simp [hj]
  · have hge (x : BitVec 32) : x.getLsbD j = false := BitVec.getLsbD_of_ge x j (by omega)
    simp only [hge]
    decide

end WriteBus

/-! ## The law -/

/-- What a run of the write channel comes to. -/
structure WriteLaw (numFlows : ℕ) (f : CsrFile lfw) (reqs : List WriteRequest)
    (cycles : List WriteCycle) (b : WriteBus lfw) : Prop where
  /-- Writes are applied once, in the order in which they are sent. -/
  prefix_requests : b.writes numFlows cycles <+: reqs.map WriteRequest.write
  /-- When no response is due, the registers hold what was applied, and nothing else. -/
  file : (b.run numFlows cycles).port.bvalid = false →
    (b.run numFlows cycles).port.toCsrFile =
      (b.writes numFlows cycles).foldl (CsrFile.write numFlows) f
  /-- So do the tables that the ports classify with. -/
  windows : (b.run numFlows cycles).port.bvalid = false →
    (b.run numFlows cycles).port.windows = f.windows.run (b.writes numFlows cycles)
  /-- The windows see each write once. -/
  strobes : b.strobes numFlows cycles ++ (b.run numFlows cycles).port.pulses.wr.toList =
    b.writes numFlows cycles
  /-- Each write has one response. -/
  responses : (b.responses numFlows cycles).length + (b.run numFlows cycles).port.bvalid.toNat =
    (b.writes numFlows cycles).length
  /-- No word of a key is on its way when a write is taken. -/
  drained : ∀ c, (b.run numFlows cycles).applied c ≠ none →
    (b.run numFlows cycles).port.pulses.hk = none
  /-- From here, two cycles for each request are enough for all of them. -/
  progress : ∀ more : List WriteCycle, (∀ c ∈ more, c.Willing) → 2 * reqs.length ≤ more.length →
    b.writes numFlows (cycles ++ more) = reqs.map WriteRequest.write

theorem windows_foldl (numFlows : ℕ) (f : CsrFile lfw) (ws : List CsrWrite) :
    (ws.foldl (CsrFile.write numFlows) f).windows = f.windows.run ws := by
  induction ws generalizing f with
  | nil => rfl
  | cons w ws ih => exact ih (f.write numFlows w)

/-- **The write channel of the register file.** -/
theorem csr_write_port_law (numFlows : ℕ) (f : CsrFile lfw) (reqs : List WriteRequest)
    (cycles : List WriteCycle) :
    WriteLaw numFlows f reqs cycles (.start reqs { f with }) := by
  have hanswering : ({ f with } : CsrWritePort lfw).Answering := fun _ => rfl
  obtain ⟨rest, hrest, htracks⟩ :=
    (WriteBus.Tracks.start reqs f).writes_append numFlows cycles
  obtain ⟨hend, hsettled⟩ := WriteBus.settled_run numFlows
    (b := .start reqs { f with }) cycles hanswering
  have hfile := fun hb => (hend.settled_eq hb).symm.trans hsettled
  refine ⟨⟨_, hrest.symm⟩, hfile, fun hb => ?_, WriteBus.strobes_append numFlows cycles, ?_, ?_, ?_⟩
  · rw [hfile hb]
    exact windows_foldl numFlows f _
  · rw [WriteBus.length_responses]
    exact Nat.zero_add _
  · intro c hc
    obtain ⟨w, hw⟩ := Option.ne_none_iff_exists'.mp hc
    exact hend.drained hw
  · intro more hwill hlen
    have hfew : rest.length ≤ reqs.length := by
      have hlengths := congrArg List.length hrest
      simp only [List.length_map, List.length_append] at hlengths
      omega
    rw [WriteBus.writes_append, htracks.writes_of_willing numFlows hwill (by omega), ← hrest]

/-- **No error is lost.**  A bit of the error register is set exactly when it was raised and no
write that acknowledges it has been applied since. -/
theorem error_events_kept (numFlows : ℕ) (b : WriteBus lfw) (cycles : List WriteCycle) (j : ℕ) :
    (b.run numFlows cycles).port.errorStatus.getLsbD j = true ↔
      b.port.errorStatus.getLsbD j = true ∧ ¬ b.Acknowledged numFlows cycles j ∨
        ∃ before c after, cycles = before ++ c :: after ∧ c.errorStatusSet.getLsbD j = true ∧
          ¬ (b.run numFlows (before ++ [c])).Acknowledged numFlows after j := by
  induction cycles generalizing b with
  | nil =>
    have hnone : ¬ b.Acknowledged numFlows [] j := by
      rintro ⟨w, hw, -⟩
      cases hw
    have hrun : b.run numFlows [] = b := rfl
    simp [hnone, hrun]
  | cons c cycles ih =>
    rw [WriteBus.run_cons, ih, WriteBus.errorStatus_step, WriteBus.acknowledged_cons]
    constructor
    · rintro (⟨⟨hbit, hack⟩ | hset, hlater⟩ | ⟨before, c', after, rfl, hset, hlater⟩)
      · exact .inl ⟨hbit, not_or.mpr ⟨hack, hlater⟩⟩
      · exact .inr ⟨[], c, cycles, rfl, hset, hlater⟩
      · exact .inr ⟨c :: before, c', after, rfl, hset, hlater⟩
    · rintro (⟨hbit, hack⟩ | ⟨before, c', after, hsplit, hset, hlater⟩)
      · rw [not_or] at hack
        exact .inl ⟨.inl ⟨hbit, hack.1⟩, hack.2⟩
      · cases before with
        | nil =>
          rw [List.nil_append, List.cons.injEq] at hsplit
          obtain ⟨rfl, rfl⟩ := hsplit
          exact .inl ⟨.inr hset, hlater⟩
        | cons _ before =>
          rw [List.cons_append, List.cons.injEq] at hsplit
          obtain ⟨rfl, rfl⟩ := hsplit
          exact .inr ⟨before, c', after, rfl, hset, hlater⟩

end PacketWyrm
