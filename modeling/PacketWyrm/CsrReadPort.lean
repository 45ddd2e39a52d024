import PacketWyrm.BarBackend
import PacketWyrm.CsrWritePort

/-!
# The register file's read channel

`pw_csr_full` cycle by cycle, on its AXI-Lite read channels.  Most reads are answered in the next
cycle.  The histogram, the punt window and the flash window are memories with a registered read,
and their reads wait for one cycle more.  A 64-bit value is read as two words: the read of the low
word keeps the high one for the read that follows.

## Main definitions

* `CsrReadPort` — the machine; `ReadBus` — with a master on its channels.
* `ReadEvent` — a read, with what there was to read; `ReadEvent.answer` — what it gives.

## Main results

* `ReadBus.Tracks.wait`, `ReadBus.Tracks.capture` — a cycle answers the next read, or nothing.
* `csr_read_port_law` — each read is answered once and in order, from the registers as they stood
  when it was accepted, and no 64-bit value is torn.
-/

namespace PacketWyrm

open Lib

/-! ## What there is to read -/

/-- The constants that the registers identify a card with. -/
structure CsrIdent where
  deviceId : BitVec 32
  version : BitVec 32
  buildId : BitVec 32
  gitHash : BitVec 32
  capabilities : BitVec 32
  numPorts : BitVec 32
  numFlows : BitVec 32
  numLogicalIfs : BitVec 32
  numClassifier : BitVec 32
  numHistBins : BitVec 32

/-- The inputs of the read side in a cycle. -/
structure CsrSources where
  timestamp : BitVec 64
  gpioSyncTs : BitVec 64
  gpioSyncSeq : BitVec 32
  gpioSyncGpioIn : BitVec 6
  sfpI2cIn : BitVec 4
  statusErr : Bool
  statusActivity : Bool
  sysmonTemp : BitVec 16
  sysmonVccint : BitVec 16
  sysmonVccaux : BitVec 16
  /-- The registers of the write side. -/
  globalControl : BitVec 32
  gpioSyncCtrl : BitVec 32
  sfpI2cDriveLow : BitVec 4
  errorStatus : BitVec 32
  /-- The snapshot and the inject window, at an offset. -/
  stats : ℕ → BitVec 32
  inj : ℕ → BitVec 32
  /-- The counts of the histogram, at a flat index. -/
  hist : ℕ → BitVec 64
  /-- The registered outputs of the punt window and of the flash window. -/
  puntRdData : BitVec 32
  spiRdata : BitVec 32

/-- The high words that are kept for the next read. -/
structure CsrShadows where
  timestampHigh : BitVec 32 := 0
  gpioSyncTsHigh : BitVec 32 := 0
  histHi : BitVec 32 := 0

/-- The low word of a 64-bit value. -/
def loWord (v : BitVec 64) : BitVec 32 := v.extractLsb' 0 32

/-- Its high word. -/
def hiWord (v : BitVec 64) : BitVec 32 := v.extractLsb' 32 32

theorem hiWord_append_loWord (v : BitVec 64) : hiWord v ++ loWord v = v :=
  BitVec.extractLsb'_append_extractLsb'

/-- The registers. -/
def regRead (id : CsrIdent) (src : CsrSources) (sh : CsrShadows) (a : ℕ) : BitVec 32 :=
  match a with
  | 0x0000 => id.deviceId
  | 0x0004 => id.version
  | 0x0008 => id.buildId
  | 0x000C => id.gitHash
  | 0x0010 => id.capabilities
  | 0x0014 => id.numPorts
  | 0x0018 => id.numFlows
  | 0x001C => id.numLogicalIfs
  | 0x0020 => id.numClassifier
  | 0x0024 => id.numHistBins
  | 0x0100 => src.globalControl
  -- ready, the sticky error, and activity
  | 0x0104 =>
    0#26 ++ BitVec.ofBool src.statusActivity ++ 0#1 ++ BitVec.ofBool src.statusErr ++ 1#3
  | 0x0124 => 0#16 ++ src.sysmonTemp
  | 0x0128 => src.sysmonVccaux ++ src.sysmonVccint
  | 0x0108 => loWord src.timestamp
  | 0x010C => sh.timestampHigh
  | 0x0130 => src.gpioSyncCtrl
  | 0x0134 => loWord src.gpioSyncTs
  | 0x0138 => sh.gpioSyncTsHigh
  | 0x013C => src.gpioSyncSeq
  | 0x0140 => 0#26 ++ src.gpioSyncGpioIn
  | 0x0150 => 0#12 ++ src.sfpI2cIn ++ 0#12 ++ src.sfpI2cDriveLow
  | 0x0110 => src.errorStatus
  | _ => 0

/-- The high words that a read of a register keeps. -/
def regLatch (src : CsrSources) (sh : CsrShadows) (a : ℕ) : CsrShadows :=
  match a with
  | 0x0108 => { sh with timestampHigh := hiWord src.timestamp }
  | 0x0134 => { sh with gpioSyncTsHigh := hiWord src.gpioSyncTs }
  | _ => sh

/-- The memories whose reads wait. -/
inductive ReadPend where
  /-- `hist_pend` with `hist_half_q` and `hist_val_q`. -/
  | hist (half valid : Bool)
  /-- `punt_pend`. -/
  | punt
  /-- `spi_pend`. -/
  | spi
  deriving DecidableEq, Repr

section Decode

variable (numFlows bins : ℕ) (a : BitVec 16)

/-- `h_off`. -/
def histOff : ℕ := ((a - 0xA000) &&& 0xFFFC).toNat

/-- `h_flow`: 128 bytes a flow. -/
def histFlow : ℕ := histOff a / 128

/-- `h_bkt`: 8 bytes a bucket. -/
def histBkt : ℕ := (histOff a - histFlow a * 128) / 8

/-- `h_valid`. -/
def histValid : Bool := histFlow a < numFlows && histBkt a < bins

/-- `hist_rd_addr_o`. -/
def histRdAddr : ℕ := if histValid numFlows bins a then histFlow a * bins + histBkt a else 0

/-- What a read of the address waits for, if it waits. -/
def readPend : Option ReadPend :=
  if 0xA000 ≤ a.toNat ∧ a.toNat < 0xC000 then
    some (.hist (a.getLsbD 2) (histValid numFlows bins a))
  else if 0x1000 ≤ a.toNat ∧ a.toNat < 0x2000 then some .punt
  else if 0x0800 ≤ a.toNat ∧ a.toNat < 0x0D00 then some .spi
  else none

end Decode

/-- A read that does not wait: the snapshot, the inject window and the registers. -/
def readNow (id : CsrIdent) (src : CsrSources) (sh : CsrShadows) (a : ℕ) :
    BitVec 32 × CsrShadows :=
  if 0xC000 ≤ a then (src.stats (a - 0xC000), sh)
  else if 0x0D00 ≤ a ∧ a < 0x1000 then (src.inj (a - 0x0D00), sh)
  else (regRead id src sh a, regLatch src sh a)

/-- The end of a read that waits, with the count that the histogram's register holds. -/
def readEnd (count : BitVec 64) (src : CsrSources) (sh : CsrShadows) :
    ReadPend → BitVec 32 × CsrShadows
  | .hist _ false => (0, sh)
  | .hist true true => (sh.histHi, sh)
  | .hist false true => (loWord count, { sh with histHi := hiWord count })
  | .punt => (src.puntRdData, sh)
  | .spi => (src.spiRdata, sh)

/-! ## The machine -/

/-- What the master drives in a cycle, and what there is to read. -/
structure CsrReadIn where
  araddr : BitVec 16
  arvalid : Bool
  rready : Bool
  src : CsrSources

/-- The read side of `pw_csr_full`, with the output register of the histogram. -/
structure CsrReadPort extends CsrShadows where
  arready : Bool := false
  rvalid : Bool := false
  rdata : BitVec 32 := 0
  pend : Option ReadPend := none
  histRdData : BitVec 64 := 0

namespace CsrReadPort

variable (id : CsrIdent) (numFlows bins : ℕ) (s : CsrReadPort) (i : CsrReadIn)

/-- A read is accepted. -/
def accept : Bool := !s.rvalid && s.pend.isNone && i.arvalid

/-- The word that a cycle answers with, and the high words that it keeps. -/
def capture : Option (BitVec 32 × CsrShadows) :=
  match s.pend with
  | some k => some (readEnd s.histRdData i.src s.toCsrShadows k)
  | none =>
    if s.accept i && (readPend numFlows bins i.araddr).isNone then
      some (readNow id i.src s.toCsrShadows i.araddr.toNat)
    else none

/-- One cycle. -/
def step : CsrReadPort where
  toCsrShadows := ((s.capture id numFlows bins i).map Prod.snd).getD s.toCsrShadows
  arready := s.accept i
  rvalid :=
    if s.rvalid && i.rready then false
    else (s.capture id numFlows bins i).isSome || s.rvalid
  rdata := ((s.capture id numFlows bins i).map Prod.fst).getD s.rdata
  pend := if s.accept i then readPend numFlows bins i.araddr else none
  histRdData := i.src.hist (histRdAddr numFlows bins i.araddr)

end CsrReadPort

/-! ## Reads -/

/-- A read: its address, what there was when it was accepted, and what there was when it was
answered. -/
structure ReadEvent where
  addr : BitVec 16
  src : CsrSources
  late : CsrSources

/-- What a read gives, and the high words that it keeps. -/
def ReadEvent.answer (id : CsrIdent) (numFlows bins : ℕ) (sh : CsrShadows) (e : ReadEvent) :
    BitVec 32 × CsrShadows :=
  match readPend numFlows bins e.addr with
  | some k => readEnd (e.src.hist (histRdAddr numFlows bins e.addr)) e.late sh k
  | none => readNow id e.src sh e.addr.toNat

/-- What reads give one after the other. -/
def answers (id : CsrIdent) (numFlows bins : ℕ) : CsrShadows → List ReadEvent → List (BitVec 32)
  | _, [] => []
  | sh, e :: es =>
    (e.answer id numFlows bins sh).1 :: answers id numFlows bins (e.answer id numFlows bins sh).2 es

/-- The high words that they leave. -/
def shadowsAfter (id : CsrIdent) (numFlows bins : ℕ) (sh : CsrShadows) (es : List ReadEvent) :
    CsrShadows :=
  es.foldl (fun sh e => (e.answer id numFlows bins sh).2) sh

section Answers

variable {id : CsrIdent} {numFlows bins : ℕ} {sh : CsrShadows} {e : ReadEvent}
  {es fs : List ReadEvent}

theorem answers_append :
    answers id numFlows bins sh (es ++ fs) =
      answers id numFlows bins sh es ++
        answers id numFlows bins (shadowsAfter id numFlows bins sh es) fs := by
  induction es generalizing sh with
  | nil => rfl
  | cons e es ih => rw [List.cons_append, answers, ih]; rfl

@[simp] theorem length_answers : (answers id numFlows bins sh es).length = es.length := by
  induction es generalizing sh with
  | nil => rfl
  | cons e es ih => rw [answers, List.length_cons, ih, List.length_cons]

theorem shadowsAfter_cons :
    shadowsAfter id numFlows bins sh (e :: es) =
      shadowsAfter id numFlows bins (e.answer id numFlows bins sh).2 es := rfl

/-- The registers of 64 bits. -/
inductive WideReg where
  | timestamp
  | gpioSyncTs
  | hist
  deriving DecidableEq, Repr

/-- The high word that is kept of a register. -/
def CsrShadows.kept (sh : CsrShadows) : WideReg → BitVec 32
  | .timestamp => sh.timestampHigh
  | .gpioSyncTs => sh.gpioSyncTsHigh
  | .hist => sh.histHi

namespace WideReg

variable (numFlows bins : ℕ) (a : BitVec 16)

/-- The address is one of a low word. -/
def IsLow : WideReg → Prop
  | timestamp => a.toNat = 0x0108
  | gpioSyncTs => a.toNat = 0x0134
  | hist => readPend numFlows bins a = some (.hist false true)

/-- The address is one of a high word. -/
def IsHigh : WideReg → Prop
  | timestamp => a.toNat = 0x010C
  | gpioSyncTs => a.toNat = 0x0138
  | hist => readPend numFlows bins a = some (.hist true true)

/-- The value of the register when a read is accepted. -/
def value (e : ReadEvent) : WideReg → BitVec 64
  | timestamp => e.src.timestamp
  | gpioSyncTs => e.src.gpioSyncTs
  | hist => e.src.hist (histRdAddr numFlows bins e.addr)

end WideReg

/-- A register below the windows does not wait. -/
theorem readPend_of_reg {a : BitVec 16} {n : ℕ} (h : a.toNat = n) (hn : n < 0x0800) :
    readPend numFlows bins a = none := by
  rw [readPend, if_neg (by omega), if_neg (by omega), if_neg (by omega)]

theorem answer_of_reg {n : ℕ} (h : e.addr.toNat = n) (hn : n < 0x0800) :
    e.answer id numFlows bins sh = (regRead id e.src sh n, regLatch e.src sh n) := by
  rw [ReadEvent.answer, readPend_of_reg h hn]
  dsimp only
  rw [readNow, h, if_neg (by omega), if_neg (by omega)]

/-- **The low word is the one of the value, and the high one is kept.** -/
theorem answer_low {k : WideReg} (h : k.IsLow numFlows bins e.addr) :
    (e.answer id numFlows bins sh).1 = loWord (k.value numFlows bins e) ∧
      (e.answer id numFlows bins sh).2.kept k = hiWord (k.value numFlows bins e) := by
  cases k with
  | timestamp =>
    rw [answer_of_reg h (by decide)]
    exact ⟨rfl, rfl⟩
  | gpioSyncTs =>
    rw [answer_of_reg h (by decide)]
    exact ⟨rfl, rfl⟩
  | hist =>
    have hp : readPend numFlows bins e.addr = some (.hist false true) := h
    rw [ReadEvent.answer, hp]
    exact ⟨rfl, rfl⟩

/-- **The high word is the one that was kept.** -/
theorem answer_high {k : WideReg} (h : k.IsHigh numFlows bins e.addr) :
    (e.answer id numFlows bins sh).1 = sh.kept k := by
  cases k with
  | timestamp => rw [answer_of_reg h (by decide)]; rfl
  | gpioSyncTs => rw [answer_of_reg h (by decide)]; rfl
  | hist =>
    have hp : readPend numFlows bins e.addr = some (.hist true true) := h
    rw [ReadEvent.answer, hp]
    rfl

/-- **Other reads leave what is kept of a register.** -/
theorem answer_kept {k : WideReg} (h : ¬ k.IsLow numFlows bins e.addr) :
    (e.answer id numFlows bins sh).2.kept k = sh.kept k := by
  rw [ReadEvent.answer]
  cases hp : readPend numFlows bins e.addr with
  | some p =>
    cases p with
    | hist half valid =>
      cases valid with
      | false => rfl
      | true =>
        cases half with
        | true => rfl
        | false =>
          cases k with
          | hist => exact absurd hp h
          | _ => rfl
    | _ => rfl
  | none =>
    dsimp only
    rw [readNow]
    split
    · rfl
    split
    · rfl
    · unfold regLatch
      split
      · cases k with
        | timestamp => exact absurd (by assumption) h
        | _ => rfl
      · cases k with
        | gpioSyncTs => exact absurd (by assumption) h
        | _ => rfl
      · rfl

theorem shadowsAfter_kept {k : WideReg} (h : ∀ e ∈ es, ¬ k.IsLow numFlows bins e.addr) :
    (shadowsAfter id numFlows bins sh es).kept k = sh.kept k := by
  induction es generalizing sh with
  | nil => rfl
  | cons e es ih =>
    rw [shadowsAfter_cons, ih fun x hx => h x (List.mem_cons_of_mem _ hx),
      answer_kept (h e List.mem_cons_self)]

/-- **The two words of a value belong together**: the high word that is read after a low word is
the one of the same moment, unless another low word of the register is read in between. -/
theorem wide_whole {k : WideReg} {before mid after : List ReadEvent} {lo hi : ReadEvent}
    (hlo : k.IsLow numFlows bins lo.addr) (hhi : k.IsHigh numFlows bins hi.addr)
    (hmid : ∀ e ∈ mid, ¬ k.IsLow numFlows bins e.addr) :
    ∃ l h, (answers id numFlows bins sh (before ++ lo :: (mid ++ hi :: after)))[before.length]? =
        some l ∧
      (answers id numFlows bins sh (before ++ lo :: (mid ++ hi :: after)))[
        before.length + (mid.length + 1)]? = some h ∧ h ++ l = k.value numFlows bins lo := by
  refine ⟨loWord (k.value numFlows bins lo), hiWord (k.value numFlows bins lo), ?_, ?_,
    hiWord_append_loWord _⟩
  · rw [answers_append, List.getElem?_append_right length_answers.le, length_answers,
      Nat.sub_self, answers, List.getElem?_cons_zero, (answer_low hlo).1]
  · rw [answers_append, List.getElem?_append_right (by rw [length_answers]; omega),
      length_answers, Nat.add_sub_cancel_left, answers, List.getElem?_cons_succ, answers_append,
      List.getElem?_append_right length_answers.le, length_answers, Nat.sub_self, answers,
      List.getElem?_cons_zero, answer_high hhi, shadowsAfter_kept hmid, (answer_low hlo).2]

/-- The words of a value one right after the other. -/
theorem wide_adjacent {k : WideReg} {i : ℕ} (hi : i + 1 < es.length)
    (hlow : k.IsLow numFlows bins es[i].addr) (hhigh : k.IsHigh numFlows bins es[i + 1].addr) :
    ∃ l h, (answers id numFlows bins sh es)[i]? = some l ∧
      (answers id numFlows bins sh es)[i + 1]? = some h ∧
      h ++ l = k.value numFlows bins es[i] := by
  have hsplit : es = es.take i ++ es[i] :: ([] ++ es[i + 1] :: es.drop (i + 1 + 1)) := by
    rw [List.nil_append, List.cons_getElem_drop_succ, List.cons_getElem_drop_succ,
      List.take_append_drop]
  obtain ⟨l, h, hl, hh, hvalue⟩ := @wide_whole id numFlows bins sh k (es.take i) []
    (es.drop (i + 1 + 1)) es[i] es[i + 1] hlow hhigh (fun _ h => absurd h List.not_mem_nil)
  rw [← hsplit, List.length_take_of_le (by omega)] at hl hh
  exact ⟨l, h, hl, hh, hvalue⟩

end Answers

/-! ## The channels -/

/-- What is left open in a cycle: whether the master makes an offer and whether it takes an
answer, the address lines while it makes none, and what there is to read. -/
structure ReadCycle where
  go : Bool
  rready : Bool
  parked : BitVec 16
  src : CsrSources

/-- Nothing waits for the master. -/
def ReadCycle.Willing (c : ReadCycle) : Prop := c.go = true ∧ c.rready = true

/-- The machine with a master on its channels, and what there was to read in the last cycle. -/
structure ReadBus where
  ar : Sender (BitVec 16)
  port : CsrReadPort
  prev : CsrSources

namespace ReadBus

variable (id : CsrIdent) (numFlows bins : ℕ) (b : ReadBus) (c : ReadCycle)

/-- What the master drives. -/
def drive : CsrReadIn where
  araddr := (b.ar.offer c.go).getD c.parked
  arvalid := (b.ar.offer c.go).isSome
  rready := c.rready
  src := c.src

/-- One cycle. -/
def step : ReadBus where
  ar := b.ar.step c.go b.port.arready
  port := b.port.step id numFlows bins (b.drive c)
  prev := c.src

/-- The read that the cycle answers: one that has waited was accepted a cycle ago. -/
def captured : Option ReadEvent :=
  (b.port.capture id numFlows bins (b.drive c)).map fun _ =>
    { addr := (b.drive c).araddr
      src := if b.port.pend.isSome then b.prev else c.src
      late := c.src }

/-- The answer that the master takes. -/
def taken : Option (BitVec 32) :=
  if b.port.rvalid && c.rready then some b.port.rdata else none

/-- The answer that the master has not taken. -/
def due : List (BitVec 32) := if b.port.rvalid then [b.port.rdata] else []

/-- The bus with requests to come. -/
def start (reqs : List (BitVec 16)) (prev : CsrSources) : ReadBus where
  ar := { todo := reqs }
  port := {}
  prev := prev

/-- The requests that are still to be answered. -/
inductive Tracks (rest : List (BitVec 16)) : Prop
  /-- No address has been accepted. -/
  | idle (hpend : b.port.pend = none) (hready : b.port.arready = false) (htodo : b.ar.todo = rest)
  /-- The address of the read that was answered last goes over in this cycle. -/
  | shown (a : BitVec 16) (hpend : b.port.pend = none) (hready : b.port.arready = true)
      (hvalid : b.port.rvalid = true) (hoff : b.ar.offering = true) (htodo : b.ar.todo = a :: rest)
  /-- The first one goes over in this cycle, and the read waits for its memory. -/
  | waiting (a : BitVec 16) (k : ReadPend) (rest' : List (BitVec 16))
      (hpend : b.port.pend = some k) (hk : readPend numFlows bins a = some k)
      (hready : b.port.arready = true) (hvalid : b.port.rvalid = false)
      (hoff : b.ar.offering = true) (htodo : b.ar.todo = a :: rest') (hrest : rest = a :: rest')
      (hcount : b.port.histRdData = b.prev.hist (histRdAddr numFlows bins a))

variable {id numFlows bins b c} {rest : List (BitVec 16)}

theorem pend_step : (b.step id numFlows bins c).port.pend =
    if b.port.accept (b.drive c) then readPend numFlows bins (b.drive c).araddr else none := rfl

theorem arready_step :
    (b.step id numFlows bins c).port.arready = b.port.accept (b.drive c) := rfl

theorem ar_step : (b.step id numFlows bins c).ar = b.ar.step c.go b.port.arready := rfl

theorem rvalid_step : (b.step id numFlows bins c).port.rvalid =
    if b.port.rvalid && c.rready then false
    else (b.port.capture id numFlows bins (b.drive c)).isSome || b.port.rvalid := rfl

theorem accept_eq : b.port.accept (b.drive c) =
    (!b.port.rvalid && b.port.pend.isNone && (b.ar.offer c.go).isSome) := rfl

theorem araddr_of_offer {a : BitVec 16} (h : b.ar.offer c.go = some a) :
    (b.drive c).araddr = a := by
  rw [drive, h]
  rfl

/-- A cycle that answers nothing. -/
theorem capture_of_captured (h : b.captured id numFlows bins c = none) :
    b.port.capture id numFlows bins (b.drive c) = none :=
  Option.map_eq_none_iff.mp h

theorem captured_of_pend {k : ReadPend} (h : b.port.pend = some k) :
    b.captured id numFlows bins c =
      some { addr := (b.drive c).araddr, src := b.prev, late := c.src } := by
  rw [captured, CsrReadPort.capture, h]
  rfl

theorem captured_of_not_accept (hpend : b.port.pend = none)
    (ha : b.port.accept (b.drive c) = false) : b.captured id numFlows bins c = none := by
  rw [captured, CsrReadPort.capture, hpend, ha]
  rfl

/-- **A cycle that answers nothing** leaves the requests as they are. -/
theorem Tracks.wait (h : b.Tracks numFlows bins rest)
    (hcap : b.captured id numFlows bins c = none) :
    (b.step id numFlows bins c).Tracks numFlows bins rest := by
  rcases h with ⟨hpend, hready, htodo⟩ | ⟨a, hpend, hready, hvalid, hoff, htodo⟩ |
    ⟨a, k, rest', hpend, -, -, -, -, -, -, -⟩
  · cases ha : b.port.accept (b.drive c) with
    | false =>
      refine .idle ?_ ?_ ?_
      · rw [pend_step, ha]; rfl
      · rw [arready_step, ha]
      · rw [ar_step, hready, Sender.todo_step_false, htodo]
    | true =>
      have hacc := ha
      rw [accept_eq] at hacc
      simp only [Bool.and_eq_true, Bool.not_eq_true', Option.isSome_iff_exists] at hacc
      obtain ⟨⟨hvalid, -⟩, a, hoffer⟩ := hacc
      -- the read would have been answered at once if it did not wait
      have hwaits : (readPend numFlows bins a).isSome = true := by
        have hnone := capture_of_captured hcap
        rw [CsrReadPort.capture, hpend, ha, araddr_of_offer hoffer] at hnone
        cases hp : readPend numFlows bins a with
        | none => simp [hp] at hnone
        | some k => rfl
      obtain ⟨k, hk⟩ := Option.isSome_iff_exists.mp hwaits
      have hfirst := Sender.todo_of_offer hoffer
      refine .waiting a k b.ar.todo.tail ?_ hk ?_ ?_ ?_ ?_ ?_ ?_
      · rw [pend_step, ha, araddr_of_offer hoffer, if_pos rfl, hk]
      · rw [arready_step, ha]
      · rw [rvalid_step, hvalid, capture_of_captured hcap]; rfl
      · rw [ar_step, hready, Sender.step_of_wait hoffer]
      · rw [ar_step, hready, Sender.todo_step_false]
        exact hfirst
      · rw [← htodo]
        exact hfirst
      · rw [← araddr_of_offer hoffer]
        rfl
  · have ha : b.port.accept (b.drive c) = false := by rw [accept_eq, hvalid]; rfl
    refine .idle ?_ ?_ ?_
    · rw [pend_step, ha]; rfl
    · rw [arready_step, ha]
    · rw [ar_step, hready, Sender.step_of_ready (Sender.offer_of_offering hoff htodo c.go), htodo,
        List.tail_cons]
  · rw [captured_of_pend hpend] at hcap
    cases hcap

/-- **A cycle that answers a read** answers the next one, with what the read is to give. -/
theorem Tracks.capture {e : ReadEvent} (h : b.Tracks numFlows bins rest)
    (hcap : b.captured id numFlows bins c = some e) :
    b.port.rvalid = false ∧
      b.port.capture id numFlows bins (b.drive c) =
        some (e.answer id numFlows bins b.port.toCsrShadows) ∧
      ∃ rest', rest = e.addr :: rest' ∧
        (b.step id numFlows bins c).Tracks numFlows bins rest' := by
  rcases h with ⟨hpend, hready, htodo⟩ | ⟨a, hpend, -, hvalid, -, -⟩ |
    ⟨a, k, rest', hpend, hk, hready, hvalid, hoff, htodo, rfl, hcount⟩
  · cases ha : b.port.accept (b.drive c) with
    | false =>
      rw [captured_of_not_accept hpend ha] at hcap
      cases hcap
    | true =>
      have hacc := ha
      rw [accept_eq] at hacc
      simp only [Bool.and_eq_true, Bool.not_eq_true', Option.isSome_iff_exists] at hacc
      obtain ⟨⟨hvalid, -⟩, a, hoffer⟩ := hacc
      have haddr := araddr_of_offer hoffer
      have hfirst := Sender.todo_of_offer hoffer
      have hnow : readPend numFlows bins a = none := by
        rw [captured, CsrReadPort.capture, hpend, ha, haddr] at hcap
        cases hp : readPend numFlows bins a with
        | none => rfl
        | some k => simp [hp] at hcap
      have hport : b.port.capture id numFlows bins (b.drive c) =
          some (readNow id c.src b.port.toCsrShadows a.toNat) := by
        rw [CsrReadPort.capture, hpend]
        dsimp only
        rw [ha, haddr, hnow]
        rfl
      rw [captured, hport, hpend, haddr] at hcap
      obtain rfl := Option.some.inj hcap
      refine ⟨hvalid, ?_, b.ar.todo.tail, ?_, .shown a ?_ ?_ ?_ ?_ ?_⟩
      · rw [hport, ReadEvent.answer]
        dsimp only
        rw [hnow]
        rfl
      · rw [← htodo]
        exact hfirst
      · rw [pend_step, ha, haddr, if_pos rfl, hnow]
      · rw [arready_step, ha]
      · rw [rvalid_step, hvalid, hport]; rfl
      · rw [ar_step, hready, Sender.step_of_wait hoffer]
      · rw [ar_step, hready, Sender.todo_step_false]
        exact hfirst
  · have ha : b.port.accept (b.drive c) = false := by rw [accept_eq, hvalid]; rfl
    rw [captured_of_not_accept hpend ha] at hcap
    cases hcap
  · have hoffer := Sender.offer_of_offering hoff htodo c.go
    have ha : b.port.accept (b.drive c) = false := by rw [accept_eq, hpend, hvalid]; rfl
    rw [captured_of_pend hpend, araddr_of_offer hoffer] at hcap
    obtain rfl := Option.some.inj hcap
    refine ⟨hvalid, ?_, rest', rfl, .idle ?_ ?_ ?_⟩
    · rw [CsrReadPort.capture, hpend, ReadEvent.answer]
      dsimp only
      rw [hk, hcount]
      rfl
    · rw [pend_step, ha]; rfl
    · rw [arready_step, ha]
    · rw [ar_step, hready, Sender.step_of_ready hoffer, htodo, List.tail_cons]

theorem shadows_step : (b.step id numFlows bins c).port.toCsrShadows =
    ((b.port.capture id numFlows bins (b.drive c)).map Prod.snd).getD b.port.toCsrShadows := rfl

theorem rdata_step : (b.step id numFlows bins c).port.rdata =
    ((b.port.capture id numFlows bins (b.drive c)).map Prod.fst).getD b.port.rdata := rfl

/-- The answer that is due goes to the master, and is due until then. -/
theorem due_of_wait (hcap : b.captured id numFlows bins c = none) :
    b.due = (b.taken c).toList ++ (b.step id numFlows bins c).due := by
  rw [due, due, taken, rvalid_step, rdata_step, capture_of_captured hcap]
  cases b.port.rvalid <;> cases c.rready <;> rfl

/-- The answer of a read that is answered is due. -/
theorem due_of_capture {r : BitVec 32 × CsrShadows} (hvalid : b.port.rvalid = false)
    (hcap : b.port.capture id numFlows bins (b.drive c) = some r) :
    b.due = [] ∧ b.taken c = none ∧ (b.step id numFlows bins c).due = [r.1] := by
  rw [due, due, taken, rvalid_step, rdata_step, hcap, hvalid]
  exact ⟨rfl, rfl, rfl⟩

/-! ### Runs -/

section Runs

variable (id numFlows bins b)

/-- The bus after some cycles. -/
def run (cycles : List ReadCycle) : ReadBus := Lib.run (step id numFlows bins) b cycles

/-- The reads that are answered in them. -/
def events (cycles : List ReadCycle) : List ReadEvent :=
  outputs (captured id numFlows bins) (step id numFlows bins) b cycles

/-- The words that the master takes in them. -/
def words (cycles : List ReadCycle) : List (BitVec 32) :=
  outputs taken (step id numFlows bins) b cycles

variable {b} (c) (cycles more : List ReadCycle)

theorem run_cons : b.run id numFlows bins (c :: cycles) =
    (b.step id numFlows bins c).run id numFlows bins cycles := rfl

theorem events_cons : b.events id numFlows bins (c :: cycles) =
    (b.captured id numFlows bins c).toList ++
      (b.step id numFlows bins c).events id numFlows bins cycles := rfl

theorem words_cons : b.words id numFlows bins (c :: cycles) =
    (b.taken c).toList ++ (b.step id numFlows bins c).words id numFlows bins cycles := rfl

theorem events_append : b.events id numFlows bins (cycles ++ more) =
    b.events id numFlows bins cycles ++
      (b.run id numFlows bins cycles).events id numFlows bins more :=
  outputs_append _ _ _ _ _

/-- The reads that are answered are the first of the requests. -/
theorem Tracks.events_append (h : b.Tracks numFlows bins rest) :
    ∃ rest', rest = (b.events id numFlows bins cycles).map ReadEvent.addr ++ rest' ∧
      (b.run id numFlows bins cycles).Tracks numFlows bins rest' := by
  induction cycles generalizing b rest with
  | nil => exact ⟨rest, rfl, h⟩
  | cons c cycles ih =>
    rw [events_cons, run_cons]
    cases hcap : b.captured id numFlows bins c with
    | none => exact ih (h.wait hcap)
    | some e =>
      obtain ⟨-, -, rest₁, rfl, h₁⟩ := h.capture hcap
      obtain ⟨rest₂, hrest, h₂⟩ := ih h₁
      exact ⟨rest₂, by rw [hrest]; rfl, h₂⟩

/-- **What the master takes and what is due are what the reads are to give.** -/
theorem Tracks.words_append (h : b.Tracks numFlows bins rest) :
    b.words id numFlows bins cycles ++ (b.run id numFlows bins cycles).due =
      b.due ++ answers id numFlows bins b.port.toCsrShadows
        (b.events id numFlows bins cycles) := by
  induction cycles generalizing b rest with
  | nil => exact (List.append_nil _).symm
  | cons c cycles ih =>
    rw [words_cons, run_cons, events_cons, List.append_assoc]
    cases hcap : b.captured id numFlows bins c with
    | none =>
      have hshadows : (b.step id numFlows bins c).port.toCsrShadows = b.port.toCsrShadows := by
        rw [shadows_step, capture_of_captured hcap]
        rfl
      rw [ih (h.wait hcap), due_of_wait hcap, hshadows, List.append_assoc]
      rfl
    | some e =>
      obtain ⟨hvalid, hport, rest₁, -, h₁⟩ := h.capture hcap
      obtain ⟨hdue, htaken, hnext⟩ := due_of_capture hvalid hport
      have hshadows : (b.step id numFlows bins c).port.toCsrShadows =
          (e.answer id numFlows bins b.port.toCsrShadows).2 := by
        rw [shadows_step, hport]
        rfl
      rw [ih h₁, hdue, htaken, hnext, hshadows]
      rfl

/-- Once no answer is due, a cycle answers a read or makes it wait for its memory. -/
theorem Tracks.pend_of_willing {a : BitVec 16} (h : b.Tracks numFlows bins (a :: rest))
    (hvalid : b.port.rvalid = false) (hc : c.Willing)
    (hcap : b.captured id numFlows bins c = none) :
    (b.step id numFlows bins c).port.pend ≠ none := by
  rcases h with ⟨hpend, hready, htodo⟩ | ⟨_, -, -, hshown, -, -⟩ |
    ⟨_, k, -, hpend, -, -, -, -, -, -, -⟩
  · have hoffer : b.ar.offer c.go = some a := by
      rw [hc.1]
      exact Sender.offer_true htodo
    have ha : b.port.accept (b.drive c) = true := by
      rw [accept_eq, hvalid, hpend, hoffer]
      rfl
    rw [pend_step, ha, if_pos rfl, araddr_of_offer hoffer]
    intro hnow
    have hnone := capture_of_captured hcap
    rw [CsrReadPort.capture, hpend, ha, araddr_of_offer hoffer, hnow] at hnone
    cases hnone
  · rw [hvalid] at hshown
    cases hshown
  · rw [captured_of_pend hpend] at hcap
    cases hcap

/-- A cycle that answers nothing leaves no answer that is due. -/
theorem rvalid_of_willing (hc : c.Willing) (hcap : b.captured id numFlows bins c = none) :
    (b.step id numFlows bins c).port.rvalid = false := by
  rw [rvalid_step, capture_of_captured hcap, hc.2]
  cases b.port.rvalid <;> rfl

/-- Three cycles in which nothing waits for the master are enough for a read. -/
theorem Tracks.captured_of_willing {a : BitVec 16} (h : b.Tracks numFlows bins (a :: rest))
    {c c' c'' : ReadCycle} (hc : c.Willing) (hc' : c'.Willing)
    (hcap : b.captured id numFlows bins c = none)
    (hcap' : (b.step id numFlows bins c).captured id numFlows bins c' = none) :
    ((b.step id numFlows bins c).step id numFlows bins c').captured id numFlows bins c'' ≠
      none := by
  have hpend := (h.wait hcap).pend_of_willing id numFlows bins c'
    (rvalid_of_willing _ _ _ _ hc hcap) hc' hcap'
  obtain ⟨k, hk⟩ := Option.ne_none_iff_exists'.mp hpend
  rw [captured_of_pend hk]
  exact Option.some_ne_none _

/-- **Nothing starves**: three cycles for each request are enough for all of them. -/
theorem Tracks.events_of_willing (h : b.Tracks numFlows bins rest) {cycles : List ReadCycle}
    (hwill : ∀ c ∈ cycles, c.Willing) (hlen : 3 * rest.length ≤ cycles.length) :
    (b.events id numFlows bins cycles).map ReadEvent.addr = rest := by
  induction rest generalizing b cycles with
  | nil =>
    obtain ⟨rest', hrest, -⟩ := h.events_append id numFlows bins cycles
    exact (List.append_eq_nil_iff.mp hrest.symm).1
  | cons a rest ih =>
    match cycles, hwill, hlen with
    | c :: c' :: c'' :: cycles, hwill, hlen =>
      simp only [List.length_cons] at hlen
      have hwill' := fun x hx => hwill x (List.mem_cons_of_mem _ hx)
      have hwill'' := fun x hx => hwill' x (List.mem_cons_of_mem _ hx)
      have hwill''' := fun x hx => hwill'' x (List.mem_cons_of_mem _ hx)
      rw [events_cons]
      cases hcap : b.captured id numFlows bins c with
      | some e =>
        obtain ⟨-, -, _, heq, h₁⟩ := h.capture hcap
        cases heq
        rw [Option.toList_some, List.singleton_append, List.map_cons,
          ih h₁ hwill' (by simp only [List.length_cons]; omega)]
      | none =>
        rw [Option.toList_none, List.nil_append, events_cons]
        cases hcap' : (b.step id numFlows bins c).captured id numFlows bins c' with
        | some e =>
          obtain ⟨-, -, _, heq, h₂⟩ := (h.wait hcap).capture hcap'
          cases heq
          rw [Option.toList_some, List.singleton_append, List.map_cons,
            ih h₂ hwill'' (by simp only [List.length_cons]; omega)]
        | none =>
          have hne : ((b.step id numFlows bins c).step id numFlows bins c').captured id numFlows
              bins c'' ≠ none :=
            h.captured_of_willing id numFlows bins (hwill c List.mem_cons_self)
              (hwill' c' List.mem_cons_self) hcap hcap'
          obtain ⟨e, he⟩ := Option.ne_none_iff_exists'.mp hne
          obtain ⟨-, -, _, heq, h₃⟩ := ((h.wait hcap).wait hcap').capture he
          cases heq
          rw [Option.toList_none, List.nil_append, events_cons, he, Option.toList_some,
            List.singleton_append, List.map_cons, ih h₃ hwill''' (by omega)]

end Runs

end ReadBus

/-! ## The law -/

/-- What a run of the read channel comes to. -/
structure ReadLaw (id : CsrIdent) (numFlows bins : ℕ) (reqs : List (BitVec 16))
    (cycles : List ReadCycle) (b : ReadBus) : Prop where
  /-- Reads are answered once, in the order in which they are sent. -/
  prefix_requests : (b.events id numFlows bins cycles).map ReadEvent.addr <+: reqs
  /-- The master takes what they are to give, and at most one answer is still due. -/
  words : b.words id numFlows bins cycles ++ (b.run id numFlows bins cycles).due =
    answers id numFlows bins {} (b.events id numFlows bins cycles)
  /-- Two words of a value belong to one moment. -/
  wide : ∀ (k : WideReg) (before mid after : List ReadEvent) (lo hi : ReadEvent),
    b.events id numFlows bins cycles = before ++ lo :: (mid ++ hi :: after) →
    k.IsLow numFlows bins lo.addr → k.IsHigh numFlows bins hi.addr →
    (∀ e ∈ mid, ¬ k.IsLow numFlows bins e.addr) →
    ∃ l h, (b.words id numFlows bins cycles ++ (b.run id numFlows bins cycles).due)[
        before.length]? = some l ∧
      (b.words id numFlows bins cycles ++ (b.run id numFlows bins cycles).due)[
        before.length + (mid.length + 1)]? = some h ∧ h ++ l = k.value numFlows bins lo
  /-- From here, three cycles for each request are enough for all of them. -/
  progress : ∀ more : List ReadCycle, (∀ c ∈ more, c.Willing) → 3 * reqs.length ≤ more.length →
    (b.events id numFlows bins (cycles ++ more)).map ReadEvent.addr = reqs

/-- **The read channel of the register file.** -/
theorem csr_read_port_law (id : CsrIdent) (numFlows bins : ℕ) (reqs : List (BitVec 16))
    (prev : CsrSources) (cycles : List ReadCycle) :
    ReadLaw id numFlows bins reqs cycles (.start reqs prev) := by
  have hstart : (ReadBus.start reqs prev).Tracks numFlows bins reqs := .idle rfl rfl rfl
  obtain ⟨rest, hrest, htracks⟩ := hstart.events_append id numFlows bins cycles
  have hwords := hstart.words_append id numFlows bins cycles
  refine ⟨⟨rest, hrest.symm⟩, hwords, ?_, ?_⟩
  · intro k before mid after lo hi hsplit hlo hhi hmid
    rw [hwords, hsplit]
    exact wide_whole hlo hhi hmid
  · intro more hwill hlen
    have hfew : rest.length ≤ reqs.length := by
      have hlengths := congrArg List.length hrest
      rw [List.length_append] at hlengths
      omega
    rw [ReadBus.events_append, List.map_append,
      htracks.events_of_willing id numFlows bins hwill (by omega), ← hrest]

/-! ## The histogram -/

section Histogram

variable {numFlows bins flow j : ℕ}

/-- A word keeps its place under the mask of the address. -/
theorem and_wordMask {x : ℕ} (hx : x < 2 ^ 14) : (4 * x) &&& 0xFFFC = 4 * x := by
  have hmask : 0xFFFC = (2 ^ 14 - 1) <<< 2 := by decide
  have hword : 4 * x = x <<< 2 := by rw [Nat.shiftLeft_eq]; omega
  rw [hword, hmask, ← Nat.shiftLeft_and_distrib, Nat.and_two_pow_sub_one_eq_mod,
    Nat.mod_eq_of_lt hx]

/-- The address of word `j` of a flow's slot. -/
def slotWord (flow j : ℕ) : BitVec 16 := BitVec.ofNat 16 (0xA000 + 4 * (32 * flow + j))

theorem histOff_slotWord (hflow : flow < 64) (hj : j < 32) :
    histOff (slotWord flow j) = 4 * (32 * flow + j) := by
  have hsub : (slotWord flow j - 0xA000).toNat = 4 * (32 * flow + j) := by
    rw [slotWord, BitVec.toNat_sub, BitVec.toNat_ofNat]
    simp only [BitVec.reduceToNat]
    omega
  rw [histOff, BitVec.toNat_and, hsub]
  exact and_wordMask (by omega)

theorem histFlow_slotWord (hflow : flow < 64) (hj : j < 32) :
    histFlow (slotWord flow j) = flow := by
  rw [histFlow, histOff_slotWord hflow hj]
  omega

theorem histBkt_slotWord (hflow : flow < 64) (hj : j < 32) :
    histBkt (slotWord flow j) = j / 2 := by
  rw [histBkt, histFlow_slotWord hflow hj, histOff_slotWord hflow hj]
  omega

theorem histValid_slotWord (hflow : flow < 64) (hj : j < 32) (hflow' : flow < numFlows)
    (hbins : j / 2 < bins) : histValid numFlows bins (slotWord flow j) = true := by
  rw [histValid, histFlow_slotWord hflow hj, histBkt_slotWord hflow hj, decide_eq_true hflow',
    decide_eq_true hbins]
  rfl

/-- Two words a bucket, the low one first. -/
theorem readPend_slotWord (hflow : flow < 64) (hj : j < 32) (hflow' : flow < numFlows)
    (hbins : j / 2 < bins) :
    readPend numFlows bins (slotWord flow j) = some (.hist (decide (j % 2 = 1)) true) := by
  have hnat : (slotWord flow j).toNat = 0xA000 + 4 * (32 * flow + j) := by
    rw [slotWord, BitVec.toNat_ofNat]
    omega
  have hhalf : (slotWord flow j).getLsbD 2 = decide (j % 2 = 1) := by
    rw [slotWord, BitVec.getLsbD_ofNat, Nat.testBit_eq_decide_div_mod_eq,
      decide_eq_true (by decide), Bool.true_and, decide_eq_decide]
    omega
  rw [readPend, hnat, if_pos (by omega), hhalf, histValid_slotWord hflow hj hflow' hbins]

/-- The words that `bar_flow_hist_read` loads. -/
def histRequests (c : MappedBar) (bar : ℕ → BitVec 32) (lfid : BitVec 32) (nBuckets : BitVec 64) :
    List (BitVec 16) :=
  (c.barFlowHistRead bar lfid true nBuckets).accesses.map fun a => BitVec.ofNat 16 a.off

theorem histRequests_eq (c : MappedBar) (bar : ℕ → BitVec 32) (lfid : BitVec 32)
    (nBuckets : BitVec 64) :
    histRequests c bar lfid nBuckets = [] ∨
      ∃ n ≤ 16, lfid.toNat < 64 ∧
        histRequests c bar lfid nBuckets = (List.range (2 * n)).map (slotWord lfid.toNat) := by
  rw [histRequests, MappedBar.barFlowHistRead, if_neg (by decide)]
  by_cases hslot : MappedBar.flowHistSlots ≤ lfid.toNat
  · rw [if_pos hslot]
    exact .inl rfl
  rw [if_neg hslot]
  have hflow : lfid.toNat < 64 := by
    simp only [MappedBar.flowHistSlots] at hslot
    omega
  have hcap : (if (128 / 8 : BitVec 64) < nBuckets then 128 / 8 else nBuckets).toNat ≤ 16 := by
    split
    · decide
    · rename_i hle
      exact BitVec.not_lt.mp hle
  dsimp only
  generalize (if (128 / 8 : BitVec 64) < nBuckets then 128 / 8 else nBuckets) = n at hcap ⊢
  split
  · refine .inr ⟨n.toNat, hcap, hflow, ?_⟩
    have hbase : ((40960#64 + BitVec.setWidth 64 lfid * 128).setWidth 32).toNat =
        0xA000 + 128 * lfid.toNat := by
      simp only [BitVec.toNat_setWidth, BitVec.toNat_add, BitVec.toNat_mul, BitVec.toNat_ofNat,
        BitVec.ofNat_eq_ofNat]
      omega
    rw [barCopyWordsOut, List.map_map]
    refine List.map_congr_left fun j _ => ?_
    have hoff : 0xA000 + 128 * lfid.toNat + 4 * j = 0xA000 + 4 * (32 * lfid.toNat + j) := by omega
    rw [Function.comp_apply, hbase, slotWord, hoff]
  · exact .inl rfl

end Histogram

/-- **Each bucket is read whole.**  Alone on the channel, what `bar_flow_hist_read` loads is for
each bucket of the flow the count that the bucket had when its low word was accepted, however
the counts move meanwhile and whatever stalls. -/
theorem hist_buckets_whole (id : CsrIdent) (numFlows bins : ℕ) (c : MappedBar)
    (bar : ℕ → BitVec 32) (lfid : BitVec 32) (nBuckets : BitVec 64) (prev : CsrSources)
    (cycles : List ReadCycle) (hflow : lfid.toNat < numFlows)
    (hall : ((ReadBus.start (histRequests c bar lfid nBuckets) prev).events id numFlows bins
      cycles).map ReadEvent.addr = histRequests c bar lfid nBuckets)
    (k : ℕ) (hk : 2 * k + 1 < (histRequests c bar lfid nBuckets).length) (hbins : k < bins) :
    let b := ReadBus.start (histRequests c bar lfid nBuckets) prev
    let words := b.words id numFlows bins cycles ++ (b.run id numFlows bins cycles).due
    ∃ e l h, (b.events id numFlows bins cycles)[2 * k]? = some e ∧
      words[2 * k]? = some l ∧ words[2 * k + 1]? = some h ∧
      h ++ l = e.src.hist (lfid.toNat * bins + k) := by
  intro b words
  obtain hnil | ⟨n, hn, hslot, hreqs⟩ := histRequests_eq c bar lfid nBuckets
  · rw [hnil] at hk
    cases hk
  have hstart : b.Tracks numFlows bins (histRequests c bar lfid nBuckets) := .idle rfl rfl rfl
  have hlist : (b.events id numFlows bins cycles).map ReadEvent.addr =
      (List.range (2 * n)).map (slotWord lfid.toNat) := hall.trans hreqs
  have hwords : words = answers id numFlows bins {} (b.events id numFlows bins cycles) :=
    hstart.words_append id numFlows bins cycles
  rw [hreqs, List.length_map, List.length_range] at hk
  rw [hwords]
  generalize b.events id numFlows bins cycles = es at hlist ⊢
  have hlen : es.length = 2 * n := by simpa using congrArg List.length hlist
  have haddr (j : ℕ) (hj : j < es.length) : es[j].addr = slotWord lfid.toNat j := by
    have hget := congrArg (fun l => l[j]?) hlist
    simpa [hj, hlen ▸ hj] using hget
  have hlow : WideReg.hist.IsLow numFlows bins es[2 * k].addr := by
    have hp : readPend numFlows bins (slotWord lfid.toNat (2 * k)) = _ :=
      readPend_slotWord hslot (by omega) hflow (by omega)
    rw [decide_eq_false (by omega)] at hp
    rw [haddr]
    exact hp
  have hhigh : WideReg.hist.IsHigh numFlows bins es[2 * k + 1].addr := by
    have hp : readPend numFlows bins (slotWord lfid.toNat (2 * k + 1)) = _ :=
      readPend_slotWord hslot (by omega) hflow (by omega)
    rw [decide_eq_true (by omega)] at hp
    rw [haddr]
    exact hp
  obtain ⟨l, h, hl, hh, hvalue⟩ := wide_adjacent (by omega) hlow hhigh
  refine ⟨es[2 * k], l, h, List.getElem?_eq_getElem _, hl, hh, ?_⟩
  rw [hvalue, WideReg.value, haddr, histRdAddr,
    histValid_slotWord hslot (by omega) hflow (by omega), if_pos rfl,
    histFlow_slotWord hslot (by omega), histBkt_slotWord hslot (by omega),
    Nat.mul_div_cancel_left k (by decide)]

/-- A card of 64 flows. -/
def sampleIdent : CsrIdent where
  deviceId := 0xA502BEEF
  version := 1
  buildId := 0
  gitHash := 0
  capabilities := 0
  numPorts := 2
  numFlows := 64
  numLogicalIfs := 0
  numClassifier := 12
  numHistBins := 16

/-- Counts that fill both words. -/
def sampleSources : CsrSources where
  timestamp := 0
  gpioSyncTs := 0
  gpioSyncSeq := 0
  gpioSyncGpioIn := 0
  sfpI2cIn := 0
  statusErr := false
  statusActivity := false
  sysmonTemp := 0
  sysmonVccint := 0
  sysmonVccaux := 0
  globalControl := 0
  gpioSyncCtrl := 0
  sfpI2cDriveLow := 0
  errorStatus := 0
  stats := fun _ => 0
  inj := fun _ => 0
  hist := fun n => BitVec.ofNat 64 (n * 0x100000001)
  puntRdData := 0
  spiRdata := 0

/-- Cycles in which nothing waits. -/
def sampleReadCycles : List ReadCycle :=
  List.replicate 12 { go := true, rready := true, parked := 0, src := sampleSources }

theorem hist_buckets_whole_sample :
    let b := ReadBus.start (histRequests sampleBar (fun _ => 0) 3 2) sampleSources
    let words := b.words sampleIdent 64 16 sampleReadCycles ++
      (b.run sampleIdent 64 16 sampleReadCycles).due
    ∃ e l h, (b.events sampleIdent 64 16 sampleReadCycles)[2]? = some e ∧ words[2]? = some l ∧
      words[3]? = some h ∧ h ++ l = e.src.hist 49 := by
  have hstart : (ReadBus.start (histRequests sampleBar (fun _ => 0) 3 2) sampleSources).Tracks
      64 16 (histRequests sampleBar (fun _ => 0) 3 2) := .idle rfl rfl rfl
  have hwill : ∀ c ∈ sampleReadCycles, c.Willing := by
    intro c hc
    rw [List.eq_of_mem_replicate hc]
    exact ⟨rfl, rfl⟩
  exact hist_buckets_whole sampleIdent 64 16 sampleBar (fun _ => 0) 3 2 sampleSources
    sampleReadCycles (by decide)
    (hstart.events_of_willing sampleIdent 64 16 hwill (by decide)) 1 (by decide) (by decide)

end PacketWyrm
