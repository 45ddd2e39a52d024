import PacketWyrm.Types
import PacketWyrm.Lib.I2c

/-!
# The module bus of a cage

The host reads and writes the memory of an SFP module over two open-drain lines, which it moves bit
by bit through one register: each cage has two drive-low bits in it, and its lines are read back.
The helpers that move the lines return no status; the first access that fails is kept in a flag.

## Main definitions

* `LineIo` — what the routines need of the lines.
* `i2cStart`, `i2cWriteByte`, `i2cReadByte`, … — the routines of the bus.
* `pwSfpRead`, `pwSfpWrite` — a part of the module's memory.
* `csrLines` — the lines behind the register.

## Main results

* `LineSim` and its lemmas — the routines do the same over lines that do.
* `sfp_fault_outranks` — a failed access is reported as such, and never as an empty cage.
-/

namespace PacketWyrm

open Lib

/-! ## The routines -/

/-- The two lines. -/
inductive I2cLine where
  | scl
  | sda
  deriving DecidableEq, Repr

/-- The lines as the routines use them: `set_line`, `get_line` and the flag `err`. -/
structure LineIo (β : Type) where
  setLine : I2cLine → Bool → β → β
  getLine : I2cLine → β → Bool × β
  err : β → Bool

section Routines

variable {β : Type} (io : LineIo β)

/-- The loop of `scl_release_wait`. -/
def waitHigh : ℕ → β → β
  | 0, b => b
  | n + 1, b =>
    let r := io.getLine .scl b
    if r.1 then r.2 else waitHigh n r.2

/-- `scl_release_wait`. -/
def sclReleaseWait (b : β) : β := waitHigh io 100 (io.setLine .scl true b)

/-- `i2c_start`. -/
def i2cStart (b : β) : β :=
  io.setLine .scl false (io.setLine .sda false (sclReleaseWait io (io.setLine .sda true b)))

/-- `i2c_stop`. -/
def i2cStop (b : β) : β :=
  io.setLine .sda true (sclReleaseWait io (io.setLine .sda false b))

/-- One round of the loop of `i2c_write_byte`. -/
def writeBit (b : β) (bit : Bool) : β :=
  io.setLine .scl false (sclReleaseWait io (io.setLine .sda bit b))

/-- `i2c_write_byte`; its result is set when the device did not acknowledge. -/
def i2cWriteByte (v : Byte) (b : β) : Bool × β :=
  let b := (List.range 8).foldl (fun b k => writeBit io b (v.getLsbD (7 - k))) b
  let b := sclReleaseWait io (io.setLine .sda true b)
  let r := io.getLine .sda b
  (r.1, io.setLine .scl false r.2)

/-- One round of the loop of `i2c_read_byte`. -/
def readBit (r : Byte × β) : Byte × β :=
  let b := sclReleaseWait io r.2
  let g := io.getLine .sda b
  (shiftIn r.1 g.1, io.setLine .scl false g.2)

/-- `i2c_read_byte`. -/
def i2cReadByte (ack : Bool) (b : β) : Byte × β :=
  let r := (List.range 8).foldl (fun r _ => readBit io r) (0, io.setLine .sda true b)
  let b := io.setLine .sda (!ack) r.2
  let b := io.setLine .scl false (sclReleaseWait io b)
  (r.1, io.setLine .sda true b)

/-- The loop that fills the buffer: all bytes but the last are acknowledged. -/
def readBytes : ℕ → β → List Byte × β
  | 0, b => ([], b)
  | n + 1, b =>
    let r := i2cReadByte io (decide (n ≠ 0)) b
    let rest := readBytes n r.2
    (r.1 :: rest.1, rest.2)

/-- The end of a transfer that was not acknowledged: a failed access outranks it. -/
def sfpNak {α : Type} (b : β) : Except PwStatus α × β :=
  let b := i2cStop io b
  (.error (if io.err b then .backend else .io), b)

/-- A byte is written; the transfer goes on when it was acknowledged. -/
def afterByte {α : Type} (v : Byte) (b : β) (k : β → Except PwStatus α × β) :
    Except PwStatus α × β :=
  let w := i2cWriteByte io v b
  if w.1 then sfpNak io w.2 else k w.2

/-- The end of `pw_sfp_read`. -/
def sfpReadData (len : ℕ) (b : β) : Except PwStatus (List Byte) × β :=
  let d := readBytes io len b
  let b := i2cStop io d.2
  (if io.err b then .error .backend else .ok d.1, b)

/-- `pw_sfp_read` behind its argument checks. -/
def sfpReadTransfer (addr offset : Byte) (len : ℕ) (b : β) : Except PwStatus (List Byte) × β :=
  let b := io.setLine .sda true (io.setLine .scl true b)
  afterByte io (addr <<< 1) (i2cStart io b) fun b =>
    afterByte io offset b fun b =>
      afterByte io ((addr <<< 1) ||| 1) (i2cStart io b) (sfpReadData io len)

/-- The loop that polls for the end of a write: whether the device answered. -/
def ackPoll (addr : Byte) : ℕ → β → Bool × β
  | 0, b => (false, b)
  | n + 1, b =>
    let r := i2cWriteByte io (addr <<< 1) (i2cStart io b)
    let b := i2cStop io r.2
    if io.err b then (false, b) else if !r.1 then (true, b) else ackPoll addr n b

/-- The wait for the end of a write. -/
def sfpAwaitWrite (addr : Byte) (b : β) : Except PwStatus Unit × β :=
  let p := ackPoll io addr 50 b
  if io.err p.2 then (.error .backend, p.2)
  else if !p.1 then (.error .io, p.2)
  else (.ok (), p.2)

/-- One byte of `pw_sfp_write`. -/
def sfpWriteByte (addr offset v : Byte) (b : β) : Except PwStatus Unit × β :=
  afterByte io (addr <<< 1) (i2cStart io b) fun b =>
    afterByte io offset b fun b =>
      afterByte io v b fun b => sfpAwaitWrite io addr (i2cStop io b)

/-- The loop of `pw_sfp_write`. -/
def sfpWriteBytes (addr : Byte) : Byte → List Byte → β → Except PwStatus Unit × β
  | _, [], b => (.ok (), b)
  | offset, v :: data, b =>
    match sfpWriteByte io addr offset v b with
    | (.ok _, b) => sfpWriteBytes addr (offset + 1) data b
    | r => r

/-- `pw_sfp_write` behind its argument checks. -/
def sfpWriteTransfer (addr offset : Byte) (data : List Byte) (b : β) : Except PwStatus Unit × β :=
  sfpWriteBytes io addr offset data (io.setLine .sda true (io.setLine .scl true b))

end Routines

/-! ## The register -/

/-- The accesses to `REG_SFP_I2C` of a backend: whether the access succeeded. -/
structure CsrOps (σ : Type) where
  write32 : BitVec 32 → σ → Bool × σ
  read32 : σ → (Bool × BitVec 32) × σ

/-- `struct i2c_bus`, with the backend. -/
structure I2cBus (σ : Type) where
  w : σ
  drive : Byte := 0
  err : Bool := false

/-- The bit of a line in the register. -/
def lineBit (port : ℕ) : I2cLine → ℕ
  | .scl => port * 2
  | .sda => port * 2 + 1

section Csr

variable {σ : Type} (ops : CsrOps σ)

/-- `i2c_apply`. -/
def i2cApply (b : I2cBus σ) : I2cBus σ :=
  let r := ops.write32 (b.drive.setWidth 32) b.w
  { b with w := r.2, err := b.err || !r.1 }

/-- The lines of a cage. -/
def csrLines (port : ℕ) : LineIo (I2cBus σ) where
  setLine l level b :=
    i2cApply ops { b with drive :=
      if level then b.drive &&& ~~~(1#8 <<< lineBit port l)
      else b.drive ||| 1#8 <<< lineBit port l }
  getLine l b :=
    let r := ops.read32 b.w
    (r.1.2.getLsbD (16 + lineBit port l), { b with w := r.2, err := b.err || !r.1.1 })
  err b := b.err

/-- `pw_sfp_read` of `len` bytes. -/
def pwSfpRead (port : ℤ) (addr offset : Byte) (len : ℕ) (w : σ) :
    Except PwStatus (List Byte) × σ :=
  if port < 0 ∨ 1 < port then (.error .inval, w)
  else if 256 < offset.toNat + len then (.error .inval, w)
  else
    let r := sfpReadTransfer (csrLines ops port.toNat) addr offset len { w }
    (r.1, r.2.w)

/-- `pw_sfp_write`. -/
def pwSfpWrite (port : ℤ) (addr offset : Byte) (data : List Byte) (w : σ) :
    Except PwStatus Unit × σ :=
  if port < 0 ∨ 1 < port then (.error .inval, w)
  else if 256 < offset.toNat + data.length then (.error .inval, w)
  else
    let r := sfpWriteTransfer (csrLines ops port.toNat) addr offset data { w }
    (r.1, r.2.w)

/-- `copy_ascii`: the field without the spaces and zeros behind it. -/
def copyAscii (src : List Byte) : List Byte :=
  (src.reverse.dropWhile fun c => c == 0x20 || c == 0).reverse

/-- `struct pw_sfp_info` without the live values. -/
structure PwSfpInfo where
  present : Bool := false
  identifier : Byte := 0
  connector : Byte := 0
  brNominal : Byte := 0
  vendor : List Byte := []
  part : List Byte := []
  revision : List Byte := []
  serial : List Byte := []
  dateCode : List Byte := []
  domSupported : Bool := false
  domExternalCal : Bool := false
  domValid : Bool := false
  deriving DecidableEq, Repr

/-- The fields of the base page. -/
def sfpInfo (a0 : List Byte) : PwSfpInfo where
  present := true
  identifier := a0.getD 0 0
  connector := a0.getD 2 0
  brNominal := a0.getD 12 0
  vendor := copyAscii ((a0.drop 20).take 16)
  part := copyAscii ((a0.drop 40).take 16)
  revision := copyAscii ((a0.drop 56).take 4)
  serial := copyAscii ((a0.drop 68).take 16)
  dateCode := copyAscii ((a0.drop 84).take 8)
  domSupported := (a0.getD 92 0).getLsbD 6
  domExternalCal := (a0.getD 92 0).getLsbD 4

/-- `pw_sfp_probe`: no answer is an empty cage.  The live values are there when their page was
read. -/
def pwSfpProbe (port : ℤ) (w : σ) : Except PwStatus PwSfpInfo × σ :=
  match pwSfpRead ops port 0x50 0 96 w with
  | (.error e, w) => (if e = .io then .ok {} else .error e, w)
  | (.ok a0, w) =>
    let info := sfpInfo a0
    if info.domSupported && !info.domExternalCal then
      let r := pwSfpRead ops port 0x51 96 10 w
      (.ok { info with domValid := r.1.isOk }, r.2)
    else (.ok info, w)

end Csr

/-! ## Lines that do the same -/

section Simulation

variable {β γ : Type}

/-- Two pairs of lines do the same in related states. -/
structure LineSim (io : LineIo β) (io' : LineIo γ) (R : β → γ → Prop) : Prop where
  set : ∀ {b c}, R b c → ∀ l v, R (io.setLine l v b) (io'.setLine l v c)
  get : ∀ {b c}, R b c → ∀ l, (io.getLine l b).1 = (io'.getLine l c).1 ∧
    R (io.getLine l b).2 (io'.getLine l c).2
  err : ∀ {b c}, R b c → io.err b = io'.err c

/-- Results that are the same, in related states. -/
def SameIn {α : Type} (R : β → γ → Prop) (r : α × β) (r' : α × γ) : Prop :=
  r.1 = r'.1 ∧ R r.2 r'.2

namespace LineSim

variable {io : LineIo β} {io' : LineIo γ} {R : β → γ → Prop} {b : β} {c : γ}

theorem waitHigh (h : LineSim io io' R) (n : ℕ) (hR : R b c) :
    R (waitHigh io n b) (PacketWyrm.waitHigh io' n c) := by
  induction n generalizing b c with
  | zero => exact hR
  | succ n ih =>
    obtain ⟨hval, hstate⟩ := h.get hR .scl
    rw [PacketWyrm.waitHigh, PacketWyrm.waitHigh, hval]
    by_cases hhigh : (io'.getLine .scl c).1 = true
    · rw [if_pos hhigh, if_pos hhigh]
      exact hstate
    · rw [if_neg hhigh, if_neg hhigh]
      exact ih hstate

theorem sclReleaseWait (h : LineSim io io' R) (hR : R b c) :
    R (sclReleaseWait io b) (PacketWyrm.sclReleaseWait io' c) :=
  h.waitHigh 100 (h.set hR .scl true)

theorem i2cStart (h : LineSim io io' R) (hR : R b c) :
    R (i2cStart io b) (PacketWyrm.i2cStart io' c) :=
  h.set (h.set (h.sclReleaseWait (h.set hR .sda true)) .sda false) .scl false

theorem i2cStop (h : LineSim io io' R) (hR : R b c) :
    R (i2cStop io b) (PacketWyrm.i2cStop io' c) :=
  h.set (h.sclReleaseWait (h.set hR .sda false)) .sda true

theorem writeBits (h : LineSim io io' R) (v : Byte) (l : List ℕ) (hR : R b c) :
    R (l.foldl (fun b k => writeBit io b (v.getLsbD (7 - k))) b)
      (l.foldl (fun c k => writeBit io' c (v.getLsbD (7 - k))) c) := by
  induction l generalizing b c with
  | nil => exact hR
  | cons k l ih => exact ih (h.set (h.sclReleaseWait (h.set hR .sda _)) .scl false)

theorem i2cWriteByte (h : LineSim io io' R) (v : Byte) (hR : R b c) :
    SameIn R (i2cWriteByte io v b) (PacketWyrm.i2cWriteByte io' v c) := by
  obtain ⟨hval, hstate⟩ :=
    h.get (h.sclReleaseWait (h.set (h.writeBits v (List.range 8) hR) .sda true)) .sda
  exact ⟨hval, h.set hstate .scl false⟩

theorem readBits (h : LineSim io io' R) (v : Byte) (l : List ℕ) (hR : R b c) :
    SameIn R (l.foldl (fun r _ => readBit io r) (v, b))
      (l.foldl (fun r _ => readBit io' r) (v, c)) := by
  induction l generalizing v b c with
  | nil => exact ⟨rfl, hR⟩
  | cons k l ih =>
    obtain ⟨hval, hstate⟩ := h.get (h.sclReleaseWait hR) .sda
    rw [List.foldl_cons, List.foldl_cons, readBit, readBit]
    dsimp only
    rw [hval]
    exact ih _ (h.set hstate .scl false)

theorem i2cReadByte (h : LineSim io io' R) (ack : Bool) (hR : R b c) :
    SameIn R (i2cReadByte io ack b) (PacketWyrm.i2cReadByte io' ack c) := by
  obtain ⟨hval, hstate⟩ := h.readBits 0 (List.range 8) (h.set hR .sda true)
  exact ⟨hval, h.set (h.set (h.sclReleaseWait (h.set hstate .sda _)) .scl false) .sda true⟩

theorem readBytes (h : LineSim io io' R) (n : ℕ) (hR : R b c) :
    SameIn R (readBytes io n b) (PacketWyrm.readBytes io' n c) := by
  induction n generalizing b c with
  | zero => exact ⟨rfl, hR⟩
  | succ n ih =>
    obtain ⟨hval, hstate⟩ := h.i2cReadByte (decide (n ≠ 0)) hR
    obtain ⟨hvals, hstates⟩ := ih hstate
    exact ⟨congr_arg₂ List.cons hval hvals, hstates⟩

theorem sfpNak {α : Type} (h : LineSim io io' R) (hR : R b c) :
    SameIn R (sfpNak io b : Except PwStatus α × β) (PacketWyrm.sfpNak io' c) := by
  have hstop := h.i2cStop hR
  refine ⟨?_, hstop⟩
  rw [PacketWyrm.sfpNak, PacketWyrm.sfpNak]
  dsimp only
  rw [h.err hstop]

theorem afterByte {α : Type} (h : LineSim io io' R) (v : Byte) (hR : R b c)
    {k : β → Except PwStatus α × β} {k' : γ → Except PwStatus α × γ}
    (hk : ∀ {b c}, R b c → SameIn R (k b) (k' c)) :
    SameIn R (afterByte io v b k) (PacketWyrm.afterByte io' v c k') := by
  obtain ⟨hval, hstate⟩ := h.i2cWriteByte v hR
  rw [PacketWyrm.afterByte, PacketWyrm.afterByte]
  rw [hval]
  split
  · exact h.sfpNak hstate
  · exact hk hstate

theorem sfpReadData (h : LineSim io io' R) (len : ℕ) (hR : R b c) :
    SameIn R (sfpReadData io len b) (PacketWyrm.sfpReadData io' len c) := by
  obtain ⟨hval, hstate⟩ := h.readBytes len hR
  have hstop := h.i2cStop hstate
  refine ⟨?_, hstop⟩
  rw [PacketWyrm.sfpReadData, PacketWyrm.sfpReadData]
  dsimp only
  rw [hval, h.err hstop]

theorem sfpReadTransfer (h : LineSim io io' R) (addr offset : Byte) (len : ℕ) (hR : R b c) :
    SameIn R (sfpReadTransfer io addr offset len b)
      (PacketWyrm.sfpReadTransfer io' addr offset len c) := by
  have hidle := h.set (h.set hR .scl true) .sda true
  refine h.afterByte _ (h.i2cStart hidle) fun hw => ?_
  refine h.afterByte _ hw fun ho => ?_
  exact h.afterByte _ (h.i2cStart ho) fun hr => h.sfpReadData len hr

theorem ackPoll (h : LineSim io io' R) (addr : Byte) (n : ℕ) (hR : R b c) :
    SameIn R (ackPoll io addr n b) (PacketWyrm.ackPoll io' addr n c) := by
  induction n generalizing b c with
  | zero => exact ⟨rfl, hR⟩
  | succ n ih =>
    obtain ⟨hval, hstate⟩ := h.i2cWriteByte (addr <<< 1) (h.i2cStart hR)
    have hstop := h.i2cStop hstate
    rw [PacketWyrm.ackPoll, PacketWyrm.ackPoll]
    rw [h.err hstop, hval]
    split
    · exact ⟨rfl, hstop⟩
    · split
      · exact ⟨rfl, hstop⟩
      · exact ih hstop

theorem sfpAwaitWrite (h : LineSim io io' R) (addr : Byte) (hR : R b c) :
    SameIn R (sfpAwaitWrite io addr b) (PacketWyrm.sfpAwaitWrite io' addr c) := by
  obtain ⟨hval, hstate⟩ := h.ackPoll addr 50 hR
  rw [PacketWyrm.sfpAwaitWrite, PacketWyrm.sfpAwaitWrite]
  rw [h.err hstate, hval]
  split
  · exact ⟨rfl, hstate⟩
  · split
    · exact ⟨rfl, hstate⟩
    · exact ⟨rfl, hstate⟩

theorem sfpWriteByte (h : LineSim io io' R) (addr offset v : Byte) (hR : R b c) :
    SameIn R (sfpWriteByte io addr offset v b) (PacketWyrm.sfpWriteByte io' addr offset v c) := by
  refine h.afterByte _ (h.i2cStart hR) fun hw => ?_
  refine h.afterByte _ hw fun ho => ?_
  exact h.afterByte _ ho fun hd => h.sfpAwaitWrite addr (h.i2cStop hd)

theorem sfpWriteBytes (h : LineSim io io' R) (addr offset : Byte) (data : List Byte)
    (hR : R b c) :
    SameIn R (sfpWriteBytes io addr offset data b)
      (PacketWyrm.sfpWriteBytes io' addr offset data c) := by
  induction data generalizing offset b c with
  | nil => exact ⟨rfl, hR⟩
  | cons v data ih =>
    obtain ⟨hval, hstate⟩ := h.sfpWriteByte addr offset v hR
    rw [PacketWyrm.sfpWriteBytes, PacketWyrm.sfpWriteBytes]
    rcases hr : PacketWyrm.sfpWriteByte io addr offset v b with ⟨res, b'⟩
    rcases hr' : PacketWyrm.sfpWriteByte io' addr offset v c with ⟨res', c'⟩
    rw [hr, hr'] at hval hstate
    cases hval
    cases res with
    | ok u => exact ih (offset + 1) hstate
    | error e => exact ⟨rfl, hstate⟩

theorem sfpWriteTransfer (h : LineSim io io' R) (addr offset : Byte) (data : List Byte)
    (hR : R b c) :
    SameIn R (sfpWriteTransfer io addr offset data b)
      (PacketWyrm.sfpWriteTransfer io' addr offset data c) :=
  h.sfpWriteBytes addr offset data (h.set (h.set hR .scl true) .sda true)

end LineSim

end Simulation

/-! ## Failed accesses -/

/-- The result says a failed access when the flag is set, and only then. -/
def SaysFault {α β : Type} (io : LineIo β) (r : Except PwStatus α × β) : Prop :=
  r.1 = .error .backend ↔ io.err r.2 = true

section Faults

variable {β : Type} {io : LineIo β}

theorem saysFault_sfpNak {α : Type} (b : β) :
    SaysFault io (sfpNak io b : Except PwStatus α × β) := by
  rw [SaysFault, sfpNak]
  cases io.err (i2cStop io b) <;> simp

theorem SaysFault.afterByte {α : Type} {v : Byte} {b : β} {k : β → Except PwStatus α × β}
    (hk : ∀ b, SaysFault io (k b)) : SaysFault io (afterByte io v b k) := by
  rw [PacketWyrm.afterByte]
  split
  · exact saysFault_sfpNak _
  · exact hk _

theorem saysFault_sfpReadTransfer (addr offset : Byte) (len : ℕ) (b : β) :
    SaysFault io (sfpReadTransfer io addr offset len b) := by
  refine .afterByte fun b => .afterByte fun b => .afterByte fun b => ?_
  rw [SaysFault, sfpReadData]
  cases io.err (i2cStop io (readBytes io len b).2) <;> simp

theorem saysFault_sfpWriteByte (addr offset v : Byte) (b : β) :
    SaysFault io (sfpWriteByte io addr offset v b) := by
  refine .afterByte fun b => .afterByte fun b => .afterByte fun b => ?_
  rw [SaysFault, sfpAwaitWrite]
  generalize ackPoll io addr 50 (i2cStop io b) = p
  by_cases herr : io.err p.2 = true
  · simp [herr]
  · cases p.1 <;> simp [herr]

/-- Without bytes to write no access is reported, so the flag must not have been set before. -/
theorem saysFault_sfpWriteBytes (addr offset : Byte) (data : List Byte) (b : β)
    (h : data ≠ [] ∨ io.err b = false) : SaysFault io (sfpWriteBytes io addr offset data b) := by
  induction data generalizing offset b with
  | nil =>
    have herr : io.err b = false := h.resolve_left fun hne => hne rfl
    simp [SaysFault, sfpWriteBytes, herr]
  | cons v data ih =>
    have hone : SaysFault io (sfpWriteByte io addr offset v b) :=
      saysFault_sfpWriteByte addr offset v b
    rw [sfpWriteBytes]
    rcases hr : sfpWriteByte io addr offset v b with ⟨res, b'⟩
    rw [hr] at hone
    cases res with
    | ok u =>
      apply ih
      right
      rw [← Bool.not_eq_true]
      exact fun herr => by cases hone.mpr herr
    | error e => exact hone

variable {σ : Type} (ops : CsrOps σ)

/-- The backend with a note of whether an access has failed. -/
def noteFaults : CsrOps (σ × Bool) where
  write32 v s :=
    let r := ops.write32 v s.1
    (r.1, (r.2, s.2 || !r.1))
  read32 s :=
    let r := ops.read32 s.1
    (r.1, (r.2, s.2 || !r.1.1))

/-- The flag of the bus is that note. -/
theorem lineSim_noteFaults (port : ℕ) :
    LineSim (csrLines (noteFaults ops) port) (csrLines (noteFaults ops) port)
      fun b c => b = c ∧ b.err = b.w.2 where
  set := by
    rintro b c ⟨rfl, hb⟩ l v
    exact ⟨rfl, by simp [csrLines, i2cApply, noteFaults, hb]⟩
  get := by
    rintro b c ⟨rfl, hb⟩ l
    exact ⟨rfl, rfl, by simp [csrLines, noteFaults, hb]⟩
  err := by
    rintro b c ⟨rfl, -⟩
    rfl

theorem pwSfpRead_backend_iff (port : ℤ) (addr offset : Byte) (len : ℕ) (w : σ) :
    (pwSfpRead (noteFaults ops) port addr offset len (w, false)).1 = .error .backend ↔
      (pwSfpRead (noteFaults ops) port addr offset len (w, false)).2.2 = true := by
  rw [pwSfpRead]
  split
  · simp
  · split
    · simp
    · have hnote := ((lineSim_noteFaults ops port.toNat).sfpReadTransfer addr offset len
        (b := { w := (w, false) }) ⟨rfl, rfl⟩).2.2
      dsimp only
      rw [← hnote]
      exact saysFault_sfpReadTransfer addr offset len _

theorem pwSfpWrite_backend_iff (port : ℤ) (addr offset : Byte) {data : List Byte} (hd : data ≠ [])
    (w : σ) :
    (pwSfpWrite (noteFaults ops) port addr offset data (w, false)).1 = .error .backend ↔
      (pwSfpWrite (noteFaults ops) port addr offset data (w, false)).2.2 = true := by
  rw [pwSfpWrite]
  split
  · simp
  · split
    · simp
    · have hnote := ((lineSim_noteFaults ops port.toNat).sfpWriteTransfer addr offset data
        (b := { w := (w, false) }) ⟨rfl, rfl⟩).2.2
      dsimp only
      rw [← hnote]
      exact saysFault_sfpWriteBytes addr offset data _ (.inl hd)

/-- **A failed access is reported as such.**  Whatever the register answers, and whichever accesses
to it fail: `pw_sfp_read`, and `pw_sfp_write` of at least one byte, return `PW_E_BACKEND` exactly
when an access has failed, and `pw_sfp_probe` calls a cage empty only when none has. -/
theorem sfp_fault_outranks (port : ℤ) (addr offset : Byte) (len : ℕ) (v : Byte) (data : List Byte)
    (w : σ) :
    ((pwSfpRead (noteFaults ops) port addr offset len (w, false)).1 = .error .backend ↔
      (pwSfpRead (noteFaults ops) port addr offset len (w, false)).2.2 = true) ∧
    ((pwSfpWrite (noteFaults ops) port addr offset (v :: data) (w, false)).1 = .error .backend ↔
      (pwSfpWrite (noteFaults ops) port addr offset (v :: data) (w, false)).2.2 = true) ∧
    (∀ info, (pwSfpProbe (noteFaults ops) port (w, false)).1 = .ok info → info.present = false →
      (pwSfpProbe (noteFaults ops) port (w, false)).2.2 = false) := by
  refine ⟨pwSfpRead_backend_iff ops port addr offset len w,
    pwSfpWrite_backend_iff ops port addr offset (List.cons_ne_nil v data) w, ?_⟩
  have hread := pwSfpRead_backend_iff ops port 0x50 0 96 w
  intro info hok hempty
  rw [pwSfpProbe] at hok ⊢
  rcases hr : pwSfpRead (noteFaults ops) port 0x50 0 96 (w, false) with ⟨res, w'⟩
  rw [hr] at hread hok
  cases res with
  | error e =>
    dsimp only at hread hok ⊢
    split at hok
    · rename_i he
      rw [← Bool.not_eq_true, ← hread, he]
      simp
    · cases hok
  | ok a0 =>
    dsimp only at hok
    split at hok
    · cases hok
      cases hempty
    · cases hok
      cases hempty

end Faults

end PacketWyrm
