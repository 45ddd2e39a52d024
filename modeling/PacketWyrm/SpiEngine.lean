import PacketWyrm.Types
import PacketWyrm.Lib.NorFlash
import PacketWyrm.Lib.Outcome

/-!
# The SPI byte engine

`pw_spi_flash` shifts the bytes of a buffer out to the configuration flash of a card and keeps
the bytes that come back.  `spi_txn` drives it through registers: it fills the buffer word by
word, starts the transfer, polls until it is over and reads the answer.  Every caller lets go of
the chip select at the end, so a transfer is one transaction with the flash.

## Main definitions

* `SpiEnv` — what the driver does not control: failing accesses, and how long things take.
* `SpiCard` — the engine and the flash behind it.
* `spiTxn` — one transaction.

## Main results

* `spiTxn_post` — the flash is sent the bytes, and the bytes it answers come back.
-/

namespace PacketWyrm

open Lib

/-- The flash, as far as three address bytes reach: `PAGE`, `SECTOR` and `FLASH_SZ`. -/
def flashGeometry : NorGeometry :=
  { page := 256, sector := 0x10000, size := 0x1000000, page_pos := by decide
    sector_pos := by decide }

/-! ## The engine -/

/-- The status of the `k`-th access to a register when it fails; how many polls find a transfer
going on that the `k`-th access has begun; how many find the `k`-th write to the flash going on;
and whether there is memory to keep the bytes of the sector at an address. -/
structure SpiEnv where
  status : ℕ → Option PwStatus
  shifting : ℕ → ℕ
  writing : ℕ → ℕ
  scratch : ℕ → Bool

/-- The buffers, the length register, the polls that will still find the engine busy, the number
of accesses so far, and the flash. -/
structure SpiCard where
  txMem : ℕ → BitVec 32
  rxMem : ℕ → BitVec 32
  len : BitVec 10
  busy : ℕ
  accesses : ℕ
  nor : NorDevice

/-- `PWFPGA_REG_SPI_CTRL`. -/
def pwfpgaRegSpiCtrl : ℕ := 0x800

/-- `PWFPGA_REG_SPI_LEN`. -/
def pwfpgaRegSpiLen : ℕ := 0x804

/-- `PWFPGA_SPI_TXBUF`. -/
def pwfpgaSpiTxbuf : ℕ := 0x900

/-- `PWFPGA_SPI_RXBUF`. -/
def pwfpgaSpiRxbuf : ℕ := 0xB00

/-- `PWFPGA_SPI_BUF_BYTES`. -/
def pwfpgaSpiBufBytes : ℕ := 512

/-- Byte `i` of a buffer of words, the first one least significant. -/
def bufByte (m : ℕ → BitVec 32) (i : ℕ) : Byte := (m (i / 4)).extractLsb' (8 * (i % 4)) 8

/-- The word of four bytes from `i` on; bytes behind the end are zero. -/
def wordAt (l : List Byte) (i : ℕ) : BitVec 32 :=
  l.getD (i + 3) 0 ++ l.getD (i + 2) 0 ++ l.getD (i + 1) 0 ++ l.getD i 0

namespace SpiCard

variable (env : SpiEnv) (s : SpiCard)

/-- A transfer of as many bytes as the length register says. -/
def transfer : SpiCard :=
  let (rx, nor) := s.nor.exec flashGeometry env.writing
    ((List.range s.len.toNat).map (bufByte s.txMem))
  { s with
    -- what the last word has behind the last byte is never read
    rxMem := fun w => if 4 * w < rx.length then wordAt rx (4 * w) else s.rxMem w
    busy := env.shifting s.accesses, nor }

/-- A write to a register. -/
def write (off : ℕ) (val : BitVec 32) : SpiCard :=
  if off = pwfpgaRegSpiCtrl then
    if val.getLsbD 0 = true ∧ s.busy = 0 ∧ s.len ≠ 0 then s.transfer env else s
  else if off = pwfpgaRegSpiLen then { s with len := val.setWidth 10 }
  else if pwfpgaSpiTxbuf ≤ off ∧ off < pwfpgaSpiTxbuf + pwfpgaSpiBufBytes then
    { s with txMem := Function.update s.txMem ((off - pwfpgaSpiTxbuf) / 4) val }
  else s

/-- A read of a register. -/
def read (off : ℕ) : BitVec 32 × SpiCard :=
  if off = pwfpgaRegSpiCtrl then (if s.busy = 0 then 0 else 1, { s with busy := s.busy - 1 })
  else if off = pwfpgaRegSpiLen then (s.len.setWidth 32, s)
  else if pwfpgaSpiRxbuf ≤ off ∧ off < pwfpgaSpiRxbuf + pwfpgaSpiBufBytes then
    (s.rxMem ((off - pwfpgaSpiRxbuf) / 4), s)
  else (0, s)

end SpiCard

/-! ## The driver -/

/-- A driver routine. -/
abbrev Spi := Act SpiCard PwStatus

section Driver

variable (env : SpiEnv)

/-- An access to a register fails, or is counted. -/
def access : Spi Unit := fun s =>
  match env.status s.accesses with
  | some e => .error e
  | none => .ok ((), { s with accesses := s.accesses + 1 })

/-- `write32`. -/
def spiWrite32 (off : ℕ) (val : BitVec 32) : Spi Unit := do
  access env
  fun s => .ok ((), s.write env off val)

/-- `read32`. -/
def spiRead32 (off : ℕ) : Spi (BitVec 32) := do
  access env
  fun s => .ok (s.read off)

/-- The words of `tx` from byte `i` on, into the buffer. -/
def writeWords (tx : List Byte) (i : ℕ) : Spi Unit :=
  if i < tx.length then do
    spiWrite32 env (pwfpgaSpiTxbuf + i) (wordAt tx i)
    writeWords tx (i + 4)
  else pure ()
termination_by tx.length - i

/-- The bytes of the buffer from `i` up to `n`. -/
def readWords (n i : ℕ) : Spi (List Byte) :=
  if i < n then do
    let d ← spiRead32 env (pwfpgaSpiRxbuf + i)
    let rest ← readWords n (i + 4)
    pure ((List.range (min 4 (n - i))).map (fun k => d.extractLsb' (8 * k) 8) ++ rest)
  else pure []
termination_by n - i

/-- Poll until the engine is no longer busy, `spin` times at most. -/
def pollIdle : ℕ → Spi Unit
  | 0 => throw .io
  | spin + 1 => do
    let st ← spiRead32 env pwfpgaRegSpiCtrl
    if st.getLsbD 0 = false then pure () else pollIdle spin

/-- `spi_txn`: shift the bytes out, and read what came back when `rx` is asked for. -/
def spiTxn (tx : List Byte) (rx : Bool) : Spi (List Byte) :=
  if pwfpgaSpiBufBytes < tx.length then throw .inval
  else do
    writeWords env tx 0
    spiWrite32 env pwfpgaRegSpiLen (BitVec.ofNat 32 tx.length)
    spiWrite32 env pwfpgaRegSpiCtrl 1
    pollIdle env 2000000
    if rx then readWords env tx.length 0 else pure []

end Driver

/-! ## Bytes and words -/

theorem extractLsb'_wordAt (l : List Byte) (i : ℕ) {k : ℕ} (hk : k < 4) :
    (wordAt l i).extractLsb' (8 * k) 8 = l.getD (i + k) 0 := by
  obtain rfl | rfl | rfl | rfl : k = 0 ∨ k = 1 ∨ k = 2 ∨ k = 3 := by omega
  · exact BitVec.extractLsb'_append_eq_right
  · rw [wordAt, BitVec.extractLsb'_append_eq_of_le (by decide)]
    exact BitVec.extractLsb'_append_eq_right
  · rw [wordAt, BitVec.extractLsb'_append_eq_of_le (by decide),
      BitVec.extractLsb'_append_eq_of_le (by decide)]
    exact BitVec.extractLsb'_append_eq_right
  · rw [wordAt, BitVec.extractLsb'_append_eq_of_le (by decide),
      BitVec.extractLsb'_append_eq_of_le (by decide),
      BitVec.extractLsb'_append_eq_of_le (by decide)]
    exact BitVec.extractLsb'_eq_self

theorem bufByte_update (m : ℕ → BitVec 32) (w : ℕ) (d : BitVec 32) (i : ℕ) :
    bufByte (Function.update m w d) i =
      if i / 4 = w then d.extractLsb' (8 * (i % 4)) 8 else bufByte m i := by
  rw [bufByte, bufByte]
  split
  · rename_i h
    rw [h, Function.update_self]
  · rename_i h
    rw [Function.update_of_ne h]

/-! ## What the driver does -/

/-- The environment lets every routine end: no access fails, and nothing takes longer than the
driver waits. -/
structure SpiEnv.Fair (env : SpiEnv) : Prop where
  status : ∀ k, env.status k = none
  shifting : ∀ k, env.shifting k < 2000000
  writing : ∀ k, env.writing k < 4000000
  scratch : ∀ a, env.scratch a = true

section Driver

variable {env : SpiEnv} {E : Prop} (hE : ¬env.Fair → E)

include hE

/-- An access fails only in an environment that is not fair. -/
theorem access_post (s : SpiCard) :
    Post E (fun _ s' => s' = { s with accesses := s.accesses + 1 }) (access env s) := by
  rw [access]
  cases h : env.status s.accesses with
  | none => exact rfl
  | some e =>
    refine hE fun hfair => ?_
    rw [hfair.status] at h
    cases h

theorem spiWrite32_post (off : ℕ) (val : BitVec 32) (s : SpiCard) :
    Post E (fun _ s' => s' = { s with accesses := s.accesses + 1 }.write env off val)
      (spiWrite32 env off val s) := by
  refine (access_post hE s).bind ?_
  rintro _ s' rfl
  exact rfl

theorem spiRead32_post (off : ℕ) (s : SpiCard) :
    Post E (fun d s' => (d, s') = { s with accesses := s.accesses + 1 }.read off)
      (spiRead32 env off s) := by
  refine (access_post hE s).bind ?_
  rintro _ s' rfl
  exact rfl

/-- The bytes of `tx` come to stand in the buffer, and nothing else changes but it. -/
theorem writeWords_post (tx : List Byte) (hlen : tx.length ≤ pwfpgaSpiBufBytes) (i : ℕ)
    (hi : i % 4 = 0) (s : SpiCard)
    (hbuf : ∀ j < i, j < tx.length → bufByte s.txMem j = tx.getD j 0) :
    Post E (fun _ s' => s'.busy = s.busy ∧ s'.nor = s.nor ∧
      ∀ j < tx.length, bufByte s'.txMem j = tx.getD j 0) (writeWords env tx i s) := by
  induction i using writeWords.induct tx generalizing s with
  | case1 i hlt ih =>
    rw [writeWords, if_pos hlt]
    refine (spiWrite32_post hE _ _ s).bind ?_
    rintro _ s' rfl
    have hwrite : ({ s with accesses := s.accesses + 1 } : SpiCard).write env (pwfpgaSpiTxbuf + i)
        (wordAt tx i) = { s with
          accesses := s.accesses + 1, txMem := Function.update s.txMem (i / 4) (wordAt tx i) } := by
      rw [pwfpgaSpiBufBytes] at hlen
      rw [SpiCard.write, pwfpgaSpiTxbuf, pwfpgaRegSpiCtrl, pwfpgaRegSpiLen, pwfpgaSpiBufBytes,
        if_neg (by omega), if_neg (by omega), if_pos (by omega), Nat.add_sub_cancel_left]
    rw [hwrite]
    refine (ih (by omega) _ ?_).mono fun _ s' h => h
    intro j hj hjlen
    rw [bufByte_update]
    split
    · rename_i hw
      rw [extractLsb'_wordAt _ _ (Nat.mod_lt _ (by decide))]
      congr 1
      omega
    · exact hbuf j (by omega) hjlen
  | case2 i hge =>
    rw [writeWords, if_neg hge]
    exact post_pure ⟨rfl, rfl, fun j hj => hbuf j (by omega) hj⟩

/-- The engine is idle in the end, and otherwise as it was. -/
theorem pollIdle_post (spin : ℕ) (s : SpiCard) (hspin : env.Fair → s.busy < spin) :
    Post E (fun _ s' => s'.busy = 0 ∧ s'.nor = s.nor ∧ s'.rxMem = s.rxMem)
      (pollIdle env spin s) := by
  induction spin generalizing s with
  | zero =>
    refine post_throw (hE fun hfair => ?_)
    exact absurd (hspin hfair) (Nat.not_lt_zero _)
  | succ spin ih =>
    refine (spiRead32_post hE _ s).bind ?_
    intro st s' hread
    rw [SpiCard.read, if_pos rfl, Prod.mk.injEq] at hread
    obtain ⟨rfl, rfl⟩ := hread
    by_cases hbusy : s.busy = 0
    · simp only [hbusy, if_true]
      exact post_pure ⟨rfl, rfl, rfl⟩
    · simp only [hbusy, if_false]
      refine (ih _ fun hfair => ?_).mono fun _ s' h => h
      have := hspin hfair
      dsimp only
      omega

/-- The bytes of the buffer come back. -/
theorem readWords_post {n : ℕ} (hn : n ≤ pwfpgaSpiBufBytes) (i : ℕ) (hi : i % 4 = 0) (s : SpiCard) :
    Post E (fun l s' => s'.busy = s.busy ∧ s'.nor = s.nor ∧
      l = (List.range (n - i)).map fun k => bufByte s.rxMem (i + k)) (readWords env n i s) := by
  induction i using readWords.induct n generalizing s with
  | case1 i hlt ih =>
    rw [readWords, if_pos hlt]
    refine (spiRead32_post hE _ s).bind ?_
    intro d s' hread
    rw [pwfpgaSpiBufBytes] at hn
    rw [SpiCard.read, pwfpgaSpiRxbuf, pwfpgaRegSpiCtrl, pwfpgaRegSpiLen, pwfpgaSpiBufBytes,
      if_neg (by omega), if_neg (by omega), if_pos (by omega), Nat.add_sub_cancel_left,
      Prod.mk.injEq] at hread
    obtain ⟨rfl, rfl⟩ := hread
    refine (ih (by omega) _).bind ?_
    rintro rest s' ⟨hbusy, hnor, rfl⟩
    refine post_pure ⟨hbusy, hnor, ?_⟩
    have hword : (List.range (min 4 (n - i))).map
          (fun k => (s.rxMem (i / 4)).extractLsb' (8 * k) 8) =
        (List.range (min 4 (n - i))).map fun k => bufByte s.rxMem (i + k) := by
      apply List.map_congr_left
      intro k hk
      rw [List.mem_range] at hk
      rw [bufByte, show (i + k) / 4 = i / 4 by omega, show (i + k) % 4 = k by omega]
    have hrest : (List.range (n - (i + 4))).map (fun k => bufByte s.rxMem (i + 4 + k)) =
        ((List.range (n - i - min 4 (n - i))).map (min 4 (n - i) + ·)).map
          fun k => bufByte s.rxMem (i + k) := by
      by_cases h4 : 4 ≤ n - i
      · rw [Nat.min_eq_left h4, List.map_map, show n - (i + 4) = n - i - 4 by omega]
        apply List.map_congr_left
        intro k _
        exact congrArg (bufByte s.rxMem) (Nat.add_assoc i 4 k)
      · rw [show n - (i + 4) = 0 by omega, show n - i - min 4 (n - i) = 0 by omega]
        rfl
    rw [hword, hrest, ← List.map_append, ← List.range_add]
    congr 2
    omega
  | case2 i hge =>
    rw [readWords, if_neg hge]
    refine post_pure ⟨rfl, rfl, ?_⟩
    rw [show n - i = 0 by omega]
    rfl

omit hE in
/-- The buffer holds the bytes to be sent. -/
theorem map_bufByte {m : ℕ → BitVec 32} {tx : List Byte}
    (h : ∀ j < tx.length, bufByte m j = tx.getD j 0) :
    (List.range tx.length).map (bufByte m) = tx := by
  apply List.ext_getElem
  · simp
  · intro j hj hj'
    rw [List.getElem_map, List.getElem_range, h j hj', List.getD_eq_getElem _ _ hj']

omit hE in
/-- The buffer holds the bytes received. -/
theorem bufByte_received {m : ℕ → BitVec 32} {rx : List Byte} {j : ℕ} (hj : j < rx.length) :
    bufByte (fun w => if 4 * w < rx.length then wordAt rx (4 * w) else m w) j = rx.getD j 0 := by
  rw [bufByte, if_pos (by omega), extractLsb'_wordAt _ _ (Nat.mod_lt _ (by decide))]
  congr 1
  omega

/-- **A transaction**: with an idle engine, the flash is sent the bytes, what it answers comes
back when it is asked for, and the engine is idle again. -/
theorem spiTxn_post (tx : List Byte) (hpos : 0 < tx.length) (hlen : tx.length ≤ pwfpgaSpiBufBytes)
    (rx : Bool) {s : SpiCard} (hidle : s.busy = 0) :
    Post E (fun l s' => s'.busy = 0 ∧
      s'.nor = (s.nor.exec flashGeometry env.writing tx).2 ∧
      (rx = true → l = (s.nor.exec flashGeometry env.writing tx).1)) (spiTxn env tx rx s) := by
  have hlen' : tx.length ≤ 512 := hlen
  rw [spiTxn, if_neg (by omega)]
  refine (writeWords_post hE tx hlen 0 rfl s (fun j hj => absurd hj (Nat.not_lt_zero j))).bind ?_
  rintro _ s₁ ⟨hbusy₁, hnor₁, hbuf₁⟩
  refine (spiWrite32_post hE _ _ s₁).bind ?_
  rintro _ s₂ hs₂
  have hlenReg : s₂.len.toNat = tx.length := by
    rw [hs₂, SpiCard.write, if_neg (by decide), if_pos rfl, BitVec.toNat_setWidth,
      BitVec.toNat_ofNat, Nat.mod_eq_of_lt (show tx.length < 2 ^ 32 by omega),
      Nat.mod_eq_of_lt (by omega)]
  have hs₂' : s₂.busy = s₁.busy ∧ s₂.nor = s₁.nor ∧ s₂.txMem = s₁.txMem := by
    rw [hs₂, SpiCard.write, if_neg (by decide), if_pos rfl]
    exact ⟨rfl, rfl, rfl⟩
  refine (spiWrite32_post hE _ _ s₂).bind ?_
  rintro _ s₃ hs₃
  have hgo : s₃ = ({ s₂ with accesses := s₂.accesses + 1 } : SpiCard).transfer env := by
    rw [hs₃, SpiCard.write, if_pos rfl, if_pos]
    refine ⟨by decide, hs₂'.1.trans (hbusy₁.trans hidle), fun h0 => ?_⟩
    rw [show s₂.len = 0 from h0] at hlenReg
    exact absurd hlenReg (Nat.ne_of_lt hpos)
  have hsent : (List.range s₂.len.toNat).map (bufByte s₂.txMem) = tx := by
    rw [hlenReg, hs₂'.2.2]
    exact map_bufByte hbuf₁
  generalize hresp : s.nor.exec flashGeometry env.writing tx = resp
  have htransfer : s₃.busy = env.shifting (s₂.accesses + 1) ∧ s₃.nor = resp.2 ∧
      s₃.rxMem = fun w => if 4 * w < resp.1.length then wordAt resp.1 (4 * w) else s₂.rxMem w := by
    rw [hgo, SpiCard.transfer, hsent, hs₂'.2.1, hnor₁, hresp]
    exact ⟨rfl, rfl, rfl⟩
  have hresplen : resp.1.length = tx.length := by
    rw [← hresp]
    exact NorDevice.length_exec _ _ _ _
  refine (pollIdle_post hE 2000000 s₃ fun hfair => ?_).bind ?_
  · rw [htransfer.1]
    exact hfair.shifting _
  rintro _ s₄ ⟨hbusy₄, hnor₄, hrx₄⟩
  cases rx with
  | false => exact post_pure ⟨hbusy₄, hnor₄.trans htransfer.2.1, by simp⟩
  | true =>
    refine (readWords_post hE hlen 0 rfl s₄).mono ?_
    rintro l s₅ ⟨hbusy₅, hnor₅, rfl⟩
    refine ⟨hbusy₅.trans hbusy₄, hnor₅.trans (hnor₄.trans htransfer.2.1), fun _ => ?_⟩
    rw [Nat.sub_zero, hrx₄, htransfer.2.2, ← hresplen]
    simp only [Nat.zero_add]
    exact map_bufByte fun j hj => bufByte_received hj

end Driver

end PacketWyrm
