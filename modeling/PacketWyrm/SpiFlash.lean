import PacketWyrm.SpiEngine

/-!
# Programming the configuration flash

`pw_flash_program` writes an image of any length to any place of the flash.  A sector that the
image covers in part is read first and its other bytes are programmed again after the erase, so
that nothing around the image is lost; and pages are programmed up to their ends only, since a
program command wraps there.

## Main definitions

* `sectorErase`, `pageProgram`, `flashRead` — the three commands.
* `flashReadRange`, `programRange`, `flashVerifyRange` — ranges, in pieces.
* `clearSector`, `clearSectors` — the sector loop of `pw_flash_program`.
* `pwFlashProgram` — the whole of it.

## Main results

* `pwFlashProgram_post` — the image and nothing else has changed.
* `flash_program_succeeds` — in a fair environment there is no failure.
* `flash_program_splices` — a run that succeeds has replaced the range.
-/

namespace PacketWyrm

open Lib

/-! ## The driver -/

section Driver

variable (env : SpiEnv)

/-- `warmup`: a status read whose answer is thrown away. -/
def warmup : Spi Unit := do
  let _ ← spiTxn env [0x05, 0x00] false
  pure ()

/-- `wren`. -/
def wren : Spi Unit := do
  let _ ← spiTxn env [0x06] false
  pure ()

/-- `wip`; what is negative there is the failure that `wait_idle` makes of it. -/
def wip : Spi Bool := fun s =>
  ((spiTxn env [0x05, 0x00] true s).mapError fun _ => .io).map fun (r, s') =>
    ((r.getD 1 0).getLsbD 0, s')

/-- `wait_idle`, with the polls left. -/
def waitIdle : ℕ → Spi Unit
  | 0 => throw .io
  | i + 1 => do
    let w ← wip env
    if w = false then pure () else waitIdle i

/-- `addr3`. -/
def addr3 (a : ℕ) : List Byte :=
  [BitVec.ofNat 8 (a >>> 16), BitVec.ofNat 8 (a >>> 8), BitVec.ofNat 8 a]

/-- `sector_erase`. -/
def sectorErase (a : ℕ) : Spi Unit := do
  wren env
  let _ ← spiTxn env (0xD8 :: addr3 a) false
  waitIdle env 4000000

/-- `page_program`. -/
def pageProgram (a : ℕ) (data : List Byte) : Spi Unit := do
  wren env
  let _ ← spiTxn env (0x02 :: addr3 a ++ data) false
  waitIdle env 4000000

/-- `flash_read`. -/
def flashRead (a len : ℕ) : Spi (List Byte) := do
  let r ← spiTxn env (0x03 :: addr3 a ++ List.replicate len 0) true
  pure (r.drop 4)

/-- The most that is read in one transaction. -/
def readPiece : ℕ := 256

theorem readPiece_pos : 0 < readPiece := by decide

/-- `flash_read_range`, from byte `p` on. -/
def flashReadRange (a len p : ℕ) : Spi (List Byte) :=
  if p < len then do
    let buf ← flashRead env (a + p) (min (len - p) readPiece)
    let rest ← flashReadRange a len (p + readPiece)
    pure (buf ++ rest)
  else pure []
termination_by len - p
decreasing_by
  have := readPiece_pos
  omega

/-- How many bytes `program_range` programs next: no more than the page has left. -/
def chunkLen (a len p : ℕ) : ℕ :=
  min (len - p) (flashGeometry.page - (a + p) % flashGeometry.page)

theorem chunkLen_pos {a len p : ℕ} (h : p < len) : 0 < chunkLen a len p := by
  have := Nat.mod_lt (a + p) flashGeometry.page_pos
  rw [chunkLen]
  omega

/-- `program_range`, from byte `p` on. -/
def programRange (a : ℕ) (data : List Byte) (p : ℕ) : Spi Unit :=
  if p < data.length then do
    pageProgram env (a + p) ((data.drop p).take (chunkLen a data.length p))
    programRange a data (p + chunkLen a data.length p)
  else pure ()
termination_by data.length - p
decreasing_by
  rename_i h
  have := chunkLen_pos (a := a) h
  omega

/-- `flash_verify_range`, from byte `p` on: the bytes that differ are counted. -/
def flashVerifyRange (a : ℕ) (expect : List Byte) (p mism : ℕ) : Spi ℕ :=
  if p < expect.length then do
    let rb ← flashRead env (a + p) (min (expect.length - p) readPiece)
    flashVerifyRange a expect (p + readPiece)
      (mism + (rb.zip (expect.drop p)).countP fun q => q.1 != q.2)
  else pure mism
termination_by expect.length - p
decreasing_by
  have := readPiece_pos
  omega

/-- One sector, for an image from `offset` to `stop`: its bytes before and behind the image are
kept. -/
def clearSector (offset stop a mism : ℕ) : Spi ℕ :=
  let head := if a < offset then offset - a else 0
  let tail := if stop < a + flashGeometry.sector then a + flashGeometry.sector - stop else 0
  if head = 0 ∧ tail = 0 then do
    sectorErase env a
    pure mism
  else if env.scratch a = false then throw .noResources
  else do
    let keepHead ← flashReadRange env a head 0
    let keepTail ← (if tail = 0 then pure [] else flashReadRange env stop tail 0 : Spi _)
    sectorErase env a
    (if head = 0 then pure () else programRange env a keepHead 0 : Spi _)
    (if tail = 0 then pure () else programRange env stop keepTail 0 : Spi _)
    let mism ← (if head = 0 then pure mism else flashVerifyRange env a keepHead 0 mism : Spi _)
    (if tail = 0 then pure mism else flashVerifyRange env stop keepTail 0 mism : Spi _)

/-- Every sector from `a` on. -/
def clearSectors (offset stop a mism : ℕ) : Spi ℕ :=
  if a < stop then do
    let mism ← clearSector env offset stop a mism
    clearSectors offset stop (a + flashGeometry.sector) mism
  else pure mism
termination_by stop - a
decreasing_by
  have := flashGeometry.sector_pos
  omega

/-- `pw_flash_program`: the number of bytes that read back differently. -/
def pwFlashProgram (offset : ℕ) (data : List Byte) : Spi ℕ :=
  if data.length = 0 then throw .inval
  else if flashGeometry.size ≤ offset ∨ flashGeometry.size < data.length ∨
      flashGeometry.size < offset + data.length then
    throw .outOfRange
  else do
    warmup env
    let mism ← clearSectors env offset (offset + data.length) 
      (offset - offset % flashGeometry.sector) 0
    programRange env offset data 0
    flashVerifyRange env offset data 0 mism

end Driver

/-! ## One command -/

/-- A card left idle, with the contents `m`; and each page program since `s` stayed in its page. -/
structure Leaves (s : SpiCard) (m : NorMem) (s' : SpiCard) : Prop where
  engine : s'.busy = 0
  flash : s'.nor.busy = 0
  mem : s'.nor.mem = m
  programs : ∀ p ∈ s'.nor.programs, p ∈ s.nor.programs ∨ 
    p.1 % flashGeometry.page + p.2 ≤ flashGeometry.page

theorem Leaves.trans {s s' s'' : SpiCard} {m m' : NorMem} (h : Leaves s m s')
    (h' : Leaves s' m' s'') : Leaves s m' s'' where
  engine := h'.engine
  flash := h'.flash
  mem := h'.mem
  programs p hp := (h'.programs p hp).elim (h.programs p) Or.inr

/-- An idle card, left as it is. -/
theorem Leaves.refl {s : SpiCard} (hbusy : s.busy = 0) (hflash : s.nor.busy = 0) :
    Leaves s s.nor.mem s where
  engine := hbusy
  flash := hflash
  mem := rfl
  programs _ hp := .inl hp

/-- The idle card that was left, left as it is. -/
theorem Leaves.self {s s' : SpiCard} {m : NorMem} (h : Leaves s m s') : Leaves s' m s' where
  engine := h.engine
  flash := h.flash
  mem := h.mem
  programs _ hp := .inl hp

theorem norAddress_addr3 {a : ℕ} (h : a < flashGeometry.size) :
    norAddress (BitVec.ofNat 8 (a >>> 16)) (BitVec.ofNat 8 (a >>> 8)) (BitVec.ofNat 8 a) = a := by
  simp only [norAddress, BitVec.toNat_append, BitVec.toNat_ofNat, Nat.shiftRight_eq_div_pow]
  rw [← Nat.shiftLeft_add_eq_or_of_lt (Nat.mod_lt _ (by decide)),
    ← Nat.shiftLeft_add_eq_or_of_lt (Nat.mod_lt _ (by decide)), Nat.shiftLeft_eq, Nat.shiftLeft_eq]
  have hsize : flashGeometry.size = 0x1000000 := rfl
  omega

section Commands

variable {env : SpiEnv} {E : Prop} (hE : ¬env.Fair → E) {s₀ s : SpiCard} {m : NorMem}

include hE

theorem warmup_post (h : Leaves s₀ m s) : Post E (fun _ s' => Leaves s m s') (warmup env s) := by
  refine (spiTxn_post hE _ (by decide) (by decide) false h.engine).bind ?_
  rintro _ s' ⟨hbusy, hnor, _⟩
  rw [NorDevice.exec_status, h.flash] at hnor
  refine post_pure ⟨hbusy, ?_, ?_, fun p hp => .inl ?_⟩
  · rw [hnor]
  · rw [hnor]
    exact h.mem
  · rw [hnor] at hp
    exact hp

theorem wren_post (h : Leaves s₀ m s) :
    Post E (fun _ s' => s'.busy = 0 ∧ s'.nor = { s.nor with wel := true }) (wren env s) := by
  refine (spiTxn_post hE _ (by decide) (by decide) false h.engine).bind ?_
  rintro _ s' ⟨hbusy, hnor, _⟩
  rw [NorDevice.exec_wren _ _ h.flash] at hnor
  exact post_pure ⟨hbusy, hnor⟩

theorem wip_post (hidle : s.busy = 0) :
    Post E (fun w s' => s'.busy = 0 ∧ s'.nor = { s.nor with busy := s.nor.busy - 1 } ∧
      (w = false ↔ s.nor.busy = 0)) (wip env s) := by
  have htxn := spiTxn_post hE [0x05, 0x00] (by decide) (by decide) true hidle
  rw [NorDevice.exec_status] at htxn
  rw [wip]
  cases h : spiTxn env [0x05, 0x00] true s with
  | error e =>
    rw [h] at htxn
    exact htxn
  | ok r =>
    rw [h] at htxn
    obtain ⟨hbusy, hnor, hrx⟩ := htxn
    refine ⟨hbusy, hnor, ?_⟩
    rw [hrx rfl]
    by_cases hzero : s.nor.busy = 0 <;> simp [hzero]

/-- The flash has done what it was at. -/
theorem waitIdle_post (fuel : ℕ) (hidle : s.busy = 0) (hfuel : env.Fair → s.nor.busy < fuel) :
    Post E (fun _ s' => s'.busy = 0 ∧ s'.nor = { s.nor with busy := 0 })
      (waitIdle env fuel s) := by
  induction fuel generalizing s with
  | zero => exact post_throw (hE fun hfair => absurd (hfuel hfair) (Nat.not_lt_zero _))
  | succ fuel ih =>
    refine (wip_post hE hidle).bind ?_
    rintro w s' ⟨hbusy, hnor, hw⟩
    by_cases hzero : s.nor.busy = 0
    · rw [if_pos (hw.mpr hzero)]
      refine post_pure ⟨hbusy, ?_⟩
      rw [hnor, hzero]
    · rw [if_neg fun h => hzero (hw.mp h)]
      have hbusyNor : s'.nor.busy = s.nor.busy - 1 := by rw [hnor]
      refine (ih hbusy fun hfair => ?_).mono ?_
      · have := hfuel hfair
        omega
      · rintro _ s'' ⟨hbusy', hnor'⟩
        refine ⟨hbusy', ?_⟩
        rw [hnor', hnor]

/-- **An erase** sets the sector's bytes. -/
theorem sectorErase_post (h : Leaves s₀ m s) {a : ℕ} (ha : a < flashGeometry.size)
    (hsector : a % flashGeometry.sector = 0) :
    Post E (fun _ s' => Leaves s (blank m a (a + flashGeometry.sector)) s')
      (sectorErase env a s) := by
  refine (wren_post hE h).bind ?_
  rintro _ s₁ ⟨hbusy₁, hnor₁⟩
  refine (spiTxn_post hE _ ?_ ?_ false hbusy₁).bind ?_
  · exact Nat.succ_pos _
  · exact Nat.le_of_ble_eq_true rfl
  rintro _ s₂ ⟨hbusy₂, hnor₂, _⟩
  have hexec := NorDevice.exec_erase flashGeometry env.writing (d := s₁.nor)
    (by rw [hnor₁]; exact h.flash) (by rw [hnor₁]) (BitVec.ofNat 8 (a >>> 16))
    (BitVec.ofNat 8 (a >>> 8)) (BitVec.ofNat 8 a)
  rw [addr3, hexec, norAddress_addr3 ha, hnor₁,
    eraseSector_eq_blank flashGeometry _ hsector] at hnor₂
  refine (waitIdle_post hE 4000000 hbusy₂ fun hfair => ?_).mono ?_
  · rw [hnor₂]
    exact hfair.writing _
  · rintro _ s₃ ⟨hbusy₃, hnor₃⟩
    rw [hnor₂] at hnor₃
    refine ⟨hbusy₃, ?_, ?_, fun p hp => .inl ?_⟩
    · rw [hnor₃]
    · rw [hnor₃, ← h.mem]
      rfl
    · rw [hnor₃] at hp
      exact hp

/-- **A page program** over erased bytes, within a page, replaces them. -/
theorem pageProgram_post (h : Leaves s₀ m s) {a : ℕ} {data : List Byte}
    (ha : a < flashGeometry.size)
    (hpage : a % flashGeometry.page + data.length ≤ flashGeometry.page)
    (hm : ∀ x, a ≤ x → x < a + data.length → m x = erased) :
    Post E (fun _ s' => Leaves s (splice m a data) s') (pageProgram env a data s) := by
  refine (wren_post hE h).bind ?_
  rintro _ s₁ ⟨hbusy₁, hnor₁⟩
  have hlen : (0x02 :: addr3 a ++ data).length ≤ pwfpgaSpiBufBytes := by
    rw [List.cons_append, List.length_cons, List.length_append, addr3, pwfpgaSpiBufBytes]
    simp only [List.length_cons, List.length_nil]
    have hsize : flashGeometry.page = 256 := rfl
    omega
  refine (spiTxn_post hE _ ?_ hlen false hbusy₁).bind ?_
  · exact Nat.succ_pos _
  rintro _ s₂ ⟨hbusy₂, hnor₂, _⟩
  have hexec := NorDevice.exec_program flashGeometry env.writing (d := s₁.nor)
    (by rw [hnor₁]; exact h.flash) (by rw [hnor₁]) (BitVec.ofNat 8 (a >>> 16))
    (BitVec.ofNat 8 (a >>> 8)) (BitVec.ofNat 8 a) data
  have hprog : programPage flashGeometry data a s₁.nor.mem = splice m a data := by
    rw [hnor₁, ← h.mem]
    exact programPage_of_erased flashGeometry hpage (by rw [h.mem]; exact hm)
  rw [norAddress_addr3 ha, hprog] at hexec
  rw [show (0x02 :: addr3 a ++ data : List Byte) = 0x02 :: BitVec.ofNat 8 (a >>> 16) ::
    BitVec.ofNat 8 (a >>> 8) :: BitVec.ofNat 8 a :: data from rfl, hexec, hnor₁] at hnor₂
  refine (waitIdle_post hE 4000000 hbusy₂ fun hfair => ?_).mono ?_
  · rw [hnor₂]
    exact hfair.writing _
  · rintro _ s₃ ⟨hbusy₃, hnor₃⟩
    rw [hnor₂] at hnor₃
    refine ⟨hbusy₃, ?_, ?_, fun p hp => ?_⟩
    · rw [hnor₃]
    · rw [hnor₃]
      rfl
    · rw [hnor₃] at hp
      rcases List.mem_append.mp hp with hp | hp
      · exact .inl hp
      · rw [List.mem_singleton.mp hp]
        exact .inr hpage

/-- **A read** returns the bytes of its range. -/
theorem flashRead_post (h : Leaves s₀ m s) {a len : ℕ} (hlen : len ≤ readPiece)
    (hend : a + len ≤ flashGeometry.size) (ha : a < flashGeometry.size) :
    Post E (fun l s' => l = bytesFrom m a len ∧ Leaves s m s') (flashRead env a len s) := by
  have htxlen : (0x03 :: addr3 a ++ List.replicate len 0).length ≤ pwfpgaSpiBufBytes := by
    rw [List.cons_append, List.length_cons, List.length_append, List.length_replicate, addr3,
      pwfpgaSpiBufBytes]
    simp only [List.length_cons, List.length_nil]
    rw [readPiece] at hlen
    omega
  refine (spiTxn_post hE _ ?_ htxlen true h.engine).bind ?_
  · exact Nat.succ_pos _
  rintro l s' ⟨hbusy, hnor, hrx⟩
  have hexec := NorDevice.exec_read flashGeometry env.writing h.flash (BitVec.ofNat 8 (a >>> 16))
    (BitVec.ofNat 8 (a >>> 8)) (BitVec.ofNat 8 a) (List.replicate len 0)
  rw [norAddress_addr3 ha, List.length_replicate] at hexec
  rw [show (0x03 :: addr3 a ++ List.replicate len 0 : List Byte) = 0x03 ::
    BitVec.ofNat 8 (a >>> 16) :: BitVec.ofNat 8 (a >>> 8) :: BitVec.ofNat 8 a ::
    List.replicate len 0 from rfl, hexec] at hnor hrx
  refine post_pure ⟨?_, hbusy, ?_, ?_, ?_⟩
  · rw [hrx rfl, List.drop_left' (List.length_replicate ..)]
    apply List.map_congr_left
    intro i hi
    rw [List.mem_range] at hi
    rw [h.mem, Nat.mod_eq_of_lt (by omega)]
  · rw [hnor]
    exact h.flash
  · rw [hnor]
    exact h.mem
  · rw [hnor]
    exact fun p hp => .inl hp

end Commands

/-! ## Ranges -/

section Ranges

variable {env : SpiEnv} {E : Prop} (hE : ¬env.Fair → E) {s₀ s : SpiCard} {m : NorMem}

include hE

/-- A range is read in pieces. -/
theorem flashReadRange_post {a len : ℕ} (hend : a + len ≤ flashGeometry.size) (p : ℕ)
    (h : Leaves s₀ m s) :
    Post E (fun l s' => l = bytesFrom m (a + p) (len - p) ∧ Leaves s m s')
      (flashReadRange env a len p s) := by
  induction p using flashReadRange.induct len generalizing s₀ s with
  | case1 p hlt ih =>
    rw [flashReadRange, if_pos hlt]
    refine (flashRead_post hE h (Nat.min_le_right _ _) (by omega) (by omega)).bind ?_
    rintro _ s₁ ⟨rfl, h₁⟩
    refine (ih h₁).bind ?_
    rintro rest s₂ ⟨hrest, h₂⟩
    refine post_pure ⟨?_, h₁.trans h₂⟩
    rw [hrest]
    by_cases hlast : len - p ≤ readPiece
    · rw [Nat.min_eq_left hlast, show len - (p + readPiece) = 0 by omega, bytesFrom_zero,
        List.append_nil]
    · have hsum : readPiece + (len - (p + readPiece)) = len - p := by omega
      rw [Nat.min_eq_right (by omega), ← Nat.add_assoc, bytesFrom_append, hsum]
  | case2 p hge =>
    rw [flashReadRange, if_neg hge]
    refine post_pure ⟨?_, h.self⟩
    rw [show len - p = 0 by omega, bytesFrom_zero]

/-- A range of erased bytes is replaced page by page. -/
theorem programRange_post {a : ℕ} {data : List Byte} (hend : a + data.length ≤ flashGeometry.size)
    (p : ℕ) (h : Leaves s₀ m s)
    (hm : ∀ x, a + p ≤ x → x < a + data.length → m x = erased) :
    Post E (fun _ s' => Leaves s (splice m (a + p) (data.drop p)) s')
      (programRange env a data p s) := by
  induction p using programRange.induct a data generalizing s₀ s m with
  | case1 p hlt ih =>
    rw [programRange, if_pos hlt]
    have hpos := chunkLen_pos (a := a) hlt
    have hchunk : chunkLen a data.length p ≤ data.length - p := Nat.min_le_left _ _
    have hpage : chunkLen a data.length p ≤ flashGeometry.page - (a + p) % flashGeometry.page :=
      Nat.min_le_right _ _
    have hmod := Nat.mod_lt (a + p) flashGeometry.page_pos
    generalize chunkLen a data.length p = n at hpos hchunk hpage ih ⊢
    have hlen : ((data.drop p).take n).length = n := by
      rw [List.length_take, List.length_drop, Nat.min_eq_left hchunk]
    refine (pageProgram_post hE h (by omega) (by omega) fun x hx hx' => ?_).bind ?_
    · exact hm x hx (by omega)
    rintro _ s₁ h₁
    refine (ih h₁ fun x hx hx' => ?_).mono fun _ s₂ h₂ => ?_
    · rw [splice, if_neg (by omega)]
      exact hm x (by omega) hx'
    · have hnext : a + (p + n) = a + p + ((data.drop p).take n).length := by omega
      have hrest : (data.drop p).take n ++ data.drop (p + n) = data.drop p := by
        rw [← List.drop_drop, List.take_append_drop]
      rw [hnext, splice_splice, hrest] at h₂
      exact h₁.trans h₂
  | case2 p hge =>
    rw [programRange, if_neg hge]
    refine post_pure ?_
    rw [List.drop_eq_nil_of_le (by omega), splice_nil]
    exact h.self

omit hE in
/-- A piece does not differ from what it is a piece of. -/
theorem countP_zip_take (l : List Byte) (n : ℕ) :
    ((l.take n).zip l).countP (fun q => q.1 != q.2) = 0 := by
  rw [List.countP_eq_zero]
  intro q hq
  obtain ⟨i, hi, rfl⟩ := List.mem_iff_getElem.mp hq
  rw [List.getElem_zip, List.getElem_take]
  simp

/-- Bytes that are as expected are not counted. -/
theorem flashVerifyRange_post {a : ℕ} {expect : List Byte}
    (hend : a + expect.length ≤ flashGeometry.size) (hm : bytesFrom m a expect.length = expect)
    (p mism : ℕ) (h : Leaves s₀ m s) :
    Post E (fun n s' => n = mism ∧ Leaves s m s') (flashVerifyRange env a expect p mism s) := by
  induction p, mism using flashVerifyRange.induct expect generalizing s₀ s with
  | case1 p mism hlt ih =>
    rw [flashVerifyRange, if_pos hlt]
    refine (flashRead_post hE h (Nat.min_le_right _ _) (by omega) (by omega)).bind ?_
    rintro _ s₁ ⟨rfl, h₁⟩
    have hpiece : bytesFrom m (a + p) (min (expect.length - p) readPiece) =
        (expect.drop p).take readPiece := by
      rw [Nat.min_comm, ← take_drop_bytesFrom, hm]
    rw [hpiece, countP_zip_take]
    have hnext := ih [] h₁
    exact hnext.mono fun _ s₂ h₂ => ⟨h₂.1, h₁.trans h₂.2⟩
  | case2 p mism hge =>
    rw [flashVerifyRange, if_neg hge]
    exact post_pure ⟨rfl, h.self⟩

end Ranges

/-! ## Sectors -/

section Sectors

variable {env : SpiEnv} {E : Prop} (hE : ¬env.Fair → E) {s₀ s : SpiCard} {m : NorMem}
  {offset stop : ℕ}

include hE

/-- **One sector**: what the image will have of it is erased, and the rest is as before. -/
theorem clearSector_post {a : ℕ} (ha : a % flashGeometry.sector = 0) (hlt : a < stop)
    (hstop : stop ≤ flashGeometry.size) (hoff : offset < a + flashGeometry.sector)
    (himage : offset < stop) (mism : ℕ) (h : Leaves s₀ m s) :
    Post E (fun n s' => n = mism ∧
        Leaves s (blank m (max a offset) (min (a + flashGeometry.sector) stop)) s')
      (clearSector env offset stop a mism s) := by
  have hfit : a + flashGeometry.sector ≤ flashGeometry.size := by
    have hsector : flashGeometry.sector = 0x10000 := rfl
    have hsize : flashGeometry.size = 0x1000000 := rfl
    rw [hsector] at ha ⊢
    omega
  rw [clearSector]
  have hhead : a + (if a < offset then offset - a else 0) = max a offset := by split <;> omega
  have htail : min (a + flashGeometry.sector) stop +
      (if stop < a + flashGeometry.sector then a + flashGeometry.sector - stop else 0) =
        a + flashGeometry.sector := by split <;> omega
  have hstopTail : (if stop < a + flashGeometry.sector then a + flashGeometry.sector - stop else 0)
      ≠ 0 → min (a + flashGeometry.sector) stop = stop := by split <;> omega
  have hover : max a offset < min (a + flashGeometry.sector) stop := by
    have := flashGeometry.sector_pos
    omega
  generalize (if a < offset then offset - a else 0) = head at hhead ⊢
  generalize (if stop < a + flashGeometry.sector then a + flashGeometry.sector - stop else 0) = tail
    at htail hstopTail ⊢
  generalize max a offset = lo at hhead hover ⊢
  generalize min (a + flashGeometry.sector) stop = mid at htail hstopTail hover ⊢
  refine Post.ite (fun hwhole => ?_) fun hpart => ?_
  · refine (sectorErase_post hE h (by omega) ha).bind fun _ s₁ h₁ => post_pure ⟨rfl, ?_⟩
    rw [show lo = a by omega, show mid = a + flashGeometry.sector by omega]
    exact h₁
  refine Post.ite_throw (fun hscratch => hE fun hfair => ?_) fun _ => ?_
  · rw [hfair.scratch] at hscratch
    cases hscratch
  refine (flashReadRange_post hE (by omega) 0 h).bind ?_
  rintro keepHead s₁ ⟨hkeepHead, h₁⟩
  rw [Nat.add_zero, Nat.sub_zero] at hkeepHead
  have hreadTail : Post E (fun l s' => l = bytesFrom m mid tail ∧ Leaves s₁ m s')
      ((if tail = 0 then pure [] else flashReadRange env stop tail 0 : Spi _) s₁) := by
    refine Post.ite (fun hzero => post_pure ⟨?_, h₁.self⟩) fun htail0 => ?_
    · rw [hzero, bytesFrom_zero]
    · have hmid := hstopTail htail0
      rw [hmid]
      exact flashReadRange_post hE (by omega) 0 h₁
  refine hreadTail.bind ?_
  rintro keepTail s₂ ⟨hkeepTail, h₂⟩
  refine (sectorErase_post hE h₂ (by omega) ha).bind ?_
  rintro _ s₃ h₃
  have hheadLen : keepHead.length = head := by rw [hkeepHead, length_bytesFrom]
  have htailLen : keepTail.length = tail := by rw [hkeepTail, length_bytesFrom]
  -- The kept bytes are put back, first those before the image and then those behind it.
  have hputHead : Post E (fun _ s' => Leaves s₃ (blank m lo (mid + tail)) s')
      ((if head = 0 then pure () else programRange env a keepHead 0 : Spi _) s₃) := by
    rw [htail, ← hhead, ← splice_blank_head m (show a + head ≤ a + flashGeometry.sector by omega)]
    refine Post.ite (fun hzero => post_pure ?_) fun _ => ?_
    · rw [hzero, bytesFrom_zero, splice_nil]
      exact h₃.self
    · rw [← hkeepHead]
      refine programRange_post hE (by omega) 0 h₃ fun x hx hx' => ?_
      rw [blank, if_pos (by omega)]
  refine hputHead.bind ?_
  rintro _ s₄ h₄
  have hputTail : Post E (fun _ s' => Leaves s₄ (blank m lo mid) s')
      ((if tail = 0 then pure () else programRange env stop keepTail 0 : Spi _) s₄) := by
    rw [← splice_blank_tail m (show lo ≤ mid by omega) (n := tail)]
    refine Post.ite (fun hzero => post_pure ?_) fun htail0 => ?_
    · rw [hzero, bytesFrom_zero, splice_nil]
      rw [hzero] at h₄
      exact h₄.self
    · have hmid := hstopTail htail0
      rw [← hkeepTail]
      rw [hmid] at h₄ hover htail ⊢
      refine programRange_post hE (by omega) 0 h₄ fun x hx hx' => ?_
      rw [blank, if_pos (by omega)]
  refine hputTail.bind ?_
  rintro _ s₅ h₅
  have hsame (b n : ℕ) (hout : b + n ≤ lo ∨ mid ≤ b) :
      bytesFrom (blank m lo mid) b n = bytesFrom m b n := by
    refine bytesFrom_congr m fun x hx hx' => ?_
    rw [blank, if_neg (by omega)]
  have hcheckHead : Post E (fun n s' => n = mism ∧ Leaves s₅ (blank m lo mid) s')
      ((if head = 0 then pure mism else flashVerifyRange env a keepHead 0 mism : Spi _) s₅) := by
    refine Post.ite (fun _ => post_pure ⟨rfl, h₅.self⟩) fun _ => ?_
    refine flashVerifyRange_post hE (by omega) ?_ 0 mism h₅
    rw [hheadLen, hsame a head (by omega), hkeepHead]
  refine hcheckHead.bind ?_
  rintro _ s₆ ⟨rfl, h₆⟩
  have hall : Leaves s (blank m lo mid) s₆ :=
    ((((h₁.trans h₂).trans h₃).trans h₄).trans h₅).trans h₆
  refine Post.ite (fun _ => post_pure ⟨rfl, hall⟩) fun htail0 => ?_
  have hmid := hstopTail htail0
  refine (flashVerifyRange_post hE (by omega) ?_ 0 _ h₆).mono ?_
  · rw [htailLen, ← hmid, hsame mid tail (by omega), hkeepTail]
  · exact fun n s₇ h₇ => ⟨h₇.1, hall.trans h₇.2⟩

end Sectors

section Program

variable {env : SpiEnv} {E : Prop} (hE : ¬env.Fair → E) {s₀ s : SpiCard} {m : NorMem}
  {offset stop : ℕ}

include hE

/-- **The sector loop** erases what the image will have, and nothing else. -/
theorem clearSectors_post (hstop : stop ≤ flashGeometry.size) (himage : offset < stop) (a : ℕ)
    (ha : a % flashGeometry.sector = 0) (hoff : offset < a + flashGeometry.sector) (mism : ℕ)
    (h : Leaves s₀ m s) :
    Post E (fun n s' => n = mism ∧ Leaves s (blank m (max a offset) stop) s')
      (clearSectors env offset stop a mism s) := by
  induction a, mism using clearSectors.induct stop generalizing s₀ s m with
  | case1 a mism hlt ih =>
    rw [clearSectors, if_pos hlt]
    refine (clearSector_post hE ha hlt hstop hoff himage mism h).bind ?_
    rintro _ s₁ ⟨rfl, h₁⟩
    have hnext : (a + flashGeometry.sector) % flashGeometry.sector = 0 := by
      rw [Nat.add_mod_right, ha]
    refine (ih _ hnext (by omega) h₁).mono ?_
    rintro _ s₂ ⟨rfl, h₂⟩
    refine ⟨rfl, ?_⟩
    have hjoin : blank (blank m (max a offset) (min (a + flashGeometry.sector) stop))
        (max (a + flashGeometry.sector) offset) stop = blank m (max a offset) stop := by
      rw [Nat.max_eq_left (show offset ≤ a + flashGeometry.sector by omega)]
      by_cases hlast : a + flashGeometry.sector ≤ stop
      · rw [Nat.min_eq_left hlast, blank_blank m (by omega) hlast]
      · rw [Nat.min_eq_right (by omega), blank_of_le _ (by omega)]
    rw [hjoin] at h₂
    exact h₁.trans h₂
  | case2 a mism hge =>
    rw [clearSectors, if_neg hge]
    refine post_pure ⟨rfl, ?_⟩
    rw [blank_of_le m (by omega)]
    exact h.self

/-- **The whole of it**: a result says that the image stands where it belongs, that everything
else is as before, and that nothing read back differently. -/
theorem pwFlashProgram_post {data : List Byte}
    (hbad : data.length = 0 ∨ flashGeometry.size < offset + data.length → E) (h : Leaves s₀ m s) :
    Post E (fun n s' => n = 0 ∧ Leaves s (splice m offset data) s')
      (pwFlashProgram env offset data s) := by
  rw [pwFlashProgram]
  refine Post.ite_throw (fun hempty => hbad (.inl hempty)) fun hempty => ?_
  refine Post.ite_throw (fun hrange => hbad ?_) fun hrange => ?_
  · omega
  have hfit : offset + data.length ≤ flashGeometry.size := by omega
  refine (warmup_post hE h).bind ?_
  intro _ s₁ h₁
  have hmod := Nat.mod_lt offset flashGeometry.sector_pos
  have hle := Nat.mod_le offset flashGeometry.sector
  have hstart : (offset - offset % flashGeometry.sector) % flashGeometry.sector = 0 := by
    rw [← Nat.div_mul_self_eq_mod_sub_self, Nat.mul_mod_left]
  refine (clearSectors_post hE hfit (by omega) _ hstart (by omega) 0 h₁).bind ?_
  rintro _ s₂ ⟨rfl, h₂⟩
  rw [Nat.max_eq_right (by omega)] at h₂
  refine (programRange_post hE hfit 0 h₂ fun x hx hx' => ?_).bind ?_
  · rw [blank, if_pos ⟨hx, hx'⟩]
  intro _ s₃ h₃
  rw [Nat.add_zero, List.drop_zero, splice_blank] at h₃
  refine (flashVerifyRange_post hE hfit (bytesFrom_splice m offset data) 0 0 h₃).mono ?_
  rintro _ s₄ ⟨rfl, h₄⟩
  exact ⟨rfl, ((h₁.trans h₂).trans h₃).trans h₄⟩

end Program

/-! ## Programming as a whole -/

/-- **Programming succeeds** for every image that fits, when no access fails and the flash gets
on with its work. -/
theorem flash_program_succeeds {env : SpiEnv} (hfair : env.Fair) (s : SpiCard) (offset : ℕ)
    (data : List Byte) (hengine : s.busy = 0) (hflash : s.nor.busy = 0) (hpos : 0 < data.length)
    (hfit : offset + data.length ≤ flashGeometry.size) :
    ∃ s', pwFlashProgram env offset data s = .ok (0, s') := by
  have hgood : data.length = 0 ∨ flashGeometry.size < offset + data.length → False := by omega
  obtain ⟨n, s', hrun, rfl, _⟩ := exists_of_post (pwFlashProgram_post (E := False)
    (fun hunfair => hunfair hfair) hgood (Leaves.refl hengine hflash))
  exact ⟨s', hrun⟩

/-- **Programming is an exact splice**: a run that succeeds has replaced the bytes of its range
by the image and left every other byte alone, and no program command ran over its page. -/
theorem flash_program_splices (env : SpiEnv) (s s' : SpiCard) (offset : ℕ) (data : List Byte)
    (mism : ℕ) (hengine : s.busy = 0) (hflash : s.nor.busy = 0)
    (hrun : pwFlashProgram env offset data s = .ok (mism, s')) :
    s'.nor.mem = splice s.nor.mem offset data ∧ mism = 0 ∧
      ∀ p ∈ s'.nor.programs, p ∈ s.nor.programs ∨
        p.1 % flashGeometry.page + p.2 ≤ flashGeometry.page := by
  obtain ⟨hmism, hleaves⟩ := (pwFlashProgram_post (E := True) (fun _ => trivial) (fun _ => trivial)
    (Leaves.refl hengine hflash)).of_eq_ok hrun
  exact ⟨hleaves.mem, hmism, hleaves.programs⟩

/-- An environment in which nothing fails, and waiting takes a few polls. -/
def quietEnv : SpiEnv :=
  { status := fun _ => none
    shifting := fun _ => 4
    writing := fun _ => 3
    scratch := fun _ => true }

/-- A card whose flash has at each address the low byte of the address. -/
def countedCard : SpiCard :=
  { txMem := fun _ => 0, rxMem := fun _ => 0, len := 0, busy := 0, accesses := 0
    nor := {
      mem := fun a => BitVec.ofNat 8 a, wel := false, busy := 0, writes := 0, programs := [] } }

/-- Forty bytes over the end of a sector: the bytes on both sides of them stay. -/
theorem flash_program_splices_sample : ∃ s',
    pwFlashProgram quietEnv 0x1FFF0 (List.replicate 40 0xA5) countedCard = .ok (0, s') ∧
      s'.nor.mem 0x1FFEF = 0xEF ∧ s'.nor.mem 0x1FFF0 = 0xA5 ∧ s'.nor.mem 0x20017 = 0xA5 ∧
        s'.nor.mem 0x20018 = 0x18 := by
  have hfair : quietEnv.Fair :=
    { status := fun _ => rfl
      shifting := fun _ => (by decide : 4 < 2000000)
      writing := fun _ => (by decide : 3 < 4000000)
      scratch := fun _ => rfl }
  obtain ⟨s', hrun⟩ := flash_program_succeeds hfair countedCard 0x1FFF0
    (List.replicate 40 0xA5) rfl rfl (by decide) (by decide)
  have hmem := (flash_program_splices quietEnv countedCard s' 0x1FFF0 (List.replicate 40 0xA5) 0
    rfl rfl hrun).1
  refine ⟨s', hrun, ?_⟩
  rw [hmem]
  decide

end PacketWyrm
