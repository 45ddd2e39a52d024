import PacketWyrm.FlowCompiler
import PacketWyrm.CsrFull
import PacketWyrm.Lib.Clocked
import Mathlib.Data.List.FinRange

/-!
# Latency corrections

A 64-bit latency correction reaches a card as two bus writes: the low word is staged in
one shadow register, and the high word commits it with the shadow to the slot of its own
address.  Two threads of the daemon issue such updates.  The servo thread goes over the
cross-card flows while it holds the servo lock.  The control thread primes all slots: for
a configuration load with the lock held, for a test that is started or armed without it.

## Main definitions

* `CorrRegs.write` — a bus write at the correction window.
* `servoLatCorrection`, `primeLatCorrection` — the updates of one pass.
* `CorrSystem.step` — the two threads, the lock and the cards.

## Main results

* `corrections_whole` — no correction is torn while no update begins within another one of
  the same card.
* `exclusive_of_locked` — passes that hold the lock keep to this.
* `started_test_tears_correction` — a test that is started does not.
-/

namespace PacketWyrm

open Lib

/-! ## The registers -/

/-- `REG_LAT_CORRECTION_BASE`. -/
def latCorrectionBase : ℕ := 0x0180

/-- The shadow of the low word and the table of the data plane. -/
structure CorrRegs where
  loShadow : BitVec 32 := 0
  latCorrTable : ℕ → BitVec 64 := fun _ => 0

namespace CorrRegs

variable (numFlows : ℕ) (s : CorrRegs) (w : CsrWrite)

/-- The address is in the window. -/
def hits : Bool :=
  decide (latCorrectionBase ≤ w.addr ∧ w.addr < latCorrectionBase + numFlows * 8)

/-- The offset in the window. -/
def off : ℕ := w.addr - latCorrectionBase

/-- `lat_corr_wr_en`: the slot and the data that a write commits. -/
def commit : Option (ℕ × BitVec 64) :=
  if hits numFlows w && (off w).testBit 2 then some (off w / 8, w.data ++ s.loShadow) else none

/-- One write. -/
def write : CorrRegs :=
  { loShadow := if hits numFlows w && !(off w).testBit 2 then w.data else s.loShadow
    latCorrTable :=
      match s.commit numFlows w with
      | some (slot, d) => Function.update s.latCorrTable slot d
      | none => s.latCorrTable }

end CorrRegs

/-! ## The updates -/

/-- A correction that a thread has computed for a slot of a card. -/
structure CorrUpdate where
  card : ℕ
  slot : ℕ
  corr : BitVec 64
  deriving DecidableEq, Repr

namespace CorrUpdate

variable (u : CorrUpdate)

/-- The low word. -/
def lo : BitVec 32 := u.corr.setWidth 32

/-- The write that stages the low word. -/
def loWrite : CsrWrite := ⟨latCorrectionBase + u.slot * 8, u.lo⟩

/-- The write that commits. -/
def hiWrite : CsrWrite := ⟨latCorrectionBase + u.slot * 8 + 4, (u.corr >>> 32).setWidth 32⟩

end CorrUpdate

/-- `pw_gpio_sync_write_correction`: an update of a slot that the table has. -/
def writeCorrection (card : ℕ) (slot : BitVec 32) (corr : BitVec 64) : List CorrUpdate :=
  if flowTableRows ≤ slot.toNat then [] else [⟨card, slot.toNat, corr⟩]

/-- `card_idx_by_id`. -/
def cardIdxById (cfg : PwConfig) (id : BitVec 16) : Option ℕ :=
  cfg.cards.findIdx? fun c => c.id == id

/-- What a pass reads besides the program: the open cards, `g_xcard_lat_cal_ticks`, and
the coherent offset that the tries of each flow found. -/
structure CorrReads where
  isOpen : ℕ → Bool
  calTicks : BitVec 32 := 0
  offset : ℕ → Option (BitVec 64)

/-- `xcard_cal_bias`. -/
def xcardCalBias (calTicks : BitVec 32) (m : PwFlowMeta) : BitVec 64 :=
  if calTicks = 0 ∨ m.txCardId = m.rxCardId then 0
  else if m.txCardId < m.rxCardId then calTicks.signExtend 64
  else -calTicks.signExtend 64

/-- The update of a cross-card flow. -/
def crossCorrection (cfg : PwConfig) (r : CorrReads) (m : PwFlowMeta) (i : ℕ) : List CorrUpdate :=
  match cardIdxById cfg m.rxCardId, cardIdxById cfg m.txCardId with
  | some rxCi, some txCi =>
    if r.isOpen rxCi && r.isOpen txCi then
      match r.offset i with
      | some corr => writeCorrection rxCi m.rxLocalFlowId (corr + xcardCalBias r.calTicks m)
      | none => []
    else []
  | _, _ => []

/-- `servo_lat_correction`: the cross-card flows. -/
def servoLatCorrection (cfg : PwConfig) (prog : PwProgram) (r : CorrReads) : List CorrUpdate :=
  prog.flowMeta.zipIdx.flatMap fun (m, i) =>
    if !m.rxSlotValid || m.txCardId == m.rxCardId then [] else crossCorrection cfg r m i

/-- `prime_lat_correction`: the flows within a card too, whose correction is zero. -/
def primeLatCorrection (cfg : PwConfig) (prog : PwProgram) (r : CorrReads) : List CorrUpdate :=
  prog.flowMeta.zipIdx.flatMap fun (m, i) =>
    if !m.rxSlotValid then []
    else if m.txCardId == m.rxCardId then
      match cardIdxById cfg m.rxCardId with
      | some rxCi => if r.isOpen rxCi then writeCorrection rxCi m.rxLocalFlowId 0 else []
      | none => []
    else crossCorrection cfg r m i

/-! ## The two threads -/

/-- The threads that write corrections. -/
inductive CorrThread where
  | servo
  | rpc
  deriving DecidableEq, Repr

/-- The thread beside this one. -/
def CorrThread.other : CorrThread → CorrThread
  | servo => rpc
  | rpc => servo

/-- The rest of a thread's pass; `half` when the low word of its first update is staged. -/
structure CorrPass where
  todo : List CorrUpdate := []
  half : Bool := false
  deriving DecidableEq, Repr

namespace CorrPass

/-- The update that is half written. -/
def opened (p : CorrPass) : Option CorrUpdate := if p.half then p.todo.head? else none

/-- The next write, with the update it is part of. -/
def next (p : CorrPass) : Option (CorrUpdate × CsrWrite) :=
  p.todo.head?.map fun u => (u, if p.half then u.hiWrite else u.loWrite)

/-- The pass after its next write. -/
def advance (p : CorrPass) : CorrPass :=
  match p.todo with
  | [] => p
  | _ :: r => if p.half then { todo := r, half := false } else { p with half := true }

end CorrPass

/-- What the threads can do next.  The reads of a pass are given when it begins. -/
inductive CorrAction where
  /-- The servo takes the lock and begins a pass. -/
  | servoPass (r : CorrReads)
  /-- `test.start` or `test.arm` primes. -/
  | primeTest (r : CorrReads)
  /-- `config.load` takes the lock and primes for the new program; if it failed to stage
  it, it primes for the old one again. -/
  | load (cfg : PwConfig) (prog : PwProgram) (failed : Bool) (r r' : CorrReads)
  /-- A thread issues its next write. -/
  | write (t : CorrThread)
  /-- A thread that has no more to write ends its pass and gives the lock back. -/
  | finish (t : CorrThread)

/-- The daemon's program, the lock and the cards, with what was computed and what was
committed so far. -/
structure CorrSystem where
  cfg : PwConfig
  prog : PwProgram
  loading : Option (PwConfig × PwProgram) := none
  lock : Option CorrThread := none
  pass : CorrThread → CorrPass := fun _ => {}
  regs : ℕ → CorrRegs := fun _ => {}
  computed : List CorrUpdate := []
  commits : List CorrUpdate := []

namespace CorrSystem

variable (numFlows : ℕ) (s : CorrSystem)

/-- A thread has nothing to write. -/
def idle (t : CorrThread) : Bool := (s.pass t).todo.isEmpty

/-- A thread begins a pass. -/
def begin (t : CorrThread) (us : List CorrUpdate) : CorrSystem :=
  { s with
    pass := Function.update s.pass t { todo := us }
    computed := s.computed ++ us }

/-- A thread issues its next write. -/
def issue (t : CorrThread) : CorrSystem :=
  match (s.pass t).next with
  | none => s
  | some (u, w) =>
    { s with
      pass := Function.update s.pass t (s.pass t).advance
      regs := Function.update s.regs u.card ((s.regs u.card).write numFlows w)
      commits := s.commits ++
        (((s.regs u.card).commit numFlows w).map fun x => ⟨u.card, x.1, x.2⟩).toList }

/-- One step of the daemon; what the lock does not permit does nothing. -/
def step (a : CorrAction) : CorrSystem :=
  match a with
  | .servoPass r =>
    if s.lock.isNone && s.idle .servo then
      { s.begin .servo (servoLatCorrection s.cfg s.prog r) with lock := some .servo }
    else s
  | .primeTest r =>
    if s.lock ≠ some .rpc ∧ s.idle .rpc then s.begin .rpc (primeLatCorrection s.cfg s.prog r) else s
  | .load cfg prog failed r r' =>
    if s.lock.isNone && s.idle .rpc then
      { s.begin .rpc (primeLatCorrection cfg prog r ++
          if failed then primeLatCorrection s.cfg s.prog r' else []) with
        lock := some .rpc
        loading := if failed then none else some (cfg, prog) }
    else s
  | .write t => s.issue numFlows t
  | .finish t =>
    if s.lock = some t ∧ s.idle t then
      { s with
        lock := none
        cfg := (s.loading.map Prod.fst).getD s.cfg
        prog := (s.loading.map Prod.snd).getD s.prog
        loading := none }
    else s

end CorrSystem

/-! ## The writes of one update -/

namespace CorrUpdate

variable (numFlows : ℕ) (u : CorrUpdate)

@[simp] theorem data_loWrite : u.loWrite.data = u.lo := rfl

@[simp] theorem off_loWrite : CorrRegs.off u.loWrite = u.slot * 8 := Nat.add_sub_cancel_left ..

@[simp] theorem off_hiWrite : CorrRegs.off u.hiWrite = u.slot * 8 + 4 := by
  simp only [CorrRegs.off, hiWrite]
  omega

@[simp] theorem hits_loWrite : CorrRegs.hits numFlows u.loWrite = decide (u.slot < numFlows) := by
  simp only [CorrRegs.hits, loWrite]
  congr 1
  apply propext
  omega

@[simp] theorem hits_hiWrite : CorrRegs.hits numFlows u.hiWrite = decide (u.slot < numFlows) := by
  simp only [CorrRegs.hits, hiWrite]
  congr 1
  apply propext
  omega

@[simp] theorem testBit_lo : (u.slot * 8).testBit 2 = false := by
  rw [Nat.testBit_eq_decide_div_mod_eq, decide_eq_false_iff_not]
  omega

@[simp] theorem testBit_hi : (u.slot * 8 + 4).testBit 2 = true := by
  rw [Nat.testBit_eq_decide_div_mod_eq, decide_eq_true_iff]
  omega

theorem hi_append_lo : ((u.corr >>> 32).setWidth 32 : BitVec 32) ++ u.lo = u.corr := by
  apply BitVec.eq_of_getElem_eq
  intro i hi
  rw [BitVec.getElem_append]
  split
  · rw [lo, BitVec.getElem_setWidth, BitVec.getLsbD_eq_getElem hi]
  · simp only [BitVec.getElem_setWidth, BitVec.getLsbD_ushiftRight]
    rw [show 32 + (i - 32) = i by omega, BitVec.getLsbD_eq_getElem hi]

/-- The low word is staged. -/
theorem write_loWrite (s : CorrRegs) :
    s.write numFlows u.loWrite = if u.slot < numFlows then { s with loShadow := u.lo } else s := by
  by_cases h : u.slot < numFlows
  · simp [CorrRegs.write, CorrRegs.commit, h]
  · simp [CorrRegs.write, CorrRegs.commit, h]

@[simp] theorem commit_loWrite (s : CorrRegs) : s.commit numFlows u.loWrite = none := by
  simp [CorrRegs.commit]

/-- The high word commits with what is staged. -/
theorem commit_hiWrite (s : CorrRegs) :
    s.commit numFlows u.hiWrite =
      if u.slot < numFlows then some (u.slot, (u.corr >>> 32).setWidth 32 ++ s.loShadow)
      else none := by
  simp only [CorrRegs.commit, hits_hiWrite, off_hiWrite, testBit_hi, Bool.and_true,
    decide_eq_true_eq]
  rw [show (u.slot * 8 + 4) / 8 = u.slot by omega]
  rfl

@[simp] theorem loShadow_write_hiWrite (s : CorrRegs) :
    (s.write numFlows u.hiWrite).loShadow = s.loShadow := by
  simp [CorrRegs.write]

theorem latCorrTable_write_hiWrite (s : CorrRegs) :
    (s.write numFlows u.hiWrite).latCorrTable =
      if u.slot < numFlows then
        Function.update s.latCorrTable u.slot ((u.corr >>> 32).setWidth 32 ++ s.loShadow)
      else s.latCorrTable := by
  rw [CorrRegs.write, commit_hiWrite]
  by_cases h : u.slot < numFlows
  · rw [if_pos h, if_pos h]
  · rw [if_neg h, if_neg h]

end CorrUpdate

/-! ## One step of the daemon -/

namespace CorrPass

variable {p : CorrPass} {u : CorrUpdate} {r : List CorrUpdate}

theorem opened_advance_lo (htodo : p.todo = u :: r) (hhalf : p.half = false) :
    p.advance.opened = some u := by
  simp [advance, opened, htodo, hhalf]

theorem opened_advance_hi (htodo : p.todo = u :: r) (hhalf : p.half = true) :
    p.advance.opened = none := by
  simp [advance, opened, htodo, hhalf]

theorem mem_todo_advance (h : u ∈ p.advance.todo) : u ∈ p.todo := by
  rw [advance] at h
  split at h
  · exact h
  · rename_i htodo
    split at h
    · rw [htodo]
      exact List.mem_cons_of_mem _ h
    · exact h

end CorrPass

namespace CorrSystem

variable {numFlows : ℕ} {s : CorrSystem} {t : CorrThread} {u : CorrUpdate} {r : List CorrUpdate}

/-- A thread writes a low word. -/
theorem issue_lo (htodo : (s.pass t).todo = u :: r) (hhalf : (s.pass t).half = false) :
    s.issue numFlows t =
      { s with
        pass := Function.update s.pass t (s.pass t).advance
        regs := Function.update s.regs u.card ((s.regs u.card).write numFlows u.loWrite) } := by
  simp [issue, CorrPass.next, htodo, hhalf]

/-- A thread writes a high word. -/
theorem issue_hi (htodo : (s.pass t).todo = u :: r) (hhalf : (s.pass t).half = true) :
    s.issue numFlows t =
      { s with
        pass := Function.update s.pass t (s.pass t).advance
        regs := Function.update s.regs u.card ((s.regs u.card).write numFlows u.hiWrite)
        commits := s.commits ++
          if u.slot < numFlows then
            [⟨u.card, u.slot, (u.corr >>> 32).setWidth 32 ++ (s.regs u.card).loShadow⟩]
          else [] } := by
  simp only [issue, CorrPass.next, htodo, hhalf, List.head?_cons, Option.map_some, if_true,
    CorrUpdate.commit_hiWrite]
  split <;> rfl

/-- **The condition on a step**: a thread stages a low word only while the other one has
no update of the same card half written, or one with the same low word. -/
def Exclusive (numFlows : ℕ) (s : CorrSystem) : CorrAction → Prop
  | .write t =>
    (s.pass t).half = false → ∀ u ∈ (s.pass t).todo.head?, u.slot < numFlows →
      ∀ u' ∈ (s.pass t.other).opened, u'.slot < numFlows → u'.card = u.card → u'.lo = u.lo
  | _ => True

/-- What holds in every state: the shadow of a card is the low word of each update that is
half written there. -/
structure Inv (numFlows : ℕ) (s : CorrSystem) : Prop where
  todo : ∀ t, ∀ u ∈ (s.pass t).todo, u ∈ s.computed
  staged : ∀ t, ∀ u ∈ (s.pass t).opened, u.slot < numFlows → (s.regs u.card).loShadow = u.lo
  commits : ∀ x ∈ s.commits, x ∈ s.computed
  table : ∀ c slot, (s.regs c).latCorrTable slot = 0 ∨
    ⟨c, slot, (s.regs c).latCorrTable slot⟩ ∈ s.commits

theorem other_of_ne {t t' : CorrThread} (h : t' ≠ t) : t' = t.other := by
  cases t <;> cases t' <;> first | rfl | exact absurd rfl h

namespace Inv

/-- A new pass computes what it will write. -/
theorem begin (h : s.Inv numFlows) (us : List CorrUpdate) : (s.begin t us).Inv numFlows where
  todo t' u hu := by
    simp only [CorrSystem.begin, Function.update_apply] at hu ⊢
    rw [List.mem_append]
    split at hu
    · exact Or.inr hu
    · exact Or.inl (h.todo t' u hu)
  staged t' u hu := by
    simp only [CorrSystem.begin, Function.update_apply] at hu ⊢
    split at hu
    · cases hu
    · exact h.staged t' u hu
  commits x hx := List.mem_append_left _ (h.commits x hx)
  table := h.table

theorem mem_todo_update (h : s.Inv numFlows) {t' : CorrThread} {v : CorrUpdate}
    (hv : v ∈ (Function.update s.pass t (s.pass t).advance t').todo) : v ∈ s.computed := by
  rw [Function.update_apply] at hv
  split at hv
  · exact h.todo t v (CorrPass.mem_todo_advance hv)
  · exact h.todo t' v hv

/-- A low word is staged. -/
theorem issue_lo (h : s.Inv numFlows) (htodo : (s.pass t).todo = u :: r)
    (hhalf : (s.pass t).half = false) (hex : s.Exclusive numFlows (.write t)) :
    (s.issue numFlows t).Inv numFlows := by
  have hlast : ∀ t', ∀ v ∈ (Function.update s.pass t (s.pass t).advance t').opened,
      v.slot < numFlows → v.card = u.card → u.slot < numFlows → v.lo = u.lo := by
    intro t' v hv hvslot hcard hslot
    rw [Function.update_apply] at hv
    split at hv
    · rw [CorrPass.opened_advance_lo htodo hhalf] at hv
      cases hv
      rfl
    · rename_i hne
      rw [other_of_ne hne] at hv
      exact hex hhalf u (by rw [htodo]; rfl) hslot v hv hvslot hcard
  have hmono : ∀ t', ∀ v ∈ (Function.update s.pass t (s.pass t).advance t').opened,
      v.slot < numFlows → (v.card = u.card → ¬ u.slot < numFlows) →
        (s.regs v.card).loShadow = v.lo := by
    intro t' v hv hvslot hout
    rw [Function.update_apply] at hv
    split at hv
    · rw [CorrPass.opened_advance_lo htodo hhalf] at hv
      cases hv
      exact absurd hvslot (hout rfl)
    · exact h.staged t' v hv hvslot
  rw [CorrSystem.issue_lo htodo hhalf]
  refine ⟨fun t' v hv => h.mem_todo_update hv, ?_, h.commits, ?_⟩
  · intro t' v hv hvslot
    dsimp only at hv ⊢
    rw [Function.update_apply]
    split
    · rename_i hcard
      rw [CorrUpdate.write_loWrite]
      split
      · rename_i hslot
        exact (hlast t' v hv hvslot hcard hslot).symm
      · rename_i hslot
        rw [← hcard]
        exact hmono t' v hv hvslot fun _ => hslot
    · rename_i hcard
      exact hmono t' v hv hvslot fun hc => absurd hc hcard
  · intro c slot
    have htable : (Function.update s.regs u.card ((s.regs u.card).write numFlows u.loWrite)
        c).latCorrTable = (s.regs c).latCorrTable := by
      rw [Function.update_apply]
      split
      · rename_i hc
        rw [CorrUpdate.write_loWrite, hc]
        split <;> rfl
      · rfl
    rw [htable]
    exact h.table c slot

/-- The high word commits the update that it is part of. -/
theorem issue_hi (h : s.Inv numFlows) (htodo : (s.pass t).todo = u :: r)
    (hhalf : (s.pass t).half = true) : (s.issue numFlows t).Inv numFlows := by
  have hopened : (s.pass t).opened = some u := by
    rw [CorrPass.opened, if_pos hhalf, htodo]
    rfl
  have hwhole : u.slot < numFlows →
      ((u.corr >>> 32).setWidth 32 : BitVec 32) ++ (s.regs u.card).loShadow = u.corr := by
    intro hslot
    rw [h.staged t u hopened hslot, CorrUpdate.hi_append_lo]
  rw [CorrSystem.issue_hi htodo hhalf]
  refine ⟨fun t' v hv => h.mem_todo_update hv, ?_, ?_, ?_⟩
  · intro t' v hv hvslot
    have hshadow : (Function.update s.regs u.card ((s.regs u.card).write numFlows u.hiWrite)
        v.card).loShadow = (s.regs v.card).loShadow := by
      rw [Function.update_apply]
      split
      · rename_i hc
        rw [CorrUpdate.loShadow_write_hiWrite, hc]
      · rfl
    dsimp only at hv ⊢
    rw [hshadow]
    rw [Function.update_apply] at hv
    split at hv
    · rw [CorrPass.opened_advance_hi htodo hhalf] at hv
      cases hv
    · exact h.staged t' v hv hvslot
  · intro x hx
    rw [List.mem_append] at hx
    cases hx with
    | inl hx => exact h.commits x hx
    | inr hx =>
      split at hx
      · rename_i hslot
        rw [List.mem_singleton, hwhole hslot] at hx
        rw [hx]
        exact h.todo t u (by rw [htodo]; exact List.mem_cons_self)
      · cases hx
  · intro c slot
    dsimp only
    rw [Function.update_apply]
    split
    · rename_i hc
      subst hc
      rw [CorrUpdate.latCorrTable_write_hiWrite]
      split
      · rw [Function.update_apply]
        split
        · rename_i hs
          rw [hs]
          exact Or.inr (List.mem_append_right _ (List.mem_singleton_self _))
        · exact (h.table _ slot).imp_right (List.mem_append_left _)
      · exact (h.table _ slot).imp_right (List.mem_append_left _)
    · exact (h.table c slot).imp_right (List.mem_append_left _)

/-- **One step keeps the invariant**, on the condition. -/
theorem step (h : s.Inv numFlows) {a : CorrAction} (hex : s.Exclusive numFlows a) :
    (s.step numFlows a).Inv numFlows := by
  cases a with
  | servoPass reads =>
    rw [CorrSystem.step]
    split
    · have hb := h.begin (t := .servo) (servoLatCorrection s.cfg s.prog reads)
      exact ⟨hb.todo, hb.staged, hb.commits, hb.table⟩
    · exact h
  | primeTest reads =>
    rw [CorrSystem.step]
    split
    · exact h.begin _
    · exact h
  | load cfg prog failed reads reads' =>
    rw [CorrSystem.step]
    split
    · have hb := h.begin (t := .rpc) (primeLatCorrection cfg prog reads ++
        if failed then primeLatCorrection s.cfg s.prog reads' else [])
      exact ⟨hb.todo, hb.staged, hb.commits, hb.table⟩
    · exact h
  | write t =>
    rw [CorrSystem.step]
    cases htodo : (s.pass t).todo with
    | nil =>
      rw [issue, CorrPass.next, htodo]
      exact h
    | cons u r =>
      cases hhalf : (s.pass t).half with
      | false => exact h.issue_lo htodo hhalf hex
      | true => exact h.issue_hi htodo hhalf
  | finish t =>
    rw [CorrSystem.step]
    split
    · exact ⟨h.todo, h.staged, h.commits, h.table⟩
    · exact h

end Inv

/-- Nothing is computed or written yet. -/
structure Fresh (s : CorrSystem) : Prop where
  idle : ∀ t, (s.pass t).todo = []
  lock : s.lock = none
  loading : s.loading = none
  table : ∀ c slot, (s.regs c).latCorrTable slot = 0
  commits : s.commits = []

theorem Fresh.inv (h : s.Fresh) : s.Inv numFlows where
  todo t u hu := by
    rw [h.idle t] at hu
    cases hu
  staged t u hu := by
    rw [Option.mem_def, CorrPass.opened, h.idle t] at hu
    split at hu <;> cases hu
  commits x hx := by
    rw [h.commits] at hx
    cases hx
  table c slot := Or.inl (h.table c slot)

instance (a : CorrAction) : Decidable (s.Exclusive numFlows a) :=
  match a with
  | .write _ => inferInstanceAs (Decidable (_ → ∀ _ ∈ _, _ → ∀ _ ∈ _, _ → _ → _))
  | .servoPass _ | .primeTest _ | .load .. | .finish _ => isTrue trivial

/-! ## Passes that hold the lock -/

/-- Only the holder of the lock has something to write. -/
def Locked (s : CorrSystem) : Prop := ∀ t, (s.pass t).todo ≠ [] → s.lock = some t

theorem Locked.exclusive (h : s.Locked) (a : CorrAction) : s.Exclusive numFlows a := by
  cases a with
  | write t =>
    intro _ u hu _ u' hu' _ _
    have hlock : s.lock = some t := h t fun hnil => by
      rw [hnil] at hu
      cases hu
    have hlock' : s.lock = some t.other := h t.other fun hnil => by
      rw [Option.mem_def, CorrPass.opened, hnil] at hu'
      split at hu' <;> cases hu'
    rw [hlock] at hlock'
    cases t <;> cases hlock'
  | servoPass reads => trivial
  | primeTest reads => trivial
  | load cfg prog failed reads reads' => trivial
  | finish t => trivial

/-- A pass that begins with the lock free has it to itself. -/
theorem Locked.begin (h : s.Locked) (hfree : s.lock = none) (us : List CorrUpdate) (t' : CorrThread)
    (ht' : ((s.begin t us).pass t').todo ≠ []) : t' = t := by
  simp only [CorrSystem.begin, Function.update_apply] at ht'
  split at ht'
  · assumption
  · have hlock := h t' ht'
    rw [hfree] at hlock
    cases hlock

/-- A thread that takes the free lock and begins a pass keeps the rule. -/
theorem Locked.begun (h : s.Locked) (hfree : s.lock = none) {s' : CorrSystem}
    {us : List CorrUpdate} (hpass : s'.pass = (s.begin t us).pass) (hlock : s'.lock = some t) :
    s'.Locked := by
  intro t' ht'
  rw [hpass] at ht'
  rw [h.begin hfree us t' ht', hlock]

theorem Locked.step (h : s.Locked) {a : CorrAction} (ha : ∀ reads, a ≠ .primeTest reads) :
    (s.step numFlows a).Locked := by
  cases a with
  | servoPass reads =>
    rw [CorrSystem.step]
    split
    · rename_i hcond
      rw [Bool.and_eq_true, Option.isNone_iff_eq_none] at hcond
      exact h.begun hcond.1 rfl rfl
    · exact h
  | primeTest reads => exact absurd rfl (ha reads)
  | load cfg prog failed reads reads' =>
    rw [CorrSystem.step]
    split
    · rename_i hcond
      rw [Bool.and_eq_true, Option.isNone_iff_eq_none] at hcond
      exact h.begun hcond.1 rfl rfl
    · exact h
  | write t =>
    rw [CorrSystem.step, issue]
    split
    · exact h
    · intro t' ht'
      refine h t' fun hnil => ht' ?_
      dsimp only
      rw [Function.update_apply]
      split
      · rename_i hs
        rw [← hs, CorrPass.advance, hnil]
        exact hnil
      · exact hnil
  | finish t =>
    rw [CorrSystem.step]
    split
    · rename_i hcond
      intro t' ht'
      have hlock := h t' ht'
      rw [hcond.1, Option.some.injEq] at hlock
      rw [idle, List.isEmpty_iff] at hcond
      exact absurd (hlock ▸ hcond.2) ht'
    · exact h

/-- **The lock is enough**: the servo and configuration loads never meet within an update. -/
theorem exclusive_of_locked (h : s.Locked) {actions : List CorrAction}
    (ha : ∀ a ∈ actions, ∀ reads, a ≠ .primeTest reads) :
    Follows (Exclusive numFlows) (CorrSystem.step numFlows) s actions := by
  refine Follows.of_invariant (I := Locked) (A := fun a => ∀ reads, a ≠ .primeTest reads) ?_ h ha
  intro s a ha h
  exact ⟨h.exclusive a, h.step ha⟩

end CorrSystem

/-- What was committed, and what the tables hold, was computed for its slot. -/
def CorrSystem.Whole (s : CorrSystem) : Prop :=
  (∀ x ∈ s.commits, x ∈ s.computed) ∧
    ∀ c slot, (s.regs c).latCorrTable slot = 0 ∨
      ⟨c, slot, (s.regs c).latCorrTable slot⟩ ∈ s.computed

/-- **No correction is torn or given to another slot** in a run in which no low word is
staged within an update of the other thread on the same card, unless it is the same. -/
theorem corrections_whole (numFlows : ℕ) {s : CorrSystem} (hs : s.Fresh) {actions : List CorrAction}
    (hrun : Follows (CorrSystem.Exclusive numFlows) (CorrSystem.step numFlows) s actions) :
    (run (CorrSystem.step numFlows) s actions).Whole := by
  have h : (run (CorrSystem.step numFlows) s actions).Inv numFlows :=
    hrun.invariant (fun s a hex h => CorrSystem.Inv.step h hex) hs.inv
  refine ⟨h.commits, ?_⟩
  intro c slot
  exact (h.table c slot).imp_right (h.commits _)

/-! ## A test that is started

Two cards with one flow from the first to the second, which both threads correct. -/

/-- The daemon with one cross-card flow on slot 3. -/
def sampleCorrSystem : CorrSystem :=
  { cfg := { cards := [{ id := 0 }, { id := 1 }] }
    prog :=
      { flowMeta :=
          [{ globalFlowId := 1, txCardId := 0, rxCardId := 1, txLocalFlowId := 0, rxLocalFlowId := 3
             latencyValid := true, rxSlotValid := true }] } }

/-- A pass finds this offset. -/
def sampleReads (corr : BitVec 64) : CorrReads :=
  { isOpen := fun _ => true, offset := fun _ => some corr }

theorem sampleCorrSystem_fresh : sampleCorrSystem.Fresh :=
  ⟨fun _ => rfl, rfl, rfl, fun _ _ => rfl, rfl⟩

/-- A servo pass, and then a test that is started. -/
theorem corrections_whole_sample :
    (run (CorrSystem.step 8) sampleCorrSystem
      [.servoPass (sampleReads 0x100000000), .write .servo, .write .servo, .finish .servo,
        .primeTest (sampleReads 0xFFFFFFFF), .write .rpc, .write .rpc]).Whole ∧
    (run (CorrSystem.step 8) sampleCorrSystem
      [.servoPass (sampleReads 0x100000000), .write .servo, .write .servo, .finish .servo,
        .primeTest (sampleReads 0xFFFFFFFF), .write .rpc, .write .rpc]).commits =
      [⟨1, 3, 0x100000000⟩, ⟨1, 3, 0xFFFFFFFF⟩] :=
  ⟨corrections_whole 8 sampleCorrSystem_fresh (by decide +kernel), by decide +kernel⟩

/-- **A test that is started tears the servo's correction**: its low word comes between the
two writes of the servo, which holds the lock.  The offset goes from `0xFFFFFFFF` to
`0x100000000` ticks, and the slot is left with nearly twice that. -/
theorem started_test_tears_correction :
    (run (CorrSystem.step 8) sampleCorrSystem
      [.servoPass (sampleReads 0x100000000), .write .servo, .primeTest (sampleReads 0xFFFFFFFF),
        .write .rpc, .write .servo]).commits = [⟨1, 3, 0x1FFFFFFFF⟩] ∧
    ¬ (run (CorrSystem.step 8) sampleCorrSystem
      [.servoPass (sampleReads 0x100000000), .write .servo, .primeTest (sampleReads 0xFFFFFFFF),
        .write .rpc, .write .servo]).Whole := by
  refine ⟨by decide +kernel, ?_⟩
  intro h
  have hcommit := h.1 ⟨1, 3, 0x1FFFFFFFF⟩ (by decide +kernel)
  revert hcommit
  decide +kernel

end PacketWyrm
