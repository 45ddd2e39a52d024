import PacketWyrm.Lib.Threads
import Mathlib.Algebra.GroupWithZero.Nat
import Mathlib.Data.List.Induction
import Mathlib.Tactic.Common

/-!
# Cross-card time sync

The time stamp counters of two cards run free.  A shared edge makes every card latch its
own counter and count the edge (`pw_gpio_sync`), and the host takes the difference of what
two cards have latched.  It reads a stamp as two words: the read of the low word keeps the
high word in a register of the card, which every reader of the card shares.

## Main definitions

* `GpioSync` — the sync block of a card, `SyncCard` — with the register of the high word.
* `pwGpioSyncOffsetCoherent` — the host's read of the offset of two cards.
* `SyncSystem.edges` — the stamps that two cards latched at their shared edges.

## Main results

* `SyncSystem.Pending.ts` — a stamp that is read with no edge in between is whole.
* `offset_edge_coherent` — an offset that is returned is of one edge.
-/

namespace PacketWyrm

open Lib

/-! ## The sync block -/

/-- The inputs of a cycle. -/
structure GpioSyncIn (n : ℕ) where
  timestamp : BitVec 64
  gpio : BitVec n
  ctrl : BitVec 32

/-- The registers of `pw_gpio_sync` with `n` pins. -/
structure GpioSync (n : ℕ) where
  giS1 : BitVec n := 0
  giS2 : BitVec n := 0
  giD : BitVec n := 0
  perCnt : BitVec 32 := 0
  mTick : Bool := false
  pulseCnt : BitVec 5 := 0
  pulseActive : Bool := false
  pulseActiveQ : Bool := false
  syncTs : BitVec 64 := 0
  syncSeq : BitVec 32 := 0

namespace GpioSyncIn

variable {n : ℕ} (i : GpioSyncIn n)

/-- `ctrl_i[0]`. -/
def en : Bool := i.ctrl.getLsbD 0

/-- `ctrl_i[1]`: this card originates the pulse. -/
def master : Bool := i.ctrl.getLsbD 1

/-- `ctrl_i[2]`: this card forwards it. -/
def repeatEn : Bool := i.ctrl.getLsbD 2

/-- `ctrl_i[6:4]`. -/
def inSel : ℕ := (i.ctrl.extractLsb' 4 3).toNat

/-- `ctrl_i[19:16]`. -/
def perLog2 : BitVec 4 := i.ctrl.extractLsb' 16 4

/-- The selected pin exists. -/
def inOk : Bool := decide (i.inSel < n)

/-- `in_idx`. -/
def inIdx : ℕ := if i.inOk then i.inSel else 0

/-- `per_eff`: the pulse is 16 cycles high and needs as many low ones. -/
def perEff : BitVec 4 := if i.perLog2 < 5 then 5 else i.perLog2

/-- The last count of a period. -/
def perLast : BitVec 32 := ((1 : BitVec 32) <<< i.perEff.toNat) - 1

end GpioSyncIn

namespace GpioSync

variable {n : ℕ} (g : GpioSync n) (i : GpioSyncIn n)

/-- The sync input rises behind the synchronisers. -/
def syncInRise : Bool :=
  (i.inOk && g.giS2.getLsbD i.inIdx) && !(i.inOk && g.giD.getLsbD i.inIdx)

/-- `out_trigger`: a pulse starts. -/
def outTrigger : Bool := (i.en && i.master && g.mTick) || (i.en && i.repeatEn && g.syncInRise i)

/-- The first cycle in which the pad is high. -/
def pulseRise : Bool := g.pulseActive && !g.pulseActiveQ

/-- The edge: the rise of the own pad of a master, of the sync input otherwise. -/
def capture : Bool := i.en && ((i.master && g.pulseRise) || (!i.master && g.syncInRise i))

/-- One cycle. -/
def step : GpioSync n where
  giS1 := i.gpio
  giS2 := g.giS1
  giD := g.giS2
  perCnt := if i.en && i.master then (if i.perLast ≤ g.perCnt then 0 else g.perCnt + 1) else 0
  mTick := i.en && i.master && decide (i.perLast ≤ g.perCnt)
  pulseCnt :=
    if g.outTrigger i then 16 else if g.pulseActive then g.pulseCnt - 1 else g.pulseCnt
  pulseActive :=
    if g.outTrigger i then true else if g.pulseActive then !decide (g.pulseCnt ≤ 1) else false
  pulseActiveQ := g.pulseActive
  -- the counter is read and not disturbed
  syncTs := if g.capture i then i.timestamp else g.syncTs
  syncSeq := if g.capture i then g.syncSeq + 1 else g.syncSeq

end GpioSync

/-! ## The registers that the host reads -/

/-- `REG_GPIO_SYNC_TS_LOW`, `REG_GPIO_SYNC_TS_HIGH` and `REG_GPIO_SYNC_SEQ`. -/
inductive GpioSyncReg where
  | tsLow
  | tsHigh
  | seq
  deriving DecidableEq, Repr

/-- The sync block of a card with `gpio_sync_ts_high_latched`. -/
structure SyncCard (n : ℕ) where
  gpio : GpioSync n := {}
  tsHighLatched : BitVec 32 := 0

namespace SyncCard

variable {n : ℕ} (c : SyncCard n)

/-- The high word of the stamp that the card has latched. -/
def tsHigh : BitVec 32 := c.gpio.syncTs.extractLsb' 32 32

/-- A read of a register: the data, and the card after it. -/
def read : GpioSyncReg → BitVec 32 × SyncCard n
  | .tsLow => (c.gpio.syncTs.extractLsb' 0 32, { c with tsHighLatched := c.tsHigh })
  | .tsHigh => (c.tsHighLatched, c)
  | .seq => (c.gpio.syncSeq, c)

@[simp] theorem read_gpio (r : GpioSyncReg) : (c.read r).2.gpio = c.gpio := by
  cases r <;> rfl

/-- The kept high word belongs to the stamp. -/
def Latched : Prop := c.tsHighLatched = c.tsHigh

/-- Any read of a card leaves a high word that belongs to the stamp. -/
theorem Latched.read {c : SyncCard n} (h : c.Latched) (r : GpioSyncReg) : (c.read r).2.Latched := by
  cases r with
  | tsLow => rfl
  | tsHigh => exact h
  | seq => exact h

theorem latched_read_tsLow : (c.read .tsLow).2.Latched := rfl

end SyncCard

/-! ## The host -/

/-- A program of the host: it reads registers of cards. -/
abbrev SyncProg (C : Type) := Prog (C × GpioSyncReg) (BitVec 32)

section Host

variable {C : Type}

/-- `ops->read32` of a sync register of a card. -/
def syncRead32 (c : C) (r : GpioSyncReg) : SyncProg C (BitVec 32) := Prog.perform (c, r)

/-- `pw_gpio_sync_ts`. -/
def pwGpioSyncTs (c : C) : SyncProg C (BitVec 64) := do
  let lo ← syncRead32 c .tsLow
  let hi ← syncRead32 c .tsHigh
  pure (hi.setWidth 64 <<< 32 ||| lo.setWidth 64)

theorem pwGpioSyncTs_bind {α : Type} (c : C) (f : BitVec 64 → SyncProg C α) :
    pwGpioSyncTs c >>= f = syncRead32 c .tsLow >>= fun lo => syncRead32 c .tsHigh >>= fun hi =>
      f (hi.setWidth 64 <<< 32 ||| lo.setWidth 64) := rfl

/-- The tries that are left of `pw_gpio_sync_offset_coherent`: `none` is a return of false, a
value is `*offset` of a return of true. -/
def offsetCoherentTries (tx rx : C) : ℕ → SyncProg C (Option (BitVec 64))
  | 0 => pure none
  | tries + 1 => do
    let sTxA ← syncRead32 tx .seq
    let sRxA ← syncRead32 rx .seq
    let tsTx ← pwGpioSyncTs tx
    let tsRx ← pwGpioSyncTs rx
    let sTxB ← syncRead32 tx .seq
    let sRxB ← syncRead32 rx .seq
    -- an edge has been seen, and none fell between the reads
    if sTxA ≠ 0 ∧ sRxA ≠ 0 ∧ sTxA = sTxB ∧ sRxA = sRxB then
      pure (some (tsTx - tsRx))
    else
      offsetCoherentTries tx rx tries

/-- `pw_gpio_sync_offset_coherent`. -/
def pwGpioSyncOffsetCoherent (tx rx : C) : SyncProg C (Option (BitVec 64)) :=
  offsetCoherentTries tx rx 8

end Host

theorem or_halves (v : BitVec 64) :
    (v.extractLsb' 32 32).setWidth 64 <<< 32 ||| (v.extractLsb' 0 32).setWidth 64 = v := by
  apply BitVec.eq_of_getLsbD_eq
  intro j hj
  by_cases hlow : j < 32
  · simp [hlow, hj]
  · have hhigh : j - 32 < 32 := by omega
    have hadd : 32 + (j - 32) = j := by omega
    simp [hlow, hj, hhigh, hadd]

/-! ## Cards and callers -/

/-- A moment in which some of the cards have a clock edge, or an access of a caller. -/
abbrev SyncEvent (n : ℕ) (C K : Type) :=
  ThreadEvent K (C → Option (GpioSyncIn n)) (C × GpioSyncReg) (BitVec 32) (Option (BitVec 64))

/-- The cards and the callers. -/
abbrev SyncSystem (n : ℕ) (C K : Type) :=
  Threads K (C → SyncCard n) (C × GpioSyncReg) (BitVec 32) (Option (BitVec 64))

namespace SyncSystem

variable {n : ℕ} {C K : Type}

/-- The stamp that a card latches. -/
def stamp (c : C) (s : SyncSystem n C K) : SyncEvent n C K → Option (BitVec 64)
  | .env i => (i c).bind fun i => if (s.shared c).gpio.capture i then some i.timestamp else none
  | _ => none

/-- The stamps that two cards latch at an edge. -/
def edge (tx rx : C) (s : SyncSystem n C K) (e : SyncEvent n C K) :
    Option (BitVec 64 × BitVec 64) :=
  match s.stamp tx e, s.stamp rx e with
  | some a, some b => some (a, b)
  | _, _ => none

/-- What an event is for two cards with shared edges. -/
theorem edge_cases {tx rx : C} {s : SyncSystem n C K} {e : SyncEvent n C K}
    (h : (s.stamp tx e).isSome = (s.stamp rx e).isSome) :
    (edge tx rx s e = none ∧ s.stamp tx e = none ∧ s.stamp rx e = none) ∨
      ∃ a b, edge tx rx s e = some (a, b) ∧ s.stamp tx e = some a ∧ s.stamp rx e = some b := by
  unfold edge
  cases hx : s.stamp tx e with
  | none =>
    rw [hx] at h
    have hy : s.stamp rx e = none := by simpa using h.symm
    exact .inl ⟨rfl, rfl, hy⟩
  | some a =>
    rw [hx] at h
    obtain ⟨b, hb⟩ := Option.isSome_iff_exists.mp h.symm
    exact .inr ⟨a, b, by rw [hb], rfl, hb⟩

/-- A card has latched nothing between two moments. -/
structure Quiet (c : C) (s t : SyncSystem n C K) : Prop where
  syncTs : (t.shared c).gpio.syncTs = (s.shared c).gpio.syncTs
  syncSeq : (t.shared c).gpio.syncSeq = (s.shared c).gpio.syncSeq
  latched : (s.shared c).Latched → (t.shared c).Latched

namespace Quiet

variable {c : C} {s t u : SyncSystem n C K}

theorem of_eq (h : t.shared c = s.shared c) : Quiet c s t :=
  ⟨by rw [h], by rw [h], by rw [h]; exact id⟩

theorem trans (h : Quiet c s t) (h' : Quiet c t u) : Quiet c s u :=
  ⟨h'.syncTs.trans h.syncTs, h'.syncSeq.trans h.syncSeq, fun hl => h'.latched (h.latched hl)⟩

end Quiet

/-- A cycle of the cards that have a clock edge. -/
def clockCards (i : C → Option (GpioSyncIn n)) (cards : C → SyncCard n) (c : C) : SyncCard n :=
  match i c with
  | none => cards c
  | some i => { cards c with gpio := (cards c).gpio.step i }

variable [DecidableEq C]

/-- A read of a register of a card. -/
def readCard (o : C × GpioSyncReg) (cards : C → SyncCard n) : BitVec 32 × (C → SyncCard n) :=
  (((cards o.1).read o.2).1, Function.update cards o.1 ((cards o.1).read o.2).2)

@[simp] theorem readCard_self (o : C × GpioSyncReg) (cards : C → SyncCard n) :
    (readCard o cards).2 o.1 = ((cards o.1).read o.2).2 := Function.update_self ..

theorem readCard_of_ne {c : C} {o : C × GpioSyncReg} (h : c ≠ o.1) (cards : C → SyncCard n) :
    (readCard o cards).2 c = cards c := Function.update_of_ne h ..

/-- A read of any card is no edge. -/
theorem Quiet.of_read {c : C} {s t : SyncSystem n C K} {o : C × GpioSyncReg}
    (h : t.shared = (readCard o s.shared).2) : Quiet c s t := by
  by_cases hc : c = o.1
  · subst hc
    refine ⟨?_, ?_, fun hl => ?_⟩
    · rw [h, readCard_self, SyncCard.read_gpio]
    · rw [h, readCard_self, SyncCard.read_gpio]
    · rw [h, readCard_self]
      exact hl.read o.2
  · exact Quiet.of_eq (by rw [h, readCard_of_ne hc])

variable [DecidableEq K]

/-- One event. -/
def step : SyncSystem n C K → SyncEvent n C K → SyncSystem n C K :=
  Threads.step readCard clockCards

/-- After reset, with no call. -/
def reset : SyncSystem n C K where
  shared := fun _ => {}
  prog := fun _ => .ret none

/-- The edges of a run. -/
def edges (tx rx : C) : SyncSystem n C K → List (SyncEvent n C K) → List (BitVec 64 × BitVec 64) :=
  outputs (edge tx rx) step

/-- The edges of a run are edges of both cards at once. -/
def SharedEdges (tx rx : C) : SyncSystem n C K → List (SyncEvent n C K) → Prop :=
  Follows (fun s e => (s.stamp tx e).isSome = (s.stamp rx e).isSome) step

instance (tx rx : C) (s : SyncSystem n C K) (l : List (SyncEvent n C K)) :
    Decidable (SharedEdges tx rx s l) :=
  inferInstanceAs (Decidable (Follows _ _ s l))

/-- A card latches nothing in a run. -/
def NoEdge (c : C) : SyncSystem n C K → List (SyncEvent n C K) → Prop :=
  Follows (fun s e => s.stamp c e = none) step

section Step

variable {c : C} {s : SyncSystem n C K} {e : SyncEvent n C K}

/-- An event in which a card latches nothing. -/
theorem quiet_step (h : s.stamp c e = none) : Quiet c s (s.step e) := by
  cases e with
  | env i =>
    have hcard : (s.step (.env i)).shared c = clockCards i s.shared c := rfl
    cases hi : i c with
    | none => exact Quiet.of_eq (by rw [hcard, clockCards, hi])
    | some j =>
      have hno : (s.shared c).gpio.capture j = false := by
        simpa [stamp, hi] using h
      simp only [clockCards, hi] at hcard
      refine ⟨?_, ?_, fun hl => ?_⟩
      · simp [hcard, GpioSync.step, hno]
      · simp [hcard, GpioSync.step, hno]
      · simpa [hcard, SyncCard.Latched, SyncCard.tsHigh, GpioSync.step, hno] using hl
  | call k p => exact Quiet.of_eq (congrFun (Threads.step_call_shared ..) c)
  | move k =>
    rcases Threads.step_move_shared readCard clockCards s k with h | ⟨o, h⟩
    · exact Quiet.of_eq (congrFun h c)
    · exact Quiet.of_read h

/-- **A run without an edge of a card is quiet** for it. -/
theorem NoEdge.quiet {l : List (SyncEvent n C K)} (h : NoEdge c s l) : Quiet c s (run step s l) :=
  Follows.invariant (fun _ _ he ht => Quiet.trans ht (quiet_step he)) h (Quiet.of_eq rfl)

/-- An event in which a card latches a stamp. -/
theorem step_of_stamp {v : BitVec 64} (h : s.stamp c e = some v) :
    ((s.step e).shared c).gpio.syncTs = v ∧
      ((s.step e).shared c).gpio.syncSeq = (s.shared c).gpio.syncSeq + 1 := by
  cases e with
  | env i =>
    have hcard : (s.step (.env i)).shared c = clockCards i s.shared c := rfl
    cases hi : i c with
    | none => simp [stamp, hi] at h
    | some j =>
      have hcap : (s.shared c).gpio.capture j = true ∧ j.timestamp = v := by
        simpa [stamp, hi] using h
      simp only [clockCards, hi] at hcard
      constructor
      · simp [hcard, GpioSync.step, hcap]
      · simp [hcard, GpioSync.step, hcap]
  | call k p => cases h
  | move k => cases h

end Step

section Edges

variable {tx rx : C} {s : SyncSystem n C K} {e : SyncEvent n C K} {l m : List (SyncEvent n C K)}

theorem edges_cons : edges tx rx s (e :: l) = (edge tx rx s e).toList ++ edges tx rx (s.step e) l :=
  rfl

theorem edges_append :
    edges tx rx s (l ++ m) = edges tx rx s l ++ edges tx rx (run step s l) m :=
  outputs_append ..

/-- A run without edges of the two has none of either card. -/
theorem noEdge_of_edges (hshared : SharedEdges tx rx s l) (h : edges tx rx s l = []) :
    NoEdge tx s l ∧ NoEdge rx s l := by
  induction l generalizing s with
  | nil => exact ⟨trivial, trivial⟩
  | cons e l ih =>
    rw [edges_cons, List.append_eq_nil_iff] at h
    obtain ⟨htx, hrx⟩ := ih hshared.2 h.2
    rcases edge_cases hshared.1 with ⟨-, hx, hy⟩ | ⟨a, b, hedge, -, -⟩
    · exact ⟨⟨hx, htx⟩, ⟨hy, hrx⟩⟩
    · rw [hedge] at h
      cases h.1

/-- The sequence counts the edges. -/
theorem syncSeq_run (hshared : SharedEdges tx rx s l) :
    ((run step s l).shared tx).gpio.syncSeq =
      (s.shared tx).gpio.syncSeq + BitVec.ofNat 32 (edges tx rx s l).length := by
  induction l generalizing s with
  | nil => simp [edges]
  | cons e l ih =>
    rw [run_cons, ih hshared.2, edges_cons, List.length_append]
    rcases edge_cases hshared.1 with ⟨hedge, hx, -⟩ | ⟨a, b, hedge, hx, -⟩
    · rw [(quiet_step hx).syncSeq, hedge]
      simp
    · rw [(step_of_stamp hx).2, hedge, Option.toList_some, List.length_singleton,
        BitVec.ofNat_add, BitVec.add_assoc]
      rfl

/-- A sequence that reads the same before and after fewer than `2 ^ 32` edges has seen none. -/
theorem edges_eq_nil (hshared : SharedEdges tx rx s l) (hfew : (edges tx rx s l).length < 2 ^ 32)
    (hseq : ((run step s l).shared tx).gpio.syncSeq = (s.shared tx).gpio.syncSeq) :
    edges tx rx s l = [] := by
  rw [syncSeq_run hshared] at hseq
  have hlen : (edges tx rx s l).length = 0 := by
    have hval := congrArg BitVec.toNat hseq
    have hlt := (s.shared tx).gpio.syncSeq.isLt
    rw [BitVec.toNat_add, BitVec.toNat_ofNat, Nat.mod_eq_of_lt hfew] at hval
    omega
  exact List.eq_nil_of_length_eq_zero hlen

/-- What the cards hold is of the last edge. -/
theorem last_edge (hshared : SharedEdges tx rx (reset : SyncSystem n C K) l)
    (hseq : ((run step (reset : SyncSystem n C K) l).shared tx).gpio.syncSeq ≠ 0) :
    (edges tx rx (reset : SyncSystem n C K) l).getLast? =
      some (((run step (reset : SyncSystem n C K) l).shared tx).gpio.syncTs,
        ((run step (reset : SyncSystem n C K) l).shared rx).gpio.syncTs) := by
  induction l using List.reverseRecOn with
  | nil => exact absurd rfl hseq
  | append_singleton l e ih =>
    have hl := hshared.left
    have he := hshared.right.1
    rw [run_concat] at hseq ⊢
    rw [edges_append]
    rcases edge_cases he with ⟨hedge, hx, hy⟩ | ⟨a, b, hedge, hx, hy⟩
    · rw [(quiet_step hx).syncSeq] at hseq
      rw [(quiet_step hx).syncTs, (quiet_step hy).syncTs, edges_cons, hedge]
      simpa [edges] using ih hl hseq
    · rw [(step_of_stamp hx).1, (step_of_stamp hy).1, edges_cons, hedge]
      simp [edges]

end Edges

/-! ## A call -/

/-- A call of a caller that has a program still to do and returns within the events. -/
abbrev Pending (k : K) (a : Option (BitVec 64)) (s : SyncSystem n C K)
    (p : SyncProg C (Option (BitVec 64))) (l : List (SyncEvent n C K)) : Prop :=
  Threads.Pending readCard clockCards k a s p l

namespace Pending

variable {k : K} {a : Option (BitVec 64)} {s : SyncSystem n C K} {c : C}
  {l : List (SyncEvent n C K)}

/-- A call that reads a register. -/
theorem read {r : GpioSyncReg} {f : BitVec 32 → SyncProg C (Option (BitVec 64))}
    (h : Pending k a s (syncRead32 c r >>= f) l) :
    ∃ before after, l = before ++ .move k :: after ∧
      ((run step s before).step (.move k)).shared = (readCard (c, r) (run step s before).shared).2 ∧
      Pending k a ((run step s before).step (.move k))
        (f (((run step s before).shared c).read r).1) after :=
  Threads.Pending.op h

/-- A call that reads the sequence of a card. -/
theorem seq {f : BitVec 32 → SyncProg C (Option (BitVec 64))}
    (h : Pending k a s (syncRead32 c .seq >>= f) l) :
    ∃ before after, l = before ++ after ∧
      Pending k a (run step s before) (f ((run step s before).shared c).gpio.syncSeq) after := by
  obtain ⟨before, after, rfl, hread, hpend⟩ := h.read
  refine ⟨before ++ [.move k], after, by rw [List.append_assoc, List.singleton_append], ?_⟩
  rw [run_concat, (Quiet.of_read (c := c) hread).syncSeq]
  exact hpend

/-- **A call that reads the stamp of a card** has the stamp whole, if the card latches none
meanwhile, whoever else reads it. -/
theorem ts {f : BitVec 64 → SyncProg C (Option (BitVec 64))}
    (h : Pending k a s (pwGpioSyncTs c >>= f) l) :
    ∃ before after v, l = before ++ after ∧ Pending k a (run step s before) (f v) after ∧
      (NoEdge c s before → v = (s.shared c).gpio.syncTs) := by
  rw [pwGpioSyncTs_bind] at h
  obtain ⟨l₁, rest, rfl, hlow, hpend⟩ := h.read
  obtain ⟨l₂, after, rfl, -, hpend⟩ := hpend.read
  have hrun : run step s (l₁ ++ .move k :: (l₂ ++ [.move k])) =
      (run step ((run step s l₁).step (.move k)) l₂).step (.move k) := by
    rw [run_append, run_cons, run_concat]
  rw [← hrun] at hpend
  refine ⟨_, after, _, by simp, hpend, fun hquiet => ?_⟩
  have h₁ := NoEdge.quiet (Follows.left hquiet)
  have h₂ := NoEdge.quiet (Follows.left (Follows.right hquiet).2)
  -- the low word sets the register, and every later read sets it to the same word
  have hlatched : (((run step s l₁).step (.move k)).shared c).Latched := by
    rw [hlow, readCard_self (c, .tsLow)]
    exact SyncCard.latched_read_tsLow _
  have hts := h₂.syncTs.trans (Quiet.of_read (c := c) hlow).syncTs
  simp only [SyncCard.read]
  rw [h₂.latched hlatched, SyncCard.tsHigh, hts, or_halves, h₁.syncTs]

/-- A try: it fails and the next ones are pending, or it returns what it read between two
equal reads of the sequence of the transmit card. -/
theorem try_cases {tx rx : C} {tries : ℕ}
    (h : Pending k a s (offsetCoherentTries tx rx (tries + 1)) l) :
    (∃ before after, l = before ++ after ∧
      Pending k a (run step s before) (offsetCoherentTries tx rx tries) after) ∨
    ∃ before between after tsTx tsRx, l = before ++ (between ++ after) ∧ a = some (tsTx - tsRx) ∧
      let t := run step s before
      (t.shared tx).gpio.syncSeq ≠ 0 ∧
      ((run step t between).shared tx).gpio.syncSeq = (t.shared tx).gpio.syncSeq ∧
      (NoEdge tx t between → NoEdge rx t between →
        tsTx = (t.shared tx).gpio.syncTs ∧ tsRx = (t.shared rx).gpio.syncTs) := by
  obtain ⟨l₁, _, rfl, h₁⟩ := h.seq
  obtain ⟨l₂, _, rfl, h₂⟩ := h₁.seq
  obtain ⟨l₃, _, tsTx, rfl, h₃, htx⟩ := h₂.ts
  obtain ⟨l₄, _, tsRx, rfl, h₄, hrx⟩ := h₃.ts
  obtain ⟨l₅, _, rfl, h₅⟩ := h₄.seq
  obtain ⟨l₆, after, rfl, h₆⟩ := h₅.seq
  split_ifs at h₆ with hcond
  · right
    obtain ⟨hne, -, hseq, -⟩ := hcond
    simp only [← run_append] at hseq
    refine ⟨l₁, l₂ ++ (l₃ ++ (l₄ ++ l₅)), l₆ ++ after, tsTx, tsRx, by simp, ?_, hne, ?_, ?_⟩
    · exact (Threads.Pending.eq_of_ret h₆).symm
    · rw [← run_append]
      simpa using hseq.symm
    · intro hnotx hnorx
      -- the stamps are those at the first read of the sequence
      constructor
      · rw [htx (Follows.left (Follows.right hnotx)), (NoEdge.quiet (Follows.left hnotx)).syncTs]
      · rw [hrx (Follows.left (Follows.right (Follows.right hnorx))),
          (NoEdge.quiet (Follows.left (Follows.right hnorx))).syncTs,
          (NoEdge.quiet (Follows.left hnorx)).syncTs]
  · left
    refine ⟨l₁ ++ (l₂ ++ (l₃ ++ (l₄ ++ (l₅ ++ l₆)))), after, by simp, ?_⟩
    simpa only [run_append] using h₆

/-- The tries that are left return an offset of one edge, or none. -/
theorem of_edge {tx rx : C} {tries : ℕ} {off : BitVec 64} {pre : List (SyncEvent n C K)}
    (h : Pending k (some off) (run step reset pre) (offsetCoherentTries tx rx tries) l)
    (hshared : SharedEdges tx rx reset (pre ++ l))
    (hfew : (edges tx rx (run step reset pre) l).length < 2 ^ 32) :
    ∃ before after v, l = before ++ after ∧
      (edges tx rx reset (pre ++ before)).getLast? = some v ∧ off = v.1 - v.2 := by
  induction tries generalizing pre l with
  | zero => cases Threads.Pending.eq_of_ret h
  | succ tries ih =>
    rcases h.try_cases with ⟨before, after, rfl, hnext⟩ |
      ⟨before, between, after, tsTx, tsRx, rfl, hoff, hne, hseq, hts⟩
    · rw [edges_append, List.length_append, ← run_append] at hfew
      rw [← run_append] at hnext
      rw [← List.append_assoc] at hshared
      obtain ⟨m, after, v, rfl, hv, hoff⟩ := ih hnext hshared (by omega)
      refine ⟨before ++ m, after, v, by rw [List.append_assoc], ?_, hoff⟩
      rw [← List.append_assoc]
      exact hv
    · rw [edges_append, edges_append, List.length_append, List.length_append] at hfew
      have hbetween := Follows.left (Follows.right (Follows.right hshared))
      have hnone := edges_eq_nil hbetween (by omega) hseq
      obtain ⟨hnotx, hnorx⟩ := noEdge_of_edges hbetween hnone
      obtain ⟨rfl, rfl⟩ := hts hnotx hnorx
      have hlast := last_edge (l := pre ++ before)
        (Follows.left (by rw [List.append_assoc]; exact hshared)) (by rw [run_append]; exact hne)
      refine ⟨before, between ++ after, _, rfl, hlast, ?_⟩
      rw [run_append]
      exact Option.some.inj hoff

end Pending

end SyncSystem

section Coherence

open SyncSystem

variable {n : ℕ} {C K : Type} [DecidableEq C] [DecidableEq K]

/-- **Cross-card offsets are edge coherent.**  Whatever the cards, the edges and the other
callers do, an offset that a call returns is the difference of the stamps that both cards
latched at the last edge before some moment of the call. -/
theorem offset_edge_coherent {tx rx : C} {k : K} {off : BitVec 64}
    {pre during : List (SyncEvent n C K)}
    (hidle : ((run step (reset : SyncSystem n C K) pre).prog k).result.isSome)
    (hone : ∀ e ∈ during, ¬ e.calls k)
    (hret : ((run step (reset : SyncSystem n C K)
      (pre ++ .call k (pwGpioSyncOffsetCoherent tx rx) :: during)).prog k).result = some (some off))
    (hshared : SharedEdges tx rx (reset : SyncSystem n C K)
      (pre ++ .call k (pwGpioSyncOffsetCoherent tx rx) :: during))
    (hfew : (edges tx rx (run step (reset : SyncSystem n C K)
      (pre ++ [.call k (pwGpioSyncOffsetCoherent tx rx)])) during).length < 2 ^ 32) :
    ∃ before after tsTx tsRx, during = before ++ after ∧
      (edges tx rx (reset : SyncSystem n C K)
        (pre ++ .call k (pwGpioSyncOffsetCoherent tx rx) :: before)).getLast? =
          some (tsTx, tsRx) ∧
      off = tsTx - tsRx := by
  rw [List.append_cons] at hret hshared
  have hpend : Pending k (some off) (run step (reset : SyncSystem n C K)
      (pre ++ [.call k (pwGpioSyncOffsetCoherent tx rx)])) (pwGpioSyncOffsetCoherent tx rx)
      during := by
    refine ⟨?_, hone, ?_⟩
    · rw [run_concat]
      exact Threads.step_call_prog readCard clockCards _ hidle _
    · rw [run_append] at hret
      exact hret
  obtain ⟨before, after, v, rfl, hlast, hoff⟩ := hpend.of_edge hshared hfew
  refine ⟨before, after, v.1, v.2, rfl, ?_, hoff⟩
  rw [List.append_cons]
  exact hlast

/-- A cycle of two cards that hear the pin at a level. -/
def sampleSyncClock (level : BitVec 6) (t : BitVec 64) : SyncEvent 6 Bool Bool :=
  .env fun rx => some ⟨if rx then t + 0x1fffffff0 else t, level, 1⟩

/-- A pulse on the pin. -/
def sampleSyncPulse (t : BitVec 64) : List (SyncEvent 6 Bool Bool) :=
  [t, t + 1, t + 2].map (sampleSyncClock 1) ++ [t + 3, t + 4, t + 5].map (sampleSyncClock 0)

/-- Two callers in turn, with a pulse between the reads of both stamps. -/
def sampleSyncDuring : List (SyncEvent 6 Bool Bool) :=
  List.replicate 4 (.move false) ++ .call true (pwGpioSyncOffsetCoherent true false) ::
    (List.replicate 5 (.move true) ++ sampleSyncPulse 100 ++ List.replicate 8 (.move false) ++
      List.replicate 4 (.move true) ++ List.replicate 4 (.move false))

theorem offset_edge_coherent_retry :
    ∃ before after tsTx tsRx, sampleSyncDuring = before ++ after ∧
      (edges false true (reset : SyncSystem 6 Bool Bool) (sampleSyncPulse 0 ++
        .call false (pwGpioSyncOffsetCoherent false true) :: before)).getLast? =
          some (tsTx, tsRx) ∧
      (-0x1fffffff0 : BitVec 64) = tsTx - tsRx :=
  offset_edge_coherent rfl (by decide +kernel) (by decide +kernel) (by decide +kernel)
    (by decide +kernel)

end Coherence

end PacketWyrm
