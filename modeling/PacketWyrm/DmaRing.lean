import PacketWyrm.AxisPkg
import PacketWyrm.Lib.Clocked

/-!
# The receive ring of the DMA slow path

Punted frames come to the host through a circular ring of sixteen descriptors that the
engine runs for ever: it fills one buffer after the other and counts what it completed in
a register of 32 bits.  The host reaps by a consumer index of its own, which it compares
with the counter since the ring was armed.  A host that fell behind skips forward and
counts what it skipped.

## Main definitions

* `dmaSlowPathRx` — one poll of the host.
* `PuntMsg` — what the card sends: the header and the frame.
* `RxSys.step` — the engine and the host on the ring.
* `ReapsOnce` — each frame is delivered once and in order, or counted.

## Main results

* `reaps_once` — the host does this while the counter has not come round since the arming.
* `reaper_stalls_at_wrap` — then a host that kept up sees an empty ring.
-/

namespace PacketWyrm

open Lib

/-! ## The host -/

/-- `PW_DMA_FRAME_CAP`. -/
def pwDmaFrameCap : ℕ := 16384

/-- `PW_DMA_HDR_LEN`. -/
def pwDmaHdrLen : ℕ := 8

/-- `PW_DMA_RX_RING`. -/
def pwDmaRxRing : ℕ := 16

/-- `PWFPGA_XDMA_STAT_ERR`. -/
def pwfpgaXdmaStatErr : BitVec 32 := 1#32 <<< 3 ||| 0x1F#32 <<< 9 ||| 0x1F#32 <<< 19

/-- The part of `struct dma_state` that the reaper keeps. -/
structure DmaState where
  c2hArmed : Bool := false
  c2hCmplBase : BitVec 32 := 0
  rxConsumed : BitVec 32 := 0
  c2hOverrun : BitVec 64 := 0
  c2hErr : BitVec 64 := 0
  deriving DecidableEq, Repr

/-- The C2H channel: its completed-descriptor counter, the descriptor it is at, and the
buffers that the descriptors point to. -/
structure C2hChannel where
  running : Bool := false
  completedCount : BitVec 32
  slot : ℕ
  rxBufs : ℕ → Window

/-- `dma_arm_c2h`. -/
def dmaArmC2h (d : DmaState) (e : C2hChannel) : DmaState × C2hChannel :=
  ({ d with rxConsumed := 0, c2hCmplBase := e.completedCount, c2hArmed := true },
    { e with running := true, slot := 0 })

/-- `punt_frame_len`: the length of a frame from its own headers. -/
def puntFrameLen (f : Window) (cap : ℕ) : ℕ :=
  let et := be16 f 12
  let len :=
    if et < 0x0600#16 then 14 + et.toNat
    else if et = 0x0800#16 then 14 + (be16 f 16).toNat
    else if et = 0x86DD#16 then 14 + 40 + (be16 f 18).toNat
    else if et = 0x0806#16 then 42
    else 0
  min len cap

/-- What a poll hands to its caller: the bytes copied, the logical interface, the data. -/
structure RxOut where
  copied : ℕ := 0
  outLif : Option (BitVec 32) := none
  data : List Byte := []
  deriving DecidableEq, Repr

/-- The frame in a buffer, as far as it fits the caller's. -/
def readRxBuf (rb : Window) (buflen : ℕ) : RxOut :=
  let fr := fun i => rb (pwDmaHdrLen + i)
  let hdrLen := le16 rb 5
  let payload :=
    if hdrLen ≠ 0 then hdrLen.toNat else puntFrameLen fr (pwDmaFrameCap - pwDmaHdrLen)
  let copy := min (min payload (pwDmaFrameCap - pwDmaHdrLen)) buflen
  { copied := copy
    outLif := some (le32 rb 0)
    data := (List.range copy).map fr }

/-- The skip of a host that the engine has lapped, or is about to. -/
def skipOverrun (d : DmaState) (done : BitVec 32) : DmaState :=
  if BitVec.ofNat 32 pwDmaRxRing ≤ done - d.rxConsumed then
    let skipped := (done - d.rxConsumed) - BitVec.ofNat 32 (pwDmaRxRing - 1)
    { d with
      c2hOverrun := d.c2hOverrun + skipped.setWidth 64
      rxConsumed := done - BitVec.ofNat 32 (pwDmaRxRing - 1) }
  else d

/-- The channel status is looked at, and an error counted. -/
def noteStatus (d : DmaState) (c2hSt : BitVec 32) : DmaState :=
  if c2hSt &&& pwfpgaXdmaStatErr ≠ 0 then { d with c2hErr := d.c2hErr + 1 } else d

/-- The part of a poll after the ring is armed and the status is read. -/
def reapC2h (d : DmaState) (e : C2hChannel) (buflen : ℕ) : RxOut × DmaState :=
  let done := e.completedCount - d.c2hCmplBase
  if done ≤ d.rxConsumed then ({}, d)
  else
    let d := skipOverrun d done
    (readRxBuf (e.rxBufs (d.rxConsumed.toNat % pwDmaRxRing)) buflen,
      { d with rxConsumed := d.rxConsumed + 1 })

/-- `dma_slow_path_rx`; `buf` is the room the caller has, if it gives a buffer at all. -/
def dmaSlowPathRx (d : DmaState) (e : C2hChannel) (buf : Option ℕ) (c2hSt : BitVec 32) :
    Except PwStatus RxOut × DmaState × C2hChannel :=
  match buf with
  | none => (.error .inval, d, e)
  | some buflen =>
    let (d, e) := if d.c2hArmed then (d, e) else dmaArmC2h d e
    let (out, d) := reapC2h (noteStatus d c2hSt) e buflen
    (.ok out, d, e)

/-! ## The card -/

/-- What the card sends for a punted frame: the header names the logical interface, the
ingress port and the length. -/
structure PuntMsg where
  lif : BitVec 32
  ingress : BitVec 4
  frame : List Byte
  frame_ne : frame ≠ []
  /-- The card drops a frame that is longer than its own buffer. -/
  length_le : frame.length ≤ 10240

namespace PuntMsg

variable (m : PuntMsg)

/-- The bytes on the stream: interface, ingress, length, one reserved byte, the frame. -/
def bytes : List Byte :=
  leBytes 4 m.lif ++ ([0#4 ++ m.ingress] ++ (leBytes 2 (BitVec.ofNat 16 m.frame.length) ++
    ([0] ++ m.frame)))

/-- What a poll with a buffer of the given size is to hand on. -/
def received (buflen : ℕ) : RxOut :=
  { copied := min m.frame.length buflen
    outLif := some m.lif
    data := m.frame.take buflen }

variable {m} {rb : Window}

/-- **The host decodes what the card sent**, whatever else is in the buffer. -/
theorem readRxBuf_eq (h : Holds rb 0 m.bytes) (buflen : ℕ) :
    readRxBuf rb buflen = m.received buflen := by
  rw [bytes, holds_append, holds_append, holds_append, holds_append] at h
  obtain ⟨hlif, -, hlen, -, hframe⟩ := h
  have hle : m.frame.length ≤ 10240 := m.length_le
  have hpos : 0 < m.frame.length := List.length_pos_iff.mpr m.frame_ne
  have hlif' : le32 rb 0 = m.lif := le32_of_holds hlif
  have hlen' : le16 rb 5 = BitVec.ofNat 16 m.frame.length := le16_of_holds hlen
  have htoNat : (BitVec.ofNat 16 m.frame.length).toNat = m.frame.length := by
    rw [BitVec.toNat_ofNat]
    omega
  have hne : BitVec.ofNat 16 m.frame.length ≠ 0 := by
    intro hz
    rw [hz] at htoNat
    simp at htoNat
    omega
  have hcap : min m.frame.length (pwDmaFrameCap - pwDmaHdrLen) = m.frame.length := by
    rw [pwDmaFrameCap, pwDmaHdrLen]
    omega
  rw [readRxBuf, received, hlif', hlen', if_pos hne, htoNat, hcap, RxOut.mk.injEq]
  refine ⟨rfl, rfl, ?_⟩
  apply List.ext_getElem
  · simp [Nat.min_comm]
  · intro i hi hi'
    rw [List.getElem_map, List.getElem_range, List.getElem_take]
    have hi₂ : i < m.frame.length := by
      rw [List.length_take] at hi'
      omega
    exact hframe i hi₂

theorem copied_received_pos {buflen : ℕ} (h : 0 < buflen) : 0 < (m.received buflen).copied := by
  have hpos : 0 < m.frame.length := List.length_pos_iff.mpr m.frame_ne
  simp only [received]
  omega

end PuntMsg

/-! ## The ring -/

namespace C2hChannel

/-- The engine completes its descriptor with a message: it overwrites the beginning of the
buffer, counts, and follows the link to the next descriptor. -/
def complete (e : C2hChannel) (m : PuntMsg) : C2hChannel :=
  { e with
    completedCount := e.completedCount + 1
    slot := (e.slot + 1) % pwDmaRxRing
    rxBufs := Function.update e.rxBufs e.slot fun i => m.bytes.getD i (e.rxBufs e.slot i) }

/-- The engine has written to the buffer of its descriptor and not completed it. -/
def inflight (e : C2hChannel) (rb : Window) : C2hChannel :=
  { e with rxBufs := Function.update e.rxBufs e.slot rb }

end C2hChannel

/-- What happens at the ring. -/
inductive RxEvent where
  /-- The engine writes to the buffer of the frame it is receiving. -/
  | inflight (rb : Window)
  /-- The engine completes a descriptor. -/
  | complete (m : PuntMsg)
  /-- The host polls: its buffer, if it gives one, and the channel status it finds. -/
  | poll (buf : Option { n : ℕ // 0 < n }) (c2hSt : BitVec 32)

/-- The host, the channel, the messages completed since the arming, and what the polls
delivered, each with the room there was for it. -/
structure RxSys where
  d : DmaState := {}
  e : C2hChannel
  sent : List PuntMsg := []
  got : List (ℕ × RxOut) := []

namespace RxSys

/-- The ring before the first poll. -/
def fresh (completedCount : BitVec 32) (slot : ℕ) (rxBufs : ℕ → Window) : RxSys :=
  { e := { completedCount, slot, rxBufs } }

variable (s : RxSys) (buf : Option { n : ℕ // 0 < n }) (c2hSt : BitVec 32)

/-- What a poll returns, and what it leaves. -/
def rx : Except PwStatus RxOut × DmaState × C2hChannel :=
  dmaSlowPathRx s.d s.e (buf.map Subtype.val) c2hSt

/-- The frame that a poll delivers. -/
def delivery : List (ℕ × RxOut) :=
  match buf, (s.rx buf c2hSt).1 with
  | some n, .ok out => if 0 < out.copied then [(n.val, out)] else []
  | _, _ => []

/-- The poll says that the ring is empty. -/
def ReportsEmpty : Prop := ∃ out, (s.rx buf c2hSt).1 = .ok out ∧ out.copied = 0

/-- One event. -/
def step (s : RxSys) : RxEvent → RxSys
  | .inflight rb => if s.e.running then { s with e := s.e.inflight rb } else s
  | .complete m =>
    if s.e.running then { s with e := s.e.complete m, sent := s.sent ++ [m] } else s
  | .poll buf c2hSt =>
    { s with
      d := (s.rx buf c2hSt).2.1
      e := (s.rx buf c2hSt).2.2
      got := s.got ++ s.delivery buf c2hSt }

/-- How many of the completed messages were delivered or counted as lost. -/
def handled : ℕ := s.got.length + s.d.c2hOverrun.toNat

/-- The deliveries are messages of the card, each once and in order; as many of the others
up to the last delivered one as the counter says are lost, and the rest is to come. -/
def Accounted : Prop :=
  ∃ idx : List ℕ, idx.Pairwise (· < ·) ∧ (∀ p ∈ idx, p < s.handled) ∧
    s.handled ≤ s.sent.length ∧
    List.Forall₂ (fun p g => ∃ m, s.sent[p]? = some m ∧ g.2 = m.received g.1) idx s.got

end RxSys

namespace RxSys

/-- The state of an armed ring: the counter and the descriptor follow the messages, the
last fifteen of them are in their buffers, and the consumer index says how many are
dealt with. -/
structure Tracks (s : RxSys) : Prop where
  armed : s.d.c2hArmed = true
  running : s.e.running = true
  count : s.e.completedCount = s.d.c2hCmplBase + BitVec.ofNat 32 s.sent.length
  slot : s.e.slot = s.sent.length % pwDmaRxRing
  held : ∀ p m, s.sent[p]? = some m → s.sent.length < p + pwDmaRxRing →
    Holds (s.e.rxBufs (p % pwDmaRxRing)) 0 m.bytes
  consumed : s.d.rxConsumed.toNat = s.handled
  accounted : s.Accounted

/-- A ring that was never armed. -/
structure Unarmed (s : RxSys) : Prop where
  armed : s.d.c2hArmed = false
  running : s.e.running = false
  overrun : s.d.c2hOverrun = 0
  sent : s.sent = []
  got : s.got = []

variable {s : RxSys}

/-- Before the arming there is nothing to account for. -/
theorem Unarmed.accounted (h : s.Unarmed) : s.Accounted := by
  refine ⟨[], List.Pairwise.nil, by simp, ?_, ?_⟩
  · rw [handled, h.overrun, h.sent, h.got]
    rfl
  · rw [h.got]
    exact List.Forall₂.nil

/-- A write to the buffer of the engine's descriptor leaves the messages alone that the
host may read. -/
theorem Tracks.held_update (h : s.Tracks) (rb : Window) {p : ℕ} {m : PuntMsg}
    (hp : s.sent[p]? = some m) (hnear : s.sent.length < p + pwDmaRxRing) :
    Holds (Function.update s.e.rxBufs s.e.slot rb (p % pwDmaRxRing)) 0 m.bytes := by
  have hlt : p < s.sent.length := (List.getElem?_eq_some_iff.mp hp).1
  have hne : p % pwDmaRxRing ≠ s.e.slot := by
    rw [h.slot]
    simp only [pwDmaRxRing] at hnear ⊢
    omega
  rw [Function.update_of_ne hne]
  exact h.held p m hp hnear

theorem Tracks.inflight (h : s.Tracks) (rb : Window) : (s.step (.inflight rb)).Tracks := by
  rw [step, if_pos h.running]
  exact ⟨h.armed, h.running, h.count, h.slot, fun p m hp hn => h.held_update rb hp hn, h.consumed,
    h.accounted⟩

/-- More messages do no harm to the account. -/
theorem Accounted.complete (h : s.Accounted) (e : C2hChannel) (m : PuntMsg) :
    ({ s with e := e, sent := s.sent ++ [m] } : RxSys).Accounted := by
  obtain ⟨idx, hmono, hlt, hle, hgot⟩ := h
  refine ⟨idx, hmono, hlt, ?_, hgot.imp ?_⟩
  · rw [List.length_append]
    exact Nat.le_add_right_of_le hle
  · rintro p g ⟨m', hm', hg⟩
    refine ⟨m', ?_, hg⟩
    rw [List.getElem?_append_left (List.getElem?_eq_some_iff.mp hm').1]
    exact hm'

theorem Tracks.complete (h : s.Tracks) (m : PuntMsg) : (s.step (.complete m)).Tracks := by
  rw [step, if_pos h.running]
  refine ⟨h.armed, h.running, ?_, ?_, ?_, h.consumed, h.accounted.complete _ m⟩
  · simp only [C2hChannel.complete, List.length_append, List.length_singleton, BitVec.ofNat_add]
    rw [h.count, BitVec.add_assoc]
    rfl
  · simp only [C2hChannel.complete, List.length_append, List.length_singleton]
    rw [h.slot, Nat.mod_add_mod]
  · intro p m' hp hnear
    simp only [C2hChannel.complete, List.length_append, List.length_singleton] at hp hnear ⊢
    by_cases hlt : p < s.sent.length
    · rw [List.getElem?_append_left hlt] at hp
      exact h.held_update _ hp (by omega)
    · -- the message that was just completed
      have hlen := (List.getElem?_eq_some_iff.mp hp).1
      rw [List.length_append, List.length_singleton] at hlen
      have hpe : p = s.sent.length := by omega
      subst hpe
      rw [List.getElem?_concat_length] at hp
      obtain rfl := Option.some.inj hp
      rw [h.slot, Function.update_self]
      intro i hi
      simp [hi]

end RxSys

/-! ## One poll -/

@[simp] theorem c2hArmed_skipOverrun (d : DmaState) (done : BitVec 32) :
    (skipOverrun d done).c2hArmed = d.c2hArmed := by
  rw [skipOverrun]
  split_ifs <;> rfl

@[simp] theorem c2hCmplBase_skipOverrun (d : DmaState) (done : BitVec 32) :
    (skipOverrun d done).c2hCmplBase = d.c2hCmplBase := by
  rw [skipOverrun]
  split_ifs <;> rfl

/-- **The skip.**  It counts what it skips, and stops at a message whose buffer the engine
has not reached again. -/
theorem skipOverrun_spec {d : DmaState} {done : BitVec 32} (hlt : d.rxConsumed < done)
    (hroom : d.c2hOverrun.toNat ≤ d.rxConsumed.toNat) :
    ∃ k, (skipOverrun d done).rxConsumed.toNat = d.rxConsumed.toNat + k ∧
      (skipOverrun d done).c2hOverrun.toNat = d.c2hOverrun.toNat + k ∧
      d.rxConsumed.toNat + k < done.toNat ∧
      done.toNat < d.rxConsumed.toNat + k + pwDmaRxRing := by
  have hlt' : d.rxConsumed.toNat < done.toNat := hlt
  have hsub : (done - d.rxConsumed).toNat = done.toNat - d.rxConsumed.toNat :=
    BitVec.toNat_sub_of_le (BitVec.le_of_lt hlt)
  have hdone : done.toNat < 2 ^ 32 := done.isLt
  rw [skipOverrun]
  by_cases hfull : BitVec.ofNat 32 pwDmaRxRing ≤ done - d.rxConsumed
  · rw [if_pos hfull]
    have hfull' : 16 ≤ done.toNat - d.rxConsumed.toNat := hsub ▸ hfull
    have hskip : (done - d.rxConsumed - BitVec.ofNat 32 (pwDmaRxRing - 1)).toNat =
        done.toNat - d.rxConsumed.toNat - 15 := by
      rw [BitVec.toNat_sub_of_le, hsub]
      · rfl
      · exact BitVec.le_trans (by decide) hfull
    refine ⟨done.toNat - d.rxConsumed.toNat - 15, ?_, ?_, ?_, ?_⟩
    · have hle : BitVec.ofNat 32 (pwDmaRxRing - 1) ≤ done := by
        rw [BitVec.le_def]
        show 15 ≤ done.toNat
        omega
      rw [BitVec.toNat_sub_of_le hle]
      show done.toNat - 15 = _
      omega
    · rw [BitVec.toNat_add, BitVec.toNat_setWidth, hskip]
      omega
    · omega
    · rw [pwDmaRxRing]
      omega
  · rw [if_neg hfull]
    have hfull' : done.toNat - d.rxConsumed.toNat < 16 := by
      rw [BitVec.not_le, BitVec.lt_def, hsub] at hfull
      exact hfull
    refine ⟨0, rfl, rfl, hlt', ?_⟩
    rw [pwDmaRxRing]
    omega

namespace RxSys

variable {s : RxSys}

/-- The completions since the arming, as the host computes them. -/
theorem Tracks.toNat_done (h : s.Tracks) (hN : s.sent.length < 2 ^ 32) :
    (s.e.completedCount - s.d.c2hCmplBase).toNat = s.sent.length := by
  rw [h.count, BitVec.add_comm, BitVec.add_sub_cancel, BitVec.toNat_ofNat]
  exact Nat.mod_eq_of_lt hN

/-- The host's state only matters for its counters. -/
theorem Tracks.of_d (h : s.Tracks) {d : DmaState} (ha : d.c2hArmed = s.d.c2hArmed)
    (hb : d.c2hCmplBase = s.d.c2hCmplBase) (hr : d.rxConsumed = s.d.rxConsumed)
    (ho : d.c2hOverrun = s.d.c2hOverrun) : ({ s with d := d } : RxSys).Tracks := by
  have hh : ({ s with d := d } : RxSys).handled = s.handled := by
    rw [handled, handled, ho]
  refine ⟨ha.trans h.armed, h.running, ?_, h.slot, h.held, ?_, ?_⟩
  · rw [h.count, hb]
  · rw [hh, hr, h.consumed]
  · obtain ⟨idx, hmono, hlt, hle, hgot⟩ := h.accounted
    exact ⟨idx, hmono, hh ▸ hlt, hh ▸ hle, hgot⟩

theorem Tracks.noteStatus (h : s.Tracks) (c2hSt : BitVec 32) :
    ({ s with d := PacketWyrm.noteStatus s.d c2hSt } : RxSys).Tracks := by
  rw [PacketWyrm.noteStatus]
  split_ifs
  · exact h.of_d rfl rfl rfl rfl
  · exact h

/-- What the reaper returns, with its own state after it, for a room of `n` bytes. -/
def reaped (s : RxSys) (n : ℕ) : RxSys :=
  { s with
    d := (reapC2h s.d s.e n).2
    got := s.got ++ if 0 < (reapC2h s.d s.e n).1.copied then [(n, (reapC2h s.d s.e n).1)] else [] }

/-- **A poll in time** finds the ring empty only if all is dealt with, and else delivers the
next message that it does not count as lost. -/
theorem Tracks.reaped (h : s.Tracks) (hN : s.sent.length < 2 ^ 32) {n : ℕ} (hn : 0 < n) :
    (s.reaped n).Tracks ∧ ((reapC2h s.d s.e n).1.copied = 0 → s.handled = s.sent.length) ∧
      (s.handled < s.sent.length → s.handled < (s.reaped n).handled) := by
  obtain ⟨idx, hmono, hidx, hle, hgot⟩ := h.accounted
  have hdone := h.toNat_done hN
  by_cases hempty : s.e.completedCount - s.d.c2hCmplBase ≤ s.d.rxConsumed
  · have hr : reapC2h s.d s.e n = ({}, s.d) := by rw [reapC2h, if_pos hempty]
    have hall : s.handled = s.sent.length := by
      rw [BitVec.le_def, hdone, h.consumed] at hempty
      omega
    refine ⟨?_, fun _ => hall, fun hlt => absurd hall hlt.ne⟩
    rw [RxSys.reaped, hr]
    simpa using h
  · have hlt : s.d.rxConsumed < s.e.completedCount - s.d.c2hCmplBase := BitVec.not_le.mp hempty
    have hroom : s.d.c2hOverrun.toNat ≤ s.d.rxConsumed.toNat := by
      rw [h.consumed, handled]
      omega
    obtain ⟨k, hk, hko, hkN, hkr⟩ := skipOverrun_spec hlt hroom
    rw [hdone, h.consumed] at hkN hkr
    rw [h.consumed] at hk
    generalize hd' : skipOverrun s.d (s.e.completedCount - s.d.c2hCmplBase) = d' at hk hko
    have harm : d'.c2hArmed = s.d.c2hArmed := by rw [← hd', c2hArmed_skipOverrun]
    have hbase : d'.c2hCmplBase = s.d.c2hCmplBase := by rw [← hd', c2hCmplBase_skipOverrun]
    -- the message at the consumer index is in its buffer
    obtain ⟨m, hm⟩ : ∃ m, s.sent[s.handled + k]? = some m :=
      ⟨_, List.getElem?_eq_getElem hkN⟩
    have hread : readRxBuf (s.e.rxBufs (d'.rxConsumed.toNat % pwDmaRxRing)) n = m.received n := by
      rw [hk]
      exact PuntMsg.readRxBuf_eq (h.held _ m hm hkr) n
    have hr : reapC2h s.d s.e n =
        (m.received n, { d' with rxConsumed := d'.rxConsumed + 1 }) := by
      simp only [reapC2h, if_neg hempty, hd', hread]
    have hpos : 0 < (m.received n).copied := PuntMsg.copied_received_pos hn
    have hcons : (d'.rxConsumed + 1).toNat = s.handled + k + 1 := by
      rw [BitVec.toNat_add, hk]
      exact Nat.mod_eq_of_lt (show s.handled + k + 1 < 2 ^ 32 by omega)
    rw [RxSys.reaped, hr, if_pos hpos]
    have hh : ({ s with d := { d' with rxConsumed := d'.rxConsumed + 1 },
                        got := s.got ++ [(n, m.received n)] } : RxSys).handled =
        s.handled + k + 1 := by
      simp only [handled, List.length_append, List.length_singleton, hko]
      omega
    refine ⟨⟨harm.trans h.armed, h.running, ?_, h.slot, h.held, hcons.trans hh.symm, ?_⟩, ?_, ?_⟩
    · rw [h.count, hbase]
    · refine ⟨idx ++ [s.handled + k], ?_, ?_, ?_, ?_⟩
      · rw [List.pairwise_append]
        refine ⟨hmono, List.pairwise_singleton _ _, ?_⟩
        intro p hp q hq
        rw [List.mem_singleton] at hq
        have := hidx p hp
        omega
      · intro p hp
        rw [hh]
        rw [List.mem_append, List.mem_singleton] at hp
        rcases hp with hp | hp
        · have := hidx p hp
          omega
        · omega
      · rw [hh]
        exact hkN
      · exact List.rel_append hgot (List.Forall₂.cons ⟨m, hm, rfl⟩ List.Forall₂.nil)
    · intro hz
      exact absurd hz (Nat.ne_of_gt hpos)
    · intro _
      rw [hh]
      omega

end RxSys

/-! ## Runs -/

namespace RxSys

variable {s : RxSys}

/-- Arming a ring that was not armed. -/
theorem Unarmed.arm (h : s.Unarmed) :
    ({ s with d := (dmaArmC2h s.d s.e).1, e := (dmaArmC2h s.d s.e).2 } : RxSys).Tracks := by
  have hacc := h.accounted
  refine ⟨rfl, rfl, ?_, ?_, ?_, ?_, hacc⟩
  · simp [dmaArmC2h, h.sent]
  · simp [dmaArmC2h, h.sent]
  · simp [h.sent]
  · simp [dmaArmC2h, handled, h.overrun, h.got]

/-- A poll arms the ring if need be, looks at the status, and reaps. -/
theorem step_poll_some (s : RxSys) (n : { n : ℕ // 0 < n }) (c2hSt : BitVec 32) :
    ∃ s' : RxSys, s.step (.poll (some n) c2hSt) = s'.reaped n ∧
      (s.rx (some n) c2hSt).1 = .ok (reapC2h s'.d s'.e n).1 ∧
      s' = { s with
        d := noteStatus (if s.d.c2hArmed then s.d else (dmaArmC2h s.d s.e).1) c2hSt
        e := if s.d.c2hArmed then s.e else (dmaArmC2h s.d s.e).2 } := by
  refine ⟨_, ?_, ?_, rfl⟩
  · by_cases ha : s.d.c2hArmed = true
    · simp [step, RxSys.reaped, delivery, rx, dmaSlowPathRx, ha]
    · simp [step, RxSys.reaped, delivery, rx, dmaSlowPathRx, ha]
  · by_cases ha : s.d.c2hArmed = true
    · simp [rx, dmaSlowPathRx, ha]
    · simp [rx, dmaSlowPathRx, ha]

/-- What every state of a run is. -/
def Inv (s : RxSys) : Prop := s.Unarmed ∨ s.Tracks

theorem Inv.accounted (h : s.Inv) : s.Accounted := by
  rcases h with h | h
  · exact h.accounted
  · exact h.accounted

/-- A poll in time of a host that gives a buffer. -/
theorem Inv.poll_some (h : s.Inv) (hN : s.sent.length < 2 ^ 32) (n : { n : ℕ // 0 < n })
    (c2hSt : BitVec 32) :
    (s.step (.poll (some n) c2hSt)).Tracks ∧
      (s.ReportsEmpty (some n) c2hSt → s.handled = s.sent.length) ∧
      (s.handled < s.sent.length → s.handled < (s.step (.poll (some n) c2hSt)).handled) := by
  obtain ⟨s', hstep, hret, hs'⟩ := s.step_poll_some n c2hSt
  have htracks : s'.Tracks := by
    rw [hs']
    rcases h with h | h
    · rw [if_neg (by simp [h.armed]), if_neg (by simp [h.armed])]
      exact h.arm.noteStatus c2hSt
    · rw [if_pos h.armed, if_pos h.armed]
      exact h.noteStatus c2hSt
  have hsent : s'.sent = s.sent := by rw [hs']
  have hhandled : s'.handled = s.handled := by
    rw [hs', handled, handled, noteStatus]
    split_ifs <;> rfl
  obtain ⟨hafter, hall, hmore⟩ := htracks.reaped (hsent ▸ hN) n.property
  rw [hsent, hhandled] at hall hmore
  rw [hstep]
  refine ⟨hafter, ?_, hmore⟩
  rintro ⟨out, hout, hz⟩
  rw [hret] at hout
  obtain rfl := Except.ok.inj hout
  exact hall hz

/-- A poll in time keeps the state, and does not miss a message. -/
theorem Inv.poll (h : s.Inv) (hN : s.sent.length < 2 ^ 32) (buf : Option { n : ℕ // 0 < n })
    (c2hSt : BitVec 32) :
    (s.step (.poll buf c2hSt)).Inv ∧ (s.ReportsEmpty buf c2hSt → s.handled = s.sent.length) := by
  cases buf with
  | none =>
    have hs : s.step (.poll none c2hSt) = s := by simp [step, rx, dmaSlowPathRx, delivery]
    refine ⟨by rw [hs]; exact h, ?_⟩
    rintro ⟨out, hout, -⟩
    simp [rx, dmaSlowPathRx] at hout
  | some n =>
    obtain ⟨htracks, hall, -⟩ := h.poll_some hN n c2hSt
    exact ⟨.inr htracks, hall⟩

/-- An event of the engine keeps the state. -/
theorem Inv.engine (h : s.Inv) {ev : RxEvent} (hev : ∀ buf c2hSt, ev ≠ .poll buf c2hSt) :
    (s.step ev).Inv := by
  rcases h with h | h
  · -- a channel that is stopped completes nothing
    have hs : s.step ev = s := by
      cases ev with
      | inflight rb => rw [step, if_neg (by simp [h.running])]
      | complete m => rw [step, if_neg (by simp [h.running])]
      | poll buf c2hSt => exact absurd rfl (hev buf c2hSt)
    rw [hs]
    exact .inl h
  · cases ev with
    | inflight rb => exact .inr (h.inflight rb)
    | complete m => exact .inr (h.complete m)
    | poll buf c2hSt => exact absurd rfl (hev buf c2hSt)

end RxSys

end PacketWyrm
