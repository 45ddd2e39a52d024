import PacketWyrm.AxisStream
import PacketWyrm.DmaRing
import PacketWyrm.Lib.Clocked
import Mathlib.Tactic.Common

/-!
# The frames of the slow path

`pw_dma_slowpath` between the DMA engine and the data plane.  A buffer of the host begins
with a header beat that names the egress port: the strip takes it off and passes the
payload on, or swallows a buffer that names no port.  A punted frame is stored whole, so
that its length is known, and sent behind a header beat of its own; a frame that does not
fit is swallowed to its end.

## Main definitions

* `InjStrip` — the header strip, `InjStrip.payload` — what a buffer is to give.
* `PuntSaf` — the store-and-forward buffer, `PuntFrame.message` — what a frame is to give.

## Main results

* `InjStrip.Tracks.step`, `PuntSaf.Tracks.step` — what one cycle does to the streams.
* `dma_slowpath_framing` — each buffer and each frame comes out as its own, whatever stalls.
-/

namespace PacketWyrm

open Lib

/-! ## Inject -/

/-- What a cycle of the slow path brings: the beat that is offered, and whether the other
side takes one. -/
structure SlowpathIn (β : Type) where
  offered : Option β := none
  ready : Bool := false

/-- `inj_state`. -/
inductive InjState where
  | hdr
  | pay
  | drop
  deriving DecidableEq, Repr

/-- The header strip. -/
structure InjStrip where
  state : InjState := .hdr
  egress : BitVec 4 := 0

namespace InjStrip

variable (portCount : ℕ) (s : InjStrip) (i : SlowpathIn Beat) (b : Beat)

/-- `inj_dp.tready`. -/
def tready : Bool := if s.state = .pay then i.ready else true

/-- The beat that is taken from the FIFO. -/
def taken : Option Beat := if s.tready i then i.offered else none

/-- The beat that the data plane takes, with `m_inj_egress`. -/
def sent : Option (ℕ × Beat) :=
  if s.state = .pay ∧ i.ready then i.offered.map fun b => (s.egress.toNat, b) else none

/-- `inj_hdr_egress_bad`: the whole byte is looked at. -/
def egressBad : Bool := decide (BitVec.ofNat 8 portCount ≤ b.tdata.extractLsb' 0 8)

/-- A beat is taken. -/
def accept : InjStrip :=
  match s.state with
  | .hdr =>
    { egress := b.tdata.extractLsb' 0 4
      -- a buffer that is only a header is swallowed
      state := if b.tlast then .hdr else if egressBad portCount b then .drop else .pay }
  | .pay => { s with state := if b.tlast then .hdr else .pay }
  | .drop => { s with state := if b.tlast then .hdr else .drop }

/-- One cycle. -/
def step : InjStrip :=
  match s.taken i with
  | none => s
  | some b => s.accept portCount b

/-- What a buffer of the host is to give: the payload on its port, if there is a port and a
payload. -/
def payload (buf : List Byte) : List (ℕ × Beat) :=
  if (buf.getD 0 0).toNat < portCount then
    (axisBeats (buf.drop 8)).map fun b => ((buf.getD 0 0).toNat, b)
  else []

/-- What is still to come in and to go out: `todo` and `out`. -/
inductive Tracks (todo : List Beat) (out : List (ℕ × Beat)) : Prop
  /-- Between two buffers. -/
  | hdr (bufs : List (List Byte)) (hst : s.state = .hdr) (hin : todo = bufs.flatMap axisBeats)
      (hout : out = bufs.flatMap (payload portCount))
  /-- In the payload of a buffer. -/
  | pay (buf : List Byte) (j : ℕ) (bufs : List (List Byte)) (hst : s.state = .pay)
      (hj : 8 * j < buf.length)
      (hin : todo = (axisBeats buf).drop j ++ bufs.flatMap axisBeats)
      (hout : out = ((axisBeats buf).drop j).map (fun b => (s.egress.toNat, b)) ++
        bufs.flatMap (payload portCount))
  /-- In a buffer that is swallowed. -/
  | drop (buf : List Byte) (j : ℕ) (bufs : List (List Byte)) (hst : s.state = .drop)
      (hj : 8 * j < buf.length)
      (hin : todo = (axisBeats buf).drop j ++ bufs.flatMap axisBeats)
      (hout : out = bufs.flatMap (payload portCount))

variable {portCount s i b} {todo : List Beat} {out : List (ℕ × Beat)}

/-- The first beat of the next buffer. -/
theorem exists_buf (portCount : ℕ) {bufs : List (List Byte)} (h : bufs.flatMap axisBeats = b :: todo) :
    ∃ (buf : List Byte) (bufs' : List (List Byte)), b = axisBeat buf 0 ∧
      todo = (axisBeats buf).drop 1 ++ bufs'.flatMap axisBeats ∧
      bufs.flatMap (payload portCount) = payload portCount buf ++ bufs'.flatMap (payload portCount) := by
  induction bufs with
  | nil => cases h
  | cons buf bufs ih =>
    by_cases hne : buf = []
    · subst hne
      obtain ⟨buf, bufs', hb, htodo, hout⟩ := ih h
      refine ⟨buf, bufs', hb, htodo, ?_⟩
      rw [List.flatMap_cons, hout, payload, List.drop_nil, axisBeats]
      simp
    · have hfirst := drop_axisBeats (j := 0) (Nat.mul_zero 8 ▸ List.length_pos_iff.mpr hne)
      rw [List.drop_zero] at hfirst
      rw [List.flatMap_cons, hfirst, List.cons_append, List.cons.injEq] at h
      exact ⟨buf, bufs, h.1.symm, h.2.symm, List.flatMap_cons⟩

theorem taken_of_sent (h : s.taken i = none) : s.sent i = none := by
  simp only [taken, tready, sent] at *
  cases hst : s.state <;> cases hr : i.ready <;> simp_all

/-- The egress byte of a header. -/
theorem egressBad_axisBeat {buf : List Byte} (hP : portCount ≤ 16) :
    egressBad portCount (axisBeat buf 0) = true ↔ portCount ≤ (buf.getD 0 0).toNat := by
  have hbyte : (axisBeat buf 0).tdata.extractLsb' 0 8 = buf.getD 0 0 :=
    extractLsb'_lanes (fun k => buf.getD (0 + k) 0) (l := 0) (by decide)
  rw [egressBad, hbyte, decide_eq_true_eq, BitVec.le_def, BitVec.toNat_ofNat,
    Nat.mod_eq_of_lt (show portCount < 2 ^ 8 by omega)]

theorem egress_axisBeat {buf : List Byte} (h : (buf.getD 0 0).toNat < 16) :
    ((axisBeat buf 0).tdata.extractLsb' 0 4).toNat = (buf.getD 0 0).toNat := by
  have hbyte : (axisBeat buf 0).tdata.extractLsb' 0 8 = buf.getD 0 0 :=
    extractLsb'_lanes (fun k => buf.getD (0 + k) 0) (l := 0) (by decide)
  rw [← hbyte] at h ⊢
  simp only [BitVec.extractLsb'_toNat, Nat.shiftRight_zero] at h ⊢
  omega

/-- The header of a buffer is taken. -/
theorem Tracks.header (hP : portCount ≤ 16) {buf : List Byte} {bufs : List (List Byte)}
    (hst : s.state = .hdr) :
    (s.accept portCount (axisBeat buf 0)).Tracks portCount
      ((axisBeats buf).drop 1 ++ bufs.flatMap axisBeats)
      (payload portCount buf ++ bufs.flatMap (payload portCount)) := by
  have hlast : (axisBeat buf 0).tlast = decide (buf.length ≤ 0 + 8) := rfl
  by_cases hshort : buf.length ≤ 0 + 8
  · refine .hdr bufs ?_ ?_ ?_
    · simp only [accept, hst, hlast, decide_eq_true hshort, if_true]
    · rw [drop_axisBeats_of_last (j := 0) (by omega), List.nil_append]
    · have hdrop : buf.drop 8 = [] := List.drop_eq_nil_iff.mpr (by omega)
      rw [payload, hdrop, axisBeats]
      simp
  · have hlong : 8 * 1 < buf.length := by omega
    by_cases hport : portCount ≤ (buf.getD 0 0).toNat
    · refine .drop buf 1 bufs ?_ hlong rfl ?_
      · simp only [accept, hst, hlast, decide_eq_false hshort, (egressBad_axisBeat hP).mpr hport,
          if_true, Bool.false_eq_true, if_false]
      · rw [payload, if_neg (Nat.not_lt.mpr hport), List.nil_append]
    · refine .pay buf 1 bufs ?_ hlong rfl ?_
      · have hgood : ¬ egressBad portCount (axisBeat buf 0) = true := by
          rw [egressBad_axisBeat hP]
          exact hport
        simp only [accept, hst, hlast, decide_eq_false hshort, Bool.false_eq_true, if_neg hgood,
          if_false]
      · have heg : (s.accept portCount (axisBeat buf 0)).egress.toNat = (buf.getD 0 0).toNat := by
          simp only [accept, hst]
          exact egress_axisBeat (by omega)
        rw [payload, if_pos (by omega), heg, drop_one_axisBeats]

/-- A beat of the payload is taken. -/
theorem Tracks.payloadBeat {buf : List Byte} {bufs : List (List Byte)} {j : ℕ}
    (hst : s.state = .pay) :
    (s.accept portCount (axisBeat buf (8 * j))).Tracks portCount
      ((axisBeats buf).drop (j + 1) ++ bufs.flatMap axisBeats)
      (((axisBeats buf).drop (j + 1)).map (fun b => (s.egress.toNat, b)) ++
        bufs.flatMap (payload portCount)) := by
  have hlast : (axisBeat buf (8 * j)).tlast = decide (buf.length ≤ 8 * j + 8) := rfl
  by_cases hend : buf.length ≤ 8 * j + 8
  · refine .hdr bufs ?_ ?_ ?_
    · simp only [accept, hst, hlast, decide_eq_true hend, if_true]
    · rw [drop_axisBeats_of_last hend, List.nil_append]
    · rw [drop_axisBeats_of_last hend, List.map_nil, List.nil_append]
  · refine .pay buf (j + 1) bufs ?_ (by omega) rfl ?_
    · simp only [accept, hst, hlast, decide_eq_false hend, Bool.false_eq_true, if_false]
    · simp only [accept, hst]

/-- A beat is swallowed. -/
theorem Tracks.dropBeat {buf : List Byte} {bufs : List (List Byte)} {j : ℕ}
    (hst : s.state = .drop) :
    (s.accept portCount (axisBeat buf (8 * j))).Tracks portCount
      ((axisBeats buf).drop (j + 1) ++ bufs.flatMap axisBeats)
      (bufs.flatMap (payload portCount)) := by
  have hlast : (axisBeat buf (8 * j)).tlast = decide (buf.length ≤ 8 * j + 8) := rfl
  by_cases hend : buf.length ≤ 8 * j + 8
  · refine .hdr bufs ?_ ?_ rfl
    · simp only [accept, hst, hlast, decide_eq_true hend, if_true]
    · rw [drop_axisBeats_of_last hend, List.nil_append]
  · refine .drop buf (j + 1) bufs ?_ (by omega) rfl rfl
    simp only [accept, hst, hlast, decide_eq_false hend, Bool.false_eq_true, if_false]

/-- **One cycle of the header strip.** -/
theorem Tracks.step (hP : portCount ≤ 16)
    (h : s.Tracks portCount ((s.taken i).toList ++ todo) out) :
    ∃ out', out = (s.sent i).toList ++ out' ∧ (s.step portCount i).Tracks portCount todo out' := by
  cases ht : s.taken i with
  | none =>
    rw [ht] at h
    refine ⟨out, by rw [taken_of_sent ht]; rfl, ?_⟩
    rw [InjStrip.step, ht]
    exact h
  | some b =>
    rw [ht] at h
    have hoff : s.tready i = true ∧ i.offered = some b := by
      simp only [taken] at ht
      split at ht
      · exact ⟨‹_›, ht⟩
      · cases ht
    rw [InjStrip.step, ht]
    rcases h with ⟨bufs, hst, hin, rfl⟩ | ⟨buf, j, bufs, hst, hj, hin, rfl⟩ |
      ⟨buf, j, bufs, hst, hj, hin, rfl⟩
    · obtain ⟨buf, bufs', rfl, rfl, hout⟩ := exists_buf portCount hin.symm
      refine ⟨_, ?_, Tracks.header hP hst⟩
      rw [hout]
      simp [sent, hst]
    · have hready : i.ready = true := by simpa [tready, hst] using hoff.1
      rw [drop_axisBeats hj, List.cons_append, Option.toList_some, List.singleton_append,
        List.cons.injEq] at hin
      obtain ⟨rfl, rfl⟩ := hin
      refine ⟨_, ?_, Tracks.payloadBeat hst⟩
      rw [drop_axisBeats hj]
      simp [sent, hst, hready, hoff.2]
    · rw [drop_axisBeats hj, List.cons_append, Option.toList_some, List.singleton_append,
        List.cons.injEq] at hin
      obtain ⟨rfl, rfl⟩ := hin
      refine ⟨_, ?_, Tracks.dropBeat hst⟩
      simp [sent, hst]

/-- With nothing more to come in, nothing is still to go out. -/
theorem Tracks.done (h : s.Tracks portCount [] out) : out = [] := by
  rcases h with ⟨bufs, -, hin, rfl⟩ | ⟨buf, j, bufs, -, hj, hin, -⟩ | ⟨buf, j, bufs, -, hj, hin, -⟩
  · rw [List.flatMap_eq_nil_iff]
    intro buf hbuf
    have hnil := List.flatMap_eq_nil_iff.mp hin.symm buf hbuf
    rw [payload, ← drop_one_axisBeats, hnil]
    simp
  · rw [drop_axisBeats hj] at hin
    cases hin
  · rw [drop_axisBeats hj] at hin
    cases hin

/-- **Each buffer gives its payload.** -/
theorem buffers_sent (hP : portCount ≤ 16) {egress : BitVec 4} {bufs : List (List Byte)}
    {ins : List (SlowpathIn Beat)} {rest : List Beat}
    (h : outputs taken (step portCount) { egress } ins ++ rest = bufs.flatMap axisBeats) :
    outputs sent (step portCount) { egress } ins <+: bufs.flatMap (payload portCount) ∧
      (rest = [] →
        outputs sent (step portCount) { egress } ins = bufs.flatMap (payload portCount)) := by
  have hstart : ({ egress } : InjStrip).Tracks portCount
      (outputs taken (step portCount) { egress } ins ++ rest) (bufs.flatMap (payload portCount)) :=
    .hdr bufs rfl h rfl
  obtain ⟨out, hout, hend⟩ := outputs_transduce (fun _ _ _ _ h => h.step hP) hstart
  refine ⟨⟨out, hout.symm⟩, fun hrest => ?_⟩
  subst hrest
  rw [hout, hend.done, List.append_nil]

end InjStrip

/-! ## Punt -/

/-- A beat of the punt stream. -/
structure PuntBeat extends Beat where
  tuser : BitVec 100
  deriving DecidableEq, Repr

/-- A punted frame: what the classifier says of it, and its bytes. -/
structure PuntFrame where
  lif : BitVec 32
  ingress : BitVec 4
  rxTs : BitVec 64
  bytes : List Byte
  bytes_ne : bytes ≠ []

/-- `PSAF_BEATS`. -/
def psafBeats : ℕ := 1280

/-- `psaf_st`. -/
inductive PsafState where
  | fill
  | hdr
  | drain
  | drop
  deriving DecidableEq, Repr

/-- The store-and-forward buffer with the header. -/
structure PuntSaf where
  st : PsafState := .fill
  psafD : ℕ → BitVec 64
  psafK : ℕ → BitVec 8
  wr : BitVec 11 := 0
  rd : BitVec 11 := 0
  n : BitVec 11 := 0
  len : BitVec 16
  lenAcc : BitVec 16 := 0
  lif : BitVec 32
  ing : BitVec 4
  dq : BitVec 64
  kq : BitVec 8

/-- `keepcnt`. -/
def keepcnt (k : BitVec 8) : BitVec 5 :=
  (List.range 8).foldl (fun c i => if k.getLsbD i then c + 1 else c) 0

namespace PuntSaf

variable (s : PuntSaf) (i : SlowpathIn PuntBeat) (b : PuntBeat)

/-- `s_punt_tready`. -/
def tready : Bool := s.st = .fill || s.st = .drop

/-- The beat that is taken from the data plane. -/
def taken : Option PuntBeat := if s.tready then i.offered else none

/-- `punt_dp.tvalid`. -/
def tvalid : Bool := s.st = .hdr || s.st = .drain

/-- `punt_hdr`. -/
def puntHdr : BitVec 64 := 0#8 ++ s.len ++ 0#4 ++ s.ing ++ s.lif

/-- The beat on `punt_dp`. -/
def beat : Beat :=
  { tdata := if s.st = .hdr then s.puntHdr else s.dq
    tkeep := if s.st = .hdr then 255 else s.kq
    tlast := s.st = .drain && s.rd == s.n }

/-- The beat that the FIFO takes. -/
def sent : Option Beat := if s.tvalid && i.ready then some s.beat else none

/-- `rd_nxt`: the read of the memory is one ahead. -/
def rdNxt : BitVec 11 := if s.st = .drain && i.ready then s.rd + 1 else s.rd

/-- A beat is stored, or seen to be one too many. -/
def fill : PuntSaf :=
  let s' := { s with
    psafD := Function.update s.psafD s.wr.toNat b.tdata
    psafK := Function.update s.psafK s.wr.toNat b.tkeep
    lenAcc := s.lenAcc + (keepcnt b.tkeep).setWidth 16 }
  if b.tlast then
    { s' with
      n := s.wr
      len := s.lenAcc + (keepcnt b.tkeep).setWidth 16
      lif := b.tuser.extractLsb' 0 32
      ing := b.tuser.extractLsb' 32 4
      rd := 0
      st := .hdr }
  else if s.wr = BitVec.ofNat 11 (psafBeats - 1) then { s' with st := .drop }
  else { s' with wr := s.wr + 1 }

/-- The buffer is free for the next frame. -/
def rearm : PuntSaf := { s with st := .fill, wr := 0, lenAcc := 0 }

/-- The state machine. -/
def next : PuntSaf :=
  match s.st with
  | .fill => (i.offered.map s.fill).getD s
  | .drop => if (i.offered.map (·.tlast)).getD false then s.rearm else s
  | .hdr => if i.ready then { s with st := .drain } else s
  | .drain =>
    if i.ready then
      let s' := { s with rd := s.rd + 1 }
      if s.rd = s.n then s'.rearm else s'
    else s

/-- One cycle: the state machine and the registered read of the memory. -/
def step : PuntSaf :=
  { s.next i with dq := s.psafD (s.rdNxt i).toNat, kq := s.psafK (s.rdNxt i).toNat }

/-- `dp_rst`: the memory and the registers of the header keep what they have. -/
def reset : PuntSaf := { s with st := .fill, wr := 0, rd := 0, n := 0, lenAcc := 0 }

end PuntSaf

namespace PuntFrame

variable (f : PuntFrame)

/-- `s_punt_tuser` of the frame. -/
def tuser : BitVec 100 := f.rxTs ++ f.ingress ++ f.lif

/-- The beats of the frame. -/
def beats : List PuntBeat := (axisBeats f.bytes).map fun b => ⟨b, f.tuser⟩

/-- The frame is within the size limit. -/
def Fits : Prop := f.bytes.length ≤ 8 * psafBeats

instance : Decidable f.Fits := inferInstanceAs (Decidable (_ ≤ _))

/-- The message of a frame. -/
def msg (h : f.Fits) : PuntMsg :=
  { lif := f.lif, ingress := f.ingress, frame := f.bytes, frame_ne := f.bytes_ne, length_le := h }

/-- What a frame is to give: its message, or nothing when it is too long. -/
def message : List Beat := if h : f.Fits then axisBeats (f.msg h).bytes else []

end PuntFrame

namespace PuntFrame

variable (f : PuntFrame)

/-- The index of the last beat. -/
def last : ℕ := (f.bytes.length - 1) / 8

theorem length_pos : 0 < f.bytes.length := List.length_pos_iff.mpr f.bytes_ne

theorem drop_beats {j : ℕ} (h : 8 * j < f.bytes.length) :
    f.beats.drop j =
      ⟨axisBeat f.bytes (8 * j), f.tuser⟩ :: f.beats.drop (j + 1) := by
  rw [beats, ← List.map_drop, drop_axisBeats h, List.map_cons, List.map_drop]

theorem drop_beats_of_last {j : ℕ} (h : f.bytes.length ≤ 8 * j + 8) :
    f.beats.drop (j + 1) = [] := by
  rw [beats, ← List.map_drop, drop_axisBeats_of_last h, List.map_nil]

/-- The header beat of the message. -/
def hdrBeat : Beat :=
  { tdata := 0#8 ++ BitVec.ofNat 16 f.bytes.length ++ 0#4 ++ f.ingress ++ f.lif
    tkeep := 255
    tlast := false }

theorem lif_of_tuser : f.tuser.extractLsb' 0 32 = f.lif :=
  BitVec.extractLsb'_append_eq_right (a := f.rxTs ++ f.ingress)

theorem ingress_of_tuser : f.tuser.extractLsb' 32 4 = f.ingress := by
  have h : (f.rxTs ++ f.ingress ++ f.lif).extractLsb' 32 4 = (f.rxTs ++ f.ingress).extractLsb' 0 4 :=
    BitVec.extractLsb'_append_eq_of_le (Nat.le_refl 32)
  exact h.trans BitVec.extractLsb'_append_eq_right

end PuntFrame

/-- The bytes of a beat that are kept. -/
theorem keepcnt_axisBeat (bytes : List Byte) (off : ℕ) :
    keepcnt (axisBeat bytes off).tkeep = BitVec.ofNat 5 (min 8 (bytes.length - off)) := by
  have hcount : ∀ d : Fin 9, keepcnt (ofBits fun k : Fin 8 => decide (k.val < d.val)) =
      BitVec.ofNat 5 d.val := by
    decide +kernel
  have hkeep : (axisBeat bytes off).tkeep =
      ofBits fun k : Fin 8 => decide (k.val < min 8 (bytes.length - off)) := by
    simp only [axisBeat]
    congr 1
    funext k
    rw [decide_eq_decide]
    omega
  rw [hkeep]
  exact hcount ⟨min 8 (bytes.length - off), by omega⟩

/-- The first eight bytes of a message as one beat. -/
theorem lanes_header (lif : BitVec 32) (ing : BitVec 4) (len : BitVec 16) (rest : List Byte) :
    lanes (fun k => (leBytes 4 lif ++ ([0#4 ++ ing] ++ (leBytes 2 len ++ ([0] ++ rest)))).getD k 0) =
      0#8 ++ len ++ 0#4 ++ ing ++ lif := by
  have hbytes : lanes (fun k =>
      (leBytes 4 lif ++ ([0#4 ++ ing] ++ (leBytes 2 len ++ ([0] ++ rest)))).getD k 0) =
      0#8 ++ len.extractLsb' 8 8 ++ len.extractLsb' 0 8 ++ (0#4 ++ ing) ++ lif.extractLsb' 24 8 ++
        lif.extractLsb' 16 8 ++ lif.extractLsb' 8 8 ++ lif.extractLsb' 0 8 := rfl
  rw [hbytes]
  apply BitVec.eq_of_getLsbD_eq
  intro i hi
  change (0#8 ++ len.extractLsb' 8 8 ++ len.extractLsb' 0 8 ++ (0#4 ++ ing) ++ lif.extractLsb' 24 8 ++
        lif.extractLsb' 16 8 ++ lif.extractLsb' 8 8 ++ lif.extractLsb' 0 8 : BitVec (8 + 8 + 8 + (4 + 4) + 8 + 8 + 8 + 8)).getLsbD i = (0#8 ++ len ++ 0#4 ++ ing ++ lif : BitVec (8 + 16 + 4 + 4 + 32)).getLsbD i
  simp only [BitVec.getLsbD_append, BitVec.getLsbD_extractLsb', BitVec.getLsbD_zero]
  grind

theorem PuntMsg.drop_bytes (m : PuntMsg) : m.bytes.drop 8 = m.frame := by
  simp [PuntMsg.bytes, leBytes, List.range_succ]

theorem PuntMsg.length_bytes (m : PuntMsg) : m.bytes.length = 8 + m.frame.length := by
  simp [PuntMsg.bytes, leBytes]
  omega

/-- **The beats of a message** are the header and the beats of the frame. -/
theorem PuntFrame.message_eq (f : PuntFrame) (h : f.Fits) :
    f.message = f.hdrBeat :: axisBeats f.bytes := by
  have hlen := (f.msg h).length_bytes
  have hpos := f.length_pos
  have hfull : 8 * 0 < (f.msg h).bytes.length := by omega
  have hfirst := drop_axisBeats hfull
  rw [List.drop_zero, drop_one_axisBeats, PuntMsg.drop_bytes] at hfirst
  rw [message, dif_pos h, hfirst, List.cons.injEq]
  refine ⟨?_, rfl⟩
  rw [axisBeat, hdrBeat, Beat.mk.injEq]
  refine ⟨?_, ?_, ?_⟩
  · simp only [Nat.mul_zero, Nat.zero_add]
    exact lanes_header ..
  · have hkeep : ∀ k : Fin 8, decide (8 * 0 + k.val < (f.msg h).bytes.length) = true := by
      intro k
      rw [decide_eq_true_eq]
      omega
    simp only [hkeep]
    decide
  · rw [decide_eq_false_iff_not]
    have hframe : (f.msg h).frame.length = f.bytes.length := rfl
    omega

namespace PuntSaf

variable (s : PuntSaf)

/-- The memory has the first `m` beats of a frame. -/
def Stored (f : PuntFrame) (m : ℕ) : Prop :=
  ∀ k < m, s.psafD k = (axisBeat f.bytes (8 * k)).tdata ∧ s.psafK k = (axisBeat f.bytes (8 * k)).tkeep

/-- The buffer has a whole frame. -/
structure Full (f : PuntFrame) : Prop where
  fits : f.Fits
  stored : s.Stored f (f.last + 1)
  n : s.n = BitVec.ofNat 11 f.last

/-- What is still to come in and to go out: `todo` and `out`. -/
inductive Tracks (todo : List PuntBeat) (out : List Beat) : Prop
  /-- Between two frames. -/
  | idle (fs : List PuntFrame) (hst : s.st = .fill) (hwr : s.wr = 0) (hacc : s.lenAcc = 0)
      (hin : todo = fs.flatMap PuntFrame.beats) (hout : out = fs.flatMap PuntFrame.message)
  /-- Some beats of a frame are stored. -/
  | fill (f : PuntFrame) (j : ℕ) (fs : List PuntFrame) (hst : s.st = .fill)
      (hj : 8 * j < f.bytes.length) (hroom : j < psafBeats) (hwr : s.wr = BitVec.ofNat 11 j)
      (hacc : s.lenAcc = BitVec.ofNat 16 (8 * j)) (hmem : s.Stored f j)
      (hin : todo = f.beats.drop j ++ fs.flatMap PuntFrame.beats)
      (hout : out = f.message ++ fs.flatMap PuntFrame.message)
  /-- The frame is stored, and the header is next. -/
  | hdr (f : PuntFrame) (fs : List PuntFrame) (hst : s.st = .hdr) (hfull : s.Full f)
      (hrd : s.rd = 0) (hbeat : s.puntHdr = f.hdrBeat.tdata)
      (hin : todo = fs.flatMap PuntFrame.beats)
      (hout : out = f.message ++ fs.flatMap PuntFrame.message)
  /-- A beat of the frame is next. -/
  | drain (f : PuntFrame) (j : ℕ) (fs : List PuntFrame) (hst : s.st = .drain) (hfull : s.Full f)
      (hj : 8 * j < f.bytes.length) (hrd : s.rd = BitVec.ofNat 11 j)
      (hdq : s.dq = (axisBeat f.bytes (8 * j)).tdata)
      (hkq : s.kq = (axisBeat f.bytes (8 * j)).tkeep)
      (hin : todo = fs.flatMap PuntFrame.beats)
      (hout : out = (axisBeats f.bytes).drop j ++ fs.flatMap PuntFrame.message)
  /-- In a frame that is too long. -/
  | drop (f : PuntFrame) (j : ℕ) (fs : List PuntFrame) (hst : s.st = .drop) (hlong : ¬ f.Fits)
      (hj : 8 * j < f.bytes.length)
      (hin : todo = f.beats.drop j ++ fs.flatMap PuntFrame.beats)
      (hout : out = fs.flatMap PuntFrame.message)

variable {s} {i : SlowpathIn PuntBeat} {todo : List PuntBeat} {out : List Beat}

/-- The registered read does not matter before the frame is drained. -/
theorem Tracks.withRead (h : s.Tracks todo out) (hst : s.st ≠ .drain) (d : BitVec 64) (k : BitVec 8) :
    ({ s with dq := d, kq := k } : PuntSaf).Tracks todo out := by
  rcases h with ⟨fs, hst, hwr, hacc, hin, hout⟩ |
    ⟨f, j, fs, hst, hj, hroom, hwr, hacc, hmem, hin, hout⟩ |
    ⟨f, fs, hst, ⟨hfits, hmem, hn⟩, hrd, hbeat, hin, hout⟩ | ⟨f, j, fs, hst', -⟩ |
    ⟨f, j, fs, hst, hlong, hj, hin, hout⟩
  · exact .idle fs hst hwr hacc hin hout
  · exact .fill f j fs hst hj hroom hwr hacc hmem hin hout
  · exact .hdr f fs hst ⟨hfits, hmem, hn⟩ hrd hbeat hin hout
  · exact absurd hst' hst
  · exact .drop f j fs hst hlong hj hin hout

/-- The length after a beat. -/
theorem lenAcc_add {bytes : List Byte} {j : ℕ} (h : 8 * j < bytes.length) :
    BitVec.ofNat 16 (8 * j) + (keepcnt (axisBeat bytes (8 * j)).tkeep).setWidth 16 =
      BitVec.ofNat 16 (min (8 * j + 8) bytes.length) := by
  have hmin : min (8 * j + 8) bytes.length = 8 * j + min 8 (bytes.length - 8 * j) := by omega
  have hcnt : (BitVec.ofNat 5 (min 8 (bytes.length - 8 * j))).setWidth 16 =
      BitVec.ofNat 16 (min 8 (bytes.length - 8 * j)) := by
    apply BitVec.eq_of_toNat_eq
    rw [BitVec.toNat_setWidth, BitVec.toNat_ofNat, BitVec.toNat_ofNat]
    omega
  rw [keepcnt_axisBeat, hcnt, hmin, BitVec.ofNat_add]

theorem Stored.fill {f : PuntFrame} {j : ℕ} (hmem : s.Stored f j) (hwr : s.wr.toNat = j) :
    (s.fill ⟨axisBeat f.bytes (8 * j), f.tuser⟩).Stored f (j + 1) := by
  intro k hk
  have hD : (s.fill ⟨axisBeat f.bytes (8 * j), f.tuser⟩).psafD =
      Function.update s.psafD j (axisBeat f.bytes (8 * j)).tdata := by
    simp only [PuntSaf.fill, hwr]
    split_ifs <;> rfl
  have hK : (s.fill ⟨axisBeat f.bytes (8 * j), f.tuser⟩).psafK =
      Function.update s.psafK j (axisBeat f.bytes (8 * j)).tkeep := by
    simp only [PuntSaf.fill, hwr]
    split_ifs <;> rfl
  rw [hD, hK]
  by_cases hkj : k = j
  · rw [hkj, Function.update_self, Function.update_self]
    exact ⟨rfl, rfl⟩
  · rw [Function.update_of_ne hkj, Function.update_of_ne hkj]
    exact hmem k (by omega)

/-- The next beat of a frame comes while the buffer has room for it. -/
theorem Tracks.stored {f : PuntFrame} {j : ℕ} {fs : List PuntFrame} (hst : s.st = .fill)
    (hj : 8 * j < f.bytes.length) (hroom : j < psafBeats) (hwr : s.wr = BitVec.ofNat 11 j)
    (hacc : s.lenAcc = BitVec.ofNat 16 (8 * j)) (hmem : s.Stored f j) :
    (s.fill ⟨axisBeat f.bytes (8 * j), f.tuser⟩).Tracks
      (f.beats.drop (j + 1) ++ fs.flatMap PuntFrame.beats)
      (f.message ++ fs.flatMap PuntFrame.message) := by
  have hwrNat : s.wr.toNat = j := by
    rw [hwr, BitVec.toNat_ofNat]
    simp only [psafBeats] at hroom
    omega
  have hstored := hmem.fill hwrNat
  have hlen := lenAcc_add hj
  rw [← hacc] at hlen
  have hlast : (axisBeat f.bytes (8 * j)).tlast = decide (f.bytes.length ≤ 8 * j + 8) := rfl
  by_cases hend : f.bytes.length ≤ 8 * j + 8
  · have hj' : f.last = j := by
      rw [PuntFrame.last]
      omega
    rw [decide_eq_true hend] at hlast
    rw [PuntFrame.drop_beats_of_last f hend, List.nil_append]
    refine .hdr f fs ?_ ⟨?_, ?_, ?_⟩ ?_ ?_ rfl rfl
    · simp only [PuntSaf.fill, hlast, if_true]
    · rw [PuntFrame.Fits]
      omega
    · rw [hj']
      exact hstored
    · simp only [PuntSaf.fill, hlast, if_true]
      rw [hwr, hj']
    · simp only [PuntSaf.fill, hlast, if_true]
    · simp only [PuntSaf.fill, hlast, if_true, PuntSaf.puntHdr, PuntFrame.hdrBeat]
      rw [hlen, f.lif_of_tuser, f.ingress_of_tuser, Nat.min_eq_right hend]
  · rw [decide_eq_false hend] at hlast
    by_cases hfull : j = psafBeats - 1
    · have hat : s.wr = BitVec.ofNat 11 (psafBeats - 1) := by rw [hwr, hfull]
      have hlong : ¬ f.Fits := by
        rw [PuntFrame.Fits]
        omega
      refine .drop f (j + 1) fs ?_ hlong (by omega) rfl ?_
      · simp only [PuntSaf.fill, hlast, Bool.false_eq_true, if_false, if_pos hat]
      · rw [PuntFrame.message, dif_neg hlong, List.nil_append]
    · have hat : s.wr ≠ BitVec.ofNat 11 (psafBeats - 1) := by
        intro h
        have hval := congrArg BitVec.toNat h
        rw [hwrNat] at hval
        exact hfull hval
      refine .fill f (j + 1) fs ?_ (by omega) (by omega) ?_ ?_ hstored rfl rfl
      · simp only [PuntSaf.fill, hlast, Bool.false_eq_true, if_false, if_neg hat]
        exact hst
      · simp only [PuntSaf.fill, hlast, Bool.false_eq_true, if_false, if_neg hat]
        rw [hwr, BitVec.ofNat_add]
        rfl
      · simp only [PuntSaf.fill, hlast, Bool.false_eq_true, if_false, if_neg hat]
        rw [hlen, Nat.min_eq_left (by omega)]
        rfl

/-- A beat of a frame that is too long is swallowed. -/
theorem Tracks.swallowed {f : PuntFrame} {j : ℕ} {fs : List PuntFrame} (hst : s.st = .drop)
    (hlong : ¬ f.Fits) :
    (if (axisBeat f.bytes (8 * j)).tlast then s.rearm else s).Tracks
      (f.beats.drop (j + 1) ++ fs.flatMap PuntFrame.beats) (fs.flatMap PuntFrame.message) := by
  have hlast : (axisBeat f.bytes (8 * j)).tlast = decide (f.bytes.length ≤ 8 * j + 8) := rfl
  by_cases hend : f.bytes.length ≤ 8 * j + 8
  · rw [hlast, decide_eq_true hend, if_pos rfl]
    refine .idle fs rfl rfl rfl ?_ rfl
    rw [PuntFrame.drop_beats_of_last f hend, List.nil_append]
  · rw [hlast, decide_eq_false hend, if_neg Bool.false_ne_true]
    exact .drop f (j + 1) fs hst hlong (by omega) rfl rfl

/-- The frame is drained from its first beat on. -/
theorem Tracks.header {f : PuntFrame} {fs : List PuntFrame} (hfull : s.Full f) (hrd : s.rd = 0) :
    ({ s with st := .drain, dq := s.psafD 0, kq := s.psafK 0 } : PuntSaf).Tracks
      (fs.flatMap PuntFrame.beats) (axisBeats f.bytes ++ fs.flatMap PuntFrame.message) := by
  obtain ⟨hdq, hkq⟩ := hfull.stored 0 (Nat.succ_pos _)
  exact .drain f 0 fs rfl ⟨hfull.fits, hfull.stored, hfull.n⟩ f.length_pos hrd hdq hkq rfl rfl

/-- The mark of the last beat. -/
theorem Full.tlast {f : PuntFrame} {j : ℕ} (hfull : s.Full f) (hj : 8 * j < f.bytes.length)
    (hrd : s.rd = BitVec.ofNat 11 j) : s.rd = s.n ↔ f.bytes.length ≤ 8 * j + 8 := by
  have hfits := hfull.fits
  simp only [PuntFrame.Fits, psafBeats] at hfits
  rw [hrd, hfull.n, ← BitVec.toNat_inj, BitVec.toNat_ofNat, BitVec.toNat_ofNat, PuntFrame.last]
  omega

/-- A beat of the frame has left. -/
theorem Tracks.drained {f : PuntFrame} {j : ℕ} {fs : List PuntFrame} (hst : s.st = .drain)
    (hfull : s.Full f) (hj : 8 * j < f.bytes.length) (hrd : s.rd = BitVec.ofNat 11 j) :
    ({ (if s.rd = s.n then ({ s with rd := s.rd + 1 } : PuntSaf).rearm
        else { s with rd := s.rd + 1 }) with
      dq := s.psafD (s.rd + 1).toNat, kq := s.psafK (s.rd + 1).toNat } : PuntSaf).Tracks
      (fs.flatMap PuntFrame.beats)
      ((axisBeats f.bytes).drop (j + 1) ++ fs.flatMap PuntFrame.message) := by
  by_cases hend : f.bytes.length ≤ 8 * j + 8
  · rw [if_pos ((hfull.tlast hj hrd).mpr hend), drop_axisBeats_of_last hend, List.nil_append]
    exact .idle fs rfl rfl rfl rfl rfl
  · rw [if_neg (fun h => hend ((hfull.tlast hj hrd).mp h))]
    have hfits := hfull.fits
    simp only [PuntFrame.Fits, psafBeats] at hfits
    have hnext : s.rd + 1 = BitVec.ofNat 11 (j + 1) := by
      rw [hrd, BitVec.ofNat_add]
      rfl
    have hidx : (s.rd + 1).toNat = j + 1 := by
      rw [hnext, BitVec.toNat_ofNat]
      omega
    obtain ⟨hdq, hkq⟩ := hfull.stored (j + 1) (by rw [PuntFrame.last]; omega)
    refine .drain f (j + 1) fs hst ⟨hfull.fits, hfull.stored, hfull.n⟩ (by omega) hnext ?_ ?_ rfl rfl
    · rw [hidx]
      exact hdq
    · rw [hidx]
      exact hkq

theorem fill_st (b : PuntBeat) (hst : s.st = .fill) : (s.fill b).st ≠ .drain := by
  simp only [PuntSaf.fill]
  split_ifs <;> simp [hst]

/-- A cycle in which a frame is stored. -/
theorem step_of_fill (hst : s.st = .fill)
    (hnone : i.offered = none → s.Tracks todo out)
    (hsome : ∀ b, i.offered = some b → (s.fill b).Tracks todo out) :
    ∃ out', out = (s.sent i).toList ++ out' ∧ (s.step i).Tracks todo out' := by
  have hquiet : s.sent i = none := by simp [sent, tvalid, hst]
  refine ⟨out, by rw [hquiet]; rfl, ?_⟩
  cases hoff : i.offered with
  | none =>
    have hnext : s.next i = s := by simp only [next, hst, hoff, Option.map_none, Option.getD_none]
    rw [PuntSaf.step, hnext]
    exact (hnone hoff).withRead (by simp [hst]) _ _
  | some b =>
    have hnext : s.next i = s.fill b := by
      simp only [next, hst, hoff, Option.map_some, Option.getD_some]
    rw [PuntSaf.step, hnext]
    exact (hsome b hoff).withRead (fill_st b hst) _ _

/-- A cycle in which a frame that is too long is swallowed. -/
theorem step_of_drop (hst : s.st = .drop)
    (hnone : i.offered = none → s.Tracks todo out)
    (hsome : ∀ b, i.offered = some b → (if b.tlast then s.rearm else s).Tracks todo out) :
    ∃ out', out = (s.sent i).toList ++ out' ∧ (s.step i).Tracks todo out' := by
  have hquiet : s.sent i = none := by simp [sent, tvalid, hst]
  refine ⟨out, by rw [hquiet]; rfl, ?_⟩
  cases hoff : i.offered with
  | none =>
    have hnext : s.next i = s := by
      simp only [next, hst, hoff, Option.map_none, Option.getD_none, Bool.false_eq_true, if_false]
    rw [PuntSaf.step, hnext]
    exact (hnone hoff).withRead (by simp [hst]) _ _
  | some b =>
    have hnext : s.next i = if b.tlast then s.rearm else s := by
      simp only [next, hst, hoff, Option.map_some, Option.getD_some]
    rw [PuntSaf.step, hnext]
    refine (hsome b hoff).withRead ?_ _ _
    split
    · exact PsafState.noConfusion
    · rw [hst]
      exact PsafState.noConfusion

/-- A cycle in which the header is next. -/
theorem step_of_hdr {f : PuntFrame} {fs : List PuntFrame} (hst : s.st = .hdr) (hfull : s.Full f)
    (hrd : s.rd = 0) (hbeat : s.puntHdr = f.hdrBeat.tdata) :
    ∃ out', f.message ++ fs.flatMap PuntFrame.message = (s.sent i).toList ++ out' ∧
      (s.step i).Tracks (fs.flatMap PuntFrame.beats) out' := by
  have hnxt : s.rdNxt i = 0 := by simp [rdNxt, hst, hrd]
  cases hr : i.ready with
  | false =>
    have hquiet : s.sent i = none := by simp [sent, hr]
    refine ⟨_, by rw [hquiet]; rfl, ?_⟩
    have hnext : s.next i = s := by simp only [next, hst, hr, Bool.false_eq_true, if_false]
    rw [PuntSaf.step, hnext]
    exact .hdr f fs hst ⟨hfull.fits, hfull.stored, hfull.n⟩ hrd hbeat rfl rfl
  | true =>
    have hsent : s.sent i = some f.hdrBeat := by
      simp only [sent, tvalid, beat, hst, hr, hbeat]
      rfl
    refine ⟨axisBeats f.bytes ++ fs.flatMap PuntFrame.message, ?_, ?_⟩
    · rw [hsent, f.message_eq hfull.fits]
      rfl
    · have hnext : s.next i = { s with st := .drain } := by simp only [next, hst, hr, if_true]
      rw [PuntSaf.step, hnext, hnxt]
      exact Tracks.header (s := s) hfull hrd

/-- A cycle in which a beat of the frame is next. -/
theorem step_of_drain {f : PuntFrame} {j : ℕ} {fs : List PuntFrame} (hst : s.st = .drain)
    (hfull : s.Full f) (hj : 8 * j < f.bytes.length) (hrd : s.rd = BitVec.ofNat 11 j)
    (hdq : s.dq = (axisBeat f.bytes (8 * j)).tdata)
    (hkq : s.kq = (axisBeat f.bytes (8 * j)).tkeep) :
    ∃ out', (axisBeats f.bytes).drop j ++ fs.flatMap PuntFrame.message =
        (s.sent i).toList ++ out' ∧ (s.step i).Tracks (fs.flatMap PuntFrame.beats) out' := by
  cases hr : i.ready with
  | false =>
    have hquiet : s.sent i = none := by simp [sent, hr]
    have hnxt : s.rdNxt i = s.rd := by simp [rdNxt, hr]
    refine ⟨_, by rw [hquiet]; rfl, ?_⟩
    have hnext : s.next i = s := by simp only [next, hst, hr, Bool.false_eq_true, if_false]
    rw [PuntSaf.step, hnext, hnxt]
    have hfits := hfull.fits
    simp only [PuntFrame.Fits, psafBeats] at hfits
    have hidx : s.rd.toNat = j := by
      rw [hrd, BitVec.toNat_ofNat]
      omega
    obtain ⟨hd, hk⟩ := hfull.stored j (by rw [PuntFrame.last]; omega)
    refine .drain f j fs hst ⟨hfull.fits, hfull.stored, hfull.n⟩ hj hrd ?_ ?_ rfl rfl
    · rw [hidx]
      exact hd
    · rw [hidx]
      exact hk
  | true =>
    have hlast : (s.rd == s.n) = decide (f.bytes.length ≤ 8 * j + 8) := by
      rw [beq_eq_decide, decide_eq_decide]
      exact hfull.tlast hj hrd
    have hsent : s.sent i = some (axisBeat f.bytes (8 * j)) := by
      simp only [sent, tvalid, beat, hst, hr, hdq, hkq, hlast]
      rfl
    have hnxt : s.rdNxt i = s.rd + 1 := by simp [rdNxt, hst, hr]
    refine ⟨(axisBeats f.bytes).drop (j + 1) ++ fs.flatMap PuntFrame.message, ?_, ?_⟩
    · rw [hsent, drop_axisBeats hj]
      rfl
    · have hnext : s.next i = if s.rd = s.n then ({ s with rd := s.rd + 1 } : PuntSaf).rearm
          else { s with rd := s.rd + 1 } := by
        simp only [next, hst, hr, if_true]
      rw [PuntSaf.step, hnext, hnxt]
      exact Tracks.drained hst hfull hj hrd

/-- **One cycle of the buffer.** -/
theorem Tracks.step (h : s.Tracks ((s.taken i).toList ++ todo) out) :
    ∃ out', out = (s.sent i).toList ++ out' ∧ (s.step i).Tracks todo out' := by
  rcases h with ⟨fs, hst, hwr, hacc, hin, rfl⟩ |
    ⟨f, j, fs, hst, hj, hroom, hwr, hacc, hmem, hin, rfl⟩ |
    ⟨f, fs, hst, hfull, hrd, hbeat, hin, rfl⟩ | ⟨f, j, fs, hst, hfull, hj, hrd, hdq, hkq, hin, rfl⟩ |
    ⟨f, j, fs, hst, hlong, hj, hin, rfl⟩
  · have htaken : s.taken i = i.offered := by simp [taken, tready, hst]
    rw [htaken] at hin
    refine step_of_fill hst (fun hoff => ?_) fun b hoff => ?_
    · rw [hoff] at hin
      exact .idle fs hst hwr hacc hin rfl
    · rw [hoff, Option.toList_some, List.singleton_append] at hin
      cases fs with
      | nil => cases hin
      | cons f fs =>
        have hbeats := f.drop_beats (j := 0) f.length_pos
        rw [List.drop_zero] at hbeats
        rw [List.flatMap_cons, hbeats, List.cons_append, List.cons.injEq] at hin
        rw [hin.1, hin.2, List.flatMap_cons]
        exact Tracks.stored hst f.length_pos (by decide) hwr hacc fun k hk => absurd hk (Nat.not_lt_zero k)
  · have htaken : s.taken i = i.offered := by simp [taken, tready, hst]
    rw [htaken] at hin
    refine step_of_fill hst (fun hoff => ?_) fun b hoff => ?_
    · rw [hoff] at hin
      exact .fill f j fs hst hj hroom hwr hacc hmem hin rfl
    · rw [hoff, Option.toList_some, List.singleton_append, f.drop_beats hj, List.cons_append,
        List.cons.injEq] at hin
      rw [hin.1, hin.2]
      exact Tracks.stored hst hj hroom hwr hacc hmem
  · have hno : s.taken i = none := by simp [taken, tready, hst]
    rw [hno, Option.toList_none, List.nil_append] at hin
    rw [hin]
    exact step_of_hdr hst hfull hrd hbeat
  · have hno : s.taken i = none := by simp [taken, tready, hst]
    rw [hno, Option.toList_none, List.nil_append] at hin
    rw [hin]
    exact step_of_drain hst hfull hj hrd hdq hkq
  · have htaken : s.taken i = i.offered := by simp [taken, tready, hst]
    rw [htaken] at hin
    refine step_of_drop hst (fun hoff => ?_) fun b hoff => ?_
    · rw [hoff] at hin
      exact .drop f j fs hst hlong hj hin rfl
    · rw [hoff, Option.toList_some, List.singleton_append, f.drop_beats hj, List.cons_append,
        List.cons.injEq] at hin
      rw [hin.1, hin.2]
      exact Tracks.swallowed hst hlong

/-- With nothing more to come in, what is still to go out is of one frame. -/
theorem Tracks.last_frame (h : s.Tracks [] out) :
    out = [] ∨ (s.tvalid = true ∧ out.length ≤ psafBeats + 1) := by
  have hnone : ∀ {fs : List PuntFrame}, [] = fs.flatMap PuntFrame.beats → fs = [] := by
    intro fs hfs
    cases fs with
    | nil => rfl
    | cons f fs =>
      have hbeats := f.drop_beats (j := 0) f.length_pos
      rw [List.drop_zero] at hbeats
      rw [List.flatMap_cons, hbeats] at hfs
      cases hfs
  rcases h with ⟨fs, hst, -, -, hin, rfl⟩ | ⟨f, j, fs, hst, hj, -, -, -, -, hin, rfl⟩ |
    ⟨f, fs, hst, hfull, -, -, hin, rfl⟩ | ⟨f, j, fs, hst, hfull, hj, -, -, -, hin, rfl⟩ |
    ⟨f, j, fs, hst, -, hj, hin, rfl⟩
  · rw [hnone hin]
    exact .inl rfl
  · rw [f.drop_beats hj] at hin
    cases hin
  · right
    have hfits := hfull.fits
    rw [PuntFrame.Fits] at hfits
    rw [hnone hin, f.message_eq hfull.fits]
    refine ⟨by simp [tvalid, hst], ?_⟩
    simp only [List.flatMap_nil, List.append_nil, List.length_cons, length_axisBeats]
    omega
  · right
    have hfits := hfull.fits
    rw [PuntFrame.Fits] at hfits
    rw [hnone hin]
    refine ⟨by simp [tvalid, hst], ?_⟩
    simp only [List.flatMap_nil, List.append_nil, List.length_drop, length_axisBeats]
    omega
  · rw [f.drop_beats hj] at hin
    cases hin

/-- **Each punted frame gives its message**: the messages go out in order, and all of them
once the frames are in and the other side is ready often enough. -/
theorem frames_sent (s : PuntSaf) {fs : List PuntFrame} {ins : List (SlowpathIn PuntBeat)}
    {rest : List PuntBeat} (h : outputs taken step s.reset ins ++ rest = fs.flatMap PuntFrame.beats) :
    outputs sent step s.reset ins <+: fs.flatMap PuntFrame.message ∧
      ∀ more : List (SlowpathIn PuntBeat), rest = [] → (∀ i ∈ more, i.offered = none) →
        psafBeats + 1 ≤ more.countP (·.ready) →
        outputs sent step s.reset (ins ++ more) = fs.flatMap PuntFrame.message := by
  have hstart : s.reset.Tracks (outputs taken step s.reset ins ++ rest)
      (fs.flatMap PuntFrame.message) := .idle fs rfl rfl rfl h rfl
  obtain ⟨out, hout, hend⟩ := outputs_transduce (fun _ _ _ _ h => h.step) hstart
  refine ⟨⟨out, hout.symm⟩, fun more hrest hquiet hready => ?_⟩
  subst hrest
  have hlen : out.length ≤ more.countP (·.ready) := by
    rcases hend.last_frame with rfl | ⟨-, hle⟩
    · exact Nat.zero_le _
    · exact hle.trans hready
  have hnone : ∀ (s : PuntSaf) (i : SlowpathIn PuntBeat), i.offered = none → s.taken i = none := by
    intro s i hi
    rw [taken, hi, ite_self]
  have hlive : ∀ (s : PuntSaf) (i : SlowpathIn PuntBeat) (out : List Beat), s.Tracks [] out →
      out ≠ [] → i.ready → (s.sent i).isSome := by
    intro s i out hs hne hr
    rcases hs.last_frame with rfl | ⟨hv, -⟩
    · exact absurd rfl hne
    · simp [sent, hv, hr]
  have hdrain := outputs_drain (fun _ _ _ _ h => h.step) hnone hlive hend hquiet hlen
  rw [outputs_append, hdrain, hout]

end PuntSaf

/-! ## Both directions -/

/-- **The framing of the slow path**, whatever the stalls.  A punted frame within the size
limit leaves as the beats of one message, and the host finds its interface and its bytes in
them; a longer one leaves nothing behind.  A buffer of the host leaves as its payload on
its port, if it has a payload and names a port, and as nothing otherwise. -/
theorem dma_slowpath_framing {portCount : ℕ} (hports : portCount ≤ 16) :
    (∀ (s : PuntSaf) (fs : List PuntFrame) (ins : List (SlowpathIn PuntBeat))
        (rest : List PuntBeat),
      outputs PuntSaf.taken PuntSaf.step s.reset ins ++ rest = fs.flatMap PuntFrame.beats →
      outputs PuntSaf.sent PuntSaf.step s.reset ins <+: fs.flatMap PuntFrame.message ∧
      ∀ more : List (SlowpathIn PuntBeat), rest = [] → (∀ i ∈ more, i.offered = none) →
        psafBeats + 1 ≤ more.countP (·.ready) →
        outputs PuntSaf.sent PuntSaf.step s.reset (ins ++ more) =
          fs.flatMap PuntFrame.message) ∧
    (∀ f : PuntFrame, f.Fits → ∀ (rb : Window) (buflen : ℕ), Holds rb 0 (beatBytes f.message) →
      readRxBuf rb buflen = { copied := min f.bytes.length buflen
                              outLif := some f.lif
                              data := f.bytes.take buflen }) ∧
    (∀ (egress : BitVec 4) (bufs : List (List Byte)) (ins : List (SlowpathIn Beat))
        (rest : List Beat),
      outputs InjStrip.taken (InjStrip.step portCount) { egress } ins ++ rest =
        bufs.flatMap axisBeats →
      outputs InjStrip.sent (InjStrip.step portCount) { egress } ins <+:
        bufs.flatMap (InjStrip.payload portCount) ∧
      (rest = [] → outputs InjStrip.sent (InjStrip.step portCount) { egress } ins =
        bufs.flatMap (InjStrip.payload portCount))) := by
  refine ⟨fun s fs ins rest h => s.frames_sent h, fun f hfits rb buflen hrb => ?_,
    fun egress bufs ins rest h => InjStrip.buffers_sent hports h⟩
  rw [PuntFrame.message, dif_pos hfits, beatBytes_axisBeats] at hrb
  exact PuntMsg.readRxBuf_eq hrb buflen

/-- A frame of two beats. -/
def samplePunt : PuntFrame :=
  { lif := 7, ingress := 1, rxTs := 0, bytes := [1, 2, 3, 4, 5, 6, 7, 8, 9], bytes_ne := by decide }

/-- The buffer with anything in its memory. -/
def samplePsaf : PuntSaf :=
  { psafD := fun _ => 0, psafK := fun _ => 0, len := 0, lif := 0, ing := 0, dq := 0, kq := 0 }

/-- A buffer for a port that does not exist, one that is only a header, one of two bytes for
port 1. -/
def sampleBufs : List (List Byte) :=
  [[5, 0, 0, 0, 0, 0, 0, 0, 0xAA], [1], [1, 0, 0, 0, 0, 0, 0, 0, 0xBB, 0xCC]]

/-- The beats, and one cycle in which the data plane is not ready. -/
def sampleInj : List (SlowpathIn Beat) :=
  (sampleBufs.flatMap axisBeats).flatMap fun b => [⟨some b, b.tkeep != 3⟩, ⟨none, true⟩] ++
    if b.tkeep = 3 then [⟨some b, true⟩] else []

theorem dma_slowpath_framing_two_ports :
    outputs PuntSaf.sent PuntSaf.step samplePsaf.reset
      ((samplePunt.beats.map fun b => ⟨some b, false⟩) ++
        List.replicate (psafBeats + 1) ⟨none, true⟩) = samplePunt.message ∧
    outputs InjStrip.sent (InjStrip.step 2) {} sampleInj =
      [(1, { tdata := 0xCCBB, tkeep := 3, tlast := true })] := by
  obtain ⟨hpunt, -, hinj⟩ := dma_slowpath_framing (show 2 ≤ 16 by decide)
  constructor
  · have hall := (hpunt samplePsaf [samplePunt] (samplePunt.beats.map fun b => ⟨some b, false⟩) []
      (by decide +kernel)).2 (List.replicate (psafBeats + 1) ⟨none, true⟩) rfl
      (fun i hi => by rw [List.eq_of_mem_replicate hi]) (by rw [List.countP_replicate]; rfl)
    rw [hall, List.flatMap_singleton]
  · rw [(hinj 0 sampleBufs sampleInj [] (by decide +kernel)).2 rfl]
    decide +kernel

end PacketWyrm
