import PacketWyrm.ParserAxis
import PacketWyrm.AxisStream
import PacketWyrm.Lib.Clocked

/-!
# The parser clock by clock

`pw_parser_axis` with its registers: the bytes of a frame are captured beat by beat
into the header window, and the last beat starts the three stages.

## Main definitions

* `RxBeat` — the stream of a port in a cycle.
* `ParserRegs` — the registers, `ParserRegs.step` — one clock edge.

## Main results

* `captureBeat_capture` — a beat of a frame adds its bytes to the window.
* `ParserRegs.Reads.beat`, `ParserRegs.Reads.last` — the registers during a frame and
  after it.
* `keyValid_parseFrame_iff` — which frames have a key.
-/

namespace PacketWyrm

open Lib

/-- The stream of a port in a cycle, with the wire timestamp beside it. -/
structure RxBeat where
  beat : Beat := {}
  tvalid : Bool := false
  wireTs : BitVec 64 := 0

/-- `popk`. -/
def popk (kp : BitVec 8) : ℕ := (List.range 8).countP kp.getLsbD

/-- The bytes of a beat go into the window: a valid lane `k` to the position `k` past
the counter, if that is in the window. -/
def captureBeat (hdr : Window) (byteOff : BitVec 16) (b : Beat) : Window := fun p =>
  let k := (BitVec.ofNat 16 p - byteOff).toNat
  if p < hdrBytes ∧ k < 8 ∧ b.tkeep.getLsbD k = true then b.lane k else hdr p

/-- The registers of the parser. -/
structure ParserRegs where
  hdr : Window
  byteOff : BitVec 16
  frameLenQ : BitVec 16
  ingressQ : BitVec 4
  eofQ : Bool
  wtsQ : BitVec 64
  a : StageA
  wtsA : BitVec 64
  a2 : StageA2
  wtsA2 : BitVec 64
  out : ParserOut
  wtsOut : BitVec 64

namespace ParserRegs

/-- One clock edge. -/
def step (port : BitVec 4) (s : ParserRegs) (i : RxBeat) : ParserRegs :=
  let eof := i.tvalid && i.beat.tlast
  let count := s.byteOff + BitVec.ofNat 16 (popk i.beat.tkeep)
  { hdr := if i.tvalid then captureBeat s.hdr s.byteOff i.beat else s.hdr
    byteOff := if eof then 0 else if i.tvalid then count else s.byteOff
    frameLenQ := if eof then count else s.frameLenQ
    ingressQ := if eof then port else s.ingressQ
    eofQ := eof
    wtsQ := if eof then i.wireTs else s.wtsQ
    a := stageA s.eofQ s.ingressQ s.hdr s.frameLenQ
    wtsA := s.wtsQ
    a2 := stageA2 s.a
    wtsA2 := s.wtsA
    out := stageB s.a2
    wtsOut := s.wtsA2 }

/-- What the stages make of the captured frame. -/
def parsed (s : ParserRegs) : ParserOut :=
  stageB (stageA2 (stageA s.eofQ s.ingressQ s.hdr s.frameLenQ))

/-- No key without the end of a frame. -/
theorem keyValid_parsed {s : ParserRegs} (h : s.eofQ = false) : s.parsed.keyValid = false := by
  simp [parsed, stageB, stageA2, stageA, h]

end ParserRegs

/-! ## The bytes of a beat -/

section Bytes

variable {bytes : List Byte} {j : ℕ}

/-- The valid lanes of a frame's beat. -/
theorem tkeep_axisBeat {k : ℕ} (hk : k < 8) :
    (axisBeat bytes (8 * j)).tkeep.getLsbD k = decide (8 * j + k < bytes.length) := by
  rw [axisBeat]
  exact getLsbD_ofBits (fun k : Fin 8 => decide (8 * j + k.val < bytes.length)) ⟨k, hk⟩

theorem lane_axisBeat {k : ℕ} (hk : k < 8) :
    (axisBeat bytes (8 * j)).lane k = bytes.getD (8 * j + k) 0 := by
  rw [axisBeat, Beat.lane]
  exact extractLsb'_lanes (fun k => bytes.getD (8 * j + k) 0) hk

/-- How many bytes a beat has. -/
theorem popk_axisBeat (hj : 8 * j < bytes.length) :
    popk (axisBeat bytes (8 * j)).tkeep = min 8 (bytes.length - 8 * j) := by
  have hcount : popk (axisBeat bytes (8 * j)).tkeep =
      (List.range 8).countP fun k => decide (k < bytes.length - 8 * j) := by
    rw [popk]
    apply List.countP_congr
    intro k hk
    rw [tkeep_axisBeat (List.mem_range.mp hk), decide_eq_true_eq, decide_eq_true_eq]
    omega
  rw [hcount]
  generalize bytes.length - 8 * j = n
  by_cases hn : 8 ≤ n
  · rw [Nat.min_eq_left hn]
    simp only [List.range, List.range.loop, List.countP_cons, List.countP_nil]
    simp [show 0 < n by omega, show 1 < n by omega, show 2 < n by omega, show 3 < n by omega,
      show 4 < n by omega, show 5 < n by omega, show 6 < n by omega, show 7 < n by omega]
  · have hall : ∀ n < 8, ((List.range 8).countP fun k => decide (k < n)) = min 8 n := by decide
    exact hall n (by omega)

/-- The counter over the first bytes of a frame. -/
theorem toNat_ofNat_sub {p n : ℕ} (hp : p < 2 ^ 16) :
    (BitVec.ofNat 16 p - BitVec.ofNat 16 n).toNat = (p + (2 ^ 16 - n % 2 ^ 16)) % 2 ^ 16 := by
  rw [BitVec.toNat_sub, BitVec.toNat_ofNat, BitVec.toNat_ofNat, Nat.mod_eq_of_lt hp]
  congr 1
  omega

/-- **A beat of a frame** adds its bytes to what was captured of it. -/
theorem captureBeat_capture (old : Window) (hj : 8 * j < bytes.length) :
    captureBeat (capture old (bytes.take (8 * j))) (BitVec.ofNat 16 (8 * j))
        (axisBeat bytes (8 * j)) =
      capture old (bytes.take (8 * j + 8)) := by
  funext p
  simp only [captureBeat, capture, List.length_take]
  by_cases hp : p < hdrBytes
  · have hp16 : p < 65536 := Nat.lt_of_lt_of_le hp (by decide)
    rw [toNat_ofNat_sub hp16]
    set k := (p + (2 ^ 16 - 8 * j % 2 ^ 16)) % 2 ^ 16 with hk
    simp only [hp, true_and, if_true]
    by_cases hin : k < 8 ∧ 8 * j + k < bytes.length
    · rw [if_pos ⟨hin.1, by rw [tkeep_axisBeat hin.1]; exact decide_eq_true hin.2⟩,
        lane_axisBeat hin.1]
      have hidx : p + 2 ^ 16 * ((min (8 * j + 8) bytes.length - 1 - p) / 2 ^ 16) = 8 * j + k := by
        have hlow : 8 * j ≤ min (8 * j + 8) bytes.length - 1 := by omega
        omega
      have hlt : 8 * j + k < 8 * j + 8 := by omega
      rw [hidx, List.getElem?_take, if_pos hlt, List.getD_eq_getElem?_getD,
        List.getElem?_eq_getElem hin.2]
      rfl
    · have hlane : ¬(k < 8 ∧ (axisBeat bytes (8 * j)).tkeep.getLsbD k = true) := by
        rintro ⟨hk8, hkeep⟩
        rw [tkeep_axisBeat hk8, decide_eq_true_eq] at hkeep
        exact hin ⟨hk8, hkeep⟩
      rw [if_neg hlane, List.getElem?_take, List.getElem?_take]
      by_cases hlt : p < 8 * j
      · have hidx : p + 2 ^ 16 * ((min (8 * j + 8) bytes.length - 1 - p) / 2 ^ 16) =
            p + 2 ^ 16 * ((min (8 * j) bytes.length - 1 - p) / 2 ^ 16) := by
          omega
        rw [hidx, if_pos (by omega), if_pos (by omega)]
      · have hidx : p + 2 ^ 16 * ((min (8 * j + 8) bytes.length - 1 - p) / 2 ^ 16) = p := by
          omega
        rw [if_neg (by omega), hidx]
        by_cases hend : p < bytes.length
        · rw [if_neg (by omega)]
        · rw [List.getElem?_eq_none (by omega), ite_self]
  · simp [hp]

/-- A new frame finds what the one before left. -/
theorem capture_capture_nil (old : Window) (bytes : List Byte) :
    capture (capture old bytes) [] = capture old bytes := by
  funext p
  simp only [capture, List.getElem?_nil, Option.getD_none]
  by_cases hp : p < hdrBytes
  · rw [if_pos hp, if_pos hp]
  · rw [if_neg hp, if_neg hp]

/-- A byte that the frame has is its own. -/
theorem capture_eq_of_lt (old old' : Window) {p : ℕ} (hp : p < bytes.length) :
    capture old bytes p = capture old' bytes p := by
  have hidx : p + 2 ^ 16 * ((bytes.length - 1 - p) / 2 ^ 16) < bytes.length := by omega
  simp only [capture, List.getElem?_eq_getElem hidx, Option.getD_some]

end Bytes

/-! ## The registers over a frame -/

namespace ParserRegs

variable {s : ParserRegs} {old : Window} {bytes : List Byte} {j : ℕ} {port : BitVec 4}

/-- The first `j` beats of a frame were captured. -/
structure Reads (old : Window) (bytes : List Byte) (j : ℕ) (s : ParserRegs) : Prop where
  hdr : s.hdr = capture old (bytes.take (8 * j))
  byteOff : s.byteOff = BitVec.ofNat 16 (8 * j)

/-- A frame has just ended. -/
structure Ended (old : Window) (port : BitVec 4) (bytes : List Byte) (s : ParserRegs) : Prop where
  eofQ : s.eofQ = true
  ingressQ : s.ingressQ = port
  hdr : s.hdr = capture old bytes
  frameLenQ : s.frameLenQ = BitVec.ofNat 16 bytes.length
  byteOff : s.byteOff = 0

/-- The stages parse the frame that has ended. -/
theorem Ended.parsed_eq (h : s.Ended old port bytes) :
    s.parsed = parseFrame old ⟨port, bytes⟩ := by
  rw [parsed, h.eofQ, h.ingressQ, h.hdr, h.frameLenQ]
  rfl

/-- Any frame may come next. -/
theorem Ended.reads (h : s.Ended old port bytes) (next : List Byte) :
    s.Reads (capture old bytes) next 0 :=
  { hdr := by rw [h.hdr, Nat.mul_zero, List.take_zero, capture_capture_nil]
    byteOff := h.byteOff }

/-- Before its first beat a frame may be another one. -/
theorem Reads.change (h : s.Reads old bytes 0) (next : List Byte) : s.Reads old next 0 :=
  { hdr := by rw [h.hdr, Nat.mul_zero, List.take_zero, List.take_zero]
    byteOff := h.byteOff }

/-- Nothing happens in an idle cycle. -/
theorem Reads.idle (h : s.Reads old bytes j) {i : RxBeat} (hi : i.tvalid = false) :
    (s.step port i).Reads old bytes j ∧ (s.step port i).eofQ = false := by
  refine ⟨⟨?_, ?_⟩, ?_⟩
  · simp only [step, hi, Bool.false_eq_true, if_false]
    exact h.hdr
  · simp only [step, hi, Bool.false_and, Bool.false_eq_true, if_false]
    exact h.byteOff
  · simp only [step, hi, Bool.false_and]

/-- The counter after a beat. -/
theorem Reads.count (h : s.Reads old bytes j) (hj : 8 * j < bytes.length) :
    s.byteOff + BitVec.ofNat 16 (popk (axisBeat bytes (8 * j)).tkeep) =
      BitVec.ofNat 16 (min (8 * j + 8) bytes.length) := by
  rw [h.byteOff, popk_axisBeat hj, ← BitVec.ofNat_add]
  congr 1
  omega

/-- A beat in the middle of a frame. -/
theorem Reads.beat (h : s.Reads old bytes j) {i : RxBeat} (hi : i.tvalid = true)
    (hb : i.beat = axisBeat bytes (8 * j)) (hj : 8 * j + 8 < bytes.length) :
    (s.step port i).Reads old bytes (j + 1) ∧ (s.step port i).eofQ = false := by
  have hlast : i.beat.tlast = false := by
    rw [hb]
    exact decide_eq_false (by omega)
  have hlt : 8 * j < bytes.length := by omega
  refine ⟨⟨?_, ?_⟩, ?_⟩
  · simp only [step, hi, if_true]
    rw [h.hdr, h.byteOff, hb, captureBeat_capture old hlt]
    rfl
  · simp only [step, hi, hlast, Bool.and_false, Bool.false_eq_true, if_false, if_true]
    rw [hb, h.count hlt, Nat.min_eq_left (Nat.le_of_lt hj)]
    rfl
  · simp only [step, hlast, Bool.and_false]

/-- The last beat of a frame. -/
theorem Reads.last (h : s.Reads old bytes j) {i : RxBeat} (hi : i.tvalid = true)
    (hb : i.beat = axisBeat bytes (8 * j)) (hj : 8 * j < bytes.length)
    (hend : bytes.length ≤ 8 * j + 8) : (s.step port i).Ended old port bytes := by
  have hlast : i.beat.tlast = true := by
    rw [hb]
    exact decide_eq_true hend
  have hcapture := captureBeat_capture old hj
  rw [List.take_of_length_le hend] at hcapture
  refine ⟨?_, ?_, ?_, ?_, ?_⟩
  · simp only [step, hi, hlast, Bool.and_true]
  · simp only [step, hi, hlast, Bool.and_true, if_true]
  · simp only [step, hi, if_true]
    rw [h.hdr, h.byteOff, hb, hcapture]
  · simp only [step, hi, hlast, Bool.and_true, if_true]
    rw [hb, h.count hj, Nat.min_eq_right hend]
  · simp only [step, hi, hlast, Bool.and_true, if_true]

end ParserRegs

/-! ## Which frames have a key -/

/-- The EtherType behind the VLAN tags. -/
def frameEtherType (f : RxFrame) : BitVec 16 :=
  (parseL2 f.port (capture (fun _ => 0) f.bytes) (f.bytes.length % 2 ^ 16)).1.ethertype

/-- Without an outer IP header there is no inner one. -/
theorem descend_of_not_ip {hdr : Window} {flen l3Off : ℕ} {ethertype : BitVec 16}
    (h4 : ethertype ≠ 0x0800) (h6 : ethertype ≠ 0x86DD) :
    descend hdr flen l3Off ethertype = { effOff := l3Off, innerV4 := false, innerV6 := false } := by
  simp only [descend, beq_eq_false_iff_ne.mpr h4, beq_eq_false_iff_ne.mpr h6]
  simp

/-- **A frame has a key when it has a whole Ethernet header and its EtherType is not 0.** -/
theorem keyValid_parseFrame_iff (old : Window) (f : RxFrame) :
    (parseFrame old f).keyValid = true ↔
      14 ≤ f.bytes.length % 2 ^ 16 ∧ frameEtherType f ≠ 0 := by
  rw [parseFrame_congr old (fun _ => 0) f]
  by_cases hlen : 14 ≤ f.bytes.length % 2 ^ 16
  · simp only [parseFrame, parserOut, stageB, frameEtherType, stageA, BitVec.toNat_ofNat, hlen,
      and_self, if_true, true_and]
    set hdr := capture (fun _ => 0) f.bytes
    set k := parseL2 f.port hdr (f.bytes.length % 2 ^ 16)
    by_cases hzero : k.1.ethertype = 0
    · rw [descend_of_not_ip (by rw [hzero]; decide) (by rw [hzero]; decide)]
      simp [stageA2, hzero]
    · simp only [stageA2, if_true, ne_eq, hzero, not_false_eq_true, iff_true]
      split
      · rfl
      · split
        · rfl
        · exact bne_iff_ne.mpr hzero
  · constructor
    · intro hkey
      have hle := le_of_keyValid hkey
      rw [BitVec.toNat_ofNat] at hle
      exact absurd hle hlen
    · exact fun h => absurd h.1 hlen

end PacketWyrm
