import PacketWyrm.ParserPipe
import PacketWyrm.ClassPipe
import PacketWyrm.SafContract

/-!
# The receive path of a port

The parser, the classification pipeline, the delay line and the store-and-forward
buffer of a port, as `pw_data_plane_axis` joins them.  The key of a frame takes three
cycles through the parser and four through the classifiers, so the stream is delayed
by seven cycles in front of the buffer: the decision on a frame then comes one cycle
after its last beat.

`RxLead` is the path without the delay: in each cycle it shows what the buffer is
given seven cycles later.

## Main definitions

* `RxFront` — the registers in front of the buffer, `RxFront.safIn` — what they show it.
* `RxPath` — the front with the buffer behind it.
* `RxLead` — the path without the delay.

## Main results

* `RxFront.Reset.given_delayed` — the buffer is given what the undelayed path shows,
  seven cycles later.
-/

namespace PacketWyrm

open Lib

variable {aw daw lfw : ℕ}

/-- A cycle of a port: the stream, and the ready of the drain side. -/
structure RxIn extends RxBeat where
  tready : Bool := false

/-- The route of a frame with its metadata: the descriptor of the buffer. -/
structure RxTag where
  punt : Bool := false
  egress : BitVec 4 := 0
  frameTs : BitVec 64 := 0
  port : BitVec 4 := 0
  lif : BitVec 32 := 0
  deriving DecidableEq, Repr

instance : Zero RxTag := ⟨{}⟩

namespace PwClassResult

variable (ports : ℕ) (r : PwClassResult)

/-- `act_fwd`: a forward to a port that the card has. -/
def actFwd : Bool := r.action == .forwardPort && decide (r.egressPort.toNat < ports)

/-- `act_punt`. -/
def actPunt : Bool := r.action == .puntToHost || r.action == .mirrorToHost

/-- `dec_keep_i`, for a valid key. -/
def keep : Bool := r.hit && (r.actFwd ports || r.actPunt)

/-- `dec_route_i` and `dec_meta_i`. -/
def tag (frameTs : BitVec 64) (port : BitVec 4) : RxTag :=
  { punt := r.actPunt, egress := if r.actPunt then 0 else r.egressPort, frameTs, port
    lif := r.logicalIfId }

end PwClassResult

/-! ## The front -/

/-- The registers that hold the timestamp of a frame over the delayed stream. -/
structure TsRegs where
  inFrame : Bool := false
  sofTs : BitVec 64 := 0
  frameTs : BitVec 64 := 0

/-- The timestamp of the first beat is kept to the end of the frame. -/
def TsRegs.step (s : TsRegs) (b : RxBeat) : TsRegs :=
  if b.tvalid then
    { inFrame := !b.beat.tlast
      sofTs := if s.inFrame then s.sofTs else b.wireTs
      frameTs :=
        if b.beat.tlast then (if s.inFrame then s.sofTs else b.wireTs) else s.frameTs }
  else s

/-- A beat goes into the delay line only when it is armed. -/
def RxBeat.gated (b : RxBeat) (armed : Bool) : RxBeat := { b with tvalid := armed && b.tvalid }

/-- What the parser shows to the classifiers. -/
def ParserRegs.keyIn (tables : CardTables lfw) (s : ParserRegs) : RxKeyIn lfw :=
  { keyValid := s.out.keyValid, key := s.out.key, wireTs := s.wtsOut, frameLen := s.out.frameLen
    window := s.out.window, base := s.out.base, tables }

/-- The registers of a port in front of its buffer; `rxd 1` to `rxd 7` are the delay
line. -/
structure RxFront (lfw : ℕ) where
  parser : ParserRegs
  pipe : RxPipe lfw
  armed : Bool
  rxd : ℕ → RxBeat
  ts : TsRegs

namespace RxFront

/-- One clock edge.  The delay line is armed by the first idle cycle. -/
def step (tables : CardTables lfw) (port : BitVec 4) (s : RxFront lfw) (i : RxIn) : RxFront lfw :=
  { parser := s.parser.step port i.toRxBeat
    pipe := s.pipe.step (s.parser.keyIn tables)
    armed := s.armed || !i.tvalid
    rxd := fun k => if k ≤ 1 then i.toRxBeat.gated s.armed else s.rxd (k - 1)
    ts := s.ts.step (s.rxd 7) }

/-- What the buffer is given in a cycle. -/
def safIn (ports : ℕ) (port : BitVec 4) (s : RxFront lfw) (i : RxIn) : SafIn RxTag :=
  { beat := (s.rxd 7).beat
    tvalid := (s.rxd 7).tvalid
    decValid := s.pipe.tapD.keyValid
    decKeep := s.pipe.tapD.keyValid && s.pipe.eff.keep ports
    decTag := s.pipe.eff.tag s.ts.frameTs port
    tready := i.tready }

/-- What the buffer is given, cycle by cycle. -/
def given (ports : ℕ) (port : BitVec 4) (tables : CardTables lfw) (s : RxFront lfw)
    (ins : List RxIn) : List (SafIn RxTag) :=
  trace (safIn ports port) (step tables port) s ins

/-- The registers that a reset settles, and a window of `hdrBytes` bytes. -/
structure Reset (s : RxFront lfw) : Prop where
  eofQ : s.parser.eofQ = false
  byteOff : s.parser.byteOff = 0
  a : s.parser.a.valid = false
  a2 : s.parser.a2.valid = false
  out : s.parser.out.keyValid = false
  pipe : s.pipe.Empty
  rxd : ∀ k, 1 ≤ k → k ≤ 7 → (s.rxd k).tvalid = false
  ts : s.ts.inFrame = false
  window : ∀ p, hdrBytes ≤ p → s.parser.hdr p = 0

end RxFront

/-- The receive path: the front and the buffer. -/
abbrev RxPath (aw daw lfw : ℕ) := RxFront lfw × Saf aw daw RxTag

namespace RxPath

variable (ports : ℕ) (port : BitVec 4) (tables : CardTables lfw)

/-- One clock edge of the path. -/
def step : RxPath aw daw lfw → RxIn → RxPath aw daw lfw :=
  cascade (RxFront.safIn ports port) (RxFront.step tables port) Saf.step

/-- What the drain side takes in a cycle. -/
def sent (s : RxPath aw daw lfw) (i : RxIn) : Option (Beat × RxTag) :=
  s.2.sent (s.1.safIn ports port i)

/-- The path after a reset. -/
structure Reset (s : RxPath aw daw lfw) : Prop where
  front : s.1.Reset
  saf : s.2.Reset

end RxPath

/-- The write side of the inputs of the buffer. -/
def SafIn.muted {ρ : Type} (i : SafIn ρ) : SafIn ρ := { i with tready := false }

/-! ## The path without the delay -/

/-- The registers that the decision on a frame rests on. -/
structure RxLead where
  parser : ParserRegs
  armed : Bool
  ts : TsRegs

namespace RxLead

variable (ports : ℕ) (port : BitVec 4) (tables : CardTables lfw)

/-- One clock edge. -/
def step (s : RxLead) (i : RxIn) : RxLead :=
  { parser := s.parser.step port i.toRxBeat
    armed := s.armed || !i.tvalid
    ts := s.ts.step (i.toRxBeat.gated s.armed) }

/-- The classification of the frame that has just ended. -/
def eff (s : RxLead) : PwClassResult :=
  if s.parser.parsed.keyValid then
    tables.eff s.parser.parsed.key s.parser.parsed.window s.parser.parsed.base
  else {}

/-- The stream and the decision of a cycle. -/
def safIn (s : RxLead) (i : RxIn) : SafIn RxTag :=
  { beat := i.beat
    tvalid := s.armed && i.tvalid
    decValid := s.parser.parsed.keyValid
    decKeep := s.parser.parsed.keyValid && (s.eff tables).keep ports
    decTag := (s.eff tables).tag s.ts.frameTs port
    tready := false }

/-- What it shows, cycle by cycle. -/
def given (s : RxLead) (ins : List RxIn) : List (SafIn RxTag) :=
  trace (safIn ports port tables) (step port) s ins

end RxLead

/-- What the front has of it. -/
def RxFront.lead (s : RxFront lfw) : RxLead :=
  { parser := s.parser, armed := s.armed, ts := s.ts }

/-! ## The delay -/

namespace RxFront

variable {ports : ℕ} {port : BitVec 4} {tables : CardTables lfw} {s : RxFront lfw}

theorem rxd_step (i : RxIn) {k : ℕ} (hk : 1 < k) :
    (s.step tables port i).rxd k = s.rxd (k - 1) :=
  if_neg (by omega)

/-- What is in the delay line moves on. -/
theorem rxd_run (l : List RxIn) {k : ℕ} (hk : l.length < k) :
    (run (step tables port) s l).rxd k = s.rxd (k - l.length) := by
  induction l generalizing s with
  | nil => rfl
  | cons i l ih =>
    rw [List.length_cons] at hk
    rw [run_cons, ih (by omega), rxd_step i (by omega), List.length_cons, Nat.sub_sub]

/-- A beat comes out of the delay line after as many cycles as it is long. -/
theorem rxd_run_cons (i : RxIn) {w : List RxIn} {k : ℕ} (hw : w.length + 1 = k) :
    (run (step tables port) s (i :: w)).rxd k = i.toRxBeat.gated s.armed := by
  rw [run_cons, rxd_run w (by omega), ← hw, Nat.add_sub_cancel_left]
  rfl

/-- The parser and the arming do not depend on what is behind them. -/
theorem lead_run (l : List RxIn) :
    (run (step tables port) s l).parser = (run (RxLead.step port) s.lead l).parser ∧
      (run (step tables port) s l).armed = (run (RxLead.step port) s.lead l).armed := by
  refine run_simulation (R := fun (s : RxFront lfw) (t : RxLead) =>
    s.parser = t.parser ∧ s.armed = t.armed) ?_ ⟨rfl, rfl⟩ l
  rintro s t i ⟨hparser, harmed⟩
  refine ⟨?_, ?_⟩
  · show s.parser.step port i.toRxBeat = t.parser.step port i.toRxBeat
    rw [hparser]
  · show (s.armed || !i.tvalid) = (t.armed || !i.tvalid)
    rw [harmed]

/-- **Seven cycles after a frame has ended its classification is shown**, whatever
arrives meanwhile. -/
theorem eff_run_seven (i1 i2 i3 i4 i5 i6 i7 : RxIn) :
    (run (step tables port) s [i1, i2, i3, i4, i5, i6, i7]).pipe.tapD.keyValid =
        s.parser.parsed.keyValid ∧
      (run (step tables port) s [i1, i2, i3, i4, i5, i6, i7]).pipe.eff = s.lead.eff tables := by
  let key (l : List RxIn) : RxKeyIn lfw := (run (step tables port) s l).parser.keyIn tables
  have heff := RxPipe.eff_run (run (step tables port) s [i1, i2, i3]).pipe (key [i1, i2, i3])
    (key [i1, i2, i3, i4]) (key [i1, i2, i3, i4, i5]) (key [i1, i2, i3, i4, i5, i6])
  have htables : stagedTables (key [i1, i2, i3]) (key [i1, i2, i3, i4])
      (key [i1, i2, i3, i4, i5]) = tables := stagedTables_of_const rfl rfl rfl
  rw [htables] at heff
  exact ⟨rfl, heff⟩

namespace Reset

/-- The timestamp registers wait for the delay line. -/
theorem ts_short (hs : s.Reset) {l : List RxIn} (hl : l.length ≤ 7) :
    (run (step tables port) s l).ts = s.ts := by
  induction l using List.reverseRecOn with
  | nil => rfl
  | append_singleton l i ih =>
    rw [List.length_append, List.length_singleton] at hl
    rw [run_concat]
    show TsRegs.step _ ((run (step tables port) s l).rxd 7) = s.ts
    rw [ih (by omega), rxd_run l (by omega), TsRegs.step,
      hs.rxd (7 - l.length) (by omega) (by omega)]
    rfl

/-- They are seven cycles behind. -/
theorem ts_run (hs : s.Reset) (l : List RxIn) {w : List RxIn} (hw : w.length = 7) :
    (run (step tables port) s (l ++ w)).ts = (run (RxLead.step port) s.lead l).ts := by
  induction l using List.reverseRecOn generalizing w with
  | nil => exact hs.ts_short (Nat.le_of_eq hw)
  | append_singleton l i ih =>
    -- the last of the seven cycles takes the beat `i` out of the delay line
    have hne : w ≠ [] := by
      intro h
      rw [h] at hw
      cases hw
    have hlen : w.dropLast.length + 1 = 7 := by
      rw [List.length_dropLast]
      omega
    have hsplit : l ++ [i] ++ w = l ++ (i :: w.dropLast) ++ [w.getLast hne] := by
      rw [List.append_assoc, List.append_assoc, List.singleton_append, List.cons_append,
        List.dropLast_append_getLast hne]
    rw [hsplit, run_concat, run_concat]
    show TsRegs.step _ ((run (step tables port) s (l ++ i :: w.dropLast)).rxd 7) = _
    have hts : (run (step tables port) s (l ++ i :: w.dropLast)).ts = _ := ih hlen
    rw [hts, run_append, rxd_run_cons i hlen, (lead_run l).2]
    rfl

/-- No decision comes before the first key could have gone through. -/
theorem keyValid_short (hs : s.Reset) {l : List RxIn} (hl : l.length < 7) :
    (run (step tables port) s l).pipe.tapD.keyValid = false := by
  have ha : (stageA2 s.parser.a).valid = false := by
    rw [Bool.eq_false_iff]
    intro hv
    have := valid_of_keyValid hv
    rw [hs.a] at this
    cases this
  match l, hl with
  | [], _ => exact hs.pipe.tapD
  | [_], _ => exact hs.pipe.tapD3
  | [_, _], _ => exact hs.pipe.tapD2
  | [_, _, _], _ => exact hs.pipe.tapD1
  | [_, _, _, _], _ => exact hs.out
  | [_, _, _, _, _], _ => exact hs.a2
  | [_, _, _, _, _, _], _ => exact ha
  | _ :: _ :: _ :: _ :: _ :: _ :: _ :: l, hl =>
    simp only [List.length_cons] at hl
    omega

/-- For seven cycles the buffer is given nothing. -/
theorem given_idle (hs : s.Reset) {l : List RxIn} (hl : l.length ≤ 7) :
    ∀ x ∈ s.given ports port tables l, x.tvalid = false ∧ x.decValid = false := by
  induction l using List.reverseRecOn with
  | nil => intro x hx; cases hx
  | append_singleton l i ih =>
    rw [List.length_append, List.length_singleton] at hl
    intro x hx
    rw [given, trace_concat, List.mem_append, List.mem_singleton] at hx
    cases hx with
    | inl hx => exact ih (by omega) x hx
    | inr hx =>
      rw [hx]
      refine ⟨?_, hs.keyValid_short (by omega)⟩
      show ((run (step tables port) s l).rxd 7).tvalid = false
      rw [rxd_run l (by omega)]
      exact hs.rxd _ (by omega) (by omega)

/-- What the buffer is given in a cycle. -/
theorem safIn_run (hs : s.Reset) (l : List RxIn) (j : RxIn) {w : List RxIn} (hw : w.length = 6)
    (i : RxIn) :
    ((run (step tables port) s (l ++ j :: w)).safIn ports port i).muted =
      (run (RxLead.step port) s.lead l).safIn ports port tables j := by
  have hts : (run (step tables port) s (l ++ j :: w)).ts = (run (RxLead.step port) s.lead l).ts :=
    hs.ts_run l (by rw [List.length_cons, hw])
  have hrxd : (run (step tables port) s (l ++ j :: w)).rxd 7 =
      j.toRxBeat.gated (run (RxLead.step port) s.lead l).armed := by
    rw [run_append, rxd_run_cons j (by rw [hw]), (lead_run l).2]
  have heff : (run (step tables port) s (l ++ j :: w)).pipe.tapD.keyValid =
        (run (RxLead.step port) s.lead l).parser.parsed.keyValid ∧
      (run (step tables port) s (l ++ j :: w)).pipe.eff =
        (run (RxLead.step port) s.lead l).eff tables := by
    have hparser : (run (step tables port) s l).parser =
        (run (RxLead.step port) s.lead l).parser := (lead_run l).1
    have hlead : (run (step tables port) s l).lead.eff tables =
        (run (RxLead.step port) s.lead l).eff tables := by
      rw [RxLead.eff, RxLead.eff, ← hparser]
      rfl
    rw [run_append, ← hlead, ← hparser]
    match w, hw with
    | [i2, i3, i4, i5, i6, i7], _ => exact eff_run_seven j i2 i3 i4 i5 i6 i7
  rw [safIn, SafIn.muted, hts, hrxd, heff.1, heff.2]
  rfl

/-- **The buffer is given what the path without the delay shows, seven cycles later.** -/
theorem given_delayed (hs : s.Reset) {a : List RxIn} (ha : a.length = 7) (b : List RxIn) :
    ((run (step tables port) s a).given ports port tables b).map SafIn.muted =
      s.lead.given ports port tables ((a ++ b).take b.length) := by
  rw [given, RxLead.given]
  induction b using List.reverseRecOn with
  | nil => rfl
  | append_singleton b i ih =>
    have hlt : b.length < (a ++ b).length := by
      rw [List.length_append]
      omega
    have hsplit : (a ++ b).drop b.length = (a ++ b)[b.length] :: (a ++ b).drop (b.length + 1) :=
      List.drop_eq_getElem_cons hlt
    have hab : a ++ b =
        (a ++ b).take b.length ++ (a ++ b)[b.length] :: (a ++ b).drop (b.length + 1) := by
      rw [← hsplit, List.take_append_drop]
    have hlen : ((a ++ b).drop (b.length + 1)).length = 6 := by
      rw [List.length_drop, List.length_append]
      omega
    have htake : (a ++ (b ++ [i])).take (b ++ [i]).length =
        (a ++ b).take b.length ++ [(a ++ b)[b.length]] := by
      rw [← List.append_assoc, List.length_append, List.length_singleton,
        List.take_append_of_le_length (by omega), List.take_append_getElem hlt]
    rw [htake, trace_concat, trace_concat, List.map_append, ih, ← run_append]
    congr 1
    rw [List.map_singleton]
    congr 1
    exact (congrArg (fun l => ((run (step tables port) s l).safIn ports port i).muted) hab).trans
      (hs.safIn_run _ _ hlen i)

end Reset

end RxFront

end PacketWyrm
