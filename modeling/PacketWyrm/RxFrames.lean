import PacketWyrm.RxPath

/-!
# Frames on the receive path

The frames that arrive on a port, cycle by cycle, and what the buffer of the port is told of
them.  The buffer learns where a frame ends by the decision on it, and there is a decision
only if the parser has found a key.  So each frame is decided once, by its own
classification, as long as every frame has a key and no rule looks behind the end of a frame,
where the window still has bytes of earlier frames.

## Main definitions

* `Arrives` — the cycles bring these frames.
* `OwnRoute` — the frame has a key, and its classification rests on its own bytes.
* `LeadAt` — the path without the delay in a phase of the stream.

## Main results

* `OwnRoute.eff_eq` — the classification of a frame is its own.
* `LeadAt.step`, `LeadAt.run` — the decisions are those of the frames, one for each, in order.
* `RxFront.Reset.writes` — so they are behind the delay line.
-/

namespace PacketWyrm

open Lib

variable {aw daw lfw : ℕ}

/-! ## Arriving frames -/

/-- A frame as it arrives, with the wire timestamp of its first beat. -/
structure WireFrame where
  bytes : List Byte
  wireTs : BitVec 64

/-- Where the stream stands: whether the next cycle has to be idle, the frames that are
still to come, and how many beats of the first of them were sent. -/
structure RxPhase where
  gap : Bool
  todo : List WireFrame
  beats : ℕ

namespace RxPhase

/-- A beat is the next one of the first frame to come; none comes right after a frame. -/
def allow (p : RxPhase) (i : RxIn) : Prop :=
  i.tvalid = true →
    p.gap = false ∧ ∃ f rest, p.todo = f :: rest ∧ 8 * p.beats < f.bytes.length ∧
      i.beat = axisBeat f.bytes (8 * p.beats) ∧ (p.beats = 0 → i.wireTs = f.wireTs)

/-- The stream moves on with each beat. -/
def next (p : RxPhase) (i : RxIn) : RxPhase :=
  if i.tvalid then
    if i.beat.tlast then { gap := true, todo := p.todo.tail, beats := 0 }
    else { p with beats := p.beats + 1 }
  else { p with gap := false }

/-- The stream after a reset. -/
def start (frames : List WireFrame) : RxPhase := { gap := true, todo := frames, beats := 0 }

/-- The bytes of the frame that is being sent. -/
def bytes (p : RxPhase) : List Byte := (p.todo.head?.map WireFrame.bytes).getD []

end RxPhase

/-- The cycles bring frames, with an idle cycle before each. -/
def Arrives (frames : List WireFrame) (ins : List RxIn) : Prop :=
  Follows RxPhase.allow RxPhase.next (.start frames) ins

/-- All of the frames have arrived. -/
def AllArrived (frames : List WireFrame) (ins : List RxIn) : Prop :=
  (run RxPhase.next (.start frames) ins).todo = []

/-! ## The route of a frame -/

/-- The classification of a frame, by its own bytes. -/
def ownResult (tables : CardTables lfw) (f : RxFrame) : PwClassResult :=
  let o := parseFrame (fun _ => 0) f
  if o.keyValid then tables.eff o.key o.window o.base else {}

section Own

variable (ports : ℕ) (port : BitVec 4) (tables : CardTables lfw) (f : WireFrame)

/-- The frame is to be forwarded or punted. -/
def WireFrame.kept : Bool := (ownResult tables ⟨port, f.bytes⟩).keep ports

/-- Its route. -/
def WireFrame.tag : RxTag := (ownResult tables ⟨port, f.bytes⟩).tag f.wireTs port

/-- What the buffer is to drain. -/
def routed (frames : List WireFrame) : List (Beat × RxTag) :=
  (frames.filter fun f => f.kept ports port tables).flatMap fun f =>
    (axisBeats f.bytes).map fun b => (b, f.tag port tables)

end Own

/-- The frame has a key, and no rule looks at a byte of the window that the frame does not
have. -/
structure OwnRoute (tables : CardTables lfw) (f : RxFrame) : Prop where
  length : 14 ≤ f.bytes.length % 2 ^ 16
  etherType : frameEtherType f ≠ 0
  inside : ∀ (r : Fin 32) (u : Fin 2), (tables.field.rule r).enable = true →
    (tables.field.rule r).care.getLsbD (12 + u) = true →
    ∀ k < 4, (tables.field.udf u).mask.extractLsb' (24 - 8 * k) 8 ≠ 0 →
      ((parseFrame (fun _ => 0) f).base + (tables.field.udf u).offset +
          BitVec.ofNat 16 k).toNat < f.bytes.length ∨
        hdrBytes ≤ ((parseFrame (fun _ => 0) f).base + (tables.field.udf u).offset +
          BitVec.ofNat 16 k).toNat

/-! ## The classification of a frame with a key -/

/-- The bytes of a mask. -/
theorem mask_bytes (m : BitVec 32) :
    m.extractLsb' 24 8 ++ m.extractLsb' 16 8 ++ m.extractLsb' 8 8 ++ m.extractLsb' 0 8 = m := by
  rw [BitVec.extractLsb'_append_extractLsb'_eq_extractLsb' (show 24 = 16 + 8 from rfl),
    BitVec.extractLsb'_append_extractLsb'_eq_extractLsb' (show 16 = 8 + 8 from rfl),
    BitVec.extractLsb'_append_extractLsb'_eq_extractLsb' (show 8 = 0 + 8 from rfl)]
  exact BitVec.extractLsb'_eq_self

/-- A window comparator sees the bytes that its mask selects. -/
theorem sliceExt_and_congr {win win' : Window} {off : BitVec 16} {mask : BitVec 32}
    (h : ∀ k < 4, mask.extractLsb' (24 - 8 * k) 8 ≠ 0 →
      byteAt win (off + BitVec.ofNat 16 k) = byteAt win' (off + BitVec.ofNat 16 k)) :
    sliceExt win off &&& mask = sliceExt win' off &&& mask := by
  have hbyte : ∀ k < 4, byteAt win (off + BitVec.ofNat 16 k) &&& mask.extractLsb' (24 - 8 * k) 8 =
      byteAt win' (off + BitVec.ofNat 16 k) &&& mask.extractLsb' (24 - 8 * k) 8 := by
    intro k hk
    by_cases hzero : mask.extractLsb' (24 - 8 * k) 8 = 0
    · rw [hzero]
      exact BitVec.and_zero.trans BitVec.and_zero.symm
    · rw [h k hk hzero]
  have h0 := hbyte 0 (by omega)
  have h1 := hbyte 1 (by omega)
  have h2 := hbyte 2 (by omega)
  have h3 := hbyte 3 (by omega)
  rw [BitVec.add_zero, Nat.mul_zero, Nat.sub_zero] at h0
  rw [← mask_bytes mask, sliceExt, sliceExt, BitVec.and_append, BitVec.and_append,
    BitVec.and_append, BitVec.and_append, BitVec.and_append, BitVec.and_append]
  exact congrArg₂ _ (congrArg₂ _ (congrArg₂ _ h0 h1) h2) h3

/-- A rule sees the comparators that it cares about. -/
theorem RuleRow.hit_congr {c c' : Fin 14 → Bool} {r : RuleRow}
    (h : r.enable = true → ∀ i : Fin 14, r.care.getLsbD i = true → c i = c' i) :
    r.hit c = r.hit c' := by
  rw [Bool.eq_iff_iff, RuleRow.hit_eq_true_iff, RuleRow.hit_eq_true_iff]
  constructor
  · rintro ⟨hen, hall⟩
    exact ⟨hen, fun i hi => (h hen i hi).symm.trans (hall i hi)⟩
  · rintro ⟨hen, hall⟩
    exact ⟨hen, fun i hi => (h hen i hi).trans (hall i hi)⟩

namespace OwnRoute

variable {tables : CardTables lfw} {f : RxFrame} (h : OwnRoute tables f)
include h

/-- The bytes that the rules look at are the frame's own. -/
theorem byteAt_eq (old : Window) {r : Fin 32} {u : Fin 2}
    (hen : (tables.field.rule r).enable = true)
    (hcare : (tables.field.rule r).care.getLsbD (12 + u) = true) {k : ℕ} (hk : k < 4)
    (hmask : (tables.field.udf u).mask.extractLsb' (24 - 8 * k) 8 ≠ 0) :
    byteAt (capture old f.bytes) ((parseFrame (fun _ => 0) f).base +
        (tables.field.udf u).offset + BitVec.ofNat 16 k) =
      byteAt (capture (fun _ => 0) f.bytes) ((parseFrame (fun _ => 0) f).base +
        (tables.field.udf u).offset + BitVec.ofNat 16 k) := by
  rw [byteAt, byteAt]
  split
  · cases h.inside r u hen hcare k hk hmask with
    | inl hlt => exact capture_eq_of_lt old (fun _ => 0) hlt
    | inr hge => omega
  · rfl

/-- So the rules decide by the frame alone. -/
theorem result_eq (old : Window) (key : PwMatchKey) :
    tables.field.result key (capture old f.bytes) (parseFrame (fun _ => 0) f).base =
      tables.field.result key (capture (fun _ => 0) f.bytes) (parseFrame (fun _ => 0) f).base := by
  set base := (parseFrame (fun _ => 0) f).base with hbase
  have hhit : ∀ r : Fin 32,
      (tables.field.rule r).hit (tables.field.cmatch key (capture old f.bytes) base) =
        (tables.field.rule r).hit (tables.field.cmatch key (capture (fun _ => 0) f.bytes) base) := by
    intro r
    apply RuleRow.hit_congr
    intro hen i hcare
    rw [FieldTables.cmatch, FieldTables.cmatch]
    by_cases hi : i.val < 12
    · rw [dif_pos hi, dif_pos hi]
    · rw [dif_neg hi, dif_neg hi, UdfRow.matches, UdfRow.matches, sliceExt_and_congr]
      intro k hk hmask
      have hu : 12 + (i.val - 12) = i.val := by omega
      exact h.byteAt_eq old hen (by rw [hu]; exact hcare) hk hmask
  rw [FieldTables.result_eq, FieldTables.result_eq, select, select, List.filter_congr]
  intro row hrow
  obtain ⟨r, rfl⟩ := (List.mem_ofFn' _ _).mp hrow
  exact hhit r

/-- **The parser and the classifiers make of the frame what they make of it alone.** -/
theorem eff_eq (old : Window) :
    (parseFrame old f).keyValid = true ∧
      tables.eff (parseFrame old f).key (parseFrame old f).window (parseFrame old f).base =
        ownResult tables f := by
  have hkey : (parseFrame (fun _ => 0) f).keyValid = true :=
    (keyValid_parseFrame_iff _ f).mpr ⟨h.length, h.etherType⟩
  have hwin : (parseFrame (fun _ => 0) f).window = capture (fun _ => 0) f.bytes :=
    congrArg ParserOut.window (parseFrame_congr (fun _ => 0) (fun _ => 0) f)
  rw [parseFrame_congr old (fun _ => 0) f]
  refine ⟨hkey, ?_⟩
  simp only [ownResult, hkey, if_true, hwin, CardTables.eff, h.result_eq old]

end OwnRoute

/-! ## The undelayed path over a frame -/

/-- The undelayed path in a phase of the stream; `last` is the frame that has just ended. -/
structure LeadAt (port : BitVec 4) (last : Option WireFrame) (p : RxPhase) (s : RxLead) : Prop where
  armed : p.gap = false → s.armed = true
  gap : last.isSome = true → p.gap = true
  beats : p.gap = true ∨ p.todo = [] → p.beats = 0
  reads : ∃ old, s.parser.Reads old p.bytes p.beats
  ended : ∀ f, last = some f →
    (∃ old, s.parser.Ended old port f.bytes) ∧ s.ts.frameTs = f.wireTs
  eofQ : last = none → s.parser.eofQ = false
  inFrame : s.ts.inFrame = decide (0 < p.beats)
  sofTs : 0 < p.beats → ∀ f, p.todo.head? = some f → s.ts.sofTs = f.wireTs

/-- What was written of the frame that is to be decided next. -/
def RxPhase.written (last : Option WireFrame) (p : RxPhase) : List Beat :=
  match last with
  | some f => axisBeats f.bytes
  | none => (axisBeats p.bytes).take p.beats

/-- A beat is written behind those before. -/
theorem RxPhase.written_concat (p : RxPhase) {i : RxIn} (hi : p.allow i) (hv : i.tvalid = true) :
    p.written none ++ [i.beat] = (axisBeats p.bytes).take (p.beats + 1) := by
  obtain ⟨-, f, rest, htodo, hlt, hbeat, -⟩ := hi hv
  have hbytes : p.bytes = f.bytes := by simp [RxPhase.bytes, htodo]
  have hj : p.beats < (axisBeats f.bytes).length := by
    rw [length_axisBeats]
    omega
  have hget : (axisBeats f.bytes)[p.beats] = i.beat := by
    rw [hbeat]
    simp [axisBeats]
  rw [written, hbytes, ← hget, List.take_append_getElem hj]

/-- With the last beat the frame is whole. -/
theorem RxPhase.take_axisBeats_of_last (p : RxPhase) {i : RxIn} (hi : p.allow i)
    (hv : i.tvalid = true) (hlast : i.beat.tlast = true) :
    (axisBeats p.bytes).take (p.beats + 1) = axisBeats p.bytes := by
  obtain ⟨-, f, rest, htodo, hlt, hbeat, -⟩ := hi hv
  have hbytes : p.bytes = f.bytes := by simp [RxPhase.bytes, htodo]
  rw [hbeat] at hlast
  have hend : f.bytes.length ≤ 8 * p.beats + 8 := of_decide_eq_true hlast
  apply List.take_of_length_le
  rw [hbytes, length_axisBeats]
  omega

/-- The decision that is due on a frame. -/
def WireFrame.decided (ports : ℕ) (port : BitVec 4) (tables : CardTables lfw) (f : WireFrame) :
    List Beat × Bool × RxTag :=
  (axisBeats f.bytes, f.kept ports port tables, f.tag port tables)

/-- The buffer's phase. -/
def duePhase (last : Option WireFrame) : SafPhase := if last.isSome then .due else .streaming

section Saf

variable {ρ : Type}

/-- The frame in progress in the buffer, after a cycle. -/
def safCur (cur : List Beat) (i : SafIn ρ) : List Beat :=
  if i.decValid then [] else if i.tvalid then cur ++ [i.beat] else cur

theorem safArrivals_cons_eq (cur : List Beat) (i : SafIn ρ) (l : List (SafIn ρ)) :
    safArrivals cur (i :: l) =
      (if i.decValid then [(cur, i.decKeep, i.decTag)] else []) ++ safArrivals (safCur cur i) l := by
  rw [safArrivals, safCur]
  cases i.decValid with
  | false => simp
  | true => simp

end Saf

namespace LeadAt

variable {ports : ℕ} {port : BitVec 4} {tables : CardTables lfw} {last : Option WireFrame}
  {p : RxPhase} {s : RxLead} {i : RxIn}

/-- The stream passes the gate. -/
theorem tvalid_eq (h : LeadAt port last p s) (hi : p.allow i) :
    (s.armed && i.tvalid) = i.tvalid := by
  cases hv : i.tvalid with
  | false => exact Bool.and_false _
  | true => rw [h.armed (hi hv).1, Bool.true_and]

/-- No decision while a frame is on its way. -/
theorem decValid_none (h : LeadAt port none p s) :
    (s.safIn ports port tables i).decValid = false :=
  ParserRegs.keyValid_parsed (h.eofQ rfl)

/-- The decision on a frame is its own. -/
theorem decision {f : WireFrame} (h : LeadAt port (some f) p s)
    (hown : OwnRoute tables ⟨port, f.bytes⟩) :
    (s.safIn ports port tables i).decValid = true ∧
      (s.safIn ports port tables i).decKeep = f.kept ports port tables ∧
      (s.safIn ports port tables i).decTag = f.tag port tables := by
  obtain ⟨⟨old, hend⟩, hts⟩ := h.ended f rfl
  obtain ⟨hkey, heff⟩ := hown.eff_eq old
  have hlead : s.eff tables = ownResult tables ⟨port, f.bytes⟩ := by
    rw [RxLead.eff, hend.parsed_eq, if_pos hkey, heff]
  simp only [RxLead.safIn, hend.parsed_eq, hkey, hlead, hts, Bool.true_and]
  exact ⟨trivial, rfl, rfl⟩

/-- The timestamp that is kept is the one of the frame's first beat. -/
theorem sof_eq (h : LeadAt port last p s) {f : WireFrame} {rest : List WireFrame}
    (htodo : p.todo = f :: rest) (hwts : p.beats = 0 → i.wireTs = f.wireTs) :
    (if s.ts.inFrame then s.ts.sofTs else i.wireTs) = f.wireTs := by
  rw [h.inFrame]
  by_cases hfirst : 0 < p.beats
  · rw [decide_eq_true hfirst]
    exact h.sofTs hfirst f (by rw [htodo]; rfl)
  · rw [decide_eq_false hfirst]
    exact hwts (by omega)

/-- An idle cycle. -/
theorem idle (h : LeadAt port last p s) (hi : i.tvalid = false) :
    LeadAt port none { p with gap := false } (s.step port i) := by
  obtain ⟨old, hreads⟩ := h.reads
  obtain ⟨hnext, heof⟩ : (s.parser.step port i.toRxBeat).Reads old p.bytes p.beats ∧
    (s.parser.step port i.toRxBeat).eofQ = false := hreads.idle hi
  have hts : (s.step port i).ts = s.ts := by
    simp [RxLead.step, TsRegs.step, RxBeat.gated, hi]
  exact
    { armed := by
        intro _
        simp [RxLead.step, hi]
      gap := by intro hnone; cases hnone
      beats := by
        rintro (hgap | hnil)
        · cases hgap
        · exact h.beats (Or.inr hnil)
      reads := ⟨old, hnext⟩
      ended := by intro f hf; cases hf
      eofQ := fun _ => heof
      inFrame := by rw [hts]; exact h.inFrame
      sofTs := by rw [hts]; exact h.sofTs }

/-- A beat in the middle of a frame. -/
theorem beat (h : LeadAt port last p s) (hi : p.allow i) (hv : i.tvalid = true)
    (hlast : i.beat.tlast = false) :
    LeadAt port none { p with beats := p.beats + 1 } (s.step port i) := by
  obtain ⟨hgap, f, rest, htodo, hlt, hbeat, hwts⟩ := hi hv
  obtain ⟨old, hreads⟩ := h.reads
  have hbytes : p.bytes = f.bytes := by simp [RxPhase.bytes, htodo]
  rw [hbytes] at hreads
  have hmid : 8 * p.beats + 8 < f.bytes.length := by
    rw [hbeat] at hlast
    have := of_decide_eq_false hlast
    omega
  obtain ⟨hnext, heof⟩ : (s.parser.step port i.toRxBeat).Reads old f.bytes (p.beats + 1) ∧
    (s.parser.step port i.toRxBeat).eofQ = false := hreads.beat hv hbeat hmid
  have hts : (s.step port i).ts =
      { inFrame := true, sofTs := if s.ts.inFrame then s.ts.sofTs else i.wireTs
        frameTs := s.ts.frameTs } := by
    simp [RxLead.step, TsRegs.step, RxBeat.gated, h.armed hgap, hv, hlast]
  exact
    { armed := by
        intro _
        simp [RxLead.step, h.armed hgap]
      gap := by intro hnone; cases hnone
      beats := by
        rintro (hg | hnil)
        · rw [hgap] at hg
          cases hg
        · rw [htodo] at hnil
          cases hnil
      reads := by
        rw [← hbytes] at hnext
        exact ⟨old, hnext⟩
      ended := by intro f hf; cases hf
      eofQ := fun _ => heof
      inFrame := by rw [hts]; exact (decide_eq_true (Nat.succ_pos _)).symm
      sofTs := by
        intro _ g hg
        have hfg : f = g := by simpa [htodo] using hg
        rw [hts, ← hfg]
        exact h.sof_eq htodo hwts }

/-- The last beat of a frame. -/
theorem last_beat (h : LeadAt port last p s) (hi : p.allow i) (hv : i.tvalid = true)
    (hlast : i.beat.tlast = true) :
    ∃ f rest, p.todo = f :: rest ∧
      LeadAt port (some f) { gap := true, todo := rest, beats := 0 } (s.step port i) := by
  obtain ⟨hgap, f, rest, htodo, hlt, hbeat, hwts⟩ := hi hv
  refine ⟨f, rest, htodo, ?_⟩
  obtain ⟨old, hreads⟩ := h.reads
  have hbytes : p.bytes = f.bytes := by simp [RxPhase.bytes, htodo]
  rw [hbytes] at hreads
  have hend : f.bytes.length ≤ 8 * p.beats + 8 := by
    rw [hbeat] at hlast
    exact of_decide_eq_true hlast
  have hended : (s.parser.step port i.toRxBeat).Ended old port f.bytes :=
    hreads.last hv hbeat hlt hend
  have hts : (s.step port i).ts =
      { inFrame := false, sofTs := if s.ts.inFrame then s.ts.sofTs else i.wireTs
        frameTs := if s.ts.inFrame then s.ts.sofTs else i.wireTs } := by
    simp [RxLead.step, TsRegs.step, RxBeat.gated, h.armed hgap, hv, hlast]
  exact
    { armed := by intro hg; cases hg
      gap := fun _ => rfl
      beats := fun _ => rfl
      reads := ⟨capture old f.bytes, hended.reads _⟩
      ended := by
        intro g hg
        cases hg
        refine ⟨⟨old, hended⟩, ?_⟩
        rw [hts]
        exact h.sof_eq htodo hwts
      eofQ := by intro hnone; cases hnone
      inFrame := by rw [hts]; rfl
      sofTs := by intro hpos; cases hpos }

/-- **One cycle**: the buffer's contract is kept, the frame that has just ended is decided
by its own classification, and what is written grows with the frame. -/
theorem step (h : LeadAt port last p s) (hi : p.allow i)
    (hown : ∀ f, last = some f → OwnRoute tables ⟨port, f.bytes⟩) :
    (duePhase last).allow (s.safIn ports port tables i) ∧
    (if (s.safIn ports port tables i).decValid then
        [(p.written last, (s.safIn ports port tables i).decKeep,
          (s.safIn ports port tables i).decTag)]
      else []) = last.toList.map (WireFrame.decided ports port tables) ∧
    ∃ last', LeadAt port last' (p.next i) (s.step port i) ∧
      p.todo = last'.toList ++ (p.next i).todo ∧
      (duePhase last).next (s.safIn ports port tables i) = duePhase last' ∧
      safCur (p.written last) (s.safIn ports port tables i) = (p.next i).written last' := by
  have hvalid : (s.safIn ports port tables i).tvalid = i.tvalid := h.tvalid_eq hi
  cases last with
  | some f =>
    have hidle : i.tvalid = false := by
      rw [Bool.eq_false_iff]
      intro hv
      have := h.gap rfl
      rw [(hi hv).1] at this
      cases this
    obtain ⟨hd, hkeep, htag⟩ : (s.safIn ports port tables i).decValid = true ∧
        (s.safIn ports port tables i).decKeep = f.kept ports port tables ∧
        (s.safIn ports port tables i).decTag = f.tag port tables := h.decision (hown f rfl)
    have hnext : p.next i = { p with gap := false } := by simp [RxPhase.next, hidle]
    have hbeats : p.beats = 0 := h.beats (Or.inl (h.gap rfl))
    refine ⟨⟨hd, by rw [hvalid, hidle]⟩, ?_, none, ?_, ?_, rfl, ?_⟩
    · rw [if_pos hd, hkeep, htag]
      rfl
    · rw [hnext]
      exact h.idle hidle
    · rw [hnext]
      rfl
    · rw [safCur, if_pos hd, hnext, RxPhase.written, hbeats]
      rfl
  | none =>
    have hd : (s.safIn ports port tables i).decValid = false := h.decValid_none
    refine ⟨hd, by rw [hd]; rfl, ?_⟩
    cases hv : i.tvalid with
    | false =>
      have hnext : p.next i = { p with gap := false } := by simp [RxPhase.next, hv]
      refine ⟨none, ?_, ?_, ?_, ?_⟩
      · rw [hnext]
        exact h.idle hv
      · rw [hnext]
        rfl
      · simp [duePhase, SafPhase.next, hvalid, hv]
      · rw [safCur, hd, hvalid, hv, hnext]
        rfl
    | true =>
      have hgrow := p.written_concat hi hv
      have hcur : safCur (p.written none) (s.safIn ports port tables i) =
          (axisBeats p.bytes).take (p.beats + 1) := by
        rw [safCur, hd, hvalid, hv]
        exact hgrow
      have hbuffer : SafPhase.streaming.next (s.safIn ports port tables i) =
          if i.beat.tlast then .due else .streaming := by
        simp only [SafPhase.next, hvalid, hv, Bool.true_and]
        rfl
      cases hlast : i.beat.tlast with
      | false =>
        have hnext : p.next i = { p with beats := p.beats + 1 } := by
          simp [RxPhase.next, hv, hlast]
        refine ⟨none, ?_, ?_, ?_, ?_⟩
        · rw [hnext]
          exact h.beat hi hv hlast
        · rw [hnext]
          rfl
        · exact hbuffer.trans (by rw [hlast]; rfl)
        · rw [hcur, hnext]
          rfl
      | true =>
        obtain ⟨f, rest, htodo, hended⟩ := h.last_beat hi hv hlast
        have hnext : p.next i = { gap := true, todo := rest, beats := 0 } := by
          simp [RxPhase.next, hv, hlast, htodo]
        refine ⟨some f, ?_, ?_, ?_, ?_⟩
        · rw [hnext]
          exact hended
        · rw [hnext]
          exact htodo
        · exact hbuffer.trans (by rw [hlast]; rfl)
        · rw [hcur, p.take_axisBeats_of_last hi hv hlast]
          simp [RxPhase.written, RxPhase.bytes, htodo]

/-- **A run**: the decisions are those of the frames, one for each, in order. -/
theorem run {ins : List RxIn} (h : LeadAt port last p s)
    (hins : Follows RxPhase.allow RxPhase.next p ins)
    (hown : ∀ f ∈ last.toList ++ p.todo, OwnRoute tables ⟨port, f.bytes⟩) :
    Follows SafPhase.allow SafPhase.next (duePhase last) (s.given ports port tables ins) ∧
    ∃ done last', LeadAt port last' (Lib.run RxPhase.next p ins) (Lib.run (RxLead.step port) s ins) ∧
      last.toList ++ p.todo = done ++ (last'.toList ++ (Lib.run RxPhase.next p ins).todo) ∧
      safArrivals (p.written last) (s.given ports port tables ins) =
        done.map (WireFrame.decided ports port tables) ∧
      Lib.run safCur (p.written last) (s.given ports port tables ins) =
        (Lib.run RxPhase.next p ins).written last' := by
  induction ins generalizing last p s with
  | nil => exact ⟨trivial, [], last, h, rfl, rfl, rfl⟩
  | cons i ins ih =>
    obtain ⟨hallow, hdec, mid, hmid, htodo, hphase, hcur⟩ :
        (duePhase last).allow (s.safIn ports port tables i) ∧ _ :=
      h.step hins.1 fun f hf => hown f (by rw [hf]; exact List.mem_cons_self)
    have hrest : ∀ f ∈ mid.toList ++ (p.next i).todo, OwnRoute tables ⟨port, f.bytes⟩ := by
      intro f hf
      rw [← htodo] at hf
      exact hown f (List.mem_append_right _ hf)
    obtain ⟨hfollows, done, last', hend, hsplit, harr, hrun⟩ := ih hmid hins.2 hrest
    refine ⟨⟨hallow, ?_⟩, last.toList ++ done, last', hend, ?_, ?_, ?_⟩
    · rw [hphase]
      exact hfollows
    · rw [htodo, hsplit, List.append_assoc]
      rfl
    · rw [RxLead.given, trace_cons, safArrivals_cons_eq, hdec, hcur, List.map_append, ← harr]
      rfl
    · rw [RxLead.given, trace_cons, run_cons, hcur]
      exact hrun

end LeadAt

/-! ## What the buffer is given -/

section Writes

variable {ρ : Type}

/-- The ready of the drain side is no part of the contract. -/
theorem follows_muted {p : SafPhase} {l : List (SafIn ρ)} :
    Follows SafPhase.allow SafPhase.next p (l.map SafIn.muted) ↔
      Follows SafPhase.allow SafPhase.next p l := by
  induction l generalizing p with
  | nil => rfl
  | cons i l ih =>
    cases p with
    | streaming => exact and_congr Iff.rfl ih
    | due => exact and_congr Iff.rfl ih

theorem safArrivals_muted (cur : List Beat) (l : List (SafIn ρ)) :
    safArrivals cur (l.map SafIn.muted) = safArrivals cur l := by
  induction l generalizing cur with
  | nil => rfl
  | cons i l ih =>
    rw [List.map_cons, safArrivals_cons_eq, safArrivals_cons_eq, ih]
    rfl

theorem run_safCur_muted (cur : List Beat) (l : List (SafIn ρ)) :
    run safCur cur (l.map SafIn.muted) = run safCur cur l := by
  induction l generalizing cur with
  | nil => rfl
  | cons i l ih => exact ih (safCur cur i)

/-- Idle cycles change nothing. -/
theorem idle_append {pre l : List (SafIn ρ)} (hpre : ∀ x ∈ pre, x.tvalid = false ∧ x.decValid = false)
    (cur : List Beat) :
    (Follows SafPhase.allow SafPhase.next .streaming l →
      Follows SafPhase.allow SafPhase.next .streaming (pre ++ l)) ∧
    safArrivals cur (pre ++ l) = safArrivals cur l ∧
    run safCur cur (pre ++ l) = run safCur cur l := by
  induction pre with
  | nil => exact ⟨id, rfl, rfl⟩
  | cons i pre ih =>
    obtain ⟨hv, hd⟩ := hpre i List.mem_cons_self
    obtain ⟨hfollows, harr, hcur⟩ := ih fun x hx => hpre x (List.mem_cons_of_mem _ hx)
    have hnext : SafPhase.streaming.next i = .streaming := by simp [SafPhase.next, hv]
    have hsame : safCur cur i = cur := by simp [safCur, hv, hd]
    refine ⟨?_, ?_, ?_⟩
    · intro hl
      refine ⟨hd, ?_⟩
      rw [hnext]
      exact hfollows hl
    · rw [List.cons_append, safArrivals_cons_eq, hd, hsame, harr]
      rfl
    · rw [List.cons_append, run_cons, hsame, hcur]

/-- The frame in progress follows the inputs. -/
theorem cur_run_safSpec (t : SafSpec ρ) (l : List (SafIn ρ)) :
    (run (SafSpec.step aw daw) t l).cur = run safCur t.cur l := by
  refine run_simulation (R := fun (t : SafSpec ρ) cur => t.cur = cur) ?_ rfl l
  intro t cur i h
  rw [SafSpec.cur_step, h, safCur]

end Writes

variable {ports : ℕ} {port : BitVec 4} {tables : CardTables lfw}

/-- After a reset the stream is at its start. -/
theorem RxFront.Reset.leadAt {s : RxFront lfw} (hs : s.Reset) (frames : List WireFrame) :
    LeadAt port none (.start frames) s.lead :=
  { armed := by intro hg; cases hg
    gap := fun _ => rfl
    beats := fun _ => rfl
    reads := by
      refine ⟨s.parser.hdr, ⟨?_, hs.byteOff⟩⟩
      funext p
      by_cases hp : p < hdrBytes
      · simp [RxPhase.start, capture, hp, lead]
      · simp [capture, hp, lead, hs.window p (Nat.le_of_not_lt hp)]
    ended := by intro f hf; cases hf
    eofQ := fun _ => hs.eofQ
    inFrame := hs.ts
    sofTs := by intro hpos; cases hpos }

/-- The cycles that have come through the delay line. -/
def throughDelay (ins : List RxIn) : List RxIn := ins.take (ins.length - 7)

/-- **What the buffer is given**: its contract is kept, and each frame is decided once, by
its own classification, in order. -/
theorem RxFront.Reset.writes {s : RxFront lfw} (hs : s.Reset) {frames : List WireFrame}
    {ins : List RxIn} (hins : Arrives frames ins)
    (hown : ∀ f ∈ frames, OwnRoute tables ⟨port, f.bytes⟩) :
    SafContract (s.given ports port tables ins) ∧
    ∃ done last',
      LeadAt port last' (run RxPhase.next (.start frames) (throughDelay ins))
        (run (RxLead.step port) s.lead (throughDelay ins)) ∧
      frames = done ++
        (last'.toList ++ (run RxPhase.next (.start frames) (throughDelay ins)).todo) ∧
      safArrivals [] (s.given ports port tables ins) =
        done.map (WireFrame.decided ports port tables) ∧
      run safCur [] (s.given ports port tables ins) =
        (run RxPhase.next (.start frames) (throughDelay ins)).written last' := by
  set post := (run (step tables port) s (ins.take 7)).given ports port tables (ins.drop 7)
  have hsplit : s.given ports port tables ins = s.given ports port tables (ins.take 7) ++ post := by
    conv_lhs => rw [← List.take_append_drop 7 ins]
    exact trace_append _ _ _ _ _
  have hidle : ∀ x ∈ s.given ports port tables (ins.take 7), x.tvalid = false ∧ x.decValid = false :=
    hs.given_idle (by rw [List.length_take]; omega)
  have hmuted : post.map SafIn.muted =
      s.lead.given ports port tables (throughDelay ins) := by
    by_cases hlen : 7 ≤ ins.length
    · have hdelayed : post.map SafIn.muted = _ :=
        hs.given_delayed (by rw [List.length_take]; omega) (ins.drop 7)
      rw [List.take_append_drop, List.length_drop] at hdelayed
      exact hdelayed
    · have hnil : post = [] := by
        show trace _ _ _ (ins.drop 7) = []
        rw [List.drop_eq_nil_of_le (by omega), trace_nil]
      rw [hnil, throughDelay, Nat.sub_eq_zero_of_le (by omega)]
      rfl
  have hlead : Follows RxPhase.allow RxPhase.next (.start frames) (throughDelay ins) := by
    apply Follows.left (m := ins.drop (ins.length - 7))
    rw [throughDelay, List.take_append_drop]
    exact hins
  obtain ⟨hfollows, done, last', hend, hdone, harr, hcur⟩ :
      Follows SafPhase.allow SafPhase.next .streaming (s.lead.given ports port tables _) ∧ _ :=
    (hs.leadAt frames).run hlead hown
  rw [← hmuted] at hfollows harr hcur
  obtain ⟨hcontract, harrivals, hrun⟩ : (Follows SafPhase.allow SafPhase.next .streaming post →
      Follows SafPhase.allow SafPhase.next .streaming _) ∧ _ := idle_append hidle []
  rw [hsplit]
  refine ⟨hcontract (follows_muted.mp hfollows), done, last', hend, hdone, ?_, ?_⟩
  · rw [harrivals, ← safArrivals_muted]
    exact harr
  · rw [hrun, ← run_safCur_muted]
    exact hcur

end PacketWyrm
