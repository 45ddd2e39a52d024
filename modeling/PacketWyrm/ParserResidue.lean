import PacketWyrm.RxRoutes

/-!
# What earlier frames leave behind

The header window of the parser is not cleared between frames.  Here two ports that have
received different frames are given the same one: with whatever gaps it comes, the key is the
same, since each byte is read under a check of the length.  The window that is handed to the
classifier has no such check, so a window comparator sees the bytes of an earlier frame behind
the end of a short one.

## Main definitions

* `ArrivedFrame` — a frame with the cycles that bring it.
* `leftWindow` — the window that frames leave behind.
* `UdfRow.OwnByte` — a byte that a window comparator reads is not one of an earlier frame.

## Main results

* `ParserRegs.outAfter_eq` — what the parser presents for a frame, after any others.
* `parser_key_no_residue` — the key depends on the frame alone.
* `udf_match_own_iff` — when a window comparator does.
-/

namespace PacketWyrm

open Lib

variable {lfw : ℕ}

/-! ## Frames with the cycles that bring them -/

/-- A frame as it comes to the parser: its beats in order, idle cycles before and between them,
and the last beat in the last cycle. -/
structure ArrivedFrame where
  bytes : List Byte
  cycles : List RxBeat
  beats : (cycles.filter RxBeat.tvalid).map RxBeat.beat = axisBeats bytes
  ends : cycles.getLast?.map RxBeat.tvalid = some true

/-- A frame without gaps. -/
def ArrivedFrame.ofBytes (bytes : List Byte) (h : bytes ≠ []) : ArrivedFrame :=
  { bytes
    cycles := (axisBeats bytes).map fun b => { beat := b, tvalid := true }
    beats := by
      rw [List.filter_eq_self.mpr (by simp), List.map_map]
      exact List.map_id _
    ends := by
      have hne : axisBeats bytes ≠ [] := by
        intro hnil
        have hlen := congrArg List.length hnil
        rw [length_axisBeats, List.length_nil] at hlen
        have := List.length_pos_iff.mpr h
        omega
      rw [List.getLast?_map, List.getLast?_eq_getLast_of_ne_nil hne]
      rfl }

/-- Idle cycles. -/
def idleCycles (n : ℕ) : List RxBeat := List.replicate n { tvalid := false }

theorem length_idleCycles (n : ℕ) : (idleCycles n).length = n := List.length_replicate

/-- The window that frames leave behind. -/
def leftWindow (old : Window) (hist : List ArrivedFrame) : Window :=
  hist.foldl (fun w f => capture w f.bytes) old

namespace ParserRegs

variable {s : ParserRegs} {old : Window} {bytes : List Byte} {j : ℕ} {port : BitVec 4}

/-- The beats that are left of a frame. -/
theorem drop_axisBeats {b : Beat} {rest : List Beat}
    (h : b :: rest = (axisBeats bytes).drop j) :
    8 * j < bytes.length ∧ b = axisBeat bytes (8 * j) ∧ rest = (axisBeats bytes).drop (j + 1) := by
  have hj : j < (axisBeats bytes).length := by
    by_contra hge
    rw [List.drop_eq_nil_of_le (by omega)] at h
    cases h
  rw [List.drop_eq_getElem_cons hj] at h
  obtain ⟨hb, hrest⟩ := List.cons.inj h
  rw [length_axisBeats] at hj
  refine ⟨by omega, ?_, hrest⟩
  rw [hb]
  simp [axisBeats]

/-- The rest of a frame, whatever the gaps. -/
theorem Reads.run_rest (h : s.Reads old bytes j) {c : List RxBeat}
    (hbeats : (c.filter RxBeat.tvalid).map RxBeat.beat = (axisBeats bytes).drop j)
    (hends : c.getLast?.map RxBeat.tvalid = some true) :
    (run (step port) s c).Ended old port bytes := by
  induction c generalizing s j with
  | nil => cases hends
  | cons i c ih =>
    cases hv : i.tvalid with
    | false =>
      have hne : c ≠ [] := by
        rintro rfl
        rw [List.getLast?_singleton, Option.map_some, hv] at hends
        cases hends
      rw [List.filter_cons_of_neg (by simp [hv])] at hbeats
      rw [List.getLast?_cons_of_ne_nil hne] at hends
      exact ih (h.idle hv).1 hbeats hends
    | true =>
      rw [List.filter_cons_of_pos hv, List.map_cons] at hbeats
      obtain ⟨hj, hb, hrest⟩ := drop_axisBeats hbeats
      rw [run_cons]
      by_cases hlast : bytes.length ≤ 8 * j + 8
      · -- nothing is left of the frame, so this is the last cycle
        have hnil : (axisBeats bytes).drop (j + 1) = [] := by
          rw [List.drop_eq_nil_iff, length_axisBeats]
          omega
        rw [hnil, List.map_eq_nil_iff, List.filter_eq_nil_iff] at hrest
        have hc : c = [] := by
          by_contra hne
          rw [List.getLast?_cons_of_ne_nil hne, List.getLast?_eq_getLast_of_ne_nil hne,
            Option.map_some, Option.some.injEq] at hends
          exact hrest _ (List.getLast_mem hne) hends
        rw [hc, run_nil]
        exact h.last hv hb hj hlast
      · have hne : c ≠ [] := by
          rintro rfl
          have hlen := congrArg List.length hrest
          rw [List.length_drop, length_axisBeats] at hlen
          simp at hlen
          omega
        rw [List.getLast?_cons_of_ne_nil hne] at hends
        exact ih (h.beat hv hb (by omega)).1 hrest hends

/-- A frame, whatever the gaps. -/
theorem Reads.run_frame (h : s.Reads old [] 0) (f : ArrivedFrame) :
    (run (step port) s f.cycles).Ended old port f.bytes :=
  (h.change f.bytes).run_rest f.beats f.ends

/-- Frames, one after the other. -/
theorem Reads.run_frames (h : s.Reads old [] 0) (hist : List ArrivedFrame) :
    (run (step port) s (hist.flatMap ArrivedFrame.cycles)).Reads (leftWindow old hist) [] 0 := by
  induction hist generalizing s old with
  | nil => exact h
  | cons f hist ih =>
    rw [List.flatMap_cons, run_append]
    exact ih ((h.run_frame f).reads [])

/-- Three cycles after the last beat the parser presents what the stages make of the frame. -/
theorem out_run_three (s : ParserRegs) (port : BitVec 4) {t : List RxBeat} (ht : t.length = 3) :
    (run (step port) s t).out = s.parsed := by
  obtain ⟨i, j, k, rfl⟩ := List.length_eq_three.mp ht
  rfl

/-- The outputs of the parser after some frames, another one, and the cycles `t`. -/
def outAfter (s : ParserRegs) (port : BitVec 4) (hist : List ArrivedFrame) (f : ArrivedFrame)
    (t : List RxBeat) : ParserOut :=
  (run (step port) s (hist.flatMap ArrivedFrame.cycles ++ f.cycles ++ t)).out

/-- **What the parser presents for a frame**, after any others. -/
theorem outAfter_eq (h : s.Reads old [] 0) (port : BitVec 4) (hist : List ArrivedFrame)
    (f : ArrivedFrame) {t : List RxBeat} (ht : t.length = 3) :
    s.outAfter port hist f t = parseFrame (leftWindow old hist) ⟨port, f.bytes⟩ := by
  rw [outAfter, run_append, run_append, out_run_three _ port ht]
  exact ((h.run_frames hist).run_frame f).parsed_eq

/-- The registers that a reset settles: the byte counter.  The window is left as it is. -/
structure Reset (s : ParserRegs) : Prop where
  byteOff : s.byteOff = 0
  window : ∀ b, hdrBytes ≤ b → s.hdr b = 0

theorem Reset.reads (hs : s.Reset) : s.Reads s.hdr [] 0 := by
  refine ⟨?_, hs.byteOff⟩
  funext b
  simp only [capture, List.take_nil, List.getElem?_nil, Option.getD_none]
  by_cases hb : b < hdrBytes
  · rw [if_pos hb]
  · rw [if_neg hb, hs.window b (by omega)]

end ParserRegs

/-! ## The key -/

/-- **The key of a frame does not depend on earlier frames.**  Two parsers, after a reset, have
received any frames with any gaps, and are given the same frame on the same port, again with any
gaps and followed by anything.  Three cycles after its last beat they present the same key, with
its test fields, and the same valid, whatever the length of the frame: those of the frame alone. -/
theorem parser_key_no_residue {s s' : ParserRegs} (hs : s.Reset) (hs' : s'.Reset)
    (port : BitVec 4) (hist hist' : List ArrivedFrame) {f f' : ArrivedFrame}
    (hf : f.bytes = f'.bytes) {t t' : List RxBeat} (ht : t.length = 3) (ht' : t'.length = 3) :
    let o := s.outAfter port hist f t
    let o' := s'.outAfter port hist' f' t'
    o.key = o'.key ∧ o.keyValid = o'.keyValid ∧
      o.key = (parseFrame (fun _ => 0) ⟨port, f.bytes⟩).key ∧
      o.keyValid = (parseFrame (fun _ => 0) ⟨port, f.bytes⟩).keyValid := by
  dsimp only
  rw [ParserRegs.outAfter_eq hs.reads port hist f ht,
    ParserRegs.outAfter_eq hs'.reads port hist' f' ht', ← hf,
    parseFrame_congr _ (fun _ => 0) ⟨port, f.bytes⟩,
    parseFrame_congr (leftWindow s'.hdr hist') (fun _ => 0) ⟨port, f.bytes⟩]
  exact ⟨rfl, rfl, rfl, rfl⟩

/-- An Ethernet frame of 60 bytes. -/
def sampleShortFrame : ArrivedFrame :=
  .ofBytes (List.replicate 12 2 ++ [0x88, 0xB5] ++ List.replicate 46 0) (by simp)

/-- One of 64 bytes that ends in `DE AD BE EF`. -/
def sampleLongFrame : ArrivedFrame :=
  .ofBytes (List.replicate 12 2 ++ [0x88, 0xB5] ++ List.replicate 46 0 ++ [0xDE, 0xAD, 0xBE, 0xEF])
    (by simp)

/-- After the long frame, and after none. -/
theorem parser_key_no_residue_sample :
    ((sampleRxPath 2 1).1.parser.outAfter 3 [sampleLongFrame] sampleShortFrame (idleCycles 3)).key =
      ((sampleRxPath 2 1).1.parser.outAfter 3 [] sampleShortFrame (idleCycles 3)).key := by
  have hs := (reset_sampleRxPath 2 1).front
  have hparser : (sampleRxPath 2 1).1.parser.Reset := ⟨hs.byteOff, hs.window⟩
  have hsame : sampleShortFrame.bytes = sampleShortFrame.bytes := rfl
  exact (parser_key_no_residue hparser hparser 3 [sampleLongFrame] [] hsame
    (length_idleCycles 3) (length_idleCycles 3)).1

/-! ## The window comparators -/

namespace UdfRow

variable (u : UdfRow) (f : RxFrame)

/-- Where byte `k` of the comparison stands in the frame. -/
def offsetIn (k : ℕ) : BitVec 16 :=
  (parseFrame (fun _ => 0) f).base + u.offset + BitVec.ofNat 16 k

/-- The byte is in the frame, or beyond the window, where it reads as 0. -/
def OwnByte (k : ℕ) : Prop :=
  (u.offsetIn f k).toNat < f.bytes.length ∨ hdrBytes ≤ (u.offsetIn f k).toNat

/-- Byte `k` of a word, the first one most significant. -/
def byteOf (x : BitVec 32) (k : ℕ) : Byte := x.extractLsb' (24 - 8 * k) 8

/-- The bytes that the frame has decide the comparison: there are no others under the mask, or
one of them differs. -/
def OwnMatch : Prop :=
  (∀ k < 4, byteOf u.mask k ≠ 0 → u.OwnByte f k) ∨
    ∃ k < 4, u.OwnByte f k ∧
      byteAt (capture (fun _ => 0) f.bytes) (u.offsetIn f k) &&& byteOf u.mask k ≠
        byteOf u.value k &&& byteOf u.mask k

/-- Flipping every bit of a mask is seen under it. -/
theorem eq_zero_of_xor_and {v m : Byte} (h : (v ^^^ m) &&& m = v &&& m) : m = 0 := by
  apply BitVec.eq_of_getLsbD_eq
  intro i _
  have hbit := congrArg (fun x => x.getLsbD i) h
  simp only [BitVec.getLsbD_and, BitVec.getLsbD_xor] at hbit
  cases hm : m.getLsbD i with
  | false => exact BitVec.getLsbD_zero.symm
  | true =>
    rw [hm] at hbit
    cases hv : v.getLsbD i <;> rw [hv] at hbit <;> cases hbit

/-- Four bytes under a mask. -/
theorem append_and_mask (x : ℕ → Byte) (m : BitVec 32) :
    (x 0 ++ x 1 ++ x 2 ++ x 3) &&& m =
      (x 0 &&& byteOf m 0) ++ (x 1 &&& byteOf m 1) ++ (x 2 &&& byteOf m 2) ++
        (x 3 &&& byteOf m 3) := by
  conv_lhs => rw [← mask_bytes m]
  rw [BitVec.and_append, BitVec.and_append, BitVec.and_append]
  rfl

instance (k : ℕ) : Decidable (u.OwnByte f k) := inferInstanceAs (Decidable (_ ∨ _))

instance : Decidable (u.OwnMatch f) := inferInstanceAs (Decidable (_ ∨ _))

/-- A comparator matches when each of its bytes does. -/
theorem matches_iff (win : Window) (base : BitVec 16) :
    u.matches win base = true ↔ ∀ k < 4,
      byteAt win (base + u.offset + BitVec.ofNat 16 k) &&& byteOf u.mask k =
        byteOf u.value k &&& byteOf u.mask k := by
  have hext := append_and_mask (fun k => byteAt win (base + u.offset + BitVec.ofNat 16 k)) u.mask
  have hslice : byteAt win (base + u.offset + 0#16) ++ byteAt win (base + u.offset + 1#16) ++
      byteAt win (base + u.offset + 2#16) ++ byteAt win (base + u.offset + 3#16) =
        sliceExt win (base + u.offset) := by
    rw [BitVec.add_zero]
    rfl
  rw [hslice] at hext
  have hvalue := append_and_mask (byteOf u.value) u.mask
  have hbytes : byteOf u.value 0 ++ byteOf u.value 1 ++ byteOf u.value 2 ++ byteOf u.value 3 =
      u.value := mask_bytes u.value
  rw [hbytes] at hvalue
  rw [UdfRow.matches, beq_iff_eq, hext, hvalue, append_eq_append_iff, append_eq_append_iff,
    append_eq_append_iff]
  constructor
  · rintro ⟨⟨⟨h0, h1⟩, h2⟩, h3⟩ k hk
    obtain rfl | rfl | rfl | rfl : k = 0 ∨ k = 1 ∨ k = 2 ∨ k = 3 := by omega
    · exact h0
    · exact h1
    · exact h2
    · exact h3
  · intro h
    exact ⟨⟨⟨h 0 (by omega), h 1 (by omega)⟩, h 2 (by omega)⟩, h 3 (by omega)⟩

/-- A byte of the frame, or beyond the window, does not depend on what is left there. -/
theorem OwnByte.byteAt_eq {u : UdfRow} {f : RxFrame} {k : ℕ} (h : u.OwnByte f k)
    (old old' : Window) :
    byteAt (capture old f.bytes) (u.offsetIn f k) =
      byteAt (capture old' f.bytes) (u.offsetIn f k) := by
  rw [byteAt, byteAt]
  split
  · cases h with
    | inl hlt => exact capture_eq_of_lt old old' hlt
    | inr hge => omega
  · rfl

/-- Any other byte is what is left there. -/
theorem byteAt_of_not_ownByte {u : UdfRow} {f : RxFrame} {k : ℕ} (h : ¬u.OwnByte f k)
    (old : Window) :
    byteAt (capture old f.bytes) (u.offsetIn f k) = old (u.offsetIn f k).toNat := by
  rw [OwnByte, not_or] at h
  have hlt : (u.offsetIn f k).toNat < hdrBytes := by omega
  have hidx : (u.offsetIn f k).toNat +
      2 ^ 16 * ((f.bytes.length - 1 - (u.offsetIn f k).toNat) / 2 ^ 16) =
        (u.offsetIn f k).toNat := by omega
  rw [byteAt, if_pos hlt, capture, if_pos hlt, hidx, List.getElem?_eq_none (by omega)]
  rfl

/-- A window that has the word `v` where the comparator looks. -/
def fill (v : BitVec 32) : Window := fun p =>
  byteOf v (BitVec.ofNat 16 p - ((parseFrame (fun _ => 0) f).base + u.offset)).toNat

theorem fill_offsetIn (v : BitVec 32) {k : ℕ} (hk : k < 4) :
    u.fill f v (u.offsetIn f k).toNat = byteOf v k := by
  rw [fill, offsetIn]
  congr 1
  rw [BitVec.ofNat_toNat, BitVec.setWidth_eq, BitVec.add_comm, BitVec.add_sub_cancel,
    BitVec.toNat_ofNat]
  omega

/-- What the comparator makes of a frame, after frames that left `old`. -/
def matchAfter (old : Window) : Bool :=
  u.matches (parseFrame old f).window (parseFrame old f).base

theorem matchAfter_iff (old : Window) :
    u.matchAfter f old = true ↔ ∀ k < 4,
      byteAt (capture old f.bytes) (u.offsetIn f k) &&& byteOf u.mask k =
        byteOf u.value k &&& byteOf u.mask k := by
  rw [matchAfter, parseFrame_congr old (fun _ => 0) f]
  exact u.matches_iff _ _

/-- **When the match does not depend on what is left in the window.** -/
theorem matchAfter_const_iff :
    (∀ old old', u.matchAfter f old = u.matchAfter f old') ↔ u.OwnMatch f := by
  constructor
  · intro h
    by_contra hown
    rw [OwnMatch, not_or] at hown
    obtain ⟨hforeign, hsame⟩ := hown
    push Not at hforeign hsame
    obtain ⟨k₀, hk₀, hmask, hk₀own⟩ := hforeign
    -- the value itself is left, and then the value with every masked bit flipped
    have hvalue : u.matchAfter f (u.fill f u.value) = true := by
      rw [matchAfter_iff]
      intro k hk
      by_cases hk' : u.OwnByte f k
      · rw [hk'.byteAt_eq _ (fun _ => 0)]
        exact hsame k hk hk'
      · rw [byteAt_of_not_ownByte hk', fill_offsetIn u f _ hk]
    have hflipped : u.matchAfter f (u.fill f (u.value ^^^ u.mask)) = false := by
      rw [Bool.eq_false_iff, Ne, matchAfter_iff]
      intro hall
      have hbyte := hall k₀ hk₀
      rw [byteAt_of_not_ownByte hk₀own, fill_offsetIn u f _ hk₀, byteOf,
        BitVec.extractLsb'_xor] at hbyte
      exact hmask (eq_zero_of_xor_and hbyte)
    rw [h _ (u.fill f (u.value ^^^ u.mask)), hflipped] at hvalue
    cases hvalue
  · rintro (hin | ⟨k, hk, hown, hne⟩) old old'
    · rw [Bool.eq_iff_iff, matchAfter_iff, matchAfter_iff]
      refine forall₂_congr fun k hk => ?_
      by_cases hmask : byteOf u.mask k = 0
      · rw [hmask]
        simp
      · rw [(hin k hk hmask).byteAt_eq old old']
    · have hfalse (old : Window) : u.matchAfter f old = false := by
        rw [Bool.eq_false_iff, Ne, matchAfter_iff]
        intro hall
        rw [hown.byteAt_eq _ old] at hne
        exact hne (hall k hk)
      rw [hfalse, hfalse]

end UdfRow

/-- The bit of a window comparator, in the registers of the field classifier. -/
def udfBit (tables : CardTables lfw) (port : BitVec 4) (u : Fin 2) (s : RxFront lfw)
    (ins : List RxIn) : Bool :=
  (run (RxFront.step tables port) s ins).pipe.field.cmatchQ ⟨12 + u, Nat.add_lt_add_left u.isLt 12⟩

/-- A port receives frames, the last of them with the given bytes, and four cycles later its
comparators have seen that one. -/
def SeesFrame (bytes : List Byte) (hist : List ArrivedFrame) (ins : List RxIn) : Prop :=
  ∃ (f : ArrivedFrame) (t : List RxBeat), f.bytes = bytes ∧ t.length = 4 ∧
    ins.map RxIn.toRxBeat = hist.flatMap ArrivedFrame.cycles ++ f.cycles ++ t

namespace RxFront

variable {tables : CardTables lfw} {port : BitVec 4} {s : RxFront lfw}

/-- The parser runs on the stream alone. -/
theorem parser_run (ins : List RxIn) :
    (run (step tables port) s ins).parser =
      run (ParserRegs.step port) s.parser (ins.map RxIn.toRxBeat) := by
  induction ins generalizing s with
  | nil => rfl
  | cons i ins ih => exact ih

theorem Reset.parser (hs : s.Reset) : s.parser.Reset :=
  { byteOff := hs.byteOff, window := hs.window }

/-- **The bit of a comparator for a frame**, after any others. -/
theorem udfBit_eq (hs : s.Reset) (u : Fin 2) {bytes : List Byte} {hist : List ArrivedFrame}
    {ins : List RxIn} (h : SeesFrame bytes hist ins) :
    udfBit tables port u s ins =
      (tables.field.udf u).matchAfter ⟨port, bytes⟩ (leftWindow s.parser.hdr hist) := by
  obtain ⟨f, t, rfl, ht, hins⟩ := h
  obtain ⟨t, b, rfl⟩ : ∃ t' b, t = t' ++ [b] :=
    ⟨t.dropLast, t.getLast (by rintro rfl; cases ht), (List.dropLast_append_getLast _).symm⟩
  rw [← List.append_assoc, List.map_eq_append_iff] at hins
  obtain ⟨l, l', rfl, hl, hl'⟩ := hins
  obtain ⟨i, rfl, -⟩ := List.map_eq_singleton_iff.mp hl'
  have hout := ParserRegs.outAfter_eq hs.parser.reads port hist f (t := t) (by simpa using ht)
  have hnot : ¬12 + u.val < 12 := by omega
  have hidx : (⟨12 + u.val - 12, by omega⟩ : Fin 2) = u := Fin.ext (by simp)
  rw [udfBit, run_concat]
  show (tables.field.cmatch _ _ _ _) = _
  rw [FieldTables.cmatch, dif_neg hnot, hidx]
  show (tables.field.udf u).matches (run (step tables port) s l).parser.out.window
    (run (step tables port) s l).parser.out.base = _
  rw [parser_run, hl, ← ParserRegs.outAfter, hout, UdfRow.matchAfter]

end RxFront

/-- Any frames may come before a frame. -/
theorem exists_seesFrame (hist : List ArrivedFrame) (f : ArrivedFrame) :
    ∃ ins, SeesFrame f.bytes hist ins := by
  refine ⟨(hist.flatMap ArrivedFrame.cycles ++ f.cycles ++ idleCycles 4).map
    fun b => { toRxBeat := b }, f, idleCycles 4, rfl, length_idleCycles 4, ?_⟩
  rw [List.map_map]
  exact List.map_id _

/-- A frame that fills the window leaves its own bytes there. -/
theorem capture_capture_full (old w : Window) (bytes : List Byte) :
    capture (capture old ((List.range hdrBytes).map w)) bytes = capture w bytes := by
  funext b
  rw [capture, capture.eq_def w]
  by_cases hb : b < hdrBytes
  · have hidx : b + 2 ^ 16 * ((hdrBytes - 1 - b) / 2 ^ 16) = b := by
      rw [hdrBytes] at hb ⊢
      omega
    rw [if_pos hb, if_pos hb, capture, if_pos hb, List.length_map, List.length_range, hidx,
      List.getElem?_map, List.getElem?_range hb]
    rfl
  · rw [if_neg hb, if_neg hb]

/-- **When a window comparator sees the frame alone.**  A port that has been reset has received
any frames, with any gaps, before a given one.  The comparator's bit for that frame is the same
whatever they were, exactly when the bytes that the frame has, with those beyond the window,
decide the comparison: every byte under the mask is one of these, or one of these differs from
the value. -/
theorem udf_match_own_iff (tables : CardTables lfw) (port : BitVec 4) (u : Fin 2)
    {s : RxFront lfw} (hs : s.Reset) (f : ArrivedFrame) :
    (∀ hist hist' ins ins', SeesFrame f.bytes hist ins → SeesFrame f.bytes hist' ins' →
        udfBit tables port u s ins = udfBit tables port u s ins') ↔
      (tables.field.udf u).OwnMatch ⟨port, f.bytes⟩ := by
  rw [← UdfRow.matchAfter_const_iff]
  constructor
  · intro h
    -- any window is left by a frame that fills it
    have hleft (w : Window) : ∃ hist ins, SeesFrame f.bytes hist ins ∧
        udfBit tables port u s ins = (tables.field.udf u).matchAfter ⟨port, f.bytes⟩ w := by
      let full := ArrivedFrame.ofBytes ((List.range hdrBytes).map w) (by simp [hdrBytes])
      obtain ⟨ins, hsees⟩ := exists_seesFrame [full] f
      refine ⟨[full], ins, hsees, ?_⟩
      rw [RxFront.udfBit_eq hs u hsees, UdfRow.matchAfter, UdfRow.matchAfter, parseFrame,
        parseFrame]
      have hcapture := capture_capture_full s.parser.hdr w f.bytes
      exact congrArg (fun c => (tables.field.udf u).matches
        (parserOut port c (BitVec.ofNat 16 f.bytes.length)).window
        (parserOut port c (BitVec.ofNat 16 f.bytes.length)).base) hcapture
    intro old old'
    obtain ⟨hist, ins, hsees, hbit⟩ := hleft old
    obtain ⟨hist', ins', hsees', hbit'⟩ := hleft old'
    rw [← hbit, ← hbit']
    exact h hist hist' ins ins' hsees hsees'
  · intro h hist hist' ins ins' hsees hsees'
    rw [RxFront.udfBit_eq hs u hsees, RxFront.udfBit_eq hs u hsees']
    exact h _ _

/-- Comparator 0 looks at the bytes behind a frame of 60 bytes, comparator 1 at its first bytes
behind the Ethernet header. -/
def sampleUdfTables : CardTables 5 :=
  { CardTables.init with
    field :=
      { FieldTables.init with
        udf := fun u => { offset := if u = 0 then 46 else 0, mask := 0xFFFFFFFF
                          value := 0xDEADBEEF } } }

/-- Comparator 1 sees the frame alone. -/
theorem udf_match_own_sample :
    ∃ ins ins', SeesFrame sampleShortFrame.bytes [] ins ∧
      SeesFrame sampleShortFrame.bytes [sampleLongFrame] ins' ∧
      udfBit sampleUdfTables 3 1 (sampleRxPath 2 1).1 ins =
        udfBit sampleUdfTables 3 1 (sampleRxPath 2 1).1 ins' := by
  have hs := (reset_sampleRxPath 2 1).front
  obtain ⟨ins, h⟩ := exists_seesFrame [] sampleShortFrame
  obtain ⟨ins', h'⟩ := exists_seesFrame [sampleLongFrame] sampleShortFrame
  have hown : (sampleUdfTables.field.udf 1).OwnMatch ⟨3, sampleShortFrame.bytes⟩ := by
    decide +kernel
  refine ⟨ins, ins', h, h', ?_⟩
  exact (udf_match_own_iff sampleUdfTables 3 1 hs sampleShortFrame).mpr hown _ _ ins ins' h h'

/-- **A frame matches on bytes of the one before it.**  Alone the frame of 60 bytes does not
match `DE AD BE EF` behind its end; after one of 64 bytes that ends so it does. -/
theorem stale_udf_match :
    (sampleRxPath 2 1).1.Reset ∧ ∃ ins ins', SeesFrame sampleShortFrame.bytes [] ins ∧
      SeesFrame sampleShortFrame.bytes [sampleLongFrame] ins' ∧
      udfBit sampleUdfTables 3 0 (sampleRxPath 2 1).1 ins = false ∧
      udfBit sampleUdfTables 3 0 (sampleRxPath 2 1).1 ins' = true := by
  have hs := (reset_sampleRxPath 2 1).front
  obtain ⟨ins, h⟩ := exists_seesFrame [] sampleShortFrame
  obtain ⟨ins', h'⟩ := exists_seesFrame [sampleLongFrame] sampleShortFrame
  refine ⟨hs, ins, ins', h, h', ?_, ?_⟩
  · rw [RxFront.udfBit_eq hs 0 h]
    decide +kernel
  · rw [RxFront.udfBit_eq hs 0 h']
    decide +kernel

end PacketWyrm
