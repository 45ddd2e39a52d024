import PacketWyrm.TsInsert

/-!
# Frames through the stamper

The layout of a frame is known piece by piece while its headers stream past, and
the registers that the data path reads are one beat behind.  Until the last piece
is known, the positions that are worked out lie ahead of the beat, and no field to
be written has come; from then on they are those of the frame.  So what is
written depends on the frame's own bytes, and on nothing that came before it.

## Main definitions

* `TsLayout.viewAt` — the layout as far as it is known before beat `j`.
* `TsInsert.Tracks` — the registers before beat `j` of a marked frame.

## Main results

* `TsInsert.Tracks.accept` — a beat of the frame.
* `TsInsert.Tracks.outLane_eq` — what is passed on of it.
-/

namespace PacketWyrm

open Lib

/-! ## What is known of the layout -/

namespace TsLayout

/-- Without a tunnel there is one family. -/
def Proper (L : TsLayout) : Prop := L.encap = 0#2 → L.innerV6 = L.outerV6

instance (L : TsLayout) : Decidable L.Proper := inferInstanceAs (Decidable (_ → _))

/-- The layout as far as it is known before beat `j`. -/
def viewAt (L : TsLayout) (j : ℕ) : TsLayout :=
  let outerV6 := L.outerV6 && decide ((if L.vlan then 3 else 2) ≤ j)
  let encap := if L.protoPos / 8 < j then L.encap else 0#2
  { vlan := L.vlan && decide (2 ≤ j)
    outerV6 := outerV6
    encap := encap
    innerV6 :=
      if encap = 0#2 then outerV6
      else if encap = 1#2 then L.innerV6
      else if encap = 2#2 then L.innerV6 && decide (L.grePos / 8 < j)
      else L.innerV6 && decide (L.eipPos / 8 < j)
    tcp := L.tcp && decide (L.innerProtoPos / 8 < j) }

/-- Nothing is read at a wrong position, and what is read is read in its place. -/
def ReadsAt (L : TsLayout) (j : ℕ) (pos : TsLayout → ℕ) : Prop :=
  pos (L.viewAt j) / 8 = j ∨ pos L / 8 = j → pos (L.viewAt j) = pos L

instance (L : TsLayout) (j : ℕ) (pos : TsLayout → ℕ) : Decidable (L.ReadsAt j pos) :=
  inferInstanceAs (Decidable (_ → _))

/-- While the layout is not known in full, the bytes that tell it are read in their
places, and the fields to be written lie ahead of the next beat. -/
def Transient (L : TsLayout) (j : ℕ) : Prop :=
  L.Proper → 1 ≤ j → j ≤ L.innerProtoPos / 8 →
    L.ReadsAt j protoPos ∧ L.ReadsAt j grePos ∧ L.ReadsAt j eipPos ∧
    (L.protoPos / 8 < j → L.ReadsAt j innerProtoPos) ∧
    (L.protoPos / 8 = j → (L.viewAt j).innerProtoPos = L.protoPos) ∧
    j + 1 < (L.viewAt j).csumOff / 8 ∧ j + 1 < (L.viewAt j).tsOff / 8

instance (L : TsLayout) (j : ℕ) : Decidable (L.Transient j) :=
  inferInstanceAs (Decidable (_ → _))

theorem transient_all : ∀ (vlan outerV6 : Bool) (encap : BitVec 2) (innerV6 tcp : Bool),
    ∀ j : Fin 11, Transient ⟨vlan, outerV6, encap, innerV6, tcp⟩ j := by
  decide +kernel

/-- The order of the positions: the families, the protocols, then the fields. -/
def Ordered (L : TsLayout) : Prop :=
  (L.Proper → 20 ≤ L.protoPos ∧ L.protoPos ≤ L.innerProtoPos ∧
      (L.innerProtoPos / 8 = L.protoPos / 8 → L.innerProtoPos = L.protoPos)) ∧
    (L.encap = 2#2 → L.grePos / 8 < L.innerProtoPos / 8) ∧
    (L.encap ≠ 0#2 → L.encap ≠ 1#2 → L.encap ≠ 2#2 → L.eipPos / 8 < L.innerProtoPos / 8) ∧
    L.innerProtoPos / 8 < 11 ∧ L.innerProtoPos / 8 + 2 ≤ L.csumOff / 8 ∧
    L.innerProtoPos / 8 + 2 ≤ L.magicOff / 8 ∧ L.csumOff % 2 = 0

instance (L : TsLayout) : Decidable L.Ordered := inferInstanceAs (Decidable (_ ∧ _))

theorem ordered_all : ∀ (vlan outerV6 : Bool) (encap : BitVec 2) (innerV6 tcp : Bool),
    Ordered ⟨vlan, outerV6, encap, innerV6, tcp⟩ := by
  decide +kernel

theorem ordered (L : TsLayout) : L.Ordered := ordered_all L.vlan L.outerV6 L.encap L.innerV6 L.tcp

variable {L : TsLayout} {j : ℕ}

theorem csumOff_ge (L : TsLayout) : 40 ≤ L.csumOff := by
  rw [csumOff, innerUdp, o3]
  split_ifs <;> omega

theorem tsOff_ge (L : TsLayout) : 62 ≤ L.tsOff := by
  rw [tsOff, innerUdp, o3, l4Hl]
  split_ifs <;> omega

/-- Once the inner protocol is known, all is. -/
theorem viewAt_of_lt (h : L.Proper) (hj : L.innerProtoPos / 8 < j) : L.viewAt j = L := by
  obtain ⟨hproto, hgre, heip, -, -, -, -⟩ := L.ordered
  obtain ⟨h20, hle, -⟩ := hproto h
  have hprotoj : L.protoPos / 8 < j := by omega
  have h3 : (if L.vlan = true then 3 else 2) ≤ j := by
    split <;> omega
  have h2 : 2 ≤ j := by omega
  rw [viewAt, TsLayout.ext_iff]
  simp only [hprotoj, h3, h2, hj, if_true, decide_true, Bool.and_true, true_and, and_true]
  by_cases h0 : L.encap = 0#2
  · rw [if_pos h0, h h0]
  · rw [if_neg h0]
    by_cases h1 : L.encap = 1#2
    · rw [if_pos h1]
    · rw [if_neg h1]
      by_cases h2' : L.encap = 2#2
      · have hg : L.grePos / 8 < j := (hgre h2').trans hj
        rw [if_pos h2', decide_eq_true hg, Bool.and_true]
      · have he : L.eipPos / 8 < j := (heip h0 h1 h2').trans hj
        rw [if_neg h2', decide_eq_true he, Bool.and_true]

theorem transient (L : TsLayout) (j : ℕ) : L.Transient j := by
  intro h h1 hj
  have hlt : j < 11 := Nat.lt_of_le_of_lt hj L.ordered.2.2.2.1
  exact transient_all L.vlan L.outerV6 L.encap L.innerV6 L.tcp ⟨j, hlt⟩ h h1 hj

section Reads

variable (h : L.Proper) (h1 : 1 ≤ j)

include h

/-- After the inner protocol every byte is read in its place. -/
theorem readsAt_of_early {pos : TsLayout → ℕ}
    (hearly : j ≤ L.innerProtoPos / 8 → L.ReadsAt j pos) : L.ReadsAt j pos := by
  by_cases hj : L.innerProtoPos / 8 < j
  · rw [ReadsAt, viewAt_of_lt h hj]
    exact fun _ => rfl
  · exact hearly (Nat.le_of_not_lt hj)

include h1

theorem readsAt_protoPos : L.ReadsAt j protoPos :=
  readsAt_of_early h fun hj => (L.transient j h h1 hj).1

theorem readsAt_grePos : L.ReadsAt j grePos :=
  readsAt_of_early h fun hj => (L.transient j h h1 hj).2.1

theorem readsAt_eipPos : L.ReadsAt j eipPos :=
  readsAt_of_early h fun hj => (L.transient j h h1 hj).2.2.1

theorem readsAt_innerProtoPos (hp : L.protoPos / 8 < j) : L.ReadsAt j innerProtoPos :=
  readsAt_of_early h fun hj => (L.transient j h h1 hj).2.2.2.1 hp

end Reads

end TsLayout

/-! ## What the bytes say -/

/-- The bytes of a frame say its layout. -/
structure Says (w : Window) (L : TsLayout) : Prop where
  vlan : L.vlan = (w 12 == 0x81#8 && w 13 == 0x00#8)
  outerV6 : L.outerV6 = (w (L.o3 - 2) == 0x86#8 && w (L.o3 - 1) == 0xDD#8)
  encap : L.encap = encOfProto (w L.protoPos)
  innerV6 : L.innerV6 = innerV6Of L.encap L.outerV6 (w L.protoPos) (w L.grePos) (w L.eipPos)
  tcp : L.tcp = ((if L.encap = 0#2 then w L.protoPos else w L.innerProtoPos) == 6#8)

theorem says_layoutOf (w : Window) : Says w (layoutOf w) := by
  constructor
  case vlan => rfl
  case outerV6 => rfl
  case encap => rfl
  case innerV6 => rfl
  case tcp =>
    by_cases h : (layoutOf w).encap = 0#2
    · rw [if_pos h]
      show ((if (layoutOf w).encap = 0#2 then _ else _) == 6#8) = _
      rw [if_pos h]
      rfl
    · rw [if_neg h, TsLayout.innerProtoPos, TsLayout.innerL3Start, if_neg h]
      show ((if (layoutOf w).encap = 0#2 then _ else _) == 6#8) = _
      rw [if_neg h]
      rfl

section Says

variable {w : Window} {L : TsLayout} (h : Says w L)

include h

theorem Says.proper : L.Proper := by
  intro h0
  rw [h.innerV6, innerV6Of, if_pos h0]

/-- Without a tunnel there is one protocol byte. -/
theorem Says.innerProtoPos_eq (h0 : L.encap = 0#2) : L.innerProtoPos = L.protoPos := by
  rw [TsLayout.innerProtoPos, TsLayout.innerL3Start, if_pos h0, h.proper h0, TsLayout.protoPos]

/-- A frame says one layout. -/
theorem Says.unique {M : TsLayout} (h' : Says w M) : L = M := by
  have hvlan : L.vlan = M.vlan := by rw [h.vlan, h'.vlan]
  have ho3 : L.o3 = M.o3 := by rw [TsLayout.o3, TsLayout.o3, hvlan]
  have hv6 : L.outerV6 = M.outerV6 := by rw [h.outerV6, h'.outerV6, ho3]
  have hproto : L.protoPos = M.protoPos := by
    rw [TsLayout.protoPos, TsLayout.protoPos, ho3, hv6]
  have hstart : L.encStart = M.encStart := by
    rw [TsLayout.encStart, TsLayout.encStart, ho3, hv6]
  have hencap : L.encap = M.encap := by rw [h.encap, h'.encap, hproto]
  have hinner : L.innerV6 = M.innerV6 := by
    rw [h.innerV6, h'.innerV6, hencap, hv6, hproto, TsLayout.grePos, TsLayout.grePos,
      TsLayout.eipPos, TsLayout.eipPos, hstart]
  have hpos : L.innerProtoPos = M.innerProtoPos := by
    rw [TsLayout.innerProtoPos, TsLayout.innerProtoPos, TsLayout.innerL3Start,
      TsLayout.innerL3Start, hencap, ho3, hstart, hinner]
  have htcp : L.tcp = M.tcp := by rw [h.tcp, h'.tcp, hencap, hproto, hpos]
  exact TsLayout.ext hvlan hv6 hencap hinner htcp

end Says

theorem ne_six_of_encOfProto {p : Byte} (h : encOfProto p ≠ 0#2) : (p == 6#8) = false := by
  rw [beq_eq_false_iff_ne]
  intro hp
  rw [hp] at h
  exact h rfl

/-! ## The registers during a frame -/

namespace TsInsert

variable {L : TsLayout} {w : Window} {ts : BitVec 64} {j : ℕ} {s : TsInsert}

/-- The registers that the data path reads. -/
structure Offsets (L : TsLayout) (s : TsInsert) : Prop where
  innerV6Q : s.innerV6Q = L.innerV6
  innerTcpQ : s.innerTcpQ = L.tcp
  csumBeatQ : s.csumBeatQ = L.csumOff / 8
  csumLaneQ : s.csumLaneQ = L.csumOff % 8
  magicOffQ : s.magicOffQ = L.magicOff
  tsOffQ : s.tsOffQ = L.tsOff

/-- The registers before beat `j` of a marked frame with the bytes `w` and the
layout `L`. -/
structure Tracks (L : TsLayout) (w : Window) (ts : BitVec 64) (j : ℕ) (s : TsInsert) :
    Prop where
  beat : s.beat = j
  isGen : s.isGen = true
  tsLat : s.tsLat = ts
  tsAddend : s.tsAddend = tsAddendOf ts
  vlanQ : s.vlanQ = (L.viewAt j).vlan
  outerV6Q : s.outerV6Q = (L.viewAt j).outerV6
  oProtoQ : s.oProtoQ = if L.protoPos / 8 < j then w L.protoPos else 17#8
  greHiQ : s.greHiQ = if L.grePos / 8 < j then w L.grePos else 0#8
  eipHiQ : s.eipHiQ = if L.eipPos / 8 < j then w L.eipPos else 0#8
  -- a tunnel's protocol byte stands in for the inner one until that comes
  innerL4ProtoQ : L.protoPos / 8 < j → s.innerL4ProtoQ =
    if L.innerProtoPos / 8 < j then w L.innerProtoPos
    else w L.protoPos
  offsets : 2 ≤ j → s.Offsets (L.viewAt (j - 1))
  csumBeat_ge : 5 ≤ s.csumBeatQ
  tsOff_ge : 62 ≤ s.tsOffQ
  mb : ∀ k < 4, (L.magicOff + k) / 8 < j → s.mb k = w (L.magicOff + k)
  magicOk : (L.magicOff + 3) / 8 + 1 < j → s.magicOk = hasMagic L w

/-- The inner family, as far as it is known. -/
theorem Tracks.innerV6_eq (h : s.Tracks L w ts j) (hw : Says w L) (hp : L.protoPos / 8 < j) :
    innerV6Of L.encap s.outerV6Q (w L.protoPos) s.greHiQ s.eipHiQ = (L.viewAt j).innerV6 := by
  have hinner := hw.innerV6
  simp only [TsLayout.viewAt, if_pos hp]
  rw [innerV6Of] at hinner ⊢
  by_cases h0 : L.encap = 0#2
  · rw [if_pos h0, if_pos h0]
    exact h.outerV6Q
  · rw [if_neg h0] at hinner ⊢
    rw [if_neg h0]
    by_cases h1 : L.encap = 1#2
    · rw [if_pos h1] at hinner ⊢
      rw [if_pos h1, hinner]
    · rw [if_neg h1] at hinner ⊢
      rw [if_neg h1]
      by_cases h2 : L.encap = 2#2
      · rw [if_pos h2] at hinner ⊢
        rw [if_pos h2, h.greHiQ, hinner]
        by_cases hg : L.grePos / 8 < j
        · simp [hg]
        · simp [hg]
      · rw [if_neg h2] at hinner ⊢
        rw [if_neg h2, h.eipHiQ, hinner]
        by_cases he : L.eipPos / 8 < j
        · simp [he]
        · simp [he]

/-- The inner protocol, as far as it is known. -/
theorem Tracks.tcp_eq (h : s.Tracks L w ts j) (hw : Says w L) (hp : L.protoPos / 8 < j) :
    ((if L.encap = 0#2 then w L.protoPos else s.innerL4ProtoQ) == 6#8) = (L.viewAt j).tcp := by
  have htcp := hw.tcp
  show _ = (L.tcp && decide (L.innerProtoPos / 8 < j))
  by_cases h0 : L.encap = 0#2
  · have hin : L.innerProtoPos / 8 < j := by rw [hw.innerProtoPos_eq h0]; exact hp
    rw [if_pos h0] at htcp ⊢
    rw [htcp, decide_eq_true hin, Bool.and_true]
  · rw [if_neg h0] at htcp ⊢
    rw [h.innerL4ProtoQ hp]
    by_cases hin : L.innerProtoPos / 8 < j
    · rw [if_pos hin, htcp, decide_eq_true hin, Bool.and_true]
    · rw [if_neg hin, decide_eq_false hin, Bool.and_false]
      apply ne_six_of_encOfProto
      rw [← hw.encap]
      exact h0

/-- The wires are the layout as far as it is known. -/
theorem Tracks.layout_eq (h : s.Tracks L w ts j) (hw : Says w L) : s.layout = L.viewAt j := by
  have hle := (L.ordered.1 hw.proper).2.1
  by_cases hp : L.protoPos / 8 < j
  · have hproto : s.oProtoQ = w L.protoPos := by rw [h.oProtoQ, if_pos hp]
    rw [layout, hproto, ← hw.encap, TsLayout.ext_iff]
    exact ⟨h.vlanQ, h.outerV6Q, (if_pos hp).symm, h.innerV6_eq hw hp, h.tcp_eq hw hp⟩
  · have hproto : s.oProtoQ = 17#8 := by rw [h.oProtoQ, if_neg hp]
    have hin : ¬L.innerProtoPos / 8 < j := by omega
    have h17 : encOfProto 17#8 = 0#2 := rfl
    rw [layout, hproto, h17, TsLayout.viewAt, TsLayout.ext_iff]
    simp only [if_neg hp, hin, innerV6Of, if_true, decide_false, Bool.and_false]
    exact ⟨h.vlanQ, h.outerV6Q, trivial, h.outerV6Q, rfl⟩

/-! ## A beat of a marked frame -/

/-- A capture, by the frame's bytes. -/
theorem capture_eq {b : Beat} (hbeat : s.beat = j) (hj : j < 512)
    (hb : ∀ l < 8, b.lane l = w (8 * j + l)) (pos : ℕ) (old : Byte) :
    s.capture b pos old = if pos / 8 = j then w pos else old := by
  have hbase : s.base = 8 * j := by
    rw [base, hbeat]
    omega
  rw [capture, hbase]
  by_cases hpos : pos / 8 = j
  · rw [if_pos hpos, if_pos (by omega), hb _ (by omega)]
    congr 1
    omega
  · rw [if_neg hpos, if_neg (by omega)]

/-- A byte that is read in its place is known from then on. -/
theorem known_succ {pos : TsLayout → ℕ} (h : L.ReadsAt j pos) (d : Byte) :
    (if pos (L.viewAt j) / 8 = j then w (pos (L.viewAt j))
      else if pos L / 8 < j then w (pos L) else d) =
      if pos L / 8 < j + 1 then w (pos L) else d := by
  by_cases hj : pos L / 8 = j
  · rw [h (Or.inr hj), if_pos hj, if_pos (by omega)]
  · have hview : ¬pos (L.viewAt j) / 8 = j := by
      intro hv
      rw [h (Or.inl hv)] at hv
      exact hj hv
    rw [if_neg hview]
    by_cases hlt : pos L / 8 < j
    · rw [if_pos hlt, if_pos (by omega)]
    · rw [if_neg hlt, if_neg (by omega)]

/-- The outer EtherType is known after the beat that holds it. -/
theorem Tracks.outerV6Q_accept (h : s.Tracks L w ts j) (hw : Says w L) (h1 : 1 ≤ j) {a : TsBeat}
    (hb : ∀ l < 8, a.beat.lane l = w (8 * j + l)) :
    (s.accept a).outerV6Q = (L.viewAt (j + 1)).outerV6 := by
  have hvlan := hw.vlan
  have hv6 := hw.outerV6
  have hold := h.outerV6Q
  have hq := h.vlanQ
  simp only [TsLayout.viewAt] at hold hq
  simp only [accept, h.beat, TsLayout.viewAt]
  rw [if_neg (by omega)]
  by_cases hj1 : j = 1
  · subst hj1
    rw [hb 4 (by omega), hb 5 (by omega)]
    show (if (true && !(w 12 == 0x81#8 && w 13 == 0x00#8)) = true then _ else _) = _
    rw [← hvlan]
    cases hv : L.vlan with
    | false =>
      rw [TsLayout.o3, hv] at hv6
      rw [hv6]
      simp
    | true => simp [hold, hv]
  · rw [decide_eq_false hj1, Bool.false_and, if_neg (by decide)]
    by_cases hj2 : j = 2
    · subst hj2
      cases hv : L.vlan with
      | false => simp [hq, hold, hv]
      | true =>
        rw [TsLayout.o3, hv] at hv6
        rw [hb 0 (by omega), hb 1 (by omega), hq, hv, hv6]
        simp
    · rw [decide_eq_false hj2, Bool.false_and, if_neg (by decide), hold]
      have hle : (if L.vlan = true then 3 else 2) ≤ j := by split <;> omega
      rw [decide_eq_true hle, decide_eq_true (by omega)]

/-- Once the magic number comes, the registers know where. -/
theorem Tracks.offsets_of_le (h : s.Tracks L w ts j) (hw : Says w L)
    (hj : L.innerProtoPos / 8 + 2 ≤ j) : s.Offsets L := by
  have hoff := h.offsets (by omega)
  rw [TsLayout.viewAt_of_lt hw.proper (by omega)] at hoff
  exact hoff

/-- **A beat of a marked frame.** -/
theorem Tracks.accept (h : s.Tracks L w ts j) (hw : Says w L) (h1 : 1 ≤ j) (hj : j < 512)
    {a : TsBeat} (hb : ∀ l < 8, a.beat.lane l = w (8 * j + l)) (hlast : a.beat.tlast = false) :
    (s.accept a).Tracks L w ts (j + 1) := by
  have hlayout := h.layout_eq hw
  have hcap := capture_eq h.beat hj hb
  have h0 : ¬j = 0 := by omega
  obtain ⟨hproto, -, -, -, -, hmagic, -⟩ := L.ordered
  constructor
  case beat =>
    simp only [TsInsert.accept, hlast, h.beat]
    exact Nat.mod_eq_of_lt (by omega)
  case isGen => simp [TsInsert.accept, h.beat, h0, h.isGen]
  case tsLat => simp [TsInsert.accept, h.beat, h0, h.tsLat]
  case tsAddend => simp [TsInsert.accept, h.beat, h0, h.tsAddend]
  case vlanQ =>
    have hq := h.vlanQ
    have hvlan := hw.vlan
    simp only [TsLayout.viewAt] at hq
    simp only [TsInsert.accept, h.beat, if_neg h0, TsLayout.viewAt]
    by_cases hj1 : j = 1
    · subst hj1
      rw [hb 4 (by omega), hb 5 (by omega), hvlan]
      simp
    · have h2 : 2 ≤ j := by omega
      have h2' : 2 ≤ j + 1 := by omega
      rw [if_neg hj1, hq, decide_eq_true h2, decide_eq_true h2']
  case outerV6Q => exact h.outerV6Q_accept hw h1 hb
  case oProtoQ =>
    simp only [TsInsert.accept, h.beat, if_neg h0, hlayout, hcap, h.oProtoQ]
    exact known_succ (TsLayout.readsAt_protoPos hw.proper h1) 17#8
  case greHiQ =>
    simp only [TsInsert.accept, h.beat, if_neg h0, hlayout, hcap, h.greHiQ]
    exact known_succ (TsLayout.readsAt_grePos hw.proper h1) 0#8
  case eipHiQ =>
    simp only [TsInsert.accept, h.beat, if_neg h0, hlayout, hcap, h.eipHiQ]
    exact known_succ (TsLayout.readsAt_eipPos hw.proper h1) 0#8
  case innerL4ProtoQ =>
    intro hp
    simp only [TsInsert.accept, hlayout, hcap]
    by_cases hpj : L.protoPos / 8 < j
    · rw [h.innerL4ProtoQ hpj]
      exact known_succ (TsLayout.readsAt_innerProtoPos hw.proper h1 hpj) _
    · -- the beat of the outer protocol: the wires do not know of a tunnel yet
      obtain ⟨-, hle, heq⟩ := hproto hw.proper
      have hpj' : L.protoPos / 8 = j := by omega
      have hview := (L.transient j hw.proper h1 (by omega)).2.2.2.2.1 hpj'
      rw [hview, if_pos hpj']
      split
      · rw [heq (by omega)]
      · rfl
  case offsets =>
    intro _
    rw [Nat.add_sub_cancel, ← hlayout]
    exact ⟨rfl, rfl, rfl, rfl, rfl, rfl⟩
  case csumBeat_ge =>
    have hge := (s.layout).csumOff_ge
    show 5 ≤ s.layout.csumOff / 8
    omega
  case tsOff_ge => exact (s.layout).tsOff_ge
  case mb =>
    intro k hk hkj
    have hoff := h.offsets_of_le hw (j := j) (by omega)
    simp only [TsInsert.accept, hcap, hoff.magicOffQ]
    split
    · rfl
    · exact h.mb k hk (by omega)
  case magicOk =>
    intro hv
    have hoff := h.offsets_of_le hw (j := j) (by omega)
    simp only [TsInsert.accept, h.beat, if_neg h0, hoff.magicOffQ]
    split
    · have hm (k : ℕ) (hk : k < 4) : s.mb k = w (L.magicOff + k) := h.mb k hk (by omega)
      rw [hm 0 (by omega), hm 1 (by omega), hm 2 (by omega), hm 3 (by omega)]
      rfl
    · exact h.magicOk (by omega)

/-- What is passed on while the fields lie ahead. -/
theorem outLane_of_ahead {b : Beat} {l : ℕ} (hl : l < 8) (hj : j < 512) (hbeat : s.beat = j)
    (hcsum : s.csumBeatQ ≠ j) (hts : 8 * j + 8 ≤ s.tsOffQ) : s.outLane b l = b.lane l := by
  have hbase : s.base = 8 * j := by
    rw [base, hbeat]
    omega
  have hno : s.csumHere = false := by
    rw [csumHere, hbeat, Bool.and_eq_false_iff]
    right
    rw [beq_eq_false_iff_ne]
    exact hcsum.symm
  have hnot : ¬(s.tsOffQ ≤ 8 * j + l ∧ 8 * j + l < s.tsOffQ + 8) := by omega
  simp only [outLane, hno, hbase, hnot, Bool.false_and, Bool.false_eq_true, if_false, decide_false,
    Bool.and_false]

/-- A byte before the fields stays as it is. -/
theorem stampByte_of_ahead {i : ℕ} (hcsum : i < L.csumOff) (hts : i < L.tsOff) :
    stampByte L ts w i = w i := by
  have h1 : (i == L.csumOff + 1) = false := by
    rw [beq_eq_false_iff_ne]
    omega
  have h2 : (i == L.csumOff) = false := by
    rw [beq_eq_false_iff_ne]
    omega
  have h3 : ¬(L.tsOff ≤ i ∧ i < L.tsOff + 8) := by omega
  simp only [stampByte, h1, h2, h3, Bool.and_false, Bool.false_eq_true, if_false, decide_false]

/-- What is passed on once the layout is known. -/
theorem Tracks.outLane_of_known (h : s.Tracks L w ts j) (hw : Says w L)
    (hj : L.innerProtoPos / 8 + 2 ≤ j) (hj' : j < 512) {b : Beat}
    (hb : ∀ l < 8, b.lane l = w (8 * j + l)) {l : ℕ} (hl : l < 8) :
    s.outLane b l = stampByte L ts w (8 * j + l) := by
  have hoff := h.offsets_of_le hw hj
  have hbase : s.base = 8 * j := by
    rw [base, h.beat]
    omega
  obtain ⟨-, -, -, -, -, -, heven⟩ := L.ordered
  have hhere : s.csumHere = ((L.innerV6 || L.tcp) && j == L.csumOff / 8) := by
    rw [csumHere, fixCsum, h.isGen, hoff.innerV6Q, hoff.innerTcpQ, h.beat, hoff.csumBeatQ,
      Bool.true_and]
  have hcnew : j = L.csumOff / 8 → s.cnew b =
      finalizeCsum (w L.csumOff ++ w (L.csumOff + 1)) (tsAddendOf ts) (!L.tcp) := by
    intro hc
    have hhi : 8 * j + L.csumOff % 8 = L.csumOff := by omega
    have hlo : 8 * j + (L.csumOff % 8 + 1) = L.csumOff + 1 := by omega
    rw [cnew, hoff.csumLaneQ, hoff.innerTcpQ, h.tsAddend, if_pos (by omega), if_pos (by omega),
      hb _ (by omega), hb _ (by omega), hhi, hlo]
  have hstamp : L.tsOff ≤ 8 * j + l → s.stampOk = (L.innerV6 || hasMagic L w) := by
    intro hts
    have hmagic : s.magicOk = hasMagic L w := by
      apply h.magicOk
      have : L.tsOff = L.magicOff + 20 := rfl
      omega
    rw [stampOk, h.isGen, hoff.innerV6Q, hmagic, Bool.true_and]
  simp only [outLane, stampByte, hhere, hbase, hoff.csumLaneQ, hoff.tsOffQ, h.tsLat]
  by_cases hc : j = L.csumOff / 8
  · have hlo : (l == L.csumOff % 8 + 1) = (8 * j + l == L.csumOff + 1) := by
      rw [Bool.eq_iff_iff, beq_iff_eq, beq_iff_eq]
      omega
    have hhi : (l == L.csumOff % 8) = (8 * j + l == L.csumOff) := by
      rw [Bool.eq_iff_iff, beq_iff_eq, beq_iff_eq]
      omega
    have hbefore : ¬(L.tsOff ≤ 8 * j + l ∧ 8 * j + l < L.tsOff + 8) ∨
        s.stampOk = (L.innerV6 || hasMagic L w) := by
      by_cases hts : L.tsOff ≤ 8 * j + l
      · exact Or.inr (hstamp hts)
      · left
        omega
    rw [hcnew hc, hlo, hhi, ← hc, beq_self_eq_true, Bool.and_true]
    obtain hnot | hok := hbefore
    · simp [hnot, hb l hl]
    · rw [hok, hb l hl]
  · have hno : (j == L.csumOff / 8) = false := beq_eq_false_iff_ne.mpr hc
    have h1 : (8 * j + l == L.csumOff + 1) = false := by
      rw [beq_eq_false_iff_ne]
      omega
    have h2 : (8 * j + l == L.csumOff) = false := by
      rw [beq_eq_false_iff_ne]
      omega
    simp only [hno, h1, h2, Bool.and_false, Bool.false_and, Bool.false_eq_true, if_false]
    by_cases hts : L.tsOff ≤ 8 * j + l
    · rw [hstamp hts, hb l hl]
    · have hnot : ¬(L.tsOff ≤ 8 * j + l ∧ 8 * j + l < L.tsOff + 8) := by omega
      simp [hnot, hb l hl]

/-- **What is passed on of a marked frame** is the stamped frame, beat by beat. -/
theorem Tracks.outLane_eq (h : s.Tracks L w ts j) (hw : Says w L) (h1 : 1 ≤ j) (hj : j < 512)
    {b : Beat} (hb : ∀ l < 8, b.lane l = w (8 * j + l)) {l : ℕ} (hl : l < 8) :
    s.outLane b l = stampByte L ts w (8 * j + l) := by
  by_cases hknown : L.innerProtoPos / 8 + 2 ≤ j
  · exact h.outLane_of_known hw hknown hj hb hl
  · obtain ⟨-, -, -, -, hcsum, hmagic, -⟩ := L.ordered
    have hts : L.tsOff = L.magicOff + 20 := rfl
    rw [stampByte_of_ahead (by omega) (by omega), ← hb l hl]
    by_cases hj1 : j = 1
    · have hc := h.csumBeat_ge
      have ht := h.tsOff_ge
      exact outLane_of_ahead hl hj h.beat (by omega) (by omega)
    · have hoff := h.offsets (by omega)
      have htr := L.transient (j - 1) hw.proper (by omega) (by omega)
      obtain ⟨-, -, -, -, -, hc, ht⟩ := htr
      apply outLane_of_ahead hl hj h.beat
      · rw [hoff.csumBeatQ]
        omega
      · rw [hoff.tsOffQ]
        omega

/-! ## Whole frames -/

/-- Between two frames: no field is at the first beat. -/
structure Between (s : TsInsert) : Prop where
  beat : s.beat = 0
  csumBeat_ge : 5 ≤ s.csumBeatQ
  tsOff_ge : 62 ≤ s.tsOffQ

theorem Reset.between (h : s.Reset) : s.Between := by
  refine ⟨h.beat, ?_, ?_⟩
  · rw [h.csumBeatQ]
    decide
  · rw [h.tsOffQ]

/-- The last beat of a frame leads out of it. -/
theorem between_accept (s : TsInsert) {a : TsBeat} (hlast : a.beat.tlast = true) :
    (s.accept a).Between := by
  have hc := (s.layout).csumOff_ge
  refine ⟨by simp [TsInsert.accept, hlast], ?_, (s.layout).tsOff_ge⟩
  show 5 ≤ s.layout.csumOff / 8
  omega

/-- The first beat of a frame passes as it is. -/
theorem Between.out_eq (h : s.Between) (b : Beat) : s.out b = b := by
  have hc := h.csumBeat_ge
  have ht := h.tsOff_ge
  have hdata : lanes (s.outLane b) = b.tdata := by
    rw [← lanes_lane b]
    apply lanes_congr
    intro l hl
    exact outLane_of_ahead hl (by decide) h.beat (by omega) (by omega)
  rw [out, hdata]

/-- The first beat of a marked frame. -/
theorem Between.tracks (h : s.Between) (L : TsLayout) (w : Window) {a : TsBeat}
    (huser : a.tuser = true) (hlast : a.beat.tlast = false) :
    (s.accept a).Tracks L w a.tsNow 1 := by
  have hbase : s.base = 0 := by
    rw [base, h.beat]
  have ho3 (M : TsLayout) : 14 ≤ M.o3 := Nat.le_add_right _ _
  have hcap {pos : ℕ} (hpos : 8 ≤ pos) (old : Byte) : s.capture a.beat pos old = old := by
    rw [capture, hbase, if_neg (by omega)]
  have hproto (M : TsLayout) : 20 ≤ M.protoPos := by
    have := ho3 M
    rw [TsLayout.protoPos]
    split <;> omega
  have henc (M : TsLayout) : 34 ≤ M.encStart := by
    have := ho3 M
    rw [TsLayout.encStart]
    split <;> omega
  have hgre (M : TsLayout) : 36 ≤ M.grePos := Nat.add_le_add_right (henc M) 2
  have heip (M : TsLayout) : 48 ≤ M.eipPos := Nat.add_le_add_right (henc M) 14
  have hts := L.tsOff_ge
  have hmagic : L.tsOff = L.magicOff + 20 := rfl
  have hp := hproto L
  have hg := hgre L
  have he := heip L
  constructor
  case beat => simp [TsInsert.accept, hlast, h.beat]
  case isGen => simp [TsInsert.accept, h.beat, huser]
  case tsLat => simp [TsInsert.accept, h.beat]
  case tsAddend => simp [TsInsert.accept, h.beat]
  case vlanQ => simp [TsInsert.accept, h.beat, TsLayout.viewAt]
  case outerV6Q =>
    simp only [TsInsert.accept, h.beat, TsLayout.viewAt, if_true]
    rw [decide_eq_false (by split <;> omega), Bool.and_false]
  case oProtoQ =>
    simp only [TsInsert.accept, h.beat, if_true]
    rw [hcap (le_trans (by decide) (hproto s.layout)), if_neg (by omega)]
  case greHiQ =>
    simp only [TsInsert.accept, h.beat, if_true]
    rw [hcap (le_trans (by decide) (hgre s.layout)), if_neg (by omega)]
  case eipHiQ =>
    simp only [TsInsert.accept, h.beat, if_true]
    rw [hcap (le_trans (by decide) (heip s.layout)), if_neg (by omega)]
  case innerL4ProtoQ =>
    intro hlt
    omega
  case offsets =>
    intro h2
    omega
  case csumBeat_ge =>
    have hc := (s.layout).csumOff_ge
    show 5 ≤ s.layout.csumOff / 8
    omega
  case tsOff_ge => exact (s.layout).tsOff_ge
  case mb =>
    intro k _ hk
    omega
  case magicOk =>
    intro hk
    omega

/-- The beats that are passed on of those that are taken. -/
def passed (s : TsInsert) (l : List TsBeat) : List Beat :=
  outputs (fun s a => some (s.out a.beat)) TsInsert.accept s l

@[simp] theorem passed_cons (s : TsInsert) (a : TsBeat) (l : List TsBeat) :
    s.passed (a :: l) = s.out a.beat :: (s.accept a).passed l := rfl

theorem passed_append (s : TsInsert) (l m : List TsBeat) :
    s.passed (l ++ m) = s.passed l ++ (run TsInsert.accept s l).passed m :=
  outputs_append _ _ _ _ _

end TsInsert

/-- The beats of one frame: the last one is marked. -/
def Framed : List TsBeat → Prop
  | [] => False
  | [a] => a.beat.tlast = true
  | a :: b :: l => a.beat.tlast = false ∧ Framed (b :: l)

namespace TsInsert

variable {L : TsLayout} {w : Window} {ts : BitVec 64} {j : ℕ} {s : TsInsert}

/-- What is passed on of a beat of a marked frame. -/
theorem Tracks.out_eq (h : s.Tracks L w ts j) (hw : Says w L) (h1 : 1 ≤ j) (hj : j < 512)
    {b : Beat} (hb : ∀ l < 8, b.lane l = w (8 * j + l)) : s.out b = stampBeat L ts w j b := by
  have hdata : lanes (s.outLane b) = lanes fun l => stampByte L ts w (8 * j + l) := by
    apply lanes_congr
    intro l hl
    exact h.outLane_eq hw h1 hj hb hl
  rw [out, stampBeat, hdata]

/-- The stamped beats from beat `j` on. -/
def stampFrom (L : TsLayout) (ts : BitVec 64) (w : Window) (j : ℕ) (l : List TsBeat) :
    List Beat :=
  (l.map TsBeat.beat).mapIdx fun k b => stampBeat L ts w (j + k) b

theorem stampFrom_cons (a : TsBeat) (l : List TsBeat) :
    stampFrom L ts w j (a :: l) = stampBeat L ts w j a.beat :: stampFrom L ts w (j + 1) l := by
  simp only [stampFrom, List.map_cons, List.mapIdx_cons, Nat.add_zero, Nat.add_comm, Nat.add_left_comm]

/-- The rest of a marked frame, from beat `j` on. -/
theorem Tracks.passed_eq (hw : Says w L) {l : List TsBeat} (hl : Framed l)
    (h : s.Tracks L w ts j) (h1 : 1 ≤ j) (hlen : j + l.length ≤ 512)
    (hb : ∀ k a, l[k]? = some a → ∀ x < 8, a.beat.lane x = w (8 * (j + k) + x)) :
    s.passed l = stampFrom L ts w j l ∧ (run TsInsert.accept s l).Between := by
  induction l generalizing s j with
  | nil => cases hl
  | cons a l ih =>
    rw [List.length_cons] at hlen
    have ha : ∀ x < 8, a.beat.lane x = w (8 * j + x) := hb 0 a rfl
    have hout := h.out_eq hw h1 (by omega) ha
    cases l with
    | nil =>
      refine ⟨?_, between_accept s hl⟩
      rw [passed_cons, hout, stampFrom_cons]
      rfl
    | cons a' l =>
      have hnext : (s.accept a).Tracks L w ts (j + 1) := h.accept hw h1 (by omega) ha hl.1
      obtain ⟨hrest, hbetween⟩ := ih hl.2 hnext (by omega) (by omega) (by
        intro k b hk
        rw [Nat.add_assoc, Nat.add_comm 1]
        exact hb (k + 1) b hk)
      refine ⟨?_, hbetween⟩
      rw [passed_cons, hout, hrest, stampFrom_cons a]

/-- **A marked frame is stamped**, whatever came before it. -/
theorem Between.passed_marked (h : s.Between) {a : TsBeat} {l : List TsBeat}
    (hl : Framed (a :: l)) (huser : a.tuser = true) (hlen : l.length < 512) :
    s.passed (a :: l) = stampBeats a.tsNow ((a :: l).map TsBeat.beat) ∧
      (run TsInsert.accept s (a :: l)).Between := by
  have hw := says_layoutOf (beatsByte ((a :: l).map TsBeat.beat))
  have hb : ∀ k b, (a :: l)[k]? = some b → ∀ x < 8,
      b.beat.lane x = beatsByte ((a :: l).map TsBeat.beat) (8 * k + x) := by
    intro k b hk x hx
    have hdiv : (8 * k + x) / 8 = k := by omega
    have hmod : (8 * k + x) % 8 = x := by omega
    rw [beatsByte, hdiv, hmod, List.getD_eq_getElem?_getD, List.getElem?_map, hk]
    rfl
  have hstamp : stampBeats a.tsNow ((a :: l).map TsBeat.beat) =
      stampFrom (layoutOf (beatsByte ((a :: l).map TsBeat.beat))) a.tsNow
        (beatsByte ((a :: l).map TsBeat.beat)) 0 (a :: l) := by
    simp only [stampBeats, stampFrom, Nat.zero_add]
  rw [hstamp]
  generalize beatsByte ((a :: l).map TsBeat.beat) = w at hw hb ⊢
  generalize layoutOf w = L at hw ⊢
  have hfirst : a.beat = stampBeat L a.tsNow w 0 a.beat := by
    have hdata : (lanes fun x => stampByte L a.tsNow w (8 * 0 + x)) = a.beat.tdata := by
      rw [← lanes_lane a.beat]
      apply lanes_congr
      intro x hx
      have hc := L.csumOff_ge
      have ht := L.tsOff_ge
      rw [stampByte_of_ahead (by omega) (by omega), hb 0 a rfl x hx]
    rw [stampBeat, hdata]
  cases l with
  | nil =>
    refine ⟨?_, between_accept s hl⟩
    rw [passed_cons, h.out_eq, stampFrom_cons, ← hfirst]
    rfl
  | cons a' l =>
    have htracks := h.tracks L w huser hl.1
    obtain ⟨hrest, hbetween⟩ := htracks.passed_eq hw hl.2 (by omega)
      (by rw [List.length_cons] at hlen ⊢; omega) (by
        intro k b hk
        rw [Nat.add_comm 1]
        exact hb (k + 1) b hk)
    refine ⟨?_, hbetween⟩
    rw [passed_cons, h.out_eq, hrest, stampFrom_cons a, ← hfirst]

/-- The rest of a frame that is not marked. -/
theorem passed_of_not_isGen {l : List TsBeat} (hl : Framed l) (hgen : s.isGen = false)
    (huser : ∀ a ∈ l, a.tuser = false) :
    s.passed l = l.map TsBeat.beat ∧ (run TsInsert.accept s l).Between := by
  induction l generalizing s with
  | nil => cases hl
  | cons a l ih =>
    have hout : s.out a.beat = a.beat := by
      have hlane : s.outLane a.beat = a.beat.lane := by
        funext x
        simp [outLane, csumHere, fixCsum, stampOk, hgen]
      rw [out, hlane, lanes_lane]
    cases l with
    | nil =>
      refine ⟨?_, between_accept s hl⟩
      rw [passed_cons, hout]
      rfl
    | cons a' l =>
      have hgen' : (s.accept a).isGen = false := by
        have hu := huser a List.mem_cons_self
        simp [TsInsert.accept, hgen, hu]
      obtain ⟨hrest, hbetween⟩ := ih hl.2 hgen' fun b hb => huser b (List.mem_cons_of_mem a hb)
      refine ⟨?_, hbetween⟩
      rw [passed_cons, hout, hrest]
      rfl

/-- **A frame that is not marked passes as it is.** -/
theorem Between.passed_other (h : s.Between) {l : List TsBeat} (hl : Framed l)
    (huser : ∀ a ∈ l, a.tuser = false) :
    s.passed l = l.map TsBeat.beat ∧ (run TsInsert.accept s l).Between := by
  cases l with
  | nil => cases hl
  | cons a l =>
    cases l with
    | nil =>
      refine ⟨?_, between_accept s hl⟩
      rw [passed_cons, h.out_eq]
      rfl
    | cons a' l =>
      have hgen : (s.accept a).isGen = false := by
        have hu := huser a List.mem_cons_self
        simp [TsInsert.accept, h.beat, hu]
      obtain ⟨hrest, hbetween⟩ := passed_of_not_isGen hl.2 hgen fun b hb =>
        huser b (List.mem_cons_of_mem a hb)
      refine ⟨?_, hbetween⟩
      rw [passed_cons, h.out_eq, hrest]
      rfl

end TsInsert

/-! ## The checksum -/

/-- A fold adds the carries back in. -/
theorem toNat_fold20 (s : BitVec 20) :
    (fold20 s).toNat = s.toNat % 65536 + s.toNat / 65536 := by
  have hlt : s.toNat < 1048576 := s.isLt
  have hlo : ((s.extractLsb' 0 16).setWidth 20).toNat = s.toNat % 65536 := by
    rw [BitVec.toNat_setWidth, BitVec.extractLsb'_toNat, Nat.shiftRight_zero]
    omega
  have hhi : ((s.extractLsb' 16 4).setWidth 20).toNat = s.toNat / 65536 := by
    rw [BitVec.toNat_setWidth, BitVec.extractLsb'_toNat, Nat.shiftRight_eq_div_pow]
    omega
  rw [fold20, BitVec.toNat_add, hlo, hhi]
  omega

/-- The four words of a time stamp, added up. -/
theorem toNat_tsAddendOf (ts : BitVec 64) :
    (tsAddendOf ts).toNat = (ts.extractLsb' 48 16).toNat + (ts.extractLsb' 32 16).toNat +
      (ts.extractLsb' 16 16).toNat + (ts.extractLsb' 0 16).toNat := by
  have hw (x : BitVec 16) : (x.setWidth 19).toNat = x.toNat := by
    rw [BitVec.toNat_setWidth]
    omega
  rw [tsAddendOf, BitVec.toNat_add, BitVec.toNat_add, BitVec.toNat_add, hw, hw, hw, hw]
  omega

/-- **The final checksum** makes the sum of the partial sum and the words of the time
stamp a multiple of 65535, and over UDP it is never zero. -/
theorem finalizeCsum_spec (c0 : BitVec 16) {addend : BitVec 19} (ha : addend.toNat ≤ 4 * 65535)
    (udp : Bool) :
    ((finalizeCsum c0 addend udp).toNat + (~~~c0).toNat + addend.toNat) % 65535 = 0 ∧
      (udp = true → finalizeCsum c0 addend udp ≠ 0) := by
  have hsum : ((~~~c0).setWidth 20 + addend.setWidth 20).toNat = (~~~c0).toNat + addend.toNat := by
    rw [BitVec.toNat_add, BitVec.toNat_setWidth, BitVec.toNat_setWidth]
    omega
  have hc : (~~~c0).toNat < 65536 := (~~~c0).isLt
  rw [finalizeCsum]
  generalize (~~~c0).setWidth 20 + addend.setWidth 20 = s at hsum ⊢
  generalize (~~~c0).toNat = c at hsum hc ⊢
  have hf : (~~~(fold20 (fold20 s)).extractLsb' 0 16).toNat =
      65535 - (s.toNat % 65536 + s.toNat / 65536) % 65536 -
        (s.toNat % 65536 + s.toNat / 65536) / 65536 := by
    rw [BitVec.toNat_not, BitVec.extractLsb'_toNat, Nat.shiftRight_zero, toNat_fold20,
      toNat_fold20]
    omega
  generalize ~~~(fold20 (fold20 s)).extractLsb' 0 16 = f at hf ⊢
  by_cases hz : udp = true ∧ f = 0
  · have h0 : f.toNat = 0 := by rw [hz.2]; rfl
    have hout : (if (udp && f == 0) = true then (0xFFFF : BitVec 16) else f) = 0xFFFF := by
      rw [hz.1, hz.2]
      rfl
    simp only [hout]
    refine ⟨?_, fun _ => by decide⟩
    show (65535 + c + addend.toNat) % 65535 = 0
    omega
  · have hout : (if (udp && f == 0) = true then (0xFFFF : BitVec 16) else f) = f := by
      rw [if_neg]
      simpa using hz
    simp only [hout]
    refine ⟨?_, fun hu h0 => hz ⟨hu, h0⟩⟩
    rw [hf]
    omega
end PacketWyrm
