import PacketWyrm.FieldClassifier

/-!
# The frame parser

`pw_parser_axis` after the last beat of a frame: the captured header window and
the frame's length go through three register stages that find the headers,
descend into a tunnel and read the fields of the key.  Each stage is a function
of the registers before it.

The window is not cleared between frames.  The parser reads a byte only under a
length check, so the key of a frame does not depend on what earlier frames left
behind; the window that it hands to the classifier does.

## Main definitions

* `stageA`, `stageA2`, `stageB` — the three stages.
* `parseFrame` — all of them: the key and the inner base, if there is a key.
* `capture` — the window after a frame.

## Main results

* `parseFrame_congr` — the key depends on the frame's own bytes only.
* `vlanId_of_untagged` — a key without a tag has VLAN 0.
-/

namespace PacketWyrm

/-- Two bytes, the first one most significant. -/
def be16 (hdr : Window) (i : ℕ) : BitVec 16 := hdr i ++ hdr (i + 1)

/-- Four bytes, the first one most significant. -/
def be32 (hdr : Window) (i : ℕ) : BitVec 32 := be16 hdr i ++ be16 hdr (i + 2)

/-- Eight bytes, the first one most significant. -/
def be64 (hdr : Window) (i : ℕ) : BitVec 64 := be32 hdr i ++ be32 hdr (i + 4)

/-- Sixteen bytes, the first one most significant. -/
def be128 (hdr : Window) (i : ℕ) : BitVec 128 := be64 hdr i ++ be64 hdr (i + 8)

/-! ## Stage A: framing and tunnel descent -/

/-- The VLAN id of a tag. -/
def tagVid (hdr : Window) (i : ℕ) : BitVec 12 := (hdr i).setWidth 4 ++ hdr (i + 1)

/-- The L2 fields of the key, and where the outer L3 header starts. -/
def parseL2 (ingress : BitVec 4) (hdr : Window) (flen : ℕ) : PwMatchKey × ℕ :=
  let etype0 := be16 hdr 12
  if (etype0 = 0x88A8 ∨ etype0 = 0x9100) ∧ 22 ≤ flen ∧ be16 hdr 16 = 0x8100 then
    ({ ingressPort := ingress, vlanValid := true, vlanId := tagVid hdr 14
       innerVlanValid := true, innerVlanId := tagVid hdr 18, ethertype := be16 hdr 20 }, 22)
  else if etype0 = 0x8100 ∧ 18 ≤ flen then
    ({ ingressPort := ingress, vlanValid := true, vlanId := tagVid hdr 14
       ethertype := be16 hdr 16 }, 18)
  else ({ ingressPort := ingress, ethertype := etype0 }, 14)

/-- `enc`: the tunnels the parser descends into. -/
inductive Encap where
  | none
  | ipip
  | gre
  | etherip
  deriving DecidableEq, Repr

/-- The tunnel an outer protocol number announces. -/
def Encap.ofProto (proto : Byte) : Encap :=
  if proto = 4 ∨ proto = 41 then .ipip
  else if proto = 47 then .gre
  else if proto = 97 then .etherip
  else .none

/-- `enc_hlen`. -/
def Encap.hlen : Encap → ℕ
  | .gre => 4
  | .etherip => 16
  | _ => 0

/-- `o_proto` and `o_hlen` of an outer header that is all in the frame. -/
def outerProto (hdr : Window) (flen l3Off : ℕ) (outerV4 outerV6 : Bool) : Byte × ℕ :=
  if outerV6 = true ∧ l3Off + 40 ≤ flen then (hdr (l3Off + 6), 40)
  else if outerV4 = true ∧ l3Off + 20 ≤ flen then
    (hdr (l3Off + 9), ((hdr l3Off).setWidth 4).toNat * 4)
  else (0, 20)

/-- Where the effective L3 header starts, and its family. -/
structure Descent where
  effOff : ℕ
  innerV4 : Bool
  innerV6 : Bool
  deriving DecidableEq, Repr

/-- `gre_flagged`: the header at `t` carries optional fields or a version. -/
def greFlagged (hdr : Window) (t : ℕ) : Bool :=
  (hdr t).extractLsb' 4 4 != 0 || (hdr (t + 1)).setWidth 3 != 0

/-- The tunnel descent.  Without a whole, plain tunnel header in the frame the
outer header stays the effective one. -/
def descend (hdr : Window) (flen l3Off : ℕ) (ethertype : BitVec 16) : Descent :=
  let outerV4 := ethertype == 0x0800
  let outerV6 := ethertype == 0x86DD
  let (oProto, oHlen) := outerProto hdr flen l3Off outerV4 outerV6
  let enc := Encap.ofProto oProto
  let t := l3Off + oHlen
  if enc ≠ .none ∧ (outerV4 = true ∨ outerV6 = true) ∧ 20 ≤ oHlen ∧ t + enc.hlen ≤ flen ∧
      ¬(enc = .gre ∧ greFlagged hdr t = true) then
    match enc with
    | .ipip => { effOff := t + enc.hlen, innerV4 := oProto == 4, innerV6 := oProto == 41 }
    | .gre =>
      { effOff := t + enc.hlen, innerV4 := be16 hdr (t + 2) == 0x0800
        innerV6 := be16 hdr (t + 2) == 0x86DD }
    | _ =>
      { effOff := t + enc.hlen, innerV4 := be16 hdr (t + 14) == 0x0800
        innerV6 := be16 hdr (t + 14) == 0x86DD }
  else { effOff := l3Off, innerV4 := outerV4, innerV6 := outerV6 }

/-- The registers of stage A. -/
structure StageA where
  key : PwMatchKey := {}
  valid : Bool := false
  effOff : BitVec 16 := 0
  innerV4 : Bool := false
  innerV6 : Bool := false
  flen : BitVec 16 := 0
  hdr : Window := fun _ => 0

/-- Stage A, from the captured window and the registers of the last beat. -/
def stageA (eof : Bool) (ingress : BitVec 4) (hdr : Window) (flen : BitVec 16) : StageA :=
  if eof = true ∧ 14 ≤ flen.toNat then
    let (k, l3Off) := parseL2 ingress hdr flen.toNat
    let d := descend hdr flen.toNat l3Off k.ethertype
    { key := { k with isArp := k.ethertype == 0x0806, isIpv4 := d.innerV4, isIpv6 := d.innerV6 }
      valid := true, effOff := BitVec.ofNat 16 d.effOff, innerV4 := d.innerV4
      innerV6 := d.innerV6, flen, hdr }
  else { effOff := 14, flen, hdr }

/-! ## Stage A2: the effective L3 and L4 headers -/

/-- The registers of stage A2. -/
structure StageA2 where
  key : PwMatchKey := {}
  valid : Bool := false
  testElig : Bool := false
  payOff : BitVec 16 := 0
  effOff : BitVec 16 := 0
  flen : BitVec 16 := 0
  hdr : Window := fun _ => 0

/-- A key with the given ports; the legacy names hold them too. -/
def PwMatchKey.withPorts (k : PwMatchKey) (src dst : BitVec 16) : PwMatchKey :=
  { k with l4Src := src, l4Dst := dst, udpSrc := src, udpDst := dst }

/-- The L4 ports, when they are in the frame. -/
def parsePorts (k : PwMatchKey) (hdr : Window) (flen l4Off : ℕ) : PwMatchKey :=
  if (k.isUdp = true ∨ k.isTcp = true) ∧ l4Off + 4 ≤ flen then
    k.withPorts (be16 hdr l4Off) (be16 hdr (l4Off + 2))
  else k

/-- Where the payload starts, and whether a test header fits there. -/
def parsePayload (k : PwMatchKey) (flen l4Off : ℕ) : ℕ × Bool :=
  let payOff := l4Off + (if k.isTcp then 20 else 8)
  if (k.isUdp = true ∨ k.isTcp = true) ∧ payOff ≤ flen then
    (payOff, decide (payOff + 32 ≤ flen ∧ payOff + 32 ≤ hdrBytes))
  else (0, false)

/-- An IPv6 header at `eff`. -/
def parseV6 (k : PwMatchKey) (hdr : Window) (flen eff : ℕ) : PwMatchKey × ℕ × Bool :=
  let proto := hdr (eff + 6)
  let k :=
    { k with
      l3Proto := proto, ipv6Src := be128 hdr (eff + 8), ipv6Dst := be128 hdr (eff + 24)
      isTcp := proto == 6, isUdp := proto == 17, isIcmp6 := proto == 58 }
  (parsePorts k hdr flen (eff + 40), parsePayload k flen (eff + 40))

/-- An IPv4 header at `eff`; a header length below 20 hides what follows. -/
def parseV4 (k : PwMatchKey) (hdr : Window) (flen eff : ℕ) : PwMatchKey × ℕ × Bool :=
  let ipHlen := ((hdr eff).setWidth 4).toNat * 4
  let proto := hdr (eff + 9)
  let k :=
    { k with
      l3Proto := proto, ipv4Src := be32 hdr (eff + 12), ipv4Dst := be32 hdr (eff + 16)
      isIcmp := proto == 1, isTcp := proto == 6, isUdp := proto == 17, isOspf := proto == 89 }
  if 20 ≤ ipHlen then (parsePorts k hdr flen (eff + ipHlen), parsePayload k flen (eff + ipHlen))
  else (k, 0, false)

/-- Stage A2.  A frame that stage A let through has no key only when its
EtherType is 0 and no IP header was found. -/
def stageA2 (a : StageA) : StageA2 :=
  let eff := a.effOff.toNat
  let flen := a.flen.toNat
  let done (k : PwMatchKey) (ok : Bool) (pay : ℕ × Bool) : StageA2 :=
    { key := { k with valid := ok }, valid := ok, testElig := pay.2
      payOff := BitVec.ofNat 16 pay.1, effOff := a.effOff, flen := a.flen, hdr := a.hdr }
  if a.valid then
    if a.innerV6 = true ∧ eff + 40 ≤ flen then
      let (k, pay) := parseV6 a.key a.hdr flen eff
      done k true pay
    else if a.innerV4 = true ∧ eff + 20 ≤ flen then
      let (k, pay) := parseV4 a.key a.hdr flen eff
      done k true pay
    else done a.key (a.key.ethertype != 0) (0, false)
  else done a.key false (0, false)

/-! ## Stage B: the test header -/

/-- `PW_TEST_HDR_MAGIC`. -/
def testHdrMagic : BitVec 32 := 0xA5027E57

/-- The registered outputs of the parser. -/
structure ParserOut where
  key : PwMatchKey := {}
  keyValid : Bool := false
  window : Window := fun _ => 0
  base : BitVec 16 := 0
  frameLen : BitVec 16 := 0

/-- The test header's fields, where a test header can be. -/
def parseTest (k : PwMatchKey) (hdr : Window) (po : ℕ) : PwMatchKey :=
  { k with
    testMagic := be32 hdr po, testFlowId := be32 hdr (po + 8)
    testSequence := be64 hdr (po + 12), testTxTimestamp := be64 hdr (po + 20)
    isTest := be32 hdr po == testHdrMagic }

/-- Stage B. -/
def stageB (a : StageA2) : ParserOut :=
  { key := if a.testElig then parseTest a.key a.hdr a.payOff.toNat else a.key
    keyValid := a.valid, window := a.hdr, base := a.effOff, frameLen := a.flen }

/-! ## The parser on one frame -/

/-- What the parser presents after the last beat of a frame. -/
def parserOut (ingress : BitVec 4) (hdr : Window) (flen : BitVec 16) : ParserOut :=
  stageB (stageA2 (stageA true ingress hdr flen))

/-- A frame as received on a port. -/
structure RxFrame where
  port : BitVec 4
  bytes : List Byte

/-- The window after a frame: its bytes over those of the frames before.  The
byte counter has 16 bits, so a frame that is longer writes over its own start. -/
def capture (old : Window) (bytes : List Byte) : Window := fun b =>
  if b < hdrBytes then bytes[b + 2 ^ 16 * ((bytes.length - 1 - b) / 2 ^ 16)]?.getD (old b)
  else 0

/-- The parser's outputs for a frame, after frames that left `old` behind. -/
def parseFrame (old : Window) (f : RxFrame) : ParserOut :=
  parserOut f.port (capture old f.bytes) (BitVec.ofNat 16 f.bytes.length)

/-! ## Reads stay inside the frame -/

section Congr

variable {hdr hdr' : Window} {flen : ℕ}

/-- Two windows that agree on the bytes of the frame. -/
def SameBytes (flen : ℕ) (hdr hdr' : Window) : Prop := ∀ i < flen, hdr i = hdr' i

theorem SameBytes.be16 (h : SameBytes flen hdr hdr') {i : ℕ} (hi : i + 2 ≤ flen) :
    be16 hdr i = be16 hdr' i := by
  rw [PacketWyrm.be16, PacketWyrm.be16, h i (by omega), h (i + 1) (by omega)]

theorem SameBytes.be32 (h : SameBytes flen hdr hdr') {i : ℕ} (hi : i + 4 ≤ flen) :
    be32 hdr i = be32 hdr' i := by
  rw [PacketWyrm.be32, PacketWyrm.be32, h.be16 (by omega), h.be16 (by omega)]

theorem SameBytes.be64 (h : SameBytes flen hdr hdr') {i : ℕ} (hi : i + 8 ≤ flen) :
    be64 hdr i = be64 hdr' i := by
  rw [PacketWyrm.be64, PacketWyrm.be64, h.be32 (by omega), h.be32 (by omega)]

theorem SameBytes.be128 (h : SameBytes flen hdr hdr') {i : ℕ} (hi : i + 16 ≤ flen) :
    be128 hdr i = be128 hdr' i := by
  rw [PacketWyrm.be128, PacketWyrm.be128, h.be64 (by omega), h.be64 (by omega)]

theorem SameBytes.tagVid (h : SameBytes flen hdr hdr') {i : ℕ} (hi : i + 2 ≤ flen) :
    tagVid hdr i = tagVid hdr' i := by
  rw [PacketWyrm.tagVid, PacketWyrm.tagVid, h i (by omega), h (i + 1) (by omega)]

theorem parseL2_congr (h : SameBytes flen hdr hdr') (hlen : 14 ≤ flen) (ingress : BitVec 4) :
    parseL2 ingress hdr flen = parseL2 ingress hdr' flen := by
  have h12 := h.be16 (i := 12) (by omega)
  by_cases h18 : 18 ≤ flen
  · have h16 := h.be16 (i := 16) (by omega)
    have hvid := h.tagVid (i := 14) (by omega)
    by_cases h22 : 22 ≤ flen
    · have h20 := h.be16 (i := 20) (by omega)
      have hvid' := h.tagVid (i := 18) (by omega)
      simp only [parseL2, h12, h16, h20, hvid, hvid']
    · simp only [parseL2, h12, h16, hvid, h22, false_and, and_false, if_false]
  · have h22 : ¬22 ≤ flen := by omega
    simp only [parseL2, h12, h18, h22, false_and, and_false, if_false]

theorem outerProto_congr (h : SameBytes flen hdr hdr') (l3Off : ℕ) (outerV4 outerV6 : Bool) :
    outerProto hdr flen l3Off outerV4 outerV6 = outerProto hdr' flen l3Off outerV4 outerV6 := by
  simp only [outerProto]
  split
  · rename_i hc
    rw [h (l3Off + 6) (by omega)]
  · split
    · rename_i hc
      rw [h (l3Off + 9) (by omega), h l3Off (by omega)]
    · rfl

theorem greFlagged_congr (h : SameBytes flen hdr hdr') {t : ℕ} (ht : t + 2 ≤ flen) :
    greFlagged hdr t = greFlagged hdr' t := by
  rw [greFlagged, greFlagged, h t (by omega), h (t + 1) (by omega)]

theorem descend_congr (h : SameBytes flen hdr hdr') (l3Off : ℕ) (ethertype : BitVec 16) :
    descend hdr flen l3Off ethertype = descend hdr' flen l3Off ethertype := by
  simp only [descend, outerProto_congr h]
  generalize outerProto hdr' flen l3Off _ _ = o
  obtain ⟨oProto, oHlen⟩ := o
  by_cases hlen : l3Off + oHlen + (Encap.ofProto oProto).hlen ≤ flen
  · cases henc : Encap.ofProto oProto with
    | none => simp
    | ipip => simp
    | gre =>
      have hlen' : l3Off + oHlen + 4 ≤ flen := by simpa [henc, Encap.hlen] using hlen
      simp only [greFlagged_congr h (t := l3Off + oHlen) (by omega),
        h.be16 (i := l3Off + oHlen + 2) (by omega)]
    | etherip =>
      have hlen' : l3Off + oHlen + 16 ≤ flen := by simpa [henc, Encap.hlen] using hlen
      simp [h.be16 (i := l3Off + oHlen + 14) (by omega)]
  · simp only [hlen, false_and, and_false, if_false]

theorem stageA_congr {flen : BitVec 16} (h : SameBytes flen.toNat hdr hdr') (eof : Bool)
    (ingress : BitVec 4) :
    stageA eof ingress hdr flen = { stageA eof ingress hdr' flen with hdr } := by
  rw [stageA, stageA]
  by_cases hlen : eof = true ∧ 14 ≤ flen.toNat
  · simp only [hlen, and_self, if_true, parseL2_congr h hlen.2, descend_congr h]
  · simp only [hlen, if_false]

theorem parsePorts_congr (h : SameBytes flen hdr hdr') (k : PwMatchKey) (l4Off : ℕ) :
    parsePorts k hdr flen l4Off = parsePorts k hdr' flen l4Off := by
  rw [parsePorts, parsePorts]
  split
  · rw [h.be16 (by omega), h.be16 (by omega)]
  · rfl

theorem parseV6_congr (h : SameBytes flen hdr hdr') (k : PwMatchKey) {eff : ℕ}
    (hlen : eff + 40 ≤ flen) : parseV6 k hdr flen eff = parseV6 k hdr' flen eff := by
  simp only [parseV6, parsePorts_congr h, h (eff + 6) (by omega),
    h.be128 (i := eff + 8) (by omega), h.be128 (i := eff + 24) (by omega)]

theorem parseV4_congr (h : SameBytes flen hdr hdr') (k : PwMatchKey) {eff : ℕ}
    (hlen : eff + 20 ≤ flen) : parseV4 k hdr flen eff = parseV4 k hdr' flen eff := by
  simp only [parseV4, parsePorts_congr h, h eff (by omega), h (eff + 9) (by omega),
    h.be32 (i := eff + 12) (by omega), h.be32 (i := eff + 16) (by omega)]

theorem stageA2_congr {a : StageA} (h : SameBytes a.flen.toNat hdr a.hdr) :
    stageA2 { a with hdr } = { stageA2 a with hdr } := by
  simp only [stageA2]
  by_cases hv : a.valid = true
  · by_cases h6 : a.innerV6 = true ∧ a.effOff.toNat + 40 ≤ a.flen.toNat
    · simp only [hv, h6, and_self, if_true, parseV6_congr h a.key h6.2]
    · by_cases h4 : a.innerV4 = true ∧ a.effOff.toNat + 20 ≤ a.flen.toNat
      · simp only [hv, h6, h4, and_self, if_true, if_false, parseV4_congr h a.key h4.2]
      · simp only [hv, h6, h4, if_true, if_false]
  · simp only [hv, Bool.false_eq_true, if_false]

/-- A test header that is read lies inside the frame. -/
theorem parsePayload_le {k : PwMatchKey} {l4Off : ℕ} (h : (parsePayload k flen l4Off).2 = true) :
    (parsePayload k flen l4Off).1 + 32 ≤ flen := by
  revert h
  simp only [parsePayload]
  generalize l4Off + (if k.isTcp = true then 20 else 8) = po
  split
  · intro h
    exact (of_decide_eq_true h).1
  · simp

theorem payOff_le_of_testElig {a : StageA} (h : (stageA2 a).testElig = true) :
    (stageA2 a).payOff.toNat + 32 ≤ a.flen.toNat := by
  have hlt := a.flen.isLt
  -- The offset is below the length, so its register holds it.
  have key : ∀ {pay : ℕ}, pay + 32 ≤ a.flen.toNat →
      (BitVec.ofNat 16 pay).toNat + 32 ≤ a.flen.toNat := by
    intro pay hpay
    rw [BitVec.toNat_ofNat, Nat.mod_eq_of_lt (by omega)]
    exact hpay
  revert h
  simp only [stageA2]
  split
  · split
    · exact fun h => key (parsePayload_le h)
    · split
      · simp only [parseV4]
        split
        · exact fun h => key (parsePayload_le h)
        · simp
      · simp
  · simp

theorem parseTest_congr (h : SameBytes flen hdr hdr') (k : PwMatchKey) {po : ℕ}
    (hlen : po + 32 ≤ flen) : parseTest k hdr po = parseTest k hdr' po := by
  rw [parseTest, parseTest, h.be32 (by omega), h.be32 (by omega), h.be64 (by omega),
    h.be64 (by omega)]

@[simp] theorem hdr_stageA2 (a : StageA) : (stageA2 a).hdr = a.hdr := by
  simp only [stageA2]
  split <;> (try split) <;> (try split) <;> rfl

@[simp] theorem flen_stageA (eof : Bool) (ingress : BitVec 4) (hdr : Window)
    (flen : BitVec 16) : (stageA eof ingress hdr flen).flen = flen := by
  rw [stageA]
  split <;> rfl

/-- **The key and the inner base depend on the frame's bytes only**; the window
is handed on as it is. -/
theorem parserOut_congr {flen : BitVec 16} (h : SameBytes flen.toNat hdr hdr')
    (ingress : BitVec 4) :
    parserOut ingress hdr flen = { parserOut ingress hdr' flen with window := hdr } := by
  rw [parserOut, parserOut, stageA_congr h]
  set a := stageA true ingress hdr' flen with ha
  have hlen : a.flen = flen := flen_stageA true ingress hdr' flen
  have hhdr : a.hdr = hdr' := by
    rw [ha, stageA]
    split <;> rfl
  have hsame : SameBytes a.flen.toNat hdr a.hdr := by
    rw [hlen, hhdr]
    exact h
  have hhdr2 : (stageA2 a).hdr = a.hdr := hdr_stageA2 a
  rw [stageA2_congr hsame, stageB, stageB]
  by_cases ht : (stageA2 a).testElig = true
  · simp only [ht, if_true, hhdr2, parseTest_congr hsame _ (payOff_le_of_testElig ht)]
  · simp only [ht, Bool.false_eq_true, if_false]

/-- The frame overwrites every byte of the window that its length counts. -/
theorem capture_sameBytes (old old' : Window) (bytes : List Byte) :
    SameBytes (bytes.length % 2 ^ 16) (capture old bytes) (capture old' bytes) := by
  intro b hb
  rw [capture, capture]
  split
  · have hle : bytes.length % 2 ^ 16 ≤ bytes.length := Nat.mod_le _ _
    have hidx : b + 2 ^ 16 * ((bytes.length - 1 - b) / 2 ^ 16) < bytes.length := by
      have := Nat.mul_div_le (bytes.length - 1 - b) (2 ^ 16)
      omega
    rw [List.getElem?_eq_getElem hidx]
    rfl
  · rfl

/-- **The key of a frame does not depend on the frames before it.** -/
theorem parseFrame_congr (old old' : Window) (f : RxFrame) :
    parseFrame old f = { parseFrame old' f with window := capture old f.bytes } := by
  refine parserOut_congr ?_ f.port
  rw [BitVec.toNat_ofNat]
  exact capture_sameBytes old old' f.bytes

end Congr

/-! ## The L2 fields of a key -/

/-- The fields that stage A settles. -/
def PwMatchKey.l2 (k : PwMatchKey) : BitVec 4 × BitVec 16 × Bool × BitVec 12 :=
  (k.ingressPort, k.ethertype, k.vlanValid, k.vlanId)

theorem l2_parsePorts (k : PwMatchKey) (hdr : Window) (flen l4Off : ℕ) :
    (parsePorts k hdr flen l4Off).l2 = k.l2 := by
  rw [parsePorts]
  split <;> rfl

theorem l2_stageA2 (a : StageA) : (stageA2 a).key.l2 = a.key.l2 := by
  simp only [stageA2]
  split
  · split
    · exact l2_parsePorts _ _ _ _
    · split
      · simp only [parseV4]
        split
        · exact l2_parsePorts _ _ _ _
        · rfl
      · rfl
  · rfl

theorem l2_stageB (a : StageA2) : (stageB a).key.l2 = a.key.l2 := by
  rw [stageB]
  cases a.testElig <;> rfl

/-- The later stages keep the L2 fields. -/
theorem l2_parserOut (ingress : BitVec 4) (hdr : Window) (flen : BitVec 16) :
    (parserOut ingress hdr flen).key.l2 = (stageA true ingress hdr flen).key.l2 := by
  rw [parserOut, l2_stageB, l2_stageA2]

theorem valid_of_keyValid {a : StageA} (h : (stageA2 a).valid = true) : a.valid = true := by
  revert h
  simp only [stageA2]
  split
  · exact fun _ => ‹_›
  · simp

/-- A key comes from a frame with a whole Ethernet header. -/
theorem le_of_keyValid {ingress : BitVec 4} {hdr : Window} {flen : BitVec 16}
    (h : (parserOut ingress hdr flen).keyValid = true) : 14 ≤ flen.toNat := by
  have hv : (stageA true ingress hdr flen).valid = true := valid_of_keyValid h
  by_contra hlen
  simp [stageA, hlen] at hv

/-- The key carries the port the frame came in on. -/
theorem ingressPort_of_keyValid {ingress : BitVec 4} {hdr : Window} {flen : BitVec 16}
    (h : (parserOut ingress hdr flen).keyValid = true) :
    (parserOut ingress hdr flen).key.ingressPort = ingress := by
  have hl2 := congrArg Prod.fst (l2_parserOut ingress hdr flen)
  refine hl2.trans ?_
  simp only [stageA, le_of_keyValid h, and_self, if_true, parseL2, PwMatchKey.l2]
  split
  · rfl
  · split <;> rfl

/-- **A key without a tag has VLAN 0.** -/
theorem vlanId_of_untagged {ingress : BitVec 4} {hdr : Window} {flen : BitVec 16}
    (h : (parserOut ingress hdr flen).key.vlanValid = false) :
    (parserOut ingress hdr flen).key.vlanId = 0 := by
  have hl2 := congrArg (fun x => x.2.2) (l2_parserOut ingress hdr flen)
  have hvalid := congrArg Prod.fst hl2
  have hid := congrArg Prod.snd hl2
  rw [show (parserOut ingress hdr flen).key.vlanId = _ from hid]
  revert h
  rw [show (parserOut ingress hdr flen).key.vlanValid = _ from hvalid]
  simp only [stageA]
  split
  · simp only [parseL2, PwMatchKey.l2]
    split
    · simp
    · split
      · simp
      · exact fun _ => rfl
  · exact fun _ => rfl

end PacketWyrm
