import PacketWyrm.Validate
import PacketWyrm.FlowRow
import PacketWyrm.MatchKey
import PacketWyrm.Lib.Keyed

/-!
# The flow compiler

`flow_compiler.c`: a validated configuration becomes one program per card, its
flow rows, flow-id map, comparators and rules, and hash table.  Flows come
first, then punt rules, then forwards, then the hash table of each card.

## Main definitions

* `PwCardProgram`, `PwProgram` — what the compiler emits.
* `compileOneFlow`, `compilePuntRules`, `compileForwardRules` — the three
  passes that append to the cards.
* `hashPostPass` — mask, duplicate check and seed search of one card.
* `pwFlowCompile` — the whole compiler.
-/

namespace PacketWyrm

open Lib

/-! ## Programs -/

/-- `struct pw_flow_meta`. -/
structure PwFlowMeta where
  globalFlowId : BitVec 32
  txCardId : BitVec 16
  rxCardId : BitVec 16
  txLocalFlowId : BitVec 32
  rxLocalFlowId : BitVec 32
  latencyValid : Bool
  rxSlotValid : Bool
  deriving DecidableEq, Repr

/-- `struct pw_flowid_map_entry`. -/
structure PwFlowidMapEntry where
  flowId : BitVec 32
  localFlowId : BitVec 32
  deriving DecidableEq, Repr

/-- `enum pwfpga_fc_src`: the lane a field comparator reads. -/
inductive PwfpgaFcSrc where
  | l4Dst
  | l4Src
  | ipv4Dst
  | ipv4Src
  | ipv6Dst3
  | ipv6Dst2
  | ipv6Dst1
  | ipv6Dst0
  | ethertype
  | l3Proto
  | vlan
  | flowId
  | flags
  | ingress
  | ipv6Src0
  | ipv6Src3
  | ipv6Src1
  | ipv6Src2
  deriving DecidableEq, Repr

/-- The selector code. -/
def PwfpgaFcSrc.code : PwfpgaFcSrc → BitVec 8
  | .l4Dst => 0
  | .l4Src => 1
  | .ipv4Dst => 2
  | .ipv4Src => 3
  | .ipv6Dst3 => 4
  | .ipv6Dst2 => 5
  | .ipv6Dst1 => 6
  | .ipv6Dst0 => 7
  | .ethertype => 8
  | .l3Proto => 9
  | .vlan => 10
  | .flowId => 11
  | .flags => 12
  | .ingress => 13
  | .ipv6Src0 => 14
  | .ipv6Src3 => 15
  | .ipv6Src1 => 16
  | .ipv6Src2 => 17

/-- `PWFPGA_FC_FLAG_IS_IPV6`. -/
def fcFlagIsIpv6 : BitVec 32 := 8

/-- `struct pw_fc_cmp`. -/
structure PwFcCmp where
  src : PwfpgaFcSrc
  mask : BitVec 32
  value : BitVec 32
  deriving DecidableEq, Repr

/-- `struct pw_fc_udf`. -/
structure PwFcUdf where
  offset : BitVec 16
  mask : BitVec 32
  value : BitVec 32
  deriving DecidableEq, Repr

/-- `struct pw_fc_rule`. -/
structure PwFcRule where
  care : BitVec 16
  action : PwAction
  egress : BitVec 8
  localFlowId : BitVec 32
  logicalIfId : BitVec 32
  priority : BitVec 8
  deriving DecidableEq, Repr

/-- The eleven words of a hash key or of the key mask. -/
abbrev KeyWords := Fin 11 → BitVec 32

/-- `struct pw_fc_hash_entry`. -/
structure PwFcHashEntry where
  index : BitVec 16
  keyWord : KeyWords
  localFlowId : BitVec 32

/-- `struct pw_card_program`. -/
structure PwCardProgram where
  cardId : BitVec 16
  flowRows : List PwfpgaFlowConfig := []
  mapEntries : List PwFlowidMapEntry := []
  fcCmps : List PwFcCmp := []
  fcUdfs : List PwFcUdf := []
  fcRules : List PwFcRule := []
  hashSeed : BitVec 32 := 0
  hashMask : KeyWords := fun _ => 0
  hashEntries : List PwFcHashEntry := []

/-- `struct pw_program`; entry `i` of `flowMeta` is that of flow `i`. -/
structure PwProgram where
  perCard : List PwCardProgram := []
  flowMeta : List PwFlowMeta := []

/-- `card_slot`. -/
def cardSlot (p : PwProgram) (cardId : BitVec 16) : Option PwCardProgram :=
  p.perCard.find? (fun cp => cp.cardId == cardId)

/-- Write through the pointer `card_slot` returns. -/
def PwProgram.onCard (p : PwProgram) (cardId : BitVec 16) (f : PwCardProgram → PwCardProgram) :
    PwProgram :=
  { p with perCard := modifyKey PwCardProgram.cardId cardId f p.perCard }

/-! ## Appending to a card -/

/-- `append_flow`. -/
def appendFlow (cp : PwCardProgram) (row : PwfpgaFlowConfig) : PwCardProgram :=
  { cp with flowRows := cp.flowRows ++ [row] }

/-- `append_map`. -/
def appendMap (cp : PwCardProgram) (flowId localFlowId : BitVec 32) : PwCardProgram :=
  { cp with mapEntries := cp.mapEntries ++ [{ flowId, localFlowId }] }

/-- `append_fc_cmp`: an identical comparator is shared; the result is the
comparator's bit. -/
def appendFcCmp (cp : PwCardProgram) (c : PwFcCmp) : Except PwFailure (PwCardProgram × ℕ) :=
  match cp.fcCmps.idxOf? c with
  | some i => .ok (cp, i)
  | none =>
    if numCmp ≤ cp.fcCmps.length then .error (bare .noResources)
    else .ok ({ cp with fcCmps := cp.fcCmps ++ [c] }, cp.fcCmps.length)

/-- `append_fc_udf`: the bits of window comparators follow the field ones. -/
def appendFcUdf (cp : PwCardProgram) (u : PwFcUdf) : Except PwFailure (PwCardProgram × ℕ) :=
  match cp.fcUdfs.idxOf? u with
  | some i => .ok (cp, numCmp + i)
  | none =>
    if numUdf ≤ cp.fcUdfs.length then .error (bare .noResources)
    else .ok ({ cp with fcUdfs := cp.fcUdfs ++ [u] }, numCmp + cp.fcUdfs.length)

/-- `append_fc_rule`. -/
def appendFcRule (cp : PwCardProgram) (r : PwFcRule) : Except PwFailure PwCardProgram :=
  if numRule ≤ cp.fcRules.length then .error (bare .noResources)
  else .ok { cp with fcRules := cp.fcRules ++ [r] }

/-- Append a field comparator and care about it: `care |= 1u << bit`. -/
def careCmp (s : PwCardProgram × BitVec 16) (c : PwFcCmp) :
    Except PwFailure (PwCardProgram × BitVec 16) := do
  let (cp, bit) ← appendFcCmp s.1 c
  return (cp, s.2 ||| 1#16 <<< bit)

/-- Append a window comparator and care about it. -/
def careUdf (s : PwCardProgram × BitVec 16) (u : PwFcUdf) :
    Except PwFailure (PwCardProgram × BitVec 16) := do
  let (cp, bit) ← appendFcUdf s.1 u
  return (cp, s.2 ||| 1#16 <<< bit)

/-! ## Hash keys -/

/-- `pw_fc_l3_words`: the four words of an address, low word first. -/
def pwFcL3Words (a : BitVec 128) (i : ℕ) : BitVec 32 := a.extractLsb' (32 * i) 32

/-- The VLAN half of key word 9. -/
def hashVlan16 (f : PwFlow) : BitVec 32 :=
  if f.l2.vlanSet then f.l2.vlan.setWidth 32 &&& 0x0FFF else 0

/-- `pw_fc_hash_words`: the key of a flow's own header.  A raw Ethernet frame
is known by VLAN and EtherType only; a raw IP frame has no ports. -/
def pwFcHashWords (f : PwFlow) : KeyWords :=
  let tmpl := f.traffic.frameTemplate
  if tmpl = .l2raw then
    let et : BitVec 32 :=
      if f.l2.ethertype ≠ 0 then f.l2.ethertype.setWidth 32
      else if f.ipv6.present then 0x86DD else 0x0800
    fun i => if i = 9 then hashVlan16 f <<< 16 ||| (et &&& 0xFFFF) else 0
  else
    let dst : BitVec 128 := if f.ipv6.present then f.ipv6.dst else f.ipv4.dst.setWidth 128
    let src : BitVec 128 := if f.ipv6.present then f.ipv6.src else f.ipv4.src.setWidth 128
    let eth : BitVec 32 := if f.ipv6.present then 0x86DD else 0x0800
    fun i => match i with
      | 0 => pwFcL3Words dst 0
      | 1 => pwFcL3Words dst 1
      | 2 => pwFcL3Words dst 2
      | 3 => pwFcL3Words dst 3
      | 4 => pwFcL3Words src 0
      | 5 => pwFcL3Words src 1
      | 6 => pwFcL3Words src 2
      | 7 => pwFcL3Words src 3
      | 8 =>
        if tmpl = .l3raw then 0
        else f.udp.srcPort.setWidth 32 <<< 16 ||| f.udp.dstPort.setWidth 32
      | 9 => hashVlan16 f <<< 16 ||| eth
      | 10 => if f.udp.l4Proto ≠ 0 then f.udp.l4Proto.setWidth 32 else 17

/-- `pw_fc_hash_index`: exclusive or of the words, times the odd seed, the top
seven bits. -/
def pwFcHashIndex (w : KeyWords) (seed : BitVec 32) : BitVec 16 :=
  let k32 := (List.finRange 11).foldl (fun k32 i => k32 ^^^ w i) 0
  ((k32 * (seed ||| 1)) >>> 25).setWidth 16

/-- `append_hash_entry`: unmasked and not yet placed. -/
def appendHashEntry (cp : PwCardProgram) (w : KeyWords) (lfid : BitVec 32) :
    Except PwFailure PwCardProgram :=
  if hashDepth ≤ cp.hashEntries.length then .error (bare .noResources)
  else .ok { cp with hashEntries := cp.hashEntries ++ [{ index := 0, keyWord := w, localFlowId := lfid }] }

/-- `compile_header_classify`. -/
def compileHeaderClassify (cp : PwCardProgram) (f : PwFlow) (rxLfid : BitVec 32) :
    Except PwFailure PwCardProgram :=
  appendHashEntry cp (pwFcHashWords f) rxLfid

/-- The bits of word `i` of a 128-bit mask, low word first. -/
def ipv6MaskWord (m : BitVec 128) (i : ℕ) : BitVec 32 := m.extractLsb' (32 * i) 32

/-- The modifier is active. -/
def PwFieldMod.active (m : PwFieldMod) : Bool := m.mode != .static

/-- Word `w` of an address in the key mask: the bits an active modifier varies
are cleared (its low word for either family, the others for IPv6 only), and a
prefix match narrows all four words. -/
def relaxAddrWord (v6 : Bool) (mod : PwFieldMod) (full : BitVec 128) (matchSet : Bool)
    (matchMask : BitVec 128) (w : ℕ) (m : BitVec 32) : BitVec 32 :=
  let m :=
    if mod.active then
      if w = 0 then m &&& ~~~(mod.mask.setWidth 32)
      else if v6 then m &&& ~~~(ipv6MaskWord full w)
      else m
    else m
  if matchSet then m &&& ipv6MaskWord matchMask w else m

/-- The ports word of the key mask. -/
def relaxPorts (f : PwFlow) (m : BitVec 32) : BitVec 32 :=
  let m := if f.mod.udpDst.active then m &&& ~~~(f.mod.udpDst.mask.setWidth 32 &&& 0xFFFF) else m
  let m :=
    if f.matchUdpDstMask ≠ 0xFFFF then m &&& (0xFFFF0000 ||| f.matchUdpDstMask.setWidth 32) else m
  if f.mod.udpSrc.active then m &&& ~~~((f.mod.udpSrc.mask.setWidth 32 &&& 0xFFFF) <<< 16) else m

/-- The VLAN and EtherType word of the key mask. -/
def relaxVlan (f : PwFlow) (m : BitVec 32) : BitVec 32 :=
  if f.mod.vlan.active then m &&& ~~~((f.mod.vlan.mask.setWidth 32 &&& 0x0FFF) <<< 16) else m

/-- `pw_fc_relax_mask`: clear the bits the flow's modifiers vary, and narrow by
its match masks. -/
def pwFcRelaxMask (mask : KeyWords) (f : PwFlow) : KeyWords :=
  let dst := relaxAddrWord f.ipv6.present f.mod.dstIpv4 f.mod.dstIpv6Mask f.matchIpv6DstSet
    f.matchIpv6DstMask
  let src := relaxAddrWord f.ipv6.present f.mod.srcIpv4 f.mod.srcIpv6Mask f.matchIpv6SrcSet
    f.matchIpv6SrcMask
  let low (m : BitVec 32) :=
    if f.matchIpv4DstMask ≠ 0xFFFFFFFF then m &&& f.matchIpv4DstMask else m
  fun i => match i with
    | 0 => dst 0 (low (mask 0))
    | 1 => dst 1 (mask 1)
    | 2 => dst 2 (mask 2)
    | 3 => dst 3 (mask 3)
    | 4 => src 0 (mask 4)
    | 5 => src 1 (mask 5)
    | 6 => src 2 (mask 6)
    | 7 => src 3 (mask 7)
    | 8 => relaxPorts f (mask 8)
    | 9 => relaxVlan f (mask 9)
    | 10 => mask 10

/-! ## Flows -/

/-- The part of `compile_one_flow` that a background flow skips: the receive
card's copy of a cross-card flow's row, and the flow's classification. -/
def compileRxSide (out : PwProgram) (f : PwFlow) (rx : PwPortRef) (rxLfid : BitVec 32)
    (sameCard : Bool) (row : PwfpgaFlowConfig) : Except PwFailure PwProgram := do
  let out :=
    if sameCard then out
    else out.onCard rx.cardId (fun cp => appendFlow cp (rxRow row rx.localPortId rxLfid))
  let rxCp ← orFail (cardSlot out rx.cardId) (bare .unknownCard)
  if f.classifyHeader then
    let cp ← compileHeaderClassify rxCp f rxLfid
    return out.onCard rx.cardId (fun _ => cp)
  else
    failIf (flowidMapDepth ≤ f.id.toNat) (bare .inval)
    return out.onCard rx.cardId (fun cp => appendMap cp f.id rxLfid)

/-- `compile_one_flow`: a transmit row, and for a flow that is measured a
receive slot with its classification. -/
def compileOneFlow (cfg : PwConfig) (out : PwProgram) (f : PwFlow) :
    Except PwFailure PwProgram := do
  let tx ← orFail (pwConfigResolvePort cfg f.txGlobalPort) (bare .unknownGlobalPort)
  let rx ← orFail (pwConfigResolvePort cfg f.rxGlobalPort) (bare .unknownGlobalPort)
  let sameCard := tx.cardId == rx.cardId
  let txCp ← orFail (cardSlot out tx.cardId) (bare .unknownCard)
  let rxCp ← orFail (cardSlot out rx.cardId) (bare .unknownCard)
  failIf (flowTableRows ≤ txCp.flowRows.length) (bare .noResources)
  failIf (!sameCard && !f.background && decide (flowTableRows ≤ rxCp.flowRows.length))
    (bare .noResources)
  let txLfid := BitVec.ofNat 32 txCp.flowRows.length
  let rxLfid :=
    if sameCard || f.background then txLfid else BitVec.ofNat 32 rxCp.flowRows.length
  let row := txRow f tx.localPortId txLfid sameCard
  let out := out.onCard tx.cardId (fun cp => appendFlow cp row)
  let out :=
    { out with
      flowMeta := out.flowMeta ++
        [{ globalFlowId := f.id, txCardId := tx.cardId, rxCardId := rx.cardId
           txLocalFlowId := txLfid, rxLocalFlowId := rxLfid
           latencyValid := sameCard && !f.background, rxSlotValid := !f.background }] }
  if f.background then .ok out else compileRxSide out f rx rxLfid sameCard row

/-! ## Punt rules -/

/-- What one `PUNT(...)` line of the source matches; 0 leaves a field out. -/
structure PuntPattern where
  eth : BitVec 16 := 0
  l3p : BitVec 8 := 0
  l4lane : PwfpgaFcSrc := .l4Dst
  l4port : BitVec 16 := 0
  udfOff : BitVec 16 := 0
  udfVal : BitVec 32 := 0
  prio : BitVec 8
  deriving DecidableEq, Repr

/-- A comparator that is only emitted under a condition. -/
def optCmp (c : Bool) (x : PwFcCmp) : List PwFcCmp := if c then [x] else []

/-- The field comparators of `add_punt_rule`, in the order it appends them. -/
def puntCmps (ref : PwPortRef) (l : PwLogicalIf) (p : PuntPattern) : List PwFcCmp :=
  [{ src := .ingress, mask := 0xF, value := ref.localPortId.setWidth 32 }] ++
  optCmp (l.vlan != 0) { src := .vlan, mask := 0x0FFF, value := l.vlan.setWidth 32 } ++
  optCmp (p.eth != 0) { src := .ethertype, mask := 0xFFFF, value := p.eth.setWidth 32 } ++
  optCmp (p.l3p != 0) { src := .l3Proto, mask := 0xFF, value := p.l3p.setWidth 32 } ++
  optCmp (p.l4port != 0) { src := p.l4lane, mask := 0xFFFF, value := p.l4port.setWidth 32 }

/-- The window comparator of `add_punt_rule`, if it has one. -/
def puntUdfs (p : PuntPattern) : List PwFcUdf :=
  if p.udfVal ≠ 0 then [{ offset := p.udfOff, mask := 0xFFFF0000, value := p.udfVal }] else []

/-- `add_punt_rule`. -/
def addPuntRule (ref : PwPortRef) (l : PwLogicalIf) (cp : PwCardProgram) (p : PuntPattern) :
    Except PwFailure PwCardProgram := do
  let s ← (puntCmps ref l p).foldlM careCmp (cp, 0)
  let (cp, care) ← (puntUdfs p).foldlM careUdf s
  appendFcRule cp
    { care, action := .puntToHost, egress := 0, localFlowId := 0, logicalIfId := l.id
      priority := p.prio }

/-- The `PUNT(...)` lines of `compile_punt_rules` that the flags select.  BGP
has a rule for either direction, and the IPv6 variants of OSPF and BGP come
with `ipv6_nd`. -/
def puntPatterns (p : PwPuntFlags) : List PuntPattern :=
  (if p.arp then [{ eth := 0x0806, prio := 20 }] else []) ++
  (if p.ipv6Nd then [{ eth := 0x86DD, l3p := 58, prio := 20 }] else []) ++
  (if p.lldp then [{ eth := 0x88CC, prio := 20 }] else []) ++
  (if p.icmp then [{ eth := 0x0800, l3p := 1, prio := 25 }] else []) ++
  (if p.bgp then
    [{ eth := 0x0800, l3p := 6, l4lane := .l4Dst, l4port := 179, prio := 30 },
     { eth := 0x0800, l3p := 6, l4lane := .l4Src, l4port := 179, prio := 30 }] else []) ++
  (if p.ospf then [{ eth := 0x0800, l3p := 89, prio := 30 }] else []) ++
  (if p.ospf && p.ipv6Nd then [{ eth := 0x86DD, l3p := 89, prio := 30 }] else []) ++
  (if p.bgp && p.ipv6Nd then
    [{ eth := 0x86DD, l3p := 6, l4lane := .l4Dst, l4port := 179, prio := 30 },
     { eth := 0x86DD, l3p := 6, l4lane := .l4Src, l4port := 179, prio := 30 }] else []) ++
  (if p.isIs then [{ udfOff := 0, udfVal := 0xFEFE0000, prio := 30 }] else [])

/-- One interface of `compile_punt_rules`. -/
def compilePuntIf (cfg : PwConfig) (out : PwProgram) (l : PwLogicalIf) :
    Except PwFailure PwProgram := do
  let ref ← orFail (pwConfigResolvePort cfg l.globalPort) (bare .unknownGlobalPort)
  let cp ← orFail (cardSlot out ref.cardId) (bare .unknownCard)
  let cp ← (puntPatterns l.punt).foldlM (addPuntRule ref l) cp
  return out.onCard ref.cardId (fun _ => cp)

/-- `compile_punt_rules`. -/
def compilePuntRules (cfg : PwConfig) (out : PwProgram) : Except PwFailure PwProgram :=
  cfg.logicalIf.foldlM (compilePuntIf cfg) out

/-! ## Forward rules -/

/-- The comparators of `append_ipv6_cmps`: one for each address word whose mask
is not zero, the most significant word first, the value masked. -/
def ipv6Cmps (addr mask : BitVec 128) (sel : List PwfpgaFcSrc) : List PwFcCmp :=
  (sel.zip [3, 2, 1, 0]).flatMap fun (src, w) =>
    let m := ipv6MaskWord mask w
    let v := ipv6MaskWord addr w &&& m
    optCmp (m != 0) { src, mask := m, value := v }

/-- The comparators of a forward, in the order the source appends them. -/
def forwardCmps (ing : PwPortRef) (fr : PwForwardRule) : List PwFcCmp :=
  [{ src := .ingress, mask := 0xF, value := ing.localPortId.setWidth 32 }] ++
  optCmp (fr.vlan != 0) { src := .vlan, mask := 0x0FFF, value := fr.vlan.setWidth 32 } ++
  optCmp (fr.ethertype != 0) { src := .ethertype, mask := 0xFFFF, value := fr.ethertype.setWidth 32 } ++
  optCmp (fr.ipProto != 0) { src := .l3Proto, mask := 0xFF, value := fr.ipProto.setWidth 32 } ++
  optCmp (fr.udpDst != 0) { src := .l4Dst, mask := 0xFFFF, value := fr.udpDst.setWidth 32 } ++
  optCmp (fr.ipv6DstSet || fr.ipv6SrcSet)
    { src := .flags, mask := fcFlagIsIpv6, value := fcFlagIsIpv6 } ++
  (if fr.ipv6DstSet then
    ipv6Cmps fr.ipv6Dst fr.ipv6DstMask [.ipv6Dst3, .ipv6Dst2, .ipv6Dst1, .ipv6Dst0] else []) ++
  (if fr.ipv6SrcSet then
    ipv6Cmps fr.ipv6Src fr.ipv6SrcMask [.ipv6Src3, .ipv6Src2, .ipv6Src1, .ipv6Src0] else [])

/-- One forward of `compile_forward_rules`. -/
def compileForward (cfg : PwConfig) (out : PwProgram) (fr : PwForwardRule) :
    Except PwFailure PwProgram := do
  let ing ← orFail (pwConfigResolvePort cfg fr.ingressPort) (bare .unknownGlobalPort)
  let egr ← orFail (pwConfigResolvePort cfg fr.egressPort) (bare .unknownGlobalPort)
  failIf (ing.cardId != egr.cardId) (bare .inval)
  let cp ← orFail (cardSlot out ing.cardId) (bare .unknownCard)
  let (cp, care) ← (forwardCmps ing fr).foldlM careCmp (cp, 0)
  let cp ← appendFcRule cp
    { care, action := .forwardPort, egress := egr.localPortId, localFlowId := 0
      logicalIfId := 0, priority := fr.priority }
  return out.onCard ing.cardId (fun _ => cp)

/-- `compile_forward_rules`. -/
def compileForwardRules (cfg : PwConfig) (out : PwProgram) : Except PwFailure PwProgram :=
  cfg.forwards.foldlM (compileForward cfg) out

/-! ## The hash table of a card -/

/-- A header-classified flow whose receive port is on the card.  The source
does not ask whether the flow is a background one. -/
def relaxesCard (cfg : PwConfig) (cardId : BitVec 16) (f : PwFlow) : Bool :=
  f.classifyHeader &&
    (match pwConfigResolvePort cfg f.rxGlobalPort with
      | some rx => rx.cardId == cardId
      | none => false)

/-- The global key mask of a card. -/
def cardHashMask (cfg : PwConfig) (cardId : BitVec 16) : KeyWords :=
  (cfg.flows.filter (relaxesCard cfg cardId)).foldl pwFcRelaxMask (fun _ => 0xFFFFFFFF)

/-- Apply the mask to a stored key. -/
def PwFcHashEntry.masked (mask : KeyWords) (e : PwFcHashEntry) : PwFcHashEntry :=
  { e with keyWord := fun i => e.keyWord i &&& mask i }

/-- `memcmp` of two keys. -/
def keyEq (v w : KeyWords) : Bool := (List.finRange 11).all fun i => v i == w i

/-- The first entry whose key an earlier one has, with that earlier entry. -/
def findDuplicate : List PwFcHashEntry → List PwFcHashEntry → Option (PwFcHashEntry × PwFcHashEntry)
  | _, [] => none
  | seen, e :: es =>
    match seen.find? (fun d => keyEq e.keyWord d.keyWord) with
    | some d => some (d, e)
    | none => findDuplicate (seen ++ [e]) es

/-- One attempt: place every key under the seed, or stop at a bucket in use. -/
def placeAll (seed : BitVec 32) : List (BitVec 16) → List PwFcHashEntry → Option (List PwFcHashEntry)
  | _, [] => some []
  | used, e :: es =>
    let idx := pwFcHashIndex e.keyWord seed
    if idx ∈ used then none
    else (placeAll seed (idx :: used) es).map ({ e with index := idx } :: ·)

/-- The seed of an attempt. -/
def attemptSeed (attempt : ℕ) : BitVec 32 := 0x9E3779B1#32 * (BitVec.ofNat 32 attempt + 1) + 1

/-- The seed search, with the number of attempts left. -/
def seedSearch (entries : List PwFcHashEntry) (attempt : ℕ) :
    ℕ → Option (BitVec 32 × List PwFcHashEntry)
  | 0 => none
  | left + 1 =>
    match placeAll (attemptSeed attempt) [] entries with
    | some placed => some (attemptSeed attempt, placed)
    | none => seedSearch entries (attempt + 1) left

/-- The hash post-pass of one card; a card without entries is left alone. -/
def hashPostPass (cfg : PwConfig) (cp : PwCardProgram) : Except PwFailure PwCardProgram :=
  if cp.hashEntries.isEmpty then .ok cp
  else
    let mask := cardHashMask cfg cp.cardId
    let entries := cp.hashEntries.map (PwFcHashEntry.masked mask)
    match findDuplicate [] entries with
    | some (d, e) =>
      .error (diag .inval s!"card[{cp.cardId.toNat}].hash"
        (s!"header-classify flows in slots {d.localFlowId.toNat} and {e.localFlowId.toNat} are "
          ++ "indistinguishable under the hash key mask (a "
          ++ "field that separates them is randomized by a "
          ++ "modifier or cleared by match); make them differ "
          ++ "in a non-randomized field, or use classify: map"))
    | none =>
      match seedSearch entries 0 4096 with
      | some (seed, placed) =>
        .ok { cp with hashSeed := seed, hashMask := mask, hashEntries := placed }
      | none => .error (bare .noResources)

/-! ## The compiler -/

/-- Attribute exhaustion to a part of the configuration; other failures carry
no diagnostic of their own. -/
def blame (path message : String) (e : PwFailure) : PwFailure :=
  if e.status = .noResources then diag .noResources path message else e

/-- The diagnostic for exhaustion at flow `i`. -/
def blameFlow (i : ℕ) (f : PwFlow) : PwFailure → PwFailure :=
  blame s!"flows[{i}]"
    (s!"flow {f.id.toNat}: per-card resource capacity exceeded "
      ++ s!"(flow-table rows max {flowTableRows}/card, or comparator/hash pool)")

/-- The flow pass, numbering the flows for their diagnostics. -/
def compileFlows (cfg : PwConfig) (out : PwProgram) : Except PwFailure PwProgram :=
  cfg.flows.zipIdx.foldlM (fun out x =>
    (compileOneFlow cfg out x.1).mapError (blameFlow x.2 x.1)) out

/-- `pw_flow_compile`. -/
def pwFlowCompile (cfg : PwConfig) : Except PwFailure PwProgram := do
  pwConfigValidate cfg
  let out : PwProgram := { perCard := cfg.cards.map fun c => { cardId := c.id } }
  let out ← compileFlows cfg out
  let out ← (compilePuntRules cfg out).mapError
    (blame "punt"
      (s!"field-comparator pool exhausted (limit NCMP={numCmp}, shared across "
        ++ "punt+forward rules); reduce per-rule match conditions"))
  let out ← (compileForwardRules cfg out).mapError
    (blame "forwards"
      (s!"field-comparator pool exhausted (limit NCMP={numCmp}, shared across "
        ++ "punt+forward rules); a /128 IPv6 match costs 4 + 1 is_ipv6, "
        ++ "/64 costs 2 + 1; reduce per-rule match conditions"))
  let perCard ← out.perCard.mapM (hashPostPass cfg)
  return { out with perCard }

end PacketWyrm
