import PacketWyrm.Ipv6Prefix
import PacketWyrm.ReadRequest

/-!
# A flow from its YAML tree

`parse_flow` reads the mapping of one flow, block by block, into a record that starts all-zero.  A
block that is missing leaves its part of the record as it is, and so does an optional field, except
where the parser has a default of its own.  The readers of addresses, `inet_pton`, are parameters.

## Main definitions

* `pwParseBool`, `pwParseU16`, `pwParseU8`, `pwParseMac` — the scalars of a flow.
* `Inet` — the functions of the C library for addresses.
* `parseFlowL2`, `parseIpEndpoint`, `parseEncap`, `parseFlowL4`, `parseTraffic`, `parseMeas`,
  `parseModifiers`, `parseMatch` — the blocks.
* `parseFlow` — the whole flow.
-/

namespace PacketWyrm

open Lib

/-! ## Scalars -/

/-- `pw_parse_bool`. -/
def pwParseBool (s : List Byte) : Option Bool :=
  let low := s.map toLower
  if low = ascii "true" ∨ low = ascii "yes" ∨ s = ascii "1" ∨ low = ascii "on" then some true
  else if low = ascii "false" ∨ low = ascii "no" ∨ s = ascii "0" ∨ low = ascii "off" then some false
  else none

/-- `pw_parse_u16`. -/
def pwParseU16 (s : List Byte) : Option ℕ := (pwParseU64 s).filter (· ≤ 0xFFFF)

/-- `pw_parse_u8`. -/
def pwParseU8 (s : List Byte) : Option ℕ := (pwParseU64 s).filter (· ≤ 0xFF)

/-- The number that some hexadecimal digits make. -/
def hexValue (ds : List Byte) : ℕ := ds.foldl (fun n b => 16 * n + (digitValue 16 b).getD 0) 0

/-- What is behind the zero that a hexadecimal number begins with.  An `x` is taken together with
it, whether or not a digit follows. -/
def hexBody (t : List Byte) : List Byte :=
  if t.head? = some 0x30 then
    if t.tail.head? = some 0x78 ∨ t.tail.head? = some 0x58 then t.tail.tail else t.tail
  else t

/-- A hexadecimal digit. -/
def isHexDigit (b : Byte) : Bool := (digitValue 16 b).isSome

/-- `%x` of `sscanf`: white space, a sign, `0x` and digits; the number is cut to 32 bits, and what
is behind it is left. -/
def scanHex (s : List Byte) : Option (ℕ × List Byte) :=
  let t := s.dropWhile isSpace
  let sign := Sign.read t
  let t := t.drop sign.text.length
  let ds := (hexBody t).takeWhile isHexDigit
  if t.head? ≠ some 0x30 ∧ ds = [] then none
  else
    let v := hexValue ds
    let v := if 2 ^ 64 ≤ v then 2 ^ 64 - 1 else sign.value v
    some (v % 2 ^ 32, (hexBody t).dropWhile isHexDigit)

/-- `:%x`, as often as asked for. -/
def scanColonHex : ℕ → List Byte → Option (List ℕ × List Byte)
  | 0, s => some ([], s)
  | n + 1, s =>
    if s.head? = some 0x3A then
      (scanHex s.tail).bind fun (v, r) => (scanColonHex n r).map fun (vs, r) => (v :: vs, r)
    else none

/-- `pw_parse_mac`. -/
def pwParseMac (s : List Byte) : Option (BitVec 48) :=
  (scanHex s).bind fun (v, r) => (scanColonHex 5 r).bind fun (vs, r) =>
    if r = [] ∧ ∀ o ∈ v :: vs, o ≤ 0xFF then
      some (BitVec.ofNat 48 ((v :: vs).foldl (fun n o => n * 256 + o) 0))
    else none

/-- The functions of the C library for addresses: `inet_ntop` and `inet_pton`, for both families. -/
structure Inet where
  ntop4 : BitVec 32 → List Byte
  pton4 : List Byte → Option (BitVec 32)
  ntop6 : BitVec 128 → List Byte
  pton6 : List Byte → Option (BitVec 128)

/-- One of some words. -/
def keyword {α : Type} (words : List (String × α)) (s : List Byte) : Option α :=
  (words.find? fun x => ascii x.1 == s).map Prod.snd

section Fields

variable {α : Type} (m : PwYamlNode) (key path : String) (p : List Byte → Option α)

/-- A field that has to be there. -/
def reqField (e : PwFailure) : Except PwFailure α := do
  let s ← getScalar m key path true
  orFail (p (s.getD [])) e

/-- A field that has a default. -/
def optField (dflt : α) (e : PwFailure) : Except PwFailure α := do
  let s ← getScalar m key path false
  match s with
  | none => .ok dflt
  | some s => orFail (p s) e

end Fields

/-- A number of 8, 16, 32 or 64 bits. -/
def u8 (s : List Byte) : Option (BitVec 8) := (pwParseU8 s).map (BitVec.ofNat 8)

def u16 (s : List Byte) : Option (BitVec 16) := (pwParseU16 s).map (BitVec.ofNat 16)

def u32 (s : List Byte) : Option (BitVec 32) := (pwParseU32 s).map (BitVec.ofNat 32)

def u64 (s : List Byte) : Option (BitVec 64) := (pwParseU64 s).map (BitVec.ofNat 64)

/-! ## Layer 2 -/

/-- The block `l2`. -/
def parseFlowL2 (m : PwYamlNode) (path : String) : Except PwFailure PwFlowL2 :=
  match pwYamlMapGet m (ascii "l2") with
  | none => .ok {}
  | some l2 => do
    let l2p := path ++ ".l2"
    let l2 ← reqMap (some l2) l2p
    let srcMac ← reqField l2 "src_mac" l2p pwParseMac (diag .parse l2p "src_mac")
    let dstMac ← reqField l2 "dst_mac" l2p pwParseMac (diag .parse l2p "dst_mac")
    let vlan ← optField l2 "vlan" l2p
      (fun s => ((u16 s).filter fun v => v.toNat < 4095).map some) none
      (diag .outOfRange l2p "vlan must be 0..4094")
    let pcp ← optField l2 "pcp" l2p u8 0 (diag .parse l2p "pcp")
    failIf (7 < pcp.toNat) (diag .outOfRange l2p "pcp must be 0..7")
    let ethertype ← optField l2 "ethertype" l2p u16 0 (diag .parse l2p "ethertype must be 16-bit")
    pure { srcMac, dstMac, vlanSet := vlan.isSome, vlan := vlan.getD 0, pcp, ethertype }

/-! ## Addresses -/

section Addresses

variable (inet : Inet)

/-- The block `ipv6` of an endpoint. -/
def parseIpv6Block (v6 : PwYamlNode) (path : String) : Except PwFailure PwFlowIpv6 := do
  let p := path ++ ".ipv6"
  let v6 ← reqMap (some v6) p
  let src ← reqField v6 "src" p inet.pton6 (diag .parse p "src must be an IPv6 address")
  let dst ← reqField v6 "dst" p inet.pton6 (diag .parse p "dst must be an IPv6 address")
  let hopLimit ← optField v6 "hop_limit" p u8 64 (diag .parse p "hop_limit")
  let dscp ← optField v6 "dscp" p (fun s => (u8 s).filter fun v => v.toNat ≤ 63) 0
    (diag .outOfRange p "dscp 0..63")
  pure { present := true, src, dst, hopLimit, dscp }

/-- The block `ipv4` of an endpoint. -/
def parseIpv4Block (v4 : PwYamlNode) (path : String) : Except PwFailure PwFlowIpv4 := do
  let p := path ++ ".ipv4"
  let v4 ← reqMap (some v4) p
  let src ← reqField v4 "src" p inet.pton4 (diag .parse p "src must be an IPv4 address")
  let dst ← reqField v4 "dst" p inet.pton4 (diag .parse p "dst must be an IPv4 address")
  let ttl ← optField v4 "ttl" p u8 64 (diag .parse p "ttl")
  let dscp ← optField v4 "dscp" p (fun s => (u8 s).filter fun v => v.toNat ≤ 63) 0
    (diag .outOfRange p "dscp 0..63")
  pure { present := true, src, dst, ttl, dscp }

/-- `parse_ip_endpoint`. -/
def parseIpEndpoint (parent : PwYamlNode) (path : String) :
    Except PwFailure (PwFlowIpv4 × PwFlowIpv6) := do
  let v4 := pwYamlMapGet parent (ascii "ipv4")
  let v6 := pwYamlMapGet parent (ascii "ipv6")
  failIf (v4.isSome && v6.isSome) (diag .inval path "set exactly one of ipv4 / ipv6")
  match v6, v4 with
  | some v6, _ => do
    let v6o ← parseIpv6Block inet v6 path
    pure ({}, v6o)
  | none, some v4 => do
    let v4o ← parseIpv4Block inet v4 path
    pure (v4o, {})
  | none, none => .error (diag .missingField path "requires an ipv4 or ipv6 block")

/-- The inner Ethernet addresses of a tunnel. -/
def parseInnerL2 (enc : PwYamlNode) (ep : String) :
    Except PwFailure (Option (BitVec 48 × BitVec 48)) :=
  match pwYamlMapGet enc (ascii "inner_l2") with
  | none => .ok none
  | some il2 => do
    let ip := ep ++ ".inner_l2"
    let il2 ← reqMap (some il2) ip
    let srcMac ← reqField il2 "src_mac" ip pwParseMac (diag .parse ip "src_mac")
    let dstMac ← reqField il2 "dst_mac" ip pwParseMac (diag .parse ip "dst_mac")
    pure (some (srcMac, dstMac))

/-- The words for a tunnel. -/
def encapWords : List (String × PwEncapKind) :=
  [("ipip", .ipip), ("gre", .gre), ("etherip", .etherip)]

/-- The block `encap`. -/
def parseEncap (m : PwYamlNode) (path : String) : Except PwFailure PwFlowEncap :=
  match pwYamlMapGet m (ascii "encap") with
  | none => .ok {}
  | some enc => do
    let ep := path ++ ".encap"
    let enc ← reqMap (some enc) ep
    let type ← reqField enc "type" ep (keyword encapWords)
      (diag .parse ep "type must be ipip|gre|etherip")
    let outer ← orFail (pwYamlMapGet enc (ascii "outer"))
      (diag .missingField ep "encap requires an outer block")
    let op := ep ++ ".outer"
    let outer ← reqMap (some outer) op
    let (outerIpv4, outerIpv6) ← parseIpEndpoint inet outer op
    let inner ← parseInnerL2 enc ep
    pure {
      present := true, type, outerIpv4, outerIpv6
      innerMacSet := inner.isSome
      innerSrcMac := (inner.map Prod.fst).getD 0
      innerDstMac := (inner.map Prod.snd).getD 0 }

end Addresses

/-- The words for the receive side of a tunnel. -/
def rxExpectWords : List (String × PwRxExpect) := [("inner", .inner), ("tunneled", .tunneled)]

/-! ## Layer 4 -/

/-- The block `udp` or `tcp`. -/
def parseFlowL4 (m : PwYamlNode) (path : String) : Except PwFailure PwFlowUdp := do
  let udp := pwYamlMapGet m (ascii "udp")
  let tcp := pwYamlMapGet m (ascii "tcp")
  failIf (udp.isSome && tcp.isSome) (diag .inval path "set exactly one of udp / tcp")
  failIf (!udp.isSome && !tcp.isSome) (diag .missingField path "flow requires a udp or tcp block")
  let up := path ++ (if tcp.isSome then ".tcp" else ".udp")
  let l4 ← reqMap (if tcp.isSome then tcp else udp) up
  let srcPort ← reqField l4 "src_port" up u16 (diag .parse up "src_port")
  let dstPort ← reqField l4 "dst_port" up u16 (diag .parse up "dst_port")
  if tcp.isSome then do
    let tcpFlags ← optField l4 "flags" up u8 2 (diag .parse up "tcp flags must be 0..255")
    pure { srcPort, dstPort, l4Proto := 6, tcpFlags }
  else pure { srcPort, dstPort, l4Proto := 17, tcpFlags := 2 }

/-! ## Traffic -/

/-- The frame lengths: one, or a range. -/
def parseLengths (tr : PwYamlNode) (tp : String) : Except PwFailure PwFlowTraffic := do
  let fixed ← optField tr "frame_len" tp (fun s => (u16 s).map some) none
    (diag .parse tp "frame_len")
  match fixed with
  | some len => pure { frameLenFixedSet := true, frameLenFixed := len }
  | none => do
    let lo ← reqField tr "frame_len_min" tp u16 (diag .parse tp "frame_len_min")
    let hi ← reqField tr "frame_len_max" tp u16 (diag .parse tp "frame_len_max")
    let step ← optField tr "frame_len_step" tp u16 1 (diag .parse tp "frame_len_step")
    pure { frameLenMin := lo, frameLenMax := hi, frameLenStep := step }

/-- The checks on the frame lengths. -/
def checkLengths (tr : PwYamlNode) (tp : String) (t : PwFlowTraffic) : Except PwFailure Unit := do
  failIf (t.frameLenFixedSet && ((pwYamlMapGet tr (ascii "frame_len_min")).isSome ||
      (pwYamlMapGet tr (ascii "frame_len_max")).isSome ||
      (pwYamlMapGet tr (ascii "frame_len_step")).isSome))
    (diag .inval tp "frame_len and frame_len_min/max/step are mutually exclusive")
  let flo := if t.frameLenFixedSet then t.frameLenFixed else t.frameLenMin
  let fhi := if t.frameLenFixedSet then t.frameLenFixed else t.frameLenMax
  failIf (decide (flo.toNat < 60) || decide (1518 < fhi.toNat))
    (diag .inval tp "frame length out of range [60,1518]")
  failIf (decide (fhi.toNat < flo.toNat)) (diag .inval tp "frame_len_min exceeds frame_len_max")
  failIf (!t.frameLenFixedSet && t.frameLenStep == 0)
    (diag .inval tp "frame_len_step must be >= 1")

/-- The words for a payload. -/
def payloadWords : List (String × PwPayloadMode) :=
  [("zero", .zero), ("increment", .increment), ("prbs", .prbs), ("random", .random)]

/-- The words for a frame template. -/
def templateWords : List (String × PwFrameTemplate) :=
  [("test", .test), ("raw", .l4raw), ("ip", .l3raw), ("eth", .l2raw)]

/-- The block `traffic`. -/
def parseTraffic (m : PwYamlNode) (path : String) : Except PwFailure PwFlowTraffic := do
  let tr ← orFail (pwYamlMapGet m (ascii "traffic"))
    (diag .missingField path "flow requires traffic block")
  let tp := path ++ ".traffic"
  let tr ← reqMap (some tr) tp
  let t ← parseLengths tr tp
  let rateBps ← optField tr "rate_bps" tp u64 0 (diag .parse tp "rate_bps")
  let ratePps ← optField tr "rate_pps" tp u64 0 (diag .parse tp "rate_pps")
  checkLengths tr tp t
  failIf ((rateBps == 0) == (ratePps == 0))
    (diag .inval tp "exactly one of rate_bps / rate_pps required")
  let burstSize ← optField tr "burst_size" tp u32 1 (diag .parse tp "burst_size")
  let burstGapTicks ← optField tr "burst_gap_ticks" tp u32 0 (diag .parse tp "burst_gap_ticks")
  let payloadMode ← optField tr "payload" tp (keyword payloadWords) .increment
    (diag .inval tp "payload must be zero|increment|prbs|random")
  let payloadSeed ← optField tr "payload_seed" tp u32 0 (diag .parse tp "payload_seed")
  let insertSequence ← optField tr "insert_sequence" tp pwParseBool true
    (diag .parse tp "insert_sequence")
  let insertTimestamp ← optField tr "insert_timestamp" tp pwParseBool true
    (diag .parse tp "insert_timestamp")
  let frameTemplate ← optField tr "frame_template" tp (keyword templateWords) .test
    (diag .inval tp "frame_template must be test|raw|ip|eth")
  pure { t with
    rateBps, ratePps, burstSize, burstGapTicks, payloadMode, payloadSeed, insertSequence
    insertTimestamp, frameTemplate }

/-- The block `measurements`. -/
def parseMeas (m : PwYamlNode) (path : String) : Except PwFailure PwFlowMeas :=
  match pwYamlMapGet m (ascii "measurements") with
  | none => .ok {}
  | some meas => do
    let mp := path ++ ".measurements"
    let meas ← reqMap (some meas) mp
    let loss ← optField meas "loss" mp pwParseBool false (diag .parse mp "loss")
    let latency ← optField meas "latency" mp pwParseBool false (diag .parse mp "latency")
    let jitter ← optField meas "jitter" mp pwParseBool false (diag .parse mp "jitter")
    pure { loss, latency, jitter }

/-! ## Modifiers -/

/-- The words for a modifier. -/
def modeWords : List (String × PwFieldMode) :=
  [("static", .static), ("increment", .increment), ("random", .random)]

/-- `parse_field_mod`. -/
def parseFieldMod (parent : PwYamlNode) (key path : String) : Except PwFailure PwFieldMod :=
  match pwYamlMapGet parent (ascii key) with
  | none => .ok {}
  | some n => do
    let p := path ++ "." ++ key
    let n ← reqMap (some n) p
    let mode ← optField n "mode" p (keyword modeWords) .static
      (diag .parse p "mode must be static|increment|random")
    let mask ← optField n "mask" p (fun s => (u64 s).filter fun v => v.toNat ≤ 0xFFFFFFFFFFFF) 0
      (diag .parse p "mask must be an unsigned (hex/dec) value <= 48 bits")
    pure { mode, mask }

/-- The mask of an address: an address, or up to 32 bits. -/
def parseIpv6Mask (inet : Inet) (n : PwYamlNode) (p : String) : Except PwFailure (BitVec 128) := do
  let s ← getScalar n "mask" p false
  match s with
  | none => .ok 0
  | some s =>
    if 0x3A ∈ s then
      orFail (inet.pton6 s) (diag .parse p "ipv6 modifier mask must be an IPv6 mask literal")
    else
      orFail ((u32 s).map fun v => v.setWidth 128) (diag .parse p
        "ipv6 hex mask must be <=32 bits; use a v6-literal mask for the full address")

/-- `parse_ipv6_field_mod`: the modifier with the low word of the mask, and the whole mask. -/
def parseIpv6FieldMod (inet : Inet) (parent : PwYamlNode) (key path : String) :
    Except PwFailure (PwFieldMod × BitVec 128) :=
  match pwYamlMapGet parent (ascii key) with
  | none => .ok ({}, 0)
  | some n => do
    let p := path ++ "." ++ key
    let n ← reqMap (some n) p
    let mode ← optField n "mode" p (keyword modeWords) .static
      (diag .parse p "mode must be static|increment|random")
    let mask16 ← parseIpv6Mask inet n p
    pure ({ mode, mask := (mask16.setWidth 32).setWidth 64 }, mask16)

/-- The modifiers of the addresses, in the slots of the flow's family. -/
def parseAddressMods (inet : Inet) (mods : PwYamlNode) (xp : String) (v6 : Bool) :
    Except PwFailure PwFlowModifiers :=
  if v6 then do
    let (srcIpv4, srcIpv6Mask) ← parseIpv6FieldMod inet mods "src_ipv6" xp
    let (dstIpv4, dstIpv6Mask) ← parseIpv6FieldMod inet mods "dst_ipv6" xp
    pure { srcIpv4, srcIpv6Mask, dstIpv4, dstIpv6Mask }
  else do
    let srcIpv4 ← parseFieldMod mods "src_ipv4" xp
    let dstIpv4 ← parseFieldMod mods "dst_ipv4" xp
    pure { srcIpv4, dstIpv4 }

/-- The block `modifiers`. -/
def parseModifiers (inet : Inet) (m : PwYamlNode) (path : String) (v6 : Bool) :
    Except PwFailure PwFlowModifiers :=
  match pwYamlMapGet m (ascii "modifiers") with
  | none => .ok {}
  | some mods => do
    let xp := path ++ ".modifiers"
    let mods ← reqMap (some mods) xp
    let a ← parseAddressMods inet mods xp v6
    let udpSrc ← parseFieldMod mods "udp_src" xp
    let udpDst ← parseFieldMod mods "udp_dst" xp
    let srcMac ← parseFieldMod mods "src_mac" xp
    let dstMac ← parseFieldMod mods "dst_mac" xp
    let vlan ← parseFieldMod mods "vlan" xp
    pure { a with udpSrc, udpDst, srcMac, dstMac, vlan }

/-! ## Matches -/

/-- The match masks of a flow. -/
structure FlowMatch where
  udpDst : BitVec 16 := 0xFFFF
  ipv4Dst : BitVec 32 := 0xFFFFFFFF
  ipv6Dst : Option (BitVec 128) := none
  ipv6Src : Option (BitVec 128) := none

/-- A prefix of the block `match`. -/
def parsePrefix (mm : PwYamlNode) (key mp : String) (v6 : Bool) :
    Except PwFailure (Option (BitVec 128)) := do
  let s ← getScalar mm key mp false
  match s with
  | none => .ok none
  | some s => (matchIpv6Prefix key v6 mp s).map some

/-- The block `match`. -/
def parseMatch (m : PwYamlNode) (path : String) (v6 : Bool) : Except PwFailure FlowMatch :=
  match pwYamlMapGet m (ascii "match") with
  | none => .ok {}
  | some mm => do
    let mp := path ++ ".match"
    let mm ← reqMap (some mm) mp
    let udpDst ← optField mm "udp_dst" mp u16 0xFFFF (diag .parse mp "udp_dst mask must be 16-bit")
    let ipv4Dst ← optField mm "ipv4_dst" mp u32 0xFFFFFFFF
      (diag .parse mp "ipv4_dst mask must be 32-bit")
    let ipv6Dst ← parsePrefix mm "ipv6_dst_prefix" mp v6
    let ipv6Src ← parsePrefix mm "ipv6_src_prefix" mp v6
    pure { udpDst, ipv4Dst, ipv6Dst, ipv6Src }

/-! ## The flow -/

/-- `parse_flow`, of flow `idx`.  The name is only looked at. -/
def parseFlow (inet : Inet) (idx : ℕ) (m : Option PwYamlNode) : Except PwFailure PwFlow := do
  let path := s!"flows[{idx}]"
  let m ← reqMap m path
  let id ← reqField m "id" path u32 (diag .parse path "id must be unsigned integer")
  let _name ← getScalar m "name" path false
  let txGlobalPort ← reqField m "tx_global_port" path u16
    (diag .parse path "tx_global_port must be unsigned integer")
  let rxGlobalPort ← reqField m "rx_global_port" path u16
    (diag .parse path "rx_global_port must be unsigned integer")
  let logicalIfId ← optField m "logical_if_id" path u32 0
    (diag .parse path "logical_if_id must be unsigned integer")
  let l2 ← parseFlowL2 m path
  let (ipv4, ipv6) ← parseIpEndpoint inet m path
  let encap ← parseEncap inet m path
  let rxExpect ← optField m "rx_expect" path (keyword rxExpectWords) .inner
    (diag .parse path "rx_expect must be inner|tunneled")
  let udp ← parseFlowL4 m path
  let traffic ← parseTraffic m path
  let meas ← parseMeas m path
  let mod ← parseModifiers inet m path ipv6.present
  let background ← optField m "background" path pwParseBool false
    (diag .parse path "background must be true/false")
  let mt ← parseMatch m path ipv6.present
  let classifyHeader ← optField m "classify" path
    (keyword [("header", true), ("map", false)]) false
    (diag .inval path "classify must be map|header")
  pure {
    id, txGlobalPort, rxGlobalPort, logicalIfId, l2, ipv4, ipv6, udp, traffic, meas, mod
    background, encap, rxExpect
    matchUdpDstMask := mt.udpDst, matchIpv4DstMask := mt.ipv4Dst
    matchIpv6DstSet := mt.ipv6Dst.isSome, matchIpv6DstMask := mt.ipv6Dst.getD 0
    matchIpv6SrcSet := mt.ipv6Src.isSome, matchIpv6SrcMask := mt.ipv6Src.getD 0
    classifyHeader }

example : pwParseMac (ascii "02:a5:02:00:00:01") = some 0x02A502000001 := by decide

end PacketWyrm
