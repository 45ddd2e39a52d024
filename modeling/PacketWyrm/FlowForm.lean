import PacketWyrm.FlowParse
import PacketWyrm.Lib.Numerals

/-!
# The form of the web interface

A flow goes to the web interface as the object of `flow_to_form_json`, becomes the model of the form
in `flowFromJson`, and comes back as the object of `flowObj`, which js-yaml writes and the daemon
parses.  An object of JavaScript is its members in order, a member that is missing is undefined, and
a number is an integer that a double can hold.

## Main definitions

* `JsValue`, `assign` — values, and `Object.assign`.
* `flowToFormJson` — the daemon's half.
* `flowFromJson`, `flowObj` — the interface's half.
* `JsValue.toYaml` — the tree of an object, scalar by scalar.

## Main results

* `flowFromJson_flowToFormJson` — the form's model is the object that was sent.
-/

namespace PacketWyrm

open Lib

/-! ## Values -/

/-- A value of JavaScript. -/
inductive JsValue where
  | num (n : ℤ)
  | bool (b : Bool)
  | str (s : List Byte)
  | obj (members : List (String × JsValue))

abbrev JsObject := List (String × JsValue)

namespace JsValue

/-- A JSON number, as `JSON.parse` reads it. -/
def ofJson (n : ℤ) : JsValue := .num (n.sign * roundDouble n.natAbs)

/-- A string that is written out. -/
def lit (s : String) : JsValue := .str (ascii s)

end JsValue

/-- `Number.prototype.toString`. -/
def numberToString (n : ℤ) : List Byte :=
  (if n < 0 then [0x2D] else []) ++ numeral 10 (shortest n.natAbs 20)

/-- `String(v)`. -/
def jsString : Option JsValue → List Byte
  | none => ascii "undefined"
  | some (.num n) => numberToString n
  | some (.bool b) => if b then ascii "true" else ascii "false"
  | some (.str s) => s
  | some (.obj _) => ascii "[object Object]"

/-- What counts as true. -/
def truthy : Option JsValue → Bool
  | none => false
  | some (.num n) => n != 0
  | some (.bool b) => b
  | some (.str s) => s != []
  | some (.obj _) => true

/-- `v === s`, for a string. -/
def isString (v : Option JsValue) (s : String) : Bool :=
  match v with
  | some (.str t) => t == ascii s
  | _ => false

/-- `setv`. -/
def setv (v : Option JsValue) : Bool :=
  match v with
  | none => false
  | some (.str s) => s != []
  | some _ => true

/-- The members of a value that is there. -/
def members : Option JsValue → JsObject
  | some (.obj o) => o
  | _ => []

/-- `Object.assign`. -/
def assign (base j : JsObject) : JsObject :=
  base.map (fun kv => (kv.1, (j.lookup kv.1).getD kv.2)) ++
    j.filter fun kv => (base.lookup kv.1).isNone

/-- A decimal integer: `/^-?\d+$/`. -/
def isDecimal (s : List Byte) : Bool :=
  let ds := if s.head? = some 0x2D then s.tail else s
  ds != [] && ds.all isDigit

/-- `scalar`. -/
def scalar (v : Option JsValue) : JsValue :=
  match v with
  | some (.num n) => .num n
  | some (.bool b) => .bool b
  | v =>
    let s := jsString v
    if isDecimal s then
      let ds := if s.head? = some 0x2D then s.tail else s
      .ofJson (if s.head? = some 0x2D then -decimal ds else decimal ds)
    else .str s

/-! ## From the daemon -/

/-- The bytes of a MAC address. -/
def macBytes (m : BitVec 48) : List Byte :=
  [m.extractLsb' 40 8, m.extractLsb' 32 8, m.extractLsb' 24 8, m.extractLsb' 16 8,
    m.extractLsb' 8 8, m.extractLsb' 0 8]

/-- `js_mac`. -/
def jsMac (m : BitVec 48) : JsValue :=
  .str ([0x3A].intercalate ((macBytes m).map fun b => padded 2 16 b.toNat))

/-- `0x%0wx`. -/
def hexText (w n : ℕ) : List Byte := ascii "0x" ++ padded w 16 n

/-- `modestr`. -/
def modestr : PwFieldMode → String
  | .increment => "increment"
  | .random => "random"
  | .static => "static"

/-- `add_mod_u64`. -/
def addModU64 (mod : PwFieldMod) : JsValue :=
  .obj [("mode", .lit (modestr mod.mode)),
    ("mask",
      if mod.mode ≠ .static ∧ mod.mask ≠ 0 then .str (hexText 1 mod.mask.toNat) else .str [])]

/-- `add_mod_v6`. -/
def addModV6 (inet : Inet) (mode : PwFieldMode) (mask16 : BitVec 128) (active : Bool) : JsValue :=
  .obj [("mode", .lit (if active then modestr mode else "static")),
    ("mask", if active = true ∧ mode ≠ .static ∧ mask16 ≠ 0 then .str (inet.ntop6 mask16)
      else .str [])]

/-- The name of a payload. -/
def payloadName : PwPayloadMode → String
  | .zero => "zero"
  | .prbs => "prbs"
  | .random => "random"
  | .increment => "increment"

/-- The name of a frame template. -/
def templateName : PwFrameTemplate → String
  | .l4raw => "raw"
  | .l3raw => "ip"
  | .l2raw => "eth"
  | .test => "test"

/-- The name of a tunnel. -/
def encapName : PwEncapKind → String
  | .ipip => "ipip"
  | .gre => "gre"
  | .etherip => "etherip"
  | .none => "none"

/-- The member `match`: the fields that are narrowed. -/
def matchJson (f : PwFlow) : JsObject :=
  [("udp_dst", if f.matchUdpDstMask ≠ 0xFFFF then .str (hexText 1 f.matchUdpDstMask.toNat)
      else .str []),
    ("ipv4_dst", if f.matchIpv4DstMask ≠ 0xFFFFFFFF then .str (hexText 1 f.matchIpv4DstMask.toNat)
      else .str []),
    ("ipv6_dst_prefix", if f.matchIpv6DstSet then .ofJson (v6PrefixLen f.matchIpv6DstMask)
      else .str []),
    ("ipv6_src_prefix", if f.matchIpv6SrcSet then .ofJson (v6PrefixLen f.matchIpv6SrcMask)
      else .str [])]

/-- The member `mods`. -/
def modsJson (inet : Inet) (f : PwFlow) : JsObject :=
  let v6 := f.ipv6.present
  [("src_ipv4", addModU64 (if v6 then {} else f.mod.srcIpv4)),
    ("dst_ipv4", addModU64 (if v6 then {} else f.mod.dstIpv4)),
    ("src_ipv6", addModV6 inet f.mod.srcIpv4.mode f.mod.srcIpv6Mask v6),
    ("dst_ipv6", addModV6 inet f.mod.dstIpv4.mode f.mod.dstIpv6Mask v6),
    ("udp_src", addModU64 f.mod.udpSrc),
    ("udp_dst", addModU64 f.mod.udpDst),
    ("src_mac", addModU64 f.mod.srcMac),
    ("dst_mac", addModU64 f.mod.dstMac),
    ("vlan", addModU64 f.mod.vlan)]

/-- The member `encap`. -/
def encapJson (inet : Inet) (e : PwFlowEncap) : JsObject :=
  let v6 := e.outerIpv6.present
  let inner := e.present && e.innerMacSet
  [("type", .lit (if e.present then encapName e.type else "none")),
    ("l3", .lit (if v6 then "ipv6" else "ipv4")),
    ("src", if e.present then
        .str (if v6 then inet.ntop6 e.outerIpv6.src else inet.ntop4 e.outerIpv4.src)
      else .str []),
    ("dst", if e.present then
        .str (if v6 then inet.ntop6 e.outerIpv6.dst else inet.ntop4 e.outerIpv4.dst)
      else .str []),
    ("ttl", if e.present then
        .ofJson (if v6 then e.outerIpv6.hopLimit.toNat else e.outerIpv4.ttl.toNat)
      else .str []),
    ("dscp", if e.present then
        .ofJson (if v6 then e.outerIpv6.dscp.toNat else e.outerIpv4.dscp.toNat)
      else .str []),
    ("inner_src_mac", if inner then jsMac e.innerSrcMac else .str []),
    ("inner_dst_mac", if inner then jsMac e.innerDstMac else .str [])]

/-- `flow_to_form_json`, of a flow with this name. -/
def flowToFormJson (inet : Inet) (name : List Byte) (f : PwFlow) : JsObject :=
  let v6 := f.ipv6.present
  let tcp := f.udp.l4Proto == 6
  let t := f.traffic
  [("id", .ofJson f.id.toInt),
    ("name", .str name),
    ("tx", .ofJson f.txGlobalPort.toNat),
    ("rx", .ofJson f.rxGlobalPort.toNat),
    ("src_mac", jsMac f.l2.srcMac),
    ("dst_mac", jsMac f.l2.dstMac),
    ("vlan", if f.l2.vlanSet then .ofJson f.l2.vlan.toNat else .str []),
    ("ethertype", if f.l2.ethertype ≠ 0 then .str (hexText 4 f.l2.ethertype.toNat) else .str []),
    ("l3", .lit (if v6 then "ipv6" else "ipv4")),
    ("ip_src", .str (if v6 then inet.ntop6 f.ipv6.src else inet.ntop4 f.ipv4.src)),
    ("ip_dst", .str (if v6 then inet.ntop6 f.ipv6.dst else inet.ntop4 f.ipv4.dst)),
    ("ttl", .ofJson (if v6 then f.ipv6.hopLimit.toNat else f.ipv4.ttl.toNat)),
    ("l4", .lit (if tcp then "tcp" else "udp")),
    ("sport", .ofJson f.udp.srcPort.toNat),
    ("dport", .ofJson f.udp.dstPort.toNat),
    ("tcp_flags", if tcp then .str (hexText 2 f.udp.tcpFlags.toNat) else .str []),
    ("frame_len", .ofJson (if t.frameLenFixedSet then t.frameLenFixed else t.frameLenMin).toNat),
    ("rate_mode", .lit (if t.ratePps ≠ 0 then "pps" else "bps")),
    ("rate", .ofJson (if t.ratePps ≠ 0 then t.ratePps else t.rateBps).toInt),
    ("payload", .lit (payloadName t.payloadMode)),
    ("frame_template", .lit (templateName t.frameTemplate)),
    ("seq", .bool t.insertSequence),
    ("ts", .bool t.insertTimestamp),
    ("m_loss", .bool f.meas.loss),
    ("m_lat", .bool f.meas.latency),
    ("m_jit", .bool f.meas.jitter),
    ("classify", .lit (if f.classifyHeader then "header" else "map")),
    ("background", .bool f.background),
    ("match", .obj (matchJson f)),
    ("mods", .obj (modsJson inet f)),
    ("encap", .obj (encapJson inet f.encap)),
    ("rx_expect", .lit (if f.rxExpect = .tunneled then "tunneled" else "inner"))]

/-! ## In the form -/

/-- `MOD_FIELDS`. -/
def modFields : List String :=
  ["src_ipv4", "dst_ipv4", "src_ipv6", "dst_ipv6", "udp_src", "udp_dst", "src_mac", "dst_mac",
    "vlan"]

/-- A modifier that does nothing. -/
def newMod : JsObject := [("mode", .lit "static"), ("mask", .str [])]

/-- `newMods`. -/
def newMods : JsObject := modFields.map fun k => (k, .obj newMod)

/-- The match of a new flow. -/
def newMatch : JsObject :=
  [("udp_dst", .str []), ("ipv4_dst", .str []), ("ipv6_dst_prefix", .str []),
    ("ipv6_src_prefix", .str [])]

/-- The tunnel of a new flow. -/
def newEncap : JsObject :=
  [("type", .lit "none"), ("l3", .lit "ipv4"), ("src", .str []), ("dst", .str []), ("ttl", .str []),
    ("dscp", .str []), ("inner_src_mac", .str []), ("inner_dst_mac", .str [])]

/-- `newFlow`, with the next free number. -/
def newFlow (id : ℤ) : JsObject :=
  [("id", .num id), ("name", .str []), ("tx", .num 0), ("rx", .num 1),
    ("src_mac", .lit "02:a5:02:00:00:01"), ("dst_mac", .lit "02:a5:02:00:00:02"),
    ("vlan", .str []), ("ethertype", .str []), ("l3", .lit "ipv4"), ("ip_src", .lit "192.0.2.1"),
    ("ip_dst", .lit "192.0.2.2"), ("ttl", .num 64), ("l4", .lit "udp"), ("sport", .num 49152),
    ("dport", .num 50001), ("tcp_flags", .str []), ("frame_len", .num 512),
    ("rate_mode", .lit "bps"), ("rate", .num 1000000000), ("payload", .lit "increment"),
    ("frame_template", .lit "test"), ("seq", .bool true), ("ts", .bool true),
    ("m_loss", .bool true), ("m_lat", .bool true), ("m_jit", .bool true), ("classify", .lit "map"),
    ("background", .bool false), ("match", .obj newMatch), ("mods", .obj newMods),
    ("encap", .obj newEncap), ("rx_expect", .lit "inner")]

/-- `flowFromJson`. -/
def flowFromJson (id : ℤ) (j : JsObject) : JsObject :=
  let jm := members (j.lookup "mods")
  assign (assign (newFlow id) j)
    [("match", .obj (assign newMatch (members (j.lookup "match")))),
      ("mods", .obj (newMods.map fun kv =>
        (kv.1, if truthy (jm.lookup kv.1) then .obj (assign newMod (members (jm.lookup kv.1)))
          else kv.2))),
      ("encap", .obj (assign newEncap (members (j.lookup "encap"))))]

/-- **The form's model of a flow is the object that was sent.** -/
theorem flowFromJson_flowToFormJson (id : ℤ) (inet : Inet) (name : List Byte) (f : PwFlow) :
    flowFromJson id (flowToFormJson inet name f) = flowToFormJson inet name f := rfl

/-! ## Back to the daemon -/

/-- A member that is there when something holds. -/
def memberIf (c : Bool) (key : String) (v : JsValue) : JsObject := if c then [(key, v)] else []

/-- `o[key] = v`. -/
def setMember (o : JsObject) (key : String) (v : JsValue) : JsObject := assign o [(key, v)]

/-- A value that names a member. -/
def propertyKey (v : Option JsValue) : String :=
  String.ofList ((jsString v).map fun b => Char.ofNat b.toNat)

section FlowObj

variable (f : JsObject)

/-- `l2` of `flowObj`. -/
def l2Obj : JsObject :=
  [("src_mac", .str (jsString (f.lookup "src_mac"))),
    ("dst_mac", .str (jsString (f.lookup "dst_mac")))] ++
    memberIf (setv (f.lookup "vlan")) "vlan" (scalar (f.lookup "vlan")) ++
    memberIf (setv (f.lookup "ethertype")) "ethertype" (scalar (f.lookup "ethertype"))

/-- `ip` of `flowObj`, for IPv6 or IPv4. -/
def ipObj (v6 : Bool) : JsObject :=
  [("src", .str (jsString (f.lookup "ip_src"))), ("dst", .str (jsString (f.lookup "ip_dst")))] ++
    memberIf (truthy (f.lookup "ttl")) (if v6 then "hop_limit" else "ttl") (scalar (f.lookup "ttl"))

/-- `l4` of `flowObj`. -/
def l4Obj : JsObject :=
  [("src_port", scalar (f.lookup "sport")), ("dst_port", scalar (f.lookup "dport"))] ++
    memberIf (isString (f.lookup "l4") "tcp" && truthy (f.lookup "tcp_flags")) "flags"
      (scalar (f.lookup "tcp_flags"))

/-- `raw` of `flowObj`. -/
def isRaw : Bool :=
  truthy (f.lookup "frame_template") && !isString (f.lookup "frame_template") "test"

/-- `tr` of `flowObj`. -/
def trafficObj : JsObject :=
  [("frame_len", scalar (f.lookup "frame_len")),
    (if isString (f.lookup "rate_mode") "pps" then "rate_pps" else "rate_bps",
      scalar (f.lookup "rate")),
    ("payload", .str (jsString (f.lookup "payload"))),
    ("insert_sequence", .bool (truthy (f.lookup "seq"))),
    ("insert_timestamp", .bool (truthy (f.lookup "ts")))] ++
    memberIf (isRaw f) "frame_template" (.str (jsString (f.lookup "frame_template")))

/-- The measurements of `flowObj`. -/
def measObj : JsObject :=
  [("loss", .bool (truthy (f.lookup "m_loss"))), ("latency", .bool (truthy (f.lookup "m_lat"))),
    ("jitter", .bool (truthy (f.lookup "m_jit")))]

/-- How `flowObj` has the flow classified. -/
def classifyObj : JsObject :=
  if isRaw f then [("classify", .lit "header")]
  else memberIf (truthy (f.lookup "classify") && !isString (f.lookup "classify") "map") "classify"
    (.str (jsString (f.lookup "classify")))

end FlowObj

/-- `mo` of `flowObj`. -/
def matchObj (m : JsObject) : JsObject :=
  ["udp_dst", "ipv4_dst", "ipv6_dst_prefix", "ipv6_src_prefix"].flatMap fun k =>
    memberIf (setv (m.lookup k)) k (scalar (m.lookup k))

/-- One modifier of `flowObj`. -/
def modObj (md : JsObject) : JsObject :=
  [("mode", .str (jsString (md.lookup "mode")))] ++
    memberIf (setv (md.lookup "mask")) "mask" (scalar (md.lookup "mask"))

/-- A modifier that is left out. -/
def isIdle (v : JsValue) : Bool :=
  !truthy (some v) || !truthy ((members (some v)).lookup "mode") ||
    isString ((members (some v)).lookup "mode") "static"

/-- `mdo` of `flowObj`. -/
def modsObj (mods : JsObject) : JsObject :=
  mods.flatMap fun kv => memberIf (!isIdle kv.2) kv.1 (.obj (modObj (members (some kv.2))))

/-- `inner` of `flowObj`: the outer addresses of a tunnel. -/
def outerObj (e : JsObject) (v6 : Bool) : JsObject :=
  [("src", .str (jsString (e.lookup "src"))), ("dst", .str (jsString (e.lookup "dst")))] ++
    memberIf (setv (e.lookup "ttl")) (if v6 then "hop_limit" else "ttl")
      (scalar (e.lookup "ttl")) ++
    memberIf (setv (e.lookup "dscp")) "dscp" (scalar (e.lookup "dscp"))

/-- `String(v || "")`. -/
def stringOrEmpty (v : Option JsValue) : List Byte := if truthy v then jsString v else []

/-- `enc` of `flowObj`. -/
def encapObj (e : JsObject) : JsObject :=
  let v6 := isString (e.lookup "l3") "ipv6"
  [("type", .str (jsString (e.lookup "type"))),
    ("outer", .obj [(if v6 then "ipv6" else "ipv4", .obj (outerObj e v6))])] ++
    memberIf (isString (e.lookup "type") "etherip" &&
      (truthy (e.lookup "inner_src_mac") || truthy (e.lookup "inner_dst_mac"))) "inner_l2"
      (.obj [("src_mac", .str (stringOrEmpty (e.lookup "inner_src_mac"))),
        ("dst_mac", .str (stringOrEmpty (e.lookup "inner_dst_mac")))])

/-- The tunnel of `flowObj`, with what is said of its receive side. -/
def tunnelObj (f : JsObject) : JsObject :=
  let e := members (f.lookup "encap")
  if truthy (e.lookup "type") && !isString (e.lookup "type") "none" then
    [("encap", .obj (encapObj e))] ++
      memberIf (truthy (f.lookup "rx_expect") && !isString (f.lookup "rx_expect") "inner")
        "rx_expect" (.str (jsString (f.lookup "rx_expect")))
  else []

/-- `flowObj`, up to the addresses. -/
def headObj (f : JsObject) : JsObject :=
  let v6 := isString (f.lookup "l3") "ipv6"
  [("id", scalar (f.lookup "id"))] ++
    memberIf (truthy (f.lookup "name")) "name" (.str (jsString (f.lookup "name"))) ++
    [("tx_global_port", scalar (f.lookup "tx")), ("rx_global_port", scalar (f.lookup "rx")),
      ("l2", .obj (l2Obj f)), (if v6 then "ipv6" else "ipv4", .obj (ipObj f v6))]

/-- `flowObj`. -/
def flowObj (f : JsObject) : JsObject :=
  let mo := matchObj (members (f.lookup "match"))
  let mdo := modsObj (members (f.lookup "mods"))
  setMember (headObj f) (propertyKey (f.lookup "l4")) (.obj (l4Obj f)) ++
    [("traffic", .obj (trafficObj f))] ++
    memberIf (!isRaw f) "measurements" (.obj (measObj f)) ++
    classifyObj f ++
    memberIf (truthy (f.lookup "background")) "background" (.bool true) ++
    memberIf (!mo.isEmpty) "match" (.obj mo) ++
    memberIf (!mdo.isEmpty) "modifiers" (.obj mdo) ++
    tunnelObj f

mutual

/-- The tree that a value is written and read as, scalar by scalar. -/
def JsValue.toYaml : JsValue → PwYamlNode
  | .num n => .scalar (numberToString n)
  | .bool b => .scalar (if b then ascii "true" else ascii "false")
  | .str s => .scalar s
  | .obj o => .map (membersToYaml o)

/-- The pairs of an object. -/
def membersToYaml : JsObject → List (List Byte × PwYamlNode)
  | [] => []
  | (k, v) :: o => (ascii k, v.toYaml) :: membersToYaml o

end

end PacketWyrm
