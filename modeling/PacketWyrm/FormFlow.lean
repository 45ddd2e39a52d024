import PacketWyrm.FormBlocks

/-!
# A flow of the form is read back

The blocks that the form leaves out when they say nothing, and then the whole mapping of a flow: the
object of `flowObj` has a normal form, and `parse_flow` makes of it the flow again, but for the
settings that the form does not carry.

## Main definitions

* `measForm`, `modsForm`, `matchForm`, `flowForm` — the blocks, and the mapping.
* `PwFlow.reapplied` — what comes back of a flow.

## Main results

* `flowObj_form` — the object of a flow that went through the form.
* `parseFlow_form` — what is parsed of it.
-/

namespace PacketWyrm

open Lib

@[simp] theorem memberIf_eq_nil {c : Bool} {k : String} {v : JsValue} :
    memberIf c k v = [] ↔ c = false := by
  cases c <;> simp [memberIf]

section Blocks

variable (inet : Inet) (name : List Byte) (f : PwFlow)

/-! ## Measurements -/

/-- The block `measurements` of a flow that went through the form. -/
def measForm (m : PwFlowMeas) : JsObject :=
  [("loss", .bool m.loss), ("latency", .bool m.latency), ("jitter", .bool m.jitter)]

theorem measObj_form : measObj (flowToFormJson inet name f) = measForm f.meas := rfl

theorem parseMeas_form {o : JsObject} (ho : PlainKeys o) {m : PwFlowMeas} {c : Bool}
    (hno : c = false → m = {})
    (h : o.lookup "measurements" = if c then some (.obj (measForm m)) else none) (path : String) :
    parseMeas (JsValue.obj o).toYaml path = .ok m := by
  rw [parseMeas, pwYamlMapGet_toYaml ho (by decide), h]
  cases c with
  | false =>
    rw [hno rfl]
    rfl
  | true =>
    have hb : PlainKeys (measForm m) := by
      simp only [measForm, plainKeys_cons, plainKeys_nil, and_true]
      decide
    have hloss : (measForm m).lookup "loss" = if true then some (.bool m.loss) else none := rfl
    have hlat : (measForm m).lookup "latency" = if true then some (.bool m.latency) else none := rfl
    have hjit : (measForm m).lookup "jitter" = if true then some (.bool m.jitter) else none := rfl
    rw [if_pos rfl, Option.map_some]
    dsimp only
    rw [bind_of_eq_ok (reqMap_toYaml _ _),
      bind_of_eq_ok (optField_of_lookup hb (by decide) _ hloss (fun _ => reads_bool _) _ _),
      bind_of_eq_ok (optField_of_lookup hb (by decide) _ hlat (fun _ => reads_bool _) _ _),
      bind_of_eq_ok (optField_of_lookup hb (by decide) _ hjit (fun _ => reads_bool _) _ _)]
    rfl

/-! ## Modifiers -/

/-- A modifier of a flow that went through the form. -/
def modForm (x : PwFieldMod) : JsObject :=
  [("mode", .lit (modestr x.mode))] ++ memberIf (x.mask != 0) "mask" (.str (hexText 1 x.mask.toNat))

/-- A modifier of an IPv6 address. -/
def modFormV6 (mode : PwFieldMode) (mask16 : BitVec 128) : JsObject :=
  [("mode", .lit (modestr mode))] ++ memberIf (mask16 != 0) "mask" (.str (inet.ntop6 mask16))

/-- What comes back of a modifier: nothing of one that is static. -/
def PwFieldMod.reapplied (x : PwFieldMod) : PwFieldMod := if x.active then x else {}

/-- What comes back of the modifiers. -/
def PwFlowModifiers.reapplied (m : PwFlowModifiers) : PwFlowModifiers where
  srcIpv4 := m.srcIpv4.reapplied
  dstIpv4 := m.dstIpv4.reapplied
  udpSrc := m.udpSrc.reapplied
  udpDst := m.udpDst.reapplied
  srcMac := m.srcMac.reapplied
  dstMac := m.dstMac.reapplied
  vlan := m.vlan.reapplied
  srcIpv6Mask := if m.srcIpv4.active then m.srcIpv6Mask else 0
  dstIpv6Mask := if m.dstIpv4.active then m.dstIpv6Mask else 0

theorem keyword_modestr : ∀ m, keyword modeWords (ascii (modestr m)) = some m
  | .static => by decide
  | .increment => by decide
  | .random => by decide

theorem plain_modestr : ∀ m, Plain (modestr m)
  | .static => by decide
  | .increment => by decide
  | .random => by decide

theorem memberIf_congr {c : Bool} {k : String} {v v' : JsValue} (h : c = true → v = v') :
    memberIf c k v = memberIf c k v' := by
  cases c with
  | false => rfl
  | true => rw [h rfl]

theorem isIdle_mode (mode : PwFieldMode) (v : JsValue) :
    isIdle (.obj [("mode", .lit (modestr mode)), ("mask", v)]) = (mode == .static) := by
  have hobj : truthy (some (.obj [("mode", .lit (modestr mode)), ("mask", v)])) = true := rfl
  have hmode : (members (some (.obj [("mode", .lit (modestr mode)), ("mask", v)]))).lookup "mode" =
      some (.lit (modestr mode)) := rfl
  rw [isIdle, hobj, hmode]
  cases mode <;> decide

/-- A mask is written when it has bits. -/
theorem modObj_mode (mode : PwFieldMode) {c : Bool} {s : List Byte}
    (hs : scalar (some (.str s)) = .str s) (hne : s ≠ []) :
    modObj [("mode", .lit (modestr mode)), ("mask", if c then .str s else .str [])] =
      [("mode", .lit (modestr mode))] ++ memberIf c "mask" (.str s) := by
  cases c with
  | false => rfl
  | true =>
    have hset : setv (some (.str s)) = true := bne_iff_ne.mpr hne
    have hmask : List.lookup "mask" [("mode", JsValue.lit (modestr mode)), ("mask", .str s)] =
        some (.str s) := rfl
    rw [if_pos rfl, modObj, hmask, hset, hs]
    rfl

theorem hexText_ne_nil (w n : ℕ) : hexText w n ≠ [] := List.cons_ne_nil _ _

/-- A modifier that is idle is left out, the others have their normal form. -/
theorem modEntry (x : PwFieldMod) (key : String) :
    memberIf (!isIdle (addModU64 x)) key (.obj (modObj (members (some (addModU64 x))))) =
      memberIf x.active key (.obj (modForm x)) := by
  rw [addModU64, isIdle_mode]
  refine memberIf_congr fun hactive => congrArg JsValue.obj ?_
  have hne : x.mode ≠ .static := bne_iff_ne.mp hactive
  have hmask : (if x.mode ≠ .static ∧ x.mask ≠ 0 then
      JsValue.str (hexText 1 x.mask.toNat) else .str []) =
      if x.mask != 0 then .str (hexText 1 x.mask.toNat) else .str [] := by
    simp [hne]
  rw [hmask]
  exact modObj_mode x.mode (scalar_hexText _ _) (hexText_ne_nil _ _)

/-- The block `modifiers` of a flow that went through the form. -/
def modsForm (inet : Inet) (v6 : Bool) (m : PwFlowModifiers) : JsObject :=
  memberIf (!v6 && m.srcIpv4.active) "src_ipv4" (.obj (modForm m.srcIpv4)) ++
    memberIf (!v6 && m.dstIpv4.active) "dst_ipv4" (.obj (modForm m.dstIpv4)) ++
    memberIf (v6 && m.srcIpv4.active) "src_ipv6"
      (.obj (modFormV6 inet m.srcIpv4.mode m.srcIpv6Mask)) ++
    memberIf (v6 && m.dstIpv4.active) "dst_ipv6"
      (.obj (modFormV6 inet m.dstIpv4.mode m.dstIpv6Mask)) ++
    memberIf m.udpSrc.active "udp_src" (.obj (modForm m.udpSrc)) ++
    memberIf m.udpDst.active "udp_dst" (.obj (modForm m.udpDst)) ++
    memberIf m.srcMac.active "src_mac" (.obj (modForm m.srcMac)) ++
    memberIf m.dstMac.active "dst_mac" (.obj (modForm m.dstMac)) ++
    memberIf m.vlan.active "vlan" (.obj (modForm m.vlan))

theorem plainKeys_modsForm (v6 : Bool) (m : PwFlowModifiers) :
    PlainKeys (modsForm inet v6 m) := by
  simp only [modsForm, plainKeys_append]
  exact ⟨⟨⟨⟨⟨⟨⟨⟨plainKeys_memberIf _ (by decide) _, plainKeys_memberIf _ (by decide) _⟩,
    plainKeys_memberIf _ (by decide) _⟩, plainKeys_memberIf _ (by decide) _⟩,
    plainKeys_memberIf _ (by decide) _⟩, plainKeys_memberIf _ (by decide) _⟩,
    plainKeys_memberIf _ (by decide) _⟩, plainKeys_memberIf _ (by decide) _⟩,
    plainKeys_memberIf _ (by decide) _⟩

theorem parseFieldMod_form {o : JsObject} (ho : PlainKeys o) {key : String} (hkey : Plain key)
    {x : PwFieldMod} (hx : x.Written)
    (h : o.lookup key = if x.active then some (.obj (modForm x)) else none) (path : String) :
    parseFieldMod (JsValue.obj o).toYaml key path = .ok x.reapplied := by
  rw [parseFieldMod, pwYamlMapGet_toYaml ho hkey, h, PwFieldMod.reapplied]
  cases x.active with
  | false => rfl
  | true =>
    have hb : PlainKeys (modForm x) := by
      rw [modForm, plainKeys_append, plainKeys_cons]
      exact ⟨⟨by decide, plainKeys_nil⟩, plainKeys_memberIf _ (by decide) _⟩
    have hmode : (modForm x).lookup "mode" =
        if true then some (.lit (modestr x.mode)) else none := rfl
    have hmask : (modForm x).lookup "mask" =
        if x.mask != 0 then some (.str (hexText 1 x.mask.toNat)) else none := by
      simp [modForm, lookup_cons_if, lookup_memberIf]
    have hreads : Reads (.str (hexText 1 x.mask.toNat))
        (fun s => (u64 s).filter fun v => v.toNat ≤ 0xFFFFFFFFFFFF) x.mask :=
      Reads.filter (reads_hexText (by decide) x.mask.isLt u64_of_parse) (decide_eq_true hx)
    rw [if_pos rfl, Option.map_some]
    dsimp only
    rw [bind_of_eq_ok (reqMap_toYaml _ _),
      bind_of_eq_ok (optField_of_lookup hb (by decide) _ hmode
        (fun _ => reads_lit (plain_modestr _) (keyword_modestr _)) _ _),
      bind_of_eq_ok (optField_of_lookup hb (by decide) _ hmask (fun _ => hreads) _ _), ite_bne]
    rfl

section Lawful

variable {inet} (hinet : inet.Lawful)

include hinet

theorem scalar_ntop6 (a : BitVec 128) :
    scalar (some (.str (inet.ntop6 a))) = .str (inet.ntop6 a) :=
  scalar_str (hinet.colon a) (by decide) (by decide)

theorem modEntryV6 (mode : PwFieldMode) (mask16 : BitVec 128) (v6 : Bool) (key : String) :
    memberIf (!isIdle (addModV6 inet mode mask16 v6)) key
        (.obj (modObj (members (some (addModV6 inet mode mask16 v6))))) =
      memberIf (v6 && mode != .static) key (.obj (modFormV6 inet mode mask16)) := by
  cases v6 with
  | false =>
    rw [addModV6]
    simp only [Bool.false_eq_true, if_false, false_and]
    rw [show "static" = modestr .static from rfl, isIdle_mode]
    rfl
  | true =>
    rw [addModV6]
    simp only [if_true, true_and]
    rw [isIdle_mode]
    refine memberIf_congr fun hactive => congrArg JsValue.obj ?_
    have hne : mode ≠ .static := bne_iff_ne.mp hactive
    have hmask : (if mode ≠ .static ∧ mask16 ≠ 0 then
        JsValue.str (inet.ntop6 mask16) else .str []) =
        if mask16 != 0 then .str (inet.ntop6 mask16) else .str [] := by
      simp [hne]
    rw [hmask]
    exact modObj_mode mode (scalar_ntop6 hinet _)
      (List.ne_nil_of_mem (hinet.colon mask16))

theorem modsObj_form : modsObj (modsJson inet f) = modsForm inet f.ipv6.present f.mod := by
  simp only [modsObj, modsJson, List.flatMap_cons, List.flatMap_nil, modEntry,
    modEntryV6 hinet, List.append_nil]
  cases f.ipv6.present with
  | false =>
    simp only [modsForm, List.append_assoc]
    rfl
  | true =>
    simp only [modsForm, List.append_assoc]
    rfl

theorem parseIpv6Mask_form {o : JsObject} (ho : PlainKeys o) {mask16 : BitVec 128}
    (h : o.lookup "mask" = if mask16 != 0 then some (.str (inet.ntop6 mask16)) else none)
    (path : String) : parseIpv6Mask inet (JsValue.obj o).toYaml path = .ok mask16 := by
  rw [parseIpv6Mask]
  by_cases hm : mask16 = 0
  · rw [hm] at h
    rw [bind_of_eq_ok (getScalar_of_missing ho (by decide) _ h), hm]
  · rw [if_pos (bne_iff_ne.mpr hm)] at h
    rw [bind_of_eq_ok (getScalar_of_lookup ho (by decide) _ h rfl (hinet.null6 _) _)]
    dsimp only
    rw [if_pos (hinet.colon _), hinet.pton6]
    rfl

theorem parseIpv6FieldMod_form {o : JsObject} (ho : PlainKeys o) {key : String} (hkey : Plain key)
    {x : PwFieldMod} {mask16 : BitVec 128} (hx : x.mask = (mask16.setWidth 32).setWidth 64)
    (h : o.lookup key = if x.active then some (.obj (modFormV6 inet x.mode mask16)) else none)
    (path : String) : parseIpv6FieldMod inet (JsValue.obj o).toYaml key path =
      .ok (x.reapplied, if x.active then mask16 else 0) := by
  rw [parseIpv6FieldMod, pwYamlMapGet_toYaml ho hkey, h, PwFieldMod.reapplied]
  cases x.active with
  | false => rfl
  | true =>
    have hb : PlainKeys (modFormV6 inet x.mode mask16) := by
      rw [modFormV6, plainKeys_append, plainKeys_cons]
      exact ⟨⟨by decide, plainKeys_nil⟩, plainKeys_memberIf _ (by decide) _⟩
    have hmode : (modFormV6 inet x.mode mask16).lookup "mode" =
        if true then some (.lit (modestr x.mode)) else none := rfl
    have hmask : (modFormV6 inet x.mode mask16).lookup "mask" =
        if mask16 != 0 then some (.str (inet.ntop6 mask16)) else none := by
      simp [modFormV6, lookup_cons_if, lookup_memberIf]
    rw [if_pos rfl, Option.map_some]
    dsimp only
    rw [bind_of_eq_ok (reqMap_toYaml _ _),
      bind_of_eq_ok (optField_of_lookup hb (by decide) _ hmode
        (fun _ => reads_lit (plain_modestr _) (keyword_modestr _)) _ _),
      bind_of_eq_ok (parseIpv6Mask_form hinet hb hmask _), ← hx]
    rfl

theorem parseAddressMods_form {v6 : Bool} {m : PwFlowModifiers} (hm : m.Written v6)
    (path : String) :
    parseAddressMods inet (JsValue.obj (modsForm inet v6 m)).toYaml path v6 =
      .ok { srcIpv4 := m.srcIpv4.reapplied, dstIpv4 := m.dstIpv4.reapplied
            srcIpv6Mask := if m.srcIpv4.active then m.srcIpv6Mask else 0
            dstIpv6Mask := if m.dstIpv4.active then m.dstIpv6Mask else 0 } := by
  have hb := plainKeys_modsForm inet v6 m
  have hsrc := hm.src
  have hdst := hm.dst
  rw [parseAddressMods]
  cases v6 with
  | true =>
    have hs : (modsForm inet true m).lookup "src_ipv6" = if m.srcIpv4.active then
        some (.obj (modFormV6 inet m.srcIpv4.mode m.srcIpv6Mask)) else none := by
      simp [modsForm, List.lookup_append, lookup_memberIf]
    have hd : (modsForm inet true m).lookup "dst_ipv6" = if m.dstIpv4.active then
        some (.obj (modFormV6 inet m.dstIpv4.mode m.dstIpv6Mask)) else none := by
      simp [modsForm, List.lookup_append, lookup_memberIf]
    rw [if_pos rfl, bind_of_eq_ok (parseIpv6FieldMod_form hinet hb (by decide) hsrc hs _)]
    dsimp only
    rw [bind_of_eq_ok (parseIpv6FieldMod_form hinet hb (by decide) hdst hd _)]
    rfl
  | false =>
    have hs : (modsForm inet false m).lookup "src_ipv4" = if m.srcIpv4.active then
        some (.obj (modForm m.srcIpv4)) else none := by
      simp [modsForm, List.lookup_append, lookup_memberIf]
    have hd : (modsForm inet false m).lookup "dst_ipv4" = if m.dstIpv4.active then
        some (.obj (modForm m.dstIpv4)) else none := by
      simp [modsForm, List.lookup_append, lookup_memberIf]
    rw [if_neg Bool.false_ne_true, bind_of_eq_ok (parseFieldMod_form hb (by decide) hsrc.1 hs _),
      bind_of_eq_ok (parseFieldMod_form hb (by decide) hdst.1 hd _), hsrc.2, hdst.2,
      ite_self, ite_self]
    rfl

/-- **The modifiers come back**, but for what static ones say. -/
theorem parseModifiers_form {o : JsObject} (ho : PlainKeys o) {v6 : Bool} {m : PwFlowModifiers}
    (hm : m.Written v6)
    (h : o.lookup "modifiers" =
      if !(modsForm inet v6 m).isEmpty then some (.obj (modsForm inet v6 m)) else none)
    (path : String) :
    parseModifiers inet (JsValue.obj o).toYaml path v6 = .ok m.reapplied := by
  rw [parseModifiers, pwYamlMapGet_toYaml ho (by decide), h]
  by_cases hnil : modsForm inet v6 m = []
  · rw [hnil]
    simp only [modsForm, List.append_eq_nil_iff, memberIf_eq_nil, Bool.and_eq_false_iff,
      Bool.not_eq_false'] at hnil
    obtain ⟨⟨⟨⟨⟨⟨⟨⟨hs4, hd4⟩, hs6⟩, hd6⟩, hsp⟩, hdp⟩, hsm⟩, hdm⟩, hvl⟩ := hnil
    have hs : m.srcIpv4.active = false := by
      rcases hs4 with hv6 | hs
      · exact hs6.resolve_left (by simp [hv6])
      · exact hs
    have hd : m.dstIpv4.active = false := by
      rcases hd4 with hv6 | hd
      · exact hd6.resolve_left (by simp [hv6])
      · exact hd
    simp [PwFlowModifiers.reapplied, PwFieldMod.reapplied, hs, hd, hsp, hdp, hsm, hdm, hvl]
  · have hb := plainKeys_modsForm inet v6 m
    have hthere : (!(modsForm inet v6 m).isEmpty) = true := by simp [hnil]
    have hsp : (modsForm inet v6 m).lookup "udp_src" =
        if m.udpSrc.active then some (.obj (modForm m.udpSrc)) else none := by
      simp [modsForm, List.lookup_append, lookup_memberIf]
    have hdp : (modsForm inet v6 m).lookup "udp_dst" =
        if m.udpDst.active then some (.obj (modForm m.udpDst)) else none := by
      simp [modsForm, List.lookup_append, lookup_memberIf]
    have hsm : (modsForm inet v6 m).lookup "src_mac" =
        if m.srcMac.active then some (.obj (modForm m.srcMac)) else none := by
      simp [modsForm, List.lookup_append, lookup_memberIf]
    have hdm : (modsForm inet v6 m).lookup "dst_mac" =
        if m.dstMac.active then some (.obj (modForm m.dstMac)) else none := by
      simp [modsForm, List.lookup_append, lookup_memberIf]
    have hvl : (modsForm inet v6 m).lookup "vlan" =
        if m.vlan.active then some (.obj (modForm m.vlan)) else none := by
      simp [modsForm, List.lookup_append, lookup_memberIf]
    rw [if_pos hthere, Option.map_some]
    dsimp only
    rw [bind_of_eq_ok (reqMap_toYaml _ _), bind_of_eq_ok (parseAddressMods_form hinet hm _),
      bind_of_eq_ok (parseFieldMod_form hb (by decide) hm.udpSrc hsp _),
      bind_of_eq_ok (parseFieldMod_form hb (by decide) hm.udpDst hdp _),
      bind_of_eq_ok (parseFieldMod_form hb (by decide) hm.srcMac hsm _),
      bind_of_eq_ok (parseFieldMod_form hb (by decide) hm.dstMac hdm _),
      bind_of_eq_ok (parseFieldMod_form hb (by decide) hm.vlan hvl _)]
    rfl

end Lawful

/-! ## Matches -/

/-- The block `match` of a flow that went through the form. -/
def matchForm : JsObject :=
  memberIf (f.matchUdpDstMask != 0xFFFF) "udp_dst" (.str (hexText 1 f.matchUdpDstMask.toNat)) ++
    memberIf (f.matchIpv4DstMask != 0xFFFFFFFF) "ipv4_dst"
      (.str (hexText 1 f.matchIpv4DstMask.toNat)) ++
    memberIf f.matchIpv6DstSet "ipv6_dst_prefix" (.ofJson (v6PrefixLen f.matchIpv6DstMask)) ++
    memberIf f.matchIpv6SrcSet "ipv6_src_prefix" (.ofJson (v6PrefixLen f.matchIpv6SrcMask))

/-- A text of the match is written when the field is narrowed. -/
theorem matchEntry_str {c : Prop} [Decidable c] {w n : ℕ} (key : String) :
    memberIf (setv (some (if c then .str (hexText w n) else .str []))) key
        (scalar (some (if c then .str (hexText w n) else .str []))) =
      memberIf (decide c) key (.str (hexText w n)) := by
  by_cases hc : c
  · rw [if_pos hc, decide_eq_true hc, scalar_hexText]
    rfl
  · rw [if_neg hc, decide_eq_false hc]
    rfl

/-- A prefix of the match is written when it is set. -/
theorem matchEntry_num (c : Bool) (n : ℤ) (key : String) :
    memberIf (setv (some (if c then .ofJson n else .str []))) key
        (scalar (some (if c then .ofJson n else .str []))) = memberIf c key (.ofJson n) := by
  cases c with
  | false => rfl
  | true => rfl

theorem matchObj_form : matchObj (matchJson f) = matchForm f := by
  have hudp : (matchJson f).lookup "udp_dst" = some (if f.matchUdpDstMask ≠ 0xFFFF then
      .str (hexText 1 f.matchUdpDstMask.toNat) else .str []) := rfl
  have hv4 : (matchJson f).lookup "ipv4_dst" = some (if f.matchIpv4DstMask ≠ 0xFFFFFFFF then
      .str (hexText 1 f.matchIpv4DstMask.toNat) else .str []) := rfl
  have hdst : (matchJson f).lookup "ipv6_dst_prefix" = some (if f.matchIpv6DstSet then
      .ofJson (v6PrefixLen f.matchIpv6DstMask) else .str []) := rfl
  have hsrc : (matchJson f).lookup "ipv6_src_prefix" = some (if f.matchIpv6SrcSet then
      .ofJson (v6PrefixLen f.matchIpv6SrcMask) else .str []) := rfl
  simp only [matchObj, List.flatMap_cons, List.flatMap_nil, hudp, hv4, hdst, hsrc, matchEntry_str,
    matchEntry_num, List.append_nil, matchForm, List.append_assoc]
  simp only [bne, ne_eq, decide_not]
  rfl

theorem plainKeys_matchForm : PlainKeys (matchForm f) := by
  simp only [matchForm, plainKeys_append]
  exact ⟨⟨⟨plainKeys_memberIf _ (by decide) _, plainKeys_memberIf _ (by decide) _⟩,
    plainKeys_memberIf _ (by decide) _⟩, plainKeys_memberIf _ (by decide) _⟩

/-- Every prefix length is read back. -/
theorem strtoulPrefix_numeral : ∀ n < 129, strtoulPrefix (numeral 10 n) = some n := by
  decide +kernel

theorem parsePrefix_form {o : JsObject} (ho : PlainKeys o) {key : String} (hkey : Plain key)
    {v6 set : Bool} {mask : BitVec 128} (hm : PrefixWritten v6 set mask)
    (h : o.lookup key = if set then some (.ofJson (v6PrefixLen mask)) else none) (mp : String) :
    parsePrefix (JsValue.obj o).toYaml key mp v6 = .ok (if set then some mask else none) := by
  rw [parsePrefix]
  cases set with
  | false =>
    rw [bind_of_eq_ok (getScalar_of_missing ho hkey _ h)]
    rfl
  | true =>
    obtain ⟨rfl, n, hn, rfl⟩ := hm
    rw [v6PrefixLen_pwV6PrefixMask hn, if_pos rfl] at h
    rw [bind_of_eq_ok (getScalar_of_lookup ho hkey _ h (toYaml_ofJson (by omega))
      (null_notMem_numeral n) _)]
    dsimp only
    rw [matchIpv6Prefix, strtoulPrefix_numeral n (by omega)]
    rfl

/-- **The match comes back.** -/
theorem parseMatch_form {o : JsObject} (ho : PlainKeys o) {v6 : Bool}
    (hdst : PrefixWritten v6 f.matchIpv6DstSet f.matchIpv6DstMask)
    (hsrc : PrefixWritten v6 f.matchIpv6SrcSet f.matchIpv6SrcMask)
    (h : o.lookup "match" = if !(matchForm f).isEmpty then some (.obj (matchForm f)) else none)
    (path : String) : parseMatch (JsValue.obj o).toYaml path v6 =
      .ok { udpDst := f.matchUdpDstMask, ipv4Dst := f.matchIpv4DstMask
            ipv6Dst := if f.matchIpv6DstSet then some f.matchIpv6DstMask else none
            ipv6Src := if f.matchIpv6SrcSet then some f.matchIpv6SrcMask else none } := by
  rw [parseMatch, pwYamlMapGet_toYaml ho (by decide), h]
  by_cases hnil : matchForm f = []
  · rw [hnil]
    simp only [matchForm, List.append_eq_nil_iff, memberIf_eq_nil, bne_eq_false_iff_eq] at hnil
    obtain ⟨⟨⟨hudp, hv4⟩, hd⟩, hs⟩ := hnil
    rw [hudp, hv4, hd, hs]
    rfl
  · have hb := plainKeys_matchForm f
    have hthere : (!(matchForm f).isEmpty) = true := by simp [hnil]
    have hudp : (matchForm f).lookup "udp_dst" = if f.matchUdpDstMask != 0xFFFF then
        some (.str (hexText 1 f.matchUdpDstMask.toNat)) else none := by
      simp [matchForm, List.lookup_append, lookup_memberIf]
    have hv4 : (matchForm f).lookup "ipv4_dst" = if f.matchIpv4DstMask != 0xFFFFFFFF then
        some (.str (hexText 1 f.matchIpv4DstMask.toNat)) else none := by
      simp [matchForm, List.lookup_append, lookup_memberIf]
    have hd : (matchForm f).lookup "ipv6_dst_prefix" = if f.matchIpv6DstSet then
        some (.ofJson (v6PrefixLen f.matchIpv6DstMask)) else none := by
      simp [matchForm, List.lookup_append, lookup_memberIf]
    have hs : (matchForm f).lookup "ipv6_src_prefix" = if f.matchIpv6SrcSet then
        some (.ofJson (v6PrefixLen f.matchIpv6SrcMask)) else none := by
      simp [matchForm, List.lookup_append, lookup_memberIf]
    rw [if_pos hthere, Option.map_some]
    dsimp only
    rw [bind_of_eq_ok (reqMap_toYaml _ _),
      bind_of_eq_ok (optField_of_lookup hb (by decide) _ hudp (fun _ =>
        reads_hexText (by decide) (lt_trans (BitVec.isLt _) (by decide)) u16_of_parse) _ _),
      bind_of_eq_ok (optField_of_lookup hb (by decide) _ hv4 (fun _ =>
        reads_hexText (by decide) (lt_trans (BitVec.isLt _) (by decide)) u32_of_parse) _ _),
      bind_of_eq_ok (parsePrefix_form hb (by decide) hdst hd _),
      bind_of_eq_ok (parsePrefix_form hb (by decide) hsrc hs _), ite_bne, ite_bne]
    rfl


/-! ## The flow -/

theorem setMember_of_new {o : JsObject} {key : String} (h : o.lookup key = none) (v : JsValue) :
    setMember o key v = o ++ [(key, v)] := by
  have hkeep : o.map (fun kv => (kv.1, (List.lookup kv.1 [(key, v)]).getD kv.2)) = o := by
    rw [List.map_congr_left (g := id), List.map_id]
    intro kv hkv
    have hne : ¬kv.1 = key := fun heq => by
      have := List.lookup_eq_none_iff.mp h kv hkv
      rw [heq, bne_self_eq_false] at this
      exact Bool.false_ne_true this
    rw [lookup_cons_if, if_neg hne]
    rfl
  rw [setMember, assign, hkeep, List.filter_cons, h]
  rfl

theorem one_member (c : Bool) (v : JsValue) :
    [(if c then "tcp" else "udp", v)] = memberIf c "tcp" v ++ memberIf (!c) "udp" v := by
  cases c with
  | false => rfl
  | true => rfl

/-- The mapping of a flow that went through the form. -/
def flowForm : JsObject :=
  [("id", .ofJson f.id.toInt)] ++ memberIf (name != []) "name" (.str name) ++
    [("tx_global_port", .ofJson f.txGlobalPort.toNat),
      ("rx_global_port", .ofJson f.rxGlobalPort.toNat), ("l2", .obj (l2Form f.l2))] ++
    memberIf f.ipv6.present "ipv6" (.obj (ipForm true (inet.ntop6 f.ipv6.src)
      (inet.ntop6 f.ipv6.dst) (formTtl f.ipv6.hopLimit) none)) ++
    memberIf (!f.ipv6.present) "ipv4" (.obj (ipForm false (inet.ntop4 f.ipv4.src)
      (inet.ntop4 f.ipv4.dst) (formTtl f.ipv4.ttl) none)) ++
    memberIf (f.udp.l4Proto == 6) "tcp" (.obj (l4Form f.udp)) ++
    memberIf (!(f.udp.l4Proto == 6)) "udp" (.obj (l4Form f.udp)) ++
    [("traffic", .obj (trafficForm f.traffic))] ++
    memberIf (!(f.traffic.frameTemplate != .test)) "measurements" (.obj (measForm f.meas)) ++
    memberIf f.classifyHeader "classify" (.lit "header") ++
    memberIf f.background "background" (.bool true) ++
    memberIf (!(matchForm f).isEmpty) "match" (.obj (matchForm f)) ++
    memberIf (!(modsForm inet f.ipv6.present f.mod).isEmpty) "modifiers"
      (.obj (modsForm inet f.ipv6.present f.mod)) ++
    memberIf f.encap.present "encap" (.obj (encapForm inet f.encap)) ++
    memberIf (f.encap.present && f.rxExpect == .tunneled) "rx_expect" (.lit "tunneled")

theorem headObj_form : headObj (flowToFormJson inet name f) =
    [("id", .ofJson f.id.toInt)] ++ memberIf (name != []) "name" (.str name) ++
      [("tx_global_port", .ofJson f.txGlobalPort.toNat),
        ("rx_global_port", .ofJson f.rxGlobalPort.toNat), ("l2", .obj (l2Form f.l2))] ++
      memberIf f.ipv6.present "ipv6" (.obj (ipForm true (inet.ntop6 f.ipv6.src)
        (inet.ntop6 f.ipv6.dst) (formTtl f.ipv6.hopLimit) none)) ++
      memberIf (!f.ipv6.present) "ipv4" (.obj (ipForm false (inet.ntop4 f.ipv4.src)
        (inet.ntop4 f.ipv4.dst) (formTtl f.ipv4.ttl) none)) := by
  have hid : (flowToFormJson inet name f).lookup "id" = some (.ofJson f.id.toInt) := rfl
  have hname : (flowToFormJson inet name f).lookup "name" = some (.str name) := rfl
  have htx : (flowToFormJson inet name f).lookup "tx" =
      some (.ofJson f.txGlobalPort.toNat) := rfl
  have hrx : (flowToFormJson inet name f).lookup "rx" =
      some (.ofJson f.rxGlobalPort.toNat) := rfl
  have hl3 : (flowToFormJson inet name f).lookup "l3" =
      some (.lit (if f.ipv6.present then "ipv6" else "ipv4")) := rfl
  rw [headObj, hid, hname, htx, hrx, hl3, l2Obj_form]
  cases hv6 : f.ipv6.present with
  | false =>
    have hno : isString (some (.lit "ipv4")) "ipv6" = false := by decide
    rw [if_neg Bool.false_ne_true, hno, ipObj_ipv4 inet name f hv6]
    simp only [List.append_assoc]
    rfl
  | true =>
    have hyes : isString (some (.lit "ipv6")) "ipv6" = true := by decide
    rw [if_pos rfl, hyes, ipObj_ipv6 inet name f hv6]
    simp only [List.append_assoc]
    rfl

theorem classifyObj_form (hraw : f.traffic.frameTemplate ≠ .test → f.classifyHeader = true) :
    classifyObj (flowToFormJson inet name f) =
      memberIf f.classifyHeader "classify" (.lit "header") := by
  have hcls : (flowToFormJson inet name f).lookup "classify" =
      some (.lit (if f.classifyHeader then "header" else "map")) := rfl
  rw [classifyObj, isRaw_form, hcls]
  by_cases ht : f.traffic.frameTemplate = .test
  · have hno : (f.traffic.frameTemplate != .test) = false := by rw [ht]; rfl
    rw [hno]
    cases f.classifyHeader with
    | false =>
      have hmap : (truthy (some (.lit "map")) && !isString (some (.lit "map")) "map") = false := by
        decide
      rw [if_neg Bool.false_ne_true, if_neg Bool.false_ne_true, hmap]
      rfl
    | true => rfl
  · have hyes : (f.traffic.frameTemplate != .test) = true := bne_iff_ne.mpr ht
    rw [hyes, hraw ht]
    rfl

/-- What comes back of a header. -/
def PwFlowIpv4.reapplied (x : PwFlowIpv4) : PwFlowIpv4 :=
  { x with ttl := (formTtl x.ttl).getD 64, dscp := 0 }

def PwFlowIpv6.reapplied (x : PwFlowIpv6) : PwFlowIpv6 :=
  { x with hopLimit := (formTtl x.hopLimit).getD 64, dscp := 0 }

/-- **What comes back of a flow**, when its rate is read as `v`. -/
def PwFlow.reapplied (f : PwFlow) (v : BitVec 64) : PwFlow :=
  { f with
    logicalIfId := 0
    l2 := f.l2.reapplied
    ipv4 := if f.ipv6.present then f.ipv4 else f.ipv4.reapplied
    ipv6 := if f.ipv6.present then f.ipv6.reapplied else f.ipv6
    traffic := f.traffic.reapplied v
    mod := f.mod.reapplied
    encap := f.encap.reapplied
    rxExpect := if f.encap.present then f.rxExpect else .inner }

theorem plainKeys_flowForm : PlainKeys (flowForm inet name f) := by
  simp only [flowForm, plainKeys_append, plainKeys_cons, plainKeys_nil, and_true]
  simp only [plainKeys_memberIf _ (by decide : Plain "name"),
    plainKeys_memberIf _ (by decide : Plain "ipv6"),
    plainKeys_memberIf _ (by decide : Plain "ipv4"), plainKeys_memberIf _ (by decide : Plain "tcp"),
    plainKeys_memberIf _ (by decide : Plain "udp"),
    plainKeys_memberIf _ (by decide : Plain "measurements"),
    plainKeys_memberIf _ (by decide : Plain "classify"),
    plainKeys_memberIf _ (by decide : Plain "background"),
    plainKeys_memberIf _ (by decide : Plain "match"),
    plainKeys_memberIf _ (by decide : Plain "modifiers"),
    plainKeys_memberIf _ (by decide : Plain "encap"),
    plainKeys_memberIf _ (by decide : Plain "rx_expect"), and_true]
  decide

theorem present_reapplied (v : BitVec 64) : (f.reapplied v).ipv6.present = f.ipv6.present := by
  rw [PwFlow.reapplied]
  cases h : f.ipv6.present with
  | false => exact h
  | true => exact h

theorem getScalar_name (path : String) :
    ∃ s, getScalar (JsValue.obj (flowForm inet name f)).toYaml "name" path false = .ok s := by
  have hb := plainKeys_flowForm inet name f
  have hname : (flowForm inet name f).lookup "name" =
      if name != [] then some (.str name) else none := by
    simp [flowForm, List.lookup_append, lookup_cons_if, lookup_memberIf]
  rw [getScalar, pwYamlMapGet_toYaml hb (by decide), hname]
  cases name != [] with
  | false => exact ⟨none, rfl⟩
  | true => exact ⟨some (cString name), rfl⟩

theorem ite_true_false (b : Bool) : (if b = true then true else false) = b := by
  cases b <;> rfl

theorem isSome_ite (set : Bool) (mask : BitVec 128) :
    (if set = true then some mask else none).isSome = set := by
  cases set <;> rfl

theorem getD_ite {v6 set : Bool} {mask : BitVec 128} (h : PrefixWritten v6 set mask) :
    (if set = true then some mask else none).getD 0 = mask := by
  cases set with
  | false => exact Eq.symm h
  | true => rfl

section Lawful

variable {inet} (hinet : inet.Lawful)

include hinet

/-- **The object of a flow that went through the form.** -/
theorem flowObj_form (hf : f.Written) (hfixed : f.traffic.frameLenFixedSet = true)
    (hraw : f.traffic.frameTemplate ≠ .test → f.classifyHeader = true) :
    flowObj (flowToFormJson inet name f) = flowForm inet name f := by
  have hmatch : members ((flowToFormJson inet name f).lookup "match") = matchJson f := rfl
  have hmods : members ((flowToFormJson inet name f).lookup "mods") = modsJson inet f := rfl
  have hbg : (flowToFormJson inet name f).lookup "background" = some (.bool f.background) := rfl
  have hl4 : propertyKey ((flowToFormJson inet name f).lookup "l4") =
      if f.udp.l4Proto == 6 then "tcp" else "udp" := by
    have hlook : (flowToFormJson inet name f).lookup "l4" =
        some (.lit (if f.udp.l4Proto == 6 then "tcp" else "udp")) := rfl
    rw [hlook]
    cases f.udp.l4Proto == 6 <;> decide
  have hnew : (headObj (flowToFormJson inet name f)).lookup
      (if f.udp.l4Proto == 6 then "tcp" else "udp") = none := by
    rw [headObj_form]
    cases f.udp.l4Proto == 6 <;> simp [List.lookup_append, lookup_cons_if, lookup_memberIf]
  rw [flowObj, hmatch, hmods, hbg, hl4, setMember_of_new hnew, headObj_form, l4Obj_form,
    trafficObj_form inet name f hfixed, isRaw_form, measObj_form,
    classifyObj_form inet name f hraw, matchObj_form, modsObj_form f hinet,
    tunnelObj_form inet name f hf.encap]
  rw [one_member (f.udp.l4Proto == 6)]
  simp only [flowForm, List.append_assoc]
  rfl

/-- The addresses come back. -/
theorem parseInner_form (hf : f.Written) (path : String) :
    parseIpEndpoint inet (JsValue.obj (flowForm inet name f)).toYaml path =
      .ok ((f.reapplied 0).ipv4, (f.reapplied 0).ipv6) := by
  have hb := plainKeys_flowForm inet name f
  have h6 : (flowForm inet name f).lookup "ipv6" = if f.ipv6.present then
      some (.obj (ipForm true (inet.ntop6 f.ipv6.src) (inet.ntop6 f.ipv6.dst)
        (formTtl f.ipv6.hopLimit) none)) else none := by
    simp [flowForm, List.lookup_append, lookup_cons_if, lookup_memberIf]
  have h4 : (flowForm inet name f).lookup "ipv4" = if !f.ipv6.present then
      some (.obj (ipForm false (inet.ntop4 f.ipv4.src) (inet.ntop4 f.ipv4.dst)
        (formTtl f.ipv4.ttl) none)) else none := by
    simp [flowForm, List.lookup_append, lookup_cons_if, lookup_memberIf]
  have hdscp : ((none : Option (BitVec 8)).getD 0).toNat ≤ 63 := by decide
  rcases hf.family with ⟨hv4, -, hno⟩ | ⟨hv6, -, hno⟩
  · have hv6 : f.ipv6.present = false := by rw [hno]
    rw [hv6] at h4 h6
    rw [parseIpEndpoint_ipv4 hinet hb path hdscp h6 h4, PwFlow.reapplied, hv6]
    dsimp only
    rw [if_neg Bool.false_ne_true, if_neg Bool.false_ne_true, hno, PwFlowIpv4.reapplied, hv4]
    rfl
  · rw [hv6] at h4 h6
    rw [parseIpEndpoint_ipv6 hinet hb path hdscp h4 h6, PwFlow.reapplied, hv6]
    dsimp only
    rw [if_pos rfl, if_pos rfl, hno, PwFlowIpv6.reapplied, hv6]
    rfl

/-- **The flow comes back**, if its number and its rate do. -/
theorem parseFlow_form (hf : f.Written) (hfixed : f.traffic.frameLenFixedSet = true)
    (hmeas : f.traffic.frameTemplate ≠ .test → f.meas = {}) (idx : ℕ) {f' : PwFlow} :
    parseFlow inet idx (some (JsValue.obj (flowForm inet name f)).toYaml) = .ok f' ↔
      f.id.toNat < 2 ^ 31 ∧ ∃ v, u64 (signedText f.traffic.rate.toInt) = some v ∧ v ≠ 0 ∧
        f' = f.reapplied v := by
  have hb := plainKeys_flowForm inet name f
  have hid : (flowForm inet name f).lookup "id" = some (.ofJson f.id.toInt) := rfl
  have htx : (flowForm inet name f).lookup "tx_global_port" =
      some (.ofJson f.txGlobalPort.toNat) := by
    simp [flowForm, List.lookup_append, lookup_cons_if, lookup_memberIf]
  have hrx : (flowForm inet name f).lookup "rx_global_port" =
      some (.ofJson f.rxGlobalPort.toNat) := by
    simp [flowForm, List.lookup_append, lookup_cons_if, lookup_memberIf]
  have hlif : (flowForm inet name f).lookup "logical_if_id" = none := by
    simp [flowForm, List.lookup_append, lookup_cons_if, lookup_memberIf]
  have hl2 : (flowForm inet name f).lookup "l2" = some (.obj (l2Form f.l2)) := by
    simp [flowForm, List.lookup_append, lookup_cons_if, lookup_memberIf]
  have hencap : (flowForm inet name f).lookup "encap" =
      if f.encap.present then some (.obj (encapForm inet f.encap)) else none := by
    simp [flowForm, List.lookup_append, lookup_cons_if, lookup_memberIf]
  have hrxe : (flowForm inet name f).lookup "rx_expect" =
      if f.encap.present && f.rxExpect == .tunneled then some (.lit "tunneled") else none := by
    simp [flowForm, List.lookup_append, lookup_cons_if, lookup_memberIf]
  have htcp : (flowForm inet name f).lookup "tcp" =
      if f.udp.l4Proto == 6 then some (.obj (l4Form f.udp)) else none := by
    simp [flowForm, List.lookup_append, lookup_cons_if, lookup_memberIf]
  have hudp : (flowForm inet name f).lookup "udp" =
      if !(f.udp.l4Proto == 6) then some (.obj (l4Form f.udp)) else none := by
    simp [flowForm, List.lookup_append, lookup_cons_if, lookup_memberIf]
  have htraffic : (flowForm inet name f).lookup "traffic" =
      some (.obj (trafficForm f.traffic)) := by
    simp [flowForm, List.lookup_append, lookup_cons_if, lookup_memberIf]
  have hmea : (flowForm inet name f).lookup "measurements" =
      if !(f.traffic.frameTemplate != .test) then some (.obj (measForm f.meas)) else none := by
    simp [flowForm, List.lookup_append, lookup_cons_if, lookup_memberIf]
  have hmods : (flowForm inet name f).lookup "modifiers" =
      if !(modsForm inet f.ipv6.present f.mod).isEmpty then
        some (.obj (modsForm inet f.ipv6.present f.mod)) else none := by
    simp [flowForm, List.lookup_append, lookup_cons_if, lookup_memberIf]
  have hbg : (flowForm inet name f).lookup "background" =
      if f.background then some (.bool true) else none := by
    simp [flowForm, List.lookup_append, lookup_cons_if, lookup_memberIf]
  have hmatch : (flowForm inet name f).lookup "match" =
      if !(matchForm f).isEmpty then some (.obj (matchForm f)) else none := by
    simp [flowForm, List.lookup_append, lookup_cons_if, lookup_memberIf]
  have hcls : (flowForm inet name f).lookup "classify" =
      if f.classifyHeader then some (.lit "header") else none := by
    simp [flowForm, List.lookup_append, lookup_cons_if, lookup_memberIf]
  obtain ⟨nm, hname⟩ := getScalar_name inet name f s!"flows[{idx}]"
  have hreq (e : PwFailure) : reqField (JsValue.obj (flowForm inet name f)).toYaml "id"
      s!"flows[{idx}]" u32 e = if f.id.toNat < 2 ^ 31 then .ok f.id else .error e := by
    rw [reqField, getScalar_of_lookup hb (by decide) _ hid (toYaml_signed _)
      (null_notMem_numberToString _)]
    have hread : orFail (u32 (signedText f.id.toInt)) e =
        if f.id.toNat < 2 ^ 31 then .ok f.id else .error e := by
      rw [u32_signedText]
      split <;> rfl
    exact hread
  have hexp : (f.encap.present && f.rxExpect == .tunneled) = true → Reads (.lit "tunneled")
      (keyword rxExpectWords) .tunneled := fun _ => reads_lit (by decide) (by decide)
  have hheader : f.classifyHeader = true → Reads (.lit "header")
      (keyword [("header", true), ("map", false)]) true := fun _ =>
    reads_lit (by decide) (by decide)
  have hexpect : (if f.encap.present && f.rxExpect == .tunneled then PwRxExpect.tunneled
      else .inner) = if f.encap.present then f.rxExpect else .inner := by
    cases f.encap.present <;> cases f.rxExpect <;> rfl
  have hnomeas : (!(f.traffic.frameTemplate != .test)) = false → f.meas = {} := by
    intro h
    apply hmeas
    simpa using h
  rw [parseFlow]
  dsimp only
  rw [bind_of_eq_ok (reqMap_toYaml _ _), hreq]
  by_cases hlt : f.id.toNat < 2 ^ 31
  · rw [if_pos hlt, bind_of_eq_ok rfl, bind_of_eq_ok hname,
      bind_of_eq_ok (reqField_of_lookup hb (by decide) _ htx (reads_u16 _) _),
      bind_of_eq_ok (reqField_of_lookup hb (by decide) _ hrx (reads_u16 _) _),
      bind_of_eq_ok (optField_of_missing hb (by decide) _ hlif _ _),
      bind_of_eq_ok (parseFlowL2_form hb hl2 hf.l2.vlan _),
      bind_of_eq_ok (parseInner_form name f hinet hf _),
      bind_of_eq_ok (parseEncap_form hinet hb hf.encap hencap _),
      bind_of_eq_ok (optField_of_lookup hb (by decide) _ hrxe hexp _ _),
      bind_of_eq_ok (parseFlowL4_form hb hf.udp htcp hudp _)]
    dsimp only
    simp only [bind_of_eq_ok (parseMeas_form hb hnomeas hmea _), present_reapplied,
      bind_of_eq_ok (parseModifiers_form hinet hb hf.mod hmods _),
      bind_of_eq_ok (optField_of_lookup hb (by decide) _ hbg (fun _ => reads_bool true) _ _),
      bind_of_eq_ok (parseMatch_form f hb hf.matchDst hf.matchSrc hmatch _),
      bind_of_eq_ok (optField_of_lookup hb (by decide) _ hcls hheader _ _)]
    rw [bind_eq_ok_iff, ite_true_false, ite_true_false, isSome_ite, isSome_ite,
      getD_ite hf.matchDst, getD_ite hf.matchSrc, hexpect]
    simp only [parseTraffic_form hb htraffic hfixed hf.traffic]
    constructor
    · rintro ⟨_, ⟨v, hv, hne, rfl⟩, h⟩
      exact ⟨hlt, v, hv, hne, (Except.ok.inj h).symm⟩
    · rintro ⟨-, v, hv, hne, rfl⟩
      exact ⟨_, ⟨v, hv, hne, rfl⟩, rfl⟩
  · rw [if_neg hlt]
    constructor
    · intro h
      cases h
    · rintro ⟨h, -⟩
      exact absurd h hlt

end Lawful

end Blocks

end PacketWyrm
