import PacketWyrm.FlowWritten
import PacketWyrm.FormTexts

/-!
# The blocks of the form are read back

Each block of the object that `flowObj` makes of a flow has a normal form: the members that are
always there, and those that are there when the flow says something.  The parser of the block makes
of it what is left of the flow's own block.

## Main definitions

* `l2Form`, `ipForm`, `encapForm`, `l4Form`, `trafficForm` — the blocks.
* `PwFlowL2.reapplied`, `PwFlowEncap.reapplied`, `PwFlowTraffic.reapplied` — what comes back.

## Main results

* `parseFlowL2_form`, `parseIpEndpoint_ipv4`, `parseIpEndpoint_ipv6`, `parseEncap_form`,
  `parseFlowL4_form`, `parseTraffic_form` — the blocks are read back.
-/

namespace PacketWyrm

open Lib

/-! ## Members -/

theorem lookup_cons_if (k key : String) (v : JsValue) (o : JsObject) :
    ((k, v) :: o).lookup key = if key = k then some v else o.lookup key := by
  rw [List.lookup_cons]
  by_cases hk : key = k
  · rw [if_pos hk, beq_iff_eq.mpr hk]
  · rw [if_neg hk, beq_eq_false_iff_ne.mpr hk]

theorem lookup_memberIf (c : Bool) (k key : String) (v : JsValue) :
    (memberIf c k v).lookup key = if key = k ∧ c = true then some v else none := by
  cases c with
  | false => simp [memberIf]
  | true =>
    by_cases hk : key = k
    · simp [memberIf, hk]
    · simp [memberIf, List.lookup_cons, beq_eq_false_iff_ne.mpr hk, hk]

theorem reqMap_toYaml (o : JsObject) (path : String) :
    reqMap (some (JsValue.obj o).toYaml) path = .ok (JsValue.obj o).toYaml := by
  rw [JsValue.toYaml]
  rfl

/-! ## Steps of a parser -/

/-- What comes after a computation that succeeds. -/
theorem bind_of_eq_ok {ε α β : Type} {x : Except ε α} {a : α} (h : x = .ok a)
    (g : α → Except ε β) : x >>= g = g a := by
  rw [h]
  rfl

theorem failIf_of_false {ε : Type} {c : Bool} (h : c = false) (e : ε) : failIf c e = .ok () := by
  rw [h]
  rfl

/-- A value that is only written when it is not the default. -/
theorem ite_bne {α : Type} [DecidableEq α] (a b : α) :
    (if (a != b) = true then a else b) = a := by
  by_cases h : a = b
  · simp [h]
  · rw [if_pos (bne_iff_ne.mpr h)]

section Readers

variable {α β : Type} {v : JsValue} {p : List Byte → Option α} {a : α}

theorem Reads.map (h : Reads v p a) (g : α → β) : Reads v (fun s => (p s).map g) (g a) := by
  obtain ⟨s, hs, hnull, hp⟩ := h
  refine ⟨s, hs, hnull, ?_⟩
  simp only [hp, Option.map_some]

theorem Reads.filter (h : Reads v p a) {q : α → Bool} (hq : q a = true) :
    Reads v (fun s => (p s).filter q) a := by
  obtain ⟨s, hs, hnull, hp⟩ := h
  refine ⟨s, hs, hnull, ?_⟩
  simp only [hp, Option.filter_some, if_pos hq]

/-- A field that is missing has its default. -/
theorem optField_of_missing {o : JsObject} (ho : PlainKeys o) {key : String} (hkey : Plain key)
    (path : String) (hv : o.lookup key = none) (dflt : α) (e : PwFailure) :
    optField (JsValue.obj o).toYaml key path p dflt e = .ok dflt := by
  rw [optField, getScalar_of_missing ho hkey path hv]
  rfl

end Readers

section Blocks

variable (inet : Inet) (name : List Byte) (f : PwFlow)

/-! ## Layer 2 -/

/-- The block `l2` of a flow that went through the form. -/
def l2Form (l2 : PwFlowL2) : JsObject :=
  [("src_mac", .str (macText l2.srcMac)), ("dst_mac", .str (macText l2.dstMac))] ++
    memberIf l2.vlanSet "vlan" (.ofJson l2.vlan.toNat) ++
    memberIf (l2.ethertype != 0) "ethertype" (.str (hexText 4 l2.ethertype.toNat))

theorem l2Obj_form : l2Obj (flowToFormJson inet name f) = l2Form f.l2 := by
  have hvlan : (flowToFormJson inet name f).lookup "vlan" =
      some (if f.l2.vlanSet then .ofJson f.l2.vlan.toNat else .str []) := rfl
  have het : (flowToFormJson inet name f).lookup "ethertype" =
      some (if f.l2.ethertype ≠ 0 then .str (hexText 4 f.l2.ethertype.toNat) else .str []) := rfl
  rw [l2Obj, l2Form, hvlan, het]
  congr 1
  · congr 1
    cases f.l2.vlanSet with
    | false => rfl
    | true => rfl
  · by_cases h : f.l2.ethertype = 0
    · simp [h, setv, memberIf]
    · have hb : (f.l2.ethertype != 0) = true := bne_iff_ne.mpr h
      rw [if_pos h, hb, scalar_hexText]
      rfl

theorem plainKeys_l2Form (l2 : PwFlowL2) : PlainKeys (l2Form l2) := by
  rw [l2Form, plainKeys_append, plainKeys_append, plainKeys_cons, plainKeys_cons]
  exact ⟨⟨⟨by decide, by decide, plainKeys_nil⟩, plainKeys_memberIf _ (by decide) _⟩,
    plainKeys_memberIf _ (by decide) _⟩

/-- What comes back of a flow's layer 2. -/
def PwFlowL2.reapplied (l2 : PwFlowL2) : PwFlowL2 :=
  { l2 with vlan := if l2.vlanSet then l2.vlan else 0, pcp := 0 }

theorem parseFlowL2_form {o : JsObject} (ho : PlainKeys o) {l2 : PwFlowL2}
    (hl2 : o.lookup "l2" = some (.obj (l2Form l2))) (hvlan : l2.vlan.toNat < 4095) (path : String) :
    parseFlowL2 (JsValue.obj o).toYaml path = .ok l2.reapplied := by
  have hb := plainKeys_l2Form l2
  have hsrc : (l2Form l2).lookup "src_mac" = some (.str (macText l2.srcMac)) := rfl
  have hdst : (l2Form l2).lookup "dst_mac" = some (.str (macText l2.dstMac)) := rfl
  have hv : (l2Form l2).lookup "vlan" =
      if l2.vlanSet then some (.ofJson l2.vlan.toNat) else none := by
    simp [l2Form, List.lookup_append, lookup_memberIf, lookup_cons_if]
  have hp : (l2Form l2).lookup "pcp" = none := by
    simp [l2Form, List.lookup_append, lookup_memberIf, lookup_cons_if]
  have he : (l2Form l2).lookup "ethertype" =
      if l2.ethertype != 0 then some (.str (hexText 4 l2.ethertype.toNat)) else none := by
    simp [l2Form, List.lookup_append, lookup_memberIf, lookup_cons_if]
  rw [parseFlowL2, pwYamlMapGet_toYaml ho (by decide), hl2, Option.map_some]
  dsimp only
  rw [bind_of_eq_ok (reqMap_toYaml _ _),
    bind_of_eq_ok (reqField_of_lookup hb (by decide) _ hsrc (reads_macText _) _),
    bind_of_eq_ok (reqField_of_lookup hb (by decide) _ hdst (reads_macText _) _),
    bind_of_eq_ok (optField_of_lookup hb (by decide) _ hv (fun _ =>
      ((reads_u16 l2.vlan).filter (decide_eq_true hvlan)).map some) _ _),
    bind_of_eq_ok (optField_of_missing hb (by decide) _ hp _ _),
    bind_of_eq_ok (failIf_of_false (decide_eq_false (by decide)) _),
    bind_of_eq_ok (optField_of_lookup hb (by decide) _ he (fun _ =>
      reads_hexText (by decide) (lt_trans l2.ethertype.isLt (by decide)) u16_of_parse) _ _)]
  rw [ite_bne, PwFlowL2.reapplied]
  cases l2.vlanSet with
  | false => rfl
  | true => rfl

/-! ## Addresses -/

/-- The addresses of a header, with what else is said of it. -/
def ipForm (v6 : Bool) (src dst : List Byte) (ttl dscp : Option (BitVec 8)) : JsObject :=
  [("src", .str src), ("dst", .str dst)] ++
    memberIf ttl.isSome (if v6 then "hop_limit" else "ttl") (.ofJson (ttl.getD 0).toNat) ++
    memberIf dscp.isSome "dscp" (.ofJson (dscp.getD 0).toNat)

theorem plainKeys_ipForm (v6 : Bool) (src dst : List Byte) (ttl dscp : Option (BitVec 8)) :
    PlainKeys (ipForm v6 src dst ttl dscp) := by
  have hkey : Plain (if v6 then "hop_limit" else "ttl") := by cases v6 <;> decide
  rw [ipForm, plainKeys_append, plainKeys_append, plainKeys_cons, plainKeys_cons]
  exact ⟨⟨⟨by decide, by decide, plainKeys_nil⟩, plainKeys_memberIf _ hkey _⟩,
    plainKeys_memberIf _ (by decide) _⟩

section Endpoint

variable {inet} (hinet : inet.Lawful) {ttl dscp : Option (BitVec 8)}

theorem lookup_ipForm_ttl (v6 : Bool) (src dst : List Byte) :
    (ipForm v6 src dst ttl dscp).lookup (if v6 then "hop_limit" else "ttl") =
      if ttl.isSome then some (.ofJson (ttl.getD 0).toNat) else none := by
  cases v6 <;> simp [ipForm, List.lookup_append, lookup_memberIf, lookup_cons_if]

theorem lookup_ipForm_dscp (v6 : Bool) (src dst : List Byte) :
    (ipForm v6 src dst ttl dscp).lookup "dscp" =
      if dscp.isSome then some (.ofJson (dscp.getD 0).toNat) else none := by
  cases v6 <;> simp [ipForm, List.lookup_append, lookup_memberIf, lookup_cons_if]

theorem reads_dscp (hdscp : (dscp.getD 0).toNat ≤ 63) :
    Reads (.ofJson (dscp.getD 0).toNat) (fun s => (u8 s).filter fun v => v.toNat ≤ 63)
      (dscp.getD 0) :=
  (reads_u8 _).filter (decide_eq_true hdscp)

theorem ite_isSome (x : Option (BitVec 8)) (d : BitVec 8) :
    (if x.isSome = true then x.getD 0 else d) = x.getD d := by
  cases x <;> rfl

include hinet

theorem parseIpv4Block_form (src dst : BitVec 32) (hdscp : (dscp.getD 0).toNat ≤ 63)
    (path : String) :
    parseIpv4Block inet
        (JsValue.obj (ipForm false (inet.ntop4 src) (inet.ntop4 dst) ttl dscp)).toYaml path =
      .ok { present := true, src, dst, ttl := ttl.getD 64, dscp := dscp.getD 0 } := by
  have hb := plainKeys_ipForm false (inet.ntop4 src) (inet.ntop4 dst) ttl dscp
  have hsrc : (ipForm false (inet.ntop4 src) (inet.ntop4 dst) ttl dscp).lookup "src" =
      some (.str (inet.ntop4 src)) := rfl
  have hdst : (ipForm false (inet.ntop4 src) (inet.ntop4 dst) ttl dscp).lookup "dst" =
      some (.str (inet.ntop4 dst)) := rfl
  have httl : (ipForm false (inet.ntop4 src) (inet.ntop4 dst) ttl dscp).lookup "ttl" = _ :=
    lookup_ipForm_ttl false _ _
  rw [parseIpv4Block, bind_of_eq_ok (reqMap_toYaml _ _),
    bind_of_eq_ok (reqField_of_lookup hb (by decide) _ hsrc (hinet.reads4 _) _),
    bind_of_eq_ok (reqField_of_lookup hb (by decide) _ hdst (hinet.reads4 _) _),
    bind_of_eq_ok (optField_of_lookup hb (by decide) _ httl
      (fun _ => reads_u8 _) _ _),
    bind_of_eq_ok (optField_of_lookup hb (by decide) _ (lookup_ipForm_dscp false _ _)
      (fun _ => reads_dscp hdscp) _ _), ite_isSome, ite_isSome]
  rfl

theorem parseIpv6Block_form (src dst : BitVec 128) (hdscp : (dscp.getD 0).toNat ≤ 63)
    (path : String) :
    parseIpv6Block inet
        (JsValue.obj (ipForm true (inet.ntop6 src) (inet.ntop6 dst) ttl dscp)).toYaml path =
      .ok { present := true, src, dst, hopLimit := ttl.getD 64, dscp := dscp.getD 0 } := by
  have hb := plainKeys_ipForm true (inet.ntop6 src) (inet.ntop6 dst) ttl dscp
  have hsrc : (ipForm true (inet.ntop6 src) (inet.ntop6 dst) ttl dscp).lookup "src" =
      some (.str (inet.ntop6 src)) := rfl
  have hdst : (ipForm true (inet.ntop6 src) (inet.ntop6 dst) ttl dscp).lookup "dst" =
      some (.str (inet.ntop6 dst)) := rfl
  have httl : (ipForm true (inet.ntop6 src) (inet.ntop6 dst) ttl dscp).lookup "hop_limit" = _ :=
    lookup_ipForm_ttl true _ _
  rw [parseIpv6Block, bind_of_eq_ok (reqMap_toYaml _ _),
    bind_of_eq_ok (reqField_of_lookup hb (by decide) _ hsrc (hinet.reads6 _) _),
    bind_of_eq_ok (reqField_of_lookup hb (by decide) _ hdst (hinet.reads6 _) _),
    bind_of_eq_ok (optField_of_lookup hb (by decide) _ httl
      (fun _ => reads_u8 _) _ _),
    bind_of_eq_ok (optField_of_lookup hb (by decide) _ (lookup_ipForm_dscp true _ _)
      (fun _ => reads_dscp hdscp) _ _), ite_isSome, ite_isSome]
  rfl

variable {o : JsObject} (ho : PlainKeys o) (path : String) (hdscp : (dscp.getD 0).toNat ≤ 63)

include ho hdscp

/-- An endpoint with an IPv4 header. -/
theorem parseIpEndpoint_ipv4 {src dst : BitVec 32} (h6 : o.lookup "ipv6" = none)
    (h4 : o.lookup "ipv4" =
      some (.obj (ipForm false (inet.ntop4 src) (inet.ntop4 dst) ttl dscp))) :
    parseIpEndpoint inet (JsValue.obj o).toYaml path =
      .ok ({ present := true, src, dst, ttl := ttl.getD 64, dscp := dscp.getD 0 }, {}) := by
  rw [parseIpEndpoint, pwYamlMapGet_toYaml ho (by decide), pwYamlMapGet_toYaml ho (by decide), h4,
    h6]
  dsimp only [Option.map_some, Option.map_none, Option.isSome_some, Option.isSome_none]
  rw [bind_of_eq_ok (failIf_of_false (Bool.and_false true) _),
    bind_of_eq_ok (parseIpv4Block_form hinet src dst hdscp path)]
  rfl

/-- An endpoint with an IPv6 header. -/
theorem parseIpEndpoint_ipv6 {src dst : BitVec 128} (h4 : o.lookup "ipv4" = none)
    (h6 : o.lookup "ipv6" =
      some (.obj (ipForm true (inet.ntop6 src) (inet.ntop6 dst) ttl dscp))) :
    parseIpEndpoint inet (JsValue.obj o).toYaml path =
      .ok ({}, { present := true, src, dst, hopLimit := ttl.getD 64, dscp := dscp.getD 0 }) := by
  rw [parseIpEndpoint, pwYamlMapGet_toYaml ho (by decide), pwYamlMapGet_toYaml ho (by decide), h4,
    h6]
  dsimp only [Option.map_some, Option.map_none, Option.isSome_some, Option.isSome_none]
  rw [bind_of_eq_ok (failIf_of_false (Bool.false_and true) _),
    bind_of_eq_ok (parseIpv6Block_form hinet src dst hdscp path)]
  rfl

end Endpoint

/-! ## The inner header -/

theorem truthy_ofJson {n : ℕ} (hn : n < 2 ^ 53) : truthy (some (.ofJson n)) = (n != 0) := by
  rw [ofJson_of_lt hn, truthy, Bool.eq_iff_iff, bne_iff_ne, bne_iff_ne, ne_eq, Int.natCast_eq_zero]

/-- A hop limit that the form keeps: zero counts as nothing said. -/
def formTtl (ttl : BitVec 8) : Option (BitVec 8) := if ttl = 0 then none else some ttl

theorem memberIf_formTtl (ttl : BitVec 8) (key : String) :
    memberIf (truthy (some (.ofJson ttl.toNat))) key (scalar (some (.ofJson ttl.toNat))) =
      memberIf (formTtl ttl).isSome key (.ofJson ((formTtl ttl).getD 0).toNat) := by
  rw [truthy_ofJson (lt_trans ttl.isLt (by decide)), formTtl]
  by_cases h : ttl = 0
  · rw [if_pos h, h]
    rfl
  · have hne : (ttl.toNat != 0) = true := bne_iff_ne.mpr fun h0 => h (BitVec.eq_of_toNat_eq h0)
    rw [if_neg h, hne]
    rfl

section Inner

theorem lookup_ip_src : (flowToFormJson inet name f).lookup "ip_src" =
    some (.str (if f.ipv6.present then inet.ntop6 f.ipv6.src else inet.ntop4 f.ipv4.src)) := rfl

theorem lookup_ip_dst : (flowToFormJson inet name f).lookup "ip_dst" =
    some (.str (if f.ipv6.present then inet.ntop6 f.ipv6.dst else inet.ntop4 f.ipv4.dst)) := rfl

theorem lookup_ttl : (flowToFormJson inet name f).lookup "ttl" =
    some (.ofJson (if f.ipv6.present then f.ipv6.hopLimit.toNat else f.ipv4.ttl.toNat)) := rfl

theorem ipObj_ipv4 (h : f.ipv6.present = false) :
    ipObj (flowToFormJson inet name f) false =
      ipForm false (inet.ntop4 f.ipv4.src) (inet.ntop4 f.ipv4.dst) (formTtl f.ipv4.ttl) none := by
  rw [ipObj, lookup_ip_src, lookup_ip_dst, lookup_ttl, h]
  simp only [Bool.false_eq_true, if_false, memberIf_formTtl]
  exact (List.append_nil _).symm

theorem ipObj_ipv6 (h : f.ipv6.present = true) :
    ipObj (flowToFormJson inet name f) true =
      ipForm true (inet.ntop6 f.ipv6.src) (inet.ntop6 f.ipv6.dst) (formTtl f.ipv6.hopLimit)
        none := by
  rw [ipObj, lookup_ip_src, lookup_ip_dst, lookup_ttl, h]
  simp only [if_true, memberIf_formTtl]
  exact (List.append_nil _).symm

end Inner

/-! ## The tunnel -/

theorem outerObj_ipv4 {e : PwFlowEncap} (hp : e.present = true) (h : e.outerIpv6.present = false) :
    outerObj (encapJson inet e) false =
      ipForm false (inet.ntop4 e.outerIpv4.src) (inet.ntop4 e.outerIpv4.dst)
        (some e.outerIpv4.ttl) (some e.outerIpv4.dscp) := by
  rw [encapJson, hp, h]
  rfl

theorem outerObj_ipv6 {e : PwFlowEncap} (hp : e.present = true) (h : e.outerIpv6.present = true) :
    outerObj (encapJson inet e) true =
      ipForm true (inet.ntop6 e.outerIpv6.src) (inet.ntop6 e.outerIpv6.dst)
        (some e.outerIpv6.hopLimit) (some e.outerIpv6.dscp) := by
  rw [encapJson, hp, h]
  rfl

/-- The block `encap` of a flow that went through the form. -/
def encapForm (e : PwFlowEncap) : JsObject :=
  [("type", .lit (encapName e.type)),
    ("outer", .obj [(if e.outerIpv6.present then "ipv6" else "ipv4",
      .obj (outerObj (encapJson inet e) e.outerIpv6.present))])] ++
    memberIf (e.type == .etherip && e.innerMacSet) "inner_l2"
      (.obj [("src_mac", .str (macText e.innerSrcMac)), ("dst_mac", .str (macText e.innerDstMac))])

theorem macText_ne_nil (m : BitVec 48) : macText m ≠ [] := by
  simp [macText, macBytes, List.intercalate]

theorem truthy_jsMac (m : BitVec 48) : truthy (some (jsMac m)) = true :=
  bne_iff_ne.mpr (macText_ne_nil m)

theorem stringOrEmpty_jsMac (m : BitVec 48) : stringOrEmpty (some (jsMac m)) = macText m := by
  rw [stringOrEmpty, truthy_jsMac, if_pos rfl]
  rfl

theorem encapObj_form {e : PwFlowEncap} (hp : e.present = true) :
    encapObj (encapJson inet e) = encapForm inet e := by
  have hv6 : isString ((encapJson inet e).lookup "l3") "ipv6" = e.outerIpv6.present := by
    cases h : e.outerIpv6.present <;> simp [encapJson, h, lookup_cons_if] <;> decide
  have htype : (encapJson inet e).lookup "type" = some (.lit (encapName e.type)) := by
    rw [encapJson, hp]
    rfl
  have hether : isString (some (.lit (encapName e.type))) "etherip" = (e.type == .etherip) := by
    cases e.type <;> decide
  rw [encapObj, hv6, htype, hether, encapForm]
  congr 1
  cases hi : e.innerMacSet with
  | false =>
    simp [encapJson, hp, hi, lookup_cons_if, truthy, memberIf]
  | true =>
    simp [encapJson, hp, hi, lookup_cons_if, truthy_jsMac, stringOrEmpty_jsMac]

theorem tunnelObj_form (h : f.encap.Written) :
    tunnelObj (flowToFormJson inet name f) =
      memberIf f.encap.present "encap" (.obj (encapForm inet f.encap)) ++
        memberIf (f.encap.present && f.rxExpect == .tunneled) "rx_expect" (.lit "tunneled") := by
  have he : members ((flowToFormJson inet name f).lookup "encap") = encapJson inet f.encap := rfl
  have hrx : (flowToFormJson inet name f).lookup "rx_expect" =
      some (.lit (if f.rxExpect = .tunneled then "tunneled" else "inner")) := rfl
  have htype : (encapJson inet f.encap).lookup "type" =
      some (.lit (if f.encap.present then encapName f.encap.type else "none")) := rfl
  rw [tunnelObj, he, hrx, htype]
  cases hp : f.encap.present with
  | false =>
    have hnone :
        (truthy (some (.lit "none")) && !isString (some (.lit "none")) "none") = false := by
      decide
    rw [if_neg Bool.false_ne_true, hnone]
    rfl
  | true =>
    have hthere : truthy (some (.lit (encapName f.encap.type))) = true ∧
        isString (some (.lit (encapName f.encap.type))) "none" = false := by
      have hne := h.type hp
      cases htype : f.encap.type with
      | none => exact absurd htype hne
      | ipip => decide
      | gre => decide
      | etherip => decide
    rw [if_pos rfl, hthere.1, hthere.2, encapObj_form inet hp]
    cases f.rxExpect with
    | inner => rfl
    | tunneled => rfl

theorem parseInnerL2_form {o : JsObject} (ho : PlainKeys o) {c : Bool} {src dst : BitVec 48}
    (h : o.lookup "inner_l2" = if c then some (.obj [("src_mac", .str (macText src)),
      ("dst_mac", .str (macText dst))]) else none) (path : String) :
    parseInnerL2 (JsValue.obj o).toYaml path = .ok (if c then some (src, dst) else none) := by
  rw [parseInnerL2, pwYamlMapGet_toYaml ho (by decide), h]
  cases c with
  | false => rfl
  | true =>
    have hb : PlainKeys [("src_mac", .str (macText src)), ("dst_mac", .str (macText dst))] := by
      rw [plainKeys_cons, plainKeys_cons]
      exact ⟨by decide, by decide, plainKeys_nil⟩
    rw [if_pos rfl, Option.map_some]
    dsimp only
    rw [bind_of_eq_ok (reqMap_toYaml _ _),
      bind_of_eq_ok (reqField_of_lookup hb (by decide) _ (v := .str (macText src)) rfl
        (reads_macText _) _),
      bind_of_eq_ok (reqField_of_lookup hb (by decide) _ (v := .str (macText dst)) rfl
        (reads_macText _) _)]
    rfl

theorem PwFlowIpv4.eq_of_present {x : PwFlowIpv4} (h : x.present = true) :
    { present := true, src := x.src, dst := x.dst, ttl := x.ttl, dscp := x.dscp } = x := by
  rw [← h]

theorem PwFlowIpv6.eq_of_present {x : PwFlowIpv6} (h : x.present = true) :
    { present := true, src := x.src, dst := x.dst, hopLimit := x.hopLimit, dscp := x.dscp } =
      x := by
  rw [← h]

/-- What comes back of a tunnel: only EtherIP keeps its inner Ethernet addresses. -/
def PwFlowEncap.reapplied (e : PwFlowEncap) : PwFlowEncap :=
  { e with
    innerMacSet := e.type == .etherip && e.innerMacSet
    innerSrcMac := if e.type == .etherip && e.innerMacSet then e.innerSrcMac else 0
    innerDstMac := if e.type == .etherip && e.innerMacSet then e.innerDstMac else 0 }

theorem keyword_encapName {k : PwEncapKind} (h : k ≠ .none) :
    keyword encapWords (ascii (encapName k)) = some k := by
  cases k with
  | none => exact absurd rfl h
  | ipip => decide
  | gre => decide
  | etherip => decide

theorem plain_encapName : ∀ k, Plain (encapName k)
  | .none => by decide
  | .ipip => by decide
  | .gre => by decide
  | .etherip => by decide

section Lawful

variable {inet} (hinet : inet.Lawful)

include hinet

theorem parseOuter_form {e : PwFlowEncap} (he : e.Written) (hp : e.present = true) (path : String) :
    parseIpEndpoint inet (JsValue.obj [(if e.outerIpv6.present then "ipv6" else "ipv4",
        .obj (outerObj (encapJson inet e) e.outerIpv6.present))]).toYaml path =
      .ok (e.outerIpv4, e.outerIpv6) := by
  rcases he.outer hp with ⟨h4, hdscp, h6⟩ | ⟨h6, hdscp, h4⟩
  · have hno : e.outerIpv6.present = false := by rw [h6]
    rw [hno, outerObj_ipv4 inet hp hno, if_neg Bool.false_ne_true]
    have ho := plainKeys_cons (v := .obj (ipForm false (inet.ntop4 e.outerIpv4.src)
      (inet.ntop4 e.outerIpv4.dst) (some e.outerIpv4.ttl) (some e.outerIpv4.dscp))).mpr
      ⟨(by decide : Plain "ipv4"), plainKeys_nil⟩
    have hle : ((some e.outerIpv4.dscp).getD 0).toNat ≤ 63 := hdscp
    rw [parseIpEndpoint_ipv4 hinet ho path hle rfl rfl]
    dsimp only [Option.getD_some]
    rw [PwFlowIpv4.eq_of_present h4, h6]
  · rw [h6, outerObj_ipv6 inet hp h6, if_pos rfl]
    have ho := plainKeys_cons (v := .obj (ipForm true (inet.ntop6 e.outerIpv6.src)
      (inet.ntop6 e.outerIpv6.dst) (some e.outerIpv6.hopLimit) (some e.outerIpv6.dscp))).mpr
      ⟨(by decide : Plain "ipv6"), plainKeys_nil⟩
    have hle : ((some e.outerIpv6.dscp).getD 0).toNat ≤ 63 := hdscp
    rw [parseIpEndpoint_ipv6 hinet ho path hle rfl rfl]
    dsimp only [Option.getD_some]
    rw [PwFlowIpv6.eq_of_present h6, h4]

theorem parseEncap_form {o : JsObject} (ho : PlainKeys o) {e : PwFlowEncap} (he : e.Written)
    (h : o.lookup "encap" = if e.present then some (.obj (encapForm inet e)) else none)
    (path : String) : parseEncap inet (JsValue.obj o).toYaml path = .ok e.reapplied := by
  rw [parseEncap, pwYamlMapGet_toYaml ho (by decide), h]
  cases hp : e.present with
  | false =>
    rw [he.absent hp]
    rfl
  | true =>
    have hb : PlainKeys (encapForm inet e) := by
      rw [encapForm, plainKeys_append, plainKeys_cons, plainKeys_cons]
      exact ⟨⟨by decide, by decide, plainKeys_nil⟩, plainKeys_memberIf _ (by decide) _⟩
    have htype : (encapForm inet e).lookup "type" = some (.lit (encapName e.type)) := rfl
    have houter : (encapForm inet e).lookup "outer" =
        some (.obj [(if e.outerIpv6.present then "ipv6" else "ipv4",
          .obj (outerObj (encapJson inet e) e.outerIpv6.present))]) := rfl
    have hinner : (encapForm inet e).lookup "inner_l2" =
        if e.type == .etherip && e.innerMacSet then some (.obj [("src_mac",
          .str (macText e.innerSrcMac)), ("dst_mac", .str (macText e.innerDstMac))]) else none := by
      simp [encapForm, lookup_memberIf, lookup_cons_if]
    rw [if_pos rfl, Option.map_some]
    dsimp only
    rw [bind_of_eq_ok (reqMap_toYaml _ _),
      bind_of_eq_ok (reqField_of_lookup hb (by decide) _ htype
        (reads_lit (plain_encapName _) (keyword_encapName (he.type hp))) _),
      pwYamlMapGet_toYaml hb (by decide), houter, Option.map_some,
      bind_of_eq_ok (orFail_eq_ok_iff.mpr rfl), bind_of_eq_ok (reqMap_toYaml _ _),
      bind_of_eq_ok (parseOuter_form hinet he hp _),
      bind_of_eq_ok (parseInnerL2_form hb hinner _), PwFlowEncap.reapplied, hp]
    cases e.type == .etherip && e.innerMacSet with
    | false => rfl
    | true => rfl

end Lawful

/-! ## Layer 4 -/

/-- The block `udp` or `tcp` of a flow that went through the form. -/
def l4Form (u : PwFlowUdp) : JsObject :=
  [("src_port", .ofJson u.srcPort.toNat), ("dst_port", .ofJson u.dstPort.toNat)] ++
    memberIf (u.l4Proto == 6) "flags" (.str (hexText 2 u.tcpFlags.toNat))

theorem l4Obj_form : l4Obj (flowToFormJson inet name f) = l4Form f.udp := by
  have hl4 : (flowToFormJson inet name f).lookup "l4" =
      some (.lit (if f.udp.l4Proto == 6 then "tcp" else "udp")) := rfl
  have hflags : (flowToFormJson inet name f).lookup "tcp_flags" =
      some (if f.udp.l4Proto == 6 then .str (hexText 2 f.udp.tcpFlags.toNat) else .str []) := rfl
  rw [l4Obj, hl4, hflags, l4Form]
  congr 1
  cases f.udp.l4Proto == 6 with
  | false => rfl
  | true =>
    rw [if_pos rfl, if_pos rfl, scalar_hexText]
    rfl

theorem parseFlowL4_form {o : JsObject} (ho : PlainKeys o) {u : PwFlowUdp} (hu : u.Written)
    (htcp : o.lookup "tcp" = if u.l4Proto == 6 then some (.obj (l4Form u)) else none)
    (hudp : o.lookup "udp" = if !(u.l4Proto == 6) then some (.obj (l4Form u)) else none)
    (path : String) : parseFlowL4 (JsValue.obj o).toYaml path = .ok u := by
  have hb : PlainKeys (l4Form u) := by
    rw [l4Form, plainKeys_append, plainKeys_cons, plainKeys_cons]
    exact ⟨⟨by decide, by decide, plainKeys_nil⟩, plainKeys_memberIf _ (by decide) _⟩
  have hsrc : (l4Form u).lookup "src_port" = some (.ofJson u.srcPort.toNat) := rfl
  have hdst : (l4Form u).lookup "dst_port" = some (.ofJson u.dstPort.toNat) := rfl
  have hflags : (l4Form u).lookup "flags" =
      if u.l4Proto == 6 then some (.str (hexText 2 u.tcpFlags.toNat)) else none := by
    simp [l4Form, lookup_memberIf, lookup_cons_if]
  rw [parseFlowL4, pwYamlMapGet_toYaml ho (by decide), pwYamlMapGet_toYaml ho (by decide), htcp,
    hudp]
  rcases hu with hproto | ⟨hproto, htwo⟩
  · have h6 : (u.l4Proto == 6) = true := beq_iff_eq.mpr hproto
    simp only [h6, Bool.not_true, Bool.false_eq_true, if_true, if_false, Option.map_some,
      Option.map_none, Option.isSome_some, Option.isSome_none]
    rw [bind_of_eq_ok (failIf_of_false (Bool.false_and true) _),
      bind_of_eq_ok (failIf_of_false (rfl : (!false && false) = false) _),
      bind_of_eq_ok (reqMap_toYaml _ _),
      bind_of_eq_ok (reqField_of_lookup hb (by decide) _ hsrc (reads_u16 _) _),
      bind_of_eq_ok (reqField_of_lookup hb (by decide) _ hdst (reads_u16 _) _),
      bind_of_eq_ok (optField_of_lookup hb (by decide) _ hflags (fun _ =>
        reads_hexText (by decide) (lt_trans u.tcpFlags.isLt (by decide)) u8_of_parse) _ _),
      h6, if_pos rfl, ← hproto]
    rfl
  · have h6 : (u.l4Proto == 6) = false := by
      rw [hproto]
      rfl
    simp only [h6, Bool.not_false, Bool.false_eq_true, if_true, if_false, Option.map_some,
      Option.map_none, Option.isSome_some, Option.isSome_none]
    rw [bind_of_eq_ok (failIf_of_false (Bool.and_false true) _),
      bind_of_eq_ok (failIf_of_false (rfl : (!true && true) = false) _),
      bind_of_eq_ok (reqMap_toYaml _ _),
      bind_of_eq_ok (reqField_of_lookup hb (by decide) _ hsrc (reads_u16 _) _),
      bind_of_eq_ok (reqField_of_lookup hb (by decide) _ hdst (reads_u16 _) _),
      ← hproto, ← htwo]
    rfl

/-! ## Traffic -/

/-- The rate is one of packets. -/
def PwFlowTraffic.inPackets (t : PwFlowTraffic) : Bool := t.ratePps != 0

/-- The rate, in packets or in bits. -/
def PwFlowTraffic.rate (t : PwFlowTraffic) : BitVec 64 :=
  if t.inPackets then t.ratePps else t.rateBps

/-- What comes back of the traffic, when the rate is read as `v`. -/
def PwFlowTraffic.reapplied (t : PwFlowTraffic) (v : BitVec 64) : PwFlowTraffic :=
  { t with
    rateBps := if t.inPackets then 0 else v
    ratePps := if t.inPackets then v else 0
    burstSize := 1, burstGapTicks := 0, payloadSeed := 0 }

/-- The block `traffic` of a flow that went through the form. -/
def trafficForm (t : PwFlowTraffic) : JsObject :=
  [("frame_len", .ofJson t.frameLenFixed.toNat)] ++
    memberIf t.inPackets "rate_pps" (.ofJson t.rate.toInt) ++
    memberIf (!t.inPackets) "rate_bps" (.ofJson t.rate.toInt) ++
    [("payload", .lit (payloadName t.payloadMode)), ("insert_sequence", .bool t.insertSequence),
      ("insert_timestamp", .bool t.insertTimestamp)] ++
    memberIf (t.frameTemplate != .test) "frame_template" (.lit (templateName t.frameTemplate))

theorem isRaw_form :
    isRaw (flowToFormJson inet name f) = (f.traffic.frameTemplate != .test) := by
  have ht : (flowToFormJson inet name f).lookup "frame_template" =
      some (.lit (templateName f.traffic.frameTemplate)) := rfl
  rw [isRaw, ht]
  cases f.traffic.frameTemplate <;> decide

theorem trafficObj_form (hfixed : f.traffic.frameLenFixedSet = true) :
    trafficObj (flowToFormJson inet name f) = trafficForm f.traffic := by
  have hlen : (flowToFormJson inet name f).lookup "frame_len" = some (.ofJson
      (if f.traffic.frameLenFixedSet then f.traffic.frameLenFixed
        else f.traffic.frameLenMin).toNat) := rfl
  have hmode : (flowToFormJson inet name f).lookup "rate_mode" =
      some (.lit (if f.traffic.ratePps ≠ 0 then "pps" else "bps")) := rfl
  have hrate : (flowToFormJson inet name f).lookup "rate" =
      some (.ofJson (if f.traffic.ratePps ≠ 0 then f.traffic.ratePps
        else f.traffic.rateBps).toInt) := rfl
  rw [trafficObj, isRaw_form, hlen, hmode, hrate, if_pos hfixed, trafficForm,
    PwFlowTraffic.rate, PwFlowTraffic.inPackets]
  by_cases hpps : f.traffic.ratePps ≠ 0
  · rw [if_pos hpps, if_pos hpps, bne_iff_ne.mpr hpps]
    rfl
  · rw [if_neg hpps, if_neg hpps, not_not.mp hpps]
    rfl

theorem keyword_payloadName : ∀ m, keyword payloadWords (ascii (payloadName m)) = some m
  | .zero => by decide
  | .increment => by decide
  | .prbs => by decide
  | .random => by decide

theorem plain_payloadName : ∀ m, Plain (payloadName m)
  | .zero => by decide
  | .increment => by decide
  | .prbs => by decide
  | .random => by decide

theorem keyword_templateName : ∀ t, keyword templateWords (ascii (templateName t)) = some t
  | .test => by decide
  | .l4raw => by decide
  | .l3raw => by decide
  | .l2raw => by decide

theorem plain_templateName : ∀ t, Plain (templateName t)
  | .test => by decide
  | .l4raw => by decide
  | .l3raw => by decide
  | .l2raw => by decide

section Traffic

variable {t : PwFlowTraffic}

theorem plainKeys_trafficForm : PlainKeys (trafficForm t) := by
  simp only [trafficForm, plainKeys_append, plainKeys_cons, plainKeys_nil, and_true]
  exact ⟨⟨⟨⟨by decide, plainKeys_memberIf _ (by decide) _⟩, plainKeys_memberIf _ (by decide) _⟩,
    by decide, by decide, by decide⟩, plainKeys_memberIf _ (by decide) _⟩

/-- A member that the form has no name for is not there. -/
theorem lookup_trafficForm_none {key : String}
    (h : key ∉ ["rate_pps", "rate_bps", "frame_len", "payload", "insert_sequence",
      "insert_timestamp", "frame_template"]) : (trafficForm t).lookup key = none := by
  simp only [List.mem_cons, List.not_mem_nil, or_false, not_or] at h
  simp [trafficForm, List.lookup_append, lookup_cons_if, lookup_memberIf, h]

theorem parseLengths_form (tp : String) :
    parseLengths (JsValue.obj (trafficForm t)).toYaml tp =
      .ok { frameLenFixedSet := true, frameLenFixed := t.frameLenFixed } := by
  have hlen : (trafficForm t).lookup "frame_len" =
      if true then some (.ofJson t.frameLenFixed.toNat) else none := rfl
  rw [parseLengths, bind_of_eq_ok (optField_of_lookup plainKeys_trafficForm (by decide) _ hlen
    (fun _ => (reads_u16 _).map some) _ _)]
  rfl

theorem checkLengths_form (hfixed : t.frameLenFixedSet = true) (ht : t.Written) (tp : String) :
    checkLengths (JsValue.obj (trafficForm t)).toYaml tp
      { frameLenFixedSet := true, frameLenFixed := t.frameLenFixed } = .ok () := by
  have hlo := ht.lenLo
  have hhi := ht.lenHi
  rw [PwFlowTraffic.lenLo, if_pos hfixed] at hlo
  rw [PwFlowTraffic.lenHi, if_pos hfixed] at hhi
  have hget {key : String} (hkey : Plain key) (h : (trafficForm t).lookup key = none) :
      pwYamlMapGet (JsValue.obj (trafficForm t)).toYaml (ascii key) = none := by
    rw [pwYamlMapGet_toYaml plainKeys_trafficForm hkey, h]
    rfl
  rw [checkLengths, hget (by decide) (lookup_trafficForm_none (by decide)),
    hget (by decide) (lookup_trafficForm_none (by decide)),
    hget (by decide) (lookup_trafficForm_none (by decide))]
  simp only [bind_eq_ok_iff, failIf_eq_ok_iff]
  refine ⟨(), rfl, (), ?_, (), ?_, rfl⟩
  · simp [hlo, hhi]
  · simp

/-- One of the two rates. -/
theorem optField_rate {key : String} (hkey : Plain key) {c : Bool}
    (h : (trafficForm t).lookup key = if c then some (.ofJson t.rate.toInt) else none)
    (tp : String) (e : PwFailure) :
    optField (JsValue.obj (trafficForm t)).toYaml key tp u64 0 e =
      if c then orFail (u64 (signedText t.rate.toInt)) e else .ok 0 := by
  cases c with
  | true =>
    rw [optField, getScalar_of_lookup plainKeys_trafficForm hkey tp h (toYaml_signed _)
      (null_notMem_numberToString _)]
    rfl
  | false => exact optField_of_missing plainKeys_trafficForm hkey tp h _ _

/-- **The traffic comes back** with the rate that is read, if one is read. -/
theorem parseTraffic_form {o : JsObject} (ho : PlainKeys o)
    (h : o.lookup "traffic" = some (.obj (trafficForm t))) (hfixed : t.frameLenFixedSet = true)
    (ht : t.Written) (path : String) {t' : PwFlowTraffic} :
    parseTraffic (JsValue.obj o).toYaml path = .ok t' ↔
      ∃ v, u64 (signedText t.rate.toInt) = some v ∧ v ≠ 0 ∧ t' = t.reapplied v := by
  have hb := plainKeys_trafficForm (t := t)
  have hbps : (trafficForm t).lookup "rate_bps" =
      if !t.inPackets then some (.ofJson t.rate.toInt) else none := by
    simp [trafficForm, List.lookup_append, lookup_cons_if, lookup_memberIf]
  have hpps : (trafficForm t).lookup "rate_pps" =
      if t.inPackets then some (.ofJson t.rate.toInt) else none := by
    simp [trafficForm, List.lookup_append, lookup_cons_if, lookup_memberIf]
  have hmissing {α : Type} {key : String} (hkey : Plain key)
      (hnot : key ∉ ["rate_pps", "rate_bps", "frame_len", "payload", "insert_sequence",
        "insert_timestamp", "frame_template"]) (p : List Byte → Option α) (dflt : α) (tp : String)
      (e : PwFailure) : optField (JsValue.obj (trafficForm t)).toYaml key tp p dflt e = .ok dflt :=
    optField_of_missing hb hkey tp (lookup_trafficForm_none hnot) dflt e
  have hmode : (trafficForm t).lookup "payload" =
      if true then some (.lit (payloadName t.payloadMode)) else none := by
    simp [trafficForm, List.lookup_append, lookup_cons_if, lookup_memberIf]
  have hseq : (trafficForm t).lookup "insert_sequence" =
      if true then some (.bool t.insertSequence) else none := by
    simp [trafficForm, List.lookup_append, lookup_cons_if, lookup_memberIf]
  have hts : (trafficForm t).lookup "insert_timestamp" =
      if true then some (.bool t.insertTimestamp) else none := by
    simp [trafficForm, List.lookup_append, lookup_cons_if, lookup_memberIf]
  have htemplate : (trafficForm t).lookup "frame_template" =
      if t.frameTemplate != .test then some (.lit (templateName t.frameTemplate)) else none := by
    simp [trafficForm, List.lookup_append, lookup_cons_if, lookup_memberIf]
  rw [parseTraffic, pwYamlMapGet_toYaml ho (by decide), h, Option.map_some,
    bind_of_eq_ok (orFail_eq_ok_iff.mpr rfl)]
  dsimp only
  rw [bind_of_eq_ok (reqMap_toYaml _ _), bind_of_eq_ok (parseLengths_form _)]
  simp only [bind_of_eq_ok (checkLengths_form hfixed ht _),
    bind_of_eq_ok (hmissing (by decide : Plain "burst_size") (by decide) _ _ _ _),
    bind_of_eq_ok (hmissing (by decide : Plain "burst_gap_ticks") (by decide) _ _ _ _),
    bind_of_eq_ok (hmissing (by decide : Plain "payload_seed") (by decide) _ _ _ _),
    bind_of_eq_ok (optField_of_lookup hb (by decide) _ hmode (fun _ =>
      reads_lit (plain_payloadName _) (keyword_payloadName _)) _ _),
    bind_of_eq_ok (optField_of_lookup hb (by decide) _ hseq (fun _ => reads_bool _) _ _),
    bind_of_eq_ok (optField_of_lookup hb (by decide) _ hts (fun _ => reads_bool _) _ _),
    bind_of_eq_ok (optField_of_lookup hb (by decide) _ htemplate (fun _ =>
      reads_lit (plain_templateName _) (keyword_templateName _)) _ _), if_true, ite_bne]
  obtain ⟨hmin, hmax, hstep⟩ := ht.fixed hfixed
  cases hp : t.inPackets with
  | true =>
    rw [hp] at hbps hpps
    rw [bind_of_eq_ok (optField_rate (by decide) hbps _ _),
      optField_rate (by decide) hpps, if_pos rfl]
    simp only [bind_eq_ok_iff, orFail_eq_ok_iff, failIf_eq_ok_iff, one_rate_iff]
    refine exists_congr fun v => and_congr_right fun _ => ?_
    rw [PwFlowTraffic.reapplied, hp, hfixed, hmin, hmax, hstep]
    constructor
    · rintro ⟨-, hv, h⟩
      exact ⟨hv.mp trivial, (Except.ok.inj h).symm⟩
    · rintro ⟨hv, rfl⟩
      exact ⟨(), iff_of_true trivial hv, rfl⟩
  | false =>
    rw [hp] at hbps hpps
    rw [optField_rate (by decide) hbps, Bool.not_false, if_pos rfl]
    simp only [bind_of_eq_ok (optField_rate (by decide) hpps _ _), bind_eq_ok_iff,
      orFail_eq_ok_iff, failIf_eq_ok_iff, one_rate_iff]
    refine exists_congr fun v => and_congr_right fun _ => ?_
    rw [PwFlowTraffic.reapplied, hp, hfixed, hmin, hmax, hstep]
    constructor
    · rintro ⟨-, hv, h⟩
      exact ⟨fun h0 => hv.mp h0 rfl, (Except.ok.inj h).symm⟩
    · rintro ⟨hv, rfl⟩
      exact ⟨(), iff_of_false hv (fun h0 => h0 rfl), rfl⟩

end Traffic

end Blocks

end PacketWyrm
