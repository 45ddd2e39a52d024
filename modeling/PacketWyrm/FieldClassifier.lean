import PacketWyrm.MatchKey
import PacketWyrm.Lib.Bits
import PacketWyrm.Lib.Select

/-!
# The field and UDF comparator classifier

`pw_field_classifier` with its `pw_slice_match` units: a bank of narrow
comparators over the key's 32-bit lanes and over the captured header window,
and a table of rules, each an and over a subset of the comparator bits.  The
tables are quasi-static, so a classification is a function of the tables and of
the key; the two register stages only delay it.

## Main definitions

* `srcLane` — the lane a comparator reads.
* `FieldTables` — comparators, window comparators and rules.
* `FieldTables.result` — the registered result for a valid key.

## Main results

* `RuleRow.hit_eq_true_iff` — a rule hits when it is enabled and every
  comparator it cares about matches.
* `FieldTables.result_eq` — the result is that of the first best matching rule.
-/

namespace PacketWyrm

open Lib

/-- `HDR_BYTES`: depth of the parser's captured header window. -/
def hdrBytes : ℕ := 176

/-- The captured header window: byte `b` of the frame, for `b < hdrBytes`. -/
abbrev Window := ℕ → Byte

/-! ## Lanes -/

/-- The bit of a Boolean. -/
def bit (b : Bool) : BitVec 1 := BitVec.ofBool b

/-- `flags_lane`: the parser's Boolean classifications, `is_test` in bit 0. -/
def flagsLane (k : PwMatchKey) : BitVec 32 :=
  0#21 ++ bit k.valid ++ bit k.vlanValid ++ bit k.isOspf ++ bit k.isIcmp6 ++ bit k.isIcmp ++
    bit k.isUdp ++ bit k.isTcp ++ bit k.isIpv6 ++ bit k.isIpv4 ++ bit k.isArp ++ bit k.isTest

/-- `src_lane`: the 32-bit lane with the given selector. -/
def srcLane (k : PwMatchKey) (sel : BitVec 5) : BitVec 32 :=
  match sel.toNat with
  | 0 => 0#16 ++ k.l4Dst
  | 1 => 0#16 ++ k.l4Src
  | 2 => k.ipv4Dst
  | 3 => k.ipv4Src
  | 4 => k.ipv6Dst.extractLsb' 96 32
  | 5 => k.ipv6Dst.extractLsb' 64 32
  | 6 => k.ipv6Dst.extractLsb' 32 32
  | 7 => k.ipv6Dst.extractLsb' 0 32
  | 8 => 0#16 ++ k.ethertype
  | 9 => 0#24 ++ k.l3Proto
  | 10 => 0#19 ++ bit k.innerVlanValid ++ k.vlanId
  | 11 => k.testFlowId
  | 12 => flagsLane k
  | 13 => 0#28 ++ k.ingressPort
  | 14 => k.ipv6Src.extractLsb' 0 32
  | 15 => k.ipv6Src.extractLsb' 96 32
  | 16 => k.ipv6Src.extractLsb' 32 32
  | 17 => k.ipv6Src.extractLsb' 64 32
  | _ => 0

/-! ## Table rows -/

/-- A field comparator: `{src, mask, value}`. -/
structure CmpRow where
  src : BitVec 5 := 0
  mask : BitVec 32 := 0
  value : BitVec 32 := 0
  deriving DecidableEq, Repr

/-- A window comparator: `{offset, mask, value}`. -/
structure UdfRow where
  offset : BitVec 16 := 0
  mask : BitVec 32 := 0
  value : BitVec 32 := 0
  deriving DecidableEq, Repr

/-- A rule: the comparators it cares about, and what it decides. -/
structure RuleRow where
  care : BitVec 14 := 0
  action : PwAction := .drop
  egress : BitVec 4 := 0
  lfid : BitVec 32 := 0
  lif : BitVec 32 := 0
  prio : BitVec 8 := 0
  enable : Bool := false
  deriving DecidableEq, Repr

/-- A field comparator's match bit. -/
def CmpRow.matches (c : CmpRow) (k : PwMatchKey) : Bool :=
  srcLane k c.src &&& c.mask == c.value &&& c.mask

/-- `byte_at`: bytes beyond the window read as 0. -/
def byteAt (win : Window) (b : BitVec 16) : Byte :=
  if b.toNat < hdrBytes then win b.toNat else 0

/-- `ext`: four window bytes, the first one most significant. -/
def sliceExt (win : Window) (off : BitVec 16) : BitVec 32 :=
  byteAt win off ++ byteAt win (off + 1) ++ byteAt win (off + 2) ++ byteAt win (off + 3)

/-- A window comparator's match bit, its offset counting from the inner-frame
base. -/
def UdfRow.matches (u : UdfRow) (win : Window) (base : BitVec 16) : Bool :=
  sliceExt win (base + u.offset) &&& u.mask == u.value &&& u.mask

/-! ## Classification -/

/-- The programmed tables of one field classifier. -/
structure FieldTables where
  cmp : Fin 12 → CmpRow
  udf : Fin 2 → UdfRow
  rule : Fin 32 → RuleRow

/-- The tables at configuration: no rule is enabled. -/
def FieldTables.init : FieldTables :=
  { cmp := fun _ => {}, udf := fun _ => {}, rule := fun _ => {} }

/-- `cmatch_q`: the field comparators' bits below the window comparators'. -/
def FieldTables.cmatch (t : FieldTables) (k : PwMatchKey) (win : Window) (base : BitVec 16)
    (i : Fin 14) : Bool :=
  if h : i.val < 12 then (t.cmp ⟨i.val, h⟩).matches k
  else (t.udf ⟨i.val - 12, by omega⟩).matches win base

/-- `rhit`, with the key valid. -/
def RuleRow.hit (cmatch : Fin 14 → Bool) (r : RuleRow) : Bool :=
  r.enable && (ofBits cmatch &&& r.care == r.care)

/-- What a winning rule makes of the result. -/
def RuleRow.result (r : RuleRow) : PwClassResult :=
  { hit := true, action := r.action, egressPort := r.egress, localFlowId := r.lfid,
    logicalIfId := r.lif }

/-- The registered result for a valid key. -/
def FieldTables.result (t : FieldTables) (k : PwMatchKey) (win : Window) (base : BitVec 16) :
    PwClassResult :=
  selectFold (fun r => r.prio.toNat) t.rule (RuleRow.hit (t.cmatch k win base)) RuleRow.result {}

theorem RuleRow.hit_eq_true_iff {cmatch : Fin 14 → Bool} {r : RuleRow} :
    r.hit cmatch = true ↔
      r.enable = true ∧ ∀ i : Fin 14, r.care.getLsbD i = true → cmatch i = true := by
  rw [RuleRow.hit, Bool.and_eq_true, beq_iff_eq, ofBits_and_eq_iff]

/-- **The result is that of the first best matching rule**, and no hit when
none matches. -/
theorem FieldTables.result_eq (t : FieldTables) (k : PwMatchKey) (win : Window)
    (base : BitVec 16) :
    t.result k win base =
      (select (fun r => r.prio.toNat) (RuleRow.hit (t.cmatch k win base)) RuleRow.result
        (List.ofFn t.rule)).getD {} :=
  selectFold_eq _ _

end PacketWyrm
