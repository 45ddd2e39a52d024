import PacketWyrm.Types

/-!
# The parsed header key and the result of a classification

`pw_match_key_t` and `pw_class_result_t` of `pw_classifier_pkg`.  The key's
legacy aliases of the L4 ports and the raw test magic are read by no classifier.
-/

namespace PacketWyrm

/-- `pw_action_e`. -/
inductive PwAction where
  | drop
  | testRx
  | puntToHost
  | mirrorToHost
  | forwardPort
  deriving DecidableEq, Repr

/-- The three-bit code of an action. -/
def PwAction.code : PwAction → BitVec 3
  | .drop => 0
  | .testRx => 1
  | .puntToHost => 2
  | .mirrorToHost => 3
  | .forwardPort => 4

/-- The cast `pw_action_e'(code)`; the codes 5 to 7 name no action and no
consumer of the result tests for them. -/
def PwAction.ofCode (c : BitVec 3) : PwAction :=
  if c = 1 then .testRx
  else if c = 2 then .puntToHost
  else if c = 3 then .mirrorToHost
  else if c = 4 then .forwardPort
  else .drop

@[simp] theorem PwAction.ofCode_code (a : PwAction) : PwAction.ofCode a.code = a := by
  cases a <;> rfl

/-- `pw_match_key_t`: the fields the parser extracts from one frame. -/
structure PwMatchKey where
  valid : Bool := false
  isTest : Bool := false
  isArp : Bool := false
  isIpv4 : Bool := false
  isIpv6 : Bool := false
  isTcp : Bool := false
  isUdp : Bool := false
  isIcmp : Bool := false
  isIcmp6 : Bool := false
  isOspf : Bool := false
  ingressPort : BitVec 4 := 0
  ethertype : BitVec 16 := 0
  vlanValid : Bool := false
  vlanId : BitVec 12 := 0
  innerVlanValid : Bool := false
  innerVlanId : BitVec 12 := 0
  l3Proto : BitVec 8 := 0
  ipv4Src : BitVec 32 := 0
  ipv4Dst : BitVec 32 := 0
  ipv6Src : BitVec 128 := 0
  ipv6Dst : BitVec 128 := 0
  l4Src : BitVec 16 := 0
  l4Dst : BitVec 16 := 0
  udpSrc : BitVec 16 := 0
  udpDst : BitVec 16 := 0
  testMagic : BitVec 32 := 0
  testFlowId : BitVec 32 := 0
  testSequence : BitVec 64 := 0
  testTxTimestamp : BitVec 64 := 0
  deriving DecidableEq, Repr

/-- `pw_class_result_t`, without the index of the winning entry, which has no
consumer. -/
structure PwClassResult where
  hit : Bool := false
  action : PwAction := .drop
  egressPort : BitVec 4 := 0
  localFlowId : BitVec 32 := 0
  logicalIfId : BitVec 32 := 0
  deriving DecidableEq, Repr

end PacketWyrm
