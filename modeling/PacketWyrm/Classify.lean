import PacketWyrm.FieldClassifier
import PacketWyrm.HashClassifier

/-!
# The three classification paths of a port

`pw_flowid_map`, and the precedence multiplexer of `pw_data_plane_axis`: a test
frame's flow id selects a checker slot directly, else the header hash does,
else the rules decide.  Every port of a card is programmed with the same
tables.

## Main definitions

* `FlowidMap` — the flow-id map and its lookup.
* `CardTables` — everything a card's classification is programmed with.
* `CardTables.eff` — the effective result, `rx_eff`.
-/

namespace PacketWyrm

variable {lfw : ℕ}

/-- An entry of the flow-id map. -/
structure MapEntry (lfw : ℕ) where
  valid : Bool := false
  lfid : BitVec lfw := 0
  deriving DecidableEq

/-- `pw_flowid_map`: one entry for every flow id in range. -/
abbrev FlowidMap (lfw : ℕ) := Fin 256 → MapEntry lfw

/-- A programmed entry for an in-range flow id of a test frame. -/
def FlowidMap.lookup (m : FlowidMap lfw) (k : PwMatchKey) : Option (BitVec lfw) :=
  let e := m ⟨k.testFlowId.toNat % 256, Nat.mod_lt _ (by decide)⟩
  if k.isTest && decide (k.testFlowId.toNat < 256) && e.valid then some e.lfid else none

/-- The committed classifier state of a card. -/
structure CardTables (lfw : ℕ) where
  field : FieldTables
  hash : HashTables lfw
  map : FlowidMap lfw

/-- The state at configuration. -/
def CardTables.init : CardTables lfw :=
  { field := .init, hash := .init, map := fun _ => {} }

/-- A hit of the map or of the hash table: test traffic for a checker slot. -/
def testRxResult (lfid : BitVec lfw) : PwClassResult :=
  { hit := true, action := .testRx, localFlowId := lfid.setWidth 32 }

/-- `rx_eff`: map over hash over rules. -/
def CardTables.eff (t : CardTables lfw) (k : PwMatchKey) (win : Window) (base : BitVec 16) :
    PwClassResult :=
  match t.map.lookup k with
  | some lfid => testRxResult lfid
  | none =>
    match t.hash.lookup k with
    | some lfid => testRxResult lfid
    | none => t.field.result k win base

end PacketWyrm
