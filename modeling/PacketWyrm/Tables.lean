import PacketWyrm.FlowCompiler
import PacketWyrm.Classify
import PacketWyrm.Lib.Table

/-!
# The tables a program stands for

The rows a compiled program puts into a card's tables: every field cut to the
width the hardware gives it, unused rows as they are at configuration.

## Main definitions

* `PwCardProgram.tables` — the committed classifier state of a card that holds
  the program and nothing else.
-/

namespace PacketWyrm

open Lib

/-- A comparator's row. -/
def PwFcCmp.row (c : PwFcCmp) : CmpRow :=
  { src := c.src.code.setWidth 5, mask := c.mask, value := c.value }

/-- A window comparator's row. -/
def PwFcUdf.row (u : PwFcUdf) : UdfRow :=
  { offset := u.offset, mask := u.mask, value := u.value }

/-- A configured rule's row: enabled, with 14 care bits and 4 egress bits. -/
def PwFcRule.row (r : PwFcRule) : RuleRow :=
  { care := r.care.setWidth 14, action := r.action, egress := r.egress.setWidth 4
    lfid := r.localFlowId, lif := r.logicalIfId, prio := r.priority, enable := true }

/-- A hash entry's bucket. -/
def PwFcHashEntry.bucket (lfw : ℕ) (e : PwFcHashEntry) : HashBucket lfw :=
  { valid := true, key := packWords e.keyWord, lfid := e.localFlowId.setWidth lfw }

/-- A map entry's row. -/
def PwFlowidMapEntry.row (lfw : ℕ) (m : PwFlowidMapEntry) : MapEntry lfw :=
  { valid := true, lfid := m.localFlowId.setWidth lfw }

namespace PwCardProgram

variable (cp : PwCardProgram) (lfw : ℕ)

/-- Comparators, window comparators and rules, each at its list position. -/
def fieldTables : FieldTables :=
  { cmp := fun i => (cp.fcCmps[i.val]?.map PwFcCmp.row).getD {}
    udf := fun i => (cp.fcUdfs[i.val]?.map PwFcUdf.row).getD {}
    rule := fun i => (cp.fcRules[i.val]?.map PwFcRule.row).getD {} }

/-- Seed and mask are written only with entries; an entry goes to its index. -/
def hashTables : HashTables lfw :=
  if cp.hashEntries.isEmpty then .init
  else
    { seed := cp.hashSeed
      mask := packWords cp.hashMask
      bucket := writeAll (fun e => Fin.ofNat 128 e.index.toNat) (PwFcHashEntry.bucket lfw)
        cp.hashEntries (fun _ => {}) }

/-- A map entry goes to its flow id. -/
def mapTable : FlowidMap lfw :=
  writeAll (fun m => Fin.ofNat 256 m.flowId.toNat) (PwFlowidMapEntry.row lfw)
    cp.mapEntries (fun _ => {})

/-- The classifier state of a card that holds the program alone. -/
def tables : CardTables lfw :=
  { field := cp.fieldTables, hash := cp.hashTables lfw, map := cp.mapTable lfw }

end PwCardProgram

end PacketWyrm
