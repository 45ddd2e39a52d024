import Mathlib.Data.BitVec
import Mathlib.Data.List.Basic
import Mathlib.Tactic.Common

/-!
# Status codes, diagnostics and the shared constants

The host library reports failure as a `pw_status`, and where it can also as a
`pw_diag` that names the configuration field at fault.  A modelled function
that returns a status returns `Except PwFailure`, which keeps both.
-/

namespace PacketWyrm

/-- The statuses of `pw_status` that a modelled function returns. -/
inductive PwStatus where
  | inval
  | parse
  | dupCardId
  | dupGlobalPort
  | dupLogicalIf
  | dupFlowId
  | unknownCard
  | unknownGlobalPort
  | unknownLogicalIf
  | missingField
  | outOfRange
  | noCard
  | noResources
  | backend
  | io
  | notImplemented
  deriving DecidableEq, Repr

/-- `struct pw_diag`: the status with the path of the field and a message. -/
structure PwDiag where
  code : PwStatus
  path : String
  message : String
  deriving DecidableEq, Repr

/-- What a failing call leaves behind: the status it returns, and the
diagnostic when it filled one. -/
structure PwFailure where
  status : PwStatus
  diag : Option PwDiag := none
  deriving DecidableEq, Repr

/-- Fill the diagnostic and return its code, as the `diag` helper of the
validator and every `diag_set` that precedes a `return` do. -/
def diag (code : PwStatus) (path message : String) : PwFailure :=
  { status := code, diag := some { code, path, message } }

/-- Fail with a status alone. -/
def bare (code : PwStatus) : PwFailure := { status := code }

/-- A frame or register byte. -/
abbrev Byte := BitVec 8

-- Instances that definitions of many modules use, each under one name.
instance lawfulBEq_byte : LawfulBEq Byte := inferInstance

instance lawfulBEq_bytes : LawfulBEq (List Byte) := inferInstance

instance neZero_two : NeZero 2 := ⟨by decide⟩

instance neZero_32 : NeZero 32 := ⟨by decide⟩

instance neZero_128 : NeZero 128 := ⟨by decide⟩

instance neZero_256 : NeZero 256 := ⟨by decide⟩

/-! ## Capacities of the card (`csr.h`) -/

/-- `PWFPGA_NUM_CMP`: field comparators of a card. -/
def numCmp : ℕ := 12

/-- `PWFPGA_NUM_UDF`: raw-window comparators of a card. -/
def numUdf : ℕ := 2

/-- `PWFPGA_NUM_RULE`: rules of a card. -/
def numRule : ℕ := 32

/-- `PWFPGA_HASH_DEPTH`: buckets of the hash table. -/
def hashDepth : ℕ := 128

/-- `PWFPGA_HASH_KEY_WORDS`: words of a hash key. -/
def hashKeyWords : ℕ := 11

/-- `PWFPGA_FLOWID_MAP_DEPTH`: entries of the flow-id map. -/
def flowidMapDepth : ℕ := 256

/-- `PWFPGA_FLOW_TABLE_ROWS`: rows of the flow table window,
`(0xA000 - 0x6000) / 256`. -/
def flowTableRows : ℕ := 64

/-- `PW_PORTS_PER_CARD`, and the RTL's number of data-plane ports. -/
def portsPerCard : ℕ := 2

end PacketWyrm
