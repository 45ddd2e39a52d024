import PacketWyrm.Classify
import PacketWyrm.Lib.Clocked

/-!
# The classification pipeline of a port

`pw_field_classifier`, `pw_hash_classifier` and `pw_flowid_map` clock by clock,
with latencies 2, 4 and 1, and the registers of `pw_data_plane_axis` that bring
them together: the map's result is delayed by three cycles, the rules' result by
two, and the key with its valid, wire timestamp and length by four.

A table may be written in any cycle; each stage reads the tables as they stand in
its own cycle.

## Main definitions

* `RxKeyIn` — what the parser shows in a cycle, and the tables of that cycle.
* `FieldPipe`, `HashPipe`, `MapPipe` — the three classifiers.
* `RxPipe` — all registers, `RxPipe.eff` — `rx_eff`.

## Main results

* `RxPipe.run_four` — four clock edges after a key its own result is shown.
* `classification_aligned` — over every run.
-/

namespace PacketWyrm

open Lib

variable {lfw : ℕ}

/-- What travels with a key: its valid, wire timestamp and frame length. -/
structure RxTap where
  keyValid : Bool := false
  key : PwMatchKey := {}
  wireTs : BitVec 64 := 0
  frameLen : BitVec 16 := 0

/-- A cycle: the outputs of the parser, and the tables. -/
structure RxKeyIn (lfw : ℕ) extends RxTap where
  window : Window
  base : BitVec 16
  tables : CardTables lfw

/-! ## The classifiers -/

/-- The registers of `pw_field_classifier`. -/
structure FieldPipe where
  cmatchQ : Fin 14 → Bool := fun _ => false
  cvQ : Bool := false
  result : PwClassResult := {}

/-- `rhit` in stage 2. -/
def FieldPipe.rhit (s : FieldPipe) (r : RuleRow) : Bool :=
  r.enable && s.cvQ && (ofBits s.cmatchQ &&& r.care == r.care)

/-- Comparators first, then the winning rule. -/
def FieldPipe.step (s : FieldPipe) (i : RxKeyIn lfw) : FieldPipe :=
  { cmatchQ := i.tables.field.cmatch i.key i.window i.base
    cvQ := i.keyValid
    result := selectFold (fun r => r.prio.toNat) i.tables.field.rule s.rhit RuleRow.result {} }

/-- The registers of `pw_hash_classifier`. -/
structure HashPipe (lfw : ℕ) where
  mkeyQ1 : HashKey := 0
  kv1 : Bool := false
  k32Q : BitVec 32 := 0
  keyQ1b : HashKey := 0
  kv1b : Bool := false
  rdQ : HashBucket lfw := {}
  keyQ : HashKey := 0
  kvQ : Bool := false
  valid : Bool := false
  localFlowId : BitVec lfw := 0

/-- Mask, fold, read, verify. -/
def HashPipe.step (s : HashPipe lfw) (i : RxKeyIn lfw) : HashPipe lfw :=
  { mkeyQ1 := assemble i.key &&& i.tables.hash.mask
    kv1 := i.keyValid
    k32Q := fold s.mkeyQ1
    keyQ1b := s.mkeyQ1
    kv1b := s.kv1
    rdQ := i.tables.hash.bucket (mulshift s.k32Q i.tables.hash.seed).toFin
    keyQ := s.keyQ1b
    kvQ := s.kv1b
    valid := s.kvQ && s.rdQ.valid && s.rdQ.key == s.keyQ
    localFlowId := s.rdQ.lfid }

/-- The registers of `pw_flowid_map`. -/
structure MapPipe (lfw : ℕ) where
  rdQ : MapEntry lfw := {}
  inRangeQ : Bool := false
  isTestQ : Bool := false
  lookupEnQ : Bool := false

/-- The entry is read at the low bits of the flow id. -/
def MapPipe.step (_ : MapPipe lfw) (i : RxKeyIn lfw) : MapPipe lfw :=
  { rdQ := i.tables.map ⟨i.key.testFlowId.toNat % 256, Nat.mod_lt _ (by decide)⟩
    inRangeQ := decide (i.key.testFlowId.toNat < 256)
    isTestQ := i.key.isTest
    lookupEnQ := i.keyValid }

/-- `valid_o` of the map. -/
def MapPipe.valid (s : MapPipe lfw) : Bool :=
  s.lookupEnQ && s.isTestQ && s.inRangeQ && s.rdQ.valid

/-- The outputs of the hash classifier: a slot, if the verify passed. -/
def HashPipe.result (s : HashPipe lfw) : Option (BitVec lfw) :=
  if s.valid then some s.localFlowId else none

/-! ## Realignment -/

/-- The result of the map on its way: `mv2, ml2` to `mv4, ml4`. -/
structure MapResult (lfw : ℕ) where
  valid : Bool := false
  lfid : BitVec lfw := 0

/-- A slot, if the entry was a valid one. -/
def MapResult.result (m : MapResult lfw) : Option (BitVec lfw) :=
  if m.valid then some m.lfid else none

/-- All registers between the parser of a port and `rx_eff`. -/
structure RxPipe (lfw : ℕ) where
  field : FieldPipe := {}
  hash : HashPipe lfw := {}
  map : MapPipe lfw := {}
  m2 : MapResult lfw := {}
  m3 : MapResult lfw := {}
  m4 : MapResult lfw := {}
  fcD : PwClassResult := {}
  fcD2 : PwClassResult := {}
  tapD1 : RxTap := {}
  tapD2 : RxTap := {}
  tapD3 : RxTap := {}
  tapD : RxTap := {}

namespace RxPipe

/-- One clock edge. -/
def step (s : RxPipe lfw) (i : RxKeyIn lfw) : RxPipe lfw :=
  { field := s.field.step i
    hash := s.hash.step i
    map := s.map.step i
    m2 := { valid := s.map.valid, lfid := s.map.rdQ.lfid }
    m3 := s.m2
    m4 := s.m3
    fcD := s.field.result
    fcD2 := s.fcD
    tapD1 := i.toRxTap
    tapD2 := s.tapD1
    tapD3 := s.tapD2
    tapD := s.tapD3 }

/-- `rx_eff`: the later assignments win. -/
def eff (s : RxPipe lfw) : PwClassResult :=
  if s.m4.valid then testRxResult s.m4.lfid
  else if s.hash.valid then testRxResult s.hash.localFlowId
  else s.fcD2

theorem eff_eq (s : RxPipe lfw) :
    s.eff =
      match s.m4.result with
      | some lfid => testRxResult lfid
      | none =>
        match s.hash.result with
        | some lfid => testRxResult lfid
        | none => s.fcD2 := by
  rw [eff, MapResult.result, HashPipe.result]
  cases s.m4.valid with
  | true => rfl
  | false =>
    cases s.hash.valid with
    | true => rfl
    | false => rfl

/-- No key is on its way. -/
structure Empty (s : RxPipe lfw) : Prop where
  tapD1 : s.tapD1.keyValid = false
  tapD2 : s.tapD2.keyValid = false
  tapD3 : s.tapD3.keyValid = false
  tapD : s.tapD.keyValid = false

end RxPipe

/-- The tables that a key meets: its comparators, its map entry and the hash mask
in the first cycle, the rules in the second, seed and bucket in the third. -/
def stagedTables (i0 i1 i2 : RxKeyIn lfw) : CardTables lfw :=
  { field := { i0.tables.field with rule := i1.tables.field.rule }
    hash := { i2.tables.hash with mask := i0.tables.hash.mask }
    map := i0.tables.map }

/-- Tables that stand still are met as they are. -/
theorem stagedTables_of_const {i0 i1 i2 : RxKeyIn lfw} {t : CardTables lfw} (h0 : i0.tables = t)
    (h1 : i1.tables = t) (h2 : i2.tables = t) : stagedTables i0 i1 i2 = t := by
  rw [stagedTables, h0, h1, h2]

/-! ## What each path shows -/

section Paths

variable (s : RxPipe lfw) (i0 i1 i2 i3 : RxKeyIn lfw)

/-- After four edges the delayed key is the first one. -/
theorem RxPipe.tapD_run : (run RxPipe.step s [i0, i1, i2, i3]).tapD = i0.toRxTap := rfl

/-- The result of the rules is that of the first key. -/
theorem RxPipe.fcD2_run :
    (run RxPipe.step s [i0, i1, i2, i3]).fcD2 =
      if i0.keyValid then (stagedTables i0 i1 i2).field.result i0.key i0.window i0.base
      else {} := by
  show selectFold (fun r => r.prio.toNat) i1.tables.field.rule (s.field.step i0).rhit
    RuleRow.result {} = _
  have hhit : (s.field.step i0).rhit = fun r : RuleRow =>
      i0.keyValid && r.hit (i0.tables.field.cmatch i0.key i0.window i0.base) := by
    funext r
    show (r.enable && i0.keyValid && _) = _
    rw [RuleRow.hit, Bool.and_comm r.enable, Bool.and_assoc]
    rfl
  rw [hhit]
  cases hv : i0.keyValid with
  | false =>
    rw [selectFold_eq]
    simp only [Bool.false_and, select, List.filter_false, firstBest]
    rfl
  | true =>
    simp only [Bool.true_and, if_true]
    rfl

/-- So is the result of the hash table. -/
theorem RxPipe.hash_run :
    (run RxPipe.step s [i0, i1, i2, i3]).hash.result =
      if i0.keyValid then (stagedTables i0 i1 i2).hash.lookup i0.key else none := by
  show (if i0.keyValid && _ && _ then some _ else none) = _
  cases i0.keyValid with
  | false => rfl
  | true => rfl

/-- And that of the map. -/
theorem RxPipe.map_run :
    (run RxPipe.step s [i0, i1, i2, i3]).m4.result =
      if i0.keyValid then (stagedTables i0 i1 i2).map.lookup i0.key else none := by
  show (if i0.keyValid && _ && _ && _ then some _ else none) = _
  cases i0.keyValid with
  | false => rfl
  | true => rfl

/-- **Four edges after a key its own classification is shown**, whatever stood in
the registers and whatever keys follow. -/
theorem RxPipe.eff_run :
    (run RxPipe.step s [i0, i1, i2, i3]).eff =
      if i0.keyValid then (stagedTables i0 i1 i2).eff i0.key i0.window i0.base else {} := by
  rw [RxPipe.eff_eq, RxPipe.map_run, RxPipe.hash_run, RxPipe.fcD2_run]
  cases i0.keyValid with
  | false => rfl
  | true => rfl

end Paths

/-- After a reset no key is shown before the first has gone through. -/
theorem RxPipe.Empty.run_short {s : RxPipe lfw} (h : s.Empty) {ins : List (RxKeyIn lfw)}
    (hlen : ins.length < 4) : (run RxPipe.step s ins).tapD.keyValid = false := by
  cases ins with
  | nil => exact h.tapD
  | cons a l =>
    cases l with
    | nil => exact h.tapD3
    | cons b l =>
      cases l with
      | nil => exact h.tapD2
      | cons c l =>
        cases l with
        | nil => exact h.tapD1
        | cons d l =>
          simp only [List.length_cons] at hlen
          omega

/-- **Alignment and precedence.**  In every cycle of every run from a reset, the
key that is shown with its valid, timestamp and length is the one that the parser
showed four cycles before, and the effective classification is map over hash over
rules of that same key. -/
theorem classification_aligned {s : RxPipe lfw} (hs : s.Empty) (ins : List (RxKeyIn lfw)) :
    (ins.length < 4 → (run RxPipe.step s ins).tapD.keyValid = false) ∧
    ∀ pre i0 i1 i2 i3, ins = pre ++ [i0, i1, i2, i3] →
      (run RxPipe.step s ins).tapD = i0.toRxTap ∧
      (run RxPipe.step s ins).eff =
        if i0.keyValid then (stagedTables i0 i1 i2).eff i0.key i0.window i0.base else {} := by
  refine ⟨hs.run_short, ?_⟩
  intro pre i0 i1 i2 i3 hins
  rw [hins, run_append]
  exact ⟨RxPipe.tapD_run _ i0 i1 i2 i3, RxPipe.eff_run _ i0 i1 i2 i3⟩

/-- A test key of flow 3, and another of flow 4 right behind it. -/
def sampleRxKey (flow : BitVec 32) : RxKeyIn 5 :=
  { keyValid := true, key := { isTest := true, testFlowId := flow, testSequence := 9 }
    wireTs := 100, frameLen := 64, window := fun _ => 0, base := 14
    tables :=
      { CardTables.init with
        map := fun i => { valid := true, lfid := BitVec.ofNat 5 (i.val + 8) } } }

/-- The first key comes out with its own slot, not with that of the second. -/
theorem classification_aligned_sample :
    (run RxPipe.step {} [sampleRxKey 3, sampleRxKey 4, sampleRxKey 4, sampleRxKey 4]).tapD =
        (sampleRxKey 3).toRxTap ∧
      (run RxPipe.step {} [sampleRxKey 3, sampleRxKey 4, sampleRxKey 4, sampleRxKey 4]).eff =
        testRxResult (11 : BitVec 5) := by
  have h := (classification_aligned (s := ({} : RxPipe 5)) ⟨rfl, rfl, rfl, rfl⟩ _).2 []
    (sampleRxKey 3) (sampleRxKey 4) (sampleRxKey 4) (sampleRxKey 4) rfl
  exact ⟨h.1, h.2.trans rfl⟩

end PacketWyrm
